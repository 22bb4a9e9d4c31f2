import ValueForm.Proofs.Analysis.Certainty

/-!
# Access to arrays of values

An array of a value-capable class may be made as an array of values. The accesses to it
are decided by what the analysis knows of the array where it is accessed, and that is
less than how it was made if other paths bring something else.
`MethodBody.flat_array_access` says where the two agree.
-/

namespace ValueForm

namespace Transfer

variable {answers : String → Except OracleError Bool}

theorem yields_capableClass?_of_capable {className : String}
    (isCapable : capability answers className = true) {before after : Effect}
    {found : Option String}
    (yields : Yields answers (capableClass? (.object className)) before found after) :
    found = some className ∧ before = after := by
  rcases yields_capableClass? yields with ⟨rfl, ⟨_, rfl, ⟨⟩, _⟩ | ⟨_, refused⟩⟩
  · exact ⟨rfl, rfl⟩
  · rw [capability_of_ok (refused className rfl)] at isCapable
    cases isCapable

end Transfer

namespace Instruction

/-- How deep on the stack the array lies that an instruction loads a reference from or
stores one into. -/
def arrayDepth? : Instruction → Option Nat
  | .arrayLoad .reference => some 1
  | .arrayStore .reference => some 2
  | _ => none

theorem arrayDepth?_cases {instruction : Instruction} {depth : Nat}
    (accesses : instruction.arrayDepth? = some depth) :
    (instruction = .arrayLoad .reference ∧ depth = 1) ∨
      (instruction = .arrayStore .reference ∧ depth = 2) := by
  unfold arrayDepth? at accesses
  split at accesses
  · cases accesses
    exact .inl ⟨rfl, rfl⟩
  · cases accesses
    exact .inr ⟨rfl, rfl⟩
  · cases accesses

section

variable {answers : String → Except OracleError Bool} {place : Place} {locals : Array Value}
  {position value : Value} {rest : List Value} {element : String} {effect : Effect} {ended : Unit}

theorem accessed?_loadElement (isFlat : place.flatArrays = true)
    (isCapable : capability answers element = true)
    (yields : Transfer.Yields answers (Transfer.loadElement place)
      ⟨⟨locals, position :: .precise (.array (.object element)) :: rest⟩, []⟩ ended effect) :
    (recordedPatch? effect.edits).bind Patch.accessed? = some element := by
  simp only [Transfer.loadElement, Transfer.yields_bind, Transfer.yields_discard,
    Transfer.yields_pop] at yields
  rcases yields with ⟨_, _, ⟨_, _, ⟨⟩, rfl⟩, _, _, ⟨_, ⟨⟩, rfl⟩, loaded⟩
  simp only [Transfer.yields_bind] at loaded
  rcases loaded with ⟨_, _, asked, loaded⟩
  rcases Transfer.yields_capableClass?_of_capable isCapable asked with ⟨rfl, rfl⟩
  simp only [isFlat, if_true, Transfer.yields_bind, Transfer.yields_record,
    Transfer.yields_pushCapable] at loaded
  rcases loaded with ⟨_, _, rfl, rfl⟩
  rfl

theorem accessed?_storeElement (isFlat : place.flatArrays = true)
    (isCapable : capability answers element = true)
    (yields : Transfer.Yields answers (Transfer.storeElement place)
      ⟨⟨locals, value :: position :: .precise (.array (.object element)) :: rest⟩, []⟩ ended
      effect) :
    (recordedPatch? effect.edits).bind Patch.accessed? = some element := by
  simp only [Transfer.storeElement, Transfer.yields_bind, Transfer.yields_discard,
    Transfer.yields_pop] at yields
  rcases yields with ⟨_, _, ⟨_, ⟨⟩, rfl⟩, _, _, ⟨_, _, ⟨⟩, rfl⟩, _, _, ⟨_, ⟨⟩, rfl⟩, _, _, asked,
    stored⟩
  simp only [Transfer.valueElement?, isFlat, if_true] at asked
  rcases Transfer.yields_capableClass?_of_capable isCapable asked with ⟨rfl, rfl⟩
  cases value with
  | capable className operand =>
      by_cases same : className = element
      · simp only [same, if_true, Transfer.yields_bind, Transfer.yields_edit,
          Transfer.yields_record] at stored
        rcases stored with ⟨_, _, rfl, rfl⟩
        rfl
      · simp only [same, if_false, Transfer.yields_bind, Transfer.yields_edit,
          Transfer.yields_record] at stored
        rcases stored with ⟨_, _, rfl, rfl⟩
        rfl
  | _ =>
      rw [Transfer.yields_record] at stored
      subst stored
      rfl

end

variable {answers : String → Except OracleError Bool} {place : Place} {instruction : Instruction}
  {before : Frame} {effect : Effect} {depth : Nat}

/-- An array that is known to be one of values is accessed as one. -/
theorem accessed?_of_array {element : String}
    (transferred : (instruction.transfer place before).eval answers = .ok effect)
    (isFlat : place.flatArrays = true) (isCapable : capability answers element = true)
    (accesses : instruction.arrayDepth? = some depth)
    (isArray : before.stack[depth]? = some (.precise (.array (.object element)))) :
    (recordedPatch? effect.edits).bind Patch.accessed? = some element := by
  rcases exists_yields transferred with ⟨ended, yields⟩
  rcases before with ⟨locals, stack⟩
  rcases arrayDepth?_cases accesses with ⟨rfl, rfl⟩ | ⟨rfl, rfl⟩
  · match stack, isArray with
    | position :: _ :: rest, rfl => exact accessed?_loadElement isFlat isCapable yields
  · match stack, isArray with
    | value :: position :: _ :: rest, rfl => exact accessed?_storeElement isFlat isCapable yields

/-- Anything else is accessed as before. -/
theorem Step.accessed?_eq_none {capable : String → Bool} {array : Value}
    (step : Step place capable instruction before effect)
    (accesses : instruction.arrayDepth? = some depth)
    (isArray : before.stack[depth]? = some array)
    (unknown : ∀ element, array ≠ .precise (.array (.object element))) :
    (recordedPatch? effect.edits).bind Patch.accessed? = none := by
  rcases arrayDepth?_cases accesses with ⟨rfl, rfl⟩ | ⟨rfl, rfl⟩
  · cases step with
    | consume known count pushes =>
        cases known
        cases pushes
        rw [List.append_nil, Signature.recordedPatch?_forces]
        rfl
    | loadElement => exact absurd (Option.some.inj isArray).symm (unknown _)
    | load reads => cases reads
    | loadValue reads => cases reads
    | store writes => cases writes
    | storeValue writes => cases writes
    | increment increments => cases increments
  · cases step with
    | consume known count pushes =>
        cases known
        cases pushes
        rw [List.append_nil, Signature.recordedPatch?_forces]
        rfl
    | storeElement | convertElement => exact absurd (Option.some.inj isArray).symm (unknown _)
    | load reads => cases reads
    | loadValue reads => cases reads
    | store writes => cases writes
    | storeValue writes => cases writes
    | increment increments => cases increments

end Instruction

namespace Analysis

variable {analysis : Analysis} {answers : String → Except OracleError Bool}
  {handlers : List Handler} {result : AnalysisResult}

/-- Only arrays of value-capable classes are made as arrays of values. -/
theorem Invariant.capable_of_flatElement? {entry : Frame}
    (invariant : analysis.Invariant answers handlers entry result.state) {index : Nat}
    {element : String} (isFlat : result.registry.flatElement? index = some element) :
    capability answers element = true := by
  rcases Option.bind_eq_some_iff.1 isFlat with ⟨patch, decided, _⟩
  have isDecided : result.registry.get? (.instruction index) ≠ none := by
    rw [decided]
    exact Option.some_ne_none patch
  rcases invariant.grounded.owned index isDecided with ⟨before, found⟩
  rcases invariant.settled_of_frame found with ⟨located, effect, _, settled⟩
  rw [settled.reflected.flatElement?_eq] at isFlat
  exact ((Instruction.transfer_step settled.transferred).creates isFlat).1

/-- How an array that was made as one of values is accessed depends on whether it is
still known for one. -/
theorem Settled.flatAccess?_cases {index depth : Nat} {located : Located} {before : Frame}
    {effect : Effect} {registry : Registry} {frames : Array (Option Frame)} {element : String}
    {array : Value}
    (settled : analysis.Settled answers handlers registry frames index located before effect)
    (isFlat : analysis.flatArrays = true) (isCapable : capability answers element = true)
    (accesses : located.instruction.arrayDepth? = some depth)
    (isArray : before.stack[depth]? = some array)
    (known : array = .precise (.array (.object element)) ∨ array = .reference ∨
      array = .uninitialized) :
    array = .precise (.array (.object element)) ∧ registry.flatAccess? index = some element ∨
      (array = .reference ∨ array = .uninitialized) ∧ registry.flatAccess? index = none := by
  rw [settled.reflected.flatAccess?_eq]
  rcases known with rfl | unknown
  · exact .inl ⟨rfl,
      Instruction.accessed?_of_array settled.transferred isFlat isCapable accesses isArray⟩
  · have step := Instruction.transfer_step settled.transferred
    refine .inr ⟨unknown, step.accessed?_eq_none accesses isArray ?_⟩
    rintro other rfl
    rcases unknown with impossible | impossible <;> cases impossible

end Analysis

/-- An array that was made as one of values, and has only been moved since, is accessed
as one exactly where the analysis still knows it for one. That is so wherever every path
brings such an array or null. Elsewhere the array may have been joined with something else
into some reference, or into nothing usable, and then it is accessed by the instruction
for arrays of references. -/
theorem MethodBody.flat_array_access (find : ClassFinder) (oracle : Oracle)
    (classFile : ClassFile) (body : MethodBody) {result : AnalysisResult}
    (analyzed : ((body.analyze classFile true).run find oracle).result = .ok result)
    {handlers : List Handler} (resolved : (body.analysis classFile true).handlers = .ok handlers)
    {index depth allocation : Nat} {located : Located} {origins : Origins Nat} {element : String}
    (traced : (body.analysis classFile true).Traced handlers result index origins)
    (atIndex : body.instructions[index]? = some located)
    (accesses : located.instruction.arrayDepth? = some depth)
    (isOrigin : origins.stack[depth]? = some (some allocation))
    (isFlat : result.registry.flatElement? allocation = some element) :
    ∃ before array, result.frames[index]? = some (some before) ∧
      before.stack[depth]? = some array ∧
      (array = .precise (.array (.object element)) ∧
          result.registry.flatAccess? index = some element ∨
        (array = .reference ∨ array = .uninitialized) ∧
          result.registry.flatAccess? index = none) ∧
      (result.Usable →
        (body.analysis classFile true).AllBring handlers result element index none (.entry depth) →
        array = .precise (.array (.object element))) := by
  rw [Inquiry.run_result] at analyzed
  rcases analyze_spec analyzed with
    ⟨isEmpty, _⟩ | ⟨_, _, entry, registry, resolved', _, entered, invariant, _⟩
  · rw [isEmpty] at atIndex
    cases atIndex
  · cases resolved.symm.trans resolved'
    have entering := Analysis.enter_spec (Analysis.entering_empty _) entered
    rcases traced.fits invariant entering with ⟨before, found, fits⟩
    rcases Outcome.getElem?_of_forall₂ fits.stack isOrigin with ⟨array, isArray, allowed⟩
    rcases invariant.settled_of_frame found with ⟨_, effect, atIndex', settled⟩
    cases atIndex.symm.trans atIndex'
    have known := (allowed allocation rfl).cases isFlat
    refine ⟨before, array, found, isArray, ?_, ?_⟩
    · have isCapable := invariant.capable_of_flatElement? isFlat
      exact settled.flatAccess?_cases rfl isCapable accesses isArray known
    · intro usable allBring
      have certain : result.state.Everywhere
          ((body.analysis classFile true).Certain handlers result element) :=
        analyze_everywhere analyzed resolved (fun frame _ _ => Analysis.certain_entry frame)
          (Analysis.carries_certain invariant entering usable)
      rcases (certain index before found).arrays (.entry depth) array isArray allBring with
        isPrecise | rfl
      · exact isPrecise
      · rcases known with impossible | impossible | impossible <;> cases impossible

/-- A static method that makes an array of `V`, or takes something else if its parameter is
zero, and loads an element. -/
def MethodBody.pick (code : UInt8) (other : Instruction) : MethodBody where
  isStatic := true
  descriptor := "(I[Ljava/lang/Object;)V"
  code := {
    maxStack := 2
    maxLocals := 2
    code := [0x1a, 0x99, 0, 10, 0x04, 0xbd, 0, 2, 0xa7, 0, 4, code, 0x03, 0x32, 0x57, 0xb1]
    exceptions := []
    attributes := [] }
  instructions := #[⟨0, .loadShort .int 0⟩, ⟨1, .branch .eq 10⟩, ⟨4, .const .int1⟩,
    ⟨5, .newReferenceArray 2⟩, ⟨8, .goto 4⟩, ⟨11, other⟩, ⟨12, .const .int0⟩,
    ⟨13, .arrayLoad .reference⟩, ⟨14, .stack .pop⟩, ⟨15, .leave .void⟩]

namespace MethodBody.pick

/-- The path of `pick` that makes the array leads to the load with it. -/
theorem traced (code : UInt8) (other : Instruction) (result : AnalysisResult) :
    ∃ origins, ((pick code other).analysis .pair true).Traced [] result 7 origins ∧
      origins.stack[1]? = some (some 3) := by
  have next {index : Nat} {located : Located} {origins : Origins Nat} (inside : index < 9)
      (traced : ((pick code other).analysis .pair true).Traced [] result index origins)
      (atIndex : (pick code other).instructions[index]? = some located)
      (goesOn : located.instruction.endsFlow = false)
      (isPlain : located.instruction.isSubroutineCall = false) :=
    traced.next atIndex goesOn isPlain (Nat.succ_lt_succ inside)
  have tested := next (by decide) (next (by decide) .entry rfl rfl rfl) rfl rfl rfl
  have made := next (by decide) (next (by decide) tested rfl rfl rfl) rfl rfl rfl
  have joined := made.step rfl (List.mem_singleton_self (Except.ok (6, _)))
  exact ⟨_, next (by decide) joined rfl rfl rfl, rfl⟩

/-- The stacks that paths lead to the instructions of `pick` with, up to the load. -/
def possible : Nat → List (List (Option Nat))
  | 0 | 2 | 5 => [[]]
  | 1 | 3 => [[none]]
  | 4 => [[some 3]]
  | 6 => [[some 3], [some 5]]
  | _ => [[none, some 3], [none, some 5]]

theorem mem_possible {result : AnalysisResult} {index : Nat} {origins : Origins Nat}
    (traced : ((pick 0x01 (.const .null)).analysis .pair true).Traced [] result index origins)
    (notAfter : index ≤ 7) : origins.stack ∈ possible index := by
  induction traced with
  | entry => exact List.mem_singleton_self _
  | @step index target located origins origins' _ atIndex isFlow ih =>
      rcases origins with ⟨locals, stack⟩
      -- Up to the load nothing but the branch has two ways to go.
      match index, atIndex with
      | 0, rfl | 2, rfl | 3, rfl =>
          cases List.mem_singleton.1 (ih (by decide))
          cases List.mem_singleton.1 isFlow
          exact List.mem_singleton_self _
      | 1, rfl =>
          cases List.mem_singleton.1 (ih (by decide))
          rcases List.mem_pair.1 isFlow with isJump | isNext
          · cases isJump.trans (rfl : _ = Except.ok (5, _))
            exact List.mem_singleton_self _
          · cases isNext
            exact List.mem_singleton_self _
      | 4, rfl =>
          cases List.mem_singleton.1 (ih (by decide))
          cases (List.mem_singleton.1 isFlow).trans (rfl : _ = Except.ok (6, _))
          exact List.mem_cons_self
      | 5, rfl =>
          cases List.mem_singleton.1 (ih (by decide))
          cases List.mem_singleton.1 isFlow
          exact List.mem_cons_of_mem _ List.mem_cons_self
      | 6, rfl =>
          cases List.mem_singleton.1 isFlow
          rcases List.mem_pair.1 (ih (by decide)) with isArray | isNull
          · obtain rfl : stack = [some 3] := isArray
            exact List.mem_cons_self
          · obtain rfl : stack = [some 5] := isNull
            exact List.mem_cons_of_mem _ List.mem_cons_self
      | 7, rfl | 8, rfl =>
          cases List.mem_singleton.1 isFlow
          exact absurd notAfter (by decide)
      | 9, rfl => cases isFlow

/-- If the other thing is null, every path brings the array or null. -/
theorem allBring {result : AnalysisResult} (isFlat : result.registry.flatElement? 3 = some "V") :
    ((pick 0x01 (.const .null)).analysis .pair true).AllBring [] result "V" 7 none (.entry 1) := by
  intro origins traced
  rcases List.mem_pair.1 (mem_possible traced (Nat.le_refl 7)) with isArray | isNull
  · exact ⟨3, by rw [Origins.sourceOf, isArray]; rfl, .inl isFlat⟩
  · exact ⟨5, by rw [Origins.sourceOf, isNull]; rfl, .inr ⟨11, rfl⟩⟩

end MethodBody.pick

/-- The load of `pick` is changed if the other thing is null, and not if it is an array
that was passed to the method; the array of `V` is changed either way. -/
theorem MethodBody.flat_array_access_pick : ∃ result result',
    (((pick 0x01 (.const .null)).analyze .pair true).run (fun _ => .absent)
        (.knowing "V")).result = .ok result ∧
      (((pick 0x2b (.loadShort .reference 1)).analyze .pair true).run (fun _ => .absent)
        (.knowing "V")).result = .ok result' ∧
      result.registry.flatElement? 3 = some "V" ∧ result.registry.flatAccess? 7 = some "V" ∧
      result'.registry.flatElement? 3 = some "V" ∧ result'.registry.flatAccess? 7 = none := by
  have analyzed : ∃ result, (((pick 0x01 (.const .null)).analyze .pair true).run
      (fun _ => .absent) (.knowing "V")).result = .ok result ∧
        decide (result.registry.flatElement? 3 = some "V" ∧ result.Usable) = true := by
    apply Outcome.exists_of_any
    rw [Inquiry.run_result, Oracle.answer_knowing]
    decide +kernel
  have analyzed' : ∃ result, (((pick 0x2b (.loadShort .reference 1)).analyze .pair true).run
      (fun _ => .absent) (.knowing "V")).result = .ok result ∧
        decide (result.registry.flatElement? 3 = some "V" ∧
          result.frames[7]?.join.bind (·.stack[1]?) = some .reference) = true := by
    apply Outcome.exists_of_any
    rw [Inquiry.run_result, Oracle.answer_knowing]
    decide +kernel
  rcases analyzed with ⟨result, analyzed, isEnd⟩
  rcases analyzed' with ⟨result', analyzed', isEnd'⟩
  rcases of_decide_eq_true isEnd with ⟨isFlat, usable⟩
  rcases of_decide_eq_true isEnd' with ⟨isFlat', isAny⟩
  rcases pick.traced 0x01 (.const .null) result with ⟨origins, traced, isOrigin⟩
  rcases pick.traced 0x2b (.loadShort .reference 1) result' with ⟨origins', traced', isOrigin'⟩
  rcases flat_array_access _ _ _ _ analyzed rfl traced rfl rfl isOrigin isFlat with
    ⟨before, array, found, onStack, ending, known⟩
  rcases flat_array_access _ _ _ _ analyzed' rfl traced' rfl rfl isOrigin' isFlat' with
    ⟨before', array', found', onStack', ending', _⟩
  refine ⟨result, result', analyzed, analyzed', isFlat, ?_, isFlat', ?_⟩
  · obtain rfl := known usable (pick.allBring isFlat)
    rcases ending with ⟨_, isAccess⟩ | ⟨impossible | impossible, _⟩
    · exact isAccess
    · cases impossible
    · cases impossible
  · simp only [found', Option.join_some, Option.bind_some, onStack', Option.some.injEq] at isAny
    subst isAny
    rcases ending' with ⟨impossible, _⟩ | ⟨_, isKept⟩
    · cases impossible
    · exact isKept

end ValueForm
