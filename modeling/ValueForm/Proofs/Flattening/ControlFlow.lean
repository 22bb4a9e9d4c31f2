import ValueForm.Proofs.Flattening.Assembly

/-!
# Control flow of flattened code

The code of a flattened body takes apart into its prologue and one segment for
every instruction of the body before, each where the layout put it. From the
segment of a branch control goes where the branch led: to the start of the
segment of the same successor, however the operands compare. No jump leads into
the prologue or into the middle of a segment.
-/

namespace ValueForm

namespace Code

@[simp]
theorem locate_append (address : Nat) (first second : List Instruction) :
    locate address (first ++ second) =
      locate address first ++ locate (Emission.instructionsEnd address first) second := by
  induction first generalizing address with
  | nil => rfl
  | cons instruction rest ih => exact congrArg (⟨address, instruction⟩ :: ·) (ih _)

@[simp]
theorem locate_eq_nil_iff {address : Nat} {instructions : List Instruction} :
    locate address instructions = [] ↔ instructions = [] := by
  cases instructions <;> simp [locate]

theorem length_encodeFrom (address : Nat) (instructions : List Instruction) :
    address + (encodeFrom address [] instructions).length =
      Emission.instructionsEnd address instructions := by
  induction instructions generalizing address with
  | nil => rfl
  | cons instruction rest ih =>
      rw [encodeFrom_cons, List.length_append, Instruction.length_toBytes, ← Nat.add_assoc, ih]
      rfl

theorem length_encode (instructions : List Instruction) :
    (encode instructions).length = Emission.instructionsEnd 0 instructions :=
  (Nat.zero_add _).symm.trans (length_encodeFrom 0 instructions)

/-- Runs of instructions back to back, each from its bound to the next. -/
theorem locate_flatten {bounds : List Nat} {forms : List (List Instruction)} {start : Nat}
    (first : bounds[0]? = some start)
    (next : ∀ (index : Nat) (form : List Instruction), forms[index]? = some form →
      ∃ address, bounds[index]? = some address ∧
        bounds[index + 1]? = some (Emission.instructionsEnd address form)) :
    locate start forms.flatten = (bounds.zipWith locate forms).flatten ∧
      bounds[forms.length]? = some (Emission.instructionsEnd start forms.flatten) := by
  induction forms generalizing bounds start with
  | nil =>
      rw [List.zipWith_nil_right]
      exact ⟨rfl, first⟩
  | cons form rest ih =>
      cases bounds with
      | nil => cases first
      | cons bound bounds =>
          cases first
          rcases next 0 form rfl with ⟨_, ⟨⟩, isNext⟩
          rcases ih isNext (fun index other found => next (index + 1) other found) with
            ⟨located, atEnd⟩
          rw [List.flatten_cons, locate_append, located, Emission.instructionsEnd_append]
          exact ⟨rfl, atEnd⟩

end Code

theorem Emission.ConvertsSlot.plain {pool : ConstantPool} {slot : UInt16} {className : String}
    {instructions : List Instruction} (converts : ConvertsSlot pool slot className instructions) :
    ∀ part ∈ instructions, part.isBranch = false ∧ part.WellFormed := by
  rcases converts with ⟨index, rfl, _⟩
  have load : (Instruction.loadReference slot).isBranch = false ∧
      (Instruction.loadReference slot).WellFormed := by
    unfold Instruction.loadReference
    split
    · exact ⟨rfl, trivial⟩
    · exact ⟨rfl, trivial⟩
  simp only [List.mem_cons, List.not_mem_nil, or_false, forall_eq_or_imp, forall_eq]
  exact ⟨load, ⟨rfl, trivial⟩, rfl, trivial⟩

theorem Emission.ConvertsSlot.flatten_plain {pool : ConstantPool}
    {entries : List (UInt16 × String × Bool)} {conversions : List (List Instruction)}
    (each : List.Forall₂ (fun entry => ConvertsSlot pool entry.1 entry.2.1) entries conversions) :
    ∀ part ∈ conversions.flatten, part.isBranch = false ∧ part.WellFormed := by
  intro part isPart
  rcases List.mem_flatten.1 isPart with ⟨instructions, isConversion, inConversion⟩
  rcases Outcome.exists_of_mem_forall₂ each isConversion with ⟨_, _, converts⟩
  exact converts.plain part inConversion

namespace MethodBody

theorem wellFormed_of_decode {body : MethodBody}
    (decoded : Code.decode body.code.code = .ok body.instructions.toList) :
    ∀ located ∈ body.instructions, located.instruction.WellFormed := by
  intro located isInstruction
  exact Code.wellFormed_of_decode decoded located (Array.mem_toList_iff.2 isInstruction)

/-- Control goes from an instruction to another: to the target of the offset it
takes, or else to the next one. -/
def Follows (body : MethodBody) (operands : BranchOperands) (index : Nat) (located : Located)
    (successor : Nat) : Prop :=
  match located.instruction.chosen? operands with
  | some offset => ∃ destination, body.instructions[successor]? = some destination ∧
      (destination.address : Int) = located.address + offset.toInt
  | none => successor = index + 1

/-- The code of a body after it has moved. `bounds` has the address of every
segment and the end of the code. -/
structure Relocated (body : MethodBody) (bounds : Array Nat) (code : Bytes)
    (prologue : List Located) (segments : List (List Located)) : Prop where
  decodes : Code.decode code = .ok (prologue ++ segments.flatten)
  count : segments.length = body.instructions.size
  size : bounds.size = body.instructions.size + 1
  opens : ∃ form, prologue = Code.locate 0 form ∧
    bounds[0]? = some (Emission.instructionsEnd 0 form)
  closes : bounds[body.instructions.size]? = some code.length
  /-- Every segment reaches from its bound to the next. -/
  spans : ∀ (index : Nat) (segment : List Located), segments[index]? = some segment →
    segment ≠ [] ∧ ∃ form start, segment = Code.locate start form ∧
      bounds[index]? = some start ∧
      bounds[index + 1]? = some (Emission.instructionsEnd start form)
  /-- The segment of a branch is the branch, aimed at where its targets are now,
  or its long form. -/
  redirects : ∀ (index : Nat) (located : Located) (segment : List Located),
    body.instructions[index]? = some located → located.instruction.isBranch = true →
    segments[index]? = some segment → ∃ start stop targets form,
      bounds[index]? = some start ∧ bounds[index + 1]? = some stop ∧
      List.Forall₂ (fun offset target =>
        body.MovesTo bounds (located.address + offset.toInt) target)
        located.instruction.branchOffsets targets ∧
      located.instruction.Redirected start stop targets form ∧
      segment = Code.locate start form
  /-- However its operands compare, control goes to the segment of the same
  successor. -/
  preserves : ∀ (index : Nat) (located : Located) (segment : List Located),
    body.instructions[index]? = some located → located.instruction.isBranch = true →
    segments[index]? = some segment → ∀ operands, ∃ (successor address : Nat),
      body.Follows operands index located successor ∧ bounds[successor]? = some address ∧
      Located.leaves operands segment = some (address : Int)
  /-- Jumps lead to segments and to the end of the code. -/
  jumps : ∀ located ∈ prologue ++ segments.flatten, ∀ target ∈ located.targets,
    ∃ (index address : Nat), bounds[index]? = some address ∧ target = address

namespace Assembled

variable {body : MethodBody} {pool : ConstantPool} {registry : Registry} {bounds : Array Nat}
  {prologue : List Instruction} {forms : List (List Instruction)}

/-- Every segment stands for an instruction. -/
theorem exists_segmentForm (assembled : body.Assembled pool registry bounds prologue forms)
    {index : Nat} {form : List Instruction} (found : forms[index]? = some form) :
    ∃ located start stop, body.instructions[index]? = some located ∧
      bounds[index]? = some start ∧ bounds[index + 1]? = some stop ∧
      SegmentForm body pool bounds located (registry.plan index located.instruction) start stop
        form := by
  have inRange : index < body.instructions.size :=
    assembled.length ▸ (List.getElem?_eq_some_iff.1 found).1
  have atIndex := Array.getElem?_eq_getElem inRange
  rcases assembled.segment index _ atIndex with ⟨_, start, stop, found', isStart, isStop, isForm⟩
  cases found.symm.trans found'
  exact ⟨_, start, stop, atIndex, isStart, isStop, isForm⟩

theorem exists_segmentForm_of_located
    (assembled : body.Assembled pool registry bounds prologue forms) {index : Nat}
    {segment : List Located}
    (found : (bounds.toList.zipWith Code.locate forms)[index]? = some segment) :
    ∃ located form start stop, body.instructions[index]? = some located ∧
      bounds[index]? = some start ∧ bounds[index + 1]? = some stop ∧
      segment = Code.locate start form ∧
      SegmentForm body pool bounds located (registry.plan index located.instruction) start stop
        form := by
  rcases List.getElem?_zipWith_eq_some.1 found with ⟨start, form, atBound, atForm, rfl⟩
  rcases assembled.exists_segmentForm atForm with ⟨located, _, stop, atIndex, isStart, rest⟩
  rw [Array.getElem?_toList] at atBound
  cases atBound.symm.trans isStart
  exact ⟨located, form, start, stop, atIndex, isStart, rest.1, rfl, rest.2⟩

theorem wellFormed (assembled : body.Assembled pool registry bounds prologue forms)
    (sound : ∀ located ∈ body.instructions, located.instruction.WellFormed)
    (opening : ∀ part ∈ prologue, part.WellFormed) :
    ∀ part ∈ prologue ++ forms.flatten, part.WellFormed := by
  intro part isPart
  rcases List.mem_append.1 isPart with isOpening | isInner
  · exact opening part isOpening
  · rcases List.mem_flatten.1 isInner with ⟨form, isForm, inForm⟩
    rcases List.mem_iff_getElem?.1 isForm with ⟨index, found⟩
    rcases assembled.exists_segmentForm found with ⟨located, _, _, atIndex, _, _, segment⟩
    exact segment.wellFormed (sound located (Array.mem_of_getElem? atIndex)) part inForm

/-- Jumps lead to segments and to the end of the code. -/
theorem exists_bound_of_target (assembled : body.Assembled pool registry bounds prologue forms)
    (opening : ∀ part ∈ prologue, part.isBranch = false) {located : Located}
    (isPart : located ∈ Code.locate 0 prologue ++ (bounds.toList.zipWith Code.locate forms).flatten)
    {target : Int} (isTarget : target ∈ located.targets) :
    ∃ (index address : Nat), bounds[index]? = some address ∧ target = address := by
  rcases List.mem_append.1 isPart with isOpening | isInner
  · have noBranch := opening _ (Code.mem_of_mem_locate isOpening)
    rw [Located.targets, Instruction.branchOffsets_of_not_branch noBranch] at isTarget
    cases isTarget
  · rcases List.mem_flatten.1 isInner with ⟨segment, isSegment, inSegment⟩
    rcases List.mem_iff_getElem?.1 isSegment with ⟨index, found⟩
    rcases assembled.exists_segmentForm_of_located found with
      ⟨_, form, start, stop, _, _, isStop, rfl, isForm⟩
    rcases isForm.target_cases inSegment isTarget with atStop | atOther
    · exact ⟨index + 1, stop, isStop, atStop⟩
    · exact atOther

/-- Control goes from the segment of a branch to the segment of the
successor. -/
theorem exists_successor (assembled : body.Assembled pool registry bounds prologue forms)
    {index : Nat} {located : Located} {segment : List Located}
    (atIndex : body.instructions[index]? = some located)
    (isBranch : located.instruction.isBranch = true)
    (found : (bounds.toList.zipWith Code.locate forms)[index]? = some segment)
    (operands : BranchOperands) :
    ∃ (successor address : Nat), body.Follows operands index located successor ∧
      bounds[successor]? = some address ∧
      Located.leaves operands segment = some (address : Int) := by
  rcases assembled.exists_segmentForm_of_located found with
    ⟨located', form, start, stop, atIndex', isStart, isStop, rfl, isForm⟩
  cases atIndex.symm.trans atIndex'
  cases isForm with
  | plain isPlain =>
      rw [isPlain] at isBranch
      cases isBranch
  | branch _ moves redirected =>
      rcases redirected.leaves moves operands with ⟨address, leaves, chosen⟩
      unfold Follows
      cases taken : located.instruction.chosen? operands with
      | none =>
          rw [taken] at chosen
          subst chosen
          exact ⟨index + 1, address, rfl, isStop, leaves⟩
      | some offset =>
          rw [taken] at chosen
          rcases chosen with ⟨successor, destination, atSuccessor, isTarget, isAddress⟩
          exact ⟨successor, address, ⟨destination, atSuccessor, isTarget⟩, isAddress, leaves⟩

/-- Code put together from segments keeps the control flow of the body. -/
theorem relocated (assembled : body.Assembled pool registry bounds prologue forms)
    (sound : ∀ located ∈ body.instructions, located.instruction.WellFormed)
    (opening : ∀ part ∈ prologue, part.isBranch = false ∧ part.WellFormed) :
    body.Relocated bounds (Code.encode (prologue ++ forms.flatten)) (Code.locate 0 prologue)
      (bounds.toList.zipWith Code.locate forms) := by
  have first := assembled.first
  rw [← Array.getElem?_toList] at first
  have next : ∀ (index : Nat) (form : List Instruction), forms[index]? = some form →
      ∃ address, bounds.toList[index]? = some address ∧
        bounds.toList[index + 1]? = some (Emission.instructionsEnd address form) := by
    intro index form found
    rcases assembled.exists_segmentForm found with ⟨_, start, stop, _, isStart, isStop, isForm⟩
    rw [Array.getElem?_toList, Array.getElem?_toList]
    exact ⟨start, isStart, isForm.instructionsEnd_eq ▸ isStop⟩
  -- One segment ends where the next begins, so what is decoded in a row stands
  -- at the bounds.
  rcases Code.locate_flatten first next with ⟨located, atEnd⟩
  constructor
  · rw [Code.decode_encode (assembled.wellFormed sound fun part isPart => (opening part isPart).2),
      Code.locate_append, located]
  · rw [List.length_zipWith, assembled.length, Array.length_toList, assembled.size]
    exact Nat.min_eq_right (Nat.le_succ _)
  · exact assembled.size
  · exact ⟨prologue, rfl, assembled.first⟩
  · rw [Code.length_encode, Emission.instructionsEnd_append, ← atEnd, assembled.length,
      Array.getElem?_toList]
  · intro index segment found
    rcases assembled.exists_segmentForm_of_located found with
      ⟨_, form, start, stop, _, isStart, isStop, rfl, isForm⟩
    constructor
    · intro isEmpty
      exact isForm.ne_nil (Code.locate_eq_nil_iff.1 isEmpty)
    · exact ⟨form, start, rfl, isStart, isForm.instructionsEnd_eq ▸ isStop⟩
  · intro index located segment atIndex isBranch found
    rcases assembled.exists_segmentForm_of_located found with
      ⟨located', form, start, stop, atIndex', isStart, isStop, rfl, isForm⟩
    cases atIndex.symm.trans atIndex'
    cases isForm with
    | branch _ moves redirected =>
        exact ⟨start, stop, _, form, isStart, isStop, moves, redirected, rfl⟩
    | plain isPlain =>
        rw [isPlain] at isBranch
        cases isBranch
  · intro index located segment atIndex isBranch found operands
    exact assembled.exists_successor atIndex isBranch found operands
  · intro located isLocated target isTarget
    exact assembled.exists_bound_of_target (fun part isPart => (opening part isPart).1) isLocated
      isTarget

end Assembled

/-- Flattening keeps control flow: the code of a body that was analyzed and
flattened takes apart into a prologue and one segment for every instruction,
where the layout put it, and control goes from segment to segment as it went from
instruction to instruction. -/
theorem flatten_relocates (find : ClassFinder) (oracle : Oracle) (classFile : ClassFile)
    (body : MethodBody) (flatArrays : Bool) {result : AnalysisResult}
    (analyzed : ((body.analyze classFile flatArrays).run find oracle).result = .ok result)
    (decoded : Code.decode body.code.code = .ok body.instructions.toList)
    {thisClass : UInt16} {bench last : Workbench} {code : CodeAttribute}
    (flattened : body.flatten thisClass result bench = .ok code last) :
    ∃ emission relocation between after prologue segments,
      Emission.ofBody body result.registry bench = .ok emission between ∧
      emission.layOut body.addresses body.code.code.length between = .ok relocation after ∧
      body.Relocated relocation.layout.bounds code.code prologue segments := by
  rw [Inquiry.run_result] at analyzed
  rcases flatten_spec analyzed flattened with
    ⟨emission, relocation, forms, between, after, emitted, laidOut, isCode, assembled, _, opening⟩
  rcases opening with ⟨conversions, isPrologue, each⟩
  rw [isCode]
  exact ⟨emission, relocation, between, after, _, _, emitted, laidOut,
    assembled.relocated (wellFormed_of_decode decoded)
      (isPrologue ▸ Emission.ConvertsSlot.flatten_plain each)⟩

/-- The flattening of `choose` succeeds, and its pool does not overflow. -/
theorem exists_flatten_choose : ∃ result code last,
    ((choose.analyze .pair true).run (fun _ => .absent) (.knowing "V")).result = .ok result ∧
      choose.flatten 2 result { pool := ClassFile.pair.pool } = .ok code last ∧
      last.pool.entries.size ≤ 65535 := by
  have analyzed : ∃ result,
      ((choose.analyze .pair true).run (fun _ => .absent) (.knowing "V")).result = .ok result ∧
        (Flatten.attempt (choose.flatten 2 result) { pool := ClassFile.pair.pool }).toOption.any
          (fun outcome => decide (outcome.2.pool.entries.size ≤ 65535)) = true := by
    apply Outcome.exists_of_any
    rw [Inquiry.run_result, Oracle.answer_knowing]
    decide +kernel
  rcases analyzed with ⟨result, analyzed, flattens⟩
  rcases Outcome.exists_of_any _ flattens with ⟨⟨code, last⟩, flattened, few⟩
  exact ⟨result, code, last, analyzed, Flatten.attempt_eq_ok_iff.1 flattened,
    of_decide_eq_true few⟩

/-- The code of `choose` takes apart into its instructions. -/
theorem decode_choose : Code.decode choose.code.code = .ok choose.instructions.toList := by
  decide +kernel

/-- The control flow of `choose` after flattening. -/
theorem flatten_relocates_choose : ∃ result code last emission relocation between after prologue
    segments,
    ((choose.analyze .pair true).run (fun _ => .absent) (.knowing "V")).result = .ok result ∧
      Code.decode choose.code.code = .ok choose.instructions.toList ∧
      choose.flatten 2 result { pool := ClassFile.pair.pool } = .ok code last ∧
      Emission.ofBody choose result.registry { pool := ClassFile.pair.pool } =
        .ok emission between ∧
      emission.layOut choose.addresses choose.code.code.length between = .ok relocation after ∧
      choose.Relocated relocation.layout.bounds code.code prologue segments := by
  rcases exists_flatten_choose with ⟨result, code, last, analyzed, flattened, _⟩
  rcases flatten_relocates _ _ _ _ _ analyzed decode_choose flattened with
    ⟨emission, relocation, between, after, prologue, segments, relocates⟩
  exact ⟨result, code, last, emission, relocation, between, after, prologue, segments, analyzed,
    decode_choose, flattened, relocates⟩

end MethodBody

end ValueForm
