import ValueForm.Proofs.Analysis.FixedPoint
import ValueForm.Proofs.Flattening.Plan

/-!
# Constructor calls

A constructor that is called on an instance of a value-capable class takes its
receiver off the stack, and the copies of the receiver that stay behind depend
on the call from then on. Unless the call is forced it is followed by one
conversion of the top of the stack.

`MethodBody.constructor_call`: that conversion finds a copy on top, and leaves
no other copy unconverted, exactly if one copy lies right below the receiver and
there is no other. The copies are found by what is known about them, so an entry
that depends on the call already, from an earlier pass through a loop, counts as
a copy too.
-/

namespace ValueForm

namespace Frame

/-- A property of the top of the stack and of no other entry. -/
def OnTopAlone (frame : Frame) (property : Value → Prop) : Prop :=
  ∃ top rest, frame.stack = top :: rest ∧ property top ∧ (∀ value ∈ rest, ¬ property value) ∧
    ∀ value ∈ frame.locals, ¬ property value

/-- A property of no entry. -/
def Nowhere (frame : Frame) (property : Value → Prop) : Prop :=
  ∀ value, frame.Holds value → ¬ property value

@[simp]
theorem onTopAlone_map {frame : Frame} {change : Value → Value} {property : Value → Prop} :
    (⟨frame.locals.map change, frame.stack.map change⟩ : Frame).OnTopAlone property ↔
      frame.OnTopAlone fun value => property (change value) := by
  constructor
  · rintro ⟨top, rest, isStack, onTop, notBelow, notLocal⟩
    rcases List.map_eq_cons_iff.1 isStack with ⟨top', rest', isStack', rfl, rfl⟩
    refine ⟨top', rest', isStack', onTop, ?_, ?_⟩
    · exact fun value isBelow => notBelow _ (List.mem_map_of_mem isBelow)
    · exact fun value isLocal => notLocal _ (Array.mem_map.2 ⟨value, isLocal, rfl⟩)
  · rintro ⟨top, rest, isStack, onTop, notBelow, notLocal⟩
    refine ⟨change top, rest.map change, by rw [isStack]; rfl, onTop, ?_, ?_⟩
    · intro value isBelow
      rcases List.mem_map.1 isBelow with ⟨old, isOld, rfl⟩
      exact notBelow old isOld
    · intro value isLocal
      rcases Array.mem_map.1 isLocal with ⟨old, isOld, rfl⟩
      exact notLocal old isOld

@[simp]
theorem nowhere_map {frame : Frame} {change : Value → Value} {property : Value → Prop} :
    (⟨frame.locals.map change, frame.stack.map change⟩ : Frame).Nowhere property ↔
      frame.Nowhere fun value => property (change value) := by
  constructor
  · rintro nowhere value (isLocal | isEntry)
    · exact nowhere _ (.inl (Array.mem_map.2 ⟨value, isLocal, rfl⟩))
    · exact nowhere _ (.inr (List.mem_map_of_mem isEntry))
  · rintro nowhere _ (isLocal | isEntry)
    · rcases Array.mem_map.1 isLocal with ⟨old, isOld, rfl⟩
      exact nowhere old (.inl isOld)
    · rcases List.mem_map.1 isEntry with ⟨old, isOld, rfl⟩
      exact nowhere old (.inr isOld)

/-- Pushing an entry with the property keeps it on top alone if it was
nowhere. -/
@[simp]
theorem onTopAlone_push {frame : Frame} {value : Value} {property : Value → Prop} :
    (frame.push value).OnTopAlone property ↔ property value ∧ frame.Nowhere property := by
  constructor
  · rintro ⟨top, rest, isStack, onTop, notBelow, notLocal⟩
    cases isStack
    refine ⟨onTop, ?_⟩
    rintro other (isLocal | isEntry)
    · exact notLocal other isLocal
    · exact notBelow other isEntry
  · rintro ⟨onTop, nowhere⟩
    exact ⟨value, frame.stack, rfl, onTop, fun other isEntry => nowhere other (.inr isEntry),
      fun other isLocal => nowhere other (.inl isLocal)⟩

/-- What `addSite` makes of an entry. -/
def addSiteTo (value : Value) (site : Site) (entry : Value) : Value :=
  if entry = value then
    match entry with
    | .capable className provenance => .capable className (provenance.insert site)
    | other => other
  else entry

theorem addSite_eq (frame : Frame) (value : Value) (site : Site) :
    frame.addSite value site =
      ⟨frame.locals.map (addSiteTo value site), frame.stack.map (addSiteTo value site)⟩ :=
  rfl

/-- The copies of an instance, and what depended on a site before, depend on it
after. -/
theorem mem_provenance_addSiteTo {className : String} {sites : SiteSet} {site : Site}
    {entry : Value} :
    site ∈ (addSiteTo (.capable className sites) site entry).provenance ↔
      entry = .capable className sites ∨ site ∈ entry.provenance := by
  unfold addSiteTo
  by_cases isCopy : entry = .capable className sites
  · subst isCopy
    rw [if_pos rfl]
    constructor
    · exact fun _ => .inl rfl
    · exact fun _ => SiteSet.mem_insert.2 (.inl rfl)
  · rw [if_neg isCopy]
    constructor
    · exact .inr
    · rintro (same | depends)
      · exact absurd same isCopy
      · exact depends

theorem not_onTopAlone_of_plain {locals : Array Value} {value : Value} {rest : List Value}
    {site : Site} (isPlain : value.isCapable = false) :
    ¬ (⟨locals, value :: rest⟩ : Frame).OnTopAlone fun entry => site ∈ entry.provenance := by
  rintro ⟨_, _, isStack, onTop, _⟩
  cases isStack
  rw [Value.provenance_of_not_capable isPlain] at onTop
  exact SiteSet.not_mem_empty onTop

end Frame

/-- The copies of a receiver that are left by a call which leaves something
itself: one on top, or none where what the call leaves depends on the call. -/
def Leaves.LeavesOne (leaves : Leaves) (below : Frame) (copy : Value → Prop) : Prop :=
  match leaves with
  | .nothing => below.OnTopAlone copy
  | .reference | .plain _ => False
  | .capable .. => below.Nowhere copy

/-- A constructor call records that it leaves a reference. -/
theorem Leaves.recordedPatch?_construct {capable : String → Bool} {type : FieldType}
    {site : Site} {className : String} {receiver : SiteSet} {arguments records : List Edit}
    {pushed : List Value} (noRecord : recordedPatch? arguments = none)
    (pushes : (ofResult capable type).Pushes site pushed records) :
    ∃ name, recordedPatch? ([.force receiver] ++ arguments ++
      [.record { action := .keep, left := .object, className }] ++ records) =
        some { action := .keep, left := .object, className := name } := by
  simp only [recordedPatch?_append, noRecord]
  generalize isLeaves : ofResult capable type = leaves at pushes
  cases pushes with
  | nothing | reference | plain => exact ⟨className, rfl⟩
  | @capable name form =>
      cases (capable_of_ofResult isLeaves).2
      exact ⟨name, rfl⟩

/-- What a constructor call leaves depends on it on top alone exactly if it leaves
one copy. -/
theorem Leaves.Pushes.onTopAlone_iff {leaves : Leaves} {site : Site} {pushed : List Value}
    {records : List Edit} (pushes : leaves.Pushes site pushed records) {below : Frame}
    {className : String} {receiver : SiteSet} :
    (⟨(below.addSite (.capable className receiver) site).locals,
      pushed ++ (below.addSite (.capable className receiver) site).stack⟩ : Frame).OnTopAlone
        (fun value => site ∈ value.provenance) ↔
      leaves.LeavesOne below fun value => value = .capable className receiver ∨
        site ∈ value.provenance := by
  have isCopy : (fun entry => site ∈
      (Frame.addSiteTo (.capable className receiver) site entry).provenance) =
        fun entry => entry = .capable className receiver ∨ site ∈ entry.provenance :=
    funext fun entry => propext Frame.mem_provenance_addSiteTo
  rw [Frame.addSite_eq]
  cases pushes with
  | nothing => exact Frame.onTopAlone_map.trans (by rw [isCopy]; rfl)
  | reference isPlain => exact iff_of_false (Frame.not_onTopAlone_of_plain isPlain) id
  | plain isPlain =>
      exact iff_of_false
        (Frame.not_onTopAlone_of_plain (Value.isCapable_of_not_isReference isPlain)) id
  | @capable name form =>
      refine Frame.onTopAlone_push.trans ?_
      rw [Frame.nowhere_map, isCopy]
      constructor
      · exact fun both => both.2
      · exact fun nowhere => ⟨SiteSet.mem_singleton.2 rfl, nowhere⟩

namespace Instruction

variable {answers : String → Except OracleError Bool} {place : Place} {before : Frame}
  {effect : Effect}

/-- What a constructor call on an instance of a value-capable class does. -/
theorem construct_spec {constant : UInt16} {method : MemberRef} {type : MethodType}
    {className : String} {receiver : SiteSet}
    (transferred : ((Instruction.invokeSpecial constant).transfer place before).eval answers =
      .ok effect)
    (member : place.pool.member? constant = some method) (isConstructor : method.name = "<init>")
    (typed : MethodType.parse? method.descriptor = some type)
    (isReceiver : before.stack[type.params.length]? = some (.capable className receiver)) :
    ∃ arguments pushed records below,
      below = (⟨before.locals, before.stack.drop (type.params.length + 1)⟩ : Frame).addSite
        (.capable className receiver) place.site ∧
      (Leaves.ofResult (capability answers) type.result).Pushes place.site pushed records ∧
      effect.frame = ⟨below.locals, pushed ++ below.stack⟩ ∧
      effect.edits = [.force receiver] ++ arguments ++
        [.record { action := .keep, left := .object, className }] ++ records ∧
      recordedPatch? arguments = none := by
  rcases exists_yields transferred with ⟨ended, yields⟩
  simp only [rule, Transfer.invokeMember, Transfer.yields_bind,
    Transfer.yields_memberOperand] at yields
  obtain ⟨method', _, ⟨member', rfl⟩, invoked⟩ := yields
  cases member.symm.trans member'
  rw [isConstructor, beq_self_eq_true, Bool.and_self] at invoked
  simp only [Transfer.invoke, Transfer.yields_bind, Transfer.yields_require,
    Transfer.yields_popMany, typed, Option.some.injEq, if_true, Transfer.yields_pop,
    Transfer.yields_requireReference, Transfer.yields_forM_requireReference] at invoked
  obtain ⟨_, _, ⟨rfl, rfl⟩, arguments, _, ⟨rest, isStack, count, rfl⟩, value, _,
    ⟨below, isRest, rfl⟩, _, _, rfl, _, _, rfl, _, _, constructed, result⟩ := invoked
  subst isRest
  -- The receiver lies below the arguments.
  have length : arguments.reverse.length = type.params.length := by
    rw [List.length_reverse, count]
  have atReceiver : before.stack[type.params.length]? = some value := by
    rw [isStack, ← length, List.getElem?_append_right (Nat.le_refl _), Nat.sub_self]
    rfl
  cases isReceiver.symm.trans atReceiver
  have isBelow : before.stack.drop (type.params.length + 1) = below := by
    rw [isStack, ← length, List.drop_length_add_append]
    rfl
  simp only [Transfer.construct, Transfer.yields_bind, Transfer.yields_record,
    Transfer.yields_modify] at constructed
  obtain ⟨_, _, rfl, rfl⟩ := constructed
  obtain ⟨pushed, records, pushes, rfl⟩ := pushResult_spec result
  refine ⟨arguments.flatMap Value.forces, pushed, records, _, rfl, pushes, ?_, ?_, ?_⟩
  · rw [isBelow]
  · simp [Value.forces]
  · apply recordedPatch?_eq_none
    intro change isChange
    rcases List.mem_flatMap.1 isChange with ⟨argument, _, isForce⟩
    rcases argument.eq_of_mem_forces isForce with ⟨_, _, _, rfl⟩
    rfl

end Instruction

namespace MethodBody

/-- A constructor call on an instance of a value-capable class that is not forced
is followed by one conversion. The conversion finds a copy of the instance on
top of the stack and leaves no other copy behind exactly if the call leaves one
copy, on top. -/
theorem constructor_call (find : ClassFinder) (oracle : Oracle) (classFile : ClassFile)
    (body : MethodBody) (flatArrays : Bool) {result : AnalysisResult}
    (analyzed : ((body.analyze classFile flatArrays).run find oracle).result = .ok result)
    {index address : Nat} {constant : UInt16} {before : Frame}
    (atIndex : body.instructions[index]? = some ⟨address, .invokeSpecial constant⟩)
    (found : result.frames[index]? = some (some before)) {method : MemberRef} {type : MethodType}
    (member : classFile.pool.member? constant = some method)
    (isConstructor : method.name = "<init>")
    (typed : MethodType.parse? method.descriptor = some type) {className : String}
    {receiver : SiteSet}
    (isReceiver : before.stack[type.params.length]? = some (.capable className receiver))
    {patch : Patch} (recorded : result.registry.get? (.instruction index) = some patch)
    (free : patch.forced = false) :
    ∃ after edits,
      ((Instruction.invokeSpecial constant).transfer
        ⟨classFile.pool, flatArrays, index, address⟩ before).eval (oracle.answer find) =
          .ok ⟨after, edits⟩ ∧
      result.registry.plan index (.invokeSpecial constant) =
        ⟨none, .kept, some ⟨.unbox, patch.className⟩⟩ ∧
      (after.OnTopAlone (fun value => .instruction index ∈ value.provenance) ↔
        (Leaves.ofResult (capability (oracle.answer find)) type.result).LeavesOne
          ⟨before.locals, before.stack.drop (type.params.length + 1)⟩
          fun value => value = .capable className receiver ∨
            .instruction index ∈ value.provenance) := by
  rw [Inquiry.run_result] at analyzed
  rcases analyze_spec analyzed with
    ⟨_, rfl⟩ | ⟨handlers, _, _, _, _, _, _, invariant, _⟩
  · cases found
  · rcases invariant.settled_of_frame found with ⟨located, ⟨after, edits⟩, atIndex', settled⟩
    cases atIndex.symm.trans atIndex'
    rcases Instruction.construct_spec settled.transferred member isConstructor typed isReceiver with
      ⟨arguments, pushed, records, below, rfl, pushes, rfl, rfl, noRecord⟩
    refine ⟨_, _, settled.transferred, ?_, ?_⟩
    · rcases Leaves.recordedPatch?_construct noRecord pushes with ⟨name, records⟩
      have reflected := settled.reflected
      rw [Registry.Reflects, records] at reflected
      rcases reflected with ⟨forced, isPatch⟩
      cases recorded.symm.trans isPatch
      subst free
      rw [Registry.plan, isPatch]
      rfl
    · exact pushes.onTopAlone_iff

end MethodBody

/-- A class `V` with a constructor that takes no arguments. -/
def ClassFile.made : ClassFile where
  minorVersion := 0
  majorVersion := 52
  pool := {
    size := 7
    entries := #[.utf8 (Bytes.ofText "V"), .classRef 1, .utf8 (Bytes.ofText "<init>"),
      .utf8 (Bytes.ofText "()V"), .nameAndType 3 4, .methodRef 2 5] }
  access := 0
  thisClass := 2
  superClass := 0
  interfaces := []
  fields := []
  methods := []
  attributes := []

/-- A static method that makes an instance of `V` and puts it into a slot. -/
def MethodBody.make : MethodBody where
  isStatic := true
  descriptor := "()V"
  code := {
    maxStack := 2
    maxLocals := 1
    code := [0xbb, 0, 2, 0x59, 0xb7, 0, 6, 0x3a, 0, 0xb1]
    exceptions := []
    attributes := [] }
  instructions := #[⟨0, .new 2⟩, ⟨3, .stack .dup⟩, ⟨4, .invokeSpecial 6⟩,
    ⟨7, .store .reference (.narrow 0)⟩, ⟨9, .leave .void⟩]

/-- The constructor call of `make` leaves one copy, on top. -/
theorem MethodBody.constructor_call_make : ∃ result before after edits,
    ((make.analyze .made true).run (fun _ => .absent) (.knowing "V")).result = .ok result ∧
      result.frames[2]? = some (some before) ∧
      ((Instruction.invokeSpecial 6).transfer ⟨ClassFile.made.pool, true, 2, 4⟩ before).eval
        ((Oracle.knowing "V").answer fun _ => .absent) = .ok ⟨after, edits⟩ ∧
      result.registry.plan 2 (.invokeSpecial 6) = ⟨none, .kept, some ⟨.unbox, "V"⟩⟩ ∧
      after.OnTopAlone fun value => .instruction 2 ∈ value.provenance := by
  let copy : Value := .capableAt "V" (.instruction 0)
  have analyzed : ∃ result,
      ((make.analyze .made true).run (fun _ => .absent) (.knowing "V")).result = .ok result ∧
        decide (result.frames[2]? = some (some ⟨#[.uninitialized], [copy, copy]⟩) ∧
          result.registry.get? (.instruction 2) =
            some { action := .keep, left := .object, className := "V" }) = true := by
    apply Outcome.exists_of_any
    rw [Inquiry.run_result, Oracle.answer_knowing]
    decide +kernel
  rcases analyzed with ⟨result, analyzed, isEnd⟩
  rcases of_decide_eq_true isEnd with ⟨found, recorded⟩
  have member : ClassFile.made.pool.member? 6 = some ⟨"V", "<init>", "()V"⟩ := by decide +kernel
  have typed : MethodType.parse? "()V" = some ⟨[], .void⟩ := by decide +kernel
  rcases constructor_call _ _ _ _ _ analyzed rfl found member rfl typed rfl recorded
    rfl with ⟨after, edits, transferred, planned, onTop⟩
  refine ⟨result, _, after, edits, analyzed, found, transferred, planned, onTop.2 ?_⟩
  refine ⟨copy, [], rfl, .inl rfl, ?_, ?_⟩
  · intro value isBelow
    cases isBelow
  · intro value isLocal
    rw [Array.mem_singleton.1 isLocal]
    rintro (isCopy | depends)
    · cases isCopy
    · exact SiteSet.not_mem_empty depends

end ValueForm
