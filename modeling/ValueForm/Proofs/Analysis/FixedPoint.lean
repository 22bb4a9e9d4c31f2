import ValueForm.Proofs.Analysis.Worklist
import ValueForm.Proofs.Outcome

/-!
# The analysis ends in a fixed point

The frame at entry, the start of the worklist, its end within
`Analysis.visitBound` visits, and the settling of linked groups after it.

`MethodBody.analyze_fixed_point`: when an analysis succeeds, taking the step of
any reached instruction once more succeeds, records what is recorded, forces and
merges nothing new, and links only groups that agree.
-/

namespace ValueForm

private theorem getElem?_insertMany_sound {related : Nat → Nat → Prop} {pairs : List (Nat × Nat)}
    {map : AddressMap} (added : ∀ pair ∈ pairs, related pair.1 pair.2)
    (before : ∀ key value : Nat, map[key]? = some value → related key value) {key value : Nat}
    (found : (map.insertMany pairs)[key]? = some value) : related key value := by
  induction pairs generalizing map with
  | nil => exact before key value found
  | cons pair rest ih =>
      rw [Std.TreeMap.insertMany_cons] at found
      refine ih (fun other isRest => added other (List.mem_cons_of_mem pair isRest)) ?_ found
      intro key value atKey
      rw [Std.TreeMap.getElem?_insert] at atKey
      split at atKey
      · next same =>
          rw [← Option.some.inj atKey, ← Nat.compare_eq_eq.1 same]
          exact added pair List.mem_cons_self
      · exact before key value atKey

/-- The address map leads to instructions at the address looked up. -/
theorem MethodBody.getElem?_addresses {body : MethodBody} {address index : Nat}
    (found : body.addresses[address]? = some index) :
    ∃ located, body.instructions[index]? = some located ∧ located.address = address := by
  rw [MethodBody.addresses, Std.TreeMap.ofList_eq_insertMany_empty] at found
  apply getElem?_insertMany_sound ?_ ?_ found
  · intro pair isPair
    obtain ⟨position, inRange, rfl⟩ := List.mem_mapIdx.1 isPair
    exact ⟨_, by rw [← Array.getElem?_toList]; exact List.getElem?_eq_getElem inRange, rfl⟩
  · intro key value isEmpty
    cases Std.TreeMap.getElem?_emptyc.symm.trans isEmpty

/-- Every instruction is in the address map. -/
theorem MethodBody.address_ne_of_getElem?_addresses {body : MethodBody} {address : Nat}
    (missing : body.addresses[address]? = none) :
    ∀ located ∈ body.instructions, located.address ≠ address := by
  rintro located isInstruction rfl
  rcases List.mem_iff_getElem.1 (Array.mem_toList_iff.2 isInstruction) with
    ⟨index, inRange, isLocated⟩
  have listed : located.address ∈ (body.instructions.toList.mapIdx fun index located =>
      (located.address, index)).map Prod.fst :=
    List.mem_map.2 ⟨_, List.mem_mapIdx.2 ⟨index, inRange, rfl⟩, congrArg Located.address isLocated⟩
  have contained : body.addresses.contains located.address = true :=
    Std.TreeMap.contains_ofList.trans (List.contains_iff_mem.2 listed)
  rw [Std.TreeMap.contains_eq_isSome_getElem?, missing] at contained
  cases contained

theorem MethodBody.position?_lt {body : MethodBody} {target : Int} {index : Nat}
    (found : body.addresses.position? target = some index) : index < body.instructions.size := by
  cases target with
  | negSucc => cases found
  | ofNat address =>
      obtain ⟨located, atIndex, _⟩ := MethodBody.getElem?_addresses found
      exact (Array.getElem?_eq_some_iff.1 atIndex).1

namespace Analysis

/-- What holds of the frame and the decisions while the incoming values are
placed. -/
structure Entering (slots : Nat) (frame : Frame) (registry : Registry) : Prop where
  locals : frame.locals.size = slots
  stack : frame.stack = []
  sited : frame.Sited fun site => registry.get? site ≠ none
  recorded : ∀ site patch, registry.get? site = some patch → ∃ slot, site = .entry slot ∧
    slot.toNat < slots ∧ patch.action = .entryUnbox slot ∧ patch.left = .nothing

theorem entering_empty (slots : Nat) : Entering slots (Frame.empty slots) {} where
  locals := by simp [Frame.empty]
  stack := rfl
  sited := by
    rintro value (found | found)
    · obtain ⟨_, rfl⟩ := Array.mem_replicate.1 found
      trivial
    · cases found
  recorded site patch found := by simp at found

variable {answers : String → Except OracleError Bool}

/-- An incoming value is placed before the next one. -/
theorem exists_placed {slot : UInt16} {value : Value} {frame : Frame} {out : Frame × Registry}
    {next : Frame → Inquiry AnalysisError (Frame × Registry)}
    (entered : ((match frame.setLocal slot value with
      | .ok frame => pure frame
      | .error error => Inquiry.fail (.frame 0 error)) >>= next).eval answers = .ok out) :
    ∃ placed, frame.setLocal slot value = .ok placed ∧ (next placed).eval answers = .ok out := by
  rcases Inquiry.eval_bind_eq_ok_iff.1 entered with ⟨placed, done, entered⟩
  refine ⟨placed, ?_, entered⟩
  cases outcome : frame.setLocal slot value with
  | ok result =>
      rw [outcome] at done
      rw [Inquiry.eval_pure_eq_ok_iff.1 done]
  | error error =>
      rw [outcome] at done
      exact (Inquiry.eval_fail_eq_ok_iff.1 done).elim

/-- The next incoming value is placed as an instance of a value-capable class or
as what its type says. -/
theorem enter_cons {slot : Nat} {type : FieldType} {rest : List FieldType} {frame : Frame}
    {registry : Registry} {out : Frame × Registry}
    (entered : (enter slot (type :: rest) frame registry).eval answers = .ok out) :
    (∃ className placed, type = .object className ∧ answers className = .ok true ∧
      frame.setLocal (UInt16.ofNat slot) (.capableAt className (.entry (UInt16.ofNat slot))) =
        .ok placed ∧
      (enter (slot + type.slots) rest placed (registry.record (.entry (UInt16.ofNat slot))
        { action := .entryUnbox (UInt16.ofNat slot), left := .nothing, className })).eval answers =
          .ok out) ∨
    (∃ placed, (∀ className, type = .object className → answers className = .ok false) ∧
      frame.setLocal (UInt16.ofNat slot) (.ofType type) = .ok placed ∧
      (enter (slot + type.slots) rest placed registry).eval answers = .ok out) := by
  cases type with
  | object className =>
      simp only [enter, Inquiry.eval_bind_eq_ok_iff, Inquiry.eval_capable_eq_ok_iff] at entered
      obtain ⟨capable, answered, entered⟩ := entered
      cases capable with
      | true =>
          obtain ⟨placed, done, entered⟩ := exists_placed entered
          exact .inl ⟨className, placed, rfl, answered, done, entered⟩
      | false =>
          obtain ⟨placed, done, entered⟩ := exists_placed entered
          refine .inr ⟨placed, ?_, done, entered⟩
          rintro _ ⟨⟩
          exact answered
  | primitive type =>
      obtain ⟨placed, done, entered⟩ := exists_placed entered
      refine .inr ⟨placed, ?_, done, entered⟩
      rintro _ ⟨⟩
  | array element =>
      obtain ⟨placed, done, entered⟩ := exists_placed entered
      refine .inr ⟨placed, ?_, done, entered⟩
      rintro _ ⟨⟩

/-- Placing the incoming values. -/
theorem enter_spec {slots slot : Nat} {types : List FieldType} {frame entry : Frame}
    {registry registry' : Registry} (entering : Entering slots frame registry)
    (entered : (enter slot types frame registry).eval answers = .ok (entry, registry')) :
    Entering slots entry registry' := by
  induction types generalizing slot frame registry with
  | nil =>
      rw [enter, Inquiry.eval_pure_eq_ok_iff] at entered
      cases entered
      exact entering
  | cons type rest ih =>
      rcases enter_cons entered with
        ⟨className, placed, rfl, _, done, entered⟩ | ⟨placed, _, done, entered⟩
      · rcases Frame.size_setLocal done with ⟨locals, stack, fits⟩
        refine ih ⟨locals.trans entering.locals, stack.trans entering.stack, ?_, ?_⟩ entered
        · have old := entering.sited.mono fun site recorded =>
            (registry.evolves_record (.entry (UInt16.ofNat slot))
              { action := .entryUnbox (UInt16.ofNat slot), left := .nothing, className }).recorded
              site recorded
          refine old.setLocal (Value.sited_capableAt ?_) done
          rw [Registry.get?_record, if_pos rfl]
          exact Option.some_ne_none _
        · intro site patch found
          rw [Registry.get?_record] at found
          split at found
          · next same =>
              obtain rfl := Option.some.inj found
              refine ⟨_, same.symm, ?_, rfl, rfl⟩
              have := entering.locals
              simp only [Value.capableAt, Value.size] at fits
              omega
          · exact entering.recorded site patch found
      · rcases Frame.size_setLocal done with ⟨locals, stack, _⟩
        refine ih ⟨locals.trans entering.locals, stack.trans entering.stack, ?_,
          entering.recorded⟩ entered
        exact entering.sited.setLocal
          (Value.sited_of_not_capable (Instruction.isCapable_ofType type)) done

/-- The state the worklist starts from. -/
def start (analysis : Analysis) (entry : Frame) (registry : Registry) : FlowState where
  registry := registry
  frames := (Array.replicate analysis.count none).setIfInBounds 0 (some entry)
  pending := [0]
  queued := (Array.replicate analysis.count false).setIfInBounds 0 true

section Start

variable {analysis : Analysis} {entry : Frame} {registry : Registry} {handlers : List Handler}

theorem getElem?_replicate_first (nonempty : 0 < analysis.count) :
    (Array.replicate analysis.count (none : Option Frame))[0]? = some none := by
  rw [Array.getElem?_replicate, if_pos nonempty]

theorem getElem?_start (nonempty : 0 < analysis.count) (index : Nat) :
    (analysis.start entry registry).frames[index]? =
      if 0 = index then some (some entry) else (Array.replicate analysis.count none)[index]? := by
  rw [start]
  exact getElem?_set_frames (getElem?_replicate_first nonempty) entry index

theorem eq_entry_of_start (nonempty : 0 < analysis.count) {index : Nat} {frame : Frame}
    (found : (analysis.start entry registry).frames[index]? = some (some frame)) :
    index = 0 ∧ frame = entry := by
  rw [getElem?_start nonempty] at found
  split at found
  · next same => exact ⟨same.symm, (Option.some.inj (Option.some.inj found)).symm⟩
  · rw [Array.getElem?_replicate] at found
    split at found <;> cases found

/-- While the incoming values are placed no instruction has a decision. -/
theorem Entering.get?_instruction {slots : Nat} (entering : Entering slots entry registry)
    (index : Nat) : registry.get? (.instruction index) = none := by
  cases found : registry.get? (.instruction index) with
  | none => rfl
  | some patch =>
      rcases entering.recorded _ patch found with ⟨slot, isEntry, _⟩
      cases isEntry

theorem grounded_start (nonempty : 0 < analysis.count)
    (entering : Entering analysis.slots entry registry) :
    analysis.Grounded answers (analysis.start entry registry) := by
  have grown := reached_set_of_none (getElem?_replicate_first nonempty) entry
  constructor
  · simp [start]
  · intro index isQueued
    rw [start, Array.getElem?_setIfInBounds] at isQueued
    split at isQueued
    · next same => exact same ▸ List.mem_singleton_self 0
    · rw [Array.getElem?_replicate] at isQueued
      split at isQueued <;> cases isQueued
  · intro index frame found
    rcases eq_entry_of_start nonempty found with ⟨_, rfl⟩
    exact entering.locals
  · intro index frame found
    rcases eq_entry_of_start nonempty found with ⟨_, rfl⟩
    exact entering.sited.mono fun _ recorded => .inl recorded
  · intro index frame found
    rcases eq_entry_of_start nonempty found with ⟨_, rfl⟩
    rw [entering.stack, List.length_nil, start, grown]
    omega
  · intro site recorded
    rcases Option.ne_none_iff_exists'.1 recorded with ⟨patch, found⟩
    rcases entering.recorded site patch found with ⟨slot, rfl, inRange, _⟩
    exact inRange
  · rintro _ ⟨index, _, rfl, _⟩
    exact entering.get?_instruction index
  · intro index recorded
    exact absurd (entering.get?_instruction index) recorded
  · intro slot patch found
    rcases entering.recorded _ patch found with ⟨_, ⟨⟩, _, action, left⟩
    exact ⟨action, left⟩

theorem invariant_start (nonempty : 0 < analysis.count)
    (entering : Entering analysis.slots entry registry) :
    analysis.Invariant answers handlers entry (analysis.start entry registry) := by
  have atStart : (analysis.start entry registry).frames[0]? = some (some entry) := by
    rw [getElem?_start nonempty, if_pos rfl]
  constructor
  · exact grounded_start nonempty entering
  · -- Only the first instruction has a frame, and it is pending.
    intro index notPending located before _ found
    rcases eq_entry_of_start nonempty found with ⟨rfl, _⟩
    exact absurd (List.mem_singleton_self 0) notPending
  · exact ⟨entry, atStart, entry.absorbs_self⟩

/-- The bound on visits covers everything that can be visited from the
start. -/
theorem remaining_start_le (nonempty : 0 < analysis.count)
    (entering : Entering analysis.slots entry registry) :
    analysis.remaining (analysis.start entry registry) ≤ analysis.visitBound := by
  have balance := potential_set analysis.slots analysis.count (getElem?_replicate_first nonempty)
    (some entry)
  have unreached : potential analysis.slots analysis.count (Array.replicate analysis.count none) =
      analysis.count * reserve analysis.slots analysis.count none := by
    simp [potential]
  have lower : reserve analysis.slots analysis.count (some entry) <
      reserve analysis.slots analysis.count none :=
    headroom_lt_reserve_none entering.locals (by simp [entering.stack])
  have boundEq : analysis.visitBound =
    1 + analysis.count * reserve analysis.slots analysis.count none := rfl
  rw [boundEq, remaining, ← unreached]
  dsimp only [start, List.length_singleton]
  omega

end Start

@[simp]
theorem positionAt_eq_ok_iff {analysis : Analysis} {address index : Nat} {target : Int} :
    analysis.positionAt address target = .ok index ↔
      analysis.addresses.position? target = some index := by
  unfold positionAt
  cases analysis.addresses.position? target <;> simp

/-- A handler that is resolved is at an instruction. -/
theorem position?_of_handler {analysis : Analysis} {entry : ExceptionEntry} {handler : Handler}
    (resolved : analysis.handler entry = .ok handler) :
    analysis.addresses.position? entry.handler.toNat = some handler.target := by
  unfold Analysis.handler at resolved
  obtain ⟨start, _, resolved⟩ := Outcome.bind_eq_ok_iff.1 resolved
  have isTarget {stop : Nat} (resolved : (do
      let target ← analysis.positionAt entry.handler.toNat entry.handler.toNat
      return ⟨start, stop, target, ← analysis.catchType entry⟩) = Except.ok handler) :
      analysis.addresses.position? entry.handler.toNat = some handler.target := by
    obtain ⟨target, atTarget, resolved⟩ := Outcome.bind_eq_ok_iff.1 resolved
    obtain ⟨catchType, _, resolved⟩ := Outcome.bind_eq_ok_iff.1 resolved
    cases resolved
    exact positionAt_eq_ok_iff.1 atTarget
  -- A range that ends with the code has no instruction at its end.
  dsimp only at resolved
  split at resolved
  · exact isTarget resolved
  · obtain ⟨stop, _, resolved⟩ := Outcome.bind_eq_ok_iff.1 resolved
    exact isTarget resolved

/-- The handlers of a body are aimed at its instructions. -/
theorem aimed_handlers {analysis : Analysis} (isOwn : analysis.addresses = analysis.body.addresses)
    {handlers : List Handler} (resolved : analysis.handlers = .ok handlers) :
    analysis.Aimed handlers := by
  have positions : ∀ target index, analysis.addresses.position? target = some index →
      index < analysis.count := by
    intro target index found
    rw [isOwn] at found
    exact MethodBody.position?_lt found
  refine ⟨positions, fun handler isHandler => ?_⟩
  obtain ⟨entry, _, isResolved⟩ :=
    Outcome.exists_of_mem_forall₂ (Outcome.forall₂_of_mapM resolved) isHandler
  exact positions _ _ (position?_of_handler isResolved)

end Analysis

/-- The end of an analysis as a state in which nothing is pending. -/
def AnalysisResult.state (result : AnalysisResult) : FlowState :=
  ⟨result.registry, result.frames, [], #[]⟩

namespace Analysis

/-- An analysis that succeeds places the incoming values, visits instructions
until none is pending and settles the links. -/
theorem run_cases {analysis : Analysis} {result : AnalysisResult}
    (ran : analysis.run.eval answers = .ok result) :
    ∃ handlers types entry registry final, analysis.handlers = .ok handlers ∧
      analysis.incomingTypes = .ok types ∧
      (enter 0 types (Frame.empty analysis.slots) {}).eval answers = .ok (entry, registry) ∧
      (analysis.loop handlers analysis.visitBound (analysis.start entry registry)).eval answers =
        .ok final ∧
      result = ⟨final.registry.settle, final.frames⟩ := by
  unfold run at ran
  obtain ⟨handlers, resolved, ran⟩ := Inquiry.eval_bind_eq_ok_iff.1 ran
  obtain ⟨types, incoming, ran⟩ := Inquiry.eval_bind_eq_ok_iff.1 ran
  obtain ⟨⟨entry, registry⟩, entered, ran⟩ := Inquiry.eval_bind_eq_ok_iff.1 ran
  obtain ⟨final, looped, ran⟩ := Inquiry.eval_bind_eq_ok_iff.1 ran
  obtain rfl := Inquiry.eval_pure_eq_ok_iff.1 ran
  exact ⟨handlers, types, entry, registry, final, resolved, incoming, entered, looped, rfl⟩

/-- Settling the links only sets flags, so it leaves every instruction settled. -/
theorem Invariant.settle {analysis : Analysis} {handlers : List Handler} {entry : Frame}
    {final : FlowState} (invariant : analysis.Invariant answers handlers entry final)
    (ended : final.pending = []) :
    analysis.Invariant answers handlers entry
        (AnalysisResult.state ⟨final.registry.settle, final.frames⟩) ∧
      ∀ group ∈ final.registry.settle.links, final.registry.settle.isSplit group = false := by
  have evolves := Registry.evolves_settle (fun _ => False) final.registry
  have advances : analysis.Advances answers (fun _ => False) final
    { final with registry := final.registry.settle } := .of_registry evolves
  refine ⟨⟨?_, ?_, ?_⟩, ?_⟩
  · exact { invariant.grounded.evolves evolves with queued := fun _ isQueued => by cases isQueued }
  · intro index _
    exact advances.settledAt (invariant.settled index (by simp [ended])) id (by simp [ended])
  · exact advances.hasAbsorbed invariant.entered
  · intro group linked
    rw [Registry.links_settle] at linked
    exact final.registry.isSplit_settle linked

/-- An analysis that succeeds ends with every reached instruction settled and
every linked group in agreement. -/
theorem run_spec {analysis : Analysis} {result : AnalysisResult}
    (isOwn : analysis.addresses = analysis.body.addresses) (nonempty : 0 < analysis.count)
    (ran : analysis.run.eval answers = .ok result) :
    ∃ handlers types entry registry, analysis.handlers = .ok handlers ∧
      analysis.incomingTypes = .ok types ∧
      (enter 0 types (Frame.empty analysis.slots) {}).eval answers = .ok (entry, registry) ∧
      analysis.Invariant answers handlers entry result.state ∧
      ∀ group ∈ result.registry.links, result.registry.isSplit group = false := by
  rcases run_cases ran with
    ⟨handlers, types, entry, registry, final, resolved, incoming, entered, looped, rfl⟩
  have entering := enter_spec (entering_empty analysis.slots) entered
  obtain ⟨invariant, ended⟩ := loop_invariant (aimed_handlers isOwn resolved)
    (invariant_start nonempty entering) (remaining_start_le nonempty entering) looped
  exact ⟨handlers, types, entry, registry, resolved, incoming, entered, invariant.settle ended⟩

end Analysis

/-- The analysis of a body. -/
def MethodBody.analysis (classFile : ClassFile) (body : MethodBody) (flatArrays : Bool) :
    Analysis :=
  ⟨classFile, body, flatArrays, body.addresses⟩

/-- An analysis of a body that succeeds has nothing to analyse or runs. -/
theorem MethodBody.analyze_cases {answers : String → Except OracleError Bool}
    {classFile : ClassFile} {body : MethodBody} {flatArrays : Bool} {result : AnalysisResult}
    (analyzed : (body.analyze classFile flatArrays).eval answers = .ok result) :
    (body.instructions = #[] ∧ result = ⟨{}, #[]⟩) ∨
      0 < (body.analysis classFile flatArrays).count ∧
        (body.analysis classFile flatArrays).run.eval answers = .ok result := by
  unfold MethodBody.analyze at analyzed
  split at analyzed
  · next isEmpty =>
      obtain rfl := Inquiry.eval_pure_eq_ok_iff.1 analyzed
      exact .inl ⟨Array.isEmpty_iff.1 isEmpty, rfl⟩
  · next isEmpty =>
      refine .inr ⟨Nat.pos_of_ne_zero ?_, analyzed⟩
      intro isZero
      exact isEmpty (Array.isEmpty_iff.2 (Array.eq_empty_of_size_eq_zero isZero))

/-- What the analysis of a body that succeeds ends with. -/
theorem MethodBody.analyze_spec {answers : String → Except OracleError Bool}
    {classFile : ClassFile} {body : MethodBody} {flatArrays : Bool} {result : AnalysisResult}
    (analyzed : (body.analyze classFile flatArrays).eval answers = .ok result) :
    (body.instructions = #[] ∧ result = ⟨{}, #[]⟩) ∨
    ∃ handlers types entry registry, (body.analysis classFile flatArrays).handlers = .ok handlers ∧
      (body.analysis classFile flatArrays).incomingTypes = .ok types ∧
      (Analysis.enter 0 types (Frame.empty body.code.maxLocals.toNat) {}).eval answers =
        .ok (entry, registry) ∧
      (body.analysis classFile flatArrays).Invariant answers handlers entry result.state ∧
      ∀ group ∈ result.registry.links, result.registry.isSplit group = false := by
  rcases analyze_cases analyzed with nothing | ⟨nonempty, ran⟩
  · exact .inl nothing
  · exact .inr (Analysis.run_spec rfl nonempty ran)

/-- Of the sites of a group that have decisions, all are forced or none. -/
def Registry.Agree (registry : Registry) (group : SiteSet) : Prop :=
  ∀ first ∈ group, ∀ second ∈ group, ∀ patch patch', registry.get? first = some patch →
    registry.get? second = some patch' → patch.forced = patch'.forced

theorem Registry.agree_of_isSplit {registry : Registry} {group : SiteSet}
    (whole : registry.isSplit group = false) : registry.Agree group := by
  have noPair {first second : Site} {patch patch' : Patch} (inGroup : first ∈ group)
      (inGroup' : second ∈ group) (found : registry.get? first = some patch)
      (found' : registry.get? second = some patch') (forced : patch.forced = true)
      (free : patch'.forced = false) : False := by
    rw [Registry.isSplit, Bool.and_eq_false_iff] at whole
    rcases whole with noneForced | noneFree
    · have someForced : registry.anyForced group = true :=
        Registry.anyForced_eq_true_iff.2
          ⟨first, inGroup, Registry.isForced_eq_true_iff.2 ⟨patch, found, forced⟩⟩
      rw [someForced] at noneForced
      cases noneForced
    · have someFree : group.toList.any registry.isFree = true :=
        List.any_eq_true.2
          ⟨second, inGroup', Registry.isFree_eq_true_iff.2 ⟨patch', found', free⟩⟩
      rw [someFree] at noneFree
      cases noneFree
  intro first inGroup second inGroup' patch patch' found found'
  cases forced : patch.forced with
  | true =>
      cases forced' : patch'.forced with
      | true => rfl
      | false => exact (noPair inGroup inGroup' found found' forced forced').elim
  | false =>
      cases forced' : patch'.forced with
      | true => exact (noPair inGroup' inGroup found' found forced' forced).elim
      | false => rfl

/-- A group of one site agrees. -/
theorem Registry.agree_of_size_le {registry : Registry} {group : SiteSet}
    (small : group.size ≤ 1) : registry.Agree group := by
  intro first inGroup second inGroup' patch patch' found found'
  have same : first = second := by
    rw [SiteSet.mem_def] at inGroup inGroup'
    match isList : group.toList with
    | [] =>
        rw [isList] at inGroup
        cases inGroup
    | [only] =>
        rw [isList] at inGroup inGroup'
        rw [List.mem_singleton.1 inGroup, List.mem_singleton.1 inGroup']
    | _ :: _ :: _ =>
        rw [SiteSet.size, isList, List.length_cons, List.length_cons] at small
        omega
  subst same
  rw [Option.some.inj (found.symm.trans found')]

namespace Analysis

variable {answers : String → Except OracleError Bool}

/-- A decision, a frame and a group that the step of an instruction leads to are
there already when the analysis has ended. -/
structure FixedAt (analysis : Analysis) (answers : String → Except OracleError Bool)
    (handlers : List Handler) (result : AnalysisResult) (index : Nat) (located : Located)
    (before : Frame) (effect : Effect) : Prop where
  transferred : (located.instruction.transfer (analysis.place index located) before).eval answers =
    .ok effect
  reflected : result.registry.Reflects (.instruction index) effect.edits
  forced : ∀ sites, Edit.force sites ∈ effect.edits →
    ∀ site ∈ sites, analysis.Held answers result.registry site
  agreed : ∀ group, Edit.link group ∈ effect.edits → result.registry.Agree group
  /-- Every branch target has absorbed the frame after the instruction. -/
  jumped : ∀ offset ∈ located.instruction.branchOffsets, ∃ target,
    analysis.addresses.position? (located.address + offset.toInt) = some target ∧
      analysis.HasAbsorbed answers result.registry result.frames target effect.frame
  /-- The next instruction has absorbed it too, or the frame before a subroutine
  call. -/
  passed : located.instruction.endsFlow = false →
    analysis.HasAbsorbed answers result.registry result.frames (index + 1)
      (if located.instruction.isSubroutineCall then before else effect.frame)
  /-- Every handler that covers the instruction has absorbed the locals from
  before and after it. -/
  caught : ∀ handler ∈ handlers, handler.covers index = true → ∀ frame ∈ [before, effect.frame],
    analysis.HasAbsorbed answers result.registry result.frames handler.target
      (frame.handlerFrame (.precise (.object handler.catchType)))

/-- A settled instruction is fixed once the linked groups agree. -/
theorem Settled.fixedAt {analysis : Analysis} {handlers : List Handler} {result : AnalysisResult}
    {index : Nat} {located : Located} {before : Frame} {effect : Effect}
    (settled : analysis.Settled answers handlers result.registry result.frames index located before
      effect)
    (whole : ∀ group ∈ result.registry.links, result.registry.isSplit group = false) :
    analysis.FixedAt answers handlers result index located before effect := by
  have absorbed {target : Nat} {frame : Frame}
      (isEdge : .ok (target, frame) ∈ analysis.edges handlers index located before effect.frame) :
      analysis.HasAbsorbed answers result.registry result.frames target frame := by
    obtain ⟨_, _, ⟨⟩, absorbed⟩ := settled.flowed _ isEdge
    exact absorbed
  refine ⟨settled.transferred, settled.reflected, settled.forced, ?_, ?_, ?_, ?_⟩
  · intro group asked
    by_cases small : group.size ≤ 1
    · exact Registry.agree_of_size_le small
    · exact Registry.agree_of_isSplit (whole group (settled.linked group asked (by omega)))
  · intro offset isOffset
    have isEdge : (analysis.positionAt located.address (located.address + offset.toInt)).map
        (fun target => (target, effect.frame)) ∈
          analysis.edges handlers index located before effect.frame := by
      simp only [edges, List.mem_append, List.mem_map]
      exact .inl (.inr ⟨offset, isOffset, rfl⟩)
    obtain ⟨target, frame, leads, absorbed⟩ := settled.flowed _ isEdge
    cases position : analysis.positionAt located.address (located.address + offset.toInt) with
    | error error =>
        rw [position] at leads
        cases leads
    | ok found =>
        rw [position] at leads
        cases leads
        exact ⟨target, positionAt_eq_ok_iff.1 position, absorbed⟩
  · intro passesOn
    by_cases inRange : index + 1 < analysis.body.instructions.size
    · apply absorbed
      simp [edges, passesOn, inRange]
    · -- Running off the end would have failed.
      have isEdge : .error (.fallsOffEnd located.address) ∈
          analysis.edges handlers index located before effect.frame := by
        simp [edges, passesOn, inRange]
      obtain ⟨_, _, leads, _⟩ := settled.flowed _ isEdge
      cases leads
  · intro handler isHandler covers frame isFrame
    apply absorbed
    simp only [edges, List.mem_append, List.mem_flatMap, List.mem_filter]
    refine .inl (.inl ⟨handler, ⟨isHandler, covers⟩, ?_⟩)
    rcases List.mem_cons.1 isFrame with rfl | isAfter
    · exact List.mem_cons_self
    · rw [List.mem_singleton.1 isAfter]
      exact List.mem_cons_of_mem _ List.mem_cons_self

/-- Every frame at the end is that of an instruction, and the instruction is
settled. -/
theorem Invariant.settled_of_frame {analysis : Analysis} {handlers : List Handler} {entry : Frame}
    {result : AnalysisResult}
    (invariant : analysis.Invariant answers handlers entry result.state) {index : Nat}
    {before : Frame} (found : result.frames[index]? = some (some before)) :
    ∃ located effect, analysis.body.instructions[index]? = some located ∧
      analysis.Settled answers handlers result.registry result.frames index located before
        effect := by
  have size : result.frames.size = analysis.body.instructions.size := invariant.grounded.framesSize
  have inRange : index < analysis.body.instructions.size :=
    size ▸ (Array.getElem?_eq_some_iff.1 found).1
  have atIndex := Array.getElem?_eq_getElem inRange
  obtain ⟨effect, settled⟩ := invariant.settled index List.not_mem_nil _ before atIndex found
  exact ⟨_, effect, atIndex, settled⟩

end Analysis

theorem AnalysisResult.exists_frame {result : AnalysisResult} {count : Nat}
    (reached : (result.frames.size == count && result.frames.all Option.isSome) = true) :
    ∀ index < count, ∃ frame, result.frames[index]? = some (some frame) := by
  rw [Bool.and_eq_true, beq_iff_eq, Array.all_eq_true] at reached
  intro index inRange
  have isFrame := reached.2 index (reached.1 ▸ inRange)
  rcases Option.isSome_iff_exists.1 isFrame with ⟨frame, found⟩
  exact ⟨frame, found ▸ Array.getElem?_eq_getElem _⟩

/-- A class `V` with a field `x` of type `int`. -/
def ClassFile.pair : ClassFile where
  minorVersion := 0
  majorVersion := 52
  pool := {
    size := 7
    entries := #[.utf8 (Bytes.ofText "V"), .classRef 1, .utf8 (Bytes.ofText "x"),
      .utf8 (Bytes.ofText "I"), .nameAndType 3 4, .fieldRef 2 5] }
  access := 0
  thisClass := 2
  superClass := 0
  interfaces := []
  fields := []
  methods := []
  attributes := []

/-- A static method that takes two instances of `V` and gives back the first of
them if its field is not zero, and else the second. The slot of the second is
written on one of two paths that meet. -/
def MethodBody.choose : MethodBody where
  isStatic := true
  descriptor := "(LV;LV;)LV;"
  code := {
    maxStack := 1
    maxLocals := 2
    code := [0x19, 0, 0xb4, 0, 6, 0x99, 0, 7, 0x19, 0, 0x3a, 1, 0x19, 1, 0xb0]
    exceptions := []
    attributes := [] }
  instructions := #[⟨0, .load .reference (.narrow 0)⟩, ⟨2, .getField 6⟩, ⟨5, .branch .eq 7⟩,
    ⟨8, .load .reference (.narrow 0)⟩, ⟨10, .store .reference (.narrow 1)⟩,
    ⟨12, .load .reference (.narrow 1)⟩, ⟨14, .leave .reference⟩]

/-- The analysis of `choose` succeeds and reaches every instruction, if `V` is
value-capable. -/
theorem MethodBody.exists_analyze_choose : ∃ result,
    ((choose.analyze .pair true).run (fun _ => .absent) (.knowing "V")).result = .ok result ∧
      ∀ index < 7, ∃ before, result.frames[index]? = some (some before) := by
  have analyzed : ∃ result,
      ((choose.analyze .pair true).run (fun _ => .absent) (.knowing "V")).result = .ok result ∧
        (result.frames.size == 7 && result.frames.all Option.isSome) = true := by
    apply Outcome.exists_of_any
    rw [Inquiry.run_result, Oracle.answer_knowing]
    decide +kernel
  rcases analyzed with ⟨result, analyzed, reached⟩
  exact ⟨result, analyzed, AnalysisResult.exists_frame reached⟩

/-- The result of an analysis is a fixed point of its step. -/
structure Analysis.FixedPoint (analysis : Analysis) (answers : String → Except OracleError Bool)
    (result : AnalysisResult) : Prop where
  /-- Of every instruction that was reached the step succeeds and leads to nothing
  that is not there. -/
  fixed : ∀ (index : Nat) (before : Frame), result.frames[index]? = some (some before) →
    ∃ handlers located effect, analysis.handlers = .ok handlers ∧
      analysis.body.instructions[index]? = some located ∧
      analysis.FixedAt answers handlers result index located before effect
  /-- Values depend on sites that have decisions and on allocations. -/
  sourced : ∀ (index : Nat) (frame : Frame), result.frames[index]? = some (some frame) →
    ∀ value, frame.Holds value → ∀ site ∈ value.provenance,
      result.registry.get? site ≠ none ∨ analysis.IsAllocation answers site
  /-- Allocations take no decision. -/
  undecided : ∀ site, analysis.IsAllocation answers site → result.registry.get? site = none

/-- An analysis that succeeds ends in a fixed point of its own step. -/
theorem MethodBody.analyze_fixed_point (find : ClassFinder) (oracle : Oracle)
    (classFile : ClassFile) (body : MethodBody) (flatArrays : Bool) {result : AnalysisResult}
    (analyzed : ((body.analyze classFile flatArrays).run find oracle).result = .ok result) :
    (body.analysis classFile flatArrays).FixedPoint (oracle.answer find) result := by
  rw [Inquiry.run_result] at analyzed
  rcases analyze_spec analyzed with
    ⟨_, rfl⟩ | ⟨handlers, _, _, _, resolved, _, _, invariant, whole⟩
  · constructor
    · intro index before found
      cases found
    · intro index frame found
      cases found
    · intro site _
      exact Registry.get?_empty site
  · constructor
    · intro index before found
      obtain ⟨located, effect, atIndex, settled⟩ := invariant.settled_of_frame found
      exact ⟨handlers, located, effect, resolved, atIndex, settled.fixedAt whole⟩
    · intro index frame found value holds site inProvenance
      exact (invariant.grounded.sited index frame found value holds).of_mem inProvenance
    · exact invariant.grounded.allocation

/-- The fixed point of `choose`. -/
theorem MethodBody.analyze_fixed_point_choose : ∃ result,
    ((choose.analyze .pair true).run (fun _ => .absent) (.knowing "V")).result = .ok result ∧
      (∀ index < 7, ∃ before, result.frames[index]? = some (some before)) ∧
      (choose.analysis .pair true).FixedPoint ((Oracle.knowing "V").answer fun _ => .absent)
        result := by
  obtain ⟨result, analyzed, reached⟩ := exists_analyze_choose
  exact ⟨result, analyzed, reached, analyze_fixed_point _ _ _ _ _ analyzed⟩

end ValueForm
