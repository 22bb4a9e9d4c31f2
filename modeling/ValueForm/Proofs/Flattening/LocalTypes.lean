import ValueForm.Proofs.Analysis.Pairing
import ValueForm.Proofs.Flattening.Failures
import ValueForm.Proofs.Flattening.FrameMap

/-!
# Types of locals

A stack map has one type for a wide local, so the slot of a type is told by the slots of
the types before it. The types of a frame that the analysis found are found by a walk over
its locals that skips the second half of every wide one. Since wide locals are paired,
nothing that could be used is skipped: each type is that of the local at its slot, and
every local without a type is the second half of a wide one, or is left out with all locals
after it because none of them can be used.
-/

namespace ValueForm

open Flatten

variable {frameMap : FrameMap} {bench last : Workbench}

/-! ## Types asked for again -/

theorem Flatten.internClass_again {name : String} {index : UInt16}
    (interned : internClass name bench = .ok index last) {later : Workbench}
    (isKept : last.pool.Extends later.pool) : internClass name later = .ok index later := by
  have here (given : Workbench) : internClass name given =
      .ok (given.pool.internClass name).1
        { given with pool := (given.pool.internClass name).2 } := rfl
  rw [here] at interned ⊢
  injection interned with isIndex isLast
  subst isIndex isLast
  rw [(ConstantPool.finds_internClass name).again bench.pool later.pool isKept]

namespace FrameMap

theorem object_again {className : String} {type : VerificationType}
    (given : object className bench = .ok type last) {later : Workbench}
    (isKept : last.pool.Extends later.pool) : object className later = .ok type later := by
  rcases bind_eq_ok_iff.1 given with ⟨index, between, interned, ended⟩
  rcases pure_eq_ok_iff.1 ended with ⟨rfl, rfl⟩
  exact bind_eq_ok_iff.2 ⟨index, later, internClass_again interned isKept, rfl⟩

/-- A type stays what it is when the pool gets more entries. -/
theorem typeOf_again {value : Value} {type : VerificationType}
    (given : frameMap.typeOf value bench = .ok type last) {later : Workbench}
    (isKept : last.pool.Extends later.pool) : frameMap.typeOf value later = .ok type later := by
  rcases frameMap.typeOf_cases value with ⟨type', _, isType⟩ | ⟨className, _, isType⟩
  · rw [isType] at given ⊢
    rcases pure_eq_ok_iff.1 given with ⟨rfl, _⟩
    rfl
  · rw [isType] at given ⊢
    exact object_again given isKept

/-- A type takes as many slots as the value it is the type of. -/
theorem slots_of_typeOf {value : Value} {type : VerificationType}
    (given : frameMap.typeOf value bench = .ok type last) : type.slots = value.size := by
  rcases frameMap.typeOf_cases value with ⟨type', sameSize, isType⟩ | ⟨className, isOne, isType⟩
  · rw [isType] at given
    rcases pure_eq_ok_iff.1 given with ⟨rfl, _⟩
    exact sameSize
  · rw [isType] at given
    rcases bind_eq_ok_iff.1 given with ⟨index, between, _, ended⟩
    rcases pure_eq_ok_iff.1 ended with ⟨rfl, _⟩
    exact isOne.symm

/-- The types of a frame are found whatever the pool is, and they are found again in the
pool there is then. -/
theorem exists_typesOf (frameMap : FrameMap) (frame : Frame) (bench : Workbench) :
    ∃ all types last, frameMap.typesOf frame bench = .ok types last ∧
      types.locals = dropTrailingTop all ∧
      List.Forall₂ (fun value type => frameMap.typeOf value last = .ok type last)
        (slotValues frame.locals frame.locals.size 0) all := by
  have succeeds : FailsOnly (frameMap.typesOf frame) fun _ => False :=
    failsOnly_bind (failsOnly_mapM frameMap.failsOnly_typeOf _) fun _ =>
      failsOnly_bind (failsOnly_mapM frameMap.failsOnly_typeOf _) fun _ => failsOnly_pure _
  cases given : frameMap.typesOf frame bench with
  | error error last => exact (succeeds _ _ _ given).elim
  | ok types last =>
      rcases bind_eq_ok_iff.1 given with ⟨all, between, typedLocals, typing⟩
      rcases bind_eq_ok_iff.1 typing with ⟨stack, after, typedStack, ended⟩
      rcases pure_eq_ok_iff.1 ended with ⟨rfl, rfl⟩
      have later := (interning_mapM frameMap.interning_typeOf _ _ _ _ typedStack).grows
      refine ⟨all, _, last, rfl, rfl, ?_⟩
      exact mapM_spec frameMap.interning_typeOf
        (fun _ _ _ _ typed grows => typeOf_again typed grows.isExtension) typedLocals later

/-! ## The walk over the slots -/

theorem withSlots_append (slot : Nat) (types more : List VerificationType) :
    withSlots slot (types ++ more) =
      withSlots slot types ++ withSlots (slot + (types.map VerificationType.slots).sum) more := by
  induction types generalizing slot with
  | nil => rfl
  | cons type rest ih =>
      rw [List.cons_append, withSlots, ih, withSlots, List.cons_append, List.map_cons,
        List.sum_cons, Nat.add_assoc]

/-- Types start within the slots they take up together. -/
theorem bounds_of_mem_withSlots {slot start : Nat} {type : VerificationType}
    {types : List VerificationType} (found : (start, type) ∈ withSlots slot types) :
    slot ≤ start ∧ start < slot + (types.map VerificationType.slots).sum := by
  induction types generalizing slot with
  | nil => cases found
  | cons first rest ih =>
      have positive : 0 < first.slots := by cases first <;> exact Nat.succ_pos _
      rw [List.map_cons, List.sum_cons]
      rcases List.mem_cons.1 found with isFirst | isLater
      · cases isFirst
        omega
      · have bounds := ih isLater
        omega

theorem mem_withSlots_iff {slot start : Nat} {type : VerificationType}
    {types : List VerificationType} : (start, type) ∈ withSlots slot types ↔
      ∃ position : Nat, types[position]? = some type ∧
        slot + ((types.take position).map VerificationType.slots).sum = start := by
  simp only [List.mem_iff_getElem?, getElem?_withSlots, Option.map_eq_some_iff, Prod.mk.injEq,
    existsAndEq, true_and, and_comm]

section Walk

variable {frame : Frame} {fuel slot : Nat} {types : List VerificationType}
  (typed : List.Forall₂ (fun value type => frameMap.typeOf value bench = .ok type bench)
    (slotValues frame.locals fuel slot) types)
include typed

/-- The types of the values that a walk comes by start where these values are. -/
theorem exists_value_of_mem_withSlots {start : Nat} {type : VerificationType}
    (found : (start, type) ∈ withSlots slot types) :
    ∃ value, frame.locals[start]? = some value ∧ frameMap.typeOf value bench = .ok type bench := by
  induction fuel generalizing slot types with
  | zero =>
      cases typed
      cases found
  | succ fuel ih =>
      unfold slotValues at typed
      split at typed
      · next value atSlot =>
          cases typed with
          | @cons _ first _ rest here typed =>
              rcases List.mem_cons.1 found with isFirst | isLater
              · cases isFirst
                exact ⟨value, atSlot, here⟩
              · rw [slots_of_typeOf here] at isLater
                exact ih typed isLater
      · cases typed
        cases found

/-- A walk that goes on long enough leaves out second halves only. -/
theorem exists_type_or_isSecondHalf (enough : frame.locals.size ≤ slot + fuel) {other : Nat}
    (above : slot ≤ other) (inRange : other < frame.locals.size) :
    (∃ type, (other, type) ∈ withSlots slot types) ∨ frame.IsSecondHalf other := by
  induction fuel generalizing slot types with
  | zero => omega
  | succ fuel ih =>
      unfold slotValues at typed
      rw [Array.getElem?_eq_getElem (Nat.lt_of_le_of_lt above inRange)] at typed
      cases typed with
      | @cons value first _ rest here typed =>
          rw [withSlots, slots_of_typeOf here]
          by_cases isHere : other = slot
          · subst isHere
            exact .inl ⟨first, List.mem_cons_self⟩
          by_cases isBehind : slot + frame.locals[slot].size ≤ other
          · have positive := frame.locals[slot].size_pos
            rcases ih typed (by omega) isBehind with ⟨type, isLater⟩ | isHalf
            · exact .inl ⟨type, List.mem_cons_of_mem _ isLater⟩
            · exact .inr isHalf
          · -- Between two values of the walk there is the second half of the first.
            have few := frame.locals[slot].size_le
            refine .inr ⟨slot, frame.locals[slot], by omega, Array.getElem?_eq_getElem _, ?_⟩
            exact decide_eq_true (by omega)

end Walk

/-! ## The types of a frame -/

theorem exists_dropTrailingTop_append (types : List VerificationType) :
    ∃ tops, types = dropTrailingTop types ++ tops ∧ ∀ type ∈ tops, type = .top := by
  refine ⟨(types.reverse.takeWhile (· == .top)).reverse, ?_, ?_⟩
  · rw [dropTrailingTop, ← List.reverse_append, List.takeWhile_append_dropWhile,
      List.reverse_reverse]
  · intro type found
    have isTop := List.mem_takeWhile_imp (List.mem_reverse.1 found)
    exact eq_of_beq isTop

/-- Types tell the locals of a frame: each is the type of the local at the slot where the
types before it end. A slot where no type starts belongs to the wide local before it, or
neither it nor any slot after it can be used. -/
structure PlacesLocals (frameMap : FrameMap) (bench : Workbench) (frame : Frame)
    (types : List VerificationType) : Prop where
  placed : ∀ (position : Nat) (type : VerificationType), types[position]? = some type →
    ∃ value, frame.locals[((types.take position).map VerificationType.slots).sum]? = some value ∧
      frameMap.typeOf value bench = .ok type bench
  others : ∀ slot < frame.locals.size,
    (∀ position < types.length,
      ((types.take position).map VerificationType.slots).sum ≠ slot) →
    frame.IsSecondHalf slot ∨
      ∀ (later : Nat) (value : Value), slot ≤ later → frame.locals[later]? = some value →
        frameMap.typeOf value bench = .ok .top bench

section Told

variable {frame : Frame} (paired : frame.Paired) {types tops : List VerificationType}
  (typed : List.Forall₂ (fun value type => frameMap.typeOf value bench = .ok type bench)
    (slotValues frame.locals frame.locals.size 0) (types ++ tops))
include paired typed

/-- No local behind the usable ones can be used, and that holds of second halves too. -/
theorem typeOf_eq_top (areTop : ∀ type ∈ tops, type = .top) {slot : Nat} {value : Value}
    (behind : (types.map VerificationType.slots).sum ≤ slot)
    (atSlot : frame.locals[slot]? = some value) :
    frameMap.typeOf value bench = .ok .top bench := by
  have inRange := (Array.getElem?_eq_some_iff.1 atSlot).1
  rcases exists_type_or_isSecondHalf typed (Nat.le_add_left ..) slot.zero_le inRange with
    ⟨type, found⟩ | isHalf
  · rcases exists_value_of_mem_withSlots typed found with ⟨value', atSlot', isType⟩
    cases atSlot.symm.trans atSlot'
    rw [withSlots_append] at found
    rcases List.mem_append.1 found with isBefore | isBehind
    · have bounds := bounds_of_mem_withSlots isBefore
      omega
    · rcases mem_withSlots_iff.1 isBehind with ⟨position, atPosition, _⟩
      rwa [areTop type (List.mem_of_getElem? atPosition)] at isType
  · cases atSlot.symm.trans (paired.getElem?_of_isSecondHalf isHalf)
    rfl

/-- Where wide locals are paired, the types that a walk over the locals finds tell them all,
also without the unusable ones at the end. -/
theorem placesLocals (areTop : ∀ type ∈ tops, type = .top) :
    frameMap.PlacesLocals bench frame types := by
  constructor
  · intro position type atPosition
    have found := mem_withSlots_iff.2 ⟨position, atPosition, Nat.zero_add _⟩
    refine exists_value_of_mem_withSlots typed ?_
    rw [withSlots_append]
    exact List.mem_append_left _ found
  · intro slot inRange uncovered
    rcases exists_type_or_isSecondHalf typed (Nat.le_add_left ..) slot.zero_le inRange with
      ⟨type, found⟩ | isHalf
    · right
      intro later value isLater atLater
      rw [withSlots_append] at found
      rcases List.mem_append.1 found with isBefore | isBehind
      · rcases mem_withSlots_iff.1 isBefore with ⟨position, atPosition, isSlot⟩
        rw [Nat.zero_add] at isSlot
        exact absurd isSlot (uncovered position (List.getElem?_eq_some_iff.1 atPosition).1)
      · have bounds := bounds_of_mem_withSlots isBehind
        exact typeOf_eq_top paired typed areTop (by omega) atLater
    · exact .inl isHalf

end Told

/-- The types of a frame tell its locals if wide ones are paired. -/
theorem exists_typesOf_placesLocals (frameMap : FrameMap) {frame : Frame} (paired : frame.Paired)
    (bench : Workbench) : ∃ types last, frameMap.typesOf frame bench = .ok types last ∧
      frameMap.PlacesLocals last frame types.locals := by
  rcases frameMap.exists_typesOf frame bench with ⟨all, types, last, given, isLocals, typed⟩
  rcases exists_dropTrailingTop_append all with ⟨tops, isAll, areTop⟩
  rw [isAll, ← isLocals] at typed
  exact ⟨types, last, given, placesLocals paired typed areTop⟩

end FrameMap

/-! ## Frames of an analysis -/

/-- Wide locals stay paired. All frames of an analysis, on the way and at its end, are
frames that can be reached from the entry by instructions, merges and handlers. In each of
these a `long` or `double` is followed by an unusable slot of its own, and so the types of
the frame, which can always be found, tell its locals. -/
theorem MethodBody.wide_locals_paired (classFile : ClassFile) (body : MethodBody)
    (flatArrays : Bool) (answers : String → Except OracleError Bool) :
    let analysis := body.analysis classFile flatArrays
    let slots := body.code.maxLocals.toNat
    (∀ handlers start state edges, body.instructions.isEmpty = false →
      analysis.prepare.eval answers = .ok (handlers, start) →
      analysis.Passes answers handlers start state edges →
      (∀ (index : Nat) (frame : Frame), state.frames[index]? = some (some frame) →
        frame.Reached answers slots) ∧
      ∀ target frame, .ok (target, frame) ∈ edges → frame.Reached answers slots) ∧
    (∀ result, (body.analyze classFile flatArrays).eval answers = .ok result →
      ∀ (index : Nat) (frame : Frame), result.frames[index]? = some (some frame) →
        frame.Reached answers slots) ∧
    ∀ frame : Frame, frame.Reached answers slots →
      (∀ (slot : Nat) (value : Value), frame.locals[slot]? = some value →
        value = .long ∨ value = .double →
        slot + 1 < slots ∧ frame.locals[slot + 1]? = some .uninitialized) ∧
      ∀ (frameMap : FrameMap) (bench : Workbench), ∃ types last,
        frameMap.typesOf frame bench = .ok types last ∧
          frameMap.PlacesLocals last frame types.locals := by
  intro analysis slots
  refine ⟨fun handlers start state edges => reached_of_passes,
    fun result => reached_of_analyze, fun frame reached => ?_⟩
  rcases reached.paired with ⟨size, paired⟩
  refine ⟨fun slot value atSlot isTwo => ?_,
    fun frameMap => frameMap.exists_typesOf_placesLocals paired⟩
  have wide : value.isWide = true := by rcases isTwo with rfl | rfl <;> rfl
  have behind := paired slot value atSlot wide
  exact ⟨size ▸ (Array.getElem?_eq_some_iff.1 behind).1, behind⟩

/-- A static method that is given a `long` and an `int` and stores a `double` over the second
half of the one and over the other, again and again. -/
def MethodBody.overlap : MethodBody where
  isStatic := true
  descriptor := "(JI)V"
  code := {
    maxStack := 2
    maxLocals := 5
    code := [0x0e, 0x48, 0xa7, 0xff, 0xfe]
    exceptions := []
    attributes := [] }
  instructions := #[⟨0, .const .double0⟩, ⟨1, .storeShort .double 1⟩, ⟨2, .goto (-2)⟩]

/-- What is known before `overlap` jumps back. -/
def MethodBody.overlapFrame : Frame :=
  ⟨#[.uninitialized, .double, .uninitialized, .uninitialized, .uninitialized], []⟩

/-- The analysis of `overlap` finds the `double` where its type is. -/
theorem MethodBody.wide_locals_paired_overlap : ∃ handlers start result,
    (overlap.analysis .pair true).prepare.eval (fun _ => .ok false) = .ok (handlers, start) ∧
      (∀ (index : Nat) (frame : Frame), start.frames[index]? = some (some frame) →
        frame.Reached (fun _ => .ok false) 5) ∧
      (overlap.analyze .pair true).eval (fun _ => .ok false) = .ok result ∧
      result.frames[2]? = some (some overlapFrame) ∧
      overlapFrame.Reached (fun _ => .ok false) 5 ∧
      (2 < 5 ∧ overlapFrame.locals[2]? = some .uninitialized) ∧
      (FrameMap.mk overlap result ⟨overlap.addresses, 5, #[0, 1, 2], 5, #[]⟩).PlacesLocals ⟨{}, []⟩
        overlapFrame [.top, .double] := by
  have prepared : ∃ pair,
      (overlap.analysis .pair true).prepare.eval (fun _ => .ok false) = .ok pair ∧
        pair.1.isEmpty = true := by
    apply Outcome.exists_of_any
    decide +kernel
  have analyzed : ∃ result, (overlap.analyze .pair true).eval (fun _ => .ok false) = .ok result ∧
      decide (result.frames[2]? = some (some overlapFrame)) = true := by
    apply Outcome.exists_of_any
    decide +kernel
  obtain ⟨⟨handlers, start⟩, prepared, _⟩ := prepared
  obtain ⟨result, analyzed, found⟩ := analyzed
  obtain ⟨passing, ended, told⟩ := wide_locals_paired .pair overlap true fun _ => .ok false
  have reached := ended result analyzed 2 overlapFrame (of_decide_eq_true found)
  obtain ⟨pairs, typed⟩ := told overlapFrame reached
  obtain ⟨types, last, given, places⟩ := typed
    (.mk overlap result ⟨overlap.addresses, 5, #[0, 1, 2], 5, #[]⟩) ⟨{}, []⟩
  cases given
  exact ⟨handlers, start, result, prepared, (passing handlers start start [] rfl prepared .start).1,
    analyzed, of_decide_eq_true found, reached, pairs 1 .double rfl (.inr rfl), places⟩

end ValueForm
