import ValueForm.Analysis.Flow
import ValueForm.Proofs.Analysis.Provenance

/-!
# Progress

How often a value can still be raised by merges is bounded by its headroom, and
the headroom of a frame is that of its values together. A merge that changes a
frame lowers its headroom. `potential` adds up the headroom of the frames of a
body, where an instruction that has not been reached counts more than any frame
it can get.
-/

namespace ValueForm

namespace SiteSet

@[simp]
theorem length_insertSorted {site : Site} {sites : List Site} (missing : site ∉ sites) :
    (insertSorted site sites).length = sites.length + 1 := by
  induction sites with
  | nil => rfl
  | cons first rest ih =>
      rw [List.mem_cons, not_or] at missing
      unfold insertSorted
      split
      · rfl
      · split
        · rw [List.length_cons, ih missing.2, List.length_cons]
        · exact absurd (Site.rank_injective (by omega)) missing.1

/-- Adding sites leaves a set as it is or enlarges it. -/
theorem foldl_insert_eq_or_size_lt (added : List Site) (sites : SiteSet) :
    added.foldl insert sites = sites ∨ sites.size < (added.foldl insert sites).size := by
  induction added generalizing sites with
  | nil => exact .inl rfl
  | cons site rest ih =>
      rw [List.foldl_cons]
      by_cases found : site ∈ sites
      · have same : sites.insert site = sites := by
          apply ext_mem
          intro other
          rw [mem_insert]
          constructor
          · rintro (rfl | already)
            · exact found
            · exact already
          · exact .inr
        rw [same]
        exact ih sites
      · have grown : (sites.insert site).size = sites.size + 1 := length_insertSorted found
        rcases ih (sites.insert site) with same | larger
        · rw [same]
          omega
        · omega

theorem union_eq_or_size_lt (first second : SiteSet) :
    first.union second = first ∨ first.size < (first.union second).size :=
  foldl_insert_eq_or_size_lt second.toList first

end SiteSet

namespace Value

/-- How often a value can still be raised where there are `sites` sites. -/
def headroom (sites : Nat) : Value → Nat
  | .uninitialized => 0
  | .precise _ => 2
  | .null => 3
  | .capable _ provenance => 3 + (sites - provenance.size)
  | .int | .float | .long | .double | .reference | .returnAddress => 1

theorem headroom_le (sites : Nat) (value : Value) : value.headroom sites ≤ sites + 3 := by
  cases value <;> simp only [headroom] <;> omega

/-- A merge of values without value form keeps the first or lowers the headroom. -/
theorem joinPlain_eq_or_headroom_lt (sites : Nat) (first second : Value)
    (plain : first.isCapable = false) (plain' : second.isCapable = false) :
    joinPlain first second = first ∨
      (joinPlain first second).headroom sites < first.headroom sites := by
  unfold joinPlain
  cases first <;> cases second <;> grind [isReference, headroom, isCapable]

/-- A merge keeps a value or lowers its headroom, as long as there are no more
sites than counted. -/
theorem join_eq_or_headroom_lt {sites : Nat} (first second : Value)
    (bounded : (first.join second).provenance.size ≤ sites) :
    first.join second = first ∨ (first.join second).headroom sites < first.headroom sites := by
  rcases join_cases first second with
    ⟨className, sites, sites', rfl, rfl, joined, _⟩ | ⟨joined, _⟩
  · rw [joined] at bounded ⊢
    rcases sites.union_eq_or_size_lt sites' with same | larger
    · exact .inl (by rw [same])
    · refine .inr ?_
      simp only [provenance, headroom] at *
      omega
  · rw [joined]
    have lowered := joinPlain_eq_or_headroom_lt sites first.asReference second.asReference
      first.isCapable_asReference second.isCapable_asReference
    cases first with
    | capable className provenance =>
        -- A value form that is lost had headroom above that of any reference.
        refine .inr ?_
        rcases lowered with same | lower
        · rw [same]
          simp only [asReference, headroom]
          omega
        · simp only [asReference, headroom] at *
          omega
    | _ => exact lowered

end Value

theorem sum_headroom_le (sites : Nat) (values : List Value) :
    (values.map (Value.headroom sites)).sum ≤ values.length * (sites + 3) := by
  induction values with
  | nil => simp
  | cons first rest ih =>
      have here := first.headroom_le sites
      rw [List.map_cons, List.sum_cons, List.length_cons, Nat.succ_mul]
      omega

/-- Values that are each kept or lowered are all kept or lowered together. -/
theorem eq_or_sum_headroom_lt {sites : Nat} {old new : List Value}
    (length : new.length = old.length)
    (each : ∀ (index : Nat) (before after : Value), old[index]? = some before →
      new[index]? = some after → after = before ∨ after.headroom sites < before.headroom sites) :
    new = old ∨
      (new.map (Value.headroom sites)).sum < (old.map (Value.headroom sites)).sum := by
  induction old generalizing new with
  | nil => exact .inl (List.length_eq_zero_iff.1 length)
  | cons before old ih =>
      cases new with
      | nil => simp at length
      | cons after new =>
          have here := each 0 before after rfl rfl
          have rest := ih (Nat.succ.inj length) fun index before after atOld atNew =>
            each (index + 1) before after atOld atNew
          simp only [List.map_cons, List.sum_cons]
          rcases here with rfl | lower
          · rcases rest with rfl | lower
            · exact .inl rfl
            · exact .inr (by omega)
          · rcases rest with rfl | lower'
            · exact .inr (by omega)
            · exact .inr (by omega)

namespace Frame

/-- How often the values of a frame can still be raised. -/
def headroom (sites : Nat) (frame : Frame) : Nat :=
  (frame.locals.toList.map (Value.headroom sites)).sum +
    (frame.stack.map (Value.headroom sites)).sum

theorem headroom_le (sites : Nat) (frame : Frame) :
    frame.headroom sites ≤ (frame.locals.size + frame.stack.length) * (sites + 3) := by
  have locals := sum_headroom_le sites frame.locals.toList
  have stack := sum_headroom_le sites frame.stack
  rw [Array.length_toList] at locals
  rw [headroom, Nat.add_mul]
  omega

/-- A merge keeps a frame or lowers its headroom. -/
theorem join_eq_or_headroom_lt {slots count : Nat} {current incoming : Frame}
    (height : current.stack.length = incoming.stack.length)
    (sited : (current.join incoming).Sited (Site.Within slots count)) :
    current.join incoming = current ∨
      (current.join incoming).headroom (slots + count) < current.headroom (slots + count) := by
  have bounded (value : Value) (holds : (current.join incoming).Holds value) :
      value.provenance.size ≤ slots + count :=
    SiteSet.size_le_of_within fun site found => (sited value holds).of_mem found
  have eachLocal : ∀ (index : Nat) (before after : Value),
      current.locals.toList[index]? = some before →
      (current.join incoming).locals.toList[index]? = some after →
      after = before ∨ after.headroom (slots + count) < before.headroom (slots + count) := by
    intro index before after atCurrent atJoined
    rw [Array.getElem?_toList] at atCurrent atJoined
    have isBounded := bounded after (.inl (Array.mem_of_getElem? atJoined))
    rw [getElem?_join_locals, atCurrent] at atJoined
    obtain rfl := Option.some.inj atJoined
    cases atIncoming : incoming.locals[index]? with
    | none => exact .inl rfl
    | some other =>
        rw [atIncoming] at isBounded
        exact Value.join_eq_or_headroom_lt before other isBounded
  have eachEntry : ∀ (index : Nat) (before after : Value), current.stack[index]? = some before →
      (current.join incoming).stack[index]? = some after →
      after = before ∨ after.headroom (slots + count) < before.headroom (slots + count) := by
    intro index before after atCurrent atJoined
    have isBounded := bounded after (.inr (List.mem_of_getElem? atJoined))
    rw [getElem?_join_stack, atCurrent] at atJoined
    cases atIncoming : incoming.stack[index]? with
    | none => simp [atIncoming] at atJoined
    | some other =>
        rw [atIncoming] at atJoined
        obtain rfl := Option.some.inj atJoined
        exact Value.join_eq_or_headroom_lt before other isBounded
  have locals := eq_or_sum_headroom_lt (by simp [size_join_locals]) eachLocal
  have stack := eq_or_sum_headroom_lt (length_join_stack height) eachEntry
  unfold headroom
  rcases locals with sameLocals | lowerLocals
  · rcases stack with sameStack | lowerStack
    · exact .inl (congr (congrArg Frame.mk (Array.toList_inj.1 sameLocals)) sameStack)
    · rw [sameLocals]
      exact .inr (by omega)
  · rcases stack with sameStack | lowerStack
    · rw [sameStack]
      exact .inr (by omega)
    · exact .inr (by omega)

end Frame

/-- What an instruction can still be visited for: its frame being raised, and
before it is reached also that. -/
def reserve (slots count : Nat) : Option Frame → Nat
  | none => 1 + (slots + 2 * count) * (count + slots + 6)
  | some frame => frame.headroom (slots + count)

/-- What all instructions can still be visited for. -/
def potential (slots count : Nat) (frames : Array (Option Frame)) : Nat :=
  (frames.toList.map (reserve slots count)).sum

/-- How many instructions have been reached. -/
def reached (frames : Array (Option Frame)) : Nat :=
  frames.toList.countP Option.isSome

theorem sum_map_set {α : Type} (weight : α → Nat) {items : List α} {index : Nat} {old : α}
    (found : items[index]? = some old) (new : α) :
    ((items.set index new).map weight).sum + weight old = (items.map weight).sum + weight new := by
  induction items generalizing index with
  | nil => simp at found
  | cons first rest ih =>
      cases index with
      | zero =>
          obtain rfl := Option.some.inj found
          simp only [List.set_cons_zero, List.map_cons, List.sum_cons]
          omega
      | succ index =>
          have inRest := ih found
          simp only [List.set_cons_succ, List.map_cons, List.sum_cons]
          omega

theorem potential_set (slots count : Nat) {index : Nat} {frames : Array (Option Frame)}
    {old : Option Frame} (found : frames[index]? = some old) (new : Option Frame) :
    potential slots count (frames.setIfInBounds index new) + reserve slots count old =
      potential slots count frames + reserve slots count new := by
  rw [← Array.getElem?_toList] at found
  rw [potential, Array.toList_setIfInBounds]
  exact sum_map_set (reserve slots count) found new

theorem reached_set_of_none {index : Nat} {frames : Array (Option Frame)}
    (found : frames[index]? = some none) (frame : Frame) :
    reached (frames.setIfInBounds index (some frame)) = reached frames + 1 := by
  rw [← Array.getElem?_toList] at found
  obtain ⟨inRange, isNone⟩ := List.getElem?_eq_some_iff.1 found
  rw [reached, Array.toList_setIfInBounds, List.countP_set inRange, isNone]
  rfl

theorem reached_set_of_some {index : Nat} {frames : Array (Option Frame)} {old : Frame}
    (found : frames[index]? = some (some old)) (frame : Frame) :
    reached (frames.setIfInBounds index (some frame)) = reached frames := by
  rw [← Array.getElem?_toList] at found
  obtain ⟨inRange, isSome⟩ := List.getElem?_eq_some_iff.1 found
  have positive : 0 < frames.toList.countP Option.isSome :=
    List.countP_pos_iff.2 ⟨some old, List.mem_of_getElem? found, rfl⟩
  rw [reached, Array.toList_setIfInBounds, List.countP_set inRange, isSome, reached]
  simp only [Option.isSome_some, if_true]
  omega

theorem reached_le (frames : Array (Option Frame)) : reached frames ≤ frames.size :=
  List.countP_le_length

/-- A frame of few enough values has less headroom than an unreached
instruction is counted for. -/
theorem headroom_lt_reserve_none {slots count : Nat} {frame : Frame}
    (locals : frame.locals.size = slots) (stack : frame.stack.length ≤ 2 * count) :
    frame.headroom (slots + count) < reserve slots count none := by
  have bound := frame.headroom_le (slots + count)
  have wider : (frame.locals.size + frame.stack.length) * (slots + count + 3) ≤
      (slots + 2 * count) * (count + slots + 6) := Nat.mul_le_mul (by omega) (by omega)
  rw [reserve]
  omega

end ValueForm
