import ValueForm.Proofs.Analysis.Absorption

/-!
# The order of what is known

A value is below another when the other says less. Instances of one value-capable class
are ordered by the sites they depend on, and all of them are below the type of their
class. Null is below the types of references, but below no instance; types are below
`reference`, and everything is below `uninitialized`.

The order is stated without merging. That merging two values yields the least value
above both makes it a semilattice, so what remains of values that meet does not depend
on the order in which they do. Frames are ordered slot by slot.
-/

namespace ValueForm

namespace Value

/-- Instances of one class by their sites; any other value is above what it covers. -/
instance : LE Value where
  le first second :=
    (∃ className sites sites', first = .capable className sites ∧
      second = .capable className sites' ∧ ∀ site ∈ sites, site ∈ sites') ∨
    (second.isCapable = false ∧ second.Covers first.asReference)

theorem le_def {first second : Value} :
    first ≤ second ↔
      (∃ className sites sites', first = .capable className sites ∧
        second = .capable className sites' ∧ ∀ site ∈ sites, site ∈ sites') ∨
      (second.isCapable = false ∧ second.Covers first.asReference) :=
  Iff.rfl

/-- What a value is above it absorbs, wherever all sites are held. -/
theorem absorbs_iff_le {current incoming : Value} :
    current.Absorbs (fun _ => True) incoming ↔ incoming ≤ current := by
  rw [absorbs_iff, le_def]
  constructor
  · rintro (⟨className, sites, sites', rfl, rfl, contained⟩ | ⟨plain, covers, _⟩)
    · exact .inl ⟨className, sites', sites, rfl, rfl, contained⟩
    · exact .inr ⟨plain, covers⟩
  · rintro (⟨className, sites, sites', rfl, rfl, contained⟩ | ⟨plain, covers⟩)
    · exact .inl ⟨className, sites', sites, rfl, rfl, contained⟩
    · exact .inr ⟨plain, covers, fun _ _ => trivial⟩

/-- A merge yields the least value above both. -/
instance : SemilatticeSup Value where
  sup := join
  le_refl value := absorbs_iff_le.1 value.absorbs_self
  le_trans _ _ _ below above :=
    absorbs_iff_le.1 ((absorbs_iff_le.2 above).trans (absorbs_iff_le.2 below))
  le_antisymm _ _ below above := (absorbs_iff_le.2 above).antisymm (absorbs_iff_le.2 below)
  le_sup_left first _ := absorbs_iff_le.1 (first.absorbs_self.join fun _ _ => trivial)
  le_sup_right _ _ := absorbs_iff_le.1 (absorbs_join_right fun _ _ => trivial)
  sup_le _ _ _ below below' :=
    absorbs_iff_le.1 ((absorbs_iff_le.2 below).lub (absorbs_iff_le.2 below')).1

@[simp]
theorem sup_eq_join (first second : Value) : first ⊔ second = first.join second :=
  rfl

/-- Below an instance there are only instances of its class. -/
@[simp]
theorem le_capable_iff {value : Value} {className : String} {sites : SiteSet} :
    value ≤ .capable className sites ↔
      ∃ sites', value = .capable className sites' ∧ ∀ site ∈ sites', site ∈ sites := by
  rw [le_def]
  constructor
  · rintro (⟨_, sites', _, rfl, ⟨⟩, contained⟩ | ⟨plain, _⟩)
    · exact ⟨sites', rfl, contained⟩
    · cases plain
  · rintro ⟨sites', rfl, contained⟩
    exact .inl ⟨className, sites', sites, rfl, rfl, contained⟩

end Value

namespace Frame

/-- Frames of one size and height, slot by slot. -/
instance : LE Frame where
  le first second := first.locals.size = second.locals.size ∧ first.Matches (· ≤ ·) second

/-- Frames of the same size and height with the same values are equal. -/
theorem eq_of_matches {first second : Frame} (size : first.locals.size = second.locals.size)
    (same : first.Matches (· = ·) second) : first = second := by
  have localsEq : first.locals = second.locals := by
    apply Array.ext size
    intro index inFirst inSecond
    exact same.locals index _ _ (Array.getElem?_eq_getElem inFirst)
      (Array.getElem?_eq_getElem inSecond)
  have stackEq : first.stack = second.stack := by
    apply List.ext_getElem same.height
    intro index inFirst inSecond
    exact same.stack index _ _ (List.getElem?_eq_getElem inFirst)
      (List.getElem?_eq_getElem inSecond)
  cases first
  exact Frame.mk.injEq .. ▸ ⟨localsEq, stackEq⟩

instance : PartialOrder Frame where
  le_refl frame := by
    refine ⟨rfl, rfl, ?_, ?_⟩
    · intro index value other atIndex atIndex'
      exact le_of_eq (Option.some.inj (atIndex.symm.trans atIndex'))
    · intro index value other atIndex atIndex'
      exact le_of_eq (Option.some.inj (atIndex.symm.trans atIndex'))
  le_trans first second third below above := by
    refine ⟨below.1.trans above.1, below.2.height.trans above.2.height, ?_, ?_⟩
    · intro index value other atFirst atThird
      have inRange : index < second.locals.size :=
        below.1 ▸ (Array.getElem?_eq_some_iff.1 atFirst).1
      have atSecond := Array.getElem?_eq_getElem inRange
      exact (below.2.locals index _ _ atFirst atSecond).trans
        (above.2.locals index _ _ atSecond atThird)
    · intro index value other atFirst atThird
      have inRange : index < second.stack.length :=
        below.2.height ▸ (List.getElem?_eq_some_iff.1 atFirst).1
      have atSecond := List.getElem?_eq_getElem inRange
      exact (below.2.stack index _ _ atFirst atSecond).trans
        (above.2.stack index _ _ atSecond atThird)
  le_antisymm first second below above := by
    refine eq_of_matches below.1 ⟨below.2.height, ?_, ?_⟩
    · intro index value other atFirst atSecond
      exact le_antisymm (below.2.locals index _ _ atFirst atSecond)
        (above.2.locals index _ _ atSecond atFirst)
    · intro index value other atFirst atSecond
      exact le_antisymm (below.2.stack index _ _ atFirst atSecond)
        (above.2.stack index _ _ atSecond atFirst)

/-- What a merge of frames yields is above the first. -/
theorem le_join_left {current incoming : Frame}
    (height : current.stack.length = incoming.stack.length) :
    current ≤ current.join incoming := by
  refine ⟨(size_join_locals current incoming).symm, (length_join_stack height).symm, ?_, ?_⟩
  · intro index value other atCurrent atJoined
    rw [getElem?_join_locals, atCurrent] at atJoined
    cases atJoined
    split
    · exact le_sup_left
    · exact le_rfl
  · intro index value other atCurrent atJoined
    rw [getElem?_join_stack, atCurrent] at atJoined
    split at atJoined
    · next isValue _ =>
        cases isValue
        cases atJoined
        exact le_sup_left
    · cases atJoined

/-- A merge that changes a frame raises it. -/
theorem lt_join {current incoming : Frame}
    (height : current.stack.length = incoming.stack.length)
    (changed : current.join incoming ≠ current) : current < current.join incoming :=
  lt_of_le_of_ne (le_join_left height) changed.symm

/-- A merge leaves a frame as it is exactly when each of its values stays. -/
theorem join_eq_left_iff {current incoming : Frame}
    (height : current.stack.length = incoming.stack.length) :
    current.join incoming = current ↔
      current.Matches (fun value other => value.join other = value) incoming := by
  refine ⟨fun kept => ?_, join_eq_left⟩
  have absorbs : current.Absorbs (fun _ => True) incoming :=
    ⟨current.conflict incoming, by rw [merge, if_pos height, kept], fun _ _ => trivial⟩
  have related := absorbs_iff.1 absorbs
  refine ⟨height, ?_, ?_⟩
  · intro index value other atCurrent atIncoming
    exact (related.locals index value other atCurrent atIncoming).1
  · intro index value other atCurrent atIncoming
    exact (related.stack index value other atCurrent atIncoming).1

end Frame

end ValueForm
