import ValueForm.Proofs.Analysis.Decisions
import ValueForm.Proofs.Analysis.Order

/-!
# Values that meet in any order

A collection of values is merged two at a time, whichever two are taken first, and
each merge forces sites of the registry. What is left in the end is the least value
above all of them, and the sites forced on the way are those of the whole collection or
none, so neither depends on the order or on the grouping.
-/

namespace ValueForm

namespace Value

/-- All values are instances of one value-capable class. -/
def OneClass (className : String) (values : List Value) : Prop :=
  ∀ value ∈ values, ∃ sites, value = .capable className sites

/-- One of the values depends on a site. -/
def DependOn (values : List Value) (site : Site) : Prop :=
  ∃ value ∈ values, site ∈ value.provenance

theorem mem_conflict_iff {first second : Value} {site : Site} :
    site ∈ first.conflict second ↔
      (first.join second).isCapable = false ∧
        (site ∈ first.provenance ∨ site ∈ second.provenance) := by
  rcases join_cases first second with
    ⟨className, sites, sites', rfl, rfl, joined, unforced⟩ | ⟨joined, forced⟩
  · simp [joined, unforced, isCapable]
  · simp [joined, forced, isCapable_plainJoin, SiteSet.mem_def]

theorem mem_provenance_join_iff {first second : Value} {site : Site} :
    site ∈ (first.join second).provenance ↔
      (first.join second).isCapable = true ∧
        (site ∈ first.provenance ∨ site ∈ second.provenance) := by
  rcases join_cases first second with
    ⟨className, sites, sites', rfl, rfl, joined, _⟩ | ⟨joined, _⟩
  · simp [joined, isCapable, provenance, SiteSet.mem_union]
  · have plain := isCapable_plainJoin first second
    simp [joined, plain, provenance_of_not_capable plain, SiteSet.not_mem_empty]

@[simp]
theorem conflict_self (value : Value) : value.conflict value = [] := by
  have absorbs : value.Absorbs (fun _ => False) value := value.absorbs_self
  exact List.eq_nil_iff_forall_not_mem.2 absorbs.2

/-- Two values are instances of a class exactly when what they merge to is. -/
@[simp]
theorem oneClass_join_iff {className : String} {first second : Value} {rest : List Value} :
    OneClass className (first.join second :: rest) ↔
      OneClass className (first :: second :: rest) := by
  simp only [OneClass, List.forall_mem_cons, ← and_assoc]
  refine and_congr_left fun _ => ⟨?_, ?_⟩
  · rintro ⟨sites, joined⟩
    have firstLe : first ≤ .capable className sites := joined ▸ le_sup_left
    have secondLe : second ≤ .capable className sites := joined ▸ le_sup_right
    obtain ⟨firstSites, isFirst, _⟩ := le_capable_iff.1 firstLe
    obtain ⟨secondSites, isSecond, _⟩ := le_capable_iff.1 secondLe
    exact ⟨⟨firstSites, isFirst⟩, secondSites, isSecond⟩
  · rintro ⟨⟨sites, rfl⟩, sites', rfl⟩
    exact ⟨sites.union sites', by simp [join]⟩

theorem isCapable_of_oneClass {className : String} {value : Value} {rest : List Value}
    (alike : OneClass className (value :: rest)) : value.isCapable = true := by
  obtain ⟨sites, rfl⟩ := alike value List.mem_cons_self
  rfl

/-- The sites that a collection of values has to force: those of all its values, unless
these keep the value form of one class. -/
def Boxes (values : List Value) (site : Site) : Prop :=
  (¬ ∃ className, OneClass className values) ∧ DependOn values site

/-- A merge of two forces some of the sites that the collection has to force and leaves
the others to what remains. -/
theorem boxes_join_iff {first second : Value} {rest : List Value} {site : Site} :
    Boxes (first :: second :: rest) site ↔
      site ∈ first.conflict second ∨ Boxes (first.join second :: rest) site := by
  simp only [Boxes, DependOn, oneClass_join_iff, List.exists_mem_cons_iff,
    mem_conflict_iff, mem_provenance_join_iff]
  cases capability : (first.join second).isCapable with
  | true => simp [or_assoc]
  | false =>
      have mixed : ¬ ∃ className, OneClass className (first :: second :: rest) := by
        rintro ⟨className, alike⟩
        exact Bool.false_ne_true
          (capability.symm.trans (isCapable_of_oneClass (oneClass_join_iff.2 alike)))
      simp [mixed, or_assoc]

theorem boxes_perm {values values' : List Value} (reordered : values.Perm values')
    {site : Site} : Boxes values site ↔ Boxes values' site := by
  simp only [Boxes, OneClass, DependOn, reordered.mem_iff]

end Value

open Value

/-! ## Merging a collection -/

/-- Values are merged two at a time, any two of those there are, until one is left; each
merge forces sites of the registry. -/
inductive Merges : Registry → List Value → Registry → Value → Prop
  | one (registry : Registry) (value : Value) : Merges registry [value] registry value
  | two {registry final : Registry} {values rest : List Value} {first second result : Value}
      (taken : values.Perm (first :: second :: rest))
      (others : Merges (registry.force (first.conflict second)) (first.join second :: rest)
        final result) :
      Merges registry values final result

/-- What merging a collection of values comes to. -/
structure Merged (registry : Registry) (values : List Value) (final : Registry)
    (result : Value) : Prop where
  least : IsLUB {value | value ∈ values} result
  links : final.links = registry.links
  /-- Instances of one class keep their form, with the sites of all of them. -/
  alike : ∀ className, OneClass className values →
    (∃ sites, result = .capable className sites ∧ ∀ site, site ∈ sites ↔ DependOn values site) ∧
      ∀ site, final.get? site = registry.get? site
  /-- Any other values become a reference or less, and all their sites are forced. -/
  mixed : (¬ ∃ className, OneClass className values) →
    result.isCapable = false ∧
      (∀ site, DependOn values site →
        final.get? site = (registry.get? site).map fun patch => { patch with forced := true }) ∧
      ∀ site, ¬ DependOn values site → final.get? site = registry.get? site

namespace Merges

variable {registry final final' : Registry} {values : List Value} {result result' : Value}

theorem exists_merges (registry : Registry) (first : Value) (rest : List Value) :
    ∃ final result, Merges registry (first :: rest) final result := by
  induction rest generalizing registry first with
  | nil => exact ⟨registry, first, .one registry first⟩
  | cons second rest ih =>
      obtain ⟨final, result, others⟩ :=
        ih (registry.force (first.conflict second)) (first.join second)
      exact ⟨final, result, .two (.refl _) others⟩

theorem isLUB (merges : Merges registry values final result) :
    IsLUB {value | value ∈ values} result := by
  induction merges with
  | one registry value => simp
  | @two registry final values rest first second result taken others ih =>
      -- Two values and their merge have the same upper bounds.
      have sameBounds : upperBounds {value | value ∈ values} =
          upperBounds {value | value ∈ first.join second :: rest} := by
        ext bound
        simp only [mem_upperBounds, Set.mem_ofPred_eq, taken.mem_iff, List.forall_mem_cons,
          ← sup_eq_join, sup_le_iff, and_assoc]
      rwa [IsLUB, sameBounds]

theorem links_eq (merges : Merges registry values final result) :
    final.links = registry.links := by
  induction merges with
  | one => rfl
  | two _ _ ih => rw [ih, Registry.links_force]

theorem oneClass_result_iff (merges : Merges registry values final result)
    {className : String} : OneClass className [result] ↔ OneClass className values := by
  induction merges with
  | one => exact Iff.rfl
  | two taken _ ih =>
      rw [ih, oneClass_join_iff]
      simp only [OneClass, taken.mem_iff]

/-- The decisions afterwards: a site is forced if the collection has to force it. -/
theorem get?_eq (merges : Merges registry values final result) (site : Site) :
    (Boxes values site →
        final.get? site = (registry.get? site).map fun patch => { patch with forced := true }) ∧
      (¬ Boxes values site → final.get? site = registry.get? site) := by
  induction merges with
  | one registry value =>
      refine ⟨fun boxes => absurd ?_ boxes.1, fun _ => rfl⟩
      -- A value with sites is by itself an instance of its class.
      obtain ⟨_, found⟩ := boxes
      cases value with
      | capable className sites => exact ⟨className, by simp [OneClass]⟩
      | _ => simp [DependOn, provenance, SiteSet.not_mem_empty] at found
  | @two registry final values rest first second result taken others ih =>
      rw [boxes_perm taken, boxes_join_iff]
      by_cases forcedHere : site ∈ first.conflict second
      · have later : final.get? site =
            (registry.get? site).map fun patch => { patch with forced := true } := by
          by_cases again : Boxes (first.join second :: rest) site
          · rw [ih.1 again, Registry.get?_force, if_pos forcedHere, Option.map_map]
            rfl
          · rw [ih.2 again, Registry.get?_force, if_pos forcedHere]
        exact ⟨fun _ => later, fun outside => absurd (.inl forcedHere) outside⟩
      · rw [Registry.get?_force, if_neg forcedHere] at ih
        simpa [forcedHere] using ih

/-- What an instance that is left depends on, all of them depended on. -/
theorem mem_provenance_iff (merges : Merges registry values final result)
    (kept : result.isCapable = true) (site : Site) :
    site ∈ result.provenance ↔ DependOn values site := by
  induction merges with
  | one registry value => simp [DependOn]
  | @two registry final values rest first second result taken others ih =>
      obtain ⟨className, sites, rfl⟩ : ∃ className sites, result = .capable className sites := by
        cases result with
        | capable className sites => exact ⟨className, sites, rfl⟩
        | _ => simp [isCapable] at kept
      have alike : OneClass className (first.join second :: rest) :=
        others.oneClass_result_iff.1 (by simp [OneClass])
      rw [ih kept]
      simp only [DependOn, taken.mem_iff, List.exists_mem_cons_iff, mem_provenance_join_iff,
        isCapable_of_oneClass alike, true_and, or_assoc]

theorem merged (merges : Merges registry values final result) :
    Merged registry values final result where
  least := merges.isLUB
  links := merges.links_eq
  alike className alike := by
    obtain ⟨sites, rfl⟩ := merges.oneClass_result_iff.2 alike result (List.mem_singleton.2 rfl)
    refine ⟨⟨sites, rfl, merges.mem_provenance_iff rfl⟩, fun site => ?_⟩
    exact (merges.get?_eq site).2 fun boxes => boxes.1 ⟨className, alike⟩
  mixed mixed := by
    refine ⟨?_, fun site found => ?_, fun site missing => ?_⟩
    · cases result with
      | capable className sites =>
          exact absurd ⟨className, merges.oneClass_result_iff.1 (by simp [OneClass])⟩ mixed
      | _ => rfl
    · exact (merges.get?_eq site).1 ⟨mixed, found⟩
    · exact (merges.get?_eq site).2 fun boxes => missing boxes.2

/-- Two ways of merging a collection leave the same value and the same decisions. -/
theorem agree (merges : Merges registry values final result)
    (merges' : Merges registry values final' result') :
    result = result' ∧ ∀ site, final.get? site = final'.get? site := by
  refine ⟨merges.isLUB.unique merges'.isLUB, fun site => ?_⟩
  by_cases boxes : Boxes values site
  · rw [(merges.get?_eq site).1 boxes, (merges'.get?_eq site).1 boxes]
  · rw [(merges.get?_eq site).2 boxes, (merges'.get?_eq site).2 boxes]

end Merges

/-! ## Merging frames -/

/-- Forcing sites that are forced already changes no decision. -/
theorem Registry.get?_force_force (registry : Registry) {sites again : List Site}
    (contained : ∀ site ∈ again, site ∈ sites) (site : Site) :
    ((registry.force sites).force again).get? site = (registry.force sites).get? site := by
  rw [get?_force _ again]
  split
  · next found =>
      rw [get?_force, if_pos (contained site found), Option.map_map]
      rfl
  · rfl

/-- A merge of frames succeeds when they are equally high, and a second one with the same
frame changes neither the frame nor a decision. -/
theorem Frame.exists_merge {current incoming : Frame}
    (height : current.stack.length = incoming.stack.length) (registry : Registry) :
    ∃ forced again,
      current.merge incoming = .ok (current.join incoming, forced) ∧
      (current.join incoming).merge incoming = .ok (current.join incoming, again) ∧
      ∀ site, ((registry.force forced).force again).get? site =
        (registry.force forced).get? site := by
  have absorbs : (current.join incoming).Absorbs (· ∈ current.conflict incoming) incoming :=
    absorbs_join_right height fun _ found => found
  obtain ⟨again, mergedAgain, contained⟩ := absorbs
  refine ⟨current.conflict incoming, again, ?_, mergedAgain, ?_⟩
  · rw [merge, if_pos height]
  · exact registry.get?_force_force contained

/-- Merging is independent of order and grouping, forced sites included. Any non-empty
collection can be merged, and every way of doing so leaves the same value, the least above
all, and the same decisions: those of instances of one class are left as they are, and
otherwise exactly the sites of the collection are forced. A value merged with itself stays,
and nothing is forced. A merge of equally high frames leaves the frame as it is exactly when
each of its values stays in a merge with the other frame's, and doing it again changes
nothing. -/
theorem merging_order_independent (registry : Registry) :
    (∀ values : List Value, values ≠ [] →
      (∃ final result, Merges registry values final result) ∧
      (∀ final result, Merges registry values final result →
        Merged registry values final result) ∧
      ∀ final result final' result', Merges registry values final result →
        Merges registry values final' result' →
        result = result' ∧ ∀ site, final.get? site = final'.get? site) ∧
    (∀ value : Value, value.join value = value ∧
      registry.force (value.conflict value) = registry) ∧
    ∀ current incoming : Frame, current.stack.length = incoming.stack.length →
      ∃ merged forced again,
        current.merge incoming = .ok (merged, forced) ∧
        (merged = current ↔
          current.Matches (fun value other => value.join other = value) incoming) ∧
        merged.merge incoming = .ok (merged, again) ∧
        ∀ site, ((registry.force forced).force again).get? site =
          (registry.force forced).get? site := by
  refine ⟨?_, ?_, ?_⟩
  · intro values isSome
    obtain ⟨first, rest, rfl⟩ := List.exists_cons_of_ne_nil isSome
    exact ⟨Merges.exists_merges registry first rest, fun _ _ => Merges.merged,
      fun _ _ _ _ => Merges.agree⟩
  · intro value
    refine ⟨sup_idem value, ?_⟩
    rw [conflict_self]
    rfl
  · intro current incoming height
    obtain ⟨forced, again, merged, mergedAgain, unchanged⟩ :=
      Frame.exists_merge height registry
    refine ⟨current.join incoming, forced, again, merged, ?_, mergedAgain, unchanged⟩
    exact Frame.join_eq_left_iff height

theorem merging_order_independent_mixed :
    let patch : Patch := { action := .keep, left := .value, className := "A" }
    let registry := ({} : Registry).record (.instruction 3) patch
    let values := [Value.capableAt "A" (.instruction 3), .null, .capableAt "A" (.entry 0)]
    ∃ final result, Merges registry values final result ∧ result.isCapable = false ∧
      final.isForced (.instruction 3) = true ∧
      ∀ final' result', Merges registry values final' result' → result' = result := by
  intro patch registry values
  obtain ⟨⟨final, result, merges⟩, shape, same⟩ :=
    (merging_order_independent registry).1 values (List.cons_ne_nil _ _)
  have mixed : ¬ ∃ className, Value.OneClass className values := by
    simp [Value.OneClass, values]
  obtain ⟨plain, forced, _⟩ := (shape final result merges).mixed mixed
  refine ⟨final, result, merges, plain, ?_, ?_⟩
  · have found := forced (.instruction 3) ⟨_, List.mem_cons_self, SiteSet.mem_singleton.2 rfl⟩
    rw [Registry.get?_record, if_pos rfl] at found
    exact Registry.isForced_of_get? found
  · intro final' result' merges'
    exact (same final' result' final result merges' merges).1

end ValueForm
