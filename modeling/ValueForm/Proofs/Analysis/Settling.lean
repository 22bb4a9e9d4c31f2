import ValueForm.Proofs.Analysis.FixedPoint

/-!
# What settling forces

A registry is reached by operations on the empty one. Settling it ends, and forces
exactly the sites that a chain of linked groups connects with a forced one, each group of
the chain meeting the next in a site with a decision. These are the least sites around
those forced before that every linked group has as a whole or not at all. Nothing else
changes, and over any operations no decision is lost and none stops being forced.
-/

namespace ValueForm

namespace Registry

/-! ## The registries that are reached -/

/-- An operation on a registry. -/
inductive Operation where
  | record (site : Site) (patch : Patch)
  | retire (site : Site)
  | force (sites : List Site)
  | link (sites : SiteSet)
  | settle

def perform (registry : Registry) : Operation → Registry
  | .record site patch => registry.record site patch
  | .retire site => registry.retire site
  | .force sites => registry.force sites
  | .link sites => registry.link sites
  | .settle => registry.settle

/-- The registry that operations lead to, the first of them on an empty one. -/
def reached (operations : List Operation) : Registry :=
  operations.foldl perform {}

@[simp]
theorem reached_concat (operations : List Operation) (operation : Operation) :
    reached (operations ++ [operation]) = (reached operations).perform operation := by
  simp [reached]

theorem evolves_perform (registry : Registry) (operation : Operation) :
    Evolves (fun _ => True) registry (registry.perform operation) := by
  cases operation with
  | record site patch => exact (evolves_record registry site patch).mono fun _ _ => trivial
  | retire site => exact (evolves_retire registry site).mono fun _ _ => trivial
  | force sites => exact evolves_force _ registry sites
  | link sites => exact evolves_link _ registry sites
  | settle => exact evolves_settle _ registry

theorem evolves_performs (registry : Registry) (operations : List Operation) :
    Evolves (fun _ => True) registry (operations.foldl perform registry) := by
  induction operations generalizing registry with
  | nil => exact .refl registry
  | cons first rest ih => exact (evolves_perform registry first).trans (ih _)

/-- Later operations keep what earlier ones have recorded and forced. -/
theorem evolves_reached (earlier later : List Operation) :
    Evolves (fun _ => True) (reached earlier) (reached (earlier ++ later)) := by
  rw [reached, reached, List.foldl_append]
  exact evolves_performs _ later

/-- The linked groups are those that were linked and have more than one site. -/
@[simp]
theorem mem_links_reached {operations : List Operation} {group : SiteSet} :
    group ∈ (reached operations).links ↔ .link group ∈ operations ∧ 1 < group.size := by
  induction operations using List.reverseRecOn with
  | nil => simp [reached]
  | append_singleton operations operation ih =>
      rw [reached_concat]
      cases operation with
      | record site patch => simpa [perform, record] using ih
      | retire site => simpa [perform, retire] using ih
      | force sites => simpa [perform] using ih
      | settle => simpa [perform] using ih
      | link sites =>
          simp only [perform, mem_links_link, ih, List.mem_append, List.mem_singleton,
            Operation.link.injEq]
          constructor
          · rintro (⟨found, large⟩ | ⟨rfl, large⟩)
            · exact ⟨.inl found, large⟩
            · exact ⟨.inr rfl, large⟩
          · rintro ⟨found | rfl, large⟩
            · exact .inl ⟨found, large⟩
            · exact .inr ⟨rfl, large⟩

/-! ## The rounds of settling -/

/-- One round forces every group that is split. -/
def forceSplit (registry : Registry) : Registry :=
  registry.force ((registry.links.filter registry.isSplit).flatMap SiteSet.toList)

/-- Rounds are made for as long as a group is split, and `rounds` of them were. -/
inductive RoundsEnd : (rounds : Nat) → (before after : Registry) → Prop
  | done {registry : Registry}
      (unsplit : ∀ group ∈ registry.links, registry.isSplit group = false) :
      RoundsEnd 0 registry registry
  | round {rounds : Nat} {registry after : Registry} {group : SiteSet}
      (linked : group ∈ registry.links) (split : registry.isSplit group = true)
      (others : RoundsEnd rounds registry.forceSplit after) :
      RoundsEnd (rounds + 1) registry after

theorem settleRounds_of_unsplit {registry : Registry}
    (unsplit : ∀ group ∈ registry.links, registry.isSplit group = false) (rounds : Nat) :
    registry.settleRounds rounds = registry := by
  have none : registry.links.filter registry.isSplit = [] :=
    List.filter_eq_nil_iff.2 fun group linked => by simp [unsplit group linked]
  cases rounds with
  | zero => rfl
  | succ rounds => rw [settleRounds, none]

theorem settleRounds_succ_of_split {registry : Registry} {group : SiteSet}
    (linked : group ∈ registry.links) (split : registry.isSplit group = true) (rounds : Nat) :
    registry.settleRounds (rounds + 1) = registry.forceSplit.settleRounds rounds := by
  have found : group ∈ registry.links.filter registry.isSplit := List.mem_filter.2 ⟨linked, split⟩
  rw [settleRounds]
  split
  · next none => exact absurd (none ▸ found) List.not_mem_nil
  · rfl

/-- Limiting the rounds makes no difference where no group is left split. -/
theorem roundsEnd_settleRounds {rounds : Nat} {registry : Registry}
    (whole : ∀ group ∈ registry.links,
      (registry.settleRounds rounds).isSplit group = false) :
    ∃ made ≤ rounds, RoundsEnd made registry (registry.settleRounds rounds) := by
  induction rounds generalizing registry with
  | zero => exact ⟨0, le_rfl, .done whole⟩
  | succ rounds ih =>
      by_cases some : ∃ group ∈ registry.links, registry.isSplit group = true
      · obtain ⟨group, linked, split⟩ := some
        rw [settleRounds_succ_of_split linked split] at whole ⊢
        have whole' : ∀ group ∈ registry.forceSplit.links,
            (registry.forceSplit.settleRounds rounds).isSplit group = false := by
          rwa [forceSplit, links_force]
        obtain ⟨made, few, others⟩ := ih whole'
        exact ⟨made + 1, by omega, .round linked split others⟩
      · have unsplit : ∀ group ∈ registry.links, registry.isSplit group = false := by
          simpa using some
        rw [settleRounds_of_unsplit unsplit]
        exact ⟨0, by omega, .done unsplit⟩

theorem roundsEnd_settle (registry : Registry) :
    ∃ rounds ≤ registry.size + 1, RoundsEnd rounds registry registry.settle :=
  roundsEnd_settleRounds fun _ linked => registry.isSplit_settle linked

/-! ## Chains of linked groups -/

/-- Two sites with decisions are in one linked group. -/
def Linked (registry : Registry) (first second : Site) : Prop :=
  ∃ group ∈ registry.links, first ∈ group ∧ second ∈ group ∧
    registry.get? first ≠ none ∧ registry.get? second ≠ none

/-- A site that linked groups connect with a forced one. -/
def Connected (registry : Registry) (site : Site) : Prop :=
  ∃ origin, registry.isForced origin = true ∧
    Relation.ReflTransGen registry.Linked origin site

/-- Of every linked group all sites with decisions are among the given sites, or none. -/
def WholeGroups (registry : Registry) (sites : Set Site) : Prop :=
  ∀ group ∈ registry.links,
    (∀ site ∈ group, registry.get? site ≠ none → site ∈ sites) ∨
      ∀ site ∈ group, registry.get? site ≠ none → site ∉ sites

theorem get?_ne_none_of_isForced {registry : Registry} {site : Site}
    (forced : registry.isForced site = true) : registry.get? site ≠ none := by
  obtain ⟨patch, found, _⟩ := isForced_eq_true_iff.1 forced
  exact found ▸ Option.some_ne_none patch

@[simp]
theorem get?_force_eq_none_iff {registry : Registry} {sites : List Site} {site : Site} :
    (registry.force sites).get? site = none ↔ registry.get? site = none := by
  rw [get?_force]
  split <;> simp

@[simp]
theorem isForced_force_iff {registry : Registry} {sites : List Site} {site : Site} :
    (registry.force sites).isForced site = true ↔
      registry.isForced site = true ∨ (site ∈ sites ∧ registry.get? site ≠ none) := by
  simp only [isForced, get?_force]
  cases registry.get? site <;> by_cases found : site ∈ sites <;> simp [found]

@[simp]
theorem linked_force (registry : Registry) (sites : List Site) :
    (registry.force sites).Linked = registry.Linked := by
  funext first second
  simp only [Linked, links_force, ne_eq, get?_force_eq_none_iff]

theorem mem_forceSplit {registry : Registry} {site : Site} :
    site ∈ (registry.links.filter registry.isSplit).flatMap SiteSet.toList ↔
      ∃ group ∈ registry.links, registry.isSplit group = true ∧ site ∈ group := by
  simp only [List.mem_flatMap, List.mem_filter, and_assoc, SiteSet.mem_def]

/-- A round forces only sites that are linked with a forced one. -/
theorem isForced_forceSplit {registry : Registry} {site : Site}
    (forced : registry.forceSplit.isForced site = true) :
    registry.isForced site = true ∨
      ∃ origin, registry.isForced origin = true ∧ registry.Linked origin site := by
  rcases isForced_force_iff.1 forced with before | ⟨found, recorded⟩
  · exact .inl before
  · obtain ⟨group, linked, split, inGroup⟩ := mem_forceSplit.1 found
    rw [isSplit, Bool.and_eq_true] at split
    obtain ⟨origin, originIn, originForced⟩ := anyForced_eq_true_iff.1 split.1
    exact .inr ⟨origin, originForced, group, linked, originIn, inGroup,
      get?_ne_none_of_isForced originForced, recorded⟩

/-- Only connected sites are forced, by induction on the rounds. -/
theorem RoundsEnd.connected {rounds : Nat} {before after : Registry}
    (settles : RoundsEnd rounds before after) {site : Site}
    (forced : after.isForced site = true) : before.Connected site := by
  induction settles with
  | done => exact ⟨site, forced, .refl⟩
  | @round rounds registry after group linked split others ih =>
      obtain ⟨origin, originForced, chain⟩ := ih forced
      rw [forceSplit, linked_force] at chain
      rcases isForced_forceSplit originForced with before | ⟨first, firstForced, step⟩
      · exact ⟨origin, before, chain⟩
      · exact ⟨first, firstForced, .head step chain⟩

/-- After settling, a site that is linked with a forced one is forced. -/
theorem isForced_settle_of_linked {registry : Registry} {first second : Site}
    (forced : registry.settle.isForced first = true) (linked : registry.Linked first second) :
    registry.settle.isForced second = true := by
  obtain ⟨group, inLinks, firstIn, secondIn, _, recorded⟩ := linked
  obtain ⟨patch, found, isForced⟩ := isForced_eq_true_iff.1 forced
  obtain ⟨patch', found'⟩ := Option.ne_none_iff_exists'.1
    ((registry.evolves_settle fun _ => True).recorded second recorded)
  have same := agree_of_isSplit (registry.isSplit_settle inLinks) first firstIn second secondIn
    patch patch' found found'
  exact isForced_eq_true_iff.2 ⟨patch', found', same ▸ isForced⟩

/-- Settling forces exactly the connected sites. -/
@[simp]
theorem isForced_settle_iff {registry : Registry} {site : Site} :
    registry.settle.isForced site = true ↔ registry.Connected site := by
  constructor
  · intro forced
    obtain ⟨rounds, _, settles⟩ := registry.roundsEnd_settle
    exact settles.connected forced
  · rintro ⟨origin, forced, chain⟩
    induction chain with
    | refl => exact (registry.evolves_settle fun _ => True).forced origin forced
    | tail _ linked ih => exact isForced_settle_of_linked ih linked

theorem wholeGroups_settle (registry : Registry) :
    registry.WholeGroups {site | registry.settle.isForced site = true} := by
  intro group linked
  by_cases some : ∃ first ∈ group, registry.settle.isForced first = true
  · obtain ⟨first, firstIn, forced⟩ := some
    have recorded : registry.get? first ≠ none := by
      intro missing
      have still := (registry.evolves_settle fun _ => False).get?_eq_none not_false missing
      exact get?_ne_none_of_isForced forced still
    refine .inl fun site siteIn siteRecorded => ?_
    exact isForced_settle_of_linked forced
      ⟨group, linked, firstIn, siteIn, recorded, siteRecorded⟩
  · exact .inr fun site siteIn _ forced => some ⟨site, siteIn, forced⟩

/-- Sites that have every group as a whole contain what is connected with them. -/
theorem WholeGroups.mem_of_connected {registry : Registry} {sites : Set Site}
    (whole : registry.WholeGroups sites)
    (contains : ∀ site, registry.isForced site = true → site ∈ sites) {site : Site}
    (connected : registry.Connected site) : site ∈ sites := by
  obtain ⟨origin, forced, chain⟩ := connected
  induction chain with
  | refl => exact contains origin forced
  | @tail first second _ linked ih =>
      obtain ⟨group, inLinks, firstIn, secondIn, firstRecorded, secondRecorded⟩ := linked
      rcases whole group inLinks with all | none
      · exact all second secondIn secondRecorded
      · exact absurd ih (none first firstIn firstRecorded)

/-! ## Settling as a whole -/

/-- What settling makes of a registry. -/
structure Settled (before after : Registry) : Prop where
  /-- The rounds come to an end. -/
  ends : ∃ rounds ≤ before.size + 1, RoundsEnd rounds before after
  /-- The forced sites are the least that contain those forced before and have every
  linked group as a whole or not at all. -/
  least : IsLeast
    {sites | {site | before.isForced site = true} ⊆ sites ∧ before.WholeGroups sites}
    {site | after.isForced site = true}
  /-- A site is forced only if linked groups connect it with one forced before. -/
  connected : ∀ site, after.isForced site = true ↔ before.Connected site
  /-- Nothing but the flags changes. -/
  kept : ∀ site, after.get? site =
    (before.get? site).map fun patch => { patch with forced := after.isForced site }
  links : after.links = before.links
  again : after.settle = after

@[simp]
theorem get?_settle (registry : Registry) (site : Site) :
    registry.settle.get? site = (registry.get? site).map fun patch =>
      { patch with forced := registry.settle.isForced site } := by
  obtain ⟨flag, settled⟩ := (registry.evolves_settle fun _ => False).kept site not_false
  cases found : registry.get? site with
  | none => simp [settled, found]
  | some patch => simp [isForced, settled, found]

theorem settled_settle (registry : Registry) : Settled registry registry.settle where
  ends := registry.roundsEnd_settle
  least := by
    refine ⟨⟨fun site forced => ?_, registry.wholeGroups_settle⟩, ?_⟩
    · exact (registry.evolves_settle fun _ => True).forced site forced
    · rintro sites ⟨contains, whole⟩ site forced
      exact whole.mem_of_connected contains (isForced_settle_iff.1 forced)
  connected _ := isForced_settle_iff
  kept := registry.get?_settle
  links := registry.links_settle
  again := settleRounds_of_unsplit
    (fun _ linked => registry.isSplit_settle (registry.links_settle ▸ linked)) _

/-- Settling computes the least closure. In a registry reached by any operations it ends,
leaves every group that was ever linked forced as a whole or not at all, forces no site
that linked groups do not connect with one forced before, and changes nothing else, the
second time nothing at all. Along the operations no decision is lost and no flag is reset. -/
theorem settle_least_closure (operations : List Operation) :
    Settled (reached operations) (reached operations).settle ∧
    (∀ group, group ∈ (reached operations).links ↔ .link group ∈ operations ∧ 1 < group.size) ∧
    (∀ group, .link group ∈ operations → (reached operations).settle.Agree group) ∧
    ∀ count site,
      ((reached (operations.take count)).get? site ≠ none →
        (reached operations).get? site ≠ none) ∧
      ((reached (operations.take count)).isForced site = true →
        (reached operations).isForced site = true) := by
  refine ⟨settled_settle _, fun _ => mem_links_reached, fun group asked => ?_,
    fun count site => ?_⟩
  · by_cases large : 1 < group.size
    · exact agree_of_isSplit (isSplit_settle _ (mem_links_reached.2 ⟨asked, large⟩))
    · exact agree_of_size_le (by omega)
  · have evolves := evolves_reached (operations.take count) (operations.drop count)
    rw [List.take_append_drop] at evolves
    exact ⟨evolves.recorded site, evolves.forced site⟩

-- A site without a decision does not pass forcing on from one group to another.
example :
    let patch : Patch := { action := .keep, left := .value, className := "A" }
    let group (first second : Nat) : SiteSet :=
      .union (.singleton (.instruction first)) (.singleton (.instruction second))
    let registry := (reached [.record (.instruction 0) patch, .record (.instruction 1) patch,
      .record (.instruction 3) patch, .link (group 0 1), .link (group 1 2), .link (group 2 3),
      .force [.instruction 0]]).settle
    registry.isForced (.instruction 1) = true ∧ registry.isForced (.instruction 3) = false := by
  decide

end Registry

end ValueForm
