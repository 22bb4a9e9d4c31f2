import ValueForm.Analysis.Transfer
import ValueForm.Proofs.Analysis.SiteSet

/-!
# How the registry changes

`Registry.get?` after every operation on the registry, and what the edits of a
visit and `Registry.settle` do as a whole: a decision is changed only at the
site that is visited, forcing is never taken back, no decision and no link is
lost, and after `settle` no linked group is split.
-/

namespace ValueForm

namespace Registry

/-! ## Single operations -/

@[simp]
theorem get?_empty (site : Site) : ({} : Registry).get? site = none := by
  simp [get?]

@[simp]
theorem get?_record (registry : Registry) (site other : Site) (patch : Patch) :
    (registry.record site patch).get? other =
      if site = other then
        some { patch with forced := patch.forced || registry.isForced site }
      else registry.get? other := by
  simp [record, get?, Std.TreeMap.getElem?_insert]

@[simp]
theorem get?_retire (registry : Registry) (site other : Site) :
    (registry.retire site).get? other =
      if site = other then
        (registry.get? site).map fun patch =>
          { patch with action := .keep, left := .nothing, forced := true }
      else registry.get? other := by
  simp [retire, get?, Std.TreeMap.getElem?_modify]

@[simp]
theorem get?_forceSite (registry : Registry) (site other : Site) :
    (registry.forceSite site).get? other =
      if site = other then (registry.get? site).map fun patch => { patch with forced := true }
      else registry.get? other := by
  simp [forceSite, get?, Std.TreeMap.getElem?_modify]

/-- Forcing a list of sites sets the flag of those that have a patch. -/
theorem get?_force (registry : Registry) (sites : List Site) (other : Site) :
    (registry.force sites).get? other =
      if other ∈ sites then
        (registry.get? other).map fun patch => { patch with forced := true }
      else registry.get? other := by
  induction sites generalizing registry with
  | nil => simp [force]
  | cons first rest ih =>
      change ((registry.forceSite first).force rest).get? other = _
      rw [ih, get?_forceSite]
      by_cases same : first = other
      · subst same
        by_cases again : first ∈ rest <;> simp [again, Function.comp_def]
      · have notFirst : ¬ other = first := fun reversed => same reversed.symm
        simp [same, notFirst]

@[simp]
theorem links_force (registry : Registry) (sites : List Site) :
    (registry.force sites).links = registry.links := by
  induction sites generalizing registry with
  | nil => rfl
  | cons first rest ih => exact ih (registry.forceSite first)

@[simp]
theorem get?_link (registry : Registry) (group : SiteSet) (site : Site) :
    (registry.link group).get? site = registry.get? site := by
  unfold link
  split <;> rfl

@[simp]
theorem mem_links_link (registry : Registry) {group other : SiteSet} :
    other ∈ (registry.link group).links ↔
      other ∈ registry.links ∨ (other = group ∧ 1 < group.size) := by
  unfold link
  split
  · next isNew => simp [isNew.1]
  · next old =>
      constructor
      · exact .inl
      · rintro (found | ⟨rfl, large⟩)
        · exact found
        · exact Classical.byContradiction fun missing => old ⟨large, missing⟩

theorem isForced_of_get? {registry : Registry} {site : Site} {patch : Patch}
    (found : registry.get? site = some patch) : registry.isForced site = patch.forced := by
  simp [isForced, found]

theorem isFree_eq_true_iff {registry : Registry} {site : Site} :
    registry.isFree site = true ↔
      ∃ patch, registry.get? site = some patch ∧ patch.forced = false := by
  cases found : registry.get? site <;> simp [isFree, found]

theorem isForced_eq_true_iff {registry : Registry} {site : Site} :
    registry.isForced site = true ↔
      ∃ patch, registry.get? site = some patch ∧ patch.forced = true := by
  cases found : registry.get? site <;> simp [isForced, found]

theorem anyForced_eq_true_iff {registry : Registry} {sites : SiteSet} :
    registry.anyForced sites = true ↔ ∃ site ∈ sites, registry.isForced site = true := by
  simp [anyForced, SiteSet.mem_def]

/-! ## Evolution -/

/-- Setting a flag to what it is changes nothing. -/
theorem eq_map_forced (found : Option Patch) :
    found = found.map fun patch => { patch with forced := patch.forced } := by
  cases found <;> rfl

/-- What a stretch of the analysis may do to the registry when it visits only
sites in `visited`: decisions elsewhere keep everything but their flag, flags are
only set, and nothing is lost. -/
structure Evolves (visited : Site → Prop) (before after : Registry) : Prop where
  forced : ∀ site, before.isForced site = true → after.isForced site = true
  recorded : ∀ site, before.get? site ≠ none → after.get? site ≠ none
  kept : ∀ site, ¬ visited site → ∃ flag : Patch → Bool,
    after.get? site = (before.get? site).map fun patch => { patch with forced := flag patch }
  links : ∀ group ∈ before.links, group ∈ after.links

namespace Evolves

variable {visited visited' : Site → Prop} {first second third : Registry}

@[simp]
theorem refl (registry : Registry) : Evolves visited registry registry where
  forced _ isForced := isForced
  recorded _ found := found
  kept _ _ := ⟨Patch.forced, eq_map_forced _⟩
  links _ found := found

theorem trans (earlier : Evolves visited first second) (later : Evolves visited second third) :
    Evolves visited first third where
  forced site isForced := later.forced site (earlier.forced site isForced)
  recorded site found := later.recorded site (earlier.recorded site found)
  kept site outside := by
    obtain ⟨flag, secondEq⟩ := earlier.kept site outside
    obtain ⟨flag', thirdEq⟩ := later.kept site outside
    rw [thirdEq, secondEq]
    exact ⟨fun patch => flag' { patch with forced := flag patch },
      by cases first.get? site <;> rfl⟩
  links group found := later.links group (earlier.links group found)

theorem mono (evolves : Evolves visited first second)
    (wider : ∀ site, visited site → visited' site) : Evolves visited' first second where
  forced := evolves.forced
  recorded := evolves.recorded
  kept site outside := evolves.kept site fun inside => outside (wider site inside)
  links := evolves.links

/-- A site that is not visited has a patch afterwards only if it had one. -/
theorem get?_eq_none (evolves : Evolves visited first second) {site : Site}
    (outside : ¬ visited site) (missing : first.get? site = none) : second.get? site = none := by
  obtain ⟨flag, secondEq⟩ := evolves.kept site outside
  rw [secondEq, missing]
  rfl

end Evolves

theorem evolves_force (visited : Site → Prop) (registry : Registry) (sites : List Site) :
    Evolves visited registry (registry.force sites) where
  forced site isForced := by
    obtain ⟨patch, found, flag⟩ := isForced_eq_true_iff.1 isForced
    rw [isForced_eq_true_iff, get?_force, found]
    split
    · exact ⟨_, rfl, rfl⟩
    · exact ⟨patch, rfl, flag⟩
  recorded site found := by
    rw [get?_force]
    split
    · simpa using found
    · exact found
  kept site _ := by
    rw [get?_force]
    split
    · exact ⟨fun _ => true, rfl⟩
    · exact ⟨Patch.forced, eq_map_forced _⟩
  links group found := by simpa using found

theorem evolves_record (registry : Registry) (site : Site) (patch : Patch) :
    Evolves (· = site) registry (registry.record site patch) where
  forced other isForced := by
    rw [isForced_eq_true_iff, get?_record]
    split
    · next same =>
        subst same
        exact ⟨_, rfl, by simp [isForced]⟩
    · exact isForced_eq_true_iff.1 isForced
  recorded other found := by
    rw [get?_record]
    split
    · exact Option.some_ne_none _
    · exact found
  kept other outside := by
    have elsewhere : ¬ site = other := fun same => outside same.symm
    rw [get?_record, if_neg elsewhere]
    exact ⟨Patch.forced, eq_map_forced _⟩
  links group found := found

theorem evolves_retire (registry : Registry) (site : Site) :
    Evolves (· = site) registry (registry.retire site) where
  forced other isForced := by
    rw [isForced_eq_true_iff, get?_retire]
    obtain ⟨patch, found, flag⟩ := isForced_eq_true_iff.1 isForced
    split
    · next same =>
        subst same
        rw [found]
        exact ⟨_, rfl, rfl⟩
    · exact ⟨patch, found, flag⟩
  recorded other found := by
    rw [get?_retire]
    split
    · next same =>
        subst same
        simpa using found
    · exact found
  kept other outside := by
    have elsewhere : ¬ site = other := fun same => outside same.symm
    rw [get?_retire, if_neg elsewhere]
    exact ⟨Patch.forced, eq_map_forced _⟩
  links group found := found

theorem evolves_link (visited : Site → Prop) (registry : Registry) (group : SiteSet) :
    Evolves visited registry (registry.link group) where
  forced site isForced := by simpa [isForced_eq_true_iff] using isForced_eq_true_iff.1 isForced
  recorded site found := by simpa using found
  kept site _ := by
    rw [get?_link]
    exact ⟨Patch.forced, eq_map_forced _⟩
  links other found := (registry.mem_links_link).2 (.inl found)

theorem evolves_edit (registry : Registry) (site : Site) (change : Edit) :
    Evolves (· = site) registry (registry.edit site change) := by
  cases change with
  | record patch => exact evolves_record registry site patch
  | force sites => exact evolves_force _ registry sites.toList
  | link sites => exact evolves_link _ registry sites

theorem evolves_edits (registry : Registry) (site : Site) (edits : List Edit) :
    Evolves (· = site) registry (edits.foldl (edit site) registry) := by
  induction edits generalizing registry with
  | nil => exact .refl registry
  | cons first rest ih => exact (evolves_edit registry site first).trans (ih _)

end Registry

/-! ## The edits of one visit -/

/-- The patch an edit sets. -/
def Edit.patch? : Edit → Option Patch
  | .record patch => some patch
  | _ => none

/-- The patch that stands after edits in order, if one is set. -/
def recordedPatch? : List Edit → Option Patch
  | [] => none
  | change :: rest => (recordedPatch? rest).or change.patch?

/-- A patch that keeps its instruction and lets its result be a reference. -/
def Patch.Retired (patch : Patch) : Prop :=
  patch.action = .keep ∧ patch.left = .nothing ∧ patch.forced = true

theorem recordedPatch?_eq_none_iff {edits : List Edit} :
    recordedPatch? edits = none ↔
      (edits.any fun
        | .record _ => true
        | _ => false) = false := by
  induction edits with
  | nil => simp [recordedPatch?]
  | cons change rest ih =>
      simp only [recordedPatch?, Option.or_eq_none_iff, List.any_cons, Bool.or_eq_false_iff, ih]
      cases change <;> simp [Edit.patch?]

namespace Registry

theorem applyEdits_eq (registry : Registry) (site : Site) (edits : List Edit) :
    registry.applyEdits site edits =
      match recordedPatch? edits with
      | some _ => edits.foldl (edit site) registry
      | none => (edits.foldl (edit site) registry).retire site := by
  cases recorded : recordedPatch? edits with
  | none =>
      have unset := recordedPatch?_eq_none_iff.1 recorded
      exact if_neg fun isSet => Bool.false_ne_true (unset.symm.trans isSet)
  | some patch =>
      have isSet : ¬ recordedPatch? edits = none := by simp [recorded]
      rw [recordedPatch?_eq_none_iff] at isSet
      exact if_pos (Bool.of_not_eq_false isSet)

/-- The edits of a visit change a decision only at the site visited. -/
theorem evolves_applyEdits (registry : Registry) (site : Site) (edits : List Edit) :
    Evolves (· = site) registry (registry.applyEdits site edits) := by
  rw [applyEdits_eq]
  split
  · exact evolves_edits registry site edits
  · exact (evolves_edits registry site edits).trans (evolves_retire _ site)

/-- Edits that record nothing change at most the flag at their own site. -/
theorem get?_edits_of_not_recorded (registry : Registry) (site : Site) {edits : List Edit}
    (unset : recordedPatch? edits = none) :
    ∃ flag : Patch → Bool, (edits.foldl (edit site) registry).get? site =
      (registry.get? site).map fun patch => { patch with forced := flag patch } := by
  induction edits generalizing registry with
  | nil => exact ⟨Patch.forced, eq_map_forced _⟩
  | cons change rest ih =>
      obtain ⟨unsetRest, unsetHere⟩ := Option.or_eq_none_iff.1 unset
      obtain ⟨flag, restEq⟩ := ih (registry.edit site change) unsetRest
      rw [List.foldl_cons, restEq]
      cases change with
      | record patch => simp [Edit.patch?] at unsetHere
      | link group =>
          refine ⟨flag, ?_⟩
          simp [edit]
      | force sites =>
          simp only [edit, get?_force]
          split
          · exact ⟨fun patch => flag { patch with forced := true },
              by cases registry.get? site <;> rfl⟩
          · exact ⟨flag, rfl⟩

theorem get?_edits_of_recorded (registry : Registry) (site : Site) {edits : List Edit}
    {patch : Patch} (recorded : recordedPatch? edits = some patch) :
    ∃ forced, (edits.foldl (edit site) registry).get? site = some { patch with forced } := by
  induction edits generalizing registry with
  | nil => simp [recordedPatch?] at recorded
  | cons change rest ih =>
      rw [List.foldl_cons]
      -- Later records win, so this edit counts only if none follows.
      cases restRecorded : recordedPatch? rest with
      | some latest =>
          have same : latest = patch := by simpa [recordedPatch?, restRecorded] using recorded
          exact ih (registry.edit site change) (restRecorded.trans (congrArg some same))
      | none =>
          have setHere : change.patch? = some patch := by
            simpa [recordedPatch?, restRecorded] using recorded
          cases change with
          | record given =>
              obtain rfl := Option.some.inj setHere
              obtain ⟨flag, restEq⟩ :=
                get?_edits_of_not_recorded (registry.edit site (.record given)) site restRecorded
              rw [restEq, edit, get?_record, if_pos rfl]
              exact ⟨_, rfl⟩
          | force sites => simp [Edit.patch?] at setHere
          | link group => simp [Edit.patch?] at setHere

/-- A visit that records leaves the last patch it recorded, up to the flag. -/
theorem get?_applyEdits_of_recorded (registry : Registry) (site : Site) {edits : List Edit}
    {patch : Patch} (recorded : recordedPatch? edits = some patch) :
    ∃ forced, (registry.applyEdits site edits).get? site = some { patch with forced } := by
  rw [applyEdits_eq, recorded]
  exact get?_edits_of_recorded registry site recorded

/-- A visit that records nothing leaves no patch or a retired one. -/
theorem get?_applyEdits_of_not_recorded (registry : Registry) (site : Site) {edits : List Edit}
    (unset : recordedPatch? edits = none) {patch : Patch}
    (found : (registry.applyEdits site edits).get? site = some patch) : patch.Retired := by
  rw [applyEdits_eq, unset, get?_retire, if_pos rfl] at found
  obtain ⟨before, _, rfl⟩ := Option.map_eq_some_iff.1 found
  exact ⟨rfl, rfl, rfl⟩

/-- A visit that records nothing gives its site no patch. -/
theorem get?_applyEdits_eq_none (registry : Registry) (site : Site) {edits : List Edit}
    (unset : recordedPatch? edits = none) (missing : registry.get? site = none) :
    (registry.applyEdits site edits).get? site = none := by
  obtain ⟨flag, editsEq⟩ := get?_edits_of_not_recorded registry site unset
  rw [applyEdits_eq, unset, get?_retire, if_pos rfl, editsEq, missing]
  rfl

private theorem evolves_applyEdits_append (registry : Registry) (site : Site)
    (earlier later : List Edit) :
    Evolves (· = site) (earlier.foldl (edit site) registry)
      (registry.applyEdits site (earlier ++ later)) := by
  have rest := evolves_edits (earlier.foldl (edit site) registry) site later
  rw [applyEdits_eq, List.foldl_append]
  split
  · exact rest
  · exact rest.trans (evolves_retire _ site)

/-- A visit forces every site it asks to force that has a patch. -/
theorem isForced_applyEdits (registry : Registry) (site : Site) {edits : List Edit}
    {sites : SiteSet} (asked : Edit.force sites ∈ edits) {other : Site} (found : other ∈ sites)
    (recorded : registry.get? other ≠ none) :
    (registry.applyEdits site edits).isForced other = true := by
  obtain ⟨earlier, later, rfl⟩ := List.append_of_mem asked
  have stillRecorded := (evolves_edits registry site earlier).recorded other recorded
  obtain ⟨patch, patchEq⟩ := Option.ne_none_iff_exists'.1 stillRecorded
  have forcedThere : ((earlier ++ [Edit.force sites]).foldl (edit site) registry).isForced other =
      true := by
    rw [isForced_eq_true_iff, List.foldl_append]
    simp only [List.foldl_cons, List.foldl_nil, edit, get?_force, patchEq]
    exact ⟨{ patch with forced := true }, by simp [SiteSet.mem_def.1 found], rfl⟩
  have evolves := evolves_applyEdits_append registry site (earlier ++ [.force sites]) later
  rw [List.append_assoc] at evolves
  exact evolves.forced other forcedThere

/-- A visit links every larger group it asks to link. -/
theorem mem_links_applyEdits (registry : Registry) (site : Site) {edits : List Edit}
    {group : SiteSet} (asked : Edit.link group ∈ edits) (large : 1 < group.size) :
    group ∈ (registry.applyEdits site edits).links := by
  obtain ⟨earlier, later, rfl⟩ := List.append_of_mem asked
  have linkedThere : group ∈ ((earlier ++ [Edit.link group]).foldl (edit site) registry).links := by
    rw [List.foldl_append]
    exact (mem_links_link _).2 (.inr ⟨rfl, large⟩)
  have evolves := evolves_applyEdits_append registry site (earlier ++ [.link group]) later
  rw [List.append_assoc] at evolves
  exact evolves.links group linkedThere

/-! ## Settling -/

theorem evolves_settleRounds (visited : Site → Prop) (rounds : Nat) (registry : Registry) :
    Evolves visited registry (registry.settleRounds rounds) := by
  induction rounds generalizing registry with
  | zero => exact .refl registry
  | succ rounds ih =>
      unfold settleRounds
      split
      · exact .refl registry
      · exact (evolves_force visited registry _).trans (ih _)

theorem evolves_settle (visited : Site → Prop) (registry : Registry) :
    Evolves visited registry registry.settle :=
  evolves_settleRounds visited _ registry

@[simp]
theorem links_settleRounds (rounds : Nat) (registry : Registry) :
    (registry.settleRounds rounds).links = registry.links := by
  induction rounds generalizing registry with
  | zero => rfl
  | succ rounds ih =>
      unfold settleRounds
      split
      · rfl
      · rw [ih, links_force]

@[simp]
theorem links_settle (registry : Registry) : registry.settle.links = registry.links :=
  links_settleRounds _ registry

theorem isFree_of_isFree_force {registry : Registry} {sites : List Site} {site : Site}
    (free : (registry.force sites).isFree site = true) :
    registry.isFree site = true ∧ site ∉ sites := by
  obtain ⟨patch, found, flag⟩ := isFree_eq_true_iff.1 free
  rw [get?_force] at found
  split at found
  · obtain ⟨before, _, rfl⟩ := Option.map_eq_some_iff.1 found
    simp at flag
  · next outside => exact ⟨isFree_eq_true_iff.2 ⟨patch, found, flag⟩, outside⟩

private theorem countP_lt_countP {sites : List Site} (fewer more : Site → Bool) {lost : Site}
    (implies : ∀ site, fewer site = true → more site = true) (found : lost ∈ sites)
    (was : more lost = true) (isNot : fewer lost = false) :
    sites.countP fewer < sites.countP more := by
  induction sites with
  | nil => simp at found
  | cons first rest ih =>
      have restLe : rest.countP fewer ≤ rest.countP more :=
        List.countP_mono_left fun site _ => implies site
      rcases List.mem_cons.1 found with rfl | found
      · simp [isNot, was]
        omega
      · have restLt := ih found
        cases fewerFirst : fewer first with
        | true =>
            simp [fewerFirst, implies first fewerFirst]
            omega
        | false =>
            cases moreFirst : more first <;> simp [fewerFirst, moreFirst] <;> omega

/-- Rounds end when there are no more free sites than rounds: every round that
finds a split group forces one of its free sites. -/
private theorem isSplit_settleRounds {rounds : Nat} {registry : Registry} {sites : List Site}
    (listed : ∀ site, registry.isFree site = true → site ∈ sites)
    (enough : sites.countP registry.isFree < rounds) (group : SiteSet)
    (linked : group ∈ registry.links) : (registry.settleRounds rounds).isSplit group = false := by
  induction rounds generalizing registry with
  | zero => omega
  | succ rounds ih =>
      unfold settleRounds
      split
      · next unsplit =>
          have := List.filter_eq_nil_iff.1 unsplit group linked
          simpa using this
      · next groups isSplit =>
          obtain ⟨splitGroup, splitMem⟩ := List.exists_mem_of_ne_nil _ isSplit
          rw [List.mem_filter, Registry.isSplit, Bool.and_eq_true, List.any_eq_true] at splitMem
          obtain ⟨splitLinked, someForced, freeSite, freeMem, free⟩ := splitMem
          have freeForced : freeSite ∈
              (registry.links.filter registry.isSplit).flatMap SiteSet.toList := by
            refine List.mem_flatMap.2 ⟨splitGroup, List.mem_filter.2 ⟨splitLinked, ?_⟩, freeMem⟩
            rw [Registry.isSplit, Bool.and_eq_true, List.any_eq_true]
            exact ⟨someForced, freeSite, freeMem, free⟩
          -- One free site is lost, and none is won: a round less is enough.
          apply ih
          · intro site isFree
            exact listed site (isFree_of_isFree_force isFree).1
          · have forcedNow : (registry.force
                ((registry.links.filter registry.isSplit).flatMap SiteSet.toList)).isFree
                  freeSite = false :=
              Bool.eq_false_iff.2 fun isFree => (isFree_of_isFree_force isFree).2 freeForced
            have fewer := countP_lt_countP (isFree (registry.force _)) registry.isFree
              (fun _ isFree => (isFree_of_isFree_force isFree).1)
              (listed freeSite free) free forcedNow
            omega
          · simpa using linked

/-- After settling no linked group has both a forced and a free site. -/
theorem isSplit_settle (registry : Registry) {group : SiteSet} (linked : group ∈ registry.links) :
    registry.settle.isSplit group = false := by
  have listed : ∀ site, registry.isFree site = true → site ∈ registry.patches.keys := by
    intro site isFree
    obtain ⟨patch, found, _⟩ := isFree_eq_true_iff.1 isFree
    rw [Std.TreeMap.mem_keys, Std.TreeMap.mem_iff_isSome_getElem?]
    exact Option.isSome_of_eq_some found
  have enough : registry.patches.keys.countP registry.isFree < registry.size + 1 := by
    have := List.countP_le_length (p := registry.isFree) (l := registry.patches.keys)
    rw [Std.TreeMap.length_keys] at this
    simp only [size]
    omega
  exact isSplit_settleRounds listed enough group linked

end Registry

end ValueForm
