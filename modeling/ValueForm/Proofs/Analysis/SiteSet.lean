import Mathlib
import ValueForm.Analysis.Site

/-!
# Sets of sites

The sorted list of a `SiteSet` is determined by its members, so the operations
on sets of sites are described by membership alone. A set whose members are
entry slots below one bound and instructions below another has at most as many
members as the two bounds together; this is what makes provenances finite.
-/

namespace ValueForm

namespace SiteSet

theorem mem_def {site : Site} {sites : SiteSet} : site ∈ sites ↔ site ∈ sites.toList :=
  Iff.rfl

/-- Sets of sites with the same members are equal. -/
theorem ext_mem {first second : SiteSet} (same : ∀ site, site ∈ first ↔ site ∈ second) :
    first = second := by
  rcases first with ⟨firstList, firstSorted⟩
  rcases second with ⟨secondList, secondSorted⟩
  have increasing_ne {a b : Site} (below : a.rank < b.rank) : a ≠ b := by
    rintro rfl
    exact Nat.lt_irrefl _ below
  have permuted : firstList.Perm secondList :=
    (List.perm_ext_iff_of_nodup (firstSorted.imp increasing_ne)
      (secondSorted.imp increasing_ne)).2 same
  have listsEq : firstList = secondList :=
    permuted.eq_of_pairwise (fun a b _ _ below above => absurd below (Nat.lt_asymm above))
      firstSorted secondSorted
  subst listsEq
  rfl

@[simp]
theorem mem_singleton {site other : Site} : site ∈ singleton other ↔ site = other := by
  simp [mem_def, singleton]

@[simp]
theorem not_mem_empty {site : Site} : ¬ site ∈ empty := by
  simp [mem_def, empty]

@[simp]
theorem mem_insert {sites : SiteSet} {site other : Site} :
    other ∈ sites.insert site ↔ other = site ∨ other ∈ sites :=
  mem_insertSorted

@[simp]
theorem mem_foldl_insert {sites : SiteSet} {added : List Site} {site : Site} :
    site ∈ added.foldl insert sites ↔ site ∈ sites ∨ site ∈ added := by
  induction added generalizing sites with
  | nil => simp
  | cons first rest ih =>
      rw [List.foldl_cons, ih, mem_insert, List.mem_cons]
      constructor
      · rintro ((same | found) | found)
        · exact .inr (.inl same)
        · exact .inl found
        · exact .inr (.inr found)
      · rintro (found | same | found)
        · exact .inl (.inr found)
        · exact .inl (.inl same)
        · exact .inr found

@[simp]
theorem mem_union {first second : SiteSet} {site : Site} :
    site ∈ first.union second ↔ site ∈ first ∨ site ∈ second :=
  mem_foldl_insert

/-- A union is its first part exactly when that part has all members of the
second. -/
@[simp]
theorem union_eq_left_iff {first second : SiteSet} :
    first.union second = first ↔ ∀ site ∈ second, site ∈ first := by
  constructor
  · intro unionEq site found
    rw [← unionEq, mem_union]
    exact .inr found
  · intro contained
    apply ext_mem
    intro site
    rw [mem_union]
    exact ⟨fun either => either.elim id (contained site), .inl⟩

private theorem length_le_of_increasing {numbers : List Nat} {low high : Nat}
    (increasing : numbers.Pairwise (· < ·))
    (bounded : ∀ number ∈ numbers, low ≤ number ∧ number < high) :
    numbers.length ≤ high - low := by
  induction numbers generalizing low with
  | nil => simp
  | cons first rest ih =>
      rcases List.pairwise_cons.1 increasing with ⟨above, increasingRest⟩
      have firstBounds := bounded first List.mem_cons_self
      have restLength : rest.length ≤ high - (first + 1) := by
        refine ih increasingRest fun number found => ⟨above number found, ?_⟩
        exact (bounded number (List.mem_cons_of_mem first found)).2
      simp only [List.length_cons]
      omega

end SiteSet

namespace Site

/-- A site of a body with `count` instructions and `slots` local slots. -/
def Within (slots count : Nat) : Site → Prop
  | .entry slot => slot.toNat < slots
  | .instruction index => index < count

/-- The position of a site among those of a body with `slots` local slots. -/
def ordinal (slots : Nat) : Site → Nat
  | .entry slot => slot.toNat
  | .instruction index => slots + index

theorem ordinal_lt {slots count : Nat} {site : Site} (within : site.Within slots count) :
    site.ordinal slots < slots + count := by
  cases site with
  | entry slot =>
      simp only [Within, ordinal] at *
      omega
  | instruction index =>
      simp only [Within, ordinal] at *
      omega

theorem ordinal_lt_ordinal {slots count : Nat} {first second : Site}
    (within : first.Within slots count) (below : first.rank < second.rank) :
    first.ordinal slots < second.ordinal slots := by
  cases first with
  | entry slot =>
      cases second with
      | entry slot' => exact below
      | instruction index =>
          simp only [Within, ordinal] at *
          omega
  | instruction index =>
      cases second with
      | entry slot =>
          have := slot.toNat_lt
          simp only [rank] at below
          omega
      | instruction index' =>
          simp only [rank, ordinal] at *
          omega

end Site

/-- A set of sites of a body is no larger than the body has sites. -/
theorem SiteSet.size_le_of_within {slots count : Nat} {sites : SiteSet}
    (within : ∀ site ∈ sites, site.Within slots count) : sites.size ≤ slots + count := by
  have increasing : (sites.toList.map (Site.ordinal slots)).Pairwise (· < ·) := by
    rw [List.pairwise_map]
    exact sites.sorted.imp_of_mem fun found _ below =>
      Site.ordinal_lt_ordinal (within _ found) below
  have bounded : ∀ number ∈ sites.toList.map (Site.ordinal slots),
      0 ≤ number ∧ number < slots + count := by
    intro number found
    obtain ⟨site, siteMem, rfl⟩ := List.mem_map.1 found
    exact ⟨Nat.zero_le _, Site.ordinal_lt (within site siteMem)⟩
  simpa [SiteSet.size] using length_le_of_increasing increasing bounded

end ValueForm
