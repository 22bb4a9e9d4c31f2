/-!
# Sites

A site is a place where a decision between the value form and a reference is
taken: a slot converted at method entry, or an instruction. Sites are ordered,
entry slots first, and a set of sites is kept as its sorted list, so that equal
sets are equal terms.
-/

namespace ValueForm

/-- A place where a value-form decision is taken. -/
inductive Site where
  /-- A receiver or parameter slot, converted at method entry. -/
  | entry (slot : UInt16)
  /-- An instruction, by its position in the body. -/
  | instruction (index : Nat)
  deriving DecidableEq, Repr

namespace Site

/-- The position of a site in the order of sites. -/
def rank : Site → Nat
  | .entry slot => slot.toNat
  | .instruction index => 65536 + index

theorem rank_injective {first second : Site} (same : first.rank = second.rank) :
    first = second := by
  cases first with
  | entry slot =>
      cases second with
      | entry slot' => exact congrArg Site.entry (UInt16.toNat_inj.1 same)
      | instruction index =>
          have := slot.toNat_lt
          simp only [rank] at same
          omega
  | instruction index =>
      cases second with
      | entry slot =>
          have := slot.toNat_lt
          simp only [rank] at same
          omega
      | instruction index' =>
          simp only [rank] at same
          exact congrArg Site.instruction (by omega)

instance : Ord Site := ⟨fun first second => compare first.rank second.rank⟩

theorem compare_eq (first second : Site) :
    compare first second = compare first.rank second.rank := rfl

instance : Std.TransOrd Site where
  eq_swap := by
    intro first second
    simp only [compare_eq]
    exact Std.OrientedCmp.eq_swap
  isLE_trans := by
    intro first second third
    simp only [compare_eq]
    exact Std.TransCmp.isLE_trans

instance : Std.LawfulEqOrd Site where
  compare_self := by
    intro site
    simp
  eq_of_compare := by
    intro first second same
    rw [compare_eq, Nat.compare_eq_eq] at same
    exact rank_injective same

end Site

/-- A finite set of sites, as a strictly increasing list. -/
structure SiteSet where
  toList : List Site
  sorted : toList.Pairwise fun first second => first.rank < second.rank
  deriving DecidableEq

namespace SiteSet

/-- No sites. -/
def empty : SiteSet :=
  ⟨[], List.Pairwise.nil⟩

/-- One site. -/
def singleton (site : Site) : SiteSet :=
  ⟨[site], List.pairwise_singleton _ _⟩

/-- Put a site in its place in an increasing list. -/
def insertSorted (site : Site) : List Site → List Site
  | [] => [site]
  | first :: rest =>
      if site.rank < first.rank then site :: first :: rest
      else if first.rank < site.rank then first :: insertSorted site rest
      else first :: rest

@[simp]
theorem mem_insertSorted {site other : Site} {sites : List Site} :
    other ∈ insertSorted site sites ↔ other = site ∨ other ∈ sites := by
  induction sites with
  | nil => simp [insertSorted]
  | cons first rest ih =>
      simp only [insertSorted]
      split
      · simp
      · split
        · simp only [List.mem_cons, ih]
          constructor
          · rintro (same | same | found)
            · exact .inr (.inl same)
            · exact .inl same
            · exact .inr (.inr found)
          · rintro (same | same | found)
            · exact .inr (.inl same)
            · exact .inl same
            · exact .inr (.inr found)
        · have same : site = first := Site.rank_injective (by omega)
          simp [same]

theorem sorted_insertSorted {site : Site} {sites : List Site}
    (sorted : sites.Pairwise fun first second => first.rank < second.rank) :
    (insertSorted site sites).Pairwise fun first second => first.rank < second.rank := by
  induction sites with
  | nil => simp [insertSorted]
  | cons first rest ih =>
      have ⟨above, sortedRest⟩ := List.pairwise_cons.1 sorted
      simp only [insertSorted]
      split
      · next below =>
          refine List.pairwise_cons.2 ⟨fun other found => ?_, sorted⟩
          rcases List.mem_cons.1 found with same | found
          · exact same ▸ below
          · exact Nat.lt_trans below (above other found)
      · split
        · next below =>
            refine List.pairwise_cons.2 ⟨fun other found => ?_, ih sortedRest⟩
            rcases mem_insertSorted.1 found with same | found
            · exact same ▸ below
            · exact above other found
        · exact sorted

/-- A set with one more site. -/
def insert (sites : SiteSet) (site : Site) : SiteSet :=
  ⟨insertSorted site sites.toList, sorted_insertSorted sites.sorted⟩

/-- The sites of both sets. -/
def union (first second : SiteSet) : SiteSet :=
  second.toList.foldl insert first

/-- The set of the sites in a list. -/
def ofList (sites : List Site) : SiteSet :=
  sites.foldl insert empty

/-- The number of sites. -/
def size (sites : SiteSet) : Nat :=
  sites.toList.length

instance : Membership Site SiteSet :=
  ⟨fun sites site => site ∈ sites.toList⟩

end SiteSet

end ValueForm
