import Mathlib

/-!
# Computations that succeed

When a composition or a traversal of fallible steps succeeds, so does every
step; when it fails, it fails as the first step that does.
-/

namespace ValueForm.Outcome

variable {ε α β : Type}

theorem exists_of_any {outcome : Except ε α} (check : α → Bool)
    (passed : outcome.toOption.any check = true) :
    ∃ value, outcome = .ok value ∧ check value = true := by
  cases outcome with
  | ok value => exact ⟨value, rfl, passed⟩
  | error error => cases passed

theorem bind_eq_ok_iff {first : Except ε α} {next : α → Except ε β} {result : β} :
    (first >>= next) = .ok result ↔ ∃ value, first = .ok value ∧ next value = .ok result := by
  cases first with
  | error error =>
      constructor
      · intro impossible
        cases impossible
      · rintro ⟨value, impossible, _⟩
        cases impossible
  | ok value =>
      constructor
      · intro last
        exact ⟨value, rfl, last⟩
      · rintro ⟨_, ⟨⟩, last⟩
        exact last

/-- A composition fails as one of its steps does. -/
theorem bind_eq_error {first : Except ε α} {next : α → Except ε β} {error : ε}
    (failed : (first >>= next) = .error error) :
    first = .error error ∨ ∃ value, next value = .error error := by
  cases first with
  | error cause =>
      cases failed
      exact .inl rfl
  | ok value => exact .inr ⟨value, failed⟩

/-- A traversal that succeeds gives one result for every item, in order. -/
theorem forall₂_of_mapM {step : α → Except ε β} {items : List α} {results : List β}
    (succeeded : items.mapM step = .ok results) :
    List.Forall₂ (fun item result => step item = .ok result) items results := by
  induction items generalizing results with
  | nil =>
      rw [List.mapM_nil] at succeeded
      cases succeeded
      exact .nil
  | cons first rest ih =>
      rw [List.mapM_cons, bind_eq_ok_iff] at succeeded
      rcases succeeded with ⟨result, here, succeeded⟩
      rcases bind_eq_ok_iff.1 succeeded with ⟨tail, others, ended⟩
      cases ended
      exact .cons here (ih others)

theorem mapM_eq_ok_iff {step : α → Except ε β} {items : List α} {results : List β} :
    items.mapM step = .ok results ↔
      List.Forall₂ (fun item result => step item = .ok result) items results := by
  constructor
  · exact forall₂_of_mapM
  · intro each
    induction each with
    | nil => rfl
    | cons here _ ih =>
        rw [List.mapM_cons, here, ih]
        rfl

/-- A traversal fails as the first item does that fails. -/
theorem mapM_eq_error_iff {step : α → Except ε β} {items : List α} {error : ε} :
    items.mapM step = .error error ↔
      ∃ before item after, items = before ++ item :: after ∧
        (∀ earlier ∈ before, ∃ result, step earlier = .ok result) ∧ step item = .error error := by
  induction items with
  | nil =>
      constructor
      · intro failed
        cases failed
      · rintro ⟨before, item, after, isSplit, _⟩
        cases List.append_ne_nil_of_right_ne_nil before (List.cons_ne_nil item after) isSplit.symm
  | cons first rest ih =>
      rw [List.mapM_cons]
      cases here : step first with
      | error cause =>
          constructor
          · intro failed
            cases failed
            exact ⟨[], first, rest, rfl, List.forall_mem_nil _, here⟩
          · rintro ⟨before, item, after, isSplit, succeeded, failed⟩
            cases before with
            | nil =>
                cases isSplit
                cases here.symm.trans failed
                rfl
            | cons earlier before =>
                cases isSplit
                rcases succeeded first List.mem_cons_self with ⟨result, given⟩
                cases here.symm.trans given
      | ok result =>
          have passesOn : (Except.ok result >>= fun result => do
              let results ← rest.mapM step
              pure (result :: results)) = .error error ↔ rest.mapM step = .error error := by
            cases rest.mapM step with
            | error cause => exact Iff.rfl
            | ok results =>
                constructor
                · intro failed
                  cases failed
                · intro failed
                  cases failed
          rw [passesOn, ih]
          constructor
          · rintro ⟨before, item, after, rfl, succeeded, failed⟩
            exact ⟨first :: before, item, after, rfl,
              List.forall_mem_cons.2 ⟨⟨result, here⟩, succeeded⟩, failed⟩
          · rintro ⟨before, item, after, isSplit, succeeded, failed⟩
            cases before with
            | nil =>
                cases isSplit
                cases here.symm.trans failed
            | cons earlier before =>
                cases isSplit
                exact ⟨before, item, after, rfl, (List.forall_mem_cons.1 succeeded).2, failed⟩

/-- A traversal of steps that all succeed succeeds. -/
theorem exists_mapM {step : α → Except ε β} {items : List α}
    (each : ∀ item ∈ items, ∃ result, step item = .ok result) :
    ∃ results, items.mapM step = .ok results := by
  cases ran : items.mapM step with
  | ok results => exact ⟨results, rfl⟩
  | error error =>
      rcases mapM_eq_error_iff.1 ran with ⟨before, item, after, rfl, _, failed⟩
      rcases each item (List.mem_append_right before List.mem_cons_self) with ⟨result, succeeded⟩
      cases failed.symm.trans succeeded

theorem getElem?_of_forall₂ {related : α → β → Prop} {items : List α} {results : List β}
    (each : List.Forall₂ related items results) {index : Nat} {item : α}
    (found : items[index]? = some item) :
    ∃ result, results[index]? = some result ∧ related item result := by
  induction each generalizing index with
  | nil => cases found
  | cons here _ ih =>
      cases index with
      | zero =>
          cases found
          exact ⟨_, rfl, here⟩
      | succ index => exact ih found

theorem exists_of_mem_forall₂ {related : α → β → Prop} {items : List α} {results : List β}
    (each : List.Forall₂ related items results) {result : β} (found : result ∈ results) :
    ∃ item ∈ items, related item result := by
  induction each with
  | nil => cases found
  | cons here _ ih =>
      rcases List.mem_cons.1 found with rfl | found
      · exact ⟨_, List.mem_cons_self, here⟩
      · rcases ih found with ⟨item, isItem, related⟩
        exact ⟨item, List.mem_cons_of_mem _ isItem, related⟩

theorem forall₂_mem {related : α → β → Prop} {items : List α} {results : List β}
    (each : List.Forall₂ related items results) :
    List.Forall₂ (fun item result => item ∈ items ∧ related item result) items results := by
  induction each with
  | nil => exact .nil
  | cons here _ ih =>
      refine .cons ⟨List.mem_cons_self, here⟩ (ih.imp ?_)
      rintro item result ⟨isItem, related⟩
      exact ⟨List.mem_cons_of_mem _ isItem, related⟩

theorem forall₂_and {first second : α → β → Prop} {items : List α} {results : List β}
    (each : List.Forall₂ first items results) (each' : List.Forall₂ second items results) :
    List.Forall₂ (fun item result => first item result ∧ second item result) items results := by
  induction each with
  | nil => exact .nil
  | cons here _ ih =>
      cases each' with
      | cons here' rest => exact .cons ⟨here, here'⟩ (ih rest)

theorem forall₂_comp {γ : Type} {first : α → β → Prop} {second : β → γ → Prop} {items : List α}
    {middle : List β} {results : List γ} (each : List.Forall₂ first items middle)
    (each' : List.Forall₂ second middle results) :
    List.Forall₂ (fun item result => ∃ between, first item between ∧ second between result) items
      results := by
  induction each generalizing results with
  | nil =>
      cases each'
      exact .nil
  | cons here _ ih =>
      cases each' with
      | cons here' rest => exact .cons ⟨_, here, here'⟩ (ih rest)

/-- A list in which one item is modified. -/
theorem forall₂_modify {related : α → α → Prop} (refl : ∀ item, related item item)
    {items : List α} {position : Nat} {item : α} {step : α → α}
    (found : items[position]? = some item) (here : related item (step item)) :
    List.Forall₂ related items (items.modify position step) := by
  induction items generalizing position with
  | nil => cases found
  | cons first rest ih =>
      cases position with
      | zero =>
          cases found
          exact .cons here (List.forall₂_same.2 fun item _ => refl item)
      | succ position => exact .cons (refl first) (ih found)

/-- What a traversal collects is what its steps give. -/
theorem mem_flatten_of_mapM {step : α → Except ε (List β)} {items : List α}
    {results : List (List β)} (succeeded : items.mapM step = .ok results) {value : β} :
    value ∈ results.flatten ↔
      ∃ item ∈ items, ∃ result, step item = .ok result ∧ value ∈ result := by
  have each := forall₂_of_mapM succeeded
  rw [List.mem_flatten]
  constructor
  · rintro ⟨result, isResult, found⟩
    rcases exists_of_mem_forall₂ each isResult with ⟨item, isItem, given⟩
    exact ⟨item, isItem, result, given, found⟩
  · rintro ⟨item, isItem, result, given, found⟩
    rcases exists_of_mem_forall₂ each.flip isItem with ⟨result', isResult, given'⟩
    cases given.symm.trans given'
    exact ⟨result, isResult, found⟩

end ValueForm.Outcome
