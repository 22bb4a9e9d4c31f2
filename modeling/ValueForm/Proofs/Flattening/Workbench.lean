import ValueForm.Flattening.Workbench
import ValueForm.Proofs.ClassFile.Interning

/-!
# Steps of a flattening that succeed

A composition or a traversal of steps succeeds when its parts do. Steps only
intern constants, so what an index resolves to after one step it resolves to in
the end.
-/

namespace ValueForm

namespace Flatten

variable {α β : Type}

theorem bind_of_ok {first : Flatten α} {next : α → Flatten β} {bench between : Workbench}
    {value : α} (ran : first bench = .ok value between) :
    (first >>= next) bench = next value between := by
  change EStateM.bind first next bench = next value between
  rw [EStateM.bind, ran]

theorem bind_of_error {first : Flatten α} {next : α → Flatten β} {bench between : Workbench}
    {error : FlattenError} (failed : first bench = .error error between) :
    (first >>= next) bench = .error error between := by
  change EStateM.bind first next bench = .error error between
  rw [EStateM.bind, failed]

@[simp]
theorem bind_eq_ok_iff {first : Flatten α} {next : α → Flatten β} {bench last : Workbench}
    {result : β} :
    (first >>= next) bench = .ok result last ↔
      ∃ value between, first bench = .ok value between ∧
        next value between = .ok result last := by
  constructor
  · intro succeeded
    cases ran : first bench with
    | ok value between =>
        rw [bind_of_ok ran] at succeeded
        exact ⟨value, between, rfl, succeeded⟩
    | error error between =>
        rw [bind_of_error ran] at succeeded
        cases succeeded
  · rintro ⟨value, between, ran, succeeded⟩
    rw [bind_of_ok ran]
    exact succeeded

/-- What a step gives, with the workbench it leaves. -/
def attempt (step : Flatten α) (bench : Workbench) : Except FlattenError (α × Workbench) :=
  match step bench with
  | .ok value last => .ok (value, last)
  | .error error _ => .error error

@[simp]
theorem attempt_eq_ok_iff {step : Flatten α} {bench last : Workbench} {value : α} :
    step.attempt bench = .ok (value, last) ↔ step bench = .ok value last := by
  unfold attempt
  cases step bench <;> simp

@[simp]
theorem pure_eq_ok_iff {value result : α} {bench last : Workbench} :
    (pure value : Flatten α) bench = .ok result last ↔ result = value ∧ last = bench := by
  constructor
  · intro succeeded
    cases succeeded
    exact ⟨rfl, rfl⟩
  · rintro ⟨rfl, rfl⟩
    rfl

@[simp]
theorem ofExcept_eq_ok_iff {outcome : Except FlattenError α} {result : α}
    {bench last : Workbench} :
    (ofExcept outcome) bench = .ok result last ↔ outcome = .ok result ∧ last = bench := by
  cases outcome with
  | ok value =>
      rw [ofExcept, pure_eq_ok_iff, Except.ok.injEq, eq_comm]
  | error error =>
      constructor
      · intro succeeded
        cases succeeded
      · rintro ⟨succeeded, _⟩
        cases succeeded

@[simp]
theorem require_eq_ok_iff {error : FlattenError} {found : Option α} {result : α}
    {bench last : Workbench} :
    (require error found) bench = .ok result last ↔ found = some result ∧ last = bench := by
  cases found with
  | some value => rw [require, pure_eq_ok_iff, Option.some.injEq, eq_comm]
  | none =>
      constructor
      · intro succeeded
        cases succeeded
      · rintro ⟨succeeded, _⟩
        cases succeeded

/-! ## Changes to the pool -/

/-- The step only adds to the pool. -/
def Additive (step : Flatten α) : Prop :=
  ∀ bench last result, step bench = .ok result last → bench.pool.Grows last.pool

/-- The step only interns constants. -/
def Interning (step : Flatten α) : Prop :=
  ∀ bench last result, step bench = .ok result last → bench.pool.Interns last.pool

theorem Interning.additive {step : Flatten α} (interning : Interning step) : Additive step :=
  fun bench last result succeeded => (interning bench last result succeeded).grows

theorem interning_pure (value : α) : Interning (pure value) := by
  intro bench last result succeeded
  rcases pure_eq_ok_iff.1 succeeded with ⟨_, rfl⟩
  exact .refl

theorem interning_bind {first : Flatten α} {next : α → Flatten β} (earlier : Interning first)
    (later : ∀ value, Interning (next value)) : Interning (first >>= next) := by
  intro bench last result succeeded
  rcases bind_eq_ok_iff.1 succeeded with ⟨value, between, ran, succeeded⟩
  exact (earlier _ _ _ ran).trans (later value _ _ _ succeeded)

theorem interning_get : Interning get := by
  intro bench last result succeeded
  cases succeeded
  exact .refl

theorem interning_require (error : FlattenError) (found : Option α) :
    Interning (require error found) := by
  intro bench last result succeeded
  rcases require_eq_ok_iff.1 succeeded with ⟨_, rfl⟩
  exact .refl

theorem interning_internClass (name : String) : Interning (internClass name) := by
  intro bench last result succeeded
  cases succeeded
  exact (ConstantPool.finds_internClass name).interns bench.pool

theorem interning_internField (field : MemberRef) : Interning (internField field) := by
  intro bench last result succeeded
  cases succeeded
  exact (ConstantPool.finds_internField field).interns bench.pool

theorem interning_leave (entry : Note) : Interning (leave entry) := by
  intro bench last result succeeded
  cases succeeded
  exact .refl

theorem interning_ofExcept (outcome : Except FlattenError α) : Interning (ofExcept outcome) := by
  intro bench last result succeeded
  rcases ofExcept_eq_ok_iff.1 succeeded with ⟨_, rfl⟩
  exact .refl

theorem interning_throw (error : FlattenError) : Interning (throw error : Flatten α) := by
  intro bench last result succeeded
  cases succeeded

/-! ## Results -/

/-- Whatever the step gives has a property. -/
def Ensures (step : Flatten α) (property : α → Prop) : Prop :=
  ∀ bench last result, step bench = .ok result last → property result

theorem ensures_pure {property : α → Prop} {value : α} (holds : property value) :
    Ensures (pure value) property := by
  intro bench last result succeeded
  rcases pure_eq_ok_iff.1 succeeded with ⟨rfl, _⟩
  exact holds

/-- What is asked of a composition is asked of its last step. -/
theorem ensures_bind {property : β → Prop} {first : Flatten α} {next : α → Flatten β}
    (later : ∀ value, Ensures (next value) property) : Ensures (first >>= next) property := by
  intro bench last result succeeded
  rcases bind_eq_ok_iff.1 succeeded with ⟨value, between, _, succeeded⟩
  exact later value _ _ _ succeeded

/-! ## Traversals -/

theorem interning_foldlM {step : β → α → Flatten β}
    (interning : ∀ value item, Interning (step value item)) (items : List α) (start : β) :
    Interning (items.foldlM step start) := by
  induction items generalizing start with
  | nil => exact interning_pure start
  | cons item items ih =>
      rw [List.foldlM_cons]
      exact interning_bind (interning start item) fun value => ih value

theorem interning_mapM {step : α → Flatten β} (interning : ∀ item, Interning (step item))
    (items : List α) : Interning (items.mapM step) := by
  induction items with
  | nil => exact interning_pure []
  | cons item items ih =>
      rw [List.mapM_cons]
      apply interning_bind (interning item)
      intro result
      exact interning_bind ih fun _ => interning_pure _

theorem interning_mapIdxM_go {step : Nat → α → Flatten β}
    (interning : ∀ index item, Interning (step index item)) (items : List α) (done : Array β) :
    Interning (List.mapIdxM.go step items done) := by
  induction items generalizing done with
  | nil => exact interning_pure _
  | cons item items ih => exact interning_bind (interning _ item) fun _ => ih _

theorem interning_mapIdxM {step : Nat → α → Flatten β}
    (interning : ∀ index item, Interning (step index item)) (items : Array α) :
    Interning (items.mapIdxM step) := by
  rcases items with ⟨items⟩
  rw [List.mapIdxM_toArray, map_eq_pure_bind]
  exact interning_bind (interning_mapIdxM_go interning items #[]) fun _ => interning_pure _

/-- What every step keeps holds of the result. -/
theorem ensures_foldlM {step : β → α → Flatten β} {property : β → Prop}
    (keeps : ∀ value item, property value → Ensures (step value item) property)
    (items : List α) {start : β} (initial : property start) :
    Ensures (items.foldlM step start) property := by
  induction items generalizing start with
  | nil => exact ensures_pure initial
  | cons item items ih =>
      rw [List.foldlM_cons]
      intro bench last result succeeded
      rcases bind_eq_ok_iff.1 succeeded with ⟨value, between, here, there⟩
      exact ih (keeps start item initial _ _ _ here) _ _ _ there

theorem additive_mapM {step : α → Flatten β} (additive : ∀ item, Additive (step item))
    (items : List α) : Additive (items.mapM step) := by
  induction items with
  | nil =>
      intro bench last results succeeded
      rcases pure_eq_ok_iff.1 succeeded with ⟨_, rfl⟩
      exact .refl _
  | cons item items ih =>
      intro bench last results succeeded
      rw [List.mapM_cons, bind_eq_ok_iff] at succeeded
      rcases succeeded with ⟨result, between, here, others⟩
      rcases bind_eq_ok_iff.1 others with ⟨rest, after, there, ended⟩
      rcases pure_eq_ok_iff.1 ended with ⟨_, rfl⟩
      exact (additive item _ _ _ here).trans (ih _ _ _ there)

/-- What every step of a traversal establishes holds of its results, item by
item. What a step establishes may be about any pool that the one it leaves grows
into, and may depend on any that has grown into the one it starts with. -/
theorem mapM_between_spec {step : α → Flatten β} {relation : α → β → Prop}
    {first pool : ConstantPool} (additive : ∀ item, Additive (step item))
    (establishes : ∀ item bench result last, first.Grows bench.pool →
      step item bench = .ok result last → last.pool.Grows pool → relation item result)
    {items : List α} {results : List β} {bench last : Workbench}
    (begins : first.Grows bench.pool) (succeeded : items.mapM step bench = .ok results last)
    (grows : last.pool.Grows pool) : List.Forall₂ relation items results := by
  induction items generalizing bench results with
  | nil =>
      rw [List.mapM_nil, pure_eq_ok_iff] at succeeded
      rcases succeeded with ⟨rfl, rfl⟩
      exact .nil
  | cons item items ih =>
      rw [List.mapM_cons, bind_eq_ok_iff] at succeeded
      rcases succeeded with ⟨result, between, here, others⟩
      rcases bind_eq_ok_iff.1 others with ⟨rest, last', there, ended⟩
      rcases pure_eq_ok_iff.1 ended with ⟨rfl, rfl⟩
      have later := additive_mapM additive items _ _ _ there
      exact .cons (establishes item _ _ _ begins here (later.trans grows))
        (ih (begins.trans (additive item _ _ _ here)) there)

/-- The same for steps that do not depend on what was there before. -/
theorem mapM_spec {step : α → Flatten β} {relation : α → β → Prop} {pool : ConstantPool}
    (interning : ∀ item, Interning (step item))
    (establishes : ∀ item bench result last, step item bench = .ok result last →
      last.pool.Grows pool → relation item result)
    {items : List α} {results : List β} {bench last : Workbench}
    (succeeded : items.mapM step bench = .ok results last) (grows : last.pool.Grows pool) :
    List.Forall₂ relation items results :=
  mapM_between_spec (fun item => (interning item).additive)
    (fun item bench result last _ => establishes item bench result last)
    (ConstantPool.Grows.refl bench.pool) succeeded grows

theorem mapIdxM_go_spec {step : Nat → α → Flatten β} {relation : Nat → α → β → Prop}
    {pool : ConstantPool} (interning : ∀ index item, Interning (step index item))
    (establishes : ∀ index item bench result last, step index item bench = .ok result last →
      last.pool.Grows pool → relation index item result)
    {items : List α} {done : Array β} {results : List β} {bench last : Workbench}
    (succeeded : List.mapIdxM.go step items done bench = .ok results last)
    (grows : last.pool.Grows pool) :
    ∃ more, results = done.toList ++ more ∧ more.length = items.length ∧
      ∀ (index : Nat) (item : α), items[index]? = some item →
        ∃ result, more[index]? = some result ∧ relation (done.size + index) item result := by
  induction items generalizing bench done with
  | nil =>
      rw [List.mapIdxM.go, pure_eq_ok_iff] at succeeded
      rcases succeeded with ⟨rfl, rfl⟩
      exact ⟨[], by simp, rfl, fun index item found => by simp at found⟩
  | cons first rest ih =>
      rw [List.mapIdxM.go, bind_eq_ok_iff] at succeeded
      rcases succeeded with ⟨result, between, here, others⟩
      rcases ih others with ⟨more, rfl, length, each⟩
      have later := (interning_mapIdxM_go interning rest _ _ _ _ others).grows
      refine ⟨result :: more, by simp, congrArg Nat.succ length, ?_⟩
      intro index item found
      cases index with
      | zero =>
          cases found
          exact ⟨result, rfl, establishes _ _ _ _ _ here (later.trans grows)⟩
      | succ index =>
          rcases each index item found with ⟨other, atIndex, related⟩
          rw [Array.size_push, Nat.add_assoc, Nat.add_comm 1] at related
          exact ⟨other, atIndex, related⟩

/-- The same for a traversal that numbers its items. -/
theorem mapIdxM_spec {step : Nat → α → Flatten β} {relation : Nat → α → β → Prop}
    {pool : ConstantPool} (interning : ∀ index item, Interning (step index item))
    (establishes : ∀ index item bench result last, step index item bench = .ok result last →
      last.pool.Grows pool → relation index item result)
    {items : Array α} {results : Array β} {bench last : Workbench}
    (succeeded : items.mapIdxM step bench = .ok results last) (grows : last.pool.Grows pool) :
    results.size = items.size ∧ ∀ (index : Nat) (item : α), items[index]? = some item →
      ∃ result, results[index]? = some result ∧ relation index item result := by
  rcases items with ⟨items⟩
  rw [List.mapIdxM_toArray, map_eq_pure_bind, bind_eq_ok_iff] at succeeded
  rcases succeeded with ⟨listed, between, traversed, ended⟩
  rcases pure_eq_ok_iff.1 ended with ⟨rfl, rfl⟩
  rcases mapIdxM_go_spec interning establishes traversed grows with ⟨more, rfl, length, each⟩
  refine ⟨by simpa using length, ?_⟩
  intro index item found
  rcases each index item (by simpa using found) with ⟨result, atIndex, related⟩
  exact ⟨result, by simpa using atIndex, by simpa using related⟩

end Flatten

end ValueForm
