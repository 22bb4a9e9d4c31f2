import Mathlib
import ValueForm.Inquiry

/-!
# Answering inquiries

An oracle answers every question the same way, whatever it was asked before:
the answer it remembers is the answer it gave. So the result of an inquiry that
an oracle answers is its result under the fixed function `Oracle.answer`, and
statements about results can be made about `Inquiry.eval` alone.
-/

namespace ValueForm

namespace Oracle

/-- The answer an oracle gives about a class. -/
def answer (find : ClassFinder) (oracle : Oracle) (className : String) : Except OracleError Bool :=
  (oracle.query find className).1

theorem answer_eq (find : ClassFinder) (oracle : Oracle) (className : String) :
    oracle.answer find className =
      match oracle.answers[className]? with
      | some remembered => .ok remembered
      | none => verdict find className := by
  cases known : oracle.answers[className]? with
  | some remembered => simp [answer, query, known]
  | none => cases given : verdict find className <;> simp [answer, query, known, given]

/-- A question leaves all answers as they are. -/
@[simp]
theorem answer_query (find : ClassFinder) (oracle : Oracle) (className : String) :
    (oracle.query find className).2.answer find = oracle.answer find := by
  funext other
  cases known : oracle.answers[className]? with
  | some remembered => simp [query, known]
  | none =>
      cases given : verdict find className with
      | error error => simp [answer_eq, query, known, given]
      | ok capable =>
          by_cases same : className = other
          · subst same
            simp [answer_eq, query, known, given]
          · simp [answer_eq, query, known, given, Std.HashMap.getElem?_insert, same]

@[simp]
theorem answer_empty (find : ClassFinder) : ({} : Oracle).answer find = verdict find := by
  funext className
  simp [answer_eq]

/-- The states in which questions about a source leave an oracle that starts
without answers. -/
inductive Reached (find : ClassFinder) : Oracle → Prop
  | fresh : Reached find {}
  | asked {oracle : Oracle} (reached : Reached find oracle) (className : String) :
      Reached find (oracle.query find className).2

/-- Whatever an oracle was asked before, it answers as its source does. -/
theorem Reached.answer_eq {find : ClassFinder} {oracle : Oracle} (reached : oracle.Reached find) :
    oracle.answer find = verdict find := by
  induction reached with
  | fresh => exact answer_empty find
  | asked _ className ih => rw [answer_query, ih]

/-- An oracle that has been told of one value-capable class. -/
def knowing (className : String) : Oracle where
  answers := Std.HashMap.insert ∅ className true

theorem answer_knowing (className : String) :
    (knowing className).answer (fun _ => .absent) = fun other => .ok (className == other) := by
  funext other
  by_cases same : className = other
  · simp [answer_eq, knowing, same]
  · simp [answer_eq, knowing, same, verdict]

end Oracle

namespace Inquiry

variable {ε α β : Type}

/-- Who remembers and what is noted does not change a result. -/
@[simp]
theorem runFrom_result (find : ClassFinder) (inquiry : Inquiry ε α) (oracle : Oracle)
    (notes : List Note) :
    (inquiry.runFrom find oracle notes).result = inquiry.eval (oracle.answer find) := by
  induction inquiry generalizing oracle notes with
  | done result => rfl
  | note entry rest ih => exact ih () oracle (entry :: notes)
  | ask className next ih =>
      simp only [runFrom, eval]
      rw [ih, Oracle.answer_query]
      rfl

/-- An inquiry that an oracle answers ends as it does under the oracle's
answers. -/
@[simp]
theorem run_result (find : ClassFinder) (inquiry : Inquiry ε α) (oracle : Oracle) :
    (inquiry.run find oracle).result = inquiry.eval (oracle.answer find) :=
  runFrom_result find inquiry oracle []

variable {answers : String → Except OracleError Bool}

instance : LawfulMonad (Inquiry ε) := by
  refine LawfulMonad.mk' (Inquiry ε) ?_ ?_ ?_
  · intro α inquiry
    change inquiry.bind (fun value => .done (.ok value)) = inquiry
    induction inquiry with
    | done outcome => cases outcome <;> rfl
    | ask className next ih => exact congrArg (ask className) (funext ih)
    | note entry rest ih => exact congrArg (note entry) (funext ih)
  · intro α β value next
    rfl
  · intro α β γ inquiry next last
    change (inquiry.bind next).bind last = inquiry.bind fun value => (next value).bind last
    induction inquiry with
    | done outcome => cases outcome <;> rfl
    | ask className next ih => exact congrArg (ask className) (funext ih)
    | note entry rest ih => exact congrArg (note entry) (funext ih)

/-- A composed inquiry ends as its parts do one after the other. -/
theorem eval_bind (inquiry : Inquiry ε α) (next : α → Inquiry ε β) :
    (inquiry >>= next).eval answers =
      (inquiry.eval answers).bind fun value => (next value).eval answers := by
  change (inquiry.bind next).eval answers = _
  induction inquiry with
  | done outcome => cases outcome <;> rfl
  | ask className rest ih => exact ih (answers className)
  | note entry rest ih => exact ih ()

/-- A composed inquiry succeeds exactly when both parts do. -/
theorem eval_bind_eq_ok_iff {inquiry : Inquiry ε α} {next : α → Inquiry ε β} {result : β} :
    (inquiry >>= next).eval answers = .ok result ↔
      ∃ value, inquiry.eval answers = .ok value ∧ (next value).eval answers = .ok result := by
  rw [eval_bind]
  cases inquiry.eval answers with
  | ok value => simp [Except.bind]
  | error error => simp [Except.bind]

@[simp]
theorem eval_pure_eq_ok_iff {value result : α} :
    (pure value : Inquiry ε α).eval answers = .ok result ↔ value = result := by
  change (Except.ok value : Except ε α) = .ok result ↔ _
  exact Except.ok.injEq value result ▸ Iff.rfl

@[simp]
theorem eval_fail_eq_ok_iff {error : ε} {result : α} :
    (fail error : Inquiry ε α).eval answers = .ok result ↔ False := by
  simp [fail, eval]

@[simp]
theorem eval_capable_eq_ok_iff {describe : OracleError → ε} {className : String}
    {result : Bool} :
    (capable describe className).eval answers = .ok result ↔ answers className = .ok result := by
  simp only [capable, eval]
  cases answers className <;> simp [Except.mapError]

@[simp]
theorem eval_ofExcept {outcome : Except ε α} : (ofExcept outcome).eval answers = outcome :=
  rfl

@[simp]
theorem eval_mapError {ε' : Type} (describe : ε → ε') (inquiry : Inquiry ε α) :
    (inquiry.mapError describe).eval answers = (inquiry.eval answers).mapError describe := by
  induction inquiry with
  | done outcome => rfl
  | ask className next ih => exact ih (answers className)
  | note entry rest ih => exact ih ()

/-- Describing an error in other terms does not change a success. -/
theorem eval_mapError_eq_ok_iff {ε' : Type} {describe : ε → ε'} {inquiry : Inquiry ε α}
    {result : α} :
    (inquiry.mapError describe).eval answers = .ok result ↔ inquiry.eval answers = .ok result := by
  rw [eval_mapError]
  cases inquiry.eval answers <;> simp [Except.mapError]

/-- A traversal succeeds when every item does. -/
theorem forall₂_of_eval_mapM {step : α → Inquiry ε β} {items : List α} {results : List β}
    (succeeded : (items.mapM step).eval answers = .ok results) :
    List.Forall₂ (fun item result => (step item).eval answers = .ok result) items results := by
  induction items generalizing results with
  | nil =>
      rw [List.mapM_nil, eval_pure_eq_ok_iff] at succeeded
      subst succeeded
      exact .nil
  | cons item items ih =>
      rw [List.mapM_cons, eval_bind_eq_ok_iff] at succeeded
      rcases succeeded with ⟨result, here, others⟩
      rcases eval_bind_eq_ok_iff.1 others with ⟨rest, there, ended⟩
      obtain rfl := eval_pure_eq_ok_iff.1 ended
      exact .cons here (ih there)

/-! ## What an inquiry hears -/

/-- The answers an oracle gives during an inquiry, in order. -/
def heard (find : ClassFinder) : Inquiry ε α → Oracle → List (Except OracleError Bool)
  | .done _, _ => []
  | .ask className next, oracle =>
      let (given, oracle) := oracle.query find className
      given :: heard find (next given) oracle
  | .note _ rest, oracle => heard find (rest ()) oracle

/-- What an inquiry hears is what the oracle answers. -/
theorem exists_of_mem_heard {find : ClassFinder} {inquiry : Inquiry ε α} {oracle : Oracle}
    {given : Except OracleError Bool} (isHeard : given ∈ inquiry.heard find oracle) :
    ∃ className, oracle.answer find className = given := by
  induction inquiry generalizing oracle with
  | done outcome => cases isHeard
  | note entry rest ih => exact ih () isHeard
  | ask className next ih =>
      rw [heard, List.mem_cons] at isHeard
      rcases isHeard with rfl | isLater
      · exact ⟨className, rfl⟩
      · rcases ih _ isLater with ⟨other, answered⟩
        rw [Oracle.answer_query] at answered
        exact ⟨other, answered⟩

/-- An inquiry that never hears of a value-capable class ends as it does where
there is none. -/
theorem eval_of_heard {find : ClassFinder} {inquiry : Inquiry ε α} {oracle : Oracle}
    (none : .ok true ∉ inquiry.heard find oracle) :
    inquiry.eval (oracle.answer find) =
      inquiry.eval fun className => (oracle.answer find className).map fun _ => false := by
  induction inquiry generalizing oracle with
  | done outcome => rfl
  | note entry rest ih => exact ih () none
  | ask className next ih =>
      rw [heard, List.mem_cons, not_or] at none
      -- The answer heard here is the same on both sides.
      have same : (oracle.answer find className).map (fun _ => false) =
          oracle.answer find className := by
        change .ok true ≠ oracle.answer find className ∧ _ at none
        cases given : oracle.answer find className with
        | error error => rfl
        | ok capable =>
            rw [given] at none
            cases capable with
            | false => rfl
            | true => exact absurd rfl none.1
      have rest := ih (oracle.query find className).1 none.2
      rw [Oracle.answer_query] at rest
      rw [eval, eval, same]
      exact rest

end Inquiry

end ValueForm
