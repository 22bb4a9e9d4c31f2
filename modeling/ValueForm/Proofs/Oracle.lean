import ValueForm.Proofs.Inquiry

/-!
# Questions one after the other

However often and in whatever order an oracle is asked, every answer is the one
that a new oracle gives, and the source is consulted once for each class that it
has an answer for. A failure is not remembered, so it costs a consultation each
time.

To tell when the source is consulted, the oracle is also given a source that
keeps a record. It does the same with it: `Oracle.queryWith` is `Oracle.query`
with the consultation made an action.
-/

namespace ValueForm

namespace Oracle

/-- The oracle after a consultation. -/
def consulted (oracle : Oracle) (className : String) :
    Except OracleError Bool → Oracle
  | .ok answer => ⟨oracle.answers.insert className answer, oracle.lookups + 1⟩
  | .error _ => { oracle with lookups := oracle.lookups + 1 }

theorem query_eq (find : ClassFinder) (oracle : Oracle) (className : String) :
    oracle.query find className =
      match oracle.answers[className]? with
      | some answer => (.ok answer, oracle)
      | none => (verdict find className, oracle.consulted className (verdict find className)) := by
  unfold query
  cases oracle.answers[className]? with
  | some answer => rfl
  | none => cases verdict find className <;> rfl

section Monadic

variable {m : Type → Type} [Monad m]

/-- Ask about a class; the source is consulted by an action. -/
def queryWith (consult : String → m Lookup) (oracle : Oracle) (className : String) :
    m (Except OracleError Bool × Oracle) :=
  match oracle.answers[className]? with
  | some answer => pure (.ok answer, oracle)
  | none => do
      let lookup ← consult className
      let answer := verdict (fun _ => lookup) className
      return (answer, oracle.consulted className answer)

/-- Ask about classes one after the other. -/
def queryAllWith (consult : String → m Lookup) :
    List String → Oracle → m (List (Except OracleError Bool) × Oracle)
  | [], oracle => return ([], oracle)
  | className :: rest, oracle => do
      let (answer, oracle) ← oracle.queryWith consult className
      let (answers, oracle) ← queryAllWith consult rest oracle
      return (answer :: answers, oracle)

end Monadic

/-- The answers to questions asked one after the other, and the oracle after
them. -/
def queryAll (find : ClassFinder) :
    List String → Oracle → List (Except OracleError Bool) × Oracle
  | [], oracle => ([], oracle)
  | className :: rest, oracle =>
      let next := oracle.query find className
      let last := queryAll find rest next.2
      (next.1 :: last.1, last.2)

/-- A source that records what it is consulted about. -/
def recording (find : ClassFinder) (className : String) : StateM (List String) Lookup := do
  modify (· ++ [className])
  return find className

/-- Given a plain source, an oracle does what it does. -/
theorem queryWith_id (find : ClassFinder) (oracle : Oracle) (className : String) :
    queryWith (m := Id) find oracle className = oracle.query find className := by
  rw [query_eq, queryWith]
  cases oracle.answers[className]? <;> rfl

theorem queryAllWith_id (find : ClassFinder) (names : List String) (oracle : Oracle) :
    queryAllWith (m := Id) find names oracle = queryAll find names oracle := by
  induction names generalizing oracle with
  | nil => rfl
  | cons className rest ih =>
      rw [queryAll, ← queryWith_id, ← ih]
      rfl

/-- Given a source that keeps a record it does the same, and the source is
consulted where the oracle has no answer. -/
theorem queryWith_recording (find : ClassFinder) (oracle : Oracle) (className : String)
    (calls : List String) :
    queryWith (recording find) oracle className calls =
      (oracle.query find className,
        if oracle.answers[className]?.isSome then calls else calls ++ [className]) := by
  rw [query_eq, queryWith]
  cases oracle.answers[className]? <;> rfl

theorem queryAllWith_recording_cons (find : ClassFinder) (className : String)
    (rest : List String) (oracle : Oracle) (calls : List String) :
    queryAllWith (recording find) (className :: rest) oracle calls =
      let next := queryWith (recording find) oracle className calls
      let last := queryAllWith (recording find) rest next.1.2 next.2
      ((next.1.1 :: last.1.1, last.1.2), last.2) :=
  rfl

/-! ## Runs -/

/-- What questions leave behind: the answers to those that have one, and a record
in which each of these stands once and every other as often as it was asked. -/
structure Asked (find : ClassFinder) (done : List String) (oracle : Oracle)
    (calls : List String) : Prop where
  answers : ∀ className, oracle.answers[className]? =
    if className ∈ done then (verdict find className).toOption else none
  count : ∀ className, calls.count className =
    if (verdict find className).isOk then min 1 (done.count className) else done.count className
  length : oracle.lookups = calls.length
  lookups : oracle.lookups =
    (done.filter fun className => (verdict find className).isOk).toFinset.card +
      done.countP fun className => !(verdict find className).isOk

theorem asked_nil (find : ClassFinder) : Asked find [] {} [] := by
  constructor <;> simp

section Step

variable {find : ClassFinder} {done calls : List String} {oracle : Oracle} {className : String}

/-- A question that has been answered before leaves nothing new behind. -/
theorem Asked.again (asked : Asked find done oracle calls) (isAgain : className ∈ done)
    (isOk : (verdict find className).isOk = true) :
    Asked find (done ++ [className]) oracle calls where
  answers := by
    intro other
    rw [asked.answers other]
    by_cases same : other = className
    · simp [same, isAgain]
    · simp [same]
  count := by
    intro other
    rw [asked.count other, List.count_append, List.count_singleton]
    by_cases same : other = className
    · have once : 0 < done.count className := List.count_pos_iff.2 isAgain
      simp only [same, isOk, if_true, beq_self_eq_true]
      omega
    · simp [Ne.symm same]
  length := asked.length
  lookups := by
    rw [asked.lookups, List.filter_append, List.toFinset_append, List.countP_append]
    simp [isOk, isAgain]

/-- The first question that is answered is remembered. -/
theorem Asked.first (asked : Asked find done oracle calls) (isFirst : className ∉ done)
    {answer : Bool} (given : verdict find className = .ok answer) :
    Asked find (done ++ [className])
      ⟨oracle.answers.insert className answer, oracle.lookups + 1⟩ (calls ++ [className]) where
  answers := by
    intro other
    rw [Std.HashMap.getElem?_insert, asked.answers other]
    by_cases same : other = className
    · simp [same, given, Except.toOption]
    · simp [same, Ne.symm same]
  count := by
    intro other
    rw [List.count_append, List.count_append, asked.count other]
    by_cases same : other = className
    · simp [same, given, Except.isOk, Except.toBool, List.count_eq_zero.2 isFirst]
    · simp [Ne.symm same]
  length := by
    rw [asked.length, List.length_append, List.length_singleton]
  lookups := by
    rw [asked.lookups, List.filter_append, List.toFinset_append, List.countP_append]
    simp [given, Except.isOk, Except.toBool, isFirst, Nat.add_right_comm]

/-- A question that fails is asked again each time. -/
theorem Asked.failed (asked : Asked find done oracle calls) {error : OracleError}
    (given : verdict find className = .error error) :
    Asked find (done ++ [className]) { oracle with lookups := oracle.lookups + 1 }
      (calls ++ [className]) where
  answers := by
    intro other
    rw [asked.answers other]
    by_cases same : other = className
    · simp [same, given, Except.toOption]
    · simp [same]
  count := by
    intro other
    rw [List.count_append, List.count_append, asked.count other]
    by_cases same : other = className
    · simp [same, given, Except.isOk, Except.toBool]
    · simp [Ne.symm same]
  length := by
    rw [asked.length, List.length_append, List.length_singleton]
  lookups := by
    rw [asked.lookups, List.filter_append, List.toFinset_append, List.countP_append]
    simp [given, Except.isOk, Except.toBool, Nat.add_assoc]

/-- What one more question leaves behind, and its answer. -/
theorem Asked.query (asked : Asked find done oracle calls) (className : String) :
    (oracle.query find className).1 = verdict find className ∧
      Asked find (done ++ [className]) (oracle.query find className).2
        (if oracle.answers[className]?.isSome then calls else calls ++ [className]) := by
  have known := asked.answers className
  rw [query_eq]
  cases given : verdict find className with
  | ok answer =>
      by_cases isAgain : className ∈ done
      · rw [if_pos isAgain, given] at known
        rw [known]
        exact ⟨rfl, asked.again isAgain (by rw [given]; rfl)⟩
      · rw [if_neg isAgain] at known
        rw [known]
        exact ⟨rfl, asked.first isAgain given⟩
  | error error =>
      rw [given, Except.toOption, ite_self] at known
      rw [known]
      exact ⟨rfl, asked.failed given⟩

end Step

/-- What questions asked one after the other leave behind, and their answers. -/
theorem Asked.queryAll {find : ClassFinder} {done calls : List String} {oracle : Oracle}
    (asked : Asked find done oracle calls) (names : List String) :
    ∃ oracle' calls', queryAll find names oracle = (names.map (verdict find), oracle') ∧
      queryAllWith (recording find) names oracle calls =
        ((names.map (verdict find), oracle'), calls') ∧
      Asked find (done ++ names) oracle' calls' := by
  induction names generalizing done oracle calls with
  | nil => exact ⟨oracle, calls, rfl, rfl, by rwa [List.append_nil]⟩
  | cons className rest ih =>
      rcases asked.query className with ⟨answer, asked⟩
      rcases ih asked with ⟨oracle', calls', pure, recorded, asked⟩
      rw [List.append_assoc] at asked
      refine ⟨oracle', calls', ?_, ?_, asked⟩
      · rw [Oracle.queryAll, pure, answer]
        rfl
      · rw [queryAllWith_recording_cons, queryWith_recording]
        dsimp only
        rw [recorded, answer]
        rfl

/-- However often and in whatever order an oracle is asked, it answers as a new
one does. Of its source it learns once about each class that there is an answer
for, and each time about one for which there is none. -/
theorem queryAll_coherent (find : ClassFinder) (names : List String) :
    ∃ oracle calls,
      queryAll find names {} = (names.map (({} : Oracle).answer find), oracle) ∧
      queryAllWith (m := Id) find names {} = queryAll find names {} ∧
      queryAllWith (recording find) names {} [] = (queryAll find names {}, calls) ∧
      (∀ className, ({} : Oracle).answer find className =
        match find className with
        | .absent => .ok false
        | .found bytes =>
            match ClassFile.scanAnnotation capableMarker bytes with
            | .ok (isMarked, _) => .ok isMarked
            | .error error => .error (.malformed className error)
        | .unreadable reason => .error (.unreadable className reason)) ∧
      (∀ className, calls.count className =
        if (({} : Oracle).answer find className).isOk then min 1 (names.count className)
        else names.count className) ∧
      oracle.lookups = calls.length ∧
      oracle.lookups =
        (names.filter fun className => (({} : Oracle).answer find className).isOk).toFinset.card +
          names.countP fun className => !(({} : Oracle).answer find className).isOk := by
  rcases (asked_nil find).queryAll names with ⟨oracle, calls, plain, recorded, asked⟩
  rw [answer_empty, plain]
  refine ⟨oracle, calls, rfl, ?_, recorded, ?_, asked.count, asked.length, asked.lookups⟩
  · rw [queryAllWith_id, plain]
  · intro className
    unfold verdict
    cases find className <;> rfl

end Oracle

end ValueForm
