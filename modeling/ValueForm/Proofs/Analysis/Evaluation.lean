import ValueForm.Analysis.Transfer
import ValueForm.Proofs.Inquiry

/-!
# Evaluating transfer rules

`Transfer.Yields` says with which value and effect a rule under way ends when
the questions it asks are answered by a fixed function. Every operation that
the rules are made of has a lemma that says exactly when it yields what, so a
rule is opened by rewriting with these lemmas and never by unfolding the monad.
-/

namespace ValueForm

/-- The edits by which a value is made a reference. -/
def Value.forces : Value → List Edit
  | .capable _ provenance => [.force provenance]
  | _ => []

namespace Transfer

variable {α β : Type} {answers : String → Except OracleError Bool} {place : Place}

/-- A rule under way ends with a value and an effect. -/
def Yields (answers : String → Except OracleError Bool) (rule : Transfer α) (before : Effect)
    (value : α) (after : Effect) : Prop :=
  (rule before).eval answers = .ok (value, after)

/-! ## Composition -/

@[simp]
theorem yields_pure {value result : α} {before after : Effect} :
    Yields answers (pure value) before result after ↔ value = result ∧ before = after := by
  change (pure (value, before) : Inquiry AnalysisError (α × Effect)).eval answers = .ok _ ↔ _
  rw [Inquiry.eval_pure_eq_ok_iff, Prod.mk.injEq]

@[simp]
theorem yields_bind {rule : Transfer α} {next : α → Transfer β} {before after : Effect}
    {result : β} :
    Yields answers (rule >>= next) before result after ↔
      ∃ value between, Yields answers rule before value between ∧
        Yields answers (next value) between result after := by
  change ((rule before) >>= fun pair => next pair.1 pair.2).eval answers = .ok _ ↔ _
  rw [Inquiry.eval_bind_eq_ok_iff]
  exact Prod.exists

@[simp]
theorem yields_discard {rule : Transfer α} {before after : Effect} {ended : Unit} :
    Yields answers (discard rule) before ended after ↔
      ∃ value, Yields answers rule before value after := by
  change ((rule before) >>= fun pair => pure ((), pair.2)).eval answers = .ok _ ↔ _
  rw [Inquiry.eval_bind_eq_ok_iff]
  constructor
  · rintro ⟨⟨value, between⟩, first, last⟩
    rw [Inquiry.eval_pure_eq_ok_iff, Prod.mk.injEq] at last
    exact ⟨value, last.2 ▸ first⟩
  · rintro ⟨value, first⟩
    exact ⟨(value, after), first, Inquiry.eval_pure_eq_ok_iff.2 rfl⟩

@[simp]
theorem yields_fail {error : AnalysisError} {before after : Effect} {value : α} :
    Yields answers (fail error) before value after ↔ False :=
  Inquiry.eval_fail_eq_ok_iff

@[simp]
theorem yields_require {error : AnalysisError} {given : Option α} {before after : Effect}
    {value : α} :
    Yields answers (require error given) before value after ↔
      given = some value ∧ before = after := by
  cases given <;> simp [require]

/-! ## The frame -/

theorem yields_onFrame {operation : Frame → Except FrameError (α × Frame)}
    {before after : Effect} {value : α} :
    Yields answers (onFrame place operation) before value after ↔
      operation before.frame = .ok (value, after.frame) ∧ after.edits = before.edits := by
  unfold Yields onFrame
  cases outcome : operation before.frame with
  | error error => simp
  | ok pair =>
      rcases pair with ⟨result, frame⟩
      rcases after with ⟨afterFrame, afterEdits⟩
      simp only [Inquiry.eval_pure_eq_ok_iff, Prod.mk.injEq, Effect.mk.injEq, Except.ok.injEq]
      constructor
      · rintro ⟨rfl, rfl, rfl⟩
        exact ⟨⟨rfl, rfl⟩, rfl⟩
      · rintro ⟨⟨rfl, rfl⟩, rfl⟩
        exact ⟨rfl, rfl, rfl⟩

@[simp]
theorem yields_pop {before after : Effect} {value : Value} :
    Yields answers (pop place) before value after ↔
      ∃ rest, before.frame.stack = value :: rest ∧
        after = ⟨⟨before.frame.locals, rest⟩, before.edits⟩ := by
  rcases before with ⟨⟨locals, stack⟩, edits⟩
  rcases after with ⟨⟨locals', stack'⟩, edits'⟩
  rw [pop, yields_onFrame]
  cases stack with
  | nil => simp [Frame.pop]
  | cons first rest =>
      simp only [Frame.pop, Except.ok.injEq, Prod.mk.injEq, Frame.mk.injEq, List.cons.injEq,
        Effect.mk.injEq]
      constructor
      · rintro ⟨⟨rfl, rfl, rfl⟩, rfl⟩
        exact ⟨rest, ⟨rfl, rfl⟩, ⟨rfl, rfl⟩, rfl⟩
      · rintro ⟨_, ⟨rfl, rfl⟩, ⟨rfl, rfl⟩, rfl⟩
        exact ⟨⟨rfl, rfl, rfl⟩, rfl⟩

@[simp]
theorem yields_popMany {count : Nat} {before after : Effect} {values : List Value} :
    Yields answers (popMany place count) before values after ↔
      ∃ rest, before.frame.stack = values.reverse ++ rest ∧ values.length = count ∧
        after = ⟨⟨before.frame.locals, rest⟩, before.edits⟩ := by
  rcases before with ⟨⟨locals, stack⟩, edits⟩
  rcases after with ⟨⟨locals', stack'⟩, edits'⟩
  rw [popMany, yields_onFrame]
  simp only [Frame.popMany]
  by_cases low : stack.length < count
  · simp only [low, if_true, reduceCtorEq, false_and, false_iff]
    rintro ⟨rest, stackEq, rfl, -⟩
    rw [stackEq, List.length_append, List.length_reverse] at low
    omega
  · simp only [low, if_false, Except.ok.injEq, Prod.mk.injEq, Frame.mk.injEq, Effect.mk.injEq]
    constructor
    · rintro ⟨⟨rfl, rfl, rfl⟩, rfl⟩
      refine ⟨stack.drop count, ?_, ?_, ⟨rfl, rfl⟩, rfl⟩
      · rw [List.reverse_reverse, List.take_append_drop]
      · rw [List.length_reverse, List.length_take]
        omega
    · rintro ⟨rest, stackEq, rfl, ⟨rfl, rfl⟩, rfl⟩
      have taken : stack.take values.length = values.reverse := by
        rw [stackEq, ← List.length_reverse, List.take_left]
      have dropped : stack.drop values.length = stack' := by
        rw [stackEq, ← List.length_reverse, List.drop_left]
      exact ⟨⟨by rw [taken, List.reverse_reverse], rfl, dropped⟩, rfl⟩

@[simp]
theorem yields_push {value : Value} {before after : Effect} {ended : Unit} :
    Yields answers (push value) before ended after ↔
      after = ⟨⟨before.frame.locals, value :: before.frame.stack⟩, before.edits⟩ := by
  change (pure ((), _) : Inquiry AnalysisError (Unit × Effect)).eval answers = .ok _ ↔ _
  rw [Inquiry.eval_pure_eq_ok_iff, Prod.mk.injEq]
  exact ⟨fun same => same.2.symm, fun same => ⟨rfl, same.symm⟩⟩

@[simp]
theorem yields_pushCapable {className : String} {before after : Effect} {ended : Unit} :
    Yields answers (pushCapable place className) before ended after ↔
      after = ⟨⟨before.frame.locals, .capableAt className place.site :: before.frame.stack⟩,
        before.edits⟩ :=
  yields_push

@[simp]
theorem yields_replace {count : Nat} {value : Value} {before after : Effect} {ended : Unit} :
    Yields answers (replace place count value) before ended after ↔
      ∃ operands rest : List Value, before.frame.stack = operands.reverse ++ rest ∧
        operands.length = count ∧
        after = ⟨⟨before.frame.locals, value :: rest⟩, before.edits⟩ := by
  simp only [replace, yields_bind, yields_discard, yields_popMany, yields_push]
  constructor
  · rintro ⟨_, _, ⟨operands, rest, stackEq, count, rfl⟩, rfl⟩
    exact ⟨operands, rest, stackEq, count, rfl⟩
  · rintro ⟨operands, rest, stackEq, count, rfl⟩
    exact ⟨(), _, ⟨operands, rest, stackEq, count, rfl⟩, rfl⟩

@[simp]
theorem yields_getLocal {slot : UInt16} {before after : Effect} {value : Value} :
    Yields answers (getLocal place slot) before value after ↔
      before.frame.locals[slot.toNat]? = some value ∧ before = after := by
  rcases before with ⟨frame, edits⟩
  rcases after with ⟨frame', edits'⟩
  rw [getLocal, yields_onFrame]
  simp only [Frame.getLocal]
  cases found : frame.locals[slot.toNat]? with
  | none => simp [bind, Except.bind]
  | some contents =>
      simp only [bind, Except.bind, pure, Except.pure, Except.ok.injEq, Prod.mk.injEq,
        Option.some.injEq, Effect.mk.injEq, and_assoc]
      exact and_congr_right fun _ => and_congr_right fun _ => eq_comm

@[simp]
theorem yields_setLocal {slot : UInt16} {value : Value} {before after : Effect} {ended : Unit} :
    Yields answers (setLocal place slot value) before ended after ↔
      ∃ frame, before.frame.setLocal slot value = .ok frame ∧ after = ⟨frame, before.edits⟩ := by
  rcases before with ⟨frame, edits⟩
  rcases after with ⟨frame', edits'⟩
  rw [setLocal, yields_onFrame]
  cases outcome : frame.setLocal slot value with
  | error error => simp [bind, Except.bind]
  | ok changed =>
      simp only [bind, Except.bind, pure, Except.pure, Except.ok.injEq, Prod.mk.injEq,
        true_and, Effect.mk.injEq, exists_eq_left']
      exact and_congr_left fun _ => eq_comm

@[simp]
theorem yields_shuffle {op : StackOp} {before after : Effect} {ended : Unit} :
    Yields answers (shuffle place op) before ended after ↔
      ∃ stack, op.shuffle Value.isWide before.frame.stack = some stack ∧
        after = ⟨⟨before.frame.locals, stack⟩, before.edits⟩ := by
  rcases before with ⟨⟨locals, stack⟩, edits⟩
  rcases after with ⟨⟨locals', stack'⟩, edits'⟩
  rw [shuffle, yields_onFrame]
  cases shuffled : op.shuffle Value.isWide stack with
  | none => simp
  | some result =>
      simp only [Except.ok.injEq, Prod.mk.injEq, true_and, Frame.mk.injEq,
        Option.some.injEq, Effect.mk.injEq, exists_eq_left']
      constructor
      · rintro ⟨⟨rfl, rfl⟩, rfl⟩
        exact ⟨⟨rfl, rfl⟩, rfl⟩
      · rintro ⟨⟨rfl, rfl⟩, rfl⟩
        exact ⟨⟨rfl, rfl⟩, rfl⟩

/-! ## Edits and questions -/

@[simp]
theorem yields_modify {change : Effect → Effect} {before after : Effect} {ended : Unit} :
    Yields answers (modify change) before ended after ↔ after = change before := by
  change (pure ((), _) : Inquiry AnalysisError (Unit × Effect)).eval answers = .ok _ ↔ _
  rw [Inquiry.eval_pure_eq_ok_iff, Prod.mk.injEq]
  exact ⟨fun same => same.2.symm, fun same => ⟨rfl, same.symm⟩⟩

@[simp]
theorem yields_edit {change : Edit} {before after : Effect} {ended : Unit} :
    Yields answers (edit change) before ended after ↔
      after = ⟨before.frame, before.edits ++ [change]⟩ :=
  yields_modify

@[simp]
theorem yields_record {action : PatchAction} {left : LeftForm} {className : String}
    {before after : Effect} {ended : Unit} :
    Yields answers (record action left className) before ended after ↔
      after = ⟨before.frame, before.edits ++ [.record { action, left, className }]⟩ :=
  yields_edit

@[simp]
theorem yields_requireReference {value : Value} {before after : Effect} {ended : Unit} :
    Yields answers (requireReference value) before ended after ↔
      after = ⟨before.frame, before.edits ++ value.forces⟩ := by
  cases value with
  | capable className provenance => exact yields_edit
  | _ =>
      simp only [requireReference, yields_pure, Value.forces, List.append_nil, true_and]
      exact eq_comm

theorem yields_forM_requireReference {values : List Value} {before after : Effect} {ended : Unit} :
    Yields answers (values.forM requireReference) before ended after ↔
      after = ⟨before.frame, before.edits ++ values.flatMap Value.forces⟩ := by
  induction values generalizing before with
  | nil =>
      simp only [List.forM, yields_pure, List.flatMap_nil, List.append_nil, true_and]
      exact eq_comm
  | cons first rest ih =>
      simp only [List.forM, yields_bind, yields_requireReference, ih, List.flatMap_cons]
      constructor
      · rintro ⟨_, _, rfl, rfl⟩
        rw [List.append_assoc]
      · rintro rfl
        exact ⟨(), _, rfl, by rw [List.append_assoc]⟩

@[simp]
theorem yields_isCapable {className : String} {before after : Effect} {capable : Bool} :
    Yields answers (isCapable className) before capable after ↔
      answers className = .ok capable ∧ before = after := by
  change ((Inquiry.capable .oracle className : Inquiry AnalysisError Bool) >>= fun given =>
    pure (given, before)).eval answers = .ok _ ↔ _
  simp only [Inquiry.eval_bind_eq_ok_iff, Inquiry.eval_capable_eq_ok_iff,
    Inquiry.eval_pure_eq_ok_iff, Prod.mk.injEq]
  constructor
  · rintro ⟨given, answered, rfl, rfl⟩
    exact ⟨answered, rfl⟩
  · rintro ⟨answered, rfl⟩
    exact ⟨capable, answered, rfl, rfl⟩

/-- A type is found to be a value-capable class, or it is no class or one that
is not value-capable. -/
theorem yields_capableClass? {type : FieldType} {before after : Effect} {found : Option String}
    (yields : Yields answers (capableClass? type) before found after) :
    before = after ∧
      ((∃ className, found = some className ∧ type = .object className ∧
          answers className = .ok true) ∨
        (found = none ∧
          ∀ className, type = .object className → answers className = .ok false)) := by
  cases type with
  | object className =>
      simp only [capableClass?, yields_bind, yields_isCapable] at yields
      obtain ⟨capable, _, ⟨answered, rfl⟩, ended⟩ := yields
      cases capable with
      | true =>
          simp only [if_true, yields_pure] at ended
          exact ⟨ended.2, .inl ⟨className, ended.1.symm, rfl, answered⟩⟩
      | false =>
          simp only [Bool.false_eq_true, if_false, yields_pure] at ended
          refine ⟨ended.2, .inr ⟨ended.1.symm, ?_⟩⟩
          rintro _ ⟨⟩
          exact answered
  | primitive type =>
      simp only [capableClass?, yields_pure] at yields
      exact ⟨yields.2, .inr ⟨yields.1.symm, fun className same => by simp at same⟩⟩
  | array element =>
      simp only [capableClass?, yields_pure] at yields
      exact ⟨yields.2, .inr ⟨yields.1.symm, fun className same => by simp at same⟩⟩

@[simp]
theorem yields_classOperand {index : UInt16} {before after : Effect} {className : String} :
    Yields answers (classOperand place index) before className after ↔
      place.pool.className? index = some className ∧ before = after :=
  yields_require

@[simp]
theorem yields_memberOperand {index : UInt16} {before after : Effect} {member : MemberRef} :
    Yields answers (memberOperand place index) before member after ↔
      place.pool.member? index = some member ∧ before = after :=
  yields_require

@[simp]
theorem yields_fieldType {descriptor : String} {before after : Effect} {type : FieldType} :
    Yields answers (fieldType descriptor) before type after ↔
      FieldType.parse? descriptor = some type ∧ before = after :=
  yields_require

@[simp]
theorem yields_namedType {index : UInt16} {before after : Effect} {type : FieldType} :
    Yields answers (namedType place index) before type after ↔
      (∃ name, place.pool.className? index = some name ∧
        FieldType.ofInternalName? name = some type) ∧ before = after := by
  simp only [namedType, yields_bind, yields_classOperand, yields_require]
  constructor
  · rintro ⟨name, _, ⟨named, rfl⟩, typed, rfl⟩
    exact ⟨⟨name, named, typed⟩, rfl⟩
  · rintro ⟨⟨name, named, typed⟩, rfl⟩
    exact ⟨name, before, ⟨named, rfl⟩, typed, rfl⟩

end Transfer

end ValueForm
