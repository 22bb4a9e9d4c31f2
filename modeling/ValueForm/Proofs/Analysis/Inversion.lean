import ValueForm.Proofs.Analysis.Absorption
import ValueForm.Proofs.Analysis.Rules
import ValueForm.Proofs.Descriptor.Grammar

/-!
# Transfer rules are steps

`Instruction.transfer_step`: whatever a transfer rule does is one of the cases of
`Instruction.Step`. Every rule is opened here, once; all later facts about rules
are read off `Step`.
-/

namespace ValueForm

namespace Instruction

variable {place : Place} {answers : String → Except OracleError Bool} {instruction : Instruction}
  {before : Frame} {effect : Effect} {ended : Unit}

theorem Step.of_consume {signature : Signature} {operands rest pushed : List Value}
    {records : List Edit}
    (known : instruction.signature? place.pool (capability answers) = some signature)
    (pushes : signature.leaves.Pushes place.site pushed records)
    (count : operands.length = signature.operands.length)
    (stackEq : before.stack = operands.reverse ++ rest)
    (effectEq : effect =
      ⟨⟨before.locals, pushed ++ rest⟩, signature.forces operands ++ records⟩) :
    Step place (capability answers) instruction before effect := by
  rcases before with ⟨locals, stack⟩
  subst stackEq effectEq
  exact .consume known count pushes

theorem forces_of_unmarked {signature : Signature} (operands : List Value)
    (unmarked : ∀ mark ∈ signature.operands, mark = false) : signature.forces operands = [] := by
  rw [Signature.forces, List.flatMap_eq_nil_iff]
  rintro ⟨mark, value⟩ found
  simp [unmarked mark (List.of_mem_zip found).1]

theorem forces_of_marked {signature : Signature} {operands : List Value}
    (count : operands.length = signature.operands.length)
    (marked : ∀ mark ∈ signature.operands, mark = true) :
    signature.forces operands = operands.flatMap Value.forces := by
  rcases signature with ⟨marks, leaves⟩
  simp only [Signature.forces] at *
  induction marks generalizing operands with
  | nil =>
      rw [List.length_eq_zero_iff.1 count]
      rfl
  | cons mark marks ih =>
      cases operands with
      | nil => simp at count
      | cons value operands =>
          rw [List.zip_cons_cons, List.flatMap_cons, List.flatMap_cons,
            ih (Nat.succ.inj count) fun mark found => marked mark (List.mem_cons_of_mem _ found)]
          simp [marked mark List.mem_cons_self]

theorem pushes_capable {type : FieldType} {className : String} {form : LeftForm}
    (typed : type = .object className) (answered : answers className = .ok true) :
    (Leaves.ofType (capability answers) form type).Pushes place.site
      [.capableAt className place.site] [.record { action := .keep, left := form, className }] := by
  subst typed
  rw [Leaves.ofType, capability_of_ok answered, if_pos rfl]
  exact .capable

theorem pushes_ofValue {value : Value} (isPlain : value.isCapable = false) :
    (Leaves.ofValue value).Pushes place.site [value] [] := by
  cases isReference : value.isReference with
  | true =>
      rw [Leaves.ofValue, if_pos isReference]
      exact .reference isPlain
  | false =>
      rw [Leaves.ofValue, if_neg (Bool.eq_false_iff.1 isReference)]
      exact .plain isReference

@[simp]
theorem isCapable_ofType (type : FieldType) : (Value.ofType type).isCapable = false := by
  cases type with
  | primitive type => cases type <;> rfl
  | object className => rfl
  | array element => rfl

theorem pushes_ofType {type : FieldType} {form : LeftForm}
    (answered : ∀ className, type = .object className → answers className = .ok false) :
    (Leaves.ofType (capability answers) form type).Pushes place.site [.ofType type] [] := by
  cases type with
  | object className =>
      rw [Leaves.ofType, capability_of_ok (answered className rfl), if_neg Bool.false_ne_true]
      exact .reference rfl
  | primitive type => exact pushes_ofValue (isCapable_ofType (.primitive type))
  | array element => exact .reference rfl

/-- Putting on the stack a value that has no value form. -/
theorem step_push {value : Value}
    (known : instruction.signature? place.pool (capability answers) =
      some ⟨[], .ofValue value⟩)
    (isPlain : value.isCapable = false)
    (yields : Transfer.Yields answers (Transfer.push value) ⟨before, []⟩ ended effect) :
    Step place (capability answers) instruction before effect := by
  rw [Transfer.yields_push] at yields
  have count : ([] : List Value).length = ([] : List Bool).length := rfl
  exact .of_consume known (pushes_ofValue isPlain) count rfl yields

/-- Computing a value without value form from operands of any form. -/
theorem step_replace (marks : List Bool) {value : Value}
    (known : instruction.signature? place.pool (capability answers) =
      some ⟨marks, .ofValue value⟩)
    (unmarked : ∀ mark ∈ marks, mark = false) (isPlain : value.isCapable = false)
    (yields : Transfer.Yields answers (Transfer.replace place marks.length value) ⟨before, []⟩ ended
      effect) :
    Step place (capability answers) instruction before effect := by
  obtain ⟨operands, rest, stackEq, count, rfl⟩ := Transfer.yields_replace.1 yields
  refine .of_consume known (pushes_ofValue isPlain) count stackEq ?_
  rw [forces_of_unmarked _ unmarked]
  rfl

/-- Taking operands of any form off the stack. -/
theorem step_discard (marks : List Bool)
    (known : instruction.signature? place.pool (capability answers) = some ⟨marks, .nothing⟩)
    (unmarked : ∀ mark ∈ marks, mark = false)
    (yields : Transfer.Yields answers (discard (Transfer.popMany place marks.length)) ⟨before, []⟩
      ended effect) :
    Step place (capability answers) instruction before effect := by
  obtain ⟨operands, popped⟩ := Transfer.yields_discard.1 yields
  obtain ⟨rest, stackEq, count, rfl⟩ := Transfer.yields_popMany.1 popped
  refine .of_consume known .nothing count stackEq ?_
  rw [forces_of_unmarked _ unmarked]
  rfl

/-- Taking references off the stack. -/
theorem step_requireAll (marks : List Bool)
    (known : instruction.signature? place.pool (capability answers) = some ⟨marks, .nothing⟩)
    (marked : ∀ mark ∈ marks, mark = true)
    (yields : Transfer.Yields answers
      (Transfer.popMany place marks.length >>= fun operands =>
        operands.forM Transfer.requireReference) ⟨before, []⟩ ended effect) :
    Step place (capability answers) instruction before effect := by
  obtain ⟨operands, _, popped, required⟩ := Transfer.yields_bind.1 yields
  obtain ⟨rest, stackEq, count, rfl⟩ := Transfer.yields_popMany.1 popped
  rw [Transfer.yields_forM_requireReference] at required
  refine .of_consume known .nothing count stackEq ?_
  rw [required, forces_of_marked count marked, List.append_nil]
  rfl

/-- Taking one operand of any form off the stack. -/
theorem step_discardTop
    (known : instruction.signature? place.pool (capability answers) = some ⟨[false], .nothing⟩)
    (yields : Transfer.Yields answers (discard (Transfer.pop place)) ⟨before, []⟩ ended effect) :
    Step place (capability answers) instruction before effect := by
  obtain ⟨value, popped⟩ := Transfer.yields_discard.1 yields
  obtain ⟨rest, stackEq, rfl⟩ := Transfer.yields_pop.1 popped
  have count : [value].length = [false].length := rfl
  exact .of_consume known .nothing count stackEq rfl

/-- Taking one reference off the stack. -/
theorem step_requireTop
    (known : instruction.signature? place.pool (capability answers) = some ⟨[true], .nothing⟩)
    (yields : Transfer.Yields answers (Transfer.pop place >>= Transfer.requireReference)
      ⟨before, []⟩ ended effect) :
    Step place (capability answers) instruction before effect := by
  obtain ⟨value, _, popped, required⟩ := Transfer.yields_bind.1 yields
  obtain ⟨rest, stackEq, rfl⟩ := Transfer.yields_pop.1 popped
  rw [Transfer.yields_requireReference] at required
  have count : [value].length = [true].length := rfl
  refine .of_consume known .nothing count stackEq ?_
  rw [required, forces_of_marked count (by simp), List.append_nil]
  simp

@[simp]
theorem isCapable_localKind (kind : LocalKind) : kind.value.isCapable = false := by
  cases kind <;> rfl

/-- A loadable constant has no value form, and is what its entry says. -/
theorem constantValue_spec {index : UInt16} {value : Value} {start after : Effect}
    (yields : Transfer.Yields answers (Transfer.constantValue place index) start value after) :
    start = after ∧ place.pool.loaded? index = some (.ofValue value) ∧
      value.isCapable = false := by
  simp only [Transfer.constantValue, Transfer.yields_bind, Transfer.yields_require] at yields
  obtain ⟨constant, _, ⟨found, rfl⟩, yields⟩ := yields
  cases constant with
  | dynamic bootstrap nameAndType =>
      simp only [Transfer.yields_bind, Transfer.yields_require, Transfer.yields_fieldType,
        Transfer.yields_pure] at yields
      obtain ⟨⟨name, descriptor⟩, _, ⟨named, rfl⟩, type, _, ⟨typed, rfl⟩, rfl, rfl⟩ := yields
      exact ⟨rfl, by simp [ConstantPool.loaded?, found, named, typed], isCapable_ofType type⟩
  | integer | float | long | double | string | classRef | methodType | methodHandle =>
      obtain ⟨rfl, rfl⟩ := Transfer.yields_pure.1 yields
      exact ⟨rfl, by rw [ConstantPool.loaded?, found]; rfl, rfl⟩
  | _ => simp only [Transfer.yields_fail] at yields

theorem step_loadConstant {index : UInt16}
    (known : instruction.signature? place.pool (capability answers) =
      (place.pool.loaded? index).map (Signature.mk []))
    (yields : Transfer.Yields answers
      (Transfer.constantValue place index >>= fun value => Transfer.push value)
      ⟨before, []⟩ ended effect) :
    Step place (capability answers) instruction before effect := by
  obtain ⟨value, _, loaded, pushed⟩ := Transfer.yields_bind.1 yields
  obtain ⟨rfl, isLoaded, isPlain⟩ := constantValue_spec loaded
  rw [isLoaded] at known
  exact step_push known isPlain pushed

theorem step_loadLocal {kind : LocalKind} {slot : UInt16}
    (reads : instruction.localLoad? = some (kind, slot))
    (yields : Transfer.Yields answers (Transfer.loadLocal place kind slot) ⟨before, []⟩ ended
      effect) :
    Step place (capability answers) instruction before effect := by
  rw [Transfer.loadLocal, Transfer.yields_bind] at yields
  obtain ⟨value, _, got, loaded⟩ := yields
  obtain ⟨found, rfl⟩ := Transfer.yields_getLocal.1 got
  by_cases isCapable : kind = .reference ∧ value.isCapable = true
  · obtain ⟨rfl, isCapable⟩ := isCapable
    cases value with
    | capable className contents =>
        simp only [Transfer.yields_bind, Transfer.yields_edit, Transfer.yields_record,
          Transfer.yields_pushCapable] at loaded
        obtain ⟨_, _, rfl, _, _, rfl, rfl⟩ := loaded
        exact .loadValue reads found
    | _ => simp [Value.isCapable] at isCapable
  · have isPlain : kind = .reference → value.isCapable = false := fun isReference =>
      Bool.eq_false_iff.2 fun capable => isCapable ⟨isReference, capable⟩
    have pushed : effect = ⟨before.push (if kind = .reference then value else kind.value), []⟩ := by
      cases kind with
      | reference =>
          cases value with
          | capable className contents => simp [Value.isCapable] at isCapable
          | _ => simpa [Frame.push] using loaded
      | _ => simpa [Frame.push] using loaded
    rw [pushed]
    exact .load reads found isPlain

theorem step_storeLocal {kind : LocalKind} {slot : UInt16}
    (writes : instruction.localStore? = some (kind, slot))
    (yields : Transfer.Yields answers (Transfer.storeLocal place kind slot) ⟨before, []⟩ ended
      effect) :
    Step place (capability answers) instruction before effect := by
  rw [Transfer.storeLocal, Transfer.yields_bind] at yields
  obtain ⟨value, _, popped, stored⟩ := yields
  obtain ⟨rest, stackEq, rfl⟩ := Transfer.yields_pop.1 popped
  rcases before with ⟨locals, stack⟩
  subst stackEq
  by_cases isCapable : kind = .reference ∧ value.isCapable = true
  · obtain ⟨rfl, isCapable⟩ := isCapable
    cases value with
    | capable className operand =>
        simp only [Transfer.yields_bind, Transfer.yields_edit, Transfer.yields_record,
          Transfer.yields_setLocal] at stored
        obtain ⟨_, _, rfl, _, _, rfl, after, done, rfl⟩ := stored
        exact .storeValue writes done
    | _ => simp [Value.isCapable] at isCapable
  · have isPlain : kind = .reference → value.isCapable = false := fun isReference =>
      Bool.eq_false_iff.2 fun capable => isCapable ⟨isReference, capable⟩
    have stored : ∃ after, (⟨locals, rest⟩ : Frame).setLocal slot
        (if kind = .reference then value else kind.value) = .ok after ∧ effect = ⟨after, []⟩ := by
      cases kind with
      | reference =>
          cases value with
          | capable className operand => simp [Value.isCapable] at isCapable
          | _ => simpa using stored
      | _ => simpa using stored
    obtain ⟨after, done, rfl⟩ := stored
    exact .store writes isPlain done

theorem step_loadElement
    (yields : Transfer.Yields answers (Transfer.loadElement place) ⟨before, []⟩ ended effect) :
    Step place (capability answers) (.arrayLoad .reference) before effect := by
  simp only [Transfer.loadElement, Transfer.yields_bind, Transfer.yields_discard,
    Transfer.yields_pop] at yields
  obtain ⟨_, _, ⟨position, _, stackEq, rfl⟩, array, _, ⟨rest, arrayEq, rfl⟩, loaded⟩ := yields
  have plain (value : Value) (isPlain : value.isCapable = false)
      (pushed : effect = ⟨⟨before.locals, value :: rest⟩, []⟩) :
      Step place (capability answers) (.arrayLoad .reference) before effect := by
    have count : [array, position].length = [false, false].length := rfl
    exact .of_consume rfl (.reference isPlain) count
      (stackEq.trans (congrArg (position :: ·) arrayEq)) pushed
  cases array with
  | precise type =>
      cases type with
      | array element =>
          simp only [Transfer.yields_bind] at loaded
          obtain ⟨found, _, asked, loaded⟩ := loaded
          obtain ⟨rfl, ⟨className, rfl, rfl, answered⟩ | ⟨rfl, _⟩⟩ :=
            Transfer.yields_capableClass? asked
          · cases isFlat : place.flatArrays with
            | true =>
                simp only [isFlat, if_true, Transfer.yields_bind, Transfer.yields_record,
                  Transfer.yields_pushCapable] at loaded
                obtain ⟨_, _, rfl, rfl⟩ := loaded
                rcases before with ⟨locals, stack⟩
                subst stackEq arrayEq
                exact .loadElement isFlat (capability_of_ok answered)
            | false =>
                simp only [isFlat, Bool.false_eq_true, if_false, Transfer.yields_push] at loaded
                exact plain _ rfl loaded
          · exact plain _ (isCapable_ofType _) (Transfer.yields_push.1 loaded)
      | _ => exact plain _ rfl (Transfer.yields_push.1 loaded)
  | _ => exact plain _ rfl (Transfer.yields_push.1 loaded)

/-- An array of values is known to be one of a value-capable class. -/
theorem valueElement?_spec {array : Value} {start after : Effect} {found : Option String}
    (yields : Transfer.Yields answers (Transfer.valueElement? place array) start found after) :
    start = after ∧ ∀ className, found = some className →
      array = .precise (.array (.object className)) ∧ place.flatArrays = true ∧
        answers className = .ok true := by
  have missing (ended : Transfer.Yields answers (pure none) start found after) :
      start = after ∧ ∀ className, found = some className →
        array = .precise (.array (.object className)) ∧ place.flatArrays = true ∧
          answers className = .ok true := by
    obtain ⟨rfl, rfl⟩ := Transfer.yields_pure.1 ended
    exact ⟨rfl, fun className isSome => by simp at isSome⟩
  cases array with
  | precise type =>
      cases type with
      | array element =>
          cases isFlat : place.flatArrays with
          | true =>
              simp only [Transfer.valueElement?, isFlat, if_true] at yields
              obtain ⟨rfl, ⟨className, rfl, rfl, answered⟩ | ⟨rfl, _⟩⟩ :=
                Transfer.yields_capableClass? yields
              · refine ⟨rfl, fun other same => ?_⟩
                obtain rfl := Option.some.inj same
                exact ⟨rfl, rfl, answered⟩
              · exact ⟨rfl, fun className isSome => by simp at isSome⟩
          | false =>
              simp only [Transfer.valueElement?, isFlat, Bool.false_eq_true, if_false] at yields
              rw [← isFlat]
              exact missing yields
      | _ => exact missing yields
  | _ => exact missing yields

theorem step_storeElement
    (yields : Transfer.Yields answers (Transfer.storeElement place) ⟨before, []⟩ ended effect) :
    Step place (capability answers) (.arrayStore .reference) before effect := by
  simp only [Transfer.storeElement, Transfer.yields_bind, Transfer.yields_discard,
    Transfer.yields_pop] at yields
  obtain ⟨value, _, ⟨_, stackEq, rfl⟩, _, _, ⟨position, _, positionEq, rfl⟩, array, _,
    ⟨rest, arrayEq, rfl⟩, found, _, asked, stored⟩ := yields
  obtain ⟨rfl, isValueArray⟩ := valueElement?_spec asked
  rcases before with ⟨locals, stack⟩
  subst stackEq positionEq arrayEq
  cases found with
  | none =>
      rw [Transfer.yields_requireReference] at stored
      have count : [array, position, value].length = [false, false, true].length := rfl
      refine .of_consume rfl .nothing count rfl ?_
      rw [stored]
      simp [Signature.forces]
  | some element =>
      obtain ⟨rfl, isFlat, answered⟩ := isValueArray element rfl
      have isCapable := capability_of_ok answered
      -- Only an instance of the element class itself is stored in value form.
      cases value with
      | capable className operand =>
          by_cases same : className = element
          · subst same
            simp only [if_true, Transfer.yields_bind, Transfer.yields_edit,
              Transfer.yields_record] at stored
            obtain ⟨_, _, rfl, rfl⟩ := stored
            exact .storeElement isFlat isCapable
          · simp only [same, if_false, Transfer.yields_bind, Transfer.yields_edit,
              Transfer.yields_record] at stored
            obtain ⟨_, _, rfl, rfl⟩ := stored
            exact .convertElement isFlat isCapable
      | _ =>
          rw [Transfer.yields_record] at stored
          subst stored
          exact .convertElement isFlat isCapable

theorem step_readStatic {index : UInt16}
    (yields : Transfer.Yields answers (Transfer.readStatic place index) ⟨before, []⟩ ended
      effect) :
    Step place (capability answers) (.getStatic index) before effect := by
  simp only [Transfer.readStatic, Transfer.yields_bind, Transfer.yields_memberOperand,
    Transfer.yields_fieldType] at yields
  obtain ⟨field, _, ⟨member, rfl⟩, type, _, ⟨typed, rfl⟩, found, _, asked, read⟩ := yields
  have known : (Instruction.getStatic index).signature? place.pool (capability answers) =
      some ⟨[], .ofType (capability answers) .value type⟩ := by
    simp [signature?, ConstantPool.fieldType?, member, typed]
  have count : ([] : List Value).length = ([] : List Bool).length := rfl
  obtain ⟨rfl, ⟨className, rfl, isClass, answered⟩ | ⟨rfl, answered⟩⟩ :=
    Transfer.yields_capableClass? asked
  · simp only [Transfer.yields_bind, Transfer.yields_record, Transfer.yields_pushCapable] at read
    obtain ⟨_, _, rfl, rfl⟩ := read
    exact .of_consume known (pushes_capable isClass answered) count rfl rfl
  · rw [Transfer.yields_push] at read
    exact .of_consume known (pushes_ofType answered) count rfl read

theorem step_readField {index : UInt16}
    (yields : Transfer.Yields answers (Transfer.readField place index) ⟨before, []⟩ ended
      effect) :
    Step place (capability answers) (.getField index) before effect := by
  simp only [Transfer.readField, Transfer.yields_bind, Transfer.yields_memberOperand,
    Transfer.yields_pop, Transfer.yields_fieldType] at yields
  obtain ⟨field, _, ⟨member, rfl⟩, receiver, _, ⟨rest, stackEq, rfl⟩, type, _, ⟨typed, rfl⟩,
    found, _, asked, read⟩ := yields
  have fieldTyped : place.pool.fieldType? index = some type := by
    simp [ConstantPool.fieldType?, member, typed]
  have known : (Instruction.getField index).signature? place.pool (capability answers) =
      some ⟨[true], .ofType (capability answers) .value type⟩ := by
    simp [signature?, fieldTyped]
  have count (value : Value) : [value].length = [true].length := rfl
  rcases before with ⟨locals, stack⟩
  subst stackEq
  obtain ⟨rfl, ⟨className, rfl, rfl, answered⟩ | ⟨rfl, answered⟩⟩ :=
    Transfer.yields_capableClass? asked
  · cases receiver with
    | capable owner sites =>
        simp only [Transfer.yields_bind, Transfer.yields_edit, Transfer.yields_record,
          Transfer.yields_pushCapable] at read
        obtain ⟨_, _, rfl, _, _, rfl, rfl⟩ := read
        exact .readCapable fieldTyped (capability_of_ok answered)
    | _ =>
        simp only [Transfer.yields_bind, Transfer.yields_record,
          Transfer.yields_pushCapable] at read
        obtain ⟨_, _, rfl, rfl⟩ := read
        exact .of_consume known (pushes_capable rfl answered) (count _) rfl rfl
  · cases receiver with
    | capable owner sites =>
        simp only [Transfer.yields_bind, Transfer.yields_edit, Transfer.yields_record,
          Transfer.yields_push] at read
        obtain ⟨_, _, rfl, _, _, rfl, rfl⟩ := read
        exact .readPlain member typed fun className isClass =>
          capability_of_ok (answered className isClass)
    | _ =>
        rw [Transfer.yields_push] at read
        exact .of_consume known (pushes_ofType answered) (count _) rfl read

theorem pushResult_spec {type : FieldType} {start after : Effect}
    (yields : Transfer.Yields answers (Transfer.pushResult place type) start ended after) :
    ∃ pushed records,
      (Leaves.ofResult (capability answers) type).Pushes place.site pushed records ∧
        after = ⟨⟨start.frame.locals, pushed ++ start.frame.stack⟩, start.edits ++ records⟩ := by
  rw [Transfer.pushResult] at yields
  by_cases isVoid : type = .void
  · rw [if_pos isVoid, Transfer.yields_pure] at yields
    refine ⟨[], [], ?_, ?_⟩
    · rw [Leaves.ofResult, if_pos isVoid]
      exact .nothing
    · rw [← yields.2, List.append_nil]
      rfl
  · rw [if_neg isVoid, Transfer.yields_bind] at yields
    obtain ⟨found, _, asked, pushed⟩ := yields
    rw [Leaves.ofResult, if_neg isVoid]
    obtain ⟨rfl, ⟨className, rfl, isClass, answered⟩ | ⟨rfl, answered⟩⟩ :=
      Transfer.yields_capableClass? asked
    · simp only [Transfer.yields_bind, Transfer.yields_record,
        Transfer.yields_pushCapable] at pushed
      obtain ⟨_, _, rfl, rfl⟩ := pushed
      exact ⟨_, _, pushes_capable isClass answered, rfl⟩
    · rw [Transfer.yields_push] at pushed
      refine ⟨_, _, pushes_ofType answered, ?_⟩
      rw [pushed, List.append_nil]
      rfl

/-- A call that is no constructor call takes references and leaves its
result. -/
theorem step_invoke {descriptor : String} {type : MethodType} {hasReceiver : Bool}
    (typed : MethodType.parse? descriptor = some type)
    (known : instruction.signature? place.pool (capability answers) =
      some (type.signature (capability answers) hasReceiver))
    (yields : Transfer.Yields answers (Transfer.invoke place descriptor hasReceiver false)
      ⟨before, []⟩ ended effect) :
    Step place (capability answers) instruction before effect := by
  simp only [Transfer.invoke, Transfer.yields_bind, Transfer.yields_require,
    Transfer.yields_popMany, typed, Option.some.injEq] at yields
  obtain ⟨_, _, ⟨rfl, rfl⟩, arguments, _, ⟨rest, stackEq, count, rfl⟩, yields⟩ := yields
  have marked : ∀ mark ∈ (type.signature (capability answers) hasReceiver).operands, mark = true :=
    fun mark found => (List.mem_replicate.1 found).2
  cases hasReceiver with
  | true =>
      simp only [if_true, Transfer.yields_bind, Transfer.yields_pop,
        Transfer.yields_requireReference, Transfer.yields_forM_requireReference,
        Bool.false_eq_true, if_false] at yields
      obtain ⟨receiver, _, ⟨below, receiverEq, rfl⟩, _, _, rfl, _, _, rfl, result⟩ := yields
      obtain ⟨pushed, records, pushes, rfl⟩ := pushResult_spec result
      have length : (receiver :: arguments).length =
          (type.signature (capability answers) true).operands.length := by
        simp [MethodType.signature, count]
      have operandsEq : before.stack = (receiver :: arguments).reverse ++ below := by
        rw [stackEq, receiverEq, List.reverse_cons, List.append_assoc]
        rfl
      refine .of_consume known pushes length operandsEq ?_
      rw [forces_of_marked length marked]
      simp
  | false =>
      simp only [Bool.false_eq_true, if_false, Transfer.yields_bind,
        Transfer.yields_forM_requireReference] at yields
      obtain ⟨_, _, rfl, result⟩ := yields
      obtain ⟨pushed, records, pushes, rfl⟩ := pushResult_spec result
      have length : arguments.length =
          (type.signature (capability answers) false).operands.length := by
        simp [MethodType.signature, count]
      refine .of_consume known pushes length stackEq ?_
      rw [forces_of_marked length marked]
      simp

/-- A constructor call on a receiver that is no instance of a value-capable
class is a call like any other. -/
theorem step_invokeConstructor {index : UInt16} {method : MemberRef} {type : MethodType}
    (member : place.pool.member? index = some method) (isConstructor : method.name = "<init>")
    (typed : MethodType.parse? method.descriptor = some type)
    (yields : Transfer.Yields answers (Transfer.invoke place method.descriptor true true)
      ⟨before, []⟩ ended effect) :
    Step place (capability answers) (.invokeSpecial index) before effect := by
  have opened := yields
  simp only [Transfer.invoke, Transfer.yields_bind, Transfer.yields_require,
    Transfer.yields_popMany, typed, Option.some.injEq, if_true, Transfer.yields_pop,
    Transfer.yields_requireReference, Transfer.yields_forM_requireReference] at opened
  obtain ⟨_, _, ⟨rfl, rfl⟩, arguments, _, ⟨rest, stackEq, count, rfl⟩, receiver, _,
    ⟨below, receiverEq, rfl⟩, _, _, rfl, _, _, rfl, _, _, constructed, result⟩ := opened
  subst receiverEq
  -- Without provenance there is nothing to construct, and the same run is one of
  -- a method that is no constructor.
  have plain (isPlain : receiver.isCapable = false) :
      Step place (capability answers) (.invokeSpecial index) before effect := by
    have known : (Instruction.invokeSpecial index).signature? place.pool (capability answers) =
        some (type.signature (capability answers) true) := by
      simp [signature?, ConstantPool.methodType?, member, typed]
    apply step_invoke typed known
    have skipped : Transfer.construct place receiver = pure () := by
      cases receiver with
      | capable className sites => simp [Value.isCapable] at isPlain
      | _ => rfl
    simp only [Transfer.invoke, Transfer.yields_bind, Transfer.yields_require,
      Transfer.yields_popMany, typed, Option.some.injEq, if_true, Transfer.yields_pop,
      Transfer.yields_requireReference, Transfer.yields_forM_requireReference,
      Bool.false_eq_true, if_false]
    rw [skipped, Transfer.yields_pure] at constructed
    obtain ⟨_, rfl⟩ := constructed
    exact ⟨type, _, ⟨rfl, rfl⟩, arguments, _, ⟨_, stackEq, count, rfl⟩, receiver, _,
      ⟨below, rfl, rfl⟩, (), _, rfl, (), _, rfl, result⟩
  cases receiver with
  | capable className sites =>
      simp only [Transfer.construct, Transfer.yields_bind, Transfer.yields_record,
        Transfer.yields_modify] at constructed
      obtain ⟨_, _, rfl, rfl⟩ := constructed
      obtain ⟨pushed, records, pushes, rfl⟩ := pushResult_spec result
      rcases before with ⟨locals, stack⟩
      subst stackEq
      exact .construct member isConstructor typed count pushes
  | _ => exact plain rfl

theorem step_invokeMember {index : UInt16} {hasReceiver isSpecial : Bool}
    (known : instruction.signature? place.pool (capability answers) =
      (place.pool.methodType? index).map (MethodType.signature (capability answers) hasReceiver))
    (special : isSpecial = true → instruction = .invokeSpecial index ∧ hasReceiver = true)
    (yields : Transfer.Yields answers (Transfer.invokeMember place index hasReceiver isSpecial)
      ⟨before, []⟩ ended effect) :
    Step place (capability answers) instruction before effect := by
  simp only [Transfer.invokeMember, Transfer.yields_bind, Transfer.yields_memberOperand] at yields
  obtain ⟨method, _, ⟨member, rfl⟩, invoked⟩ := yields
  have opened := invoked
  simp only [Transfer.invoke, Transfer.yields_bind, Transfer.yields_require] at opened
  obtain ⟨type, _, ⟨typed, -⟩, -⟩ := opened
  have methodTyped : place.pool.methodType? index = some type := by
    simp [ConstantPool.methodType?, member, typed]
  rw [methodTyped, Option.map_some] at known
  cases isConstructor : isSpecial && method.name == "<init>" with
  | true =>
      rw [Bool.and_eq_true, beq_iff_eq] at isConstructor
      obtain ⟨rfl, rfl⟩ := special isConstructor.1
      rw [isConstructor.1, isConstructor.2] at invoked
      exact step_invokeConstructor member isConstructor.2 typed invoked
  | false =>
      rw [isConstructor] at invoked
      exact step_invoke typed known invoked

theorem step_invokeCallSite {index filler : UInt16}
    (yields : Transfer.Yields answers (Transfer.invokeCallSite place index) ⟨before, []⟩ ended
      effect) :
    Step place (capability answers) (.invokeDynamic index filler) before effect := by
  simp only [Transfer.invokeCallSite, Transfer.yields_bind, Transfer.yields_require] at yields
  obtain ⟨⟨name, descriptor⟩, _, ⟨callSite, rfl⟩, invoked⟩ := yields
  have opened := invoked
  simp only [Transfer.invoke, Transfer.yields_bind, Transfer.yields_require] at opened
  obtain ⟨type, _, ⟨typed, -⟩, -⟩ := opened
  have known : (Instruction.invokeDynamic index filler).signature? place.pool
      (capability answers) = some (type.signature (capability answers) false) := by
    split at callSite
    · next found =>
        rw [signature?, ConstantPool.callSiteType?, found]
        simp [callSite, typed]
    · simp at callSite
  exact step_invoke typed known invoked

theorem step_allocate {index : UInt16}
    (yields : Transfer.Yields answers (Transfer.allocate place index) ⟨before, []⟩ ended effect) :
    Step place (capability answers) (.new index) before effect := by
  simp only [Transfer.allocate, Transfer.yields_bind, Transfer.yields_classOperand,
    Transfer.yields_isCapable] at yields
  obtain ⟨className, _, ⟨named, rfl⟩, capable, _, ⟨answered, rfl⟩, pushed⟩ := yields
  cases capable with
  | true =>
      simp only [if_true, Transfer.yields_pushCapable] at pushed
      subst pushed
      exact .allocate named (capability_of_ok answered)
  | false =>
      simp only [Bool.false_eq_true, if_false] at pushed
      exact step_push rfl rfl pushed

theorem step_createArray {index : UInt16}
    (yields : Transfer.Yields answers (Transfer.createArray place index) ⟨before, []⟩ ended
      effect) :
    Step place (capability answers) (.newReferenceArray index) before effect := by
  simp only [Transfer.createArray, Transfer.yields_bind, Transfer.yields_discard,
    Transfer.yields_pop, Transfer.yields_namedType] at yields
  obtain ⟨_, _, ⟨length, rest, stackEq, rfl⟩, element, _, ⟨⟨name, named, typed⟩, rfl⟩,
    created⟩ := yields
  have plain (pushed : Transfer.Yields answers
      (Transfer.push (.precise (.array element))) ⟨⟨before.locals, rest⟩, []⟩ ended effect) :
      Step place (capability answers) (.newReferenceArray index) before effect := by
    have count : [length].length = [false].length := rfl
    rw [Transfer.yields_push] at pushed
    exact .of_consume rfl (.reference rfl) count stackEq pushed
  cases isFlat : place.flatArrays with
  | true =>
      simp only [isFlat, if_true, Transfer.yields_bind] at created
      obtain ⟨found, _, asked, created⟩ := created
      obtain ⟨rfl, ⟨className, rfl, rfl, answered⟩ | ⟨rfl, _⟩⟩ :=
        Transfer.yields_capableClass? asked
      · simp only [Transfer.yields_bind, Transfer.yields_record, Transfer.yields_push] at created
        obtain ⟨_, _, rfl, rfl⟩ := created
        rcases before with ⟨locals, stack⟩
        subst stackEq
        exact .createArray isFlat (capability_of_ok answered)
          (by simp [ConstantPool.namedType?, named, typed])
      · exact plain created
  | false =>
      simp only [isFlat, Bool.false_eq_true, if_false] at created
      exact plain created

theorem step_cast {index : UInt16}
    (yields : Transfer.Yields answers (Transfer.cast place index) ⟨before, []⟩ ended effect) :
    Step place (capability answers) (.checkCast index) before effect := by
  simp only [Transfer.cast, Transfer.yields_bind, Transfer.yields_pop,
    Transfer.yields_requireReference, Transfer.yields_namedType] at yields
  obtain ⟨value, _, ⟨rest, stackEq, rfl⟩, _, _, rfl, type, _, ⟨⟨name, named, typed⟩, rfl⟩, found, _,
    asked, left⟩ := yields
  have known : (Instruction.checkCast index).signature? place.pool (capability answers) =
      some ⟨[true], .ofType (capability answers) .object type⟩ := by
    simp [signature?, ConstantPool.namedType?, named, typed]
  have count : [value].length = [true].length := rfl
  obtain ⟨rfl, ⟨className, rfl, isClass, answered⟩ | ⟨rfl, answered⟩⟩ :=
    Transfer.yields_capableClass? asked
  · simp only [Transfer.yields_bind, Transfer.yields_record, Transfer.yields_pushCapable] at left
    obtain ⟨_, _, rfl, rfl⟩ := left
    refine .of_consume known (pushes_capable isClass answered) count stackEq ?_
    simp [Signature.forces]
  · rw [Transfer.yields_push] at left
    -- Class constants name no primitive types.
    have isPrecise : Value.ofType type = .precise type := by
      have isNamed := FieldType.internalName?_of_ofInternalName? typed
      cases type with
      | primitive => cases isNamed
      | object | array => rfl
    refine .of_consume known (pushes_ofType answered) count stackEq ?_
    simp [left, Signature.forces, isPrecise]

theorem step_useMonitor
    (known : instruction.signature? place.pool (capability answers) = some ⟨[true], .nothing⟩)
    (yields : Transfer.Yields answers (Transfer.useMonitor place) ⟨before, []⟩ ended effect) :
    Step place (capability answers) instruction before effect := by
  simp only [Transfer.useMonitor, Transfer.yields_bind, Transfer.yields_pop] at yields
  obtain ⟨value, _, ⟨rest, stackEq, rfl⟩, used⟩ := yields
  have count : [value].length = [true].length := rfl
  cases value with
  | capable className sites => simp [Value.isCapable] at used
  | _ =>
      simp only [Value.isCapable, Bool.false_eq_true, if_false, Transfer.yields_pure] at used
      exact .of_consume known .nothing count stackEq used.2.symm

theorem step_test {condition : BranchTest} {offset : Int16}
    (yields : Transfer.Yields answers (Transfer.test place condition) ⟨before, []⟩ ended effect) :
    Step place (capability answers) (.branch condition offset) before effect := by
  cases condition with
  | eq | ne | lt | ge | gt | le => exact step_discardTop rfl yields
  | intEq | intNe | intLt | intGe | intGt | intLe =>
      exact step_discard [false, false] rfl (by simp) yields
  | refEq | refNe => exact step_requireAll [true, true] rfl (by simp) yields
  | null | nonNull => exact step_requireTop rfl yields

theorem step_giveBack {kind : ReturnKind}
    (yields : Transfer.Yields answers (Transfer.giveBack place kind) ⟨before, []⟩ ended effect) :
    Step place (capability answers) (.leave kind) before effect := by
  cases kind with
  | void =>
      have count : ([] : List Value).length = ([] : List Bool).length := rfl
      exact .of_consume rfl .nothing count rfl (Transfer.yields_pure.1 yields).2.symm
  | reference => exact step_requireTop rfl yields
  | int | long | float | double => exact step_discardTop rfl yields

theorem step_arrayLoad {kind : ArrayKind}
    (yields : Transfer.Yields answers ((Instruction.arrayLoad kind).rule place) ⟨before, []⟩ ended
      effect) :
    Step place (capability answers) (.arrayLoad kind) before effect := by
  cases kind with
  | reference => exact step_loadElement yields
  | _ => exact step_replace [false, false] rfl (by simp) rfl yields

theorem step_arrayStore {kind : ArrayKind}
    (yields : Transfer.Yields answers ((Instruction.arrayStore kind).rule place) ⟨before, []⟩ ended
      effect) :
    Step place (capability answers) (.arrayStore kind) before effect := by
  cases kind with
  | reference => exact step_storeElement yields
  | _ => exact step_discard [false, false, false] rfl (by simp) yields

theorem step_newMultiArray {index : UInt16} {dimensions : UInt8}
    (yields : Transfer.Yields answers ((Instruction.newMultiArray index dimensions).rule place)
      ⟨before, []⟩ ended effect) :
    Step place (capability answers) (.newMultiArray index dimensions) before effect := by
  simp only [rule, Transfer.yields_bind, Transfer.yields_discard, Transfer.yields_popMany,
    Transfer.yields_namedType, Transfer.yields_push] at yields
  obtain ⟨_, _, ⟨operands, rest, stackEq, count, rfl⟩, type, _, ⟨_, rfl⟩, rfl⟩ := yields
  have unmarked : ∀ mark ∈ List.replicate dimensions.toNat false, mark = false :=
    fun mark found => (List.mem_replicate.1 found).2
  have isPlain : (Value.precise type).isCapable = false := rfl
  refine .of_consume rfl (.reference isPlain) (by rw [count, List.length_replicate]) stackEq ?_
  rw [forces_of_unmarked _ unmarked]
  rfl

theorem step_instanceOf {index : UInt16}
    (yields : Transfer.Yields answers ((Instruction.instanceOf index).rule place) ⟨before, []⟩
      ended effect) :
    Step place (capability answers) (.instanceOf index) before effect := by
  simp only [rule, Transfer.yields_bind, Transfer.yields_pop, Transfer.yields_requireReference,
    Transfer.yields_push] at yields
  obtain ⟨value, _, ⟨rest, stackEq, rfl⟩, _, _, rfl, rfl⟩ := yields
  have count : [value].length = [true].length := rfl
  have isPlain : Value.int.isReference = false := rfl
  refine .of_consume rfl (.plain isPlain) count stackEq ?_
  simp [Signature.forces]

theorem step_increment {slot : UInt16} (increments : instruction.incremented? = some slot)
    (yields : Transfer.Yields answers (Transfer.setLocal place slot .int) ⟨before, []⟩ ended
      effect) :
    Step place (capability answers) instruction before effect := by
  obtain ⟨after, done, rfl⟩ := Transfer.yields_setLocal.1 yields
  exact .increment increments done

theorem step_shuffle {op : StackOp}
    (yields : Transfer.Yields answers (Transfer.shuffle place op) ⟨before, []⟩ ended effect) :
    Step place (capability answers) (.stack op) before effect := by
  obtain ⟨stack, done, rfl⟩ := Transfer.yields_shuffle.1 yields
  exact .shuffle done

theorem rule_step (yields : Transfer.Yields answers (instruction.rule place) ⟨before, []⟩ ended
    effect) : Step place (capability answers) instruction before effect := by
  have count : ([] : List Value).length = ([] : List Bool).length := rfl
  cases instruction with
  | nop | goto | gotoWide | ret =>
      exact .of_consume rfl .nothing count rfl (Transfer.yields_pure.1 yields).2.symm
  | const value => exact step_push rfl (by cases value <;> rfl) yields
  | bipush | sipush | jsr | jsrWide => exact step_push rfl rfl yields
  | ldc index | ldcWide index | ldc2 index =>
      exact step_loadConstant rfl yields
  | load kind slot | loadShort kind slot => exact step_loadLocal rfl yields
  | store kind slot | storeShort kind slot => exact step_storeLocal rfl yields
  | arrayLoad kind => exact step_arrayLoad yields
  | arrayStore kind => exact step_arrayStore yields
  | stack op => exact step_shuffle yields
  | binary op kind | bitwise op kind =>
      exact step_replace [false, false] rfl (by simp) (by cases kind <;> rfl) yields
  | negate kind => exact step_replace [false] rfl (by simp) (by cases kind <;> rfl) yields
  | convert conversion =>
      exact step_replace [false] rfl (by simp) (by cases conversion <;> rfl) yields
  | compare => exact step_replace [false, false] rfl (by simp) rfl yields
  | newArray | arrayLength => exact step_replace [false] rfl (by simp) rfl yields
  | increment | incrementWide => exact step_increment rfl yields
  | branch => exact step_test yields
  | tableSwitch | lookupSwitch => exact step_discardTop rfl yields
  | leave => exact step_giveBack yields
  | getStatic => exact step_readStatic yields
  | getField => exact step_readField yields
  | putStatic | athrow => exact step_requireTop rfl yields
  | putField => exact step_requireAll [true, true] rfl (by simp) yields
  | invokeVirtual | invokeInterface | invokeStatic => exact step_invokeMember rfl (by simp) yields
  | invokeSpecial => exact step_invokeMember rfl (by simp) yields
  | invokeDynamic => exact step_invokeCallSite yields
  | new => exact step_allocate yields
  | newReferenceArray => exact step_createArray yields
  | newMultiArray => exact step_newMultiArray yields
  | checkCast => exact step_cast yields
  | instanceOf => exact step_instanceOf yields
  | monitorEnter | monitorExit => exact step_useMonitor rfl yields
  | valueLoad | valueStore | valueArrayLoad | valueArrayStore | box | unbox =>
      simp only [rule, Transfer.yields_fail] at yields

/-- A transfer that succeeds carries out the rule of the instruction. -/
theorem exists_yields
    (transferred : (instruction.transfer place before).eval answers = .ok effect) :
    ∃ ended, Transfer.Yields answers (instruction.rule place) ⟨before, []⟩ ended effect := by
  obtain ⟨⟨ended, after⟩, ran, last⟩ := Inquiry.eval_bind_eq_ok_iff.1 transferred
  obtain rfl := Inquiry.eval_pure_eq_ok_iff.1 last
  exact ⟨ended, ran⟩

/-- A transfer that succeeds is one of the steps. -/
theorem transfer_step
    (transferred : (instruction.transfer place before).eval answers = .ok effect) :
    Step place (capability answers) instruction before effect := by
  obtain ⟨ended, yields⟩ := exists_yields transferred
  exact rule_step yields

end Instruction

end ValueForm
