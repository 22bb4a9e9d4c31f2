import ValueForm.Proofs.Analysis.FixedPoint
import ValueForm.Proofs.ClassFile.Marker

/-!
# Methods are analysed independently

Converting a method appends constants to the pool that the methods of a class
share, and fills the memory of the oracle that they ask. Neither shows in the
analysis of another method: an index that an instruction has found in the pool is
found there still, so an analysis that succeeds takes the same steps with a longer
pool, and an oracle answers as its source does whatever it remembers.

`Inquiry.Within` relates a computation over a pool to the same computation over a
longer one. It is shown of every transfer rule, hence of every visit, and by
induction on the visits of the whole analysis.
-/

namespace ValueForm

namespace Outcome

variable {ε α β : Type}

/-- Where the first computation succeeds, the second has the same result. -/
def Within (first second : Except ε α) : Prop :=
  ∀ result, first = .ok result → second = .ok result

theorem within_refl (outcome : Except ε α) : Within outcome outcome :=
  fun _ succeeded => succeeded

theorem Within.bind {first second : Except ε α} {next next' : α → Except ε β}
    (within : Within first second) (later : ∀ value, Within (next value) (next' value)) :
    Within (first >>= next) (second >>= next') := by
  intro result succeeded
  rcases bind_eq_ok_iff.1 succeeded with ⟨value, here, there⟩
  exact bind_eq_ok_iff.2 ⟨value, within value here, later value result there⟩

theorem Within.mapM {step step' : α → Except ε β} (each : ∀ item, Within (step item) (step' item))
    (items : List α) : Within (items.mapM step) (items.mapM step') := by
  intro results succeeded
  rw [mapM_eq_ok_iff] at *
  exact succeeded.imp fun item => each item

end Outcome

namespace Inquiry

variable {ε α β : Type}

/-- Where the first inquiry succeeds, the second ends with the same result. -/
def Within (first second : Inquiry ε α) : Prop :=
  ∀ answers result, first.eval answers = .ok result → second.eval answers = .ok result

theorem within_refl (inquiry : Inquiry ε α) : inquiry.Within inquiry :=
  fun _ _ succeeded => succeeded

theorem Within.bind {first second : Inquiry ε α} {next next' : α → Inquiry ε β}
    (within : first.Within second) (later : ∀ value, (next value).Within (next' value)) :
    (first >>= next).Within (second >>= next') := by
  intro answers result succeeded
  rcases eval_bind_eq_ok_iff.1 succeeded with ⟨value, here, there⟩
  exact eval_bind_eq_ok_iff.2
    ⟨value, within answers value here, later value answers result there⟩

theorem within_ofExcept {first second : Except ε α} (within : Outcome.Within first second) :
    (ofExcept first).Within (ofExcept second) :=
  fun _ result succeeded => within result succeeded

end Inquiry

namespace Transfer

variable {α β : Type}

/-- Where the first rule succeeds, the second has the same effect. -/
def Within (first second : Transfer α) : Prop :=
  ∀ before, (first before).Within (second before)

theorem within_refl (rule : Transfer α) : rule.Within rule :=
  fun before => Inquiry.within_refl (rule before)

theorem Within.bind {first second : Transfer α} {next next' : α → Transfer β}
    (within : first.Within second) (later : ∀ value, (next value).Within (next' value)) :
    (first >>= next).Within (second >>= next') :=
  fun before => (within before).bind fun pair => later pair.1 pair.2

theorem within_require {error : AnalysisError} {given given' : Option α}
    (within : ∀ value, given = some value → given' = some value) :
    (require error given).Within (require error given') := by
  intro before answers result succeeded
  cases given with
  | none => cases Inquiry.eval_fail_eq_ok_iff.1 succeeded
  | some value =>
      rw [within value rfl]
      exact succeeded

/-! ## Rules that look at the pool -/

variable {place : Place} {pool : ConstantPool}

theorem within_classOperand (isKept : place.pool.Extends pool) (index : UInt16) :
    (classOperand place index).Within (classOperand { place with pool } index) :=
  within_require fun _ found => isKept.className? found

theorem within_memberOperand (isKept : place.pool.Extends pool) (index : UInt16) :
    (memberOperand place index).Within (memberOperand { place with pool } index) :=
  within_require fun _ found => isKept.member? found

theorem within_namedType (isKept : place.pool.Extends pool) (index : UInt16) :
    (namedType place index).Within (namedType { place with pool } index) :=
  (within_classOperand isKept index).bind fun _ => within_refl _

theorem within_constantValue (isKept : place.pool.Extends pool) (index : UInt16) :
    (constantValue place index).Within (constantValue { place with pool } index) := by
  apply (within_require fun _ found => isKept.get? found).bind
  intro constant
  cases constant with
  | dynamic bootstrap nameAndType =>
      apply (within_require fun _ found => isKept.nameAndType? found).bind
      intro pair
      exact within_refl _
  | _ => exact within_refl _

theorem within_invokeMember (isKept : place.pool.Extends pool) (index : UInt16)
    (hasReceiver isSpecial : Bool) :
    (invokeMember place index hasReceiver isSpecial).Within
      (invokeMember { place with pool } index hasReceiver isSpecial) :=
  (within_memberOperand isKept index).bind fun _ => within_refl _

theorem within_invokeCallSite (isKept : place.pool.Extends pool) (index : UInt16) :
    (invokeCallSite place index).Within (invokeCallSite { place with pool } index) := by
  unfold invokeCallSite
  refine (within_require fun pair found => ?_).bind fun _ => within_refl _
  split at found
  · next isCallSite =>
      rw [isKept.get? isCallSite]
      exact isKept.nameAndType? found
  · cases found

theorem within_createArray (isKept : place.pool.Extends pool) (index : UInt16) :
    (createArray place index).Within (createArray { place with pool } index) := by
  apply (within_refl (discard (pop place))).bind
  intro _
  apply (within_namedType isKept index).bind
  intro element
  exact within_refl _

theorem within_cast (isKept : place.pool.Extends pool) (index : UInt16) :
    (cast place index).Within (cast { place with pool } index) := by
  apply (within_refl (pop place)).bind
  intro value
  apply (within_refl (requireReference value)).bind
  intro _
  apply (within_namedType isKept index).bind
  intro type
  exact within_refl _

end Transfer

open Transfer in
/-- What an instruction does depends on the pool only where it looks an index up. -/
theorem Instruction.within_rule {place : Place} {pool : ConstantPool}
    (isKept : place.pool.Extends pool) (instruction : Instruction) :
    (instruction.rule place).Within (instruction.rule { place with pool }) := by
  cases instruction with
  | ldc index | ldcWide index | ldc2 index =>
      exact (within_constantValue isKept _).bind fun _ => within_refl _
  | getStatic index | getField index =>
      exact (within_memberOperand isKept index).bind fun _ => within_refl _
  | invokeVirtual index | invokeSpecial index | invokeStatic index | invokeInterface index =>
      exact within_invokeMember isKept index _ _
  | invokeDynamic index => exact within_invokeCallSite isKept index
  | new index => exact (within_classOperand isKept index).bind fun _ => within_refl _
  | newReferenceArray index => exact within_createArray isKept index
  | newMultiArray index dimensions =>
      apply (within_refl (discard (popMany place dimensions.toNat))).bind
      intro _
      exact (within_namedType isKept index).bind fun _ => within_refl _
  | checkCast index => exact within_cast isKept index
  | _ => exact within_refl _

theorem Instruction.within_transfer {place : Place} {pool : ConstantPool}
    (isKept : place.pool.Extends pool) (instruction : Instruction) (before : Frame) :
    (instruction.transfer place before).Within
      (instruction.transfer { place with pool } before) :=
  (instruction.within_rule isKept ⟨before, []⟩).bind fun _ => Inquiry.within_refl _

namespace Analysis

/-- The same analysis over another pool. -/
def withPool (analysis : Analysis) (pool : ConstantPool) : Analysis :=
  { analysis with classFile := { analysis.classFile with pool } }

variable {analysis : Analysis} {pool : ConstantPool}

theorem within_catchType (isKept : analysis.classFile.pool.Extends pool) (entry : ExceptionEntry) :
    Outcome.Within (analysis.catchType entry) ((analysis.withPool pool).catchType entry) := by
  intro className resolved
  unfold catchType at *
  split at resolved
  · next isZero =>
      rw [if_pos isZero]
      exact resolved
  · next notZero =>
      rw [if_neg notZero]
      split at resolved
      · next found =>
          simp only [withPool, isKept.className? found]
          exact resolved
      · cases resolved

theorem within_handler (isKept : analysis.classFile.pool.Extends pool) (entry : ExceptionEntry) :
    Outcome.Within (analysis.handler entry) ((analysis.withPool pool).handler entry) := by
  apply (Outcome.within_refl _).bind
  intro start
  have ending (stop : Except AnalysisError Nat) : Outcome.Within
      (do
        let stop ← stop
        let target ← analysis.positionAt entry.handler.toNat entry.handler.toNat
        return ⟨start, stop, target, ← analysis.catchType entry⟩ : Except AnalysisError Handler)
      (do
        let stop ← stop
        let target ← analysis.positionAt entry.handler.toNat entry.handler.toNat
        return ⟨start, stop, target, ← (analysis.withPool pool).catchType entry⟩) := by
    apply (Outcome.within_refl stop).bind
    intro stop
    apply (Outcome.within_refl _).bind
    intro target
    exact (within_catchType isKept entry).bind fun _ => Outcome.within_refl _
  by_cases atEnd : entry.stop.toNat = analysis.body.code.code.length
  · simp only [withPool, atEnd, if_true]
    exact ending _
  · simp only [withPool, atEnd, if_false]
    exact ending _

theorem within_handlers (isKept : analysis.classFile.pool.Extends pool) :
    Outcome.Within analysis.handlers (analysis.withPool pool).handlers :=
  Outcome.Within.mapM (within_handler isKept) analysis.body.code.exceptions

theorem incomingTypes_eq_ok_iff (analysis : Analysis) {types : List FieldType} :
    analysis.incomingTypes = .ok types ↔
      ∃ type, MethodType.parse? analysis.body.descriptor = some type ∧
        (analysis.body.isStatic = true ∧ types = type.params ∨
          analysis.body.isStatic = false ∧ ∃ className,
            analysis.classFile.thisClassName? = some className ∧
              types = .object className :: type.params) := by
  unfold incomingTypes
  cases parsed : MethodType.parse? analysis.body.descriptor with
  | none => simp [parsed]
  | some type =>
      cases isStatic : analysis.body.isStatic with
      | true => simp [parsed, pure, Except.pure, eq_comm]
      | false =>
          cases named : analysis.classFile.thisClassName? with
          | none => simp [parsed]
          | some className => simp [parsed, pure, Except.pure, eq_comm]

theorem within_incomingTypes (isKept : analysis.classFile.pool.Extends pool) :
    Outcome.Within analysis.incomingTypes (analysis.withPool pool).incomingTypes := by
  intro types resolved
  rw [incomingTypes_eq_ok_iff] at *
  rcases resolved with ⟨type, parsed, resolved⟩
  refine ⟨type, parsed, ?_⟩
  rcases resolved with isStatic | ⟨notStatic, className, named, isTypes⟩
  · exact .inl isStatic
  · exact .inr ⟨notStatic, className, isKept.className? named, isTypes⟩

theorem within_visit (isKept : analysis.classFile.pool.Extends pool) (handlers : List Handler)
    (index : Nat) (state : FlowState) :
    (analysis.visit handlers index state).Within
      ((analysis.withPool pool).visit handlers index state) := by
  unfold visit
  split
  · next before located reached isLocated =>
      simp only [withPool, reached, isLocated]
      apply (located.instruction.within_transfer isKept before).bind
      intro effect
      exact Inquiry.within_refl _
  · next unreached =>
      have same : (analysis.withPool pool).visit handlers index state = pure state := by
        unfold visit
        split
        · next before located reached isLocated =>
            exact (unreached before located reached isLocated).elim
        · rfl
      unfold visit at same
      rw [same]
      exact Inquiry.within_refl _

theorem within_loop (isKept : analysis.classFile.pool.Extends pool) (handlers : List Handler)
    (visits : Nat) (state : FlowState) :
    (analysis.loop handlers visits state).Within
      ((analysis.withPool pool).loop handlers visits state) := by
  induction visits generalizing state with
  | zero => exact Inquiry.within_refl _
  | succ visits ih =>
      rw [loop, loop]
      cases state.pending with
      | nil => exact Inquiry.within_refl _
      | cons index pending => exact (within_visit isKept handlers index _).bind ih

theorem within_run (isKept : analysis.classFile.pool.Extends pool) :
    analysis.run.Within (analysis.withPool pool).run := by
  apply (Inquiry.within_ofExcept (within_handlers isKept)).bind
  intro handlers
  apply (Inquiry.within_ofExcept (within_incomingTypes isKept)).bind
  intro types
  apply (Inquiry.within_refl _).bind
  intro entered
  exact (within_loop isKept handlers _ _).bind fun _ => Inquiry.within_refl _

end Analysis

/-- A method is analysed alike whatever has been done to other methods of its class:
an analysis that succeeds has the same result with constants appended to the pool,
and with any oracle that has been asked of the same source. -/
theorem MethodBody.analyze_independent {find : ClassFinder} {oracle oracle' : Oracle}
    (reached : oracle.Reached find) (reached' : oracle'.Reached find) {classFile : ClassFile}
    {pool : ConstantPool} (appended : classFile.pool.Extends pool) (body : MethodBody)
    (flatArrays : Bool) {result : AnalysisResult}
    (analyzed : ((body.analyze classFile flatArrays).run find oracle).result = .ok result) :
    ((body.analyze { classFile with pool } flatArrays).run find oracle').result = .ok result := by
  rw [Inquiry.run_result, reached.answer_eq] at analyzed
  rw [Inquiry.run_result, reached'.answer_eq]
  unfold analyze at *
  split at analyzed
  · next isEmpty =>
      rw [if_pos isEmpty]
      exact analyzed
  · next notEmpty =>
      rw [if_neg notEmpty]
      exact Analysis.within_run appended _ result analyzed

/-- The analysis of `choose`, first with an oracle that was never asked, then after
another method has left a constant in the pool and a question with the oracle. -/
theorem MethodBody.analyze_independent_choose : ∃ result,
    ((choose.analyze .pair true).run .marking).result = .ok result ∧
      (∀ index < 7, ∃ before, result.frames[index]? = some (some before)) ∧
      ((choose.analyze { ClassFile.pair with pool := (ClassFile.pair.pool.internClass "W").2 }
        true).run .marking (Oracle.query .marking {} "V").2).result = .ok result := by
  have analyzed : ∃ result, ((choose.analyze .pair true).run .marking).result = .ok result ∧
      (result.frames.size == 7 && result.frames.all Option.isSome) = true := by
    apply Outcome.exists_of_any
    rw [Inquiry.run_result, Oracle.answer_empty]
    decide +kernel
  rcases analyzed with ⟨result, analyzed, reached⟩
  have appended := (ClassFile.pair.pool.internClass_spec "W").1.isExtension
  exact ⟨result, analyzed, AnalysisResult.exists_frame reached,
    analyze_independent .fresh (.asked .fresh "V") appended choose true analyzed⟩

end ValueForm
