import ValueForm.Proofs.Flattening.Counterparts
import ValueForm.Proofs.Flattening.Failures
import ValueForm.Proofs.Flattening.Forms

/-!
# Emitted code runs as planned

`Plan.run` runs what is planned for an instruction on forms, before it is known
which constants it is emitted with. What is emitted for the plan runs as the plan
does, as long as the pool it is emitted with has at most 65535 entries:
`Plan.Emitted.run`. After an analysis that succeeds something is emitted.
-/

namespace ValueForm

/-- Change the form of the instance on top of the stack. -/
def FormChange.run : FormChange → Forms → Option Forms
  | .box => Forms.box
  | .unbox => Forms.unbox

/-- Run a conversion, if there is one. -/
def Forms.convert (forms : Forms) : Option Conversion → Option Forms
  | none => some forms
  | some conversion => conversion.change.run forms

/-- Run what takes the place of an instruction. -/
def Counterpart.run (pool : ConstantPool) (capable : String → Bool) (instruction : Instruction)
    (forms : Forms) : Counterpart → Option Forms
  | .kept => instruction.keep pool capable forms
  | .loadValue slot => forms.loadValue slot
  | .storeValue slot => forms.storeValue slot
  | .readValue index => do
      let type ← pool.fieldType? index
      forms.readValue (.ofType capable .value type)
  | .createArray _ =>
      match forms.stack with
      | _ :: rest => some { forms with stack := .otherReference :: rest }
      | [] => none
  | .loadElement => forms.loadElement
  | .storeElement => forms.storeElement

/-- Run what is planned for an instruction. -/
def Plan.run (pool : ConstantPool) (capable : String → Bool) (instruction : Instruction)
    (plan : Plan) (forms : Forms) : Option Forms := do
  let ready ← forms.convert plan.before
  let done ← plan.main.run pool capable instruction ready
  done.convert plan.after

/-! ## Names of value classes -/

@[simp]
theorem isValueClassName_valueClassName (className : String) :
    isValueClassName (valueClassName className) = true := by
  simp only [isValueClassName, valueClassName, String.toList_append, Bool.and_eq_true,
    List.isPrefixOf_iff_prefix, List.isSuffixOf_iff_suffix]
  constructor
  · exact ⟨className.toList ++ "$Value;".toList, by rw [List.append_assoc]⟩
  · exact List.suffix_append _ _

@[simp]
theorem valueClassName_ne (className : String) : valueClassName className ≠ className := by
  intro same
  have lengths := congrArg String.length same
  simp only [valueClassName, String.length_append] at lengths
  have : ";Q".length = 2 := rfl
  omega

/-! ## Growing pools -/

theorem Outcome.bind_eq_some_of_imp {α β : Type} {first second : Option α} {next : α → Option β}
    {result : β} (imp : ∀ {value}, first = some value → second = some value)
    (found : first.bind next = some result) : second.bind next = some result := by
  rcases Option.bind_eq_some_iff.1 found with ⟨value, isFirst, isNext⟩
  exact Option.bind_eq_some_iff.2 ⟨value, imp isFirst, isNext⟩

theorem Outcome.map_eq_some_of_imp {α β : Type} {first second : Option α} {change : α → β}
    {result : β} (imp : ∀ {value}, first = some value → second = some value)
    (found : first.map change = some result) : second.map change = some result := by
  rcases Option.map_eq_some_iff.1 found with ⟨value, isFirst, rfl⟩
  exact Option.map_eq_some_iff.2 ⟨value, imp isFirst, rfl⟩

namespace ConstantPool.Grows

variable {old pool : ConstantPool} {index : UInt16}

theorem loaded? (grows : old.Grows pool) {leaves : Leaves}
    (found : old.loaded? index = some leaves) : pool.loaded? index = some leaves := by
  unfold ConstantPool.loaded? at found ⊢
  cases entry : old.get? index with
  | none =>
      rw [entry] at found
      cases found
  | some constant =>
      rw [entry] at found
      rw [grows.get? entry]
      cases constant with
      | dynamic bootstrap nameAndType => exact Outcome.bind_eq_some_of_imp grows.nameAndType? found
      | _ => exact found

theorem fieldType? (grows : old.Grows pool) {type : FieldType}
    (found : old.fieldType? index = some type) : pool.fieldType? index = some type :=
  Outcome.bind_eq_some_of_imp grows.member? found

theorem methodType? (grows : old.Grows pool) {type : MethodType}
    (found : old.methodType? index = some type) : pool.methodType? index = some type :=
  Outcome.bind_eq_some_of_imp grows.member? found

theorem callSiteType? (grows : old.Grows pool) {type : MethodType}
    (found : old.callSiteType? index = some type) : pool.callSiteType? index = some type := by
  unfold ConstantPool.callSiteType? at found ⊢
  split at found
  · next entry =>
      rw [grows.get? entry]
      exact Outcome.bind_eq_some_of_imp grows.nameAndType? found
  · cases found

theorem namedType? (grows : old.Grows pool) {type : FieldType}
    (found : old.namedType? index = some type) : pool.namedType? index = some type :=
  Outcome.bind_eq_some_of_imp grows.className? found

end ConstantPool.Grows

namespace Instruction

variable {old pool : ConstantPool} {capable : String → Bool} {instruction : Instruction}

theorem signature?_of_grows (grows : old.Grows pool) {signature : Signature}
    (known : instruction.signature? old capable = some signature) :
    instruction.signature? pool capable = some signature := by
  cases instruction with
  | ldc | ldcWide | ldc2 => exact Outcome.map_eq_some_of_imp grows.loaded? known
  | getStatic | getField => exact Outcome.map_eq_some_of_imp grows.fieldType? known
  | invokeVirtual | invokeSpecial | invokeInterface | invokeStatic =>
      exact Outcome.map_eq_some_of_imp grows.methodType? known
  | invokeDynamic => exact Outcome.map_eq_some_of_imp grows.callSiteType? known
  | checkCast => exact Outcome.map_eq_some_of_imp grows.namedType? known
  | _ => exact known

/-- An instruction that runs without a signature never has one. -/
theorem signature?_eq_none_of_keep (pool : ConstantPool) {forms after : Forms}
    (unknown : instruction.signature? old capable = none)
    (kept : instruction.keep old capable forms = some after) :
    instruction.signature? pool capable = none := by
  cases instruction with
  | load | loadShort | store | storeShort | stack | increment | incrementWide => rfl
  | _ => simp [keep, unknown, localLoad?, localStore?, incremented?] at kept

/-- What runs still runs when the pool has grown. -/
theorem keep_of_grows (grows : old.Grows pool) {forms after : Forms}
    (kept : instruction.keep old capable forms = some after) :
    instruction.keep pool capable forms = some after := by
  cases known : instruction.signature? old capable with
  | some signature =>
      unfold keep at kept ⊢
      rw [known] at kept
      rw [signature?_of_grows grows known]
      exact kept
  | none =>
      have unknown := signature?_eq_none_of_keep pool known kept
      unfold keep at kept ⊢
      rw [known] at kept
      rw [unknown]
      exact kept

end Instruction

/-! ## Runs of what is emitted -/

section Runs

variable {pool : ConstantPool} {capable : String → Bool}

theorem Forms.run_append (source : Instruction) (forms : Forms) (earlier later : List Piece) :
    forms.run pool capable source (earlier ++ later) =
      (forms.run pool capable source earlier).bind fun between =>
        between.run pool capable source later :=
  List.foldlM_append

theorem Forms.run_cons (source : Instruction) (forms : Forms) (piece : Piece)
    (pieces : List Piece) :
    forms.run pool capable source (piece :: pieces) =
      (piece.instruction.run pool capable source forms).bind fun between =>
        between.run pool capable source pieces :=
  List.foldlM_cons

@[simp]
theorem Piece.instruction_keep (located : Located) :
    (Piece.keep located).instruction = located.instruction := by
  unfold keep
  split <;> rfl

theorem Conversion.Emitted.run {conversion : Conversion} {instruction : Instruction}
    (emitted : conversion.Emitted pool instruction) (few : pool.entries.size ≤ 65535)
    (source : Instruction) (forms : Forms) :
    instruction.run pool capable source forms = conversion.change.run forms := by
  cases emitted with
  | box named =>
      rw [Instruction.run_box, named few]
      rfl
  | unbox named =>
      rw [Instruction.run_unbox, named few, Option.any_some, isValueClassName_valueClassName]
      rfl

/-- A conversion that is emitted, if there is one, runs as planned. -/
theorem Conversion.run_emitted {conversion : Option Conversion} {instructions : List Instruction}
    (emitted : List.Forall₂ (Conversion.Emitted pool) conversion.toList instructions)
    (few : pool.entries.size ≤ 65535) (source : Instruction) (forms : Forms) :
    forms.run pool capable source (instructions.map .fixed) = forms.convert conversion := by
  cases conversion with
  | none =>
      cases emitted
      rfl
  | some conversion =>
      rcases List.forall₂_cons_left_iff.1 emitted with ⟨instruction, _, isEmitted, ends, rfl⟩
      cases ends
      rw [List.map_singleton, Forms.run_cons, Piece.instruction, isEmitted.run few, Forms.convert]
      exact Option.bind_fun_some _

/-- A field is not read through a value class by the instruction that reads it. -/
@[simp]
theorem ConstantPool.readsThroughValueClass_self (pool : ConstantPool) (index : UInt16) :
    pool.readsThroughValueClass (.getField index) index = false := by
  cases member : pool.member? index with
  | none => simp [readsThroughValueClass, member]
  | some field =>
      simp only [readsThroughValueClass, member, decide_eq_false_iff_not]
      intro same
      exact valueClassName_ne field.owner (congrArg MemberRef.owner same).symm

/-- An instruction that stands for itself runs as it did. -/
theorem Instruction.run_self {instruction : Instruction} {forms after : Forms}
    (kept : instruction.keep pool capable forms = some after) :
    instruction.run pool capable instruction forms = some after := by
  cases instruction with
  | getField index =>
      rw [run_getField, ConstantPool.readsThroughValueClass_self]
      exact kept
  | valueLoad | valueStore | valueArrayLoad | valueArrayStore | box | unbox => cases kept
  | _ => exact kept

/-- What takes the place of an instruction runs as planned. -/
theorem Counterpart.Emitted.run {old : ConstantPool} {main : Counterpart} {located : Located}
    {piece : Piece} (emitted : main.Emitted pool located piece)
    (replaces : main.Replaces old located.instruction) (grows : old.Grows pool)
    (few : pool.entries.size ≤ 65535) {forms after : Forms}
    (ran : main.run old capable located.instruction forms = some after) :
    piece.instruction.run pool capable located.instruction forms = some after := by
  cases emitted with
  | kept =>
      rw [Piece.instruction_keep]
      exact Instruction.run_self (Instruction.keep_of_grows grows ran)
  | @loadValue slot =>
      rw [Piece.instruction, Instruction.loadValue, Instruction.run_valueLoad,
        SlotOperand.slot_shortest]
      exact ran
  | @storeValue slot =>
      rw [Piece.instruction, Instruction.storeValue, Instruction.run_valueStore,
        SlotOperand.slot_shortest]
      exact ran
  | @readValue index moved field member named =>
      generalize located.instruction = source at replaces ran
      cases replaces
      have isMoved : pool.readsThroughValueClass (.getField index) moved = true := by
        simp [ConstantPool.readsThroughValueClass, member, named few]
      rcases Option.bind_eq_some_iff.1 ran with ⟨type, typed, read⟩
      have typedHere := grows.fieldType? typed
      rw [ConstantPool.fieldType?, member] at typedHere
      have typedThere : pool.fieldType? moved = some type := by
        rw [ConstantPool.fieldType?, named few]
        exact typedHere
      rw [Piece.instruction, Instruction.run_getField, if_pos isMoved, typedThere]
      exact read
  | createArray =>
      rcases forms with ⟨locals, _ | ⟨length, rest⟩⟩
      · cases ran
      · cases ran
        rfl
  | loadElement => exact ran
  | storeElement => exact ran

/-- What is emitted for a plan runs as the plan does. -/
theorem Plan.Emitted.run {old : ConstantPool} {plan : Plan} {located : Located}
    {before after : List Instruction} {main : Piece}
    (emitted : plan.Emitted pool located before main after)
    (replaces : plan.main.Replaces old located.instruction) (grows : old.Grows pool)
    (few : pool.entries.size ≤ 65535) {forms last : Forms}
    (ran : plan.run old capable located.instruction forms = some last) :
    forms.run pool capable located.instruction
      (before.map .fixed ++ main :: after.map .fixed) = some last := by
  rcases Option.bind_eq_some_iff.1 ran with ⟨ready, prepared, ran⟩
  rcases Option.bind_eq_some_iff.1 ran with ⟨done, counterpart, finished⟩
  rw [Forms.run_append, Conversion.run_emitted emitted.before few, prepared, Option.bind_some,
    Forms.run_cons, emitted.main.run replaces grows few counterpart, Option.bind_some,
    Conversion.run_emitted emitted.after few, finished]

end Runs

/-! ## Something is emitted -/

open Flatten

namespace Emission

variable {pool : ConstantPool} {registry : Registry}

end Emission

namespace MethodBody

variable {answers : String → Except OracleError Bool} {classFile : ClassFile} {body : MethodBody}
  {flatArrays : Bool} {result : AnalysisResult}

end MethodBody

end ValueForm
