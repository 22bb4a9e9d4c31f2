import ValueForm.Proofs.Flattening.Emission
import ValueForm.Proofs.Flattening.Tables
import ValueForm.Proofs.Outcome

/-!
# Why flattening fails

Emitting code fails only for a field that does not resolve. Carrying tables over
fails only if a table or the descriptor cannot be read or an address in a table is
not that of an instruction.
-/

namespace ValueForm

namespace Flatten

variable {α β : Type} {cause : FlattenError → Prop}

/-- The step fails for no other reason. -/
def FailsOnly (step : Flatten α) (cause : FlattenError → Prop) : Prop :=
  ∀ bench last error, step bench = .error error last → cause error

theorem failsOnly_pure (value : α) : FailsOnly (pure value) cause := by
  intro bench last error failed
  cases failed

theorem failsOnly_bind {first : Flatten α} {next : α → Flatten β} (earlier : FailsOnly first cause)
    (later : ∀ value, FailsOnly (next value) cause) : FailsOnly (first >>= next) cause := by
  intro bench last error failed
  cases ran : first bench with
  | ok value between =>
      rw [bind_of_ok ran] at failed
      exact later value _ _ _ failed
  | error error' between =>
      rw [bind_of_error ran] at failed
      cases failed
      exact earlier _ _ _ ran

theorem failsOnly_get : FailsOnly get cause := by
  intro bench last error failed
  cases failed

theorem failsOnly_throw {error : FlattenError} (isCause : cause error) :
    FailsOnly (throw error : Flatten α) cause := by
  intro bench last error' failed
  cases failed
  exact isCause

theorem failsOnly_require {error : FlattenError} (isCause : cause error) (found : Option α) :
    FailsOnly (require error found) cause := by
  cases found with
  | some value => exact failsOnly_pure value
  | none => exact failsOnly_throw isCause

theorem failsOnly_ofExcept {outcome : Except FlattenError α}
    (isCause : ∀ error, outcome = .error error → cause error) :
    FailsOnly (ofExcept outcome) cause := by
  cases outcome with
  | ok value => exact failsOnly_pure value
  | error error => exact failsOnly_throw (isCause error rfl)

theorem failsOnly_internClass (name : String) : FailsOnly (internClass name) cause := by
  intro bench last error failed
  cases failed

theorem failsOnly_internField (field : MemberRef) : FailsOnly (internField field) cause := by
  intro bench last error failed
  cases failed

theorem failsOnly_leave (entry : Note) : FailsOnly (leave entry) cause := by
  intro bench last error failed
  cases failed

theorem failsOnly_mapM {step : α → Flatten β} (each : ∀ item, FailsOnly (step item) cause)
    (items : List α) : FailsOnly (items.mapM step) cause := by
  induction items with
  | nil => exact failsOnly_pure []
  | cons item items ih =>
      rw [List.mapM_cons]
      apply failsOnly_bind (each item)
      intro result
      exact failsOnly_bind ih fun _ => failsOnly_pure _

theorem failsOnly_mapIdxM {step : Nat → α → Flatten β}
    (each : ∀ index item, FailsOnly (step index item) cause) (items : Array α) :
    FailsOnly (items.mapIdxM step) cause := by
  have traverses (listed : List α) (done : Array β) :
      FailsOnly (List.mapIdxM.go step listed done) cause := by
    induction listed generalizing done with
    | nil => exact failsOnly_pure _
    | cons item rest ih => exact failsOnly_bind (each _ item) fun _ => ih _
  rcases items with ⟨items⟩
  rw [List.mapIdxM_toArray, map_eq_pure_bind]
  exact failsOnly_bind (traverses items #[]) fun _ => failsOnly_pure _

variable {pool : ConstantPool}

end Flatten

open Flatten

/-! ## Emission -/

/-- A field of the body does not resolve. -/
def FlattenError.IsUnresolved (error : FlattenError) : Prop :=
  ∃ address index, error = .unresolved address index

theorem Conversion.failsOnly_emit {cause : FlattenError → Prop} (conversion : Conversion) :
    FailsOnly conversion.emit cause := by
  unfold Conversion.emit Emission.box Emission.unbox
  split
  · exact failsOnly_bind (failsOnly_internClass _) fun _ => failsOnly_pure _
  · exact failsOnly_bind (failsOnly_internClass _) fun _ => failsOnly_pure _

theorem Counterpart.failsOnly_emit (main : Counterpart) (located : Located) :
    FailsOnly (main.emit located) FlattenError.IsUnresolved := by
  cases main with
  | readValue index =>
      refine failsOnly_bind failsOnly_get fun bench => ?_
      refine failsOnly_bind (failsOnly_require ⟨_, _, rfl⟩ _) fun field => ?_
      exact failsOnly_bind (failsOnly_internField _) fun _ => failsOnly_pure _
  | createArray element => exact failsOnly_bind (failsOnly_internClass _) fun _ => failsOnly_pure _
  | _ => exact failsOnly_pure _

namespace Emission

theorem failsOnly_segment (registry : Registry) (index : Nat) (located : Located) :
    FailsOnly (segment registry index located) FlattenError.IsUnresolved := by
  rw [segment_eq_emit]
  refine failsOnly_bind (failsOnly_mapM Conversion.failsOnly_emit _) fun before => ?_
  refine failsOnly_bind (Counterpart.failsOnly_emit _ located) fun main => ?_
  exact failsOnly_bind (failsOnly_mapM Conversion.failsOnly_emit _) fun _ => failsOnly_pure _

theorem failsOnly_prologueOf {cause : FlattenError → Prop} (registry : Registry) :
    FailsOnly (prologueOf registry) cause := by
  refine failsOnly_bind (failsOnly_mapM (fun entry => ?_) _) fun _ => failsOnly_pure _
  exact failsOnly_bind (failsOnly_internClass _) fun _ => failsOnly_pure _

/-- Emission fails only for a field that does not resolve. -/
theorem failsOnly_ofBody (body : MethodBody) (registry : Registry) :
    FailsOnly (ofBody body registry) FlattenError.IsUnresolved := by
  refine failsOnly_bind (failsOnly_prologueOf registry) fun prologue => ?_
  exact failsOnly_bind (failsOnly_mapIdxM (failsOnly_segment registry) _) fun _ => failsOnly_pure _

end Emission

/-! ## Tables -/

/-- A table or the descriptor cannot be read, or an address in a table is not that of an
instruction. -/
inductive FlattenError.OfTables : FlattenError → Prop
  | invalidTarget {address : Nat} {target : Int} : OfTables (.invalidTarget address target)
  | malformedAttribute {name : String} : OfTables (.malformedAttribute name)
  | invalidDescriptor {descriptor : String} : OfTables (.invalidDescriptor descriptor)

namespace Relocation

variable {relocation : Relocation} {error : FlattenError}

theorem ofTables_of_pc {old : UInt16} (failed : relocation.pc old = .error error) :
    error.OfTables := by
  unfold pc at failed
  split at failed
  · cases failed
  · cases failed
    exact .invalidTarget

theorem ofTables_of_moveException {entry : ExceptionEntry}
    (failed : relocation.moveException entry = .error error) : error.OfTables := by
  rcases Outcome.bind_eq_error failed with atStart | ⟨_, failed⟩
  · exact ofTables_of_pc atStart
  rcases Outcome.bind_eq_error failed with atStop | ⟨_, failed⟩
  · exact ofTables_of_pc atStop
  rcases Outcome.bind_eq_error failed with atHandler | ⟨_, failed⟩
  · exact ofTables_of_pc atHandler
  · cases failed

theorem ofTables_of_moveLine {entry : LineNumber}
    (failed : relocation.moveLine entry = .error error) : error.OfTables := by
  rcases Outcome.bind_eq_error failed with atStart | ⟨_, failed⟩
  · exact ofTables_of_pc atStart
  · cases failed

theorem ofTables_of_moveVariable {item : LocalVariable}
    (failed : relocation.moveVariable item = .error error) : error.OfTables := by
  rcases Outcome.bind_eq_error failed with atStart | ⟨_, failed⟩
  · exact ofTables_of_pc atStart
  rcases Outcome.bind_eq_error failed with atStop | ⟨_, failed⟩
  · exact ofTables_of_pc atStop
  · cases failed

/-- Moving the rows of a table fails as moving one of them does. -/
theorem ofTables_of_mapM {α β : Type} {step : α → Except FlattenError β}
    (each : ∀ item, step item = .error error → error.OfTables) {items : List α}
    (failed : items.mapM step = .error error) : error.OfTables := by
  rcases Outcome.mapM_eq_error_iff.1 failed with ⟨_, item, _, _, _, atItem⟩
  exact each item atItem

end Relocation

namespace FrameMap

variable {cause : FlattenError → Prop} (frameMap : FrameMap)

theorem failsOnly_object (className : String) : FailsOnly (object className) cause :=
  failsOnly_bind (failsOnly_internClass className) fun _ => failsOnly_pure _

theorem failsOnly_typeOf (value : Value) : FailsOnly (frameMap.typeOf value) cause := by
  rcases frameMap.typeOf_cases value with ⟨type, _, isType⟩ | ⟨className, _, isType⟩
  · rw [isType]
    exact failsOnly_pure type
  · rw [isType]
    exact failsOnly_object className

theorem failsOnly_carry (type : VerificationType) (value : Option Value) :
    FailsOnly (frameMap.carry type value) cause := by
  unfold carry
  split
  · exact failsOnly_pure _
  · split
    · exact failsOnly_object _
    · exact failsOnly_pure _
    · exact failsOnly_pure _
    · exact failsOnly_pure _
  · exact failsOnly_pure _

variable {malformed : FlattenError} (isCause : cause malformed)
include isCause

theorem failsOnly_carrySnapshot (snapshot : Snapshot) :
    FailsOnly (frameMap.carrySnapshot malformed snapshot) cause := by
  refine failsOnly_bind (failsOnly_require isCause _) fun index => ?_
  refine failsOnly_bind (failsOnly_mapM (fun _ => frameMap.failsOnly_carry _ _) _) fun locals => ?_
  refine failsOnly_bind (failsOnly_mapM (fun _ => frameMap.failsOnly_carry _ _) _) fun stack => ?_
  exact failsOnly_bind (failsOnly_require isCause _) fun _ => failsOnly_pure _

theorem failsOnly_newSnapshot? (index : Nat) :
    FailsOnly (frameMap.newSnapshot? malformed index) cause := by
  have types (values : List Value) : FailsOnly (values.mapM frameMap.typeOf) cause :=
    failsOnly_mapM frameMap.failsOnly_typeOf values
  unfold newSnapshot?
  split
  · exact failsOnly_pure _
  · refine failsOnly_bind ?_ fun _ => ?_
    · exact failsOnly_bind (types _) fun _ => failsOnly_bind (types _) fun _ => failsOnly_pure _
    · exact failsOnly_bind (failsOnly_require isCause _) fun _ => failsOnly_pure _

/-- Rebuilding a stack map fails only if it is malformed. -/
theorem failsOnly_rebuild (table : List StackMapFrame) (initial : List VerificationType)
    (targets : List Nat) : FailsOnly (frameMap.rebuild malformed table initial targets) cause := by
  refine failsOnly_bind (failsOnly_mapM (frameMap.failsOnly_carrySnapshot isCause) _)
    fun carried => ?_
  exact failsOnly_bind (failsOnly_mapM (frameMap.failsOnly_newSnapshot? isCause) _)
    fun _ => failsOnly_pure _

end FrameMap

namespace FlattenedCode

theorem failsOnly_readBody {α : Type} (name : String) (reader : Reader α) (item : Attribute) :
    FailsOnly (readBody name reader item) FlattenError.OfTables := by
  unfold readBody
  split
  · exact failsOnly_pure _
  · exact failsOnly_throw .malformedAttribute

variable (code : FlattenedCode)

theorem failsOnly_stackMap (item : Attribute) :
    FailsOnly (code.stackMap item) FlattenError.OfTables := by
  refine failsOnly_bind (failsOnly_readBody _ _ item) fun table => ?_
  refine failsOnly_bind (failsOnly_require .invalidDescriptor _) fun type => ?_
  refine failsOnly_bind ?_ fun initial => ?_
  · exact failsOnly_bind (failsOnly_mapM (fun _ => code.frameMap.failsOnly_typeOf _) _)
      fun _ => failsOnly_pure _
  · refine failsOnly_bind (code.frameMap.failsOnly_rebuild .malformedAttribute _ _ _)
      fun rebuilt => ?_
    split
    · exact failsOnly_pure _
    · exact failsOnly_bind (failsOnly_leave _) fun _ => failsOnly_pure _

/-- Carrying an attribute over fails only for the table in it. -/
theorem failsOnly_carryAttribute (item : Attribute) :
    FailsOnly (code.carryAttribute item) FlattenError.OfTables := by
  refine failsOnly_bind failsOnly_get fun bench => ?_
  dsimp only
  split
  · refine failsOnly_bind (failsOnly_readBody _ _ item) fun table => ?_
    refine failsOnly_bind (failsOnly_ofExcept fun error failed => ?_) fun _ => failsOnly_pure _
    exact Relocation.ofTables_of_mapM (fun _ => Relocation.ofTables_of_moveLine) failed
  · split
    · refine failsOnly_bind (failsOnly_readBody _ _ item) fun table => ?_
      refine failsOnly_bind (failsOnly_ofExcept fun error failed => ?_) fun _ => failsOnly_pure _
      exact Relocation.ofTables_of_mapM (fun _ => Relocation.ofTables_of_moveVariable) failed
    · split
      · exact code.failsOnly_stackMap item
      · exact failsOnly_bind (failsOnly_leave _) fun _ => failsOnly_pure _

end FlattenedCode

end ValueForm
