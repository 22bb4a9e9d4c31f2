import ValueForm.Flattening.Body
import ValueForm.Proofs.Flattening.Workbench

/-!
# Tables and the pool

Carrying tables over adds constants for the types in them and changes none, so
what the code refers to stays what it is.
-/

namespace ValueForm

open Flatten

namespace FrameMap

variable (frameMap : FrameMap)

theorem interning_object (className : String) : Interning (object className) :=
  interning_bind (interning_internClass className) fun _ => interning_pure _

/-- A type is known without the pool or is that of a class, and takes as many slots as the
value. -/
theorem typeOf_cases (value : Value) :
    (∃ type : VerificationType, type.slots = value.size ∧ frameMap.typeOf value = pure type) ∨
      ∃ className, value.size = 1 ∧ frameMap.typeOf value = object className := by
  cases value with
  | reference => exact .inr ⟨_, rfl, rfl⟩
  | precise type =>
      rw [typeOf]
      cases type.internalName? with
      | some name => exact .inr ⟨name, rfl, rfl⟩
      | none => exact .inl ⟨.top, rfl, rfl⟩
  | capable className provenance =>
      rw [typeOf]
      cases frameMap.form provenance with
      | value | reference => exact .inr ⟨_, rfl, rfl⟩
      | mixed => exact .inl ⟨.top, rfl, rfl⟩
      | unconstructed index =>
          dsimp only
          split
          · refine .inl ⟨_, ?_, rfl⟩
            unfold allocatedAt
            split <;> rfl
          · exact .inl ⟨.top, rfl, rfl⟩
  | _ => exact .inl ⟨_, rfl, rfl⟩

theorem interning_typeOf (value : Value) : Interning (frameMap.typeOf value) := by
  rcases frameMap.typeOf_cases value with ⟨type, _, isType⟩ | ⟨className, _, isType⟩
  · rw [isType]
    exact interning_pure type
  · rw [isType]
    exact interning_object className

theorem interning_carry (type : VerificationType) (value : Option Value) :
    Interning (frameMap.carry type value) := by
  unfold carry
  split
  · exact interning_pure _
  · split
    · exact interning_object _
    · exact interning_pure _
    · exact interning_pure _
    · exact interning_pure _
  · exact interning_pure _

theorem interning_carrySnapshot (malformed : FlattenError) (snapshot : Snapshot) :
    Interning (frameMap.carrySnapshot malformed snapshot) := by
  apply interning_bind (interning_require _ _)
  intro index
  apply interning_bind (interning_mapM (fun _ => frameMap.interning_carry _ _) _)
  intro locals
  apply interning_bind (interning_mapM (fun _ => frameMap.interning_carry _ _) _)
  intro stack
  exact interning_bind (interning_require _ _) fun _ => interning_pure _

theorem interning_typesOf (frame : Frame) : Interning (frameMap.typesOf frame) := by
  apply interning_bind (interning_mapM frameMap.interning_typeOf _)
  intro locals
  exact interning_bind (interning_mapM frameMap.interning_typeOf _) fun _ => interning_pure _

theorem interning_newSnapshot? (malformed : FlattenError) (index : Nat) :
    Interning (frameMap.newSnapshot? malformed index) := by
  unfold newSnapshot?
  split
  · exact interning_pure _
  · apply interning_bind (frameMap.interning_typesOf _)
    intro types
    exact interning_bind (interning_require _ _) fun _ => interning_pure _

theorem interning_rebuild (malformed : FlattenError) (table : List StackMapFrame)
    (initial : List VerificationType) (targets : List Nat) :
    Interning (frameMap.rebuild malformed table initial targets) := by
  apply interning_bind (interning_mapM (frameMap.interning_carrySnapshot malformed) _)
  intro carried
  apply interning_bind (interning_mapM (frameMap.interning_newSnapshot? malformed) _)
  exact fun _ => interning_pure _

end FrameMap

namespace FlattenedCode

theorem interning_readBody {α : Type} (name : String) (reader : Reader α) (item : Attribute) :
    Interning (readBody name reader item) := by
  unfold readBody
  split
  · exact interning_pure _
  · exact interning_throw _

variable (code : FlattenedCode)

theorem interning_stackMap (item : Attribute) : Interning (code.stackMap item) := by
  apply interning_bind (interning_readBody _ _ item)
  intro table
  apply interning_bind (interning_require _ _)
  intro type
  apply interning_bind
  · exact interning_bind (interning_mapM (fun _ => code.frameMap.interning_typeOf _) _)
      fun _ => interning_pure _
  · intro initial
    apply interning_bind (code.frameMap.interning_rebuild _ _ _ _)
    intro rebuilt
    split
    · exact interning_pure _
    · exact interning_bind (interning_leave _) fun _ => interning_pure _

/-- Carrying an attribute over only interns constants. -/
theorem interning_carryAttribute (item : Attribute) : Interning (code.carryAttribute item) := by
  apply interning_bind interning_get
  intro bench
  dsimp only
  split
  · apply interning_bind (interning_readBody _ _ item)
    intro table
    exact interning_bind (interning_ofExcept _) fun _ => interning_pure _
  · split
    · apply interning_bind (interning_readBody _ _ item)
      intro table
      exact interning_bind (interning_ofExcept _) fun _ => interning_pure _
    · split
      · exact code.interning_stackMap item
      · exact interning_bind (interning_leave _) fun _ => interning_pure _

/-- Carrying an attribute over only adds to the pool. -/
theorem additive_carryAttribute (item : Attribute) : Additive (code.carryAttribute item) :=
  (code.interning_carryAttribute item).additive

end FlattenedCode

end ValueForm
