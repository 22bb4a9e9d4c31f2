import ValueForm.Proofs.Flattening.Plan
import ValueForm.Proofs.Flattening.Workbench

/-!
# What is emitted

The pieces of a segment, part by part as its plan has them, with what their
constants resolve to in the pool in the end. Indices resolve as long as that pool
has at most 65535 entries; the shape of a segment does not depend on it.
-/

namespace ValueForm

namespace ConstantPool

/-- The index is that of a class constant, unless the pool has overflowed. -/
def NamesClass (pool : ConstantPool) (index : UInt16) (name : String) : Prop :=
  pool.entries.size ≤ 65535 → pool.className? index = some name

/-- The index is that of a member reference, unless the pool has overflowed. -/
def NamesMember (pool : ConstantPool) (index : UInt16) (member : MemberRef) : Prop :=
  pool.entries.size ≤ 65535 → pool.member? index = some member

end ConstantPool

namespace Flatten

theorem namesClass_internClass {name : String} {bench last : Workbench} {index : UInt16}
    {pool : ConstantPool} (succeeded : internClass name bench = .ok index last)
    (grows : last.pool.Grows pool) : pool.NamesClass index name := by
  intro few
  cases succeeded
  exact grows.className?
    ((bench.pool.internClass_spec name).2 (Nat.le_trans grows.size_le few))

theorem namesMember_internField {field : MemberRef} {bench last : Workbench} {index : UInt16}
    {pool : ConstantPool} (succeeded : internField field bench = .ok index last)
    (grows : last.pool.Grows pool) : pool.NamesMember index field := by
  intro few
  cases succeeded
  exact grows.member?
    ((bench.pool.internField_spec field).2 (Nat.le_trans grows.size_le few))

end Flatten

@[simp]
theorem SlotOperand.slot_shortest (slot : UInt16) : (shortest slot).slot = slot := by
  unfold shortest
  split
  · next short =>
      apply UInt16.toNat_inj.1
      simp only [SlotOperand.slot, UInt8.toNat_toUInt16, UInt16.toNat_toUInt8]
      exact Nat.mod_eq_of_lt short
  · rfl

open Flatten

/-- What a conversion is emitted as. -/
inductive Conversion.Emitted (pool : ConstantPool) : Conversion → Instruction → Prop
  | box {className : String} {index : UInt16} (named : pool.NamesClass index className) :
      Emitted pool ⟨.box, className⟩ (.box index)
  | unbox {className : String} {index : UInt16}
      (named : pool.NamesClass index (valueClassName className)) :
      Emitted pool ⟨.unbox, className⟩ (.unbox index)

/-- What a counterpart is emitted as. -/
inductive Counterpart.Emitted (pool : ConstantPool) (located : Located) :
    Counterpart → Piece → Prop
  | kept : Emitted pool located .kept (.keep located)
  | loadValue {slot : UInt16} :
      Emitted pool located (.loadValue slot) (.fixed (.loadValue slot))
  | storeValue {slot : UInt16} :
      Emitted pool located (.storeValue slot) (.fixed (.storeValue slot))
  | readValue {index moved : UInt16} {field : MemberRef}
      (member : pool.member? index = some field)
      (named : pool.NamesMember moved { field with owner := valueClassName field.owner }) :
      Emitted pool located (.readValue index) (.fixed (.getField moved))
  | createArray {element : String} {index : UInt16}
      (named : pool.NamesClass index (valueClassName element)) :
      Emitted pool located (.createArray element) (.fixed (.newReferenceArray index))
  | loadElement : Emitted pool located .loadElement (.fixed .valueArrayLoad)
  | storeElement : Emitted pool located .storeElement (.fixed .valueArrayStore)

/-- What a plan is emitted as. -/
structure Plan.Emitted (pool : ConstantPool) (located : Located) (plan : Plan)
    (before : List Instruction) (main : Piece) (after : List Instruction) : Prop where
  before : List.Forall₂ (Conversion.Emitted pool) plan.before.toList before
  main : plan.main.Emitted pool located main
  after : List.Forall₂ (Conversion.Emitted pool) plan.after.toList after

theorem Conversion.interning_emit (conversion : Conversion) : Interning conversion.emit := by
  unfold Conversion.emit Emission.box Emission.unbox
  split
  · exact interning_bind (interning_internClass _) fun _ => interning_pure _
  · exact interning_bind (interning_internClass _) fun _ => interning_pure _

theorem Conversion.emit_spec {conversion : Conversion} {bench last : Workbench} {piece : Piece}
    {pool : ConstantPool} (succeeded : conversion.emit bench = .ok piece last)
    (grows : last.pool.Grows pool) :
    ∃ instruction, piece = .fixed instruction ∧ conversion.Emitted pool instruction := by
  rcases conversion with ⟨change, className⟩
  cases change with
  | box =>
      rcases bind_eq_ok_iff.1 succeeded with ⟨index, between, interned, ended⟩
      rcases pure_eq_ok_iff.1 ended with ⟨rfl, rfl⟩
      exact ⟨_, rfl, .box (namesClass_internClass interned grows)⟩
  | unbox =>
      rcases bind_eq_ok_iff.1 succeeded with ⟨index, between, interned, ended⟩
      rcases pure_eq_ok_iff.1 ended with ⟨rfl, rfl⟩
      exact ⟨_, rfl, .unbox (namesClass_internClass interned grows)⟩

theorem Conversion.mapM_emit_spec {conversions : List Conversion} {bench last : Workbench}
    {pieces : List Piece} {pool : ConstantPool}
    (succeeded : conversions.mapM Conversion.emit bench = .ok pieces last)
    (grows : last.pool.Grows pool) :
    ∃ instructions, pieces = instructions.map .fixed ∧
      List.Forall₂ (Conversion.Emitted pool) conversions instructions := by
  have each := mapM_spec Conversion.interning_emit (fun _ _ _ _ => Conversion.emit_spec)
    succeeded grows
  clear succeeded
  induction each with
  | nil => exact ⟨[], rfl, .nil⟩
  | cons emitted _ ih =>
      rcases emitted with ⟨instruction, rfl, emitted⟩
      rcases ih with ⟨instructions, rfl, others⟩
      exact ⟨instruction :: instructions, rfl, .cons emitted others⟩

namespace Counterpart

theorem interning_emit (main : Counterpart) (located : Located) :
    Interning (main.emit located) := by
  cases main with
  | readValue index =>
      apply interning_bind interning_get
      intro bench
      apply interning_bind (interning_require _ _)
      intro field
      exact interning_bind (interning_internField _) fun _ => interning_pure _
  | createArray element => exact interning_bind (interning_internClass _) fun _ => interning_pure _
  | _ => exact interning_pure _

theorem emit_spec {main : Counterpart} {located : Located} {bench last : Workbench}
    {piece : Piece} {pool : ConstantPool} (succeeded : main.emit located bench = .ok piece last)
    (grows : last.pool.Grows pool) : main.Emitted pool located piece := by
  cases main with
  | kept =>
      rcases pure_eq_ok_iff.1 succeeded with ⟨rfl, _⟩
      exact .kept
  | loadValue slot =>
      rcases pure_eq_ok_iff.1 succeeded with ⟨rfl, _⟩
      exact .loadValue
  | storeValue slot =>
      rcases pure_eq_ok_iff.1 succeeded with ⟨rfl, _⟩
      exact .storeValue
  | readValue index =>
      rcases bind_eq_ok_iff.1 succeeded with ⟨_, _, ⟨⟩, resolving⟩
      rcases bind_eq_ok_iff.1 resolving with ⟨field, _, required, interning⟩
      rcases require_eq_ok_iff.1 required with ⟨member, rfl⟩
      rcases bind_eq_ok_iff.1 interning with ⟨moved, between, interned, ended⟩
      rcases pure_eq_ok_iff.1 ended with ⟨rfl, rfl⟩
      have later := (interning_internField _ _ _ _ interned).grows
      exact .readValue ((later.trans grows).member? member)
        (namesMember_internField interned grows)
  | createArray element =>
      rcases bind_eq_ok_iff.1 succeeded with ⟨index, between, interned, ended⟩
      rcases pure_eq_ok_iff.1 ended with ⟨rfl, rfl⟩
      exact .createArray (namesClass_internClass interned grows)
  | loadElement =>
      rcases pure_eq_ok_iff.1 succeeded with ⟨rfl, _⟩
      exact .loadElement
  | storeElement =>
      rcases pure_eq_ok_iff.1 succeeded with ⟨rfl, _⟩
      exact .storeElement

end Counterpart

namespace Plan

theorem interning_emit (plan : Plan) (located : Located) : Interning (plan.emit located) := by
  have conversions := interning_mapM Conversion.interning_emit
  apply interning_bind (conversions _)
  intro before
  apply interning_bind (plan.main.interning_emit located)
  intro main
  exact interning_bind (conversions _) fun _ => interning_pure _

/-- The pieces of a segment are those of its plan. -/
theorem emit_spec {plan : Plan} {located : Located} {bench last : Workbench}
    {pieces : List Piece} {pool : ConstantPool}
    (succeeded : plan.emit located bench = .ok pieces last) (grows : last.pool.Grows pool) :
    ∃ before main after, pieces = before.map .fixed ++ main :: after.map .fixed ∧
      plan.Emitted pool located before main after := by
  rcases bind_eq_ok_iff.1 succeeded with ⟨earlier, first, prepared, succeeded⟩
  rcases bind_eq_ok_iff.1 succeeded with ⟨main, second, ran, succeeded⟩
  rcases bind_eq_ok_iff.1 succeeded with ⟨later, third, finished, ended⟩
  rcases pure_eq_ok_iff.1 ended with ⟨rfl, rfl⟩
  have growsLast := (interning_mapM Conversion.interning_emit _ _ _ _ finished).grows.trans grows
  have growsMain := (plan.main.interning_emit located _ _ _ ran).grows.trans growsLast
  rcases Conversion.mapM_emit_spec prepared growsMain with ⟨before, rfl, emittedBefore⟩
  rcases Conversion.mapM_emit_spec finished grows with ⟨after, rfl, emittedAfter⟩
  exact ⟨before, main, after, rfl, emittedBefore, Counterpart.emit_spec ran growsLast,
    emittedAfter⟩

end Plan

namespace Emission

/-- The conversion of an incoming slot: load the reference, unbox it, and store
the value in its place. -/
def ConvertsSlot (pool : ConstantPool) (slot : UInt16) (className : String)
    (instructions : List Instruction) : Prop :=
  ∃ index, instructions = [.loadReference slot, .unbox index, .storeValue slot] ∧
    pool.NamesClass index (valueClassName className)

theorem interning_convertSlot (slot : UInt16) (className : String) :
    Interning (convertSlot slot className) :=
  interning_bind (interning_internClass _) fun _ => interning_pure _

theorem interning_prologueOf (registry : Registry) : Interning (prologueOf registry) := by
  apply interning_bind
  · exact interning_mapM (fun _ => interning_convertSlot _ _) _
  · exact fun _ => interning_pure _

theorem prologueOf_spec {registry : Registry} {bench last : Workbench}
    {prologue : List Instruction} {pool : ConstantPool}
    (succeeded : prologueOf registry bench = .ok prologue last)
    (grows : last.pool.Grows pool) :
    ∃ conversions, prologue = conversions.flatten ∧
      List.Forall₂ (fun entry => ConvertsSlot pool entry.1 entry.2.1)
        (registry.entryConversions.filter fun (_, _, forced) => !forced) conversions := by
  rcases bind_eq_ok_iff.1 succeeded with ⟨conversions, between, converted, ended⟩
  rcases pure_eq_ok_iff.1 ended with ⟨rfl, rfl⟩
  refine ⟨conversions, rfl, ?_⟩
  refine mapM_spec (fun _ => interning_convertSlot _ _) ?_ converted grows
  intro entry start instructions stop succeeded grows
  rcases bind_eq_ok_iff.1 succeeded with ⟨index, _, interned, ended⟩
  rcases pure_eq_ok_iff.1 ended with ⟨rfl, rfl⟩
  exact ⟨index, rfl, namesClass_internClass interned grows⟩

theorem interning_segment (registry : Registry) (index : Nat) (located : Located) :
    Interning (segment registry index located) := by
  rw [segment_eq_emit]
  exact Plan.interning_emit _ located

/-- The pieces are what a plan is emitted as. -/
def IsSegment (pool : ConstantPool) (registry : Registry) (index : Nat) (located : Located)
    (pieces : List Piece) : Prop :=
  ∃ before main after, pieces = before.map .fixed ++ main :: after.map .fixed ∧
    (registry.plan index located.instruction).Emitted pool located before main after

theorem segment_spec {registry : Registry} {index : Nat} {located : Located}
    {bench last : Workbench} {pieces : List Piece} {pool : ConstantPool}
    (succeeded : segment registry index located bench = .ok pieces last)
    (grows : last.pool.Grows pool) : IsSegment pool registry index located pieces := by
  rw [segment_eq_emit] at succeeded
  exact Plan.emit_spec succeeded grows

theorem interning_ofBody (body : MethodBody) (registry : Registry) :
    Interning (ofBody body registry) := by
  apply interning_bind (interning_prologueOf registry)
  intro prologue
  apply interning_bind (interning_mapIdxM (interning_segment registry) _)
  exact fun _ => interning_pure _

theorem additive_ofBody (body : MethodBody) (registry : Registry) :
    Additive (ofBody body registry) :=
  (interning_ofBody body registry).additive

/-- What is emitted for a body. -/
theorem ofBody_spec {body : MethodBody} {registry : Registry} {bench last : Workbench}
    {emission : Emission} {pool : ConstantPool}
    (succeeded : ofBody body registry bench = .ok emission last)
    (grows : last.pool.Grows pool) :
    (∃ conversions, emission.prologue = conversions.flatten ∧
      List.Forall₂ (fun entry => ConvertsSlot pool entry.1 entry.2.1)
        (registry.entryConversions.filter fun (_, _, forced) => !forced) conversions) ∧
    emission.segments.size = body.instructions.size ∧
    ∀ (index : Nat) (located : Located), body.instructions[index]? = some located →
      ∃ pieces, emission.segments[index]? = some pieces ∧
        IsSegment pool registry index located pieces := by
  rcases bind_eq_ok_iff.1 succeeded with ⟨prologue, between, opened, emitted⟩
  rcases bind_eq_ok_iff.1 emitted with ⟨segments, after, traversed, ended⟩
  rcases pure_eq_ok_iff.1 ended with ⟨rfl, rfl⟩
  have later := (interning_mapIdxM (interning_segment registry) _ _ _ _ traversed).grows
  have each := mapIdxM_spec (interning_segment registry) (fun _ _ _ _ _ => segment_spec) traversed
    grows
  exact ⟨prologueOf_spec opened (later.trans grows), each.1, each.2⟩

end Emission

end ValueForm
