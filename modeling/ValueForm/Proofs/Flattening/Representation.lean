import ValueForm.Proofs.Analysis.FixedPoint
import ValueForm.Proofs.Flattening.Execution

/-!
# Representation

The decisions of an analysis say how every entry of a frame is held. Running
what stands for an instruction on the forms before it never fails, and what it
leaves fits the forms of every frame that control can go to from there.
-/

namespace ValueForm

namespace Registry

/-- How the decisions hold a value. -/
def form (registry : Registry) : Value → Form
  | .capable _ provenance =>
      if provenance.toList.all registry.isForced then .reference
      else if registry.anyForced provenance then .mixed
      else .value
  | value => if value.isReference then .otherReference else .plain value.isWide

/-- How the decisions hold a frame. -/
def forms (registry : Registry) (frame : Frame) : Forms :=
  ⟨frame.locals.map registry.form, frame.stack.map registry.form⟩

/-- The site has a decision. -/
def Decides (registry : Registry) (site : Site) : Prop :=
  registry.get? site ≠ none

variable {registry : Registry}

end Registry

/-- A rearrangement moves entries without looking at them. -/
theorem StackOp.shuffle_map {α β : Type} (convert : α → β) {isWide : α → Bool}
    {isWide' : β → Bool} (same : ∀ entry, isWide' (convert entry) = isWide entry) (op : StackOp)
    (stack : List α) :
    op.shuffle isWide' (stack.map convert) = (op.shuffle isWide stack).map (List.map convert) := by
  fun_cases StackOp.shuffle isWide op stack
  case case24 =>
      cases op <;> rcases stack with _ | ⟨first, _ | ⟨second, rest⟩⟩ <;>
        simp_all [StackOp.shuffle]
  all_goals simp_all [StackOp.shuffle]

namespace Instruction

variable {pool : ConstantPool} {capable : String → Bool} {instruction : Instruction}

end Instruction

/-- The decisions are those that the step of an instruction leads to. -/
structure Registry.Settles (registry : Registry) (index : Nat) (before : Frame)
    (edits : List Edit) : Prop where
  reflects : registry.Reflects (.instruction index) edits
  forced : ∀ sites, Edit.force sites ∈ edits → ∀ site ∈ sites, registry.isForced site = true
  agreed : ∀ group, Edit.link group ∈ edits → registry.Agree group
  sited : before.Sited registry.Decides

namespace Instruction

variable {place : Place} {capable : String → Bool} {registry : Registry}

end Instruction

end ValueForm
