import ValueForm.Flattening.Body
import ValueForm.Proofs.Flattening.Counterparts
import ValueForm.Proofs.Flattening.Emission
import ValueForm.Proofs.Flattening.Layout
import ValueForm.Proofs.Instruction.Branch

/-!
# Code that has moved

The code of a flattened body is its prologue and behind it one segment for every
instruction of the body before, each at the address its layout gives it. A branch
leads to the start of the segment of the instruction it led to before, in its
own form or in its long one, and nothing jumps anywhere but to the start of a
segment or the end of the code.
-/

namespace ValueForm

/-- The instruction at an old address has its segment at a new one. -/
def MethodBody.MovesTo (body : MethodBody) (bounds : Array Nat) (old : Int) (new : Nat) : Prop :=
  ∃ (index : Nat) (destination : Located), body.instructions[index]? = some destination ∧
    (destination.address : Int) = old ∧ bounds[index]? = some new

theorem Layout.getElem?_bounds {layout : Layout} {index start : Nat}
    (found : layout.starts[index]? = some start) : layout.bounds[index]? = some start := by
  have inRange := (Array.getElem?_eq_some_iff.1 found).1
  rw [bounds, Array.getElem?_push, if_neg (Nat.ne_of_lt inRange), found]

namespace Relocation

variable {relocation : Relocation} {body : MethodBody}

/-- An address moves with the instruction that is there. -/
theorem movesTo_of_address? (isOwn : relocation.addresses = body.addresses) {old new : Nat}
    (moved : relocation.address? old = some new) :
    body.MovesTo relocation.layout.bounds old new := by
  rcases Option.bind_eq_some_iff.1 moved with ⟨index, atKey, isStart⟩
  rw [isOwn] at atKey
  rcases MethodBody.getElem?_addresses atKey with ⟨destination, atIndex, rfl⟩
  exact ⟨index, destination, atIndex, rfl, relocation.layout.getElem?_bounds isStart⟩

/-- A target moves with the instruction that is there. -/
theorem movesTo_of_target (isOwn : relocation.addresses = body.addresses) {source target : Nat}
    {offset : Int32} (moved : relocation.target source offset = .ok target) :
    body.MovesTo relocation.layout.bounds (source + offset.toInt) target := by
  unfold Relocation.target at moved
  generalize (source : Int) + offset.toInt = old at moved ⊢
  dsimp only at moved
  split at moved
  · next address found =>
      cases moved
      split at found
      · next key =>
          split at found
          · exact movesTo_of_address? isOwn found
          · cases found
      · cases found
  · cases moved

/-- The offsets of a branch that moved reach its targets. -/
theorem offsets_spec {address source : Nat} {instruction : Instruction} {offsets : List Int32}
    (succeeded : relocation.offsets address source instruction = .ok offsets) :
    ∃ targets : List Nat,
      List.Forall₂ (fun offset target => relocation.target source offset = .ok target)
        instruction.branchOffsets targets ∧
      offsets.map (fun offset => (address : Int) + offset.toInt) = targets.map Int.ofNat := by
  rcases Outcome.bind_eq_ok_iff.1 succeeded with ⟨targets, located, measured⟩
  refine ⟨targets, Outcome.forall₂_of_mapM located, ?_⟩
  have each := Outcome.forall₂_of_mapM measured
  clear measured located succeeded
  induction each with
  | nil => rfl
  | cons here _ ih =>
      rw [List.map_cons, List.map_cons, ih]
      congr 1
      split at here
      · next offset fits =>
          cases here
          rw [toInt_of_offset32? fits]
          exact (Int.add_comm _ _).trans (Int.sub_add_cancel _ _)
      · cases here

/-- A branch that moved is aimed at its targets. -/
theorem moveBranch_spec {widened : Bool} {address source : Nat} {instruction : Instruction}
    {form : List Instruction} (isBranch : instruction.isBranch = true)
    (succeeded : relocation.moveBranch widened address source instruction = .ok form) :
    ∃ targets : List Nat,
      List.Forall₂ (fun offset target => relocation.target source offset = .ok target)
        instruction.branchOffsets targets ∧
      instruction.Redirected address
        (address + (Piece.branch instruction source).size widened address) targets form := by
  rcases Outcome.bind_eq_ok_iff.1 succeeded with ⟨offsets, measured, formed⟩
  rcases offsets_spec measured with ⟨targets, each, reaches⟩
  refine ⟨targets, each, ?_⟩
  have sameLength : offsets.length = targets.length := by
    simpa using congrArg List.length reaches
  dsimp only at formed
  split at formed
  · next moved =>
      cases formed
      cases widened with
      | true =>
          rcases Option.bind_eq_some_iff.1 moved with ⟨offset, isFirst, widens⟩
          rcases Instruction.branchOffsets_of_widen? widens with ⟨old, isOnly⟩
          rw [isOnly] at each
          rcases List.forall₂_cons_left_iff.1 each with ⟨target, rest, _, noMore, rfl⟩
          cases noMore
          rcases List.map_eq_singleton_iff.1 reaches with ⟨_, rfl, reached⟩
          cases isFirst
          exact Instruction.redirected_of_widen? widens reached
      | false =>
          rcases Option.map_eq_some_iff.1 moved with ⟨instruction', placed, rfl⟩
          rcases Instruction.sameBranch_of_withBranchOffsets? isBranch
            (sameLength.trans each.length_eq.symm) placed with ⟨same, rfl⟩
          exact .moved same reaches (congrArg (address + ·) (same.size_eq address))
  · cases formed

end Relocation

end ValueForm
