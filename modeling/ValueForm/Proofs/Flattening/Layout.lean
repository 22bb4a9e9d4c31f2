import ValueForm.Flattening.Layout
import ValueForm.Proofs.Flattening.Workbench

/-!
# Addresses of segments

`Layout.bounds` holds the addresses of the segments and, at the end, that of the
end of the code. Whatever rounds of widening came before, the bounds of a layout
are those of its segments laid out back to back behind the prologue.
-/

namespace ValueForm

/-- The addresses of the segments and the end of the code. -/
def Layout.bounds (layout : Layout) : Array Nat :=
  layout.starts.push layout.stop

namespace Emission

@[simp]
theorem instructionsEnd_append (start : Nat) (first second : List Instruction) :
    instructionsEnd start (first ++ second) =
      instructionsEnd (instructionsEnd start first) second :=
  List.foldl_append

@[simp]
theorem segmentEnd_fixed (widened : Bool) (start : Nat) (instructions : List Instruction) :
    segmentEnd widened start (instructions.map .fixed) = instructionsEnd start instructions := by
  rw [segmentEnd, List.foldl_map]
  rfl

/-- The addresses of segments laid out back to back, and the end of the last. -/
def boundaries : (start : Nat) → List (List Piece × Bool) → List Nat
  | start, [] => [start]
  | start, (pieces, long) :: rest => start :: boundaries (segmentEnd long start pieces) rest

@[simp]
theorem length_boundaries (start : Nat) (segments : List (List Piece × Bool)) :
    (boundaries start segments).length = segments.length + 1 := by
  induction segments generalizing start with
  | nil => rfl
  | cons segment rest ih => simp [boundaries, ih]

theorem getElem?_boundaries_zero (start : Nat) (segments : List (List Piece × Bool)) :
    (boundaries start segments)[0]? = some start := by
  cases segments <;> rfl

/-- Between neighbouring boundaries lies a segment. -/
theorem getElem?_boundaries {segments : List (List Piece × Bool)} {index : Nat}
    {pieces : List Piece} {long : Bool} (found : segments[index]? = some (pieces, long))
    (start : Nat) :
    ∃ address, (boundaries start segments)[index]? = some address ∧
      (boundaries start segments)[index + 1]? = some (segmentEnd long address pieces) := by
  induction segments generalizing start index with
  | nil => cases found
  | cons segment rest ih =>
      cases index with
      | zero =>
          cases found
          exact ⟨start, rfl, getElem?_boundaries_zero _ rest⟩
      | succ index => exact ih found _

theorem foldl_place (segments : List (List Piece × Bool)) (starts : Array Nat) (start : Nat) :
    let placed := segments.foldl (fun (starts, address) (pieces, long) =>
      (starts.push address, segmentEnd long address pieces)) (starts, start)
    (placed.1.push placed.2).toList = starts.toList ++ boundaries start segments := by
  induction segments generalizing starts start with
  | nil => simp [boundaries]
  | cons segment rest ih =>
      dsimp only [List.foldl_cons]
      rw [ih]
      simp [boundaries]

/-- Segments are laid out back to back behind the prologue. -/
theorem bounds_place (emission : Emission) (widened : Array Bool) :
    (emission.place widened).bounds.toList =
      boundaries (instructionsEnd 0 emission.prologue)
        (emission.segments.zip widened).toList := by
  have placed := foldl_place (emission.segments.zip widened).toList #[]
    (instructionsEnd 0 emission.prologue)
  rw [Array.foldl_toList] at placed
  exact placed

/-- What a layout of a given emission looks like. -/
structure LaidOut (emission : Emission) (layout : Layout) : Prop where
  size : layout.bounds.size = emission.segments.size + 1
  first : layout.bounds[0]? = some (instructionsEnd 0 emission.prologue)
  next : ∀ (index : Nat) (pieces : List Piece), emission.segments[index]? = some pieces →
    ∃ start long, layout.bounds[index]? = some start ∧ layout.widened[index]? = some long ∧
      layout.bounds[index + 1]? = some (segmentEnd long start pieces)

theorem laidOut_place (emission : Emission) {widened : Array Bool}
    (size : widened.size = emission.segments.size) :
    emission.LaidOut (emission.place widened) := by
  have bounds := emission.bounds_place widened
  constructor
  · rw [← Array.length_toList, bounds, length_boundaries]
    simp [size]
  · rw [← Array.getElem?_toList, bounds, getElem?_boundaries_zero]
  · intro index pieces found
    have inRange : index < widened.size := size ▸ (Array.getElem?_eq_some_iff.1 found).1
    have long := Array.getElem?_eq_getElem inRange
    have paired : (emission.segments.zip widened).toList[index]? =
        some (pieces, widened[index]) := by
      rw [Array.getElem?_toList, Array.getElem?_zip_eq_some]
      exact ⟨found, long⟩
    rcases getElem?_boundaries paired (instructionsEnd 0 emission.prologue) with
      ⟨start, atIndex, atNext⟩
    rw [← bounds, Array.getElem?_toList] at atIndex atNext
    exact ⟨start, widened[index], atIndex, long, atNext⟩

/-! ## Widening -/

open Flatten

/-- Widening changes no pool, and as many segments are marked as before. -/
theorem widenSegment_spec (relocation : Relocation) (index : Nat) (pieces : List Piece)
    (widened : Array Bool) :
    Interning (widenSegment relocation index pieces widened) ∧
      Ensures (widenSegment relocation index pieces widened)
        fun result => result.size = widened.size := by
  unfold widenSegment
  split
  · exact ⟨interning_pure widened, ensures_pure rfl⟩
  · constructor
    · apply interning_foldlM
      rintro marks ⟨address, instruction, source⟩
      apply interning_bind (interning_ofExcept _)
      intro mustWiden
      split
      · exact interning_bind (interning_leave _) fun _ => interning_pure _
      · exact interning_pure _
    · refine ensures_foldlM ?_ _ rfl
      rintro marks ⟨address, instruction, source⟩ size
      apply ensures_bind
      intro mustWiden
      split
      · exact ensures_bind fun _ => ensures_pure (by rw [Array.size_setIfInBounds, size])
      · exact ensures_pure size

theorem widenRound_spec (emission : Emission) (relocation : Relocation) :
    Interning (emission.widenRound relocation) ∧
      Ensures (emission.widenRound relocation)
        fun result => result.size = relocation.layout.widened.size := by
  constructor
  · apply interning_foldlM
    rintro marks ⟨pieces, index⟩
    exact (widenSegment_spec relocation index pieces marks).1
  · refine ensures_foldlM ?_ _ rfl
    rintro marks ⟨pieces, index⟩ size bench last result succeeded
    exact ((widenSegment_spec relocation index pieces marks).2 _ _ _ succeeded).trans size

/-- The code is laid out, with the addresses and the length from before. -/
structure Relocates (emission : Emission) (addresses : AddressMap) (oldLength : Nat)
    (relocation : Relocation) : Prop where
  addresses : relocation.addresses = addresses
  oldLength : relocation.oldLength = oldLength
  laidOut : emission.LaidOut relocation.layout

theorem settle_spec (emission : Emission) (addresses : AddressMap) (oldLength rounds : Nat)
    {widened : Array Bool} (size : widened.size = emission.segments.size) :
    Interning (emission.settle addresses oldLength rounds widened) ∧
      Ensures (emission.settle addresses oldLength rounds widened)
        (emission.Relocates addresses oldLength) := by
  -- Every round lays out anew, so of the marks only their number matters.
  have laidOut := emission.laidOut_place size
  induction rounds generalizing widened with
  | zero => exact ⟨interning_pure _, ensures_pure ⟨rfl, rfl, laidOut⟩⟩
  | succ rounds ih =>
      rcases emission.widenRound_spec ⟨addresses, oldLength, emission.place widened⟩ with
        ⟨interning, keepsSize⟩
      unfold settle
      constructor
      · intro bench last result succeeded
        rcases bind_eq_ok_iff.1 succeeded with ⟨next, between, widens, settles⟩
        have sizeNext : next.size = emission.segments.size :=
          (keepsSize _ _ _ widens).trans size
        have earlier := interning _ _ _ widens
        split at settles
        · exact earlier.trans (interning_pure _ _ _ _ settles)
        · exact earlier.trans ((ih sizeNext (emission.laidOut_place sizeNext)).1 _ _ _ settles)
      · intro bench last result succeeded
        rcases bind_eq_ok_iff.1 succeeded with ⟨next, between, widens, settles⟩
        have sizeNext : next.size = emission.segments.size :=
          (keepsSize _ _ _ widens).trans size
        split at settles
        · rcases pure_eq_ok_iff.1 settles with ⟨rfl, _⟩
          exact ⟨rfl, rfl, laidOut⟩
        · exact (ih sizeNext (emission.laidOut_place sizeNext)).2 _ _ _ settles

/-- Laying out only leaves notes. -/
theorem interning_layOut (emission : Emission) (addresses : AddressMap) (oldLength : Nat) :
    Interning (emission.layOut addresses oldLength) := by
  apply interning_bind (emission.settle_spec addresses oldLength _ Array.size_replicate).1
  intro relocation
  dsimp only
  split
  · exact interning_bind (interning_throw _) fun _ => interning_pure _
  · exact interning_pure _

/-- Laying out yields a layout of the emitted code that fits into a method. -/
theorem layOut_spec (emission : Emission) (addresses : AddressMap) (oldLength : Nat) :
    Additive (emission.layOut addresses oldLength) ∧
      Ensures (emission.layOut addresses oldLength) fun relocation =>
        emission.Relocates addresses oldLength relocation ∧ relocation.layout.stop ≤ 65535 := by
  have size : (Array.replicate emission.segments.size false).size = emission.segments.size :=
    Array.size_replicate
  have settles := (emission.settle_spec addresses oldLength (emission.segments.size + 1) size).2
  refine ⟨(emission.interning_layOut addresses oldLength).additive, ?_⟩
  intro bench last result succeeded
  rcases bind_eq_ok_iff.1 succeeded with ⟨relocation, between, settled, bounded⟩
  dsimp only at bounded
  split at bounded
  · rcases bind_eq_ok_iff.1 bounded with ⟨_, _, ⟨⟩, _⟩
  · next fits =>
      rcases pure_eq_ok_iff.1 bounded with ⟨rfl, _⟩
      exact ⟨settles _ _ _ settled, Nat.le_of_not_lt fits⟩

end Emission

end ValueForm
