import ValueForm.Proofs.Flattening.Layout

/-!
# How long code can get

`Emission.widestStop` is the length of emitted code in which every branch has its
widest form. No layout goes beyond it, whichever branches it widens: code that
starts later ends later, although a switch that moves may lose padding.
-/

namespace ValueForm

namespace Instruction

/-- What starts later ends later. The padding of a switch makes up for at most
the bytes that it was moved by. -/
theorem end_mono (instruction : Instruction) {first second : Nat} (le : first ≤ second) :
    first + instruction.size first ≤ second + instruction.size second := by
  cases instruction with
  | tableSwitch fallback low high offsets =>
      simp only [size, padding]
      omega
  | lookupSwitch fallback pairs =>
      simp only [size, padding]
      omega
  | load kind slot | store kind slot =>
      cases slot <;> exact Nat.add_le_add_right le _
  | ret slot | valueLoad slot | valueStore slot =>
      cases slot <;> exact Nat.add_le_add_right le _
  | _ => exact Nat.add_le_add_right le _

/-- The length of an instruction at an address in its widest form. -/
def widestSize (address : Nat) (instruction : Instruction) : Nat :=
  instruction.widenedSize?.getD (instruction.size address)

/-- A long form is no shorter than the branch. -/
@[simp]
theorem size_le_widestSize (address : Nat) (instruction : Instruction) :
    instruction.size address ≤ instruction.widestSize address := by
  cases instruction with
  | branch | goto | jsr | gotoWide | jsrWide => exact Nat.le_of_ble_eq_true rfl
  | _ => exact Nat.le_refl _

theorem widenedSize?_le_widestSize (address : Nat) (instruction : Instruction) :
    instruction.widenedSize?.getD 0 ≤ instruction.widestSize address := by
  unfold widestSize
  cases instruction.widenedSize? with
  | none => exact Nat.zero_le _
  | some size => exact Nat.le_refl size

end Instruction

/-- The length of a piece at an address in its widest form. -/
def Piece.widestSize (address : Nat) : Piece → Nat
  | .fixed instruction => instruction.size address
  | .branch instruction _ => instruction.widestSize address

/-- A piece that starts no earlier and is as wide as it can be ends no earlier. -/
theorem Piece.end_le_widestEnd (piece : Piece) (long : Bool) {first second : Nat}
    (le : first ≤ second) :
    first + piece.size long first ≤ second + piece.widestSize second := by
  cases piece with
  | fixed instruction => exact instruction.end_mono le
  | branch instruction source =>
      cases long with
      | false =>
          exact (instruction.end_mono le).trans
            (Nat.add_le_add_left (instruction.size_le_widestSize second) second)
      | true => exact Nat.add_le_add le (instruction.widenedSize?_le_widestSize second)

namespace Emission

/-- The end of pieces laid out from an address in their widest form. -/
def widestEnd (start : Nat) (pieces : List Piece) : Nat :=
  pieces.foldl (fun address piece => address + piece.widestSize address) start

/-- The end of emitted code when every branch has its widest form. -/
def widestStop (emission : Emission) : Nat :=
  widestEnd (instructionsEnd 0 emission.prologue) emission.segments.toList.flatten

@[simp]
theorem segmentEnd_append (long : Bool) (start : Nat) (first second : List Piece) :
    segmentEnd long start (first ++ second) =
      segmentEnd long (segmentEnd long start first) second :=
  List.foldl_append

@[simp]
theorem le_segmentEnd (long : Bool) (start : Nat) (pieces : List Piece) :
    start ≤ segmentEnd long start pieces := by
  induction pieces generalizing start with
  | nil => exact Nat.le_refl start
  | cons piece rest ih => exact (Nat.le_add_right start _).trans (ih _)

@[simp]
theorem le_widestEnd (start : Nat) (pieces : List Piece) : start ≤ widestEnd start pieces := by
  induction pieces generalizing start with
  | nil => exact Nat.le_refl start
  | cons piece rest ih => exact (Nat.le_add_right start _).trans (ih _)

theorem segmentEnd_le_widestEnd (long : Bool) (pieces : List Piece) {first second : Nat}
    (le : first ≤ second) : segmentEnd long first pieces ≤ widestEnd second pieces := by
  induction pieces generalizing first second with
  | nil => exact le
  | cons piece rest ih => exact ih (piece.end_le_widestEnd long le)

/-- No boundary of segments laid out back to back lies beyond their widest end. -/
theorem le_widestEnd_of_mem_boundaries {segments : List (List Piece × Bool)}
    {first second address : Nat} (le : first ≤ second)
    (isBoundary : address ∈ boundaries first segments) :
    address ≤ widestEnd second (segments.map (·.1)).flatten := by
  induction segments generalizing first second with
  | nil =>
      cases List.mem_singleton.1 isBoundary
      exact le
  | cons segment rest ih =>
      rcases segment with ⟨pieces, long⟩
      rw [List.map_cons, List.flatten_cons, widestEnd, List.foldl_append]
      rcases List.mem_cons.1 isBoundary with rfl | isLater
      · exact (le.trans (le_widestEnd second pieces)).trans (le_widestEnd _ _)
      · exact ih (segmentEnd_le_widestEnd long pieces le) isLater

/-- No segment of a layout ends beyond the widest end of the code. -/
theorem bounds_place_le (emission : Emission) {widened : Array Bool}
    (size : widened.size = emission.segments.size) {index address : Nat}
    (found : (emission.place widened).bounds[index]? = some address) :
    address ≤ emission.widestStop := by
  have isBoundary : address ∈ (emission.place widened).bounds.toList :=
    Array.mem_toList_iff.2 (Array.mem_of_getElem? found)
  rw [bounds_place] at isBoundary
  have most := le_widestEnd_of_mem_boundaries (Nat.le_refl _) isBoundary
  rwa [Array.toList_zip, List.map_fst_zip (by simp [size])] at most

end Emission

end ValueForm
