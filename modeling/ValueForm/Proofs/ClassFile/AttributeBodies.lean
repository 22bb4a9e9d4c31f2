import ValueForm.Proofs.ClassFile.DebugTable
import ValueForm.Proofs.ClassFile.RoundTrip
import ValueForm.Proofs.StackMap.Frame

/-!
# Attribute bodies read back

The bodies of attributes that are taken apart are method code, line numbers, local
variables and stack maps. Each is read from exactly what is written for a value
whose lists fit the fields that count them, and reading stops behind it.
-/

namespace ValueForm

namespace StackMapFrame

/-- A table with a frame of each shape and a verification type of each kind. -/
def everyShape : List StackMapFrame :=
  [.same (Fin.last 63), .sameItem (Fin.last 63) .integer, .sameItemExtended 300 (.object 9),
    .chop (Fin.last 2) 4, .sameExtended 70, .append 1 [.top, .float, .null],
    .full 2 [.uninitializedThis, .double, .long] [.uninitialized 12]]

theorem fits_of_mem_everyShape : ∀ frame ∈ everyShape, frame.Fits := by
  simp [everyShape, Fits]

end StackMapFrame

/-- The body of an attribute is read at the front of some bytes exactly if its lists fit
the fields that count them and the bytes are what is written for it, followed by what
is left. The first byte of a frame is one of its shape and counts what it appends. -/
theorem attributeBodies_eq_ok_iff (input rest : Bytes) :
    (∀ body : CodeAttribute, CodeAttribute.read input = .ok (body, rest) ↔
      body.Fits ∧ input = body.toBytes ++ rest) ∧
    (∀ table : List LineNumber, LineNumber.readTable input = .ok (table, rest) ↔
      table.length ≤ 65535 ∧ input = LineNumber.tableBytes table ++ rest) ∧
    (∀ table : List LocalVariable, LocalVariable.readTable input = .ok (table, rest) ↔
      table.length ≤ 65535 ∧ input = LocalVariable.tableBytes table ++ rest) ∧
    (∀ table : List StackMapFrame, StackMapFrame.readTable input = .ok (table, rest) ↔
      (table.length ≤ 65535 ∧ ∀ frame ∈ table, frame.Fits) ∧
        input = StackMapFrame.tableBytes table ++ rest) ∧
    (∀ frame : StackMapFrame, frame.Fits →
      frame.toBytes.head? = some frame.tag ∧ frame.tag.toNat ∈ frame.tags ∧
        ∀ delta locals, frame = .append delta locals →
          locals.length = frame.tag.toNat - 251) := by
  refine ⟨fun body => ?_, fun table => LineNumber.readTable_eq_ok_iff,
    fun table => LocalVariable.readTable_eq_ok_iff,
    fun table => StackMapFrame.readTable_eq_ok_iff, fun frame fits => ?_⟩
  · exact Reader.eq_ok_iff (fun _ => CodeAttribute.reads_toBytes) CodeAttribute.consumes_read
  · refine ⟨rfl, StackMapFrame.tag_mem_tags fits, ?_⟩
    rintro delta locals rfl
    rw [StackMapFrame.toNat_tag fits, StackMapFrame.code, Nat.add_sub_cancel_left]

theorem attributeBodies_eq_ok_iff_everyShape :
    (∀ frame ∈ StackMapFrame.everyShape, frame.Fits) ∧
    StackMapFrame.readTable (StackMapFrame.tableBytes StackMapFrame.everyShape ++ [0]) =
      .ok (StackMapFrame.everyShape, [0]) ∧
    ∀ frame ∈ StackMapFrame.everyShape,
      frame.toBytes.head? = some frame.tag ∧ frame.tag.toNat ∈ frame.tags ∧
        ∀ delta locals, frame = .append delta locals →
          locals.length = frame.tag.toNat - 251 := by
  have fits := StackMapFrame.fits_of_mem_everyShape
  have ⟨_, _, _, frames, tags⟩ := attributeBodies_eq_ok_iff
    (StackMapFrame.tableBytes StackMapFrame.everyShape ++ [0]) [0]
  exact ⟨fits, (frames _).2 ⟨⟨by decide, fits⟩, rfl⟩,
    fun frame isIn => tags frame (fits frame isIn)⟩

end ValueForm
