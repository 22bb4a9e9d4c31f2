import ValueForm.ClassFile.DebugTable
import ValueForm.Proofs.Reader

/-!
# Debugging tables read back

A row of a debugging table is read from exactly what is written for it, and so is a
table whose rows can be counted.
-/

namespace ValueForm

open Reader

namespace LineNumber

theorem reads_toBytes (entry : LineNumber) : read.Reads entry.toBytes entry :=
  (reads_u16 _).bind (reads_u16 _).bind_pure

theorem exact_read : read.Exact toBytes :=
  Consumes.exact (exact_u16.bind fun _ => exact_u16.bind fun _ => consumes_pure rfl)

/-- A table is read from exactly what is written for it, if its rows can be counted. -/
theorem readTable_eq_ok_iff {input rest : Bytes} {table : List LineNumber} :
    readTable input = .ok (table, rest) ↔
      table.length ≤ 65535 ∧ input = tableBytes table ++ rest :=
  Reader.eq_ok_iff (fun _ few => reads_counted16 few fun entry _ => reads_toBytes entry)
    exact_read.consumes_counted16

theorem readTable_tableBytes {table : List LineNumber} (few : table.length ≤ 65535) :
    readTable (tableBytes table) = .ok (table, []) :=
  readTable_eq_ok_iff.2 ⟨few, (List.append_nil _).symm⟩

end LineNumber

namespace LocalVariable

theorem reads_toBytes (item : LocalVariable) : read.Reads item.toBytes item := by
  simp only [toBytes, List.append_assoc]
  exact (reads_u16 _).bind ((reads_u16 _).bind ((reads_u16 _).bind
    ((reads_u16 _).bind (reads_u16 _).bind_pure)))

theorem exact_read : read.Exact toBytes :=
  Consumes.exact (exact_u16.bind fun _ => exact_u16.bind fun _ => exact_u16.bind fun _ =>
    exact_u16.bind fun _ => exact_u16.bind fun _ => consumes_pure rfl)

/-- A table is read from exactly what is written for it, if its rows can be counted. -/
theorem readTable_eq_ok_iff {input rest : Bytes} {table : List LocalVariable} :
    readTable input = .ok (table, rest) ↔
      table.length ≤ 65535 ∧ input = tableBytes table ++ rest :=
  Reader.eq_ok_iff (fun _ few => reads_counted16 few fun item _ => reads_toBytes item)
    exact_read.consumes_counted16

theorem readTable_tableBytes {table : List LocalVariable} (few : table.length ≤ 65535) :
    readTable (tableBytes table) = .ok (table, []) :=
  readTable_eq_ok_iff.2 ⟨few, (List.append_nil _).symm⟩

@[simp]
theorem length_tableBytes (table : List LocalVariable) :
    (tableBytes table).length = 2 + 10 * table.length := by
  have each (item : LocalVariable) : item.toBytes.length = 10 := by
    simp [toBytes]
  simp [tableBytes, Bytes.counted16, Bytes.count16, each, Nat.mul_comm]

end LocalVariable

end ValueForm
