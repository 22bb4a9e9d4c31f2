import Mathlib.Data.Fintype.Card
import ValueForm.Proofs.Flattening.Convergence
import ValueForm.Proofs.Flattening.Erasure
import ValueForm.Proofs.Instruction.Padding

/-!
# How much longer code gets

An instruction is emitted as itself or as a counterpart, with at most one conversion on
either side, and a slot is converted at entry at most once. So whatever branches are
widened, flattened code has at most 12 bytes for each byte of the code before, and 11 for
each slot. Addresses are natural numbers; by this bound none of a body with fewer than
2²⁷ bytes of code needs more than 31 bits, before layout or after it.
-/

namespace ValueForm

namespace Instruction

/-- Where it lies makes a difference of at most three bytes of padding. -/
theorem size_le_add_three (instruction : Instruction) (first second : Nat) :
    instruction.size first ≤ instruction.size second + 3 := by
  cases instruction with
  | tableSwitch fallback low high offsets =>
      simp only [size, padding]
      omega
  | lookupSwitch fallback pairs =>
      simp only [size, padding]
      omega
  | load kind slot | store kind slot => cases slot <;> exact Nat.le_add_right _ _
  | ret slot | valueLoad slot | valueStore slot => cases slot <;> exact Nat.le_add_right _ _
  | _ => exact Nat.le_add_right _ _

/-- The longest a branch gets is an inverted test and a wide jump in its place. -/
theorem widestSize_le_add_five (instruction : Instruction) (first second : Nat) :
    instruction.widestSize first ≤ instruction.size second + 5 := by
  have narrow := instruction.size_le_add_three first second
  cases instruction with
  | branch | goto | jsr | gotoWide | jsrWide => exact Nat.le_of_ble_eq_true rfl
  | _ => exact narrow.trans (Nat.add_le_add_left (Nat.le_of_ble_eq_true rfl) _)

theorem size_loadValue_le (slot : UInt16) (address : Nat) :
    (loadValue slot).size address ≤ 4 := by
  unfold loadValue SlotOperand.shortest
  split <;> exact Nat.le_of_ble_eq_true rfl

theorem size_storeValue_le (slot : UInt16) (address : Nat) :
    (storeValue slot).size address ≤ 4 := by
  unfold storeValue SlotOperand.shortest
  split <;> exact Nat.le_of_ble_eq_true rfl

theorem size_loadReference_le (slot : UInt16) (address : Nat) :
    (loadReference slot).size address ≤ 4 := by
  unfold loadReference SlotOperand.shortest
  split
  · exact Nat.le_of_ble_eq_true rfl
  · split <;> exact Nat.le_of_ble_eq_true rfl

end Instruction

theorem Piece.widestSize_keep_le (located : Located) (address : Nat) :
    (Piece.keep located).widestSize address ≤ located.size + 5 := by
  unfold Piece.keep
  split
  · exact located.instruction.widestSize_le_add_five address located.address
  · exact (located.instruction.size_le_add_three address located.address).trans
      (Nat.add_le_add_left (Nat.le_of_ble_eq_true rfl) _)

theorem Counterpart.Emitted.widestSize_le {pool : ConstantPool} {located : Located}
    {counterpart : Counterpart} {piece : Piece}
    (emitted : counterpart.Emitted pool located piece) (address : Nat) :
    piece.widestSize address ≤ located.size + 5 := by
  cases emitted with
  | kept => exact Piece.widestSize_keep_le located address
  | loadValue =>
      exact (Instruction.size_loadValue_le _ address).trans (Nat.le_add_left 4 (located.size + 1))
  | storeValue =>
      exact (Instruction.size_storeValue_le _ address).trans (Nat.le_add_left 4 (located.size + 1))
  | readValue | createArray => exact Nat.le_add_left 3 (located.size + 2)
  | loadElement | storeElement => exact Nat.le_add_left 1 (located.size + 4)

namespace Emission

@[simp]
theorem widestEnd_cons (start : Nat) (piece : Piece) (rest : List Piece) :
    widestEnd start (piece :: rest) = widestEnd (start + piece.widestSize start) rest :=
  rfl

@[simp]
theorem widestEnd_append (start : Nat) (first second : List Piece) :
    widestEnd start (first ++ second) = widestEnd (widestEnd start first) second :=
  List.foldl_append

theorem widestEnd_conversion_le {instructions : List Instruction}
    (conversion : AtMostOneConversion instructions) (start : Nat) :
    widestEnd start (instructions.map .fixed) ≤ start + 3 := by
  cases conversion with
  | nothing => exact Nat.le_add_right start 3
  | box | unbox => exact Nat.le_refl _

/-- A segment is at most 11 bytes longer than its instruction. -/
theorem IsSegment.widestEnd_le {pool : ConstantPool} {registry : Registry} {index : Nat}
    {located : Located} {pieces : List Piece}
    (segment : IsSegment pool registry index located pieces) (start : Nat) :
    widestEnd start pieces ≤ start + (located.size + 11) := by
  rcases segment with ⟨before, main, after, rfl, emitted⟩
  have atMain := widestEnd_conversion_le (Conversion.atMostOne emitted.before) start
  have behind := emitted.main.widestSize_le (widestEnd start (before.map .fixed))
  rw [widestEnd_append, widestEnd_cons]
  refine (widestEnd_conversion_le (Conversion.atMostOne emitted.after) _).trans ?_
  omega

theorem widestEnd_flatten_le {code : List Located} {segments : List (List Piece)}
    (each : List.Forall₂ (fun located pieces => ∀ start,
      widestEnd start pieces ≤ start + (located.size + 11)) code segments) (start : Nat) :
    widestEnd start segments.flatten ≤ start + (Code.extent code + 11 * code.length) := by
  induction each generalizing start with
  | nil => exact Nat.le_add_right start _
  | @cons located pieces code segments here _ ih =>
      have first := here start
      have others := ih (widestEnd start pieces)
      rw [List.flatten_cons, widestEnd_append, Code.extent_cons, List.length_cons]
      omega

theorem ConvertsSlot.instructionsEnd_le {pool : ConstantPool} {slot : UInt16}
    {className : String} {instructions : List Instruction}
    (converts : ConvertsSlot pool slot className instructions) (start : Nat) :
    instructionsEnd start instructions ≤ start + 11 := by
  rcases converts with ⟨index, rfl, _⟩
  have load := Instruction.size_loadReference_le slot start
  have store := Instruction.size_storeValue_le slot
    (start + (Instruction.loadReference slot).size start + 3)
  change start + (Instruction.loadReference slot).size start + 3 +
    (Instruction.storeValue slot).size (start + (Instruction.loadReference slot).size start + 3) ≤ _
  omega

theorem instructionsEnd_flatten_le {pool : ConstantPool}
    {entries : List (UInt16 × String × Bool)} {conversions : List (List Instruction)}
    (each : List.Forall₂ (fun entry => ConvertsSlot pool entry.1 entry.2.1) entries conversions)
    (start : Nat) :
    instructionsEnd start conversions.flatten ≤ start + 11 * entries.length := by
  induction each generalizing start with
  | nil => exact Nat.le_refl _
  | @cons entry conversion entries conversions here _ ih =>
      have first := here.instructionsEnd_le start
      have others := ih (instructionsEnd start conversion)
      rw [List.flatten_cons, instructionsEnd_append, List.length_cons]
      omega

end Emission

/-- Every slot is converted at entry at most once. -/
theorem Registry.length_entryConversions_le {registry : Registry} (enters : registry.Enters) :
    registry.entryConversions.length ≤ 65536 := by
  have distinct : (registry.entryConversions.map (·.1.toFin)).Nodup := by
    rw [List.Nodup, List.pairwise_map]
    exact (pairwise_entryConversions enters).imp fun less => Fin.ne_of_lt less
  simpa using distinct.length_le_card

namespace MethodBody

variable {answers : String → Except OracleError Bool} {classFile : ClassFile} {body : MethodBody}
  {flatArrays : Bool} {result : AnalysisResult} {bench last : Workbench} {emission : Emission}

/-- Flattened code is longer than the code before by no more than a factor and the
conversions at entry, even with every branch in its widest form. -/
theorem widestStop_le (analyzed : (body.analyze classFile flatArrays).eval answers = .ok result)
    (decoded : Code.decode body.code.code = .ok body.instructions.toList)
    (emitted : Emission.ofBody body result.registry bench = .ok emission last) :
    emission.widestStop ≤ 12 * body.code.code.length + 11 * 65536 := by
  rcases Emission.ofBody_spec emitted (ConstantPool.Grows.refl _) with
    ⟨⟨conversions, isPrologue, converts⟩, count, segments⟩
  have opened := (Emission.instructionsEnd_flatten_le converts 0).trans
    (Nat.add_le_add_left (Nat.mul_le_mul_left 11 ((List.length_filter_le _ _).trans
      (Registry.length_entryConversions_le (enters analyzed)))) 0)
  have each : List.Forall₂ (fun located pieces => ∀ start,
      Emission.widestEnd start pieces ≤ start + (located.size + 11))
      body.instructions.toList emission.segments.toList := by
    refine List.forall₂_iff_get.2 ⟨by simp [count], fun index inBody inSegments => ?_⟩
    have atIndex : body.instructions[index]? =
        some (body.instructions.toList.get ⟨index, inBody⟩) := by
      simp
    rcases segments index _ atIndex with ⟨pieces, isPieces, segment⟩
    rcases Array.getElem?_eq_some_iff.1 isPieces with ⟨_, rfl⟩
    exact segment.widestEnd_le
  have spread := Emission.widestEnd_flatten_le each (Emission.instructionsEnd 0 emission.prologue)
  have few := Code.length_le_extent body.instructions.toList
  rcases Code.exists_locate_of_decode decoded with ⟨_, _, extent⟩
  rw [extent] at spread few
  rw [← isPrologue] at opened
  rw [Emission.widestStop]
  omega

/-- The addresses of a body, and those of all its layouts, need no more than 31 bits. -/
theorem address_lt (analyzed : (body.analyze classFile flatArrays).eval answers = .ok result)
    (decoded : Code.decode body.code.code = .ok body.instructions.toList)
    (short : body.code.code.length < 2 ^ 27)
    (emitted : Emission.ofBody body result.registry bench = .ok emission last) :
    (∀ located ∈ body.instructions, located.address < 2 ^ 31) ∧
      ∀ widened : Array Bool, widened.size = emission.segments.size →
        ∀ (index address : Nat), (emission.place widened).bounds[index]? = some address →
          address < 2 ^ 31 := by
  have most := widestStop_le analyzed decoded emitted
  constructor
  · intro located found
    have within := (Code.pairwise_address_of_decode decoded).2 located
      (Array.mem_toList_iff.2 found)
    omega
  · intro widened size index address isBound
    have within := emission.bounds_place_le size isBound
    omega

/-- After an analysis no branch is ever out of range. -/
theorem flatten_ne_branchOutOfRange
    (analyzed : (body.analyze classFile flatArrays).eval answers = .ok result)
    (decoded : Code.decode body.code.code = .ok body.instructions.toList)
    (short : body.code.code.length < 2 ^ 27) (thisClass : UInt16) (address : Nat) :
    body.flatten thisClass result bench ≠ .error (.branchOutOfRange address) last := by
  intro failed
  have bounded : ∀ emission between, Emission.ofBody body result.registry bench =
      .ok emission between → emission.widestStop < 2 ^ 31 := by
    intro emission between emitted
    have most := widestStop_le analyzed decoded emitted
    omega
  rcases flatten_error_cases bounded failed with
    ⟨_, _, impossible⟩ | ⟨_, _, _, _, _, _, impossible, _⟩ | ⟨_, impossible⟩ | impossible
  · cases impossible
  · cases impossible
  · cases impossible
  · cases impossible

end MethodBody

end ValueForm
