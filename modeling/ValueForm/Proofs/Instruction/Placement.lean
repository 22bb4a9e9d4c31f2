import ValueForm.Proofs.Instruction.Code

/-!
# Where instructions lie

Instructions that are laid out back to back take up the sum of their sizes, each
size taken where the instruction lies: that of a switch depends on the address.
Code taken apart gives the instructions back at these addresses, provided that
every jump table has the number of offsets its bounds announce.
-/

namespace ValueForm

namespace Located

/-- The number of bytes an instruction takes up where it lies. -/
def size (located : Located) : Nat :=
  located.instruction.size located.address

/-- The address behind an instruction. -/
def stop (located : Located) : Nat :=
  located.address + located.size

end Located

/-- A jump table has one offset for each number from its lower to its upper bound,
and their number is itself a signed 32-bit number. -/
def Instruction.TableComplete : Instruction → Prop
  | .tableSwitch _ low high offsets =>
      low ≤ high ∧ high.toInt - low.toInt + 1 < 2 ^ 31 ∧
        high.toInt - low.toInt + 1 = offsets.length
  | _ => True

namespace Code

/-- The number of bytes that instructions take up, each where it lies. -/
def extent (code : List Located) : Nat :=
  (code.map Located.size).sum

@[simp]
theorem extent_nil : extent [] = 0 :=
  rfl

@[simp]
theorem extent_cons (located : Located) (code : List Located) :
    extent (located :: code) = located.size + extent code := by
  simp [extent]

@[simp]
theorem map_instruction_locate (address : Nat) (instructions : List Instruction) :
    (locate address instructions).map Located.instruction = instructions := by
  induction instructions generalizing address with
  | nil => rfl
  | cons instruction rest ih => simp [locate, ih]

/-- Code is as long as its instructions are together. -/
theorem extent_locate (address : Nat) (instructions : List Instruction) :
    extent (locate address instructions) = (encodeFrom address [] instructions).length := by
  induction instructions generalizing address with
  | nil => rfl
  | cons instruction rest ih =>
      rw [locate, extent_cons, ih, encodeFrom_cons, List.length_append, Instruction.length_toBytes]
      rfl

/-- An instruction lies behind what the instructions before it take up. -/
theorem address_of_locate {address index : Nat} {instructions : List Instruction}
    {located : Located} (found : (locate address instructions)[index]? = some located) :
    located.address = address + extent ((locate address instructions).take index) := by
  induction instructions generalizing address index with
  | nil => cases found
  | cons instruction rest ih =>
      cases index with
      | zero =>
          cases found
          rfl
      | succ index =>
          rw [locate, List.take_succ_cons, extent_cons, ← Nat.add_assoc]
          exact ih found

theorem address_of_mem_head?_locate {address : Nat} {instructions : List Instruction}
    {first : Located} (isFirst : first ∈ (locate address instructions).head?) :
    first.address = address := by
  cases instructions with
  | nil => cases isFirst
  | cons instruction rest =>
      cases isFirst
      rfl

/-- Every instruction starts where the one before it stops. -/
theorem isChain_locate (address : Nat) (instructions : List Instruction) :
    (locate address instructions).IsChain fun here next => next.address = here.stop := by
  induction instructions generalizing address with
  | nil => exact .nil
  | cons instruction rest ih =>
      exact List.isChain_cons.2 ⟨fun next isNext => address_of_mem_head?_locate isNext, ih _⟩

/-- The last instruction stops behind what all of them take up. -/
theorem stop_of_locate (address : Nat) (instructions : List Instruction) :
    (locate address instructions).getLast?.elim address Located.stop =
      address + extent (locate address instructions) := by
  induction instructions generalizing address with
  | nil => rfl
  | cons instruction rest ih =>
      have later := ih (address + instruction.size address)
      rw [locate, List.getLast?_cons, Option.elim_some, extent_cons, ← Nat.add_assoc]
      cases isLast : (locate (address + instruction.size address) rest).getLast? with
      | none =>
          rw [isLast] at later
          exact later
      | some last =>
          rw [isLast] at later
          exact later

theorem le_address_of_mem_locate {address : Nat} {instructions : List Instruction}
    {located : Located} (found : located ∈ locate address instructions) :
    address ≤ located.address := by
  induction instructions generalizing address with
  | nil => cases found
  | cons instruction rest ih =>
      rcases List.mem_cons.1 found with rfl | found
      · exact Nat.le_refl _
      · exact Nat.le_trans (Nat.le_add_right _ _) (ih found)

/-- An instruction starts before what all of them take up ends. -/
theorem address_lt_of_mem_locate {address : Nat} {instructions : List Instruction}
    {located : Located} (found : located ∈ locate address instructions) :
    located.address < address + extent (locate address instructions) := by
  induction instructions generalizing address with
  | nil => cases found
  | cons instruction rest ih =>
      rw [locate, extent_cons, ← Nat.add_assoc]
      have isThere := instruction.size_pos address
      rcases List.mem_cons.1 found with rfl | found
      · exact Nat.lt_of_lt_of_le (Nat.lt_add_of_pos_right isThere) (Nat.le_add_right _ _)
      · exact ih found

theorem pairwise_locate (address : Nat) (instructions : List Instruction) :
    (locate address instructions).Pairwise fun here there => here.address < there.address := by
  induction instructions generalizing address with
  | nil => exact .nil
  | cons instruction rest ih =>
      refine List.pairwise_cons.2 ⟨fun later found => ?_, ih _⟩
      exact Nat.lt_of_lt_of_le (Nat.lt_add_of_pos_right (instruction.size_pos address))
        (le_address_of_mem_locate found)

theorem size_le_extent {code : List Located} {located : Located} (found : located ∈ code) :
    located.size ≤ extent code :=
  List.le_sum_of_mem (List.mem_map_of_mem found)

/-- Every instruction takes up at least one byte. -/
theorem length_le_extent (code : List Located) : code.length ≤ extent code := by
  induction code with
  | nil => exact Nat.le_refl _
  | cons located rest ih =>
      have isThere : 0 < located.size := located.instruction.size_pos located.address
      rw [List.length_cons, extent_cons]
      omega

/-- In code that is short enough for its addresses, complete jump tables are all
that is needed to read it back. -/
theorem wellFormed_of_tableComplete {instructions : List Instruction}
    (short : (encode instructions).length < 2 ^ 32)
    (complete : ∀ instruction ∈ instructions, instruction.TableComplete) :
    ∀ instruction ∈ instructions, instruction.WellFormed := by
  intro instruction found
  cases instruction with
  | tableSwitch fallback low high offsets =>
      rcases complete _ found with ⟨ordered, small, count⟩
      rw [Int32.le_iff_toInt_le] at ordered
      have inRange : 1 ≤ high.toInt - low.toInt + 1 ∧ high.toInt - low.toInt + 1 < 2147483648 :=
        ⟨by omega, small⟩
      rw [Instruction.WellFormed, Instruction.tableLength?]
      rw [if_pos inRange, count, Int.toNat_natCast]
  | lookupSwitch fallback pairs =>
      rw [← map_instruction_locate 0 instructions, List.mem_map] at found
      rcases found with ⟨located, isPart, isSwitch⟩
      have most := size_le_extent isPart
      rw [extent_locate, Located.size, isSwitch] at most
      have most := Nat.lt_of_le_of_lt most short
      rw [Instruction.size] at most
      rw [Instruction.WellFormed]
      omega
  | _ => trivial

/-- Code is taken apart into the instructions it was laid out from, each behind
what those before it take up, and it is as long as all of them together. -/
theorem decode_encode_placed {instructions : List Instruction}
    (short : (encode instructions).length < 2 ^ 32)
    (complete : ∀ instruction ∈ instructions, instruction.TableComplete) :
    ∃ decoded, decode (encode instructions) = .ok decoded ∧
      decoded.map Located.instruction = instructions ∧
      (∀ (index : Nat) (located : Located), decoded[index]? = some located →
        located.address = extent (decoded.take index)) ∧
      (encode instructions).length = extent decoded := by
  have wellFormed := wellFormed_of_tableComplete short complete
  refine ⟨locate 0 instructions, decode_encode wellFormed, map_instruction_locate 0 _, ?_, ?_⟩
  · intro index located found
    rw [address_of_locate found, Nat.zero_add]
  · exact (extent_locate 0 instructions).symm

/-- Instructions of every shape: a switch of each kind away from a multiple of four,
wide slots and the value form. -/
def mixedShapes : List Instruction :=
  [.const .int0, .tableSwitch 40 (-1) 1 [20, 24, -3], .lookupSwitch 9 [(1, 20), (5, 30)],
    .valueStore (.wide 300), .incrementWide 256 (-1), .box 7, .branch .nonNull (-9), .leave .void]

theorem decode_encode_placed_mixedShapes :
    (encode mixedShapes).length < 2 ^ 32 ∧
      (∀ instruction ∈ mixedShapes, instruction.TableComplete) ∧
      ∃ decoded, decode (encode mixedShapes) = .ok decoded ∧
        decoded.map Located.instruction = mixedShapes ∧
        (∀ (index : Nat) (located : Located), decoded[index]? = some located →
          located.address = extent (decoded.take index)) ∧
        (encode mixedShapes).length = extent decoded := by
  have short : (encode mixedShapes).length < 2 ^ 32 := by decide +kernel
  have complete : ∀ instruction ∈ mixedShapes, instruction.TableComplete := by
    simp only [mixedShapes, List.forall_mem_cons, Instruction.TableComplete,
      List.not_mem_nil, false_implies, implies_true, and_true, true_and]
    decide
  exact ⟨short, complete, decode_encode_placed short complete⟩

end Code

end ValueForm
