import ValueForm.Proofs.Instruction.Encoding

/-!
# Code read back

Instructions laid out back to back are taken apart at the addresses where they
were put. Every instruction that decoding gives is well formed, so what was
decoded can be laid out again.
-/

namespace ValueForm

namespace Instruction

/-- An instruction that is no switch is well formed. -/
theorem wellFormed_of_mem_operandFree {instruction : Instruction}
    (free : instruction ∈ operandFree) : instruction.WellFormed := by
  cases instruction with
  | tableSwitch fallback low high offsets => simp [operandFree] at free
  | lookupSwitch fallback pairs => simp [operandFree] at free
  | _ => trivial

theorem gives_readTableSwitch (address : Nat) :
    (readTableSwitch address).Gives WellFormed := by
  unfold readTableSwitch
  apply Reader.gives_bind_any
  intro _
  apply Reader.gives_bind_any
  intro fallback
  apply Reader.gives_bind_any
  intro low
  apply Reader.gives_bind_any
  intro high
  cases known : tableLength? low high with
  | none => exact Reader.gives_fail
  | some count =>
      dsimp only
      refine Reader.gives_bind (Reader.gives_times count readInt32) ?_
      intro offsets counted
      have wellFormed : (Instruction.tableSwitch fallback low high offsets).WellFormed :=
        known.trans (congrArg some counted.symm)
      exact Reader.gives_pure wellFormed

theorem gives_readLookupSwitch (address : Nat) :
    (readLookupSwitch address).Gives WellFormed := by
  unfold readLookupSwitch
  apply Reader.gives_bind_any
  intro _
  apply Reader.gives_bind_any
  intro fallback
  apply Reader.gives_bind_any
  intro count
  refine Reader.gives_bind (Reader.gives_times count.toNat _) ?_
  intro pairs counted
  have wellFormed : (Instruction.lookupSwitch fallback pairs).WellFormed :=
    Nat.lt_of_le_of_lt (Nat.le_of_eq counted) count.toNat_lt
  exact Reader.gives_pure wellFormed

theorem gives_readWideForm : readWideForm.Gives WellFormed := by
  unfold readWideForm
  apply Reader.gives_bind_any
  intro code
  split
  all_goals
    first
    | exact Reader.gives_fail
    | repeat refine Reader.gives_bind_any fun _ => ?_
      exact Reader.gives_pure trivial

theorem gives_readOperands (address : Nat) (code : UInt8) :
    (readOperands address code).Gives WellFormed := by
  unfold readOperands readIndexed readBranch
  split
  all_goals
    first
    | exact Reader.gives_fail
    | exact gives_readTableSwitch address
    | exact gives_readLookupSwitch address
    | exact gives_readWideForm
    | repeat refine Reader.gives_bind_any fun _ => ?_
      exact Reader.gives_pure trivial

/-- Every instruction that is read is well formed. -/
theorem gives_read (address : Nat) : (read address).Gives WellFormed := by
  unfold read
  apply Reader.gives_bind_any
  intro code
  cases found : ofOpcode? code with
  | none => exact gives_readOperands address code
  | some instruction =>
      rw [ofOpcode?_eq_find?] at found
      exact Reader.gives_pure (wellFormed_of_mem_operandFree (List.mem_of_find?_eq_some found))

end Instruction

namespace Code

/-- Instructions laid out back to back, with their addresses. -/
def locate : (address : Nat) → List Instruction → List Located
  | _, [] => []
  | address, instruction :: rest =>
      ⟨address, instruction⟩ :: locate (address + instruction.size address) rest

theorem mem_of_mem_locate {address : Nat} {instructions : List Instruction} {located : Located}
    (found : located ∈ locate address instructions) : located.instruction ∈ instructions := by
  induction instructions generalizing address with
  | nil => cases found
  | cons instruction rest ih =>
      rcases List.mem_cons.1 found with rfl | found
      · exact List.mem_cons_self
      · exact List.mem_cons_of_mem _ (ih found)

theorem encodeFrom_eq_append (address : Nat) (done : List Bytes)
    (instructions : List Instruction) :
    encodeFrom address done instructions =
      done.reverse.flatten ++ encodeFrom address [] instructions := by
  induction instructions generalizing address done with
  | nil => simp [encodeFrom]
  | cons instruction rest ih =>
      rw [encodeFrom, encodeFrom, ih, ih _ [instruction.toBytes address]]
      simp

@[simp]
theorem encodeFrom_cons (address : Nat) (instruction : Instruction) (rest : List Instruction) :
    encodeFrom address [] (instruction :: rest) =
      instruction.toBytes address ++ encodeFrom (address + instruction.size address) [] rest := by
  rw [encodeFrom, encodeFrom_eq_append]
  simp

theorem decodeFrom_of_ne_nil {fuel address : Nat} {done : List Located} {input rest : Bytes}
    {instruction : Instruction} (nonempty : input ≠ [])
    (reads : Instruction.read address input = .ok (instruction, rest)) :
    decodeFrom (fuel + 1) address done input =
      decodeFrom fuel (address + instruction.size address) (⟨address, instruction⟩ :: done)
        rest := by
  rw [decodeFrom, reads]
  exact nonempty

theorem decodeFrom_encodeFrom {instructions : List Instruction}
    (wellFormed : ∀ instruction ∈ instructions, instruction.WellFormed) {fuel : Nat}
    (address : Nat) (done : List Located)
    (enough : (encodeFrom address [] instructions).length ≤ fuel) :
    decodeFrom fuel address done (encodeFrom address [] instructions) =
      .ok (done.reverse ++ locate address instructions) := by
  induction instructions generalizing fuel address done with
  | nil =>
      rw [encodeFrom, locate, List.append_nil]
      cases fuel <;> rfl
  | cons instruction rest ih =>
      -- There is a byte of fuel for each byte, and every instruction takes one up.
      have positive := instruction.size_pos address
      rw [encodeFrom_cons, List.length_append, Instruction.length_toBytes] at enough
      have reads := Instruction.read_toBytes (wellFormed instruction List.mem_cons_self) address
        (encodeFrom (address + instruction.size address) [] rest)
      rw [← encodeFrom_cons] at reads
      have nonempty : encodeFrom address [] (instruction :: rest) ≠ [] := by
        intro isEmpty
        have length := congrArg List.length isEmpty
        rw [encodeFrom_cons, List.length_append, Instruction.length_toBytes, List.length_nil]
          at length
        omega
      cases fuel with
      | zero => omega
      | succ fuel =>
          rw [decodeFrom_of_ne_nil nonempty reads, ih _ _ _ (by omega), locate]
          · simp
          · exact fun other found => wellFormed other (List.mem_cons_of_mem _ found)

/-- Code taken apart gives back the instructions it was laid out from. -/
theorem decode_encode {instructions : List Instruction}
    (wellFormed : ∀ instruction ∈ instructions, instruction.WellFormed) :
    decode (encode instructions) = .ok (locate 0 instructions) :=
  decodeFrom_encodeFrom wellFormed 0 [] (Nat.le_refl _)

theorem wellFormed_of_decodeFrom {fuel address : Nat} {done decoded : List Located}
    {input : Bytes} (wellFormed : ∀ located ∈ done, located.instruction.WellFormed)
    (succeeded : decodeFrom fuel address done input = .ok decoded) :
    ∀ located ∈ decoded, located.instruction.WellFormed := by
  fun_induction decodeFrom fuel address done input with
  | case1 fuel address done =>
      cases succeeded
      intro located found
      exact wellFormed located (List.mem_reverse.1 found)
  | case2 => cases succeeded
  | case3 => cases succeeded
  | case4 fuel address done input _ instruction rest reads ih =>
      apply ih _ succeeded
      intro located found
      rcases List.mem_cons.1 found with rfl | found
      · exact Instruction.gives_read address _ instruction rest reads
      · exact wellFormed located found

/-- Every instruction that code is taken apart into is well formed. -/
theorem wellFormed_of_decode {code : Bytes} {decoded : List Located}
    (succeeded : decode code = .ok decoded) :
    ∀ located ∈ decoded, located.instruction.WellFormed :=
  wellFormed_of_decodeFrom (fun _ found => absurd found List.not_mem_nil) succeeded

end Code

end ValueForm
