import ValueForm.Proofs.StackMap.Snapshot

/-!
# The shortest frame

Of the frames that unfold to given types at a given distance, `StackMapFrame.shortest`
chooses one that no other undercuts. A frame of each shape is compared with the choice for
the types it stands for; a frame that leaves out more locals than there are stands for none,
and is not shorter than one that leaves out as many as there are.
-/

namespace ValueForm

namespace StackMapFrame

/-- How many bytes a frame takes. -/
def size : StackMapFrame → Nat
  | .same _ => 1
  | .sameItem _ item => 1 + item.toBytes.length
  | .sameItemExtended _ item => 3 + item.toBytes.length
  | .chop .. => 3
  | .sameExtended _ => 3
  | .append _ locals => 3 + (locals.flatMap VerificationType.toBytes).length
  | .full _ locals stack =>
      7 + (locals.flatMap VerificationType.toBytes).length +
        (stack.flatMap VerificationType.toBytes).length

@[simp]
theorem length_toBytes (frame : StackMapFrame) : frame.toBytes.length = frame.size := by
  cases frame <;>
    simp only [toBytes, size, Bytes.counted16, Bytes.count16, List.length_cons, List.length_append,
      List.length_nil, Bytes.length_ofUInt16] <;>
    omega

/-- No frame is longer than the one that spells everything out. -/
theorem size_le_full (frame : StackMapFrame) (previous : List VerificationType) (delta : UInt16) :
    frame.size ≤
      (full delta (frame.types previous).locals (frame.types previous).stack).size := by
  cases frame <;>
    simp only [size, types, List.flatMap_append, List.flatMap_singleton, List.length_append] <;>
    omega

/-! ## What is chosen -/

section Choice

variable (previous locals : List VerificationType) (item : VerificationType) (delta : UInt16)

theorem shortest_same :
    shortest previous ⟨previous, []⟩ delta =
      if small : delta.toNat < 64 then same ⟨delta.toNat, small⟩ else sameExtended delta := by
  simp [shortest]

theorem shortest_sameItem :
    shortest previous ⟨previous, [item]⟩ delta =
      if small : delta.toNat < 64 then sameItem ⟨delta.toNat, small⟩ item
      else sameItemExtended delta item := by
  simp [shortest]

theorem shortest_append {more : List VerificationType} (nonempty : more ≠ [])
    (few : more.length ≤ 3) :
    shortest previous ⟨previous ++ more, []⟩ delta = append delta more := by
  have longer : previous.isPrefixOf (previous ++ more) = true :=
    List.isPrefixOf_iff_prefix.2 (List.prefix_append _ _)
  simp [shortest, nonempty, few, longer]

/-- Leaving out locals takes a frame of three bytes. -/
theorem size_shortest_chop {more : List VerificationType} (nonempty : more ≠ [])
    (few : more.length ≤ 3) :
    (shortest (locals ++ more) ⟨locals, []⟩ delta).size = 3 := by
  have shorter : locals.isPrefixOf (locals ++ more) = true :=
    List.isPrefixOf_iff_prefix.2 (List.prefix_append _ _)
  have isOther : locals ≠ locals ++ more := by simpa using nonempty
  have positive := List.length_pos_of_ne_nil nonempty
  have notLonger : ¬(locals ++ more).isPrefixOf locals = true := by
    intro longer
    have isFront := List.isPrefixOf_iff_prefix.1 longer
    have length := isFront.length_le
    rw [List.length_append] at length
    omega
  have count : (locals ++ more).length - locals.length = more.length := by simp
  dsimp only [shortest]
  rw [if_neg isOther, if_neg fun longer => notLonger longer.1, if_pos shorter, count]
  obtain one | two | three : more.length = 1 ∨ more.length = 2 ∨ more.length = 3 := by omega
  · rw [one]
    rfl
  · rw [two]
    rfl
  · rw [three]
    rfl

end Choice

/-! ## No frame is shorter -/

/-- A frame is not shorter than what is chosen for the types it stands for. -/
theorem size_shortest_le {frame : StackMapFrame} (fits : frame.Fits)
    (previous : List VerificationType) :
    (shortest previous (frame.types previous) frame.delta).size ≤ frame.size := by
  -- Two frames with the locals of the one before differ by the field for the distance.
  have same_le (delta : UInt16) : (shortest previous ⟨previous, []⟩ delta).size ≤ 3 := by
    rw [shortest_same]
    split <;> simp [size]
  have small (delta : Fin 64) : (UInt16.ofNat delta.val).toNat < 64 := by
    rw [UInt16.toNat_ofNat_of_lt' (Nat.lt_trans delta.isLt (by decide))]
    exact delta.isLt
  cases frame with
  | same delta =>
      rw [types, StackMapFrame.delta, shortest_same, dif_pos (small delta)]
      exact Nat.le_refl _
  | sameExtended delta => exact same_le delta
  | sameItem delta item =>
      rw [types, StackMapFrame.delta, shortest_sameItem, dif_pos (small delta)]
      exact Nat.le_refl _
  | sameItemExtended delta item =>
      rw [types, StackMapFrame.delta, shortest_sameItem]
      split <;> simp [size]
  | chop extra delta =>
      rw [types, StackMapFrame.delta]
      generalize isKept : previous.length - (extra.val + 1) = kept
      by_cases isEmpty : previous.drop kept = []
      · -- There was no local to leave out.
        have all : previous.take kept = previous := by
          simpa [isEmpty] using List.take_append_drop kept previous
        rw [all]
        exact same_le delta
      · have few : (previous.drop kept).length ≤ 3 := by
          have bound := extra.isLt
          rw [List.length_drop]
          omega
        have size := size_shortest_chop (previous.take kept) delta isEmpty few
        rw [List.take_append_drop] at size
        exact Nat.le_of_eq size
  | append delta more =>
      have nonempty : more ≠ [] := List.ne_nil_of_length_pos fits.1
      rw [types, StackMapFrame.delta, shortest_append previous delta nonempty fits.2]
  | full delta locals stack =>
      have longest := size_le_full (shortest previous ⟨locals, stack⟩ delta) previous delta
      rwa [(describes_shortest previous ⟨locals, stack⟩ delta).isTypes] at longest

/-- What a reader gives is a frame that fits. -/
theorem fits_of_read {input rest : Bytes} {frame : StackMapFrame}
    (succeeded : read input = .ok (frame, rest)) : frame.Fits := by
  rcases consumes_read _ _ _ succeeded with ⟨taken, _, fits, _⟩
  exact fits

@[simp]
theorem expand_singleton (previous : List VerificationType) (frame : StackMapFrame) :
    expand previous [frame] = [⟨frame.delta.toNat, frame.types previous⟩] := by
  rw [expand, expandFrom_cons, Nat.zero_add]
  rfl

/-- The frame that is chosen for some types unfolds to them, is read back, and is as short
as any frame that can be read and unfolds to the same. -/
theorem shortest_optimal (previous locals stack : List VerificationType) (delta : UInt16)
    (few : locals.length ≤ 65535) (few' : stack.length ≤ 65535) :
    let chosen := shortest previous ⟨locals, stack⟩ delta
    expand previous [chosen] = [⟨delta.toNat, ⟨locals, stack⟩⟩] ∧
      read chosen.toBytes = .ok (chosen, []) ∧
      ∀ input rest frame, read input = .ok (frame, rest) →
        expand previous [frame] = [⟨delta.toNat, ⟨locals, stack⟩⟩] →
        chosen.toBytes.length ≤ frame.toBytes.length := by
  intro chosen
  have describes := describes_shortest previous ⟨locals, stack⟩ delta
  refine ⟨?_, ?_, ?_⟩
  · rw [expand_singleton, describes.isTypes, describes.isDelta]
  · have reads := reads_toBytes (describes.fits few few') []
    rwa [List.append_nil] at reads
  · intro input rest frame succeeded unfolds
    rw [expand_singleton] at unfolds
    injection unfolds with snapshot
    injection snapshot with isDelta isTypes
    have shorter := size_shortest_le (fits_of_read succeeded) previous
    rw [isTypes, UInt16.toNat_inj.1 isDelta] at shorter
    rwa [length_toBytes, length_toBytes]

/-- The last two of three locals are left out: a frame that says so takes three bytes, and
one that spells out the remaining local takes eight. -/
theorem shortest_optimal_chop :
    let previous : List VerificationType := [.integer, .long, .object 7]
    let chosen := shortest previous ⟨[.integer], []⟩ 300
    chosen = chop 1 300 ∧ expand previous [chosen] = [⟨300, ⟨[.integer], []⟩⟩] ∧
      read [255, 1, 44, 0, 1, 1, 0, 0] = .ok (full 300 [.integer] [], []) ∧
      expand previous [full 300 [.integer] []] = [⟨300, ⟨[.integer], []⟩⟩] ∧
      chosen.toBytes.length ≤ (full 300 [.integer] []).toBytes.length := by
  intro previous chosen
  have optimal := shortest_optimal previous [.integer] [] 300 (by decide) (by decide)
  have isRead : read [255, 1, 44, 0, 1, 1, 0, 0] = .ok (full 300 [.integer] [], []) := rfl
  have unfolds : expand previous [full 300 [.integer] []] = [⟨300, ⟨[.integer], []⟩⟩] := rfl
  exact ⟨rfl, optimal.1, isRead, unfolds, optimal.2.2 _ _ _ isRead unfolds⟩

end StackMapFrame

end ValueForm
