import Mathlib
import ValueForm.Analysis.Transfer

/-!
# Words on the operand stack

The stack instructions are specified on words: `StackOp.onWords` takes a block of words
off the top and one from below it, and lays them down again without asking what they
belong to. The analysis works on entries, of which a wide one is two words, and has to
find out from their widths which entries make up the blocks. On a stack of which no block
ends within an entry both do the same.
-/

namespace ValueForm

variable {α : Type}

/-! ## Entries as words -/

/-- A word of a stack of entries. -/
inductive Word (α : Type) where
  /-- An entry of one word. -/
  | whole (entry : α)
  /-- The half of a wide entry that is nearer to the top. -/
  | first (entry : α)
  | second (entry : α)
  deriving DecidableEq

namespace Word

/-- Whether the word before belongs to the same entry. -/
def isSecond : Word α → Bool
  | .second _ => true
  | _ => false

/-- The words of an entry. -/
def ofEntry (isWide : α → Bool) (entry : α) : List (Word α) :=
  if isWide entry then [.first entry, .second entry] else [.whole entry]

/-- The words of a stack, top first. -/
def ofStack (isWide : α → Bool) (stack : List α) : List (Word α) :=
  stack.flatMap (ofEntry isWide)

/-- Whether the first `count` words of a stack end within an entry. -/
def splitAt (words : List (Word α)) (count : Nat) : Bool :=
  words[count]?.any isSecond

variable {isWide : α → Bool} {stack : List α}

@[simp]
theorem ofStack_append (stack below : List α) :
    ofStack isWide (stack ++ below) = ofStack isWide stack ++ ofStack isWide below :=
  List.flatMap_append

theorem ofStack_cons_of_wide {entry : α} (wide : isWide entry = true) (stack : List α) :
    ofStack isWide (entry :: stack) = .first entry :: .second entry :: ofStack isWide stack := by
  simp [ofStack, ofEntry, wide]

theorem ofStack_cons_of_narrow {entry : α} (narrow : isWide entry = false) (stack : List α) :
    ofStack isWide (entry :: stack) = .whole entry :: ofStack isWide stack := by
  simp [ofStack, ofEntry, narrow]

/-- Words that do not end within an entry are those of the entries on top. -/
theorem exists_append_of_splitAt {count : Nat} (enough : count ≤ (ofStack isWide stack).length)
    (unsplit : splitAt (ofStack isWide stack) count = false) :
    ∃ top rest, stack = top ++ rest ∧ (ofStack isWide top).length = count := by
  induction stack generalizing count with
  | nil => exact ⟨[], [], rfl, (Nat.le_zero.1 enough).symm⟩
  | cons entry stack ih =>
      cases wide : isWide entry with
      | false =>
          rw [ofStack_cons_of_narrow wide] at enough unsplit
          cases count with
          | zero => exact ⟨[], entry :: stack, rfl, rfl⟩
          | succ count =>
              rcases ih (Nat.le_of_succ_le_succ enough) unsplit with ⟨top, rest, rfl, length⟩
              refine ⟨entry :: top, rest, rfl, ?_⟩
              rw [ofStack_cons_of_narrow wide, List.length_cons, length]
      | true =>
          rw [ofStack_cons_of_wide wide] at enough unsplit
          rcases count with _ | _ | count
          · exact ⟨[], entry :: stack, rfl, rfl⟩
          · -- The second half is next.
            cases unsplit
          · have fewer := Nat.le_of_succ_le_succ (Nat.le_of_succ_le_succ enough)
            rcases ih fewer unsplit with ⟨top, rest, rfl, length⟩
            refine ⟨entry :: top, rest, rfl, ?_⟩
            rw [ofStack_cons_of_wide wide, List.length_cons, List.length_cons, length]

/-! Blocks of at most two words are all there are. -/

theorem eq_nil_of_length_ofStack (length : (ofStack isWide stack).length = 0) : stack = [] := by
  cases stack with
  | nil => rfl
  | cons entry stack =>
      cases wide : isWide entry with
      | false => simp [ofStack_cons_of_narrow wide] at length
      | true => simp [ofStack_cons_of_wide wide] at length

theorem eq_singleton_of_length_ofStack (length : (ofStack isWide stack).length = 1) :
    ∃ entry, stack = [entry] ∧ isWide entry = false := by
  cases stack with
  | nil => cases length
  | cons entry stack =>
      cases wide : isWide entry with
      | false =>
          rw [ofStack_cons_of_narrow wide, List.length_cons] at length
          obtain rfl := eq_nil_of_length_ofStack (Nat.succ.inj length)
          exact ⟨entry, rfl, wide⟩
      | true => simp [ofStack_cons_of_wide wide] at length

theorem eq_pair_of_length_ofStack (length : (ofStack isWide stack).length = 2) :
    (∃ entry, stack = [entry] ∧ isWide entry = true) ∨
      ∃ entry below, stack = [entry, below] ∧ isWide entry = false ∧ isWide below = false := by
  cases stack with
  | nil => cases length
  | cons entry stack =>
      cases wide : isWide entry with
      | false =>
          rw [ofStack_cons_of_narrow wide, List.length_cons] at length
          rcases eq_singleton_of_length_ofStack (Nat.succ.inj length) with ⟨below, rfl, narrow⟩
          exact .inr ⟨entry, below, rfl, wide, narrow⟩
      | true =>
          rw [ofStack_cons_of_wide wide, List.length_cons, List.length_cons] at length
          obtain rfl := eq_nil_of_length_ofStack (Nat.succ.inj (Nat.succ.inj length))
          exact .inl ⟨entry, rfl, wide⟩

end Word

/-! ## Instructions on words -/

namespace StackOp

/-- How many words are in the block on top that an instruction moves. -/
def taken : StackOp → Nat
  | .pop | .dup | .dupX1 | .dupX2 | .swap => 1
  | .pop2 | .dup2 | .dup2X1 | .dup2X2 => 2

/-- How many words are in the block below, past which the first one is moved. -/
def passed : StackOp → Nat
  | .pop | .pop2 | .dup | .dup2 => 0
  | .dupX1 | .dup2X1 | .swap => 1
  | .dupX2 | .dup2X2 => 2

/-- What becomes of the two blocks and the rest of a stack: the block on top is dropped,
exchanged with the one below, or copied below it. -/
def arrange (op : StackOp) (top next rest : List α) : List α :=
  match op with
  | .pop | .pop2 => next ++ rest
  | .swap => next ++ top ++ rest
  | .dup | .dupX1 | .dupX2 | .dup2 | .dup2X1 | .dup2X2 => top ++ next ++ top ++ rest

/-- The effect of a stack instruction on words, top first. It is undefined when there are
too few. -/
def onWords (op : StackOp) (words : List α) : Option (List α) :=
  if words.length < op.taken + op.passed then none
  else
    some (op.arrange (words.take op.taken) ((words.drop op.taken).take op.passed)
      (words.drop (op.taken + op.passed)))

/-- Whether a block that an instruction moves ends within an entry. -/
def splits (op : StackOp) (words : List (Word α)) : Bool :=
  Word.splitAt words op.taken || Word.splitAt words (op.taken + op.passed)

variable {isWide : α → Bool} {stack : List α}

theorem ofStack_arrange (op : StackOp) (top next rest : List α) :
    Word.ofStack isWide (op.arrange top next rest) =
      op.arrange (Word.ofStack isWide top) (Word.ofStack isWide next)
        (Word.ofStack isWide rest) := by
  cases op <;> simp only [arrange, Word.ofStack_append]

/-- An instruction that splits no entry of a high enough stack moves blocks of entries. -/
theorem exists_blocks {op : StackOp}
    (enough : op.taken + op.passed ≤ (Word.ofStack isWide stack).length)
    (unsplit : op.splits (Word.ofStack isWide stack) = false) :
    ∃ top next rest, stack = top ++ next ++ rest ∧
      (Word.ofStack isWide top).length = op.taken ∧
      (Word.ofStack isWide next).length = op.passed := by
  rcases Bool.or_eq_false_iff.1 unsplit with ⟨atTop, atNext⟩
  rcases Word.exists_append_of_splitAt (Nat.le_of_add_right_le enough) atTop with
    ⟨top, below, rfl, length⟩
  -- The second block is on top of what is below the first.
  rw [Word.ofStack_append, List.length_append, length] at enough
  have atNext' : Word.splitAt (Word.ofStack isWide below) op.passed = false := by
    rw [Word.splitAt, Word.ofStack_append, ← length,
      List.getElem?_append_right (Nat.le_add_right _ _), Nat.add_sub_cancel_left] at atNext
    exact atNext
  rcases Word.exists_append_of_splitAt (Nat.le_of_add_le_add_left enough) atNext' with
    ⟨next, rest, rfl, length'⟩
  exact ⟨top, next, rest, (List.append_assoc ..).symm, length, length'⟩

/-- On blocks of entries of the right sizes the analysis does what is to be done. -/
theorem shuffle_blocks {op : StackOp} {top next : List α} (rest : List α)
    (length : (Word.ofStack isWide top).length = op.taken)
    (length' : (Word.ofStack isWide next).length = op.passed) :
    op.shuffle isWide (top ++ next ++ rest) = some (op.arrange top next rest) := by
  cases op with
  | pop | dup =>
      obtain ⟨entry, rfl, -⟩ := Word.eq_singleton_of_length_ofStack length
      obtain rfl := Word.eq_nil_of_length_ofStack length'
      rfl
  | pop2 | dup2 =>
      obtain rfl := Word.eq_nil_of_length_ofStack length'
      rcases Word.eq_pair_of_length_ofStack length with
        ⟨entry, rfl, wide⟩ | ⟨entry, below, rfl, narrow, -⟩
      · simp [shuffle, arrange, wide]
      · simp [shuffle, arrange, narrow]
  | dupX1 | swap =>
      obtain ⟨entry, rfl, -⟩ := Word.eq_singleton_of_length_ofStack length
      obtain ⟨below, rfl, -⟩ := Word.eq_singleton_of_length_ofStack length'
      rfl
  | dupX2 =>
      obtain ⟨entry, rfl, -⟩ := Word.eq_singleton_of_length_ofStack length
      rcases Word.eq_pair_of_length_ofStack length' with
        ⟨below, rfl, wide⟩ | ⟨below, lowest, rfl, narrow, -⟩
      · simp [shuffle, arrange, wide]
      · simp [shuffle, arrange, narrow]
  | dup2X1 =>
      obtain ⟨below, rfl, -⟩ := Word.eq_singleton_of_length_ofStack length'
      rcases Word.eq_pair_of_length_ofStack length with
        ⟨entry, rfl, wide⟩ | ⟨entry, second, rfl, narrow, -⟩
      · simp [shuffle, arrange, wide]
      · simp [shuffle, arrange, narrow]
  | dup2X2 =>
      rcases Word.eq_pair_of_length_ofStack length with
        ⟨entry, rfl, wide⟩ | ⟨entry, second, rfl, narrow, -⟩ <;>
      rcases Word.eq_pair_of_length_ofStack length' with
        ⟨below, rfl, wide'⟩ | ⟨below, lowest, rfl, narrow', -⟩
      · simp [shuffle, arrange, wide, wide']
      · simp [shuffle, arrange, wide, narrow']
      · simp [shuffle, arrange, narrow, wide']
      · simp [shuffle, arrange, narrow, narrow']

/-- What an instruction does to the words of a stack the analysis does to its entries. -/
theorem exists_shuffle_of_onWords {op : StackOp} {words : List (Word α)}
    (moved : op.onWords (Word.ofStack isWide stack) = some words)
    (unsplit : op.splits (Word.ofStack isWide stack) = false) :
    ∃ stack', op.shuffle isWide stack = some stack' ∧ Word.ofStack isWide stack' = words := by
  unfold onWords at moved
  split at moved
  · cases moved
  · next enough =>
      rcases exists_blocks (Nat.le_of_not_lt enough) unsplit with
        ⟨top, next, rest, rfl, length, length'⟩
      refine ⟨_, shuffle_blocks rest length length', ?_⟩
      rw [← Option.some.inj moved, ofStack_arrange]
      simp [Word.ofStack_append, ← length, ← length']

end StackOp

namespace Instruction

/-- The analysis of a stack instruction is right word for word: wherever the instruction
finds enough words and splits no wide value, its transfer succeeds, and the words of the
stack it leaves are what the instruction makes of the words before. -/
theorem transfer_stack_words (place : Place) (op : StackOp) (before : Frame)
    {words : List (Word Value)}
    (moved : op.onWords (Word.ofStack Value.isWide before.stack) = some words)
    (unsplit : op.splits (Word.ofStack Value.isWide before.stack) = false) :
    ∃ stack, (Instruction.stack op).transfer place before = pure ⟨{ before with stack }, []⟩ ∧
      Word.ofStack Value.isWide stack = words := by
  rcases StackOp.exists_shuffle_of_onWords moved unsplit with ⟨stack, shuffled, isWords⟩
  refine ⟨stack, ?_, isWords⟩
  simp only [transfer, rule, Transfer.shuffle, Transfer.onFrame, StateT.run, shuffled]
  rfl

/-- Two instances of value-capable classes are copied below a `double`. -/
theorem transfer_stack_words_dup2X2 :
    let first := Value.capableAt "P" (.instruction 4)
    let second := Value.capableAt "Q" (.instruction 7)
    let before : Frame := ⟨#[.int], [first, second, .double, .int]⟩
    let words : List (Word Value) := [.whole first, .whole second, .first .double,
      .second .double, .whole first, .whole second, .whole .int]
    StackOp.dup2X2.onWords (Word.ofStack Value.isWide before.stack) = some words ∧
      StackOp.dup2X2.splits (Word.ofStack Value.isWide before.stack) = false ∧
      ∃ stack, (Instruction.stack .dup2X2).transfer ⟨{}, true, 9, 20⟩ before =
          pure ⟨{ before with stack }, []⟩ ∧
        Word.ofStack Value.isWide stack = words := by
  intro first second before words
  have moved : StackOp.dup2X2.onWords (Word.ofStack Value.isWide before.stack) = some words := rfl
  have unsplit : StackOp.dup2X2.splits (Word.ofStack Value.isWide before.stack) = false := rfl
  exact ⟨moved, unsplit, transfer_stack_words ⟨{}, true, 9, 20⟩ .dup2X2 before moved unsplit⟩

end Instruction

end ValueForm
