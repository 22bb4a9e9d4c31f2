import ValueForm.Zip.BitStream

/-!
# Code trees

A code with one word of bits for each symbol is a binary tree with symbols at
the leaves. `CodeTree.ofLengths?` builds the canonical tree of given word
lengths: shorter words come first, words of equal length in symbol order, and
each word is the first one that is still free.
-/

namespace ValueForm

/-- A tree of code words. -/
inductive CodeTree where
  /-- Words that stand for nothing. -/
  | unused
  | leaf (symbol : Nat)
  | node (zero one : CodeTree)
  deriving DecidableEq, Repr

namespace CodeTree

/-- The longest word of a code. -/
def maxLength : Nat := 15

/-- The symbols that have a word, with its length, shortest first. -/
def sortedLengths (lengths : List Nat) : List (Nat × Nat) :=
  (List.range' 1 maxLength).flatMap fun length =>
    lengths.zipIdx.filter fun (given, _) => given == length

/-- The subtree at a depth that takes its symbols from the front of `words`,
and the words left over. The tree reaches `room` levels further down. -/
def build : (room depth : Nat) → (words : List (Nat × Nat)) → CodeTree × List (Nat × Nat)
  | _, _, [] => (.unused, [])
  | 0, depth, (length, symbol) :: words =>
      if length = depth then (.leaf symbol, words) else (.unused, (length, symbol) :: words)
  | room + 1, depth, (length, symbol) :: words =>
      if length = depth then (.leaf symbol, words)
      else
        let (zero, words) := build room (depth + 1) ((length, symbol) :: words)
        let (one, words) := build room (depth + 1) words
        (.node zero one, words)

/-- Whether every word stands for a symbol. -/
def isComplete : CodeTree → Bool
  | .unused => false
  | .leaf _ => true
  | .node zero one => zero.isComplete && one.isComplete

/-- The canonical tree of the word lengths of the symbols 0, 1, …, where length
0 means no word. The words must fit, and they must leave no gap unless there is
at most one. -/
def ofLengths? (lengths : List Nat) : Option CodeTree :=
  let words := sortedLengths lengths
  match build maxLength 0 words with
  | (tree, []) => if tree.isComplete || words.length ≤ 1 then some tree else none
  | _ => none

/-- The canonical tree of word lengths that leave no gap. -/
def complete? (lengths : List Nat) : Option CodeTree :=
  (ofLengths? lengths).filter isComplete

/-- Read a word. -/
def decode : CodeTree → BitReader Nat
  | .unused => failure
  | .leaf symbol => return symbol
  | .node zero one => do
      if ← BitReader.bit then one.decode else zero.decode

end CodeTree

end ValueForm
