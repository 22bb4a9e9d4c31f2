import ValueForm.Instruction.Basic

/-!
# Rearranging the operand stack

The stack instructions work on words, and a `long` or `double` is two words in
one stack entry. `StackOp.shuffle` says what each of them does to a stack of
entries, top first; it is undefined when the stack is too low. All it asks about
an entry is whether it counts as two words.
-/

namespace ValueForm

/-- The effect of a stack instruction on a stack, top first. -/
def StackOp.shuffle {α : Type} (isWide : α → Bool) : StackOp → List α → Option (List α)
  | .pop, _ :: rest => some rest
  | .pop2, a :: rest =>
      if isWide a then some rest
      else
        match rest with
        | _ :: rest => some rest
        | [] => none
  | .dup, a :: rest => some (a :: a :: rest)
  | .dupX1, a :: b :: rest => some (a :: b :: a :: rest)
  | .dupX2, a :: b :: rest =>
      if isWide b then some (a :: b :: a :: rest)
      else
        match rest with
        | c :: rest => some (a :: b :: c :: a :: rest)
        | [] => none
  | .dup2, a :: rest =>
      if isWide a then some (a :: a :: rest)
      else
        match rest with
        | b :: rest => some (a :: b :: a :: b :: rest)
        | [] => none
  | .dup2X1, a :: b :: rest =>
      if isWide a then some (a :: b :: a :: rest)
      else
        match rest with
        | c :: rest => some (a :: b :: c :: a :: b :: rest)
        | [] => none
  | .dup2X2, a :: b :: rest =>
      if isWide a then
        if isWide b then some (a :: b :: a :: rest)
        else
          match rest with
          | c :: rest => some (a :: b :: c :: a :: rest)
          | [] => none
      else
        match rest with
        | c :: rest =>
            if isWide c then some (a :: b :: c :: a :: b :: rest)
            else
              match rest with
              | d :: rest => some (a :: b :: c :: d :: a :: b :: rest)
              | [] => none
        | [] => none
  | .swap, a :: b :: rest => some (b :: a :: rest)
  | _, _ => none

end ValueForm
