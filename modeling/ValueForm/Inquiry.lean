import ValueForm.Note
import ValueForm.Oracle

/-!
# Inquiries

A computation that may ask whether a class is value-capable, may leave notes,
and ends in a result or an error. An inquiry is a tree of questions: it fixes
what is asked next after every answer, and leaves open who answers.
`Inquiry.run` lets an oracle answer and collects the notes; `Inquiry.eval`
answers from a fixed function and forgets the notes.
-/

namespace ValueForm

/-- A computation that asks about classes. -/
inductive Inquiry (ε α : Type) : Type where
  | done (result : Except ε α)
  | ask (className : String) (next : Except OracleError Bool → Inquiry ε α)
  | note (entry : Note) (next : Unit → Inquiry ε α)

namespace Inquiry

variable {ε ε' α β : Type}

/-- Carry on with the result. -/
def bind : Inquiry ε α → (α → Inquiry ε β) → Inquiry ε β
  | .done (.ok value), next => next value
  | .done (.error error), _ => .done (.error error)
  | .ask className answer, next => .ask className fun given => (answer given).bind next
  | .note entry rest, next => .note entry fun _ => (rest ()).bind next

instance : Monad (Inquiry ε) where
  pure value := .done (.ok value)
  bind := bind

/-- End with an error. -/
def fail (error : ε) : Inquiry ε α :=
  .done (.error error)

/-- End as a computation without questions does. -/
def ofExcept (result : Except ε α) : Inquiry ε α :=
  .done result

/-- Describe the error in other terms. -/
def mapError (describe : ε → ε') : Inquiry ε α → Inquiry ε' α
  | .done result => .done (result.mapError describe)
  | .ask className answer => .ask className fun given => (answer given).mapError describe
  | .note entry rest => .note entry fun _ => (rest ()).mapError describe

/-- Ask whether a class is value-capable. -/
def capable (describe : OracleError → ε) (className : String) : Inquiry ε Bool :=
  .ask className fun given => .done (given.mapError describe)

/-- Leave a note. -/
def leave (entry : Note) : Inquiry ε Unit :=
  .note entry fun _ => .done (.ok ())

/-- Leave notes in order. -/
def leaveAll : List Note → Inquiry ε Unit
  | [] => .done (.ok ())
  | entry :: rest => .note entry fun _ => leaveAll rest

/-- The end of an inquiry that an oracle answered. -/
structure Outcome (ε α : Type) where
  result : Except ε α
  oracle : Oracle
  notes : List Note

/-- Let an oracle answer; `notes` holds the notes so far, last one first. The
first time a class turns out to be value-capable this is noted. -/
def runFrom (find : ClassFinder) : Inquiry ε α → Oracle → (notes : List Note) → Outcome ε α
  | .done result, oracle, notes => ⟨result, oracle, notes.reverse⟩
  | .ask className answer, oracle, notes =>
      let known := oracle.answers.contains className
      let (given, oracle) := oracle.query find className
      let notes :=
        match given with
        | .ok true => if known then notes else .capable className :: notes
        | _ => notes
      runFrom find (answer given) oracle notes
  | .note entry rest, oracle, notes => runFrom find (rest ()) oracle (entry :: notes)

/-- Let an oracle answer. -/
def run (inquiry : Inquiry ε α) (find : ClassFinder) (oracle : Oracle := {}) : Outcome ε α :=
  runFrom find inquiry oracle []

/-- Answer from a function. -/
def eval (answers : String → Except OracleError Bool) : Inquiry ε α → Except ε α
  | .done result => result
  | .ask className answer => eval answers (answer (answers className))
  | .note _ rest => eval answers (rest ())

end Inquiry

end ValueForm
