import ValueForm.Analysis.Value

/-!
# Frames

The abstract state before an instruction: a value for every local slot and for
every entry of the operand stack. A `long` or `double` takes one stack entry and
two local slots; the second slot is unusable.
-/

namespace ValueForm

/-- Why an operation does not fit a frame. -/
inductive FrameError where
  | underflow
  | invalidLocal (slot : UInt16)
  | heightMismatch (expected found : Nat)
  deriving DecidableEq, Repr

/-- The failure in words. -/
def FrameError.message : FrameError → String
  | .underflow => "operand stack underflow"
  | .invalidLocal slot => s!"invalid local variable {slot.toNat}"
  | .heightMismatch expected found =>
      s!"incompatible stack heights at merge: {expected} vs {found}"

/-- The state before an instruction. -/
structure Frame where
  locals : Array Value
  /-- The operand stack, top first. -/
  stack : List Value
  deriving DecidableEq

namespace Frame

/-- A frame of unusable locals and an empty stack. -/
def empty (maxLocals : Nat) : Frame :=
  ⟨Array.replicate maxLocals .uninitialized, []⟩

/-- Put a value on the stack. -/
def push (frame : Frame) (value : Value) : Frame :=
  { frame with stack := value :: frame.stack }

/-- Take a value off the stack. -/
def pop (frame : Frame) : Except FrameError (Value × Frame) :=
  match frame.stack with
  | [] => .error .underflow
  | value :: stack => .ok (value, { frame with stack })

/-- Take `count` values off the stack, given bottom first. -/
def popMany (frame : Frame) (count : Nat) : Except FrameError (List Value × Frame) :=
  if frame.stack.length < count then .error .underflow
  else .ok ((frame.stack.take count).reverse, { frame with stack := frame.stack.drop count })

/-- The value on top of the stack. -/
def peek (frame : Frame) : Except FrameError Value :=
  match frame.stack with
  | [] => .error .underflow
  | value :: _ => .ok value

/-- The value in a local slot. -/
def getLocal (frame : Frame) (slot : UInt16) : Except FrameError Value :=
  match frame.locals[slot.toNat]? with
  | some value => .ok value
  | none => .error (.invalidLocal slot)

/-- Put a value into a local slot. Overwriting the second half of a `long` or
`double` makes its first half unusable. -/
def setLocal (frame : Frame) (slot : UInt16) (value : Value) : Except FrameError Frame :=
  let index := slot.toNat
  if frame.locals.size < index + value.size then .error (.invalidLocal slot)
  else
    let halfBefore := 0 < index && frame.locals[index - 1]?.any (·.size == 2)
    let cut :=
      if halfBefore then frame.locals.setIfInBounds (index - 1) .uninitialized else frame.locals
    let halved := if value.size = 2 then cut.setIfInBounds (index + 1) .uninitialized else cut
    .ok { frame with locals := halved.setIfInBounds index value }

/-- The frame an exception handler sees: the locals, and the exception alone on
the stack. -/
def handlerFrame (frame : Frame) (exception : Value) : Frame :=
  { frame with stack := [exception] }

/-- Add a site to the provenance of every copy of a value. -/
def addSite (frame : Frame) (value : Value) (site : Site) : Frame :=
  let add (entry : Value) : Value :=
    if entry = value then
      match entry with
      | .capable className provenance => .capable className (provenance.insert site)
      | other => other
    else entry
  ⟨frame.locals.map add, frame.stack.map add⟩

/-- What is known where two paths meet, slot by slot. -/
def join (current incoming : Frame) : Frame where
  locals := current.locals.mapIdx fun index value =>
    match incoming.locals[index]? with
    | some other => value.join other
    | none => value
  stack := current.stack.zipWith Value.join incoming.stack

/-- The sites forced to references where two paths meet. -/
def conflict (current incoming : Frame) : List Site :=
  (current.locals.toList.zip incoming.locals.toList).flatMap (fun (a, b) => a.conflict b) ++
    (current.stack.zip incoming.stack).flatMap (fun (a, b) => a.conflict b)

/-- Let an incoming frame flow into a frame: the frame that holds for both, and
the sites that are forced. The stacks must be equally high. -/
def merge (current incoming : Frame) : Except FrameError (Frame × List Site) :=
  if current.stack.length = incoming.stack.length then
    .ok (current.join incoming, current.conflict incoming)
  else
    .error (.heightMismatch current.stack.length incoming.stack.length)

end Frame

end ValueForm
