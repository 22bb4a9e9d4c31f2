import ValueForm.Bytes

/-!
# Readers

A reader consumes a front part of a byte string and hands back the rest. When
it stops it says why and with which input left, so that a failure can be
located: a number or a run of bytes that is cut short is reported at its own
start, not at the end of the input.
-/

namespace ValueForm

/-- Why a reader stopped. -/
inductive Fault where
  /-- The input ends inside a number or a run of bytes. -/
  | truncated
  /-- The fixed leading bytes are missing. -/
  | wrongMagic
  /-- A constant of an unknown kind. -/
  | unknownConstant
  /-- A tag that no alternative of the format has. -/
  | unknownTag
  deriving DecidableEq, Repr

/-- The code a failure is reported under. -/
def Fault.code : Fault → String
  | .truncated => "Eof"
  | .wrongMagic => "Tag"
  | .unknownConstant => "Alt"
  | .unknownTag => "NoneOf"

/-- A failure together with the input it leaves. -/
structure ReadError where
  fault : Fault
  rest : Bytes
  deriving DecidableEq, Repr

/-- The failure in words: the input left, as decimal bytes, and the code. -/
def ReadError.message (error : ReadError) : String :=
  let bytes := String.intercalate ", " (error.rest.map fun byte => toString byte.toNat)
  "Parsing Error: Error \x7b input: [" ++ bytes ++ "], code: " ++ error.fault.code ++ " \x7d"

/-- A reader of `α`. -/
def Reader (α : Type) : Type :=
  Bytes → Except ReadError (α × Bytes)

namespace Reader

variable {α β : Type}

@[always_inline]
instance : Monad Reader where
  pure value := fun input => .ok (value, input)
  bind reader next := fun input =>
    match reader input with
    | .error error => .error error
    | .ok (value, rest) => next value rest

/-- Stop at the current position. -/
def fail (fault : Fault) : Reader α :=
  fun input => .error ⟨fault, input⟩

/-- The input that is still to be read; nothing is consumed. -/
def remaining : Reader Bytes :=
  fun input => .ok (input, input)

/-- Split off exactly `count` bytes in front; `taken` holds the bytes passed so
far, last one first. -/
def splitExact : (count : Nat) → (taken : Bytes) → (input : Bytes) → Option (Bytes × Bytes)
  | 0, taken, input => some (taken.reverse, input)
  | _ + 1, _, [] => none
  | count + 1, taken, byte :: input => splitExact count (byte :: taken) input

/-- The next `count` bytes. -/
def take (count : Nat) : Reader Bytes := fun input =>
  match splitExact count [] input with
  | some (taken, rest) => .ok (taken, rest)
  | none => .error ⟨.truncated, input⟩

/-- The next byte. -/
def u8 : Reader UInt8
  | [] => .error ⟨.truncated, []⟩
  | byte :: rest => .ok (byte, rest)

/-- A big-endian 16-bit number. -/
def u16 : Reader UInt16 := do
  return UInt16.ofNat (← take 2).toNat

/-- A big-endian 32-bit number. -/
def u32 : Reader UInt32 := do
  return UInt32.ofNat (← take 4).toNat

/-- A big-endian 64-bit number. -/
def u64 : Reader UInt64 := do
  return UInt64.ofNat (← take 8).toNat

/-- Read `count` items; `done` holds the items read so far, last one first. -/
def collect (reader : Reader α) : (count : Nat) → (done : List α) → Reader (List α)
  | 0, done, input => .ok (done.reverse, input)
  | count + 1, done, input =>
      match reader input with
      | .error error => .error error
      | .ok (value, rest) => collect reader count (value :: done) rest

/-- Exactly `count` items in a row. -/
def times (count : Nat) (reader : Reader α) : Reader (List α) :=
  collect reader count []

/-- A 16-bit count followed by that many items. -/
def counted16 (reader : Reader α) : Reader (List α) := do
  let count ← u16
  times count.toNat reader

/-- The fixed bytes `expected`; a failure leaves the whole input. -/
def magic (expected : Bytes) : Reader Unit := fun input =>
  match splitExact expected.length [] input with
  | some (taken, rest) => if taken = expected then .ok ((), rest) else .error ⟨.wrongMagic, input⟩
  | none => .error ⟨.wrongMagic, input⟩

end Reader

end ValueForm
