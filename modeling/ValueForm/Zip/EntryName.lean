import ValueForm.Bytes

/-!
# Names of archive entries

An entry name is stored as UTF-8 when its entry says so, and otherwise in code
page 437, whose lower half is ASCII. Neither reading fails: in damaged UTF-8
each longest beginning of a character that breaks off is read as one
replacement character.
-/

namespace ValueForm

namespace EntryName

/-- The characters of the upper half of code page 437. -/
def upperHalf : List Char :=
  ("ÇüéâäàåçêëèïîìÄÅÉæÆôöòûùÿÖÜ¢£¥₧ƒ" ++
    "áíóúñÑªº¿⌐¬½¼¡«»░▒▓│┤╡╢╖╕╣║╗╝╜╛┐" ++
    "└┴┬├─┼╞╟╚╔╩╦╠═╬╧╨╤╥╙╘╒╓╫╪┘┌█▄▌▐▀" ++
    "αßΓπΣσµτΦΘΩδ∞φε∩≡±≥≤⌠⌡÷≈°∙·√ⁿ²■\u00a0").toList

/-- The character of a byte in code page 437. -/
def pageChar (byte : UInt8) : Char :=
  if byte.toNat < 128 then Char.ofNat byte.toNat else upperHalf[byte.toNat - 128]?.getD '?'

/-- What stands for bytes that are no character. -/
def replacement : Char := '\ufffd'

/-- The ranges of the bytes that follow the first byte of a character, or
nothing if no character starts with it. -/
def followers? (first : UInt8) : Option (List (Nat × Nat)) :=
  let code := first.toNat
  let any := (0x80, 0xbf)
  if code < 0x80 then some []
  else if code < 0xc2 then none
  else if code < 0xe0 then some [any]
  else if code = 0xe0 then some [(0xa0, 0xbf), any]
  else if code = 0xed then some [(0x80, 0x9f), any]
  else if code < 0xf0 then some [any, any]
  else if code = 0xf0 then some [(0x90, 0xbf), any, any]
  else if code < 0xf4 then some [any, any, any]
  else if code = 0xf4 then some [(0x80, 0x8f), any, any]
  else none

/-- The longest front part that stays within the ranges, and the rest. -/
def takeWithin : (ranges : List (Nat × Nat)) → Bytes → Bytes × Bytes
  | [], rest => ([], rest)
  | _ :: _, [] => ([], [])
  | (low, high) :: ranges, byte :: rest =>
      if low ≤ byte.toNat ∧ byte.toNat ≤ high then
        let (taken, after) := takeWithin ranges rest
        (byte :: taken, after)
      else
        ([], byte :: rest)

theorem takeWithin_length (ranges : List (Nat × Nat)) (bytes : Bytes) :
    (takeWithin ranges bytes).2.length ≤ bytes.length := by
  fun_induction takeWithin ranges bytes with
  | case1 => simp
  | case2 => simp
  | case3 low high ranges byte rest within taken after eq ih =>
      rw [eq] at ih
      simp only [List.length_cons]
      exact Nat.le_succ_of_le ih
  | case4 => simp

/-- The character of a first byte and all its followers. -/
def charOf (first : UInt8) (followers : Bytes) : Char :=
  let lead := if followers.isEmpty then first.toNat else first.toNat % (64 >>> followers.length)
  Char.ofNat (followers.foldl (fun code byte => code * 64 + byte.toNat % 64) lead)

/-- Read UTF-8. -/
def decodeUtf8 (bytes : Bytes) : List Char :=
  match bytes with
  | [] => []
  | first :: rest =>
      match followers? first with
      | none => replacement :: decodeUtf8 rest
      | some ranges =>
          let split := takeWithin ranges rest
          let char :=
            if split.1.length = ranges.length then charOf first split.1 else replacement
          char :: decodeUtf8 split.2
termination_by bytes.length
decreasing_by
  · simp
  · have := takeWithin_length ranges rest
    simp only [List.length_cons]
    omega

/-- The name stored in an entry. -/
def decode (isUtf8 : Bool) (bytes : Bytes) : String :=
  String.ofList (if isUtf8 then decodeUtf8 bytes else bytes.map pageChar)

end EntryName

end ValueForm
