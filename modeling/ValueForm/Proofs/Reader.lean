import Mathlib
import ValueForm.Reader

/-!
# Reading what was written

A reader reads back what a writer has put in front of any other bytes: the laws
for numbers, runs of bytes and repeated items. `Reader.bind_eq_ok_iff` takes a
composed reader that succeeds apart.

`Reader.Consumes` is for the other direction: it carries the bytes that a row of
readers has taken off along, until they are compared with what is written for the
result. `Reader.eq_ok_iff` puts the two directions together.
-/

namespace ValueForm

namespace Bytes

@[simp]
theorem length_bigEndian (width value : Nat) : (bigEndian width value).length = width := by
  induction width generalizing value with
  | zero => rfl
  | succ width ih => simp [bigEndian, ih]

@[simp]
theorem toNat_append_singleton (bytes : Bytes) (byte : UInt8) :
    toNat (bytes ++ [byte]) = toNat bytes * 256 + byte.toNat := by
  simp [toNat]

/-- The bytes of a number stand for it, up to their width. -/
@[simp]
theorem toNat_bigEndian (width value : Nat) :
    toNat (bigEndian width value) = value % 256 ^ width := by
  induction width generalizing value with
  | zero => simp [bigEndian, toNat, Nat.mod_one]
  | succ width ih =>
      have low : (UInt8.ofNat value).toNat = value % 256 := UInt8.toNat_ofNat'
      rw [bigEndian, toNat_append_singleton, ih, low, Nat.pow_succ', Nat.mod_mul, Nat.add_comm,
        Nat.mul_comm]

/-- A byte string is the bytes of the number it stands for. -/
@[simp]
theorem bigEndian_toNat (bytes : Bytes) : bigEndian bytes.length (toNat bytes) = bytes := by
  induction bytes using List.reverseRecOn with
  | nil => rfl
  | append_singleton bytes byte ih =>
      have small := byte.toNat_lt
      have high : (toNat bytes * 256 + byte.toNat) / 256 = toNat bytes := by omega
      have low : UInt8.ofNat (toNat bytes * 256 + byte.toNat) = byte := by
        apply UInt8.toNat_inj.1
        rw [UInt8.toNat_ofNat']
        omega
      rw [List.length_append, List.length_singleton, toNat_append_singleton, bigEndian, high, low,
        ih]

theorem toNat_lt (bytes : Bytes) : toNat bytes < 256 ^ bytes.length := by
  have same := congrArg toNat (bigEndian_toNat bytes)
  rw [toNat_bigEndian] at same
  rw [← same]
  exact Nat.mod_lt _ (Nat.pow_pos (by decide))

@[simp]
theorem length_ofUInt16 (value : UInt16) : (ofUInt16 value).length = 2 :=
  length_bigEndian 2 value.toNat

@[simp]
theorem length_ofUInt32 (value : UInt32) : (ofUInt32 value).length = 4 :=
  length_bigEndian 4 value.toNat

@[simp]
theorem length_ofUInt64 (value : UInt64) : (ofUInt64 value).length = 8 :=
  length_bigEndian 8 value.toNat

end Bytes

namespace Reader

variable {α β : Type}

@[simp]
theorem pure_apply (value : α) (input : Bytes) :
    (pure value : Reader α) input = .ok (value, input) :=
  rfl

/-- A reader is followed by another where it has succeeded. -/
theorem bind_of_ok {reader : Reader α} {next : α → Reader β} {input rest : Bytes} {value : α}
    (reads : reader input = .ok (value, rest)) : (reader >>= next) input = next value rest := by
  dsimp only [bind]
  rw [reads]

theorem bind_of_error {reader : Reader α} {next : α → Reader β} {input : Bytes}
    {error : ReadError} (fails : reader input = .error error) :
    (reader >>= next) input = .error error := by
  dsimp only [bind]
  rw [fails]

theorem bind_eq_ok_iff {reader : Reader α} {next : α → Reader β} {input rest : Bytes}
    {result : β} :
    (reader >>= next) input = .ok (result, rest) ↔
      ∃ value between, reader input = .ok (value, between) ∧
        next value between = .ok (result, rest) := by
  constructor
  · intro succeeded
    cases reads : reader input with
    | error error =>
        rw [bind_of_error reads] at succeeded
        cases succeeded
    | ok pair =>
        rw [bind_of_ok reads] at succeeded
        exact ⟨pair.1, pair.2, rfl, succeeded⟩
  · rintro ⟨value, between, reads, succeeded⟩
    rw [bind_of_ok reads]
    exact succeeded

@[simp]
theorem splitExact_append (front taken rest : Bytes) :
    splitExact front.length taken (front ++ rest) = some (taken.reverse ++ front, rest) := by
  induction front generalizing taken with
  | nil => simp [splitExact]
  | cons byte front ih => simp [splitExact, ih]

@[simp]
theorem take_append (front rest : Bytes) :
    take front.length (front ++ rest) = .ok (front, rest) := by
  simp [take, splitExact_append]

@[simp]
theorem u8_cons (byte : UInt8) (rest : Bytes) : u8 (byte :: rest) = .ok (byte, rest) :=
  rfl

/-- A 16-bit number is read back. -/
@[simp]
theorem u16_ofUInt16 (value : UInt16) (rest : Bytes) :
    u16 (Bytes.ofUInt16 value ++ rest) = .ok (value, rest) := by
  have taken := take_append (Bytes.ofUInt16 value) rest
  rw [Bytes.length_ofUInt16] at taken
  have small : value.toNat < 256 ^ 2 := by
    have bound := value.toNat_lt
    omega
  rw [u16, bind_of_ok taken, pure_apply, Bytes.ofUInt16, Bytes.toNat_bigEndian,
    Nat.mod_eq_of_lt small, UInt16.ofNat_toNat]

/-- A 32-bit number is read back. -/
@[simp]
theorem u32_ofUInt32 (value : UInt32) (rest : Bytes) :
    u32 (Bytes.ofUInt32 value ++ rest) = .ok (value, rest) := by
  have taken := take_append (Bytes.ofUInt32 value) rest
  rw [Bytes.length_ofUInt32] at taken
  have small : value.toNat < 256 ^ 4 := by
    have bound := value.toNat_lt
    omega
  rw [u32, bind_of_ok taken, pure_apply, Bytes.ofUInt32, Bytes.toNat_bigEndian,
    Nat.mod_eq_of_lt small, UInt32.ofNat_toNat]

/-- A 64-bit number is read back. -/
@[simp]
theorem u64_ofUInt64 (value : UInt64) (rest : Bytes) :
    u64 (Bytes.ofUInt64 value ++ rest) = .ok (value, rest) := by
  have taken := take_append (Bytes.ofUInt64 value) rest
  rw [Bytes.length_ofUInt64] at taken
  have small : value.toNat < 256 ^ 8 := by
    have bound := value.toNat_lt
    omega
  rw [u64, bind_of_ok taken, pure_apply, Bytes.ofUInt64, Bytes.toNat_bigEndian,
    Nat.mod_eq_of_lt small, UInt64.ofNat_toNat]

theorem collect_flatMap {reader : Reader α} {write : α → Bytes} {items : List α}
    (reads : ∀ item ∈ items, ∀ rest, reader (write item ++ rest) = .ok (item, rest))
    (done : List α) (rest : Bytes) :
    collect reader items.length done (items.flatMap write ++ rest) =
      .ok (done.reverse ++ items, rest) := by
  induction items generalizing done with
  | nil => simp [collect]
  | cons item items ih =>
      rw [List.flatMap_cons, List.append_assoc, List.length_cons, collect,
        reads item List.mem_cons_self]
      simp [ih fun other found => reads other (List.mem_cons_of_mem item found)]

/-- Items in a row are read back by what reads one of them back. -/
theorem times_flatMap {reader : Reader α} {write : α → Bytes} {items : List α}
    (reads : ∀ item ∈ items, ∀ rest, reader (write item ++ rest) = .ok (item, rest))
    (rest : Bytes) :
    times items.length reader (items.flatMap write ++ rest) = .ok (items, rest) :=
  collect_flatMap reads [] rest

/-- As many items are read as were asked for. -/
theorem length_of_collect {reader : Reader α} {count : Nat} {done items : List α}
    {input rest : Bytes} (succeeded : collect reader count done input = .ok (items, rest)) :
    items.length = done.length + count := by
  induction count generalizing done input with
  | zero =>
      cases succeeded
      simp
  | succ count ih =>
      unfold collect at succeeded
      split at succeeded
      · cases succeeded
      · rw [ih succeeded, List.length_cons]
        omega

theorem length_of_times {reader : Reader α} {count : Nat} {items : List α} {input rest : Bytes}
    (succeeded : times count reader input = .ok (items, rest)) : items.length = count := by
  rw [length_of_collect succeeded, List.length_nil, Nat.zero_add]

/-! ## Parts read back -/

/-- The reader gives a value for some bytes, whatever follows them. -/
def Reads (reader : Reader α) (bytes : Bytes) (value : α) : Prop :=
  ∀ rest, reader (bytes ++ rest) = .ok (value, rest)

/-- Parts that are read back one after the other are read back together. -/
theorem Reads.bind {reader : Reader α} {next : α → Reader β} {first second : Bytes} {value : α}
    {result : β} (reads : reader.Reads first value) (later : (next value).Reads second result) :
    (reader >>= next).Reads (first ++ second) result := by
  intro rest
  rw [List.append_assoc, bind_of_ok (reads _)]
  exact later rest

theorem Reads.bind_pure {reader : Reader α} {make : α → β} {bytes : Bytes} {value : α}
    (reads : reader.Reads bytes value) :
    (reader >>= fun value => pure (make value)).Reads bytes (make value) := by
  intro rest
  rw [bind_of_ok (reads rest), pure_apply]

theorem reads_u8 (byte : UInt8) : u8.Reads [byte] byte :=
  u8_cons byte

theorem reads_u16 (value : UInt16) : u16.Reads (Bytes.ofUInt16 value) value :=
  u16_ofUInt16 value

theorem reads_u32 (value : UInt32) : u32.Reads (Bytes.ofUInt32 value) value :=
  u32_ofUInt32 value

theorem reads_u64 (value : UInt64) : u64.Reads (Bytes.ofUInt64 value) value :=
  u64_ofUInt64 value

/-- Bytes are read back after their length, if the length field holds it. -/
theorem reads_take {bytes : Bytes} {count : Nat} (isLength : count = bytes.length) :
    (take count).Reads bytes bytes := by
  subst isLength
  exact take_append bytes

/-- Counted items are read back by what reads each of them back, if the count
field holds their number. -/
theorem reads_counted16 {reader : Reader α} {write : α → Bytes} {items : List α}
    (few : items.length ≤ 65535) (reads : ∀ item ∈ items, reader.Reads (write item) item) :
    (counted16 reader).Reads (Bytes.counted16 write items) items := by
  have count : (UInt16.ofNat items.length).toNat = items.length :=
    UInt16.toNat_ofNat_of_lt' (Nat.lt_succ_of_le few)
  refine (reads_u16 _).bind ?_
  rw [count]
  exact times_flatMap reads

/-! ## What a reader gives -/

/-- Whatever the reader gives has a property. -/
def Gives (reader : Reader α) (property : α → Prop) : Prop :=
  ∀ input value rest, reader input = .ok (value, rest) → property value

theorem gives_pure {property : α → Prop} {value : α} (holds : property value) :
    (pure value : Reader α).Gives property := by
  intro input result rest succeeded
  cases succeeded
  exact holds

theorem gives_fail {property : α → Prop} {fault : Fault} :
    (fail fault : Reader α).Gives property := by
  intro input result rest succeeded
  cases succeeded

/-- What follows a reader may rely on what that gives. -/
theorem gives_bind {between : α → Prop} {property : β → Prop} {reader : Reader α}
    {next : α → Reader β} (first : reader.Gives between)
    (later : ∀ value, between value → (next value).Gives property) :
    (reader >>= next).Gives property := by
  intro input result rest succeeded
  rcases bind_eq_ok_iff.1 succeeded with ⟨value, middle, reads, succeeded⟩
  exact later value (first input value middle reads) middle result rest succeeded

/-- A reader about which nothing is asked. -/
theorem gives_bind_any {property : β → Prop} {reader : Reader α} {next : α → Reader β}
    (later : ∀ value, (next value).Gives property) : (reader >>= next).Gives property := by
  have nothing : reader.Gives fun _ => True := fun _ _ _ _ => trivial
  exact gives_bind nothing fun value _ => later value

theorem gives_times (count : Nat) (reader : Reader α) :
    (times count reader).Gives fun items => items.length = count :=
  fun _ _ _ succeeded => length_of_times succeeded

theorem length_of_splitExact {count : Nat} {taken input front rest : Bytes}
    (succeeded : splitExact count taken input = some (front, rest)) :
    front.length = taken.length + count := by
  induction count generalizing taken input with
  | zero =>
      cases succeeded
      simp
  | succ count ih =>
      cases input with
      | nil => cases succeeded
      | cons byte input =>
          rw [ih succeeded, List.length_cons]
          omega

theorem gives_take (count : Nat) : (take count).Gives fun bytes => bytes.length = count := by
  intro input bytes rest succeeded
  unfold take at succeeded
  split at succeeded
  · next taken =>
      cases succeeded
      simpa using length_of_splitExact taken
  · cases succeeded

/-- What holds of the items read so far and of every item to come holds of all
items. -/
theorem forall_of_collect {property : α → Prop} {reader : Reader α} (each : reader.Gives property)
    {count : Nat} {done items : List α} {input rest : Bytes}
    (already : ∀ item ∈ done, property item)
    (succeeded : collect reader count done input = .ok (items, rest)) :
    ∀ item ∈ items, property item := by
  induction count generalizing done input with
  | zero =>
      cases succeeded
      exact fun item found => already item (List.mem_reverse.1 found)
  | succ count ih =>
      unfold collect at succeeded
      split at succeeded
      · cases succeeded
      · next value between reads =>
          exact ih (List.forall_mem_cons.2 ⟨each _ _ _ reads, already⟩) succeeded

/-- Counted items are no more than the count field holds. -/
theorem gives_counted16 {property : α → Prop} {reader : Reader α} (each : reader.Gives property) :
    (counted16 reader).Gives fun items =>
      items.length ≤ 65535 ∧ ∀ item ∈ items, property item := by
  apply gives_bind_any
  intro count input items rest succeeded
  constructor
  · rw [length_of_times succeeded]
    exact Nat.le_of_lt_succ count.toNat_lt
  · exact forall_of_collect each (List.forall_mem_nil _) succeeded

/-! ## What a reader takes off -/

/-- What the reader takes off the input is what is written for its result. -/
def Exact (reader : Reader α) (write : α → Bytes) : Prop :=
  ∀ input value rest, reader input = .ok (value, rest) → input = write value ++ rest

theorem append_of_splitExact {count : Nat} {taken input front rest : Bytes}
    (succeeded : splitExact count taken input = some (front, rest)) :
    taken.reverse ++ input = front ++ rest := by
  induction count generalizing taken input with
  | zero =>
      cases succeeded
      rfl
  | succ count ih =>
      cases input with
      | nil => cases succeeded
      | cons byte input => simpa using ih succeeded

theorem exact_take (count : Nat) : (take count).Exact id := by
  intro input bytes rest succeeded
  unfold take at succeeded
  split at succeeded
  · next taken =>
      cases succeeded
      exact append_of_splitExact taken
  · cases succeeded

/-- A number that is read is no larger than its bytes can say, and they are its
bytes. -/
theorem bigEndian_of_take {width : Nat} {input bytes rest : Bytes}
    (taken : take width input = .ok (bytes, rest)) :
    bytes.toNat < 256 ^ width ∧ input = Bytes.bigEndian width bytes.toNat ++ rest := by
  have length := gives_take width _ _ _ taken
  have small := Bytes.toNat_lt bytes
  have same := Bytes.bigEndian_toNat bytes
  rw [length] at small same
  rw [same]
  exact ⟨small, exact_take width _ _ _ taken⟩

theorem exact_u8 : u8.Exact fun byte => [byte] := by
  intro input byte rest succeeded
  cases input with
  | nil => cases succeeded
  | cons first others =>
      cases succeeded
      rfl

theorem exact_u16 : u16.Exact Bytes.ofUInt16 := by
  intro input value rest succeeded
  rcases bind_eq_ok_iff.1 succeeded with ⟨bytes, between, taken, ended⟩
  cases ended
  rcases bigEndian_of_take taken with ⟨small, isInput⟩
  rw [Bytes.ofUInt16, UInt16.toNat_ofNat_of_lt' small]
  exact isInput

theorem exact_u32 : u32.Exact Bytes.ofUInt32 := by
  intro input value rest succeeded
  rcases bind_eq_ok_iff.1 succeeded with ⟨bytes, between, taken, ended⟩
  cases ended
  rcases bigEndian_of_take taken with ⟨small, isInput⟩
  rw [Bytes.ofUInt32, UInt32.toNat_ofNat_of_lt' small]
  exact isInput

theorem exact_u64 : u64.Exact Bytes.ofUInt64 := by
  intro input value rest succeeded
  rcases bind_eq_ok_iff.1 succeeded with ⟨bytes, between, taken, ended⟩
  cases ended
  rcases bigEndian_of_take taken with ⟨small, isInput⟩
  rw [Bytes.ofUInt64, UInt64.toNat_ofNat_of_lt' small]
  exact isInput

theorem exact_magic (expected : Bytes) : (magic expected).Exact fun _ => expected := by
  intro input _ rest succeeded
  unfold magic at succeeded
  split at succeeded
  · next taken =>
      split at succeeded
      · next same =>
          cases succeeded
          rw [← same]
          exact append_of_splitExact taken
      · cases succeeded
  · cases succeeded

theorem append_of_collect {reader : Reader α} {write : α → Bytes} (exact : reader.Exact write)
    {count : Nat} {done items : List α} {input rest : Bytes}
    (succeeded : collect reader count done input = .ok (items, rest)) :
    done.reverse.flatMap write ++ input = items.flatMap write ++ rest := by
  induction count generalizing done input with
  | zero =>
      cases succeeded
      rfl
  | succ count ih =>
      unfold collect at succeeded
      split at succeeded
      · cases succeeded
      · next value between reads =>
          rw [← ih succeeded, exact _ _ _ reads]
          simp

/-- Counted items are exact if each of them is. -/
theorem exact_counted16 {reader : Reader α} {write : α → Bytes} (exact : reader.Exact write) :
    (counted16 reader).Exact (Bytes.counted16 write) := by
  intro input items rest succeeded
  rcases bind_eq_ok_iff.1 succeeded with ⟨count, between, counts, collected⟩
  have isCount : UInt16.ofNat items.length = count := by
    rw [length_of_times collected, UInt16.ofNat_toNat]
  rw [Bytes.counted16, Bytes.count16, isCount, List.append_assoc,
    ← append_of_collect exact collected]
  exact exact_u16 _ _ _ counts

/-! ## Readers in a row -/

/-- What the reader takes off the input, behind the bytes taken off before, spells
its result. -/
def Consumes (reader : Reader α) (before : Bytes) (spells : α → Bytes → Prop) : Prop :=
  ∀ input value rest, reader input = .ok (value, rest) →
    ∃ taken, input = taken ++ rest ∧ spells value (before ++ taken)

theorem Exact.consumes {reader : Reader α} {write : α → Bytes} (exact : reader.Exact write) :
    reader.Consumes [] fun value taken => taken = write value :=
  fun input value rest reads => ⟨write value, exact input value rest reads, rfl⟩

theorem Consumes.exact {reader : Reader α} {write : α → Bytes}
    (consumes : reader.Consumes [] fun value taken => taken = write value) :
    reader.Exact write := by
  intro input value rest reads
  rcases consumes input value rest reads with ⟨taken, isInput, rfl⟩
  exact isInput

theorem Consumes.mono {reader : Reader α} {before : Bytes} {spells spells' : α → Bytes → Prop}
    (consumes : reader.Consumes before spells)
    (weaker : ∀ value taken, spells value taken → spells' value taken) :
    reader.Consumes before spells' := by
  intro input value rest reads
  rcases consumes input value rest reads with ⟨taken, isInput, spelled⟩
  exact ⟨taken, isInput, weaker value _ spelled⟩

theorem Consumes.gives {reader : Reader α} {before : Bytes} {property : α → Prop}
    (consumes : reader.Consumes before fun value _ => property value) :
    reader.Gives property := by
  intro input value rest reads
  rcases consumes input value rest reads with ⟨_, _, holds⟩
  exact holds

theorem consumes_pure {before : Bytes} {spells : α → Bytes → Prop} {value : α}
    (spelled : spells value before) : (pure value : Reader α).Consumes before spells := by
  intro input result rest succeeded
  cases succeeded
  exact ⟨[], rfl, by rwa [List.append_nil]⟩

theorem consumes_fail {before : Bytes} {spells : α → Bytes → Prop} {fault : Fault} :
    (fail fault : Reader α).Consumes before spells := by
  intro input result rest succeeded
  cases succeeded

/-- Looking at the input takes nothing off. -/
theorem consumes_remaining_bind {next : Bytes → Reader β} {before : Bytes}
    {spells : β → Bytes → Prop} (later : ∀ input, (next input).Consumes before spells) :
    (remaining >>= next).Consumes before spells :=
  fun input result rest succeeded => later input input result rest succeeded

/-- Readers in a row take off what the first takes off, then what the second
does. -/
theorem Consumes.bind {reader : Reader α} {next : α → Reader β} {before : Bytes}
    {middle : α → Bytes → Prop} {spells : β → Bytes → Prop} (first : reader.Consumes [] middle)
    (later : ∀ value taken, middle value taken →
      (next value).Consumes (before ++ taken) spells) :
    (reader >>= next).Consumes before spells := by
  intro input result rest succeeded
  rcases bind_eq_ok_iff.1 succeeded with ⟨value, between, reads, continues⟩
  rcases first input value between reads with ⟨taken, rfl, spelled⟩
  rcases later value taken spelled between result rest continues with ⟨taken', rfl, spelled'⟩
  exact ⟨taken ++ taken', by rw [List.append_assoc], by rwa [← List.append_assoc]⟩

theorem Exact.bind {reader : Reader α} {next : α → Reader β} {write : α → Bytes} {before : Bytes}
    {spells : β → Bytes → Prop} (exact : reader.Exact write)
    (later : ∀ value, (next value).Consumes (before ++ write value) spells) :
    (reader >>= next).Consumes before spells := by
  refine exact.consumes.bind ?_
  rintro value _ rfl
  exact later value

/-- What is made of an exact reader's result is exact if it is written alike. -/
theorem Exact.bind_pure {reader : Reader α} {make : α → β} {write : α → Bytes} {write' : β → Bytes}
    (exact : reader.Exact write) (alike : ∀ value, write value = write' (make value)) :
    (reader >>= fun value => pure (make value)).Exact write' :=
  (exact.bind fun value => consumes_pure (alike value)).exact

theorem consumes_take (count : Nat) :
    (take count).Consumes [] fun bytes taken => bytes.length = count ∧ taken = bytes :=
  fun input bytes rest succeeded =>
    ⟨bytes, exact_take count input bytes rest succeeded, gives_take count _ _ _ succeeded, rfl⟩

/-- As many items are taken off as were asked for. -/
theorem consumes_times {reader : Reader α} {write : α → Bytes} (exact : reader.Exact write)
    (count : Nat) :
    (times count reader).Consumes [] fun items taken =>
      items.length = count ∧ taken = items.flatMap write :=
  fun _ items _ succeeded =>
    ⟨items.flatMap write, append_of_collect exact succeeded, length_of_times succeeded, rfl⟩

theorem consumes_counted16 {reader : Reader α} {property : α → Prop} {write : α → Bytes}
    (each : reader.Consumes [] fun value taken => property value ∧ taken = write value) :
    (counted16 reader).Consumes [] fun items taken =>
      (items.length ≤ 65535 ∧ ∀ item ∈ items, property item) ∧
        taken = Bytes.counted16 write items := by
  have exact : reader.Exact write := (each.mono fun _ _ spelled => spelled.2).exact
  have gives : reader.Gives property := (each.mono fun _ _ spelled => spelled.1).gives
  intro input items rest succeeded
  exact ⟨_, exact_counted16 exact _ _ _ succeeded, gives_counted16 gives _ _ _ succeeded, rfl⟩

theorem Exact.consumes_counted16 {reader : Reader α} {write : α → Bytes}
    (exact : reader.Exact write) :
    (counted16 reader).Consumes [] fun items taken =>
      items.length ≤ 65535 ∧ taken = Bytes.counted16 write items :=
  (Reader.consumes_counted16 (exact.consumes.mono fun _ _ isTaken => ⟨trivial, isTaken⟩)).mono
    fun _ _ spelled => ⟨spelled.1.1, spelled.2⟩

/-- A reader that reads values back and takes off nothing else accepts exactly what
is written for them. -/
theorem eq_ok_iff {reader : Reader α} {property : α → Prop} {write : α → Bytes}
    (reads : ∀ value, property value → reader.Reads (write value) value)
    (consumes : reader.Consumes [] fun value taken => property value ∧ taken = write value)
    {input rest : Bytes} {value : α} :
    reader input = .ok (value, rest) ↔ property value ∧ input = write value ++ rest := by
  constructor
  · intro succeeded
    rcases consumes input value rest succeeded with ⟨taken, isInput, holds, rfl⟩
    exact ⟨holds, isInput⟩
  · rintro ⟨holds, rfl⟩
    exact reads value holds rest

end Reader

end ValueForm
