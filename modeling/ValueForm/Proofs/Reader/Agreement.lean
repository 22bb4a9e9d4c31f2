import ValueForm.Proofs.Reader

/-!
# Readers of one format

Two readers agree when they accept the same inputs, leave the same rest and give
related results; how they fail is left open. `Reader.Agrees` is carried through
a row of readers, so a reader that skips parts by their length is compared with
one that reads them part by part.

`Reader.search` reads items in a row until one passes a test, and is compared
with reading all of them.
-/

namespace ValueForm.Reader

variable {α β γ δ : Type}

/-- Both readers accept the same inputs, leave the same rest and give related
results. -/
structure Agrees (related : α → β → Prop) (first : Reader α) (second : Reader β) : Prop where
  forth : ∀ {input value rest}, first input = .ok (value, rest) →
    ∃ value', second input = .ok (value', rest) ∧ related value value'
  back : ∀ {input value' rest}, second input = .ok (value', rest) →
    ∃ value, first input = .ok (value, rest) ∧ related value value'

/-- The first reader gets past what the second one reads. -/
abbrev Passes (skip : Reader α) (read : Reader β) : Prop :=
  skip.Agrees (fun _ _ => True) read

variable {related : α → β → Prop} {related' : γ → δ → Prop} {first : Reader α} {second : Reader β}

theorem agrees_refl (reader : Reader α) : reader.Agrees Eq reader where
  forth succeeded := ⟨_, succeeded, rfl⟩
  back succeeded := ⟨_, succeeded, rfl⟩

theorem agrees_pure {value : α} {value' : β} (holds : related value value') :
    (pure value : Reader α).Agrees related (pure value') := by
  constructor
  · intro input result rest succeeded
    cases succeeded
    exact ⟨value', rfl, holds⟩
  · intro input result rest succeeded
    cases succeeded
    exact ⟨value, rfl, holds⟩

/-- Readers that agree are followed by readers that agree on related results. -/
theorem Agrees.bind {next : α → Reader γ} {next' : β → Reader δ}
    (agrees : first.Agrees related second)
    (later : ∀ value value', related value value' →
      (next value).Agrees related' (next' value')) :
    (first >>= next).Agrees related' (second >>= next') := by
  constructor
  · intro input result rest succeeded
    rcases bind_eq_ok_iff.1 succeeded with ⟨value, between, reads, continues⟩
    rcases agrees.forth reads with ⟨value', reads', holds⟩
    rcases (later value value' holds).forth continues with ⟨result', continues', holds'⟩
    exact ⟨result', bind_eq_ok_iff.2 ⟨value', between, reads', continues'⟩, holds'⟩
  · intro input result rest succeeded
    rcases bind_eq_ok_iff.1 succeeded with ⟨value', between, reads', continues'⟩
    rcases agrees.back reads' with ⟨value, reads, holds⟩
    rcases (later value value' holds).back continues' with ⟨result', continues, holds'⟩
    exact ⟨result', bind_eq_ok_iff.2 ⟨value, between, reads, continues⟩, holds'⟩

/-- The same reader on both sides gives both sides the same result. -/
theorem agrees_bind (reader : Reader α) {next : α → Reader γ} {next' : α → Reader δ}
    (later : ∀ value, (next value).Agrees related' (next' value)) :
    (reader >>= next).Agrees related' (reader >>= next') := by
  apply (agrees_refl reader).bind
  rintro value _ rfl
  exact later value

theorem Agrees.bind_pure {make : β → δ} {related' : α → δ → Prop}
    (agrees : first.Agrees related second)
    (holds : ∀ value value', related value value' → related' value (make value')) :
    first.Agrees related' (second >>= fun value' => pure (make value')) := by
  constructor
  · intro input value rest succeeded
    rcases agrees.forth succeeded with ⟨value', reads', related⟩
    exact ⟨make value', bind_of_ok reads', holds value value' related⟩
  · intro input result rest succeeded
    rcases bind_eq_ok_iff.1 succeeded with ⟨value', between, reads', ended⟩
    cases ended
    rcases agrees.back reads' with ⟨value, reads, related⟩
    exact ⟨value, reads, holds value value' related⟩

/-! ## Getting past a part -/

theorem discard_eq_ok_iff {reader : Reader α} {input rest : Bytes} {done : Unit} :
    (discard reader : Reader Unit) input = .ok (done, rest) ↔
      ∃ value, reader input = .ok (value, rest) := by
  change (reader >>= fun _ => pure ()) input = .ok ((), rest) ↔ _
  rw [bind_eq_ok_iff]
  constructor
  · rintro ⟨value, between, reads, ended⟩
    cases ended
    exact ⟨value, reads⟩
  · rintro ⟨value, reads⟩
    exact ⟨value, rest, reads, rfl⟩

/-- What is read and thrown away is got past. -/
theorem Agrees.discard (agrees : first.Agrees related second) :
    (Functor.discard first : Reader Unit).Passes second := by
  constructor
  · intro input done rest succeeded
    rcases discard_eq_ok_iff.1 succeeded with ⟨value, reads⟩
    rcases agrees.forth reads with ⟨value', reads', _⟩
    exact ⟨value', reads', trivial⟩
  · intro input value' rest succeeded
    rcases agrees.back succeeded with ⟨value, reads, _⟩
    exact ⟨(), discard_eq_ok_iff.2 ⟨value, reads⟩, trivial⟩

theorem take_eq_ok_iff {count : Nat} {input bytes rest : Bytes} :
    take count input = .ok (bytes, rest) ↔ bytes.length = count ∧ input = bytes ++ rest := by
  constructor
  · intro succeeded
    exact ⟨gives_take count _ _ _ succeeded, exact_take count _ _ _ succeeded⟩
  · rintro ⟨rfl, rfl⟩
    exact take_append bytes rest

/-- Passing over a run of bytes is splitting them off. -/
theorem skip_eq_ok_iff {count : Nat} {next : Unit → Reader α} {input rest : Bytes} {result : α} :
    (discard (take count) >>= next) input = .ok (result, rest) ↔
      ∃ bytes between, bytes.length = count ∧ input = bytes ++ between ∧
        next () between = .ok (result, rest) := by
  rw [bind_eq_ok_iff]
  constructor
  · rintro ⟨_, between, passed, continues⟩
    rcases discard_eq_ok_iff.1 passed with ⟨bytes, taken⟩
    rcases take_eq_ok_iff.1 taken with ⟨length, isInput⟩
    exact ⟨bytes, between, length, isInput, continues⟩
  · rintro ⟨bytes, between, length, isInput, continues⟩
    have taken := take_eq_ok_iff.2 ⟨length, isInput⟩
    exact ⟨(), between, discard_eq_ok_iff.2 ⟨bytes, taken⟩, continues⟩

/-- A run of bytes may be passed over in two steps. -/
theorem skip_add_eq_ok_iff {count count' : Nat} {next : Unit → Reader α} {input rest : Bytes}
    {result : α} :
    (discard (take (count + count')) >>= next) input = .ok (result, rest) ↔
      (discard (take count) >>= fun _ => discard (take count') >>= next) input =
        .ok (result, rest) := by
  simp only [skip_eq_ok_iff]
  constructor
  · rintro ⟨bytes, between, length, rfl, continues⟩
    refine ⟨bytes.take count, bytes.drop count ++ between, ?_, ?_, bytes.drop count, between, ?_,
      rfl, continues⟩
    · rw [List.length_take]
      omega
    · rw [← List.append_assoc, List.take_append_drop]
    · rw [List.length_drop]
      omega
  · rintro ⟨front, _, rfl, rfl, back, between, rfl, rfl, continues⟩
    refine ⟨front ++ back, between, List.length_append, ?_, continues⟩
    rw [List.append_assoc]

theorem Agrees.split (count count' : Nat) {next : Unit → Reader α}
    (agrees :
      (Functor.discard (take count) >>= fun _ => Functor.discard (take count') >>= next).Agrees
        related second) :
    (Functor.discard (take (count + count')) >>= next).Agrees related second := by
  constructor
  · intro input value rest succeeded
    exact agrees.forth (skip_add_eq_ok_iff.1 succeeded)
  · intro input value' rest succeeded
    rcases agrees.back succeeded with ⟨value, reads, holds⟩
    exact ⟨value, skip_add_eq_ok_iff.2 reads, holds⟩

theorem passes_u16 : (discard (take 2) : Reader Unit).Passes u16 :=
  (agrees_refl (take 2)).discard.bind_pure fun _ _ _ => trivial

/-! ## Items in a row -/

instance : LawfulMonad Reader := by
  refine LawfulMonad.mk' Reader ?_ ?_ ?_
  · intro α reader
    funext input
    change (reader >>= pure) input = reader input
    cases reads : reader input with
    | error error => exact bind_of_error reads
    | ok pair => exact bind_of_ok reads
  · intro α β value next
    rfl
  · intro α β γ reader next last
    funext input
    cases reads : reader input with
    | error error => simp only [bind, reads]
    | ok pair => simp only [bind, reads]

theorem collect_eq (reader : Reader α) (count : Nat) (done : List α) :
    collect reader count done = do return done.reverse ++ (← times count reader) := by
  induction count generalizing done with
  | zero =>
      funext input
      simp [times, collect, bind]
  | succ count ih =>
      have opened : ∀ done : List α, collect reader (count + 1) done =
          (reader >>= fun item => collect reader count (item :: done)) := fun _ => rfl
      rw [times, opened, opened]
      simp only [ih, bind_assoc, pure_bind, List.reverse_cons, List.append_assoc,
        List.singleton_append, List.reverse_nil, List.nil_append]

/-- Items in a row are the first one and those after it. -/
theorem times_succ (reader : Reader α) (count : Nat) :
    times (count + 1) reader = do
      let item ← reader
      let items ← times count reader
      return item :: items := by
  change (reader >>= fun item => collect reader count [item]) = _
  simp only [collect_eq, List.reverse_singleton, List.singleton_append]

theorem Agrees.times (agrees : first.Agrees related second) (count : Nat) :
    (Reader.times count first).Agrees (List.Forall₂ related) (Reader.times count second) := by
  induction count with
  | zero => exact agrees_pure .nil
  | succ count ih =>
      rw [times_succ, times_succ]
      apply agrees.bind
      intro item item' here
      apply ih.bind
      intro items items' others
      exact agrees_pure (.cons here others)

theorem Agrees.counted16 (agrees : first.Agrees related second) :
    (Reader.counted16 first).Agrees (List.Forall₂ related) (Reader.counted16 second) :=
  agrees_bind u16 fun count => agrees.times count.toNat

/-- Twice as many bytes are passed over as there are 16-bit numbers. -/
theorem passes_times_u16 (count : Nat) :
    (discard (take (2 * count)) : Reader Unit).Passes (times count u16) := by
  induction count with
  | zero =>
      have nothing : (take 0).Passes (times 0 u16) := agrees_pure trivial
      exact nothing.discard
  | succ count ih =>
      rw [times_succ, Nat.mul_succ, Nat.add_comm, ← bind_pure (discard (take (2 + 2 * count)))]
      apply Agrees.split 2 (2 * count)
      apply passes_u16.bind
      intro _ item _
      rw [bind_pure]
      exact ih.bind_pure fun _ _ _ => trivial

/-- Counted 16-bit numbers are passed over by their count. -/
theorem Agrees.skip_counted16_u16 {next : Reader γ} {next' : List UInt16 → Reader δ}
    (later : ∀ values, next.Agrees related' (next' values)) :
    (u16 >>= fun count => Functor.discard (take (2 * count.toNat)) >>= fun _ => next).Agrees
      related' (Reader.counted16 u16 >>= next') := by
  rw [Reader.counted16, bind_assoc]
  apply agrees_bind
  intro count
  apply (passes_times_u16 count.toNat).bind
  intro _ values _
  exact later values

/-! ## The first item that passes a test -/

/-- Read at most `count` items in a row, up to the first one that passes a test.
The test is told the input after the item, and may fail. -/
def search (reader : Reader α) (test : α → Bytes → Except ReadError Bool) : Nat → Reader Bool
  | 0, input => .ok (false, input)
  | count + 1, input =>
      match reader input with
      | .error error => .error error
      | .ok (item, rest) =>
          match test item rest with
          | .error error => .error error
          | .ok true => .ok (true, rest)
          | .ok false => search reader test count rest

section Search

variable {reader : Reader α} {test : α → Bytes → Except ReadError Bool}

theorem times_succ_eq_ok_iff {count : Nat} {input rest : Bytes} {items : List α} :
    times (count + 1) reader input = .ok (items, rest) ↔
      ∃ item between others, reader input = .ok (item, between) ∧
        times count reader between = .ok (others, rest) ∧ items = item :: others := by
  rw [times_succ, bind_eq_ok_iff]
  constructor
  · rintro ⟨item, between, reads, continues⟩
    rcases bind_eq_ok_iff.1 continues with ⟨others, _, collected, ended⟩
    cases ended
    exact ⟨item, between, others, reads, collected, rfl⟩
  · rintro ⟨item, between, others, reads, collected, rfl⟩
    exact ⟨item, between, reads, bind_of_ok collected⟩

/-- A search finds nothing exactly where all items can be read and the test
clears every one of them. -/
theorem search_eq_false_iff {clear : α → Prop}
    (clears : ∀ item rest, test item rest = .ok false ↔ clear item) {count : Nat}
    {input rest : Bytes} :
    search reader test count input = .ok (false, rest) ↔
      ∃ items, times count reader input = .ok (items, rest) ∧ ∀ item ∈ items, clear item := by
  induction count generalizing input with
  | zero =>
      constructor
      · intro ended
        cases ended
        exact ⟨[], rfl, List.forall_mem_nil _⟩
      · rintro ⟨items, ended, _⟩
        cases ended
        rfl
  | succ count ih =>
      simp only [search, times_succ_eq_ok_iff]
      constructor
      · intro searched
        split at searched
        · cases searched
        · next item between reads =>
            split at searched
            · cases searched
            · cases searched
            · next tested =>
                rcases ih.1 searched with ⟨others, collected, all⟩
                exact ⟨item :: others, ⟨item, between, others, reads, collected, rfl⟩,
                  List.forall_mem_cons.2 ⟨(clears item between).1 tested, all⟩⟩
      · rintro ⟨_, ⟨item, between, others, reads, collected, rfl⟩, all⟩
        rcases List.forall_mem_cons.1 all with ⟨here, all⟩
        simp only [reads, (clears item between).2 here]
        exact ih.2 ⟨others, collected, all⟩

/-- Where all items can be read and the test decides a property of every one of
them, a search decides whether one of them has it. -/
theorem search_of_times {hit : α → Prop} {count : Nat} {input rest : Bytes} {items : List α}
    (collected : times count reader input = .ok (items, rest))
    (decides : ∀ item ∈ items, ∀ rest, ∃ found,
      test item rest = .ok found ∧ (found = true ↔ hit item)) :
    ∃ found rest', search reader test count input = .ok (found, rest') ∧
      (found = true ↔ ∃ item ∈ items, hit item) := by
  induction count generalizing input items with
  | zero =>
      cases collected
      exact ⟨false, rest, rfl, by simp⟩
  | succ count ih =>
      rcases times_succ_eq_ok_iff.1 collected with ⟨item, between, others, reads, remaining, rfl⟩
      rcases List.forall_mem_cons.1 decides with ⟨here, decides⟩
      rcases here between with ⟨found, tested, isHit⟩
      simp only [search, reads, tested, List.exists_mem_cons_iff]
      cases found with
      | true => exact ⟨true, between, rfl, iff_of_true rfl (.inl (isHit.1 rfl))⟩
      | false =>
          rcases ih remaining decides with ⟨found, rest', searched, isHit'⟩
          have missed : ¬hit item := fun isHere => Bool.false_ne_true (isHit.2 isHere)
          exact ⟨found, rest', searched, by rw [isHit', or_iff_right missed]⟩

end Search

end ValueForm.Reader
