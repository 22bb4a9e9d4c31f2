import ValueForm.Archive.Conversion
import ValueForm.Proofs.Inquiry
import ValueForm.Proofs.Outcome

/-!
# Archives are converted entry by entry

All classes of an archive share one oracle, so by the time a class is converted
the oracle has been asked whatever the classes before it asked. None of that
shows: every entry becomes what it becomes on its own, with an oracle that
remembers nothing, and the conversion of the archive fails as the first entry
does whose own conversion fails.

Names, their order and entries of one name play no part in this, since an entry
is never looked up on the way: only questions about classes look into the
archive, and they look into the archive as it was given.
-/

namespace ValueForm

namespace Entry

/-- What the class in an entry is converted to, by an oracle that remembers
nothing. -/
def convertAlone (options : ConvertOptions) (find : ClassFinder) (entry : Entry) :
    Except ConvertError Bytes :=
  ((ClassFile.convert entry.data options).run find).result

/-- What an entry becomes on its own: a class is converted, and everything else
stays as it is. -/
inductive ConvertsTo (options : ConvertOptions) (find : ClassFinder) : Entry → Entry → Prop
  | converted {entry : Entry} {data : Bytes} (isClass : entry.isClass = true)
      (converts : entry.convertAlone options find = .ok data) :
      ConvertsTo options find entry ⟨entry.name, data⟩
  | kept {entry : Entry} (isOther : entry.isClass = false) : ConvertsTo options find entry entry

variable {options : ConvertOptions} {find : ClassFinder} {entry entry' : Entry}

theorem convertAlone_eq (options : ConvertOptions) (find : ClassFinder) (entry : Entry) :
    entry.convertAlone options find =
      (ClassFile.convert entry.data options).eval (verdict find) := by
  rw [convertAlone, Inquiry.run_result, Oracle.answer_empty]

theorem eval_convert_of_isClass (isClass : entry.isClass = true) :
    (entry.convert options).eval (verdict find) =
      ((entry.convertAlone options find).mapError (.entry entry.name)).map fun data =>
        ⟨entry.name, data⟩ := by
  rw [convert, if_pos isClass, Inquiry.eval_bind, Inquiry.eval_mapError, ← convertAlone_eq]
  cases entry.convertAlone options find <;> rfl

theorem eval_convert_of_not_isClass (isOther : entry.isClass = false) :
    (entry.convert options).eval (verdict find) = .ok entry := by
  rw [convert, isOther]
  rfl

theorem eval_convert_eq_ok_iff :
    (entry.convert options).eval (verdict find) = .ok entry' ↔
      ConvertsTo options find entry entry' := by
  cases isClass : entry.isClass with
  | true =>
      rw [eval_convert_of_isClass isClass]
      constructor
      · intro succeeded
        cases converts : entry.convertAlone options find with
        | error cause =>
            rw [converts] at succeeded
            cases succeeded
        | ok data =>
            rw [converts] at succeeded
            cases succeeded
            exact .converted isClass converts
      · intro becomes
        cases becomes with
        | converted _ converts =>
            rw [converts]
            rfl
        | kept isOther => cases isClass.symm.trans isOther
  | false =>
      rw [eval_convert_of_not_isClass isClass]
      constructor
      · intro succeeded
        cases succeeded
        exact .kept isClass
      · intro becomes
        cases becomes with
        | converted isClass' _ => cases isClass.symm.trans isClass'
        | kept _ => rfl

/-- The conversion of an entry fails only for a class that fails on its own, and
names the entry. -/
theorem eval_convert_eq_error_iff {error : ArchiveConvertError} :
    (entry.convert options).eval (verdict find) = .error error ↔
      ∃ cause, entry.isClass = true ∧ entry.convertAlone options find = .error cause ∧
        error = .entry entry.name cause := by
  cases isClass : entry.isClass with
  | true =>
      rw [eval_convert_of_isClass isClass]
      cases entry.convertAlone options find with
      | error cause =>
          constructor
          · intro failed
            cases failed
            exact ⟨cause, rfl, rfl, rfl⟩
          · rintro ⟨_, _, ⟨⟩, rfl⟩
            rfl
      | ok data =>
          constructor
          · intro failed
            cases failed
          · rintro ⟨_, _, failed, _⟩
            cases failed
  | false =>
      rw [eval_convert_of_not_isClass isClass]
      constructor
      · intro failed
        cases failed
      · rintro ⟨_, isClass', _⟩
        cases isClass'

/-- An entry becomes something unless it is a class that fails on its own. -/
theorem exists_convertsTo_iff :
    (∃ entry', ConvertsTo options find entry entry') ↔
      (entry.isClass = true → ∃ data, entry.convertAlone options find = .ok data) := by
  constructor
  · rintro ⟨entry', becomes⟩ isClass
    cases becomes with
    | converted _ converts => exact ⟨_, converts⟩
    | kept isOther => cases isClass.symm.trans isOther
  · intro succeeds
    cases isClass : entry.isClass with
    | true =>
        rcases succeeds isClass with ⟨data, converts⟩
        exact ⟨_, .converted isClass converts⟩
    | false => exact ⟨entry, .kept isClass⟩

end Entry

namespace Archive

variable {options : ConvertOptions} {answers : String → Except OracleError Bool}

/-- Notes aside, the entries are converted one after the other. -/
theorem eval_convertEntries_cons (entry : Entry) (rest done : List Entry) :
    (convertEntries options (entry :: rest) done).eval answers =
      ((entry.convert options).eval answers).bind fun converted =>
        (convertEntries options rest (converted :: done)).eval answers := by
  rw [convertEntries, Inquiry.eval_bind]
  congr 1
  funext converted
  split <;> rfl

theorem eval_convertEntries (entries done : List Entry) :
    (convertEntries options entries done).eval answers =
      (entries.mapM fun entry : Entry => (entry.convert options).eval answers).map
        fun converted => done.reverse ++ converted := by
  induction entries generalizing done with
  | nil => simp [convertEntries, Inquiry.eval, pure, Except.pure, Except.map]
  | cons entry rest ih =>
      rw [eval_convertEntries_cons, List.mapM_cons]
      cases (entry.convert options).eval answers with
      | error error => rfl
      | ok converted =>
          simp only [Except.bind, ih]
          cases rest.mapM fun entry : Entry => (entry.convert options).eval answers with
          | error error => rfl
          | ok others => simp [bind, Except.bind, pure, Except.pure, Except.map]

/-- The result of a conversion is that of a traversal of the entries. -/
theorem convert_result (archive : Archive) (options : ConvertOptions) :
    (archive.convert options).result =
      (archive.entries.mapM fun entry : Entry =>
        (entry.convert options).eval (verdict archive.finder)).map Archive.mk := by
  have ends : ((convertEntries options archive.entries []).run archive.finder).result =
      archive.entries.mapM fun entry : Entry =>
        (entry.convert options).eval (verdict archive.finder) := by
    rw [Inquiry.run_result, Oracle.answer_empty, eval_convertEntries]
    cases archive.entries.mapM fun entry : Entry =>
      (entry.convert options).eval (verdict archive.finder) <;> rfl
  rw [← ends, convert]
  dsimp only
  cases ((convertEntries options archive.entries []).run archive.finder).result <;> rfl

theorem convert_eq_ok_iff {archive converted : Archive} :
    (archive.convert options).result = .ok converted ↔
      List.Forall₂ (Entry.ConvertsTo options archive.finder) archive.entries
        converted.entries := by
  have each : List.Forall₂ (Entry.ConvertsTo options archive.finder) archive.entries
        converted.entries ↔
      List.Forall₂ (fun entry entry' : Entry =>
        (entry.convert options).eval (verdict archive.finder) = .ok entry') archive.entries
        converted.entries := by
    simp only [Entry.eval_convert_eq_ok_iff]
  rw [convert_result, each, ← Outcome.mapM_eq_ok_iff]
  cases archive.entries.mapM fun entry : Entry =>
      (entry.convert options).eval (verdict archive.finder) with
  | error error => simp [Except.map]
  | ok entries =>
      rcases converted with ⟨entries'⟩
      simp [Except.map]

theorem convert_eq_error_iff {archive : Archive} {error : ArchiveConvertError} :
    (archive.convert options).result = .error error ↔
      ∃ before entry after cause, archive.entries = before ++ entry :: after ∧
        (∀ earlier ∈ before, earlier.isClass = true →
          ∃ data, earlier.convertAlone options archive.finder = .ok data) ∧
        entry.isClass = true ∧ entry.convertAlone options archive.finder = .error cause ∧
        error = .entry entry.name cause := by
  have fails : (archive.convert options).result = .error error ↔
      (archive.entries.mapM fun entry : Entry =>
        (entry.convert options).eval (verdict archive.finder)) = .error error := by
    rw [convert_result]
    cases archive.entries.mapM fun entry : Entry =>
      (entry.convert options).eval (verdict archive.finder) <;> simp [Except.map]
  rw [fails, Outcome.mapM_eq_error_iff]
  simp only [Entry.eval_convert_eq_ok_iff, Entry.exists_convertsTo_iff,
    Entry.eval_convert_eq_error_iff]
  constructor
  · rintro ⟨before, entry, after, isSplit, succeed, cause, isClass, failed, isError⟩
    exact ⟨before, entry, after, cause, isSplit, succeed, isClass, failed, isError⟩
  · rintro ⟨before, entry, after, cause, isSplit, succeed, isClass, failed, isError⟩
    exact ⟨before, entry, after, isSplit, succeed, cause, isClass, failed, isError⟩

/-- The conversion of an archive succeeds exactly if every class in it is
converted on its own, and then gives every entry as it is converted on its own.
Else it fails with the failure of the first class that is not. -/
theorem convert_entrywise (archive : Archive) (options : ConvertOptions) :
    ((∃ converted, (archive.convert options).result = .ok converted) ↔
      ∀ entry ∈ archive.entries, entry.isClass = true →
        ∃ data, entry.convertAlone options archive.finder = .ok data) ∧
    (∀ converted, (archive.convert options).result = .ok converted ↔
      List.Forall₂ (Entry.ConvertsTo options archive.finder) archive.entries converted.entries) ∧
    ∀ error, (archive.convert options).result = .error error ↔
      ∃ before entry after cause, archive.entries = before ++ entry :: after ∧
        (∀ earlier ∈ before, earlier.isClass = true →
          ∃ data, earlier.convertAlone options archive.finder = .ok data) ∧
        entry.isClass = true ∧ entry.convertAlone options archive.finder = .error cause ∧
        error = .entry entry.name cause := by
  refine ⟨?_, fun _ => convert_eq_ok_iff, fun _ => convert_eq_error_iff⟩
  constructor
  · rintro ⟨converted, succeeded⟩ entry isEntry
    have each := convert_eq_ok_iff.1 succeeded
    rcases Outcome.exists_of_mem_forall₂ each.flip isEntry with ⟨entry', _, becomes⟩
    exact Entry.exists_convertsTo_iff.1 ⟨entry', becomes⟩
  · intro succeed
    cases result : (archive.convert options).result with
    | ok converted => exact ⟨converted, rfl⟩
    | error error =>
        rcases convert_eq_error_iff.1 result with
          ⟨before, entry, after, cause, isSplit, _, isClass, failed, _⟩
        have isEntry : entry ∈ archive.entries := by simp [isSplit]
        rcases succeed entry isEntry isClass with ⟨data, converts⟩
        cases failed.symm.trans converts

end Archive

end ValueForm
