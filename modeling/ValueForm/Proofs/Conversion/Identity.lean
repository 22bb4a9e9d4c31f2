import ValueForm.Proofs.Analysis.Unaffected
import ValueForm.Proofs.Conversion.Class
import ValueForm.Proofs.Conversion.Descriptors

/-!
# Classes that meet no value-capable class

Where the source of class files supplies none that carries the marker, a
conversion gives back the bytes it was given.
-/

namespace ValueForm

variable {answers : String → Except OracleError Bool} {options : ConvertOptions}

/-! ## Conversions where no class is value-capable -/

namespace ClassFile

theorem convertMethod_of_noneCapable (noneCapable : NoneCapable answers) {classFile : ClassFile}
    {method : Member} {converted : Option Member} {last : ConstantPool}
    (succeeded : (classFile.convertMethod method options).eval answers = .ok (converted, last)) :
    converted = none := by
  rcases convertMethod_cases succeeded with
    ⟨same, _⟩ | ⟨position, body, code?, name, _, constructs | converts, rfl⟩
  · exact same
  · cases code? with
    | none => rfl
    | some code =>
        rcases (MethodBody.convertConstructor_spec constructs).2 code rfl with
          ⟨⟨element, isCapable⟩, _⟩
        exact absurd isCapable (noneCapable element)
  · rcases MethodBody.convert_cases converts with
      ⟨analysis, analyzed, ⟨rfl, _⟩ | ⟨decides, _⟩⟩
    · rfl
    · rw [(MethodBody.analyze_of_noneCapable noneCapable analyzed).1] at decides
      cases decides

theorem MethodsConverted.eq_none (noneCapable : NoneCapable answers) {classFile : ClassFile}
    {methods : List Member} {outcomes : List (Option Member)} {last : ConstantPool}
    (converted : MethodsConverted answers options classFile methods outcomes last) :
    outcomes.any Option.isSome = false := by
  induction converted with
  | nil => rfl
  | cons here _ ih =>
      rw [convertMethod_of_noneCapable noneCapable here]
      exact ih

theorem describe?_of_noneCapable (noneCapable : NoneCapable answers) {classFile : ClassFile}
    {described : Option ClassFile}
    (succeeded : (classFile.describe? options).eval answers = .ok described) :
    described = none := by
  unfold describe? at succeeded
  split at succeeded
  · rcases flattenDescriptors?_spec succeeded with ⟨indices, _, ⟨_, same⟩ | ⟨something, _⟩⟩
    · exact same
    · exact absurd (changes_eq_nil noneCapable.capability_eq _ indices) something
  · exact (Inquiry.eval_pure_eq_ok_iff.1 succeeded).symm

/-- Where no class is value-capable a conversion changes nothing. -/
theorem convert_of_noneCapable (noneCapable : NoneCapable answers) {bytes out : Bytes}
    (converted : (convert bytes options).eval answers = .ok out) : out = bytes := by
  rcases convert_cases converted with
    ⟨classFile, outcomes, pool, described, _, methods, describes, rfl⟩
  rw [methods.eq_none noneCapable, describe?_of_noneCapable noneCapable describes]
  rfl

end ClassFile

/-! ## Sources without the marker -/

/-- No class file that the source supplies carries the marker. -/
def ClassFinder.Unmarked (find : ClassFinder) : Prop :=
  ∀ (className : String) (bytes rest : Bytes), find className = .found bytes →
    ClassFile.scanAnnotation capableMarker bytes ≠ .ok (true, rest)

theorem ClassFinder.Unmarked.verdict_ne {find : ClassFinder} (unmarked : Unmarked find) :
    NoneCapable (verdict find) := by
  intro className isCapable
  unfold verdict at isCapable
  split at isCapable
  · cases isCapable
  · cases isCapable
  · next bytes isFound =>
      split at isCapable
      · next found rest scanned =>
          cases isCapable
          exact unmarked className bytes rest isFound scanned
      · cases isCapable

/-- An oracle that remembers no value-capable class learns of none from a source
without the marker. -/
theorem Oracle.noneCapable_answer {find : ClassFinder} {oracle : Oracle}
    (unmarked : ClassFinder.Unmarked find)
    (remembersNone : ∀ className : String, oracle.answers[className]? ≠ some true) :
    NoneCapable (oracle.answer find) := by
  intro className isCapable
  rw [answer_eq] at isCapable
  split at isCapable
  · next remembered isKnown =>
      cases isCapable
      exact remembersNone className isKnown
  · exact unmarked.verdict_ne className isCapable

/-- A conversion with a source without the marker gives back the bytes it was
given. An analysis that hears of no value-capable class takes no decision, and
its frames hold no instance of one. -/
theorem convert_unaffected :
    (∀ (find : ClassFinder) (oracle : Oracle) (bytes out : Bytes) (options : ConvertOptions),
      ClassFinder.Unmarked find →
      (∀ className : String, oracle.answers[className]? ≠ some true) →
      ((ClassFile.convert bytes options).run find oracle).result = .ok out → out = bytes) ∧
    ∀ (find : ClassFinder) (oracle : Oracle) (classFile : ClassFile) (body : MethodBody)
      (flatArrays : Bool) (result : AnalysisResult),
      .ok true ∉ (body.analyze classFile flatArrays).heard find oracle →
      ((body.analyze classFile flatArrays).run find oracle).result = .ok result →
      result.registry.isEmpty = true ∧ ∀ (index : Nat) (frame : Frame) (value : Value),
        result.frames[index]? = some (some frame) → frame.Holds value →
          value.isCapable = false := by
  constructor
  · intro find oracle bytes out options unmarked remembersNone converted
    rw [Inquiry.run_result] at converted
    exact ClassFile.convert_of_noneCapable (Oracle.noneCapable_answer unmarked remembersNone)
      converted
  · intro find oracle classFile body flatArrays result heardNone analyzed
    rw [Inquiry.run_result, Inquiry.eval_of_heard heardNone] at analyzed
    refine MethodBody.analyze_of_noneCapable ?_ analyzed
    intro className isCapable
    dsimp only at isCapable
    cases given : oracle.answer find className with
    | ok capable =>
        rw [given] at isCapable
        cases isCapable
    | error error =>
        rw [given] at isCapable
        cases isCapable

/-- A class that has `MethodBody.choose` for a method. -/
def ClassFile.chooser : ClassFile where
  minorVersion := 0
  majorVersion := 52
  pool := {
    size := 10
    entries := ClassFile.pair.pool.entries ++ #[.utf8 (Bytes.ofText "m"),
      .utf8 (Bytes.ofText "(LV;LV;)LV;"), .utf8 (Bytes.ofText "Code")] }
  access := 0
  thisClass := 2
  superClass := 0
  interfaces := []
  fields := []
  methods := [⟨0x0008, 7, 8, [⟨9, MethodBody.choose.code.toBytes⟩]⟩]
  attributes := []

/-- A source that supplies one class, which has no annotation. -/
def ClassFinder.plain : ClassFinder
  | "V" => .found ClassFile.pair.toBytes
  | _ => .absent

theorem ClassFinder.unmarked_plain : Unmarked plain := by
  have scanned : ClassFile.scanAnnotation capableMarker ClassFile.pair.toBytes =
      .ok (false, []) := by
    decide +kernel
  intro className bytes rest isFound isMarked
  unfold plain at isFound
  split at isFound
  · cases isFound
    cases scanned.symm.trans isMarked
  · cases isFound

/-- A class with a method that is analysed, and the analysis of that method. -/
theorem convert_unaffected_chooser :
    ((ClassFile.convert ClassFile.chooser.toBytes {}).run .plain).result =
      .ok ClassFile.chooser.toBytes ∧
    ∃ result, ((MethodBody.choose.analyze .pair true).run .plain).result = .ok result ∧
      result.registry.isEmpty = true ∧
      ∀ index < 7, ∃ frame, result.frames[index]? = some (some frame) ∧
        ∀ value, frame.Holds value → value.isCapable = false := by
  have remembersNone (className : String) : ({} : Oracle).answers[className]? ≠ some true := by
    simp
  constructor
  · have succeeds : ((ClassFile.convert ClassFile.chooser.toBytes {}).run
        .plain).result.toOption.any (fun _ => true) = true := by
      rw [Inquiry.run_result, Oracle.answer_empty]
      decide +kernel
    rcases Outcome.exists_of_any _ succeeds with ⟨out, converted, _⟩
    have same := convert_unaffected.1 _ _ _ out _ ClassFinder.unmarked_plain remembersNone converted
    rw [converted, same]
  · have analyzed : ∃ result,
        ((MethodBody.choose.analyze .pair true).run .plain).result = .ok result ∧
          (result.frames.size == 7 && result.frames.all Option.isSome) = true := by
      apply Outcome.exists_of_any
      rw [Inquiry.run_result, Oracle.answer_empty]
      decide +kernel
    rcases analyzed with ⟨result, analyzed, reached⟩
    have heardNone :
        .ok true ∉ (MethodBody.choose.analyze .pair true).heard ClassFinder.plain {} := by
      intro isHeard
      rcases Inquiry.exists_of_mem_heard isHeard with ⟨className, answered⟩
      exact Oracle.noneCapable_answer ClassFinder.unmarked_plain remembersNone className answered
    rcases convert_unaffected.2 _ _ _ _ _ result heardNone analyzed with ⟨empty, plain⟩
    refine ⟨result, analyzed, empty, ?_⟩
    intro index inRange
    rcases AnalysisResult.exists_frame reached index inRange with ⟨frame, found⟩
    exact ⟨frame, found, fun value holds => plain index frame value found holds⟩

end ValueForm
