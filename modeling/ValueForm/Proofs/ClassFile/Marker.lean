import ValueForm.Oracle
import ValueForm.Conversion.Descriptors
import ValueForm.Proofs.ClassFile.Pool
import ValueForm.Proofs.Reader.Agreement

/-!
# The annotation scan and the class reader

The scan for a class annotation is a second reader of class files: it passes over
interfaces, fields and methods by their lengths and ends at the first annotation
of the type it looks for. It is compared with `ClassFile.read`. Up to the class
attributes both agree on every input (`ClassFile.scanFront_agrees`); the
attributes, and the annotations in each of them, are searched in a row.

A scan that finds something does not look at what follows, so it may accept an
input that is no class file. A scan that finds nothing has seen all of it.
-/

namespace ValueForm

open Reader

/-! ## Members -/

/-- Passing over an attribute makes the reads of reading it. -/
theorem Attribute.skip_eq_discard_read : skip = discard read := by
  funext input
  simp only [skip, read, discard, Functor.discard, Functor.mapConst, bind, pure, Function.comp]
  cases u16 input with
  | error error => rfl
  | ok named =>
      dsimp only
      cases u32 named.2 with
      | error error => rfl
      | ok sized =>
          dsimp only
          cases take sized.1.toNat sized.2 <;> rfl

theorem Attribute.passes_skip : skip.Passes read := by
  rw [skip_eq_discard_read]
  exact (agrees_refl read).discard

theorem Member.passes_skip : skip.Passes read := by
  apply Agrees.split 2 4
  apply passes_u16.bind
  intro _ access _
  apply Agrees.split 2 2
  apply passes_u16.bind
  intro _ name _
  apply passes_u16.bind
  intro _ descriptor _
  exact Attribute.passes_skip.counted16.discard.bind_pure fun _ _ _ => trivial

/-! ## Annotations of one attribute -/

namespace AnnotationEntry

/-- The bytes of `descriptor` spell the type of an annotation. -/
def IsOfType (pool : ConstantPool) (descriptor : String) (entry : AnnotationEntry) : Prop :=
  pool.utf8Bytes? entry.type = some (Bytes.ofText descriptor)

instance (pool : ConstantPool) (descriptor : String) : DecidablePred (IsOfType pool descriptor) :=
  fun entry =>
    inferInstanceAs (Decidable (pool.utf8Bytes? entry.type = some (Bytes.ofText descriptor)))

variable {pool : ConstantPool} {descriptor : String}

theorem anyOfType_eq_search (count : Nat) :
    anyOfType pool (Bytes.ofText descriptor) count =
      search read (fun entry _ => .ok (decide (entry.IsOfType pool descriptor))) count := by
  funext input
  induction count generalizing input with
  | zero => rfl
  | succ count ih =>
      rw [anyOfType, search]
      cases read input with
      | error error => rfl
      | ok pair =>
          by_cases isType : pair.1.IsOfType pool descriptor
          · have equal : pool.utf8Bytes? pair.1.type = some (Bytes.ofText descriptor) := isType
            simp [isType, equal]
          · have different : pool.utf8Bytes? pair.1.type ≠ some (Bytes.ofText descriptor) := isType
            simp [isType, different, ih]

theorem tableHasType_eq_false_iff {info rest : Bytes} :
    tableHasType pool (Bytes.ofText descriptor) info = .ok (false, rest) ↔
      ∃ entries, readTable info = .ok (entries, rest) ∧
        ∀ entry ∈ entries, ¬entry.IsOfType pool descriptor := by
  have clears : ∀ (entry : AnnotationEntry) (_ : Bytes),
      (.ok (decide (entry.IsOfType pool descriptor)) : Except ReadError Bool) = .ok false ↔
        ¬entry.IsOfType pool descriptor := by
    intro entry _
    rw [Except.ok.injEq, decide_eq_false_iff_not]
  simp only [tableHasType, readTable, counted16, bind_eq_ok_iff, anyOfType_eq_search,
    search_eq_false_iff clears]
  constructor
  · rintro ⟨count, between, counts, entries, collected, none⟩
    exact ⟨entries, ⟨count, between, counts, collected⟩, none⟩
  · rintro ⟨entries, ⟨count, between, counts, collected⟩, none⟩
    exact ⟨count, between, counts, entries, collected, none⟩

theorem tableHasType_of_readTable {info rest : Bytes} {entries : List AnnotationEntry}
    (succeeded : readTable info = .ok (entries, rest)) :
    ∃ found rest', tableHasType pool (Bytes.ofText descriptor) info = .ok (found, rest') ∧
      (found = true ↔ ∃ entry ∈ entries, entry.IsOfType pool descriptor) := by
  rcases bind_eq_ok_iff.1 succeeded with ⟨count, between, counts, collected⟩
  rw [tableHasType, bind_of_ok counts, anyOfType_eq_search]
  apply search_of_times collected
  intro entry _ rest
  exact ⟨_, rfl, decide_eq_true_iff⟩

end AnnotationEntry

/-! ## Class attributes -/

namespace Attribute

/-- An attribute is named as one that holds annotations of a class. -/
def IsAnnotationTable (pool : ConstantPool) (item : Attribute) : Prop :=
  item.isNamed pool AnnotationEntry.visibleTableName = true ∨
    item.isNamed pool AnnotationEntry.invisibleTableName = true

/-- The annotations an attribute holds. -/
def Lists (item : Attribute) (entries : List AnnotationEntry) : Prop :=
  ∃ rest, AnnotationEntry.readTable item.info = .ok (entries, rest)

variable {pool : ConstantPool} {descriptor : String} {item : Attribute}

theorem isNamed_iff {name : String} :
    item.isNamed pool name = true ↔ pool.utf8Bytes? item.name = some (Bytes.ofText name) := by
  rw [isNamed, beq_iff_eq]
  unfold ConstantPool.text? ConstantPool.utf8Bytes?
  split
  · rw [Bytes.toText?_eq_some_iff, Option.some.injEq]
  · simp

theorem holdsAnnotations_iff : item.holdsAnnotations pool = true ↔ item.IsAnnotationTable pool := by
  simp only [holdsAnnotations, IsAnnotationTable, isNamed_iff, Bool.or_eq_true, beq_iff_eq]

/-- Whether an attribute holds an annotation of a type; a failure is reported with
the input that follows the attribute. -/
def test (pool : ConstantPool) (descriptor : Bytes) (item : Attribute) (rest : Bytes) :
    Except ReadError Bool :=
  if item.holdsAnnotations pool then
    match AnnotationEntry.tableHasType pool descriptor item.info with
    | .error error => .error { error with rest }
    | .ok (found, _) => .ok found
  else .ok false

theorem test_eq_false_iff (item : Attribute) (rest : Bytes) :
    item.test pool (Bytes.ofText descriptor) rest = .ok false ↔
      (item.IsAnnotationTable pool → ∃ entries, item.Lists entries ∧
        ∀ entry ∈ entries, ¬entry.IsOfType pool descriptor) := by
  unfold test
  by_cases holds : item.holdsAnnotations pool = true
  · rw [if_pos holds, imp_iff_right (holdsAnnotations_iff.1 holds)]
    constructor
    · intro tested
      split at tested
      · cases tested
      · next searched =>
          cases tested
          rcases AnnotationEntry.tableHasType_eq_false_iff.1 searched with ⟨entries, lists, none⟩
          exact ⟨entries, ⟨_, lists⟩, none⟩
    · rintro ⟨entries, ⟨after, lists⟩, none⟩
      rw [AnnotationEntry.tableHasType_eq_false_iff.2 ⟨entries, lists, none⟩]
  · rw [if_neg holds]
    exact iff_of_true rfl fun isTable => absurd (holdsAnnotations_iff.2 isTable) holds

theorem exists_test (readable : item.IsAnnotationTable pool → ∃ entries, item.Lists entries)
    (rest : Bytes) :
    ∃ found, item.test pool (Bytes.ofText descriptor) rest = .ok found ∧
      (found = true ↔ item.IsAnnotationTable pool ∧ ∃ entries, item.Lists entries ∧
        ∃ entry ∈ entries, entry.IsOfType pool descriptor) := by
  unfold test
  by_cases holds : item.holdsAnnotations pool = true
  · have isTable := holdsAnnotations_iff.1 holds
    rcases readable isTable with ⟨entries, after, lists⟩
    rcases AnnotationEntry.tableHasType_of_readTable lists with ⟨found, after', searched, isFound⟩
    rw [if_pos holds, searched]
    refine ⟨found, rfl, isFound.trans ?_⟩
    constructor
    · intro isOfType
      exact ⟨isTable, entries, ⟨after, lists⟩, isOfType⟩
    · rintro ⟨_, entries', ⟨_, lists'⟩, isOfType⟩
      cases lists.symm.trans lists'
      exact isOfType
  · rw [if_neg holds]
    refine ⟨false, rfl, iff_of_false Bool.false_ne_true ?_⟩
    rintro ⟨isTable, _⟩
    exact holds (holdsAnnotations_iff.2 isTable)

end Attribute

/-! ## Classes -/

namespace ClassFile

/-- What is in front of the attributes of a class. -/
def readFront : Reader ClassFile := do
  Reader.magic magic
  let minorVersion ← u16
  let majorVersion ← u16
  let pool ← ConstantPool.read
  let access ← u16
  let thisClass ← u16
  let superClass ← u16
  let interfaces ← counted16 u16
  let fields ← counted16 Member.read
  let methods ← counted16 Member.read
  return {
    minorVersion, majorVersion, pool, access, thisClass, superClass, interfaces, fields, methods,
    attributes := [] }

theorem read_eq :
    read = readFront >>= fun front =>
      counted16 Attribute.read >>= fun attributes => pure { front with attributes } := by
  simp only [read, readFront, bind_assoc, pure_bind]

/-- Pass over what is in front of the attributes of a class, all but the pool. -/
def scanFront : Reader ConstantPool := do
  Reader.magic magic
  discard (take 4)
  let pool ← ConstantPool.read
  discard (take 6)
  let interfaces ← u16
  discard (take (2 * interfaces.toNat))
  discard (counted16 Member.skip)
  discard (counted16 Member.skip)
  return pool

theorem scanAnnotation_eq (descriptor : String) :
    scanAnnotation descriptor = scanFront >>= fun pool =>
      u16 >>= fun count => scanAttributes pool (Bytes.ofText descriptor) count.toNat := by
  simp only [scanFront, scanAnnotation, bind_assoc, pure_bind]

/-- Up to the attributes, both readers see the same of a class. -/
theorem scanFront_agrees : scanFront.Agrees (fun pool front => front.pool = pool) readFront := by
  apply agrees_bind
  intro _
  -- The versions.
  apply Agrees.split 2 2
  apply passes_u16.bind
  intro _ minorVersion _
  apply passes_u16.bind
  intro _ majorVersion _
  apply agrees_bind
  intro pool
  -- The flags, the class and its superclass.
  apply Agrees.split 2 4
  apply passes_u16.bind
  intro _ access _
  apply Agrees.split 2 2
  apply passes_u16.bind
  intro _ thisClass _
  apply passes_u16.bind
  intro _ superClass _
  apply Agrees.skip_counted16_u16
  intro interfaces
  apply Member.passes_skip.counted16.discard.bind
  intro _ fields _
  apply Member.passes_skip.counted16.discard.bind
  intro _ methods _
  exact agrees_pure rfl

theorem scanAttributes_eq_search (pool : ConstantPool) (descriptor : Bytes) (count : Nat) :
    scanAttributes pool descriptor count =
      search Attribute.read (Attribute.test pool descriptor) count := by
  funext input
  induction count generalizing input with
  | zero => rfl
  | succ count ih =>
      rw [scanAttributes, search]
      cases Attribute.read input with
      | error error => rfl
      | ok pair =>
          simp only [Attribute.test, ih]
          cases pair.1.holdsAnnotations pool with
          | false => rfl
          | true =>
              cases AnnotationEntry.tableHasType pool descriptor pair.1.info with
              | error error => rfl
              | ok result =>
                  rcases result with ⟨found, _⟩
                  cases found <;> rfl

/-- Reading a class is reading what is in front of its attributes, their number and
them. -/
theorem read_eq_ok_iff_front {input rest : Bytes} {classFile : ClassFile} :
    read input = .ok (classFile, rest) ↔
      ∃ front between count between' attributes,
        readFront input = .ok (front, between) ∧ u16 between = .ok (count, between') ∧
          times count.toNat Attribute.read between' = .ok (attributes, rest) ∧
          classFile = { front with attributes } := by
  simp only [read_eq, counted16, bind_eq_ok_iff]
  constructor
  · rintro ⟨front, between, opened, attributes, _, ⟨count, between', counts, collected⟩, ended⟩
    cases ended
    exact ⟨front, between, count, between', attributes, opened, counts, collected, rfl⟩
  · rintro ⟨front, between, count, between', attributes, opened, counts, collected, rfl⟩
    exact ⟨front, between, opened, attributes, rest, ⟨count, between', counts, collected⟩, rfl⟩

/-- A scan searches the attributes of a class after what is in front of them. -/
theorem scanAnnotation_eq_ok_iff {descriptor : String} {input rest : Bytes} {found : Bool} :
    scanAnnotation descriptor input = .ok (found, rest) ↔
      ∃ front between count between',
        readFront input = .ok (front, between) ∧ u16 between = .ok (count, between') ∧
          search Attribute.read (Attribute.test front.pool (Bytes.ofText descriptor)) count.toNat
            between' = .ok (found, rest) := by
  simp only [scanAnnotation_eq, scanAttributes_eq_search, bind_eq_ok_iff]
  constructor
  · rintro ⟨pool, between, opened, count, between', counts, searched⟩
    rcases scanFront_agrees.forth opened with ⟨front, opened', rfl⟩
    exact ⟨front, between, count, between', opened', counts, searched⟩
  · rintro ⟨front, between, count, between', opened, counts, searched⟩
    rcases scanFront_agrees.back opened with ⟨pool, opened', rfl⟩
    exact ⟨_, between, opened', count, between', counts, searched⟩

/-- A scan that finds nothing has read a class without such an annotation, and
leaves what the class reader leaves. Where the class and the attributes that hold
its annotations can be read, a scan finds exactly what is there. -/
theorem scanAnnotation_agrees (descriptor : String) (input : Bytes) :
    (∀ rest, scanAnnotation descriptor input = .ok (false, rest) ↔
      ∃ classFile, read input = .ok (classFile, rest) ∧
        ∀ item ∈ classFile.attributes, item.IsAnnotationTable classFile.pool →
          ∃ entries, item.Lists entries ∧
            ∀ entry ∈ entries, ¬entry.IsOfType classFile.pool descriptor) ∧
    ∀ classFile rest, read input = .ok (classFile, rest) →
      (∀ item ∈ classFile.attributes, item.IsAnnotationTable classFile.pool →
        ∃ entries, item.Lists entries) →
      ∃ found rest', scanAnnotation descriptor input = .ok (found, rest') ∧
        (found = true ↔ ∃ item ∈ classFile.attributes, item.IsAnnotationTable classFile.pool ∧
          ∃ entries, item.Lists entries ∧
            ∃ entry ∈ entries, entry.IsOfType classFile.pool descriptor) := by
  constructor
  · intro rest
    rw [scanAnnotation_eq_ok_iff]
    simp only [read_eq_ok_iff_front, search_eq_false_iff Attribute.test_eq_false_iff]
    constructor
    · rintro ⟨front, between, count, between', opened, counts, attributes, collected, clear⟩
      exact ⟨{ front with attributes },
        ⟨front, between, count, between', attributes, opened, counts, collected, rfl⟩, clear⟩
    · rintro ⟨_, ⟨front, between, count, between', attributes, opened, counts, collected, rfl⟩,
        clear⟩
      exact ⟨front, between, count, between', opened, counts, attributes, collected, clear⟩
  · intro classFile rest isRead readable
    rcases read_eq_ok_iff_front.1 isRead with
      ⟨front, between, count, between', attributes, opened, counts, collected, rfl⟩
    rcases search_of_times collected fun item isItem =>
        Attribute.exists_test (readable item isItem) with
      ⟨found, rest', searched, isFound⟩
    exact ⟨found, rest',
      scanAnnotation_eq_ok_iff.2 ⟨front, between, count, between', opened, counts, searched⟩,
      isFound⟩

/-- A class with an interface, a field and a method. The second annotation in its
second attribute marks it as value-capable. -/
def marked : ClassFile where
  minorVersion := 0
  majorVersion := 52
  pool := {
    size := 14
    entries := #[
      .utf8 (Bytes.ofText "V"), .classRef 1, .utf8 (Bytes.ofText "java/lang/Object"), .classRef 3,
      .utf8 (Bytes.ofText AnnotationEntry.visibleTableName),
      .utf8 (Bytes.ofText "Ljava/lang/Deprecated;"), .utf8 (Bytes.ofText capableMarker),
      .utf8 (Bytes.ofText "x"), .utf8 (Bytes.ofText "I"), .utf8 (Bytes.ofText "ConstantValue"),
      .integer 7, .utf8 (Bytes.ofText "get"), .utf8 (Bytes.ofText "()I")] }
  access := 0x0031
  thisClass := 2
  superClass := 4
  interfaces := [4]
  fields := [⟨0x0019, 8, 9, [⟨10, [0, 11]⟩]⟩]
  methods := [⟨0x0401, 12, 13, []⟩]
  attributes := [⟨10, [0, 11]⟩, ⟨5, [0, 2, 0, 6, 0, 0, 0, 7, 0, 0]⟩]

/-- The scan sees the marker of a marked class, and passes all of a class over that
lacks what it looks for. -/
theorem scanAnnotation_agrees_marked :
    (∃ rest, scanAnnotation capableMarker marked.toBytes = .ok (true, rest)) ∧
      scanAnnotation "LOther;" marked.toBytes = .ok (false, []) := by
  have isRead : read marked.toBytes = .ok (marked, []) := by decide +kernel
  have plain : ¬(⟨10, [0, 11]⟩ : Attribute).IsAnnotationTable marked.pool := by
    rw [← Attribute.holdsAnnotations_iff]
    decide +kernel
  have isTable :
      (⟨5, [0, 2, 0, 6, 0, 0, 0, 7, 0, 0]⟩ : Attribute).IsAnnotationTable marked.pool := by
    rw [← Attribute.holdsAnnotations_iff]
    decide +kernel
  have lists : (⟨5, [0, 2, 0, 6, 0, 0, 0, 7, 0, 0]⟩ : Attribute).Lists [.mk 6 [], .mk 7 []] :=
    ⟨[], rfl⟩
  constructor
  · rcases (scanAnnotation_agrees capableMarker marked.toBytes).2 marked [] isRead (by
        intro item isItem isTable'
        rcases List.mem_pair.1 isItem with rfl | rfl
        · exact absurd isTable' plain
        · exact ⟨_, lists⟩) with ⟨found, rest, scanned, isFound⟩
    have isMarked : found = true :=
      isFound.2 ⟨_, List.mem_of_getElem? (i := 1) rfl, isTable, _, lists, .mk 7 [],
        List.mem_of_getElem? (i := 1) rfl, by decide +kernel⟩
    exact ⟨rest, isMarked ▸ scanned⟩
  · apply ((scanAnnotation_agrees "LOther;" marked.toBytes).1 []).2
    refine ⟨marked, isRead, ?_⟩
    intro item isItem isTable'
    rcases List.mem_pair.1 isItem with rfl | rfl
    · exact absurd isTable' plain
    · exact ⟨_, lists, by decide +kernel⟩

end ClassFile

/-- A source that has one class, which is marked. -/
def ClassFinder.marking : ClassFinder
  | "V" => .found ClassFile.marked.toBytes
  | _ => .absent

end ValueForm
