import ValueForm.Proofs.Flattening.ControlFlow
import ValueForm.Proofs.Flattening.Failures
import ValueForm.Proofs.Flattening.Reach

/-!
# Layout converges

The marks of a layout under way are an invariant of its rounds: a marked branch has a
long form, and its targets are instructions of the body. When a round changes no mark,
the branches without one reach their targets in the very layout that the code is then
put together in, so nothing that was laid out fails to be put together. What is left of
a layout's failures is a branch that leads nowhere, and code that is too long.
-/

namespace ValueForm

namespace Relocation

variable {relocation : Relocation}

theorem moveSegment_fixed_append (long : Bool) (address : Nat) (done : List (List Instruction))
    (instructions : List Instruction) (rest : List Piece) :
    relocation.moveSegment long address done (instructions.map .fixed ++ rest) =
      relocation.moveSegment long (Emission.instructionsEnd address instructions)
        ((instructions.map ([·])).reverse ++ done) rest := by
  induction instructions generalizing address done with
  | nil => rfl
  | cons instruction others ih =>
      rw [List.map_cons, List.cons_append, moveSegment]
      refine (ih _ _).trans ?_
      rw [List.map_cons, List.reverse_cons, List.append_assoc]
      rfl

/-- A segment whose branch moves is put together around it. -/
theorem moveSegment_branching {long : Bool} {start source : Nat} {instruction : Instruction}
    {before after form : List Instruction}
    (moved : relocation.moveBranch long (Emission.instructionsEnd start before) source instruction =
      .ok form) :
    relocation.moveSegment long start [] (Emission.branching before instruction source after) =
      .ok (before ++ form ++ after) := by
  rw [Emission.branching, moveSegment_fixed_append, moveSegment, moved]
  refine (moveSegment_fixed _ _ _ after).trans ?_
  simp [← List.flatMap_def]

end Relocation

namespace Emission

@[simp]
theorem segmentEnd_branching (long : Bool) (start : Nat) (before : List Instruction)
    (instruction : Instruction) (source : Nat) (after : List Instruction) :
    segmentEnd long start (branching before instruction source after) =
      instructionsEnd (instructionsEnd start before +
        (Piece.branch instruction source).size long (instructionsEnd start before)) after := by
  rw [branching, segmentEnd_append, segmentEnd_fixed]
  exact segmentEnd_fixed long _ after

@[simp]
theorem le_instructionsEnd (start : Nat) (instructions : List Instruction) :
    start ≤ instructionsEnd start instructions := by
  rw [← segmentEnd_fixed false]
  exact le_segmentEnd false start _

variable {body : MethodBody} {emission : Emission}

/-- Code that cannot grow to 2³¹ bytes stays below them whatever is widened. -/
theorem compact_placed (count : emission.segments.size = body.instructions.size)
    (bounded : emission.widestStop < 2 ^ 31) {marks : Array Bool}
    (size : marks.size = emission.segments.size) :
    emission.Compact body (emission.placed body.addresses body.code.code.length marks) where
  relocates := ⟨rfl, rfl, emission.laidOut_place size⟩
  count := count
  small := fun _ _ found => (emission.bounds_place_le size found).trans_lt bounded

/-- The branch of a segment ends below 2³¹ too. -/
theorem Compact.branch_end_lt {relocation : Relocation} (compact : emission.Compact body relocation)
    {index start : Nat} {before after : List Instruction} {instruction : Instruction}
    {source : Nat} {long : Bool}
    (found : emission.segments[index]? = some (branching before instruction source after))
    (isStart : relocation.layout.starts[index]? = some start)
    (isLong : relocation.layout.widened[index]? = some long) :
    instructionsEnd start before +
      (Piece.branch instruction source).size long (instructionsEnd start before) < 2 ^ 31 := by
  rcases compact.relocates.laidOut.next index _ found with
    ⟨start', long', isStart', isLong', isStop⟩
  cases isLong.symm.trans isLong'
  cases (Layout.getElem?_bounds isStart).symm.trans isStart'
  have small := compact.small _ _ isStop
  rw [segmentEnd_branching] at small
  exact (le_instructionsEnd _ after).trans_lt small

/-- The branches of marked segments have long forms, and their targets are
instructions. -/
def Widenable (emission : Emission) (body : MethodBody) (marks : Array Bool) : Prop :=
  ∀ (index : Nat) (before : List Instruction) (instruction : Instruction) (source : Nat)
    (after : List Instruction),
    emission.segments[index]? = some (branching before instruction source after) →
    marks[index]? = some true → instruction.widenedSize?.isSome = true ∧
      ∀ offset ∈ instruction.branchOffsets, body.Holds (source + offset.toInt)

/-- The error names a branch that leads to no instruction of the body. -/
def Misses (emission : Emission) (body : MethodBody) (error : FlattenError) : Prop :=
  ∃ instruction source, (instruction, source) ∈ emission.branches ∧
    ∃ offset ∈ instruction.branchOffsets,
      error = .invalidTarget source (source + offset.toInt) ∧
      ¬ body.Holds (source + offset.toInt)

theorem mem_branches {index source : Nat} {before after : List Instruction}
    {instruction : Instruction}
    (found : emission.segments[index]? = some (branching before instruction source after)) :
    (instruction, source) ∈ emission.branches := by
  have isSegment := Array.mem_toList_iff.2 (Array.mem_of_getElem? found)
  refine List.mem_filterMap.2 ⟨.branch instruction source, ?_, rfl⟩
  exact List.mem_flatten.2 ⟨_, isSegment, List.mem_append_right _ List.mem_cons_self⟩

/-- A decision that was made is about an instruction of the body. -/
theorem widenable_of_decided (shapes : ∀ pieces ∈ emission.segments, OneBranch pieces)
    {relocation : Relocation} (compact : emission.Compact body relocation)
    {next : Array Bool} (widenable : emission.Widenable body relocation.layout.widened)
    (decided : emission.Decided relocation relocation.layout.widened next) :
    emission.Widenable body next := by
  intro index before instruction source after found isMarked
  rcases decided index _ found with ⟨start, old, new, isStart, isOld, isNew, marks⟩
  cases isNew.symm.trans isMarked
  rcases marks.of_branching with ⟨rfl, _⟩ | ⟨rfl, decides⟩
  · exact widenable index before instruction source after found isOld
  · have here := compact.branch_end_lt found isStart isOld
    have isBranch := (shapes _ (Array.mem_of_getElem? found)).isBranch
    rcases Relocation.mustWiden_cases compact ((Nat.le_add_right _ _).trans_lt here) source
      isBranch with ⟨long, decides', follows⟩ | ⟨offset, _, _, failed⟩
    · cases decides.symm.trans decides'
      exact follows rfl
    · cases decides.symm.trans failed

/-- A branch cannot be decided if it leads to no instruction of the body. -/
theorem misses_of_undecided (shapes : ∀ pieces ∈ emission.segments, OneBranch pieces)
    {relocation : Relocation} (compact : emission.Compact body relocation)
    {error : FlattenError} (undecided : emission.Undecided relocation error) :
    emission.Misses body error := by
  rcases undecided with ⟨index, before, instruction, source, after, start, found, isStart, failed⟩
  rcases compact.relocates.laidOut.next index _ found with ⟨_, long, _, isLong, _⟩
  have here := compact.branch_end_lt found isStart isLong
  have isBranch := (shapes _ (Array.mem_of_getElem? found)).isBranch
  rcases Relocation.mustWiden_cases compact ((Nat.le_add_right _ _).trans_lt here) source
    isBranch with ⟨long, decides, _⟩ | ⟨offset, isOffset, missing, failed'⟩
  · cases failed.symm.trans decides
  · cases failed.symm.trans failed'
    exact ⟨instruction, source, mem_branches found, offset, isOffset, rfl, missing⟩

/-- What the loop over rounds ends with: a branch that leads nowhere, or a layout in
which every branch without a mark reaches its targets. -/
theorem Settles.outcome_cases (shapes : ∀ pieces ∈ emission.segments, OneBranch pieces)
    (count : emission.segments.size = body.instructions.size)
    (bounded : emission.widestStop < 2 ^ 31) {rounds : Nat} {marks : Array Bool}
    {bench : Workbench} {outcome : EStateM.Result FlattenError Workbench Relocation}
    (settles : emission.Settles body.addresses body.code.code.length rounds marks bench outcome)
    (size : marks.size = emission.segments.size) (widenable : emission.Widenable body marks) :
    (∃ error last, outcome = .error error last ∧ emission.Misses body error) ∨
    ∃ final last, outcome =
        .ok (emission.placed body.addresses body.code.code.length final) last ∧
      final.size = emission.segments.size ∧ emission.Widenable body final ∧
      emission.Decided (emission.placed body.addresses body.code.code.length final) final
        final := by
  induction settles with
  | failed round =>
      rename_i marks bench last error
      have compact := compact_placed count bounded size
      rcases widenRound_cases shapes _ _ size bench with
        ⟨_, _, round', _⟩ | ⟨_, _, round', undecided⟩
      · cases round.symm.trans round'
      · cases round.symm.trans round'
        exact .inl ⟨error, last, rfl, misses_of_undecided shapes compact undecided⟩
  | stable round =>
      rename_i marks bench last
      rcases widenRound_cases shapes _ _ size bench with
        ⟨_, _, round', _, decided⟩ | ⟨_, _, round', _⟩
      · cases round.symm.trans round'
        exact .inr ⟨marks, last, rfl, size, widenable, decided⟩
      · cases round.symm.trans round'
  | widened round changed rest ih =>
      rename_i rounds marks next bench between outcome
      have compact := compact_placed count bounded size
      rcases widenRound_cases shapes _ _ size bench with
        ⟨_, _, round', size', decided⟩ | ⟨_, _, round', _⟩
      · cases round.symm.trans round'
        exact ih size' (widenable_of_decided shapes compact widenable decided)
      · cases round.symm.trans round'

/-! ## Putting code together -/

/-- A segment whose branch moves has the length that the layout gives it. -/
theorem moveSegment_of_moveBranch {relocation : Relocation} {long : Bool} {start source : Nat}
    {instruction : Instruction} {before form : List Instruction}
    (isBranch : instruction.isBranch = true)
    (moved : relocation.moveBranch long (instructionsEnd start before) source instruction =
      .ok form) (after : List Instruction) :
    ∃ whole, relocation.moveSegment long start [] (branching before instruction source after) =
        .ok whole ∧
      instructionsEnd start whole =
        segmentEnd long start (branching before instruction source after) := by
  rcases Relocation.moveBranch_spec isBranch moved with ⟨targets, _, redirected⟩
  refine ⟨_, Relocation.moveSegment_branching moved, ?_⟩
  rw [instructionsEnd_append, instructionsEnd_append, redirected.instructionsEnd_eq,
    segmentEnd_branching]

/-- When a round changes no mark, every segment can be put together. -/
theorem exists_moveSegment (shapes : ∀ pieces ∈ emission.segments, OneBranch pieces)
    {relocation : Relocation} (compact : emission.Compact body relocation)
    (widenable : emission.Widenable body relocation.layout.widened)
    (stable : emission.Decided relocation relocation.layout.widened relocation.layout.widened)
    {index : Nat} {pieces : List Piece} (found : emission.segments[index]? = some pieces) :
    ∃ start long form, relocation.layout.starts[index]? = some start ∧
      relocation.layout.widened[index]? = some long ∧
      relocation.moveSegment long start [] pieces = .ok form ∧
      instructionsEnd start form = segmentEnd long start pieces := by
  rcases stable index pieces found with ⟨start, old, new, isStart, isOld, isNew, marks⟩
  cases isOld.symm.trans isNew
  cases shapes pieces (Array.mem_of_getElem? found) with
  | none instructions =>
      exact ⟨start, old, instructions, isStart, isOld, Relocation.moveSegment_fixed _ _ _ _,
        (segmentEnd_fixed _ _ _).symm⟩
  | one before instruction source after isBranch =>
      have moves : ∃ form, relocation.moveBranch old (instructionsEnd start before) source
          instruction = .ok form := by
        rcases marks.of_branching with ⟨rfl, _⟩ | ⟨rfl, decides⟩
        · rcases widenable index before instruction source after found isOld with ⟨isLong, holds⟩
          have ends := compact.branch_end_lt found isStart isOld
          have room := instruction.three_le_widenedSize? isLong
          rw [Piece.size, if_pos rfl] at ends
          exact Relocation.exists_moveBranch_of_long compact isBranch (by omega) isLong holds
        · exact Relocation.exists_moveBranch_of_decided decides
      rcases moves with ⟨form, moved⟩
      rcases moveSegment_of_moveBranch isBranch moved after with ⟨whole, isWhole, ends⟩
      exact ⟨start, old, whole, isStart, isOld, isWhole, ends⟩

/-- Segments that can be put together make up code as long as its layout. -/
theorem exists_assemble {relocation : Relocation} (laidOut : emission.LaidOut relocation.layout)
    (each : ∀ (index : Nat) (pieces : List Piece), emission.segments[index]? = some pieces →
      ∃ start long form, relocation.layout.starts[index]? = some start ∧
        relocation.layout.widened[index]? = some long ∧
        relocation.moveSegment long start [] pieces = .ok form ∧
        instructionsEnd start form = segmentEnd long start pieces) :
    ∃ instructions, emission.assemble relocation = .ok instructions ∧
      (Code.encode instructions).length = relocation.layout.stop := by
  have moves : ∃ forms, emission.segments.toList.zipIdx.mapM (fun segment =>
      relocation.moveSegment (relocation.layout.widened[segment.2]?.getD false)
        (relocation.layout.starts[segment.2]?.getD 0) [] segment.1) = .ok forms := by
    apply Outcome.exists_mapM
    rintro ⟨pieces, index⟩ isSegment
    have found := List.mem_zipIdx_iff_getElem?.1 isSegment
    rw [Array.getElem?_toList] at found
    rcases each index pieces found with ⟨start, long, form, isStart, isLong, moved, _⟩
    dsimp only
    rw [isStart, isLong]
    exact ⟨form, moved⟩
  rcases moves with ⟨forms, moved⟩
  refine ⟨emission.prologue ++ forms.flatten, ?_, ?_⟩
  · exact Outcome.bind_eq_ok_iff.2 ⟨forms, moved, rfl⟩
  have related := Outcome.forall₂_of_mapM moved
  have next : ∀ (index : Nat) (form : List Instruction), forms[index]? = some form →
      ∃ address, relocation.layout.bounds.toList[index]? = some address ∧
        relocation.layout.bounds.toList[index + 1]? = some (instructionsEnd address form) := by
    intro index form isForm
    rcases Outcome.getElem?_of_forall₂ related.flip isForm with ⟨⟨pieces, _⟩, isSegment, moves⟩
    rw [List.getElem?_zipIdx, Option.map_eq_some_iff] at isSegment
    rcases isSegment with ⟨_, found, isPair⟩
    rw [Nat.zero_add] at isPair
    cases isPair
    rw [Array.getElem?_toList] at found
    rcases each index pieces found with ⟨start, long, form', isStart, isLong, moves', ends⟩
    rcases laidOut.next index pieces found with ⟨start', long', isStart', isLong', isStop⟩
    cases isLong.symm.trans isLong'
    cases (Layout.getElem?_bounds isStart).symm.trans isStart'
    dsimp only [flip] at moves
    rw [isStart, isLong] at moves
    cases moves.symm.trans moves'
    rw [← ends] at isStop
    rw [Array.getElem?_toList, Array.getElem?_toList]
    exact ⟨start, isStart', isStop⟩
  have first := laidOut.first
  rw [← Array.getElem?_toList] at first
  have atEnd := (Code.locate_flatten first next).2
  have sizeBounds := laidOut.size
  rw [Layout.bounds, Array.size_push] at sizeBounds
  have length : forms.length = relocation.layout.starts.size := by
    rw [← related.length_eq, List.length_zipIdx, Array.length_toList]
    omega
  rw [length, Array.getElem?_toList, Layout.bounds, Array.getElem?_push_size] at atEnd
  rw [Code.length_encode, instructionsEnd_append, ← Option.some.inj atEnd]

open Flatten

/-- What the layout of a body ends with: a branch that leads nowhere, code that is too
long, or a layout whose code can be put together. -/
theorem layOut_cases {registry : Registry} {bench between : Workbench}
    (emitted : ofBody body registry bench = .ok emission between)
    (bounded : emission.widestStop < 2 ^ 31) :
    ∃ rounds outcome, rounds ≤ emission.branches.length + 1 ∧
      emission.Settles body.addresses body.code.code.length rounds
        (Array.replicate emission.segments.size false) between outcome ∧
      emission.settle body.addresses body.code.code.length (emission.segments.size + 1)
        (Array.replicate emission.segments.size false) between = outcome ∧
      ((∃ error last, outcome = .error error last ∧ emission.Misses body error ∧
        emission.layOut body.addresses body.code.code.length between = .error error last) ∨
      ∃ relocation last instructions, outcome = .ok relocation last ∧
        emission.assemble relocation = .ok instructions ∧
        (Code.encode instructions).length = relocation.layout.stop ∧
        emission.layOut body.addresses body.code.code.length between =
          if 65535 < relocation.layout.stop then
            .error (.codeTooLarge relocation.layout.stop) last
          else .ok relocation last) := by
  have shapes := oneBranch_of_ofBody emitted
  have count := (ofBody_spec emitted (ConstantPool.Grows.refl _)).2.1
  have size : (Array.replicate emission.segments.size false).size = emission.segments.size :=
    Array.size_replicate
  have few := length_branches_le shapes
  have unmarked := emission.unwidened_replicate emission.segments.size
  have widenable : emission.Widenable body (Array.replicate emission.segments.size false) := by
    intro index _ _ _ _ _ isMarked
    rw [Array.getElem?_replicate] at isMarked
    split at isMarked
    · cases isMarked
    · cases isMarked
  rcases exists_settles shapes body.addresses body.code.code.length size
    (show _ < emission.segments.size + 1 by omega) between with ⟨rounds, soon, settles⟩
  refine ⟨rounds, _, by omega, settles, rfl, ?_⟩
  rcases settles.outcome_cases shapes count bounded size widenable with
    ⟨error, last, ended, misses⟩ | ⟨final, last, ended, sizeFinal, widenableFinal, stable⟩
  · refine .inl ⟨error, last, ended, misses, ?_⟩
    rw [layOut, bind_of_error ended]
  · have compact := compact_placed count bounded sizeFinal
    rcases exists_assemble compact.relocates.laidOut
      (fun index pieces => exists_moveSegment shapes compact widenableFinal stable) with
      ⟨instructions, assembled, length⟩
    refine .inr ⟨_, last, instructions, ended, assembled, length, ?_⟩
    rw [layOut, bind_of_ok ended]
    split
    · rfl
    · rfl

end Emission

namespace MethodBody

open Flatten

/-- Why a body cannot be flattened: a field does not resolve, a branch leads nowhere, the
code is too long, or a table cannot be carried over. -/
theorem flatten_error_cases {body : MethodBody} {analysis : AnalysisResult} {thisClass : UInt16}
    {bench last : Workbench} {error : FlattenError}
    (bounded : ∀ emission between, Emission.ofBody body analysis.registry bench =
      .ok emission between → emission.widestStop < 2 ^ 31)
    (failed : body.flatten thisClass analysis bench = .error error last) :
    error.IsUnresolved ∨ (∃ emission : Emission, emission.Misses body error) ∨
      (∃ length, error = .codeTooLarge length) ∨ error.OfTables := by
  unfold flatten at failed
  cases emitted : Emission.ofBody body analysis.registry bench with
  | error error' between =>
      rw [bind_of_error emitted] at failed
      cases failed
      exact .inl (Emission.failsOnly_ofBody _ _ _ _ _ emitted)
  | ok emission between =>
      rw [bind_of_ok emitted] at failed
      rcases Emission.layOut_cases emitted (bounded _ _ emitted) with
        ⟨_, _, _, _, _, ⟨_, _, _, misses, laidOut⟩ |
          ⟨relocation, after, instructions, _, assembled, _, laidOut⟩⟩
      · rw [bind_of_error laidOut] at failed
        cases failed
        exact .inr (.inl ⟨emission, misses⟩)
      · split at laidOut
        · rw [bind_of_error laidOut] at failed
          cases failed
          exact .inr (.inr (.inl ⟨_, rfl⟩))
        · rw [bind_of_ok laidOut] at failed
          have assembles : FailsOnly (Flatten.ofExcept (emission.assemble relocation))
              FlattenError.OfTables := by
            rw [assembled]
            exact failsOnly_pure instructions
          have exceptions : FailsOnly (Flatten.ofExcept (body.code.exceptions.mapM
              relocation.moveException)) FlattenError.OfTables :=
            failsOnly_ofExcept fun _ =>
              Relocation.ofTables_of_mapM fun _ => Relocation.ofTables_of_moveException
          refine .inr (.inr (.inr ?_))
          refine failsOnly_bind assembles (fun _ => ?_) _ _ _ failed
          refine failsOnly_bind exceptions fun _ => ?_
          exact failsOnly_bind (failsOnly_mapM (FlattenedCode.failsOnly_carryAttribute _) _)
            fun _ => failsOnly_pure _

/-- Layout converges. As long as the emitted code cannot grow to 2³¹ bytes, the loop over
rounds ends after at most one round more than there are branches. It fails only for a
branch that leads to no instruction of the body. Otherwise the code can be put together,
is as long as the layout says and is refused only if that is more than 65535 bytes. No
branch is ever out of range. -/
theorem flatten_layout_converges (body : MethodBody) (analysis : AnalysisResult)
    (thisClass : UInt16) (bench : Workbench)
    (bounded : ∀ emission between, Emission.ofBody body analysis.registry bench =
      .ok emission between → emission.widestStop < 2 ^ 31) :
    (∀ address last, body.flatten thisClass analysis bench ≠
      .error (.branchOutOfRange address) last) ∧
    ∀ emission between, Emission.ofBody body analysis.registry bench = .ok emission between →
      ∃ rounds outcome, rounds ≤ emission.branches.length + 1 ∧
        emission.Settles body.addresses body.code.code.length rounds
          (Array.replicate emission.segments.size false) between outcome ∧
        emission.settle body.addresses body.code.code.length (emission.segments.size + 1)
          (Array.replicate emission.segments.size false) between = outcome ∧
        ((∃ error last, outcome = .error error last ∧ emission.Misses body error ∧
          body.flatten thisClass analysis bench = .error error last) ∨
        ∃ relocation last instructions, outcome = .ok relocation last ∧
          emission.assemble relocation = .ok instructions ∧
          (Code.encode instructions).length = relocation.layout.stop ∧
          if 65535 < relocation.layout.stop then
            body.flatten thisClass analysis bench =
              .error (.codeTooLarge relocation.layout.stop) last
          else
            emission.layOut body.addresses body.code.code.length between =
              .ok relocation last) := by
  constructor
  · intro address last failed
    rcases flatten_error_cases bounded failed with
      ⟨_, _, impossible⟩ | ⟨_, _, _, _, _, _, impossible, _⟩ | ⟨_, impossible⟩ | impossible
    · cases impossible
    · cases impossible
    · cases impossible
    · cases impossible
  · intro emission between emitted
    have unfolded {error : FlattenError} {last : Workbench}
        (failed : emission.layOut body.addresses body.code.code.length between =
          .error error last) : body.flatten thisClass analysis bench = .error error last := by
      rw [flatten, bind_of_ok emitted, bind_of_error failed]
    rcases Emission.layOut_cases emitted (bounded _ _ emitted) with
      ⟨rounds, outcome, soon, settles, isOutcome, ⟨error, last, ended, misses, failed⟩ |
        ⟨relocation, last, instructions, ended, assembled, length, laidOut⟩⟩
    · exact ⟨rounds, outcome, soon, settles, isOutcome,
        .inl ⟨error, last, ended, misses, unfolded failed⟩⟩
    · refine ⟨rounds, outcome, soon, settles, isOutcome,
        .inr ⟨relocation, last, instructions, ended, assembled, length, ?_⟩⟩
      split at laidOut
      · next tooLong =>
          rw [if_pos tooLong]
          exact unfolded laidOut
      · next fits =>
          rw [if_neg fits]
          exact laidOut

/-- A conditional branch that just reaches over a switch and a load. -/
def leap : MethodBody where
  isStatic := true
  descriptor := "(LV;)V"
  code := {
    maxStack := 1
    maxLocals := 1
    code := Code.encode [.branch .eq 32766,
      .lookupSwitch 32763 ((List.range 4094).map fun key => (.ofNat key, 32763)),
      .load .reference (.narrow 0), .leave .void]
    exceptions := []
    attributes := [] }
  instructions := #[⟨0, .branch .eq 32766⟩,
    ⟨3, .lookupSwitch 32763 ((List.range 4094).map fun key => (.ofNat key, 32763))⟩,
    ⟨32764, .load .reference (.narrow 0)⟩, ⟨32766, .leave .void⟩]

/-- What is loaded in `leap` is to be unboxed. -/
def leapUnboxed : AnalysisResult where
  registry := {
    patches := (∅ : Std.TreeMap Site Patch).insert (.instruction 2)
      ⟨.keep, .object, "V", false⟩ }
  frames := #[]

theorem length_code_leap : leap.code.code.length = 32767 := by
  rw [leap, Code.length_encode]
  decide +kernel

/-- The unboxing moves the target of the branch in `leap` out of its reach. -/
theorem exists_emission_leap : ∃ emission between,
    Emission.ofBody leap leapUnboxed.registry { pool := {} } = .ok emission between ∧
      emission.widestStop < 2 ^ 31 ∧ emission.branches.length = 2 ∧
      (emission.placed leap.addresses leap.code.code.length
        (Array.replicate emission.segments.size false)).mustWiden 0 0 (.branch .eq 32766) =
        .ok true := by
  rw [length_code_leap]
  have emits : (Flatten.attempt (Emission.ofBody leap leapUnboxed.registry)
      { pool := {} }).toOption.any (fun outcome =>
        decide (outcome.1.widestStop < 2 ^ 31 ∧ outcome.1.branches.length = 2) &&
        ((outcome.1.placed leap.addresses 32767
          (Array.replicate outcome.1.segments.size false)).mustWiden 0 0
          (.branch .eq 32766)).toOption.any id) = true := by
    decide +kernel
  rcases Outcome.exists_of_any _ emits with ⟨⟨emission, between⟩, emitted, checked⟩
  rw [Bool.and_eq_true, decide_eq_true_eq] at checked
  rcases checked with ⟨⟨bounded, count⟩, decided⟩
  rcases Outcome.exists_of_any _ decided with ⟨_, decides, rfl⟩
  exact ⟨emission, between, Flatten.attempt_eq_ok_iff.1 emitted, bounded, count, decides⟩

/-- The layout of `leap` converges although its branch has to be widened. -/
theorem flatten_layout_converges_leap : ∃ emission between rounds outcome,
    Emission.ofBody leap leapUnboxed.registry { pool := {} } = .ok emission between ∧
      emission.widestStop < 2 ^ 31 ∧
      (emission.placed leap.addresses leap.code.code.length
        (Array.replicate emission.segments.size false)).mustWiden 0 0 (.branch .eq 32766) =
        .ok true ∧
      rounds ≤ 3 ∧
      emission.Settles leap.addresses leap.code.code.length rounds
        (Array.replicate emission.segments.size false) between outcome ∧
      ∀ address last, leap.flatten 2 leapUnboxed { pool := {} } ≠
        .error (.branchOutOfRange address) last := by
  rcases exists_emission_leap with ⟨emission, between, emitted, bounded, count, decides⟩
  have all : ∀ emission between, Emission.ofBody leap leapUnboxed.registry { pool := {} } =
      .ok emission between → emission.widestStop < 2 ^ 31 := by
    intro emission' between' emitted'
    cases emitted.symm.trans emitted'
    exact bounded
  have ⟨inReach, converges⟩ := flatten_layout_converges leap leapUnboxed 2 { pool := {} } all
  rcases converges emission between emitted with ⟨rounds, outcome, soon, settles, _⟩
  rw [count] at soon
  exact ⟨emission, between, rounds, outcome, emitted, bounded, decides, soon, settles, inReach⟩

end MethodBody

end ValueForm
