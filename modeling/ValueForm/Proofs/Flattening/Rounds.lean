import ValueForm.Proofs.Flattening.Assembly
import ValueForm.Proofs.Flattening.Extent

/-!
# Rounds of widening

A segment has at most one branch, so a mark that a segment is widened is a mark of
its branch. A round keeps every mark and decides each branch that has none, in the
layout that the marks give. It fails as the first branch does that cannot be
decided.

`Emission.Settles` is the loop over rounds without a bound on their number: a round
that fails ends it, a round that marks nothing new ends it, and after any other
round it goes on with the new marks.
-/

namespace ValueForm

/-- A branch that is laid out anew, with its old address. -/
def Piece.branch? : Piece → Option (Instruction × Nat)
  | .fixed _ => none
  | .branch instruction source => some (instruction, source)

namespace Emission

/-- The branches of emitted code, with their old addresses. -/
def branches (emission : Emission) : List (Instruction × Nat) :=
  emission.segments.toList.flatten.filterMap Piece.branch?

/-- A segment with one branch, and what stands before and behind it. -/
def branching (before : List Instruction) (instruction : Instruction) (source : Nat)
    (after : List Instruction) : List Piece :=
  before.map .fixed ++ .branch instruction source :: after.map .fixed

/-- A segment determines its branch and what stands before it. -/
theorem branching_inj {before before' after after' : List Instruction}
    {instruction instruction' : Instruction} {source source' : Nat}
    (same : branching before instruction source after =
      branching before' instruction' source' after') :
    before = before' ∧ instruction = instruction' ∧ source = source' := by
  induction before generalizing before' with
  | nil =>
      cases before' with
      | nil =>
          injection same with isBranch _
          injection isBranch with isInstruction isSource
          exact ⟨rfl, isInstruction, isSource⟩
      | cons => injection same with impossible _; cases impossible
  | cons first rest ih =>
      cases before' with
      | nil => injection same with impossible _; cases impossible
      | cons first' rest' =>
          injection same with isFirst others
          injection isFirst with isFirst
          rcases ih others with ⟨rfl, sameBranch⟩
          exact ⟨congrArg (· :: rest) isFirst, sameBranch⟩

@[simp]
theorem branching_ne_fixed {before after instructions : List Instruction}
    {instruction : Instruction} {source : Nat} :
    branching before instruction source after ≠ instructions.map .fixed := by
  intro same
  have isPiece : Piece.branch instruction source ∈ instructions.map Piece.fixed :=
    same ▸ List.mem_append_right _ List.mem_cons_self
  rcases List.mem_map.1 isPiece with ⟨_, _, impossible⟩
  cases impossible

/-- A segment with at most one branch. -/
inductive OneBranch : List Piece → Prop
  | none (instructions : List Instruction) : OneBranch (instructions.map .fixed)
  | one (before : List Instruction) (instruction : Instruction) (source : Nat)
      (after : List Instruction) (isBranch : instruction.isBranch = true) :
      OneBranch (branching before instruction source after)

theorem OneBranch.isBranch {before after : List Instruction} {instruction : Instruction}
    {source : Nat} (shape : OneBranch (branching before instruction source after)) :
    instruction.isBranch = true := by
  generalize isPieces : branching before instruction source after = pieces at shape
  cases shape with
  | none => exact absurd isPieces branching_ne_fixed
  | one _ _ _ _ isBranch =>
      rcases branching_inj isPieces with ⟨_, rfl, _⟩
      exact isBranch

/-- Only an instruction of the body can be a branch of its segment. -/
theorem IsSegment.oneBranch {pool : ConstantPool} {registry : Registry} {index : Nat}
    {located : Located} {pieces : List Piece}
    (isSegment : IsSegment pool registry index located pieces) : OneBranch pieces := by
  cases isBranch : located.instruction.isBranch with
  | false =>
      rcases isSegment.of_plain isBranch with ⟨before, main, after, rfl, _⟩
      exact .none _
  | true =>
      rcases isSegment with ⟨before, main, after, rfl, _, emitted, _⟩
      have fixed (instruction : Instruction) :
          OneBranch (before.map .fixed ++ .fixed instruction :: after.map .fixed) := by
        have plain := OneBranch.none (before ++ instruction :: after)
        rwa [List.map_append, List.map_cons] at plain
      generalize (registry.plan index located.instruction).main = counterpart at emitted
      cases emitted with
      | kept =>
          rw [Piece.keep, if_pos isBranch]
          exact .one before _ located.address after isBranch
      | _ => exact fixed _

/-- Every segment that is emitted for a body has at most one branch. -/
theorem oneBranch_of_ofBody {body : MethodBody} {registry : Registry} {bench last : Workbench}
    {emission : Emission} (emitted : ofBody body registry bench = .ok emission last) :
    ∀ pieces ∈ emission.segments, OneBranch pieces := by
  intro pieces isSegment
  rcases ofBody_spec emitted (ConstantPool.Grows.refl _) with ⟨_, size, each⟩
  rcases Array.mem_iff_getElem?.1 isSegment with ⟨index, found⟩
  have inRange : index < body.instructions.size :=
    size ▸ (Array.getElem?_eq_some_iff.1 found).1
  rcases each index _ (Array.getElem?_eq_getElem inRange) with ⟨pieces', found', isSegment'⟩
  cases found.symm.trans found'
  exact isSegment'.oneBranch

/-! ## One segment -/

@[simp]
theorem segmentBranches_fixed (long : Bool) (start : Nat) (instructions : List Instruction) :
    segmentBranches long start (instructions.map .fixed) = [] := by
  induction instructions generalizing start with
  | nil => rfl
  | cons instruction rest ih => exact ih _

@[simp]
theorem segmentBranches_branching (long : Bool) (start : Nat) (before : List Instruction)
    (instruction : Instruction) (source : Nat) (after : List Instruction) :
    segmentBranches long start (branching before instruction source after) =
      [(instructionsEnd start before, instruction, source)] := by
  induction before generalizing start with
  | nil => exact congrArg (List.cons _) (segmentBranches_fixed _ _ after)
  | cons first rest ih => exact ih _

/-- What a round makes of the mark of a segment that starts at an address: a mark
stays, and where there is none the branch decides. -/
inductive Marks (relocation : Relocation) (start : Nat) : List Piece → Bool → Bool → Prop
  | kept {pieces : List Piece} : Marks relocation start pieces true true
  | plain {instructions : List Instruction} :
      Marks relocation start (instructions.map .fixed) false false
  | decided {before after : List Instruction} {instruction : Instruction} {source : Nat}
      {long : Bool}
      (decides : relocation.mustWiden (instructionsEnd start before) source instruction =
        .ok long) :
      Marks relocation start (branching before instruction source after) false long

/-- A branch that stands without a mark is decided. -/
theorem Marks.of_branching {relocation : Relocation} {start source : Nat}
    {before after : List Instruction} {instruction : Instruction} {old new : Bool}
    (marks : Marks relocation start (branching before instruction source after) old new) :
    (old = true ∧ new = true) ∨ (old = false ∧
      relocation.mustWiden (instructionsEnd start before) source instruction = .ok new) := by
  generalize isPieces : branching before instruction source after = pieces at marks
  cases marks with
  | kept => exact .inl ⟨rfl, rfl⟩
  | plain => exact absurd isPieces branching_ne_fixed
  | decided decides =>
      rcases branching_inj isPieces with ⟨rfl, rfl, rfl⟩
      exact .inr ⟨rfl, decides⟩

open Flatten

/-- What a round does to a segment: its mark changes as its branch decides, and no
other mark does. It fails as the branch does. -/
theorem widenSegment_cases {relocation : Relocation} {index start : Nat} {pieces : List Piece}
    {marks : Array Bool} {old : Bool} (shape : OneBranch pieces)
    (isStart : relocation.layout.starts[index]? = some start) (atIndex : marks[index]? = some old)
    (bench : Workbench) :
    (∃ next last new, widenSegment relocation index pieces marks bench = .ok next last ∧
      Marks relocation start pieces old new ∧ next[index]? = some new ∧
      next.size = marks.size ∧ ∀ other ≠ index, next[other]? = marks[other]?) ∨
    ∃ before instruction source after error,
      pieces = branching before instruction source after ∧
      relocation.mustWiden (instructionsEnd start before) source instruction = .error error ∧
      widenSegment relocation index pieces marks bench = .error error bench := by
  unfold widenSegment
  rw [atIndex, isStart, Option.getD_some, Option.getD_some]
  dsimp only
  cases old with
  | true => exact .inl ⟨marks, bench, true, rfl, .kept, atIndex, rfl, fun _ _ => rfl⟩
  | false =>
      cases shape with
      | none instructions =>
          rw [segmentBranches_fixed]
          exact .inl ⟨marks, bench, false, rfl, .plain, atIndex, rfl, fun _ _ => rfl⟩
      | one before instruction source after isBranch =>
          rw [segmentBranches_branching]
          simp only [Bool.false_eq_true, if_false, List.foldlM_cons, List.foldlM_nil]
          cases decides : relocation.mustWiden (instructionsEnd start before) source
            instruction with
          | error error =>
              exact .inr ⟨before, instruction, source, after, error, rfl, decides, rfl⟩
          | ok long =>
              cases long with
              | false =>
                  exact .inl ⟨marks, bench, false, rfl, .decided decides, atIndex, rfl,
                    fun _ _ => rfl⟩
              | true =>
                  have inRange := (Array.getElem?_eq_some_iff.1 atIndex).1
                  exact .inl ⟨marks.setIfInBounds index true, _, true, rfl, .decided decides,
                    Array.getElem?_setIfInBounds_self_of_lt inRange, Array.size_setIfInBounds,
                    fun other isOther => Array.getElem?_setIfInBounds_ne isOther.symm⟩

/-! ## One round -/

/-- A round over some of the segments, numbered from `first` on. -/
def widenFrom (relocation : Relocation) (first : Nat) (segments : List (List Piece))
    (marks : Array Bool) : Flatten (Array Bool) :=
  (segments.zipIdx first).foldlM
    (fun widened (pieces, index) => widenSegment relocation index pieces widened) marks

theorem widenFrom_cons (relocation : Relocation) (first : Nat) (pieces : List Piece)
    (rest : List (List Piece)) (marks : Array Bool) :
    widenFrom relocation first (pieces :: rest) marks =
      widenSegment relocation first pieces marks >>= widenFrom relocation (first + 1) rest := by
  rw [widenFrom, List.zipIdx_cons, List.foldlM_cons]
  rfl

/-- The marks of segments, numbered from `first` on, change as the segments decide. -/
def DecidedFrom (relocation : Relocation) (first : Nat) (segments : List (List Piece))
    (marks next : Array Bool) : Prop :=
  ∀ (index : Nat) (pieces : List Piece), segments[index]? = some pieces →
    ∃ start old new, relocation.layout.starts[first + index]? = some start ∧
      marks[first + index]? = some old ∧ next[first + index]? = some new ∧
      Marks relocation start pieces old new

/-- A branch of the segments, numbered from `first` on, cannot be decided. -/
def UndecidedFrom (relocation : Relocation) (first : Nat) (segments : List (List Piece))
    (error : FlattenError) : Prop :=
  ∃ index before instruction source after start,
    segments[index]? = some (branching before instruction source after) ∧
    relocation.layout.starts[first + index]? = some start ∧
    relocation.mustWiden (instructionsEnd start before) source instruction = .error error

theorem widenFrom_cases (relocation : Relocation) {segments : List (List Piece)}
    (shapes : ∀ pieces ∈ segments, OneBranch pieces) {first : Nat} {marks : Array Bool}
    (inStarts : first + segments.length ≤ relocation.layout.starts.size)
    (inMarks : first + segments.length ≤ marks.size) (bench : Workbench) :
    (∃ next last, widenFrom relocation first segments marks bench = .ok next last ∧
      next.size = marks.size ∧ (∀ other < first, next[other]? = marks[other]?) ∧
      DecidedFrom relocation first segments marks next) ∨
    ∃ error last, widenFrom relocation first segments marks bench = .error error last ∧
      UndecidedFrom relocation first segments error := by
  induction segments generalizing first marks bench with
  | nil =>
      refine .inl ⟨marks, bench, rfl, rfl, fun _ _ => rfl, ?_⟩
      intro index pieces found
      cases found
  | cons pieces rest ih =>
      rw [List.length_cons] at inStarts inMarks
      have isStart :=
        Array.getElem?_eq_getElem (show first < relocation.layout.starts.size by omega)
      have isOld := Array.getElem?_eq_getElem (show first < marks.size by omega)
      rw [widenFrom_cons]
      rcases widenSegment_cases (shapes pieces List.mem_cons_self) isStart isOld bench with
        ⟨between, after, new, ran, here, isNew, size, others⟩ |
        ⟨before, instruction, source, after, error, rfl, undecided, failed⟩
      · have inStarts' : first + 1 + rest.length ≤ relocation.layout.starts.size := by omega
        have inMarks' : first + 1 + rest.length ≤ between.size := by omega
        rw [bind_of_ok ran]
        rcases ih (List.forall_mem_cons.1 shapes).2 inStarts' inMarks' after with
          ⟨next, last, ended, size', earlier, each⟩ | ⟨error, last, failed, undecided⟩
        · refine .inl ⟨next, last, ended, size'.trans size, ?_, ?_⟩
          · intro other isBefore
            rw [earlier other (by omega), others other (by omega)]
          · intro index found isFound
            cases index with
            | zero =>
                cases isFound
                refine ⟨_, _, new, isStart, isOld, ?_, here⟩
                rw [Nat.add_zero, earlier first (by omega), isNew]
            | succ index =>
                rcases each index found isFound with ⟨start, old, new, atStart, atOld, rest⟩
                rw [others _ (by omega)] at atOld
                rw [Nat.add_right_comm, Nat.add_assoc] at atStart atOld rest
                exact ⟨start, old, new, atStart, atOld, rest⟩
        · rcases undecided with ⟨index, before, instruction, source, behind, start, found, atStart,
            undecided⟩
          rw [Nat.add_right_comm, Nat.add_assoc] at atStart
          exact .inr ⟨error, last, failed, index + 1, before, instruction, source, behind, start,
            found, atStart, undecided⟩
      · exact .inr ⟨error, bench, bind_of_error failed, 0, before, instruction, source, after, _,
          rfl, isStart, undecided⟩

/-- The code laid out with the segments of the given marks widened. -/
def placed (emission : Emission) (addresses : AddressMap) (oldLength : Nat)
    (marks : Array Bool) : Relocation :=
  ⟨addresses, oldLength, emission.place marks⟩

/-- The marks of the segments change as the segments decide. -/
def Decided (emission : Emission) (relocation : Relocation) (marks next : Array Bool) : Prop :=
  ∀ (index : Nat) (pieces : List Piece), emission.segments[index]? = some pieces →
    ∃ start old new, relocation.layout.starts[index]? = some start ∧
      marks[index]? = some old ∧ next[index]? = some new ∧
      Marks relocation start pieces old new

/-- A branch cannot be decided. -/
def Undecided (emission : Emission) (relocation : Relocation) (error : FlattenError) : Prop :=
  ∃ (index : Nat) (before : List Instruction) (instruction : Instruction) (source : Nat)
    (after : List Instruction) (start : Nat),
    emission.segments[index]? = some (branching before instruction source after) ∧
    relocation.layout.starts[index]? = some start ∧
    relocation.mustWiden (instructionsEnd start before) source instruction = .error error

/-- What a round does. -/
theorem widenRound_cases {emission : Emission}
    (shapes : ∀ pieces ∈ emission.segments, OneBranch pieces) (addresses : AddressMap)
    (oldLength : Nat) {marks : Array Bool} (size : marks.size = emission.segments.size)
    (bench : Workbench) :
    (∃ next last, emission.widenRound (emission.placed addresses oldLength marks) bench =
        .ok next last ∧
      next.size = emission.segments.size ∧
      emission.Decided (emission.placed addresses oldLength marks) marks next) ∨
    ∃ error last, emission.widenRound (emission.placed addresses oldLength marks) bench =
        .error error last ∧
      emission.Undecided (emission.placed addresses oldLength marks) error := by
  have sizeBounds := (emission.laidOut_place size).size
  rw [Layout.bounds, Array.size_push] at sizeBounds
  have inStarts : 0 + emission.segments.toList.length ≤ (emission.place marks).starts.size := by
    rw [Array.length_toList]
    omega
  have inMarks : 0 + emission.segments.toList.length ≤ marks.size := by
    rw [Array.length_toList]
    omega
  rcases widenFrom_cases (emission.placed addresses oldLength marks)
    (fun pieces isSegment => shapes pieces (Array.mem_toList_iff.1 isSegment)) inStarts inMarks
    bench with ⟨next, last, ran, size', _, decided⟩ | ⟨error, last, failed, undecided⟩
  · refine .inl ⟨next, last, ran, size'.trans size, ?_⟩
    simpa only [DecidedFrom, Decided, Nat.zero_add, Array.getElem?_toList] using decided
  · refine .inr ⟨error, last, failed, ?_⟩
    simpa only [UndecidedFrom, Undecided, Nat.zero_add, Array.getElem?_toList] using undecided

/-! ## All rounds -/

/-- The branches of a segment that can still be widened, given its mark. -/
def branchesLeft (pieces : List Piece) (mark : Bool) : Nat :=
  if mark then 0 else pieces.countP (·.branch?.isSome)

/-- The number of branches in segments without a mark. -/
def unwidened (emission : Emission) (marks : Array Bool) : Nat :=
  (emission.segments.toList.zipIdx.map fun segment =>
    branchesLeft segment.1 (marks[segment.2]?.getD false)).sum

theorem length_branches (emission : Emission) :
    emission.branches.length = (emission.segments.toList.map (branchesLeft · false)).sum := by
  rw [branches, List.length_filterMap_eq_countP, List.countP_flatten]
  rfl

/-- Before the first round no branch is widened. -/
@[simp]
theorem unwidened_replicate (emission : Emission) (count : Nat) :
    emission.unwidened (Array.replicate count false) = emission.branches.length := by
  have unmarked (index : Nat) : (Array.replicate count false)[index]?.getD false = false := by
    rw [Array.getElem?_replicate]
    split <;> rfl
  simp only [unwidened, unmarked]
  rw [length_branches, ← List.zipIdx_map_fst 0 emission.segments.toList, List.map_map,
    List.zipIdx_map_fst]
  rfl

@[simp]
theorem branchesLeft_fixed (instructions : List Instruction) :
    branchesLeft (instructions.map .fixed) false = 0 := by
  apply List.countP_eq_zero.2
  intro piece isPiece
  rcases List.mem_map.1 isPiece with ⟨instruction, _, rfl⟩
  exact Bool.false_ne_true

@[simp]
theorem branchesLeft_branching (before : List Instruction) (instruction : Instruction)
    (source : Nat) (after : List Instruction) :
    branchesLeft (branching before instruction source after) false = 1 := by
  have noneBefore := branchesLeft_fixed before
  have noneAfter := branchesLeft_fixed after
  simp only [branchesLeft, Bool.false_eq_true, if_false] at noneBefore noneAfter ⊢
  rw [branching, List.countP_append, List.countP_cons, noneBefore, noneAfter]
  rfl

/-- There are no more branches than segments. -/
theorem length_branches_le {emission : Emission}
    (shapes : ∀ pieces ∈ emission.segments, OneBranch pieces) :
    emission.branches.length ≤ emission.segments.size := by
  have most : ∀ count ∈ emission.segments.toList.map (branchesLeft · false), count ≤ 1 := by
    intro count isCount
    rcases List.mem_map.1 isCount with ⟨pieces, isSegment, rfl⟩
    cases shapes pieces (Array.mem_toList_iff.1 isSegment) with
    | none instructions => exact (branchesLeft_fixed instructions).trans_le (Nat.zero_le 1)
    | one before instruction source after => exact (branchesLeft_branching _ _ _ _).le
  have bounded := List.sum_le_card_nsmul _ 1 most
  rw [List.length_map, Array.length_toList, smul_eq_mul, Nat.mul_one] at bounded
  rwa [length_branches]

/-- A mark that changes is set, and its segment has a branch. -/
theorem Marks.branchesLeft_lt {relocation : Relocation} {start : Nat} {pieces : List Piece}
    {old new : Bool} (marks : Marks relocation start pieces old new) (changed : new ≠ old) :
    branchesLeft pieces new < branchesLeft pieces old := by
  cases marks with
  | kept | plain => exact absurd rfl changed
  | decided =>
      rw [Bool.ne_false_iff.1 changed, branchesLeft_branching]
      exact Nat.zero_lt_one

/-- A round that changes a mark leaves fewer branches without one. -/
theorem unwidened_lt {emission : Emission} {relocation : Relocation} {marks next : Array Bool}
    (decided : emission.Decided relocation marks next)
    (size : marks.size = emission.segments.size) (size' : next.size = emission.segments.size)
    (changed : next ≠ marks) : emission.unwidened next < emission.unwidened marks := by
  apply List.sum_lt_sum
  · rintro ⟨pieces, index⟩ isSegment
    have found := List.mem_zipIdx_iff_getElem?.1 isSegment
    rw [Array.getElem?_toList] at found
    rcases decided index pieces found with ⟨start, old, new, _, isOld, isNew, marked⟩
    dsimp only
    rw [isOld, isNew, Option.getD_some, Option.getD_some]
    by_cases same : new = old
    · rw [same]
    · exact (marked.branchesLeft_lt same).le
  · obtain ⟨index, differs⟩ : ∃ index : Nat, next[index]? ≠ marks[index]? := by
      by_contra same
      exact changed (Array.ext_getElem? fun index => not_not.1 (not_exists.1 same index))
    have inRange : index < emission.segments.size := by
      by_contra outside
      rw [Array.getElem?_eq_none (by omega), Array.getElem?_eq_none (by omega)] at differs
      exact differs rfl
    have found := Array.getElem?_eq_getElem inRange
    rcases decided index _ found with ⟨start, old, new, _, isOld, isNew, marked⟩
    rw [← Array.getElem?_toList] at found
    refine ⟨(_, index), List.mem_zipIdx_iff_getElem?.2 found, ?_⟩
    rw [isOld, isNew] at differs
    dsimp only
    rw [isOld, isNew, Option.getD_some, Option.getD_some]
    exact marked.branchesLeft_lt fun same => differs (congrArg some same)

/-- The loop over rounds as it is: a round that fails ends it, a round that marks
nothing new ends it, and after any other round it goes on with the new marks. It took
`rounds` rounds. -/
inductive Settles (emission : Emission) (addresses : AddressMap) (oldLength : Nat) :
    (rounds : Nat) → (marks : Array Bool) → Workbench →
    EStateM.Result FlattenError Workbench Relocation → Prop
  | failed {marks : Array Bool} {bench last : Workbench} {error : FlattenError}
      (round : emission.widenRound (emission.placed addresses oldLength marks) bench =
        .error error last) :
      Settles emission addresses oldLength 1 marks bench (.error error last)
  | stable {marks : Array Bool} {bench last : Workbench}
      (round : emission.widenRound (emission.placed addresses oldLength marks) bench =
        .ok marks last) :
      Settles emission addresses oldLength 1 marks bench
        (.ok (emission.placed addresses oldLength marks) last)
  | widened {rounds : Nat} {marks next : Array Bool} {bench between : Workbench}
      {outcome : EStateM.Result FlattenError Workbench Relocation}
      (round : emission.widenRound (emission.placed addresses oldLength marks) bench =
        .ok next between)
      (changed : next ≠ marks)
      (rest : Settles emission addresses oldLength rounds next between outcome) :
      Settles emission addresses oldLength (rounds + 1) marks bench outcome

theorem settle_succ (emission : Emission) (addresses : AddressMap) (oldLength bound : Nat)
    (marks : Array Bool) : emission.settle addresses oldLength (bound + 1) marks =
      emission.widenRound (emission.placed addresses oldLength marks) >>= fun next =>
        if next = marks then pure (emission.placed addresses oldLength marks)
        else emission.settle addresses oldLength bound next :=
  rfl

/-- The loop ends before its bound, since every round but the last widens a branch. -/
theorem exists_settles {emission : Emission}
    (shapes : ∀ pieces ∈ emission.segments, OneBranch pieces) (addresses : AddressMap)
    (oldLength : Nat) {bound : Nat} {marks : Array Bool}
    (size : marks.size = emission.segments.size) (enough : emission.unwidened marks < bound)
    (bench : Workbench) :
    ∃ rounds ≤ emission.unwidened marks + 1, emission.Settles addresses oldLength rounds marks
      bench (emission.settle addresses oldLength bound marks bench) := by
  induction bound generalizing marks bench with
  | zero => omega
  | succ bound ih =>
      rw [settle_succ]
      rcases widenRound_cases shapes addresses oldLength size bench with
        ⟨next, last, round, size', decided⟩ | ⟨error, last, round, _⟩
      · rw [bind_of_ok round]
        by_cases isStable : next = marks
        · subst isStable
          rw [if_pos rfl]
          exact ⟨1, by omega, .stable round⟩
        · have fewer := unwidened_lt decided size size' isStable
          rcases ih size' (by omega) last with ⟨rounds, few, ends⟩
          rw [if_neg isStable]
          exact ⟨rounds + 1, by omega, .widened round isStable ends⟩
      · rw [bind_of_error round]
        exact ⟨1, by omega, .failed round⟩

end Emission

end ValueForm
