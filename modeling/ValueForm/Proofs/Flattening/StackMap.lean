import ValueForm.Proofs.Flattening.ControlFlow
import ValueForm.Proofs.Flattening.FrameMap
import ValueForm.Proofs.Instruction.Padding

/-!
# Stack maps of flattened bodies

The stack map table of a flattened body stands for the frames of the body before,
each at the segment of its instruction, and for the frames that widening made
necessary. So where jumps and handlers led to frames they still do.
-/

namespace ValueForm

open Flatten

namespace Emission

theorem lt_instructionsEnd {start : Nat} {form : List Instruction} (isThere : form ≠ []) :
    start < instructionsEnd start form := by
  cases form with
  | nil => exact absurd rfl isThere
  | cons instruction rest =>
      rw [← Code.length_encodeFrom, Code.encodeFrom_cons, List.length_append,
        Instruction.length_toBytes]
      have isPositive := instruction.size_pos start
      omega

/-- Only the segment of a conditional branch has one. -/
theorem any_conditional_iff {pool later : ConstantPool} {registry : Registry} {index : Nat}
    {located : Located} {pieces : List Piece}
    (isSegment : IsSegment later registry index located pieces)
    (fits : (registry.plan index located.instruction).Fits pool located.instruction) :
    (pieces.any fun
      | .branch (.branch ..) _ => true
      | _ => false) = true ↔ ∃ test offset, located.instruction = .branch test offset := by
  cases isBranch : located.instruction.isBranch with
  | true =>
      rw [isSegment.of_branch fits isBranch, List.any_cons, List.any_nil, Bool.or_false]
      cases located.instruction with
      | branch test offset => exact iff_of_true rfl ⟨test, offset, rfl⟩
      | _ => exact iff_of_false Bool.false_ne_true fun ⟨_, _, same⟩ => Instruction.noConfusion same
  | false =>
      rcases isSegment.of_plain isBranch with ⟨before, main, after, rfl, _⟩
      refine iff_of_false ?_ ?_
      · rw [List.any_map, List.any_eq_true]
        rintro ⟨_, _, ⟨⟩⟩
      · rintro ⟨test, offset, isConditional⟩
        rw [isConditional] at isBranch
        cases isBranch

/-- What becomes a jump target follows a widened conditional branch. -/
theorem mem_newTargets_iff {emission : Emission} (frameMap : FrameMap)
    {pool later : ConstantPool} {registry : Registry} {index : Nat}
    (size : emission.segments.size = frameMap.body.instructions.size)
    (each : ∀ (index : Nat) (located : Located), frameMap.body.instructions[index]? = some located →
      ∃ pieces, emission.segments[index]? = some pieces ∧
        IsSegment later registry index located pieces)
    (fits : ∀ (index : Nat) (located : Located),
      frameMap.body.instructions[index]? = some located →
      (registry.plan index located.instruction).Fits pool located.instruction) :
    index ∈ emission.newTargets frameMap.relocation.layout ↔ frameMap.FollowsWidened index := by
  rw [newTargets, List.mem_filterMap]
  constructor
  · rintro ⟨⟨pieces, previous⟩, numbered, isNext⟩
    rw [List.mem_zipIdx_iff_getElem?, Array.getElem?_toList] at numbered
    dsimp only at numbered isNext
    obtain ⟨⟨address, instruction⟩, atPrevious⟩ : ∃ located,
        frameMap.body.instructions[previous]? = some located :=
      ⟨_, Array.getElem?_eq_getElem (size ▸ (Array.getElem?_eq_some_iff.1 numbered).1)⟩
    rcases each previous _ atPrevious with ⟨_, numbered', isSegment⟩
    cases numbered.symm.trans numbered'
    split at isNext
    · next both =>
        rcases Bool.and_eq_true_iff.1 both with ⟨isWide, isAny⟩
        rcases (any_conditional_iff isSegment (fits previous _ atPrevious)).1 isAny with
          ⟨test, offset, rfl⟩
        cases isNext
        refine ⟨previous, address, test, offset, rfl, atPrevious, ?_⟩
        cases wide : frameMap.relocation.layout.widened[previous]? with
        | none =>
            rw [wide] at isWide
            cases isWide
        | some long =>
            rw [wide] at isWide
            exact congrArg some isWide
    · cases isNext
  · rintro ⟨previous, address, test, offset, rfl, atPrevious, isWide⟩
    rcases each previous _ atPrevious with ⟨pieces, numbered, isSegment⟩
    refine ⟨(pieces, previous), ?_, ?_⟩
    · rw [List.mem_zipIdx_iff_getElem?, Array.getElem?_toList]
      exact numbered
    · have isAny := (any_conditional_iff isSegment (fits previous _ atPrevious)).2
        ⟨test, offset, rfl⟩
      refine if_pos (Bool.and_eq_true_iff.2 ⟨?_, isAny⟩)
      rw [isWide]
      rfl

/-- A conditional branch that takes eight bytes has its long form. -/
theorem LaidOut.widened {emission : Emission} {layout : Layout}
    (laidOut : emission.LaidOut layout) {index start stop address : Nat} {test : BranchTest}
    {offset : Int16}
    (found : emission.segments[index]? = some [.branch (.branch test offset) address])
    (isStart : layout.bounds[index]? = some start) (isStop : layout.bounds[index + 1]? = some stop)
    (isLong : start + 8 = stop) : layout.widened[index]? = some true := by
  rcases laidOut.next index _ found with ⟨start', long, isStart', isWide, isStop'⟩
  cases isStart.symm.trans isStart'
  cases long with
  | true => exact isWide
  | false =>
      have short : stop = start + 3 := Option.some.inj (isStop.symm.trans isStop')
      omega

end Emission

/-! ## Places -/

namespace MethodBody

/-- Every segment is behind those before it. -/
theorem Assembled.bounds_lt {body : MethodBody} {pool : ConstantPool} {registry : Registry}
    {bounds : Array Nat} {prologue : List Instruction} {forms : List (List Instruction)}
    (assembled : body.Assembled pool registry bounds prologue forms) {first second start stop : Nat}
    (before : first < second) (isStart : bounds[first]? = some start)
    (isStop : bounds[second]? = some stop) : start < stop := by
  induction second generalizing stop with
  | zero => cases before
  | succ second ih =>
      have inRange : second < body.instructions.size := by
        have bounded := (Array.getElem?_eq_some_iff.1 isStop).1
        rw [assembled.size] at bounded
        exact Nat.lt_of_succ_lt_succ bounded
      rcases assembled.segment second _ (Array.getElem?_eq_getElem inRange) with
        ⟨form, start', stop', _, isStart', isStop', segment⟩
      cases isStop.symm.trans isStop'
      have advances : start' < stop := by
        rw [← segment.instructionsEnd_eq]
        exact Emission.lt_instructionsEnd segment.ne_nil
      rcases Nat.lt_succ_iff_lt_or_eq.1 before with before | rfl
      · exact Nat.lt_trans (ih before isStart') advances
      · cases isStart.symm.trans isStart'
        exact advances

theorem eq_of_address_eq {body : MethodBody}
    (decoded : Code.decode body.code.code = .ok body.instructions.toList) {first second : Nat}
    {here there : Located} (isHere : body.instructions[first]? = some here)
    (isThere : body.instructions[second]? = some there)
    (same : here.address = there.address) : first = second := by
  have distinct : (body.instructions.toList.map Located.address).Nodup :=
    List.pairwise_map.2 ((Code.pairwise_address_of_decode decoded).1.imp Nat.ne_of_lt)
  have inRange := (Array.getElem?_eq_some_iff.1 isHere).1
  refine (List.getElem?_inj (by simpa using inRange) distinct).1 ?_
  rw [List.getElem?_map, List.getElem?_map, Array.getElem?_toList, Array.getElem?_toList, isHere,
    isThere, Option.map_some, Option.map_some, same]

/-- The instructions of a body that was flattened have their places. -/
theorem Assembled.placed {body : MethodBody} {pool : ConstantPool} {registry : Registry}
    {relocation : Relocation} {prologue : List Instruction} {forms : List (List Instruction)}
    (assembled : body.Assembled pool registry relocation.layout.bounds prologue forms)
    (decoded : Code.decode body.code.code = .ok body.instructions.toList)
    (isOwn : relocation.addresses = body.addresses) (few : relocation.layout.stop ≤ 65535)
    (analysis : AnalysisResult) : FrameMap.Placed ⟨body, analysis, relocation⟩ := by
  have size : relocation.layout.starts.size = body.instructions.size := by
    have size := assembled.size
    rw [Layout.bounds, Array.size_push] at size
    exact Nat.succ.inj size
  constructor
  · exact isOwn
  · exact eq_of_address_eq decoded
  · exact size
  · intro index start isStart
    have inRange := (Array.getElem?_eq_some_iff.1 isStart).1
    exact Nat.lt_of_lt_of_le (assembled.bounds_lt inRange (Layout.getElem?_bounds isStart)
      Array.getElem?_push_size) few
  · intro first second start isFirst isSecond
    have atFirst := Layout.getElem?_bounds isFirst
    have atSecond := Layout.getElem?_bounds isSecond
    rcases Nat.lt_trichotomy first second with before | same | after
    · exact absurd (assembled.bounds_lt before atFirst atSecond) (Nat.lt_irrefl _)
    · exact same
    · exact absurd (assembled.bounds_lt after atSecond atFirst) (Nat.lt_irrefl _)

/-- From an instruction that is reached and passes control on the next one is
reached. -/
theorem exists_frame_next {answers : String → Except OracleError Bool} {classFile : ClassFile}
    {body : MethodBody} {flatArrays : Bool} {result : AnalysisResult}
    (analyzed : (body.analyze classFile flatArrays).eval answers = .ok result) {index : Nat}
    {located : Located} {before : Frame} (atIndex : body.instructions[index]? = some located)
    (reached : result.frames[index]? = some (some before))
    (passesOn : located.instruction.endsFlow = false) :
    ∃ next after, body.instructions[index + 1]? = some next ∧
      result.frames[index + 1]? = some (some after) := by
  rcases analyze_spec analyzed with ⟨_, rfl⟩ | ⟨handlers, _, _, _, _, _, _, invariant, whole⟩
  · cases reached
  · rcases invariant.settled_of_frame reached with ⟨located', effect, atIndex', settled⟩
    cases atIndex.symm.trans atIndex'
    rcases (settled.fixedAt whole).passed passesOn with ⟨after, isAfter, _⟩
    rcases invariant.settled_of_frame isAfter with ⟨next, _, atNext, _⟩
    exact ⟨next, after, atNext, isAfter⟩

end MethodBody

/-! ## Jumps and handlers -/

namespace FrameMap

/-- Jumps and handlers lead to frames if they did so before. -/
structure Covers (frameMap : FrameMap) (prologue : List Located) (segments : List (List Located))
    (exceptions : List ExceptionEntry) (old new : List Snapshot) : Prop where
  opening : ∀ part ∈ prologue, part.targets = []
  /-- If the targets of an instruction had frames, those in its segment have. The
  one exception is the end of a widened conditional branch that is never
  reached. -/
  jumps : ∀ (index : Nat) (located : Located) (segment : List Located),
    frameMap.body.instructions[index]? = some located → segments[index]? = some segment →
    (∀ target ∈ located.targets, ∃ snapshot ∈ old, (snapshot.address : Int) = target) →
    ∀ part ∈ segment, ∀ target ∈ part.targets,
      (∃ snapshot ∈ new, (snapshot.address : Int) = target) ∨
        frameMap.frame? index = none ∧ frameMap.FollowsWidened (index + 1)
  handlers : List.Forall₂ (fun entry entry' =>
    (∃ snapshot ∈ old, snapshot.address = entry.handler.toNat) →
      ∃ snapshot ∈ new, snapshot.address = entry'.handler.toNat)
    frameMap.body.code.exceptions exceptions

/-- What the stack map table of a body becomes. `pool` is the pool in the end. -/
def CarriesTable (frameMap : FrameMap) (pool : ConstantPool) (thisClass : UInt16)
    (prologue : List Located) (segments : List (List Located)) (exceptions : List ExceptionEntry)
    (item : Attribute) (item' : Option Attribute) : Prop :=
  ∃ table rest type initial new table',
    StackMapFrame.readTable item.info = .ok (table, rest) ∧
    MethodType.parse? frameMap.body.descriptor = some type ∧
    frameMap.TypesEntry pool thisClass type initial ∧
    frameMap.Rebuilds pool (StackMapFrame.expand initial table) new ∧
    frameMap.Covers prologue segments exceptions (StackMapFrame.expand initial table) new ∧
    Tabulates initial new table' ∧
    item' = table'.map fun table => { item with info := StackMapFrame.tableBytes table }

variable {frameMap : FrameMap} {pool : ConstantPool} {old new : List Snapshot}

/-- Where an instruction with a frame has moved there is a frame. -/
theorem Rebuilds.exists_of_movesTo (rebuilds : frameMap.Rebuilds pool old new) {address : Int}
    {target : Nat}
    (moves : frameMap.body.MovesTo frameMap.relocation.layout.bounds address target)
    (had : ∃ snapshot ∈ old, (snapshot.address : Int) = address) :
    ∃ snapshot ∈ new, snapshot.address = target := by
  rcases moves with ⟨index, destination, atIndex, rfl, isStart⟩
  rcases had with ⟨snapshot, isOld, same⟩
  rcases rebuilds.complete index destination atIndex
    (.inl ⟨snapshot, isOld, Int.ofNat.inj same⟩) with ⟨found, isNew, isStart', _⟩
  exact ⟨found, isNew, Option.some.inj (isStart'.symm.trans isStart)⟩

/-- The targets of an instruction that had frames have frames where they are now,
and so has the end of a widened conditional branch that is reached. -/
theorem Rebuilds.target_cases (rebuilds : frameMap.Rebuilds pool old new) {registry : Registry}
    {later : ConstantPool} {index start stop : Nat} {located : Located} {form : List Instruction}
    (segment : SegmentForm frameMap.body later frameMap.relocation.layout.bounds located
      (registry.plan index located.instruction) start stop form)
    (isStop : frameMap.relocation.layout.bounds[index + 1]? = some stop)
    (widens : ∀ test offset, located.instruction = .branch test offset → start + 8 = stop →
      frameMap.FollowsWidened (index + 1))
    (next : ∀ test offset, located.instruction = .branch test offset →
      frameMap.frame? index ≠ none → ∃ after, frameMap.body.instructions[index + 1]? = some after ∧
        frameMap.frame? (index + 1) ≠ none)
    (had : ∀ target ∈ located.targets, ∃ snapshot ∈ old, (snapshot.address : Int) = target)
    {part : Located} (isPart : part ∈ Code.locate start form) {target : Int}
    (isTarget : target ∈ part.targets) :
    (∃ snapshot ∈ new, (snapshot.address : Int) = target) ∨
      frameMap.frame? index = none ∧ frameMap.FollowsWidened (index + 1) := by
  cases segment with
  | plain isPlain emitted =>
      rcases emitted.plain isPlain with ⟨_, ⟨⟩, each⟩
      have noBranch := (each part.instruction (Code.mem_of_mem_locate isPart)).1
      rw [Located.targets, Instruction.branchOffsets_of_not_branch noBranch] at isTarget
      cases isTarget
  | branch _ moves redirected =>
      rcases redirected.target_cases isPart isTarget with
        ⟨rfl, isLong, test, offset, isConditional⟩ | ⟨other, isOther, rfl⟩
      · have follows := widens test offset isConditional isLong
        by_cases reached : frameMap.frame? index = none
        · exact .inr ⟨reached, follows⟩
        · rcases next test offset isConditional reached with ⟨after, atNext, reachedNext⟩
          rcases rebuilds.complete _ after atNext (.inr ⟨follows, reachedNext⟩) with
            ⟨snapshot, isNew, isStart, _⟩
          refine .inl ⟨snapshot, isNew, congrArg Nat.cast ?_⟩
          exact Option.some.inj (isStart.symm.trans isStop)
      · rcases Outcome.exists_of_mem_forall₂ moves isOther with ⟨offset, isOffset, moved⟩
        have isOld : (located.address : Int) + offset.toInt ∈ located.targets :=
          List.mem_map_of_mem isOffset
        rcases rebuilds.exists_of_movesTo moved (had _ isOld) with ⟨snapshot, isNew, rfl⟩
        exact .inl ⟨snapshot, isNew, rfl⟩

/-- A handler that had a frame has one where it is now. -/
theorem Rebuilds.handler (rebuilds : frameMap.Rebuilds pool old new) (placed : frameMap.Placed)
    (within : ∀ located ∈ frameMap.body.instructions,
      located.address < frameMap.relocation.oldLength)
    {entry entry' : ExceptionEntry}
    (moved : frameMap.relocation.moveException entry = .ok entry')
    (had : ∃ snapshot ∈ old, snapshot.address = entry.handler.toNat) :
    ∃ snapshot ∈ new, snapshot.address = entry'.handler.toNat := by
  rcases Outcome.bind_eq_ok_iff.1 moved with ⟨start, _, moved⟩
  rcases Outcome.bind_eq_ok_iff.1 moved with ⟨stop, _, moved⟩
  rcases Outcome.bind_eq_ok_iff.1 moved with ⟨handler, movedHandler, ended⟩
  cases ended
  rcases had with ⟨snapshot, isOld, isHandler⟩
  -- A frame is at an instruction, so the handler is not the end of the code.
  have inside : entry.handler.toNat ≠ frameMap.relocation.oldLength := by
    rcases rebuilds.placed snapshot isOld with ⟨index, located, atIndex, isAddress⟩
    rw [← isHandler, ← isAddress]
    exact Nat.ne_of_lt (within located (Array.mem_of_getElem? atIndex))
  rw [Relocation.pc, Relocation.boundary?, if_neg inside] at movedHandler
  cases found : frameMap.relocation.address? entry.handler.toNat with
  | none =>
      rw [found] at movedHandler
      cases movedHandler
  | some address =>
      rw [found] at movedHandler
      cases movedHandler
      rcases Option.bind_eq_some_iff.1 found with ⟨index, _, isStart⟩
      have isNew : (UInt16.ofNat address).toNat = address :=
        UInt16.toNat_ofNat_of_lt' (Nat.lt_succ_of_lt (placed.bounded isStart))
      dsimp only
      rw [isNew]
      exact rebuilds.exists_of_movesTo (Relocation.movesTo_of_address? placed.addresses found)
        ⟨snapshot, isOld, congrArg Nat.cast isHandler⟩

end FrameMap

/-! ## Bodies -/

namespace FlattenedCode

theorem readBody_eq_ok_iff {α : Type} {name : String} {reader : Reader α} {item : Attribute}
    {value : α} {bench last : Workbench} :
    readBody name reader item bench = .ok value last ↔
      (∃ rest, reader item.info = .ok (value, rest)) ∧ last = bench := by
  unfold readBody
  cases reader item.info with
  | ok read =>
      rcases read with ⟨found, rest⟩
      constructor
      · intro succeeded
        rcases pure_eq_ok_iff.1 succeeded with ⟨rfl, rfl⟩
        exact ⟨⟨rest, rfl⟩, rfl⟩
      · rintro ⟨⟨_, ⟨⟩⟩, rfl⟩
        rfl
  | error error =>
      constructor
      · intro succeeded
        cases succeeded
      · rintro ⟨⟨_, ⟨⟩⟩, _⟩

variable {code : FlattenedCode} {item : Attribute} {item' : Option Attribute}
  {bench last : Workbench}

theorem stackMap_of_carryAttribute
    (isTable : bench.pool.text? item.name = some Attribute.stackMapTableName)
    (succeeded : code.carryAttribute item bench = .ok item' last) :
    code.stackMap item bench = .ok item' last := by
  rcases bind_eq_ok_iff.1 succeeded with ⟨_, _, ⟨⟩, carried⟩
  rw [isTable, Option.getD_some, if_neg (by decide), if_neg (by decide), if_pos rfl] at carried
  exact carried

/-- What becomes of a stack map table. -/
theorem stackMap_spec {pool : ConstantPool} (placed : code.frameMap.Placed)
    (isTarget : ∀ index, index ∈ code.newTargets ↔ code.frameMap.FollowsWidened index)
    (succeeded : code.stackMap item bench = .ok item' last) (grows : last.pool.Grows pool) :
    ∃ table rest type initial new table',
      StackMapFrame.readTable item.info = .ok (table, rest) ∧
      MethodType.parse? code.frameMap.body.descriptor = some type ∧
      code.frameMap.TypesEntry pool code.thisClass type initial ∧
      code.frameMap.Rebuilds pool (StackMapFrame.expand initial table) new ∧
      FrameMap.Tabulates initial new table' ∧
      item' = table'.map fun table => { item with info := StackMapFrame.tableBytes table } := by
  rcases bind_eq_ok_iff.1 succeeded with ⟨table, _, reading, parsing⟩
  rcases readBody_eq_ok_iff.1 reading with ⟨⟨rest, reads⟩, rfl⟩
  rcases bind_eq_ok_iff.1 parsing with ⟨type, _, required, typing⟩
  rcases require_eq_ok_iff.1 required with ⟨parses, rfl⟩
  rcases bind_eq_ok_iff.1 typing with ⟨initial, between, typed, rebuilding⟩
  rcases bind_eq_ok_iff.1 rebuilding with ⟨table', after, rebuilt, ended⟩
  have later : after.pool.Grows last.pool ∧
      item' = table'.map fun table => { item with info := StackMapFrame.tableBytes table } := by
    cases table' with
    | some table' =>
        rcases pure_eq_ok_iff.1 ended with ⟨rfl, rfl⟩
        exact ⟨ConstantPool.Grows.refl _, rfl⟩
    | none =>
        rcases bind_eq_ok_iff.1 ended with ⟨_, noted, left, ended⟩
        rcases pure_eq_ok_iff.1 ended with ⟨rfl, rfl⟩
        cases left
        exact ⟨ConstantPool.Grows.refl _, rfl⟩
  have growsAfter := later.1.trans grows
  have growsBetween :=
    (code.frameMap.interning_rebuild _ _ _ _ _ _ _ rebuilt).grows.trans growsAfter
  rcases FrameMap.rebuild_spec placed isTarget rebuilt growsAfter with ⟨new, rebuilds, tabulates⟩
  exact ⟨table, rest, type, initial, new, table', reads, parses,
    FrameMap.initialLocals_spec placed typed growsBetween, rebuilds, tabulates, later.2⟩

end FlattenedCode

namespace MethodBody

/-- What has frames after flattening, given the new table of one. -/
theorem Assembled.covers {answers : String → Except OracleError Bool} {classFile : ClassFile}
    {body : MethodBody} {flatArrays : Bool} {result : AnalysisResult}
    (analyzed : (body.analyze classFile flatArrays).eval answers = .ok result)
    (decoded : Code.decode body.code.code = .ok body.instructions.toList)
    {emission : Emission} {relocation : Relocation} {prologue : List Instruction}
    {forms : List (List Instruction)} {pool later : ConstantPool}
    (assembled : body.Assembled later result.registry relocation.layout.bounds prologue forms)
    (relocates : emission.Relocates body.addresses body.code.code.length relocation)
    (segments : ∀ (index : Nat) (located : Located), body.instructions[index]? = some located →
      ∃ pieces, emission.segments[index]? = some pieces ∧
        Emission.IsSegment later result.registry index located pieces)
    (few : relocation.layout.stop ≤ 65535) (plain : ∀ part ∈ prologue, part.isBranch = false)
    {exceptions : List ExceptionEntry}
    (moves : body.code.exceptions.mapM relocation.moveException = .ok exceptions)
    {old new : List Snapshot}
    (rebuilds : FrameMap.Rebuilds ⟨body, result, relocation⟩ pool old new) :
    FrameMap.Covers ⟨body, result, relocation⟩ (Code.locate 0 prologue)
      (relocation.layout.bounds.toList.zipWith Code.locate forms) exceptions old new := by
  constructor
  · intro part isPart
    rw [Located.targets,
      Instruction.branchOffsets_of_not_branch (plain _ (Code.mem_of_mem_locate isPart))]
    rfl
  · intro index located segment atIndex isSegment had part isPart target isTarget
    rcases assembled.exists_segmentForm_of_located isSegment with
      ⟨located', form, start, stop, atIndex', isStart, isStop, rfl, isForm⟩
    cases atIndex.symm.trans atIndex'
    refine rebuilds.target_cases isForm isStop ?_ ?_ had isPart isTarget
    · intro test offset isConditional isLong
      rcases segments index located atIndex with ⟨pieces, found, isSegment⟩
      rcases located with ⟨address, _⟩
      cases isConditional
      cases isSegment.of_branch (plan_fits analyzed atIndex) rfl
      exact ⟨index, address, test, offset, rfl, atIndex,
        relocates.laidOut.widened found isStart isStop isLong⟩
    · intro test offset isConditional reached
      rcases Option.ne_none_iff_exists'.1 reached with ⟨before, isBefore⟩
      have passesOn : located.instruction.endsFlow = false := by
        rw [isConditional]
        rfl
      rcases exists_frame_next analyzed atIndex (Option.join_eq_some_iff.1 isBefore) passesOn with
        ⟨next, after, atNext, isAfter⟩
      refine ⟨next, atNext, Option.ne_none_iff_exists'.2 ⟨after, ?_⟩⟩
      exact Option.join_eq_some_iff.2 isAfter
  · have placed := assembled.placed decoded relocates.addresses few result
    have within : ∀ located ∈ body.instructions, located.address < relocation.oldLength := by
      intro located isInstruction
      rw [relocates.oldLength]
      exact (Code.pairwise_address_of_decode decoded).2 located
        (Array.mem_toList_iff.2 isInstruction)
    exact (Outcome.forall₂_of_mapM moves).imp fun _ _ moved => rebuilds.handler placed within moved

/-- Flattening carries stack maps over: the new table of a body that was analyzed
and flattened has the frames of the old one, at the segments of their
instructions and with the types that their entries have now, and a frame behind
every widened conditional branch that is reached. -/
theorem flatten_carries_frames (find : ClassFinder) (oracle : Oracle) (classFile : ClassFile)
    (body : MethodBody) (flatArrays : Bool) {result : AnalysisResult}
    (analyzed : ((body.analyze classFile flatArrays).run find oracle).result = .ok result)
    (decoded : Code.decode body.code.code = .ok body.instructions.toList)
    {thisClass : UInt16} {bench last : Workbench} {code : CodeAttribute}
    (flattened : body.flatten thisClass result bench = .ok code last) :
    ∃ emission relocation between after prologue segments carried,
      Emission.ofBody body result.registry bench = .ok emission between ∧
      emission.layOut body.addresses body.code.code.length between = .ok relocation after ∧
      body.Relocated relocation.layout.bounds code.code prologue segments ∧
      code.attributes = carried.filterMap id ∧
      List.Forall₂ (fun item item' =>
        bench.pool.text? item.name = some Attribute.stackMapTableName →
          FrameMap.CarriesTable ⟨body, result, relocation⟩ last.pool thisClass prologue segments
            code.exceptions item item')
        body.code.attributes carried := by
  rw [Inquiry.run_result] at analyzed
  rcases flatten_spec analyzed flattened with
    ⟨emission, relocation, forms, between, after, emitted, laidOut, isCode, assembled, grows,
      opening⟩
  rcases opening with ⟨conversions, isPrologue, each⟩
  have plain := isPrologue ▸ Emission.ConvertsSlot.flatten_plain each
  rcases flatten_cases flattened with
    ⟨_, _, _, carried, _, _, emitted', laidOut', _, moves, carries, isFlat⟩
  cases emitted.symm.trans emitted'
  cases laidOut.symm.trans laidOut'
  have additive := FlattenedCode.additive_carryAttribute
    ⟨⟨body, result, relocation⟩, thisClass, emission.newTargets relocation.layout⟩
  have growsLast := additive_mapM additive _ _ _ _ carries
  rcases emission.layOut_spec body.addresses body.code.code.length with ⟨layOutGrows, ensures⟩
  rcases ensures _ _ _ laidOut with ⟨relocates, few⟩
  have growsOut := layOutGrows _ _ _ laidOut
  have begins := (Emission.additive_ofBody body result.registry _ _ _ emitted).trans growsOut
  rcases Emission.ofBody_spec emitted (growsOut.trans growsLast) with ⟨_, size, isSegment⟩
  have placed := assembled.placed decoded relocates.addresses few result
  have isTarget (index : Nat) : index ∈ emission.newTargets relocation.layout ↔
      FrameMap.FollowsWidened ⟨body, result, relocation⟩ index :=
    Emission.mem_newTargets_iff ⟨body, result, relocation⟩ size isSegment fun _ _ =>
      plan_fits analyzed
  rw [isCode]
  refine ⟨emission, relocation, between, after, _, _, carried, emitted, laidOut,
    assembled.relocated (wellFormed_of_decode decoded) plain,
    congrArg CodeAttribute.attributes isFlat, ?_⟩
  refine mapM_between_spec additive ?_ begins carries (ConstantPool.Grows.refl _)
  intro item bench' item' last' grown succeeded grows isTable
  have isStackMap := FlattenedCode.stackMap_of_carryAttribute (grown.text? isTable) succeeded
  rcases FlattenedCode.stackMap_spec placed isTarget isStackMap grows with
    ⟨table, rest, type, initial, new, table', reads, parses, typed, rebuilds, tabulates, isItem⟩
  exact ⟨table, rest, type, initial, new, table', reads, parses, typed, rebuilds,
    assembled.covers analyzed decoded relocates isSegment few
      (fun part isPart => (plain part isPart).1) moves rebuilds, tabulates, isItem⟩

/-- `choose` with a frame where its paths meet. -/
def chooseFramed : MethodBody :=
  { choose with code := { choose.code with attributes := [⟨7, [0, 1, 12]⟩] } }

/-- `ClassFile.pair` with the name of the table. -/
def framedPair : ClassFile :=
  { ClassFile.pair with pool := {
      size := 8
      entries := ClassFile.pair.pool.entries.push
        (.utf8 (Bytes.ofText Attribute.stackMapTableName)) } }

/-- The frame of `chooseFramed` after flattening. -/
theorem flatten_carries_frames_choose : ∃ result code last relocation prologue segments item',
    ((chooseFramed.analyze framedPair true).run (fun _ => .absent) (.knowing "V")).result =
      .ok result ∧
    Code.decode chooseFramed.code.code = .ok chooseFramed.instructions.toList ∧
    chooseFramed.flatten 2 result { pool := framedPair.pool } = .ok code last ∧
    framedPair.pool.text? 7 = some Attribute.stackMapTableName ∧
    code.attributes = [item'].filterMap id ∧
    FrameMap.CarriesTable ⟨chooseFramed, result, relocation⟩ last.pool 2 prologue segments
      code.exceptions ⟨7, [0, 1, 12]⟩ item' := by
  have analyzed : ∃ result,
      ((chooseFramed.analyze framedPair true).run (fun _ => .absent) (.knowing "V")).result =
        .ok result ∧
        (Flatten.attempt (chooseFramed.flatten 2 result)
          { pool := framedPair.pool }).toOption.any (fun _ => true) = true := by
    apply Outcome.exists_of_any
    rw [Inquiry.run_result, Oracle.answer_knowing]
    decide +kernel
  have isTable : framedPair.pool.text? 7 = some Attribute.stackMapTableName := by decide +kernel
  rcases analyzed with ⟨result, analyzed, flattens⟩
  rcases Outcome.exists_of_any _ flattens with ⟨⟨code, last⟩, flattened, _⟩
  have flattened := Flatten.attempt_eq_ok_iff.1 flattened
  rcases flatten_carries_frames _ _ _ _ _ analyzed decode_choose flattened with
    ⟨_, relocation, _, _, prologue, segments, carried, _, _, _, isAttributes, each⟩
  rcases List.forall₂_cons_left_iff.1 each with ⟨item', rest, carries, noMore, rfl⟩
  cases noMore
  exact ⟨result, code, last, relocation, prologue, segments, item', analyzed, decode_choose,
    flattened, isTable, isAttributes, carries isTable⟩

end MethodBody

end ValueForm
