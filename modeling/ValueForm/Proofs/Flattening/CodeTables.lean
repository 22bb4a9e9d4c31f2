import ValueForm.Proofs.Conversion.Coverage
import ValueForm.Proofs.Flattening.StackMap

/-!
# Tables that follow the code

The positions of a body are those of its instructions and the end of its code. In its
flattened code they have moved, in the same order, to the starts of the segments and to the
new end, so a range between two of them still covers the same instructions: a segment as a
whole or not at all, and nothing of the prologue. The ranges and handlers of exceptions,
source lines and the ranges of local variables move in this way; as the new code is no
longer than 65535 bytes, none of their addresses is cut off.
-/

namespace ValueForm

open Flatten

/-! ## Positions -/

/-- In a rising list positions are ordered as what is there. -/
theorem lt_iff_of_pairwise_lt {items : List Nat} (rising : items.Pairwise (· < ·))
    {first second item other : Nat} (isItem : items[first]? = some item)
    (isOther : items[second]? = some other) : item < other ↔ first < second := by
  obtain ⟨inRange, rfl⟩ := List.getElem?_eq_some_iff.1 isItem
  obtain ⟨inRange', rfl⟩ := List.getElem?_eq_some_iff.1 isOther
  exact rising.sortedLT.getElem_lt_getElem_iff

namespace MethodBody

/-- The positions in the code of a body: its instructions and the end. -/
def limits (body : MethodBody) : List Nat :=
  body.instructions.toList.map Located.address ++ [body.code.code.length]

/-- A position in the code of a body has moved: from an instruction to its segment, or
from the end of the code to the new end. -/
def LimitMoves (body : MethodBody) (bounds : Array Nat) (old new : Nat) : Prop :=
  ∃ index : Nat, body.limits[index]? = some old ∧ bounds[index]? = some new

/-- The instruction at an address has its segment at another. -/
def MovesToSegment (body : MethodBody) (segments : List (List Located)) (old new : Nat) : Prop :=
  ∃ (index : Nat) (located : Located) (segment : List Located) (first : Located),
    body.instructions[index]? = some located ∧ located.address = old ∧
    segments[index]? = some segment ∧ segment.head? = some first ∧ first.address = new

/-- A range of code has moved with what it covers: with an instruction it covers the whole
segment, and no part of any other segment or of the prologue. -/
structure RangeMoves (body : MethodBody) (bounds : Array Nat) (prologue : List Located)
    (segments : List (List Located)) (start stop start' stop' : Nat) : Prop where
  starts : body.LimitMoves bounds start start'
  stops : body.LimitMoves bounds stop stop'
  covers : ∀ (index : Nat) (located : Located) (segment : List Located),
    body.instructions[index]? = some located → segments[index]? = some segment →
    ∀ part ∈ segment, (start' ≤ part.address ∧ part.address < stop') ↔
      (start ≤ located.address ∧ located.address < stop)
  opening : ∀ part ∈ prologue, ¬ (start' ≤ part.address ∧ part.address < stop')

variable {body : MethodBody}

theorem getElem?_limits {index : Nat} {located : Located}
    (atIndex : body.instructions[index]? = some located) :
    body.limits[index]? = some located.address := by
  have inRange := (Array.getElem?_eq_some_iff.1 atIndex).1
  rw [limits, List.getElem?_append_left (by simpa using inRange), List.getElem?_map,
    Array.getElem?_toList, atIndex]
  rfl

@[simp]
theorem getElem?_limits_size (body : MethodBody) :
    body.limits[body.instructions.size]? = some body.code.code.length := by
  simp [limits]

/-- A position is that of an instruction or the end. -/
theorem limits_cases {index old : Nat} (isLimit : body.limits[index]? = some old) :
    (∃ located, body.instructions[index]? = some located ∧ located.address = old) ∨
      index = body.instructions.size ∧ old = body.code.code.length := by
  rcases Nat.lt_or_ge index body.instructions.size with inRange | beyond
  · have atIndex := Array.getElem?_eq_getElem inRange
    exact .inl ⟨_, atIndex, Option.some.inj ((getElem?_limits atIndex).symm.trans isLimit)⟩
  · have bounded := (List.getElem?_eq_some_iff.1 isLimit).1
    simp only [limits, List.length_append, List.length_map, Array.length_toList,
      List.length_singleton] at bounded
    obtain rfl : index = body.instructions.size := by omega
    exact .inr ⟨rfl, Option.some.inj (isLimit.symm.trans body.getElem?_limits_size)⟩

theorem pairwise_limits (decoded : Code.decode body.code.code = .ok body.instructions.toList) :
    body.limits.Pairwise (· < ·) := by
  obtain ⟨rising, within⟩ := Code.pairwise_address_of_decode decoded
  refine List.pairwise_append.2 ⟨List.pairwise_map.2 rising, List.pairwise_singleton _ _, ?_⟩
  intro address isAddress other isEnd
  obtain ⟨located, isLocated, rfl⟩ := List.mem_map.1 isAddress
  obtain rfl := List.mem_singleton.1 isEnd
  exact within located isLocated

namespace Relocated

variable {bounds : Array Nat} {code : Bytes} {prologue : List Located}
  {segments : List (List Located)} {index limit : Nat} {segment : List Located} {part : Located}

/-- Every segment is behind those before it. -/
theorem pairwise_bounds (relocated : body.Relocated bounds code prologue segments) :
    bounds.toList.Pairwise (· < ·) := by
  rw [← List.isChain_iff_pairwise, List.isChain_iff_getElem]
  intro index inRange
  have isSegment : index < segments.length := by
    rw [Array.length_toList, relocated.size] at inRange
    rw [relocated.count]
    omega
  obtain ⟨isThere, form, start, spans, isStart, isStop⟩ :=
    relocated.spans index _ (List.getElem?_eq_getElem isSegment)
  have advances : start < Emission.instructionsEnd start form := by
    apply Emission.lt_instructionsEnd
    rintro rfl
    exact isThere spans
  rw [← Array.getElem?_toList, List.getElem?_eq_some_iff] at isStart isStop
  obtain ⟨_, isStart⟩ := isStart
  obtain ⟨_, isStop⟩ := isStop
  rwa [isStart, isStop]

theorem le_bounds_iff (relocated : body.Relocated bounds code prologue segments)
    {other limit' : Nat} (isLimit : bounds[index]? = some limit)
    (isOther : bounds[other]? = some limit') : limit ≤ limit' ↔ index ≤ other := by
  rw [← Array.getElem?_toList] at isLimit isOther
  rw [← Nat.not_lt, lt_iff_of_pairwise_lt relocated.pairwise_bounds isOther isLimit, Nat.not_lt]

/-- The end of the code is the last position. -/
theorem le_length (relocated : body.Relocated bounds code prologue segments)
    (isLimit : bounds[index]? = some limit) : limit ≤ code.length := by
  rw [relocated.le_bounds_iff isLimit relocated.closes]
  have inRange := (Array.getElem?_eq_some_iff.1 isLimit).1
  rw [relocated.size] at inRange
  omega

/-- What is in a segment is behind a position exactly when the segment is. -/
theorem le_address_iff (relocated : body.Relocated bounds code prologue segments)
    {place : Nat} (isLimit : bounds[place]? = some limit) (found : segments[index]? = some segment)
    (isPart : part ∈ segment) : limit ≤ part.address ↔ place ≤ index := by
  obtain ⟨_, form, start, rfl, isStart, isStop⟩ := relocated.spans index segment found
  have after := Code.le_address_of_mem_locate isPart
  have before := Code.address_lt_of_mem_locate isPart
  rw [Code.extent_locate, Code.length_encodeFrom] at before
  constructor
  · intro behind
    by_contra later
    have := (relocated.le_bounds_iff isStop isLimit).2 (by omega)
    omega
  · intro behind
    have := (relocated.le_bounds_iff isLimit isStart).2 behind
    omega

/-- The prologue is before every position. -/
theorem address_lt_of_mem_prologue (relocated : body.Relocated bounds code prologue segments)
    (isLimit : bounds[index]? = some limit) (isPart : part ∈ prologue) : part.address < limit := by
  obtain ⟨form, rfl, isFirst⟩ := relocated.opens
  have before := Code.address_lt_of_mem_locate isPart
  rw [Code.extent_locate, Code.length_encodeFrom] at before
  exact Nat.lt_of_lt_of_le before ((relocated.le_bounds_iff isFirst isLimit).2 (Nat.zero_le _))

/-- A range whose ends have moved has moved with what it covers. -/
theorem rangeMoves (relocated : body.Relocated bounds code prologue segments)
    (decoded : Code.decode body.code.code = .ok body.instructions.toList)
    {start stop start' stop' : Nat} (starts : body.LimitMoves bounds start start')
    (stops : body.LimitMoves bounds stop stop') :
    body.RangeMoves bounds prologue segments start stop start' stop' := by
  refine ⟨starts, stops, ?_, ?_⟩
  · intro index located segment atIndex found part isPart
    obtain ⟨first, isStart, isStart'⟩ := starts
    obtain ⟨last, isStop, isStop'⟩ := stops
    have here := getElem?_limits atIndex
    have rising := pairwise_limits decoded
    have behindStart := relocated.le_address_iff isStart' found isPart
    have behindStop := relocated.le_address_iff isStop' found isPart
    have beforeStart := lt_iff_of_pairwise_lt rising here isStart
    have beforeStop := lt_iff_of_pairwise_lt rising here isStop
    omega
  · intro part isPart covered
    obtain ⟨first, _, isStart'⟩ := starts
    have before := relocated.address_lt_of_mem_prologue isStart' isPart
    omega

/-- What has moved from an instruction has moved to its segment. -/
theorem movesToSegment_or_end (relocated : body.Relocated bounds code prologue segments)
    {old new : Nat} (moves : body.LimitMoves bounds old new) :
    body.MovesToSegment segments old new ∨ old = body.code.code.length ∧ new = code.length := by
  obtain ⟨index, isOld, isNew⟩ := moves
  rcases limits_cases isOld with ⟨located, atIndex, isAddress⟩ | ⟨rfl, isEnd⟩
  · have inRange : index < segments.length :=
      relocated.count ▸ (Array.getElem?_eq_some_iff.1 atIndex).1
    have found := List.getElem?_eq_getElem inRange
    obtain ⟨isThere, form, start, spans, isStart, _⟩ := relocated.spans index _ found
    obtain ⟨first, isFirst⟩ := Option.ne_none_iff_exists'.1 (mt List.head?_eq_none_iff.1 isThere)
    refine .inl ⟨index, located, _, first, atIndex, isAddress, found, isFirst, ?_⟩
    rw [spans] at isFirst
    rw [Code.address_of_mem_head?_locate isFirst]
    exact Option.some.inj (isStart.symm.trans isNew)
  · exact .inr ⟨isEnd, Option.some.inj (isNew.symm.trans relocated.closes)⟩

end Relocated

/-! ## Entries -/

/-- An entry of the exception table has moved with the code. -/
structure ExceptionMoves (body : MethodBody) (bounds : Array Nat) (prologue : List Located)
    (segments : List (List Located)) (entry entry' : ExceptionEntry) : Prop where
  range : body.RangeMoves bounds prologue segments entry.start.toNat entry.stop.toNat
    entry'.start.toNat entry'.stop.toNat
  /-- A body without instructions has no handlers. -/
  handler : body.instructions ≠ #[] →
    body.MovesToSegment segments entry.handler.toNat entry'.handler.toNat
  catchType : entry'.catchType = entry.catchType

/-- An entry of a line number table has moved with the code. -/
structure LineMoves (body : MethodBody) (code : Bytes) (segments : List (List Located))
    (entry entry' : LineNumber) : Prop where
  start : body.MovesToSegment segments entry.start.toNat entry'.start.toNat ∨
    entry.start.toNat = body.code.code.length ∧ entry'.start.toNat = code.length
  line : entry'.line = entry.line

/-- An item of a local variable table has moved with the code. A range that would end
behind the highest address is cut off there first. -/
structure VariableMoves (body : MethodBody) (bounds : Array Nat) (prologue : List Located)
    (segments : List (List Located)) (item item' : LocalVariable) : Prop where
  range : item.start.toNat + item.length.toNat ≤ 65535 →
    body.RangeMoves bounds prologue segments item.start.toNat
      (item.start.toNat + item.length.toNat) item'.start.toNat
      (item'.start.toNat + item'.length.toNat)
  rest : item' = { item with start := item'.start, length := item'.length }

section Entries

variable {emission : Emission} {relocation : Relocation} {code : Bytes} {prologue : List Located}
  {segments : List (List Located)}
  (relocates : emission.Relocates body.addresses body.code.code.length relocation)
  (relocated : body.Relocated relocation.layout.bounds code prologue segments)
  (few : relocation.layout.stop ≤ 65535)

include relocates relocated few

/-- Where an address has moved. -/
theorem limitMoves_of_pc {old new : UInt16} (moved : relocation.pc old = .ok new) :
    body.LimitMoves relocation.layout.bounds old.toNat new.toNat := by
  have size : relocation.layout.starts.size = body.instructions.size := by
    have size := relocated.size
    rw [Layout.bounds, Array.size_push] at size
    exact Nat.succ.inj size
  have isEnd : relocation.layout.bounds[body.instructions.size]? = some relocation.layout.stop := by
    rw [Layout.bounds, ← size, Array.getElem?_push_size]
  have exact {index address : Nat} (isBound : relocation.layout.bounds[index]? = some address) :
      (UInt16.ofNat address).toNat = address := by
    have within := relocated.le_length isBound
    have isStop := Option.some.inj (isEnd.symm.trans relocated.closes)
    exact UInt16.toNat_ofNat_of_lt' (Nat.lt_succ_of_le (by omega))
  unfold Relocation.pc at moved
  split at moved
  · next address found =>
      cases moved
      unfold Relocation.boundary? at found
      split at found
      · next isLength =>
          cases found
          refine ⟨body.instructions.size, ?_, isEnd.trans (congrArg some (exact isEnd).symm)⟩
          rw [isLength, relocates.oldLength]
          exact body.getElem?_limits_size
      · obtain ⟨index, destination, atIndex, isOld, isNew⟩ :=
          Relocation.movesTo_of_address? relocates.addresses found
        refine ⟨index, ?_, isNew.trans (congrArg some (exact isNew).symm)⟩
        rw [getElem?_limits atIndex, Int.ofNat.inj isOld]
  · cases moved

theorem exceptionMoves_of_moveException
    (decoded : Code.decode body.code.code = .ok body.instructions.toList)
    {entry entry' : ExceptionEntry}
    (atHandler : body.instructions ≠ #[] → ∃ located ∈ body.instructions,
      located.address = entry.handler.toNat)
    (moved : relocation.moveException entry = .ok entry') :
    body.ExceptionMoves relocation.layout.bounds prologue segments entry entry' := by
  obtain ⟨start, movedStart, moved⟩ := Outcome.bind_eq_ok_iff.1 moved
  obtain ⟨stop, movedStop, moved⟩ := Outcome.bind_eq_ok_iff.1 moved
  obtain ⟨handler, movedHandler, ended⟩ := Outcome.bind_eq_ok_iff.1 moved
  cases ended
  refine ⟨?_, fun isThere => ?_, rfl⟩
  · exact relocated.rangeMoves decoded (limitMoves_of_pc relocates relocated few movedStart)
      (limitMoves_of_pc relocates relocated few movedStop)
  · -- A handler is at an instruction, so it is not the end of the code.
    refine (relocated.movesToSegment_or_end
      (limitMoves_of_pc relocates relocated few movedHandler)).resolve_right ?_
    rintro ⟨isEnd, _⟩
    obtain ⟨located, isLocated, isAddress⟩ := atHandler isThere
    have within := (Code.pairwise_address_of_decode decoded).2 located
      (Array.mem_toList_iff.2 isLocated)
    omega

theorem lineMoves_of_moveLine {entry entry' : LineNumber}
    (moved : relocation.moveLine entry = .ok entry') :
    body.LineMoves code segments entry entry' := by
  obtain ⟨start, movedStart, ended⟩ := Outcome.bind_eq_ok_iff.1 moved
  cases ended
  exact ⟨relocated.movesToSegment_or_end (limitMoves_of_pc relocates relocated few movedStart), rfl⟩

theorem variableMoves_of_moveVariable
    (decoded : Code.decode body.code.code = .ok body.instructions.toList)
    {item item' : LocalVariable} (moved : relocation.moveVariable item = .ok item') :
    body.VariableMoves relocation.layout.bounds prologue segments item item' := by
  obtain ⟨start, movedStart, moved⟩ := Outcome.bind_eq_ok_iff.1 moved
  obtain ⟨stop, movedStop, ended⟩ := Outcome.bind_eq_ok_iff.1 moved
  cases ended
  refine ⟨fun fits => ?_, rfl⟩
  have isStop : (Relocation.variableEnd item).toNat = item.start.toNat + item.length.toNat := by
    rw [Relocation.variableEnd, Nat.min_eq_left fits]
    exact UInt16.toNat_ofNat_of_lt' (Nat.lt_succ_of_le fits)
  have starts := limitMoves_of_pc relocates relocated few movedStart
  have stops := limitMoves_of_pc relocates relocated few movedStop
  rw [isStop] at stops
  -- The ends of the range keep their order, so its length is their distance.
  have ordered : start.toNat ≤ stop.toNat := by
    obtain ⟨first, isStart, isStart'⟩ := starts
    obtain ⟨last, isStop, isStop'⟩ := stops
    have inOrder := lt_iff_of_pairwise_lt (pairwise_limits decoded) isStop isStart
    rw [relocated.le_bounds_iff isStart' isStop']
    omega
  have isLength : (UInt16.ofNat (stop.toNat - start.toNat)).toNat = stop.toNat - start.toNat :=
    UInt16.toNat_ofNat_of_lt' (Nat.lt_of_le_of_lt (Nat.sub_le _ _) stop.toNat_lt)
  dsimp only
  rw [isLength, Nat.add_sub_cancel' ordered]
  exact relocated.rangeMoves decoded starts stops

end Entries

/-- The handlers of a body that was analyzed are at its instructions. -/
theorem exists_instruction_of_handler {answers : String → Except OracleError Bool}
    {classFile : ClassFile} {flatArrays : Bool} {result : AnalysisResult}
    (analyzed : (body.analyze classFile flatArrays).eval answers = .ok result)
    (isThere : body.instructions ≠ #[]) {entry : ExceptionEntry}
    (isEntry : entry ∈ body.code.exceptions) :
    ∃ located ∈ body.instructions, located.address = entry.handler.toNat := by
  rcases analyze_cases analyzed with ⟨isEmpty, _⟩ | ⟨_, ran⟩
  · exact absurd isEmpty isThere
  · obtain ⟨handlers, _, _, _, _, resolved, _⟩ := Analysis.run_cases ran
    obtain ⟨handler, _, isResolved⟩ :=
      Outcome.exists_of_mem_forall₂ (Outcome.forall₂_of_mapM resolved).flip isEntry
    obtain ⟨located, atIndex, isAddress⟩ :=
      getElem?_addresses (Analysis.position?_of_handler isResolved)
    exact ⟨located, Array.mem_of_getElem? atIndex, isAddress⟩

end MethodBody

/-! ## Tables -/

/-- A table of code is carried over row by row. -/
def Attribute.MovesRows {α : Type} (readTable : Reader (List α)) (moves : α → α → Prop)
    (item : Attribute) (item' : Option Attribute) : Prop :=
  ∃ rows rest rows' info, readTable item.info = .ok (rows, rest) ∧
    item' = some { item with info } ∧ readTable info = .ok (rows', []) ∧
    List.Forall₂ moves rows rows'

namespace FlattenedCode

/-- A table whose rows are moved one by one and that is read back is carried over. -/
theorem movesRows_of_carried {α : Type} {name : String} {reader : Reader α}
    {write : List α → Bytes} {move : α → Except FlattenError α} {moves : α → α → Prop}
    (each : ∀ row row', move row = .ok row' → moves row row')
    (readBack : ∀ rows : List α, rows.length ≤ 65535 →
      Reader.counted16 reader (write rows) = .ok (rows, []))
    {item : Attribute} {item' : Option Attribute} {bench last : Workbench}
    (carried : (do
      let rows ← readBody name (Reader.counted16 reader) item
      let moved ← Flatten.ofExcept (rows.mapM move)
      return some { item with info := write moved } : Flatten (Option Attribute)) bench =
        .ok item' last) :
    item.MovesRows (Reader.counted16 reader) moves item' := by
  obtain ⟨rows, _, reading, moving⟩ := bind_eq_ok_iff.1 carried
  obtain ⟨⟨rest, reads⟩, rfl⟩ := readBody_eq_ok_iff.1 reading
  obtain ⟨rows', _, succeeded, ended⟩ := bind_eq_ok_iff.1 moving
  obtain ⟨moved, rfl⟩ := ofExcept_eq_ok_iff.1 succeeded
  obtain ⟨rfl, rfl⟩ := pure_eq_ok_iff.1 ended
  have related := Outcome.forall₂_of_mapM moved
  have few := (Reader.gives_counted16 (fun _ _ _ _ => trivial) _ _ _ reads :
    rows.length ≤ 65535 ∧ ∀ row ∈ rows, True).1
  exact ⟨rows, rest, rows', _, reads, rfl, readBack rows' (related.length_eq ▸ few),
    related.imp each⟩

variable {code : FlattenedCode} {item : Attribute} {item' : Option Attribute}
  {bench last : Workbench}

theorem movesRows_of_lineNumberTable {moves : LineNumber → LineNumber → Prop}
    (each : ∀ entry entry', code.frameMap.relocation.moveLine entry = .ok entry' →
      moves entry entry')
    (isTable : bench.pool.text? item.name = some Attribute.lineNumberTableName)
    (succeeded : code.carryAttribute item bench = .ok item' last) :
    item.MovesRows LineNumber.readTable moves item' := by
  obtain ⟨_, _, ⟨⟩, carried⟩ := bind_eq_ok_iff.1 succeeded
  rw [isTable, Option.getD_some, if_pos rfl] at carried
  exact movesRows_of_carried each (fun _ => LineNumber.readTable_tableBytes) carried

theorem movesRows_of_localVariableTable {moves : LocalVariable → LocalVariable → Prop}
    (each : ∀ row row', code.frameMap.relocation.moveVariable row = .ok row' → moves row row')
    {name : String} (isTable : bench.pool.text? item.name = some name)
    (isVariables : name = Attribute.localVariableTableName ∨
      name = Attribute.localVariableTypeTableName)
    (succeeded : code.carryAttribute item bench = .ok item' last) :
    item.MovesRows LocalVariable.readTable moves item' := by
  have notLines : name ≠ Attribute.lineNumberTableName := by
    rcases isVariables with rfl | rfl
    · decide
    · decide
  obtain ⟨_, _, ⟨⟩, carried⟩ := bind_eq_ok_iff.1 succeeded
  rw [isTable, Option.getD_some, if_neg notLines, if_pos isVariables] at carried
  exact movesRows_of_carried each (fun _ => LocalVariable.readTable_tableBytes) carried

end FlattenedCode

namespace MethodBody

/-- Tables follow the code: in the flattening of a body that was analyzed every range of an
exception covers what it covered, its handler is where the segment of its instruction
begins, and its type is kept; every source line has moved to the segment of its
instruction; and every local variable is live over the code it was live over. All
addresses are those in the new code, none of them cut off. -/
theorem flatten_moves_tables (find : ClassFinder) (oracle : Oracle) (classFile : ClassFile)
    (body : MethodBody) (flatArrays : Bool) {result : AnalysisResult}
    (analyzed : ((body.analyze classFile flatArrays).run find oracle).result = .ok result)
    (decoded : Code.decode body.code.code = .ok body.instructions.toList)
    {thisClass : UInt16} {bench last : Workbench} {code : CodeAttribute}
    (flattened : body.flatten thisClass result bench = .ok code last) :
    ∃ bounds prologue segments carried,
      body.Relocated bounds code.code prologue segments ∧
      List.Forall₂ (body.ExceptionMoves bounds prologue segments) body.code.exceptions
        code.exceptions ∧
      code.attributes = carried.filterMap id ∧
      List.Forall₂ (fun item item' => ∀ name, bench.pool.text? item.name = some name →
        (name = Attribute.lineNumberTableName →
          item.MovesRows LineNumber.readTable (body.LineMoves code.code segments) item') ∧
        (name = Attribute.localVariableTableName ∨ name = Attribute.localVariableTypeTableName →
          item.MovesRows LocalVariable.readTable (body.VariableMoves bounds prologue segments)
            item'))
        body.code.attributes carried := by
  rw [Inquiry.run_result] at analyzed
  obtain ⟨emission, relocation, forms, between, after, emitted, laidOut, isCode, assembled, _,
    conversions, isPrologue, each⟩ := flatten_spec analyzed flattened
  have relocated := assembled.relocated (wellFormed_of_decode decoded)
    (isPrologue ▸ Emission.ConvertsSlot.flatten_plain each)
  rw [← isCode] at relocated
  obtain ⟨_, _, _, carried, _, _, emitted', laidOut', _, moves, carries, isFlat⟩ :=
    flatten_cases flattened
  cases emitted.symm.trans emitted'
  cases laidOut.symm.trans laidOut'
  obtain ⟨layOutGrows, ensures⟩ := emission.layOut_spec body.addresses body.code.code.length
  obtain ⟨relocates, few⟩ := ensures _ _ _ laidOut
  have begins := (Emission.additive_ofBody body result.registry _ _ _ emitted).trans
    (layOutGrows _ _ _ laidOut)
  refine ⟨_, _, _, carried, relocated, ?_, congrArg CodeAttribute.attributes isFlat, ?_⟩
  · refine (Outcome.forall₂_mem (Outcome.forall₂_of_mapM moves)).imp ?_
    rintro entry entry' ⟨isEntry, moved⟩
    exact exceptionMoves_of_moveException relocates relocated few decoded
      (fun isThere => exists_instruction_of_handler analyzed isThere isEntry) moved
  · refine mapM_between_spec (FlattenedCode.additive_carryAttribute _) ?_ begins carries
      (ConstantPool.Grows.refl _)
    intro item bench' item' last' grown succeeded _ name isName
    constructor
    · rintro rfl
      exact FlattenedCode.movesRows_of_lineNumberTable
        (fun _ _ => lineMoves_of_moveLine relocates relocated few) (grown.text? isName) succeeded
    · intro isVariables
      exact FlattenedCode.movesRows_of_localVariableTable
        (fun _ _ => variableMoves_of_moveVariable relocates relocated few decoded)
        (grown.text? isName) isVariables succeeded

/-- `choose` with a handler for its first instructions, source lines and a local variable
that is live up to the end. -/
def chooseTabled : MethodBody :=
  { choose with code := { choose.code with
      exceptions := [⟨0, 8, 10, 0⟩]
      attributes := [⟨7, LineNumber.tableBytes [⟨0, 10⟩, ⟨8, 11⟩]⟩,
        ⟨8, LocalVariable.tableBytes [⟨2, 13, 3, 4, 0⟩]⟩] } }

/-- `ClassFile.pair` with the names of the tables. -/
def tabledPair : ClassFile :=
  { ClassFile.pair with pool := {
      size := 9
      entries := ClassFile.pair.pool.entries ++
        #[.utf8 (Bytes.ofText Attribute.lineNumberTableName),
          .utf8 (Bytes.ofText Attribute.localVariableTableName)] } }

/-- The tables of `chooseTabled` after flattening. -/
theorem flatten_moves_tables_choose : ∃ result code last bounds prologue segments lines locals,
    ((chooseTabled.analyze tabledPair true).run (fun _ => .absent) (.knowing "V")).result =
      .ok result ∧
    Code.decode chooseTabled.code.code = .ok chooseTabled.instructions.toList ∧
    chooseTabled.flatten 2 result { pool := tabledPair.pool } = .ok code last ∧
    chooseTabled.Relocated bounds code.code prologue segments ∧
    List.Forall₂ (chooseTabled.ExceptionMoves bounds prologue segments) [⟨0, 8, 10, 0⟩]
      code.exceptions ∧
    code.attributes = [lines, locals].filterMap id ∧
    Attribute.MovesRows LineNumber.readTable (chooseTabled.LineMoves code.code segments)
      ⟨7, LineNumber.tableBytes [⟨0, 10⟩, ⟨8, 11⟩]⟩ lines ∧
    Attribute.MovesRows LocalVariable.readTable
      (chooseTabled.VariableMoves bounds prologue segments)
      ⟨8, LocalVariable.tableBytes [⟨2, 13, 3, 4, 0⟩]⟩ locals := by
  have analyzed : ∃ result,
      ((chooseTabled.analyze tabledPair true).run (fun _ => .absent) (.knowing "V")).result =
        .ok result ∧
        (Flatten.attempt (chooseTabled.flatten 2 result)
          { pool := tabledPair.pool }).toOption.any (fun _ => true) = true := by
    apply Outcome.exists_of_any
    rw [Inquiry.run_result, Oracle.answer_knowing]
    decide +kernel
  have isLines : tabledPair.pool.text? 7 = some Attribute.lineNumberTableName := by
    decide +kernel
  have isVariables : tabledPair.pool.text? 8 = some Attribute.localVariableTableName := by
    decide +kernel
  obtain ⟨result, analyzed, flattens⟩ := analyzed
  obtain ⟨⟨code, last⟩, flattened, _⟩ := Outcome.exists_of_any _ flattens
  have flattened := Flatten.attempt_eq_ok_iff.1 flattened
  obtain ⟨bounds, prologue, segments, carried, relocated, moved, isAttributes, each⟩ :=
    flatten_moves_tables _ _ _ _ _ analyzed decode_choose flattened
  obtain ⟨lines, _, movedLines, others, rfl⟩ := List.forall₂_cons_left_iff.1 each
  obtain ⟨locals, _, movedVariables, noMore, rfl⟩ := List.forall₂_cons_left_iff.1 others
  cases noMore
  exact ⟨result, code, last, bounds, prologue, segments, lines, locals, analyzed,
    decode_choose, flattened, relocated, moved, isAttributes,
    (movedLines _ isLines).1 rfl, (movedVariables _ isVariables).2 (.inl rfl)⟩

end MethodBody

end ValueForm
