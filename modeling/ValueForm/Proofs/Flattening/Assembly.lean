import ValueForm.Proofs.Flattening.Relocation
import ValueForm.Proofs.Flattening.Tables

/-!
# Segments put together

What a segment consists of once branches have their new offsets, and how the
segments of a flattened body make up its code.
-/

namespace ValueForm

namespace Instruction.Redirected

variable {start stop : Nat} {instruction : Instruction} {targets : List Nat}
  {form : List Instruction}

theorem instructionsEnd_eq (redirected : Redirected start stop instruction targets form) :
    Emission.instructionsEnd start form = stop := by
  cases redirected with
  | moved _ _ ends => exact ends
  | goto _ ends => exact ends
  | jsr _ ends => exact ends
  | branch _ _ ends => exact ends

theorem ne_nil (redirected : Redirected start stop instruction targets form) : form ≠ [] := by
  cases redirected <;> exact List.cons_ne_nil _ _

theorem wellFormed (redirected : Redirected start stop instruction targets form)
    (isWellFormed : instruction.WellFormed) : ∀ part ∈ form, part.WellFormed := by
  intro part isPart
  cases redirected with
  | moved same =>
      rw [List.mem_singleton.1 isPart]
      exact same.wellFormed isWellFormed
  | goto | jsr =>
      rw [List.mem_singleton.1 isPart]
      trivial
  | branch =>
      rcases List.mem_pair.1 isPart with rfl | rfl
      · trivial
      · trivial

/-- A branch in its place jumps to its targets. Only a conditional branch in its
long form jumps to its end too. -/
theorem target_cases (redirected : Redirected start stop instruction targets form)
    {located : Located} (isPart : located ∈ Code.locate start form) {target : Int}
    (isTarget : target ∈ located.targets) :
    (target = stop ∧ start + 8 = stop ∧ ∃ test offset, instruction = .branch test offset) ∨
      ∃ other ∈ targets, target = other := by
  cases redirected with
  | moved same reaches =>
      cases List.mem_singleton.1 isPart
      rw [reaches] at isTarget
      rcases List.mem_map.1 isTarget with ⟨other, isOther, rfl⟩
      exact .inr ⟨other, isOther, rfl⟩
  | goto reaches =>
      cases List.mem_singleton.1 isPart
      cases List.mem_singleton.1 isTarget
      exact .inr ⟨_, List.mem_singleton_self _, reaches⟩
  | jsr reaches =>
      cases List.mem_singleton.1 isPart
      cases List.mem_singleton.1 isTarget
      exact .inr ⟨_, List.mem_singleton_self _, reaches⟩
  | branch skips reaches ends =>
      rcases List.mem_pair.1 isPart with rfl | rfl
      · cases List.mem_singleton.1 isTarget
        refine .inl ⟨?_, ends, _, _, rfl⟩
        dsimp only
        rw [Int16.toInt_toInt32]
        exact skips
      · cases List.mem_singleton.1 isTarget
        exact .inr ⟨_, List.mem_singleton_self _, reaches⟩

end Instruction.Redirected

/-- A part of a segment that is no branch. -/
theorem Conversion.Emitted.plain {pool : ConstantPool} {conversion : Conversion}
    {instruction : Instruction} (emitted : conversion.Emitted pool instruction) :
    instruction.isBranch = false ∧ instruction.WellFormed := by
  cases emitted with
  | box => exact ⟨rfl, trivial⟩
  | unbox => exact ⟨rfl, trivial⟩

theorem Counterpart.Emitted.plain {pool : ConstantPool} {located : Located}
    {counterpart : Counterpart} {piece : Piece} (emitted : counterpart.Emitted pool located piece)
    (isPlain : located.instruction.isBranch = false) :
    ∃ instruction, piece = .fixed instruction ∧ instruction.isBranch = false ∧
      (located.instruction.WellFormed → instruction.WellFormed) := by
  cases emitted with
  | kept =>
      refine ⟨located.instruction, ?_, isPlain, id⟩
      rw [Piece.keep, isPlain]
      rfl
  | _ => exact ⟨_, rfl, rfl, fun _ => trivial⟩

theorem Plan.Emitted.plain {pool : ConstantPool} {located : Located} {plan : Plan}
    {before after : List Instruction} {main : Piece}
    (emitted : plan.Emitted pool located before main after)
    (isPlain : located.instruction.isBranch = false) :
    ∃ instruction, main = .fixed instruction ∧ ∀ part ∈ before ++ instruction :: after,
      part.isBranch = false ∧ (located.instruction.WellFormed → part.WellFormed) := by
  have converts {conversions : List Conversion} {instructions : List Instruction}
      (each : List.Forall₂ (Conversion.Emitted pool) conversions instructions) :
      ∀ part ∈ instructions, part.isBranch = false ∧ part.WellFormed := by
    intro part isPart
    rcases Outcome.exists_of_mem_forall₂ each isPart with ⟨conversion, _, isEmitted⟩
    exact isEmitted.plain
  rcases emitted.main.plain isPlain with ⟨instruction, rfl, noBranch, wellFormed⟩
  refine ⟨instruction, rfl, ?_⟩
  intro part isPart
  rcases List.mem_append.1 isPart with isBefore | isMain
  · rcases converts emitted.before part isBefore with ⟨partPlain, partFormed⟩
    exact ⟨partPlain, fun _ => partFormed⟩
  · rcases List.mem_cons.1 isMain with rfl | isAfter
    · exact ⟨noBranch, wellFormed⟩
    · rcases converts emitted.after part isAfter with ⟨partPlain, partFormed⟩
      exact ⟨partPlain, fun _ => partFormed⟩

namespace Emission.IsSegment

variable {pool later : ConstantPool} {registry : Registry} {index : Nat} {located : Located}
  {pieces : List Piece}

/-- A branch takes no decision, so it is alone in its segment. -/
theorem of_branch (isSegment : IsSegment later registry index located pieces)
    (fits : (registry.plan index located.instruction).Fits pool located.instruction)
    (isBranch : located.instruction.isBranch = true) :
    pieces = [.branch located.instruction located.address] := by
  rcases isSegment with ⟨before, main, after, rfl, emittedBefore, emittedMain, emittedAfter⟩
  rw [fits.branch isBranch] at emittedBefore emittedMain emittedAfter
  cases emittedBefore
  cases emittedMain
  cases emittedAfter
  rw [Piece.keep, if_pos isBranch]
  rfl

theorem of_plain (isSegment : IsSegment later registry index located pieces)
    (isPlain : located.instruction.isBranch = false) :
    ∃ before main after, pieces = (before ++ main :: after).map .fixed ∧
      (registry.plan index located.instruction).Emitted later located before (.fixed main)
        after := by
  rcases isSegment with ⟨before, main, after, rfl, emitted⟩
  rcases emitted.plain isPlain with ⟨instruction, rfl, _⟩
  exact ⟨before, instruction, after, by rw [List.map_append, List.map_cons], emitted⟩

end Emission.IsSegment

/-! ## Segments -/

/-- What stands for an instruction between two addresses. -/
inductive SegmentForm (body : MethodBody) (pool : ConstantPool) (bounds : Array Nat)
    (located : Located) (plan : Plan) (start stop : Nat) : List Instruction → Prop
  | branch {targets : List Nat} {form : List Instruction}
      (isBranch : located.instruction.isBranch = true)
      (moves : List.Forall₂ (fun offset target =>
        body.MovesTo bounds (located.address + offset.toInt) target)
        located.instruction.branchOffsets targets)
      (redirected : located.instruction.Redirected start stop targets form) :
      SegmentForm body pool bounds located plan start stop form
  | plain {before after : List Instruction} {main : Instruction}
      (isPlain : located.instruction.isBranch = false)
      (emitted : plan.Emitted pool located before (.fixed main) after)
      (ends : Emission.instructionsEnd start (before ++ main :: after) = stop) :
      SegmentForm body pool bounds located plan start stop (before ++ main :: after)

namespace SegmentForm

variable {body : MethodBody} {pool : ConstantPool} {bounds : Array Nat} {located : Located}
  {plan : Plan} {start stop : Nat} {form : List Instruction}

theorem instructionsEnd_eq (segment : SegmentForm body pool bounds located plan start stop form) :
    Emission.instructionsEnd start form = stop := by
  cases segment with
  | branch _ _ redirected => exact redirected.instructionsEnd_eq
  | plain _ _ ends => exact ends

theorem ne_nil (segment : SegmentForm body pool bounds located plan start stop form) :
    form ≠ [] := by
  cases segment with
  | branch _ _ redirected => exact redirected.ne_nil
  | plain => exact List.append_ne_nil_of_right_ne_nil _ (List.cons_ne_nil _ _)

theorem wellFormed (segment : SegmentForm body pool bounds located plan start stop form)
    (isWellFormed : located.instruction.WellFormed) : ∀ part ∈ form, part.WellFormed := by
  cases segment with
  | branch _ _ redirected => exact redirected.wellFormed isWellFormed
  | plain isPlain emitted =>
      rcases emitted.plain isPlain with ⟨_, ⟨⟩, each⟩
      exact fun part isPart => (each part isPart).2 isWellFormed

/-- Jumps in a segment lead to its end or to where an instruction has moved. -/
theorem target_cases (segment : SegmentForm body pool bounds located plan start stop form)
    {part : Located} (isPart : part ∈ Code.locate start form) {target : Int}
    (isTarget : target ∈ part.targets) :
    target = stop ∨ ∃ (index address : Nat), bounds[index]? = some address ∧ target = address := by
  cases segment with
  | branch _ moves redirected =>
      rcases redirected.target_cases isPart isTarget with ⟨atStop, _⟩ | ⟨other, isOther, same⟩
      · exact .inl atStop
      · rcases Outcome.exists_of_mem_forall₂ moves isOther with ⟨_, _, index, _, _, _, atIndex⟩
        exact .inr ⟨index, other, atIndex, same⟩
  | plain isPlain emitted =>
      rcases emitted.plain isPlain with ⟨_, ⟨⟩, each⟩
      have noBranch := (each part.instruction (Code.mem_of_mem_locate isPart)).1
      rw [Located.targets, Instruction.branchOffsets_of_not_branch noBranch] at isTarget
      cases isTarget

end SegmentForm

namespace Relocation

variable {relocation : Relocation} {body : MethodBody} {pool : ConstantPool} {registry : Registry}

theorem moveSegment_fixed (widened : Bool) (address : Nat) (done : List (List Instruction))
    (instructions : List Instruction) :
    relocation.moveSegment widened address done (instructions.map .fixed) =
      .ok (done.reverse.flatten ++ instructions) := by
  induction instructions generalizing address done with
  | nil => rw [List.map_nil, moveSegment, List.append_nil]
  | cons instruction rest ih =>
      rw [List.map_cons, moveSegment]
      exact (ih _ _).trans (by simp)

@[simp]
theorem moveSegment_branch (widened : Bool) (address source : Nat) (instruction : Instruction) :
    relocation.moveSegment widened address [] [.branch instruction source] =
      relocation.moveBranch widened address source instruction := by
  rw [moveSegment]
  cases relocation.moveBranch widened address source instruction with
  | error error => rfl
  | ok form => exact congrArg Except.ok (List.append_nil form)

/-- What a segment consists of after its branches have moved. -/
theorem segmentForm_of_moveSegment (isOwn : relocation.addresses = body.addresses) {index : Nat}
    {located : Located} {pieces : List Piece} {widened : Bool} {start : Nat}
    {form : List Instruction}
    (fits : (registry.plan index located.instruction).Fits pool located.instruction)
    {later : ConstantPool} (isSegment : Emission.IsSegment later registry index located pieces)
    (moved : relocation.moveSegment widened start [] pieces = .ok form) :
    SegmentForm body later relocation.layout.bounds located
      (registry.plan index located.instruction) start (Emission.segmentEnd widened start pieces)
      form := by
  cases isBranch : located.instruction.isBranch with
  | true =>
      cases isSegment.of_branch fits isBranch
      rcases moveBranch_spec isBranch ((moveSegment_branch _ _ _ _).symm.trans moved) with
        ⟨targets, each, redirected⟩
      exact .branch isBranch (each.imp fun _ _ => movesTo_of_target isOwn) redirected
  | false =>
      rcases isSegment.of_plain isBranch with ⟨before, main, after, rfl, emitted⟩
      rw [moveSegment_fixed] at moved
      cases moved
      exact .plain isBranch emitted (Emission.segmentEnd_fixed _ _ _).symm

end Relocation

/-! ## Bodies -/

/-- The segments of a body stand back to back behind the prologue. -/
structure MethodBody.Assembled (body : MethodBody) (pool : ConstantPool) (registry : Registry)
    (bounds : Array Nat) (prologue : List Instruction) (forms : List (List Instruction)) :
    Prop where
  length : forms.length = body.instructions.size
  size : bounds.size = body.instructions.size + 1
  first : bounds[0]? = some (Emission.instructionsEnd 0 prologue)
  segment : ∀ (index : Nat) (located : Located), body.instructions[index]? = some located →
    ∃ form start stop, forms[index]? = some form ∧ bounds[index]? = some start ∧
      bounds[index + 1]? = some stop ∧
      SegmentForm body pool bounds located (registry.plan index located.instruction) start stop
        form

namespace Emission

theorem LaidOut.starts {emission : Emission} {layout : Layout}
    (laidOut : emission.LaidOut layout) {index start : Nat} {pieces : List Piece}
    (found : emission.segments[index]? = some pieces)
    (atIndex : layout.bounds[index]? = some start) : layout.starts[index]? = some start := by
  have inRange := (Array.getElem?_eq_some_iff.1 found).1
  have size := laidOut.size
  rw [Layout.bounds, Array.size_push] at size
  rw [Layout.bounds, Array.getElem?_push, if_neg (by omega)] at atIndex
  exact atIndex

/-- Putting together what was emitted for a body. -/
theorem assemble_spec {emission : Emission} {relocation : Relocation} {body : MethodBody}
    {registry : Registry} {pool later : ConstantPool} {instructions : List Instruction}
    {oldLength : Nat} (relocates : emission.Relocates body.addresses oldLength relocation)
    (size : emission.segments.size = body.instructions.size)
    (each : ∀ (index : Nat) (located : Located), body.instructions[index]? = some located →
      ∃ pieces, emission.segments[index]? = some pieces ∧
        IsSegment later registry index located pieces)
    (fits : ∀ (index : Nat) (located : Located), body.instructions[index]? = some located →
      (registry.plan index located.instruction).Fits pool located.instruction)
    (assembled : emission.assemble relocation = .ok instructions) :
    ∃ forms, instructions = emission.prologue ++ forms.flatten ∧
      body.Assembled later registry relocation.layout.bounds emission.prologue forms := by
  rcases Outcome.bind_eq_ok_iff.1 assembled with ⟨forms, moved, ended⟩
  cases ended
  have related := Outcome.forall₂_of_mapM moved
  refine ⟨forms, rfl, ?_, ?_, relocates.laidOut.first, ?_⟩
  · rw [← related.length_eq, List.length_zipIdx, Array.length_toList, size]
  · rw [relocates.laidOut.size, size]
  · intro index located atIndex
    rcases each index located atIndex with ⟨pieces, found, isSegment⟩
    rcases relocates.laidOut.next index pieces found with ⟨start, long, isStart, isLong, isStop⟩
    have numbered : emission.segments.toList.zipIdx[index]? = some (pieces, index) := by
      rw [List.getElem?_zipIdx, Array.getElem?_toList, found, Option.map_some, Nat.zero_add]
    rcases Outcome.getElem?_of_forall₂ related numbered with ⟨form, atForm, moves⟩
    dsimp only at moves
    rw [isLong, relocates.laidOut.starts found isStart] at moves
    exact ⟨form, start, _, atForm, isStart, isStop,
      Relocation.segmentForm_of_moveSegment relocates.addresses (fits index located atIndex)
        isSegment moves⟩

end Emission

/-- What the flattening of a body does, step by step. -/
theorem MethodBody.flatten_cases {body : MethodBody} {result : AnalysisResult}
    {thisClass : UInt16} {bench last : Workbench} {code : CodeAttribute}
    (flattened : body.flatten thisClass result bench = .ok code last) :
    ∃ emission relocation instructions carried between after,
      Emission.ofBody body result.registry bench = .ok emission between ∧
      emission.layOut body.addresses body.code.code.length between = .ok relocation after ∧
      emission.assemble relocation = .ok instructions ∧
      body.code.exceptions.mapM relocation.moveException = .ok code.exceptions ∧
      body.code.attributes.mapM (FlattenedCode.carryAttribute
        ⟨⟨body, result, relocation⟩, thisClass, emission.newTargets relocation.layout⟩) after =
        .ok carried last ∧
      code = {
        maxStack := max body.code.maxStack (if emission.prologue.isEmpty then 0 else 1)
        maxLocals := body.code.maxLocals
        code := Code.encode instructions
        exceptions := code.exceptions
        attributes := carried.filterMap id } := by
  rcases Flatten.bind_eq_ok_iff.1 flattened with ⟨emission, between, emitted, layingOut⟩
  rcases Flatten.bind_eq_ok_iff.1 layingOut with ⟨relocation, after, laidOut, assembling⟩
  rcases Flatten.bind_eq_ok_iff.1 assembling with ⟨instructions, _, succeeded, moving⟩
  rcases Flatten.ofExcept_eq_ok_iff.1 succeeded with ⟨assembled, rfl⟩
  rcases Flatten.bind_eq_ok_iff.1 moving with ⟨exceptions, _, moved, carrying⟩
  rcases Flatten.ofExcept_eq_ok_iff.1 moved with ⟨moves, rfl⟩
  rcases Flatten.bind_eq_ok_iff.1 carrying with ⟨carried, _, carries, ended⟩
  rcases Flatten.pure_eq_ok_iff.1 ended with ⟨rfl, rfl⟩
  exact ⟨emission, relocation, instructions, carried, between, _, emitted, laidOut, assembled,
    moves, carries, rfl⟩

/-- Flattening only interns constants. -/
theorem MethodBody.interns_of_flatten {body : MethodBody} {thisClass : UInt16}
    {result : AnalysisResult} {bench last : Workbench} {code : CodeAttribute}
    (flattened : body.flatten thisClass result bench = .ok code last) :
    bench.pool.Interns last.pool := by
  rcases flatten_cases flattened with
    ⟨emission, _, _, _, _, _, emitted, laidOut, _, _, carries, _⟩
  have first := Emission.interning_ofBody body result.registry _ _ _ emitted
  have second := emission.interning_layOut _ _ _ _ _ laidOut
  exact (first.trans second).trans
    (Flatten.interning_mapM (FlattenedCode.interning_carryAttribute _) _ _ _ _ carries)

/-- What the flattening of a body that was analyzed ends with. -/
theorem MethodBody.flatten_spec {answers : String → Except OracleError Bool}
    {classFile : ClassFile} {body : MethodBody} {flatArrays : Bool} {result : AnalysisResult}
    (analyzed : (body.analyze classFile flatArrays).eval answers = .ok result)
    {thisClass : UInt16} {bench last : Workbench} {code : CodeAttribute}
    (flattened : body.flatten thisClass result bench = .ok code last) :
    ∃ emission relocation forms between after,
      Emission.ofBody body result.registry bench = .ok emission between ∧
      emission.layOut body.addresses body.code.code.length between = .ok relocation after ∧
      code.code = Code.encode (emission.prologue ++ forms.flatten) ∧
      body.Assembled last.pool result.registry relocation.layout.bounds emission.prologue forms ∧
      bench.pool.Grows last.pool ∧
      ∃ conversions, emission.prologue = conversions.flatten ∧
        List.Forall₂ (fun entry => Emission.ConvertsSlot last.pool entry.1 entry.2.1)
          (result.registry.entryConversions.filter fun (_, _, forced) => !forced)
          conversions := by
  rcases flatten_cases flattened with
    ⟨emission, relocation, instructions, carried, between, after, emitted, laidOut, assembled, _,
      carries, isCode⟩
  -- Constants are only added, so what was named while emitting is named in the
  -- pool at the end.
  have growsLast := Flatten.additive_mapM (FlattenedCode.additive_carryAttribute _) _ _ _ _ carries
  rcases emission.layOut_spec body.addresses body.code.code.length with ⟨additive, ensures⟩
  have grows := (additive _ _ _ laidOut).trans growsLast
  rcases Emission.ofBody_spec emitted grows with ⟨conversions, size, each⟩
  rcases Emission.assemble_spec (ensures _ _ _ laidOut).1 size each
    (fun _ _ atIndex => plan_fits analyzed atIndex) assembled with ⟨forms, rfl, isAssembled⟩
  exact ⟨emission, relocation, forms, between, after, emitted, laidOut,
    congrArg CodeAttribute.code isCode, isAssembled,
    (Emission.additive_ofBody body result.registry _ _ _ emitted).trans grows, conversions⟩

end ValueForm
