import ValueForm.Proofs.Flattening.ControlFlow

/-!
# Flattened code without its conversions

Flattening swaps instructions for their counterparts in value form and inserts
conversions, and does nothing else. Erasing the prologue and the conversions and
reading counterparts as what they replace gives back the body.
-/

namespace ValueForm

@[simp]
theorem Instruction.localLoad?_loadReference (slot : UInt16) :
    (loadReference slot).localLoad? = some (.reference, slot) := by
  unfold loadReference
  split
  · exact congrArg (fun slot => some (LocalKind.reference, slot)) (UInt16.ofNat_toNat)
  · exact congrArg (fun slot => some (LocalKind.reference, slot)) (SlotOperand.slot_shortest slot)

/-! ## The prologue -/

namespace Registry

variable {registry : Registry}

/-- Conversions at entry are recorded at the sites of their slots and nowhere
else. -/
structure Enters (registry : Registry) : Prop where
  entry : ∀ slot patch, registry.get? (.entry slot) = some patch →
    patch.action = .entryUnbox slot
  instruction : ∀ index patch slot, registry.get? (.instruction index) = some patch →
    patch.action ≠ .entryUnbox slot

/-- The slots converted at entry whose references are not kept, with their
classes. -/
def unboxedSlots (registry : Registry) : List (UInt16 × String) :=
  (registry.entryConversions.filter fun (_, _, forced) => !forced).map fun (slot, className, _) =>
    (slot, className)

theorem Enters.eq_entry (enters : registry.Enters) {site : Site} {patch : Patch} {slot : UInt16}
    (found : registry.get? site = some patch) (isEntry : patch.action = .entryUnbox slot) :
    site = .entry slot := by
  cases site with
  | entry other =>
      cases (enters.entry other patch found).symm.trans isEntry
      rfl
  | instruction index => exact absurd isEntry (enters.instruction index patch slot found)

/-- A patch that is converted at entry is that of the slot. -/
theorem Enters.entry_of_match (enters : registry.Enters) {site : Site} {patch : Patch}
    {entry : UInt16 × String × Bool} (isPatch : (site, patch) ∈ registry.toList)
    (isEntry : (match patch.action with
      | .entryUnbox slot => some (slot, patch.className, patch.forced)
      | _ => none) = some entry) :
    site = .entry entry.1 ∧ registry.get? (.entry entry.1) = some patch ∧
      patch.className = entry.2.1 ∧ patch.forced = entry.2.2 := by
  have found : registry.get? site = some patch :=
    Std.TreeMap.mem_toList_iff_getElem?_eq_some.1 isPatch
  split at isEntry
  · next action =>
      cases isEntry
      cases enters.eq_entry found action
      exact ⟨rfl, found, rfl, rfl⟩
  · cases isEntry

theorem mem_entryConversions (enters : registry.Enters) {slot : UInt16} {className : String}
    {forced : Bool} :
    (slot, className, forced) ∈ registry.entryConversions ↔ ∃ patch,
      registry.get? (.entry slot) = some patch ∧ patch.className = className ∧
        patch.forced = forced := by
  rw [entryConversions, List.mem_filterMap]
  constructor
  · rintro ⟨⟨site, patch⟩, isPatch, isEntry⟩
    exact ⟨patch, (enters.entry_of_match isPatch isEntry).2⟩
  · rintro ⟨patch, found, rfl, rfl⟩
    refine ⟨(.entry slot, patch), ?_, ?_⟩
    · exact Std.TreeMap.mem_toList_iff_getElem?_eq_some.2 found
    · dsimp only
      rw [enters.entry slot patch found]

theorem pairwise_entryConversions (enters : registry.Enters) :
    registry.entryConversions.Pairwise fun first second => first.1 < second.1 := by
  rw [entryConversions, List.pairwise_filterMap]
  refine Std.TreeMap.ordered_keys_toList.imp_of_mem ?_
  rintro ⟨site, patch⟩ ⟨site', patch'⟩ isPatch isPatch' ordered entry isEntry entry' isEntry'
  rcases enters.entry_of_match isPatch isEntry with ⟨rfl, _⟩
  rcases enters.entry_of_match isPatch' isEntry' with ⟨rfl, _⟩
  -- The rank of an entry site is its slot.
  rw [Site.compare_eq, Nat.compare_eq_lt] at ordered
  exact UInt16.lt_iff_toNat_lt.2 ordered

/-- The slots converted at entry are those whose site is not forced. -/
theorem mem_unboxedSlots (enters : registry.Enters) {slot : UInt16} {className : String} :
    (slot, className) ∈ registry.unboxedSlots ↔ ∃ patch,
      registry.get? (.entry slot) = some patch ∧ patch.className = className ∧
        patch.forced = false := by
  rw [unboxedSlots, List.mem_map]
  constructor
  · rintro ⟨⟨slot', className', forced⟩, isEntry, same⟩
    cases same
    rcases List.mem_filter.1 isEntry with ⟨isEntry, free⟩
    rcases (mem_entryConversions enters).1 isEntry with ⟨patch, found, isClass, rfl⟩
    exact ⟨patch, found, isClass, by simpa using free⟩
  · rintro ⟨patch, found, isClass, free⟩
    refine ⟨(slot, className, false), List.mem_filter.2 ⟨?_, rfl⟩, rfl⟩
    exact (mem_entryConversions enters).2 ⟨patch, found, isClass, free⟩

theorem pairwise_unboxedSlots (enters : registry.Enters) :
    registry.unboxedSlots.Pairwise fun first second => first.1 < second.1 := by
  rw [unboxedSlots, List.pairwise_map]
  exact (pairwise_entryConversions enters).filter _

end Registry

/-- After an analysis, conversions at entry are recorded at the sites of their
slots. -/
theorem MethodBody.enters {answers : String → Except OracleError Bool} {classFile : ClassFile}
    {body : MethodBody} {flatArrays : Bool} {result : AnalysisResult}
    (analyzed : (body.analyze classFile flatArrays).eval answers = .ok result) :
    result.registry.Enters := by
  constructor
  · intro slot patch found
    rcases analyze_spec analyzed with ⟨_, rfl⟩ | ⟨_, _, _, _, _, _, _, invariant, _⟩
    · rw [Registry.get?_empty] at found
      cases found
    · exact (invariant.grounded.entered slot patch found).1
  · intro index patch slot found isEntry
    rcases decision_cases analyzed found with retired | ⟨located, _, _, records⟩
    · cases retired.1.symm.trans isEntry
    · rw [isEntry] at records
      generalize located.instruction = instruction at records
      cases records

/-- The conversion of a slot at entry: load the reference, unbox it, and store
the value in its place. -/
inductive OpensSlot (pool : ConstantPool) : UInt16 × String → List Instruction → Prop
  | opens {slot index : UInt16} {className : String} {load : Instruction}
      {operand : SlotOperand} (loads : load.localLoad? = some (.reference, slot))
      (named : pool.NamesClass index (valueClassName className))
      (stores : operand.slot = slot) :
      OpensSlot pool (slot, className) [load, .unbox index, .valueStore operand]

theorem Emission.ConvertsSlot.opensSlot {pool : ConstantPool} {slot : UInt16} {className : String}
    {instructions : List Instruction} (converts : ConvertsSlot pool slot className instructions) :
    OpensSlot pool (slot, className) instructions := by
  rcases converts with ⟨index, rfl, named⟩
  exact .opens (Instruction.localLoad?_loadReference slot) named (SlotOperand.slot_shortest slot)

/-! ## The segments -/

/-- Nothing, or one conversion. -/
inductive AtMostOneConversion : List Instruction → Prop
  | nothing : AtMostOneConversion []
  | box {index : UInt16} : AtMostOneConversion [.box index]
  | unbox {index : UInt16} : AtMostOneConversion [.unbox index]

theorem Conversion.atMostOne {pool : ConstantPool} {conversion? : Option Conversion}
    {instructions : List Instruction}
    (each : List.Forall₂ (Conversion.Emitted pool) conversion?.toList instructions) :
    AtMostOneConversion instructions := by
  cases conversion? with
  | none =>
      cases each
      exact .nothing
  | some conversion =>
      rcases List.forall₂_cons_left_iff.1 each with ⟨instruction, rest, emitted, noMore, rfl⟩
      cases noMore
      cases emitted with
      | box => exact .box
      | unbox => exact .unbox

/-- An instruction, or its counterpart in value form. Constants of the
instruction are those of `old`, and constants of its counterpart those of
`new`. -/
inductive StandsFor (body : MethodBody) (old new : ConstantPool) (bounds : Array Nat)
    (located : Located) (start stop : Nat) : List Instruction → Prop
  | kept (isPlain : located.instruction.isBranch = false) :
      StandsFor body old new bounds located start stop [located.instruction]
  | branch {targets : List Nat} {form : List Instruction}
      (moves : List.Forall₂ (fun offset target =>
        body.MovesTo bounds (located.address + offset.toInt) target)
        located.instruction.branchOffsets targets)
      (redirected : located.instruction.Redirected start stop targets form) :
      StandsFor body old new bounds located start stop form
  | loadValue {slot : UInt16} {operand : SlotOperand}
      (reads : located.instruction.localLoad? = some (.reference, slot))
      (same : operand.slot = slot) :
      StandsFor body old new bounds located start stop [.valueLoad operand]
  | storeValue {slot : UInt16} {operand : SlotOperand}
      (writes : located.instruction.localStore? = some (.reference, slot))
      (same : operand.slot = slot) :
      StandsFor body old new bounds located start stop [.valueStore operand]
  | loadElement (isLoad : located.instruction = .arrayLoad .reference) :
      StandsFor body old new bounds located start stop [.valueArrayLoad]
  | storeElement (isStore : located.instruction = .arrayStore .reference) :
      StandsFor body old new bounds located start stop [.valueArrayStore]
  | createArray {index moved : UInt16} {className : String}
      (isCreation : located.instruction = .newReferenceArray index)
      (named : old.className? index = some className)
      (renamed : new.NamesClass moved (valueClassName className)) :
      StandsFor body old new bounds located start stop [.newReferenceArray moved]
  | readField {index moved : UInt16} {field : MemberRef}
      (isRead : located.instruction = .getField index)
      (member : old.member? index = some field)
      (renamed : new.NamesMember moved { field with owner := valueClassName field.owner }) :
      StandsFor body old new bounds located start stop [.getField moved]

/-- A counterpart that may take the place of an instruction stands for it. -/
theorem Counterpart.Emitted.standsFor {body : MethodBody} {old new : ConstantPool}
    {bounds : Array Nat} {located : Located} {counterpart : Counterpart} {main : Instruction}
    (emitted : counterpart.Emitted new located (.fixed main))
    (replaces : counterpart.Replaces old located.instruction) (grows : old.Grows new)
    (isPlain : located.instruction.isBranch = false) (start stop : Nat) :
    StandsFor body old new bounds located start stop [main] := by
  rcases located with ⟨address, instruction⟩
  generalize isPiece : Piece.fixed main = piece at emitted
  cases emitted with
  | kept =>
      rw [Piece.keep, if_neg (Bool.eq_false_iff.1 isPlain)] at isPiece
      cases isPiece
      exact .kept isPlain
  | loadValue =>
      cases isPiece
      cases replaces with
      | loadValue reads => exact .loadValue reads (SlotOperand.slot_shortest _)
  | storeValue =>
      cases isPiece
      cases replaces with
      | storeValue writes => exact .storeValue writes (SlotOperand.slot_shortest _)
  | readValue member named =>
      cases isPiece
      cases replaces with
      | readValue oldMember =>
          -- The member was looked up in the larger pool, where it is the same.
          cases (grows.member? oldMember).symm.trans member
          exact .readField rfl oldMember named
  | createArray named =>
      cases isPiece
      cases replaces with
      | createArray oldNamed => exact .createArray rfl oldNamed named
  | loadElement =>
      cases isPiece
      cases replaces
      exact .loadElement rfl
  | storeElement =>
      cases isPiece
      cases replaces
      exact .storeElement rfl

/-- What stands between two bounds is an instruction or its counterpart, with at
most one conversion on either side. -/
theorem SegmentForm.split {body : MethodBody} {old new : ConstantPool} {bounds : Array Nat}
    {located : Located} {plan : Plan} {start stop : Nat} {form : List Instruction}
    (segment : SegmentForm body new bounds located plan start stop form)
    (fits : plan.Fits old located.instruction) (grows : old.Grows new) :
    ∃ before main after, form = before ++ main ++ after ∧ AtMostOneConversion before ∧
      StandsFor body old new bounds located start stop main ∧ AtMostOneConversion after := by
  cases segment with
  | branch isBranch moves redirected =>
      exact ⟨[], form, [], by rw [List.nil_append, List.append_nil], .nothing,
        .branch moves redirected, .nothing⟩
  | @plain before after main isPlain emitted ends =>
      refine ⟨before, [main], after, by rw [List.append_assoc]; rfl, ?_, ?_, ?_⟩
      · exact Conversion.atMostOne emitted.before
      · exact emitted.main.standsFor fits.main grows isPlain start stop
      · exact Conversion.atMostOne emitted.after

namespace MethodBody

/-- The code of a body whose instructions were swapped for their counterparts,
with conversions between them. -/
structure Erases (body : MethodBody) (old new : ConstantPool) (registry : Registry)
    (bounds : Array Nat) (code : Bytes) (prologue : List Instruction)
    (segments : List (List Instruction)) : Prop where
  decodes : Code.decode code = .ok (Code.locate 0 (prologue ++ segments.flatten))
  /-- The slots converted at entry, in order, are those whose site has a decision
  and is not forced. -/
  opens : ∃ slots conversions, prologue = conversions.flatten ∧
    List.Forall₂ (OpensSlot new) slots conversions ∧
    slots.Pairwise (fun first second => first.1 < second.1) ∧
    ∀ slot className, (slot, className) ∈ slots ↔ ∃ patch,
      registry.get? (.entry slot) = some patch ∧ patch.className = className ∧
        patch.forced = false
  count : segments.length = body.instructions.size
  stands : ∀ (index : Nat) (located : Located) (segment : List Instruction),
    body.instructions[index]? = some located → segments[index]? = some segment →
    ∃ before main after start stop, segment = before ++ main ++ after ∧
      bounds[index]? = some start ∧ bounds[index + 1]? = some stop ∧
      AtMostOneConversion before ∧ StandsFor body old new bounds located start stop main ∧
      AtMostOneConversion after

/-- Flattening swaps instructions for their counterparts and inserts conversions,
and does nothing else. What constants of the flattened code stand for depends on
the pool having no more than 65535 entries in the end: entries behind those have
no index of their own. -/
theorem flatten_erases (find : ClassFinder) (oracle : Oracle) (classFile : ClassFile)
    (body : MethodBody) (flatArrays : Bool) {result : AnalysisResult}
    (analyzed : ((body.analyze classFile flatArrays).run find oracle).result = .ok result)
    (decoded : Code.decode body.code.code = .ok body.instructions.toList)
    {thisClass : UInt16} {notes : List Note} {last : Workbench} {code : CodeAttribute}
    (flattened : body.flatten thisClass result ⟨classFile.pool, notes⟩ = .ok code last) :
    ∃ emission relocation between after segments,
      Emission.ofBody body result.registry ⟨classFile.pool, notes⟩ = .ok emission between ∧
      emission.layOut body.addresses body.code.code.length between = .ok relocation after ∧
      body.Erases classFile.pool last.pool result.registry relocation.layout.bounds code.code
        emission.prologue segments := by
  rw [Inquiry.run_result] at analyzed
  rcases flatten_spec analyzed flattened with
    ⟨emission, relocation, forms, between, after, emitted, laidOut, isCode, assembled, grows,
      conversions, isPrologue, each⟩
  refine ⟨emission, relocation, between, after, forms, emitted, laidOut, ?_⟩
  have plain := Emission.ConvertsSlot.flatten_plain each
  have wellFormed := assembled.wellFormed (wellFormed_of_decode decoded) fun part isPart =>
    (plain part (isPrologue ▸ isPart)).2
  constructor
  · rw [isCode]
    exact Code.decode_encode wellFormed
  · refine ⟨result.registry.unboxedSlots, conversions, isPrologue, ?_, ?_, ?_⟩
    · rw [Registry.unboxedSlots, List.forall₂_map_left_iff]
      exact each.imp fun _ _ converts => converts.opensSlot
    · exact Registry.pairwise_unboxedSlots (enters analyzed)
    · intro slot className
      exact Registry.mem_unboxedSlots (enters analyzed)
  · exact assembled.length
  · intro index located segment atIndex atSegment
    rcases assembled.segment index located atIndex with
      ⟨form, start, stop, atForm, isStart, isStop, isForm⟩
    cases atSegment.symm.trans atForm
    rcases isForm.split (plan_fits analyzed atIndex) grows with
      ⟨before, main, rest, isSplit, isBefore, isMain, isAfter⟩
    exact ⟨before, main, rest, start, stop, isSplit, isStart, isStop, isBefore, isMain, isAfter⟩

/-- The counterparts in `choose`, whose pool does not overflow. -/
theorem flatten_erases_choose : ∃ result code last emission relocation between after segments,
    ((choose.analyze .pair true).run (fun _ => .absent) (.knowing "V")).result = .ok result ∧
      Code.decode choose.code.code = .ok choose.instructions.toList ∧
      choose.flatten 2 result { pool := ClassFile.pair.pool } = .ok code last ∧
      last.pool.entries.size ≤ 65535 ∧
      Emission.ofBody choose result.registry { pool := ClassFile.pair.pool } =
        .ok emission between ∧
      emission.layOut choose.addresses choose.code.code.length between = .ok relocation after ∧
      choose.Erases ClassFile.pair.pool last.pool result.registry relocation.layout.bounds
        code.code emission.prologue segments := by
  rcases exists_flatten_choose with ⟨result, code, last, analyzed, flattened, few⟩
  rcases flatten_erases _ _ _ _ _ analyzed decode_choose flattened with
    ⟨emission, relocation, between, after, segments, erases⟩
  exact ⟨result, code, last, emission, relocation, between, after, segments, analyzed,
    decode_choose, flattened, few, erases⟩

end MethodBody

end ValueForm
