import ValueForm.Proofs.Analysis.FixedPoint
import ValueForm.Proofs.Descriptor.Grammar
import ValueForm.Proofs.Flattening.Plan

/-!
# Counterparts fit their instructions

Emission trusts the registry: what takes the place of an instruction is read off
the patch at its position, and not off the instruction. After an analysis that
succeeds the two agree, whatever was recorded at the position on earlier visits.
-/

namespace ValueForm

/-- What may take the place of an instruction. -/
inductive Counterpart.Replaces (pool : ConstantPool) : Instruction → Counterpart → Prop
  | kept {instruction : Instruction} : Replaces pool instruction .kept
  | loadValue {instruction : Instruction} {slot : UInt16}
      (reads : instruction.localLoad? = some (.reference, slot)) :
      Replaces pool instruction (.loadValue slot)
  | storeValue {instruction : Instruction} {slot : UInt16}
      (writes : instruction.localStore? = some (.reference, slot)) :
      Replaces pool instruction (.storeValue slot)
  | readValue {index : UInt16} {field : MemberRef} (member : pool.member? index = some field) :
      Replaces pool (.getField index) (.readValue index)
  | createArray {index : UInt16} {className : String}
      (named : pool.className? index = some className) :
      Replaces pool (.newReferenceArray index) (.createArray className)
  | loadElement : Replaces pool (.arrayLoad .reference) .loadElement
  | storeElement : Replaces pool (.arrayStore .reference) .storeElement

theorem Leaves.Pushes.action_eq_keep {site : Site} {leaves : Leaves} {pushed : List Value}
    {records : List Edit} {patch : Patch} (pushes : leaves.Pushes site pushed records)
    (recorded : recordedPatch? records = some patch) : patch.action = .keep := by
  cases pushes with
  | nothing | reference | plain => cases recorded
  | capable =>
      cases recorded
      rfl

namespace Instruction

/-- What an instruction may record. -/
inductive Records (pool : ConstantPool) : Instruction → PatchAction → Prop
  | keep {instruction : Instruction} : Records pool instruction .keep
  | valueLoad {instruction : Instruction} {slot : UInt16} {contents : SiteSet}
      (reads : instruction.localLoad? = some (.reference, slot)) :
      Records pool instruction (.valueLoad slot contents)
  | valueStore {instruction : Instruction} {slot : UInt16} {operand : SiteSet}
      (writes : instruction.localStore? = some (.reference, slot)) :
      Records pool instruction (.valueStore slot operand)
  | fieldRead {index : UInt16} {field : MemberRef} {receiver : SiteSet}
      (member : pool.member? index = some field) :
      Records pool (.getField index) (.fieldRead receiver)
  | arrayNew {index : UInt16} {className : String}
      (named : pool.className? index = some className) :
      Records pool (.newReferenceArray index) (.arrayNew className)
  | arrayLoad : Records pool (.arrayLoad .reference) .arrayLoad
  | arrayStore {operand : Option SiteSet} :
      Records pool (.arrayStore .reference) (.arrayStore operand)

variable {place : Place} {capable : String → Bool} {instruction : Instruction} {before : Frame}
  {effect : Effect} {patch : Patch}

/-- Branches take no decision. -/
theorem Step.isBranch_eq_false (step : Step place capable instruction before effect)
    (recorded : recordedPatch? effect.edits = some patch) : instruction.isBranch = false := by
  cases step with
  | consume known count pushes =>
      rw [recordedPatch?_append, Signature.recordedPatch?_forces, Option.or_none] at recorded
      cases instruction with
      | branch | goto | gotoWide | jsr | jsrWide | tableSwitch | lookupSwitch =>
          cases known
          cases pushes
          cases recorded
      | _ => rfl
  | loadValue reads =>
      cases instruction with
      | load | loadShort => rfl
      | _ => cases reads
  | storeValue writes =>
      cases instruction with
      | store | storeShort => rfl
      | _ => cases writes
  | load | store | increment | shuffle | allocate => cases recorded
  | _ => rfl

/-- The patch of a step has an action that goes with its instruction. -/
theorem Step.records (step : Step place capable instruction before effect)
    (recorded : recordedPatch? effect.edits = some patch) :
    Records place.pool instruction patch.action := by
  cases step with
  | consume known count pushes =>
      rw [recordedPatch?_append, Signature.recordedPatch?_forces, Option.or_none] at recorded
      rw [pushes.action_eq_keep recorded]
      exact .keep
  | construct member isConstructor typed count pushes =>
      -- What the result of the call records comes after what the call records.
      rw [recordedPatch?_append] at recorded
      rcases Option.or_eq_some_iff.1 recorded with ofResult | ⟨_, ofCall⟩
      · rw [pushes.action_eq_keep ofResult]
        exact .keep
      · rw [recordedPatch?_append] at ofCall
        cases ofCall
        exact .keep
  | loadValue reads =>
      cases recorded
      exact .valueLoad reads
  | storeValue writes =>
      cases recorded
      exact .valueStore writes
  | loadElement =>
      cases recorded
      exact .arrayLoad
  | storeElement =>
      cases recorded
      exact .arrayStore
  | convertElement =>
      rw [recordedPatch?_append] at recorded
      cases recorded
      exact .arrayStore
  | createArray isFlat isCapable named =>
      cases recorded
      rcases Option.bind_eq_some_iff.1 named with ⟨name, isName, isClass⟩
      rw [Option.some.inj (FieldType.internalName?_of_ofInternalName? isClass)]
      exact .arrayNew isName
  | readCapable typed =>
      cases recorded
      rcases Option.bind_eq_some_iff.1 typed with ⟨field, member, _⟩
      exact .fieldRead member
  | readPlain member =>
      cases recorded
      exact .fieldRead member
  | load | store | increment | shuffle | allocate => cases recorded

end Instruction

/-- What an instruction records calls for a counterpart that may take its
place. -/
theorem Patch.replaces {pool : ConstantPool} {instruction : Instruction} {patch : Patch}
    (records : instruction.Records pool patch.action) (registry : Registry) :
    Counterpart.Replaces pool instruction (patch.plan registry instruction).main := by
  unfold plan
  generalize patch.action = action at records
  cases records with
  | keep => exact .kept
  | valueLoad reads =>
      dsimp only
      split
      · exact .kept
      · exact .loadValue reads
  | valueStore writes =>
      dsimp only
      split
      · exact .kept
      · exact .storeValue writes
  | fieldRead member =>
      dsimp only
      split
      · exact .kept
      · exact .readValue member
  | arrayNew named => exact .createArray named
  | arrayLoad => exact .loadElement
  | @arrayStore operand =>
      cases operand with
      | none => exact .storeElement
      | some sites => exact .storeElement

/-- What stands for an instruction is fit to: branches are kept without a
conversion, and else the counterpart may take the place of the instruction. -/
structure Plan.Fits (pool : ConstantPool) (instruction : Instruction) (plan : Plan) : Prop where
  branch : instruction.isBranch = true → plan = ⟨none, .kept, none⟩
  main : plan.main.Replaces pool instruction

@[simp]
theorem Plan.fits_kept (pool : ConstantPool) (instruction : Instruction) :
    Plan.Fits pool instruction ⟨none, .kept, none⟩ :=
  ⟨fun _ => rfl, .kept⟩

/-- The decision at an instruction is retired or goes with the instruction. -/
theorem MethodBody.decision_cases {answers : String → Except OracleError Bool}
    {classFile : ClassFile} {body : MethodBody} {flatArrays : Bool} {result : AnalysisResult}
    (analyzed : (body.analyze classFile flatArrays).eval answers = .ok result) {index : Nat}
    {patch : Patch} (found : result.registry.get? (.instruction index) = some patch) :
    patch.Retired ∨ ∃ located, body.instructions[index]? = some located ∧
      located.instruction.isBranch = false ∧
      located.instruction.Records classFile.pool patch.action := by
  rcases analyze_spec analyzed with ⟨_, rfl⟩ | ⟨handlers, _, _, _, _, _, _, invariant, _⟩
  · rw [Registry.get?_empty] at found
    cases found
  · have hasPatch : result.registry.get? (.instruction index) ≠ none := by
      rw [found]
      exact Option.some_ne_none patch
    -- Only a visit can have set the patch, and the last visit is settled.
    rcases invariant.grounded.owned index hasPatch with ⟨before, isFrame⟩
    rcases invariant.settled_of_frame isFrame with ⟨located, effect, atIndex, settled⟩
    have step := Instruction.transfer_step settled.transferred
    have reflected := settled.reflected
    unfold Registry.Reflects at reflected
    cases recorded : recordedPatch? effect.edits with
    | none =>
        rw [recorded] at reflected
        exact .inl (reflected patch found)
    | some latest =>
        rw [recorded] at reflected
        rcases reflected with ⟨forced, isPatch⟩
        cases found.symm.trans isPatch
        have records := step.records recorded
        exact .inr ⟨located, atIndex, step.isBranch_eq_false recorded, records⟩

/-- After an analysis that succeeds, what stands for an instruction fits it. -/
theorem MethodBody.plan_fits {answers : String → Except OracleError Bool} {classFile : ClassFile}
    {body : MethodBody} {flatArrays : Bool} {result : AnalysisResult}
    (analyzed : (body.analyze classFile flatArrays).eval answers = .ok result) {index : Nat}
    {located : Located} (atIndex : body.instructions[index]? = some located) :
    (result.registry.plan index located.instruction).Fits classFile.pool located.instruction := by
  unfold Registry.plan
  cases found : result.registry.get? (.instruction index) with
  | none => exact Plan.fits_kept _ _
  | some patch =>
      dsimp only
      rcases decision_cases analyzed found with retired | ⟨located', atIndex', isPlain, records⟩
      · rw [retired.plan_eq]
        exact Plan.fits_kept _ _
      · cases atIndex.symm.trans atIndex'
        constructor
        · intro isBranch
          rw [isPlain] at isBranch
          cases isBranch
        · exact Patch.replaces records _

end ValueForm
