import ValueForm.Proofs.Analysis.FixedPoint

/-!
# Bodies that meet no value-capable class

Where no class is value-capable no step leaves an instance of one, so no step
has one to decide about: an analysis takes no decision and every frame holds
ordinary references and numbers only.
-/

namespace ValueForm

/-- No class is value-capable according to the answers. -/
def NoneCapable (answers : String → Except OracleError Bool) : Prop :=
  ∀ className, answers className ≠ .ok true

theorem NoneCapable.capability_eq {answers : String → Except OracleError Bool}
    (noneCapable : NoneCapable answers) (className : String) :
    capability answers className = false := by
  unfold capability
  split
  · next capable answered =>
      cases capable with
      | false => rfl
      | true => exact absurd answered (noneCapable className)
  · rfl

/-- Whatever depends on no site at all has no value form. -/
theorem Value.Sited.isCapable_eq_false {value : Value} (sited : value.Sited fun _ => False) :
    value.isCapable = false := by
  cases value with
  | capable className provenance =>
      rcases sited with ⟨⟨site, isSite⟩, isKnown⟩
      exact (isKnown site isSite).elim
  | _ => rfl

theorem Registry.isEmpty_of_get? {registry : Registry}
    (empty : ∀ site, registry.get? site = none) : registry.isEmpty = true := by
  rw [isEmpty, Std.TreeMap.isEmpty_iff_forall_not_mem]
  intro site found
  rw [Std.TreeMap.mem_iff_isSome_getElem?] at found
  rw [show registry.patches[site]? = none from empty site] at found
  cases found

namespace Instruction

variable {place : Place} {capable : String → Bool} {instruction : Instruction}
  {before : Frame} {effect : Effect}

theorem recordedPatch?_of_pushes {site : Site} {leaves : Leaves} {pushed : List Value}
    {records : List Edit} (isPlain : ∀ className left, leaves ≠ .capable className left)
    (pushes : leaves.Pushes site pushed records) : recordedPatch? records = none := by
  cases pushes with
  | nothing | reference | plain => rfl
  | @capable className form => exact absurd rfl (isPlain className form)

/-- Where no class is value-capable a step on ordinary values records nothing. -/
theorem Step.recordedPatch?_of_noneCapable (noneCapable : ∀ className, capable className = false)
    (step : Step place capable instruction before effect)
    (plain : ∀ value, before.Holds value → value.isCapable = false) :
    recordedPatch? effect.edits = none := by
  have ordinary {className : String} {sites : SiteSet} :
      ¬ before.Holds (.capable className sites) := by
    intro holds
    cases plain _ holds
  have refused {className : String} : ¬ capable className = true :=
    Bool.eq_false_iff.1 (noneCapable className)
  cases step with
  | consume known count pushes =>
      rw [recordedPatch?_append, Signature.recordedPatch?_forces, Option.or_none]
      exact recordedPatch?_of_pushes
        (fun _ _ isCapable => refused (capable_of_signature? known isCapable).1) pushes
  | load | store | increment | shuffle => rfl
  | loadValue reads atSlot => exact absurd (.inl (Array.mem_of_getElem? atSlot)) ordinary
  | storeValue => exact absurd (.inr List.mem_cons_self) ordinary
  | readCapable | readPlain => exact absurd (.inr List.mem_cons_self) ordinary
  | loadElement isFlat isCapable => exact absurd isCapable refused
  | storeElement isFlat isCapable => exact absurd isCapable refused
  | convertElement isFlat isCapable => exact absurd isCapable refused
  | createArray isFlat isCapable => exact absurd isCapable refused
  | construct =>
      exact absurd (.inr (List.mem_append_right _ List.mem_cons_self)) ordinary
  | allocate named isCapable => exact absurd isCapable refused

end Instruction

namespace Analysis

variable {analysis : Analysis} {answers : String → Except OracleError Bool}
  {handlers : List Handler} {state after : FlowState}

theorem not_known_of_noneCapable (noneCapable : NoneCapable answers) {registry : Registry}
    (empty : ∀ site, registry.get? site = none) (site : Site) :
    ¬ analysis.Known answers registry site := by
  rintro (recorded | ⟨_, _, _, _, _, _, _, _, isCapable⟩)
  · exact recorded (empty site)
  · rw [noneCapable.capability_eq] at isCapable
    cases isCapable

/-- As long as there is no decision, frames hold ordinary values. -/
theorem Grounded.isCapable_eq_false (noneCapable : NoneCapable answers)
    (grounded : analysis.Grounded answers state)
    (empty : ∀ site, state.registry.get? site = none) {index : Nat} {frame : Frame}
    (found : state.frames[index]? = some (some frame)) {value : Value}
    (holds : frame.Holds value) : value.isCapable = false := by
  have sited := grounded.sited index frame found value holds
  exact (sited.mono (not_known_of_noneCapable noneCapable empty)).isCapable_eq_false

/-- Letting frames flow on sets flags of decisions and nothing else. -/
theorem evolves_flowInto {address index : Nat} {frame : Frame}
    (flowed : state.flowInto address index frame = .ok after) :
    Registry.Evolves (fun _ => False) state.registry after.registry := by
  rcases FlowState.flowInto_cases flowed with ⟨_, rfl⟩ | ⟨current, _, _, ⟨_, rfl⟩ | ⟨_, rfl⟩⟩
  · rw [registry_enqueue]
    exact .refl _
  · exact Registry.evolves_force _ _ _
  · rw [registry_enqueue]
    exact Registry.evolves_force _ _ _

theorem evolves_flowAlong {address : Nat} {edges : List (Except AnalysisError (Nat × Frame))}
    (flowed : state.flowAlong address edges = .ok after) :
    Registry.Evolves (fun _ => False) state.registry after.registry := by
  induction edges generalizing state with
  | nil =>
      obtain rfl := Except.ok.inj flowed
      exact .refl _
  | cons edge rest ih =>
      obtain ⟨_, _, _, rfl, into, flowed⟩ := FlowState.flowAlong_cons flowed
      exact (evolves_flowInto into).trans (ih flowed)

/-- A visit where no class is value-capable takes no decision. -/
theorem visit_get?_eq_none (noneCapable : NoneCapable answers)
    (grounded : analysis.Grounded answers state)
    (empty : ∀ site, state.registry.get? site = none) {index : Nat}
    (visited : (analysis.visit handlers index state).eval answers = .ok after) (site : Site) :
    after.registry.get? site = none := by
  rcases visit_cases visited with
    ⟨rfl, _⟩ | ⟨located, before, effect, atIndex, found, transferred, flowed⟩
  · exact empty site
  · have recordsNone : recordedPatch? effect.edits = none :=
      (Instruction.transfer_step transferred).recordedPatch?_of_noneCapable
        noneCapable.capability_eq fun value holds =>
          grounded.isCapable_eq_false noneCapable empty found holds
    apply (evolves_flowAlong flowed).get?_eq_none id
    by_cases here : site = .instruction index
    · subst here
      exact state.registry.get?_applyEdits_eq_none _ recordsNone (empty _)
    · exact (state.registry.evolves_applyEdits _ effect.edits).get?_eq_none here (empty site)

/-- Nor does a whole run. -/
theorem loop_get?_eq_none (noneCapable : NoneCapable answers) {entry : Frame} {visits : Nat}
    (aimed : analysis.Aimed handlers)
    (invariant : analysis.Invariant answers handlers entry state)
    (empty : ∀ site, state.registry.get? site = none)
    (ended : (analysis.loop handlers visits state).eval answers = .ok after) (site : Site) :
    after.registry.get? site = none := by
  induction visits generalizing state with
  | zero =>
      obtain rfl := Inquiry.eval_pure_eq_ok_iff.1 ended
      exact empty site
  | succ visits ih =>
      unfold loop at ended
      split at ended
      · obtain rfl := Inquiry.eval_pure_eq_ok_iff.1 ended
        exact empty site
      · next index pending isNext =>
          obtain ⟨middle, visited, rest⟩ := Inquiry.eval_bind_eq_ok_iff.1 ended
          rw [← FlowState.take_next isNext] at visited
          have isPending : index ∈ state.pending := isNext ▸ List.mem_cons_self
          obtain ⟨invariantMiddle, _⟩ := visit_invariant aimed invariant isPending visited
          refine ih invariantMiddle ?_ rest
          exact visit_get?_eq_none noneCapable (invariant.grounded.take index) empty visited

/-- Where no class is value-capable nothing is to be converted at entry. -/
theorem enter_registry_eq (noneCapable : NoneCapable answers) {slot : Nat}
    {types : List FieldType} {frame entry : Frame} {registry registry' : Registry}
    (entered : (enter slot types frame registry).eval answers = .ok (entry, registry')) :
    registry' = registry := by
  induction types generalizing slot frame with
  | nil =>
      rw [enter, Inquiry.eval_pure_eq_ok_iff] at entered
      cases entered
      rfl
  | cons type rest ih =>
      rcases enter_cons entered with ⟨className, _, _, answered, _⟩ | ⟨placed, _, _, entered⟩
      · exact absurd answered (noneCapable className)
      · exact ih entered

end Analysis

/-- Where no class is value-capable an analysis takes no decision, and no frame
holds an instance of a value-capable class. -/
theorem MethodBody.analyze_of_noneCapable {answers : String → Except OracleError Bool}
    (noneCapable : NoneCapable answers) {classFile : ClassFile} {body : MethodBody}
    {flatArrays : Bool} {result : AnalysisResult}
    (analyzed : (body.analyze classFile flatArrays).eval answers = .ok result) :
    result.registry.isEmpty = true ∧ ∀ (index : Nat) (frame : Frame) (value : Value),
      result.frames[index]? = some (some frame) → frame.Holds value → value.isCapable = false := by
  rcases analyze_cases analyzed with ⟨_, rfl⟩ | ⟨nonempty, ran⟩
  · exact ⟨rfl, fun index frame value found => by cases found⟩
  · have empty : ∀ site, result.registry.get? site = none := by
      rcases Analysis.run_cases ran with
        ⟨handlers, types, entry, registry, final, resolved, _, entered, looped, rfl⟩
      obtain rfl := Analysis.enter_registry_eq noneCapable entered
      have entering := Analysis.enter_spec (Analysis.entering_empty _) entered
      intro site
      apply (Registry.evolves_settle (fun _ => False) final.registry).get?_eq_none id
      exact Analysis.loop_get?_eq_none noneCapable (Analysis.aimed_handlers rfl resolved)
        (Analysis.invariant_start nonempty entering) Registry.get?_empty looped site
    rcases Analysis.run_spec rfl nonempty ran with ⟨_, _, _, _, _, _, _, invariant, _⟩
    constructor
    · exact Registry.isEmpty_of_get? empty
    · intro index frame value found holds
      exact invariant.grounded.isCapable_eq_false noneCapable empty found holds

end ValueForm
