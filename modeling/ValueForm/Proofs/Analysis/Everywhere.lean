import ValueForm.Proofs.Analysis.Schedule

/-!
# What every frame has

The analysis finds nothing on its own: a property of the frame at entry that steps pass
on along their edges, and that holds where two frames meet, holds of every frame
(`MethodBody.analyze_everywhere`). The steps in question are those of the whole run, on
frames that may have been raised since, and not only those of its end.
-/

namespace ValueForm

/-- A property of every frame of a state. -/
def FlowState.Everywhere (state : FlowState) (holds : Nat → Frame → Prop) : Prop :=
  ∀ (index : Nat) (frame : Frame), state.frames[index]? = some (some frame) → holds index frame

namespace FlowState

variable {state after : FlowState} {holds : Nat → Frame → Prop}

theorem Everywhere.set (everywhere : state.Everywhere holds) {index : Nat} {frame : Frame}
    (here : holds index frame) {registry : Registry} :
    ({ state with registry, frames := state.frames.setIfInBounds index (some frame) }.enqueue
      index).Everywhere holds := by
  intro other frame' found
  rw [Analysis.frames_enqueue, Array.getElem?_setIfInBounds] at found
  split at found
  · next same =>
      subst same
      split at found
      · cases found
        exact here
      · cases found
  · exact everywhere other frame' found

theorem Everywhere.flowInto (everywhere : state.Everywhere holds)
    (meets : ∀ index current incoming, current.stack.length = incoming.stack.length →
      holds index current → holds index incoming → holds index (current.join incoming))
    {address index : Nat} {frame : Frame} (here : holds index frame)
    (flowed : state.flowInto address index frame = .ok after) : after.Everywhere holds := by
  rcases flowInto_cases flowed with ⟨_, rfl⟩ | ⟨current, found, height, ⟨_, rfl⟩ | ⟨_, rfl⟩⟩
  · exact everywhere.set here
  · exact everywhere
  · exact everywhere.set (meets index current frame height (everywhere index current found) here)

theorem Everywhere.flowAlong (everywhere : state.Everywhere holds)
    (meets : ∀ index current incoming, current.stack.length = incoming.stack.length →
      holds index current → holds index incoming → holds index (current.join incoming))
    {address : Nat} {edges : List (Except AnalysisError (Nat × Frame))}
    (there : ∀ target frame, .ok (target, frame) ∈ edges → holds target frame)
    (flowed : state.flowAlong address edges = .ok after) : after.Everywhere holds := by
  induction edges generalizing state with
  | nil =>
      cases flowed
      exact everywhere
  | cons edge rest ih =>
      rcases flowAlong_cons flowed with ⟨target, frame, between, rfl, into, flowed⟩
      have first := everywhere.flowInto meets (there target frame List.mem_cons_self) into
      have others : ∀ target frame, .ok (target, frame) ∈ rest → holds target frame :=
        fun target frame isEdge => there target frame (List.mem_cons_of_mem _ isEdge)
      exact ih first others flowed

end FlowState

namespace Analysis

variable {analysis : Analysis} {answers : String → Except OracleError Bool}
  {handlers : List Handler} {holds : Nat → Frame → Prop}

/-- What steps pass on along their edges, and holds where frames meet. Only steps on
frames that the result has absorbed are taken. -/
structure Carries (analysis : Analysis) (answers : String → Except OracleError Bool)
    (handlers : List Handler) (result : AnalysisResult) (holds : Nat → Frame → Prop) : Prop where
  meets : ∀ index current incoming, holds index current → holds index incoming →
    holds index (current.join incoming)
  flows : ∀ {index : Nat} {located : Located} {before : Frame} {effect : Effect},
    analysis.body.instructions[index]? = some located →
    analysis.HasAbsorbed answers result.registry result.frames index before →
    holds index before →
    (located.instruction.transfer (analysis.place index located) before).eval answers =
      .ok effect →
    ∀ target frame, .ok (target, frame) ∈
      analysis.edges handlers index located before effect.frame → holds target frame

namespace Run

variable {admits : Nat → Frame → Prop} {entry : Frame} {state final : FlowState}

/-- What a frame has absorbed during a run, it has absorbed at its end. -/
theorem hasAbsorbed (aimed : analysis.Aimed handlers)
    (ran : analysis.Run answers handlers admits state (.ok final))
    (invariant : analysis.Invariant answers handlers entry state) {target : Nat} {frame : Frame}
    (absorbed : analysis.HasAbsorbed answers state.registry state.frames target frame) :
    analysis.HasAbsorbed answers final.registry final.frames target frame := by
  generalize isOutcome : (Except.ok final : Except AnalysisError FlowState) = outcome at ran
  induction ran with
  | ended =>
      cases isOutcome
      exact absorbed
  | failed => cases isOutcome
  | @visited state between index outcome isPending _ visited _ ih =>
      rcases visit_spec aimed (invariant.grounded.take index) visited with ⟨_, advances, _⟩
      exact ih (visit_invariant aimed invariant isPending visited).1
        (advances.hasAbsorbed absorbed) isOutcome

/-- What is carried holds of every frame at the end of a run, if it did at its start. -/
theorem everywhere (aimed : analysis.Aimed handlers)
    (ran : analysis.Run answers handlers admits state (.ok final))
    (invariant : analysis.Invariant answers handlers entry state)
    (carries : analysis.Carries answers handlers final.result holds)
    (holdsAtStart : state.Everywhere holds) : final.Everywhere holds := by
  generalize isOutcome : (Except.ok final : Except AnalysisError FlowState) = outcome at ran
  induction ran with
  | ended =>
      cases isOutcome
      exact holdsAtStart
  | failed => cases isOutcome
  | @visited state between index outcome isPending isAdmitted visited rest ih =>
      subst isOutcome
      have invariant' := (visit_invariant aimed invariant isPending visited).1
      refine ih invariant' ?_ rfl
      rcases visit_cases visited with
        ⟨rfl, _⟩ | ⟨located, before, effect, atIndex, found, transferred, flowed⟩
      · exact holdsAtStart
      · have absorbed : analysis.HasAbsorbed answers state.registry state.frames index before :=
          ⟨before, found, before.absorbs_self⟩
        have atEnd := (Run.visited isPending isAdmitted visited rest).hasAbsorbed aimed invariant
          absorbed
        have evolves := Registry.evolves_settle (fun _ => False) final.registry
        have settles : analysis.Advances answers (fun _ => False) final
          { final with registry := final.registry.settle } := .of_registry evolves
        have flows := carries.flows atIndex (settles.hasAbsorbed atEnd)
          (holdsAtStart index before found) transferred
        refine FlowState.Everywhere.flowAlong ?_ (fun index current incoming _ =>
          carries.meets index current incoming) flows flowed
        exact holdsAtStart

end Run

end Analysis

/-- What holds of the frame at entry and is carried holds of every frame in the result. -/
theorem MethodBody.analyze_everywhere {answers : String → Except OracleError Bool}
    {classFile : ClassFile} {body : MethodBody} {flatArrays : Bool} {result : AnalysisResult}
    (analyzed : (body.analyze classFile flatArrays).eval answers = .ok result)
    {handlers : List Handler}
    (resolved : (body.analysis classFile flatArrays).handlers = .ok handlers)
    {holds : Nat → Frame → Prop}
    (entry : ∀ frame registry,
      Analysis.Entering (body.analysis classFile flatArrays).slots frame registry → holds 0 frame)
    (carries : (body.analysis classFile flatArrays).Carries answers handlers result holds) :
    result.state.Everywhere holds := by
  rcases analyze_cases analyzed with ⟨_, rfl⟩ | ⟨nonempty, ran⟩
  · intro index frame found
    cases found
  · rcases Analysis.run_cases ran with
      ⟨_, types, frame, registry, final, resolved', _, entered, looped, rfl⟩
    cases resolved.symm.trans resolved'
    have aimed := Analysis.aimed_handlers rfl resolved
    have entering := Analysis.enter_spec (Analysis.entering_empty _) entered
    have invariant : (body.analysis classFile flatArrays).Invariant answers handlers frame
      ((body.analysis classFile flatArrays).start frame registry) :=
      Analysis.invariant_start nonempty entering
    have loops := Analysis.run_loop aimed invariant (Analysis.remaining_start_le nonempty entering)
    rw [looped] at loops
    apply loops.everywhere aimed invariant carries
    intro index before found
    rcases Analysis.eq_entry_of_start nonempty found with ⟨rfl, rfl⟩
    exact entry before registry entering

end ValueForm
