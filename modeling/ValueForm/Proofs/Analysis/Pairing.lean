import ValueForm.Proofs.Analysis.Everywhere
import ValueForm.Proofs.Analysis.Origins
import ValueForm.Proofs.Analysis.Termination

/-!
# Wide locals stay paired

A `long` or `double` takes two local slots, and nothing in a frame says which slots belong
together but the value in the first of them. `Frame.Paired` says that the slot behind a wide
local is there and unusable. Storing over either half keeps this, and so does merging slot by
slot, because a merge is wide only where both sides are the same wide value. Hence it holds
of every frame that can be reached, and an analysis has no others.
-/

namespace ValueForm

namespace Value

theorem asReference_of_isWide {value : Value} (wide : value.asReference.isWide = true) :
    value.asReference = value := by
  cases value with
  | capable => cases wide
  | _ => rfl

/-- A merge is wide only where both sides are the same wide value. -/
theorem eq_of_isWide_join {first second : Value} (wide : (first.join second).isWide = true) :
    first = second ∧ first.isWide = true := by
  rcases join_cases first second with ⟨className, sites, sites', _, _, joined, _⟩ | ⟨joined, _⟩
  · rw [joined] at wide
    cases wide
  · rw [joined] at wide
    unfold joinPlain at wide
    split at wide
    · next same =>
        have isFirst := asReference_of_isWide wide
        have isSecond := asReference_of_isWide (same ▸ wide)
        rw [isFirst] at same wide
        exact ⟨same.trans isSecond, wide⟩
    split at wide
    · next isNull => cases (isWide_of_isReference isNull.2).symm.trans wide
    split at wide
    · next isNull => cases (isWide_of_isReference isNull.2).symm.trans wide
    split at wide
    · cases wide
    · cases wide

end Value

namespace Frame

/-- The slot behind a wide local is there and unusable. -/
def Paired (frame : Frame) : Prop :=
  ∀ (slot : Nat) (value : Value), frame.locals[slot]? = some value → value.isWide = true →
    frame.locals[slot + 1]? = some .uninitialized

/-- The slot belongs to the wide local before it. -/
def IsSecondHalf (frame : Frame) (slot : Nat) : Prop :=
  ∃ first value, slot = first + 1 ∧ frame.locals[first]? = some value ∧ value.isWide = true

variable {frame : Frame}

theorem Paired.getElem?_of_isSecondHalf (paired : frame.Paired) {slot : Nat}
    (isHalf : frame.IsSecondHalf slot) : frame.locals[slot]? = some .uninitialized := by
  rcases isHalf with ⟨first, value, rfl, atFirst, wide⟩
  exact paired first value atFirst wide

@[simp]
theorem paired_empty (slots : Nat) : (Frame.empty slots).Paired := by
  intro slot value found wide
  rcases Array.mem_replicate.1 (Array.mem_of_getElem? found) with ⟨_, rfl⟩
  cases wide

/-- A store keeps locals paired, whichever half of a pair it overwrites. -/
theorem Paired.setLocal (paired : frame.Paired) {slot : UInt16} {value : Value} {after : Frame}
    (done : frame.setLocal slot value = .ok after) : after.Paired := by
  intro index held found wide
  have isTwo : held.size = 2 := of_decide_eq_true wide
  rw [getElem?_setLocal done] at found ⊢
  split at found
  · next isSlot =>
      -- The second slot of what is stored.
      cases found
      have inRange := (size_setLocal done).2.2
      have isThere : index + 1 < frame.locals.size := by omega
      rw [if_neg (by omega), Array.getElem?_eq_getElem isThere, Option.map_some,
        if_pos (.inl ⟨by omega, isTwo⟩)]
  · rcases Option.map_eq_some_iff.1 found with ⟨old, atIndex, isHeld⟩
    split at isHeld
    · cases isHeld
      cases wide
    · next isKept =>
        -- A wide value that was kept is not cut by the store.
        subst isHeld
        have notCut : index + 1 ≠ slot.toNat := fun isNext => isKept (.inr ⟨isNext, isTwo⟩)
        rw [if_neg notCut, paired index old atIndex wide, Option.map_some, ite_self]

theorem Paired.join {incoming : Frame} (paired : frame.Paired) (paired' : incoming.Paired)
    (size : frame.locals.size = incoming.locals.size) : (frame.join incoming).Paired := by
  intro index held found wide
  rw [getElem?_join_locals] at found ⊢
  rcases Option.map_eq_some_iff.1 found with ⟨value, atCurrent, isHeld⟩
  have inRange : index < incoming.locals.size := size ▸ (Array.getElem?_eq_some_iff.1 atCurrent).1
  cases atIncoming : incoming.locals[index]? with
  | none => simp [inRange] at atIncoming
  | some other =>
      rw [atIncoming] at isHeld
      subst isHeld
      rcases Value.eq_of_isWide_join wide with ⟨rfl, wide'⟩
      rw [paired index value atCurrent wide', paired' index value atIncoming wide']
      rfl

theorem addSiteTo_of_not_capable {entry : Value} (plain : entry.isCapable = false)
    (value : Value) (site : Site) : addSiteTo value site entry = entry := by
  unfold addSiteTo
  split
  · cases entry with
    | capable => cases plain
    | _ => rfl
  · rfl

@[simp]
theorem isWide_addSiteTo (value : Value) (site : Site) (entry : Value) :
    (addSiteTo value site entry).isWide = entry.isWide := by
  cases entry with
  | capable className sites =>
      rcases addSiteTo_capable value site className sites with ⟨more, isMore, _⟩
      rw [isMore]
      rfl
  | _ => rw [addSiteTo_of_not_capable rfl]

theorem Paired.addSite (paired : frame.Paired) (value : Value) (site : Site) :
    (frame.addSite value site).Paired := by
  intro index held found wide
  rw [addSite_eq, Array.getElem?_map] at found ⊢
  rcases Option.map_eq_some_iff.1 found with ⟨before, atIndex, rfl⟩
  rw [isWide_addSiteTo] at wide
  rw [paired index before atIndex wide, Option.map_some, addSiteTo_of_not_capable rfl]

end Frame

/-- A step keeps locals paired. -/
theorem Instruction.Step.paired {place : Place} {capable : String → Bool}
    {instruction : Instruction} {before : Frame} {effect : Effect}
    (step : Step place capable instruction before effect) (paired : before.Paired) :
    effect.frame.Paired := by
  -- The operands that a step takes are no locals.
  cases step with
  | @store _ _ _ locals value rest _ _ _ done =>
      have under : (⟨locals, rest⟩ : Frame).Paired := paired
      exact under.setLocal done
  | @storeValue _ _ locals _ _ rest _ _ done =>
      have under : (⟨locals, rest⟩ : Frame).Paired := paired
      exact under.setLocal done
  | increment _ done => exact paired.setLocal done
  | @construct _ locals className receiver _ rest =>
      have under : (⟨locals, rest⟩ : Frame).Paired := paired
      exact under.addSite (.capable className receiver) place.site
  | _ => exact paired

/-! ## Reachable frames -/

namespace Frame

/-- The frames that can be reached in a body with `slots` local slots: the frame at entry,
what an instruction makes of a frame, what a merge of two frames gives, and what a handler
sees of a frame. -/
inductive Reached (answers : String → Except OracleError Bool) (slots : Nat) : Frame → Prop
  | entry {types : List FieldType} {frame : Frame} {registry : Registry}
      (entered : (Analysis.enter 0 types (.empty slots) {}).eval answers = .ok (frame, registry)) :
      Reached answers slots frame
  | transferred {place : Place} {instruction : Instruction} {before : Frame} {effect : Effect}
      (reached : Reached answers slots before)
      (transferred : (instruction.transfer place before).eval answers = .ok effect) :
      Reached answers slots effect.frame
  | merged {current incoming meeting : Frame} {forced : List Site}
      (reached : Reached answers slots current) (reached' : Reached answers slots incoming)
      (merged : current.merge incoming = .ok (meeting, forced)) :
      Reached answers slots meeting
  | caught {frame : Frame} (reached : Reached answers slots frame) (exception : Value) :
      Reached answers slots (frame.handlerFrame exception)

end Frame

theorem Analysis.enter_paired {slot : Nat} {types : List FieldType} {frame entry : Frame}
    {registry registry' : Registry} {answers : String → Except OracleError Bool}
    (paired : frame.Paired)
    (entered : (enter slot types frame registry).eval answers = .ok (entry, registry')) :
    entry.Paired := by
  induction types generalizing slot frame registry with
  | nil =>
      rw [enter, Inquiry.eval_pure_eq_ok_iff] at entered
      cases entered
      exact paired
  | cons type rest ih =>
      rcases enter_cons entered with ⟨_, placed, _, _, done, entered⟩ | ⟨placed, _, done, entered⟩
      · exact ih (paired.setLocal done) entered
      · exact ih (paired.setLocal done) entered

namespace Frame

/-- Every frame that can be reached has all its slots, and they are paired. -/
theorem Reached.paired {answers : String → Except OracleError Bool} {slots : Nat} {frame : Frame}
    (reached : frame.Reached answers slots) : frame.locals.size = slots ∧ frame.Paired := by
  induction reached with
  | entry entered =>
      have entering := Analysis.enter_spec (Analysis.entering_empty slots) entered
      exact ⟨entering.locals, Analysis.enter_paired (paired_empty slots) entered⟩
  | transferred _ transferred ih =>
      have step := Instruction.transfer_step transferred
      exact ⟨step.size_locals.trans ih.1, step.paired ih.2⟩
  | merged _ _ merged ih ih' =>
      unfold merge at merged
      split at merged
      · cases merged
        exact ⟨(size_join_locals _ _).trans ih.1, ih.2.join ih'.2 (ih.1.trans ih'.1.symm)⟩
      · cases merged
  | caught _ _ ih => exact ih

end Frame

namespace Analysis

variable {answers : String → Except OracleError Bool} {analysis : Analysis}
  {handlers : List Handler} {state start : FlowState}

/-- What flows out of an instruction can be reached if the frame before it can. -/
theorem reached_of_mem_edges {index : Nat} {located : Located} {before : Frame}
    {effect : Effect} (reached : before.Reached answers analysis.slots)
    (transferred : (located.instruction.transfer (analysis.place index located) before).eval
      answers = .ok effect) {target : Nat} {frame : Frame}
    (isEdge : .ok (target, frame) ∈ analysis.edges handlers index located before effect.frame) :
    frame.Reached answers analysis.slots := by
  rw [edges_eq_flows] at isEdge
  have isFlow : ∃ state, .ok (target, state) ∈
      analysis.flows handlers index located (fun _ _ => ()) () () ∧
        frame.Reached answers analysis.slots :=
    exists_flow (fun (frame : Frame) (_ : Unit) => frame.Reached answers analysis.slots)
      (fun _ _ _ here => here.caught _) reached (reached.transferred transferred) isEdge
  rcases isFlow with ⟨_, _, isReached⟩
  exact isReached

/-- At every point of an analysis all frames, and all that is still to flow, can be
reached. -/
theorem Passes.reached {edges : List (Except AnalysisError (Nat × Frame))}
    (passes : analysis.Passes answers handlers start state edges)
    (atStart : start.Everywhere fun _ frame => frame.Reached answers analysis.slots) :
    state.Everywhere (fun _ frame => frame.Reached answers analysis.slots) ∧
      ∀ target frame, .ok (target, frame) ∈ edges → frame.Reached answers analysis.slots := by
  induction passes with
  | start => exact ⟨atStart, fun _ _ isEdge => absurd isEdge List.not_mem_nil⟩
  | skipped _ _ _ ih => exact ⟨ih.1, fun _ _ isEdge => absurd isEdge List.not_mem_nil⟩
  | visited _ _ _ found transferred ih =>
      exact ⟨ih.1, fun _ _ => reached_of_mem_edges (ih.1 _ _ found) transferred⟩
  | flowed _ flowed ih =>
      refine ⟨ih.1.flowInto ?_ (ih.2 _ _ List.mem_cons_self) flowed,
        fun target frame isEdge => ih.2 target frame (List.mem_cons_of_mem _ isEdge)⟩
      intro _ current incoming height reached reached'
      exact reached.merged reached' (by rw [Frame.merge, if_pos height])

theorem everywhere_start_reached (nonempty : 0 < analysis.count) {types : List FieldType}
    {entry : Frame} {registry : Registry}
    (entered : (enter 0 types (.empty analysis.slots) {}).eval answers = .ok (entry, registry)) :
    (analysis.start entry registry).Everywhere
      fun _ frame => frame.Reached answers analysis.slots := by
  intro index frame found
  rcases eq_entry_of_start nonempty found with ⟨_, rfl⟩
  exact .entry entered

end Analysis

namespace MethodBody

variable {answers : String → Except OracleError Bool} {classFile : ClassFile} {body : MethodBody}
  {flatArrays : Bool}

/-- While a body is analysed no other frames come up than those that can be reached. -/
theorem reached_of_passes {handlers : List Handler} {start state : FlowState}
    {edges : List (Except AnalysisError (Nat × Frame))}
    (nonempty : body.instructions.isEmpty = false)
    (prepared : (body.analysis classFile flatArrays).prepare.eval answers =
      .ok (handlers, start))
    (passes : (body.analysis classFile flatArrays).Passes answers handlers start state edges) :
    state.Everywhere (fun _ frame => frame.Reached answers body.code.maxLocals.toNat) ∧
      ∀ target frame, .ok (target, frame) ∈ edges →
        frame.Reached answers body.code.maxLocals.toNat := by
  rcases Analysis.prepare_cases prepared with ⟨types, entry, registry, _, entered, rfl⟩
  have isCount := count_pos nonempty classFile flatArrays
  exact passes.reached (Analysis.everywhere_start_reached isCount entered)

/-- An analysis gives no other frames than those that can be reached. -/
theorem reached_of_analyze {result : AnalysisResult}
    (analyzed : (body.analyze classFile flatArrays).eval answers = .ok result) :
    result.state.Everywhere fun _ frame => frame.Reached answers body.code.maxLocals.toNat := by
  rcases analyze_cases analyzed with ⟨_, rfl⟩ | ⟨nonempty, ran⟩
  · intro index frame found
    cases found
  · rcases Analysis.run_cases ran with
      ⟨handlers, types, entry, registry, final, resolved, _, entered, looped, rfl⟩
    have entering := Analysis.enter_spec (Analysis.entering_empty _) entered
    rcases Analysis.exists_loopEnds (Analysis.aimed_handlers rfl resolved)
      (Analysis.invariant_start nonempty entering) (Analysis.remaining_start_le nonempty entering)
      with ⟨_, _, ended⟩
    have passes := ended.passes .start looped
    exact (passes.reached (Analysis.everywhere_start_reached nonempty entered)).1

end MethodBody

end ValueForm
