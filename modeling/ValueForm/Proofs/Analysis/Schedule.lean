import ValueForm.Proofs.Analysis.Steady

/-!
# The order of visits

`Analysis.Run` takes pending instructions off in any order. What one run has found
at any point stays below what another run ends with, as long as every frame that is
visited is steady: no transfer fails that the other run did not see fail, no frame
rises above the other's, and no site is forced that the other leaves free. Two runs
that are below each other end alike.
-/

namespace ValueForm

namespace Registry

/-- The site has no decision or is forced. -/
def NotFree (registry : Registry) (site : Site) : Prop :=
  registry.isFree site = false

theorem notFree_iff {registry : Registry} {site : Site} :
    registry.NotFree site ↔
      ∀ patch, registry.get? site = some patch → patch.forced = true := by
  unfold NotFree isFree
  cases registry.get? site with
  | none => simp
  | some patch => simp

/-- Forcing one site of the group forces nothing that is free: none of its sites is,
or they are among known sites that agree. -/
def Keeps (known : Site → Prop) (registry : Registry) (group : SiteSet) : Prop :=
  (∀ site ∈ group, registry.NotFree site) ∨
    ∃ wider, registry.Agree wider ∧ (∀ site ∈ wider, known site) ∧
      ∀ site ∈ group, site ∈ wider

/-- What a registry forces is not free in another, which keeps what it links. -/
structure Below (known : Site → Prop) (final registry : Registry) : Prop where
  forced : ∀ site, registry.isForced site = true → final.NotFree site
  linked : ∀ group ∈ registry.links, final.Keeps known group

namespace Below

variable {known : Site → Prop} {final registry : Registry}

theorem force (below : Below known final registry) {sites : List Site}
    (notFree : ∀ site ∈ sites, final.NotFree site) : Below known final (registry.force sites) := by
  constructor
  · intro site isForced
    by_cases asked : site ∈ sites
    · exact notFree site asked
    · rw [isForced_eq_true_iff, get?_force, if_neg asked, ← isForced_eq_true_iff] at isForced
      exact below.forced site isForced
  · rw [links_force]
    exact below.linked

/-- One edit of a visit. -/
theorem edit (below : Below known final registry) {site : Site} {upper : List Edit}
    {change : Edit} (bounded : change.Bounded final.NotFree upper)
    (agreed : ∀ group, .link group ∈ upper → final.Agree group ∧ ∀ other ∈ group, known other) :
    Below known final (registry.edit site change) := by
  cases change with
  | record patch =>
      refine ⟨fun other isForced => ?_, below.linked⟩
      rw [Registry.edit, isForced_eq_true_iff, get?_record] at isForced
      split at isForced
      · next here =>
          subst here
          rcases isForced with ⟨_, ⟨⟩, isForced⟩
          rw [show patch.forced = false from bounded, Bool.false_or] at isForced
          exact below.forced site isForced
      · exact below.forced other (isForced_eq_true_iff.2 isForced)
  | force sites => exact below.force bounded
  | link group =>
      constructor
      · intro other isForced
        rw [Registry.edit, isForced_eq_true_iff, get?_link, ← isForced_eq_true_iff] at isForced
        exact below.forced other isForced
      · intro other linked
        rcases (mem_links_link registry).1 linked with linked | ⟨rfl, _⟩
        · exact below.linked other linked
        · rcases bounded with notFree | ⟨wider, isLinked, contained⟩
          · exact .inl notFree
          · exact .inr ⟨wider, (agreed wider isLinked).1, (agreed wider isLinked).2, contained⟩

theorem retire (below : Below known final registry) {site : Site} (notFree : final.NotFree site) :
    Below known final (registry.retire site) := by
  refine ⟨fun other isForced => ?_, below.linked⟩
  rw [isForced_eq_true_iff, get?_retire] at isForced
  split at isForced
  · next here => exact here ▸ notFree
  · exact below.forced other (isForced_eq_true_iff.2 isForced)

/-- All edits of a visit. -/
theorem applyEdits (below : Below known final registry) {site : Site} {upper edits : List Edit}
    (bounded : ∀ change ∈ edits, change.Bounded final.NotFree upper)
    (agreed : ∀ group, .link group ∈ upper → final.Agree group ∧ ∀ other ∈ group, known other)
    (retired : recordedPatch? edits = none → final.NotFree site) :
    Below known final (registry.applyEdits site edits) := by
  have edited : Below known final (edits.foldl (Registry.edit site) registry) := by
    clear retired
    induction edits generalizing registry with
    | nil => exact below
    | cons change rest ih =>
        exact ih (below.edit (bounded change List.mem_cons_self) agreed)
          fun other found => bounded other (List.mem_cons_of_mem change found)
  rw [applyEdits_eq]
  split
  · exact edited
  · next unset => exact edited.retire (retired unset)

/-- What a forced site of a linked group spreads to is not free. -/
theorem notFree_of_isSplit (below : Below known final registry)
    (undecided : ∀ site, known site → final.get? site = none → registry.get? site = none)
    {group : SiteSet} (linked : group ∈ registry.links) (isSplit : registry.isSplit group = true)
    {site : Site} (found : site ∈ group) : final.NotFree site := by
  rcases below.linked group linked with notFree | ⟨wider, agree, areKnown, contained⟩
  · exact notFree site found
  · rw [Registry.isSplit, Bool.and_eq_true] at isSplit
    rcases anyForced_eq_true_iff.1 isSplit.1 with ⟨other, inGroup, isForced⟩
    have notFree := below.forced other isForced
    rw [notFree_iff]
    intro patch atSite
    cases atOther : final.get? other with
    | none =>
        rcases isForced_eq_true_iff.1 isForced with ⟨_, recorded, _⟩
        rw [undecided other (areKnown other (contained other inGroup)) atOther] at recorded
        cases recorded
    | some patch' =>
        rw [agree site (contained site found) other (contained other inGroup) patch patch' atSite
          atOther]
        exact notFree_iff.1 notFree patch' atOther

theorem settleRounds (below : Below known final registry)
    (undecided : ∀ site, known site → final.get? site = none → registry.get? site = none)
    (rounds : Nat) : Below known final (registry.settleRounds rounds) := by
  induction rounds generalizing registry with
  | zero => exact below
  | succ rounds ih =>
      unfold Registry.settleRounds
      split
      · exact below
      · refine ih (below.force fun site found => ?_) fun site isKnown missing => ?_
        · rcases List.mem_flatMap.1 found with ⟨group, isGroup, found⟩
          rcases List.mem_filter.1 isGroup with ⟨linked, isSplit⟩
          exact below.notFree_of_isSplit undecided linked isSplit found
        · exact (evolves_force (fun _ => False) registry _).get?_eq_none id
            (undecided site isKnown missing)

theorem settle (below : Below known final registry)
    (undecided : ∀ site, known site → final.get? site = none → registry.get? site = none) :
    Below known final registry.settle :=
  below.settleRounds undecided _

end Below

end Registry

namespace Analysis

variable {analysis : Analysis} {answers : String → Except OracleError Bool}
  {handlers : List Handler} {result : AnalysisResult} {state : FlowState}

/-- The state of a run is below what another run ended with. -/
structure Below (analysis : Analysis) (answers : String → Except OracleError Bool)
    (result : AnalysisResult) (state : FlowState) : Prop where
  frames : ∀ (index : Nat) (frame : Frame), state.frames[index]? = some (some frame) →
    ∃ upper, result.frames[index]? = some (some upper) ∧
      upper.Above result.registry.NotFree frame
  registry : result.registry.Below (analysis.Known answers result.registry) state.registry

/-- A frame that flows to an instruction is below the one the other run ended with
there. -/
def Lands (result : AnalysisResult) (target : Nat) (frame : Frame) : Prop :=
  ∃ upper, result.frames[target]? = some (some upper) ∧
    upper.Above result.registry.NotFree frame

theorem Below.set (below : analysis.Below answers result state) {index : Nat} {frame : Frame}
    (lands : Lands result index frame) {registry : Registry}
    (isBelow : result.registry.Below (analysis.Known answers result.registry) registry) :
    analysis.Below answers result ({ state with
      registry, frames := state.frames.setIfInBounds index (some frame) }.enqueue index) := by
  constructor
  · intro other given found
    rw [frames_enqueue, Array.getElem?_setIfInBounds] at found
    split at found
    · next same =>
        split at found
        · cases found
          exact same ▸ lands
        · cases found
    · exact below.frames other given found
  · rw [registry_enqueue]
    exact isBelow

/-- Such a frame can be merged, and the state stays below. -/
theorem Below.flowInto (below : analysis.Below answers result state) {index : Nat} {frame : Frame}
    (lands : Lands result index frame) (address : Nat) :
    ∃ after, state.flowInto address index frame = .ok after ∧
      analysis.Below answers result after := by
  unfold FlowState.flowInto
  cases atIndex : state.frames[index]?.join with
  | none => exact ⟨_, rfl, below.set lands below.registry⟩
  | some current =>
      rcases lands with ⟨upper, isUpper, above⟩
      rcases below.frames index current (Option.join_eq_some_iff.1 atIndex) with
        ⟨_, isUpper', aboveCurrent⟩
      cases isUpper.symm.trans isUpper'
      have height : current.stack.length = frame.stack.length :=
        aboveCurrent.stack.length_eq.symm.trans above.stack.length_eq
      rcases aboveCurrent.lub above with ⟨aboveJoined, notFree⟩
      have isBelow := below.registry.force notFree
      dsimp only [Frame.merge]
      rw [if_pos height]
      dsimp only
      split
      · exact ⟨_, rfl, below.frames, isBelow⟩
      · exact ⟨_, rfl, below.set ⟨upper, isUpper, aboveJoined⟩ isBelow⟩

theorem Below.flowAlong (below : analysis.Below answers result state)
    {edges : List (Except AnalysisError (Nat × Frame))}
    (land : ∀ edge ∈ edges, ∃ target frame, edge = .ok (target, frame) ∧
      Lands result target frame) (address : Nat) :
    ∃ after, state.flowAlong address edges = .ok after ∧
      analysis.Below answers result after := by
  induction edges generalizing state with
  | nil => exact ⟨state, rfl, below⟩
  | cons edge rest ih =>
      rcases land edge List.mem_cons_self with ⟨target, frame, rfl, lands⟩
      rcases below.flowInto lands address with ⟨between, flowed, isBelow⟩
      rcases ih isBelow fun edge found => land edge (List.mem_cons_of_mem _ found) with
        ⟨after, flowedRest, isBelow'⟩
      refine ⟨after, ?_, isBelow'⟩
      rw [FlowState.flowAlong, flowed]
      exact flowedRest

/-- The frame is steady for the instruction it is before. -/
def SteadyAt (analysis : Analysis) (answers : String → Except OracleError Bool) (index : Nat)
    (before : Frame) : Prop :=
  ∀ located, analysis.body.instructions[index]? = some located →
    located.instruction.Steady (analysis.place index located) answers before

/-- What a run of visits to steady frames ends with. -/
structure Finished (analysis : Analysis) (answers : String → Except OracleError Bool)
    (handlers : List Handler) (entry : Frame) (result : AnalysisResult) : Prop where
  invariant : analysis.Invariant answers handlers entry result.state
  whole : ∀ group ∈ result.registry.links, result.registry.isSplit group = false
  steady : ∀ (index : Nat) (before : Frame), result.frames[index]? = some (some before) →
    analysis.SteadyAt answers index before

namespace Finished

variable {entry : Frame} (finished : analysis.Finished answers handlers entry result)

include finished

theorem notFree_of_held {site : Site} (held : analysis.Held answers result.registry site) :
    result.registry.NotFree site := by
  rw [Registry.notFree_iff]
  intro patch found
  rcases held with forced | isAllocation
  · rw [← Registry.isForced_of_get? found]
    exact forced
  · have missing : result.registry.get? site = none :=
      finished.invariant.grounded.allocation site isAllocation
    rw [missing] at found
    cases found

/-- What the steps of the finished run lead to is above what lower frames lead to. -/
theorem lands {target : Nat} {upper frame : Frame}
    (absorbed : analysis.HasAbsorbed answers result.registry result.frames target upper)
    (size : upper.locals.size = analysis.slots)
    (above : upper.Above result.registry.NotFree frame) : Lands result target frame := by
  rcases absorbed with ⟨current, found, absorbs⟩
  have isAbove : current.Above result.registry.NotFree upper :=
    Frame.above_iff.2 ⟨(finished.invariant.grounded.locals target current found).trans size.symm,
      absorbs.mono fun _ held => finished.notFree_of_held held⟩
  exact ⟨current, found, isAbove.trans above⟩

/-- Every edge of a lower step lands below the finished run. -/
theorem edges_land {index : Nat} {located : Located} {upper before after : Frame}
    {effect : Effect}
    (fixed : analysis.FixedAt answers handlers result index located upper effect)
    (size : upper.locals.size = analysis.slots) (size' : effect.frame.locals.size = analysis.slots)
    (above : upper.Above result.registry.NotFree before)
    (above' : effect.frame.Above result.registry.NotFree after)
    {edge : Except AnalysisError (Nat × Frame)}
    (isEdge : edge ∈ analysis.edges handlers index located before after) :
    ∃ target frame, edge = .ok (target, frame) ∧ Lands result target frame := by
  simp only [edges, List.mem_append, List.mem_flatMap, List.mem_filter, List.mem_map] at isEdge
  rcases isEdge with (⟨handler, ⟨isHandler, covers⟩, isEdge⟩ | ⟨offset, isOffset, rfl⟩) | isEdge
  · have caught := fixed.caught handler isHandler covers
    simp only [List.mem_cons, List.not_mem_nil, or_false] at isEdge
    rcases isEdge with rfl | rfl
    · exact ⟨_, _, rfl, finished.lands (caught upper (by simp)) size (above.handlerFrame _)⟩
    · exact ⟨_, _, rfl,
        finished.lands (caught effect.frame (by simp)) size' (above'.handlerFrame _)⟩
  · rcases fixed.jumped offset isOffset with ⟨target, found, absorbed⟩
    rw [positionAt_eq_ok_iff.2 found]
    exact ⟨target, after, rfl, finished.lands absorbed size' above'⟩
  · split at isEdge
    · cases isEdge
    · next passesOn =>
        have absorbed := fixed.passed (Bool.eq_false_iff.2 passesOn)
        split at isEdge
        · rw [List.mem_singleton.1 isEdge]
          refine ⟨_, _, rfl, ?_⟩
          split at absorbed
          · next isCall =>
              rw [if_pos isCall]
              exact finished.lands absorbed size above
          · next isCall =>
              rw [if_neg isCall]
              exact finished.lands absorbed size' above'
        · next atEnd =>
            rcases absorbed with ⟨_, found, _⟩
            have inRange := (Array.getElem?_eq_some_iff.1 found).1
            have framesSize : result.frames.size = analysis.body.instructions.size :=
              finished.invariant.grounded.framesSize
            omega

/-- A visit to a steady frame below the finished run succeeds and stays below it. -/
theorem visit {index : Nat} (below : analysis.Below answers result state)
    (steady : ∀ before, state.frames[index]? = some (some before) →
      analysis.SteadyAt answers index before) :
    ∃ after, (analysis.visit handlers index state).eval answers = .ok after ∧
      analysis.Below answers result after := by
  unfold Analysis.visit
  split
  · next before located isBefore atIndex =>
      have found := Option.join_eq_some_iff.1 isBefore
      rcases below.frames index before found with ⟨upper, isUpper, above⟩
      rcases finished.invariant.settled_of_frame isUpper with ⟨_, effect, atIndex', settled⟩
      cases atIndex.symm.trans atIndex'
      have fixed := settled.fixedAt finished.whole
      have size := finished.invariant.grounded.locals index upper isUpper
      have size' := (Instruction.transfer_step settled.transferred).size_locals.trans size
      have quiet (unset : recordedPatch? effect.edits = none) :
          result.registry.NotFree (.instruction index) := by
        have reflected := settled.reflected
        rw [Registry.Reflects, unset] at reflected
        exact Registry.notFree_iff.2 fun patch isPatch => (reflected patch isPatch).2.2
      rcases Instruction.transfer_lowers above (finished.steady index upper isUpper located atIndex)
        (steady before found located atIndex) settled.transferred quiet with
        ⟨effect', transferred, isAbove⟩
      have bounded := isAbove.edits.bounded fun sites asked site inSites =>
        finished.notFree_of_held (settled.forced sites asked site inSites)
      have agreed (group : SiteSet) (asked : .link group ∈ effect.edits) :
          result.registry.Agree group ∧
            ∀ site ∈ group, analysis.Known answers result.registry site := by
        refine ⟨fixed.agreed group asked, fun site inGroup => ?_⟩
        rcases (Instruction.transfer_step settled.transferred).holds_of_about? asked rfl with
          ⟨className, holds⟩
        exact (finished.invariant.grounded.sited index upper isUpper _ holds).2 site inGroup
      have edited : analysis.Below answers result { state with
          registry := state.registry.applyEdits (.instruction index) effect'.edits } :=
        ⟨below.frames, below.registry.applyEdits bounded agreed fun unset =>
          quiet (isAbove.edits.recorded unset)⟩
      rcases edited.flowAlong (fun edge isEdge => finished.edges_land fixed size size' above
        isAbove.frame isEdge) located.address with ⟨after, flowed, isBelow⟩
      refine ⟨after, Inquiry.eval_bind_eq_ok_iff.2 ⟨effect', transferred, ?_⟩, isBelow⟩
      rw [Inquiry.eval_ofExcept]
      exact flowed
  · exact ⟨state, Inquiry.eval_pure_eq_ok_iff.2 rfl, below⟩

end Finished

/-- A run of the worklist that takes pending instructions off in any order and visits
them on frames that are admitted. -/
inductive Run (analysis : Analysis) (answers : String → Except OracleError Bool)
    (handlers : List Handler) (admits : Nat → Frame → Prop) :
    FlowState → Except AnalysisError FlowState → Prop
  | ended {state : FlowState} (isEnd : state.pending = []) :
      Run analysis answers handlers admits state (.ok state)
  | failed {state : FlowState} {index : Nat} {error : AnalysisError}
      (isPending : index ∈ state.pending)
      (admitted : ∀ before, state.frames[index]? = some (some before) → admits index before)
      (visited : (analysis.visit handlers index (state.take index)).eval answers = .error error) :
      Run analysis answers handlers admits state (.error error)
  | visited {state between : FlowState} {index : Nat} {outcome : Except AnalysisError FlowState}
      (isPending : index ∈ state.pending)
      (admitted : ∀ before, state.frames[index]? = some (some before) → admits index before)
      (visited : (analysis.visit handlers index (state.take index)).eval answers = .ok between)
      (rest : Run analysis answers handlers admits between outcome) :
      Run analysis answers handlers admits state outcome

namespace Run

variable {admits : Nat → Frame → Prop} {entry : Frame} {outcome : Except AnalysisError FlowState}

/-- A run ends with nothing pending, every instruction settled and every frame
admitted. -/
theorem invariant {final : FlowState} (aimed : analysis.Aimed handlers)
    (ran : analysis.Run answers handlers admits state (.ok final))
    (invariant : analysis.Invariant answers handlers entry state)
    (admitted : ∀ (index : Nat) (before : Frame), index ∉ state.pending →
      state.frames[index]? = some (some before) → admits index before) :
    analysis.Invariant answers handlers entry final ∧ final.pending = [] ∧
      ∀ (index : Nat) (before : Frame), final.frames[index]? = some (some before) →
        admits index before := by
  generalize isOutcome : (Except.ok final : Except AnalysisError FlowState) = outcome at ran
  induction ran with
  | ended isEnd =>
      cases isOutcome
      refine ⟨invariant, isEnd, fun index before found => admitted index before ?_ found⟩
      rw [isEnd]
      exact List.not_mem_nil
  | failed => cases isOutcome
  | @visited state between index outcome isPending isAdmitted visited rest ih =>
      refine ih (visit_invariant aimed invariant isPending visited).1 ?_ isOutcome
      rcases visit_spec aimed (invariant.grounded.take index) visited with ⟨_, advances, _⟩
      intro other before notPending found
      have found' := (advances.kept other before found).resolve_right notPending
      by_cases same : other = index
      · subst same
        exact isAdmitted before found'
      · refine admitted other before (fun wasPending => notPending ?_) found'
        exact advances.pending other ((List.mem_erase_of_ne same).2 wasPending)

/-- A run of visits to steady frames that starts below a finished one succeeds and
stays below it. -/
theorem staysBelow (ran : analysis.Run answers handlers (analysis.SteadyAt answers) state outcome)
    (finished : analysis.Finished answers handlers entry result)
    (isBelow : analysis.Below answers result state) :
    ∃ final, outcome = .ok final ∧ analysis.Below answers result final := by
  induction ran with
  | ended => exact ⟨_, rfl, isBelow⟩
  | @failed state index error isPending admitted visited =>
      have isTaken : analysis.Below answers result (state.take index) :=
        ⟨isBelow.frames, isBelow.registry⟩
      rcases finished.visit isTaken admitted with ⟨after, visited', _⟩
      cases visited.symm.trans visited'
  | @visited state between index outcome isPending admitted visited rest ih =>
      have isTaken : analysis.Below answers result (state.take index) :=
        ⟨isBelow.frames, isBelow.registry⟩
      rcases finished.visit isTaken admitted with ⟨after, visited', isBelow'⟩
      cases visited.symm.trans visited'
      exact ih isBelow'

end Run

theorem LoopEnds.run {visits : Nat} {outcome : Except AnalysisError FlowState}
    (ended : analysis.LoopEnds answers handlers visits state outcome) :
    analysis.Run answers handlers (fun _ _ => True) state outcome := by
  induction ended with
  | emptied isEnd => exact .ended isEnd
  | failed isNext visited =>
      exact .failed (isNext ▸ List.mem_cons_self) (fun _ _ => trivial) visited
  | visited isNext visited _ ih =>
      exact .visited (isNext ▸ List.mem_cons_self) (fun _ _ => trivial) visited ih

/-- The worklist is one such run: it takes the instruction that was queued last. -/
theorem run_loop {entry : Frame} {visits : Nat} (aimed : analysis.Aimed handlers)
    (invariant : analysis.Invariant answers handlers entry state)
    (enough : analysis.remaining state ≤ visits) :
    analysis.Run answers handlers (fun _ _ => True) state
      ((analysis.loop handlers visits state).eval answers) := by
  obtain ⟨_, _, ended⟩ := exists_loopEnds aimed invariant enough
  exact ended.run

/-- Nothing is forced or linked while the incoming values are placed. -/
theorem enter_below {known : Site → Prop} {final : Registry} {slot : Nat}
    {types : List FieldType} {frame entry : Frame} {registry registry' : Registry}
    (below : final.Below known registry)
    (entered : (enter slot types frame registry).eval answers = .ok (entry, registry')) :
    final.Below known registry' := by
  induction types generalizing slot frame registry with
  | nil =>
      rw [enter, Inquiry.eval_pure_eq_ok_iff] at entered
      cases entered
      exact below
  | cons type rest ih =>
      rcases enter_cons entered with
        ⟨className, placed, _, _, _, entered⟩ | ⟨placed, _, _, entered⟩
      · let patch : Patch :=
          { action := .entryUnbox (UInt16.ofNat slot), left := .nothing, className }
        have bounded : (Edit.record patch).Bounded final.NotFree [] := rfl
        refine ih (below.edit bounded ?_) entered
        exact fun group found => absurd found List.not_mem_nil
      · exact ih below entered

/-- The start of a run is below the end of any other. -/
theorem Finished.start {types : List FieldType} {entry : Frame} {registry : Registry}
    (finished : analysis.Finished answers handlers entry result) (nonempty : 0 < analysis.count)
    (entered : (enter 0 types (Frame.empty analysis.slots) {}).eval answers =
      .ok (entry, registry)) :
    analysis.Below answers result (analysis.start entry registry) := by
  constructor
  · intro index frame found
    rcases eq_entry_of_start nonempty found with ⟨rfl, rfl⟩
    exact finished.lands finished.invariant.entered
      (enter_spec (entering_empty analysis.slots) entered).locals
      (Frame.above_iff.2 ⟨rfl, frame.absorbs_self⟩)
  · refine enter_below ⟨fun site isForced => ?_, fun group found => ?_⟩ entered
    · rcases Registry.isForced_eq_true_iff.1 isForced with ⟨patch, found, _⟩
      rw [Registry.get?_empty] at found
      cases found
    · cases found

end Analysis

/-- Two analyses end alike: both fail, or they find the same frames and force the same
of the sites that both decide about. -/
def AnalysisResult.EndAlike :
    Except AnalysisError AnalysisResult → Except AnalysisError AnalysisResult → Prop
  | .error _, .error _ => True
  | .ok first, .ok second => first.frames = second.frames ∧
      ∀ site patch patch', first.registry.get? site = some patch →
        second.registry.get? site = some patch' → patch.forced = patch'.forced
  | _, _ => False

namespace Analysis

variable {analysis : Analysis} {answers : String → Except OracleError Bool}
  {handlers : List Handler}

/-- Finished runs that are below each other end alike. -/
theorem Finished.endAlike {entry : Frame} {first second : AnalysisResult}
    (finished : analysis.Finished answers handlers entry first)
    (finished' : analysis.Finished answers handlers entry second)
    (below : analysis.Below answers second first.state)
    (below' : analysis.Below answers first second.state) :
    AnalysisResult.EndAlike (.ok first) (.ok second) := by
  have size : first.frames.size = second.frames.size :=
    finished.invariant.grounded.framesSize.trans finished'.invariant.grounded.framesSize.symm
  constructor
  · apply Array.ext size
    intro index inFirst inSecond
    have atFirst := Array.getElem?_eq_getElem inFirst
    have atSecond := Array.getElem?_eq_getElem inSecond
    cases isFirst : first.frames[index] with
    | some frame =>
        rw [isFirst] at atFirst
        rcases below.frames index frame atFirst with ⟨upper, isUpper, above⟩
        rcases below'.frames index upper isUpper with ⟨_, isFrame, above'⟩
        cases atFirst.symm.trans isFrame
        rw [above.antisymm above'] at isUpper
        exact (Option.some.inj (atSecond.symm.trans isUpper)).symm
    | none =>
        rw [isFirst] at atFirst
        cases isSecond : second.frames[index] with
        | none => rfl
        | some frame =>
            rw [isSecond] at atSecond
            rcases below'.frames index frame atSecond with ⟨upper, isUpper, _⟩
            cases atFirst.symm.trans isUpper
  · have spreads {one other : AnalysisResult} (isBelow : analysis.Below answers other one.state)
        {site : Site} {patch patch' : Patch} (found : one.registry.get? site = some patch)
        (found' : other.registry.get? site = some patch') (forced : patch.forced = true) :
        patch'.forced = true :=
      Registry.notFree_iff.1 (isBelow.registry.forced site
        (Registry.isForced_eq_true_iff.2 ⟨patch, found, forced⟩)) patch' found'
    intro site patch patch' found found'
    exact Bool.eq_iff_iff.2 ⟨spreads below found found', spreads below' found' found⟩

end Analysis

/-- What an analysis gives when its worklist has come to an end. -/
def FlowState.result (state : FlowState) : AnalysisResult :=
  ⟨state.registry.settle, state.frames⟩

namespace Analysis

variable {analysis : Analysis} {answers : String → Except OracleError Bool}
  {handlers : List Handler} {types : List FieldType} {entry : Frame} {registry : Registry}

theorem Run.finished {final : FlowState} (aimed : analysis.Aimed handlers)
    (nonempty : 0 < analysis.count) (entering : Entering analysis.slots entry registry)
    (ran : analysis.Run answers handlers (analysis.SteadyAt answers)
      (analysis.start entry registry) (.ok final)) :
    analysis.Grounded answers final ∧
      analysis.Finished answers handlers entry final.result := by
  have admitted (index : Nat) (before : Frame) (notPending : index ∉ [0])
      (found : (analysis.start entry registry).frames[index]? = some (some before)) :
      analysis.SteadyAt answers index before := by
    rcases eq_entry_of_start nonempty found with ⟨rfl, _⟩
    exact absurd (List.mem_singleton_self 0) notPending
  rcases ran.invariant aimed (invariant_start nonempty entering) admitted with
    ⟨invariant, isEnd, steady⟩
  rcases invariant.settle isEnd with ⟨settled, whole⟩
  exact ⟨invariant.grounded, settled, whole, steady⟩

/-- Settling keeps the state below. -/
theorem Below.settle {result : AnalysisResult} {final : FlowState}
    (below : analysis.Below answers result final) (grounded : analysis.Grounded answers final) :
    analysis.Below answers result final.result.state := by
  refine ⟨below.frames, below.registry.settle fun site isKnown missing => ?_⟩
  exact grounded.allocation site (isKnown.resolve_left fun recorded => recorded missing)

/-- Two runs of visits to steady frames from one start end alike. -/
theorem Run.endAlike {first second : Except AnalysisError FlowState}
    (aimed : analysis.Aimed handlers) (nonempty : 0 < analysis.count)
    (entered : (enter 0 types (Frame.empty analysis.slots) {}).eval answers =
      .ok (entry, registry))
    (ran : analysis.Run answers handlers (analysis.SteadyAt answers)
      (analysis.start entry registry) first)
    (ran' : analysis.Run answers handlers (analysis.SteadyAt answers)
      (analysis.start entry registry) second) :
    AnalysisResult.EndAlike (first.map FlowState.result) (second.map FlowState.result) := by
  have entering := enter_spec (entering_empty analysis.slots) entered
  cases first with
  | ok final =>
      rcases ran.finished aimed nonempty entering with ⟨grounded, finished⟩
      rcases ran'.staysBelow finished (finished.start nonempty entered) with ⟨final', rfl, below'⟩
      rcases ran'.finished aimed nonempty entering with ⟨grounded', finished'⟩
      rcases ran.staysBelow finished' (finished'.start nonempty entered) with ⟨_, ⟨⟩, below⟩
      exact finished.endAlike finished' (below.settle grounded) (below'.settle grounded')
  | error error =>
      cases second with
      | error error' => trivial
      | ok final' =>
          rcases ran'.finished aimed nonempty entering with ⟨_, finished'⟩
          rcases ran.staysBelow finished' (finished'.start nonempty entered) with ⟨_, failed, _⟩
          cases failed

/-- What there is before the first visit: the handlers and the state to start from. -/
def prepare (analysis : Analysis) : Inquiry AnalysisError (List Handler × FlowState) := do
  let handlers ← Inquiry.ofExcept analysis.handlers
  let types ← Inquiry.ofExcept analysis.incomingTypes
  let (entry, registry) ← enter 0 types (Frame.empty analysis.slots) {}
  return (handlers, analysis.start entry registry)

theorem run_eq (analysis : Analysis) :
    analysis.run = analysis.prepare >>= fun prepared =>
      analysis.loop prepared.1 analysis.visitBound prepared.2 >>= fun final =>
        pure final.result := by
  simp only [prepare, bind_assoc, pure_bind]
  rfl

theorem prepare_cases {prepared : List Handler × FlowState}
    (done : analysis.prepare.eval answers = .ok prepared) :
    ∃ types entry registry, analysis.handlers = .ok prepared.1 ∧
      (enter 0 types (Frame.empty analysis.slots) {}).eval answers = .ok (entry, registry) ∧
      prepared.2 = analysis.start entry registry := by
  rcases Inquiry.eval_bind_eq_ok_iff.1 done with ⟨handlers, resolved, done⟩
  rcases Inquiry.eval_bind_eq_ok_iff.1 done with ⟨types, _, done⟩
  rcases Inquiry.eval_bind_eq_ok_iff.1 done with ⟨⟨entry, registry⟩, entered, done⟩
  obtain rfl := Inquiry.eval_pure_eq_ok_iff.1 done
  exact ⟨types, entry, registry, resolved, entered, rfl⟩

end Analysis

namespace MethodBody

/-- The outcomes of analysing a body when pending instructions are taken off in any
order and visited on frames that are admitted. -/
inductive Schedules (classFile : ClassFile) (body : MethodBody) (flatArrays : Bool)
    (answers : String → Except OracleError Bool) (admits : Nat → Frame → Prop) :
    Except AnalysisError AnalysisResult → Prop
  | empty (isEmpty : body.instructions.isEmpty = true) :
      Schedules classFile body flatArrays answers admits (.ok ⟨{}, #[]⟩)
  | unprepared {error : AnalysisError} (nonempty : body.instructions.isEmpty = false)
      (failed : (body.analysis classFile flatArrays).prepare.eval answers = .error error) :
      Schedules classFile body flatArrays answers admits (.error error)
  | ran {handlers : List Handler} {start : FlowState} {outcome : Except AnalysisError FlowState}
      (nonempty : body.instructions.isEmpty = false)
      (prepared : (body.analysis classFile flatArrays).prepare.eval answers =
        .ok (handlers, start))
      (ran : (body.analysis classFile flatArrays).Run answers handlers admits start outcome) :
      Schedules classFile body flatArrays answers admits (outcome.map FlowState.result)

variable {answers : String → Except OracleError Bool} {classFile : ClassFile} {body : MethodBody}
  {flatArrays : Bool}

theorem count_pos (nonempty : body.instructions.isEmpty = false) (classFile : ClassFile)
    (flatArrays : Bool) : 0 < (body.analysis classFile flatArrays).count := by
  apply Nat.pos_of_ne_zero
  intro isZero
  have isEmpty : body.instructions = #[] := Array.eq_empty_of_size_eq_zero isZero
  rw [isEmpty] at nonempty
  cases nonempty

/-- What an analysis starts from. -/
theorem prepared_spec {handlers : List Handler} {start : FlowState}
    (nonempty : body.instructions.isEmpty = false)
    (prepared : (body.analysis classFile flatArrays).prepare.eval answers =
      .ok (handlers, start)) :
    (body.analysis classFile flatArrays).Aimed handlers ∧
      (body.analysis classFile flatArrays).remaining start ≤
        (body.analysis classFile flatArrays).visitBound ∧
      ∃ entry, (body.analysis classFile flatArrays).Invariant answers handlers entry start := by
  obtain ⟨types, entry, registry, resolved, entered, rfl⟩ := Analysis.prepare_cases prepared
  have entering := Analysis.enter_spec (Analysis.entering_empty _) entered
  have isCount := count_pos nonempty classFile flatArrays
  exact ⟨Analysis.aimed_handlers rfl resolved, Analysis.remaining_start_le isCount entering,
    entry, Analysis.invariant_start isCount entering⟩

theorem analyze_of_nonempty (nonempty : body.instructions.isEmpty = false) :
    body.analyze classFile flatArrays = (body.analysis classFile flatArrays).run := by
  rw [analyze, nonempty, if_neg Bool.false_ne_true]
  rfl

/-- The outcome of an analysis that is under way is that of its loop. -/
theorem analyze_of_prepared {handlers : List Handler} {start : FlowState}
    (nonempty : body.instructions.isEmpty = false)
    (prepared : (body.analysis classFile flatArrays).prepare.eval answers =
      .ok (handlers, start)) :
    (body.analyze classFile flatArrays).eval answers =
      (((body.analysis classFile flatArrays).loop handlers
        (body.analysis classFile flatArrays).visitBound start).eval answers).map
          FlowState.result := by
  rw [analyze_of_nonempty nonempty, Analysis.run_eq, Inquiry.eval_bind, prepared, Except.bind,
    Inquiry.eval_bind]
  cases ((body.analysis classFile flatArrays).loop handlers
    (body.analysis classFile flatArrays).visitBound start).eval answers <;> rfl

/-- The analysis of a body is one of these. -/
theorem schedules_analyze (classFile : ClassFile) (body : MethodBody) (flatArrays : Bool)
    (answers : String → Except OracleError Bool) :
    body.Schedules classFile flatArrays answers (fun _ _ => True)
      ((body.analyze classFile flatArrays).eval answers) := by
  cases nonempty : body.instructions.isEmpty with
  | true =>
      rw [analyze, if_pos nonempty]
      exact .empty nonempty
  | false =>
      cases prepared : (body.analysis classFile flatArrays).prepare.eval answers with
      | error error =>
          rw [analyze_of_nonempty nonempty, Analysis.run_eq, Inquiry.eval_bind, prepared]
          exact .unprepared nonempty prepared
      | ok pair =>
          rcases pair with ⟨handlers, start⟩
          rcases prepared_spec nonempty prepared with ⟨aimed, enough, entry, invariant⟩
          rw [analyze_of_prepared nonempty prepared]
          exact .ran nonempty prepared (Analysis.run_loop aimed invariant enough)

/-- Whatever order pending instructions are taken off in, an analysis ends alike, as
long as no frame is visited that is not steady for its instruction. -/
theorem schedules_end_alike (find : ClassFinder) (oracle : Oracle) (classFile : ClassFile)
    (body : MethodBody) (flatArrays : Bool) :
    body.Schedules classFile flatArrays (oracle.answer find) (fun _ _ => True)
        ((body.analyze classFile flatArrays).run find oracle).result ∧
      ∀ first second,
        body.Schedules classFile flatArrays (oracle.answer find)
          ((body.analysis classFile flatArrays).SteadyAt (oracle.answer find)) first →
        body.Schedules classFile flatArrays (oracle.answer find)
          ((body.analysis classFile flatArrays).SteadyAt (oracle.answer find)) second →
        AnalysisResult.EndAlike first second := by
  constructor
  · rw [Inquiry.run_result]
    exact schedules_analyze classFile body flatArrays (oracle.answer find)
  · intro first second scheduled scheduled'
    cases scheduled with
    | empty isEmpty =>
        cases scheduled' with
        | empty => exact ⟨rfl, fun site patch patch' found => by cases found⟩
        | unprepared nonempty => cases isEmpty.symm.trans nonempty
        | ran nonempty => cases isEmpty.symm.trans nonempty
    | unprepared nonempty failed =>
        cases scheduled' with
        | empty isEmpty => cases isEmpty.symm.trans nonempty
        | unprepared => trivial
        | ran _ prepared => cases failed.symm.trans prepared
    | ran nonempty prepared ran =>
        cases scheduled' with
        | empty isEmpty => cases isEmpty.symm.trans nonempty
        | unprepared _ failed => cases failed.symm.trans prepared
        | ran _ prepared' ran' =>
            cases prepared.symm.trans prepared'
            rcases Analysis.prepare_cases prepared with
              ⟨types, entry, registry, resolved, entered, rfl⟩
            exact ran.endAlike (Analysis.aimed_handlers rfl resolved)
              (count_pos nonempty classFile flatArrays) entered ran'

end MethodBody

/-- Visit instructions in the order given, as long as they are pending and their frames
pass a check. -/
def Analysis.follow (analysis : Analysis) (answers : String → Except OracleError Bool)
    (handlers : List Handler) (check : Nat → Frame → Bool) :
    List Nat → FlowState → Option FlowState
  | [], state => if state.pending = [] then some state else none
  | index :: rest, state =>
      if index ∈ state.pending ∧ (state.frames[index]?.join.all (check index)) = true then
        match (analysis.visit handlers index (state.take index)).eval answers with
        | .ok between => analysis.follow answers handlers check rest between
        | .error _ => none
      else none

theorem Analysis.run_of_follow {analysis : Analysis} {answers : String → Except OracleError Bool}
    {handlers : List Handler} {check : Nat → Frame → Bool} {admits : Nat → Frame → Prop}
    (sound : ∀ index frame, check index frame = true → admits index frame)
    {order : List Nat} {state final : FlowState}
    (followed : analysis.follow answers handlers check order state = some final) :
    analysis.Run answers handlers admits state (.ok final) := by
  induction order generalizing state with
  | nil =>
      rw [follow] at followed
      split at followed
      · next isEnd =>
          cases followed
          exact .ended isEnd
      · cases followed
  | cons index rest ih =>
      rw [follow] at followed
      split at followed
      · next may =>
          have admitted (before : Frame) (found : state.frames[index]? = some (some before)) :
              admits index before := by
            have passes := may.2
            rw [found] at passes
            exact sound index before passes
          split at followed
          · next between visited => exact .visited may.1 admitted visited (ih followed)
          · cases followed
      · cases followed

/-- In `choose` only the store has an operand that must be usable. -/
def MethodBody.choose.steady (index : Nat) (before : Frame) : Bool :=
  index ≠ 4 || before.stack[0]?.all (· ≠ .uninitialized)

theorem MethodBody.choose.steadyAt {answers : String → Except OracleError Bool} (index : Nat)
    (before : Frame) (passes : choose.steady index before = true) :
    (choose.analysis .pair true).SteadyAt answers index before := by
  intro located atIndex
  have inRange : index < 7 := (Array.getElem?_eq_some_iff.1 atIndex).1
  have positions : index = 0 ∨ index = 1 ∨ index = 2 ∨ index = 3 ∨ index = 4 ∨ index = 5 ∨
    index = 6 := by omega
  rcases positions with rfl | rfl | rfl | rfl | rfl | rfl | rfl <;> cases atIndex
  case inr.inr.inr.inr.inl =>
    intro value onTop
    simpa [choose.steady, onTop] using passes
  all_goals trivial

/-- The paths of `choose` that meet may be followed one after the other or in turns. -/
theorem MethodBody.schedules_end_alike_choose : ∃ handlers start first second,
    (choose.analysis .pair true).prepare.eval ((Oracle.knowing "V").answer fun _ => .absent) =
        .ok (handlers, start) ∧
      (choose.analysis .pair true).follow ((Oracle.knowing "V").answer fun _ => .absent) handlers
        choose.steady [0, 1, 2, 3, 4, 5, 6] start = some first ∧
      (choose.analysis .pair true).follow ((Oracle.knowing "V").answer fun _ => .absent) handlers
        choose.steady [0, 1, 2, 5, 6, 3, 4, 5, 6] start = some second ∧
      AnalysisResult.EndAlike (.ok first.result) (.ok second.result) := by
  have prepared : ∃ pair,
      (choose.analysis .pair true).prepare.eval ((Oracle.knowing "V").answer fun _ => .absent) =
        .ok pair ∧
      (((choose.analysis .pair true).follow ((Oracle.knowing "V").answer fun _ => .absent) pair.1
          choose.steady [0, 1, 2, 3, 4, 5, 6] pair.2).isSome &&
        ((choose.analysis .pair true).follow ((Oracle.knowing "V").answer fun _ => .absent) pair.1
          choose.steady [0, 1, 2, 5, 6, 3, 4, 5, 6] pair.2).isSome) = true := by
    apply Outcome.exists_of_any
    rw [Oracle.answer_knowing]
    decide +kernel
  rcases prepared with ⟨⟨handlers, start⟩, prepared, followed⟩
  rw [Bool.and_eq_true] at followed
  rcases Option.isSome_iff_exists.1 followed.1 with ⟨first, isFirst⟩
  rcases Option.isSome_iff_exists.1 followed.2 with ⟨second, isSecond⟩
  refine ⟨handlers, start, first, second, prepared, isFirst, isSecond, ?_⟩
  exact (schedules_end_alike (fun _ => .absent) (.knowing "V") .pair choose true).2 _ _
    (.ran rfl prepared (Analysis.run_of_follow choose.steadyAt isFirst))
    (.ran rfl prepared (Analysis.run_of_follow choose.steadyAt isSecond))

/-- A static method that locks its parameter, or null if its second parameter is
zero. -/
def MethodBody.lock : MethodBody where
  isStatic := true
  descriptor := "(LV;I)V"
  code := {
    maxStack := 1
    maxLocals := 2
    code := [0x1b, 0x99, 0, 7, 0x2a, 0xa7, 0, 4, 0x01, 0xc2, 0xb1]
    exceptions := []
    attributes := [] }
  instructions := #[⟨0, .loadShort .int 1⟩, ⟨1, .branch .eq 7⟩, ⟨4, .loadShort .reference 0⟩,
    ⟨5, .goto 4⟩, ⟨8, .const .null⟩, ⟨9, .monitorEnter⟩, ⟨10, .leave .void⟩]

-- A monitor on an instance of a value-capable class is not steady: here the analysis
-- fails before the instance meets null, while another order of visits succeeds.
example :
    ((MethodBody.lock.analyze .pair true).eval fun name => .ok (name == "V")).toOption.isNone ∧
    ((MethodBody.lock.analysis .pair true).prepare.eval fun name =>
      .ok (name == "V")).toOption.any fun (handlers, start) =>
        ((MethodBody.lock.analysis .pair true).follow (fun name => .ok (name == "V")) handlers
          (fun _ _ => true) [0, 1, 4, 5, 6, 2, 3, 5] start).isSome := by
  decide +kernel

end ValueForm
