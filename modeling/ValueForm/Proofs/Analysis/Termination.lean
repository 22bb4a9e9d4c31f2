import ValueForm.Proofs.Analysis.Order
import ValueForm.Proofs.Analysis.Schedule

/-!
# The analysis ends

The visits of an analysis are not bounded beforehand: pending instructions are taken off
until none is left or a visit fails. That this happens, within `Analysis.visitBound`
visits, is due to merging alone. A merge that queues an instruction again raises its
frame in the order of frames; the frames of a body have a fixed number of locals, a
bounded stack and depend only on sites of the body, and among such frames no strictly
rising chain is longer than `Frame.rises` allows.
-/

namespace ValueForm

/-! ## Frames of a body rise finitely often -/

namespace Frame

/-- A frame that an instruction of a body with `slots` local slots and `count` instructions
may have. -/
structure Fits (slots count : Nat) (frame : Frame) : Prop where
  locals : frame.locals.size = slots
  height : frame.stack.length ≤ 2 * count
  sited : frame.Sited (Site.Within slots count)

/-- How often a frame of a body can be raised. -/
def rises (slots count : Nat) : Nat :=
  (slots + 2 * count) * (slots + count + 3)

variable {slots count : Nat} {first second : Frame}

/-- Merging what is above a frame into it yields what is above. -/
theorem join_eq_right (below : first ≤ second) : first.join second = second := by
  have height := below.2.height
  refine eq_of_matches ((size_join_locals first second).trans below.1)
    ⟨(length_join_stack height).trans height, ?_, ?_⟩
  · intro index value other atJoined atSecond
    rw [getElem?_join_locals, atSecond] at atJoined
    obtain ⟨before, atFirst, rfl⟩ := Option.map_eq_some_iff.1 atJoined
    exact sup_eq_right.2 (below.2.locals index before other atFirst atSecond)
  · intro index value other atJoined atSecond
    rw [getElem?_join_stack, atSecond] at atJoined
    cases atFirst : first.stack[index]? with
    | none => simp [atFirst] at atJoined
    | some before =>
        rw [atFirst] at atJoined
        obtain rfl := Option.some.inj atJoined
        exact sup_eq_right.2 (below.2.stack index before other atFirst atSecond)

theorem headroom_lt (below : first < second) (fits : second.Fits slots count) :
    second.headroom (slots + count) < first.headroom (slots + count) := by
  have joined := join_eq_right below.le
  have lower := join_eq_or_headroom_lt below.le.2.height
    (joined.symm ▸ fits.sited : (first.join second).Sited (Site.Within slots count))
  rw [joined] at lower
  exact lower.resolve_left below.ne'

theorem Fits.headroom_le {frame : Frame} (fits : frame.Fits slots count) :
    frame.headroom (slots + count) ≤ rises slots count := by
  refine (Frame.headroom_le _ frame).trans (Nat.mul_le_mul_right _ ?_)
  rw [fits.locals]
  exact Nat.add_le_add_left fits.height slots

theorem length_le_headroom {rest : List Frame} (rising : (first :: rest).IsChain (· < ·))
    (fits : ∀ frame ∈ rest, frame.Fits slots count) :
    rest.length ≤ first.headroom (slots + count) := by
  induction rest generalizing first with
  | nil => simp
  | cons second rest ih =>
      obtain ⟨below, rising⟩ := List.isChain_cons_cons.1 rising
      have lower := headroom_lt below (fits second List.mem_cons_self)
      have shorter := ih rising fun frame found => fits frame (List.mem_cons_of_mem _ found)
      rw [List.length_cons]
      omega

/-- Frames of a body do not rise for ever. -/
theorem length_le_rises {frames : List Frame} (rising : frames.IsChain (· < ·))
    (fits : ∀ frame ∈ frames, frame.Fits slots count) :
    frames.length ≤ rises slots count + 1 := by
  cases frames with
  | nil => simp
  | cons first rest =>
      have short := length_le_headroom rising fun frame found =>
        fits frame (List.mem_cons_of_mem _ found)
      have few := (fits first List.mem_cons_self).headroom_le
      rw [List.length_cons]
      omega

end Frame

namespace Analysis

variable {answers : String → Except OracleError Bool} {analysis : Analysis}
  {handlers : List Handler} {state after start : FlowState} {entry : Frame}

/-! ## The merges of the loop -/

/-- The points an analysis passes, with the edges that the visit under way has still to
follow: between two visits there is none. -/
inductive Passes (analysis : Analysis) (answers : String → Except OracleError Bool)
    (handlers : List Handler) (start : FlowState) :
    FlowState → List (Except AnalysisError (Nat × Frame)) → Prop
  | start : Passes analysis answers handlers start start []
  | skipped {state : FlowState} {index : Nat}
      (between : Passes analysis answers handlers start state [])
      (isPending : index ∈ state.pending)
      (absent : ∀ located before, analysis.body.instructions[index]? = some located →
        state.frames[index]? ≠ some (some before)) :
      Passes analysis answers handlers start (state.take index) []
  | visited {state : FlowState} {index : Nat} {located : Located} {before : Frame}
      {effect : Effect} (between : Passes analysis answers handlers start state [])
      (isPending : index ∈ state.pending)
      (atIndex : analysis.body.instructions[index]? = some located)
      (found : state.frames[index]? = some (some before))
      (transferred : (located.instruction.transfer (analysis.place index located) before).eval
        answers = .ok effect) :
      Passes analysis answers handlers start
        { state.take index with
          registry := state.registry.applyEdits (.instruction index) effect.edits }
        (analysis.edges handlers index located before effect.frame)
  | flowed {state after : FlowState} {edges : List (Except AnalysisError (Nat × Frame))}
      {address target : Nat} {incoming : Frame}
      (within : Passes analysis answers handlers start state (.ok (target, incoming) :: edges))
      (flowed : state.flowInto address target incoming = .ok after) :
      Passes analysis answers handlers start after edges

/-- Following all edges of a visit leads to a point between visits. -/
theorem Passes.flowAlong {address : Nat} {edges : List (Except AnalysisError (Nat × Frame))}
    (passes : analysis.Passes answers handlers start state edges)
    (flowed : state.flowAlong address edges = .ok after) :
    analysis.Passes answers handlers start after [] := by
  induction edges generalizing state with
  | nil =>
      obtain rfl := Except.ok.inj flowed
      exact passes
  | cons edge rest ih =>
      obtain ⟨target, incoming, between, rfl, into, flowed⟩ := FlowState.flowAlong_cons flowed
      exact ih (.flowed passes into) flowed

/-- A visit passes from one point between visits to the next. -/
theorem Passes.visit {index : Nat} (between : analysis.Passes answers handlers start state [])
    (isPending : index ∈ state.pending)
    (visited : (analysis.visit handlers index (state.take index)).eval answers = .ok after) :
    analysis.Passes answers handlers start after [] := by
  rcases visit_cases visited with
    ⟨rfl, absent⟩ | ⟨located, before, effect, atIndex, found, transferred, flowed⟩
  · exact .skipped between isPending absent
  · exact (Passes.visited between isPending atIndex found transferred).flowAlong flowed

theorem LoopEnds.passes {visits : Nat} {outcome : Except AnalysisError FlowState}
    (ended : analysis.LoopEnds answers handlers visits state outcome)
    (passes : analysis.Passes answers handlers start state []) (isFinal : outcome = .ok after) :
    analysis.Passes answers handlers start after [] := by
  induction ended with
  | emptied => exact Except.ok.inj isFinal ▸ passes
  | failed => cases isFinal
  | visited isNext visited _ ih =>
      exact ih (passes.visit (isNext ▸ List.mem_cons_self) visited) isFinal

/-- At every point the frames are grounded, and so is what is still to flow. -/
theorem Passes.grounded {edges : List (Except AnalysisError (Nat × Frame))}
    (passes : analysis.Passes answers handlers start state edges)
    (aimed : analysis.Aimed handlers) (grounded : analysis.Grounded answers start) :
    analysis.Grounded answers state ∧ ∀ target incoming, .ok (target, incoming) ∈ edges →
      target < analysis.count ∧ analysis.Incoming answers state incoming := by
  induction passes with
  | start => exact ⟨grounded, fun _ _ isEdge => absurd isEdge List.not_mem_nil⟩
  | skipped _ _ _ ih => exact ⟨ih.1.take _, fun _ _ isEdge => absurd isEdge List.not_mem_nil⟩
  | @visited state index located before effect _ _ atIndex found transferred ih =>
      have step := Instruction.transfer_step transferred
      have taken := ih.1.take index
      exact ⟨taken.applyEdits atIndex found step, fun _ _ isEdge =>
        outgoing_of_step aimed taken atIndex found step isEdge⟩
  | flowed _ flowed ih =>
      obtain ⟨isTarget, incoming⟩ := ih.2 _ _ List.mem_cons_self
      obtain ⟨grounded', advances, _⟩ := flowInto_spec ih.1 isTarget incoming flowed
      refine ⟨grounded', fun target given isEdge => ?_⟩
      obtain ⟨isTarget', incoming'⟩ := ih.2 target given (List.mem_cons_of_mem _ isEdge)
      exact ⟨isTarget', incoming'.advances advances⟩

theorem Grounded.fits (grounded : analysis.Grounded answers state) {index : Nat} {frame : Frame}
    (found : state.frames[index]? = some (some frame)) :
    frame.Fits analysis.slots analysis.count where
  locals := grounded.locals index frame found
  height := by
    have height := grounded.height index frame found
    have few := reached_le state.frames
    rw [grounded.framesSize] at few
    omega
  sited := (grounded.sited index frame found).mono fun _ known => grounded.within_of_known known

/-- What flows into an instruction that was reached before either changes no frame and
queues nothing, or raises the frame of that instruction. -/
theorem flowInto_raises {address target : Nat} {current incoming : Frame}
    (found : state.frames[target]? = some (some current))
    (flowed : state.flowInto address target incoming = .ok after) :
    (after.frames = state.frames ∧ after.pending = state.pending) ∨
      ∃ raised, after.frames = state.frames.setIfInBounds target (some raised) ∧
        after.frames[target]? = some (some raised) ∧ current < raised := by
  rcases FlowState.flowInto_cases flowed with ⟨unreached, _⟩ | ⟨_, found', height, merged⟩
  · rw [found] at unreached
    cases unreached
  · cases found.symm.trans found'
    rcases merged with ⟨_, rfl⟩ | ⟨changed, rfl⟩
    · exact .inl ⟨rfl, rfl⟩
    · refine .inr ⟨current.join incoming, frames_enqueue .., ?_, Frame.lt_join height changed⟩
      rw [frames_enqueue, getElem?_set_frames found, if_pos rfl]

end Analysis

/-! ## Every analysis -/

/-- The analysis of a body ends, whatever its loops, subroutines and handlers. Once it is
under way, the worklist is emptied or a visit fails within the bound on visits, and that is
its outcome. Each merge on the way that queues an instruction again raises its frame, and
among the frames that instructions of the body may have no chain rises for ever. -/
theorem MethodBody.analysis_loop_terminates (find : ClassFinder) (oracle : Oracle)
    (classFile : ClassFile) (body : MethodBody) (flatArrays : Bool) {handlers : List Handler}
    {start : FlowState} (nonempty : body.instructions.isEmpty = false)
    (prepared : (body.analysis classFile flatArrays).prepare.eval (oracle.answer find) =
      .ok (handlers, start)) :
    let analysis := body.analysis classFile flatArrays
    let answers := oracle.answer find
    (∃ visits ≤ analysis.visitBound, ∃ outcome,
      analysis.LoopEnds answers handlers visits start outcome ∧
      ((body.analyze classFile flatArrays).run find oracle).result =
        outcome.map FlowState.result ∧
      ∀ final, outcome = .ok final →
        final.pending = [] ∧ analysis.Passes answers handlers start final []) ∧
    (∀ state after edges address target current incoming,
      analysis.Passes answers handlers start state (.ok (target, incoming) :: edges) →
      state.frames[target]? = some (some current) →
      state.flowInto address target incoming = .ok after →
      (after.frames = state.frames ∧ after.pending = state.pending) ∨
        ∃ raised, after.frames = state.frames.setIfInBounds target (some raised) ∧
          current < raised ∧ current.Fits analysis.slots analysis.count ∧
          raised.Fits analysis.slots analysis.count) ∧
    ∀ frames : List Frame, frames.IsChain (· < ·) →
      (∀ frame ∈ frames, frame.Fits analysis.slots analysis.count) →
      frames.length ≤ Frame.rises analysis.slots analysis.count + 1 := by
  intro analysis answers
  obtain ⟨aimed, enough, entry, invariant⟩ := prepared_spec nonempty prepared
  refine ⟨?_, ?_, fun frames => Frame.length_le_rises⟩
  · obtain ⟨visits, few, ended⟩ := Analysis.exists_loopEnds aimed invariant enough
    refine ⟨visits, few, _, ended, ?_, fun final isFinal => ?_⟩
    · rw [Inquiry.run_result, analyze_of_prepared nonempty prepared]
    · exact ⟨(ended.invariant aimed invariant isFinal).2, ended.passes .start isFinal⟩
  · intro state after edges address target current incoming passes found flowed
    have grounded := (passes.grounded aimed invariant.grounded).1
    have grounded' := ((Analysis.Passes.flowed passes flowed).grounded aimed
      invariant.grounded).1
    rcases Analysis.flowInto_raises found flowed with same | ⟨raised, isSet, found', above⟩
    · exact .inl same
    · exact .inr ⟨raised, isSet, above, grounded.fits found, grounded'.fits found'⟩

/-- A static method that never leaves its loop, and whose handler covers itself. -/
def MethodBody.spin : MethodBody where
  isStatic := true
  descriptor := "(LV;)V"
  code := {
    maxStack := 1
    maxLocals := 1
    code := [0x2a, 0x57, 0xa7, 0xff, 0xfe]
    exceptions := [⟨0, 5, 1, 0⟩]
    attributes := [] }
  instructions := #[⟨0, .loadShort .reference 0⟩, ⟨1, .stack .pop⟩, ⟨2, .goto (-2)⟩]

/-- The analysis of `spin` ends with nothing pending. -/
theorem MethodBody.analysis_loop_terminates_spin : ∃ handlers start visits final,
    (spin.analysis .pair true).prepare.eval ((Oracle.knowing "V").answer fun _ => .absent) =
        .ok (handlers, start) ∧
      visits ≤ (spin.analysis .pair true).visitBound ∧
      (spin.analysis .pair true).LoopEnds ((Oracle.knowing "V").answer fun _ => .absent) handlers
        visits start (.ok final) ∧
      final.pending = [] := by
  have prepared : ∃ pair,
      (spin.analysis .pair true).prepare.eval ((Oracle.knowing "V").answer fun _ => .absent) =
        .ok pair ∧
      ((spin.analyze .pair true).eval
        ((Oracle.knowing "V").answer fun _ => .absent)).toOption.isSome = true := by
    apply Outcome.exists_of_any
    rw [Oracle.answer_knowing]
    decide +kernel
  obtain ⟨⟨handlers, start⟩, prepared, succeeds⟩ := prepared
  obtain ⟨⟨visits, few, outcome, ended, isResult, emptied⟩, _⟩ :=
    analysis_loop_terminates (fun _ => .absent) (.knowing "V") .pair spin true rfl prepared
  rw [Inquiry.run_result] at isResult
  rw [isResult] at succeeds
  cases outcome with
  | error error => cases succeeds
  | ok final => exact ⟨handlers, start, visits, final, prepared, few, ended, (emptied final rfl).1⟩

end ValueForm
