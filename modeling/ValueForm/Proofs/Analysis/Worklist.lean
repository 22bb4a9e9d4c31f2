import ValueForm.Analysis.Flow
import ValueForm.Proofs.Analysis.Progress

/-!
# The worklist

What the analysis of a body keeps while it visits instructions. An instruction
is settled when its step, taken again, changes neither the decisions nor a
frame. `Analysis.Invariant` says that every instruction that is not pending is
settled. `Analysis.Advances` is what happens to frames and decisions between two
points of the analysis: frames only rise, an instruction whose frame rises is
pending, and forcing is never taken back. A settled instruction stays settled
while the analysis advances.

The number of pending instructions and the potential of the frames together go
down with every visit, so the loop ends with nothing pending.
-/

namespace ValueForm

/-- The registry holds at a site what edits recorded last; if they recorded
nothing, it holds nothing there or a retired patch. -/
def Registry.Reflects (registry : Registry) (site : Site) (edits : List Edit) : Prop :=
  match recordedPatch? edits with
  | some patch => ∃ forced, registry.get? site = some { patch with forced }
  | none => ∀ patch, registry.get? site = some patch → patch.Retired

theorem Registry.Reflects.evolves {visited : Site → Prop} {before after : Registry} {site : Site}
    {edits : List Edit} (reflects : before.Reflects site edits)
    (evolves : Registry.Evolves visited before after) (outside : ¬ visited site) :
    after.Reflects site edits := by
  obtain ⟨flag, afterEq⟩ := evolves.kept site outside
  unfold Reflects at *
  cases recorded : recordedPatch? edits with
  | some patch =>
      rw [recorded] at reflects
      obtain ⟨forced, found⟩ := reflects
      rw [found] at afterEq
      exact ⟨_, afterEq⟩
  | none =>
      rw [recorded] at reflects
      intro patch found
      rw [afterEq] at found
      obtain ⟨old, oldFound, rfl⟩ := Option.map_eq_some_iff.1 found
      have retired := reflects old oldFound
      have forced := evolves.forced site (Registry.isForced_eq_true_iff.2
        ⟨old, oldFound, retired.2.2⟩)
      rw [Registry.isForced_of_get? (afterEq.trans (by rw [oldFound]; rfl))] at forced
      exact ⟨retired.1, retired.2.1, forced⟩

theorem Registry.Reflects.get?_ne_none {registry : Registry} {site : Site} {edits : List Edit}
    (reflects : registry.Reflects site edits) (recorded : recordedPatch? edits ≠ none) :
    registry.get? site ≠ none := by
  rcases Option.ne_none_iff_exists'.1 recorded with ⟨patch, isRecorded⟩
  rw [Reflects, isRecorded] at reflects
  rcases reflects with ⟨forced, found⟩
  rw [found]
  exact Option.some_ne_none _

/-- After the edits of a visit the registry reflects them. -/
theorem Registry.reflects_applyEdits (registry : Registry) (site : Site) (edits : List Edit) :
    (registry.applyEdits site edits).Reflects site edits := by
  unfold Reflects
  cases recorded : recordedPatch? edits with
  | some patch => exact registry.get?_applyEdits_of_recorded site recorded
  | none => exact fun patch found => registry.get?_applyEdits_of_not_recorded site recorded found

/-- Take an instruction off the pending ones. -/
def FlowState.take (state : FlowState) (index : Nat) : FlowState :=
  { state with
    pending := state.pending.erase index, queued := state.queued.setIfInBounds index false }

theorem FlowState.take_next {state : FlowState} {index : Nat} {pending : List Nat}
    (isNext : state.pending = index :: pending) :
    state.take index =
      { state with pending, queued := state.queued.setIfInBounds index false } := by
  rw [take, isNext, List.erase_cons_head]

/-- What flows into an instruction becomes its frame if it is the first, and is merged
otherwise; where a frame changes, the instruction is queued. -/
theorem FlowState.flowInto_cases {state after : FlowState} {address index : Nat} {frame : Frame}
    (flowed : state.flowInto address index frame = .ok after) :
    (state.frames[index]?.join = none ∧
      after = { state with
        frames := state.frames.setIfInBounds index (some frame) }.enqueue index) ∨
    ∃ current, state.frames[index]? = some (some current) ∧
      current.stack.length = frame.stack.length ∧
      (current.join frame = current ∧
          after = { state with registry := state.registry.force (current.conflict frame) } ∨
        current.join frame ≠ current ∧
          after = { state with
            registry := state.registry.force (current.conflict frame)
            frames := state.frames.setIfInBounds index
              (some (current.join frame)) }.enqueue index) := by
  unfold flowInto at flowed
  cases found : state.frames[index]?.join with
  | none =>
      rw [found] at flowed
      exact .inl ⟨rfl, (Except.ok.inj flowed).symm⟩
  | some current =>
      rw [found] at flowed
      dsimp only [Frame.merge] at flowed
      refine .inr ⟨current, Option.join_eq_some_iff.1 found, ?_⟩
      by_cases height : current.stack.length = frame.stack.length
      · rw [if_pos height] at flowed
        dsimp only at flowed
        split at flowed
        · next same => exact ⟨height, .inl ⟨same, (Except.ok.inj flowed).symm⟩⟩
        · next changed => exact ⟨height, .inr ⟨changed, (Except.ok.inj flowed).symm⟩⟩
      · rw [if_neg height] at flowed
        cases flowed

/-- Frames flow along edges one after the other. -/
theorem FlowState.flowAlong_cons {state after : FlowState} {address : Nat}
    {edge : Except AnalysisError (Nat × Frame)} {rest : List (Except AnalysisError (Nat × Frame))}
    (flowed : state.flowAlong address (edge :: rest) = .ok after) :
    ∃ target frame between, edge = .ok (target, frame) ∧
      state.flowInto address target frame = .ok between ∧
      between.flowAlong address rest = .ok after := by
  cases edge with
  | error error => cases flowed
  | ok pair =>
      obtain ⟨target, frame⟩ := pair
      rw [flowAlong] at flowed
      split at flowed
      · cases flowed
      · next between into => exact ⟨target, frame, between, rfl, into, flowed⟩

namespace Analysis

/-- Where the rule of an instruction of the body is applied. -/
def place (analysis : Analysis) (index : Nat) (located : Located) : Place :=
  ⟨analysis.classFile.pool, analysis.flatArrays, index, located.address⟩

/-- The site is an instruction that allocates an instance of a value-capable
class. -/
def IsAllocation (analysis : Analysis) (answers : String → Except OracleError Bool)
    (site : Site) : Prop :=
  ∃ (index : Nat) (located : Located), site = .instruction index ∧
    analysis.body.instructions[index]? = some located ∧
    located.instruction.Allocates analysis.classFile.pool (capability answers)

/-- The site has a decision, or is an allocation, which takes none. -/
def Known (analysis : Analysis) (answers : String → Except OracleError Bool) (registry : Registry)
    (site : Site) : Prop :=
  registry.get? site ≠ none ∨ analysis.IsAllocation answers site

/-- Forcing the site would change nothing. -/
def Held (analysis : Analysis) (answers : String → Except OracleError Bool) (registry : Registry)
    (site : Site) : Prop :=
  registry.isForced site = true ∨ analysis.IsAllocation answers site

/-- The number of local slots of the body. -/
def slots (analysis : Analysis) : Nat :=
  analysis.body.code.maxLocals.toNat

/-- The number of instructions of the body. -/
def count (analysis : Analysis) : Nat :=
  analysis.body.instructions.size

/-- Pending visits and those that raising frames can still cause. -/
def remaining (analysis : Analysis) (state : FlowState) : Nat :=
  state.pending.length + potential analysis.slots analysis.count state.frames

variable {answers : String → Except OracleError Bool}

theorem Known.evolves {analysis : Analysis} {visited : Site → Prop} {before after : Registry}
    {site : Site} (known : analysis.Known answers before site)
    (evolves : Registry.Evolves visited before after) : analysis.Known answers after site := by
  rcases known with recorded | isAllocation
  · exact .inl (evolves.recorded site recorded)
  · exact .inr isAllocation

theorem Held.evolves {analysis : Analysis} {visited : Site → Prop} {before after : Registry}
    {site : Site} (held : analysis.Held answers before site)
    (evolves : Registry.Evolves visited before after) : analysis.Held answers after site := by
  rcases held with forced | isAllocation
  · exact .inl (evolves.forced site forced)
  · exact .inr isAllocation

theorem held_force {analysis : Analysis} {registry : Registry} {sites : List Site} {site : Site}
    (known : analysis.Known answers registry site) (found : site ∈ sites) :
    analysis.Held answers (registry.force sites) site := by
  rcases known with recorded | isAllocation
  · obtain ⟨patch, patchEq⟩ := Option.ne_none_iff_exists'.1 recorded
    refine .inl (Registry.isForced_eq_true_iff.2 ⟨{ patch with forced := true }, ?_, rfl⟩)
    rw [Registry.get?_force, if_pos found, patchEq]
    rfl
  · exact .inr isAllocation

/-- What holds of the frames and decisions of an analysis under way. -/
structure Grounded (analysis : Analysis) (answers : String → Except OracleError Bool)
    (state : FlowState) : Prop where
  framesSize : state.frames.size = analysis.count
  queued : ∀ index : Nat, state.queued[index]? = some true → index ∈ state.pending
  locals : ∀ (index : Nat) (frame : Frame), state.frames[index]? = some (some frame) →
    frame.locals.size = analysis.slots
  sited : ∀ (index : Nat) (frame : Frame), state.frames[index]? = some (some frame) →
    frame.Sited (analysis.Known answers state.registry)
  height : ∀ (index : Nat) (frame : Frame), state.frames[index]? = some (some frame) →
    frame.stack.length + 2 ≤ 2 * reached state.frames
  within : ∀ site, state.registry.get? site ≠ none → site.Within analysis.slots analysis.count
  allocation : ∀ site, analysis.IsAllocation answers site → state.registry.get? site = none
  /-- Only instructions that were reached have decisions. -/
  owned : ∀ index, state.registry.get? (.instruction index) ≠ none →
    ∃ frame, state.frames[index]? = some (some frame)
  /-- The decisions at entry are conversions of their slots. -/
  entered : ∀ slot patch, state.registry.get? (.entry slot) = some patch →
    patch.action = .entryUnbox slot ∧ patch.left = .nothing

/-- How an analysis gets from one point to another while it visits only sites in
`visited`. -/
structure Advances (analysis : Analysis) (answers : String → Except OracleError Bool)
    (visited : Site → Prop) (before after : FlowState) : Prop where
  registry : Registry.Evolves visited before.registry after.registry
  pending : ∀ index ∈ before.pending, index ∈ after.pending
  /-- A frame that is new or has risen is pending. -/
  kept : ∀ (index : Nat) (frame : Frame), after.frames[index]? = some (some frame) →
    before.frames[index]? = some (some frame) ∨ index ∈ after.pending
  /-- What a frame has absorbed stays absorbed. -/
  raised : ∀ (index : Nat) (frame : Frame), before.frames[index]? = some (some frame) →
    ∃ risen, after.frames[index]? = some (some risen) ∧ ∀ incoming,
      frame.Absorbs (analysis.Held answers before.registry) incoming →
        risen.Absorbs (analysis.Held answers after.registry) incoming
  reached : reached before.frames ≤ reached after.frames
  remaining : analysis.remaining after ≤ analysis.remaining before

namespace Advances

variable {analysis : Analysis} {visited visited' : Site → Prop} {first second third : FlowState}

theorem trans (earlier : analysis.Advances answers visited first second)
    (later : analysis.Advances answers visited second third) :
    analysis.Advances answers visited first third where
  registry := earlier.registry.trans later.registry
  pending index found := later.pending index (earlier.pending index found)
  kept index frame found := by
    rcases later.kept index frame found with found | isPending
    · rcases earlier.kept index frame found with found | isPending
      · exact .inl found
      · exact .inr (later.pending index isPending)
    · exact .inr isPending
  raised index frame found := by
    obtain ⟨risen, foundSecond, absorbsSecond⟩ := earlier.raised index frame found
    obtain ⟨risen', foundThird, absorbsThird⟩ := later.raised index risen foundSecond
    exact ⟨risen', foundThird, fun incoming absorbs =>
      absorbsThird incoming (absorbsSecond incoming absorbs)⟩
  reached := Nat.le_trans earlier.reached later.reached
  remaining := Nat.le_trans later.remaining earlier.remaining

theorem mono (advances : analysis.Advances answers visited first second)
    (wider : ∀ site, visited site → visited' site) :
    analysis.Advances answers visited' first second :=
  { advances with registry := advances.registry.mono wider }

/-- Changing only decisions is an advance. -/
theorem of_registry {state : FlowState} {registry : Registry}
    (evolves : Registry.Evolves visited state.registry registry) :
    analysis.Advances answers visited state { state with registry } where
  registry := evolves
  pending _ found := found
  kept _ _ found := .inl found
  raised _ frame found :=
    ⟨frame, found, fun _ absorbs => absorbs.mono fun _ held => held.evolves evolves⟩
  reached := Nat.le_refl _
  remaining := Nat.le_refl _

end Advances

namespace Grounded

variable {analysis : Analysis} {state : FlowState}

/-- A registry in which only flags have changed serves as well. -/
theorem evolves {registry : Registry} (grounded : analysis.Grounded answers state)
    (evolves : Registry.Evolves (fun _ => False) state.registry registry) :
    analysis.Grounded answers { state with registry } := by
  have recorded (site : Site) (found : registry.get? site ≠ none) :
      state.registry.get? site ≠ none :=
    fun missing => found (evolves.get?_eq_none id missing)
  refine { grounded with sited := ?_, within := ?_, allocation := ?_, owned := ?_, entered := ?_ }
  · intro index frame found
    exact (grounded.sited index frame found).mono fun _ known => known.evolves evolves
  · intro site found
    exact grounded.within site (recorded site found)
  · intro site isAllocation
    exact evolves.get?_eq_none id (grounded.allocation site isAllocation)
  · intro index found
    exact grounded.owned index (recorded _ found)
  · intro slot patch found
    obtain ⟨flag, forcedEq⟩ := evolves.kept (.entry slot) id
    rw [forcedEq] at found
    obtain ⟨old, oldFound, rfl⟩ := Option.map_eq_some_iff.1 found
    exact grounded.entered slot old oldFound

theorem within_of_known (grounded : analysis.Grounded answers state) {site : Site}
    (known : analysis.Known answers state.registry site) :
    site.Within analysis.slots analysis.count := by
  rcases known with recorded | ⟨index, located, rfl, found, _⟩
  · exact grounded.within site recorded
  · exact (Array.getElem?_eq_some_iff.1 found).1

end Grounded

section Enqueue

variable (state : FlowState) (index : Nat)

@[simp]
theorem registry_enqueue : (state.enqueue index).registry = state.registry := by
  unfold FlowState.enqueue
  split <;> rfl

@[simp]
theorem frames_enqueue : (state.enqueue index).frames = state.frames := by
  unfold FlowState.enqueue
  split <;> rfl

/-- A queued instruction is pending. -/
theorem mem_pending_enqueue (sound : ∀ other : Nat, state.queued[other]? = some true →
    other ∈ state.pending) : index ∈ (state.enqueue index).pending := by
  unfold FlowState.enqueue
  split
  · next isQueued =>
      apply sound index
      cases atIndex : state.queued[index]? with
      | none => simp [atIndex] at isQueued
      | some queued =>
          rw [atIndex, Option.getD_some] at isQueued
          rw [isQueued]
  · exact List.mem_cons_self

theorem mem_enqueue_of_mem {other : Nat} (found : other ∈ state.pending) :
    other ∈ (state.enqueue index).pending := by
  unfold FlowState.enqueue
  split
  · exact found
  · exact List.mem_cons_of_mem index found

theorem length_pending_enqueue :
    (state.enqueue index).pending.length ≤ state.pending.length + 1 := by
  unfold FlowState.enqueue
  split
  · exact Nat.le_succ _
  · exact Nat.le_refl _

theorem queued_enqueue (sound : ∀ other : Nat, state.queued[other]? = some true →
    other ∈ state.pending) (other : Nat)
    (isQueued : (state.enqueue index).queued[other]? = some true) :
    other ∈ (state.enqueue index).pending := by
  unfold FlowState.enqueue at *
  split
  · next skipped =>
      rw [if_pos skipped] at isQueued
      exact sound other isQueued
  · next added =>
      rw [if_neg added] at isQueued
      rw [Array.getElem?_setIfInBounds] at isQueued
      split at isQueued
      · next same => exact same ▸ List.mem_cons_self
      · exact List.mem_cons_of_mem index (sound other isQueued)

end Enqueue

/-- Frames after a write: the written one, and the others as before. -/
theorem getElem?_set_frames {frames : Array (Option Frame)} {index : Nat} {old : Option Frame}
    (found : frames[index]? = some old) (frame : Frame) (other : Nat) :
    (frames.setIfInBounds index (some frame))[other]? =
      if index = other then some (some frame) else frames[other]? := by
  have inRange := (Array.getElem?_eq_some_iff.1 found).1
  rw [Array.getElem?_setIfInBounds, if_pos inRange]

/-- Giving an instruction a frame and queuing it. -/
theorem Grounded.set {analysis : Analysis} {state : FlowState} {index : Nat} {old : Option Frame}
    {frame : Frame} (grounded : analysis.Grounded answers state)
    (found : state.frames[index]? = some old)
    (locals : frame.locals.size = analysis.slots)
    (sited : frame.Sited (analysis.Known answers state.registry))
    (height : frame.stack.length + 2 ≤
      2 * ValueForm.reached (state.frames.setIfInBounds index (some frame)))
    (grown : ValueForm.reached state.frames ≤
      ValueForm.reached (state.frames.setIfInBounds index (some frame))) :
    analysis.Grounded answers ({ state with
      frames := state.frames.setIfInBounds index (some frame) }.enqueue index) := by
  have cases {P : Frame → Prop} (here : P frame)
      (there : ∀ (other : Nat) (given : Frame), state.frames[other]? = some (some given) → P given)
      (other : Nat) (given : Frame)
      (atOther : (state.frames.setIfInBounds index (some frame))[other]? = some (some given)) :
      P given := by
    rw [getElem?_set_frames found] at atOther
    split at atOther
    · obtain rfl := Option.some.inj (Option.some.inj atOther)
      exact here
    · exact there other given atOther
  constructor
  · rw [frames_enqueue, Array.size_setIfInBounds]
    exact grounded.framesSize
  · exact queued_enqueue _ index grounded.queued
  · rw [frames_enqueue]
    exact cases locals grounded.locals
  · rw [frames_enqueue, registry_enqueue]
    exact cases sited grounded.sited
  · rw [frames_enqueue]
    exact cases height fun other given atOther =>
      Nat.le_trans (grounded.height other given atOther) (Nat.mul_le_mul_left 2 grown)
  · rw [registry_enqueue]
    exact grounded.within
  · rw [registry_enqueue]
    exact grounded.allocation
  · rw [registry_enqueue, frames_enqueue]
    intro other recorded
    obtain ⟨given, atOther⟩ := grounded.owned other recorded
    rw [getElem?_set_frames found]
    split
    · exact ⟨frame, rfl⟩
    · exact ⟨given, atOther⟩
  · rw [registry_enqueue]
    exact grounded.entered

/-- A frame that may flow into an instruction. -/
structure Incoming (analysis : Analysis) (answers : String → Except OracleError Bool)
    (state : FlowState) (frame : Frame) : Prop where
  locals : frame.locals.size = analysis.slots
  sited : frame.Sited (analysis.Known answers state.registry)
  height : frame.stack.length ≤ 2 * ValueForm.reached state.frames

theorem Incoming.advances {analysis : Analysis} {visited : Site → Prop} {before after : FlowState}
    {frame : Frame} (incoming : analysis.Incoming answers before frame)
    (advances : analysis.Advances answers visited before after) :
    analysis.Incoming answers after frame where
  locals := incoming.locals
  sited := incoming.sited.mono fun _ known => known.evolves advances.registry
  height := Nat.le_trans incoming.height (Nat.mul_le_mul_left 2 advances.reached)

/-- The frame of an instruction has absorbed another. -/
def HasAbsorbed (analysis : Analysis) (answers : String → Except OracleError Bool)
    (registry : Registry) (frames : Array (Option Frame)) (target : Nat) (frame : Frame) : Prop :=
  ∃ current, frames[target]? = some (some current) ∧
    current.Absorbs (analysis.Held answers registry) frame

theorem Advances.hasAbsorbed {analysis : Analysis} {visited : Site → Prop}
    {before after : FlowState} (advances : analysis.Advances answers visited before after)
    {target : Nat} {frame : Frame}
    (absorbed : analysis.HasAbsorbed answers before.registry before.frames target frame) :
    analysis.HasAbsorbed answers after.registry after.frames target frame := by
  obtain ⟨current, found, absorbs⟩ := absorbed
  obtain ⟨risen, foundAfter, keeps⟩ := advances.raised target current found
  exact ⟨risen, foundAfter, keeps frame absorbs⟩

/-- Raising the frame of an instruction and queuing it is an advance. -/
theorem advances_set {analysis : Analysis} {state : FlowState} {index : Nat} {old : Option Frame}
    {frame : Frame} (grounded : analysis.Grounded answers state)
    (found : state.frames[index]? = some old)
    (keeps : ∀ current, old = some current → ∀ incoming,
      current.Absorbs (analysis.Held answers state.registry) incoming →
        frame.Absorbs (analysis.Held answers state.registry) incoming)
    (lower : reserve analysis.slots analysis.count (some frame) <
      reserve analysis.slots analysis.count old)
    (grown : ValueForm.reached state.frames ≤
      ValueForm.reached (state.frames.setIfInBounds index (some frame))) :
    analysis.Advances answers (fun _ => False) state ({ state with
      frames := state.frames.setIfInBounds index (some frame) }.enqueue index) := by
  constructor
  · rw [registry_enqueue]
    exact .refl _
  · exact fun other isPending => mem_enqueue_of_mem _ index isPending
  · intro other given atOther
    rw [frames_enqueue, getElem?_set_frames found] at atOther
    split at atOther
    · next same => exact .inr (same ▸ mem_pending_enqueue _ index grounded.queued)
    · exact .inl atOther
  · intro other given atOther
    rw [frames_enqueue, registry_enqueue, getElem?_set_frames found]
    split
    · next same =>
        subst same
        exact ⟨frame, rfl, keeps given (Option.some.inj (found.symm.trans atOther))⟩
    · exact ⟨given, atOther, fun _ absorbs => absorbs⟩
  · rw [frames_enqueue]
    exact grown
  · have shorter := length_pending_enqueue { state with
      frames := state.frames.setIfInBounds index (some frame) } index
    have balance := potential_set analysis.slots analysis.count found (some frame)
    rw [remaining, remaining, frames_enqueue]
    dsimp only at *
    omega

section FlowInto

variable {analysis : Analysis} {state after : FlowState} {address index : Nat} {frame : Frame}

/-- Reaching an instruction for the first time. -/
theorem flowInto_unreached (grounded : analysis.Grounded answers state)
    (incoming : analysis.Incoming answers state frame) (found : state.frames[index]? = some none)
    (afterEq : after = { state with
      frames := state.frames.setIfInBounds index (some frame) }.enqueue index) :
    analysis.Grounded answers after ∧ analysis.Advances answers (fun _ => False) state after ∧
      analysis.HasAbsorbed answers after.registry after.frames index frame := by
  subst afterEq
  have grown := reached_set_of_none found frame
  have few := reached_le state.frames
  have height := incoming.height
  rw [grounded.framesSize] at few
  refine ⟨grounded.set found incoming.locals incoming.sited (by omega) (by omega),
    advances_set grounded found ?_ ?_ (by omega), ?_⟩
  · intro current isSome
    cases isSome
  · exact headroom_lt_reserve_none incoming.locals (by omega)
  · refine ⟨frame, ?_, frame.absorbs_self⟩
    rw [frames_enqueue, getElem?_set_frames found, if_pos rfl]

/-- Merging into an instruction that was reached before. -/
theorem flowInto_reached {current : Frame} (grounded : analysis.Grounded answers state)
    (incoming : analysis.Incoming answers state frame)
    (found : state.frames[index]? = some (some current))
    (height : current.stack.length = frame.stack.length)
    (afterEq : after =
      if current.join frame = current then
        { state with registry := state.registry.force (current.conflict frame) }
      else
        { state with
          registry := state.registry.force (current.conflict frame)
          frames := state.frames.setIfInBounds index (some (current.join frame)) }.enqueue index) :
    analysis.Grounded answers after ∧ analysis.Advances answers (fun _ => False) state after ∧
      analysis.HasAbsorbed answers after.registry after.frames index frame := by
  have evolves := Registry.evolves_force (fun _ => False) state.registry (current.conflict frame)
  have forced := grounded.evolves evolves
  have advances : analysis.Advances answers (fun _ => False) state
    { state with registry := state.registry.force (current.conflict frame) } := .of_registry evolves
  have isHeld : ∀ site ∈ current.conflict frame,
      analysis.Held answers (state.registry.force (current.conflict frame)) site := by
    intro site inConflict
    have known := (grounded.sited index current found).of_mem_conflict incoming.sited inConflict
    exact held_force known inConflict
  have absorbs := Frame.absorbs_join_right height isHeld
  split at afterEq
  · next same =>
      subst afterEq
      rw [same] at absorbs
      exact ⟨forced, advances, current, found, absorbs⟩
  · next changed =>
      subst afterEq
      have sited := (forced.sited index current found).join (incoming.advances advances).sited
      have size := reached_set_of_some found (current.join frame)
      have grown : ValueForm.reached state.frames ≤ ValueForm.reached
        (state.frames.setIfInBounds index (some (current.join frame))) := Nat.le_of_eq size.symm
      have lower : (current.join frame).headroom (analysis.slots + analysis.count) <
          current.headroom (analysis.slots + analysis.count) :=
        (Frame.join_eq_or_headroom_lt height
          (sited.mono fun _ known => forced.within_of_known known)).resolve_left changed
      refine ⟨forced.set found ?_ sited ?_ grown,
        advances.trans (advances_set forced found ?_ lower grown), current.join frame, ?_, ?_⟩
      · rw [Frame.size_join_locals]
        exact grounded.locals index current found
      · rw [size, Frame.length_join_stack height]
        exact grounded.height index current found
      · rintro _ ⟨⟩ other absorbed
        exact absorbed.join height isHeld
      · rw [frames_enqueue, getElem?_set_frames found, if_pos rfl]
      · rw [registry_enqueue]
        exact absorbs

/-- Letting a frame flow into an instruction advances the analysis, and the
instruction has absorbed the frame. -/
theorem flowInto_spec (grounded : analysis.Grounded answers state)
    (isTarget : index < analysis.count) (incoming : analysis.Incoming answers state frame)
    (flowed : state.flowInto address index frame = .ok after) :
    analysis.Grounded answers after ∧ analysis.Advances answers (fun _ => False) state after ∧
      analysis.HasAbsorbed answers after.registry after.frames index frame := by
  rcases FlowState.flowInto_cases flowed with
    ⟨unreached, afterEq⟩ | ⟨current, found, height, merged⟩
  · have inRange : index < state.frames.size := grounded.framesSize ▸ isTarget
    have found := Array.getElem?_eq_getElem inRange
    rw [found, Option.join_some] at unreached
    rw [unreached] at found
    exact flowInto_unreached grounded incoming found afterEq
  · apply flowInto_reached grounded incoming found height
    rcases merged with ⟨same, afterEq⟩ | ⟨changed, afterEq⟩
    · rw [if_pos same, afterEq]
    · rw [if_neg changed, afterEq]

end FlowInto

/-- Letting frames flow along edges: every edge leads to an instruction, which
has absorbed the frame that flowed along it. -/
theorem flowAlong_spec {analysis : Analysis} {state after : FlowState} {address : Nat}
    {edges : List (Except AnalysisError (Nat × Frame))} (grounded : analysis.Grounded answers state)
    (incoming : ∀ target frame, .ok (target, frame) ∈ edges →
      target < analysis.count ∧ analysis.Incoming answers state frame)
    (flowed : state.flowAlong address edges = .ok after) :
    analysis.Grounded answers after ∧ analysis.Advances answers (fun _ => False) state after ∧
      ∀ edge ∈ edges, ∃ target frame, edge = .ok (target, frame) ∧
        analysis.HasAbsorbed answers after.registry after.frames target frame := by
  induction edges generalizing state with
  | nil =>
      obtain rfl := Except.ok.inj flowed
      exact ⟨grounded, .of_registry (.refl _), fun edge found => absurd found List.not_mem_nil⟩
  | cons edge rest ih =>
      obtain ⟨target, frame, middle, rfl, into, flowed⟩ := FlowState.flowAlong_cons flowed
      rcases incoming target frame List.mem_cons_self with ⟨isTarget, here⟩
      obtain ⟨groundedMiddle, first, absorbed⟩ := flowInto_spec grounded isTarget here into
      have incomingRest : ∀ target frame, .ok (target, frame) ∈ rest →
          target < analysis.count ∧ analysis.Incoming answers middle frame := by
        intro target frame found
        rcases incoming target frame (List.mem_cons_of_mem _ found) with ⟨isTarget, there⟩
        exact ⟨isTarget, there.advances first⟩
      obtain ⟨groundedAfter, later, absorbedRest⟩ := ih groundedMiddle incomingRest flowed
      -- What the first edge's target absorbed survives the later merges.
      refine ⟨groundedAfter, first.trans later, fun edge found => ?_⟩
      rcases List.mem_cons.1 found with rfl | found
      · exact ⟨target, frame, rfl, later.hasAbsorbed absorbed⟩
      · exact absorbedRest edge found

/-- The instruction's step, taken on the frame before it, changes nothing. -/
structure Settled (analysis : Analysis) (answers : String → Except OracleError Bool)
    (handlers : List Handler) (registry : Registry) (frames : Array (Option Frame)) (index : Nat)
    (located : Located) (before : Frame) (effect : Effect) : Prop where
  transferred : (located.instruction.transfer (analysis.place index located) before).eval answers =
    .ok effect
  reflected : registry.Reflects (.instruction index) effect.edits
  forced : ∀ sites, Edit.force sites ∈ effect.edits →
    ∀ site ∈ sites, analysis.Held answers registry site
  linked : ∀ group, Edit.link group ∈ effect.edits → 1 < group.size → group ∈ registry.links
  flowed : ∀ edge ∈ analysis.edges handlers index located before effect.frame,
    ∃ target frame, edge = .ok (target, frame) ∧
      analysis.HasAbsorbed answers registry frames target frame

/-- The instruction is settled, if it is there and has been reached. -/
def SettledAt (analysis : Analysis) (answers : String → Except OracleError Bool)
    (handlers : List Handler) (registry : Registry) (frames : Array (Option Frame)) (index : Nat) :
    Prop :=
  ∀ located before, analysis.body.instructions[index]? = some located →
    frames[index]? = some (some before) →
      ∃ effect, analysis.Settled answers handlers registry frames index located before effect

/-- What the analysis keeps from visit to visit. -/
structure Invariant (analysis : Analysis) (answers : String → Except OracleError Bool)
    (handlers : List Handler) (entry : Frame) (state : FlowState) : Prop where
  grounded : analysis.Grounded answers state
  settled : ∀ index, index ∉ state.pending →
    analysis.SettledAt answers handlers state.registry state.frames index
  entered : analysis.HasAbsorbed answers state.registry state.frames 0 entry

/-- Jumps and handlers lead to instructions of the body. -/
structure Aimed (analysis : Analysis) (handlers : List Handler) : Prop where
  positions : ∀ target index, analysis.addresses.position? target = some index →
    index < analysis.count
  targets : ∀ handler ∈ handlers, handler.target < analysis.count

section Visit

variable {analysis : Analysis}
  {handlers : List Handler} {state after : FlowState} {index : Nat} {located : Located}
  {before : Frame} {effect : Effect}

/-- An instruction that is neither visited nor pending stays settled. -/
theorem Advances.settledAt {visited : Site → Prop}
    (advances : analysis.Advances answers visited state after)
    (settled : analysis.SettledAt answers handlers state.registry state.frames index)
    (outside : ¬ visited (.instruction index)) (notPending : index ∉ after.pending) :
    analysis.SettledAt answers handlers after.registry after.frames index := by
  intro located before atIndex found
  obtain ⟨effect, here⟩ := settled located before atIndex
    ((advances.kept index before found).resolve_right notPending)
  refine ⟨effect, ⟨here.transferred, here.reflected.evolves advances.registry outside, ?_, ?_, ?_⟩⟩
  · intro sites asked site inSites
    exact (here.forced sites asked site inSites).evolves advances.registry
  · intro group asked large
    exact advances.registry.links group (here.linked group asked large)
  · intro edge isEdge
    obtain ⟨target, frame, leads, absorbed⟩ := here.flowed edge isEdge
    exact ⟨target, frame, leads, advances.hasAbsorbed absorbed⟩

/-- Taking an instruction off the pending ones. -/
theorem Grounded.take (grounded : analysis.Grounded answers state) (index : Nat) :
    analysis.Grounded answers (state.take index) := by
  refine { grounded with queued := ?_ }
  intro other isQueued
  rw [FlowState.take, Array.getElem?_setIfInBounds] at isQueued
  split at isQueued
  · split at isQueued
    · cases isQueued
    · cases isQueued
  · next different =>
      exact (List.mem_erase_of_ne fun same => different same.symm).2
        (grounded.queued other isQueued)

/-- Carrying out the edits of a visit. -/
theorem Grounded.applyEdits (grounded : analysis.Grounded answers state)
    (atIndex : analysis.body.instructions[index]? = some located)
    (found : state.frames[index]? = some (some before))
    (step : located.instruction.Step (analysis.place index located) (capability answers) before
      effect) :
    analysis.Grounded answers
      { state with registry := state.registry.applyEdits (.instruction index) effect.edits } := by
  have evolves := state.registry.evolves_applyEdits (.instruction index) effect.edits
  refine { grounded with sited := ?_, within := ?_, allocation := ?_, owned := ?_, entered := ?_ }
  · intro other frame atOther
    exact (grounded.sited other frame atOther).mono fun _ known => known.evolves evolves
  · intro site recorded
    by_cases here : site = .instruction index
    · rw [here]
      exact (Array.getElem?_eq_some_iff.1 atIndex).1
    · exact grounded.within site fun missing => recorded (evolves.get?_eq_none here missing)
  · rintro site isAllocation
    have missing := grounded.allocation site isAllocation
    by_cases here : site = .instruction index
    · subst here
      obtain ⟨_, other, ⟨⟩, atOther, allocates⟩ := isAllocation
      obtain rfl := Option.some.inj (atIndex.symm.trans atOther)
      exact Registry.get?_applyEdits_eq_none _ _ (step.recordedPatch?_of_allocates allocates)
        missing
    · exact evolves.get?_eq_none here missing
  · intro other recorded
    by_cases here : other = index
    · subst here
      exact ⟨before, found⟩
    · refine grounded.owned other fun missing => recorded (evolves.get?_eq_none ?_ missing)
      exact fun same => here (Site.instruction.inj same)
  · intro slot patch recorded
    obtain ⟨flag, editedEq⟩ := evolves.kept (.entry slot) (by simp)
    rw [editedEq] at recorded
    obtain ⟨old, oldFound, rfl⟩ := Option.map_eq_some_iff.1 recorded
    exact grounded.entered slot old oldFound

/-- What flows out of a visit may flow into the instructions it flows to. -/
theorem incoming_of_mem_edges (aimed : analysis.Aimed handlers)
    (positive : 0 < ValueForm.reached state.frames)
    (incoming : analysis.Incoming answers state before)
    (incoming' : analysis.Incoming answers state effect.frame)
    {target : Nat} {frame : Frame}
    (isEdge : .ok (target, frame) ∈ analysis.edges handlers index located before effect.frame) :
    target < analysis.count ∧ analysis.Incoming answers state frame := by
  have caught (given : Frame) (type : FieldType) (fits : analysis.Incoming answers state given) :
      analysis.Incoming answers state (given.handlerFrame (.precise type)) := by
    refine ⟨fits.locals, fits.sited.handlerFrame, ?_⟩
    simp only [Frame.handlerFrame, List.length_singleton]
    omega
  simp only [edges, List.mem_append, List.mem_flatMap, List.mem_map] at isEdge
  rcases isEdge with (⟨handler, isHandler, isEdge⟩ | ⟨offset, _, isEdge⟩) | isEdge
  · have inRange := aimed.targets handler (List.mem_filter.1 isHandler).1
    simp only [List.mem_cons, List.not_mem_nil, or_false, Except.ok.injEq, Prod.mk.injEq] at isEdge
    rcases isEdge with ⟨rfl, rfl⟩ | ⟨rfl, rfl⟩
    · exact ⟨inRange, caught before _ incoming⟩
    · exact ⟨inRange, caught effect.frame _ incoming'⟩
  · unfold positionAt at isEdge
    cases position : analysis.addresses.position? (located.address + offset.toInt) with
    | none =>
        rw [position] at isEdge
        cases isEdge
    | some found =>
        rw [position] at isEdge
        cases isEdge
        exact ⟨aimed.positions _ _ position, incoming'⟩
  · split at isEdge
    · cases isEdge
    · split at isEdge
      · next inRange =>
          obtain ⟨rfl, rfl⟩ := Prod.mk.inj (Except.ok.inj (List.mem_singleton.1 isEdge))
          refine ⟨inRange, ?_⟩
          split
          · exact incoming
          · exact incoming'
      · simp at isEdge

/-- What a step leaves may flow on once its edits are carried out. -/
theorem incoming_of_step (grounded : analysis.Grounded answers state)
    (atIndex : analysis.body.instructions[index]? = some located)
    (found : state.frames[index]? = some (some before))
    (step : located.instruction.Step (analysis.place index located) (capability answers) before
      effect) :
    analysis.Incoming answers
      { state with registry := state.registry.applyEdits (.instruction index) effect.edits }
      effect.frame := by
  have evolves := state.registry.evolves_applyEdits (.instruction index) effect.edits
  have reflects := state.registry.reflects_applyEdits (.instruction index) effect.edits
  have height := grounded.height index before found
  constructor
  · exact step.size_locals.trans (grounded.locals index before found)
  · apply step.sited (grounded.sited index before found) fun _ known => known.evolves evolves
    rintro (recorded | allocates)
    · exact .inl (reflects.get?_ne_none recorded)
    · exact .inr ⟨index, located, rfl, atIndex, allocates⟩
  · have atMostTwoMore := step.length_stack
    dsimp only
    omega

/-- Once the edits of a step are carried out, what flows out of the visit may flow into
the instructions it flows to. -/
theorem outgoing_of_step (aimed : analysis.Aimed handlers)
    (grounded : analysis.Grounded answers state)
    (atIndex : analysis.body.instructions[index]? = some located)
    (found : state.frames[index]? = some (some before))
    (step : located.instruction.Step (analysis.place index located) (capability answers) before
      effect) {target : Nat} {frame : Frame}
    (isEdge : .ok (target, frame) ∈ analysis.edges handlers index located before effect.frame) :
    target < analysis.count ∧ analysis.Incoming answers
      { state with registry := state.registry.applyEdits (.instruction index) effect.edits }
      frame := by
  have edited := grounded.applyEdits atIndex found step
  have height := grounded.height index before found
  have incoming : analysis.Incoming answers
      { state with registry := state.registry.applyEdits (.instruction index) effect.edits }
      before := by
    refine ⟨grounded.locals index before found, edited.sited index before found, ?_⟩
    dsimp only
    omega
  exact incoming_of_mem_edges aimed (by dsimp only; omega) incoming
    (incoming_of_step grounded atIndex found step) isEdge

/-- A visit to an instruction that was reached keeps its frame, or queues it
again, and settles it. -/
theorem visit_reached (aimed : analysis.Aimed handlers) (grounded : analysis.Grounded answers state)
    (atIndex : analysis.body.instructions[index]? = some located)
    (found : state.frames[index]? = some (some before))
    (transferred : (located.instruction.transfer (analysis.place index located) before).eval
      answers = .ok effect)
    (flowed : { state with
      registry := state.registry.applyEdits (.instruction index) effect.edits }.flowAlong
        located.address (analysis.edges handlers index located before effect.frame) = .ok after) :
    analysis.Grounded answers after ∧
      analysis.Advances answers (· = .instruction index) state after ∧
      (index ∉ after.pending →
        analysis.SettledAt answers handlers after.registry after.frames index) := by
  have step := Instruction.transfer_step transferred
  have evolves := state.registry.evolves_applyEdits (.instruction index) effect.edits
  have edited := grounded.applyEdits atIndex found step
  have advances : analysis.Advances answers (· = .instruction index) state
    { state with registry := state.registry.applyEdits (.instruction index) effect.edits } :=
    .of_registry evolves
  obtain ⟨groundedAfter, later, absorbed⟩ := flowAlong_spec edited
    (fun _ _ isEdge => outgoing_of_step aimed grounded atIndex found step isEdge) flowed
  have whole := advances.trans (later.mono fun _ => False.elim)
  refine ⟨groundedAfter, whole, fun notPending => ?_⟩
  -- An instruction that flows back into itself and raises its own frame is
  -- pending again; otherwise its frame is the one that was visited.
  intro located' before' atIndex' found'
  obtain rfl := Option.some.inj (atIndex.symm.trans atIndex')
  have foundBefore := (whole.kept index before' found').resolve_right notPending
  obtain rfl := Option.some.inj (Option.some.inj (found.symm.trans foundBefore))
  refine ⟨effect, transferred, ?_, ?_, ?_, absorbed⟩
  · exact (state.registry.reflects_applyEdits _ effect.edits).evolves later.registry id
  · intro sites asked site inSites
    obtain ⟨className, holds⟩ := step.holds_of_about? asked rfl
    rcases (grounded.sited index before found _ holds).2 site inSites with recorded | isAllocation
    · exact .inl (later.registry.forced site
        (state.registry.isForced_applyEdits _ asked inSites recorded))
    · exact .inr isAllocation
  · intro group asked large
    exact later.registry.links group (state.registry.mem_links_applyEdits _ asked large)

/-- A visit does nothing where no instruction was reached; otherwise it takes the
step of the instruction, carries out its edits and lets its results flow on. -/
theorem visit_cases (visited : (analysis.visit handlers index state).eval answers = .ok after) :
    (after = state ∧ ∀ located before, analysis.body.instructions[index]? = some located →
      state.frames[index]? ≠ some (some before)) ∨
    ∃ located before effect, analysis.body.instructions[index]? = some located ∧
      state.frames[index]? = some (some before) ∧
      (located.instruction.transfer (analysis.place index located) before).eval answers =
        .ok effect ∧
      { state with
        registry := state.registry.applyEdits (.instruction index) effect.edits }.flowAlong
          located.address (analysis.edges handlers index located before effect.frame) =
            .ok after := by
  unfold visit at visited
  cases atIndex : analysis.body.instructions[index]? with
  | none =>
      refine .inl ⟨?_, fun located before isSome => by cases isSome⟩
      split at visited
      · next isSome => cases isSome.symm.trans atIndex
      · exact (Inquiry.eval_pure_eq_ok_iff.1 visited).symm
  | some located =>
      cases found : state.frames[index]?.join with
      | none =>
          rw [found] at visited
          refine .inl ⟨(Inquiry.eval_pure_eq_ok_iff.1 visited).symm, ?_⟩
          intro _ before _ isReached
          rw [isReached] at found
          cases found
      | some before =>
          rw [found, atIndex] at visited
          obtain ⟨effect, transferred, flowed⟩ := Inquiry.eval_bind_eq_ok_iff.1 visited
          exact .inr ⟨located, before, effect, rfl, Option.join_eq_some_iff.1 found, transferred,
            flowed⟩

/-- A visit advances the analysis and settles the instruction, unless it queues
it again. -/
theorem visit_spec (aimed : analysis.Aimed handlers) (grounded : analysis.Grounded answers state)
    (visited : (analysis.visit handlers index state).eval answers = .ok after) :
    analysis.Grounded answers after ∧
      analysis.Advances answers (· = .instruction index) state after ∧
      (index ∉ after.pending →
        analysis.SettledAt answers handlers after.registry after.frames index) := by
  rcases visit_cases visited with
    ⟨rfl, absent⟩ | ⟨located, before, effect, atIndex, found, transferred, flowed⟩
  · exact ⟨grounded, .of_registry (.refl _), fun _ located before atIndex found =>
      absurd found (absent located before atIndex)⟩
  · exact visit_reached aimed grounded atIndex found transferred flowed

/-- One visit keeps the invariant and brings the end nearer, whichever of the pending
instructions it is made to. -/
theorem visit_invariant {entry : Frame} (aimed : analysis.Aimed handlers)
    (invariant : analysis.Invariant answers handlers entry state)
    (isPending : index ∈ state.pending)
    (visited : (analysis.visit handlers index (state.take index)).eval answers = .ok after) :
    analysis.Invariant answers handlers entry after ∧
      analysis.remaining after < analysis.remaining state := by
  obtain ⟨grounded, advances, settled⟩ :=
    visit_spec aimed (invariant.grounded.take index) visited
  refine ⟨⟨grounded, ?_, advances.hasAbsorbed invariant.entered⟩, ?_⟩
  · intro other notPending
    by_cases same : other = index
    · subst same
      exact settled notPending
    · have wasSettled := invariant.settled other fun found =>
        notPending (advances.pending other ((List.mem_erase_of_ne same).2 found))
      exact advances.settledAt wasSettled (fun isSame => same (Site.instruction.inj isSame))
        notPending
  · have later := advances.remaining
    have shorter := List.length_erase_of_mem isPending
    have positive := List.length_pos_of_mem isPending
    simp only [remaining, FlowState.take] at *
    omega

/-- The worklist as it is: the instruction that was queued last is taken off and visited,
until none is left or a visit fails. It took `visits` visits. -/
inductive LoopEnds (analysis : Analysis) (answers : String → Except OracleError Bool)
    (handlers : List Handler) :
    (visits : Nat) → FlowState → Except AnalysisError FlowState → Prop
  | emptied {state : FlowState} (isEnd : state.pending = []) :
      LoopEnds analysis answers handlers 0 state (.ok state)
  | failed {state : FlowState} {index : Nat} {pending : List Nat} {error : AnalysisError}
      (isNext : state.pending = index :: pending)
      (visited : (analysis.visit handlers index (state.take index)).eval answers = .error error) :
      LoopEnds analysis answers handlers 1 state (.error error)
  | visited {visits : Nat} {state between : FlowState} {index : Nat} {pending : List Nat}
      {outcome : Except AnalysisError FlowState}
      (isNext : state.pending = index :: pending)
      (visited : (analysis.visit handlers index (state.take index)).eval answers = .ok between)
      (rest : LoopEnds analysis answers handlers visits between outcome) :
      LoopEnds analysis answers handlers (visits + 1) state outcome

/-- The loop comes to an end before its bound, since every visit brings the end nearer. -/
theorem exists_loopEnds {entry : Frame} {visits : Nat} (aimed : analysis.Aimed handlers)
    (invariant : analysis.Invariant answers handlers entry state)
    (enough : analysis.remaining state ≤ visits) :
    ∃ made ≤ visits, analysis.LoopEnds answers handlers made state
      ((analysis.loop handlers visits state).eval answers) := by
  induction visits generalizing state with
  | zero =>
      have isEnd : state.pending = [] := by
        apply List.length_eq_zero_iff.1
        simp only [remaining] at enough
        omega
      exact ⟨0, le_rfl, .emptied isEnd⟩
  | succ visits ih =>
      unfold loop
      split
      · next isEnd => exact ⟨0, by omega, .emptied isEnd⟩
      · next index pending isNext =>
          have isPending : index ∈ state.pending := isNext ▸ List.mem_cons_self
          rw [Inquiry.eval_bind, ← FlowState.take_next isNext]
          cases visited : (analysis.visit handlers index (state.take index)).eval answers with
          | error error => exact ⟨1, by omega, .failed isNext visited⟩
          | ok between =>
              obtain ⟨invariant', nearer⟩ := visit_invariant aimed invariant isPending visited
              obtain ⟨made, few, ended⟩ := ih invariant' (by omega)
              exact ⟨made + 1, by omega, .visited isNext visited ended⟩

/-- A loop that does not fail ends with nothing pending and the invariant kept. -/
theorem LoopEnds.invariant {entry : Frame} {visits : Nat}
    {outcome : Except AnalysisError FlowState} (aimed : analysis.Aimed handlers)
    (ended : analysis.LoopEnds answers handlers visits state outcome)
    (invariant : analysis.Invariant answers handlers entry state)
    (isFinal : outcome = .ok after) :
    analysis.Invariant answers handlers entry after ∧ after.pending = [] := by
  induction ended with
  | emptied isEnd =>
      obtain rfl := Except.ok.inj isFinal
      exact ⟨invariant, isEnd⟩
  | failed => cases isFinal
  | visited isNext visited _ ih =>
      have isPending := isNext ▸ List.mem_cons_self
      exact ih (visit_invariant aimed invariant isPending visited).1 isFinal

/-- With enough visits the loop ends with nothing pending. -/
theorem loop_invariant {entry : Frame} {visits : Nat} (aimed : analysis.Aimed handlers)
    (invariant : analysis.Invariant answers handlers entry state)
    (enough : analysis.remaining state ≤ visits)
    (ended : (analysis.loop handlers visits state).eval answers = .ok after) :
    analysis.Invariant answers handlers entry after ∧ after.pending = [] := by
  obtain ⟨made, _, loopEnds⟩ := exists_loopEnds aimed invariant enough
  exact loopEnds.invariant aimed invariant ended

end Visit

end Analysis

end ValueForm
