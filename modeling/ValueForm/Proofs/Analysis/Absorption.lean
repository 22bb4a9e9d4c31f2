import ValueForm.Analysis.Frame
import ValueForm.Proofs.Analysis.SiteSet

/-!
# Absorption

A value absorbs another when merging the other into it leaves it as it is and
forces only sites that are held as references already. Values that have
absorbed something keep absorbing it while they are merged with anything else,
as long as the sites those merges force are held. This is what lets the analysis
forget a merge once it is made.

Frames absorb frames slot by slot.
-/

namespace ValueForm

namespace Value

/-- The order of what is known about values without value form: `first` holds of
whatever `second` holds of. -/
def Covers (first second : Value) : Prop :=
  first = second ∨ first = .uninitialized ∨ (second = .null ∧ first.isReference) ∨
    (first = .reference ∧ second.isReference)

theorem joinPlain_eq_left_iff {first second : Value} :
    joinPlain first second = first ↔ first.Covers second := by
  grind [joinPlain, isReference, Covers]

@[simp]
theorem covers_joinPlain_left (first second : Value) : (joinPlain first second).Covers first := by
  grind [joinPlain, isReference, Covers]

@[simp]
theorem covers_joinPlain_right (first second : Value) : (joinPlain first second).Covers second := by
  grind [joinPlain, isReference, Covers]

theorem Covers.isReference {first second : Value} (covers : first.Covers second)
    (isReference : first.isReference = true) : second.isReference = true := by
  rcases covers with rfl | rfl | ⟨rfl, _⟩ | ⟨_, also⟩
  · exact isReference
  · cases isReference
  · rfl
  · exact also

theorem Covers.trans {first second third : Value} (above : first.Covers second)
    (below : second.Covers third) : first.Covers third := by
  grind [isReference, Covers]

@[simp]
theorem isCapable_asReference (value : Value) : value.asReference.isCapable = false := by
  cases value <;> rfl

theorem isCapable_joinPlain {first second : Value} (firstPlain : first.isCapable = false)
    (secondPlain : second.isCapable = false) : (joinPlain first second).isCapable = false := by
  unfold joinPlain
  repeat' split
  all_goals first | assumption | rfl

theorem asReference_of_not_capable {value : Value} (plain : value.isCapable = false) :
    value.asReference = value := by
  cases value with
  | capable className provenance => simp [isCapable] at plain
  | _ => rfl

theorem provenance_of_not_capable {value : Value} (plain : value.isCapable = false) :
    value.provenance = .empty := by
  cases value with
  | capable className provenance => simp [isCapable] at plain
  | _ => rfl

theorem join_cases (first second : Value) :
    (∃ className sites sites', first = .capable className sites ∧
        second = .capable className sites' ∧
        first.join second = .capable className (sites.union sites') ∧
        first.conflict second = []) ∨
      (first.join second = joinPlain first.asReference second.asReference ∧
        first.conflict second = first.provenance.toList ++ second.provenance.toList) := by
  cases first with
  | capable className sites =>
      cases second with
      | capable className' sites' =>
          by_cases same : className = className'
          · subst same
            exact .inl ⟨className, sites, sites', rfl, rfl, by simp [join], by simp [conflict]⟩
          · exact .inr ⟨by simp [join, same], by simp [conflict, same, provenance]⟩
      | _ => exact .inr ⟨rfl, rfl⟩
  | _ => exact .inr ⟨rfl, rfl⟩

@[simp]
theorem isCapable_plainJoin (first second : Value) :
    (joinPlain first.asReference second.asReference).isCapable = false :=
  isCapable_joinPlain first.isCapable_asReference second.isCapable_asReference

theorem join_of_not_capable {first : Value} (plain : first.isCapable = false) (second : Value) :
    first.join second = joinPlain first second.asReference ∧
      first.conflict second = second.provenance.toList := by
  rcases join_cases first second with ⟨_, _, _, rfl, _⟩ | ⟨joined, forced⟩
  · simp [isCapable] at plain
  · rw [joined, forced, asReference_of_not_capable plain, provenance_of_not_capable plain]
    simp [SiteSet.empty]

/-- Merging `incoming` leaves `current` as it is and forces only held sites. -/
def Absorbs (held : Site → Prop) (current incoming : Value) : Prop :=
  current.join incoming = current ∧ ∀ site ∈ current.conflict incoming, held site

variable {held : Site → Prop}

/-- A value without value form absorbs what it covers, once the provenance of
the other side is held. -/
theorem absorbs_of_covers {current incoming : Value} (plain : current.isCapable = false)
    (covers : current.Covers incoming.asReference)
    (isHeld : ∀ site ∈ incoming.provenance, held site) : current.Absorbs held incoming := by
  rcases join_of_not_capable plain incoming with ⟨joined, forced⟩
  refine ⟨joined.trans (joinPlain_eq_left_iff.2 covers), ?_⟩
  rw [forced]
  exact isHeld

theorem absorbs_capable {className : String} {sites sites' : SiteSet}
    (contained : ∀ site ∈ sites', site ∈ sites) :
    (Value.capable className sites).Absorbs held (.capable className sites') := by
  constructor
  · simp [join, SiteSet.union_eq_left_iff.2 contained]
  · simp [conflict]

@[simp]
theorem absorbs_self (value : Value) : value.Absorbs held value := by
  cases capability : value.isCapable with
  | false =>
      apply absorbs_of_covers capability
      · rw [asReference_of_not_capable capability]
        exact .inl rfl
      · rw [provenance_of_not_capable capability]
        intro site found
        exact absurd found SiteSet.not_mem_empty
  | true =>
      cases value with
      | capable className sites => exact absorbs_capable fun _ found => found
      | _ => simp [isCapable] at capability

/-- What a merge yields absorbs what was merged. -/
theorem absorbs_join_right {current incoming : Value}
    (isHeld : ∀ site ∈ current.conflict incoming, held site) :
    (current.join incoming).Absorbs held incoming := by
  rcases join_cases current incoming with
    ⟨className, sites, sites', rfl, rfl, joined, _⟩ | ⟨joined, forced⟩
  · rw [joined]
    exact absorbs_capable fun site found => SiteSet.mem_union.2 (.inr found)
  · rw [joined]
    apply absorbs_of_covers (isCapable_plainJoin current incoming)
    · exact covers_joinPlain_right _ _
    · intro site found
      apply isHeld
      rw [forced]
      exact List.mem_append_right _ found

/-- What a value has absorbed it still absorbs after a further merge. -/
theorem Absorbs.join {current absorbed incoming : Value}
    (absorbs : current.Absorbs held absorbed)
    (isHeld : ∀ site ∈ current.conflict incoming, held site) :
    (current.join incoming).Absorbs held absorbed := by
  obtain ⟨kept, keptHeld⟩ := absorbs
  rcases join_cases current absorbed with
    ⟨className, sites, sites', rfl, rfl, joined, _⟩ | ⟨joined, forced⟩
  · have contained : ∀ site ∈ sites', site ∈ sites := by
      rw [joined] at kept
      exact SiteSet.union_eq_left_iff.1 (Value.capable.inj kept).2
    rcases join_cases (.capable className sites) incoming with
      ⟨_, _, more, sameClass, rfl, further, _⟩ | ⟨further, furtherForced⟩
    · obtain ⟨rfl, rfl⟩ := Value.capable.inj sameClass
      rw [further]
      exact absorbs_capable fun site found =>
        SiteSet.mem_union.2 (.inl (contained site found))
    · rw [further]
      apply absorbs_of_covers (isCapable_plainJoin _ _)
      · exact covers_joinPlain_left _ _
      · intro site found
        apply isHeld
        rw [furtherForced]
        exact List.mem_append_left _ (contained site found)
  · have plain : current.isCapable = false := by
      rw [← kept, joined]
      exact isCapable_plainJoin _ _
    have covers : current.Covers absorbed.asReference := by
      rw [asReference_of_not_capable plain] at joined
      exact joinPlain_eq_left_iff.1 (joined.symm.trans kept)
    rcases join_of_not_capable plain incoming with ⟨further, _⟩
    rw [further]
    apply absorbs_of_covers (isCapable_joinPlain plain incoming.isCapable_asReference)
    · exact (covers_joinPlain_left _ _).trans covers
    · intro site found
      apply keptHeld
      rw [forced]
      exact List.mem_append_right _ found

/-- A value absorbs fewer sites of its own class, or, having no value form itself,
whatever it covers once the sites of the other are held. -/
theorem absorbs_iff {current incoming : Value} :
    current.Absorbs held incoming ↔
      (∃ className sites sites', current = .capable className sites ∧
        incoming = .capable className sites' ∧ ∀ site ∈ sites', site ∈ sites) ∨
      (current.isCapable = false ∧ current.Covers incoming.asReference ∧
        ∀ site ∈ incoming.provenance, held site) := by
  constructor
  · rintro ⟨kept, isHeld⟩
    rcases join_cases current incoming with
      ⟨className, sites, sites', rfl, rfl, joined, _⟩ | ⟨joined, forced⟩
    · rw [joined] at kept
      exact .inl ⟨className, sites, sites', rfl, rfl,
        SiteSet.union_eq_left_iff.1 (Value.capable.inj kept).2⟩
    · have plain : current.isCapable = false := by
        rw [← kept, joined]
        exact isCapable_plainJoin _ _
      refine .inr ⟨plain, ?_, fun site found => isHeld site ?_⟩
      · rw [asReference_of_not_capable plain] at joined
        exact joinPlain_eq_left_iff.1 (joined.symm.trans kept)
      · rw [forced]
        exact List.mem_append_right _ found
  · rintro (⟨className, sites, sites', rfl, rfl, contained⟩ | ⟨plain, covers, isHeld⟩)
    · exact absorbs_capable contained
    · exact absorbs_of_covers plain covers isHeld

theorem Absorbs.trans {first second third : Value} (above : first.Absorbs held second)
    (below : second.Absorbs held third) : first.Absorbs held third := by
  rcases absorbs_iff.1 above with
    ⟨className, sites, sites', rfl, rfl, contained⟩ | ⟨plain, covers, isHeld⟩
  · rcases absorbs_iff.1 below with ⟨_, _, sites'', ⟨⟩, rfl, contained'⟩ | ⟨plain, _⟩
    · exact absorbs_capable fun site found => contained site (contained' site found)
    · cases plain
  · rcases absorbs_iff.1 below with
      ⟨className, sites, sites', rfl, rfl, contained⟩ | ⟨plain', covers', isHeld'⟩
    · exact absorbs_of_covers plain covers fun site found => isHeld site (contained site found)
    · rw [asReference_of_not_capable plain'] at covers
      exact absorbs_of_covers plain (covers.trans covers') isHeld'

theorem covers_joinPlain {value first second : Value} (covers : value.Covers first)
    (covers' : value.Covers second) : value.Covers (joinPlain first second) := by
  grind [joinPlain, isReference, Covers]

/-- A value that absorbs two others absorbs what they are merged to, and their
merge forces only held sites. -/
theorem Absorbs.lub {value first second : Value} (absorbs : value.Absorbs held first)
    (absorbs' : value.Absorbs held second) :
    value.Absorbs held (first.join second) ∧ ∀ site ∈ first.conflict second, held site := by
  rcases absorbs_iff.1 absorbs with
    ⟨className, sites, sites', rfl, rfl, contained⟩ | ⟨plain, covers, isHeld⟩
  · rcases absorbs_iff.1 absorbs' with ⟨_, _, sites'', ⟨⟩, rfl, contained'⟩ | ⟨plain, _⟩
    · simp only [Value.join, conflict, if_true, List.not_mem_nil, false_implies, implies_true,
        and_true]
      refine absorbs_capable fun site found => ?_
      rcases SiteSet.mem_union.1 found with found | found
      · exact contained site found
      · exact contained' site found
    · cases plain
  · rcases absorbs_iff.1 absorbs' with ⟨_, _, _, rfl, _⟩ | ⟨_, covers', isHeld'⟩
    · cases plain
    · rcases join_cases first second with
        ⟨className, sites, sites', rfl, rfl, joined, forced⟩ | ⟨joined, forced⟩
      · rw [joined, forced]
        refine ⟨absorbs_of_covers plain covers fun site found => ?_, by simp⟩
        rcases SiteSet.mem_union.1 found with found | found
        · exact isHeld site found
        · exact isHeld' site found
      · rw [joined, forced]
        constructor
        · apply absorbs_of_covers plain
          · rw [asReference_of_not_capable (isCapable_plainJoin first second)]
            exact covers_joinPlain covers covers'
          · rw [provenance_of_not_capable (isCapable_plainJoin first second)]
            exact fun site found => absurd found SiteSet.not_mem_empty
        · intro site found
          rcases List.mem_append.1 found with found | found
          · exact isHeld site found
          · exact isHeld' site found

/-- Values that absorb each other are the same, whatever is held. -/
theorem Absorbs.antisymm {held' : Site → Prop} {first second : Value}
    (above : first.Absorbs held second) (below : second.Absorbs held' first) :
    first = second := by
  rcases absorbs_iff.1 above with
    ⟨className, sites, sites', rfl, rfl, contained⟩ | ⟨plain, covers, _⟩
  · rcases absorbs_iff.1 below with ⟨_, _, _, ⟨⟩, ⟨⟩, contained'⟩ | ⟨plain, _⟩
    · congr 1
      exact SiteSet.ext_mem fun site => ⟨contained' site, contained site⟩
    · cases plain
  · rcases absorbs_iff.1 below with ⟨_, _, _, _, rfl, _⟩ | ⟨plain', covers', _⟩
    · cases plain
    · rw [asReference_of_not_capable plain'] at covers
      rw [asReference_of_not_capable plain] at covers'
      grind [isReference, Covers]

end Value

namespace Frame

/-- Two frames are equally high and related slot by slot. -/
structure Matches (related : Value → Value → Prop) (first second : Frame) : Prop where
  height : first.stack.length = second.stack.length
  locals : ∀ (index : Nat) (value other : Value), first.locals[index]? = some value →
    second.locals[index]? = some other → related value other
  stack : ∀ (index : Nat) (value other : Value), first.stack[index]? = some value →
    second.stack[index]? = some other → related value other

/-- Merging `incoming` leaves `current` as it is and forces only held sites. -/
def Absorbs (held : Site → Prop) (current incoming : Frame) : Prop :=
  ∃ forced, current.merge incoming = .ok (current, forced) ∧ ∀ site ∈ forced, held site

@[simp]
theorem getElem?_join_locals (current incoming : Frame) (index : Nat) :
    (current.join incoming).locals[index]? =
      current.locals[index]?.map fun value =>
        match incoming.locals[index]? with
        | some other => value.join other
        | none => value := by
  rw [join]
  exact Array.getElem?_mapIdx

theorem getElem?_join_stack (current incoming : Frame) (index : Nat) :
    (current.join incoming).stack[index]? =
      match current.stack[index]?, incoming.stack[index]? with
      | some value, some other => some (value.join other)
      | _, _ => none := by
  rw [join, List.getElem?_zipWith]
  cases current.stack[index]? <;> cases incoming.stack[index]? <;> rfl

theorem mem_conflict_iff {current incoming : Frame} {site : Site} :
    site ∈ current.conflict incoming ↔
      (∃ (index : Nat) (value other : Value), current.locals[index]? = some value ∧
        incoming.locals[index]? = some other ∧ site ∈ value.conflict other) ∨
      (∃ (index : Nat) (value other : Value), current.stack[index]? = some value ∧
        incoming.stack[index]? = some other ∧ site ∈ value.conflict other) := by
  simp only [conflict, List.mem_append, List.mem_flatMap, Prod.exists]
  constructor
  · rintro (⟨value, other, paired, found⟩ | ⟨value, other, paired, found⟩)
    · obtain ⟨index, atIndex⟩ := List.mem_iff_getElem?.1 paired
      rw [List.getElem?_zip_eq_some] at atIndex
      simp only [Array.getElem?_toList] at atIndex
      exact .inl ⟨index, value, other, atIndex.1, atIndex.2, found⟩
    · obtain ⟨index, atIndex⟩ := List.mem_iff_getElem?.1 paired
      rw [List.getElem?_zip_eq_some] at atIndex
      exact .inr ⟨index, value, other, atIndex.1, atIndex.2, found⟩
  · rintro (⟨index, value, other, atCurrent, atIncoming, found⟩ |
      ⟨index, value, other, atCurrent, atIncoming, found⟩)
    · refine .inl ⟨value, other, List.mem_iff_getElem?.2 ⟨index, ?_⟩, found⟩
      rw [List.getElem?_zip_eq_some]
      simp only [Array.getElem?_toList]
      exact ⟨atCurrent, atIncoming⟩
    · refine .inr ⟨value, other, List.mem_iff_getElem?.2 ⟨index, ?_⟩, found⟩
      rw [List.getElem?_zip_eq_some]
      exact ⟨atCurrent, atIncoming⟩

/-- A frame whose values all keep what they are in a merge is kept. -/
theorem join_eq_left {current incoming : Frame}
    (kept : current.Matches (fun value other => value.join other = value) incoming) :
    current.join incoming = current := by
  have localsEq : (current.join incoming).locals = current.locals := by
    apply Array.ext_getElem?
    intro index
    rw [getElem?_join_locals]
    cases atCurrent : current.locals[index]? with
    | none => rfl
    | some value =>
        -- Locals that the other frame does not have stay as they are.
        cases atIncoming : incoming.locals[index]? with
        | none => simp
        | some other => simp [kept.locals index value other atCurrent atIncoming]
  have stackEq : (current.join incoming).stack = current.stack := by
    apply List.ext_getElem?
    intro index
    rw [getElem?_join_stack]
    cases atCurrent : current.stack[index]? with
    | none => rfl
    | some value =>
        have inRange : index < incoming.stack.length :=
          kept.height ▸ (List.getElem?_eq_some_iff.1 atCurrent).1
        have atIncoming := List.getElem?_eq_getElem inRange
        simp [atIncoming, kept.stack index value _ atCurrent atIncoming]
  cases current
  exact Frame.mk.injEq .. ▸ ⟨localsEq, stackEq⟩

variable {held : Site → Prop}

/-- Frames absorb slot by slot. -/
theorem absorbs_iff {current incoming : Frame} :
    current.Absorbs held incoming ↔ current.Matches (Value.Absorbs held) incoming := by
  constructor
  · rintro ⟨forced, merged, isHeld⟩
    unfold merge at merged
    split at merged
    · next height =>
        simp only [Except.ok.injEq, Prod.mk.injEq] at merged
        obtain ⟨joined, rfl⟩ := merged
        refine ⟨height, ?_, ?_⟩
        · intro index value other atCurrent atIncoming
          have joinedAt := getElem?_join_locals current incoming index
          rw [joined, atCurrent, atIncoming] at joinedAt
          refine ⟨(Option.some.inj joinedAt).symm, fun site found => isHeld site ?_⟩
          exact mem_conflict_iff.2 (.inl ⟨index, value, other, atCurrent, atIncoming, found⟩)
        · intro index value other atCurrent atIncoming
          have joinedAt := getElem?_join_stack current incoming index
          rw [joined, atCurrent, atIncoming] at joinedAt
          refine ⟨(Option.some.inj joinedAt).symm, fun site found => isHeld site ?_⟩
          exact mem_conflict_iff.2 (.inr ⟨index, value, other, atCurrent, atIncoming, found⟩)
    · simp at merged
  · intro related
    refine ⟨current.conflict incoming, ?_, ?_⟩
    · have joined : current.join incoming = current := by
        apply join_eq_left
        constructor
        · exact related.height
        · intro index value other atCurrent atIncoming
          exact (related.locals index value other atCurrent atIncoming).1
        · intro index value other atCurrent atIncoming
          exact (related.stack index value other atCurrent atIncoming).1
      simp [merge, related.height, joined]
    · intro site found
      rcases mem_conflict_iff.1 found with
        ⟨index, value, other, atCurrent, atIncoming, found⟩ |
        ⟨index, value, other, atCurrent, atIncoming, found⟩
      · exact (related.locals index value other atCurrent atIncoming).2 site found
      · exact (related.stack index value other atCurrent atIncoming).2 site found

theorem Absorbs.mono {held' : Site → Prop} {current incoming : Frame}
    (absorbs : current.Absorbs held incoming) (more : ∀ site, held site → held' site) :
    current.Absorbs held' incoming := by
  obtain ⟨forced, merged, isHeld⟩ := absorbs
  exact ⟨forced, merged, fun site found => more site (isHeld site found)⟩

@[simp]
theorem absorbs_self (frame : Frame) : frame.Absorbs held frame := by
  refine absorbs_iff.2 ⟨rfl, ?_, ?_⟩
  · intro index value other atIndex atIndex'
    obtain rfl := Option.some.inj (atIndex.symm.trans atIndex')
    exact value.absorbs_self
  · intro index value other atIndex atIndex'
    obtain rfl := Option.some.inj (atIndex.symm.trans atIndex')
    exact value.absorbs_self

theorem length_join_stack {current incoming : Frame}
    (height : current.stack.length = incoming.stack.length) :
    (current.join incoming).stack.length = current.stack.length := by
  simp [join, height]

@[simp]
theorem size_join_locals (current incoming : Frame) :
    (current.join incoming).locals.size = current.locals.size := by
  simp [join]

/-- What a merge of frames yields absorbs the frame that was merged. -/
theorem absorbs_join_right {current incoming : Frame}
    (height : current.stack.length = incoming.stack.length)
    (isHeld : ∀ site ∈ current.conflict incoming, held site) :
    (current.join incoming).Absorbs held incoming := by
  refine absorbs_iff.2 ⟨(length_join_stack height).trans height, ?_, ?_⟩
  · intro index value other atJoined atIncoming
    rw [getElem?_join_locals, atIncoming] at atJoined
    obtain ⟨before, atCurrent, rfl⟩ := Option.map_eq_some_iff.1 atJoined
    apply Value.absorbs_join_right
    intro site found
    exact isHeld site (mem_conflict_iff.2
      (.inl ⟨index, before, other, atCurrent, atIncoming, found⟩))
  · intro index value other atJoined atIncoming
    rw [getElem?_join_stack, atIncoming] at atJoined
    cases atCurrent : current.stack[index]? with
    | none => simp [atCurrent] at atJoined
    | some before =>
        rw [atCurrent] at atJoined
        obtain rfl := Option.some.inj atJoined
        apply Value.absorbs_join_right
        intro site found
        exact isHeld site (mem_conflict_iff.2
          (.inr ⟨index, before, other, atCurrent, atIncoming, found⟩))

/-- What a frame has absorbed it still absorbs after a further merge. -/
theorem Absorbs.join {current absorbed incoming : Frame}
    (absorbs : current.Absorbs held absorbed)
    (height : current.stack.length = incoming.stack.length)
    (isHeld : ∀ site ∈ current.conflict incoming, held site) :
    (current.join incoming).Absorbs held absorbed := by
  have related := absorbs_iff.1 absorbs
  refine absorbs_iff.2 ⟨(length_join_stack height).trans related.height, ?_, ?_⟩
  · intro index value other atJoined atAbsorbed
    rw [getElem?_join_locals] at atJoined
    obtain ⟨before, atCurrent, rfl⟩ := Option.map_eq_some_iff.1 atJoined
    have kept := related.locals index before other atCurrent atAbsorbed
    cases atIncoming : incoming.locals[index]? with
    | none => exact kept
    | some added =>
        apply kept.join
        intro site found
        exact isHeld site (mem_conflict_iff.2
          (.inl ⟨index, before, added, atCurrent, atIncoming, found⟩))
  · intro index value other atJoined atAbsorbed
    rw [getElem?_join_stack] at atJoined
    cases atCurrent : current.stack[index]? with
    | none => simp [atCurrent] at atJoined
    | some before =>
        cases atIncoming : incoming.stack[index]? with
        | none => simp [atCurrent, atIncoming] at atJoined
        | some added =>
            rw [atCurrent, atIncoming] at atJoined
            obtain rfl := Option.some.inj atJoined
            apply (related.stack index before other atCurrent atAbsorbed).join
            intro site found
            exact isHeld site (mem_conflict_iff.2
              (.inr ⟨index, before, added, atCurrent, atIncoming, found⟩))

end Frame

end ValueForm
