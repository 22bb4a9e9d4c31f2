import ValueForm.Proofs.Analysis.Provenance

/-!
# Transfer rules on lower frames

A frame is above another when its values absorb those of the other. Most rules
treat operands of all forms alike, and so do on the lower frame what they do on the
upper one: they succeed, and leave a frame below the one they leave there.

`Transfer.Lowers` is the statement for a rule under way; it composes along the
binds that a rule is made of.
-/

namespace ValueForm

/-- A usable value takes as many slots as what it absorbs. -/
theorem Value.Absorbs.size_eq {held : Site → Prop} {value other : Value}
    (absorbs : value.Absorbs held other) (usable : value ≠ .uninitialized) :
    value.size = other.size := by
  rcases absorbs_iff.1 absorbs with ⟨_, _, _, rfl, rfl, _⟩ | ⟨_, covers, _⟩
  · rfl
  · have size : value.size = other.asReference.size := by
      cases value <;> cases other <;> simp_all [Covers, isReference, asReference, Value.size]
    cases other <;> exact size

/-- The values of a frame absorb those of one with as many slots. -/
structure Frame.Above (held : Site → Prop) (upper lower : Frame) : Prop where
  size : upper.locals.size = lower.locals.size
  locals : ∀ (index : Nat) (value other : Value), upper.locals[index]? = some value →
    lower.locals[index]? = some other → value.Absorbs held other
  stack : List.Forall₂ (Value.Absorbs held) upper.stack lower.stack

namespace Frame

variable {held : Site → Prop} {upper lower : Frame}

theorem above_iff :
    upper.Above held lower ↔ upper.locals.size = lower.locals.size ∧ upper.Absorbs held lower := by
  rw [absorbs_iff]
  constructor
  · rintro ⟨size, locals, stack⟩
    refine ⟨size, stack.length_eq, locals, ?_⟩
    intro index value other atUpper atLower
    rcases List.getElem?_eq_some_iff.1 atUpper with ⟨inUpper, rfl⟩
    rcases List.getElem?_eq_some_iff.1 atLower with ⟨inLower, rfl⟩
    exact stack.get inUpper inLower
  · rintro ⟨size, height, locals, stack⟩
    refine ⟨size, locals, List.forall₂_iff_get.2 ⟨height, ?_⟩⟩
    intro index inUpper inLower
    exact stack index _ _ (List.getElem?_eq_getElem inUpper) (List.getElem?_eq_getElem inLower)

theorem Above.trans {third : Frame} (above : upper.Above held lower)
    (below : lower.Above held third) : upper.Above held third := by
  refine ⟨above.size.trans below.size, ?_, ?_⟩
  · intro index value other atUpper atThird
    have inRange : index < lower.locals.size :=
      above.size ▸ (Array.getElem?_eq_some_iff.1 atUpper).1
    have atLower := Array.getElem?_eq_getElem inRange
    exact (above.locals index value _ atUpper atLower).trans
      (below.locals index _ other atLower atThird)
  · refine List.forall₂_iff_get.2 ⟨above.stack.length_eq.trans below.stack.length_eq, ?_⟩
    intro index inUpper inThird
    have inLower : index < lower.stack.length := above.stack.length_eq ▸ inUpper
    exact (above.stack.get inUpper inLower).trans (below.stack.get inLower inThird)

/-- Frames that are above each other are the same, whatever is held. -/
theorem Above.antisymm {held' : Site → Prop} (above : upper.Above held lower)
    (below : lower.Above held' upper) : upper = lower := by
  have localsEq : upper.locals = lower.locals := by
    apply Array.ext above.size
    intro index inUpper inLower
    exact (above.locals index _ _ (Array.getElem?_eq_getElem inUpper)
      (Array.getElem?_eq_getElem inLower)).antisymm (below.locals index _ _
        (Array.getElem?_eq_getElem inLower) (Array.getElem?_eq_getElem inUpper))
  have stackEq : upper.stack = lower.stack := by
    apply List.ext_getElem above.stack.length_eq
    intro index inUpper inLower
    exact (above.stack.get inUpper inLower).antisymm (below.stack.get inLower inUpper)
  cases upper
  exact Frame.mk.injEq .. ▸ ⟨localsEq, stackEq⟩

theorem forall₂_zipWith_join {values first second : List Value}
    (absorb : List.Forall₂ (Value.Absorbs held) values first)
    (absorb' : List.Forall₂ (Value.Absorbs held) values second) :
    List.Forall₂ (Value.Absorbs held) values (first.zipWith Value.join second) := by
  induction absorb generalizing second with
  | nil =>
      cases absorb'
      exact .nil
  | cons absorbs _ ih =>
      cases absorb' with
      | cons absorbs' rest => exact .cons (absorbs.lub absorbs').1 (ih rest)

/-- A frame above two others is above what they are merged to, and their merge forces
only held sites. -/
theorem Above.lub {second : Frame} (above : upper.Above held lower)
    (above' : upper.Above held second) :
    upper.Above held (lower.join second) ∧ ∀ site ∈ lower.conflict second, held site := by
  constructor
  · refine ⟨above.size.trans (size_join_locals lower second).symm, ?_,
      forall₂_zipWith_join above.stack above'.stack⟩
    intro index value other atUpper atJoined
    rw [getElem?_join_locals] at atJoined
    rcases Option.map_eq_some_iff.1 atJoined with ⟨before, atLower, rfl⟩
    have absorbs := above.locals index value before atUpper atLower
    cases atSecond : second.locals[index]? with
    | none => exact absorbs
    | some added => exact (absorbs.lub (above'.locals index value added atUpper atSecond)).1
  · intro site found
    rcases mem_conflict_iff.1 found with
      ⟨index, value, other, atLower, atSecond, found⟩ |
      ⟨index, value, other, atLower, atSecond, found⟩
    · have inRange : index < upper.locals.size :=
        above.size ▸ (Array.getElem?_eq_some_iff.1 atLower).1
      have atUpper := Array.getElem?_eq_getElem inRange
      exact ((above.locals index _ value atUpper atLower).lub
        (above'.locals index _ other atUpper atSecond)).2 site found
    · rcases List.getElem?_eq_some_iff.1 atLower with ⟨inLower, rfl⟩
      rcases List.getElem?_eq_some_iff.1 atSecond with ⟨inSecond, rfl⟩
      have inUpper : index < upper.stack.length := above.stack.length_eq ▸ inLower
      exact ((above.stack.get inUpper inLower).lub (above'.stack.get inUpper inSecond)).2 site found

/-- A handler sees the locals of both frames. -/
theorem Above.handlerFrame (above : upper.Above held lower) (exception : Value) :
    (upper.handlerFrame exception).Above held (lower.handlerFrame exception) :=
  ⟨above.size, above.locals, .cons exception.absorbs_self .nil⟩

/-- The stack may be replaced by a related one. -/
theorem Above.withStack (above : upper.Above held lower) {stack stack' : List Value}
    (related : List.Forall₂ (Value.Absorbs held) stack stack') :
    (⟨upper.locals, stack⟩ : Frame).Above held ⟨lower.locals, stack'⟩ :=
  ⟨above.size, above.locals, related⟩

/-- A slot that is written in both frames. -/
theorem Above.setLocal {slot : UInt16} {value other : Value} {after : Frame}
    (above : upper.Above held lower) (absorbs : value.Absorbs held other)
    (size : value.size = other.size) (done : upper.setLocal slot value = .ok after) :
    ∃ after', lower.setLocal slot other = .ok after' ∧ after.Above held after' := by
  have fits := (size_setLocal done).2.2
  have fits' : ¬ lower.locals.size < slot.toNat + other.size := by
    have := above.size
    omega
  obtain ⟨after', done'⟩ : ∃ after', lower.setLocal slot other = .ok after' := by
    dsimp only [Frame.setLocal]
    rw [if_neg fits']
    exact ⟨_, rfl⟩
  refine ⟨after', done', ?_, ?_, ?_⟩
  · rw [(size_setLocal done).1, (size_setLocal done').1]
    exact above.size
  · intro index new new' atUpper atLower
    rw [getElem?_setLocal done] at atUpper
    rw [getElem?_setLocal done'] at atLower
    split at atUpper
    · next here =>
        rw [if_pos here] at atLower
        cases atUpper
        cases atLower
        exact absorbs
    · next elsewhere =>
        rw [if_neg elsewhere] at atLower
        rcases Option.map_eq_some_iff.1 atUpper with ⟨old, oldAt, rfl⟩
        rcases Option.map_eq_some_iff.1 atLower with ⟨old', oldAt', rfl⟩
        have kept := above.locals index old old' oldAt oldAt'
        -- A half that is cut off in one frame only was unusable in the upper one.
        by_cases usable : old = .uninitialized
        · subst usable
          rw [ite_self]
          split
          · exact Value.absorbs_self _
          · exact kept
        · rw [size, kept.size_eq usable]
          split
          · exact Value.absorbs_self _
          · exact kept
  · rw [(size_setLocal done).2.1, (size_setLocal done').2.1]
    exact above.stack

end Frame

/-- What the edits of a rule on a lower frame may be, given those on the upper
one: they record patches that are not forced, force held sites, and link groups that
are held or part of groups linked there. -/
def Edit.Bounded (held : Site → Prop) (upper : List Edit) : Edit → Prop
  | .record patch => patch.forced = false
  | .force sites => ∀ site ∈ sites, held site
  | .link group => (∀ site ∈ group, held site) ∨
      ∃ wider, .link wider ∈ upper ∧ ∀ site ∈ group, site ∈ wider

/-- The edits of a rule on an upper and on a lower frame. What the upper ones force
is held when they have been carried out. -/
structure EditsAbove (held : Site → Prop) (upper lower : List Edit) : Prop where
  recorded : recordedPatch? lower = none → recordedPatch? upper = none
  bounded : (∀ sites, .force sites ∈ upper → ∀ site ∈ sites, held site) →
    ∀ change ∈ lower, change.Bounded held upper

namespace EditsAbove

variable {held : Site → Prop} {upper lower upper' lower' : List Edit}

theorem nil : EditsAbove held [] [] :=
  ⟨id, fun _ _ found => absurd found List.not_mem_nil⟩

theorem bounded_mono {change : Edit} (bounded : change.Bounded held upper)
    (more : ∀ other ∈ upper, other ∈ upper') : change.Bounded held upper' := by
  cases change with
  | record => exact bounded
  | force => exact bounded
  | link group =>
      rcases bounded with isHeld | ⟨wider, linked, contained⟩
      · exact .inl isHeld
      · exact .inr ⟨wider, more _ linked, contained⟩

theorem append (first : EditsAbove held upper lower) (second : EditsAbove held upper' lower') :
    EditsAbove held (upper ++ upper') (lower ++ lower') := by
  constructor
  · rw [recordedPatch?_append, recordedPatch?_append, Option.or_eq_none_iff,
      Option.or_eq_none_iff]
    exact fun unset => ⟨second.recorded unset.1, first.recorded unset.2⟩
  · intro isHeld change found
    rcases List.mem_append.1 found with found | found
    · have here := first.bounded (fun sites asked => isHeld sites (List.mem_append_left _ asked))
      exact bounded_mono (here change found) fun _ => List.mem_append_left _
    · have here := second.bounded (fun sites asked => isHeld sites (List.mem_append_right _ asked))
      exact bounded_mono (here change found) fun _ => List.mem_append_right _

theorem record (patch : Patch) {patch' : Patch} (free : patch'.forced = false) :
    EditsAbove held [.record patch] [.record patch'] := by
  constructor
  · exact fun unset => by cases unset
  · intro _ change found
    rw [List.mem_singleton.1 found]
    exact free

/-- An edit that only the lower rule asks for. -/
theorem added {change : Edit} (bounded : change.Bounded held []) : EditsAbove held [] [change] := by
  refine ⟨fun _ => rfl, fun _ other found => ?_⟩
  rw [List.mem_singleton.1 found]
  exact bounded

/-- Edits that end in a record, which the upper rule need not make. -/
theorem recording (changes : List Edit) {patch : Patch} (free : patch.forced = false)
    (bounded : (∀ sites, .force sites ∈ upper → ∀ site ∈ sites, held site) →
      ∀ change ∈ changes, change.Bounded held upper) :
    EditsAbove held upper (changes ++ [.record patch]) := by
  constructor
  · rw [recordedPatch?_append]
    exact fun unset => by cases unset
  · intro isHeld change found
    rcases List.mem_append.1 found with found | found
    · exact bounded isHeld change found
    · rw [List.mem_singleton.1 found]
      exact free

theorem link {group group' : SiteSet} (contained : ∀ site ∈ group', site ∈ group) :
    EditsAbove held [.link group] [.link group'] := by
  refine ⟨fun _ => rfl, fun _ change found => ?_⟩
  rw [List.mem_singleton.1 found]
  exact .inr ⟨group, List.mem_singleton_self _, contained⟩

/-- A value that has to be a reference in both frames. -/
theorem forces {value other : Value} (absorbs : value.Absorbs held other) :
    EditsAbove held value.forces other.forces := by
  refine ⟨fun _ => value.recordedPatch?_forces, fun isHeld change found => ?_⟩
  rcases other.eq_of_mem_forces found with ⟨className, sites, rfl, rfl⟩
  rcases Value.absorbs_iff.1 absorbs with ⟨_, wider, _, rfl, ⟨⟩, contained⟩ | ⟨_, _, below⟩
  · exact fun site inSites =>
      isHeld wider (List.mem_singleton_self _) site (contained site inSites)
  · exact below

end EditsAbove

/-- What a rule has done on an upper and on a lower frame. -/
structure Effect.Above (held : Site → Prop) (upper lower : Effect) : Prop where
  frame : upper.frame.Above held lower.frame
  edits : EditsAbove held upper.edits lower.edits

theorem Frame.Above.start {held : Site → Prop} {upper lower : Frame}
    (above : upper.Above held lower) : Effect.Above held ⟨upper, []⟩ ⟨lower, []⟩ :=
  ⟨above, .nil⟩

/-- A list related to one made of two parts has two parts itself. -/
theorem exists_append_of_forall₂ {α β : Type} {related : α → β → Prop} {first rest : List α}
    {other : List β} (isRelated : List.Forall₂ related (first ++ rest) other) :
    ∃ first' rest', other = first' ++ rest' ∧ List.Forall₂ related first first' ∧
      List.Forall₂ related rest rest' := by
  induction first generalizing other with
  | nil => exact ⟨[], other, rfl, .nil, isRelated⟩
  | cons value first ih =>
      rcases List.forall₂_cons_left_iff.1 isRelated with ⟨value', tail, here, isTail, rfl⟩
      rcases ih isTail with ⟨first', rest', rfl, areFirst, areRest⟩
      exact ⟨value' :: first', rest', rfl, .cons here areFirst, areRest⟩

namespace Transfer

variable {answers : String → Except OracleError Bool} {held : Site → Prop} {place : Place}
  {α β : Type}

/-- Where one rule succeeds on an upper frame the other succeeds on a lower one,
and leaves a lower one. -/
def Lowers (answers : String → Except OracleError Bool) (held : Site → Prop)
    (related : α → α → Prop) (upper lower : Transfer α) : Prop :=
  ∀ ⦃high low : Effect⦄ ⦃value : α⦄ ⦃after : Effect⦄, high.Above held low →
    Yields answers upper high value after → ∃ value' after',
      Yields answers lower low value' after' ∧ related value value' ∧ after.Above held after'

namespace Lowers

theorem pure {related : α → α → Prop} {value value' : α} (isRelated : related value value') :
    Lowers answers held related (pure value) (pure value') := by
  intro high low result after above yields
  rcases yields_pure.1 yields with ⟨rfl, rfl⟩
  exact ⟨value', low, yields_pure.2 ⟨rfl, rfl⟩, isRelated, above⟩

theorem bind {related : α → α → Prop} {related' : β → β → Prop} {upper lower : Transfer α}
    {next next' : α → Transfer β} (first : Lowers answers held related upper lower)
    (rest : ∀ value value', related value value' →
      Lowers answers held related' (next value) (next' value')) :
    Lowers answers held related' (upper >>= next) (lower >>= next') := by
  intro high low result after above yields
  rcases yields_bind.1 yields with ⟨value, between, ran, yields⟩
  rcases first above ran with ⟨value', between', ran', isRelated, above'⟩
  rcases rest value value' isRelated above' yields with
    ⟨result', after', yields', isRelated', above''⟩
  exact ⟨result', after', yields_bind.2 ⟨value', between', ran', yields'⟩, isRelated', above''⟩

theorem discard {related : α → α → Prop} {upper lower : Transfer α}
    (lowers : Lowers answers held related upper lower) :
    Lowers answers held Eq (Functor.discard upper) (Functor.discard lower) := by
  intro high low result after above yields
  rcases yields_discard.1 yields with ⟨value, ran⟩
  rcases lowers above ran with ⟨value', after', ran', _, above'⟩
  exact ⟨(), after', yields_discard.2 ⟨value', ran'⟩, rfl, above'⟩

/-- A rule that neither looks at the frame nor changes anything. -/
theorem of_still {rule : Transfer α}
    (still : ∀ {before after : Effect} {value : α}, Yields answers rule before value after →
      before = after ∧ ∀ other, Yields answers rule other value other) :
    Lowers answers held Eq rule rule := by
  intro high low value after above yields
  rcases still yields with ⟨rfl, anywhere⟩
  exact ⟨value, low, anywhere low, rfl, above⟩

theorem require (error : AnalysisError) (given : Option α) :
    Lowers answers held Eq (require error given) (Transfer.require error given) := by
  apply of_still
  intro before after value yields
  rcases yields_require.1 yields with ⟨isSome, rfl⟩
  exact ⟨rfl, fun other => yields_require.2 ⟨isSome, rfl⟩⟩

theorem isCapable (className : String) :
    Lowers answers held Eq (isCapable className) (Transfer.isCapable className) := by
  apply of_still
  intro before after value yields
  rcases yields_isCapable.1 yields with ⟨answered, rfl⟩
  exact ⟨rfl, fun other => yields_isCapable.2 ⟨answered, rfl⟩⟩

theorem capableClass? (type : FieldType) :
    Lowers answers held Eq (capableClass? type) (Transfer.capableClass? type) := by
  cases type with
  | object className =>
      refine (isCapable className).bind ?_
      rintro capable _ rfl
      cases capable with
      | true => exact pure rfl
      | false => exact pure rfl
  | primitive => exact pure rfl
  | array => exact pure rfl

theorem pop : Lowers answers held (Value.Absorbs held) (pop place) (Transfer.pop place) := by
  intro high low value after above yields
  rcases yields_pop.1 yields with ⟨rest, isStack, rfl⟩
  have related := above.frame.stack
  rw [isStack] at related
  rcases List.forall₂_cons_left_iff.1 related with ⟨value', rest', absorbs, isRest, isStack'⟩
  exact ⟨value', _, yields_pop.2 ⟨rest', isStack', rfl⟩, absorbs, above.frame.withStack isRest,
    above.edits⟩

theorem popMany (count : Nat) : Lowers answers held (List.Forall₂ (Value.Absorbs held))
    (popMany place count) (Transfer.popMany place count) := by
  intro high low values after above yields
  rcases yields_popMany.1 yields with ⟨rest, isStack, length, rfl⟩
  have related := above.frame.stack
  rw [isStack] at related
  rcases exists_append_of_forall₂ related with ⟨values', rest', isStack', areValues, isRest⟩
  have length' : values'.length = values.length := by
    rw [← areValues.length_eq, List.length_reverse]
  refine ⟨values'.reverse, _, yields_popMany.2 ⟨rest', ?_, ?_, rfl⟩, ?_,
    above.frame.withStack isRest, above.edits⟩
  · rw [List.reverse_reverse]
    exact isStack'
  · rw [List.length_reverse, length', length]
  · rw [← List.reverse_reverse values]
    exact List.rel_reverse areValues

theorem push {value value' : Value} (absorbs : value.Absorbs held value') :
    Lowers answers held Eq (push value) (Transfer.push value') := by
  intro high low ended after above yields
  rw [yields_push] at yields
  subst yields
  exact ⟨(), _, yields_push.2 rfl, rfl, above.frame.withStack (.cons absorbs above.frame.stack),
    above.edits⟩

theorem pushSame (value : Value) :
    Lowers answers held Eq (Transfer.push value) (Transfer.push value) :=
  push value.absorbs_self

theorem getLocal (slot : UInt16) : Lowers answers held (Value.Absorbs held) (getLocal place slot)
    (Transfer.getLocal place slot) := by
  intro high low value after above yields
  rcases yields_getLocal.1 yields with ⟨found, rfl⟩
  have inRange : slot.toNat < low.frame.locals.size :=
    above.frame.size ▸ (Array.getElem?_eq_some_iff.1 found).1
  have found' := Array.getElem?_eq_getElem inRange
  exact ⟨_, low, yields_getLocal.2 ⟨found', rfl⟩, above.frame.locals _ _ _ found found', above⟩

theorem setLocal {value value' : Value} (slot : UInt16) (absorbs : value.Absorbs held value')
    (size : value.size = value'.size) :
    Lowers answers held Eq (setLocal place slot value) (Transfer.setLocal place slot value') := by
  intro high low ended after above yields
  rcases yields_setLocal.1 yields with ⟨frame, done, rfl⟩
  rcases above.frame.setLocal absorbs size done with ⟨frame', done', isAbove⟩
  exact ⟨(), _, yields_setLocal.2 ⟨frame', done', rfl⟩, rfl, isAbove, above.edits⟩

theorem edit {change change' : Edit} (above : EditsAbove held [change] [change']) :
    Lowers answers held Eq (edit change) (Transfer.edit change') := by
  intro high low ended after isAbove yields
  rw [yields_edit] at yields
  subst yields
  exact ⟨(), _, yields_edit.2 rfl, rfl, isAbove.frame, isAbove.edits.append above⟩

theorem record (action action' : PatchAction) (left left' : LeftForm)
    (className className' : String) :
    Lowers answers held Eq (record action left className)
      (Transfer.record action' left' className') :=
  edit (.record _ rfl)

theorem requireReference {value value' : Value} (absorbs : value.Absorbs held value') :
    Lowers answers held Eq (requireReference value) (Transfer.requireReference value') := by
  intro high low ended after above yields
  rw [yields_requireReference] at yields
  subst yields
  exact ⟨(), _, yields_requireReference.2 rfl, rfl, above.frame,
    above.edits.append (.forces absorbs)⟩

theorem requireAll {values values' : List Value}
    (absorb : List.Forall₂ (Value.Absorbs held) values values') :
    Lowers answers held Eq (values.forM Transfer.requireReference)
      (values'.forM Transfer.requireReference) := by
  induction absorb with
  | nil => exact pure rfl
  | cons absorbs _ ih => exact (requireReference absorbs).bind fun _ _ _ => ih

theorem popReference : Lowers answers held Eq (Transfer.pop place >>= Transfer.requireReference)
    (Transfer.pop place >>= Transfer.requireReference) :=
  pop.bind fun _ _ absorbs => requireReference absorbs

theorem popReferences (count : Nat) :
    Lowers answers held Eq
      (Transfer.popMany place count >>= fun values => values.forM Transfer.requireReference)
      (Transfer.popMany place count >>= fun values => values.forM Transfer.requireReference) :=
  (popMany count).bind fun _ _ absorb => requireAll absorb

theorem replace (count : Nat) (value : Value) :
    Lowers answers held Eq (replace place count value) (Transfer.replace place count value) :=
  (popMany count).discard.bind fun _ _ _ => pushSame value

theorem namedType (index : UInt16) :
    Lowers answers held Eq (namedType place index) (Transfer.namedType place index) := by
  refine (require _ _).bind ?_
  rintro name _ rfl
  exact require _ _

theorem constantValue (index : UInt16) :
    Lowers answers held Eq (constantValue place index) (Transfer.constantValue place index) := by
  refine (require _ _).bind ?_
  rintro constant _ rfl
  cases constant with
  | dynamic bootstrap nameAndType =>
      refine (require _ _).bind ?_
      rintro ⟨name, descriptor⟩ _ rfl
      refine (require _ _).bind ?_
      rintro type _ rfl
      exact pure rfl
  | integer | float | long | double | string | classRef | methodType | methodHandle =>
      exact pure rfl
  | _ =>
      intro high low value after above yields
      exact (yields_fail.1 yields).elim

/-- Leaving an instance of a value-capable class that is decided here, or something
else of a type. -/
theorem leave {type : FieldType} (form : LeftForm) (value : Value) :
    Lowers answers held Eq
      (Transfer.capableClass? type >>= fun
        | some className => do
            Transfer.record .keep form className
            pushCapable place className
        | none => Transfer.push value)
      (Transfer.capableClass? type >>= fun
        | some className => do
            Transfer.record .keep form className
            pushCapable place className
        | none => Transfer.push value) := by
  refine (capableClass? type).bind ?_
  rintro found _ rfl
  cases found with
  | some className => exact (record ..).bind fun _ _ _ => pushSame _
  | none => exact pushSame value

theorem readStatic (index : UInt16) :
    Lowers answers held Eq (readStatic place index) (Transfer.readStatic place index) := by
  refine (require _ _).bind ?_
  rintro field _ rfl
  refine (require _ _).bind ?_
  rintro type _ rfl
  exact leave .value _

theorem cast (index : UInt16) :
    Lowers answers held Eq (cast place index) (Transfer.cast place index) := by
  refine pop.bind fun _ _ absorbs => (requireReference absorbs).bind fun _ _ _ => ?_
  refine (namedType index).bind ?_
  rintro type _ rfl
  exact leave .object _

theorem pushResult (type : FieldType) :
    Lowers answers held Eq (pushResult place type) (Transfer.pushResult place type) := by
  rw [Transfer.pushResult]
  split
  · exact pure rfl
  · exact leave .object _

theorem invoke (descriptor : String) (hasReceiver : Bool) :
    Lowers answers held Eq (invoke place descriptor hasReceiver false)
      (Transfer.invoke place descriptor hasReceiver false) := by
  refine (require _ _).bind ?_
  rintro type _ rfl
  refine (popMany _).bind fun _ _ absorb => ?_
  cases hasReceiver with
  | true =>
      refine pop.bind fun _ _ absorbs => (requireReference absorbs).bind fun _ _ _ => ?_
      exact (requireAll absorb).bind fun _ _ _ => pushResult type.result
  | false => exact (requireAll absorb).bind fun _ _ _ => pushResult type.result

theorem allocate (index : UInt16) :
    Lowers answers held Eq (allocate place index) (Transfer.allocate place index) := by
  refine (require _ _).bind ?_
  rintro className _ rfl
  refine (isCapable className).bind ?_
  rintro capable _ rfl
  cases capable with
  | true => exact pushSame _
  | false => exact pushSame _

theorem createArray (index : UInt16) :
    Lowers answers held Eq (createArray place index) (Transfer.createArray place index) := by
  refine pop.discard.bind fun _ _ _ => (namedType index).bind ?_
  rintro element _ rfl
  dsimp only
  split
  · refine (capableClass? element).bind ?_
    rintro found _ rfl
    cases found with
    | some className => exact (record ..).bind fun _ _ _ => pushSame _
    | none => exact pushSame _
  · exact pushSame _

theorem test (condition : BranchTest) :
    Lowers answers held Eq (test place condition) (Transfer.test place condition) := by
  cases condition with
  | eq | ne | lt | ge | gt | le => exact pop.discard
  | intEq | intNe | intLt | intGe | intGt | intLe => exact (popMany 2).discard
  | refEq | refNe => exact popReferences 2
  | null | nonNull => exact popReference

theorem giveBack (kind : ReturnKind) :
    Lowers answers held Eq (giveBack place kind) (Transfer.giveBack place kind) := by
  cases kind with
  | void => exact pure rfl
  | reference => exact popReference
  | int | long | float | double => exact pop.discard

/-- An edit that only the lower rule asks for. -/
theorem added {related : α → α → Prop} {change : Edit} {upper lower : Transfer α}
    (bounded : change.Bounded held []) (lowers : Lowers answers held related upper lower) :
    Lowers answers held related upper (Transfer.edit change >>= fun _ => lower) := by
  intro high low value after above yields
  have edits := above.edits.append (.added bounded)
  rw [List.append_nil] at edits
  have isAbove : high.Above held ⟨low.frame, low.edits ++ [change]⟩ := ⟨above.frame, edits⟩
  rcases lowers isAbove yields with ⟨value', after', yields', isRelated, above'⟩
  exact ⟨value', after', yields_bind.2 ⟨(), _, yields_edit.2 rfl, yields'⟩, isRelated, above'⟩

end Lowers

end Transfer

end ValueForm
