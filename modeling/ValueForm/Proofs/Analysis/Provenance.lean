import ValueForm.Proofs.Analysis.Decisions
import ValueForm.Proofs.Analysis.Inversion

/-!
# Provenance

Every instance of a value-capable class in a frame depends on at least one site,
and only on sites that are known: sites with a patch, and allocations. Merges
keep this, and so do the steps of instructions: the only site a step adds is its
own, and then it records a patch there or is an allocation.

A step keeps the number of local slots, raises the stack by at most two entries,
and asks to force or link only what it finds in the frame before it.
-/

namespace ValueForm

/-- An instruction that allocates an instance of a value-capable class. -/
def Instruction.Allocates (pool : ConstantPool) (capable : String → Bool)
    (instruction : Instruction) : Prop :=
  ∃ index className, instruction = .new index ∧ pool.className? index = some className ∧
    capable className = true

namespace Value

/-- A value that depends on known sites only, and on at least one if it has a
value form. -/
def Sited (known : Site → Prop) : Value → Prop
  | .capable _ provenance => (∃ site, site ∈ provenance) ∧ ∀ site ∈ provenance, known site
  | _ => True

variable {known known' : Site → Prop}

theorem sited_of_not_capable {value : Value} (plain : value.isCapable = false) :
    value.Sited known := by
  cases value with
  | capable className provenance => simp [isCapable] at plain
  | _ => trivial

theorem sited_capableAt {className : String} {site : Site} (isKnown : known site) :
    (capableAt className site).Sited known := by
  refine ⟨⟨site, SiteSet.mem_singleton.2 rfl⟩, fun other found => ?_⟩
  rw [SiteSet.mem_singleton.1 found]
  exact isKnown

theorem Sited.mono {value : Value} (sited : value.Sited known)
    (more : ∀ site, known site → known' site) : value.Sited known' := by
  cases value with
  | capable className provenance =>
      exact ⟨sited.1, fun site found => more site (sited.2 site found)⟩
  | _ => trivial

theorem Sited.of_mem {value : Value} (sited : value.Sited known) {site : Site}
    (found : site ∈ value.provenance) : known site := by
  cases value with
  | capable className provenance => exact sited.2 site found
  | _ => exact absurd found SiteSet.not_mem_empty

theorem Sited.join {first second : Value} (sited : first.Sited known)
    (sited' : second.Sited known) : (first.join second).Sited known := by
  rcases join_cases first second with ⟨className, sites, sites', rfl, rfl, joined, _⟩ | ⟨joined, _⟩
  · rw [joined]
    obtain ⟨site, found⟩ := sited.1
    refine ⟨⟨site, SiteSet.mem_union.2 (.inl found)⟩, fun site found => ?_⟩
    rcases SiteSet.mem_union.1 found with found | found
    · exact sited.2 site found
    · exact sited'.2 site found
  · rw [joined]
    exact sited_of_not_capable (isCapable_plainJoin first second)

/-- Two values force only sites one of them depends on. -/
theorem mem_provenance_of_mem_conflict {first second : Value} {site : Site}
    (found : site ∈ first.conflict second) :
    site ∈ first.provenance ∨ site ∈ second.provenance := by
  rcases join_cases first second with ⟨_, _, _, _, _, _, forced⟩ | ⟨_, forced⟩
  · rw [forced] at found
    exact absurd found List.not_mem_nil
  · rw [forced] at found
    exact List.mem_append.1 found

@[simp]
theorem size_pos (value : Value) : 0 < value.size := by
  cases value <;> exact Nat.succ_pos _

theorem size_le (value : Value) : value.size ≤ 2 := by
  cases value <;> simp [size]

theorem isWide_of_isReference {value : Value} (isReference : value.isReference = true) :
    value.isWide = false := by
  cases value with
  | long | double => cases isReference
  | _ => rfl

theorem isCapable_of_not_isReference {value : Value} (isPlain : value.isReference = false) :
    value.isCapable = false := by
  cases value with
  | capable => cases isPlain
  | _ => rfl

end Value

namespace Frame

/-- The values of a frame, wherever they stand. -/
def Holds (frame : Frame) (value : Value) : Prop :=
  value ∈ frame.locals ∨ value ∈ frame.stack

/-- A frame all of whose values depend on known sites. -/
def Sited (known : Site → Prop) (frame : Frame) : Prop :=
  ∀ value, frame.Holds value → value.Sited known

variable {known known' : Site → Prop} {frame : Frame}

theorem Sited.mono (sited : frame.Sited known) (more : ∀ site, known site → known' site) :
    frame.Sited known' :=
  fun value found => (sited value found).mono more

theorem Sited.of_mem_conflict {incoming : Frame} (sited : frame.Sited known)
    (sited' : incoming.Sited known) {site : Site} (found : site ∈ frame.conflict incoming) :
    known site := by
  have either (value other : Value) (holds : frame.Holds value) (holds' : incoming.Holds other)
      (found : site ∈ value.conflict other) : known site := by
    rcases Value.mem_provenance_of_mem_conflict found with found | found
    · exact (sited value holds).of_mem found
    · exact (sited' other holds').of_mem found
  rcases mem_conflict_iff.1 found with
    ⟨index, value, other, atCurrent, atIncoming, found⟩ |
    ⟨index, value, other, atCurrent, atIncoming, found⟩
  · exact either value other (.inl (Array.mem_of_getElem? atCurrent))
      (.inl (Array.mem_of_getElem? atIncoming)) found
  · exact either value other (.inr (List.mem_of_getElem? atCurrent))
      (.inr (List.mem_of_getElem? atIncoming)) found

theorem Sited.join {incoming : Frame} (sited : frame.Sited known)
    (sited' : incoming.Sited known) : (frame.join incoming).Sited known := by
  rintro value (found | found)
  · obtain ⟨index, atIndex⟩ := Array.mem_iff_getElem?.1 found
    rw [getElem?_join_locals] at atIndex
    obtain ⟨before, atCurrent, rfl⟩ := Option.map_eq_some_iff.1 atIndex
    have here := sited before (.inl (Array.mem_of_getElem? atCurrent))
    cases atIncoming : incoming.locals[index]? with
    | none => exact here
    | some other => exact here.join (sited' other (.inl (Array.mem_of_getElem? atIncoming)))
  · obtain ⟨index, atIndex⟩ := List.mem_iff_getElem?.1 found
    rw [getElem?_join_stack] at atIndex
    cases atCurrent : frame.stack[index]? with
    | none => simp [atCurrent] at atIndex
    | some before =>
        cases atIncoming : incoming.stack[index]? with
        | none => simp [atCurrent, atIncoming] at atIndex
        | some other =>
            rw [atCurrent, atIncoming] at atIndex
            obtain rfl := Option.some.inj atIndex
            exact (sited before (.inr (List.mem_of_getElem? atCurrent))).join
              (sited' other (.inr (List.mem_of_getElem? atIncoming)))

theorem Sited.append {locals : Array Value} {pushed rest : List Value}
    (below : Frame.Sited known ⟨locals, rest⟩) (above : ∀ value ∈ pushed, value.Sited known) :
    Frame.Sited known ⟨locals, pushed ++ rest⟩ := by
  rintro value (found | found)
  · exact below value (.inl found)
  · rcases List.mem_append.1 found with found | found
    · exact above value found
    · exact below value (.inr found)

theorem Sited.push {value : Value} (below : frame.Sited known) (isSited : value.Sited known) :
    (frame.push value).Sited known := by
  have above : ∀ other ∈ [value], other.Sited known := by
    intro other found
    exact List.mem_singleton.1 found ▸ isSited
  exact below.append above

theorem Sited.drop {locals : Array Value} {dropped rest : List Value}
    (sited : Frame.Sited known ⟨locals, dropped ++ rest⟩) : Frame.Sited known ⟨locals, rest⟩ := by
  rintro value (found | found)
  · exact sited value (.inl found)
  · exact sited value (.inr (List.mem_append_right _ found))

theorem Sited.tail {locals : Array Value} {value : Value} {rest : List Value}
    (sited : Frame.Sited known ⟨locals, value :: rest⟩) : Frame.Sited known ⟨locals, rest⟩ := by
  rintro other (found | found)
  · exact sited other (.inl found)
  · exact sited other (.inr (List.mem_cons_of_mem value found))

theorem Sited.handlerFrame {type : FieldType} (sited : frame.Sited known) :
    (frame.handlerFrame (.precise type)).Sited known := by
  rintro value (found | found)
  · exact sited value (.inl found)
  · rw [List.mem_singleton.1 found]
    trivial

theorem size_setLocal {slot : UInt16} {value : Value} {after : Frame}
    (done : frame.setLocal slot value = .ok after) :
    after.locals.size = frame.locals.size ∧ after.stack = frame.stack ∧
      slot.toNat + value.size ≤ frame.locals.size := by
  dsimp only [setLocal] at done
  by_cases short : frame.locals.size < slot.toNat + value.size
  · simp [short] at done
  · rw [if_neg short] at done
    obtain rfl := Except.ok.inj done
    refine ⟨?_, rfl, Nat.le_of_not_lt short⟩
    rw [Array.size_setIfInBounds]
    split <;> split <;> simp

/-- A changed slot: the value is there, the second slot of a wide value and the
first half of one that was cut are unusable, and all else is as before. -/
theorem getElem?_setLocal {slot : UInt16} {value : Value} {after : Frame}
    (done : frame.setLocal slot value = .ok after) (index : Nat) :
    after.locals[index]? =
      if index = slot.toNat then some value
      else frame.locals[index]?.map fun old =>
        if (index = slot.toNat + 1 ∧ value.size = 2) ∨ (index + 1 = slot.toNat ∧ old.size = 2) then
          .uninitialized
        else old := by
  have inRange := (size_setLocal done).2.2
  have positive := value.size_pos
  dsimp only [setLocal] at done
  rw [if_neg (by omega)] at done
  obtain rfl := Except.ok.inj done
  grind

/-- What a frame with a changed slot holds. -/
theorem holds_of_setLocal {slot : UInt16} {value other : Value} {after : Frame}
    (done : frame.setLocal slot value = .ok after) (holds : after.Holds other) :
    frame.Holds other ∨ other = value ∨ other = .uninitialized := by
  rcases holds with found | found
  · obtain ⟨index, atIndex⟩ := Array.mem_iff_getElem?.1 found
    rw [getElem?_setLocal done] at atIndex
    split at atIndex
    · exact .inr (.inl (Option.some.inj atIndex).symm)
    · obtain ⟨old, atBefore, replaced⟩ := Option.map_eq_some_iff.1 atIndex
      split at replaced
      · exact .inr (.inr replaced.symm)
      · exact .inl (.inl (replaced ▸ Array.mem_of_getElem? atBefore))
  · rw [(size_setLocal done).2.1] at found
    exact .inl (.inr found)

theorem Sited.setLocal {slot : UInt16} {value : Value} {after : Frame}
    (sited : frame.Sited known) (isSited : value.Sited known)
    (done : frame.setLocal slot value = .ok after) : after.Sited known := by
  intro other holds
  rcases holds_of_setLocal done holds with holds | rfl | rfl
  · exact sited other holds
  · exact isSited
  · trivial

theorem Sited.addSite {value : Value} {site : Site} (sited : frame.Sited known)
    (isKnown : known site) : (frame.addSite value site).Sited known := by
  have one (entry : Value) : entry.Sited known →
      (if entry = value then
        match entry with
        | .capable className provenance => Value.capable className (provenance.insert site)
        | other => other
      else entry).Sited known := by
    intro isSited
    split
    · cases entry with
      | capable className provenance =>
          refine ⟨⟨site, SiteSet.mem_insert.2 (.inl rfl)⟩, fun other found => ?_⟩
          rcases SiteSet.mem_insert.1 found with rfl | found
          · exact isKnown
          · exact isSited.2 other found
      | _ => trivial
    · exact isSited
  rintro other (found | found)
  · obtain ⟨entry, entryMem, rfl⟩ := Array.mem_map.1 found
    exact one entry (sited entry (.inl entryMem))
  · obtain ⟨entry, entryMem, rfl⟩ := List.mem_map.1 found
    exact one entry (sited entry (.inr entryMem))

end Frame

/-- A rearranged stack holds nothing new. -/
theorem StackOp.mem_of_mem_shuffle {α : Type} {isWide : α → Bool} {op : StackOp}
    {stack stack' : List α} (done : op.shuffle isWide stack = some stack') {entry : α}
    (found : entry ∈ stack') : entry ∈ stack := by
  revert done
  fun_cases StackOp.shuffle isWide op stack
  all_goals grind

theorem StackOp.length_shuffle_le {α : Type} {isWide : α → Bool} {op : StackOp}
    {stack stack' : List α} (done : op.shuffle isWide stack = some stack') :
    stack'.length ≤ stack.length + 2 := by
  revert done
  fun_cases StackOp.shuffle isWide op stack
  all_goals simp only [Option.some.injEq, reduceCtorEq, false_implies]
  all_goals
    rintro rfl
    simp only [List.length_cons]
    omega

/-- The sites an edit asks to force or link. -/
def Edit.about? : Edit → Option SiteSet
  | .force sites | .link sites => some sites
  | .record _ => none

namespace Leaves

variable {site : Site} {leaves : Leaves} {pushed : List Value} {records : List Edit}

theorem Pushes.length_le (pushes : leaves.Pushes site pushed records) : pushed.length ≤ 1 := by
  cases pushes <;> simp

theorem Pushes.about?_eq_none (pushes : leaves.Pushes site pushed records) {change : Edit}
    (found : change ∈ records) : change.about? = none := by
  cases pushes with
  | nothing | reference | plain => simp at found
  | capable =>
      obtain rfl := List.mem_singleton.1 found
      rfl

/-- What is left depends at most on the site, and then a patch is recorded. -/
theorem Pushes.sited {known : Site → Prop} (pushes : leaves.Pushes site pushed records)
    (isKnown : recordedPatch? records ≠ none → known site) {value : Value}
    (found : value ∈ pushed) : value.Sited known := by
  cases pushes with
  | nothing => simp at found
  | reference isPlain =>
      obtain rfl := List.mem_singleton.1 found
      exact Value.sited_of_not_capable isPlain
  | plain isPlain =>
      obtain rfl := List.mem_singleton.1 found
      exact Value.sited_of_not_capable (Value.isCapable_of_not_isReference isPlain)
  | capable =>
      obtain rfl := List.mem_singleton.1 found
      exact Value.sited_capableAt (isKnown (by simp [recordedPatch?, Edit.patch?]))

end Leaves

@[simp]
theorem recordedPatch?_append (earlier later : List Edit) :
    recordedPatch? (earlier ++ later) = (recordedPatch? later).or (recordedPatch? earlier) := by
  induction earlier with
  | nil => simp [recordedPatch?]
  | cons change rest ih => simp [recordedPatch?, ih, Option.or_assoc]

@[simp]
theorem Value.recordedPatch?_forces (value : Value) : recordedPatch? value.forces = none := by
  cases value <;> rfl

theorem Value.eq_of_mem_forces {value : Value} {change : Edit} (found : change ∈ value.forces) :
    ∃ className sites, value = .capable className sites ∧ change = .force sites := by
  cases value with
  | capable className sites => exact ⟨className, sites, rfl, List.mem_singleton.1 found⟩
  | _ => simp [Value.forces] at found

theorem Value.eq_of_about? {value : Value} {change : Edit} (found : change ∈ value.forces)
    {sites : SiteSet} (about : change.about? = some sites) :
    ∃ className, value = .capable className sites := by
  obtain ⟨className, sites', rfl, rfl⟩ := value.eq_of_mem_forces found
  exact ⟨className, by rw [Option.some.inj about]⟩

theorem Signature.mem_forces {signature : Signature} {operands : List Value} {change : Edit}
    (found : change ∈ signature.forces operands) :
    ∃ value ∈ operands, change ∈ value.forces := by
  obtain ⟨⟨mark, value⟩, paired, found⟩ := List.mem_flatMap.1 found
  dsimp only at found
  split at found
  · exact ⟨value, (List.of_mem_zip paired).2, found⟩
  · simp at found

theorem recordedPatch?_eq_none {edits : List Edit}
    (unset : ∀ change ∈ edits, change.patch? = none) : recordedPatch? edits = none := by
  induction edits with
  | nil => rfl
  | cons change rest ih =>
      rw [recordedPatch?, ih fun other found => unset other (List.mem_cons_of_mem _ found),
        unset change List.mem_cons_self]
      rfl

@[simp]
theorem Signature.recordedPatch?_forces (signature : Signature) (operands : List Value) :
    recordedPatch? (signature.forces operands) = none := by
  apply recordedPatch?_eq_none
  intro change found
  obtain ⟨value, _, found⟩ := mem_forces found
  obtain ⟨className, sites, _, rfl⟩ := value.eq_of_mem_forces found
  rfl

namespace Instruction

variable {place : Place} {capable : String → Bool} {instruction : Instruction} {before : Frame}
  {effect : Effect}

/-- A step keeps the number of local slots. -/
theorem Step.size_locals (step : Step place capable instruction before effect) :
    effect.frame.locals.size = before.locals.size := by
  cases step with
  | store writes isPlain done => exact (Frame.size_setLocal done).1
  | storeValue writes done => exact (Frame.size_setLocal done).1
  | increment increments done => exact (Frame.size_setLocal done).1
  | construct => simp [Frame.addSite]
  | _ => rfl

/-- A step raises the stack by at most two entries. -/
theorem Step.length_stack (step : Step place capable instruction before effect) :
    effect.frame.stack.length ≤ before.stack.length + 2 := by
  cases step with
  | consume known count pushes =>
      have := pushes.length_le
      simp only [List.length_append]
      omega
  | store writes isPlain done | storeValue writes done =>
      rw [(Frame.size_setLocal done).2.1]
      simp only [List.length_cons]
      omega
  | increment increments done =>
      rw [(Frame.size_setLocal done).2.1]
      omega
  | shuffle done => exact StackOp.length_shuffle_le done
  | construct member isConstructor typed count pushes =>
      have := pushes.length_le
      simp only [Frame.addSite, List.length_append, List.length_map, List.length_cons]
      omega
  | _ =>
      simp only [Frame.push, List.length_cons]
      omega

/-- What a step asks to force or link is the provenance of a value it finds. -/
theorem Step.holds_of_about? (step : Step place capable instruction before effect) {change : Edit}
    (found : change ∈ effect.edits) {sites : SiteSet} (about : change.about? = some sites) :
    ∃ className, before.Holds (.capable className sites) := by
  cases step with
  | consume known count pushes =>
      rcases List.mem_append.1 found with found | found
      · obtain ⟨value, isOperand, found⟩ := Signature.mem_forces found
        obtain ⟨className, rfl⟩ := Value.eq_of_about? found about
        exact ⟨className, .inr (List.mem_append_left _ (List.mem_reverse.2 isOperand))⟩
      · rw [pushes.about?_eq_none found] at about
        cases about
  | loadValue reads atSlot =>
      simp only [List.mem_cons, List.not_mem_nil, or_false] at found
      rcases found with rfl | rfl
      · cases about
        exact ⟨_, .inl (Array.mem_of_getElem? atSlot)⟩
      · cases about
  | storeValue | storeElement | readCapable | readPlain =>
      simp only [List.mem_cons, List.not_mem_nil, or_false] at found
      rcases found with rfl | rfl
      · cases about
        exact ⟨_, .inr List.mem_cons_self⟩
      · cases about
  | loadElement | createArray =>
      obtain rfl := List.mem_singleton.1 found
      cases about
  | convertElement =>
      rcases List.mem_append.1 found with found | found
      · obtain ⟨className, rfl⟩ := Value.eq_of_about? found about
        exact ⟨className, .inr List.mem_cons_self⟩
      · obtain rfl := List.mem_singleton.1 found
        cases about
  | construct member isConstructor typed count pushes =>
      simp only [List.mem_append, List.mem_singleton, List.mem_flatMap] at found
      rcases found with ((rfl | ⟨value, isArgument, found⟩) | rfl) | found
      · cases about
        exact ⟨_, .inr (List.mem_append_right _ List.mem_cons_self)⟩
      · obtain ⟨className, rfl⟩ := Value.eq_of_about? found about
        exact ⟨className, .inr (List.mem_append_left _ (List.mem_reverse.2 isArgument))⟩
      · cases about
      · rw [pushes.about?_eq_none found] at about
        cases about
  | load | store | increment | shuffle | allocate => cases found

/-- An allocation takes no decision. -/
theorem Step.recordedPatch?_of_allocates (step : Step place capable instruction before effect)
    (allocates : instruction.Allocates place.pool capable) :
    recordedPatch? effect.edits = none := by
  obtain ⟨index, _, rfl, _⟩ := allocates
  cases step with
  | consume known count pushes =>
      obtain rfl := Option.some.inj known
      cases pushes
      rw [recordedPatch?_append, Signature.recordedPatch?_forces]
      rfl
  | allocate => rfl
  | load reads => cases reads
  | loadValue reads => cases reads
  | store writes => cases writes
  | storeValue writes => cases writes
  | increment increments => cases increments

/-- A step adds no site but its own to what values depend on, and if it adds
that one it records a patch or allocates. -/
theorem Step.sited {known known' : Site → Prop}
    (step : Step place capable instruction before effect) (sited : before.Sited known)
    (more : ∀ site, known site → known' site)
    (isKnown : recordedPatch? effect.edits ≠ none ∨ instruction.Allocates place.pool capable →
      known' place.site) : effect.frame.Sited known' := by
  have old := sited.mono more
  have recorded {patch : Patch} (isRecorded : recordedPatch? effect.edits = some patch) :
      known' place.site := isKnown (.inl (by rw [isRecorded]; exact Option.some_ne_none patch))
  cases step with
  | consume known count pushes =>
      refine old.drop.append fun value found => pushes.sited (fun isSet => isKnown (.inl ?_)) found
      rw [recordedPatch?_append, Signature.recordedPatch?_forces, Option.or_none]
      exact isSet
  | load reads atSlot isPlain =>
      refine old.push ?_
      split
      · exact old _ (.inl (Array.mem_of_getElem? atSlot))
      · exact Value.sited_of_not_capable (isCapable_localKind _)
  | loadValue reads atSlot => exact old.push (Value.sited_capableAt (recorded rfl))
  | store writes isPlain done =>
      refine old.tail.setLocal ?_ done
      split
      · exact old _ (.inr List.mem_cons_self)
      · exact Value.sited_of_not_capable (isCapable_localKind _)
  | storeValue writes done =>
      exact old.tail.setLocal (Value.sited_capableAt (recorded rfl)) done
  | increment increments done =>
      have isSited : Value.int.Sited known' := trivial
      exact old.setLocal isSited done
  | shuffle done =>
      rintro value (found | found)
      · exact old value (.inl found)
      · exact old value (.inr (StackOp.mem_of_mem_shuffle done found))
  | loadElement => exact old.tail.tail.push (Value.sited_capableAt (recorded rfl))
  | storeElement | convertElement => exact old.tail.tail.tail
  | createArray =>
      have isSited {type : FieldType} : (Value.precise type).Sited known' := trivial
      exact old.tail.push isSited
  | readCapable => exact old.tail.push (Value.sited_capableAt (recorded rfl))
  | readPlain =>
      exact old.tail.push (Value.sited_of_not_capable (isCapable_ofType _))
  | construct member isConstructor typed count pushes =>
      -- The patch of the call itself stands unless the result records one.
      have isSet : known' place.site := by
        refine isKnown (.inl ?_)
        simp [recordedPatch?_append, recordedPatch?, Edit.patch?]
      exact (old.drop.tail.addSite isSet).append fun value found =>
        pushes.sited (fun _ => isSet) found
  | allocate named isCapable =>
      exact old.push (Value.sited_capableAt (isKnown (.inr ⟨_, _, rfl, named, isCapable⟩)))

end Instruction

end ValueForm
