import ValueForm.Proofs.Analysis.Construction
import ValueForm.Proofs.Analysis.FixedPoint
import ValueForm.Proofs.Analysis.Monotone
import ValueForm.Proofs.Flattening.Counterparts
import ValueForm.Proofs.Flattening.Representation

/-!
# Where things come from

`Origins` follows what is in the local slots and on the stack along one path of the
original code. It keeps the origin of something as long as that is only moved by loads,
stores and rearrangements of the stack; what is taken for an origin is left open.
`Analysis.Traced` runs it along the edges that the analysis itself follows, with the
instructions that make arrays and null for origins.

An array that was made as one of values is known to be one, or it is no longer known
what it is: `Analysis.Traced.fits`. Paths that meet are what makes the difference.
-/

namespace ValueForm

namespace Leaves

/-- How many values are left. -/
def count : Leaves → Nat
  | .nothing => 0
  | .reference | .plain _ | .capable .. => 1

@[simp]
theorem count_ofValue (value : Value) : (ofValue value).count = 1 := by
  unfold ofValue
  split <;> rfl

@[simp]
theorem count_ofType (capable : String → Bool) (form : LeftForm) (type : FieldType) :
    (ofType capable form type).count = 1 := by
  cases type with
  | object className =>
      simp only [ofType]
      split <;> rfl
  | primitive | array => exact count_ofValue _

@[simp]
theorem count_ofResult (capable : String → Bool) (type : FieldType) :
    (ofResult capable type).count = if type = .void then 0 else 1 := by
  unfold ofResult
  split
  · rfl
  · exact count_ofType capable .object type

end Leaves

/-- For every local slot, and for every entry of the stack, top first, where what is in
it comes from, as far as that is known. -/
structure Origins (α : Type) where
  locals : Nat → Option α
  stack : List (Option α)

namespace Origins

variable {α β : Type}

/-- Nothing is known. -/
def start : Origins α :=
  ⟨fun _ => none, []⟩

/-- What an exception handler sees. -/
def caught (origins : Origins α) : Origins α :=
  { origins with stack := [none] }

/-- Put something into a local slot, or into two if it is wide. -/
def setLocal (origins : Origins α) (slot : UInt16) (wide : Bool) (origin : Option α) :
    Origins α where
  locals := fun other =>
    if other = slot.toNat then origin
    else if wide = true ∧ other = slot.toNat + 1 then none
    else origins.locals other
  stack := origins.stack

/-- Follow every origin back to where that comes from. -/
def bind (origins : Origins α) (back : α → Option β) : Origins β where
  locals := fun slot => (origins.locals slot).bind back
  stack := origins.stack.map (·.bind back)

theorem bind_setLocal (origins : Origins α) (back : α → Option β) (slot : UInt16) (wide : Bool)
    (origin : Option α) :
    (origins.setLocal slot wide origin).bind back =
      (origins.bind back).setLocal slot wide (origin.bind back) := by
  simp only [setLocal, bind, Origins.mk.injEq, and_true]
  funext other
  split
  · rfl
  · split <;> rfl

end Origins

namespace Instruction

/-- How many operands an instruction that works on the stack alone takes, and how many
values it leaves. -/
def arity? (pool : ConstantPool) (instruction : Instruction) : Option (Nat × Nat) :=
  (instruction.signature? pool fun _ => false).map fun signature =>
    (signature.operands.length, signature.leaves.count)

/-- What an instruction does to the origins; `made` is the origin of what it leaves itself,
and `widths` says which entries of the stack count as two words. -/
def trace {α : Type} (pool : ConstantPool) (widths : List Bool) (made : Option α)
    (instruction : Instruction) (origins : Origins α) : Origins α :=
  match instruction.arity? pool with
  | some (operands, left) =>
      { origins with stack := List.replicate left made ++ origins.stack.drop operands }
  | none =>
  match instruction.localLoad? with
  | some (kind, slot) =>
      let origin := if kind = .reference then origins.locals slot.toNat else none
      { origins with stack := origin :: origins.stack }
  | none =>
  match instruction.localStore? with
  | some (kind, slot) =>
      let origin := if kind = .reference then origins.stack.head?.join else none
      let wide := if kind = .reference then widths.head?.getD false else kind.value.isWide
      Origins.setLocal { origins with stack := origins.stack.tail } slot wide origin
  | none =>
  match instruction.incremented? with
  | some slot => origins.setLocal slot false none
  | none =>
  match instruction with
  | .stack op =>
      let shuffled := op.shuffle Prod.snd (origins.stack.zip widths)
      { origins with stack := (shuffled.getD []).map Prod.fst }
  | _ => origins

theorem arity?_of_signature? {pool : ConstantPool} {capable : String → Bool}
    {instruction : Instruction} {signature : Signature}
    (known : instruction.signature? pool capable = some signature) :
    instruction.arity? pool = some (signature.operands.length, signature.leaves.count) := by
  cases instruction with
  | ldc | ldcWide | ldc2 =>
      rcases Option.map_eq_some_iff.1 known with ⟨wide, isWide, rfl⟩
      simp [arity?, signature?, isWide]
  | getStatic | getField | checkCast =>
      rcases Option.map_eq_some_iff.1 known with ⟨type, isType, rfl⟩
      simp [arity?, signature?, isType]
  | invokeVirtual | invokeSpecial | invokeInterface | invokeStatic | invokeDynamic =>
      rcases Option.map_eq_some_iff.1 known with ⟨type, isType, rfl⟩
      simp [arity?, signature?, isType, MethodType.signature, Leaves.count_ofResult]
  | load | loadShort | store | storeShort | stack | increment | incrementWide | valueLoad
  | valueStore | valueArrayLoad | valueArrayStore | box | unbox => cases known
  | _ =>
      cases known
      rfl

section

variable {α β : Type} {pool : ConstantPool} {instruction : Instruction} {widths : List Bool}
  {made : Option α} {origins : Origins α}

theorem trace_of_arity? {taken left : Nat} (known : instruction.arity? pool = some (taken, left)) :
    instruction.trace pool widths made origins =
      ⟨origins.locals, List.replicate left made ++ origins.stack.drop taken⟩ := by
  simp only [trace, known]

theorem trace_of_localLoad? {kind : LocalKind} {slot : UInt16}
    (reads : instruction.localLoad? = some (kind, slot)) :
    instruction.trace pool widths made origins =
      ⟨origins.locals, (if kind = .reference then origins.locals slot.toNat else none) ::
        origins.stack⟩ := by
  cases instruction with
  | load | loadShort =>
      cases reads
      rfl
  | _ => cases reads

theorem trace_of_localStore? {kind : LocalKind} {slot : UInt16}
    (writes : instruction.localStore? = some (kind, slot)) :
    instruction.trace pool widths made origins =
      Origins.setLocal ⟨origins.locals, origins.stack.tail⟩ slot
        (if kind = .reference then widths.head?.getD false else kind.value.isWide)
        (if kind = .reference then origins.stack.head?.join else none) := by
  cases instruction with
  | store | storeShort =>
      cases writes
      rfl
  | _ => cases writes

theorem trace_of_incremented? {slot : UInt16} (increments : instruction.incremented? = some slot) :
    instruction.trace pool widths made origins = origins.setLocal slot false none := by
  cases instruction with
  | increment | incrementWide =>
      cases increments
      rfl
  | _ => cases increments

theorem trace_stack (op : StackOp) :
    (Instruction.stack op).trace pool widths made origins =
      ⟨origins.locals, ((op.shuffle Prod.snd (origins.stack.zip widths)).getD []).map Prod.fst⟩ :=
  rfl

/-- What an instruction does to the origins does not depend on what they are. -/
theorem trace_bind (instruction : Instruction) (back : α → Option β) :
    instruction.trace pool widths (made.bind back) (origins.bind back) =
      (instruction.trace pool widths made origins).bind back := by
  cases known : instruction.arity? pool with
  | some arity =>
      rw [trace_of_arity? known, trace_of_arity? known]
      simp [Origins.bind]
  | none =>
      cases instruction with
      | load | loadShort =>
          rw [trace_of_localLoad? rfl, trace_of_localLoad? rfl]
          simp only [Origins.bind, List.map_cons, Origins.mk.injEq, true_and]
          split <;> rfl
      | store | storeShort =>
          rw [trace_of_localStore? rfl, trace_of_localStore? rfl, Origins.bind_setLocal]
          congr 1
          · simp [Origins.bind]
          · split
            · rcases origins with ⟨slots, _ | ⟨top, rest⟩⟩ <;> rfl
            · rfl
      | increment | incrementWide =>
          rw [trace_of_incremented? rfl, trace_of_incremented? rfl, Origins.bind_setLocal]
          rfl
      | stack op =>
          have isZip : (origins.bind back).stack.zip widths =
              (origins.stack.zip widths).map (Prod.map (·.bind back) id) := List.zip_map_left
          have moved : op.shuffle Prod.snd ((origins.bind back).stack.zip widths) =
              (op.shuffle Prod.snd (origins.stack.zip widths)).map
                (List.map (Prod.map (·.bind back) id)) := by
            rw [isZip]
            exact StackOp.shuffle_map _ (fun _ => rfl) op _
          rw [trace_stack, trace_stack, moved]
          cases op.shuffle Prod.snd (origins.stack.zip widths) <;> simp [Origins.bind]
      | _ => simp only [trace, known, localLoad?, localStore?, incremented?]

end

end Instruction

/-! ## Arrays of values -/

namespace Patch

/-- The class whose values fill the array that a decision makes. -/
def created? (patch : Patch) : Option String :=
  match patch.action with
  | .arrayNew element => some element
  | _ => none

/-- The class whose values a decision loads from an array or stores into one. -/
def accessed? (patch : Patch) : Option String :=
  match patch.action with
  | .arrayLoad | .arrayStore _ => some patch.className
  | _ => none

@[simp]
theorem created?_eq_some_iff {patch : Patch} {element : String} :
    patch.created? = some element ↔ patch.action = .arrayNew element := by
  unfold created?
  cases patch.action <;> simp

end Patch

namespace Registry

/-- The class whose values fill the array that is made at a position. -/
def flatElement? (registry : Registry) (position : Nat) : Option String :=
  (registry.get? (.instruction position)).bind Patch.created?

/-- The class whose values are loaded from an array, or stored into one, at a position. -/
def flatAccess? (registry : Registry) (position : Nat) : Option String :=
  (registry.get? (.instruction position)).bind Patch.accessed?

/-- What the registry decides at a site is what the last visit has recorded. -/
theorem Reflects.bind_get? {α : Type} {registry : Registry} {site : Site} {edits : List Edit}
    (reflects : registry.Reflects site edits) {read : Patch → Option α}
    (unforced : ∀ patch forced, read { patch with forced } = read patch)
    (retired : ∀ patch : Patch, patch.action = .keep → read patch = none) :
    (registry.get? site).bind read = (recordedPatch? edits).bind read := by
  unfold Reflects at reflects
  split at reflects
  · next patch recorded =>
      rcases reflects with ⟨forced, found⟩
      rw [found, recorded]
      exact unforced patch forced
  · next recorded =>
      rw [recorded]
      apply Option.bind_eq_none_iff.2
      intro patch found
      exact retired patch (reflects patch found).1

section

variable {registry : Registry} {index : Nat} {edits : List Edit}

theorem Reflects.flatElement?_eq (reflects : registry.Reflects (.instruction index) edits) :
    registry.flatElement? index = (recordedPatch? edits).bind Patch.created? := by
  apply reflects.bind_get?
  · exact fun _ _ => rfl
  · intro patch isKept
    rw [Patch.created?, isKept]

theorem Reflects.flatAccess?_eq (reflects : registry.Reflects (.instruction index) edits) :
    registry.flatAccess? index = (recordedPatch? edits).bind Patch.accessed? := by
  apply reflects.bind_get?
  · exact fun _ _ => rfl
  · intro patch isKept
    rw [Patch.accessed?, isKept]

end

/-- A value may stand for what was made at a position: if that is an array of values,
the value is that array or nothing more precise is known of it. -/
def Allows (registry : Registry) (position : Nat) (value : Value) : Prop :=
  ∀ element, registry.flatElement? position = some element →
    value.Covers (.precise (.array (.object element)))

variable {registry : Registry} {position : Nat} {value : Value}

/-- What stands for an array of values is the array, some reference, or unusable. -/
theorem Allows.cases {element : String} (allows : registry.Allows position value)
    (isFlat : registry.flatElement? position = some element) :
    value = .precise (.array (.object element)) ∨ value = .reference ∨ value = .uninitialized := by
  rcases allows element isFlat with isArray | isUnusable | ⟨isNull, _⟩ | ⟨isAny, _⟩
  · exact .inl isArray
  · exact .inr (.inr isUnusable)
  · cases isNull
  · exact .inr (.inl isAny)

end Registry

namespace Value

/-- A relation between origins and values in which what is an instance of a value-capable
class, or wide, is as good as anything else. -/
def Ordinary {α : Type} (allows : α → Value → Prop) : Prop :=
  ∀ source value, allows source value → value.isCapable = true ∨ value.isWide = true →
    ∀ other, allows source other

end Value

theorem Registry.ordinary_allows (registry : Registry) : Value.Ordinary registry.Allows := by
  intro position value allows special other element isFlat
  rcases allows.cases isFlat with rfl | rfl | rfl <;> rcases special with special | special <;>
    cases special

theorem Registry.Allows.absorbed {registry : Registry} {position : Nat} {held : Site → Prop}
    {value current : Value} (allows : registry.Allows position value)
    (absorbs : current.Absorbs held value) : registry.Allows position current := by
  rcases Value.absorbs_iff.1 absorbs with ⟨_, _, _, _, rfl, _⟩ | ⟨_, covers, _⟩
  · exact registry.ordinary_allows _ _ allows (.inl rfl) _
  · cases plain : value.isCapable with
    | true => exact registry.ordinary_allows _ _ allows (.inl plain) _
    | false =>
        rw [Value.asReference_of_not_capable plain] at covers
        intro element isFlat
        exact covers.trans (allows element isFlat)

namespace Origins

variable {α : Type}

/-- A value is allowed by its origin, if that is known. -/
def Allowed (allows : α → Value → Prop) (origin : Option α) (value : Value) : Prop :=
  ∀ source ∈ origin, allows source value

/-- Every value of a frame is allowed by its origin. -/
structure Fits (allows : α → Value → Prop) (origins : Origins α) (frame : Frame) : Prop where
  locals : ∀ (slot : Nat) (value : Value), frame.locals[slot]? = some value →
    Allowed allows (origins.locals slot) value
  stack : List.Forall₂ (Allowed allows) origins.stack frame.stack

variable {allows : α → Value → Prop} {origins : Origins α} {frame : Frame}

@[simp]
theorem allowed_none (value : Value) : Allowed allows none value := by
  rintro _ ⟨⟩

theorem Allowed.of_special {origin : Option α} {value : Value}
    (allowed : Allowed allows origin value) (ordinary : Value.Ordinary allows)
    (special : value.isCapable = true ∨ value.isWide = true)
    (other : Value) : Allowed allows origin other :=
  fun source isSource => ordinary source value (allowed source isSource) special other

theorem Fits.push {origin : Option α} {value : Value} (fits : origins.Fits allows frame)
    (allowed : Allowed allows origin value) :
    Fits allows ⟨origins.locals, origin :: origins.stack⟩ (frame.push value) :=
  ⟨fits.locals, .cons allowed fits.stack⟩

theorem Fits.pop {locals : Array Value} {value : Value} {rest : List Value}
    (fits : origins.Fits allows ⟨locals, value :: rest⟩) :
    Allowed allows origins.stack.head?.join value ∧
      Fits allows ⟨origins.locals, origins.stack.tail⟩ ⟨locals, rest⟩ := by
  rcases origins with ⟨slots, stack⟩
  rcases fits with ⟨onLocals, onStack⟩
  cases onStack with
  | cons here others => exact ⟨here, onLocals, others⟩

theorem Fits.caught (fits : origins.Fits allows frame) (exception : Value) :
    origins.caught.Fits allows (frame.handlerFrame exception) :=
  ⟨fits.locals, .cons (allowed_none exception) .nil⟩

theorem Fits.setLocal {slot : UInt16} {wide : Bool} {origin : Option α} {value : Value}
    {after : Frame} (fits : origins.Fits allows frame) (ordinary : Value.Ordinary allows)
    (allowed : Allowed allows origin value) (isWide : value.isWide = wide)
    (done : frame.setLocal slot value = .ok after) :
    (origins.setLocal slot wide origin).Fits allows after := by
  subst isWide
  constructor
  · intro other value' atOther
    rw [Frame.getElem?_setLocal done] at atOther
    dsimp only [Origins.setLocal]
    by_cases isSlot : other = slot.toNat
    · rw [if_pos isSlot] at atOther ⊢
      cases atOther
      exact allowed
    · rw [if_neg isSlot] at atOther ⊢
      rcases Option.map_eq_some_iff.1 atOther with ⟨old, atBefore, replaced⟩
      have wasAllowed := fits.locals other old atBefore
      split
      · exact allowed_none value'
      · next notSecond =>
          split at replaced
          · next isCut =>
              rcases isCut with ⟨isNext, isTwo⟩ | ⟨_, isTwo⟩
              · exact absurd ⟨decide_eq_true isTwo, isNext⟩ notSecond
              · exact wasAllowed.of_special ordinary (.inr (decide_eq_true isTwo)) value'
          · subst replaced
            exact wasAllowed
  · rw [(Frame.size_setLocal done).2.1]
    exact fits.stack

/-- Changing instances of value-capable classes alone changes nothing. -/
theorem Fits.map {locals : Array Value} {operands rest : List Value}
    (fits : origins.Fits allows ⟨locals, operands ++ rest⟩) (ordinary : Value.Ordinary allows)
    (change : Value → Value) (keeps : ∀ value, value.isCapable = false → change value = value) :
    origins.Fits allows ⟨locals.map change, operands ++ rest.map change⟩ := by
  have one {origin : Option α} {value : Value} (allowed : Allowed allows origin value) :
      Allowed allows origin (change value) := by
    cases plain : value.isCapable with
    | true => exact allowed.of_special ordinary (.inl plain) _
    | false =>
        rw [keeps value plain]
        exact allowed
  constructor
  · intro slot value atSlot
    simp only [Array.getElem?_map, Option.map_eq_some_iff] at atSlot
    rcases atSlot with ⟨old, atBefore, rfl⟩
    exact one (fits.locals slot old atBefore)
  · have changed : List.Forall₂ (fun value value' => value' = value ∨ value' = change value)
        (operands ++ rest) (operands ++ rest.map change) := by
      apply List.rel_append
      · exact List.forall₂_same.2 fun value _ => .inl rfl
      · rw [List.forall₂_map_right_iff]
        exact List.forall₂_same.2 fun value _ => .inr rfl
    apply (Outcome.forall₂_comp fits.stack changed).imp
    rintro origin _ ⟨value, allowed, rfl | rfl⟩
    · exact allowed
    · exact one allowed

theorem Fits.absorbed {registry : Registry} {origins : Origins Nat} {held : Site → Prop}
    {current : Frame} (fits : origins.Fits registry.Allows frame)
    (above : current.Above held frame) : origins.Fits registry.Allows current := by
  constructor
  · intro slot value atSlot
    have inRange : slot < frame.locals.size := above.size ▸ (Array.getElem?_eq_some_iff.1 atSlot).1
    have atFrame := Array.getElem?_eq_getElem inRange
    intro position isOrigin
    exact (fits.locals slot _ atFrame position isOrigin).absorbed
      (above.locals slot value _ atSlot atFrame)
  · apply (Outcome.forall₂_comp fits.stack above.stack.flip).imp
    rintro origin value ⟨_, allowed, absorbs⟩ position isOrigin
    exact (allowed position isOrigin).absorbed absorbs

/-- An instruction that works on the stack alone leaves what is below its operands. -/
theorem Fits.consume {pool : ConstantPool} {instruction : Instruction} {locals : Array Value}
    {rest : List Value} (operands pushed : List Value)
    (fits : origins.Fits allows ⟨locals, operands ++ rest⟩)
    (known : instruction.arity? pool = some (operands.length, pushed.length)) {made : Option α}
    (isMade : ∀ value ∈ pushed, Allowed allows made value) (widths : List Bool) :
    (instruction.trace pool widths made origins).Fits allows ⟨locals, pushed ++ rest⟩ := by
  rw [Instruction.trace_of_arity? known]
  refine ⟨fits.locals, ?_⟩
  apply List.rel_append
  · clear known
    induction pushed with
    | nil => exact .nil
    | cons value pushed ih =>
        rcases List.forall_mem_cons.1 isMade with ⟨here, others⟩
        exact .cons here (ih others)
  · exact List.forall₂_drop_append _ _ _ fits.stack

theorem Fits.shuffle {pool : ConstantPool} {op : StackOp} {locals : Array Value}
    {stack stack' : List Value} (fits : origins.Fits allows ⟨locals, stack⟩)
    (done : op.shuffle Value.isWide stack = some stack') (made : Option α) :
    ((Instruction.stack op).trace pool (stack.map Value.isWide) made origins).Fits allows
      ⟨locals, stack'⟩ := by
  have height := fits.stack.length_eq
  have isStack : (origins.stack.zip stack).map Prod.snd = stack :=
    List.map_snd_zip (Nat.le_of_eq height.symm)
  have isZip : origins.stack.zip (stack.map Value.isWide) =
      (origins.stack.zip stack).map fun pair => (pair.1, pair.2.isWide) := List.zip_map_right
  -- Both stacks are rearranged as the stack of their pairs is.
  rw [← isStack, StackOp.shuffle_map Prod.snd fun _ => rfl] at done
  rcases Option.map_eq_some_iff.1 done with ⟨pairs, isShuffled, rfl⟩
  have traced : (Instruction.stack op).trace pool (stack.map Value.isWide) made origins =
      ⟨origins.locals, pairs.map Prod.fst⟩ := by
    rw [Instruction.trace_stack, isZip, StackOp.shuffle_map
      (fun pair : Option α × Value => (pair.1, pair.2.isWide)) fun _ => rfl, isShuffled]
    simp
  rw [traced]
  refine ⟨fits.locals, ?_⟩
  rw [List.forall₂_map_left_iff, List.forall₂_map_right_iff, List.forall₂_same]
  intro pair isPair
  exact List.forall₂_zip fits.stack (StackOp.mem_of_mem_shuffle isShuffled isPair)

end Origins

namespace Leaves.Pushes

variable {site : Site} {leaves : Leaves} {pushed : List Value} {records : List Edit}

theorem length_eq_count (pushes : leaves.Pushes site pushed records) :
    pushed.length = leaves.count := by
  cases pushes <;> rfl

theorem head?_of_mem (pushes : leaves.Pushes site pushed records) {value : Value}
    (isPushed : value ∈ pushed) {rest : List Value} : (pushed ++ rest).head? = some value := by
  cases pushes with
  | nothing => cases isPushed
  | reference | plain | capable =>
      cases List.mem_singleton.1 isPushed
      rfl

end Leaves.Pushes

namespace Instruction

variable {place : Place} {capable : String → Bool} {instruction : Instruction} {before : Frame}
  {effect : Effect}

/-- An instruction does to the origins what its step does to a frame that they fit. -/
theorem Step.trace_fits {α : Type} {allows : α → Value → Prop} {origins : Origins α}
    (step : Step place capable instruction before effect) (ordinary : Value.Ordinary allows)
    {made : Option α}
    (isMade : ∀ value, effect.frame.stack.head? = some value → Origins.Allowed allows made value)
    (fits : origins.Fits allows before) :
    (instruction.trace place.pool (before.stack.map Value.isWide) made origins).Fits allows
      effect.frame := by
  have madeOne {value : Value} (isTop : effect.frame.stack.head? = some value) :
      ∀ other ∈ [value], Origins.Allowed allows made other :=
    List.forall_mem_singleton.2 (isMade value isTop)
  cases step with
  | consume known count pushes =>
      have arity := arity?_of_signature? known
      rw [← count, ← pushes.length_eq_count, ← List.length_reverse] at arity
      apply fits.consume _ _ arity
      intro value isPushed
      exact isMade value (pushes.head?_of_mem isPushed)
  | load reads found isPlain =>
      rw [trace_of_localLoad? reads]
      apply fits.push
      split
      · exact fits.locals _ _ found
      · exact Origins.allowed_none _
  | loadValue reads found =>
      rw [trace_of_localLoad? reads]
      apply fits.push
      exact (fits.locals _ _ found).of_special ordinary (.inl rfl) _
  | @store _ kind _ _ value _ _ writes isPlain done =>
      rw [trace_of_localStore? writes]
      apply fits.pop.2.setLocal ordinary _ _ done
      · split
        · exact fits.pop.1
        · exact Origins.allowed_none _
      · split <;> rfl
  | storeValue writes done =>
      rw [trace_of_localStore? writes]
      apply fits.pop.2.setLocal ordinary _ rfl done
      exact fits.pop.1.of_special ordinary (.inl rfl) _
  | increment increments done =>
      rw [trace_of_incremented? increments]
      exact fits.setLocal ordinary (Origins.allowed_none _) rfl done
  | shuffle done => exact fits.shuffle done made
  | loadElement => exact fits.consume [_, _] [_] rfl (madeOne rfl) _
  | storeElement | convertElement =>
      exact fits.consume [_, _, _] [] rfl (List.forall_mem_nil _) _
  | createArray => exact fits.consume [_] [_] rfl (madeOne rfl) _
  | allocate => exact fits.consume [] [_] rfl (madeOne rfl) _
  | @readCapable position _ _ _ _ _ typed _ =>
      have arity : (getField position).arity? place.pool = some (1, 1) := by
        simp [arity?, signature?, typed]
      exact fits.consume [_] [_] arity (madeOne rfl) _
  | @readPlain position _ _ _ _ _ _ member typed _ =>
      have arity : (getField position).arity? place.pool = some (1, 1) := by
        simp [arity?, signature?, ConstantPool.fieldType?, member, typed]
      exact fits.consume [_] [_] arity (madeOne rfl) _
  | @construct position locals className receiver arguments rest pushed _ _ _ member _ typed count
      pushes =>
      have arity : (invokeSpecial position).arity? place.pool = some
          ((arguments.reverse ++ [Value.capable className receiver]).length, pushed.length) := by
        rw [pushes.length_eq_count, Leaves.count_ofResult]
        simp [arity?, signature?, ConstantPool.methodType?, member, typed, MethodType.signature,
          Leaves.count_ofResult, count]
      rw [List.append_cons] at fits
      -- The call marks copies of its receiver, which is no array.
      have marked := fits.map ordinary
        (Frame.addSiteTo (.capable className receiver) place.site) (by
          intro value plain
          apply if_neg
          rintro rfl
          cases plain)
      apply marked.consume _ _ arity
      intro value isPushed
      exact isMade value (pushes.head?_of_mem isPushed)

/-- Only creating an array of a value-capable class records that it is one of values. -/
theorem Step.creates {element : String} (step : Step place capable instruction before effect)
    (created : (recordedPatch? effect.edits).bind Patch.created? = some element) :
    capable element = true ∧
      effect.frame.stack.head? = some (.precise (.array (.object element))) := by
  rcases Option.bind_eq_some_iff.1 created with ⟨patch, recorded, isCreated⟩
  have isNew := Patch.created?_eq_some_iff.1 isCreated
  have records := step.records recorded
  rw [isNew] at records
  cases records with
  | arrayNew named =>
      cases step with
      | consume known count pushes =>
          cases known
          cases pushes
          rw [List.append_nil, Signature.recordedPatch?_forces] at recorded
          cases recorded
      | createArray isFlat isCapable =>
          cases recorded
          cases isNew
          exact ⟨isCapable, rfl⟩
      | load reads => cases reads
      | loadValue reads => cases reads
      | store writes => cases writes
      | storeValue writes => cases writes
      | increment increments => cases increments

/-- Where an instruction is that makes an array or null. -/
def madeAt (index : Nat) : Instruction → Option Nat
  | .newReferenceArray _ | .const .null => some index
  | _ => none

theorem index_of_mem_madeAt {index position : Nat} (isMade : position ∈ instruction.madeAt index) :
    position = index := by
  cases instruction with
  | newReferenceArray =>
      cases isMade
      rfl
  | const constant =>
      cases constant with
      | null =>
          cases isMade
          rfl
      | _ => cases isMade
  | _ => cases isMade

/-- What an instruction leaves may stand for what it makes. -/
theorem Step.allowed_made {registry : Registry} {index : Nat}
    (step : Step place capable instruction before effect)
    (reflects : registry.Reflects (.instruction index) effect.edits) {value : Value}
    (isTop : effect.frame.stack.head? = some value) :
    Origins.Allowed registry.Allows (instruction.madeAt index) value := by
  intro position isMade element isFlat
  rw [index_of_mem_madeAt isMade, reflects.flatElement?_eq] at isFlat
  cases isTop.symm.trans (step.creates isFlat).2
  exact .inl rfl

end Instruction

/-! ## Along the edges -/

/-- Which entries of the stack count as two words before an instruction. -/
def AnalysisResult.widths (result : AnalysisResult) (index : Nat) : List Bool :=
  match result.frames[index]?.join with
  | some frame => frame.stack.map Value.isWide
  | none => []

namespace Analysis

/-- Where control goes from an instruction, with a state from before it or after it;
`caught` gives what a handler sees of a state. -/
def flows {α : Type} (analysis : Analysis) (handlers : List Handler) (index : Nat)
    (located : Located) (caught : Handler → α → α) (before after : α) :
    List (Except AnalysisError (Nat × α)) :=
  let address := located.address
  let instruction := located.instruction
  let intoHandlers := (handlers.filter (·.covers index)).flatMap fun handler =>
    [.ok (handler.target, caught handler before), .ok (handler.target, caught handler after)]
  let jumps := instruction.branchOffsets.map fun offset =>
    (analysis.positionAt address (address + offset.toInt)).map fun target => (target, after)
  let next :=
    if instruction.endsFlow then []
    else if index + 1 < analysis.body.instructions.size then
      [.ok (index + 1, if instruction.isSubroutineCall then before else after)]
    else [.error (.fallsOffEnd address)]
  intoHandlers ++ jumps ++ next

variable {analysis : Analysis} {answers : String → Except OracleError Bool}
  {handlers : List Handler} {result : AnalysisResult} {index : Nat} {located : Located}

/-- The edges of the analysis are where control goes, with frames for states. -/
theorem edges_eq_flows (before after : Frame) :
    analysis.edges handlers index located before after =
      analysis.flows handlers index located
        (fun handler frame => frame.handlerFrame (.precise (.object handler.catchType)))
        before after :=
  rfl

/-- Related states go to the same places. -/
theorem exists_flow {α β : Type} (related : α → β → Prop) {caught : Handler → α → α}
    {caught' : Handler → β → β}
    (sees : ∀ handler state state', related state state' →
      related (caught handler state) (caught' handler state'))
    {before after state : α} {before' after' : β} (isBefore : related before before')
    (isAfter : related after after') {target : Nat}
    (isFlow : .ok (target, state) ∈ analysis.flows handlers index located caught before after) :
    ∃ state', .ok (target, state') ∈
      analysis.flows handlers index located caught' before' after' ∧ related state state' := by
  simp only [flows, List.mem_append, List.mem_flatMap, List.mem_pair, List.mem_map] at isFlow ⊢
  rcases isFlow with (⟨handler, covers, isCaught⟩ | ⟨offset, isOffset, jumps⟩) | isNext
  · rcases isCaught with isCaught | isCaught
    · cases isCaught
      exact ⟨_, .inl (.inl ⟨handler, covers, .inl rfl⟩), sees handler _ _ isBefore⟩
    · cases isCaught
      exact ⟨_, .inl (.inl ⟨handler, covers, .inr rfl⟩), sees handler _ _ isAfter⟩
  · cases position : analysis.positionAt located.address (located.address + offset.toInt) with
    | error error =>
        rw [position] at jumps
        cases jumps
    | ok place =>
        rw [position] at jumps
        cases jumps
        exact ⟨after', .inl (.inr ⟨offset, isOffset, by rw [position]; rfl⟩), isAfter⟩
  · by_cases ends : located.instruction.endsFlow = true
    · rw [if_pos ends] at isNext
      cases isNext
    · by_cases inside : index + 1 < analysis.body.instructions.size
      · rw [if_neg ends, if_pos inside] at isNext
        cases List.mem_singleton.1 isNext
        refine ⟨if located.instruction.isSubroutineCall then before' else after', .inr ?_, ?_⟩
        · rw [if_neg ends, if_pos inside]
          exact List.mem_singleton_self _
        · split
          · exact isBefore
          · exact isAfter
      · rw [if_neg ends, if_neg inside] at isNext
        cases List.mem_singleton.1 isNext

/-- The origins that a path from the entry leads to an instruction with. -/
inductive Traced (analysis : Analysis) (handlers : List Handler) (result : AnalysisResult) :
    Nat → Origins Nat → Prop
  | entry : Traced analysis handlers result 0 .start
  | step {index target : Nat} {located : Located} {origins origins' : Origins Nat}
      (traced : Traced analysis handlers result index origins)
      (atIndex : analysis.body.instructions[index]? = some located)
      (isFlow : .ok (target, origins') ∈ analysis.flows handlers index located
        (fun _ => Origins.caught) origins
        (located.instruction.trace analysis.classFile.pool (result.widths index)
          (located.instruction.madeAt index) origins)) :
      Traced analysis handlers result target origins'

theorem Invariant.exists_fits {entry : Frame}
    (invariant : analysis.Invariant answers handlers entry result.state) {target : Nat}
    {frame : Frame} {origins : Origins Nat}
    (absorbed : analysis.HasAbsorbed answers result.registry result.frames target frame)
    (size : frame.locals.size = analysis.slots)
    (fits : origins.Fits result.registry.Allows frame) :
    ∃ current, result.frames[target]? = some (some current) ∧
      origins.Fits result.registry.Allows current := by
  rcases absorbed with ⟨current, found, absorbs⟩
  have sameSize : current.locals.size = frame.locals.size :=
    (invariant.grounded.locals target current found).trans size.symm
  exact ⟨current, found, fits.absorbed (Frame.above_iff.2 ⟨sameSize, absorbs⟩)⟩

/-- Wherever a path leads, the analysis has a frame, and every value of the frame may
stand for what was made where the path says. -/
theorem Traced.fits {entry : Frame} {registry : Registry}
    (invariant : analysis.Invariant answers handlers entry result.state)
    (entering : Entering analysis.slots entry registry) {origins : Origins Nat}
    (traced : analysis.Traced handlers result index origins) :
    ∃ frame, result.frames[index]? = some (some frame) ∧
      origins.Fits result.registry.Allows frame := by
  induction traced with
  | entry =>
      apply invariant.exists_fits invariant.entered entering.locals
      constructor
      · intro slot value _
        exact Origins.allowed_none value
      · rw [entering.stack]
        exact .nil
  | @step index target located origins origins' _ atIndex isFlow ih =>
      rcases ih with ⟨before, found, fits⟩
      rcases invariant.settled_of_frame found with ⟨located', effect, atIndex', settled⟩
      cases atIndex.symm.trans atIndex'
      have step := Instruction.transfer_step settled.transferred
      have size : before.locals.size = analysis.slots :=
        invariant.grounded.locals index before found
      have widths : result.widths index = before.stack.map Value.isWide := by
        simp [AnalysisResult.widths, found]
      rw [widths] at isFlow
      have traced := step.trace_fits result.registry.ordinary_allows
        (fun _ => step.allowed_made settled.reflected) fits
      rcases exists_flow (fun (origins : Origins Nat) (frame : Frame) =>
          origins.Fits result.registry.Allows frame ∧ frame.locals.size = analysis.slots)
        (fun handler _ _ here => ⟨here.1.caught _, here.2⟩) ⟨fits, size⟩
        ⟨traced, step.size_locals.trans size⟩ isFlow with ⟨frame, isEdge, fits', size'⟩
      rw [← edges_eq_flows] at isEdge
      rcases settled.flowed _ isEdge with ⟨_, _, ⟨⟩, absorbed⟩
      exact invariant.exists_fits absorbed size' fits'

/-- A path goes on to the instruction after. -/
theorem Traced.next {index : Nat} {located : Located} {origins : Origins Nat}
    (traced : analysis.Traced handlers result index origins)
    (atIndex : analysis.body.instructions[index]? = some located)
    (goesOn : located.instruction.endsFlow = false)
    (isPlain : located.instruction.isSubroutineCall = false)
    (inside : index + 1 < analysis.body.instructions.size) :
    analysis.Traced handlers result (index + 1)
      (located.instruction.trace analysis.classFile.pool (result.widths index)
        (located.instruction.madeAt index) origins) := by
  apply traced.step atIndex
  simp [flows, goesOn, isPlain, inside]

end Analysis

end ValueForm
