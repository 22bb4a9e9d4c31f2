import ValueForm.Proofs.Analysis.Construction
import ValueForm.Proofs.Analysis.Monotone
import ValueForm.Proofs.Flattening.Representation

/-!
# Steady frames

Some rules ask what an operand is, and what an operand is known to be changes while
paths are merged. A frame is steady for an instruction where that does not matter:
no monitor is used on an instance of a value-capable class, no array is null or of
unknown elements, no slot or stack entry whose width counts is unusable, and a
constructor call leaves one copy of its receiver.

`Instruction.transfer_lowers`: between steady frames every instruction does on a
lower frame what it does on the upper one, and leaves a lower one.
-/

namespace ValueForm

/-- What absorbs an instance and has no value form absorbs one that is decided at a
held site. -/
theorem Value.Absorbs.capableAt {held : Site → Prop} {value : Value} {className : String}
    {sites : SiteSet} {site : Site} (absorbs : value.Absorbs held (.capable className sites))
    (plain : value.isCapable = false) (isHeld : held site) :
    value.Absorbs held (.capableAt className site) := by
  rcases absorbs_iff.1 absorbs with ⟨_, _, _, rfl, _⟩ | ⟨_, covers, _⟩
  · cases plain
  · refine absorbs_of_covers plain covers fun other found => ?_
    rw [SiteSet.mem_singleton.1 found]
    exact isHeld

/-- What an array absorbs is the same array, or null. -/
theorem Value.Absorbs.eq_of_array {held : Site → Prop} {element : FieldType} {array : Value}
    (absorbs : (Value.precise (.array element)).Absorbs held array) (isSome : array ≠ .null) :
    array = .precise (.array element) := by
  rcases absorbs_iff.1 absorbs with ⟨_, _, _, ⟨⟩, _⟩ | ⟨_, covers, _⟩
  cases array <;> simp_all [Covers, asReference]

namespace Transfer

variable {answers : String → Except OracleError Bool} {held : Site → Prop} {place : Place}

/-! ## Rules that ask what an operand is

What such a rule does once it has the operand is a function of the operand; where
the operand has no value form it is the same for all of them. -/

/-- What loading does with the contents of a slot. -/
def loadContents (place : Place) (slot : UInt16) : Value → Transfer Unit
  | .capable className provenance => do
      edit (.link provenance)
      record (.valueLoad slot provenance) .value className
      pushCapable place className
  | value => push value

theorem loadLocal_reference (slot : UInt16) :
    loadLocal place .reference slot = getLocal place slot >>= loadContents place slot := by
  refine congrArg (getLocal place slot >>= ·) (funext fun value => ?_)
  cases value <;> rfl

theorem loadContents_plain {value : Value} (plain : value.isCapable = false) (slot : UInt16) :
    loadContents place slot value = push value := by
  cases value with
  | capable => cases plain
  | _ => rfl

/-- What storing into a slot does with the operand. -/
def storeContents (place : Place) (slot : UInt16) : Value → Transfer Unit
  | .capable className provenance => do
      edit (.link provenance)
      record (.valueStore slot provenance) .nothing className
      setLocal place slot (.capableAt className place.site)
  | value => setLocal place slot value

theorem storeLocal_reference (slot : UInt16) :
    storeLocal place .reference slot = pop place >>= storeContents place slot := by
  refine congrArg (pop place >>= ·) (funext fun value => ?_)
  cases value <;> rfl

theorem storeContents_plain {value : Value} (plain : value.isCapable = false) (slot : UInt16) :
    storeContents place slot value = setLocal place slot value := by
  cases value with
  | capable => cases plain
  | _ => rfl

/-- What reading a field does with the receiver. -/
def readFrom (place : Place) (field : MemberRef) (type : FieldType) :
    Value → Option String → Transfer Unit
  | .capable _ provenance, some className => do
      edit (.link provenance)
      record (.fieldRead provenance) .value className
      pushCapable place className
  | .capable _ provenance, none => do
      edit (.link provenance)
      record (.fieldRead provenance) .nothing field.owner
      push (.ofType type)
  | _, some className => do
      record .keep .value className
      pushCapable place className
  | _, none => push (.ofType type)

theorem readFrom_plain {receiver : Value} (plain : receiver.isCapable = false)
    (field : MemberRef) (type : FieldType) (found : Option String) :
    readFrom place field type receiver found =
      match found with
      | some className => do
          record .keep .value className
          pushCapable place className
      | none => push (.ofType type) := by
  cases receiver with
  | capable => cases plain
  | _ => cases found <;> rfl

/-- What loading an element does with the array. -/
def loadFrom (place : Place) : Value → Transfer Unit
  | .precise (.array element) => do
      match ← capableClass? element with
      | some className =>
          if place.flatArrays then do
            record .arrayLoad .value className
            pushCapable place className
          else
            push (.precise (.object className))
      | none => push (.ofType element)
  | _ => push .reference

theorem loadElement_eq :
    loadElement place = discard (pop place) >>= fun _ => pop place >>= loadFrom place :=
  rfl

/-- What storing an element does with it, given the class of the array's elements
if it is an array of values. -/
def storeInto (element? : Option String) (value : Value) : Transfer Unit :=
  match element?, value with
  | some element, .capable className provenance =>
      if className = element then do
        edit (.link provenance)
        record (.arrayStore (some provenance)) .nothing element
      else do
        edit (.force provenance)
        record (.arrayStore none) .nothing element
  | some element, _ => record (.arrayStore none) .nothing element
  | none, value => requireReference value

theorem storeElement_eq :
    storeElement place = pop place >>= fun value => discard (pop place) >>= fun _ =>
      pop place >>= fun array => valueElement? place array >>= fun element? =>
        storeInto element? value :=
  rfl

theorem storeInto_plain {value : Value} (plain : value.isCapable = false) (element : String) :
    storeInto (some element) value = record (.arrayStore none) .nothing element := by
  cases value with
  | capable => cases plain
  | _ => rfl

namespace Lowers

theorem readFrom {receiver receiver' : Value} (absorbs : receiver.Absorbs held receiver')
    (field : MemberRef) (type : FieldType) (found : Option String) :
    Lowers answers held Eq (readFrom place field type receiver found)
      (Transfer.readFrom place field type receiver' found) := by
  rcases Value.absorbs_iff.1 absorbs with
    ⟨owner, sites, sites', rfl, rfl, contained⟩ | ⟨plain, _, isHeld⟩
  · cases found with
    | some className =>
        exact (edit (.link contained)).bind fun _ _ _ => (record ..).bind fun _ _ _ => pushSame _
    | none =>
        exact (edit (.link contained)).bind fun _ _ _ => (record ..).bind fun _ _ _ => pushSame _
  · rw [readFrom_plain plain]
    cases capability : receiver'.isCapable with
    | false =>
        rw [readFrom_plain capability]
        cases found with
        | some className => exact (record ..).bind fun _ _ _ => pushSame _
        | none => exact pushSame _
    | true =>
        cases receiver' with
        | capable owner sites =>
            cases found with
            | some className =>
                exact .added (.inl isHeld) ((record ..).bind fun _ _ _ => pushSame _)
            | none => exact .added (.inl isHeld) (.added rfl (pushSame _))
        | _ => cases capability

theorem readField (index : UInt16) :
    Lowers answers held Eq (readField place index) (Transfer.readField place index) := by
  refine (require _ _).bind ?_
  rintro field _ rfl
  refine pop.bind fun receiver receiver' absorbs => (require _ _).bind ?_
  rintro type _ rfl
  refine (capableClass? type).bind ?_
  rintro found _ rfl
  exact readFrom absorbs field type found

theorem loadContents {value value' : Value} (absorbs : value.Absorbs held value') (slot : UInt16)
    (isHeld : value.isCapable = false → held place.site) :
    Lowers answers held Eq (loadContents place slot value)
      (Transfer.loadContents place slot value') := by
  rcases Value.absorbs_iff.1 absorbs with
    ⟨className, sites, sites', rfl, rfl, contained⟩ | ⟨plain, _, below⟩
  · exact (edit (.link contained)).bind fun _ _ _ => (record ..).bind fun _ _ _ => pushSame _
  · rw [loadContents_plain plain]
    cases capability : value'.isCapable with
    | false =>
        rw [loadContents_plain capability]
        exact push absorbs
    | true =>
        cases value' with
        | capable className sites =>
            exact .added (.inl below) (.added rfl
              (push (absorbs.capableAt plain (isHeld plain))))
        | _ => cases capability

theorem storeContents {value value' : Value} (absorbs : value.Absorbs held value') (slot : UInt16)
    (usable : value ≠ .uninitialized) (isHeld : value.isCapable = false → held place.site) :
    Lowers answers held Eq (storeContents place slot value)
      (Transfer.storeContents place slot value') := by
  have size := absorbs.size_eq usable
  rcases Value.absorbs_iff.1 absorbs with
    ⟨className, sites, sites', rfl, rfl, contained⟩ | ⟨plain, _, below⟩
  · exact (edit (.link contained)).bind fun _ _ _ => (record ..).bind fun _ _ _ =>
      setLocal slot (Value.absorbs_self _) rfl
  · rw [storeContents_plain plain]
    cases capability : value'.isCapable with
    | false =>
        rw [storeContents_plain capability]
        exact setLocal slot absorbs size
    | true =>
        cases value' with
        | capable className sites =>
            exact .added (.inl below) (.added rfl
              (setLocal slot (absorbs.capableAt plain (isHeld plain)) size))
        | _ => cases capability

/-- Storing an element into the same array of values. -/
theorem storeInto {value value' : Value} (absorbs : value.Absorbs held value')
    (element : String) :
    Lowers answers held Eq (storeInto (some element) value)
      (Transfer.storeInto (some element) value') := by
  rcases Value.absorbs_iff.1 absorbs with
    ⟨className, sites, sites', rfl, rfl, contained⟩ | ⟨plain, _, below⟩
  · dsimp only [Transfer.storeInto]
    split
    · exact (edit (.link contained)).bind fun _ _ _ => record ..
    · exact (edit (.forces absorbs)).bind fun _ _ _ => record ..
  · rw [storeInto_plain plain]
    cases capability : value'.isCapable with
    | false =>
        rw [storeInto_plain capability]
        exact record ..
    | true =>
        cases value' with
        | capable className sites =>
            dsimp only [Transfer.storeInto]
            split
            · exact .added (.inl below) (record ..)
            · exact .added below (record ..)
        | _ => cases capability

/-- Storing an element into an array that only in the lower frame is known to be one
of values. -/
theorem storeIntoKnown {value value' : Value} (absorbs : value.Absorbs held value')
    (element : String) :
    Lowers answers held Eq (Transfer.requireReference value)
      (Transfer.storeInto (some element) value') := by
  intro high low ended after above yields
  rw [yields_requireReference] at yields
  subst yields
  have forced := (EditsAbove.forces absorbs).bounded
  cases capability : value'.isCapable with
  | false =>
      rw [storeInto_plain capability]
      refine ⟨(), _, yields_record.2 rfl, rfl, above.frame, ?_⟩
      exact above.edits.append (.recording [] rfl fun _ _ found => absurd found List.not_mem_nil)
  | true =>
      cases value' with
      | capable className sites =>
          dsimp only [Transfer.storeInto]
          split
          · refine ⟨(), _, yields_bind.2 ⟨(), _, yields_edit.2 rfl, yields_record.2 rfl⟩, rfl,
              above.frame, ?_⟩
            rw [List.append_assoc]
            refine above.edits.append (.recording [.link sites] rfl fun isHeld change found => ?_)
            rw [List.mem_singleton.1 found]
            exact .inl (forced isHeld _ (List.mem_singleton_self _))
          · refine ⟨(), _, yields_bind.2 ⟨(), _, yields_edit.2 rfl, yields_record.2 rfl⟩, rfl,
              above.frame, ?_⟩
            rw [List.append_assoc]
            exact above.edits.append (.recording [.force sites] rfl forced)
      | _ => cases capability

end Lowers

end Transfer

/-! ## Steady frames -/

/-- Whether a stack instruction asks how wide entries are. -/
def StackOp.measures : StackOp → Bool
  | .pop | .dup | .dupX1 | .swap => false
  | .pop2 | .dupX2 | .dup2 | .dup2X1 | .dup2X2 => true

/-- A rearrangement asks how wide the top three entries are, if it asks at all. -/
theorem StackOp.shuffle_congr {α : Type} {isWide isWide' : α → Bool} {op : StackOp}
    {stack : List α}
    (same : op.measures = true → ∀ entry ∈ stack.take 3, isWide entry = isWide' entry) :
    op.shuffle isWide stack = op.shuffle isWide' stack := by
  rcases stack with _ | ⟨first, _ | ⟨second, _ | ⟨third, rest⟩⟩⟩ <;> cases op <;>
    simp_all [StackOp.shuffle, measures]

/-- Related stacks are rearranged alike. -/
theorem StackOp.shuffle_related {α : Type} {isWide : α → Bool} {related : α → α → Prop}
    {op : StackOp} {stack stack' other : List α} (isRelated : List.Forall₂ related stack other)
    (same : op.measures = true → ∀ pair ∈ (stack.zip other).take 3,
      isWide pair.1 = isWide pair.2)
    (done : op.shuffle isWide stack = some stack') :
    ∃ other', op.shuffle isWide other = some other' ∧ List.Forall₂ related stack' other' := by
  have height := isRelated.length_eq
  have isFirst : (stack.zip other).map Prod.fst = stack :=
    List.map_fst_zip (Nat.le_of_eq height)
  have isSecond : (stack.zip other).map Prod.snd = other :=
    List.map_snd_zip (Nat.le_of_eq height.symm)
  rw [← isFirst, shuffle_map Prod.fst fun _ => rfl, shuffle_congr same] at done
  rcases Option.map_eq_some_iff.1 done with ⟨pairs, isShuffled, rfl⟩
  refine ⟨pairs.map Prod.snd, ?_, ?_⟩
  · rw [← isSecond, shuffle_map Prod.snd fun _ => rfl, isShuffled]
    rfl
  · rw [List.forall₂_map_left_iff, List.forall₂_map_right_iff, List.forall₂_same]
    intro pair found
    exact List.forall₂_zip isRelated (mem_of_mem_shuffle isShuffled found)

namespace Value

/-- An array of which is known what its elements are. Null is none: what it is merged
with decides about its elements. -/
def HasElements (answers : String → Except OracleError Bool) : Value → Prop
  | .null => False
  | .precise (.array (.object className)) => ∃ capable, answers className = .ok capable
  | _ => True

/-- A constructor call on the receiver finds one copy of it to depend on the call, or
none if the receiver has no value form. -/
def HasOneCopy (site : Site) (leaves : Leaves) (below : Frame) : Value → Prop
  | .capable className sites => leaves.LeavesOne below fun value =>
      value = .capable className sites ∨ site ∈ value.provenance
  | receiver => ∀ className sites, below.stack.head? = some (.capable className sites) →
      ¬ receiver.Covers (.precise (.object className))

theorem HasOneCopy.not_covers {site : Site} {leaves : Leaves} {below : Frame} {receiver : Value}
    (copies : receiver.HasOneCopy site leaves below) (plain : receiver.isCapable = false)
    {className : String} {sites : SiteSet}
    (onTop : below.stack.head? = some (.capable className sites)) :
    ¬ receiver.Covers (.precise (.object className)) := by
  cases receiver with
  | capable => cases plain
  | _ => exact copies className sites onTop

end Value

/-- What the instruction does with the frame does not turn on what an operand is
later merged to. -/
def Instruction.Steady (place : Place) (answers : String → Except OracleError Bool)
    (instruction : Instruction) (before : Frame) : Prop :=
  match instruction with
  | .monitorEnter | .monitorExit =>
      ∀ value, before.stack[0]? = some value → value.isCapable = false
  | .arrayLoad .reference => ∀ array, before.stack[1]? = some array →
      array.HasElements answers ∧ ∀ type, array ≠ .precise (.array (.primitive type))
  | .arrayStore .reference => place.flatArrays = true → ∀ array, before.stack[2]? = some array →
      array.HasElements answers
  | .store .reference _ | .storeShort .reference _ =>
      ∀ value, before.stack[0]? = some value → value ≠ .uninitialized
  | .stack op => op.measures = true → ∀ value ∈ before.stack.take 3, value ≠ .uninitialized
  | .invokeSpecial index => ∀ method type, place.pool.member? index = some method →
      method.name = "<init>" → MethodType.parse? method.descriptor = some type →
        ∀ receiver, before.stack[type.params.length]? = some receiver →
          receiver.HasOneCopy place.site (.ofResult (capability answers) type.result)
            ⟨before.locals, before.stack.drop (type.params.length + 1)⟩
  | _ => True

namespace Transfer

variable {answers : String → Except OracleError Bool} {held : Site → Prop} {place : Place}
  {upper lower : Frame}

/-- Where a rule succeeds on the upper frame it succeeds on the lower one, and leaves
a lower one. Unless it records something on the upper frame its site is held. -/
def LowersOn (answers : String → Except OracleError Bool) (held : Site → Prop) (place : Place)
    (rule : Transfer Unit) (upper lower : Frame) : Prop :=
  ∀ ⦃ended : Unit⦄ ⦃after : Effect⦄, Yields answers rule ⟨upper, []⟩ ended after →
    (recordedPatch? after.edits = none → held place.site) →
      ∃ after', Yields answers rule ⟨lower, []⟩ () after' ∧ after.Above held after'

theorem Lowers.on {rule : Transfer Unit} (lowers : Lowers answers held Eq rule rule)
    (above : upper.Above held lower) : LowersOn answers held place rule upper lower := by
  intro ended after yields _
  rcases lowers above.start yields with ⟨_, after', yields', _, above'⟩
  exact ⟨after', yields', above'⟩

theorem loadFrom_other {value : Value} (notArray : ∀ element, value ≠ .precise (.array element)) :
    loadFrom place value = push .reference := by
  cases value with
  | precise type =>
      cases type with
      | array element => exact absurd rfl (notArray element)
      | _ => rfl
  | _ => rfl

/-- Whether a type is a value-capable class can be told if its class is answered
for. -/
theorem exists_capableClass? {type : FieldType}
    (answered : ∀ className, type = .object className →
      ∃ capable, answers className = .ok capable) :
    ∃ found, ∀ other, Yields answers (capableClass? type) other found other := by
  cases type with
  | object className =>
      rcases answered className rfl with ⟨capable, isAnswer⟩
      refine ⟨if capable then some className else none, fun other => ?_⟩
      refine yields_bind.2 ⟨capable, other, yields_isCapable.2 ⟨isAnswer, rfl⟩, ?_⟩
      cases capable with
      | true => exact yields_pure.2 ⟨rfl, rfl⟩
      | false => exact yields_pure.2 ⟨rfl, rfl⟩
  | primitive => exact ⟨none, fun other => yields_pure.2 ⟨rfl, rfl⟩⟩
  | array => exact ⟨none, fun other => yields_pure.2 ⟨rfl, rfl⟩⟩

theorem exists_valueElement? {array : Value}
    (hasElements : place.flatArrays = true → array.HasElements answers) :
    ∃ found, ∀ other, Yields answers (valueElement? place array) other found other := by
  have missing : ∃ found : Option String, ∀ other, Yields answers (pure none) other found other :=
    ⟨none, fun other => yields_pure.2 ⟨rfl, rfl⟩⟩
  cases array with
  | precise type =>
      cases type with
      | array element =>
          dsimp only [valueElement?]
          split
          · next isFlat =>
              apply exists_capableClass?
              rintro className rfl
              exact hasElements isFlat
          · exact missing
      | _ => exact missing
  | _ => exact missing

namespace Lowers

/-- A question that only the lower rule asks. -/
theorem asked {α β : Type} {related : α → α → Prop} {question : Transfer β} {found : β}
    {upper : Transfer α} {next : β → Transfer α}
    (still : ∀ other, Yields answers question other found other)
    (lowers : Lowers answers held related upper (next found)) :
    Lowers answers held related upper (question >>= next) := by
  intro high low value after above yields
  rcases lowers above yields with ⟨value', after', yields', isRelated, above'⟩
  exact ⟨value', after', yields_bind.2 ⟨found, low, still low, yields'⟩, isRelated, above'⟩

theorem loadFrom (element : FieldType) :
    Lowers answers held Eq (loadFrom place (.precise (.array element)))
      (Transfer.loadFrom place (.precise (.array element))) := by
  refine (capableClass? element).bind ?_
  rintro found _ rfl
  cases found with
  | some className =>
      dsimp only
      split
      · exact (record ..).bind fun _ _ _ => pushSame _
      · exact pushSame _
  | none => exact pushSame _

/-- Loading from an array that only in the lower frame is known to be one. -/
theorem loadFromKnown {element : FieldType}
    (hasElements : (Value.precise (.array element)).HasElements answers)
    (notPrimitive : ∀ type, element ≠ .primitive type) (isHeld : held place.site) :
    Lowers answers held Eq (Transfer.push .reference)
      (Transfer.loadFrom place (.precise (.array element))) := by
  have plain : Value.reference.isCapable = false := rfl
  have covers {value : Value} (isReference : value.asReference.isReference = true)
      (below : ∀ site ∈ value.provenance, held site) : Value.reference.Absorbs held value :=
    Value.absorbs_of_covers plain (.inr (.inr (.inr ⟨rfl, isReference⟩))) below
  have unsited {type : FieldType} : ∀ site ∈ (Value.precise type).provenance, held site :=
    fun site found => absurd found SiteSet.not_mem_empty
  have answered : ∀ className, element = .object className →
      ∃ capable, answers className = .ok capable := by
    rintro className rfl
    exact hasElements
  rcases exists_capableClass? answered with ⟨found, still⟩
  refine .asked still ?_
  rcases yields_capableClass? (still ⟨.empty 0, []⟩) with
    ⟨_, ⟨className, rfl, _⟩ | ⟨rfl, _⟩⟩
  · dsimp only
    split
    · refine .added rfl (push (covers rfl fun site found => ?_))
      rw [SiteSet.mem_singleton.1 found]
      exact isHeld
    · exact push (covers rfl unsited)
  · cases element with
    | primitive type => exact absurd rfl (notPrimitive type)
    | object className => exact push (covers rfl unsited)
    | array element => exact push (covers rfl unsited)

end Lowers

namespace LowersOn

theorem loadLocal (above : upper.Above held lower) (kind : LocalKind) (slot : UInt16) :
    LowersOn answers held place (loadLocal place kind slot) upper lower := by
  by_cases isReference : kind = .reference
  · subst isReference
    rw [loadLocal_reference]
    intro ended after yields quiet
    rcases yields_bind.1 yields with ⟨value, _, got, loaded⟩
    rcases Lowers.getLocal slot above.start got with ⟨value', _, got', absorbs, between⟩
    rcases yields_getLocal.1 got with ⟨_, rfl⟩
    have isHeld (plain : value.isCapable = false) : held place.site := by
      rw [loadContents_plain plain, yields_push] at loaded
      exact quiet (by rw [loaded]; rfl)
    rcases Lowers.loadContents absorbs slot isHeld between loaded with
      ⟨_, after', loaded', _, above'⟩
    exact ⟨after', yields_bind.2 ⟨_, _, got', loaded'⟩, above'⟩
  · have isPush : Transfer.loadLocal place kind slot =
        getLocal place slot >>= fun _ => push kind.value := by
      refine congrArg (getLocal place slot >>= ·) (funext fun value => ?_)
      cases kind with
      | reference => exact absurd rfl isReference
      | _ => rfl
    rw [isPush]
    exact ((Lowers.getLocal slot).bind fun _ _ _ => .pushSame _).on above

theorem storeLocal (above : upper.Above held lower) (kind : LocalKind) (slot : UInt16)
    (usable : kind = .reference →
      ∀ value, upper.stack[0]? = some value → value ≠ .uninitialized) :
    LowersOn answers held place (storeLocal place kind slot) upper lower := by
  by_cases isReference : kind = .reference
  · subst isReference
    rw [storeLocal_reference]
    intro ended after yields quiet
    rcases yields_bind.1 yields with ⟨value, _, popped, stored⟩
    rcases Lowers.pop above.start popped with ⟨value', _, popped', absorbs, between⟩
    rcases yields_pop.1 popped with ⟨rest, isStack, rfl⟩
    have isUsable : value ≠ .uninitialized := usable rfl value (by rw [isStack]; rfl)
    have isHeld (plain : value.isCapable = false) : held place.site := by
      rw [storeContents_plain plain] at stored
      rcases yields_setLocal.1 stored with ⟨_, _, rfl⟩
      exact quiet rfl
    rcases Lowers.storeContents absorbs slot isUsable isHeld between stored with
      ⟨_, after', stored', _, above'⟩
    exact ⟨after', yields_bind.2 ⟨_, _, popped', stored'⟩, above'⟩
  · have isSet : Transfer.storeLocal place kind slot =
        pop place >>= fun _ => setLocal place slot kind.value := by
      refine congrArg (pop place >>= ·) (funext fun value => ?_)
      cases kind with
      | reference => exact absurd rfl isReference
      | _ => rfl
    rw [isSet]
    exact (Lowers.pop.bind fun _ _ _ => .setLocal slot (Value.absorbs_self _) rfl).on above

theorem useMonitor (above : upper.Above held lower)
    (plain : ∀ value, lower.stack[0]? = some value → value.isCapable = false) :
    LowersOn answers held place (useMonitor place) upper lower := by
  intro ended after yields _
  rcases yields_bind.1 yields with ⟨value, between, popped, used⟩
  rcases Lowers.pop above.start popped with ⟨value', between', popped', _, isAbove⟩
  rcases yields_pop.1 popped' with ⟨rest, isStack, rfl⟩
  have isPlain := plain value' (by rw [isStack]; rfl)
  have same : between = after := by
    split at used
    · exact (yields_fail.1 used).elim
    · exact (yields_pure.1 used).2
  subst same
  refine ⟨_, yields_bind.2 ⟨value', _, popped', ?_⟩, isAbove⟩
  rw [if_neg (Bool.eq_false_iff.1 isPlain)]
  exact yields_pure.2 ⟨rfl, rfl⟩

theorem loadElement (above : upper.Above held lower)
    (steady : ∀ array, lower.stack[1]? = some array →
      array.HasElements answers ∧ ∀ type, array ≠ .precise (.array (.primitive type))) :
    LowersOn answers held place (loadElement place) upper lower := by
  rw [loadElement_eq]
  intro ended after yields quiet
  rcases yields_bind.1 yields with ⟨_, _, dropped, yields⟩
  rcases yields_bind.1 yields with ⟨array, _, popped, loaded⟩
  rcases Lowers.pop.discard above.start dropped with ⟨_, between, dropped', _, isBetween⟩
  rcases Lowers.pop isBetween popped with ⟨array', between', popped', absorbs, isAbove⟩
  have atArray : lower.stack[1]? = some array' := by
    rcases yields_discard.1 dropped' with ⟨_, isDropped⟩
    rcases yields_pop.1 isDropped with ⟨_, isStack, rfl⟩
    rcases yields_pop.1 popped' with ⟨_, isRest, _⟩
    dsimp only at isStack isRest
    rw [isStack, isRest]
    rfl
  rcases steady array' atArray with ⟨hasElements, notPrimitive⟩
  suffices lowers : Lowers answers held Eq (loadFrom place array) (loadFrom place array') by
    rcases lowers isAbove loaded with ⟨_, after', loaded', _, above'⟩
    exact ⟨after', yields_bind.2 ⟨_, _, dropped', yields_bind.2 ⟨_, _, popped', loaded'⟩⟩, above'⟩
  by_cases isArray : ∃ element, array = .precise (.array element)
  · rcases isArray with ⟨element, rfl⟩
    have isSome : array' ≠ .null := fun isNull => by
      rw [isNull] at hasElements
      exact hasElements
    rw [absorbs.eq_of_array isSome]
    exact .loadFrom element
  · have notArray (element : FieldType) : array ≠ .precise (.array element) :=
      fun same => isArray ⟨element, same⟩
    rw [loadFrom_other notArray] at loaded ⊢
    by_cases isArray' : ∃ element, array' = .precise (.array element)
    · rcases isArray' with ⟨element, rfl⟩
      refine .loadFromKnown hasElements (fun type same => notPrimitive type (by rw [same])) ?_
      apply quiet
      rcases yields_discard.1 dropped with ⟨_, isDropped⟩
      rcases yields_pop.1 isDropped with ⟨_, _, rfl⟩
      rcases yields_pop.1 popped with ⟨_, _, rfl⟩
      rw [yields_push.1 loaded]
      rfl
    · rw [loadFrom_other fun element same => isArray' ⟨element, same⟩]
      exact .pushSame _

theorem storeElement (above : upper.Above held lower)
    (steady : place.flatArrays = true → ∀ array, lower.stack[2]? = some array →
      array.HasElements answers) :
    LowersOn answers held place (storeElement place) upper lower := by
  rw [storeElement_eq]
  intro ended after yields quiet
  rcases yields_bind.1 yields with ⟨value, _, popped, yields⟩
  rcases yields_bind.1 yields with ⟨_, _, dropped, yields⟩
  rcases yields_bind.1 yields with ⟨array, _, reached, yields⟩
  rcases yields_bind.1 yields with ⟨element?, _, asked, stored⟩
  rcases Lowers.pop above.start popped with ⟨value', _, popped', absorbs, first⟩
  rcases Lowers.pop.discard first dropped with ⟨_, _, dropped', _, second⟩
  rcases Lowers.pop second reached with ⟨array', between', reached', absorbs', third⟩
  have atArray : lower.stack[2]? = some array' := by
    rcases yields_pop.1 popped' with ⟨_, isStack, rfl⟩
    rcases yields_discard.1 dropped' with ⟨_, isDropped⟩
    rcases yields_pop.1 isDropped with ⟨_, isStack', rfl⟩
    rcases yields_pop.1 reached' with ⟨_, isRest, _⟩
    dsimp only at isStack isStack' isRest
    rw [isStack, isStack', isRest]
    rfl
  have hasElements := fun isFlat => steady isFlat array' atArray
  rcases exists_valueElement? hasElements with ⟨element?', asked'⟩
  rcases Instruction.valueElement?_spec asked with ⟨rfl, isElement⟩
  suffices lowers :
      Lowers answers held Eq (storeInto element? value) (storeInto element?' value') by
    rcases lowers third stored with ⟨_, after', stored', _, above'⟩
    exact ⟨after', yields_bind.2 ⟨_, _, popped', yields_bind.2 ⟨_, _, dropped',
      yields_bind.2 ⟨_, _, reached', yields_bind.2 ⟨_, _, asked' _, stored'⟩⟩⟩⟩, above'⟩
  cases element? with
  | some element =>
      -- The array is one of values in the upper frame, so it is the same in the lower one.
      rcases isElement element rfl with ⟨rfl, isFlat, answered⟩
      have isSome : array' ≠ .null := fun isNull => by
        have known := hasElements isFlat
        rw [isNull] at known
        exact known
      rw [absorbs'.eq_of_array isSome] at asked'
      have same : element?' = some element :=
        (Prod.mk.inj (Except.ok.inj ((asked' _).symm.trans asked))).1
      rw [same]
      exact .storeInto absorbs element
  | none =>
      cases element?' with
      | some element => exact .storeIntoKnown absorbs element
      | none => exact .requireReference absorbs

theorem shuffle (above : upper.Above held lower) (op : StackOp)
    (usable : op.measures = true → ∀ value ∈ upper.stack.take 3, value ≠ .uninitialized) :
    LowersOn answers held place (shuffle place op) upper lower := by
  intro ended after yields _
  rcases yields_shuffle.1 yields with ⟨stack, done, rfl⟩
  have same : op.measures = true → ∀ pair ∈ (upper.stack.zip lower.stack).take 3,
      pair.1.isWide = pair.2.isWide := by
    intro measures pair found
    have absorbs := List.forall₂_zip above.stack (List.mem_of_mem_take found)
    rw [List.zip, List.take_zipWith] at found
    have isUsable := usable measures pair.1 (List.of_mem_zip found).1
    rw [Value.isWide, Value.isWide, absorbs.size_eq isUsable]
  rcases StackOp.shuffle_related above.stack same done with ⟨stack', done', related⟩
  exact ⟨_, yields_shuffle.2 ⟨stack', done', rfl⟩, above.withStack related, .nil⟩

end LowersOn

end Transfer

/-! ## Constructor calls -/

namespace Frame

variable {held : Site → Prop} {site : Site} {className : String} {sites : SiteSet}

/-- What depends on a call that it did not depend on before was a copy. -/
theorem addSiteTo_of_ne {value entry : Value} (different : entry ≠ value) :
    addSiteTo value site entry = entry :=
  if_neg different

theorem addSiteTo_capable (value : Value) (site : Site) (className : String) (sites : SiteSet) :
    ∃ more, addSiteTo value site (.capable className sites) = .capable className more ∧
      (∀ other ∈ sites, other ∈ more) ∧ ∀ other ∈ more, other = site ∨ other ∈ sites := by
  unfold addSiteTo
  split
  · exact ⟨sites.insert site, rfl, fun other found => SiteSet.mem_insert.2 (.inr found),
      fun other found => SiteSet.mem_insert.1 found⟩
  · exact ⟨sites, rfl, fun other found => found, fun other found => .inr found⟩

/-- Without copies nothing comes to depend on the call. -/
theorem addSite_of_nowhere {frame : Frame}
    (nowhere : frame.Nowhere fun value => value = .capable className sites ∨
      site ∈ value.provenance) : frame.addSite (.capable className sites) site = frame := by
  have kept (entry : Value) (holds : frame.Holds entry) :
      addSiteTo (.capable className sites) site entry = entry :=
    addSiteTo_of_ne fun same => nowhere entry holds (.inl same)
  rw [addSite_eq, Array.map_congr_left fun entry found => kept entry (.inl found),
    List.map_congr_left fun entry found => kept entry (.inr found)]
  simp

/-- With one copy, on top, that one comes to depend on the call. -/
theorem addSite_of_onTop {frame : Frame} {top : Value} {rest : List Value}
    (isStack : frame.stack = top :: rest)
    (notBelow : ∀ value ∈ rest, ¬ (value = .capable className sites ∨ site ∈ value.provenance))
    (notLocal : ∀ value ∈ frame.locals,
      ¬ (value = .capable className sites ∨ site ∈ value.provenance)) :
    frame.addSite (.capable className sites) site =
      ⟨frame.locals, addSiteTo (.capable className sites) site top :: rest⟩ := by
  rw [addSite_eq, isStack, List.map_cons,
    Array.map_congr_left fun entry found =>
      addSiteTo_of_ne fun same => notLocal entry found (.inl same),
    List.map_congr_left fun entry found =>
      addSiteTo_of_ne fun same => notBelow entry found (.inl same)]
  simp

/-- A copy still absorbs what it absorbed when both depend on the call. -/
theorem addSiteTo_absorbs {value entry entry' : Value} (absorbs : entry.Absorbs held entry')
    (isCopy : entry = .capable className sites ∨ site ∈ entry.provenance) :
    (addSiteTo (.capable className sites) site entry).Absorbs held
      (addSiteTo value site entry') := by
  have depends := mem_provenance_addSiteTo.2 isCopy
  rcases Value.absorbs_iff.1 absorbs with
    ⟨name, wider, fewer, rfl, rfl, contained⟩ | ⟨plain, _⟩
  · rcases addSiteTo_capable (.capable className sites) site name wider with
      ⟨more, isMore, kept, _⟩
    rcases addSiteTo_capable value site name fewer with ⟨more', isMore', _, within⟩
    rw [isMore] at depends
    rw [isMore, isMore']
    refine Value.absorbs_capable fun other found => ?_
    rcases within other found with rfl | found
    · exact depends
    · exact kept other (contained other found)
  · rcases isCopy with rfl | depends
    · cases plain
    · rw [Value.provenance_of_not_capable plain] at depends
      exact absurd depends SiteSet.not_mem_empty

end Frame

theorem Leaves.eq_void_of_ofResult {capable : String → Bool} {type : FieldType}
    (isNothing : ofResult capable type = .nothing) : type = .void := by
  unfold ofResult at isNothing
  split at isNothing
  · assumption
  · unfold ofType at isNothing
    split at isNothing
    · split at isNothing <;> cases isNothing
    · exact absurd isNothing (ofValue_ne_nothing _)

namespace Transfer

variable {answers : String → Except OracleError Bool} {held : Site → Prop} {place : Place}
  {upper lower : Frame}

/-- A constructor call on receivers that both have a value form. -/
theorem above_addSite {className : String} {sites sites' : SiteSet} {leaves : Leaves}
    (above : upper.Above held lower)
    (copies : (Value.capable className sites).HasOneCopy place.site leaves upper)
    (copies' : (Value.capable className sites').HasOneCopy place.site leaves lower) :
    (upper.addSite (.capable className sites) place.site).Above held
      (lower.addSite (.capable className sites') place.site) := by
  cases leaves with
  | nothing =>
      rcases copies with ⟨top, rest, isStack, isCopy, notBelow, notLocal⟩
      rcases copies' with ⟨top', rest', isStack', _, notBelow', notLocal'⟩
      have related := above.stack
      rw [isStack, isStack'] at related
      rcases List.forall₂_cons.1 related with ⟨absorbs, below⟩
      rw [Frame.addSite_of_onTop isStack notBelow notLocal,
        Frame.addSite_of_onTop isStack' notBelow' notLocal']
      exact above.withStack (.cons (Frame.addSiteTo_absorbs absorbs isCopy) below)
  | reference | plain => exact copies.elim
  | capable =>
      rw [Frame.addSite_of_nowhere copies, Frame.addSite_of_nowhere copies']
      exact above

/-- A constructor call on receivers of which only the lower one has a value form. -/
theorem above_addSite_lower {receiver : Value} {className : String} {sites : SiteSet}
    {leaves : Leaves} (above : upper.Above held lower) (plain : receiver.isCapable = false)
    (absorbs : receiver.Absorbs held (.capable className sites))
    (copies : receiver.HasOneCopy place.site leaves upper)
    (copies' : (Value.capable className sites).HasOneCopy place.site leaves lower)
    (isHeld : leaves = .nothing → held place.site) :
    upper.Above held (lower.addSite (.capable className sites) place.site) := by
  cases leaves with
  | nothing =>
      rcases copies' with ⟨top', rest', isStack', _, notBelow', notLocal'⟩
      have related := above.stack
      rw [isStack'] at related
      rcases List.forall₂_cons_right_iff.1 related with ⟨top, rest, absorbs', below, isStack⟩
      rw [Frame.addSite_of_onTop isStack' notBelow' notLocal']
      have isAbove : top.Absorbs held
          (Frame.addSiteTo (.capable className sites) place.site top') := by
        by_cases isCopy : top' = .capable className sites
        · subst isCopy
          rcases Value.absorbs_iff.1 absorbs' with
            ⟨_, wider, _, rfl, ⟨⟩, _⟩ | ⟨isPlain, covers, below⟩
          · -- The receiver would have been merged with an instance that kept its form.
            rcases Value.absorbs_iff.1 absorbs with ⟨_, _, _, rfl, _⟩ | ⟨_, covers, _⟩
            · cases plain
            · exact absurd covers (copies.not_covers plain (by rw [isStack]; rfl))
          · rcases Frame.addSiteTo_capable (.capable className sites) place.site className
              sites with ⟨more, isMore, _, within⟩
            rw [isMore]
            refine Value.absorbs_of_covers isPlain covers fun other found => ?_
            rcases within other found with rfl | found
            · exact isHeld rfl
            · exact below other found
        · rw [Frame.addSiteTo_of_ne isCopy]
          exact absorbs'
      refine ⟨above.size, above.locals, ?_⟩
      rw [isStack]
      exact .cons isAbove below
  | reference | plain => exact copies'.elim
  | capable =>
      rw [Frame.addSite_of_nowhere copies']
      exact above

theorem construct_plain {receiver : Value} (plain : receiver.isCapable = false) :
    construct place receiver = pure () := by
  cases receiver with
  | capable => cases plain
  | _ => rfl

/-- The end of a constructor call, when its operands have been taken. -/
theorem lowers_construct {high low after : Effect} {receiver receiver' : Value} {ended : Unit}
    {type : FieldType} (above : high.Above held low) (absorbs : receiver.Absorbs held receiver')
    (copies : receiver.HasOneCopy place.site (.ofResult (capability answers) type) high.frame)
    (copies' : receiver'.HasOneCopy place.site (.ofResult (capability answers) type) low.frame)
    (unset : recordedPatch? high.edits = none)
    (yields : Yields answers (construct place receiver >>= fun _ => pushResult place type) high
      ended after)
    (quiet : recordedPatch? after.edits = none → held place.site) :
    ∃ after', Yields answers (construct place receiver' >>= fun _ => pushResult place type) low ()
      after' ∧ after.Above held after' := by
  rcases yields_bind.1 yields with ⟨_, between, constructed, pushed⟩
  suffices isBetween : ∃ between', Yields answers (construct place receiver') low () between' ∧
      between.Above held between' by
    rcases isBetween with ⟨between', constructed', isAbove⟩
    rcases Lowers.pushResult type isAbove pushed with ⟨_, after', pushed', _, above'⟩
    exact ⟨after', yields_bind.2 ⟨(), between', constructed', pushed'⟩, above'⟩
  rcases Value.absorbs_iff.1 absorbs with
    ⟨className, sites, sites', rfl, rfl, _⟩ | ⟨plain, _⟩
  · simp only [construct, yields_bind, yields_record, yields_modify] at constructed ⊢
    rcases constructed with ⟨_, _, rfl, rfl⟩
    exact ⟨_, ⟨(), _, rfl, rfl⟩, above_addSite above.frame copies copies',
      above.edits.append (.record _ rfl)⟩
  · rw [construct_plain plain, yields_pure] at constructed
    rcases constructed with ⟨_, rfl⟩
    cases capability' : receiver'.isCapable with
    | false =>
        rw [construct_plain capability']
        exact ⟨low, yields_pure.2 ⟨rfl, rfl⟩, above⟩
    | true =>
        cases receiver' with
        | capable className sites =>
            have isHeld (isNothing : Leaves.ofResult (capability answers) type = .nothing) :
                held place.site := by
              apply quiet
              rw [pushResult, if_pos (Leaves.eq_void_of_ofResult isNothing), yields_pure] at pushed
              rw [← pushed.2]
              exact unset
            let patch : Patch := { action := .keep, left := .object, className }
            have bounded : (Edit.record patch).Bounded held [] := rfl
            have edits := above.edits.append (.added bounded)
            rw [List.append_nil] at edits
            simp only [construct, yields_bind, yields_record, yields_modify]
            exact ⟨_, ⟨(), _, rfl, rfl⟩,
              above_addSite_lower above.frame plain absorbs copies copies' isHeld, edits⟩
        | _ => cases capability'

/-- What is left once the operands of a call are taken off the stack. -/
theorem operands_taken {frame : Frame} {count : Nat} {arguments : List Value} {receiver : Value}
    {first second third fourth : Effect} {ended ended' : Unit}
    (popped : Yields answers (popMany place count) ⟨frame, []⟩ arguments first)
    (reached : Yields answers (pop place) first receiver second)
    (required : Yields answers (requireReference receiver) second ended third)
    (requiredAll : Yields answers (arguments.forM requireReference) third ended' fourth) :
    frame.stack[count]? = some receiver ∧
      fourth.frame = ⟨frame.locals, frame.stack.drop (count + 1)⟩ ∧
      recordedPatch? fourth.edits = none := by
  rcases yields_popMany.1 popped with ⟨rest, isStack, length, rfl⟩
  rcases yields_pop.1 reached with ⟨below, isRest, rfl⟩
  rw [yields_requireReference] at required
  rw [yields_forM_requireReference] at requiredAll
  subst required requiredAll length
  dsimp only at isStack isRest
  subst isRest
  rw [isStack, ← List.length_reverse]
  refine ⟨?_, ?_, recordedPatch?_eq_none fun change found => ?_⟩
  · rw [List.getElem?_append_right (Nat.le_refl _), Nat.sub_self]
    rfl
  · rw [List.drop_length_add_append]
    rfl
  · simp only [List.nil_append, List.mem_append, List.mem_flatMap] at found
    rcases found with found | ⟨argument, _, found⟩
    · rcases receiver.eq_of_mem_forces found with ⟨_, _, _, rfl⟩
      rfl
    · rcases argument.eq_of_mem_forces found with ⟨_, _, _, rfl⟩
      rfl

/-- A call of a constructor. -/
theorem LowersOn.invokeConstructor {descriptor : String} (above : upper.Above held lower)
    (copies : ∀ type, MethodType.parse? descriptor = some type →
      ∀ receiver, upper.stack[type.params.length]? = some receiver →
        receiver.HasOneCopy place.site (.ofResult (capability answers) type.result)
          ⟨upper.locals, upper.stack.drop (type.params.length + 1)⟩)
    (copies' : ∀ type, MethodType.parse? descriptor = some type →
      ∀ receiver, lower.stack[type.params.length]? = some receiver →
        receiver.HasOneCopy place.site (.ofResult (capability answers) type.result)
          ⟨lower.locals, lower.stack.drop (type.params.length + 1)⟩) :
    LowersOn answers held place (invoke place descriptor true true) upper lower := by
  intro ended after yields quiet
  rcases yields_bind.1 yields with ⟨type, _, isTyped, yields⟩
  rcases yields_require.1 isTyped with ⟨typed, rfl⟩
  rcases yields_bind.1 yields with ⟨arguments, _, popped, yields⟩
  rcases yields_bind.1 yields with ⟨receiver, _, reached, yields⟩
  rcases yields_bind.1 yields with ⟨_, _, required, yields⟩
  rcases yields_bind.1 yields with ⟨_, _, requiredAll, yields⟩
  rcases Lowers.popMany _ above.start popped with ⟨arguments', _, popped', absorb, first⟩
  rcases Lowers.pop first reached with ⟨receiver', _, reached', absorbs, second⟩
  rcases Lowers.requireReference absorbs second required with ⟨_, _, required', _, third⟩
  rcases Lowers.requireAll absorb third requiredAll with ⟨_, _, requiredAll', _, fourth⟩
  rcases operands_taken popped reached required requiredAll with ⟨atReceiver, isFrame, unset⟩
  rcases operands_taken popped' reached' required' requiredAll' with ⟨atReceiver', isFrame', _⟩
  have oneCopy := copies type typed receiver atReceiver
  have oneCopy' := copies' type typed receiver' atReceiver'
  rw [← isFrame] at oneCopy
  rw [← isFrame'] at oneCopy'
  rcases lowers_construct fourth absorbs oneCopy oneCopy' unset yields quiet with
    ⟨after', yields', above'⟩
  exact ⟨after', yields_bind.2 ⟨type, _, yields_require.2 ⟨typed, rfl⟩,
    yields_bind.2 ⟨_, _, popped', yields_bind.2 ⟨_, _, reached', yields_bind.2 ⟨_, _, required',
      yields_bind.2 ⟨_, _, requiredAll', yields'⟩⟩⟩⟩⟩, above'⟩

/-- A call of a method that a constant names. -/
theorem LowersOn.invokeMember (above : upper.Above held lower) (index : UInt16)
    (hasReceiver isSpecial : Bool) (receives : isSpecial = true → hasReceiver = true)
    (steady : isSpecial = true → (Instruction.invokeSpecial index).Steady place answers upper)
    (steady' : isSpecial = true → (Instruction.invokeSpecial index).Steady place answers lower) :
    LowersOn answers held place (invokeMember place index hasReceiver isSpecial) upper lower := by
  intro ended after yields quiet
  rcases yields_bind.1 yields with ⟨method, _, found, invoked⟩
  rcases yields_memberOperand.1 found with ⟨member, rfl⟩
  have lowers : LowersOn answers held place
      (invoke place method.descriptor hasReceiver (isSpecial && method.name == "<init>")) upper
        lower := by
    cases isConstructor : isSpecial && method.name == "<init>" with
    | true =>
        rw [Bool.and_eq_true, beq_iff_eq] at isConstructor
        rw [receives isConstructor.1]
        exact .invokeConstructor above
          (fun type => steady isConstructor.1 method type member isConstructor.2)
          (fun type => steady' isConstructor.1 method type member isConstructor.2)
    | false => exact (Lowers.invoke _ _).on above
  rcases lowers invoked quiet with ⟨after', invoked', above'⟩
  exact ⟨after', yields_bind.2 ⟨method, _, yields_memberOperand.2 ⟨member, rfl⟩, invoked'⟩, above'⟩

end Transfer

namespace Instruction

variable {answers : String → Except OracleError Bool} {held : Site → Prop} {place : Place}
  {instruction : Instruction} {upper lower : Frame}

open Transfer

theorem rule_lowers (above : upper.Above held lower)
    (steady : instruction.Steady place answers upper)
    (steady' : instruction.Steady place answers lower) :
    LowersOn answers held place (instruction.rule place) upper lower := by
  cases instruction with
  | nop | goto | gotoWide | ret => exact (Lowers.pure rfl).on above
  | const | bipush | sipush | jsr | jsrWide => exact (Lowers.pushSame _).on above
  | ldc | ldcWide | ldc2 =>
      refine ((Lowers.constantValue _).bind ?_).on above
      rintro value _ rfl
      exact .pushSame value
  | load kind slot | loadShort kind slot => exact .loadLocal above _ _
  | store kind slot | storeShort kind slot =>
      refine .storeLocal above _ _ ?_
      rintro rfl
      exact steady
  | arrayLoad kind =>
      cases kind with
      | reference => exact .loadElement above steady'
      | _ => exact (Lowers.replace 2 _).on above
  | arrayStore kind =>
      cases kind with
      | reference => exact .storeElement above steady'
      | _ => exact (Lowers.popMany 3).discard.on above
  | stack op => exact .shuffle above op steady
  | binary | bitwise | compare => exact (Lowers.replace 2 _).on above
  | negate | convert | newArray | arrayLength => exact (Lowers.replace 1 _).on above
  | increment | incrementWide => exact (Lowers.setLocal _ (Value.absorbs_self _) rfl).on above
  | branch condition => exact (Lowers.test condition).on above
  | tableSwitch | lookupSwitch => exact Lowers.pop.discard.on above
  | leave kind => exact (Lowers.giveBack kind).on above
  | getStatic index => exact (Lowers.readStatic index).on above
  | getField index => exact (Lowers.readField index).on above
  | putStatic | athrow => exact Lowers.popReference.on above
  | putField => exact (Lowers.popReferences 2).on above
  | invokeVirtual | invokeInterface | invokeStatic =>
      exact .invokeMember above _ _ _ (by simp) (by simp) (by simp)
  | invokeSpecial index =>
      exact .invokeMember above _ _ _ (fun _ => rfl) (fun _ => steady) fun _ => steady'
  | invokeDynamic index =>
      refine ((Lowers.require _ _).bind ?_).on above
      rintro ⟨name, descriptor⟩ _ rfl
      exact .invoke descriptor false
  | new index => exact (Lowers.allocate index).on above
  | newReferenceArray index => exact (Lowers.createArray index).on above
  | newMultiArray index dimensions =>
      refine ((Lowers.popMany _).discard.bind fun _ _ _ =>
        (Lowers.namedType index).bind ?_).on above
      rintro type _ rfl
      exact .pushSame _
  | checkCast index => exact (Lowers.cast index).on above
  | instanceOf =>
      exact (Lowers.pop.bind fun _ _ absorbs => (Lowers.requireReference absorbs).bind
        fun _ _ _ => .pushSame _).on above
  | monitorEnter | monitorExit => exact .useMonitor above steady'
  | valueLoad | valueStore | valueArrayLoad | valueArrayStore | box | unbox =>
      intro ended after yields
      exact (yields_fail.1 yields).elim

/-- What an instruction does on a lower frame is below what it does on the upper one,
if both are steady. -/
theorem transfer_lowers {effect : Effect} (above : upper.Above held lower)
    (steady : instruction.Steady place answers upper)
    (steady' : instruction.Steady place answers lower)
    (transferred : (instruction.transfer place upper).eval answers = .ok effect)
    (quiet : recordedPatch? effect.edits = none → held place.site) :
    ∃ effect', (instruction.transfer place lower).eval answers = .ok effect' ∧
      effect.Above held effect' := by
  rcases Inquiry.eval_bind_eq_ok_iff.1 transferred with ⟨⟨ended, after⟩, ran, last⟩
  obtain rfl := Inquiry.eval_pure_eq_ok_iff.1 last
  rcases rule_lowers above steady steady' ran quiet with ⟨after', ran', above'⟩
  exact ⟨after',
    Inquiry.eval_bind_eq_ok_iff.2 ⟨((), after'), ran', Inquiry.eval_pure_eq_ok_iff.2 rfl⟩, above'⟩

end Instruction

end ValueForm
