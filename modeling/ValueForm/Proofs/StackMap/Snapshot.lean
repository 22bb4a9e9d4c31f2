import ValueForm.StackMap.Snapshot
import ValueForm.Proofs.StackMap.Frame

/-!
# Snapshots folded and unfolded

Folding snapshots into a table loses nothing. Whatever shape a frame takes, it
describes the types it was chosen for, behind the locals of the frame before it,
so unfolding the table gives the snapshots back: in the order of their addresses,
one for each, the one that was recorded last. `Snapshot.IsLatest` says which that
is without regard to how snapshots are kept.
-/

namespace ValueForm

/-! ## Shapes -/

namespace StackMapFrame

/-- The frame stands for some types at a distance from the frame before it, whose
locals are `previous`. -/
structure Describes (frame : StackMapFrame) (previous : List VerificationType)
    (types : FrameTypes) (delta : UInt16) : Prop where
  isTypes : frame.types previous = types
  isDelta : frame.delta = delta
  fits : types.locals.length ≤ 65535 → types.stack.length ≤ 65535 → frame.Fits

theorem describes_full (previous locals stack : List VerificationType) (delta : UInt16) :
    (full delta locals stack).Describes previous ⟨locals, stack⟩ delta :=
  ⟨rfl, rfl, fun few few' => ⟨few, few'⟩⟩

/-- A frame that leaves out the last locals. -/
theorem describes_chop (locals more : List VerificationType) (extra : Fin 3)
    (isExtra : more.length = extra.val + 1) (delta : UInt16) :
    (chop extra delta).Describes (locals ++ more) ⟨locals, []⟩ delta := by
  refine ⟨?_, rfl, fun _ _ => trivial⟩
  simp [types, isExtra]

/-- A frame that adds locals. -/
theorem describes_append (previous more : List VerificationType) (some : more ≠ [])
    (few : more.length ≤ 3) (delta : UInt16) :
    (append delta more).Describes previous ⟨previous ++ more, []⟩ delta :=
  ⟨rfl, rfl, fun _ _ => ⟨List.length_pos_of_ne_nil some, few⟩⟩

theorem describes_same (previous : List VerificationType) (delta : UInt16)
    (small : delta.toNat < 64) :
    (same ⟨delta.toNat, small⟩).Describes previous ⟨previous, []⟩ delta :=
  ⟨rfl, UInt16.ofNat_toNat, fun _ _ => trivial⟩

theorem describes_sameItem (previous : List VerificationType) (item : VerificationType)
    (delta : UInt16) (small : delta.toNat < 64) :
    (sameItem ⟨delta.toNat, small⟩ item).Describes previous ⟨previous, [item]⟩ delta :=
  ⟨rfl, UInt16.ofNat_toNat, fun _ _ => trivial⟩

/-- The shape that is chosen for some types describes them. -/
theorem describes_shortest (previous : List VerificationType) (types : FrameTypes)
    (delta : UInt16) : (shortest previous types delta).Describes previous types delta := by
  rcases types with ⟨locals, stack⟩
  unfold shortest
  dsimp only
  split
  · -- An empty stack: the locals decide.
    split
    · next isSame =>
        subst isSame
        split
        · next small => exact describes_same _ _ small
        · exact ⟨rfl, rfl, fun _ _ => trivial⟩
    · next isOther =>
        split
        · next isLonger =>
            rcases isLonger with ⟨extends?, few⟩
            rcases List.isPrefixOf_iff_prefix.1 extends? with ⟨more, rfl⟩
            rw [List.drop_left]
            refine describes_append previous more ?_ ?_ delta
            · rintro rfl
              exact isOther (List.append_nil _)
            · rw [List.length_append] at few
              omega
        · split
          · next isShorter =>
              rcases List.isPrefixOf_iff_prefix.1 isShorter with ⟨more, rfl⟩
              have count : (locals ++ more).length - locals.length = more.length := by
                rw [List.length_append]
                omega
              rw [count]
              split
              · next isOne => exact describes_chop locals more 0 isOne delta
              · next isTwo => exact describes_chop locals more 1 isTwo delta
              · next isThree => exact describes_chop locals more 2 isThree delta
              · exact describes_full _ locals [] delta
          · exact describes_full previous locals [] delta
  · next item =>
      split
      · next isSame =>
          subst isSame
          split
          · next small => exact describes_sameItem _ _ _ small
          · exact ⟨rfl, rfl, fun _ _ => trivial⟩
      · exact describes_full previous locals [item] delta
  · exact describes_full previous locals stack delta

/-! ## Unfolding what was folded -/

theorem expandFrom_eq_append (next : Nat) (previous : List VerificationType)
    (done : List Snapshot) (table : List StackMapFrame) :
    expandFrom next previous done table = done.reverse ++ expandFrom next previous [] table := by
  induction table generalizing next previous done with
  | nil => simp [expandFrom]
  | cons frame rest ih =>
      rw [expandFrom, expandFrom, ih, ih _ _ [_]]
      simp

theorem expandFrom_cons (next : Nat) (previous : List VerificationType) (frame : StackMapFrame)
    (rest : List StackMapFrame) :
    expandFrom next previous [] (frame :: rest) =
      ⟨next + frame.delta.toNat, frame.types previous⟩ ::
        expandFrom (next + frame.delta.toNat + 1) (frame.types previous).locals [] rest :=
  expandFrom_eq_append _ _ [_] rest

/-- Snapshots are unfolded from an address on, each behind the one before it. -/
theorem pairwise_expandFrom (next : Nat) (previous : List VerificationType)
    (table : List StackMapFrame) :
    (∀ snapshot ∈ expandFrom next previous [] table, next ≤ snapshot.address) ∧
      (expandFrom next previous [] table).Pairwise
        fun first second => first.address < second.address := by
  induction table generalizing next previous with
  | nil => exact ⟨fun _ found => (List.not_mem_nil found).elim, .nil⟩
  | cons frame rest ih =>
      rcases ih (next + frame.delta.toNat + 1) (frame.types previous).locals with ⟨above, sorted⟩
      rw [expandFrom_cons, List.forall_mem_cons, List.pairwise_cons]
      refine ⟨⟨Nat.le_add_right _ _, fun snapshot found => ?_⟩, above, sorted⟩
      have isAbove := above snapshot found
      omega

theorem pairwise_expand (initial : List VerificationType) (table : List StackMapFrame) :
    (expand initial table).Pairwise fun first second => first.address < second.address :=
  (pairwise_expandFrom 0 initial table).2

end StackMapFrame

namespace SnapshotSet

open StackMapFrame

theorem encodeFrom_eq_append (next : Nat) (previous : List VerificationType)
    (done : List StackMapFrame) (snapshots : List (Nat × FrameTypes)) :
    encodeFrom next previous done snapshots =
      done.reverse ++ encodeFrom next previous [] snapshots := by
  induction snapshots generalizing next previous done with
  | nil => simp [encodeFrom]
  | cons snapshot rest ih =>
      rw [encodeFrom, encodeFrom, ih, ih _ _ [_]]
      simp

theorem encodeFrom_cons (next : Nat) (previous : List VerificationType) (address : Nat)
    (types : FrameTypes) (rest : List (Nat × FrameTypes)) :
    encodeFrom next previous [] ((address, types) :: rest) =
      shortest previous types (UInt16.ofNat (address - next)) ::
        encodeFrom (address + 1) types.locals [] rest :=
  encodeFrom_eq_append _ _ [_] rest

/-- Unfolding a table gives the snapshots that were folded into it. -/
theorem expandFrom_encodeFrom {next : Nat} (previous : List VerificationType)
    {snapshots : List (Nat × FrameTypes)}
    (sorted : snapshots.Pairwise fun first second => first.1 < second.1)
    (above : ∀ snapshot ∈ snapshots, next ≤ snapshot.1)
    (bounded : ∀ snapshot ∈ snapshots, snapshot.1 ≤ 65535) :
    expandFrom next previous [] (encodeFrom next previous [] snapshots) =
      snapshots.map fun snapshot => ⟨snapshot.1, snapshot.2⟩ := by
  induction snapshots generalizing next previous with
  | nil => rfl
  | cons snapshot rest ih =>
      rcases snapshot with ⟨address, types⟩
      rcases List.pairwise_cons.1 sorted with ⟨before, sortedRest⟩
      have isAbove := above _ List.mem_cons_self
      have isBounded := bounded _ List.mem_cons_self
      have describes := describes_shortest previous types (UInt16.ofNat (address - next))
      have distance : (UInt16.ofNat (address - next)).toNat = address - next :=
        UInt16.toNat_ofNat_of_lt' (by simp [UInt16.size]; omega)
      have isAddress : next + (address - next) = address := Nat.add_sub_of_le isAbove
      rw [encodeFrom_cons, expandFrom_cons, describes.isDelta, describes.isTypes, distance,
        isAddress, ih types.locals sortedRest (fun other found => before other found)
          (fun other found => bounded other (List.mem_cons_of_mem _ found)), List.map_cons]

@[simp]
theorem length_encodeFrom (next : Nat) (previous : List VerificationType)
    (snapshots : List (Nat × FrameTypes)) :
    (encodeFrom next previous [] snapshots).length = snapshots.length := by
  induction snapshots generalizing next previous with
  | nil => rfl
  | cons snapshot rest ih => rw [encodeFrom_cons, List.length_cons, ih, List.length_cons]

/-- The frames of a table fit if the types in it can be counted. -/
theorem fits_of_mem_encodeFrom {next : Nat} {previous : List VerificationType}
    {snapshots : List (Nat × FrameTypes)}
    (few : ∀ snapshot ∈ snapshots,
      snapshot.2.locals.length ≤ 65535 ∧ snapshot.2.stack.length ≤ 65535) :
    ∀ frame ∈ encodeFrom next previous [] snapshots, frame.Fits := by
  induction snapshots generalizing next previous with
  | nil => exact fun frame found => (List.not_mem_nil found).elim
  | cons snapshot rest ih =>
      rcases List.forall_mem_cons.1 few with ⟨here, others⟩
      rw [encodeFrom_cons, List.forall_mem_cons]
      exact ⟨(describes_shortest _ _ _).fits here.1 here.2, ih others⟩

end SnapshotSet

/-! ## Records -/

/-- The snapshot was recorded, and none at its address was recorded after it. -/
def Snapshot.IsLatest (snapshot : Snapshot) (records : List Snapshot) : Prop :=
  ∃ earlier later, records = earlier ++ snapshot :: later ∧
    ∀ other ∈ later, other.address ≠ snapshot.address

namespace Snapshot

theorem not_isLatest_nil (snapshot : Snapshot) : ¬snapshot.IsLatest [] := by
  rintro ⟨earlier, later, isEmpty, _⟩
  simp at isEmpty

theorem isLatest_append_singleton {snapshot last : Snapshot} {records : List Snapshot} :
    snapshot.IsLatest (records ++ [last]) ↔
      snapshot = last ∨ last.address ≠ snapshot.address ∧ snapshot.IsLatest records := by
  constructor
  · rintro ⟨earlier, later, isRecords, isLast⟩
    cases later using List.reverseRecOn with
    | nil =>
        cases (List.append_inj' isRecords rfl).2
        exact .inl rfl
    | append_singleton later other =>
        rw [← List.cons_append, ← List.append_assoc] at isRecords
        rcases List.append_inj' isRecords rfl with ⟨rfl, ⟨⟩⟩
        exact .inr ⟨isLast _ List.mem_concat_self, earlier, later, rfl,
          fun other found => isLast other (List.mem_append_left _ found)⟩
  · rintro (rfl | ⟨isOther, earlier, later, rfl, isLast⟩)
    · exact ⟨records, [], rfl, fun other found => (List.not_mem_nil found).elim⟩
    · refine ⟨earlier, later ++ [last], by simp, ?_⟩
      intro other found
      rcases List.mem_append.1 found with found | found
      · exact isLast other found
      · exact List.mem_singleton.1 found ▸ isOther

/-- Of the records at an address one is the last. -/
theorem exists_isLatest {record : Snapshot} {records : List Snapshot} (found : record ∈ records) :
    ∃ latest : Snapshot, latest.IsLatest records ∧ latest.address = record.address := by
  induction records using List.reverseRecOn with
  | nil => cases found
  | append_singleton records last ih =>
      by_cases isSame : last.address = record.address
      · exact ⟨last, isLatest_append_singleton.2 (.inl rfl), isSame⟩
      · rcases List.mem_append.1 found with found | found
        · rcases ih found with ⟨latest, isLatest, atAddress⟩
          exact ⟨latest, isLatest_append_singleton.2 (.inr ⟨atAddress ▸ isSame, isLatest⟩),
            atAddress⟩
        · exact absurd (congrArg address (List.mem_singleton.1 found)).symm isSame

theorem IsLatest.mem {snapshot : Snapshot} {records : List Snapshot}
    (isLatest : snapshot.IsLatest records) : snapshot ∈ records := by
  rcases isLatest with ⟨earlier, later, rfl, _⟩
  exact List.mem_append_right _ List.mem_cons_self

end Snapshot

namespace SnapshotSet

open StackMapFrame

/-- The snapshots that are left of some records. -/
def ofRecords (records : List Snapshot) : SnapshotSet :=
  records.foldl record {}

/-- What is found at an address is what was recorded there last. -/
theorem getElem?_ofRecords {records : List Snapshot} {address : Nat} {types : FrameTypes} :
    (ofRecords records)[address]? = some types ↔ Snapshot.IsLatest ⟨address, types⟩ records := by
  induction records using List.reverseRecOn with
  | nil => simp [ofRecords, Snapshot.not_isLatest_nil]
  | append_singleton records last ih =>
      have recorded : (ofRecords (records ++ [last]))[address]? =
          if last.address = address then some last.types else (ofRecords records)[address]? := by
        simp only [ofRecords, List.foldl_append, List.foldl_cons, List.foldl_nil, record,
          Std.TreeMap.getElem?_insert, Nat.compare_eq_eq]
      rw [recorded, Snapshot.isLatest_append_singleton, ← ih]
      rcases last with ⟨address', types'⟩
      dsimp only
      split
      · next isSame => simp [isSame, eq_comm]
      · next isOther => simp [isOther, Ne.symm isOther]

theorem mem_toList_ofRecords {records : List Snapshot} {snapshot : Nat × FrameTypes} :
    snapshot ∈ (ofRecords records).toList ↔
      Snapshot.IsLatest ⟨snapshot.1, snapshot.2⟩ records := by
  rw [← getElem?_ofRecords]
  exact Std.TreeMap.mem_toList_iff_getElem?_eq_some

theorem pairwise_toList (snapshots : SnapshotSet) :
    snapshots.toList.Pairwise fun first second => first.1 < second.1 :=
  (Std.TreeMap.ordered_keys_toList (t := snapshots)).imp Nat.compare_eq_lt.1

/-- There is a table unless nothing was recorded. -/
@[simp]
theorem encode?_ofRecords_eq_none_iff {initial : List VerificationType}
    {records : List Snapshot} : encode? initial (ofRecords records) = none ↔ records = [] := by
  cases records using List.reverseRecOn with
  | nil => exact iff_of_true rfl rfl
  | append_singleton records last =>
      refine iff_of_false ?_ (List.append_ne_nil_of_right_ne_nil _ (List.cons_ne_nil _ _))
      rw [encode?, ofRecords, List.foldl_append, List.foldl_cons, List.foldl_nil, record,
        Std.TreeMap.isEmpty_insert, if_neg Bool.false_ne_true]
      exact Option.some_ne_none _

theorem eq_encodeFrom_of_encode? {initial : List VerificationType} {snapshots : SnapshotSet}
    {table : List StackMapFrame} (encoded : encode? initial snapshots = some table) :
    table = encodeFrom 0 initial [] snapshots.toList := by
  unfold encode? at encoded
  split at encoded
  · cases encoded
  · exact (Option.some.inj encoded).symm

section Recorded

variable {initial : List VerificationType} {records : List Snapshot} {table : List StackMapFrame}
  (encoded : encode? initial (ofRecords records) = some table)
include encoded

/-- Unfolding the table of some records gives what was recorded last. -/
theorem mem_expand_of_encode? (bounded : ∀ record ∈ records, record.address < 65535)
    (snapshot : Snapshot) : snapshot ∈ expand initial table ↔ snapshot.IsLatest records := by
  have unfolded : expand initial table =
      (ofRecords records).toList.map fun snapshot => ⟨snapshot.1, snapshot.2⟩ := by
    rw [eq_encodeFrom_of_encode? encoded, expand]
    exact expandFrom_encodeFrom initial (pairwise_toList (ofRecords records))
      (fun _ _ => Nat.zero_le _)
      fun _ found => Nat.le_of_lt (bounded _ (mem_toList_ofRecords.1 found).mem)
  rw [unfolded, List.mem_map]
  constructor
  · rintro ⟨_, found, rfl⟩
    exact mem_toList_ofRecords.1 found
  · intro isLatest
    exact ⟨(snapshot.address, snapshot.types), mem_toList_ofRecords.2 isLatest, rfl⟩

/-- There are no more frames than addresses. -/
theorem length_of_encode? {bound : Nat} (bounded : ∀ record ∈ records, record.address < bound) :
    table.length ≤ bound := by
  have distinct : ((ofRecords records).toList.map (·.1)).Nodup :=
    List.pairwise_map.2 ((pairwise_toList (ofRecords records)).imp Nat.ne_of_lt)
  have below : (ofRecords records).toList.map (·.1) ⊆ List.range bound := by
    intro address found
    rcases List.mem_map.1 found with ⟨snapshot, isSnapshot, rfl⟩
    exact List.mem_range.2 (bounded _ (mem_toList_ofRecords.1 isSnapshot).mem)
  have length := (distinct.subperm below).length_le
  rw [List.length_map, List.length_range] at length
  rwa [eq_encodeFrom_of_encode? encoded, length_encodeFrom]

/-- A table whose types can be counted is read back. -/
theorem readTable_of_encode? (bounded : ∀ record ∈ records, record.address < 65535)
    (few : ∀ record : Snapshot, record.IsLatest records →
      record.types.locals.length ≤ 65535 ∧ record.types.stack.length ≤ 65535) :
    readTable (tableBytes table) = .ok (table, []) := by
  have fits : ∀ frame ∈ table, frame.Fits := by
    rw [eq_encodeFrom_of_encode? encoded]
    exact fits_of_mem_encodeFrom fun _ found => few _ (mem_toList_ofRecords.1 found)
  have reads := reads_tableBytes (length_of_encode? encoded bounded) fits []
  rwa [List.append_nil] at reads

end Recorded

/-- Folding and unfolding are inverse: the table of some records is there unless
nothing was recorded, it unfolds to what was recorded last at each address, in the
order of addresses, and it is read back from its encoding. -/
theorem expand_encode? (initial : List VerificationType) (records : List Snapshot)
    (bounded : ∀ record ∈ records, record.address < 65535)
    (few : ∀ record ∈ records,
      record.types.locals.length ≤ 65535 ∧ record.types.stack.length ≤ 65535) :
    (encode? initial (ofRecords records) = none ↔ records = []) ∧
      ∀ table, encode? initial (ofRecords records) = some table →
        (expand initial table).Pairwise (fun first second => first.address < second.address) ∧
        (∀ snapshot, snapshot ∈ expand initial table ↔ snapshot.IsLatest records) ∧
        readTable (tableBytes table) = .ok (table, []) := by
  refine ⟨encode?_ofRecords_eq_none_iff, ?_⟩
  intro table encoded
  exact ⟨pairwise_expand initial table, mem_expand_of_encode? encoded bounded,
    readTable_of_encode? encoded bounded fun record isLatest => few record isLatest.mem⟩

/-- Records that are not in the order of their addresses, two of them at the same
one. Each takes another shape. -/
def outOfOrder : List Snapshot :=
  [⟨70, ⟨[.object 1], []⟩⟩, ⟨5, ⟨[.object 1, .integer, .float], []⟩⟩, ⟨9, ⟨[.object 1], [.top]⟩⟩,
    ⟨9, ⟨[.object 1], [.integer]⟩⟩, ⟨12, ⟨[], []⟩⟩, ⟨65534, ⟨[.object 1], [.long]⟩⟩]

/-- The table of `outOfOrder`. -/
theorem expand_encode?_outOfOrder :
    (∀ record ∈ outOfOrder, record.address < 65535) ∧
      (∀ record ∈ outOfOrder,
        record.types.locals.length ≤ 65535 ∧ record.types.stack.length ≤ 65535) ∧
      ∃ table, encode? [.object 1] (ofRecords outOfOrder) = some table ∧
        (expand [.object 1] table).Pairwise
          (fun first second => first.address < second.address) ∧
        (∀ snapshot, snapshot ∈ expand [.object 1] table ↔ snapshot.IsLatest outOfOrder) ∧
        readTable (tableBytes table) = .ok (table, []) := by
  have bounded : ∀ record ∈ outOfOrder, record.address < 65535 := by decide
  have few : ∀ record ∈ outOfOrder,
      record.types.locals.length ≤ 65535 ∧ record.types.stack.length ≤ 65535 := by decide
  rcases expand_encode? [.object 1] outOfOrder bounded few with ⟨isNone, unfolds⟩
  cases encoded : encode? [.object 1] (ofRecords outOfOrder) with
  | none => cases isNone.1 encoded
  | some table => exact ⟨bounded, few, table, rfl, unfolds table encoded⟩

end SnapshotSet

end ValueForm
