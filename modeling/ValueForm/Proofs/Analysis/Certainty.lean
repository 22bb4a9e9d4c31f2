import ValueForm.Proofs.Analysis.Everywhere
import ValueForm.Proofs.Analysis.Origins

/-!
# What every path brings

Where every path brings an array of values of one class, or null, the analysis knows it:
`Analysis.carries_certain`. That is so during the whole run, when only some of the paths
have been followed, for what a step moves from one spot to another it moves on every path.
-/

namespace ValueForm

/-! ## Spots -/

/-- A local slot or an entry of the stack before a step, or what the step itself makes. -/
inductive Spot where
  | made
  | slot (index : Nat)
  | entry (depth : Nat)

/-- What a frame has in a spot. -/
def Frame.valueAt (frame : Frame) : Spot → Option Value
  | .made => none
  | .slot index => frame.locals[index]?
  | .entry depth => frame.stack[depth]?

theorem Frame.valueAt_join {current incoming : Frame} {spot : Spot} {value : Value}
    (found : (current.join incoming).valueAt spot = some value) :
    ∃ first, current.valueAt spot = some first ∧
      (value = first ∨
        ∃ second, incoming.valueAt spot = some second ∧ value = first.join second) := by
  cases spot with
  | made => cases found
  | slot index =>
      rw [valueAt, getElem?_join_locals] at found
      rcases Option.map_eq_some_iff.1 found with ⟨first, atCurrent, rfl⟩
      refine ⟨first, atCurrent, ?_⟩
      split
      · next second atIncoming => exact .inr ⟨second, atIncoming, rfl⟩
      · exact .inl rfl
  | entry depth =>
      rw [valueAt, getElem?_join_stack] at found
      split at found
      · next first second atCurrent atIncoming =>
          cases found
          exact ⟨first, atCurrent, .inr ⟨second, atIncoming, rfl⟩⟩
      · cases found

namespace Origins

variable {α β : Type}

/-- Where what is in a spot comes from. -/
def sourceOf (origins : Origins α) (made : Option α) : Spot → Option α
  | .made => made
  | .slot index => origins.locals index
  | .entry depth => origins.stack[depth]?.join

/-- Everything comes from where it is. -/
def spots (height : Nat) : Origins Spot where
  locals := fun index => some (.slot index)
  stack := (List.range height).map fun depth => some (.entry depth)

theorem sourceOf_bind (origins : Origins α) (back : α → Option β) (spot : Spot) :
    (origins.bind back).sourceOf none spot = (origins.sourceOf none spot).bind back := by
  cases spot with
  | made | slot => rfl
  | entry depth =>
      simp only [sourceOf, bind, List.getElem?_map]
      cases origins.stack[depth]? <;> rfl

theorem spots_bind (origins : Origins α) (made : Option α) :
    (spots origins.stack.length).bind (origins.sourceOf made) = origins := by
  rcases origins with ⟨locals, stack⟩
  simp only [bind, spots, Origins.mk.injEq, List.map_map]
  refine ⟨rfl, List.ext_getElem? fun depth => ?_⟩
  rw [List.getElem?_map]
  by_cases inside : depth < stack.length
  · rw [List.getElem?_range inside, List.getElem?_eq_getElem inside]
    simp [sourceOf, inside]
  · simp [Nat.le_of_not_lt inside]

variable {allows : α → Value → Prop} {origins : Origins α} {frame : Frame}

theorem Fits.allowed (fits : origins.Fits allows frame) {spot : Spot} {value : Value}
    (found : frame.valueAt spot = some value) :
    Allowed allows (origins.sourceOf none spot) value := by
  cases spot with
  | made => cases found
  | slot index => exact fits.locals index value found
  | entry depth =>
      rcases Outcome.getElem?_of_forall₂ fits.stack.flip found with ⟨origin, isOrigin, allowed⟩
      rw [sourceOf, isOrigin]
      exact allowed

theorem fits_spots {allows : Spot → Value → Prop}
    (allowed : ∀ spot value, frame.valueAt spot = some value → allows spot value) :
    (spots frame.stack.length).Fits allows frame := by
  constructor
  · rintro index value found _ ⟨⟩
    exact allowed (.slot index) value found
  · rw [spots, List.forall₂_map_left_iff, List.forall₂_iff_get]
    refine ⟨List.length_range, fun depth inRange inside => ?_⟩
    rintro _ ⟨⟩
    apply allowed
    simp [Frame.valueAt]

end Origins

/-! ## Where every path brings an array -/

namespace Value

/-- The array of a class, or null. -/
def IsArrayOf (element : String) (value : Value) : Prop :=
  value = .precise (.array (.object element)) ∨ value = .null

variable {element : String} {first second : Value}

theorem IsArrayOf.join (isArray : first.IsArrayOf element) (isArray' : second.IsArrayOf element) :
    (first.join second).IsArrayOf element := by
  rcases isArray with rfl | rfl <;> rcases isArray' with rfl | rfl <;>
    simp [IsArrayOf, Value.join, joinPlain, asReference, isReference]

theorem ordinary_isArrayOf {α : Type} (element : String) (premise : α → Prop) :
    Ordinary fun source value => premise source → value.IsArrayOf element := by
  intro source value allows special other holds
  rcases allows holds with rfl | rfl <;> rcases special with special | special <;> cases special

end Value

/-- Nothing unusable is on any stack. -/
def AnalysisResult.Usable (result : AnalysisResult) : Prop :=
  ∀ reached ∈ result.frames, ∀ frame ∈ reached, .uninitialized ∉ frame.stack

instance (result : AnalysisResult) : Decidable result.Usable :=
  inferInstanceAs (Decidable (∀ reached ∈ result.frames, ∀ frame ∈ reached, _))

/-- A usable value is as wide as what it has absorbed. -/
theorem Value.Absorbs.isWide_eq {held : Site → Prop} {upper lower : Value}
    (absorbs : upper.Absorbs held lower) (usable : upper ≠ .uninitialized) :
    upper.isWide = lower.isWide := by
  rcases Value.absorbs_iff.1 absorbs with ⟨_, _, _, rfl, rfl, _⟩ | ⟨_, covers, _⟩
  · rfl
  · have same : lower.asReference.isWide = lower.isWide := by cases lower <;> rfl
    rw [← same]
    rcases covers with rfl | unusable | ⟨isNull, isReference⟩ | ⟨rfl, isReference⟩
    · rfl
    · exact absurd unusable usable
    · rw [isNull]
      exact isWide_of_isReference isReference
    · exact (isWide_of_isReference isReference).symm

namespace Instruction

variable {answers : String → Except OracleError Bool} {place : Place} {before : Frame}
  {effect : Effect}

/-- A new array is one of the class that is named. -/
theorem head?_newReferenceArray {constant : UInt16}
    (transferred : ((Instruction.newReferenceArray constant).transfer place before).eval answers =
      .ok effect) :
    ∃ type, place.pool.namedType? constant = some type ∧
      effect.frame.stack.head? = some (.precise (.array type)) := by
  rcases exists_yields transferred with ⟨ended, yields⟩
  simp only [rule, Transfer.createArray, Transfer.yields_bind, Transfer.yields_discard,
    Transfer.yields_pop, Transfer.yields_namedType] at yields
  rcases yields with ⟨_, _, ⟨_, rest, _, rfl⟩, type, _, ⟨⟨name, named, typed⟩, rfl⟩, created⟩
  refine ⟨type, by simp [ConstantPool.namedType?, named, typed], ?_⟩
  -- Whatever is recorded, the array is pushed last.
  have pushed {between : Effect} (created : Transfer.Yields answers
      (Transfer.push (.precise (.array type))) between ended effect) :
      effect.frame.stack.head? = some (.precise (.array type)) := by
    rw [Transfer.yields_push.1 created]
    rfl
  cases isFlat : place.flatArrays with
  | false =>
      simp only [isFlat, Bool.false_eq_true, if_false] at created
      exact pushed created
  | true =>
      simp only [isFlat, if_true, Transfer.yields_bind] at created
      rcases created with ⟨found, _, _, created⟩
      cases found with
      | none => exact pushed created
      | some className =>
          rcases Transfer.yields_bind.1 created with ⟨_, _, _, created⟩
          exact pushed created

theorem head?_null
    (transferred : ((Instruction.const .null).transfer place before).eval answers = .ok effect) :
    effect.frame.stack.head? = some .null := by
  rcases exists_yields transferred with ⟨ended, yields⟩
  rw [Transfer.yields_push.1 yields]
  rfl

end Instruction

namespace Analysis

variable {analysis : Analysis} {answers : String → Except OracleError Bool}
  {handlers : List Handler} {result : AnalysisResult} {element : String}

/-- What comes from there is an array of values of a class, or null. -/
def Brings (analysis : Analysis) (result : AnalysisResult) (element : String)
    (origin : Option Nat) : Prop :=
  ∃ position ∈ origin, result.registry.flatElement? position = some element ∨
    ∃ address, analysis.body.instructions[position]? = some ⟨address, .const .null⟩

/-- Every path to an instruction brings an array of values of a class, or null, to a spot. -/
def AllBring (analysis : Analysis) (handlers : List Handler) (result : AnalysisResult)
    (element : String) (index : Nat) (made : Option Nat) (spot : Spot) : Prop :=
  ∀ origins, analysis.Traced handlers result index origins →
    analysis.Brings result element (origins.sourceOf made spot)

/-- A path leads to an instruction, and a frame has the array or null wherever all paths
bring one. -/
structure Certain (analysis : Analysis) (handlers : List Handler) (result : AnalysisResult)
    (element : String) (index : Nat) (frame : Frame) : Prop where
  reached : ∃ origins, analysis.Traced handlers result index origins
  arrays : ∀ spot value, frame.valueAt spot = some value →
    analysis.AllBring handlers result element index none spot → value.IsArrayOf element

theorem Certain.join {index : Nat} {current incoming : Frame}
    (certain : analysis.Certain handlers result element index current)
    (certain' : analysis.Certain handlers result element index incoming) :
    analysis.Certain handlers result element index (current.join incoming) := by
  refine ⟨certain.reached, fun spot value found allBring => ?_⟩
  rcases Frame.valueAt_join found with ⟨first, atCurrent, isValue⟩
  have isArray := certain.arrays spot first atCurrent allBring
  rcases isValue with rfl | ⟨second, atIncoming, rfl⟩
  · exact isArray
  · exact isArray.join (certain'.arrays spot second atIncoming allBring)

/-- Nothing is brought to the entry. -/
theorem certain_entry (frame : Frame) :
    analysis.Certain handlers result element 0 frame := by
  refine ⟨⟨.start, .entry⟩, fun spot value found allBring => ?_⟩
  rcases allBring .start .entry with ⟨position, isOrigin, _⟩
  cases spot <;> cases isOrigin

/-- An instruction that is said to make an array of values, or null, makes it in every
visit. -/
theorem Invariant.isArrayOf_made {entry : Frame}
    (invariant : analysis.Invariant answers handlers entry result.state) {index : Nat}
    {located : Located} {before last : Frame} {effect : Effect}
    (atIndex : analysis.body.instructions[index]? = some located)
    (found : result.frames[index]? = some (some last))
    (transferred : (located.instruction.transfer (analysis.place index located) before).eval
      answers = .ok effect)
    (brings : analysis.Brings result element (located.instruction.madeAt index)) {value : Value}
    (isTop : effect.frame.stack.head? = some value) : value.IsArrayOf element := by
  rcases brings with ⟨position, isMade, how⟩
  obtain rfl := Instruction.index_of_mem_madeAt isMade
  rcases located with ⟨address, instruction⟩
  rcases how with isFlat | ⟨_, isNull⟩
  · rcases invariant.settled_of_frame found with ⟨_, effect', atIndex', settled⟩
    cases atIndex.symm.trans atIndex'
    rw [settled.reflected.flatElement?_eq] at isFlat
    have isTop' := ((Instruction.transfer_step settled.transferred).creates isFlat).2
    cases instruction with
    | newReferenceArray constant =>
        rcases Instruction.head?_newReferenceArray transferred with ⟨type, named, isNew⟩
        rcases Instruction.head?_newReferenceArray settled.transferred with ⟨_, named', isNew'⟩
        cases named.symm.trans named'
        cases isTop.symm.trans (isNew.trans (isNew'.symm.trans isTop'))
        exact .inl rfl
    | const constant =>
        cases constant with
        | null =>
            cases isTop.symm.trans (Instruction.head?_null transferred)
            exact .inr rfl
        | _ => cases isMade
    | _ => cases isMade
  · cases atIndex.symm.trans isNull
    cases isTop.symm.trans (Instruction.head?_null transferred)
    exact .inr rfl

/-- Usable entries have kept their widths. -/
theorem widths_eq_of_hasAbsorbed {index : Nat} {before : Frame} (usable : result.Usable)
    (absorbed : analysis.HasAbsorbed answers result.registry result.frames index before) :
    result.widths index = before.stack.map Value.isWide := by
  rcases absorbed with ⟨last, found, absorbs⟩
  have isWidths : result.widths index = last.stack.map Value.isWide := by
    simp [AnalysisResult.widths, found]
  rw [isWidths]
  rcases Frame.absorbs_iff.1 absorbs with ⟨height, _, onStack⟩
  apply List.ext_getElem
  · rw [List.length_map, List.length_map, height]
  · intro depth inLast inBefore
    rw [List.length_map] at inLast inBefore
    rw [List.getElem_map, List.getElem_map]
    have absorbs := onStack depth _ _ (List.getElem?_eq_getElem inLast)
      (List.getElem?_eq_getElem inBefore)
    apply absorbs.isWide_eq
    intro unusable
    have isEntry : .uninitialized ∈ last.stack := unusable ▸ List.getElem_mem inLast
    exact usable _ (Array.mem_of_getElem? found) last rfl isEntry

/-- A path goes on to where the spots of an instruction do. -/
theorem Traced.follow {index target : Nat} {located : Located} {origins : Origins Nat}
    {spots : Origins Spot} (traced : analysis.Traced handlers result index origins)
    (atIndex : analysis.body.instructions[index]? = some located)
    (isFlow : .ok (target, spots) ∈ analysis.flows handlers index located
      (fun _ => Origins.caught) (.spots origins.stack.length)
      (located.instruction.trace analysis.classFile.pool (result.widths index) (some .made)
        (.spots origins.stack.length))) :
    analysis.Traced handlers result target
      (spots.bind (origins.sourceOf (located.instruction.madeAt index))) := by
  let back := origins.sourceOf (located.instruction.madeAt index)
  have isBefore : origins = (Origins.spots origins.stack.length).bind back :=
    (origins.spots_bind _).symm
  have isAfter : located.instruction.trace analysis.classFile.pool (result.widths index)
      (located.instruction.madeAt index) origins =
      (located.instruction.trace analysis.classFile.pool (result.widths index) (some .made)
        (.spots origins.stack.length)).bind back := by
    rw [← Instruction.trace_bind, ← isBefore]
    rfl
  have caught (spots : Origins Spot) (origins' : Origins Nat)
      (isBound : origins' = spots.bind back) : origins'.caught = spots.caught.bind back :=
    congrArg Origins.caught isBound
  rcases exists_flow (fun (spots : Origins Spot) (origins' : Origins Nat) =>
      origins' = spots.bind back) (fun _ => caught) isBefore isAfter isFlow with ⟨_, isFlow', rfl⟩
  exact traced.step atIndex isFlow'

/-- A frame has the array wherever all paths bring it from spots that have it. -/
theorem certain_of_spots {index target : Nat} {made : Option Nat} {spots : Origins Spot}
    {frame : Frame} (reached : ∃ origins, analysis.Traced handlers result index origins)
    (follows : ∀ origins, analysis.Traced handlers result index origins →
      analysis.Traced handlers result target (spots.bind (origins.sourceOf made)))
    (fits : spots.Fits (fun spot value =>
      analysis.AllBring handlers result element index made spot → value.IsArrayOf element) frame) :
    analysis.Certain handlers result element target frame := by
  rcases reached with ⟨path, isPath⟩
  refine ⟨⟨_, follows path isPath⟩, fun spot value isThere allBring => ?_⟩
  cases source : spots.sourceOf none spot with
  | none =>
      rcases allBring _ (follows path isPath) with ⟨position, isOrigin, _⟩
      rw [Origins.sourceOf_bind, source] at isOrigin
      cases isOrigin
  | some earlier =>
      apply fits.allowed isThere earlier source
      intro origins traced
      have brings := allBring _ (follows origins traced)
      rw [Origins.sourceOf_bind, source] at brings
      exact brings

/-- Certainty is carried along: what a step leaves in a spot it has made, or moved there
from another spot, and a path that brings the array to the one brings it to the other. -/
theorem carries_certain {entry : Frame} {registry : Registry}
    (invariant : analysis.Invariant answers handlers entry result.state)
    (entering : Entering analysis.slots entry registry) (usable : result.Usable) :
    analysis.Carries answers handlers result (analysis.Certain handlers result element) := by
  refine ⟨fun _ _ _ certain certain' => certain.join certain', ?_⟩
  intro index located before effect atIndex absorbed certain transferred target frame isEdge
  let made := located.instruction.madeAt index
  let allows (spot : Spot) (value : Value) : Prop :=
    analysis.AllBring handlers result element index made spot → value.IsArrayOf element
  have widths := widths_eq_of_hasAbsorbed usable absorbed
  rcases absorbed with ⟨last, found, absorbs⟩
  have fits : (Origins.spots before.stack.length).Fits allows before := by
    apply Origins.fits_spots
    intro spot value isThere allBring
    cases spot with
    | made => cases isThere
    | slot | entry => exact certain.arrays _ value isThere allBring
  have isMade (value : Value) (isTop : effect.frame.stack.head? = some value) :
      Origins.Allowed allows (some .made) value := by
    rintro _ ⟨⟩ allBring
    rcases certain.reached with ⟨origins, traced⟩
    exact invariant.isArrayOf_made atIndex found transferred (allBring origins traced) isTop
  have fitsAfter := (Instruction.transfer_step transferred).trace_fits
    (Value.ordinary_isArrayOf element _) isMade fits
  rw [edges_eq_flows] at isEdge
  rcases exists_flow (fun (frame : Frame) (spots : Origins Spot) => spots.Fits allows frame)
    (fun _ _ _ here => here.caught _) fits fitsAfter isEdge with ⟨spots, isFlow, fits'⟩
  refine certain_of_spots certain.reached (fun origins traced => ?_) fits'
  have height : origins.stack.length = before.stack.length := by
    rcases traced.fits invariant entering with ⟨last', found', fitsLast⟩
    cases found.symm.trans found'
    exact fitsLast.stack.length_eq.trans (Frame.absorbs_iff.1 absorbs).1
  apply traced.follow atIndex
  rw [height, widths]
  exact isFlow

end Analysis

end ValueForm
