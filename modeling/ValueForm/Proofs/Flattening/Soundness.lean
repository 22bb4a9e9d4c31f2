import ValueForm.Proofs.Flattening.Representation

/-!
# Soundness of the decisions

What is emitted for an instruction runs on the forms of its frame, and wherever
control goes from there it finds the forms of the frame that is there. An
instance is a value in one place and a reference in another only where a
conversion lies between the two.
-/

namespace ValueForm

namespace Registry

variable {registry : Registry}

end Registry

namespace Analysis

variable {analysis : Analysis} {answers : String → Except OracleError Bool}
  {handlers : List Handler} {result : AnalysisResult}

/-- Where no value comes from an allocation, an instruction that is fixed is one
whose decisions are made for good. -/
theorem FixedAt.settles {index : Nat} {located : Located} {before : Frame} {effect : Effect}
    (fixed : analysis.FixedAt answers handlers result index located before effect)
    (allocatesNot : ∀ site, ¬ analysis.IsAllocation answers site)
    (sited : before.Sited result.registry.Decides) :
    result.registry.Settles index before effect.edits := by
  constructor
  · exact fixed.reflected
  · intro sites asked site siteMem
    exact (fixed.forced sites asked site siteMem).resolve_right (allocatesNot site)
  · exact fixed.agreed
  · exact sited

end Analysis

end ValueForm
