import Std.Data.TreeMap
import ValueForm.Analysis.Site

/-!
# The registry of decisions

For every site that takes a decision the registry holds a patch: what the
flattened code does there, what the instruction leaves behind, and whether the
result is forced to be a reference. Forcing is never taken back.

Sites that reach one consumer together are linked; `Registry.settle` spreads
forcing over linked groups until each is forced as a whole or not at all.
-/

namespace ValueForm

/-- What the flattened code does at a site. -/
inductive PatchAction where
  /-- Keep the instruction. -/
  | keep
  /-- Convert an incoming receiver or parameter at entry. -/
  | entryUnbox (slot : UInt16)
  /-- Load a slot that holds a value; the provenance is that of the slot's
  contents. -/
  | valueLoad (slot : UInt16) (contents : SiteSet)
  /-- Store a value into a slot. -/
  | valueStore (slot : UInt16) (operand : SiteSet)
  /-- Read a field of a value through its value class. -/
  | fieldRead (receiver : SiteSet)
  /-- Create an array of values. -/
  | arrayNew (element : String)
  /-- Load a value from an array of values. -/
  | arrayLoad
  /-- Store into an array of values; no provenance for a plain reference. -/
  | arrayStore (operand : Option SiteSet)
  deriving DecidableEq

/-- The form of what an instruction leaves on the stack. -/
inductive LeftForm where
  /-- A value, boxed when forced. -/
  | value
  /-- A reference, unboxed unless forced. -/
  | object
  | nothing
  deriving DecidableEq, Repr

/-- A change of form. -/
inductive FormChange where
  | box
  | unbox
  deriving DecidableEq, Repr

/-- The change that follows an instruction. -/
def LeftForm.change? : LeftForm → (forced : Bool) → Option FormChange
  | .value, true => some .box
  | .object, false => some .unbox
  | _, _ => none

/-- The decision at a site. -/
structure Patch where
  action : PatchAction
  left : LeftForm
  className : String
  forced : Bool := false
  deriving DecidableEq

/-- The change that follows the action of a patch. -/
def Patch.change? (patch : Patch) : Option FormChange :=
  patch.left.change? patch.forced

/-- The decisions for one method body. -/
structure Registry where
  patches : Std.TreeMap Site Patch := {}
  /-- Groups of sites that have to agree on their form. -/
  links : List SiteSet := []

namespace Registry

/-- The patch of a site. -/
def get? (registry : Registry) (site : Site) : Option Patch :=
  registry.patches[site]?

/-- The number of patches. -/
def size (registry : Registry) : Nat :=
  registry.patches.size

/-- Whether there is no patch. -/
def isEmpty (registry : Registry) : Bool :=
  registry.patches.isEmpty

/-- All sites with their patches, in site order. -/
def toList (registry : Registry) : List (Site × Patch) :=
  registry.patches.toList

/-- Whether a site is forced. -/
def isForced (registry : Registry) (site : Site) : Bool :=
  match registry.get? site with
  | some patch => patch.forced
  | none => false

/-- Whether a site has a patch that is not forced. -/
def isFree (registry : Registry) (site : Site) : Bool :=
  match registry.get? site with
  | some patch => !patch.forced
  | none => false

/-- Whether one of the sites is forced. -/
def anyForced (registry : Registry) (sites : SiteSet) : Bool :=
  sites.toList.any registry.isForced

/-- Set the patch of a site; a forced site stays forced. -/
def record (registry : Registry) (site : Site) (patch : Patch) : Registry :=
  let forced := patch.forced || registry.isForced site
  { registry with patches := registry.patches.insert site { patch with forced } }

/-- The site no longer sees a value: its instruction is kept and whatever reads
its result sees a reference. -/
def retire (registry : Registry) (site : Site) : Registry :=
  let retired (patch : Patch) : Patch :=
    { patch with action := .keep, left := .nothing, forced := true }
  { registry with patches := registry.patches.modify site retired }

/-- Force one site; a site without patch is passed over. -/
def forceSite (registry : Registry) (site : Site) : Registry :=
  { registry with
    patches := registry.patches.modify site fun patch => { patch with forced := true } }

/-- Force every site of a list. -/
def force (registry : Registry) (sites : List Site) : Registry :=
  sites.foldl forceSite registry

/-- Note that sites reach one consumer together. -/
def link (registry : Registry) (sites : SiteSet) : Registry :=
  if 1 < sites.size ∧ sites ∉ registry.links then
    { registry with links := registry.links ++ [sites] }
  else
    registry

/-- Whether a group has both a forced and a free site. -/
def isSplit (registry : Registry) (sites : SiteSet) : Bool :=
  registry.anyForced sites && sites.toList.any registry.isFree

/-- Force the groups that are split, for at most `rounds` rounds. -/
def settleRounds : (rounds : Nat) → Registry → Registry
  | 0, registry => registry
  | rounds + 1, registry =>
      match registry.links.filter registry.isSplit with
      | [] => registry
      | groups => settleRounds rounds (registry.force (groups.flatMap SiteSet.toList))

/-- Spread forcing until no group is split. Every round but the last forces a
further patch. -/
def settle (registry : Registry) : Registry :=
  registry.settleRounds (registry.size + 1)

/-- The slots to convert at entry, with their class and whether they are
forced, in site order. -/
def entryConversions (registry : Registry) : List (UInt16 × String × Bool) :=
  registry.toList.filterMap fun (_, patch) =>
    match patch.action with
    | .entryUnbox slot => some (slot, patch.className, patch.forced)
    | _ => none

end Registry

end ValueForm
