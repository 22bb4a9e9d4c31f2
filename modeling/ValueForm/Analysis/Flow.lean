import ValueForm.ClassFile.Basic
import ValueForm.Analysis.Body
import ValueForm.Analysis.Transfer

/-!
# Dataflow

The analysis of a method body. It keeps a frame for every instruction reached
so far and a stack of instructions whose frame has changed. Visiting an
instruction applies its transfer rule to its frame, carries out the edits it
asks for, and lets the results flow along its edges: into the handlers that
cover it, to its branch targets and to the instruction after it. Where a frame
changes, the instruction is queued again.

Every change raises a frame in an order of finite height, which bounds the
number of visits; `Analysis.visitBound` is such a bound.
-/

namespace ValueForm

/-- An exception handler by positions: it covers the instructions from `start`
up to but not including `stop`. -/
structure Handler where
  start : Nat
  stop : Nat
  target : Nat
  catchType : String
  deriving DecidableEq, Repr

/-- Whether a handler covers an instruction. -/
def Handler.covers (handler : Handler) (index : Nat) : Bool :=
  handler.start ≤ index && index < handler.stop

/-- What the analysis of a body works with. -/
structure Analysis where
  classFile : ClassFile
  body : MethodBody
  flatArrays : Bool
  addresses : AddressMap

/-- The result of an analysis: the decisions, and the frame before every
instruction that can be reached. -/
structure AnalysisResult where
  registry : Registry
  frames : Array (Option Frame)

/-- The state of an analysis under way. -/
structure FlowState where
  registry : Registry
  frames : Array (Option Frame)
  /-- The instructions to visit, next one first. -/
  pending : List Nat
  /-- Whether an instruction is pending. -/
  queued : Array Bool

namespace FlowState

/-- Queue an instruction, unless it is queued already. -/
def enqueue (state : FlowState) (index : Nat) : FlowState :=
  if state.queued[index]?.getD false then state
  else
    { state with
      pending := index :: state.pending, queued := state.queued.setIfInBounds index true }

/-- Let a frame flow into an instruction. -/
def flowInto (state : FlowState) (address index : Nat) (incoming : Frame) :
    Except AnalysisError FlowState :=
  match state.frames[index]?.join with
  | none =>
      .ok ({ state with frames := state.frames.setIfInBounds index (some incoming) }.enqueue index)
  | some current =>
      match current.merge incoming with
      | .error error => .error (.frame address error)
      | .ok (merged, forced) =>
          let registry := state.registry.force forced
          if merged = current then .ok { state with registry }
          else
            let frames := state.frames.setIfInBounds index (some merged)
            .ok ({ state with registry, frames }.enqueue index)

/-- Let frames flow along edges in order, up to the first edge that leads
nowhere. -/
def flowAlong (address : Nat) :
    FlowState → List (Except AnalysisError (Nat × Frame)) → Except AnalysisError FlowState
  | state, [] => .ok state
  | _, .error error :: _ => .error error
  | state, .ok (index, frame) :: rest =>
      match state.flowInto address index frame with
      | .error error => .error error
      | .ok state => flowAlong address state rest

end FlowState

namespace Analysis

/-- The position of the instruction a jump from `address` leads to. -/
def positionAt (analysis : Analysis) (address : Nat) (target : Int) : Except AnalysisError Nat :=
  match analysis.addresses.position? target with
  | some index => .ok index
  | none => .error (.invalidTarget address target)

/-- The class a handler catches. -/
def catchType (analysis : Analysis) (entry : ExceptionEntry) : Except AnalysisError String :=
  if entry.catchType = 0 then .ok "java/lang/Throwable"
  else
    match analysis.classFile.pool.className? entry.catchType with
    | some className => .ok className
    | none => .error (.unresolved entry.handler.toNat entry.catchType)

/-- An entry of the exception table by positions. -/
def handler (analysis : Analysis) (entry : ExceptionEntry) : Except AnalysisError Handler := do
  let start ← analysis.positionAt entry.start.toNat entry.start.toNat
  let stop ←
    if entry.stop.toNat = analysis.body.code.code.length then
      .ok analysis.body.instructions.size
    else
      analysis.positionAt entry.start.toNat entry.stop.toNat
  let target ← analysis.positionAt entry.handler.toNat entry.handler.toNat
  return ⟨start, stop, target, ← analysis.catchType entry⟩

/-- The exception table by positions. -/
def handlers (analysis : Analysis) : Except AnalysisError (List Handler) :=
  analysis.body.code.exceptions.mapM analysis.handler

/-- The types of the receiver, if there is one, and of the parameters. -/
def incomingTypes (analysis : Analysis) : Except AnalysisError (List FieldType) := do
  let descriptor := analysis.body.descriptor
  match MethodType.parse? descriptor with
  | none => .error (.invalidDescriptor descriptor)
  | some type =>
      if analysis.body.isStatic then return type.params
      else
        match analysis.classFile.thisClassName? with
        | some className => return .object className :: type.params
        | none => .error (.unresolved 0 analysis.classFile.thisClass)

/-- Put the incoming values into the locals from `slot` on. A value-capable one
is to be converted at entry. -/
def enter : (slot : Nat) → List FieldType → Frame → Registry →
    Inquiry AnalysisError (Frame × Registry)
  | _, [], frame, registry => return (frame, registry)
  | slot, type :: rest, frame, registry => do
      let index := UInt16.ofNat slot
      let place (value : Value) : Inquiry AnalysisError Frame :=
        match frame.setLocal index value with
        | .ok frame => return frame
        | .error error => Inquiry.fail (.frame 0 error)
      let capable ←
        match type with
        | .object className => Inquiry.capable .oracle className
        | _ => pure false
      match capable, type with
      | true, .object className => do
          let frame ← place (.capableAt className (.entry index))
          let patch : Patch := { action := .entryUnbox index, left := .nothing, className }
          enter (slot + type.slots) rest frame (registry.record (.entry index) patch)
      | _, type => do
          let frame ← place (.ofType type)
          enter (slot + type.slots) rest frame registry

/-- The edges along which the results of an instruction flow, in order: before
and after it into every handler that covers it, after it to the branch targets,
and to the following instruction. A subroutine returns with the frame from
before its call. -/
def edges (analysis : Analysis) (handlers : List Handler) (index : Nat) (located : Located)
    (before after : Frame) : List (Except AnalysisError (Nat × Frame)) :=
  let address := located.address
  let instruction := located.instruction
  let caught := (handlers.filter (·.covers index)).flatMap fun handler =>
    let exception := Value.precise (.object handler.catchType)
    [.ok (handler.target, before.handlerFrame exception),
      .ok (handler.target, after.handlerFrame exception)]
  let jumps := instruction.branchOffsets.map fun offset =>
    (analysis.positionAt address (address + offset.toInt)).map fun target => (target, after)
  let next :=
    if instruction.endsFlow then []
    else if index + 1 < analysis.body.instructions.size then
      [.ok (index + 1, if instruction.isSubroutineCall then before else after)]
    else [.error (.fallsOffEnd address)]
  caught ++ jumps ++ next

/-- Visit an instruction. -/
def visit (analysis : Analysis) (handlers : List Handler) (index : Nat) (state : FlowState) :
    Inquiry AnalysisError FlowState :=
  match state.frames[index]?.join, analysis.body.instructions[index]? with
  | some before, some located => do
      let place : Place :=
        ⟨analysis.classFile.pool, analysis.flatArrays, index, located.address⟩
      let effect ← located.instruction.transfer place before
      let registry := state.registry.applyEdits place.site effect.edits
      let edges := analysis.edges handlers index located before effect.frame
      Inquiry.ofExcept ({ state with registry }.flowAlong located.address edges)
  | _, _ => return state

/-- Visit pending instructions, at most `visits` of them. -/
def loop (analysis : Analysis) (handlers : List Handler) :
    (visits : Nat) → FlowState → Inquiry AnalysisError FlowState
  | 0, state => return state
  | visits + 1, state =>
      match state.pending with
      | [] => return state
      | index :: pending => do
          let queued := state.queued.setIfInBounds index false
          let state ← analysis.visit handlers index { state with pending, queued }
          loop analysis handlers visits state

/-- A bound on the number of visits. With `n` instructions and `l` locals, a
frame has at most `l + 2 n` values, each of which can be raised at most
`n + l + 6` times; an instruction is visited once when it is first reached and
once for every time its frame is raised. -/
def visitBound (analysis : Analysis) : Nat :=
  let n := analysis.body.instructions.size
  let l := analysis.body.code.maxLocals.toNat
  1 + n * (1 + (l + 2 * n) * (n + l + 6))

/-- Analyse a body that has instructions. -/
def run (analysis : Analysis) : Inquiry AnalysisError AnalysisResult := do
  let count := analysis.body.instructions.size
  let handlers ← Inquiry.ofExcept analysis.handlers
  let incoming ← Inquiry.ofExcept analysis.incomingTypes
  let locals := Frame.empty analysis.body.code.maxLocals.toNat
  let (entry, registry) ← enter 0 incoming locals {}
  let start : FlowState := {
    registry, frames := (Array.replicate count none).setIfInBounds 0 (some entry),
    pending := [0], queued := (Array.replicate count false).setIfInBounds 0 true }
  let final ← analysis.loop handlers analysis.visitBound start
  return ⟨final.registry.settle, final.frames⟩

end Analysis

/-- Analyse a method body: decide, for every place where an instance of a
value-capable class is moved or used, in which form that is done. -/
def MethodBody.analyze (classFile : ClassFile) (body : MethodBody) (flatArrays : Bool) :
    Inquiry AnalysisError AnalysisResult :=
  if body.instructions.isEmpty then return ⟨{}, #[]⟩
  else (Analysis.mk classFile body flatArrays body.addresses).run

end ValueForm
