import Mathlib.Logic.Function.Basic
import GpuManager.Coordinator.Plan

/-!
# The durable state of a run

`PipelineRunState` is what the coordinator stores for a parent run, and with it the pure part
of the coordinator: which stage is ready, when completed work is skipped, how an attempt is
started and its result recorded, how a correction is scheduled and how a run is terminalized.
The programs of `GpuManager.Coordinator.Advance` put these updates between the commands of the
store and of the providers.

The timestamps and the evidence of resumption that are only written are left out; the time at
which an artifact is produced stays, since artifacts are compared.
-/

namespace GpuManager.Coordinator

open PythonText

/-- `status` of a run. -/
inductive RunStatus where
  | running
  | completed
  | failed
  | cancelled
  deriving DecidableEq, Repr

def RunStatus.isTerminal : RunStatus → Bool
  | .running => false
  | _ => true

/-- `TerminalCode`. -/
inductive TerminalCode where
  | success
  | qcExhausted
  | providerTimeout
  | providerError
  | leafError
  | coordinatorError
  | coordinatorCancelled
  | unsafeResume
  | noArtifact
  deriving DecidableEq, Repr

def TerminalCode.status : TerminalCode → RunStatus
  | .success => .completed
  | .coordinatorCancelled => .cancelled
  | _ => .failed

theorem TerminalCode.status_isTerminal (code : TerminalCode) : code.status.isTerminal = true := by
  cases code <;> rfl

/-- `StageStatus`. -/
inductive StageStatus where
  | pending
  | running
  | completed
  | failed
  | skipped
  deriving DecidableEq, Repr

/-- `in {StageStatus.COMPLETED, StageStatus.SKIPPED}`. -/
def StageStatus.isSettled : StageStatus → Bool
  | .completed | .skipped => true
  | _ => false

structure ArtifactRef where
  pathOrUrl : String
  sha256 : String
  producerStageId : String
  producedAt : String
  deriving DecidableEq, Repr

structure QCVerdict where
  stageId : String
  passed : Bool
  report : String := ""
  deriving DecidableEq, Repr

/-- `status` of a child job, as the leaf client reports it. -/
inductive ChildStatus where
  | queued
  | inFlight
  | completed
  | failed
  | cancelled
  | other (status : String)
  deriving DecidableEq, Repr

structure ChildJobRef where
  childJobId : String
  stageId : String
  idempotencyKey : String := ""
  status : ChildStatus := .queued
  cancelled : Bool := false
  deriving DecidableEq, Repr

def ChildJobRef.isOver (child : ChildJobRef) : Bool :=
  child.cancelled ||
    match child.status with
    | .completed | .failed | .cancelled => true
    | _ => false

structure StageAttempt where
  attempt : ℕ
  status : StageStatus
  error : Option String := none
  output : Fields := []
  qcVerdict : Option QCVerdict := none
  idempotencyKey : String := ""
  providerHandle : Option String := none

/-- A completed stage whose verdict failed may be entered again. -/
def StageAttempt.isQcWithFail (a : StageAttempt) : Bool :=
  match a.qcVerdict with
  | some verdict => !verdict.passed
  | none => false

inductive CursorNote where
  | correctionIteration (n : ℕ)
  | retryAttempt (attempt maxAttempts : ℕ)
  deriving DecidableEq, Repr

/-! ## What the providers return -/

/-- `status` of a result; `missing` when there is no such key. -/
inductive ResultStatus where
  | completed
  | failed
  | queued
  | inFlight
  | pending
  | missing
  | other (status : String)
  deriving DecidableEq, Repr

def ResultStatus.isOpen : ResultStatus → Bool
  | .queued | .inFlight | .pending => true
  | _ => false

/-- `artifact` of a result; a missing key reads as none. -/
structure ArtifactReply where
  pathOrUrl : Option String
  sha256 : Option String
  /-- Its other members. -/
  others : Fields := []

/-- The result of executing a stage. -/
structure StageResult where
  status : ResultStatus
  error : Option String := none
  output : Fields := []
  qcVerdict : Option QCVerdict := none
  artifact : Option ArtifactReply := none
  providerHandle : Option String := none

structure LeafPoll where
  status : ChildStatus
  error : Option String := none
  output : Fields := []
  qcVerdict : Option QCVerdict := none
  artifact : Option ArtifactReply := none

/-- `_provider_handle`. -/
def providerHandle : Option String → Except String String
  | none => .error "provider_handle must be a non-empty string"
  | some value =>
    if strip value = "" then .error "provider_handle must be a non-empty string"
    else if 1024 < (strip value).length then .error "provider_handle exceeds 1024 characters"
    else .ok (strip value)

def Stage.maxAttempts (stage : Stage) : ℕ :=
  let declared : ℤ :=
    match stage.retryMaxAttempts, stage.retries with
    | some n, _ => n
    | none, some n => n + 1
    | none, none => 1
  (max 1 (min declared 11)).toNat

/-! ## `PipelineRunState` -/

structure PipelineRunState where
  runId : String
  status : RunStatus := .running
  currentStageId : Option String := none
  cursorNote : Option CursorNote := none
  requestParams : Fields := []
  compiledPipeline : CompiledPipeline
  childJobs : List ChildJobRef := []
  stageAttempts : String → List StageAttempt := fun _ => []
  stageQcVerdicts : String → List QCVerdict := fun _ => []
  correctionCount : ℕ := 0
  maxCorrections : ℕ := 0
  loopIterations : String → ℕ := fun _ => 0
  pendingStageIds : List String := []
  artifact : Option ArtifactRef := none
  initialArtifact : Option ArtifactRef := none
  lastGoodArtifact : Option ArtifactRef := none
  cancelled : Bool := false
  cancellationIntent : Bool := false
  cancelledChildren : List String := []
  terminalCode : Option TerminalCode := none
  terminalReason : Option String := none

namespace PipelineRunState

variable (state : PipelineRunState)

/-- `attempts[-1]`. -/
def latestAttempt (stageId : String) : Option StageAttempt := (state.stageAttempts stageId).getLast?

/-- `_latest_stage_status`. -/
def latestStageStatus (stageId : String) : Option StageStatus :=
  (state.latestAttempt stageId).map StageAttempt.status

/-- The stage has nothing left to do. -/
def stageSettled (stageId : String) : Bool :=
  match state.latestStageStatus stageId with
  | some status => status.isSettled
  | none => false

/-- A declared dependency does not hold its stage back. -/
def dependencyMet (dependency : String) : Bool :=
  match state.compiledPipeline.stage? dependency with
  | none => false
  | some stage => !stage.enabledByDefault || state.stageSettled dependency

/-- `_stage_ready`. -/
def stageReady (stage : Stage) : Bool :=
  stage.enabledByDefault && stage.id != "" && !state.stageSettled stage.id &&
    stage.dependsOn.all state.dependencyMet

/-- `_first_ready_stage_id`: correction stages enter only through a loop. -/
def firstReadyStageId : Option String :=
  (state.compiledPipeline.stages.find? fun stage =>
    stage.kind != .correct && state.stageReady stage).map Stage.id

/-- The stages that a successful run has to have completed. -/
def requiredStages : List Stage :=
  state.compiledPipeline.stages.filter fun stage => stage.enabledByDefault && stage.kind != .correct

def currentStage : Option Stage := state.currentStageId.bind state.compiledPipeline.stage?

/-- The latest attempt of the stage under the cursor is RUNNING. -/
def currentStageRunning : Bool :=
  match state.currentStageId with
  | some stageId => state.latestStageStatus stageId == some .running
  | none => false

/-- `is_declared_loop_reentry`. -/
def isDeclaredLoopReentry : Bool := 0 < state.correctionCount && state.cursorNote.isSome

def skipsCompleted (stageId : String) : Bool :=
  match state.latestAttempt stageId with
  | some a => a.status == .completed && !a.isQcWithFail && !state.isDeclaredLoopReentry
  | none => false

/-! ### The updates -/

/-- Take the next stage of the correction queue under the cursor. -/
def enterPending (next : String) (remaining : List String) : PipelineRunState :=
  { state with
    currentStageId := some next
    pendingStageIds := remaining
    cursorNote :=
      if state.correctionCount = 0 then none
      else some (.correctionIteration state.correctionCount) }

/-- Append an attempt. -/
def appendAttempt (stageId : String) (a : StageAttempt) : PipelineRunState :=
  { state with
    stageAttempts :=
      Function.update state.stageAttempts stageId (state.stageAttempts stageId ++ [a]) }

/-- Write the latest attempt. -/
def setLatestAttempt (stageId : String) (a : StageAttempt) : PipelineRunState :=
  { state with
    stageAttempts :=
      Function.update state.stageAttempts stageId ((state.stageAttempts stageId).dropLast ++ [a]) }

def appendVerdict (stageId : String) : Option QCVerdict → PipelineRunState
  | none => state
  | some verdict =>
    { state with
      stageQcVerdicts :=
        Function.update state.stageQcVerdicts stageId (state.stageQcVerdicts stageId ++ [verdict]) }

/-- Publish the artifact of a result; the first one of a generation is kept. -/
def publishArtifact (stage : Stage) : Option ArtifactRef → PipelineRunState
  | none => state
  | some artifact =>
    { state with
      artifact := some artifact
      initialArtifact :=
        if stage.kind.isGeneration then state.initialArtifact.or (some artifact)
        else state.initialArtifact }

/-- Write the status of a child job. -/
def setChildStatus (i : ℕ) (status : ChildStatus) : PipelineRunState :=
  { state with childJobs := state.childJobs.modify i fun child => { child with status := status } }

def scheduleCorrection (loopId correctionStageId : String) (onCorrection : List String) :
    PipelineRunState :=
  { state with
    loopIterations :=
      Function.update state.loopIterations loopId (state.loopIterations loopId + 1)
    correctionCount := state.correctionCount + 1
    pendingStageIds := correctionStageId :: onCorrection
    currentStageId := none
    cursorNote := some (.correctionIteration (state.loopIterations loopId + 1)) }

/-- The artifact that a run which does not succeed falls back to. -/
def fallbackArtifact : Option ArtifactRef := state.lastGoodArtifact.or state.initialArtifact

/-- The update of `_terminalize`. -/
def terminal (code : TerminalCode) (reason : String) : PipelineRunState :=
  let ended : PipelineRunState :=
    { state with
      status := code.status
      terminalCode := some code
      terminalReason := some reason }
  match state.fallbackArtifact with
  | some fallback =>
    if code ≠ .success ∧ state.artifact ≠ some fallback then
      { ended with
        artifact := some fallback
        terminalReason := some (reason ++ "; fallback_artifact=" ++ fallback.producerStageId) }
    else ended
  | none => ended

/-! ### The inputs of an attempt -/

/-- The value that a binding refers to, if there is one. -/
def bindingValue (binding : InputBinding) : Except String (Option Json) :=
  match binding.source with
  | none => .error "unsupported binding source None"
  | some source =>
    match after "workflow." source with
    | some inputName =>
      match state.requestParams.lookup inputName with
      | some value => .ok (some value)
      | none => .ok (state.compiledPipeline.inputs.lookup inputName).join
    | none =>
      match after "stage." source with
      | none => .error ("unsupported binding source " ++ quoted source)
      | some path =>
        match splitOnce '.' path with
        | none => .error ("invalid stage binding source " ++ quoted source)
        | some (sourceStage, outputName) =>
          .ok ((state.latestAttempt sourceStage).bind fun a => a.output.lookup outputName)

/-- One input binding: a missing value is refused unless the input is optional. -/
def resolveInput (name : String) : Option InputBinding → Except String (Option Json)
  | none => .error ("input binding " ++ quoted name ++ " is not an object")
  | some binding =>
    match state.bindingValue binding with
    | .error e => .error e
    | .ok none =>
      if binding.optional then .ok none
      else
        .error ("required input " ++ quoted name ++ " has no resolved value from " ++
          (binding.source.map quoted).getD "None")
    | .ok (some value) => (deepSanitize "$" value).map some

/-- The inputs that resolve, in the order of their declaration. -/
def resolveInputs : List (String × Option InputBinding) → Except String Fields
  | [] => .ok []
  | (name, binding) :: bindings =>
    match state.resolveInput name binding with
    | .error e => .error e
    | .ok none => resolveInputs bindings
    | .ok (some value) => (resolveInputs bindings).map ((name, value) :: ·)

/-- `_materialize_stage_inputs`: the `resolved_inputs` of one attempt. -/
def materializeStageInputs (stage : Stage) : Except String (Option Fields) :=
  match stage.inputBindings with
  | none => .ok none
  | some bindings => (state.resolveInputs bindings).map some

/-! ### The children of a stage -/

/-- The newest child that was submitted for this attempt. -/
def childOfAttempt (stageId idempotencyKey : String) : Option (ChildJobRef × ℕ) :=
  state.childJobs.zipIdx.reverse.find? fun child =>
    child.1.stageId == stageId && child.1.idempotencyKey == idempotencyKey && !child.1.cancelled

/-- The children of the stage that were not cancelled, the newest first. -/
def childrenOfStage (stageId : String) : List (ChildJobRef × ℕ) :=
  state.childJobs.zipIdx.reverse.filter fun child =>
    child.1.stageId == stageId && !child.1.cancelled

end PipelineRunState

end GpuManager.Coordinator
