import Mathlib.Data.Int.Notation
import GpuManager.Lib.JsonText

/-!
# The stage executors

`stage_dispatch.py`: `PipelineExecutor.execute` and `KreaPipelineExecutor.dispatch` send the
stages of a pipeline to a provider, in the order of their declaration.  A stage waits for its
dependencies, is tried again when its provider fails, and a correction is skipped when the
corrections are used up.

The two bodies are the same but for the loop that tries a stage: `execute` counts its attempts in
two variables and gives up in the `else` of a `while`, `dispatch` reads the retries that were
consumed from the context and gives up inside a `while True`.

A provider is a function of the calls that were made so far, the current one last.  It returns a
result or raises a `DispatchProviderError`.
-/

namespace GpuManager.Dispatch

open PyStr

/-! ## Results and contexts -/

/-- The status of a result. -/
inductive StageStatus where
  | ok | failed | skipped
  deriving DecidableEq

/-- The literal of a status. -/
def StageStatus.value : StageStatus → PyStr
  | .ok => text "ok"
  | .failed => text "failed"
  | .skipped => text "skipped"

/-- `StageResult`. -/
structure StageResult (F : Type) where
  stageId : PyStr
  kind : PyStr
  provider : PyStr
  status : StageStatus
  data : PyDict PyStr (Json F)
  error : PyStr := []
  retries : ℤ := 0

/-- `is_ok`. -/
def StageResult.isOk {F : Type} (r : StageResult F) : Bool := r.status = .ok

/-- `StageContext`. -/
structure StageContext (F : Type) where
  originalPrompt : PyStr := []
  promptTarget : PyStr := text "prompt_enhance.inputs.prompt"
  enhancedPrompts : PyDict PyStr (Json F) := []
  artifacts : PyDict PyStr (PyDict PyStr (Json F)) := []
  qcResults : PyDict PyStr (PyDict PyStr (Json F)) := []
  retryCount : PyDict PyStr ℤ := []
  correctionLoopCount : ℤ := 0
  errors : List PyStr := []
  delegateDepth : ℤ := 0
  nestedContexts : PyDict PyStr (PyDict PyStr (Json F)) := []

namespace StageContext

variable {F : Type}

/-- `with_prompt`. -/
def withPrompt (context : StageContext F) (stageId : PyStr) (prompt : Json F) : StageContext F :=
  { context with enhancedPrompts := context.enhancedPrompts.set stageId prompt }

/-- `with_artifact`. -/
def withArtifact (context : StageContext F) (stageId : PyStr) (data : PyDict PyStr (Json F)) :
    StageContext F :=
  { context with artifacts := context.artifacts.set stageId data }

/-- `with_qc`. -/
def withQc (context : StageContext F) (stageId : PyStr) (result : PyDict PyStr (Json F)) :
    StageContext F :=
  { context with qcResults := context.qcResults.set stageId result }

/-- `with_retry`. -/
def withRetry (context : StageContext F) (stageId : PyStr) (consumed : ℤ) : StageContext F :=
  { context with retryCount := context.retryCount.set stageId consumed }

/-- `with_loop_increment`. -/
def withLoopIncrement (context : StageContext F) : StageContext F :=
  { context with correctionLoopCount := context.correctionLoopCount + 1 }

/-- `with_error`. -/
def withError (context : StageContext F) (error : PyStr) : StageContext F :=
  { context with errors := context.errors ++ [error] }

/-- `_update_context`. -/
def updateContext (stageId kind : PyStr) (result : StageResult F) (context : StageContext F) :
    StageContext F :=
  if kind = text "prompt_enhance" then
    context.withPrompt stageId ((result.data.get? (text "prompt")).getD (.str []))
  else if kind = text "generate" ∨ kind = text "delegate" then
    context.withArtifact stageId result.data
  else if kind = text "qc" then context.withQc stageId result.data
  else if kind = text "correct" then
    context.withLoopIncrement.withArtifact stageId result.data
  else context

end StageContext

/-! ## The executors -/

/-- A stage as the executors read it; what it need not have is optional. -/
structure Stage (F : Type) where
  id : PyStr
  kind : PyStr
  provider : PyStr
  params : Option (PyDict PyStr (Json F)) := none
  retries : Option ℤ := none
  dependsOn : Option (List PyStr) := none

/-- `max_corrections` and `max_retries` of an executor. -/
structure Bounds where
  maxCorrections : ℤ := 1
  maxRetries : ℤ := 3

/-- The arguments of a provider call. -/
structure ProviderCall (F : Type) where
  stageId : PyStr
  kind : PyStr
  provider : PyStr
  params : PyDict PyStr (Json F)
  context : StageContext F

/-- A provider answers the last of the calls so far, or raises a `DispatchProviderError`. -/
abbrev Provider (F : Type) := List (ProviderCall F) → Except PyStr (StageResult F)

structure ExecutorState (F : Type) where
  context : StageContext F
  results : List (StageResult F) := []
  stageMap : PyDict PyStr (StageResult F) := []
  calls : List (ProviderCall F) := []

/-- `DispatchContextError`: the stage, and the dependency that has no result. -/
structure DispatchContextError where
  stageId : PyStr
  dependency : PyStr
  deriving DecidableEq

/-- The text of the error. -/
def DispatchContextError.message (e : DispatchContextError) : PyStr :=
  text "stage '" ++ e.stageId ++ text "' depends on '" ++ e.dependency ++
    text "' which has no result"

/-- The calls that an executor made, and what it returned or raised. -/
structure Run (F : Type) where
  calls : List (ProviderCall F)
  outcome : Except DispatchContextError (StageContext F × List (StageResult F))

section Executors

variable {F : Type}

def Stage.stageRetries (stage : Stage F) (bounds : Bounds) : ℤ :=
  stage.retries.getD bounds.maxRetries

/-- A result of the executor itself. -/
def Stage.result (stage : Stage F) (status : StageStatus) (error : PyStr) (retries : ℤ) :
    StageResult F where
  stageId := stage.id
  kind := stage.kind
  provider := stage.provider
  status := status
  data := []
  error := error
  retries := retries

def Stage.call (stage : Stage F) (context : StageContext F) : ProviderCall F where
  stageId := stage.id
  kind := stage.kind
  provider := stage.provider
  params := stage.params.getD []
  context := context

namespace ExecutorState

def withError (s : ExecutorState F) (error : PyStr) : ExecutorState F :=
  { s with context := s.context.withError error }

def withRetry (s : ExecutorState F) (stageId : PyStr) (consumed : ℤ) : ExecutorState F :=
  { s with context := s.context.withRetry stageId consumed }

/-- `stage_map[sid] = result` and `results.append(result)`. -/
def record (s : ExecutorState F) (stageId : PyStr) (result : StageResult F) : ExecutorState F :=
  { s with stageMap := s.stageMap.set stageId result, results := s.results ++ [result] }

/-- A stage is skipped. -/
def skip (s : ExecutorState F) (stage : Stage F) (error reason : PyStr) : ExecutorState F :=
  (s.record stage.id (stage.result .skipped error 0)).withError
    (text "stage '" ++ stage.id ++ text "' skipped: " ++ reason)

/-- The call is made. -/
def called (s : ExecutorState F) (stage : Stage F) : ExecutorState F :=
  { s with calls := s.calls ++ [stage.call s.context] }

def update (s : ExecutorState F) (stage : Stage F) (result : StageResult F) : ExecutorState F :=
  if result.isOk then
    { s with context := s.context.updateContext stage.id stage.kind result }
  else
    s.withError (text "stage '" ++ stage.id ++ text "' returned status=" ++ result.status.value ++
      text ": " ++ result.error)

def returned (s : ExecutorState F) (stage : Stage F) (result : StageResult F) : ExecutorState F :=
  (s.record stage.id result).update stage result

def failed (s : ExecutorState F) (stage : Stage F) (attempt : ℕ) (consumed : ℤ)
    (lastError : PyStr) : ExecutorState F :=
  (s.withRetry stage.id consumed).withError
    (text "stage '" ++ stage.id ++ text "' attempt " ++ Json.natText attempt ++
      text " failed: " ++ lastError)

def giveUp (s : ExecutorState F) (stage : Stage F) (stageRetries consumed : ℤ)
    (lastError : PyStr) : ExecutorState F :=
  (s.record stage.id (stage.result .failed
    (text "retries exhausted (" ++ Json.intText stageRetries ++ text "): " ++ lastError)
    consumed)).withError
    (text "stage '" ++ stage.id ++ text "' failed permanently: " ++ lastError)

end ExecutorState

inductive FanIn where
  | missing (dependency : PyStr)
  | blocked (dependency : PyStr)
  | satisfied

/-- The loop over `depends_on`. -/
def fanIn (stageMap : PyDict PyStr (StageResult F)) : List PyStr → FanIn
  | [] => .satisfied
  | dependency :: dependencies =>
    match stageMap.get? dependency with
    | none => .missing dependency
    | some result =>
      if result.status = .failed then .blocked dependency else fanIn stageMap dependencies

/-- The loop of `execute` that tries a stage: `while attempt <= stage_retries`, with the counters
`attempt` and `consumed`.  The result that the last failure builds is not used. -/
def executeLoop (provider : Provider F) (stage : Stage F) (stageRetries : ℤ) (attempt : ℕ)
    (consumed : ℤ) (lastError : PyStr) (s : ExecutorState F) : ExecutorState F :=
  if (attempt : ℤ) ≤ stageRetries then
    let s := (s.withRetry stage.id consumed).called stage
    match provider s.calls with
    | .error lastError =>
      executeLoop provider stage stageRetries (attempt + 1) (consumed + 1) lastError
        (s.failed stage (attempt + 1) (consumed + 1) lastError)
    | .ok result => s.returned stage result
  else if (s.stageMap.get? stage.id).isNone then
    s.giveUp stage stageRetries ((s.context.retryCount.get? stage.id).getD 0) lastError
  else s
termination_by (stageRetries + 1 - attempt).toNat
decreasing_by omega

/-- The loop of `dispatch` that tries a stage: `while True`, with the retries that were consumed in
the context. -/
def dispatchLoop (provider : Provider F) (stage : Stage F) (stageRetries : ℤ) (attempt : ℕ)
    (s : ExecutorState F) : ExecutorState F :=
  let consumed := (s.context.retryCount.get? stage.id).getD 0
  let s := (s.withRetry stage.id consumed).called stage
  match provider s.calls with
  | .error lastError =>
    let s := s.failed stage (attempt + 1) (consumed + 1) lastError
    if stageRetries < (attempt + 1 : ℕ) then
      s.giveUp stage stageRetries (consumed + 1) lastError
    else dispatchLoop provider stage stageRetries (attempt + 1) s
  | .ok result => s.returned stage result
termination_by (stageRetries + 1 - attempt).toNat
decreasing_by omega

/-- A loop that tries a stage. -/
abbrev RetryLoop (F : Type) := Stage F → ℤ → ExecutorState F → ExecutorState F

/-- The loop over the stages, with a loop that tries a stage. -/
def runStages (retryLoop : RetryLoop F) (bounds : Bounds) :
    List (Stage F) → ExecutorState F → Run F
  | [], s => ⟨s.calls, .ok (s.context, s.results)⟩
  | stage :: stages, s =>
    match fanIn s.stageMap (stage.dependsOn.getD []) with
    | .missing dependency => ⟨s.calls, .error ⟨stage.id, dependency⟩⟩
    | .blocked dependency =>
      runStages retryLoop bounds stages
        (s.skip stage (text "depends_on stage '" ++ dependency ++ text "' failed")
          (text "dependency '" ++ dependency ++ text "' failed"))
    | .satisfied =>
      if stage.kind = text "correct" ∧
          bounds.maxCorrections ≤ s.context.correctionLoopCount then
        runStages retryLoop bounds stages
          (s.skip stage
            (text "max_loop_count " ++ Json.intText bounds.maxCorrections ++ text " reached")
            (text "loop bound " ++ Json.intText bounds.maxCorrections ++ text " reached"))
      else
        runStages retryLoop bounds stages (retryLoop stage (stage.stageRetries bounds) s)

/-- `PipelineExecutor.execute`. -/
def execute (provider : Provider F) (bounds : Bounds) (stages : List (Stage F))
    (context : StageContext F) : Run F :=
  runStages (fun stage stageRetries s => executeLoop provider stage stageRetries 0 0 [] s) bounds
    stages { context := context }

/-- `KreaPipelineExecutor.dispatch`. -/
def dispatch (provider : Provider F) (bounds : Bounds) (stages : List (Stage F))
    (context : StageContext F) : Run F :=
  runStages (fun stage stageRetries s => dispatchLoop provider stage stageRetries 0 s) bounds
    stages { context := context }

end Executors

end GpuManager.Dispatch
