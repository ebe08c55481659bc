import Mathlib.Tactic.Common
import GpuManager.Workflow.Contracts

/-!
# Workflow jobs and their reducers

A job pins a workflow definition at admission and records, for each stage, the attempt that
is under way.  The reducers are pure: each takes the job and the definition and returns the
next job or raises, and derives the status of the job anew.

`_payload_digest` and `workflow_fingerprint` are the same function of a JSON value, the
SHA-256 of its canonical text; it is the parameter `digest`, and there is no digest for a
value that has no such text.  What `apply_priority_contract` makes of the priority of a
submission is an argument of the admission.
-/

namespace GpuManager.Workflow

open PyStr

/-- `StageStatus`. -/
inductive StageStatus where
  | pending
  | ready
  | submitted
  | inFlight
  | succeeded
  | failed
  | cancelled
  | outcomeUnknown
  | awaitingReview
  | skipped
  deriving DecidableEq, Repr

/-- `WorkflowStatus`. -/
inductive WorkflowStatus where
  | accepted
  | running
  | completed
  | failed
  | cancelled
  | outcomeUnknown
  | awaitingReview
  deriving DecidableEq, Repr

/-- `_ACTIVE_STAGE_STATES`. -/
def StageStatus.active : StageStatus → Bool
  | ready => true
  | submitted => true
  | inFlight => true
  | _ => false

/-- The statuses that a dependency must have reached. -/
def StageStatus.settled : StageStatus → Bool
  | succeeded => true
  | skipped => true
  | _ => false

/-- `_TERMINAL_WORKFLOW_STATES`. -/
def WorkflowStatus.terminal : WorkflowStatus → Bool
  | accepted => false
  | running => false
  | _ => true

/-- `status.value`. -/
def WorkflowStatus.value : WorkflowStatus → PyStr
  | accepted => text "accepted"
  | running => text "running"
  | completed => text "completed"
  | failed => text "failed"
  | cancelled => text "cancelled"
  | outcomeUnknown => text "outcome_unknown"
  | awaitingReview => text "awaiting_review"

/-- `StageRecord`. -/
structure StageRecord (F : Type) where
  stageId : PyStr
  attempt : ℤ := 1
  status : StageStatus := .pending
  idempotencyKey : PyStr := []
  providerHandle : Option PyStr := none
  outputRefs : List PyStr := []
  error : Option PyStr := none
  updatedAt : F

/-- `WorkflowJob`. -/
structure WorkflowJob (F : Type) where
  jobId : PyStr
  serviceName : PyStr
  serviceRevision : PyStr
  workflowId : PyStr
  workflowRevision : ℤ
  workflowFingerprint : PyStr
  payloadDigest : PyStr
  idempotencyKey : PyStr
  priority : ℤ
  priorityClass : PyStr
  brokerPriority : ℤ
  status : WorkflowStatus := .accepted
  cancelRequested : Bool := false
  terminalReason : Option PyStr := none
  stages : List (StageRecord F)
  createdAt : F
  updatedAt : F

inductive WorkflowRuntimeError where
  | invalidWorkflow (errors : List DefinitionError)
  | blankField (field : String)
  | invalidPriority (reason : PyStr)
  | unknownStage (id : PyStr)
  | terminal (jobId : PyStr) (status : WorkflowStatus)
  | revisionChanged
  | notDependencyReady (id : PyStr)
  | notReady (id : PyStr)
  | blankIdempotencyKey
  | notSubmitted (id : PyStr)
  | blankProviderHandle
  | noAcceptedAttempt (id : PyStr)
  | noActiveAttempt (id : PyStr)
  | noAmbiguousAttempt (id : PyStr)

def WorkflowRuntimeError.message : WorkflowRuntimeError → PyStr
  | invalidWorkflow errors =>
    text "invalid workflow: " ++ List.intercalate (text "; ") (errors.map DefinitionError.message)
  | blankField field => text (field ++ " must be a non-empty string")
  | invalidPriority reason => text "invalid priority: " ++ reason
  | unknownStage id => text "unknown stage " ++ quoted id
  | terminal jobId status => text "job " ++ jobId ++ text " is terminal (" ++ status.value ++
      text "); late completion rejected"
  | revisionChanged =>
    text "workflow revision changed after admission; refresh the pinned definition"
  | notDependencyReady id => text "stage " ++ quoted id ++ text " is not dependency-ready"
  | notReady id => text "stage " ++ quoted id ++ text " is not ready"
  | blankIdempotencyKey => text "stage idempotency_key must be non-empty"
  | notSubmitted id => text "stage " ++ quoted id ++ text " is not submitted"
  | blankProviderHandle => text "provider_handle must be non-empty"
  | noAcceptedAttempt id => text "stage " ++ quoted id ++ text " has no accepted provider attempt"
  | noActiveAttempt id => text "stage " ++ quoted id ++ text " has no active provider attempt"
  | noAmbiguousAttempt id =>
    text "stage " ++ quoted id ++ text " has no ambiguous provider attempt"

/-- What a reducer raises: its own error, the validator's `TypeError`, or what `json.dumps`
and `encode` raise for a value without a canonical text. -/
inductive Raised where
  | runtime (e : WorkflowRuntimeError)
  | typeError (e : TypeError)
  | undigestable

section Reducers

variable {F : Type} (digest : Json F → Option PyStr)

/-- `_stage_map(definition).get(id)`. -/
def stageMap (definition : Json F) (id : PyStr) : Option (Json F) :=
  (stagesOf definition).reverse.find? fun stage =>
    stage.isObj && (stage.get "id").str? = some id

/-- `_stage_enabled(_stage_map(definition).get(id, {}))`. -/
def enabledIn (definition : Json F) (id : PyStr) : Bool :=
  ((stageMap definition id).map stageEnabled).getD true

/-- `WorkflowJob.stage`. -/
def WorkflowJob.stage (job : WorkflowJob F) (id : PyStr) : Except Raised (StageRecord F) :=
  match job.stages.find? fun r => r.stageId = id with
  | some record => .ok record
  | none => .error (.runtime (.unknownStage id))

/-- `_replace_stage`. -/
def replaceStage (job : WorkflowJob F) (record : StageRecord F) (now : F) : WorkflowJob F :=
  { job with
    stages := job.stages.map fun r => if r.stageId = record.stageId then record else r
    updatedAt := now }

/-- `_derive_status`. -/
def deriveStatus (job : WorkflowJob F) (definition : Json F) : WorkflowStatus :=
  if job.stages.any fun r => r.status = .outcomeUnknown then .outcomeUnknown
  else if job.stages.any fun r => r.status = .awaitingReview then .awaitingReview
  else if job.stages.any fun r => r.status = .failed then .failed
  else if job.cancelRequested then
    if job.stages.any fun r => r.status.active then .running else .cancelled
  else
    let enabled := job.stages.filter fun r => enabledIn definition r.stageId
    if enabled ≠ [] ∧ enabled.all fun r => r.status.settled then .completed
    else if job.stages.any fun r => r.status.active || r.status = .succeeded then .running
    else .accepted

/-- `_with_status`. -/
def withStatus (job : WorkflowJob F) (definition : Json F) (now : F) : WorkflowJob F :=
  let status := deriveStatus job definition
  { job with
    status := status
    terminalReason :=
      if status.terminal && job.terminalReason.isNone then some status.value
      else job.terminalReason
    updatedAt := now }

/-- `all(job.stage(dep).status in {SUCCEEDED, SKIPPED} for dep in dependencies)`. -/
def dependenciesMet (job : WorkflowJob F) : List PyStr → Except Raised Bool
  | [] => .ok true
  | dep :: deps => do
      let record ← job.stage dep
      if record.status.settled then dependenciesMet job deps else return false

def stageReady (job : WorkflowJob F) (definition : Json F) (record : StageRecord F) :
    Except Raised Bool :=
  match stageMap definition record.stageId with
  | none => .ok false
  | some stage =>
    if record.status ≠ .pending then .ok false
    else if !stageEnabled stage then .ok false
    else dependenciesMet job (dependsOn stage)

/-- The loop of `ready_stage_ids`. -/
def readyAmong (job : WorkflowJob F) (definition : Json F) :
    List (StageRecord F) → Except Raised (List PyStr)
  | [] => .ok []
  | record :: records => do
      let ready ← stageReady job definition record
      let rest ← readyAmong job definition records
      return if ready then record.stageId :: rest else rest

/-- `ready_stage_ids`, of a definition that the validator accepts. -/
def readyStageIds (job : WorkflowJob F) (definition : Json F) : Except Raised (List PyStr) :=
  readyAmong job definition job.stages

structure Contracted where
  priority : ℤ
  priorityClass : PyStr
  brokerPriority : ℤ

/-- The arguments of `accept_workflow`.  The priority is the outcome of
`apply_priority_contract`, or the text of what it raises. -/
structure Admission (F : Type) where
  jobId : PyStr
  serviceName : PyStr
  serviceRevision : PyStr
  payload : Json F
  idempotencyKey : PyStr
  priority : Except PyStr Contracted
  now : F

/-- `validate_workflow_definition` as the reducers call it. -/
def requireValid (definition : Json F) : Except Raised Unit :=
  match validateWorkflowDefinition definition with
  | .error e => .error (.typeError e)
  | .ok [] => .ok ()
  | .ok errors => .error (.runtime (.invalidWorkflow errors))

def digestOf (value : Json F) : Except Raised PyStr :=
  match digest value with
  | some d => .ok d
  | none => .error .undigestable

/-- `if not p: raise`. -/
def require (p : Prop) [Decidable p] (e : WorkflowRuntimeError) : Except Raised Unit :=
  if p then .ok () else .error (.runtime e)

/-- `isinstance(value, str) and value.strip()`, else an error that names the field. -/
def requireText (field : String) (value : PyStr) : Except Raised Unit :=
  require (blank value = false) (.blankField field)

/-- `str(definition["id"])` and `int(definition.get("revision", 1))`. -/
def workflowId (definition : Json F) : PyStr := ((definition.get "id").str?).getD []

def workflowRevision (definition : Json F) : ℤ :=
  match definition.get? "revision" with
  | some (.int n) => n
  | _ => 1

def admittedStage (now : F) (stage : Json F) : StageRecord F where
  stageId := ((stage.get "id").str?).getD []
  status := if stageEnabled stage then .pending else .skipped
  updatedAt := now

/-- `accept_workflow`. -/
def acceptWorkflow (definition : Json F) (a : Admission F) : Except Raised (WorkflowJob F) := do
  requireValid definition
  requireText "job_id" a.jobId
  requireText "service_name" a.serviceName
  requireText "service_revision" a.serviceRevision
  requireText "idempotency_key" a.idempotencyKey
  let contracted ← a.priority.mapError fun reason => .runtime (.invalidPriority reason)
  let fingerprint ← digestOf digest definition
  let payloadDigest ← digestOf digest a.payload
  return {
    jobId := a.jobId
    serviceName := a.serviceName
    serviceRevision := a.serviceRevision
    workflowId := workflowId definition
    workflowRevision := workflowRevision definition
    workflowFingerprint := fingerprint
    payloadDigest := payloadDigest
    idempotencyKey := a.idempotencyKey
    priority := contracted.priority
    priorityClass := contracted.priorityClass
    brokerPriority := contracted.brokerPriority
    stages := (stagesOf definition).map (admittedStage a.now)
    createdAt := a.now
    updatedAt := a.now }

/-- `_require_mutable`. -/
def requireMutable (job : WorkflowJob F) : Except Raised Unit :=
  require (job.status.terminal = false) (.terminal job.jobId job.status)

/-- `_require_pinned_definition`. -/
def requirePinnedDefinition (job : WorkflowJob F) (definition : Json F) : Except Raised Unit := do
  requireValid definition
  let observed ← digestOf digest definition
  require (workflowId definition = job.workflowId ∧
    workflowRevision definition = job.workflowRevision ∧ observed = job.workflowFingerprint)
    .revisionChanged

/-- `mark_stage_ready`. -/
def markStageReady (job : WorkflowJob F) (definition : Json F) (stageId : PyStr) (now : F) :
    Except Raised (WorkflowJob F) := do
  requirePinnedDefinition digest job definition
  requireMutable job
  let ready ← readyStageIds job definition
  require (stageId ∈ ready) (.notDependencyReady stageId)
  let record ← job.stage stageId
  return withStatus (replaceStage job { record with status := .ready } now) definition now

/-- The reducers that move one attempt on: the stage must be in one of the statuses `from_`,
and the arguments must pass a check. -/
def moveStage (job : WorkflowJob F) (definition : Json F) (stageId : PyStr)
    (from_ : List StageStatus) (refusal : WorkflowRuntimeError) (check : Except Raised Unit)
    (update : StageRecord F → StageRecord F) (now : F) : Except Raised (WorkflowJob F) := do
  requirePinnedDefinition digest job definition
  requireMutable job
  let current ← job.stage stageId
  require (current.status ∈ from_) refusal
  check
  return withStatus (replaceStage job (update current) now) definition now

/-- `submit_stage`. -/
def submitStage (job : WorkflowJob F) (definition : Json F) (stageId idempotencyKey : PyStr)
    (now : F) : Except Raised (WorkflowJob F) :=
  moveStage digest job definition stageId [.ready] (.notReady stageId)
    (require (blank idempotencyKey = false) .blankIdempotencyKey)
    (fun r => { r with status := .submitted, idempotencyKey := idempotencyKey, error := none }) now

/-- `accept_stage`. -/
def acceptStage (job : WorkflowJob F) (definition : Json F) (stageId providerHandle : PyStr)
    (now : F) : Except Raised (WorkflowJob F) :=
  moveStage digest job definition stageId [.submitted] (.notSubmitted stageId)
    (require (blank providerHandle = false) .blankProviderHandle)
    (fun r => { r with status := .inFlight, providerHandle := some providerHandle }) now

/-- `complete_stage`. -/
def completeStage (job : WorkflowJob F) (definition : Json F) (stageId : PyStr)
    (outputRefs : List PyStr) (now : F) : Except Raised (WorkflowJob F) :=
  moveStage digest job definition stageId [.submitted, .inFlight] (.noAcceptedAttempt stageId)
    (.ok ())
    (fun r => { r with status := .succeeded, outputRefs := outputRefs, error := none }) now

/-- `fail_stage`.  A retry starts a new record, ready at once. -/
def failStage (job : WorkflowJob F) (definition : Json F) (stageId error : PyStr) (retry : Bool)
    (now : F) : Except Raised (WorkflowJob F) :=
  moveStage digest job definition stageId [.submitted, .inFlight] (.noActiveAttempt stageId)
    (.ok ())
    (fun r =>
      if retry then
        { stageId := stageId, attempt := r.attempt + 1, status := .ready,
          error := some (error.take 1000), updatedAt := now }
      else { r with status := .failed, error := some (error.take 1000), updatedAt := now }) now

/-- `mark_outcome_unknown`. -/
def markOutcomeUnknown (job : WorkflowJob F) (definition : Json F) (stageId error : PyStr)
    (now : F) : Except Raised (WorkflowJob F) :=
  moveStage digest job definition stageId [.submitted, .inFlight] (.noAmbiguousAttempt stageId)
    (.ok ())
    (fun r => { r with status := .outcomeUnknown, error := some (error.take 1000) }) now

def StageRecord.cancel (reason : PyStr) (now : F) (r : StageRecord F) : StageRecord F :=
  if r.status = .pending ∨ r.status = .ready then
    { r with status := .cancelled, error := some reason, updatedAt := now }
  else r

/-- `request_cancel`. -/
def requestCancel (job : WorkflowJob F) (definition : Json F) (reason : PyStr) (now : F) :
    Except Raised (WorkflowJob F) := do
  requirePinnedDefinition digest job definition
  if job.status.terminal then return job
  return withStatus
    { job with
      cancelRequested := true
      terminalReason := some reason
      stages := job.stages.map (StageRecord.cancel reason now) } definition now

end Reducers

end GpuManager.Workflow
