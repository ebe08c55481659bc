import GpuManager.Lib.FileBacked
import GpuManager.Lib.PyDict
import GpuManager.Workflow.Runtime

/-!
# The workflow stores

The two stores hold the jobs under their ids and, for each service and idempotency key, the
digest and the job of the submission.  `InMemoryWorkflowStore` keeps them in memory;
`FileWorkflowStore` also writes the whole document to its file at every change and reads the
file back when it is first used.

`json.loads` and `json.dump` are parameters: a text may be no JSON document, and a document
may be one that cannot be written.  What `str`, `int` and `float` make of a value of another
type only matters for a file that no store has written (`Coercions`).
-/

namespace GpuManager.Workflow

open PyStr

variable {F : Type}

/-! ## Operations on the view -/

/-- The two dictionaries of a store. -/
structure StoreView (F : Type) where
  jobs : PyDict PyStr (WorkflowJob F) := []
  idempotency : PyDict (PyStr × PyStr) (PyStr × PyStr) := []

/-- What a store raises besides what the reducers do. -/
inductive StoreError where
  | reducer (e : Raised)
  | idempotencyConflict
  | duplicateJob (id : PyStr)
  | unknownJob (id : PyStr)
  | keyError (id : PyStr)
  | identityField (field : String)
  | idempotencyIndex
  | unwritable

def StoreError.message : StoreError → PyStr
  | reducer (.runtime e) => e.message
  | reducer _ => []
  | idempotencyConflict => text "idempotency key reused with a different payload"
  | duplicateJob id => text "job_id already exists: " ++ id
  | unknownJob id => text "unknown job " ++ quoted id
  | keyError id => quoted id
  | identityField field => text ("workflow identity field '" ++ field ++ "' cannot change")
  | idempotencyIndex => text "workflow idempotency index does not match job"
  | unwritable => []

/-- What a call returns: a job, and for `create` whether it is new. -/
inductive Answer (F : Type) where
  | created (job : WorkflowJob F) (new : Bool)
  | job (job : WorkflowJob F)

/-- A call of a store. -/
inductive StoreCall (F : Type) where
  | create (definition : Json F) (a : Admission F)
  | get (jobId : PyStr)
  | put (job : WorkflowJob F)

/-- The admission of a job: `create` of both stores, on a given view. -/
def admitJob (digest : Json F → Option PyStr) (view : StoreView F) (definition : Json F)
    (a : Admission F) (payloadHash : PyStr) :
    Except StoreError (WorkflowJob F ⊕ (WorkflowJob F × StoreView F)) :=
  match view.idempotency.get? (a.serviceName, a.idempotencyKey) with
  | some (priorHash, priorId) =>
    if priorHash ≠ payloadHash then .error .idempotencyConflict
    else
      match view.jobs.get? priorId with
      | some job => .ok (.inl job)
      | none => .error (.keyError priorId)
  | none =>
    if (view.jobs.get? a.jobId).isSome then .error (.duplicateJob a.jobId)
    else
      match acceptWorkflow digest definition a with
      | .error e => .error (.reducer e)
      | .ok job =>
        .ok (.inr (job,
          { jobs := view.jobs.set a.jobId job
            idempotency := view.idempotency.set (a.serviceName, a.idempotencyKey)
              (payloadHash, a.jobId) }))

/-- `get` of both stores. -/
def StoreView.get (view : StoreView F) (jobId : PyStr) : Except StoreError (WorkflowJob F) :=
  match view.jobs.get? jobId with
  | some job => .ok job
  | none => .error (.unknownJob jobId)

def memoryCall (digest : Json F → Option PyStr) (view : StoreView F) :
    StoreCall F → Except StoreError (Answer F) × StoreView F
  | .create definition a =>
    match digest a.payload with
    | none => (.error (.reducer .undigestable), view)
    | some payloadHash =>
      match admitJob digest view definition a payloadHash with
      | .error e => (.error e, view)
      | .ok (.inl job) => (.ok (.created job false), view)
      | .ok (.inr (job, next)) => (.ok (.created job true), next)
  | .get jobId => ((view.get jobId).map .job, view)
  | .put job =>
    match view.jobs.get? job.jobId with
    | none => (.error (.unknownJob job.jobId), view)
    | some _ => (.ok (.job job), { view with jobs := view.jobs.set job.jobId job })

/-! ## The document -/

/-- What `str(x)`, `int(x)`, `float(x)` and `bool(x)` make of a value that is not of the
type already; `none` when they raise. -/
structure Coercions (F : Type) where
  str : Json F → PyStr
  int : Json F → Option ℤ
  float : Json F → Option F
  bool : Json F → Bool

def Coercions.toStr (c : Coercions F) : Json F → PyStr
  | .str s => s
  | value => c.str value

def Coercions.toInt (c : Coercions F) : Json F → Option ℤ
  | .int n => some n
  | value => c.int value

def Coercions.toFloat (c : Coercions F) : Json F → Option F
  | .float x => some x
  | value => c.float value

def Coercions.toBool (c : Coercions F) : Json F → Bool
  | .bool b => b
  | value => c.bool value

def Coercions.toStr? (c : Coercions F) (value : Json F) : Option PyStr :=
  if value.isNull then none else some (c.toStr value)

/-- The items of an iterable; a number, a boolean and `None` are none. -/
def iterate : Json F → Option (List (Json F))
  | .arr items => some items
  | .str s => some (s.map fun c => .str [c])
  | .obj members => some (members.map fun m => .str m.1)
  | _ => none

/-- `None` or a string, as JSON. -/
def optional : Option PyStr → Json F
  | none => .null
  | some s => .str s

/-- `status.value`. -/
def StageStatus.value : StageStatus → PyStr
  | pending => text "pending"
  | ready => text "ready"
  | submitted => text "submitted"
  | inFlight => text "in_flight"
  | succeeded => text "succeeded"
  | failed => text "failed"
  | cancelled => text "cancelled"
  | outcomeUnknown => text "outcome_unknown"
  | awaitingReview => text "awaiting_review"
  | skipped => text "skipped"

/-- `StageStatus(value)`. -/
def StageStatus.ofValue (value : PyStr) : Option StageStatus :=
  [pending, ready, submitted, inFlight, succeeded, failed, cancelled, outcomeUnknown,
    awaitingReview, skipped].find? fun s => s.value = value

/-- `WorkflowStatus(value)`. -/
def WorkflowStatus.ofValue (value : PyStr) : Option WorkflowStatus :=
  [accepted, running, completed, failed, cancelled, outcomeUnknown, awaitingReview].find?
    fun s => s.value = value

/-- `_stage_to_dict`. -/
def stageToDict (r : StageRecord F) : Json F :=
  .obj [(text "stage_id", .str r.stageId), (text "attempt", .int r.attempt),
    (text "status", .str r.status.value), (text "idempotency_key", .str r.idempotencyKey),
    (text "provider_handle", optional r.providerHandle),
    (text "output_refs", .arr (r.outputRefs.map .str)), (text "error", optional r.error),
    (text "updated_at", .float r.updatedAt)]

/-- `_job_to_dict`. -/
def jobToDict (job : WorkflowJob F) : Json F :=
  .obj [(text "job_id", .str job.jobId), (text "service_name", .str job.serviceName),
    (text "service_revision", .str job.serviceRevision),
    (text "workflow_id", .str job.workflowId), (text "workflow_revision", .int job.workflowRevision),
    (text "workflow_fingerprint", .str job.workflowFingerprint),
    (text "payload_digest", .str job.payloadDigest),
    (text "idempotency_key", .str job.idempotencyKey), (text "priority", .int job.priority),
    (text "priority_class", .str job.priorityClass),
    (text "broker_priority", .int job.brokerPriority), (text "status", .str job.status.value),
    (text "cancel_requested", .bool job.cancelRequested),
    (text "terminal_reason", optional job.terminalReason),
    (text "stages", .arr (job.stages.map stageToDict)), (text "created_at", .float job.createdAt),
    (text "updated_at", .float job.updatedAt)]

/-- `_stage_from_dict`. -/
def stageFromDict (c : Coercions F) (value : Json F) : Option (StageRecord F) := do
  guard value.isObj
  let outputs ← iterate (← value.get? "output_refs")
  return {
    stageId := c.toStr (← value.get? "stage_id")
    attempt := ← c.toInt (← value.get? "attempt")
    status := ← StageStatus.ofValue (c.toStr (← value.get? "status"))
    idempotencyKey := c.toStr (← value.get? "idempotency_key")
    providerHandle := c.toStr? (value.get "provider_handle")
    outputRefs := outputs.map c.toStr
    error := c.toStr? (value.get "error")
    updatedAt := ← c.toFloat (← value.get? "updated_at") }

/-- `_job_from_dict`. -/
def jobFromDict (c : Coercions F) (value : Json F) : Option (WorkflowJob F) := do
  guard value.isObj
  let stages ← (← iterate (← value.get? "stages")).mapM (stageFromDict c)
  return {
    jobId := c.toStr (← value.get? "job_id")
    serviceName := c.toStr (← value.get? "service_name")
    serviceRevision := c.toStr (← value.get? "service_revision")
    workflowId := c.toStr (← value.get? "workflow_id")
    workflowRevision := ← c.toInt (← value.get? "workflow_revision")
    workflowFingerprint := c.toStr (← value.get? "workflow_fingerprint")
    payloadDigest := c.toStr (← value.get? "payload_digest")
    idempotencyKey := c.toStr (← value.get? "idempotency_key")
    priority := ← c.toInt (← value.get? "priority")
    priorityClass := c.toStr (← value.get? "priority_class")
    brokerPriority := ← c.toInt (← value.get? "broker_priority")
    status := ← WorkflowStatus.ofValue (c.toStr (← value.get? "status"))
    cancelRequested := c.toBool (← value.get? "cancel_requested")
    terminalReason := c.toStr? (value.get "terminal_reason")
    stages := stages
    createdAt := ← c.toFloat (← value.get? "created_at")
    updatedAt := ← c.toFloat (← value.get? "updated_at") }

/-- The document of `_write_locked`. -/
def storeDocument (view : StoreView F) : Json F :=
  .obj [(text "schema", .str (text "workflow-runtime-store.v1")),
    (text "jobs", .obj (view.jobs.map fun e => (e.1, jobToDict e.2))),
    (text "idempotency", .arr (view.idempotency.map fun e =>
      .obj [(text "service_name", .str e.1.1), (text "idempotency_key", .str e.1.2),
        (text "payload_digest", .str e.2.1), (text "job_id", .str e.2.2)]))]

def loadJobs (c : Coercions F) :
    List (PyStr × Json F) → Option (PyDict PyStr (WorkflowJob F))
  | [] => some []
  | (id, value) :: members => do
      let job ← jobFromDict c value
      guard (id = job.jobId)
      let jobs ← loadJobs c members
      return (id, job) :: jobs

/-- The idempotency records of a document, each of a job that it matches. -/
def loadIdempotency (c : Coercions F) (jobs : PyDict PyStr (WorkflowJob F)) :
    List (Json F) → PyDict (PyStr × PyStr) (PyStr × PyStr) →
      Option (PyDict (PyStr × PyStr) (PyStr × PyStr))
  | [], idempotency => some idempotency
  | item :: items, idempotency => do
      guard item.isObj
      let service := c.toStr (← item.get? "service_name")
      let key := c.toStr (← item.get? "idempotency_key")
      let payloadDigest := c.toStr (← item.get? "payload_digest")
      let jobId := c.toStr (← item.get? "job_id")
      let job ← jobs.get? jobId
      guard (service = job.serviceName ∧ key = job.idempotencyKey ∧
        payloadDigest = job.payloadDigest)
      guard (idempotency.get? (service, key)).isNone
      loadIdempotency c jobs items (idempotency ++ [((service, key), (payloadDigest, jobId))])

/-- The validation of `_read_locked`. -/
def loadDocument (c : Coercions F) (raw : Json F) : Option (StoreView F) :=
  if (raw.get "schema").str? ≠ some (text "workflow-runtime-store.v1") then none
  else
    match raw.get "jobs", raw.get "idempotency" with
    | .obj members, .arr items => do
        let jobs ← loadJobs c members
        let idempotency ← loadIdempotency c jobs items []
        return { jobs := jobs, idempotency := idempotency }
    | _, _ => none

/-! ## The file store -/

/-- `json.loads` of the text of a file and `json.dump` of a document, to texts of a type `C`. -/
structure JsonText (F C : Type) where
  loads : C → Option (Json F)
  dumps : Json F → Option C

section FileStore

variable {C : Type} (digest : Json F → Option PyStr) (c : Coercions F) (json : JsonText F C)

def storeFormat : FileBacked.Format (StoreView F) C where
  load content := (json.loads content).bind (loadDocument c)
  empty := {}

/-- `_write_locked` of the next view; a document that `json.dump` refuses is never written. -/
def persist (next : StoreView F) (answer : Answer F) :
    FileBacked.Effect (StoreView F) C (Except StoreError (Answer F)) :=
  match json.dumps (storeDocument next) with
  | none => .answer (.error .unwritable)
  | some document => .commit next document (.ok answer)

/-- The identity field of a job that `put` must not change. -/
def changedField (job current : WorkflowJob F) : Option String :=
  if job.serviceName ≠ current.serviceName then some "service_name"
  else if job.serviceRevision ≠ current.serviceRevision then some "service_revision"
  else if job.workflowId ≠ current.workflowId then some "workflow_id"
  else if job.workflowRevision ≠ current.workflowRevision then some "workflow_revision"
  else if job.workflowFingerprint ≠ current.workflowFingerprint then some "workflow_fingerprint"
  else if job.payloadDigest ≠ current.payloadDigest then some "payload_digest"
  else if job.idempotencyKey ≠ current.idempotencyKey then some "idempotency_key"
  else none

/-- `create` digests its payload before it takes the lock. -/
def storeEarly : StoreCall F → Option (Except StoreError (Answer F))
  | .create _ a => if (digest a.payload).isNone then some (.error (.reducer .undigestable)) else none
  | _ => none

/-- A call of a `FileWorkflowStore` on its loaded view. -/
def storeExec (view : StoreView F) :
    StoreCall F → FileBacked.Effect (StoreView F) C (Except StoreError (Answer F))
  | .create definition a =>
    match digest a.payload with
    | none => .answer (.error (.reducer .undigestable))
    | some payloadHash =>
      match admitJob digest view definition a payloadHash with
      | .error e => .answer (.error e)
      | .ok (.inl job) => .answer (.ok (.created job false))
      | .ok (.inr (job, next)) => persist json next (.created job true)
  | .get jobId => .answer ((view.get jobId).map .job)
  | .put job =>
    match view.jobs.get? job.jobId with
    | none => .answer (.error (.unknownJob job.jobId))
    | some current =>
      match changedField job current with
      | some field => .answer (.error (.identityField field))
      | none =>
        if ((view.idempotency.get? (job.serviceName, job.idempotencyKey)).map (·.2)) ≠
            some job.jobId then
          .answer (.error .idempotencyIndex)
        else persist json { view with jobs := view.jobs.set job.jobId job } (.job job)

end FileStore

end GpuManager.Workflow
