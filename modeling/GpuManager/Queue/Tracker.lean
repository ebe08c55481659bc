import GpuManager.Queue.Calls

/-!
# The job tracker

The methods of `JobTracker` that give a job its identity and its record: the id from a
counter that wraps at 9999, the idempotency marker, the job hash, and the heartbeat.  Like
every method, each is a program over its round trips.
-/

namespace GpuManager.Queue

open AtomicProgram Redis PythonText

/-! ## Job ids -/

/-- `COUNTER_KEY`. -/
def counterKey : String := "job_counter"

/-- `f"{n:04d}"`, where the sign counts as one of the characters. -/
def fourDigits (n : ℤ) : String :=
  if n < 0 then "-" ++ String.ofList ((toString n.natAbs).toList.leftpad 3 '0')
  else String.ofList ((toString n.natAbs).toList.leftpad 4 '0')

/-- `f"J-{val:04d}"`. -/
def jobIdOf (val : ℤ) : String := "J-" ++ fourDigits val

/-- `int(pipe.get(…) or 0)`. -/
def counterValue : Option Text → Except QueueError ℤ
  | none => .ok 0
  | some (.plain "") => .ok 0
  | some (.plain text) =>
    match int text with
    | some n => .ok n
    | none => .error (.valueError "invalid literal for int() with base 10")
  | some (.object _) => .error (.valueError "invalid literal for int() with base 10")

/-- The counter is set back to 1, unless another client has written it since. -/
def resetCounter (watched : ℕ) : Action (Option String) := do
  let executed : Bool ← redis (.execSet counterKey watched (.plain "1"))
  if executed then pure (some (jobIdOf 1))
  else Prog.throw (.redisError "Watched variable changed.")

/-- The body of `next_job_id`. -/
def drawJobId : Action (Option String) := do
  let val : ℤ ← redis (.incr counterKey)
  if val > 9999 then
    let watched : ℕ ← redis (.watch counterKey)
    let text : Option Text ← redis (.get counterKey)
    let current ← raising (counterValue text)
    if current > 9999 then resetCounter watched
    else pure (some (jobIdOf current))
  else pure (some (jobIdOf val))

/-! ## Job hashes -/

/-- The arguments of `create_job`; a revision is kept as its text. -/
structure NewJob where
  serviceName : String
  source : String
  prompt : String
  maxTokens : ℤ
  routingGroup : String := ""
  priority : Option ℤ := none
  priorityClass : Option String := none
  brokerPriority : Option ℤ := none
  parentJobId : String := ""
  priorityConvention : Option String := none
  prioritySource : Option String := none
  idempotencyKeySha256 : Option String := none
  requestSha256 : Option String := none
  serviceRevision : Option String := none
  serviceRevisionFingerprint : Option String := none
  workflowRevision : Option String := none
  workflowFingerprint : Option String := none

def optionalField (name : String) (value : Option String) : Fields :=
  match value with
  | none => []
  | some text => [(name, text)]

/-- What `create_job` writes. -/
def NewJob.fields (job : NewJob) (jobId now : String) : Fields :=
  [("job_id", jobId), ("service_name", job.serviceName), ("routing_group", job.routingGroup),
    ("status", "queued"), ("source", job.source), ("submitted_at", now), ("started_at", ""),
    ("completed_at", ""), ("assigned_slot", ""), ("prompt_preview", slice 200 job.prompt),
    ("max_tokens", toString job.maxTokens), ("result", ""), ("error", ""), ("position", "")] ++
  optionalField "priority" (job.priority.map toString) ++
  optionalField "priority_class" (nonempty job.priorityClass) ++
  optionalField "broker_priority" (job.brokerPriority.map toString) ++
  optionalField "priority_convention" (nonempty job.priorityConvention) ++
  optionalField "priority_source" (nonempty job.prioritySource) ++
  optionalField "idempotency_key_sha256" (nonempty job.idempotencyKeySha256) ++
  optionalField "request_sha256" (nonempty job.requestSha256) ++
  optionalField "parent_job_id" (nonempty (some job.parentJobId)) ++
  optionalField "service_revision" (nonempty job.serviceRevision) ++
  optionalField "service_revision_fingerprint"
    (nonempty job.serviceRevisionFingerprint) ++
  optionalField "workflow_revision" (nonempty job.workflowRevision) ++
  optionalField "workflow_fingerprint" (nonempty job.workflowFingerprint)

theorem mem_optionalField {name : String} {value : Option String} {f : String × String}
    (h : f ∈ optionalField name value) : f.1 = name := by
  unfold optionalField at h
  split at h
  · cases h
  · obtain rfl := List.mem_singleton.mp h
    rfl

/-- A new job is queued. -/
theorem setFields_newJob (h : String → Option String) (job : NewJob) (jobId now : String) :
    setFields h (job.fields jobId now) "status" = some "queued" := by
  apply setFields_of_mem
  · simp [NewJob.fields]
  · intro f hf hstatus
    simp only [NewJob.fields, List.mem_append] at hf
    rcases hf with (((((((((((hf | hf) | hf) | hf) | hf) | hf) | hf) | hf) | hf) | hf) | hf) | hf) | hf
    · simp only [List.mem_cons, List.not_mem_nil, or_false] at hf
      rcases hf with rfl | rfl | rfl | rfl | rfl | rfl | rfl | rfl | rfl | rfl | rfl | rfl | rfl | rfl <;>
        first | rfl | simp at hstatus
    all_goals
      rw [mem_optionalField hf] at hstatus
      simp at hstatus

/-- The body of `create_job`. -/
def writeNewJob (jobId : String) (job : NewJob) (now : String) : Action (Option Fields) := do
  redis (.hset (jobKey jobId) (job.fields jobId now))
  redis (.persist (jobKey jobId))
  pure (some (job.fields jobId now))

/-! ## Markers -/

structure Marker where
  jobId : String
  requestSha256 : String
  serviceName : String := ""
  routingGroup : String := ""

def Marker.object (marker : Marker) : Fields :=
  [("job_id", marker.jobId), ("request_sha256", marker.requestSha256),
    ("routing_group", marker.routingGroup), ("service_name", marker.serviceName)]

/-- What `claim_idempotency` returns. -/
inductive MarkerReply where
  | claimed (marker : Marker)
  | replay (marker : Marker)
  | conflict
  | unavailable (error : String)

def readMarker (requestSha256 : String) : Option Text → MarkerReply
  | none => .unavailable "idempotency marker disappeared"
  | some (.plain _) => .unavailable "idempotency marker invalid"
  | some (.object prior) =>
    if getField prior "request_sha256" ≠ some requestSha256 then .conflict
    else
      match nonempty (getField prior "job_id") with
      | none => .unavailable "idempotency marker missing job"
      | some jobId => .replay
          { jobId := jobId, requestSha256 := requestSha256
            serviceName := (getField prior "service_name").getD ""
            routingGroup := (getField prior "routing_group").getD "" }

/-- The body of `claim_idempotency`, past the checks of its arguments; the digest is the one
of the caller's key. -/
def claimMarker (digest : String) (marker : Marker) : Action MarkerReply := do
  let claimed : Bool ← redis (.setNx (markerKey digest) (.object marker.object))
  if claimed then pure (.claimed marker)
  else
    let existing : Option Text ← redis (.get (markerKey digest))
    pure (readMarker marker.requestSha256 existing)

namespace JobTracker

/-- `JobTracker.next_job_id`. -/
def nextJobId : Action (Option String) := catching isRedisError none drawJobId

/-- `JobTracker.create_job`. -/
def createJob (jobId : String) (job : NewJob) (now : String) : Action (Option Fields) :=
  catching isRedisError none (writeNewJob jobId job now)

/-- `JobTracker.claim_idempotency`, with `digest` for the hash of the caller's key. -/
def claimIdempotency (digest : String → String) (idempotencyKey : String) (marker : Marker)
    (ttlSeconds : ℤ) : Action MarkerReply :=
  if strip idempotencyKey = "" then
    Prog.throw (.valueError "idempotency_key must be a non-empty string")
  else if idempotencyKey.length > 256 then
    Prog.throw (.valueError "idempotency_key exceeds 256 characters")
  else if marker.requestSha256.length ≠ 64 then
    Prog.throw (.valueError "request_sha256 must be a SHA-256 hex digest")
  else if strip marker.jobId = "" then
    Prog.throw (.valueError "job_id must be a non-empty string")
  else if ttlSeconds ≤ 0 then Prog.throw (.valueError "ttl_seconds must be positive")
  else catching isRedisError (.unavailable "idempotency store unavailable")
    (claimMarker (digest idempotencyKey) marker)

/-- `JobTracker.update_heartbeat`. -/
def updateHeartbeat (jobId : String) (updates : Fields) : Action Bool :=
  if updates = [] then pure true
  else catching isRedisError false (redis (.writeHeartbeat jobId updates))

end JobTracker

end GpuManager.Queue
