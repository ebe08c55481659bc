import GpuManager.Lib.AtomicProgram
import GpuManager.Lib.PythonText
import GpuManager.Lib.Redis

/-!
# Queue commands

What the queue engine of `queue_engine.py` asks of Redis: the names of its keys, its Lua
scripts and transactions, and the round trips its methods make.

A service has a stream of jobs under `queue:`, or one for each priority lane, and a
dead-letter stream under `dead-letter:`.  Two more keys live under the second name: a hash
that counts what fell out of the dead-letter streams, and a stream that records every
purge.
-/

namespace GpuManager.Queue

open AtomicProgram Redis

/-! ## Names -/

/-- `EXACT_DEAD_LETTER_CAP`. -/
def exactDeadLetterCap : ℕ := 100

/-- `DEAD_LETTER_AUDIT_STREAM`. -/
def deadLetterAuditStream : String := "dead-letter:audit"

/-- `DEAD_LETTER_METRICS_HASH`. -/
def deadLetterMetricsHash : String := "dead-letter:metrics"

/-- `_dead_letter_stream`. -/
def deadLetterStream (serviceName : String) : String := "dead-letter:" ++ serviceName

/-- `PRIORITY_LANES`. -/
inductive Lane where
  | interactive | normal | background
  deriving DecidableEq

/-- The text of a lane. -/
def Lane.text : Lane → String
  | interactive => "interactive"
  | normal => "normal"
  | background => "background"

inductive QueueError where
  | redisError (message : String)
  | valueError (message : String)
  deriving DecidableEq

/-- `routing_group or service_name`. -/
def authority (serviceName : String) (routingGroup : Option String) : String :=
  (PythonText.nonempty routingGroup).getD serviceName

/-- `_lane_stream_name`. -/
def laneStreamName (serviceName : String) (routingGroup : Option String) (lane : Lane) :
    Except QueueError String :=
  if authority serviceName routingGroup = "" then
    .error (.valueError "queue lane requires service_name or routing_group")
  else .ok ("queue:" ++ authority serviceName routingGroup ++ ":lane:" ++ lane.text)

/-- `_legacy_stream_name`. -/
def legacyStreamName (serviceName : String) (routingGroup : Option String) :
    Except QueueError String :=
  if authority serviceName routingGroup = "" then
    .error (.valueError "queue stream requires service_name or routing_group")
  else .ok ("queue:" ++ authority serviceName routingGroup)

/-- A queue handle: the id of an entry, and its lane unless it is one of the legacy
stream. -/
structure Handle where
  lane : Option Lane := none
  rawId : StreamId
  deriving DecidableEq

/-- `resolve_entry_stream`: the stream and the id a handle stands for. -/
def resolveEntryStream (serviceName : String) (routingGroup : Option String) (handle : Handle) :
    Except QueueError (String × StreamId) :=
  match handle.lane with
  | some lane => (laneStreamName serviceName routingGroup lane).map fun key => (key, handle.rawId)
  | none => (legacyStreamName serviceName routingGroup).map fun key => (key, handle.rawId)

/-! ## The text of a handle -/

/-- The text of a stream id. -/
def idText (id : StreamId) : String :=
  toString (ofLex id).1 ++ "-" ++ toString (ofLex id).2

/-- The lane with a text, if it is one of `PRIORITY_LANES`. -/
def laneNamed (text : String) : Option Lane :=
  [Lane.interactive, .normal, .background].find? fun lane => lane.text = text

/-- `_entry_handle`. -/
def entryHandle (lane entryId : String) : String := "lane:" ++ lane ++ ":" ++ entryId

/-- The text of a handle: of an entry in the legacy stream it is the plain id. -/
def Handle.text (handle : Handle) : String :=
  match handle.lane with
  | some lane => entryHandle lane.text (idText handle.rawId)
  | none => idText handle.rawId

/-- `_parse_entry_handle`. -/
def parseEntryHandle (entryId serviceName : String) (routingGroup : Option String) :
    Except QueueError (String × String × Option Lane) :=
  let invalid : QueueError :=
    .valueError ("invalid priority queue entry handle: " ++ PythonText.quoted entryId)
  match PythonText.after "lane:" entryId with
  | none => (legacyStreamName serviceName routingGroup).map fun key => (key, entryId, none)
  | some rest =>
    match PythonText.splitOnce ':' rest with
    | none => .error invalid
    | some (lane, rawId) =>
      match laneNamed lane with
      | none => .error invalid
      | some lane =>
        if rawId = "" then .error invalid
        else
          (laneStreamName serviceName routingGroup lane).map fun key =>
            (key, rawId, some lane)

/-- `RedisQueue.GROUP`. -/
def group : String := "workers"

def jobKey (jobId : String) : String := "job:" ++ jobId

/-- A status from which a job does not move on by itself. -/
def Terminal (status : String) : Prop :=
  status = "completed" ∨ status = "failed" ∨ status = "cancelled"

instance (status : String) : Decidable (Terminal status) := by
  unfold Terminal
  infer_instance

/-! ## Dictionaries -/

/-- `d.get(key)`. -/
def getField (d : Fields) (key : String) : Option String :=
  (d.find? fun f => f.1 = key).map Prod.snd

/-- `{**d, key: value}`. -/
def insertField (d : Fields) (key value : String) : Fields :=
  if key ∈ d.map Prod.fst then d.map fun f => if f.1 = key then (key, value) else f
  else d ++ [(key, value)]

/-! ## Scripts -/

/-- The overflow count of `_DEAD_LETTER_TRANSFER_LUA`. -/
def countRemoved (metrics service : String) (removed : ℕ) : Script Unit :=
  if removed > 0 then discard (hincrby metrics service removed) else pure ()

/-- What `_DEAD_LETTER_TRANSFER_LUA` does once the types of its keys are checked. -/
def transferEntry (source dlq metrics : String) (entryId : StreamId) (group : String)
    (cap : ℕ) (service : String) (payload : Fields) : Script (StreamId × ℕ × ℤ) := do
  let dlqId ← xadd dlq payload
  let removed ← xtrim dlq cap
  countRemoved metrics service removed
  let droppedTotal ← hget metrics service
  Script.pcall (xack source group entryId)
  let _ ← xdel source entryId
  pure (dlqId, removed, (decimal (droppedTotal.getD "0")).getD 0)

/-- `_DEAD_LETTER_TRANSFER_LUA`. -/
def deadLetterTransfer (source dlq metrics : String) (entryId : StreamId) (group : String)
    (cap : ℕ) (service : String) (payload : Fields) : Script (StreamId × ℕ × ℤ) := do
  let sourceType ← type source
  let dlqType ← type dlq
  let metricsType ← type metrics
  if sourceType ≠ .stream then .fail "source_not_stream"
  else if dlqType ≠ .none ∧ dlqType ≠ .stream then .fail "dlq_not_stream"
  else if metricsType ≠ .none ∧ metricsType ≠ .hash then .fail "metrics_not_hash"
  else transferEntry source dlq metrics entryId group cap service payload

/-- What `_DEAD_LETTER_PURGE_LUA` appends to the audit stream. -/
def auditRecord (actor reason timestamp : String) (count : ℕ) (service : String) (cap : ℕ) :
    Fields :=
  [("actor", actor), ("reason", reason), ("timestamp", timestamp), ("count", toString count),
    ("service", service), ("cap", toString cap)]

/-- `_DEAD_LETTER_PURGE_LUA`. -/
def deadLetterPurge (dlq auditStream actor reason timestamp service : String) (cap : ℕ) :
    Script (ℕ × StreamId) := do
  let dlqType ← type dlq
  let auditType ← type auditStream
  if dlqType ≠ .none ∧ dlqType ≠ .stream then .fail "dlq_not_stream"
  else if auditType ≠ .none ∧ auditType ≠ .stream then .fail "audit_not_stream"
  else
    let count ← xlen dlq
    let auditId ← xadd auditStream (auditRecord actor reason timestamp count service cap)
    Redis.del dlq
    pure (count, auditId)

inductive CancelOutcome where
  | noEntry
  | entryJobMismatch (streamJobId : String)
  | alreadyTerminal (status : String)
  | notQueued (status : String)
  | removedAndTerminalized
  deriving DecidableEq

/-- `_CANCEL_QUEUED_LUA`. -/
def cancelQueued (streamKey trackerKey : String) (entryId : StreamId) (expectedJobId : String)
    (groupName completedAt errorMsg auditSource cancelledBy : String) (terminalTtl : ℤ) :
    Script CancelOutcome := do
  match ← xrange streamKey entryId with
  | none => pure .noEntry
  | some entry =>
    if getField entry.fields "job_id" ≠ some expectedJobId then
      pure (.entryJobMismatch ((getField entry.fields "job_id").getD ""))
    else
      let status ← hget trackerKey "status"
      match status.filter fun status => status ≠ "queued" with
      | some status =>
        if Terminal status then pure (.alreadyTerminal status) else pure (.notQueued status)
      | none =>
        xack streamKey groupName entryId
        let _ ← xdel streamKey entryId
        hset trackerKey
          [("status", "cancelled"), ("completed_at", completedAt), ("error", errorMsg),
            ("cancelled_by", cancelledBy), ("cancellation_audit_source", auditSource),
            ("cancellation_at", completedAt)]
        expire trackerKey terminalTtl
        pure .removedAndTerminalized

/-! ## Transactions -/

/-- The limit of the live streams. -/
def streamMaxlen : ℕ := 500

def acknowledge (stream : String) (entryId : StreamId) : Script Unit :=
  Script.multi
    [xack stream group entryId, discard (xdel stream entryId), discard (xtrim stream streamMaxlen)]

/-- `XACK`, `XDEL`, `XADD` and `XTRIM` in one transaction. -/
def requeue (stream : String) (entryId : StreamId) (payload : Fields) : Script Unit :=
  Script.multi
    [xack stream group entryId, discard (xdel stream entryId), discard (xadd stream payload),
      discard (xtrim stream streamMaxlen)]

end GpuManager.Queue
