import Mathlib.Data.Rat.Floor
import GpuManager.Lib.Interleaving
import GpuManager.Queue.Scripts

/-!
# The queue engine

`RedisQueue`, `AsyncRedisQueue` and `JobTracker` of `queue_engine.py`.  A method is a
program over the round trips it makes: between two of them any other client may act.

The asynchronous queue makes the same round trips as the synchronous one; its methods
swallow every exception where the others swallow the ones of the Redis client only.
-/

namespace GpuManager.Queue

open AtomicProgram Redis PythonText

/-! ## Round trips -/

/-- One round trip to Redis: a command, a transaction or a script. -/
inductive Cmd where
  | xrange (stream : String) (entryId : StreamId)
  | clearPending (stream : String) (entryId : StreamId)
  | acknowledge (stream : String) (entryId : StreamId)
  | requeue (stream : String) (entryId : StreamId) (payload : Fields)
  | deadLetterTransfer (source : String) (entryId : StreamId) (service : String)
      (payload : Fields)
  | deadLetterPurge (service actor reason timestamp : String)
  | cancelQueued (stream : String) (entryId : StreamId) (jobId : String)
      (completedAt error auditSource cancelledBy : String) (terminalTtl : ℤ)
  | ensureGroup (stream : String)
  | lastDelivered (stream : String)
  | xread (stream : String) (after : StreamId)
  | xreadgroup (streams : List String) (consumer : String) (count : ℕ)
  | xadd (stream : String) (payload : Fields)
  | addTracked (jobId stream : String) (payload record : Fields) (requestSha256 lanePrefix : String)
  | xpendingRange (stream : String)
  | writeStatus (jobId status : String) (updates : Fields)
  | settleMarker (jobId digest : String)
  | writeHeartbeat (jobId : String) (updates : Fields)
  | hget (key field : String)
  | hset (key : String) (fields : Fields)
  | persist (key : String)
  | setNx (key : String) (text : Text)
  | get (key : String)
  | incr (key : String)
  | watch (key : String)
  | execSet (key : String) (watched : ℕ) (text : Text)
  | tick (clock : ℕ)
  | lapse (key : String)

def Cmd.Reply : Cmd → Type
  | xrange _ _ => Option Entry
  | deadLetterTransfer _ _ _ _ => StreamId × ℕ × ℤ
  | deadLetterPurge _ _ _ _ => ℕ × StreamId
  | cancelQueued _ _ _ _ _ _ _ _ => CancelOutcome
  | lastDelivered _ => StreamId
  | xread _ _ => Option Entry
  | xreadgroup _ _ _ => List (String × List Entry)
  | xadd _ _ => StreamId
  | addTracked _ _ _ _ _ _ => String
  | xpendingRange _ => List (StreamId × String)
  | hget _ _ => Option String
  | setNx _ _ => Bool
  | get _ => Option Text
  | incr _ => ℤ
  | watch _ => ℕ
  | execSet _ _ _ => Bool
  | writeHeartbeat _ _ => Bool
  | _ => Unit

def markerKey (digest : String) : String := "job-idempotency:" ++ digest

/-- The time to live of a terminal record, thirty days. -/
def terminalSeconds : ℤ := 30 * 86400

/-- A job hash is retained once its status is terminal, and kept before. -/
def retain (key status : String) : Script Unit :=
  if Terminal status then expire key terminalSeconds else Redis.persist key

/-- The script at the end of `update_status`: the marker follows the status of its job. -/
def settleMarker (key marker jobId : String) : Script Unit := do
  match ← Redis.get marker with
  | some (.object fields) =>
    if getField fields "job_id" ≠ some jobId then pure ()
    else retain marker ((← Redis.hget key "status").getD "")
  | _ => pure ()

/-- The script of `update_heartbeat`. -/
def writeHeartbeat (key : String) (updates : Fields) : Script Bool := do
  if ← Redis.exists key then
    Redis.hset key updates
    retain key ((← Redis.hget key "status").getD "")
    pure true
  else pure false

/-- The group of every stream exists. -/
def requireGroups : List String → Script Unit
  | [] => pure ()
  | key :: keys =>
    ⟨fun s =>
      match (s.stream key).bind fun st => st.groups group with
      | none => (.error noGroup, s)
      | some _ => (requireGroups keys).run s⟩

/-- One delivery from each stream. -/
def readAll (consumer : String) (count : ℕ) : List String → Script (List (String × List Entry))
  | [] => pure []
  | key :: keys => do
      let entries ← Redis.xreadgroup group consumer count key
      let others ← readAll consumer count keys
      pure ((key, entries) :: others)

/-- The script of `enqueue` for a tracked job: a job that has a record keeps its entry. -/
def addTracked (key stream : String) (payload record : Fields) (requestSha256 lanePrefix : String) :
    Script String := do
  let oldType ← Redis.type key
  let streamType ← Redis.type stream
  if oldType ≠ .none ∧ oldType ≠ .hash then Script.fail "invalid tracked job type"
  else if streamType ≠ .none ∧ streamType ≠ .stream then Script.fail "invalid tracked queue type"
  else if oldType = .hash then
    if (← Redis.hget key "request_sha256") ≠ some requestSha256 then
      Script.fail "deterministic child identity conflict"
    else
      match ← Redis.hget key "entry_id" with
      | none => Script.fail "child outcome unknown: missing queue receipt"
      | some prior => pure prior
  else
    let entry ← Redis.xadd stream payload
    let handle := lanePrefix ++ idText entry
    Redis.hset key record
    Redis.hset key [("entry_id", handle)]
    pure handle

/-- `XPENDING stream group - + 100`: entries and consumers. -/
def pendingRange (st : Stream) : List (StreamId × String) :=
  match st.groups group with
  | none => []
  | some g => (g.pending.mergeSort fun a b => a.1 ≤ b.1).take 100

/-- What a round trip does. -/
def Cmd.script : (c : Cmd) → Script c.Reply
  | xrange stream entryId => Redis.xrange stream entryId
  | clearPending stream entryId => Script.multi [xack stream group entryId]
  | acknowledge stream entryId => Queue.acknowledge stream entryId
  | requeue stream entryId payload => Queue.requeue stream entryId payload
  | deadLetterTransfer source entryId service payload =>
    Queue.deadLetterTransfer source (deadLetterStream service) deadLetterMetricsHash entryId
      group exactDeadLetterCap service payload
  | deadLetterPurge service actor reason timestamp =>
    Queue.deadLetterPurge (deadLetterStream service) deadLetterAuditStream actor reason
      timestamp service exactDeadLetterCap
  | cancelQueued stream entryId jobId completedAt error auditSource cancelledBy terminalTtl =>
    Queue.cancelQueued stream (jobKey jobId) entryId jobId group completedAt error auditSource
      cancelledBy terminalTtl
  | ensureGroup stream => xgroupCreate stream group
  | lastDelivered stream => readStream stream (toLex (0, 0)) fun st =>
    ((st.groups group).map Group.lastDelivered).getD (toLex (0, 0))
  | xread stream after => readStream stream none fun st => st.after after
  | xreadgroup streams consumer count => do
      requireGroups streams
      readAll consumer count streams
  | xadd stream payload => Redis.xadd stream payload
  | addTracked jobId stream payload record requestSha256 lanePrefix =>
    Queue.addTracked (jobKey jobId) stream payload record requestSha256 lanePrefix
  | xpendingRange stream => readStream stream [] fun st => pendingRange st
  | writeStatus jobId status updates =>
    Script.multi [Redis.hset (jobKey jobId) updates, retain (jobKey jobId) status]
  | settleMarker jobId digest => Queue.settleMarker (jobKey jobId) (markerKey digest) jobId
  | writeHeartbeat jobId updates => Queue.writeHeartbeat (jobKey jobId) updates
  | hget key field => Redis.hget key field
  | hset key fields => Redis.hset key fields
  | persist key => Redis.persist key
  | setNx key text => Redis.setNx key text
  | get key => Redis.get key
  | incr key => Redis.incr key
  | watch key => Redis.watch key
  | execSet key watched text => Redis.execSet key watched text
  | tick clock => Redis.tick clock
  | lapse key => Redis.lapse key

def exec (c : Cmd) (s : Server) : Except String c.Reply × Server := c.script.run s

/-- A method of the engine. -/
abbrev Action := Prog Cmd (fun c => Except String c.Reply) QueueError

/-- A round trip; an error reply is raised as a `RedisError`. -/
def redis (c : Cmd) : Action c.Reply :=
  .call c fun
    | .ok reply => .done (.ok reply)
    | .error message => .done (.error (.redisError message))

def raising {α : Type} (r : Except QueueError α) : Action α := .done r

/-- `try … except`: exceptions of the given kind end with a value. -/
def catching {α : Type} (caught : QueueError → Bool) (value : α) (body : Action α) : Action α := do
  match ← body.attempt with
  | .ok a => pure a
  | .error e => if caught e then pure value else Prog.throw e

/-- `except redis.RedisError`. -/
def isRedisError : QueueError → Bool
  | .redisError _ => true
  | .valueError _ => false

/-! ## Running a method alone -/

section Run

variable {α β : Type} {s s' : Server} {r : Except QueueError α} {k : α → Action β} {c : Cmd}

/-- A round trip that succeeds. -/
theorem run_redis_ok {k : c.Reply → Action α} {r : c.Reply}
    (h : c.script.run s = (.ok r, s')) : (redis c >>= k).run exec s = (k r).run exec s' := by
  rw [Prog.run_bind]
  simp only [redis, Prog.run, exec, h]

theorem run_redis_error {k : c.Reply → Action α} {e : String}
    (h : c.script.run s = (.error e, s')) :
    (redis c >>= k).run exec s = (.error (.redisError e), s') := by
  rw [Prog.run_bind]
  simp only [redis, Prog.run, exec, h]

theorem run_raising_ok {a : α} (h : r = .ok a) :
    (raising r >>= k).run exec s = (k a).run exec s := by
  rw [h]
  rfl

theorem run_raising_error {e : QueueError}
    (h : r = .error e) : (raising r >>= k).run exec s = (.error e, s) := by
  rw [h]
  rfl

/-- An exception that is caught, or not, changes nothing in Redis. -/
theorem run_catching_server (caught : QueueError → Bool) (value : α) (body : Action α)
    (s : Server) : ((catching caught value body).run exec s).2 = (body.run exec s).2 := by
  unfold catching
  rw [Prog.run_bind, Prog.run_attempt]
  simp only
  split
  · rfl
  · split <;> rfl

end Run

/-! ## Acknowledging and requeueing -/

/-- The body of `ack`. -/
def ackEntry (serviceName : String) (routingGroup : Option String) (entryId : Handle) :
    Action Bool := do
  let (stream, rawEntryId) ← raising (resolveEntryStream serviceName routingGroup entryId)
  redis (.acknowledge stream rawEntryId)
  pure true

def nextCount (field : String) (originalData : Fields) : Except QueueError ℤ :=
  match nonempty (getField originalData field) with
  | none => .ok 1
  | some text =>
    match int text with
    | some n => .ok (n + 1)
    | none => .error (.valueError "invalid literal for int() with base 10")

def deadLetterPayload (originalData : Fields) (nackCount : ℤ) (now : String) : Fields :=
  insertField
    (insertField (insertField originalData "_nack_count" (toString nackCount))
      "_dead_letter_cap" (toString exactDeadLetterCap))
    "_dead_letter_ts" now

/-- The body of `nack`. -/
def nackEntry (serviceName : String) (routingGroup : Option String) (entryId : Handle)
    (maxRetries : ℤ) (now : String) : Action Bool := do
  let (stream, rawEntryId) ← raising (resolveEntryStream serviceName routingGroup entryId)
  match ← redis (.xrange stream rawEntryId) with
  | none =>
    redis (.clearPending stream rawEntryId)
    pure true
  | some entry =>
    let nackCount ← raising (nextCount "_nack_count" entry.fields)
    if nackCount ≥ maxRetries then
      let _ ← redis (.deadLetterTransfer stream rawEntryId serviceName
        (deadLetterPayload entry.fields nackCount now))
      pure true
    else
      redis (.requeue stream rawEntryId
        (insertField entry.fields "_nack_count" (toString nackCount)))
      pure true

/-- The body of `yield_pending`. -/
def yieldEntry (serviceName : String) (routingGroup : Option String) (entryId : Handle) :
    Action Bool := do
  let (stream, rawEntryId) ← raising (resolveEntryStream serviceName routingGroup entryId)
  match ← redis (.xrange stream rawEntryId) with
  | none =>
    redis (.clearPending stream rawEntryId)
    pure true
  | some entry =>
    let yieldCount ← raising (nextCount "_yield_count" entry.fields)
    redis (.requeue stream rawEntryId
      (insertField entry.fields "_yield_count" (toString yieldCount)))
    pure true

/-! ## Cancelling and purging -/

inductive CancelResult where
  | outcome (outcome : CancelOutcome)
  | error (message : String)
  deriving DecidableEq

/-- The audit arguments of `cancel_queued_atomically`, with the time of the call. -/
structure CancelRequest where
  completedAt : String
  error : String := "user_cancel"
  auditSource : String := "cancel-api"
  cancelledBy : String := "cancel-api"
  terminalTtl : ℤ := 30 * 86400

inductive PurgeResult where
  | unauthorized (error : String)
  | error (error : String)
  | ok (purged : ℕ) (auditId : StreamId)
  deriving DecidableEq

/-- The body of `purge_dead_letters`, past the checks of its arguments. -/
def purgeEntries (serviceName actor reason timestamp : String) : Action PurgeResult := do
  let (purged, auditId) ← redis (.deadLetterPurge serviceName actor reason timestamp)
  pure (.ok purged auditId)

def purgeDeadLetters (caught : QueueError → Bool) (serviceName actor reason timestamp : String) :
    Action PurgeResult :=
  if strip actor = "" then pure (.unauthorized "actor_required")
  else if strip reason = "" then pure (.unauthorized "reason_required")
  else catching caught (.error "redis_error")
    (purgeEntries serviceName (strip actor) (strip reason) timestamp)

/-! ## Claiming -/

/-- How a queue is set up: whether it has lanes, and how a waiting entry gains on others. -/
structure LaneSettings where
  priorityLanesEnabled : Bool := false
  priorityAgingInterval : ℚ := 60
  priorityAgingCap : ℤ := 3

/-- `_PRIORITY_LANE_RANK`. -/
def Lane.rank : Lane → ℤ
  | .interactive => 0
  | .normal => 1
  | .background => 2

/-- `_priority_age_score`; the legacy stream scores as the normal lane. -/
def priorityAgeScore (settings : LaneSettings) (lane : Option Lane) (entryId : StreamId) (now : ℚ) :
    ℤ × ℚ × ℤ :=
  let age := max 0 (now - ((ofLex entryId).1 : ℚ) / 1000)
  let ageBoost := min (max 0 settings.priorityAgingCap) ⌊age / max 1 settings.priorityAgingInterval⌋
  (2 - (lane.getD .normal).rank + ageBoost, age, -((ofLex entryId).1 : ℤ))

/-- The order of Python tuples. -/
def scoreLt (a b : ℤ × ℚ × ℤ) : Bool :=
  a.1 < b.1 || a.1 = b.1 && (a.2.1 < b.2.1 || a.2.1 = b.2.1 && a.2.2 < b.2.2)

/-- `_stream_specs`. -/
def streamSpecs (settings : LaneSettings) (serviceName : String) (routingGroup : Option String) :
    Except QueueError (List (String × Option Lane)) := do
  let legacy ← legacyStreamName serviceName routingGroup
  if settings.priorityLanesEnabled then
    let interactive ← laneStreamName serviceName routingGroup .interactive
    let normal ← laneStreamName serviceName routingGroup .normal
    let background ← laneStreamName serviceName routingGroup .background
    pure [(interactive, some .interactive), (normal, some .normal),
      (background, some .background), (legacy, none)]
  else pure [(legacy, none)]

/-- A claimed job: its fields, and the handle for a later `ack` or `nack`. -/
structure Claim where
  fields : Fields
  entryId : Handle

def laneOfStream (stream : String) : Option Lane :=
  match afterLast ":lane:" stream with
  | some "interactive" => some .interactive
  | some "normal" => some .normal
  | some "background" => some .background
  | _ => none

/-- `_decode_claimed_entries`. -/
def decodeClaimedEntries (selectedLane : Option Lane) (streams : List (String × List Entry)) :
    List Claim :=
  streams.flatMap fun (stream, entries) =>
    let lane := selectedLane.or (laneOfStream stream)
    entries.map fun entry => ⟨entry.fields, lane, entry.id⟩

/-- The next entry of each stream that has one, with its score. -/
def readyEntries (settings : LaneSettings) (now : ℚ) :
    List (String × Option Lane) → Action (List ((ℤ × ℚ × ℤ) × String × Option Lane))
  | [] => pure []
  | (stream, lane) :: specs => do
      let row ← catching isRedisError none do
        let lastId ← redis (.lastDelivered stream)
        redis (.xread stream lastId)
      let others ← readyEntries settings now specs
      match row with
      | none => pure others
      | some entry => pure ((priorityAgeScore settings lane entry.id now, stream, lane) :: others)

/-- `max(candidates, key=…)`: the first of the best ones. -/
def bestCandidate :
    List ((ℤ × ℚ × ℤ) × String × Option Lane) → Option ((ℤ × ℚ × ℤ) × String × Option Lane)
  | [] => none
  | candidate :: candidates =>
    some (candidates.foldl (fun best c => if scoreLt best.1 c.1 then c else best) candidate)

/-- The groups of the streams exist. -/
def ensureGroups : List (String × Option Lane) → Action Unit
  | [] => pure ()
  | (stream, _) :: specs => do
      redis (.ensureGroup stream)
      ensureGroups specs

/-- The candidates of a claim; without lanes nothing is compared. -/
def candidateEntries (settings : LaneSettings) (now : ℚ) (specs : List (String × Option Lane)) :
    Action (List ((ℤ × ℚ × ℤ) × String × Option Lane)) :=
  if settings.priorityLanesEnabled then readyEntries settings now specs else pure []

/-- The body of `dequeue`. -/
def claimEntries (settings : LaneSettings) (serviceName : String) (routingGroup : Option String)
    (consumerName : String) (count : ℕ) (now : ℚ) : Action (List Claim) := do
  let specs ← raising (streamSpecs settings serviceName routingGroup)
  ensureGroups specs
  let candidates ← candidateEntries settings now specs
  match bestCandidate candidates with
  | some (_, stream, lane) =>
    let claimed ← redis (.xreadgroup [stream] consumerName count)
    pure (decodeClaimedEntries lane claimed)
  | none =>
    let claimed ← redis (.xreadgroup (specs.map Prod.fst) consumerName count)
    pure (decodeClaimedEntries none claimed)

/-! ## Enqueueing and listing -/

/-- A child job that is tracked: its record names the job and the digest of its request. -/
structure TrackedJob where
  record : Fields
  jobId : String
  requestSha256 : String
  has_jobId : getField record "job_id" = some jobId
  has_requestSha256 : getField record "request_sha256" = some requestSha256

/-- The convention that `enqueue` hands to the priority contract. -/
def priorityConvention (jobData : Fields) : String :=
  (getField jobData "priority_convention").getD
    (if getField jobData "routing_group_type" = some "generation" then "generation_higher_is_urgent"
    else "legacy_lower_is_urgent")

/-- `_priority_lane`. -/
def priorityLane (contracted : Fields) : Except QueueError Lane :=
  let lane := lower (strip
    ((nonempty (getField contracted "priority_class")).getD "normal"))
  match laneNamed lane with
  | some lane => .ok lane
  | none => .error (.valueError ("unknown priority lane: " ++ quoted lane))

/-- What `enqueue` adds to the fields of a job with lanes. -/
def lanePayload (contracted : Fields) (lane : Lane) (now : String) : Fields :=
  insertField
    (if (getField contracted "enqueued_at").isSome then contracted
    else insertField contracted "enqueued_at" now)
    "priority_lane" lane.text

/-- The body of `enqueue`; `applyPriorityContract` is the contract under a convention. -/
def enqueueEntry (settings : LaneSettings)
    (applyPriorityContract : Fields → String → Except QueueError Fields) (serviceName : String)
    (routingGroup : Option String) (jobData : Fields) (trackedJob : Option TrackedJob)
    (now : String) : Action (Option String) := do
  let legacy ← raising (legacyStreamName serviceName routingGroup)
  redis (.ensureGroup legacy)
  let contracted ← raising (applyPriorityContract jobData (priorityConvention jobData))
  let lane ← raising (priorityLane contracted)
  let stream ← raising (if settings.priorityLanesEnabled then
    laneStreamName serviceName routingGroup lane else .ok legacy)
  let payload := if settings.priorityLanesEnabled then lanePayload contracted lane now
    else contracted
  match trackedJob with
  | some tracked =>
    let lanePrefix := if settings.priorityLanesEnabled then entryHandle lane.text "" else ""
    let handle ← redis (.addTracked tracked.jobId stream payload tracked.record
      tracked.requestSha256 lanePrefix)
    pure (some handle)
  | none =>
    let entryId ← redis (.xadd stream payload)
    pure (some (if settings.priorityLanesEnabled then entryHandle lane.text (idText entryId)
      else idText entryId))

structure PendingEntry where
  entryId : String
  stream : String
  consumer : String
  deriving DecidableEq

/-- What `get_pending` lists of some streams; only a strict call minds that a group is missing. -/
def pendingOf (strict : Bool) : List (String × Option Lane) → Action (List PendingEntry)
  | [] => pure []
  | (stream, lane) :: specs => do
      catching (fun _ => !strict) () (redis (.ensureGroup stream))
      let pending ← redis (.xpendingRange stream)
      let others ← pendingOf strict specs
      pure (pending.map (fun p =>
        { entryId :=
            match lane with
            | some lane => entryHandle lane.text (idText p.1)
            | none => idText p.1
          stream := stream
          consumer := p.2 }) ++ others)

/-- The body of `get_pending`. -/
def pendingEntries (settings : LaneSettings) (serviceName : String) (routingGroup : Option String)
    (strict : Bool) : Action (List PendingEntry) := do
  let specs ← raising (streamSpecs settings serviceName routingGroup)
  pendingOf strict specs

/-! ## The tracker -/

/-- Keyword arguments of `update_status`: its own parameters cannot be among them. -/
structure StatusFields where
  fields : Fields := []
  ne_status : ∀ f ∈ fields, f.1 ≠ "status" := by simp

/-- No keyword arguments. -/
def StatusFields.none : StatusFields := {}

/-- `d.update(fields)`. -/
def updateFields (d fields : Fields) : Fields :=
  fields.foldl (fun d f => insertField d f.1 f.2) d

/-- What `update_status` writes. -/
def statusUpdates (status now : String) (kwargs : StatusFields) : Fields :=
  updateFields
    (("status", status) ::
      if Terminal status then [("completed_at", now)]
      else if status = "in_flight" then
        [("started_at", now), ("completed_at", ""), ("error", ""), ("result", "")]
      else [])
    kwargs.fields

/-- The body of `update_status`. -/
def writeJobStatus (jobId status now : String) (kwargs : StatusFields) : Action Bool := do
  redis (.writeStatus jobId status (statusUpdates status now kwargs))
  let markerDigest ← redis (.hget (jobKey jobId) "idempotency_key_sha256")
  match nonempty markerDigest with
  | none => pure true
  | some digest =>
    redis (.settleMarker jobId digest)
    pure true

/-- `JobTracker.update_status`. -/
def JobTracker.updateStatus (jobId status now : String) (kwargs : StatusFields := {}) :
    Action Bool :=
  catching isRedisError false (writeJobStatus jobId status now kwargs)

/-! ## The two queues -/

namespace RedisQueue

/-- `RedisQueue.enqueue`. -/
def enqueue (settings : LaneSettings)
    (applyPriorityContract : Fields → String → Except QueueError Fields) (serviceName : String)
    (routingGroup : Option String) (jobData : Fields) (trackedJob : Option TrackedJob)
    (now : String) : Action (Option String) :=
  catching isRedisError none
    (enqueueEntry settings applyPriorityContract serviceName routingGroup jobData trackedJob now)

/-- `RedisQueue.get_pending`. -/
def getPending (settings : LaneSettings) (serviceName : String) (routingGroup : Option String)
    (strict : Bool) : Action (List PendingEntry) :=
  catching (fun e => isRedisError e && !strict) []
    (pendingEntries settings serviceName routingGroup strict)

def cancelQueuedAtomically (serviceName : String) (routingGroup : Option String)
    (entryId : Handle) (jobId : String) (request : CancelRequest) : Action CancelResult :=
  if jobId = "" then pure (.error "missing required argument (entry_id / job_id)")
  else
    match resolveEntryStream serviceName routingGroup entryId with
    | .error (.valueError message) | .error (.redisError message) => pure (.error message)
    | .ok (streamKey, rawEntryId) => do
        let reply ← (redis (.cancelQueued streamKey rawEntryId jobId request.completedAt
          request.error request.auditSource request.cancelledBy request.terminalTtl)).attempt
        match reply with
        | .ok outcome => pure (.outcome outcome)
        | .error (.redisError message) | .error (.valueError message) => pure (.error message)

/-- `RedisQueue.purge_dead_letters`. -/
def purgeDeadLetters (serviceName actor reason timestamp : String) : Action PurgeResult :=
  Queue.purgeDeadLetters isRedisError serviceName actor reason timestamp

/-- `RedisQueue.ack`. -/
def ack (serviceName : String) (routingGroup : Option String) (entryId : Handle) : Action Bool :=
  catching isRedisError false (ackEntry serviceName routingGroup entryId)

/-- `RedisQueue.dequeue`. -/
def dequeue (settings : LaneSettings) (serviceName : String) (routingGroup : Option String)
    (consumerName : String) (count : ℕ) (now : ℚ) : Action (List Claim) :=
  catching isRedisError [] (claimEntries settings serviceName routingGroup consumerName count now)

/-- `RedisQueue.nack`. -/
def nack (serviceName : String) (routingGroup : Option String) (entryId : Handle)
    (maxRetries : ℤ) (now : String) : Action Bool :=
  catching isRedisError false (nackEntry serviceName routingGroup entryId maxRetries now)

end RedisQueue

namespace AsyncRedisQueue

/-- `AsyncRedisQueue.ack`. -/
def ack (serviceName : String) (routingGroup : Option String) (entryId : Handle) : Action Bool :=
  catching (fun _ => true) false (ackEntry serviceName routingGroup entryId)

/-- `AsyncRedisQueue.nack`. -/
def nack (serviceName : String) (routingGroup : Option String) (entryId : Handle)
    (maxRetries : ℤ) (now : String) : Action Bool :=
  catching (fun _ => true) false (nackEntry serviceName routingGroup entryId maxRetries now)

/-- `AsyncRedisQueue.yield_pending`. -/
def yieldPending (serviceName : String) (routingGroup : Option String) (entryId : Handle) :
    Action Bool :=
  catching (fun _ => true) false (yieldEntry serviceName routingGroup entryId)

/-- `AsyncRedisQueue.purge_dead_letters`. -/
def purgeDeadLetters (serviceName actor reason timestamp : String) : Action PurgeResult :=
  Queue.purgeDeadLetters (fun _ => true) serviceName actor reason timestamp

end AsyncRedisQueue

end GpuManager.Queue
