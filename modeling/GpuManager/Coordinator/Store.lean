import Mathlib.Data.List.Sort
import Mathlib.Data.String.Basic
import GpuManager.Lib.AtomicProgram
import GpuManager.Coordinator.RunState

/-!
# The coordinator's store and its providers

`RedisCoordinatorStore` keeps a hash with the state of each run, a log of events for each run
and one stream of parent entries that is read through a consumer group.  An entry of the stream
is delivered once and then pending in the group until it is acknowledged; a process remembers
the entry it has claimed for a run in its own memory, `_entry_ids`.

Each command below is one Redis command, one access to the memory of a process or one call of
an injected provider.  A save is the command `HSET` together with the place of the source that
it stands at: the store does not look at it, and statements about runs use it to name the
saves.  Every Redis command may raise.

The providers are functions of everything they have been asked and have answered so far, so
that every behaviour of the external executor and of the leaf client is one `Providers`.
-/

namespace GpuManager.Coordinator

open AtomicProgram

/-- The places at which the coordinator saves the state of a run.  Where a result is recorded,
the place carries it. -/
inductive SavePoint where
  | dropped
  | entered
  | started
  | childAccepted
  | childPolled
  | handleSaved
  | inFlight
  | recorded (stageId : String) (result : StageResult)
  | lastGood
  | correction
  | retry
  | queued
  | stayed
  | moved
  | terminal
  | intent

/-- `StageAuthorityResolver.resolve` answers with one of these; anything else is unknown. -/
inductive Authority where
  | external
  | leaf
  | other (name : String)
  deriving DecidableEq, Repr

inductive RunEvent where
  | submitted
  | stageStarted (stageId : String) (authority : Authority) (attempt : ℕ) (idempotencyKey : String)
  | externalHandleSaved (stageId : String) (attempt : ℕ)
  | qcResult (stageId : String) (passed : Bool) (report : String)
  | correctionStarted (correctionStageId loopId : String) (iteration : ℕ)
      (onCorrection : List String)
  | stageRetryScheduled (stageId : String) (attempt maxAttempts : ℕ)
  | stageAdvanced (next : String) (previous : Option String)
  | cancellationCascade (childJobs : List String) (currentStageId : Option String)
  | cancellationError (id error : String)
  | terminalized (code : TerminalCode) (reason : Option String) (artifact : Option ArtifactRef)
  | cancellationRequested
  deriving DecidableEq

/-- A Redis command that raised. -/
inductive RedisError where
  | raised

/-! ## Commands -/

inductive Cmd where
  /- Redis -/
  | hgetall (runId : String)
  | hset (point : SavePoint) (state : PipelineRunState)
  | evalSubmitParent (state : PipelineRunState)
  | xaddEvent (runId : String) (event : RunEvent)
  | xaddParent (runId : String)
  | xreadgroup (consumer : String)
  | xack (entryIds : List ℕ)
  | xpendingRange (count : ℕ)
  | xrange (entryId : ℕ)
  | xclaim (consumer : String) (minIdleTime entryId : ℕ)
  /-- `MULTI`, `XADD`, `XACK`, `EXEC`. -/
  | replaceParent (runId : String) (claimedEntryId : ℕ)
  /- `_entry_ids` of one store object -/
  | getEntryId (store : ℕ) (runId : String)
  | setEntryId (store : ℕ) (runId : String) (entryId : ℕ)
  | popEntryId (store : ℕ) (runId : String)
  /- the injected providers -/
  | execute (stage : Stage) (resolvedInputs : Option Fields) (state : PipelineRunState)
      (idempotencyKey : String)
  | poll (stage : Stage) (resolvedInputs : Option Fields) (state : PipelineRunState)
      (idempotencyKey providerHandle : String)
  | cancel (runId stageId : String)
  | leafSubmit (stage : Stage) (resolvedInputs : Option Fields) (state : PipelineRunState)
      (idempotencyKey : String)
  | leafPoll (childJobId : String)
  | leafCancel (childJobId : String)
  /- time -/
  | elapse (milliseconds : ℕ)

/-- The reply to a command. -/
abbrev Reply : Cmd → Type
  | .hgetall _ => Except RedisError (Option PipelineRunState)
  | .hset _ _ => Except RedisError Unit
  | .evalSubmitParent _ => Except RedisError Bool
  | .xaddEvent _ _ => Except RedisError Unit
  | .xaddParent _ => Except RedisError Unit
  | .xreadgroup _ => Except RedisError (Option (ℕ × String))
  | .xack _ => Except RedisError ℕ
  | .xpendingRange _ => Except RedisError (List (ℕ × String × ℕ))
  | .xrange _ => Except RedisError (List (ℕ × String))
  | .xclaim _ _ _ => Except RedisError (List (ℕ × String))
  | .replaceParent _ _ => Except RedisError Unit
  | .getEntryId _ _ => Option ℕ
  | .setEntryId _ _ _ => Unit
  | .popEntryId _ _ => Option ℕ
  | .execute _ _ _ _ => Except String StageResult
  | .poll _ _ _ _ _ => Except String StageResult
  | .cancel _ _ => Except String Bool
  | .leafSubmit _ _ _ _ => Except String String
  | .leafPoll _ => Except String LeafPoll
  | .leafCancel _ => Except String Bool
  | .elapse _ => Unit

/-! ## The world -/

inductive ProviderCall where
  | execute (stageId idempotencyKey : String) (answer : Except String StageResult)
  | poll (stageId idempotencyKey providerHandle : String) (answer : Except String StageResult)
  | cancel (runId stageId : String) (answer : Except String Bool)
  | leafSubmit (stageId runId idempotencyKey : String) (answer : Except String String)
  | leafPoll (childJobId : String) (answer : Except String LeafPoll)
  | leafCancel (childJobId : String) (answer : Except String Bool)

structure Providers where
  execute : List ProviderCall → Stage → Option Fields → PipelineRunState → String →
    Except String StageResult
  poll : List ProviderCall → Stage → Option Fields → PipelineRunState → String → String →
    Except String StageResult
  cancel : List ProviderCall → String → String → Except String Bool
  leafSubmit : List ProviderCall → Stage → Option Fields → PipelineRunState → String →
    Except String String
  leafPoll : List ProviderCall → String → Except String LeafPoll
  leafCancel : List ProviderCall → String → Except String Bool

structure PendingEntry where
  entryId : ℕ
  consumer : String
  deliveredAt : ℕ

/-- The keys of the coordinator in Redis, the memory of its store objects, and what the
providers were asked.  An entry of the parent stream is known by its position. -/
structure World where
  states : String → Option PipelineRunState := fun _ => none
  events : String → List RunEvent := fun _ => []
  stream : List String := []
  delivered : ℕ := 0
  pel : List PendingEntry := []
  now : ℕ := 0
  entryIds : ℕ → String → Option ℕ := fun _ _ => none
  calls : List ProviderCall := []

namespace World

variable (w : World)

def setState (state : PipelineRunState) : World :=
  { w with states := Function.update w.states state.runId (some state) }

def appendEvent (runId : String) (event : RunEvent) : World :=
  { w with events := Function.update w.events runId (w.events runId ++ [event]) }

def addParent (runId : String) : World := { w with stream := w.stream ++ [runId] }

def ack (entryIds : List ℕ) : World :=
  { w with pel := w.pel.filter fun e => e.entryId ∉ entryIds }

def setEntryId (store : ℕ) (runId : String) (entryId : Option ℕ) : World :=
  { w with
    entryIds := Function.update w.entryIds store
      (Function.update (w.entryIds store) runId entryId) }

def call (c : ProviderCall) : World := { w with calls := w.calls ++ [c] }

end World

/-- One command, atomically. -/
def exec (providers : Providers) : (c : Cmd) → World → Reply c × World
  | .hgetall runId, w => (.ok (w.states runId), w)
  | .hset _ state, w => (.ok (), w.setState state)
  | .evalSubmitParent state, w =>
    if (w.states state.runId).isSome then (.ok false, w)
    else
      (.ok true, ((w.setState state).appendEvent state.runId .submitted).addParent state.runId)
  | .xaddEvent runId event, w => (.ok (), w.appendEvent runId event)
  | .xaddParent runId, w => (.ok (), w.addParent runId)
  | .xreadgroup consumer, w =>
    match w.stream[w.delivered]? with
    | none => (.ok none, w)
    | some runId =>
      (.ok (some (w.delivered, runId)),
        { w with
          delivered := w.delivered + 1
          pel := w.pel ++ [⟨w.delivered, consumer, w.now⟩] })
  | .xack entryIds, w =>
    (.ok (w.pel.countP fun e => e.entryId ∈ entryIds), w.ack entryIds)
  | .xpendingRange count, w =>
    (.ok ((w.pel.take count).map fun e => (e.entryId, e.consumer, w.now - e.deliveredAt)), w)
  | .xrange entryId, w =>
    (.ok (match w.stream[entryId]? with
      | none => []
      | some runId => [(entryId, runId)]), w)
  | .xclaim consumer minIdleTime entryId, w =>
    match w.stream[entryId]?, w.pel.find? fun e =>
        e.entryId = entryId && minIdleTime ≤ w.now - e.deliveredAt with
    | some runId, some _ =>
      (.ok [(entryId, runId)],
        { w with
          pel := w.pel.map fun e =>
            if e.entryId = entryId then ⟨entryId, consumer, w.now⟩ else e })
    | _, _ => (.ok [], w)
  | .replaceParent runId claimedEntryId, w => (.ok (), (w.addParent runId).ack [claimedEntryId])
  | .getEntryId store runId, w => (w.entryIds store runId, w)
  | .setEntryId store runId entryId, w => ((), w.setEntryId store runId (some entryId))
  | .popEntryId store runId, w => (w.entryIds store runId, w.setEntryId store runId none)
  | .execute stage resolvedInputs state idempotencyKey, w =>
    let answer := providers.execute w.calls stage resolvedInputs state idempotencyKey
    (answer, w.call (.execute stage.id idempotencyKey answer))
  | .poll stage resolvedInputs state idempotencyKey providerHandle, w =>
    let answer := providers.poll w.calls stage resolvedInputs state idempotencyKey providerHandle
    (answer, w.call (.poll stage.id idempotencyKey providerHandle answer))
  | .cancel runId stageId, w =>
    let answer := providers.cancel w.calls runId stageId
    (answer, w.call (.cancel runId stageId answer))
  | .leafSubmit stage resolvedInputs state idempotencyKey, w =>
    let answer := providers.leafSubmit w.calls stage resolvedInputs state idempotencyKey
    (answer, w.call (.leafSubmit stage.id state.runId idempotencyKey answer))
  | .leafPoll childJobId, w =>
    let answer := providers.leafPoll w.calls childJobId
    (answer, w.call (.leafPoll childJobId answer))
  | .leafCancel childJobId, w =>
    let answer := providers.leafCancel w.calls childJobId
    (answer, w.call (.leafCancel childJobId answer))
  | .elapse milliseconds, w => ((), { w with now := w.now + milliseconds })

/-! ## `RedisCoordinatorStore` -/

/-- What a method raises. -/
inductive CoordinatorError where
  | storeError (message : String)
  | runtimeError (message : String)
  | valueError (message : String)
  | keyError (key : String)
  | authorityError (message : String)
  | leafError (message : String)
  deriving DecidableEq, Repr

abbrev Method (α : Type) := Prog Cmd Reply CoordinatorError α

/-- Issue one command. -/
def send (c : Cmd) : Method (Reply c) := Prog.perform c

namespace RedisCoordinatorStore

/-- `RECLAIM_MIN_IDLE_MS`. -/
def reclaimMinIdleMs : ℕ := 30000

def saveState (point : SavePoint) (state : PipelineRunState) : Method Bool := do
  match ← send (.hset point state) with
  | .ok () => pure true
  | .error _ => pure false

def submitParent (state : PipelineRunState) : Method Bool := do
  match ← send (.evalSubmitParent state) with
  | .ok accepted => pure accepted
  | .error _ => pure false

def loadState (runId : String) : Method (Option PipelineRunState) := do
  match ← send (.hgetall runId) with
  | .ok state => pure state
  | .error _ => .throw (.storeError ("load_state: Redis HGETALL failed for " ++ runId))

def appendEvent (runId : String) (event : RunEvent) : Method Bool := do
  match ← send (.xaddEvent runId event) with
  | .ok () => pure true
  | .error _ => pure false

def enqueueParent (runId : String) : Method Bool := do
  match ← send (.xaddParent runId) with
  | .ok () => pure true
  | .error _ => pure false

def dequeueParent (store : ℕ) (consumer : String) : Method (Option PipelineRunState) := do
  match ← send (.xreadgroup consumer) with
  | .error _ => .throw (.storeError "dequeue_parent: Redis XREADGROUP failed")
  | .ok none => pure none
  | .ok (some (entryId, runId)) =>
    if runId = "" then
      .throw (.storeError "dequeue_parent: claimed stream entry has no run_id")
    else do
      send (.setEntryId store runId entryId)
      match ← loadState runId with
      | none =>
        .throw (.storeError ("dequeue_parent: claimed parent " ++ runId ++ " has no durable state"))
      | some state => pure (some state)

def ackParent (store : ℕ) (runId : String) : Method Bool := do
  match ← send (.popEntryId store runId) with
  | none => pure true
  | some entryId =>
    match ← send (.xack [entryId]) with
    | .ok _ => pure true
    | .error _ => pure false

/-- The entries that the consumer owns or may take over, with their runs. -/
def collectEntries (consumer : String) : List (ℕ × String × ℕ) → Method (List (ℕ × String))
  | [] => pure []
  | (entryId, owner, idleMs) :: items => do
      let messages : Except RedisError (List (ℕ × String)) ←
        if owner = consumer then send (.xrange entryId)
        else if reclaimMinIdleMs ≤ idleMs then
          send (.xclaim consumer reclaimMinIdleMs entryId)
        else pure (.ok [])
      match messages with
      | .error _ => .throw (.storeError "reclaim_orphaned_parents: Redis PEL recovery failed")
      | .ok messages => do
          let rest ← collectEntries consumer items
          pure (messages.filter (fun m => m.2 != "") ++ rest)

def entryIdsOf (entries : List (ℕ × String)) (runId : String) : List ℕ :=
  ((entries.filter fun e => e.2 == runId).map Prod.fst).dedup.insertionSort (· ≤ ·)

def ackDuplicates (runId : String) (duplicateIds : List ℕ) : Method Unit :=
  if duplicateIds = [] then pure ()
  else do
    match ← send (.xack duplicateIds) with
    | .error _ => .throw (.storeError "reclaim_orphaned_parents: Redis PEL recovery failed")
    | .ok acked =>
      if acked = duplicateIds.length then pure ()
      else
        .throw (.storeError
          ("reclaim_orphaned_parents: failed to ACK all duplicate PEL entries for " ++ runId))

/-- Load the state of a run and remember the entry that is kept. -/
def retain (store : ℕ) (runId : String) (retainedId : Option ℕ) : Method PipelineRunState := do
  match ← loadState runId, retainedId with
  | some state, some retainedId => do
      send (.setEntryId store runId retainedId)
      pure state
  | _, _ =>
    .throw (.storeError ("reclaim_orphaned_parents: state " ++ runId ++ " found in PEL but " ++
      "load_state returned None; data inconsistency detected"))

/-- Keep the newest of the entries of each run and return the states. -/
def consolidate (store : ℕ) (entries : List (ℕ × String)) :
    List String → Method (List PipelineRunState)
  | [] => pure []
  | runId :: runIds => do
      let entryIds := entryIdsOf entries runId
      ackDuplicates runId entryIds.dropLast
      let state ← retain store runId entryIds.getLast?
      let states ← consolidate store entries runIds
      pure (state :: states)

def reclaimOrphanedParents (store : ℕ) (consumer : String) : Method (List PipelineRunState) := do
  match ← send (.xpendingRange 100) with
  | .error _ => .throw (.storeError "reclaim_orphaned_parents: Redis PEL recovery failed")
  | .ok pending => do
      let entries ← collectEntries consumer pending
      consolidate store entries ((entries.map Prod.snd).dedup.insertionSort (· ≤ ·))

def requeueParent (store : ℕ) (runId : String) : Method Bool := do
  match ← send (.getEntryId store runId) with
  | some claimedEntryId =>
    match ← send (.replaceParent runId claimedEntryId) with
    | .ok () => do
        let _ ← send (.popEntryId store runId)
        pure true
    | .error _ => pure false
  | none => enqueueParent runId

end RedisCoordinatorStore

end GpuManager.Coordinator
