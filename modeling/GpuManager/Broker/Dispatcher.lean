import GpuManager.Broker.Repository

/-!
# The dispatcher, the reconciler and the broker as a system

`gemma_broker/dispatcher.py` and the repair half of `gemma_broker/reconcile.py`,
followed by the system they form: any number of clients, each running one method
of the repository, the dispatcher or the reconciler against one Redis namespace.

A transport is opaque to the dispatcher.  What the dispatcher can observe of it
is when it calls `on_accepted`, whether it lets an exception of that callback
through, and how it ends; `Transport` is exactly that, as a strategy.

`dispatch` keeps its own copy of the job across all of this.  `on_accepted` bumps
the version of that copy *before* it tries to write it, and the copy stays bumped
when the write is rejected.
-/

namespace GpuManager.Broker

open AtomicProgram RedisJobRepository

/-- A behaviour of `Transport.send`: it answers, it raises, or it calls
`on_accepted` and goes on according to whether the callback returned or raised.
A timeout of `asyncio.wait_for` is a raised `TimeoutError`. -/
inductive Transport where
  | respond (response : String)
  | raise (e : BrokerError)
  | accept (returned : Transport) (raised : BrokerError → Transport)

/-- The variables `on_accepted` shares with `dispatch`. -/
structure DispatchState where
  accepted : Bool
  current : JobRecord

namespace RedisJobRepository

variable (repo : RedisJobRepository)

/-- The record `on_accepted` writes. -/
def acceptedJob (current : JobRecord) (forwardAt : ℚ) : JobRecord :=
  { current with
    state := .accepted
    acceptedBoundaryCrossed := true
    forwardStartedAt := some forwardAt
    stateVersion := current.stateVersion + 1 }

/-- `on_accepted`: the exception it raises, if any, and the shared variables. -/
def onAccepted (forwardAt : ℚ) (d : DispatchState) :
    Action (Except BrokerError Unit × DispatchState) :=
  if d.accepted then pure (.ok (), d)
  else do
    let current := acceptedJob d.current forwardAt
    let written ← (repo.replaceJob current).attempt
    pure (written.map fun _ => (), ⟨true, current⟩)

def send (forwardAt : ℚ) :
    Transport → DispatchState → Action (Except BrokerError String × DispatchState)
  | .respond response, d => pure (.ok response, d)
  | .raise e, d => pure (.error e, d)
  | .accept returned raised, d => do
      let (callback, d') ← repo.onAccepted forwardAt d
      match callback with
      | .ok () => send forwardAt returned d'
      | .error e => send forwardAt (raised e) d'

def terminalJob (current : JobRecord) (state : JobState) (completedAt : ℚ)
    (reasonCode : Option ReasonCode) (result error : Option String) : JobRecord :=
  { current with
    state := state
    completedAt := some completedAt
    reasonCode := reasonCode
    result := result
    error := error
    stateVersion := current.stateVersion + 1 }

/-- `_release_reservation_lease`. -/
def releaseReservationLease (reservation : Reservation) : Action Unit := do
  match truthy reservation.job.currentAttemptId, reservation.job.memberStateVersion with
  | some attemptId, some claimedVersion => do
      let _ ← releaseMemberLease reservation.member.name attemptId claimedVersion false
      pure ()
  | _, _ => pure ()

/-- Write a terminal record, then release the reservation's lease. -/
def finishReservation (reservation : Reservation) (job : JobRecord) :
    Action JobRecord := do
  let replaced ← repo.replaceJob job
  releaseReservationLease reservation
  pure replaced

/-- What `dispatch` does with a response, once it holds the accepted copy. -/
def completeDispatch (reservation : Reservation) (current : JobRecord)
    (response : String) (completedAt : ℚ) : Action JobRecord :=
  if current.cancelRequested then
    repo.finishReservation reservation
      (terminalJob current .cancelled completedAt (some .cancelledAfterAcceptance)
        current.result current.error)
  else
    repo.finishReservation reservation
      (terminalJob current .completed completedAt none (some response) none)

/-- What `dispatch` does once the transport has ended. -/
def afterSend (reservation : Reservation) (forwardAt completedAt : ℚ)
    (sent : Except BrokerError String) (d : DispatchState) : Action JobRecord :=
  match sent with
  | .error .repositoryUnavailable => .throw .repositoryUnavailable
  | .error (.leadershipLost m) => .throw (.leadershipLost m)
  | .error (.baseException t) => .throw (.baseException t)
  | .error e =>
    if d.accepted then
      repo.finishReservation reservation
        (terminalJob d.current .outcomeUnknown completedAt
          (some .postAcceptanceOutcomeUnknown) d.current.result (some e.text))
    else repo.requeueClaim d.current .preAcceptanceRequeue (some completedAt)
  | .ok response => do
      -- A complete response is itself evidence of acceptance.
      let (callback, d') ← repo.onAccepted forwardAt d
      match callback with
      | .error e => .throw e
      | .ok () => repo.completeDispatch reservation d'.current response completedAt

def dispatchCurrent (reservation : Reservation) (transport : Transport)
    (forwardAt completedAt : ℚ) (current : JobRecord) : Action JobRecord :=
  if current.cancelRequested && !current.acceptedBoundaryCrossed then
    repo.replaceJob
      (terminalJob current .cancelled completedAt (some .cancelledBeforeAcceptance)
        current.result current.error)
  else do
    let (sent, d) ← repo.send forwardAt transport ⟨false, current⟩
    repo.afterSend reservation forwardAt completedAt sent d

/-- `Dispatcher.dispatch`.  `forwardAt` and `completedAt` are the clock's readings
at acceptance and at the end. -/
def dispatch (reservation : Reservation) (transport : Transport)
    (forwardAt completedAt : ℚ) : Action JobRecord := do
  let stored ← get reservation.job.jobId
  repo.dispatchCurrent reservation transport forwardAt completedAt
    (stored.getD reservation.job)

end RedisJobRepository

/-! ## Crash repair -/

inductive CrashVerdict where
  | alive | unknown | conflicting | provenDead
  deriving DecidableEq

structure CrashEvidence where
  failedProbeRounds : ℤ
  systemdActive : Option Bool
  mainPidAlive : Option Bool
  processPresent : Option Bool
  oomExit : Bool := false

def CrashEvidence.verdict (v : CrashEvidence) : CrashVerdict :=
  let signals := [v.systemdActive, v.mainPidAlive, v.processPresent]
  if signals.any (· = some true) && signals.any (· = some false) then .conflicting
  else if signals.all (· = some true) then .alive
  else if v.oomExit && decide (v.processPresent = some false) &&
      decide (v.mainPidAlive = some false) then .provenDead
  else if decide (3 ≤ v.failedProbeRounds) && signals.all (· = some false) then
    .provenDead
  else .unknown

namespace RedisJobRepository

variable (repo : RedisJobRepository)

/-- The record `Reconciler.repair` writes for a job past acceptance. -/
def repairedAfterAcceptance (current : JobRecord) : JobRecord :=
  { current with
    state := .outcomeUnknown
    reasonCode := some .postAcceptanceOutcomeUnknown
    error := some "proven_dead_after_acceptance"
    stateVersion := current.stateVersion + 1 }

/-- `Reconciler.repair`.  `InMemoryRepairFence.acquire` rejects an empty owner or
a fence that is not positive. -/
def repair (jobId : String) (evidence : CrashEvidence) (repairOwner : String)
    (repairFence : ℤ) : Action JobRecord := do
  match ← get jobId with
  | none => .throw (.valueError ("UNKNOWN_JOB_ID:" ++ jobId))
  | some current =>
    if evidence.verdict ≠ .provenDead then pure current
    else if current.state = .queued ∨ current.state.IsTerminal then pure current
    else if repairOwner = "" ∨ repairFence ≤ 0 then
      .throw (.valueError "repair owner and positive fence are required")
    else do
      let acquired ← redis (.acquireRepair jobId repairOwner repairFence)
      if acquired = false then do
        let stored ← get jobId
        pure (stored.getD current)
      else do
        let repaired ←
          if current.acceptedBoundaryCrossed ∨ current.state = .accepted ∨
              current.state = .inFlight then
            repo.replaceJob (repairedAfterAcceptance current)
          else repo.requeueClaim current .preAcceptanceRequeue none
        let _ ← redis (.completeRepair jobId repairOwner repairFence)
        pure repaired

end RedisJobRepository

/-! ## The system -/

/-- A job as `DurableBrokerService.submit` builds it: everything it does not set
has the record's default. -/
structure NewJob where
  jobId : String
  idempotencyKey : String
  requestSha256 : String
  requestBody : String
  submittedAt : ℚ
  enqueueSequence : ℤ
  basePriority : Priority
  inputTokensEstimate : Option ℤ := none
  maxOutputTokens : Option ℤ := none
  requiredCapabilities : List String := []

/-- `JobRecord.new(…)`. -/
def NewJob.record (j : NewJob) : JobRecord :=
  { jobId := j.jobId
    idempotencyKey := j.idempotencyKey
    requestSha256 := j.requestSha256
    requestBody := j.requestBody
    submittedAt := j.submittedAt
    enqueueSequence := j.enqueueSequence
    basePriority := j.basePriority
    inputTokensEstimate := j.inputTokensEstimate
    maxOutputTokens := j.maxOutputTokens
    requiredCapabilities := j.requiredCapabilities }

/-- One call that a client may start.  `dispatch i …` takes over the reservation
that client `i` returned; the same reservation may be dispatched any number of
times. -/
inductive Op where
  | submit (job : NewJob) (callerScope : String)
  | reserveNext (now : ℚ) (orderedMembers : List Candidate)
      (requirements : RequestRequirements) (leaderOwner : String) (fencingToken : ℤ)
      (backendUrl : Option String)
  | cancelQueued (jobId : String) (completedAt : ℚ)
  | requeueClaim (job : JobRecord) (reason : ReasonCode) (terminalAt : Option ℚ)
  | recoverStalePreAcceptanceClaims (now maxAgeSeconds : ℚ) (limit : ℕ)
      (scanned : List String)
  | reconcileDeadJob (jobId repairOwner : String) (repairFence : ℤ)
  | reconcileStalePostAcceptanceJobs (repairOwner : String) (repairFence : ℤ)
      (limit : ℕ) (scanned : List String)
  | dispatch (reserver : ℕ) (transport : Transport) (forwardAt completedAt : ℚ)
  | repair (jobId : String) (evidence : CrashEvidence) (repairOwner : String)
      (repairFence : ℤ)
  | putMember (member : MemberSnapshot)
  | releaseMemberLease (name attemptId : String) (claimedMemberStateVersion : ℤ)
      (enforceStateVersionFence : Bool)
  | beginMemberDrain (name : String) (expectedStateVersion : ℤ)
  | completeMemberDrain (name : String) (expectedStateVersion : ℤ)
  | beginMemberRejoin (name : String) (expectedStateVersion generationFence : ℤ)
  | completeMemberRejoin (name : String) (expectedStateVersion : ℤ)
      (readiness : MemberSnapshot)
  | acquireLeadership (owner : String) (leaseNow ttlSeconds : ℚ)
  | renewLeadership (owner : String) (fencingToken : ℤ) (leaseNow ttlSeconds : ℚ)
  | expireAttempt (id : String)

/-- What a call returns. -/
inductive Outcome where
  | job (record : JobRecord)
  | jobs (records : List JobRecord)
  | reservation (r : Option Reservation)
  | member (snapshot : MemberSnapshot)
  | token (n : ℕ)
  | nothing

def reservationOf (r : Option (Except BrokerError Outcome)) : Option Reservation :=
  match r with
  | some (.ok (.reservation (some reservation))) => some reservation
  | _ => none

def launch (results : ℕ → Option (Except BrokerError Outcome)) :
    RedisJobRepository × Op → Option (Action Outcome)
  | (repo, .submit job scope) => some (Outcome.job <$> repo.submit job.record scope)
  | (repo, .reserveNext now members requirements owner token url) =>
    some (Outcome.reservation <$>
      repo.reserveNext now members requirements owner token url)
  | (_, .cancelQueued jobId completedAt) =>
    some (Outcome.job <$> cancelQueued jobId completedAt)
  | (repo, .requeueClaim job reason terminalAt) =>
    some (Outcome.job <$> repo.requeueClaim job reason terminalAt)
  | (repo, .recoverStalePreAcceptanceClaims now maxAge limit scanned) =>
    some (Outcome.jobs <$>
      repo.recoverStalePreAcceptanceClaims now maxAge limit scanned)
  | (repo, .reconcileDeadJob jobId owner fence) =>
    some (Outcome.job <$> repo.reconcileDeadJob jobId owner fence)
  | (repo, .reconcileStalePostAcceptanceJobs owner fence limit scanned) =>
    some (Outcome.jobs <$>
      repo.reconcileStalePostAcceptanceJobs owner fence limit scanned)
  | (repo, .dispatch reserver transport forwardAt completedAt) =>
    (reservationOf (results reserver)).map fun reservation =>
      Outcome.job <$> repo.dispatch reservation transport forwardAt completedAt
  | (repo, .repair jobId evidence owner fence) =>
    some (Outcome.job <$> repo.repair jobId evidence owner fence)
  | (_, .putMember member) =>
    some (Outcome.member <$> putMember member)
  | (_, .releaseMemberLease name attemptId version enforce) =>
    some (Outcome.member <$>
      releaseMemberLease name attemptId version enforce)
  | (_, .beginMemberDrain name version) =>
    some (Outcome.member <$> beginMemberDrain name version)
  | (_, .completeMemberDrain name version) =>
    some (Outcome.member <$> completeMemberDrain name version)
  | (_, .beginMemberRejoin name version fence) =>
    some (Outcome.member <$> beginMemberRejoin name version fence)
  | (_, .completeMemberRejoin name version readiness) =>
    some (Outcome.member <$>
      completeMemberRejoin name version readiness)
  | (_, .acquireLeadership owner now ttl) =>
    some (Outcome.token <$> acquireLeadership owner now ttl)
  | (_, .renewLeadership owner token now ttl) =>
    some (Outcome.token <$> renewLeadership owner token now ttl)
  | (_, .expireAttempt id) =>
    some ((fun _ => Outcome.nothing) <$> redis (.expireAttempt id))

/-- **The broker.**  Any number of clients over one Redis namespace. -/
def broker : System Store Cmd Cmd.Reply BrokerError Outcome (RedisJobRepository × Op) where
  exec := exec
  launch := launch

/-- No client and an empty namespace. -/
def idle : Config Store Cmd Cmd.Reply BrokerError Outcome := ⟨Store.empty, []⟩

/-- A step of a broker run. -/
abbrev BrokerLabel := Label (RedisJobRepository × Op)

end GpuManager.Broker
