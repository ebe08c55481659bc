import Mathlib.Data.Rat.Floor
import GpuManager.Lib.Interleaving
import GpuManager.Broker.Scripts

/-!
# `RedisJobRepository`

The methods of `gemma_broker/redis_store.py` as programs over single Redis
commands and scripts.  Every `HGET`, `ZRANGE`, `ZSCORE`, `SCARD` and `EVAL` of
the source is one command here, in the source's order, so the places where
another client can run are exactly the places where it can run in production.

What a method receives from outside the store is an argument: the clock
readings, the attempt ids drawn from `uuid4`, and the keys that a `SCAN` loop
happens to return.
-/

namespace GpuManager.Broker

open AtomicProgram Lua ReasonCode

/-- The atomic commands the broker issues.  `expireAttempt` is Redis dropping a
key whose retention has passed; `acquireRepair` and `completeRepair` are the
locked sections of the process-local repair fence. -/
inductive Cmd where
  | getJob (id : String)
  | getAttempt (id : String)
  | getMember (name : String)
  | queueFirst (p : Priority)
  | queueScore (p : Priority) (id : String)
  | memberFree (name : String)
  | memberVersion (name : String)
  | leaseCount (name : String)
  | memberState (name : String)
  | memberAccepting (name : String)
  | submitJob (digest : String) (job : JobRecord)
  | cancelQueued (current : JobRecord) (completedAt : ℚ)
  | reserveJob (a : ReserveArgs)
  | requeueClaim (a : RequeueArgs)
  | replaceJob (job : JobRecord) (attempt : Option AttemptRecord) (retention : ℤ)
  | repairDeadJob (a : RepairArgs)
  | memberDrain (a : DrainArgs)
  | refreshMemberMirror (a : RefreshArgs)
  | acquireLeader (owner : String) (now ttl : ℚ)
  | renewLeader (owner : String) (token : ℤ) (now ttl : ℚ)
  | expireAttempt (id : String)
  | acquireRepair (jobId owner : String) (fence : ℤ)
  | completeRepair (jobId owner : String) (fence : ℤ)

/-- What each command returns. -/
@[reducible] def Cmd.Reply : Cmd → Type
  | getJob _ => Option JobRecord
  | getAttempt _ => Option AttemptRecord
  | getMember _ => Option MemberSnapshot
  | queueFirst _ => Option String
  | queueScore _ _ => Option ℤ
  | memberFree _ => Option ℤ
  | memberVersion _ => Option ℤ
  | leaseCount _ => ℕ
  | memberState _ => Option MemberState
  | memberAccepting _ => Option Bool
  | submitJob _ _ => Except LuaError SubmitReply
  | cancelQueued _ _ => Except LuaError CancelReply
  | reserveJob _ => Except LuaError Unit
  | requeueClaim _ => Except LuaError Unit
  | replaceJob _ _ _ => Except LuaError Unit
  | repairDeadJob _ => Except LuaError RepairReply
  | memberDrain _ => Except LuaError (Option (ℕ × ℤ))
  | refreshMemberMirror _ => ℕ × ℤ
  | acquireLeader _ _ _ => Except LuaError (ℕ × ℚ)
  | renewLeader _ _ _ _ => Except LuaError (ℕ × ℚ)
  | expireAttempt _ => Unit
  | acquireRepair _ _ _ => Bool
  | completeRepair _ _ _ => Unit

/-- The effect of one command. -/
def exec : (c : Cmd) → Store → c.Reply × Store
  | .getJob id, s => ((s.jobs id).map JobHash.record, s)
  | .getAttempt id, s => ((s.attempts id).map AttemptHash.record, s)
  | .getMember name, s => ((s.members name).map MemberHash.record, s)
  | .queueFirst p, s => ((s.queues p).first, s)
  | .queueScore p id, s => ((s.queues p).score id, s)
  | .memberFree name, s => ((s.members name).map MemberHash.compatibleFreeSlots, s)
  | .memberVersion name, s => ((s.members name).map MemberHash.stateVersion, s)
  | .leaseCount name, s => ((s.leases name).card, s)
  | .memberState name, s => ((s.members name).map MemberHash.state, s)
  | .memberAccepting name, s => ((s.members name).map MemberHash.accepting, s)
  | .submitJob digest job, s => submitJob digest job s
  | .cancelQueued current completedAt, s => cancelQueued current completedAt s
  | .reserveJob a, s => reserveJob a s
  | .requeueClaim a, s => requeueClaim a s
  | .replaceJob job attempt retention, s => replaceJob job attempt retention s
  | .repairDeadJob a, s => repairDeadJob a s
  | .memberDrain a, s => memberDrain a s
  | .refreshMemberMirror a, s => refreshMemberMirror a s
  | .acquireLeader owner now ttl, s => acquireLeader owner now ttl s
  | .renewLeader owner token now ttl, s => renewLeader owner token now ttl s
  | .expireAttempt id, s => ((), expireAttempt id s)
  | .acquireRepair jobId owner fence, s => acquireRepair jobId owner fence s
  | .completeRepair jobId owner fence, s => ((), completeRepair jobId owner fence s)

/-- A method body: a program over the broker's commands. -/
abbrev Action (α : Type) := Prog Cmd Cmd.Reply BrokerError α

/-- Issue one command. -/
def redis (c : Cmd) : Action c.Reply := Prog.perform c

/-- `Reservation`. -/
structure Reservation where
  job : JobRecord
  member : MemberSnapshot
  attempt : AttemptRecord

/-- A candidate member of one reservation round, with the attempt id drawn for
it and the leadership clock's reading when its turn comes. -/
structure Candidate where
  member : MemberSnapshot
  attemptId : String
  leadershipNow : ℚ

/-- A repository client.  The constructor of the source rejects a non-positive
aging or retention; `sha256` is the digest behind the idempotency keys. -/
structure RedisJobRepository where
  agingSeconds : ℚ
  terminalAttemptRetentionSeconds : ℤ
  sha256 : String → String
  aging_pos : 0 < agingSeconds
  retention_pos : 0 < terminalAttemptRetentionSeconds

/-- `effective_priority`, for a positive aging period. -/
def effectivePriority (base : Priority) (submittedAt now agingSeconds : ℚ) : ℤ :=
  max Priority.interactive.toInt
    (base.toInt - 10 * ⌊max 0 (now - submittedAt) / agingSeconds⌋)

namespace RedisJobRepository

variable (repo : RedisJobRepository)

/-! ## Jobs -/

/-- `get`. -/
def get (jobId : String) : Action (Option JobRecord) := redis (.getJob jobId)

/-- `get_attempt`. -/
def getAttempt (attemptId : String) : Action (Option AttemptRecord) :=
  redis (.getAttempt attemptId)

/-- `submit`. -/
def submit (job : JobRecord) (callerScope : String) : Action JobRecord := do
  let stored := { job with effectivePriority := job.basePriority.toInt }
  let digest := repo.sha256 (callerScope ++ "\x00" ++ stored.idempotencyKey)
  match ← redis (.submitJob digest stored) with
  | .error .idempotencyKeyReused =>
    .throw (.contractError idempotencyKeyReused.value)
  | .error .duplicateJobId =>
    .throw (.contractError ("DUPLICATE_JOB_ID:" ++ stored.jobId))
  | .error _ => .throw .repositoryUnavailable
  | .ok (.existing returnedId) =>
    match ← get returnedId with
    | none => .throw .repositoryUnavailable
    | some existing => pure existing
  | .ok (.created returnedId) =>
    if returnedId ≠ stored.jobId then .throw .repositoryUnavailable
    else pure stored

/-- `_queue_head`. -/
def queueHead (p : Priority) : Action (Option JobRecord) := do
  match ← redis (.queueFirst p) with
  | none => pure none
  | some jobId =>
    match ← get jobId with
    | none => .throw .repositoryUnavailable
    | some job =>
      if job.state ≠ .queued then
        match ← redis (.queueScore p jobId) with
        | none => pure none
        | some _ => .throw .repositoryUnavailable
      else pure (some job)

def queueHeads : List Priority → Action (List JobRecord)
  | [] => pure []
  | p :: ps => do
      let head ← queueHead p
      let rest ← queueHeads ps
      pure (head.toList ++ rest)

/-- The key `peek_next` minimises. -/
def headKey (now : ℚ) (job : JobRecord) : ℤ × ℤ :=
  (effectivePriority job.basePriority job.submittedAt now repo.agingSeconds,
    job.enqueueSequence)

/-- `min(heads, key=…)`: the first job with the least key. -/
def selectHead (now : ℚ) : List JobRecord → Option JobRecord
  | [] => none
  | job :: rest =>
    match selectHead now rest with
    | none => some job
    | some other =>
      if toLex (repo.headKey now other) < toLex (repo.headKey now job) then
        some other
      else some job

/-- `peek_next`. -/
def peekNext (now : ℚ) : Action (Option JobRecord) := do
  let heads ← queueHeads Priority.all
  pure ((repo.selectHead now heads).map fun selected =>
    { selected with
      effectivePriority := effectivePriority selected.basePriority
        selected.submittedAt now repo.agingSeconds })

/-- The checks of `AttemptRecord.__post_init__`: the first one that fails. -/
def invalidAttempt (attempt : AttemptRecord) : Option String :=
  if attempt.attemptId = "" then some "ATTEMPT_ATTEMPT_ID_INVALID"
  else if attempt.jobId = "" then some "ATTEMPT_JOB_ID_INVALID"
  else if attempt.memberName = "" then some "ATTEMPT_MEMBER_NAME_INVALID"
  else if attempt.backendUrl = "" then some "ATTEMPT_BACKEND_URL_INVALID"
  else if attempt.reservationFence ≤ 0 then some "ATTEMPT_RESERVATION_FENCE_INVALID"
  else none

def reserveFrom (selected : JobRecord) (now : ℚ) (leaderOwner : String)
    (fencingToken : ℤ) (backendUrl : Option String) :
    List Candidate → Bool → Action (Option Reservation)
  | [], staleSeen =>
    if staleSeen then
      .throw (.reservationStale reservationStateStale.value)
    else pure none
  | c :: rest, _ => do
      let a : ReserveArgs :=
        { selected := selected
          member := c.member
          now := now
          attemptId := c.attemptId
          leaderOwner := leaderOwner
          fencingToken := fencingToken
          backendUrl := (truthy backendUrl).getD ("member://" ++ c.member.name)
          leadershipNow := c.leadershipNow }
      match invalidAttempt a.attempt with
      | some message => .throw (.contractError message)
      | none =>
        match ← redis (.reserveJob a) with
        | .ok () => pure (some ⟨a.claimed, a.reservedMember, a.attempt⟩)
        | .error .dispatcherFenceStale =>
          .throw (.leadershipLost "DISPATCHER_FENCE_STALE")
        | .error .reservationMemberVersionStale =>
          .throw (.reservationStale reservationStateStale.value)
        | .error .reservationMemberUnavailable =>
          reserveFrom selected now leaderOwner fencingToken backendUrl rest true
        | .error .queueHeadStale => .throw (.reservationStale "QUEUE_HEAD_STALE")
        | .error .jobStateVersionStale | .error .attemptExists =>
          .throw (.reservationStale reservationStateStale.value)
        | .error .jobNotQueued | .error .queueClaimConflict => pure none
        | .error _ => .throw .repositoryUnavailable

/-- `reserve_next`. -/
def reserveNext (now : ℚ) (orderedMembers : List Candidate)
    (requirements : RequestRequirements) (leaderOwner : String) (fencingToken : ℤ)
    (backendUrl : Option String) : Action (Option Reservation) := do
  match ← repo.peekNext now with
  | none => pure none
  | some selected =>
    let candidates := orderedMembers.filter fun c =>
      c.member.accepting && evaluate requirements c.member
    reserveFrom selected now leaderOwner fencingToken backendUrl candidates false

/-- `cancel_queued`. -/
def cancelQueued (jobId : String) (completedAt : ℚ) : Action JobRecord := do
  match ← get jobId with
  | none => .throw (.contractError ("UNKNOWN_JOB_ID:" ++ jobId))
  | some current =>
    if current.state ≠ .queued then pure current
    else
      match ← redis (.cancelQueued current completedAt) with
      | .error .unknownJobId => .throw (.contractError ("UNKNOWN_JOB_ID:" ++ jobId))
      | .error .jobStateVersionStale =>
        .throw (.reservationStale "JOB_STATE_VERSION_STALE")
      | .error _ => .throw .repositoryUnavailable
      | .ok .alreadyNotQueued => do
          let stored ← get jobId
          pure (stored.getD current)
      | .ok .cancelled => pure (cancelledQueued current completedAt)

/-- `get_member`. -/
def getMember (name : String) : Action (Option MemberSnapshot) :=
  redis (.getMember name)

def requeueScript (a : RequeueArgs) : Action JobRecord := do
  match ← redis (.requeueClaim a) with
  | .ok () => pure a.queued
  | .error .unknownJobId =>
    .throw (.contractError ("UNKNOWN_JOB_ID:" ++ a.current.jobId))
  | .error .jobStateVersionStale | .error .reservationStateStale =>
    .throw (.reservationStale reservationStateStale.value)
  | .error .requeueInvalidState => .throw (.contractError "REQUEUE_INVALID_STATE")
  | .error .cancelUnsafeAfterAcceptance =>
    .throw (.contractError cancelUnsafeAfterAcceptance.value)
  | .error _ => .throw .repositoryUnavailable

/-- `requeue_claim`. -/
def requeueClaim (job : JobRecord) (reason : ReasonCode) (terminalAt : Option ℚ) :
    Action JobRecord := do
  match ← get job.jobId with
  | none => .throw (.contractError ("UNKNOWN_JOB_ID:" ++ job.jobId))
  | some current =>
    if ¬ current.state.IsActive then
      .throw (.contractError ("REQUEUE_INVALID_STATE:" ++ current.state.value))
    else if current.acceptedBoundaryCrossed then
      .throw (.contractError cancelUnsafeAfterAcceptance.value)
    else
      match truthy current.currentAttemptId with
      | none => .throw .repositoryUnavailable
      | some attemptId =>
        match ← getAttempt attemptId with
        | none => .throw .repositoryUnavailable
        | some attempt =>
          if attempt.acceptedBoundaryCrossed then .throw .repositoryUnavailable
          else do
            let member ← match truthy current.selectedMember with
              | none => pure none
              | some name => getMember name
            requeueScript
              { current := current
                attempt := attempt
                attemptId := attemptId
                member := member
                reason := reason
                terminalAt := terminalAt
                retention := repo.terminalAttemptRetentionSeconds }

/-- Whether `recover_stale_pre_acceptance_claims` takes a job. -/
def isStaleClaim (now maxAgeSeconds : ℚ) (current : JobRecord) : Bool :=
  decide (current.state = .claimed) && !current.acceptedBoundaryCrossed &&
    current.forwardStartedAt.isNone && (truthy current.currentAttemptId).isSome &&
    current.queueClaimedAt.any fun t => decide (maxAgeSeconds ≤ now - t)

/-- The scan loop of `recover_stale_pre_acceptance_claims`. -/
def recoverScanned (now maxAgeSeconds : ℚ) (limit : ℕ) :
    List String → List JobRecord → Action (List JobRecord)
  | [], recovered => pure recovered
  | jobId :: rest, recovered => do
      if limit ≤ recovered.length then pure recovered
      else
        match ← get jobId with
        | none => recoverScanned now maxAgeSeconds limit rest recovered
        | some current =>
          if isStaleClaim now maxAgeSeconds current then
            match ← (repo.requeueClaim current .preAcceptanceRequeue (some now)).attempt with
            | .ok job => recoverScanned now maxAgeSeconds limit rest (recovered ++ [job])
            | .error (.reservationStale _) | .error (.contractError _) =>
              recoverScanned now maxAgeSeconds limit rest recovered
            | .error e => .throw e
          else recoverScanned now maxAgeSeconds limit rest recovered

/-- `recover_stale_pre_acceptance_claims`; `scanned` are the job ids that the
`SCAN` loop returns. -/
def recoverStalePreAcceptanceClaims (now maxAgeSeconds : ℚ) (limit : ℕ)
    (scanned : List String) : Action (List JobRecord) :=
  if maxAgeSeconds ≤ 0 ∨ limit = 0 then
    .throw (.valueError "positive recovery age and limit are required")
  else repo.recoverScanned now maxAgeSeconds limit scanned []

/-- The attempt state that `_attempt_for_job` records for a job state. -/
def attemptStateFor : JobState → Option AttemptState
  | .accepted => some .accepted
  | .inFlight => some .forwarding
  | .completed => some .completed
  | .failed => some .failed
  | .cancelled => some .failed
  | .outcomeUnknown => some .outcomeUnknown
  | .queued | .claimed => none

/-- `_attempt_for_job`. -/
def attemptForJob (job : JobRecord) : Action (Option AttemptRecord) := do
  match truthy job.currentAttemptId, attemptStateFor job.state with
  | some attemptId, some state =>
    match ← getAttempt attemptId with
    | none => .throw .repositoryUnavailable
    | some attempt =>
      pure (some
        { attempt with
          state := state
          terminalAt :=
            if job.state.IsTerminal then job.completedAt else attempt.terminalAt
          transitionHistory := attempt.transitionHistory ++ [state.value] })
  | _, _ => pure none

/-- `replace_job`. -/
def replaceJob (job : JobRecord) : Action JobRecord := do
  if job.stateVersion - 1 < 1 then
    .throw (.contractError "JOB_STATE_VERSION_INVALID")
  else do
    let attempt ← attemptForJob job
    match ← redis
        (.replaceJob job attempt repo.terminalAttemptRetentionSeconds) with
    | .ok () => pure job
    | .error .unknownJobId => .throw (.contractError ("UNKNOWN_JOB_ID:" ++ job.jobId))
    | .error .jobStateVersionStale =>
      .throw (.reservationStale "JOB_STATE_VERSION_STALE")
    | .error _ => .throw .repositoryUnavailable

/-- `reconcile_dead_job`. -/
def reconcileDeadJob (jobId repairOwner : String) (repairFence : ℤ) :
    Action JobRecord := do
  if repairOwner = "" ∨ repairFence ≤ 0 then
    .throw (.valueError "repair owner and positive fence are required")
  else
    match ← get jobId with
    | none => .throw (.contractError ("UNKNOWN_JOB_ID:" ++ jobId))
    | some current =>
      if current.state = .queued ∨ current.state.IsTerminal then pure current
      else
        match truthy current.selectedMember, truthy current.currentAttemptId with
        | some memberName, some attemptId =>
          match ← getAttempt attemptId with
          | none => .throw .repositoryUnavailable
          | some attempt => do
              let a : RepairArgs :=
                { owner := repairOwner
                  fence := repairFence
                  current := current
                  attempt := attempt
                  memberName := memberName
                  retention := repo.terminalAttemptRetentionSeconds }
              match ← redis (.repairDeadJob a) with
              | .error .unknownJobId =>
                .throw (.contractError ("UNKNOWN_JOB_ID:" ++ jobId))
              | .error .jobStateVersionStale =>
                .throw (.reservationStale "JOB_STATE_VERSION_STALE")
              | .error _ => .throw .repositoryUnavailable
              | .ok .repaired => pure a.repaired
              | .ok _ => do
                  let stored ← get jobId
                  pure (stored.getD current)
        | _, _ => .throw .repositoryUnavailable

/-- The scan loop of `reconcile_stale_post_acceptance_jobs`. -/
def reconcileScanned (repairOwner : String) (repairFence : ℤ) (limit : ℕ) :
    List String → List JobRecord → Action (List JobRecord)
  | [], recovered => pure recovered
  | jobId :: rest, recovered => do
      let next := reconcileScanned repairOwner repairFence limit rest
      match ← get jobId with
      | none => next recovered
      | some current =>
        if (current.state = .accepted ∨ current.state = .inFlight) ∧
            current.acceptedBoundaryCrossed ∧
            (truthy current.selectedMember).isSome then
          match truthy current.currentAttemptId with
          | none => next recovered
          | some attemptId =>
            match ← getAttempt attemptId with
            | none => next recovered
            | some attempt =>
              if (attempt.state = .accepted ∨ attempt.state = .forwarding) ∧
                  attempt.reservationFence < repairFence then do
                let repaired ← repo.reconcileDeadJob jobId repairOwner repairFence
                let recovered' :=
                  if repaired.state = .outcomeUnknown then recovered ++ [repaired]
                  else recovered
                if limit ≤ recovered'.length then pure recovered'
                else next recovered'
              else next recovered
        else next recovered

def reconcileStalePostAcceptanceJobs (repairOwner : String) (repairFence : ℤ)
    (limit : ℕ) (scanned : List String) : Action (List JobRecord) :=
  if repairOwner = "" ∨ repairFence ≤ 0 then
    .throw (.valueError "repair owner and positive fence are required")
  else if limit = 0 then
    .throw (.valueError "repair limit must be a positive integer")
  else
    repo.reconcileScanned repairOwner repairFence limit
      (scanned.filter (· ≠ "")) []

/-! ## Members -/

/-- `put_member`: five reads, then the refresh script. -/
def putMember (member : MemberSnapshot) : Action MemberSnapshot := do
  let currentFree ← redis (.memberFree member.name)
  let currentStateVersion ← redis (.memberVersion member.name)
  let liveLeases ← redis (.leaseCount member.name)
  let currentState ← redis (.memberState member.name)
  let currentAccepting ← redis (.memberAccepting member.name)
  let a : RefreshArgs :=
    { member := member
      currentFree := currentFree
      currentStateVersion := currentStateVersion
      liveLeases := liveLeases
      currentState := currentState
      currentAccepting := currentAccepting }
  let result ← redis (.refreshMemberMirror a)
  pure
    { a.recordMember with
      dispatcherLeases := result.1
      compatibleFreeSlots := some result.2 }

/-- `_commit_member_drain`. -/
def commitMemberDrain (a : DrainArgs) : Action MemberSnapshot := do
  match ← redis (.memberDrain a) with
  | .ok none => pure a.updated
  | .ok (some (live, free)) =>
    pure { a.updated with dispatcherLeases := live, compatibleFreeSlots := some free }
  | .error .unknownMember => .throw (.contractError ("UNKNOWN_MEMBER:" ++ a.current.name))
  | .error .reservationStateStale => .throw (.reservationStale "RESERVATION_STATE_STALE")
  | .error .leaseNotOwned => .throw (.reservationStale "LEASE_NOT_OWNED")
  | .error .memberLeasesRemain => .throw (.reservationStale "MEMBER_LEASES_REMAIN")
  | .error .generationFenceStale => .throw (.contractError "GENERATION_FENCE_STALE")
  | .error .drainInvalidState => .throw (.contractError "DRAIN_INVALID_STATE")
  | .error .rejoinInvalidState => .throw (.contractError "REJOIN_INVALID_STATE")
  | .error .memberStateVersionInvalid =>
    .throw (.contractError "MEMBER_STATE_VERSION_INVALID")
  | .error _ => .throw .repositoryUnavailable

def afterTransition (current target : MemberState) (next : Action MemberSnapshot) :
    Action MemberSnapshot :=
  if target ∈ allowedMemberTransitions current then next
  else .throw (.contractError
    ("ILLEGAL_MEMBER_TRANSITION:" ++ current.value ++ "->" ++ target.value))

/-- `get_member` followed by the version check that every lifecycle method
makes. -/
def memberAtVersion (name : String) (expectedStateVersion : ℤ)
    (next : MemberSnapshot → Action MemberSnapshot) : Action MemberSnapshot := do
  match ← getMember name with
  | none => .throw (.contractError ("UNKNOWN_MEMBER:" ++ name))
  | some current =>
    if current.stateVersion ≠ expectedStateVersion then
      .throw (.reservationStale reservationStateStale.value)
    else next current

/-- `tuple(dict.fromkeys((*items, item)))`: append unless present, first
occurrences kept. -/
def appendUnique {α : Type} [DecidableEq α] (items : List α) (item : α) : List α :=
  (items ++ [item]).reverse.dedup.reverse

/-- `begin_member_drain`. -/
def beginMemberDrain (name : String) (expectedStateVersion : ℤ) :
    Action MemberSnapshot :=
  memberAtVersion name expectedStateVersion fun current =>
    if current.state = .draining then pure current
    else
      afterTransition current.state .draining
        (commitMemberDrain
          { mode := .begin
            current := current
            updated :=
              { current with
                state := .draining
                accepting := false
                compatibleFreeSlots := some 0
                stateVersion := current.stateVersion + 1
                blockers := appendUnique current.blockers "member_draining"
                reasonCodes := appendUnique current.reasonCodes .memberDraining } })

def releasedMember (current : MemberSnapshot) : MemberSnapshot :=
  { current with
    dispatcherLeases := 0
    drainDisabledSlots :=
      if current.state = .draining then current.drainDisabledSlots + 1
      else current.drainDisabledSlots
    compatibleFreeSlots := some 0
    stateVersion := current.stateVersion + 1 }

/-- `release_member_lease`. -/
def releaseMemberLease (name attemptId : String) (claimedMemberStateVersion : ℤ)
    (enforceStateVersionFence : Bool) : Action MemberSnapshot := do
  match ← getMember name with
  | none => .throw (.contractError ("UNKNOWN_MEMBER:" ++ name))
  | some current =>
    commitMemberDrain
      { mode := if enforceStateVersionFence then .release else .releaseV2
        current := current
        updated := releasedMember current
        claimedVersion := claimedMemberStateVersion
        attemptId := attemptId }

/-- `complete_member_drain`. -/
def completeMemberDrain (name : String) (expectedStateVersion : ℤ) :
    Action MemberSnapshot :=
  memberAtVersion name expectedStateVersion fun current =>
    afterTransition current.state .offline
      (commitMemberDrain
        { mode := .complete
          current := current
          updated :=
            { current with
              state := .offline
              accepting := false
              compatibleFreeSlots := some 0
              stateVersion := current.stateVersion + 1 } })

/-- `begin_member_rejoin`. -/
def beginMemberRejoin (name : String) (expectedStateVersion generationFence : ℤ) :
    Action MemberSnapshot :=
  memberAtVersion name expectedStateVersion fun current =>
    if generationFence ≤ current.generationFence then
      .throw (.contractError "GENERATION_FENCE_STALE")
    else
      afterTransition current.state .joining
        (commitMemberDrain
          { mode := .beginRejoin
            current := current
            updated :=
              { current with
                state := .joining
                accepting := false
                compatibleFreeSlots := some 0
                generationFence := generationFence.toNat
                stateVersion := current.stateVersion + 1 } })

/-- `complete_member_rejoin`. -/
def completeMemberRejoin (name : String) (expectedStateVersion : ℤ)
    (readiness : MemberSnapshot) : Action MemberSnapshot :=
  memberAtVersion name expectedStateVersion fun current =>
    if readiness.name ≠ name then .throw (.contractError "READINESS_MEMBER_MISMATCH")
    else if readiness.state ≠ .readyAccepting ∨ readiness.accepting = false then
      .throw (.contractError "MEMBER_NOT_READY")
    else if readiness.blockers ≠ [] ∨ readiness.reasonCodes ≠ [] then
      .throw (.contractError "MEMBER_NOT_READY")
    else
      afterTransition current.state .readyAccepting
        (commitMemberDrain
          { mode := .completeRejoin
            current := current
            updated :=
              { readiness with
                state := .readyAccepting
                accepting := true
                generationFence := current.generationFence
                stateVersion := current.stateVersion + 1
                drainDisabledSlots := 0
                dispatcherLeases := 0 } })

/-! ## Leadership -/

/-- `acquire_leadership`; `leaseNow` is the leadership clock's reading, or `now`
where the repository has none. -/
def acquireLeadership (owner : String) (leaseNow ttlSeconds : ℚ) : Action ℕ := do
  if owner = "" ∨ ttlSeconds ≤ 0 then
    .throw (.valueError "leader owner and positive ttl_seconds are required")
  else
    match ← redis (.acquireLeader owner leaseNow ttlSeconds) with
    | .ok (token, _) => pure token
    | .error .dispatcherLeaseHeld => .throw (.leadershipLost "DISPATCHER_LEASE_HELD")
    | .error _ => .throw .repositoryUnavailable

/-- `renew_leadership`. -/
def renewLeadership (owner : String) (fencingToken : ℤ) (leaseNow ttlSeconds : ℚ) :
    Action ℕ := do
  if owner = "" ∨ fencingToken ≤ 0 ∨ ttlSeconds ≤ 0 then
    .throw (.valueError "valid leader owner, fencing token, and ttl are required")
  else
    match ← redis (.renewLeader owner fencingToken leaseNow ttlSeconds) with
    | .ok (token, _) => pure token
    | .error .dispatcherFenceStale => .throw (.leadershipLost "DISPATCHER_FENCE_STALE")
    | .error _ => .throw .repositoryUnavailable

end RedisJobRepository

end GpuManager.Broker
