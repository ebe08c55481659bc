import GpuManager.Broker.Store

/-!
# The broker's Lua scripts

Each script of `gemma_broker/lua/` and the two inline scripts that
`put_member` and the drain path use, as a function from the store to a reply and
the store it leaves.  A script is atomic, so this is its whole meaning.

A script's arguments are the Python values its caller computes them from: the
record that was *read*, from which `ARGV` is derived by the pure functions below
(`ReserveArgs.claimed`, `RequeueArgs.queued`, `RefreshArgs.effectiveVersion`,
…).  The text comparisons of the scripts (`HGET … ~= ARGV[…]`) compare decimal
integers and are written as comparisons of integers.

The script that matters most for what follows is `replaceJob`: it compares the
version and nothing else.
-/

namespace GpuManager.Broker

inductive LuaError where
  | idempotencyKeyReused | duplicateJobId | unknownJobId | jobStateVersionStale
  | unknownAttemptId | attemptStateStale
  | redisStateUnknown | dispatcherFenceStale | dispatcherLeaseHeld
  | reservationMemberVersionStale | reservationMemberUnavailable | jobNotQueued
  | queueHeadStale | attemptExists | queueClaimConflict | requeueInvalidState
  | cancelUnsafeAfterAcceptance | reservationStateStale | unknownMember
  | memberStateVersionInvalid | drainInvalidState | leaseNotOwned
  | memberLeasesRemain | rejoinInvalidState | generationFenceStale
  deriving DecidableEq

/-- The slot count `reserve_job.lua` uses: the top-level field, or the record's
where that field is not positive. -/
def MemberHash.slots (m : MemberHash) : ℤ :=
  if m.configuredSlots ≤ 0 then m.record.configuredSlots else m.configuredSlots

/-- The fence test of `reserve_job.lua`: the leader hash holds exactly this owner
and token, and it has not expired. -/
def Store.fencePasses (s : Store) (owner : String) (token : ℤ) (now : ℚ) : Prop :=
  ∃ l ∈ s.leader, l.owner = owner ∧ (l.token : ℤ) = token ∧ now < l.expiresAt

instance (s : Store) (owner : String) (token : ℤ) (now : ℚ) :
    Decidable (s.fencePasses owner token now) :=
  decidable_of_iff (s.leader.any fun l =>
      decide (l.owner = owner ∧ (l.token : ℤ) = token ∧ now < l.expiresAt))
    (by cases h : s.leader <;> simp [Store.fencePasses, h])

namespace Lua

/-! ## Submission and queued cancellation -/

inductive SubmitReply where
  | existing (jobId : String)
  | created (jobId : String)
  deriving DecidableEq

/-- `submit_job.lua`.  The script writes the state `queued` whatever the record
says. -/
def submitJob (digest : String) (job : JobRecord) (s : Store) :
    Except LuaError SubmitReply × Store :=
  match s.idempotency digest with
  | some prior =>
    if prior.requestSha256 ≠ job.requestSha256 then
      (.error .idempotencyKeyReused, s)
    else (.ok (.existing prior.jobId), s)
  | none =>
    if (s.jobs job.jobId).isSome then (.error .duplicateJobId, s)
    else
      let s₁ : Store :=
        { s with
          idempotency := Function.update s.idempotency digest
            (some ⟨job.requestSha256, job.jobId⟩) }
      (.ok (.created job.jobId),
        (s₁.putJob job.jobId
          { record := job, state := .queued, stateVersion := job.stateVersion }).zadd
          job.basePriority job.enqueueSequence job.jobId)

def cancelledQueued (current : JobRecord) (completedAt : ℚ) : JobRecord :=
  { current with
    state := .cancelled
    completedAt := some completedAt
    reasonCode := some .cancelledBeforeAcceptance
    stateVersion := current.stateVersion + 1 }

inductive CancelReply where
  | alreadyNotQueued | cancelled
  deriving DecidableEq

/-- `cancel_queued.lua`. -/
def cancelQueued (current : JobRecord) (completedAt : ℚ) (s : Store) :
    Except LuaError CancelReply × Store :=
  match s.jobs current.jobId with
  | none => (.error .unknownJobId, s)
  | some h =>
    if h.state ≠ .queued then (.ok .alreadyNotQueued, s)
    else if h.stateVersion ≠ current.stateVersion then
      (.error .jobStateVersionStale, s)
    else if current.jobId ∉ s.queues current.basePriority then
      (.error .redisStateUnknown, s)
    else
      (.ok .cancelled,
        (s.zrem current.basePriority current.jobId).putJob current.jobId
          { h with
            record := cancelledQueued current completedAt
            state := .cancelled
            stateVersion := current.stateVersion + 1 })

/-! ## Reservation -/

/-- What one round of the candidate loop of `reserve_next` passes to
`reserve_job.lua`. -/
structure ReserveArgs where
  selected : JobRecord
  member : MemberSnapshot
  now : ℚ
  attemptId : String
  leaderOwner : String
  fencingToken : ℤ
  backendUrl : String
  leadershipNow : ℚ

namespace ReserveArgs

variable (a : ReserveArgs)

/-- The claimed record. -/
def claimed : JobRecord :=
  { a.selected with
    state := .claimed
    selectedMember := some a.member.name
    memberStateVersion := some a.member.stateVersion
    attemptCount := a.selected.attemptCount + 1
    currentAttemptId := some a.attemptId
    queueClaimedAt := some a.now
    stateVersion := a.selected.stateVersion + 1 }

def reservedMember : MemberSnapshot :=
  { a.member with
    dispatcherLeases := a.member.dispatcherLeases + 1
    compatibleFreeSlots := some (max 0 (a.member.compatibleFreeSlots.getD 0 - 1)) }

def attempt : AttemptRecord :=
  { attemptId := a.attemptId
    jobId := a.selected.jobId
    memberName := a.member.name
    reservationFence := a.fencingToken
    backendUrl := a.backendUrl
    state := .reserved
    reservedAt := a.now }

end ReserveArgs

def reserveCommit (a : ReserveArgs) (h : JobHash) (m : MemberHash) (s : Store) :
    Store :=
  let s₁ := ((s.zrem a.selected.basePriority a.selected.jobId).putJob
    a.selected.jobId
    { h with
      record := a.claimed
      state := .claimed
      stateVersion := a.selected.stateVersion + 1
      selectedMember := some a.member.name
      memberStateVersion := some a.member.stateVersion
      queueClaimedAt := some a.now
      currentAttemptId := some a.attemptId }).putAttempt a.attemptId
    { record := a.attempt
      state := .reserved
      jobId := a.selected.jobId
      memberName := a.member.name
      reservationFence := a.fencingToken
      reservedAt := a.now }
  let s₂ := s₁.sadd a.member.name a.attemptId
  let live : ℤ := (s₂.leases a.member.name).card
  let newFree := max 0 (min (m.compatibleFreeSlots - 1) (m.slots - live))
  s₂.putMemberHash a.member.name
    { m with
      record :=
        { a.reservedMember with
          state := m.state
          accepting := m.accepting
          stateVersion := m.stateVersion
          generationFence := m.generationFence
          dispatcherLeases := live
          compatibleFreeSlots := some newFree }
      compatibleFreeSlots := newFree
      configuredSlots := m.slots }

/-- `reserve_job.lua`. -/
def reserveJob (a : ReserveArgs) (s : Store) : Except LuaError Unit × Store :=
  if ¬ s.fencePasses a.leaderOwner a.fencingToken a.leadershipNow then
    (.error .dispatcherFenceStale, s)
  else
    match s.members a.member.name with
    | none => (.error .reservationMemberVersionStale, s)
    | some m =>
      if m.stateVersion ≠ a.member.stateVersion then
        (.error .reservationMemberVersionStale, s)
      else if m.state ≠ .readyAccepting ∨ m.accepting = false ∨
          m.compatibleFreeSlots ≤ 0 ∨ m.slots ≤ 0 ∨
          m.slots ≤ (s.leases a.member.name).card then
        (.error .reservationMemberUnavailable, s)
      else
        match s.jobs a.selected.jobId with
        | none => (.error .jobNotQueued, s)
        | some h =>
          if h.state ≠ .queued then (.error .jobNotQueued, s)
          else if h.stateVersion ≠ a.selected.stateVersion then
            (.error .jobStateVersionStale, s)
          else if (s.queues a.selected.basePriority).first ≠
              some a.selected.jobId then
            (.error .queueHeadStale, s)
          else if (s.attempts a.attemptId).isSome then
            (.error .attemptExists, s)
          else if a.selected.jobId ∉ s.queues a.selected.basePriority then
            (.error .queueClaimConflict, s)
          else (.ok (), reserveCommit a h m s)

/-! ## Requeue of a claim -/

/-- What `requeue_claim` has read when it calls its script: the job, its attempt
and, when the job names one, its member. -/
structure RequeueArgs where
  current : JobRecord
  attempt : AttemptRecord
  attemptId : String
  member : Option MemberSnapshot
  reason : ReasonCode
  terminalAt : Option ℚ
  retention : ℤ

namespace RequeueArgs

variable (a : RequeueArgs)

def queued : JobRecord :=
  { a.current with
    state := .queued
    selectedMember := none
    memberStateVersion := none
    currentAttemptId := none
    queueClaimedAt := none
    forwardStartedAt := none
    reasonCode := some a.reason
    error := none
    stateVersion := a.current.stateVersion + 1 }

/-- `float(terminal_at if … else current.queue_claimed_at or
current.submitted_at)`. -/
def attemptTerminalAt : ℚ :=
  match a.terminalAt with
  | some t => t
  | none =>
    match a.current.queueClaimedAt with
    | some t => if t = 0 then a.current.submittedAt else t
    | none => a.current.submittedAt

/-- The attempt, closed as failed. -/
def failedAttempt : AttemptRecord :=
  { a.attempt with
    state := .failed
    terminalAt := some a.attemptTerminalAt
    errorCategory := some a.reason
    transitionHistory := a.attempt.transitionHistory ++ [AttemptState.failed.value] }

/-- The member with its slot given back, from the snapshot that was read. -/
def newMember (member : MemberSnapshot) : MemberSnapshot :=
  { member with
    dispatcherLeases := max 0 (member.dispatcherLeases - 1)
    compatibleFreeSlots :=
      some (min member.configuredSlots (member.compatibleFreeSlots.getD 0 + 1))
    stateVersion := member.stateVersion + 1 }

end RequeueArgs

/-- Give the member's slot back, when its hash exists. -/
def releaseClaimedMember (name attemptId : String) (m : MemberHash)
    (updated : MemberSnapshot) (s : Store) : Store :=
  (s.srem name attemptId).putMemberHash name
    { m with
      record := updated
      state := updated.state
      accepting := updated.accepting
      compatibleFreeSlots := updated.compatibleFreeSlots.getD 0
      stateVersion := updated.stateVersion
      generationFence := updated.generationFence }

/-- The member part of `requeue_claim.lua`: an error, or the store with the slot
given back.  A job without a member name passes the leader key instead, which
has no `state_version`.  A caller that found no member hash passes version `0`
and an empty record; every claim names a member whose hash exists
(`JobHash.Coherent.member`), so that the hash appears in between does not happen and is
answered as stale. -/
def requeueMember (a : RequeueArgs) (s : Store) : Except LuaError Store :=
  match truthy a.current.selectedMember with
  | none => if s.leader.isSome then .error .reservationStateStale else .ok s
  | some name =>
    match s.members name with
    | none => .ok s
    | some m =>
      match a.member with
      | none => .error .reservationStateStale
      | some member =>
        if m.stateVersion ≠ member.stateVersion then
          .error .reservationStateStale
        else
          .ok (releaseClaimedMember name a.attemptId m
            (RequeueArgs.newMember member) s)

def requeueJob (a : RequeueArgs) (h : JobHash) (s : Store) : Store :=
  (s.zadd a.current.basePriority a.current.enqueueSequence a.current.jobId).putJob
    a.current.jobId
    { h with
      record := a.queued
      state := .queued
      stateVersion := a.current.stateVersion + 1
      selectedMember := none
      memberStateVersion := none
      currentAttemptId := none
      queueClaimedAt := none }

/-- `requeue_claim.lua`.  Its boundary check reads the top-level field
`accepted_boundary_crossed`. -/
def requeueClaim (a : RequeueArgs) (s : Store) : Except LuaError Unit × Store :=
  match s.jobs a.current.jobId with
  | none => (.error .unknownJobId, s)
  | some h =>
    if h.stateVersion ≠ a.current.stateVersion then
      (.error .jobStateVersionStale, s)
    else if ¬ h.state.IsActive then (.error .requeueInvalidState, s)
    else if h.acceptedBoundaryCrossed = some "1" then
      (.error .cancelUnsafeAfterAcceptance, s)
    else
      match requeueMember a s with
      | .error e => (.error e, s)
      | .ok s₁ =>
        match s.attempts a.attemptId with
        | none => (.error .unknownAttemptId, s)
        | some t =>
          if t.state ≠ .reserved ∨ t.jobId ≠ a.current.jobId then
            (.error .attemptStateStale, s)
          else
            (.ok (), (requeueJob a h s₁).putAttempt a.attemptId
              { t with
                record := a.failedAttempt
                state := .failed
                terminalAt := some a.attemptTerminalAt
                errorCategory := some a.reason
                ttl := some a.retention })

/-! ## Compare-and-set replacement -/

/-- The attempt states after which `replace_job.lua` sets a retention. -/
def attemptEnded (t : AttemptState) : Bool :=
  t = .completed || t = .failed || t = .cancelled || t = .outcomeUnknown

/-- Write an attempt record over an existing attempt hash. -/
def putAttemptRecord (t : AttemptRecord) (retention : Option ℤ) (s : Store) :
    Store :=
  match s.attempts t.attemptId with
  | none => s
  | some h =>
    s.putAttempt t.attemptId
      { h with record := t, state := t.state, ttl := retention.or h.ttl }

def replacedHash (job : JobRecord) (h : JobHash) : JobHash :=
  let h' : JobHash :=
    { h with record := job, state := job.state, stateVersion := job.stateVersion }
  if job.state = .queued then
    { h' with
      selectedMember := none
      memberStateVersion := none
      currentAttemptId := none
      queueClaimedAt := none }
  else h'

/-- `replace_job.lua`: the version is compared, the old state is not.  Its test
that the new version is the expected one plus one cannot fail, because the
caller computes the expected version from the new one. -/
def replaceJob (job : JobRecord) (attempt : Option AttemptRecord) (retention : ℤ)
    (s : Store) : Except LuaError Unit × Store :=
  match s.jobs job.jobId with
  | none => (.error .unknownJobId, s)
  | some h =>
    if h.stateVersion ≠ job.stateVersion - 1 then
      (.error .jobStateVersionStale, s)
    else if attempt.any fun t => (s.attempts t.attemptId).isNone then
      (.error .unknownAttemptId, s)
    else
      let s₁ := s.putJob job.jobId (replacedHash job h)
      match attempt with
      | none => (.ok (), s₁)
      | some t =>
        (.ok (), putAttemptRecord t
          (if attemptEnded t.state then some retention else none) s₁)

/-! ## Repair of a dead job -/

/-- What `reconcile_dead_job` has read when it calls its script. -/
structure RepairArgs where
  owner : String
  fence : ℤ
  current : JobRecord
  attempt : AttemptRecord
  memberName : String
  retention : ℤ

namespace RepairArgs

variable (a : RepairArgs)

/-- `post_acceptance`. -/
def postAcceptance : Bool :=
  a.current.acceptedBoundaryCrossed || a.current.state = .accepted ||
    a.current.state = .inFlight

/-- The record the repair writes: terminal after acceptance, queued before. -/
def repaired : JobRecord :=
  if a.postAcceptance then
    { a.current with
      state := .outcomeUnknown
      reasonCode := some .postAcceptanceOutcomeUnknown
      error := some "proven_dead_after_acceptance"
      stateVersion := a.current.stateVersion + 1 }
  else
    { a.current with
      state := .queued
      selectedMember := none
      memberStateVersion := none
      currentAttemptId := none
      queueClaimedAt := none
      forwardStartedAt := none
      reasonCode := some .preAcceptanceRequeue
      error := none
      stateVersion := a.current.stateVersion + 1 }

def repairedAttempt : AttemptRecord :=
  if a.postAcceptance then
    { a.attempt with
      state := .outcomeUnknown
      terminalAt := some 0
      errorCategory := some .postAcceptanceOutcomeUnknown
      transitionHistory := a.attempt.transitionHistory ++ ["outcome_unknown"] }
  else
    { a.attempt with
      state := .failed
      terminalAt := some 0
      errorCategory := some .preAcceptanceRequeue
      transitionHistory := a.attempt.transitionHistory ++ ["failed"] }

end RepairArgs

inductive RepairReply where
  | alreadyRepaired | alreadyTerminal | repaired
  deriving DecidableEq

/-- The store after a successful `repair_dead_job.lua`. -/
def repairCommit (a : RepairArgs) (h : JobHash) (s : Store) : Store :=
  let s₁ := s.putJob a.current.jobId
    { h with
      record := a.repaired
      state := a.repaired.state
      stateVersion := a.current.stateVersion + 1 }
  let s₂ :=
    if a.repaired.state = .queued then
      s₁.zadd a.current.basePriority a.repaired.enqueueSequence a.current.jobId
    else s₁
  let s₃ := putAttemptRecord a.repairedAttempt (some a.retention)
    (s₂.srem a.memberName a.attempt.attemptId)
  { s₃ with
    repairs := Function.update s₃.repairs a.current.jobId
      (some ⟨a.owner, a.fence, .completed⟩) }

/-- `repair_dead_job.lua`.  A completed repair hash is never reset. -/
def repairDeadJob (a : RepairArgs) (s : Store) :
    Except LuaError RepairReply × Store :=
  match s.jobs a.current.jobId with
  | none => (.error .unknownJobId, s)
  | some h =>
    let prior := s.repairs a.current.jobId
    if (prior.any fun r => r.status = .completed) ∨
        a.fence ≤ (prior.map RepairHash.fence).getD 0 then
      (.ok .alreadyRepaired, s)
    else if h.stateVersion ≠ a.current.stateVersion then
      (.error .jobStateVersionStale, s)
    else if ¬ h.state.IsActive then (.ok .alreadyTerminal, s)
    else (.ok .repaired, repairCommit a h s)

/-! ## Member lifecycle -/

inductive DrainMode where
  | begin | release | releaseV2 | complete | beginRejoin | completeRejoin
  deriving DecidableEq

/-- The arguments of `_commit_member_drain`: `current` is the snapshot that was
read, `updated` the one to write. -/
structure DrainArgs where
  mode : DrainMode
  current : MemberSnapshot
  updated : MemberSnapshot
  claimedVersion : ℤ := 0
  attemptId : String := ""

/-- The free slots a release writes, from the lease count after the removal. -/
def releasedFree (a : DrainArgs) (live : ℕ) : ℤ :=
  if a.updated.state = .draining then 0
  else if 0 < a.current.configuredSlots then
    min a.current.configuredSlots
      (min (max 0 (a.current.configuredSlots - a.current.backendSlotsBusy.getD 0))
        (max 0 (a.current.configuredSlots - live)))
  else a.updated.compatibleFreeSlots.getD 0

/-- The lease count after a release has removed its attempt. -/
def releasedLive (a : DrainArgs) (s : Store) : ℕ :=
  ((s.leases a.current.name).erase a.attemptId).card

/-- The hash `member_drain.lua` writes in the two release modes. -/
def releaseCommit (a : DrainArgs) (m : MemberHash) (s : Store) : Store :=
  let live := releasedLive a s
  let free := releasedFree a live
  (s.srem a.current.name a.attemptId).putMemberHash a.current.name
    { m with
      record := { a.updated with
        dispatcherLeases := live
        compatibleFreeSlots := some free }
      state := a.updated.state
      accepting := a.updated.accepting
      compatibleFreeSlots := free
      stateVersion := a.updated.stateVersion
      generationFence := a.updated.generationFence }

/-- The hash `member_drain.lua` writes in the lifecycle modes. -/
def lifecycleCommit (a : DrainArgs) (m : MemberHash) (s : Store) : Store :=
  s.putMemberHash a.current.name
    { m with
      record := a.updated
      state := a.updated.state
      accepting := a.updated.accepting
      compatibleFreeSlots := a.updated.compatibleFreeSlots.getD 0
      stateVersion := a.updated.stateVersion
      generationFence := a.updated.generationFence }

/-- `member_drain.lua`.  Every mode but `release_v2` compares the version; the
release modes report the lease count and the free slots they wrote. -/
def memberDrain (a : DrainArgs) (s : Store) : Except LuaError (Option (ℕ × ℤ)) × Store :=
  match s.members a.current.name with
  | none => (.error .unknownMember, s)
  | some m =>
    let live := (s.leases a.current.name).card
    if a.mode ≠ .releaseV2 ∧ m.stateVersion ≠ a.current.stateVersion then
      (.error .reservationStateStale, s)
    else if a.updated.stateVersion ≠ a.current.stateVersion + 1 then
      (.error .memberStateVersionInvalid, s)
    else
      match a.mode with
      | .begin =>
        if m.state = .readyAccepting ∨ m.state = .readyBusy ∨
            m.state = .joining ∨ m.state = .unhealthy then
          (.ok none, lifecycleCommit a m s)
        else (.error .drainInvalidState, s)
      | .release =>
        if a.claimedVersion ≠ a.current.stateVersion then
          (.error .reservationStateStale, s)
        else if a.attemptId ∉ s.leases a.current.name then
          (.error .leaseNotOwned, s)
        else (.ok (some (releasedLive a s, releasedFree a (releasedLive a s))),
          releaseCommit a m s)
      | .releaseV2 =>
        if a.attemptId ∉ s.leases a.current.name then
          (.error .leaseNotOwned, s)
        else (.ok (some (releasedLive a s, releasedFree a (releasedLive a s))),
          releaseCommit a m s)
      | .complete =>
        if m.state ≠ .draining then (.error .drainInvalidState, s)
        else if live ≠ 0 then (.error .memberLeasesRemain, s)
        else (.ok none, lifecycleCommit a m s)
      | .beginRejoin =>
        if m.state ≠ .offline then (.error .rejoinInvalidState, s)
        else if a.updated.generationFence ≤ m.generationFence then
          (.error .generationFenceStale, s)
        else (.ok none, lifecycleCommit a m s)
      | .completeRejoin =>
        if m.state ≠ .joining then (.error .rejoinInvalidState, s)
        else if live ≠ 0 then (.error .memberLeasesRemain, s)
        else (.ok none, lifecycleCommit a m s)

/-! ## The readiness mirror -/

/-- `_derive_compatible_free_slots`. -/
def deriveCompatibleFreeSlots (configuredSlots : ℤ) (backendSlotsTotal : Option ℤ)
    (backendSlotsBusy : ℤ) (liveLeases : ℤ) : ℤ :=
  let configured := max 0 configuredSlots
  if configured ≤ 0 then 0
  else
    let observedTotal :=
      match backendSlotsTotal with
      | none => configured
      | some total => max 0 (min configured total)
    let backendFree := max 0 (observedTotal - max 0 backendSlotsBusy)
    let dispatcherFree := max 0 (configured - max 0 liveLeases)
    min configured (min backendFree dispatcherFree)

/-- The snapshot given to `put_member` and the five separate reads it makes
before its script. -/
structure RefreshArgs where
  member : MemberSnapshot
  currentFree : Option ℤ
  currentStateVersion : Option ℤ
  liveLeases : ℕ
  currentState : Option MemberState
  currentAccepting : Option Bool

namespace RefreshArgs

variable (a : RefreshArgs)

/-- `effective_version`: the larger of the version read and the snapshot's. -/
def effectiveVersion : ℤ := max (a.currentStateVersion.getD 0) a.member.stateVersion

/-- `preserve_drain_fence`. -/
def preserveDrainFence : Bool :=
  a.currentStateVersion.isSome &&
    decide (a.member.stateVersion < a.effectiveVersion) &&
    decide (a.currentState = some .draining)

/-- `preserve_fault_fence`. -/
def preserveFaultFence : Bool :=
  decide (a.currentState = some .faulted) && decide (a.currentAccepting = some false)

/-- `persisted_state`. -/
def persistedState : MemberState :=
  if a.preserveDrainFence || a.preserveFaultFence then
    a.currentState.getD a.member.state
  else a.member.state

/-- `persisted_accepting`. -/
def persistedAccepting : Bool :=
  if a.preserveDrainFence || a.preserveFaultFence then false else a.member.accepting

/-- `configured`: the snapshot's slot count, or the backend's total where the
snapshot has none. -/
def configured : ℤ :=
  if a.member.configuredSlots ≤ 0 then
    a.member.backendSlotsTotal.getD a.member.configuredSlots
  else a.member.configuredSlots

/-- `runtime_free`. -/
def runtimeFree : ℤ :=
  match a.member.backendSlotsBusy with
  | some busy =>
    if 0 < a.configured then
      deriveCompatibleFreeSlots a.configured a.member.backendSlotsTotal busy
        a.liveLeases
    else max 0 (a.member.compatibleFreeSlots.getD 0)
  | none => max 0 (a.member.compatibleFreeSlots.getD 0)

/-- Whether the snapshot carries live backend evidence. -/
def hasEvidence : Bool :=
  a.member.accepting && decide (0 < a.configured) && a.member.backendSlotsBusy.isSome

/-- `initial_free`. -/
def initialFree : ℤ :=
  if a.liveLeases = 0 ∧ a.hasEvidence then a.runtimeFree
  else
    match a.currentFree with
    | none => a.runtimeFree
    | some free => if free ≤ 0 ∧ a.hasEvidence then a.runtimeFree else free

/-- `record_member`. -/
def recordMember : MemberSnapshot :=
  { a.member with
    state := a.persistedState
    accepting := a.persistedAccepting
    stateVersion := a.effectiveVersion
    dispatcherLeases := a.liveLeases
    compatibleFreeSlots := some a.initialFree }

end RefreshArgs

/-- The free slots `REFRESH_MEMBER_MIRROR_LUA` writes: a live lease keeps the
advertised value. -/
def refreshedFree (a : RefreshArgs) (s : Store) : ℤ :=
  let current := ((s.members a.member.name).map MemberHash.compatibleFreeSlots).getD (-1)
  if 0 < (s.leases a.member.name).card ∧ 0 ≤ current then current else a.initialFree

/-- `REFRESH_MEMBER_MIRROR_LUA`.  Nothing is compared: the version, the fence and
the state that were computed from the earlier reads are written. -/
def refreshMemberMirror (a : RefreshArgs) (s : Store) : (ℕ × ℤ) × Store :=
  let live := (s.leases a.member.name).card
  let free := refreshedFree a s
  ((live, free), s.putMemberHash a.member.name
    { record := { a.recordMember with
        dispatcherLeases := live
        compatibleFreeSlots := some free }
      state := a.persistedState
      accepting := a.persistedAccepting
      stateVersion := a.effectiveVersion
      generationFence := a.member.generationFence
      compatibleFreeSlots := free
      configuredSlots := a.member.configuredSlots })

/-! ## Leadership -/

/-- `acquire_leader.lua`: the token and the expiry, and the store. -/
def acquireLeader (owner : String) (now ttl : ℚ) (s : Store) :
    Except LuaError (ℕ × ℚ) × Store :=
  let term : Except LuaError (ℕ × ℚ) × Store :=
    (.ok (s.fenceCounter + 1, now + ttl),
      { s with
        fenceCounter := s.fenceCounter + 1
        leader := some ⟨owner, s.fenceCounter + 1, now + ttl⟩ })
  match s.leader with
  | none => term
  | some l =>
    if now < l.expiresAt then
      if l.owner ≠ owner then (.error .dispatcherLeaseHeld, s)
      else (.ok (l.token, l.expiresAt), s)
    else term

/-- `renew_leader.lua`. -/
def renewLeader (owner : String) (token : ℤ) (now ttl : ℚ) (s : Store) :
    Except LuaError (ℕ × ℚ) × Store :=
  match s.leader with
  | none => (.error .dispatcherFenceStale, s)
  | some l =>
    if l.owner ≠ owner ∨ (l.token : ℤ) ≠ token ∨ l.expiresAt ≤ now then
      (.error .dispatcherFenceStale, s)
    else
      (.ok (l.token, now + ttl),
        { s with leader := some { l with expiresAt := now + ttl } })

/-! ## Expiry and the process-local repair fence -/

/-- Redis drops an attempt key whose retention has been set. -/
def expireAttempt (id : String) (s : Store) : Store :=
  match s.attempts id with
  | some h =>
    if h.ttl.isSome then { s with attempts := Function.update s.attempts id none }
    else s
  | none => s

/-- `InMemoryRepairFence.acquire`. -/
def acquireRepair (jobId owner : String) (fence : ℤ) (s : Store) : Bool × Store :=
  let claimed : Store :=
    { s with
      repairClaims := Function.update s.repairClaims jobId
        (some ⟨fence, owner, false⟩) }
  match s.repairClaims jobId with
  | none => (true, claimed)
  | some prior =>
    if prior.completed ∨ fence ≤ prior.fence then (false, s) else (true, claimed)

/-- `InMemoryRepairFence.complete`. -/
def completeRepair (jobId owner : String) (fence : ℤ) (s : Store) : Store :=
  if s.repairClaims jobId = some ⟨fence, owner, false⟩ then
    { s with
      repairClaims := Function.update s.repairClaims jobId
        (some ⟨fence, owner, true⟩) }
  else s

end Lua

end GpuManager.Broker
