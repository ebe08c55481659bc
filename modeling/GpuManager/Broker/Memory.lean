import GpuManager.Broker.Repository

/-!
# `InMemoryJobRepository`

The process-local repository of `gemma_broker/redis_store.py`, which the source
calls the semantic oracle of the Redis one.  Every method holds one lock from its
first read to its last write, so a method is a function from the tables to a result
and the tables it leaves.

The repository is the available one that its constructor makes by default; its
leadership table and its terminal notifier are not read by the methods below.  What
a method draws from `uuid4` is an argument, and so is what `member_lookup` returns.
-/

namespace GpuManager.Broker

/-- The tables of one `InMemoryJobRepository`: jobs, one deque per priority, the
idempotency keys by caller scope and key, members and their lease sets. -/
structure MemoryStore where
  jobs : String → Option JobRecord
  queues : Priority → List String
  idempotency : String × String → Option (String × String)
  members : String → Option MemberSnapshot
  leases : String → Finset String

namespace MemoryStore

/-- A new repository. -/
def empty : MemoryStore where
  jobs := fun _ => none
  queues := fun _ => []
  idempotency := fun _ => none
  members := fun _ => none
  leases := fun _ => ∅

/-- `self._jobs[id] = job`. -/
def putJob (s : MemoryStore) (id : String) (job : JobRecord) : MemoryStore :=
  { s with jobs := Function.update s.jobs id (some job) }

/-- `self._queues[p] = ids`. -/
def putQueue (s : MemoryStore) (p : Priority) (ids : List String) : MemoryStore :=
  { s with queues := Function.update s.queues p ids }

/-- `self._members[name] = member`. -/
def setMember (s : MemoryStore) (name : String) (member : MemberSnapshot) : MemoryStore :=
  { s with members := Function.update s.members name (some member) }

/-- `self._leases[name] = leases`. -/
def putLeases (s : MemoryStore) (name : String) (leases : Finset String) : MemoryStore :=
  { s with leases := Function.update s.leases name leases }

/-- What a method does: a result or an exception, and the tables it leaves. -/
abbrev Method (α : Type) := MemoryStore → Except BrokerError α × MemoryStore

/-! ## Jobs -/

/-- `submit`. -/
def submit (job : JobRecord) (callerScope : String) : Method JobRecord := fun s =>
  match s.idempotency (callerScope, job.idempotencyKey) with
  | some (priorJobId, priorHash) =>
    if priorHash ≠ job.requestSha256 then
      (.error (.contractError ReasonCode.idempotencyKeyReused.value), s)
    else
      match s.jobs priorJobId with
      | none => (.error (.other "KeyError" priorJobId), s)
      | some prior => (.ok prior, s)
  | none =>
    if (s.jobs job.jobId).isSome then
      (.error (.contractError ("DUPLICATE_JOB_ID:" ++ job.jobId)), s)
    else
      let stored := { job with effectivePriority := job.basePriority.toInt }
      let s₁ := (s.putJob stored.jobId stored).putQueue stored.basePriority
        (s.queues stored.basePriority ++ [stored.jobId])
      (.ok stored,
        { s₁ with
          idempotency := Function.update s.idempotency
            (callerScope, job.idempotencyKey) (some (stored.jobId, stored.requestSha256)) })

/-- The heads of the queues that are not empty, in the order of the priorities. -/
def heads (s : MemoryStore) : List JobRecord :=
  Priority.all.filterMap fun p => (s.queues p).head?.bind s.jobs

/-- `min(heads, key=…)`: the first job with the least key. -/
def selectHead (agingSeconds now : ℚ) : List JobRecord → Option JobRecord
  | [] => none
  | job :: rest =>
    match selectHead agingSeconds now rest with
    | none => some job
    | some other =>
      if toLex (effectivePriority other.basePriority other.submittedAt now agingSeconds,
            other.enqueueSequence) <
          toLex (effectivePriority job.basePriority job.submittedAt now agingSeconds,
            job.enqueueSequence) then
        some other
      else some job

/-- `peek_next`.  The state of the head is not looked at. -/
def peekNext (agingSeconds now : ℚ) (s : MemoryStore) : Option JobRecord :=
  (selectHead agingSeconds now s.heads).map fun selected =>
    { selected with
      effectivePriority := effectivePriority selected.basePriority
        selected.submittedAt now agingSeconds }

/-- Whether `reserve_next` takes a snapshot for a candidate. -/
def isCandidate (requirements : RequestRequirements) (candidate : MemberSnapshot) : Bool :=
  decide (candidate.state = .readyAccepting) && candidate.accepting &&
    decide (0 < candidate.compatibleFreeSlots.getD 0) && evaluate requirements candidate

def claimedJob (current selected : JobRecord) (member : MemberSnapshot) (attemptId : String)
    (now : ℚ) : JobRecord :=
  { current with
    state := .claimed
    selectedMember := some member.name
    memberStateVersion := some member.stateVersion
    attemptCount := current.attemptCount + 1
    currentAttemptId := some attemptId
    queueClaimedAt := some now
    effectivePriority := selected.effectivePriority
    stateVersion := current.stateVersion + 1 }

/-- The member of a reservation. -/
def reservedMember (current : MemberSnapshot) (liveLeases : ℕ) : MemberSnapshot :=
  { current with
    dispatcherLeases := liveLeases + 1
    compatibleFreeSlots := some (max 0 (min (current.configuredSlots - liveLeases - 1)
      (current.compatibleFreeSlots.getD 0 - 1))) }

/-- What `reserve_next` does once it has a candidate.  `current` is what
`member_lookup` returns for it, or the candidate itself. -/
def reserveMember (selected : JobRecord) (member current : MemberSnapshot)
    (attemptId : String) (now : ℚ) : Method (JobRecord × MemberSnapshot) := fun s =>
  let liveLeases := (s.leases current.name).card
  if current.configuredSlots ≤ 0 ∨ current.configuredSlots ≤ liveLeases then
    (.error (.reservationStale ReasonCode.reservationStateStale.value), s)
  else if current.stateVersion ≠ member.stateVersion ∨ current.state ≠ .readyAccepting ∨
      current.accepting = false ∨ current.compatibleFreeSlots.getD 0 ≤ 0 then
    (.error (.reservationStale ReasonCode.reservationStateStale.value), s)
  else if (s.queues selected.basePriority).head? ≠ some selected.jobId then
    (.error (.reservationStale ReasonCode.reservationStateStale.value), s)
  else
    match s.jobs selected.jobId with
    | none => (.error (.other "KeyError" selected.jobId), s)
    | some job =>
      let claimed := claimedJob job selected member attemptId now
      let reserved := reservedMember current liveLeases
      (.ok (claimed, reserved),
        (((s.putQueue selected.basePriority (s.queues selected.basePriority).tail).putJob
          claimed.jobId claimed).putLeases member.name
            (insert attemptId (s.leases member.name))).setMember member.name reserved)

/-- `reserve_next`: the claimed job and the reserved member.  The reservation of this
repository carries no attempt record, and the leader's name and token are ignored. -/
def reserveNext (agingSeconds now : ℚ) (orderedMembers : List MemberSnapshot)
    (requirements : RequestRequirements) (memberLookup : Option (String → MemberSnapshot))
    (attemptId : String) : Method (Option (JobRecord × MemberSnapshot)) := fun s =>
  match s.peekNext agingSeconds now with
  | none => (.ok none, s)
  | some selected =>
    match orderedMembers.find? (isCandidate requirements) with
    | none => (.ok none, s)
    | some member =>
      let current := (memberLookup.map fun lookup => lookup member.name).getD member
      let reserved := reserveMember selected member current attemptId now s
      (reserved.1.map some, reserved.2)

/-- `cancel_queued`. -/
def cancelQueued (jobId : String) (completedAt : ℚ) : Method JobRecord := fun s =>
  match s.jobs jobId with
  | none => (.error (.contractError ("UNKNOWN_JOB_ID:" ++ jobId)), s)
  | some current =>
    if current.state ≠ .queued then (.ok current, s)
    else if jobId ∉ s.queues current.basePriority then (.error .repositoryUnavailable, s)
    else
      let cancelled := Lua.cancelledQueued current completedAt
      (.ok cancelled,
        (s.putQueue current.basePriority ((s.queues current.basePriority).erase jobId)).putJob
          jobId cancelled)

def replaceJob (job : JobRecord) : Method JobRecord := fun s =>
  if (s.jobs job.jobId).isNone then
    (.error (.contractError ("UNKNOWN_JOB_ID:" ++ job.jobId)), s)
  else (.ok job, s.putJob job.jobId job)

def requeuedJob (current : JobRecord) (reason : ReasonCode) : JobRecord :=
  { current with
    state := .queued
    selectedMember := none
    memberStateVersion := none
    currentAttemptId := none
    queueClaimedAt := none
    forwardStartedAt := none
    reasonCode := some reason
    error := none
    stateVersion := current.stateVersion + 1 }

/-- The slot that `requeue_claim` gives back, when the job names a member and an
attempt. -/
def releaseClaim (current : JobRecord) (s : MemoryStore) : MemoryStore :=
  match truthy current.selectedMember, truthy current.currentAttemptId with
  | some name, some attemptId =>
    let s₁ := s.putLeases name ((s.leases name).erase attemptId)
    match s.members name with
    | none => s₁
    | some member => s₁.setMember name (Lua.RequeueArgs.newMember member)
  | _, _ => s

/-- `requeue_claim`: the job goes to the left end of its deque. -/
def requeueClaim (job : JobRecord) (reason : ReasonCode) : Method JobRecord := fun s =>
  match s.jobs job.jobId with
  | none => (.error (.contractError "UNKNOWN_JOB_ID"), s)
  | some current =>
    if ¬ current.state.IsActive then
      (.error (.contractError ("REQUEUE_INVALID_STATE:" ++ current.state.value)), s)
    else if current.acceptedBoundaryCrossed then
      (.error (.contractError ReasonCode.cancelUnsafeAfterAcceptance.value), s)
    else
      let queued := requeuedJob current reason
      let queue := s.queues queued.basePriority
      let s₁ := (s.putJob queued.jobId queued).putQueue queued.basePriority
        (if queued.jobId ∈ queue then queue else queued.jobId :: queue)
      (.ok queued, releaseClaim current s₁)

/-! ## Members -/

/-- `put_member`. -/
def putMember (member : MemberSnapshot) : Method MemberSnapshot := fun s =>
  let kept :=
    match s.members member.name with
    | none => member
    | some current =>
      if 0 < current.compatibleFreeSlots.getD 0 ∧ member.compatibleFreeSlots.getD 0 ≤ 0 ∧
          0 < member.configuredSlots then
        { member with compatibleFreeSlots := current.compatibleFreeSlots }
      else member
  (.ok kept, s.setMember kept.name kept)

/-- The lookup and the version check with which every lifecycle method starts. -/
def atVersion (name : String) (expectedStateVersion : ℤ)
    (next : MemberSnapshot → Method MemberSnapshot) : Method MemberSnapshot := fun s =>
  match s.members name with
  | none => (.error (.contractError ("UNKNOWN_MEMBER:" ++ name)), s)
  | some current =>
    if current.stateVersion ≠ expectedStateVersion then
      (.error (.reservationStale ReasonCode.reservationStateStale.value), s)
    else next current s

def afterTransition (current target : MemberState) (next : Method MemberSnapshot) :
    Method MemberSnapshot := fun s =>
  if target ∈ allowedMemberTransitions current then next s
  else (.error (.contractError
    ("ILLEGAL_MEMBER_TRANSITION:" ++ current.value ++ "->" ++ target.value)), s)

/-- Store a snapshot and return it. -/
def commit (name : String) (updated : MemberSnapshot) : Method MemberSnapshot := fun s =>
  (.ok updated, s.setMember name updated)

/-- `begin_member_drain`. -/
def beginMemberDrain (name : String) (expectedStateVersion : ℤ) : Method MemberSnapshot :=
  atVersion name expectedStateVersion fun current =>
    if current.state = .draining then fun s => (.ok current, s)
    else
      afterTransition current.state .draining
        (commit name
          { current with
            state := .draining
            accepting := false
            compatibleFreeSlots := some 0
            stateVersion := current.stateVersion + 1
            blockers := RedisJobRepository.appendUnique current.blockers "member_draining"
            reasonCodes :=
              RedisJobRepository.appendUnique current.reasonCodes .memberDraining })

/-- The free slots that a release outside `draining` leaves. -/
def releasedFree (current : MemberSnapshot) (liveCount : ℕ) : ℤ :=
  if 0 < current.configuredSlots then
    Lua.deriveCompatibleFreeSlots current.configuredSlots current.backendSlotsTotal
      (current.backendSlotsBusy.getD 0) liveCount
  else min current.configuredSlots (max 0 (current.compatibleFreeSlots.getD 0 + 1))

/-- The snapshot a release leaves.  A draining member keeps its free slots. -/
def releasedMember (current : MemberSnapshot) (liveCount : ℕ) : MemberSnapshot :=
  if current.state = .draining then
    { current with
      dispatcherLeases := liveCount
      drainDisabledSlots := current.drainDisabledSlots + 1 }
  else
    { current with
      dispatcherLeases := liveCount
      compatibleFreeSlots := some (releasedFree current liveCount) }

/-- The version fence of `release_member_lease`: exact while the member is draining
or joining, and otherwise only against a claim from a later version. -/
def releaseFenced (current : MemberSnapshot) (claimed : ℤ) : Prop :=
  if current.state = .draining ∨ current.state = .joining then
    claimed ≠ current.stateVersion
  else current.stateVersion < claimed

instance (current : MemberSnapshot) (claimed : ℤ) :
    Decidable (releaseFenced current claimed) := by
  unfold releaseFenced
  infer_instance

/-- `release_member_lease`.  The version is not raised. -/
def releaseMemberLease (name attemptId : String) (claimedMemberStateVersion : ℤ) :
    Method MemberSnapshot := fun s =>
  match s.members name with
  | none => (.error (.contractError ("UNKNOWN_MEMBER:" ++ name)), s)
  | some current =>
    if attemptId ∉ s.leases name then (.error (.reservationStale "LEASE_NOT_OWNED"), s)
    else if releaseFenced current claimedMemberStateVersion then
      (.error (.reservationStale ReasonCode.reservationStateStale.value), s)
    else
      let leases := (s.leases name).erase attemptId
      commit name (releasedMember current leases.card) (s.putLeases name leases)

/-- `complete_member_drain`. -/
def completeMemberDrain (name : String) (expectedStateVersion : ℤ) :
    Method MemberSnapshot :=
  atVersion name expectedStateVersion fun current s =>
    if current.state ≠ .draining then
      (.error (.contractError ("DRAIN_INVALID_STATE:" ++ current.state.value)), s)
    else if s.leases name ≠ ∅ then (.error (.reservationStale "MEMBER_LEASES_REMAIN"), s)
    else
      afterTransition current.state .offline
        (commit name
          { current with
            state := .offline
            accepting := false
            compatibleFreeSlots := some 0
            stateVersion := current.stateVersion + 1 }) s

/-- `begin_member_rejoin`. -/
def beginMemberRejoin (name : String) (expectedStateVersion generationFence : ℤ) :
    Method MemberSnapshot :=
  atVersion name expectedStateVersion fun current s =>
    if generationFence ≤ current.generationFence then
      (.error (.contractError "GENERATION_FENCE_STALE"), s)
    else
      afterTransition current.state .joining
        (commit name
          { current with
            state := .joining
            accepting := false
            compatibleFreeSlots := some 0
            generationFence := generationFence.toNat
            stateVersion := current.stateVersion + 1 }) s

/-- `complete_member_rejoin`.  Neither the readiness snapshot nor the lease set is
checked. -/
def completeMemberRejoin (name : String) (expectedStateVersion : ℤ)
    (readiness : MemberSnapshot) : Method MemberSnapshot :=
  atVersion name expectedStateVersion fun current =>
    afterTransition current.state .readyAccepting
      (commit name
        { readiness with
          state := .readyAccepting
          accepting := true
          generationFence := current.generationFence
          stateVersion := current.stateVersion + 1
          drainDisabledSlots := 0
          dispatcherLeases := 0 })

end MemoryStore

/-! ## What a reservation checks -/

namespace MemoryStore

/-- The checks of `reserve_next` on what it holds for the candidate `member`, once a job is
selected. -/
structure Reservable (selected : JobRecord) (member current : MemberSnapshot)
    (s : MemoryStore) : Prop where
  slots : 0 < current.configuredSlots
  room : ((s.leases current.name).card : ℤ) < current.configuredSlots
  version : current.stateVersion = member.stateVersion
  ready : current.state = .readyAccepting
  accepting : current.accepting = true
  free : 0 < current.compatibleFreeSlots.getD 0
  head : (s.queues selected.basePriority).head? = some selected.jobId
  known : (s.jobs selected.jobId).isSome

/-- The tables after a reservation. -/
def reserveCommit (selected job : JobRecord) (member current : MemberSnapshot)
    (attemptId : String) (now : ℚ) (s : MemoryStore) : MemoryStore :=
  let claimed := claimedJob job selected member attemptId now
  (((s.putQueue selected.basePriority (s.queues selected.basePriority).tail).putJob
    claimed.jobId claimed).putLeases member.name
      (insert attemptId (s.leases member.name))).setMember member.name
        (reservedMember current (s.leases current.name).card)

/-- A reservation is refused without a trace, or commits with every check passed. -/
theorem reserveMember_cases (selected : JobRecord) (member current : MemberSnapshot)
    (attemptId : String) (now : ℚ) (s : MemoryStore) :
    (¬ Reservable selected member current s ∧
        ∃ e, reserveMember selected member current attemptId now s = (.error e, s)) ∨
      Reservable selected member current s ∧ ∃ job, s.jobs selected.jobId = some job ∧
        reserveMember selected member current attemptId now s =
          (.ok (claimedJob job selected member attemptId now,
              reservedMember current (s.leases current.name).card),
            reserveCommit selected job member current attemptId now s) := by
  unfold reserveMember
  simp only
  split
  · rename_i hslots
    refine Or.inl ⟨fun hr => ?_, _, rfl⟩
    rcases hslots with hnone | hfull
    · exact absurd hr.slots (not_lt.mpr hnone)
    · exact absurd hr.room (not_lt.mpr hfull)
  · rename_i hslots
    split
    · rename_i hstale
      refine Or.inl ⟨fun hr => ?_, _, rfl⟩
      rcases hstale with hversion | hstate | haccepting | hfree
      · exact hversion hr.version
      · exact hstate hr.ready
      · rw [hr.accepting] at haccepting
        cases haccepting
      · exact absurd hr.free (not_lt.mpr hfree)
    · rename_i hstale
      split
      · rename_i hhead
        exact Or.inl ⟨fun hr => hhead hr.head, _, rfl⟩
      rename_i hhead
      split
      · rename_i hjob
        refine Or.inl ⟨fun hr => ?_, _, rfl⟩
        have hknown := hr.known
        rw [hjob] at hknown
        cases hknown
      · rename_i job hjob
        simp only [not_or, not_le, not_not, Bool.not_eq_false] at hslots hstale
        obtain ⟨hversion, hready, haccepting, hfree⟩ := hstale
        exact Or.inr ⟨⟨hslots.1, hslots.2, hversion, hready, haccepting, hfree,
          not_not.mp hhead, by simp [hjob]⟩, job, hjob, rfl⟩

end MemoryStore

/-! ## Calls for either repository -/

/-- The arguments of `reserve_next` that the repository in memory looks at, with what the call
draws from `uuid4` for each member and what its `member_lookup` returns. -/
structure ReserveCall where
  now : ℚ
  orderedMembers : List Candidate
  requirements : RequestRequirements
  memberLookup : Option (String → MemberSnapshot)

namespace ReserveCall

variable (c : ReserveCall)

def candidate : Option Candidate :=
  c.orderedMembers.find? fun candidate =>
    MemoryStore.isCandidate c.requirements candidate.member

/-- What the repository in memory holds for a candidate: what `member_lookup` returns for it,
or the candidate itself. -/
def current (candidate : Candidate) : MemberSnapshot :=
  (c.memberLookup.map fun lookup => lookup candidate.member.name).getD candidate.member

def inMemory (agingSeconds : ℚ) : MemoryStore.Method (Option (JobRecord × MemberSnapshot)) :=
  MemoryStore.reserveNext agingSeconds c.now (c.orderedMembers.map Candidate.member)
    c.requirements c.memberLookup ((c.candidate.map Candidate.attemptId).getD "")

end ReserveCall

end GpuManager.Broker
