import GpuManager.Broker.Scripts

/-!
# What each script can do

One inversion lemma per script: it leaves the store as it was, or every guard
held and the store is the one written out.  Everything proved later about runs
goes through these lemmas; no later proof opens a script again.
-/

namespace GpuManager.Broker.Lua

variable {s : Store} {s₁ : Store}

/-- `submit_job.lua` creates a job only under an unused id. -/
theorem submitJob_cases (digest : String) (job : JobRecord) (s : Store) :
    (submitJob digest job s).2 = s ∨
      s.jobs job.jobId = none ∧
        ∃ idempotency, (submitJob digest job s).2 =
          (({ s with idempotency := idempotency } : Store).putJob job.jobId
            { record := job, state := .queued, stateVersion := job.stateVersion }).zadd
            job.basePriority job.enqueueSequence job.jobId := by
  unfold submitJob
  split
  · left
    split <;> rfl
  split
  · exact Or.inl rfl
  · rename_i hnone
    exact Or.inr ⟨by simpa using hnone, _, rfl⟩

/-- `cancel_queued.lua` writes only over a queued job at the version read, and
takes the id out of the queue in the same step. -/
theorem cancelQueued_cases (current : JobRecord) (completedAt : ℚ) (s : Store) :
    (cancelQueued current completedAt s).2 = s ∨
      ∃ h, s.jobs current.jobId = some h ∧ h.state = .queued ∧
        h.stateVersion = current.stateVersion ∧
        current.jobId ∈ s.queues current.basePriority ∧
        (cancelQueued current completedAt s).2 =
          (s.zrem current.basePriority current.jobId).putJob current.jobId
            { h with
              record := cancelledQueued current completedAt
              state := .cancelled
              stateVersion := current.stateVersion + 1 } := by
  unfold cancelQueued
  split
  · exact Or.inl rfl
  rename_i h hjob
  split
  · exact Or.inl rfl
  split
  · exact Or.inl rfl
  split
  · exact Or.inl rfl
  rename_i hstate hversion hmem
  exact Or.inr ⟨h, hjob, not_not.mp hstate, not_not.mp hversion,
    not_not.mp hmem, rfl⟩

/-- The guards of `reserve_job.lua` that the store has passed when it commits. -/
structure Reservable (a : ReserveArgs) (h : JobHash) (m : MemberHash) (s : Store) :
    Prop where
  fence : s.fencePasses a.leaderOwner a.fencingToken a.leadershipNow
  member : s.members a.member.name = some m
  memberVersion : m.stateVersion = a.member.stateVersion
  memberState : m.state = .readyAccepting
  accepting : m.accepting = true
  free : 0 < m.compatibleFreeSlots
  slots : 0 < m.slots
  room : ((s.leases a.member.name).card : ℤ) < m.slots
  job : s.jobs a.selected.jobId = some h
  jobState : h.state = .queued
  jobVersion : h.stateVersion = a.selected.stateVersion
  newAttempt : s.attempts a.attemptId = none
  queued : a.selected.jobId ∈ s.queues a.selected.basePriority

/-- `reserve_job.lua` refuses, or commits with every guard passed. -/
theorem reserveJob_cases (a : ReserveArgs) (s : Store) :
    ((∃ e, (reserveJob a s).1 = .error e) ∧ (reserveJob a s).2 = s) ∨
      ∃ h m, Reservable a h m s ∧ reserveJob a s = (.ok (), reserveCommit a h m s) := by
  unfold reserveJob
  split
  · exact Or.inl ⟨⟨_, rfl⟩, rfl⟩
  rename_i hfence
  split
  · exact Or.inl ⟨⟨_, rfl⟩, rfl⟩
  rename_i m hmember
  split
  · exact Or.inl ⟨⟨_, rfl⟩, rfl⟩
  rename_i hversion
  split
  · exact Or.inl ⟨⟨_, rfl⟩, rfl⟩
  rename_i havailable
  split
  · exact Or.inl ⟨⟨_, rfl⟩, rfl⟩
  rename_i h hjob
  split
  · exact Or.inl ⟨⟨_, rfl⟩, rfl⟩
  rename_i hstate
  split
  · exact Or.inl ⟨⟨_, rfl⟩, rfl⟩
  rename_i hjobVersion
  split
  · exact Or.inl ⟨⟨_, rfl⟩, rfl⟩
  split
  · exact Or.inl ⟨⟨_, rfl⟩, rfl⟩
  rename_i hattempt
  split
  · exact Or.inl ⟨⟨_, rfl⟩, rfl⟩
  rename_i hqueued
  simp only [not_or, not_not, not_le, Bool.not_eq_false] at havailable
  obtain ⟨hready, haccepting, hfree, hslots, hroom⟩ := havailable
  exact Or.inr ⟨h, m,
    { fence := not_not.mp hfence
      member := hmember
      memberVersion := not_not.mp hversion
      memberState := hready
      accepting := haccepting
      free := hfree
      slots := hslots
      room := hroom
      job := hjob
      jobState := not_not.mp hstate
      jobVersion := not_not.mp hjobVersion
      newAttempt := by simpa using hattempt
      queued := not_not.mp hqueued }, rfl⟩

/-- The member part of a requeue leaves the store, or gives back the slot of a
member that is still at the version read. -/
theorem requeueMember_cases {a : RequeueArgs} (h : requeueMember a s = .ok s₁) :
    (s₁ = s ∧ ∀ name, truthy a.current.selectedMember = some name →
        s.members name = none) ∨
      ∃ name m member, truthy a.current.selectedMember = some name ∧
        s.members name = some m ∧ a.member = some member ∧
        m.stateVersion = member.stateVersion ∧
        s₁ = releaseClaimedMember name a.attemptId m (RequeueArgs.newMember member) s := by
  unfold requeueMember at h
  split at h
  · rename_i hnone
    split at h
    · cases h
    · cases h
      exact Or.inl ⟨rfl, fun name hname => by rw [hnone] at hname; cases hname⟩
  · rename_i name hname
    split at h
    · rename_i hmember
      cases h
      refine Or.inl ⟨rfl, fun name' hname' => ?_⟩
      rw [hname, Option.some.injEq] at hname'
      exact hname' ▸ hmember
    · rename_i m hmember
      split at h
      · cases h
      rename_i member hread
      split at h
      · cases h
      rename_i hversion
      cases h
      exact Or.inr ⟨name, m, member, hname, hmember, hread,
        not_not.mp hversion, rfl⟩

/-- The member part of a requeue touches one member and its leases only. -/
theorem requeueMember_frame {a : RequeueArgs} (h : requeueMember a s = .ok s₁) :
    s₁.jobs = s.jobs ∧ s₁.queues = s.queues ∧ s₁.attempts = s.attempts ∧
      s₁.leader = s.leader ∧ s₁.fenceCounter = s.fenceCounter ∧
      s₁.idempotency = s.idempotency ∧ s₁.repairs = s.repairs := by
  rcases requeueMember_cases h with ⟨rfl, -⟩ | ⟨name, m, member, -, -, -, -, rfl⟩
  all_goals
    exact ⟨rfl, rfl, rfl, rfl, rfl, rfl, rfl⟩

/-- `requeue_claim.lua` writes only over an active job at the version read. -/
theorem requeueClaim_cases (a : RequeueArgs) (s : Store) :
    ((∃ e, (requeueClaim a s).1 = .error e) ∧ (requeueClaim a s).2 = s) ∨
      ∃ h s₁ t, s.jobs a.current.jobId = some h ∧
        h.stateVersion = a.current.stateVersion ∧ h.state.IsActive ∧
        requeueMember a s = .ok s₁ ∧ s.attempts a.attemptId = some t ∧
        requeueClaim a s = (.ok (), (requeueJob a h s₁).putAttempt a.attemptId
          { t with
            record := a.failedAttempt
            state := .failed
            terminalAt := some a.attemptTerminalAt
            errorCategory := some a.reason
            ttl := some a.retention }) := by
  unfold requeueClaim
  split
  · exact Or.inl ⟨⟨_, rfl⟩, rfl⟩
  rename_i h hjob
  split
  · exact Or.inl ⟨⟨_, rfl⟩, rfl⟩
  rename_i hversion
  split
  · exact Or.inl ⟨⟨_, rfl⟩, rfl⟩
  rename_i hactive
  split
  · exact Or.inl ⟨⟨_, rfl⟩, rfl⟩
  split
  · exact Or.inl ⟨⟨_, rfl⟩, rfl⟩
  rename_i s₁ hmember
  split
  · exact Or.inl ⟨⟨_, rfl⟩, rfl⟩
  rename_i t hattempt
  split
  · exact Or.inl ⟨⟨_, rfl⟩, rfl⟩
  · exact Or.inr ⟨h, s₁, t, hjob, not_not.mp hversion,
      not_not.mp hactive, hmember, hattempt, rfl⟩

/-- Writing an attempt record touches the attempt table only. -/
theorem putAttemptRecord_eq (t : AttemptRecord) (retention : Option ℤ) (s : Store) :
    ∃ attempts, putAttemptRecord t retention s = { s with attempts := attempts } := by
  unfold putAttemptRecord
  split
  · exact ⟨s.attempts, rfl⟩
  · exact ⟨_, rfl⟩

/-- What `replace_job.lua` writes is the given record, and the top-level boundary
field is carried over. -/
theorem replacedHash_fields (job : JobRecord) (h : JobHash) :
    (replacedHash job h).record = job ∧ (replacedHash job h).state = job.state ∧
      (replacedHash job h).stateVersion = job.stateVersion ∧
      (replacedHash job h).acceptedBoundaryCrossed = h.acceptedBoundaryCrossed := by
  by_cases hstate : job.state = .queued <;> simp [replacedHash, hstate]

/-- `replace_job.lua` writes over *any* state at the expected version, and touches
neither the queues nor the members nor the leases. -/
theorem replaceJob_cases (job : JobRecord) (attempt : Option AttemptRecord)
    (retention : ℤ) (s : Store) :
    ((∃ e, (replaceJob job attempt retention s).1 = .error e) ∧
        (replaceJob job attempt retention s).2 = s) ∨
      ∃ h attempts, s.jobs job.jobId = some h ∧
        h.stateVersion = job.stateVersion - 1 ∧
        (∀ t ∈ attempt, (s.attempts t.attemptId).isSome) ∧
        replaceJob job attempt retention s =
          (.ok (), { s.putJob job.jobId (replacedHash job h) with
            attempts := attempts }) := by
  unfold replaceJob
  split
  · exact Or.inl ⟨⟨_, rfl⟩, rfl⟩
  rename_i h hjob
  split
  · exact Or.inl ⟨⟨_, rfl⟩, rfl⟩
  rename_i hversion
  split
  · exact Or.inl ⟨⟨_, rfl⟩, rfl⟩
  rename_i hattempt
  right
  cases attempt with
  | none => exact ⟨h, s.attempts, hjob, not_not.mp hversion, by simp, rfl⟩
  | some t =>
    obtain ⟨attempts, hput⟩ := putAttemptRecord_eq t
      (if attemptEnded t.state then some retention else none)
      (s.putJob job.jobId (replacedHash job h))
    refine ⟨h, attempts, hjob, not_not.mp hversion, fun t' ht' => ?_, ?_⟩
    · obtain rfl : t = t' := by simpa using ht'
      simpa [Option.isSome_iff_ne_none] using hattempt
    · simp only [hput]

/-- The guards of `replace_job.lua` are all it asks for. -/
theorem replaceJob_of_guards {job : JobRecord} {attempt : Option AttemptRecord}
    {h : JobHash} (retention : ℤ) (hjob : s.jobs job.jobId = some h)
    (hversion : h.stateVersion = job.stateVersion - 1)
    (hattempt : ∀ t ∈ attempt, (s.attempts t.attemptId).isSome) :
    ∃ attempts, replaceJob job attempt retention s =
      (.ok (), { s.putJob job.jobId (replacedHash job h) with attempts := attempts }) := by
  rcases replaceJob_cases job attempt retention s with
    ⟨⟨e, herr⟩, -⟩ | ⟨h', attempts, hjob', -, -, heq⟩
  · unfold replaceJob at herr
    rw [hjob] at herr
    simp only [hversion, ne_eq, not_true_eq_false, if_false] at herr
    rw [if_neg (by
      cases attempt with
      | none => simp
      | some t => simpa [Option.isSome_iff_ne_none] using hattempt t rfl)] at herr
    split at herr <;> cases herr
  · obtain rfl : h' = h := by
      rw [hjob] at hjob'
      exact (Option.some.inj hjob').symm
    exact ⟨attempts, heq⟩

section Repaired

variable (a : RepairArgs)

@[simp] theorem repaired_jobId : a.repaired.jobId = a.current.jobId := by
  unfold RepairArgs.repaired
  split <;> rfl

@[simp] theorem repaired_basePriority :
    a.repaired.basePriority = a.current.basePriority := by
  unfold RepairArgs.repaired
  split <;> rfl

@[simp] theorem repaired_stateVersion :
    a.repaired.stateVersion = a.current.stateVersion + 1 := by
  unfold RepairArgs.repaired
  split <;> rfl

@[simp] theorem repaired_acceptedBoundaryCrossed :
    a.repaired.acceptedBoundaryCrossed = a.current.acceptedBoundaryCrossed := by
  unfold RepairArgs.repaired
  split <;> rfl

theorem repaired_cases :
    a.repaired.state = .outcomeUnknown ∧ a.postAcceptance = true ∧
        a.repaired.selectedMember = a.current.selectedMember ∨
      a.repaired.state = .queued ∧ a.current.acceptedBoundaryCrossed = false ∧
        a.repaired.selectedMember = none := by
  unfold RepairArgs.repaired
  by_cases hpost : a.postAcceptance = true
  · rw [if_pos hpost]
    exact Or.inl ⟨rfl, hpost, rfl⟩
  rw [if_neg hpost]
  refine Or.inr ⟨rfl, ?_, rfl⟩
  simp only [RepairArgs.postAcceptance, Bool.or_eq_true, not_or] at hpost
  simpa using hpost.1.1

end Repaired

def repairedHash (a : RepairArgs) (h : JobHash) : JobHash :=
  { h with
    record := a.repaired
    state := a.repaired.state
    stateVersion := a.current.stateVersion + 1 }

/-- What a repair writes: the job, its queue entry if it goes back to the queue,
the attempt and the repair hash; the lease is removed. -/
theorem repairCommit_eq (a : RepairArgs) (h : JobHash) (s : Store) :
    ∃ attempts, repairCommit a h s =
      { (if a.repaired.state = .queued then
            s.zadd a.current.basePriority a.repaired.enqueueSequence a.current.jobId
          else s) with
        jobs := Function.update s.jobs a.current.jobId (some (repairedHash a h))
        leases := (s.srem a.memberName a.attempt.attemptId).leases
        attempts := attempts
        repairs := Function.update s.repairs a.current.jobId
          (some ⟨a.owner, a.fence, .completed⟩) } := by
  unfold repairCommit
  by_cases hq : a.repaired.state = .queued
  · simp only [hq, if_true]
    obtain ⟨attempts, hput⟩ := putAttemptRecord_eq a.repairedAttempt (some a.retention) _
    rw [hput]
    exact ⟨_, by simp only [repairedHash, hq]; rfl⟩
  · simp only [hq, if_false]
    obtain ⟨attempts, hput⟩ := putAttemptRecord_eq a.repairedAttempt (some a.retention) _
    rw [hput]
    exact ⟨_, rfl⟩

section RepairCommit

variable (a : RepairArgs) (h : JobHash) (s : Store)

@[simp] theorem repairCommit_jobs :
    (repairCommit a h s).jobs =
      Function.update s.jobs a.current.jobId (some (repairedHash a h)) := by
  obtain ⟨attempts, heq⟩ := repairCommit_eq a h s
  rw [heq]

@[simp] theorem repairCommit_members : (repairCommit a h s).members = s.members := by
  obtain ⟨attempts, heq⟩ := repairCommit_eq a h s
  rw [heq]
  split <;> rfl

@[simp] theorem repairCommit_leases :
    (repairCommit a h s).leases = (s.srem a.memberName a.attempt.attemptId).leases := by
  obtain ⟨attempts, heq⟩ := repairCommit_eq a h s
  rw [heq]

@[simp] theorem repairCommit_repairs :
    (repairCommit a h s).repairs = Function.update s.repairs a.current.jobId
      (some ⟨a.owner, a.fence, .completed⟩) := by
  obtain ⟨attempts, heq⟩ := repairCommit_eq a h s
  rw [heq]

theorem mem_repairCommit_queues {p : Priority} {id : String} :
    id ∈ (repairCommit a h s).queues p ↔
      (a.repaired.state = .queued ∧ p = a.current.basePriority ∧ id = a.current.jobId) ∨
        id ∈ s.queues p := by
  obtain ⟨attempts, heq⟩ := repairCommit_eq a h s
  rw [heq]
  by_cases hq : a.repaired.state = .queued <;> simp [hq]

end RepairCommit

/-- `repair_dead_job.lua` writes only over an active job at the version read. -/
theorem repairDeadJob_cases (a : RepairArgs) (s : Store) :
    ((repairDeadJob a s).1 ≠ .ok .repaired ∧ (repairDeadJob a s).2 = s) ∨
      ∃ h, s.jobs a.current.jobId = some h ∧
        h.stateVersion = a.current.stateVersion ∧ h.state.IsActive ∧
        repairDeadJob a s = (.ok .repaired, repairCommit a h s) := by
  unfold repairDeadJob
  split
  · exact Or.inl ⟨by simp, rfl⟩
  rename_i h hjob
  simp only
  split
  · exact Or.inl ⟨by simp, rfl⟩
  split
  · exact Or.inl ⟨by simp, rfl⟩
  rename_i hversion
  split
  · exact Or.inl ⟨by simp, rfl⟩
  · rename_i hactive
    exact Or.inr ⟨h, hjob, not_not.mp hversion, not_not.mp hactive, rfl⟩

/-- What a committed `member_drain.lua` has checked about the stored member. -/
def DrainGuard (a : DrainArgs) (m : MemberHash) (s : Store) : Prop :=
  match a.mode with
  | .begin => m.state = .readyAccepting ∨ m.state = .readyBusy ∨
      m.state = .joining ∨ m.state = .unhealthy
  | .release | .releaseV2 => a.attemptId ∈ s.leases a.current.name
  | .complete => m.state = .draining ∧ s.leases a.current.name = ∅
  | .beginRejoin => m.state = .offline ∧ m.generationFence < a.updated.generationFence
  | .completeRejoin => m.state = .joining ∧ s.leases a.current.name = ∅

/-- The modes that remove a lease. -/
def DrainMode.isRelease : DrainMode → Bool
  | .release | .releaseV2 => true
  | _ => false

/-- `member_drain.lua` refuses, or commits at the version read (except in the
`release_v2` mode) with its mode's guard passed. -/
theorem memberDrain_cases (a : DrainArgs) (s : Store) :
    ((∃ e, (memberDrain a s).1 = .error e) ∧ (memberDrain a s).2 = s) ∨
      ∃ m, s.members a.current.name = some m ∧
        (a.mode ≠ .releaseV2 → m.stateVersion = a.current.stateVersion) ∧
        DrainGuard a m s ∧
        (∃ r, (memberDrain a s).1 = .ok r) ∧
        (memberDrain a s).2 =
          if a.mode.isRelease then releaseCommit a m s else lifecycleCommit a m s := by
  unfold memberDrain
  split
  · exact Or.inl ⟨⟨_, rfl⟩, rfl⟩
  rename_i m hmember
  simp only
  split
  · exact Or.inl ⟨⟨_, rfl⟩, rfl⟩
  rename_i hstale
  have hversion : a.mode ≠ .releaseV2 → m.stateVersion = a.current.stateVersion := by
    intro hmode
    by_contra hne
    exact hstale ⟨hmode, hne⟩
  split
  · exact Or.inl ⟨⟨_, rfl⟩, rfl⟩
  split <;> rename_i hmode
  · split
    · rename_i hguard
      exact Or.inr ⟨m, hmember, hversion, by simpa [DrainGuard, hmode] using hguard,
        ⟨_, rfl⟩, by simp [hmode, DrainMode.isRelease]⟩
    · exact Or.inl ⟨⟨_, rfl⟩, rfl⟩
  · split
    · exact Or.inl ⟨⟨_, rfl⟩, rfl⟩
    split
    · exact Or.inl ⟨⟨_, rfl⟩, rfl⟩
    rename_i hguard
    exact Or.inr ⟨m, hmember, hversion,
      by simpa [DrainGuard, hmode] using hguard, ⟨_, rfl⟩,
      by simp [hmode, DrainMode.isRelease]⟩
  · split
    · exact Or.inl ⟨⟨_, rfl⟩, rfl⟩
    rename_i hguard
    exact Or.inr ⟨m, hmember, hversion,
      by simpa [DrainGuard, hmode] using hguard, ⟨_, rfl⟩,
      by simp [hmode, DrainMode.isRelease]⟩
  -- The other modes test the state of the member, and then its leases or the fence.
  all_goals
    split
    · exact Or.inl ⟨⟨_, rfl⟩, rfl⟩
    rename_i hstate
    split
    · exact Or.inl ⟨⟨_, rfl⟩, rfl⟩
    rename_i hlast
    refine Or.inr ⟨m, hmember, hversion, ?_, ⟨_, rfl⟩, by simp [hmode, DrainMode.isRelease]⟩
    simp only [DrainGuard, hmode]
    exact ⟨not_not.mp hstate, by simpa using hlast⟩

/-- `release_v2` refuses an attempt that holds no lease, and nothing else. -/
theorem memberDrain_releaseV2 {a : DrainArgs} {m : MemberHash}
    (hmode : a.mode = .releaseV2) (hm : s.members a.current.name = some m)
    (hversion : a.updated.stateVersion = a.current.stateVersion + 1) :
    a.attemptId ∉ s.leases a.current.name ∧ memberDrain a s = (.error .leaseNotOwned, s) ∨
      a.attemptId ∈ s.leases a.current.name ∧
        ∃ r, memberDrain a s = (.ok (some r), releaseCommit a m s) := by
  unfold memberDrain
  rw [hm]
  simp only [hmode, hversion, ne_eq, not_true_eq_false, false_and, if_false]
  split
  · rename_i hnot
    exact Or.inl ⟨hnot, rfl⟩
  · rename_i hmem
    exact Or.inr ⟨not_not.mp hmem, _, rfl⟩

/-! ## Leadership, expiry and the local repair fence -/

/-- `acquire_leader.lua` refuses, returns the token of the owner's own live term,
or opens a new term with the next token. -/
theorem acquireLeader_cases (owner : String) (now ttl : ℚ) (s : Store) :
    acquireLeader owner now ttl s = (.error .dispatcherLeaseHeld, s) ∨
      (∃ l, s.leader = some l ∧ l.owner = owner ∧
        acquireLeader owner now ttl s = (.ok (l.token, l.expiresAt), s)) ∨
      acquireLeader owner now ttl s =
        (.ok (s.fenceCounter + 1, now + ttl),
          { s with
            fenceCounter := s.fenceCounter + 1
            leader := some ⟨owner, s.fenceCounter + 1, now + ttl⟩ }) := by
  unfold acquireLeader
  split
  · exact Or.inr (Or.inr rfl)
  rename_i l hleader
  split
  · split
    · exact Or.inl rfl
    · rename_i howner
      exact Or.inr (Or.inl ⟨l, hleader, not_not.mp howner, rfl⟩)
  · exact Or.inr (Or.inr rfl)

/-- `renew_leader.lua` refuses, or moves the expiry of the term it was given. -/
theorem renewLeader_cases (owner : String) (token : ℤ) (now ttl : ℚ) (s : Store) :
    renewLeader owner token now ttl s = (.error .dispatcherFenceStale, s) ∨
      ∃ l, s.leader = some l ∧ l.owner = owner ∧ (l.token : ℤ) = token ∧
        renewLeader owner token now ttl s =
          (.ok (l.token, now + ttl),
            { s with leader := some { l with expiresAt := now + ttl } }) := by
  unfold renewLeader
  split
  · exact Or.inl rfl
  rename_i l hleader
  split
  · exact Or.inl rfl
  rename_i hguard
  rw [not_or, not_or, not_not, not_not] at hguard
  exact Or.inr ⟨l, hleader, hguard.1, hguard.2.1, rfl⟩

theorem expireAttempt_eq (id : String) (s : Store) :
    ∃ attempts, expireAttempt id s = { s with attempts := attempts } := by
  unfold expireAttempt
  split
  · split
    · exact ⟨_, rfl⟩
    · exact ⟨s.attempts, rfl⟩
  · exact ⟨s.attempts, rfl⟩

theorem acquireRepair_eq (jobId owner : String) (fence : ℤ) (s : Store) :
    ∃ claims, (acquireRepair jobId owner fence s).2 = { s with repairClaims := claims } := by
  unfold acquireRepair
  split
  · exact ⟨_, rfl⟩
  split
  · exact ⟨s.repairClaims, rfl⟩
  · exact ⟨_, rfl⟩

theorem completeRepair_eq (jobId owner : String) (fence : ℤ) (s : Store) :
    ∃ claims, completeRepair jobId owner fence s = { s with repairClaims := claims } := by
  unfold completeRepair
  split
  · exact ⟨_, rfl⟩
  · exact ⟨s.repairClaims, rfl⟩

end GpuManager.Broker.Lua
