import GpuManager.Broker.Knowledge

/-!
# The discipline of the broker

Each command that keeps its promise writes at most one job and at most one member,
keeps the store coherent and moves it upwards.  Each part is proved script by
script from the inversion lemmas and then once for all commands; `discipline`
collects them.
-/

namespace GpuManager.Broker

open AtomicProgram Lua Store Function Option

/-! ## What a command writes -/

/-- The commands that write a job, a queue, a member or a lease set. -/
def Cmd.writes : Cmd → Bool
  | .submitJob _ _ | .cancelQueued _ _ | .reserveJob _ | .requeueClaim _
  | .replaceJob _ _ _ | .repairDeadJob _ | .memberDrain _ | .refreshMemberMirror _ =>
    true
  | _ => false

/-- The commands that may write the leader hash. -/
def Cmd.writesLeader : Cmd → Bool
  | .acquireLeader _ _ _ | .renewLeader _ _ _ _ => true
  | _ => false

/-- What a command makes of a store: it leaves the store, or every guard of its script has passed
and the script has written what stands here. -/
inductive Effect (s : Store) : Cmd → Store → Prop where
  | kept (c : Cmd) : Effect s c s
  | submitted {digest : String} {job : JobRecord} (unused : s.idempotency digest = none)
      (fresh : s.jobs job.jobId = none) :
      Effect s (.submitJob digest job)
        (Store.zadd (putJob
          { s with
            idempotency := update s.idempotency digest (some ⟨job.requestSha256, job.jobId⟩) }
          job.jobId { record := job, state := .queued, stateVersion := job.stateVersion })
          job.basePriority job.enqueueSequence job.jobId)
  | cancelled {current : JobRecord} {completedAt : ℚ} {h : JobHash}
      (found : s.jobs current.jobId = some h) (state : h.state = .queued)
      (version : h.stateVersion = current.stateVersion) :
      Effect s (.cancelQueued current completedAt)
        ((s.zrem current.basePriority current.jobId).putJob current.jobId
          { h with
            record := cancelledQueued current completedAt
            state := .cancelled
            stateVersion := current.stateVersion + 1 })
  | reserved {a : ReserveArgs} {h : JobHash} {m : MemberHash} (guards : Reservable a h m s) :
      Effect s (.reserveJob a) (reserveCommit a h m s)
  | requeued {a : RequeueArgs} {h : JobHash} {s₁ : Store} {t : AttemptHash}
      (found : s.jobs a.current.jobId = some h) (active : h.state.IsActive)
      (member : requeueMember a s = .ok s₁) :
      Effect s (.requeueClaim a) ((requeueJob a h s₁).putAttempt a.attemptId t)
  | replaced {job : JobRecord} {attempt : Option AttemptRecord} {retention : ℤ} {h : JobHash}
      {attempts : String → Option AttemptHash} (found : s.jobs job.jobId = some h)
      (version : h.stateVersion = job.stateVersion - 1)
      (known : ∀ t ∈ attempt, (s.attempts t.attemptId).isSome) :
      Effect s (.replaceJob job attempt retention)
        { s.putJob job.jobId (replacedHash job h) with attempts := attempts }
  | repaired {a : RepairArgs} {h : JobHash} (found : s.jobs a.current.jobId = some h)
      (version : h.stateVersion = a.current.stateVersion) (active : h.state.IsActive) :
      Effect s (.repairDeadJob a) (repairCommit a h s)
  | released {a : DrainArgs} {m : MemberHash} : Effect s (.memberDrain a) (releaseCommit a m s)
  | drained {a : DrainArgs} {m : MemberHash} : Effect s (.memberDrain a) (lifecycleCommit a m s)
  | refreshed {a : RefreshArgs} : Effect s (.refreshMemberMirror a) (refreshMemberMirror a s).2
  | led {c : Cmd} {leader : Option LeaderHash} {fenceCounter : ℕ} (silent : c.writes = false)
      (leads : c.writesLeader = true) :
      Effect s c { s with leader := leader, fenceCounter := fenceCounter }
  | expired {id : String} {attempts : String → Option AttemptHash} :
      Effect s (.expireAttempt id) { s with attempts := attempts }
  | claimed {c : Cmd} {claims : String → Option RepairClaim} (silent : c.writes = false) :
      Effect s c { s with repairClaims := claims }

/-- **The effect of a command** is one of these. -/
theorem exec_effect (c : Cmd) (s : Store) : Effect s c (exec c s).2 := by
  cases c with
  | submitJob digest job =>
    simp only [exec, submitJob]
    split
    · split <;> exact .kept _
    rename_i hunused
    split
    · exact .kept _
    · rename_i hfresh
      exact .submitted hunused (by simpa using hfresh)
  | cancelQueued current completedAt =>
    rcases cancelQueued_cases current completedAt s with heq | ⟨h, hj, hstate, hv, -, heq⟩
    · simp only [exec, heq, Effect.kept]
    · simp only [exec, heq, Effect.cancelled hj hstate hv]
  | reserveJob a =>
    rcases reserveJob_cases a s with ⟨-, heq⟩ | ⟨h, m, hr, heq⟩
    · simp only [exec, heq, Effect.kept]
    · simp only [exec, heq, Effect.reserved hr]
  | requeueClaim a =>
    rcases requeueClaim_cases a s with ⟨-, heq⟩ | ⟨h, s₁, t, hj, -, hactive, hmember, -, heq⟩
    · simp only [exec, heq, Effect.kept]
    · simp only [exec, heq, Effect.requeued hj hactive hmember]
  | replaceJob job attempt retention =>
    rcases replaceJob_cases job attempt retention s with
      ⟨-, heq⟩ | ⟨h, attempts, hj, hv, hknown, heq⟩
    · simp only [exec, heq, Effect.kept]
    · simp only [exec, heq, Effect.replaced hj hv hknown]
  | repairDeadJob a =>
    rcases repairDeadJob_cases a s with ⟨-, heq⟩ | ⟨h, hj, hv, hactive, heq⟩
    · simp only [exec, heq, Effect.kept]
    · simp only [exec, heq, Effect.repaired hj hv hactive]
  | memberDrain a =>
    rcases memberDrain_cases a s with ⟨-, heq⟩ | ⟨m, -, -, -, -, heq⟩
    · simp only [exec, heq, Effect.kept]
    · simp only [exec, heq]
      split
      · exact .released
      · exact .drained
  | acquireLeader owner now ttl =>
    rcases acquireLeader_cases owner now ttl s with heq | ⟨l, -, -, heq⟩ | heq
    · simp only [exec, heq, Effect.kept]
    · simp only [exec, heq, Effect.kept]
    · simp only [exec, heq]
      exact .led rfl rfl
  | renewLeader owner token now ttl =>
    rcases renewLeader_cases owner token now ttl s with heq | ⟨l, -, -, -, heq⟩
    · simp only [exec, heq, Effect.kept]
    · simp only [exec, heq]
      exact .led rfl rfl
  | expireAttempt id =>
    obtain ⟨attempts, heq⟩ := expireAttempt_eq id s
    simp only [exec, heq, Effect.expired]
  | acquireRepair jobId owner fence =>
    obtain ⟨claims, heq⟩ := acquireRepair_eq jobId owner fence s
    simp only [exec, heq]
    exact .claimed rfl
  | completeRepair jobId owner fence =>
    obtain ⟨claims, heq⟩ := completeRepair_eq jobId owner fence s
    simp only [exec, heq]
    exact .claimed rfl
  | refreshMemberMirror a => exact .refreshed
  | _ => exact .kept _

/-! ## What a command does to jobs and members -/

/-- At most one job hash is written, and the write is a step forward. -/
def JobEffect (s s' : Store) : Prop :=
  s'.jobs = s.jobs ∨ ∃ id h', s'.jobs = update s.jobs id (some h') ∧
    h'.Coherent id s' ∧ ∀ h, s.jobs id = some h → h.Written h'

/-- At most one member hash is written, and the write is a step forward if member
writes are fresh. -/
def MemberEffect (A : Assumption) (s s' : Store) : Prop :=
  s'.members = s.members ∨
    ∃ name m', s'.members = update s.members name (some m') ∧
      m'.Coherent A name ∧ (A.fresh → ∀ m, s.members name = some m → m.Le m')

section Effects

variable {A : Assumption} {s : Store} {c : Cmd} {job : JobRecord}

/-- Reads, leadership, expiry and the repair fence leave jobs, queues, members, leases
and repair hashes alone. -/
theorem exec_frame (hc : c.writes = false) :
    (exec c s).2.jobs = s.jobs ∧ (exec c s).2.queues = s.queues ∧
      (exec c s).2.members = s.members ∧ (exec c s).2.leases = s.leases ∧
      (exec c s).2.repairs = s.repairs := by
  have heffect := exec_effect c s
  generalize (exec c s).2 = t at heffect ⊢
  cases heffect with
  | kept | led | expired | claimed => exact ⟨rfl, rfl, rfl, rfl, rfl⟩
  | _ => cases hc

/-- The commands that write a member. -/
def Cmd.writesMember : Cmd → Bool
  | .reserveJob _ | .requeueClaim _ | .memberDrain _ | .refreshMemberMirror _ => true
  | _ => false

theorem exec_members_eq (hc : c.writesMember = false) :
    (exec c s).2.members = s.members := by
  have heffect := exec_effect c s
  generalize (exec c s).2 = t at heffect ⊢
  cases heffect with
  | reserved | requeued | released | drained | refreshed => cases hc
  | repaired => exact repairCommit_members _ _ s
  | _ => rfl

theorem cancelQueued_jobEffect {current : JobRecord} {completedAt : ℚ}
    (hcopy : Copy current s) :
    JobEffect s (cancelQueued current completedAt s).2 := by
  rcases cancelQueued_cases current completedAt s with heq | ⟨h, hj, -, hv, -, heq⟩
  · rw [heq]
    exact Or.inl rfl
  rw [heq]
  refine Or.inr ⟨current.jobId, _, rfl, ⟨rfl, rfl, rfl, nofun, hcopy.member⟩, ?_⟩
  intro h' hj'
  obtain rfl : h = h' := by rw [hj] at hj'; exact some.inj hj'
  refine ⟨by rw [hv], (hcopy.basePriority_eq hj).symm, fun hb => ⟨?_, nofun⟩⟩
  exact (hcopy.boundary_eq hj hv).symm.trans hb

theorem submitJob_jobEffect {digest : String}
    (hstate : job.state = .queued) (hboundary : job.acceptedBoundaryCrossed = false)
    (hmember : job.selectedMember = none) :
    JobEffect s (submitJob digest job s).2 := by
  rcases submitJob_cases digest job s with heq | ⟨hnone, idempotency, heq⟩
  · rw [heq]
    exact Or.inl rfl
  rw [heq]
  refine Or.inr ⟨job.jobId, _, rfl, ⟨rfl, hstate, rfl, fun _ => hboundary, ?_⟩, ?_⟩
  · intro name hname
    simp [hmember, truthy] at hname
  · intro h hj
    rw [hnone] at hj
    cases hj

theorem reserveJob_jobEffect {a : ReserveArgs} (hI : s.Coherent A)
    (hcopy : Copy a.selected s) : JobEffect s (reserveJob a s).2 := by
  rcases reserveJob_cases a s with ⟨-, heq⟩ | ⟨h, m, hr, heq⟩
  · rw [heq]
    exact Or.inl rfl
  rw [heq]
  refine Or.inr ⟨a.selected.jobId, _, rfl, ⟨rfl, rfl, rfl, nofun, ?_⟩, ?_⟩
  · intro name hname
    obtain rfl : a.member.name = name := by
      have := (truthy_eq_some.mp hname).1
      simpa [ReserveArgs.claimed] using this
    simp [reserveCommit]
  · intro h' hj'
    obtain rfl : h = h' := by
      have := hr.job
      rw [hj'] at this
      exact (some.inj this).symm
    refine ⟨by rw [hr.jobVersion], (hcopy.basePriority_eq hr.job).symm, fun hb => ?_⟩
    -- A queued job has not crossed the boundary.
    rw [(hI.job hr.job).boundary hr.jobState] at hb
    cases hb

theorem requeueClaim_jobEffect {a : RequeueArgs} (hcopy : Copy a.current s)
    (hboundary : a.current.acceptedBoundaryCrossed = false) :
    JobEffect s (requeueClaim a s).2 := by
  rcases requeueClaim_cases a s with ⟨-, heq⟩ | ⟨h, s₁, t, hj, hv, -, hmember, -, heq⟩
  · rw [heq]
    exact Or.inl rfl
  obtain ⟨hjobs, -⟩ := requeueMember_frame hmember
  rw [heq]
  refine Or.inr ⟨a.current.jobId, _, by rw [← hjobs]; rfl,
    ⟨rfl, rfl, rfl, fun _ => hboundary, fun _ hname => by cases hname⟩, ?_⟩
  intro h' hj'
  obtain rfl : h = h' := by rw [hj] at hj'; exact some.inj hj'
  refine ⟨by rw [hv], (hcopy.basePriority_eq hj).symm, fun hb => ?_⟩
  rw [hcopy.boundary_eq hj hv, hboundary] at hb
  cases hb

theorem replaceJob_jobEffect {attempt : Option AttemptRecord}
    {retention : ℤ} (hp : ReplacePromise A job s) :
    JobEffect s (replaceJob job attempt retention s).2 := by
  rcases replaceJob_cases job attempt retention s with
    ⟨-, heq⟩ | ⟨h, attempts, hj, hv, -, heq⟩
  · rw [heq]
    exact Or.inl rfl
  obtain ⟨hrecord, hstate', hversion, -⟩ := replacedHash_fields job h
  rw [heq]
  refine Or.inr ⟨job.jobId, replacedHash job h, rfl, ⟨?_, ?_, ?_, ?_, ?_⟩, ?_⟩
  · rw [hrecord]
  · rw [hrecord, hstate']
  · rw [hrecord, hversion]
  · rw [hstate']
    exact fun hq => absurd hq hp.state
  · rw [hrecord]
    exact hp.known.member
  · intro h' hj'
    obtain rfl : h = h' := by rw [hj] at hj'; exact some.inj hj'
    refine ⟨by rw [hversion, hv]; omega, ?_, fun hb => ⟨?_, ?_⟩⟩
    · rw [hrecord]
      exact (hp.known.basePriority_eq hj).symm
    · rw [hrecord]
      exact hp.boundary h hj hv hb
    · rw [hstate']
      exact hp.state

theorem repairDeadJob_jobEffect {a : RepairArgs} (hcopy : Copy a.current s) :
    JobEffect s (repairDeadJob a s).2 := by
  rcases repairDeadJob_cases a s with ⟨-, heq⟩ | ⟨h, hj, hv, -, heq⟩
  · rw [heq]
    exact Or.inl rfl
  rw [heq]
  refine Or.inr ⟨a.current.jobId, _, repairCommit_jobs a h s,
    ⟨repaired_jobId a, rfl, repaired_stateVersion a, ?_, ?_⟩, ?_⟩
  · intro hq
    rcases repaired_cases a with ⟨hunknown, -⟩ | ⟨-, hb, -⟩
    · exact absurd (hunknown.symm.trans hq) (by simp)
    · exact (repaired_acceptedBoundaryCrossed a).trans hb
  · intro name hname
    rw [repairCommit_members]
    rcases repaired_cases a with ⟨-, -, hsel⟩ | ⟨-, -, hsel⟩
    · exact hcopy.member name (hsel ▸ hname)
    change truthy a.repaired.selectedMember = some name at hname
    rw [hsel] at hname
    cases hname
  · intro h' hj'
    obtain rfl : h = h' := by rw [hj] at hj'; exact some.inj hj'
    refine ⟨by rw [hv]; rfl, ?_, fun hb => ?_⟩
    · exact (repaired_basePriority a).trans (hcopy.basePriority_eq hj).symm
    · have hcrossed := (hcopy.boundary_eq hj hv).symm.trans hb
      refine ⟨(repaired_acceptedBoundaryCrossed a).trans hcrossed, ?_⟩
      rcases repaired_cases a with ⟨hunknown, -⟩ | ⟨-, hnot, -⟩
      · change a.repaired.state ≠ .queued
        rw [hunknown]
        simp
      · rw [hcrossed] at hnot
        cases hnot

/-- **Jobs.**  A command that keeps its promise writes at most one job hash, one
step forward. -/
theorem exec_jobEffect (hI : s.Coherent A) (hp : Promise A c s) :
    JobEffect s (exec c s).2 := by
  cases c with
  | submitJob digest job => exact submitJob_jobEffect hp.1 hp.2.1 hp.2.2
  | cancelQueued current completedAt => exact cancelQueued_jobEffect hp
  | reserveJob a => exact reserveJob_jobEffect hI (ReservePromise.copy hp)
  | requeueClaim a =>
    exact requeueClaim_jobEffect (RequeuePromise.copy hp) (RequeuePromise.boundary hp)
  | replaceJob job attempt retention => exact replaceJob_jobEffect hp
  | repairDeadJob a => exact repairDeadJob_jobEffect (RepairPromise.copy hp)
  | memberDrain a =>
    rcases memberDrain_cases a s with ⟨-, heq⟩ | ⟨m, -, -, -, -, heq⟩
    · exact Or.inl (congrArg jobs heq)
    · refine Or.inl ((congrArg jobs heq).trans ?_)
      split <;> rfl
  | refreshMemberMirror a => exact Or.inl rfl
  | _ => exact Or.inl (exec_frame rfl).1

theorem slots_slotsOk {name : String} {m : MemberHash} (hm : m.Coherent A name) :
    A.SlotsOk name m.slots := by
  intro n hn
  unfold MemberHash.slots
  split
  · exact hm.recordSlots n hn
  · exact hm.slots n hn

theorem reserveJob_memberEffect {a : ReserveArgs} (hI : s.Coherent A)
    (hslots : A.SlotsOk a.member.name a.member.configuredSlots) :
    MemberEffect A s (reserveJob a s).2 := by
  rcases reserveJob_cases a s with ⟨-, heq⟩ | ⟨h, m, hr, heq⟩
  · rw [heq]
    exact Or.inl rfl
  rw [heq]
  have hm := hI.member hr.member
  have hfree : ∀ live : ℕ, A.FreeOk a.member.name
      (max 0 (min (m.compatibleFreeSlots - 1) (m.slots - live))) := by
    intro live _ n hn
    have hpos := A.slots_pos _ _ hn
    have hn' := slots_slotsOk hm n hn
    omega
  refine Or.inr ⟨a.member.name, _, rfl,
    ⟨rfl, rfl, rfl, rfl, slots_slotsOk hm, hslots, hfree _, hfree _⟩, ?_⟩
  intro _ m' hm'
  obtain rfl : m = m' := by
    have := hr.member
    rw [hm'] at this
    exact (some.inj this).symm
  exact Or.inr ⟨rfl, rfl, Iff.rfl⟩

theorem requeueClaim_memberEffect {a : RequeueArgs} (hI : s.Coherent A)
    (hnames : ∀ name, truthy a.current.selectedMember = some name →
      ∃ member, a.member = some member ∧ member.name = name)
    (hcopy : ∀ member, a.member = some member → MemberCopy A member s) :
    MemberEffect A s (requeueClaim a s).2 := by
  rcases requeueClaim_cases a s with ⟨-, heq⟩ | ⟨h, s₁, t, -, -, -, hmember, -, heq⟩
  · rw [heq]
    exact Or.inl rfl
  rw [heq]
  rcases requeueMember_cases hmember with
    ⟨rfl, -⟩ | ⟨name, m, member, hname, hm, hread, hv, rfl⟩
  · exact Or.inl rfl
  obtain ⟨member', hread', hmname⟩ := hnames name hname
  obtain rfl : member = member' := by rw [hread] at hread'; exact some.inj hread'
  have hc := hcopy member hread
  rw [← hmname] at hm ⊢
  have hfree : A.FreeOk member.name
      (min member.configuredSlots (member.compatibleFreeSlots.getD 0 + 1)) := by
    intro hb n hn
    have hpos := A.slots_pos _ _ hn
    have hslots := hc.slots n hn
    have hold := hc.free hb n hn
    omega
  refine Or.inr ⟨member.name, _, rfl,
    ⟨rfl, rfl, rfl, rfl, (hI.member hm).slots, hc.slots, hfree, hfree⟩, ?_⟩
  intro hfresh m' hm'
  obtain rfl : m = m' := by rw [hm] at hm'; exact some.inj hm'
  obtain ⟨m', hm'', hrel⟩ := hc.exists_le
  obtain rfl : m = m' := by rw [hm] at hm''; exact some.inj hm''
  rcases hrel hfresh with hlt | ⟨-, hf, -⟩
  · omega
  refine Or.inl ⟨?_, hf.ge⟩
  rw [hv]
  exact lt_add_one _

theorem releasedFree_freeOk {a : DrainArgs} {live : ℕ}
    (hslots : A.SlotsOk a.current.name a.current.configuredSlots)
    (hfree : A.FreeOk a.current.name (a.updated.compatibleFreeSlots.getD 0)) :
    A.FreeOk a.current.name (releasedFree a live) := by
  intro hb n hn
  have hpos := A.slots_pos _ _ hn
  have hs := hslots n hn
  have hf := hfree hb n hn
  unfold releasedFree
  split
  · omega
  split
  · omega
  · exact hf

theorem memberDrain_memberEffect {a : DrainArgs} (hI : s.Coherent A)
    (hp : DrainPromise A a s) (hfresh : A.fresh → FreshWrite (.memberDrain a) s) :
    MemberEffect A s (memberDrain a s).2 := by
  obtain ⟨hcopy, hname, hslots, hfree, hversion, hfence, -, -⟩ := hp
  rcases memberDrain_cases a s with ⟨-, heq⟩ | ⟨m, hm, hv, hguard, -, heq⟩
  · rw [heq]
    exact Or.inl rfl
  -- Whatever the mode, a fresh commit finds the member at the version read.
  have hle : A.fresh → ∀ m' : MemberHash, m'.stateVersion = a.updated.stateVersion →
      m'.generationFence = a.updated.generationFence → m.Le m' := by
    intro hf m' hv' hg'
    have hver : m.stateVersion = a.current.stateVersion := by
      by_cases hmode : a.mode = .releaseV2
      · refine hfresh hf hmode ?_ m hm
        simpa [DrainGuard, hmode] using hguard
      · exact hv hmode
    refine Or.inl ⟨by rw [hv', hversion, hver]; exact lt_add_one _, ?_⟩
    rw [hg']
    by_cases hmode : a.mode = .beginRejoin
    · have hlt : m.state = .offline ∧ m.generationFence < a.updated.generationFence := by
        simpa [DrainGuard, hmode] using hguard
      exact hlt.2.le
    · rw [hfence hmode]
      obtain ⟨m'', hm'', hrel⟩ := hcopy.exists_le
      obtain rfl : m = m'' := by rw [hm] at hm''; exact some.inj hm''
      rcases hrel hf with hlt | ⟨-, hg, -⟩
      · omega
      · exact hg.ge
  have hsame : ∀ m' : MemberHash, s.members a.current.name = some m' → m' = m := by
    intro m' hm'
    rw [hm] at hm'
    exact (some.inj hm').symm
  rw [heq]
  by_cases hrel : a.mode.isRelease = true
  · rw [if_pos hrel]
    refine Or.inr ⟨a.current.name, _, rfl, ⟨hname, rfl, rfl, rfl, (hI.member hm).slots, hslots,
      releasedFree_freeOk hcopy.slots hfree, releasedFree_freeOk hcopy.slots hfree⟩, ?_⟩
    intro hf m' hm'
    rw [hsame m' hm']
    exact hle hf _ rfl rfl
  · rw [if_neg hrel]
    refine Or.inr ⟨a.current.name, _, rfl, ⟨hname, rfl, rfl, rfl, (hI.member hm).slots, hslots,
      hfree, hfree⟩, ?_⟩
    intro hf m' hm'
    rw [hsame m' hm']
    exact hle hf _ rfl rfl

theorem deriveCompatibleFreeSlots_bounds (configured : ℤ) (total : Option ℤ)
    (busy live : ℤ) :
    0 ≤ deriveCompatibleFreeSlots configured total busy live ∧
      deriveCompatibleFreeSlots configured total busy live ≤ max 0 configured := by
  unfold deriveCompatibleFreeSlots
  simp only
  by_cases hpos : max 0 configured ≤ 0
  · rw [if_pos hpos]
    exact ⟨le_rfl, le_max_left _ _⟩
  · rw [if_neg hpos]
    omega

variable {a : RefreshArgs}

theorem runtimeFree_freeOk (hslots : A.SlotsOk a.member.name a.member.configuredSlots)
    (hbusy : A.bounded → a.member.backendSlotsBusy = none →
      ∀ n, A.slots a.member.name = some n →
        a.member.compatibleFreeSlots.getD 0 ≤ n) : A.FreeOk a.member.name a.runtimeFree := by
  intro hbounded n hn
  have hpos := A.slots_pos _ _ hn
  have hs := hslots n hn
  have hconfigured : a.configured = n := by
    unfold RefreshArgs.configured
    rw [hs, if_neg (by omega)]
  unfold RefreshArgs.runtimeFree
  split
  · rename_i busy _
    rw [hconfigured, if_pos hpos]
    have hb := deriveCompatibleFreeSlots_bounds n a.member.backendSlotsTotal busy
      a.liveLeases
    omega
  · rename_i hnone
    have hb := hbusy hbounded hnone n hn
    omega

theorem initialFree_freeOk (hruntime : A.FreeOk a.member.name a.runtimeFree)
    (hread : ∀ free, a.currentFree = some free → A.FreeOk a.member.name free) :
    A.FreeOk a.member.name a.initialFree := by
  unfold RefreshArgs.initialFree
  split
  · exact hruntime
  split
  · exact hruntime
  rename_i free hfree
  split
  · exact hruntime
  · exact hread free hfree

theorem refreshedFree_freeOk (hI : s.Coherent A) (hinitial : A.FreeOk a.member.name a.initialFree) :
    A.FreeOk a.member.name (refreshedFree a s) := by
  unfold refreshedFree
  simp only
  split
  · rename_i hcurrent
    cases hm : s.members a.member.name with
    | none => simp [hm] at hcurrent
    | some m => simpa [hm] using (hI.member hm).free
  · exact hinitial

/-- What a fitting snapshot makes of the stored member. -/
theorem FreshSnapshot.le {m m' : MemberHash} (hf : FreshSnapshot a m)
    (hv : m'.stateVersion = a.effectiveVersion) (hg : m'.generationFence = a.member.generationFence)
    (hs : m'.state = a.persistedState) : m.Le m' := by
  have heff : a.effectiveVersion = max m.stateVersion a.member.stateVersion := by
    simp [RefreshArgs.effectiveVersion, hf.version]
  rcases lt_or_ge m.stateVersion a.member.stateVersion with hlt | hge
  · refine Or.inl ⟨?_, by rw [hg]; exact (hf.newer hlt).1⟩
    rw [hv, heff, max_eq_right hlt.le]
    exact hlt
  · obtain ⟨hfence, hkeep, hset⟩ := hf.notNewer hge
    refine Or.inr ⟨by rw [hv, heff, max_eq_left hge], hg.trans hfence, ?_⟩
    rw [hs]
    unfold RefreshArgs.persistedState RefreshArgs.preserveDrainFence
      RefreshArgs.preserveFaultFence
    rw [heff, max_eq_left hge, hf.version, hf.state]
    by_cases hd : m.state = .draining
    · -- A drain survives: an older snapshot keeps it, another one carries it.
      rcases hkeep hd with hold | hdrain
      · simp [hd, hold]
      · simp [hd, hdrain]
    · have hnot := hset hd
      split
      · simp
      · simp [hd, hnot]

theorem refreshMemberMirror_memberEffect (hI : s.Coherent A) (hp : RefreshPromise A a)
    (hfresh : A.fresh → FreshWrite (.refreshMemberMirror a) s) :
    MemberEffect A s (refreshMemberMirror a s).2 := by
  obtain ⟨hslots, hbusy, hread⟩ := hp
  have hfree := refreshedFree_freeOk hI
    (initialFree_freeOk (runtimeFree_freeOk hslots hbusy) hread)
  refine Or.inr ⟨a.member.name, _, rfl,
    ⟨rfl, rfl, rfl, rfl, hslots, hslots, hfree, hfree⟩, ?_⟩
  intro hf m hm
  exact (hfresh hf m hm).le rfl rfl rfl

/-- **Members.**  A command that keeps its promise writes at most one member hash,
one step forward if member writes are fresh. -/
theorem exec_memberEffect (hI : s.Coherent A) (hp : Promise A c s)
    (hfresh : A.fresh → FreshWrite c s) : MemberEffect A s (exec c s).2 := by
  cases c with
  | reserveJob a => exact reserveJob_memberEffect hI (ReservePromise.slots hp)
  | requeueClaim a =>
    exact requeueClaim_memberEffect hI (RequeuePromise.named hp) (RequeuePromise.member hp)
  | memberDrain a => exact memberDrain_memberEffect hI hp hfresh
  | refreshMemberMirror a => exact refreshMemberMirror_memberEffect hI hp hfresh
  | _ => exact Or.inl (exec_members_eq rfl)

def AttemptsNamed (s : Store) : Prop :=
  ∀ id t, s.attempts id = some t → t.record.attemptId = id

variable (hs : AttemptsNamed s)
include hs

theorem AttemptsNamed.putAttempt {id : String} {t : AttemptHash} (ht : t.record.attemptId = id) :
    AttemptsNamed (s.putAttempt id t) := by
  intro id' t' ht'
  by_cases hid : id' = id
  · subst hid
    rw [putAttempt_attempts, update_self] at ht'
    exact some.inj ht' ▸ ht
  · rw [putAttempt_attempts, update_of_ne hid] at ht'
    exact hs _ _ ht'

theorem AttemptsNamed.putAttemptRecord (t : AttemptRecord) (retention : Option ℤ) :
    AttemptsNamed (Lua.putAttemptRecord t retention s) := by
  unfold Lua.putAttemptRecord
  split
  · exact hs
  · exact hs.putAttempt rfl

theorem replaceJob_attemptsNamed (job : JobRecord) (attempt : Option AttemptRecord) (retention : ℤ)
    :
    AttemptsNamed (replaceJob job attempt retention s).2 := by
  unfold replaceJob
  split
  · exact hs
  split
  · exact hs
  split
  · exact hs
  simp only
  split
  · exact hs
  · exact AttemptsNamed.putAttemptRecord (s := s.putJob _ _) hs _ _

theorem repairDeadJob_attemptsNamed (a : RepairArgs) :
    AttemptsNamed (repairDeadJob a s).2 := by
  rcases repairDeadJob_cases a s with ⟨-, heq⟩ | ⟨h, -, -, -, heq⟩
  · rw [heq]
    exact hs
  rw [heq]
  unfold repairCommit
  simp only
  refine AttemptsNamed.putAttemptRecord (s := srem _ _ _) ?_ _ _
  split <;> exact hs

/-- The commands that write an attempt. -/
def Cmd.writesAttempt : Cmd → Bool
  | .reserveJob _ | .requeueClaim _ | .replaceJob _ _ _ | .repairDeadJob _ | .expireAttempt _ =>
    true
  | _ => false

omit hs in
theorem exec_attempts_eq (hc : c.writesAttempt = false) :
    (exec c s).2.attempts = s.attempts := by
  have heffect := exec_effect c s
  generalize (exec c s).2 = t at heffect ⊢
  cases heffect with
  | reserved | requeued | replaced | repaired | expired => cases hc
  | _ => rfl

/-- **Attempts.**  A command that keeps its promise keeps every attempt record
under its own id. -/
theorem exec_attemptsNamed (hp : Promise A c s) : AttemptsNamed (exec c s).2 := by
  have hframe : ∀ c : Cmd, c.writesAttempt = false → AttemptsNamed (exec c s).2 :=
    fun c hc id t ht => hs id t (exec_attempts_eq hc ▸ ht)
  cases c with
  | reserveJob a =>
    rcases reserveJob_cases a s with ⟨-, heq⟩ | ⟨h, m, -, heq⟩
    · simp only [exec, heq]
      exact hs
    simp only [exec, heq]
    intro id' t ht
    have hput : AttemptsNamed (s.putAttempt a.attemptId
        { record := a.attempt
          state := .reserved
          jobId := a.selected.jobId
          memberName := a.member.name
          reservationFence := a.fencingToken
          reservedAt := a.now }) := hs.putAttempt rfl
    exact hput id' t ht
  | requeueClaim a =>
    rcases requeueClaim_cases a s with ⟨-, heq⟩ | ⟨h, s₁, t, -, -, -, hmember, -, heq⟩
    · simp only [exec, heq]
      exact hs
    obtain ⟨-, -, hattempts, -⟩ := requeueMember_frame hmember
    have hs₁ : AttemptsNamed s₁ := fun id t ht => hs id t (hattempts ▸ ht)
    simp only [exec, heq]
    exact AttemptsNamed.putAttempt (s := requeueJob a h s₁) hs₁ (RequeuePromise.attempt hp)
  | replaceJob job attempt retention => exact replaceJob_attemptsNamed hs job attempt retention
  | repairDeadJob a => exact repairDeadJob_attemptsNamed hs a
  | expireAttempt id =>
    intro id' t ht
    simp only [exec, expireAttempt] at ht
    split at ht
    · split at ht
      · by_cases hid : id' = id
        · subst hid
          simp at ht
        · simp only [update_of_ne hid] at ht
          exact hs _ _ ht
      · exact hs _ _ ht
    · exact hs _ _ ht
  | _ => exact hframe _ rfl

end Effects

/-! ## The discipline -/

section Preservation

variable {A : Assumption} {s s' : Store}

theorem Store.Le.of_effects (hj : JobEffect s s') (hm : MemberEffect A s s') :
    Le A s s' := by
  refine ⟨fun {id h} hjob => ?_, fun {name m} hmember => ?_⟩
  · rcases hj with heq | ⟨id', h', heq, -, hw⟩
    · exact ⟨h, by rw [heq]; exact hjob, .refl h⟩
    by_cases hid : id = id'
    · subst hid
      exact ⟨h', by rw [heq, update_self], (hw h hjob).le⟩
    · exact ⟨h, by rw [heq, update_of_ne hid]; exact hjob, .refl h⟩
  · rcases hm with heq | ⟨name', m', heq, -, hle⟩
    · exact ⟨m, by rw [heq]; exact hmember, fun _ => .refl m⟩
    by_cases hname : name = name'
    · subst hname
      exact ⟨m', by rw [heq, update_self], fun hf => hle hf m hmember⟩
    · exact ⟨m, by rw [heq, update_of_ne hname]; exact hmember,
        fun _ => .refl m⟩

theorem Store.Coherent.of_effects (hI : s.Coherent A) (hj : JobEffect s s')
    (hm : MemberEffect A s s')
    (ha : AttemptsNamed s') : s'.Coherent A := by
  have hle := Le.of_effects hj hm
  -- A job that was not written names a member that still exists.
  have hold : ∀ {id h}, s.jobs id = some h → h.Coherent id s' := fun hjob =>
    { hI.job hjob with
      member := fun name hn => hle.member_isSome ((hI.job hjob).member name hn) }
  refine ⟨fun {id h} hjob => ?_, fun {name m} hmember => ?_, ha⟩
  · rcases hj with heq | ⟨id', h', heq, hcoh, -⟩
    · exact hold (heq ▸ hjob)
    by_cases hid : id = id'
    · subst hid
      rw [heq, update_self] at hjob
      exact some.inj hjob ▸ hcoh
    · rw [heq, update_of_ne hid] at hjob
      exact hold hjob
  · rcases hm with heq | ⟨name', m', heq, hcoh, -⟩
    · exact hI.member (heq ▸ hmember)
    by_cases hname : name = name'
    · subst hname
      rw [heq, update_self] at hmember
      exact some.inj hmember ▸ hcoh
    · rw [heq, update_of_ne hname] at hmember
      exact hI.member hmember

theorem Store.Coherent.empty (A : Assumption) : empty.Coherent A :=
  ⟨fun h => (by cases h), fun h => (by cases h), fun _ _ h => (by cases h)⟩

end Preservation

/-- A snapshot with the fixed slot count.  Without a report of busy slots its own
free-slot value is what `put_member` writes, so that value must fit too. -/
structure Assumption.Fits (A : Assumption) (member : MemberSnapshot) : Prop where
  slots : A.SlotsOk member.name member.configuredSlots
  free : A.bounded → member.backendSlotsBusy = none →
    ∀ n, A.slots member.name = some n → member.compatibleFreeSlots.getD 0 ≤ n

/-- The calls whose snapshots respect the fixed slot counts. -/
def Assumption.Admits (A : Assumption) : Op → Prop
  | .putMember member => A.Fits member
  | .reserveNext _ members _ _ _ _ =>
    ∀ c ∈ members, A.SlotsOk c.member.name c.member.configuredSlots
  | .completeMemberRejoin _ _ readiness =>
    A.SlotsOk readiness.name readiness.configuredSlots ∧
      A.FreeOk readiness.name (readiness.compatibleFreeSlots.getD 0)
  | .dispatch _ _ _ _ | .repair _ _ _ _ => A.replaces
  | _ => True

theorem Assumption.anySlots_admits (fresh : Prop) (op : Op) :
    (Assumption.anySlots fresh).Admits op := by
  cases op with
  | putMember member => exact ⟨nofun, fun _ _ => nofun⟩
  | reserveNext now members requirements owner token url => exact fun _ _ => nofun
  | completeMemberRejoin name version readiness => exact ⟨nofun, fun _ => nofun⟩
  | _ => trivial

/-- A reservation holds a copy of its job, and names the attempt, the member and
the member version that the job was claimed with. -/
structure Reservation.Holds (r : Reservation) (s : Store) : Prop where
  copy : Copy r.job s
  attemptId : truthy r.job.currentAttemptId = some r.attempt.attemptId
  memberName : truthy r.job.selectedMember = some r.member.name
  version : r.job.memberStateVersion.isSome

/-- What the outcome of a finished call lets a later call rely on. -/
def Outcome.Lasting : Outcome → Store → Prop
  | .reservation (some r), s => r.Holds s
  | _, _ => True

/-- **The broker's discipline** under an assumption on the run. -/
def discipline (A : Assumption) : Discipline broker where
  Inv := Coherent A
  Le := Le A
  Ok := Promise A
  Allowed := fun c s => A.fresh → FreshWrite c s
  Post := Outcome.Lasting
  Admits := fun op => A.Admits op.2
  le_refl := Le.refl
  le_trans := Le.trans
  preserves := fun _ _ hI hp ha =>
    ⟨hI.of_effects (exec_jobEffect hI hp) (exec_memberEffect hI hp ha)
        (exec_attemptsNamed hI.attempt hp),
      Le.of_effects (exec_jobEffect hI hp) (exec_memberEffect hI hp ha)⟩

end GpuManager.Broker
