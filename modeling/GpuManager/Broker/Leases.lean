import GpuManager.Lib.Session
import GpuManager.Broker.Clients

/-!
# Leases and the jobs that hold them

A reservation adds its attempt to the lease set of a member; whoever ends the
claim has to take it out again.  `requeue_claim.lua` and `repair_dead_job.lua` do
both in one script.  `dispatch` does it in two: it writes the terminal record with
`replace_job` and then releases the lease of *the reservation it was given*.
`Reconciler.repair` writes a terminal record with `replace_job` and releases
nothing.

This module is about calls made one after the other.  Between calls every lease is
held by a job that is claimed, accepted or in flight under that attempt on that
member, provided that `dispatch` is given the reservation its job is claimed with
and that `Reconciler.repair` is not used past acceptance.
-/

namespace GpuManager.Broker

open AtomicProgram Prog Lua Store Option Function

/-- The job is active under this attempt on this member. -/
def Store.HeldBy (s : Store) (name attempt id : String) : Prop :=
  ∃ h, s.jobs id = some h ∧ h.state.IsActive ∧
    truthy h.record.currentAttemptId = some attempt ∧
    truthy h.record.selectedMember = some name

/-- Every lease is held by a job. -/
def Store.LeasesHeld (s : Store) : Prop :=
  ∀ name attempt, attempt ∈ s.leases name → ∃ id, s.HeldBy name attempt id

section Commands

variable {A : Assumption} {s s' : Store} {id : String} {h h' : JobHash}

theorem Store.HeldBy.of_ne {name attempt id' : String} (hh : s.HeldBy name attempt id')
    (hjobs : s'.jobs = update s.jobs id (some h')) (hne : id' ≠ id) :
    s'.HeldBy name attempt id' := by
  obtain ⟨old, hj, hrest⟩ := hh
  exact ⟨old, by rw [hjobs, update_of_ne hne]; exact hj, hrest⟩

/-- One written job: the leases need to be checked for that job only. -/
theorem Store.LeasesHeld.write (hL : s.LeasesHeld) (id : String)
    (hjobs : s'.jobs = update s.jobs id (some h'))
    (hleases : ∀ name attempt, attempt ∈ s'.leases name →
      attempt ∈ s.leases name ∨ s'.HeldBy name attempt id)
    (hself : ∀ name attempt, attempt ∈ s'.leases name → s.HeldBy name attempt id →
      s'.HeldBy name attempt id) : s'.LeasesHeld := by
  intro name attempt hmem
  rcases hleases name attempt hmem with hold | hheld
  · obtain ⟨id', hheld⟩ := hL name attempt hold
    by_cases hid : id' = id
    · subst hid
      exact ⟨id', hself name attempt hmem hheld⟩
    · exact ⟨id', hheld.of_ne hjobs hid⟩
  · exact ⟨id, hheld⟩

theorem Store.not_heldBy (hj : s.jobs id = some h) (hstate : ¬ h.state.IsActive)
    (name attempt : String) : ¬ s.HeldBy name attempt id := by
  rintro ⟨old, hj', hactive, -⟩
  rw [hj] at hj'
  exact hstate (some.inj hj' ▸ hactive)

theorem Store.LeasesHeld.write_idle (hL : s.LeasesHeld) (hj : s.jobs id = some h)
    (hstate : ¬ h.state.IsActive)
    (hjobs : s'.jobs = update s.jobs id (some h'))
    (hleases : s'.leases = s.leases) : s'.LeasesHeld := by
  refine hL.write id hjobs (fun name attempt hmem => Or.inl (hleases ▸ hmem)) ?_
  intro name attempt _ hheld
  exact absurd hheld (not_heldBy hj hstate name attempt)

theorem Store.LeasesHeld.of_subset (hL : s.LeasesHeld) (hjobs : s'.jobs = s.jobs)
    (hleases : ∀ name, s'.leases name ⊆ s.leases name) : s'.LeasesHeld := by
  intro name attempt hmem
  obtain ⟨id, hheld⟩ := hL name attempt (hleases name hmem)
  refine ⟨id, ?_⟩
  unfold HeldBy
  rw [hjobs]
  exact hheld

theorem mem_srem_leases {name name' attempt attempt' : String} :
    attempt ∈ (s.srem name' attempt').leases name ↔
      attempt ∈ s.leases name ∧ ¬ (name = name' ∧ attempt = attempt') := by
  by_cases hname : name = name'
  · subst hname
    simp [and_comm]
  · simp [hname]

/-- A job that ends its claim and gives its own lease back. -/
theorem Store.LeasesHeld.release (hL : s.LeasesHeld) (hj : s.jobs id = some h)
    (hjobs : s'.jobs = update s.jobs id (some h'))
    {name₀ attempt₀ : String}
    (hname : truthy h.record.selectedMember = some name₀)
    (hattempt : truthy h.record.currentAttemptId = some attempt₀)
    (hleases : s'.leases = (s.srem name₀ attempt₀).leases) : s'.LeasesHeld := by
  refine hL.write id hjobs (fun name attempt hmem => ?_) fun name attempt hmem hheld => ?_
  · rw [hleases, mem_srem_leases] at hmem
    exact Or.inl hmem.1
  · obtain ⟨old, hj', -, ha, hn⟩ := hheld
    rw [hj] at hj'
    obtain rfl := some.inj hj'
    rw [hleases, mem_srem_leases] at hmem
    rw [hname] at hn
    rw [hattempt] at ha
    exact absurd ⟨(some.inj hn).symm, (some.inj ha).symm⟩ hmem.2

theorem reserveJob_leasesHeld {a : ReserveArgs} (hp : ReservePromise A a s)
    (hL : s.LeasesHeld) : (reserveJob a s).2.LeasesHeld := by
  rcases reserveJob_cases a s with ⟨-, heq⟩ | ⟨h, m, hr, heq⟩
  · rw [heq]
    exact hL
  rw [heq]
  refine hL.write a.selected.jobId rfl (fun name attempt hmem => ?_) ?_
  · by_cases hnew : name = a.member.name ∧ attempt = a.attemptId
    · obtain ⟨rfl, rfl⟩ := hnew
      refine Or.inr ⟨_, by simp [reserveCommit]; rfl, Or.inl rfl, ?_, ?_⟩
      · exact truthy_eq_some.mpr ⟨rfl, hp.attempt_ne⟩
      · exact truthy_eq_some.mpr ⟨rfl, hp.member_ne⟩
    · left
      by_cases hname : name = a.member.name
      · subst hname
        simp only [reserveCommit, putMemberHash_leases, sadd_leases,
          putAttempt_leases, putJob_leases, zrem_leases,
          update_self, Finset.mem_insert] at hmem
        rcases hmem with rfl | hmem
        · exact absurd ⟨rfl, rfl⟩ hnew
        · exact hmem
      · simpa [reserveCommit, hname] using hmem
  · intro name attempt _ hheld
    exact absurd hheld (not_heldBy hr.job
      (by rw [hr.jobState]; exact fun hq => hq.ne_queued rfl) name attempt)

theorem requeueClaim_leasesHeld {a : RequeueArgs} (hI : s.Coherent A)
    (hp : RequeuePromise A a s) (hL : s.LeasesHeld) :
    (requeueClaim a s).2.LeasesHeld := by
  rcases requeueClaim_cases a s with ⟨-, heq⟩ | ⟨h, s₁, t, hj, hv, -, hmember, -, heq⟩
  · rw [heq]
    exact hL
  have hrecord := hp.copy.record_eq hj hv
  have hattempt : truthy h.record.currentAttemptId = some a.attemptId := by
    rw [hrecord]
    exact hp.attemptId
  have hsel : h.record.selectedMember = a.current.selectedMember := by rw [hrecord]
  rw [heq]
  rcases requeueMember_cases hmember with
    ⟨rfl, hnone⟩ | ⟨name, m, member, hname, -, -, -, rfl⟩
  · -- A job without a member holds no lease.
    refine hL.write a.current.jobId rfl (fun _ _ hmem => Or.inl hmem) ?_
    rintro name attempt - ⟨old, hj', -, -, hn⟩
    rw [hj] at hj'
    obtain rfl := some.inj hj'
    have hsome := (hI.job hj).member name hn
    rw [hsel] at hn
    rw [hnone name hn] at hsome
    cases hsome
  · exact hL.release hj rfl (hsel ▸ hname) hattempt rfl

theorem repairDeadJob_leasesHeld {a : RepairArgs} (hp : RepairPromise a s)
    (hL : s.LeasesHeld) : (repairDeadJob a s).2.LeasesHeld := by
  rcases repairDeadJob_cases a s with ⟨-, heq⟩ | ⟨h, hj, hv, -, heq⟩
  · rw [heq]
    exact hL
  have hrecord := hp.copy.record_eq hj hv
  rw [heq]
  refine hL.release hj (repairCommit_jobs a h s) ?_ ?_ (repairCommit_leases a h s)
  · rw [hrecord]
    exact hp.memberName
  · rw [hrecord]
    exact hp.attemptId

variable {c : Cmd}

/-- **One command.**  Everything but `replace_job` keeps every lease held. -/
theorem exec_leasesHeld (hreplaces : ¬ A.replaces) (hI : s.Coherent A)
    (hp : Promise A c s) (hL : s.LeasesHeld) : (exec c s).2.LeasesHeld := by
  cases c with
  | submitJob digest job =>
    rcases submitJob_cases digest job s with heq | ⟨hnone, idempotency, heq⟩
    · simp only [exec, heq]
      exact hL
    simp only [exec, heq]
    refine hL.write job.jobId rfl (fun _ _ hmem => Or.inl hmem) ?_
    rintro name attempt - ⟨old, hj, -⟩
    rw [hnone] at hj
    cases hj
  | cancelQueued current completedAt =>
    rcases cancelQueued_cases current completedAt s with
      heq | ⟨h, hj, hstate, -, -, heq⟩
    · simp only [exec, heq]
      exact hL
    simp only [exec, heq]
    refine hL.write_idle hj ?_ rfl rfl
    rw [hstate]
    exact fun hq => hq.ne_queued rfl
  | reserveJob a => exact reserveJob_leasesHeld hp hL
  | requeueClaim a => exact requeueClaim_leasesHeld hI hp hL
  | replaceJob job attempt retention =>
    exact absurd (ReplacePromise.replaces hp) hreplaces
  | repairDeadJob a => exact repairDeadJob_leasesHeld hp hL
  | memberDrain a =>
    rcases memberDrain_cases a s with ⟨-, heq⟩ | ⟨m, -, -, -, -, heq⟩
    · simp only [exec, heq]
      exact hL
    simp only [exec, heq]
    split
    · refine hL.of_subset rfl fun name attempt hmem => ?_
      exact (mem_srem_leases.mp hmem).1
    · exact hL.of_subset rfl fun _ => subset_rfl
  | refreshMemberMirror a => exact hL.of_subset rfl fun _ => subset_rfl
  | _ =>
    refine hL.of_subset (exec_frame rfl).1 fun name => ?_
    rw [(exec_frame rfl).2.2.2.1]

end Commands

/-! ## Sequential runs of the methods -/

/-- The record is the stored one. -/
def Stored (r : JobRecord) (s : Store) : Prop :=
  ∃ h, s.jobs r.jobId = some h ∧ h.record = r

/-- What a method returns is the record it leaves stored. -/
def Settled (r : Except BrokerError JobRecord) (s : Store) : Prop :=
  ∀ job, r = .ok job → Stored job s

section Ends

variable {A : Assumption} {s : Store} {α : Type} {Q : Except BrokerError α → Store → Prop}

theorem ends_redis {k : c.Reply → Action α} (h : (k (exec c s).1).Ends exec Q (exec c s).2) :
    (redis c >>= k).Ends exec Q s := h

/-- A command whose reply and effect are known. -/
theorem ends_redis_of {k : c.Reply → Action α} {r : c.Reply} {t : Store}
    (heq : exec c s = (r, t)) (h : (k r).Ends exec Q t) :
    (redis c >>= k).Ends exec Q s := by
  refine ends_redis ?_
  rw [heq]
  exact h

variable {id : String} {h : JobHash}

theorem ends_get {k : Option JobRecord → Action α}
    (hnone : s.jobs id = none → (k none).Ends exec Q s)
    (hsome : ∀ h, s.jobs id = some h → (k (some h.record)).Ends exec Q s) :
    (RedisJobRepository.get id >>= k).Ends exec Q s := by
  refine ends_redis ?_
  simp only [exec]
  cases hj : s.jobs id with
  | none => exact hnone hj
  | some h => exact hsome h hj

theorem ends_getAttempt {k : Option AttemptRecord → Action α} (hnone : (k none).Ends exec Q s)
    (hsome : ∀ t, s.attempts id = some t → (k (some t.record)).Ends exec Q s) :
    (RedisJobRepository.getAttempt id >>= k).Ends exec Q s := by
  refine ends_redis ?_
  simp only [exec]
  cases ha : s.attempts id with
  | none => exact hnone
  | some t => exact hsome t ha

theorem settled_error (e : BrokerError) (s : Store) : Settled (.error e) s :=
  fun _ h => by cases h

theorem settled_ok {job : JobRecord} (h : Stored job s) : Settled (.ok job) s := by
  intro job' hjob
  cases hjob
  exact h

theorem Store.Coherent.stored (hI : s.Coherent A) (hj : s.jobs id = some h) : Stored h.record s :=
  ⟨h, by rw [(hI.job hj).jobId]; exact hj, rfl⟩

/-- A last read that falls back on the record at hand. -/
theorem settled_get (hI : s.Coherent A) (hj : s.jobs id = some h) (current : JobRecord) :
    (RedisJobRepository.get id >>= fun stored => pure (stored.getD current)).Ends exec
      Settled s := by
  refine ends_get (fun hnone => ?_) fun h' hj' => ends_pure (settled_ok (hI.stored hj'))
  rw [hj] at hnone
  cases hnone

end Ends

/-- A method that keeps every lease held and returns what it leaves stored. -/
def Tidy (r : Except BrokerError JobRecord) (s : Store) : Prop :=
  s.LeasesHeld ∧ Settled r s

/-- Coherence does not depend on who takes part in the run. -/
theorem Store.Coherent.anySlots {s : Store} {fresh fresh' replaces replaces' : Prop}
    (hI : s.Coherent (.anySlots fresh replaces)) :
    s.Coherent (.anySlots fresh' replaces') where
  job := hI.job
  member := fun hm =>
    { recordName := (hI.member hm).recordName
      state := (hI.member hm).state
      stateVersion := (hI.member hm).stateVersion
      fence := (hI.member hm).fence
      slots := (hI.member hm).slots
      recordSlots := (hI.member hm).recordSlots
      free := (hI.member hm).free
      recordFree := (hI.member hm).recordFree }
  attempt := hI.attempt

namespace RedisJobRepository

variable {A : Assumption} {s : Store} (repo : RedisJobRepository)

/-! ### What the methods return -/

/-- `submit_job.lua` stores the record it answers `created` for, and otherwise
nothing. -/
theorem submitJob_reply (digest : String) (job : JobRecord) (s : Store) :
    (∃ e, submitJob digest job s = (.error e, s)) ∨
      (∃ id, submitJob digest job s = (.ok (.existing id), s)) ∨
      ∃ t h, submitJob digest job s = (.ok (.created job.jobId), t) ∧
        t.jobs job.jobId = some h ∧ h.record = job := by
  unfold submitJob
  split
  · split
    · exact Or.inl ⟨_, rfl⟩
    · exact Or.inr (Or.inl ⟨_, rfl⟩)
  · split
    · exact Or.inl ⟨_, rfl⟩
    · exact Or.inr (Or.inr ⟨_, _, rfl, update_self .., rfl⟩)

theorem submit_settled (hI : s.Coherent A) (job : NewJob) (callerScope : String) :
    (repo.submit job.record callerScope).Ends exec Settled s := by
  rcases submitJob_reply (repo.sha256 (callerScope ++ "\x00" ++ job.idempotencyKey))
    { job.record with effectivePriority := job.record.basePriority.toInt } s with
    ⟨e, heq⟩ | ⟨id, heq⟩ | ⟨t, h, heq, hj, hrecord⟩
  · refine ends_redis_of heq ?_
    cases e <;> exact ends_throw (settled_error _ _)
  · refine ends_redis_of heq (ends_get (fun _ => ?_) fun h hj => ?_)
    · exact ends_throw (settled_error _ _)
    · exact ends_pure (settled_ok (hI.stored hj))
  · refine ends_redis_of heq ?_
    simp only [ne_eq, not_true_eq_false, if_false]
    exact ends_pure (settled_ok ⟨h, hj, hrecord⟩)

/-- `cancel_queued.lua` stores the record it answers `cancelled` for, and otherwise
nothing. -/
theorem cancelQueued_reply (current : JobRecord) (completedAt : ℚ) (s : Store) :
    (∃ e, Lua.cancelQueued current completedAt s = (.error e, s)) ∨
      Lua.cancelQueued current completedAt s = (.ok .alreadyNotQueued, s) ∨
      ∃ t, Lua.cancelQueued current completedAt s = (.ok .cancelled, t) ∧
        Stored (Lua.cancelledQueued current completedAt) t := by
  unfold Lua.cancelQueued
  split
  · exact Or.inl ⟨_, rfl⟩
  split
  · exact Or.inr (Or.inl rfl)
  split
  · exact Or.inl ⟨_, rfl⟩
  split
  · exact Or.inl ⟨_, rfl⟩
  · exact Or.inr (Or.inr ⟨_, rfl, _, update_self .., rfl⟩)

theorem cancelQueued_settled (hI : s.Coherent A) (jobId : String) (completedAt : ℚ) :
    (cancelQueued jobId completedAt).Ends exec Settled s := by
  refine ends_get (fun _ => ends_throw (settled_error _ _)) fun h hj => ?_
  simp only
  split
  · exact ends_pure (settled_ok (hI.stored hj))
  rcases cancelQueued_reply h.record completedAt s with ⟨e, heq⟩ | heq | ⟨t, heq, hstored⟩
  · refine ends_redis_of heq ?_
    cases e <;> exact ends_throw (settled_error _ _)
  · exact ends_redis_of heq (settled_get hI hj _)
  · exact ends_redis_of heq (ends_pure (settled_ok hstored))

theorem requeueScript_settled (a : RequeueArgs) :
    (requeueScript a).Ends exec Settled s := by
  refine ends_redis ?_
  simp only [exec]
  rcases requeueClaim_cases a s with
    ⟨⟨e, herr⟩, -⟩ | ⟨h, s₁, t, -, -, -, -, -, heq⟩
  · rw [herr]
    cases e <;> exact ends_throw (settled_error _ _)
  · rw [heq]
    exact ends_pure (settled_ok ⟨_, update_self .., rfl⟩)

theorem requeueClaim_settled (job : JobRecord) (reason : ReasonCode)
    (terminalAt : Option ℚ) :
    (repo.requeueClaim job reason terminalAt).Ends exec Settled s := by
  refine ends_get (fun _ => ends_throw (settled_error _ _)) fun h hj => ?_
  simp only
  split
  · exact ends_throw (settled_error _ _)
  split
  · exact ends_throw (settled_error _ _)
  split
  · exact ends_throw (settled_error _ _)
  refine ends_getAttempt (ends_throw (settled_error _ _)) fun t _ => ?_
  simp only
  split
  · exact ends_throw (settled_error _ _)
  split
  · exact requeueScript_settled _
  · exact ends_redis (requeueScript_settled _)

/-- What `reconcile_dead_job` returns is the record it leaves stored. -/
theorem reconcileDeadJob_settled (hI : s.Coherent A) (jobId repairOwner : String)
    (repairFence : ℤ) :
    (repo.reconcileDeadJob jobId repairOwner repairFence).Ends exec Settled s := by
  unfold reconcileDeadJob
  split
  · exact ends_throw (settled_error _ _)
  refine ends_get (fun _ => ends_throw (settled_error _ _)) fun h hj => ?_
  simp only
  split
  · exact ends_pure (settled_ok (hI.stored hj))
  split
  · rename_i memberName attemptId _ _
    refine ends_getAttempt (ends_throw (settled_error _ _)) fun t _ => ends_redis ?_
    simp only [exec]
    rcases repairDeadJob_cases
      { owner := repairOwner
        fence := repairFence
        current := h.record
        attempt := t.record
        memberName := memberName
        retention := repo.terminalAttemptRetentionSeconds } s with
      ⟨hreply, heq⟩ | ⟨h', -, -, -, heq⟩
    · rw [heq]
      split
      · exact ends_throw (settled_error _ _)
      · exact ends_throw (settled_error _ _)
      · exact ends_throw (settled_error _ _)
      · rename_i hrepaired
        exact absurd hrepaired hreply
      · exact settled_get hI hj _
    · rw [heq]
      refine ends_pure (settled_ok ⟨repairedHash _ h', ?_, rfl⟩)
      rw [repairCommit_jobs, repaired_jobId]
      exact update_self ..
  · exact ends_throw (settled_error _ _)

/-- `replace_job` by itself: it raises and leaves the store alone, or it writes the
record over the stored job and returns it. -/
theorem replaceJob_ends (job : JobRecord) :
    (repo.replaceJob job).Ends exec (fun r t =>
      (∃ e, r = .error e) ∧ t = s ∨
        r = .ok job ∧ ∃ h attempts, s.jobs job.jobId = some h ∧
          t = { s.putJob job.jobId (replacedHash job h) with attempts := attempts }) s := by
  unfold replaceJob
  split
  · exact ends_throw (Or.inl ⟨⟨_, rfl⟩, rfl⟩)
  refine ends_bind (ends_mono (Q := fun _ t => t = s) ?_ ?_)
  · -- Reading the attempt leaves the store alone.
    unfold attemptForJob
    split
    · refine ends_getAttempt (ends_throw rfl) fun t _ => ends_pure rfl
    · exact ends_pure rfl
  · rintro (e | attempt) t rfl
    · exact Or.inl ⟨⟨_, rfl⟩, rfl⟩
    refine ends_redis ?_
    simp only [exec]
    rcases replaceJob_cases job attempt repo.terminalAttemptRetentionSeconds t with
      ⟨⟨e, herr⟩, heq⟩ | ⟨h, attempts, hj, -, -, heq⟩
    · rw [herr, heq]
      cases e <;> exact ends_throw (Or.inl ⟨⟨_, rfl⟩, rfl⟩)
    · rw [heq]
      exact ends_pure (Or.inr ⟨rfl, h, attempts, hj, rfl⟩)

end RedisJobRepository

/-! ## Dispatch -/

/-- Every lease is the given one or is held by a job other than `id`. -/
def Store.HeldElsewhere (s : Store) (id name attempt : String) : Prop :=
  ∀ name' attempt', attempt' ∈ s.leases name' →
    name' = name ∧ attempt' = attempt ∨ ∃ id', id' ≠ id ∧ s.HeldBy name' attempt' id'

/-- What a reservation and its stored job must agree on: if the job is active, it is
claimed with this reservation, and it is not to be cancelled before acceptance. -/
def Reservation.Current (r : Reservation) (s : Store) : Prop :=
  ∀ h ∈ s.jobs r.job.jobId, h.state.IsActive →
    h.record.currentAttemptId = r.job.currentAttemptId ∧
      h.record.selectedMember = r.job.selectedMember ∧
      (h.record.cancelRequested = true → h.record.acceptedBoundaryCrossed = true)

section Dispatch

variable {A : Assumption} {s t : Store} {id name attempt : String}

theorem Store.HeldElsewhere.write (hE : s.HeldElsewhere id name attempt) (h' : JobHash)
    (hjobs : t.jobs = update s.jobs id (some h')) (hleases : t.leases = s.leases) :
    t.HeldElsewhere id name attempt := by
  intro name' attempt' hmem
  rw [hleases] at hmem
  rcases hE name' attempt' hmem with hsame | ⟨id', hne, hheld⟩
  · exact Or.inl hsame
  · exact Or.inr ⟨id', hne, hheld.of_ne hjobs hne⟩

/-- Once the lease is gone, every lease is held. -/
theorem Store.HeldElsewhere.released (hE : s.HeldElsewhere id name attempt)
    (hjobs : t.jobs = s.jobs)
    (hleases : ∀ name' attempt', attempt' ∈ t.leases name' →
      attempt' ∈ s.leases name' ∧ ¬ (name' = name ∧ attempt' = attempt)) : t.LeasesHeld := by
  intro name' attempt' hmem
  obtain ⟨hold, hne⟩ := hleases name' attempt' hmem
  rcases hE name' attempt' hold with hsame | ⟨id', -, hheld⟩
  · exact absurd hsame hne
  unfold HeldBy at hheld ⊢
  rw [hjobs]
  exact ⟨id', hheld⟩

/-- A dispatch may start: every lease but the reservation's is held elsewhere. -/
theorem Reservation.Current.heldElsewhere {r : Reservation} (hcur : r.Current s)
    (hr : r.Holds s) (hL : s.LeasesHeld) :
    s.HeldElsewhere r.job.jobId r.member.name r.attempt.attemptId := by
  intro name' attempt' hmem
  obtain ⟨id', hheld⟩ := hL name' attempt' hmem
  by_cases hid : id' = r.job.jobId
  · subst hid
    obtain ⟨h, hj, hactive, ha, hn⟩ := hheld
    obtain ⟨hattempt, hmember, -⟩ := hcur h hj hactive
    rw [hattempt, hr.attemptId] at ha
    rw [hmember, hr.memberName] at hn
    exact Or.inl ⟨(some.inj hn).symm, (some.inj ha).symm⟩
  · exact Or.inr ⟨id', hid, hheld⟩

namespace RedisJobRepository

variable (repo : RedisJobRepository)

variable {r : Reservation} {s₀ : Store} {d : DispatchState} {forwardAt : ℚ}

/-- Releasing a reservation removes its lease and touches no job. -/
theorem releaseReservationLease_ends (hI : s₀.Coherent A) (hr : r.Holds s₀)
    (hmembers : s.members = s₀.members) :
    (releaseReservationLease r).Ends exec (fun _ t => t.jobs = s.jobs ∧
      ∀ name attempt, attempt ∈ t.leases name → attempt ∈ s.leases name ∧
        ¬ (name = r.member.name ∧ attempt = r.attempt.attemptId)) s := by
  obtain ⟨m, hm⟩ := isSome_iff_exists.mp (hr.copy.member _ hr.memberName)
  obtain ⟨version, hversion⟩ := isSome_iff_exists.mp hr.version
  have hname := (hI.member hm).recordName
  rw [← hmembers] at hm
  unfold releaseReservationLease
  rw [hr.attemptId, hversion]
  refine ends_bind (ends_redis (c := .getMember r.member.name) ?_)
  simp only [exec, hm, map_some]
  refine ends_redis ?_
  simp only [exec]
  rcases memberDrain_releaseV2 (a :=
      { mode := .releaseV2
        current := m.record
        updated := releasedMember m.record
        claimedVersion := version
        attemptId := r.attempt.attemptId }) rfl (by rw [hname]; exact hm) rfl with
    ⟨hnot, heq⟩ | ⟨-, reply, heq⟩
  · rw [if_neg (by simp), heq]
    refine ends_throw ⟨rfl, fun name attempt hmem => ⟨hmem, ?_⟩⟩
    rintro ⟨rfl, rfl⟩
    exact hnot (hname ▸ hmem)
  · rw [if_neg (by simp), heq]
    refine ends_pure (ends_pure ⟨rfl, fun name attempt hmem => ?_⟩)
    rw [← hname]
    exact mem_srem_leases.mp hmem

/-- A terminal write followed by the release keeps every lease held. -/
theorem finishReservation_tidy (hI : s₀.Coherent A) (hr : r.Holds s₀)
    (hmembers : s.members = s₀.members) (hL : s.LeasesHeld)
    (hE : s.HeldElsewhere r.job.jobId r.member.name r.attempt.attemptId) {job : JobRecord}
    (hid : job.jobId = r.job.jobId) : (repo.finishReservation r job).Ends exec Tidy s := by
  refine ends_bind (ends_mono (repo.replaceJob_ends job) ?_)
  rintro _ t (⟨⟨e, rfl⟩, rfl⟩ | ⟨rfl, h, attempts, -, rfl⟩)
  · exact ⟨hL, settled_error e t⟩
  have hE' : HeldElsewhere
      { s.putJob job.jobId (replacedHash job h) with attempts := attempts }
      r.job.jobId r.member.name r.attempt.attemptId := by
    refine hE.write (replacedHash job h) ?_ rfl
    rw [← hid]
    rfl
  refine ends_bind (ends_mono (releaseReservationLease_ends hI hr hmembers) ?_)
  rintro (e | _) u ⟨hjobs, hleases⟩
  · exact ⟨hE'.released hjobs hleases, settled_error e u⟩
  · refine ends_pure ⟨hE'.released hjobs hleases, settled_ok ?_⟩
    refine ⟨replacedHash job h, ?_, (replacedHash_fields job h).1⟩
    rw [hjobs]
    exact update_self ..

/-- A dispatch between two callbacks of its transport.  Until the first callback
nothing has been written and the copy is the stored record. -/
structure Sending (r : Reservation) (s₀ : Store) (d : DispatchState) (s : Store) :
    Prop where
  held : s.LeasesHeld
  elsewhere : s.HeldElsewhere r.job.jobId r.member.name r.attempt.attemptId
  members : s.members = s₀.members
  jobId : d.current.jobId = r.job.jobId
  untouched : d.accepted = false → s = s₀
  stored : d.accepted = false → Stored d.current s

/-- `on_accepted` leaves the dispatch between two callbacks again. -/
theorem onAccepted_sending (hd : Sending r s₀ d s) :
    (repo.onAccepted forwardAt d).Ends exec (fun result t =>
      ∃ callback d', result = .ok (callback, d') ∧ Sending r s₀ d' t) s := by
  unfold onAccepted
  split
  · exact ends_pure ⟨_, _, rfl, hd⟩
  rename_i hfirst
  obtain ⟨h, hj, hrecord⟩ := hd.stored (by simpa using hfirst)
  refine ends_bind (ends_attempt (ends_mono (repo.replaceJob_ends _) ?_))
  rintro _ t (⟨⟨e, rfl⟩, rfl⟩ | ⟨rfl, h', attempts, hj', rfl⟩)
  · -- The write was rejected: only the copy has moved on.
    exact ends_pure ⟨_, _, rfl, hd.held, hd.elsewhere, hd.members, hd.jobId, nofun, nofun⟩
  · refine ends_pure ⟨_, _, rfl, ?_, ?_, hd.members, hd.jobId, nofun, nofun⟩
    · refine hd.held.write d.current.jobId rfl (fun _ _ hmem => Or.inl hmem) ?_
      rintro name attempt - ⟨old, hold, -, ha, hn⟩
      -- The accepted job keeps its attempt and its member.
      obtain rfl : h = old := by
        rw [hj] at hold
        exact some.inj hold
      refine ⟨_, update_self .., ?_, ?_, ?_⟩
      · rw [(replacedHash_fields _ _).2.1]
        exact Or.inr (Or.inl rfl)
      · rw [(replacedHash_fields _ _).1]
        exact hrecord ▸ ha
      · rw [(replacedHash_fields _ _).1]
        exact hrecord ▸ hn
    · refine hd.elsewhere.write
        (replacedHash (acceptedJob d.current forwardAt) h') ?_ rfl
      rw [← hd.jobId]
      rfl

theorem send_sending (transport : Transport) (hd : Sending r s₀ d s) :
    (repo.send forwardAt transport d).Ends exec (fun result t =>
      ∃ sent d', result = .ok (sent, d') ∧ Sending r s₀ d' t) s := by
  induction transport generalizing d s with
  | respond response | raise e => exact ends_pure ⟨_, _, rfl, hd⟩
  | accept returned raised ihReturned ihRaised =>
    rw [send]
    refine ends_bind (ends_mono (repo.onAccepted_sending hd) ?_)
    rintro _ t ⟨callback, d', rfl, hd'⟩
    cases callback with
    | ok u => exact ihReturned hd'
    | error e => exact ihRaised e hd'

/-- `requeue_claim` keeps every lease held. -/
theorem requeueClaim_tidy (hI : s.Coherent (.anySlots False False)) (hL : s.LeasesHeld)
    (job : JobRecord) (reason : ReasonCode) (terminalAt : Option ℚ) :
    (repo.requeueClaim job reason terminalAt).Ends exec Tidy s := by
  have hrun := (discipline (.anySlots False False)).run_of_wp LeasesHeld
    (fun _ _ hf => hf.elim) (fun _ _ hI hp hL => exec_leasesHeld id hI hp hL)
    (repo.requeueClaim_safe job reason terminalAt) hI hL
  exact ⟨hrun.2.2.1, repo.requeueClaim_settled job reason terminalAt⟩

theorem completeDispatch_tidy (hI : s₀.Coherent A) (hr : r.Holds s₀) (hd : Sending r s₀ d s)
    (response : String) (completedAt : ℚ) :
    (repo.completeDispatch r d.current response completedAt).Ends exec Tidy s := by
  have hfinish : ∀ job : JobRecord, job.jobId = d.current.jobId →
      (repo.finishReservation r job).Ends exec Tidy s := fun job hid =>
    repo.finishReservation_tidy hI hr hd.members hd.held hd.elsewhere (hid.trans hd.jobId)
  unfold completeDispatch
  split <;> exact hfinish _ rfl

theorem afterSend_tidy (hI : s₀.Coherent (.anySlots False False)) (hr : r.Holds s₀)
    (hd : Sending r s₀ d s) (forwardAt completedAt : ℚ) (sent : Except BrokerError String) :
    (repo.afterSend r forwardAt completedAt sent d).Ends exec Tidy s := by
  unfold afterSend
  split
  · exact ends_throw ⟨hd.held, settled_error _ s⟩
  · exact ends_throw ⟨hd.held, settled_error _ s⟩
  · exact ends_throw ⟨hd.held, settled_error _ s⟩
  · split
    · exact repo.finishReservation_tidy hI hr hd.members hd.held hd.elsewhere hd.jobId
    rename_i hfirst
    obtain rfl := hd.untouched (by simpa using hfirst)
    exact repo.requeueClaim_tidy hI hd.held _ _ _
  · refine ends_bind (ends_mono (repo.onAccepted_sending hd) ?_)
    rintro _ t ⟨callback, d', rfl, hd'⟩
    cases callback with
    | error e => exact ends_throw ⟨hd'.held, settled_error e t⟩
    | ok u => exact repo.completeDispatch_tidy hI hr hd' _ _

/-- **Dispatch.**  Given the reservation its job is claimed with, `dispatch` keeps
every lease held, whatever the transport does. -/
theorem dispatch_tidy (hI : s.Coherent (.anySlots False False)) (hL : s.LeasesHeld) (hr : r.Holds s)
    (hcur : r.Current s) (transport : Transport) (forwardAt completedAt : ℚ) :
    (repo.dispatch r transport forwardAt completedAt).Ends exec Tidy s := by
  obtain ⟨h, hj, -⟩ := hr.copy.stored
  refine ends_get (fun hnone => ?_) fun h' hj' => ?_
  · rw [hnone] at hj
    cases hj
  obtain rfl : h' = h := by
    rw [hj] at hj'
    exact (some.inj hj').symm
  have hid : h'.record.jobId = r.job.jobId := (hI.job hj).jobId
  unfold dispatchCurrent
  split
  · -- Cancelled before acceptance without a release: nothing was held.
    rename_i hcancel
    simp only [getD_some, Bool.and_eq_true, Bool.not_eq_true'] at hcancel
    have hidle : ¬ h'.state.IsActive := by
      intro hactive
      have hcrossed := (hcur h' hj hactive).2.2 hcancel.1
      rw [hcancel.2] at hcrossed
      cases hcrossed
    refine ends_mono (repo.replaceJob_ends _) ?_
    rintro _ t (⟨⟨e, rfl⟩, rfl⟩ | ⟨rfl, h, attempts, -, rfl⟩)
    · exact ⟨hL, settled_error e t⟩
    · refine ⟨hL.write_idle (hid ▸ hj) hidle rfl rfl, settled_ok ?_⟩
      exact ⟨_, update_self .., (replacedHash_fields _ _).1⟩
  · have hstart : Sending r s ⟨false, h'.record⟩ s :=
      ⟨hL, hcur.heldElsewhere hr hL, rfl, hid, fun _ => rfl, fun _ => hI.stored hj⟩
    refine ends_bind (ends_mono (repo.send_sending transport hstart) ?_)
    rintro _ t ⟨sent, d, rfl, hd⟩
    exact repo.afterSend_tidy hI hr hd forwardAt completedAt sent

/-- **Repair.**  A job that is claimed and before its boundary goes back to the
queue, and its lease with it. -/
theorem repair_tidy (hI : s.Coherent (.anySlots False False)) (hL : s.LeasesHeld)
    {jobId : String} {evidence : CrashEvidence} (repairOwner : String) (repairFence : ℤ)
    (hclaimed : evidence.verdict = .provenDead → ∀ h ∈ s.jobs jobId, h.state.IsActive →
      h.state = .claimed ∧ h.record.acceptedBoundaryCrossed = false) :
    (repo.repair jobId evidence repairOwner repairFence).Ends exec Tidy s := by
  refine ends_get (fun _ => ends_throw ⟨hL, settled_error _ s⟩) fun h hj => ?_
  simp only
  split
  · exact ends_pure ⟨hL, settled_ok (hI.stored hj)⟩
  rename_i hdead
  split
  · exact ends_pure ⟨hL, settled_ok (hI.stored hj)⟩
  rename_i hlive
  split
  · exact ends_throw ⟨hL, settled_error _ s⟩
  refine ends_redis ?_
  -- Acquiring the repair fence touches nothing but the fence.
  have hI₁ := ((discipline (.anySlots False False)).preserves
    (.acquireRepair jobId repairOwner repairFence) s hI trivial fun hf => hf.elim).1
  obtain ⟨claims, hacquire⟩ := acquireRepair_eq jobId repairOwner repairFence s
  change Coherent _ (acquireRepair jobId repairOwner repairFence s).2 at hI₁
  simp only [exec]
  rw [hacquire] at hI₁ ⊢
  have hL₁ : LeasesHeld { s with repairClaims := claims } := hL
  refine ends_ite (fun _ => ?_) fun _ => ?_
  · refine ends_get (fun hnone => ?_) fun h' hj' => ?_
    · exact absurd (hj.symm.trans hnone) (by simp)
    · exact ends_pure ⟨hL₁, settled_ok (hI₁.stored hj')⟩
  rw [(hI.job hj).state, not_or] at hlive
  have hactive := (h.state.trichotomy.resolve_left hlive.1).resolve_right hlive.2
  obtain ⟨hstate, hboundary⟩ := hclaimed (not_not.mp hdead) h hj hactive
  rw [if_neg (by rw [(hI.job hj).state, hstate, hboundary]; simp)]
  refine ends_bind (ends_mono (repo.requeueClaim_tidy hI₁ hL₁ _ _ _) ?_)
  rintro (e | job) u ⟨hheld, hsettled⟩
  · exact ⟨hheld, settled_error e u⟩
  obtain ⟨claims', hcomplete⟩ := completeRepair_eq jobId repairOwner repairFence u
  refine ends_redis ?_
  simp only [exec]
  rw [hcomplete]
  exact ends_pure ⟨hheld, settled_ok (hsettled job rfl)⟩

end RedisJobRepository

end Dispatch

/-! ## Sessions -/

/-- A call of the broker with the session it starts from. -/
abbrev BrokerCall := Call Store BrokerError Outcome (RedisJobRepository × Op)

/-- The calls after which every lease is still held.  `dispatch` is given the
reservation its job is claimed with, and `Reconciler.repair` does not find an active
job dead that has been accepted. -/
def LeaseSafe (c : BrokerCall) : Prop :=
  match c.op.2 with
  | .dispatch reserver _ _ _ =>
    ∀ r ∈ reservationOf c.before.outcomes[reserver]?, r.Current c.before.store
  | .repair jobId evidence _ _ =>
    evidence.verdict = .provenDead → ∀ h ∈ c.before.store.jobs jobId, h.state.IsActive →
      h.state = .claimed ∧ h.record.acceptedBoundaryCrossed = false
  | _ => True

instance (r : Reservation) (s : Store) : Decidable (r.Current s) := by
  unfold Reservation.Current
  infer_instance

instance (c : BrokerCall) : Decidable (LeaseSafe c) := by
  unfold LeaseSafe
  split <;> infer_instance

/-- A session in which every lease is held and every reservation handed out is still
a reservation. -/
structure Orderly (st : Session Store BrokerError Outcome) : Prop where
  coherent : st.store.Coherent (.anySlots False False)
  held : st.store.LeasesHeld
  lasting : ∀ (i : ℕ) (o : Outcome), st.outcomes[i]? = some (.ok o) → o.Lasting st.store

/-- A call whose outcome, when it is a job, is the stored record. -/
def Records (r : Except BrokerError Outcome) (s : Store) : Prop :=
  ∀ job, r = .ok (.job job) → Stored job s

section Sessions

variable {st : Session Store BrokerError Outcome} {s : Store} {op : RedisJobRepository × Op}

variable {p : Action JobRecord}

/-- A tidy method as a call. -/
theorem ends_outcome (h : p.Ends exec Tidy s) :
    (Outcome.job <$> p).Ends exec (fun r t => t.LeasesHeld ∧ Records r t) s := by
  refine ends_map (ends_mono h ?_)
  rintro (e | job) t ⟨hheld, hsettled⟩
  · exact ⟨hheld, fun _ h => by cases h⟩
  · refine ⟨hheld, fun job' hjob' => ?_⟩
    cases hjob'
    exact hsettled job rfl

theorem records_of_ne {α : Type} {p : Action α} {f : α → Outcome}
    (hf : ∀ a job, f a ≠ .job job) : (f <$> p).Ends exec Records s := by
  refine ends_map ?_
  intro job hjob
  cases hr : (p.run exec s).1 with
  | error e =>
    rw [hr] at hjob
    cases hjob
  | ok a =>
    rw [hr] at hjob
    exact absurd (Except.ok.inj hjob) (hf a job)

theorem records_of_settled (h : p.Ends exec Settled s) :
    (Outcome.job <$> p).Ends exec Records s := by
  refine ends_map (ends_mono h ?_)
  rintro (e | job) t hsettled job' hjob'
  · cases hjob'
  · cases hjob'
    exact hsettled job rfl

open RedisJobRepository in
/-- **One call.**  A launched call that is safe leaves every lease held and returns
what is stored. -/
theorem launched_held {repo : RedisJobRepository} {op : Op} {p : Action Outcome}
    (hst : Orderly st) (hsafe : LeaseSafe ⟨st, (repo, op)⟩)
    (hlaunch : launch (fun i => st.outcomes[i]?) (repo, op) = some p) :
    p.Ends exec (fun r t => t.LeasesHeld ∧ Records r t) st.store := by
  have hI := hst.coherent
  -- Every other call keeps the leases held command by command.
  have hother : (Assumption.anySlots False False).Admits op →
      p.Ends exec Records st.store →
      p.Ends exec (fun r t => t.LeasesHeld ∧ Records r t) st.store := by
    intro hadmits hrecords
    have hwp := launches (.anySlots False False) _ (repo, op) p st.store hI hadmits
      hst.lasting hlaunch
    have hrun := (discipline (.anySlots False False)).run_of_wp LeasesHeld
      (fun _ _ hf => hf.elim) (fun _ _ hI hp hL => exec_leasesHeld id hI hp hL) hwp hI hst.held
    exact ⟨hrun.2.2.1, hrecords⟩
  cases op with
  | dispatch reserver transport forwardAt completedAt =>
    obtain ⟨r, hr, rfl⟩ := map_eq_some_iff.mp hlaunch
    have hholds : r.Holds st.store := by
      unfold reservationOf at hr
      split at hr
      · rename_i r' hres
        obtain rfl := some.inj hr
        exact hst.lasting _ _ hres
      · cases hr
    exact ends_outcome (repo.dispatch_tidy hI hst.held hholds (hsafe r hr) _ _ _)
  | repair jobId evidence owner fence =>
    cases hlaunch
    exact ends_outcome (repo.repair_tidy hI hst.held owner fence hsafe)
  | submit job scope =>
    cases hlaunch
    exact hother trivial (records_of_settled (repo.submit_settled hI job scope))
  | cancelQueued jobId completedAt =>
    cases hlaunch
    exact hother trivial (records_of_settled (cancelQueued_settled hI jobId completedAt))
  | requeueClaim job reason terminalAt =>
    cases hlaunch
    exact hother trivial (records_of_settled (repo.requeueClaim_settled _ _ _))
  | reconcileDeadJob jobId owner fence =>
    cases hlaunch
    exact hother trivial (records_of_settled (repo.reconcileDeadJob_settled hI _ _ _))
  | reserveNext now members requirements owner token url =>
    cases hlaunch
    exact hother (fun _ _ => nofun) (records_of_ne fun _ _ => nofun)
  | putMember member =>
    cases hlaunch
    exact hother ⟨nofun, fun _ _ => nofun⟩ (records_of_ne fun _ _ => nofun)
  | completeMemberRejoin name version readiness =>
    cases hlaunch
    exact hother ⟨nofun, fun _ => nofun⟩ (records_of_ne fun _ _ => nofun)
  | _ =>
    cases hlaunch
    exact hother trivial (records_of_ne fun _ _ => nofun)

/-- **A session** stays orderly. -/
theorem Orderly.call (hst : Orderly st)
    (hsafe : LeaseSafe ⟨st, op⟩) : Orderly (broker.call st op) := by
  unfold System.call
  split
  · exact hst
  rename_i p hlaunch
  have hheld := (launched_held hst hsafe hlaunch).1
  have hwp := launches (.anySlots False) _ op p st.store hst.coherent.anySlots
    (Assumption.anySlots_admits False op.2) hst.lasting hlaunch
  obtain ⟨hI, hle, -, hpost⟩ := (discipline (.anySlots False)).run_of_wp (fun _ => True)
    (fun _ _ hf => hf.elim) (fun _ _ _ _ _ => trivial) hwp hst.coherent.anySlots trivial
  refine ⟨hI.anySlots, hheld, fun i o ho => ?_⟩
  rcases lt_trichotomy i st.outcomes.length with hlt | rfl | hgt
  · rw [List.getElem?_append_left hlt] at ho
    exact (hst.lasting i o ho).of_le hle
  · simp only [List.getElem?_concat_length, some.injEq] at ho
    exact hpost o ho
  · rw [List.getElem?_eq_none (by simpa using Nat.succ_le_of_lt hgt)] at ho
    cases ho

/-- After the call every lease is held by an active job under that attempt on that
member, and none of them by a job that the call returned as queued or terminal. -/
def LeavesNoLeak (c : BrokerCall) : Prop :=
  (broker.call c.before c.op).store.LeasesHeld ∧
    ∀ job, (broker.call c.before c.op).outcomes[c.before.outcomes.length]? =
        some (.ok (.job job)) → ¬ job.state.IsActive →
      ∀ name attempt, attempt ∈ (broker.call c.before c.op).store.leases name →
        ∃ id, id ≠ job.jobId ∧ (broker.call c.before c.op).store.HeldBy name attempt id

theorem Orderly.leavesNoLeak (hst : Orderly st)
    (hsafe : LeaseSafe ⟨st, op⟩) : LeavesNoLeak ⟨st, op⟩ := by
  have hafter := hst.call hsafe
  refine ⟨hafter.held, fun job hjob hstate name attempt hmem => ?_⟩
  obtain ⟨id, hheld⟩ := hafter.held name attempt hmem
  refine ⟨id, ?_, hheld⟩
  rintro rfl
  have hstored : Stored job (broker.call st op).store := by
    unfold System.call at hjob ⊢
    split at hjob
    · simp at hjob
    rename_i p hlaunch
    simp only [List.getElem?_concat_length, some.injEq] at hjob
    simp only [hlaunch]
    exact (launched_held hst hsafe hlaunch).2 job hjob
  obtain ⟨h, hj, rfl⟩ := hstored
  refine not_heldBy hj ?_ name attempt hheld
  rw [← (hafter.coherent.job hj).state]
  exact hstate

/-- **No leaked lease.**  From any namespace without leases, in every session whose
calls are safe, every call leaves no lease behind. -/
theorem no_leaked_lease {s : Store} (hI : s.Coherent (.anySlots False))
    (hempty : ∀ name, s.leases name = ∅) {ops : List (RedisJobRepository × Op)}
    (hsafe : ∀ c ∈ broker.calls ⟨s, []⟩ ops, LeaseSafe c) :
    ∀ c ∈ broker.calls ⟨s, []⟩ ops, LeavesNoLeak c := by
  have hstart : Orderly ⟨s, []⟩ := by
    refine ⟨hI.anySlots, fun name attempt hmem => ?_, fun i o ho => ?_⟩
    · simp [hempty] at hmem
    · simp at ho
  intro c hc
  have hc' := broker.calls_induction Orderly LeaseSafe (fun _ _ hst hs => hst.call hs) hstart
    hsafe c hc
  exact hc'.1.leavesNoLeak (hsafe c hc)

def Cmd.creates : Cmd → Option String
  | .submitJob _ job => some job.jobId
  | _ => none

theorem exec_jobs_none {id : String} (hc : c.creates ≠ some id)
    (hnone : s.jobs id = none) : (exec c s).2.jobs id = none := by
  have hne : ∀ {id' : String} {h : JobHash}, s.jobs id' = some h → id ≠ id' := by
    rintro id' h hj rfl
    rw [hnone] at hj
    cases hj
  have heffect := exec_effect c s
  generalize (exec c s).2 = t at heffect ⊢
  cases heffect with
  | @submitted digest job =>
    have hid : id ≠ job.jobId := fun h => hc (congrArg some h.symm)
    simp [hid, hnone]
  | cancelled found | replaced found | repaired found => simp [hne found, hnone]
  | reserved guards => simp [reserveCommit, hne guards.job, hnone]
  | requeued found active member =>
    obtain ⟨hjobs, -⟩ := requeueMember_frame member
    simp [requeueJob, hne found, hjobs, hnone]
  | _ => exact hnone

end Sessions

namespace Deployment

def start : Session Store BrokerError Outcome := ⟨empty, []⟩

def reservation : List (RedisJobRepository × Op) :=
  [(repository, .acquireLeadership "d" 0 1000), (repository, .putMember member),
    (repository, .submit job "s"),
    (repository, .reserveNext 0 [⟨member, "a", 0⟩] ⟨0, 0, ["chat"]⟩ "d" 1 none)]

def completed : List (RedisJobRepository × Op) :=
  reservation ++ [(repository, .dispatch 3 transport 0 0)]

/-- A job that is reserved, dispatched and completed leaves no lease. -/
theorem completed_leavesNoLeak :
    (∀ c ∈ broker.calls start completed, LeaseSafe c) ∧
      ∀ c ∈ broker.calls start completed, LeavesNoLeak c :=
  ⟨by decide +kernel,
    no_leaked_lease (Coherent.empty _) (fun _ => rfl) (by decide +kernel)⟩

/-- Three failed probe rounds and nothing left of the process. -/
def dead : CrashEvidence :=
  { failedProbeRounds := 3
    systemdActive := some false
    mainPidAlive := some false
    processPresent := some false }

/-- The dispatcher is cancelled after acceptance, and the reconciler repairs the job
of the dead member. -/
def deadAfterAcceptance : List (RedisJobRepository × Op) :=
  reservation ++
    [(repository, .dispatch 3 (.accept (.raise (.baseException "CancelledError")) .raise) 0 0),
      (repository, .repair "j" dead "r" 1)]

theorem deadAfterAcceptance_length : 5 < (broker.calls start deadAfterAcceptance).length := by
  decide +kernel

/-- The call of the repair. -/
def repairCall : BrokerCall :=
  (broker.calls start deadAfterAcceptance).get ⟨5, deadAfterAcceptance_length⟩

/-- The store after the repair. -/
def repairedStore : Store := (broker.call repairCall.before repairCall.op).store

/-- The only job of the session is the one that was submitted. -/
theorem repairedStore_jobs {id : String} (hid : id ≠ "j") : repairedStore.jobs id = none := by
  have hcreates : ∀ c ∈ broker.calls start deadAfterAcceptance,
      ∀ d ∈ broker.callCommands c.before c.op, d.creates = none ∨ d.creates = some "j" := by
    decide +kernel
  refine broker.calls_of_commands (K := fun s => s.jobs id = none)
    (P := fun c => c.creates ≠ some id) (fun _ _ hc hnone => exec_jobs_none hc hnone) ?_ rfl
    repairCall (List.get_mem _ _)
  intro c hc d hd
  rcases hcreates c hc d hd with h | h
  · rw [h]
    simp
  · rw [h]
    exact fun heq => hid (some.inj heq).symm

/-- The repaired job is terminal, and its lease is still there. -/
theorem deadAfterAcceptance_leaks :
    ¬ ∀ c ∈ broker.calls start deadAfterAcceptance, LeavesNoLeak c := by
  intro hall
  have hheld := (hall repairCall (List.get_mem _ _)).1
  have hlease : "a" ∈ repairedStore.leases "m" := by decide +kernel
  have hstate : (repairedStore.jobs "j").map JobHash.state = some .outcomeUnknown := by
    decide +kernel
  obtain ⟨id, h, hj, hactive, -⟩ := hheld "m" "a" hlease
  change repairedStore.jobs id = some h at hj
  by_cases hid : id = "j"
  · subst hid
    rw [hj, map_some, some.injEq] at hstate
    rw [hstate] at hactive
    exact absurd hactive (by decide)
  · rw [repairedStore_jobs hid] at hj
    cases hj

end Deployment

end GpuManager.Broker
