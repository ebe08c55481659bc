import GpuManager.Broker.Clients

/-!
# What a version fence does for a job, and what it does not

Every script that writes a job compares the stored version with the one its caller
read.  Together with `Copy` this fences most writers completely: what they write
was built from the record they replace.

`replace_job.lua` is the exception.  Its caller is `dispatch`, which raises the
version of its own copy before it knows that the write went through; after a
rejected write the copy carries a version that another client may have stored with
a different record.  The script does not look at the state it replaces, and it
does not touch the queues.

The two theorems of this module say exactly how far the fence reaches.

* Queue membership and the state `queued` agree in every state of a run if and only
  if no `replace_job` commits over a queued job.
* A version rises by one with each write and a crossed boundary is never taken back
  in any run; a finished job is left alone if and only if no `replace_job` commits
  over one.
-/

namespace GpuManager.Broker

open AtomicProgram Lua Function

/-- A `replace_job` that passes the checks of its script, over a stored job whose
state satisfies `P`.  The checks are on the version and on the attempt key, and
nothing else. -/
def Overwrites (P : JobState → Prop) (e : Event Store Cmd) : Prop :=
  ∃ job attempt retention h, e.cmd = .replaceJob job attempt retention ∧
    e.before.jobs job.jobId = some h ∧ h.stateVersion = job.stateVersion - 1 ∧
    (∀ t ∈ attempt, (e.before.attempts t.attemptId).isSome) ∧ P h.state

variable {e : Event Store Cmd}

/-- Such a command stores its record and leaves the queues as they are. -/
theorem Overwrites.after {P : JobState → Prop} (he : Overwrites P e) :
    ∃ job attempt retention h, e.cmd = .replaceJob job attempt retention ∧
      e.before.jobs job.jobId = some h ∧ P h.state ∧
      (broker.after e).jobs job.jobId = some (replacedHash job h) ∧
      h.stateVersion = job.stateVersion - 1 ∧
      (broker.after e).queues = e.before.queues := by
  obtain ⟨job, attempt, retention, h, hcmd, hjob, hversion, hattempt, hP⟩ := he
  obtain ⟨attempts, heq⟩ := replaceJob_of_guards retention hjob hversion hattempt
  refine ⟨job, attempt, retention, h, hcmd, hjob, hP, ?_, hversion, ?_⟩
  all_goals
    obtain ⟨cmd, before⟩ := e
    subst hcmd
    simp only [System.after, broker, exec] at *
    rw [heq]
  · simp
  · rfl

/-! ## Queues and states -/

/-- An id stands in the queue of a priority exactly when the stored job is queued
and has that priority. -/
def Store.QueueAgrees (s : Store) : Prop :=
  ∀ id p, id ∈ s.queues p ↔
    ∃ h, s.jobs id = some h ∧ h.state = .queued ∧ h.record.basePriority = p

section QueueAgrees

variable {A : Assumption} {s s' : Store} {c : Cmd}

section

variable (hQ : s.QueueAgrees) {h h' : JobHash} {id : String} {job : JobRecord}
include hQ

theorem Store.QueueAgrees.of_eq (hjobs : s'.jobs = s.jobs) (hqueues : s'.queues = s.queues) :
    s'.QueueAgrees := by
  intro id p
  rw [hjobs, hqueues]
  exact hQ id p

/-- A stored job that is not queued stands in no queue. -/
theorem Store.QueueAgrees.not_mem (hj : s.jobs id = some h)
    (hstate : h.state ≠ .queued) (p : Priority) : id ∉ s.queues p := by
  intro hmem
  obtain ⟨h', hj', hq, -⟩ := (hQ id p).mp hmem
  rw [hj] at hj'
  exact hstate (Option.some.inj hj' ▸ hq)

/-- A stored job stands in no queue but that of its priority. -/
theorem Store.QueueAgrees.eq_basePriority (hj : s.jobs id = some h)
    {p : Priority} (hmem : id ∈ s.queues p) : h.record.basePriority = p := by
  obtain ⟨h', hj', -, hp⟩ := (hQ id p).mp hmem
  rw [hj] at hj'
  exact Option.some.inj hj' ▸ hp

/-- One written job: the queues need to be checked for that job only. -/
theorem Store.QueueAgrees.write (hjobs : s'.jobs = update s.jobs id (some h'))
    (hother : ∀ id' p, id' ≠ id → (id' ∈ s'.queues p ↔ id' ∈ s.queues p))
    (hself : ∀ p, id ∈ s'.queues p ↔ h'.state = .queued ∧ h'.record.basePriority = p) :
    s'.QueueAgrees := by
  intro id' p
  by_cases hid : id' = id
  · subst hid
    rw [hself p, hjobs, update_self]
    simp
  · rw [hother id' p hid, hQ id' p, hjobs, update_of_ne hid]

/-- The three writers that take a job out of the queue, or never find it there. -/
theorem Store.QueueAgrees.leave (hj : s.jobs id = some h)
    (hjobs : s'.jobs = update s.jobs id (some h')) (hstate : h'.state ≠ .queued)
    (hqueues : ∀ id' p, id' ∈ s'.queues p ↔
      id' ∈ s.queues p ∧ ¬ (p = h.record.basePriority ∧ id' = id)) : s'.QueueAgrees := by
  refine hQ.write hjobs (fun id' p hne => ?_) fun p => ?_
  · rw [hqueues]
    exact and_iff_left fun hboth => hne hboth.2
  · rw [hqueues]
    refine ⟨fun ⟨hmem, hnot⟩ => ?_, fun hq => absurd hq.1 hstate⟩
    exact absurd ⟨(hQ.eq_basePriority hj hmem).symm, rfl⟩ hnot

theorem Store.QueueAgrees.enter (id : String) (habsent : ∀ p, id ∉ s.queues p)
    (hjobs : s'.jobs = update s.jobs id (some h')) (hstate : h'.state = .queued)
    (hqueues : ∀ id' p, id' ∈ s'.queues p ↔
      (p = h'.record.basePriority ∧ id' = id) ∨ id' ∈ s.queues p) : s'.QueueAgrees := by
  refine hQ.write hjobs (fun id' p hne => ?_) fun p => ?_
  · rw [hqueues]
    exact or_iff_right fun hboth => hne hboth.2
  · rw [hqueues]
    constructor
    · rintro (⟨rfl, -⟩ | hmem)
      · exact ⟨hstate, rfl⟩
      · exact absurd hmem (habsent p)
    · rintro ⟨-, rfl⟩
      exact Or.inl ⟨rfl, rfl⟩

theorem submitJob_queueAgrees {digest : String} :
    (submitJob digest job s).2.QueueAgrees := by
  rcases submitJob_cases digest job s with heq | ⟨hnone, idempotency, heq⟩
  · rw [heq]
    exact hQ
  rw [heq]
  refine hQ.enter job.jobId (fun p hmem => ?_) rfl rfl fun id' p => ?_
  · obtain ⟨h, hj, -⟩ := (hQ _ p).mp hmem
    rw [hnone] at hj
    cases hj
  · simp

theorem cancelQueued_queueAgrees {current : JobRecord} {completedAt : ℚ} (hcopy : Copy current s) :
    (cancelQueued current completedAt s).2.QueueAgrees := by
  rcases cancelQueued_cases current completedAt s with heq | ⟨h, hj, -, -, -, heq⟩
  · rw [heq]
    exact hQ
  rw [heq]
  refine hQ.leave hj rfl nofun fun id' p => ?_
  rw [hcopy.basePriority_eq hj]
  simp

theorem reserveJob_queueAgrees {a : ReserveArgs} (hcopy : Copy a.selected s) :
    (reserveJob a s).2.QueueAgrees := by
  rcases reserveJob_cases a s with ⟨-, heq⟩ | ⟨h, m, hr, heq⟩
  · rw [heq]
    exact hQ
  rw [heq]
  refine hQ.leave hr.job rfl nofun fun id' p => ?_
  rw [hcopy.basePriority_eq hr.job]
  simp [reserveCommit]

theorem requeueClaim_queueAgrees {a : RequeueArgs} : (requeueClaim a s).2.QueueAgrees := by
  rcases requeueClaim_cases a s with
    ⟨-, heq⟩ | ⟨h, s₁, t, hj, -, hactive, hmember, -, heq⟩
  · rw [heq]
    exact hQ
  obtain ⟨hjobs, hqueues, -⟩ := requeueMember_frame hmember
  rw [heq]
  refine hQ.enter _ (hQ.not_mem hj hactive.ne_queued) (by rw [← hjobs]; rfl) rfl
    fun id' p => ?_
  simp only [requeueJob, RequeueArgs.queued, Store.putAttempt_queues,
    Store.putJob_queues, Store.mem_zadd_queues, hqueues]

theorem repairDeadJob_queueAgrees {a : RepairArgs} : (repairDeadJob a s).2.QueueAgrees := by
  rcases repairDeadJob_cases a s with ⟨-, heq⟩ | ⟨h, hj, -, hactive, heq⟩
  · rw [heq]
    exact hQ
  have habsent := hQ.not_mem hj hactive.ne_queued
  rw [heq]
  rcases repaired_cases a with ⟨hunknown, -⟩ | ⟨hqueued, -⟩
  · refine hQ.leave hj (repairCommit_jobs a h s) ?_ fun id' p => ?_
    · change a.repaired.state ≠ .queued
      rw [hunknown]
      simp
    · rw [mem_repairCommit_queues, hunknown]
      simp only [reduceCtorEq, false_and, false_or]
      refine (and_iff_left_of_imp fun hmem hboth => ?_).symm
      exact habsent p (hboth.2 ▸ hmem)
  · refine hQ.enter _ habsent (repairCommit_jobs a h s) hqueued fun id' p => ?_
    rw [mem_repairCommit_queues]
    simp [repairedHash, hqueued]

/-- `replace_job` leaves the queues alone, so it must not find a queued job. -/
theorem replaceJob_queueAgrees {attempt : Option AttemptRecord} {retention : ℤ}
    (hstate : job.state ≠ .queued)
    (hno : ¬ Overwrites (· = .queued) ⟨.replaceJob job attempt retention, s⟩) :
    (replaceJob job attempt retention s).2.QueueAgrees := by
  rcases replaceJob_cases job attempt retention s with
    ⟨-, heq⟩ | ⟨h, attempts, hj, hv, hattempt, heq⟩
  · rw [heq]
    exact hQ
  have hfound : h.state ≠ .queued := fun hq =>
    hno ⟨job, attempt, retention, h, rfl, hj, hv, hattempt, hq⟩
  rw [heq]
  refine hQ.leave hj rfl ?_ fun id' p => ?_
  · rw [(replacedHash_fields job h).2.1]
    exact hstate
  · refine (and_iff_left_of_imp fun hmem hboth => ?_).symm
    exact hQ.not_mem hj hfound p (hboth.2 ▸ hmem)

end

/-- **One command.**  Everything but such a `replace_job` keeps queues and states
in agreement. -/
theorem exec_queueAgrees (hp : Promise A c s) (hQ : s.QueueAgrees)
    (hno : ¬ Overwrites (· = .queued) ⟨c, s⟩) : (exec c s).2.QueueAgrees := by
  cases c with
  | submitJob digest job => exact submitJob_queueAgrees hQ
  | cancelQueued current completedAt => exact cancelQueued_queueAgrees hQ hp
  | reserveJob a => exact reserveJob_queueAgrees hQ (ReservePromise.copy hp)
  | requeueClaim a => exact requeueClaim_queueAgrees hQ
  | replaceJob job attempt retention => exact replaceJob_queueAgrees hQ (ReplacePromise.state hp) hno
  | repairDeadJob a => exact repairDeadJob_queueAgrees hQ
  | memberDrain a =>
    rcases memberDrain_cases a s with ⟨-, heq⟩ | ⟨m, -, -, -, -, heq⟩
    · simp only [exec, heq]
      exact hQ
    · simp only [exec, heq]
      split <;> exact hQ.of_eq rfl rfl
  | refreshMemberMirror a => exact hQ.of_eq rfl rfl
  | _ => exact hQ.of_eq (exec_frame rfl).1 (exec_frame rfl).2.1

end QueueAgrees

/-- **Queues and states.**  In every state that a run visits, queue membership
agrees with the state `queued`, if and only if the run contains no `replace_job`
that commits over a queued job. -/
theorem queues_agree_iff (labels : List BrokerLabel) :
    (∀ ls, ls <+: labels → (broker.run idle ls).store.QueueAgrees) ↔
      ∀ e ∈ broker.history idle labels, ¬ Overwrites (· = .queued) e := by
  constructor
  · intro hall e he hover
    obtain ⟨l₁, l, h₁, h₂, hbefore, hafter⟩ := broker.exists_prefix_of_mem_history he
    have hQ := hall l₁ h₁
    have hQ' := hall (l₁ ++ [l]) h₂
    rw [← hbefore] at hQ
    rw [← hafter] at hQ'
    obtain ⟨job, attempt, retention, h, hcmd, hj, hstate, hj', -, hqueues⟩ := hover.after
    have hp := (broker_promise he).2
    rw [hcmd] at hp
    -- The id stands in its queue before, hence after, but the stored state left `queued`.
    have hmem : job.jobId ∈ (broker.after e).queues h.record.basePriority := by
      rw [hqueues]
      exact (hQ _ _).mpr ⟨h, hj, hstate, rfl⟩
    refine hQ'.not_mem hj' ?_ _ hmem
    rw [(replacedHash_fields job h).2.1]
    exact ReplacePromise.state hp
  · intro hno ls hls
    refine broker.run_induction Store.QueueAgrees ?_ fun e he hQ => ?_
    · intro id p
      simp [idle, Store.empty]
    · have hmem := broker.mem_history_of_isPrefix hls he
      exact exec_queueAgrees (broker_promise hmem).2 hQ (hno e hmem)

namespace Deployment

/-- A dispatcher reads its claim and stalls; the claim is recovered as stale; the
dispatcher's transport then reports acceptance.  The write of `on_accepted` is
rejected, but the copy it leaves behind has the version of the requeued job. -/
def lateAcceptance : List BrokerLabel :=
  reserved ++ [call (.dispatch 3 transport 1 2)] ++ acts 4 1 ++
    [call (.recoverStalePreAcceptanceClaims 200 120 256 ["j"])] ++ acts 5 5 ++ acts 4 4

/-- The job ends as `outcome_unknown` and stays in its queue. -/
theorem lateAcceptance_not_queues_agree :
    ¬ ∀ ls, ls <+: lateAcceptance → (broker.run idle ls).store.QueueAgrees := by
  intro hall
  have hmem : "j" ∈ (broker.run idle lateAcceptance).store.queues .normal := by
    decide +kernel
  have hstate : ((broker.run idle lateAcceptance).store.jobs "j").map JobHash.state =
      some .outcomeUnknown := by
    decide +kernel
  obtain ⟨h, hj, hq, -⟩ := (hall _ (List.prefix_refl _) "j" .normal).mp hmem
  rw [hj, Option.map_some, hq] at hstate
  cases hstate

end Deployment

/-! ## The history of one job -/

section Terminal

variable {s : Store} {c : Cmd} {id : String} {h : JobHash}

/-- A job hash that a command writes over was queued or active. -/
theorem kept_of_update {s' : Store} {id' : String} {h' old : JobHash}
    (hjobs : s'.jobs = update s.jobs id' (some h'))
    (hold : s.jobs id' = some old) (hstate : ¬ old.state.IsTerminal)
    (hj : s.jobs id = some h) (hterm : h.state.IsTerminal) : s'.jobs id = some h := by
  have hne : id ≠ id' := by
    rintro rfl
    rw [hj] at hold
    exact hstate (Option.some.inj hold ▸ hterm)
  rw [hjobs, update_of_ne hne]
  exact hj

/-- **One command.**  Everything but a `replace_job` over a finished job leaves a
finished job as it is. -/
theorem exec_keeps_terminal (hno : ¬ Overwrites JobState.IsTerminal ⟨c, s⟩)
    (hj : s.jobs id = some h) (hterm : h.state.IsTerminal) :
    (exec c s).2.jobs id = some h := by
  have hqueued : ¬ JobState.queued.IsTerminal := fun hq => hq.ne_queued rfl
  have heffect := exec_effect c s
  generalize (exec c s).2 = t at heffect ⊢
  cases heffect with
  | @submitted digest job unused fresh =>
    have hne : id ≠ job.jobId := by
      rintro rfl
      rw [fresh] at hj
      cases hj
    exact (update_of_ne hne _ _).trans hj
  | cancelled found state version =>
    exact kept_of_update rfl found (state ▸ hqueued) hj hterm
  | reserved guards => exact kept_of_update rfl guards.job (guards.jobState ▸ hqueued) hj hterm
  | requeued found active member =>
    obtain ⟨hjobs, -⟩ := requeueMember_frame member
    exact kept_of_update (by rw [← hjobs]; rfl) found active.not_isTerminal hj hterm
  | replaced found version known =>
    refine kept_of_update rfl found (fun hfound => ?_) hj hterm
    exact hno ⟨_, _, _, _, rfl, found, version, known, hfound⟩
  | repaired found version active =>
    exact kept_of_update (repairCommit_jobs _ _ s) found active.not_isTerminal hj hterm
  | _ => exact hj

end Terminal

/-- What is asked of the jobs of a run: every write raises the version by one, a
crossed boundary is never taken back and keeps the job out of the queue, and a
finished job is never changed again. -/
structure JobsFenced (labels : List BrokerLabel) : Prop where
  version : ∀ e ∈ broker.history idle labels, ∀ id h, e.before.jobs id = some h →
    ∃ h', (broker.after e).jobs id = some h' ∧
      (h' = h ∨ h'.stateVersion = h.stateVersion + 1)
  boundary : ∀ ls₁ ls₂, ls₁ <+: ls₂ → ls₂ <+: labels → ∀ id h,
    (broker.run idle ls₁).store.jobs id = some h →
    h.record.acceptedBoundaryCrossed = true →
    ∃ h', (broker.run idle ls₂).store.jobs id = some h' ∧
      h'.record.acceptedBoundaryCrossed = true ∧ h'.state ≠ .queued
  terminal : ∀ ls₁ ls₂, ls₁ <+: ls₂ → ls₂ <+: labels → ∀ id h,
    (broker.run idle ls₁).store.jobs id = some h → h.state.IsTerminal →
    (broker.run idle ls₂).store.jobs id = some h

/-- Every write raises the version by exactly one, in every run. -/
theorem version_succ_of_mem_history {labels : List BrokerLabel}
    (he : e ∈ broker.history idle labels) {id : String} {h : JobHash}
    (hj : e.before.jobs id = some h) :
    ∃ h', (broker.after e).jobs id = some h' ∧
      (h' = h ∨ h'.stateVersion = h.stateVersion + 1) := by
  obtain ⟨hI, hp⟩ := broker_promise he
  rcases exec_jobEffect hI hp with heq | ⟨id', h', heq, -, hw⟩
  · refine ⟨h, ?_, Or.inl rfl⟩
    rw [← hj]
    exact congrFun heq id
  · have hafter : (broker.after e).jobs = update e.before.jobs id' (some h') := heq
    by_cases hid : id = id'
    · subst hid
      exact ⟨h', by rw [hafter, update_self], Or.inr (hw h hj).stateVersion⟩
    · exact ⟨h, by rw [hafter, update_of_ne hid]; exact hj, Or.inl rfl⟩

/-- A crossed boundary is never taken back, in every run. -/
theorem boundary_of_prefix {ls₁ ls₂ : List BrokerLabel} (hpre : ls₁ <+: ls₂)
    {id : String} {h : JobHash} (hj : (broker.run idle ls₁).store.jobs id = some h)
    (hb : h.record.acceptedBoundaryCrossed = true) :
    ∃ h', (broker.run idle ls₂).store.jobs id = some h' ∧
      h'.record.acceptedBoundaryCrossed = true ∧ h'.state ≠ .queued := by
  obtain ⟨hI, hle⟩ := broker_le (.anySlots False) hpre
    (fun op _ => Assumption.anySlots_admits _ op.2) (fun hf => hf.elim)
  obtain ⟨h', hj', hle'⟩ := hle.job hj
  rcases hle' with rfl | ⟨-, -, hkeep⟩
  · refine ⟨h', hj', hb, fun hq => ?_⟩
    rw [(hI.job hj).boundary hq] at hb
    cases hb
  · exact ⟨h', hj', hkeep hb⟩

/-- **The history of a job.**  In every run the version rises by one with each
write and a crossed boundary stays crossed; all three properties hold if and only
if no `replace_job` commits over a finished job. -/
theorem jobs_fenced_iff (labels : List BrokerLabel) :
    JobsFenced labels ↔
      ∀ e ∈ broker.history idle labels, ¬ Overwrites JobState.IsTerminal e := by
  constructor
  · intro hfenced e he hover
    obtain ⟨l₁, l, h₁, h₂, hbefore, hafter⟩ := broker.exists_prefix_of_mem_history he
    obtain ⟨job, attempt, retention, h, -, hj, hterm, hj', hv, -⟩ := hover.after
    rw [hbefore] at hj
    rw [hafter] at hj'
    have hkept := hfenced.terminal l₁ (l₁ ++ [l]) (List.prefix_append _ _) h₂ _ h hj hterm
    rw [hj'] at hkept
    have hversion := congrArg JobHash.stateVersion (Option.some.inj hkept)
    rw [(replacedHash_fields job h).2.2.1] at hversion
    omega
  · intro hno
    refine ⟨fun e he id h hj => version_succ_of_mem_history he hj,
      fun ls₁ ls₂ h₁ _ id h hj hb => boundary_of_prefix h₁ hj hb, ?_⟩
    rintro ls₁ ls₂ ⟨ls, rfl⟩ h₂ id h hj hterm
    rw [System.run_append]
    refine broker.run_induction (fun s => s.jobs id = some h) hj fun e he hkept => ?_
    refine exec_keeps_terminal (hno e (broker.mem_history_of_isPrefix h₂ ?_)) hkept hterm
    rw [System.history_append]
    exact List.mem_append_right _ he

namespace Deployment

/-- A claim is requeued and then cancelled by its submitter. -/
def cancelledClaim : List BrokerLabel :=
  reserved ++ [call (.requeueClaim job.record .preAcceptanceRequeue none)] ++ acts 4 4 ++
    [call (.cancelQueued "j" 3)] ++ acts 5 2

/-- The dispatcher that held the claim comes late: it reads the cancelled record
and accepts it. -/
def acceptedAfterCancel : List BrokerLabel :=
  cancelledClaim ++ ([call (.dispatch 3 transport 5 6)] ++ acts 6 2)

/-- A cancelled job becomes accepted. -/
theorem acceptedAfterCancel_not_fenced : ¬ JobsFenced acceptedAfterCancel := by
  intro hfenced
  have hcancelled : ((broker.run idle cancelledClaim).store.jobs "j").map JobHash.state =
      some .cancelled := by
    decide +kernel
  have haccepted : ((broker.run idle acceptedAfterCancel).store.jobs "j").map
      JobHash.state = some .accepted := by
    decide +kernel
  obtain ⟨h, hj, hstate⟩ := Option.map_eq_some_iff.mp hcancelled
  have hkept := hfenced.terminal cancelledClaim acceptedAfterCancel
    (List.prefix_append _ _) (List.prefix_refl _) "j" h hj
    (by rw [hstate]; decide)
  rw [hkept, Option.map_some, hstate] at haccepted
  cases haccepted

end Deployment

end GpuManager.Broker
