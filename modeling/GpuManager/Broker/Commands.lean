import GpuManager.Broker.Dispatcher

/-!
# Which commands a method can issue

Two commands store a record that their caller built: `submit` a new one, and `replace_job`
one that its caller may not have just read.  Only `submit`, the dispatcher and the reconciler
issue them; every other method of the repository cannot, whatever the store answers.
-/

namespace GpuManager.Broker

open AtomicProgram

def Cmd.carried : Cmd → Option JobRecord
  | .submitJob _ job => some job
  | .replaceJob job _ _ => some job
  | _ => none

abbrev Plain {α : Type} (p : Action α) : Prop := p.Issues fun c => c.carried = none

section Plain

variable {α β : Type} {c : Cmd}

theorem issues_redis {P : Cmd → Prop} {k : c.Reply → Action α} (h : P c)
    (hk : ∀ r, (k r).Issues P) : (redis c >>= k).Issues P := .call h hk

theorem plain_redis {k : c.Reply → Action α} (h : c.carried = none)
    (hk : ∀ r, Plain (k r)) : Plain (redis c >>= k) := issues_redis h hk

theorem plain_pure (a : α) : Plain (pure a : Action α) := .done _

theorem plain_throw (e : BrokerError) : Plain (.throw e : Action α) := .done _

end Plain

namespace RedisJobRepository

variable (repo : RedisJobRepository)

/-- `submit` stores the record with the effective priority of a new job. -/
theorem submit_issues (job : JobRecord) (callerScope : String) :
    (repo.submit job callerScope).Issues fun c => c.carried = none ∨
      c.carried = some { job with effectivePriority := job.basePriority.toInt } := by
  refine issues_redis (Or.inr rfl) fun r => ?_
  split
  · exact .done _
  · exact .done _
  · exact .done _
  · refine issues_redis (Or.inl rfl) fun r => ?_
    split <;> exact .done _
  · split <;> exact .done _

theorem queueHead_plain (p : Priority) : Plain (queueHead p) := by
  refine plain_redis rfl fun first => ?_
  split
  · exact plain_pure _
  refine plain_redis rfl fun job => ?_
  split
  · exact plain_throw _
  split
  · refine plain_redis rfl fun score => ?_
    split
    · exact plain_pure _
    · exact plain_throw _
  · exact plain_pure _

theorem queueHeads_plain (ps : List Priority) : Plain (queueHeads ps) := by
  induction ps with
  | nil => exact plain_pure _
  | cons p ps ih =>
    refine Prog.issues_bind (queueHead_plain p) fun head => ?_
    exact Prog.issues_bind ih fun rest => plain_pure _

theorem peekNext_plain (now : ℚ) : Plain (repo.peekNext now) :=
  Prog.issues_bind (queueHeads_plain _) fun _ => plain_pure _

theorem cancelQueued_plain (jobId : String) (completedAt : ℚ) :
    Plain (cancelQueued jobId completedAt) := by
  refine plain_redis rfl fun job => ?_
  split
  · exact plain_throw _
  split
  · exact plain_pure _
  refine plain_redis rfl fun r => ?_
  split
  · exact plain_throw _
  · exact plain_throw _
  · exact plain_throw _
  · exact plain_redis rfl fun _ => plain_pure _
  · exact plain_pure _

theorem requeueScript_plain (a : Lua.RequeueArgs) : Plain (requeueScript a) := by
  refine plain_redis rfl fun r => ?_
  split <;> first | exact plain_pure _ | exact plain_throw _

theorem requeueClaim_plain (job : JobRecord) (reason : ReasonCode) (terminalAt : Option ℚ) :
    Plain (repo.requeueClaim job reason terminalAt) := by
  refine plain_redis rfl fun current => ?_
  split
  · exact plain_throw _
  split
  · exact plain_throw _
  split
  · exact plain_throw _
  split
  · exact plain_throw _
  refine plain_redis rfl fun attempt => ?_
  split
  · exact plain_throw _
  split
  · exact plain_throw _
  simp only
  split
  · exact requeueScript_plain _
  · exact plain_redis rfl fun _ => requeueScript_plain _

theorem recoverScanned_plain (now maxAgeSeconds : ℚ) (limit : ℕ) (scanned : List String)
    (recovered : List JobRecord) :
    Plain (repo.recoverScanned now maxAgeSeconds limit scanned recovered) := by
  induction scanned generalizing recovered with
  | nil => exact plain_pure _
  | cons jobId rest ih =>
    unfold recoverScanned
    split
    · exact plain_pure _
    refine plain_redis rfl fun current => ?_
    split
    · exact ih _
    split
    · refine Prog.issues_bind (Prog.issues_attempt (requeueClaim_plain repo _ _ _))
        fun r => ?_
      split
      · exact ih _
      · exact ih _
      · exact ih _
      · exact plain_throw _
    · exact ih _

theorem recoverStalePreAcceptanceClaims_plain (now maxAgeSeconds : ℚ) (limit : ℕ)
    (scanned : List String) :
    Plain (repo.recoverStalePreAcceptanceClaims now maxAgeSeconds limit scanned) := by
  unfold recoverStalePreAcceptanceClaims
  split
  · exact plain_throw _
  · exact recoverScanned_plain repo _ _ _ _ _

theorem reconcileDeadJob_plain (jobId repairOwner : String) (repairFence : ℤ) :
    Plain (repo.reconcileDeadJob jobId repairOwner repairFence) := by
  unfold reconcileDeadJob
  split
  · exact plain_throw _
  refine plain_redis rfl fun current => ?_
  split
  · exact plain_throw _
  split
  · exact plain_pure _
  split
  · refine plain_redis rfl fun attempt => ?_
    split
    · exact plain_throw _
    refine plain_redis rfl fun r => ?_
    split
    · exact plain_throw _
    · exact plain_throw _
    · exact plain_throw _
    · exact plain_pure _
    · exact plain_redis rfl fun _ => plain_pure _
  · exact plain_throw _

theorem reconcileScanned_plain (repairOwner : String) (repairFence : ℤ) (limit : ℕ)
    (scanned : List String) (recovered : List JobRecord) :
    Plain (repo.reconcileScanned repairOwner repairFence limit scanned recovered) := by
  induction scanned generalizing recovered with
  | nil => exact plain_pure _
  | cons jobId rest ih =>
    unfold reconcileScanned
    refine plain_redis rfl fun current => ?_
    split
    · exact ih _
    split
    · split
      · exact ih _
      refine plain_redis rfl fun attempt => ?_
      split
      · exact ih _
      split
      · refine Prog.issues_bind (reconcileDeadJob_plain repo _ _ _) fun repaired => ?_
        simp only
        split
        all_goals
          split
          · exact plain_pure _
          · exact ih _
      · exact ih _
    · exact ih _

theorem reconcileStalePostAcceptanceJobs_plain (repairOwner : String) (repairFence : ℤ)
    (limit : ℕ) (scanned : List String) :
    Plain (repo.reconcileStalePostAcceptanceJobs repairOwner repairFence limit scanned) := by
  unfold reconcileStalePostAcceptanceJobs
  split
  · exact plain_throw _
  split
  · exact plain_throw _
  · exact reconcileScanned_plain repo _ _ _ _ _

theorem commitMemberDrain_plain (a : Lua.DrainArgs) : Plain (commitMemberDrain a) := by
  refine plain_redis rfl fun r => ?_
  split <;> first | exact plain_pure _ | exact plain_throw _

theorem afterTransition_plain {current target : MemberState} {next : Action MemberSnapshot}
    (h : Plain next) : Plain (afterTransition current target next) := by
  unfold afterTransition
  split
  · exact h
  · exact plain_throw _

theorem memberAtVersion_plain {name : String} {v : ℤ}
    {next : MemberSnapshot → Action MemberSnapshot} (h : ∀ current, Plain (next current)) :
    Plain (memberAtVersion name v next) := by
  refine plain_redis rfl fun current => ?_
  split
  · exact plain_throw _
  split
  · exact plain_throw _
  · exact h _

theorem releaseMemberLease_plain (name attemptId : String) (claimed : ℤ) (enforce : Bool) :
    Plain (releaseMemberLease name attemptId claimed enforce) := by
  refine plain_redis rfl fun current => ?_
  split
  · exact plain_throw _
  · exact commitMemberDrain_plain _

theorem putMember_plain (member : MemberSnapshot) : Plain (putMember member) := by
  refine plain_redis rfl fun _ => plain_redis rfl fun _ => plain_redis rfl fun _ => ?_
  exact plain_redis rfl fun _ => plain_redis rfl fun _ => plain_redis rfl fun _ => plain_pure _

theorem acquireLeadership_plain (owner : String) (now ttl : ℚ) :
    Plain (acquireLeadership owner now ttl) := by
  unfold acquireLeadership
  split
  · exact plain_throw _
  · refine plain_redis rfl fun r => ?_
    split <;> first | exact plain_pure _ | exact plain_throw _

theorem renewLeadership_plain (owner : String) (token : ℤ) (now ttl : ℚ) :
    Plain (renewLeadership owner token now ttl) := by
  unfold renewLeadership
  split
  · exact plain_throw _
  · refine plain_redis rfl fun r => ?_
    split <;> first | exact plain_pure _ | exact plain_throw _

end RedisJobRepository

/-- A call that stores no record as it is given and does not return a reservation. -/
def PlainCall (p : Action Outcome) : Prop :=
  ∃ (α : Type) (q : Action α) (f : α → Outcome), Plain q ∧
    (∀ a r, f a ≠ .reservation r) ∧ p = f <$> q

theorem PlainCall.of {α : Type} {q : Action α} {f : α → Outcome} (hq : Plain q)
    (hf : ∀ a r, f a ≠ .reservation r) : PlainCall (f <$> q) :=
  ⟨α, q, f, hq, hf, rfl⟩

theorem eq_of_reservationOf {r : Option (Except BrokerError Outcome)} {reservation : Reservation}
    (h : reservationOf r = some reservation) :
    r = some (.ok (.reservation (some reservation))) := by
  unfold reservationOf at h
  split at h
  · rw [Option.some.inj h]
  · cases h

open RedisJobRepository in
/-- **What a call can issue.**  Only `submit`, `dispatch`, which takes over a reservation that
another client returned, and `repair` store a record as it is given; only `reserve_next` returns
a reservation. -/
theorem launch_cases {results : ℕ → Option (Except BrokerError Outcome)}
    {repo : RedisJobRepository} {op : Op} {p : Action Outcome}
    (h : launch results (repo, op) = some p) :
    PlainCall p ∨
      (∃ job scope, op = .submit job scope ∧
        p = Outcome.job <$> repo.submit job.record scope) ∨
      (∃ now members requirements owner token url, p = Outcome.reservation <$>
        repo.reserveNext now members requirements owner token url) ∨
      (∃ reserver transport forwardAt completedAt reservation,
        reservationOf (results reserver) = some reservation ∧
        p = Outcome.job <$> repo.dispatch reservation transport forwardAt completedAt) ∨
      ∃ jobId evidence owner fence, p = Outcome.job <$> repo.repair jobId evidence owner fence := by
  cases op with
  | dispatch reserver transport forwardAt completedAt =>
    simp only [launch, Option.map_eq_some_iff] at h
    obtain ⟨reservation, hres, rfl⟩ := h
    exact Or.inr (Or.inr (Or.inr (Or.inl
      ⟨reserver, transport, forwardAt, completedAt, reservation, hres, rfl⟩)))
  | repair jobId evidence owner fence =>
    cases h
    exact Or.inr (Or.inr (Or.inr (Or.inr ⟨jobId, evidence, owner, fence, rfl⟩)))
  | submit job scope =>
    cases h
    exact Or.inr (Or.inl ⟨job, scope, rfl, rfl⟩)
  | reserveNext now members requirements owner token url =>
    cases h
    exact Or.inr (Or.inr (Or.inl ⟨now, members, requirements, owner, token, url, rfl⟩))
  | cancelQueued jobId completedAt =>
    cases h
    exact Or.inl (.of (cancelQueued_plain _ _) fun _ _ => nofun)
  | requeueClaim job reason terminalAt =>
    cases h
    exact Or.inl (.of (requeueClaim_plain repo _ _ _) fun _ _ => nofun)
  | recoverStalePreAcceptanceClaims now maxAge limit scanned =>
    cases h
    exact Or.inl (.of (recoverStalePreAcceptanceClaims_plain repo _ _ _ _) fun _ _ => nofun)
  | reconcileDeadJob jobId owner fence =>
    cases h
    exact Or.inl (.of (reconcileDeadJob_plain repo _ _ _) fun _ _ => nofun)
  | reconcileStalePostAcceptanceJobs owner fence limit scanned =>
    cases h
    exact Or.inl (.of (reconcileStalePostAcceptanceJobs_plain repo _ _ _ _) fun _ _ => nofun)
  | putMember member =>
    cases h
    exact Or.inl (.of (putMember_plain _) fun _ _ => nofun)
  | releaseMemberLease name attemptId version enforce =>
    cases h
    exact Or.inl (.of (releaseMemberLease_plain _ _ _ _) fun _ _ => nofun)
  | beginMemberDrain name version =>
    cases h
    refine Or.inl (.of (memberAtVersion_plain fun current => ?_) fun _ _ => nofun)
    split
    · exact plain_pure _
    · exact afterTransition_plain (commitMemberDrain_plain _)
  | completeMemberDrain name version =>
    cases h
    refine Or.inl (.of (memberAtVersion_plain fun current => ?_) fun _ _ => nofun)
    exact afterTransition_plain (commitMemberDrain_plain _)
  | beginMemberRejoin name version fence =>
    cases h
    refine Or.inl (.of (memberAtVersion_plain fun current => ?_) fun _ _ => nofun)
    split
    · exact plain_throw _
    · exact afterTransition_plain (commitMemberDrain_plain _)
  | completeMemberRejoin name version readiness =>
    cases h
    refine Or.inl (.of (memberAtVersion_plain fun current => ?_) fun _ _ => nofun)
    split
    · exact plain_throw _
    split
    · exact plain_throw _
    split
    · exact plain_throw _
    · exact afterTransition_plain (commitMemberDrain_plain _)
  | acquireLeadership owner now ttl =>
    cases h
    exact Or.inl (.of (acquireLeadership_plain _ _ _) fun _ _ => nofun)
  | renewLeadership owner token now ttl =>
    cases h
    exact Or.inl (.of (renewLeadership_plain _ _ _ _) fun _ _ => nofun)
  | expireAttempt id =>
    cases h
    exact Or.inl (.of (.call rfl fun _ => .done _) fun _ _ => nofun)

end GpuManager.Broker
