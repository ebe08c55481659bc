import GpuManager.Broker.Discipline

/-!
# Every client keeps its promises

One lemma per method of the repository, the dispatcher and the reconciler: run
under any interference of the other clients, the method only issues commands
whose promise holds at that moment.  `launches` puts them together, and
`broker_sound` is what the rest of the development uses: in every run of the
broker each executed command kept its promise in a coherent store, and the store
only moved upwards.

Reads need no argument, so each method's proof consists of what it knows when it
reaches a script.
-/

namespace GpuManager.Broker

open AtomicProgram Discipline Store

section Commands

variable {A : Assumption} {α : Type} {s : Store}
  {Q : Except BrokerError α → Store → Prop}

/-- A command followed by the rest of its method. -/
theorem wp_redis {c : Cmd} {k : c.Reply → Action α}
    (hok : ∀ t, Le A s t → t.Coherent A → Promise A c t)
    (hk : ∀ t, Le A s t → t.Coherent A → Le A s (exec c t).2 →
      (exec c t).2.Coherent A →
      (discipline A).wp (k (exec c t).1) Q (exec c t).2) :
    (discipline A).wp (redis c >>= k) Q s :=
  (discipline A).wp_call hok fun t ht hI _ => hk t ht hI

/-- A command whose reply the rest of the method may take in any way. -/
theorem wp_redis_any {c : Cmd} {k : c.Reply → Action α}
    (hok : ∀ t, Le A s t → t.Coherent A → Promise A c t)
    (hk : ∀ r t, Le A s t → t.Coherent A → (discipline A).wp (k r) Q t) :
    (discipline A).wp (redis c >>= k) Q s :=
  wp_redis hok fun _ _ _ hle hI => hk _ _ hle hI

variable {id name : String}

/-- `get` returns nothing, or a copy under the id asked for. -/
theorem wp_get {k : Option JobRecord → Action α}
    (hnone : ∀ t, Le A s t → t.Coherent A → t.jobs id = none →
      (discipline A).wp (k none) Q t)
    (hsome : ∀ job t, Le A s t → t.Coherent A → Copy job t → job.jobId = id →
      (discipline A).wp (k (some job)) Q t) :
    (discipline A).wp (RedisJobRepository.get id >>= k) Q s := by
  refine wp_redis (fun _ _ _ => trivial) fun t ht hI _ _ => ?_
  simp only [exec]
  cases hj : t.jobs id with
  | none => exact hnone t ht hI hj
  | some h =>
    obtain ⟨hcopy, hid⟩ := hI.copy_of_get hj
    exact hsome h.record t ht hI hcopy hid

/-- `get_member` returns nothing, or a copy under the name asked for. -/
theorem wp_getMember {k : Option MemberSnapshot → Action α}
    (hnone : ∀ t, Le A s t → t.Coherent A → t.members name = none →
      (discipline A).wp (k none) Q t)
    (hsome : ∀ member t, Le A s t → t.Coherent A → MemberCopy A member t →
      member.name = name → (discipline A).wp (k (some member)) Q t) :
    (discipline A).wp (RedisJobRepository.getMember name >>= k) Q s := by
  refine wp_redis (fun _ _ _ => trivial) fun t ht hI _ _ => ?_
  simp only [exec]
  cases hm : t.members name with
  | none => exact hnone t ht hI hm
  | some m =>
    obtain ⟨hcopy, hname⟩ := hI.copy_of_getMember hm
    exact hsome m.record t ht hI hcopy hname

/-- `get_attempt` returns nothing, or an attempt under the id asked for. -/
theorem wp_getAttempt {k : Option AttemptRecord → Action α}
    (hnone : ∀ t, Le A s t → t.Coherent A → (discipline A).wp (k none) Q t)
    (hsome : ∀ attempt t, Le A s t → t.Coherent A → attempt.attemptId = id →
      (discipline A).wp (k (some attempt)) Q t) :
    (discipline A).wp (RedisJobRepository.getAttempt id >>= k) Q s := by
  refine wp_redis (fun _ _ _ => trivial) fun t ht hI _ _ => ?_
  simp only [exec]
  cases ha : t.attempts id with
  | none => exact hnone t ht hI
  | some attempt => exact hsome attempt.record t ht hI (hI.attempt id attempt ha)

end Commands

namespace RedisJobRepository

variable {A : Assumption} {s : Store} (repo : RedisJobRepository) {t : Store} {current : JobRecord}

/-! ## Submission, selection and reservation -/

theorem submit_safe (job : NewJob) (callerScope : String) :
    (discipline A).Safe (repo.submit job.record callerScope) s := by
  refine wp_redis_any (fun _ _ _ => ⟨rfl, rfl, rfl⟩) fun r t _ _ => ?_
  split
  · exact wp_raise _
  · exact wp_raise _
  · exact wp_raise _
  · refine wp_get (fun _ _ _ _ => wp_raise _) fun job t _ _ _ _ => ?_
    exact safe_pure _
  split
  · exact wp_raise _
  · exact safe_pure _

theorem queueHead_wp (p : Priority) :
    (discipline A).wp (queueHead p)
      (Returns fun head t => ∀ job ∈ head, Copy job t) s := by
  refine wp_redis_any (fun _ _ _ => trivial) fun first t _ _ => ?_
  cases first with
  | none => exact wp_pure _ fun _ _ _ _ h => by cases h
  | some jobId =>
    refine wp_get (fun _ _ _ _ => wp_raise _) fun job t _ _ hcopy _ => ?_
    simp only
    split
    · refine wp_redis_any (fun _ _ _ => trivial) fun score t _ _ => ?_
      cases score with
      | none => exact wp_pure _ fun _ _ _ _ h => by cases h
      | some _ => exact wp_raise _
    · refine wp_pure _ fun u hu _ job' hjob => ?_
      obtain rfl : job = job' := by simpa using hjob
      exact hcopy.of_le hu

theorem queueHeads_wp (ps : List Priority) (s : Store) :
    (discipline A).wp (queueHeads ps)
      (Returns fun heads t => ∀ job ∈ heads, Copy job t) s := by
  induction ps generalizing s with
  | nil => exact wp_pure _ fun _ _ _ _ h => by cases h
  | cons p ps ih =>
    refine wp_seq _ (queueHead_wp p) fun head t _ _ hhead => ?_
    refine wp_seq _ (ih t) fun rest u hu _ hrest => ?_
    refine wp_pure _ fun v hv _ job hjob => ?_
    rcases List.mem_append.mp hjob with hjob | hjob
    · exact (hhead job (by simpa using hjob)).of_le (Le.trans hu hv)
    · exact (hrest job hjob).of_le hv

variable {job : JobRecord} {d : DispatchState} {forwardAt completedAt : ℚ}
  {reservation : Reservation}

theorem mem_of_selectHead {now : ℚ} {heads : List JobRecord}
    (h : repo.selectHead now heads = some job) : job ∈ heads := by
  induction heads with
  | nil => cases h
  | cons head rest ih =>
    rw [selectHead] at h
    split at h
    · simp_all
    rename_i other hother
    split at h
    · exact List.mem_cons_of_mem _ (ih (hother.trans h))
    · simp_all

/-- The effective priority is not part of what a copy promises. -/
theorem Copy.with_effectivePriority (hc : Copy job s) (p : ℤ) :
    Copy { job with effectivePriority := p } s := by
  refine ⟨⟨hc.stored, hc.member⟩, fun h hj => ?_⟩
  obtain ⟨hv, hsame⟩ := hc.read h hj
  exact ⟨hv, fun heq => hsame heq⟩

theorem peekNext_wp (now : ℚ) :
    (discipline A).wp (repo.peekNext now)
      (Returns fun selected t => ∀ job ∈ selected, Copy job t) s := by
  refine wp_seq _ (queueHeads_wp _ s) fun heads t _ _ hheads => ?_
  refine wp_pure _ fun u hu _ job hjob => ?_
  obtain ⟨selected, hsel, rfl⟩ := Option.map_eq_some_iff.mp hjob
  exact Copy.with_effectivePriority
    ((hheads selected (repo.mem_of_selectHead hsel)).of_le hu) _

/-- A committed reservation returns the record it stored. -/
theorem copy_claimed {a : Lua.ReserveArgs} (hcommit : (Lua.reserveJob a t).1 = .ok ()) :
    Copy a.claimed (Lua.reserveJob a t).2 := by
  rcases Lua.reserveJob_cases a t with ⟨⟨e, herr⟩, -⟩ | ⟨h, m, hr, heq⟩
  · rw [herr] at hcommit
    cases hcommit
  rw [heq]
  refine ⟨⟨⟨_, by simp [Lua.reserveCommit, Lua.ReserveArgs.claimed]; rfl, rfl⟩, ?_⟩, ?_⟩
  · intro name hname
    obtain rfl : a.member.name = name := by
      simpa [Lua.ReserveArgs.claimed] using (truthy_eq_some.mp hname).1
    simp [Lua.reserveCommit]
  · intro h' hj'
    simp only [Lua.reserveCommit, Lua.ReserveArgs.claimed, putMemberHash_jobs,
      sadd_jobs, putAttempt_jobs, putJob_jobs, Function.update_self,
      Option.some.injEq] at hj'
    subst hj'
    exact ⟨le_rfl, fun _ => rfl⟩

/-- An attempt that passes the checks has an id and a member. -/
theorem ne_empty_of_validAttempt {attempt : AttemptRecord}
    (h : invalidAttempt attempt = none) :
    attempt.attemptId ≠ "" ∧ attempt.memberName ≠ "" := by
  unfold invalidAttempt at h
  split at h
  · cases h
  rename_i hattempt
  split at h
  · cases h
  split at h
  · cases h
  · rename_i hmember
    exact ⟨hattempt, hmember⟩

theorem reserveFrom_wp {selected : JobRecord} {now : ℚ} {leaderOwner : String}
    {fencingToken : ℤ} {backendUrl : Option String} {candidates : List Candidate}
    (hslots : ∀ c ∈ candidates, A.SlotsOk c.member.name c.member.configuredSlots)
    {staleSeen : Bool} (hcopy : Copy selected s) :
    (discipline A).wp
      (reserveFrom selected now leaderOwner fencingToken backendUrl candidates staleSeen)
      (Returns fun r t => Outcome.Lasting (.reservation r) t) s := by
  induction candidates generalizing s staleSeen with
  | nil =>
    rw [reserveFrom]
    split
    · exact wp_raise _
    · exact wp_pure _ fun _ _ _ => trivial
  | cons c rest ih =>
    rw [reserveFrom]
    split
    · exact wp_raise _
    rename_i hvalid
    obtain ⟨hattempt, hmember⟩ := ne_empty_of_validAttempt hvalid
    refine wp_redis
      (fun t ht _ => ⟨hcopy.of_le ht, hslots c (by simp), hmember, hattempt⟩)
      fun t ht _ hle _ => ?_
    split
    · rename_i hreply
      refine wp_pure _ fun u hu _ => ?_
      exact ⟨(copy_claimed hreply).of_le hu, truthy_eq_some.mpr ⟨rfl, hattempt⟩,
        truthy_eq_some.mpr ⟨rfl, hmember⟩, rfl⟩
    · exact wp_raise _
    · exact wp_raise _
    · exact ih (fun c' hc' => hslots c' (List.mem_cons_of_mem _ hc')) (hcopy.of_le hle)
    · exact wp_raise _
    · exact wp_raise _
    · exact wp_raise _
    · exact wp_pure _ fun _ _ _ => trivial
    · exact wp_pure _ fun _ _ _ => trivial
    · exact wp_raise _

theorem reserveNext_wp (now : ℚ) {members : List Candidate}
    (requirements : RequestRequirements) (leaderOwner : String) (fencingToken : ℤ)
    (backendUrl : Option String)
    (hslots : ∀ c ∈ members, A.SlotsOk c.member.name c.member.configuredSlots) :
    (discipline A).wp
      (repo.reserveNext now members requirements leaderOwner fencingToken backendUrl)
      (Returns fun r t => Outcome.Lasting (.reservation r) t) s := by
  refine wp_seq _ (repo.peekNext_wp now) fun selected t _ _ hsel => ?_
  cases selected with
  | none => exact wp_pure _ fun _ _ _ => trivial
  | some job =>
    refine reserveFrom_wp (fun c hc => hslots c (List.mem_filter.mp hc).1) ?_
    exact hsel job rfl

/-! ## Cancellation, requeue and recovery -/

theorem cancelQueued_safe (jobId : String) (completedAt : ℚ) :
    (discipline A).Safe (cancelQueued jobId completedAt) s := by
  refine wp_get (fun _ _ _ _ => wp_raise _) fun current t _ _ hcopy _ => ?_
  simp only
  split
  · exact safe_pure _
  refine wp_redis_any (fun u hu _ => hcopy.of_le hu) fun r u _ _ => ?_
  split
  · exact wp_raise _
  · exact wp_raise _
  · exact wp_raise _
  · exact wp_get (fun _ _ _ _ => safe_pure _) fun _ _ _ _ _ _ => safe_pure _
  · exact safe_pure _

theorem requeueScript_safe {a : Lua.RequeueArgs} (hp : RequeuePromise A a s) :
    (discipline A).Safe (requeueScript a) s := by
  refine wp_redis_any (fun t ht _ =>
    { hp with
      copy := hp.copy.of_le ht
      member := fun member hm => (hp.member member hm).of_le ht }) fun r t _ _ => ?_
  split
  · exact safe_pure _
  all_goals exact wp_raise _

/-- `requeue_claim` keeps the promises of its scripts. -/
theorem requeueClaim_safe (job : JobRecord) (reason : ReasonCode)
    (terminalAt : Option ℚ) :
    (discipline A).Safe (repo.requeueClaim job reason terminalAt) s := by
  refine wp_get (fun _ _ _ _ => wp_raise _) fun current t _ _ hcopy _ => ?_
  simp only
  split
  · exact wp_raise _
  split
  · exact wp_raise _
  rename_i hboundary
  have hnot : current.acceptedBoundaryCrossed = false := by simpa using hboundary
  split
  · exact wp_raise _
  rename_i attemptId hattemptId
  refine wp_getAttempt (fun _ _ _ => wp_raise _) fun attempt t₁ ht₁ _ hattempt => ?_
  simp only
  split
  · exact wp_raise _
  have hcopy₁ := hcopy.of_le ht₁
  cases hsel : truthy current.selectedMember with
  | none =>
    refine requeueScript_safe ⟨hcopy₁, hnot, hattemptId, hattempt, fun name hname => ?_,
      fun m hm => by cases hm⟩
    rw [hsel] at hname
    cases hname
  | some name =>
    refine wp_getMember (fun t₂ ht₂ _ hnone => ?_)
      fun member t₂ ht₂ _ hmember hname => ?_
    · -- The member a claimed job names exists.
      have hsome := (hcopy₁.of_le ht₂).member name hsel
      rw [hnone] at hsome
      cases hsome
    · refine requeueScript_safe ⟨hcopy₁.of_le ht₂, hnot, hattemptId, hattempt, ?_, ?_⟩
      · intro name' hname'
        rw [hsel] at hname'
        exact ⟨member, rfl, hname.trans (Option.some.inj hname')⟩
      · intro m hm
        exact Option.some.inj hm ▸ hmember

theorem recoverScanned_safe (now maxAgeSeconds : ℚ) (limit : ℕ)
    (scanned : List String) (recovered : List JobRecord) (s : Store) :
    (discipline A).Safe (repo.recoverScanned now maxAgeSeconds limit scanned recovered)
      s := by
  induction scanned generalizing recovered s with
  | nil => exact safe_pure _
  | cons jobId rest ih =>
    rw [recoverScanned]
    split
    · exact safe_pure _
    refine wp_get (fun t _ _ _ => ih _ t) fun current t _ _ _ _ => ?_
    simp only
    split
    · refine wp_seq (P := fun _ _ => True) _ ?_ fun r u _ _ _ => ?_
      · refine wp_attempt _ (wp_mono _ (repo.requeueClaim_safe _ _ _) ?_)
        exact fun _ _ _ _ _ => trivial
      · split
        · exact ih _ u
        · exact ih _ u
        · exact ih _ u
        · exact wp_raise _
    · exact ih _ t

theorem recoverStalePreAcceptanceClaims_safe (now maxAgeSeconds : ℚ) (limit : ℕ)
    (scanned : List String) :
    (discipline A).Safe
      (repo.recoverStalePreAcceptanceClaims now maxAgeSeconds limit scanned) s := by
  unfold recoverStalePreAcceptanceClaims
  split
  · exact wp_raise _
  · exact repo.recoverScanned_safe now maxAgeSeconds limit scanned [] s

/-! ## Replacement and repair -/

/-- A record that `replace_job` may be asked to write from now on. -/
def Replaceable (A : Assumption) (job : JobRecord) (s : Store) : Prop :=
  ∀ t, Le A s t → t.Coherent A → ∀ attempt retention,
    Promise A (.replaceJob job attempt retention) t

theorem Replaceable.of_le (h : Replaceable A job s) (hle : Le A s t) :
    Replaceable A job t :=
  fun u hu => h u (Le.trans hle hu)

/-- A record that has crossed the boundary may replace anything but a queue
entry. -/
theorem replaceable_of_crossed (hreplaces : A.replaces) (hknown : Known job s)
    (hstate : job.state ≠ .queued) (hcrossed : job.acceptedBoundaryCrossed = true) :
    Replaceable A job s :=
  fun _ ht _ _ _ => ⟨hreplaces, hknown.of_le ht, hstate, fun _ _ _ _ => hcrossed⟩

/-- So may a record that succeeds a copy and keeps its boundary. -/
theorem replaceable_of_copy (hreplaces : A.replaces) (hcopy : Copy current s)
    (hid : job.jobId = current.jobId) (hknown : Known job s) (hstate : job.state ≠ .queued)
    (hversion : job.stateVersion = current.stateVersion + 1)
    (hboundary : job.acceptedBoundaryCrossed = current.acceptedBoundaryCrossed) :
    Replaceable A job s := by
  intro t ht _ _ _
  refine ⟨hreplaces, hknown.of_le ht, hstate, fun h hj hv hb => ?_⟩
  rw [hboundary, ← (hcopy.of_le ht).boundary_eq (hid ▸ hj) (by omega)]
  exact hb

theorem attemptForJob_safe (job : JobRecord) :
    (discipline A).Safe (attemptForJob job) s := by
  unfold attemptForJob
  split
  · exact wp_getAttempt (fun _ _ _ => wp_raise _) fun _ _ _ _ _ => safe_pure _
  · exact safe_pure _

theorem replaceJob_safe (hjob : Replaceable A job s) :
    (discipline A).Safe (repo.replaceJob job) s := by
  unfold replaceJob
  split
  · exact wp_raise _
  refine wp_seq _ (attemptForJob_safe job) fun attempt t ht _ _ => ?_
  refine wp_redis_any (fun u hu hI => hjob.of_le ht u hu hI _ _) fun r u _ _ => ?_
  split
  · exact safe_pure _
  all_goals exact wp_raise _

theorem reconcileDeadJob_safe (jobId repairOwner : String) (repairFence : ℤ) :
    (discipline A).Safe (repo.reconcileDeadJob jobId repairOwner repairFence) s := by
  unfold reconcileDeadJob
  split
  · exact wp_raise _
  refine wp_get (fun _ _ _ _ => wp_raise _) fun current t _ _ hcopy _ => ?_
  simp only
  split
  · exact safe_pure _
  split
  · rename_i memberName attemptId hmember hattemptId
    refine wp_getAttempt (fun _ _ _ => wp_raise _) fun attempt t₁ ht₁ _ hattempt => ?_
    refine wp_redis_any (fun u hu _ => ⟨(hcopy.of_le ht₁).of_le hu, hmember,
      hattempt ▸ hattemptId⟩) fun r u _ _ => ?_
    split
    · exact wp_raise _
    · exact wp_raise _
    · exact wp_raise _
    · exact safe_pure _
    · exact wp_get (fun _ _ _ _ => safe_pure _) fun _ _ _ _ _ _ => safe_pure _
  · exact wp_raise _

theorem reconcileScanned_safe (repairOwner : String) (repairFence : ℤ) (limit : ℕ)
    (scanned : List String) (recovered : List JobRecord) (s : Store) :
    (discipline A).Safe
      (repo.reconcileScanned repairOwner repairFence limit scanned recovered) s := by
  induction scanned generalizing recovered s with
  | nil => exact safe_pure _
  | cons jobId rest ih =>
    rw [reconcileScanned]
    refine wp_get (fun t _ _ _ => ih _ t) fun current t _ _ _ _ => ?_
    simp only
    split
    · split
      · exact ih _ t
      refine wp_getAttempt (fun u _ _ => ih _ u) fun attempt u _ _ _ => ?_
      simp only
      split
      · refine wp_seq _ (repo.reconcileDeadJob_safe _ _ _) fun job v _ _ _ => ?_
        by_cases hfull : limit ≤ (if job.state = .outcomeUnknown then
            recovered ++ [job] else recovered).length
        · rw [if_pos hfull]
          exact safe_pure _
        · rw [if_neg hfull]
          exact ih _ v
      · exact ih _ u
    · exact ih _ t

theorem reconcileStalePostAcceptanceJobs_safe (repairOwner : String)
    (repairFence : ℤ) (limit : ℕ) (scanned : List String) :
    (discipline A).Safe
      (repo.reconcileStalePostAcceptanceJobs repairOwner repairFence limit scanned) s := by
  unfold reconcileStalePostAcceptanceJobs
  split
  · exact wp_raise _
  split
  · exact wp_raise _
  · exact repo.reconcileScanned_safe _ _ _ _ _ s

/-! ## Members and leadership -/

theorem putMember_safe {member : MemberSnapshot} (hfits : A.Fits member) :
    (discipline A).Safe (putMember member) s := by
  refine wp_redis (fun _ _ _ => trivial) fun t _ hI _ _ => ?_
  -- The free slots that are read satisfy the bound, and keep satisfying it.
  have hfree : ∀ free, (exec (.memberFree member.name) t).1 = some free →
      A.FreeOk member.name free := by
    intro free hread
    obtain ⟨m, hm, rfl⟩ := Option.map_eq_some_iff.mp hread
    exact (hI.member hm).free
  refine wp_redis_any (fun _ _ _ => trivial) fun _ _ _ _ => ?_
  refine wp_redis_any (fun _ _ _ => trivial) fun _ _ _ _ => ?_
  refine wp_redis_any (fun _ _ _ => trivial) fun _ _ _ _ => ?_
  refine wp_redis_any (fun _ _ _ => trivial) fun _ _ _ _ => ?_
  refine wp_redis_any (fun _ _ _ => ⟨hfits.slots, hfits.free, hfree⟩) fun _ _ _ _ => ?_
  exact safe_pure _

/-- A lifecycle write may be issued with a snapshot derived from a copy. -/
theorem commitMemberDrain_safe {a : Lua.DrainArgs} (hcopy : MemberCopy A a.current s)
    (hname : a.updated.name = a.current.name)
    (hslots : A.SlotsOk a.current.name a.updated.configuredSlots)
    (hfree : A.FreeOk a.current.name (a.updated.compatibleFreeSlots.getD 0))
    (hversion : a.updated.stateVersion = a.current.stateVersion + 1)
    (hfence : a.mode ≠ .beginRejoin →
      a.updated.generationFence = a.current.generationFence)
    (hstate : a.mode.isRelease = true → a.updated.state = a.current.state)
    (hzero : a.mode ≠ .completeRejoin → a.updated.compatibleFreeSlots.getD 0 = 0) :
    (discipline A).Safe (commitMemberDrain a) s := by
  refine wp_redis_any (fun t ht _ => ⟨hcopy.of_le ht, hname, hslots, hfree, hversion,
    hfence, hstate, hzero⟩) fun r t _ _ => ?_
  split
  · exact safe_pure _
  · exact safe_pure _
  all_goals exact wp_raise _

theorem freeOk_zero (name : String) : A.FreeOk name 0 :=
  fun _ _ hn => ⟨le_rfl, (A.slots_pos _ _ hn).le⟩

theorem memberAtVersion_safe {version : ℤ} {next : MemberSnapshot → Action MemberSnapshot}
    (hnext : ∀ current t, MemberCopy A current t → current.name = name →
      (discipline A).Safe (next current) t) :
    (discipline A).Safe (memberAtVersion name version next) s := by
  refine wp_getMember (fun _ _ _ _ => wp_raise _) fun current t _ _ hcopy hname => ?_
  simp only
  split
  · exact wp_raise _
  · exact hnext current t hcopy hname

theorem afterTransition_safe {current target : MemberState}
    {next : Action MemberSnapshot} (hnext : (discipline A).Safe next s) :
    (discipline A).Safe (afterTransition current target next) s := by
  unfold afterTransition
  split
  · exact hnext
  · exact wp_raise _

theorem beginMemberDrain_safe (name : String) (version : ℤ) :
    (discipline A).Safe (beginMemberDrain name version) s := by
  refine memberAtVersion_safe fun current t hcopy _ => ?_
  split
  · exact safe_pure _
  · exact afterTransition_safe (commitMemberDrain_safe hcopy rfl hcopy.slots
      (freeOk_zero _) rfl (fun _ => rfl) nofun fun _ => rfl)

theorem releaseMemberLease_safe (name attemptId : String) (version : ℤ)
    (enforce : Bool) :
    (discipline A).Safe (releaseMemberLease name attemptId version enforce) s := by
  refine wp_getMember (fun _ _ _ _ => wp_raise _) fun current t _ _ hcopy _ => ?_
  exact commitMemberDrain_safe hcopy rfl hcopy.slots (freeOk_zero _) rfl
    (fun _ => rfl) (fun _ => rfl) fun _ => rfl

theorem completeMemberDrain_safe (name : String) (version : ℤ) :
    (discipline A).Safe (completeMemberDrain name version) s :=
  memberAtVersion_safe fun _ _ hcopy _ =>
    afterTransition_safe (commitMemberDrain_safe hcopy rfl hcopy.slots
      (freeOk_zero _) rfl (fun _ => rfl) nofun fun _ => rfl)

theorem beginMemberRejoin_safe (name : String) (version fence : ℤ) :
    (discipline A).Safe (beginMemberRejoin name version fence) s := by
  refine memberAtVersion_safe fun current t hcopy _ => ?_
  split
  · exact wp_raise _
  · exact afterTransition_safe (commitMemberDrain_safe hcopy rfl hcopy.slots
      (freeOk_zero _) rfl (fun h => absurd rfl h) nofun fun _ => rfl)

theorem completeMemberRejoin_safe (name : String) (version : ℤ)
    {readiness : MemberSnapshot}
    (hslots : A.SlotsOk readiness.name readiness.configuredSlots)
    (hfree : A.FreeOk readiness.name (readiness.compatibleFreeSlots.getD 0)) :
    (discipline A).Safe (completeMemberRejoin name version readiness) s := by
  refine memberAtVersion_safe fun current t hcopy hname => ?_
  split
  · exact wp_raise _
  rename_i hmatch
  split
  · exact wp_raise _
  split
  · exact wp_raise _
  have hsame : readiness.name = current.name := (not_not.mp hmatch).trans hname.symm
  refine afterTransition_safe (commitMemberDrain_safe hcopy hsame ?_ ?_ rfl
    (fun _ => rfl) nofun fun h => absurd rfl h)
  · exact hsame ▸ hslots
  · exact hsame ▸ hfree

theorem acquireLeadership_safe (owner : String) (now ttl : ℚ) :
    (discipline A).Safe (acquireLeadership owner now ttl) s := by
  unfold acquireLeadership
  split
  · exact wp_raise _
  refine wp_redis_any (fun _ _ _ => trivial) fun r t _ _ => ?_
  split
  · exact safe_pure _
  all_goals exact wp_raise _

theorem renewLeadership_safe (owner : String) (token : ℤ) (now ttl : ℚ) :
    (discipline A).Safe (renewLeadership owner token now ttl) s := by
  unfold renewLeadership
  split
  · exact wp_raise _
  refine wp_redis_any (fun _ _ _ => trivial) fun r t _ _ => ?_
  split
  · exact safe_pure _
  all_goals exact wp_raise _

/-! ## Dispatch and repair -/

/-- What `dispatch` knows about its own copy: before acceptance it was read, after
acceptance only its boundary is certain. -/
structure Dispatching (d : DispatchState) (s : Store) : Prop where
  known : Known d.current s
  copy : d.accepted = false → Copy d.current s
  crossed : d.accepted = true → d.current.acceptedBoundaryCrossed = true

theorem Dispatching.of_le (h : Dispatching d s) (hle : Le A s t) :
    Dispatching d t :=
  ⟨h.known.of_le hle, fun ha => (h.copy ha).of_le hle, h.crossed⟩

theorem onAccepted_wp (hreplaces : A.replaces) (hd : Dispatching d s) :
    (discipline A).wp (repo.onAccepted forwardAt d)
      (Returns fun r t => Dispatching r.2 t ∧ r.2.accepted = true) s := by
  unfold onAccepted
  split
  · rename_i haccepted
    exact wp_pure _ fun t ht _ => ⟨hd.of_le ht, haccepted⟩
  have hknown : Known (acceptedJob d.current forwardAt) s := ⟨hd.known.stored, hd.known.member⟩
  have hsafe := repo.replaceJob_safe (A := A)
    (replaceable_of_crossed hreplaces hknown nofun rfl)
  refine wp_seq (P := fun _ _ => True) _
    (wp_attempt _ (wp_mono _ hsafe fun _ _ _ _ _ => trivial)) fun written t ht _ _ => ?_
  refine wp_pure _ fun u hu _ => ⟨⟨?_, nofun, fun _ => rfl⟩, rfl⟩
  exact hknown.of_le (Le.trans ht hu)

theorem send_wp (hreplaces : A.replaces) (transport : Transport) (hd : Dispatching d s) :
    (discipline A).wp (repo.send forwardAt transport d)
      (Returns fun r t => Dispatching r.2 t) s := by
  induction transport generalizing d s with
  | respond response | raise e => exact wp_pure _ fun t ht _ => hd.of_le ht
  | accept returned raised ihReturned ihRaised =>
    rw [send]
    refine wp_seq _ (repo.onAccepted_wp hreplaces hd) fun r t _ _ hr => ?_
    obtain ⟨callback, d'⟩ := r
    cases callback with
    | ok u => exact ihReturned hr.1
    | error e => exact ihRaised e hr.1

theorem releaseReservationLease_safe (reservation : Reservation) :
    (discipline A).Safe (releaseReservationLease reservation) s := by
  unfold releaseReservationLease
  split
  · exact wp_seq _ (releaseMemberLease_safe _ _ _ _) fun _ _ _ _ _ => safe_pure _
  · exact safe_pure _

theorem finishReservation_safe (hjob : Replaceable A job s) :
    (discipline A).Safe (repo.finishReservation reservation job) s := by
  refine wp_seq _ (repo.replaceJob_safe hjob) fun replaced t _ _ _ => ?_
  exact wp_seq _ (releaseReservationLease_safe reservation) fun _ _ _ _ _ => safe_pure _

variable (hreplaces : A.replaces) {transport : Transport}
include hreplaces

/-- A terminal record built from the accepted copy. -/
theorem terminalJob_replaceable {state : JobState} {reasonCode : Option ReasonCode}
    {result error : Option String} (hd : Dispatching d s) (haccepted : d.accepted = true)
    (hstate : state ≠ .queued) :
    Replaceable A (terminalJob d.current state completedAt reasonCode result error) s :=
  replaceable_of_crossed hreplaces ⟨hd.known.stored, hd.known.member⟩ hstate
    (hd.crossed haccepted)

theorem completeDispatch_safe {response : String} (hd : Dispatching d s)
    (haccepted : d.accepted = true) :
    (discipline A).Safe
      (repo.completeDispatch reservation d.current response completedAt) s := by
  unfold completeDispatch
  split
  · exact repo.finishReservation_safe (terminalJob_replaceable hreplaces hd haccepted nofun)
  · exact repo.finishReservation_safe (terminalJob_replaceable hreplaces hd haccepted nofun)

theorem afterSend_safe {sent : Except BrokerError String} (hd : Dispatching d s) :
    (discipline A).Safe (repo.afterSend reservation forwardAt completedAt sent d) s := by
  unfold afterSend
  split
  · exact wp_raise _
  · exact wp_raise _
  · exact wp_raise _
  · split
    · rename_i haccepted
      exact repo.finishReservation_safe (terminalJob_replaceable hreplaces hd haccepted nofun)
    · exact repo.requeueClaim_safe _ _ _
  · refine wp_seq _ (repo.onAccepted_wp hreplaces hd) fun r t _ _ hr => ?_
    obtain ⟨callback, d'⟩ := r
    cases callback with
    | error e => exact wp_raise _
    | ok u => exact repo.completeDispatch_safe hreplaces hr.1 hr.2

theorem dispatchCurrent_safe (hcopy : Copy current s)
    :
    (discipline A).Safe
      (repo.dispatchCurrent reservation transport forwardAt completedAt current) s := by
  unfold dispatchCurrent
  split
  · exact repo.replaceJob_safe (replaceable_of_copy hreplaces hcopy rfl
      ⟨hcopy.stored, hcopy.member⟩ nofun rfl rfl)
  refine wp_seq _ (repo.send_wp hreplaces transport ⟨hcopy.toKnown, fun _ => hcopy, nofun⟩)
    fun r t _ _ hr => ?_
  exact repo.afterSend_safe hreplaces hr

theorem dispatch_safe (hres : Copy reservation.job s) :
    (discipline A).Safe (repo.dispatch reservation transport forwardAt completedAt) s := by
  refine wp_get (fun t ht _ _ => ?_) fun current t _ _ hcopy _ => ?_
  · exact repo.dispatchCurrent_safe hreplaces (hres.of_le ht)
  · exact repo.dispatchCurrent_safe hreplaces hcopy

theorem repair_safe (jobId : String) (evidence : CrashEvidence) (repairOwner : String)
    (repairFence : ℤ) :
    (discipline A).Safe (repo.repair jobId evidence repairOwner repairFence) s := by
  refine wp_get (fun _ _ _ _ => wp_raise _) fun current t _ _ hcopy _ => ?_
  simp only
  split
  · exact safe_pure _
  split
  · exact safe_pure _
  split
  · exact wp_raise _
  refine wp_redis_any (fun _ _ _ => trivial) fun acquired t₁ ht₁ _ => ?_
  split
  · exact wp_get (fun _ _ _ _ => safe_pure _) fun _ _ _ _ _ _ => safe_pure _
  have hcopy₁ := hcopy.of_le ht₁
  have hcomplete : ∀ (repaired : JobRecord) u, (discipline A).Safe (do
      let _ ← redis (.completeRepair jobId repairOwner repairFence)
      pure repaired) u := fun _ _ =>
    wp_redis_any (fun _ _ _ => trivial) fun _ _ _ _ => safe_pure _
  split
  · refine wp_seq _ (repo.replaceJob_safe (replaceable_of_copy hreplaces hcopy₁ rfl
      ⟨hcopy₁.stored, hcopy₁.member⟩ nofun rfl rfl)) fun repaired u _ _ _ => ?_
    exact hcomplete repaired u
  · exact wp_seq _ (repo.requeueClaim_safe _ _ _) fun repaired u _ _ _ =>
      hcomplete repaired u

end RedisJobRepository

/-! ## The system -/

/-- A safe method is a safe client, whatever its outcome is wrapped into, as long
as no later call relies on the outcome. -/
theorem wp_outcome {A : Assumption} {α : Type} {p : Action α} {f : α → Outcome}
    {s : Store} (hp : (discipline A).Safe p s)
    (hf : ∀ a t, Outcome.Lasting (f a) t) :
    (discipline A).wp (f <$> p) (discipline A).post s :=
  wp_map _ hp (fun a t _ => hf a t) fun _ _ _ _ _ => trivial

theorem Outcome.Lasting.of_le {A : Assumption} {o : Outcome} {s t : Store}
    (h : o.Lasting s) (hle : Le A s t) : o.Lasting t := by
  unfold Outcome.Lasting at h ⊢
  split
  · exact { h with copy := Copy.of_le h.copy hle }
  · trivial

open RedisJobRepository in
/-- **Every call is safe**, given what the finished calls left behind. -/
theorem launches (A : Assumption) : (discipline A).Launches := by
  rintro results ⟨repo, op⟩ p s - hadmits hresults hlaunch
  have hjob : ∀ (a : JobRecord) t, Outcome.Lasting (.job a) t := fun _ _ => trivial
  have hjobs : ∀ (a : List JobRecord) t, Outcome.Lasting (.jobs a) t := fun _ _ => trivial
  have hmember : ∀ (a : MemberSnapshot) t, Outcome.Lasting (.member a) t :=
    fun _ _ => trivial
  have htoken : ∀ (a : ℕ) t, Outcome.Lasting (.token a) t := fun _ _ => trivial
  cases op with
  | dispatch reserver transport forwardAt completedAt =>
    obtain ⟨r, hr, rfl⟩ := Option.map_eq_some_iff.mp hlaunch
    have hcopy : Copy r.job s := by
      unfold reservationOf at hr
      split at hr
      · rename_i r' hres
        obtain rfl := Option.some.inj hr
        exact Reservation.Holds.copy (hresults _ _ hres)
      · cases hr
    exact wp_outcome (repo.dispatch_safe hadmits hcopy) hjob
  | reserveNext now members requirements owner token url =>
    cases hlaunch
    refine wp_map _ (repo.reserveNext_wp now requirements owner token url hadmits)
      (fun _ _ h => h) fun r t u hle h => ?_
    exact Outcome.Lasting.of_le (o := .reservation r) h hle
  | submit job scope => cases hlaunch; exact wp_outcome (repo.submit_safe job scope) hjob
  | cancelQueued jobId completedAt =>
    cases hlaunch
    exact wp_outcome (cancelQueued_safe jobId completedAt) hjob
  | requeueClaim job reason terminalAt =>
    cases hlaunch
    exact wp_outcome (repo.requeueClaim_safe job reason terminalAt) hjob
  | recoverStalePreAcceptanceClaims now maxAge limit scanned =>
    cases hlaunch
    exact wp_outcome
      (repo.recoverStalePreAcceptanceClaims_safe now maxAge limit scanned) hjobs
  | reconcileDeadJob jobId owner fence =>
    cases hlaunch
    exact wp_outcome (repo.reconcileDeadJob_safe jobId owner fence) hjob
  | reconcileStalePostAcceptanceJobs owner fence limit scanned =>
    cases hlaunch
    exact wp_outcome
      (repo.reconcileStalePostAcceptanceJobs_safe owner fence limit scanned) hjobs
  | repair jobId evidence owner fence =>
    cases hlaunch
    exact wp_outcome (repo.repair_safe hadmits jobId evidence owner fence) hjob
  | putMember member =>
    cases hlaunch
    exact wp_outcome (putMember_safe hadmits) hmember
  | releaseMemberLease name attemptId version enforce =>
    cases hlaunch
    exact wp_outcome (releaseMemberLease_safe name attemptId version enforce) hmember
  | beginMemberDrain name version =>
    cases hlaunch
    exact wp_outcome (beginMemberDrain_safe name version) hmember
  | completeMemberDrain name version =>
    cases hlaunch
    exact wp_outcome (completeMemberDrain_safe name version) hmember
  | beginMemberRejoin name version fence =>
    cases hlaunch
    exact wp_outcome (beginMemberRejoin_safe name version fence) hmember
  | completeMemberRejoin name version readiness =>
    cases hlaunch
    exact wp_outcome (completeMemberRejoin_safe name version hadmits.1 hadmits.2) hmember
  | acquireLeadership owner now ttl =>
    cases hlaunch
    exact wp_outcome (acquireLeadership_safe owner now ttl) htoken
  | renewLeadership owner token now ttl =>
    cases hlaunch
    exact wp_outcome (renewLeadership_safe owner token now ttl) htoken
  | expireAttempt id =>
    cases hlaunch
    refine wp_outcome (wp_redis_any (fun _ _ _ => trivial) fun _ _ _ _ => safe_pure _)
      fun _ _ => trivial

variable {labels : List BrokerLabel} {e : Event Store Cmd}

/-- **Every run of the broker** that meets the assumption: each executed command
kept its promise in a coherent store. -/
theorem broker_sound (A : Assumption) (hadmits : ∀ op, Label.start op ∈ labels → A.Admits op.2)
    (hfresh : A.fresh → ∀ e ∈ broker.history idle labels, FreshWrite e.cmd e.before)
    (he : e ∈ broker.history idle labels) :
    e.before.Coherent A ∧ Promise A e.cmd e.before :=
  ((discipline A).sound (launches A)
    ((discipline A).good_of_inv (Coherent.empty A)) hadmits
    fun e he hf => hfresh hf e he).2.2 e he

theorem broker_promise (he : e ∈ broker.history idle labels) :
    e.before.Coherent (.anySlots False) ∧ Promise (.anySlots False) e.cmd e.before :=
  broker_sound _ (fun op _ => Assumption.anySlots_admits _ op.2) (fun hf => hf.elim) he

/-- What a later part of the run finds lies above what an earlier part left. -/
theorem broker_le (A : Assumption) {ls : List BrokerLabel} (hpre : ls <+: labels)
    (hadmits : ∀ op, Label.start op ∈ labels → A.Admits op.2)
    (hfresh : A.fresh → ∀ e ∈ broker.history idle labels, FreshWrite e.cmd e.before) :
    (broker.run idle ls).store.Coherent A ∧
      Le A (broker.run idle ls).store (broker.run idle labels).store :=
  (discipline A).le_of_isPrefix (launches A)
    ((discipline A).good_of_inv (Coherent.empty A)) hpre hadmits
    fun e he hf => hfresh hf e he

/-! ## A one-member deployment

The smallest broker that can do anything: one dispatcher, one member with one
slot and one job.  The runs that show a fence to be insufficient start here. -/

namespace Deployment

/-- A repository with the source's default aging and retention. -/
def repository : RedisJobRepository where
  agingSeconds := 300
  terminalAttemptRetentionSeconds := 604800
  sha256 := id
  aging_pos := by norm_num
  retention_pos := by norm_num

def member : MemberSnapshot :=
  { name := "m"
    state := .readyAccepting
    accepting := true
    configuredSlots := 1
    contextPerSlot := 8192
    stateVersion := 1
    observedAt := 0
    backendSlotsBusy := some 0
    capabilities := ["chat"] }

/-- The job. -/
def job : NewJob :=
  { jobId := "j"
    idempotencyKey := "k"
    requestSha256 := "r"
    requestBody := "b"
    submittedAt := 0
    enqueueSequence := 1
    basePriority := .normal }

/-- Start a call of the repository. -/
def call (op : Op) : BrokerLabel := .start (repository, op)

def acts (i n : ℕ) : List BrokerLabel := List.replicate n (.act i)

/-- Client 0 leads, client 1 registers the member, client 2 submits the job. -/
def submitted : List BrokerLabel :=
  [call (.acquireLeadership "d" 0 1000)] ++ acts 0 1 ++
    [call (.putMember member)] ++ acts 1 6 ++ [call (.submit job "s")] ++ acts 2 1

def reserved : List BrokerLabel :=
  submitted ++ [call (.reserveNext 0 [⟨member, "a", 0⟩] ⟨0, 0, ["chat"]⟩ "d" 1 none)] ++
    acts 3 5

/-- A transport that reports acceptance, answers, and passes on what the callback
raises. -/
def transport : Transport := .accept (.respond "ok") .raise

end Deployment

end GpuManager.Broker
