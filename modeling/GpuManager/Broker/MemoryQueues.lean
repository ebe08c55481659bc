import GpuManager.Broker.Dispatcher
import GpuManager.Broker.Memory

/-!
# The deques hold the queued jobs

`peek_next` of the repository in memory looks at the heads of its deques and not at the states of
the jobs, so the deques have to hold the queued jobs and nothing else.  Every method keeps them so
except `replace_job`, which writes any record and leaves the deques alone.
-/

namespace GpuManager.Broker.MemoryStore

open Function Option List

/-- A call on the repository.  The calls about members write the two tables of the members only;
what they leave there may be anything. -/
inductive JobCall where
  | submit (job : NewJob) (callerScope : String)
  | reserveNext (agingSeconds now : ℚ) (orderedMembers : List MemberSnapshot)
      (requirements : RequestRequirements) (memberLookup : Option (String → MemberSnapshot))
      (attemptId : String)
  | cancelQueued (jobId : String) (completedAt : ℚ)
  | requeueClaim (job : JobRecord) (reason : ReasonCode)
  | replaceJob (job : JobRecord)
  | members (members : String → Option MemberSnapshot) (leases : String → Finset String)

/-- The tables after a call. -/
def step (s : MemoryStore) : JobCall → MemoryStore
  | .submit job callerScope => (submit job.record callerScope s).2
  | .reserveNext agingSeconds now orderedMembers requirements memberLookup attemptId =>
    (reserveNext agingSeconds now orderedMembers requirements memberLookup attemptId s).2
  | .cancelQueued jobId completedAt => (cancelQueued jobId completedAt s).2
  | .requeueClaim job reason => (requeueClaim job reason s).2
  | .replaceJob job => (replaceJob job s).2
  | .members members leases => { s with members, leases }

def after (calls : List JobCall) : MemoryStore := calls.foldl step empty

def Waits (p : Priority) (job : JobRecord) : Prop := job.basePriority = p ∧ job.state = .queued

/-- Each deque holds the queued jobs of its priority, each once. -/
structure Agree (s : MemoryStore) : Prop where
  own : ∀ {id job}, s.jobs id = some job → job.jobId = id
  queued : ∀ {id p}, id ∈ s.queues p ↔ ∃ job, s.jobs id = some job ∧ Waits p job
  nodup : ∀ p, (s.queues p).Nodup

/-- A record that is replaced waits where the new one does, or neither waits. -/
def JobCall.KeepsQueue (s : MemoryStore) : JobCall → Prop
  | .replaceJob job => ∀ prior, s.jobs job.jobId = some prior → ∀ p, Waits p prior ↔ Waits p job
  | _ => True

namespace Agree

variable {s t : MemoryStore} {job prior : JobRecord} {id : String} {p : Priority}

theorem mem_iff (h : s.Agree) (hprior : s.jobs id = some prior) :
    id ∈ s.queues p ↔ Waits p prior := by
  rw [h.queued, hprior]
  exact ⟨fun ⟨_, hsome, hwaits⟩ => some.inj hsome ▸ hwaits, fun hwaits => ⟨_, rfl, hwaits⟩⟩

/-- A record is written, and its id stands in the deques where it waits. -/
theorem put (h : s.Agree) (hown : job.jobId = id)
    (hjobs : t.jobs = update s.jobs id (some job))
    (hid : ∀ q, id ∈ t.queues q ↔ Waits q job)
    (hother : ∀ q other, other ≠ id → (other ∈ t.queues q ↔ other ∈ s.queues q))
    (hnodup : ∀ q, (t.queues q).Nodup) : t.Agree := by
  refine ⟨fun {other stored} hstored => ?_, fun {other q} => ?_, hnodup⟩
  · rw [hjobs] at hstored
    by_cases heq : other = id
    · rw [heq, update_self] at hstored
      rw [heq, ← some.inj hstored, hown]
    · rw [update_of_ne heq] at hstored
      exact h.own hstored
  · by_cases heq : other = id
    · rw [heq, hid, hjobs, update_self]
      simp
    · rw [hother q other heq, h.queued, hjobs, update_of_ne heq]

/-- A record is written, and with it the deque of its priority. -/
theorem putQueue {ids : List String} (h : s.Agree) (hown : job.jobId = id)
    (hp : job.basePriority = p) (hprior : ∀ q, q ≠ p → id ∉ s.queues q)
    (hjobs : t.jobs = update s.jobs id (some job)) (hqueues : t.queues = update s.queues p ids)
    (hids : ∀ other, other ∈ ids ↔ if other = id then job.state = .queued else other ∈ s.queues p)
    (hnodup : ids.Nodup) : t.Agree := by
  refine h.put hown hjobs (fun q => ?_) (fun q other hne => ?_) fun q => ?_
  all_goals
    rw [hqueues]
    by_cases hq : q = p
  · simp [hq, hids, Waits, hp]
  · rw [update_of_ne hq]
    exact iff_of_false (hprior q hq) fun hwaits => hq (hwaits.1.symm.trans hp)
  · rw [hq, update_self, hids, if_neg hne]
  · rw [update_of_ne hq]
  · rwa [hq, update_self]
  · rw [update_of_ne hq]
    exact h.nodup q

/-- A stored job is in no deque but that of its priority. -/
theorem notMem (h : s.Agree) (hprior : s.jobs id = some prior) {q : Priority}
    (hq : q ≠ prior.basePriority) : id ∉ s.queues q :=
  fun hmem => hq ((h.mem_iff hprior).mp hmem).1.symm

theorem submit (h : s.Agree) (new : NewJob) (callerScope : String) :
    (submit new.record callerScope s).2.Agree := by
  unfold MemoryStore.submit
  split
  · split
    · exact h
    split <;> exact h
  split
  · exact h
  rename_i hnew
  have hnot : ∀ q, new.jobId ∉ s.queues q := fun q hmem => by
    obtain ⟨prior, hprior, -⟩ := h.queued.mp hmem
    exact hnew (hprior ▸ rfl)
  refine @putQueue _ _ { new.record with effectivePriority := new.basePriority.toInt } new.jobId
    new.basePriority (s.queues new.basePriority ++ [new.jobId]) h rfl rfl (fun q _ => hnot q) rfl rfl
    (fun other => ?_) (nodup_append'.mpr
      ⟨h.nodup _, nodup_singleton _, disjoint_singleton.mpr (hnot _)⟩)
  rw [mem_append, mem_singleton]
  split
  case isTrue heq => exact iff_of_true (Or.inr heq) rfl
  case isFalse hne => exact or_iff_left hne

theorem reserveMember (h : s.Agree) (selected : JobRecord) (member current : MemberSnapshot)
    (attemptId : String) (now : ℚ) :
    (reserveMember selected member current attemptId now s).2.Agree := by
  rcases reserveMember_cases selected member current attemptId now s with
    ⟨-, e, heq⟩ | ⟨hr, prior, hprior, heq⟩
  · rwa [heq]
  rw [heq]
  have hp := ((h.mem_iff hprior).mp (mem_of_head? hr.head)).1
  have hown := h.own hprior
  have hqueue := cons_head?_tail hr.head
  obtain ⟨hfirst, hnodup⟩ := nodup_cons.mp (hqueue.symm ▸ h.nodup selected.basePriority)
  refine @putQueue _ _ (claimedJob prior selected member attemptId now) _ _ _ h hown hp
    (fun q hq => h.notMem hprior (hp ▸ hq)) (by rw [← hown]; rfl) rfl (fun other => ?_) hnodup
  split
  case isTrue heq => exact iff_of_false (heq ▸ hfirst) fun hclaimed => by cases hclaimed
  case isFalse hne => rw [← hqueue, mem_cons, or_iff_right hne, tail_cons]

theorem cancelQueued (h : s.Agree) (jobId : String) (completedAt : ℚ) :
    (cancelQueued jobId completedAt s).2.Agree := by
  unfold MemoryStore.cancelQueued
  split
  · exact h
  rename_i current hcurrent
  split
  · exact h
  split
  · exact h
  have hown := h.own hcurrent
  refine @putQueue _ _ (Lua.cancelledQueued current completedAt) _ _ _ h hown rfl
    (fun q hq => h.notMem hcurrent hq) rfl rfl (fun other => ?_) ((h.nodup _).erase _)
  rw [(h.nodup _).mem_erase_iff]
  split
  case isTrue heq => exact iff_of_false (fun hmem => hmem.1 heq) fun hstate => by cases hstate
  case isFalse hne => exact and_iff_right hne

/-- A requeue keeps the deques those of the queued jobs. -/
theorem requeueClaim (h : s.Agree) (claim : JobRecord) (reason : ReasonCode) :
    (requeueClaim claim reason s).2.Agree := by
  unfold MemoryStore.requeueClaim
  split
  · exact h
  rename_i current hcurrent
  split
  · exact h
  split
  · exact h
  rename_i hactive _
  have hown := h.own hcurrent
  have hnot : current.jobId ∉ s.queues current.basePriority := fun hmem =>
    hactive fun hact => hact.ne_queued ((h.mem_iff (hown ▸ hcurrent)).mp hmem).2
  have hrelease : ∀ u : MemoryStore, (releaseClaim current u).jobs = u.jobs ∧
      (releaseClaim current u).queues = u.queues := fun u => by
    unfold releaseClaim
    split
    · dsimp only
      split <;> exact ⟨rfl, rfl⟩
    · exact ⟨rfl, rfl⟩
  refine @putQueue _ _ (requeuedJob current reason) _ _ _ h hown rfl
    (fun q hq => h.notMem hcurrent hq) ((hrelease _).1.trans (by rw [← hown]; rfl))
    ((hrelease _).2.trans (congrArg (update s.queues current.basePriority) (if_neg hnot)))
    (fun other => ?_) (nodup_cons.mpr ⟨hnot, h.nodup _⟩)
  rw [mem_cons, show (requeuedJob current reason).jobId = claim.jobId from hown]
  split
  case isTrue heq => exact iff_of_true (Or.inl heq) rfl
  case isFalse hne => exact or_iff_right hne

theorem replaceJob_iff (h : s.Agree) (job : JobRecord) :
    (replaceJob job s).2.Agree ↔ JobCall.KeepsQueue s (.replaceJob job) := by
  unfold MemoryStore.replaceJob JobCall.KeepsQueue
  cases hprior : s.jobs job.jobId with
  | none => exact iff_of_true h fun _ hsome => by rw [hprior] at hsome; cases hsome
  | some prior =>
    constructor
    · intro hagree prior' hsome p
      rw [← some.inj (hprior.symm.trans hsome), ← h.mem_iff hprior]
      exact hagree.mem_iff (update_self ..)
    · exact fun hkeeps => h.put rfl rfl
        (fun q => (h.mem_iff hprior).trans (hkeeps prior hprior q)) (fun _ _ _ => Iff.rfl) h.nodup

/-- **One call.** -/
theorem step_iff (h : s.Agree) (call : JobCall) : (s.step call).Agree ↔ call.KeepsQueue s := by
  cases call with
  | submit job callerScope => exact iff_of_true (h.submit job callerScope) trivial
  | reserveNext agingSeconds now orderedMembers requirements memberLookup attemptId =>
    refine iff_of_true ?_ trivial
    unfold step reserveNext
    dsimp only
    split
    · exact h
    split
    · exact h
    exact h.reserveMember ..
  | cancelQueued jobId completedAt => exact iff_of_true (h.cancelQueued jobId completedAt) trivial
  | requeueClaim job reason => exact iff_of_true (h.requeueClaim job reason) trivial
  | replaceJob job => exact h.replaceJob_iff job
  | members => exact iff_of_true ⟨h.own, h.queued, h.nodup⟩ trivial

end Agree

/-- **In every run** the deques hold the queued jobs exactly as long as each record that is replaced
waits where the new one does. -/
theorem deques_agree_iff (calls : List JobCall) :
    (∀ ls, ls <+: calls → (after ls).Agree) ↔
      ∀ ls call, ls ++ [call] <+: calls → call.KeepsQueue (after ls) := by
  have hstep : ∀ ls call, after (ls ++ [call]) = (after ls).step call := fun _ _ =>
    foldl_concat ..
  constructor
  · intro hagree ls call hpre
    have hls := hagree ls ((prefix_append ls [call]).trans hpre)
    exact (hls.step_iff call).mp (hstep ls call ▸ hagree _ hpre)
  · intro hkeeps ls hpre
    induction ls using reverseRecOn with
    | nil => exact ⟨fun h => (nomatch h), by simp [after, empty], fun _ => nodup_nil⟩
    | append_singleton ls call ih =>
      rw [hstep]
      exact ((ih ((prefix_append ls [call]).trans hpre)).step_iff call).mpr
        (hkeeps ls call hpre)

end GpuManager.Broker.MemoryStore
