import GpuManager.Broker.Clients

/-!
# A request is admitted once

Whatever the clients do in between, an idempotency key that has created a job names this job for
ever: a later submission under the key is answered with it, or is refused because the request is
another one, and in neither case writes anything.
-/

namespace GpuManager.Broker

open AtomicProgram Lua Function

structure Store.Keeps (s t : Store) : Prop where
  idempotency : ∀ {digest h}, s.idempotency digest = some h → t.idempotency digest = some h
  jobs : ∀ {id}, (s.jobs id).isSome → (t.jobs id).isSome

/-- **One command.**  No command takes an idempotency key away or changes it. -/
theorem exec_keeps_idempotency {c : Cmd} {s : Store} {digest : String} {h : IdempotencyHash}
    (hs : s.idempotency digest = some h) : (exec c s).2.idempotency digest = some h := by
  have heffect := exec_effect c s
  generalize (exec c s).2 = t at heffect ⊢
  cases heffect with
  | @submitted other job unused fresh =>
    have hne : digest ≠ other := by
      rintro rfl
      rw [hs] at unused
      cases unused
    exact (update_of_ne hne _ _).trans hs
  | requeued found active member =>
    obtain ⟨-, -, -, -, -, hsame, -⟩ := requeueMember_frame member
    exact (congrFun hsame digest).trans hs
  | @repaired a h =>
    obtain ⟨attempts, hcommit⟩ := repairCommit_eq a h s
    simp only [hcommit]
    split <;> exact hs
  | _ => exact hs

/-- Once the first submission has created its job, the second finds it: it is answered with the
job, or refused for another request, and leaves the store. -/
def AdmitsOnce (e e' : Event Store Cmd) : Prop :=
  ∀ digest job job', e.cmd = .submitJob digest job → e'.cmd = .submitJob digest job' →
    (submitJob digest job e.before).1 = .ok (.created job.jobId) →
    (e'.before.jobs job.jobId).isSome ∧
      submitJob digest job' e'.before =
        (if job'.requestSha256 = job.requestSha256 then .ok (.existing job.jobId)
          else .error .idempotencyKeyReused, e'.before)

/-- **One key, one request.**  In every run of the broker a job that was created under a key is
still stored at every later submission under it, which names this job or is refused, and writes
nothing. -/
theorem admitted_once (labels : List BrokerLabel) :
    (broker.history idle labels).Pairwise AdmitsOnce := by
  have hkeeps : ∀ e ∈ broker.history idle labels, e.before.Keeps (broker.after e) := by
    intro e he
    refine ⟨exec_keeps_idempotency, fun {id} hjob => ?_⟩
    obtain ⟨hI, hp⟩ := broker_promise he
    rcases exec_jobEffect hI hp with heq | ⟨id', h', heq, -⟩
    · exact (congrFun heq id).symm ▸ hjob
    · have hafter : (broker.after e).jobs = update e.before.jobs id' (some h') := heq
      rw [hafter]
      by_cases hid : id = id'
      · rw [hid, update_self]
        rfl
      · rwa [update_of_ne hid]
  refine (broker.history_pairwise Store.Keeps (fun s => ⟨id, id⟩)
    (fun s t u h h' => ⟨fun hs => h'.idempotency (h.idempotency hs), fun hs => h'.jobs (h.jobs hs)⟩)
    hkeeps).2.imp fun {e e'} hle digest job job' hcmd hcmd' hcreated => ?_
  obtain ⟨cmd, s⟩ := e
  obtain rfl : cmd = _ := hcmd
  -- What the first submission left behind.
  have hafter : (submitJob digest job s).2.idempotency digest =
      some ⟨job.requestSha256, job.jobId⟩ ∧ ((submitJob digest job s).2.jobs job.jobId).isSome := by
    simp only at hcreated
    unfold submitJob at hcreated ⊢
    split at hcreated
    · split at hcreated <;> cases hcreated
    split at hcreated
    · cases hcreated
    rename_i hjob
    simp only [if_neg hjob]
    exact ⟨update_self .., by simp⟩
  refine ⟨hle.jobs hafter.2, ?_⟩
  unfold submitJob
  simp only [hle.idempotency hafter.1]
  by_cases hsame : job'.requestSha256 = job.requestSha256
  · rw [if_pos hsame, if_neg (not_not.mpr hsame.symm)]
  · rw [if_neg hsame, if_pos fun heq => hsame heq.symm]

end GpuManager.Broker
