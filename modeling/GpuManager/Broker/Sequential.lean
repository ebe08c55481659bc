import GpuManager.Broker.Repository

/-!
# Methods that run alone

What `peek_next` answers when no other client acts while it runs: a function of the
store, which it leaves as it is.
-/

namespace GpuManager.Broker

open AtomicProgram KeyValue

/-- What `_queue_head` returns.  A head that is not queued is an error, because it still has
its score. -/
def Store.queueHead (s : Store) (p : Priority) : Except BrokerError (Option JobRecord) :=
  match (s.queues p).first with
  | none => .ok none
  | some jobId =>
    match s.jobs jobId with
    | none => .error .repositoryUnavailable
    | some h =>
      if h.record.state ≠ .queued then .error .repositoryUnavailable
      else .ok (some h.record)

/-- The heads of the given queues. -/
def Store.queueHeads (s : Store) : List Priority → Except BrokerError (List JobRecord)
  | [] => .ok []
  | p :: ps => do
      let head ← s.queueHead p
      let rest ← s.queueHeads ps
      pure (head.toList ++ rest)

namespace RedisJobRepository

variable (repo : RedisJobRepository) (s : Store)

theorem run_queueHead (p : Priority) : (queueHead p).run exec s = (s.queueHead p, s) := by
  unfold queueHead Store.queueHead get
  simp only [redis, Prog.bind_perform, Prog.run, exec]
  cases hfirst : (s.queues p).first with
  | none => rfl
  | some jobId =>
    simp only [Prog.run, exec]
    cases hjob : s.jobs jobId with
    | none => rfl
    | some h =>
      simp only [Option.map_some]
      by_cases hstate : h.record.state = .queued
      · rw [if_neg (not_not.mpr hstate), if_neg (not_not.mpr hstate)]
        rfl
      rw [if_pos hstate, if_pos hstate]
      simp only [Prog.run, exec]
      -- The first entry of a queue has a score.
      obtain ⟨score, hscore⟩ := Option.isSome_iff_exists.mp
        (SortedSet.score_isSome_iff.mpr (SortedSet.mem_of_first hfirst))
      rw [hscore]
      rfl

theorem run_queueHeads (ps : List Priority) :
    (queueHeads ps).run exec s = (s.queueHeads ps, s) := by
  induction ps with
  | nil => rfl
  | cons p ps ih =>
    unfold queueHeads Store.queueHeads
    rw [Prog.run_bind, run_queueHead]
    cases hhead : s.queueHead p with
    | error e => rfl
    | ok head =>
      simp only
      rw [Prog.run_bind, ih]
      cases s.queueHeads ps <;> rfl

/-- The answer of `peek_next`. -/
def peeked (now : ℚ) : Except BrokerError (Option JobRecord) :=
  (s.queueHeads Priority.all).map fun heads =>
    (repo.selectHead now heads).map fun selected =>
      { selected with
        effectivePriority := effectivePriority selected.basePriority
          selected.submittedAt now repo.agingSeconds }

/-- `peek_next` answers from the store and leaves it. -/
theorem run_peekNext (now : ℚ) : (repo.peekNext now).run exec s = (repo.peeked s now, s) := by
  unfold peekNext peeked
  rw [Prog.run_bind, run_queueHeads]
  cases s.queueHeads Priority.all <;> rfl

end RedisJobRepository

end GpuManager.Broker
