import GpuManager.Queue.Specs

/-!
# Clients of the queue

The calls that clients make on the queues, and the system in which any number of them run
interleaved.  Each call is launched as its own client; what it returns is not looked at
here, because the replies of the scripts are part of the history of a run.
-/

namespace GpuManager.Queue

open AtomicProgram Redis

/-- A call on a queue, with the times it reads from the clock. -/
inductive QueueOp where
  | ack (serviceName : String) (routingGroup : Option String) (entryId : Handle)
  | asyncAck (serviceName : String) (routingGroup : Option String) (entryId : Handle)
  | nack (serviceName : String) (routingGroup : Option String) (entryId : Handle)
      (maxRetries : ℤ) (now : String)
  | asyncNack (serviceName : String) (routingGroup : Option String) (entryId : Handle)
      (maxRetries : ℤ) (now : String)
  | yieldPending (serviceName : String) (routingGroup : Option String) (entryId : Handle)
  | cancelQueued (serviceName : String) (routingGroup : Option String) (entryId : Handle)
      (jobId : String) (request : CancelRequest)
  | purge (serviceName actor reason timestamp : String)
  | asyncPurge (serviceName actor reason timestamp : String)
  | tick (clock : ℕ)

namespace QueueOp

/-- The program of a call. -/
def program : QueueOp → Action Unit
  | ack serviceName routingGroup entryId =>
    RedisQueue.ack serviceName routingGroup entryId >>= fun _ => pure ()
  | asyncAck serviceName routingGroup entryId =>
    AsyncRedisQueue.ack serviceName routingGroup entryId >>= fun _ => pure ()
  | nack serviceName routingGroup entryId maxRetries now =>
    RedisQueue.nack serviceName routingGroup entryId maxRetries now >>= fun _ => pure ()
  | asyncNack serviceName routingGroup entryId maxRetries now =>
    AsyncRedisQueue.nack serviceName routingGroup entryId maxRetries now >>= fun _ => pure ()
  | yieldPending serviceName routingGroup entryId =>
    AsyncRedisQueue.yieldPending serviceName routingGroup entryId >>= fun _ => pure ()
  | cancelQueued serviceName routingGroup entryId jobId request =>
    RedisQueue.cancelQueuedAtomically serviceName routingGroup entryId jobId request >>=
      fun _ => pure ()
  | purge serviceName actor reason timestamp =>
    RedisQueue.purgeDeadLetters serviceName actor reason timestamp >>= fun _ => pure ()
  | asyncPurge serviceName actor reason timestamp =>
    AsyncRedisQueue.purgeDeadLetters serviceName actor reason timestamp >>= fun _ => pure ()
  | tick clock => redis (.tick clock)

/-- The service a call is about. -/
def service : QueueOp → Option String
  | ack serviceName _ _ | asyncAck serviceName _ _ => some serviceName
  | nack serviceName _ _ _ _ | asyncNack serviceName _ _ _ _ => some serviceName
  | yieldPending serviceName _ _ => some serviceName
  | cancelQueued serviceName _ _ _ _ => some serviceName
  | purge serviceName _ _ _ | asyncPurge serviceName _ _ _ => some serviceName
  | tick _ => none

end QueueOp

/-- Any number of calls, interleaved at the granularity of round trips. -/
def queueSystem :
    System Server Cmd (fun c => Except String c.Reply) QueueError Unit QueueOp where
  exec := exec
  launch := fun _ op => some op.program

/-! ## What the programs can issue -/

section Issues

variable {α β : Type} {P : Cmd → Prop} {c : Cmd} {k : c.Reply → Action α}

theorem issues_redis (h : P c) : (redis c).Issues P := by
  refine .call h fun r => ?_
  cases r <;> exact .done _

theorem issues_redis_bind (h : P c) (hk : ∀ r, (k r).Issues P) : (redis c >>= k).Issues P :=
  Prog.issues_bind (issues_redis h) hk

theorem issues_raising_bind {r : Except QueueError α} {k : α → Action β}
    (hk : ∀ a, r = .ok a → (k a).Issues P) : (raising r >>= k).Issues P := by
  cases r with
  | ok a => exact hk a rfl
  | error e => exact .done _

theorem issues_catching {caught : QueueError → Bool} {value : α} {body : Action α}
    (h : body.Issues P) : (catching caught value body).Issues P := by
  refine Prog.issues_bind (Prog.issues_attempt h) fun r => ?_
  split
  · exact .done _
  · split <;> exact .done _

section Obeys

variable {L : Type} {m : Prog.Monitor L Cmd fun c => Except String c.Reply} {l : L}

variable {Q : L → Except QueueError α → Prop}

/-- A round trip and what follows it, for either reply. -/
theorem obeys_redis_bind (hok : m.ok l c) (hreply : ∀ r, (k r).Obeys m Q (m.next l c (.ok r)))
    (herror : ∀ e, Q (m.next l c (.error e)) (.error (.redisError e))) :
    (redis c >>= k).Obeys m Q l := by
  refine .call hok fun r => ?_
  cases r with
  | ok r => exact hreply r
  | error e => exact .done (herror e)

theorem obeys_redis {Q : L → Except QueueError c.Reply → Prop} (hok : m.ok l c)
    (hreply : ∀ r, Q (m.next l c (.ok r)) (.ok r))
    (herror : ∀ e, Q (m.next l c (.error e)) (.error (.redisError e))) :
    (redis c).Obeys m Q l := by
  refine .call hok fun r => ?_
  cases r with
  | ok r => exact .done (hreply r)
  | error e => exact .done (herror e)

variable {caught : QueueError → Bool} {value : α} {body : Action α}

/-- A `try` block: an exception is turned into the value, or passes. -/
theorem obeys_catching (hbody : body.Obeys m (fun l r => match r with
      | .ok a => Q l (.ok a)
      | .error e => if caught e then Q l (.ok value) else Q l (.error e)) l) :
    (catching caught value body).Obeys m Q l := by
  refine Prog.Obeys.bind (Prog.Obeys.attempt hbody) ?_ ?_
  · rintro l r ⟨r', hr, hcase⟩
    obtain rfl := Except.ok.inj hr
    cases r with
    | ok a => exact .done hcase
    | error e =>
      simp only at hcase ⊢
      split at hcase
      next h => rw [if_pos h]; exact .done hcase
      next h => rw [if_neg h]; exact .done hcase
  · rintro l e ⟨r', hr, -⟩
    cases hr

/-- A `try` block, where only the state of the monitor matters. -/
theorem obeys_catching_local {P : L → Prop} (hbody : body.Obeys m (fun l _ => P l) l) :
    (catching caught value body).Obeys m (fun l _ => P l) l := by
  refine obeys_catching (hbody.mono fun l r h => ?_)
  cases r with
  | ok a => exact h
  | error e =>
    show if caught e then _ else _
    split <;> exact h

/-- A `try` block, where only what is returned matters. -/
theorem obeys_catching_returns {P : L → α → Prop} (hvalue : ∀ l, P l value)
    (hbody : body.Obeys m (fun l r => ∀ a, r = .ok a → P l a) l) :
    (catching caught value body).Obeys m (fun l r => ∀ a, r = .ok a → P l a) l := by
  refine obeys_catching (hbody.mono fun l r h => ?_)
  cases r with
  | ok a => exact h
  | error e =>
    show if caught e then _ else _
    split
    · intro a ha
      obtain rfl := Except.ok.inj ha
      exact hvalue l
    · exact fun a ha => nomatch ha

end Obeys

def OnEntry (service key : String) (id : StreamId) : Cmd → Prop
  | .xrange stream entryId => stream = key ∧ entryId = id
  | .clearPending stream entryId => stream = key ∧ entryId = id
  | .acknowledge stream entryId => stream = key ∧ entryId = id
  | .requeue stream entryId _ => stream = key ∧ entryId = id
  | .deadLetterTransfer source entryId serviceName _ =>
    source = key ∧ entryId = id ∧ serviceName = service
  | .cancelQueued stream entryId _ _ _ _ _ _ => stream = key ∧ entryId = id
  | _ => False

variable {serviceName : String} {routingGroup : Option String} {entryId : Handle}

theorem ackEntry_issues
    (hP : ∀ key id, resolveEntryStream serviceName routingGroup entryId = .ok (key, id) →
      ∀ c, OnEntry serviceName key id c → P c) :
    (ackEntry serviceName routingGroup entryId).Issues P := by
  refine issues_raising_bind fun target htarget => ?_
  exact issues_redis_bind (hP _ _ htarget _ ⟨rfl, rfl⟩) fun _ => .done _

theorem nackEntry_issues {maxRetries : ℤ} {now : String}
    (hP : ∀ key id, resolveEntryStream serviceName routingGroup entryId = .ok (key, id) →
      ∀ c, OnEntry serviceName key id c → P c) :
    (nackEntry serviceName routingGroup entryId maxRetries now).Issues P := by
  refine issues_raising_bind fun target htarget => ?_
  refine issues_redis_bind (hP _ _ htarget _ ⟨rfl, rfl⟩) fun entry => ?_
  cases entry with
  | none => exact issues_redis_bind (hP _ _ htarget _ ⟨rfl, rfl⟩) fun _ => .done _
  | some entry =>
    refine issues_raising_bind fun nackCount _ => ?_
    by_cases hdead : nackCount ≥ maxRetries
    · rw [if_pos hdead]
      exact issues_redis_bind (hP _ _ htarget _ ⟨rfl, rfl, rfl⟩) fun _ => .done _
    · rw [if_neg hdead]
      exact issues_redis_bind (hP _ _ htarget _ ⟨rfl, rfl⟩) fun _ => .done _

theorem yieldEntry_issues
    (hP : ∀ key id, resolveEntryStream serviceName routingGroup entryId = .ok (key, id) →
      ∀ c, OnEntry serviceName key id c → P c) :
    (yieldEntry serviceName routingGroup entryId).Issues P := by
  refine issues_raising_bind fun target htarget => ?_
  refine issues_redis_bind (hP _ _ htarget _ ⟨rfl, rfl⟩) fun entry => ?_
  cases entry with
  | none => exact issues_redis_bind (hP _ _ htarget _ ⟨rfl, rfl⟩) fun _ => .done _
  | some entry =>
    refine issues_raising_bind fun yieldCount _ => ?_
    exact issues_redis_bind (hP _ _ htarget _ ⟨rfl, rfl⟩) fun _ => .done _

theorem cancelQueuedAtomically_issues {jobId : String} {request : CancelRequest}
    (hP : ∀ key id, resolveEntryStream serviceName routingGroup entryId = .ok (key, id) →
      ∀ c, OnEntry serviceName key id c → P c) :
    (RedisQueue.cancelQueuedAtomically serviceName routingGroup entryId jobId request).Issues P := by
  unfold RedisQueue.cancelQueuedAtomically
  split
  · exact .done _
  split
  · exact .done _
  · exact .done _
  next key id htarget =>
    refine Prog.issues_bind (Prog.issues_attempt (issues_redis (hP _ _ htarget _ ⟨rfl, rfl⟩)))
      fun reply => ?_
    split <;> exact .done _

theorem purgeDeadLetters_issues {caught : QueueError → Bool} {actor reason timestamp : String}
    (hP : ∀ actor reason, P (.deadLetterPurge serviceName actor reason timestamp)) :
    (purgeDeadLetters caught serviceName actor reason timestamp).Issues P := by
  unfold purgeDeadLetters
  split
  · exact .done _
  split
  · exact .done _
  · exact issues_catching (issues_redis_bind (hP _ _) fun _ => .done _)

/-- The entry a call is about. -/
def QueueOp.target : QueueOp → Option (String × Option String × Handle)
  | .ack serviceName routingGroup entryId => some (serviceName, routingGroup, entryId)
  | .asyncAck serviceName routingGroup entryId => some (serviceName, routingGroup, entryId)
  | .nack serviceName routingGroup entryId _ _ => some (serviceName, routingGroup, entryId)
  | .asyncNack serviceName routingGroup entryId _ _ => some (serviceName, routingGroup, entryId)
  | .yieldPending serviceName routingGroup entryId => some (serviceName, routingGroup, entryId)
  | .cancelQueued serviceName routingGroup entryId _ _ =>
    some (serviceName, routingGroup, entryId)
  | _ => none

/-- **What a call can issue**: round trips on its entry, the purge of its service, or none. -/
theorem QueueOp.program_issues (op : QueueOp)
    (hentry : ∀ serviceName routingGroup entryId key id,
      op.target = some (serviceName, routingGroup, entryId) →
      resolveEntryStream serviceName routingGroup entryId = .ok (key, id) →
      ∀ c, OnEntry serviceName key id c → P c)
    (hpurge : ∀ serviceName actor reason timestamp, op.service = some serviceName →
      op.target = none → P (.deadLetterPurge serviceName actor reason timestamp))
    (htick : ∀ clock, P (.tick clock)) : op.program.Issues P := by
  cases op with
  | ack serviceName routingGroup entryId | asyncAck serviceName routingGroup entryId =>
    exact Prog.issues_bind
      (issues_catching (ackEntry_issues fun key id => hentry _ _ _ key id rfl)) fun _ => .done _
  | nack serviceName routingGroup entryId maxRetries now
  | asyncNack serviceName routingGroup entryId maxRetries now =>
    exact Prog.issues_bind
      (issues_catching (nackEntry_issues fun key id => hentry _ _ _ key id rfl)) fun _ => .done _
  | yieldPending serviceName routingGroup entryId =>
    exact Prog.issues_bind
      (issues_catching (yieldEntry_issues fun key id => hentry _ _ _ key id rfl))
      fun _ => .done _
  | cancelQueued serviceName routingGroup entryId jobId request =>
    exact Prog.issues_bind
      (cancelQueuedAtomically_issues fun key id => hentry _ _ _ key id rfl) fun _ => .done _
  | purge serviceName actor reason timestamp =>
    have hpurges : (RedisQueue.purgeDeadLetters serviceName actor reason timestamp).Issues P := by
      unfold RedisQueue.purgeDeadLetters
      exact purgeDeadLetters_issues fun actor reason =>
        hpurge serviceName actor reason timestamp rfl rfl
    exact Prog.issues_bind hpurges fun _ => .done _
  | asyncPurge serviceName actor reason timestamp =>
    have hpurges :
        (AsyncRedisQueue.purgeDeadLetters serviceName actor reason timestamp).Issues P := by
      unfold AsyncRedisQueue.purgeDeadLetters
      exact purgeDeadLetters_issues fun actor reason =>
        hpurge serviceName actor reason timestamp rfl rfl
    exact Prog.issues_bind hpurges fun _ => .done _
  | tick clock => exact issues_redis (htick clock)

end Issues

end GpuManager.Queue
