import GpuManager.Queue.Copies

/-!
# Claims and cancellations

A worker claims an entry with `XREADGROUP` and records the job as in flight in a later round
trip.  The cancel script decides by the tracker whether a job is still queued, so between the
two it takes a claimed job for a queued one.

A cancellation that is executed when every claim of the job has been recorded removes
unclaimed entries only, and no claim made before it writes the job afterwards.
-/

namespace GpuManager.Queue

open AtomicProgram Redis Script List Option

/-! ## Workers -/

/-- What a worker does with a claimed job in the end. -/
inductive Finish where
  | complete (now : String) (kwargs : StatusFields)
  | retry (maxRetries : ℤ) (now : String)
  | abandon

/-- A worker's round: where it claims, how many entries, and what becomes of them. -/
structure Work where
  settings : LaneSettings := {}
  serviceName : String
  routingGroup : Option String := none
  consumerName : String
  count : ℕ := 1
  dequeuedAt : ℚ := 0
  startedAt : String
  startFields : StatusFields := .none
  finish : Claim → Finish

/-- The job that a claim is for. -/
def Claim.jobId (claim : Claim) : Option String := getField claim.fields "job_id"

def recordClaims (startedAt : String) (kwargs : StatusFields) : List Claim → Action Unit
  | [] => pure ()
  | claim :: claims => do
      match claim.jobId with
      | none => recordClaims startedAt kwargs claims
      | some jobId =>
        let _ ← JobTracker.updateStatus jobId "in_flight" startedAt kwargs
        recordClaims startedAt kwargs claims

/-- A job that was worked on is completed, put back or left alone. -/
def finishClaims (w : Work) : List Claim → Action Unit
  | [] => pure ()
  | claim :: claims => do
      match w.finish claim with
      | .complete now kwargs =>
        let _ ← RedisQueue.ack w.serviceName w.routingGroup claim.entryId
        match claim.jobId with
        | none => finishClaims w claims
        | some jobId =>
          let _ ← JobTracker.updateStatus jobId "completed" now kwargs
          finishClaims w claims
      | .retry maxRetries now =>
        let _ ← RedisQueue.nack w.serviceName w.routingGroup claim.entryId maxRetries now
        finishClaims w claims
      | .abandon => finishClaims w claims

/-- One round of a worker: claim, record each claim, finish. -/
def Work.program (w : Work) : Action Unit := do
  let claims ← RedisQueue.dequeue w.settings w.serviceName w.routingGroup w.consumerName w.count
    w.dequeuedAt
  recordClaims w.startedAt w.startFields claims
  finishClaims w claims

inductive WorkerOp where
  | queue (op : QueueOp)
  | work (w : Work)

/-- The program of a call. -/
def WorkerOp.program : WorkerOp → Action Unit
  | queue op => op.program
  | work w => w.program

/-- Any number of workers and of calls, interleaved at the granularity of round trips. -/
def workerSystem :
    System Server Cmd (fun c => Except String c.Reply) QueueError Unit WorkerOp where
  exec := exec
  launch := fun _ op => some op.program

/-! ## What is executed -/

/-- The round trip delivers an entry of the job to a consumer. -/
def Delivers (jobId : String) (event : Event Server Cmd) : Prop :=
  match event.cmd with
  | .xreadgroup streams consumer count =>
    ∃ delivered : List (String × List Entry),
      (exec (.xreadgroup streams consumer count) event.before).1 = .ok delivered ∧
      ∃ p ∈ delivered, ∃ e ∈ p.2, Carries jobId e
  | _ => False

def Writes (jobId status : String) (event : Event Server Cmd) : Prop :=
  match event.cmd with
  | .writeStatus jobId' status' _ => jobId' = jobId ∧ status' = status
  | _ => False

/-- The round trip is the cancel script for an entry of a stream as the job. -/
def Cancels (jobId stream : String) (id : StreamId) (event : Event Server Cmd) : Prop :=
  match event.cmd with
  | .cancelQueued stream' id' jobId' _ _ _ _ _ => jobId' = jobId ∧ stream' = stream ∧ id' = id
  | _ => False

/-- The cancel script replies `removed_and_terminalized`. -/
def Removes (event : Event Server Cmd) : Prop :=
  match event.cmd with
  | .cancelQueued stream id jobId completedAt error auditSource cancelledBy ttl =>
    (exec (.cancelQueued stream id jobId completedAt error auditSource cancelledBy ttl)
      event.before).1 = .ok .removedAndTerminalized
  | _ => False

/-- A client has claimed the job and has not recorded it since. -/
def Outstanding (jobId : String) (trace : List (ℕ × Event Server Cmd)) : Prop :=
  ∃ earlier claim later, trace = earlier ++ claim :: later ∧ Delivers jobId claim.2 ∧
    ∀ x ∈ later, x.1 = claim.1 → ¬ Writes jobId "in_flight" x.2

/-- What is said of the cancellations of a job in a run: a cancelled entry is in no pending
list, and a client that claimed the job before writes neither `in_flight` nor `completed`
after it. -/
structure CancelsUnclaimed (jobId : String) (trace : List (ℕ × Event Server Cmd)) : Prop where
  unclaimed : ∀ earlier x later stream id st, trace = earlier ++ x :: later →
    Cancels jobId stream id x.2 → Removes x.2 → x.2.before.stream stream = some st →
    ¬ st.Pending group id
  final : ∀ earlier x later stream id, trace = earlier ++ x :: later →
    Cancels jobId stream id x.2 → Removes x.2 →
    ∀ claim ∈ earlier, Delivers jobId claim.2 → ∀ y ∈ later, y.1 = claim.1 →
      ¬ Writes jobId "in_flight" y.2 ∧ ¬ Writes jobId "completed" y.2

/-! ## Who claimed what -/

/-- Every entry of the job that is pending in the stream is accounted for by `J`. -/
def Accounted (jobId : String) (J : Prop) (st : Stream) : Prop :=
  ∀ id, st.Pending group id → id ≤ st.lastId ∧ ∀ e ∈ st.entries, e.id = id → Carries jobId e → J

section Accounted

variable {jobId : String} {J J' : Prop} {st st' : Stream}

theorem Accounted.mono (h : Accounted jobId J st) (hJ : J → J') : Accounted jobId J' st :=
  fun id hid => ⟨(h id hid).1, fun e he heq hjob => hJ ((h id hid).2 e he heq hjob)⟩

theorem accounted_empty : Accounted jobId J Stream.empty := by
  rintro id ⟨g, hg, -⟩
  cases hg

variable (h : Accounted jobId J st)
include h

/-- With fewer entries and fewer deliveries pending, less is to be accounted for. -/
theorem Accounted.of_sublist (hlast : st'.lastId = st.lastId)
    (hentries : st'.entries.Sublist st.entries)
    (hpending : ∀ id, st'.Pending group id → st.Pending group id) : Accounted jobId J st' := by
  intro id hid
  obtain ⟨hle, hall⟩ := h id (hpending id hid)
  exact ⟨hlast ▸ hle, fun e he => hall e (hentries.mem he)⟩

/-- A new entry is not pending: its id is above every delivered one. -/
theorem Accounted.add (clock : ℕ) (fields : Fields) : Accounted jobId J (st.add clock fields) := by
  intro id hid
  obtain ⟨hle, hall⟩ := h id hid
  refine ⟨hle.trans (Stream.lt_nextId _ _).le, fun e he heq => ?_⟩
  rcases mem_append.mp he with he | he
  · exact hall e he heq
  · obtain rfl := mem_singleton.mp he
    exact absurd (heq ▸ hle) (not_le.mpr (Stream.lt_nextId _ _))

theorem Accounted.del (id : StreamId) : Accounted jobId J (st.del id) :=
  h.of_sublist rfl filter_sublist fun _ hid => hid

theorem Accounted.trim (maxlen : ℕ) : Accounted jobId J (st.trim maxlen) :=
  h.of_sublist rfl (drop_sublist _ _) fun _ hid => hid

theorem Accounted.ack (group' : String) (id : StreamId) : Accounted jobId J (st.ack group' id) := by
  refine h.of_sublist rfl (Sublist.refl _) fun id' hid => ?_
  obtain ⟨g, hg, p, hp, hpid⟩ := hid
  have hgroups : (st.ack group' id).groups group = if group = group' then
      (st.groups group).map fun g => { g with pending := g.pending.filter fun p => p.1 ≠ id }
      else st.groups group := rfl
  rw [hgroups] at hg
  split at hg
  · obtain ⟨g', hg', rfl⟩ := map_eq_some_iff.mp hg
    exact ⟨g', hg', p, (mem_filter.mp hp).1, hpid⟩
  · exact ⟨g, hg, p, hp, hpid⟩

theorem Accounted.createGroup (group' : String) : Accounted jobId J (st.createGroup group') := by
  refine h.of_sublist rfl (Sublist.refl _) fun id hid => ?_
  obtain ⟨g, hg, p, hp, hpid⟩ := hid
  have hgroups : (st.createGroup group').groups =
      Function.update st.groups group' (some ((st.groups group').getD {})) := rfl
  rw [hgroups] at hg
  by_cases heq : group = group'
  · rw [heq, Function.update_self] at hg
    obtain rfl := some.inj hg
    cases hold : st.groups group' with
    | none =>
      rw [hold] at hp
      cases hp
    | some g =>
      rw [hold] at hp
      exact ⟨g, heq ▸ hold, p, hp, hpid⟩
  · rw [Function.update_of_ne heq] at hg
    exact ⟨g, hg, p, hp, hpid⟩

variable {consumer dlq jobId' service status stream : String}

/-- What is delivered is accounted for by the delivery. -/
theorem Accounted.deliver {g : Group} {count : ℕ} (hg : st.groups group = some g)
    (hdelivered : ∀ e ∈ st.undelivered g count, Carries jobId e → J') (hJ : J → J') :
    Accounted jobId J' (st.deliver group consumer g count) := by
  rintro id ⟨g', hg', p, hp, hpid⟩
  have hgroups : (st.deliver group consumer g count).groups group =
      some (Stream.Group.deliver g consumer (st.undelivered g count)) := by
    simp only [Stream.deliver, Stream.withGroups, Function.update_self]
  rw [hgroups] at hg'
  obtain rfl := some.inj hg'
  rcases mem_append.mp hp with hp | hp
  · obtain ⟨hle, hall⟩ := h id ⟨g, hg, p, hp, hpid⟩
    exact ⟨hle, fun e he heq hjob => hJ (hall e he heq hjob)⟩
  obtain ⟨e, he, rfl⟩ := mem_map.mp hp
  have hmem : e ∈ st.entries := (mem_filter.mp (mem_of_mem_take he)).1
  refine ⟨hpid ▸ st.bounded e hmem, fun e' he' heq hjob => ?_⟩
  have hsame : e' = e := Stream.eq_of_id he' hmem (heq.trans hpid.symm)
  exact hdelivered e he (hsame ▸ hjob)

end Accounted

section Keeps

variable {jobId : String} {J J' : Prop} {s : Server}

/-- The accounts of every stream. -/
abbrev AllAccounted (jobId : String) (J : Prop) : Server → Prop :=
  Server.EveryStream (Accounted jobId J)

theorem AllAccounted.mono (h : AllAccounted jobId J s) (hJ : J → J') :
    AllAccounted jobId J' s := fun key st hst => (h key st hst).mono hJ

variable {key group' : String} {id : StreamId} {streams : List String} {Q : Stream → Prop} {cap : ℕ}

theorem keeps_accounted_xadd {fields : Fields} : (xadd key fields).Keeps (AllAccounted jobId J) :=
  keeps_xadd accounted_empty fun _ clock h => h.add clock fields

theorem keeps_accounted_xdel :
    (xdel key id).Keeps (AllAccounted jobId J) := keeps_changeStream fun _ h => h.del id

theorem keeps_accounted_xtrim {maxlen : ℕ} :
    (xtrim key maxlen).Keeps (AllAccounted jobId J) := keeps_changeStream fun _ h => h.trim maxlen

theorem keeps_accounted_xack :
    (xack key group' id).Keeps (AllAccounted jobId J) := keeps_changeStream fun _ h => h.ack group' id

theorem keeps_retain :
    (retain key status).Keeps (Server.EveryStream Q) := by
  unfold retain
  exact keeps_ite keeps_expire keeps_persist

theorem keeps_deadLetterTransfer {source metrics : String} {payload : Fields}
    :
    (deadLetterTransfer source dlq metrics id group' cap service payload).Keeps
      (AllAccounted jobId J) := by
  refine keeps_bind keeps_type fun _ => keeps_bind keeps_type fun _ =>
    keeps_bind keeps_type fun _ => ?_
  refine keeps_ite (keeps_fail _) (keeps_ite (keeps_fail _)
    (keeps_ite (keeps_fail _) ?_))
  refine keeps_bind keeps_accounted_xadd fun _ => ?_
  refine keeps_bind keeps_accounted_xtrim fun _ => ?_
  refine keeps_bind ?_ fun _ => ?_
  · unfold countRemoved
    exact keeps_ite (keeps_discard keeps_hincrby) (keeps_pure _)
  refine keeps_bind keeps_hget fun _ => ?_
  refine keeps_bind (keeps_pcall keeps_accounted_xack) fun _ => ?_
  exact keeps_bind keeps_accounted_xdel fun _ => keeps_pure _

theorem keeps_deadLetterPurge {audit actor reason timestamp : String} :
    (deadLetterPurge dlq audit actor reason timestamp service cap).Keeps
      (AllAccounted jobId J) := by
  refine keeps_bind keeps_type fun _ => keeps_bind keeps_type fun _ => ?_
  refine keeps_ite (keeps_fail _) (keeps_ite (keeps_fail _) ?_)
  refine keeps_bind keeps_readStream fun _ => ?_
  refine keeps_bind keeps_accounted_xadd fun _ => ?_
  exact keeps_bind keeps_del fun _ => keeps_pure _

theorem keeps_cancelQueued {tracker completedAt error auditSource cancelledBy : String} {ttl : ℤ} :
    (cancelQueued stream tracker id jobId' group' completedAt error auditSource cancelledBy
      ttl).Keeps (AllAccounted jobId J) := by
  refine keeps_bind keeps_readStream fun entry => ?_
  cases entry with
  | none => exact keeps_pure _
  | some entry =>
    refine keeps_ite (keeps_pure _) ?_
    refine keeps_bind keeps_hget fun status => ?_
    cases status.filter fun status => status ≠ "queued" with
    | some status => exact keeps_ite (keeps_pure _) (keeps_pure _)
    | none =>
      refine keeps_bind keeps_accounted_xack fun _ => ?_
      refine keeps_bind keeps_accounted_xdel fun _ => ?_
      refine keeps_bind keeps_hset fun _ => ?_
      exact keeps_bind keeps_expire fun _ => keeps_pure _

theorem keeps_settleMarker {marker : String} :
    (Queue.settleMarker key marker jobId').Keeps (Server.EveryStream Q) := by
  refine keeps_bind keeps_get fun text => ?_
  split
  · refine keeps_ite (keeps_pure _) ?_
    exact keeps_bind keeps_hget fun _ => keeps_retain
  · exact keeps_pure _

/-- Every stream has the group of the workers. -/
theorem requireGroups_ok {s' : Server} (h : (requireGroups streams).run s = (.ok (), s')) :
    ∀ key ∈ streams, ∃ st g, s.stream key = some st ∧ st.groups group = some g := by
  induction streams with
  | nil => exact fun key hkey => (by cases hkey)
  | cons key keys ih =>
    simp only [requireGroups] at h
    split at h
    · cases h
    next g hg =>
      intro key' hkey'
      rcases mem_cons.mp hkey' with rfl | hkey'
      · exact bind_eq_some_iff.mp hg |>.imp fun st hst => ⟨g, hst.1, hst.2⟩
      · exact ih h key' hkey'

/-- A delivery keeps the group of every stream. -/
theorem groups_of_deliver {st : Stream} {g : Group} (consumer : String) (count : ℕ)
    (hst : s.stream key = some st) (hg : st.groups group = some g) :
    ∃ s', (Redis.xreadgroup group consumer count key).run s = (.ok (st.undelivered g count), s') ∧
      s.Wrote s' key (st.deliver group consumer g count) := by
  obtain ⟨ttl, hkey⟩ := Server.stream_eq_some.mp hst
  refine ⟨_, ?_, Server.wrote_put s key _⟩
  simp only [Redis.xreadgroup, hkey, hg]

/-- **A claim** accounts for the entries it delivers, and does not fail halfway. -/
theorem readAll_accounted (consumer : String) (count : ℕ)
    (hgroups : ∀ key ∈ streams, ∃ st g, s.stream key = some st ∧ st.groups group = some g)
    (hs : AllAccounted jobId J s) :
    ∃ delivered s', (readAll consumer count streams).run s = (.ok delivered, s') ∧
      AllAccounted jobId (J ∨ ∃ p ∈ delivered, ∃ e ∈ p.2, Carries jobId e) s' := by
  induction streams generalizing s J with
  | nil => exact ⟨[], s, rfl, hs.mono Or.inl⟩
  | cons key keys ih =>
    obtain ⟨st, g, hst, hg⟩ := hgroups key mem_cons_self
    obtain ⟨s₁, hread, w⟩ := groups_of_deliver consumer count hst hg
    have hs₁ : AllAccounted jobId (J ∨ ∃ e ∈ st.undelivered g count, Carries jobId e) s₁ := by
      intro key' st' hst'
      by_cases heq : key' = key
      · obtain rfl : st' = st.deliver group consumer g count :=
          some.inj (hst'.symm.trans (heq ▸ w.stream))
        exact (hs key st hst).deliver hg (fun e he hjob => Or.inr ⟨e, he, hjob⟩) Or.inl
      · rw [Server.stream_congr (w.others key' heq)] at hst'
        exact (hs key' st' hst').mono Or.inl
    have hgroups₁ : ∀ key' ∈ keys, ∃ st g, s₁.stream key' = some st ∧
        st.groups group = some g := by
      intro key' hkey'
      by_cases heq : key' = key
      · refine ⟨_, Stream.Group.deliver g consumer (st.undelivered g count), heq ▸ w.stream, ?_⟩
        simp only [Stream.deliver, Stream.withGroups, Function.update_self]
      obtain ⟨st', g', hst', hg'⟩ := hgroups key' (mem_cons_of_mem _ hkey')
      refine ⟨st', g', ?_, hg'⟩
      rw [Server.stream_congr (w.others key' heq)]
      exact hst'
    obtain ⟨others, s₂, hrest, hs₂⟩ := ih hgroups₁ hs₁
    refine ⟨(key, st.undelivered g count) :: others, s₂, ?_, hs₂.mono ?_⟩
    · unfold readAll
      rw [bind_ok hread, bind_ok hrest]
      rfl
    · rintro ((hJ | ⟨e, he, hjob⟩) | ⟨p, hp, hcarries⟩)
      · exact Or.inl hJ
      · exact Or.inr ⟨_, mem_cons_self, e, he, hjob⟩
      · exact Or.inr ⟨p, mem_cons_of_mem _ hp, hcarries⟩

theorem claim_accounted {count : ℕ} (hs : AllAccounted jobId J s) :
    AllAccounted jobId (J ∨ Delivers jobId ⟨.xreadgroup streams consumer count, s⟩)
      (exec (.xreadgroup streams consumer count) s).2 := by
  cases hgroups : (requireGroups streams).run s with
  | mk r s' =>
    have hsame : s' = s := by
      have hserver := requireGroups_server streams s
      rw [hgroups] at hserver
      exact hserver
    cases r with
    | error e =>
      have hrun : exec (.xreadgroup streams consumer count) s = (.error e, s') :=
        bind_error hgroups
      rw [hrun, hsame]
      exact hs.mono Or.inl
    | ok u =>
      subst hsame
      obtain ⟨delivered, s₂, hread, hs₂⟩ :=
        readAll_accounted consumer count (requireGroups_ok hgroups) hs
      have hrun : exec (.xreadgroup streams consumer count) s' = (.ok delivered, s₂) := by
        refine (bind_ok hgroups).trans ?_
        exact hread
      rw [hrun]
      exact hs₂.mono fun h => h.imp_right fun hdelivered => ⟨delivered, by rw [hrun], hdelivered⟩

end Keeps

/-! ## What workers and calls execute -/

/-- A key that is no job. -/
def NotJob (key : String) : Prop := ∀ jobId, key ≠ jobKey jobId

/-- A round trip that is neither a claim nor a record nor a cancellation. -/
def Silent : Cmd → Prop
  | .xreadgroup _ _ _ => False
  | .writeStatus _ _ _ => False
  | .cancelQueued _ _ _ _ _ _ _ _ => False
  | _ => True

theorem Silent.not_writes {c : Cmd} {s : Server} {jobId : String} (h : Silent c) :
    ¬ Writes jobId status ⟨c, s⟩ := by
  intro hwrites
  cases c with
  | writeStatus jobId' status' updates => exact h
  | _ => exact hwrites

/-- The round trips of workers and of calls: claims, records, cancellations, and what neither
delivers an entry nor writes a job. -/
inductive WorkerCmd : Cmd → Prop where
  | claim (streams : List String) (consumer : String) (count : ℕ)
      (hstreams : ∀ key ∈ streams, NotJob key) : WorkerCmd (.xreadgroup streams consumer count)
  | record (jobId : String) {status : String} {updates : Fields} (hstatus : status ≠ "queued")
      (hupdates : ∀ h, setFields h updates "status" = some status) :
      WorkerCmd (.writeStatus jobId status updates)
  | cancel {stream : String} (id : StreamId) (jobId completedAt error auditSource : String)
      (cancelledBy : String) (ttl : ℤ) (hstream : NotJob stream) :
      WorkerCmd (.cancelQueued stream id jobId completedAt error auditSource cancelledBy ttl)
  | other {c : Cmd} (hreads : Silent c)
      (hkeeps : ∀ jobId J, c.script.Keeps (AllAccounted jobId J)) (hspares : c.script.Within NotJob) :
      WorkerCmd c

section Step

variable {jobId : String} {s : Server} {c : Cmd}

/-- A job that is not cancellable stays so. -/
theorem not_cancellable_step (hc : WorkerCmd c) (hs : ¬ Cancellable s (jobKey jobId)) :
    ¬ Cancellable (exec c s).2 (jobKey jobId) := by
  have hspared : (exec c s).2.keys (jobKey jobId) = s.keys (jobKey jobId) →
      ¬ Cancellable (exec c s).2 (jobKey jobId) := by
    intro hsame
    unfold Cancellable
    rw [trackerStatus_congr hsame]
    exact hs
  have hnotJob : ¬ NotJob (jobKey jobId) := fun h => h jobId rfl
  cases hc with
  | claim streams consumer count hstreams =>
    exact hspared (within_claim hstreams s _ hnotJob)
  | record jobId' hstatus hupdates =>
    by_cases heq : jobId' = jobId
    · rw [heq]
      exact not_cancellable_writeStatus hupdates hstatus
    · refine hspared (within_writeStatus (K := fun k => k ≠ jobKey jobId) ?_ s _ fun h => h rfl)
      exact fun hkey => heq (jobKey_inj hkey)
  | cancel id jobId' completedAt error auditSource cancelledBy ttl hstream =>
    by_cases heq : jobId' = jobId
    · subst heq
      rcases cancelQueued_cases (s := s) id jobId' group completedAt error auditSource cancelledBy
        ttl (hstream jobId') with ⟨r, hrun, -⟩ | ⟨st, e, s', -, -, -, hcancellable, -⟩
      · refine hspared ?_
        have hexec : exec (.cancelQueued _ id jobId' completedAt error auditSource cancelledBy ttl)
          s = (r, s) := hrun
        rw [hexec]
      · exact absurd hcancellable hs
    · refine hspared (within_cancelQueued (K := fun k => k ≠ jobKey jobId) (hstream jobId) ?_ s _
        fun h => h rfl)
      exact fun hkey => heq (jobKey_inj hkey)
  | other hreads hkeeps hspares => exact hspared (hspares s _ hnotJob)

/-- What was claimed so far, and whether it was recorded, in a trace. -/
structure Tracked (jobId : String) (trace : List (ℕ × Event Server Cmd)) (s : Server) : Prop where
  accounted : AllAccounted jobId (∃ x ∈ trace, Delivers jobId x.2) s
  recorded : (∃ x ∈ trace, Writes jobId "in_flight" x.2) → ¬ Cancellable s (jobKey jobId)

/-- **One round trip** keeps track of the claims and of the records. -/
theorem tracked_step {trace : List (ℕ × Event Server Cmd)} {i : ℕ} (hc : WorkerCmd c)
    (hs : Tracked jobId trace s) : Tracked jobId (trace ++ [(i, ⟨c, s⟩)]) (exec c s).2 := by
  have hmono : (∃ x ∈ trace, Delivers jobId x.2) →
      ∃ x ∈ trace ++ [(i, ⟨c, s⟩)], Delivers jobId x.2 :=
    fun ⟨x, hx, hdelivers⟩ => ⟨x, mem_append_left _ hx, hdelivers⟩
  constructor
  · cases hc with
    | claim streams consumer count hstreams =>
      refine (claim_accounted hs.accounted).mono fun h => ?_
      rcases h with h | h
      · exact hmono h
      · exact ⟨_, mem_append_right _ (mem_singleton_self _), h⟩
    | record jobId' hstatus hupdates =>
      refine AllAccounted.mono (keeps_multi (fun c hc => ?_) s hs.accounted) hmono
      simp only [mem_cons, not_mem_nil, or_false] at hc
      rcases hc with rfl | rfl
      · exact keeps_hset
      · exact keeps_retain
    | cancel id jobId' completedAt error auditSource cancelledBy ttl hstream =>
      exact AllAccounted.mono (keeps_cancelQueued s hs.accounted) hmono
    | other hreads hkeeps hspares =>
      exact AllAccounted.mono (hkeeps jobId _ s hs.accounted) hmono
  · rintro ⟨x, hx, hwrites⟩
    rcases mem_append.mp hx with hx | hx
    · exact not_cancellable_step hc (hs.recorded ⟨x, hx, hwrites⟩)
    obtain rfl := mem_singleton.mp hx
    cases hc with
    | claim streams consumer count hstreams => cases hwrites
    | record jobId' hstatus hupdates =>
      obtain ⟨rfl, -⟩ := hwrites
      exact not_cancellable_writeStatus hupdates hstatus
    | cancel id jobId' completedAt error auditSource cancelledBy ttl hstream => cases hwrites
    | other hreads hkeeps hspares => exact absurd hwrites hreads.not_writes

end Step

/-! ## The programs -/

section Programs

theorem IsQueue.notJob {key : String} (h : IsQueue key) : NotJob key := h.ne_jobKey

theorem notJob_deadLetter (suffix : String) : NotJob ("dead-letter:" ++ suffix) :=
  fun jobId => (jobKey_ne_deadLetter jobId suffix).symm

variable {serviceName : String} {settings : LaneSettings} {specs : List (String × Option Lane)}

/-- The round trips on an entry of a live stream. -/
theorem workerCmd_onEntry {key : String} {id : StreamId} {c : Cmd} (hkey : IsQueue key)
    (hc : OnEntry serviceName key id c) : WorkerCmd c := by
  cases c with
  | xrange stream entryId =>
    exact .other trivial (fun _ _ => keeps_readStream)
      within_xrange
  | clearPending stream entryId =>
    obtain ⟨rfl, rfl⟩ := hc
    refine .other trivial
      (fun _ _ => keeps_multi fun c hc => ?_) (within_multi fun c hc => ?_)
    · obtain rfl := mem_singleton.mp hc
      exact keeps_accounted_xack
    · obtain rfl := mem_singleton.mp hc
      exact within_xack hkey.notJob
  | acknowledge stream entryId =>
    obtain ⟨rfl, rfl⟩ := hc
    refine .other trivial
      (fun _ _ => keeps_multi fun c hc => ?_) (within_acknowledge hkey.notJob)
    simp only [mem_cons, not_mem_nil, or_false] at hc
    rcases hc with rfl | rfl | rfl
    · exact keeps_accounted_xack
    · exact keeps_discard keeps_accounted_xdel
    · exact keeps_discard keeps_accounted_xtrim
  | requeue stream entryId payload =>
    obtain ⟨rfl, rfl⟩ := hc
    refine .other trivial
      (fun _ _ => keeps_multi fun c hc => ?_) (within_requeue hkey.notJob)
    simp only [mem_cons, not_mem_nil, or_false] at hc
    rcases hc with rfl | rfl | rfl | rfl
    · exact keeps_accounted_xack
    · exact keeps_discard keeps_accounted_xdel
    · exact keeps_discard keeps_accounted_xadd
    · exact keeps_discard keeps_accounted_xtrim
  | deadLetterTransfer source entryId service payload =>
    obtain ⟨rfl, rfl, rfl⟩ := hc
    exact .other trivial
      (fun _ _ => keeps_deadLetterTransfer)
      (within_deadLetterTransfer hkey.notJob (notJob_deadLetter _) (notJob_deadLetter "metrics"))
  | cancelQueued stream entryId jobId completedAt error auditSource cancelledBy ttl =>
    obtain ⟨rfl, rfl⟩ := hc
    exact .cancel _ _ _ _ _ _ _ hkey.notJob
  | _ => cases hc

theorem queueOp_workerCmd (op : QueueOp) : op.program.Issues WorkerCmd := by
  refine op.program_issues ?_ ?_ ?_
  · intro serviceName routingGroup entryId key id _ hkey c hc
    exact workerCmd_onEntry (resolve_queue hkey) hc
  · intro serviceName actor reason timestamp _ _
    exact .other trivial (fun _ _ => keeps_deadLetterPurge)
      (within_deadLetterPurge (notJob_deadLetter _) (notJob_deadLetter "audit"))
  · intro clock
    exact .other trivial (fun _ _ _ hs => hs) fun _ _ _ => rfl

variable {routingGroup : Option String} {kwargs : StatusFields} {now : ℚ}

/-- The streams a service reads from are live streams. -/
theorem streamSpecs_queue (h : streamSpecs settings serviceName routingGroup = .ok specs) :
    ∀ spec ∈ specs, IsQueue spec.1 := by
  unfold streamSpecs at h
  cases hlegacy : legacyStreamName serviceName routingGroup with
  | error e => rw [hlegacy] at h; cases h
  | ok legacy =>
    have hlegacyQueue := isQueue_legacy hlegacy
    rw [hlegacy] at h
    cases henabled : settings.priorityLanesEnabled with
    | false =>
      rw [henabled] at h
      obtain rfl := Except.ok.inj h
      intro spec hspec
      obtain rfl := mem_singleton.mp hspec
      exact hlegacyQueue
    | true =>
      rw [henabled] at h
      cases hinteractive : laneStreamName serviceName routingGroup .interactive with
      | error e => rw [hinteractive] at h; cases h
      | ok interactive =>
        cases hnormal : laneStreamName serviceName routingGroup .normal with
        | error e => rw [hinteractive, hnormal] at h; cases h
        | ok normal =>
          cases hbackground : laneStreamName serviceName routingGroup .background with
          | error e => rw [hinteractive, hnormal, hbackground] at h; cases h
          | ok background =>
            rw [hinteractive, hnormal, hbackground] at h
            obtain rfl := Except.ok.inj h
            intro spec hspec
            simp only [mem_cons, not_mem_nil, or_false] at hspec
            rcases hspec with rfl | rfl | rfl | rfl
            · exact isQueue_lane hinteractive
            · exact isQueue_lane hnormal
            · exact isQueue_lane hbackground
            · exact hlegacyQueue

theorem ensureGroups_issues
    (h : ∀ spec ∈ specs, IsQueue spec.1) : (ensureGroups specs).Issues WorkerCmd := by
  induction specs with
  | nil => exact .done _
  | cons spec specs ih =>
    refine issues_redis_bind ?_ fun _ => ih fun spec hspec => h spec (mem_cons_of_mem _ hspec)
    exact .other trivial
      (fun _ _ => keeps_xgroupCreate accounted_empty fun _ hst => hst.createGroup _)
      (within_xgroupCreate (h spec mem_cons_self).notJob)

theorem readyEntries_obeys (specs : List (String × Option Lane)) :
    (readyEntries settings now specs).Obeys (Prog.Monitor.allowing WorkerCmd)
      (fun _ r => ∀ candidates, r = .ok candidates → ∀ c ∈ candidates, c.2 ∈ specs) () := by
  induction specs with
  | nil =>
    refine .done fun candidates hr c hc => ?_
    obtain rfl := Except.ok.inj hr
    cases hc
  | cons spec specs ih =>
    refine Prog.Obeys.bind (Q := fun _ _ => True) (obeys_catching (obeys_redis_bind ?_
      (fun lastId => obeys_redis (c := .xread spec.1 lastId) ?_ (fun _ => trivial) fun e => ?_)
      fun e => ?_))
      (fun _ row _ => ?_) ?_
    · exact .other trivial (fun _ _ => keeps_readStream)
        within_readStream
    · exact .other trivial (fun _ _ => keeps_readStream)
        within_readStream
    · exact trivial
    · exact trivial
    · refine Prog.Obeys.bind ih (fun _ others hothers => ?_) fun _ e _ candidates hr => (by cases hr)
      have hmem := hothers others rfl
      cases row with
      | none =>
        refine .done fun candidates hr c hc => ?_
        obtain rfl := Except.ok.inj hr
        exact mem_cons_of_mem _ (hmem c hc)
      | some entry =>
        refine .done fun candidates hr c hc => ?_
        obtain rfl := Except.ok.inj hr
        rcases mem_cons.mp hc with rfl | hc
        · exact mem_cons_self
        · exact mem_cons_of_mem _ (hmem c hc)
    · exact fun _ e _ candidates hr => (by cases hr)

theorem bestCandidate_mem {candidates : List ((ℤ × ℚ × ℤ) × String × Option Lane)}
    {best : (ℤ × ℚ × ℤ) × String × Option Lane} (h : bestCandidate candidates = some best) :
    best ∈ candidates := by
  cases candidates with
  | nil => cases h
  | cons candidate candidates =>
    obtain rfl := some.inj h
    have hfold : ∀ (l : List ((ℤ × ℚ × ℤ) × String × Option Lane)) (c),
        l.foldl (fun best c => if scoreLt best.1 c.1 then c else best) c ∈ c :: l := by
      intro l
      induction l with
      | nil => exact fun c => mem_singleton_self c
      | cons d l ih =>
        intro c
        rw [foldl_cons]
        have hmem := ih (if scoreLt c.1 d.1 then d else c)
        rcases mem_cons.mp hmem with heq | hmem
        · rw [heq]
          split <;> simp
        · exact mem_cons_of_mem _ (mem_cons_of_mem _ hmem)
    exact hfold candidates candidate

theorem claimEntries_issues {consumerName : String} {count : ℕ} :
    (claimEntries settings serviceName routingGroup consumerName count now).Issues WorkerCmd := by
  refine issues_raising_bind fun specs hspecs => ?_
  have hqueue := streamSpecs_queue hspecs
  refine Prog.issues_bind (ensureGroups_issues hqueue) fun _ => ?_
  have hcandidates : (candidateEntries settings now specs).Obeys (Prog.Monitor.allowing WorkerCmd)
      (fun _ r => ∀ candidates, r = .ok candidates → ∀ c ∈ candidates, c.2 ∈ specs) () := by
    unfold candidateEntries
    split
    · exact readyEntries_obeys specs
    refine .done fun candidates hr c hc => ?_
    obtain rfl := Except.ok.inj hr
    cases hc
  refine Prog.issues_bind_of_obeys hcandidates fun _ candidates hmem => ?_
  cases hbest : bestCandidate candidates with
  | none =>
    refine issues_redis_bind (.claim _ _ _ fun key hkey => ?_) fun _ => .done _
    obtain ⟨spec, hspec, rfl⟩ := mem_map.mp hkey
    exact (hqueue spec hspec).notJob
  | some best =>
    refine issues_redis_bind (.claim _ _ _ fun key hkey => ?_) fun _ => .done _
    obtain rfl := mem_singleton.mp hkey
    exact (hqueue best.2 (hmem candidates rfl best (bestCandidate_mem hbest))).notJob

theorem updateStatus_issues {jobId now : String} (hstatus : status ≠ "queued") :
    (JobTracker.updateStatus jobId status now kwargs).Issues WorkerCmd := by
  refine issues_catching (issues_redis_bind ?_ fun _ => issues_redis_bind ?_ fun digest => ?_)
  · exact .record _ hstatus fun h => setFields_statusUpdates h status now kwargs
  · exact .other trivial (fun _ _ => keeps_hget) within_hget
  · cases PythonText.nonempty digest with
    | none => exact .done _
    | some digest =>
      refine issues_redis_bind ?_ fun _ => .done _
      exact .other trivial (fun _ _ => keeps_settleMarker)
        (within_settleMarker (markerKey_ne_jobKey digest))

theorem recordClaims_issues {startedAt : String} (claims : List Claim) :
    (recordClaims startedAt kwargs claims).Issues WorkerCmd := by
  induction claims with
  | nil => exact .done _
  | cons claim claims ih =>
    unfold recordClaims
    cases claim.jobId with
    | none => exact ih
    | some jobId => exact Prog.issues_bind (updateStatus_issues (by decide)) fun _ => ih

theorem finishClaims_issues (w : Work) (claims : List Claim) :
    (finishClaims w claims).Issues WorkerCmd := by
  induction claims with
  | nil => exact .done _
  | cons claim claims ih =>
    have hentry : ∀ key id,
        resolveEntryStream w.serviceName w.routingGroup claim.entryId = .ok (key, id) →
        ∀ c, OnEntry w.serviceName key id c → WorkerCmd c :=
      fun key id hkey c hc => workerCmd_onEntry (resolve_queue hkey) hc
    unfold finishClaims
    cases w.finish claim with
    | complete now kwargs =>
      refine Prog.issues_bind (issues_catching (ackEntry_issues hentry)) fun _ => ?_
      cases claim.jobId with
      | none => exact ih
      | some jobId => exact Prog.issues_bind (updateStatus_issues (by decide)) fun _ => ih
    | retry maxRetries now =>
      exact Prog.issues_bind (issues_catching (nackEntry_issues hentry)) fun _ => ih
    | abandon => exact ih

theorem workerOp_issues (op : WorkerOp) : op.program.Issues WorkerCmd := by
  cases op with
  | queue op => exact queueOp_workerCmd op
  | work w =>
    refine Prog.issues_bind (issues_catching claimEntries_issues) fun claims => ?_
    exact Prog.issues_bind (recordClaims_issues claims) fun _ => finishClaims_issues w claims

end Programs

/-! ## Runs -/

/-- A cancellation that removes an entry: the entry is of the job, and the tracker let it be
cancelled. -/
theorem removes_inv {jobId : String} {id : StreamId} {event : Event Server Cmd}
    (hc : WorkerCmd event.cmd) (hcancels : Cancels jobId stream id event) (hremoves : Removes event) :
    Cancellable event.before (jobKey jobId) ∧ ∀ st, event.before.stream stream = some st →
      ∃ e ∈ st.entries, e.id = id ∧ Carries jobId e := by
  obtain ⟨c, s⟩ := event
  cases c with
  | cancelQueued stream' id' jobId' completedAt error auditSource cancelledBy ttl =>
    obtain ⟨rfl, rfl, rfl⟩ := hcancels
    have hne : stream' ≠ jobKey jobId' := by
      cases hc with
      | cancel _ _ _ _ _ _ _ hstream => exact hstream jobId'
      | other hreads _ _ => cases hreads
    rcases cancelQueued_cases (s := s) id' jobId' group completedAt error auditSource cancelledBy
      ttl hne with ⟨r, hrun, hr⟩ | ⟨st, e, s', hst, hfind, hjob, hcancellable, -⟩
    · have hexec : exec (.cancelQueued stream' id' jobId' completedAt error auditSource
        cancelledBy ttl) s = (r, s) := hrun
      refine absurd ?_ hr
      have hreply : (exec (.cancelQueued stream' id' jobId' completedAt error auditSource
        cancelledBy ttl) s).1 = .ok .removedAndTerminalized := hremoves
      rwa [hexec] at hreply
    · refine ⟨hcancellable, fun st' hst' => ?_⟩
      obtain rfl := some.inj (hst.symm.trans hst')
      obtain ⟨he, hid⟩ := Stream.mem_of_find hfind
      exact ⟨e, he, hid, hjob⟩
  | _ => cases hcancels

/-- **Cancellations of unclaimed jobs.**  At the start no entry of the job is pending, and
any number of workers and of calls run interleaved.  As long as the cancel script for the
job is not executed between a claim of the job and its record, while the tracker still says
that the job is queued, a cancellation removes unclaimed entries only, and no client that
had claimed the job before writes it afterwards. -/
theorem cancels_unclaimed {jobId : String} {start : Server}
    (hstart : AllAccounted jobId False start) (ls : List (Label WorkerOp))
    (hrecorded : ∀ earlier x later stream id,
      workerSystem.trace ⟨start, []⟩ ls = earlier ++ x :: later → Cancels jobId stream id x.2 →
      Cancellable x.2.before (jobKey jobId) → ¬ Outstanding jobId earlier) :
    CancelsUnclaimed jobId (workerSystem.trace ⟨start, []⟩ ls) := by
  have hlaunches : ∀ results op p, True → workerSystem.launch results op = some p →
      p.Issues WorkerCmd := by
    intro results op p _ hlaunch
    obtain rfl := some.inj hlaunch
    exact workerOp_issues op
  have hissues : ∀ e ∈ workerSystem.history ⟨start, []⟩ ls, WorkerCmd e.cmd :=
    workerSystem.issues_run hlaunches (fun p hp => (by cases hp)) fun _ _ => trivial
  have hstep : ∀ earlier x later, workerSystem.trace ⟨start, []⟩ ls = earlier ++ x :: later →
      Tracked jobId earlier x.2.before →
      Tracked jobId (earlier ++ [x]) (workerSystem.after x.2) := by
    intro earlier x later htrace hs
    have hmem : x ∈ workerSystem.trace ⟨start, []⟩ ls := by
      rw [htrace]
      simp
    exact tracked_step (hissues x.2 (workerSystem.mem_history_of_mem_trace hmem)) hs
  have hempty : Tracked jobId [] start :=
    ⟨AllAccounted.mono hstart False.elim, fun ⟨x, hx, _⟩ => (by cases hx)⟩
  have htracked := (workerSystem.trace_induction (Tracked jobId) hempty hstep).1
  -- A cancellation that removes the job finds no claim of it at all: an unrecorded one is
  -- excluded, and after a recorded one the tracker refuses.
  have hnone : ∀ earlier x later stream id,
      workerSystem.trace ⟨start, []⟩ ls = earlier ++ x :: later → Cancels jobId stream id x.2 →
      Cancellable x.2.before (jobKey jobId) → ¬ ∃ y ∈ earlier, Delivers jobId y.2 := by
    rintro earlier x later stream id htrace hcancels hcancellable ⟨y, hy, hdelivers⟩
    obtain ⟨before, after, rfl⟩ := append_of_mem hy
    refine hrecorded _ x later stream id htrace hcancels hcancellable
      ⟨before, y, after, rfl, hdelivers, fun z hz _ hwrites => ?_⟩
    refine (htracked _ x later htrace).recorded ⟨z, ?_, hwrites⟩ hcancellable
    exact mem_append_right _ (mem_cons_of_mem _ hz)
  have hinv : ∀ earlier x later stream id,
      workerSystem.trace ⟨start, []⟩ ls = earlier ++ x :: later → Cancels jobId stream id x.2 →
      Removes x.2 → Cancellable x.2.before (jobKey jobId) ∧
        ∀ st, x.2.before.stream stream = some st → ∃ e ∈ st.entries, e.id = id ∧ Carries jobId e := by
    intro earlier x later stream id htrace hcancels hremoves
    have hmem : x ∈ workerSystem.trace ⟨start, []⟩ ls := by
      rw [htrace]
      simp
    exact removes_inv (hissues x.2 (workerSystem.mem_history_of_mem_trace hmem)) hcancels hremoves
  constructor
  · intro earlier x later stream id st htrace hcancels hremoves hst hpending
    obtain ⟨hcancellable, hentry⟩ := hinv earlier x later stream id htrace hcancels hremoves
    obtain ⟨e, he, hid, hjob⟩ := hentry st hst
    refine hnone earlier x later stream id htrace hcancels hcancellable ?_
    exact ((htracked earlier x later htrace).accounted stream st hst id hpending).2 e he hid hjob
  · intro earlier x later stream id htrace hcancels hremoves claim hclaim hdelivers
    have hcancellable := (hinv earlier x later stream id htrace hcancels hremoves).1
    exact absurd ⟨claim, hclaim, hdelivers⟩
      (hnone earlier x later stream id htrace hcancels hcancellable)

/-! ## A claim and a cancellation of the same job -/

open EntryOp (serverOf newest)

theorem serverOf_accounted (n : ℕ) (jobId : String) : AllAccounted jobId False (serverOf n) := by
  have hgroups : ∀ n, (EntryOp.streamOf n).groups group = none := by
    intro n
    induction n with
    | zero => rfl
    | succ n ih => exact ih
  intro key st hst id hpending
  obtain ⟨ttl, hkey⟩ := Server.stream_eq_some.mp hst
  have hstream : st = EntryOp.streamOf n := by
    simp only [serverOf] at hkey
    split at hkey
    · obtain ⟨hvalue, -⟩ := Key.mk.inj (some.inj hkey)
      exact (Value.stream.inj hvalue).symm
    · cases hkey
  obtain ⟨g, hg, -⟩ := hpending
  rw [hstream, hgroups n] at hg
  cases hg

def videoWorker : WorkerOp :=
  .work { serviceName := "video", consumerName := "worker-1", startedAt := "now",
          finish := fun _ => .abandon }

/-- The user cancels the job. -/
def cancelVideo : WorkerOp :=
  .queue (.cancelQueued "video" none ⟨none, (newest 1).id⟩ "J-0001" { completedAt := "later" })

/-- The cancellation comes first: the worker finds nothing to claim. -/
def cancelThenClaim : List (Label WorkerOp) :=
  [.start cancelVideo, .act 0, .start videoWorker, .act 1, .act 1]

/-- The cancellation comes between the claim and its record. -/
def claimThenCancel : List (Label WorkerOp) :=
  [.start videoWorker, .act 0, .act 0, .start cancelVideo, .act 1, .act 0]

def isCancel (event : Event Server Cmd) : Bool :=
  match event.cmd with
  | .cancelQueued _ _ _ _ _ _ _ _ => true
  | _ => false

/-- A cancelled job that nobody had claimed. -/
theorem cancelThenClaim_unclaimed :
    CancelsUnclaimed "J-0001" (workerSystem.trace ⟨serverOf 1, []⟩ cancelThenClaim) := by
  have hflags : (workerSystem.trace ⟨serverOf 1, []⟩ cancelThenClaim).map
      (fun x => isCancel x.2) = [true, false, false] := by
    decide +kernel
  refine cancels_unclaimed (serverOf_accounted 1 "J-0001") cancelThenClaim ?_
  rintro earlier x later stream id htrace hcancels - ⟨before, claim, after, rfl, -⟩
  have hx : isCancel x.2 = true := by
    unfold isCancel
    unfold Cancels at hcancels
    split at hcancels
    · rfl
    · cases hcancels
  -- Something was executed before the cancellation, but only the first round trip is one.
  have hmem : x ∈ (workerSystem.trace ⟨serverOf 1, []⟩ cancelThenClaim).tail := by
    rw [htrace]
    cases before <;> simp
  have htrue : true ∈ ((workerSystem.trace ⟨serverOf 1, []⟩ cancelThenClaim).map
      fun x => isCancel x.2).tail := by
    rw [← map_tail]
    exact mem_map.mpr ⟨x, hmem, hx⟩
  rw [hflags] at htrue
  simp at htrue

/-- A cancelled job that a worker had claimed. -/
theorem claimThenCancel_claimed :
    AllAccounted "J-0001" False (serverOf 1) ∧
      ¬ CancelsUnclaimed "J-0001" (workerSystem.trace ⟨serverOf 1, []⟩ claimThenCancel) := by
  refine ⟨serverOf_accounted 1 "J-0001", fun h => ?_⟩
  have hlength : 2 < (workerSystem.trace ⟨serverOf 1, []⟩ claimThenCancel).length := by
    decide +kernel
  have hsplit : workerSystem.trace ⟨serverOf 1, []⟩ claimThenCancel =
      (workerSystem.trace ⟨serverOf 1, []⟩ claimThenCancel).take 2 ++
        (workerSystem.trace ⟨serverOf 1, []⟩ claimThenCancel)[2] ::
          (workerSystem.trace ⟨serverOf 1, []⟩ claimThenCancel).drop 3 := by
    rw [getElem_cons_drop, take_append_drop]
  refine h.unclaimed _ _ _ "queue:video" (newest 1).id
    ((EntryOp.streamOf 1).createGroup group |>.deliver group "worker-1" {} 1) hsplit
    ⟨rfl, rfl, rfl⟩ rfl rfl ?_
  exact ⟨_, rfl, ((newest 1).id, "worker-1"), mem_cons_self, rfl⟩

end GpuManager.Queue
