import GpuManager.Queue.Tracker

/-!
# Who has a job id

A client draws an id from the counter, creates the hash of its job under it, and some client
finishes the job later.  The ids cycle, and at the wrap every client that has incremented
past 9999 looks at the counter again: what it reads there may be the id of another client.

As long as each id is drawn while no unfinished job has it and no other client is about to
create a job under it, no two unfinished jobs share an id and no unfinished hash is
overwritten.
-/

namespace GpuManager.Queue

open AtomicProgram Redis List Function Option Server

/-! ## Clients -/

/-- A client that submits a job, and one that finishes a job. -/
inductive TrackerOp where
  | submit (job : NewJob) (now : String)
  | finish (jobId status now : String) (kwargs : StatusFields) (terminal : Terminal status)

/-- `next_job_id`, then `create_job`. -/
def submitJob (job : NewJob) (now : String) : Action Unit := do
  match ← JobTracker.nextJobId with
  | none => pure ()
  | some jobId => discard (JobTracker.createJob jobId job now)

/-- The program of a client. -/
def TrackerOp.program : TrackerOp → Action Unit
  | submit job now => submitJob job now
  | finish jobId status now kwargs _ => discard (JobTracker.updateStatus jobId status now kwargs)

/-- Any number of clients, interleaved at the granularity of round trips. -/
def trackerSystem :
    System Server Cmd (fun c => Except String c.Reply) QueueError Unit TrackerOp where
  exec := exec
  launch := fun _ op => some op.program

/-! ## Jobs -/

/-- The hash of a job exists, and its status is not a terminal one. -/
def Unfinished (s : Server) (key : String) : Prop :=
  match s.hash key with
  | none => False
  | some h => ¬ Terminal ((h "status").getD "")

instance (s : Server) (key : String) : Decidable (Unfinished s key) := by
  unfold Unfinished
  split <;> infer_instance

/-- The id that a value of the counter stands for, unless it has to wrap. -/
def idWithin (val : ℤ) : Option String := if val > 9999 then none else some (jobIdOf val)

/-- The id that a client reads off the counter after an increment past the end. -/
def idRead (text : Option Text) : Option String :=
  match counterValue text with
  | .ok current => idWithin current
  | .error _ => none

def idReset (executed : Bool) : Option String := if executed then some (jobIdOf 1) else none

/-- The id that a round trip of `next_job_id` settles. -/
def settledId : (c : Cmd) → Except String c.Reply → Option String
  | .incr _, .ok val => idWithin val
  | .get _, .ok text => idRead text
  | .execSet _ _ _, .ok executed => idReset executed
  | _, _ => none

/-- What is known about the ids from what was executed. -/
structure IdLedger where
  /-- The clients that have drawn an id and not created their job yet. -/
  holding : List (ℕ × String) := []
  /-- The jobs that were created and not finished yet: who created them, and the key of their
  hash, which is `job:` and the id. -/
  jobs : List (ℕ × String) := []

namespace IdLedger

/-- A client has drawn an id, or not. -/
def draw (ledger : IdLedger) (client : ℕ) : Option String → IdLedger
  | none => ledger
  | some jobId =>
    { ledger with
      holding := (client, jobId) :: ledger.holding.filter fun held => held.1 ≠ client }

def note (ledger : IdLedger) (x : ℕ × Event Server Cmd) : IdLedger :=
  match x.2.cmd with
  | .hset key fields =>
    { holding := ledger.holding.filter fun held => held.1 ≠ x.1
      jobs := if (exec (.hset key fields) x.2.before).1.isOk then (x.1, key) :: ledger.jobs
        else ledger.jobs }
  | .writeStatus jobId status updates =>
    if (exec (.writeStatus jobId status updates) x.2.before).1.isOk then
      { ledger with jobs := ledger.jobs.filter fun job => job.2 ≠ jobKey jobId }
    else ledger
  | c => ledger.draw x.1 (settledId c (exec c x.2.before).1)

/-- The ledger of a trace. -/
def ofTrace (trace : List (ℕ × Event Server Cmd)) : IdLedger := trace.foldl note {}

theorem ofTrace_concat (trace : List (ℕ × Event Server Cmd)) (x : ℕ × Event Server Cmd) :
    ofTrace (trace ++ [x]) = (ofTrace trace).note x :=
  foldl_concat ..

/-- When an id is drawn, no unfinished job has it, and no other client holds it. -/
def FreshDraw (ledger : IdLedger) (x : ℕ × Event Server Cmd) : Prop :=
  match settledId x.2.cmd (exec x.2.cmd x.2.before).1 with
  | none => True
  | some jobId => ¬ Unfinished x.2.before (jobKey jobId) ∧
      ∀ held ∈ ledger.holding, held.2 = jobId → held.1 = x.1

instance (ledger : IdLedger) (x : ℕ × Event Server Cmd) : Decidable (ledger.FreshDraw x) := by
  unfold FreshDraw
  split <;> infer_instance

end IdLedger

/-- What is said of the job ids in a run: no two unfinished jobs share one, and `create_job`
overwrites no unfinished hash. -/
structure IdsUnshared (trace : List (ℕ × Event Server Cmd)) : Prop where
  unshared : ((IdLedger.ofTrace trace).jobs.map Prod.snd).Nodup
  kept : ∀ x ∈ trace, ∀ key fields, x.2.cmd = .hset key fields → ¬ Unfinished x.2.before key

/-! ## What a client can do -/

/-- The round trips of a client, and the id it holds. -/
def idMonitor : Prog.Monitor (Option String) Cmd fun c => Except String c.Reply where
  ok held
    | .hset key fields => ∃ jobId job now, held = some jobId ∧ key = jobKey jobId ∧
        fields = NewJob.fields job jobId now
    | .writeStatus _ status updates => Terminal status ∧
        ∀ h, setFields h updates "status" = some status
    | .persist _ | .get _ | .watch _ | .hget _ _ | .settleMarker _ _ => True
    | .incr key | .execSet key _ _ => key = counterKey
    | _ => False
  next held
    | .hset _ _, _ => none
    | c, r => (settledId c r).or held

theorem resetCounter_obeys (watched : ℕ) :
    (resetCounter watched).Obeys idMonitor
      (fun held r => ∀ a, r = .ok a → ∀ jobId, a = some jobId → held = some jobId) none := by
  refine obeys_redis_bind rfl (fun executed => ?_) fun _ _ h => nomatch h
  cases (executed : Bool) with
  | false => exact .done fun _ h => nomatch h
  | true =>
    refine .done fun a ha jobId hjob => ?_
    obtain rfl := Except.ok.inj ha
    exact hjob

/-- `next_job_id` returns the id that its client holds. -/
theorem nextJobId_obeys :
    JobTracker.nextJobId.Obeys idMonitor
      (fun held r => ∀ a, r = .ok a → ∀ jobId, a = some jobId → held = some jobId) none := by
  refine obeys_catching_returns (fun _ _ h => nomatch h) ?_
  refine obeys_redis_bind rfl (fun (val : ℤ) => ?_) fun _ _ h => nomatch h
  show (if val > 9999 then _ else _ : Action (Option String)).Obeys _ _ ((idWithin val).or none)
  unfold idWithin
  split
  · refine obeys_redis_bind trivial (fun watched => ?_) fun _ _ h => nomatch h
    refine obeys_redis_bind trivial (fun text => ?_) fun _ _ h => nomatch h
    show (raising (counterValue text) >>= _).Obeys _ _ ((idRead text).or none)
    unfold idRead
    cases counterValue text with
    | error e => exact .done fun _ h => nomatch h
    | ok current =>
      show (if current > 9999 then _ else _ : Action (Option String)).Obeys _ _
        ((idWithin current).or none)
      unfold idWithin
      split
      · exact resetCounter_obeys watched
      refine .done fun a ha jobId hjob => ?_
      obtain rfl := Except.ok.inj ha
      exact hjob
  · refine .done fun a ha jobId hjob => ?_
    obtain rfl := Except.ok.inj ha
    exact hjob

variable {jobId : String} {s : Server} {ledger : IdLedger} {held : ℕ → Option String}

theorem createJob_obeys (job : NewJob) (now : String) :
    (JobTracker.createJob jobId job now).Obeys idMonitor (fun _ r => ∀ a, r = .ok a → True)
      (some jobId) := by
  refine obeys_catching_returns (fun _ => trivial) ?_
  refine obeys_redis_bind ⟨jobId, job, now, rfl, rfl, rfl⟩ (fun _ => ?_) fun _ _ _ => trivial
  exact obeys_redis_bind trivial (fun _ => .done fun _ _ => trivial) fun _ _ _ => trivial

variable {key status : String} {s' : Server} {updates : Fields} {c : Cmd}

theorem updateStatus_obeys {now : String} {kwargs : StatusFields}
    (hterminal : Terminal status) (held : Option String) :
    (JobTracker.updateStatus jobId status now kwargs).Obeys idMonitor
      (fun _ r => ∀ a, r = .ok a → True) held := by
  refine obeys_catching_returns (fun _ => trivial) ?_
  refine obeys_redis_bind ⟨hterminal, fun h => setFields_statusUpdates h status now kwargs⟩
    (fun _ => ?_) fun _ _ _ => trivial
  refine obeys_redis_bind trivial (fun digest => ?_) fun _ _ _ => trivial
  split
  · exact .done fun _ _ => trivial
  · exact obeys_redis_bind trivial (fun _ => .done fun _ _ => trivial) fun _ _ _ => trivial

theorem TrackerOp.program_obeys (op : TrackerOp) :
    op.program.Obeys idMonitor (fun _ _ => True) none := by
  cases op with
  | submit job now =>
    refine nextJobId_obeys.bind (fun held jobId hheld => ?_) fun _ _ _ => trivial
    cases jobId with
    | none => exact .done trivial
    | some jobId =>
      obtain rfl := hheld _ rfl jobId rfl
      exact (createJob_obeys job now).bind (fun _ _ _ => .done trivial) fun _ _ _ => trivial
  | finish jobId status now kwargs hterminal =>
    exact (updateStatus_obeys hterminal none).bind (fun _ _ _ => .done trivial)
      fun _ _ _ => trivial

/-! ## What a round trip does to the jobs -/

theorem counterKey_ne_jobKey (jobId : String) : counterKey ≠ jobKey jobId := by
  intro h
  have hchar := congrArg (fun key : String => key.toList[3]?) h
  simp [counterKey, jobKey] at hchar

theorem unfinished_congr (h : s'.hash key = s.hash key) :
    Unfinished s' key ↔ Unfinished s key := by
  unfold Unfinished
  rw [h]

/-- The round trips that neither create nor finish a job leave every job as it is. -/
theorem exec_hash {held : Option String} (hok : idMonitor.ok held c)
    (hcreate : ∀ key fields, c ≠ .hset key fields)
    (hfinish : ∀ jobId status updates, c ≠ .writeStatus jobId status updates) (s : Server)
    (jobId : String) : (exec c s).2.hash (jobKey jobId) = s.hash (jobKey jobId) := by
  cases c with
  | hset key fields => exact absurd rfl (hcreate key fields)
  | writeStatus jobId status updates => exact absurd rfl (hfinish jobId status updates)
  | persist key => exact persist_hash s key _
  | get key =>
    exact hash_congr (within_get (K := fun _ => False) s _ (by simp))
  | hget key field =>
    exact hash_congr (within_hget (K := fun _ => False) s _ (by simp))
  | watch key => rfl
  | settleMarker jobId' digest =>
    exact hash_congr (within_settleMarker (K := (· = markerKey digest)) rfl s _
      (markerKey_ne_jobKey digest jobId).symm)
  | incr key =>
    obtain rfl : key = counterKey := hok
    exact hash_congr (within_incr (K := (· = counterKey)) rfl s _
      (counterKey_ne_jobKey jobId).symm)
  | execSet key watched text =>
    obtain rfl : key = counterKey := hok
    exact hash_congr (within_execSet (K := (· = counterKey)) rfl s _
      (counterKey_ne_jobKey jobId).symm)
  | _ => exact hok.elim

/-- `create_job` leaves other jobs alone; its own is unfinished from then on, unless the write
is refused. -/
theorem exec_create (s : Server) (key : String) (fields : Fields)
    (hqueued : ∀ h, setFields h fields "status" = some "queued") :
    (∀ key', key' ≠ key → (exec (.hset key fields) s).2.hash key' = s.hash key') ∧
      ((exec (.hset key fields) s).1.isOk = true ∧ Unfinished (exec (.hset key fields) s).2 key ∨
        (exec (.hset key fields) s).1.isOk = false ∧ (exec (.hset key fields) s).2 = s) := by
  refine ⟨fun key' hkey' =>
    Server.hash_congr (within_hset (K := (· = key)) rfl s key' hkey'), ?_⟩
  have hunfinished : ∀ h, Unfinished (s.put key (.hash (setFields h fields))) key := by
    intro h
    unfold Unfinished
    simp only [Server.hash, Server.put, Server.setKey_keys_self, hqueued]
    decide
  show ((hset key fields).run s).1.isOk = true ∧ Unfinished ((hset key fields).run s).2 key ∨
    ((hset key fields).run s).1.isOk = false ∧ ((hset key fields).run s).2 = s
  simp only [hset]
  split
  · exact Or.inl ⟨rfl, hunfinished _⟩
  · exact Or.inl ⟨rfl, hunfinished _⟩
  · exact Or.inr ⟨rfl, rfl⟩

/-- A terminal status ends a job, and is never refused to an unfinished one. -/
theorem exec_finish (s : Server) (jobId : String)
    (hterminal : Terminal status) (hupdates : ∀ h, setFields h updates "status" = some status) :
    ¬ Unfinished (exec (.writeStatus jobId status updates) s).2 (jobKey jobId) ∧
      (Unfinished s (jobKey jobId) → (exec (.writeStatus jobId status updates) s).1.isOk = true) := by
  by_cases hfits : Fits s (jobKey jobId) .hash
  · obtain ⟨s', hexec, hkeys⟩ := writeStatus_of_fits status updates hfits
    rw [hexec]
    refine ⟨?_, fun _ => rfl⟩
    unfold Unfinished
    simp only [Server.hash, hkeys, hupdates]
    exact not_not.mpr hterminal
  · have hnone : ∀ s' : Server, (s'.keys (jobKey jobId)).map Key.value =
        (s.keys (jobKey jobId)).map Key.value → ¬ Unfinished s' (jobKey jobId) := by
      intro s' hvalue hunfinished
      unfold Unfinished at hunfinished
      split at hunfinished
      · exact hunfinished
      next h hhash =>
        obtain ⟨ttl, hkey⟩ := Server.hash_eq_some.mp hhash
        rw [hkey, Option.map_some] at hvalue
        obtain ⟨k, hk, hv⟩ := Option.map_eq_some_iff.mp hvalue.symm
        obtain ⟨value, ttl'⟩ := k
        obtain rfl : value = .hash h := hv
        exact hfits (Or.inr (Server.typeOf_eq_hash.mpr ⟨h, Server.hash_eq_some.mpr ⟨ttl', hk⟩⟩))
    exact ⟨hnone _ (writeStatus_of_not_fits status updates hfits),
      fun hunfinished => absurd hunfinished (hnone s rfl)⟩

/-! ## The invariant -/

/-- The ledger describes the server: what is held is free, and what was created and not
finished is there. -/
structure IdsTracked (ledger : IdLedger) (held : ℕ → Option String) (s : Server) : Prop where
  holds : ∀ client jobId, held client = some jobId → (client, jobId) ∈ ledger.holding
  free : ∀ client jobId, (client, jobId) ∈ ledger.holding → ¬ Unfinished s (jobKey jobId)
  alone : ∀ client client' jobId, (client, jobId) ∈ ledger.holding →
    (client', jobId) ∈ ledger.holding → client = client'
  live : ∀ client key, (client, key) ∈ ledger.jobs → Unfinished s key ∧ ∃ jobId, key = jobKey jobId
  unshared : (ledger.jobs.map Prod.snd).Nodup

/-- A draw, or a round trip that says nothing about ids. -/
theorem IdsTracked.draw (h : IdsTracked ledger held s)
    (hsame : ∀ jobId, s'.hash (jobKey jobId) = s.hash (jobKey jobId)) (client : ℕ)
    (settled : Option String)
    (hfresh : ∀ jobId, settled = some jobId → ¬ Unfinished s (jobKey jobId) ∧
      ∀ p ∈ ledger.holding, p.2 = jobId → p.1 = client) :
    IdsTracked (ledger.draw client settled)
      (update held client (settled.or (held client))) s' := by
  have hunfinished : ∀ jobId, Unfinished s' (jobKey jobId) ↔ Unfinished s (jobKey jobId) :=
    fun jobId => unfinished_congr (hsame jobId)
  have hlive : ∀ client key, (client, key) ∈ ledger.jobs →
      Unfinished s' key ∧ ∃ jobId, key = jobKey jobId := by
    intro client key hjob
    obtain ⟨hun, jobId, rfl⟩ := h.live client key hjob
    exact ⟨(hunfinished jobId).mpr hun, jobId, rfl⟩
  cases settled with
  | none =>
    rw [none_or, update_eq_self]
    exact ⟨h.holds, fun client jobId hmem hun => h.free client jobId hmem ((hunfinished _).mp hun),
      h.alone, hlive, h.unshared⟩
  | some jobId =>
    obtain ⟨hnot, honly⟩ := hfresh jobId rfl
    rw [some_or]
    refine ⟨?_, ?_, ?_, hlive, h.unshared⟩
    · intro client' jobId' hheld
      by_cases hclient : client' = client
      · subst hclient
        rw [update_self] at hheld
        obtain rfl := some.inj hheld
        exact mem_cons_self
      · rw [update_of_ne hclient] at hheld
        refine mem_cons_of_mem _ (mem_filter.mpr ⟨h.holds _ _ hheld, ?_⟩)
        simpa using hclient
    · intro client' jobId' hmem
      rw [hunfinished]
      rcases mem_cons.mp hmem with heq | hmem
      · obtain ⟨-, rfl⟩ := Prod.mk.inj heq
        exact hnot
      · exact h.free client' jobId' (mem_filter.mp hmem).1
    · intro client₁ client₂ jobId' hmem₁ hmem₂
      rcases mem_cons.mp hmem₁ with heq₁ | hold₁ <;>
        rcases mem_cons.mp hmem₂ with heq₂ | hold₂
      · exact (Prod.mk.inj heq₁).1.trans (Prod.mk.inj heq₂).1.symm
      · obtain ⟨rfl, rfl⟩ := Prod.mk.inj heq₁
        exact (honly (client₂, _) (mem_filter.mp hold₂).1 rfl).symm
      · obtain ⟨rfl, rfl⟩ := Prod.mk.inj heq₂
        exact honly (client₁, _) (mem_filter.mp hold₁).1 rfl
      · exact h.alone _ _ _ (mem_filter.mp hold₁).1 (mem_filter.mp hold₂).1

/-- `create_job` by a client that holds the id. -/
theorem IdsTracked.create (h : IdsTracked ledger held s) {client : ℕ}
    (hheld : held client = some jobId) {fields : Fields}
    (hqueued : ∀ h, setFields h fields "status" = some "queued") :
    IdsTracked (ledger.note (client, ⟨.hset (jobKey jobId) fields, s⟩))
      (update held client none) (exec (.hset (jobKey jobId) fields) s).2 := by
  have hmine := h.holds client jobId hheld
  have hnot := h.free client jobId hmine
  have hothers : ∀ client' jobId', (client', jobId') ∈ ledger.holding → client' ≠ client →
      jobKey jobId' ≠ jobKey jobId := by
    intro client' jobId' hmem hne heq
    obtain rfl := jobKey_inj heq
    exact hne (h.alone _ _ _ hmem hmine)
  have hkept : ∀ client' key, (client', key) ∈ ledger.jobs → key ≠ jobKey jobId := by
    rintro client' key hmem rfl
    exact hnot (h.live client' _ hmem).1
  obtain ⟨hframe, hreply⟩ := exec_create s (jobKey jobId) fields hqueued
  have hlive : ∀ client' key, (client', key) ∈ ledger.jobs →
      Unfinished (exec (.hset (jobKey jobId) fields) s).2 key ∧ ∃ jobId', key = jobKey jobId' := by
    intro client' key hmem
    obtain ⟨hun, hname⟩ := h.live client' key hmem
    exact ⟨(unfinished_congr (hframe key (hkept client' key hmem))).mpr hun, hname⟩
  refine ⟨?_, ?_, ?_, ?_, ?_⟩
  · intro client' jobId' hheld'
    by_cases hclient : client' = client
    · rw [hclient, update_self] at hheld'
      cases hheld'
    · rw [update_of_ne hclient] at hheld'
      exact mem_filter.mpr ⟨h.holds _ _ hheld', by simpa using hclient⟩
  · intro client' jobId' hmem
    obtain ⟨hmem, hclient⟩ := mem_filter.mp hmem
    rw [unfinished_congr (hframe _ (hothers client' jobId' hmem (by simpa using hclient)))]
    exact h.free client' jobId' hmem
  · intro client₁ client₂ jobId' hmem₁ hmem₂
    exact h.alone _ _ _ (mem_filter.mp hmem₁).1 (mem_filter.mp hmem₂).1
  · rcases hreply with ⟨hok, hun⟩ | ⟨hrefused, -⟩
    · simp only [IdLedger.note, hok, if_true]
      intro client' key hmem
      rcases mem_cons.mp hmem with heq | hmem
      · obtain ⟨-, rfl⟩ := Prod.mk.inj heq
        exact ⟨hun, jobId, rfl⟩
      · exact hlive client' key hmem
    · simp only [IdLedger.note, hrefused]
      exact hlive
  · rcases hreply with ⟨hok, -⟩ | ⟨hrefused, -⟩
    · simp only [IdLedger.note, hok, if_true, map_cons, nodup_cons]
      refine ⟨fun hmem => ?_, h.unshared⟩
      obtain ⟨⟨client', key⟩, hjob, heq⟩ := mem_map.mp hmem
      exact hkept client' key hjob heq
    · simp only [IdLedger.note, hrefused]
      exact h.unshared

/-- A job that finishes gives its id back. -/
theorem IdsTracked.finish (h : IdsTracked ledger held s) (client : ℕ) (hterminal : Terminal status)
    (hupdates : ∀ h, setFields h updates "status" = some status) :
    IdsTracked (ledger.note (client, ⟨.writeStatus jobId status updates, s⟩)) held
      (exec (.writeStatus jobId status updates) s).2 := by
  obtain ⟨hfinished, hok⟩ := exec_finish s jobId hterminal hupdates
  have hframe : ∀ key, key ≠ jobKey jobId →
      (exec (.writeStatus jobId status updates) s).2.hash key = s.hash key := fun key hkey =>
    hash_congr (within_writeStatus (K := (· = jobKey jobId)) rfl s key hkey)
  have hfree : ∀ client' jobId', (client', jobId') ∈ ledger.holding →
      ¬ Unfinished (exec (.writeStatus jobId status updates) s).2 (jobKey jobId') := by
    intro client' jobId' hmem
    by_cases hjob : jobId' = jobId
    · rw [hjob]
      exact hfinished
    · rw [unfinished_congr (hframe _ fun heq => hjob (jobKey_inj heq))]
      exact h.free client' jobId' hmem
  have hlive : ∀ client' key, (client', key) ∈ ledger.jobs → key ≠ jobKey jobId →
      Unfinished (exec (.writeStatus jobId status updates) s).2 key ∧ ∃ jobId', key = jobKey jobId' := by
    intro client' key hmem hkey
    obtain ⟨hun, hname⟩ := h.live client' key hmem
    exact ⟨(unfinished_congr (hframe key hkey)).mpr hun, hname⟩
  simp only [IdLedger.note]
  split
  · refine ⟨h.holds, hfree, h.alone, ?_, ?_⟩
    · intro client' key hmem
      obtain ⟨hmem, hkey⟩ := mem_filter.mp hmem
      exact hlive client' key hmem (by simpa using hkey)
    · exact h.unshared.sublist (filter_sublist.map Prod.snd)
  next hrefused =>
    refine ⟨h.holds, hfree, h.alone, ?_, h.unshared⟩
    intro client' key hmem
    refine hlive client' key hmem ?_
    rintro rfl
    exact hrefused (hok (h.live client' _ hmem).1)

/-- **One round trip.**  A client that keeps to the monitor, and draws a fresh id, keeps the
ledger true. -/
theorem IdsTracked.step {x : ℕ × Event Server Cmd} (h : IdsTracked ledger held x.2.before)
    (hok : idMonitor.ok (held x.1) x.2.cmd) (hfresh : ledger.FreshDraw x) :
    IdsTracked (ledger.note x)
      (update held x.1 (idMonitor.next (held x.1) x.2.cmd (exec x.2.cmd x.2.before).1))
      (exec x.2.cmd x.2.before).2 := by
  obtain ⟨client, c, s⟩ := x
  by_cases hcreate : ∃ key fields, c = .hset key fields
  · obtain ⟨key, fields, rfl⟩ := hcreate
    obtain ⟨jobId, job, now, hheld, rfl, rfl⟩ := hok
    exact h.create hheld fun old => setFields_newJob old job jobId now
  by_cases hfinish : ∃ jobId status updates, c = .writeStatus jobId status updates
  · obtain ⟨jobId, status, updates, rfl⟩ := hfinish
    have hnext : idMonitor.next (held client) (.writeStatus jobId status updates)
        (exec (.writeStatus jobId status updates) s).1 = held client := rfl
    rw [hnext, update_eq_self]
    exact h.finish client hok.1 hok.2
  push Not at hcreate hfinish
  have hsame := fun jobId => exec_hash hok hcreate hfinish s jobId
  -- Everything else settles an id, or does not.
  have hdraw := h.draw hsame client (settledId c (exec c s).1) (by
    intro jobId hsettled
    unfold IdLedger.FreshDraw at hfresh
    simp only [hsettled] at hfresh
    exact hfresh)
  have hnext : idMonitor.next (held client) c (exec c s).1 =
      (settledId c (exec c s).1).or (held client) := by
    cases c with
    | hset key fields => exact absurd rfl (hcreate key fields)
    | _ => rfl
  have hnote : ledger.note (client, ⟨c, s⟩) = ledger.draw client (settledId c (exec c s).1) := by
    cases c with
    | hset key fields => exact absurd rfl (hcreate key fields)
    | writeStatus jobId status updates => exact absurd rfl (hfinish jobId status updates)
    | _ => rfl
  rw [hnote, hnext]
  exact hdraw

/-- **Every run.**  In every run from any server in which each id is drawn while no unfinished
job has it and no other client holds it, no two unfinished jobs share an id, and no unfinished
hash is overwritten. -/
theorem ids_unshared (s : Server) (ls : List (Label TrackerOp))
    (hfresh : Along IdLedger.FreshDraw IdLedger.note {} (trackerSystem.trace ⟨s, []⟩ ls)) :
    ∀ ls', ls' <+: ls → IdsUnshared (trackerSystem.trace ⟨s, []⟩ ls') := by
  rintro ls' ⟨rest, rfl⟩
  rw [System.trace_append] at hfresh
  replace hfresh := hfresh.left
  have hlaunches : ∀ results op p, True → trackerSystem.launch results op = some p →
      p.Obeys idMonitor (fun _ _ => True) none := by
    intro results op p _ hp
    obtain rfl := some.inj hp
    exact op.program_obeys
  have hobeys : ∀ earlier x later, trackerSystem.trace ⟨s, []⟩ ls' = earlier ++ x :: later →
      idMonitor.ok (trackerSystem.locals idMonitor (fun _ => none) earlier x.1) x.2.cmd :=
    (trackerSystem.obeys_run (fun results op p _ => hlaunches results op p)
      (fun i p hp => (by cases hp)) (fun _ _ => rfl)
      fun _ _ => trivial).1
  obtain ⟨hbefore, hend⟩ :
      (∀ earlier x later, trackerSystem.trace ⟨s, []⟩ ls' = earlier ++ x :: later →
        IdsTracked (IdLedger.ofTrace earlier)
          (trackerSystem.locals idMonitor (fun _ => none) earlier) x.2.before) ∧
      IdsTracked (IdLedger.ofTrace (trackerSystem.trace ⟨s, []⟩ ls'))
        (trackerSystem.locals idMonitor (fun _ => none) (trackerSystem.trace ⟨s, []⟩ ls'))
        (trackerSystem.run ⟨s, []⟩ ls').store := by
    refine trackerSystem.trace_induction
      (fun trace s => IdsTracked (IdLedger.ofTrace trace)
        (trackerSystem.locals idMonitor (fun _ => none) trace) s) ?_ ?_
    · exact ⟨fun _ _ h => (by cases h), fun _ _ h => (by cases h), fun _ _ _ h => (by cases h),
        fun _ _ h => (by cases h), nodup_nil⟩
    · intro earlier x later htrace h
      rw [htrace] at hfresh
      rw [IdLedger.ofTrace_concat, System.locals_concat]
      exact h.step (hobeys earlier x later htrace) hfresh.at
  refine ⟨hend.unshared, fun x hx key fields hcmd => ?_⟩
  obtain ⟨earlier, later, htrace⟩ := append_of_mem hx
  have hok := hobeys earlier x later htrace
  rw [hcmd] at hok
  obtain ⟨jobId, job, now, hheld, rfl, -⟩ := hok
  have h := hbefore earlier x later htrace
  exact h.free x.1 jobId (h.holds _ _ hheld)

/-! ## The wrap -/

theorem incr_of_number {n : ℤ} {ttl : Option ℤ}
    (h : s.keys key = some ⟨.string (.plain (toString n)), ttl⟩) :
    (incr key).run s = (.ok (n + 1), s.put key (.string (.plain (toString (n + 1))))) := by
  simp only [incr, h, decimal_toString]

theorem counterValue_toString (n : ℕ) :
    counterValue (some (.plain (toString n))) = .ok (n : ℤ) := by
  unfold counterValue
  split
  next h => cases h
  next h =>
    have hne : toString n ≠ "" := by simp
    exact absurd (Text.plain.inj (some.inj h)) hne
  next text h =>
    rw [← Text.plain.inj (some.inj h), PythonText.int_toString]
  next h => cases h

def noCounter : Server := ⟨fun _ => none, 0, fun _ => 0⟩

/-- A server on which 9999 ids were drawn and every job is finished and gone. -/
def fullCounter : Server :=
  noCounter.setKey counterKey (some ⟨.string (.plain (toString (9999 : ℤ))), none⟩)

def videoJob : NewJob where
  serviceName := "video"
  source := "api"
  prompt := ""
  maxTokens := 0

/-- Two clients draw their ids before either of them creates its job, and the jobs, unfinished
together, are finished in the other order. -/
def overlapping : List (Label TrackerOp) :=
  [.start (.submit videoJob "t"), .start (.submit videoJob "t"), .act 0, .act 1, .act 1, .act 0,
    .act 0, .act 1, .start (.finish (jobIdOf 2) "completed" "u" .none (Or.inl rfl)),
    .start (.finish (jobIdOf 1) "failed" "u" .none (Or.inr (Or.inl rfl))),
    .act 2, .act 2, .act 3, .act 3]

/-- An increment draws an id that nobody has. -/
theorem along_incr {ledger : IdLedger} {clients : List (Action Unit)} {i : ℕ} {n : ℤ}
    {jobId : String} {k : Except String ℤ → Action Unit} {ls : List (Label TrackerOp)}
    (hget : clients[i]? = some (.call (.incr counterKey) k))
    (hexec : exec (.incr counterKey) s = (.ok n, s')) (hval : idWithin n = some jobId)
    (hfree : ¬ Unfinished s (jobKey jobId))
    (hheld : ∀ held ∈ ledger.holding, held.2 = jobId → held.1 = i)
    (h : Along IdLedger.FreshDraw IdLedger.note (ledger.draw i (some jobId))
      (trackerSystem.trace ⟨s', clients.set i (k (.ok n))⟩ ls)) :
    Along IdLedger.FreshDraw IdLedger.note ledger
      (trackerSystem.trace ⟨s, clients⟩ (.act i :: ls)) := by
  have hpending : System.pending (⟨s, clients⟩ : Config Server Cmd (fun c => Except String c.Reply)
      QueueError Unit) (.act i : Label TrackerOp) = some (.incr counterKey) := by
    simp [System.pending, hget]
  have hstep : trackerSystem.step ⟨s, clients⟩ (.act i) = ⟨s', clients.set i (k (.ok n))⟩ := by
    exact @System.step_act _ _ _ _ _ _ _ _ trackerSystem ⟨s, clients⟩ _ _ _ hget hexec
  have hsettled : settledId (.incr counterKey) (exec (.incr counterKey) s).1 = some jobId := by
    rw [hexec]
    exact hval
  rw [System.trace, hpending]
  refine ⟨?_, ?_⟩
  · unfold IdLedger.FreshDraw
    simp only [hsettled]
    exact ⟨hfree, hheld⟩
  · rw [hstep]
    show Along _ _ (ledger.draw i (settledId _ (exec (.incr counterKey) s).1)) _
    rw [hsettled]
    exact h

theorem overlapping_fresh : Along IdLedger.FreshDraw IdLedger.note {}
    (trackerSystem.trace ⟨noCounter, []⟩ overlapping) := by
  show Along IdLedger.FreshDraw IdLedger.note {} (trackerSystem.trace
    ⟨noCounter, [submitJob videoJob "t", submitJob videoJob "t"]⟩ (.act 0 :: .act 1 :: _))
  refine along_incr (n := 1) rfl rfl rfl (by decide +kernel) (by decide) ?_
  refine along_incr rfl (incr_of_number (n := 1) rfl) rfl (by decide +kernel) (by decide +kernel) ?_
  decide +kernel

/-- Two jobs that are unfinished together have an id each. -/
theorem overlapping_unshared :
    Along IdLedger.FreshDraw IdLedger.note {} (trackerSystem.trace ⟨noCounter, []⟩ overlapping) ∧
      ∀ ls', ls' <+: overlapping → IdsUnshared (trackerSystem.trace ⟨noCounter, []⟩ ls') :=
  ⟨overlapping_fresh, ids_unshared noCounter overlapping overlapping_fresh⟩

/-- Two clients increment past the end before either of them sets the counter back. -/
def wrapTogether : List (Label TrackerOp) :=
  [.start (.submit videoJob "t"), .start (.submit videoJob "t"), .act 0, .act 1,
    .act 0, .act 0, .act 0, .act 1, .act 1, .act 0]

def submitWith (jobId : Option String) : Action Unit :=
  match jobId with
  | none => pure ()
  | some jobId => discard (JobTracker.createJob jobId videoJob "t")

/-- A client that is drawing its id executes one more round trip. -/
theorem run_drawing {P : Config Server Cmd (fun c => Except String c.Reply) QueueError Unit → Prop}
    {clients : List (Action Unit)} {i : ℕ} {ls : List (Label TrackerOp)}
    {k : c.Reply → Action (Option String)} {r : c.Reply}
    (hget : clients[i]? = some (catching isRedisError none (redis c >>= k) >>= submitWith))
    (hexec : exec c s = (.ok r, s')) (h : P (trackerSystem.run
      ⟨s', clients.set i (catching isRedisError none (k r) >>= submitWith)⟩ ls)) :
    P (trackerSystem.run ⟨s, clients⟩ (.act i :: ls)) := by
  have hstep : trackerSystem.step ⟨s, clients⟩ (.act i) =
      ⟨s', clients.set i (catching isRedisError none (k r) >>= submitWith)⟩ := by
    exact @System.step_act _ _ _ _ _ _ c i trackerSystem ⟨s, clients⟩ _ (.ok r) s' hget hexec
  rw [System.run_cons, hstep]
  exact h

/-- The second client is about to create its job over an unfinished one. -/
def Overwrites (cfg : Config Server Cmd (fun c => Except String c.Reply) QueueError Unit) : Prop :=
  ∃ fields, System.pending cfg (.act 1 : Label TrackerOp) =
      some (.hset (jobKey (jobIdOf 1)) fields) ∧
    Unfinished cfg.store (jobKey (jobIdOf 1))

theorem wrapTogether_overwrites :
    Overwrites (trackerSystem.run ⟨fullCounter, []⟩ wrapTogether) := by
  show Overwrites (trackerSystem.run
    ⟨fullCounter, [submitJob videoJob "t", submitJob videoJob "t"]⟩
    [.act 0, .act 1, .act 0, .act 0, .act 0, .act 1, .act 1, .act 0])
  refine run_drawing (c := .incr counterKey) rfl (incr_of_number rfl) ?_
  refine run_drawing (c := .incr counterKey) rfl (incr_of_number rfl) ?_
  refine run_drawing (c := .watch counterKey) rfl rfl ?_
  refine run_drawing (c := .get counterKey) rfl rfl ?_
  -- The first client reads 10001, and sets the counter back.
  have hfirst := counterValue_toString 10001
  show Overwrites (trackerSystem.run ⟨_, [catching isRedisError none
    (raising (counterValue (some (.plain (toString (10001 : ℕ))))) >>= _) >>= submitWith, _]⟩ _)
  rw [hfirst]
  refine run_drawing (c := .execSet counterKey _ _) rfl rfl ?_
  refine run_drawing (c := .watch counterKey) rfl rfl ?_
  refine run_drawing (c := .get counterKey) rfl rfl ?_
  -- The second one reads 1, which is not past the end.
  have hsecond := counterValue_toString 1
  show Overwrites (trackerSystem.run ⟨_, [_, catching isRedisError none
    (raising (counterValue (some (.plain (toString (1 : ℕ))))) >>= _) >>= submitWith]⟩ _)
  rw [hsecond]
  refine ⟨videoJob.fields (jobIdOf 1) "t", rfl, ?_⟩
  decide +kernel

/-- Both clients create their job as the first one. -/
theorem wrapTogether_shared :
    ¬ IdsUnshared (trackerSystem.trace ⟨fullCounter, []⟩ (wrapTogether ++ [.act 1])) := by
  intro h
  obtain ⟨fields, hpending, hunfinished⟩ := wrapTogether_overwrites
  exact h.kept _ (trackerSystem.mem_trace_of_pending hpending) _ _ rfl hunfinished

end GpuManager.Queue
