import GpuManager.Broker.Commands
import GpuManager.Broker.Leases

/-!
# Which stuck attempts can be repaired

`reconcile_dead_job` takes a job whose dispatcher has died out of its active state: back to
the queue before acceptance, to `outcome_unknown` after it.  The script writes a repair hash
for the job in the same step, and refuses whenever that hash is there: repair is remembered
for each job, not for each attempt.

A job that was repaired before acceptance is queued again, is claimed again, and its new
attempt may die too.  No fence, however large, repairs that one.  The theorem of this module
says that this is the only way in which a repair can fail: it commits, with everything that
it should do, if and only if none has committed for the job before.

For the other direction the repair needs a member to take the lease from, and it reads the
name of the member from the record.  That a record with an attempt names a member is an
invariant of every run; the record of a `replace_job` has it because the dispatcher and the
reconciler build it from a record that has it.
-/

namespace GpuManager.Broker

open AtomicProgram Lua Store Function

def JobRecord.Named (job : JobRecord) : Prop :=
  (truthy job.currentAttemptId).isSome → (truthy job.selectedMember).isSome

theorem JobRecord.named_of_none {job : JobRecord} (h : job.currentAttemptId = none) :
    job.Named := by
  intro hsome
  rw [h] at hsome
  cases hsome

/-! ## What the clients write -/

def NamedReply : (c : Cmd) → c.Reply → Prop
  | .getJob _, r => ∀ job, r = some job → job.Named
  | _, _ => True

/-- As long as a client has read named records only, it stores named records only. -/
def namingMonitor : Prog.Monitor Prop Cmd Cmd.Reply where
  ok l c := l → ∀ job, c.carried = some job → job.Named
  next l c r := l ∧ NamedReply c r

def NamedOutcome (_ : Prop) (r : Except BrokerError Outcome) : Prop :=
  ∀ reservation, r = .ok (.reservation (some reservation)) → reservation.job.Named

section Obeys

variable {α β : Type} {l : Prop} {Q : Prop → Except BrokerError α → Prop} {p : Action α}

theorem obeys_of_issues {P : Cmd → Prop} (hp : p.Issues P)
    (hP : ∀ c, P c → ∀ job, c.carried = some job → job.Named) (hQ : ∀ l r, Q l r) :
    p.Obeys namingMonitor Q l := by
  induction hp generalizing l with
  | done r => exact .done (hQ l r)
  | call head tail ih => exact .call (fun _ => hP _ head) fun r => ih r

theorem obeys_of_plain (hp : Plain p) (hQ : ∀ l r, Q l r) :
    p.Obeys namingMonitor Q l := by
  refine obeys_of_issues hp (fun c hc job heq => ?_) hQ
  rw [hc] at heq
  cases heq

theorem obeys_get {id : String} {k : Option JobRecord → Action α}
    (hnone : ∀ l', (k none).Obeys namingMonitor Q l')
    (hsome : ∀ l' job, (l' → l) → (l' → job.Named) → (k (some job)).Obeys namingMonitor Q l') :
    (RedisJobRepository.get id >>= k).Obeys namingMonitor Q l := by
  refine .call (fun _ _ heq => by cases heq) fun r => ?_
  cases r with
  | none => exact hnone _
  | some job => exact hsome _ job And.left fun hl => hl.2 job rfl

/-- A command that stores no record as it is given. -/
theorem obeys_redis {c : Cmd} {k : c.Reply → Action α} (hc : c.carried = none)
    (hk : ∀ l' r, (l' → l) → (k r).Obeys namingMonitor Q l') :
    (redis c >>= k).Obeys namingMonitor Q l := by
  refine .call (fun _ job heq => ?_) fun r => hk _ r And.left
  rw [heq] at hc
  cases hc

end Obeys

namespace RedisJobRepository

variable (repo : RedisJobRepository) {l : Prop} {job : JobRecord}

theorem replaceJob_obeys {Q : Prop → Except BrokerError JobRecord → Prop}
    (hjob : l → job.Named) (hQ : ∀ l' r, (l' → l) → Q l' r) :
    (repo.replaceJob job).Obeys namingMonitor Q l := by
  unfold replaceJob
  split
  · exact .done (hQ _ _ id)
  have hattempt : (attemptForJob job).Obeys namingMonitor (fun l' _ => l' → l) l := by
    unfold attemptForJob
    split
    · refine obeys_redis rfl fun l' r hl => ?_
      split <;> exact .done hl
    · exact .done id
  refine hattempt.bind (fun l' attempt hl => ?_) fun l' e hl => hQ _ _ hl
  refine .call ?_ fun r => ?_
  · rintro hl' _ ⟨⟩
    exact hjob (hl hl')
  · rcases r with e | u
    · cases e <;> exact .done (hQ _ _ fun h => hl h.1)
    · exact .done (hQ _ _ fun h => hl h.1)

theorem reserveFrom_obeys (selected : JobRecord) (now : ℚ) (leaderOwner : String)
    (fencingToken : ℤ) (backendUrl : Option String) (candidates : List Candidate)
    (staleSeen : Bool) :
    (reserveFrom selected now leaderOwner fencingToken backendUrl candidates staleSeen).Obeys
      namingMonitor (fun _ r => ∀ reservation, r = .ok (some reservation) →
        reservation.job.Named) l := by
  induction candidates generalizing staleSeen l with
  | nil =>
    unfold reserveFrom
    split <;> exact .done fun _ h => by cases h
  | cons c rest ih =>
    unfold reserveFrom
    simp only
    split
    · exact .done fun _ h => by cases h
    rename_i hvalid
    refine obeys_redis rfl fun l' r _ => ?_
    split
    case h_1 =>
      refine .done fun reservation hres => ?_
      cases hres
      intro _
      have hmember := (ne_empty_of_validAttempt hvalid).2
      simpa [ReserveArgs.claimed, ReserveArgs.attempt, truthy] using hmember
    case h_4 => exact ih true
    all_goals exact .done fun _ h => by cases h

theorem reserveNext_obeys (now : ℚ) (members : List Candidate)
    (requirements : RequestRequirements) (leaderOwner : String) (fencingToken : ℤ)
    (backendUrl : Option String) :
    (repo.reserveNext now members requirements leaderOwner fencingToken backendUrl).Obeys
      namingMonitor (fun _ r => ∀ reservation, r = .ok (some reservation) →
        reservation.job.Named) l := by
  refine Prog.Obeys.bind (Q := fun _ _ => True)
    (obeys_of_plain (peekNext_plain repo now) fun _ _ => trivial) (fun l' selected _ => ?_)
    fun l' e _ _ h => by cases h
  split
  · exact .done fun _ h => by cases h
  · exact reserveFrom_obeys _ _ _ _ _ _ _

variable {forwardAt : ℚ} {d : DispatchState} {reservation : Reservation}

/-- The copy that the dispatcher holds stays named. -/
theorem onAccepted_obeys (hd : l → d.current.Named) :
    (repo.onAccepted forwardAt d).Obeys namingMonitor
      (fun l' r => (l' → l) ∧ ∀ out, r = .ok out → l' → out.2.current.Named) l := by
  unfold onAccepted
  split
  · exact .done ⟨id, fun out h hl => by cases h; exact hd hl⟩
  have hwritten : (repo.replaceJob (acceptedJob d.current forwardAt)).Obeys namingMonitor
      (fun l' _ => l' → l) l :=
    replaceJob_obeys repo (fun hl => hd hl) fun _ _ hl => hl
  refine hwritten.attempt.bind ?_ ?_
  · rintro l' r ⟨r', hr, hl⟩
    exact .done ⟨hl, fun out h hl' => by cases h; exact hd (hl hl')⟩
  · rintro l' e ⟨r', hr, hl⟩
    cases hr

theorem send_obeys (transport : Transport) (hd : l → d.current.Named) :
    (repo.send forwardAt transport d).Obeys namingMonitor
      (fun l' r => (l' → l) ∧ ∀ out, r = .ok out → l' → out.2.current.Named) l := by
  induction transport generalizing d l with
  | respond response | raise e => exact .done ⟨id, fun out h hl => by cases h; exact hd hl⟩
  | accept returned raised ihr ihe =>
    unfold send
    refine (onAccepted_obeys repo hd).bind (fun l' out hafter => ?_)
      fun l' e hafter => ⟨hafter.1, fun _ h => by cases h⟩
    obtain ⟨hl, hout⟩ := hafter
    obtain ⟨callback, d'⟩ := out
    have hd' : l' → d'.current.Named := hout _ rfl
    cases callback with
    | ok u => exact (ihr hd').mono fun l'' r hr => ⟨fun h => hl (hr.1 h), hr.2⟩
    | error e => exact (ihe e hd').mono fun l'' r hr => ⟨fun h => hl (hr.1 h), hr.2⟩

theorem finishReservation_obeys (hjob : l → job.Named) :
    (repo.finishReservation reservation job).Obeys namingMonitor (fun _ _ => True) l := by
  refine (replaceJob_obeys repo hjob fun _ _ _ => trivial).bind (fun l' replaced _ => ?_)
    fun _ _ _ => trivial
  refine Prog.Obeys.bind (Q := fun _ _ => True) ?_ (fun _ _ _ => .done trivial)
    fun _ _ _ => trivial
  refine obeys_of_plain ?_ fun _ _ => trivial
  unfold releaseReservationLease
  split
  · exact Prog.issues_bind (releaseMemberLease_plain _ _ _ _) fun _ => plain_pure _
  · exact plain_pure _

theorem afterSend_obeys {completedAt : ℚ} (sent : Except BrokerError String)
    (hd : l → d.current.Named) :
    (repo.afterSend reservation forwardAt completedAt sent d).Obeys namingMonitor
      (fun _ _ => True) l := by
  unfold afterSend
  split
  · exact .done trivial
  · exact .done trivial
  · exact .done trivial
  · split
    · exact finishReservation_obeys repo fun hl => hd hl
    · exact obeys_of_plain (requeueClaim_plain repo _ _ _) fun _ _ => trivial
  · refine (onAccepted_obeys repo hd).bind (fun l' out ⟨_, hout⟩ => ?_) fun _ _ _ => trivial
    obtain ⟨callback, d'⟩ := out
    have hd' : l' → d'.current.Named := hout _ rfl
    cases callback with
    | error e => exact .done trivial
    | ok u =>
      unfold completeDispatch
      simp only
      split <;> exact finishReservation_obeys repo fun hl => hd' hl

theorem dispatch_obeys (hreservation : reservation.job.Named) (transport : Transport)
    (forwardAt completedAt : ℚ) :
    (repo.dispatch reservation transport forwardAt completedAt).Obeys namingMonitor
      (fun _ _ => True) l := by
  have hcurrent : ∀ (l' : Prop) (current : JobRecord), (l' → current.Named) →
      (repo.dispatchCurrent reservation transport forwardAt completedAt current).Obeys
        namingMonitor (fun _ _ => True) l' := by
    intro l' current hnamed
    unfold dispatchCurrent
    split
    · exact replaceJob_obeys repo (fun hl => hnamed hl) fun _ _ _ => trivial
    refine (send_obeys repo transport (d := ⟨false, current⟩) hnamed).bind
      (fun l'' out ⟨_, hout⟩ => ?_) fun _ _ _ => trivial
    exact afterSend_obeys repo out.1 (hout _ rfl)
  unfold dispatch
  refine obeys_get (fun l' => ?_) fun l' job _ hjob => ?_
  · exact hcurrent l' _ fun _ => hreservation
  · exact hcurrent l' _ hjob

theorem repair_obeys (jobId : String) (evidence : CrashEvidence) (repairOwner : String)
    (repairFence : ℤ) :
    (repo.repair jobId evidence repairOwner repairFence).Obeys namingMonitor
      (fun _ _ => True) l := by
  have hclosed : ∀ (l' : Prop) (repaired : JobRecord),
      (redis (.completeRepair jobId repairOwner repairFence) >>= fun _ => pure repaired :
        Action JobRecord).Obeys namingMonitor (fun _ _ => True) l' :=
    fun _ _ => obeys_of_plain (plain_redis rfl fun _ => plain_pure _) fun _ _ => trivial
  unfold repair
  refine obeys_get (fun l' => .done trivial) fun l' current _ hnamed => ?_
  simp only
  split
  · exact .done trivial
  split
  · exact .done trivial
  split
  · exact .done trivial
  refine obeys_redis rfl fun l'' acquired hl => ?_
  split
  · exact obeys_of_plain (plain_redis rfl fun _ => plain_pure _) fun _ _ => trivial
  split
  · have hreplaced : (repo.replaceJob (repairedAfterAcceptance current)).Obeys
        namingMonitor (fun _ _ => True) l'' :=
      replaceJob_obeys repo (fun h => hnamed (hl h)) fun _ _ _ => trivial
    exact hreplaced.bind (fun l₃ repaired _ => hclosed l₃ repaired) fun _ _ _ => trivial
  · have hrequeued := obeys_of_plain (l := l'') (Q := fun _ _ => True)
      (requeueClaim_plain repo current .preAcceptanceRequeue none) fun _ _ => trivial
    exact hrequeued.bind (fun l₃ repaired _ => hclosed l₃ repaired) fun _ _ _ => trivial

end RedisJobRepository

open RedisJobRepository in
/-- Every call replaces jobs by named records only, if the reservations it takes over are
named, and returns named reservations only. -/
theorem launch_obeys {results : ℕ → Option (Except BrokerError Outcome)}
    (hresults : ∀ i r, results i = some r → ∃ l, NamedOutcome l r)
    {op : RedisJobRepository × Op} {p : Action Outcome} (h : launch results op = some p) :
    p.Obeys namingMonitor NamedOutcome True := by
  obtain ⟨repo, op⟩ := op
  have hjob : ∀ {q : Action JobRecord}, q.Obeys namingMonitor (fun _ _ => True) True →
      (Outcome.job <$> q).Obeys namingMonitor NamedOutcome True := by
    intro q hq
    refine hq.bind (fun l a _ => .done fun reservation heq => ?_) fun l e _ reservation heq => ?_
    all_goals
      cases heq
  rcases launch_cases h with ⟨α, q, f, hq, hf, rfl⟩ | ⟨job, scope, -, rfl⟩ |
    ⟨now, members, requirements, owner, token, url, rfl⟩ |
    ⟨reserver, transport, forwardAt, completedAt, reservation, hres, rfl⟩ |
    ⟨jobId, evidence, owner, fence, rfl⟩
  · refine (obeys_of_plain (Q := fun _ _ => True) hq fun _ _ => trivial).bind
      (fun l a _ => .done fun reservation heq => ?_) fun l e _ reservation heq => ?_
    · exact absurd (Except.ok.inj heq) (hf a reservation)
    · cases heq
  · refine hjob (obeys_of_issues (submit_issues repo _ _) ?_ fun _ _ => trivial)
    rintro c (hc | hc) job' heq
    · rw [hc] at heq
      cases heq
    · obtain rfl := Option.some.inj (hc.symm.trans heq)
      exact JobRecord.named_of_none rfl
  · refine (reserveNext_obeys repo now members requirements owner token url).bind
      (fun l a ha => .done fun reservation heq => ?_) fun l e _ reservation heq => ?_
    · cases heq
      exact ha reservation rfl
    · cases heq
  · refine hjob (dispatch_obeys repo ?_ transport forwardAt completedAt)
    obtain ⟨l, hnamed⟩ := hresults reserver _ (eq_of_reservationOf hres)
    exact hnamed reservation rfl
  · exact hjob (repair_obeys repo jobId evidence owner fence)

/-! ## The stored records are named -/

/-- Every stored record that names an attempt names a member. -/
def Store.Named (s : Store) : Prop :=
  ∀ id h, s.jobs id = some h → h.record.Named

section Named

variable {A : Assumption} {s : Store} {job : JobRecord}

theorem JobRecord.Named.of_fields {job' : JobRecord} (h : job.Named)
    (hattempt : job'.currentAttemptId = job.currentAttemptId)
    (hmember : job'.selectedMember = job.selectedMember) : job'.Named := by
  unfold JobRecord.Named
  rw [hattempt, hmember]
  exact h

theorem Store.Named.update {s' : Store} (hN : s.Named) {id : String} {h' : JobHash}
    (hjobs : s'.jobs = update s.jobs id (some h')) (h : h'.record.Named) : s'.Named := by
  intro id' h'' hj
  rw [hjobs] at hj
  by_cases hid : id' = id
  · subst hid
    rw [update_self] at hj
    exact Option.some.inj hj ▸ h
  · rw [update_of_ne hid] at hj
    exact hN _ _ hj

/-- The stored record at the version of a copy is named, so the copy is. -/
theorem Copy.named (hc : Copy job s) (hN : s.Named) {h : JobHash}
    (hj : s.jobs job.jobId = some h) (hv : h.stateVersion = job.stateVersion) : job.Named := by
  have heq := hc.record_eq hj hv
  refine (hN _ _ hj).of_fields ?_ ?_ <;> rw [heq]

theorem RepairArgs.repaired_named {a : RepairArgs} (h : a.current.Named) :
    a.repaired.Named := by
  unfold RepairArgs.repaired
  split
  · exact h.of_fields rfl rfl
  · exact JobRecord.named_of_none rfl

/-- **One command.**  Every record that is written is named: it is new, a reservation for a
member, taken back from its member, or built from a named copy. -/
theorem exec_named {c : Cmd} (hp : Promise A c s)
    (hcarried : ∀ job, c.carried = some job → job.Named)
    (hN : s.Named) : (exec c s).2.Named := by
  have heffect := exec_effect c s
  generalize (exec c s).2 = t at heffect ⊢
  cases heffect with
  | submitted => exact hN.update rfl (hcarried _ rfl)
  | cancelled found state version =>
    exact hN.update rfl ((Copy.named hp hN found version).of_fields rfl rfl)
  | reserved =>
    refine hN.update rfl fun _ => ?_
    have hname := ReservePromise.member_ne hp
    simpa [ReserveArgs.claimed, truthy] using hname
  | @requeued a h s₁ t found active member =>
    obtain ⟨hjobs, -⟩ := requeueMember_frame member
    have hN₁ : s₁.Named := fun id h hj => hN id h (hjobs ▸ hj)
    exact hN₁.update rfl (JobRecord.named_of_none rfl)
  | @replaced job attempt retention h =>
    refine hN.update rfl ?_
    rw [(replacedHash_fields job h).1]
    exact hcarried job rfl
  | @repaired a h found version =>
    exact hN.update (repairCommit_jobs a h s)
      (RepairArgs.repaired_named (hp.copy.named hN found version))
  | _ => exact hN

end Named

theorem Store.Named.reply {s : Store} (hN : s.Named) (c : Cmd) : NamedReply c (exec c s).1 := by
  cases c with
  | getJob id =>
    intro job heq
    obtain ⟨h, hj, rfl⟩ := Option.map_eq_some_iff.mp heq
    exact hN id h hj
  | _ => trivial

/-- **Every run.**  The stored records are named, because every client has read named records
only. -/
theorem stored_named (labels : List BrokerLabel) : (broker.run idle labels).store.Named := by
  have hlaunches : ∀ results (op : RedisJobRepository × Op) p,
      (∀ i r, results i = some r → ∃ l, NamedOutcome l r) → True →
      broker.launch results op = some p → p.Obeys namingMonitor NamedOutcome True :=
    fun results op p hresults _ hp => launch_obeys hresults hp
  have hobeys : ∀ earlier x later, broker.trace idle labels = earlier ++ x :: later →
      namingMonitor.ok (broker.locals namingMonitor (fun _ => True) earlier x.1) x.2.cmd :=
    (broker.obeys_run hlaunches (fun i p hp => by cases hp) (fun _ _ => rfl)
      fun _ _ => trivial).1
  obtain ⟨-, hend⟩ :
      (∀ earlier x later, broker.trace idle labels = earlier ++ x :: later →
        (∀ i, broker.locals namingMonitor (fun _ => True) earlier i) ∧ x.2.before.Named) ∧
      (∀ i, broker.locals namingMonitor (fun _ => True) (broker.trace idle labels) i) ∧
        (broker.run idle labels).store.Named := by
    refine broker.trace_induction
      (fun trace s => (∀ i, broker.locals namingMonitor (fun _ => True) trace i) ∧ s.Named) ?_ ?_
    · exact ⟨fun _ => trivial, fun _ _ hj => by cases hj⟩
    · rintro earlier ⟨i, e⟩ later htrace ⟨hlocals, hN⟩
      have he : e ∈ broker.history idle labels := by
        rw [← broker.trace_map_snd, htrace]
        simp
      refine ⟨fun j => ?_, exec_named (broker_promise he).2 (hobeys _ _ _ htrace (hlocals i)) hN⟩
      rw [System.locals_concat]
      by_cases hj : j = i
      · subst hj
        rw [update_self]
        exact ⟨hlocals j, hN.reply e.cmd⟩
      · rw [update_of_ne hj]
        exact hlocals j
  exact hend.2

/-! ## The repair hash -/

def Cmd.repair : Cmd → Option RepairArgs
  | .repairDeadJob a => some a
  | _ => none

theorem Cmd.eq_of_repair {c : Cmd} {a : RepairArgs} (h : a ∈ c.repair) :
    c = .repairDeadJob a := by
  cases c with
  | repairDeadJob a' => rw [Option.some.inj h]
  | _ => cases h

/-- The executed command is a repair of the job, and it commits. -/
def RepairedBy (id : String) (e : Event Store Cmd) : Prop :=
  ∃ a ∈ e.cmd.repair, a.current.jobId = id ∧
    (repairDeadJob a e.before).1 = .ok .repaired

instance (id : String) (e : Event Store Cmd) : Decidable (RepairedBy id e) :=
  inferInstanceAs (Decidable (∃ a ∈ e.cmd.repair, _))

/-- Only `repair_dead_job.lua` writes a repair hash. -/
theorem exec_repairs {c : Cmd} (hc : ∀ a, c ≠ .repairDeadJob a) (s : Store) :
    (exec c s).2.repairs = s.repairs := by
  have heffect := exec_effect c s
  generalize (exec c s).2 = t at heffect ⊢
  cases heffect with
  | repaired => exact absurd rfl (hc _)
  | requeued found active member => exact (requeueMember_frame member).2.2.2.2.2.2
  | _ => rfl

/-- A repair that commits writes a completed hash for its job, and nothing else writes one. -/
theorem repairs_cases (id : String) (e : Event Store Cmd) :
    (¬ RepairedBy id e ∧ (exec e.cmd e.before).2.repairs id = e.before.repairs id) ∨
      RepairedBy id e ∧ ∃ owner fence,
        (exec e.cmd e.before).2.repairs id = some ⟨owner, fence, .completed⟩ := by
  obtain ⟨c, s⟩ := e
  by_cases hc : ∃ a, c = .repairDeadJob a
  · obtain ⟨a, rfl⟩ := hc
    rcases repairDeadJob_cases a s with ⟨hreply, heq⟩ | ⟨h, -, -, -, heq⟩
    · refine Or.inl ⟨?_, congrArg (fun t => t.repairs id) heq⟩
      rintro ⟨a', hcmd, -, hreply'⟩
      obtain rfl := Cmd.repairDeadJob.inj (Cmd.eq_of_repair hcmd)
      exact hreply hreply'
    · have hrepairs := (congrArg (fun r => r.2.repairs id) heq).trans
        (congrFun (repairCommit_repairs a h s) id)
      by_cases hid : a.current.jobId = id
      · subst hid
        exact Or.inr ⟨⟨a, rfl, rfl, congrArg Prod.fst heq⟩, a.owner, a.fence,
          hrepairs.trans (update_self ..)⟩
      · refine Or.inl ⟨?_, hrepairs.trans (update_of_ne (Ne.symm hid) ..)⟩
        rintro ⟨a', hcmd, hid', -⟩
        obtain rfl := Cmd.repairDeadJob.inj (Cmd.eq_of_repair hcmd)
        exact hid hid'
  · refine Or.inl ⟨?_, congrFun (exec_repairs (fun a h => hc ⟨a, h⟩) s) id⟩
    rintro ⟨a, hcmd, -⟩
    exact hc ⟨a, Cmd.eq_of_repair hcmd⟩

/-- What the repair hash of a job says about the commands executed so far. -/
structure RepairNoted (id : String) (trace : List (ℕ × Event Store Cmd)) (s : Store) : Prop where
  none_iff : s.repairs id = none ↔ ∀ x ∈ trace, ¬ RepairedBy id x.2
  completed : ∀ r, s.repairs id = some r → r.status = .completed

theorem RepairNoted.step {id : String} {trace : List (ℕ × Event Store Cmd)}
    {x : ℕ × Event Store Cmd} (h : RepairNoted id trace x.2.before) :
    RepairNoted id (trace ++ [x]) (exec x.2.cmd x.2.before).2 := by
  rcases repairs_cases id x.2 with ⟨hx, heq⟩ | ⟨hx, owner, fence, heq⟩
  · refine ⟨?_, fun r hr => h.completed r (heq ▸ hr)⟩
    rw [heq, h.none_iff]
    simp [or_imp, forall_and, hx]
  · refine ⟨⟨fun hnone => ?_, fun hall => ?_⟩, fun r hr => ?_⟩
    · rw [heq] at hnone
      cases hnone
    · exact absurd hx (hall x (by simp))
    · rw [heq] at hr
      exact Option.some.inj hr ▸ rfl

/-- **Every run.**  A job has a repair hash exactly when a repair of it has committed, and
the hash is the one of a completed repair. -/
theorem repairNoted (labels : List BrokerLabel) (id : String) :
    RepairNoted id (broker.trace idle labels) (broker.run idle labels).store := by
  refine (broker.trace_induction (RepairNoted id) ?_ fun earlier x later _ h => h.step).2
  exact ⟨⟨fun _ x hx => (by cases hx), fun _ => rfl⟩, fun _ hr => (by cases hr)⟩

/-! ## The repair of a stuck attempt -/

/-- The job is past acceptance. -/
def JobHash.PostAcceptance (h : JobHash) : Prop :=
  h.record.acceptedBoundaryCrossed = true ∨ h.state = .accepted ∨ h.state = .inFlight

/-- The job has an attempt that is under way, and the record of the attempt is there. -/
structure Stuck (s : Store) (id : String) (h : JobHash) (attemptId : String) : Prop where
  job : s.jobs id = some h
  active : h.state.IsActive
  attempt : truthy h.record.currentAttemptId = some attemptId
  present : (s.attempts attemptId).isSome

/-- What `reconcile_dead_job` has to do for a stuck attempt: the returned record is stored,
it is queued before acceptance and `outcome_unknown` after it, and the lease of the attempt is
gone from the member of the job. -/
structure RepairCommits (id : String) (h : JobHash) (attemptId : String)
    (out : Except BrokerError JobRecord × Store) : Prop where
  stored : ∃ job h', out.1 = .ok job ∧ out.2.jobs id = some h' ∧ h'.record = job ∧
    h'.state = job.state ∧
    (h.PostAcceptance → job.state = .outcomeUnknown) ∧ (¬ h.PostAcceptance → job.state = .queued)
  released : ∃ name, truthy h.record.selectedMember = some name ∧
    attemptId ∉ out.2.leases name

section Repair

variable {A : Assumption} {s : Store} {id attemptId : String} {h : JobHash} {owner : String}

/-- What `reconcile_dead_job` passes to its script for a stuck attempt. -/
def repairArgs (repo : RedisJobRepository) (owner : String) (fence : ℤ) (h : JobHash)
    (name : String) (t : AttemptHash) : RepairArgs :=
  { owner := owner
    fence := fence
    current := h.record
    attempt := t.record
    memberName := name
    retention := repo.terminalAttemptRetentionSeconds }

/-- `reconcile_dead_job` of an active job runs the repair script once. -/
theorem run_reconcileDeadJob (repo : RedisJobRepository) {fence : ℤ}
    (howner : owner ≠ "") (hfence : 0 < fence) {name : String} {t : AttemptHash}
    (hj : s.jobs id = some h) (hactive : h.record.state.IsActive)
    (hname : truthy h.record.selectedMember = some name)
    (hattempt : truthy h.record.currentAttemptId = some attemptId)
    (ht : s.attempts attemptId = some t) :
    (repo.reconcileDeadJob id owner fence).run exec s =
      match repairDeadJob (repairArgs repo owner fence h name t) s with
      | (.ok .repaired, s') => (.ok (repairArgs repo owner fence h name t).repaired, s')
      | (.ok _, s') => (.ok (((s'.jobs id).map JobHash.record).getD h.record), s')
      | (.error .unknownJobId, s') => (.error (.contractError ("UNKNOWN_JOB_ID:" ++ id)), s')
      | (.error .jobStateVersionStale, s') =>
        (.error (.reservationStale "JOB_STATE_VERSION_STALE"), s')
      | (.error _, s') => (.error .repositoryUnavailable, s') := by
  unfold RedisJobRepository.reconcileDeadJob RedisJobRepository.get RedisJobRepository.getAttempt
  have hargs : ¬ (owner = "" ∨ fence ≤ 0) := by
    rintro (h | h)
    · exact howner h
    · omega
  have hstate : ¬ (h.record.state = .queued ∨ h.record.state.IsTerminal) := by
    rintro (hq | hterm)
    · rw [hq] at hactive
      exact absurd hactive (by decide)
    · revert hactive hterm
      cases h.record.state <;> decide
  rw [if_neg hargs]
  simp only [redis, Prog.bind_perform, Prog.run, exec, hj, Option.map_some, if_neg hstate, hname,
    hattempt, ht]
  unfold repairArgs
  generalize repairDeadJob _ s = r
  obtain ⟨reply, s'⟩ := r
  rcases reply with e | reply
  · cases e <;> rfl
  · cases reply <;> rfl

/-- `post_acceptance` of the script is the one of the job. -/
theorem postAcceptance_iff (hcoh : h.Coherent id s) {a : RepairArgs}
    (hcurrent : a.current = h.record) : a.postAcceptance = true ↔ h.PostAcceptance := by
  simp [RepairArgs.postAcceptance, JobHash.PostAcceptance, hcurrent, hcoh.state, or_assoc]

/-- **The repair of a stuck attempt** of a job that names its member: it commits exactly when
the job has no repair hash. -/
theorem repair_commits_iff (repo : RedisJobRepository) {fence : ℤ}
    (howner : owner ≠ "") (hfence : 0 < fence) (hI : s.Coherent A) (hN : s.Named)
    (hcompleted : ∀ r, s.repairs id = some r → r.status = .completed)
    (hstuck : Stuck s id h attemptId) :
    RepairCommits id h attemptId ((repo.reconcileDeadJob id owner fence).run exec s) ↔
      s.repairs id = none := by
  have hcoh := hI.job hstuck.job
  obtain ⟨t, ht⟩ := Option.isSome_iff_exists.mp hstuck.present
  obtain ⟨name, hname⟩ := Option.isSome_iff_exists.mp
    (hN id h hstuck.job (by rw [hstuck.attempt]; rfl))
  rw [run_reconcileDeadJob repo howner hfence hstuck.job (hcoh.state ▸ hstuck.active) hname
    hstuck.attempt ht]
  have hid : (repairArgs repo owner fence h name t).current.jobId = id := hcoh.jobId
  cases hprior : s.repairs id with
  | none =>
    have hrun : repairDeadJob (repairArgs repo owner fence h name t) s =
        (.ok .repaired, repairCommit (repairArgs repo owner fence h name t) h s) := by
      unfold repairDeadJob
      simp only [hid, hstuck.job, hprior]
      rw [if_neg (by simp [repairArgs]; omega), if_neg (by simp [repairArgs, hcoh.stateVersion]),
        if_neg (not_not.mpr hstuck.active)]
    rw [hrun]
    have hpost := postAcceptance_iff hcoh (a := repairArgs repo owner fence h name t) rfl
    refine iff_of_true ⟨⟨_, repairedHash (repairArgs repo owner fence h name t) h, rfl, ?_,
      rfl, rfl, fun hp => ?_, fun hp => ?_⟩, name, hname, ?_⟩ rfl
    · rw [repairCommit_jobs, hid, update_self]
    · unfold RepairArgs.repaired
      rw [if_pos (hpost.mpr hp)]
    · unfold RepairArgs.repaired
      rw [if_neg (mt hpost.mp hp)]
    · have hattemptId := hI.attempt attemptId t ht
      rw [repairCommit_leases, srem_leases]
      simp [repairArgs, hattemptId]
  | some r =>
    have hrun : repairDeadJob (repairArgs repo owner fence h name t) s =
        (.ok .alreadyRepaired, s) := by
      unfold repairDeadJob
      simp only [hid, hstuck.job, hprior]
      rw [if_pos (Or.inl (by simp [hcompleted r hprior]))]
    rw [hrun]
    refine iff_of_false (fun hcommits => ?_) nofun
    -- The job is still active, and a repaired job is not.
    obtain ⟨job, h', -, hj', -, hstate', hpost, hpre⟩ := hcommits.stored
    obtain rfl := Option.some.inj (hstuck.job.symm.trans hj')
    have hactive := hstuck.active
    rw [hstate'] at hactive
    by_cases hp : h.PostAcceptance
    · rw [hpost hp] at hactive
      exact absurd hactive (by decide)
    · rw [hpre hp] at hactive
      exact absurd hactive (by decide)

end Repair

/-- **Every stuck attempt can be repaired**, with any positive fence, exactly as long as no
repair of its job has committed before. -/
theorem stuck_repaired_iff (repo : RedisJobRepository) (labels : List BrokerLabel)
    (id attemptId : String) (h : JobHash)
    (hstuck : Stuck (broker.run idle labels).store id h attemptId) (owner : String) (fence : ℤ)
    (howner : owner ≠ "") (hfence : 0 < fence) :
    RepairCommits id h attemptId
        ((repo.reconcileDeadJob id owner fence).run exec (broker.run idle labels).store) ↔
      ∀ e ∈ broker.history idle labels, ¬ RepairedBy id e := by
  have hI := (broker_le (.anySlots False) (List.prefix_refl labels)
    (fun op _ => Assumption.anySlots_admits _ op.2) fun hf => hf.elim).1
  have hnoted := repairNoted labels id
  rw [repair_commits_iff repo howner hfence hI (stored_named labels) hnoted.completed hstuck,
    hnoted.none_iff, ← broker.trace_map_snd, List.forall_mem_map]

namespace Deployment

/-- The claim of client 3 is repaired before acceptance. -/
def repairedOnce : List BrokerLabel :=
  reserved ++ [call (.reconcileDeadJob "j" "r" 1)] ++ acts 4 3

/-- The probe of the member gives its slot back, and the job is claimed by attempt `"b"`. -/
def claimedAgain : List BrokerLabel :=
  repairedOnce ++ [call (.putMember member)] ++ acts 5 6 ++
    [call (.reserveNext 0 [⟨member, "b", 0⟩] ⟨0, 0, ["chat"]⟩ "d" 1 none)] ++ acts 6 5

/-- The hash of the job after a run. -/
def storedJob (labels : List BrokerLabel) : JobHash :=
  ((broker.run idle labels).store.jobs "j").getD
    { record := job.record, state := .queued, stateVersion := 1 }

theorem reserved_stuck : Stuck (broker.run idle reserved).store "j" (storedJob reserved) "a" :=
  ⟨by decide +kernel, by decide +kernel, by decide +kernel, by decide +kernel⟩

theorem claimedAgain_stuck :
    Stuck (broker.run idle claimedAgain).store "j" (storedJob claimedAgain) "b" :=
  ⟨by decide +kernel, by decide +kernel, by decide +kernel, by decide +kernel⟩

/-- The first claim of the job can be repaired. -/
theorem reserved_repaired :
    RepairCommits "j" (storedJob reserved) "a"
      ((repository.reconcileDeadJob "j" "r" 1).run exec (broker.run idle reserved).store) :=
  (stuck_repaired_iff repository reserved "j" "a" _ reserved_stuck "r" 1 (by decide)
    (by decide)).mpr (by decide +kernel)

/-- The second claim of the job is stuck, and a fence above every fence used before does not
repair it. -/
theorem claimedAgain_not_repaired :
    Stuck (broker.run idle claimedAgain).store "j" (storedJob claimedAgain) "b" ∧
      (∀ e ∈ broker.history idle claimedAgain, ∀ a ∈ e.cmd.repair, a.fence < 2) ∧
      ¬ RepairCommits "j" (storedJob claimedAgain) "b"
        ((repository.reconcileDeadJob "j" "r" 2).run exec
          (broker.run idle claimedAgain).store) := by
  refine ⟨claimedAgain_stuck, by decide +kernel, fun hcommits => ?_⟩
  have hstate : (((repository.reconcileDeadJob "j" "r" 2).run exec
      (broker.run idle claimedAgain).store).2.jobs "j").map JobHash.state = some .claimed := by
    decide +kernel
  obtain ⟨job, h', -, hj', -, hstate', hpost, hpre⟩ := hcommits.stored
  rw [hj', Option.map_some, Option.some.injEq, hstate'] at hstate
  by_cases hp : (storedJob claimedAgain).PostAcceptance
  · rw [hpost hp] at hstate
    cases hstate
  · rw [hpre hp] at hstate
    cases hstate

end Deployment

end GpuManager.Broker
