import GpuManager.Queue.Calls
import GpuManager.Queue.Frame

/-!
# Dead letters are conserved

A job that has had its retries is transferred to the dead-letter stream of its service.
The stream holds at most `exactDeadLetterCap` entries; what falls out is counted in the
metrics hash, and what a purge removes is counted in the audit stream.  So every transfer
is accounted for in one of three keys, and the audit stream only grows.

The metrics hash and the audit stream live under the same name as the dead-letter streams:
`dead-letter:metrics` and `dead-letter:audit` are also the dead-letter streams of services
named `metrics` and `audit`.  The accounts hold for every other service as long as no
transfer and no purge is for one of these two.
-/

namespace GpuManager.Queue

open AtomicProgram Redis List Server

/-! ## Names -/

/-- A service whose dead-letter stream is a key of its own. -/
def Plain (service : String) : Prop := service ≠ "audit" ∧ service ≠ "metrics"

instance (service : String) : Decidable (Plain service) := by
  unfold Plain
  infer_instance

theorem deadLetterStream_inj {service service' : String}
    (h : deadLetterStream service = deadLetterStream service') : service = service' := by
  have hlist := congrArg String.toList h
  simp only [deadLetterStream, String.toList_append, append_cancel_left_eq] at hlist
  exact String.toList_injective hlist

theorem Plain.ne_audit {service : String} (h : Plain service) :
    deadLetterStream service ≠ deadLetterAuditStream := by
  intro heq
  have hname : deadLetterStream service = deadLetterStream "audit" := heq
  exact h.1 (deadLetterStream_inj hname)

theorem Plain.ne_metrics {service : String} (h : Plain service) :
    deadLetterStream service ≠ deadLetterMetricsHash := by
  intro heq
  have hname : deadLetterStream service = deadLetterStream "metrics" := heq
  exact h.2 (deadLetterStream_inj hname)

def Outside (key : String) : Prop := ∀ suffix, key ≠ "dead-letter:" ++ suffix

def Cmd.deadLetterService : Cmd → Option String
  | .deadLetterTransfer _ _ service _ => some service
  | .deadLetterPurge service _ _ _ => some service
  | _ => none

/-- The round trips of the calls on the queues: dead-letter keys are written by transfers
and purges only. -/
inductive QueueCmd : Cmd → Prop where
  | transfer {source : String} (id : StreamId) (service : String) (payload : Fields)
      (h : Outside source) : QueueCmd (.deadLetterTransfer source id service payload)
  | purge (service actor reason timestamp : String) :
      QueueCmd (.deadLetterPurge service actor reason timestamp)
  | other {c : Cmd} (hnone : c.deadLetterService = none)
      (h : ∀ s key, ¬ Outside key → (exec c s).2.keys key = s.keys key) : QueueCmd c

/-! ## The accounts -/

/-- The dead letters of a service. -/
def letters (s : Server) (service : String) : List Entry :=
  (streamOrEmpty s (deadLetterStream service)).entries

def dropped (s : Server) (service : String) : ℤ :=
  (decimal (droppedField s deadLetterMetricsHash service)).getD 0

/-- The audit records. -/
def auditTrail (s : Server) : List Entry := (streamOrEmpty s deadLetterAuditStream).entries

def recordedCount (service : String) (record : Entry) : ℤ :=
  if getField record.fields "service" = some service then
    ((getField record.fields "count").bind String.toNat?).getD 0
  else 0

/-- What was purged of a service, by the audit records. -/
def purged (s : Server) (service : String) : ℤ :=
  ((auditTrail s).map (recordedCount service)).sum

def accounted (s : Server) (service : String) : ℤ :=
  (letters s service).length + dropped s service + purged s service

/-- Whether an event is a transfer that was made for a service. -/
def transferred (service : String) (e : Event Server Cmd) : ℤ :=
  match e.cmd with
  | .deadLetterTransfer source id service' payload =>
    if service' = service ∧
        ((exec (.deadLetterTransfer source id service' payload) e.before).1).isOk then 1
    else 0
  | _ => 0

structure Orderly (s : Server) : Prop where
  audit : Fits s deadLetterAuditStream .stream
  metrics : Fits s deadLetterMetricsHash .hash
  numbers : ∀ service, (decimal (droppedField s deadLetterMetricsHash service)).isSome
  streams : ∀ service, Plain service → Fits s (deadLetterStream service) .stream
  capped : ∀ service, Plain service → (letters s service).length ≤ exactDeadLetterCap

/-! ## Frames -/

section Frame

variable {s s' : Server} {service : String}

theorem letters_congr (h : s'.keys (deadLetterStream service) = s.keys (deadLetterStream service)) :
    letters s' service = letters s service := by
  unfold letters streamOrEmpty
  rw [stream_congr h]

theorem auditTrail_congr (h : s'.keys deadLetterAuditStream = s.keys deadLetterAuditStream) :
    auditTrail s' = auditTrail s := by
  unfold auditTrail streamOrEmpty
  rw [stream_congr h]

theorem droppedField_congr (h : s'.keys deadLetterMetricsHash = s.keys deadLetterMetricsHash) :
    droppedField s' deadLetterMetricsHash service = droppedField s deadLetterMetricsHash service := by
  unfold droppedField
  rw [hash_congr h]

theorem fits_congr {key : String} {t : KeyType} (h : s'.keys key = s.keys key) :
    Fits s' key t ↔ Fits s key t := by
  unfold Fits
  rw [typeOf_congr h]

end Frame

theorem not_outside (suffix : String) : ¬ Outside ("dead-letter:" ++ suffix) :=
  fun h => h suffix rfl

/-- Where no dead-letter key changes, nothing about the accounts does. -/
theorem orderly_of_same {s s' : Server} (hs : Orderly s)
    (hsame : ∀ key, ¬ Outside key → s'.keys key = s.keys key) :
    Orderly s' ∧ (∀ service, accounted s' service = accounted s service) ∧
      auditTrail s' = auditTrail s := by
  have haudit := hsame deadLetterAuditStream (not_outside "audit")
  have hmetrics := hsame deadLetterMetricsHash (not_outside "metrics")
  have hstream : ∀ service, s'.keys (deadLetterStream service) = s.keys (deadLetterStream service) :=
    fun service => hsame _ (not_outside service)
  refine ⟨⟨(fits_congr haudit).mpr hs.audit, (fits_congr hmetrics).mpr hs.metrics, ?_, ?_, ?_⟩,
    ?_, auditTrail_congr haudit⟩
  · intro service
    rw [droppedField_congr hmetrics]
    exact hs.numbers service
  · intro service hplain
    exact (fits_congr (hstream service)).mpr (hs.streams service hplain)
  · intro service hplain
    rw [letters_congr (hstream service)]
    exact hs.capped service hplain
  · intro service
    unfold accounted dropped purged
    rw [letters_congr (hstream service), droppedField_congr hmetrics, auditTrail_congr haudit]

/-! ## Transfers -/

section Transfer

variable {s : Server} {source service : String}

/-- A transfer from a key that is no stream fails and changes nothing. -/
theorem transfer_of_no_stream (id : StreamId) (service : String) (payload : Fields)
    (h : s.stream source = none) :
    exec (.deadLetterTransfer source id service payload) s = (.error "source_not_stream", s) := by
  have htype : s.typeOf source ≠ .stream := by
    intro htype
    obtain ⟨st, hst⟩ := typeOf_eq_stream.mp htype
    rw [h] at hst
    cases hst
  show (deadLetterTransfer _ _ _ _ _ _ _ _).run s = _
  unfold deadLetterTransfer
  rw [Script.bind_ok rfl, Script.bind_ok rfl, Script.bind_ok rfl, if_pos htype]
  rfl

/-- **One transfer** adds one to the accounts of its service. -/
theorem orderly_transfer (id : StreamId) (payload : Fields) (hs : Orderly s)
    (hsource : Outside source) (hplain : Plain service) :
    Orderly (exec (.deadLetterTransfer source id service payload) s).2 ∧
      (∀ service', Plain service' →
        accounted (exec (.deadLetterTransfer source id service payload) s).2 service' =
          accounted s service' +
            transferred service' ⟨.deadLetterTransfer source id service payload, s⟩) ∧
      auditTrail (exec (.deadLetterTransfer source id service payload) s).2 = auditTrail s := by
  cases hst : s.stream source with
  | none =>
    have hrun := transfer_of_no_stream id service payload hst
    refine ⟨by rw [hrun]; exact hs, fun service' _ => ?_, by rw [hrun]⟩
    simp [transferred, hrun, Except.isOk, Except.toBool]
  | some st =>
    have hready : TransferReady s (deadLetterStream service) deadLetterMetricsHash service
        exactDeadLetterCap :=
      ⟨hs.streams service hplain, hs.metrics, hplain.ne_metrics, fun _ => hs.numbers service⟩
    have hsourceDlq : source ≠ deadLetterStream service := hsource service
    have hsourceMetrics : source ≠ deadLetterMetricsHash := hsource "metrics"
    obtain ⟨r, s', hrun, -, hdlq, hmetrics, hcount, hothers, hkeys, -⟩ :=
      deadLetterTransfer_ok id group payload hst hsourceDlq hsourceMetrics hready
    have hexec : exec (.deadLetterTransfer source id service payload) s = (.ok r, s') := hrun
    have haudit : s'.keys deadLetterAuditStream = s.keys deadLetterAuditStream :=
      hkeys _ (Ne.symm (hsource "audit")) (Ne.symm hplain.ne_audit) (by decide)
    obtain ⟨n, hn⟩ := Option.isSome_iff_exists.mp (hs.numbers service)
    have hself : letters s' service = (((streamOrEmpty s (deadLetterStream service)).add s.clock
        payload).trim exactDeadLetterCap).entries := by
      unfold letters
      rw [streamOrEmpty, hdlq]
      rfl
    have hlength : (letters s' service).length =
        (letters s service).length + 1 - ((letters s service).length + 1 - exactDeadLetterCap) := by
      rw [hself]
      simp [Stream.trim, Stream.add, letters]
    have hother : ∀ service', service' ≠ service → Plain service' →
        s'.keys (deadLetterStream service') = s.keys (deadLetterStream service') := by
      intro service' hne hplain'
      exact hkeys _ (Ne.symm (hsource service')) (fun heq => hne (deadLetterStream_inj heq))
        hplain'.ne_metrics
    have hnumber : decimal (droppedField s' deadLetterMetricsHash service) =
        some (n + ((letters s service).length + 1 - exactDeadLetterCap : ℕ)) := hcount n hn
    refine ⟨?_, ?_, by rw [hexec]; exact auditTrail_congr haudit⟩
    · rw [hexec]
      refine ⟨(fits_congr haudit).mpr hs.audit, hmetrics, ?_, ?_, ?_⟩
      · intro service'
        by_cases heq : service' = service
        · rw [heq, hnumber]
          rfl
        · rw [hothers service' heq]
          exact hs.numbers service'
      · intro service' hplain'
        by_cases heq : service' = service
        · rw [heq]
          exact Or.inr (typeOf_eq_stream.mpr ⟨_, hdlq⟩)
        · exact (fits_congr (hother service' heq hplain')).mpr (hs.streams service' hplain')
      · intro service' hplain'
        by_cases heq : service' = service
        · rw [heq, hlength]
          omega
        · rw [letters_congr (hother service' heq hplain')]
          exact hs.capped service' hplain'
    · intro service' hplain'
      rw [hexec]
      unfold accounted purged
      rw [auditTrail_congr haudit]
      by_cases heq : service' = service
      · have hone : transferred service' ⟨.deadLetterTransfer source id service payload, s⟩ = 1 := by
          simp [transferred, hexec, heq, Except.isOk, Except.toBool]
        rw [hone, heq, dropped, hnumber, dropped, hn, hlength]
        simp only [Option.getD_some]
        omega
      · have hzero : transferred service' ⟨.deadLetterTransfer source id service payload, s⟩ = 0 := by
          simp [transferred, Ne.symm heq]
        rw [hzero, letters_congr (hother service' heq hplain'), dropped, hothers service' heq]
        simp [dropped]

end Transfer

/-! ## Purges -/

/-- The count of an audit record can be read back. -/
theorem recordedCount_auditRecord (id : StreamId) (actor reason timestamp service : String)
    (count cap : ℕ) (service' : String) :
    recordedCount service' ⟨id, auditRecord actor reason timestamp count service cap⟩ =
      if service = service' then (count : ℤ) else 0 := by
  have hservice : getField (auditRecord actor reason timestamp count service cap) "service" =
      some service := rfl
  have hcount : getField (auditRecord actor reason timestamp count service cap) "count" =
      some (toString count) := rfl
  have hnat : (toString count).toNat? = some count := Nat.toNat?_repr count
  simp only [recordedCount, hservice, hcount, Option.some.injEq, Option.bind_some, hnat,
    Option.getD_some]

/-- **One purge** moves the dead letters of its service to the audit records. -/
theorem orderly_purge {s : Server} {service : String} (actor reason timestamp : String)
    (hs : Orderly s) (hplain : Plain service) :
    Orderly (exec (.deadLetterPurge service actor reason timestamp) s).2 ∧
      (∀ service', Plain service' →
        accounted (exec (.deadLetterPurge service actor reason timestamp) s).2 service' =
          accounted s service') ∧
      auditTrail s <+: auditTrail (exec (.deadLetterPurge service actor reason timestamp) s).2 := by
  obtain ⟨r, s', hrun, hdlq, haudit, hkeys⟩ := deadLetterPurge_ok actor reason timestamp service
    exactDeadLetterCap (hs.streams service hplain) hs.audit hplain.ne_audit
  have hexec : exec (.deadLetterPurge service actor reason timestamp) s = (.ok r, s') := hrun
  have hmetrics : s'.keys deadLetterMetricsHash = s.keys deadLetterMetricsHash :=
    hkeys _ (Ne.symm hplain.ne_metrics) (by decide)
  have hother : ∀ service', service' ≠ service → Plain service' →
      s'.keys (deadLetterStream service') = s.keys (deadLetterStream service') := by
    intro service' hne hplain'
    exact hkeys _ (fun heq => hne (deadLetterStream_inj heq)) hplain'.ne_audit
  have hempty : letters s' service = [] := by
    unfold letters streamOrEmpty stream
    rw [hdlq]
    rfl
  have htrail : ∃ id, auditTrail s' = auditTrail s ++ [⟨id, auditRecord actor reason timestamp
      (letters s service).length service exactDeadLetterCap⟩] := by
    refine ⟨Stream.nextId (streamOrEmpty s deadLetterAuditStream).lastId s.clock, ?_⟩
    unfold auditTrail
    rw [streamOrEmpty, haudit]
    rfl
  obtain ⟨id, htrail⟩ := htrail
  rw [hexec]
  refine ⟨⟨?_, (fits_congr hmetrics).mpr hs.metrics, ?_, ?_, ?_⟩, ?_, ?_⟩
  · exact Or.inr (typeOf_eq_stream.mpr ⟨_, haudit⟩)
  · intro service'
    rw [droppedField_congr hmetrics]
    exact hs.numbers service'
  · intro service' hplain'
    by_cases heq : service' = service
    · rw [heq]
      exact Or.inl (typeOf_eq_none.mpr hdlq)
    · exact (fits_congr (hother service' heq hplain')).mpr (hs.streams service' hplain')
  · intro service' hplain'
    by_cases heq : service' = service
    · rw [heq, hempty]
      exact Nat.zero_le _
    · rw [letters_congr (hother service' heq hplain')]
      exact hs.capped service' hplain'
  · intro service' hplain'
    unfold accounted dropped purged
    rw [droppedField_congr hmetrics, htrail, map_append, sum_append, map_singleton,
      sum_singleton, recordedCount_auditRecord]
    by_cases heq : service' = service
    · rw [heq, hempty, if_pos rfl, length_nil]
      omega
    · rw [letters_congr (hother service' heq hplain'), if_neg (Ne.symm heq)]
      omega
  · exact ⟨_, htrail.symm⟩

/-! ## Runs -/

/-- **One round trip** of a call on the queues keeps the accounts. -/
theorem orderly_step {c : Cmd} {s : Server} (hs : Orderly s) (hc : QueueCmd c)
    (hplain : ∀ service, c.deadLetterService = some service → Plain service) :
    Orderly (exec c s).2 ∧
      (∀ service, Plain service →
        accounted (exec c s).2 service = accounted s service + transferred service ⟨c, s⟩) ∧
      auditTrail s <+: auditTrail (exec c s).2 := by
  cases hc with
  | transfer id service payload hsource =>
    obtain ⟨horderly, haccounts, htrail⟩ :=
      orderly_transfer id payload hs hsource (hplain service rfl)
    exact ⟨horderly, haccounts, htrail ▸ prefix_rfl⟩
  | purge service actor reason timestamp =>
    obtain ⟨horderly, haccounts, htrail⟩ :=
      orderly_purge actor reason timestamp hs (hplain service rfl)
    refine ⟨horderly, fun service' hplain' => ?_, htrail⟩
    rw [haccounts service' hplain']
    simp [transferred]
  | other hnone hsame =>
    obtain ⟨horderly, haccounts, htrail⟩ := orderly_of_same hs (hsame s)
    refine ⟨horderly, fun service _ => ?_, htrail ▸ prefix_rfl⟩
    have hzero : transferred service ⟨c, s⟩ = 0 := by
      cases c <;> first | rfl | cases hnone
    rw [haccounts, hzero, Int.add_zero]

/-- The calls on the queues write dead-letter keys by transfers and purges only. -/
theorem program_queueCmd (op : QueueOp) : op.program.Issues QueueCmd := by
  refine op.program_issues ?_ (fun _ _ _ _ _ _ => .purge _ _ _ _) ?_
  · intro serviceName routingGroup entryId key id _ hkey c hc
    have houtside : Outside key := resolve_ne hkey
    have hjob : ∀ jobId, Outside (jobKey jobId) := jobKey_ne_deadLetter
    cases c with
    | deadLetterTransfer source id service payload =>
      obtain ⟨rfl, -⟩ := hc
      exact .transfer _ _ _ houtside
    | xrange stream id => exact .other rfl within_xrange
    | clearPending stream id =>
      obtain ⟨rfl, -⟩ := hc
      refine .other rfl (Script.within_multi fun c hc => ?_)
      obtain rfl := mem_singleton.mp hc
      exact within_xack houtside
    | acknowledge stream id =>
      obtain ⟨rfl, -⟩ := hc
      exact .other rfl (within_acknowledge houtside)
    | requeue stream id payload =>
      obtain ⟨rfl, -⟩ := hc
      exact .other rfl (within_requeue houtside)
    | cancelQueued stream id jobId =>
      obtain ⟨rfl, -⟩ := hc
      exact .other rfl (within_cancelQueued houtside (hjob jobId))
    | _ => cases hc
  · intro clock
    exact .other rfl fun _ _ _ => rfl

/-- What is said of the dead letters of a service in a run: every transfer made for it is in
one of the accounts, its stream holds no more than the cap, and no round trip removes an
audit record. -/
structure DeadLettersConserved (start : Server) (ls : List (Label QueueOp)) (service : String) :
    Prop where
  accounted : ((queueSystem.history ⟨start, []⟩ ls).map (transferred service)).sum =
    accounted (queueSystem.run ⟨start, []⟩ ls).store service
  capped : (letters (queueSystem.run ⟨start, []⟩ ls).store service).length ≤ exactDeadLetterCap
  appended : ∀ e ∈ queueSystem.history ⟨start, []⟩ ls,
    auditTrail e.before <+: auditTrail (queueSystem.after e)

/-- Without dead-letter keys there is nothing to account for. -/
theorem orderly_of_none {s : Server} (h : ∀ suffix, s.keys ("dead-letter:" ++ suffix) = none) :
    Orderly s ∧ ∀ service, accounted s service = 0 := by
  have hstream : ∀ suffix, s.stream ("dead-letter:" ++ suffix) = none := by
    intro suffix
    unfold Server.stream
    rw [h suffix]
  have hfits : ∀ suffix t, Fits s ("dead-letter:" ++ suffix) t :=
    fun suffix t => Or.inl (Server.typeOf_eq_none.mpr (h suffix))
  have hletters : ∀ service, letters s service = [] := by
    intro service
    unfold letters streamOrEmpty
    rw [show s.stream (deadLetterStream service) = none from hstream service]
    rfl
  have hfield : ∀ service, droppedField s deadLetterMetricsHash service = "0" := by
    intro service
    unfold droppedField Server.hash
    rw [show s.keys deadLetterMetricsHash = none from h "metrics"]
    rfl
  have hzero : decimal "0" = some 0 := decimal_toString 0
  have htrail : auditTrail s = [] := by
    unfold auditTrail streamOrEmpty
    rw [show s.stream deadLetterAuditStream = none from hstream "audit"]
    rfl
  refine ⟨⟨hfits "audit" _, hfits "metrics" _, ?_, fun service _ => hfits service _, ?_⟩, ?_⟩
  · intro service
    rw [hfield, hzero]
    rfl
  · intro service _
    rw [hletters]
    exact Nat.zero_le _
  · intro service
    unfold accounted dropped purged
    rw [hletters, hfield, hzero, htrail]
    rfl

/-- **Dead letters are conserved.**  In every run of calls on the queues that starts without
dead letters and in which no transfer and no purge is for a service named `audit` or
`metrics`, the accounts of every other service are right, its dead letters are within the
cap, and audit records are only added. -/
theorem dead_letters_conserved (start : Server) (ls : List (Label QueueOp)) (service : String)
    (hstart : ∀ suffix, start.keys ("dead-letter:" ++ suffix) = none) (hservice : Plain service)
    (hplain : ∀ e ∈ queueSystem.history ⟨start, []⟩ ls,
      ∀ service', e.cmd.deadLetterService = some service' → Plain service') :
    DeadLettersConserved start ls service := by
  obtain ⟨horderly, hzero⟩ := orderly_of_none hstart
  have hlaunches : ∀ results op p, True → queueSystem.launch results op = some p →
      p.Issues QueueCmd := by
    intro results op p _ hlaunch
    obtain rfl := Option.some.inj hlaunch
    exact program_queueCmd op
  have hissues : ∀ e ∈ queueSystem.history ⟨start, []⟩ ls, QueueCmd e.cmd :=
    queueSystem.issues_run hlaunches (fun p hp => (by cases hp)) fun _ _ => trivial
  have hstep : ∀ e ∈ queueSystem.history ⟨start, []⟩ ls, Orderly e.before →
      Orderly (queueSystem.after e) :=
    fun e he hs => (orderly_step hs (hissues e he) (hplain e he)).1
  have hbefore := queueSystem.history_induction Orderly horderly hstep
  constructor
  · have hmeasure := queueSystem.run_measure (fun s => accounted s service) (transferred service)
      (fun e he =>
        (orderly_step (hbefore e he) (hissues e he) (hplain e he)).2.1 service hservice)
    rw [hmeasure]
    show _ = accounted start service + _
    rw [hzero service, Int.zero_add]
  · exact (queueSystem.run_induction Orderly horderly hstep).capped service hservice
  · intro e he
    exact (orderly_step (hbefore e he) (hissues e he) (hplain e he)).2.2

/-! ## One job, one purge too many -/

open EntryOp (serverOf newest)

/-- A job is dead-lettered at its first failure, and the dead letters are purged. -/
def purgeVideo : List (Label QueueOp) :=
  [.start (.nack "video" none ⟨none, (newest 1).id⟩ 1 "now"), .act 0, .act 0,
    .start (.purge "video" "operator" "cleanup" "later"), .act 1]

/-- Then the dead letters of a service named `audit` are purged as well. -/
def purgeAudit : List (Label QueueOp) :=
  purgeVideo ++ [.start (.purge "audit" "operator" "cleanup" "later"), .act 2]

theorem serverOf_outside (n : ℕ) (suffix : String) :
    (serverOf n).keys ("dead-letter:" ++ suffix) = none := by
  have hne : "dead-letter:" ++ suffix ≠ "queue:video" := by
    intro heq
    have hfirst := congrArg (fun t => t.toList.head?) heq
    simp [String.toList_append] at hfirst
  simp only [serverOf, if_neg hne]

/-- The one transfer for `video` is found in the accounts. -/
theorem purge_video_conserved :
    DeadLettersConserved (serverOf 1) purgeVideo "video" ∧
      ((queueSystem.history ⟨serverOf 1, []⟩ purgeVideo).map (transferred "video")).sum = 1 := by
  have hservices : (queueSystem.history ⟨serverOf 1, []⟩ purgeVideo).map
      (fun e => e.cmd.deadLetterService) = [none, some "video", some "video"] := by
    decide +kernel
  refine ⟨dead_letters_conserved (serverOf 1) purgeVideo "video" (serverOf_outside 1) (by decide)
    fun e he service' hservice => ?_, by decide +kernel⟩
  have hmem := mem_map_of_mem (f := fun e : Event Server Cmd => e.cmd.deadLetterService) he
  rw [hservices, hservice] at hmem
  have hname : service' = "video" := by simpa using hmem
  rw [hname]
  decide

/-- The purge of `audit` deletes the record of the purge of `video`. -/
theorem purge_audit_not_conserved :
    ¬ DeadLettersConserved (serverOf 1) purgeAudit "video" := by
  intro h
  have hsum := h.accounted
  have hmade : ((queueSystem.history ⟨serverOf 1, []⟩ purgeAudit).map
      (transferred "video")).sum = 1 := by
    decide +kernel
  have hletters : (letters (queueSystem.run ⟨serverOf 1, []⟩ purgeAudit).store "video").length =
      0 := by
    decide +kernel
  have hfield : droppedField (queueSystem.run ⟨serverOf 1, []⟩ purgeAudit).store
      deadLetterMetricsHash "video" = toString (0 : ℤ) := by
    decide +kernel
  have htrail : auditTrail (queueSystem.run ⟨serverOf 1, []⟩ purgeAudit).store = [] :=
    eq_nil_of_length_eq_zero (by decide +kernel)
  rw [hmade, accounted, dropped, purged, hletters, hfield, decimal_toString, htrail] at hsum
  cases hsum

end GpuManager.Queue
