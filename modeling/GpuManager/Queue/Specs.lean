import GpuManager.Lib.RedisRules
import GpuManager.Queue.Engine

/-!
# What the scripts do

One statement for each transaction and script of the queue engine: what it returns, which
keys it writes and with what.  The methods of the engine are reasoned about through these.
-/

namespace GpuManager.Queue

open AtomicProgram Redis Script Server List Option

/-! ## Keys -/

/-- A key of the live streams. -/
def IsQueue (key : String) : Prop := ∃ rest, key = "queue:" ++ rest

variable {serviceName key jobId metrics service source dlq : String} {routingGroup : Option String}
  {s : Server} {st : Stream} {cap : ℕ}

theorem isQueue_lane {lane : Lane} (h : laneStreamName serviceName routingGroup lane = .ok key) :
    IsQueue key := by
  unfold laneStreamName at h
  split at h
  · cases h
  · obtain rfl := Except.ok.inj h
    exact ⟨_, by rw [String.append_assoc, String.append_assoc]⟩

theorem isQueue_legacy (h : legacyStreamName serviceName routingGroup = .ok key) : IsQueue key := by
  unfold legacyStreamName at h
  split at h
  · cases h
  · obtain rfl := Except.ok.inj h
    exact ⟨_, rfl⟩

variable {entryId : Handle}

/-- A handle stands for an entry of a live stream. -/
theorem resolve_queue {id : StreamId}
    (h : resolveEntryStream serviceName routingGroup entryId = .ok (key, id)) : IsQueue key := by
  unfold resolveEntryStream at h
  split at h
  next lane _ =>
    cases hname : laneStreamName serviceName routingGroup lane with
    | error e => rw [hname] at h; cases h
    | ok name =>
      rw [hname] at h
      obtain ⟨rfl, -⟩ := Prod.mk.inj (Except.ok.inj h)
      exact isQueue_lane hname
  next =>
    cases hname : legacyStreamName serviceName routingGroup with
    | error e => rw [hname] at h; cases h
    | ok name =>
      rw [hname] at h
      obtain ⟨rfl, -⟩ := Prod.mk.inj (Except.ok.inj h)
      exact isQueue_legacy hname

theorem IsQueue.ne_jobKey (h : IsQueue key) (jobId : String) : key ≠ jobKey jobId := by
  obtain ⟨rest, rfl⟩ := h
  intro heq
  have hfirst := congrArg (fun t => t.toList.head?) heq
  simp [jobKey, String.toList_append] at hfirst

theorem jobKey_inj {jobId' : String} (h : jobKey jobId = jobKey jobId') : jobId = jobId' := by
  have hlist := congrArg String.toList h
  simp only [jobKey, String.toList_append, append_cancel_left_eq] at hlist
  exact String.toList_injective hlist

theorem markerKey_ne_jobKey (digest jobId : String) : markerKey digest ≠ jobKey jobId := by
  intro heq
  have hfourth := congrArg (fun t => t.toList[3]?) heq
  simp [markerKey, jobKey, String.toList_append] at hfourth

/-- A live stream is none of the dead-letter keys. -/
theorem resolve_ne {id : StreamId}
    (h : resolveEntryStream serviceName routingGroup entryId = .ok (key, id)) (suffix : String) :
    key ≠ "dead-letter:" ++ suffix := by
  obtain ⟨rest, rfl⟩ := resolve_queue h
  intro heq
  have hfirst := congrArg (fun t => t.toList.head?) heq
  simp [String.toList_append] at hfirst

theorem jobKey_ne_deadLetter (jobId suffix : String) : jobKey jobId ≠ "dead-letter:" ++ suffix := by
  intro heq
  have hfirst := congrArg (fun t => t.toList.head?) heq
  simp [jobKey, String.toList_append] at hfirst

/-! ## What the transactions do to a stream -/

theorem acknowledge_spec (id : StreamId) (h : s.stream key = some st) :
    ∃ s', (acknowledge key id).run s = (.ok (), s') ∧
      s.Wrote s' key (((st.ack group id).del id).trim streamMaxlen) := by
  obtain ⟨s₁, hack, w₁⟩ := xack_wrote h group id
  obtain ⟨s₂, hdel, w₂⟩ := xdel_wrote w₁.stream id
  obtain ⟨s₃, htrim, w₃⟩ := xtrim_wrote w₂.stream streamMaxlen
  refine ⟨s₃, ?_, (w₁.trans w₂).trans w₃⟩
  unfold acknowledge
  rw [multi_cons_ok hack, multi_cons_ok (discard_ok hdel),
    multi_cons_ok (discard_ok htrim)]
  rfl

/-- The transaction of `nack` and `yield_pending`. -/
theorem requeue_spec (id : StreamId) (payload : Fields) (h : s.stream key = some st) :
    ∃ s', (requeue key id payload).run s = (.ok (), s') ∧
      s.Wrote s' key ((((st.ack group id).del id).add s.clock payload).trim streamMaxlen) := by
  obtain ⟨s₁, hack, w₁⟩ := xack_wrote h group id
  obtain ⟨s₂, hdel, w₂⟩ := xdel_wrote w₁.stream id
  obtain ⟨s₃, hadd, w₃⟩ := xadd_wrote w₂.stream payload
  obtain ⟨s₄, htrim, w₄⟩ := xtrim_wrote w₃.stream streamMaxlen
  have hclock : s₂.clock = s.clock := (w₁.trans w₂).clock
  rw [hclock] at w₃ w₄
  refine ⟨s₄, ?_, ((w₁.trans w₂).trans w₃).trans w₄⟩
  unfold requeue
  rw [multi_cons_ok hack, multi_cons_ok (discard_ok hdel),
    multi_cons_ok (discard_ok hadd), multi_cons_ok (discard_ok htrim)]
  rfl

/-! ## Dead letters -/

/-- The dead-letter stream of a key, empty where the key does not exist. -/
def streamOrEmpty (s : Server) (key : String) : Stream := (s.stream key).getD Stream.empty

def droppedField (s : Server) (metrics service : String) : String :=
  ((s.hash metrics).bind fun h => h service).getD "0"

/-- The key can hold a value of a type: it has this type, or does not exist. -/
def Fits (s : Server) (key : String) (t : KeyType) : Prop :=
  s.typeOf key = .none ∨ s.typeOf key = t

instance (s : Server) (key : String) (t : KeyType) : Decidable (Fits s key t) := by
  unfold Fits
  infer_instance

/-- `XADD` to a key that fits. -/
theorem xadd_wrote_of_fits (h : Fits s key .stream) (fields : Fields) :
    ∃ s', (xadd key fields).run s = (.ok ((streamOrEmpty s key).add s.clock fields).lastId, s') ∧
      s.Wrote s' key ((streamOrEmpty s key).add s.clock fields) := by
  rcases h with h | h
  · have hnone := typeOf_eq_none.mp h
    have hempty : streamOrEmpty s key = Stream.empty := by
      simp [streamOrEmpty, stream, hnone]
    rw [hempty]
    exact ⟨_, by simp only [xadd, hnone], wrote_put s key _⟩
  · obtain ⟨st, hst⟩ := typeOf_eq_stream.mp h
    have hsome : streamOrEmpty s key = st := by simp [streamOrEmpty, hst]
    rw [hsome]
    exact xadd_wrote hst fields

/-- What a fresh write of one field of the metrics hash says of each service. -/
theorem droppedField_put (s : Server) (metrics service value : String)
    (h : String → Option String) (hold : ∀ f, (h f).getD "0" = droppedField s metrics f) :
    droppedField (s.put metrics (.hash (setFields h [(service, value)]))) metrics service = value ∧
      ∀ f, f ≠ service →
        droppedField (s.put metrics (.hash (setFields h [(service, value)]))) metrics f =
          droppedField s metrics f := by
  constructor
  · simp [droppedField, setFields]
  · intro f hf
    rw [← hold f]
    simp [droppedField, setFields, Function.update_of_ne hf]

variable {n ttl : ℤ}

theorem hincrby_ok (service : String) (increment : ℤ) (hfits : Fits s metrics .hash)
    (hnum : decimal (droppedField s metrics service) = some n) :
    ∃ h, (hincrby metrics service increment).run s =
        (.ok (n + increment),
          s.put metrics (.hash (setFields h [(service, toString (n + increment))]))) ∧
      ∀ f, (h f).getD "0" = droppedField s metrics f := by
  rcases hfits with hnone | hhash
  · have hkey := Server.typeOf_eq_none.mp hnone
    have hzero : ∀ f, droppedField s metrics f = "0" := by
      intro f
      simp [droppedField, Server.hash, hkey]
    have hn : n = 0 := by
      rw [hzero] at hnum
      exact some.inj (hnum.symm.trans (decimal_toString 0))
    refine ⟨fun _ => none, ?_, fun f => (hzero f).symm⟩
    simp only [hincrby, hkey, hn, Int.zero_add]
  · obtain ⟨h, hh⟩ := typeOf_eq_hash.mp hhash
    obtain ⟨ttl, hkey⟩ := hash_eq_some.mp hh
    have hfield : ∀ f, droppedField s metrics f = (h f).getD "0" := by
      intro f
      simp [droppedField, hh]
    refine ⟨h, ?_, fun f => (hfield f).symm⟩
    rw [hfield] at hnum
    simp only [hincrby, hkey, hnum]

variable {count removed : ℕ} {s' : Server}

/-- The overflow count, where the field is a number: only the field of the service changes,
by as much as was removed. -/
theorem countRemoved_ok (service : String) (hfits : Fits s metrics .hash)
    (hnum : 0 < removed → decimal (droppedField s metrics service) = some n) :
    ∃ s', (countRemoved metrics service removed).run s = (.ok (), s') ∧
      (∀ k, k ≠ metrics → s'.keys k = s.keys k) ∧ s'.clock = s.clock ∧
      Fits s' metrics .hash ∧
      (0 < removed → droppedField s' metrics service = toString (n + removed)) ∧
      (removed = 0 → s' = s) ∧
      ∀ f, f ≠ service → droppedField s' metrics f = droppedField s metrics f := by
  unfold countRemoved
  by_cases hpos : removed > 0
  · obtain ⟨h, hrun, hold⟩ := hincrby_ok service removed hfits (hnum hpos)
    obtain ⟨hself, hothers⟩ := droppedField_put s metrics service (toString (n + removed)) h hold
    refine ⟨_, ?_, fun k hk => put_keys_of_ne s _ hk, rfl, ?_, fun _ => hself, ?_,
      hothers⟩
    · rw [if_pos hpos]
      exact discard_ok hrun
    · exact Or.inr (typeOf_eq_hash.mpr ⟨_, put_hash_self _ _ _⟩)
    · intro hzero
      omega
  · refine ⟨s, ?_, fun _ _ => rfl, rfl, hfits, fun h => absurd h hpos, fun _ => rfl,
      fun _ _ => rfl⟩
    rw [if_neg hpos]
    rfl

theorem hget_of_fits (field : String) (h : Fits s key .hash) :
    ∃ value, (hget key field).run s = (.ok value, s) := by
  rcases h with h | h
  · exact ⟨none, by simp only [hget, typeOf_eq_none.mp h]⟩
  obtain ⟨fields, hfields⟩ := typeOf_eq_hash.mp h
  obtain ⟨ttl, hkey⟩ := hash_eq_some.mp hfields
  exact ⟨fields field, by simp only [hget, hkey]⟩

theorem hget_of_stream (field : String) (h : s.stream key = some st) :
    (hget key field).run s = (.error wrongType, s) := by
  obtain ⟨ttl, hkey⟩ := stream_eq_some.mp h
  simp only [hget, hkey]

/-- Counting in a stream fails, or there is nothing to count. -/
theorem countRemoved_of_stream (service : String) (removed : ℕ) (h : s.stream key = some st) :
    ∃ e, (countRemoved key service removed).run s = (.ok (), s) ∨
      (countRemoved key service removed).run s = (.error e, s) := by
  obtain ⟨ttl, hkey⟩ := stream_eq_some.mp h
  refine ⟨wrongType, ?_⟩
  unfold countRemoved
  split
  · right
    exact bind_error (by simp only [hincrby, hkey])
  · exact Or.inl rfl

/-- Counting on a field that is not a number fails. -/
theorem countRemoved_of_not_number (hpos : removed > 0)
    (hnan : decimal (droppedField s metrics service) = none) (hfits : Fits s metrics .hash) :
    ∃ e, (countRemoved metrics service removed).run s = (.error e, s) := by
  unfold countRemoved
  rw [if_pos hpos]
  rcases hfits with hnone | hhash
  · have hzero : droppedField s metrics service = "0" := by
      simp [droppedField, Server.hash, Server.typeOf_eq_none.mp hnone]
    rw [hzero] at hnan
    exact absurd (hnan.symm.trans (decimal_toString 0)) (by simp)
  · obtain ⟨h, hh⟩ := typeOf_eq_hash.mp hhash
    obtain ⟨ttl, hkey⟩ := hash_eq_some.mp hh
    have hfield : droppedField s metrics service = (h service).getD "0" := by
      simp [droppedField, hh]
    rw [hfield] at hnan
    exact ⟨_, bind_error (by simp only [hincrby, hkey, hnan]; rfl)⟩

theorem deadLetterTransfer_of_fits {id : StreamId} {group : String} {payload : Fields}
    (hsource : ∃ st, s.stream source = some st) (hdlq : Fits s dlq .stream)
    (hmetrics : Fits s metrics .hash) :
    (deadLetterTransfer source dlq metrics id group cap service payload).run s =
      (transferEntry source dlq metrics id group cap service payload).run s := by
  have hs := typeOf_eq_stream.mpr hsource
  unfold deadLetterTransfer
  rw [bind_ok (a := s.typeOf source) rfl, bind_ok (a := s.typeOf dlq) rfl,
    bind_ok (a := s.typeOf metrics) rfl]
  rw [if_neg (by simp [hs]), if_neg (by rcases hdlq with h | h <;> simp [h]),
    if_neg (by rcases hmetrics with h | h <;> simp [h])]

/-- The dead-letter keys of a service are as the transfer needs them: two keys, each of its
type, and a number to count on where entries fall out. -/
structure TransferReady (s : Server) (dlq metrics service : String) (cap : ℕ) : Prop where
  dlqFits : Fits s dlq .stream
  metricsFits : Fits s metrics .hash
  distinct : dlq ≠ metrics
  counts : cap ≤ (streamOrEmpty s dlq).entries.length →
    (decimal (droppedField s metrics service)).isSome

section

variable (id : StreamId) (group : String) (payload : Fields) (hsource : s.stream source = some st)
include hsource

/-- **A transfer that succeeds.**  The entry is deleted from its stream, its payload is the
last of the dead letters, and what falls out of these is counted for the service. -/
theorem deadLetterTransfer_ok (hdlq : source ≠ dlq) (hmetrics : source ≠ metrics)
    (hready : TransferReady s dlq metrics service cap) :
    ∃ r s', (deadLetterTransfer source dlq metrics id group cap service payload).run s = (.ok r, s') ∧
      s'.stream source = some ((st.ack group id).del id) ∧
      s'.stream dlq = some (((streamOrEmpty s dlq).add s.clock payload).trim cap) ∧
      Fits s' metrics .hash ∧
      (∀ n, decimal (droppedField s metrics service) = some n →
        decimal (droppedField s' metrics service) =
          some (n + ((streamOrEmpty s dlq).entries.length + 1 - cap : ℕ))) ∧
      (∀ f, f ≠ service → droppedField s' metrics f = droppedField s metrics f) ∧
      (∀ k, k ≠ source → k ≠ dlq → k ≠ metrics → s'.keys k = s.keys k) ∧
      s'.clock = s.clock := by
  obtain ⟨hfd, hfm, hne, hcounts⟩ := hready
  obtain ⟨s₁, hadd, w₁⟩ := xadd_wrote_of_fits hfd payload
  obtain ⟨s₂, htrim, w₂⟩ := xtrim_wrote w₁.stream cap
  have w₁₂ := w₁.trans w₂
  have hlen : ((streamOrEmpty s dlq).add s.clock payload).entries.length - cap =
      (streamOrEmpty s dlq).entries.length + 1 - cap := by
    simp [Stream.add]
  rw [hlen] at htrim
  have hsame : s₂.keys metrics = s.keys metrics := w₁₂.others metrics hne.symm
  have hfield : ∀ f, droppedField s₂ metrics f = droppedField s metrics f := by
    intro f
    rw [droppedField, hash_congr hsame]
    rfl
  have hfm₂ : Fits s₂ metrics .hash := by
    unfold Fits
    rw [typeOf_congr hsame]
    exact hfm
  -- What is counted is a number where something is counted.
  have hnum : 0 < (streamOrEmpty s dlq).entries.length + 1 - cap →
      decimal (droppedField s₂ metrics service) =
        some ((decimal (droppedField s metrics service)).getD 0) := by
    intro hpos
    rw [hfield]
    obtain ⟨n, hn⟩ := isSome_iff_exists.mp (hcounts (by omega))
    rw [hn]
    rfl
  obtain ⟨s₃, hcount, hothers₃, hclock₃, hfm₃, hraised, hzero, hfields₃⟩ :=
    countRemoved_ok service hfm₂ hnum
  obtain ⟨total, hget⟩ := hget_of_fits service hfm₃
  have hst₃ : s₃.stream source = some st := by
    rw [stream_congr (hothers₃ source hmetrics),
      stream_congr (w₁₂.others source hdlq)]
    exact hsource
  obtain ⟨s₄, hack, w₄⟩ := xack_wrote hst₃ group id
  obtain ⟨s₅, hdel, w₅⟩ := xdel_wrote w₄.stream id
  have w₄₅ := w₄.trans w₅
  have hmetrics₅ : s₅.keys metrics = s₃.keys metrics := w₄₅.others metrics hmetrics.symm
  have hfield₅ : ∀ f, droppedField s₅ metrics f = droppedField s₃ metrics f := by
    intro f
    rw [droppedField, hash_congr hmetrics₅]
    rfl
  refine ⟨(((streamOrEmpty s dlq).add s.clock payload).lastId,
      (streamOrEmpty s dlq).entries.length + 1 - cap, (decimal (total.getD "0")).getD 0),
    s₅, ?_, w₅.stream, ?_, ?_, ?_, ?_, ?_, ?_⟩
  · rw [deadLetterTransfer_of_fits ⟨st, hsource⟩ hfd hfm]
    unfold transferEntry
    rw [bind_ok hadd, bind_ok htrim, bind_ok hcount, bind_ok hget,
      bind_ok (pcall_ok hack), bind_ok hdel]
    rfl
  · rw [stream_congr (w₄₅.others dlq hdlq.symm), stream_congr (hothers₃ dlq hne)]
    exact w₂.stream
  · unfold Fits
    rw [typeOf_congr hmetrics₅]
    exact hfm₃
  · intro n hn
    rw [hfield₅]
    by_cases hpos : 0 < (streamOrEmpty s dlq).entries.length + 1 - cap
    · rw [hraised hpos, hn]
      exact decimal_toString _
    have hnone : (streamOrEmpty s dlq).entries.length + 1 - cap = 0 := by omega
    rw [hzero hnone, hfield, hn, hnone]
    simp
  · intro f hf
    rw [hfield₅, hfields₃ f hf, hfield]
  · intro k hsource hdlq hmetrics
    rw [w₄₅.others k hsource, hothers₃ k hmetrics, w₁₂.others k hdlq]
  · rw [w₄₅.clock, hclock₃, w₁₂.clock]

/-- A transfer between keys of other types changes nothing. -/
theorem deadLetterTransfer_refused (hnot : ¬ (Fits s dlq .stream ∧ Fits s metrics .hash)) :
    ∃ e, (deadLetterTransfer source dlq metrics id group cap service payload).run s =
      (.error e, s) := by
  have hs := typeOf_eq_stream.mpr ⟨st, hsource⟩
  unfold deadLetterTransfer
  rw [bind_ok rfl, bind_ok rfl, bind_ok rfl, if_neg (by simp [hs])]
  by_cases hfd : Fits s dlq .stream
  · have hfm : ¬ Fits s metrics .hash := fun hfm => hnot ⟨hfd, hfm⟩
    rw [if_neg (by rcases hfd with h | h <;> simp [h]),
      if_pos (by simpa [Fits, not_or] using hfm)]
    exact ⟨_, rfl⟩
  · rw [if_pos (by simpa [Fits, not_or] using hfd)]
    exact ⟨_, rfl⟩

/-- **A transfer that fails** leaves the stream of the entry as it was. -/
theorem deadLetterTransfer_error (hdlq : source ≠ dlq) (hmetrics : source ≠ metrics)
    (hnot : ¬ TransferReady s dlq metrics service cap) :
    ∃ e s', (deadLetterTransfer source dlq metrics id group cap service payload).run s =
        (.error e, s') ∧ s'.keys source = s.keys source := by
  by_cases hfd : Fits s dlq .stream
  · by_cases hfm : Fits s metrics .hash
    · rw [deadLetterTransfer_of_fits ⟨st, hsource⟩ hfd hfm]
      obtain ⟨s₁, hadd, w₁⟩ := xadd_wrote_of_fits hfd payload
      obtain ⟨s₂, htrim, w₂⟩ := xtrim_wrote w₁.stream cap
      have w₁₂ := w₁.trans w₂
      have hkept : s₂.keys source = s.keys source := w₁₂.others source hdlq
      unfold transferEntry
      rw [bind_ok hadd, bind_ok htrim]
      by_cases hne : dlq = metrics
      · -- The one key is now a stream, and the hash commands on it fail.
        subst hne
        obtain ⟨e, hcount⟩ := countRemoved_of_stream service
          (((streamOrEmpty s dlq).add s.clock payload).entries.length - cap) w₂.stream
        rcases hcount with hcount | hcount
        · rw [bind_ok hcount, bind_error (hget_of_stream service w₂.stream)]
          exact ⟨_, s₂, rfl, hkept⟩
        · rw [bind_error hcount]
          exact ⟨_, s₂, rfl, hkept⟩
      · -- What falls out cannot be counted.
        have hcounts : ¬ (cap ≤ (streamOrEmpty s dlq).entries.length →
            (decimal (droppedField s metrics service)).isSome) :=
          fun hcounts => hnot ⟨hfd, hfm, hne, hcounts⟩
        rw [Classical.not_imp, not_isSome_iff_eq_none] at hcounts
        obtain ⟨hfull, hnan⟩ := hcounts
        have hsame : s₂.keys metrics = s.keys metrics := w₁₂.others metrics (Ne.symm hne)
        have hpos : ((streamOrEmpty s dlq).add s.clock payload).entries.length - cap > 0 := by
          simp [Stream.add]
          omega
        obtain ⟨e, hcount⟩ := countRemoved_of_not_number hpos (by
          rw [droppedField, hash_congr hsame]
          exact hnan) (by
          rw [Fits, typeOf_congr hsame]
          exact hfm)
        rw [bind_error hcount]
        exact ⟨e, s₂, rfl, hkept⟩
    · obtain ⟨e, hrun⟩ := deadLetterTransfer_refused id group payload hsource fun h => hfm h.2
      exact ⟨e, s, hrun, rfl⟩
  · obtain ⟨e, hrun⟩ := deadLetterTransfer_refused id group payload hsource fun h => hfd h.1
    exact ⟨e, s, hrun, rfl⟩

end

variable {audit auditSource cancelledBy completedAt consumer error status tracker value : String}

/-- **A purge** of keys that fit: the length of the dead letters is recorded at the end of
the audit stream, and the dead letters are gone. -/
theorem deadLetterPurge_ok (actor reason timestamp : String) (service : String)
    (cap : ℕ) (hdlq : Fits s dlq .stream) (haudit : Fits s audit .stream) (hne : dlq ≠ audit) :
    ∃ r s', (deadLetterPurge dlq audit actor reason timestamp service cap).run s = (.ok r, s') ∧
      s'.keys dlq = none ∧
      s'.stream audit = some ((streamOrEmpty s audit).add s.clock
        (auditRecord actor reason timestamp (streamOrEmpty s dlq).entries.length service cap)) ∧
      ∀ k, k ≠ dlq → k ≠ audit → s'.keys k = s.keys k := by
  have hlen : (xlen dlq).run s = (.ok (streamOrEmpty s dlq).entries.length, s) := by
    unfold xlen
    rcases hdlq with h | h
    · have hnone := typeOf_eq_none.mp h
      simp only [readStream, streamOrEmpty, stream, hnone]
      rfl
    · obtain ⟨st, hst⟩ := typeOf_eq_stream.mp h
      rw [readStream_ok hst]
      simp [streamOrEmpty, hst]
  obtain ⟨s₁, hadd, w⟩ := xadd_wrote_of_fits haudit
    (auditRecord actor reason timestamp (streamOrEmpty s dlq).entries.length service cap)
  refine ⟨((streamOrEmpty s dlq).entries.length, ((streamOrEmpty s audit).add s.clock
      (auditRecord actor reason timestamp (streamOrEmpty s dlq).entries.length service cap)).lastId),
    s₁.setKey dlq none, ?_, setKey_keys_self _ _ _, ?_, ?_⟩
  · unfold deadLetterPurge
    rw [bind_ok rfl, bind_ok rfl,
      if_neg (by rcases hdlq with h | h <;> simp [h]),
      if_neg (by rcases haudit with h | h <;> simp [h]), bind_ok hlen,
      bind_ok hadd]
    rfl
  · rw [stream_congr (setKey_keys_of_ne s₁ _ (Ne.symm hne))]
    exact w.stream
  · intro k hdlq haudit
    rw [setKey_keys_of_ne s₁ _ hdlq, w.others k haudit]

/-! ## Cancelling -/

/-- The fields of a hash, none where the key does not exist. -/
def hashOrEmpty (s : Server) (key : String) : String → Option String :=
  (s.hash key).getD fun _ => none

/-- `HSET` to a key that fits. -/
theorem hset_of_fits (fields : Fields) (h : Fits s key .hash) :
    (hset key fields).run s =
      (.ok (), s.put key (.hash (setFields (hashOrEmpty s key) fields))) := by
  rcases h with h | h
  · have hnone := Server.typeOf_eq_none.mp h
    simp only [hset, hashOrEmpty, Server.hash, hnone, getD_none]
  obtain ⟨fields', hfields⟩ := Server.typeOf_eq_hash.mp h
  obtain ⟨ttl, hkey⟩ := Server.hash_eq_some.mp hfields
  simp only [hset, hashOrEmpty, Server.hash, hkey, getD_some]

def trackerStatus (s : Server) (key : String) : Except String (Option String) :=
  ((hget key "status").run s).1

theorem hget_status (s : Server) (key : String) :
    (hget key "status").run s = (trackerStatus s key, s) := by
  refine Prod.ext rfl ?_
  simp only [hget]
  split <;> rfl

theorem trackerStatus_congr (h : s'.keys key = s.keys key) :
    trackerStatus s' key = trackerStatus s key := by
  simp only [trackerStatus, hget, h]
  split <;> rfl

theorem trackerStatus_fits {status : Option String} (h : trackerStatus s key = .ok status) :
    Fits s key .hash ∧ hashOrEmpty s key "status" = status := by
  simp only [trackerStatus, hget] at h
  split at h
  next hkey =>
    refine ⟨Or.inl (Server.typeOf_eq_none.mpr hkey), ?_⟩
    simpa [hashOrEmpty, Server.hash, hkey] using h
  next fields ttl hkey =>
    have hhash := hash_eq_some.mpr ⟨ttl, hkey⟩
    refine ⟨Or.inr (typeOf_eq_hash.mpr ⟨fields, hhash⟩), ?_⟩
    simpa [hashOrEmpty, hhash] using h
  · cases h

/-- The tracker has no status for the job, or says that it is queued. -/
def Cancellable (s : Server) (key : String) : Prop :=
  trackerStatus s key = .ok none ∨ trackerStatus s key = .ok (some "queued")

def cancelFields (completedAt error auditSource cancelledBy : String) : Fields :=
  [("status", "cancelled"), ("completed_at", completedAt), ("error", error),
    ("cancelled_by", cancelledBy), ("cancellation_audit_source", auditSource),
    ("cancellation_at", completedAt)]

/-- A hash that is written and given a time to live. -/
theorem hset_expire_of_fits {α : Type} (fields : Fields) (ttl : ℤ) (r : α) (h : Fits s key .hash) :
    ∃ s', (do hset key fields; expire key ttl; pure r : Script α).run s = (.ok r, s') ∧
      (∀ k, k ≠ key → s'.keys k = s.keys k) ∧
      s'.keys key = if ttl ≤ 0 then none else
        some ⟨.hash (setFields (hashOrEmpty s key) fields), some ttl⟩ := by
  have hkey : (s.put key (.hash (setFields (hashOrEmpty s key) fields))).keys key =
      some ⟨.hash (setFields (hashOrEmpty s key) fields), (s.keys key).bind Key.ttl⟩ :=
    setKey_keys_self _ _ _
  have hexpire : (expire key ttl).run (s.put key (.hash (setFields (hashOrEmpty s key) fields))) =
      (.ok (), (s.put key (.hash (setFields (hashOrEmpty s key) fields))).setKey key
        (if ttl ≤ 0 then none else
          some ⟨.hash (setFields (hashOrEmpty s key) fields), some ttl⟩)) := by
    simp only [expire, hkey]
  refine ⟨((expire key ttl).run
    (s.put key (.hash (setFields (hashOrEmpty s key) fields)))).2, ?_, ?_, ?_⟩
  · rw [bind_ok (hset_of_fits fields h), bind_ok hexpire, hexpire]
    rfl
  · intro k hk
    rw [hexpire, setKey_keys_of_ne _ _ hk, put_keys_of_ne s _ hk]
  · rw [hexpire]
    exact setKey_keys_self _ _ _

/-- **What the cancel script does**: nothing, unless the entry of the job is in its stream
and the tracker lets it be cancelled; then the entry is gone and the job is cancelled. -/
theorem cancelQueued_cases (id : StreamId)
    (jobId group completedAt error auditSource cancelledBy : String) (ttl : ℤ)
    (hne : key ≠ tracker) :
    (∃ r, (cancelQueued key tracker id jobId group completedAt error auditSource cancelledBy
        ttl).run s = (r, s) ∧ r ≠ .ok .removedAndTerminalized) ∨
      ∃ st e s', s.stream key = some st ∧ st.find id = some e ∧
        getField e.fields "job_id" = some jobId ∧ Cancellable s tracker ∧
        (cancelQueued key tracker id jobId group completedAt error auditSource cancelledBy
          ttl).run s = (.ok .removedAndTerminalized, s') ∧
        s'.stream key = some ((st.ack group id).del id) ∧
        (∀ k, k ≠ key → k ≠ tracker → s'.keys k = s.keys k) ∧
        s'.keys tracker = if ttl ≤ 0 then none else
          some ⟨.hash (setFields (hashOrEmpty s tracker)
            (cancelFields completedAt error auditSource cancelledBy)), some ttl⟩ := by
  unfold cancelQueued
  cases hst : s.stream key with
  | none =>
    left
    cases hkey : s.keys key with
    | none =>
      have hread : (xrange key id).run s = (.ok none, s) := by
        simp only [xrange, readStream, hkey]
      rw [bind_ok hread]
      exact ⟨.ok .noEntry, rfl, by simp⟩
    | some k =>
      refine ⟨_, bind_error (e := wrongType) ?_, by simp⟩
      obtain ⟨value, kttl⟩ := k
      cases value with
      | stream st =>
        rw [stream_eq_some.mpr ⟨kttl, hkey⟩] at hst
        cases hst
      | string text | hash fields => simp only [xrange, readStream, hkey]
  | some st =>
    have hread : (xrange key id).run s = (.ok (st.find id), s) := readStream_ok hst
    rw [bind_ok hread]
    cases hfind : st.find id with
    | none => exact Or.inl ⟨_, rfl, by simp⟩
    | some e =>
      by_cases hjob : getField e.fields "job_id" = some jobId
      · simp only [hjob, ne_eq, not_true_eq_false, if_false]
        cases hstatus : trackerStatus s tracker with
        | error message =>
          left
          refine ⟨.error message, bind_error ?_, by simp⟩
          rw [hget_status, hstatus]
        | ok status =>
          rw [bind_ok (by rw [hget_status, hstatus])]
          cases hfilter : status.filter fun status => status ≠ "queued" with
          | some status' =>
            left
            by_cases hterminal : Terminal status'
            · exact ⟨_, by simp only [if_pos hterminal]; rfl, by simp⟩
            · exact ⟨_, by simp only [if_neg hterminal]; rfl, by simp⟩
          | none =>
            right
            have hcancellable : Cancellable s tracker := by
              cases status with
              | none => exact Or.inl hstatus
              | some status =>
                right
                rw [hstatus]
                simpa using hfilter
            obtain ⟨s₁, hack, w₁⟩ := xack_wrote hst group id
            obtain ⟨s₂, hdel, w₂⟩ := xdel_wrote w₁.stream id
            have w₁₂ := w₁.trans w₂
            have hsame : s₂.keys tracker = s.keys tracker := w₁₂.others tracker hne.symm
            have hfits : Fits s₂ tracker .hash := by
              unfold Fits
              rw [typeOf_congr hsame]
              exact (trackerStatus_fits hstatus).1
            have hold : hashOrEmpty s₂ tracker = hashOrEmpty s tracker := by
              unfold hashOrEmpty
              rw [hash_congr hsame]
            obtain ⟨s₃, hset, hothers, htracker⟩ := hset_expire_of_fits
              (cancelFields completedAt error auditSource cancelledBy) ttl
              CancelOutcome.removedAndTerminalized hfits
            rw [hold] at htracker
            refine ⟨st, e, s₃, rfl, hfind, hjob, hcancellable, ?_, ?_, ?_, htracker⟩
            · rw [bind_ok hack, bind_ok hdel]
              exact hset
            · rw [stream_congr (hothers key hne)]
              exact w₂.stream
            · intro k hk htk
              rw [hothers k htk, w₁₂.others k hk]
      · left
        refine ⟨.ok (.entryJobMismatch ((getField e.fields "job_id").getD "")), ?_, by simp⟩
        simp only [ne_eq, hjob, not_false_eq_true, if_true]
        rfl

/-! ## The status of a job -/

variable {f : String × String} {d updates : Fields}

theorem mem_insertField (h : f ∈ insertField d key value) : f ∈ d ∨ f = (key, value) := by
  unfold insertField at h
  split at h
  · obtain ⟨f', hf', rfl⟩ := mem_map.mp h
    split
    · exact Or.inr rfl
    · exact Or.inl hf'
  · rcases mem_append.mp h with h | h
    · exact Or.inl h
    · exact Or.inr (mem_singleton.mp h)

theorem mem_insertField_of_ne (hf : f ∈ d) (hne : f.1 ≠ key) : f ∈ insertField d key value := by
  unfold insertField
  split
  · exact mem_map.mpr ⟨f, hf, if_neg hne⟩
  · exact mem_append_left _ hf

theorem mem_updateFields {fields : Fields} (hfields : ∀ f ∈ fields, f.1 ≠ key)
    (hkey : f.1 = key) : f ∈ updateFields d fields ↔ f ∈ d := by
  unfold updateFields
  induction fields generalizing d with
  | nil => exact Iff.rfl
  | cons g fields ih =>
    have hg : g.1 ≠ key := hfields g mem_cons_self
    rw [foldl_cons, ih fun f' hf' => hfields f' (mem_cons_of_mem _ hf')]
    constructor
    · intro hmem
      rcases mem_insertField hmem with hmem | rfl
      · exact hmem
      · exact absurd hkey hg
    · exact fun hmem => mem_insertField_of_ne hmem fun heq => hg (heq ▸ hkey)

/-- `update_status` writes the status it is given. -/
theorem setFields_statusUpdates (h : String → Option String) (status now : String)
    (kwargs : StatusFields) : setFields h (statusUpdates status now kwargs) "status" = some status := by
  unfold statusUpdates
  apply setFields_of_mem
  · exact (mem_updateFields kwargs.ne_status rfl).mpr mem_cons_self
  · intro f hf hkey
    have hmem := (mem_updateFields kwargs.ne_status hkey).mp hf
    rcases mem_cons.mp hmem with rfl | hmem
    · rfl
    exfalso
    split at hmem
    · obtain rfl := mem_singleton.mp hmem
      simp at hkey
    split at hmem
    · simp only [mem_cons, not_mem_nil, or_false] at hmem
      rcases hmem with rfl | rfl | rfl | rfl <;> simp at hkey
    · cases hmem

theorem persist_hash (s : Server) (key key' : String) :
    ((Redis.persist key).run s).2.hash key' = s.hash key' := by
  by_cases hkey : key' = key
  · subst hkey
    simp only [Redis.persist]
    cases hk : s.keys key' with
    | none => rfl
    | some k =>
      simp only [Server.hash, Server.setKey_keys_self, hk]
      rcases k with ⟨_ | _ | _, ttl⟩ <;> rfl
  · exact Server.hash_congr (within_persist (K := (· = key)) rfl s key' hkey)

/-- What is retained keeps its value; its time to live follows the status. -/
theorem retain_keys (s : Server) (key status : String) :
    ((retain key status).run s).2.keys key = (s.keys key).map fun k =>
      ⟨k.value, if Terminal status then some terminalSeconds else none⟩ := by
  have hpositive : ¬ terminalSeconds ≤ 0 := by decide
  unfold retain
  cases hkey : s.keys key with
  | none =>
    split
    · simp only [expire, hkey, map_none]
    · simp only [Redis.persist, hkey, map_none]
  | some k =>
    split
    next hterminal =>
      simp only [expire, hkey, if_neg hpositive, setKey_keys_self, map_some]
    next hterminal =>
      simp only [Redis.persist, hkey, setKey_keys_self, map_some]

theorem trackerStatus_of_value (h : (s'.keys key).map Key.value = (s.keys key).map Key.value) :
    trackerStatus s' key = trackerStatus s key := by
  simp only [trackerStatus, hget]
  rcases hs : s.keys key with _ | ⟨_ | _ | _, ttl⟩ <;>
    rcases hs' : s'.keys key with _ | ⟨_ | _ | _, ttl'⟩ <;>
      simp_all

theorem retain_ok (s : Server) (key status : String) :
    ∃ s', (retain key status).run s = (.ok (), s') := by
  unfold retain
  split
  · simp only [expire]
    split <;> exact ⟨_, rfl⟩
  · simp only [Redis.persist]
    split <;> exact ⟨_, rfl⟩

/-- `HSET` to a key of another type is refused. -/
theorem hset_of_not_fits (fields : Fields) (h : ¬ Fits s key .hash) :
    (hset key fields).run s = (.error wrongType, s) := by
  simp only [hset]
  split
  next hkey => exact absurd (Or.inl (typeOf_eq_none.mpr hkey)) h
  next old ttl hkey =>
    have hhash := hash_eq_some.mpr ⟨ttl, hkey⟩
    exact absurd (Or.inr (typeOf_eq_hash.mpr ⟨old, hhash⟩)) h
  · rfl

/-- A status is written together with the time to live it calls for. -/
theorem writeStatus_of_fits (status : String) (updates : Fields) (h : Fits s (jobKey jobId) .hash) :
    ∃ s', exec (.writeStatus jobId status updates) s = (.ok (), s') ∧
      s'.keys (jobKey jobId) = some ⟨.hash (setFields (hashOrEmpty s (jobKey jobId)) updates),
        if Terminal status then some terminalSeconds else none⟩ := by
  obtain ⟨s', hretain⟩ := retain_ok
    (s.put (jobKey jobId) (.hash (setFields (hashOrEmpty s (jobKey jobId)) updates)))
    (jobKey jobId) status
  refine ⟨s', ?_, ?_⟩
  · show (multi [_, _]).run s = _
    rw [multi_cons_ok (hset_of_fits updates h), multi_cons_ok hretain]
    rfl
  · have hkeys := retain_keys
      (s.put (jobKey jobId) (.hash (setFields (hashOrEmpty s (jobKey jobId)) updates)))
      (jobKey jobId) status
    rw [hretain] at hkeys
    simpa only [put, setKey_keys_self, map_some] using hkeys

/-- A status is not written over a value of another type. -/
theorem writeStatus_of_not_fits (status : String) (updates : Fields)
    (h : ¬ Fits s (jobKey jobId) .hash) :
    ((exec (.writeStatus jobId status updates) s).2.keys (jobKey jobId)).map Key.value =
      (s.keys (jobKey jobId)).map Key.value := by
  have hserver : (exec (.writeStatus jobId status updates) s).2 =
      ((retain (jobKey jobId) status).run s).2 := by
    show ((multi [_, _]).run s).2 = _
    rw [multi_cons_server, multi_cons_server, hset_of_not_fits updates h]
    rfl
  rw [hserver, retain_keys, Option.map_map]
  rfl

/-- A job is not cancellable once another status than `queued` was written. -/
theorem not_cancellable_writeStatus
    (hupdates : ∀ h, setFields h updates "status" = some status) (hstatus : status ≠ "queued") :
    ¬ Cancellable (exec (.writeStatus jobId status updates) s).2 (jobKey jobId) := by
  unfold Cancellable
  by_cases hfits : Fits s (jobKey jobId) .hash
  · obtain ⟨s', hexec, hkeys⟩ := writeStatus_of_fits status updates hfits
    have hnow : trackerStatus s' (jobKey jobId) = .ok (some status) := by
      simp only [trackerStatus, hget, hkeys, hupdates]
    rw [hexec, hnow]
    simpa using hstatus
  · rw [trackerStatus_of_value (writeStatus_of_not_fits status updates hfits)]
    rintro (h | h) <;> exact hfits (trackerStatus_fits h).1

/-! ## Which keys the scripts write -/

section Within

variable {K : String → Prop} {stream : String} {id : StreamId} {streams : List String}

variable {group : String} {payload : Fields}

theorem within_xack (h : K stream) : (xack stream group id).Within K :=
  within_changeStream h

theorem within_xdel (h : K stream) : (xdel stream id).Within K := within_changeStream h

theorem within_xtrim {maxlen : ℕ} (h : K stream) : (xtrim stream maxlen).Within K :=
  within_changeStream h

theorem within_xrange : (xrange stream id).Within K := within_readStream

theorem within_acknowledge (h : K stream) : (acknowledge stream id).Within K := by
  refine within_multi fun c hc => ?_
  simp only [mem_cons, not_mem_nil, or_false] at hc
  rcases hc with rfl | rfl | rfl
  · exact within_xack h
  · exact within_discard (within_xdel h)
  · exact within_discard (within_xtrim h)

theorem within_requeue (h : K stream) :
    (requeue stream id payload).Within K := by
  refine within_multi fun c hc => ?_
  simp only [mem_cons, not_mem_nil, or_false] at hc
  rcases hc with rfl | rfl | rfl | rfl
  · exact within_xack h
  · exact within_discard (within_xdel h)
  · exact within_discard (within_xadd h)
  · exact within_discard (within_xtrim h)

theorem within_deadLetterTransfer (hsource : K stream) (hdlq : K dlq) (hmetrics : K metrics) :
    (deadLetterTransfer stream dlq metrics id group cap service payload).Within K := by
  refine within_bind within_type fun _ => within_bind within_type fun _ =>
    within_bind within_type fun _ => ?_
  refine within_ite (within_fail _) (within_ite (within_fail _)
    (within_ite (within_fail _) ?_))
  refine within_bind (within_xadd hdlq) fun _ => ?_
  refine within_bind (within_xtrim hdlq) fun _ => ?_
  refine within_bind ?_ fun _ => ?_
  · unfold countRemoved
    exact within_ite (within_discard (within_hincrby hmetrics)) (within_pure _)
  refine within_bind within_hget fun _ => ?_
  refine within_bind (within_pcall (within_xack hsource)) fun _ => ?_
  exact within_bind (within_xdel hsource) fun _ => within_pure _

theorem within_deadLetterPurge {actor reason timestamp : String} (hdlq : K dlq) (haudit : K audit) :
    (deadLetterPurge dlq audit actor reason timestamp service cap).Within K := by
  refine within_bind within_type fun _ => within_bind within_type fun _ => ?_
  refine within_ite (within_fail _) (within_ite (within_fail _) ?_)
  refine within_bind within_readStream fun _ => ?_
  refine within_bind (within_xadd haudit) fun _ => ?_
  exact within_bind (within_del hdlq) fun _ => within_pure _

theorem within_retain (h : K stream) : (retain stream status).Within K := by
  unfold retain
  exact within_ite (within_expire h) (within_persist h)

theorem within_settleMarker (h : K stream) :
    (settleMarker key stream jobId).Within K := by
  refine within_bind within_get fun text => ?_
  split
  · refine within_ite (within_pure _) ?_
    exact within_bind within_hget fun _ => within_retain h
  · exact within_pure _

theorem within_writeStatus (h : K (jobKey jobId)) :
    (Cmd.writeStatus jobId status updates).script.Within K := by
  refine within_multi fun c hc => ?_
  simp only [mem_cons, not_mem_nil, or_false] at hc
  rcases hc with rfl | rfl
  · exact within_hset h
  · exact within_retain h

theorem within_readAll
    (h : ∀ key ∈ streams, K key) : (readAll consumer count streams).Within K := by
  induction streams with
  | nil => exact within_pure _
  | cons key keys ih =>
    refine within_bind (within_xreadgroup (h key mem_cons_self)) fun _ => ?_
    refine within_bind (ih fun key hkey => h key (mem_cons_of_mem _ hkey)) fun _ => ?_
    exact within_pure _

theorem requireGroups_server (streams : List String) (s : Server) :
    ((requireGroups streams).run s).2 = s := by
  induction streams with
  | nil => rfl
  | cons key keys ih =>
    simp only [requireGroups]
    split
    · rfl
    · exact ih

theorem within_claim (h : ∀ key ∈ streams, K key) :
    (Cmd.xreadgroup streams consumer count).script.Within K := by
  refine within_bind (fun s k _ => ?_) fun _ => within_readAll h
  rw [requireGroups_server]

theorem within_cancelQueued (h : K stream) (h' : K tracker) :
    (cancelQueued stream tracker id jobId group completedAt error auditSource cancelledBy
      ttl).Within K := by
  refine within_bind within_xrange fun entry => ?_
  cases entry with
  | none => exact within_pure _
  | some entry =>
    refine within_ite (within_pure _) ?_
    refine within_bind within_hget fun status => ?_
    cases status.filter fun status => status ≠ "queued" with
    | some status => exact within_ite (within_pure _) (within_pure _)
    | none =>
      refine within_bind (within_xack h) fun _ => ?_
      refine within_bind (within_xdel h) fun _ => ?_
      refine within_bind (within_hset h') fun _ => ?_
      exact within_bind (within_expire h') fun _ => within_pure _

end Within

/-! ## Which scripts add nothing -/

section Shrinks

variable {stream : String} {id : StreamId}

theorem shrinks_acknowledge : (acknowledge stream id).Shrinks stream := by
  refine shrinks_multi fun c hc => ?_
  simp only [mem_cons, not_mem_nil, or_false] at hc
  rcases hc with rfl | rfl | rfl
  · exact shrinks_xack
  · exact shrinks_bind shrinks_xdel fun _ => shrinks_pure _
  · exact shrinks_bind shrinks_xtrim fun _ => shrinks_pure _

theorem shrinks_cancelQueued {group : String} (hne : stream ≠ tracker) :
    (cancelQueued stream tracker id jobId group completedAt error auditSource cancelledBy
      ttl).Shrinks stream := by
  have hread : ∀ {α : Type} {m : Script α}, (∀ K : String → Prop, K tracker → m.Within K) →
      m.Shrinks stream :=
    fun hm => shrinks_of_within (hm (fun k => k = tracker) rfl) hne
  refine shrinks_bind (hread fun _ _ => within_xrange) fun entry => ?_
  cases entry with
  | none => exact shrinks_pure _
  | some entry =>
    refine shrinks_ite (shrinks_pure _) ?_
    refine shrinks_bind (hread fun _ _ => within_hget) fun status => ?_
    cases status.filter fun status => status ≠ "queued" with
    | some status => exact shrinks_ite (shrinks_pure _) (shrinks_pure _)
    | none =>
      refine shrinks_bind shrinks_xack fun _ => ?_
      refine shrinks_bind shrinks_xdel fun _ => ?_
      refine shrinks_bind (hread fun _ h => within_hset h) fun _ => ?_
      refine shrinks_bind (hread fun _ h => within_expire h) fun _ => ?_
      exact shrinks_pure _

end Shrinks

end GpuManager.Queue
