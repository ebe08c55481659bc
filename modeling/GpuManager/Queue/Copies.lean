import Mathlib.Algebra.BigOperators.Group.Finset.Piecewise
import Mathlib.Algebra.Order.BigOperators.Group.Finset
import Mathlib.Data.List.Count
import GpuManager.Queue.Calls
import GpuManager.Queue.Frame

/-!
# Copies of a job

A failed job is put back by reading its entry in one round trip and adding its payload in a
later one.  The second round trip does not look whether the entry is still there, so two
calls that have read the same entry put it back twice.

The streams of a service hold at most one copy of a job as long as an entry is put back, or
moved to the dead letters, only while it is still queued or when no copy is left.
-/

namespace GpuManager.Queue

open AtomicProgram Redis List

/-! ## Counting copies -/

/-- An entry of a job. -/
def Carries (jobId : String) (e : Entry) : Prop := getField e.fields "job_id" = some jobId

instance (jobId : String) (e : Entry) : Decidable (Carries jobId e) := by
  unfold Carries
  infer_instance

def queueStreams (serviceName : String) (routingGroup : Option String) : Finset String :=
  ([legacyStreamName serviceName routingGroup,
    laneStreamName serviceName routingGroup .interactive,
    laneStreamName serviceName routingGroup .normal,
    laneStreamName serviceName routingGroup .background].filterMap Except.toOption).toFinset

def jobStreams (serviceName : String) (routingGroup : Option String) : Finset String :=
  insert (deadLetterStream serviceName) (queueStreams serviceName routingGroup)

def copiesIn (s : Server) (jobId key : String) : ℕ :=
  (streamOrEmpty s key).entries.countP fun e => Carries jobId e

/-- The entries of a job in the streams of a service. -/
def copies (s : Server) (serviceName : String) (routingGroup : Option String) (jobId : String) :
    ℕ :=
  ∑ key ∈ jobStreams serviceName routingGroup, copiesIn s jobId key

/-- The entry is still in its stream. -/
def Queued (s : Server) (key : String) (e : Entry) : Prop := e ∈ (streamOrEmpty s key).entries

/-- The streams of a service are the ones its handles are resolved to. -/
theorem mem_queueStreams {serviceName : String} {routingGroup : Option String} {key : String} :
    key ∈ queueStreams serviceName routingGroup ↔
      ∃ entryId id, resolveEntryStream serviceName routingGroup entryId = .ok (key, id) := by
  unfold queueStreams
  rw [mem_toFinset, mem_filterMap]
  constructor
  · rintro ⟨name, hname, hkey⟩
    obtain rfl : name = .ok key := by
      cases name with
      | error e => cases hkey
      | ok name => exact congrArg Except.ok (Option.some.inj hkey)
    simp only [mem_cons, not_mem_nil, or_false] at hname
    rcases hname with h | h | h | h
    · exact ⟨⟨none, toLex (0, 0)⟩, _, by simp only [resolveEntryStream, ← h]; rfl⟩
    · exact ⟨⟨some .interactive, toLex (0, 0)⟩, _, by simp only [resolveEntryStream, ← h]; rfl⟩
    · exact ⟨⟨some .normal, toLex (0, 0)⟩, _, by simp only [resolveEntryStream, ← h]; rfl⟩
    · exact ⟨⟨some .background, toLex (0, 0)⟩, _, by simp only [resolveEntryStream, ← h]; rfl⟩
  · rintro ⟨entryId, id, h⟩
    refine ⟨.ok key, ?_, rfl⟩
    unfold resolveEntryStream at h
    split at h
    next lane _ =>
      cases hname : laneStreamName serviceName routingGroup lane with
      | error e => rw [hname] at h; cases h
      | ok name =>
        rw [hname] at h
        obtain ⟨rfl, -⟩ := Prod.mk.inj (Except.ok.inj h)
        cases lane <;> simp [hname]
    next =>
      cases hname : legacyStreamName serviceName routingGroup with
      | error e => rw [hname] at h; cases h
      | ok name =>
        rw [hname] at h
        obtain ⟨rfl, -⟩ := Prod.mk.inj (Except.ok.inj h)
        simp

theorem jobKey_notMem (serviceName : String) (routingGroup : Option String) (jobId : String) :
    jobKey jobId ∉ jobStreams serviceName routingGroup := by
  intro hmem
  rcases Finset.mem_insert.mp hmem with heq | hmem
  · exact jobKey_ne_deadLetter jobId serviceName heq
  · obtain ⟨entryId, id, hkey⟩ := mem_queueStreams.mp hmem
    exact (resolve_queue hkey).ne_jobKey jobId rfl

/-- No stream of a service is the metrics hash, unless the service is named so. -/
theorem metrics_of_mem {serviceName : String} {routingGroup : Option String}
    (hmem : deadLetterMetricsHash ∈ jobStreams serviceName routingGroup) :
    deadLetterMetricsHash = deadLetterStream serviceName := by
  rcases Finset.mem_insert.mp hmem with heq | hmem
  · exact heq
  · obtain ⟨entryId, id, hkey⟩ := mem_queueStreams.mp hmem
    exact absurd rfl (resolve_ne hkey "metrics")

section Count

variable {s s' : Server} {jobId key source target : String} {serviceName : String}
  {routingGroup : Option String}

variable {st : Stream}

theorem streamOrEmpty_eq (h : s.stream key = some st) : streamOrEmpty s key = st := by
  rw [streamOrEmpty, h]
  rfl

theorem copiesIn_congr (h : s'.keys key = s.keys key) :
    copiesIn s' jobId key = copiesIn s jobId key := by
  unfold copiesIn streamOrEmpty
  rw [Server.stream_congr h]

theorem copiesIn_of_sublist {st' : Stream} (hst : s.stream key = some st)
    (hst' : s'.stream key = some st') (hsub : st'.entries.Sublist st.entries) :
    copiesIn s' jobId key ≤ copiesIn s jobId key := by
  unfold copiesIn
  rw [streamOrEmpty_eq hst, streamOrEmpty_eq hst']
  exact hsub.countP_le

theorem copies_le (h : ∀ key ∈ jobStreams serviceName routingGroup,
    copiesIn s' jobId key ≤ copiesIn s jobId key) :
    copies s' serviceName routingGroup jobId ≤ copies s serviceName routingGroup jobId :=
  Finset.sum_le_sum h

/-- What one stream loses and another one gains, all of them together lose and gain. -/
theorem copies_moved {removed : ℕ} (hsource : source ∈ jobStreams serviceName routingGroup)
    (htarget : target ∈ jobStreams serviceName routingGroup)
    (h : ∀ key ∈ jobStreams serviceName routingGroup,
      copiesIn s' jobId key + (if key = source then removed else 0) ≤
        copiesIn s jobId key + (if key = target then 1 else 0)) :
    copies s' serviceName routingGroup jobId + removed ≤
      copies s serviceName routingGroup jobId + 1 := by
  have hsum := Finset.sum_le_sum h
  rw [Finset.sum_add_distrib, Finset.sum_add_distrib, Finset.sum_ite_eq' _ source,
    Finset.sum_ite_eq' _ target, if_pos hsource, if_pos htarget] at hsum
  exact hsum

/-- One entry more is at most one copy more, however the stream is trimmed. -/
theorem countP_add_trim (jobId : String) (st : Stream) (clock : ℕ) (payload : Fields) (maxlen : ℕ) :
    ((st.add clock payload).trim maxlen).entries.countP (fun e => Carries jobId e) ≤
      st.entries.countP (fun e => Carries jobId e) + 1 := by
  calc ((st.add clock payload).trim maxlen).entries.countP (fun e => Carries jobId e)
      ≤ (st.add clock payload).entries.countP (fun e => Carries jobId e) :=
        (drop_sublist _ _).countP_le
    _ = st.entries.countP (fun e => Carries jobId e) +
          [⟨Stream.nextId st.lastId clock, payload⟩].countP (fun e => Carries jobId e) :=
        countP_append
    _ ≤ st.entries.countP (fun e => Carries jobId e) + 1 :=
        Nat.add_le_add_left countP_le_length _

/-- Without an entry of the job there is one copy less. -/
theorem countP_del {e : Entry} (he : e ∈ st.entries) (hjob : Carries jobId e) :
    (st.del e.id).entries.countP (fun e => Carries jobId e) + 1 =
      st.entries.countP (fun e => Carries jobId e) := by
  rw [Stream.del_entries_eq_erase he, countP_erase, if_pos ⟨he, by simpa using hjob⟩]
  have hpos : 0 < st.entries.countP fun e => Carries jobId e :=
    countP_pos_iff.mpr ⟨e, he, by simpa using hjob⟩
  omega

end Count

/-! ## One round trip -/

/-- An entry can be moved to the dead letters of the service without a failure halfway: the
metrics are another key, and there is a number to count on where entries fall out. -/
def Countable (s : Server) (serviceName : String) : Prop :=
  deadLetterStream serviceName ≠ deadLetterMetricsHash ∧
    (exactDeadLetterCap ≤ (streamOrEmpty s (deadLetterStream serviceName)).entries.length →
      (decimal (droppedField s deadLetterMetricsHash serviceName)).isSome)

/-- When a round trip can be made without a second copy: an entry is put back or moved only
while it is queued, or when no copy is left. -/
def SafeMove (serviceName : String) (routingGroup : Option String) (jobId key : String)
    (e : Entry) (event : Event Server Cmd) : Prop :=
  match event.cmd with
  | .requeue _ _ _ =>
    Queued event.before key e ∨ copies event.before serviceName routingGroup jobId = 0
  | .deadLetterTransfer _ _ _ _ =>
    (Queued event.before key e ∨ copies event.before serviceName routingGroup jobId = 0) ∧
      Countable event.before serviceName
  | _ => True

section Step

variable {s : Server} {serviceName : String} {routingGroup : Option String} {jobId key : String}
  {e : Entry}

/-- The stream of the entry exists, and there is at most one copy. -/
def OneCopy (serviceName : String) (routingGroup : Option String) (jobId key : String)
    (s : Server) : Prop :=
  (∃ st, s.stream key = some st) ∧ copies s serviceName routingGroup jobId ≤ 1

/-- A round trip that adds nothing to the streams. -/
theorem oneCopy_of_shrinks {α : Type} {m : Script α} {K : String → Prop}
    (hs : OneCopy serviceName routingGroup jobId key s) (hshrinks : m.Shrinks key)
    (hwithin : m.Within K) (hK : ∀ k ∈ jobStreams serviceName routingGroup, K k → k = key) :
    OneCopy serviceName routingGroup jobId key (m.run s).2 := by
  obtain ⟨⟨st, hst⟩, hone⟩ := hs
  obtain ⟨st', hst', hsub⟩ := hshrinks s st hst
  refine ⟨⟨st', hst'⟩, (copies_le fun k hk => ?_).trans hone⟩
  by_cases heq : k = key
  · rw [heq]
    exact copiesIn_of_sublist hst hst' hsub
  · exact (copiesIn_congr (hwithin s k fun hKk => heq (hK k hk hKk))).le

/-- What leaves the stream of the entry when it is deleted. -/
theorem copiesIn_del (hst : s.stream key = some st) (hjob : Carries jobId e) :
    ∃ removed, (st.del e.id).entries.countP (fun e => Carries jobId e) + removed =
        copiesIn s jobId key ∧ (Queued s key e → removed = 1) := by
  unfold copiesIn Queued
  rw [streamOrEmpty_eq hst]
  have hle : (st.del e.id).entries.countP (fun e => Carries jobId e) ≤
      st.entries.countP (fun e => Carries jobId e) := filter_sublist.countP_le
  refine ⟨st.entries.countP (fun e => Carries jobId e) -
    (st.del e.id).entries.countP (fun e => Carries jobId e), by omega, fun hmem => ?_⟩
  have hdel := countP_del hmem hjob
  omega

/-- Where an entry is removed, or none is left, one more copy is no copy too many. -/
theorem one_of_moved {removed n n' : ℕ} (hmoved : n' + removed ≤ n + 1) (hone : n ≤ 1)
    (hsafe : removed = 1 ∨ n = 0) : n' ≤ 1 := by
  omega

section

variable (payload : Fields) (hs : OneCopy serviceName routingGroup jobId key s)
  (hkey : key ∈ jobStreams serviceName routingGroup)
include hs hkey

theorem oneCopy_requeue (hjob : Carries jobId e)
    (hsafe : Queued s key e ∨ copies s serviceName routingGroup jobId = 0) :
    OneCopy serviceName routingGroup jobId key (exec (.requeue key e.id payload) s).2 := by
  obtain ⟨⟨st, hst⟩, hone⟩ := hs
  obtain ⟨s', hrun, w⟩ := requeue_spec e.id payload hst
  have hexec : exec (.requeue key e.id payload) s = (.ok (), s') := hrun
  rw [hexec]
  obtain ⟨removed, hremoved, hqueued⟩ := copiesIn_del hst hjob
  refine ⟨⟨_, w.stream⟩, one_of_moved (copies_moved hkey hkey fun k _ => ?_) hone
    (hsafe.imp_left hqueued)⟩
  by_cases heq : k = key
  · rw [heq, if_pos rfl, if_pos rfl, ← hremoved]
    unfold copiesIn
    rw [streamOrEmpty_eq w.stream]
    have hadd := countP_add_trim jobId ((st.ack group e.id).del e.id) s.clock payload
      streamMaxlen
    have hsame : ((st.ack group e.id).del e.id).entries = (st.del e.id).entries := rfl
    rw [hsame] at hadd
    omega
  · rw [if_neg heq, if_neg heq, copiesIn_congr (w.others k heq)]

/-- A transfer of a queued entry, or of a job without a copy, leaves at most one copy. -/
theorem oneCopy_transfer (hdlqKey : key ≠ deadLetterStream serviceName)
    (hmetricsKey : key ≠ deadLetterMetricsHash) (hjob : Carries jobId e)
    (hsafe : Queued s key e ∨ copies s serviceName routingGroup jobId = 0)
    (hcount : Countable s serviceName) :
    OneCopy serviceName routingGroup jobId key
      (exec (.deadLetterTransfer key e.id serviceName payload) s).2 := by
  obtain ⟨⟨st, hst⟩, hone⟩ := hs
  by_cases hfits : Fits s (deadLetterStream serviceName) .stream ∧
      Fits s deadLetterMetricsHash .hash
  · obtain ⟨r, s', hrun, hsource, hdlq, -, -, -, hkeys, -⟩ :=
      deadLetterTransfer_ok e.id group payload hst hdlqKey hmetricsKey
        ⟨hfits.1, hfits.2, hcount.1, hcount.2⟩
    have hexec : exec (.deadLetterTransfer key e.id serviceName payload) s = (.ok r, s') := hrun
    rw [hexec]
    obtain ⟨removed, hremoved, hqueued⟩ := copiesIn_del hst hjob
    refine ⟨⟨_, hsource⟩, one_of_moved
      (copies_moved hkey (Finset.mem_insert_self _ _) fun k hk => ?_) hone
      (hsafe.imp_left hqueued)⟩
    by_cases heq : k = key
    · rw [heq, if_pos rfl, if_neg hdlqKey, ← hremoved]
      unfold copiesIn
      rw [streamOrEmpty_eq hsource]
      exact le_rfl
    · rw [if_neg heq]
      by_cases hdead : k = deadLetterStream serviceName
      · rw [hdead, if_pos rfl]
        have hadd := countP_add_trim jobId
          (streamOrEmpty s (deadLetterStream serviceName)) s.clock payload exactDeadLetterCap
        unfold copiesIn
        rw [streamOrEmpty_eq hdlq]
        exact hadd
      · rw [if_neg hdead]
        have hmetrics : k ≠ deadLetterMetricsHash := by
          rintro rfl
          exact hdead (metrics_of_mem hk)
        rw [copiesIn_congr (hkeys k heq hdead hmetrics)]
  · obtain ⟨error, hrun⟩ := deadLetterTransfer_refused e.id group payload hst hfits
    have hexec : exec (.deadLetterTransfer key e.id serviceName payload) s = (.error error, s) :=
      hrun
    rw [hexec]
    exact ⟨⟨st, hst⟩, hone⟩

end

/-- The round trips of calls on one entry, and the clock. -/
inductive EntryCmd (serviceName key : String) (id : StreamId) : Cmd → Prop where
  | onEntry {c : Cmd} (h : OnEntry serviceName key id c) : EntryCmd serviceName key id c
  | tick (clock : ℕ) : EntryCmd serviceName key id (.tick clock)

variable {entryId : Handle}

/-- **One round trip** makes no second copy when it is made safely. -/
theorem oneCopy_step {c : Cmd}
    (hkey : resolveEntryStream serviceName routingGroup entryId = .ok (key, e.id))
    (hjob : Carries jobId e) (hs : OneCopy serviceName routingGroup jobId key s)
    (hc : EntryCmd serviceName key e.id c)
    (hsafe : SafeMove serviceName routingGroup jobId key e ⟨c, s⟩) :
    OneCopy serviceName routingGroup jobId key (exec c s).2 := by
  have hmem : key ∈ jobStreams serviceName routingGroup :=
    Finset.mem_insert_of_mem (mem_queueStreams.mpr ⟨entryId, e.id, hkey⟩)
  have honly : ∀ k ∈ jobStreams serviceName routingGroup, key = k → k = key :=
    fun _ _ h => h.symm
  cases hc with
  | tick clock => exact hs
  | onEntry hc =>
    cases c with
    | xrange stream id =>
      have hnothing : (Redis.xrange stream id).Within fun _ => False := within_xrange
      exact oneCopy_of_shrinks hs (Script.shrinks_of_within hnothing not_false) hnothing
        fun _ _ h => h.elim
    | clearPending stream id =>
      obtain ⟨rfl, rfl⟩ := hc
      refine oneCopy_of_shrinks hs (Script.shrinks_multi fun c hc => ?_)
        (Script.within_multi fun c hc => ?_) honly
      · obtain rfl := mem_singleton.mp hc
        exact Script.shrinks_xack
      · obtain rfl := mem_singleton.mp hc
        exact within_xack rfl
    | acknowledge stream id =>
      obtain ⟨rfl, rfl⟩ := hc
      exact oneCopy_of_shrinks hs shrinks_acknowledge (within_acknowledge rfl) honly
    | cancelQueued stream id jobId' =>
      obtain ⟨rfl, rfl⟩ := hc
      refine oneCopy_of_shrinks hs (shrinks_cancelQueued ((resolve_queue hkey).ne_jobKey jobId'))
        (within_cancelQueued (K := fun k => k = stream ∨ k = jobKey jobId') (.inl rfl)
          (.inr rfl)) fun k hk h => ?_
      rcases h with h | rfl
      · exact h
      · exact absurd hk (jobKey_notMem serviceName routingGroup jobId')
    | requeue stream id payload =>
      obtain ⟨rfl, rfl⟩ := hc
      exact oneCopy_requeue payload hs hmem hjob hsafe
    | deadLetterTransfer source id service payload =>
      obtain ⟨rfl, rfl, rfl⟩ := hc
      exact oneCopy_transfer payload hs hmem (resolve_ne hkey _) (resolve_ne hkey "metrics")
        hjob hsafe.1 hsafe.2
    | _ => cases hc

end Step

/-! ## Runs -/

/-- The calls on the handle of one entry, while time passes. -/
def OnHandle (serviceName : String) (routingGroup : Option String) (entryId : Handle)
    (op : QueueOp) : Prop :=
  op.target = some (serviceName, routingGroup, entryId) ∨ ∃ clock, op = .tick clock

theorem program_entryCmd {serviceName : String} {routingGroup : Option String}
    {key : String} {id : StreamId} (op : QueueOp)
    (hkey : resolveEntryStream serviceName routingGroup entryId = .ok (key, id))
    (hop : OnHandle serviceName routingGroup entryId op) :
    op.program.Issues (EntryCmd serviceName key id) := by
  rcases hop with hop | ⟨clock, rfl⟩
  · refine op.program_issues ?_ ?_ fun clock => .tick clock
    · intro serviceName' routingGroup' entryId' key' id' htarget hkey' c hc
      obtain ⟨rfl, hrest⟩ := Prod.mk.inj (Option.some.inj (htarget.symm.trans hop))
      obtain ⟨rfl, rfl⟩ := Prod.mk.inj hrest
      obtain ⟨rfl, rfl⟩ := Prod.mk.inj (Except.ok.inj (hkey'.symm.trans hkey))
      exact .onEntry hc
    · intro serviceName' actor reason timestamp _ htarget
      rw [hop] at htarget
      cases htarget
  · exact issues_redis (.tick clock)

/-- **No second copy of a job.**  A job is in the streams of its service as one entry, and
any number of calls on the handle of this entry run interleaved.  As long as an entry is put
back or moved to the dead letters only while it is queued, or when no copy is left, and no
move fails halfway, the streams never hold two copies. -/
theorem never_duplicated {serviceName : String} {routingGroup : Option String}
    {entryId : Handle} {key jobId : String} {e : Entry} {start : Server} {st : Stream}
    (hkey : resolveEntryStream serviceName routingGroup entryId = .ok (key, e.id))
    (hst : start.stream key = some st) (hjob : Carries jobId e)
    (hsingle : copies start serviceName routingGroup jobId = 1) (ls : List (Label QueueOp))
    (hops : ∀ op, Label.start op ∈ ls → OnHandle serviceName routingGroup entryId op)
    (hsafe : ∀ event ∈ queueSystem.history ⟨start, []⟩ ls,
      SafeMove serviceName routingGroup jobId key e event) :
    ∀ ls', ls' <+: ls →
      copies (queueSystem.run ⟨start, []⟩ ls').store serviceName routingGroup jobId ≤ 1 := by
  rintro ls' ⟨rest, rfl⟩
  have hlaunches : ∀ results op p, OnHandle serviceName routingGroup entryId op →
      queueSystem.launch results op = some p → p.Issues (EntryCmd serviceName key e.id) := by
    intro results op p hop hlaunch
    obtain rfl := Option.some.inj hlaunch
    exact program_entryCmd op hkey hop
  have hissues : ∀ event ∈ queueSystem.history ⟨start, []⟩ ls',
      EntryCmd serviceName key e.id event.cmd :=
    queueSystem.issues_run hlaunches (fun p hp => (by cases hp))
      fun op hop => hops op (mem_append_left _ hop)
  have hearlier : ∀ event ∈ queueSystem.history ⟨start, []⟩ ls',
      SafeMove serviceName routingGroup jobId key e event := by
    intro event hevent
    refine hsafe event ?_
    rw [System.history_append]
    exact mem_append_left _ hevent
  have hone := queueSystem.run_induction (OneCopy serviceName routingGroup jobId key)
    ⟨⟨st, hst⟩, hsingle.le⟩ fun event hevent hs =>
      oneCopy_step hkey hjob hs (hissues event hevent) (hearlier event hevent)
  exact hone.2

/-! ## A worker and the reaper -/

open EntryOp (serverOf newest)

instance (s : Server) (key : String) (e : Entry) : Decidable (Queued s key e) := by
  unfold Queued
  infer_instance

instance (s : Server) (serviceName : String) : Decidable (Countable s serviceName) := by
  unfold Countable
  infer_instance

instance (serviceName : String) (routingGroup : Option String) (jobId key : String) (e : Entry)
    (event : Event Server Cmd) :
    Decidable (SafeMove serviceName routingGroup jobId key e event) := by
  unfold SafeMove
  split <;> infer_instance

def nackOnce : QueueOp := .nack "video" none ⟨none, (newest 1).id⟩ 3 "now"

/-- The reaper reads the entry after the worker has put it back. -/
def nackInTurn : List (Label QueueOp) :=
  [.start nackOnce, .start nackOnce, .act 0, .act 0, .act 1, .act 1]

/-- Both read the entry before one of them puts it back. -/
def nackTogether : List (Label QueueOp) :=
  [.start nackOnce, .start nackOnce, .act 0, .act 1, .act 0, .act 1]

theorem nackOnce_onHandle {ls : List (Label QueueOp)}
    (h : ls = nackInTurn ∨ ls = nackTogether) :
    ∀ op, Label.start op ∈ ls → OnHandle "video" none ⟨none, (newest 1).id⟩ op := by
  intro op hop
  have heq : op = nackOnce := by
    rcases h with rfl | rfl <;> simpa [nackInTurn, nackTogether] using hop
  rw [heq]
  exact Or.inl rfl

/-- One after the other they leave one copy, at every moment. -/
theorem nackInTurn_single :
    copies (serverOf 1) "video" none "J-0001" = 1 ∧
      ∀ ls', ls' <+: nackInTurn →
        copies (queueSystem.run ⟨serverOf 1, []⟩ ls').store "video" none "J-0001" ≤ 1 := by
  have hresolve : resolveEntryStream "video" none ⟨none, (newest 1).id⟩ =
      .ok ("queue:video", (newest 1).id) := rfl
  exact ⟨by decide +kernel, never_duplicated (e := newest 1) hresolve
    (EntryOp.serverOf_stream 1) rfl (by decide +kernel) nackInTurn
    (nackOnce_onHandle (Or.inl rfl)) (by decide +kernel)⟩

/-- Together they leave two. -/
theorem nackTogether_duplicates :
    copies (serverOf 1) "video" none "J-0001" = 1 ∧
      (∀ op, Label.start op ∈ nackTogether → OnHandle "video" none ⟨none, (newest 1).id⟩ op) ∧
      ¬ copies (queueSystem.run ⟨serverOf 1, []⟩ nackTogether).store "video" none "J-0001" ≤ 1 :=
  ⟨by decide +kernel, nackOnce_onHandle (Or.inr rfl), by decide +kernel⟩

end GpuManager.Queue
