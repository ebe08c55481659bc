import GpuManager.Queue.Specs

/-!
# What handling one entry does to the others

`ack`, `nack` and `yield_pending` each end with an exact trim of the live stream.  While
the stream is short enough the trim does nothing and the call changes its own entry only;
a longer stream loses its oldest jobs.

`EntryOp.Handles` says what handling an entry should do, and `handles_iff` says exactly
when the code does that.
-/

namespace GpuManager.Queue

open AtomicProgram Redis Stream List Option

/-! ## The calls -/

inductive EntryOp where
  | ack | asyncAck
  | nack (maxRetries : ℤ) (now : String)
  | asyncNack (maxRetries : ℤ) (now : String)
  | yieldPending

namespace EntryOp

/-- The method that is called. -/
def program (serviceName : String) (routingGroup : Option String) (entryId : Handle) :
    EntryOp → Action Bool
  | ack => RedisQueue.ack serviceName routingGroup entryId
  | asyncAck => AsyncRedisQueue.ack serviceName routingGroup entryId
  | nack maxRetries now => RedisQueue.nack serviceName routingGroup entryId maxRetries now
  | asyncNack maxRetries now =>
    AsyncRedisQueue.nack serviceName routingGroup entryId maxRetries now
  | yieldPending => AsyncRedisQueue.yieldPending serviceName routingGroup entryId

/-- The fields in which a copy of a payload differs from it. -/
def bookkeeping : List String :=
  ["_nack_count", "_yield_count", "_dead_letter_cap", "_dead_letter_ts"]

/-- The payload, up to the fields the engine keeps its own counts in. -/
def SamePayload (d d' : Fields) : Prop :=
  ∀ field, field ∉ bookkeeping → getField d' field = getField d field

/-- The entry is removed and every other one is still there. -/
def RemovesExactly (s s' : Server) (key : String) (e : Entry) : Prop :=
  ∃ st st', s.stream key = some st ∧ s'.stream key = some st' ∧
    st'.entries = st.entries.filter fun e' => e' ≠ e

/-- The entry is removed, one copy of it is added, and every other entry is still there. -/
def Requeues (s s' : Server) (key : String) (e : Entry) : Prop :=
  ∃ st st' copy, s.stream key = some st ∧ s'.stream key = some st' ∧
    st'.entries = (st.entries.filter fun e' => e' ≠ e) ++ [copy] ∧ copy ∉ st.entries ∧
      SamePayload e.fields copy.fields

/-- The entry is removed and its payload is the newest dead letter of the service. -/
def DeadLetters (s s' : Server) (key dlq : String) (e : Entry) : Prop :=
  RemovesExactly s s' key e ∧
    ∃ dl copy, s'.stream dlq = some dl ∧ dl.entries.getLast? = some copy ∧
      copy ∉ (streamOrEmpty s dlq).entries ∧ SamePayload e.fields copy.fields

/-- Handling an entry does what it is for and leaves the other entries alone. -/
def Handles (serviceName : String) (s s' : Server) (key : String) (e : Entry) : EntryOp → Prop
  | ack | asyncAck => RemovesExactly s s' key e
  | nack _ _ | asyncNack _ _ | yieldPending =>
    Requeues s s' key e ∨ DeadLetters s s' key (deadLetterStream serviceName) e

/-- Requeueing fits under the limit of the stream: the count can be read, and the stream is
not longer than the limit. -/
def RoomToRequeue (field : String) (st : Stream) (e : Entry) : Prop :=
  (∃ n, nextCount field e.fields = .ok n) ∧ st.entries.length ≤ streamMaxlen

/-- What `nack` needs: a count it can read, and then room in the stream or, for an entry
that has had its retries, dead-letter keys it can use. -/
def RoomToNack (serviceName : String) (s : Server) (st : Stream) (e : Entry) (maxRetries : ℤ) :
    Prop :=
  ∃ n, nextCount "_nack_count" e.fields = .ok n ∧
    if n ≥ maxRetries then
      TransferReady s (deadLetterStream serviceName) deadLetterMetricsHash serviceName
        exactDeadLetterCap
    else st.entries.length ≤ streamMaxlen

/-- When handling an entry leaves the others alone: the stream without the entry, and with
its copy, is within the limit. -/
def Room (serviceName : String) (s : Server) (st : Stream) (e : Entry) : EntryOp → Prop
  | ack | asyncAck => st.entries.length ≤ streamMaxlen + 1
  | nack maxRetries _ | asyncNack maxRetries _ => RoomToNack serviceName s st e maxRetries
  | yieldPending => RoomToRequeue "_yield_count" st e

end EntryOp

/-! ## Payloads -/

variable {dlq field : String}

/-- Replacing the value of a field leaves the others. -/
theorem getField_replace_of_ne (d : Fields) {key : String} (value : String) (h : field ≠ key) :
    getField (d.map fun f => if f.1 = key then (key, value) else f) field = getField d field := by
  unfold getField
  induction d with
  | nil => rfl
  | cons f d ih =>
    simp only [map_cons, List.find?_cons]
    by_cases hkey : f.1 = key
    · have hne : f.1 ≠ field := fun heq => h (heq.symm.trans hkey)
      simp only [if_pos hkey, decide_eq_false (Ne.symm h), decide_eq_false hne]
      exact ih
    · simp only [if_neg hkey]
      by_cases hfield : f.1 = field
      · simp only [decide_eq_true hfield]
      · simp only [decide_eq_false hfield]
        exact ih

/-- A field written into a dictionary leaves the others. -/
theorem getField_insertField_of_ne (d : Fields) {key : String} (value : String)
    (h : field ≠ key) : getField (insertField d key value) field = getField d field := by
  unfold insertField
  split
  · exact getField_replace_of_ne d value h
  unfold getField
  rw [List.find?_append]
  simp [Ne.symm h]

namespace EntryOp

theorem samePayload_insert (d : Fields) {key : String} (value : String)
    (h : key ∈ bookkeeping) : SamePayload d (insertField d key value) := by
  intro field hfield
  exact getField_insertField_of_ne d value fun heq => hfield (heq ▸ h)

theorem SamePayload.trans {d d' d'' : Fields} (h : SamePayload d d') (h' : SamePayload d' d'') :
    SamePayload d d'' := fun field hfield => (h' field hfield).trans (h field hfield)

theorem samePayload_deadLetter (d : Fields) (nackCount : ℤ) (now : String) :
    SamePayload d (deadLetterPayload d nackCount now) :=
  ((samePayload_insert d _ (by decide)).trans (samePayload_insert _ _ (by decide))).trans
    (samePayload_insert _ _ (by decide))

/-! ## Acknowledging -/

section Handle

variable {serviceName key : String} {s s' : Server} {st : Stream} {e : Entry}

section

variable (hst : s.stream key = some st)
include hst

/-- Removing an entry and trimming leaves every other entry exactly when there are not too
many. -/
theorem removesExactly_iff (he : e ∈ st.entries)
    (hst' : s'.stream key = some (((st.ack group e.id).del e.id).trim streamMaxlen)) :
    RemovesExactly s s' key e ↔ st.entries.length ≤ streamMaxlen + 1 := by
  have hmem : e ∈ (st.ack group e.id).entries := he
  have hdel : ((st.ack group e.id).del e.id).entries = st.entries.filter fun e' => e' ≠ e :=
    del_entries_of_mem hmem
  have hlen := length_del_of_mem hmem
  have htrim := trim_entries_eq_iff ((st.ack group e.id).del e.id) streamMaxlen
  rw [hdel] at htrim
  rw [hdel, ack_entries] at hlen
  have hroom : (st.entries.filter fun e' => e' ≠ e).length ≤ streamMaxlen ↔
      st.entries.length ≤ streamMaxlen + 1 := by omega
  rw [← hroom, ← htrim]
  constructor
  · rintro ⟨st₀, st₀', hst₀, hst₀', hentries⟩
    obtain rfl := some.inj (hst.symm.trans hst₀)
    obtain rfl := some.inj (hst'.symm.trans hst₀')
    exact hentries
  · intro hentries
    exact ⟨st, _, hst, hst', hentries⟩

/-- An entry that is still in its stream was not removed. -/
theorem not_removesExactly (he : e ∈ st.entries) (hsame : s'.keys key = s.keys key) :
    ¬ RemovesExactly s s' key e := by
  rintro ⟨st₀, st₀', hst₀, hst₀', hentries⟩
  rw [Server.stream_congr hsame] at hst₀'
  obtain rfl := some.inj (hst.symm.trans hst₀)
  obtain rfl := some.inj (hst.symm.trans hst₀')
  rw [hentries] at he
  simp at he

/-- An entry that is still in its stream was not requeued either. -/
theorem not_requeues (hsame : s'.keys key = s.keys key) : ¬ Requeues s s' key e := by
  rintro ⟨st₀, st₀', copy, hst₀, hst₀', hentries, hcopy, -⟩
  rw [Server.stream_congr hsame] at hst₀'
  obtain rfl := some.inj (hst.symm.trans hst₀)
  obtain rfl := some.inj (hst.symm.trans hst₀')
  apply hcopy
  rw [hentries]
  exact mem_append_right _ (mem_singleton_self copy)

/-- Requeueing an entry leaves every other entry exactly when the stream is within its
limit. -/
theorem requeues_iff {payload : Fields} (he : e ∈ st.entries)
    (hpayload : SamePayload e.fields payload) (hst' : s'.stream key =
      some ((((st.ack group e.id).del e.id).add s.clock payload).trim streamMaxlen)) :
    (Requeues s s' key e ∨ DeadLetters s s' key dlq e) ↔ st.entries.length ≤ streamMaxlen := by
  have hmem : e ∈ (st.ack group e.id).entries := he
  have hdel : ((st.ack group e.id).del e.id).entries = st.entries.filter fun e' => e' ≠ e :=
    del_entries_of_mem hmem
  have hlen := length_del_of_mem hmem
  have htrim := trim_entries_eq_iff
    (((st.ack group e.id).del e.id).add s.clock payload) streamMaxlen
  rw [hdel, ack_entries] at hlen
  have hadd : (((st.ack group e.id).del e.id).add s.clock payload).entries =
      (st.entries.filter fun e' => e' ≠ e) ++ [⟨nextId st.lastId s.clock, payload⟩] := by
    rw [← hdel]
    rfl
  have hnew : (⟨nextId st.lastId s.clock, payload⟩ : Entry) ∉ st.entries :=
    notMem_of_lt (lt_nextId _ _)
  have haddLen : (((st.ack group e.id).del e.id).add s.clock payload).entries.length =
      st.entries.length := by
    rw [hadd, length_append, length_singleton]
    exact hlen
  rw [haddLen] at htrim
  rw [← htrim]
  constructor
  · rintro (⟨st₀, st₀', copy, hst₀, hst₀', hentries, -⟩ | ⟨⟨st₀, st₀', hst₀, hst₀', hentries⟩, -⟩)
    · -- Nothing was trimmed: the stream is as long as before.
      obtain rfl := some.inj (hst.symm.trans hst₀)
      obtain rfl := some.inj (hst'.symm.trans hst₀')
      refine htrim.mpr ?_
      have htrimmed := congrArg List.length hentries
      rw [length_append, length_singleton, hlen] at htrimmed
      simp only [trim, length_drop, haddLen] at htrimmed
      by_contra hlong
      rw [not_le] at hlong
      have hpos : 0 < streamMaxlen := by decide
      omega
    · -- The stream has a new last entry, which is none of the old ones.
      obtain rfl := some.inj (hst.symm.trans hst₀)
      obtain rfl := some.inj (hst'.symm.trans hst₀')
      exfalso
      apply hnew
      have hlast : (⟨nextId st.lastId s.clock, payload⟩ : Entry) ∈
          ((((st.ack group e.id).del e.id).add s.clock payload).trim streamMaxlen).entries := by
        simp only [trim, haddLen]
        rw [hadd, drop_append_of_le_length]
        · exact mem_append_right _ (mem_singleton_self _)
        · have hpos : 0 < streamMaxlen := by decide
          omega
      rw [hentries] at hlast
      exact (mem_filter.mp hlast).1
  · intro hentries
    left
    exact ⟨st, _, _, hst, hst', hentries.trans hadd, hnew, hpayload⟩

/-! ## The methods -/

end

variable {routingGroup : Option String} {entryId : Handle}

theorem script_xrange (hst : s.stream key = some st) (he : e ∈ st.entries) :
    (Cmd.xrange key e.id).script.run s = (.ok (some e), s) := by
  show (xrange key e.id).run s = _
  unfold xrange
  rw [readStream_ok hst, find_of_mem he]
  rfl

theorem ackEntry_iff
    (hkey : resolveEntryStream serviceName routingGroup entryId = .ok (key, e.id))
    (hst : s.stream key = some st) (he : e ∈ st.entries) :
    RemovesExactly s ((ackEntry serviceName routingGroup entryId).run exec s).2 key e ↔
      st.entries.length ≤ streamMaxlen + 1 := by
  obtain ⟨s', hrun, w⟩ := acknowledge_spec e.id hst
  have hprogram : (ackEntry serviceName routingGroup entryId).run exec s = (.ok true, s') := by
    unfold ackEntry
    rw [run_raising_ok hkey]
    exact run_redis_ok hrun
  rw [hprogram]
  exact removesExactly_iff hst he w.stream

/-- A method that raises before it writes changes nothing. -/
theorem not_handled_of_same (hst : s.stream key = some st) (he : e ∈ st.entries)
    (hsame : s'.keys key = s.keys key) :
    ¬ (Requeues s s' key e ∨ DeadLetters s s' key dlq e) := by
  rintro (hrequeues | hdead)
  · exact not_requeues hst hsame hrequeues
  · exact not_removesExactly hst he hsame hdead.1

variable (hkey : resolveEntryStream serviceName routingGroup entryId = .ok (key, e.id))
  (hst : s.stream key = some st) (he : e ∈ st.entries)
include hkey hst he

/-- `yield_pending` keeps the entry exactly where there is room to requeue it. -/
theorem yieldEntry_iff :
    (Requeues s ((yieldEntry serviceName routingGroup entryId).run exec s).2 key e ∨
        DeadLetters s ((yieldEntry serviceName routingGroup entryId).run exec s).2 key dlq e) ↔
      RoomToRequeue "_yield_count" st e := by
  have hread := script_xrange hst he
  cases hcount : nextCount "_yield_count" e.fields with
  | error error =>
    have hprogram : (yieldEntry serviceName routingGroup entryId).run exec s =
        (.error error, s) := by
      unfold yieldEntry
      rw [run_raising_ok hkey]
      refine (run_redis_ok hread).trans ?_
      exact run_raising_error hcount
    rw [hprogram]
    constructor
    · intro hhandled
      exact absurd hhandled (not_handled_of_same hst he rfl)
    · rintro ⟨⟨n, hn⟩, -⟩
      rw [hcount] at hn
      cases hn
  | ok n =>
    obtain ⟨s', hrun, w⟩ := requeue_spec e.id
      (insertField e.fields "_yield_count" (toString n)) hst
    have hprogram : (yieldEntry serviceName routingGroup entryId).run exec s =
        (.ok true, s') := by
      unfold yieldEntry
      rw [run_raising_ok hkey]
      refine (run_redis_ok hread).trans ?_
      refine (run_raising_ok hcount).trans ?_
      exact run_redis_ok hrun
    rw [hprogram, requeues_iff hst he (samePayload_insert _ _ (by decide)) w.stream]
    exact ⟨fun h => ⟨⟨n, hcount⟩, h⟩, fun h => h.2⟩

/-- `nack` requeues the entry or moves it to the dead letters exactly where there is room. -/
theorem nackEntry_iff {maxRetries : ℤ} {now : String} :
    (Requeues s ((nackEntry serviceName routingGroup entryId maxRetries now).run exec s).2 key e ∨
        DeadLetters s ((nackEntry serviceName routingGroup entryId maxRetries now).run exec s).2
          key (deadLetterStream serviceName) e) ↔
      RoomToNack serviceName s st e maxRetries := by
  have hread := script_xrange hst he
  have hroom : RoomToNack serviceName s st e maxRetries ↔
      ∃ n, nextCount "_nack_count" e.fields = .ok n ∧
        if n ≥ maxRetries then
          TransferReady s (deadLetterStream serviceName) deadLetterMetricsHash serviceName
            exactDeadLetterCap
        else st.entries.length ≤ streamMaxlen := Iff.rfl
  rw [hroom]
  cases hcount : nextCount "_nack_count" e.fields with
  | error error =>
    have hprogram : (nackEntry serviceName routingGroup entryId maxRetries now).run exec s =
        (.error error, s) := by
      unfold nackEntry
      rw [run_raising_ok hkey]
      refine (run_redis_ok hread).trans ?_
      exact run_raising_error hcount
    rw [hprogram]
    constructor
    · intro hhandled
      exact absurd hhandled (not_handled_of_same hst he rfl)
    · rintro ⟨n, hn, -⟩
      cases hn
  | ok n =>
    have hnack : (nackEntry serviceName routingGroup entryId maxRetries now).run exec s =
        (if n ≥ maxRetries then do
          let _ ← redis (.deadLetterTransfer key e.id serviceName
            (deadLetterPayload e.fields n now))
          pure true
        else do
          redis (.requeue key e.id (insertField e.fields "_nack_count" (toString n)))
          pure true : Action Bool).run exec s := by
      unfold nackEntry
      rw [run_raising_ok hkey]
      refine (run_redis_ok hread).trans ?_
      exact run_raising_ok hcount
    have hsome : ∀ P : ℤ → Prop, (∃ m, Except.ok n = (Except.ok m : Except QueueError ℤ) ∧ P m) ↔
        P n := by
      intro P
      constructor
      · rintro ⟨m, hm, hP⟩
        obtain rfl := Except.ok.inj hm
        exact hP
      · exact fun hP => ⟨n, rfl, hP⟩
    rw [hnack, hsome]
    by_cases hdead : n ≥ maxRetries
    · rw [if_pos hdead, if_pos hdead]
      have hdlq : key ≠ deadLetterStream serviceName := resolve_ne hkey serviceName
      have hmetrics : key ≠ deadLetterMetricsHash := resolve_ne hkey "metrics"
      by_cases hready : TransferReady s (deadLetterStream serviceName) deadLetterMetricsHash
          serviceName exactDeadLetterCap
      · obtain ⟨r, s', hrun, hsource, hdl, -⟩ := deadLetterTransfer_ok e.id group
          (deadLetterPayload e.fields n now) hst hdlq hmetrics hready
        rw [run_redis_ok (c := .deadLetterTransfer key e.id serviceName _) hrun]
        refine ⟨fun _ => hready, fun _ => Or.inr ⟨?_, ?_⟩⟩
        · have hmem : e ∈ (st.ack group e.id).entries := he
          exact ⟨st, _, hst, hsource, del_entries_of_mem hmem⟩
        · refine ⟨_, ⟨nextId (streamOrEmpty s (deadLetterStream serviceName)).lastId
            s.clock, deadLetterPayload e.fields n now⟩, hdl, ?_, ?_, ?_⟩
          · simp only [trim, add, length_append, length_singleton]
            rw [drop_append_of_le_length]
            · simp
            · have hcap : 0 < exactDeadLetterCap := by decide
              omega
          · exact notMem_of_lt (lt_nextId _ _)
          · exact samePayload_deadLetter _ _ _
      · obtain ⟨error, s', hrun, hsame⟩ := deadLetterTransfer_error e.id group
          (deadLetterPayload e.fields n now) hst hdlq hmetrics hready
        rw [run_redis_error (c := .deadLetterTransfer key e.id serviceName _) hrun]
        exact ⟨fun hhandled => absurd hhandled (not_handled_of_same hst he hsame),
          fun h => absurd h hready⟩
    · rw [if_neg hdead, if_neg hdead]
      obtain ⟨s', hrun, w⟩ := requeue_spec e.id
        (insertField e.fields "_nack_count" (toString n)) hst
      have hprogram : (do
          redis (.requeue key e.id (insertField e.fields "_nack_count" (toString n)))
          pure true : Action Bool).run exec s = (.ok true, s') := run_redis_ok hrun
      rw [hprogram]
      exact requeues_iff hst he (samePayload_insert _ _ (by decide)) w.stream

end Handle

/-- **Handling one entry.**  For every stream and every entry of it, `ack` removes exactly
the entry, and `nack` and `yield_pending` remove exactly the entry and add one copy of it or
move it to the dead letters, if and only if the stream has room: the trim at the end of the
call has nothing to do, the retry count can be read, and the dead-letter keys can be used. -/
theorem handles_iff (op : EntryOp) {serviceName : String} {routingGroup : Option String}
    {entryId : Handle} {key : String} {s : Server} {st : Stream} {e : Entry}
    (hkey : resolveEntryStream serviceName routingGroup entryId = .ok (key, e.id))
    (hst : s.stream key = some st) (he : e ∈ st.entries) :
    op.Handles serviceName s ((op.program serviceName routingGroup entryId).run exec s).2 key e ↔
      op.Room serviceName s st e := by
  cases op with
  | ack | asyncAck =>
    show RemovesExactly s (Prog.run exec (catching _ _ _) s).2 key e ↔ _
    rw [run_catching_server]
    exact ackEntry_iff hkey hst he
  | nack maxRetries now | asyncNack maxRetries now =>
    show (Requeues s (Prog.run exec (catching _ _ _) s).2 key e ∨
      DeadLetters s (Prog.run exec (catching _ _ _) s).2 key _ e) ↔ _
    rw [run_catching_server]
    exact nackEntry_iff hkey hst he
  | yieldPending =>
    show (Requeues s (Prog.run exec (catching _ _ _) s).2 key e ∨
      DeadLetters s (Prog.run exec (catching _ _ _) s).2 key _ e) ↔ _
    rw [run_catching_server]
    exact yieldEntry_iff hkey hst he

/-! ## A long and a short stream -/

/-- A stream of `n` jobs. -/
def streamOf : ℕ → Stream
  | 0 => empty
  | n + 1 => (streamOf n).add 0 [("job_id", "J-0001")]

theorem length_streamOf (n : ℕ) : (streamOf n).entries.length = n := by
  induction n with
  | zero => rfl
  | succ n ih =>
    show ((streamOf n).entries ++ [_]).length = n + 1
    rw [length_append, ih]
    rfl

/-- The newest job of the stream. -/
def newest (n : ℕ) : Entry := ⟨(streamOf n).lastId, [("job_id", "J-0001")]⟩

theorem newest_mem (n : ℕ) : newest (n + 1) ∈ (streamOf (n + 1)).entries :=
  mem_append_right _ (mem_singleton_self _)

def serverOf (n : ℕ) : Server where
  keys := fun key => if key = "queue:video" then some ⟨.stream (streamOf n), none⟩ else none

theorem serverOf_stream (n : ℕ) : (serverOf n).stream "queue:video" = some (streamOf n) := rfl

/-- With two queued jobs, `nack` of the newest requeues it and keeps the other. -/
theorem nack_handles_newest :
    (nack 3 "now").Handles "video" (serverOf 2)
      (((nack 3 "now").program "video" none ⟨none, (newest 2).id⟩).run exec (serverOf 2)).2
      "queue:video" (newest 2) := by
  refine (handles_iff (nack 3 "now") (by rfl) (serverOf_stream 2) (newest_mem 1)).mpr ?_
  refine ⟨1, rfl, ?_⟩
  rw [if_neg (by decide), length_streamOf]
  decide

/-- With five hundred and two queued jobs, `ack` of the newest also removes the oldest. -/
theorem ack_drops_oldest :
    ¬ EntryOp.ack.Handles "video" (serverOf 502)
      ((EntryOp.ack.program "video" none ⟨none, (newest 502).id⟩).run exec (serverOf 502)).2
      "queue:video" (newest 502) := by
  show ¬ RemovesExactly _ (Prog.run exec (catching _ _ _) _).2 _ _
  rw [run_catching_server, ackEntry_iff (by rfl) (serverOf_stream 502) (newest_mem 501),
    length_streamOf]
  decide

end EntryOp

end GpuManager.Queue
