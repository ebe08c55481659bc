import Mathlib.Data.List.Induction
import Mathlib.Data.List.Nodup
import Mathlib.Data.Prod.Lex
import Mathlib.Logic.Function.Basic
import Std.Data.String.ToInt

/-!
# A Redis server

A keyspace of typed values with times to live, and the commands on it that queue-like
components use.  A command, a transaction and a Lua script are all executed without
interruption, so each is a `Script`: a function of the server that returns a reply or an
error reply and leaves the next server.

An error reply inside a script ends the script where it stands; what the script has
written before stays.  A transaction (`multi`) executes all its commands and reports the
first error.

Streams carry their own well-formedness: ids increase along the entries and none exceeds
the last id the stream has given out.
-/

namespace Redis

open List Function

/-! ## Values -/

/-- Stream ids, ordered by milliseconds and then by sequence number. -/
abbrev StreamId := ℕ ×ₗ ℕ

/-- The fields of a stream entry. -/
abbrev Fields := List (String × String)

/-- An entry of a stream. -/
structure Entry where
  id : StreamId
  fields : Fields
  deriving DecidableEq

/-- A consumer group: what it has delivered, and which deliveries are not acknowledged. -/
structure Group where
  lastDelivered : StreamId := toLex (0, 0)
  pending : List (StreamId × String) := []

/-- A stream. -/
structure Stream where
  entries : List Entry
  lastId : StreamId
  groups : String → Option Group
  increasing : entries.Pairwise fun e e' => e.id < e'.id
  bounded : ∀ e ∈ entries, e.id ≤ lastId

/-- The text of a string key: a plain one, or the JSON text of an object, which is kept as
the object. -/
inductive Text where
  | plain (text : String)
  | object (fields : Fields)
  deriving DecidableEq

/-- What a key holds. -/
inductive Value where
  | string (text : Text)
  | hash (fields : String → Option String)
  | stream (st : Stream)

/-- What `TYPE` replies. -/
inductive KeyType where
  | none | string | hash | stream
  deriving DecidableEq

structure Key where
  value : Value
  ttl : Option ℤ := none

/-- The server: its keys, its clock in milliseconds, and how often each key was written,
which is what `WATCH` compares. -/
structure Server where
  keys : String → Option Key := fun _ => none
  clock : ℕ := 0
  writes : String → ℕ := fun _ => 0

/-! ## Streams -/

namespace Stream

/-- A stream without entries. -/
def empty : Stream where
  entries := []
  lastId := toLex (0, 0)
  groups := fun _ => none
  increasing := Pairwise.nil
  bounded := fun _ h => (by cases h)

/-- The id that `*` stands for. -/
def nextId (lastId : StreamId) (clock : ℕ) : StreamId :=
  if (ofLex lastId).1 < clock then toLex (clock, 0)
  else toLex ((ofLex lastId).1, (ofLex lastId).2 + 1)

theorem lt_nextId (lastId : StreamId) (clock : ℕ) : lastId < nextId lastId clock := by
  unfold nextId
  split
  next h => exact Prod.Lex.toLex_lt_toLex.mpr (Or.inl h)
  next => exact Prod.Lex.toLex_lt_toLex.mpr (Or.inr ⟨rfl, Nat.lt_succ_self _⟩)

/-- The stream with one more entry. -/
def add (st : Stream) (clock : ℕ) (fields : Fields) : Stream where
  entries := st.entries ++ [⟨nextId st.lastId clock, fields⟩]
  lastId := nextId st.lastId clock
  groups := st.groups
  increasing := by
    refine pairwise_append.mpr ⟨st.increasing, pairwise_singleton _ _, ?_⟩
    intro e he e' he'
    obtain rfl := mem_singleton.mp he'
    exact (st.bounded e he).trans_lt (lt_nextId _ _)
  bounded := by
    intro e he
    rcases mem_append.mp he with he | he
    · exact (st.bounded e he).trans (lt_nextId _ _).le
    · obtain rfl := mem_singleton.mp he
      exact le_rfl

def del (st : Stream) (id : StreamId) : Stream :=
  { st with
    entries := st.entries.filter fun e => e.id ≠ id
    increasing := st.increasing.filter _
    bounded := fun e he => st.bounded e ((mem_filter.mp he).1) }

def trim (st : Stream) (maxlen : ℕ) : Stream :=
  { st with
    entries := st.entries.drop (st.entries.length - maxlen)
    increasing := st.increasing.sublist (drop_sublist _ _)
    bounded := fun e he => st.bounded e (mem_of_mem_drop he) }

def withGroups (st : Stream) (groups : String → Option Group) : Stream :=
  { st with groups := groups }

def ack (st : Stream) (group : String) (id : StreamId) : Stream :=
  st.withGroups fun name =>
    if name = group then
      (st.groups name).map fun g => { g with pending := g.pending.filter fun p => p.1 ≠ id }
    else st.groups name

/-- The stream with a consumer group that starts at its first entry, unless it has one. -/
def createGroup (st : Stream) (group : String) : Stream :=
  st.withGroups (update st.groups group (some ((st.groups group).getD {})))

/-- The entries a group has not delivered yet, at most `count` of them. -/
def undelivered (st : Stream) (g : Group) (count : ℕ) : List Entry :=
  (st.entries.filter fun e => g.lastDelivered < e.id).take count

/-- The group after a delivery. -/
def Group.deliver (g : Group) (consumer : String) (delivered : List Entry) : Group where
  lastDelivered := (delivered.getLast?.map Entry.id).getD g.lastDelivered
  pending := g.pending ++ delivered.map fun e => (e.id, consumer)

/-- The stream after a delivery to a consumer of the group. -/
def deliver (st : Stream) (group consumer : String) (g : Group) (count : ℕ) : Stream :=
  st.withGroups
    (update st.groups group (some (Group.deliver g consumer (st.undelivered g count))))

/-- The entry of an id. -/
def find (st : Stream) (id : StreamId) : Option Entry := st.entries.find? fun e => e.id = id

/-- The first entry after an id. -/
def after (st : Stream) (id : StreamId) : Option Entry := st.entries.find? fun e => id < e.id

/-- A delivery of the entry is not acknowledged in the group. -/
def Pending (st : Stream) (group : String) (id : StreamId) : Prop :=
  ∃ g ∈ st.groups group, ∃ p ∈ g.pending, p.1 = id

@[simp] theorem ack_entries (st : Stream) (group : String) (id : StreamId) :
    (st.ack group id).entries = st.entries := rfl

variable {st : Stream} {e : Entry}

/-- A stream within its limit is not trimmed. -/
theorem trim_entries_of_le {maxlen : ℕ} (h : st.entries.length ≤ maxlen) :
    (st.trim maxlen).entries = st.entries := by
  simp [trim, Nat.sub_eq_zero_of_le h]

/-- Two entries of a stream with one id are one entry. -/
theorem eq_of_id {e' : Entry} (he : e ∈ st.entries) (he' : e' ∈ st.entries) (hid : e.id = e'.id) :
    e = e' := by
  have hnodup : (st.entries.map Entry.id).Nodup :=
    pairwise_map.mpr (st.increasing.imp fun hlt => hlt.ne)
  exact inj_on_of_nodup_map hnodup he he' hid

/-- A stream is untouched by a trim exactly when it is within the limit. -/
theorem trim_entries_eq_iff (st : Stream) (maxlen : ℕ) :
    (st.trim maxlen).entries = st.entries ↔ st.entries.length ≤ maxlen := by
  constructor
  · intro h
    have hlen := congrArg List.length h
    simp only [trim, length_drop] at hlen
    omega
  · exact trim_entries_of_le

/-- Deleting the id of an entry removes this entry and no other. -/
theorem del_entries_of_mem (he : e ∈ st.entries) :
    (st.del e.id).entries = st.entries.filter fun e' => e' ≠ e := by
  refine filter_congr fun e' he' => ?_
  have hiff : e'.id ≠ e.id ↔ e' ≠ e :=
    ⟨fun hne heq => hne (by rw [heq]), fun hne hid => hne (eq_of_id he' he hid)⟩
  simp only [hiff]

theorem del_entries_eq_erase (he : e ∈ st.entries) :
    (st.del e.id).entries = st.entries.erase e := by
  have hnodup : st.entries.Nodup :=
    Nodup.of_map Entry.id (pairwise_map.mpr (st.increasing.imp fun hlt => hlt.ne))
  rw [del_entries_of_mem he, hnodup.erase_eq_filter]
  refine filter_congr fun e' _ => ?_
  by_cases heq : e' = e <;> simp [heq]

theorem length_del_of_mem (he : e ∈ st.entries) :
    (st.del e.id).entries.length + 1 = st.entries.length := by
  rw [del_entries_eq_erase he]
  exact length_erase_add_one he

theorem notMem_of_lt (h : st.lastId < e.id) : e ∉ st.entries :=
  fun he => absurd (st.bounded e he) (not_le.mpr h)

theorem find_of_mem (he : e ∈ st.entries) : st.find e.id = some e := by
  unfold find
  cases hfind : st.entries.find? fun e' => e'.id = e.id with
  | none =>
    have hnone := List.find?_eq_none.mp hfind e he
    simp at hnone
  | some e' =>
    have hid : e'.id = e.id := by simpa using List.find?_some hfind
    rw [eq_of_id (mem_of_find?_eq_some hfind) he hid]

/-- What is found is an entry of the stream under the id. -/
theorem mem_of_find {id : StreamId} (h : st.find id = some e) : e ∈ st.entries ∧ e.id = id :=
  ⟨mem_of_find?_eq_some h, by simpa using List.find?_some h⟩

end Stream

/-! ## Scripts -/

/-- A command, transaction or script: executed without interruption, it returns a reply or
an error reply. -/
structure Script (α : Type) where
  run : Server → Except String α × Server

namespace Script

variable {α β : Type}

/-- An error reply ends the script. -/
def bind (m : Script α) (f : α → Script β) : Script β where
  run s := match m.run s with
    | (.ok a, s') => (f a).run s'
    | (.error e, s') => (.error e, s')

instance : Monad Script where
  pure a := ⟨fun s => (.ok a, s)⟩
  bind := bind

/-- `redis.error_reply`. -/
def fail (message : String) : Script α := ⟨fun s => (.error message, s)⟩

def pcall (m : Script α) : Script Unit := ⟨fun s => (.ok (), (m.run s).2)⟩

@[simp] theorem run_pure (a : α) (s : Server) : (pure a : Script α).run s = (.ok a, s) := rfl

@[simp] theorem run_fail (message : String) (s : Server) :
    (fail message : Script α).run s = (.error message, s) := rfl

theorem run_bind (m : Script α) (f : α → Script β) (s : Server) :
    (m >>= f).run s = match m.run s with
      | (.ok a, s') => (f a).run s'
      | (.error e, s') => (.error e, s') := rfl

variable {m : Script α} {s s' : Server} {f : α → Script β} {a : α}

/-- A step that succeeds. -/
theorem bind_ok (h : m.run s = (.ok a, s')) :
    (m >>= f).run s = (f a).run s' := by
  rw [run_bind, h]

theorem bind_error {e : String} (h : m.run s = (.error e, s')) :
    (m >>= f).run s = (.error e, s') := by
  rw [run_bind, h]

/-- `MULTI … EXEC`: every command is executed, and the first error is reported. -/
def multi : List (Script Unit) → Script Unit
  | [] => pure ()
  | c :: cs =>
    ⟨fun s =>
      match c.run s, (multi cs).run (c.run s).2 with
      | (.error e, _), (_, s'') => (.error e, s'')
      | (.ok _, _), (r, s'') => (r, s'')⟩

/-- A command of a transaction that succeeds. -/
theorem multi_cons_ok {c : Script Unit} {cs : List (Script Unit)} (h : c.run s = (.ok (), s')) :
    (multi (c :: cs)).run s = (multi cs).run s' := by
  simp only [multi, h]

theorem multi_cons_server (c : Script Unit) (cs : List (Script Unit)) (s : Server) :
    ((multi (c :: cs)).run s).2 = ((multi cs).run (c.run s).2).2 := by
  simp only [multi]
  rcases c.run s with ⟨_ | _, s'⟩ <;> rfl

theorem pcall_ok (h : m.run s = (.ok a, s')) : (pcall m).run s = (.ok (), s') := by
  simp only [pcall, h]

theorem discard_ok (h : m.run s = (.ok a, s')) :
    (discard m : Script Unit).run s = (.ok (), s') := by
  show (m >>= fun _ => pure ()).run s = _
  rw [bind_ok h]
  rfl

end Script

/-! ## Keys -/

namespace Server

/-- The stream under a key. -/
def stream (s : Server) (key : String) : Option Stream :=
  match s.keys key with
  | some ⟨.stream st, _⟩ => some st
  | _ => none

def hash (s : Server) (key : String) : Option (String → Option String) :=
  match s.keys key with
  | some ⟨.hash h, _⟩ => some h
  | _ => none

/-- `TYPE`. -/
def typeOf (s : Server) (key : String) : KeyType :=
  match s.keys key with
  | none => .none
  | some ⟨.string _, _⟩ => .string
  | some ⟨.hash _, _⟩ => .hash
  | some ⟨.stream _, _⟩ => .stream

/-- Write a key and its time to live. -/
def setKey (s : Server) (key : String) (k : Option Key) : Server :=
  { s with
    keys := update s.keys key k
    writes := update s.writes key (s.writes key + 1) }

def put (s : Server) (key : String) (v : Value) : Server :=
  s.setKey key (some ⟨v, (s.keys key).bind Key.ttl⟩)

@[simp] theorem setKey_keys_self (s : Server) (key : String) (k : Option Key) :
    (s.setKey key k).keys key = k := update_self _ _ _

variable {key : String} {s s' : Server}

variable {k key' : String}

theorem setKey_keys_of_ne (s : Server) (k : Option Key) (h : key' ≠ key) :
    (s.setKey key k).keys key' = s.keys key' := update_of_ne h _ _

/-- The stream of a key is what its key says. -/
theorem stream_eq_some {st : Stream} :
    s.stream key = some st ↔ ∃ ttl, s.keys key = some ⟨.stream st, ttl⟩ := by
  unfold stream
  split
  next st' ttl h => simp [h]
  next h =>
    constructor
    · intro hst
      cases hst
    · rintro ⟨ttl, hkey⟩
      exact absurd hkey (h st ttl)

theorem hash_eq_some {h : String → Option String} :
    s.hash key = some h ↔ ∃ ttl, s.keys key = some ⟨.hash h, ttl⟩ := by
  unfold hash
  split
  next h' ttl hkey => simp [hkey]
  next hnot =>
    constructor
    · intro hh
      cases hh
    · rintro ⟨ttl, hkey⟩
      exact absurd hkey (hnot h ttl)

@[simp] theorem put_stream_self (s : Server) (key : String) (st : Stream) :
    (s.put key (.stream st)).stream key = some st :=
  stream_eq_some.mpr ⟨_, setKey_keys_self _ _ _⟩

@[simp] theorem put_hash_self (s : Server) (key : String) (h : String → Option String) :
    (s.put key (.hash h)).hash key = some h :=
  hash_eq_some.mpr ⟨_, setKey_keys_self _ _ _⟩

theorem put_keys_of_ne (s : Server) (v : Value) (h : key' ≠ key) :
    (s.put key v).keys key' = s.keys key' := setKey_keys_of_ne s _ h

theorem stream_congr (h : s'.keys key = s.keys key) : s'.stream key = s.stream key := by
  unfold stream
  rw [h]

theorem hash_congr (h : s'.keys key = s.keys key) : s'.hash key = s.hash key := by
  unfold hash
  rw [h]

theorem typeOf_congr (h : s'.keys key = s.keys key) : s'.typeOf key = s.typeOf key := by
  unfold typeOf
  rw [h]

theorem typeOf_eq_stream : s.typeOf key = .stream ↔ ∃ st, s.stream key = some st := by
  unfold typeOf stream
  rcases s.keys key with _ | ⟨_ | _ | st, ttl⟩ <;> simp

theorem typeOf_eq_hash : s.typeOf key = .hash ↔ ∃ h, s.hash key = some h := by
  unfold typeOf hash
  rcases s.keys key with _ | ⟨_ | _ | st, ttl⟩ <;> simp

theorem typeOf_eq_none : s.typeOf key = .none ↔ s.keys key = none := by
  unfold typeOf
  rcases s.keys key with _ | ⟨_ | _ | st, ttl⟩ <;> simp

/-- The second server is the first one with a stream written under one key. -/
structure Wrote (s s' : Server) (key : String) (st : Stream) : Prop where
  stream : s'.stream key = some st
  others : ∀ k, k ≠ key → s'.keys k = s.keys k
  clock : s'.clock = s.clock

theorem wrote_put (s : Server) (key : String) (st : Stream) :
    Wrote s (s.put key (.stream st)) key st :=
  ⟨put_stream_self _ _ _, fun _ hk => put_keys_of_ne s _ hk, rfl⟩

theorem Wrote.trans {s'' : Server} {st st' : Stream} (h : Wrote s s' key st)
    (h' : Wrote s' s'' key st') : Wrote s s'' key st' :=
  ⟨h'.stream, fun k hk => (h'.others k hk).trans (h.others k hk), h'.clock.trans h.clock⟩

end Server

/-! ## Commands -/

def wrongType : String := "WRONGTYPE Operation against a key holding the wrong kind of value"

/-- `TYPE key`. -/
def type (key : String) : Script KeyType := ⟨fun s => (.ok (s.typeOf key), s)⟩

def readStream {α : Type} (key : String) (absent : α) (f : Stream → α) : Script α where
  run s :=
    match s.keys key with
    | none => (.ok absent, s)
    | some ⟨.stream st, _⟩ => (.ok (f st), s)
    | some _ => (.error wrongType, s)

def changeStream {α : Type} (key : String) (absent : α) (f : Stream → α × Stream) : Script α where
  run s :=
    match s.keys key with
    | none => (.ok absent, s)
    | some ⟨.stream st, _⟩ => (.ok (f st).1, s.put key (.stream (f st).2))
    | some _ => (.error wrongType, s)

/-- `XADD key * fields`. -/
def xadd (key : String) (fields : Fields) : Script StreamId where
  run s :=
    match s.keys key with
    | none =>
      (.ok (Stream.empty.add s.clock fields).lastId,
        s.put key (.stream (Stream.empty.add s.clock fields)))
    | some ⟨.stream st, _⟩ =>
      (.ok (st.add s.clock fields).lastId, s.put key (.stream (st.add s.clock fields)))
    | some _ => (.error wrongType, s)

/-- `XLEN key`. -/
def xlen (key : String) : Script ℕ := readStream key 0 fun st => st.entries.length

/-- `XRANGE key id id`. -/
def xrange (key : String) (id : StreamId) : Script (Option Entry) :=
  readStream key none fun st => st.find id

def xdel (key : String) (id : StreamId) : Script ℕ :=
  changeStream key 0 fun st => (st.entries.length - (st.del id).entries.length, st.del id)

/-- `XTRIM key MAXLEN = maxlen`: the number of evicted entries. -/
def xtrim (key : String) (maxlen : ℕ) : Script ℕ :=
  changeStream key 0 fun st => (st.entries.length - maxlen, st.trim maxlen)

/-- `XACK key group id`. -/
def xack (key group : String) (id : StreamId) : Script Unit :=
  changeStream key () fun st => ((), st.ack group id)

variable {s : Server} {key : String} {st : Stream} {fields : Fields}

section

variable (h : s.stream key = some st) {α : Type}
include h

theorem readStream_ok {absent : α} {f : Stream → α} :
    (readStream key absent f).run s = (.ok (f st), s) := by
  obtain ⟨ttl, hkey⟩ := Server.stream_eq_some.mp h
  simp only [readStream, hkey]

/-- A change of a stream writes the changed stream. -/
theorem changeStream_wrote {absent : α} {f : Stream → α × Stream} :
    ∃ s', (changeStream key absent f).run s = (.ok (f st).1, s') ∧ s.Wrote s' key (f st).2 := by
  obtain ⟨ttl, hkey⟩ := Server.stream_eq_some.mp h
  refine ⟨_, ?_, Server.wrote_put s key (f st).2⟩
  simp only [changeStream, hkey]

theorem xack_wrote (group : String) (id : StreamId) :
    ∃ s', (xack key group id).run s = (.ok (), s') ∧ s.Wrote s' key (st.ack group id) :=
  changeStream_wrote h

theorem xdel_wrote (id : StreamId) :
    ∃ s', (xdel key id).run s = (.ok (st.entries.length - (st.del id).entries.length), s') ∧
      s.Wrote s' key (st.del id) :=
  changeStream_wrote h

theorem xtrim_wrote (maxlen : ℕ) :
    ∃ s', (xtrim key maxlen).run s = (.ok (st.entries.length - maxlen), s') ∧
      s.Wrote s' key (st.trim maxlen) :=
  changeStream_wrote h

/-- `XADD` writes the stream with one more entry. -/
theorem xadd_wrote (fields : Fields) :
    ∃ s', (xadd key fields).run s = (.ok (st.add s.clock fields).lastId, s') ∧
      s.Wrote s' key (st.add s.clock fields) := by
  obtain ⟨ttl, hkey⟩ := Server.stream_eq_some.mp h
  refine ⟨_, ?_, Server.wrote_put s key _⟩
  simp only [xadd, hkey]

end

/-- `DEL key`. -/
def del (key : String) : Script Unit := ⟨fun s => (.ok (), s.setKey key none)⟩

/-- `HGET key field`. -/
def hget (key field : String) : Script (Option String) where
  run s :=
    match s.keys key with
    | none => (.ok none, s)
    | some ⟨.hash h, _⟩ => (.ok (h field), s)
    | some _ => (.error wrongType, s)

def setFields (h : String → Option String) (fields : Fields) : String → Option String :=
  fields.foldl (fun h f => update h f.1 (some f.2)) h

theorem setFields_concat (h : String → Option String) (fields : Fields) (f : String × String) :
    setFields h (fields ++ [f]) = update (setFields h fields) f.1 (some f.2) :=
  foldl_concat ..

/-- A field that is not written stays. -/
theorem setFields_of_notMem {h : String → Option String}
    (hk : ∀ f ∈ fields, f.1 ≠ k) : setFields h fields k = h k := by
  induction fields using List.reverseRecOn with
  | nil => rfl
  | append_singleton fields f ih =>
    rw [setFields_concat, update_of_ne (hk f (by simp)).symm]
    exact ih fun f' hf' => hk f' (mem_append_left _ hf')

/-- A field that is written with one value has this value. -/
theorem setFields_of_mem {h : String → Option String} {v : String}
    (hmem : (k, v) ∈ fields) (hall : ∀ f ∈ fields, f.1 = k → f.2 = v) :
    setFields h fields k = some v := by
  induction fields using List.reverseRecOn with
  | nil => cases hmem
  | append_singleton fields f ih =>
    rw [setFields_concat]
    by_cases hf : f.1 = k
    · rw [hf, update_self, hall f (by simp) hf]
    rw [update_of_ne (Ne.symm hf)]
    refine ih ?_ fun f' hf' => hall f' (mem_append_left _ hf')
    rcases mem_append.mp hmem with hmem | hmem
    · exact hmem
    · obtain rfl := mem_singleton.mp hmem
      exact absurd rfl hf

/-- `HSET key fields`. -/
def hset (key : String) (fields : Fields) : Script Unit where
  run s :=
    match s.keys key with
    | none => (.ok (), s.put key (.hash (setFields (fun _ => none) fields)))
    | some ⟨.hash h, _⟩ => (.ok (), s.put key (.hash (setFields h fields)))
    | some _ => (.error wrongType, s)

/-- The integer that a text spells in decimal, without anything superfluous. -/
def decimal (text : String) : Option ℤ := text.toInt?.filter fun n => toString n = text

theorem decimal_toString (n : ℤ) : decimal (toString n) = some n := by
  simp [decimal]

/-- `HINCRBY key field increment`. -/
def hincrby (key field : String) (increment : ℤ) : Script ℤ where
  run s :=
    match s.keys key with
    | none =>
      (.ok increment, s.put key (.hash (setFields (fun _ => none) [(field, toString increment)])))
    | some ⟨.hash h, _⟩ =>
      match decimal ((h field).getD "0") with
      | none => (.error "ERR hash value is not an integer", s)
      | some n =>
        (.ok (n + increment),
          s.put key (.hash (setFields h [(field, toString (n + increment))])))
    | some _ => (.error wrongType, s)

/-- `EXPIRE key seconds`; a time in the past deletes the key. -/
def expire (key : String) (seconds : ℤ) : Script Unit where
  run s :=
    match s.keys key with
    | none => (.ok (), s)
    | some k => (.ok (), s.setKey key (if seconds ≤ 0 then none else some { k with ttl := some seconds }))

/-- `PERSIST key`. -/
def persist (key : String) : Script Unit where
  run s :=
    match s.keys key with
    | none => (.ok (), s)
    | some k => (.ok (), s.setKey key (some { k with ttl := none }))

/-- `GET key`. -/
def get (key : String) : Script (Option Text) where
  run s :=
    match s.keys key with
    | none => (.ok none, s)
    | some ⟨.string text, _⟩ => (.ok (some text), s)
    | some _ => (.error wrongType, s)

def setNx (key : String) (text : Text) : Script Bool where
  run s :=
    match s.keys key with
    | none => (.ok true, s.setKey key (some ⟨.string text, none⟩))
    | some _ => (.ok false, s)

/-- `INCR key`. -/
def incr (key : String) : Script ℤ where
  run s :=
    match s.keys key with
    | none => (.ok 1, s.put key (.string (.plain (toString (1 : ℤ)))))
    | some ⟨.string (.plain text), _⟩ =>
      match decimal text with
      | none => (.error "ERR value is not an integer or out of range", s)
      | some n => (.ok (n + 1), s.put key (.string (.plain (toString (n + 1)))))
    | some ⟨.string (.object _), _⟩ => (.error "ERR value is not an integer or out of range", s)
    | some _ => (.error wrongType, s)

/-- `EXISTS key`. -/
def «exists» (key : String) : Script Bool := ⟨fun s => (.ok (s.keys key).isSome, s)⟩

def watch (key : String) : Script ℕ := ⟨fun s => (.ok (s.writes key), s)⟩

/-- `MULTI`, `SET key text`, `EXEC` under a watch: whether it was executed. -/
def execSet (key : String) (watched : ℕ) (text : Text) : Script Bool where
  run s :=
    if s.writes key = watched then (.ok true, s.setKey key (some ⟨.string text, none⟩))
    else (.ok false, s)

/-- `XGROUP CREATE key group 0 MKSTREAM`, where an existing group is kept. -/
def xgroupCreate (key group : String) : Script Unit where
  run s :=
    match s.keys key with
    | none => (.ok (), s.put key (.stream (Stream.empty.createGroup group)))
    | some ⟨.stream st, _⟩ => (.ok (), s.put key (.stream (st.createGroup group)))
    | some _ => (.error wrongType, s)

/-- The error reply to a read for a group that does not exist. -/
def noGroup : String := "NOGROUP No such key or consumer group"

/-- `XREADGROUP GROUP group consumer COUNT count STREAMS key >`. -/
def xreadgroup (group consumer : String) (count : ℕ) (key : String) : Script (List Entry) where
  run s :=
    match s.keys key with
    | none => (.error noGroup, s)
    | some ⟨.stream st, _⟩ =>
      match st.groups group with
      | none => (.error noGroup, s)
      | some g =>
        (.ok (st.undelivered g count), s.put key (.stream (st.deliver group consumer g count)))
    | some _ => (.error wrongType, s)

/-! ## The passing of time -/

/-- The clock moves. -/
def tick (clock : ℕ) : Script Unit := ⟨fun s => (.ok (), { s with clock := clock })⟩

def lapse (key : String) : Script Unit where
  run s :=
    match s.keys key with
    | some ⟨_, some _⟩ => (.ok (), s.setKey key none)
    | _ => (.ok (), s)

end Redis
