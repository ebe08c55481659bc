import Mathlib.Data.List.AList
import Mathlib.Data.Rat.Defs
import Mathlib.Algebra.Order.Ring.Rat
import GpuManager.Lib.Interleaving

/-!
# Slots

`SlotManager` of `queue_engine.py`.  The slots of a service are the fields of one Redis hash,
each with a record that says whether the slot is free or busy and for which job.

A slot is acquired by a script.  Everything else reads in one round trip and writes in a
later one: `release_slot`, `reap_stale_slots` and the initialisation that both acquiring and
reaping begin with.  A record is kept as the record and not as its JSON text, and a time as
the time and not as its ISO text, where the empty text is no time.
-/

namespace GpuManager.Queue

open AtomicProgram

/-! ## The hash -/

/-- The status of a slot. -/
inductive SlotStatus where
  | free | busy
  deriving DecidableEq

/-- The record of a slot. -/
structure SlotRecord where
  jobId : String := ""
  startedAt : Option ℚ := none
  status : SlotStatus := .free
  deriving DecidableEq

/-- The hash of the slots of a service; `HGETALL` replies in no particular order. -/
abbrev SlotTable := AList fun _ : ℕ => SlotRecord

/-- One round trip to Redis. -/
inductive SlotCmd where
  | exists
  | hgetall
  | init (missing obsolete : List ℕ)
  | acquire (jobId : String) (now : ℚ) (first : ℕ)
  | hget (slot : ℕ)
  | hset (slot : ℕ) (record : SlotRecord)

/-- What a round trip replies. -/
@[reducible] def SlotCmd.Reply : SlotCmd → Type
  | .exists => Bool
  | hgetall => List (ℕ × SlotRecord)
  | init _ _ => Unit
  | acquire _ _ _ => ℤ
  | hget _ => Option SlotRecord
  | hset _ _ => Unit

/-- The pipeline of `_init_slots`: free records for the missing slots, and no record for the
obsolete ones. -/
def initTable (missing obsolete : List ℕ) (s : SlotTable) : SlotTable :=
  obsolete.foldl (fun s slot => s.erase slot) (missing.foldl (fun s slot => s.insert slot {}) s)

/-- The free slot that `_ACQUIRE_LUA` comes to first: `first` if it is free, as `HGETALL` may list
it before the others. -/
def freeSlot (first : ℕ) (s : SlotTable) : Option (Sigma fun _ : ℕ => SlotRecord) :=
  (s.entries.find? fun e => e.1 = first ∧ e.2.status = .free).or
    (s.entries.find? fun e => e.2.status = .free)

/-- `_ACQUIRE_LUA`: the first free slot is busy with the job. -/
def acquireTable (jobId : String) (now : ℚ) (first : ℕ) (s : SlotTable) : ℤ × SlotTable :=
  match freeSlot first s with
  | some e =>
    (e.1, s.insert e.1 { e.2 with status := .busy, jobId := jobId, startedAt := some now })
  | none => (-1, s)

def SlotCmd.exec : (c : SlotCmd) → SlotTable → c.Reply × SlotTable
  | .exists, s => (!s.entries.isEmpty, s)
  | hgetall, s => (s.entries.map fun e => (e.1, e.2), s)
  | init missing obsolete, s => ((), initTable missing obsolete s)
  | acquire jobId now first, s => acquireTable jobId now first s
  | hget slot, s => (s.lookup slot, s)
  | hset slot record, s => ((), s.insert slot record)

/-- A method of the slot manager. -/
abbrev SlotAction := Prog SlotCmd SlotCmd.Reply Empty

/-- A round trip of a method. -/
def SlotCmd.send (c : SlotCmd) : SlotAction c.Reply := Prog.perform c

/-! ## The methods -/

namespace SlotManager

/-- What `_init_slots` finds. -/
def existingSlots : SlotAction (List (ℕ × SlotRecord)) := do
  let present : Bool ← SlotCmd.exists.send
  if present then SlotCmd.hgetall.send else pure []

def missingSlots (maxSlots : ℕ) (existing : List (ℕ × SlotRecord)) : List ℕ :=
  (List.range maxSlots).filter fun i => i ∉ existing.map Prod.fst

def obsoleteSlots (maxSlots : ℕ) (existing : List (ℕ × SlotRecord)) : List ℕ :=
  (existing.filter fun e => maxSlots ≤ e.1 ∧ e.2.status = .free).map Prod.fst

/-- `_init_slots`; a pipeline without commands is not sent. -/
def initSlots (maxSlots : ℕ) : SlotAction Unit := do
  let existing ← existingSlots
  if missingSlots maxSlots existing = [] ∧ obsoleteSlots maxSlots existing = [] then pure ()
  else
    (SlotCmd.init (missingSlots maxSlots existing) (obsoleteSlots maxSlots existing)).send

/-- `acquire_slot`. -/
def acquireSlot (maxSlots : ℕ) (jobId : String) (now : ℚ) (first : ℕ) : SlotAction (Option ℕ) := do
  initSlots maxSlots
  let slot : ℤ ← (SlotCmd.acquire jobId now first).send
  pure (if slot < 0 then none else some slot.toNat)

/-- `release_slot`. -/
def releaseSlot (slot : ℕ) : SlotAction Bool := do
  let found : Option SlotRecord ← (SlotCmd.hget slot).send
  match found with
  | none => pure false
  | some record =>
    (SlotCmd.hset slot { record with status := .free, jobId := "", startedAt := none }).send
    pure true

/-- Whether a record is reaped. -/
def isStale (maxAge now : ℚ) (record : SlotRecord) : Bool :=
  record.status = .busy &&
    match record.startedAt with
    | none => true
    | some started => maxAge < now - started

/-- The loop of `reap_stale_slots` over the slots it found. -/
def reapSlots (maxAge now : ℚ) : List (ℕ × SlotRecord) → SlotAction (List (ℕ × SlotRecord))
  | [] => pure []
  | (slot, record) :: slots => do
      if isStale maxAge now record then
        let _ ← releaseSlot slot
        let reaped ← reapSlots maxAge now slots
        pure ((slot, record) :: reaped)
      else reapSlots maxAge now slots

/-- `reap_stale_slots`. -/
def reapStaleSlots (maxSlots : ℕ) (maxAge now : ℚ) : SlotAction (List (ℕ × SlotRecord)) := do
  initSlots maxSlots
  let slots : List (ℕ × SlotRecord) ← SlotCmd.hgetall.send
  reapSlots maxAge now slots

end SlotManager

/-! ## Clients -/

/-- A number of releases of one slot. -/
def releaseTimes (slot : ℕ) : ℕ → SlotAction Unit
  | 0 => pure ()
  | n + 1 => do
      let _ ← SlotManager.releaseSlot slot
      releaseTimes slot n

/-- What a client does: it acquires a slot for a job and releases the slot it got, once, not
at all or again and again; or it reaps.  `first` is the slot that the acquisition finds first. -/
inductive SlotOp where
  | hold (jobId : String) (now : ℚ) (first releases : ℕ)
  | reap (maxAge now : ℚ)

/-- The program of a client. -/
def SlotOp.program (maxSlots : ℕ) : SlotOp → SlotAction Unit
  | hold jobId now first releases => do
      match ← SlotManager.acquireSlot maxSlots jobId now first with
      | none => pure ()
      | some slot => releaseTimes slot releases
  | reap maxAge now => do
      let _ ← SlotManager.reapStaleSlots maxSlots maxAge now

/-- Any number of clients of one service, interleaved at the granularity of round trips. -/
def slotSystem (maxSlots : ℕ) : System SlotTable SlotCmd SlotCmd.Reply Empty Unit SlotOp where
  exec := SlotCmd.exec
  launch := fun _ op => some (op.program maxSlots)

end GpuManager.Queue
