import Mathlib.Data.List.Range
import GpuManager.Queue.SlotOwnership

/-!
# The asynchronous slot manager

`AsyncSlotManager` works on the hash of `SlotManager`, with an initialisation of its own: it fills
a hash that is not there and leaves every other one alone, where `SlotManager` reconciles the hash
with the configured parallelism.

* `SlotManager.reconciles`: after the synchronous initialisation every configured slot has a
  record, no other slot has a free one, and busy records are what they were.
* `sameSlots_iff`: the two managers see the same slots exactly when the hash is empty or needs no
  reconciliation.
-/

namespace GpuManager.Queue

open AtomicProgram SlotManager SlotCmd List

/-! ## The methods -/

/-- The free slots among those that `HGETALL` replied. -/
def countFree (slots : List (ℕ × SlotRecord)) : ℕ := slots.countP fun e => e.2.status = .free

def SlotManager.getAvailableSlots (maxSlots : ℕ) : SlotAction ℕ := do
  initSlots maxSlots
  let slots : List (ℕ × SlotRecord) ← SlotCmd.hgetall.send
  pure (countFree slots)

namespace AsyncSlotManager

/-- `_init_slots`; a pipeline without commands is not sent. -/
def initSlots (maxSlots : ℕ) : SlotAction Unit := do
  let present : Bool ← SlotCmd.exists.send
  if present then pure ()
  else if maxSlots = 0 then pure ()
  else (SlotCmd.init (List.range maxSlots) []).send

/-- `get_available_slots`. -/
def getAvailableSlots (maxSlots : ℕ) : SlotAction ℕ := do
  initSlots maxSlots
  let slots : List (ℕ × SlotRecord) ← SlotCmd.hgetall.send
  pure (countFree slots)

end AsyncSlotManager

def SlotAction.after {α : Type} (p : SlotAction α) (s : SlotTable) : SlotTable :=
  (p.run SlotCmd.exec s).2

def SlotAction.returns {α : Type} (p : SlotAction α) (s : SlotTable) : Except Empty α :=
  (p.run SlotCmd.exec s).1

/-! ## What is claimed -/

/-- A hash fits the configured parallelism: there is a record for every slot, and none of a slot
above them is free. -/
structure SlotsFit (maxSlots : ℕ) (s : SlotTable) : Prop where
  present : ∀ slot < maxSlots, slot ∈ s
  obsolete : ∀ slot record, s.lookup slot = some record → maxSlots ≤ slot → record.status ≠ .free

/-- A hash was made to fit, and the busy records are untouched. -/
structure Reconciled (maxSlots : ℕ) (before after : SlotTable) : Prop where
  fits : SlotsFit maxSlots after
  busy : ∀ slot record, before.lookup slot = some record → record.status = .busy →
    after.lookup slot = some record

structure SameSlots (maxSlots : ℕ) (s : SlotTable) : Prop where
  sync : Reconciled maxSlots s (SlotAction.after (initSlots maxSlots) s)
  async : Reconciled maxSlots s (SlotAction.after (AsyncSlotManager.initSlots maxSlots) s)
  available : SlotAction.returns (getAvailableSlots maxSlots) s =
    SlotAction.returns (AsyncSlotManager.getAvailableSlots maxSlots) s

section Reconciliation

variable {maxSlots : ℕ} {s : SlotTable} {slot : ℕ} {missing obsolete : List ℕ}

def slotsOf (s : SlotTable) : List (ℕ × SlotRecord) := s.entries.map fun e => (e.1, e.2)

theorem mem_slotsOf {record : SlotRecord} :
    (slot, record) ∈ slotsOf s ↔ s.lookup slot = some record := by
  rw [← Option.mem_def, AList.mem_lookup_iff]
  constructor
  · intro h
    obtain ⟨e, he, heq⟩ := mem_map.mp h
    obtain ⟨rfl, rfl⟩ := Prod.mk.inj heq
    exact he
  · exact fun h => mem_map.mpr ⟨⟨slot, record⟩, h, rfl⟩

theorem mem_map_slotsOf : slot ∈ (slotsOf s).map Prod.fst ↔ slot ∈ s := by
  rw [← AList.lookup_isSome, Option.isSome_iff_exists, mem_map]
  constructor
  · rintro ⟨⟨_, record⟩, he, rfl⟩
    exact ⟨record, mem_slotsOf.mp he⟩
  · rintro ⟨record, h⟩
    exact ⟨(slot, record), mem_slotsOf.mpr h, rfl⟩

theorem lookup_foldl_insert_of_mem (h : slot ∈ missing) :
    (missing.foldl (fun s i => s.insert i {}) s).lookup slot = some {} := by
  induction missing generalizing s with
  | nil => cases h
  | cons i missing ih =>
    rw [foldl_cons]
    by_cases hmem : slot ∈ missing
    · exact ih hmem
    obtain rfl : slot = i := (mem_cons.mp h).resolve_right hmem
    rw [lookup_foldl_insert hmem]
    exact AList.lookup_insert s

theorem lookup_foldl_erase_of_mem (h : slot ∈ obsolete) :
    (obsolete.foldl (fun s i => s.erase i) s).lookup slot = none := by
  induction obsolete generalizing s with
  | nil => cases h
  | cons i obsolete ih =>
    rw [foldl_cons]
    by_cases hmem : slot ∈ obsolete
    · exact ih hmem
    obtain rfl : slot = i := (mem_cons.mp h).resolve_right hmem
    rw [lookup_foldl_erase hmem]
    exact AList.lookup_erase slot _

/-- The records after the pipeline of an initialisation. -/
theorem lookup_initTable : (initTable missing obsolete s).lookup slot =
    if slot ∈ obsolete then none else if slot ∈ missing then some {} else s.lookup slot := by
  unfold initTable
  by_cases hobsolete : slot ∈ obsolete
  · rw [if_pos hobsolete]
    exact lookup_foldl_erase_of_mem hobsolete
  rw [if_neg hobsolete, lookup_foldl_erase hobsolete]
  by_cases hmissing : slot ∈ missing
  · rw [if_pos hmissing]
    exact lookup_foldl_insert_of_mem hmissing
  · rw [if_neg hmissing]
    exact lookup_foldl_insert hmissing

/-- The slots that are created are the configured ones without a record. -/
theorem mem_missingSlots :
    slot ∈ missingSlots maxSlots (slotsOf s) ↔ slot < maxSlots ∧ slot ∉ s := by
  unfold missingSlots
  rw [mem_filter, mem_range, decide_eq_true_iff, mem_map_slotsOf]

/-- The slots that are deleted are the other ones with a free record. -/
theorem mem_obsoleteSlots : slot ∈ obsoleteSlots maxSlots (slotsOf s) ↔
    ∃ record, s.lookup slot = some record ∧ maxSlots ≤ slot ∧ record.status = .free := by
  unfold obsoleteSlots
  rw [mem_map]
  constructor
  · rintro ⟨⟨_, record⟩, he, rfl⟩
    obtain ⟨he, hcondition⟩ := mem_filter.mp he
    exact ⟨record, mem_slotsOf.mp he, of_decide_eq_true hcondition⟩
  · rintro ⟨record, h, hcondition⟩
    exact ⟨(slot, record), mem_filter.mpr ⟨mem_slotsOf.mpr h, decide_eq_true hcondition⟩, rfl⟩

theorem SlotsFit.nothing (h : SlotsFit maxSlots s) :
    missingSlots maxSlots (slotsOf s) = [] ∧
      obsoleteSlots maxSlots (slotsOf s) = [] := by
  constructor <;> refine eq_nil_iff_forall_not_mem.mpr fun slot hslot => ?_
  · obtain ⟨hlt, hnot⟩ := mem_missingSlots.mp hslot
    exact hnot (h.present slot hlt)
  · obtain ⟨record, hrecord, hle, hfree⟩ := mem_obsoleteSlots.mp hslot
    exact h.obsolete slot record hrecord hle hfree

theorem run_initSlots : (initSlots maxSlots).run SlotCmd.exec s =
    (.ok (), initTable (missingSlots maxSlots (slotsOf s))
      (obsoleteSlots maxSlots (slotsOf s)) s) := by
  have hexisting : existingSlots.run SlotCmd.exec s = (.ok (slotsOf s), s) := by
    cases hempty : s.entries.isEmpty with
    | false =>
      simp [existingSlots, send, Prog.perform, Prog.run, SlotCmd.exec,
        hempty, slotsOf]
    | true =>
      have hnil : s.entries = [] := isEmpty_iff.mp hempty
      simp [existingSlots, send, Prog.perform, Prog.run, SlotCmd.exec,
        slotsOf, hnil]
  unfold initSlots
  rw [Prog.run_bind, hexisting]
  simp only
  split
  case isTrue hnothing =>
    rw [hnothing.1, hnothing.2]
    rfl
  case isFalse => rfl

/-- **The synchronous initialisation** reconciles every hash. -/
theorem SlotManager.reconciles :
    Reconciled maxSlots s (SlotAction.after (initSlots maxSlots) s) := by
  unfold SlotAction.after
  rw [run_initSlots]
  refine ⟨⟨fun slot hslot => ?_, fun slot record hrecord hle hfree => ?_⟩,
    fun slot record hrecord hbusy => ?_⟩
  · rw [← AList.lookup_isSome, lookup_initTable, if_neg]
    · by_cases hmem : slot ∈ s
      · rw [if_neg fun h => (mem_missingSlots.mp h).2 hmem, AList.lookup_isSome]
        exact hmem
      · rw [if_pos (mem_missingSlots.mpr ⟨hslot, hmem⟩)]
        rfl
    · intro h
      obtain ⟨-, -, hle, -⟩ := mem_obsoleteSlots.mp h
      omega
  · rw [lookup_initTable] at hrecord
    split at hrecord
    · cases hrecord
    case isFalse hobsolete =>
      rw [if_neg fun h => by have := (mem_missingSlots.mp h).1; omega] at hrecord
      exact hobsolete (mem_obsoleteSlots.mpr ⟨record, hrecord, hle, hfree⟩)
  · have hmem : slot ∈ s := AList.lookup_isSome.mp (Option.isSome_iff_exists.mpr ⟨record, hrecord⟩)
    rw [lookup_initTable, if_neg, if_neg fun h => (mem_missingSlots.mp h).2 hmem]
    · exact hrecord
    · intro h
      obtain ⟨found, hfound, -, hfree⟩ := mem_obsoleteSlots.mp h
      rw [hrecord] at hfound
      obtain rfl := Option.some.inj hfound
      rw [hbusy] at hfree
      cases hfree

/-- The asynchronous initialisation leaves a hash alone that is there. -/
theorem AsyncSlotManager.run_initSlots_of_ne (h : s.entries ≠ []) :
    (AsyncSlotManager.initSlots maxSlots).run SlotCmd.exec s = (.ok (), s) := by
  have hpresent : s.entries.isEmpty = false := isEmpty_eq_false_iff.mpr h
  simp [AsyncSlotManager.initSlots, send, Prog.perform, Prog.run, SlotCmd.exec,
    hpresent]

/-- On a hash that is not there the two initialisations do the same. -/
theorem run_initSlots_of_nil (h : s.entries = []) :
    (AsyncSlotManager.initSlots maxSlots).run SlotCmd.exec s =
      (initSlots maxSlots).run SlotCmd.exec s := by
  have hmissing : missingSlots maxSlots (slotsOf s) = List.range maxSlots := by
    unfold missingSlots slotsOf
    rw [h]
    exact filter_eq_self.mpr fun _ _ => rfl
  have hobsolete : obsoleteSlots maxSlots (slotsOf s) = [] := by
    unfold obsoleteSlots slotsOf
    rw [h]
    rfl
  rw [run_initSlots, hmissing, hobsolete]
  by_cases hzero : maxSlots = 0
  · subst hzero
    simp [AsyncSlotManager.initSlots, send, Prog.perform, Prog.run, SlotCmd.exec, h]
    rfl
  · simp [AsyncSlotManager.initSlots, send, Prog.perform, Prog.run, SlotCmd.exec, h,
      hzero]

/-- Initialisations that do the same leave the same number of free slots. -/
theorem returns_getAvailableSlots
    (h : (AsyncSlotManager.initSlots maxSlots).run SlotCmd.exec s =
      (initSlots maxSlots).run SlotCmd.exec s) :
    SlotAction.returns (getAvailableSlots maxSlots) s =
      SlotAction.returns (AsyncSlotManager.getAvailableSlots maxSlots) s := by
  unfold SlotAction.returns getAvailableSlots AsyncSlotManager.getAvailableSlots
  rw [Prog.run_bind, Prog.run_bind, h]

end Reconciliation

/-- **The two managers** see the same slots if and only if the hash is empty, or has a record for
every configured slot and no free record of another one. -/
theorem sameSlots_iff (maxSlots : ℕ) (s : SlotTable) :
    SameSlots maxSlots s ↔ s.entries = [] ∨ SlotsFit maxSlots s := by
  constructor
  · intro h
    by_cases hempty : s.entries = []
    · exact Or.inl hempty
    have hfits := h.async.fits
    unfold SlotAction.after at hfits
    rw [AsyncSlotManager.run_initSlots_of_ne hempty] at hfits
    exact Or.inr hfits
  · intro h
    have hsame : (AsyncSlotManager.initSlots maxSlots).run SlotCmd.exec s =
        (initSlots maxSlots).run SlotCmd.exec s := by
      by_cases hempty : s.entries = []
      · exact run_initSlots_of_nil hempty
      have hfits := h.resolve_left hempty
      rw [AsyncSlotManager.run_initSlots_of_ne hempty, run_initSlots, hfits.nothing.1,
        hfits.nothing.2]
      rfl
    refine ⟨reconciles, ?_, returns_getAvailableSlots hsame⟩
    unfold SlotAction.after
    rw [hsame]
    exact reconciles

/-- One busy slot that was persisted when the parallelism was one. -/
def oneBusy : SlotTable := (∅ : SlotTable).insert 0 { jobId := "a", status := .busy }

/-- With a parallelism of two the asynchronous manager does not see a second slot. -/
theorem oneBusy_not_sameSlots : ¬ SameSlots 2 oneBusy := by
  intro h
  have hfits := h.async.fits.present 1 (by decide)
  unfold SlotAction.after at hfits
  rw [AsyncSlotManager.run_initSlots_of_ne (by decide)] at hfits
  exact absurd hfits (by decide)

end GpuManager.Queue
