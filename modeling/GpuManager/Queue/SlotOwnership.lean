import Mathlib.Data.Finset.Card
import GpuManager.Queue.SlotManager

/-!
# Who holds a slot

An acquisition is identified by the client that made it.  The ledger of a run says which
acquisition each record belongs to, and which acquisitions have ended: by a release of the
client itself, or by a reaper that saw the record of this acquisition.

Releases and reaps write by the index of a slot, whoever holds it by then, and the
initialisation writes free records for slots it did not see.  As long as no such write hits
the record of another acquisition, a slot stays busy for its job until its acquisition ends,
and there are no more acquisitions than slots.
-/

namespace GpuManager.Queue

open AtomicProgram SlotManager AList Prog.Obeys Function List Option

/-! ## The ledger -/

/-- What is known about the slots from what was executed. -/
structure SlotLedger where
  /-- The client whose acquisition the record of a slot is. -/
  holder : ℕ → Option ℕ := fun _ => none
  /-- The slot that a client acquired, and its job. -/
  taken : ℕ → Option (ℕ × String) := fun _ => none
  /-- Who held each slot when a client last read all of them. -/
  seen : ℕ → ℕ → Option ℕ := fun _ _ => none
  /-- The clients whose acquisition was released or reaped. -/
  ended : Finset ℕ := ∅

namespace SlotLedger

/-- The acquisition that a client means when it frees a slot: its own, or, for a reaper, the
one it saw there. -/
def subject (ledger : SlotLedger) (client slot : ℕ) : Option ℕ :=
  if (ledger.taken client).isSome then some client else ledger.seen client slot

def note (ledger : SlotLedger) (x : ℕ × Event SlotTable SlotCmd) : SlotLedger :=
  match x.2.cmd with
  | .hgetall => { ledger with seen := update ledger.seen x.1 ledger.holder }
  | .init missing obsolete =>
    { ledger with
      holder := fun slot => if slot ∈ missing ∨ slot ∈ obsolete then none else ledger.holder slot }
  | .acquire jobId now first =>
    match (acquireTable jobId now first x.2.before).1 with
    | .ofNat slot =>
      { ledger with
        holder := update ledger.holder slot (some x.1)
        taken := update ledger.taken x.1 (some (slot, jobId)) }
    | .negSucc _ => ledger
  | .hset slot _ =>
    { ledger with
      holder := update ledger.holder slot none
      ended := ((ledger.subject x.1 slot).map fun client => insert client ledger.ended).getD
        ledger.ended }
  | _ => ledger

/-- The ledger of a trace. -/
def ofTrace (trace : List (ℕ × Event SlotTable SlotCmd)) : SlotLedger := trace.foldl note {}

theorem ofTrace_concat (trace : List (ℕ × Event SlotTable SlotCmd))
    (x : ℕ × Event SlotTable SlotCmd) : ofTrace (trace ++ [x]) = (ofTrace trace).note x :=
  foldl_concat ..

/-- An acquisition that was neither released nor reaped. -/
def Outstanding (ledger : SlotLedger) (client : ℕ) : Prop :=
  (ledger.taken client).isSome ∧ client ∉ ledger.ended

/-- When a write leaves the records of other acquisitions alone. -/
def SafeWrite (ledger : SlotLedger) (x : ℕ × Event SlotTable SlotCmd) : Prop :=
  match x.2.cmd with
  | .init missing obsolete => ∀ slot ∈ missing ++ obsolete, ledger.holder slot = none
  | .hset slot _ => ledger.holder slot = none ∨ ledger.holder slot = ledger.subject x.1 slot
  | _ => True

instance (ledger : SlotLedger) (x : ℕ × Event SlotTable SlotCmd) :
    Decidable (ledger.SafeWrite x) := by
  unfold SafeWrite
  split <;> infer_instance

/-- Every write of a trace leaves the records of other acquisitions alone. -/
def SafeFrom (ledger : SlotLedger) : List (ℕ × Event SlotTable SlotCmd) → Prop
  | [] => True
  | x :: trace => ledger.SafeWrite x ∧ (ledger.note x).SafeFrom trace

instance decidableSafeFrom (ledger : SlotLedger) :
    (trace : List (ℕ × Event SlotTable SlotCmd)) → Decidable (ledger.SafeFrom trace)
  | [] => inferInstanceAs (Decidable True)
  | x :: trace =>
    have := decidableSafeFrom (ledger.note x) trace
    inferInstanceAs (Decidable (_ ∧ _))

/-- Each write is safe for the ledger of what came before. -/
theorem SafeFrom.at {ledger : SlotLedger} {earlier later : List (ℕ × Event SlotTable SlotCmd)}
    {x : ℕ × Event SlotTable SlotCmd} (h : ledger.SafeFrom (earlier ++ x :: later)) :
    (earlier.foldl note ledger).SafeWrite x := by
  induction earlier generalizing ledger with
  | nil => exact h.1
  | cons y earlier ih => exact ih h.2

end SlotLedger

/-- What is said of the slots of a service: an outstanding acquisition has its slot busy for
its job, and there are no more of them than slots. -/
structure SlotsOwned (maxSlots : ℕ) (ledger : SlotLedger) (s : SlotTable) : Prop where
  busy : ∀ client slot jobId, ledger.taken client = some (slot, jobId) → client ∉ ledger.ended →
    ∃ record, s.lookup slot = some record ∧ record.status = .busy ∧ record.jobId = jobId
  bounded : ∀ clients : Finset ℕ, (∀ client ∈ clients, ledger.Outstanding client) →
    clients.card ≤ maxSlots

/-! ## What a client can do -/

/-- What is remembered about one client: whether it has run the acquire script, and the slots
it knows to exist. -/
structure SlotLocal where
  acquired : Bool := false
  known : List ℕ := []

def SlotLocal.ok (maxSlots : ℕ) (l : SlotLocal) : SlotCmd → Prop
  | .acquire .. => l.acquired = false
  | .init missing obsolete => (∀ slot ∈ missing, slot < maxSlots) ∧
      ∀ slot ∈ obsolete, maxSlots ≤ slot ∧ slot ∈ l.known
  | .hset slot _ => slot ∈ l.known
  | _ => True

/-- What a reply tells a client. -/
def SlotLocal.next (l : SlotLocal) : (c : SlotCmd) → c.Reply → SlotLocal
  | .acquire .., _ => { l with acquired := true }
  | .hgetall, slots => { l with known := slots.map Prod.fst ++ l.known }
  | .hget slot, some _ => { l with known := slot :: l.known }
  | _, _ => l

def slotMonitor (maxSlots : ℕ) : Prog.Monitor SlotLocal SlotCmd SlotCmd.Reply :=
  ⟨SlotLocal.ok maxSlots, SlotLocal.next⟩

section Programs

variable {maxSlots : ℕ} {l : SlotLocal}

/-- A round trip and what follows it. -/
theorem obeys_send {α : Type} {c : SlotCmd} {k : c.Reply → SlotAction α}
    {Q : SlotLocal → Except Empty α → Prop} (hok : l.ok maxSlots c)
    (hk : ∀ r, (k r).Obeys (slotMonitor maxSlots) Q (l.next c r)) :
    (c.send >>= k).Obeys (slotMonitor maxSlots) Q l := .call hok hk

theorem initSlots_obeys :
    (initSlots maxSlots).Obeys (slotMonitor maxSlots)
      (fun l' _ => l'.acquired = l.acquired) l := by
  have hexisting : existingSlots.Obeys (slotMonitor maxSlots)
      (fun l' r => l'.acquired = l.acquired ∧
        ∀ existing, r = .ok existing → ∀ e ∈ existing, e.1 ∈ l'.known) l := by
    refine obeys_send trivial fun present => ?_
    cases present with
    | false =>
      refine .done ⟨rfl, fun existing hr e he => ?_⟩
      obtain rfl := Except.ok.inj hr
      cases he
    | true =>
      refine .call trivial fun slots => .done ⟨rfl, fun existing hr e he => ?_⟩
      obtain rfl := Except.ok.inj hr
      exact mem_append_left _ (mem_map_of_mem he)
  refine bind hexisting (fun l' existing hknown => ?_) fun l' e _ => e.elim
  by_cases hnothing : missingSlots maxSlots existing = [] ∧
      obsoleteSlots maxSlots existing = []
  · rw [if_pos hnothing]
    exact .done hknown.1
  rw [if_neg hnothing]
  refine .call ⟨fun slot hslot => ?_, fun slot hslot => ?_⟩ fun _ => .done hknown.1
  · exact mem_range.mp (mem_filter.mp hslot).1
  · obtain ⟨e, he, rfl⟩ := mem_map.mp hslot
    obtain ⟨he, hcondition⟩ := mem_filter.mp he
    have hboth : maxSlots ≤ e.1 ∧ e.2.status = .free := by simpa using hcondition
    exact ⟨hboth.1, hknown.2 existing rfl e he⟩

theorem releaseSlot_obeys (slot : ℕ) :
    (releaseSlot slot).Obeys (slotMonitor maxSlots)
      (fun l' _ => l'.acquired = l.acquired) l := by
  refine obeys_send trivial fun found => ?_
  cases found with
  | none => exact .done rfl
  | some record => exact obeys_send mem_cons_self fun _ => .done rfl

theorem releaseTimes_obeys (slot n : ℕ) :
    (releaseTimes slot n).Obeys (slotMonitor maxSlots) (fun _ _ => True) l := by
  induction n generalizing l with
  | zero => exact .done trivial
  | succ n ih => exact bind (releaseSlot_obeys slot) (fun _ _ _ => ih) fun _ e _ => e.elim

theorem reapSlots_obeys {maxAge now : ℚ} (slots : List (ℕ × SlotRecord)) :
    (reapSlots maxAge now slots).Obeys (slotMonitor maxSlots) (fun _ _ => True) l := by
  induction slots generalizing l with
  | nil => exact .done trivial
  | cons e slots ih =>
    unfold reapSlots
    split
    · refine bind (releaseSlot_obeys e.1) (fun _ _ _ => ?_) fun _ e _ => e.elim
      exact bind ih (fun _ _ _ => .done trivial) fun _ e _ => e.elim
    · exact ih

/-- **What a client can do**: it runs the acquire script once, and it writes only slots that
it has seen. -/
theorem slotOp_obeys (op : SlotOp) :
    (op.program maxSlots).Obeys (slotMonitor maxSlots) (fun _ _ => True) {} := by
  cases op with
  | hold jobId now first releases =>
    have hacquire : (acquireSlot maxSlots jobId now first).Obeys (slotMonitor maxSlots)
        (fun _ _ => True) {} := by
      refine bind initSlots_obeys (fun l' _ hl => ?_) fun _ e _ => e.elim
      exact obeys_send hl fun _ => .done trivial
    refine bind hacquire (fun l' slot _ => ?_) fun _ e _ => e.elim
    cases slot with
    | none => exact .done trivial
    | some slot => exact releaseTimes_obeys slot releases
  | reap maxAge now =>
    have hreap : (reapStaleSlots maxSlots maxAge now).Obeys (slotMonitor maxSlots)
        (fun _ _ => True) {} := by
      refine bind initSlots_obeys (fun l' _ _ => ?_) fun _ e _ => e.elim
      exact obeys_send trivial fun slots => reapSlots_obeys slots
    exact bind hreap (fun _ _ _ => .done trivial) fun _ e _ => e.elim

end Programs

/-! ## One round trip -/

section Tables

variable {s : SlotTable} {slot : ℕ}

variable {missing obsolete : List ℕ}

theorem mem_foldl_insert :
    slot ∈ missing.foldl (fun s i => s.insert i {}) s → slot ∈ missing ∨ slot ∈ s := by
  induction missing generalizing s with
  | nil => exact Or.inr
  | cons i missing ih =>
    intro hmem
    rcases ih hmem with hmem | hmem
    · exact Or.inl (mem_cons_of_mem _ hmem)
    rcases (mem_insert s).mp hmem with rfl | hmem
    · exact Or.inl mem_cons_self
    · exact Or.inr hmem

theorem lookup_foldl_insert (h : slot ∉ missing) :
    (missing.foldl (fun s i => s.insert i {}) s).lookup slot = s.lookup slot := by
  induction missing generalizing s with
  | nil => rfl
  | cons i missing ih =>
    rw [foldl_cons, ih fun hmem => h (mem_cons_of_mem _ hmem)]
    exact lookup_insert_ne fun heq => h (heq ▸ mem_cons_self)

theorem mem_foldl_erase :
    slot ∈ obsolete.foldl (fun s i => s.erase i) s → slot ∈ s := by
  induction obsolete generalizing s with
  | nil => exact id
  | cons i obsolete ih => exact fun hmem => (mem_erase.mp (ih hmem)).2

theorem lookup_foldl_erase (h : slot ∉ obsolete) :
    (obsolete.foldl (fun s i => s.erase i) s).lookup slot = s.lookup slot := by
  induction obsolete generalizing s with
  | nil => rfl
  | cons i obsolete ih =>
    rw [foldl_cons, ih fun hmem => h (mem_cons_of_mem _ hmem)]
    exact lookup_erase_ne fun heq => h (heq ▸ mem_cons_self)

/-- What the acquire script does: it fails, or it takes a slot that was free. -/
theorem acquireTable_cases (jobId : String) (now : ℚ) (first : ℕ) (s : SlotTable) :
    acquireTable jobId now first s = (-1, s) ∨
      ∃ slot record, s.lookup slot = some record ∧ record.status = .free ∧
        acquireTable jobId now first s = (Int.ofNat slot, s.insert slot
          { record with status := .busy, jobId := jobId, startedAt := some now }) := by
  unfold acquireTable
  cases hfind : freeSlot first s with
  | none => exact Or.inl rfl
  | some e =>
    have hfree : e ∈ s.entries ∧ e.2.status = .free := by
      rcases Option.or_eq_some_iff.mp hfind with hfirst | ⟨-, hother⟩
      · have hpred := List.find?_some hfirst
        rw [decide_eq_true_eq] at hpred
        exact ⟨mem_of_find?_eq_some hfirst, hpred.2⟩
      · exact ⟨mem_of_find?_eq_some hother, by simpa using List.find?_some hother⟩
    exact Or.inr ⟨e.1, e.2, mem_lookup_iff.mpr hfree.1, hfree.2, rfl⟩

end Tables

/-- What is true of the slots after a trace, for the monitor's memory `ℓ`. -/
structure SlotsTracked (maxSlots : ℕ) (ledger : SlotLedger) (ℓ : ℕ → SlotLocal) (s : SlotTable) :
    Prop where
  small : ∀ slot ∈ s, slot < maxSlots
  known : ∀ client, ∀ slot ∈ (ℓ client).known, slot < maxSlots
  once : ∀ client, (ledger.taken client).isSome → (ℓ client).acquired = true
  busy : ∀ slot client, ledger.holder slot = some client → ∃ jobId record,
    ledger.taken client = some (slot, jobId) ∧ s.lookup slot = some record ∧
      record.status = .busy ∧ record.jobId = jobId
  held : ∀ client slot jobId, ledger.taken client = some (slot, jobId) → client ∉ ledger.ended →
    ledger.holder slot = some client

section Step

variable {maxSlots : ℕ} {ledger : SlotLedger} {ℓ : ℕ → SlotLocal} {s : SlotTable} {client : ℕ}

/-- A round trip that writes nothing. -/
theorem SlotsTracked.read {seen : ℕ → ℕ → Option ℕ} {l : SlotLocal}
    (h : SlotsTracked maxSlots ledger ℓ s) (hacquired : l.acquired = (ℓ client).acquired)
    (hknown : ∀ slot ∈ l.known, slot < maxSlots) :
    SlotsTracked maxSlots { ledger with seen := seen } (update ℓ client l) s := by
  refine ⟨h.small, fun client' => ?_, fun client' htaken => ?_, h.busy, h.held⟩
  · by_cases heq : client' = client
    · rw [heq, update_self]
      exact hknown
    · rw [update_of_ne heq]
      exact h.known client'
  · by_cases heq : client' = client
    · rw [heq, update_self, hacquired]
      exact h.once client (heq ▸ htaken)
    · rw [update_of_ne heq]
      exact h.once client' htaken

/-- An acquisition of a free slot makes the client its holder, and takes none from another. -/
theorem SlotsTracked.acquire (jobId : String) (now : ℚ) (first : ℕ) (h : SlotsTracked maxSlots ledger ℓ s)
    (hok : (ℓ client).acquired = false) :
    SlotsTracked maxSlots (ledger.note (client, ⟨.acquire jobId now first, s⟩))
      (update ℓ client { ℓ client with acquired := true })
      (acquireTable jobId now first s).2 := by
  have hfresh : ledger.taken client = none := by
    cases htaken : ledger.taken client with
    | none => rfl
    | some pair =>
      have honce := h.once client (by rw [htaken]; rfl)
      rw [hok] at honce
      cases honce
  have hknown : ∀ client', ∀ slot ∈
      (update ℓ client { ℓ client with acquired := true } client').known,
      slot < maxSlots := by
    intro client'
    by_cases heq : client' = client
    · rw [heq, update_self]
      exact h.known client
    · rw [update_of_ne heq]
      exact h.known client'
  have hdone : (update ℓ client { ℓ client with acquired := true } client).acquired =
      true := by
    rw [update_self]
  rcases acquireTable_cases jobId now first s with hrun | ⟨slot, record, hlookup, hfree, hrun⟩
  · have hnote : ledger.note (client, ⟨.acquire jobId now first, s⟩) = ledger := by
      simp only [SlotLedger.note, hrun]
      rfl
    rw [hnote, hrun]
    refine ⟨h.small, hknown, fun client' htaken => ?_, h.busy, h.held⟩
    by_cases heq : client' = client
    · rw [heq]
      exact hdone
    · rw [update_of_ne heq]
      exact h.once client' htaken
  · have hnote : ledger.note (client, ⟨.acquire jobId now first, s⟩) =
        { ledger with
          holder := update ledger.holder slot (some client)
          taken := update ledger.taken client (some (slot, jobId)) } := by
      simp only [SlotLedger.note, hrun]
    -- The record was free, so it belonged to no acquisition.
    have hnobody : ledger.holder slot = none := by
      cases hholder : ledger.holder slot with
      | none => rfl
      | some other =>
        obtain ⟨jobId', record', -, hlookup', hbusy, -⟩ := h.busy slot other hholder
        obtain rfl := some.inj (hlookup.symm.trans hlookup')
        rw [hfree] at hbusy
        cases hbusy
    rw [hnote, hrun]
    refine ⟨fun slot' hslot' => ?_, hknown, fun client' htaken => ?_, fun slot' client' hholder => ?_,
      fun client' slot' jobId' htaken hended => ?_⟩
    · rcases (mem_insert s).mp hslot' with rfl | hslot'
      · exact h.small slot' (lookup_isSome.mp (by rw [hlookup]; rfl))
      · exact h.small slot' hslot'
    · by_cases heq : client' = client
      · rw [heq]
        exact hdone
      · simp only [update_of_ne heq] at htaken ⊢
        exact h.once client' htaken
    · by_cases heq : slot' = slot
      · subst heq
        simp only [update_self, some.injEq] at hholder
        subst hholder
        exact ⟨jobId, _, update_self _ _ _, lookup_insert s, rfl, rfl⟩
      · simp only [update_of_ne heq] at hholder
        obtain ⟨jobId', record', htaken, hlookup', hbusy, hjob⟩ := h.busy slot' client' hholder
        refine ⟨jobId', record', ?_, ?_, hbusy, hjob⟩
        · have hne : client' ≠ client := by
            rintro rfl
            rw [hfresh] at htaken
            cases htaken
          simp only [update_of_ne hne]
          exact htaken
        · rw [lookup_insert_ne heq]
          exact hlookup'
    · by_cases heq : client' = client
      · subst heq
        simp only [update_self, some.injEq, Prod.mk.injEq] at htaken
        obtain ⟨rfl, -⟩ := htaken
        exact update_self _ _ _
      · simp only [update_of_ne heq] at htaken
        have hholder := h.held client' slot' jobId' htaken hended
        have hne : slot' ≠ slot := by
          rintro rfl
          rw [hnobody] at hholder
          cases hholder
        simp only [update_of_ne hne]
        exact hholder

theorem SlotsTracked.hset {slot : ℕ} (record : SlotRecord) (h : SlotsTracked maxSlots ledger ℓ s)
    (hok : slot ∈ (ℓ client).known)
    (hsafe : ledger.SafeWrite (client, ⟨.hset slot record, s⟩)) :
    SlotsTracked maxSlots (ledger.note (client, ⟨.hset slot record, s⟩)) ℓ
      (s.insert slot record) := by
  have hgrows : ∀ client', client' ∉ (ledger.note (client, ⟨.hset slot record, s⟩)).ended →
      client' ∉ ledger.ended ∧ ledger.subject client slot ≠ some client' := by
    intro client' hended
    have hnote : (ledger.note (client, ⟨.hset slot record, s⟩)).ended =
        ((ledger.subject client slot).map fun client => insert client ledger.ended).getD
          ledger.ended := rfl
    rw [hnote] at hended
    cases hsubject : ledger.subject client slot with
    | none =>
      rw [hsubject] at hended
      exact ⟨hended, nofun⟩
    | some other =>
      rw [hsubject, map_some, getD_some, Finset.mem_insert, not_or] at hended
      exact ⟨hended.2, fun heq => hended.1 (some.inj heq).symm⟩
  refine ⟨fun slot' hslot' => ?_, h.known, h.once, fun slot' client' hholder => ?_,
    fun client' slot' jobId htaken hended => ?_⟩
  · rcases (mem_insert s).mp hslot' with rfl | hslot'
    · exact h.known client slot' hok
    · exact h.small slot' hslot'
  · have hne : slot' ≠ slot := by
      rintro rfl
      have hnone : (ledger.note (client, ⟨.hset slot' record, s⟩)).holder slot' = none :=
        update_self _ _ _
      rw [hnone] at hholder
      cases hholder
    have hsame : (ledger.note (client, ⟨.hset slot record, s⟩)).holder slot' =
        ledger.holder slot' := update_of_ne hne _ _
    rw [hsame] at hholder
    obtain ⟨jobId, record', htaken, hlookup, hbusy, hjob⟩ := h.busy slot' client' hholder
    refine ⟨jobId, record', htaken, ?_, hbusy, hjob⟩
    rw [lookup_insert_ne hne]
    exact hlookup
  · obtain ⟨hbefore, hsubject⟩ := hgrows client' hended
    have hholder := h.held client' slot' jobId htaken hbefore
    have hne : slot' ≠ slot := by
      rintro rfl
      rcases hsafe with hnone | hown
      · have hfalse := hholder.symm.trans hnone
        cases hfalse
      · exact hsubject (hown.symm.trans hholder)
    exact (update_of_ne hne _ _).trans hholder

variable (h : SlotsTracked maxSlots ledger ℓ s)
include h

theorem SlotsTracked.init (hok : (ℓ client).ok maxSlots (.init missing obsolete))
    (hsafe : ledger.SafeWrite (client, ⟨.init missing obsolete, s⟩)) :
    SlotsTracked maxSlots (ledger.note (client, ⟨.init missing obsolete, s⟩)) ℓ
      (initTable missing obsolete s) := by
  have hholder : ∀ slot, (ledger.note (client, ⟨.init missing obsolete, s⟩)).holder slot =
      ledger.holder slot := by
    intro slot
    show (if slot ∈ missing ∨ slot ∈ obsolete then none else ledger.holder slot) = _
    split
    next hslot => exact (hsafe slot (mem_append.mpr hslot)).symm
    · rfl
  refine ⟨fun slot hslot => ?_, h.known, h.once, fun slot client' hslot => ?_,
    fun client' slot jobId htaken hended => ?_⟩
  · rcases mem_foldl_insert (mem_foldl_erase hslot) with hslot | hslot
    · exact hok.1 slot hslot
    · exact h.small slot hslot
  · rw [hholder] at hslot
    obtain ⟨jobId, record, htaken, hlookup, hbusy, hjob⟩ := h.busy slot client' hslot
    have huntouched : ¬ (slot ∈ missing ∨ slot ∈ obsolete) := by
      intro hwritten
      have hfalse := hslot.symm.trans (hsafe slot (mem_append.mpr hwritten))
      cases hfalse
    refine ⟨jobId, record, htaken, ?_, hbusy, hjob⟩
    unfold initTable
    rw [lookup_foldl_erase fun hmem => huntouched (Or.inr hmem),
      lookup_foldl_insert fun hmem => huntouched (Or.inl hmem)]
    exact hlookup
  · rw [hholder]
    exact h.held client' slot jobId htaken hended

/-- **One round trip** that leaves other acquisitions alone keeps track of the slots. -/
theorem SlotsTracked.step {c : SlotCmd} (hok : (ℓ client).ok maxSlots c)
    (hsafe : ledger.SafeWrite (client, ⟨c, s⟩)) :
    SlotsTracked maxSlots (ledger.note (client, ⟨c, s⟩))
      (update ℓ client ((ℓ client).next c (c.exec s).1)) (c.exec s).2 := by
  cases c with
  | «exists» => exact h.read rfl (h.known client)
  | hgetall =>
    refine h.read rfl fun slot hslot => ?_
    rcases mem_append.mp hslot with hslot | hslot
    · obtain ⟨e, he, rfl⟩ := mem_map.mp hslot
      obtain ⟨entry, hentry, rfl⟩ := mem_map.mp he
      exact h.small entry.1 (mem_keys.mpr (mem_map_of_mem hentry))
    · exact h.known client slot hslot
  | hget slot =>
    refine h.read ?_ fun slot' hslot' => ?_
    · cases hlookup : s.lookup slot <;> simp only [SlotCmd.exec, hlookup] <;> rfl
    · cases hlookup : s.lookup slot with
      | none =>
        simp only [SlotCmd.exec, hlookup] at hslot'
        exact h.known client slot' hslot'
      | some record =>
        simp only [SlotCmd.exec, hlookup] at hslot'
        rcases mem_cons.mp hslot' with rfl | hslot'
        · exact h.small slot' (lookup_isSome.mp (by rw [hlookup]; rfl))
        · exact h.known client slot' hslot'
  | acquire jobId now first => exact h.acquire jobId now first hok
  | hset slot record =>
    have hsame : update ℓ client ((ℓ client).next (.hset slot record) ()) = ℓ :=
      update_eq_self client ℓ
    rw [show (SlotCmd.exec (.hset slot record) s).1 = () from rfl, hsame]
    exact h.hset record hok hsafe
  | init missing obsolete =>
    have hsame : update ℓ client ((ℓ client).next (.init missing obsolete) ()) = ℓ :=
      update_eq_self client ℓ
    rw [show (SlotCmd.exec (.init missing obsolete) s).1 = () from rfl, hsame]
    exact h.init hok hsafe

/-- Distinct acquisitions hold distinct slots, and these are below the limit. -/
theorem SlotsTracked.owned : SlotsOwned maxSlots ledger s := by
  refine ⟨fun client slot jobId htaken hended => ?_, fun clients houtstanding => ?_⟩
  · obtain ⟨jobId', record, htaken', hlookup, hbusy, hjob⟩ :=
      h.busy slot client (h.held client slot jobId htaken hended)
    obtain ⟨-, rfl⟩ := Prod.mk.inj (some.inj (htaken.symm.trans htaken'))
    exact ⟨record, hlookup, hbusy, hjob⟩
  · have hslot : ∀ client ∈ clients, ∃ slot, ledger.holder slot = some client ∧
        slot < maxSlots ∧ ((ledger.taken client).map Prod.fst).getD 0 = slot := by
      intro client hclient
      obtain ⟨htaken, hended⟩ := houtstanding client hclient
      obtain ⟨⟨slot, jobId⟩, htaken⟩ := isSome_iff_exists.mp htaken
      have hholder := h.held client slot jobId htaken hended
      obtain ⟨-, record, -, hlookup, -⟩ := h.busy slot client hholder
      refine ⟨slot, hholder, h.small slot (lookup_isSome.mp (by rw [hlookup]; rfl)), ?_⟩
      rw [htaken]
      rfl
    rw [← Finset.card_range maxSlots]
    refine Finset.card_le_card_of_injOn
      (fun client => ((ledger.taken client).map Prod.fst).getD 0) ?_ ?_
    · intro client hclient
      obtain ⟨slot, -, hlt, heq⟩ := hslot client hclient
      simpa [heq] using hlt
    · intro client hclient client' hclient' heq
      obtain ⟨slot, hholder, -, hslot₁⟩ := hslot client hclient
      obtain ⟨slot', hholder', -, hslot₂⟩ := hslot client' hclient'
      have hsame : slot = slot' := by rw [← hslot₁, ← hslot₂]; exact heq
      rw [hsame, hholder'] at hholder
      exact (some.inj hholder).symm

end Step

/-! ## Runs -/

/-- **Slots are owned.**  At the start there are only slots below the limit, and any number
of clients run interleaved.  As long as every write of a free record finds the slot free, or
finds the acquisition that it is meant for, a slot stays busy for its job until its own
acquisition is released or reaped, and there are never more acquisitions than slots. -/
theorem slots_owned (maxSlots : ℕ) (start : SlotTable) (hstart : ∀ slot ∈ start, slot < maxSlots)
    (ls : List (Label SlotOp))
    (hsafe : ({} : SlotLedger).SafeFrom ((slotSystem maxSlots).trace ⟨start, []⟩ ls)) :
    ∀ ls', ls' <+: ls → SlotsOwned maxSlots
      (SlotLedger.ofTrace ((slotSystem maxSlots).trace ⟨start, []⟩ ls'))
      ((slotSystem maxSlots).run ⟨start, []⟩ ls').store := by
  rintro ls' ⟨rest, rfl⟩
  have hlaunches : ∀ results op p, True → (slotSystem maxSlots).launch results op = some p →
      p.Obeys (slotMonitor maxSlots) (fun _ _ => True) {} := by
    intro results op p _ hlaunch
    obtain rfl := some.inj hlaunch
    exact slotOp_obeys op
  have hobeys : ∀ earlier x later,
      (slotSystem maxSlots).trace ⟨start, []⟩ ls' = earlier ++ x :: later →
      ((slotSystem maxSlots).locals (slotMonitor maxSlots) (fun _ => {}) earlier x.1).ok maxSlots
        x.2.cmd :=
    ((slotSystem maxSlots).obeys_run (fun results op p _ => hlaunches results op p)
      (fun i p hp => (by cases hp)) (fun _ _ => rfl)
      fun _ _ => trivial).1
  have htracked := ((slotSystem maxSlots).trace_induction
    (fun trace s => SlotsTracked maxSlots (SlotLedger.ofTrace trace)
      ((slotSystem maxSlots).locals (slotMonitor maxSlots) (fun _ => {}) trace) s)
    ⟨hstart, fun _ _ hslot => (by cases hslot), fun _ htaken => (by cases htaken),
      fun _ _ hholder => (by cases hholder), fun _ _ _ htaken => (by cases htaken)⟩
    (by
      intro earlier x later htrace h
      have hwrite : (SlotLedger.ofTrace earlier).SafeWrite x := by
        rw [System.trace_append, htrace, append_assoc, cons_append] at hsafe
        exact hsafe.at
      rw [SlotLedger.ofTrace_concat, System.locals_concat]
      exact h.step (hobeys earlier x later htrace) hwrite)).2
  exact htracked.owned

/-! ## A late release -/

/-- Two clients want the second slot at the same time; the one that comes later gets the other. -/
def holdTogether : List (Label SlotOp) :=
  [.start (.hold "a" 0 1 1), .act 0, .act 0, .act 0,
    .start (.hold "b" 1 1 1), .act 1, .act 1, .act 1, .act 0, .act 0, .act 1, .act 1]

/-- The first client is reaped, and releases the slot when the second one has it. -/
def releaseLate : List (Label SlotOp) :=
  [.start (.hold "a" 0 0 1), .act 0, .act 0, .act 0,
    .start (.reap 10 100), .act 1, .act 1, .act 1, .act 1, .act 1,
    .start (.hold "b" 100 0 1), .act 2, .act 2, .act 2,
    .act 0, .act 0]

/-- While both hold a slot, each has its own. -/
theorem holdTogether_owned :
    ({} : SlotLedger).SafeFrom ((slotSystem 2).trace ⟨∅, []⟩ holdTogether) ∧
      (SlotLedger.ofTrace ((slotSystem 2).trace ⟨∅, []⟩ (holdTogether.take 8))).taken 1 =
        some (0, "b") ∧
      ∀ ls', ls' <+: holdTogether → SlotsOwned 2
        (SlotLedger.ofTrace ((slotSystem 2).trace ⟨∅, []⟩ ls'))
        ((slotSystem 2).run ⟨∅, []⟩ ls').store :=
  ⟨by decide +kernel, by decide +kernel,
    slots_owned 2 ∅ (fun slot hslot => absurd hslot (notMem_empty slot)) holdTogether
      (by decide +kernel)⟩

/-- The late release frees the slot of the second client. -/
theorem releaseLate_not_owned :
    ¬ SlotsOwned 1 (SlotLedger.ofTrace ((slotSystem 1).trace ⟨∅, []⟩ releaseLate))
      ((slotSystem 1).run ⟨∅, []⟩ releaseLate).store := by
  intro h
  obtain ⟨record, hlookup, hbusy, -⟩ := h.busy 2 0 "b" (by decide +kernel) (by decide +kernel)
  have hfree : ((slotSystem 1).run ⟨∅, []⟩ releaseLate).store.lookup 0 = some {} := by
    decide +kernel
  rw [hfree] at hlookup
  obtain rfl := some.inj hlookup
  cases hbusy

end GpuManager.Queue
