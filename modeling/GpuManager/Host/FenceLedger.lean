import GpuManager.Lib.FileBacked
import GpuManager.Lib.JsonFile
import GpuManager.Lib.Machine

/-!
# The fence ledger of the host supervisor

`FenceLedger` of `runtime_host_supervisor.py` keeps the highest accepted transition fence of each
runtime instance, in memory and in a file.  `accept` changes the memory *before* it writes, and it
does not write at all for a pair that the memory already holds; so a request that is repeated
after a failed write is accepted although the file does not record it, and a restart forgets it.

`fences_kept`: along every run of requests and restarts that repeats no such request, and whose
instances and owners hold no surrogate pairs (a JSON file does not give these back), an accepted
pair is in the file at once and no later request gets below it.  The invariant follows one
accepted pair: the memory *covers* it, and so does whatever the file would be read as.
-/

namespace GpuManager.Host

open FileBacked Json Machine PyStr PyDict Option List

/-- The record of an instance. -/
structure FenceRecord where
  owner : PyStr
  fence : ℤ
  deriving DecidableEq

abbrev Fences := PyDict PyStr FenceRecord

/-- A `HostSupervisorError`, or an exception that passes through. -/
inductive HostError where
  | supervisor (message : String) (status : ℕ)
  | valueError
  deriving DecidableEq

variable {F : Type} {fence' : ℤ} {op : LedgerOp}

/-- `FENCE_SCHEMA`. -/
def fenceSchema : String := "runtime-host-fences.v1"

/-- One record of the document. -/
def FenceRecord.toJson (record : FenceRecord) : Json F :=
  .obj [(text "owner", .str record.owner), (text "fence", .int record.fence)]

def fenceDocument (records : Fences) : Json F :=
  .obj [(text "schema_version", .str (text fenceSchema)),
    (text "instances", .obj (records.map fun e => (e.1, e.2.toJson)))]

def readRecord (key : PyStr) (record : Json F) : Option FenceRecord :=
  match record.get "owner", record.get "fence" with
  | .str owner, .int fence =>
    if isId key = true ∧ owner ≠ [] ∧ 1 ≤ fence then some ⟨owner, fence⟩ else none
  | _, _ => none

def readRecords : List (PyStr × Json F) → Option Fences
  | [] => some []
  | (key, record) :: rest =>
    match readRecord key record, readRecords rest with
    | some record, some records => some ((key, record) :: records)
    | _, _ => none

/-- `_load` of a document; `none` when it is not valid. -/
def readDocument (value : Json F) : Option Fences :=
  match value.get "schema_version", value.get "instances" with
  | .str schema, .obj members => if schema = text fenceSchema then readRecords members else none
  | _, _ => none

/-- `FenceLedger` and its file, which is kept as what `json.loads` makes of it. -/
structure FenceLedger (F : Type) where
  records : Option Fences := none
  file : Option (Json F) := none

namespace FenceLedger

def load (ledger : FenceLedger F) : Option Fences :=
  match ledger.records with
  | some records => some records
  | none =>
    match ledger.file with
    | none => some []
    | some value => readDocument value

/-- `_persist`, with the error that `accept` makes of its failure.  An integer may be too long to
be written. -/
def persist (records : Fences) (fault : WriteFault) (ledger : FenceLedger F) :
    Option HostError × FenceLedger F :=
  let failed := HostError.supervisor "cannot persist runtime transition fence" 503
  match reread (fenceDocument records) with
  | none => (some .valueError, ⟨some records, ledger.file⟩)
  | some value =>
    match fault with
    | .before => (some failed, ⟨some records, ledger.file⟩)
    | .after => (some failed, ⟨some records, some value⟩)
    | .none => (none, ⟨some records, some value⟩)

end FenceLedger

def Stale (records : Fences) (instanceId owner : PyStr) (fence : ℤ) : Prop :=
  ∃ current ∈ get? records instanceId,
    fence < current.fence ∨ (fence = current.fence ∧ owner ≠ current.owner)

instance (records : Fences) (instanceId owner : PyStr) (fence : ℤ) :
    Decidable (Stale records instanceId owner fence) := by
  unfold Stale
  infer_instance

def FenceLedger.accept (instanceId owner : PyStr) (fence : ℤ) (fault : WriteFault)
    (ledger : FenceLedger F) : Option HostError × FenceLedger F :=
  match ledger.load with
  | none => (some (.supervisor "runtime fence ledger is invalid" 503), ledger)
  | some records =>
    if Stale records instanceId owner fence then
      (some (.supervisor "stale runtime transition fence" 409), ⟨some records, ledger.file⟩)
    else if get? records instanceId = some ⟨owner, fence⟩ then
      (none, ⟨some records, ledger.file⟩)
    else ledger.persist (set records instanceId ⟨owner, fence⟩) fault

/-- A request, with what happens to its write, or a restart. -/
inductive LedgerOp where
  | accept (instanceId owner : PyStr) (fence : ℤ) (fault : WriteFault)
  | reopen

/-- One step of a history. -/
def ledgerStep : LedgerOp → FenceLedger F → Option HostError × FenceLedger F
  | .accept instanceId owner fence fault, ledger => ledger.accept instanceId owner fence fault
  | .reopen, ledger => (none, ⟨none, ledger.file⟩)

def fileRecord (file : Option (Json F)) (instanceId : PyStr) : Option FenceRecord := do
  let value ← file
  match value.get "instances" with
  | .obj members =>
    let record ← get? members instanceId
    match record.get "owner", record.get "fence" with
    | .str owner, .int fence => some ⟨owner, fence⟩
    | _, _ => none
  | _ => none

/-! ## What a history keeps -/

def Accepts (v : Visit LedgerOp (FenceLedger F)) (instanceId owner : PyStr) (fence : ℤ) : Prop :=
  (∃ fault, v.op = .accept instanceId owner fence fault) ∧ (ledgerStep v.op v.before).1 = none

/-- Accepted pairs are in the file at once, and every later request below one raises. -/
structure FencesKept (history : List (Visit LedgerOp (FenceLedger F))) : Prop where
  recorded : ∀ v ∈ history, ∀ instanceId owner fence, Accepts v instanceId owner fence →
    fileRecord (ledgerStep v.op v.before).2.file instanceId = some ⟨owner, fence⟩
  fenced : history.Pairwise fun v later => ∀ instanceId owner fence,
    Accepts v instanceId owner fence → ∀ owner' fence',
      (fence' < fence ∨ (fence' = fence ∧ owner' ≠ owner)) →
        ¬ Accepts later instanceId owner' fence'

/-- A request for a pair that the memory holds finds it in the file, and its texts are given back
by a file. -/
def Durable (v : Visit LedgerOp (FenceLedger F)) : Prop :=
  match v.op with
  | .accept instanceId owner fence _ =>
    (join instanceId = instanceId ∧ join owner = owner) ∧
      (v.before.records.bind (get? · instanceId) = some ⟨owner, fence⟩ →
        fileRecord v.before.file instanceId = some ⟨owner, fence⟩)
  | .reopen => True

instance (v : Visit LedgerOp (FenceLedger F)) : Decidable (Durable v) := by
  unfold Durable
  split <;> infer_instance

/-! ## Writing and reading the document -/

/-- The instances of a ledger are distinct and are given back by a file. -/
structure Keyed (records : Fences) : Prop where
  nodup : (records.map (·.1)).Nodup
  joined : ∀ e ∈ records, join e.1 = e.1

theorem Keyed.set {records : Fences} (h : Keyed records) {instanceId : PyStr}
    (hjoin : join instanceId = instanceId) (record : FenceRecord) :
    Keyed (set records instanceId record) := by
  refine ⟨PyDict.nodup_set h.nodup instanceId record, fun e he => ?_⟩
  unfold PyDict.set at he
  split at he
  · obtain ⟨e', he', rfl⟩ := mem_map.mp he
    split
    · exact hjoin
    · exact h.joined e' he'
  · rcases mem_append.mp he with he | he
    · exact h.joined e he
    · rw [mem_singleton.mp he]
      exact hjoin

section Documents

variable {records read : Fences} {value : Json F} {instanceId : PyStr} {record : FenceRecord}

/-- A record is read back with its owner joined. -/
theorem reread_toJson {v : Json F} (h : reread (F := F) record.toJson = some v) :
    v.get "owner" = .str (join record.owner) ∧ v.get "fence" = .int record.fence := by
  have hget := reread_get [text "owner", text "fence"] rfl (by decide) (by decide) h
  constructor
  · exact eq_of_reread_str (hget _ _ mem_cons_self)
  · exact eq_of_reread_int (hget _ _ (mem_cons_of_mem _ mem_cons_self))

/-- The instances of a document that was read back. -/
theorem reread_fenceDocument (hkeyed : Keyed records)
    (h : reread (fenceDocument records) = some value) :
    value.get "schema_version" = .str (text fenceSchema) ∧
      ∃ members, value.get "instances" = .obj members ∧
        (members.map (·.1)).Perm (records.map (·.1)) ∧
        ∀ instanceId, ∀ record ∈ get? records instanceId,
          ∃ v, get? members instanceId = some v ∧ reread (F := F) record.toJson = some v := by
  have hget := reread_get [text "schema_version", text "instances"] rfl (by decide) (by decide) h
  have hschema := eq_of_reread_str (hget _ _ mem_cons_self)
  have hinstances := hget _ _ (mem_cons_of_mem _ mem_cons_self)
  have hkeys : (records.map fun e => (e.1, (e.2.toJson : Json F))).map (·.1) =
      records.map (·.1) := by
    rw [List.map_map]
    rfl
  obtain ⟨members, hmembers, hperm, hsome, hlookup⟩ := get?_reread
    (hkeys ▸ hkeyed.nodup) (by
      rw [hkeys]
      intro key hkey
      obtain ⟨e, he, rfl⟩ := mem_map.mp hkey
      exact hkeyed.joined e he) hinstances
  refine ⟨hschema.trans (congrArg _ (by decide)), members, hmembers, hkeys ▸ hperm, ?_⟩
  intro instanceId record hrecord
  have hmem := mem_map_of_mem (f := fun e : PyStr × FenceRecord =>
    (e.1, (e.2.toJson : Json F))) (mem_of_get? hrecord)
  obtain ⟨v, hv⟩ := isSome_iff_exists.mp (hsome _ hmem)
  have hfound := get?_eq_some_of_mem (hkeys ▸ hkeyed.nodup) hmem
  refine ⟨v, ?_, hv⟩
  rw [hlookup, hfound, bind_some]
  exact hv

/-- The loop over the instances keeps them and reads each of them. -/
theorem readRecords_get? {members : List (PyStr × Json F)} (h : readRecords members = some read) :
    read.map (·.1) = members.map (·.1) ∧
      ∀ instanceId, get? read instanceId =
        (get? members instanceId).bind (readRecord instanceId) := by
  induction members generalizing read with
  | nil =>
    obtain rfl := some.inj h
    exact ⟨rfl, fun _ => rfl⟩
  | cons m members ih =>
    obtain ⟨key, record⟩ := m
    unfold readRecords at h
    cases hrecord : readRecord key record with
    | none => simp [hrecord] at h
    | some record' =>
      cases hrest : readRecords members with
      | none => simp [hrecord, hrest] at h
      | some rest =>
        rw [hrecord, hrest] at h
        obtain rfl := some.inj h
        obtain ⟨hkeys, hget⟩ := ih hrest
        refine ⟨by simp [hkeys], fun instanceId => ?_⟩
        rw [get?_cons, get?_cons, hget]
        by_cases hkey : key = instanceId
        · subst hkey
          rw [if_pos rfl, if_pos rfl]
          exact hrecord.symm
        · rw [if_neg hkey, if_neg hkey]

/-- What the file records once a document is in it. -/
theorem fileRecord_fenceDocument (hkeyed : Keyed records)
    (h : reread (fenceDocument records) = some value)
    (hrecord : get? records instanceId = some record) :
    fileRecord (some value) instanceId = some ⟨join record.owner, record.fence⟩ := by
  obtain ⟨-, members, hmembers, -, hlookup⟩ := reread_fenceDocument hkeyed h
  obtain ⟨v, hv, hreread⟩ := hlookup instanceId record hrecord
  obtain ⟨howner, hfence⟩ := reread_toJson hreread
  unfold fileRecord
  simp [hmembers, hv, howner, hfence]

theorem readRecord_eq_some {v : Json F} (h : readRecord instanceId v = some record) :
    v.get "owner" = .str record.owner ∧ v.get "fence" = .int record.fence := by
  unfold readRecord at h
  split at h
  · rename_i owner fence howner hfence
    split at h
    · obtain rfl := some.inj h
      exact ⟨howner, hfence⟩
    · cases h
  · cases h

/-- What is read from a file is what the file records. -/
theorem readDocument_eq_some (hread : readDocument value = some read) :
    get? read instanceId = fileRecord (some value) instanceId := by
  unfold readDocument at hread
  split at hread
  · rename_i schema members _ hmembers
    split at hread
    · obtain ⟨hkeys, hget⟩ := readRecords_get? hread
      have hsome : (get? read instanceId).isSome =
          (get? members instanceId).isSome := by
        rw [Bool.eq_iff_iff, get?_isSome, get?_isSome, hkeys]
      unfold fileRecord
      rw [hget] at hsome ⊢
      cases hv : get? members instanceId with
      | none => simp [hmembers, hv]
      | some v =>
        rw [hv, bind_some] at hsome
        obtain ⟨record, hrecord⟩ := isSome_iff_exists.mp hsome
        obtain ⟨howner, hfence⟩ := readRecord_eq_some hrecord
        simp [hmembers, hv, hrecord, howner, hfence]
    · cases hread
  · cases hread

/-- A document that was written and is read again: the same instances, and their owners
joined. -/
theorem readDocument_fenceDocument (hkeyed : Keyed records)
    (h : reread (fenceDocument records) = some value) (hread : readDocument value = some read) :
    Keyed read ∧ ∀ instanceId record, get? records instanceId = some record →
      get? read instanceId = some ⟨join record.owner, record.fence⟩ := by
  have hread' := hread
  obtain ⟨hschema, members, hmembers, hperm, -⟩ := reread_fenceDocument hkeyed h
  unfold readDocument at hread
  rw [hschema, hmembers] at hread
  simp only [if_true] at hread
  obtain ⟨hkeys, -⟩ := readRecords_get? hread
  have hperm' : (read.map (·.1)).Perm (records.map (·.1)) := hkeys ▸ hperm
  refine ⟨⟨hperm'.nodup_iff.mpr hkeyed.nodup, fun e he => ?_⟩, fun instanceId record hrecord => ?_⟩
  · obtain ⟨e', he', hkey⟩ := mem_map.mp (hperm'.subset (mem_map_of_mem he))
    rw [← hkey]
    exact hkeyed.joined e' he'
  · rw [readDocument_eq_some hread']
    exact fileRecord_fenceDocument hkeyed h hrecord

end Documents

/-! ## One step -/

def Covers (records : Fences) (instanceId owner : PyStr) (fence : ℤ) : Prop :=
  ∃ record, get? records instanceId = some record ∧
    (fence < record.fence ∨ record = ⟨owner, fence⟩)

structure Sound (ledger : FenceLedger F) : Prop where
  memory : ∀ records ∈ ledger.records, Keyed records
  file : ∀ value ∈ ledger.file, ∃ records, Keyed records ∧
    reread (fenceDocument records) = some value

/-- The memory covers the pair, and so does what the file would be read as. -/
structure Kept (ledger : FenceLedger F) (instanceId owner : PyStr) (fence : ℤ) : Prop where
  memory : ∀ records ∈ ledger.records, Covers records instanceId owner fence
  file : ∃ value ∈ ledger.file, ∀ records, readDocument value = some records →
    Covers records instanceId owner fence

section Steps

variable {ledger : FenceLedger F} {records : Fences} {instanceId owner : PyStr} {fence : ℤ}

theorem keyed_load (hsound : Sound ledger) (hload : ledger.load = some records) :
    Keyed records := by
  unfold FenceLedger.load at hload
  split at hload
  · rename_i held hheld
    obtain rfl := some.inj hload
    exact hsound.memory _ hheld
  · split at hload
    · obtain rfl := some.inj hload
      exact ⟨nodup_nil, fun _ he => (by cases he)⟩
    rename_i value hvalue
    obtain ⟨written, hkeyed, hwritten⟩ := hsound.file value hvalue
    exact (readDocument_fenceDocument hkeyed hwritten hload).1

theorem covers_load (hkept : Kept ledger instanceId owner fence)
    (hload : ledger.load = some records) : Covers records instanceId owner fence := by
  unfold FenceLedger.load at hload
  split at hload
  · rename_i held hheld
    obtain rfl := some.inj hload
    exact hkept.memory _ hheld
  · obtain ⟨value, hvalue, hcovers⟩ := hkept.file
    rw [mem_def.mp hvalue] at hload
    exact hcovers records hload

/-- A document covers what the records it was made of cover. -/
theorem covers_reread {read : Fences} {value : Json F} (hkeyed : Keyed records)
    (hjoin : join owner = owner) (hcovers : Covers records instanceId owner fence)
    (h : reread (fenceDocument records) = some value) (hread : readDocument value = some read) :
    Covers read instanceId owner fence := by
  obtain ⟨record, hrecord, hcovered⟩ := hcovers
  refine ⟨_, (readDocument_fenceDocument hkeyed h hread).2 instanceId record hrecord, ?_⟩
  rcases hcovered with hlt | rfl
  · exact Or.inl hlt
  · rw [hjoin]
    exact Or.inr rfl

/-- A pair that is not stale covers what was covered before it. -/
theorem covers_set {other owner' : PyStr}
    (hcovers : Covers records instanceId owner fence) (hstale : ¬ Stale records other owner' fence') :
    Covers (set records other ⟨owner', fence'⟩) instanceId owner fence := by
  obtain ⟨record, hrecord, hcovered⟩ := hcovers
  by_cases hother : instanceId = other
  · subst hother
    refine ⟨_, get?_set_self _ _ _, ?_⟩
    have hle : record.fence ≤ fence' := by
      by_contra hlt
      exact hstale ⟨record, hrecord, Or.inl (not_le.mp hlt)⟩
    rcases hcovered with hlt | rfl
    · exact Or.inl (lt_of_lt_of_le hlt hle)
    rcases lt_or_eq_of_le hle with hlt | heq
    · exact Or.inl hlt
    refine Or.inr ?_
    have howner : owner' = owner := by
      by_contra hne
      exact hstale ⟨_, hrecord, Or.inr ⟨heq.symm, hne⟩⟩
    rw [howner, ← heq]
  · refine ⟨record, ?_, hcovered⟩
    rw [get?_set, if_neg hother, hrecord]

/-- **What a request does.**  It is refused and writes nothing, it finds its pair in the memory, or
it sets the pair in the memory and tries to write. -/
theorem accept_cases (instanceId owner : PyStr) (fence : ℤ) (fault : WriteFault)
    (ledger : FenceLedger F) :
    ((ledger.accept instanceId owner fence fault).1 ≠ none ∧
        (ledger.accept instanceId owner fence fault).2.file = ledger.file ∧
        ∀ records ∈ (ledger.accept instanceId owner fence fault).2.records,
          ledger.load = some records) ∨
      ∃ records, ledger.load = some records ∧ ¬ Stale records instanceId owner fence ∧
        ((get? records instanceId = some ⟨owner, fence⟩ ∧
            ledger.accept instanceId owner fence fault = (none, ⟨some records, ledger.file⟩)) ∨
          ∃ error file, ledger.accept instanceId owner fence fault =
              (error, ⟨some (set records instanceId ⟨owner, fence⟩), file⟩) ∧
            ((error ≠ none ∧ file = ledger.file) ∨
              ∃ value, reread (fenceDocument (set records instanceId ⟨owner, fence⟩)) =
                some value ∧ file = some value)) := by
  unfold FenceLedger.accept
  cases hload : ledger.load with
  | none =>
    refine Or.inl ⟨by simp, rfl, fun records hrecords => ?_⟩
    unfold FenceLedger.load at hload
    rw [mem_def.mp hrecords] at hload
    cases hload
  | some records =>
    simp only
    by_cases hstale : Stale records instanceId owner fence
    · rw [if_pos hstale]
      exact Or.inl ⟨by simp, rfl, fun _ h => by simpa using h⟩
    rw [if_neg hstale]
    refine Or.inr ⟨records, rfl, hstale, ?_⟩
    by_cases hheld : get? records instanceId = some ⟨owner, fence⟩
    · rw [if_pos hheld]
      exact Or.inl ⟨hheld, rfl⟩
    rw [if_neg hheld]
    refine Or.inr ?_
    unfold FenceLedger.persist
    simp only
    cases hwrite : reread (fenceDocument (F := F)
        (set records instanceId ⟨owner, fence⟩)) with
    | none => exact ⟨_, _, rfl, Or.inl ⟨by simp, rfl⟩⟩
    | some value =>
      cases fault with
      | none | after => exact ⟨_, _, rfl, Or.inr ⟨value, rfl, rfl⟩⟩
      | before => exact ⟨_, _, rfl, Or.inl ⟨by simp, rfl⟩⟩

/-- The file holds a document of the ledger after every step. -/
theorem Sound.step (hsound : Sound ledger) (hdurable : Durable ⟨op, ledger⟩) :
    Sound (ledgerStep op ledger).2 := by
  cases op with
  | reopen => exact ⟨fun _ h => (by cases h), hsound.file⟩
  | accept instanceId owner fence fault =>
    show Sound (ledger.accept instanceId owner fence fault).2
    rcases accept_cases instanceId owner fence fault ledger with
      ⟨-, hfile, hrecords⟩ | ⟨records, hload, -, ⟨-, hnext⟩ | ⟨error, file, hnext, hwritten⟩⟩
    · exact ⟨fun records h => keyed_load hsound (hrecords records h),
        fun value h => hsound.file value (hfile ▸ h)⟩
    · rw [hnext]
      exact ⟨fun _ h => some.inj h ▸ keyed_load hsound hload, hsound.file⟩
    have hkeyed := (keyed_load hsound hload).set hdurable.1.1 ⟨owner, fence⟩
    rw [hnext]
    refine ⟨fun _ h => some.inj h ▸ hkeyed, fun value hvalue => ?_⟩
    rcases hwritten with ⟨-, rfl⟩ | ⟨value', hreread, rfl⟩
    · exact hsound.file value hvalue
    · exact ⟨_, hkeyed, some.inj hvalue ▸ hreread⟩

theorem Kept.step (hsound : Sound ledger) (hdurable : Durable ⟨op, ledger⟩)
    (hjoin : join owner = owner) (hkept : Kept ledger instanceId owner fence) :
    Kept (ledgerStep op ledger).2 instanceId owner fence := by
  cases op with
  | reopen => exact ⟨fun _ h => (by cases h), hkept.file⟩
  | accept other owner' fence' fault =>
    show Kept (ledger.accept other owner' fence' fault).2 instanceId owner fence
    rcases accept_cases other owner' fence' fault ledger with
      ⟨-, hfile, hrecords⟩ | ⟨records, hload, hstale, ⟨-, hnext⟩ | ⟨error, file, hnext, hwritten⟩⟩
    · exact ⟨fun records h => covers_load hkept (hrecords records h), hfile ▸ hkept.file⟩
    · rw [hnext]
      exact ⟨fun _ h => some.inj h ▸ covers_load hkept hload, hkept.file⟩
    have hcovers := covers_set (covers_load hkept hload) hstale
    rw [hnext]
    refine ⟨fun _ h => some.inj h ▸ hcovers, ?_⟩
    rcases hwritten with ⟨-, rfl⟩ | ⟨value, hreread, rfl⟩
    · exact hkept.file
    · have hkeyed := (keyed_load hsound hload).set hdurable.1.1 ⟨owner', fence'⟩
      exact ⟨value, rfl, fun _ hread => covers_reread hkeyed hjoin hcovers hreread hread⟩

variable {v : Visit LedgerOp (FenceLedger F)}

/-- An accepted pair is in the file, and kept from then on. -/
theorem accepts_kept (hsound : Sound v.before)
    (hdurable : Durable v) (haccepts : Accepts v instanceId owner fence) :
    fileRecord (ledgerStep v.op v.before).2.file instanceId = some ⟨owner, fence⟩ ∧
      Kept (ledgerStep v.op v.before).2 instanceId owner fence ∧ join owner = owner := by
  obtain ⟨op, ledger⟩ := v
  obtain ⟨⟨fault, rfl⟩, hreply⟩ := haccepts
  obtain ⟨⟨hinstance, hjoin⟩, hremembered⟩ := hdurable
  rw [and_comm, and_assoc, and_iff_right hjoin]
  show Kept (ledger.accept instanceId owner fence fault).2 instanceId owner fence ∧
    fileRecord (ledger.accept instanceId owner fence fault).2.file instanceId = _
  have hcovered : ∀ records : Fences, get? records instanceId = some ⟨owner, fence⟩ →
      Covers records instanceId owner fence := fun _ h => ⟨_, h, Or.inr rfl⟩
  have hfromFile : ∀ file : Option (Json F), fileRecord file instanceId = some ⟨owner, fence⟩ →
      ∃ value ∈ file, ∀ records, readDocument value = some records →
        Covers records instanceId owner fence := by
    intro file hfile
    cases file with
    | none => cases hfile
    | some value =>
      refine ⟨value, rfl, fun records hread => hcovered records ?_⟩
      rw [readDocument_eq_some hread]
      exact hfile
  rcases accept_cases instanceId owner fence fault ledger with
    ⟨herror, -⟩ | ⟨records, hload, -, ⟨hheld, hnext⟩ | ⟨error, file, hnext, hwritten⟩⟩
  · exact absurd hreply herror
  · rw [hnext]
    have hfile : fileRecord ledger.file instanceId = some ⟨owner, fence⟩ := by
      unfold FenceLedger.load at hload
      split at hload
      · rename_i held hmemory
        obtain rfl := some.inj hload
        exact hremembered (by rw [hmemory]; exact hheld)
      · split at hload
        · obtain rfl := some.inj hload
          cases hheld
        rename_i value hvalue
        rw [hvalue, ← readDocument_eq_some hload]
        exact hheld
    exact ⟨⟨fun _ h => some.inj h ▸ hcovered records hheld, hfromFile _ hfile⟩, hfile⟩
  · have hnone : error = none := by
      have h : (ledger.accept instanceId owner fence fault).1 = none := hreply
      rw [hnext] at h
      exact h
    subst hnone
    obtain ⟨value, hreread, rfl⟩ := hwritten.resolve_left fun h => h.1 rfl
    have hset := get?_set_self records instanceId (⟨owner, fence⟩ : FenceRecord)
    have hkeyed := (keyed_load hsound hload).set hinstance ⟨owner, fence⟩
    have hfile := fileRecord_fenceDocument hkeyed hreread hset
    rw [hjoin] at hfile
    rw [hnext]
    exact ⟨⟨fun _ h => some.inj h ▸ hcovered _ hset, hfromFile _ hfile⟩, hfile⟩

/-- A request below a pair that is kept is not accepted. -/
theorem Kept.not_accepts (hkept : Kept v.before instanceId owner fence) {owner' : PyStr}
    (hbelow : fence' < fence ∨ (fence' = fence ∧ owner' ≠ owner)) :
    ¬ Accepts v instanceId owner' fence' := by
  rintro ⟨⟨fault, hop⟩, hreply⟩
  rw [hop] at hreply
  rcases accept_cases instanceId owner' fence' fault v.before with
    ⟨herror, -⟩ | ⟨records, hload, hstale, -⟩
  · exact herror hreply
  obtain ⟨record, hrecord, hcovered⟩ := covers_load hkept hload
  refine hstale ⟨record, hrecord, ?_⟩
  rcases hcovered with hlt | rfl
  · left
    omega
  · exact hbelow

end Steps

/-! ## Every history -/

/-- No later request gets below a pair that is kept. -/
theorem Kept.fenced {ledger : FenceLedger F} {instanceId owner : PyStr} {fence : ℤ}
    (hsound : Sound ledger) (hjoin : join owner = owner)
    (hkept : Kept ledger instanceId owner fence) (ops : List LedgerOp)
    (hdurable : ∀ v ∈ visits ledgerStep ledger ops, Durable v) :
    ∀ v ∈ visits ledgerStep ledger ops, ∀ owner' fence',
      (fence' < fence ∨ (fence' = fence ∧ owner' ≠ owner)) →
        ¬ Accepts v instanceId owner' fence' := by
  induction ops generalizing ledger with
  | nil => exact fun _ hv => (by cases hv)
  | cons op ops ih =>
    unfold visits at hdurable ⊢
    rw [forall_mem_cons] at hdurable ⊢
    refine ⟨fun owner' fence' hbelow => hkept.not_accepts hbelow, ?_⟩
    exact ih (hsound.step hdurable.1) (hkept.step hsound hdurable.1 hjoin) hdurable.2

theorem Sound.fencesKept {ledger : FenceLedger F} (hsound : Sound ledger) (ops : List LedgerOp)
    (hdurable : ∀ v ∈ visits ledgerStep ledger ops, Durable v) :
    FencesKept (visits ledgerStep ledger ops) := by
  induction ops generalizing ledger with
  | nil => exact ⟨fun _ hv => (by cases hv), Pairwise.nil⟩
  | cons op ops ih =>
    unfold visits at hdurable ⊢
    rw [forall_mem_cons] at hdurable
    have hnext := hsound.step hdurable.1
    obtain ⟨hrecorded, hfenced⟩ := ih hnext hdurable.2
    refine ⟨forall_mem_cons.mpr ⟨?_, hrecorded⟩, pairwise_cons.mpr ⟨?_, hfenced⟩⟩
    · exact fun _ _ _ haccepts => (accepts_kept hsound hdurable.1 haccepts).1
    · intro later hlater instanceId owner fence haccepts
      obtain ⟨-, hkept, hjoin⟩ := accepts_kept hsound hdurable.1 haccepts
      exact hkept.fenced hnext hjoin ops hdurable.2 later hlater

/-- **Host fences survive.**  In every history of requests, failed writes and restarts that repeats
no request whose write has failed, an accepted pair is in the file at once, and no later request
below it is accepted. -/
theorem fences_kept (ops : List LedgerOp)
    (hdurable : ∀ v ∈ visits ledgerStep ({} : FenceLedger F) ops, Durable v) :
    FencesKept (visits ledgerStep ({} : FenceLedger F) ops) :=
  Sound.fencesKept ⟨fun _ h => (by cases h), fun _ h => (by cases h)⟩ ops hdurable

def handover : List LedgerOp :=
  [.accept (text "gpu") (text "a") 1 .none, .accept (text "gpu") (text "b") 2 .before,
    .reopen, .accept (text "gpu") (text "b") 2 .none, .accept (text "gpu") (text "a") 1 .none]

/-- The write for `b` fails before the restart and is repeated after it. -/
theorem fences_kept_handover :
    FencesKept (visits ledgerStep ({} : FenceLedger Empty) handover) :=
  fences_kept handover (by decide +kernel)

/-- A request that is repeated after its write has failed, and then a restart. -/
def repeated : List LedgerOp :=
  [.accept (text "gpu") (text "a") 5 .before, .accept (text "gpu") (text "a") 5 .none, .reopen,
    .accept (text "gpu") (text "b") 1 .none]

/-- The repeated request is accepted, and forgotten. -/
theorem repeated_not_kept : ¬ FencesKept (visits ledgerStep ({} : FenceLedger Empty) repeated) := by
  intro h
  have hfenced := (pairwise_cons.mp (pairwise_cons.mp h.fenced).2).1
  exact hfenced _ (mem_cons_of_mem _ mem_cons_self) (text "gpu") (text "a") 5
    ⟨⟨.none, rfl⟩, by decide +kernel⟩ (text "b") 1 (Or.inl (by decide))
    ⟨⟨.none, rfl⟩, by decide +kernel⟩

end GpuManager.Host
