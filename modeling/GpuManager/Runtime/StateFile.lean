import GpuManager.Lib.FileBacked
import GpuManager.Lib.JsonFile
import GpuManager.Runtime.State

/-!
# The runtime state in a file

`FileRuntimeStateStore` of `runtime_state.py`.  A call of it is the call of the store in memory,
and then, in a second critical section, a write of the whole document.  What is in the file is
the document here, and reading it is what `json.loads` makes of it.

`traceless_iff`: a call that raises leaves no trace if and only if it is refused by its own checks,
or its write does not fail, or it writes a record back as it found it.  A write that fails after
the memory was changed keeps the change: the instance of a `begin_transition` that raised stays
owned.
-/

namespace GpuManager.Runtime

open FileBacked Json PyStr InstanceRecord Option

/-- `sorted(self._records.items())`. -/
def sortedRecords (records : Records) : List (PyStr × InstanceRecord) :=
  records.insertionSort fun a b => PyStr.le a.1 b.1 = true

/-- `snapshots`. -/
def snapshots (records : Records) : List InstanceRecord := (sortedRecords records).map (·.2)

/-- `None` or a string. -/
def optionalText : Option PyStr → Json ℚ
  | none => .null
  | some s => .str s

/-- `asdict` of a record. -/
def InstanceRecord.members (record : InstanceRecord) : List (PyStr × Json ℚ) :=
  [(text "instance_id", .str record.instanceId),
    (text "profile_name", .str record.profileName),
    (text "profile_fingerprint", .str record.profileFingerprint),
    (text "desired_state", .str (text record.desiredState.value)),
    (text "state", .str (text record.state.value)),
    (text "process_generation", .int record.processGeneration),
    (text "process_ready", .bool record.processReady),
    (text "model_ready", .bool record.modelReady),
    (text "accepting", .bool record.accepting),
    (text "transition_owner", optionalText record.transitionOwner),
    (text "transition_fence", .int record.transitionFence),
    (text "transition_expires_at", .float record.transitionExpiresAt),
    (text "observed_at", .float record.observedAt),
    (text "last_error", optionalText record.lastError)]

/-- `SCHEMA_VERSION`. -/
def schemaVersion : String := "runtime-state-store.v1"

def stateDocument (records : Records) : Json ℚ :=
  .obj [(text "schema_version", .str (text schemaVersion)),
    (text "records", .obj ((sortedRecords records).map fun e => (e.1, .obj e.2.members)))]

/-- The store and its file. -/
structure FileStore where
  memory : Records := []
  file : Option (Json ℚ) := none

inductive CallError where
  | store (e : StateError)
  | unwritten

/-- `_persist`.  A document that cannot be encoded is a write that fails before the file is
replaced. -/
def persist (fault : WriteFault) (store : FileStore) : Option CallError × FileStore :=
  match fault with
  | .none => (none, { store with file := some (stateDocument store.memory) })
  | .before => (some .unwritten, store)
  | .after => (some .unwritten, { store with file := some (stateDocument store.memory) })

/-- One call of the file store, with no other call between its two sections. -/
def fileCall (c : Contracts) (call : StateCall) (fault : WriteFault) (store : FileStore) :
    Except CallError Returned × FileStore :=
  match change c call store.memory with
  | .error e => (.error (.store e), store)
  | .ok (answer, memory) =>
    match persist fault { store with memory := memory } with
    | (some e, store) => (.error e, store)
    | (none, store) => (.ok answer, store)

/-! ## Calls that leave no trace -/

/-- If the call raises, the snapshots and the file are as before. -/
def Traceless (c : Contracts) (call : StateCall) (fault : WriteFault) (store : FileStore) : Prop :=
  (∃ e, (fileCall c call fault store).1 = .error e) →
    snapshots (fileCall c call fault store).2.memory = snapshots store.memory ∧
      (fileCall c call fault store).2.file = store.file

/-- The call writes a record back as it found it: a registration or a renewal that is repeated at
the same time, or an observation of what is stored. -/
def StateCall.Rewrites (c : Contracts) (records : Records) : StateCall → Prop
  | register instanceId profileName profile now =>
    ∃ record, records.get? instanceId = some record ∧ record.observedAt = now ∧
      record.SameProfile profileName ((c.fingerprint profile).getD [])
  | beginTransition _ _ _ _ _ _ _ => False
  | renew lease ttlSeconds now =>
    ∃ record, records.get? lease.instanceId = some record ∧ record.observedAt = now ∧
      record.transitionExpiresAt = now + max (1 / 10) ttlSeconds
  | failTransition _ _ _ => False
  | publishObservation lease _ observation now =>
    ∃ record, records.get? lease.instanceId = some record ∧ record.observedAt = now ∧
      ¬ record.state.Final ∧ record.state = stateForObservation observation ∧
      (int? (observation.get "process_generation")).getD 0 ≤ record.processGeneration ∧
      record.processReady = truthy (observation.get "process_ready") ∧
      record.modelReady = truthy (observation.get "model_ready") ∧
      record.accepting = truthy (observation.get "accepting") ∧
      record.lastError =
        if record.state ≠ .blocked then none else some (text "adapter reported faulted")

section Traces

variable {c : Contracts} {call : StateCall} {records : Records} {record : InstanceRecord} {now : ℚ}

/-- Sorting looks at the keys only. -/
theorem sortedRecords_map (f : PyStr × InstanceRecord → PyStr × InstanceRecord)
    (hf : ∀ e, (f e).1 = e.1) (records : Records) :
    sortedRecords (records.map f) = (sortedRecords records).map f := by
  unfold sortedRecords
  refine (List.map_insertionSort _ _ f records fun a _ b _ => ?_).symm
  rw [hf a, hf b]

theorem sortedRecords_perm (records : Records) : (sortedRecords records).Perm records :=
  List.perm_insertionSort _ _

/-- Setting a record keeps the snapshots exactly if the record was there. -/
theorem snapshots_set_iff (record : InstanceRecord) (key : PyStr)
    (hdict : (records.map (·.1)).Nodup) :
    snapshots (records.set key record) = snapshots records ↔ records.get? key = some record := by
  constructor
  · intro hsame
    unfold PyDict.set at hsame
    split at hsame
    · rename_i hin
      rw [PyDict.any_iff] at hin
      obtain ⟨old, hold⟩ := isSome_iff_exists.mp hin
      have hmem := (sortedRecords_perm records).mem_iff.mpr (PyDict.mem_of_get? hold)
      unfold snapshots at hsame
      rw [sortedRecords_map _ (fun e => by by_cases h : e.1 = key <;> simp [h]), List.map_map,
        List.map_inj_left] at hsame
      have hvalue := hsame _ hmem
      simp only [Function.comp_apply, if_true] at hvalue
      rw [hold, hvalue]
    · have hlength := congrArg List.length hsame
      simp [snapshots, (sortedRecords_perm _).length_eq] at hlength
  · intro hrecord
    rw [PyDict.set_eq_self hdict hrecord]

theorem registered_eq_iff {profileName fingerprint : PyStr} :
    record.registered profileName fingerprint now = record ↔
      record.observedAt = now ∧ record.SameProfile profileName fingerprint := by
  constructor
  · intro h
    have hname := congrArg InstanceRecord.profileName h
    have hfingerprint := congrArg InstanceRecord.profileFingerprint h
    exact ⟨(congrArg observedAt h).symm, hname.symm, hfingerprint.symm⟩
  · rintro ⟨rfl, hsame⟩
    unfold registered
    simp only [if_pos hsame]
    obtain ⟨rfl, rfl⟩ := hsame
    rfl

theorem renewed_eq_iff {ttlSeconds : ℚ} :
    record.renewed ttlSeconds now = record ↔
      record.observedAt = now ∧ record.transitionExpiresAt = now + max (1 / 10) ttlSeconds := by
  constructor
  · intro h
    exact ⟨(congrArg observedAt h).symm,
      (congrArg transitionExpiresAt h).symm⟩
  · rintro ⟨hobserved, hexpires⟩
    unfold renewed
    rw [← hexpires, ← hobserved]

/-- An observation of an owned record is what is stored, and ends nothing. -/
theorem observed_eq_iff {owner : PyStr} (howner : record.transitionOwner = some owner)
    {observation : Json ℚ} {generation : ℤ} :
    record.observed observation (max record.processGeneration generation) now = record ↔
      record.observedAt = now ∧ ¬ record.state.Final ∧
        record.state = stateForObservation observation ∧ generation ≤ record.processGeneration ∧
        record.processReady = truthy (observation.get "process_ready") ∧
        record.modelReady = truthy (observation.get "model_ready") ∧
        record.accepting = truthy (observation.get "accepting") ∧
        record.lastError =
          if record.state ≠ .blocked then none else some (text "adapter reported faulted") := by
  constructor
  · intro h
    have hstate := congrArg state h
    have howner' := congrArg transitionOwner h
    have hgeneration := congrArg processGeneration h
    have herror := congrArg lastError h
    simp only [observed] at hstate howner' hgeneration herror
    refine ⟨(congrArg observedAt h).symm, fun hfinal => ?_, hstate.symm,
      max_eq_left_iff.mp hgeneration, (congrArg processReady h).symm,
      (congrArg modelReady h).symm, (congrArg accepting h).symm,
      hstate ▸ herror.symm⟩
    rw [← hstate] at hfinal
    rw [if_pos hfinal, howner] at howner'
    cases howner'
  · rintro ⟨hobserved, hfinal, hstate, hgeneration, hprocess, hmodel, haccepting, herror⟩
    rw [hstate] at hfinal herror
    unfold observed
    simp only [if_neg hfinal, max_eq_left hgeneration, ← hprocess, ← hmodel, ← haccepting,
      ← herror, ← hobserved]
    rw [← hstate]

/-- The record that an admitted call writes is the stored one exactly if the call rewrites it. -/
theorem rewrites_iff (hadmitted : call.Admitted c records) {current : InstanceRecord}
    (hcurrent : call.current c records = some current) :
    records.get? call.instanceId = some (call.written c current) ↔ call.Rewrites c records := by
  cases call with
  | register instanceId profileName profile now =>
    obtain rfl := some.inj hcurrent
    show records.get? instanceId = some (registered _ _ _ now) ↔
      ∃ record, records.get? instanceId = some record ∧ _
    cases hrecord : records.get? instanceId with
    | none => simp
    | some record =>
      simp only [getD_some, some.injEq]
      rw [eq_comm, registered_eq_iff]
      exact ⟨fun h => ⟨record, rfl, h⟩, fun ⟨_, heq, h⟩ => heq ▸ h⟩
  | beginTransition instanceId profileName profile owner desiredState ttlSeconds now =>
    obtain rfl := some.inj hcurrent
    show records.get? instanceId = some (begun _ _ _ _ _ _ _) ↔ False
    cases hrecord : records.get? instanceId with
    | none => simp
    | some record =>
      simp only [getD_some, iff_false]
      intro h
      have hfence := congrArg transitionFence (some.inj h)
      simp [begun] at hfence
  | renew lease ttlSeconds now =>
    have hrecord : records.get? lease.instanceId = some current := hcurrent
    show records.get? lease.instanceId = some (current.renewed ttlSeconds now) ↔
      ∃ record, records.get? lease.instanceId = some record ∧ _
    rw [hrecord, some.injEq, eq_comm, renewed_eq_iff]
    exact ⟨fun h => ⟨current, rfl, h⟩, fun ⟨_, heq, h⟩ => some.inj heq ▸ h⟩
  | failTransition lease error now =>
    have hrecord : records.get? lease.instanceId = some current := hcurrent
    obtain ⟨record, hsome, -, howned⟩ := hadmitted
    show records.get? lease.instanceId = some (current.failed error now) ↔ False
    rw [hrecord] at hsome ⊢
    obtain rfl := some.inj hsome
    rw [iff_false]
    intro h
    have howner := congrArg transitionOwner (some.inj h)
    rw [howned.owner] at howner
    cases howner
  | publishObservation lease profile observation now =>
    have hrecord : records.get? lease.instanceId = some current := hcurrent
    obtain ⟨-, record, hsome, hpublishes⟩ := hadmitted
    show records.get? lease.instanceId = some (current.observed observation _ now) ↔
      ∃ record, records.get? lease.instanceId = some record ∧ _
    rw [hrecord] at hsome ⊢
    obtain rfl := some.inj hsome
    rw [some.injEq, eq_comm, observed_eq_iff hpublishes.owned.owner]
    exact ⟨fun h => ⟨current, rfl, h⟩, fun ⟨_, heq, h⟩ => some.inj heq ▸ h⟩

/-- **A call leaves no trace** if it raises, exactly if it is refused, its write does not fail, or
it writes a record back as it found it; and if it fails after the file was replaced, the file held
the same document. -/
theorem traceless_iff (c : Contracts) (call : StateCall) (fault : WriteFault) (store : FileStore)
    (hdict : (store.memory.map (·.1)).Nodup) :
    Traceless c call fault store ↔
      (call.Admitted c store.memory → fault ≠ .none →
        call.Rewrites c store.memory ∧
          (fault = .after → store.file = some (stateDocument store.memory))) := by
  unfold Traceless fileCall
  rcases change_decides c call store.memory with ⟨hadmitted, current, hcurrent, hok⟩ | ⟨hnot, e, herror⟩
  swap
  · rw [herror]
    exact iff_of_true (fun _ => ⟨rfl, rfl⟩) fun h => absurd h hnot
  rw [hok]
  simp only
  cases fault with
  | none => exact iff_of_true (fun ⟨_, h⟩ => (by cases h)) fun _ h => absurd rfl h
  | before =>
    have hiff := snapshots_set_iff (call.written c current) call.instanceId hdict
    rw [rewrites_iff hadmitted hcurrent] at hiff
    constructor
    · intro h _ _
      exact ⟨hiff.mp (h ⟨_, rfl⟩).1, fun h => by cases h⟩
    · intro h _
      exact ⟨hiff.mpr (h hadmitted (by decide)).1, rfl⟩
  | after =>
    have hiff := snapshots_set_iff (call.written c current) call.instanceId hdict
    constructor
    · intro h _ _
      obtain ⟨hsnapshots, hfile⟩ := h ⟨_, rfl⟩
      have hsame := PyDict.set_eq_self hdict (hiff.mp hsnapshots)
      refine ⟨(rewrites_iff hadmitted hcurrent).mp (hiff.mp hsnapshots), fun _ => ?_⟩
      rw [← hfile]
      exact congrArg (fun memory => some (stateDocument memory)) hsame
    · intro h _
      obtain ⟨hrewrites, hfile⟩ := h hadmitted (by decide)
      have hrecord := (rewrites_iff hadmitted hcurrent).mpr hrewrites
      refine ⟨hiff.mpr hrecord, ?_⟩
      rw [hfile rfl]
      exact congrArg (fun memory => some (stateDocument memory))
        (PyDict.set_eq_self hdict hrecord)

end Traces

/-- A profile that is always accepted, and no other check. -/
def lenient : Contracts where
  bodyErrors := fun _ => []
  digest := fun _ => some [1, 2]
  str := fun _ => text "None"
  equal := fun _ _ => true

/-- A transition that begins. -/
def firstTransition : StateCall :=
  .beginTransition (text "gpu") (text "p") (.obj []) (text "a") (text "ready") 60 1

/-- The store after it. -/
def firstBegun : FileStore := (fileCall lenient firstTransition .none {}).2

/-- Another owner is refused, and leaves no trace. -/
theorem traceless_refused :
    (firstBegun.memory.map (·.1)).Nodup ∧
      Traceless lenient (.beginTransition (text "gpu") (text "p") (.obj []) (text "b")
        (text "ready") 60 2) .before firstBegun := by
  have hdict : (firstBegun.memory.map (·.1)).Nodup := by decide +kernel
  refine ⟨hdict, (traceless_iff lenient _ .before firstBegun hdict).mpr fun hadmitted => ?_⟩
  obtain ⟨record, hrecord⟩ : ∃ record, firstBegun.memory.get? (text "gpu") = some record ∧
      record.Live 2 := by decide +kernel
  exact absurd hrecord.2 (hadmitted.2.2.2.2 record hrecord.1)

/-- A `begin_transition` whose write fails raises, and the instance is owned. -/
theorem firstTransition_not_traceless : ¬ Traceless lenient firstTransition .before {} := by
  intro h
  obtain ⟨hsnapshots, -⟩ := h ⟨.unwritten, rfl⟩
  exact absurd hsnapshots (by decide +kernel)

end GpuManager.Runtime
