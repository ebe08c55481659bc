import GpuManager.Runtime.StateFile

/-!
# Reading the runtime state back

`_load` of `FileRuntimeStateStore`, which a new store runs on its file.  What it reads is what
`json.loads` makes of the document, so every text comes back with its surrogate pairs joined; and
the store refuses a record whose instance is not its key.

`readDocument_stateDocument`: a document whose instance ids hold no pairs is read, and each
instance has its record, up to the joined texts.
-/

namespace GpuManager.Runtime

open Json PyStr List PyDict

/-- `RuntimeDesiredState(value)`. -/
def desiredOf (value : PyStr) : Option DesiredState :=
  [DesiredState.stopped, .ready].find? fun state => value = text state.value

/-- `RuntimeControlState(value)`. -/
def stateOf (value : PyStr) : Option ControlState :=
  [ControlState.unknown, .stopped, .transitioning, .ready, .degraded, .blocked].find? fun state =>
    value = text state.value

/-- `None` or a string. -/
def optionalText? : Json ℚ → Option (Option PyStr)
  | .null => some none
  | .str s => some (some s)
  | _ => none

/-- A float. -/
def float? : Json ℚ → Option ℚ
  | .float x => some x
  | _ => none

def recordFields : List PyStr :=
  [text "instance_id", text "profile_name", text "profile_fingerprint", text "desired_state",
    text "state", text "process_generation", text "process_ready", text "model_ready",
    text "accepting", text "transition_owner", text "transition_fence",
    text "transition_expires_at", text "observed_at", text "last_error"]

/-- One record of the file.  A field of another type than the store writes is refused here; a
dataclass does not look at the types of its fields. -/
def readRecord (key : PyStr) (raw : Json ℚ) : Option InstanceRecord :=
  match raw with
  | .obj members =>
    if (∀ m ∈ members, m.1 ∈ recordFields) ∧ ∀ field ∈ recordFields, field ∈ members.map (·.1) then do
      let record : InstanceRecord :=
        { instanceId := ← (raw.get "instance_id").str?
          profileName := ← (raw.get "profile_name").str?
          profileFingerprint := ← (raw.get "profile_fingerprint").str?
          desiredState := ← (raw.get "desired_state").str? >>= desiredOf
          state := ← (raw.get "state").str? >>= stateOf
          processGeneration := ← int? (raw.get "process_generation")
          processReady := ← bool? (raw.get "process_ready")
          modelReady := ← bool? (raw.get "model_ready")
          accepting := ← bool? (raw.get "accepting")
          transitionOwner := ← optionalText? (raw.get "transition_owner")
          transitionFence := ← int? (raw.get "transition_fence")
          transitionExpiresAt := ← float? (raw.get "transition_expires_at")
          observedAt := ← float? (raw.get "observed_at")
          lastError := ← optionalText? (raw.get "last_error") }
      if record.instanceId ≠ key ∨ record.transitionFence < 0 then none else some record
    else none
  | _ => none

def readRecords : List (PyStr × Json ℚ) → Option Records
  | [] => some []
  | (key, raw) :: rest =>
    match readRecord key raw, readRecords rest with
    | some record, some records => some ((key, record) :: records)
    | _, _ => none

/-- `_load` of a document. -/
def readDocument (value : Json ℚ) : Option Records :=
  match value.get "schema_version", value.get "records" with
  | .str schema, .obj members => if schema = text schemaVersion then readRecords members else none
  | _, _ => none

def load (file : Option (Json ℚ)) : Option Records :=
  match file with
  | none => some []
  | some document => (reread document).bind readDocument

/-- The record with its texts as a file gives them back. -/
def InstanceRecord.rejoined (record : InstanceRecord) : InstanceRecord :=
  { record with
    instanceId := join record.instanceId
    profileName := join record.profileName
    profileFingerprint := join record.profileFingerprint
    transitionOwner := record.transitionOwner.map join
    lastError := record.lastError.map join }

theorem reread_optionalText {s : Option PyStr} {v : Json ℚ}
    (h : reread (optionalText s) = some v) : optionalText? v = some (s.map join) := by
  cases s with
  | none =>
    obtain rfl := Option.some.inj h
    rfl
  | some s =>
    rw [eq_of_reread_str h]
    rfl

theorem stateOf_join (state : ControlState) : stateOf (join (text state.value)) = some state := by
  cases state <;> decide

theorem desiredOf_join (state : DesiredState) :
    desiredOf (join (text state.value)) = some state := by
  cases state <;> decide

/-- A record is read back with its texts joined. -/
theorem readRecord_members {record : InstanceRecord} {v : Json ℚ}
    (h : reread (.obj record.members) = some v) {key : PyStr}
    (hkey : join record.instanceId = key) (hfence : 0 ≤ record.transitionFence) :
    readRecord key v = some record.rejoined := by
  have hkeys : record.members.map (·.1) = recordFields := rfl
  have hnodup : recordFields.Nodup := by decide
  have hjoin : ∀ field ∈ recordFields, join field = field := by decide
  obtain ⟨members, rfl, hperm, -, -⟩ := get?_reread (hkeys ▸ hnodup) (hkeys ▸ hjoin) h
  rw [hkeys] at hperm
  have hfields : (∀ m ∈ members, m.1 ∈ recordFields) ∧
      ∀ field ∈ recordFields, field ∈ members.map (·.1) :=
    ⟨fun m hm => hperm.subset (mem_map_of_mem hm), fun field hfield => hperm.symm.subset hfield⟩
  have hget := reread_get recordFields hkeys hnodup hjoin h
  have hstr : ∀ field s, (text field, .str s) ∈ record.members →
      ((Json.obj members).get field).str? = some (join s) := by
    intro field s hmem
    rw [eq_of_reread_str (hget field _ hmem)]
    rfl
  have hint : ∀ field n, (text field, .int n) ∈ record.members →
      int? ((Json.obj members).get field) = some n := by
    intro field n hmem
    rw [eq_of_reread_int (hget field _ hmem)]
    rfl
  have hbool : ∀ field b, (text field, .bool b) ∈ record.members →
      bool? ((Json.obj members).get field) = some b := by
    intro field b hmem
    rw [← Option.some.inj (hget field _ hmem)]
    rfl
  have hfloat : ∀ field x, (text field, .float x) ∈ record.members →
      float? ((Json.obj members).get field) = some x := by
    intro field x hmem
    rw [← Option.some.inj (hget field _ hmem)]
    rfl
  have hoptional : ∀ field s, (text field, optionalText s) ∈ record.members →
      optionalText? ((Json.obj members).get field) = some (s.map join) :=
    fun field s hmem => reread_optionalText (hget field _ hmem)
  have hdesired : ((Json.obj members).get "desired_state").str? >>= desiredOf =
      some record.desiredState := by
    rw [hstr "desired_state" (text record.desiredState.value) (by simp [InstanceRecord.members])]
    exact desiredOf_join _
  have hstate : ((Json.obj members).get "state").str? >>= stateOf = some record.state := by
    rw [hstr "state" (text record.state.value) (by simp [InstanceRecord.members])]
    exact stateOf_join _
  unfold readRecord
  simp only [if_pos hfields, hdesired, hstate,
    hstr "instance_id" record.instanceId (by simp [InstanceRecord.members]),
    hstr "profile_name" record.profileName (by simp [InstanceRecord.members]),
    hstr "profile_fingerprint" record.profileFingerprint (by simp [InstanceRecord.members]),
    hint "process_generation" record.processGeneration (by simp [InstanceRecord.members]),
    hbool "process_ready" record.processReady (by simp [InstanceRecord.members]),
    hbool "model_ready" record.modelReady (by simp [InstanceRecord.members]),
    hbool "accepting" record.accepting (by simp [InstanceRecord.members]),
    hoptional "transition_owner" record.transitionOwner (by simp [InstanceRecord.members]),
    hint "transition_fence" record.transitionFence (by simp [InstanceRecord.members]),
    hfloat "transition_expires_at" record.transitionExpiresAt (by simp [InstanceRecord.members]),
    hfloat "observed_at" record.observedAt (by simp [InstanceRecord.members]),
    hoptional "last_error" record.lastError (by simp [InstanceRecord.members]),
    Option.bind_eq_bind, Option.bind_some]
  rw [if_neg]
  · rfl
  · rw [not_or]
    exact ⟨not_not_intro hkey, not_lt.mpr hfence⟩

/-- The records stand under their own ids, which a file gives back. -/
structure Keyed (records : Records) : Prop where
  nodup : (records.map (·.1)).Nodup
  joined : ∀ e ∈ records, join e.1 = e.1
  named : ∀ e ∈ records, e.2.instanceId = e.1
  fences : ∀ e ∈ records, 0 ≤ e.2.transitionFence

variable {records : Records}

theorem Keyed.set (h : Keyed records) (record : InstanceRecord)
    (hjoined : join record.instanceId = record.instanceId) (hfence : 0 ≤ record.transitionFence) :
    Keyed (records.set record.instanceId record) := by
  have hmem : ∀ e ∈ records.set record.instanceId record,
      e ∈ records ∨ e = (record.instanceId, record) := by
    intro e he
    unfold PyDict.set at he
    split at he
    · obtain ⟨e', he', rfl⟩ := mem_map.mp he
      split
      · exact Or.inr rfl
      · exact Or.inl he'
    · rcases mem_append.mp he with he | he
      · exact Or.inl he
      · exact Or.inr (mem_singleton.mp he)
  refine ⟨PyDict.nodup_set h.nodup _ _, fun e he => ?_, fun e he => ?_, fun e he => ?_⟩
  · rcases hmem e he with he | rfl
    · exact h.joined e he
    · exact hjoined
  · rcases hmem e he with he | rfl
    · exact h.named e he
    · rfl
  · rcases hmem e he with he | rfl
    · exact h.fences e he
    · exact hfence

/-- The loop over records that can all be read. -/
theorem readRecords_eq_some (members : List (PyStr × Json ℚ))
    (h : ∀ m ∈ members, ∃ record, readRecord m.1 m.2 = some record) :
    ∃ records, readRecords members = some records ∧ records.map (·.1) = members.map (·.1) ∧
      ∀ id, PyDict.get? records id = (PyDict.get? members id).bind (readRecord id) := by
  induction members with
  | nil => exact ⟨[], rfl, rfl, fun _ => rfl⟩
  | cons m members ih =>
    obtain ⟨key, raw⟩ := m
    rw [forall_mem_cons] at h
    obtain ⟨record, hrecord⟩ := h.1
    obtain ⟨records, hrecords, hkeys, hget⟩ := ih h.2
    refine ⟨(key, record) :: records, ?_, by simp [hkeys], fun id => ?_⟩
    · unfold readRecords
      simp only at hrecord
      rw [hrecord, hrecords]
    · rw [get?_cons, get?_cons, hget]
      by_cases hid : key = id
      · subst hid
        rw [if_pos rfl, if_pos rfl]
        exact hrecord.symm
      · rw [if_neg hid, if_neg hid]

/-- **A document is read back**, up to the joined texts. -/
theorem readDocument_stateDocument {value : Json ℚ} (hkeyed : Keyed records)
    (h : reread (stateDocument records) = some value) :
    ∃ read, readDocument value = some read ∧ Keyed read ∧
      ∀ id, PyDict.get? read id = (PyDict.get? records id).map InstanceRecord.rejoined := by
  have hget := reread_get [text "schema_version", text "records"] rfl (by decide) (by decide) h
  have hschema := eq_of_reread_str (hget _ _ mem_cons_self)
  have hrecords := hget _ _ (mem_cons_of_mem _ mem_cons_self)
  have hkeys : ((sortedRecords records).map fun e => (e.1, Json.obj e.2.members)).map (·.1) =
      (sortedRecords records).map (·.1) := by
    rw [map_map]
    rfl
  have hsorted := (sortedRecords_perm records).map (·.1)
  have hnodup : ((sortedRecords records).map (·.1)).Nodup := hsorted.nodup_iff.mpr hkeyed.nodup
  have hjoin : ∀ key ∈ (sortedRecords records).map (·.1), join key = key := by
    intro key hkey
    obtain ⟨e, he, rfl⟩ := mem_map.mp (hsorted.subset hkey)
    exact hkeyed.joined e he
  obtain ⟨members, hmembers, hperm, -, hlookup⟩ :=
    get?_reread (hkeys ▸ hnodup) (hkeys ▸ hjoin) hrecords
  rw [hkeys] at hperm
  have hperm := hperm.trans hsorted
  -- A lookup in the document is a lookup in the records.
  have hfound : ∀ id, get? members id =
      (get? records id).bind fun record => reread (.obj record.members) := by
    intro id
    rw [hlookup, get?_mapValues fun record : InstanceRecord => Json.obj record.members,
      get?_of_perm (sortedRecords_perm records) hnodup, Option.bind_map, Function.comp_def]
  have hrejoined : ∀ id record v, get? records id = some record →
      reread (.obj record.members) = some v → readRecord id v = some record.rejoined := by
    intro id record v hrecord hv
    have hmem := mem_of_get? hrecord
    refine readRecord_members hv ?_ (hkeyed.fences _ hmem)
    rw [hkeyed.named _ hmem]
    exact hkeyed.joined _ hmem
  obtain ⟨read, hread, hreadKeys, hreadGet⟩ := readRecords_eq_some members (by
    intro m hm
    have hmem := hperm.subset (mem_map_of_mem hm)
    obtain ⟨record, hrecord⟩ := Option.isSome_iff_exists.mp (get?_isSome.mpr hmem)
    have hm' := get?_eq_some_of_mem (hperm.nodup_iff.mpr hkeyed.nodup) hm
    rw [hfound, hrecord, Option.bind_some] at hm'
    exact ⟨_, hrejoined _ _ _ hrecord hm'⟩)
  have hvalues : ∀ id, get? read id =
      (get? records id).map InstanceRecord.rejoined := by
    intro id
    rw [hreadGet, hfound]
    cases hrecord : get? records id with
    | none => rfl
    | some record =>
      have hsome : (get? members id).isSome = true := by
        rw [get?_isSome]
        exact hperm.symm.subset (get?_isSome.mp (by rw [hrecord]; rfl))
      rw [hfound, hrecord, Option.bind_some] at hsome
      obtain ⟨v, hv⟩ := Option.isSome_iff_exists.mp hsome
      rw [Option.bind_some, hv, Option.bind_some, Option.map_some]
      exact hrejoined id record v hrecord hv
  have hreadPerm : (read.map (·.1)).Perm (records.map (·.1)) := hreadKeys ▸ hperm
  have hreadNodup := hreadPerm.nodup_iff.mpr hkeyed.nodup
  have hsource : ∀ e ∈ read, ∃ record, (e.1, record) ∈ records ∧ e.2 = record.rejoined := by
    intro e he
    have hvalue := get?_eq_some_of_mem hreadNodup he
    rw [hvalues] at hvalue
    obtain ⟨record, hrecord, heq⟩ := Option.map_eq_some_iff.mp hvalue
    exact ⟨record, mem_of_get? hrecord, heq.symm⟩
  refine ⟨read, ?_, ⟨hreadNodup, ?_, ?_, ?_⟩, hvalues⟩
  · unfold readDocument
    rw [hschema, hmembers]
    exact (if_pos (by decide)).trans hread
  · intro e he
    obtain ⟨record, hmem, -⟩ := hsource e he
    exact hkeyed.joined (e.1, record) hmem
  · intro e he
    obtain ⟨record, hmem, heq⟩ := hsource e he
    rw [heq]
    show join record.instanceId = e.1
    rw [hkeyed.named _ hmem]
    exact hkeyed.joined _ hmem
  · intro e he
    obtain ⟨record, hmem, heq⟩ := hsource e he
    rw [heq]
    exact hkeyed.fences _ hmem

end GpuManager.Runtime
