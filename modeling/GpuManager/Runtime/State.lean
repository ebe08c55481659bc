import Mathlib.Data.Rat.Defs
import Mathlib.Algebra.Order.Ring.Rat
import GpuManager.Lib.Json
import GpuManager.Lib.PyDict

/-!
# Checked runtime-instance state

`RuntimeStateStore` of `runtime_state.py`: the record of each runtime instance, which is changed
by the holder of a fenced transition lease.  Each method is one critical section, so a call is a
function of the records.  The checks of a profile and its digest are parameters
(`Contracts`); an observation is checked here, against the profile that it names.

A call that raises changes nothing.  What the others do is said once for each of them, in the
`_ok` lemmas; nothing later unfolds a method.
-/

namespace GpuManager.Runtime

open PyStr Option

/-- `RuntimeControlState`. -/
inductive ControlState where
  | unknown
  | stopped
  | transitioning
  | ready
  | degraded
  | blocked
  deriving DecidableEq

def ControlState.value : ControlState → String
  | unknown => "unknown"
  | stopped => "stopped"
  | transitioning => "transitioning"
  | ready => "ready"
  | degraded => "degraded"
  | blocked => "blocked"

/-- `RuntimeDesiredState`. -/
inductive DesiredState where
  | stopped
  | ready
  deriving DecidableEq

def DesiredState.value : DesiredState → String
  | stopped => "stopped"
  | ready => "ready"

/-- `RuntimeTransitionLease`. -/
structure TransitionLease where
  instanceId : PyStr
  owner : PyStr
  fence : ℤ
  expiresAt : ℚ
  deriving DecidableEq

/-- `RuntimeInstanceRecord`. -/
structure InstanceRecord where
  instanceId : PyStr
  profileName : PyStr
  profileFingerprint : PyStr
  desiredState : DesiredState := .stopped
  state : ControlState := .unknown
  processGeneration : ℤ := 0
  processReady : Bool := false
  modelReady : Bool := false
  accepting : Bool := false
  transitionOwner : Option PyStr := none
  transitionFence : ℤ := 0
  transitionExpiresAt : ℚ := 0
  observedAt : ℚ := 0
  lastError : Option PyStr := none
  deriving DecidableEq

/-- `_records`. -/
abbrev Records := PyDict PyStr InstanceRecord

/-- `RuntimeStateError`, its subclass `RuntimeConflict`, or an exception of a built-in. -/
inductive StateError where
  | state (message : PyStr)
  | conflict (message : PyStr)
  | python
  deriving DecidableEq

/-- The checks of `validate_runtime_profile` on the profile itself, the SHA-256 digest of its
encoding (which raises for a profile that cannot be encoded), `str` of a value that is no string,
and `==`. -/
structure Contracts where
  bodyErrors : Json ℚ → List PyStr
  digest : Json ℚ → Option (List (Fin 16))
  str : Json ℚ → PyStr
  equal : Json ℚ → Json ℚ → Bool

/-- `validate_runtime_profile`. -/
def Contracts.profileErrors (c : Contracts) (name : PyStr) (profile : Json ℚ) : List PyStr :=
  (if isId name = true then []
    else [text "name must contain only letters, digits, '.', '_' or '-'"]) ++ c.bodyErrors profile

/-- `runtime_profile_fingerprint`. -/
def Contracts.fingerprint (c : Contracts) (profile : Json ℚ) : Option PyStr :=
  (c.digest profile).map hexdigest

/-- `"; ".join(errors)`. -/
def joined (errors : List PyStr) : PyStr := (errors.intersperse (text "; ")).flatten

/-- `_desired`. -/
def desired (value : PyStr) : Except StateError DesiredState :=
  if value = text DesiredState.stopped.value then .ok .stopped
  else if value = text DesiredState.ready.value then .ok .ready
  else .error (.state (text "unsupported desired runtime state: " ++ quoted value))

/-- `bool(value)`. -/
def truthy : Json ℚ → Bool
  | .null => false
  | .bool b => b
  | .int n => n ≠ 0
  | .float x => x ≠ 0
  | .str s => !s.isEmpty
  | .arr items => !items.isEmpty
  | .obj members => !members.isEmpty

def bool? : Json ℚ → Option Bool
  | .bool b => some b
  | _ => none

/-- `isinstance(value, int)` for a value that is no `bool`. -/
def int? : Json ℚ → Option ℤ
  | .int n => some n
  | _ => none

/-- `_STATES`, sorted. -/
def observationStates : List String := ["draining", "faulted", "loading", "ready", "stopped"]

/-- `validate_runtime_observation`; `none` when it raises. -/
def observationErrors (c : Contracts) (profileName : PyStr) (profile observation : Json ℚ) :
    Option (List PyStr) := do
  let fingerprint ← c.fingerprint profile
  let state := observation.get "state"
  if state.hashable = false then none
  let when := fun (p : Bool) (message : String) => if p then [text message] else []
  return c.profileErrors profileName profile ++
    when ((observation.get "profile_name").str? ≠ some profileName)
      "observation.profile_name does not match selected profile" ++
    when ((observation.get "profile_fingerprint").str? ≠ some fingerprint)
      "observation.profile_fingerprint does not match selected profile" ++
    when (observationStates.all fun s => state.str? ≠ some (text s))
      "observation.state must be one of ['draining', 'faulted', 'loading', 'ready', 'stopped']" ++
    when (match int? (observation.get "process_generation") with
        | some generation => generation < 1
        | none => true)
      "observation.process_generation must be a positive integer" ++
    ["process_ready", "model_ready", "accepting"].flatMap (fun field =>
      when (bool? (observation.get field) = none)
        ("observation." ++ field ++ " must be boolean")) ++
    when (state.str? = some (text "ready") &&
        !(truthy (observation.get "process_ready") && truthy (observation.get "model_ready")))
      "ready observation requires process_ready and model_ready" ++
    when (!(profile.get "model_set").isNull &&
        !c.equal (observation.get "model_set") (profile.get "model_set"))
      "observation.model_set does not match selected profile"

/-- `_state_for_observation`. -/
def stateForObservation (observation : Json ℚ) : ControlState :=
  match (observation.get "state").str? with
  | some state =>
    if state = text "ready" then .ready
    else if state = text "stopped" then .stopped
    else if state = text "loading" ∨ state = text "draining" then .transitioning
    else if state = text "faulted" then .blocked
    else .unknown
  | none => .unknown

/-- A transition of the record is owned, and its lease is live. -/
def InstanceRecord.Live (record : InstanceRecord) (now : ℚ) : Prop :=
  (∃ owner ∈ record.transitionOwner, owner ≠ []) ∧ record.transitionExpiresAt > now

instance (record : InstanceRecord) (now : ℚ) : Decidable (record.Live now) := by
  unfold InstanceRecord.Live
  infer_instance

/-- What `_require_owner` lets pass. -/
structure Owned (record : InstanceRecord) (lease : TransitionLease) (now : ℚ) : Prop where
  owner : record.transitionOwner = some lease.owner
  fence : record.transitionFence = lease.fence
  named : lease.owner ≠ []
  live : now < record.transitionExpiresAt

instance (record : InstanceRecord) (lease : TransitionLease) (now : ℚ) :
    Decidable (Owned record lease now) :=
  decidable_of_iff (record.transitionOwner = some lease.owner ∧
      record.transitionFence = lease.fence ∧ lease.owner ≠ [] ∧ now < record.transitionExpiresAt)
    ⟨fun ⟨howner, hfence, hnamed, hlive⟩ => ⟨howner, hfence, hnamed, hlive⟩,
      fun h => ⟨h.owner, h.fence, h.named, h.live⟩⟩

/-- `_require_owner`. -/
def requireOwner (record : InstanceRecord) (lease : TransitionLease) (now : ℚ) :
    Except StateError Unit :=
  if lease.instanceId ≠ record.instanceId then
    .error (.state (text "lease instance does not match runtime record"))
  else if Owned record lease now then .ok ()
  else .error (.conflict (text "runtime transition lease is stale or expired"))

/-! ## The methods -/

/-- The profile of the record is the one of the call. -/
def InstanceRecord.SameProfile (record : InstanceRecord) (profileName fingerprint : PyStr) : Prop :=
  record.profileName = profileName ∧ record.profileFingerprint = fingerprint

instance (record : InstanceRecord) (profileName fingerprint : PyStr) :
    Decidable (record.SameProfile profileName fingerprint) := by
  unfold InstanceRecord.SameProfile
  infer_instance

def InstanceRecord.registered (current : InstanceRecord) (profileName fingerprint : PyStr)
    (now : ℚ) : InstanceRecord :=
  { current with
    profileName := profileName
    profileFingerprint := fingerprint
    state := if current.SameProfile profileName fingerprint then current.state else .unknown
    processReady :=
      if current.SameProfile profileName fingerprint then current.processReady else false
    modelReady := if current.SameProfile profileName fingerprint then current.modelReady else false
    accepting := if current.SameProfile profileName fingerprint then current.accepting else false
    observedAt := now }

/-- `register`. -/
def register (c : Contracts) (instanceId profileName : PyStr) (profile : Json ℚ) (now : ℚ)
    (records : Records) : Except StateError (InstanceRecord × Records) :=
  let errors := c.profileErrors profileName profile
  if errors ≠ [] then .error (.state (text "invalid runtime profile: " ++ joined errors))
  else if blank instanceId = true then .error (.state (text "instance_id must be non-empty"))
  else
    match c.fingerprint profile with
    | none => .error .python
    | some fingerprint =>
      match records.get? instanceId with
      | some current =>
        if current.Live now then
          .error (.conflict (text "cannot replace a runtime during a live transition"))
        else if current.state = .ready ∧ ¬ current.SameProfile profileName fingerprint then
          .error (.conflict (text "cannot replace an admitted runtime profile"))
        else
          let record := current.registered profileName fingerprint now
          .ok (record, records.set instanceId record)
      | none =>
        let record : InstanceRecord :=
          { instanceId := instanceId
            profileName := profileName
            profileFingerprint := fingerprint
            observedAt := now }
        .ok (record, records.set instanceId record)

def InstanceRecord.begun (current : InstanceRecord) (profileName fingerprint owner : PyStr)
    (desiredState : DesiredState) (ttlSeconds now : ℚ) : InstanceRecord :=
  { current with
    profileName := profileName
    profileFingerprint := fingerprint
    desiredState := desiredState
    state := .transitioning
    processReady := false
    modelReady := false
    accepting := false
    transitionOwner := some owner
    transitionFence := current.transitionFence + 1
    transitionExpiresAt := now + max (1 / 10) ttlSeconds
    lastError := none
    observedAt := now }

def InstanceRecord.lease (record : InstanceRecord) (instanceId owner : PyStr) : TransitionLease :=
  { instanceId := instanceId
    owner := owner
    fence := record.transitionFence
    expiresAt := record.transitionExpiresAt }

/-- `begin_transition`. -/
def beginTransition (c : Contracts) (instanceId profileName : PyStr) (profile : Json ℚ)
    (owner desiredState : PyStr) (ttlSeconds now : ℚ) (records : Records) :
    Except StateError ((InstanceRecord × TransitionLease) × Records) :=
  let errors := c.profileErrors profileName profile
  if errors ≠ [] then .error (.state (text "invalid runtime profile: " ++ joined errors))
  else if blank owner = true then .error (.state (text "transition owner must be non-empty"))
  else
    match desired desiredState, c.fingerprint profile with
    | .error e, _ => .error e
    | .ok _, none => .error .python
    | .ok state, some fingerprint =>
      let current := (records.get? instanceId).getD
        { instanceId := instanceId
          profileName := profileName
          profileFingerprint := fingerprint
          observedAt := now }
      if current.Live now then .error (.conflict (text "runtime transition already owned"))
      else
        let record := current.begun profileName fingerprint owner state ttlSeconds now
        .ok ((record, record.lease instanceId owner), records.set instanceId record)

/-- The record that `renew` writes. -/
def InstanceRecord.renewed (record : InstanceRecord) (ttlSeconds now : ℚ) : InstanceRecord :=
  { record with
    transitionExpiresAt := now + max (1 / 10) ttlSeconds
    observedAt := now }

/-- `renew`. -/
def renew (lease : TransitionLease) (ttlSeconds now : ℚ) (records : Records) :
    Except StateError (TransitionLease × Records) :=
  match records.get? lease.instanceId with
  | none => .error (.conflict (text "runtime instance is missing"))
  | some record =>
    match requireOwner record lease now with
    | .error e => .error e
    | .ok _ =>
      .ok ({ lease with expiresAt := now + max (1 / 10) ttlSeconds },
        records.set lease.instanceId (record.renewed ttlSeconds now))

def InstanceRecord.failed (record : InstanceRecord) (error : PyStr) (now : ℚ) : InstanceRecord :=
  { record with
    state := .blocked
    processReady := false
    modelReady := false
    accepting := false
    transitionOwner := none
    transitionExpiresAt := 0
    observedAt := now
    lastError := some (if error = [] then text "runtime transition failed" else error.take 1000) }

/-- `fail_transition`. -/
def failTransition (lease : TransitionLease) (error : PyStr) (now : ℚ) (records : Records) :
    Except StateError (InstanceRecord × Records) :=
  match records.get? lease.instanceId with
  | none => .error (.conflict (text "runtime instance is missing"))
  | some record =>
    match requireOwner record lease now with
    | .error e => .error e
    | .ok _ => .ok (record.failed error now, records.set lease.instanceId (record.failed error now))

/-- The transition of a record is over in this state. -/
def ControlState.Final (state : ControlState) : Prop := state = .ready ∨ state = .stopped

instance (state : ControlState) : Decidable state.Final := by
  unfold ControlState.Final
  infer_instance

/-- The record that an observation makes, with the generation that is stored. -/
def InstanceRecord.observed (record : InstanceRecord) (observation : Json ℚ) (generation : ℤ)
    (now : ℚ) : InstanceRecord :=
  let state := stateForObservation observation
  { record with
    state := state
    processGeneration := generation
    processReady := truthy (observation.get "process_ready")
    modelReady := truthy (observation.get "model_ready")
    accepting := truthy (observation.get "accepting")
    transitionOwner := if state.Final then none else record.transitionOwner
    transitionExpiresAt := if state.Final then 0 else record.transitionExpiresAt
    observedAt := now
    lastError := if state ≠ .blocked then none else some (text "adapter reported faulted") }

/-- The generation that `publish_observation` stores: an older one only for a stopped process, and
then the last one is kept. -/
def storedGeneration (record : InstanceRecord) (observation : Json ℚ) (generation : ℤ) :
    Except StateError ℤ :=
  if generation < record.processGeneration then
    if (observation.get "state").str? = some (text "stopped") then .ok record.processGeneration
    else .error (.conflict (text "runtime observation is from an older process generation"))
  else .ok generation

/-- `publish_observation`. -/
def publishObservation (c : Contracts) (lease : TransitionLease) (profile observation : Json ℚ)
    (now : ℚ) (records : Records) : Except StateError (InstanceRecord × Records) :=
  let name := observation.get "profile_name"
  match observationErrors c (name.str?.getD (c.str name)) profile observation with
  | none => .error .python
  | some errors =>
    if errors ≠ [] then .error (.state (text "invalid runtime observation: " ++ joined errors))
    else
      match records.get? lease.instanceId with
      | none => .error (.state (text "runtime instance is missing"))
      | some record =>
        match requireOwner record lease now with
        | .error e => .error e
        | .ok _ =>
          if name.str? ≠ some record.profileName ∨
              c.fingerprint profile ≠ some record.profileFingerprint then
            .error (.state (text "observation profile does not match transition profile"))
          else
            match storedGeneration record observation
              ((int? (observation.get "process_generation")).getD 0) with
            | .error e => .error e
            | .ok generation =>
              let state := stateForObservation observation
              let next := record.observed observation generation now
              if state = .ready ∧ record.desiredState ≠ .ready then
                .error (.state (text "ready observation contradicts desired stopped state"))
              else if state = .ready ∧ ¬ (next.processReady = true ∧
                  next.modelReady = true ∧ next.accepting = true) then
                .error (.state (text "ready observation is not accepting"))
              else .ok (next, records.set lease.instanceId next)

/-- `admission_errors`; `none` when the fingerprint of the profile raises. -/
def admissionErrors (c : Contracts) (instanceId profileName : PyStr) (profile : Json ℚ) (now : ℚ)
    (records : Records) : Option (List PyStr) :=
  let errors := c.profileErrors profileName profile
  let when := fun (p : Bool) (message : String) => if p then [text message] else []
  match records.get? instanceId with
  | none => some (text "runtime instance is not registered" :: errors)
  | some record => do
      let fingerprint ← c.fingerprint profile
      return errors ++
        when (record.profileName ≠ profileName) "runtime profile name does not match instance" ++
        when (record.profileFingerprint ≠ fingerprint)
          "runtime profile fingerprint does not match instance" ++
        when (record.state ≠ .ready) ("runtime state is " ++ record.state.value) ++
        when (record.desiredState ≠ .ready)
          ("runtime desired state is " ++ record.desiredState.value) ++
        when (!record.processReady) "process is not ready" ++
        when (!record.modelReady) "model is not ready" ++
        when (!record.accepting) "runtime is not accepting" ++
        when (record.processGeneration < 1) "process generation is unknown" ++
        when (record.Live now) "runtime transition is active"

/-! ## Calls -/

/-- A call of the store.  `now` is the time that the call is given or reads off its clock. -/
inductive StateCall where
  | register (instanceId profileName : PyStr) (profile : Json ℚ) (now : ℚ)
  | beginTransition (instanceId profileName : PyStr) (profile : Json ℚ) (owner desiredState : PyStr)
      (ttlSeconds now : ℚ)
  | renew (lease : TransitionLease) (ttlSeconds now : ℚ)
  | failTransition (lease : TransitionLease) (error : PyStr) (now : ℚ)
  | publishObservation (lease : TransitionLease) (profile observation : Json ℚ) (now : ℚ)

/-- What a call returns. -/
inductive Returned where
  | record (record : InstanceRecord)
  | begun (record : InstanceRecord) (lease : TransitionLease)
  | lease (lease : TransitionLease)
  deriving DecidableEq

/-- One call. -/
def change (c : Contracts) (call : StateCall) (records : Records) :
    Except StateError (Returned × Records) :=
  match call with
  | .register instanceId profileName profile now =>
    (register c instanceId profileName profile now records).map fun r => (.record r.1, r.2)
  | .beginTransition instanceId profileName profile owner desiredState ttlSeconds now =>
    (beginTransition c instanceId profileName profile owner desiredState ttlSeconds now
      records).map fun r => (.begun r.1.1 r.1.2, r.2)
  | .renew lease ttlSeconds now =>
    (renew lease ttlSeconds now records).map fun r => (.lease r.1, r.2)
  | .failTransition lease error now =>
    (failTransition lease error now records).map fun r => (.record r.1, r.2)
  | .publishObservation lease profile observation now =>
    (publishObservation c lease profile observation now records).map fun r => (.record r.1, r.2)

namespace StateCall

def instanceId : StateCall → PyStr
  | register instanceId _ _ _ => instanceId
  | beginTransition instanceId _ _ _ _ _ _ => instanceId
  | renew lease _ _ => lease.instanceId
  | failTransition lease _ _ => lease.instanceId
  | publishObservation lease _ _ _ => lease.instanceId

structure Publishes (c : Contracts) (lease : TransitionLease) (profile observation : Json ℚ)
    (now : ℚ) (record : InstanceRecord) : Prop where
  instance_eq : lease.instanceId = record.instanceId
  owned : Owned record lease now
  name : (observation.get "profile_name").str? = some record.profileName
  fingerprint : c.fingerprint profile = some record.profileFingerprint
  generation : (observation.get "state").str? ≠ some (text "stopped") →
    record.processGeneration ≤ (int? (observation.get "process_generation")).getD 0
  ready : stateForObservation observation = .ready → record.desiredState = .ready ∧
    truthy (observation.get "process_ready") = true ∧
    truthy (observation.get "model_ready") = true ∧ truthy (observation.get "accepting") = true

/-- The checks of a call pass. -/
def Admitted (c : Contracts) (records : Records) : StateCall → Prop
  | register instanceId profileName profile now =>
    c.profileErrors profileName profile = [] ∧ blank instanceId = false ∧
      ∃ fingerprint, c.fingerprint profile = some fingerprint ∧
        ∀ current ∈ records.get? instanceId, ¬ current.Live now ∧
          (current.state = .ready → current.SameProfile profileName fingerprint)
  | beginTransition instanceId profileName profile owner desiredState _ now =>
    c.profileErrors profileName profile = [] ∧ blank owner = false ∧
      (∃ state, desired desiredState = .ok state) ∧
      (∃ fingerprint, c.fingerprint profile = some fingerprint) ∧
      ∀ current ∈ records.get? instanceId, ¬ current.Live now
  | renew lease _ now | failTransition lease _ now =>
    ∃ record, records.get? lease.instanceId = some record ∧
      lease.instanceId = record.instanceId ∧ Owned record lease now
  | publishObservation lease profile observation now =>
    observationErrors c (((observation.get "profile_name").str?).getD
        (c.str (observation.get "profile_name"))) profile observation = some [] ∧
      ∃ record, records.get? lease.instanceId = some record ∧
        Publishes c lease profile observation now record

/-- The record that a call starts from: the stored one, or a new one for a call that has a
profile. -/
def current (c : Contracts) (records : Records) : StateCall → Option InstanceRecord
  | register instanceId profileName profile now
  | beginTransition instanceId profileName profile _ _ _ now =>
    some ((records.get? instanceId).getD
      { instanceId := instanceId
        profileName := profileName
        profileFingerprint := (c.fingerprint profile).getD []
        observedAt := now })
  | call => records.get? call.instanceId

/-- The record that an admitted call writes over the one it starts from. -/
def written (c : Contracts) (current : InstanceRecord) : StateCall → InstanceRecord
  | register _ profileName profile now =>
    current.registered profileName ((c.fingerprint profile).getD []) now
  | beginTransition _ profileName profile owner desiredState ttlSeconds now =>
    current.begun profileName ((c.fingerprint profile).getD []) owner
      (match desired desiredState with
        | .ok state => state
        | .error _ => .stopped) ttlSeconds now
  | renew _ ttlSeconds now => current.renewed ttlSeconds now
  | failTransition _ error now => current.failed error now
  | publishObservation _ _ observation now =>
    current.observed observation
      (max current.processGeneration ((int? (observation.get "process_generation")).getD 0)) now

/-- What an admitted call returns for the record that it writes. -/
def returned (record : InstanceRecord) : StateCall → Returned
  | beginTransition instanceId _ _ owner _ _ _ => .begun record (record.lease instanceId owner)
  | renew lease ttlSeconds now => .lease { lease with expiresAt := now + max (1 / 10) ttlSeconds }
  | _ => .record record

end StateCall

section Changes

variable {c : Contracts} {records : Records} {call : StateCall}

/-- A new record is registered as it is. -/
theorem registered_new (instanceId profileName fingerprint : PyStr) (now : ℚ) :
    InstanceRecord.registered
        { instanceId := instanceId
          profileName := profileName
          profileFingerprint := fingerprint
          observedAt := now } profileName fingerprint now =
      { instanceId := instanceId
        profileName := profileName
        profileFingerprint := fingerprint
        observedAt := now } := by
  have hsame : InstanceRecord.SameProfile
      { instanceId := instanceId
        profileName := profileName
        profileFingerprint := fingerprint
        observedAt := now } profileName fingerprint := ⟨rfl, rfl⟩
  unfold InstanceRecord.registered
  simp only [if_pos hsame]

/-- What `register` and `begin_transition` start from is the stored record, if there is one. -/
theorem StateCall.current_eq (call : StateCall) {record : InstanceRecord}
    (h : records.get? call.instanceId = some record) : call.current c records = some record := by
  cases call <;> simp_all [StateCall.current, StateCall.instanceId]

/-- `_require_owner` lets the owner of its record pass, and no one else. -/
theorem requireOwner_eq (record : InstanceRecord) (lease : TransitionLease) (now : ℚ) :
    (lease.instanceId = record.instanceId ∧ Owned record lease now ∧
        requireOwner record lease now = .ok ()) ∨
      (¬ (lease.instanceId = record.instanceId ∧ Owned record lease now) ∧
        ∃ e, requireOwner record lease now = .error e) := by
  unfold requireOwner
  by_cases hname : lease.instanceId = record.instanceId
  · rw [if_neg (not_not_intro hname)]
    by_cases howned : Owned record lease now
    · rw [if_pos howned]
      exact Or.inl ⟨hname, howned, rfl⟩
    · rw [if_neg howned]
      exact Or.inr ⟨fun h => howned h.2, _, rfl⟩
  · rw [if_pos hname]
    exact Or.inr ⟨fun h => hname h.1, _, rfl⟩

/-- An admitted call writes one record; any other call raises. -/
def Decides (c : Contracts) (call : StateCall) (records : Records) : Prop :=
  (call.Admitted c records ∧ ∃ current, call.current c records = some current ∧
      change c call records = .ok (call.returned (call.written c current),
        records.set call.instanceId (call.written c current))) ∨
    (¬ call.Admitted c records ∧ ∃ e, change c call records = .error e)

/-- The two calls that only `_require_owner` guards. -/
theorem decides_of_requireOwner {lease : TransitionLease} {now : ℚ}
    (hid : call.instanceId = lease.instanceId)
    (hadmitted : call.Admitted c records ↔ ∃ record, records.get? lease.instanceId = some record ∧
      lease.instanceId = record.instanceId ∧ Owned record lease now)
    (hmissing : records.get? lease.instanceId = none → ∃ e, change c call records = .error e)
    (hraises : ∀ record e, records.get? lease.instanceId = some record →
      requireOwner record lease now = .error e → change c call records = .error e)
    (hpasses : ∀ record, records.get? lease.instanceId = some record →
      requireOwner record lease now = .ok () →
      change c call records = .ok (call.returned (call.written c record),
        records.set call.instanceId (call.written c record))) :
    Decides c call records := by
  unfold Decides
  rw [hadmitted]
  cases hrecord : records.get? lease.instanceId with
  | none =>
    refine Or.inr ⟨?_, hmissing hrecord⟩
    rintro ⟨record, hsome, -⟩
    cases hsome
  | some record =>
    rcases requireOwner_eq record lease now with ⟨hname, howned, hpass⟩ | ⟨hnot, e, hraise⟩
    · exact Or.inl ⟨⟨record, rfl, hname, howned⟩, record,
        StateCall.current_eq call (hid ▸ hrecord), hpasses record hrecord hpass⟩
    refine Or.inr ⟨?_, e, hraises record e hrecord hraise⟩
    rintro ⟨record', hsome, h⟩
    obtain rfl := some.inj hsome
    exact hnot h

theorem renew_decides (lease : TransitionLease) (ttlSeconds now : ℚ) :
    Decides c (.renew lease ttlSeconds now) records := by
  refine decides_of_requireOwner rfl Iff.rfl
    (fun hrecord => ⟨.conflict (text "runtime instance is missing"), ?_⟩)
    (fun record e hrecord hraise => ?_) fun record hrecord hpass => ?_
  · simp only [change, renew, hrecord]
    rfl
  · simp only [change, renew, hrecord, hraise]
    rfl
  · simp only [change, renew, hrecord, hpass]
    rfl

theorem failTransition_decides (lease : TransitionLease) (error : PyStr) (now : ℚ) :
    Decides c (.failTransition lease error now) records := by
  refine decides_of_requireOwner rfl Iff.rfl
    (fun hrecord => ⟨.conflict (text "runtime instance is missing"), ?_⟩)
    (fun record e hrecord hraise => ?_) fun record hrecord hpass => ?_
  · simp only [change, failTransition, hrecord]
    rfl
  · simp only [change, failTransition, hrecord, hraise]
    rfl
  · simp only [change, failTransition, hrecord, hpass]
    rfl

/-- What the calls that have a profile start from. -/
theorem register_decides (instanceId profileName : PyStr) (profile : Json ℚ) (now : ℚ) :
    Decides c (.register instanceId profileName profile now) records := by
  unfold Decides change register
  simp only
  by_cases herrors : c.profileErrors profileName profile = []
  swap
  · rw [if_pos herrors]
    exact Or.inr ⟨fun h => herrors h.1, _, rfl⟩
  rw [if_neg (not_not_intro herrors)]
  by_cases hblank : blank instanceId = true
  · rw [if_pos hblank]
    refine Or.inr ⟨fun h => ?_, _, rfl⟩
    have hblank' : blank instanceId = false := h.2.1
    exact Bool.false_ne_true (hblank'.symm.trans hblank)
  rw [if_neg hblank]
  have hblank' : blank instanceId = false := by simpa using hblank
  cases hfingerprint : c.fingerprint profile with
  | none =>
    refine Or.inr ⟨fun h => ?_, _, rfl⟩
    obtain ⟨fingerprint, hsome, -⟩ := h.2.2
    rw [hfingerprint] at hsome
    cases hsome
  | some fingerprint =>
    have hadmitted : StateCall.Admitted c records (.register instanceId profileName profile now) ↔
        ∀ current ∈ records.get? instanceId, ¬ current.Live now ∧
          (current.state = .ready → current.SameProfile profileName fingerprint) := by
      refine ⟨fun h => ?_, fun h => ⟨herrors, hblank', fingerprint, hfingerprint, h⟩⟩
      obtain ⟨fingerprint', hsome, h⟩ := h.2.2
      rw [hfingerprint] at hsome
      obtain rfl := some.inj hsome
      exact h
    rw [hadmitted]
    cases hrecord : records.get? instanceId with
    | none =>
      refine Or.inl ⟨fun _ h => (by cases h), _,
        congrArg (fun r : Option InstanceRecord => some (r.getD _)) hrecord, ?_⟩
      simp only [getD_none, StateCall.written, hfingerprint, getD_some,
        registered_new]
      rfl
    | some current =>
      simp only
      by_cases hlive : current.Live now
      · rw [if_pos hlive]
        exact Or.inr ⟨fun h => (h current rfl).1 hlive, _, rfl⟩
      rw [if_neg hlive]
      by_cases hready : current.state = .ready ∧
          ¬ current.SameProfile profileName fingerprint
      · rw [if_pos hready]
        exact Or.inr ⟨fun h => hready.2 ((h current rfl).2 hready.1), _, rfl⟩
      rw [if_neg hready]
      refine Or.inl ⟨fun current' h => ?_, current,
        StateCall.current_eq (.register _ _ _ _) hrecord, ?_⟩
      · obtain rfl := some.inj h
        exact ⟨hlive, fun hstate => by_contra fun hnot => hready ⟨hstate, hnot⟩⟩
      · simp only [StateCall.written, hfingerprint, getD_some]
        rfl

/-- `begin_transition` writes the stored or a new record exactly if its checks pass. -/
theorem beginTransition_decides (instanceId profileName : PyStr) (profile : Json ℚ)
    (owner desiredState : PyStr) (ttlSeconds now : ℚ) :
    Decides c (.beginTransition instanceId profileName profile owner desiredState ttlSeconds now)
      records := by
  unfold Decides change beginTransition
  simp only
  by_cases herrors : c.profileErrors profileName profile = []
  swap
  · rw [if_pos herrors]
    exact Or.inr ⟨fun h => herrors h.1, _, rfl⟩
  rw [if_neg (not_not_intro herrors)]
  by_cases hblank : blank owner = true
  · rw [if_pos hblank]
    refine Or.inr ⟨fun h => ?_, _, rfl⟩
    have hblank' : blank owner = false := h.2.1
    exact Bool.false_ne_true (hblank'.symm.trans hblank)
  rw [if_neg hblank]
  have hblank' : blank owner = false := by simpa using hblank
  cases hdesired : desired desiredState with
  | error e =>
    refine Or.inr ⟨fun h => ?_, _, rfl⟩
    obtain ⟨state, hstate⟩ := h.2.2.1
    rw [hdesired] at hstate
    cases hstate
  | ok state =>
    cases hfingerprint : c.fingerprint profile with
    | none =>
      refine Or.inr ⟨fun h => ?_, _, rfl⟩
      obtain ⟨fingerprint, hsome⟩ := h.2.2.2.1
      rw [hfingerprint] at hsome
      cases hsome
    | some fingerprint =>
      have hcurrent : StateCall.current c records (.beginTransition instanceId profileName
          profile owner desiredState ttlSeconds now) =
            some ((records.get? instanceId).getD
              { instanceId := instanceId
                profileName := profileName
                profileFingerprint := fingerprint
                observedAt := now }) := by
        simp only [StateCall.current, hfingerprint, getD_some]
      simp only
      by_cases hlive : ((records.get? instanceId).getD
          { instanceId := instanceId
            profileName := profileName
            profileFingerprint := fingerprint
            observedAt := now }).Live now
      · rw [if_pos hlive]
        refine Or.inr ⟨fun h => ?_, _, rfl⟩
        cases hrecord : records.get? instanceId with
        | none =>
          rw [hrecord] at hlive
          obtain ⟨⟨owner', howner', -⟩, -⟩ := hlive
          cases howner'
        | some current =>
          rw [hrecord] at hlive
          exact h.2.2.2.2 current hrecord hlive
      · rw [if_neg hlive]
        refine Or.inl ⟨⟨herrors, hblank', ⟨state, hdesired⟩, ⟨fingerprint, hfingerprint⟩,
          fun current hsome => ?_⟩, _, hcurrent, ?_⟩
        · rw [mem_def.mp hsome] at hlive
          exact hlive
        · simp only [StateCall.written, hfingerprint, hdesired, getD_some]
          rfl

/-- The generation of an observation, if it is not an older one. -/
theorem storedGeneration_eq (record : InstanceRecord) (observation : Json ℚ) (generation : ℤ) :
    (((observation.get "state").str? ≠ some (text "stopped") →
        record.processGeneration ≤ generation) ∧
      storedGeneration record observation generation =
        .ok (max record.processGeneration generation)) ∨
      ¬ ((observation.get "state").str? ≠ some (text "stopped") →
        record.processGeneration ≤ generation) ∧
      ∃ e, storedGeneration record observation generation = .error e := by
  unfold storedGeneration
  by_cases holder : generation < record.processGeneration
  · rw [if_pos holder]
    by_cases hstopped : (observation.get "state").str? = some (text "stopped")
    · rw [if_pos hstopped, max_eq_left holder.le]
      exact Or.inl ⟨fun h => absurd hstopped h, rfl⟩
    · rw [if_neg hstopped]
      exact Or.inr ⟨fun h => not_le.mpr holder (h hstopped), _, rfl⟩
  · rw [if_neg holder, max_eq_right (not_lt.mp holder)]
    exact Or.inl ⟨fun _ => not_lt.mp holder, rfl⟩

/-- `publish_observation` writes the stored record exactly if its checks pass, and else raises. -/
theorem publishObservation_decides (lease : TransitionLease) (profile observation : Json ℚ)
    (now : ℚ) : Decides c (.publishObservation lease profile observation now) records := by
  unfold Decides change publishObservation
  simp only
  cases hchecked : observationErrors c (((observation.get "profile_name").str?).getD
      (c.str (observation.get "profile_name"))) profile observation with
  | none =>
    refine Or.inr ⟨fun h => ?_, _, rfl⟩
    have hnone := h.1
    rw [hchecked] at hnone
    cases hnone
  | some errors =>
    simp only
    by_cases herrors : errors = []
    swap
    · rw [if_pos herrors]
      refine Or.inr ⟨fun h => ?_, _, rfl⟩
      have hnil := h.1
      rw [hchecked] at hnil
      exact herrors (some.inj hnil)
    rw [if_neg (not_not_intro herrors)]
    subst herrors
    cases hrecord : records.get? lease.instanceId with
    | none =>
      refine Or.inr ⟨fun h => ?_, _, rfl⟩
      obtain ⟨record, hsome, -⟩ := h.2
      rw [hrecord] at hsome
      cases hsome
    | some record =>
      have hadmitted : StateCall.Admitted c records
          (.publishObservation lease profile observation now) ↔
            StateCall.Publishes c lease profile observation now record := by
        refine ⟨fun h => ?_, fun h => ⟨hchecked, record, hrecord, h⟩⟩
        obtain ⟨record', hsome, hpublishes⟩ := h.2
        rw [hrecord] at hsome
        exact some.inj hsome ▸ hpublishes
      rw [hadmitted]
      simp only
      rcases requireOwner_eq record lease now with ⟨hname, howned, hpass⟩ | ⟨hnot, e, hraise⟩
      swap
      · simp only [hraise]
        exact Or.inr ⟨fun h => hnot ⟨h.instance_eq, h.owned⟩, e, rfl⟩
      simp only [hpass]
      by_cases hprofile : (observation.get "profile_name").str? ≠ some record.profileName ∨
          c.fingerprint profile ≠ some record.profileFingerprint
      · rw [if_pos hprofile]
        refine Or.inr ⟨fun h => ?_, _, rfl⟩
        rcases hprofile with hne | hne
        · exact hne h.name
        · exact hne h.fingerprint
      rw [if_neg hprofile]
      rw [not_or, not_not, not_not] at hprofile
      rcases storedGeneration_eq record observation
        ((int? (observation.get "process_generation")).getD 0) with
          ⟨hgeneration, hstored⟩ | ⟨hnot, e, hraise⟩
      swap
      · simp only [hraise]
        exact Or.inr ⟨fun h => hnot h.generation, e, rfl⟩
      simp only [hstored]
      by_cases hdesired : stateForObservation observation = .ready ∧
          record.desiredState ≠ .ready
      · rw [if_pos hdesired]
        exact Or.inr ⟨fun h => hdesired.2 (h.ready hdesired.1).1, _, rfl⟩
      rw [if_neg hdesired]
      by_cases haccepting : stateForObservation observation = .ready ∧
          ¬ (truthy (observation.get "process_ready") = true ∧
            truthy (observation.get "model_ready") = true ∧
            truthy (observation.get "accepting") = true)
      · refine Or.inr ⟨fun h => haccepting.2 (h.ready haccepting.1).2, ?_⟩
        exact ⟨_, congrArg (Except.map _) (if_pos haccepting)⟩
      refine Or.inl ⟨⟨hname, howned, hprofile.1, hprofile.2, hgeneration, fun hready => ?_⟩,
        record, hrecord, congrArg (Except.map _) (if_neg haccepting)⟩
      exact ⟨by_contra fun hne => hdesired ⟨hready, hne⟩,
        by_contra fun hne => haccepting ⟨hready, hne⟩⟩

/-- **What a call does.** -/
theorem change_decides (c : Contracts) (call : StateCall) (records : Records) :
    Decides c call records := by
  cases call with
  | register instanceId profileName profile now => exact register_decides ..
  | beginTransition instanceId profileName profile owner desiredState ttlSeconds now =>
    exact beginTransition_decides ..
  | renew lease ttlSeconds now => exact renew_decides ..
  | failTransition lease error now => exact failTransition_decides ..
  | publishObservation lease profile observation now => exact publishObservation_decides ..

/-- A call that returns was admitted, and wrote one record. -/
theorem change_ok {answer : Returned} {next : Records}
    (h : change c call records = .ok (answer, next)) :
    call.Admitted c records ∧ ∃ current, call.current c records = some current ∧
      answer = call.returned (call.written c current) ∧
      next = records.set call.instanceId (call.written c current) := by
  rcases change_decides c call records with ⟨hadmitted, current, hcurrent, hok⟩ | ⟨-, e, herror⟩
  · rw [hok] at h
    obtain ⟨hanswer, hnext⟩ := Prod.mk.inj (Except.ok.inj h)
    exact ⟨hadmitted, current, hcurrent, hanswer.symm, hnext.symm⟩
  · rw [herror] at h
    cases h

end Changes

end GpuManager.Runtime
