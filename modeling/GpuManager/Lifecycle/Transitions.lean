import Mathlib.Data.Finset.Sort
import GpuManager.Lib.PythonText
import GpuManager.Lifecycle.Recovery

/-!
# Bundle transitions

The two bundle lifecycle stores of `bundle_lifecycle.py`: the in-memory one, a
dictionary of records under a lock, and the Redis one, a hash per bundle that is
written by scripts.  Each call is one critical section, so a call is a function of
the store; a `begin` of the Redis store reads its record back right after its script.

A transition is a **fenced lease**: `begin` increments the `generation_fence` of the
bundle and hands it out, and `renew` and `finish` act only for the lease whose owner,
fence and transition id are the stored ones.

The two stores differ in one thing that matters here.  A record of the in-memory
store stays for ever.  A hash of the Redis store is given a time to live by every
script that writes it, and the fence is a field of that hash.
-/

namespace GpuManager.Lifecycle

open PythonText Function

/-- `BundleLifecycleRecord`. -/
structure BundleLifecycleRecord where
  bundleName : String
  desiredState : DesiredState := .idle
  recovery : RecoveryState := {}
  generationFence : ℤ := 0
  transitionOwner : Option String := none
  transitionExpiresAt : ℚ := 0
  lastReason : String := ""
  lastError : Option String := none
  updatedAt : ℚ := 0
  deriving DecidableEq

/-- `BundleTransitionLease`. -/
structure BundleTransitionLease where
  bundleName : String
  owner : String
  generationFence : ℤ
  transitionId : ℤ
  expiresAt : ℚ
  deriving DecidableEq

/-- `TransitionAttempt`. -/
structure TransitionAttempt where
  acquired : Bool
  lease : Option BundleTransitionLease := none
  reason : String := ""
  record : Option BundleLifecycleRecord := none
  deriving DecidableEq

/-- `TransitionGroupAttempt`; a group lease is the tuple of its leases. -/
structure TransitionGroupAttempt where
  acquired : Bool
  lease : Option (List BundleTransitionLease) := none
  reason : String := ""
  deriving DecidableEq

/-- `_normalize_group_transitions`: names are stripped, blank ones dropped, the last
desired state of a name wins, and the result is sorted by name. -/
def normalizeGroupTransitions (transitions : List (String × DesiredState)) :
    List (String × DesiredState) :=
  let named := (transitions.map fun t => (strip t.1, t.2)).filter fun t => t.1 ≠ ""
  ((named.map Prod.fst).toFinset.sort (· ≤ ·)).filterMap fun name =>
    named.reverse.find? fun t => t.1 = name

/-! ## The in-memory store -/

namespace InMemory

/-- `_records`. -/
abbrev Records := String → Option BundleLifecycleRecord

def current (records : Records) (bundleName : String) (now : ℚ) : BundleLifecycleRecord :=
  (records bundleName).getD { bundleName := bundleName, updatedAt := now }

/-- A transition is in progress. -/
def InProgress (record : BundleLifecycleRecord) (now : ℚ) : Prop :=
  (nonempty record.transitionOwner).isSome ∧ record.transitionExpiresAt > now

instance (record : BundleLifecycleRecord) (now : ℚ) : Decidable (InProgress record now) := by
  unfold InProgress
  infer_instance

def begun (record : BundleLifecycleRecord) (desiredState : DesiredState) (owner : String)
    (now ttlSeconds : ℚ) (reason : String) : BundleLifecycleRecord :=
  { record with
    desiredState := desiredState
    recovery :=
      { record.recovery with
        phase := .recovering
        transitionId := record.recovery.transitionId + 1
        lastRestartAt := some now }
    generationFence := record.generationFence + 1
    transitionOwner := some owner
    transitionExpiresAt := now + ttlSeconds
    lastReason := reason
    lastError := none
    updatedAt := now }

/-- The lease of a record that has just been written. -/
def leaseOf (bundleName owner : String) (record : BundleLifecycleRecord) :
    BundleTransitionLease :=
  { bundleName := bundleName
    owner := owner
    generationFence := record.generationFence
    transitionId := record.recovery.transitionId
    expiresAt := record.transitionExpiresAt }

/-- `begin`. -/
def begin (bundleName : String) (desiredState : DesiredState) (owner : String)
    (now ttlSeconds : ℚ) (reason : String) (records : Records) : TransitionAttempt × Records :=
  if InProgress (current records bundleName now) now then
    ({ acquired := false
       reason := "transition_in_progress"
       record := some (current records bundleName now) }, records)
  else
    let next := begun (current records bundleName now) desiredState owner now ttlSeconds reason
    ({ acquired := true
       lease := some (leaseOf bundleName owner next)
       reason := "acquired"
       record := some next }, update records bundleName (some next))

/-- `begin_group`: the records are read before any is written. -/
def beginGroup (transitions : List (String × DesiredState)) (owner : String)
    (now ttlSeconds : ℚ) (reason : String) (records : Records) :
    TransitionGroupAttempt × Records :=
  let normalized := normalizeGroupTransitions transitions
  if normalized = [] then ({ acquired := false, reason := "empty_group" }, records)
  else if ∃ t ∈ normalized, InProgress (current records t.1 now) now then
    ({ acquired := false, reason := "transition_in_progress" }, records)
  else
    let next := fun t : String × DesiredState =>
      begun (current records t.1 now) t.2 owner now ttlSeconds reason
    ({ acquired := true
       lease := some (normalized.map fun t => leaseOf t.1 owner (next t))
       reason := "acquired" },
      normalized.foldl (fun written t => update written t.1 (some (next t))) records)

/-- The lease is the current one of the record, and it is live. -/
def Holds (lease : BundleTransitionLease) (record : BundleLifecycleRecord) (now : ℚ) : Prop :=
  record.transitionOwner = some lease.owner ∧
    record.generationFence = lease.generationFence ∧
    record.recovery.transitionId = lease.transitionId ∧ record.transitionExpiresAt > now

instance (lease : BundleTransitionLease) (record : BundleLifecycleRecord) (now : ℚ) :
    Decidable (Holds lease record now) := by
  unfold Holds
  infer_instance

/-- What a renewal and a finish do with a lease: nothing, unless it is current. -/
def forHolder (lease : BundleTransitionLease) (now : ℚ)
    (write : BundleLifecycleRecord → BundleLifecycleRecord) (records : Records) :
    Bool × Records :=
  match records lease.bundleName with
  | none => (false, records)
  | some record =>
    if Holds lease record now then
      (true, update records lease.bundleName (some (write record)))
    else (false, records)

/-- What they do with a group: nothing, unless every lease of it is current. -/
def forHolders (leases : List BundleTransitionLease) (now : ℚ)
    (write : BundleLifecycleRecord → BundleLifecycleRecord) (records : Records) :
    Bool × Records :=
  if ∀ lease ∈ leases, ∃ record ∈ records lease.bundleName, Holds lease record now then
    (true, (leases.filterMap fun lease => records lease.bundleName).foldl
      (fun written record => update written record.bundleName (some (write record)))
      records)
  else (false, records)

/-- The record a renewal writes. -/
def renewed (now ttlSeconds : ℚ) (record : BundleLifecycleRecord) : BundleLifecycleRecord :=
  { record with
    transitionExpiresAt := now + max (1 / 10) ttlSeconds
    updatedAt := now }

/-- `renew`. -/
def renew (lease : BundleTransitionLease) (now ttlSeconds : ℚ) (records : Records) :
    Bool × Records :=
  forHolder lease now (renewed now ttlSeconds) records

/-- `renew_group`. -/
def renewGroup (leases : List BundleTransitionLease) (now ttlSeconds : ℚ)
    (records : Records) : Bool × Records :=
  if leases = [] then (false, records)
  else forHolders leases now (renewed now ttlSeconds) records

/-- The record a finish writes. -/
def finished (success : Bool) (now : ℚ) (reason : String) (error : Option String)
    (defaultError : String) (record : BundleLifecycleRecord) : BundleLifecycleRecord :=
  { record with
    recovery :=
      { record.recovery with
        phase := if success then .ready else .crashed
        lastHealthyAt := if success then some now else record.recovery.lastHealthyAt }
    transitionOwner := none
    transitionExpiresAt := 0
    lastReason := if reason = "" then record.lastReason else reason
    lastError := if success then none else some ((nonempty error).getD defaultError)
    updatedAt := now }

/-- `finish`. -/
def finish (lease : BundleTransitionLease) (success : Bool) (now : ℚ) (reason : String)
    (error : Option String) (records : Records) : Bool × Records :=
  forHolder lease now (finished success now reason error "bundle transition failed") records

/-- `finish_group`; a group without leases is finished as it is. -/
def finishGroup (leases : List BundleTransitionLease) (success : Bool) (now : ℚ)
    (reason : String) (error : Option String) (records : Records) : Bool × Records :=
  forHolders leases now (finished success now reason error "bundle transition group failed")
    records

/-- `record_recovery`. -/
def recordRecovery (bundleName : String) (desiredState : DesiredState)
    (recovery : RecoveryState) (now : ℚ) (reason : String) (records : Records) :
    Bool × Records :=
  if InProgress (current records bundleName now) now then (false, records)
  else
    (true, update records bundleName (some
      { current records bundleName now with
        desiredState := desiredState
        recovery := recovery
        lastReason := reason
        updatedAt := now }))

end InMemory

/-! ## The Redis store -/

namespace Redis

/-- The hash of a bundle: the fields that are set, and when the key may expire.  Times
and numbers are written and read as such. -/
structure BundleHash where
  bundleName : Option String := none
  desiredState : Option DesiredState := none
  phase : Option RecoveryPhase := none
  transitionId : Option ℤ := none
  restartAttempts : Option ℤ := none
  retryWindowStartedAt : Option ℚ := none
  lastRestartAt : Option ℚ := none
  lastHealthyAt : Option ℚ := none
  generationFence : Option ℤ := none
  transitionOwner : Option String := none
  transitionExpiresAt : Option ℚ := none
  lastReason : Option String := none
  lastError : Option String := none
  updatedAt : Option ℚ := none
  deadline : ℚ := 0
  deriving DecidableEq

/-- The bundle keys under the prefix. -/
abbrev Hashes := String → Option BundleHash

/-- `HGETALL`, where a key that does not exist has no fields. -/
def fields (hashes : Hashes) (bundleName : String) : BundleHash :=
  (hashes bundleName).getD {}

/-- `int(ttl_seconds)`, which truncates towards zero. -/
def truncated (x : ℚ) : ℤ := if 0 ≤ x then ⌊x⌋ else ⌈x⌉

/-- `max(1, int(ttl_seconds) + 1)`. -/
def keyTtl (ttlSeconds : ℚ) : ℤ := max 1 (truncated ttlSeconds + 1)

def fromFields (bundleName : String) (h : BundleHash) : BundleLifecycleRecord :=
  { bundleName := h.bundleName.getD bundleName
    desiredState := h.desiredState.getD .idle
    recovery :=
      { phase := h.phase.getD .intentionallyOff
        transitionId := h.transitionId.getD 0
        restartAttempts := h.restartAttempts.getD 0
        retryWindowStartedAt := h.retryWindowStartedAt
        lastRestartAt := h.lastRestartAt
        lastHealthyAt := h.lastHealthyAt }
    generationFence := h.generationFence.getD 0
    transitionOwner := nonempty h.transitionOwner
    transitionExpiresAt := h.transitionExpiresAt.getD 0
    lastReason := h.lastReason.getD ""
    lastError := nonempty h.lastError
    updatedAt := h.updatedAt.getD 0 }

/-- A transition is in progress. -/
def InProgress (h : BundleHash) (now : ℚ) : Prop :=
  h.transitionOwner.getD "" ≠ "" ∧ h.transitionExpiresAt.getD 0 > now

instance (h : BundleHash) (now : ℚ) : Decidable (InProgress h now) := by
  unfold InProgress
  infer_instance

def begun (h : BundleHash) (bundleName : String) (desiredState : DesiredState)
    (owner : String) (now ttlSeconds : ℚ) (reason : String) : BundleHash :=
  { h with
    generationFence := some (h.generationFence.getD 0 + 1)
    transitionId := some (h.transitionId.getD 0 + 1)
    bundleName := some bundleName
    desiredState := some desiredState
    phase := some .recovering
    transitionOwner := some owner
    transitionExpiresAt := some (now + ttlSeconds)
    lastReason := some (slice 500 reason)
    lastError := some ""
    updatedAt := some now
    deadline := now + keyTtl ttlSeconds }

/-- `begin`: the script, then the record read back. -/
def begin (bundleName : String) (desiredState : DesiredState) (owner : String)
    (now ttlSeconds : ℚ) (reason : String) (hashes : Hashes) : TransitionAttempt × Hashes :=
  if InProgress (fields hashes bundleName) now then
    ({ acquired := false
       reason := "transition_in_progress"
       record := some (fromFields bundleName (fields hashes bundleName)) }, hashes)
  else
    let h := begun (fields hashes bundleName) bundleName desiredState owner now ttlSeconds reason
    ({ acquired := true
       lease := some
        { bundleName := bundleName
          owner := owner
          generationFence := h.generationFence.getD 0
          transitionId := h.transitionId.getD 0
          expiresAt := (fromFields bundleName h).transitionExpiresAt }
       reason := "acquired"
       record := some (fromFields bundleName h) }, update hashes bundleName (some h))

/-- The writing loop of `_BEGIN_GROUP_SCRIPT`: the leases it reports and the hashes. -/
def beginEach (owner : String) (now ttlSeconds : ℚ) (reason : String) :
    List (String × DesiredState) → Hashes → List BundleTransitionLease × Hashes
  | [], hashes => ([], hashes)
  | t :: ts, hashes =>
    let h := begun (fields hashes t.1) t.1 t.2 owner now ttlSeconds reason
    let rest := beginEach owner now ttlSeconds reason ts
      (update hashes t.1 (some h))
    ({ bundleName := t.1
       owner := owner
       generationFence := h.generationFence.getD 0
       transitionId := h.transitionId.getD 0
       expiresAt := now + ttlSeconds } :: rest.1, rest.2)

/-- `begin_group`. -/
def beginGroup (transitions : List (String × DesiredState)) (owner : String)
    (now ttlSeconds : ℚ) (reason : String) (hashes : Hashes) :
    TransitionGroupAttempt × Hashes :=
  let normalized := normalizeGroupTransitions transitions
  if normalized = [] then ({ acquired := false, reason := "empty_group" }, hashes)
  else if ∃ t ∈ normalized, InProgress (fields hashes t.1) now then
    ({ acquired := false, reason := "transition_in_progress" }, hashes)
  else
    let written := beginEach owner now ttlSeconds reason normalized hashes
    ({ acquired := true, lease := some written.1, reason := "acquired" }, written.2)

/-- The three-way match of the renew and finish scripts, for a live transition. -/
def Holds (owner : String) (lease : BundleTransitionLease) (h : BundleHash) (now : ℚ) : Prop :=
  h.transitionOwner.getD "" = owner ∧
    h.generationFence.getD (-1) = lease.generationFence ∧
    h.transitionId.getD (-1) = lease.transitionId ∧ h.transitionExpiresAt.getD 0 > now

instance (owner : String) (lease : BundleTransitionLease) (h : BundleHash) (now : ℚ) :
    Decidable (Holds owner lease h now) := by
  unfold Holds
  infer_instance

/-- A single-bundle script that acts for the holder of a lease. -/
def forHolder (lease : BundleTransitionLease) (now : ℚ) (write : BundleHash → BundleHash)
    (hashes : Hashes) : Bool × Hashes :=
  if Holds lease.owner lease (fields hashes lease.bundleName) now then
    (true, update hashes lease.bundleName
      (some (write (fields hashes lease.bundleName))))
  else (false, hashes)

/-- A group script that acts for the holder of every lease.  The owner is that of the
first lease. -/
def forHolders (leases : List BundleTransitionLease) (now : ℚ)
    (write : BundleHash → BundleHash) (hashes : Hashes) : Bool × Hashes :=
  match leases with
  | [] => (false, hashes)
  | first :: _ =>
    if ∀ lease ∈ leases, Holds first.owner lease (fields hashes lease.bundleName) now then
      (true, leases.foldl (fun written lease => update written lease.bundleName
        (some (write (fields written lease.bundleName)))) hashes)
    else (false, hashes)

def renewed (now ttlSeconds : ℚ) (h : BundleHash) : BundleHash :=
  { h with
    transitionExpiresAt := some (now + max (1 / 10) ttlSeconds)
    updatedAt := some now
    deadline := now + keyTtl ttlSeconds }

/-- `renew`. -/
def renew (lease : BundleTransitionLease) (now ttlSeconds : ℚ) (hashes : Hashes) :
    Bool × Hashes :=
  forHolder lease now (renewed now ttlSeconds) hashes

/-- `renew_group`. -/
def renewGroup (leases : List BundleTransitionLease) (now ttlSeconds : ℚ) (hashes : Hashes) :
    Bool × Hashes :=
  forHolders leases now (renewed now ttlSeconds) hashes

/-- What a finish writes over a hash. -/
def finished (success : Bool) (now : ℚ) (reason : String) (error : Option String)
    (h : BundleHash) : BundleHash :=
  let h' : BundleHash :=
    { h with
      phase := some (if success then .ready else .crashed)
      transitionOwner := some ""
      transitionExpiresAt := some 0
      lastReason := some (slice 500 reason)
      lastError := some (slice 1000 (error.getD ""))
      updatedAt := some now
      deadline := now + 3600 }
  if success then
    { h' with
      lastHealthyAt := some now
      lastRestartAt := none
      restartAttempts := some 0
      retryWindowStartedAt := none }
  else h'

/-- `finish`. -/
def finish (lease : BundleTransitionLease) (success : Bool) (now : ℚ) (reason : String)
    (error : Option String) (hashes : Hashes) : Bool × Hashes :=
  forHolder lease now (finished success now reason error) hashes

/-- `finish_group`. -/
def finishGroup (leases : List BundleTransitionLease) (success : Bool) (now : ℚ)
    (reason : String) (error : Option String) (hashes : Hashes) : Bool × Hashes :=
  forHolders leases now (finished success now reason error) hashes

/-- `record_recovery`. -/
def recordRecovery (bundleName : String) (desiredState : DesiredState)
    (recovery : RecoveryState) (now : ℚ) (reason : String) (hashes : Hashes) :
    Bool × Hashes :=
  if InProgress (fields hashes bundleName) now then (false, hashes)
  else
    (true, update hashes bundleName (some
      { fields hashes bundleName with
        bundleName := some bundleName
        desiredState := some desiredState
        phase := some recovery.phase
        transitionId := some recovery.transitionId
        restartAttempts := some recovery.restartAttempts
        retryWindowStartedAt := recovery.retryWindowStartedAt
        lastRestartAt := recovery.lastRestartAt
        lastHealthyAt := recovery.lastHealthyAt
        lastReason := some (slice 500 reason)
        updatedAt := some now
        deadline := now + 3600 }))

def expire (bundleName : String) (now : ℚ) (hashes : Hashes) : Hashes :=
  match hashes bundleName with
  | some h => if h.deadline ≤ now then update hashes bundleName none else hashes
  | none => hashes

end Redis

end GpuManager.Lifecycle
