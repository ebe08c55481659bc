import Mathlib.Data.Rat.Defs
import Mathlib.Data.String.Basic

/-!
# Closed data contracts of the combined broker

The enumerations and records of `gemma_broker/contracts.py`.  Records keep the
source's fields; a JSON object that the broker only carries around (a request
body, a result) is kept as its text.  Integers are `ℤ`, timestamps are exact
rationals, and `generationFence` is a natural number because the snapshot's own
constructor rejects everything else.

Redis stores a record as JSON text and reads the same record back; the text
layer is not represented here.
-/

namespace GpuManager.Broker

inductive MemberState where
  | offline | joining | readyAccepting | readyBusy | draining | unhealthy | faulted
  deriving DecidableEq

inductive JobState where
  | queued | claimed | accepted | inFlight | completed | failed | cancelled
  | outcomeUnknown
  deriving DecidableEq

inductive AttemptState where
  | reserved | forwarding | accepted | completed | failed | cancelled
  | outcomeUnknown
  deriving DecidableEq

inductive Priority where
  | interactive | normal | background
  deriving DecidableEq

namespace Priority

/-- `int(priority)`. -/
def toInt : Priority → ℤ
  | interactive => 0
  | normal => 10
  | background => 20

/-- The members of the enumeration in definition order, as `for priority in
Priority` visits them. -/
def all : List Priority := [interactive, normal, background]

end Priority

inductive ReasonCode where
  | memberConfigDisabled | memberIdleServiceNotConfigured
  | memberIdleServiceNotEffective | memberConflictingBundle | memberSystemdInactive
  | memberHttpUnready | memberPortDark | memberProbeTimeout
  | memberProbeDisconnected | memberUnhealthyResponse | memberModelNotResident
  | memberDispatcherUnregistered | memberDraining | memberUnhealthy | memberFaulted
  | memberNoCapacity | requestContextIncompatible | requestCapabilityIncompatible
  | redisStateUnknown | telemetryStale | reservationStateStale
  | preAcceptanceRequeue | postAcceptanceOutcomeUnknown | cancelledBeforeAcceptance
  | cancelledAfterAcceptance | cancelUnsafeAfterAcceptance | idempotencyKeyReused
  | migrationPelNotEmpty | baselineDrift | noEligibleMember | priorityInvalid
  | streamingNotSupported | crashEvidenceConflict
  deriving DecidableEq

/-- `ReasonCode.value`. -/
def ReasonCode.value : ReasonCode → String
  | memberConfigDisabled => "MEMBER_CONFIG_DISABLED"
  | memberIdleServiceNotConfigured => "MEMBER_IDLE_SERVICE_NOT_CONFIGURED"
  | memberIdleServiceNotEffective => "MEMBER_IDLE_SERVICE_NOT_EFFECTIVE"
  | memberConflictingBundle => "MEMBER_CONFLICTING_BUNDLE"
  | memberSystemdInactive => "MEMBER_SYSTEMD_INACTIVE"
  | memberHttpUnready => "MEMBER_HTTP_UNREADY"
  | memberPortDark => "MEMBER_PORT_DARK"
  | memberProbeTimeout => "MEMBER_PROBE_TIMEOUT"
  | memberProbeDisconnected => "MEMBER_PROBE_DISCONNECTED"
  | memberUnhealthyResponse => "MEMBER_UNHEALTHY_RESPONSE"
  | memberModelNotResident => "MEMBER_MODEL_NOT_RESIDENT"
  | memberDispatcherUnregistered => "MEMBER_DISPATCHER_UNREGISTERED"
  | memberDraining => "MEMBER_DRAINING"
  | memberUnhealthy => "MEMBER_UNHEALTHY"
  | memberFaulted => "MEMBER_FAULTED"
  | memberNoCapacity => "MEMBER_NO_CAPACITY"
  | requestContextIncompatible => "REQUEST_CONTEXT_INCOMPATIBLE"
  | requestCapabilityIncompatible => "REQUEST_CAPABILITY_INCOMPATIBLE"
  | redisStateUnknown => "REDIS_STATE_UNKNOWN"
  | telemetryStale => "TELEMETRY_STALE"
  | reservationStateStale => "RESERVATION_STATE_STALE"
  | preAcceptanceRequeue => "PRE_ACCEPTANCE_REQUEUE"
  | postAcceptanceOutcomeUnknown => "POST_ACCEPTANCE_OUTCOME_UNKNOWN"
  | cancelledBeforeAcceptance => "CANCELLED_BEFORE_ACCEPTANCE"
  | cancelledAfterAcceptance => "cancelled_after_acceptance"
  | cancelUnsafeAfterAcceptance => "CANCEL_UNSAFE_AFTER_ACCEPTANCE"
  | idempotencyKeyReused => "IDEMPOTENCY_KEY_REUSED"
  | migrationPelNotEmpty => "MIGRATION_PEL_NOT_EMPTY"
  | baselineDrift => "BASELINE_DRIFT"
  | noEligibleMember => "NO_ELIGIBLE_MEMBER"
  | priorityInvalid => "PRIORITY_INVALID"
  | streamingNotSupported => "STREAMING_NOT_SUPPORTED"
  | crashEvidenceConflict => "CRASH_EVIDENCE_CONFLICT"

/-- `MemberState.value`. -/
def MemberState.value : MemberState → String
  | offline => "offline"
  | joining => "joining"
  | readyAccepting => "ready_accepting"
  | readyBusy => "ready_busy"
  | draining => "draining"
  | unhealthy => "unhealthy"
  | faulted => "faulted"

/-- `JobState.value`. -/
def JobState.value : JobState → String
  | queued => "queued"
  | claimed => "claimed"
  | accepted => "accepted"
  | inFlight => "in_flight"
  | completed => "completed"
  | failed => "failed"
  | cancelled => "cancelled"
  | outcomeUnknown => "outcome_unknown"

/-- `AttemptState.value`. -/
def AttemptState.value : AttemptState → String
  | reserved => "reserved"
  | forwarding => "forwarding"
  | accepted => "accepted"
  | completed => "completed"
  | failed => "failed"
  | cancelled => "cancelled"
  | outcomeUnknown => "outcome_unknown"

namespace JobState

def IsTerminal (s : JobState) : Prop :=
  s = completed ∨ s = failed ∨ s = cancelled ∨ s = outcomeUnknown

def IsActive (s : JobState) : Prop := s = claimed ∨ s = accepted ∨ s = inFlight

instance (s : JobState) : Decidable s.IsTerminal :=
  inferInstanceAs (Decidable (_ ∨ _ ∨ _ ∨ _))

instance (s : JobState) : Decidable s.IsActive :=
  inferInstanceAs (Decidable (_ ∨ _ ∨ _))

/-- Every state is queued, active or terminal, and only one of them. -/
theorem trichotomy (s : JobState) : s = queued ∨ s.IsActive ∨ s.IsTerminal := by
  cases s <;> simp [IsActive, IsTerminal]

variable {s : JobState}

theorem IsActive.ne_queued (h : s.IsActive) : s ≠ queued := by
  rcases h with rfl | rfl | rfl <;> simp

theorem IsActive.not_isTerminal (h : s.IsActive) :
    ¬ s.IsTerminal := by
  rcases h with rfl | rfl | rfl <;> simp [IsTerminal]

theorem IsTerminal.ne_queued (h : s.IsTerminal) : s ≠ queued := by
  rcases h with rfl | rfl | rfl | rfl <;> simp

end JobState

/-- `_ALLOWED_MEMBER_TRANSITIONS`. -/
def allowedMemberTransitions : MemberState → List MemberState
  | .offline => [.joining]
  | .joining => [.readyAccepting, .draining, .unhealthy, .faulted, .offline]
  | .readyAccepting => [.readyBusy, .draining, .unhealthy, .faulted]
  | .readyBusy => [.readyAccepting, .draining, .unhealthy, .faulted]
  | .draining => [.offline, .faulted]
  | .unhealthy => [.joining, .draining, .offline, .faulted]
  | .faulted => [.joining, .offline]

/-- `MemberSnapshot`. -/
structure MemberSnapshot where
  name : String
  gpuId : Option String := none
  state : MemberState
  accepting : Bool
  configuredSlots : ℤ
  contextPerSlot : ℤ
  stateVersion : ℤ
  observedAt : ℚ
  generationFence : ℕ := 0
  backendSlotsTotal : Option ℤ := none
  backendSlotsBusy : Option ℤ := none
  dispatcherLeases : ℤ := 0
  drainDisabledSlots : ℤ := 0
  compatibleFreeSlots : Option ℤ := none
  capabilities : List String := []
  idleServiceConfigured : Option String := none
  idleServiceEffective : Option Bool := none
  systemdActive : Bool := false
  mainPid : Option ℤ := none
  semanticHealth : Bool := false
  modelResident : Option Bool := none
  dispatcherRegistered : Bool := false
  snapshotAgeMs : ℤ := 0
  blockers : List String := []
  reasonCodes : List ReasonCode := []
  deriving DecidableEq

/-- `AttemptRecord`. -/
structure AttemptRecord where
  attemptId : String
  jobId : String
  memberName : String
  reservationFence : ℤ
  backendUrl : String
  state : AttemptState
  reservedAt : ℚ
  forwardStartedAt : Option ℚ := none
  acceptedAt : Option ℚ := none
  terminalAt : Option ℚ := none
  acceptedBoundaryCrossed : Bool := false
  errorCategory : Option ReasonCode := none
  transitionHistory : List String := ["reserved"]
  schemaVersion : ℤ := 1
  deriving DecidableEq

/-- `JobRecord`. -/
structure JobRecord where
  jobId : String
  idempotencyKey : String
  requestSha256 : String
  requestBody : String
  submittedAt : ℚ
  enqueueSequence : ℤ
  basePriority : Priority := .normal
  effectivePriority : ℤ := Priority.normal.toInt
  state : JobState := .queued
  selectedMember : Option String := none
  memberStateVersion : Option ℤ := none
  attemptCount : ℤ := 0
  currentAttemptId : Option String := none
  acceptedBoundaryCrossed : Bool := false
  queueClaimedAt : Option ℚ := none
  forwardStartedAt : Option ℚ := none
  completedAt : Option ℚ := none
  inputTokensEstimate : Option ℤ := none
  maxOutputTokens : Option ℤ := none
  requiredCapabilities : List String := []
  result : Option String := none
  error : Option String := none
  reasonCode : Option ReasonCode := none
  cancelRequested : Bool := false
  stateVersion : ℤ := 1
  schemaVersion : ℤ := 1
  deriving DecidableEq

/-- The exceptions that the broker's methods raise and that a transport may
raise.  `other` is any further `Exception`; `baseException` is one that
`except Exception` does not catch, such as a task cancellation. -/
inductive BrokerError where
  | repositoryUnavailable
  | leadershipLost (message : String)
  | reservationStale (message : String)
  | contractError (message : String)
  | valueError (message : String)
  | other (typeName message : String)
  | baseException (typeName : String)
  deriving DecidableEq

/-- `f"{type(exc).__name__}:{exc}"`. -/
def BrokerError.text : BrokerError → String
  | repositoryUnavailable => "RepositoryUnavailable:REDIS_STATE_UNKNOWN"
  | leadershipLost m => "LeadershipLost:" ++ m
  | reservationStale m => "ReservationStale:" ++ m
  | contractError m => "ContractError:" ++ m
  | valueError m => "ValueError:" ++ m
  | other t m => t ++ ":" ++ m
  | baseException t => t ++ ":"

/-- The truth value Python gives an optional string: `None` and `""` are false. -/
def truthy (s : Option String) : Option String := s.filter (· ≠ "")

theorem truthy_eq_some {s : Option String} {t : String} :
    truthy s = some t ↔ s = some t ∧ t ≠ "" := by
  simp [truthy, Option.filter_eq_some_iff]

/-- `RequestRequirements`, as far as `evaluate` reads it. -/
structure RequestRequirements where
  inputTokensEstimate : ℤ
  maxOutputTokens : ℤ
  requiredCapabilities : List String
  deriving DecidableEq

/-- `evaluate(requirements, member).compatible` with the default safety margin
of 1024 tokens. -/
def evaluate (requirements : RequestRequirements) (member : MemberSnapshot) :
    Bool :=
  decide (requirements.inputTokensEstimate + requirements.maxOutputTokens + 1024
      ≤ member.contextPerSlot) &&
    requirements.requiredCapabilities.all (· ∈ member.capabilities)

end GpuManager.Broker
