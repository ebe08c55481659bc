import Mathlib.Data.Rat.Floor
import Mathlib.Algebra.Order.Floor.Semifield
import GpuManager.Lib.PyDict
import GpuManager.Broker.Contracts

/-!
# Readiness and the member cache

`reduce_member_readiness` folds a configuration and one map of probes into a
snapshot, `map_member_ready` forces a member without semantic health to
`UNHEALTHY`, and `StrictMemberSnapshotCache` keeps the last result of each member.

The version is decided *inside* the reducer, before the strict mapper has had
its say: the stored snapshot, which is a mapped one, is compared with an unmapped
candidate.  `update_versionCounts_iff` says exactly when the number that comes
out still counts the changes of what is stored.

* `reduceMemberReadiness`, `mapMemberReady`, `StrictMemberSnapshotCache.update`:
  the functions of the source.
* `Strict`: what the mapper leaves behind, and `Reachable.strict`: every
  snapshot of the cache has it.
* `RepeatsEvidence`, `Unsettled`: the two halves of the exception.
-/

namespace GpuManager.Broker

open MemberSnapshot

/-! ## Evidence -/

/-- The configuration of a member.  `none` in `parallel` and `workerParallel` is
an absent key, `some none` the value `None`. -/
structure MemberConfig where
  enabled : Bool := false
  cpuOnly : Bool := false
  gpuId : Option String := none
  memberType : Option String := none
  parallel : Option (Option ℤ) := none
  workerParallel : Option (Option ℤ) := none
  contextPerSlot : Option ℤ := none
  capabilities : List String := []
  idleServiceConfigured : Option String := none
  deriving DecidableEq

namespace MemberConfig

/-- `bool(config.get("cpu_only")) or not config.get("gpu_id")`. -/
def withoutGpu (config : MemberConfig) : Bool :=
  config.cpuOnly || (truthy config.gpuId).isNone

/-- `int(config.get("parallel", config.get("worker_parallel", 0)) or 0)`. -/
def configuredSlots (config : MemberConfig) : ℤ :=
  (config.parallel.getD (config.workerParallel.getD (some 0))).getD 0

end MemberConfig

/-- A map of probes.  An absent key and `None` are one value wherever `get`
makes them one; a missing `observed_at` is `0.0`. -/
structure Probes where
  observedAt : ℚ := 0
  idleServiceEffective : Option Bool := none
  conflictingBundle : Bool := false
  modelResident : Option Bool := none
  systemdActive : Bool := false
  mainPid : Option ℤ := none
  semanticHealth : Bool := false
  probeError : Option String := none
  dispatcherRegistered : Bool := false
  backendSlotsTotal : Option ℤ := none
  backendSlotsBusy : Option ℤ := none
  dispatcherLeases : Option ℤ := none
  drainDisabledSlots : Option ℤ := none
  deriving DecidableEq

/-- `int(value) if value else None`. -/
def truthyInt (value : Option ℤ) : Option ℤ := value.filter (· ≠ 0)

/-! ## The reducer -/

/-- The reasons found so far, each with its blocker text. -/
abbrev Blocks := List (ReasonCode × String)

namespace Blocks

/-- `block(reason, detail)`: the first text of a reason stays. -/
def block (reason : ReasonCode) (detail : String) (found : Blocks) : Blocks :=
  if reason ∈ found.map (·.1) then found else found ++ [(reason, detail)]

def blockIf (condition : Bool) (reason : ReasonCode) (detail : String) (found : Blocks) :
    Blocks :=
  if condition then found.block reason detail else found

/-- `reasons`. -/
def reasons (found : Blocks) : List ReasonCode := found.map (·.1)

/-- `blockers`. -/
def blockers (found : Blocks) : List String := found.map (·.2)

end Blocks

/-- `max(0, int((now - observed_at) * 1000))`; below zero the rounding does not
show. -/
def snapshotAge (now observedAt : ℚ) : ℤ := max 0 ⌊(now - observedAt) * 1000⌋

/-- The chain of `probe_error` tests. -/
def probeBlocks (probes : Probes) (found : Blocks) : Blocks :=
  match probes.probeError with
  | some error =>
    if error = "connection_refused" ∨ error = "connection_error" then
      found.block .memberPortDark "port unreachable (connection refused)"
    else if error = "probe_timeout" then
      found.block .memberProbeTimeout "probe timed out"
    else if error = "server_disconnected" then
      found.block .memberProbeDisconnected "server disconnected"
    else if "http_".toList <+: error.toList then
      found.block .memberUnhealthyResponse
        ("backend responded " ++ String.ofList (error.toList.drop 5))
    else if error = "bad_json" then
      found.block .memberUnhealthyResponse "backend returned invalid JSON"
    else if error = "systemd_error" then
      -- the unit's own blocker is already there; this is no HTTP failure
      found
    else if error = "probe_unknown" then
      found.block .memberHttpUnready "backend probe result unavailable"
    else
      found.blockIf (!probes.semanticHealth) .memberHttpUnready "semantic HTTP health failed"
  | none =>
    found.blockIf (!probes.semanticHealth) .memberHttpUnready "semantic HTTP health failed"

def memberBlocks (config : MemberConfig) (probes : Probes) (age freshnessMs : ℤ) : Blocks :=
  let found : Blocks := []
  let found := found.blockIf (!config.enabled) .memberConfigDisabled
    "service disabled in config"
  let found := found.blockIf (decide (freshnessMs < age)) .telemetryStale
    ("snapshot age " ++ toString age ++ "ms exceeds " ++ toString freshnessMs ++ "ms")
  let found :=
    if config.withoutGpu then found
    else
      let found := found.blockIf (truthy config.idleServiceConfigured).isNone
        .memberIdleServiceNotConfigured "idle service not configured"
      let found := found.blockIf (decide (probes.idleServiceEffective ≠ some true))
        .memberIdleServiceNotEffective "configured idle service is not effective"
      let found := found.blockIf probes.conflictingBundle .memberConflictingBundle
        "conflicting bundle is active"
      found.blockIf (decide (probes.modelResident ≠ some true)) .memberModelNotResident
        "model residency not proved"
  let found := found.blockIf
    (decide (config.memberType ≠ some "openai_compatible") &&
      (!probes.systemdActive || (truthyInt probes.mainPid).isNone))
    .memberSystemdInactive "systemd unit or MainPID is inactive"
  let found := probeBlocks probes found
  found.blockIf (!probes.dispatcherRegistered) .memberDispatcherUnregistered
    "dispatcher registration is absent"

/-- `dispatcher_leases`. -/
def Probes.leases (probes : Probes) : ℤ := max 0 (probes.dispatcherLeases.getD 0)

/-- The slots proved free; nothing is proved by a stale or partial report. -/
def freeSlots (config : MemberConfig) (probes : Probes) (stale : Bool) : Option ℤ :=
  match stale, probes.backendSlotsTotal, probes.backendSlotsBusy with
  | false, some total, some busy =>
    let backendFree := max 0 (total - busy)
    let dispatcherFree := max 0 (config.configuredSlots - probes.leases)
    some (min config.configuredSlots (min backendFree dispatcherFree))
  | _, _, _ => none

/-- All reasons, capacity included. -/
def allBlocks (config : MemberConfig) (probes : Probes) (age freshnessMs : ℤ) : Blocks :=
  (memberBlocks config probes age freshnessMs).blockIf
    ((freeSlots config probes (decide (freshnessMs < age))).any (· ≤ 0))
    .memberNoCapacity "no proved immediate slot"

/-- `hard_unhealthy`. -/
def hardUnhealthy (reasons : List ReasonCode) : Bool :=
  [ReasonCode.memberSystemdInactive, .memberHttpUnready, .memberPortDark,
    .memberProbeTimeout, .memberProbeDisconnected, .memberUnhealthyResponse,
    .memberModelNotResident, .telemetryStale].any (· ∈ reasons)

/-- `accepting`. -/
def proposedAccepting (reasons : List ReasonCode) (free : Option ℤ) : Bool :=
  reasons.isEmpty && free.any (0 < ·)

/-- The state the reducer proposes. -/
def proposedState (reasons : List ReasonCode) (free : Option ℤ) : MemberState :=
  if proposedAccepting reasons free then .readyAccepting
  else if reasons ≠ [] ∧ ∀ reason ∈ reasons, reason = .memberNoCapacity then .readyBusy
  else if hardUnhealthy reasons then .unhealthy
  else .joining

/-- `candidate`. -/
def readinessCandidate (name : String) (config : MemberConfig) (probes : Probes) (now : ℚ)
    (freshnessMs : ℤ) (previous : Option MemberSnapshot) : MemberSnapshot :=
  let age := snapshotAge now probes.observedAt
  let free := freeSlots config probes (decide (freshnessMs < age))
  let found := allBlocks config probes age freshnessMs
  { name := name
    gpuId := config.gpuId
    state := proposedState found.reasons free
    accepting := proposedAccepting found.reasons free
    configuredSlots := config.configuredSlots
    contextPerSlot := config.contextPerSlot.getD 0
    stateVersion := 1
    observedAt := probes.observedAt
    generationFence := previous.elim 0 (·.generationFence)
    backendSlotsTotal := probes.backendSlotsTotal
    backendSlotsBusy := probes.backendSlotsBusy
    dispatcherLeases := probes.leases
    drainDisabledSlots := max 0 (probes.drainDisabledSlots.getD 0)
    compatibleFreeSlots := free
    capabilities := config.capabilities
    idleServiceConfigured := config.idleServiceConfigured
    idleServiceEffective := if config.withoutGpu then none else probes.idleServiceEffective
    systemdActive := probes.systemdActive
    mainPid := truthyInt probes.mainPid
    semanticHealth := probes.semanticHealth
    modelResident := if config.withoutGpu then none else probes.modelResident
    dispatcherRegistered := probes.dispatcherRegistered
    snapshotAgeMs := age
    blockers := found.blockers
    reasonCodes := found.reasons }

/-- `_semantic`: a snapshot without its two clocks and its version. -/
def MemberSnapshot.semantic (snapshot : MemberSnapshot) : MemberSnapshot :=
  { snapshot with observedAt := 0, snapshotAgeMs := 0, stateVersion := 0 }

/-- `reduce_member_readiness`. -/
def reduceMemberReadiness (name : String) (config : MemberConfig) (probes : Probes) (now : ℚ)
    (freshnessMs : ℤ) (previous : Option MemberSnapshot) : MemberSnapshot :=
  let candidate := readinessCandidate name config probes now freshnessMs previous
  match previous with
  | none => candidate
  | some old =>
    { candidate with
      stateVersion := old.stateVersion + if old.semantic ≠ candidate.semantic then 1 else 0 }

/-- `map_member_ready`. -/
def mapMemberReady (name : String) (config : MemberConfig) (probes : Probes)
    (previous : Option MemberSnapshot) (now : ℚ) (freshnessMs : ℤ) : MemberSnapshot :=
  let snapshot := reduceMemberReadiness name config probes now freshnessMs previous
  if snapshot.semanticHealth then snapshot
  else { snapshot with
    state := .unhealthy
    accepting := false
    compatibleFreeSlots := some 0 }

/-! ## The cache -/

/-- `StrictMemberSnapshotCache`. -/
structure StrictMemberSnapshotCache where
  configs : PyDict String MemberConfig
  freshnessMs : ℤ
  cached : String → Option MemberSnapshot

namespace StrictMemberSnapshotCache

/-- `_initial_snapshot`. -/
def initialSnapshot (name : String) (config : MemberConfig) : MemberSnapshot :=
  { name := name
    gpuId := config.gpuId
    state := .unhealthy
    accepting := false
    configuredSlots := config.configuredSlots
    contextPerSlot := config.contextPerSlot.getD 0
    stateVersion := 1
    observedAt := 0
    idleServiceConfigured := config.idleServiceConfigured
    idleServiceEffective := if config.withoutGpu then none else some false
    modelResident := if config.withoutGpu then none else some false
    compatibleFreeSlots := some 0
    blockers := ["no semantic readiness snapshot observed"] }

/-- `StrictMemberSnapshotCache(configs, freshness_ms=...)`. -/
def new (configs : PyDict String MemberConfig) (freshnessMs : ℤ) :
    StrictMemberSnapshotCache where
  configs := configs
  freshnessMs := freshnessMs
  cached name := (configs.get? name).map (initialSnapshot name)

def store (cache : StrictMemberSnapshotCache) (name : String) (snapshot : MemberSnapshot) :
    StrictMemberSnapshotCache :=
  { cache with cached := Function.update cache.cached name (some snapshot) }

/-- `update`: the snapshot and the cache that holds it; `none` for
`UNKNOWN_MEMBER`. -/
def update (cache : StrictMemberSnapshotCache) (name : String) (probes : Probes) (now : ℚ) :
    Option (MemberSnapshot × StrictMemberSnapshotCache) :=
  match cache.configs.get? name, cache.cached name with
  | some config, some previous =>
    let snapshot := mapMemberReady name config probes (some previous) now cache.freshnessMs
    some (snapshot, cache.store name snapshot)
  | _, _ => none

/-- The caches of one configuration: a new one and what updates make of it. -/
inductive Reachable (configs : PyDict String MemberConfig) (freshnessMs : ℤ) :
    StrictMemberSnapshotCache → Prop
  | new : Reachable configs freshnessMs (new configs freshnessMs)
  | update {cache cache' : StrictMemberSnapshotCache} {name : String} {probes : Probes}
      {now : ℚ} {snapshot : MemberSnapshot} (before : Reachable configs freshnessMs cache)
      (h : cache.update name probes now = some (snapshot, cache')) :
      Reachable configs freshnessMs cache'

theorem update_eq_some {cache cache' : StrictMemberSnapshotCache} {name : String}
    {probes : Probes} {now : ℚ} {snapshot : MemberSnapshot}
    (h : cache.update name probes now = some (snapshot, cache')) :
    ∃ config previous, cache.configs.get? name = some config ∧
      cache.cached name = some previous ∧
      snapshot = mapMemberReady name config probes (some previous) now cache.freshnessMs ∧
      cache' = cache.store name snapshot := by
  unfold update at h
  split at h
  · next config previous hconfig hprevious =>
    obtain ⟨rfl, rfl⟩ : _ ∧ _ := by simpa using h
    exact ⟨config, previous, hconfig, hprevious, rfl, rfl⟩
  · exact absurd h (by simp)

end StrictMemberSnapshotCache

/-! ## When the version counts -/

/-- What the strict mapper leaves behind: a member without semantic health is
unhealthy, closed and without a free slot. -/
structure Strict (name : String) (snapshot : MemberSnapshot) : Prop where
  named : snapshot.name = name
  unhealthy : snapshot.semanticHealth = false → snapshot.state = .unhealthy ∧
    snapshot.accepting = false ∧ snapshot.compatibleFreeSlots = some 0

theorem strict_mapMemberReady (name : String) (config : MemberConfig) (probes : Probes)
    (previous : Option MemberSnapshot) (now : ℚ) (freshnessMs : ℤ) :
    Strict name (mapMemberReady name config probes previous now freshnessMs) := by
  constructor
  · unfold mapMemberReady reduceMemberReadiness
    cases previous <;> dsimp only <;> split <;> rfl
  · intro hhealth
    unfold mapMemberReady at hhealth ⊢
    dsimp only at hhealth ⊢
    split at hhealth
    · next h => exact absurd hhealth (by simp [h])
    · next h => simp [h]

/-- Every snapshot a cache holds is strict, and its configuration does not
change. -/
theorem StrictMemberSnapshotCache.Reachable.strict {configs : PyDict String MemberConfig}
    {freshnessMs : ℤ} {cache : StrictMemberSnapshotCache}
    (h : Reachable configs freshnessMs cache) :
    (cache.configs = configs ∧ cache.freshnessMs = freshnessMs) ∧
      ∀ name snapshot, cache.cached name = some snapshot → Strict name snapshot := by
  induction h with
  | new =>
    refine ⟨⟨rfl, rfl⟩, fun name snapshot hs => ?_⟩
    obtain ⟨config, -, rfl⟩ := Option.map_eq_some_iff.mp hs
    exact ⟨rfl, fun _ => ⟨rfl, rfl, rfl⟩⟩
  | @update _ _ target _ _ _ before hu ih =>
    obtain ⟨config, previous, -, -, rfl, rfl⟩ := update_eq_some hu
    refine ⟨ih.1, fun other snapshot hs => ?_⟩
    by_cases hname : other = target
    · subst hname
      obtain rfl : _ = snapshot := by simpa [store] using hs
      exact strict_mapMemberReady ..
    · exact ih.2 other snapshot (by simpa [store, hname] using hs)

/-- `next` counts the change from `previous`: the same version when the two
agree but for the clocks, one more otherwise. -/
def VersionCounts (previous next : MemberSnapshot) : Prop :=
  next.stateVersion = previous.stateVersion + if next.semantic = previous.semantic then 0 else 1

instance (previous next : MemberSnapshot) : Decidable (VersionCounts previous next) :=
  inferInstanceAs (Decidable (_ = _))

/-- The configuration and the probes say what `previous` already records, the
state, the admission and the free slots aside. -/
structure RepeatsEvidence (config : MemberConfig) (probes : Probes) (now : ℚ)
    (freshnessMs : ℤ) (previous : MemberSnapshot) : Prop where
  gpuId : previous.gpuId = config.gpuId
  configuredSlots : previous.configuredSlots = config.configuredSlots
  contextPerSlot : previous.contextPerSlot = config.contextPerSlot.getD 0
  backendSlotsTotal : previous.backendSlotsTotal = probes.backendSlotsTotal
  backendSlotsBusy : previous.backendSlotsBusy = probes.backendSlotsBusy
  dispatcherLeases : previous.dispatcherLeases = probes.leases
  drainDisabledSlots : previous.drainDisabledSlots = max 0 (probes.drainDisabledSlots.getD 0)
  capabilities : previous.capabilities = config.capabilities
  idleServiceConfigured : previous.idleServiceConfigured = config.idleServiceConfigured
  idleServiceEffective : previous.idleServiceEffective =
    if config.withoutGpu then none else probes.idleServiceEffective
  systemdActive : previous.systemdActive = probes.systemdActive
  mainPid : previous.mainPid = truthyInt probes.mainPid
  semanticHealth : previous.semanticHealth = probes.semanticHealth
  modelResident : previous.modelResident =
    if config.withoutGpu then none else probes.modelResident
  dispatcherRegistered : previous.dispatcherRegistered = probes.dispatcherRegistered
  reasons : previous.reasonCodes =
    (allBlocks config probes (snapshotAge now probes.observedAt) freshnessMs).reasons
  blockers : previous.blockers =
    (allBlocks config probes (snapshotAge now probes.observedAt) freshnessMs).blockers

/-- The member has no semantic health, and its counts do not prove zero free
slots or none of its reasons is a hard one: the reducer then proposes something
else than the mapper stores. -/
def Unsettled (config : MemberConfig) (probes : Probes) (now : ℚ) (freshnessMs : ℤ) : Prop :=
  probes.semanticHealth = false ∧
    ¬ (freeSlots config probes
          (decide (freshnessMs < snapshotAge now probes.observedAt)) = some 0 ∧
        hardUnhealthy
          (allBlocks config probes (snapshotAge now probes.observedAt) freshnessMs).reasons = true)

section Update

variable {name : String} {config : MemberConfig} {probes : Probes} {now : ℚ}
  {freshnessMs : ℤ} {previous : MemberSnapshot}

/-- Without free slots the proposal is what the mapper stores exactly when some
reason is a hard one. -/
theorem proposedState_iff {reasons : List ReasonCode} :
    proposedState reasons (some 0) = .unhealthy ∧ proposedAccepting reasons (some 0) = false ↔
      hardUnhealthy reasons = true := by
  have haccepting : proposedAccepting reasons (some 0) = false := by
    simp [proposedAccepting]
  unfold proposedState
  simp only [haccepting, Bool.false_eq_true, if_false, and_true]
  constructor
  · intro h
    split at h
    · exact absurd h (by simp)
    split at h
    · assumption
    · exact absurd h (by simp)
  · intro hhard
    obtain ⟨reason, hreason, hmem⟩ := List.any_eq_true.mp hhard
    rw [if_neg, if_pos hhard]
    rintro ⟨-, hall⟩
    obtain rfl := hall reason (by simpa using hmem)
    exact absurd hreason (by simp)

theorem stateVersion_mapMemberReady :
    (mapMemberReady name config probes (some previous) now freshnessMs).stateVersion =
      previous.stateVersion +
        if previous.semantic ≠
          (readinessCandidate name config probes now freshnessMs (some previous)).semantic
        then 1 else 0 := by
  unfold mapMemberReady reduceMemberReadiness
  dsimp only
  split <;> rfl

/-- With semantic health the mapper changes nothing. -/
theorem semantic_mapMemberReady (hhealth : probes.semanticHealth = true) :
    (mapMemberReady name config probes (some previous) now freshnessMs).semantic =
      (readinessCandidate name config probes now freshnessMs (some previous)).semantic := by
  have hcandidate : (readinessCandidate name config probes now freshnessMs
      (some previous)).semanticHealth = true := hhealth
  unfold mapMemberReady reduceMemberReadiness
  simp only [hcandidate, if_true, semantic]

/-- Without it the stored snapshot equals its predecessor exactly when the
evidence repeats what the predecessor records. -/
theorem semantic_eq_iff (hstrict : Strict name previous) (hhealth : probes.semanticHealth = false) :
    (mapMemberReady name config probes (some previous) now freshnessMs).semantic =
        previous.semantic ↔
      RepeatsEvidence config probes now freshnessMs previous := by
  have hcandidate : (readinessCandidate name config probes now freshnessMs
      (some previous)).semanticHealth = false := hhealth
  unfold mapMemberReady reduceMemberReadiness
  simp only [hcandidate, Bool.false_eq_true, if_false]
  obtain ⟨hname, hunhealthy⟩ := hstrict
  constructor
  · intro h
    simp only [semantic, readinessCandidate, mk.injEq] at h
    constructor <;> first | tauto | (rw [hhealth]; tauto)
  · intro h
    obtain ⟨hstate, haccepting, hfree⟩ := hunhealthy (h.semanticHealth.trans hhealth)
    simp only [semantic, readinessCandidate, hname, hstate, haccepting, hfree,
      h.gpuId, h.configuredSlots, h.contextPerSlot, h.backendSlotsTotal, h.backendSlotsBusy,
      h.dispatcherLeases, h.drainDisabledSlots, h.capabilities, h.idleServiceConfigured,
      h.idleServiceEffective, h.systemdActive, h.mainPid, h.semanticHealth, h.modelResident,
      h.dispatcherRegistered, h.reasons, h.blockers, hhealth, Option.elim_some]

/-- What the reducer proposes is what the mapper stores exactly when the member
is settled. -/
theorem semantic_candidate_iff (hhealth : probes.semanticHealth = false) :
    (readinessCandidate name config probes now freshnessMs (some previous)).semantic =
        (mapMemberReady name config probes (some previous) now freshnessMs).semantic ↔
      ¬ Unsettled config probes now freshnessMs := by
  have hcandidate : (readinessCandidate name config probes now freshnessMs
      (some previous)).semanticHealth = false := hhealth
  have hstored : (readinessCandidate name config probes now freshnessMs (some previous)).semantic =
      (mapMemberReady name config probes (some previous) now freshnessMs).semantic ↔
      (readinessCandidate name config probes now freshnessMs (some previous)).state = .unhealthy ∧
      (readinessCandidate name config probes now freshnessMs (some previous)).accepting = false ∧
      (readinessCandidate name config probes now freshnessMs
        (some previous)).compatibleFreeSlots = some 0 := by
    unfold mapMemberReady reduceMemberReadiness
    simp [hcandidate, semantic]
  rw [hstored, Unsettled, hhealth]
  simp only [true_and, not_not]
  constructor
  · rintro ⟨hstate, haccepting, hfree⟩
    simp only [readinessCandidate] at hstate haccepting hfree
    rw [hfree] at hstate haccepting
    exact ⟨hfree, proposedState_iff.mp ⟨hstate, haccepting⟩⟩
  · rintro ⟨hfree, hhard⟩
    obtain ⟨hstate, haccepting⟩ := proposedState_iff.mpr hhard
    simp only [readinessCandidate, hfree]
    exact ⟨hstate, haccepting, trivial⟩

/-- A proposal that equals its stored predecessor is itself of the stored form. -/
theorem not_unsettled_of_semantic_eq (hstrict : Strict name previous)
    (hhealth : probes.semanticHealth = false)
    (heq : previous.semantic =
      (readinessCandidate name config probes now freshnessMs (some previous)).semantic) :
    ¬ Unsettled config probes now freshnessMs := by
  have hfields := heq
  simp only [semantic, readinessCandidate, mk.injEq] at hfields
  obtain ⟨-, -, hstate, haccepting, -, -, -, -, -, -, -, -, -, hfree, -, -, -, -, -, hold, -⟩ :=
    hfields
  obtain ⟨hstate', haccepting', hfree'⟩ := hstrict.unhealthy (hold.trans hhealth)
  rw [hfree'] at hfree
  rw [hstate', ← hfree] at hstate
  rw [haccepting', ← hfree] at haccepting
  exact fun hunsettled => hunsettled.2
    ⟨hfree.symm, proposedState_iff.mp ⟨hstate.symm, haccepting.symm⟩⟩

end Update

/-- **The version counts what the reducer proposes, not what is stored.**  In
every cache that updates can produce, an update's version counts the change of
the stored snapshot unless the member is unsettled and the evidence repeats what
is recorded: then nothing changes and the version still moves. -/
theorem StrictMemberSnapshotCache.update_versionCounts_iff
    (configs : PyDict String MemberConfig) (freshnessMs : ℤ) {cache cache' :
      StrictMemberSnapshotCache} (hreachable : Reachable configs freshnessMs cache)
    {name : String} {config : MemberConfig} (hconfig : configs.get? name = some config)
    {previous : MemberSnapshot} (hprevious : cache.cached name = some previous)
    {probes : Probes} {now : ℚ} {snapshot : MemberSnapshot}
    (hupdate : cache.update name probes now = some (snapshot, cache')) :
    VersionCounts previous snapshot ↔
      ¬ (Unsettled config probes now freshnessMs ∧
        RepeatsEvidence config probes now freshnessMs previous) := by
  obtain ⟨⟨rfl, rfl⟩, hstrict⟩ := hreachable.strict
  obtain ⟨config', previous', hconfig', hprevious', rfl, -⟩ := update_eq_some hupdate
  obtain rfl : config' = config := Option.some.inj (hconfig'.symm.trans hconfig)
  obtain rfl : previous' = previous := Option.some.inj (hprevious'.symm.trans hprevious)
  have hold := hstrict name previous' hprevious
  rw [VersionCounts, stateVersion_mapMemberReady]
  cases hhealth : probes.semanticHealth with
  | true =>
    rw [semantic_mapMemberReady hhealth]
    refine iff_of_true ?_ fun h => absurd (hhealth.symm.trans h.1.1) (by simp)
    simp only [ne_eq, ite_not, eq_comm]
  | false =>
    rw [← @semantic_eq_iff _ _ _ now _ _ hold hhealth]
    by_cases hunsettled : Unsettled config' probes now cache.freshnessMs
    · have hmoved := fun heq => not_unsettled_of_semantic_eq hold hhealth heq hunsettled
      rw [if_pos hmoved]
      simp only [hunsettled, true_and]
      split <;> simp_all
    · rw [(semantic_candidate_iff hhealth).mpr hunsettled]
      refine iff_of_true ?_ fun h => hunsettled h.1
      simp only [ne_eq, ite_not, eq_comm]

def cpuMember : MemberConfig :=
  { enabled := true, cpuOnly := true, parallel := some (some 2), contextPerSlot := some 4096 }

open StrictMemberSnapshotCache in
/-- The first report of a dark member differs from the initial snapshot, and is
counted. -/
theorem update_versionCounts_first :
    VersionCounts (initialSnapshot "cpu" cpuMember)
      (mapMemberReady "cpu" cpuMember {} (some (initialSnapshot "cpu" cpuMember)) 0 5000) :=
  (@update_versionCounts_iff [("cpu", cpuMember)] 5000 _ _ .new "cpu" cpuMember rfl _ rfl {} 0 _
    rfl).mpr fun h => absurd h.2.reasons (by decide +kernel)

/-- The second one repeats it, and the version moves all the same. -/
theorem update_repeated_moves :
    ∃ cache₁ cache₂ snapshot₁ snapshot₂,
      (StrictMemberSnapshotCache.new [("cpu", cpuMember)] 5000).update "cpu" {} 0 =
        some (snapshot₁, cache₁) ∧
      cache₁.update "cpu" {} 0 = some (snapshot₂, cache₂) ∧
      snapshot₂.semantic = snapshot₁.semantic ∧
      ¬ VersionCounts snapshot₁ snapshot₂ := by
  refine ⟨_, _, _, _, rfl, rfl, ?_, ?_⟩ <;> decide +kernel

end GpuManager.Broker
