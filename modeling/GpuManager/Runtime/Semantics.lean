import GpuManager.Host.Overlay
import GpuManager.Services.Loader

/-!
# Runtime semantics

`reduce_semantics` boils a snapshot of the manager down to one of seven modes, and every health
surface reports it.  A mode means what it says unless services are loaded of which none is the
configured idle one and nothing contradicts them, or bundles where no service is
(`meant_iff_not_glossed`).

Truth values and `str` of JSON values are parameters, as is `lower` beyond ASCII.
-/

namespace GpuManager.Runtime

open PyStr Host Services List

variable {F : Type}

/-- A loaded bundle. -/
abbrev Bundle (F : Type) := PyDict PyStr (Json F)

/-- `SemanticSnapshot`. -/
structure SemanticSnapshot (F : Type) where
  configuredIdleService : PyStr := []
  configuredIdleServicesByGpu : PyDict PyStr PyStr := []
  pinnedService : PyStr := []
  maintenanceMode : Bool := false
  enabledServiceNames : List PyStr := []
  disabledServiceNames : List PyStr := []
  loadedRuntimeServices : List PyStr := []
  loadedRuntimeBundles : List (Bundle F) := []
  gpuStateValue : PyStr := []
  llmEvicted : Bool := false
  queueActiveJobs : ℤ := 0
  queuePendingJobs : ℤ := 0
  anyBundleDraining : Bool := false
  anyBundleLoading : Bool := false
  anyBundleRestoring : Bool := false
  anyBundleEvicting : Bool := false
  restoreOperationActive : Bool := false
  llmRouteAvailable : Bool := false
  cpuFallbackAvailable : Bool := false
  generationRouteAvailable : Bool := false
  observedAt : F

/-- The runtime modes. -/
inductive RuntimeMode where
  | cpuOnly
  | gpuIdleLlm
  | generationLoaded
  | transitioning
  | maintenance
  | degraded
  | unknown
  deriving DecidableEq

/-- `TRANSITION_STATES`. -/
def transitionStates : List PyStr :=
  ["draining", "llm_relief", "loading", "restoring", "evicting", "loading_bundle",
    "draining_bundle", "restoring_idle"].map text

/-- `_dedupe`. -/
def dedupe (items : List PyStr) : List PyStr :=
  items.foldl (fun out item => if item ≠ [] ∧ item ∉ out then out ++ [item] else out) []

/-- What a loop over `bundle.get("services", []) or []` meets; a number raises `TypeError`. -/
def serviceEntries (py : PyValues F) (bundle : Bundle F) : Option (List (Json F)) :=
  match (PyDict.get? bundle (text "services")).getD (.arr []) with
  | .arr items => some items
  | .obj members => some (members.map fun m => .str m.1)
  | .str s => some (s.map fun c => .str [c])
  | value => if py.truthy value then none else some []

/-- `_bundle_service_identifiers`. -/
def bundleServiceIdentifiers (py : PyValues F) : Json F → List PyStr
  | .obj members =>
    (([text "name", text "systemd_unit"].filterMap (PyDict.get? members)).filter py.truthy).map
      py.strOf
  | entry => if py.truthy entry then [py.strOf entry] else []

/-! ## The envelope -/

/-- `configured_intent`. -/
structure ConfiguredIntent where
  configuredIdleService : PyStr
  configuredIdleServicesByGpu : PyDict PyStr PyStr
  pinnedService : PyStr
  maintenanceMode : Bool
  enabledServiceNames : List PyStr
  disabledServiceNames : List PyStr

/-- `observed_runtime`. -/
structure ObservedRuntime (F : Type) where
  gpuState : PyStr
  llmEvicted : Bool
  loadedRuntimeServices : List PyStr
  loadedRuntimeBundles : List (Bundle F)
  queueActiveJobs : ℤ
  queuePendingJobs : ℤ

/-- `route_availability`. -/
structure RouteAvailability where
  activeLlmRoute : PyStr
  llmRouteAvailable : Bool
  cpuFallbackAvailable : Bool
  generationRouteAvailable : Bool
  mode : RuntimeMode

/-- The envelope. -/
structure RuntimeSemantics (F : Type) where
  runtimeMode : RuntimeMode
  configuredIntent : ConfiguredIntent
  observedRuntime : ObservedRuntime F
  routeAvailability : RouteAvailability
  blockedReasons : List PyStr
  contradictions : List PyStr
  intentionallyIdle : List PyStr
  observedAt : F

namespace SemanticSnapshot

variable (snap : SemanticSnapshot F)

/-- `_build_configured_intent`. -/
def configuredIntent : ConfiguredIntent where
  configuredIdleService := snap.configuredIdleService
  configuredIdleServicesByGpu := snap.configuredIdleServicesByGpu
  pinnedService := snap.pinnedService
  maintenanceMode := snap.maintenanceMode
  enabledServiceNames := dedupe snap.enabledServiceNames
  disabledServiceNames := dedupe snap.disabledServiceNames

/-- `_build_observed_runtime`. -/
def observedRuntime : ObservedRuntime F where
  gpuState := snap.gpuStateValue
  llmEvicted := snap.llmEvicted
  loadedRuntimeServices := dedupe snap.loadedRuntimeServices
  loadedRuntimeBundles := snap.loadedRuntimeBundles
  queueActiveJobs := snap.queueActiveJobs
  queuePendingJobs := snap.queuePendingJobs

/-- `_build_route_availability`. -/
def routeAvailability (mode : RuntimeMode) : RouteAvailability where
  activeLlmRoute :=
    if snap.llmRouteAvailable then
      if snap.pinnedService ≠ [] then text "pinned" else text "configured_idle"
    else if snap.cpuFallbackAvailable then text "cpu_fallback"
    else []
  llmRouteAvailable := snap.llmRouteAvailable
  cpuFallbackAvailable := snap.cpuFallbackAvailable
  generationRouteAvailable := snap.generationRouteAvailable
  mode := mode

/-- `_envelope`. -/
def envelope (mode : RuntimeMode) (observedAt : F)
    (blockedReasons contradictions intentionallyIdle : List PyStr) : RuntimeSemantics F where
  runtimeMode := mode
  configuredIntent := snap.configuredIntent
  observedRuntime := snap.observedRuntime
  routeAvailability := snap.routeAvailability mode
  blockedReasons := dedupe blockedReasons
  contradictions := dedupe contradictions
  intentionallyIdle := intentionallyIdle
  observedAt := observedAt

/-! ## Detectors -/

/-- `_classify_intentionally_idle`. -/
def classifyIntentionallyIdle : List PyStr :=
  let idleTargets := snap.configuredIdleServicesByGpu.map (·.2) ++
    if snap.configuredIdleService = [] then [] else [snap.configuredIdleService]
  dedupe (snap.disabledServiceNames.filter (· ∉ snap.loadedRuntimeServices) ++
    snap.enabledServiceNames.filter fun name =>
      name ∉ idleTargets ∧ name ∉ snap.loadedRuntimeServices)

/-- `_detect_transition`; `other` is `lower` beyond ASCII. -/
def detectTransition (other : CodePoint → PyStr) : PyStr :=
  if snap.anyBundleDraining then text "draining"
  else if snap.anyBundleLoading then text "loading"
  else if snap.anyBundleRestoring then text "restoring"
  else if snap.anyBundleEvicting then text "evicting"
  else
    let gpuState := lower other snap.gpuStateValue
    if gpuState = text "restoring" then
      if snap.restoreOperationActive then text "restoring" else []
    else if gpuState ∈ transitionStates then gpuState
    else []

/-- `idle_units`. -/
def idleUnits : List PyStr :=
  (snap.configuredIdleService :: snap.configuredIdleServicesByGpu.map (·.2)).filter (· ≠ [])

def holdsGeneration (py : PyValues F) (bundle : Bundle F) : Bool :=
  let services := ((serviceEntries py bundle).getD []).flatMap (bundleServiceIdentifiers py)
  services = [] || services.any (· ∉ snap.idleUnits)

def generationBundles (py : PyValues F) : Option (List (Bundle F)) :=
  if snap.loadedRuntimeBundles.all fun bundle => (serviceEntries py bundle).isSome then
    some (snap.loadedRuntimeBundles.filter (snap.holdsGeneration py))
  else none

/-- `_detect_contradictions`. -/
def detectContradictions (py : PyValues F) : List PyStr :=
  whenever (snap.gpuStateValue = text "llm_loaded" ∧ snap.loadedRuntimeServices = [])
      (text "gpu_state_llm_loaded_but_no_runtime_services") ++
    whenever (snap.llmEvicted ∧ snap.gpuStateValue = text "llm_loaded")
      (text "llm_evicted_with_llm_loaded_state") ++
    whenever (snap.configuredIdleService ≠ [] ∧
        snap.configuredIdleService ∉ snap.disabledServiceNames ∧
        snap.loadedRuntimeBundles = [] ∧
        snap.configuredIdleService ∉ snap.loadedRuntimeServices)
      (text "configured_idle_service_not_observed_loaded") ++
    whenever (snap.pinnedService ≠ [] ∧ !snap.llmRouteAvailable ∧ !snap.cpuFallbackAvailable)
      (text "pinned_service_with_no_route") ++
    snap.loadedRuntimeBundles.flatMap (fun bundle =>
      whenever (py.truthy ((PyDict.get? bundle (text "gpu_id")).getD .null) = false)
        (text "loaded_bundle_missing_gpu_id")) ++
    whenever (0 < snap.queueActiveJobs ∧ !snap.llmRouteAvailable ∧ !snap.cpuFallbackAvailable)
      (text "active_jobs_without_route")

/-- There is no idle service to expect: none is configured, or it is disabled. -/
def ExpectsNone : Prop :=
  snap.configuredIdleService = [] ∨ snap.configuredIdleService ∈ snap.disabledServiceNames

instance : Decidable snap.ExpectsNone := inferInstanceAs (Decidable (_ ∨ _))

/-- `snap.llm_route_available or snap.cpu_fallback_available`. -/
def anyRoute : Bool := snap.llmRouteAvailable || snap.cpuFallbackAvailable

/-! ## Lists -/

/-- The same bundle, with its services in another order or repeated. -/
def SameBundle (b b' : Bundle F) : Prop :=
  PyDict.get? b (text "gpu_id") = PyDict.get? b' (text "gpu_id") ∧
    (PyDict.get? b (text "services") = PyDict.get? b' (text "services") ∨
      ∃ items items', PyDict.get? b (text "services") = some (.arr items) ∧
        PyDict.get? b' (text "services") = some (.arr items') ∧
        ∀ entry, entry ∈ items ↔ entry ∈ items')

/-- The snapshot with other lists. -/
def withLists (enabled disabled loaded : List PyStr) (bundles : List (Bundle F)) :
    SemanticSnapshot F :=
  { snap with
    enabledServiceNames := enabled, disabledServiceNames := disabled
    loadedRuntimeServices := loaded, loadedRuntimeBundles := bundles }

/-- The entries of these lists are those of the snapshot, in another order or repeated. -/
structure SameLists (enabled disabled loaded : List PyStr)
    (bundles : List (Bundle F)) : Prop where
  enabled : ∀ name, name ∈ enabled ↔ name ∈ snap.enabledServiceNames
  disabled : ∀ name, name ∈ disabled ↔ name ∈ snap.disabledServiceNames
  loaded : ∀ name, name ∈ loaded ↔ name ∈ snap.loadedRuntimeServices
  fewer : ∀ b ∈ bundles, ∃ b' ∈ snap.loadedRuntimeBundles, SameBundle b b'
  more : ∀ b' ∈ snap.loadedRuntimeBundles, ∃ b ∈ bundles, SameBundle b b'

end SemanticSnapshot

section Reducer

variable [Zero F] [LinearOrder F] (py : PyValues F) (other : CodePoint → PyStr) (now : F)
  (snap : SemanticSnapshot F)

/-- `reduce_semantics`. -/
def reduceSemantics : Option (RuntimeSemantics F) :=
  let observedAt := if snap.observedAt = 0 then now else snap.observedAt
  let idle := snap.classifyIntentionallyIdle
  let contradictions := snap.detectContradictions py
  if snap.maintenanceMode then
    some (snap.envelope .maintenance observedAt [text "maintenance_mode_enabled"] [] idle)
  else if snap.observedAt = 0 ∨ snap.observedAt ≤ 0 then
    some (snap.envelope .unknown observedAt [text "no_observation_available"] [] [])
  else if snap.loadedRuntimeServices = [] ∧ snap.ExpectsNone ∧ snap.anyRoute then
    some (snap.envelope .cpuOnly observedAt [] [] idle)
  else if snap.detectTransition other ≠ [] then
    some (snap.envelope .transitioning observedAt
      [text "transition_in_progress:" ++ snap.detectTransition other] [] idle)
  else (snap.generationBundles py).map fun generation =>
    if generation ≠ [] then
      snap.envelope (if contradictions ≠ [] then .degraded else .generationLoaded) observedAt []
        contradictions idle
    else if snap.configuredIdleService ≠ [] ∧ snap.loadedRuntimeServices ≠ [] then
      snap.envelope (if contradictions ≠ [] then .degraded else .gpuIdleLlm) observedAt
        (if snap.llmRouteAvailable then [] else [text "idle_llm_unhealthy"]) contradictions idle
    else
      let blocked := if snap.anyRoute then [] else [text "no_llm_route"]
      if ¬ snap.ExpectsNone ∧ snap.loadedRuntimeServices = [] then
        snap.envelope .degraded observedAt blocked
          (if text "configured_idle_service_not_loaded" ∈ contradictions then contradictions
            else contradictions ++ [text "configured_idle_service_not_loaded"]) idle
      else
        snap.envelope
          (if contradictions ≠ [] then .degraded
            else if snap.anyRoute then .cpuOnly else .unknown) observedAt blocked contradictions idle

def runtimeMode : Option RuntimeMode := (reduceSemantics py other now snap).map (·.runtimeMode)

/-! ## What the modes say -/

/-- No transition, no generation bundle and no contradiction. -/
structure Quiet : Prop where
  transition : snap.detectTransition other = []
  generation : snap.generationBundles py = some []
  contradictions : snap.detectContradictions py = []

/-- The mode means what it says, however the lists are written. -/
structure Meant : Prop where
  gpuIdleLlm : runtimeMode py other now snap = some .gpuIdleLlm →
    snap.configuredIdleService ∈ snap.loadedRuntimeServices ∧ Quiet py other snap
  generationLoaded : runtimeMode py other now snap = some .generationLoaded →
    (∃ bundle ∈ snap.loadedRuntimeBundles, snap.holdsGeneration py bundle) ∧
      snap.detectTransition other = [] ∧ snap.detectContradictions py = []
  cpuOnly : runtimeMode py other now snap = some .cpuOnly →
    snap.loadedRuntimeServices = [] ∧ snap.loadedRuntimeBundles = []
  listed : ∀ enabled disabled loaded bundles, snap.SameLists enabled disabled loaded bundles →
    runtimeMode py other now (snap.withLists enabled disabled loaded bundles) =
      runtimeMode py other now snap

/-- What the modes gloss over. -/
inductive Glossed : Prop where
  /-- Other services are loaded than the configured idle one. -/
  | otherService (hquiet : Quiet py other snap) (hidle : snap.configuredIdleService ≠ [])
      (hloaded : snap.loadedRuntimeServices ≠ [])
      (hother : snap.configuredIdleService ∉ snap.loadedRuntimeServices)
  /-- Services are loaded, and none is configured as the idle one. -/
  | noIdleService (hquiet : Quiet py other snap) (hidle : snap.configuredIdleService = [])
      (hloaded : snap.loadedRuntimeServices ≠ []) (hroute : snap.anyRoute = true)
  /-- Bundles are loaded and no service. -/
  | bundles (hidle : snap.ExpectsNone) (hloaded : snap.loadedRuntimeServices = [])
      (hroute : snap.anyRoute = true) (hbundles : snap.loadedRuntimeBundles ≠ [])

end Reducer

/-! ## The order of the lists -/

namespace SemanticSnapshot

variable {py : PyValues F} {snap : SemanticSnapshot F} {p : Bundle F → Bool} {b b' : Bundle F}

theorem generationBundles_eq_nil_iff : snap.generationBundles py = some [] ↔
    (snap.loadedRuntimeBundles.all fun bundle => (serviceEntries py bundle).isSome) = true ∧
      snap.loadedRuntimeBundles.any (snap.holdsGeneration py) = false := by
  unfold generationBundles
  split <;> simp_all

theorem SameBundle.entries (h : SameBundle b b') :
    (serviceEntries py b).isSome = (serviceEntries py b').isSome ∧ ∀ entry,
      entry ∈ (serviceEntries py b).getD [] ↔ entry ∈ (serviceEntries py b').getD [] := by
  obtain ⟨-, h | ⟨items, items', h, h', hitems⟩⟩ := h
  · unfold serviceEntries
    rw [h]
    exact ⟨rfl, fun _ => Iff.rfl⟩
  · simpa [serviceEntries, h, h'] using hitems

theorem SameBundle.holdsGeneration (h : SameBundle b b') :
    snap.holdsGeneration py b = snap.holdsGeneration py b' := by
  rw [Bool.eq_iff_iff]
  simp [SemanticSnapshot.holdsGeneration, flatMap_eq_nil_iff, h.entries.2]

namespace SameLists

variable {enabled disabled loaded : List PyStr} {bundles : List (Bundle F)}
  (h : SameLists snap enabled disabled loaded bundles)

include h

theorem all_bundles (hp : ∀ b b', SameBundle b b' → p b = p b') :
    bundles.all p = snap.loadedRuntimeBundles.all p := by
  rw [Bool.eq_iff_iff, all_eq_true, all_eq_true]
  constructor
  · intro hall b' hb'
    obtain ⟨b, hb, hsame⟩ := h.more b' hb'
    exact hp b b' hsame ▸ hall b hb
  · intro hall b hb
    obtain ⟨b', hb', hsame⟩ := h.fewer b hb
    exact (hp b b' hsame).trans (hall b' hb')

theorem any_bundles (hp : ∀ b b', SameBundle b b' → p b = p b') :
    bundles.any p = snap.loadedRuntimeBundles.any p := by
  rw [any_eq_not_all_not, any_eq_not_all_not,
    h.all_bundles fun b b' hsame => by rw [hp b b' hsame]]

theorem loaded_nil : loaded = [] ↔ snap.loadedRuntimeServices = [] := by
  simp only [eq_nil_iff_forall_not_mem, h.loaded]

theorem bundles_nil : bundles = [] ↔ snap.loadedRuntimeBundles = [] := by
  have hall := h.all_bundles (p := fun _ => false) fun _ _ _ => rfl
  cases bundles <;> cases hsnap : snap.loadedRuntimeBundles <;> simp_all

theorem detectContradictions_nil :
    (snap.withLists enabled disabled loaded bundles).detectContradictions py = [] ↔
      snap.detectContradictions py = [] := by
  have hgpu := h.all_bundles
    (p := fun bundle => py.truthy ((PyDict.get? bundle (text "gpu_id")).getD .null))
    fun b b' hsame => by rw [hsame.1]
  rw [Bool.eq_iff_iff, all_eq_true, all_eq_true] at hgpu
  simp only [detectContradictions, append_eq_nil_iff, flatMap_eq_nil_iff,
    whenever_eq_nil, Bool.not_eq_false]
  simp only [withLists, h.loaded_nil, h.disabled, h.bundles_nil, h.loaded, hgpu]

end SameLists

end SemanticSnapshot

open SemanticSnapshot

theorem quiet_iff {py : PyValues F} {other : CodePoint → PyStr} {snap : SemanticSnapshot F} :
    Quiet py other snap ↔ snap.detectTransition other = [] ∧
    ((snap.loadedRuntimeBundles.all fun bundle => (serviceEntries py bundle).isSome) = true ∧
      snap.loadedRuntimeBundles.any (snap.holdsGeneration py) = false) ∧
    snap.detectContradictions py = [] := by
  rw [← generationBundles_eq_nil_iff]
  exact ⟨fun h => ⟨h.1, h.2, h.3⟩, fun h => ⟨h.1, h.2.1, h.2.2⟩⟩

section Proofs

variable [Zero F] [LinearOrder F] {py : PyValues F} {other : CodePoint → PyStr} {now : F}
  {snap : SemanticSnapshot F} (hobserved : 0 < snap.observedAt)
  (hmaintenance : snap.maintenanceMode = false)

include hobserved hmaintenance

/-- The mode of a fresh observation. -/
theorem runtimeMode_eq :
    runtimeMode py other now snap =
      if snap.loadedRuntimeServices = [] ∧ snap.ExpectsNone ∧ snap.anyRoute then some .cpuOnly
      else if snap.detectTransition other ≠ [] then some .transitioning
      else if snap.loadedRuntimeBundles.all fun bundle => (serviceEntries py bundle).isSome then
        some (
          if snap.loadedRuntimeBundles.any (snap.holdsGeneration py) then
            if snap.detectContradictions py ≠ [] then .degraded else .generationLoaded
          else if snap.configuredIdleService ≠ [] ∧ snap.loadedRuntimeServices ≠ [] then
            if snap.detectContradictions py ≠ [] then .degraded else .gpuIdleLlm
          else if ¬ snap.ExpectsNone ∧ snap.loadedRuntimeServices = [] then .degraded
          else if snap.detectContradictions py ≠ [] then .degraded
          else if snap.anyRoute then .cpuOnly else .unknown)
      else none := by
  have hfresh : ¬ (snap.observedAt = 0 ∨ snap.observedAt ≤ 0) := by
    simp [hobserved.ne', hobserved]
  have hgeneration : snap.loadedRuntimeBundles.filter (snap.holdsGeneration py) ≠ [] ↔
      snap.loadedRuntimeBundles.any (snap.holdsGeneration py) = true := by
    simp
  unfold runtimeMode reduceSemantics generationBundles
  simp only [hmaintenance, Bool.false_eq_true, if_false, if_neg hfresh]
  by_cases hcpu : snap.loadedRuntimeServices = [] ∧ snap.ExpectsNone ∧ snap.anyRoute = true
  · rw [if_pos hcpu, if_pos hcpu]
    rfl
  rw [if_neg hcpu, if_neg hcpu]
  by_cases htransition : snap.detectTransition other ≠ []
  · rw [if_pos htransition, if_pos htransition]
    rfl
  rw [if_neg htransition, if_neg htransition]
  by_cases hiterable :
    (snap.loadedRuntimeBundles.all fun bundle => (serviceEntries py bundle).isSome) = true
  · rw [if_pos hiterable, if_pos hiterable, Option.map_some, Option.map_some]
    simp only [hgeneration]
    refine congrArg some ?_
    split
    · rfl
    split
    · rfl
    split <;> rfl
  · rw [if_neg hiterable, if_neg hiterable]
    rfl

theorem runtimeMode_gpuIdleLlm_iff :
    runtimeMode py other now snap = some .gpuIdleLlm ↔ Quiet py other snap ∧
      snap.configuredIdleService ≠ [] ∧ snap.loadedRuntimeServices ≠ [] := by
  rw [runtimeMode_eq hobserved hmaintenance, quiet_iff]
  split_ifs <;> grind

theorem runtimeMode_generationLoaded
    (h : runtimeMode py other now snap = some .generationLoaded) :
    snap.loadedRuntimeBundles.any (snap.holdsGeneration py) = true ∧
      snap.detectTransition other = [] ∧ snap.detectContradictions py = [] := by
  rw [runtimeMode_eq hobserved hmaintenance] at h
  split_ifs at h <;> grind

theorem runtimeMode_cpuOnly_iff :
    runtimeMode py other now snap = some .cpuOnly ↔ snap.anyRoute = true ∧
      (snap.ExpectsNone ∧ snap.loadedRuntimeServices = [] ∨
        Quiet py other snap ∧ snap.configuredIdleService = [] ∧
          snap.loadedRuntimeServices ≠ []) := by
  rw [runtimeMode_eq hobserved hmaintenance, quiet_iff]
  have hnone (h : snap.configuredIdleService = []) : snap.ExpectsNone := Or.inl h
  split_ifs <;> grind

/-- The mode does not depend on how the lists are written. -/
theorem runtimeMode_withLists {enabled disabled loaded : List PyStr} {bundles : List (Bundle F)}
    (h : snap.SameLists enabled disabled loaded bundles) :
    runtimeMode py other now (snap.withLists enabled disabled loaded bundles) =
      runtimeMode py other now snap := by
  let written := snap.withLists enabled disabled loaded bundles
  have hexpects : written.ExpectsNone ↔ snap.ExpectsNone := or_congr Iff.rfl (h.disabled _)
  have hloaded : written.loadedRuntimeServices = [] ↔ snap.loadedRuntimeServices = [] :=
    h.loaded_nil
  have hiterable := h.all_bundles fun b b' hsame => (@SameBundle.entries F py b b' hsame).1
  have hgeneration := h.any_bundles fun b b' hsame => @SameBundle.holdsGeneration F py snap b b' hsame
  rw [@runtimeMode_eq F _ _ py other now snap hobserved hmaintenance,
    @runtimeMode_eq F _ _ py other now written hobserved hmaintenance]
  simp only [written, hexpects, h.detectContradictions_nil, ne_eq, hloaded]
  change (if _ ∧ _ ∧ snap.anyRoute then _ else if ¬ snap.detectTransition other = [] then _ else
    if bundles.all _ then some (if bundles.any (snap.holdsGeneration py) then _ else _)
    else none) = _
  rw [hiterable, hgeneration]
  rfl

/-- **Modes.**  Outside maintenance and once observed, a mode means what it says about services,
bundles and transitions, exactly if the snapshot is none of the three that it glosses over. -/
theorem meant_iff_not_glossed :
    Meant py other now snap ↔ ¬ Glossed py other snap := by
  constructor
  · intro h hglossed
    cases hglossed with
    | otherService hquiet hidle hloaded hother =>
      exact hother (h.gpuIdleLlm ((runtimeMode_gpuIdleLlm_iff hobserved hmaintenance).mpr
        ⟨hquiet, hidle, hloaded⟩)).1
    | noIdleService hquiet hidle hloaded hroute =>
      exact hloaded (h.cpuOnly ((runtimeMode_cpuOnly_iff hobserved hmaintenance).mpr
        ⟨hroute, Or.inr ⟨hquiet, hidle, hloaded⟩⟩)).1
    | bundles hidle hloaded hroute hbundles =>
      exact hbundles (h.cpuOnly ((runtimeMode_cpuOnly_iff hobserved hmaintenance).mpr
        ⟨hroute, Or.inl ⟨hidle, hloaded⟩⟩)).2
  · intro h
    refine ⟨fun hmode => ?_, fun hmode => ?_, fun hmode => ?_, fun _ _ _ _ hsame =>
      runtimeMode_withLists hobserved hmaintenance hsame⟩
    · obtain ⟨hquiet, hidle, hloaded⟩ :=
        (runtimeMode_gpuIdleLlm_iff hobserved hmaintenance).mp hmode
      exact ⟨by_contra fun hother => h (.otherService hquiet hidle hloaded hother), hquiet⟩
    · obtain ⟨hany, hquiet⟩ := runtimeMode_generationLoaded hobserved hmaintenance hmode
      exact ⟨any_eq_true.mp hany, hquiet⟩
    · obtain ⟨hroute, ⟨hidle, hloaded⟩ | ⟨hquiet, hidle, hloaded⟩⟩ :=
        (runtimeMode_cpuOnly_iff hobserved hmaintenance).mp hmode
      · exact ⟨hloaded, by_contra fun hbundles => h (.bundles hidle hloaded hroute hbundles)⟩
      · exact (h (.noIdleService hquiet hidle hloaded hroute)).elim

end Proofs

def plainNames : PyValues ℚ :=
  ⟨fun _ => none, fun _ => .ok 0, fun _ => none, fun _ => [], fun _ => false⟩

/-- The idle service is disabled, and another one is loaded. -/
def displacedIdle : SemanticSnapshot ℚ where
  configuredIdleService := text "llm.service"
  disabledServiceNames := [text "llm.service"]
  loadedRuntimeServices := [text "generation.service"]
  llmRouteAvailable := true
  observedAt := 1

/-- The mode of `displacedIdle` says that the idle service is loaded, and another one is. -/
theorem displacedIdle_not_meant :
    ¬ ∀ (py : PyValues ℚ) (other : CodePoint → PyStr) (now : ℚ) (snap : SemanticSnapshot ℚ),
      0 < snap.observedAt → snap.maintenanceMode = false → Meant py other now snap := by
  intro h
  have hmeant := h plainNames (fun c => [c]) 1 displacedIdle (by decide) rfl
  exact absurd (hmeant.gpuIdleLlm rfl).1 (by decide)

def bundleOf (services : List String) : Bundle ℚ :=
  [(text "gpu_id", .str (text "gpu0")),
    (text "services", .arr (services.map fun name => .str (text name)))]

def idleLoaded : SemanticSnapshot ℚ where
  configuredIdleService := text "llm.service"
  enabledServiceNames := [text "llm.service", text "image.service"]
  loadedRuntimeServices := [text "llm.service"]
  loadedRuntimeBundles := [bundleOf ["llm.service", "llm.service"]]
  llmRouteAvailable := true
  observedAt := 1

/-- A bundle has taken the place of the idle service. -/
def generating : SemanticSnapshot ℚ :=
  { idleLoaded with
    loadedRuntimeServices := [text "image.service"]
    loadedRuntimeBundles := [bundleOf ["image.service", "llm.service"]]
    generationRouteAvailable := true }

/-- The idle service is disabled, and the CPU answers. -/
def onCpu : SemanticSnapshot ℚ :=
  { idleLoaded with
    disabledServiceNames := [text "llm.service"]
    loadedRuntimeServices := []
    loadedRuntimeBundles := []
    llmRouteAvailable := false
    cpuFallbackAvailable := true }

/-- Snapshots that report each of the three modes, which mean what they say. -/
theorem meant_threeModes :
    (runtimeMode plainNames (fun c => [c]) 1 idleLoaded = some .gpuIdleLlm ∧
      Meant plainNames (fun c => [c]) 1 idleLoaded) ∧
    (runtimeMode plainNames (fun c => [c]) 1 generating = some .generationLoaded ∧
      Meant plainNames (fun c => [c]) 1 generating) ∧
    runtimeMode plainNames (fun c => [c]) 1 onCpu = some .cpuOnly ∧
      Meant plainNames (fun c => [c]) 1 onCpu := by
  refine ⟨⟨by rfl, (meant_iff_not_glossed (by decide) rfl).mpr ?_⟩,
    ⟨by rfl, (meant_iff_not_glossed (by decide) rfl).mpr ?_⟩,
    by rfl, (meant_iff_not_glossed (by decide) rfl).mpr ?_⟩
  · rintro (⟨-, -, -, hother⟩ | ⟨-, hidle⟩ | ⟨-, hloaded⟩)
    · exact hother (by decide)
    · exact absurd hidle (by decide)
    · exact absurd hloaded (by decide)
  · rintro (⟨hquiet⟩ | ⟨-, hidle⟩ | ⟨-, hloaded⟩)
    · exact absurd (Option.some.inj hquiet.generation) (by decide)
    · exact absurd hidle (by decide)
    · exact absurd hloaded (by decide)
  · rintro (⟨-, -, hloaded⟩ | ⟨-, hidle⟩ | ⟨-, -, -, hbundles⟩)
    · exact hloaded rfl
    · exact absurd hidle (by decide)
    · exact hbundles rfl
end GpuManager.Runtime
