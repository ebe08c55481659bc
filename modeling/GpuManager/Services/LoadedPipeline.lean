import GpuManager.Services.Loader

/-!
# What a loaded pipeline has passed

One lemma for each step of the loader.

* `loadDraft_ok`: the stages have distinct keys, allowed kinds, registered providers and walked
  parameters; the bounds hold; every dependency is a stage.
* `loadServicePipeline_ok`: the graph of a loaded pipeline was accepted.
-/

namespace GpuManager.Services

open PyStr List

variable {F : Type} [DecidableEq F] (py : PyValues F) {seenIds : List (Key F)} {α β : Type}

/-! ## Checks in a row -/

variable {kind : ErrorKind}

theorem require_ok_iff {condition : Bool} {message : PyStr} :
    require condition kind message = .ok () ↔ condition = true := by
  unfold require raise
  cases condition <;> simp

variable {check : Checked α} {b : β}

theorem toOption_eq_some_iff {a : α} :
    check.toOption = some a ↔ check = .ok a := by
  cases check <;> simp [Except.toOption]

theorem bind_ok_iff {next : α → Checked β} :
    (check >>= next) = .ok b ↔ ∃ a, check = .ok a ∧ next a = .ok b := by
  cases check with
  | error e | ok a => simp [bind, Except.bind]

theorem bind_unit_ok_iff {check : Checked Unit} {next : Unit → Checked β} :
    (check >>= next) = .ok b ↔ check = .ok () ∧ next () = .ok b := by
  rw [bind_ok_iff]
  exact ⟨fun ⟨(), h⟩ => h, fun h => ⟨(), h⟩⟩

/-! ## Stages -/

/-- What a stage has passed. -/
structure LoadedStage (registry : List PyStr) (stage : Stage F) : Prop where
  kind : stage.kind ∈ closedKinds
  provider : stage.provider ∈ registry
  hashed : (py.key? stage.id).isSome = true
  walked : walkParams py (py.strOf stage.id) stage.params = .ok ()

variable {py} {registry : List PyStr} {data : Json F} {stages : List (Stage F)}

omit [DecidableEq F] in
theorem resolveProvider_ok {provider : Json F} {name : PyStr}
    (h : resolveProvider py provider registry = .ok name) :
    provider = .str name ∧ name ∈ registry := by
  unfold resolveProvider at h
  obtain ⟨-, -, h⟩ := bind_ok_iff.mp h
  split at h
  · rename_i found hfound
    obtain rfl := Except.ok.inj h
    obtain ⟨hstr, hmem⟩ := Option.filter_eq_some_iff.mp hfound
    cases provider <;> simp_all [Json.str?]
  · cases h

/-- A stage that loads is well formed and has a new id. -/
theorem loadStage_ok {entry : Json F} {stage : Stage F}
    (h : loadStage py registry seenIds entry = .ok stage) :
    LoadedStage py registry stage ∧ py.keyOf stage.id ∉ seenIds := by
  unfold loadStage at h
  obtain ⟨-, h⟩ := bind_unit_ok_iff.mp h
  obtain ⟨-, h⟩ := bind_unit_ok_iff.mp h
  obtain ⟨key, hkey, h⟩ := bind_ok_iff.mp h
  obtain ⟨hnew, h⟩ := bind_unit_ok_iff.mp h
  obtain ⟨-, -, h⟩ := bind_ok_iff.mp h
  have hhash : py.key? (entry.get "id") = some key := by
    unfold PyValues.hash at hkey
    split at hkey
    · rename_i found hfound
      exact Except.ok.inj hkey ▸ hfound
    · cases hkey
  split at h
  · cases h
  rename_i kind hkind
  obtain ⟨provider, hprovider, h⟩ := bind_ok_iff.mp h
  split at h
  case h_2 => cases h
  split at h
  case h_2 => cases h
  obtain ⟨hwalked, h⟩ := bind_unit_ok_iff.mp h
  obtain rfl := Except.ok.inj h
  refine ⟨⟨?_, (resolveProvider_ok hprovider).2, ?_, hwalked⟩, ?_⟩
  · exact of_decide_eq_true (Option.filter_eq_some_iff.mp hkind).2
  · rw [hhash]
    rfl
  · unfold PyValues.keyOf
    rw [hhash]
    exact of_decide_eq_true (require_ok_iff.mp hnew)

/-- The stages that were loaded, and their keys. -/
theorem loadStages_ok {entries : List (Json F)}
    (hseen : seenIds.Nodup) (h : loadStages py registry seenIds entries = .ok stages) :
    (∀ stage ∈ stages, LoadedStage py registry stage) ∧
      (seenIds ++ stages.map fun s => py.keyOf s.id).Nodup := by
  induction entries generalizing seenIds stages with
  | nil =>
    obtain rfl := Except.ok.inj h
    exact ⟨fun _ hstage => (by cases hstage), by simpa using hseen⟩
  | cons entry entries ih =>
    obtain ⟨stage, hstage, h⟩ := bind_ok_iff.mp h
    obtain ⟨rest, hrest, h⟩ := bind_ok_iff.mp h
    obtain rfl := Except.ok.inj h
    obtain ⟨hloaded, hnew⟩ := loadStage_ok hstage
    have hnodup : (seenIds ++ [py.keyOf stage.id]).Nodup := by
      refine nodup_append.mpr ⟨hseen, nodup_singleton _, fun a ha b hb heq => hnew ?_⟩
      rwa [← mem_singleton.mp hb, ← heq]
    obtain ⟨hall, hkeys⟩ := ih hnodup hrest
    refine ⟨forall_mem_cons.mpr ⟨hloaded, hall⟩, ?_⟩
    rw [append_assoc] at hkeys
    exact hkeys

/-! ## Pipelines -/

/-- What a draft has passed. -/
structure LoadedDraft (py : PyValues F) (registry : List PyStr) (draft : Draft F) : Prop where
  stage : ∀ stage ∈ draft.stages, LoadedStage py registry stage
  nodup : (draft.stages.map fun s => py.keyOf s.id).Nodup
  maxRetries : 0 ≤ draft.maxRetries ∧ draft.maxRetries ≤ retryBound
  maxLoopCount : 0 ≤ draft.maxLoopCount ∧ draft.maxLoopCount ≤ loopBound
  known : ∀ stage ∈ draft.stages, ∀ dep ∈ stage.deps py,
    ∃ other ∈ draft.stages, py.keyOf other.id = dep

/-- The stages by their keys. -/
theorem stageMap_eq (hnodup : (stages.map fun s => py.keyOf s.id).Nodup) :
    stageMap py stages = stages.map fun s => (py.keyOf s.id, s) := by
  have hfold : stageMap py stages =
      (stages.map fun s => (py.keyOf s.id, s)).foldl (fun d e => PyDict.set d e.1 e.2) [] := by
    rw [foldl_map]
    rfl
  rw [hfold, PyDict.foldl_set]
  · rfl
  · rw [nil_append, map_map]
    exact hnodup

theorem checkKnown_ok {stageIds : List (Key F)} (h : checkKnown py stageIds stages = .ok ()) :
    ∀ stage ∈ stages, ∀ dep ∈ stage.deps py, dep ∈ stageIds := by
  have hdependencies : ∀ (stage : Stage F) (dependencies : List (Json F)),
      checkDependencies py stageIds stage dependencies = .ok () →
        ∀ dep ∈ dependencies.map py.keyOf, dep ∈ stageIds := by
    intro stage dependencies h
    induction dependencies with
    | nil => exact fun _ hdep => (by cases hdep)
    | cons dependency dependencies ih =>
      obtain ⟨hfirst, hrest⟩ := bind_unit_ok_iff.mp h
      refine forall_mem_cons.mpr ⟨?_, ih hrest⟩
      obtain ⟨key, hkey, hmem⟩ := bind_ok_iff.mp hfirst
      unfold PyValues.hash at hkey
      split at hkey
      · rename_i found hfound
        obtain rfl := Except.ok.inj hkey
        unfold PyValues.keyOf
        rw [hfound]
        exact of_decide_eq_true (require_ok_iff.mp hmem)
      · cases hkey
  induction stages with
  | nil => exact fun _ hstage => (by cases hstage)
  | cons stage stages ih =>
    obtain ⟨hfirst, hrest⟩ := bind_unit_ok_iff.mp h
    exact forall_mem_cons.mpr ⟨hdependencies stage _ hfirst, ih hrest⟩

omit [DecidableEq F] in
theorem loadBound_ok {field : String} {default bound n : ℤ}
    (h : loadBound py data field default bound kind = .ok n) : 0 ≤ n ∧ n ≤ bound := by
  unfold loadBound at h
  split at h
  · cases h
  obtain ⟨hbound, h⟩ := bind_unit_ok_iff.mp h
  obtain ⟨hpos, h⟩ := bind_unit_ok_iff.mp h
  obtain rfl := Except.ok.inj h
  exact ⟨of_decide_eq_true (require_ok_iff.mp hpos), of_decide_eq_true (require_ok_iff.mp hbound)⟩

/-- **A draft** has passed the checks before the cycle check. -/
theorem loadDraft_ok {draft : Draft F} (h : loadDraft py registry data = .ok draft) :
    LoadedDraft py registry draft := by
  unfold loadDraft at h
  obtain ⟨-, h⟩ := bind_unit_ok_iff.mp h
  obtain ⟨-, h⟩ := bind_unit_ok_iff.mp h
  obtain ⟨-, h⟩ := bind_unit_ok_iff.mp h
  obtain ⟨-, h⟩ := bind_unit_ok_iff.mp h
  split at h
  case h_2 => cases h
  case h_3 => cases h
  case h_4 => cases h
  case h_1 entries hentries =>
    obtain ⟨stages, hstages, h⟩ := bind_ok_iff.mp h
    obtain ⟨maxRetries, hretries, h⟩ := bind_ok_iff.mp h
    obtain ⟨maxLoopCount, hloops, h⟩ := bind_ok_iff.mp h
    obtain ⟨-, h⟩ := bind_unit_ok_iff.mp h
    obtain ⟨hknown, h⟩ := bind_unit_ok_iff.mp h
    obtain rfl := Except.ok.inj h
    obtain ⟨hall, hnodup⟩ := loadStages_ok nodup_nil hstages
    refine ⟨hall, hnodup, loadBound_ok hretries, loadBound_ok hloops, ?_⟩
    intro stage hstage dep hdep
    have hmem := checkKnown_ok hknown stage hstage dep hdep
    rw [stageMap_eq hnodup, map_map] at hmem
    obtain ⟨other, hother, rfl⟩ := mem_map.mp hmem
    exact ⟨other, hother, rfl⟩

/-- **A loaded pipeline** comes from a draft whose graph was accepted. -/
theorem loadServicePipeline_ok {pipeline : ServicePipeline F}
    (h : loadServicePipeline py registry data = .ok pipeline) :
    ∃ draft, loadDraft py registry data = .ok draft ∧ pipeline.stages = draft.stages ∧
      pipeline.maxRetries = draft.maxRetries ∧ pipeline.maxLoopCount = draft.maxLoopCount ∧
      (∀ cycle ∈ detectCycle py (stageMap py draft.stages), cycle = []) ∧
      checkCorrectionLoop py draft.stages = .ok () := by
  obtain ⟨draft, hdraft, h⟩ := bind_ok_iff.mp h
  obtain ⟨hcycle, h⟩ := bind_unit_ok_iff.mp h
  obtain ⟨hcorrection, h⟩ := bind_unit_ok_iff.mp h
  split at h
  case h_2 => cases h
  case h_1 =>
    obtain ⟨loops, -, h⟩ := bind_ok_iff.mp h
    obtain ⟨-, h⟩ := bind_unit_ok_iff.mp h
    obtain rfl := Except.ok.inj h
    refine ⟨draft, hdraft, rfl, rfl, rfl, fun cycle hmem => ?_, hcorrection⟩
    unfold checkAcyclic at hcycle
    rw [Option.mem_def.mp hmem] at hcycle
    exact isEmpty_iff.mp (require_ok_iff.mp hcycle)

/-- Strings and integers as they are; nothing else is met. -/
def plainValues : PyValues Unit where
  integer _ := none
  trunc _ := .error .valueError
  parse _ := none
  str _ := []
  alnum _ := false

end GpuManager.Services
