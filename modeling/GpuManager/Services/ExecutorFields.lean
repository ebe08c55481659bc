import Mathlib.Data.List.Induction
import GpuManager.Services.CompiledPlan

/-!
# Who executes

The compiler spreads the parameters of a stage into one dictionary between the fields of its own:
after the provider, and before the bounds.

* `setting`: what a stage sets a field to, and `lastSetting`: what the last stage that sets it does.
* `get?_postGenerate`: the field of the compiled configuration is the last setting.
* `executors_kept_iff`: when the parameters change neither who executes nor what a qc stage set.
-/

namespace GpuManager.Services

open PyStr PyDict SubConfigs List

variable {F : Type}

/-! ## Settings -/

/-- The fields of the compiler before the parameters of a stage. -/
def headFields (stage : Stage F) : Dict F :=
  [(text "enabled", .bool true), (text "kind", .str stage.kind),
    (text (if stage.kind = text "qc" then "provider" else "correction_provider"),
      .str stage.provider)]

/-- The fields of the compiler after the parameters of a stage. -/
def tailFields (pipeline : ServicePipeline F) (stage : Stage F) : Dict F :=
  [(text "max_corrections", .int pipeline.maxLoopCount),
    (text "retries", stage.retriesOr pipeline.maxRetries)]

/-- What a stage sets a field to. -/
def setting (pipeline : ServicePipeline F) (stage : Stage F) (field : PyStr) : Option (Json F) :=
  ((tailFields pipeline stage).get? field).or
    ((get? stage.params field).or ((headFields stage).get? field))

/-- What the last of the stages that set a field sets it to. -/
def lastSetting (pipeline : ServicePipeline F) (stages : List (Stage F)) (field : PyStr) :
    Option (Json F) :=
  stages.foldl (fun found stage => (setting pipeline stage field).or found) none

/-- The qc and the correct stages. -/
def postStages (stages : List (Stage F)) : List (Stage F) :=
  stages.filter fun s => s.kind = text "qc" ∨ s.kind = text "correct"

/-- The last stage of a kind. -/
def lastOf (kind : String) (stages : List (Stage F)) : Option (Stage F) :=
  (stages.filter fun s => s.kind = text kind).getLast?

/-- A stage without its parameters, if it is a correct stage. -/
def bare (stage : Stage F) : Stage F :=
  if stage.kind = text "correct" then { stage with params := [] } else stage

/-- The pipeline without the parameters of its correct stages. -/
def ServicePipeline.bare (pipeline : ServicePipeline F) : ServicePipeline F :=
  { pipeline with stages := pipeline.stages.map Services.bare }

/-- Parameters have distinct keys. -/
def DistinctParams (stages : List (Stage F)) : Prop :=
  ∀ stage ∈ stages, (stage.params.map (·.1)).Nodup

variable {pipeline : ServicePipeline F} {stage : Stage F} {stages : List (Stage F)} {field : PyStr}

/-! ## Merging -/

theorem get?_merge {d d' : Dict F} (hnodup : (d'.map (·.1)).Nodup) :
    (Dict.merge d d').get? field = (get? d' field).or (d.get? field) := by
  induction d' generalizing d with
  | nil => rfl
  | cons e d' ih =>
    obtain ⟨hout, hnodup⟩ := nodup_cons.mp hnodup
    show (Dict.merge (d.set e.1 e.2) d').get? field = _
    rw [ih hnodup, get?_cons, get?_set]
    by_cases hfield : field = e.1
    · subst hfield
      have hnone : get? d' e.1 = none := by
        rw [← Option.not_isSome_iff_eq_none, get?_isSome]
        exact hout
      rw [if_pos rfl, if_pos rfl, hnone]
      rfl
    · rw [if_neg hfield, if_neg (Ne.symm hfield)]

/-- **A stage** sets the fields of the configuration, and keeps the others. -/
theorem get?_postGenerateConfig {config : Option (Dict F)} {providerField : String}
    (hparams : (stage.params.map (·.1)).Nodup)
    (hfield : providerField =
      if stage.kind = text "qc" then "provider" else "correction_provider") :
    (postGenerateConfig pipeline providerField stage config).get? field =
      (setting pipeline stage field).or ((config.getD []).get? field) := by
  have htail : ((tailFields pipeline stage).map (·.1)).Nodup := by
    show (["max_corrections", "retries"].map text).Nodup
    decide
  have hhead : ((headFields stage).map (·.1)).Nodup := by
    show [text "enabled", text "kind",
      text (if stage.kind = text "qc" then "provider" else "correction_provider")].Nodup
    split <;> decide
  subst hfield
  show (Dict.merge (Dict.merge (Dict.merge (config.getD []) (headFields stage)) stage.params)
    (tailFields pipeline stage)).get? field = _
  rw [get?_merge htail, get?_merge hparams, get?_merge hhead, setting, Option.or_assoc,
    Option.or_assoc]

/-! ## The last setting -/

theorem lastSetting_append :
    lastSetting pipeline (stages ++ [stage]) field =
      (setting pipeline stage field).or (lastSetting pipeline stages field) := by
  unfold lastSetting
  rw [foldl_append]
  rfl

variable {before after : List (Stage F)} {kind : String}

theorem lastSetting_of_unset (hafter : ∀ s ∈ after, setting pipeline s field = none) :
    lastSetting pipeline (before ++ after) field = lastSetting pipeline before field := by
  induction after using List.reverseRecOn with
  | nil => rw [append_nil]
  | append_singleton after s ih =>
    rw [← append_assoc, lastSetting_append, hafter s (by simp), Option.none_or]
    exact ih fun t ht => hafter t (mem_append_left _ ht)

/-- Either no stage sets a field, or there is a last one that does. -/
theorem lastSetting_cases (pipeline : ServicePipeline F) (stages : List (Stage F)) (field : PyStr) :
    (lastSetting pipeline stages field = none ∧
      ∀ s ∈ stages, setting pipeline s field = none) ∨
    ∃ before s after v, stages = before ++ s :: after ∧ setting pipeline s field = some v ∧
      (∀ t ∈ after, setting pipeline t field = none) ∧
      lastSetting pipeline stages field = some v := by
  induction stages using List.reverseRecOn with
  | nil => exact Or.inl ⟨rfl, fun _ h => (by cases h)⟩
  | append_singleton stages stage ih =>
    rw [lastSetting_append]
    cases hset : setting pipeline stage field with
    | some v =>
      exact Or.inr ⟨stages, stage, [], v, rfl, hset, fun _ h => (by cases h), rfl⟩
    | none =>
      rw [Option.none_or]
      rcases ih with ⟨hnone, hall⟩ | ⟨before, s, after, v, rfl, hs, hafter, hlast⟩
      · refine Or.inl ⟨hnone, fun s hs => ?_⟩
        rcases mem_append.mp hs with hs | hs
        · exact hall s hs
        · rw [mem_singleton.mp hs]
          exact hset
      · refine Or.inr ⟨before, s, after ++ [stage], v, by simp, hs, fun t ht => ?_, hlast⟩
        rcases mem_append.mp ht with ht | ht
        · exact hafter t ht
        · rw [mem_singleton.mp ht]
          exact hset

/-- The last setting is what the stage sets that nobody sets after. -/
theorem lastSetting_eq {v : Json F} (hset : setting pipeline stage field = some v)
    (hafter : ∀ s ∈ after, setting pipeline s field = none) :
    lastSetting pipeline (before ++ stage :: after) field = some v := by
  rw [append_cons, lastSetting_of_unset hafter, lastSetting_append, hset, Option.some_or]

/-! ## The configurations -/

theorem lastOf_append (kind : String) : lastOf kind (stages ++ [stage]) =
    if stage.kind = text kind then some stage else lastOf kind stages := by
  unfold lastOf
  rw [filter_append]
  by_cases hkind : stage.kind = text kind <;> simp [hkind]

theorem postStages_append : postStages (stages ++ [stage]) =
    if stage.kind = text "qc" ∨ stage.kind = text "correct" then postStages stages ++ [stage]
    else postStages stages := by
  unfold postStages
  rw [filter_append]
  by_cases hkind : stage.kind = text "qc" ∨ stage.kind = text "correct"
  · simp [hkind]
  · rw [if_neg hkind]
    simp [not_or.mp hkind]

/-- **The loop** over the stages keeps the last prompt enhancement and the last settings. -/
theorem subConfigs_spec (pipeline : ServicePipeline F) (hdistinct : DistinctParams stages) :
    (stages.foldl (add pipeline) {}).promptEnhance =
        (lastOf "prompt_enhance" stages).map enhanceConfig ∧
      ((stages.foldl (add pipeline) {}).postGenerate.isSome = true ↔
        postStages stages ≠ []) ∧
      ∀ field, ((stages.foldl (add pipeline) {}).postGenerate.getD []).get? field =
        lastSetting pipeline (postStages stages) field := by
  induction stages using List.reverseRecOn with
  | nil => exact ⟨rfl, by simp [postStages], fun _ => rfl⟩
  | append_singleton stages stage ih =>
    obtain ⟨henhance, hsome, hfields⟩ := ih fun s hs => hdistinct s (mem_append_left _ hs)
    have hparams := hdistinct stage (by simp)
    rw [foldl_append, lastOf_append, postStages_append]
    generalize stages.foldl (add pipeline) {} = cfg at henhance hsome hfields ⊢
    show (add pipeline cfg stage).promptEnhance = _ ∧
      ((add pipeline cfg stage).postGenerate.isSome = true ↔ _) ∧
      ∀ field, ((add pipeline cfg stage).postGenerate.getD []).get? field = _
    unfold add
    by_cases hprompt : stage.kind = text "prompt_enhance"
    · have hqc : text "prompt_enhance" ≠ text "qc" := by decide
      have hcorrect : text "prompt_enhance" ≠ text "correct" := by decide
      simp only [hprompt, hqc, hcorrect, if_true, or_self, if_false]
      exact ⟨rfl, hsome, hfields⟩
    · rw [if_neg hprompt, if_neg hprompt]
      by_cases hqc : stage.kind = text "qc"
      · rw [if_pos hqc, if_pos (Or.inl hqc)]
        refine ⟨henhance, by simp, fun field => ?_⟩
        rw [lastSetting_append, ← hfields field]
        exact get?_postGenerateConfig hparams (by rw [if_pos hqc])
      · rw [if_neg hqc]
        by_cases hcorrect : stage.kind = text "correct"
        · rw [if_pos hcorrect, if_pos (Or.inr hcorrect)]
          refine ⟨henhance, by simp, fun field => ?_⟩
          rw [lastSetting_append, ← hfields field]
          exact get?_postGenerateConfig hparams (by rw [if_neg hqc])
        · rw [if_neg hcorrect, if_neg (not_or.mpr ⟨hqc, hcorrect⟩)]
          exact ⟨henhance, hsome, hfields⟩

/-! ## Statement -/

/-- The fields of the plan that say who executes are those of the last stages of their kind and
registered, the bound is that of the pipeline, and what the parameters of a qc stage set is what it
would be if the correct stages had no parameters. -/
structure ExecutorsKept (registry : List PyStr) (pipeline : ServicePipeline F)
    (plan : WorkerPipeline F) : Prop where
  enhance : ∀ cfg ∈ plan.promptEnhance, get? cfg (text "provider") =
    (lastOf "prompt_enhance" pipeline.stages).map fun s => .str s.provider
  provider : ∀ cfg ∈ plan.postGenerate, get? cfg (text "provider") =
    (lastOf "qc" pipeline.stages).map fun s => .str s.provider
  correction : ∀ cfg ∈ plan.postGenerate, get? cfg (text "correction_provider") =
    (lastOf "correct" pipeline.stages).map fun s => .str s.provider
  registered : ∀ v, (∃ cfg ∈ plan.promptEnhance, get? cfg (text "provider") = some v) ∨
    (∃ cfg ∈ plan.postGenerate, get? cfg (text "provider") = some v ∨
      get? cfg (text "correction_provider") = some v) → ∃ name ∈ registry, v = .str name
  corrections : ∀ cfg ∈ plan.postGenerate,
    get? cfg (text "max_corrections") = some (.int pipeline.maxLoopCount)
  untouched : ∀ cfg ∈ plan.postGenerate, ∀ q ∈ pipeline.stages, q.kind = text "qc" →
    ∀ field, (get? q.params field).isSome = true →
      get? cfg field = get? ((subConfigs pipeline.bare).postGenerate.getD []) field

/-- Of the qc and correct stages, one has a parameter that no later one sets again. -/
def LastWord (pipeline : ServicePipeline F) (before : List (Stage F)) (s : Stage F)
    (field : PyStr) (v : Json F) : Prop :=
  get? s.params field = some v ∧ ∃ after, postStages pipeline.stages = before ++ s :: after ∧
    ∀ t ∈ after, setting pipeline t field = none

/-- The parameters that have the last word on a provider name the right one, and where those of a
correct stage have it on a parameter of a qc stage, they say what it was before. -/
structure ParamsApart (pipeline : ServicePipeline F) : Prop where
  enhance : ∀ s, lastOf "prompt_enhance" pipeline.stages = some s →
    ∀ v, get? s.params (text "provider") = some v → v = .str s.provider
  provider : ∀ before s v, LastWord pipeline before s (text "provider") v →
    (lastOf "qc" pipeline.stages).map (fun s => .str s.provider) = some v
  correction : ∀ before s v, LastWord pipeline before s (text "correction_provider") v →
    (lastOf "correct" pipeline.stages).map (fun s => .str s.provider) = some v
  shared : ∀ q ∈ pipeline.stages, q.kind = text "qc" →
    ∀ field, (get? q.params field).isSome = true →
      field ∉ [text "max_corrections", text "retries"] →
      ∀ before s v, s.kind = text "correct" → LastWord pipeline before s field v →
        lastSetting pipeline ((before ++ [s]).map bare) field = some v

/-! ## The providers -/

theorem get?_tailFields (hfield : field ∉ [text "max_corrections", text "retries"]) :
    (tailFields pipeline stage).get? field = none := by
  rw [← Option.not_isSome_iff_eq_none, get?_isSome]
  exact hfield

theorem setting_of_notMem (hfield : field ∉ [text "max_corrections", text "retries"]) :
    setting pipeline stage field =
      (get? stage.params field).or ((headFields stage).get? field) := by
  rw [setting, get?_tailFields hfield, Option.none_or]

theorem get?_headFields (hfield : field ∉ [text "enabled", text "kind"]) :
    (headFields stage).get? field =
      if field = text (if stage.kind = text "qc" then "provider" else "correction_provider") then
        some (.str stage.provider)
      else none := by
  have henabled : text "enabled" ≠ field := fun h => hfield (by simp [← h])
  have hkind : text "kind" ≠ field := fun h => hfield (by simp [← h])
  rw [headFields, get?_cons, get?_cons, get?_cons, if_neg henabled,
    if_neg hkind, get?_nil]
  simp only [eq_comm]

theorem lastOf_of_last (hkind : stage.kind = text kind) (hafter : ∀ s ∈ after, s.kind ≠ text kind) :
    lastOf kind (before ++ stage :: after) = some stage := by
  have hnone : after.filter (fun s => s.kind = text kind) = [] := by
    rw [filter_eq_nil_iff]
    exact fun s hs => by simpa using hafter s hs
  unfold lastOf
  rw [filter_append, filter_cons_of_pos (by simpa using hkind), hnone]
  simp

theorem lastOf_of_none (h : ∀ s ∈ stages, s.kind ≠ text kind) : lastOf kind stages = none := by
  have hnone : stages.filter (fun s => s.kind = text kind) = [] := by
    rw [filter_eq_nil_iff]
    exact fun s hs => by simpa using h s hs
  rw [lastOf, hnone]
  rfl

theorem lastOf_postStages (hkind : kind = "qc" ∨ kind = "correct") :
    lastOf kind (postStages stages) = lastOf kind stages := by
  unfold lastOf postStages
  rw [filter_filter]
  congr 1
  refine filter_congr fun s _ => ?_
  rcases hkind with rfl | rfl
  · by_cases h : s.kind = text "qc" <;> simp [h]
  · by_cases h : s.kind = text "correct" <;> simp [h]

/-- **A provider** of the configuration is that of the last stage of its kind exactly when the
parameters that have the last word on it say so. -/
theorem executor_iff (hkind : kind = "qc" ∨ kind = "correct")
    (hsetting : ∀ s ∈ postStages pipeline.stages, setting pipeline s field =
      (get? s.params field).or
        (if s.kind = text kind then some (.str s.provider) else none)) :
    lastSetting pipeline (postStages pipeline.stages) field =
        (lastOf kind pipeline.stages).map (fun s => .str s.provider) ↔
      ∀ before s v, LastWord pipeline before s field v →
        (lastOf kind pipeline.stages).map (fun s => .str s.provider) = some v := by
  constructor
  · rintro h before s v ⟨hparam, after, heq, hafter⟩
    rw [← h, heq]
    refine lastSetting_eq ?_ hafter
    rw [hsetting s (heq ▸ by simp), hparam, Option.some_or]
  · intro h
    rw [← lastOf_postStages hkind] at h ⊢
    rcases lastSetting_cases pipeline (postStages pipeline.stages) field with
      ⟨hnone, hall⟩ | ⟨before, s, after, v, heq, hset, hafter, hlast⟩
    · rw [hnone, lastOf_of_none]
      · rfl
      · intro s hs hkindS
        have hset := hsetting s hs
        rw [hall s hs, if_pos hkindS] at hset
        cases hparam : get? s.params field <;> simp [hparam] at hset
    · rw [hlast]
      have hmem : ∀ t ∈ s :: after, t ∈ postStages pipeline.stages := fun t ht =>
        heq ▸ mem_append_right _ ht
      rw [hsetting s (hmem s mem_cons_self)] at hset
      cases hparam : get? s.params field with
      | some w =>
        rw [hparam, Option.some_or] at hset
        obtain rfl := Option.some.inj hset
        exact (h before s w ⟨hparam, after, heq, hafter⟩).symm
      | none =>
        rw [hparam, Option.none_or] at hset
        split at hset
        case isFalse => cases hset
        case isTrue hkindS =>
          obtain rfl := Option.some.inj hset
          rw [heq, lastOf_of_last hkindS]
          · rfl
          · intro t ht hkindT
            have hother := hafter t ht
            rw [hsetting t (hmem t (mem_cons_of_mem _ ht)), if_pos hkindT] at hother
            cases hparam : get? t.params field <;> simp [hparam] at hother

/-! ## The parameters of the qc stages -/

theorem setting_bare (h : stage.kind ≠ text "correct" ∨
      field ∈ [text "max_corrections", text "retries"] ∨ get? stage.params field = none) :
    setting pipeline (bare stage) field = setting pipeline stage field := by
  unfold bare
  split
  case isFalse => rfl
  case isTrue hkind =>
    have htail : tailFields pipeline { stage with params := [] } = tailFields pipeline stage := rfl
    have hhead : headFields { stage with params := [] } = headFields stage := rfl
    rw [setting, setting, htail, hhead, get?_nil, Option.none_or]
    rcases h with h | h | h
    · exact absurd hkind h
    · have hsome : ((tailFields pipeline stage).get? field).isSome = true :=
        get?_isSome.mpr h
      obtain ⟨v, hv⟩ := Option.isSome_iff_exists.mp hsome
      rw [hv, Option.some_or, Option.some_or]
    · rw [h, Option.none_or]

theorem setting_bare_none (h : setting pipeline stage field = none) :
    setting pipeline (bare stage) field = none := by
  rw [setting_bare (Or.inr (Or.inr ?_)), h]
  rw [setting, Option.or_eq_none_iff, Option.or_eq_none_iff] at h
  exact h.2.1

/-- **A field** is what it would be without the parameters of the correct stages exactly when, where
these have the last word on it, they say what it was before. -/
theorem untouched_iff :
    lastSetting pipeline (postStages pipeline.stages) field =
        lastSetting pipeline ((postStages pipeline.stages).map bare) field ↔
      (field ∉ [text "max_corrections", text "retries"] →
        ∀ before s v, s.kind = text "correct" → LastWord pipeline before s field v →
          lastSetting pipeline ((before ++ [s]).map bare) field = some v) := by
  have hrest : ∀ before s after, postStages pipeline.stages = before ++ s :: after →
      (∀ t ∈ after, setting pipeline t field = none) →
        lastSetting pipeline ((postStages pipeline.stages).map bare) field =
          lastSetting pipeline ((before ++ [s]).map bare) field := by
    intro before s after heq hafter
    rw [heq, append_cons, map_append]
    refine lastSetting_of_unset fun t ht => ?_
    obtain ⟨u, hu, rfl⟩ := mem_map.mp ht
    exact setting_bare_none (hafter u hu)
  constructor
  · rintro h hfield before s v hkind ⟨hparam, after, heq, hafter⟩
    rw [← hrest before s after heq hafter, ← h, heq]
    refine lastSetting_eq ?_ hafter
    rw [setting_of_notMem hfield, hparam, Option.some_or]
  · intro h
    rcases lastSetting_cases pipeline (postStages pipeline.stages) field with
      ⟨hnone, hall⟩ | ⟨before, s, after, v, heq, hset, hafter, hlast⟩
    · rw [hnone]
      refine (@lastSetting_of_unset _ pipeline field [] _ fun t ht => ?_).symm
      obtain ⟨u, hu, rfl⟩ := mem_map.mp ht
      exact setting_bare_none (hall u hu)
    · rw [hlast, hrest before s after heq hafter]
      by_cases hsame : s.kind ≠ text "correct" ∨
          field ∈ [text "max_corrections", text "retries"] ∨ get? s.params field = none
      · rw [map_append, map_singleton, lastSetting_append, setting_bare hsame, hset]
        rfl
      push Not at hsame
      obtain ⟨hkind, hfield, hsome⟩ := hsame
      obtain ⟨w, hw⟩ := Option.ne_none_iff_exists'.mp hsome
      rw [setting_of_notMem hfield, hw, Option.some_or] at hset
      obtain rfl := Option.some.inj hset
      exact (h hfield before s w hkind ⟨hw, after, heq, hafter⟩).symm

/-! ## The plan -/

theorem DistinctParams.bare (h : DistinctParams stages) : DistinctParams (stages.map bare) := by
  intro s hs
  obtain ⟨t, ht, rfl⟩ := mem_map.mp hs
  unfold Services.bare
  split
  · exact nodup_nil
  · exact h t ht

theorem postStages_bare : postStages (stages.map bare) = (postStages stages).map bare := by
  unfold postStages
  rw [filter_map]
  congr 1
  refine filter_congr fun s _ => ?_
  have hkind : (bare s).kind = s.kind := by
    unfold bare
    split <;> rfl
  simp only [Function.comp_apply, hkind]

theorem lastSetting_bare : lastSetting pipeline.bare stages field =
    lastSetting pipeline stages field := rfl

/-- The configuration of the plan has a field as the last stage that sets it does. -/
theorem get?_postGenerate (hdistinct : DistinctParams pipeline.stages) {cfg : Dict F}
    (h : (subConfigs pipeline).postGenerate = some cfg) :
    postStages pipeline.stages ≠ [] ∧
      ∀ field, get? cfg field = lastSetting pipeline (postStages pipeline.stages) field := by
  obtain ⟨-, hsome, hfields⟩ := subConfigs_spec pipeline hdistinct
  change ((subConfigs pipeline).postGenerate.isSome = true ↔ _) at hsome
  change ∀ field, ((subConfigs pipeline).postGenerate.getD []).get? field = _ at hfields
  rw [h] at hsome hfields
  exact ⟨hsome.mp rfl, hfields⟩

theorem qcProvider_iff :
    lastSetting pipeline (postStages pipeline.stages) (text "provider") =
        (lastOf "qc" pipeline.stages).map (fun s => .str s.provider) ↔
      ∀ before s v, LastWord pipeline before s (text "provider") v →
        (lastOf "qc" pipeline.stages).map (fun s => .str s.provider) = some v := by
  refine executor_iff (Or.inl rfl) fun s _ => ?_
  rw [setting_of_notMem (by decide), get?_headFields (by decide)]
  by_cases hqc : s.kind = text "qc"
  · rw [if_pos hqc, if_pos rfl, if_pos hqc]
  · rw [if_neg hqc, if_neg (by decide), if_neg hqc]

theorem correctProvider_iff :
    lastSetting pipeline (postStages pipeline.stages) (text "correction_provider") =
        (lastOf "correct" pipeline.stages).map (fun s => .str s.provider) ↔
      ∀ before s v, LastWord pipeline before s (text "correction_provider") v →
        (lastOf "correct" pipeline.stages).map (fun s => .str s.provider) = some v := by
  refine executor_iff (Or.inr rfl) fun s hs => ?_
  rw [setting_of_notMem (by decide), get?_headFields (by decide)]
  by_cases hqc : s.kind = text "qc"
  · have hne : s.kind ≠ text "correct" := by
      rw [hqc]
      decide
    rw [if_pos hqc, if_neg (by decide), if_neg hne]
  · have hkinds := of_decide_eq_true (mem_filter.mp hs).2
    rw [if_neg hqc, if_pos rfl, if_pos (hkinds.resolve_left hqc)]

theorem mem_of_lastOf {kind : String} {s : Stage F} (h : lastOf kind stages = some s) :
    s ∈ stages :=
  mem_of_mem_filter (mem_of_getLast? h)

namespace PlanOf

variable {plan : WorkerPipeline F} (hof : PlanOf pipeline plan)
  (hdistinct : DistinctParams pipeline.stages)
include hof hdistinct

theorem promptEnhance_eq :
    plan.promptEnhance = (lastOf "prompt_enhance" pipeline.stages).map enhanceConfig :=
  hof.promptEnhance.trans (subConfigs_spec pipeline hdistinct).1

/-- The provider of the enhancement is that of its stage, or its parameter of that name. -/
theorem enhanceProvider {cfg : Dict F} (hcfg : cfg ∈ plan.promptEnhance) :
    ∃ s, lastOf "prompt_enhance" pipeline.stages = some s ∧
      get? cfg (text "provider") = (get? s.params (text "provider")).or (some (.str s.provider)) := by
  rw [hof.promptEnhance_eq hdistinct] at hcfg
  obtain ⟨s, hs, rfl⟩ := Option.map_eq_some_iff.mp hcfg
  exact ⟨s, hs, get?_merge (hdistinct s (mem_of_lastOf hs))⟩

theorem enhance_iff :
    (∀ cfg ∈ plan.promptEnhance, get? cfg (text "provider") =
      (lastOf "prompt_enhance" pipeline.stages).map fun s => .str s.provider) ↔
    ∀ s, lastOf "prompt_enhance" pipeline.stages = some s →
      ∀ v, get? s.params (text "provider") = some v → v = .str s.provider := by
  constructor
  · intro h s hs v hv
    have hcfg : enhanceConfig s ∈ plan.promptEnhance := by
      rw [hof.promptEnhance_eq hdistinct, hs]
      rfl
    obtain ⟨t, ht, hprovider⟩ := hof.enhanceProvider hdistinct hcfg
    obtain rfl := Option.some.inj (hs.symm.trans ht)
    have hkept := h _ hcfg
    rw [hprovider, hv, hs, Option.some_or] at hkept
    exact Option.some.inj hkept
  · intro h cfg hcfg
    obtain ⟨s, hs, hprovider⟩ := hof.enhanceProvider hdistinct hcfg
    rw [hprovider, hs]
    cases hv : get? s.params (text "provider") with
    | none => rfl
    | some v => exact congrArg some (h s hs v hv)

/-- The configuration has each field as the last stage that sets it does. -/
theorem get?_field {cfg : Dict F} (hcfg : cfg ∈ plan.postGenerate) (field : PyStr) :
    get? cfg field = lastSetting pipeline (postStages pipeline.stages) field :=
  (get?_postGenerate hdistinct (hof.postGenerate ▸ hcfg)).2 field

/-- A stage whose parameter has the last word makes a configuration. -/
theorem config_of_lastWord {before : List (Stage F)} {s : Stage F} {field : PyStr} {v : Json F}
    (h : LastWord pipeline before s field v) : ∃ cfg, cfg ∈ plan.postGenerate := by
  obtain ⟨-, after, heq, -⟩ := h
  have hsome := (subConfigs_spec pipeline hdistinct).2.1.mpr (by rw [heq]; simp)
  change (subConfigs pipeline).postGenerate.isSome = true at hsome
  rw [← hof.postGenerate] at hsome
  exact Option.isSome_iff_exists.mp hsome

/-- A field of the configuration is the provider of the last stage of a kind exactly when the
parameters that have the last word on it say so. -/
theorem provider_iff {field : PyStr} {provider : Option (Json F)}
    (hlast : lastSetting pipeline (postStages pipeline.stages) field = provider ↔
      ∀ before s v, LastWord pipeline before s field v → provider = some v) :
    (∀ cfg ∈ plan.postGenerate, get? cfg field = provider) ↔
      ∀ before s v, LastWord pipeline before s field v → provider = some v := by
  constructor
  · intro h before s v hword
    obtain ⟨cfg, hcfg⟩ := hof.config_of_lastWord hdistinct hword
    exact hlast.mp ((hof.get?_field hdistinct hcfg field).symm.trans (h cfg hcfg)) before s v hword
  · exact fun h cfg hcfg => (hof.get?_field hdistinct hcfg field).trans (hlast.mpr h)

/-- A field of the configuration is what it would be without the parameters of the correct stages
exactly when these leave it so. -/
theorem untouched_field_iff {cfg : Dict F} (hcfg : cfg ∈ plan.postGenerate) (field : PyStr) :
    get? cfg field = get? ((subConfigs pipeline.bare).postGenerate.getD []) field ↔
      (field ∉ [text "max_corrections", text "retries"] →
        ∀ before s v, s.kind = text "correct" → LastWord pipeline before s field v →
          lastSetting pipeline ((before ++ [s]).map Services.bare) field = some v) := by
  have hbare : get? ((subConfigs pipeline.bare).postGenerate.getD []) field =
      lastSetting pipeline ((postStages pipeline.stages).map Services.bare) field := by
    rw [← postStages_bare, ← lastSetting_bare]
    exact (subConfigs_spec pipeline.bare hdistinct.bare).2.2 field
  rw [hof.get?_field hdistinct hcfg, hbare]
  exact untouched_iff

/-- The bound of the configuration is that of the pipeline: it is set after the parameters. -/
theorem maxCorrections {cfg : Dict F} (hcfg : cfg ∈ plan.postGenerate) :
    get? cfg (text "max_corrections") = some (.int pipeline.maxLoopCount) := by
  rw [hof.get?_field hdistinct hcfg]
  have hposts := (get?_postGenerate hdistinct (hof.postGenerate ▸ hcfg)).1
  rcases lastSetting_cases pipeline (postStages pipeline.stages) (text "max_corrections") with
    ⟨-, hnone⟩ | ⟨before, s, after, v, -, hset, -, hlast⟩
  · obtain ⟨s, hs⟩ := exists_mem_of_ne_nil _ hposts
    cases hnone s hs
  · rw [hlast, ← hset]
    rfl

end PlanOf

/-- **Stage parameters** change neither who executes nor what a qc stage set, exactly when they are
apart: those that have the last word on a provider or on a parameter of a qc stage say what holds
without them. -/
theorem executors_kept_iff [DecidableEq F] (py : PyValues F)
    (revisionHash : ServicePipeline F → Checked PyStr) (serviceId : PyStr)
    (requestParams generationTemplates : Dict F) (registry : List PyStr) (plan : WorkerPipeline F)
    (pipelines : PyDict PyStr (ServicePipeline F)) (pipeline : ServicePipeline F)
    (hplan : compileGenerationPipeline py revisionHash serviceId requestParams generationTemplates
      registry = .ok plan)
    (hpipelines : loadServicePipelines py registry generationTemplates = .ok pipelines)
    (hpipeline : pipelines.get? serviceId = some pipeline)
    (hdistinct : DistinctParams pipeline.stages) :
    ExecutorsKept registry pipeline plan ↔ ParamsApart pipeline := by
  obtain ⟨_, _, hpipelines', hpipeline', hof, hregistered⟩ := compileGenerationPipeline_ok hplan
  obtain rfl := Except.ok.inj (hpipelines.symm.trans hpipelines')
  obtain rfl := Option.some.inj (hpipeline.symm.trans hpipeline')
  constructor
  · intro h
    constructor
    case enhance => exact (hof.enhance_iff hdistinct).mp h.enhance
    case provider => exact (hof.provider_iff hdistinct qcProvider_iff).mp h.provider
    case correction => exact (hof.provider_iff hdistinct correctProvider_iff).mp h.correction
    case shared =>
      intro q hq hqc field hparam hfield before s v hkind hword
      obtain ⟨cfg, hcfg⟩ := hof.config_of_lastWord hdistinct hword
      exact (hof.untouched_field_iff hdistinct hcfg field).mp
        (h.untouched cfg hcfg q hq hqc field hparam) hfield before s v hkind hword
  · intro h
    have henhance := (hof.enhance_iff hdistinct).mpr h.enhance
    have hqc := (hof.provider_iff hdistinct qcProvider_iff).mpr h.provider
    have hcorrect := (hof.provider_iff hdistinct correctProvider_iff).mpr h.correction
    have hname : ∀ {kind : String} {v : Json F},
        (lastOf kind pipeline.stages).map (fun s => .str s.provider) = some v →
          ∃ name ∈ registry, v = .str name := by
      intro kind v h
      obtain ⟨s, hs, rfl⟩ := Option.map_eq_some_iff.mp h
      exact ⟨s.provider, hregistered s (mem_of_lastOf hs), rfl⟩
    refine ⟨henhance, hqc, hcorrect, ?_, fun cfg => hof.maxCorrections hdistinct, ?_⟩
    · rintro v (⟨cfg, hcfg, hv⟩ | ⟨cfg, hcfg, hv | hv⟩)
      · exact hname ((henhance cfg hcfg).symm.trans hv)
      · exact hname ((hqc cfg hcfg).symm.trans hv)
      · exact hname ((hcorrect cfg hcfg).symm.trans hv)
    · intro cfg hcfg q hq hqcKind field hparam
      exact (hof.untouched_field_iff hdistinct hcfg field).mpr fun hfield =>
        h.shared q hq hqcKind field hparam hfield

/-- Parameters are apart where none names a provider and no correct stage has one of a qc stage. -/
theorem paramsApart_of_separate
    (hprovider : ∀ s ∈ pipeline.stages, get? s.params (text "provider") = none ∧
      get? s.params (text "correction_provider") = none)
    (hshared : ∀ q ∈ pipeline.stages, q.kind = text "qc" → ∀ s ∈ pipeline.stages,
      s.kind = text "correct" → ∀ field ∈ q.params.map (·.1), get? s.params field = none) :
    ParamsApart pipeline := by
  have hmem : ∀ {before s field v}, LastWord pipeline before s field v → s ∈ pipeline.stages := by
    rintro before s field v ⟨-, after, heq, -⟩
    exact mem_of_mem_filter (heq ▸ mem_append_right _ mem_cons_self)
  constructor
  case enhance =>
    intro s hs v hv
    rw [(hprovider s (mem_of_lastOf hs)).1] at hv
    cases hv
  case provider =>
    intro before s v hword
    have hv := hword.1
    rw [(hprovider s (hmem hword)).1] at hv
    cases hv
  case correction =>
    intro before s v hword
    have hv := hword.1
    rw [(hprovider s (hmem hword)).2] at hv
    cases hv
  case shared =>
    intro q hq hqc field hparam _ before s v hkind hword
    have hv := hword.1
    rw [hshared q hq hqc s (hmem hword) hkind field (get?_isSome.mp hparam)] at hv
    cases hv

/-- A stage of a pipeline in which each follows the one before. -/
def stageOf (id kind provider : String) (after : List String) (param : PyStr) (value : String) :
    Json Unit :=
  .obj [(text "id", .str (text id)), (text "kind", .str (text kind)),
    (text "provider", .str (text provider)),
    (text "depends_on", .arr (after.map fun id => .str (text id))),
    (text "params", .obj [(param, .str (text value))])]

/-- The templates of one service with the given stages. -/
def templatesOf (stages : List (Json Unit)) : Dict Unit :=
  [(text "service_pipelines", .obj [(text "s",
    .obj [(text "schema_id", .str schemaId), (text "stages", .arr stages)])])]

/-- An enhanced prompt, a picture, its check and its correction, each with a parameter. -/
def fourStages : Dict Unit :=
  templatesOf [stageOf "e" "prompt_enhance" "pe" [] (text "style") "oil",
    stageOf "g" "generate" "pg" ["e"] (text "prompt_target") "6.inputs.text",
    stageOf "q" "qc" "pq" ["g"] (text "threshold") "x",
    stageOf "c" "correct" "pc" ["q"] (text "strength") "x"]

/-- The parameters of a request. -/
def asked : Dict Unit := [(text "prompt", .str (text "cat"))]

/-- The parameters of four stages leave everything to the stages that the pipeline names. -/
theorem executors_kept_fourStages : ∃ plan pipelines pipeline,
    compileGenerationPipeline plainValues (fun _ => .ok []) (text "s") asked
      fourStages (["pe", "pg", "pq", "pc"].map text) = .ok plan ∧
    loadServicePipelines plainValues (["pe", "pg", "pq", "pc"].map text) fourStages =
      .ok pipelines ∧
    pipelines.get? (text "s") = some pipeline ∧
      ExecutorsKept (["pe", "pg", "pq", "pc"].map text) pipeline plan := by
  have hcompiles : (compileGenerationPipeline plainValues (fun _ => .ok []) (text "s")
      asked fourStages (["pe", "pg", "pq", "pc"].map text)).toOption.isSome = true := by
    decide +kernel
  have hloads : (loadServicePipelines plainValues (["pe", "pg", "pq", "pc"].map text)
      fourStages).toOption.any (fun pipelines =>
        (pipelines.get? (text "s")).any fun pipeline =>
          (pipeline.stages.all fun stage => (stage.params.map (·.1)).Nodup) &&
          (pipeline.stages.all fun s => (get? s.params (text "provider")).isNone &&
            (get? s.params (text "correction_provider")).isNone) &&
          pipeline.stages.all fun q => pipeline.stages.all fun s =>
            q.params.all fun param => (get? s.params param.1).isNone || q.kind = s.kind) = true := by
    decide +kernel
  obtain ⟨plan, hplan⟩ := Option.isSome_iff_exists.mp hcompiles
  obtain ⟨pipelines, hpipelines, hany⟩ := (Option.any_eq_true _ _).mp hloads
  obtain ⟨pipeline, hpipeline, hall⟩ := (Option.any_eq_true _ _).mp hany
  have hplan := toOption_eq_some_iff.mp hplan
  have hpipelines := toOption_eq_some_iff.mp hpipelines
  simp only [Bool.and_eq_true, all_eq_true, decide_eq_true_eq, Option.isNone_iff_eq_none,
    Bool.or_eq_true] at hall
  obtain ⟨⟨hdistinct, hprovider⟩, hshared⟩ := hall
  refine ⟨plan, pipelines, pipeline, hplan, hpipelines, hpipeline, ?_⟩
  refine (executors_kept_iff _ _ _ _ _ _ plan pipelines pipeline hplan hpipelines hpipeline
    hdistinct).mpr (paramsApart_of_separate hprovider ?_)
  intro q hq hqc s hs hcorrect field hfield
  obtain ⟨param, hparam, rfl⟩ := mem_map.mp hfield
  refine (hshared q hq s hs param hparam).resolve_right fun hsame => ?_
  rw [hqc, hcorrect] at hsame
  revert hsame
  decide

def qcTemplates (param : PyStr) : Dict Unit := templatesOf [stageOf "q" "qc" "p" [] param "x"]

/-- **A parameter `provider`** of a qc stage replaces its provider by one that is not registered. -/
theorem provider_replaced : ¬ ∀ plan pipelines pipeline,
    compileGenerationPipeline plainValues (fun _ => .ok []) (text "s") []
      (qcTemplates (text "provider")) [text "p"] = .ok plan →
    loadServicePipelines plainValues [text "p"] (qcTemplates (text "provider")) = .ok pipelines →
    pipelines.get? (text "s") = some pipeline → ExecutorsKept [text "p"] pipeline plan := by
  intro hkept
  have hcompiles : (compileGenerationPipeline plainValues (fun _ => .ok []) (text "s") []
      (qcTemplates (text "provider")) [text "p"]).toOption.any (fun plan =>
        plan.postGenerate.any fun cfg =>
          ((get? cfg (text "provider")).bind (·.str?)) = some (text "x")) = true := by
    decide +kernel
  obtain ⟨plan, hplan, hany⟩ := (Option.any_eq_true _ _).mp hcompiles
  obtain ⟨cfg, hcfg, hvalue⟩ := (Option.any_eq_true _ _).mp hany
  have hplan := toOption_eq_some_iff.mp hplan
  obtain ⟨pipelines, pipeline, hpipelines, hpipeline, -⟩ := compileGenerationPipeline_ok hplan
  obtain ⟨v, hv, hstr⟩ := Option.bind_eq_some_iff.mp (of_decide_eq_true hvalue)
  obtain ⟨name, hname, rfl⟩ := (hkept plan pipelines pipeline hplan hpipelines
    hpipeline).registered v (Or.inr ⟨cfg, hcfg, Or.inl hv⟩)
  rw [mem_singleton.mp hname] at hstr
  revert hstr
  decide

end GpuManager.Services
