import GpuManager.Services.Compiler
import GpuManager.Services.LoadedPipeline

/-!
# What a compiled plan is

Spec lemmas of the compiler: `loadPipelines_ok` for the pipelines of a document and
`compileGenerationPipeline_ok` for the plan of a request.
-/

namespace GpuManager.Services

open PyStr

variable {F : Type} {py : PyValues F} {registry : List PyStr}

/-- The configurations of a plan are those of its pipeline, and its stages those of the pipeline. -/
structure PlanOf (pipeline : ServicePipeline F) (plan : WorkerPipeline F) : Prop where
  promptEnhance : plan.promptEnhance = (subConfigs pipeline).promptEnhance
  postGenerate : plan.postGenerate = (subConfigs pipeline).postGenerate
  maxLoopCount : plan.maxLoopCount = pipeline.maxLoopCount
  stages : plan.stages = pipeline.stages.map (outStage pipeline.maxRetries)

/-- Each stage of the plan is that of the pipeline, and its provider is registered. -/
theorem outStages_ok {maxRetries : ℤ} {stages : List (Stage F)} {out : List (OutStage F)}
    (h : outStages py registry maxRetries stages = .ok out) :
    out = stages.map (outStage maxRetries) ∧ ∀ stage ∈ stages, stage.provider ∈ registry := by
  induction stages generalizing out with
  | nil =>
    obtain rfl := Except.ok.inj h
    exact ⟨rfl, fun _ hstage => (by cases hstage)⟩
  | cons stage stages ih =>
    obtain ⟨provider, hprovider, h⟩ := bind_ok_iff.mp h
    obtain ⟨rest, hrest, h⟩ := bind_ok_iff.mp h
    obtain rfl := Except.ok.inj h
    obtain ⟨rfl, hall⟩ := ih hrest
    obtain ⟨heq, hmem⟩ := resolveProvider_ok hprovider
    obtain rfl := Json.str.inj heq
    exact ⟨rfl, List.forall_mem_cons.mpr ⟨hmem, hall⟩⟩

variable [DecidableEq F] {revisionHash : ServicePipeline F → Checked PyStr} {serviceId : PyStr}
  {requestParams generationTemplates : Dict F}

/-- **A compiled plan** is that of the pipeline that the document has for the service. -/
theorem compileGenerationPipeline_ok {plan : WorkerPipeline F}
    (h : compileGenerationPipeline py revisionHash serviceId requestParams generationTemplates
      registry = .ok plan) :
    ∃ pipelines pipeline, loadServicePipelines py registry generationTemplates = .ok pipelines ∧
      pipelines.get? serviceId = some pipeline ∧ PlanOf pipeline plan ∧
      ∀ stage ∈ pipeline.stages, stage.provider ∈ registry := by
  unfold compileGenerationPipeline at h
  obtain ⟨-, h⟩ := bind_unit_ok_iff.mp h
  obtain ⟨pipelines, hpipelines, h⟩ := bind_ok_iff.mp h
  split at h
  case h_1 => cases h
  case h_2 pipeline hpipeline =>
    unfold compileSelected at h
    obtain ⟨-, h⟩ := bind_unit_ok_iff.mp h
    obtain ⟨stages, hstages, h⟩ := bind_ok_iff.mp h
    obtain ⟨target, -, h⟩ := bind_ok_iff.mp h
    obtain ⟨hash, -, h⟩ := bind_ok_iff.mp h
    obtain rfl := Except.ok.inj h
    obtain ⟨rfl, hall⟩ := outStages_ok hstages
    exact ⟨pipelines, pipeline, hpipelines, hpipeline, ⟨rfl, rfl, rfl, rfl⟩, hall⟩

end GpuManager.Services
