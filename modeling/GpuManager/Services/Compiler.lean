import GpuManager.Services.Loader

/-!
# Compiling a generation request

`load_service_pipelines` and `compile_generation_pipeline` of `service_pipeline.py`.  Every
pipeline of the document is loaded before one of them is selected.  The compiled plan has the
stages with their parameters, and beside them the parameters of the prompt enhancement and of the
checks after generation in one flat dictionary each.

The digest of the canonical text of a pipeline is a parameter, and raises where the text does.
-/

namespace GpuManager.Services

open PyStr Regex

/-- A dictionary of JSON values. -/
abbrev Dict (F : Type) := PyDict PyStr (Json F)

section Compiler

variable {F : Type} [DecidableEq F] (py : PyValues F)

/-! ## All pipelines -/

def loadPipelines (registry : List PyStr) :
    List (PyStr × Json F) → Checked (PyDict PyStr (ServicePipeline F))
  | [] => .ok []
  | (serviceId, cfg) :: services => do
      let pipeline ← loadServicePipeline py registry cfg
      let pipelines ← loadPipelines registry services
      .ok ((serviceId, pipeline) :: pipelines)

def rawPipelines (data : Dict F) : Json F := (data.get? (text "service_pipelines")).getD (.obj data)

/-- `load_service_pipelines`. -/
def loadServicePipelines (registry : List PyStr) (data : Dict F) :
    Checked (PyDict PyStr (ServicePipeline F)) :=
  match rawPipelines data with
  | .obj services => loadPipelines py registry services
  | _ => raisePython .attributeError

/-! ## The prompt target -/

/-- `[a-zA-Z_][a-zA-Z0-9_]*`. -/
def identifierRe : Regex :=
  .seq (.one fun c => isLower c || isUpper c || isUnderscore c)
    (.star (.one fun c => isLower c || isUpper c || isDecimal c || isUnderscore c))

/-- `_SAFE_DOTTED_PATH_RE`. -/
def safeDottedPathRe : Regex :=
  seqs [.start, .alt identifierRe (plus (.one isDecimal)), plus (.seq (lit ".") identifierRe), .finish]

/-- `_INVALID_PROMPT_TARGET_RE`. -/
def invalidPromptTargetRe : Regex :=
  alts [seqs [.start, litFold "http", opt (litFold "s"), lit "://"], cls "$\x7b;`<>|",
    seqs [litFold "api", opt (cls "_-"), litFold "key"], litFold "password", litFold "secret",
    litFold "token", litFold "auth"]

/-- `_is_safe_prompt_target`. -/
def isSafePromptTarget (value : PyStr) : Bool :=
  value ≠ [] && !invalidPromptTargetRe.isFound value && safeDottedPathRe.isMatch value

/-- The stages that depend on a stage, once for each time that they list it. -/
def dependents (stages : List (Stage F)) (sid : Key F) : List (Key F) :=
  stages.flatMap fun s => ((s.deps py).filter (· = sid)).map fun _ => py.keyOf s.id

/-- The loop over the dependents of a stage: the new ones are reached and go on the stack. -/
def reachDependents : List (Key F) → List (Key F) → List (Key F) → List (Key F) × List (Key F)
  | [], reachable, stack => (reachable, stack)
  | dependent :: rest, reachable, stack =>
    if dependent ∈ reachable then reachDependents rest reachable stack
    else reachDependents rest (reachable ++ [dependent]) (dependent :: stack)

/-- The search of `_find_downstream_generate_stages`.  A stage goes on the stack once, so that there
are no more rounds than stages and the first one. -/
def reachable (stages : List (Stage F)) : ℕ → List (Key F) → List (Key F) → List (Key F)
  | 0, reached, _ => reached
  | _ + 1, reached, [] => reached
  | fuel + 1, reached, sid :: stack =>
    let next := reachDependents (dependents py stages sid) reached stack
    reachable stages fuel next.1 next.2

def downstreamGenerateStages (enhanceStageId : Json F) (stages : List (Stage F)) :
    List (Stage F × Option PyStr) :=
  let reached := reachable py stages (stages.length + 2) [] [py.keyOf enhanceStageId]
  (stages.filter fun s => py.keyOf s.id ∈ reached ∧ s.kind = text "generate").map fun s =>
    (s, match s.params.get? (text "prompt_target") with
      | none => none
      | some .null => none
      | some target => some (py.strOf target))

/-- `", ".join(ids)`, which raises for an id that is no string. -/
def joinIds : List (Json F) → Checked PyStr
  | [] => .ok []
  | [.str s] => .ok s
  | .str s :: ids => do
      let rest ← joinIds ids
      .ok (s ++ text ", " ++ rest)
  | _ :: _ => raisePython .typeError

/-- `_derive_generic_prompt_target`. -/
def deriveGenericPromptTarget (stages : List (Stage F)) : Checked (Json F) :=
  match stages.find? fun s => s.kind = text "prompt_enhance" with
  | none => .ok .null
  | some enhance =>
    match downstreamGenerateStages py enhance.id stages with
    | [] => .ok .null
    | [(_, target)] =>
      match target.filter fun target => isSafePromptTarget target with
      | some target => .ok (.str target)
      | none =>
        raise .pipeline (text ("generic execution requires a downstream generate stage " ++
          "to declare non-empty params.prompt_target (dotted node path grammar); none found"))
    | candidates => do
        let stageIds ← joinIds (candidates.map fun c => c.1.id)
        raise .pipeline (text ("ambiguous prompt_target binding: multiple downstream generate " ++
          "stages declare params.prompt_target: ") ++ stageIds)

/-- `prompt_target`. -/
def promptTarget (pipeline : ServicePipeline F) : Checked (Json F) :=
  if pipeline.executionMode = text "generic" then deriveGenericPromptTarget py pipeline.stages
  else
    .ok (match pipeline.stages.find? fun s => s.kind = text "prompt_enhance" with
      | none => .null
      | some s =>
        py.orElse ((s.params.get? (text "target")).getD .null)
          (.str (text "prompt_enhance.inputs.prompt")))

/-! ## The plan -/

/-- `{**d, **d'}`. -/
def Dict.merge (d d' : Dict F) : Dict F := d'.foldl (fun d e => d.set e.1 e.2) d

/-- `_KIND_PHASE.get(kind, kind)`. -/
def kindPhase (kind : PyStr) : PyStr :=
  if kind = text "prompt_enhance" then text "pre_generate"
  else if kind = text "generate" then text "generate"
  else if kind = text "qc" then text "post_generate"
  else if kind = text "correct" then text "post_generate"
  else if kind = text "delegate" then text "delegate"
  else kind

/-- `s.retries if s.retries is not None else pipeline.max_retries`. -/
def Stage.retriesOr (stage : Stage F) (maxRetries : ℤ) : Json F :=
  if stage.retries.isNull then .int maxRetries else stage.retries

/-- A stage of the plan. -/
structure OutStage (F : Type) where
  id : Json F
  kind : PyStr
  phase : PyStr
  provider : PyStr
  dependsOn : List (Json F)
  retries : Json F
  params : Dict F

/-- An entry of `out_stages`. -/
def outStage (maxRetries : ℤ) (stage : Stage F) : OutStage F where
  id := stage.id
  kind := stage.kind
  phase := kindPhase stage.kind
  provider := stage.provider
  dependsOn := stage.dependsOn
  retries := stage.retriesOr maxRetries
  params := stage.params

def outStages (registry : List PyStr) (maxRetries : ℤ) :
    List (Stage F) → Checked (List (OutStage F))
  | [] => .ok []
  | stage :: stages => do
      let _ ← resolveProvider py (.str stage.provider) registry
      let rest ← outStages registry maxRetries stages
      .ok (outStage maxRetries stage :: rest)

def enhanceConfig (stage : Stage F) : Dict F :=
  Dict.merge [(text "enabled", .bool true), (text "provider", .str stage.provider)] stage.params

/-- The configuration after a `qc` or a `correct` stage: the one so far, the fields of the kind, the
parameters of the stage, and the bounds. -/
def postGenerateConfig (pipeline : ServicePipeline F) (providerField : String) (stage : Stage F)
    (config : Option (Dict F)) : Dict F :=
  Dict.merge (Dict.merge (Dict.merge (config.getD [])
    [(text "enabled", .bool true), (text "kind", .str stage.kind),
      (text providerField, .str stage.provider)]) stage.params)
    [(text "max_corrections", .int pipeline.maxLoopCount),
      (text "retries", stage.retriesOr pipeline.maxRetries)]

structure SubConfigs (F : Type) where
  promptEnhance : Option (Dict F) := none
  postGenerate : Option (Dict F) := none

/-- The body of the loop that extracts the configurations. -/
def SubConfigs.add (pipeline : ServicePipeline F) (cfg : SubConfigs F) (stage : Stage F) :
    SubConfigs F :=
  if stage.kind = text "prompt_enhance" then
    { cfg with promptEnhance := some (enhanceConfig stage) }
  else if stage.kind = text "qc" then
    { cfg with
      postGenerate := some (postGenerateConfig pipeline "provider" stage cfg.postGenerate) }
  else if stage.kind = text "correct" then
    { cfg with
      postGenerate := some (postGenerateConfig pipeline "correction_provider" stage cfg.postGenerate) }
  else cfg

def subConfigs (pipeline : ServicePipeline F) : SubConfigs F :=
  pipeline.stages.foldl (SubConfigs.add pipeline) {}

/-- The worker pipeline of a request. -/
structure WorkerPipeline (F : Type) where
  schema : PyStr
  serviceId : PyStr
  pipelineId : PyStr
  executionMode : PyStr
  originalPrompt : PyStr
  promptTarget : Json F
  promptEnhance : Option (Dict F)
  postGenerate : Option (Dict F)
  maxRetries : ℤ
  maxLoopCount : ℤ
  stages : List (OutStage F)
  loops : List (Loop F)
  revisionHash : PyStr

/-- `compile_generation_pipeline`, once the pipeline is selected. -/
def compileSelected (revisionHash : ServicePipeline F → Checked PyStr) (registry : List PyStr)
    (serviceId : PyStr) (requestParams : Dict F) (pipeline : ServicePipeline F) :
    Checked (WorkerPipeline F) := do
  let prompt := (requestParams.get? (text "prompt")).getD .null
  require (!(pipeline.stages.any fun s => s.kind = text "prompt_enhance") || py.truthy prompt)
    .pipeline (text "params.prompt is required when prompt_enhance stage is present")
  let stages ← outStages py registry pipeline.maxRetries pipeline.stages
  let target ← promptTarget py pipeline
  let hash ← revisionHash pipeline
  .ok
    { schema := schemaId
      serviceId := serviceId
      pipelineId := serviceId
      executionMode := pipeline.executionMode
      originalPrompt := py.strOf (py.orElse prompt (.str []))
      promptTarget := target
      promptEnhance := (subConfigs pipeline).promptEnhance
      postGenerate := (subConfigs pipeline).postGenerate
      maxRetries := pipeline.maxRetries
      maxLoopCount := pipeline.maxLoopCount
      stages := stages
      loops := pipeline.loops
      revisionHash := hash }

/-- `compile_generation_pipeline`. -/
def compileGenerationPipeline (revisionHash : ServicePipeline F → Checked PyStr)
    (serviceId : PyStr) (requestParams generationTemplates : Dict F) (registry : List PyStr) :
    Checked (WorkerPipeline F) := do
  require ((generationTemplates.get? serviceId).isSome ||
      (generationTemplates.get? (text "service_pipelines")).isSome) .pipeline
    (text "No generation_template for service '" ++ serviceId ++ text "'")
  let pipelines ← loadServicePipelines py registry generationTemplates
  match pipelines.get? serviceId with
  | none =>
    raise .pipeline (text "service_id '" ++ serviceId ++
      text "' not found in service_pipelines; available: " ++
      py.str (.arr (pipelines.map fun e => .str e.1)))
  | some pipeline => compileSelected py revisionHash registry serviceId requestParams pipeline

end Compiler

end GpuManager.Services
