import Mathlib.Algebra.Group.Int.Defs
import Mathlib.Data.List.Nodup
import Mathlib.Data.Rat.Defs
import GpuManager.Lib.PythonText

/-!
# Compiled plans

What the coordinator is given to execute: the frozen list of stages of a compiled pipeline,
its correction loops and the declared inputs of the workflow.  Two compilers produce such a
plan, `compile_generation_pipeline` for the services and `compile_workflow_pipeline` for
`workflow.v1` graphs; both reject duplicate stage ids, so that a plan is a structure with
distinct ids and `stage_map` is a lookup in its list of stages.

Values that travel through a run (request parameters, defaults, stage outputs) are `Json`.
They are stored only after `_deep_sanitize`, which can refuse a value.
-/

namespace GpuManager.Coordinator

open PythonText

/-- A value that an adapter hands over or that is stored. -/
inductive Json where
  | null
  | bool (b : Bool)
  | int (n : ℤ)
  | float (q : ℚ)
  | str (s : String)
  | bytes
  | arr (items : List Json)
  | obj (fields : List (String × Json))

abbrev Fields := List (String × Json)

/-! ## `_deep_sanitize` -/

/-- `_MAX_STR_LEN`. -/
def maxStrLen : ℕ := 10000

/-- `_MAX_COLLECTION_ITEMS`. -/
def maxCollectionItems : ℕ := 1000

/-- `_SANITIZE_REJECT_KEYS`. -/
def sanitizeRejectKeys : List String :=
  ["base64", "blob", "bytes", "password", "api_key", "authorization", "secret", "private_key"]

/-- `_SANITIZE_REJECT_SUFFIXES`. -/
def sanitizeRejectSuffixes : List String := ["_base64", "_blob", "_bytes"]

/-- `str.endswith`. -/
def endsWith (s suffix : String) : Bool := suffix.toList.isSuffixOf s.toList

/-- A byte count is metadata and not an inline payload. -/
def isByteCount (key : String) : Json → Bool
  | .int n => endsWith key "_bytes" && (0 ≤ n && n ≤ 2 ^ 63 - 1)
  | _ => false

/-- The member of an object that is refused for its key. -/
def rejectedField (path : String) (fields : Fields) : Option String :=
  match sanitizeRejectKeys.find? fun key => fields.any fun f => f.1 == key with
  | some key => some (path ++ "." ++ key ++ ": rejected key '" ++ key ++ "' for persistence safety")
  | none =>
    (fields.find? fun f =>
      sanitizeRejectSuffixes.any (endsWith f.1) && !isByteCount f.1 f.2).map fun f =>
        path ++ "." ++ f.1 ++ ": key suffix rejected for persistence safety"

mutual

/-- `_deep_sanitize`. -/
def deepSanitize (path : String) : Json → Except String Json
  | .bytes => .error (path ++ ": bytes value rejected for persistence safety")
  | .str s =>
    if maxStrLen < s.length then
      .ok (.str (path ++ ": string value exceeds 10000 chars (truncated for persistence safety)"))
    else .ok (.str s)
  | .obj fields =>
    match rejectedField path fields with
    | some error => .error error
    | none => (sanitizeFields path fields).map .obj
  | .arr items =>
    if maxCollectionItems < items.length then
      .error (path ++ ": collection exceeds 1000 items for persistence safety")
    else (sanitizeItems path 0 items).map .arr
  | .null => .ok .null
  | .bool b => .ok (.bool b)
  | .int n => .ok (.int n)
  | .float q => .ok (.float q)

/-- The members of an object, each below its own path. -/
def sanitizeFields (path : String) : List (String × Json) → Except String (List (String × Json))
  | [] => .ok []
  | (key, value) :: fields =>
    match deepSanitize (path ++ "." ++ key) value with
    | .error error => .error error
    | .ok value => (sanitizeFields path fields).map ((key, value) :: ·)

def sanitizeItems (path : String) (i : ℕ) : List Json → Except String (List Json)
  | [] => .ok []
  | item :: items =>
    match deepSanitize (path ++ "[" ++ toString i ++ "]") item with
    | .error error => .error error
    | .ok item => (sanitizeItems path (i + 1) items).map (item :: ·)

end

/-! ## Stages -/

/-- The kinds of the two schemas: `CLOSED_KINDS` of the services, `_STAGE_KINDS` of
`workflow.v1`. -/
inductive StageKind where
  | promptEnhance
  | generate
  | qc
  | correct
  | delegate
  | preparation
  | research
  | validation
  | generation
  | transform
  | delivery
  deriving DecidableEq, Repr

def StageKind.isGeneration : StageKind → Bool
  | .generate | .generation => true
  | _ => false

structure InputBinding where
  source : Option String
  optional : Bool := false

structure Stage where
  id : String
  kind : StageKind
  provider : String := ""
  dependsOn : List String := []
  enabledByDefault : Bool := true
  /-- `retry.max_attempts` of a workflow stage. -/
  retryMaxAttempts : Option ℤ := none
  /-- `retries` of a service stage; a value that is no integer reads as none. -/
  retries : Option ℤ := none
  /-- `params.bindings.inputs`; an entry that is no object reads as none. -/
  inputBindings : Option (List (String × Option InputBinding)) := none
  /-- The names of `params.operation_outputs`. -/
  operationOutputs : List String := []

/-- A correction loop: when the trigger fails its verdict, the correction stage and then the
stages of `on_correction` are entered. -/
structure Loop where
  id : String
  triggerStageId : String
  correctionStageId : String
  onCorrection : List String
  maxIterations : ℕ

/-- The frozen output of a compiler. -/
structure CompiledPipeline where
  stages : List Stage
  loops : List Loop := []
  maxLoopCount : ℕ := 0
  /-- The declared inputs of a workflow with their defaults. -/
  inputs : List (String × Option Json) := []
  ids_nodup : (stages.map Stage.id).Nodup

namespace CompiledPipeline

variable (pipeline : CompiledPipeline)

/-- `stage_map.get`. -/
def stage? (stageId : String) : Option Stage := pipeline.stages.find? fun s => s.id = stageId

variable {pipeline} {stage : Stage}

theorem mem_of_stage? {stageId : String}
    (h : pipeline.stage? stageId = some stage) : stage ∈ pipeline.stages ∧ stage.id = stageId :=
  ⟨List.mem_of_find?_eq_some h, by simpa using List.find?_some h⟩

/-- A stage of the plan is what its id is mapped to. -/
theorem stage?_of_mem (h : stage ∈ pipeline.stages) :
    pipeline.stage? stage.id = some stage := by
  cases hfound : pipeline.stage? stage.id with
  | none => simpa using List.find?_eq_none.mp hfound stage h
  | some other =>
    obtain ⟨hmem, hid⟩ := mem_of_stage? hfound
    rw [List.inj_on_of_nodup_map pipeline.ids_nodup hmem h hid]

end CompiledPipeline

end GpuManager.Coordinator
