import Mathlib.Algebra.GroupWithZero.Nat
import GpuManager.Lib.JsonText
import GpuManager.Lib.Regex

/-!
# Loading a service pipeline

`_load_service_pipeline` of `service_pipeline.py` and what it calls: a document is checked step by
step, and the first check that fails raises.  A stage id may be any value that can be a key of a
dictionary; two ids are the same when they are the same key.

What Python makes of floats and of texts that are numbers, `str` of what is no string and the
letters and digits beyond ASCII are parameters.  The depth of the recursion is not bounded.
-/

namespace GpuManager.Services

open PyStr Regex

/-! ## Errors -/

/-- Exceptions of Python itself. -/
inductive PyError where
  | typeError | attributeError | valueError | overflowError
  deriving DecidableEq

/-- The class of an exception. -/
inductive ErrorKind where
  | pipeline | unknownProvider | unknownStageKind | cycle | duplicateStageId | missingDependency
  | unsafeField | ambiguousCorrectionLoop | loopBoundExceeded | loopValidation
  | pipelineValidation | retryBoundExceeded | schemaId | unknownExecutionMode
  | python (e : PyError)
  deriving DecidableEq

/-- An exception; those of Python itself have no text here. -/
structure LoadError where
  kind : ErrorKind
  message : PyStr := []
  deriving DecidableEq

/-- What a check returns or raises. -/
abbrev Checked (α : Type) := Except LoadError α

/-- `raise kind(message)`. -/
def raise {α : Type} (kind : ErrorKind) (message : PyStr) : Checked α := .error ⟨kind, message⟩

/-- An exception of Python. -/
def raisePython {α : Type} (e : PyError) : Checked α := .error ⟨.python e, []⟩

/-- Raises unless a condition holds. -/
def require (condition : Bool) (kind : ErrorKind) (message : PyStr) : Checked Unit :=
  if condition then .ok () else raise kind message

/-! ## Values -/

/-- What Python makes of values. -/
structure PyValues (F : Type) where
  /-- The integer that a float equals. -/
  integer : F → Option ℤ
  /-- `int(value)` of a float. -/
  trunc : F → Except PyError ℤ
  /-- `int(value)` of a string. -/
  parse : PyStr → Option ℤ
  /-- `str(value)` of what is no string. -/
  str : Json F → PyStr
  /-- `c.isalnum()` beyond ASCII. -/
  alnum : CodePoint → Bool

/-- A value as the key of a dictionary or an element of a set. -/
inductive Key (F : Type) where
  | none
  | int (n : ℤ)
  | float (x : F)
  | str (s : PyStr)
  deriving DecidableEq

instance {F : Type} [DecidableEq F] : LawfulBEq (Key F) := inferInstance

namespace PyValues

variable {F : Type} (py : PyValues F)

/-- `str(value)`. -/
def strOf : Json F → PyStr
  | .str s => s
  | value => py.str value

/-- `bool(value)`. -/
def truthy : Json F → Bool
  | .null => false
  | .bool b => b
  | .int n => n ≠ 0
  | .float x => py.integer x ≠ some 0
  | .str s => s ≠ []
  | .arr items => !items.isEmpty
  | .obj members => !members.isEmpty

/-- `int(value)`. -/
def int : Json F → Except PyError ℤ
  | .bool b => .ok (if b then 1 else 0)
  | .int n => .ok n
  | .float x => py.trunc x
  | .str s => match py.parse s with
      | some n => .ok n
      | none => .error .valueError
  | _ => .error .typeError

/-- The key that a value is; lists and dictionaries are not hashable. -/
def key? : Json F → Option (Key F)
  | .null => some .none
  | .bool b => some (.int (if b then 1 else 0))
  | .int n => some (.int n)
  | .float x => some (match py.integer x with
      | some n => .int n
      | none => .float x)
  | .str s => some (.str s)
  | _ => none

def keyOf (value : Json F) : Key F := (py.key? value).getD .none

/-- `hash(value)`. -/
def hash (value : Json F) : Checked (Key F) :=
  match py.key? value with
  | some key => .ok key
  | none => raisePython .typeError

/-- `a or b`. -/
def orElse (a b : Json F) : Json F := if py.truthy a then a else b

/-- A character of `\w`. -/
def isWord (c : CodePoint) : Bool :=
  if c.val < 0x80 then isAlphanumeric c || isUnderscore c else py.alnum c

end PyValues

def requireGet {F : Type} (value : Json F) : Checked Unit :=
  if value.isObj then .ok () else raisePython .attributeError

/-- `type(value).__name__`. -/
def typeName {F : Type} : Json F → PyStr
  | .null => text "NoneType"
  | .bool _ => text "bool"
  | .int _ => text "int"
  | .float _ => text "float"
  | .str _ => text "str"
  | .arr _ => text "list"
  | .obj _ => text "dict"

/-! ## Constants -/

/-- `SCHEMA_ID`. -/
def schemaId : PyStr := text "image-pipeline.v1"

/-- `CLOSED_KINDS`. -/
def closedKinds : List PyStr :=
  ["prompt_enhance", "generate", "qc", "correct", "delegate"].map text

/-- `RETRY_BOUND`. -/
def retryBound : ℤ := 10

/-- `LOOP_BOUND`. -/
def loopBound : ℤ := 5

/-- `VALID_MODES`. -/
def validModes : List PyStr := ["generic", "legacy_reconcile"].map text

/-- `_UNSAFE_URL_RE`. -/
def unsafeUrlRe : Regex := seqs [.start, litFold "http", opt (litFold "s"), lit "://"]

def shellNameRe : Regex :=
  .seq (.one fun c => isLetterFold c || isUnderscore c)
    (.star (.one fun c => isLetterFold c || isDecimal c || isUnderscore c))

/-- `_SHELL_META_RE`. -/
def shellMetaRe : Regex :=
  alts [.seq (lit "$") shellNameRe, .seq (lit "%%") shellNameRe,
    seqs [lit "\x7b", .star (.one fun c => c ∉ text "\x7d"), cls "|;`<>", lit "\x7d"]]

/-- `_CREDENTIAL_RE`. -/
def credentialRe (word : CodePoint → Bool) : Regex :=
  .seq (alts [seqs [litFold "api", opt (cls "_-"), litFold "key"], litFold "password",
    litFold "secret", litFold "token", litFold "auth", litFold "bearer"]) (.boundary word)

/-! ## The pipeline -/

/-- `Stage`. -/
structure Stage (F : Type) where
  id : Json F
  kind : PyStr
  provider : PyStr
  dependsOn : List (Json F)
  retries : Json F
  params : PyDict PyStr (Json F)

/-- `Loop`. -/
structure Loop (F : Type) where
  id : Json F
  triggerStageId : Json F
  correctionStageId : Json F
  onCorrection : List PyStr
  maxIterations : ℤ

/-- `ServicePipeline`. -/
structure ServicePipeline (F : Type) where
  schemaId : PyStr
  stages : List (Stage F)
  maxRetries : ℤ
  maxLoopCount : ℤ
  executionMode : PyStr
  loops : List (Loop F)

section Loader

variable {F : Type} [DecidableEq F] (py : PyValues F)

/-! ## Parameters -/

/-- `_check_unsafe_value`. -/
def checkUnsafeValue (value : Json F) (path : PyStr) : Checked Unit :=
  match value with
  | .str s =>
    if unsafeUrlRe.isMatch s then
      raise .unsafeField (text "URL not allowed in field '" ++ path ++ text "': " ++ s.take 80)
    else if shellMetaRe.isFound s then
      raise .unsafeField (text "Shell metacharacter/expansion not allowed in '" ++ path ++
        text "': " ++ s.take 80)
    else if (credentialRe py.isWord).isFound s then
      raise .unsafeField (text "Credential-like content not allowed in '" ++ path ++
        text "': " ++ s.take 80)
    else .ok ()
  | _ => .ok ()

/-- The loop over a list of `_walk_params`: only its strings are checked. -/
def checkItems (path : PyStr) (index : ℕ) : List (Json F) → Checked Unit
  | [] => .ok ()
  | item :: items => do
      checkUnsafeValue py item (path ++ text "[" ++ Json.natText index ++ text "]")
      checkItems path (index + 1) items

/-- The path of a key. -/
def paramPath (parent key : PyStr) : PyStr :=
  if parent = [] then key else parent ++ text "." ++ key

def checkKey (path key : PyStr) (value : Json F) : Checked Unit := do
  require (!(credentialRe py.isWord).isFound key) .unsafeField
    (text "Credential-like key not allowed in '" ++ path ++ text "': " ++ key)
  require (!(key = text "adapter" && value.str?.isSome)) .unsafeField
    (text "Arbitrary adapter name not allowed in '" ++ path ++ text "': " ++ py.strOf value)

mutual

def walkValue (path : PyStr) : Json F → Checked Unit
  | .obj members => walkParams path members
  | .arr items => checkItems py path 0 items
  | value => checkUnsafeValue py value path

/-- `_walk_params`. -/
def walkParams (parent : PyStr) : List (PyStr × Json F) → Checked Unit
  | [] => .ok ()
  | (key, value) :: members => do
      checkKey py (paramPath parent key) key value
      walkValue (paramPath parent key) value
      walkParams parent members

end

/-! ## Stages -/

/-- `_resolve_provider`. -/
def resolveProvider (provider : Json F) (registry : List PyStr) : Checked PyStr := do
  let _ ← py.hash provider
  match provider.str?.filter (· ∈ registry) with
  | some provider => .ok provider
  | none =>
    raise .unknownProvider (text "Provider '" ++ py.strOf provider ++
      text "' not in provider registry")

/-- The body of the loop over the stages, up to the parameters. -/
def loadStage (registry : List PyStr) (seenIds : List (Key F)) (entry : Json F) :
    Checked (Stage F) := do
  requireGet entry
  let sid := entry.get "id"
  require (py.truthy sid) .pipeline (text "stage missing id: " ++ py.strOf entry)
  let key ← py.hash sid
  require (key ∉ seenIds) .duplicateStageId
    (text "duplicate stage id '" ++ py.strOf sid ++ text "'")
  let kind := entry.get "kind"
  let _ ← py.hash kind
  match kind.str?.filter (· ∈ closedKinds) with
  | none =>
    raise .unknownStageKind (text "stage '" ++ py.strOf sid ++ text "' has unknown kind '" ++
      py.strOf kind ++ text ("'; allowed: ['correct', 'delegate', 'generate', " ++
        "'prompt_enhance', 'qc']"))
  | some kind => do
      let provider ← resolveProvider py (py.orElse (entry.get "provider") (.str [])) registry
      match py.orElse (entry.get "depends_on") (.arr []) with
      | .arr dependsOn =>
        match py.orElse (entry.get "params") (.obj []) with
        | .obj params => do
            walkParams py (py.strOf sid) params
            .ok { id := sid, kind := kind, provider := provider, dependsOn := dependsOn,
                  retries := entry.get "retries", params := params }
        | _ => raisePython .attributeError
      | _ => raise .pipeline (text "stage '" ++ py.strOf sid ++ text "' depends_on must be a list")

/-- The loop over the stages. -/
def loadStages (registry : List PyStr) (seenIds : List (Key F)) :
    List (Json F) → Checked (List (Stage F))
  | [] => .ok []
  | entry :: entries => do
      let stage ← loadStage py registry seenIds entry
      let stages ← loadStages registry (seenIds ++ [py.keyOf stage.id]) entries
      .ok (stage :: stages)

/-- `int(data.get(field, default))`, between zero and a bound. -/
def loadBound (data : Json F) (field : String) (default bound : ℤ) (kind : ErrorKind) :
    Checked ℤ := do
  match py.int ((data.get? field).getD (.int default)) with
  | .error e => raisePython e
  | .ok n => do
      require (n ≤ bound) kind (text field ++ text " " ++ Json.intText n ++ text " exceeds bound " ++
        Json.intText bound)
      require (0 ≤ n) .pipeline (text field ++ text " must be non-negative")
      .ok n

/-- `stage_map`. -/
def stageMap (stages : List (Stage F)) : PyDict (Key F) (Stage F) :=
  stages.foldl (fun d s => d.set (py.keyOf s.id) s) []

/-- A dependency is a stage. -/
def checkDependency (stageIds : List (Key F)) (stage : Stage F) (dependency : Json F) :
    Checked Unit := do
  let key ← py.hash dependency
  require (key ∈ stageIds) .missingDependency (text "stage '" ++ py.strOf stage.id ++
    text "' depends on unknown stage '" ++ py.strOf dependency ++ text "'")

/-- `for dep in s.depends_on`. -/
def checkDependencies (stageIds : List (Key F)) (stage : Stage F) : List (Json F) → Checked Unit
  | [] => .ok ()
  | dependency :: dependencies => do
      checkDependency py stageIds stage dependency
      checkDependencies stageIds stage dependencies

def checkKnown (stageIds : List (Key F)) : List (Stage F) → Checked Unit
  | [] => .ok ()
  | stage :: stages => do
      checkDependencies py stageIds stage stage.dependsOn
      checkKnown stageIds stages

structure Draft (F : Type) where
  stages : List (Stage F)
  maxRetries : ℤ
  maxLoopCount : ℤ
  executionMode : PyStr

def loadDraft (registry : List PyStr) (data : Json F) : Checked (Draft F) := do
  requireGet data
  let schema := py.orElse (data.get "schema_id") (data.get "schema")
  require (py.truthy schema) .schemaId (text "pipeline is missing schema_id")
  require (schema.str? = some schemaId) .schemaId
    (text "pipeline schema must be 'image-pipeline.v1', got '" ++ py.strOf schema ++ text "'")
  let rawStages := py.orElse (data.get "stages") (.arr [])
  require (py.truthy rawStages) .pipeline (text "pipeline has no stages")
  match rawStages with
  | .arr entries => do
      let stages ← loadStages py registry [] entries
      let maxRetries ← loadBound py data "max_retries" 3 retryBound .retryBoundExceeded
      let maxLoopCount ← loadBound py data "max_loop_count" 1 loopBound .loopBoundExceeded
      let executionMode := py.strOf ((data.get? "execution_mode").getD (.str (text "generic")))
      require (executionMode ∈ validModes) .unknownExecutionMode
        (text "execution_mode must be one of ['generic', 'legacy_reconcile'], got '" ++
          executionMode ++ text "'")
      checkKnown py ((stageMap py stages).map (·.1)) stages
      .ok { stages, maxRetries, maxLoopCount, executionMode }
  -- The characters of a string and the keys of a dictionary have no `get`.
  | .str _ => raisePython .attributeError
  | .obj _ => raisePython .attributeError
  | _ => raisePython .typeError

/-! ## The graph -/

def Stage.deps (stage : Stage F) : List (Key F) := stage.dependsOn.map py.keyOf

/-- What `_detect_cycle` keeps: the open dependencies, the queue and the order so far. -/
structure CyclePass (F : Type) where
  inDegree : Key F → ℤ
  queue : List (Key F)
  ordered : List (Key F)

def CyclePass.release (pass : CyclePass F) (other : Key F) : CyclePass F :=
  let degree := pass.inDegree other - 1
  { pass with
    inDegree := Function.update pass.inDegree other degree
    queue := if degree = 0 then pass.queue ++ [other] else pass.queue }

/-- The loop over `stage_map` for a stage that is done. -/
def CyclePass.done (pass : CyclePass F) (sid : Key F) :
    List (Key F × Stage F) → CyclePass F
  | [] => pass
  | (other, stage) :: rest =>
    if sid ∈ stage.deps py then (pass.release other).done sid rest else pass.done sid rest

def CyclePass.round (pass : CyclePass F) (stages : PyDict (Key F) (Stage F)) (sid : Key F)
    (queue : List (Key F)) : CyclePass F :=
  { pass with queue := queue, ordered := pass.ordered ++ [sid] }.done py sid stages

def CyclePass.loop (stages : PyDict (Key F) (Stage F)) : ℕ → CyclePass F → CyclePass F
  | 0, pass => pass
  | fuel + 1, pass =>
    match pass.queue with
    | [] => pass
    | sid :: queue => CyclePass.loop stages fuel (pass.round py stages sid queue)

/-- The pass before the first round. -/
def CyclePass.start (stages : PyDict (Key F) (Stage F)) : CyclePass F where
  inDegree sid := ((stages.get? sid).map fun s => (s.dependsOn.length : ℤ)).getD 0
  queue := (stages.filter fun e => e.2.dependsOn.length = 0).map (·.1)
  ordered := []

/-- `_detect_cycle`.  A stage enters the queue once, when its open dependencies reach zero, so that
there are no more rounds than stages. -/
def detectCycle (stages : PyDict (Key F) (Stage F)) : Option (List (Key F)) :=
  let pass := CyclePass.loop py stages stages.length (CyclePass.start stages)
  if pass.ordered.length ≠ stages.length then
    some ((stages.map (·.1)).filter (· ∉ pass.ordered))
  else none

/-- `_has_qc_between`: the queue and the visited stages of the search.  A stage is expanded once,
so that the rounds are bounded by the ids and the entries of the dependency lists. -/
def hasQcBetween (stages : PyDict (Key F) (Stage F)) (source : Key F) :
    ℕ → List (Key F) → List (Key F) → Bool
  | 0, _, _ => false
  | _ + 1, [], _ => false
  | fuel + 1, current :: queue, visited =>
    if current = source then false
    else if current ∈ visited then hasQcBetween stages source fuel queue visited
    else
      match stages.get? current with
      | none => false
      | some stage =>
        if stage.kind = text "qc" then true
        else
          hasQcBetween stages source fuel
            (queue ++ (stage.deps py).filter (· ∉ current :: visited)) (current :: visited)

def searchFuel (stages : PyDict (Key F) (Stage F)) : ℕ :=
  (stages.map fun e => e.2.dependsOn.length).sum + 2

/-- `_check_correction_loop`: `for b in correct_ids[i + 1:]`. -/
def checkCorrectionsAfter (stages : PyDict (Key F) (Stage F)) (a : Stage F) :
    List (Stage F) → Checked Unit
  | [] => .ok ()
  | b :: later => do
      require (hasQcBetween py stages (py.keyOf a.id) (searchFuel stages) [py.keyOf b.id] [])
        .ambiguousCorrectionLoop (text "correction loop detected: '" ++ py.strOf a.id ++
          text "' → '" ++ py.strOf b.id ++ text "' has no QC gate")
      checkCorrectionsAfter stages a later

/-- `_check_correction_loop`: `for i, a in enumerate(correct_ids)`. -/
def checkCorrections (stages : PyDict (Key F) (Stage F)) : List (Stage F) → Checked Unit
  | [] => .ok ()
  | a :: later => do
      checkCorrectionsAfter py stages a later
      checkCorrections stages later

/-- `_check_correction_loop`. -/
def checkCorrectionLoop (stages : List (Stage F)) : Checked Unit :=
  checkCorrections py (stageMap py stages) (stages.filter fun s => s.kind = text "correct")

/-! ## Loops -/

def loopPath (lid : Json F) : PyStr := text "loop '" ++ py.strOf lid ++ text "' "

/-- A stage that a loop names under a field is there and of a kind. -/
def checkLoopStage (stages : PyDict (Key F) (Stage F)) (lid : Json F) (field kind : String)
    (sid : Json F) : Checked Unit := do
  require (py.truthy sid) .loopValidation (loopPath py lid ++ text ("missing '" ++ field ++ "'"))
  let key ← py.hash sid
  match stages.get? key with
  | none =>
    raise .loopValidation (loopPath py lid ++ text ("references unknown " ++ field ++ " '") ++
      py.strOf sid ++ text "'")
  | some stage =>
    require (stage.kind = text kind) .loopValidation (loopPath py lid ++ text (field ++ " '") ++
      py.strOf sid ++ text ("' must be kind '" ++ kind ++ "', got kind '") ++ stage.kind ++
      text "'")

/-- The loop over `on_correction`. -/
def checkOnCorrection (stages : PyDict (Key F) (Stage F)) (lid : Json F) :
    List (Json F) → Checked (List PyStr)
  | [] => .ok []
  | sid :: sids =>
    match sid.str? with
    | none =>
      raise .loopValidation (loopPath py lid ++
        text "on_correction contains non-string stage id: " ++ py.str sid)
    | some name => do
        require (stages.get? (.str name)).isSome .loopValidation (loopPath py lid ++
          text "on_correction references unknown stage '" ++ name ++ text "'")
        let names ← checkOnCorrection stages lid sids
        .ok (name :: names)

/-- `max_iterations` of a loop. -/
def checkMaxIterations (lid maxIterations : Json F) : Checked ℤ :=
  match maxIterations with
  | .null => raise .loopValidation (loopPath py lid ++ text "missing 'max_iterations'")
  | .int n => do
      require (1 ≤ n) .loopValidation (loopPath py lid ++
        text "max_iterations must be >= 1, got " ++ Json.intText n)
      require (n ≤ loopBound) .loopValidation (loopPath py lid ++ text "max_iterations " ++
        Json.intText n ++ text " exceeds LOOP_BOUND " ++ Json.intText loopBound)
      .ok n
  | value =>
    raise .loopValidation (loopPath py lid ++ text "max_iterations must be an integer, got " ++
      typeName value)

/-- `_validate_loop`. -/
def validateLoop (stages : PyDict (Key F) (Stage F)) (seenLoopIds : List (Key F))
    (loopData : Json F) : Checked (Loop F) := do
  let lid := loopData.get "id"
  require (py.truthy lid) .loopValidation (text "loop entry missing 'id': " ++ py.strOf loopData)
  let key ← py.hash lid
  require (key ∉ seenLoopIds) .loopValidation
    (text "duplicate loop id '" ++ py.strOf lid ++ text "'")
  let trigger := loopData.get "trigger_stage_id"
  checkLoopStage py stages lid "trigger_stage_id" "qc" trigger
  let correction := loopData.get "correction_stage_id"
  checkLoopStage py stages lid "correction_stage_id" "correct" correction
  match (loopData.get? "on_correction").getD (.arr []) with
  | .arr sids => do
      require (!sids.isEmpty) .loopValidation (loopPath py lid ++
        text "on_correction must be non-empty")
      let onCorrection ← checkOnCorrection py stages lid sids
      let maxIterations ← checkMaxIterations py lid (loopData.get "max_iterations")
      .ok { id := lid, triggerStageId := trigger, correctionStageId := correction,
            onCorrection := onCorrection, maxIterations := maxIterations }
  | value =>
    raise .loopValidation (loopPath py lid ++ text "on_correction must be a list, got " ++
      typeName value)

/-- The loop over `loops`. -/
def validateLoops (stages : PyDict (Key F) (Stage F)) (seenLoopIds : List (Key F)) :
    List (Json F) → Checked (List (Loop F))
  | [] => .ok []
  | entry :: entries =>
    if entry.isObj then do
      let loop ← validateLoop py stages seenLoopIds entry
      let loops ← validateLoops stages (seenLoopIds ++ [py.keyOf loop.id]) entries
      .ok (loop :: loops)
    else
      raise .loopValidation (text "loop entry must be a dict, got " ++ typeName entry)

/-- The graph has no cycle. -/
def checkAcyclic (stages : PyDict (Key F) (Stage F)) : Checked Unit :=
  match detectCycle py stages with
  | some cycle =>
    require cycle.isEmpty .cycle (text "cycle detected in stage graph: " ++
      py.str (.arr ((stages.filter fun e => e.1 ∈ cycle).map fun e => e.2.id)))
  | none => .ok ()

/-- `_load_service_pipeline`. -/
def loadServicePipeline (registry : List PyStr) (data : Json F) : Checked (ServicePipeline F) := do
  let draft ← loadDraft py registry data
  let stages := stageMap py draft.stages
  checkAcyclic py stages
  checkCorrectionLoop py draft.stages
  match py.orElse (data.get "loops") (.arr []) with
  | .arr entries => do
      let loops ← validateLoops py stages [] entries
      require (loops.isEmpty || draft.maxLoopCount ≠ 0) .pipelineValidation
        (text ("pipeline declares correction loops but max_loop_count is 0; this creates an " ++
          "impossible terminal path (loop would always require at least one correction entry)"))
      .ok { schemaId := schemaId, stages := draft.stages, maxRetries := draft.maxRetries,
            maxLoopCount := draft.maxLoopCount, executionMode := draft.executionMode, loops := loops }
  | _ => raise .pipeline (text "loops must be a list")

end Loader

end GpuManager.Services
