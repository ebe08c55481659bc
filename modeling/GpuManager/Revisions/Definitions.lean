import GpuManager.Lib.JsonFile
import GpuManager.Workflow.Contracts

/-!
# Validation of service definitions

`validate_service_definition` looks at the name and at any JSON value, and lists what is wrong; it
raises where a routing type or a stage kind is not hashable.  The fields that are checked alike
are sets in the source; nothing but the order of the messages depends on their iteration.

The validation looks values up by their names and goes through lists in their order.  A definition
that was read back from a file is therefore validated as before
(`validateServiceDefinition_sortKeys`).
-/

namespace GpuManager.Revisions

open PyStr Json Workflow

variable {F : Type}

/-- The message of a field that is there and is wrong. -/
def fault (service : Json F) (field : String) (wrong : Json F → Bool) (message : String) :
    List PyStr :=
  if (service.get? field).any wrong then [text message] else []

def list? : Json F → Option (List (Json F))
  | .arr items => some items
  | _ => none

/-- `_safe_reference`. -/
def safeReference (value : PyStr) (allowPath : Bool) : Bool :=
  if blank value || value.any fun c => c.val = 0 then false
  else
    let reference := (strip value).map fun c => if c = 0x5c then 0x2f else c
    if (text "/").isPrefixOf reference || (text "~").isPrefixOf reference ||
        decide (text "://" <:+: reference) then false
    else if (reference.splitOn 0x2f).any fun part => part = text ".." then false
    else if allowPath then reference.all fun c => 0x20 ≤ c.val
    else PyStr.isId reference

def portWrong : Json F → Bool
  | .int port => !(0 ≤ port ∧ port ≤ 65535)
  | _ => true

/-- `_ROUTING_TYPES`. -/
def routingTypes : List PyStr := ["generation", "llm", "orchestrator", "other"].map text

def stringsWrong (nonempty : Bool) (value : Json F) : Bool :=
  match list? value with
  | none => true
  | some items => items.any fun item =>
    match item.str? with
    | none => true
    | some s => nonempty && s.isEmpty

def overridesWrong : Json F → Bool
  | .obj members => members.any fun m => m.2.str?.isNone
  | _ => true

def textWrong (value : Json F) : Bool := !value.isNull && value.str?.isNone

def referenceWrong (allowPath : Bool) (value : Json F) : Bool :=
  value.str?.any fun s => !safeReference s allowPath

def objectWrong (value : Json F) : Bool := !value.isNull && !value.isObj

/-- A value that is neither `None` nor an object nor a list. -/
def collectionWrong (value : Json F) : Bool := objectWrong value && (list? value).isNone

/-- A list with an entry that is not of the right kind. -/
def entriesWrong (ok : Json F → Bool) (value : Json F) : Bool :=
  (list? value).any fun items => items.any fun item => !ok item

def workflowErrors (service : Json F) : Except TypeError (List PyStr) :=
  let workflow := service.get "workflow"
  if workflow.isObj then
    (validateWorkflowDefinition workflow).map fun errors =>
      errors.map fun e => text "workflow." ++ e.message
  else .ok []

def fieldErrors (service : Json F) (workflow : List PyStr) : List PyStr :=
  fault service "port" portWrong "port must be an integer between 0 and 65535" ++
  fault service "routing_group_type" (fun v => !(v.str?.any (· ∈ routingTypes)))
    "routing_group_type must be one of ['generation', 'llm', 'orchestrator', 'other']" ++
  fault service "launch_args" (stringsWrong false) "launch_args must be a list of strings" ++
  fault service "env_overrides" overridesWrong
    "env_overrides must map string names to string values" ++
  ["systemd_unit", "routing_group", "bundle"].flatMap (fun field =>
    fault service field textWrong (field ++ " must be a string")) ++
  ["runtime_profile", "adapter"].flatMap (fun field =>
    fault service field textWrong (field ++ " must be a string") ++
    fault service field (referenceWrong false) (field ++ " must be a simple registry identifier")) ++
  ["workflow_ref", "operation_catalog_ref", "source_lock_ref"].flatMap (fun field =>
    fault service field textWrong (field ++ " must be a string") ++
    fault service field (referenceWrong true) (field ++ " must be a relative registry reference")) ++
  ["input_contract", "input_schema", "output_contract", "resource_requirements", "admission",
      "workflow", "metadata"].flatMap (fun field =>
    fault service field objectWrong (field ++ " must be an object")) ++
  workflow ++
  ["processing", "outputs"].flatMap (fun field =>
    fault service field collectionWrong (field ++ " must be an object or list")) ++
  fault service "processing" (entriesWrong Json.isObj) "processing list entries must be objects" ++
  fault service "outputs" (entriesWrong fun v => v.str?.isSome || v.isObj)
    "outputs list entries must be strings or objects" ++
  ["dependencies", "models", "model_targets", "capabilities", "aliases"].flatMap (fun field =>
    fault service field (stringsWrong true) (field ++ " must be a list of non-empty strings")) ++
  ["command", "exec", "shell", "privileged", "host_mounts", "docker_socket", "host_network"].flatMap
    (fun field => fault service field (fun _ => true)
      (field ++ " is not allowed in a service definition"))

/-- `validate_service_definition`. -/
def validateServiceDefinition (name : PyStr) (service : Json F) :
    Except TypeError (List PyStr) :=
  let errors := if PyStr.isId name = true then []
    else [text "name must contain only letters, digits, '.', '_' or '-'"]
  if service.isObj = false then .ok (errors ++ [text "service must be an object"])
  else if (service.get "routing_group_type").hashable = false then .error .unhashable
  else (workflowErrors service).map fun workflow => errors ++ fieldErrors service workflow

/-! ## Definitions that were read back -/

section Sorted

variable {value service stage definition : Json F} {ok : Json F → Bool}

@[simp] theorem str?_sortKeys (value : Json F) : (sortKeys value).str? = value.str? := by
  cases value <;> rfl

@[simp] theorem isObj_sortKeys (value : Json F) : (sortKeys value).isObj = value.isObj := by
  cases value <;> rfl

@[simp] theorem isNull_sortKeys (value : Json F) : (sortKeys value).isNull = value.isNull := by
  cases value <;> rfl

@[simp] theorem hashable_sortKeys (value : Json F) :
    (sortKeys value).hashable = value.hashable := by
  cases value <;> rfl

@[simp] theorem list?_sortKeys (value : Json F) :
    list? (sortKeys value) = (list? value).map fun items => items.map sortKeys := by
  cases value with
  | arr items => exact congrArg some (sortItems_eq_map items)
  | _ => rfl

theorem get_sortKeys (h : value.Plain) (key : String) :
    (sortKeys value).get key = sortKeys (value.get key) := by
  unfold Json.get
  rw [get?_sortKeys h]
  cases value.get? key <;> rfl

/-- A value of a plain object is plain. -/
theorem plain_get (h : value.Plain) (key : String) : (value.get key).Plain := by
  cases value with
  | obj members =>
    show (Option.getD ((members.find? fun m : PyStr × Json F => m.1 = text key).map (·.2))
      Json.null).Plain
    cases hfind : members.find? fun m => m.1 = text key with
    | none => trivial
    | some m => exact (plainMembers_iff.mp h.2 m (List.mem_of_find?_eq_some hfind)).2
  | _ => trivial

/-- A predicate that does not look at the order of the keys. -/
def Unordered (p : Json F → Bool) : Prop := ∀ value, p (sortKeys value) = p value

theorem fault_sortKeys (h : service.Plain) {wrong : Json F → Bool} (hwrong : Unordered wrong)
    (field message : String) :
    fault (sortKeys service) field wrong message = fault service field wrong message := by
  unfold fault
  rw [get?_sortKeys h, Option.any_map]
  have hsame : (fun value => wrong (sortKeys value)) = wrong := funext hwrong
  rw [hsame]

/-- A predicate on the items of a list, one by one. -/
theorem any_sortKeys {p : Json F → Bool} (hp : Unordered p) (items : List (Json F)) :
    (items.map sortKeys).any p = items.any p := by
  rw [List.any_map]
  exact congrArg items.any (funext hp)

theorem portWrong_unordered : Unordered (portWrong (F := F)) := by
  intro value
  cases value <;> rfl

theorem stringsWrong_unordered (nonempty : Bool) : Unordered (stringsWrong (F := F) nonempty) := by
  intro value
  unfold stringsWrong
  rw [list?_sortKeys]
  cases list? value with
  | none => rfl
  | some items =>
    refine any_sortKeys (fun item => ?_) items
    simp only [str?_sortKeys]

theorem overridesWrong_unordered : Unordered (overridesWrong (F := F)) := by
  intro value
  cases value with
  | obj members =>
    show (sortMembers (sortValues members)).any _ = members.any _
    rw [(sortMembers_perm _).any_eq, sortValues_eq_map, List.any_map]
    refine congrArg members.any (funext fun m => ?_)
    simp only [Function.comp_apply, str?_sortKeys]
  | _ => rfl

theorem entriesWrong_unordered (hok : Unordered ok) :
    Unordered (entriesWrong ok) := by
  intro value
  unfold entriesWrong
  rw [list?_sortKeys, Option.any_map]
  refine congrArg (list? value).any (funext fun items => ?_)
  exact any_sortKeys (fun item => congrArg not (hok item)) items

theorem illTyped_sortKeys (h : stage.Plain) (hok : Unordered ok)
    (field : String) : illTyped (sortKeys stage) field ok = illTyped stage field ok := by
  unfold illTyped
  rw [get?_sortKeys h]
  cases stage.get? field with
  | none => rfl
  | some value =>
    show (!(sortKeys value).isNull && !ok (sortKeys value)) = (!value.isNull && !ok value)
    rw [isNull_sortKeys, hok]

theorem dependsOn?_sortKeys (h : stage.Plain) : dependsOn? (sortKeys stage) = dependsOn? stage := by
  unfold dependsOn?
  rw [get?_sortKeys h]
  cases stage.get? "depends_on" with
  | none => rfl
  | some value =>
    cases value with
    | arr items =>
      have hnames : (sortItems items).filterMap Json.str? = items.filterMap Json.str? := by
        rw [sortItems_eq_map, List.filterMap_map]
        exact congrArg (fun f => items.filterMap f) (funext str?_sortKeys)
      have hlength : (sortItems items).length = items.length := by
        rw [sortItems_eq_map, List.length_map]
      show (if ((sortItems items).filterMap Json.str?).length = (sortItems items).length ∧ _
        then some _ else none) = _
      rw [hnames, hlength]
    | _ => rfl

theorem stageErrors_sortKeys (h : stage.Plain) (index : ℕ) :
    stageErrors index (sortKeys stage) = stageErrors index stage := by
  have hstrings : Unordered fun value : Json F => value.str?.isSome := fun value => by
    simp only [str?_sortKeys]
  unfold stageErrors
  simp only [get_sortKeys h, str?_sortKeys, isNull_sortKeys, isObj_sortKeys,
    illTyped_sortKeys h hstrings, illTyped_sortKeys h isObj_sortKeys, dependsOn?_sortKeys h,
    get?_sortKeys h]
  rcases stage.get? "enabled_by_default" with _ | value
  · rfl
  · cases value <;> rfl

theorem scanStage_sortKeys (h : stage.Plain) (index : ℕ) (scan : Scan) :
    scanStage index (sortKeys stage) scan = scanStage index stage scan := by
  have hid : stageId? (sortKeys stage) = stageId? stage := by
    unfold stageId?
    rw [get_sortKeys h, str?_sortKeys]
  unfold scanStage dependsOn
  simp only [isObj_sortKeys, hid, get_sortKeys h, hashable_sortKeys, dependsOn?_sortKeys h,
    stageErrors_sortKeys h]

theorem scanStages_sortKeys {stages : List (Json F)} (h : ∀ stage ∈ stages, stage.Plain)
    (index : ℕ) (scan : Scan) :
    scanStages index (stages.map sortKeys) scan = scanStages index stages scan := by
  induction stages generalizing index scan with
  | nil => rfl
  | cons stage stages ih =>
    obtain ⟨hstage, hstages⟩ := List.forall_mem_cons.mp h
    rw [List.map_cons]
    unfold scanStages
    rw [scanStage_sortKeys hstage]
    cases scanStage index stage scan with
    | error e => rfl
    | ok next => exact ih hstages (index + 1) next

theorem headErrors_sortKeys (h : definition.Plain) :
    headErrors (sortKeys definition) = headErrors definition := by
  unfold headErrors
  rw [get_sortKeys h, get_sortKeys h, str?_sortKeys, str?_sortKeys, get?_sortKeys h]
  rcases definition.get? "revision" with _ | value
  · rfl
  · cases value <;> rfl

theorem portErrors_sortKeys (h : definition.Plain) :
    portErrors (sortKeys definition) = portErrors definition := by
  unfold portErrors
  rw [get_sortKeys h, get_sortKeys h, isNull_sortKeys, isObj_sortKeys]
  cases definition.get "outputs" with
  | arr items =>
    refine congrArg (fun wrong => _ ++ reportIf wrong DefinitionError.outputs) ?_
    show (sortItems items).any _ = _
    rw [sortItems_eq_map]
    exact any_sortKeys (fun value => congrArg not (isObj_sortKeys value)) items
  | _ => rfl

/-- **A workflow that was read back** is validated as before. -/
theorem validateWorkflowDefinition_sortKeys (h : definition.Plain) :
    validateWorkflowDefinition (sortKeys definition) = validateWorkflowDefinition definition := by
  unfold validateWorkflowDefinition
  rw [isObj_sortKeys, get_sortKeys h, headErrors_sortKeys h, portErrors_sortKeys h]
  have hstages := plain_get h "stages"
  cases hvalue : definition.get "stages" with
  | arr stages =>
    rw [hvalue] at hstages
    cases stages with
    | nil => rfl
    | cons stage stages =>
      have hscan := scanStages_sortKeys (plainItems_iff.mp hstages) 0 {}
      rw [← sortItems_eq_map] at hscan
      simp only [sortKeys, sortItems] at hscan ⊢
      rw [hscan]
  | _ => rfl

theorem workflowErrors_sortKeys (h : service.Plain) :
    workflowErrors (sortKeys service) = workflowErrors service := by
  unfold workflowErrors
  simp only [get_sortKeys h, isObj_sortKeys,
    validateWorkflowDefinition_sortKeys (plain_get h "workflow")]

theorem fieldErrors_sortKeys (h : service.Plain) (workflow : List PyStr) :
    fieldErrors (sortKeys service) workflow = fieldErrors service workflow := by
  have hrouting : Unordered fun value : Json F => !(value.str?.any (· ∈ routingTypes)) :=
    fun value => by simp only [str?_sortKeys]
  have htext : Unordered (textWrong (F := F)) := fun value => by
    simp only [textWrong, isNull_sortKeys, str?_sortKeys]
  have hreference : ∀ allowPath, Unordered (referenceWrong (F := F) allowPath) :=
    fun allowPath value => by simp only [referenceWrong, str?_sortKeys]
  have hobject : Unordered (objectWrong (F := F)) := fun value => by
    simp only [objectWrong, isNull_sortKeys, isObj_sortKeys]
  have hcollection : Unordered (collectionWrong (F := F)) := fun value => by
    simp only [collectionWrong, hobject value, list?_sortKeys, Option.isNone_map]
  have hentries : Unordered fun value : Json F => value.str?.isSome || value.isObj :=
    fun value => by simp only [str?_sortKeys, isObj_sortKeys]
  have hany : Unordered fun _ : Json F => true := fun _ => rfl
  unfold fieldErrors
  simp only [fault_sortKeys h portWrong_unordered, fault_sortKeys h hrouting,
    fault_sortKeys h (stringsWrong_unordered _), fault_sortKeys h overridesWrong_unordered,
    fault_sortKeys h htext, fault_sortKeys h (hreference _), fault_sortKeys h hobject,
    fault_sortKeys h hcollection, fault_sortKeys h (entriesWrong_unordered isObj_sortKeys),
    fault_sortKeys h (entriesWrong_unordered hentries),
    fault_sortKeys h hany]

/-- **A definition that was read back** is validated as before. -/
theorem validateServiceDefinition_sortKeys (name : PyStr) (h : service.Plain) :
    validateServiceDefinition name (sortKeys service) = validateServiceDefinition name service := by
  unfold validateServiceDefinition
  simp only [isObj_sortKeys, get_sortKeys h, hashable_sortKeys, workflowErrors_sortKeys h,
    fieldErrors_sortKeys h]

end Sorted

end GpuManager.Revisions
