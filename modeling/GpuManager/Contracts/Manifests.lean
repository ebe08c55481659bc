import GpuManager.Host.Overlay
import GpuManager.Revisions.Definitions
import GpuManager.Services.Loader

/-!
# Manifests without launch data

Model sets, runtime profiles and service definitions may not say how a process is launched: each
validator refuses a list of names.  `_dangerous_model_set_fields` walks a model set to its end and
lowers every key.  The other two look the names up in the document itself, as they are spelt: the
objects inside an accepted profile or service, and names in another case, may say anything
(`launch_free_iff`).
-/

namespace GpuManager.Contracts

open PyStr Services Workflow List
open Host (isHex64 whenever)
open Revisions (fault list? objectWrong portWrong textWrong)

variable {F : Type}

/-- `_DISALLOWED_FIELDS`. -/
def disallowedFields : List String :=
  ["command", "exec", "shell", "privileged", "host_mounts", "docker_socket", "host_network"]

/-- `_MODEL_SET_DISALLOWED_FIELDS`. -/
def modelSetDisallowedFields : List String :=
  disallowedFields ++
    ["path", "url", "endpoint", "environment", "env", "secret", "credentials", "mounts"]

/-- `_string_list`. -/
def stringList (value : Json F) : Bool :=
  (list? value).any fun items => items.all fun item => item.str?.any fun s => !blank s

def revisionWrong : Json F → Bool
  | .int n => n < 1
  | _ => true

def blankWrong (value : Json F) : Bool := !value.str?.any fun s => !blank s

def nameErrors (name : PyStr) : List PyStr :=
  whenever (¬ PyStr.isId name)
    (text "name must contain only letters, digits, '.', '_' or '-'")

section Validation

variable (py : PyValues F) (other : CodePoint → PyStr)

mutual

/-- `_dangerous_model_set_fields`; `path` is its `prefix`. -/
def dangerousModelSetFields (path : PyStr) : Json F → List PyStr
  | .obj members => dangerousMembers path members
  | .arr items => dangerousItems path 0 items
  | _ => []

def dangerousMembers (path : PyStr) : List (PyStr × Json F) → List PyStr
  | [] => []
  | (key, child) :: members =>
    let childPath := if path = [] then key else path ++ text "." ++ key
    whenever (lower other key ∈ modelSetDisallowedFields.map text)
        (childPath ++ text " is not allowed in a model set") ++
      dangerousModelSetFields childPath child ++ dangerousMembers path members

def dangerousItems (path : PyStr) (index : ℕ) : List (Json F) → List PyStr
  | [] => []
  | child :: items =>
    dangerousModelSetFields (path ++ text "[" ++ ofNat index ++ text "]") child ++
      dangerousItems path (index + 1) items

end

/-- The errors of a component after its path; `seen` are the ids before it. -/
def componentErrors (qualified : Bool) (seen : List PyStr) (component : Json F) : List PyStr :=
  if component.isObj = false then [text " must be an object"]
  else
    let id := (component.get "id").str?
    (if id.any PyStr.isId = false then [text ".id must be a safe identifier"]
      else whenever (id.any (· ∈ seen)) (text ".id is duplicated")) ++
    ["role", "artifact", "precision", "device"].flatMap (fun field =>
      match (component.get field).str?.filter fun s => !blank s with
      | none => [text ("." ++ field ++ " must be a non-empty string")]
      | some value => whenever (qualified ∧ ["unresolved", "unknown"].any fun word =>
            (text word).isPrefixOf (lower other (strip value)))
          (text ("." ++ field ++ " may not be unresolved in a qualified model set"))) ++
    fault component "compatible_with" (fun v => !stringList v)
      ".compatible_with must be a list of component IDs" ++
    fault component "sha256" (fun v => !v.isNull && !v.str?.any isHex64)
      ".sha256 must be null or lowercase SHA-256" ++
    whenever (qualified ∧ (component.get "sha256").isNull)
      (text ".sha256 is required for a qualified model set")

/-- The loop over the components. -/
def scanComponents (qualified : Bool) (index : ℕ) (seen : List PyStr) :
    List (Json F) → List PyStr
  | [] => []
  | component :: components =>
    (componentErrors other qualified seen component).map
      (text "components[" ++ ofNat index ++ text "]" ++ ·) ++
    scanComponents qualified (index + 1)
      (seen ++ ((component.get "id").str?.filter PyStr.isId).toList) components

def componentSet (components : List (Json F)) (field : String) : List PyStr :=
  components.filterMap fun c => (c.get field).str?.filter fun s => !blank s

def missing (names others : List PyStr) : List PyStr :=
  ((names.filter (· ∉ others)).dedup).insertionSort fun a b => PyStr.le a b

/-- The errors of `memory_budget_mib`; `repr` is that of a string. -/
def budgetErrors (repr : PyStr → PyStr) (qualified runtime : Bool) (devices : List PyStr) :
    Json F → List PyStr
  | .obj budgets =>
    whenever (runtime ∧ budgets = []) (text "model-runtime sets must declare memory budgets") ++
    budgets.flatMap (fun (device, amount) =>
      whenever (blank device) (text "memory_budget_mib keys must be non-empty strings") ++
      match amount.isNull && !qualified, amount with
      | true, _ => []
      | false, .int n =>
        if n < 0 then [wrong device]
        else whenever (qualified ∧ runtime ∧ n = 0) (text "memory_budget_mib." ++ device ++
          text " must be positive for a qualified model runtime")
      | false, _ => [wrong device]) ++
    (missing devices (budgets.map Prod.fst)).map fun device =>
      text "memory_budget_mib must declare component device " ++ repr device
  | _ => [text "memory_budget_mib must be an object"]
where
  wrong (device : PyStr) : PyStr :=
    text "memory_budget_mib." ++ device ++ text " must be a non-negative integer" ++
      text (if qualified then " for a qualified model set" else " or null")

/-- The errors of `compatibility`. -/
def compatibilityErrors (repr : PyStr → PyStr) (qualified runtime : Bool) (roles : List PyStr)
    (compatibility : Json F) : List PyStr :=
  let fields := ["engines", "requires_roles", "accepts", "produces"]
  let required := compatibility.get "requires_roles"
  if compatibility.isObj = false then [text "compatibility must be an object"]
  else
    fields.flatMap (fun field => fault compatibility field (fun v => !stringList v)
      ("compatibility." ++ field ++ " must be a list of non-empty strings")) ++
    (if stringList required then
      (missing (((list? required).getD []).filterMap Json.str?) roles).map fun role =>
        text "compatibility.requires_roles references undeclared role " ++ repr role
    else []) ++
    fields.flatMap fun field =>
      whenever (qualified ∧ runtime ∧ py.truthy (compatibility.get field) = false)
        (text ("compatibility." ++ field ++ " is required for a qualified model runtime"))

/-- `validate_model_set`; it raises for a status or a kind that is not hashable. -/
def validateModelSet (repr : PyStr → PyStr) (name : PyStr) (modelSet : Json F) :
    Except TypeError (List PyStr) :=
  let status := modelSet.get "status"
  let kind := modelSet.get "kind"
  let qualified := decide (status.str? = some (text "qualified"))
  let runtime := decide (kind.str? = some (text "model-runtime"))
  let components := list? (modelSet.get "components")
  let parts := components.getD []
  if modelSet.isObj = false then .ok (nameErrors name ++ [text "model set must be an object"])
  else if status.hashable = false ∨ kind.hashable = false then .error .unhashable
  else .ok (
    nameErrors name ++
    whenever ((modelSet.get "schema_version").str? ≠ some (text "model-set.v1"))
      (text "schema_version must be 'model-set.v1'") ++
    whenever ((modelSet.get "id").str? ≠ some name)
      (text "id must match the registry model-set name") ++
    fault modelSet "revision" revisionWrong "revision must be a positive integer" ++
    whenever (¬ status.str?.any (· ∈ ["draft", "qualified", "retired"].map text))
      (text "status must be one of ['draft', 'qualified', 'retired']") ++
    whenever (¬ kind.str?.any (· ∈ ["model-runtime", "control-plane"].map text))
      (text "kind must be one of ['control-plane', 'model-runtime']") ++
    (if components.isNone then [text "components must be a list"]
      else whenever (runtime ∧ parts = [])
        (text "model-runtime sets must declare at least one component")) ++
    scanComponents other qualified 0 [] parts ++
    budgetErrors repr qualified runtime (componentSet parts "device")
      (modelSet.get "memory_budget_mib") ++
    compatibilityErrors py repr qualified runtime (componentSet parts "role")
      (modelSet.get "compatibility") ++
    dangerousModelSetFields other [] modelSet)

/-- `validate_runtime_profile`. -/
def validateRuntimeProfile (name : PyStr) (profile : Json F) : List PyStr :=
  let process := profile.get "process"
  if profile.isObj = false then nameErrors name ++ [text "profile must be an object"]
  else
    nameErrors name ++
    whenever ((profile.get "schema_version").str? ≠ some (text "runtime-profile.v1"))
      (text "schema_version must be 'runtime-profile.v1'") ++
    fault profile "revision" revisionWrong "revision must be a positive integer" ++
    ["engine", "adapter"].flatMap (fun field => whenever (blankWrong (profile.get field))
      (text (field ++ " must be a non-empty string"))) ++
    fault profile "process" objectWrong "process must be an object" ++
    fault process "unit" textWrong "process.unit must be a string" ++
    fault process "port" portWrong "process.port must be an integer between 0 and 65535" ++
    fault process "health_path" (fun v => v.str?.isNone) "process.health_path must be a string" ++
    fault profile "model_set" (fun v => textWrong v && !v.isObj)
      "model_set must be a string or object" ++
    fault profile "model_set_revision" revisionWrong
      "model_set_revision must be a positive integer" ++
    fault profile "model_set_fingerprint" (fun v => !isHex64 (py.strOf v))
      "model_set_fingerprint must be a lowercase SHA-256" ++
    fault profile "capabilities" (fun v => !stringList v)
      "capabilities must be a list of non-empty strings" ++
    fault profile "resource_requirements" (fun v => !v.isObj)
      "resource_requirements must be an object" ++
    fault profile "identity_fields" (fun v => !stringList v)
      "identity_fields must be a list of non-empty strings" ++
    disallowedFields.flatMap fun field => fault profile field (fun _ => true)
      (field ++ " is not allowed in a runtime profile")

end Validation

/-! ## Keys at any depth -/

inductive HasKey (key : PyStr) : Json F → Prop where
  | here {child : Json F} {members : List (PyStr × Json F)} (listed : (key, child) ∈ members) :
      HasKey key (.obj members)
  | member {name : PyStr} {child : Json F} {members : List (PyStr × Json F)}
      (listed : (name, child) ∈ members) (below : HasKey key child) : HasKey key (.obj members)
  | item {child : Json F} {items : List (Json F)} (listed : child ∈ items)
      (below : HasKey key child) : HasKey key (.arr items)

variable (other : CodePoint → PyStr)

/-- No key at any depth is one of the names, in any letter case. -/
def LaunchFree (names : List String) (document : Json F) : Prop :=
  ∀ key, HasKey key document → lower other key ∉ names.map text

/-- The names that the document itself has for its keys are refused as they are spelt only, and
the values under its keys are not searched: neither hides a name. -/
def HidesNone (names : List String) : Json F → Prop
  | .obj members => ∀ m ∈ members,
      (lower other m.1 ∈ names.map text → m.1 ∈ names.map text) ∧ LaunchFree other names m.2
  | _ => True

variable {other} {key : PyStr} {name path : PyStr} {document : Json F}

theorem dangerousMembers_eq_nil {members : List (PyStr × Json F)}
    (h : dangerousMembers other path members = []) {m : PyStr × Json F} (hm : m ∈ members) :
    lower other m.1 ∉ modelSetDisallowedFields.map text ∧
      ∃ childPath, dangerousModelSetFields other childPath m.2 = [] := by
  induction members with
  | nil => cases hm
  | cons first rest ih =>
    unfold dangerousMembers at h
    obtain ⟨hfirst, hrest⟩ := append_eq_nil_iff.mp h
    rcases mem_cons.mp hm with rfl | hm
    · obtain ⟨hkey, hchild⟩ := append_eq_nil_iff.mp hfirst
      exact ⟨fun hlisted => by simp [whenever, hlisted] at hkey, _, hchild⟩
    · exact ih hrest hm

theorem dangerousItems_eq_nil {items : List (Json F)} {index : ℕ}
    (h : dangerousItems other path index items = []) {child : Json F} (hchild : child ∈ items) :
    ∃ childPath, dangerousModelSetFields other childPath child = [] := by
  induction items generalizing index with
  | nil => cases hchild
  | cons first rest ih =>
    unfold dangerousItems at h
    obtain ⟨hfirst, hrest⟩ := append_eq_nil_iff.mp h
    rcases mem_cons.mp hchild with rfl | hchild
    · exact ⟨_, hfirst⟩
    · exact ih hrest hchild

/-- The walk of a model set comes to every key. -/
theorem launchFree_of_dangerous (h : dangerousModelSetFields other path document = []) :
    LaunchFree other modelSetDisallowedFields document := by
  intro key hkey
  induction hkey generalizing path with
  | here listed => exact (dangerousMembers_eq_nil h listed).1
  | member listed _ ih =>
    obtain ⟨_, hchild⟩ := (dangerousMembers_eq_nil h listed).2
    exact ih hchild
  | item listed _ ih =>
    obtain ⟨_, hchild⟩ := dangerousItems_eq_nil h listed
    exact ih hchild

theorem launchFree_of_validateModelSet {py : PyValues F} {repr : PyStr → PyStr}
    {modelSet : Json F} (h : validateModelSet py other repr name modelSet = .ok []) :
    LaunchFree other modelSetDisallowedFields modelSet := by
  unfold validateModelSet at h
  simp only at h
  split at h
  · simp at h
  split at h
  · cases h
  · exact launchFree_of_dangerous (append_eq_nil_iff.mp (Except.ok.inj h)).2

/-- Names that are refused as keys of the document are hidden below it or in another case. -/
theorem launchFree_iff_of_faults {names : List String}
    {message : String → String} (hobject : document.isObj = true)
    (h : (names.flatMap fun field => fault document field (fun _ => true) (message field)) = []) :
    LaunchFree other names document ↔ HidesNone other names document := by
  cases document with
  | obj members =>
    have habsent : ∀ m ∈ members, m.1 ∉ names.map text := by
      intro m hm hlisted
      obtain ⟨field, hfield, hname⟩ := mem_map.mp hlisted
      have hnone := flatMap_eq_nil_iff.mp h field hfield
      cases hget : (Json.obj members).get? field with
      | none =>
        have hfind := find?_eq_none.mp (Option.map_eq_none_iff.mp hget) m hm
        exact hfind (by simp [hname])
      | some value => simp [fault, hget] at hnone
    constructor
    · intro hfree m hm
      exact ⟨fun hlower => absurd hlower (hfree m.1 (.here hm)),
        fun key hkey => hfree key (.member hm hkey)⟩
    · intro hnone key hkey
      cases hkey with
      | here listed => exact fun hlower => habsent _ listed ((hnone _ listed).1 hlower)
      | member listed below => exact (hnone _ listed).2 key below
  | _ => cases hobject

theorem launchFree_of_validateRuntimeProfile {py : PyValues F} {profile : Json F}
    (h : validateRuntimeProfile py name profile = []) :
    LaunchFree other disallowedFields profile ↔ HidesNone other disallowedFields profile := by
  unfold validateRuntimeProfile at h
  simp only at h
  split at h
  · simp at h
  · rename_i hobject
    exact launchFree_iff_of_faults (by simpa using hobject) (append_eq_nil_iff.mp h).2

theorem launchFree_of_validateServiceDefinition {service : Json F}
    (h : Revisions.validateServiceDefinition name service = .ok []) :
    LaunchFree other disallowedFields service ↔ HidesNone other disallowedFields service := by
  unfold Revisions.validateServiceDefinition at h
  simp only at h
  split at h
  · simp at h
  rename_i hobject
  split at h
  · cases h
  cases hworkflow : Revisions.workflowErrors service with
  | error e => simp [hworkflow, Except.map] at h
  | ok workflow =>
    rw [hworkflow] at h
    have hfields := (append_eq_nil_iff.mp (Except.ok.inj h)).2
    exact launchFree_iff_of_faults (by simpa using hobject)
      (append_eq_nil_iff.mp hfields).2

/-- A document in which the walk of a model set finds nothing hides none of the names. -/
theorem hidesNone_of_dangerous {members : List (PyStr × Json F)}
    (h : dangerousMembers other [] members = []) :
    HidesNone other disallowedFields (.obj members) := by
  have hsub : ∀ {key}, key ∈ disallowedFields.map text → key ∈ modelSetDisallowedFields.map text :=
    fun hkey => by
      rw [modelSetDisallowedFields, map_append]
      exact mem_append_left _ hkey
  intro m hm
  obtain ⟨hkey, _, hchild⟩ := dangerousMembers_eq_nil h hm
  exact ⟨fun hlower => absurd (hsub hlower) hkey,
    fun key hbelow hlower => launchFree_of_dangerous hchild key hbelow (hsub hlower)⟩

/-- **What an accepted manifest may not say.**  An accepted model set has none of its names as a
key, at any depth and in any letter case.  An accepted profile or service definition has none just
if no name is hidden in an inner object or by its case. -/
theorem launch_free_iff (py : PyValues F) (other : CodePoint → PyStr) (repr : PyStr → PyStr)
    (name : PyStr) (document : Json F) :
    (validateModelSet py other repr name document = .ok [] →
      LaunchFree other modelSetDisallowedFields document) ∧
    (validateRuntimeProfile py name document = [] →
      (LaunchFree other disallowedFields document ↔ HidesNone other disallowedFields document)) ∧
    (Revisions.validateServiceDefinition name document = .ok [] →
      (LaunchFree other disallowedFields document ↔
        HidesNone other disallowedFields document)) :=
  ⟨launchFree_of_validateModelSet, launchFree_of_validateRuntimeProfile,
    launchFree_of_validateServiceDefinition⟩

def commandProfile : Json ℚ :=
  .obj [(text "schema_version", .str (text "runtime-profile.v1")), (text "engine", .str (text "e")),
    (text "adapter", .str (text "a")), (text "process", .obj [(text "command", .str (text "sh"))])]

def qualifiedSet : Json ℚ :=
  .obj [(text "schema_version", .str (text "model-set.v1")), (text "id", .str (text "m")),
    (text "status", .str (text "qualified")), (text "kind", .str (text "model-runtime")),
    (text "components", .arr [.obj [(text "id", .str (text "unet")),
      (text "role", .str (text "diffusion")), (text "artifact", .str (text "unet.gguf")),
      (text "precision", .str (text "q4")), (text "device", .str (text "gpu0")),
      (text "sha256", .str (List.replicate 64 0x61))]]),
    (text "memory_budget_mib", .obj [(text "gpu0", .int 8192)]),
    (text "compatibility", .obj ((["engines", "requires_roles", "accepts", "produces"].map text).map
      (·, .arr [.str (text "diffusion")])))]

/-- A service definition with lists and objects in one another. -/
def nestedService : Json ℚ :=
  .obj [(text "systemd_unit", .str (text "draw.service")),
    (text "outputs", .arr [.obj [(text "kind", .str (text "image"))], .str (text "log")]),
    (text "metadata", .obj [(text "limits", .arr [.obj [(text "sizes", .arr [.int 512, .int 768])]]),
      (text "labels", .obj [(text "team", .str (text "draw"))])])]

/-- Python's conversions, of what these documents hold. -/
def plainValues : PyValues ℚ :=
  ⟨fun _ => none, fun _ => .ok 0, fun _ => none, fun _ => [], fun c => isAlphanumeric c⟩

/-- Nested documents of the three kinds are accepted; the set and the service are free of launch
commands, and the profile hides one. -/
theorem launch_free_iff_nested :
    LaunchFree (fun c => [c]) modelSetDisallowedFields qualifiedSet ∧
      (LaunchFree (fun c => [c]) disallowedFields commandProfile ↔
        HidesNone (fun c => [c]) disallowedFields commandProfile) ∧
      LaunchFree (fun c => [c]) disallowedFields nestedService :=
  ⟨(launch_free_iff plainValues _ id (text "m") qualifiedSet).1 (by decide +kernel),
    (launch_free_iff plainValues _ id (text "p") commandProfile).2.1 rfl,
    ((launch_free_iff plainValues _ id (text "s") nestedService).2.2 (by decide +kernel)).mpr
      (hidesNone_of_dangerous (by decide +kernel))⟩

/-- The profile is accepted, with a command in it. -/
theorem not_launch_free_command :
    ¬ ∀ (py : PyValues ℚ) (other : CodePoint → PyStr) (name : PyStr) (profile : Json ℚ),
      validateRuntimeProfile py name profile = [] → LaunchFree other disallowedFields profile :=
  fun h => h plainValues (fun c => [c]) (text "p") commandProfile rfl (text "command")
    (.member (.tail _ (.tail _ (.tail _ (.head _)))) (.here (.head _))) (.head _)

end GpuManager.Contracts
