import Mathlib.Data.List.Infix
import Mathlib.Data.List.Dedup
import Mathlib.Data.List.Pairwise
import Mathlib.Data.List.Sort
import Mathlib.Algebra.Order.Ring.Rat
import GpuManager.Host.FenceLedger

/-!
# The host overlay

`validate_overlay` of `runtime_host_supervisor.py`, and the bindings that a
`HostRuntimeSupervisor` makes of an overlay: an instance is bound to one systemd unit, or each of
its profiles is bound to one, with what the profiles share written once.

`unitsOf_disjoint` and `unitsOf_nodup`: in an overlay that is accepted no unit has two owners.
-/

namespace GpuManager.Host

open PyStr PyDict Option

/-- `_ACTIONS`. -/
inductive Action where
  | inspect
  | prepare
  | load
  | drain
  | unload
  | stop
  | health
  | reconcile
  deriving DecidableEq

/-- The name of an action. -/
def Action.value : Action → String
  | inspect => "inspect"
  | prepare => "prepare"
  | load => "load"
  | drain => "drain"
  | unload => "unload"
  | stop => "stop"
  | health => "health"
  | reconcile => "reconcile"

/-- The action of a name. -/
def Action.ofText (name : PyStr) : Option Action :=
  [inspect, prepare, load, drain, unload, stop, health, reconcile].find? fun action =>
    name = text action.value

/-- What `urlsplit` makes of an URL; `port` is `none` when reading it raises. -/
structure SplitUrl where
  scheme : PyStr
  hostname : Option PyStr
  port : Option (Option ℤ)
  credentials : Bool
  fragment : Bool

def isUnit (s : PyStr) : Bool :=
  (s.all fun c => isAlphanumeric c || c.val = 0x5f || c.val = 0x2e || c.val = 0x40 ||
      c.val = 0x3a || c.val = 0x2d) &&
    (text ".service").isSuffixOf s && 8 < s.length

/-- A full match of `[0-9a-f]{64}`. -/
def isHex64 (s : PyStr) : Bool :=
  s.length = 64 && s.all fun c =>
    (0x30 ≤ c.val && c.val ≤ 0x39) || (0x61 ≤ c.val && c.val ≤ 0x66)

/-- `[message]` if the check fails. -/
def whenever (p : Prop) [Decidable p] (message : PyStr) : List PyStr := if p then [message] else []

/-- `value.get(key, default)`. -/
def getOr (value : Json ℚ) (key : String) (default : Json ℚ) : Json ℚ :=
  (value.get? key).getD default

def unsupported (value : Json ℚ) (allowed : List String) : Bool :=
  match value with
  | .obj members => members.any fun m => allowed.all fun key => m.1 ≠ text key
  | _ => false

def named : Json ℚ → Bool
  | .str s => !s.isEmpty
  | _ => false

/-- The number of an `int` or a `float` that is no `bool`. -/
def number? : Json ℚ → Option ℚ
  | .int n => some n
  | .float x => some x
  | _ => none

/-- `_LOCAL_HOSTS`. -/
def localHosts : List String := ["localhost", "127.0.0.1", "::1"]

def validateUrl (urlsplit : PyStr → Option SplitUrl) (name : PyStr) (url : Json ℚ) :
    Option (List PyStr) :=
  match url with
  | .str s => do
      let parsed ← urlsplit s
      return whenever (parsed.scheme ≠ text "http" ∨
            ∀ host ∈ localHosts, parsed.hostname ≠ some (text host))
          (name ++ text ".url must be an explicit loopback HTTP URL") ++
        whenever (parsed.port = none) (name ++ text ".url has an invalid port") ++
        whenever (∃ port ∈ parsed.port.join, ¬ (1 ≤ port ∧ port ≤ 65535))
          (name ++ text ".url has an invalid port") ++
        whenever (parsed.credentials = true ∨ parsed.fragment = true)
          (name ++ text ".url may not contain credentials or a fragment")
  | _ => return [name ++ text ".url must be a string"]

def validateProbe (urlsplit : PyStr → Option SplitUrl) (name : PyStr) (probe : Json ℚ) :
    Option (List PyStr) :=
  if probe.isNull = true then return []
  else if probe.isObj = false then return [name ++ text " must be an object"]
  else do
    let method := getOr probe "method" (.str (text "GET"))
    if method.hashable = false then none
    let url ← validateUrl urlsplit name (probe.get "url")
    return whenever (unsupported probe ["method", "url", "body", "expect", "timeout_seconds"] = true)
        (name ++ text " contains unsupported fields") ++
      whenever (¬ ∃ t ∈ number? (getOr probe "timeout_seconds" (.int 15)), 1 ≤ t ∧ t ≤ 120)
        (name ++ text ".timeout_seconds must be between 1 and 120") ++
      whenever (method.str? ≠ some (text "GET") ∧ method.str? ≠ some (text "POST"))
        (name ++ text ".method must be GET or POST") ++
      url ++
      whenever ((probe.get? "body").any fun body => !body.isObj)
        (name ++ text ".body must be an object") ++
      whenever ((probe.get? "expect").any fun expect => !expect.isObj)
        (name ++ text ".expect must be an object")

/-- The probes of a binding. -/
def probeNames : List String := ["health_probe", "model_probe", "drain_probe", "unload_probe"]

/-- `_UNIT_RE` matches the text of the value.  Only a string has a text that it matches. -/
def unitMatches : Json ℚ → Bool
  | .str s => isUnit s
  | _ => false

/-- `_HEX64_RE` matches the text of the value.  An integer may have such a text as well. -/
def hexMatches : Json ℚ → Bool
  | .str s => isHex64 s
  | .int n => isHex64 (text (toString n))
  | _ => false

def actionsOf : Json ℚ → Option (List Action)
  | .arr items => items.mapM fun item => item.str? >>= Action.ofText
  | _ => none

/-- `name in (actions or [])`. -/
def allows (actions : Json ℚ) (name : String) : Bool :=
  match actions with
  | .arr items => items.any fun item => item.str? = some (text name)
  | .str s => text name <:+: s
  | .obj members => members.any fun m => m.1 = text name
  | _ => false

/-- `in` raises on the value, unless it is false: a number, or `True`. -/
def uncontaining : Json ℚ → Bool
  | .int n => n ≠ 0
  | .float x => x ≠ 0
  | .bool b => b
  | _ => false

/-- `model_probe["expect"]` is an object with members. -/
def expects (probe : Json ℚ) : Bool :=
  match probe.get "expect" with
  | .obj members => !members.isEmpty
  | _ => false

/-- `_validate_resolved_binding`; `none` when it raises. -/
def validateResolvedBinding (urlsplit : PyStr → Option SplitUrl) (pre : PyStr)
    (binding : Json ℚ) : Option (List PyStr) := do
  let loadMode := getOr binding "load_mode" (.str (text "start"))
  if loadMode.hashable = false then none
  let actions := binding.get "actions"
  let probes ← probeNames.mapM fun name => validateProbe urlsplit (text name) (binding.get name)
  if uncontaining actions = true then none
  let missing := fun (action probe : String) =>
    whenever (allows actions action = true ∧ (binding.get probe).isNull = true)
      (pre ++ text ("." ++ probe ++ " is required for " ++ action))
  return whenever (unsupported binding ["profile_name", "profile_fingerprint", "engine", "adapter",
        "model_set", "unit", "load_mode", "actions", "health_probe", "model_probe", "drain_probe",
        "unload_probe"] = true) (pre ++ text " contains unsupported fields") ++
    ["profile_name", "engine", "adapter", "model_set"].flatMap (fun field =>
      whenever (named (binding.get field) = false)
        (pre ++ text ("." ++ field ++ " must be non-empty"))) ++
    whenever (hexMatches (binding.get "profile_fingerprint") = false)
      (pre ++ text ".profile_fingerprint must be a lowercase SHA-256") ++
    whenever (unitMatches (binding.get "unit") = false)
      (pre ++ text ".unit must be an explicit .service name") ++
    whenever (loadMode.str? ≠ some (text "start") ∧ loadMode.str? ≠ some (text "restart"))
      (pre ++ text ".load_mode must be start or restart") ++
    whenever (actionsOf actions = none ∨ actionsOf actions = some [])
      (pre ++ text ".actions contains an unsupported action") ++
    probes.flatten.map (fun message => pre ++ text "." ++ message) ++
    missing "health" "health_probe" ++
    missing "drain" "drain_probe" ++
    whenever (allows actions "health" = true ∧ expects (binding.get "model_probe") = false)
      (pre ++ text ".model_probe.expect must identify the loaded model") ++
    missing "unload" "unload_probe"

/-! ## Instances -/

/-- `{**common, **profile, "profile_name": profile_name}`. -/
def resolve (binding profile : List (PyStr × Json ℚ)) (profileName : PyStr) : Json ℚ :=
  let common := binding.filter fun m => m.1 ≠ text "profiles"
  let both := profile.foldl (fun d m => set d m.1 m.2) common
  .obj (set both (text "profile_name") (.str profileName))

/-- `validate_overlay` for one profile of an instance: its errors, and its binding, unless it is
not even a profile. -/
def checkProfile (urlsplit : PyStr → Option SplitUrl) (pre : PyStr)
    (common : List (PyStr × Json ℚ)) (profile : PyStr × Json ℚ) :
    Option (List PyStr × List (PyStr × Json ℚ)) :=
  let pre := pre ++ text ".profiles." ++ profile.1
  if isId profile.1 = false then return ([pre ++ text ": invalid profile name"], [])
  else
    match profile.2 with
    | .obj members => do
        let binding := resolve common members profile.1
        let errors ← validateResolvedBinding urlsplit pre binding
        return (whenever (unsupported profile.2 ["profile_fingerprint", "engine", "adapter",
            "model_set", "load_mode", "unit", "health_probe", "model_probe", "drain_probe",
            "unload_probe"] = true) (pre ++ text " contains unsupported fields") ++ errors,
          [(pre, binding)])
    | _ => return ([pre ++ text " must be an object"], [])

def checkInstance (urlsplit : PyStr → Option SplitUrl) (entry : PyStr × Json ℚ) :
    Option (List PyStr × List (PyStr × PyStr × Json ℚ)) :=
  let pre := text "instances." ++ entry.1
  if isId entry.1 = false then return ([pre ++ text ": invalid instance ID"], [])
  else
    match entry.2 with
    | .obj members =>
      let profiles := entry.2.get "profiles"
      if profiles.isNull = true then do
        let errors ← validateResolvedBinding urlsplit pre entry.2
        return (errors, [(entry.1, pre, entry.2)])
      else
        let shared := whenever (unsupported entry.2 ["unit", "load_mode", "actions",
          "health_probe", "model_probe", "drain_probe", "unload_probe", "profiles"] = true)
          (pre ++ text " shared-profile binding contains unsupported fields")
        match profiles with
        | .obj (profile :: rest) => do
            let checked ← (profile :: rest).mapM (checkProfile urlsplit pre members)
            return (shared ++ checked.flatMap (·.1),
              (checked.flatMap (·.2)).map fun b => (entry.1, b))
        | _ => return (shared ++ [pre ++ text ".profiles must be a non-empty object"], [])
    | _ => return ([pre ++ text " must be an object"], [])

/-- `endpoint_owners` and its errors, for the probes of one binding. -/
def recordEndpoints (urlsplit : PyStr → Option SplitUrl) (pre instanceId : PyStr)
    (binding : Json ℚ) : List String → PyDict PyStr PyStr →
    Option (List PyStr × PyDict PyStr PyStr)
  | [], owners => return ([], owners)
  | name :: names, owners =>
    match (binding.get name).get "url" with
    | .str url => do
        let parsed ← urlsplit url
        match parsed.port with
        | none => recordEndpoints urlsplit pre instanceId binding names owners
        | some port =>
          let shown := match port with
            | some n => if n = 0 then 80 else n
            | none => 80
          let endpoint := parsed.hostname.getD (text "None") ++ text (":" ++ toString shown)
          match owners.get? endpoint with
          | some prior =>
            if prior ≠ instanceId then do
              let rest ← recordEndpoints urlsplit pre instanceId binding names owners
              return ((pre ++ text ("." ++ name ++ " shares ") ++ quoted endpoint ++
                text " with runtime instance " ++ quoted prior ++
                text "; shared endpoints require one instance lock") :: rest.1, rest.2)
            else recordEndpoints urlsplit pre instanceId binding names owners
          | none =>
            recordEndpoints urlsplit pre instanceId binding names
              (owners.set endpoint instanceId)
    | _ => recordEndpoints urlsplit pre instanceId binding names owners

/-- `record_physical_ownership` for the bindings in turn: its errors. -/
def recordOwnership (urlsplit : PyStr → Option SplitUrl) :
    List (PyStr × PyStr × Json ℚ) → PyDict PyStr PyStr → PyDict PyStr PyStr → Option (List PyStr)
  | [], _, _ => return []
  | (instanceId, pre, binding) :: rest, units, endpoints => do
      let unit := binding.get "unit"
      let recorded ← recordEndpoints urlsplit pre instanceId binding probeNames endpoints
      match unit with
      | .str name =>
        if name = [] then do
          let errors ← recordOwnership urlsplit rest units recorded.2
          return recorded.1 ++ errors
        else
          match units.get? name with
          | some prior => do
              let errors ← recordOwnership urlsplit rest units recorded.2
              return [pre ++ text ".unit duplicates " ++ quoted prior ++
                text "; each profile requires a distinct launch unit"] ++ recorded.1 ++ errors
          | none => do
              let errors ← recordOwnership urlsplit rest (units.set name pre) recorded.2
              return recorded.1 ++ errors
      | _ => do
          let errors ← recordOwnership urlsplit rest units recorded.2
          return recorded.1 ++ errors

/-- `OVERLAY_SCHEMA`. -/
def overlaySchema : String := "runtime-host-overlay.v1"

/-- `sorted(set(errors))`. -/
def sortedErrors (errors : List PyStr) : List PyStr :=
  errors.dedup.insertionSort fun a b => PyStr.le a b = true

def validateOverlay (urlsplit : PyStr → Option SplitUrl) (overlay : Json ℚ) : Option (List PyStr) :=
  let schema := whenever ((overlay.get "schema_version").str? ≠ some (text overlaySchema))
    (text ("schema_version must be '" ++ overlaySchema ++ "'"))
  match overlay.get "instances" with
  | .obj (entry :: rest) => do
      let checked ← (entry :: rest).mapM (checkInstance urlsplit)
      let owned ← recordOwnership urlsplit (checked.flatMap (·.2)) [] []
      return sortedErrors (schema ++ checked.flatMap (·.1) ++ owned)
  | _ => return schema ++ [text "instances must be a non-empty object"]

/-! ## Bindings -/

/-- A `HostSupervisorError`, or an exception of a built-in or of the outside. -/
inductive SupervisorError where
  | host (e : HostError)
  | python
  deriving DecidableEq

/-- `self.instances[instance_id]`, if it is an object. -/
def instance? (overlay : Json ℚ) (instanceId : PyStr) : Option (List (PyStr × Json ℚ)) :=
  match overlay.get "instances" with
  | .obj instances =>
    match get? instances instanceId with
    | some (.obj members) => some members
    | _ => none
  | _ => none

/-- `_binding`. -/
def binding (overlay : Json ℚ) (instanceId : PyStr) (profileName : Json ℚ) :
    Except SupervisorError (Json ℚ) :=
  match instance? overlay instanceId with
  | none => .error (.host (.supervisor "unknown runtime instance" 404))
  | some members =>
    let unknown := SupervisorError.host
      (.supervisor "unknown runtime profile for instance" 409)
    match (Json.obj members).get "profiles" with
    | .null => .ok (.obj members)
    | .obj profiles =>
      if profileName.hashable = false then .error .python
      else
        match profileName with
        | .str name =>
          match get? profiles name with
          | some (.obj profile) => .ok (resolve members profile name)
          | _ => .error unknown
        | _ => .error unknown
    | _ => .error unknown

def sortedNames (profiles : List (PyStr × Json ℚ)) : List PyStr :=
  (profiles.map (·.1)).dedup.insertionSort fun a b => PyStr.le a b = true

/-- `_profile_bindings`. -/
def profileBindings (overlay : Json ℚ) (instanceId : PyStr) :
    Except SupervisorError (List (Json ℚ)) :=
  match instance? overlay instanceId with
  | none => .error (.host (.supervisor "unknown runtime instance" 404))
  | some members =>
    match (Json.obj members).get "profiles" with
    | .obj profiles =>
      (sortedNames profiles).mapM fun name => binding overlay instanceId (.str name)
    | _ => .ok [.obj members]

/-- `binding["unit"]`, which is a string in an overlay that is accepted. -/
def unitOf (binding : Json ℚ) : PyStr := ((binding.get "unit").str?).getD []

def unitsOf (overlay : Json ℚ) (instanceId : PyStr) : List PyStr :=
  match profileBindings overlay instanceId with
  | .ok bindings => bindings.map unitOf
  | .error _ => []

/-! ## No unit has two owners -/

section Ownership

variable {urlsplit : PyStr → Option SplitUrl} {overlay : Json ℚ}

/-- The bindings of an instance. -/
def entryBindings (entry : PyStr × Json ℚ) : List (Json ℚ) :=
  match entry.2 with
  | .obj members =>
    match entry.2.get "profiles" with
    | .obj profiles => profiles.filterMap fun profile =>
      match profile.2 with
      | .obj fields => some (resolve members fields profile.1)
      | _ => none
    | _ => [entry.2]
  | _ => []

theorem whenever_eq_nil {p : Prop} [Decidable p] {message : PyStr} :
    whenever p message = [] ↔ ¬ p := by
  unfold whenever
  split
  · rename_i hp
    exact ⟨fun h => (by cases h), fun h => absurd hp h⟩
  · rename_i hp
    exact ⟨fun _ => hp, fun _ => rfl⟩

theorem forall₂_of_mapM {α β : Type} {f : α → Option β} {l : List α} {l' : List β}
    (h : l.mapM f = some l') : List.Forall₂ (fun a b => f a = some b) l l' := by
  induction l generalizing l' with
  | nil =>
    cases h
    exact List.Forall₂.nil
  | cons a l ih =>
    rw [List.mapM_cons] at h
    obtain ⟨b, hb, h⟩ := bind_eq_some_iff.mp h
    obtain ⟨bs, hbs, h⟩ := bind_eq_some_iff.mp h
    cases h
    exact List.Forall₂.cons hb (ih hbs)

variable {bindings : List (PyStr × PyStr × Json ℚ)} {common : List (PyStr × Json ℚ)}

/-- The units of the bindings are recorded once. -/
theorem nodup_of_recordOwnership {units endpoints : PyDict PyStr PyStr}
    (h : recordOwnership urlsplit bindings units endpoints = some [])
    (hunits : ∀ b ∈ bindings, unitMatches (b.2.2.get "unit") = true) :
    (bindings.map fun b => unitOf b.2.2).Nodup ∧
      ∀ b ∈ bindings, units.get? (unitOf b.2.2) = none := by
  induction bindings generalizing units endpoints with
  | nil => exact ⟨List.nodup_nil, fun _ h => absurd h List.not_mem_nil⟩
  | cons b bindings ih =>
    obtain ⟨instanceId, pre, binding⟩ := b
    rw [List.forall_mem_cons] at hunits
    obtain ⟨name, hname⟩ : ∃ name, binding.get "unit" = .str name := by
      have hmatches := hunits.1
      simp only at hmatches
      cases hunit : binding.get "unit" <;> rw [hunit] at hmatches <;>
        first | exact ⟨_, rfl⟩ | cases hmatches
    have hnonempty : name ≠ [] := by
      rintro rfl
      have hmatches := hunits.1
      rw [hname] at hmatches
      revert hmatches
      decide
    have hunit : unitOf binding = name := by
      unfold unitOf
      rw [hname]
      rfl
    unfold recordOwnership at h
    simp only [hname, if_neg hnonempty, bind_eq_bind] at h
    obtain ⟨recorded, -, h⟩ := bind_eq_some_iff.mp h
    cases hprior : units.get? name with
    | some prior =>
      rw [hprior] at h
      obtain ⟨errors, -, h⟩ := bind_eq_some_iff.mp h
      exact absurd (some.inj h) (by simp)
    | none =>
      rw [hprior] at h
      obtain ⟨errors, herrors, h⟩ := bind_eq_some_iff.mp h
      have hnil := (List.append_eq_nil_iff.mp (some.inj h)).2
      obtain ⟨hnodup, hfree⟩ := ih (hnil ▸ herrors) hunits.2
      have hother : ∀ b ∈ bindings, unitOf b.2.2 ≠ name := by
        intro b hb heq
        have hget := hfree b hb
        rw [heq, get?_set, if_pos rfl] at hget
        cases hget
      refine ⟨?_, fun b hb => ?_⟩
      · rw [List.map_cons, List.nodup_cons]
        refine ⟨fun hmem => ?_, hnodup⟩
        obtain ⟨b, hb, heq⟩ := List.mem_map.mp hmem
        exact hother b hb (heq.trans hunit)
      · rcases List.mem_cons.mp hb with rfl | hb
        · simp only [hunit, hprior]
        have hget := hfree b hb
        rw [get?_set, if_neg (hother b hb)] at hget
        exact hget

variable {pre : PyStr} {entries : List (PyStr × Json ℚ)} {instanceId : PyStr}

theorem unitMatches_of_validate {binding : Json ℚ}
    (h : validateResolvedBinding urlsplit pre binding = some []) :
    unitMatches (binding.get "unit") = true := by
  unfold validateResolvedBinding at h
  simp only [bind_eq_bind] at h
  split at h
  · cases h
  obtain ⟨probes, -, h⟩ := bind_eq_some_iff.mp h
  split at h
  · cases h
  have herrors := some.inj h
  simp only [List.append_eq_nil_iff, whenever_eq_nil] at herrors
  simpa using herrors.1.1.1.1.1.1.1.2

theorem checkProfile_accepts {profile : PyStr × Json ℚ} {bindings : List (PyStr × Json ℚ)}
    (h : checkProfile urlsplit pre common profile = some ([], bindings)) :
    ∃ fields, profile.2 = .obj fields ∧
      bindings.map (·.2) = [resolve common fields profile.1] ∧
      ∀ b ∈ bindings, unitMatches (b.2.get "unit") = true := by
  unfold checkProfile at h
  simp only [bind_eq_bind] at h
  split at h
  · simp at h
  split at h
  · rename_i fields hfields
    obtain ⟨errors, herrors, h⟩ := bind_eq_some_iff.mp h
    obtain ⟨hnil, rfl⟩ := Prod.mk.inj (some.inj h)
    rw [(List.append_eq_nil_iff.mp hnil).2] at herrors
    refine ⟨fields, hfields, rfl, fun b hb => ?_⟩
    rw [List.mem_singleton.mp hb]
    exact unitMatches_of_validate herrors
  · simp at h

/-- The profiles of an instance that is accepted. -/
theorem checkProfiles_accept {profiles : List (PyStr × Json ℚ)}
    {checked : List (List PyStr × List (PyStr × Json ℚ))}
    (h : List.Forall₂ (fun profile r => checkProfile urlsplit pre common profile = some r) profiles
      checked) (hnil : checked.flatMap (·.1) = []) :
    (∀ profile ∈ profiles, ∃ fields, profile.2 = .obj fields) ∧
      (checked.flatMap (·.2)).map (·.2) = profiles.filterMap (fun profile =>
          match profile.2 with
          | .obj fields => some (resolve common fields profile.1)
          | _ => none) ∧
      ∀ b ∈ checked.flatMap (·.2), unitMatches (b.2.get "unit") = true := by
  induction h with
  | nil => exact ⟨fun _ h => absurd h List.not_mem_nil, rfl, fun _ h => absurd h List.not_mem_nil⟩
  | @cons profile r profiles checked hprofile hrest ih =>
    rw [List.flatMap_cons, List.append_eq_nil_iff] at hnil
    obtain ⟨hobjects, hbindings, hunits⟩ := ih hnil.2
    obtain ⟨errors, bindings⟩ := r
    obtain rfl : errors = [] := hnil.1
    obtain ⟨fields, hfields, hbinding, hunit⟩ := checkProfile_accepts hprofile
    refine ⟨List.forall_mem_cons.mpr ⟨⟨fields, hfields⟩, hobjects⟩, ?_, fun b hb => ?_⟩
    · rw [List.flatMap_cons, List.map_append, hbindings, hbinding, List.filterMap_cons, hfields]
      rfl
    · rw [List.flatMap_cons] at hb
      rcases List.mem_append.mp hb with hb | hb
      · exact hunit b hb
      · exact hunits b hb

/-- An instance is an object, and its profiles, if it has any, are objects too. -/
abbrev HasProfiles (value : Json ℚ) : Prop :=
  ∃ members, value = .obj members ∧
    (value.get "profiles" = .null ∨ ∃ profiles, value.get "profiles" = .obj profiles ∧
      ∀ profile ∈ profiles, ∃ fields, profile.2 = .obj fields)

/-- An instance that is accepted: its profiles are objects, and its bindings are recorded. -/
theorem checkInstance_accepts {entry : PyStr × Json ℚ}
    (h : checkInstance urlsplit entry = some ([], bindings)) :
    bindings.map (·.2.2) = entryBindings entry ∧
      (∀ b ∈ bindings, unitMatches (b.2.2.get "unit") = true) ∧ HasProfiles entry.2 := by
  obtain ⟨id, value⟩ := entry
  unfold checkInstance at h
  simp only [bind_eq_bind] at h
  split at h
  · simp at h
  cases value with
  | obj members =>
    simp only at h
    split at h
    · rename_i hnull
      obtain ⟨errors, herrors, h⟩ := bind_eq_some_iff.mp h
      obtain ⟨rfl, rfl⟩ := Prod.mk.inj (some.inj h)
      have hprofiles : (Json.obj members).get "profiles" = .null := by
        revert hnull
        cases (Json.obj members).get "profiles" <;> simp [Json.isNull]
      refine ⟨?_, fun b hb => ?_, members, rfl, Or.inl hprofiles⟩
      · unfold entryBindings
        simp only [hprofiles]
        rfl
      · rw [List.mem_singleton.mp hb]
        exact unitMatches_of_validate herrors
    · split at h
      · rename_i profile rest hprofiles
        obtain ⟨checked, hchecked, h⟩ := bind_eq_some_iff.mp h
        obtain ⟨hnil, rfl⟩ := Prod.mk.inj (some.inj h)
        obtain ⟨hobjects, hbindings, hunits⟩ := checkProfiles_accept
          (forall₂_of_mapM hchecked) (List.append_eq_nil_iff.mp hnil).2
        refine ⟨?_, fun b hb => ?_, members, rfl, Or.inr ⟨_, hprofiles, hobjects⟩⟩
        · unfold entryBindings
          simp only [hprofiles]
          rw [← hbindings, List.map_map]
          rfl
        · obtain ⟨b', hb', rfl⟩ := List.mem_map.mp hb
          exact hunits b' hb'
      · simp at h
  | null | bool b | int n | float x | str s | arr items => simp at h

structure Bound (overlay : Json ℚ) (entries : List (PyStr × Json ℚ)) : Prop where
  instances : overlay.get "instances" = .obj entries
  objects : ∀ entry ∈ entries, HasProfiles entry.2
  nodup : (entries.flatMap fun entry => (entryBindings entry).map unitOf).Nodup

theorem checkInstances_accept {checked : List (List PyStr × List (PyStr × PyStr × Json ℚ))}
    (h : List.Forall₂ (fun entry r => checkInstance urlsplit entry = some r) entries checked)
    (hnil : checked.flatMap (·.1) = []) :
    (checked.flatMap (·.2)).map (fun b => unitOf b.2.2) =
        entries.flatMap (fun entry => (entryBindings entry).map unitOf) ∧
      (∀ b ∈ checked.flatMap (·.2), unitMatches (b.2.2.get "unit") = true) ∧
      ∀ entry ∈ entries, HasProfiles entry.2 := by
  induction h with
  | nil => exact ⟨rfl, fun _ h => absurd h List.not_mem_nil, fun _ h => absurd h List.not_mem_nil⟩
  | @cons entry r entries checked hentry hrest ih =>
    rw [List.flatMap_cons, List.append_eq_nil_iff] at hnil
    obtain ⟨hunits, hmatches, hobjects⟩ := ih hnil.2
    obtain ⟨errors, bindings⟩ := r
    obtain rfl : errors = [] := hnil.1
    obtain ⟨hbindings, hmatch, hobject⟩ := checkInstance_accepts hentry
    refine ⟨?_, fun b hb => ?_, List.forall_mem_cons.mpr ⟨hobject, hobjects⟩⟩
    · rw [List.flatMap_cons, List.flatMap_cons, List.map_append, hunits, ← hbindings,
        List.map_map]
      rfl
    · rw [List.flatMap_cons] at hb
      rcases List.mem_append.mp hb with hb | hb
      · exact hmatch b hb
      · exact hmatches b hb

theorem sortedErrors_eq_nil {errors : List PyStr} : sortedErrors errors = [] ↔ errors = [] := by
  unfold sortedErrors
  constructor
  · intro h
    have hperm := List.perm_insertionSort (fun a b => PyStr.le a b = true) errors.dedup
    rw [h] at hperm
    have hdedup := List.nil_perm.mp hperm
    rw [List.eq_nil_iff_forall_not_mem] at hdedup ⊢
    exact fun e he => hdedup e (List.mem_dedup.mpr he)
  · rintro rfl
    rfl

theorem bound_of_validateOverlay (h : validateOverlay urlsplit overlay = some []) :
    ∃ entries, Bound overlay entries := by
  unfold validateOverlay at h
  simp only [bind_eq_bind] at h
  split at h
  · rename_i entry rest hinstances
    obtain ⟨checked, hchecked, h⟩ := bind_eq_some_iff.mp h
    obtain ⟨owned, howned, h⟩ := bind_eq_some_iff.mp h
    have hnil := sortedErrors_eq_nil.mp (some.inj h)
    rw [List.append_eq_nil_iff, List.append_eq_nil_iff] at hnil
    obtain ⟨hunits, hmatches, hobjects⟩ := checkInstances_accept (forall₂_of_mapM hchecked) hnil.1.2
    have hnodup := (nodup_of_recordOwnership (hnil.2 ▸ howned) hmatches).1
    rw [hunits] at hnodup
    exact ⟨_, hinstances, hobjects, hnodup⟩
  · exact absurd (some.inj h) (by simp)

theorem sortedNames_nodup (profiles : List (PyStr × Json ℚ)) : (sortedNames profiles).Nodup :=
  (List.perm_insertionSort _ _).nodup_iff.mpr (List.nodup_dedup _)

/-- The name that a binding is resolved under. -/
theorem resolve_profileName (members fields : List (PyStr × Json ℚ)) (name : PyStr) :
    ((resolve members fields name).get "profile_name").str? = some name := by
  have hget := get?_set_self (fields.foldl (fun d m => set d m.1 m.2)
    (members.filter fun m => m.1 ≠ text "profiles")) (text "profile_name") (Json.str name)
  show ((get? _ (text "profile_name")).getD Json.null).str? = some name
  rw [hget]
  rfl

theorem mapM_eq_ok {α β ε : Type} {f : α → Except ε β} {g : α → β} {l : List α}
    (h : ∀ a ∈ l, f a = .ok (g a)) : l.mapM f = .ok (l.map g) := by
  induction l with
  | nil => rfl
  | cons a l ih =>
    rw [List.forall_mem_cons] at h
    rw [List.mapM_cons, h.1, ih h.2]
    rfl

/-- An instance of an overlay that is accepted has an entry, and its profile bindings are those of
its entry. -/
theorem Bound.profileBindings (h : Bound overlay entries)
    {members : List (PyStr × Json ℚ)} (hinstance : instance? overlay instanceId = some members) :
    (instanceId, Json.obj members) ∈ entries ∧
      ((Json.obj members).get "profiles" = .null ∧
          profileBindings overlay instanceId = .ok [.obj members] ∨
        ∃ (profiles : List (PyStr × Json ℚ)) (fields : PyStr → List (PyStr × Json ℚ)),
          (Json.obj members).get "profiles" = .obj profiles ∧
          (∀ name ∈ sortedNames profiles,
            get? profiles name = some (.obj (fields name))) ∧
          profileBindings overlay instanceId =
            .ok ((sortedNames profiles).map fun name => resolve members (fields name) name)) := by
  have hentry : get? entries instanceId = some (.obj members) := by
    unfold instance? at hinstance
    rw [h.instances] at hinstance
    simp only at hinstance
    split at hinstance
    · rename_i members' hget
      rw [hget, some.inj hinstance]
    · cases hinstance
  have hmem := mem_of_get? hentry
  refine ⟨hmem, ?_⟩
  obtain ⟨members', hmembers, hprofiles⟩ := h.objects _ hmem
  cases hmembers
  rcases hprofiles with hnull | ⟨profiles, hobj, hfields⟩
  · refine Or.inl ⟨hnull, ?_⟩
    unfold Host.profileBindings
    rw [hinstance]
    simp only at hnull
    simp only [hnull]
  · simp only at hobj
    have hget : ∀ name ∈ sortedNames profiles, ∃ fields,
        get? profiles name = some (Json.obj fields) := by
      intro name hname
      have hname := (List.perm_insertionSort _ _).mem_iff.mp hname
      rw [List.mem_dedup] at hname
      obtain ⟨profile, hprofile⟩ := isSome_iff_exists.mp (get?_isSome.mpr hname)
      obtain ⟨fields, hfieldsEq⟩ := hfields _ (mem_of_get? hprofile)
      exact ⟨fields, hfieldsEq ▸ hprofile⟩
    choose! fields hfieldsGet using hget
    refine Or.inr ⟨profiles, fields, hobj, hfieldsGet, ?_⟩
    unfold Host.profileBindings
    rw [hinstance]
    simp only [hobj]
    refine mapM_eq_ok fun name hname => ?_
    unfold binding
    rw [hinstance]
    simp only [hobj, Json.hashable, hfieldsGet name hname]
    rfl

/-- The units of an instance are those of distinct bindings of its entry. -/
theorem Bound.unitsOf (h : Bound overlay entries) (instanceId : PyStr) :
    (unitsOf overlay instanceId).Nodup ∧ ∀ unit ∈ unitsOf overlay instanceId,
      ∃ entry ∈ entries, entry.1 = instanceId ∧ unit ∈ (entryBindings entry).map unitOf := by
  unfold Host.unitsOf
  cases hinstance : instance? overlay instanceId with
  | none =>
    have hnone : Host.profileBindings overlay instanceId =
        .error (.host (.supervisor "unknown runtime instance" 404)) := by
      unfold Host.profileBindings
      rw [hinstance]
    rw [hnone]
    exact ⟨List.nodup_nil, fun _ h => absurd h List.not_mem_nil⟩
  | some members =>
    obtain ⟨hmem, ⟨hnull, hbindings⟩ | ⟨profiles, fields, hobj, hfields, hbindings⟩⟩ :=
      h.profileBindings hinstance
    · rw [hbindings]
      refine ⟨List.nodup_singleton _, fun unit hunit => ⟨_, hmem, rfl, ?_⟩⟩
      unfold entryBindings
      simp only [hnull]
      exact hunit
    · have hbindingMem : ∀ name ∈ sortedNames profiles,
          resolve members (fields name) name ∈ entryBindings (instanceId, .obj members) := by
        intro name hname
        unfold entryBindings
        simp only [hobj]
        exact List.mem_filterMap.mpr ⟨_, mem_of_get? (hfields name hname), rfl⟩
      rw [hbindings]
      simp only [List.map_map]
      refine ⟨(List.nodup_map_iff_inj_on (sortedNames_nodup profiles)).mpr
        fun name hname other hother heq => ?_, fun unit hunit => ?_⟩
      · have hentryNodup := (List.nodup_flatMap.mp h.nodup).1 _ hmem
        have hsame := List.inj_on_of_nodup_map hentryNodup (hbindingMem name hname)
          (hbindingMem other hother) heq
        have hnames := congrArg (fun b : Json ℚ => (b.get "profile_name").str?) hsame
        simpa [resolve_profileName] using hnames
      · obtain ⟨name, hname, rfl⟩ := List.mem_map.mp hunit
        exact ⟨_, hmem, rfl, List.mem_map_of_mem (hbindingMem name hname)⟩

variable (h : validateOverlay urlsplit overlay = some [])
include h

/-- The unit of a binding is one of its instance. -/
theorem unitOf_mem_unitsOf {profileName bound : Json ℚ}
    (hbinding : binding overlay instanceId profileName = .ok bound) :
    unitOf bound ∈ unitsOf overlay instanceId := by
  obtain ⟨entries, hbound⟩ := bound_of_validateOverlay h
  unfold binding at hbinding
  split at hbinding
  · cases hbinding
  rename_i members hinstance
  unfold unitsOf
  obtain ⟨-, ⟨hnull, hbindings⟩ | ⟨profiles, fields, hobj, hfields, hbindings⟩⟩ :=
    hbound.profileBindings hinstance
  · simp only [hnull] at hbinding
    cases hbinding
    rw [hbindings]
    exact List.mem_singleton.mpr rfl
  · simp only [hobj] at hbinding
    split at hbinding
    · cases hbinding
    split at hbinding
    · rename_i name _
      split at hbinding
      · rename_i profile hprofile
        cases hbinding
        have hname : name ∈ sortedNames profiles := by
          refine (List.perm_insertionSort _ _).mem_iff.mpr (List.mem_dedup.mpr ?_)
          exact List.mem_map_of_mem (mem_of_get? hprofile)
        rw [hfields name hname] at hprofile
        cases hprofile
        rw [hbindings]
        exact List.mem_map_of_mem (List.mem_map_of_mem hname)
      · cases hbinding
    · cases hbinding

/-- No unit belongs to two profiles of an instance. -/
theorem unitsOf_nodup (instanceId : PyStr) : (unitsOf overlay instanceId).Nodup := by
  obtain ⟨entries, hbound⟩ := bound_of_validateOverlay h
  exact (hbound.unitsOf instanceId).1

/-- **No unit belongs to two instances.** -/
theorem unitsOf_disjoint {a b unit : PyStr} (ha : unit ∈ unitsOf overlay a)
    (hb : unit ∈ unitsOf overlay b) : a = b := by
  obtain ⟨entries, hbound⟩ := bound_of_validateOverlay h
  obtain ⟨ea, hea, rfl, hua⟩ := (hbound.unitsOf a).2 unit ha
  obtain ⟨eb, heb, rfl, hub⟩ := (hbound.unitsOf b).2 unit hb
  by_contra hne
  have hentries : ea ≠ eb := fun heq => hne (congrArg Prod.fst heq)
  have hsymm : Std.Symm (Function.onFun List.Disjoint
      fun entry : PyStr × Json ℚ => (entryBindings entry).map unitOf) :=
    ⟨fun _ _ hdisjoint => hdisjoint.symm⟩
  exact (List.nodup_flatMap.mp hbound.nodup).2.forall hea heb hentries hua hub

end Ownership

end GpuManager.Host
