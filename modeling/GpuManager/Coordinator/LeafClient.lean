import GpuManager.Coordinator.Runtime

/-!
# `GPUManagerLeafGenerationClient`

The leaf client of the coordinator is built from three injected callables.  Before a submission
it refuses a trusted configuration in which some member is named like a routing field; after a
poll it bounds what the child has put out.  What it lets through is sanitized once more when the
coordinator records it, with another list of names.

The last section says where the two filters part: of the bounded outputs, those with a member
`password`, `api_key` or `private_key`, at any depth, are refused by the sanitizer.
-/

namespace GpuManager.Coordinator

open PythonText List

/-! ## Values -/

/-- `bool(value)`; a value of bytes is read as one that is not empty. -/
def Json.truthy : Json → Bool
  | .null => false
  | .bool b => b
  | .int n => n ≠ 0
  | .float q => q ≠ 0
  | .str s => s ≠ ""
  | .bytes => true
  | .arr items => !items.isEmpty
  | .obj fields => !fields.isEmpty

/-- `str.startswith`. -/
def startsWith (s start : String) : Bool := start.toList.isPrefixOf s.toList

namespace GPUManagerLeafGenerationClient

/-- `_LEAF_REJECT_KEYS`. -/
def leafRejectKeys : List String :=
  ["service_pipeline_id", "worker_pipeline", "pipeline", "internal_leaf", "skip_pipeline",
    "force_qc_fail"]

mutual

/-- `_reject_recursive`. -/
def rejectRecursive (path : String) : Json → Except String Unit
  | .obj fields => rejectFields path fields
  | .arr items => rejectItems path 0 items
  | _ => .ok ()

def rejectFields (path : String) : List (String × Json) → Except String Unit
  | [] => .ok ()
  | (key, value) :: fields =>
    if key ∈ leafRejectKeys then
      .error (path ++ "." ++ key ++ ": forbidden key '" ++ key ++ "' found in trusted_config " ++
        "(must not be forwarded to GPUManager)")
    else
      match rejectRecursive (path ++ "." ++ key) value with
      | .error e => .error e
      | .ok () => rejectFields path fields

def rejectItems (path : String) (i : ℕ) : List Json → Except String Unit
  | [] => .ok ()
  | item :: items =>
    match rejectRecursive (path ++ "[" ++ toString i ++ "]") item with
    | .error e => .error e
    | .ok () => rejectItems path (i + 1) items

end

/-- A member of an output that is left out for its name. -/
def leftOut (key : String) : Bool :=
  ["base64", "blob", "bytes", "authorization", "secret"].contains (lower key) ||
    ["_b64", "_base64", "_blob", "_bytes"].any (endsWith (lower key))

mutual

/-- `_bounded_leaf_output`. -/
def boundedLeafOutput (path : String) : Json → Except String Json
  | .bytes => .error (path ++ ": binary child output is not persistable")
  | .str s => .ok (.str (slice 10000 s))
  | .obj fields => (boundedFields path fields).map .obj
  | .arr items =>
    if 1000 < items.length then .error (path ++ ": child output list exceeds 1000 items")
    else (boundedItems path 0 items).map .arr
  | .null => .ok .null
  | .bool b => .ok (.bool b)
  | .int n => .ok (.int n)
  | .float q => .ok (.float q)

def boundedFields (path : String) : List (String × Json) → Except String (List (String × Json))
  | [] => .ok []
  | (key, value) :: fields =>
    if leftOut key then boundedFields path fields
    else
      match boundedLeafOutput (path ++ "." ++ key) value with
      | .error e => .error e
      | .ok value => (boundedFields path fields).map ((key, value) :: ·)

def boundedItems (path : String) (i : ℕ) : List Json → Except String (List Json)
  | [] => .ok []
  | item :: items =>
    match boundedLeafOutput (path ++ "[" ++ toString i ++ "]") item with
    | .error e => .error e
    | .ok item => (boundedItems path (i + 1) items).map (item :: ·)

end

/-! ## The trusted configuration -/

/-- `_LEAF_STRIP_PREFIXES`. -/
def leafStripPrefixes : List String :=
  ["endpoint", "unit", "command", "routing_group", "bypass", "skip_pipeline", "internal_leaf"]

/-- `_LEAF_STRIP_KEYS`. -/
def leafStripKeys : List String :=
  ["endpoint", "unit", "command", "routing_group", "bypass", "skip_pipeline", "internal_leaf",
    "routing", "url", "host"]

/-- A field of the record of a stage that is not forwarded. -/
def stripped (key : String) : Bool :=
  leafStripKeys.contains key || leafStripPrefixes.any (startsWith key)

def deepStripped (key : String) : Bool :=
  stripped key || ["_base64", "_blob", "_bytes", "_data"].any (endsWith key)

mutual

/-- `_deep_strip`. -/
def deepStrip : Json → Json
  | .obj fields => .obj (stripFields fields)
  | .arr items => .arr (stripItems items)
  | .null => .null
  | .bool b => .bool b
  | .int n => .int n
  | .float q => .float q
  | .str s => .str s
  | .bytes => .bytes

def stripFields : List (String × Json) → List (String × Json)
  | [] => []
  | (key, value) :: fields =>
    if deepStripped key then stripFields fields else (key, deepStrip value) :: stripFields fields

def stripItems : List Json → List Json
  | [] => []
  | item :: items => deepStrip item :: stripItems items

end

end GPUManagerLeafGenerationClient

open GPUManagerLeafGenerationClient

/-- `ArtifactRef.to_dict`. -/
def ArtifactRef.toDict (artifact : ArtifactRef) : Fields :=
  [("path_or_url", .str artifact.pathOrUrl), ("sha256", .str artifact.sha256),
    ("producer_stage_id", .str artifact.producerStageId), ("produced_at", .str artifact.producedAt)]

/-- The client with its callables: an exception is given by its text, and an answer may depend
on all that was asked before.  What the records of a stage and of a run hold beside the model is
given too: the compiled record of a stage with its resolved inputs, the prompt in force, the
latest verdict, and the job of the parent. -/
structure GPUManagerLeafGenerationClient where
  submitLeaf : List ProviderCall → (serviceId resourceId : Json) → (jobId : String) → Fields →
    Except String Json
  pollLeaf : List ProviderCall → String → Except String Json
  cancelLeaf : List ProviderCall → String → Except String Bool
  str : Json → String
  compiledRecord : Stage → Option Fields → Fields
  effectivePrompt : PipelineRunState → String
  latestQc : PipelineRunState → Option Fields
  parentJobId : PipelineRunState → String

namespace GPUManagerLeafGenerationClient

variable (client : GPUManagerLeafGenerationClient)

def buildTrustedConfig (stage : Stage) (resolvedInputs : Option Fields)
    (state : PipelineRunState) : Fields :=
  let result := ((client.compiledRecord stage resolvedInputs).filter fun f => !stripped f.1).map
    fun f => (f.1, deepStrip f.2)
  PipelineCoordinator.setField result "context" (deepStrip (.obj
    [("request_params", .obj state.requestParams),
      ("effective_prompt", .str (client.effectivePrompt state)),
      ("artifact", (state.artifact.map fun artifact => .obj artifact.toDict).getD .null),
      ("qc_verdict", ((client.latestQc state).map .obj).getD .null)]))

/-- `value or other`. -/
def orElse (value other : Json) : Json := if value.truthy then value else other

/-- `service_id`: the provider stands in for a missing one. -/
def serviceId (trustedConfig : Fields) : Json :=
  orElse ((trustedConfig.lookup "service_id").getD (.str ""))
    ((trustedConfig.lookup "provider").getD (.str ""))

/-- `resource_id`: a missing one is looked for in the parameters. -/
def resourceId (trustedConfig : Fields) : Json :=
  let resourceId := (trustedConfig.lookup "resource_id").getD (.str "")
  if resourceId.truthy then resourceId
  else
    match trustedConfig.lookup "params" with
    | some (.obj params) =>
      let get (key : String) : Json := (params.lookup key).getD .null
      orElse (get "resource_id")
        (orElse (get "template") (orElse (get "qwen_template") (.str "")))
    | _ => resourceId

def expectedJobId (idempotencyKey : String) : String := "gm-" ++ slice 12 idempotencyKey

/-- The job id of an answer. -/
def returnedJobId : Json → Json
  | .obj result => (result.lookup "job_id").getD (.str "")
  | _ => .str ""

def mismatched (returned idempotencyKey : String) : String :=
  "GPUManager returned mismatched job_id: " ++ returned ++ " (expected " ++
    quoted (expectedJobId idempotencyKey) ++
    "); service may have routed to an unintended pipeline"

/-- `submit`. -/
def submit (calls : List ProviderCall) (stage : Stage) (resolvedInputs : Option Fields)
    (state : PipelineRunState) (idempotencyKey : String) : Except String String :=
  let trustedConfig := client.buildTrustedConfig stage resolvedInputs state
  match rejectRecursive "$" (.obj trustedConfig) with
  | .error e => .error e
  | .ok () =>
    let params := PipelineCoordinator.setField (PipelineCoordinator.setField
      (PipelineCoordinator.setField trustedConfig "parent_run_id" (.str state.runId))
      "parent_job_id" (.str (client.parentJobId state)))
      "idempotency_key" (.str idempotencyKey)
    match client.submitLeaf calls (serviceId trustedConfig) (resourceId trustedConfig)
        (expectedJobId idempotencyKey) params with
    | .error e => .error e
    | .ok result =>
      match returnedJobId result with
      | .str jobId =>
        if jobId = expectedJobId idempotencyKey then .ok jobId
        else .error (mismatched (quoted jobId) idempotencyKey)
      | other => .error (mismatched (client.str other) idempotencyKey)

/-- The normalised status of a child. -/
def readStatus (raw : Fields) : ChildStatus :=
  let status := lower (client.str ((raw.lookup "status").getD (.str "")))
  if status = "queued" ∨ status = "in_flight" ∨ status = "running" then .inFlight
  else if status = "completed" then .completed
  else if status = "failed" then .failed
  else if status = "cancelled" then .cancelled
  else .other (if status = "" then "unknown" else status)

/-- The artifact of a child. -/
def childArtifact (raw : Fields) : Option ArtifactReply :=
  match raw.lookup "artifact" with
  | some (.obj artifact) =>
    let get (key : String) : String := client.str ((artifact.lookup key).getD (.str ""))
    some
      { pathOrUrl := some (get "path_or_url")
        sha256 := some (get "sha256")
        others := [("producer_stage_id", .str (get "producer_stage_id")),
          ("produced_at", .str (get "produced_at"))] }
  | _ => none

/-- The bounded output of a child, before the artifact is added. -/
def childOutput (raw : Fields) : Except String Fields :=
  match raw.lookup "output" with
  | some (.obj output) => boundedFields "$" output
  | _ => .ok []

/-- The verdict of a child; one without `passed` is none. -/
def childVerdict (raw : Fields) : Option QCVerdict :=
  match raw.lookup "qc_verdict" with
  | some (.obj verdict) =>
    match verdict.lookup "passed" with
    | none | some .null => none
    | some passed =>
      some
        { stageId := client.str ((verdict.lookup "stage_id").getD (.str ""))
          passed := passed.truthy
          report := client.str ((verdict.lookup "report").getD (.str "")) }
  | _ => none

/-- The error of a child. -/
def childError (raw : Fields) : Option String :=
  match raw.lookup "error" with
  | none | some .null => none
  | some error => some (client.str error)

/-- `output.setdefault(key, value)`. -/
def setDefault (output : Fields) (key : String) (value : Json) : Fields :=
  if (output.lookup key).isSome then output else output ++ [(key, value)]

/-- What the client makes of the answer of `poll_leaf`, which is read as empty unless it is an
object. -/
def readPoll (raw : Json) : Except String LeafPoll :=
  let fields : Fields :=
    match raw with
    | .obj fields => fields
    | _ => []
  match childOutput fields with
  | .error e => .error e
  | .ok output =>
    .ok
      { status := client.readStatus fields
        error := client.childError fields
        output :=
          match client.childArtifact fields with
          | some artifact =>
            setDefault output "artifact" (PipelineCoordinator.artifactJson artifact)
          | none => output
        qcVerdict := client.childVerdict fields
        artifact := client.childArtifact fields }

/-- `poll`. -/
def poll (calls : List ProviderCall) (childJobId : String) : Except String LeafPoll :=
  match client.pollLeaf calls childJobId with
  | .error e => .error ("poll_leaf failed for " ++ quoted childJobId ++ ": " ++ e)
  | .ok raw => client.readPoll raw

/-- `cancel`. -/
def cancel (calls : List ProviderCall) (childJobId : String) : Except String Bool :=
  match client.cancelLeaf calls childJobId with
  | .error e => .error ("cancel_leaf failed for " ++ quoted childJobId ++ ": " ++ e)
  | .ok cancelled => .ok cancelled

def providers (client : GPUManagerLeafGenerationClient) (executor : Providers) : Providers :=
  { executor with
    leafSubmit := client.submit
    leafPoll := client.poll
    leafCancel := client.cancel }

end GPUManagerLeafGenerationClient

/-! ## Where the filters part -/

mutual

/-- The names of the members of a value, at any depth. -/
def Json.names : Json → List String
  | .obj fields => fieldNames fields
  | .arr items => itemNames items
  | _ => []

def fieldNames : List (String × Json) → List String
  | [] => []
  | (key, value) :: fields => key :: (value.names ++ fieldNames fields)

def itemNames : List Json → List String
  | [] => []
  | item :: items => item.names ++ itemNames items

end

mutual

def Json.Bounded : Json → Prop
  | .bytes => False
  | .obj fields => BoundedFields fields
  | .arr items => items.length ≤ 1000 ∧ BoundedItems items
  | _ => True

def BoundedFields : List (String × Json) → Prop
  | [] => True
  | (key, value) :: fields => leftOut key = false ∧ value.Bounded ∧ BoundedFields fields

def BoundedItems : List Json → Prop
  | [] => True
  | item :: items => item.Bounded ∧ BoundedItems items

end

mutual

theorem bounded_of_boundedLeafOutput {path : String} : {v w : Json} →
    boundedLeafOutput path v = .ok w → w.Bounded
  | .bytes, w, h => by simp [boundedLeafOutput] at h
  | .str s, w, h => by
      simp only [boundedLeafOutput, Except.ok.injEq] at h
      subst h
      trivial
  | .obj fields, w, h => by
      simp only [boundedLeafOutput] at h
      cases hfields : boundedFields path fields with
      | error e => rw [hfields] at h; cases h
      | ok bounded =>
        rw [hfields] at h
        cases h
        exact boundedFields_bounded hfields
  | .arr items, w, h => by
      simp only [boundedLeafOutput] at h
      split at h
      · cases h
      rename_i hlength
      cases hitems : boundedItems path 0 items with
      | error e => rw [hitems] at h; cases h
      | ok bounded =>
        rw [hitems] at h
        cases h
        obtain ⟨hlen, hbounded⟩ := boundedItems_bounded hitems
        exact ⟨by omega, hbounded⟩
  | .null, w, h => by cases h; trivial
  | .bool b, w, h => by cases h; trivial
  | .int n, w, h => by cases h; trivial
  | .float q, w, h => by cases h; trivial

theorem boundedFields_bounded {path : String} : {fields bounded : List (String × Json)} →
    boundedFields path fields = .ok bounded → BoundedFields bounded
  | [], bounded, h => by cases h; trivial
  | (key, value) :: fields, bounded, h => by
      simp only [boundedFields] at h
      split at h
      · exact boundedFields_bounded h
      rename_i hkept
      cases hvalue : boundedLeafOutput (path ++ "." ++ key) value with
      | error e => rw [hvalue] at h; cases h
      | ok w =>
        cases hfields : boundedFields path fields with
        | error e => rw [hvalue, hfields] at h; cases h
        | ok rest =>
          rw [hvalue, hfields] at h
          cases h
          exact ⟨by simpa using hkept, bounded_of_boundedLeafOutput hvalue,
            boundedFields_bounded hfields⟩

theorem boundedItems_bounded {path : String} {i : ℕ} : {items bounded : List Json} →
    boundedItems path i items = .ok bounded →
    bounded.length = items.length ∧ BoundedItems bounded
  | [], bounded, h => by cases h; exact ⟨rfl, trivial⟩
  | item :: items, bounded, h => by
      simp only [boundedItems] at h
      cases hitem : boundedLeafOutput (path ++ "[" ++ toString i ++ "]") item with
      | error e => rw [hitem] at h; cases h
      | ok w =>
        cases hitems : boundedItems path (i + 1) items with
        | error e => rw [hitem, hitems] at h; cases h
        | ok rest =>
          rw [hitem, hitems] at h
          cases h
          obtain ⟨hlen, hbounded⟩ := boundedItems_bounded hitems
          exact ⟨congrArg (· + 1) hlen, bounded_of_boundedLeafOutput hitem, hbounded⟩

end

variable {fields : List (String × Json)} {key : String} {f : String × Json} {value : Json}

theorem mem_fieldNames (h : f ∈ fields) : f.1 ∈ fieldNames fields := by
  induction fields with
  | nil => cases h
  | cons g fields ih =>
    rcases mem_cons.mp h with rfl | h
    · exact mem_cons_self
    · exact mem_cons_of_mem _ (mem_append_right _ (ih h))

def secretNames : List String := ["password", "api_key", "private_key"]

/-- A text that ends in lower case text still does so in lower case. -/
theorem endsWith_lower {s suffix : String} (hsuffix : lower suffix = suffix)
    (h : endsWith s suffix = true) : endsWith (lower s) suffix = true := by
  unfold endsWith at h ⊢
  rw [isSuffixOf_iff_suffix] at h ⊢
  obtain ⟨start, hstart⟩ := h
  refine ⟨start.flatMap lowerChar, ?_⟩
  have hlower : suffix.toList.flatMap lowerChar = suffix.toList := by
    conv_rhs => rw [← hsuffix]
    simp [lower]
  rw [lower, String.toList_ofList, ← hstart, flatMap_append, hlower]

/-- A name that is kept and refused is one of the secrets. -/
theorem secret_of_kept (h : leftOut key = false) :
    (key ∈ sanitizeRejectKeys ↔ key ∈ secretNames) ∧
      sanitizeRejectSuffixes.any (endsWith key) = false := by
  simp only [leftOut, Bool.or_eq_false_iff] at h
  obtain ⟨hname, hsuffix⟩ := h
  constructor
  · constructor
    · intro hmem
      simp only [sanitizeRejectKeys, mem_cons, not_mem_nil, or_false] at hmem
      rcases hmem with rfl | rfl | rfl | rfl | rfl | rfl | rfl | rfl
      all_goals first | decide | (exfalso; revert hname; decide)
    · intro hmem
      simp only [secretNames, mem_cons, not_mem_nil, or_false] at hmem
      rcases hmem with rfl | rfl | rfl <;> decide
  · rw [any_eq_false] at hsuffix ⊢
    intro suffix hmem hends
    have hlower : lower suffix = suffix := by
      simp only [sanitizeRejectSuffixes, mem_cons, not_mem_nil, or_false] at hmem
      rcases hmem with rfl | rfl | rfl <;> decide
    refine hsuffix suffix ?_ (endsWith_lower hlower hends)
    simp only [sanitizeRejectSuffixes, mem_cons, not_mem_nil, or_false] at hmem
    rcases hmem with rfl | rfl | rfl <;> decide

/-- A bounded object is refused for one of its own names just if it is a secret. -/
theorem rejectedField_bounded (path : String) (h : BoundedFields fields) :
    rejectedField path fields = none ↔ ∀ f ∈ fields, f.1 ∉ secretNames := by
  have hkept : ∀ f ∈ fields, leftOut f.1 = false := by
    induction fields with
    | nil => exact fun f hf => by cases hf
    | cons f fields ih =>
      obtain ⟨hf, -, hrest⟩ := h
      intro g hg
      rcases mem_cons.mp hg with rfl | hg
      · exact hf
      · exact ih hrest g hg
  have hsuffixes : (fields.find? fun f =>
      sanitizeRejectSuffixes.any (endsWith f.1) && !isByteCount f.1 f.2) = none := by
    refine List.find?_eq_none.mpr fun f hf => ?_
    rw [(secret_of_kept (hkept f hf)).2]
    simp
  unfold rejectedField
  rw [hsuffixes]
  constructor
  · intro hnone f hf hsecret
    have hreject := (secret_of_kept (hkept f hf)).1.mpr hsecret
    cases hfound : sanitizeRejectKeys.find? fun key => fields.any fun f => f.1 == key with
    | some key => rw [hfound] at hnone; cases hnone
    | none =>
      refine List.find?_eq_none.mp hfound f.1 hreject (any_eq_true.mpr ⟨f, hf, ?_⟩)
      exact beq_self_eq_true f.1
  · intro hclean
    have hfound : (sanitizeRejectKeys.find? fun key => fields.any fun f => f.1 == key) = none := by
      refine List.find?_eq_none.mpr fun key hkey hany => ?_
      obtain ⟨f, hf, hname⟩ := any_eq_true.mp hany
      obtain rfl : f.1 = key := by simpa using hname
      exact hclean f hf ((secret_of_kept (hkept f hf)).1.mp hkey)
    rw [hfound]
    rfl

mutual

/-- **Where the filters part.**  A bounded value is sanitized just if no member, at any depth, has
the name of a secret. -/
theorem sanitizes_iff (path : String) : {v : Json} → v.Bounded →
    ((∃ w, deepSanitize path v = .ok w) ↔ ∀ name ∈ v.names, name ∉ secretNames)
  | .bytes, h => h.elim
  | .str s, _ => by
      refine ⟨fun _ name hname => by simp [Json.names] at hname, fun _ => ?_⟩
      simp only [deepSanitize]
      split <;> exact ⟨_, rfl⟩
  | .obj fields, h => by
      have hown := rejectedField_bounded path h
      have hbelow := sanitizeFields_iff path h
      simp only [deepSanitize, Json.names]
      cases hrejected : rejectedField path fields with
      | some e =>
        simp only [reduceCtorEq, exists_false, false_iff]
        intro hclean
        rw [hrejected] at hown
        have hfields : ∀ f ∈ fields, f.1 ∉ secretNames :=
          fun f hf => hclean f.1 (mem_fieldNames hf)
        cases hown.mpr hfields
      | none =>
        simp only
        have hfields := hown.mp hrejected
        constructor
        · rintro ⟨w, hw⟩
          cases hsanitized : sanitizeFields path fields with
          | error e => rw [hsanitized] at hw; cases hw
          | ok members => exact hbelow.mp ⟨⟨members, hsanitized⟩, hfields⟩
        · intro hclean
          obtain ⟨⟨members, hsanitized⟩, -⟩ := hbelow.mpr hclean
          exact ⟨.obj members, by rw [hsanitized]; rfl⟩
  | .arr items, h => by
      obtain ⟨hlength, hitems⟩ := h
      have hbelow := sanitizeItems_iff path 0 hitems
      have hshort : ¬ maxCollectionItems < items.length := by
        unfold maxCollectionItems
        omega
      simp only [deepSanitize, Json.names, if_neg hshort]
      rw [← hbelow]
      constructor
      · rintro ⟨w, hw⟩
        cases hsanitized : sanitizeItems path 0 items with
        | error e => rw [hsanitized] at hw; cases hw
        | ok members => exact ⟨members, rfl⟩
      · rintro ⟨members, hsanitized⟩
        exact ⟨.arr members, by rw [hsanitized]; rfl⟩
  | .null, _ => ⟨fun _ name hname => (by cases hname), fun _ => ⟨_, rfl⟩⟩
  | .bool b, _ => ⟨fun _ name hname => (by cases hname), fun _ => ⟨_, rfl⟩⟩
  | .int n, _ => ⟨fun _ name hname => (by cases hname), fun _ => ⟨_, rfl⟩⟩
  | .float q, _ => ⟨fun _ name hname => (by cases hname), fun _ => ⟨_, rfl⟩⟩

theorem sanitizeFields_iff (path : String) : {fields : List (String × Json)} →
    BoundedFields fields →
    ((∃ members, sanitizeFields path fields = .ok members) ∧
        (∀ f ∈ fields, f.1 ∉ secretNames) ↔
      ∀ name ∈ fieldNames fields, name ∉ secretNames)
  | [], _ => ⟨fun _ name hname => (by cases hname),
      fun _ => ⟨⟨[], rfl⟩, fun f hf => (by cases hf)⟩⟩
  | (key, value) :: fields, h => by
      obtain ⟨-, hvalue, hrest⟩ := h
      have hone := sanitizes_iff (path ++ "." ++ key) hvalue
      have hall := sanitizeFields_iff path hrest
      have hsplit : (∃ members, sanitizeFields path ((key, value) :: fields) = .ok members) ↔
          (∃ w, deepSanitize (path ++ "." ++ key) value = .ok w) ∧
            ∃ members, sanitizeFields path fields = .ok members := by
        simp only [sanitizeFields]
        cases deepSanitize (path ++ "." ++ key) value with
        | error e => simp
        | ok w =>
          cases sanitizeFields path fields with
          | error e | ok members => simp [Except.map]
      rw [hsplit, hone]
      simp only [fieldNames, forall_mem_cons, forall_mem_append, ← hall]
      tauto

theorem sanitizeItems_iff (path : String) (i : ℕ) : {items : List Json} → BoundedItems items →
    ((∃ members, sanitizeItems path i items = .ok members) ↔
      ∀ name ∈ itemNames items, name ∉ secretNames)
  | [], _ => ⟨fun _ name hname => (by cases hname), fun _ => ⟨[], rfl⟩⟩
  | item :: items, h => by
      obtain ⟨hitem, hrest⟩ := h
      have hone := sanitizes_iff (path ++ "[" ++ toString i ++ "]") hitem
      have hall := sanitizeItems_iff path (i + 1) hrest
      have hsplit : (∃ members, sanitizeItems path i (item :: items) = .ok members) ↔
          (∃ w, deepSanitize (path ++ "[" ++ toString i ++ "]") item = .ok w) ∧
            ∃ members, sanitizeItems path (i + 1) items = .ok members := by
        simp only [sanitizeItems]
        cases deepSanitize (path ++ "[" ++ toString i ++ "]") item with
        | error e => simp
        | ok w =>
          cases sanitizeItems path (i + 1) items with
          | error e | ok members => simp [Except.map]
      rw [hsplit, hone, hall]
      simp only [itemNames, forall_mem_append]

end

mutual

/-- A configuration is forwarded just if no member, at any depth, has a name that is rejected. -/
theorem rejectRecursive_iff (path : String) : (v : Json) →
    (rejectRecursive path v = .ok () ↔ ∀ name ∈ v.names, name ∉ leafRejectKeys)
  | .obj fields => rejectFields_iff path fields
  | .arr items => rejectItems_iff path 0 items
  | .null => ⟨fun _ name hname => (by cases hname), fun _ => rfl⟩
  | .bool b => ⟨fun _ name hname => (by cases hname), fun _ => rfl⟩
  | .int n => ⟨fun _ name hname => (by cases hname), fun _ => rfl⟩
  | .float q => ⟨fun _ name hname => (by cases hname), fun _ => rfl⟩
  | .str s => ⟨fun _ name hname => (by cases hname), fun _ => rfl⟩
  | .bytes => ⟨fun _ name hname => (by cases hname), fun _ => rfl⟩

theorem rejectFields_iff (path : String) : (fields : List (String × Json)) →
    (rejectFields path fields = .ok () ↔ ∀ name ∈ fieldNames fields, name ∉ leafRejectKeys)
  | [] => ⟨fun _ name hname => (by cases hname), fun _ => rfl⟩
  | (key, value) :: fields => by
      have hone := rejectRecursive_iff (path ++ "." ++ key) value
      have hall := rejectFields_iff path fields
      simp only [rejectFields, fieldNames, forall_mem_cons, forall_mem_append, ← hone,
        ← hall]
      split
      · rename_i hrejected
        exact ⟨nofun, fun h => absurd hrejected h.1⟩
      rename_i hkept
      cases rejectRecursive (path ++ "." ++ key) value with
      | error e => exact ⟨nofun, fun h => (by cases h.2.1)⟩
      | ok u => exact ⟨fun h => ⟨hkept, rfl, h⟩, fun h => h.2.2⟩

theorem rejectItems_iff (path : String) (i : ℕ) : (items : List Json) →
    (rejectItems path i items = .ok () ↔ ∀ name ∈ itemNames items, name ∉ leafRejectKeys)
  | [] => ⟨fun _ name hname => (by cases hname), fun _ => rfl⟩
  | item :: items => by
      have hone := rejectRecursive_iff (path ++ "[" ++ toString i ++ "]") item
      have hall := rejectItems_iff path (i + 1) items
      simp only [rejectItems, itemNames, forall_mem_append, ← hone, ← hall]
      cases rejectRecursive (path ++ "[" ++ toString i ++ "]") item with
      | error e => exact ⟨nofun, fun h => (by cases h.1)⟩
      | ok u => exact ⟨fun h => ⟨rfl, h⟩, fun h => h.2⟩

end

theorem mem_stripFields (h : (key, value) ∈ fields)
    (hkept : deepStripped key = false) : key ∈ fieldNames (stripFields fields) := by
  induction fields with
  | nil => cases h
  | cons f fields ih =>
    obtain ⟨other, item⟩ := f
    simp only [stripFields]
    rcases mem_cons.mp h with heq | h
    · cases heq
      rw [if_neg (by simp [hkept])]
      exact mem_cons_self
    · split
      · exact ih h
      · exact mem_cons_of_mem _ (mem_append_right _ (ih h))

/-- A name below a field is a name of the object. -/
theorem mem_fieldNames_below {name : String} (h : f ∈ fields)
    (hname : name ∈ f.2.names) : name ∈ fieldNames fields := by
  induction fields with
  | nil => cases h
  | cons g fields ih =>
    rcases mem_cons.mp h with rfl | h
    · exact mem_cons_of_mem _ (mem_append_left _ hname)
    · exact mem_cons_of_mem _ (mem_append_right _ (ih h))

theorem mem_setField (fields : Fields) (key : String) (value : Json) :
    (key, value) ∈ PipelineCoordinator.setField fields key value := by
  unfold PipelineCoordinator.setField
  split
  · rename_i hany
    obtain ⟨f, hf, hkey⟩ := any_eq_true.mp hany
    exact mem_map.mpr ⟨f, hf, by rw [if_pos hkey]⟩
  · exact mem_append_right _ mem_cons_self

/-- A request parameter with one of these names passes the sanitizer and `_deep_strip`, and every
submission of a leaf is then refused. -/
theorem submit_refused_of_request (client : GPUManagerLeafGenerationClient)
    (calls : List ProviderCall) (stage : Stage) (inputs : Option Fields) (state : PipelineRunState)
    (idempotencyKey : String)
    (hkey : key ∈ ["service_pipeline_id", "worker_pipeline", "pipeline", "force_qc_fail"])
    (hrequest : (key, value) ∈ state.requestParams) :
    ∃ e, client.submit calls stage inputs state idempotencyKey = .error e := by
  have hforbidden : key ∈ leafRejectKeys ∧ deepStripped key = false := by
    simp only [mem_cons, not_mem_nil, or_false] at hkey
    rcases hkey with rfl | rfl | rfl | rfl <;> decide
  have hname : key ∈ fieldNames (client.buildTrustedConfig stage inputs state) := by
    unfold buildTrustedConfig
    refine mem_fieldNames_below (mem_setField _ "context" _) ?_
    simp only [deepStrip]
    rw [stripFields, if_neg (by decide), deepStrip]
    exact mem_fieldNames_below mem_cons_self (mem_stripFields hrequest hforbidden.2)
  have hrejected := rejectRecursive_iff "$" (.obj (client.buildTrustedConfig stage inputs state))
  cases hreject : rejectRecursive "$" (.obj (client.buildTrustedConfig stage inputs state)) with
  | error e => exact ⟨e, by simp only [submit, hreject]⟩
  | ok u => exact absurd hforbidden.1 (hrejected.mp hreject key hname)

end GpuManager.Coordinator
