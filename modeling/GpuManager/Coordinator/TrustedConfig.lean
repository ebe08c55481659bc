import GpuManager.Coordinator.RunRecord
import GpuManager.Lib.JsonPrune
import GpuManager.Services.Compiler
import GpuManager.Services.LoadedPipeline

/-!
# The trusted configuration of a leaf job

`_build_trusted_config` leaves out fields of a stage before it goes to a leaf job.  At the top level
of the stage it goes by the exact names and the beginnings of the keys; below, and in the context
that it adds, by their endings as well.

* `config_preserved`: along a path of keys that may stay, the fields of the stage are what they were.
* `config_clean_iff`: no key that must not stay is left exactly when no key at the top level of the
  stage escapes by its ending.
-/

namespace GpuManager.RunRecord

open Json PyStr List PyDict
open Services (PyValues Dict)

/-- `_LEAF_STRIP_PREFIXES`. -/
def leafStripPrefixes : List PyStr :=
  ["endpoint", "unit", "command", "routing_group", "bypass", "skip_pipeline", "internal_leaf"].map
    text

/-- `_LEAF_STRIP_KEYS`. -/
def leafStripKeys : List PyStr :=
  ["endpoint", "unit", "command", "routing_group", "bypass", "skip_pipeline", "internal_leaf",
    "routing", "url", "host"].map text

/-- `_strip_suffixes`. -/
def stripSuffixes : List PyStr := ["_base64", "_blob", "_bytes", "_data"].map text

def stripped (key : PyStr) : Bool :=
  key ∈ leafStripKeys || leafStripPrefixes.any fun p => p.isPrefixOf key

/-- A key that is left out below the top level for its ending. -/
def suffixed (key : PyStr) : Bool := stripSuffixes.any fun s => s.isSuffixOf key

def stays (key : PyStr) : Bool := !stripped key && !suffixed key

section Config

variable {F : Type}

/-- `_deep_strip`. -/
def deepStrip (value : Json F) : Json F := value.prune stays

/-- The loop over the fields of the stage; its keys are distinct. -/
def strippedStage : Dict F → Dict F
  | [] => []
  | (key, value) :: stage =>
    if stripped key then strippedStage stage else (key, deepStrip value) :: strippedStage stage

variable (py : PyValues F)

/-- `stage_defs`: the records of the compiled stages by their ids; raises for what is no record. -/
def stageDefs : List (Json F) → PyDict PyStr (Json F) → Option (PyDict PyStr (Json F))
  | [], defs => some defs
  | item :: items, defs =>
    if item.isObj then stageDefs items (defs.set (py.strOf (item.get "id")) item) else none

/-- What the loop over `compiled_pipeline.get("stages", [])` goes over. -/
def compiledStages (pipeline : Dict F) : Option (List (Json F)) :=
  match (pipeline.get? (text "stages")).getD (.arr []) with
  | .arr items => some items
  | .obj [] => some []
  | .str [] => some []
  | _ => none

/-- The loop over the attempts, the last one first: the prompt of the first one that has one. -/
def enhancedPrompt : List (StageAttempt F) → PyStr → Option PyStr
  | [], prompt => some prompt
  | a :: attempts, prompt =>
    if a.status = .completed then
      let output := py.orElse a.output (.obj [])
      if output.isObj then
        let enhanced := py.orElse (output.get "enhanced_prompt") (output.get "prompt")
        if py.truthy enhanced then some (py.strOf enhanced) else enhancedPrompt attempts prompt
      else none
    else enhancedPrompt attempts prompt

/-- The loop over `stage_attempts`. -/
def effectivePrompt (defs : PyDict PyStr (Json F)) :
    List (PyStr × List (StageAttempt F)) → PyStr → Option PyStr
  | [], prompt => some prompt
  | (stageId, attempts) :: rest, prompt =>
    let kind := ((defs.get? stageId).getD (.obj [])).get "kind"
    if kind.str? = some (text "prompt_enhance") then do
      let prompt ← enhancedPrompt py attempts.reverse prompt
      effectivePrompt defs rest prompt
    else effectivePrompt defs rest prompt

/-- `latest_qc`: the last verdict of the last stage that has one. -/
def latestQc (verdicts : PyDict PyStr (List QCVerdict)) : Option QCVerdict :=
  verdicts.foldl (fun latest e => (e.2.getLast?).or latest) none

def context (state : PipelineRunState F) : Option (Json F) := do
  let prompt := py.orElse ((state.requestParams.get? (text "prompt")).getD .null) (.str [])
  let stages ← compiledStages state.compiledPipeline
  let defs ← stageDefs py stages []
  let effective ← effectivePrompt py defs state.stageAttempts (py.strOf prompt)
  some (.obj [(text "request_params", .obj state.requestParams),
    (text "effective_prompt", .str effective),
    (text "artifact", optionalRecord ArtifactRef.toDict state.artifact),
    (text "qc_verdict", optionalRecord QCVerdict.toDict (latestQc state.stageQcVerdicts))])

def buildTrustedConfig (stage : Dict F) : Option (PipelineRunState F) → Option (Dict F)
  | none => some (strippedStage stage)
  | some state => do
      let added ← context py state
      some ((strippedStage stage).set (text "context") (deepStrip added))

end Config

variable {F : Type} {py : PyValues F} {stage config : Dict F} {state : Option (PipelineRunState F)}

/-! ## What is left out -/

theorem keptMembers_strippedStage :
    KeptMembers stays (strippedStage stage) ↔
      ∀ field ∈ stage, suffixed field.1 = true → stripped field.1 = true := by
  induction stage with
  | nil => simp [strippedStage, KeptMembers]
  | cons field stage ih =>
    obtain ⟨key, value⟩ := field
    rw [strippedStage, forall_mem_cons]
    by_cases hkey : stripped key = true
    · rw [if_pos hkey, ih]
      exact (and_iff_right fun _ => hkey).symm
    rw [if_neg hkey, KeptMembers, ih]
    have hclean : Kept stays (deepStrip value) := kept_prune value
    simp [stays, hkey, hclean]

/-- Setting a clean field keeps a configuration clean, and makes none clean. -/
theorem keptMembers_set {key : PyStr} {value : Json F} (hkey : stays key = true)
    (hvalue : Kept stays value) (hother : ∀ field ∈ config, field.1 = key → Kept stays field.2) :
    KeptMembers stays (PyDict.set config key value) ↔ KeptMembers stays config := by
  rw [keptMembers_iff, keptMembers_iff]
  unfold PyDict.set
  split
  · constructor
    · intro h field hfield
      by_cases heq : field.1 = key
      · exact ⟨heq ▸ hkey, hother field hfield heq⟩
      · have := h _ (List.mem_map_of_mem hfield)
        rwa [if_neg heq] at this
    · intro h field hfield
      obtain ⟨old, hold, rfl⟩ := List.mem_map.mp hfield
      split
      · exact ⟨hkey, hvalue⟩
      · exact h old hold
  · constructor
    · exact fun h field hfield => h field (List.mem_append_left _ hfield)
    · intro h field hfield
      rcases List.mem_append.mp hfield with hfield | hfield
      · exact h field hfield
      · rw [List.mem_singleton.mp hfield]
        exact ⟨hkey, hvalue⟩

theorem kept_of_mem_strippedStage {field : PyStr × Json F} (h : field ∈ strippedStage stage) :
    Kept stays field.2 := by
  induction stage with
  | nil => cases h
  | cons first stage ih =>
    obtain ⟨key, value⟩ := first
    rw [strippedStage] at h
    split at h
    · exact ih h
    rcases mem_cons.mp h with rfl | h
    · exact kept_prune value
    · exact ih h

/-- **A configuration is clean** exactly when no key at the top level of the stage escapes. -/
theorem clean_iff (h : buildTrustedConfig py stage state = some config) :
    Kept stays (.obj config) ↔
      ∀ field ∈ stage, suffixed field.1 = true → stripped field.1 = true := by
  rw [← keptMembers_strippedStage, Kept]
  cases state with
  | none =>
    obtain rfl := Option.some.inj h
    rfl
  | some state =>
    obtain ⟨added, -, heq⟩ := Option.bind_eq_some_iff.mp h
    obtain rfl := Option.some.inj heq
    exact keptMembers_set (by decide) (kept_prune added)
      fun field hfield _ => kept_of_mem_strippedStage hfield

/-! ## What is preserved -/

/-- Along every path whose keys may stay, but for the added context, the configuration holds what
the stage holds. -/
def Preserves (stage config : Dict F) (state : Option (PipelineRunState F)) : Prop :=
  ∀ path : List Step, (∀ key, .key key ∈ path → stays key = true) →
    (state.isSome = true → path.head? ≠ some (.key (text "context"))) →
    (at? path (.obj config)).map skin = (at? path (.obj stage)).map skin

theorem get?_strippedStage {key : PyStr} (hkey : stripped key = false) :
    PyDict.get? (strippedStage stage) key = (PyDict.get? stage key).map deepStrip := by
  induction stage with
  | nil => rfl
  | cons field stage ih =>
    obtain ⟨name, value⟩ := field
    rw [strippedStage, get?_cons]
    by_cases hname : name = key
    · subst hname
      rw [if_neg (by rw [hkey]; exact Bool.false_ne_true), get?_cons, if_pos rfl, if_pos rfl]
      rfl
    · rw [if_neg hname, ← ih]
      split
      · rfl
      · rw [get?_cons, if_neg hname]

/-- **The fields of the stage** are preserved. -/
theorem config_preserved (h : buildTrustedConfig py stage state = some config) :
    Preserves stage config state := by
  intro path hpath hcontext
  cases path with
  | nil => rfl
  | cons step path =>
    cases step with
    | index i => rfl
    | key key =>
      have hstays := hpath key mem_cons_self
      have hkey : stripped key = false := by
        unfold stays at hstays
        simpa using (Bool.and_eq_true_iff.mp hstays).1
      have hfound : get? config key = (get? stage key).map deepStrip := by
        cases state with
        | none =>
          obtain rfl := Option.some.inj h
          exact get?_strippedStage hkey
        | some state =>
          obtain ⟨added, -, heq⟩ := Option.bind_eq_some_iff.mp h
          obtain rfl := Option.some.inj heq
          have hother : key ≠ text "context" := fun heq =>
            hcontext rfl (by rw [heq]; rfl)
          rw [get?_set, if_neg hother]
          exact get?_strippedStage hkey
      rw [at?, at?, hfound]
      cases get? stage key with
      | none => rfl
      | some value =>
        show (at? path (deepStrip value)).map skin = (at? path value).map skin
        unfold deepStrip
        rw [at?_prune fun key hmem => hpath key (mem_cons_of_mem _ hmem), Option.map_map]
        congr 1
        funext v
        exact skin_prune v

/-- **A leaf job** gets no field that redirects it or holds binary data, and all others, exactly when
no key at the top level of the stage ends like one of binary data, unless it is left out for its
beginning or its name. -/
theorem config_clean_iff (py : PyValues F) (stage config : Dict F)
    (state : Option (PipelineRunState F)) (h : buildTrustedConfig py stage state = some config) :
    (Kept stays (.obj config) ∧ Preserves stage config state) ↔
      ∀ field ∈ stage, suffixed field.1 = true → stripped field.1 = true := by
  rw [clean_iff h]
  exact and_iff_left (config_preserved h)

/-- A correction with nested fields: its endpoint and the binary data in its parameters are left
out. -/
def correctStage : Dict Unit :=
  [(text "id", .str (text "fix")), (text "kind", .str (text "correct")),
    (text "endpoint_url", .str (text "internal")),
    (text "params", .obj [(text "prompt", .str (text "cat")), (text "seed", .int 7),
      (text "layers", .arr [.obj [(text "mask_base64", .str (text "AA")),
        (text "weights", .arr [.int 1, .int 2])]])])]

/-- A run whose prompt was enhanced and whose first picture has failed its check. -/
def checkedRun : PipelineRunState Unit where
  parentJobId := text "J-0001"
  runId := text "run"
  pipelineId := text "p"
  revisionHash := text "r"
  status := text "running"
  requestParams := [(text "prompt", .str (text "cat")), (text "init_blob", .str (text "AA"))]
  compiledPipeline := [(text "stages", .arr [
    .obj [(text "id", .str (text "enhance")), (text "kind", .str (text "prompt_enhance"))],
    .obj [(text "id", .str (text "draw")), (text "kind", .str (text "generate"))]])]
  stageAttempts := [(text "enhance", [{
    attempt := 1, status := .completed, startedAt := text "t0"
    output := .obj [(text "enhanced_prompt", .str (text "tabby cat"))] }])]
  stageQcVerdicts := [(text "check", [⟨text "check", false, text "blurred", none, text "t2"⟩])]
  artifact := some ⟨text "cat.png", text "00", text "draw", text "t1"⟩
  createdAt := text "t0"
  updatedAt := text "t2"

/-- The correction goes to its leaf job clean and with all its other fields. -/
theorem config_clean_correct : ∃ config,
    buildTrustedConfig Services.plainValues correctStage (some checkedRun) = some config ∧
      Kept stays (.obj config) ∧ Preserves correctStage config (some checkedRun) :=
  ⟨_, rfl, (config_clean_iff Services.plainValues correctStage _ (some checkedRun) rfl).mpr
    (by decide)⟩

/-- A stage of a plan with a field beside those of the compiler. -/
def stageWith (key : PyStr) : Dict Unit :=
  [(text "id", .str (text "g")), (text "kind", .str (text "generate")),
    (key, .str (text "AAAA"))]

/-- **The field `image_data`** of a stage goes to the leaf job. -/
theorem image_data_not_clean : ¬ ∀ config,
    buildTrustedConfig Services.plainValues (stageWith (text "image_data")) none = some config →
      Kept stays (.obj config) := by
  intro hall
  have hbuilt : buildTrustedConfig Services.plainValues (stageWith (text "image_data")) none =
      some (strippedStage (stageWith (text "image_data"))) := rfl
  have hfields := (clean_iff hbuilt).mp (hall _ hbuilt)
  revert hfields
  decide

/-! ## Compiled stages -/

def ofOutStage (stage : Services.OutStage F) : Dict F :=
  [(text "id", stage.id), (text "kind", .str stage.kind), (text "phase", .str stage.phase),
    (text "provider", .str stage.provider), (text "depends_on", .arr stage.dependsOn),
    (text "retries", stage.retries), (text "params", .obj stage.params)]

/-- Every stage that the compiler writes goes to its leaf job clean. -/
theorem ofOutStage_clean {out : Services.OutStage F}
    (h : buildTrustedConfig py (ofOutStage out) state = some config) : Kept stays (.obj config) := by
  have hkeys : ∀ key ∈ (ofOutStage out).map Prod.fst, suffixed key = true → stripped key = true := by
    simp only [ofOutStage, map_cons, map_nil]
    decide
  exact (clean_iff h).mpr fun field hfield => hkeys field.1 (mem_map_of_mem hfield)

end GpuManager.RunRecord
