import Mathlib.Data.List.Dedup
import GpuManager.Lib.Json
import GpuManager.Lib.Kahn

/-!
# Validation of workflow definitions

`validate_workflow_definition` looks at any JSON value and returns the list of what is wrong
with it; a definition is accepted when the list is empty.  The stages are scanned once, in
order, which collects their ids and their dependencies; the graph is then checked for
dependencies that are no stage and, by Kahn's algorithm, for cycles.

The sets of the source are lists without repetition.  Nothing depends on the order in which
a set is iterated except the order of the visits of Kahn's algorithm, whose number does not
depend on it.

The main result is `valid_spec`: an accepted definition is a non-empty list of stages with
distinct ids whose dependencies are stages again, and a pass of Kahn's algorithm visits all
of them.
-/

namespace GpuManager.Workflow

open PyStr List

variable {F : Type}

inductive DefinitionError where
  | notObject
  | schemaVersion
  | id
  | revision
  | stages
  | stageNotObject (index : ℕ)
  | stageId (index : ℕ)
  | duplicateId (index : ℕ) (id : PyStr)
  | kind (index : ℕ)
  | operation (index : ℕ)
  | notString (index : ℕ) (field : String)
  | bindings (index : ℕ)
  | enabledByDefault (index : ℕ)
  | dependsOn (index : ℕ)
  | retry (index : ℕ)
  | unknownDependency (dependency : PyStr)
  | cycle
  | inputs
  | outputs
  deriving DecidableEq

/-- `f"stages[{index}]"`, continued. -/
def stagePath (index : ℕ) (rest : String) : PyStr :=
  text "stages[" ++ ofNat index ++ text "]" ++ text rest

/-- The text of an error. -/
def DefinitionError.message : DefinitionError → PyStr
  | notObject => text "workflow must be an object"
  | schemaVersion => text "schema_version must be 'workflow.v1'"
  | id => text "id must contain only letters, digits, '.', '_' or '-'"
  | revision => text "revision must be a positive integer"
  | stages => text "stages must be a non-empty list"
  | stageNotObject i => stagePath i " must be an object"
  | stageId i => stagePath i ".id must contain only letters, digits, '.', '_' or '-'"
  | duplicateId i stage => stagePath i ".id duplicates " ++ quoted stage
  | kind i => stagePath i (".kind must be one of ['delivery', 'generation', 'preparation', " ++
      "'qc', 'research', 'transform', 'validation']")
  | operation i => stagePath i ".operation must be a non-empty string"
  | notString i field => stagePath i ("." ++ field ++ " must be a string")
  | bindings i => stagePath i ".bindings must be an object"
  | enabledByDefault i => stagePath i ".enabled_by_default must be boolean"
  | dependsOn i => stagePath i ".depends_on must be a list of non-empty strings"
  | retry i => stagePath i ".retry must be an object"
  | unknownDependency dependency =>
    text "depends_on references unknown stage " ++ quoted dependency
  | cycle => text "stages contain a dependency cycle"
  | inputs => text "inputs must be an object"
  | outputs => text "outputs must be a list of objects"

/-- `TypeError: unhashable type`, raised by `kind not in _STAGE_KINDS`. -/
inductive TypeError where
  | unhashable
  deriving DecidableEq

/-- `_STAGE_KINDS`. -/
def stageKinds : List PyStr :=
  ["preparation", "research", "validation", "generation", "transform", "qc", "delivery"].map text

def isAlnum (c : CodePoint) : Bool :=
  (48 ≤ c.val && c.val ≤ 57) || (65 ≤ c.val && c.val ≤ 90) || (97 ≤ c.val && c.val ≤ 122)

/-- `_ID_RE.fullmatch`: one to 128 letters, digits, `.`, `_` or `-`, the first one a letter
or a digit. -/
def isId : PyStr → Bool
  | [] => false
  | c :: cs =>
    isAlnum c && cs.length ≤ 127 &&
      cs.all fun c => isAlnum c || c.val = 46 || c.val = 95 || c.val = 45

/-- The id of a stage, where it has one that `_ID_RE` accepts. -/
def stageId? (stage : Json F) : Option PyStr := (stage.get "id").str?.filter fun s => isId s

/-- `depends_on`, where it is a list of non-empty strings; absent, it is empty. -/
def dependsOn? (stage : Json F) : Option (List PyStr) :=
  match stage.get? "depends_on" with
  | none => some []
  | some (.arr items) =>
    let names := items.filterMap Json.str?
    if names.length = items.length ∧ names.all (· ≠ []) then some names else none
  | some _ => none

/-- The dependencies of a stage, empty where they are malformed. -/
def dependsOn (stage : Json F) : List PyStr := (dependsOn? stage).getD []

/-- `_stage_enabled`. -/
def stageEnabled (stage : Json F) : Bool :=
  match stage.get? "enabled_by_default" with
  | some (.bool false) => false
  | _ => true

def reportIf (wrong : Bool) (e : DefinitionError) : List DefinitionError :=
  if wrong then [e] else []

/-- A field that may be absent or `None` has another type. -/
def illTyped (stage : Json F) (field : String) (ok : Json F → Bool) : Bool :=
  match stage.get? field with
  | none => false
  | some value => !value.isNull && !ok value

def stageErrors (index : ℕ) (stage : Json F) : List DefinitionError :=
  reportIf (!((stage.get "kind").str?.any (· ∈ stageKinds))) (.kind index) ++
  reportIf (!((stage.get "operation").str?.any (!blank ·))) (.operation index) ++
  ["adapter", "provider", "service", "runtime_profile"].flatMap (fun field =>
    reportIf (illTyped stage field fun v => v.str?.isSome) (.notString index field)) ++
  reportIf (illTyped stage "bindings" Json.isObj) (.bindings index) ++
  reportIf (match stage.get? "enabled_by_default" with
    | none | some (.bool _) => false
    | some _ => true) (.enabledByDefault index) ++
  reportIf (dependsOn? stage).isNone (.dependsOn index) ++
  reportIf (!(stage.get "retry").isNull && !(stage.get "retry").isObj) (.retry index)

/-- What the scan of the stages collects: `stage_ids`, `edges` and the errors. -/
structure Scan where
  stageIds : List PyStr := []
  edges : List (PyStr × List PyStr) := []
  errors : List DefinitionError := []

def setEdge (edges : List (PyStr × List PyStr)) (stage : PyStr) (deps : List PyStr) :
    List (PyStr × List PyStr) :=
  if edges.any (·.1 = stage) then edges.map fun e => if e.1 = stage then (stage, deps) else e
  else edges ++ [(stage, deps)]

def scanStage (index : ℕ) (stage : Json F) (scan : Scan) : Except TypeError Scan :=
  if !stage.isObj then .ok { scan with errors := scan.errors ++ [.stageNotObject index] }
  else
    match stageId? stage with
    | none => .ok { scan with errors := scan.errors ++ [.stageId index] }
    | some id =>
      if !(stage.get "kind").hashable then .error .unhashable
      else
        .ok
          { stageIds := if id ∈ scan.stageIds then scan.stageIds else scan.stageIds ++ [id]
            edges := setEdge scan.edges id (dependsOn stage).dedup
            errors := scan.errors ++ reportIf (id ∈ scan.stageIds) (.duplicateId index id) ++
              stageErrors index stage }

/-- The loop over the stages. -/
def scanStages (index : ℕ) : List (Json F) → Scan → Except TypeError Scan
  | [], scan => .ok scan
  | stage :: stages, scan =>
    match scanStage index stage scan with
    | .error e => .error e
    | .ok scan => scanStages (index + 1) stages scan

def Scan.deps (scan : Scan) (stage : PyStr) : List PyStr :=
  ((scan.edges.lookup stage).getD []).filter (· ∈ scan.stageIds)

/-- The errors of the graph. -/
def graphErrors (scan : Scan) : List DefinitionError :=
  ((scan.edges.flatMap (·.2)).filter (· ∉ scan.stageIds) |>.mergeSort le).map
    .unknownDependency ++
  reportIf ((Kahn.run scan.stageIds scan.deps).visited.length ≠ scan.stageIds.length) .cycle

def portErrors (definition : Json F) : List DefinitionError :=
  reportIf (!(definition.get "inputs").isNull && !(definition.get "inputs").isObj) .inputs ++
  reportIf (match definition.get "outputs" with
    | .null => false
    | .arr items => items.any (!Json.isObj ·)
    | _ => true) .outputs

def headErrors (definition : Json F) : List DefinitionError :=
  reportIf (!((definition.get "schema_version").str?.any (· = text "workflow.v1")))
    .schemaVersion ++
  reportIf (!((definition.get "id").str?.any (isId ·))) .id ++
  reportIf (match definition.get? "revision" with
    | none => false
    | some (.int n) => n < 1
    | some _ => true) .revision

/-- `validate_workflow_definition`. -/
def validateWorkflowDefinition (definition : Json F) : Except TypeError (List DefinitionError) :=
  if !definition.isObj then .ok [.notObject]
  else
    match definition.get "stages" with
    | .arr (stage :: stages) =>
      match scanStages 0 (stage :: stages) {} with
      | .error e => .error e
      | .ok scan =>
        .ok (headErrors definition ++ scan.errors ++ graphErrors scan ++ portErrors definition)
    | _ => .ok (headErrors definition ++ [.stages])

/-! ## Accepted definitions -/

/-- The stages of a definition. -/
def stagesOf (definition : Json F) : List (Json F) :=
  match definition.get "stages" with
  | .arr stages => stages
  | _ => []

structure WellFormed (definition : Json F) : Prop where
  nonempty : stagesOf definition ≠ []
  object : ∀ stage ∈ stagesOf definition, stage.isObj = true
  named : ∀ stage ∈ stagesOf definition, ∃ id, stageId? stage = some id
  distinct : ((stagesOf definition).filterMap stageId?).Nodup
  known : ∀ stage ∈ stagesOf definition, ∀ dep ∈ dependsOn stage,
    ∃ other ∈ stagesOf definition, stageId? other = some dep
  /-- a set of stages has a stage that depends on no stage of the set -/
  founded : ∀ P : PyStr → Prop, (∃ stage ∈ stagesOf definition, ∃ id ∈ stageId? stage, P id) →
    ∃ stage ∈ stagesOf definition, ∃ id ∈ stageId? stage, P id ∧ ∀ dep ∈ dependsOn stage, ¬ P dep

theorem reportIf_eq_nil {wrong : Bool} {e : DefinitionError} :
    reportIf wrong e = [] ↔ wrong = false := by
  cases wrong <;> simp [reportIf]

def edge? (stage : Json F) : Option (PyStr × List PyStr) :=
  (stageId? stage).map fun id => (id, (dependsOn stage).dedup)

variable {index : ℕ} {stages : List (Json F)} {scan scan' : Scan} {stage : Json F}

/-- The errors only grow. -/
theorem scanStages_errors (h : scanStages index stages scan = .ok scan')
    (hclean : scan'.errors = []) : scan.errors = [] := by
  induction stages generalizing index scan with
  | nil =>
    cases h
    exact hclean
  | cons stage stages ih =>
    unfold scanStages at h
    cases hstep : scanStage index stage scan with
    | error e =>
      rw [hstep] at h
      cases h
    | ok next =>
      simp only [hstep] at h
      have hnext := ih h
      unfold scanStage at hstep
      repeat' split at hstep
      all_goals cases hstep <;> simp_all

/-- A scan step that reports nothing has read a stage with a new id. -/
theorem scanStage_clean (h : scanStage index stage scan = .ok scan')
    (hclean : scan'.errors = []) (hkeys : scan.edges.map (·.1) = scan.stageIds) :
    scan.errors = [] ∧ stage.isObj = true ∧ ∃ id, stageId? stage = some id ∧
      id ∉ scan.stageIds ∧ scan'.stageIds = scan.stageIds ++ [id] ∧
      scan'.edges = scan.edges ++ [(id, (dependsOn stage).dedup)] := by
  unfold scanStage at h
  by_cases hobj : stage.isObj = true
  swap
  · rw [if_pos (by simpa using hobj)] at h
    cases h
    simp at hclean
  rw [if_neg (by simp [hobj])] at h
  cases hid : stageId? stage with
  | none =>
    rw [hid] at h
    cases h
    simp at hclean
  | some id =>
    simp only [hid] at h
    split at h
    · cases h
    cases h
    simp only [append_eq_nil_iff, reportIf_eq_nil, decide_eq_false_iff_not] at hclean
    obtain ⟨⟨herrors, hnew⟩, -⟩ := hclean
    refine ⟨herrors, hobj, id, rfl, hnew, if_neg hnew, if_neg ?_⟩
    rw [← hkeys] at hnew
    simpa [any_eq_true] using hnew

/-- A scan that reports nothing has read stages with distinct ids, one edge for each. -/
theorem scanStages_clean (h : scanStages index stages scan = .ok scan') (hclean : scan'.errors = [])
    (hkeys : scan.edges.map (·.1) = scan.stageIds) (hnodup : scan.stageIds.Nodup) :
    scan.errors = [] ∧
    (∀ stage ∈ stages, stage.isObj = true ∧ ∃ id, stageId? stage = some id) ∧
    scan'.stageIds = scan.stageIds ++ stages.filterMap stageId? ∧ scan'.stageIds.Nodup ∧
    scan'.edges = scan.edges ++ stages.filterMap edge? := by
  induction stages generalizing index scan with
  | nil =>
    cases h
    exact ⟨hclean, by simp, by simp, hnodup, by simp⟩
  | cons stage stages ih =>
    unfold scanStages at h
    cases hstep : scanStage index stage scan with
    | error e =>
      rw [hstep] at h
      cases h
    | ok next =>
      simp only [hstep] at h
      obtain ⟨herrors, hobj, id, hid, hnew, hids, hedges⟩ :=
        scanStage_clean hstep (scanStages_errors h hclean) hkeys
      have hkeys' : next.edges.map (·.1) = next.stageIds := by simp [hids, hedges, hkeys]
      have hnodup' : next.stageIds.Nodup := by
        rw [hids]
        exact nodup_append.mpr ⟨hnodup, by simp, by
          intro a ha b hb
          rw [mem_singleton.mp hb]
          exact fun heq => hnew (heq ▸ ha)⟩
      obtain ⟨-, hstages, hids', hnodup'', hedges'⟩ := ih h hkeys' hnodup'
      refine ⟨herrors, ?_, ?_, hnodup'', ?_⟩
      · intro other hother
        rcases mem_cons.mp hother with rfl | hother
        · exact ⟨hobj, id, hid⟩
        · exact hstages other hother
      · rw [hids', hids]
        simp [hid]
      · rw [hedges', hedges]
        simp [edge?, hid]

/-- The edges of stages with distinct ids are found again under their ids. -/
theorem lookup_edges (hnodup : (stages.filterMap stageId?).Nodup)
    (hmem : stage ∈ stages) {id : PyStr} (hid : stageId? stage = some id) :
    (stages.filterMap edge?).lookup id = some (dependsOn stage).dedup := by
  induction stages with
  | nil => cases hmem
  | cons first stages ih =>
    rcases mem_cons.mp hmem with rfl | hmem
    · simp [edge?, hid]
    cases hfirst : stageId? first with
    | none =>
      rw [filterMap_cons_none hfirst] at hnodup
      rw [filterMap_cons_none (by simp [edge?, hfirst])]
      exact ih hnodup hmem
    | some other =>
      rw [filterMap_cons_some hfirst] at hnodup
      obtain ⟨hout, hnodup⟩ := nodup_cons.mp hnodup
      have hne : id ≠ other := by
        rintro rfl
        exact hout (mem_filterMap.mpr ⟨stage, hmem, hid⟩)
      rw [filterMap_cons_some (b := (other, (dependsOn first).dedup))
        (by simp [edge?, hfirst]), lookup_cons, beq_eq_false_iff_ne.mpr hne]
      exact ih hnodup hmem

theorem valid_spec {definition : Json F} (h : validateWorkflowDefinition definition = .ok []) :
    WellFormed definition := by
  unfold validateWorkflowDefinition at h
  split at h
  · cases h
  split at h
  swap
  · simp at h
  next stage stages hstages =>
    cases hscan : scanStages 0 (stage :: stages) {} with
    | error e =>
      rw [hscan] at h
      cases h
    | ok scan =>
      simp only [hscan, Except.ok.injEq, append_eq_nil_iff] at h
      obtain ⟨⟨⟨-, hclean⟩, hgraph⟩, -⟩ := h
      obtain ⟨-, hnamed, hids, hnodup, hedges⟩ := scanStages_clean hscan hclean rfl nodup_nil
      have hof : stagesOf definition = stage :: stages := by
        unfold stagesOf
        rw [hstages]
      rw [← hof] at hnamed hids hedges
      simp only [nil_append] at hids hedges
      simp only [graphErrors, append_eq_nil_iff, map_eq_nil_iff, reportIf_eq_nil,
        decide_eq_false_iff_not, not_not] at hgraph
      obtain ⟨hknown, hkahn⟩ := hgraph
      have hdeps : ∀ s ∈ stagesOf definition, ∀ id ∈ stageId? s,
          scan.deps id = (dependsOn s).dedup ∧ ∀ dep ∈ dependsOn s, dep ∈ scan.stageIds := by
        intro s hs id hid
        have hlookup : scan.edges.lookup id = some (dependsOn s).dedup := by
          rw [hedges]
          exact lookup_edges (hids ▸ hnodup) hs hid
        have hall : ∀ dep ∈ (dependsOn s).dedup, dep ∈ scan.stageIds := by
          intro dep hdep
          by_contra hout
          have hedge : (id, (dependsOn s).dedup) ∈ scan.edges := by
            rw [hedges]
            exact mem_filterMap.mpr ⟨s, hs, by simp [edge?, Option.mem_def.mp hid]⟩
          have hmem : dep ∈ ((scan.edges.flatMap (·.2)).filter (· ∉ scan.stageIds)).mergeSort
              le := by
            rw [mem_mergeSort]
            exact mem_filter.mpr ⟨mem_flatMap.mpr ⟨_, hedge, hdep⟩, by simpa using hout⟩
          rw [hknown] at hmem
          cases hmem
        refine ⟨?_, fun dep hdep => hall dep (mem_dedup.mpr hdep)⟩
        unfold Scan.deps
        rw [hlookup, Option.getD_some, filter_eq_self]
        exact fun dep hdep => decide_eq_true (hall dep hdep)
      have hmemIds : ∀ id, id ∈ scan.stageIds ↔
          ∃ s ∈ stagesOf definition, stageId? s = some id := by
        intro id
        rw [hids, mem_filterMap]
      constructor
      case nonempty => rw [hof]; exact cons_ne_nil _ _
      case object => exact fun s hs => (hnamed s hs).1
      case named => exact fun s hs => (hnamed s hs).2
      case distinct => exact hids ▸ hnodup
      case known =>
        intro s hs dep hdep
        obtain ⟨id, hid⟩ := (hnamed s hs).2
        exact (hmemIds dep).mp ((hdeps s hs id hid).2 dep hdep)
      case founded =>
        rintro P ⟨s, hs, id, hid, hP⟩
        have hdedup : ∀ n ∈ scan.stageIds, (scan.deps n).Nodup := by
          intro n hn
          obtain ⟨t, ht, hn⟩ := (hmemIds n).mp hn
          rw [(hdeps t ht n hn).1]
          exact nodup_dedup _
        obtain ⟨n, hn, hPn, hmin⟩ := Kahn.exists_minimal hnodup hdedup hkahn
          (P := P) ⟨id, (hmemIds id).mpr ⟨s, hs, hid⟩, hP⟩
        obtain ⟨t, ht, hn⟩ := (hmemIds n).mp hn
        refine ⟨t, ht, n, hn, hPn, fun dep hdep => hmin dep ?_⟩
        rw [(hdeps t ht n hn).1]
        exact mem_dedup.mpr hdep

end GpuManager.Workflow
