import Mathlib.Data.List.Dedup
import GpuManager.Lib.PyDict
import GpuManager.Workflow.ValidStructure

/-!
# The order of compilation

`_stable_topological_order` of `workflow_pipeline_bridge.py` orders the stages of a workflow in
rounds: the stages that wait for none of the remaining ones go next, in the order of their
declaration.  Sets are lists without repetition.

* `orderRounds_spec`: while the remaining stages are founded the rounds go on, and every stage
  comes after its dependencies.
* `validator_exact`: the validator is exact, and its definitions are ordered.
-/

namespace GpuManager.Workflow

open PyStr List

variable {F : Type}

structure ValueCalls (F : Type) where
  /-- `str(value)`. -/
  str : Json F → PyStr
  /-- `value == 0.0`. -/
  zero : F → Bool

/-- Why the order raises. -/
inductive OrderError where
  | keyError
  | typeError
  | cycle
  deriving DecidableEq

/-- `str(value)`. -/
def ValueCalls.strOf (py : ValueCalls F) : Json F → PyStr
  | .str s => s
  | value => py.str value

/-- `bool(value)`. -/
def ValueCalls.truthy (py : ValueCalls F) : Json F → Bool
  | .null => false
  | .bool b => b
  | .int n => n ≠ 0
  | .float x => !py.zero x
  | .str s => s ≠ []
  | .arr items => !items.isEmpty
  | .obj members => !members.isEmpty

def iterItems : Json F → Option (List (Json F))
  | .str s => some (s.map fun c => .str [c])
  | .arr items => some items
  | .obj members => some (members.map fun m => .str m.1)
  | _ => none

/-- `str(stage["id"])`. -/
def orderId (py : ValueCalls F) (stage : Json F) : Except OrderError PyStr :=
  if stage.isObj then
    match stage.get? "id" with
    | some id => .ok (py.strOf id)
    | none => .error .keyError
  else .error .typeError

/-- `{str(dep) for dep in (stage.get("depends_on", []) or [])}`. -/
def orderDependencies (py : ValueCalls F) (stage : Json F) : Except OrderError (List PyStr) :=
  let raw := (stage.get? "depends_on").getD (.arr [])
  if py.truthy raw then
    match iterItems raw with
    | some items => .ok (items.map py.strOf).dedup
    | none => .error .typeError
  else .ok []

/-- `ready`: the remaining stages that wait for no remaining one, by their position. -/
def readyStages (positions : PyDict PyStr ℕ) (dependencies : PyDict PyStr (List PyStr))
    (remaining : List PyStr) : List PyStr :=
  (remaining.filter fun id => ((dependencies.get? id).getD []).all (· ∉ remaining)).mergeSort
    fun a b => (positions.get? a).getD 0 ≤ (positions.get? b).getD 0

theorem mem_readyStages {positions : PyDict PyStr ℕ} {dependencies : PyDict PyStr (List PyStr)}
    {remaining : List PyStr} {id : PyStr} : id ∈ readyStages positions dependencies remaining ↔
      id ∈ remaining ∧ ∀ dep ∈ (dependencies.get? id).getD [], dep ∉ remaining := by
  unfold readyStages
  rw [mem_mergeSort, mem_filter, all_eq_true]
  simp only [decide_eq_true_eq]

def differenceUpdate (remaining ready : List PyStr) : List PyStr := remaining.filter (· ∉ ready)

/-- The stages that are left are fewer when some were ready. -/
theorem length_differenceUpdate_lt {remaining ready : List PyStr} (hne : ready ≠ [])
    (hsub : ∀ id ∈ ready, id ∈ remaining) :
    (differenceUpdate remaining ready).length < remaining.length := by
  obtain ⟨id, hid⟩ := exists_mem_of_ne_nil _ hne
  unfold differenceUpdate
  rw [length_filter_lt_length_iff_exists]
  exact ⟨id, hsub id hid, by simpa using hid⟩

/-- `while remaining`. -/
def orderRounds (positions : PyDict PyStr ℕ) (dependencies : PyDict PyStr (List PyStr))
    (remaining result : List PyStr) : Except OrderError (List PyStr) :=
  if remaining = [] then .ok result
  else
    let ready := readyStages positions dependencies remaining
    if ready = [] then .error .cycle
    else
      orderRounds positions dependencies (differenceUpdate remaining ready) (result ++ ready)
termination_by remaining.length
decreasing_by exact length_differenceUpdate_lt ‹_› fun _ hid => (mem_readyStages.mp hid).1

/-- `_stable_topological_order`. -/
def stableTopologicalOrder (py : ValueCalls F) (stages : List (Json F)) :
    Except OrderError (List PyStr) := do
  let ids ← stages.mapM (orderId py)
  let positions : PyDict PyStr ℕ := ids.zipIdx.foldl (fun d e => d.set e.1 e.2) []
  let byId : PyDict PyStr (Json F) := (ids.zip stages).foldl (fun d e => d.set e.1 e.2) []
  let dependencies ← byId.mapM fun e => (orderDependencies py e.2).map fun deps => (e.1, deps)
  orderRounds positions dependencies (byId.map (·.1)) []

/-! ## The rounds -/

section Rounds

variable {positions : PyDict PyStr ℕ} {dependencies : PyDict PyStr (List PyStr)}

/-- What is ready and what is left are what remained. -/
theorem readyStages_append_perm (remaining : List PyStr) :
    (readyStages positions dependencies remaining ++ differenceUpdate remaining
      (readyStages positions dependencies remaining)).Perm remaining := by
  let waitsForNone (id : PyStr) : Bool :=
    ((dependencies.get? id).getD []).all fun dep => decide (dep ∉ remaining)
  have hleft : differenceUpdate remaining (readyStages positions dependencies remaining) =
      remaining.filter fun id => !waitsForNone id := by
    refine filter_congr fun id hid => ?_
    rw [Bool.eq_iff_iff, decide_eq_true_iff, mem_readyStages]
    simp [waitsForNone, hid]
  rw [hleft]
  exact ((mergeSort_perm _ _).append_right _).trans (filter_append_perm _ _)

/-- **The rounds** order everything, each stage after its dependencies. -/
theorem orderRounds_spec {ids remaining result : List PyStr}
    (hperm : (result ++ remaining).Perm ids)
    (hknown : ∀ id ∈ ids, ∀ dep ∈ (dependencies.get? id).getD [], dep ∈ ids)
    (hfounded : ∀ P : PyStr → Prop, (∃ id ∈ ids, P id) →
      ∃ id ∈ ids, P id ∧ ∀ dep ∈ (dependencies.get? id).getD [], ¬ P dep)
    (hordered : Kahn.Ordered (fun id => (dependencies.get? id).getD []) result.reverse) :
    ∃ order, orderRounds positions dependencies remaining result = .ok order ∧ order.Perm ids ∧
      Kahn.Ordered (fun id => (dependencies.get? id).getD []) order.reverse := by
  -- The induction is on the number of the stages that remain.
  induction hlength : remaining.length using Nat.strong_induction_on generalizing remaining result
  case h length ih =>
  rw [orderRounds]
  by_cases hremaining : remaining = []
  · subst hremaining
    rw [if_pos rfl]
    exact ⟨result, rfl, by simpa using hperm, hordered⟩
  have hmem : ∀ id, id ∈ ids ↔ id ∈ result ∨ id ∈ remaining := fun id => by
    rw [← hperm.mem_iff, mem_append]
  have hready : readyStages positions dependencies remaining ≠ [] := by
    obtain ⟨id, hid⟩ := exists_mem_of_ne_nil _ hremaining
    obtain ⟨m, -, hm, hmin⟩ := hfounded (· ∈ remaining) ⟨id, (hmem id).mpr (Or.inr hid), hid⟩
    exact ne_nil_of_mem (mem_readyStages.mpr ⟨hm, hmin⟩)
  simp only
  rw [if_neg hremaining, if_neg hready]
  subst hlength
  refine ih _ (length_differenceUpdate_lt hready fun _ hid => (mem_readyStages.mp hid).1) ?_ ?_ rfl
  · refine Perm.trans ?_ hperm
    rw [append_assoc]
    exact (readyStages_append_perm ..).append_left _
  · rw [reverse_append]
    refine hordered.append fun id hid dep hdep => ?_
    obtain ⟨hid, hnone⟩ := mem_readyStages.mp (mem_reverse.mp hid)
    have hdepIds := hknown id ((hmem id).mpr (Or.inr hid)) dep hdep
    exact mem_reverse.mpr (((hmem dep).mp hdepIds).resolve_right (hnone dep hdep))

end Rounds

/-! ## Accepted definitions -/

section Accepted

variable {definition stage : Json F} {stages : List (Json F)} (py : ValueCalls F)

theorem mapM_ok {α β : Type} {f : α → Except OrderError β} {g : α → β} {l : List α}
    (h : ∀ a ∈ l, f a = .ok (g a)) : l.mapM f = .ok (l.map g) := by
  induction l with
  | nil => rfl
  | cons a l ih =>
    rw [mapM_cons, h a mem_cons_self, ih fun b hb => h b (mem_cons_of_mem _ hb)]
    rfl

/-- The id of a stage that has one. -/
def stageName (stage : Json F) : PyStr := (stageId? stage).getD []

theorem stageId?_eq_stageName (h : StageStructure stage) :
    stageId? stage = some (stageName stage) := by
  obtain ⟨id, hid⟩ := h.id
  unfold stageName
  rw [stageId?_eq_some.mpr hid]
  rfl

theorem filterMap_stageId? (h : ∀ stage ∈ stages, StageStructure stage) :
    stages.filterMap stageId? = stages.map stageName := by
  rw [filterMap_congr fun stage hstage => stageId?_eq_stageName (h stage hstage)]
  exact congrFun (filterMap_eq_map) stages

theorem orderId_eq (h : StageStructure stage) : orderId py stage = .ok (stageName stage) := by
  have hid := (stageId?_eq_some.mp (stageId?_eq_stageName h)).1
  unfold orderId
  rw [if_pos h.object, hid]
  rfl

theorem orderDependencies_eq (h : StageStructure stage) :
    orderDependencies py stage = .ok (dependsOn stage).dedup := by
  unfold orderDependencies dependsOn dependsOn?
  cases hget : stage.get? "depends_on" with
  | none => rfl
  | some v =>
    obtain ⟨names, rfl, hnames⟩ := h.dependsOn v hget
    have hall : (names.all fun name => decide (name ≠ [])) = true :=
      all_eq_true.mpr fun name hname =>
        decide_eq_true fun hnil => hnames (hnil ▸ hname)
    have hstr : (names.map fun name => Json.str (F := F) name).map py.strOf = names := by
      rw [map_map]
      exact map_id names
    simp only [Option.getD_some, filterMap_str?_map, length_map, hall, and_self, if_true]
    cases hempty : names with
    | nil => rfl
    | cons name rest =>
      rw [← hempty]
      simp only [iterItems, hstr]
      rw [if_pos (by simp [ValueCalls.truthy, hempty])]

def stagePositions (stages : List (Json F)) : PyDict PyStr ℕ :=
  (stages.map stageName).zipIdx.foldl (fun d e => d.set e.1 e.2) []

def stageDependencies (stages : List (Json F)) : PyDict PyStr (List PyStr) :=
  stages.map fun stage => (stageName stage, (dependsOn stage).dedup)

/-- Stages with distinct ids go through the rounds. -/
theorem stableTopologicalOrder_eq (h : ∀ stage ∈ stages, StageStructure stage)
    (hnodup : (stages.map stageName).Nodup) : stableTopologicalOrder py stages =
      orderRounds (stagePositions stages) (stageDependencies stages) (stages.map stageName) [] := by
  have hids : stages.mapM (orderId py) = .ok (stages.map stageName) :=
    mapM_ok fun stage hstage => orderId_eq py (h stage hstage)
  have hbyId : ((stages.map stageName).zip stages).foldl (fun d e => PyDict.set d e.1 e.2) [] =
      stages.map fun stage => (stageName stage, stage) := by
    have hzip : (stages.map stageName).zip stages =
        stages.map fun stage => (stageName stage, stage) := by
      conv_lhs => rw [← map_id stages, map_map, zip_map']
      rfl
    rw [hzip]
    apply PyDict.foldl_set
    rw [nil_append, map_map]
    exact hnodup
  have hdependencies : (stages.map fun stage => (stageName stage, stage)).mapM
      (fun e => (orderDependencies py e.2).map fun deps => (e.1, deps)) =
        .ok (stageDependencies stages) := by
    rw [mapM_ok (g := fun e => (e.1, (dependsOn e.2).dedup)), map_map]
    · rfl
    · intro e he
      obtain ⟨stage, hstage, rfl⟩ := mem_map.mp he
      rw [orderDependencies_eq py (h stage hstage)]
      rfl
  unfold stableTopologicalOrder
  rw [hids]
  simp only [bind, Except.bind, hbyId, hdependencies, map_map]
  rfl

/-- **The order of an accepted definition**: its stages, each after its dependencies. -/
theorem stableTopologicalOrder_of_valid (h : validateWorkflowDefinition definition = .ok []) :
    ∃ order, stableTopologicalOrder py (stagesOf definition) = .ok order ∧
      order.Perm ((stagesOf definition).filterMap stageId?) ∧
      ∀ stage ∈ stagesOf definition, ∀ id ∈ stageId? stage, ∀ dep ∈ dependsOn stage,
        order.idxOf dep < order.idxOf id := by
  obtain ⟨hstructure, -⟩ := validateWorkflowDefinition_iff.mp h
  have hnames := filterMap_stageId? hstructure.stage
  have hnodup := hstructure.distinct
  rw [hnames] at hnodup ⊢
  have hid : ∀ stage ∈ stagesOf definition, stageId? stage = some (stageName stage) :=
    fun stage hstage => stageId?_eq_stageName (hstructure.stage stage hstage)
  have hkeys : ((stageDependencies (stagesOf definition)).map (·.1)).Nodup := by
    unfold stageDependencies
    rw [map_map]
    exact hnodup
  have hdeps : ∀ stage ∈ stagesOf definition,
      ((stageDependencies (stagesOf definition)).get? (stageName stage)).getD [] =
        (dependsOn stage).dedup := by
    intro stage hstage
    have hmem : (stageName stage, (dependsOn stage).dedup) ∈
        stageDependencies (stagesOf definition) :=
      mem_map_of_mem hstage
    rw [PyDict.get?_eq_some_of_mem hkeys hmem]
    rfl
  have hknown : ∀ id ∈ (stagesOf definition).map stageName,
      ∀ dep ∈ ((stageDependencies (stagesOf definition)).get? id).getD [],
        dep ∈ (stagesOf definition).map stageName := by
    intro id hmem dep hdep
    obtain ⟨stage, hstage, rfl⟩ := mem_map.mp hmem
    rw [hdeps stage hstage] at hdep
    obtain ⟨other, hother, hotherId⟩ := hstructure.known stage hstage dep (mem_dedup.mp hdep)
    rw [hid other hother] at hotherId
    exact mem_map.mpr ⟨other, hother, Option.some.inj hotherId⟩
  have hfounded : ∀ P : PyStr → Prop, (∃ id ∈ (stagesOf definition).map stageName, P id) →
      ∃ id ∈ (stagesOf definition).map stageName, P id ∧
        ∀ dep ∈ ((stageDependencies (stagesOf definition)).get? id).getD [], ¬ P dep := by
    rintro P ⟨id, hmem, hP⟩
    obtain ⟨stage, hstage, rfl⟩ := mem_map.mp hmem
    obtain ⟨first, hfirst, m, hm, hPm, hmin⟩ :=
      (valid_spec h).founded P ⟨stage, hstage, _, hid stage hstage, hP⟩
    rw [hid first hfirst] at hm
    obtain rfl := Option.some.inj hm
    refine ⟨_, mem_map_of_mem hfirst, hPm, fun dep hdep => hmin dep ?_⟩
    rw [hdeps first hfirst] at hdep
    exact mem_dedup.mp hdep
  obtain ⟨order, horder, hperm, hordered⟩ :=
    @orderRounds_spec (stagePositions (stagesOf definition)) _ _
      ((stagesOf definition).map stageName) [] (Perm.refl _) hknown hfounded trivial
  refine ⟨order, ?_, hperm, fun stage hstage id hstageId dep hdep => ?_⟩
  · rw [stableTopologicalOrder_eq py hstructure.stage hnodup, horder]
  · rw [hid stage hstage] at hstageId
    obtain rfl := Option.some.inj hstageId
    have hmem := hperm.mem_iff.mpr (mem_map_of_mem hstage)
    have hdep : dep ∈ ((stageDependencies (stagesOf definition)).get? (stageName stage)).getD [] :=
      (hdeps stage hstage) ▸ mem_dedup.mpr hdep
    have hlt := hordered.idxOf_lt (nodup_reverse.mpr (hperm.nodup_iff.mpr hnodup))
      (mem_reverse.mpr hmem) hdep
    rwa [reverse_reverse] at hlt

end Accepted

/-- **The workflow validator is exact and its order is usable.**  It accepts just the well-formed
definitions without a cycle, and the order of an accepted one has every stage once, after all that
it depends on. -/
theorem validator_exact (py : ValueCalls F) (definition : Json F) :
    (validateWorkflowDefinition definition = .ok [] ↔
      DefinitionStructure definition ∧ Acyclic definition) ∧
    (validateWorkflowDefinition definition = .ok [] →
      ∃ order, stableTopologicalOrder py (stagesOf definition) = .ok order ∧
        order.Perm ((stagesOf definition).filterMap stageId?) ∧
        ∀ stage ∈ stagesOf definition, ∀ id ∈ stageId? stage, ∀ dep ∈ dependsOn stage,
          order.idxOf dep < order.idxOf id) :=
  ⟨validateWorkflowDefinition_iff, stableTopologicalOrder_of_valid py⟩

def pairDefinition : Json Unit :=
  .obj [(text "schema_version", .str (text "workflow.v1")), (text "id", .str (text "pair")),
    (text "stages", .arr [
      .obj [(text "id", .str (text "a")), (text "kind", .str (text "research")),
        (text "operation", .str (text "read"))],
      .obj [(text "id", .str (text "b")), (text "kind", .str (text "delivery")),
        (text "operation", .str (text "send")), (text "depends_on", .arr [.str (text "a")])]])]

/-- A stage that depends on the other one is ordered after it. -/
theorem validator_exact_pair : DefinitionStructure pairDefinition ∧ Acyclic pairDefinition ∧
    ∃ order, stableTopologicalOrder ⟨fun _ => [], fun _ => false⟩ (stagesOf pairDefinition) =
        .ok order ∧
      order.Perm ((stagesOf pairDefinition).filterMap stageId?) ∧
      ∀ stage ∈ stagesOf pairDefinition, ∀ id ∈ stageId? stage, ∀ dep ∈ dependsOn stage,
        order.idxOf dep < order.idxOf id := by
  have hvalid : validateWorkflowDefinition pairDefinition = .ok [] := by decide +kernel
  obtain ⟨hexact, horder⟩ := validator_exact ⟨fun _ => [], fun _ => false⟩ pairDefinition
  exact ⟨(hexact.mp hvalid).1, (hexact.mp hvalid).2, horder hvalid⟩

end GpuManager.Workflow
