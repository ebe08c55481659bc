import GpuManager.Workflow.Contracts

/-!
# What an accepted definition looks like

`DefinitionStructure` says of a JSON value what a workflow definition is, field by field and
without the scan of the validator; `Acyclic` says that no stage depends on itself, directly or
not.

* `validateWorkflowDefinition_iff`: the validator accepts exactly the values with that structure
  whose dependencies are acyclic.
-/

namespace GpuManager.Workflow

open PyStr Relation List

variable {F : Type}

/-! ## The structure -/

/-- A field that may be absent or `None`, and otherwise is as said. -/
def OptionalField (value : Json F) (field : String) (P : Json F → Prop) : Prop :=
  ∀ v, value.get? field = some v → v = .null ∨ P v

/-- A stage of a workflow. -/
structure StageStructure (stage : Json F) : Prop where
  object : stage.isObj = true
  id : ∃ id, stage.get? "id" = some (.str id) ∧ isId id = true
  kind : ∃ kind ∈ stageKinds, stage.get? "kind" = some (.str kind)
  operation : ∃ operation, stage.get? "operation" = some (.str operation) ∧ blank operation = false
  texts : ∀ field ∈ ["adapter", "provider", "service", "runtime_profile"],
    OptionalField stage field fun v => ∃ s, v = .str s
  bindings : OptionalField stage "bindings" fun v => ∃ members, v = .obj members
  enabledByDefault : ∀ v, stage.get? "enabled_by_default" = some v → ∃ b, v = .bool b
  dependsOn : ∀ v, stage.get? "depends_on" = some v →
    ∃ names : List PyStr, v = .arr (names.map .str) ∧ [] ∉ names
  retry : OptionalField stage "retry" fun v => ∃ members, v = .obj members

/-- A workflow definition, its dependencies apart from cycles. -/
structure DefinitionStructure (definition : Json F) : Prop where
  object : definition.isObj = true
  schemaVersion : definition.get? "schema_version" = some (.str (text "workflow.v1"))
  id : ∃ id, definition.get? "id" = some (.str id) ∧ isId id = true
  revision : ∀ v, definition.get? "revision" = some v → ∃ n : ℤ, 1 ≤ n ∧ v = .int n
  stages : ∃ stages, stages ≠ [] ∧ definition.get? "stages" = some (.arr stages)
  stage : ∀ stage ∈ stagesOf definition, StageStructure stage
  distinct : ((stagesOf definition).filterMap stageId?).Nodup
  known : ∀ stage ∈ stagesOf definition, ∀ dep ∈ dependsOn stage,
    ∃ other ∈ stagesOf definition, stageId? other = some dep
  inputs : OptionalField definition "inputs" fun v => ∃ members, v = .obj members
  outputs : OptionalField definition "outputs" fun v =>
    ∃ items, v = .arr items ∧ ∀ item ∈ items, item.isObj = true

def DependsOn (definition : Json F) (a b : PyStr) : Prop :=
  ∃ stage ∈ stagesOf definition, stageId? stage = some a ∧ b ∈ dependsOn stage

def Acyclic (definition : Json F) : Prop := ∀ id, ¬ TransGen (DependsOn definition) id id

/-! ## Fields -/

section Fields

variable {value : Json F} {field : String} {ok : Json F → Bool}

theorem isObj_iff : value.isObj = true ↔ ∃ members, value = .obj members := by
  cases value <;> simp [Json.isObj]

theorem isNull_iff : value.isNull = true ↔ value = .null := by
  cases value <;> simp [Json.isNull]

theorem str?_isSome_iff : value.str?.isSome = true ↔ ∃ s, value = .str s := by
  cases value <;> simp [Json.str?]

/-- A string that is asked for is there. -/
theorem get_str?_eq {s : PyStr} :
    (value.get field).str? = some s ↔ value.get? field = some (.str s) := by
  unfold Json.get
  cases value.get? field with
  | none => simp [Json.str?]
  | some v => cases v <;> simp [Json.str?]

theorem any_str?_iff {p : PyStr → Bool} : ((value.get field).str?.any p) = true ↔
    ∃ s, value.get? field = some (.str s) ∧ p s = true := by
  rw [Option.any_eq_true]
  simp only [get_str?_eq]

/-- A field is well typed when it may be absent or `None`. -/
theorem illTyped_iff :
    illTyped value field ok = false ↔ OptionalField value field fun v => ok v = true := by
  unfold illTyped OptionalField
  cases value.get? field with
  | none => simp
  | some v => simp [isNull_iff, or_iff_not_imp_left, ← Bool.not_eq_true]

/-- A field that is read with `None` for an absent one is well typed. -/
theorem get_wrong_iff :
    (!(value.get field).isNull && !ok (value.get field)) = false ↔
      OptionalField value field fun v => ok v = true := by
  unfold Json.get OptionalField
  cases value.get? field with
  | none => simp [Json.isNull]
  | some v => simp [isNull_iff, or_iff_not_imp_left, ← Bool.not_eq_true]

theorem optionalField_isObj : OptionalField value field (fun v => v.isObj = true) ↔
    OptionalField value field fun v => ∃ members, v = .obj members :=
  forall₂_congr fun _ _ => or_congr_right isObj_iff

end Fields

/-! ## A stage -/

theorem stageId?_eq_some {stage : Json F} {id : PyStr} :
    stageId? stage = some id ↔ stage.get? "id" = some (.str id) ∧ isId id = true := by
  unfold stageId?
  rw [Option.filter_eq_some_iff, get_str?_eq]

theorem filterMap_str?_map (names : List PyStr) :
    (names.map fun name => Json.str (F := F) name).filterMap Json.str? = names := by
  rw [filterMap_map]
  exact filterMap_some

theorem filterMap_str?_length {items : List (Json F)} :
    (items.filterMap Json.str?).length = items.length ↔
      items = (items.filterMap Json.str?).map .str := by
  constructor
  · intro h
    induction items with
    | nil => rfl
    | cons item items ih =>
      have hle := length_filterMap_le Json.str? items
      cases item with
      | str s =>
        simp only [filterMap_cons, Json.str?, length_cons, Nat.add_right_cancel_iff,
          map_cons] at h ⊢
        exact congrArg _ (ih h)
      | _ =>
        simp only [filterMap_cons, Json.str?, length_cons] at h
        omega
  · intro h
    conv_rhs => rw [h, length_map]

/-- The dependencies are well formed when they are a list of non-empty strings. -/
theorem dependsOn?_isSome_iff {stage : Json F} : (dependsOn? stage).isSome = true ↔
    ∀ v, stage.get? "depends_on" = some v →
      ∃ names : List PyStr, v = .arr (names.map .str) ∧ [] ∉ names := by
  unfold dependsOn?
  cases stage.get? "depends_on" with
  | none => simp
  | some v =>
    cases v with
    | arr items =>
      simp only [Option.isSome_ite, Option.some.injEq, forall_eq', Json.arr.injEq,
        filterMap_str?_length, all_eq_true, decide_eq_true_eq]
      constructor
      · rintro ⟨hitems, hnames⟩
        exact ⟨_, hitems, fun hnil => hnames [] hnil rfl⟩
      · rintro ⟨names, rfl, hnames⟩
        rw [filterMap_str?_map]
        exact ⟨rfl, fun name hname hnil => hnames (hnil ▸ hname)⟩
    | _ => simp

theorem enabledWrong_iff {stage : Json F} : (match stage.get? "enabled_by_default" with
    | none | some (.bool _) => false
    | some _ => true) = false ↔
      ∀ v, stage.get? "enabled_by_default" = some v → ∃ b, v = .bool b := by
  cases stage.get? "enabled_by_default" with
  | none => simp
  | some v => cases v <;> simp

/-- **A stage** is reported for nothing exactly when it has the structure of one. -/
theorem stageStructure_iff {stage : Json F} {index : ℕ} : StageStructure stage ↔
    stage.isObj = true ∧ (∃ id, stageId? stage = some id) ∧ stageErrors index stage = [] := by
  unfold stageErrors
  simp only [append_eq_nil_iff, reportIf_eq_nil, flatMap_eq_nil_iff,
    Bool.not_eq_false', any_str?_iff, illTyped_iff, get_wrong_iff, Option.isNone_eq_false_iff,
    dependsOn?_isSome_iff, optionalField_isObj, str?_isSome_iff, stageId?_eq_some,
    decide_eq_true_eq, Bool.not_eq_true']
  constructor
  · intro h
    obtain ⟨kind, hkind, hget⟩ := h.kind
    exact ⟨h.object, h.id, ⟨⟨⟨⟨⟨⟨kind, hget, hkind⟩, h.operation⟩, h.texts⟩, h.bindings⟩,
      enabledWrong_iff.mpr h.enabledByDefault⟩, h.dependsOn⟩, h.retry⟩
  · rintro ⟨hobject, hid, ⟨⟨⟨⟨⟨⟨kind, hget, hkind⟩, hoperation⟩, htexts⟩, hbindings⟩, henabled⟩,
      hdepends⟩, hretry⟩
    exact ⟨hobject, hid, ⟨kind, hkind, hget⟩, hoperation, htexts, hbindings,
      enabledWrong_iff.mp henabled, hdepends, hretry⟩

/-! ## The scan -/

section Scan

variable {index : ℕ} {stage : Json F} {stages : List (Json F)} {scan scan' : Scan}

/-- A scan that reports nothing found nothing wrong in a stage. -/
theorem scanStages_stageErrors (h : scanStages index stages scan = .ok scan')
    (hclean : scan'.errors = []) : ∀ stage ∈ stages, ∃ i, stageErrors i stage = [] := by
  induction stages generalizing index scan with
  | nil => exact fun stage hstage => (by cases hstage)
  | cons first stages ih =>
    unfold scanStages at h
    cases hstep : scanStage index first scan with
    | error e =>
      rw [hstep] at h
      cases h
    | ok next =>
      simp only [hstep] at h
      intro stage hstage
      rcases mem_cons.mp hstage with rfl | hstage
      · have hnext := scanStages_errors h hclean
        refine ⟨index, ?_⟩
        unfold scanStage at hstep
        repeat' split at hstep
        all_goals cases hstep <;> simp_all
      · exact ih h stage hstage

theorem hashable_kind (h : StageStructure stage) : (stage.get "kind").hashable = true := by
  obtain ⟨kind, -, hkind⟩ := h.kind
  unfold Json.get
  rw [hkind]
  rfl

/-- A scan of stages with new and distinct ids reports nothing. -/
theorem scanStages_of_structure (hall : ∀ stage ∈ stages, StageStructure stage)
    (hnodup : (scan.stageIds ++ stages.filterMap stageId?).Nodup) (hclean : scan.errors = []) :
    ∃ scan', scanStages index stages scan = .ok scan' ∧ scan'.errors = [] := by
  induction stages generalizing index scan with
  | nil => exact ⟨scan, rfl, hclean⟩
  | cons stage stages ih =>
    have hstage := hall stage mem_cons_self
    obtain ⟨hobject, ⟨id, hid⟩, herrors⟩ := (@stageStructure_iff F stage index).mp hstage
    rw [filterMap_cons_some hid] at hnodup
    have hnew : id ∉ scan.stageIds := fun hmem =>
      (nodup_append.mp hnodup).2.2 id hmem id mem_cons_self rfl
    have hstep : scanStage index stage scan = .ok
        { stageIds := scan.stageIds ++ [id]
          edges := setEdge scan.edges id (dependsOn stage).dedup
          errors := [] } := by
      simp [scanStage, hobject, hid, hashable_kind hstage, hnew, hclean, herrors, reportIf]
    unfold scanStages
    simp only [hstep]
    apply ih (fun other hother => hall other (mem_cons_of_mem _ hother)) _ rfl
    rw [append_assoc]
    exact hnodup

end Scan

/-! ## The graph -/

section Graph

variable {definition : Json F} {scan : Scan}

/-- Stages with one id have the same dependencies, if the ids are distinct. -/
theorem mem_dependsOn_of_id {stages : List (Json F)} (hnodup : (stages.filterMap stageId?).Nodup)
    {a b : Json F} (ha : a ∈ stages) (hb : b ∈ stages) {id dep : PyStr}
    (hida : stageId? a = some id) (hidb : stageId? b = some id) (hdep : dep ∈ dependsOn a) :
    dep ∈ dependsOn b := by
  have hedge := (lookup_edges hnodup ha hida).symm.trans (lookup_edges hnodup hb hidb)
  rw [← mem_dedup, ← Option.some.inj hedge, mem_dedup]
  exact hdep

/-- The dependencies of a well-formed definition are acyclic. -/
theorem WellFormed.acyclic (h : WellFormed definition) : Acyclic definition := by
  intro id hcycle
  have hid : ∃ stage ∈ stagesOf definition, stageId? stage = some id := by
    obtain ⟨b, ⟨stage, hstage, hid, -⟩, -⟩ := TransGen.head'_iff.mp hcycle
    exact ⟨stage, hstage, hid⟩
  have hfree : ¬ Dependency.Blocked (DependsOn definition) id := by
    apply Dependency.not_blocked_of_founded
      (s := {id | ∃ stage ∈ stagesOf definition, stageId? stage = some id}) _ hid
    rintro P ⟨a, ⟨stage, hstage, ha⟩, hPa⟩
    obtain ⟨first, hfirst, m, hm, hPm, hmin⟩ := h.founded P ⟨stage, hstage, a, ha, hPa⟩
    refine ⟨m, ⟨first, hfirst, hm⟩, hPm, fun dep hdepends => ?_⟩
    obtain ⟨other, hother, hid, hdep⟩ := hdepends
    exact hmin dep (mem_dependsOn_of_id h.distinct hother hfirst hid hm hdep)
  exact hfree (Dependency.blocked_of_cycle hcycle)

/-- Known dependencies without cycles are reported for nothing. -/
theorem graphErrors_of_structure (h : DefinitionStructure definition) (hacyclic : Acyclic definition)
    (hids : scan.stageIds = (stagesOf definition).filterMap stageId?)
    (hedges : scan.edges = (stagesOf definition).filterMap edge?) : graphErrors scan = [] := by
  have hedge : ∀ e ∈ scan.edges, ∃ stage ∈ stagesOf definition,
      stageId? stage = some e.1 ∧ e.2 = (dependsOn stage).dedup := by
    intro e he
    rw [hedges] at he
    obtain ⟨stage, hstage, he⟩ := mem_filterMap.mp he
    obtain ⟨id, hid, rfl⟩ := Option.map_eq_some_iff.mp he
    exact ⟨stage, hstage, hid, rfl⟩
  have hknown : ∀ stage ∈ stagesOf definition, ∀ dep ∈ dependsOn stage, dep ∈ scan.stageIds := by
    intro stage hstage dep hdep
    rw [hids]
    exact mem_filterMap.mpr (h.known stage hstage dep hdep)
  have hdepends : ∀ {a b}, b ∈ scan.deps a → DependsOn definition a b ∧ b ∈ scan.stageIds := by
    intro a b hb
    obtain ⟨hb, hmem⟩ := mem_filter.mp hb
    cases hlookup : scan.edges.lookup a with
    | none =>
      rw [hlookup] at hb
      cases hb
    | some l =>
      obtain ⟨before, after, heq, -⟩ := lookup_eq_some_iff.mp hlookup
      obtain ⟨stage, hstage, hid, rfl⟩ := hedge (a, l) (by rw [heq]; simp)
      rw [hlookup] at hb
      exact ⟨⟨stage, hstage, hid, mem_dedup.mp hb⟩, of_decide_eq_true hmem⟩
  have hnodup : scan.stageIds.Nodup := hids ▸ h.distinct
  have hdeps : ∀ id ∈ scan.stageIds, (scan.deps id).Nodup := by
    intro id _
    apply Nodup.filter
    cases hlookup : scan.edges.lookup id with
    | none => exact nodup_nil
    | some l =>
      obtain ⟨before, after, heq, -⟩ := lookup_eq_some_iff.mp hlookup
      obtain ⟨stage, -, -, rfl⟩ := hedge (id, l) (by rw [heq]; simp)
      exact nodup_dedup _
  have hvisited := Kahn.visited_of_acyclic hnodup hdeps (fun _ _ _ hd => (hdepends hd).2)
    fun id _ hcycle => hacyclic id (TransGen.mono (fun _ _ hb => (hdepends hb).1) _ _ hcycle)
  have hunknown : (scan.edges.flatMap (·.2)).filter (· ∉ scan.stageIds) = [] := by
    refine filter_eq_nil_iff.mpr fun dep hdep hout => ?_
    obtain ⟨e, he, hdep⟩ := mem_flatMap.mp hdep
    obtain ⟨stage, hstage, -, heq⟩ := hedge e he
    exact of_decide_eq_true hout (hknown stage hstage dep (mem_dedup.mp (heq ▸ hdep)))
  unfold graphErrors
  rw [hunknown, hvisited]
  simp [reportIf]

end Graph

/-! ## The definition -/

section Definition

variable {definition : Json F}

theorem revisionWrong_iff : (match definition.get? "revision" with
    | none => false
    | some (.int n) => decide (n < 1)
    | some _ => true) = false ↔
      ∀ v, definition.get? "revision" = some v → ∃ n : ℤ, 1 ≤ n ∧ v = .int n := by
  cases definition.get? "revision" with
  | none => simp
  | some v => cases v <;> simp

theorem outputsWrong_iff : (match definition.get "outputs" with
    | .null => false
    | .arr items => items.any (!Json.isObj ·)
    | _ => true) = false ↔ OptionalField definition "outputs" fun v =>
      ∃ items, v = .arr items ∧ ∀ item ∈ items, item.isObj = true := by
  unfold Json.get OptionalField
  cases definition.get? "outputs" with
  | none => simp
  | some v => cases v <;> simp

theorem headErrors_eq_nil_iff : headErrors definition = [] ↔
    definition.get? "schema_version" = some (.str (text "workflow.v1")) ∧
    (∃ id, definition.get? "id" = some (.str id) ∧ isId id = true) ∧
    ∀ v, definition.get? "revision" = some v → ∃ n : ℤ, 1 ≤ n ∧ v = .int n := by
  unfold headErrors
  rw [append_eq_nil_iff, append_eq_nil_iff, and_assoc, reportIf_eq_nil, reportIf_eq_nil,
    reportIf_eq_nil, Bool.not_eq_false', Bool.not_eq_false', any_str?_iff, any_str?_iff]
  refine and_congr ?_ (and_congr Iff.rfl revisionWrong_iff)
  simp

theorem portErrors_eq_nil_iff : portErrors definition = [] ↔
    (OptionalField definition "inputs" fun v => ∃ members, v = .obj members) ∧
    OptionalField definition "outputs" fun v =>
      ∃ items, v = .arr items ∧ ∀ item ∈ items, item.isObj = true := by
  unfold portErrors
  rw [append_eq_nil_iff, reportIf_eq_nil, reportIf_eq_nil, get_wrong_iff, optionalField_isObj]
  exact and_congr Iff.rfl outputsWrong_iff

/-- **The validator is exact.** -/
theorem validateWorkflowDefinition_iff : validateWorkflowDefinition definition = .ok [] ↔
    DefinitionStructure definition ∧ Acyclic definition := by
  constructor
  · intro h
    have hwell := valid_spec h
    refine ⟨?_, hwell.acyclic⟩
    unfold validateWorkflowDefinition at h
    split at h
    · cases h
    case isFalse hobject =>
      split at h
      case h_2 => simp at h
      case h_1 stage stages hstages =>
        cases hscan : scanStages 0 (stage :: stages) {} with
        | error e =>
          rw [hscan] at h
          cases h
        | ok scan =>
          simp only [hscan, Except.ok.injEq, append_eq_nil_iff] at h
          obtain ⟨⟨⟨hhead, hclean⟩, -⟩, hports⟩ := h
          obtain ⟨hschema, hid, hrevision⟩ := headErrors_eq_nil_iff.mp hhead
          obtain ⟨hinputs, houtputs⟩ := portErrors_eq_nil_iff.mp hports
          have hof : stagesOf definition = stage :: stages := by
            unfold stagesOf
            rw [hstages]
          constructor
          case object => simpa using hobject
          case schemaVersion => exact hschema
          case id => exact hid
          case revision => exact hrevision
          case stages =>
            refine ⟨stage :: stages, cons_ne_nil _ _, ?_⟩
            unfold Json.get at hstages
            cases hget : definition.get? "stages" with
            | none =>
              rw [hget] at hstages
              cases hstages
            | some v =>
              rw [hget] at hstages
              exact congrArg some hstages
          case stage =>
            intro other hother
            obtain ⟨i, herrors⟩ := scanStages_stageErrors hscan hclean other (hof ▸ hother)
            exact stageStructure_iff.mpr
              ⟨hwell.object other hother, hwell.named other hother, herrors⟩
          case distinct => exact hwell.distinct
          case known => exact hwell.known
          case inputs => exact hinputs
          case outputs => exact houtputs
  · rintro ⟨h, hacyclic⟩
    obtain ⟨stages, hne, hget⟩ := h.stages
    obtain ⟨stage, rest, rfl⟩ := exists_cons_of_ne_nil hne
    have hstages : definition.get "stages" = .arr (stage :: rest) := by
      unfold Json.get
      rw [hget]
      rfl
    have hof : stagesOf definition = stage :: rest := by
      unfold stagesOf
      rw [hstages]
    have hdistinct := h.distinct
    have hstage := h.stage
    rw [hof] at hdistinct hstage
    obtain ⟨scan, hscan, hclean⟩ :=
      @scanStages_of_structure F 0 _ {} hstage hdistinct rfl
    obtain ⟨-, -, hids, -, hedges⟩ := scanStages_clean hscan hclean rfl nodup_nil
    rw [← hof] at hids hedges
    unfold validateWorkflowDefinition
    rw [if_neg (by simp [h.object])]
    simp only [hstages, hscan]
    rw [headErrors_eq_nil_iff.mpr ⟨h.schemaVersion, h.id, h.revision⟩, hclean,
      graphErrors_of_structure h hacyclic hids hedges,
      portErrors_eq_nil_iff.mpr ⟨h.inputs, h.outputs⟩]
    rfl

end Definition

end GpuManager.Workflow
