import GpuManager.Services.LoadedPipeline

/-!
# Unsafe parameters

The loader walks the parameters of every stage.  It goes into objects, and of a list it checks the
strings alone: an object or a list in a list is skipped.

* `walk_spec`: what the walk accepts is safe exactly when all that it skipped is.
* `accepted_safe_iff`: so it is for every stage of an accepted pipeline.
-/

namespace GpuManager.Services

open PyStr Regex

variable {F : Type} {py : PyValues F} {items : List (Json F)} {value : Json F}

/-- A string is no URL and holds no shell metacharacters and no credential. -/
def SafeText (py : PyValues F) (s : PyStr) : Prop :=
  unsafeUrlRe.isMatch s = false ∧ shellMetaRe.isFound s = false ∧
    (credentialRe py.isWord).isFound s = false

/-- An entry of an object has no credential as its key and is no adapter name. -/
def SafeEntry (py : PyValues F) (key : PyStr) (value : Json F) : Prop :=
  (credentialRe py.isWord).isFound key = false ∧ ¬ (key = text "adapter" ∧ value.str?.isSome)

mutual

def DeepSafe (py : PyValues F) : Json F → Prop
  | .str s => SafeText py s
  | .arr items => DeepSafeItems py items
  | .obj members => DeepSafeMembers py members
  | _ => True

def DeepSafeItems (py : PyValues F) : List (Json F) → Prop
  | [] => True
  | item :: items => DeepSafe py item ∧ DeepSafeItems py items

def DeepSafeMembers (py : PyValues F) : List (PyStr × Json F) → Prop
  | [] => True
  | (key, value) :: members =>
    SafeEntry py key value ∧ DeepSafe py value ∧ DeepSafeMembers py members

end

mutual

def decDeepSafe (py : PyValues F) : (value : Json F) → Decidable (DeepSafe py value)
  | .null => isTrue trivial
  | .bool _ => isTrue trivial
  | .int _ => isTrue trivial
  | .float _ => isTrue trivial
  | .str _ => inferInstanceAs (Decidable (_ ∧ _ ∧ _))
  | .arr items => decDeepSafeItems py items
  | .obj members => decDeepSafeMembers py members

def decDeepSafeItems (py : PyValues F) :
    (items : List (Json F)) → Decidable (DeepSafeItems py items)
  | [] => isTrue trivial
  | item :: items =>
    have := decDeepSafe py item
    have := decDeepSafeItems py items
    inferInstanceAs (Decidable (DeepSafe py item ∧ DeepSafeItems py items))

def decDeepSafeMembers (py : PyValues F) :
    (members : List (PyStr × Json F)) → Decidable (DeepSafeMembers py members)
  | [] => isTrue trivial
  | (key, value) :: members =>
    have : Decidable (SafeEntry py key value) := inferInstanceAs (Decidable (_ ∧ ¬ (_ ∧ _)))
    have := decDeepSafe py value
    have := decDeepSafeMembers py members
    inferInstanceAs (Decidable (_ ∧ DeepSafe py value ∧ DeepSafeMembers py members))

end

instance (py : PyValues F) (value : Json F) : Decidable (DeepSafe py value) := decDeepSafe py value

/-- A list or an object. -/
def isContainer : Json F → Bool
  | .arr _ => true
  | .obj _ => true
  | _ => false

mutual

/-- The lists and objects that are items of a list, where the walk comes to the list. -/
def skipped : Json F → List (Json F)
  | .arr items => items.filter isContainer
  | .obj members => skippedMembers members
  | _ => []

def skippedMembers : List (PyStr × Json F) → List (Json F)
  | [] => []
  | (_, value) :: members => skipped value ++ skippedMembers members

end

/-! ## Checks -/

/-- A checked value is safe unless it is a container. -/
theorem checkUnsafeValue_ok_iff {path : PyStr} :
    checkUnsafeValue py value path = .ok () ↔ isContainer value = true ∨ DeepSafe py value := by
  cases value with
  | str s =>
    unfold checkUnsafeValue raise
    simp only [isContainer, Bool.false_eq_true, false_or, DeepSafe, SafeText]
    repeat' split
    all_goals simp_all
  | _ => simp [checkUnsafeValue, isContainer, DeepSafe]

theorem deepSafeItems_iff :
    DeepSafeItems py items ↔ ∀ item ∈ items, DeepSafe py item := by
  induction items with
  | nil => simp [DeepSafeItems]
  | cons item items ih => simp [DeepSafeItems, ih]

/-- The items of a checked list are safe, but for the containers. -/
theorem checkItems_ok_iff {path : PyStr} {index : ℕ} :
    checkItems py path index items = .ok () ↔
      ∀ item ∈ items, isContainer item = true ∨ DeepSafe py item := by
  induction items generalizing index with
  | nil => simp [checkItems]
  | cons item items ih =>
    rw [checkItems, bind_unit_ok_iff, checkUnsafeValue_ok_iff, ih, List.forall_mem_cons]

theorem checkKey_ok_iff {path key : PyStr} :
    checkKey py path key value = .ok () ↔ SafeEntry py key value := by
  unfold checkKey SafeEntry
  rw [bind_unit_ok_iff, require_ok_iff, require_ok_iff, Bool.not_eq_true', Bool.not_eq_true',
    ← Bool.not_eq_true, ← Bool.not_eq_true, Bool.and_eq_true, decide_eq_true_eq]

/-! ## The walk -/

mutual

/-- **The walk of a value**: it is safe exactly when all that was skipped is. -/
theorem walkValue_spec {path : PyStr} : (value : Json F) → walkValue py path value = .ok () →
    (DeepSafe py value ↔ ∀ item ∈ skipped value, DeepSafe py item)
  | .obj members, h => by
      rw [walkValue] at h
      rw [DeepSafe, skipped]
      exact walkParams_spec members h
  | .arr items, h => by
      rw [walkValue, checkItems_ok_iff] at h
      rw [DeepSafe, deepSafeItems_iff, skipped]
      constructor
      · exact fun hall item hitem => hall item (List.mem_of_mem_filter hitem)
      · intro hall item hitem
        rcases h item hitem with hcontainer | hsafe
        · exact hall item (List.mem_filter.mpr ⟨hitem, hcontainer⟩)
        · exact hsafe
  | .str s, h => by
      rw [walkValue] at h
      rcases checkUnsafeValue_ok_iff.mp h with hcontainer | hsafe
      · cases hcontainer
      · simp [skipped, hsafe]
      all_goals simp
  | .null, _ => by simp [DeepSafe, skipped]
  | .bool _, _ => by simp [DeepSafe, skipped]
  | .int _, _ => by simp [DeepSafe, skipped]
  | .float _, _ => by simp [DeepSafe, skipped]

theorem walkParams_spec {path : PyStr} : (members : List (PyStr × Json F)) →
    walkParams py path members = .ok () →
    (DeepSafeMembers py members ↔ ∀ item ∈ skippedMembers members, DeepSafe py item)
  | [], _ => by simp [DeepSafeMembers, skippedMembers]
  | (key, value) :: members, h => by
      rw [walkParams, bind_unit_ok_iff, bind_unit_ok_iff, checkKey_ok_iff] at h
      obtain ⟨hkey, hvalue, hmembers⟩ := h
      rw [DeepSafeMembers, skippedMembers, walkValue_spec value hvalue,
        walkParams_spec members hmembers]
      simp [hkey, or_imp, forall_and]

end

/-- **The parameters of a stage of an accepted pipeline** are safe exactly when every object and
every list that is an item of a walked list is. -/
theorem accepted_safe_iff [DecidableEq F] (py : PyValues F) (registry : List PyStr) (data : Json F)
    (pipeline : ServicePipeline F) (h : loadServicePipeline py registry data = .ok pipeline)
    (stage : Stage F) (hstage : stage ∈ pipeline.stages) :
    DeepSafe py (.obj stage.params) ↔ ∀ item ∈ skipped (.obj stage.params), DeepSafe py item := by
  obtain ⟨draft, hdraft, hstages, -⟩ := loadServicePipeline_ok h
  have hwalked := ((loadDraft_ok hdraft).stage stage (hstages ▸ hstage)).walked
  rw [DeepSafe, skipped]
  exact walkParams_spec stage.params hwalked

def oneStage (value : Json Unit) : Json Unit :=
  .obj [(text "schema_id", .str schemaId), (text "stages", .arr [
    .obj [(text "id", .str (text "g")), (text "kind", .str (text "generate")),
      (text "provider", .str (text "p")), (text "params", .obj [(text "a", value)])]])]

/-- Objects and lists in one another, three levels deep, without a URL. -/
def nestedLayers : Json Unit :=
  .obj [(text "layers", .arr [.obj [(text "name", .str (text "sky")),
    (text "masks", .arr [.arr [.int 1, .str (text "soft")], .obj [(text "size", .int 2)]])],
    .str (text "ground")]), (text "note", .str (text "two layers"))]

/-- The pipeline with nested parameters is accepted, and its parameters are safe. -/
theorem accepted_safe_nested : ∃ pipeline,
    loadServicePipeline plainValues [text "p"] (oneStage nestedLayers) = .ok pipeline ∧
      ∀ stage ∈ pipeline.stages, DeepSafe plainValues (.obj stage.params) := by
  have hloads : (loadServicePipeline plainValues [text "p"] (oneStage nestedLayers)).toOption.any
      (fun pipeline => pipeline.stages.all fun stage => (skipped (.obj stage.params)).all fun item =>
        decide (DeepSafe plainValues item)) = true := by
    decide +kernel
  obtain ⟨pipeline, hpipeline, hall⟩ := (Option.any_eq_true _ _).mp hloads
  have hpipeline := toOption_eq_some_iff.mp hpipeline
  refine ⟨pipeline, hpipeline, fun stage hstage => ?_⟩
  have hskipped := List.all_eq_true.mp (List.all_eq_true.mp hall stage hstage)
  exact (accepted_safe_iff plainValues [text "p"] (oneStage nestedLayers) pipeline hpipeline stage
    hstage).mpr fun item hitem => of_decide_eq_true (hskipped item hitem)

/-- A URL in an object in a list. -/
def hiddenUrl : Json Unit := .arr [.obj [(text "b", .str (text "http://c"))]]

/-- A pipeline with that parameter is accepted. -/
theorem hiddenUrl_accepted : ¬ ∀ pipeline : ServicePipeline Unit,
    loadServicePipeline plainValues [text "p"] (oneStage hiddenUrl) = .ok pipeline →
      ∀ stage ∈ pipeline.stages, DeepSafe plainValues (.obj stage.params) := by
  intro hall
  have hunsafe : (loadServicePipeline plainValues [text "p"] (oneStage hiddenUrl)).toOption.any
      (fun pipeline => pipeline.stages.any fun stage =>
        !decide (DeepSafe plainValues (.obj stage.params))) = true := by
    decide +kernel
  obtain ⟨pipeline, hpipeline, hany⟩ := (Option.any_eq_true _ _).mp hunsafe
  obtain ⟨stage, hstage, hdeep⟩ := List.any_eq_true.mp hany
  have hsafe := hall pipeline (toOption_eq_some_iff.mp hpipeline) stage hstage
  simp [hsafe] at hdeep

end GpuManager.Services
