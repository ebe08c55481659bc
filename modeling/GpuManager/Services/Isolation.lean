import GpuManager.Services.CompiledPlan

/-!
# Services among each other

Compiling a request loads the pipelines of all services before it selects one, so that a service
is out of order as long as the pipeline of any other is.

* `loadPipelines_spec`: with sound pipelines beside it, a service has its own pipeline or its own
  error.
* `compile_isolated`: two documents that agree on a service and in which the other pipelines load
  give the service the same plan or the same kind of error.
-/

namespace GpuManager.Services

open PyStr PyDict

variable {F : Type} [DecidableEq F] {py : PyValues F} {registry : List PyStr}

/-- Two runs end in the same way: with the same result, or with exceptions of the same class. -/
def SameOutcome {α : Type} (run run' : Checked α) : Prop :=
  (∃ a, run = .ok a ∧ run' = .ok a) ∨
    ∃ e e', run = .error e ∧ run' = .error e' ∧ e.kind = e'.kind

/-- A document is a mapping of services in one of the two layouts. -/
structure Maps (templates : Dict F) (services : PyDict PyStr (Json F)) : Prop where
  raw : rawPipelines templates = .obj services
  nodup : (services.map (·.1)).Nodup

def OthersLoad (py : PyValues F) (registry : List PyStr) (services : PyDict PyStr (Json F))
    (serviceId : PyStr) : Prop :=
  ∀ e ∈ services, e.1 ≠ serviceId → ∃ pipeline, loadServicePipeline py registry e.2 = .ok pipeline

variable {services : PyDict PyStr (Json F)} {serviceId : PyStr} {α : Type} {run run' : Checked α}

theorem SameOutcome.refl (run : Checked α) : SameOutcome run run := by
  cases run with
  | ok a => exact Or.inl ⟨a, rfl, rfl⟩
  | error e => exact Or.inr ⟨e, e, rfl, rfl, rfl⟩

/-- What a service has for itself. -/
def ownPipeline (py : PyValues F) (registry : List PyStr) :
    Option (Json F) → Checked (Option (ServicePipeline F))
  | none => .ok none
  | some cfg => (loadServicePipeline py registry cfg).map some

theorem loadPipelines_cons (e : PyStr × Json F) (services : List (PyStr × Json F)) :
    loadPipelines py registry (e :: services) =
      match loadServicePipeline py registry e.2 with
      | .error error => .error error
      | .ok pipeline => (loadPipelines py registry services).map ((e.1, pipeline) :: ·) := by
  rw [loadPipelines]
  cases loadServicePipeline py registry e.2 with
  | error error => rfl
  | ok pipeline => cases loadPipelines py registry services <;> rfl

/-- **The services of a document** all load but the one, whose pipeline or error is its own. -/
theorem loadPipelines_spec (hnodup : (services.map (·.1)).Nodup)
    (hothers : OthersLoad py registry services serviceId) :
    (loadPipelines py registry services).map (·.get? serviceId) =
      ownPipeline py registry (services.get? serviceId) := by
  induction services with
  | nil => rfl
  | cons e services ih =>
    obtain ⟨hout, hnodup⟩ := List.nodup_cons.mp hnodup
    have hrest := ih hnodup fun e he => hothers e (List.mem_cons_of_mem _ he)
    rw [get?_cons, loadPipelines_cons]
    by_cases hname : e.1 = serviceId
    · -- The rest does not have the service, and so it loads.
      have hnone : get? services serviceId = none := by
        rw [← Option.not_isSome_iff_eq_none, get?_isSome]
        exact hname ▸ hout
      rw [hnone] at hrest
      rw [if_pos hname, ownPipeline]
      cases loadServicePipeline py registry e.2 with
      | error error => rfl
      | ok pipeline =>
        cases hload : loadPipelines py registry services with
        | error error =>
          rw [hload] at hrest
          cases hrest
        | ok pipelines =>
          show Except.ok (get? ((e.1, pipeline) :: pipelines) serviceId) = _
          rw [get?_cons, if_pos hname]
          rfl
    · obtain ⟨pipeline, hpipeline⟩ := hothers e List.mem_cons_self hname
      rw [if_neg hname, hpipeline, ← hrest]
      cases loadPipelines py registry services with
      | error error => rfl
      | ok pipelines =>
        show Except.ok (get? ((e.1, pipeline) :: pipelines) serviceId) = _
        rw [get?_cons, if_neg hname]
        rfl

section Compile

variable {revisionHash : ServicePipeline F → Checked PyStr} {requestParams templates : Dict F}

/-- What the compiler does for a service, from what the service has for itself. -/
def compileOwn (py : PyValues F) (revisionHash : ServicePipeline F → Checked PyStr)
    (serviceId : PyStr) (requestParams : Dict F) (registry : List PyStr)
    (own : Checked (Option (ServicePipeline F))) : Checked (WorkerPipeline F) :=
  match own with
  | .error e => .error e
  | .ok none => .error ⟨.pipeline, []⟩
  | .ok (some pipeline) => compileSelected py revisionHash registry serviceId requestParams pipeline

/-- **A request** for a service comes to what the service has for itself, where the other
pipelines load. -/
theorem compile_own (hmaps : Maps templates services)
    (hothers : OthersLoad py registry services serviceId) :
    SameOutcome
      (compileGenerationPipeline py revisionHash serviceId requestParams templates registry)
      (compileOwn py revisionHash serviceId requestParams registry
        (ownPipeline py registry (services.get? serviceId))) := by
  have hload : loadServicePipelines py registry templates = loadPipelines py registry services := by
    rw [loadServicePipelines, hmaps.raw]
  unfold compileGenerationPipeline require
  split
  case isFalse habsent =>
    -- A document that has neither the service nor the wrapper is the mapping itself.
    have hnone : services.get? serviceId = none := by
      rw [Bool.or_eq_true, not_or] at habsent
      have hwrapper := Option.not_isSome_iff_eq_none.mp habsent.2
      have hraw := hmaps.raw
      rw [rawPipelines, hwrapper] at hraw
      obtain rfl := Json.obj.inj hraw
      exact Option.not_isSome_iff_eq_none.mp habsent.1
    rw [hnone]
    exact Or.inr ⟨_, _, rfl, rfl, rfl⟩
  case isTrue =>
    rw [hload, ← loadPipelines_spec hmaps.nodup hothers]
    cases loadPipelines py registry services with
    | error e => exact SameOutcome.refl _
    | ok pipelines =>
      simp only [bind, Except.bind, Except.map]
      cases get? pipelines serviceId with
      | none => exact Or.inr ⟨_, _, rfl, rfl, rfl⟩
      | some pipeline => exact SameOutcome.refl _

end Compile

theorem SameOutcome.symm (h : SameOutcome run run') :
    SameOutcome run' run := by
  rcases h with ⟨a, h, h'⟩ | ⟨e, e', h, h', hkind⟩
  · exact Or.inl ⟨a, h', h⟩
  · exact Or.inr ⟨e', e, h', h, hkind.symm⟩

theorem SameOutcome.trans {run'' : Checked α} (h : SameOutcome run run')
    (h' : SameOutcome run' run'') : SameOutcome run run'' := by
  rcases h with ⟨a, hrun, hrun'⟩ | ⟨e, e', hrun, hrun', hkind⟩
  · rcases h' with ⟨b, hb, hb'⟩ | ⟨f, f', hf, -, -⟩
    · obtain rfl := Except.ok.inj (hrun'.symm.trans hb)
      exact Or.inl ⟨a, hrun, hb'⟩
    · cases hrun'.symm.trans hf
  · rcases h' with ⟨b, hb, -⟩ | ⟨f, f', hf, hf', hkind'⟩
    · cases hrun'.symm.trans hb
    · obtain rfl := Except.error.inj (hrun'.symm.trans hf)
      exact Or.inr ⟨e, f', hrun, hf', hkind.trans hkind'⟩

/-- **Two documents** that agree on a service and in which the other pipelines load give it the same
plan or the same kind of error. -/
theorem compile_isolated (py : PyValues F) (revisionHash : ServicePipeline F → Checked PyStr)
    (serviceId : PyStr) (requestParams : Dict F) (registry : List PyStr)
    (templates templates' : Dict F) (services services' : PyDict PyStr (Json F))
    (hmaps : Maps templates services) (hmaps' : Maps templates' services')
    (hothers : OthersLoad py registry services serviceId)
    (hothers' : OthersLoad py registry services' serviceId)
    (hagree : services.get? serviceId = services'.get? serviceId) :
    SameOutcome
      (compileGenerationPipeline py revisionHash serviceId requestParams templates registry)
      (compileGenerationPipeline py revisionHash serviceId requestParams templates' registry) := by
  have hown := @compile_own _ _ py registry _ _ revisionHash requestParams _ hmaps hothers
  have hown' := @compile_own _ _ py registry _ _ revisionHash requestParams _ hmaps' hothers'
  rw [hagree] at hown
  exact hown.trans hown'.symm

/-- A pipeline of one stage. -/
def soundPipeline : Json Unit :=
  .obj [(text "schema_id", .str schemaId), (text "stages", .arr [
    .obj [(text "id", .str (text "g")), (text "kind", .str (text "generate")),
      (text "provider", .str (text "p"))]])]

/-- The document of a service and another one, in the layout with the wrapper. -/
def withOther (other : Json Unit) : Dict Unit :=
  [(text "service_pipelines", .obj [(text "s", soundPipeline), (text "t", other)])]

/-- One document has the wrapper and the other has not. -/
theorem compile_isolated_layouts : SameOutcome
    (compileGenerationPipeline plainValues (fun _ => .ok []) (text "s") []
      (withOther soundPipeline) [text "p"])
    (compileGenerationPipeline plainValues (fun _ => .ok []) (text "s") []
      [(text "s", soundPipeline)] [text "p"]) := by
  have hsound : ∃ pipeline,
      loadServicePipeline plainValues [text "p"] soundPipeline = .ok pipeline := by
    have hloads : (loadServicePipeline plainValues [text "p"] soundPipeline).toOption.isSome = true :=
      by decide +kernel
    obtain ⟨pipeline, hpipeline⟩ := Option.isSome_iff_exists.mp hloads
    exact ⟨pipeline, toOption_eq_some_iff.mp hpipeline⟩
  refine compile_isolated plainValues _ (text "s") [] [text "p"] _ _
    [(text "s", soundPipeline), (text "t", soundPipeline)] [(text "s", soundPipeline)]
    ⟨rfl, by decide⟩ ⟨rfl, by decide⟩ ?_ ?_ rfl
  · simpa [OthersLoad] using fun _ => hsound
  · simp [OthersLoad]

/-- **Another service** without a schema puts the service out of order. -/
theorem other_not_isolated : ¬ ∀ (templates templates' : Dict Unit)
    (services services' : PyDict PyStr (Json Unit)), Maps templates services →
      Maps templates' services' → services.get? (text "s") = services'.get? (text "s") →
      SameOutcome
        (compileGenerationPipeline plainValues (fun _ => .ok []) (text "s") [] templates [text "p"])
        (compileGenerationPipeline plainValues (fun _ => .ok []) (text "s") [] templates'
          [text "p"]) := by
  intro hall
  have hsame := hall (withOther soundPipeline) (withOther (.obj []))
    [(text "s", soundPipeline), (text "t", soundPipeline)]
    [(text "s", soundPipeline), (text "t", .obj [])] ⟨rfl, by decide⟩ ⟨rfl, by decide⟩ rfl
  have hcompiles : (compileGenerationPipeline plainValues (fun _ => .ok []) (text "s") []
      (withOther soundPipeline) [text "p"]).toOption.isSome = true := by
    decide +kernel
  have hfails : (compileGenerationPipeline plainValues (fun _ => .ok []) (text "s") []
      (withOther (.obj [])) [text "p"]).toOption.isSome = false := by
    decide +kernel
  rcases hsame with ⟨plan, -, hplan⟩ | ⟨e, -, herror, -⟩
  · rw [hplan] at hfails
    cases hfails
  · rw [herror] at hcompiles
    cases hcompiles

end GpuManager.Services
