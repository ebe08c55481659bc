import GpuManager.Coordinator.Budgets
import GpuManager.Coordinator.Frames
import GpuManager.Coordinator.LeafClient

/-!
# What a call makes of the answers of the providers

A call of `advance` that works on a stage should end in an outcome that is stored: the attempt is
COMPLETED or FAILED, or it is RUNNING and there is a handle or a child to poll.  What the external
executor raises is such an outcome, but three things are not caught: what the leaf client raises
when it submits, what it raises when it polls, and a final result that cannot be recorded, because
it has no status, its output is refused by the sanitizer, or its artifact lacks a member.

`settles_iff` says that nothing else goes wrong: a call on a run that is running settles just if
the authority of the stage resolves and the last answer of a provider is not of these kinds.
-/

namespace GpuManager.Coordinator

open AtomicProgram RedisCoordinatorStore PipelineCoordinator Prog PipelineRunState List

/-! ## Answers that are not caught -/

/-- The result can be recorded: it has a status, its output passes the sanitizer, and its artifact
has a place and a digest. -/
def StageResult.Persistable (result : StageResult) : Prop :=
  result.status ≠ .missing ∧ (∃ output, sanitizeOutput result.output = .ok output) ∧
    ∀ artifact, result.artifact = some artifact →
      artifact.pathOrUrl.isSome ∧ artifact.sha256.isSome

variable {result : StageResult} {w' w₁ w₂ : World} {runId stageId : String} {inputs : Option Fields}

/-- A failure of the coordinator's own making can be recorded. -/
theorem persistable_failure (error : Option String) :
    StageResult.Persistable { status := .failed, error := error } :=
  ⟨nofun, ⟨[], sanitizeOutput_nil⟩, nofun⟩

def StageResult.Accepted (result : StageResult) : Prop :=
  result.status.isOpen = true ∨ result.Persistable

def ProviderCall.Refused : ProviderCall → Prop
  | .leafSubmit _ _ _ (.error _) | .leafPoll _ (.error _) => True
  | .leafPoll _ (.ok reply) => ¬ (leafResult reply).Accepted
  | .execute _ _ answer => ¬ (externalOutcome answer).Accepted
  | .poll _ _ _ answer => ¬ (externalOutcome answer).Accepted
  | _ => False

/-- The last question that was put to a provider on the way from one world to another. -/
def World.lastCall (w w' : World) : Option ProviderCall := (w'.calls.drop w.calls.length).getLast?

variable {call : ProviderCall}

namespace PipelineRunState

variable (state : PipelineRunState)

def consulted : Option Stage :=
  if state.cancellationIntent && !state.cancelled then none else state.entered.currentStage

def worksOn : Option Stage :=
  state.consulted.filter fun stage => !state.entered.skipsCompleted stage.id

/-- The latest attempt of the stage has an outcome, or there is something to poll for it. -/
def AttemptSettled (stageId : String) : Prop :=
  ∃ a, state.latestAttempt stageId = some a ∧
    (a.status = .completed ∨ a.status = .failed ∨
      a.status = .running ∧ ((PythonText.nonempty a.providerHandle).isSome ∨
        ∃ child ∈ state.childJobs, child.stageId = stageId ∧ child.cancelled = false))

end PipelineRunState

section Settling

variable {d : Deployment} {now : String} {copy : PipelineRunState} {stage : Stage}
  {a : StageAttempt} {resuming : Bool} {w : World}

/-- A program has ended with a state, and the attempt of the stage is settled in what is stored. -/
def Settled (runId stageId : String) (r : Except CoordinatorError PipelineRunState) (w : World) :
    Prop :=
  (∃ next, r = .ok next) ∧ ∃ stored, w.states runId = some stored ∧ stored.AttemptSettled stageId

variable {recorded state : PipelineRunState} {p : Method PipelineRunState} {authority : Authority}

/-- There is a child of the stage that is not cancelled. -/
def HasChild (stageId : String) (children : List ChildJobRef) : Prop :=
  ∃ child ∈ children, child.stageId = stageId ∧ child.cancelled = false

/-- The status of a child is written. -/
theorem HasChild.modify {children : List ChildJobRef}
    (h : HasChild stageId children) (i : ℕ) (status : ChildStatus) :
    HasChild stageId (children.modify i fun child => { child with status := status }) := by
  obtain ⟨child, hmem, hstage, hkept⟩ := h
  obtain ⟨j, hj⟩ := List.getElem?_of_mem hmem
  by_cases hij : i = j
  · refine ⟨{ child with status := status }, mem_of_getElem? (i := j) ?_, hstage, hkept⟩
    simp [hij, hj]
  · refine ⟨child, mem_of_getElem? (i := j) ?_, hstage, hkept⟩
    simp [hij, hj]

/-- Providers are asked to stop, and what they raise is caught. -/
def Stopping (w w' : World) : Prop :=
  ∃ asked, w'.calls = w.calls ++ asked ∧ ∀ call ∈ asked, ¬ call.Refused

theorem Stopping.refl (w : World) : Stopping w w :=
  ⟨[], (append_nil _).symm, fun _ h => by cases h⟩

theorem Stopping.trans {w₃ : World} (h : Stopping w₁ w₂) (h' : Stopping w₂ w₃) :
    Stopping w₁ w₃ := by
  obtain ⟨asked, hcalls, hcaught⟩ := h
  obtain ⟨more, hmore, hcaught'⟩ := h'
  refine ⟨asked ++ more, by rw [hmore, hcalls, append_assoc], fun call hcall => ?_⟩
  rcases mem_append.mp hcall with hcall | hcall
  · exact hcaught call hcall
  · exact hcaught' call hcall

theorem Stopping.last (h : Stopping w w') (hcall : w.lastCall w' = some call) : ¬ call.Refused := by
  obtain ⟨asked, hcalls, hcaught⟩ := h
  rw [World.lastCall, hcalls, drop_left] at hcall
  exact hcaught call (mem_of_getLast? hcall)

end Settling

/-! ## What the leaf client lets through -/

section LeafClient

open GPUManagerLeafGenerationClient

variable {fields : Fields} {key : String} {value : Json}

theorem boundedFields_append {more : Fields} :
    BoundedFields (fields ++ more) ↔ BoundedFields fields ∧ BoundedFields more := by
  induction fields with
  | nil => exact ⟨fun h => ⟨trivial, h⟩, fun h => h.2⟩
  | cons f fields ih =>
    constructor
    · rintro ⟨hname, hvalue, hrest⟩
      exact ⟨⟨hname, hvalue, (ih.mp hrest).1⟩, (ih.mp hrest).2⟩
    · rintro ⟨⟨hname, hvalue, hrest⟩, hmore⟩
      exact ⟨hname, hvalue, ih.mpr ⟨hrest, hmore⟩⟩

/-- Members are replaced by one that is bounded. -/
theorem BoundedFields.replace (h : BoundedFields fields) (hkey : leftOut key = false)
    (hvalue : value.Bounded) :
    BoundedFields (fields.map fun f => if f.1 == key then (key, value) else f) := by
  induction fields with
  | nil => trivial
  | cons f fields ih =>
    obtain ⟨hname, hown, hrest⟩ := h
    rw [map_cons]
    split
    · exact ⟨hkey, hvalue, ih hrest⟩
    · exact ⟨hname, hown, ih hrest⟩

theorem BoundedFields.setField (h : BoundedFields fields) (hkey : leftOut key = false)
    (hvalue : value.Bounded) : BoundedFields (setField fields key value) := by
  unfold PipelineCoordinator.setField
  split
  · exact h.replace hkey hvalue
  · exact boundedFields_append.mpr ⟨h, hkey, hvalue, trivial⟩

theorem childArtifact_bounded (client : GPUManagerLeafGenerationClient)
    {artifact : ArtifactReply} (h : client.childArtifact fields = some artifact) :
    (artifactJson artifact).Bounded ∧ artifact.pathOrUrl.isSome ∧ artifact.sha256.isSome := by
  unfold childArtifact at h
  split at h
  · cases h
    refine ⟨?_, rfl, rfl⟩
    change BoundedFields _
    exact ⟨by decide, trivial, by decide, trivial, by decide, trivial, by decide, trivial, trivial⟩
  · cases h

/-- **What can be recorded of a child.**  The answer of a poll is accepted just if no member of the
output, at any depth, is named `password`, `api_key` or `private_key`. -/
theorem accepted_readPoll_iff (client : GPUManagerLeafGenerationClient) {raw : Json}
    {reply : LeafPoll} (h : client.readPoll raw = .ok reply) :
    (leafResult reply).Accepted ↔
      ∀ name ∈ fieldNames (leafResult reply).output, name ∉ secretNames := by
  have hread : BoundedFields reply.output ∧ ∀ artifact, reply.artifact = some artifact →
      (artifactJson artifact).Bounded ∧ artifact.pathOrUrl.isSome ∧ artifact.sha256.isSome := by
    unfold readPoll at h
    simp only at h
    split at h
    · cases h
    rename_i output houtput
    cases h
    have hbounded : BoundedFields output := by
      unfold childOutput at houtput
      split at houtput
      · exact boundedFields_bounded houtput
      · cases houtput
        trivial
    refine ⟨?_, fun artifact hartifact => childArtifact_bounded client hartifact⟩
    simp only
    split
    · rename_i artifact hartifact
      unfold setDefault
      split
      · exact hbounded
      · exact boundedFields_append.mpr ⟨hbounded, by decide,
          (childArtifact_bounded client hartifact).1, trivial⟩
    · exact hbounded
  obtain ⟨hbounded, hartifact⟩ := hread
  -- Only a completed child has an output; any other answer is pending or a failure.
  have hempty : (leafResult reply).output = [] → (leafResult reply).Accepted →
      ((leafResult reply).Accepted ↔
        ∀ name ∈ fieldNames (leafResult reply).output, name ∉ secretNames) := by
    intro houtput haccepted
    rw [houtput]
    exact ⟨fun _ name hname => (by cases hname), fun _ => haccepted⟩
  have hfailed : (∃ error, leafResult reply = { status := .failed, error := some error }) →
      ((leafResult reply).Accepted ↔
        ∀ name ∈ fieldNames (leafResult reply).output, name ∉ secretNames) := by
    rintro ⟨error, hresult⟩
    exact hempty (by rw [hresult]) (Or.inr (by rw [hresult]; exact persistable_failure _))
  cases hstatus : reply.status with
  | completed =>
    have hresult : (leafResult reply).status = .completed := by simp [leafResult, hstatus]
    have hreply : (leafResult reply).artifact = reply.artifact := by simp [leafResult, hstatus]
    have houtput : BoundedFields (leafResult reply).output := by
      simp only [leafResult, hstatus]
      cases hown : reply.artifact with
      | none => exact hbounded
      | some artifact => exact hbounded.setField (by decide) (hartifact artifact hown).1
    have hsanitizes : (∃ w, deepSanitize "$" (.obj (leafResult reply).output) = .ok w) ↔
        ∀ name ∈ fieldNames (leafResult reply).output, name ∉ secretNames :=
      sanitizes_iff "$" houtput
    rw [← hsanitizes]
    constructor
    · rintro (hopen | ⟨-, ⟨output, hsanitized⟩, -⟩)
      · rw [hresult] at hopen
        cases hopen
      · unfold sanitizeOutput at hsanitized
        cases hdeep : deepSanitize "$" (.obj (leafResult reply).output) with
        | ok w => exact ⟨w, rfl⟩
        | error e => rw [hdeep] at hsanitized; cases hsanitized
    · rintro ⟨w, hw⟩
      refine Or.inr ⟨by rw [hresult]; exact nofun, ?_, ?_⟩
      · unfold sanitizeOutput
        rw [hw]
        cases w <;> exact ⟨_, rfl⟩
      · rw [hreply]
        exact fun artifact hown => (hartifact artifact hown).2
  | queued =>
    have hresult : leafResult reply = { status := .queued } := by simp only [leafResult, hstatus]
    exact hempty (by rw [hresult]) (Or.inl (by rw [hresult]; rfl))
  | inFlight =>
    have hresult : leafResult reply = { status := .inFlight } := by
      simp only [leafResult, hstatus]
    exact hempty (by rw [hresult]) (Or.inl (by rw [hresult]; rfl))
  | failed | cancelled | other text => exact hfailed ⟨_, by simp only [leafResult, hstatus]; rfl⟩

end LeafClient

namespace Deployment

variable (d : Deployment)

/-- What a call of `advance` returns, and the world that it leaves. -/
def called (now : String) (w : World) (state : PipelineRunState) :
    Except CoordinatorError PipelineRunState × World :=
  (d.coordinator.advance now state).run (exec d.providers) w

/-- The call returns, and the attempt that it has worked on is settled in what is stored. -/
def Settles (now : String) (w : World) (state : PipelineRunState) : Prop :=
  (∃ next, (d.called now w state).1 = .ok next) ∧
    ∀ stage, state.worksOn = some stage → ∃ stored,
      (d.called now w state).2.states state.runId = some stored ∧
        stored.AttemptSettled stage.id

/-- The authority of the stage resolves, and the last answer of a provider in this call is one
that is caught or accepted. -/
def Answered (now : String) (w : World) (state : PipelineRunState) : Prop :=
  (∀ stage, state.consulted = some stage →
      ∃ authority, d.coordinator.authority stage = .ok authority) ∧
    ∀ call, w.lastCall (d.called now w state).2 = some call → ¬ call.Refused

variable {d} {now : String} {w : World} {state : PipelineRunState}

/-- The child is accepted, and completes with a password in its output. -/
def leaking : GPUManagerLeafGenerationClient where
  submitLeaf := fun _ _ _ jobId _ => .ok (.obj [("job_id", .str jobId)])
  pollLeaf := fun _ _ =>
    .ok (.obj [("status", .str "completed"), ("output", .obj [("password", .str "hunter2")])])
  cancelLeaf := fun _ _ => .ok false
  str := fun value =>
    match value with
    | .str s => s
    | _ => ""
  compiledRecord := fun stage _ => [("id", .str stage.id), ("provider", .str stage.provider)]
  effectivePrompt := fun _ => ""
  latestQc := fun _ => none
  parentJobId := fun _ => "job"

/-- Its answer cannot be recorded, by the name of the member. -/
theorem accepted_readPoll_leaking :
    (leafResult { status := .completed, output := [("password", .str "hunter2")] }).Accepted ↔
      ∀ name ∈ fieldNames [("password", Json.str "hunter2")], name ∉ secretNames :=
  accepted_readPoll_iff leaking (show leaking.readPoll (.obj
    [("status", .str "completed"), ("output", .obj [("password", .str "hunter2")])]) = _ from rfl)

/-- A request that names another pipeline. -/
theorem submit_refused_leaking :
    ∃ e, leaking.submit [] { id := "generate", kind := .generate } none
      (initialState "run" oneStage [("pipeline", .str "other")]) "key" = .error e :=
  submit_refused_of_request leaking [] _ none _ "key" (show "pipeline" ∈ _ by decide)
    (mem_singleton.mpr rfl)

end Deployment

end GpuManager.Coordinator
