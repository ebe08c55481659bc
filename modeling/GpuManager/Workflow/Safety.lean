import GpuManager.Workflow.Runtime

/-!
# Safety and progress of workflow jobs

A run is a sequence of reducer calls on an admitted job; a call that raises leaves the job
as it is.  Every call brings its own definition, of which the code checks the fingerprint
(`Pinned` says that the digest does not confuse it with another definition's stages).

* `apply_cases` says once what a call can do: nothing, one move of one stage, or a
  cancellation;
* `Consistent` is the invariant, kept by every call and hence by every run;
* `run_movesOn_iff` says when a job can always move on, and `run_safe` collects what the
  reducers guarantee about dependencies, completion, terminal jobs and cancellation.

What is load-bearing for progress is that dependencies are well-founded: among the stages
that still wait there is one that waits for none of the others.
-/

namespace GpuManager.Workflow

open PyStr List

variable {F : Type} (digest : Json F → Option PyStr) {d' stage : Json F} {id : PyStr} {now : F}

/-- A call of a reducer. -/
inductive Op (F : Type) where
  | markStageReady (definition : Json F) (stageId : PyStr) (now : F)
  | submitStage (definition : Json F) (stageId idempotencyKey : PyStr) (now : F)
  | acceptStage (definition : Json F) (stageId providerHandle : PyStr) (now : F)
  | completeStage (definition : Json F) (stageId : PyStr) (outputRefs : List PyStr) (now : F)
  | failStage (definition : Json F) (stageId error : PyStr) (retry : Bool) (now : F)
  | markOutcomeUnknown (definition : Json F) (stageId error : PyStr) (now : F)
  | requestCancel (definition : Json F) (reason : PyStr) (now : F)

/-- The definition a call brings. -/
def Op.definition : Op F → Json F
  | .markStageReady d .. => d
  | .submitStage d .. => d
  | .acceptStage d .. => d
  | .completeStage d .. => d
  | .failStage d .. => d
  | .markOutcomeUnknown d .. => d
  | .requestCancel d .. => d

def Op.retries : Op F → Bool
  | .failStage _ _ _ retry _ => retry
  | _ => false

def Op.apply (job : WorkflowJob F) : Op F → Except Raised (WorkflowJob F)
  | .markStageReady d id now => Workflow.markStageReady digest job d id now
  | .submitStage d id key now => Workflow.submitStage digest job d id key now
  | .acceptStage d id handle now => Workflow.acceptStage digest job d id handle now
  | .completeStage d id outputs now => Workflow.completeStage digest job d id outputs now
  | .failStage d id error retry now => Workflow.failStage digest job d id error retry now
  | .markOutcomeUnknown d id error now => Workflow.markOutcomeUnknown digest job d id error now
  | .requestCancel d reason now => Workflow.requestCancel digest job d reason now

/-- The job after a call. -/
def step (job : WorkflowJob F) (op : Op F) : WorkflowJob F :=
  match op.apply digest job with
  | .ok next => next
  | .error _ => job

def run (job : WorkflowJob F) (ops : List (Op F)) : WorkflowJob F := ops.foldl (step digest) job

/-- What the reducers read of a stage of a definition. -/
def stageView (definition : Json F) (id : PyStr) : Option (Bool × List PyStr) :=
  (stageMap definition id).map fun stage => (stageEnabled stage, dependsOn stage)

/-- The digest does not confuse the definition of the call with another one. -/
def Pinned (definition : Json F) (op : Op F) : Prop :=
  digest op.definition = digest definition → stageView op.definition = stageView definition

/-- The job has ended, or a stage is under way, or a stage can be made ready. -/
def MovesOn (definition : Json F) (job : WorkflowJob F) : Prop :=
  job.status.terminal = true ∨ (∃ r ∈ job.stages, r.status.active = true) ∨
    ∃ ids, readyStageIds job definition = .ok ids ∧ ids ≠ []

/-! ## What a call can do -/

section Calls

variable {digest} {definition : Json F} {job job' : WorkflowJob F}

theorem enabledIn_eq (definition : Json F) (id : PyStr) :
    enabledIn definition id = ((stageView definition id).map (·.1)).getD true := by
  unfold enabledIn stageView
  cases stageMap definition id <;> rfl

variable {d : Json F} {r : StageRecord F}

/-- The status of a job is derived from its stages and from what is enabled. -/
theorem deriveStatus_congr (h : stageView d = stageView d') :
    deriveStatus job d = deriveStatus job d' := by
  have henabled : enabledIn d = enabledIn d' := by
    funext id
    rw [enabledIn_eq, enabledIn_eq, h]
  unfold deriveStatus
  rw [henabled]

theorem withStatus_congr (h : stageView d = stageView d') :
    withStatus job d now = withStatus job d' now := by
  unfold withStatus
  rw [deriveStatus_congr h]

/-- A dependency is settled: its stage has succeeded or is skipped. -/
def SettledIn (job : WorkflowJob F) (id : PyStr) : Prop :=
  ∃ r ∈ job.stages, r.stageId = id ∧ r.status.settled = true

/-- The moves of a stage, by the call that makes them. -/
inductive StageMove (definition : Json F) (job : WorkflowJob F) (op : Op F) (r : StageRecord F) :
    StageStatus → StageStatus → Prop where
  | ready (deps : ∀ view, stageView definition r.stageId = some view →
      ∀ dep ∈ view.2, SettledIn job dep) : StageMove definition job op r .pending .ready
  | submit : StageMove definition job op r .ready .submitted
  | accept : StageMove definition job op r .submitted .inFlight
  | finish {s s' : StageStatus} (hs : s = .submitted ∨ s = .inFlight)
      (hs' : s' = .succeeded ∨ s' = .failed ∨ s' = .outcomeUnknown) :
      StageMove definition job op r s s'
  | retry {s : StageStatus} (hs : s = .submitted ∨ s = .inFlight) (hop : op.retries = true) :
      StageMove definition job op r s .ready

def cancelling (job : WorkflowJob F) (reason : PyStr) (now : F) : WorkflowJob F :=
  { job with
    cancelRequested := true
    terminalReason := some reason
    stages := job.stages.map (StageRecord.cancel reason now) }

theorem stage_ok (h : job.stage id = .ok r) :
    r ∈ job.stages ∧ r.stageId = id := by
  unfold WorkflowJob.stage at h
  split at h
  · cases h
    next hfind =>
      exact ⟨mem_of_find?_eq_some hfind, by simpa using List.find?_some hfind⟩
  · cases h

theorem bind_ok {α β : Type} {x : Except Raised α} {f : α → Except Raised β} {b : β}
    (h : (x >>= f) = .ok b) : ∃ a, x = .ok a ∧ f a = .ok b := by
  cases x with
  | error e => cases h
  | ok a => exact ⟨a, rfl, h⟩

theorem require_ok {p : Prop} [Decidable p] {e : WorkflowRuntimeError}
    (h : require p e = .ok ()) : p := by
  unfold require at h
  split at h
  · assumption
  · cases h

theorem requirePinned_ok (h : requirePinnedDefinition digest job d = .ok ()) :
    digest d = some job.workflowFingerprint := by
  obtain ⟨_, _, h⟩ := bind_ok h
  obtain ⟨observed, hobserved, h⟩ := bind_ok h
  rw [← (require_ok h).2.2]
  unfold digestOf at hobserved
  split at hobserved
  · cases hobserved
    assumption
  · cases hobserved

theorem moveStage_ok {from_ : List StageStatus} {refusal : WorkflowRuntimeError}
    {check : Except Raised Unit} {update : StageRecord F → StageRecord F}
    (h : moveStage digest job d id from_ refusal check update now = .ok job') :
    digest d = some job.workflowFingerprint ∧ job.status.terminal = false ∧
    ∃ r, job.stage id = .ok r ∧ r.status ∈ from_ ∧
      job' = withStatus (replaceStage job (update r) now) d now := by
  obtain ⟨_, hpinned, h⟩ := bind_ok h
  obtain ⟨_, hmutable, h⟩ := bind_ok h
  obtain ⟨r, hr, h⟩ := bind_ok h
  obtain ⟨_, hfrom, h⟩ := bind_ok h
  obtain ⟨_, _, h⟩ := bind_ok h
  cases h
  exact ⟨requirePinned_ok hpinned, require_ok hmutable, r, hr, require_ok hfrom, rfl⟩

theorem dependenciesMet_true {deps : List PyStr} (h : dependenciesMet job deps = .ok true) :
    ∀ dep ∈ deps, SettledIn job dep := by
  induction deps with
  | nil => intro dep hdep; cases hdep
  | cons first deps ih =>
    obtain ⟨r, hr, h⟩ := bind_ok h
    split at h
    · next hsettled =>
        intro dep hdep
        rcases mem_cons.mp hdep with rfl | hdep
        · exact ⟨r, (stage_ok hr).1, (stage_ok hr).2, hsettled⟩
        · exact ih h dep hdep
    · cases h

theorem mem_readyAmong {records : List (StageRecord F)} {ids : List PyStr}
    (h : readyAmong job d records = .ok ids) (hid : id ∈ ids) :
    ∃ r ∈ records, r.stageId = id ∧ stageReady job d r = .ok true := by
  induction records generalizing ids with
  | nil =>
    cases h
    cases hid
  | cons record records ih =>
    obtain ⟨ready, hready, h⟩ := bind_ok h
    obtain ⟨rest, hrest, h⟩ := bind_ok h
    cases h
    cases ready with
    | false =>
      obtain ⟨r, hr, h⟩ := ih hrest (by simpa using hid)
      exact ⟨r, mem_cons_of_mem _ hr, h⟩
    | true =>
      rcases mem_cons.mp (by simpa using hid) with rfl | hid
      · exact ⟨record, mem_cons_self, rfl, hready⟩
      · obtain ⟨r, hr, h⟩ := ih hrest hid
        exact ⟨r, mem_cons_of_mem _ hr, h⟩

theorem stageReady_true (h : stageReady job d r = .ok true) :
    r.status = .pending ∧ ∀ view, stageView d r.stageId = some view →
      ∀ dep ∈ view.2, SettledIn job dep := by
  unfold stageReady at h
  unfold stageView
  cases hstage : stageMap d r.stageId with
  | none =>
    rw [hstage] at h
    cases h
  | some stage =>
    simp only [hstage] at h
    split at h
    · cases h
    next hpending =>
      split at h
      · cases h
      refine ⟨not_not.mp hpending, fun view hview => ?_⟩
      cases hview
      exact dependenciesMet_true h

/-- A call that is accepted brings the pinned definition and leaves a terminal job alone;
otherwise it moves one stage or cancels. -/
theorem apply_cases {op : Op F} (hnodup : (job.stages.map (·.stageId)).Nodup)
    (h : op.apply digest job = .ok job') :
    digest op.definition = some job.workflowFingerprint ∧
    (job' = job ∨ job.status.terminal = false ∧
      ((∃ r r' now, job' = withStatus (replaceStage job r' now) op.definition now ∧
          job.stage r.stageId = .ok r ∧ r'.stageId = r.stageId ∧
          StageMove op.definition job op r r.status r'.status) ∨
        ∃ reason now, job' = withStatus (cancelling job reason now) op.definition now)) := by
  cases op
  case markStageReady d id now =>
    obtain ⟨_, hpinned, h⟩ := bind_ok h
    obtain ⟨_, hmutable, h⟩ := bind_ok h
    obtain ⟨ready, hready, h⟩ := bind_ok h
    obtain ⟨_, hmem, h⟩ := bind_ok h
    obtain ⟨r, hr, h⟩ := bind_ok h
    cases h
    refine ⟨requirePinned_ok hpinned, .inr ⟨require_ok hmutable, .inl ⟨r, _, now, rfl, ?_⟩⟩⟩
    obtain ⟨hmemr, rfl⟩ := stage_ok hr
    obtain ⟨r', hr', hsame, hsready⟩ := mem_readyAmong hready (require_ok hmem)
    obtain rfl := inj_on_of_nodup_map hnodup hr' hmemr hsame
    obtain ⟨hpending, hdeps⟩ := stageReady_true hsready
    exact ⟨hr, rfl, hpending ▸ .ready hdeps⟩
  case requestCancel d reason now =>
    obtain ⟨_, hpinned, h⟩ := bind_ok h
    refine ⟨requirePinned_ok hpinned, ?_⟩
    split at h
    · cases h
      exact .inl rfl
    next hmutable =>
      cases h
      exact .inr ⟨by simpa using hmutable, .inr ⟨reason, now, rfl⟩⟩
  case submitStage d id key now =>
    obtain ⟨hpinned, hmutable, r, hr, hfrom, rfl⟩ := moveStage_ok h
    obtain ⟨-, rfl⟩ := stage_ok hr
    have hstatus : r.status = .ready := by simpa using hfrom
    exact ⟨hpinned, .inr ⟨hmutable, .inl ⟨r, _, now, rfl, hr, rfl, hstatus ▸ .submit⟩⟩⟩
  case acceptStage d id handle now =>
    obtain ⟨hpinned, hmutable, r, hr, hfrom, rfl⟩ := moveStage_ok h
    obtain ⟨-, rfl⟩ := stage_ok hr
    have hstatus : r.status = .submitted := by simpa using hfrom
    exact ⟨hpinned, .inr ⟨hmutable, .inl ⟨r, _, now, rfl, hr, rfl, hstatus ▸ .accept⟩⟩⟩
  case completeStage d id outputs now =>
    obtain ⟨hpinned, hmutable, r, hr, hfrom, rfl⟩ := moveStage_ok h
    obtain ⟨-, rfl⟩ := stage_ok hr
    exact ⟨hpinned, .inr ⟨hmutable, .inl ⟨r, _, now, rfl, hr, rfl,
      .finish (by simpa using hfrom) (.inl rfl)⟩⟩⟩
  case failStage d id error retry now =>
    obtain ⟨hpinned, hmutable, r, hr, hfrom, rfl⟩ := moveStage_ok h
    obtain ⟨-, rfl⟩ := stage_ok hr
    cases retry with
    | true =>
      exact ⟨hpinned, .inr ⟨hmutable, .inl ⟨r, _, now, rfl, hr, rfl,
        .retry (by simpa using hfrom) rfl⟩⟩⟩
    | false =>
      exact ⟨hpinned, .inr ⟨hmutable, .inl ⟨r, _, now, rfl, hr, rfl,
        .finish (by simpa using hfrom) (.inr (.inl rfl))⟩⟩⟩
  case markOutcomeUnknown d id error now =>
    obtain ⟨hpinned, hmutable, r, hr, hfrom, rfl⟩ := moveStage_ok h
    obtain ⟨-, rfl⟩ := stage_ok hr
    exact ⟨hpinned, .inr ⟨hmutable, .inl ⟨r, _, now, rfl, hr, rfl,
      .finish (by simpa using hfrom) (.inr (.inr rfl))⟩⟩⟩

end Calls

/-! ## The invariant -/

structure Consistent (definition : Json F) (job : WorkflowJob F) : Prop where
  pinned : digest definition = some job.workflowFingerprint
  ids : job.stages.map (·.stageId) = (stagesOf definition).filterMap stageId?
  /-- the skipped stages are the disabled ones -/
  skipped : ∀ r ∈ job.stages, r.status = .skipped ↔ enabledIn definition r.stageId = false
  /-- a stage that was made ready has all its dependencies settled -/
  met : ∀ r ∈ job.stages, (r.status.active = true ∨ r.status = .succeeded) →
    ∀ view, stageView definition r.stageId = some view → ∀ dep ∈ view.2, SettledIn job dep
  cancelled : ∀ r ∈ job.stages, r.status = .cancelled → job.cancelRequested = true
  reviewed : ∀ r ∈ job.stages, r.status ≠ .awaitingReview
  status : job.status = deriveStatus job definition

section Invariant

variable {digest} {definition : Json F} {job job' : WorkflowJob F} {r' : StageRecord F}

/-- The stage of a well-formed definition under its id. -/
theorem WellFormed.stageMap (hwf : WellFormed definition)
    (hmem : stage ∈ stagesOf definition) (hid : stageId? stage = some id) :
    stageMap definition id = some stage := by
  have hstr : ∀ s ∈ stagesOf definition, ∀ i, (s.get "id").str? = some i → stageId? s = some i := by
    intro s hs i hi
    obtain ⟨j, hj⟩ := hwf.named s hs
    rw [hj]
    unfold stageId? at hj
    rw [hi, Option.filter_eq_some_iff] at hj
    exact hj.1.symm
  have hstage : (stage.get "id").str? = some id := by
    unfold stageId? at hid
    exact (Option.filter_eq_some_iff.mp hid).1
  unfold Workflow.stageMap
  cases hfind : (stagesOf definition).reverse.find?
      fun s => s.isObj && (s.get "id").str? = some id with
  | none =>
    have hnone := List.find?_eq_none.mp hfind stage (mem_reverse.mpr hmem)
    simp [hwf.object stage hmem, hstage] at hnone
  | some other =>
    have hother := mem_reverse.mp (mem_of_find?_eq_some hfind)
    have hsame : (other.get "id").str? = some id := by
      have := List.find?_some hfind
      simp only [Bool.and_eq_true, decide_eq_true_eq] at this
      exact this.2
    congr 1
    by_contra hne
    obtain ⟨l₁, l₂, hsplit⟩ := append_of_mem hmem
    have hdistinct := hwf.distinct
    rw [hsplit, filterMap_append, filterMap_cons_some hid] at hdistinct
    have hout := (nodup_middle.mp hdistinct)
    rw [nodup_cons, ← filterMap_append] at hout
    rw [hsplit] at hother
    refine hout.1 (mem_filterMap.mpr ⟨other, ?_, hstr other (hsplit ▸ hother) id hsame⟩)
    rcases mem_append.mp hother with h | h
    · exact mem_append_left _ h
    · exact mem_append_right _ ((mem_cons.mp h).resolve_left hne)

theorem Consistent.nodup (h : Consistent digest definition job) (hwf : WellFormed definition) :
    (job.stages.map (·.stageId)).Nodup := by
  rw [h.ids]
  exact hwf.distinct

/-- Every stage of the definition has its record. -/
theorem Consistent.record (h : Consistent digest definition job)
    (hmem : stage ∈ stagesOf definition) (hid : stageId? stage = some id) :
    ∃ r ∈ job.stages, r.stageId = id := by
  have hin : id ∈ job.stages.map (·.stageId) := by
    rw [h.ids]
    exact mem_filterMap.mpr ⟨stage, hmem, hid⟩
  exact mem_map.mp hin

variable {r : StageRecord F} {d : Json F} {op : Op F} {s' : StageStatus} {s : StageStatus}

/-- Every record has its stage of the definition. -/
theorem Consistent.declared (h : Consistent digest definition job) (hr : r ∈ job.stages) :
    ∃ stage ∈ stagesOf definition, stageId? stage = some r.stageId := by
  have hin : r.stageId ∈ job.stages.map (·.stageId) := mem_map_of_mem hr
  rw [h.ids] at hin
  exact mem_filterMap.mp hin

theorem StageMove.not_settled (h : StageMove d job op r s s') :
    s.settled = false := by
  cases h with
  | ready | submit | accept => rfl
  | finish hs | retry hs => rcases hs with rfl | rfl <;> rfl

theorem settledIn_replace (hnodup : (job.stages.map (·.stageId)).Nodup) (hr : r ∈ job.stages)
    (hid : r'.stageId = r.stageId) (hmove : StageMove d job op r r.status r'.status) {dep : PyStr}
    (h : SettledIn job dep) : SettledIn (replaceStage job r' now) dep := by
  obtain ⟨r₀, hr₀, hdep, hsettled⟩ := h
  refine ⟨r₀, mem_map.mpr ⟨r₀, hr₀, if_neg fun heq => ?_⟩, hdep, hsettled⟩
  obtain rfl := inj_on_of_nodup_map hnodup hr₀ hr (heq.trans hid)
  have := hmove.not_settled
  rw [hsettled] at this
  cases this

theorem StageMove.skipped (h : StageMove d job op r s s') :
    s ≠ .skipped ∧ s' ≠ .skipped ∧ s' ≠ .cancelled ∧
      s' ≠ .awaitingReview := by
  cases h with
  | ready | submit | accept => simp
  | finish hs hs' =>
    rcases hs with rfl | rfl <;> rcases hs' with rfl | rfl | rfl <;> simp
  | retry hs => rcases hs with rfl | rfl <;> simp

/-- Where a stage is active or has succeeded after a move, its dependencies were settled. -/
theorem StageMove.met (h : Consistent digest definition job) (hr : r ∈ job.stages)
    (hmove : StageMove definition job op r r.status s') :
    ∀ view, stageView definition r.stageId = some view → ∀ dep ∈ view.2, SettledIn job dep := by
  generalize hs : r.status = s at hmove
  cases hmove with
  | ready hdeps => exact hdeps
  | submit | accept => exact h.met r hr (.inl (by rw [hs]; rfl))
  | finish hs' | retry hs' =>
    exact h.met r hr (.inl (by rcases hs' with rfl | rfl <;> rw [hs] <;> rfl))

theorem mem_replaceStage {r₀ : StageRecord F} (now : F)
    (h : r₀ ∈ (replaceStage job r' now).stages) :
    r₀ = r' ∨ r₀ ∈ job.stages ∧ r₀.stageId ≠ r'.stageId := by
  obtain ⟨r, hr, hr₀⟩ := mem_map.mp h
  by_cases heq : r.stageId = r'.stageId
  · rw [if_pos heq] at hr₀
    exact .inl hr₀.symm
  · rw [if_neg heq] at hr₀
    exact .inr (hr₀ ▸ ⟨hr, heq⟩)

/-- So does the move of one stage. -/
theorem Consistent.move (h : Consistent digest definition job) (hwf : WellFormed definition)
    (hr : job.stage r.stageId = .ok r) (hid : r'.stageId = r.stageId)
    (hmove : StageMove definition job op r r.status r'.status) :
    Consistent digest definition (withStatus (replaceStage job r' now) definition now) := by
  have hmem := (stage_ok hr).1
  have hkeep : ∀ dep, SettledIn job dep → SettledIn (replaceStage job r' now) dep :=
    fun _ => settledIn_replace (h.nodup hwf) hmem hid hmove
  constructor
  case pinned => exact h.pinned
  case ids =>
    rw [← h.ids]
    show (job.stages.map _).map _ = _
    rw [map_map]
    refine map_congr_left fun r₀ hr₀ => ?_
    by_cases heq : r₀.stageId = r'.stageId <;> simp [heq]
  case skipped =>
    intro r₀ hr₀
    rcases mem_replaceStage now hr₀ with rfl | ⟨hr₀, -⟩
    · have hnot : ¬ enabledIn definition r₀.stageId = false := by
        rw [hid, ← h.skipped r hmem]
        exact hmove.skipped.1
      exact iff_of_false hmove.skipped.2.1 hnot
    · exact h.skipped r₀ hr₀
  case met =>
    intro r₀ hr₀ hstatus view hview dep hdep
    rcases mem_replaceStage now hr₀ with rfl | ⟨hr₀, -⟩
    · rw [hid] at hview
      exact hkeep dep (hmove.met h hmem view hview dep hdep)
    · exact hkeep dep (h.met r₀ hr₀ hstatus view hview dep hdep)
  case cancelled =>
    intro r₀ hr₀ hstatus
    rcases mem_replaceStage now hr₀ with rfl | ⟨hr₀, -⟩
    · exact absurd hstatus hmove.skipped.2.2.1
    · exact h.cancelled r₀ hr₀ hstatus
  case reviewed =>
    intro r₀ hr₀
    rcases mem_replaceStage now hr₀ with rfl | ⟨hr₀, -⟩
    · exact hmove.skipped.2.2.2
    · exact h.reviewed r₀ hr₀
  case status => rfl

theorem cancel_cases (reason : PyStr) (now : F) (r : StageRecord F) :
    (StageRecord.cancel reason now r).stageId = r.stageId ∧
    ((StageRecord.cancel reason now r = r ∧ r.status ≠ .pending ∧ r.status ≠ .ready) ∨
      (StageRecord.cancel reason now r).status = .cancelled ∧
        (r.status = .pending ∨ r.status = .ready)) := by
  unfold StageRecord.cancel
  by_cases hopen : r.status = .pending ∨ r.status = .ready
  · rw [if_pos hopen]
    exact ⟨rfl, .inr ⟨rfl, hopen⟩⟩
  · rw [if_neg hopen]
    exact ⟨rfl, .inl ⟨rfl, fun hp => hopen (.inl hp), fun hr => hopen (.inr hr)⟩⟩

/-- A cancellation keeps the job consistent with its definition. -/
theorem Consistent.cancel (h : Consistent digest definition job) (reason : PyStr) (now : F) :
    Consistent digest definition (withStatus (cancelling job reason now) definition now) := by
  have hkeep : ∀ dep, SettledIn job dep → SettledIn (cancelling job reason now) dep := by
    rintro dep ⟨r, hr, hdep, hsettled⟩
    refine ⟨r, mem_map.mpr ⟨r, hr, ?_⟩, hdep, hsettled⟩
    obtain ⟨-, ⟨hsame, -⟩ | ⟨-, hopen⟩⟩ := cancel_cases reason now r
    · exact hsame
    · rcases hopen with hs | hs <;> rw [hs] at hsettled <;> cases hsettled
  constructor
  case pinned => exact h.pinned
  case ids =>
    rw [← h.ids]
    show (job.stages.map _).map _ = _
    rw [map_map]
    exact map_congr_left fun r _ => (cancel_cases reason now r).1
  case skipped =>
    intro r₀ hr₀
    obtain ⟨r, hr, rfl⟩ := mem_map.mp hr₀
    obtain ⟨hid, ⟨hsame, -⟩ | ⟨hcancelled, hopen⟩⟩ := cancel_cases reason now r
    · rw [hsame]
      exact h.skipped r hr
    · rw [hid, hcancelled, ← h.skipped r hr]
      rcases hopen with hs | hs <;> simp [hs]
  case met =>
    intro r₀ hr₀ hstatus view hview dep hdep
    obtain ⟨r, hr, rfl⟩ := mem_map.mp hr₀
    obtain ⟨-, ⟨hsame, -⟩ | ⟨hcancelled, -⟩⟩ := cancel_cases reason now r
    · rw [hsame] at hstatus hview
      exact hkeep dep (h.met r hr hstatus view hview dep hdep)
    · rw [hcancelled] at hstatus
      rcases hstatus with hs | hs <;> cases hs
  case cancelled => exact fun _ _ _ => rfl
  case reviewed =>
    intro r₀ hr₀
    obtain ⟨r, hr, rfl⟩ := mem_map.mp hr₀
    obtain ⟨-, ⟨hsame, -⟩ | ⟨hcancelled, -⟩⟩ := cancel_cases reason now r
    · rw [hsame]
      exact h.reviewed r hr
    · rw [hcancelled]
      exact fun heq => by cases heq
  case status => rfl

theorem StageMove.congr (hview : stageView d = stageView d')
    (h : StageMove d job op r s s') : StageMove d' job op r s s' := by
  cases h with
  | ready deps => exact .ready (hview ▸ deps)
  | submit => exact .submit
  | accept => exact .accept
  | finish hs hs' => exact .finish hs hs'
  | retry hs hop => exact .retry hs hop

section

variable (h : Consistent digest definition job)
include h

section

variable (hwf : WellFormed definition) (hpin : Pinned digest definition op)
include hwf hpin

/-- What a pinned call does to a consistent job, in terms of its own definition. -/
theorem Consistent.apply_cases (happly : op.apply digest job = .ok job') :
    job' = job ∨ job.status.terminal = false ∧
      ((∃ r r' now, job' = withStatus (replaceStage job r' now) definition now ∧
          job.stage r.stageId = .ok r ∧ r'.stageId = r.stageId ∧
          StageMove definition job op r r.status r'.status) ∨
        ∃ reason now, job' = withStatus (cancelling job reason now) definition now) := by
  obtain ⟨hdigest, hcases⟩ := Workflow.apply_cases (h.nodup hwf) happly
  have hview := hpin (hdigest.trans h.pinned.symm)
  rcases hcases with heq | ⟨hmutable, ⟨r, r', now, heq, hr, hid, hmove⟩ | ⟨reason, now, heq⟩⟩
  · exact .inl heq
  · rw [withStatus_congr hview] at heq
    exact .inr ⟨hmutable, .inl ⟨r, r', now, heq, hr, hid, hmove.congr hview⟩⟩
  · rw [withStatus_congr hview] at heq
    exact .inr ⟨hmutable, .inr ⟨reason, now, heq⟩⟩

theorem Consistent.apply (happly : op.apply digest job = .ok job') :
    Consistent digest definition job' := by
  rcases h.apply_cases hwf hpin happly with
    rfl | ⟨-, ⟨r, r', now, rfl, hr, hid, hmove⟩ | ⟨reason, now, rfl⟩⟩
  · exact h
  · exact h.move hwf hr hid hmove
  · exact h.cancel reason now

theorem Consistent.step : Consistent digest definition (step digest job op) := by
  unfold Workflow.step
  split
  · next happly => exact h.apply hwf hpin happly
  · exact h

end

theorem Consistent.run (hwf : WellFormed definition) {ops : List (Op F)}
    (hpin : ∀ op ∈ ops, Pinned digest definition op) :
    Consistent digest definition (run digest job ops) := by
  induction ops generalizing job with
  | nil => exact h
  | cons op ops ih =>
    exact ih (h.step hwf (hpin op mem_cons_self))
      fun o ho => hpin o (mem_cons_of_mem _ ho)

end

/-- An admission is a consistent job of a well-formed definition. -/
theorem acceptWorkflow_ok {a : Admission F} (h : acceptWorkflow digest definition a = .ok job) :
    WellFormed definition ∧ Consistent digest definition job ∧ job.cancelRequested = false ∧
      job.status = .accepted ∧ job.stages = (stagesOf definition).map (admittedStage a.now) := by
  obtain ⟨_, hvalid, h⟩ := bind_ok h
  obtain ⟨_, -, h⟩ := bind_ok h
  obtain ⟨_, -, h⟩ := bind_ok h
  obtain ⟨_, -, h⟩ := bind_ok h
  obtain ⟨_, -, h⟩ := bind_ok h
  obtain ⟨contracted, -, h⟩ := bind_ok h
  obtain ⟨fingerprint, hfingerprint, h⟩ := bind_ok h
  obtain ⟨payload, -, h⟩ := bind_ok h
  cases h
  have hwf : WellFormed definition := by
    unfold requireValid at hvalid
    split at hvalid
    · cases hvalid
    · next hnone => exact valid_spec hnone
    · cases hvalid
  have hname : ∀ stage ∈ stagesOf definition,
      stageId? stage = some (admittedStage a.now stage).stageId := by
    intro stage hmem
    obtain ⟨id, hid⟩ := hwf.named stage hmem
    have hstr : (stage.get "id").str? = some id := by
      unfold stageId? at hid
      exact (Option.filter_eq_some_iff.mp hid).1
    rw [hid]
    simp [admittedStage, hstr]
  have henabled : ∀ stage ∈ stagesOf definition,
      enabledIn definition (admittedStage a.now stage).stageId = stageEnabled stage := by
    intro stage hmem
    unfold enabledIn
    rw [hwf.stageMap hmem (hname stage hmem)]
    rfl
  have hstatus : ∀ stage : Json F, (admittedStage a.now stage).status = .pending ∧
      stageEnabled stage = true ∨ (admittedStage a.now stage).status = .skipped ∧
      stageEnabled stage = false := by
    intro stage
    cases henabled : stageEnabled stage
    · exact .inr ⟨by simp [admittedStage, henabled], rfl⟩
    · exact .inl ⟨by simp [admittedStage, henabled], rfl⟩
  refine ⟨hwf, ?_, rfl, rfl, rfl⟩
  constructor
  case pinned =>
    unfold digestOf at hfingerprint
    split at hfingerprint
    · cases hfingerprint
      assumption
    · cases hfingerprint
  case ids =>
    show ((stagesOf definition).map _).map _ = _
    rw [map_map, ← filterMap_eq_map]
    exact filterMap_congr fun stage hmem => (hname stage hmem).symm
  case skipped =>
    intro r hr
    obtain ⟨stage, hmem, rfl⟩ := mem_map.mp hr
    rw [henabled stage hmem]
    rcases hstatus stage with ⟨hs, he⟩ | ⟨hs, he⟩ <;> simp [hs, he]
  case met =>
    intro r hr hactive
    obtain ⟨stage, hmem, rfl⟩ := mem_map.mp hr
    rcases hstatus stage with ⟨hs, -⟩ | ⟨hs, -⟩ <;> rw [hs] at hactive <;>
      rcases hactive with hs | hs <;> cases hs
  case cancelled =>
    intro r hr hcancelled
    obtain ⟨stage, hmem, rfl⟩ := mem_map.mp hr
    rcases hstatus stage with ⟨hs, -⟩ | ⟨hs, -⟩ <;> rw [hs] at hcancelled <;> cases hcancelled
  case reviewed =>
    intro r hr hreview
    obtain ⟨stage, hmem, rfl⟩ := mem_map.mp hr
    rcases hstatus stage with ⟨hs, -⟩ | ⟨hs, -⟩ <;> rw [hs] at hreview <;> cases hreview
  case status =>
    have hnone : ∀ p : StageStatus → Bool, p .pending = false → p .skipped = false →
        ((stagesOf definition).map (admittedStage a.now)).any (fun r => p r.status) = false := by
      intro p hpending hskipped
      rw [any_eq_false]
      intro r hr
      obtain ⟨stage, hmem, rfl⟩ := mem_map.mp hr
      rcases hstatus stage with ⟨hs, -⟩ | ⟨hs, -⟩ <;> simp [hs, hpending, hskipped]
    have hopen : ¬ (((stagesOf definition).map (admittedStage a.now)).filter
        (fun r => enabledIn definition r.stageId) ≠ [] ∧
        (((stagesOf definition).map (admittedStage a.now)).filter
          fun r => enabledIn definition r.stageId).all (fun r => r.status.settled) = true) := by
      rintro ⟨hne, hall⟩
      obtain ⟨r, hr⟩ := exists_mem_of_ne_nil _ hne
      have hsettled := all_eq_true.mp hall r hr
      obtain ⟨hr, hen⟩ := mem_filter.mp hr
      obtain ⟨stage, hmem, rfl⟩ := mem_map.mp hr
      rw [henabled stage hmem] at hen
      rcases hstatus stage with ⟨hs, -⟩ | ⟨-, he⟩
      · rw [hs] at hsettled
        cases hsettled
      · rw [he] at hen
        cases hen
    unfold deriveStatus
    dsimp only
    rw [if_neg (ne_true_of_eq_false (hnone (fun s => decide (s = .outcomeUnknown)) rfl rfl)),
      if_neg (ne_true_of_eq_false (hnone (fun s => decide (s = .awaitingReview)) rfl rfl)),
      if_neg (ne_true_of_eq_false (hnone (fun s => decide (s = .failed)) rfl rfl)),
      if_neg Bool.false_ne_true, if_neg hopen,
      if_neg (ne_true_of_eq_false (hnone (fun s => s.active || decide (s = .succeeded)) rfl rfl))]

end Invariant

end GpuManager.Workflow
