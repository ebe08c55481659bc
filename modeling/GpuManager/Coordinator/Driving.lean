import GpuManager.Coordinator.Saves

/-!
# Driving a run

The consumer loop calls `advance` again and again until the run is terminal.  Here every call
comes to its end before the next one starts, and nobody else writes the run; what remains is a
function of the stored state and of the answers of the providers.

`movesOn`, `afterVerdict`, `afterFailure` and `afterResult` are what the end of `advance` makes
of a state: the state that it returns and stores, and the events that it appends.  `Advances`
is one whole call.  The lemmas `ends_…` read the programs this way, and `drive_induction` is the
rule for any number of calls.
-/

namespace GpuManager.Coordinator

open AtomicProgram RedisCoordinatorStore PipelineCoordinator PipelineRunState Prog Function List

/-! ## What a call makes of a state -/

namespace PipelineRunState

variable (state : PipelineRunState)

def ended (code : TerminalCode) (reason : String) : PipelineRunState × List RunEvent :=
  (state.terminal code reason,
    [.terminalized code (state.terminal code reason).terminalReason
      (state.terminal code reason).artifact])

/-- `_advance_to_next_stage`. -/
def movesOn : PipelineRunState × List RunEvent :=
  if state.pendingStageIds ≠ [] then ({ state with currentStageId := none }, [])
  else
    match state.firstReadyStageId with
    | none =>
      if state.requiredStages.all fun stage => state.stageSettled stage.id then
        state.ended .success "All stages completed"
      else
        state.ended .coordinatorError
          "no dependency-ready stage remains; workflow state is inconsistent"
    | some nextStageId =>
      if some nextStageId = state.currentStageId then (state, [])
      else
        ({ state with currentStageId := some nextStageId, cursorNote := none },
          [.stageAdvanced nextStageId state.currentStageId])

/-- The state with the artifact that passed its quality control. -/
def acceptArtifact : PipelineRunState :=
  if state.artifact.isSome then { state with lastGoodArtifact := state.artifact } else state

/-- The answer to a failed verdict. -/
def corrects (verdict : QCVerdict) : PipelineRunState × List RunEvent :=
  match correctionLoop state verdict with
  | none => state.ended .qcExhausted "QC failed but no correct stage defined"
  | some (loopId, correctionStageId, onCorrection, loopMax) =>
    if loopMax ≤ state.loopIterations loopId then
      state.ended .qcExhausted
        ("QC failed after " ++ toString (state.loopIterations loopId) ++ "/" ++
          toString loopMax ++ " correction iterations")
    else
      (state.scheduleCorrection loopId correctionStageId onCorrection,
        [.correctionStarted correctionStageId loopId (state.loopIterations loopId + 1)
          onCorrection])

/-- `_handle_qc_result`. -/
def afterVerdict (verdict : QCVerdict) : PipelineRunState × List RunEvent :=
  let next := if verdict.passed then state.acceptArtifact.movesOn else state.corrects verdict
  (next.1, .qcResult verdict.stageId verdict.passed verdict.report :: next.2)

/-- `_handle_stage_failure`. -/
def afterFailure (stage : Stage) (error : Option String) : PipelineRunState × List RunEvent :=
  let errorText := (PythonText.nonempty error).getD "unknown"
  let currentAttempt := ((state.latestAttempt stage.id).map StageAttempt.attempt).getD 1
  if contains "unsafe_external_resume" errorText then
    state.ended .unsafeResume ("Stage " ++ stage.id ++ " outcome is unknown: " ++ errorText)
  else if currentAttempt < stage.maxAttempts then
    ({ state with
        currentStageId := some stage.id
        cursorNote := some (.retryAttempt (currentAttempt + 1) stage.maxAttempts) },
      [.stageRetryScheduled stage.id (currentAttempt + 1) stage.maxAttempts])
  else
    state.ended (failureCode stage errorText) ("Stage " ++ stage.id ++ " failed: " ++ errorText)

def afterResult (stage : Stage) (result : StageResult) (error : Option String) :
    PipelineRunState × List RunEvent :=
  if validatedStatus result = .failed then state.afterFailure stage error
  else
    match result.qcVerdict, stage.kind with
    | some verdict, .qc => state.afterVerdict verdict
    | _, _ => state.movesOn

/-- The state in which `advance` looks for the stage to run. -/
def entered : PipelineRunState :=
  match state.pendingStageIds, state.currentStageRunning with
  | next :: remaining, false => state.enterPending next remaining
  | _, _ => state

end PipelineRunState

/-- What no call changes: which run it is, its plan and its parameters, and that nobody has
asked to cancel it. -/
structure SameRun (before after : PipelineRunState) : Prop where
  runId_eq : after.runId = before.runId
  compiledPipeline_eq : after.compiledPipeline = before.compiledPipeline
  requestParams_eq : after.requestParams = before.requestParams
  maxCorrections_eq : after.maxCorrections = before.maxCorrections
  cancellationIntent_eq : after.cancellationIntent = before.cancellationIntent

section SameRun

variable (state : PipelineRunState)

theorem SameRun.refl : SameRun state state := ⟨rfl, rfl, rfl, rfl, rfl⟩

theorem SameRun.trans {a b c : PipelineRunState} (hab : SameRun a b) (hbc : SameRun b c) :
    SameRun a c :=
  ⟨hbc.runId_eq.trans hab.runId_eq, hbc.compiledPipeline_eq.trans hab.compiledPipeline_eq,
    hbc.requestParams_eq.trans hab.requestParams_eq,
    hbc.maxCorrections_eq.trans hab.maxCorrections_eq,
    hbc.cancellationIntent_eq.trans hab.cancellationIntent_eq⟩

theorem ended_same (code : TerminalCode) (reason : String) :
    SameRun state (state.ended code reason).1 := by
  obtain ⟨artifact, text, heq⟩ := terminal_eq state code reason
  unfold ended
  rw [heq]
  exact ⟨rfl, rfl, rfl, rfl, rfl⟩

theorem movesOn_same : SameRun state state.movesOn.1 := by
  unfold movesOn
  split
  · exact ⟨rfl, rfl, rfl, rfl, rfl⟩
  split
  · split <;> exact ended_same state _ _
  split
  · exact SameRun.refl state
  · exact ⟨rfl, rfl, rfl, rfl, rfl⟩

theorem acceptArtifact_same : SameRun state state.acceptArtifact := by
  unfold acceptArtifact
  split
  · exact ⟨rfl, rfl, rfl, rfl, rfl⟩
  · exact SameRun.refl state

theorem corrects_same (verdict : QCVerdict) : SameRun state (state.corrects verdict).1 := by
  unfold corrects
  split
  · exact ended_same state _ _
  split
  · exact ended_same state _ _
  · exact ⟨rfl, rfl, rfl, rfl, rfl⟩

theorem afterResult_same (stage : Stage) (result : StageResult) (error : Option String) :
    SameRun state (state.afterResult stage result error).1 := by
  unfold afterResult
  split
  · unfold afterFailure
    simp only
    split
    · exact ended_same state _ _
    split
    · exact ⟨rfl, rfl, rfl, rfl, rfl⟩
    · exact ended_same state _ _
  · split
    · unfold afterVerdict
      simp only
      split
      · exact (acceptArtifact_same state).trans (movesOn_same _)
      · exact corrects_same state _
    · exact movesOn_same state

theorem entered_same : SameRun state state.entered := by
  unfold entered
  split
  · exact ⟨rfl, rfl, rfl, rfl, rfl⟩
  · exact SameRun.refl state

end SameRun

/-! ## The programs, run to their end -/

/-- A call has returned the state of `next`, which is stored, and has appended its events. -/
structure Leaves (w : World) (next : PipelineRunState × List RunEvent)
    (r : Except CoordinatorError PipelineRunState) (w' : World) : Prop where
  returned : r = .ok next.1
  stored : w'.states next.1.runId = some next.1
  logged : w'.events next.1.runId = w.events next.1.runId ++ next.2

section Programs

variable {providers : Providers} {state : PipelineRunState} {w : World}

variable {next : PipelineRunState × List RunEvent}

variable {w' w₁ : World}

variable {r : Except CoordinatorError PipelineRunState} {stage : Stage}

/-- What is left after an event and a save of the same run is left after the event alone. -/
theorem Leaves.after {event : RunEvent}
    (hevents : w₁.events next.1.runId = w.events next.1.runId ++ [event])
    (h : Leaves w₁ next r w') : Leaves w (next.1, event :: next.2) r w' := by
  refine ⟨h.returned, h.stored, ?_⟩
  rw [h.logged, hevents, append_assoc]
  rfl

/-- The result can be recorded. -/
structure Recordable (now : String) (stage : Stage) (result : StageResult) (output : Fields)
    (artifact : Option ArtifactRef) : Prop where
  stated : result.status ≠ .missing
  sanitized : sanitizeOutput result.output = .ok output
  referenced : artifactRef stage.id now result.artifact = .ok artifact

variable {result : StageResult}

end Programs

/-! ## The execution of an attempt -/

/-- The results that an attempt can have, in the copy of the state that it is executed with. -/
inductive Answers (d : Deployment) (copy : PipelineRunState) (stage : Stage) (a : StageAttempt) :
    Bool → StageResult → Prop where
  | unbound {resuming : Bool} {e : String} (unresolved : copy.materializeStageInputs stage = .error e) :
      Answers d copy stage a resuming
        { status := .failed, error := some ("binding_resolution_failed: " ++ e) }
  | executed {inputs : Option Fields} (calls : List ProviderCall)
      (authority : d.coordinator.authority stage = .ok .external)
      (bound : copy.materializeStageInputs stage = .ok inputs) :
      Answers d copy stage a false
        (externalOutcome (d.providers.execute calls stage inputs copy a.idempotencyKey))
  | polled {inputs : Option Fields} {handle : String} (calls : List ProviderCall)
      (authority : d.coordinator.authority stage = .ok .external)
      (known : PythonText.nonempty a.providerHandle = some handle) :
      Answers d copy stage a true
        (externalOutcome (d.providers.poll calls stage inputs copy a.idempotencyKey handle))
  | unknown (authority : d.coordinator.authority stage = .ok .external)
      (unhandled : PythonText.nonempty a.providerHandle = none) :
      Answers d copy stage a true
        { status := .failed
          error := some ("unsafe_external_resume: prior delivery outcome is unknown for stage " ++
            stage.id) }
  | unhandled {resuming : Bool} {result : StageResult} {e : String}
      (authority : d.coordinator.authority stage = .ok .external)
      (answers : Answers d copy stage a resuming result) (isOpen : result.status.isOpen = true)
      (refused : providerHandle result.providerHandle = .error e) :
      Answers d copy stage a resuming
        { status := .failed, error := some ("unsafe_external_resume: " ++ e) }
  | leaf {resuming : Bool} {calls : List ProviderCall} {childJobId : String} {poll : LeafPoll}
      (authority : d.coordinator.authority stage = .ok .leaf)
      (bound : ∃ inputs, copy.materializeStageInputs stage = .ok inputs)
      (answer : d.providers.leafPoll calls childJobId = .ok poll) :
      Answers d copy stage a resuming (leafResult poll)
  | other {resuming : Bool} {name : String}
      (authority : d.coordinator.authority stage = .ok (.other name)) :
      Answers d copy stage a resuming
        { status := .failed, error := some ("Unknown authority: " ++ name) }

/-- The leaf client raises. -/
def Providers.LeafRaises (providers : Providers) : Prop :=
  (∃ calls stage inputs state key e, providers.leafSubmit calls stage inputs state key = .error e) ∨
    ∃ calls childJobId e, providers.leafPoll calls childJobId = .error e

/-- Why an attempt is still RUNNING when the call ends: it is pending, its result is refused, or
the leaf client has raised. -/
inductive Stalls (d : Deployment) (now : String) (copy : PipelineRunState) (stage : Stage)
    (a : StageAttempt) (resuming : Bool) : Prop where
  | pending {result : StageResult} (answers : Answers d copy stage a resuming result)
      (isOpen : result.status.isOpen = true)
  | refused {result : StageResult} (answers : Answers d copy stage a resuming result)
      (closed : result.status.isOpen = false)
      (unrecordable : ∀ output artifact, ¬ Recordable now stage result output artifact)
  | raised (authority : d.coordinator.authority stage = .ok .leaf)
      (bound : ∃ inputs, copy.materializeStageInputs stage = .ok inputs)
      (raises : d.providers.LeafRaises)

/-- The attempt is still RUNNING: it is `b` that is stored. -/
structure Waits (d : Deployment) (now : String) (copy : PipelineRunState) (stage : Stage)
    (a : StageAttempt) (resuming : Bool) (b : StageAttempt) : Prop where
  stalls : Stalls d now copy stage a resuming
  running : b.status = .running
  same : b.attempt = a.attempt
  handled : b.providerHandle ≠ a.providerHandle →
    ∃ result, Answers d copy stage a resuming result ∧ result.status.isOpen = true

/-- The attempt was executed: it has a result that is recorded and answered, or is RUNNING. -/
inductive Executed (d : Deployment) (now : String) (copy : PipelineRunState) (stage : Stage)
    (a : StageAttempt) (resuming : Bool) : PipelineRunState × List RunEvent → Prop where
  | answered {result : StageResult} {output : Fields} {artifact : Option ArtifactRef}
      (children : List ChildJobRef) (answers : Answers d copy stage a resuming result)
      (closed : result.status.isOpen = false)
      (recordable : Recordable now stage result output artifact) :
      Executed d now copy stage a resuming
        ((recordedState stage { copy with childJobs := children } a result output
          artifact).afterResult stage result (recordedAttempt a result output).error)
  | waiting {b : StageAttempt} {events : List RunEvent} (children : List ChildJobRef)
      (waits : Waits d now copy stage a resuming b)
      (quiet : events = [] ∨ events = [.externalHandleSaved stage.id a.attempt]) :
      Executed d now copy stage a resuming
        ({ copy.setLatestAttempt stage.id b with childJobs := children }, events)

/-- What a call has stored and logged, whatever it returns. -/
def Stores (runId : String) (w : World) (next : PipelineRunState × List RunEvent) (w' : World) :
    Prop :=
  w'.states runId = some next.1 ∧ w'.events runId = w.events runId ++ next.2

theorem Leaves.stores {runId : String} {w w₁ w' : World}
    {next : PipelineRunState × List RunEvent} {r : Except CoordinatorError PipelineRunState}
    (h : Leaves w₁ next r w') (hrun : next.1.runId = runId) (hevents : w₁.events = w.events) :
    Stores runId w next w' := by
  subst hrun
  refine ⟨h.stored, ?_⟩
  rw [h.logged, hevents]

def Quiet (w w' : World) : Prop := w'.states = w.states ∧ w'.events = w.events

section Execution

variable {d : Deployment} {now : String} {copy : PipelineRunState} {stage : Stage}
  {a : StageAttempt} {resuming : Bool} {w : World}

variable {α : Type}

theorem ends_send {providers : Providers} {c : Cmd} {f : Reply c → Method α}
    {Q : Except CoordinatorError α → World → Prop}
    (h : Ends (exec providers) (f (exec providers c w).1) Q (exec providers c w).2) :
    Ends (exec providers) (send c >>= f) Q w := h

variable {inputs : Option Fields} {authority : Authority}

/-- What is stored while an attempt is executed: the copy, or the state that it was made of. -/
def HoldsCopy (copy : PipelineRunState) (stage : Stage) (a : StageAttempt) (w : World) : Prop :=
  ∃ b : StageAttempt, b.status = .running ∧ b.attempt = a.attempt ∧
    b.providerHandle = a.providerHandle ∧
    w.states copy.runId = some (copy.setLatestAttempt stage.id b)

/-- The attempt was executed, and what that makes of the copy is stored. -/
def Executes (d : Deployment) (now : String) (copy : PipelineRunState) (stage : Stage)
    (a : StageAttempt) (resuming : Bool) (w w' : World) : Prop :=
  ∃ next, Executed d now copy stage a resuming next ∧ Stores copy.runId w next w'

/-- A call that stops here leaves the attempt RUNNING. -/
theorem HoldsCopy.executed (h : HoldsCopy copy stage a w')
    (hstalls : Stalls d now copy stage a resuming) (hevents : w'.events = w.events) :
    Executes d now copy stage a resuming w w' := by
  obtain ⟨b, hrunning, hsame, hhandle, hstates⟩ := h
  have hwaits : Waits d now copy stage a resuming b :=
    ⟨hstalls, hrunning, hsame, fun hne => absurd hhandle hne⟩
  refine ⟨_, .waiting copy.childJobs hwaits (Or.inl rfl), hstates, ?_⟩
  rw [hevents]
  exact (append_nil _).symm

end Execution

/-! ## One call -/

/-- The attempt that a call executes: a fresh one, whose start is saved and logged, or the one
that is RUNNING. -/
inductive Begun (coordinator : PipelineCoordinator) (state : PipelineRunState) (stage : Stage) :
    Bool → StageAttempt → PipelineRunState → List RunEvent → Prop where
  | fresh {authority : Authority} (resolved : coordinator.authority stage = .ok authority)
      (idle : state.latestStageStatus stage.id ≠ some .running) :
      Begun coordinator state stage false (coordinator.nextAttempt state stage.id)
        (state.appendAttempt stage.id (coordinator.nextAttempt state stage.id))
        [.stageStarted stage.id authority (coordinator.nextAttempt state stage.id).attempt
          (coordinator.nextAttempt state stage.id).idempotencyKey]
  | resumed {authority : Authority} {running : StageAttempt}
      (resolved : coordinator.authority stage = .ok authority)
      (latest : state.latestAttempt stage.id = some running) (status : running.status = .running) :
      Begun coordinator state stage true (coordinator.resumedAttempt state stage.id running)
        (state.setLatestAttempt stage.id (coordinator.resumedAttempt state stage.id running)) []

/-- The head of the correction queue is a stage of the plan, unless the queue has to wait. -/
def PipelineRunState.Enters (state : PipelineRunState) : Prop :=
  ∀ next remaining, state.pendingStageIds = next :: remaining → state.currentStageRunning = false →
    state.compiledPipeline.stage? next ≠ none

/-- One call of `advance` on a run that is not terminal: the state that is stored when it ends,
and the events that it has appended. -/
inductive Advances (d : Deployment) (now : String) (state : PipelineRunState) :
    PipelineRunState × List RunEvent → Prop where
  | dropped {next : String} {remaining : List String}
      (pending : state.pendingStageIds = next :: remaining)
      (idle : state.currentStageRunning = false)
      (missing : state.compiledPipeline.stage? next = none) :
      Advances d now state ({ state with pendingStageIds := remaining }, [])
  | exhausted (enters : state.Enters) (current : state.entered.currentStage = none) :
      Advances d now state (state.entered.ended .success "All stages completed")
  | unresolved {stage : Stage} {e : String} (enters : state.Enters)
      (current : state.entered.currentStage = some stage)
      (refused : d.coordinator.authority stage = .error e) :
      Advances d now state (state.entered, [])
  | skipped {stage : Stage} (enters : state.Enters)
      (current : state.entered.currentStage = some stage)
      (skips : state.entered.skipsCompleted stage.id = true) :
      Advances d now state state.entered.movesOn
  | executed {stage : Stage} {resuming : Bool} {a : StageAttempt} {copy : PipelineRunState}
      {events : List RunEvent} {next : PipelineRunState × List RunEvent} (enters : state.Enters)
      (current : state.entered.currentStage = some stage)
      (due : state.entered.skipsCompleted stage.id = false)
      (begun : Begun d.coordinator state.entered stage resuming a copy events)
      (executed : Executed d now copy stage a resuming next) :
      Advances d now state (next.1, events ++ next.2)

section Call

variable {d : Deployment} {now : String} {state : PipelineRunState} {w : World} {resuming : Bool}

variable {copy passed : PipelineRunState} {coordinator : PipelineCoordinator} {a : StageAttempt}

variable {events : List RunEvent} {providers : Providers} {stage : Stage}

/-- The attempt that is executed is the latest one of its copy, and is RUNNING. -/
theorem Begun.attempt (h : Begun coordinator state stage resuming a copy events) :
    copy.latestAttempt stage.id = some a ∧ a.status = .running := by
  cases h with
  | fresh resolved idle => exact ⟨latestAttempt_appendAttempt state stage.id _, rfl⟩
  | resumed resolved latest status => exact ⟨latestAttempt_setLatestAttempt state stage.id _, status⟩

theorem ends_loadState {runId : String}
    {f : Option PipelineRunState → Method α} {Q : Except CoordinatorError α → World → Prop}
    (h : Ends (exec providers) (f (w.states runId)) Q w) :
    Ends (exec providers) (loadState runId >>= f) Q w := h

/-- A call has made one step of the run, which is stored. -/
def Steps (d : Deployment) (now : String) (state : PipelineRunState) (w w' : World) : Prop :=
  ∃ next, Advances d now state next ∧ Stores state.runId w next w'

theorem Begun.same
    (h : Begun coordinator state stage resuming a copy events) : SameRun state copy := by
  cases h with
  | fresh | resumed => exact ⟨rfl, rfl, rfl, rfl, rfl⟩

theorem Advances.same {next : PipelineRunState × List RunEvent} (h : Advances d now state next) :
    SameRun state next.1 := by
  cases h with
  | dropped => exact ⟨rfl, rfl, rfl, rfl, rfl⟩
  | exhausted => exact (entered_same state).trans (ended_same _ _ _)
  | unresolved => exact entered_same state
  | skipped => exact (entered_same state).trans (movesOn_same _)
  | @executed stage resuming a copy events next enters current due begun executed =>
    refine (entered_same state).trans (begun.same.trans ?_)
    cases executed with
    | waiting => exact ⟨rfl, rfl, rfl, rfl, rfl⟩
    | answered children answers closed recordable =>
      refine SameRun.trans ?_ (afterResult_same _ _ _ _)
      rw [recordedState_eq]
      exact ⟨rfl, rfl, rfl, rfl, rfl⟩

end Call

/-! ## Any number of calls -/

namespace Deployment

variable (d : Deployment) {state : PipelineRunState} {params : Fields} {w : World}

variable {d} {runId : String} {pipeline : CompiledPipeline} {requestParams : Fields} {now : String}

end Deployment

end GpuManager.Coordinator
