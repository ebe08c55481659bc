import GpuManager.Coordinator.Store

/-!
# `PipelineCoordinator`

`advance` moves a run by one step: it reloads the state, cascades a requested cancellation,
takes the next stage of the correction queue under the cursor, starts or resumes an attempt,
executes it, records its result, and moves the cursor.  In between it saves the whole state
many times; what a save answers is not looked at.

The source mutates one object and saves it; here each update is a new state, and the save names
the place it stands at.
-/

namespace GpuManager.Coordinator

open AtomicProgram RedisCoordinatorStore

/-- The injected resolver of authorities, and the digest of idempotency keys. -/
structure PipelineCoordinator where
  authority : Stage → Except String Authority
  sha256 : String → String

namespace PipelineCoordinator

/-- `_terminalize`. -/
def terminalize (state : PipelineRunState) (code : TerminalCode) (reason : String) :
    Method PipelineRunState :=
  if state.status.isTerminal then pure state
  else do
    let state := state.terminal code reason
    let _ ← saveState .terminal state
    let _ ← appendEvent state.runId (.terminalized code state.terminalReason state.artifact)
    pure state

/-- `_advance_to_next_stage`. -/
def advanceToNextStage (state : PipelineRunState) : Method PipelineRunState :=
  if state.pendingStageIds ≠ [] then do
    let state := { state with currentStageId := none }
    let _ ← saveState .queued state
    pure state
  else
    match state.firstReadyStageId with
    | none =>
      if state.requiredStages.all fun stage => state.stageSettled stage.id then
        terminalize state .success "All stages completed"
      else
        terminalize state .coordinatorError
          "no dependency-ready stage remains; workflow state is inconsistent"
    | some nextStageId =>
      if some nextStageId = state.currentStageId then do
        let _ ← saveState .stayed state
        pure state
      else if state.compiledPipeline.stage? nextStageId = none then
        terminalize state .success "All stages completed"
      else do
        let previousStageId := state.currentStageId
        let state := { state with currentStageId := some nextStageId, cursorNote := none }
        let _ ← saveState .moved state
        let _ ← appendEvent state.runId (.stageAdvanced nextStageId previousStageId)
        pure state

/-- The loop that a failed verdict triggers: its id, the correction stage, the continuation
and the bound.  Without a declared loop the first correction stage is used. -/
def correctionLoop (state : PipelineRunState) (verdict : QCVerdict) :
    Option (String × String × List String × ℕ) :=
  match state.compiledPipeline.loops.find? fun l => l.triggerStageId = verdict.stageId with
  | some l => some (l.id, l.correctionStageId, l.onCorrection, l.maxIterations)
  | none =>
    (state.compiledPipeline.stages.find? fun s => s.kind = .correct).map fun s =>
      (s.id, s.id, [], state.maxCorrections)

/-- The continuation of a failed verdict: a declared one, or one stage of the plan. -/
theorem correctionLoop_cases {state : PipelineRunState} {verdict : QCVerdict}
    {loopId correctionStageId : String} {onCorrection : List String} {loopMax : ℕ}
    (h : correctionLoop state verdict = some (loopId, correctionStageId, onCorrection, loopMax)) :
    (∃ loop ∈ state.compiledPipeline.loops, loopId = loop.id ∧
        correctionStageId = loop.correctionStageId ∧ onCorrection = loop.onCorrection ∧
        loopMax = loop.maxIterations) ∨
      (∃ stage, state.compiledPipeline.stages.find? (fun s => s.kind = .correct) = some stage ∧
        loopId = stage.id ∧ correctionStageId = stage.id) ∧ onCorrection = [] ∧
        loopMax = state.maxCorrections := by
  unfold correctionLoop at h
  split at h
  · rename_i loop hloop
    cases h
    exact Or.inl ⟨loop, List.mem_of_find?_eq_some hloop, rfl, rfl, rfl, rfl⟩
  · obtain ⟨stage, hstage, heq⟩ := Option.map_eq_some_iff.mp h
    cases heq
    exact Or.inr ⟨⟨stage, hstage, rfl, rfl⟩, rfl, rfl⟩

/-- `_handle_qc_result`. -/
def handleQcResult (state : PipelineRunState) (verdict : QCVerdict) : Method PipelineRunState := do
  let _ ← appendEvent state.runId (.qcResult verdict.stageId verdict.passed verdict.report)
  if verdict.passed then
    if state.artifact.isSome then do
      let state := { state with lastGoodArtifact := state.artifact }
      let _ ← saveState .lastGood state
      advanceToNextStage state
    else advanceToNextStage state
  else
    match correctionLoop state verdict with
    | none => terminalize state .qcExhausted "QC failed but no correct stage defined"
    | some (loopId, correctionStageId, onCorrection, loopMax) =>
      let loopIterations := state.loopIterations loopId
      if loopMax ≤ loopIterations then
        terminalize state .qcExhausted
          ("QC failed after " ++ toString loopIterations ++ "/" ++ toString loopMax ++
            " correction iterations")
      else do
        let state := state.scheduleCorrection loopId correctionStageId onCorrection
        let _ ← saveState .correction state
        let _ ← appendEvent state.runId
          (.correctionStarted correctionStageId loopId (state.loopIterations loopId) onCorrection)
        pure state

/-- `needle in text`. -/
def contains (needle text : String) : Bool :=
  text.toList.tails.any needle.toList.isPrefixOf

def failureCode (stage : Stage) (errorText : String) : TerminalCode :=
  if stage.kind.isGeneration then .leafError
  else if contains "timeout" errorText.toLower then .providerTimeout
  else .providerError

/-- `_handle_stage_failure`. -/
def handleStageFailure (state : PipelineRunState) (failedStage : Stage) (error : Option String) :
    Method PipelineRunState :=
  let errorText := (PythonText.nonempty error).getD "unknown"
  if contains "unsafe_external_resume" errorText then
    terminalize state .unsafeResume
      ("Stage " ++ failedStage.id ++ " outcome is unknown: " ++ errorText)
  else
    let maxAttempts := failedStage.maxAttempts
    let currentAttempt := ((state.latestAttempt failedStage.id).map StageAttempt.attempt).getD 1
    if currentAttempt < maxAttempts then do
      let state :=
        { state with
          currentStageId := some failedStage.id
          cursorNote := some (.retryAttempt (currentAttempt + 1) maxAttempts) }
      let _ ← saveState .retry state
      let _ ← appendEvent state.runId
        (.stageRetryScheduled failedStage.id (currentAttempt + 1) maxAttempts)
      pure state
    else
      terminalize state (failureCode failedStage errorText)
        ("Stage " ++ failedStage.id ++ " failed: " ++ errorText)

/-! ## Recording a result -/

/-- The artifact of a result; a missing key is a `KeyError`. -/
def artifactRef (stageId now : String) :
    Option ArtifactReply → Except CoordinatorError (Option ArtifactRef)
  | none => .ok none
  | some ⟨some pathOrUrl, some sha256, _⟩ => .ok (some ⟨pathOrUrl, sha256, stageId, now⟩)
  | some ⟨none, _, _⟩ => .error (.keyError "path_or_url")
  | some ⟨some _, none, _⟩ => .error (.keyError "sha256")

def sanitizeOutput (output : Fields) : Except CoordinatorError Fields :=
  match deepSanitize "$" (.obj output) with
  | .ok (.obj fields) => .ok fields
  | .ok _ => .ok []
  | .error e => .error (.valueError e)

def recordedAttempt (a : StageAttempt) (result : StageResult) (output : Fields) : StageAttempt :=
  let recorded : StageAttempt :=
    { a with
      status := if result.status = .completed then .completed else .failed
      error := result.error
      output := output
      qcVerdict := result.qcVerdict.or a.qcVerdict }
  match result.providerHandle with
  | none => recorded
  | some handle =>
    match providerHandle (some handle) with
    | .ok handle => { recorded with providerHandle := some handle }
    | .error e =>
      { recorded with status := .failed, error := some ("invalid provider_handle: " ++ e) }

/-- The status of a result once its provider handle is validated. -/
def validatedStatus (result : StageResult) : ResultStatus :=
  match result.providerHandle with
  | none => result.status
  | some handle =>
    match providerHandle (some handle) with
    | .ok _ => result.status
    | .error _ => .failed

/-- The state with the result of the attempt recorded. -/
def recordedState (stage : Stage) (state : PipelineRunState) (a : StageAttempt)
    (result : StageResult) (output : Fields) (artifact : Option ArtifactRef) : PipelineRunState :=
  ((state.setLatestAttempt stage.id (recordedAttempt a result output)).appendVerdict stage.id
    result.qcVerdict).publishArtifact stage artifact

/-- From "Record terminal attempt result" to the end of `advance`. -/
def recordResult (now : String) (stage : Stage) (state : PipelineRunState) (a : StageAttempt)
    (result : StageResult) : Method PipelineRunState :=
  if result.status = .missing then .throw (.keyError "status")
  else
    match sanitizeOutput result.output, artifactRef stage.id now result.artifact with
    | .error e, _ => .throw e
    | .ok _, .error e => .throw e
    | .ok output, .ok artifact => do
        let recorded := recordedAttempt a result output
        let state := recordedState stage state a result output artifact
        let _ ← saveState (.recorded stage.id result) state
        if validatedStatus result = .failed then handleStageFailure state stage recorded.error
        else
          match result.qcVerdict, stage.kind with
          | some verdict, .qc => handleQcResult state verdict
          | _, _ => advanceToNextStage state

def settleResult (now : String) (authority : Authority) (stage : Stage) (state : PipelineRunState)
    (a : StageAttempt) (result : StageResult) : Method PipelineRunState :=
  if result.status.isOpen then
    match authority with
    | .external =>
      match providerHandle result.providerHandle with
      | .error e =>
        recordResult now stage state a
          { status := .failed, error := some ("unsafe_external_resume: " ++ e) }
      | .ok handle => do
          let state := state.setLatestAttempt stage.id { a with providerHandle := some handle }
          let _ ← saveState .handleSaved state
          let _ ← appendEvent state.runId (.externalHandleSaved stage.id a.attempt)
          pure state
    | _ => do
        let _ ← saveState .inFlight state
        pure state
  else recordResult now stage state a result

/-! ## Execution -/

/-- An exception of the external executor is the outcome of the attempt. -/
def externalOutcome : Except String StageResult → StageResult
  | .ok result => result
  | .error e =>
    { status := .failed, error := some ("external_adapter_failed: " ++ PythonText.slice 1000 e) }

/-- A resumed attempt is polled by its handle; without one its outcome is unknown. -/
def executeExternal (stage : Stage) (resolvedInputs : Option Fields) (state : PipelineRunState)
    (a : StageAttempt) (resuming : Bool) : Method StageResult :=
  if resuming then
    match PythonText.nonempty a.providerHandle with
    | some handle => do
        let answer ← send (.poll stage resolvedInputs state a.idempotencyKey handle)
        pure (externalOutcome answer)
    | none =>
      pure
        { status := .failed
          error := some ("unsafe_external_resume: prior delivery outcome is unknown for stage " ++
            stage.id) }
  else do
    let answer ← send (.execute stage resolvedInputs state a.idempotencyKey)
    pure (externalOutcome answer)

/-- `LeafGenerationClient.poll`, whose exceptions are not caught. -/
def leafPoll (childJobId : String) : Method LeafPoll := do
  match ← send (.leafPoll childJobId) with
  | .ok poll => pure poll
  | .error e => .throw (.leafError e)

/-- The newest of the earlier children that is queued, in flight or completed. -/
def reusableChild : List (ChildJobRef × ℕ) → Method (Option (String × ℕ))
  | [] => pure none
  | (candidate, i) :: candidates => do
      match ← send (.leafPoll candidate.childJobId) with
      | .error _ => reusableChild candidates
      | .ok prior =>
        match prior.status with
        | .queued | .inFlight | .completed => pure (some (candidate.childJobId, i))
        | _ => reusableChild candidates

/-- The child of the attempt: the one submitted for it, an earlier one, or a new one, which
is saved at once. -/
def childForAttempt (stage : Stage) (resolvedInputs : Option Fields) (state : PipelineRunState)
    (a : StageAttempt) : Method (PipelineRunState × String × ℕ) := do
  match state.childOfAttempt stage.id a.idempotencyKey with
  | some (child, i) => pure (state, child.childJobId, i)
  | none =>
    match ← reusableChild (state.childrenOfStage stage.id) with
    | some (childJobId, i) => pure (state, childJobId, i)
    | none =>
      match ← send (.leafSubmit stage resolvedInputs state a.idempotencyKey) with
      | .error e => .throw (.leafError e)
      | .ok childJobId => do
          let child : ChildJobRef :=
            { childJobId := childJobId, stageId := stage.id, idempotencyKey := a.idempotencyKey }
          let i := state.childJobs.length
          let state := { state with childJobs := state.childJobs ++ [child] }
          let _ ← saveState .childAccepted state
          pure (state, childJobId, i)

def artifactJson (artifact : ArtifactReply) : Json :=
  .obj ((artifact.pathOrUrl.map fun path => ("path_or_url", Json.str path)).toList ++
    (artifact.sha256.map fun sha => ("sha256", Json.str sha)).toList ++ artifact.others)

/-- `{**output, key: value}`. -/
def setField (output : Fields) (key : String) (value : Json) : Fields :=
  if output.any fun f => f.1 == key then
    output.map fun f => if f.1 == key then (key, value) else f
  else output ++ [(key, value)]

/-- The text of an unknown status. -/
def childStatusText : ChildStatus → String
  | .queued => "queued"
  | .inFlight => "in_flight"
  | .completed => "completed"
  | .failed => "failed"
  | .cancelled => "cancelled"
  | .other status => status

def leafResult (poll : LeafPoll) : StageResult :=
  match poll.status with
  | .completed =>
    { status := .completed
      output :=
        match poll.artifact with
        | some artifact => setField poll.output "artifact" (artifactJson artifact)
        | none => poll.output
      artifact := poll.artifact
      qcVerdict := poll.qcVerdict }
  | .failed => { status := .failed, error := some (poll.error.getD "leaf generation failed") }
  | .queued => { status := .queued }
  | .inFlight => { status := .inFlight }
  | status => { status := .failed, error := some ("Unknown child status: " ++ childStatusText status) }

/-- `_execute_leaf`. -/
def executeLeaf (stage : Stage) (resolvedInputs : Option Fields) (state : PipelineRunState)
    (a : StageAttempt) : Method (PipelineRunState × StageResult) := do
  let (state, childJobId, i) ← childForAttempt stage resolvedInputs state a
  let poll ← leafPoll childJobId
  let state := state.setChildStatus i poll.status
  let _ ← saveState .childPolled state
  pure (state, leafResult poll)

/-- From "Resolve typed workflow bindings" on: execute the attempt and settle its result. -/
def executeAttempt (now : String) (authority : Authority) (stage : Stage)
    (state : PipelineRunState) (a : StageAttempt) (resuming : Bool) : Method PipelineRunState :=
  match state.materializeStageInputs stage with
  | .error e =>
    settleResult now authority stage state a
      { status := .failed, error := some ("binding_resolution_failed: " ++ e) }
  | .ok resolvedInputs =>
    match authority with
    | .external => do
        let result ← executeExternal stage resolvedInputs state a resuming
        settleResult now authority stage state a result
    | .leaf => do
        let (state, result) ← executeLeaf stage resolvedInputs state a
        settleResult now authority stage state a result
    | .other name =>
      settleResult now authority stage state a
        { status := .failed, error := some ("Unknown authority: " ++ name) }

section Coordinator

variable (coordinator : PipelineCoordinator)

/-- `_stage_idempotency_key`. -/
def stageIdempotencyKey (parentRunId stageId : String) (attempt : ℕ) : String :=
  coordinator.sha256 (parentRunId ++ ":" ++ stageId ++ ":" ++ toString attempt)

/-- The attempt that is started next. -/
def nextAttempt (state : PipelineRunState) (stageId : String) : StageAttempt :=
  let attempt := (state.stageAttempts stageId).length + 1
  { attempt := attempt
    status := .running
    idempotencyKey := coordinator.stageIdempotencyKey state.runId stageId attempt }

def resumedAttempt (state : PipelineRunState) (stageId : String) (a : StageAttempt) :
    StageAttempt :=
  { a with
    idempotencyKey :=
      if a.idempotencyKey = "" then
        coordinator.stageIdempotencyKey state.runId stageId a.attempt
      else a.idempotencyKey }

/-- From "Resolve current stage" on. -/
def runCurrentStage (now : String) (state : PipelineRunState) : Method PipelineRunState :=
  match state.currentStage with
  | none => terminalize state .success "All stages completed"
  | some stage =>
    match coordinator.authority stage with
    | .error e => .throw (.authorityError e)
    | .ok authority =>
      if state.skipsCompleted stage.id then advanceToNextStage state
      else
        match state.latestAttempt stage.id with
        | some ⟨attempt, .running, error, output, qcVerdict, idempotencyKey, handle⟩ =>
          let a := coordinator.resumedAttempt state stage.id
            ⟨attempt, .running, error, output, qcVerdict, idempotencyKey, handle⟩
          executeAttempt now authority stage (state.setLatestAttempt stage.id a) a true
        | _ => do
            let a := coordinator.nextAttempt state stage.id
            let state := state.appendAttempt stage.id a
            let _ ← saveState .started state
            let _ ← appendEvent state.runId
              (.stageStarted stage.id authority a.attempt a.idempotencyKey)
            executeAttempt now authority stage state a false

/-! ## Cancellation -/

/-- The children as the cascade leaves them, those it stopped and those it could not stop. -/
structure Stops where
  children : List ChildJobRef := []
  stopped : List String := []
  unresolved : List String := []

def Stops.append (first rest : Stops) : Stops :=
  ⟨first.children ++ rest.children, first.stopped ++ rest.stopped,
    first.unresolved ++ rest.unresolved⟩

def cancelChild (runId : String) (child : ChildJobRef) : Method Stops :=
  if child.isOver then pure { children := [child] }
  else do
    match ← send (.leafCancel child.childJobId) with
    | .ok true =>
      pure
        { children := [{ child with cancelled := true, status := .cancelled }]
          stopped := [child.childJobId] }
    | .ok false => pure { children := [child], unresolved := ["leaf:" ++ child.childJobId] }
    | .error e => do
        let _ ← appendEvent runId (.cancellationError child.childJobId (PythonText.slice 10000 e))
        pure { children := [child], unresolved := ["leaf:" ++ child.childJobId] }

def cancelChildren (runId : String) : List ChildJobRef → Method Stops
  | [] => pure {}
  | child :: children => do
      let first ← cancelChild runId child
      let rest ← cancelChildren runId children
      pure (first.append rest)

/-- Stop the external execution under the cursor, if there is one; what is unresolved. -/
def cancelExternal (state : PipelineRunState) : Method (List String) :=
  match state.currentStage with
  | none => pure []
  | some stage =>
    if stage.id = "" ∨ state.currentStageRunning = false then pure []
    else
      match coordinator.authority stage with
      | .error e => do
          let _ ← appendEvent state.runId
            (.cancellationError stage.id
              ("authority resolution failed: " ++ PythonText.slice 10000 e))
          pure ["unknown:" ++ stage.id]
      | .ok .external => do
          match ← send (.cancel state.runId stage.id) with
          | .ok true => pure []
          | .ok false => pure ["external:" ++ stage.id]
          | .error e => do
              let _ ← appendEvent state.runId
                (.cancellationError stage.id (PythonText.slice 10000 e))
              pure ["external:" ++ stage.id]
      | .ok _ => pure []

/-- `_cascade_cancellation`. -/
def cascadeCancellation (state : PipelineRunState) : Method PipelineRunState := do
  let _ ← appendEvent state.runId
    (.cancellationCascade (state.childJobs.map ChildJobRef.childJobId) state.currentStageId)
  let unresolvedExternal ← coordinator.cancelExternal state
  let stops ← cancelChildren state.runId state.childJobs
  let unresolved := unresolvedExternal ++ stops.unresolved
  let state :=
    { state with
      childJobs := stops.children
      cancelledChildren := state.cancelledChildren ++ stops.stopped
      cancelled := true
      cancellationIntent := false }
  if unresolved ≠ [] then
    terminalize state .unsafeResume
      ("Cancellation requested but provider stop is unresolved: " ++
        ", ".intercalate (unresolved.take 32))
  else terminalize state .coordinatorCancelled "Cancelled by request"

/-! ## `advance` and the requests -/

/-- `advance`, where `passed` is the state that the caller holds. -/
def advance (now : String) (passed : PipelineRunState) : Method PipelineRunState := do
  let loaded ← loadState passed.runId
  let state := loaded.getD passed
  if state.cancellationIntent && !state.cancelled then coordinator.cascadeCancellation state
  else if state.status.isTerminal then pure state
  else
    match state.pendingStageIds, state.currentStageRunning with
    | nextPending :: remaining, false =>
      if state.compiledPipeline.stage? nextPending = none then do
        let state := { state with pendingStageIds := remaining }
        let _ ← saveState .dropped state
        pure state
      else do
        let state := state.enterPending nextPending remaining
        let _ ← saveState .entered state
        coordinator.runCurrentStage now state
    | _, _ => coordinator.runCurrentStage now state

end Coordinator

def initialState (runId : String) (pipeline : CompiledPipeline) (requestParams : Fields) :
    PipelineRunState :=
  let state : PipelineRunState :=
    { runId := runId
      requestParams := requestParams
      compiledPipeline := pipeline
      maxCorrections := pipeline.maxLoopCount }
  { state with currentStageId := state.firstReadyStageId }

/-- `submit`: the request parameters are sanitized before the run is stored. -/
def submit (runId : String) (pipeline : CompiledPipeline) (requestParams : Fields) :
    Method Bool :=
  match sanitizeOutput requestParams with
  | .error e => .throw e
  | .ok requestParams => submitParent (initialState runId pipeline requestParams)

/-- `request_cancellation`, through the store object of a process. -/
def requestCancellation (store : ℕ) (runId : String) : Method Bool := do
  match ← loadState runId with
  | none => pure false
  | some state =>
    if state.status.isTerminal then pure false
    else if ← saveState .intent { state with cancellationIntent := true } then
      if ← requeueParent store state.runId then do
        let _ ← appendEvent runId .cancellationRequested
        pure true
      else pure false
    else pure false

end PipelineCoordinator

end GpuManager.Coordinator
