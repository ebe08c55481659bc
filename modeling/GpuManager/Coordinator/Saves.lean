import Mathlib.Data.List.Dedup
import GpuManager.Coordinator.Runtime

/-!
# What a client can do

Every statement about the coordinator comes down to its saves: what may be written over what.
`Saves` lists them, one case for each place of the source, with what the client knows at that
place.  It relates the state that is written to the client's own copy, which is what the client
last loaded or saved; whether that copy is still what the store holds is a question about the
run and not about the client.

`monitor` watches one client with its copy and the last few answers of the providers.  The
theorems of this module say that `advance`, `process_one` and the other programs obey it,
whatever they are answered.  Nothing about the programs is unfolded after this module.
-/

namespace GpuManager.Coordinator

open AtomicProgram RedisCoordinatorStore PipelineCoordinator PipelineRunState List
open ControllerPipelineRuntime

structure Local where
  /-- The state that the client last loaded or saved. -/
  base : Option PipelineRunState := none
  /-- The run whose state the client last loaded. -/
  loaded : Option String := none
  /-- The place of its last save since it loaded. -/
  point : Option SavePoint := none
  /-- The external executor was called since the last save. -/
  called : Bool := false
  /-- `correction_started` was appended since the last save. -/
  announced : Bool := false
  /-- The last answer of a child that was polled, until something else is saved. -/
  polled : Option (String × ChildStatus) := none
  /-- The child that was accepted since the last save. -/
  accepted : Option String := none
  /-- The children and the external stages that a cancel call has stopped. -/
  stopped : List String := []
  stoppedStages : List String := []
  /-- The entry of a run that the client has read or taken from its memory. -/
  claimed : Option (String × ℕ) := none
  /-- The entries of the stream that the client has seen. -/
  seen : List (ℕ × String) := []

/-- A client that has saved nothing since it loaded, and has no child to record. -/
def Local.Idle (l : Local) : Prop := l.point = none ∧ l.accepted = none

/-- No result waits for the save that answers it, and no correction for its announcement. -/
def Local.Answered (l : Local) : Prop :=
  match l.point with
  | some (.recorded _ _) | some .lastGood => False
  | some .correction => l.announced = true
  | _ => True

/-- A call does not end between the record of a result and the save that answers it, nor
between the schedule of a correction and its announcement, nor between the acceptance of a child
and its record. -/
def Local.Settled (l : Local) : Prop := l.accepted = none ∧ l.Answered

theorem Local.Idle.point {l : Local} (h : l.Idle) : l.point = none := h.1

theorem Local.Idle.accepted {l : Local} (h : l.Idle) : l.accepted = none := h.2

theorem Local.Settled.accepted {l : Local} (h : l.Settled) : l.accepted = none := h.1

theorem Local.Settled.answered {l : Local} (h : l.Settled) : l.Answered := h.2

theorem Local.Idle.settled {l : Local} (h : l.Idle) : l.Settled := by
  refine ⟨h.accepted, ?_⟩
  unfold Local.Answered
  rw [h.point]
  trivial

theorem Local.Answered.not_recorded {l : Local} (h : l.Answered) (stageId : String)
    (result : StageResult) : l.point ≠ some (.recorded stageId result) := by
  intro hpoint
  unfold Local.Answered at h
  rw [hpoint] at h
  exact h

theorem Local.Answered.not_lastGood {l : Local} (h : l.Answered) : l.point ≠ some .lastGood := by
  intro hpoint
  unfold Local.Answered at h
  rw [hpoint] at h
  exact h

theorem Local.Answered.announced {l : Local} (h : l.Answered)
    (hpoint : l.point = some .correction) : l.announced = true := by
  unfold Local.Answered at h
  rw [hpoint] at h
  exact h

/-- The run is neither terminal nor about to be cancelled. -/
structure Live (state : PipelineRunState) : Prop where
  running : state.status = .running
  wanted : (state.cancellationIntent && !state.cancelled) = false

/-- The stage under the cursor has a RUNNING attempt, and the client holds a copy in which the
attempt has its key. -/
structure Executing (coordinator : PipelineCoordinator) (base : PipelineRunState) (stage : Stage)
    (a : StageAttempt) (copy : PipelineRunState) : Prop where
  live : Live base
  current : base.currentStage = some stage
  latest : ∃ running : StageAttempt, base.latestAttempt stage.id = some running ∧
    running.status = .running ∧ a = coordinator.resumedAttempt base stage.id running
  copy_eq : copy = base.setLatestAttempt stage.id a

/-- The client goes on to the next stage: it has skipped completed work, or has recorded a
result that is neither a failure nor a failed verdict. -/
inductive Onward (l : Local) (base : PipelineRunState) : Prop where
  | skipped {stage : Stage} (current : base.currentStage = some stage)
      (skips : base.skipsCompleted stage.id = true)
      (early : l.point = none ∧ base.pendingStageIds = [] ∨ l.point = some .entered)
  | recorded {stage : Stage} {result : StageResult} (current : base.currentStage = some stage)
      (point : l.point = some (.recorded stage.id result))
      (succeeded : validatedStatus result ≠ .failed)
      (passed : ∀ verdict, result.qcVerdict = some verdict → stage.kind = .qc →
        verdict.passed = true ∧ base.artifact = none)
  | accepted {stage : Stage} (current : base.currentStage = some stage)
      (point : l.point = some .lastGood)

/-- The run ends without success: no stage is ready, or the result that was recorded is a
failure or a failed verdict. -/
inductive Fails (l : Local) (base : PipelineRunState) : Prop where
  | stuck (onward : Onward l base)
  | failure {stage : Stage} {result : StageResult} (current : base.currentStage = some stage)
      (point : l.point = some (.recorded stage.id result))
      (failed : validatedStatus result = .failed)
  | verdict {stage : Stage} {result : StageResult} {verdict : QCVerdict}
      (current : base.currentStage = some stage)
      (point : l.point = some (.recorded stage.id result)) (kind : stage.kind = .qc)
      (verdict_eq : result.qcVerdict = some verdict) (failed : verdict.passed = false)

/-- The child that an attempt of a leaf stage uses: the one that was submitted for it where
there is one. -/
structure Chosen (copy : PipelineRunState) (stage : Stage) (a : StageAttempt) (i : ℕ)
    (child : ChildJobRef) : Prop where
  found : copy.childJobs[i]? = some child
  sameStage : child.stageId = stage.id
  kept : child.cancelled = false
  own : ∀ other j, copy.childOfAttempt stage.id a.idempotencyKey = some (other, j) → j = i

/-- A completed result of a leaf stage is that of the child that was just polled. -/
def Sourced (coordinator : PipelineCoordinator) (l : Local) (copy : PipelineRunState)
    (stage : Stage) (a : StageAttempt) (result : StageResult) : Prop :=
  coordinator.authority stage = .ok .leaf → result.status = .completed →
    l.point = some .childPolled ∧ ∃ i child, Chosen copy stage a i child ∧
      l.polled = some (child.childJobId, .completed)

/-- A child before and after the cascade: untouched, or stopped by a cancel call. -/
def ChildStops (stopped : List String) (before after : ChildJobRef) : Prop :=
  after = before ∨
    before.isOver = false ∧ before.childJobId ∈ stopped ∧
      after = { before with cancelled := true, status := .cancelled }

def cascaded (base : PipelineRunState) (children : List ChildJobRef) (stopped : List String) :
    PipelineRunState :=
  { base with
    childJobs := children
    cancelledChildren := base.cancelledChildren ++ stopped
    cancelled := true
    cancellationIntent := false }

/-- What is written over the copy `base` at each place. -/
inductive Saves (coordinator : PipelineCoordinator) (l : Local) (base : PipelineRunState) :
    SavePoint → PipelineRunState → Prop where
  | dropped {next : String} {remaining : List String} (live : Live base)
      (pending : base.pendingStageIds = next :: remaining)
      (idle : base.currentStageRunning = false)
      (missing : base.compiledPipeline.stage? next = none) (early : l.point = none) :
      Saves coordinator l base .dropped { base with pendingStageIds := remaining }
  | entered {next : String} {remaining : List String} {stage : Stage} (live : Live base)
      (pending : base.pendingStageIds = next :: remaining)
      (idle : base.currentStageRunning = false)
      (found : base.compiledPipeline.stage? next = some stage) (early : l.point = none) :
      Saves coordinator l base .entered (base.enterPending next remaining)
  | started {stage : Stage} (live : Live base) (current : base.currentStage = some stage)
      (due : base.skipsCompleted stage.id = false)
      (idle : base.latestStageStatus stage.id ≠ some .running)
      (early : l.point = none ∧ base.pendingStageIds = [] ∨ l.point = some .entered) :
      Saves coordinator l base .started
        (base.appendAttempt stage.id (coordinator.nextAttempt base stage.id))
  | childAccepted {stage : Stage} {a : StageAttempt} {copy : PipelineRunState} {childJobId : String}
      (executing : Executing coordinator base stage a copy) (answered : l.Answered)
      (leaf : coordinator.authority stage = .ok .leaf)
      (first : copy.childOfAttempt stage.id a.idempotencyKey = none)
      (accepted : l.accepted = some childJobId) :
      Saves coordinator l base .childAccepted
        { copy with
          childJobs := copy.childJobs ++ [{
            childJobId := childJobId
            stageId := stage.id
            idempotencyKey := a.idempotencyKey }] }
  | childPolled {stage : Stage} {a : StageAttempt} {copy : PipelineRunState} {i : ℕ}
      {child : ChildJobRef} {status : ChildStatus}
      (executing : Executing coordinator base stage a copy) (settled : l.Settled)
      (leaf : coordinator.authority stage = .ok .leaf) (chosen : Chosen copy stage a i child)
      (polled : l.polled = some (child.childJobId, status)) :
      Saves coordinator l base .childPolled (copy.setChildStatus i status)
  | handleSaved {stage : Stage} {a : StageAttempt} {copy : PipelineRunState} {handle : String}
      (executing : Executing coordinator base stage a copy) (settled : l.Settled) :
      Saves coordinator l base .handleSaved
        (copy.setLatestAttempt stage.id { a with providerHandle := some handle })
  | inFlight {stage : Stage} {a : StageAttempt} {copy : PipelineRunState}
      (executing : Executing coordinator base stage a copy) (settled : l.Settled) :
      Saves coordinator l base .inFlight copy
  | recorded {stage : Stage} {a : StageAttempt} {copy : PipelineRunState} {result : StageResult}
      {output : Fields} {artifact : Option ArtifactRef}
      (executing : Executing coordinator base stage a copy) (settled : l.Settled)
      (closed : result.status.isOpen = false)
      (source : Sourced coordinator l copy stage a result)
      (published : artifact.isSome = result.artifact.isSome) :
      Saves coordinator l base (.recorded stage.id result)
        (recordedState stage copy a result output artifact)
  | lastGood {stage : Stage} {result : StageResult} {verdict : QCVerdict} (live : Live base)
      (current : base.currentStage = some stage) (kind : stage.kind = .qc)
      (point : l.point = some (.recorded stage.id result))
      (verdict_eq : result.qcVerdict = some verdict) (passed : verdict.passed = true) :
      Saves coordinator l base .lastGood { base with lastGoodArtifact := base.artifact }
  | correction {stage : Stage} {result : StageResult} {verdict : QCVerdict}
      {loopId correctionStageId : String} {onCorrection : List String} {loopMax : ℕ}
      (live : Live base) (current : base.currentStage = some stage) (kind : stage.kind = .qc)
      (point : l.point = some (.recorded stage.id result))
      (verdict_eq : result.qcVerdict = some verdict) (failed : verdict.passed = false)
      (loop : correctionLoop base verdict = some (loopId, correctionStageId, onCorrection, loopMax))
      (bounded : base.loopIterations loopId < loopMax) :
      Saves coordinator l base .correction
        (base.scheduleCorrection loopId correctionStageId onCorrection)
  | retry {stage : Stage} {result : StageResult} {note : CursorNote} (live : Live base)
      (current : base.currentStage = some stage)
      (point : l.point = some (.recorded stage.id result))
      (failed : validatedStatus result = .failed)
      (budget : ((base.latestAttempt stage.id).map StageAttempt.attempt).getD 1 < stage.maxAttempts) :
      Saves coordinator l base .retry
        { base with currentStageId := some stage.id, cursorNote := some note }
  | queued (live : Live base) (onward : Onward l base) (pending : base.pendingStageIds ≠ []) :
      Saves coordinator l base .queued { base with currentStageId := none }
  | stayed {stageId : String} (live : Live base) (onward : Onward l base)
      (pending : base.pendingStageIds = []) (ready : base.firstReadyStageId = some stageId)
      (current : base.currentStageId = some stageId) : Saves coordinator l base .stayed base
  | moved {stageId : String} (live : Live base) (onward : Onward l base)
      (pending : base.pendingStageIds = []) (ready : base.firstReadyStageId = some stageId)
      (other : base.currentStageId ≠ some stageId) :
      Saves coordinator l base .moved
        { base with currentStageId := some stageId, cursorNote := none }
  | finished {reason : String} (live : Live base) (onward : Onward l base)
      (pending : base.pendingStageIds = []) (ready : base.firstReadyStageId = none)
      (settled : ∀ stage ∈ base.requiredStages, base.stageSettled stage.id = true) :
      Saves coordinator l base .terminal (base.terminal .success reason)
  | exhausted {reason : String} (live : Live base) (current : base.currentStage = none)
      (point : l.point = none)
      (pending : base.pendingStageIds = [] ∨ base.currentStageRunning = true) :
      Saves coordinator l base .terminal (base.terminal .success reason)
  | failed {code : TerminalCode} {reason : String} (live : Live base) (unsuccessful : code ≠ .success)
      (uncancelled : code ≠ .coordinatorCancelled) (cause : Fails l base) :
      Saves coordinator l base .terminal (base.terminal code reason)
  | cascaded {children : List ChildJobRef} {stopped : List String} {code : TerminalCode}
      {reason : String} (running : base.status = .running)
      (intended : base.cancellationIntent = true) (uncancelled : base.cancelled = false)
      (children_eq : List.Forall₂ (ChildStops l.stopped) base.childJobs children)
      (unsuccessful : code ≠ .success)
      (stops : code = .coordinatorCancelled → (∀ child ∈ children, child.isOver = true) ∧
        ∀ stage, base.currentStage = some stage → stage.id ≠ "" → base.currentStageRunning = true →
          coordinator.authority stage = .ok .external → stage.id ∈ l.stoppedStages) :
      Saves coordinator l base .terminal ((cascaded base children stopped).terminal code reason)
  | intent (running : base.status = .running) (early : l.point = none)
      (free : l.accepted = none) :
      Saves coordinator l base .intent { base with cancellationIntent := true }

def Local.allows (coordinator : PipelineCoordinator) (l : Local) : Cmd → Prop
  | .hgetall _ => l.Idle
  | .hset point state => ∃ base, l.base = some base ∧ Saves coordinator l base point state
  | .evalSubmitParent state =>
    ∃ pipeline requestParams, state = initialState state.runId pipeline requestParams
  | .xaddEvent runId (.correctionStarted _ _ _ _) => ∃ base, l.base = some base ∧ base.runId = runId
  | .execute stage _ state idempotencyKey =>
    l.base = some state ∧ l.point = some .started ∧ l.called = false ∧
      state.currentStage = some stage ∧
      ∃ a, state.latestAttempt stage.id = some a ∧ a.idempotencyKey = idempotencyKey
  | .leafSubmit stage _ state idempotencyKey =>
    ∃ base a, l.base = some base ∧ Executing coordinator base stage a state ∧
      coordinator.authority stage = .ok .leaf ∧ a.idempotencyKey = idempotencyKey ∧ l.Settled
  | .cancel runId _ => ∃ base, l.base = some base ∧ base.runId = runId
  | .xack entryIds =>
    (∃ base entryId, l.base = some base ∧ base.status.isTerminal = true ∧
      l.claimed = some (base.runId, entryId) ∧ entryIds = [entryId]) ∨
    ∀ entryId ∈ entryIds, ∃ runId newer, (entryId, runId) ∈ l.seen ∧ (newer, runId) ∈ l.seen ∧
      entryId < newer
  | .replaceParent runId claimedEntryId => l.claimed = some (runId, claimedEntryId)
  | .setEntryId _ runId entryId => (entryId, runId) ∈ l.seen
  | _ => True

/-- What is remembered after a save. -/
def Local.saved (l : Local) (point : SavePoint) (state : PipelineRunState) : Local :=
  { l with
    base := some state
    point := some point
    called := false
    announced := false
    accepted := none
    polled :=
      match point with
      | .childPolled => l.polled
      | _ => none }

/-- What is remembered after a load. -/
def Local.load (l : Local) (runId : String) (state : PipelineRunState) : Local :=
  { l with
    base := some state
    loaded := some runId
    point := none
    polled := none
    accepted := none
    stopped := []
    stoppedStages := [] }

/-- What is remembered of a reply. -/
def Local.note (l : Local) : (c : Cmd) → Reply c → Local
  | .hgetall runId => fun
      | .ok (some state) => l.load runId state
      | _ => l
  | .hset point state => fun _ => l.saved point state
  | .xaddEvent _ event => fun _ =>
    match event with
    | .correctionStarted _ _ _ _ => { l with announced := true }
    | _ => l
  | .execute _ _ _ _ => fun _ => { l with called := true }
  | .leafSubmit _ _ _ _ => fun
      | .ok childJobId => { l with accepted := some childJobId }
      | .error _ => l
  | .leafPoll childJobId => fun
      | .ok poll => { l with polled := some (childJobId, poll.status) }
      | .error _ => l
  | .leafCancel childJobId => fun
      | .ok true => { l with stopped := childJobId :: l.stopped }
      | _ => l
  | .cancel _ stageId => fun
      | .ok true => { l with stoppedStages := stageId :: l.stoppedStages }
      | _ => l
  | .xreadgroup _ => fun
      | .ok (some entry) => { l with seen := entry :: l.seen }
      | _ => l
  | .xrange _ => fun
      | .ok entries => { l with seen := entries ++ l.seen }
      | .error _ => l
  | .xclaim _ _ _ => fun
      | .ok entries => { l with seen := entries ++ l.seen }
      | .error _ => l
  | .getEntryId _ runId => fun entryId => { l with claimed := entryId.map fun id => (runId, id) }
  | .popEntryId _ runId => fun entryId => { l with claimed := entryId.map fun id => (runId, id) }
  | _ => fun _ => l

/-- The monitor of a client. -/
def monitor (coordinator : PipelineCoordinator) : Prog.Monitor Local Cmd Reply :=
  ⟨Local.allows coordinator, Local.note⟩

/-! ## Rules -/

section Rules

variable {coordinator : PipelineCoordinator} {l : Local} {α : Type}
  {Q : Local → Except CoordinatorError α → Prop}

theorem obeys_send {c : Cmd} {f : Reply c → Method α} (h : l.allows coordinator c)
    (hk : ∀ r, (f r).Obeys (monitor coordinator) Q (l.note c r)) :
    (send c >>= f).Obeys (monitor coordinator) Q l :=
  .call h hk

variable {f : Bool → Method α} {runId : String}

/-- A save, whether it succeeds or not. -/
theorem obeys_saveState {point : SavePoint} {base state : PipelineRunState}
    (hbase : l.base = some base) (h : Saves coordinator l base point state)
    (hk : ∀ saved, (f saved).Obeys (monitor coordinator) Q (l.saved point state)) :
    (saveState point state >>= f).Obeys (monitor coordinator) Q l := by
  refine .call ⟨base, hbase, h⟩ fun r => ?_
  cases r with
  | ok _ => exact hk true
  | error _ => exact hk false

theorem obeys_loadState {f : Option PipelineRunState → Method α}
    (hidle : l.Idle) (herror : ∀ e, Q l (.error e))
    (hk : ∀ loaded, (f loaded).Obeys (monitor coordinator) Q (l.note (.hgetall runId) (.ok loaded))) :
    (loadState runId >>= f).Obeys (monitor coordinator) Q l := by
  refine .call hidle fun r => ?_
  cases r with
  | ok loaded => exact hk loaded
  | error _ => exact .done (herror _)

/-- An event other than the announcement of a correction. -/
theorem obeys_appendEvent {event : RunEvent} (h : ∀ c i n on, event ≠ .correctionStarted c i n on)
    (hk : ∀ appended, (f appended).Obeys (monitor coordinator) Q l) :
    (appendEvent runId event >>= f).Obeys (monitor coordinator) Q l := by
  have hallows : l.allows coordinator (.xaddEvent runId event) := by
    cases event with
    | correctionStarted c i n on => exact absurd rfl (h c i n on)
    | _ => trivial
  have hnote : ∀ r, l.note (.xaddEvent runId event) r = l := by
    intro r
    cases event with
    | correctionStarted c i n on => exact absurd rfl (h c i n on)
    | _ => rfl
  refine .call hallows fun r => ?_
  have hnext : (monitor coordinator).next l (.xaddEvent runId event) r = l := hnote r
  rw [hnext]
  cases r with
  | ok _ => exact hk true
  | error _ => exact hk false

end Rules

/-! ## `advance` -/

/-- What a call ends with. -/
def Returned (l : Local) (r : Except CoordinatorError PipelineRunState) : Prop :=
  l.Settled ∧ ∀ state, r = .ok state →
    ∃ base, l.base = some base ∧ state.runId = base.runId ∧ state.status = base.status

theorem returned_ok {l : Local} {state : PipelineRunState} (hsettled : l.Settled)
    (hbase : l.base = some state) : Returned l (.ok state) := by
  refine ⟨hsettled, fun other h => ⟨state, hbase, ?_⟩⟩
  cases h
  exact ⟨rfl, rfl⟩

theorem returned_error {l : Local} {e : CoordinatorError} (hsettled : l.Settled) :
    Returned l (.error e) :=
  ⟨hsettled, fun _ h => by cases h⟩

section Advance

variable {coordinator : PipelineCoordinator} {l : Local} {base state : PipelineRunState}

theorem terminalize_obeys {code : TerminalCode} {reason : String} (hrunning : state.status = .running)
    (hbase : l.base = some base)
    (h : Saves coordinator l base .terminal (state.terminal code reason)) :
    (terminalize state code reason).Obeys (monitor coordinator) Returned l := by
  have hopen : ¬ state.status.isTerminal = true := by simp [hrunning, RunStatus.isTerminal]
  unfold terminalize
  rw [if_neg hopen]
  refine obeys_saveState hbase h fun _ => ?_
  refine obeys_appendEvent nofun fun _ => ?_
  exact .done (returned_ok ⟨rfl, trivial⟩ rfl)

/-- The next stage is entered only after the one before has ended. -/
theorem advanceToNextStage_obeys (hbase : l.base = some state) (hlive : Live state)
    (honward : Onward l state) :
    (advanceToNextStage state).Obeys (monitor coordinator) Returned l := by
  unfold advanceToNextStage
  split
  · rename_i hpending
    refine obeys_saveState hbase (.queued hlive honward hpending) fun _ => ?_
    exact .done (returned_ok ⟨rfl, trivial⟩ rfl)
  · rename_i hpending
    replace hpending : state.pendingStageIds = [] := by simpa using hpending
    split
    · rename_i hready
      split
      · rename_i hsettled
        refine terminalize_obeys hlive.running hbase (.finished hlive honward hpending hready ?_)
        simpa using hsettled
      · exact terminalize_obeys hlive.running hbase (.failed hlive nofun nofun (.stuck honward))
    · rename_i nextStageId hready
      split
      · rename_i hsame
        refine obeys_saveState hbase (.stayed hlive honward hpending hready hsame.symm) fun _ => ?_
        exact .done (returned_ok ⟨rfl, trivial⟩ rfl)
      · rename_i hother
        split
        · -- The ready stage is one of the plan.
          rename_i hmissing
          exfalso
          obtain ⟨stage, hstage, rfl⟩ := Option.map_eq_some_iff.mp hready
          have hmem := mem_of_find?_eq_some hstage
          rw [CompiledPipeline.stage?_of_mem hmem] at hmissing
          cases hmissing
        · refine obeys_saveState hbase
            (.moved hlive honward hpending hready (Ne.symm hother)) fun _ => ?_
          refine obeys_appendEvent nofun fun _ => ?_
          exact .done (returned_ok ⟨rfl, trivial⟩ rfl)

variable {result : StageResult} {stageId now : String}

theorem handleQcResult_obeys {stage : Stage} {verdict : QCVerdict} (hbase : l.base = some state)
    (hlive : Live state) (hcurrent : state.currentStage = some stage) (hkind : stage.kind = .qc)
    (hpoint : l.point = some (.recorded stage.id result))
    (hstatus : validatedStatus result ≠ .failed) (hverdict : result.qcVerdict = some verdict) :
    (handleQcResult state verdict).Obeys (monitor coordinator) Returned l := by
  unfold handleQcResult
  refine obeys_appendEvent nofun fun _ => ?_
  split
  · rename_i hpassed
    split
    · refine obeys_saveState hbase (.lastGood hlive hcurrent hkind hpoint hverdict hpassed) fun _ => ?_
      exact advanceToNextStage_obeys rfl ⟨hlive.running, hlive.wanted⟩ (.accepted hcurrent rfl)
    rename_i hartifact
    refine advanceToNextStage_obeys hbase hlive (.recorded hcurrent hpoint hstatus ?_)
    intro other hother _
    rw [hverdict] at hother
    cases hother
    exact ⟨hpassed, by simpa using hartifact⟩
  · rename_i hfailed
    have hfails : Fails l state :=
      .verdict hcurrent hpoint hkind hverdict (by simpa using hfailed)
    split
    · exact terminalize_obeys hlive.running hbase (.failed hlive nofun nofun hfails)
    rename_i loopId correctionStageId onCorrection loopMax hloop
    simp only
    split
    · exact terminalize_obeys hlive.running hbase (.failed hlive nofun nofun hfails)
    rename_i hbounded
    have hsaves : Saves coordinator l state .correction
        (state.scheduleCorrection loopId correctionStageId onCorrection) :=
      .correction hlive hcurrent hkind hpoint hverdict (by simpa using hfailed) hloop
        (by simpa using hbounded)
    refine obeys_saveState hbase hsaves fun _ => ?_
    refine .call ⟨_, rfl, rfl⟩ fun r => ?_
    cases r with
    | ok _ | error _ => exact .done (returned_ok ⟨rfl, rfl⟩ rfl)

theorem handleStageFailure_obeys {stage : Stage} {error : Option String}
    (hbase : l.base = some state) (hlive : Live state) (hcurrent : state.currentStage = some stage)
    (hpoint : l.point = some (.recorded stage.id result))
    (hstatus : validatedStatus result = .failed) :
    (handleStageFailure state stage error).Obeys (monitor coordinator) Returned l := by
  have hfails : Fails l state := .failure hcurrent hpoint hstatus
  unfold handleStageFailure
  simp only
  split
  · exact terminalize_obeys hlive.running hbase (.failed hlive nofun nofun hfails)
  split
  · rename_i hbudget
    refine obeys_saveState hbase (.retry hlive hcurrent hpoint hstatus hbudget) fun _ => ?_
    refine obeys_appendEvent nofun fun _ => ?_
    exact .done (returned_ok ⟨rfl, trivial⟩ rfl)
  · refine terminalize_obeys hlive.running hbase (.failed hlive ?_ ?_ hfails)
    · unfold failureCode
      split
      · exact nofun
      · split <;> exact nofun
    · unfold failureCode
      split
      · exact nofun
      · split <;> exact nofun

/-! ### Recording -/

/-- What a recorded result changes. -/
theorem recordedState_eq (stage : Stage) (state : PipelineRunState) (a : StageAttempt)
    (result : StageResult) (output : Fields) (artifact : Option ArtifactRef) :
    recordedState stage state a result output artifact =
      { state with
        stageAttempts := Function.update state.stageAttempts stage.id
          ((state.stageAttempts stage.id).dropLast ++ [recordedAttempt a result output])
        stageQcVerdicts := (state.appendVerdict stage.id result.qcVerdict).stageQcVerdicts
        artifact := artifact.or state.artifact
        initialArtifact := (state.publishArtifact stage artifact).initialArtifact } := by
  unfold recordedState
  cases result.qcVerdict <;> cases artifact <;> rfl

variable {stage : Stage} {a : StageAttempt} {copy : PipelineRunState} {authority : Authority}

section

variable (h : Executing coordinator base stage a copy)
include h

theorem Executing.copy_live : Live copy := by
  rw [h.copy_eq]
  exact ⟨h.live.running, h.live.wanted⟩

theorem Executing.copy_current : copy.currentStage = some stage := by
  rw [h.copy_eq]
  exact h.current

theorem Executing.status_eq : a.status = .running := by
  obtain ⟨running, -, hstatus, rfl⟩ := h.latest
  exact hstatus

end

theorem artifactRef_isSome {reply : Option ArtifactReply} {artifact : Option ArtifactRef}
    (h : artifactRef stageId now reply = .ok artifact) : artifact.isSome = reply.isSome := by
  unfold artifactRef at h
  split at h <;> cases h <;> rfl

/-- A result is recorded for the attempt that is executing. -/
theorem recordResult_obeys (hbase : l.base = some base) (hsettled : l.Settled)
    (hexecuting : Executing coordinator base stage a copy) (hclosed : result.status.isOpen = false)
    (hsource : Sourced coordinator l copy stage a result) :
    (recordResult now stage copy a result).Obeys (monitor coordinator) Returned l := by
  unfold recordResult
  split
  · exact .done (returned_error hsettled)
  split
  · exact .done (returned_error hsettled)
  · exact .done (returned_error hsettled)
  rename_i output artifact _ hartifact
  simp only
  refine obeys_saveState hbase
    (.recorded hexecuting hsettled hclosed hsource (artifactRef_isSome hartifact)) fun _ => ?_
  rw [recordedState_eq]
  have hlive := hexecuting.copy_live
  have hcurrent := hexecuting.copy_current
  split
  · rename_i hfailed
    exact handleStageFailure_obeys rfl ⟨hlive.running, hlive.wanted⟩ hcurrent rfl hfailed
  rename_i hstatus
  split
  · rename_i verdict hverdict hkind
    exact handleQcResult_obeys rfl ⟨hlive.running, hlive.wanted⟩ hcurrent hkind rfl hstatus
      hverdict
  · rename_i hother
    refine advanceToNextStage_obeys rfl ⟨hlive.running, hlive.wanted⟩
      (.recorded hcurrent rfl hstatus ?_)
    intro verdict hverdict hkind
    exact absurd hkind (hother verdict hverdict)

theorem settleResult_obeys (hbase : l.base = some base)
    (hsettled : l.Settled) (hexecuting : Executing coordinator base stage a copy)
    (hsource : Sourced coordinator l copy stage a result) :
    (settleResult now authority stage copy a result).Obeys (monitor coordinator) Returned l := by
  unfold settleResult
  split
  · split
    · split
      · exact recordResult_obeys hbase hsettled hexecuting rfl nofun
      refine obeys_saveState hbase (.handleSaved hexecuting hsettled) fun _ => ?_
      refine obeys_appendEvent nofun fun _ => ?_
      exact .done (returned_ok ⟨rfl, trivial⟩ rfl)
    · refine obeys_saveState hbase (.inFlight hexecuting hsettled) fun _ => ?_
      exact .done (returned_ok ⟨rfl, trivial⟩ rfl)
  · rename_i hclosed
    exact recordResult_obeys hbase hsettled hexecuting (by simpa using hclosed) hsource

/-! ### Execution -/

theorem latestAttempt_setLatestAttempt (state : PipelineRunState) (stageId : String)
    (a : StageAttempt) : (state.setLatestAttempt stageId a).latestAttempt stageId = some a := by
  simp [setLatestAttempt, latestAttempt]

theorem setLatestAttempt_setLatestAttempt (state : PipelineRunState) (stageId : String)
    (a b : StageAttempt) :
    (state.setLatestAttempt stageId a).setLatestAttempt stageId b =
      state.setLatestAttempt stageId b := by
  simp [setLatestAttempt]

/-- Writing the latest attempt as it is changes nothing. -/
theorem setLatestAttempt_self
    (h : state.latestAttempt stageId = some a) : state.setLatestAttempt stageId a = state := by
  have hlist : (state.stageAttempts stageId).dropLast ++ [a] = state.stageAttempts stageId :=
    dropLast_append_getLast? a h
  simp [setLatestAttempt, hlist]

/-- An attempt that has its key is resumed as it is. -/
theorem resumedAttempt_resumedAttempt (state other : PipelineRunState) (stageId : String)
    (hrun : other.runId = state.runId) (running : StageAttempt) :
    coordinator.resumedAttempt other stageId (coordinator.resumedAttempt state stageId running) =
      coordinator.resumedAttempt state stageId running := by
  unfold resumedAttempt
  by_cases hkey : running.idempotencyKey = ""
  · simp only [hkey, if_true, hrun]
    split <;> simp_all
  · simp [hkey]

/-- A copy with other children is still a copy of the same execution. -/
theorem Executing.with_children (h : Executing coordinator base stage a copy)
    (children : List ChildJobRef) :
    Executing coordinator { copy with childJobs := children } stage a
      { copy with childJobs := children } := by
  obtain ⟨running, hlatest, hstatus, hresumed⟩ := h.latest
  have hcopy := h.copy_eq
  have hnow : copy.latestAttempt stage.id = some a := by
    rw [hcopy]
    exact latestAttempt_setLatestAttempt base stage.id a
  have hsame : (setLatestAttempt { copy with childJobs := children } stage.id a) =
      { copy with childJobs := children } := setLatestAttempt_self hnow
  refine ⟨⟨h.copy_live.running, h.copy_live.wanted⟩, h.copy_current, ⟨a, hnow, ?_, ?_⟩, hsame.symm⟩
  · rw [hresumed]
    exact hstatus
  · rw [hresumed]
    refine (resumedAttempt_resumedAttempt base _ stage.id ?_ running).symm
    rw [hcopy]
    rfl

variable {resolvedInputs : Option Fields} {child : ChildJobRef} {i : ℕ} {resuming : Bool}

theorem executeExternal_obeys (hbase : l.base = some base) (hsettled : l.Settled)
    (hexecuting : Executing coordinator base stage a copy)
    (hauthority : coordinator.authority stage = .ok .external)
    (hfresh : resuming = false → copy = base ∧ l.point = some .started ∧ l.called = false) :
    (executeExternal stage resolvedInputs copy a resuming >>=
      settleResult now .external stage copy a).Obeys (monitor coordinator) Returned l := by
  have hexternal : ∀ (l : Local) (result : StageResult),
      Sourced coordinator l copy stage a result := by
    intro l result hleaf
    rw [hauthority] at hleaf
    cases hleaf
  unfold executeExternal
  split
  · split
    · refine .call trivial fun r => ?_
      exact settleResult_obeys hbase hsettled hexecuting (hexternal _ _)
    · rw [Prog.pure_eq, Prog.bind_done_ok]
      exact settleResult_obeys hbase hsettled hexecuting (hexternal _ _)
  · rename_i hresuming
    obtain ⟨rfl, hpoint, hcalled⟩ := hfresh (by simpa using hresuming)
    have hlatest : copy.latestAttempt stage.id = some a := by
      rw [hexecuting.copy_eq]
      exact latestAttempt_setLatestAttempt copy stage.id a
    refine .call ⟨hbase, hpoint, hcalled, hexecuting.current, a, hlatest, rfl⟩ fun r => ?_
    exact settleResult_obeys hbase hsettled hexecuting (hexternal _ _)

/-- What is known once the child of the attempt is chosen. -/
def ChildChosen (coordinator : PipelineCoordinator) (stage : Stage) (a : StageAttempt) (l : Local)
    (chosen : PipelineRunState × String × ℕ) : Prop :=
  l.Settled ∧ ∃ base child, l.base = some base ∧ Executing coordinator base stage a chosen.1 ∧
    Chosen chosen.1 stage a chosen.2.2 child ∧ child.childJobId = chosen.2.1

/-- The client has made no save, and what it knows of stops has only grown. -/
structure SameCopy (l l' : Local) : Prop where
  base : l'.base = l.base
  point : l'.point = l.point
  announced : l'.announced = l.announced
  accepted : l'.accepted = l.accepted
  stopped : l.stopped ⊆ l'.stopped
  stoppedStages : l.stoppedStages ⊆ l'.stoppedStages

theorem SameCopy.refl (l : Local) : SameCopy l l :=
  ⟨rfl, rfl, rfl, rfl, Subset.refl _, Subset.refl _⟩

theorem SameCopy.settled {l' : Local} (h : SameCopy l l') (hsettled : l.Settled) :
    l'.Settled := by
  refine ⟨h.accepted.trans hsettled.accepted, ?_⟩
  have hanswered := hsettled.answered
  unfold Local.Answered at hanswered ⊢
  rw [h.point, h.announced]
  exact hanswered

theorem note_leafPoll (l : Local) (childJobId : String) (r : Reply (.leafPoll childJobId)) :
    SameCopy l (l.note (.leafPoll childJobId) r) := by
  cases r with
  | ok _ => exact ⟨rfl, rfl, rfl, rfl, Subset.refl _, Subset.refl _⟩
  | error _ => exact SameCopy.refl l

theorem SameCopy.trans {l' l'' : Local} (h : SameCopy l l')
    (h' : SameCopy l' l'') : SameCopy l l'' :=
  ⟨h'.base.trans h.base, h'.point.trans h.point, h'.announced.trans h.announced,
    h'.accepted.trans h.accepted, Subset.trans h.stopped h'.stopped,
    Subset.trans h.stoppedStages h'.stoppedStages⟩

theorem reusableChild_obeys (candidates : List (ChildJobRef × ℕ)) (l : Local) :
    (reusableChild candidates).Obeys (monitor coordinator)
      (fun l' r => SameCopy l l' ∧ ∀ childJobId i, r = .ok (some (childJobId, i)) →
        ∃ child, (child, i) ∈ candidates ∧ child.childJobId = childJobId) l := by
  induction candidates generalizing l with
  | nil => exact .done ⟨SameCopy.refl l, fun _ _ h => by cases h⟩
  | cons head candidates ih =>
    obtain ⟨candidate, i⟩ := head
    unfold reusableChild
    refine obeys_send trivial fun r => ?_
    have hsame := note_leafPoll l candidate.childJobId r
    have hrest : (reusableChild candidates).Obeys (monitor coordinator)
        (fun l' r => SameCopy l l' ∧ ∀ childJobId j, r = .ok (some (childJobId, j)) →
          ∃ child, (child, j) ∈ (candidate, i) :: candidates ∧ child.childJobId = childJobId)
        (l.note (.leafPoll candidate.childJobId) r) := by
      refine (ih _).mono ?_
      rintro l' r ⟨hl', hfound⟩
      refine ⟨hsame.trans hl', fun childJobId j h => ?_⟩
      obtain ⟨child, hmem, hid⟩ := hfound childJobId j h
      exact ⟨child, mem_cons_of_mem _ hmem, hid⟩
    cases r with
    | error _ => exact hrest
    | ok prior =>
      simp only
      split
      all_goals first
        | exact hrest
        | refine .done ⟨hsame, fun childJobId j h => ?_⟩
          cases h
          exact ⟨candidate, mem_cons_self, rfl⟩

/-- A stage that is ready has not completed. -/
theorem not_completed_of_ready (h : state.firstReadyStageId = some stageId) :
    state.latestStageStatus stageId ≠ some .completed := by
  obtain ⟨stage, hstage, rfl⟩ := Option.map_eq_some_iff.mp h
  have hready := find?_some hstage
  simp only [stageReady, Bool.and_eq_true, Bool.not_eq_true'] at hready
  intro hcompleted
  have hsettled := hready.2.1.2
  unfold stageSettled at hsettled
  rw [hcompleted] at hsettled
  cases hsettled

theorem mem_childrenOfStage (h : (child, i) ∈ state.childrenOfStage stageId) :
    state.childJobs[i]? = some child ∧ child.stageId = stageId ∧ child.cancelled = false := by
  unfold childrenOfStage at h
  rw [mem_filter, mem_reverse, mem_zipIdx_iff_getElem?] at h
  simp only [Bool.and_eq_true, Bool.not_eq_true', beq_iff_eq] at h
  exact h

theorem mem_of_childOfAttempt {key : String}
    (h : state.childOfAttempt stageId key = some (child, i)) :
    state.childJobs[i]? = some child ∧ child.stageId = stageId ∧ child.idempotencyKey = key ∧
      child.cancelled = false := by
  unfold childOfAttempt at h
  have hmem := mem_of_find?_eq_some h
  have hfound := find?_some h
  rw [mem_reverse, mem_zipIdx_iff_getElem?] at hmem
  simp only [Bool.and_eq_true, Bool.not_eq_true', beq_iff_eq] at hfound
  exact ⟨hmem, hfound.1.1, hfound.1.2, hfound.2⟩

/-- The child that was just appended is the newest. -/
theorem childOfAttempt_append (state : PipelineRunState) (child : ChildJobRef)
    (hkept : child.cancelled = false) :
    childOfAttempt { state with childJobs := state.childJobs ++ [child] }
      child.stageId child.idempotencyKey = some (child, state.childJobs.length) := by
  unfold childOfAttempt
  simp [zipIdx_append, hkept]

theorem zipIdx_modify {α : Type} (xs : List α) (i : ℕ) (f : α → α) :
    (xs.modify i f).zipIdx = xs.zipIdx.map fun x => (if x.2 = i then f x.1 else x.1, x.2) := by
  apply ext_getElem?
  intro n
  simp only [getElem?_zipIdx, getElem?_modify, getElem?_map]
  cases xs[n]? with
  | none => rfl
  | some x =>
    by_cases hn : i = n
    · simp [hn]
    · simp [hn, Ne.symm hn]

/-- The child of an attempt does not depend on the statuses of the children. -/
theorem childOfAttempt_setChildStatus (state : PipelineRunState) (i : ℕ) (status : ChildStatus)
    (stageId key : String) :
    ((state.setChildStatus i status).childOfAttempt stageId key).map Prod.snd =
      (state.childOfAttempt stageId key).map Prod.snd := by
  unfold childOfAttempt setChildStatus
  simp only [zipIdx_modify, ← map_reverse, find?_map, Option.map_map]
  congr 1
  refine congrArg (fun p => find? p _) ?_
  funext x
  simp only [Function.comp]
  split <;> rfl

/-- A child that was chosen is still the one when its status is written. -/
theorem Chosen.setChildStatus (h : Chosen copy stage a i child) (status : ChildStatus) :
    Chosen (copy.setChildStatus i status) stage a i { child with status := status } := by
  refine ⟨?_, h.sameStage, h.kept, fun other j hother => ?_⟩
  · simp [PipelineRunState.setChildStatus, h.found]
  · have hsame := childOfAttempt_setChildStatus copy i status stage.id a.idempotencyKey
    rw [hother] at hsame
    obtain ⟨⟨own, j'⟩, hown, hj⟩ := Option.map_eq_some_iff.mp hsame.symm
    have hown := h.own own j' hown
    exact hj.symm.trans hown

/-- The child of an attempt is the one recorded for it, a reusable one or a new one. -/
theorem childForAttempt_obeys (hbase : l.base = some base) (hsettled : l.Settled)
    (hexecuting : Executing coordinator base stage a copy)
    (hleaf : coordinator.authority stage = .ok .leaf) :
    (childForAttempt stage resolvedInputs copy a).Obeys (monitor coordinator)
      (fun l' r => l'.Settled ∧ ∀ chosen, r = .ok chosen →
        ChildChosen coordinator stage a l' chosen) l := by
  unfold childForAttempt
  split
  · rename_i child i hchild
    obtain ⟨hget, hstage, -, hkept⟩ := mem_of_childOfAttempt hchild
    refine .done ⟨hsettled, fun chosen h => ?_⟩
    cases h
    refine ⟨hsettled, base, child, hbase, hexecuting, ⟨hget, hstage, hkept, ?_⟩, rfl⟩
    intro other j hother
    rw [hchild] at hother
    cases hother
    rfl
  · rename_i hnone
    refine (reusableChild_obeys (copy.childrenOfStage stage.id) l).bind ?_ ?_
    · rintro l' reused ⟨hsame, hreused⟩
      have hbase' : l'.base = some base := hsame.base.trans hbase
      have hsettled' := hsame.settled hsettled
      match reused with
      | some (childJobId, i) =>
        obtain ⟨child, hmem, hid⟩ := hreused childJobId i rfl
        obtain ⟨hget, hstage, hkept⟩ := mem_childrenOfStage hmem
        refine .done ⟨hsettled', fun chosen h => ?_⟩
        cases h
        refine ⟨hsettled', base, child, hbase', hexecuting, ⟨hget, hstage, hkept, ?_⟩, hid⟩
        intro other j hother
        rw [hnone] at hother
        cases hother
      | none =>
        refine obeys_send ⟨base, a, hbase', hexecuting, hleaf, rfl, hsettled'⟩ fun r => ?_
        match r with
        | .error e => exact .done ⟨hsettled', fun _ h => by cases h⟩
        | .ok childJobId =>
          refine obeys_saveState hbase'
            (.childAccepted hexecuting hsettled'.answered hleaf hnone rfl) fun _ => ?_
          refine .done ⟨⟨rfl, trivial⟩, fun chosen h => ?_⟩
          cases h
          refine ⟨⟨rfl, trivial⟩, _, _, rfl, hexecuting.with_children _,
            ⟨getElem?_concat_length, rfl, rfl, ?_⟩, rfl⟩
          intro other j hother
          have happended := childOfAttempt_append copy
            ⟨childJobId, stage.id, a.idempotencyKey, .queued, false⟩ rfl
          rw [happended] at hother
          cases hother
          rfl
    · rintro l' e ⟨hsame, -⟩
      exact ⟨hsame.settled hsettled, fun _ h => by cases h⟩

/-- A result that is completed is that of a child that is. -/
theorem status_of_leafResult {poll : LeafPoll} (h : (leafResult poll).status = .completed) :
    poll.status = .completed := by
  unfold leafResult at h
  split at h
  · assumption
  · cases h
  · cases h
  · cases h
  · cases h

/-- A leaf stage records the poll of its own child. -/
theorem executeLeaf_obeys (hbase : l.base = some base) (hsettled : l.Settled)
    (hexecuting : Executing coordinator base stage a copy)
    (hleaf : coordinator.authority stage = .ok .leaf) :
    (executeLeaf stage resolvedInputs copy a >>= fun (state, result) =>
      settleResult now .leaf stage state a result).Obeys (monitor coordinator) Returned l := by
  have hrun : (executeLeaf stage resolvedInputs copy a).Obeys (monitor coordinator)
      (fun l' r => l'.Settled ∧ ∀ polled, r = .ok polled →
        (∃ base, l'.base = some base ∧ Executing coordinator base stage a polled.1) ∧
          Sourced coordinator l' polled.1 stage a polled.2) l := by
    unfold executeLeaf
    refine (childForAttempt_obeys hbase hsettled hexecuting hleaf).bind ?_ ?_
    · rintro l' ⟨chosen, childJobId, i⟩ ⟨-, hchosen⟩
      obtain ⟨hsettled', base', child, hbase', hexecuting', hchild, hid⟩ := hchosen _ rfl
      simp only at hexecuting' hchild hid ⊢
      unfold leafPoll
      refine obeys_send trivial fun r => ?_
      match r with
      | .error e => exact .done ⟨hsettled', fun _ h => by cases h⟩
      | .ok poll =>
        have hsaves : Saves coordinator (l'.note (.leafPoll childJobId) (.ok poll)) base'
            .childPolled (chosen.setChildStatus i poll.status) := by
          refine .childPolled hexecuting' ?_ hleaf hchild ?_
          · exact (note_leafPoll l' childJobId (.ok poll)).settled hsettled'
          · rw [hid]
            rfl
        refine obeys_saveState hbase' hsaves fun _ => ?_
        refine .done ⟨⟨rfl, trivial⟩, fun polled h => ?_⟩
        cases h
        refine ⟨⟨_, rfl, hexecuting'.with_children _⟩, fun _ hcompleted => ⟨rfl, ?_⟩⟩
        refine ⟨i, _, hchild.setChildStatus poll.status, ?_⟩
        change some (childJobId, poll.status) = some (child.childJobId, .completed)
        rw [hid, status_of_leafResult hcompleted]
    · rintro l' e ⟨hsettled', -⟩
      exact ⟨hsettled', fun _ h => by cases h⟩
  refine hrun.bind ?_ ?_
  · rintro l' ⟨polled, result⟩ ⟨hsettled', hpolled⟩
    obtain ⟨⟨base', hbase', hexecuting'⟩, hsource⟩ := hpolled _ rfl
    exact settleResult_obeys hbase' hsettled' hexecuting' hsource
  · rintro l' e ⟨hsettled', -⟩
    exact returned_error hsettled'

theorem executeAttempt_obeys (hbase : l.base = some base)
    (hsettled : l.Settled) (hexecuting : Executing coordinator base stage a copy)
    (hauthority : coordinator.authority stage = .ok authority)
    (hfresh : resuming = false → copy = base ∧ l.point = some .started ∧ l.called = false) :
    (executeAttempt now authority stage copy a resuming).Obeys (monitor coordinator) Returned l := by
  unfold executeAttempt
  split
  · exact settleResult_obeys hbase hsettled hexecuting nofun
  split
  · exact executeExternal_obeys hbase hsettled hexecuting hauthority hfresh
  · exact executeLeaf_obeys hbase hsettled hexecuting hauthority
  · exact settleResult_obeys hbase hsettled hexecuting nofun

theorem latestAttempt_appendAttempt (state : PipelineRunState) (stageId : String)
    (a : StageAttempt) : (state.appendAttempt stageId a).latestAttempt stageId = some a := by
  simp [appendAttempt, latestAttempt]

theorem resumedAttempt_nextAttempt (state : PipelineRunState) (stageId : String)
    (other : PipelineRunState) (hrun : other.runId = state.runId) :
    coordinator.resumedAttempt other stageId (coordinator.nextAttempt state stageId) =
      coordinator.nextAttempt state stageId := by
  unfold resumedAttempt nextAttempt
  simp only [hrun]
  split <;> simp_all

/-- An attempt that has just been started is executed from the copy that was saved. -/
theorem executing_appendAttempt (hlive : Live state) (hcurrent : state.currentStage = some stage) :
    Executing coordinator (state.appendAttempt stage.id (coordinator.nextAttempt state stage.id))
      stage (coordinator.nextAttempt state stage.id)
      (state.appendAttempt stage.id (coordinator.nextAttempt state stage.id)) := by
  have hlatest := latestAttempt_appendAttempt state stage.id (coordinator.nextAttempt state stage.id)
  refine ⟨⟨hlive.running, hlive.wanted⟩, hcurrent, ⟨_, hlatest, rfl, ?_⟩, ?_⟩
  · exact (resumedAttempt_nextAttempt state stage.id _ rfl).symm
  · exact (setLatestAttempt_self hlatest).symm

/-- **One stage**: a new attempt, or the resumption of a running one, saves only what a save may. -/
theorem runCurrentStage_obeys (hbase : l.base = some state) (hlive : Live state)
    (hfree : l.accepted = none)
    (hearly : l.point = none ∧ (state.pendingStageIds = [] ∨ state.currentStageRunning = true) ∨
      l.point = some .entered ∧ state.currentStage.isSome) :
    (coordinator.runCurrentStage now state).Obeys (monitor coordinator) Returned l := by
  have hsettled : l.Settled := by
    refine ⟨hfree, ?_⟩
    unfold Local.Answered
    rcases hearly with ⟨hpoint, -⟩ | ⟨hpoint, -⟩
    · rw [hpoint]
      trivial
    · rw [hpoint]
      trivial
  unfold runCurrentStage
  split
  · rename_i hnone
    rcases hearly with ⟨hpoint, hpending⟩ | ⟨-, hsome⟩
    · exact terminalize_obeys hlive.running hbase (.exhausted hlive hnone hpoint hpending)
    · rw [hnone] at hsome
      cases hsome
  · rename_i stage hcurrent
    split
    · exact .done (returned_error hsettled)
    rename_i authority hauthority
    -- A stage whose latest attempt is not RUNNING comes from the queue, or nothing is queued.
    have hquiet : state.latestStageStatus stage.id ≠ some .running →
        l.point = none ∧ state.pendingStageIds = [] ∨ l.point = some .entered := by
      intro hidle
      rcases hearly with ⟨hpoint, hpending | hrunning⟩ | ⟨hpoint, -⟩
      · exact Or.inl ⟨hpoint, hpending⟩
      · exfalso
        unfold currentStage at hcurrent
        unfold currentStageRunning at hrunning
        cases hid : state.currentStageId with
        | none =>
          rw [hid] at hcurrent
          cases hcurrent
        | some stageId =>
          rw [hid] at hcurrent hrunning
          rw [(CompiledPipeline.mem_of_stage? hcurrent).2] at hidle
          exact hidle (by simpa using hrunning)
      · exact Or.inr hpoint
    split
    · rename_i hskips
      refine advanceToNextStage_obeys hbase hlive (.skipped hcurrent hskips (hquiet ?_))
      unfold skipsCompleted at hskips
      unfold latestStageStatus
      split at hskips
      · rename_i last hlast
        rw [hlast]
        simp only [Bool.and_eq_true, beq_iff_eq] at hskips
        simp [hskips.1.1]
      · cases hskips
    · rename_i hdue
      simp only
      split
      · rename_i attempt error output qcVerdict idempotencyKey handle hlatest
        refine executeAttempt_obeys hbase hsettled ⟨hlive, hcurrent, ⟨_, hlatest, rfl, rfl⟩, rfl⟩
          hauthority ?_
        exact nofun
      · rename_i hlatest
        have hidle : state.latestStageStatus stage.id ≠ some .running := by
          unfold latestStageStatus
          intro hstatus
          obtain ⟨running, hrunning, hstatus⟩ := Option.map_eq_some_iff.mp hstatus
          obtain ⟨attempt, status, error, output, qcVerdict, idempotencyKey, handle⟩ := running
          subst hstatus
          exact hlatest attempt error output qcVerdict idempotencyKey handle hrunning
        refine obeys_saveState hbase
          (.started hlive hcurrent (by simpa using hdue) hidle (hquiet hidle)) fun _ => ?_
        refine obeys_appendEvent nofun fun _ => ?_
        exact executeAttempt_obeys rfl ⟨rfl, trivial⟩ (executing_appendAttempt hlive hcurrent)
          hauthority fun _ => ⟨rfl, rfl, rfl⟩

/-! ### The cascade -/

theorem ChildStops.mono {stopped stopped' : List String} (h : stopped ⊆ stopped')
    {before after : ChildJobRef} (hstops : ChildStops stopped before after) :
    ChildStops stopped' before after := by
  rcases hstops with hsame | ⟨hopen, hmem, hafter⟩
  · exact Or.inl hsame
  · exact Or.inr ⟨hopen, h hmem, hafter⟩

/-- What is known of the children when the cascade has been through them. -/
def ChildrenStopped (l : Local) (children : List ChildJobRef) (l' : Local)
    (r : Except CoordinatorError Stops) : Prop :=
  SameCopy l l' ∧ ∃ stops, r = .ok stops ∧
    List.Forall₂ (ChildStops l'.stopped) children stops.children ∧
    (stops.unresolved = [] → ∀ child ∈ stops.children, child.isOver = true)

theorem cancelChild_obeys (runId : String) (child : ChildJobRef) (l : Local) :
    (cancelChild runId child).Obeys (monitor coordinator) (ChildrenStopped l [child]) l := by
  unfold cancelChild
  -- A child that is left as it is needs no call, or is unresolved.
  have hkept : ∀ unresolved : List String, (unresolved = [] → child.isOver = true) →
      ChildrenStopped l [child] l (.ok { children := [child], unresolved := unresolved }) := by
    intro unresolved hover
    refine ⟨SameCopy.refl l, _, rfl, .cons (Or.inl rfl) .nil, fun hnone c hc => ?_⟩
    rw [mem_singleton.mp hc]
    exact hover hnone
  split
  · rename_i hover
    exact .done (hkept [] fun _ => hover)
  rename_i hopen
  refine obeys_send trivial fun r => ?_
  match r with
  | .ok true =>
    refine .done ⟨⟨rfl, rfl, rfl, rfl, subset_cons_self _ _, Subset.refl _⟩, _, rfl, ?_, ?_⟩
    · exact .cons (Or.inr ⟨by simpa using hopen, mem_cons_self, rfl⟩) .nil
    · intro _ c hc
      rw [mem_singleton.mp hc]
      rfl
  | .ok false => exact .done (hkept _ nofun)
  | .error e =>
    refine obeys_appendEvent nofun fun _ => ?_
    exact .done (hkept _ nofun)

theorem cancelChildren_obeys (runId : String) (children : List ChildJobRef) (l : Local) :
    (cancelChildren runId children).Obeys (monitor coordinator) (ChildrenStopped l children) l := by
  induction children generalizing l with
  | nil => exact .done ⟨SameCopy.refl l, {}, rfl, .nil, fun _ _ hc => by cases hc⟩
  | cons child children ih =>
    refine (cancelChild_obeys runId child l).bind ?_ ?_
    · rintro l' first ⟨hsame, _, hok, hfirst, hover⟩
      cases hok
      refine (ih l').bind ?_ ?_
      · rintro l'' rest ⟨hsame', _, hok, hrest, hover'⟩
        cases hok
        have hfirst' := hfirst.imp fun _ _ h => ChildStops.mono hsame'.stopped h
        refine .done ⟨hsame.trans hsame', _, rfl, rel_append hfirst' hrest, ?_⟩
        intro hnone c hc
        obtain ⟨hnone, hnone'⟩ := append_eq_nil_iff.mp hnone
        rcases mem_append.mp hc with hc | hc
        · exact hover hnone c hc
        · exact hover' hnone' c hc
      · rintro l'' e ⟨-, _, hok, -⟩
        cases hok
    · rintro l' e ⟨-, _, hok, -⟩
      cases hok

/-- What is known of the stage under the cursor when the cascade has been through it. -/
def StageStopped (coordinator : PipelineCoordinator) (l : Local) (state : PipelineRunState)
    (l' : Local) (r : Except CoordinatorError (List String)) : Prop :=
  SameCopy l l' ∧ ∃ unresolved, r = .ok unresolved ∧ (unresolved = [] →
    ∀ stage, state.currentStage = some stage → stage.id ≠ "" → state.currentStageRunning = true →
      coordinator.authority stage = .ok .external → stage.id ∈ l'.stoppedStages)

theorem cancelExternal_obeys (state : PipelineRunState) (l : Local) (hbase : l.base = some state) :
    (coordinator.cancelExternal state).Obeys (monitor coordinator)
      (StageStopped coordinator l state) l := by
  have hnoted : ∀ note : String, StageStopped coordinator l state l (.ok [note]) :=
    fun _ => ⟨SameCopy.refl l, _, rfl, nofun⟩
  unfold cancelExternal
  split
  · rename_i hnone
    refine .done ⟨SameCopy.refl l, [], rfl, fun _ stage hstage => ?_⟩
    rw [hnone] at hstage
    cases hstage
  · rename_i stage hcurrent
    split
    · rename_i hidle
      refine .done ⟨SameCopy.refl l, [], rfl, fun _ other hother hid hrunning => ?_⟩
      rw [hcurrent] at hother
      cases hother
      rcases hidle with hempty | hidle
      · exact absurd hempty hid
      · rw [hidle] at hrunning
        cases hrunning
    · split
      · refine obeys_appendEvent nofun fun _ => ?_
        exact .done (hnoted _)
      · refine obeys_send ⟨state, hbase, rfl⟩ fun r => ?_
        match r with
        | .ok true =>
          refine .done ⟨⟨rfl, rfl, rfl, rfl, Subset.refl _, subset_cons_self _ _⟩, [], rfl, ?_⟩
          intro _ other hother _ _ _
          rw [hcurrent] at hother
          cases hother
          exact mem_cons_self
        | .ok false => exact .done (hnoted _)
        | .error e =>
          refine obeys_appendEvent nofun fun _ => ?_
          exact .done (hnoted _)
      · rename_i authority hother hauthority
        refine .done ⟨SameCopy.refl l, [], rfl, fun _ other hcurrent' _ _ hexternal => ?_⟩
        rw [hcurrent] at hcurrent'
        cases hcurrent'
        rw [hauthority] at hexternal
        cases hexternal
        exact absurd rfl hother

/-- The cascade saves a cancelled run only after its children were stopped. -/
theorem cascadeCancellation_obeys (hbase : l.base = some state) (hsettled : l.Settled)
    (hintent : (state.cancellationIntent && !state.cancelled) = true) :
    (coordinator.cascadeCancellation state).Obeys (monitor coordinator) Returned l := by
  have hflags : state.cancellationIntent = true ∧ state.cancelled = false := by simpa using hintent
  unfold cascadeCancellation
  refine obeys_appendEvent nofun fun _ => ?_
  refine (cancelExternal_obeys state l hbase).bind ?_ ?_
  · rintro l' unresolvedExternal ⟨hsame, _, hok, hstage⟩
    cases hok
    refine (cancelChildren_obeys state.runId state.childJobs l').bind ?_ ?_
    · rintro l'' stops ⟨hsame', _, hok, hchildren, hover⟩
      cases hok
      have hbase'' : l''.base = some state := hsame'.base.trans (hsame.base.trans hbase)
      have hsettled'' := (hsame.trans hsame').settled hsettled
      -- A run that is already terminal is returned as it is, and nothing is saved.
      have hend : ∀ (code : TerminalCode) (reason : String), code ≠ .success →
          (code = .coordinatorCancelled → unresolvedExternal ++ stops.unresolved = []) →
          (terminalize (cascaded state stops.children stops.stopped) code reason).Obeys
            (monitor coordinator) Returned l'' := by
        intro code reason hcode hnone
        by_cases hterminal : state.status.isTerminal = true
        · unfold terminalize
          rw [if_pos (show (cascaded state _ _).status.isTerminal = true from hterminal)]
          exact .done ⟨hsettled'', fun other h => ⟨state, hbase'', by cases h; exact ⟨rfl, rfl⟩⟩⟩
        · have hrunning : state.status = .running := by
            cases hstatus : state.status <;> simp_all [RunStatus.isTerminal]
          refine terminalize_obeys hrunning hbase''
            (.cascaded hrunning hflags.1 hflags.2 hchildren hcode fun hcancelled => ?_)
          obtain ⟨hexternal, hleaf⟩ := append_eq_nil_iff.mp (hnone hcancelled)
          refine ⟨hover hleaf, fun stage hcurrent hid hactive hauthority => ?_⟩
          exact hsame'.stoppedStages (hstage hexternal stage hcurrent hid hactive hauthority)
      simp only
      split
      · exact hend .unsafeResume _ nofun nofun
      · rename_i hnone
        exact hend .coordinatorCancelled _ nofun fun _ => by simpa using hnone
    · rintro l'' e ⟨-, _, hok, -⟩
      cases hok
  · rintro l' e ⟨-, _, hok, -⟩
    cases hok

/-- **What `advance` does.** -/
theorem advance_obeys {passed : PipelineRunState} (hbase : l.base = some passed) (hidle : l.Idle) :
    (coordinator.advance now passed).Obeys (monitor coordinator) Returned l := by
  unfold advance
  refine obeys_loadState hidle (fun e => returned_error hidle.settled) fun loaded => ?_
  -- Where nothing is stored the client goes on with what it was passed.
  obtain ⟨l', hl', hbase', hidle'⟩ : ∃ l', l' = l.note (.hgetall passed.runId) (.ok loaded) ∧
      l'.base = some (loaded.getD passed) ∧ l'.Idle := by
    cases loaded with
    | none => exact ⟨l, rfl, hbase, hidle⟩
    | some state => exact ⟨_, rfl, rfl, rfl, rfl⟩
  rw [← hl']
  generalize loaded.getD passed = state at hbase'
  simp only
  split
  · rename_i hintent
    exact cascadeCancellation_obeys hbase' hidle'.settled hintent
  rename_i hwanted
  split
  · exact .done (returned_ok hidle'.settled hbase')
  rename_i hopen
  have hlive : Live state := by
    refine ⟨?_, by simpa using hwanted⟩
    cases hstatus : state.status <;> simp_all [RunStatus.isTerminal]
  split
  · rename_i nextPending remaining hpending hidle
    split
    · rename_i hmissing
      refine obeys_saveState hbase' (.dropped hlive hpending hidle hmissing hidle'.point) fun _ => ?_
      exact .done (returned_ok ⟨rfl, trivial⟩ rfl)
    · rename_i hfound
      obtain ⟨stage, hstage⟩ := Option.ne_none_iff_exists'.mp hfound
      refine obeys_saveState hbase' (.entered hlive hpending hidle hstage hidle'.point) fun _ => ?_
      refine runCurrentStage_obeys rfl ⟨hlive.running, hlive.wanted⟩ rfl (Or.inr ⟨rfl, ?_⟩)
      simp [currentStage, enterPending, hstage]
  · rename_i hother
    refine runCurrentStage_obeys hbase' hlive hidle'.accepted (Or.inl ⟨hidle'.point, ?_⟩)
    cases hpending : state.pendingStageIds with
    | nil => exact Or.inl rfl
    | cons nextPending remaining =>
      right
      by_contra hidle
      exact hother nextPending remaining hpending (by simpa using hidle)

end Advance

/-! ## The other programs -/

section Programs

variable {coordinator : PipelineCoordinator} {l : Local} {state : PipelineRunState} {now : String}

theorem obeys_map {α β : Type} {Q : Local → Except CoordinatorError α → Prop}
    {Q' : Local → Except CoordinatorError β → Prop} {p : Method α} {f : α → β}
    (hp : p.Obeys (monitor coordinator) Q l) (hok : ∀ l a, Q l (.ok a) → Q' l (.ok (f a)))
    (herror : ∀ l e, Q l (.error e) → Q' l (.error e)) :
    (f <$> p).Obeys (monitor coordinator) Q' l :=
  hp.bind (fun l a h => .done (hok l a h)) herror

variable {store : ℕ} {runId : String} {entries : List (ℕ × String)} {base : PipelineRunState}

theorem ackParent_obeys (hbase : l.base = some base)
    (hsettled : l.Settled) (hterminal : base.status.isTerminal = true) :
    (ackParent store base.runId).Obeys (monitor coordinator) (fun l' _ => l'.Settled) l := by
  unfold ackParent
  refine obeys_send trivial fun entryId => ?_
  match entryId with
  | none => exact .done hsettled
  | some entryId =>
    refine obeys_send (Or.inl ⟨base, entryId, hbase, hterminal, rfl, rfl⟩) fun r => ?_
    cases r with
    | ok _ | error _ => exact .done hsettled

theorem requeueParent_obeys {Q : Local → Prop} (hQ : Q l)
    (hclaimed : ∀ l claimed, Q l → Q { l with claimed := claimed }) :
    (requeueParent store runId).Obeys (monitor coordinator) (fun l' _ => Q l') l := by
  unfold requeueParent
  refine obeys_send trivial fun entryId => ?_
  match entryId with
  | none =>
    unfold enqueueParent
    refine obeys_send trivial fun r => ?_
    cases r with
    | ok _ | error _ => exact .done (hclaimed l _ hQ)
  | some claimedEntryId =>
    refine obeys_send rfl fun r => ?_
    match r with
    | .ok () =>
      refine obeys_send trivial fun popped => ?_
      exact .done (hclaimed _ _ (hclaimed l _ hQ))
    | .error _ => exact .done (hclaimed l _ hQ)

theorem release_obeys (hbase : l.base = some base) (hsettled : l.Settled)
    (hrun : state.runId = base.runId) (hstatus : state.status = base.status) :
    (release store state).Obeys (monitor coordinator)
      (fun l' _ => l'.Settled) l := by
  unfold release
  rw [hrun, hstatus]
  split
  · rename_i hterminal
    refine (ackParent_obeys hbase hsettled hterminal).bind ?_ fun _ _ h => h
    intro l' acked hl'
    split <;> exact .done hl'
  · refine (requeueParent_obeys hsettled fun _ _ h => h).bind ?_ fun _ _ h => h
    intro l' requeued hl'
    split <;> exact .done hl'

theorem processClaimed_obeys {claimedRunId : String} (hidle : l.Idle) :
    (processClaimed coordinator store now claimedRunId).Obeys
      (monitor coordinator) (fun l' _ => l'.Settled) l := by
  unfold processClaimed
  refine obeys_loadState hidle (fun _ => hidle.settled) fun loaded => ?_
  match loaded with
  | none => exact .done (hidle.settled)
  | some state =>
    refine (advance_obeys rfl ⟨rfl, rfl⟩).bind ?_ fun l' e h => h.1
    rintro l' advanced ⟨hsettled, hadvanced⟩
    obtain ⟨base, hbase, hrun, hstatus⟩ := hadvanced advanced rfl
    exact release_obeys hbase hsettled hrun hstatus

variable {consumer : String} {entryId : ℕ}

theorem dequeueParent_obeys (hidle : l.Idle) :
    (dequeueParent store consumer).Obeys (monitor coordinator) (fun l' _ => l'.Idle) l := by
  unfold dequeueParent
  refine obeys_send trivial fun r => ?_
  match r with
  | .error _ => exact .done hidle
  | .ok none => exact .done hidle
  | .ok (some (entryId, runId)) =>
    simp only
    split
    · exact .done hidle
    refine obeys_send mem_cons_self fun _ => ?_
    refine obeys_loadState hidle (fun _ => hidle) fun loaded => ?_
    match loaded with
    | none => exact .done hidle
    | some state => exact .done ⟨rfl, rfl⟩

def Collected (l : Local) (r : Except CoordinatorError (List (ℕ × String))) : Prop :=
  l.Idle ∧ ∀ entries, r = .ok entries → entries ⊆ l.seen

/-- What is collected are entries that the client has seen. -/
theorem collectEntries_obeys (consumer : String) (pending : List (ℕ × String × ℕ)) (l : Local)
    (hidle : l.Idle) :
    (collectEntries consumer pending).Obeys (monitor coordinator)
      (fun l' r => Collected l' r ∧ l.seen ⊆ l'.seen) l := by
  induction pending generalizing l with
  | nil =>
    refine .done ⟨⟨hidle, fun entries h => ?_⟩, Subset.refl _⟩
    cases h
    exact nil_subset _
  | cons item pending ih =>
    obtain ⟨entryId, owner, idleMs⟩ := item
    -- The messages that were shown are remembered.
    have hrest : ∀ (messages : List (ℕ × String)) (l' : Local), l'.Idle →
        l'.seen = messages ++ l.seen →
        (collectEntries consumer pending >>= fun rest =>
          pure (messages.filter (fun m => m.2 != "") ++ rest)).Obeys (monitor coordinator)
          (fun l' r => Collected l' r ∧ l.seen ⊆ l'.seen) l' := by
      intro messages l' hidle' hseen
      have hsub : l.seen ⊆ l'.seen := by
        rw [hseen]
        exact subset_append_right _ _
      refine (ih l' hidle').bind ?_ ?_
      · rintro l'' rest ⟨⟨hidle'', hentries⟩, hgrown⟩
        refine .done ⟨⟨hidle'', fun entries h => ?_⟩, Subset.trans hsub hgrown⟩
        cases h
        refine append_subset.mpr ⟨fun m hm => hgrown ?_, hentries rest rfl⟩
        rw [hseen]
        exact mem_append_left _ (mem_of_mem_filter hm)
      · rintro l'' e ⟨⟨hidle'', -⟩, hgrown⟩
        exact ⟨⟨hidle'', fun _ h => by cases h⟩, Subset.trans hsub hgrown⟩
    have hfailed : ∀ e : CoordinatorError,
        Collected l (.error e) ∧ l.seen ⊆ l.seen :=
      fun e => ⟨⟨hidle, fun _ h => by cases h⟩, Subset.refl _⟩
    unfold collectEntries
    split
    · refine obeys_send trivial fun r => ?_
      match r with
      | .error _ => exact .done (hfailed _)
      | .ok messages => exact hrest messages _ hidle rfl
    · split
      · refine obeys_send trivial fun r => ?_
        match r with
        | .error _ => exact .done (hfailed _)
        | .ok messages => exact hrest messages _ hidle rfl
      · exact hrest [] l hidle rfl

theorem mem_entryIdsOf :
    entryId ∈ entryIdsOf entries runId ↔ (entryId, runId) ∈ entries := by
  simp [entryIdsOf]

/-- The last of the collected entries of a run is the newest. -/
theorem lt_of_mem_dropLast (h : entryId ∈ (entryIdsOf entries runId).dropLast) :
    ∃ newer, newer ∈ entryIdsOf entries runId ∧ entryId < newer := by
  have hne : entryIdsOf entries runId ≠ [] := by
    intro hnil
    rw [hnil] at h
    cases h
  have hsplit := dropLast_append_getLast hne
  refine ⟨_, getLast_mem hne, ?_⟩
  have hsorted : (entryIdsOf entries runId).Pairwise (· ≤ ·) := pairwise_insertionSort _ _
  have hnodup : (entryIdsOf entries runId).Nodup :=
    (perm_insertionSort _ _).nodup_iff.mpr (nodup_dedup _)
  rw [← hsplit] at hsorted hnodup
  refine Nat.lt_of_le_of_ne ?_ ?_
  · exact (pairwise_append.mp hsorted).2.2 entryId h _ mem_cons_self
  · exact (nodup_append.mp hnodup).2.2 entryId h _ mem_cons_self

theorem ackDuplicates_obeys (runId : String) (hidle : l.Idle) (hseen : entries ⊆ l.seen) :
    (ackDuplicates runId (entryIdsOf entries runId).dropLast).Obeys (monitor coordinator)
      (fun l' _ => l'.Idle ∧ entries ⊆ l'.seen) l := by
  unfold ackDuplicates
  split
  · exact .done ⟨hidle, hseen⟩
  have hallowed : l.allows coordinator (.xack (entryIdsOf entries runId).dropLast) := by
    refine Or.inr fun entryId hmem => ?_
    obtain ⟨newer, hnewer, hlt⟩ := lt_of_mem_dropLast hmem
    have hold := mem_entryIdsOf.mp (dropLast_subset _ hmem)
    exact ⟨runId, newer, hseen hold, hseen (mem_entryIdsOf.mp hnewer), hlt⟩
  refine obeys_send hallowed fun r => ?_
  match r with
  | .error _ => exact .done ⟨hidle, hseen⟩
  | .ok acked =>
    simp only
    split <;> exact .done ⟨hidle, hseen⟩

theorem retain_obeys (runId : String) (hidle : l.Idle) (hseen : entries ⊆ l.seen) :
    (retain store runId (entryIdsOf entries runId).getLast?).Obeys (monitor coordinator)
      (fun l' _ => l'.Idle ∧ entries ⊆ l'.seen) l := by
  unfold retain
  refine obeys_loadState hidle (fun _ => ⟨hidle, hseen⟩) fun loaded => ?_
  match loaded, hlast : (entryIdsOf entries runId).getLast? with
  | some state, some retainedId =>
    have hmem : (retainedId, runId) ∈ l.seen :=
      hseen (mem_entryIdsOf.mp (mem_of_getLast? hlast))
    refine obeys_send hmem fun _ => ?_
    exact .done ⟨⟨rfl, rfl⟩, hseen⟩
  | none, _ => exact .done ⟨hidle, hseen⟩
  | some state, none => exact .done ⟨⟨rfl, rfl⟩, hseen⟩

theorem consolidate_obeys (store : ℕ) (entries : List (ℕ × String)) (runIds : List String)
    (l : Local) (hidle : l.Idle) (hseen : entries ⊆ l.seen) :
    (consolidate store entries runIds).Obeys (monitor coordinator)
      (fun l' _ => l'.Idle) l := by
  induction runIds generalizing l with
  | nil => exact .done hidle
  | cons runId runIds ih =>
    refine (ackDuplicates_obeys runId hidle hseen).bind ?_ fun _ _ h => h.1
    rintro l₁ - ⟨hidle₁, hseen₁⟩
    refine (retain_obeys runId hidle₁ hseen₁).bind ?_ fun _ _ h => h.1
    rintro l₂ state ⟨hidle₂, hseen₂⟩
    refine (ih l₂ hidle₂ hseen₂).bind ?_ fun _ _ h => h
    intro l₃ states hidle₃
    exact .done hidle₃

theorem reclaimOrphanedParents_obeys (hidle : l.Idle) :
    (reclaimOrphanedParents store consumer).Obeys (monitor coordinator)
      (fun l' _ => l'.Idle) l := by
  unfold reclaimOrphanedParents
  refine obeys_send trivial fun r => ?_
  match r with
  | .error _ => exact .done hidle
  | .ok pending =>
    refine (collectEntries_obeys consumer pending l hidle).bind ?_ ?_
    · rintro l' entries ⟨⟨hidle', hentries⟩, -⟩
      exact consolidate_obeys store entries _ l' hidle' (hentries entries rfl)
    · rintro l' e ⟨⟨hidle', -⟩, -⟩
      exact hidle'

theorem processOne_obeys (hidle : l.Idle) :
    (processOne coordinator store consumer now).Obeys
      (monitor coordinator) (fun l' _ => l'.Settled) l := by
  have hclaimed : ∀ (l' : Local) (claimedRunId : String), l'.Idle →
      (some <$> processClaimed coordinator store now claimedRunId).Obeys
        (monitor coordinator) (fun l' _ => l'.Settled) l' := by
    intro l' claimedRunId hidle'
    exact obeys_map (processClaimed_obeys hidle') (fun _ _ h => h) fun _ _ h => h
  unfold processOne
  refine (dequeueParent_obeys hidle).bind ?_ fun _ _ h => h.settled
  intro l' dequeued hidle'
  match dequeued with
  | some state => exact hclaimed l' state.runId hidle'
  | none =>
    refine (reclaimOrphanedParents_obeys hidle').bind ?_ fun _ _ h => h.settled
    intro l'' reclaimed hidle''
    match reclaimed with
    | state :: _ => exact hclaimed l'' state.runId hidle''
    | [] => exact .done (hidle''.settled)

theorem advanceOnce_obeys (hidle : l.Idle) :
    (advanceOnce coordinator now runId).Obeys (monitor coordinator)
      (fun l' _ => l'.Settled) l := by
  unfold advanceOnce
  refine obeys_loadState hidle (fun _ => hidle.settled) fun loaded => ?_
  match loaded with
  | none => exact .done (hidle.settled)
  | some state => exact (advance_obeys rfl ⟨rfl, rfl⟩).mono fun l' r h => h.1

theorem submitParent_obeys {pipeline : CompiledPipeline} {requestParams : Fields} (hidle : l.Idle) :
    (submitParent runId pipeline requestParams).Obeys
      (monitor coordinator) (fun l' _ => l'.Settled) l := by
  unfold ControllerPipelineRuntime.submitParent
  refine obeys_loadState hidle (fun _ => hidle.settled) fun loaded => ?_
  match loaded with
  | some state => exact .done (Local.Idle.settled ⟨rfl, rfl⟩)
  | none =>
    unfold submit
    simp only
    split
    · exact .done (hidle.settled)
    rename_i sanitized _
    unfold RedisCoordinatorStore.submitParent
    refine obeys_send ⟨pipeline, sanitized, rfl⟩ fun r => ?_
    cases r with
    | ok _ | error _ => exact .done (hidle.settled)

/-- A cancellation that was requested is the last thing the client has saved. -/
theorem requestCancellation_obeys (hidle : l.Idle) :
    (requestCancellation store runId).Obeys (monitor coordinator)
      (fun l' r => l'.Settled ∧ (r = .ok true → l'.loaded = some runId ∧ l'.point = some .intent)) l := by
  unfold requestCancellation
  refine obeys_loadState hidle (fun _ => ⟨hidle.settled, nofun⟩) fun loaded => ?_
  match loaded with
  | none => exact .done ⟨hidle.settled, nofun⟩
  | some state =>
    simp only
    split
    · exact .done ⟨Local.Idle.settled ⟨rfl, rfl⟩, nofun⟩
    rename_i hopen
    have hrunning : state.status = .running := by
      cases hstatus : state.status <;> simp_all [RunStatus.isTerminal]
    refine obeys_saveState rfl (.intent hrunning rfl rfl) fun saved => ?_
    split
    · refine (requeueParent_obeys (Q := fun l' => l'.Settled ∧ l'.loaded = some runId ∧
        l'.point = some .intent) ⟨?_, rfl, rfl⟩ fun _ _ h => h).bind ?_ ?_
      · exact ⟨rfl, trivial⟩
      · rintro l' requeued ⟨hsettled, hloaded, hpoint⟩
        split
        · refine obeys_appendEvent nofun fun _ => ?_
          exact .done ⟨hsettled, fun _ => ⟨hloaded, hpoint⟩⟩
        · exact .done ⟨hsettled, nofun⟩
      · rintro l' e ⟨hsettled, -, -⟩
        exact ⟨hsettled, nofun⟩
    · exact .done ⟨⟨rfl, trivial⟩, nofun⟩

def Finished (l : Local) (r : Except CoordinatorError Outcome) : Prop :=
  l.Settled ∧ ∀ runId, r = .ok (.cancellation runId true) →
    l.loaded = some runId ∧ l.point = some .intent

/-- **Every client obeys the monitor.** -/
theorem program_obeys (d : Deployment) (op : CoordinatorOp) :
    (d.program op).Obeys (monitor d.coordinator) Finished {} := by
  cases op with
  | submitParent runId pipeline requestParams =>
    refine obeys_map (submitParent_obeys ⟨rfl, rfl⟩) (fun l a h => ⟨h, ?_⟩) fun l e h => ⟨h, ?_⟩
    all_goals
      intro _ hr
      cases hr
  | processOne store consumer now =>
    refine obeys_map (processOne_obeys ⟨rfl, rfl⟩) (fun l a h => ⟨h, ?_⟩) fun l e h => ⟨h, ?_⟩
    all_goals
      intro _ hr
      cases hr
  | advanceOnce now runId =>
    refine obeys_map (advanceOnce_obeys ⟨rfl, rfl⟩) (fun l a h => ⟨h, ?_⟩) fun l e h => ⟨h, ?_⟩
    all_goals
      intro _ hr
      cases hr
  | reclaimOrphaned store consumer =>
    refine obeys_map (reclaimOrphanedParents_obeys ⟨rfl, rfl⟩)
      (fun l a h => ⟨h.settled, ?_⟩) fun l e h => ⟨h.settled, ?_⟩
    all_goals
      intro _ hr
      cases hr
  | requestCancellation store runId =>
    refine obeys_map (requestCancellation_obeys ⟨rfl, rfl⟩) (fun l a h => ⟨h.1, ?_⟩)
      fun l e h => ⟨h.1, ?_⟩
    · intro other hr
      cases hr
      exact h.2 rfl
    · intro _ hr
      cases hr
  | elapse milliseconds =>
    refine obeys_send trivial fun _ => .done ⟨Local.Idle.settled ⟨rfl, rfl⟩, ?_⟩
    intro _ hr
    cases hr

end Programs

/-! ## Runs -/

def Cmd.isWrite : Cmd → Bool
  | .hset _ _ | .evalSubmitParent _ => true
  | _ => false

variable {c : Cmd} {point : SavePoint}

theorem exec_states (providers : Providers) (h : c.isWrite = false) (w : World) :
    (exec providers c w).2.states = w.states := by
  cases c with
  | hset point state | evalSubmitParent state => cases h
  | xreadgroup consumer | xclaim consumer minIdleTime entryId =>
    simp only [exec]
    split <;> rfl
  | _ => rfl

theorem exec_evalSubmitParent_states (providers : Providers) (state : PipelineRunState) (w : World) :
    (exec providers (.evalSubmitParent state) w).2.states =
      if (w.states state.runId).isSome then w.states
      else Function.update w.states state.runId (some state) := by
  simp only [exec]
  split <;> rfl

/-- The commands after which a client has another copy. -/
def Cmd.isCopy : Cmd → Bool
  | .hset _ _ | .hgetall _ => true
  | _ => false

/-- What a reply other than that to a save changes in what is remembered. -/
inductive Noted (l : Local) : (c : Cmd) → Reply c → Local → Prop where
  | same (c : Cmd) (r : Reply c) : Noted l c r l
  | load (runId : String) (state : PipelineRunState) (r : Reply (.hgetall runId)) :
      Noted l (.hgetall runId) r (l.load runId state)
  | announced (runId stageId loopId : String) (iteration : ℕ) (onCorrection : List String)
      (r : Reply (.xaddEvent runId (.correctionStarted stageId loopId iteration onCorrection))) :
      Noted l _ r { l with announced := true }
  | called (stage : Stage) (inputs : Option Fields) (state : PipelineRunState) (key : String)
      (r : Reply (.execute stage inputs state key)) : Noted l _ r { l with called := true }
  | accepted (stage : Stage) (inputs : Option Fields) (state : PipelineRunState)
      (key childJobId : String) (r : Reply (.leafSubmit stage inputs state key)) :
      Noted l _ r { l with accepted := some childJobId }
  | polled (childJobId : String) (status : ChildStatus) (r : Reply (.leafPoll childJobId)) :
      Noted l _ r { l with polled := some (childJobId, status) }
  | stopped (childJobId : String) :
      Noted l (.leafCancel childJobId) (.ok true)
        { l with stopped := childJobId :: l.stopped }
  | stoppedStage (runId stageId : String) :
      Noted l (.cancel runId stageId) (.ok true)
        { l with stoppedStages := stageId :: l.stoppedStages }
  | seen (c : Cmd) (r : Reply c) (entries : List (ℕ × String)) :
      Noted l c r { l with seen := entries ++ l.seen }
  | claimed (c : Cmd) (r : Reply c) (entry : Option (String × ℕ)) :
      Noted l c r { l with claimed := entry }

theorem noted {l : Local} (hsave : ∀ point state, c ≠ .hset point state) (r : Reply c) :
    Noted l c r (l.note c r) := by
  cases c with
  | hset point state => exact absurd rfl (hsave point state)
  | hgetall runId =>
    cases r with
    | error e => exact .same ..
    | ok found =>
      cases found with
      | none => exact .same ..
      | some state => exact .load ..
  | xaddEvent runId event =>
    cases event with
    | correctionStarted stageId loopId iteration on => exact .announced ..
    | _ => exact .same ..
  | execute stage inputs state key => exact .called ..
  | leafSubmit stage inputs state key =>
    cases r with
    | error e => exact .same ..
    | ok childJobId => exact .accepted ..
  | leafPoll childJobId =>
    cases r with
    | error e => exact .same ..
    | ok poll => exact .polled ..
  | leafCancel childJobId =>
    cases r with
    | error e => exact .same ..
    | ok stopped =>
      cases stopped with
      | false => exact .same ..
      | true => exact .stopped _
  | cancel runId stageId =>
    cases r with
    | error e => exact .same ..
    | ok stopped =>
      cases stopped with
      | false => exact .same ..
      | true => exact .stoppedStage ..
  | xreadgroup consumer =>
    cases r with
    | error e => exact .same ..
    | ok entry =>
      cases entry with
      | none => exact .same ..
      | some entry => exact .seen _ _ [entry]
  | xrange entryId | xclaim consumer minIdleTime entryId =>
    cases r with
    | error e => exact .same ..
    | ok entries => exact .seen _ _ entries
  | getEntryId store runId | popEntryId store runId => exact .claimed ..
  | _ => exact .same ..

/-- What is the same for a client that has neither loaded nor saved. -/
theorem note_same {l : Local} (h : c.isCopy = false) (r : Reply c) :
    (l.note c r).base = l.base ∧ (l.note c r).loaded = l.loaded ∧ (l.note c r).point = l.point := by
  have hsave : ∀ point state, c ≠ .hset point state := by
    rintro point state rfl
    cases h
  have hnoted := noted (l := l) hsave r
  generalize l.note c r = l' at hnoted ⊢
  cases hnoted with
  | load runId state => cases h
  | _ => exact ⟨rfl, rfl, rfl⟩

/-- Only a save and a call of the external executor are noted as such. -/
theorem note_called {l : Local} (hsave : ∀ point state, c ≠ .hset point state)
    (hexecute : ∀ stage inputs state key, c ≠ .execute stage inputs state key) (r : Reply c) :
    (l.note c r).called = l.called := by
  have hnoted := noted (l := l) hsave r
  generalize l.note c r = l' at hnoted ⊢
  cases hnoted with
  | called stage inputs state key => exact absurd rfl (hexecute stage inputs state key)
  | _ => rfl

/-- Only a save and the event of a correction change whether a correction is announced. -/
theorem note_announced {l : Local} (hsave : ∀ point state, c ≠ .hset point state)
    (hevent : ∀ runId stageId loopId iteration on,
      c ≠ .xaddEvent runId (.correctionStarted stageId loopId iteration on)) (r : Reply c) :
    (l.note c r).announced = l.announced := by
  have hnoted := noted (l := l) hsave r
  generalize l.note c r = l' at hnoted ⊢
  cases hnoted with
  | announced runId stageId loopId iteration on =>
    exact absurd rfl (hevent runId stageId loopId iteration on)
  | _ => rfl

/-- A command saves a state, creates a run, loads a state, or does none of this. -/
theorem Cmd.cases_states (c : Cmd) :
    (∃ point state, c = .hset point state) ∨ (∃ state, c = .evalSubmitParent state) ∨
      (∃ runId, c = .hgetall runId) ∨ c.isWrite = false ∧ c.isCopy = false := by
  cases c with
  | hset point state => exact Or.inl ⟨point, state, rfl⟩
  | evalSubmitParent state => exact Or.inr (Or.inl ⟨state, rfl⟩)
  | hgetall runId => exact Or.inr (Or.inr (Or.inl ⟨runId, rfl⟩))
  | _ => exact Or.inr (Or.inr (Or.inr ⟨rfl, rfl⟩))

/-- A command writes each state under its own id. -/
theorem keyed_exec {providers : Providers} {w : World}
    (h : ∀ key state, w.states key = some state → state.runId = key)
    (key : String) (state : PipelineRunState)
    (hstate : (exec providers c w).2.states key = some state) : state.runId = key := by
  have hupdate : ∀ written : PipelineRunState,
      Function.update w.states written.runId (some written) key = some state →
      state.runId = key := by
    intro written hwritten
    by_cases hkey : key = written.runId
    · subst hkey
      rw [Function.update_self] at hwritten
      cases hwritten
      rfl
    · rw [Function.update_of_ne hkey] at hwritten
      exact h key state hwritten
  rcases c.cases_states with ⟨point, written, rfl⟩ | ⟨written, rfl⟩ | ⟨loaded, rfl⟩ | ⟨hwrite, -⟩
  · exact hupdate written hstate
  · rw [exec_evalSubmitParent_states] at hstate
    split at hstate
    · exact h key state hstate
    · exact hupdate written hstate
  · exact h key state hstate
  · rw [exec_states providers hwrite] at hstate
    exact h key state hstate

/-- Every save is made over a copy that is running. -/
theorem Saves.base_running {coordinator : PipelineCoordinator} {l : Local}
    {base state : PipelineRunState} (h : Saves coordinator l base point state) :
    base.status = .running := by
  cases h with
  | childAccepted executing _ _ _ _ | childPolled executing _ _ _ _ | handleSaved executing _
  | inFlight executing _ | recorded executing _ _ _ _ =>
    exact executing.live.running
  | cascaded running _ _ _ _ _ | intent running _ _ => exact running
  | dropped live _ _ _ _ | entered live _ _ _ _ | started live _ _ _ _ | lastGood live _ _ _ _ _
  | correction live _ _ _ _ _ _ _ | retry live _ _ _ _ | queued live _ _ | stayed live _ _ _ _
  | moved live _ _ _ _ | finished live _ _ _ _ | exhausted live _ _ _ | failed live _ _ _ =>
    exact live.running

theorem terminal_eq (state : PipelineRunState) (code : TerminalCode) (reason : String) :
    ∃ (artifact : Option ArtifactRef) (text : String),
      state.terminal code reason =
        { state with
          status := code.status
          terminalCode := some code
          terminalReason := some text
          artifact := artifact } := by
  unfold terminal
  split
  · split
    · exact ⟨_, _, rfl⟩
    · exact ⟨state.artifact, reason, rfl⟩
  · exact ⟨state.artifact, reason, rfl⟩

theorem currentStageId_of_currentStage {state : PipelineRunState} {stage : Stage}
    (h : state.currentStage = some stage) : state.currentStageId = some stage.id := by
  unfold currentStage at h
  cases hid : state.currentStageId with
  | none =>
    rw [hid] at h
    cases h
  | some id =>
    rw [hid] at h
    rw [(CompiledPipeline.mem_of_stage? h).2]

section

variable {coordinator : PipelineCoordinator} {l : Local} {base state : PipelineRunState}
  (h : Saves coordinator l base point state)
include h

/-- **The frame of a save**: it keeps the run and its pipeline and, unless the run ends with it,
how the run stands. -/
theorem Saves.frame :
    state.runId = base.runId ∧ state.compiledPipeline = base.compiledPipeline ∧
      (state.status.isTerminal = true ∨
        state.cancelled = base.cancelled ∧ state.terminalCode = base.terminalCode) := by
  have hcopy : ∀ {stage a copy}, Executing coordinator base stage a copy →
      copy.runId = base.runId ∧ copy.compiledPipeline = base.compiledPipeline ∧
        (copy.status.isTerminal = true ∨
          copy.cancelled = base.cancelled ∧ copy.terminalCode = base.terminalCode) := by
    intro stage a copy hexecuting
    rw [hexecuting.copy_eq]
    exact ⟨rfl, rfl, Or.inr ⟨rfl, rfl⟩⟩
  have hended : ∀ (ended : PipelineRunState) code reason,
      (ended.terminal code reason).runId = ended.runId ∧
        (ended.terminal code reason).compiledPipeline = ended.compiledPipeline ∧
        ((ended.terminal code reason).status.isTerminal = true ∨
          (ended.terminal code reason).cancelled = base.cancelled ∧
            (ended.terminal code reason).terminalCode = base.terminalCode) := by
    intro ended code reason
    obtain ⟨artifact, text, heq⟩ := terminal_eq ended code reason
    rw [heq]
    exact ⟨rfl, rfl, Or.inl (by cases code <;> rfl)⟩
  cases h with
  | childAccepted executing _ _ _ _ | childPolled executing _ _ _ _ | handleSaved executing _
  | inFlight executing _ =>
    exact (hcopy executing :)
  | recorded executing _ _ _ _ =>
    rw [recordedState_eq]
    exact (hcopy executing :)
  | finished | exhausted | failed | cascaded => exact hended _ _ _
  | _ => exact ⟨rfl, rfl, Or.inr ⟨rfl, rfl⟩⟩

theorem Saves.runId_eq :
    state.runId = base.runId := h.frame.1

theorem Saves.compiledPipeline_eq :
    state.compiledPipeline = base.compiledPipeline := h.frame.2.1

end

/-- A recorded attempt is COMPLETED exactly if the validated result is. -/
theorem recordedAttempt_status (a : StageAttempt) (result : StageResult) (output : Fields) :
    (recordedAttempt a result output).status =
      if validatedStatus result = .completed then .completed else .failed := by
  unfold recordedAttempt validatedStatus
  cases result.providerHandle with
  | none => rfl
  | some handle =>
    rcases hvalid : providerHandle (some handle) with e | valid
    · simp [hvalid]
    · simp [hvalid]

/-- The RUNNING attempt under the cursor is written again as `a`: still RUNNING, or with the
result that is recorded. -/
structure Written (coordinator : PipelineCoordinator) (base : PipelineRunState) (point : SavePoint)
    (stage : Stage) (running a : StageAttempt) : Prop where
  current : base.currentStage = some stage
  latest : base.latestAttempt stage.id = some running
  status : running.status = .running
  number : a.attempt = running.attempt
  key : a.idempotencyKey = (coordinator.resumedAttempt base stage.id running).idempotencyKey
  outcome : (a.status = .running ∧ ∀ stageId result, point ≠ .recorded stageId result) ∨
    ∃ result, point = .recorded stage.id result ∧
      a.status = if validatedStatus result = .completed then .completed else .failed

theorem Written.running {coordinator : PipelineCoordinator} {base : PipelineRunState}
    {stage : Stage} {running a : StageAttempt} (h : Written coordinator base point stage running a) :
    base.latestStageStatus stage.id = some .running := by
  simp [latestStageStatus, h.latest, h.status]

theorem recordedAttempt_same (a : StageAttempt) (result : StageResult) (output : Fields) :
    (recordedAttempt a result output).attempt = a.attempt ∧
      (recordedAttempt a result output).idempotencyKey = a.idempotencyKey := by
  unfold recordedAttempt
  cases result.providerHandle with
  | none => exact ⟨rfl, rfl⟩
  | some handle =>
    rcases hvalid : providerHandle (some handle) with e | valid
    · simp [hvalid]
    · simp [hvalid]

/-- What a save does to the attempts: nothing, one more of the stage under the cursor, or another
text of its latest one, which was RUNNING. -/
theorem Saves.stageAttempts_cases {coordinator : PipelineCoordinator} {l : Local}
    {base state : PipelineRunState} (h : Saves coordinator l base point state) :
    state.stageAttempts = base.stageAttempts ∨
      (∃ stage, base.currentStage = some stage ∧ point = .started ∧
        state.stageAttempts =
          (base.appendAttempt stage.id (coordinator.nextAttempt base stage.id)).stageAttempts) ∨
      ∃ stage running a, Written coordinator base point stage running a ∧
        state.stageAttempts = (base.setLatestAttempt stage.id a).stageAttempts := by
  have hcopy : ∀ {stage a copy} (a' : StageAttempt) {point : SavePoint} {state : PipelineRunState},
      Executing coordinator base stage a copy →
      a'.attempt = a.attempt → a'.idempotencyKey = a.idempotencyKey →
      ((a'.status = .running ∧ ∀ stageId result, point ≠ .recorded stageId result) ∨
        ∃ result, point = .recorded stage.id result ∧
          a'.status = if validatedStatus result = .completed then .completed else .failed) →
      state.stageAttempts = (copy.setLatestAttempt stage.id a').stageAttempts →
      ∃ stage running a, Written coordinator base point stage running a ∧
        state.stageAttempts = (base.setLatestAttempt stage.id a).stageAttempts := by
    intro stage a copy a' point state hexecuting hnumber hkey houtcome hstate
    obtain ⟨running, hlatest, hstatus, rfl⟩ := hexecuting.latest
    refine ⟨stage, running, a',
      ⟨hexecuting.current, hlatest, hstatus, hnumber, hkey, houtcome⟩, ?_⟩
    rw [hstate, hexecuting.copy_eq, setLatestAttempt_setLatestAttempt]
  have hsame : ∀ {stage a copy} {point : SavePoint} {state : PipelineRunState},
      Executing coordinator base stage a copy →
      (∀ stageId result, point ≠ .recorded stageId result) →
      state.stageAttempts = copy.stageAttempts →
      ∃ stage running a, Written coordinator base point stage running a ∧
        state.stageAttempts = (base.setLatestAttempt stage.id a).stageAttempts := by
    intro stage a copy point state hexecuting hpoint hstate
    refine hcopy a hexecuting rfl rfl (Or.inl ⟨hexecuting.status_eq, hpoint⟩) ?_
    rw [hstate, hexecuting.copy_eq, setLatestAttempt_setLatestAttempt]
  have hterminal : ∀ (ended : PipelineRunState) code reason,
      (ended.terminal code reason).stageAttempts = ended.stageAttempts := by
    intro ended code reason
    obtain ⟨artifact, text, hended⟩ := terminal_eq ended code reason
    rw [hended]
  cases h with
  | childAccepted executing _ _ _ _ | childPolled executing _ _ _ _ | inFlight executing _ =>
    exact Or.inr (Or.inr (hsame executing (fun _ _ heq => by cases heq) rfl))
  | @handleSaved stage a copy handle executing _ =>
    have hrunning : ({ a with providerHandle := some handle } : StageAttempt).status = .running :=
      executing.status_eq
    exact Or.inr (Or.inr (hcopy { a with providerHandle := some handle } executing rfl rfl
      (Or.inl ⟨hrunning, fun _ _ heq => by cases heq⟩) rfl))
  | @recorded stage a copy result output artifact executing _ _ _ _ =>
    rw [recordedState_eq]
    obtain ⟨hnumber, hkey⟩ := recordedAttempt_same a result output
    exact Or.inr (Or.inr (hcopy _ executing hnumber hkey
      (Or.inr ⟨result, rfl, recordedAttempt_status a result output⟩) rfl))
  | started _ current _ _ _ => exact Or.inr (Or.inl ⟨_, current, rfl, rfl⟩)
  | finished | exhausted | failed | cascaded => exact Or.inl (hterminal _ _ _)
  | _ => exact Or.inl rfl

/-- The number of attempts of a stage does not go down. -/
theorem Saves.length_le {coordinator : PipelineCoordinator} {l : Local}
    {base state : PipelineRunState} (h : Saves coordinator l base point state) (stageId : String) :
    (base.stageAttempts stageId).length ≤ (state.stageAttempts stageId).length := by
  rcases h.stageAttempts_cases with hsame | ⟨stage, -, -, hmore⟩ | ⟨stage, running, a, -, hwritten⟩
  · rw [hsame]
  · rw [hmore]
    by_cases hid : stageId = stage.id
    · subst hid
      simp [appendAttempt]
    · simp [appendAttempt, Function.update_of_ne hid]
  · rw [hwritten]
    by_cases hid : stageId = stage.id
    · subst hid
      simp only [setLatestAttempt, Function.update_self, length_append,
        length_dropLast, length_singleton]
      omega
    · simp [setLatestAttempt, Function.update_of_ne hid]

namespace Deployment

variable (d : Deployment) {ls : List (Label CoordinatorOp)} {x : ℕ × Event World Cmd}

/-- What the monitor remembers about each client after a trace. -/
def locals (trace : List (ℕ × Event World Cmd)) : ℕ → Local :=
  d.system.locals (monitor d.coordinator) (fun _ => {}) trace

/-- The trace of a run. -/
def trace (ls : List (Label CoordinatorOp)) : List (ℕ × Event World Cmd) :=
  d.system.trace start ls

/-- The store at the end of a run. -/
def store (ls : List (Label CoordinatorOp)) : World := (d.system.run start ls).store

theorem locals_concat (trace : List (ℕ × Event World Cmd)) (x : ℕ × Event World Cmd) :
    d.locals (trace ++ [x]) = Function.update (d.locals trace) x.1
      ((d.locals trace x.1).note x.2.cmd (exec d.providers x.2.cmd x.2.before).1) :=
  d.system.locals_concat (monitor d.coordinator) _ trace x

/-- Only a load or a save gives a client another copy. -/
theorem locals_concat_same {trace : List (ℕ × Event World Cmd)}
    (h : x.2.cmd.isCopy = false) (i : ℕ) :
    (d.locals (trace ++ [x]) i).base = (d.locals trace i).base ∧
      (d.locals (trace ++ [x]) i).loaded = (d.locals trace i).loaded ∧
      (d.locals (trace ++ [x]) i).point = (d.locals trace i).point := by
  rw [d.locals_concat]
  by_cases hi : i = x.1
  · subst hi
    rw [Function.update_self]
    exact note_same h _
  · rw [Function.update_of_ne hi]
    exact ⟨rfl, rfl, rfl⟩

theorem obeys (ls : List (Label CoordinatorOp)) :
    (∀ earlier x later, d.trace ls = earlier ++ x :: later →
      (d.locals earlier x.1).allows d.coordinator x.2.cmd) ∧
    ∀ (i : ℕ) p, (d.system.run start ls).clients[i]? = some p →
      p.Obeys (monitor d.coordinator) Finished (d.locals (d.trace ls) i) := by
  have hlaunches : ∀ results op p, (∀ i r, results i = some r → ∃ l, Finished l r) →
      (fun _ : CoordinatorOp => True) op → d.system.launch results op = some p →
      p.Obeys (monitor d.coordinator) Finished {} := by
    intro results op p _ _ hp
    cases hp
    exact program_obeys d op
  have hnobody : ∀ (i : ℕ) p, (start.clients)[i]? = some p →
      p.Obeys (monitor d.coordinator) Finished ((fun _ => {} : ℕ → Local) i) := by
    intro i p hp
    cases hp
  exact d.system.obeys_run hlaunches hnobody (fun _ _ => rfl) fun _ _ => trivial

/-- Every command of a run is one that the monitor of its client allows. -/
theorem allows {earlier later : List (ℕ × Event World Cmd)}
    (h : d.trace ls = earlier ++ x :: later) :
    (d.locals earlier x.1).allows d.coordinator x.2.cmd :=
  (d.obeys ls).1 earlier x later h

/-- **Later in a run.**  What holds at some point of a run and is kept by every command holds
at every later command and at the end. -/
theorem later_induction (P : List (ℕ × Event World Cmd) → World → Prop)
    {ls₁ ls₂ : List (Label CoordinatorOp)} (h0 : P (d.trace ls₁) (d.store ls₁))
    (hstep : ∀ earlier x later, d.trace (ls₁ ++ ls₂) = earlier ++ x :: later →
      P earlier x.2.before → P (earlier ++ [x]) (d.system.after x.2)) :
    (∀ x ∈ d.system.trace (d.system.run start ls₁) ls₂,
      ∃ earlier later, d.trace (ls₁ ++ ls₂) = earlier ++ x :: later ∧ P earlier x.2.before) ∧
    P (d.trace (ls₁ ++ ls₂)) (d.store (ls₁ ++ ls₂)) := by
  have htrace : d.trace (ls₁ ++ ls₂) =
      d.trace ls₁ ++ d.system.trace (d.system.run start ls₁) ls₂ :=
    d.system.trace_append start ls₁ ls₂
  have hstore : d.store (ls₁ ++ ls₂) = (d.system.run (d.system.run start ls₁) ls₂).store := by
    unfold store
    rw [System.run_append]
  have hwhole : ∀ earlier x later,
      d.system.trace (d.system.run start ls₁) ls₂ = earlier ++ x :: later →
      d.trace (ls₁ ++ ls₂) = (d.trace ls₁ ++ earlier) ++ x :: later := by
    intro earlier x later h
    rw [htrace, h, append_assoc]
  obtain ⟨hall, hend⟩ := d.system.trace_induction (fun earlier w => P (d.trace ls₁ ++ earlier) w)
    (show P (d.trace ls₁ ++ []) (d.system.run start ls₁).store by simpa [store] using h0)
    (fun earlier x later h hP => by
      simpa using hstep (d.trace ls₁ ++ earlier) x later (hwhole earlier x later h) hP)
  refine ⟨fun x hx => ?_, ?_⟩
  · obtain ⟨earlier, later, h⟩ := append_of_mem hx
    exact ⟨d.trace ls₁ ++ earlier, later, hwhole earlier x later h, hall earlier x later h⟩
  · rw [htrace, hstore]
    exact hend

/-- What is known of a client that has finished. -/
theorem finished_of_result {i : ℕ}
    {r : Except CoordinatorError Outcome} (h : (d.system.run start ls).result i = some r) :
    Finished (d.locals (d.trace ls) i) r := by
  unfold Config.result at h
  split at h
  · rename_i r' hget
    obtain rfl : r' = r := by simpa using h
    cases (d.obeys ls).2 i _ hget with
    | done hfinished => exact hfinished
  · cases h

end Deployment

end GpuManager.Coordinator
