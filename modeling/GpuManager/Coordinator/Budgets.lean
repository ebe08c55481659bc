import Mathlib.Algebra.GroupWithZero.Nat
import Mathlib.Algebra.Order.BigOperators.Group.List
import GpuManager.Coordinator.Driving

/-!
# A run ends within its budget

Executors that answer at once can only make a run longer through retries and corrections, and
both are counted: a stage is retried while its attempts are fewer than its budget, and a loop
is entered while its iterations are fewer than its bound.  `PipelineRunState.work` adds up what
is left of both together with the correction queue, and every call that does not end the run
makes it smaller.

A call that raises makes nothing smaller.  An external result that cannot be recorded raises
once, and the attempt is then ended as unsafe to resume; the result of a leaf is polled again by
every later call and raises again.  So the results of leaves have to be recordable.  And a stage
that a loop lists more often than its budget allows is attempted that often.
-/

namespace GpuManager.Coordinator

open AtomicProgram RedisCoordinatorStore PipelineCoordinator CompiledPipeline PipelineRunState List
open Function
open Option

/-! ## What is asked -/

/-- The loop that a `correction_started` event reports: its id, its correction stage and its
continuation. -/
def correctionOf : RunEvent → Option (String × String × List String)
  | .correctionStarted correctionStageId loopId _ onCorrection =>
    some (loopId, correctionStageId, onCorrection)
  | _ => none

def corrections (events : List RunEvent) : List (String × String × List String) :=
  events.filterMap correctionOf

structure LoopsBounded (pipeline : CompiledPipeline) (events : List RunEvent) : Prop where
  declared : ∀ loop ∈ pipeline.loops,
    (corrections events).count (loop.id, loop.correctionStageId, loop.onCorrection) ≤
      loop.maxIterations
  fallback : ∀ stage, pipeline.stages.find? (fun s => s.kind = .correct) = some stage →
    (corrections events).count (stage.id, stage.id, []) ≤ pipeline.maxLoopCount

/-- No stage is attempted more often than its budget allows, once and for each correction. -/
def AttemptsBounded (pipeline : CompiledPipeline) (state : PipelineRunState)
    (events : List RunEvent) : Prop :=
  ∀ stage ∈ pipeline.stages, (state.stageAttempts stage.id).length ≤
    stage.maxAttempts * (1 + (corrections events).length)

namespace CompiledPipeline

variable (pipeline : CompiledPipeline)

/-- Loops have distinct ids and a continuation, which is what the compiler checks. -/
structure LoopsDeclared : Prop where
  distinct : (pipeline.loops.map Loop.id).Nodup
  continued : ∀ loop ∈ pipeline.loops, loop.onCorrection ≠ []

/-- No loop lists a stage more often than its budget allows. -/
def RepeatsBounded : Prop :=
  ∀ loop ∈ pipeline.loops, ∀ stage ∈ pipeline.stages,
    (loop.correctionStageId :: loop.onCorrection).count stage.id ≤ stage.maxAttempts

def queueBound : ℕ := (pipeline.loops.map fun loop => loop.onCorrection.length).sum + 1

def correctionBudget : ℕ := (pipeline.loops.map Loop.maxIterations).sum + pipeline.maxLoopCount

def advanceBudget : ℕ :=
  pipeline.correctionBudget * (2 * pipeline.queueBound + 1) +
    (pipeline.stages.map fun stage => 2 * stage.maxAttempts).sum + 1

end CompiledPipeline

/-- The executors answer at once, with completed or failed, and the leaf client does not raise. -/
structure Providers.Prompt (providers : Providers) : Prop where
  executes : ∀ calls stage inputs state key result,
    providers.execute calls stage inputs state key = .ok result →
    result.status = .completed ∨ result.status = .failed
  submits : ∀ calls stage inputs state key, ∃ childJobId,
    providers.leafSubmit calls stage inputs state key = .ok childJobId
  polls : ∀ calls childJobId, ∃ poll, providers.leafPoll calls childJobId = .ok poll ∧
    (poll.status = .completed ∨ poll.status = .failed)

def Providers.RecordableLeaves (providers : Providers) : Prop :=
  ∀ calls childJobId poll, providers.leafPoll calls childJobId = .ok poll →
    ∀ now stage, ∃ output artifact, Recordable now stage (leafResult poll) output artifact

/-! ## What prompt executors answer -/

section Answers

variable {d : Deployment} {now : String} {copy : PipelineRunState} {stage : Stage}
  {a b : StageAttempt} {resuming : Bool} {result : StageResult}

theorem sanitizeOutput_nil : sanitizeOutput [] = .ok [] := by
  simp [sanitizeOutput, deepSanitize, rejectedField, sanitizeFields, sanitizeRejectKeys]
  rfl

/-- A failure of the coordinator's own making can be recorded. -/
theorem recordable_failure (now : String) (stage : Stage) (error : Option String) :
    ∃ output artifact,
      Recordable now stage { status := .failed, error := error } output artifact :=
  ⟨[], none, nofun, sanitizeOutput_nil, rfl⟩

/-- An attempt without a handle is answered with completed or failed; only an answer of the
external executor, to the first call, can be one that is not recordable. -/
theorem Answers.prompt (h : Answers d copy stage a resuming result) (now : String)
    (hprompt : d.providers.Prompt) (hrecordable : d.providers.RecordableLeaves)
    (hhandle : a.providerHandle = none) :
    (result.status = .completed ∨ result.status = .failed) ∧
      (resuming = false ∨ ∃ output artifact, Recordable now stage result output artifact) := by
  cases h with
  | unbound _ | unknown _ _ | unhandled _ _ _ _ | other _ =>
    exact ⟨Or.inr rfl, Or.inr (recordable_failure now stage _)⟩
  | @executed inputs calls authority bound =>
    refine ⟨?_, Or.inl rfl⟩
    cases hanswer : d.providers.execute calls stage inputs copy a.idempotencyKey with
    | ok result => exact hprompt.executes _ _ _ _ _ _ hanswer
    | error e => exact Or.inr rfl
  | polled calls authority known =>
    rw [hhandle] at known
    cases known
  | @leaf _ calls childJobId poll authority bound answer =>
    obtain ⟨other, hother, hstatus⟩ := hprompt.polls calls childJobId
    obtain rfl : poll = other := Except.ok.inj (answer.symm.trans hother)
    refine ⟨?_, Or.inr (hrecordable calls childJobId poll answer now stage)⟩
    rcases hstatus with hstatus | hstatus
    · exact Or.inl (by simp [leafResult, hstatus])
    · exact Or.inr (by simp [leafResult, hstatus])

/-- An attempt is left RUNNING only by its first call, and without a handle. -/
theorem Waits.prompt (h : Waits d now copy stage a resuming b) (hprompt : d.providers.Prompt)
    (hrecordable : d.providers.RecordableLeaves) (hhandle : a.providerHandle = none) :
    resuming = false ∧ b.providerHandle = none := by
  have hclosed : ∀ result, Answers d copy stage a resuming result →
      result.status.isOpen = false := by
    intro result hanswers
    rcases (hanswers.prompt now hprompt hrecordable hhandle).1 with hstatus | hstatus
    all_goals
      rw [hstatus]
      rfl
  refine ⟨?_, ?_⟩
  · cases h.stalls with
    | pending answers isOpen =>
      rw [hclosed _ answers] at isOpen
      cases isOpen
    | refused answers closed unrecordable =>
      rcases (answers.prompt now hprompt hrecordable hhandle).2 with hfirst | ⟨output, artifact, hyes⟩
      · exact hfirst
      · exact absurd hyes (unrecordable output artifact)
    | raised authority bound raises =>
      exfalso
      rcases raises with ⟨calls, stage, inputs, state, key, e, hraised⟩ | ⟨calls, id, e, hraised⟩
      · obtain ⟨childJobId, hok⟩ := hprompt.submits calls stage inputs state key
        rw [hok] at hraised
        cases hraised
      · obtain ⟨poll, hok, -⟩ := hprompt.polls calls id
        rw [hok] at hraised
        cases hraised
  · by_contra hne
    obtain ⟨result, hanswers, hopen⟩ := h.handled fun hsame => hne (hsame.trans hhandle)
    rw [hclosed result hanswers] at hopen
    cases hopen

end Answers

/-! ## What follows a result -/

structure SameWork (before after : PipelineRunState) : Prop where
  stageAttempts_eq : after.stageAttempts = before.stageAttempts
  pendingStageIds_eq : after.pendingStageIds = before.pendingStageIds
  loopIterations_eq : after.loopIterations = before.loopIterations
  correctionCount_eq : after.correctionCount = before.correctionCount

def PipelineRunState.OnOpenWork (state : PipelineRunState) : Prop :=
  ∀ stage, state.currentStage = some stage → state.latestStageStatus stage.id ≠ some .completed

/-- How a recorded result is answered: the run ends, goes on with the same work left, or
schedules a correction. -/
inductive Answered (r : PipelineRunState) (stage : Stage) :
    PipelineRunState × List RunEvent → Prop where
  | ended {s : PipelineRunState} {events : List RunEvent} (final : s.status ≠ .running)
      (same : SameWork r s) (quiet : corrections events = []) : Answered r stage (s, events)
  | onward {s : PipelineRunState} {events : List RunEvent} (same : SameWork r s)
      (quiet : corrections events = []) (cursor : s.OnOpenWork)
      (budget : r.latestStageStatus stage.id = some .failed →
        (r.stageAttempts stage.id).length < stage.maxAttempts) : Answered r stage (s, events)
  | corrected {verdict : QCVerdict} {loopId correctionStageId : String}
      {onCorrection : List String} {loopMax : ℕ} {events : List RunEvent}
      (loop : correctionLoop r verdict = some (loopId, correctionStageId, onCorrection, loopMax))
      (bounded : r.loopIterations loopId < loopMax)
      (completed : r.latestStageStatus stage.id = some .completed)
      (reported : corrections events = [(loopId, correctionStageId, onCorrection)]) :
      Answered r stage (r.scheduleCorrection loopId correctionStageId onCorrection, events)

section Answered

variable {r : PipelineRunState} {stage : Stage}

theorem SameWork.refl (r : PipelineRunState) : SameWork r r := ⟨rfl, rfl, rfl, rfl⟩

variable {s : PipelineRunState}

theorem SameWork.latestStageStatus_eq (h : SameWork r s) (stageId : String) :
    s.latestStageStatus stageId = r.latestStageStatus stageId := by
  unfold latestStageStatus latestAttempt
  rw [h.stageAttempts_eq]

theorem ended_answered (hsame : SameWork r s) (code : TerminalCode)
    (reason : String) : Answered r stage (s.ended code reason) := by
  obtain ⟨artifact, text, heq⟩ := terminal_eq s code reason
  unfold ended
  rw [heq]
  refine .ended ?_ ⟨hsame.stageAttempts_eq, hsame.pendingStageIds_eq, hsame.loopIterations_eq,
    hsame.correctionCount_eq⟩ rfl
  cases code <;> exact nofun

/-- The next stage, after a stage that has completed. -/
theorem movesOn_answered (hsame : SameWork r s) (hcurrent : s.currentStage = some stage)
    (hcompleted : r.latestStageStatus stage.id = some .completed) :
    Answered r stage s.movesOn := by
  have hbudget : r.latestStageStatus stage.id = some .failed →
      (r.stageAttempts stage.id).length < stage.maxAttempts := by
    intro hfailed
    rw [hcompleted] at hfailed
    cases hfailed
  have hkept : ∀ t : PipelineRunState, t.stageAttempts = s.stageAttempts →
      t.pendingStageIds = s.pendingStageIds → t.loopIterations = s.loopIterations →
      t.correctionCount = s.correctionCount → SameWork r t :=
    fun t h₁ h₂ h₃ h₄ => ⟨h₁.trans hsame.stageAttempts_eq, h₂.trans hsame.pendingStageIds_eq,
      h₃.trans hsame.loopIterations_eq, h₄.trans hsame.correctionCount_eq⟩
  unfold movesOn
  split
  · refine .onward (hkept _ rfl rfl rfl rfl) rfl (fun other hother => ?_) hbudget
    cases hother
  split
  · split <;> exact ended_answered hsame _ _
  rename_i stageId hready
  have hopen := not_completed_of_ready hready
  split
  · rename_i hstays
    -- The stage that has just completed is not ready.
    rw [currentStageId_of_currentStage hcurrent] at hstays
    obtain rfl := some.inj hstays
    rw [hsame.latestStageStatus_eq] at hopen
    exact absurd hcompleted hopen
  · refine .onward (hkept _ rfl rfl rfl rfl) rfl (fun other hother => ?_) hbudget
    have hid : stageId = other.id := (mem_of_stage? hother).2.symm
    rw [← hid]
    exact hopen

theorem afterVerdict_answered {verdict : QCVerdict} (hcurrent : r.currentStage = some stage)
    (hcompleted : r.latestStageStatus stage.id = some .completed) :
    Answered r stage (r.afterVerdict verdict) := by
  have hreport : ∀ {next : PipelineRunState × List RunEvent}, Answered r stage next →
      Answered r stage
        (next.1, .qcResult verdict.stageId verdict.passed verdict.report :: next.2) := by
    intro next h
    cases h with
    | ended final same quiet => exact .ended final same quiet
    | onward same quiet cursor budget => exact .onward same quiet cursor budget
    | corrected loop bounded completed reported => exact .corrected loop bounded completed reported
  unfold afterVerdict
  apply hreport
  split
  · unfold acceptArtifact
    split
    · exact movesOn_answered ⟨rfl, rfl, rfl, rfl⟩ hcurrent hcompleted
    · exact movesOn_answered (SameWork.refl r) hcurrent hcompleted
  · unfold corrects
    split
    · exact ended_answered (SameWork.refl r) _ _
    rename_i loopId correctionStageId onCorrection loopMax hloop
    split
    · exact ended_answered (SameWork.refl r) _ _
    · rename_i hbounded
      exact .corrected hloop (by omega) hcompleted rfl

/-- **The answer to a result** that is completed or failed. -/
theorem afterResult_answered {result : StageResult} (error : Option String)
    (hcurrent : r.currentStage = some stage)
    (hnumber : ∀ a, r.latestAttempt stage.id = some a →
      a.attempt = (r.stageAttempts stage.id).length)
    (hlatest : r.latestStageStatus stage.id =
      some (if validatedStatus result = .completed then .completed else .failed))
    (hstatus : validatedStatus result = .completed ∨ validatedStatus result = .failed) :
    Answered r stage (r.afterResult stage result error) := by
  unfold afterResult
  split
  · unfold afterFailure
    simp only
    split
    · exact ended_answered (SameWork.refl r) _ _
    split
    · rename_i hfailed _ hretried
      have hopen : r.latestStageStatus stage.id = some .failed := by
        rw [hlatest, hfailed]
        rfl
      refine .onward ⟨rfl, rfl, rfl, rfl⟩ rfl (fun other hother => ?_) (fun _ => ?_)
      · have hid : stage.id = other.id := (mem_of_stage? hother).2.symm
        show r.latestStageStatus other.id ≠ some .completed
        rw [← hid, hopen]
        exact nofun
      · obtain ⟨a, ha, -⟩ := map_eq_some_iff.mp hopen
        rw [ha, map_some, getD_some, hnumber a ha] at hretried
        exact hretried
    · exact ended_answered (SameWork.refl r) _ _
  · rename_i hnot
    have hcompleted : r.latestStageStatus stage.id = some .completed := by
      rw [hlatest, if_pos (hstatus.resolve_right hnot)]
    split
    · exact afterVerdict_answered hcurrent hcompleted
    · exact movesOn_answered (SameWork.refl r) hcurrent hcompleted

end Answered

/-! ## The work that is left -/

/-- What is left to a stage: two for each attempt of its budget, and one for the attempt that is
RUNNING. -/
def PipelineRunState.weight (state : PipelineRunState) (stage : Stage) : ℕ :=
  2 * (stage.maxAttempts - (state.stageAttempts stage.id).length) +
    if state.latestStageStatus stage.id = some .running then 1 else 0

/-- What is left of the loops. -/
def PipelineRunState.correctionsLeft (state : PipelineRunState) : ℕ :=
  (state.compiledPipeline.loops.map fun loop =>
      loop.maxIterations - state.loopIterations loop.id).sum +
    match state.compiledPipeline.stages.find? fun s => s.kind = .correct with
    | some stage => state.maxCorrections - state.loopIterations stage.id
    | none => 0

/-- The work that is left to a run. -/
def PipelineRunState.work (state : PipelineRunState) : ℕ :=
  state.correctionsLeft * (2 * state.compiledPipeline.queueBound + 1) +
    2 * state.pendingStageIds.length +
    (state.compiledPipeline.stages.map state.weight).sum

section Work

variable {pipeline : CompiledPipeline} {state copy : PipelineRunState} {stage : Stage}
  {a b : StageAttempt}

/-- A sum over the stages of a plan changes as its only summand that changes. -/
theorem sum_stages_update (hstage : stage ∈ pipeline.stages) (f g : Stage → ℕ)
    (hsame : ∀ other ∈ pipeline.stages, other.id ≠ stage.id → g other = f other) :
    (pipeline.stages.map g).sum + f stage = (pipeline.stages.map f).sum + g stage := by
  obtain ⟨before, after, hsplit⟩ := append_of_mem hstage
  have hnodup := pipeline.ids_nodup
  rw [hsplit, map_append, map_cons, nodup_append, nodup_cons] at hnodup
  obtain ⟨-, ⟨hafter, -⟩, hapart⟩ := hnodup
  have hbefore : before.map g = before.map f := by
    refine map_congr_left fun other hother => hsame other ?_ fun hid => ?_
    · rw [hsplit]
      exact mem_append_left _ hother
    · exact hapart other.id (mem_map_of_mem hother) stage.id mem_cons_self hid
  have hrest : after.map g = after.map f := by
    refine map_congr_left fun other hother => hsame other ?_ fun hid => ?_
    · rw [hsplit]
      exact mem_append_right _ (mem_cons_of_mem _ hother)
    · exact hafter (hid ▸ mem_map_of_mem hother)
  rw [hsplit]
  simp only [map_append, map_cons, sum_append, sum_cons, hbefore, hrest]
  omega

theorem weight_of_ne (hsame : ∀ id, id ≠ stage.id → copy.stageAttempts id = state.stageAttempts id)
    (other : Stage) (hne : other.id ≠ stage.id) : copy.weight other = state.weight other := by
  unfold weight latestStageStatus latestAttempt
  rw [hsame other.id hne]

theorem stageAttempts_setLatestAttempt_of_ne (state : PipelineRunState) (stageId : String)
    (a : StageAttempt) (id : String) (hne : id ≠ stageId) :
    (state.setLatestAttempt stageId a).stageAttempts id = state.stageAttempts id :=
  update_of_ne hne _ _

theorem length_setLatestAttempt (hlatest : state.latestAttempt stage.id = some a) (id : String) :
    ((state.setLatestAttempt stage.id b).stageAttempts id).length =
      (state.stageAttempts id).length := by
  by_cases hid : id = stage.id
  · subst hid
    have hpos : (state.stageAttempts stage.id).length ≠ 0 := by
      intro hzero
      rw [length_eq_zero_iff] at hzero
      simp [latestAttempt, hzero] at hlatest
    simp only [setLatestAttempt, update_self, length_append,
      length_dropLast, length_singleton]
    omega
  · rw [stageAttempts_setLatestAttempt_of_ne state stage.id b id hid]

theorem latestStageStatus_setLatestAttempt (state : PipelineRunState) (stageId : String)
    (a : StageAttempt) :
    (state.setLatestAttempt stageId a).latestStageStatus stageId = some a.status := by
  unfold latestStageStatus
  rw [latestAttempt_setLatestAttempt]
  rfl

/-- A new attempt takes from the budget, or is one more than the budget. -/
theorem weight_appendAttempt (hidle : state.latestStageStatus stage.id ≠ some .running)
    (ha : a.status = .running) :
    (state.appendAttempt stage.id a).weight stage ≤ state.weight stage + 1 ∧
      ((state.stageAttempts stage.id).length < stage.maxAttempts →
        (state.appendAttempt stage.id a).weight stage + 1 = state.weight stage) := by
  have hlength : ((state.appendAttempt stage.id a).stageAttempts stage.id).length =
      (state.stageAttempts stage.id).length + 1 := by
    simp [appendAttempt]
  have hstatus : (state.appendAttempt stage.id a).latestStageStatus stage.id = some .running := by
    unfold latestStageStatus
    rw [latestAttempt_appendAttempt]
    exact congrArg some ha
  unfold weight
  rw [hlength, if_pos hstatus, if_neg hidle]
  constructor
  · omega
  · intro hlt
    omega

/-- An attempt that is recorded is no longer RUNNING. -/
theorem weight_recorded (hlatest : copy.latestAttempt stage.id = some a) (ha : a.status = .running)
    (hb : b.status ≠ .running) :
    (copy.setLatestAttempt stage.id b).weight stage + 1 = copy.weight stage := by
  have hrunning : copy.latestStageStatus stage.id = some .running := by
    unfold latestStageStatus
    rw [hlatest]
    exact congrArg some ha
  have hover : (copy.setLatestAttempt stage.id b).latestStageStatus stage.id ≠ some .running := by
    rw [latestStageStatus_setLatestAttempt]
    exact fun h => hb (some.inj h)
  unfold weight
  rw [length_setLatestAttempt hlatest, if_neg hover, if_pos hrunning]

theorem weight_same (hlatest : copy.latestAttempt stage.id = some a) (ha : a.status = .running)
    (hb : b.status = .running) :
    (copy.setLatestAttempt stage.id b).weight stage = copy.weight stage := by
  have hrunning : copy.latestStageStatus stage.id = some .running := by
    unfold latestStageStatus
    rw [hlatest]
    exact congrArg some ha
  have hstill : (copy.setLatestAttempt stage.id b).latestStageStatus stage.id = some .running := by
    rw [latestStageStatus_setLatestAttempt, hb]
  unfold weight
  rw [length_setLatestAttempt hlatest, if_pos hstill, if_pos hrunning]

end Work

/-! ### Corrections -/

section Corrections

variable {r : PipelineRunState} {verdict : QCVerdict} {loopId correctionStageId : String}
  {onCorrection : List String} {loopMax : ℕ}

theorem correctionsLeft_scheduleCorrection
    (hloop : correctionLoop r verdict = some (loopId, correctionStageId, onCorrection, loopMax))
    (hbounded : r.loopIterations loopId < loopMax) :
    (r.scheduleCorrection loopId correctionStageId onCorrection).correctionsLeft + 1 ≤
      r.correctionsLeft := by
  have hcount : ∀ id, r.loopIterations id ≤
      (r.scheduleCorrection loopId correctionStageId onCorrection).loopIterations id := by
    intro id
    by_cases hid : id = loopId
    · subst hid
      simp [scheduleCorrection]
    · simp [scheduleCorrection, update_of_ne hid]
  have hnext : (r.scheduleCorrection loopId correctionStageId onCorrection).loopIterations loopId =
      r.loopIterations loopId + 1 := update_self ..
  have hle : (r.compiledPipeline.loops.map fun loop => loop.maxIterations -
        (r.scheduleCorrection loopId correctionStageId onCorrection).loopIterations loop.id).sum ≤
      (r.compiledPipeline.loops.map fun loop =>
        loop.maxIterations - r.loopIterations loop.id).sum :=
    sum_le_sum fun loop _ => Nat.sub_le_sub_left (hcount loop.id) _
  unfold correctionsLeft
  change List.sum _ + (match r.compiledPipeline.stages.find? fun s => s.kind = .correct with
    | some stage => r.maxCorrections -
        (r.scheduleCorrection loopId correctionStageId onCorrection).loopIterations stage.id
    | none => 0) + 1 ≤ _
  rcases correctionLoop_cases hloop with ⟨loop, hmem, rfl, rfl, rfl, rfl⟩ |
    ⟨⟨stage, hstage, rfl, rfl⟩, rfl, rfl⟩
  · have hlt : (r.compiledPipeline.loops.map fun other => other.maxIterations -
          (r.scheduleCorrection loop.id loop.correctionStageId loop.onCorrection).loopIterations
            other.id).sum <
        (r.compiledPipeline.loops.map fun other =>
          other.maxIterations - r.loopIterations other.id).sum := by
      refine sum_lt_sum _ _ (fun other _ => Nat.sub_le_sub_left (hcount other.id) _)
        ⟨loop, hmem, ?_⟩
      rw [hnext]
      omega
    cases hcorrect : r.compiledPipeline.stages.find? fun s => s.kind = .correct with
    | none =>
      simp only
      exact hlt
    | some stage =>
      simp only
      have := hcount stage.id
      exact Nat.succ_le_of_lt (Nat.add_lt_add_of_lt_of_le hlt (Nat.sub_le_sub_left this _))
  · rw [hstage]
    simp only
    rw [hnext]
    have hfallback : r.maxCorrections - (r.loopIterations stage.id + 1) + 1 ≤
        r.maxCorrections - r.loopIterations stage.id := by omega
    have hboth := Nat.add_le_add hle hfallback
    rw [← Nat.add_assoc] at hboth
    exact hboth

/-- The correction queue is not longer than its bound. -/
theorem length_le_queueBound
    (hloop : correctionLoop r verdict = some (loopId, correctionStageId, onCorrection, loopMax)) :
    (correctionStageId :: onCorrection).length ≤ r.compiledPipeline.queueBound := by
  unfold queueBound
  rcases correctionLoop_cases hloop with ⟨loop, hmem, rfl, rfl, rfl, rfl⟩ | ⟨-, rfl, -⟩
  · have hle : loop.onCorrection.length ≤
        (r.compiledPipeline.loops.map fun loop => loop.onCorrection.length).sum :=
      single_le_sum (fun _ _ => Nat.zero_le _) _ (mem_map_of_mem hmem)
    simpa using hle
  · simp

/-- A stage is not listed more often than its budget allows. -/
theorem count_le_maxAttempts {stage : Stage} (hplan : r.compiledPipeline.RepeatsBounded)
    (hstage : stage ∈ r.compiledPipeline.stages)
    (hloop : correctionLoop r verdict = some (loopId, correctionStageId, onCorrection, loopMax)) :
    (correctionStageId :: onCorrection).count stage.id ≤ stage.maxAttempts := by
  rcases correctionLoop_cases hloop with ⟨loop, hmem, rfl, rfl, rfl, rfl⟩ | ⟨-, rfl, -⟩
  · exact hplan loop hmem stage hstage
  have hpos : 1 ≤ stage.maxAttempts := by
    unfold Stage.maxAttempts
    simp only
    omega
  refine count_le_length.trans ?_
  exact hpos

/-- A correction makes the work smaller, although it fills the queue. -/
theorem work_scheduleCorrection
    (hloop : correctionLoop r verdict = some (loopId, correctionStageId, onCorrection, loopMax))
    (hbounded : r.loopIterations loopId < loopMax) :
    (r.scheduleCorrection loopId correctionStageId onCorrection).work + 1 ≤ r.work := by
  have hleft := correctionsLeft_scheduleCorrection hloop hbounded
  have hqueue := length_le_queueBound hloop
  have hmul := Nat.mul_le_mul_right (2 * r.compiledPipeline.queueBound + 1) hleft
  rw [Nat.add_mul, Nat.one_mul] at hmul
  have hsame : (r.scheduleCorrection loopId correctionStageId onCorrection).work =
      (r.scheduleCorrection loopId correctionStageId onCorrection).correctionsLeft *
          (2 * r.compiledPipeline.queueBound + 1) +
        2 * (correctionStageId :: onCorrection).length +
        (r.compiledPipeline.stages.map r.weight).sum := rfl
  rw [hsame]
  unfold work
  omega

end Corrections

/-! ## The invariants -/

structure Outlook (state : PipelineRunState) : Prop where
  numbered : ∀ stageId a, state.latestAttempt stageId = some a →
    a.attempt = (state.stageAttempts stageId).length
  handleless : ∀ stageId a, state.latestAttempt stageId = some a → a.status = .running →
    a.providerHandle = none
  started : ∀ stageId status, state.latestStageStatus stageId = some status →
    status = .running ∨ status = .completed ∨ status = .failed
  budgeted : ∀ stage ∈ state.compiledPipeline.stages,
    state.latestStageStatus stage.id = some .failed →
    (state.stageAttempts stage.id).length < stage.maxAttempts
  cursor : state.OnOpenWork
  queued : state.pendingStageIds ≠ [] → 0 < state.correctionCount

/-- The attempts of a stage, with those that the queue still holds for it. -/
def Spent (state : PipelineRunState) : Prop :=
  ∀ stage ∈ state.compiledPipeline.stages,
    (state.stageAttempts stage.id).length + state.pendingStageIds.count stage.id ≤
      stage.maxAttempts * (1 + state.correctionCount)

structure Reported (state : PipelineRunState) (events : List RunEvent) : Prop where
  iterations : ∀ loopId,
    ((corrections events).countP fun c => c.1 == loopId) = state.loopIterations loopId
  total : (corrections events).length = state.correctionCount
  bounded : LoopsBounded state.compiledPipeline events

section Invariants

variable {d : Deployment} {now : String} {state copy : PipelineRunState} {stage : Stage}
  {a : StageAttempt} {resuming : Bool} {events : List RunEvent}

/-- Where `advance` looks for the stage to run: at the head of the queue, or at the cursor. -/
theorem entered_cases (state : PipelineRunState) :
    (∃ next remaining, state.pendingStageIds = next :: remaining ∧
        state.currentStageRunning = false ∧ state.entered = state.enterPending next remaining) ∨
      (state.pendingStageIds = [] ∨ state.currentStageRunning = true) ∧ state.entered = state := by
  unfold entered
  cases hpending : state.pendingStageIds with
  | nil => exact Or.inr ⟨Or.inl rfl, rfl⟩
  | cons next remaining =>
    cases hrunning : state.currentStageRunning with
    | true => exact Or.inr ⟨Or.inr rfl, rfl⟩
    | false => exact Or.inl ⟨next, remaining, rfl, rfl, rfl⟩

theorem entered_stageAttempts (state : PipelineRunState) :
    state.entered.stageAttempts = state.stageAttempts := by
  rcases entered_cases state with ⟨next, remaining, -, -, hentered⟩ | ⟨-, hentered⟩
  · rw [hentered]
    rfl
  · rw [hentered]

/-- Nothing that is completed is skipped: what the cursor is on is open, and what the queue
holds is entered again. -/
theorem Outlook.not_skips (hK : Outlook state)
    (hcurrent : state.entered.currentStage = some stage) :
    state.entered.skipsCompleted stage.id = false := by
  rcases entered_cases state with ⟨next, remaining, hpending, -, hentered⟩ | ⟨-, hentered⟩
  · have hcount : 0 < state.correctionCount := hK.queued (by rw [hpending]; exact cons_ne_nil _ _)
    have hreentry : state.entered.isDeclaredLoopReentry = true := by
      rw [hentered]
      simp only [isDeclaredLoopReentry, enterPending,
        Nat.ne_of_gt hcount, if_false, isSome_some, Bool.and_true, decide_eq_true_eq]
      exact hcount
    unfold skipsCompleted
    rw [hreentry]
    split
    · simp
    · rfl
  · rw [hentered] at hcurrent ⊢
    have hopen := hK.cursor stage hcurrent
    unfold skipsCompleted
    unfold latestStageStatus at hopen
    split
    · rename_i last hlast
      rw [hlast] at hopen
      have hne : last.status ≠ .completed := fun h => hopen (congrArg some h)
      simp [hne]
    · rfl

/-- A fresh attempt comes from the head of the queue, or is within the budget of its stage. -/
theorem Outlook.fresh (hK : Outlook state) (hcurrent : state.entered.currentStage = some stage)
    (hidle : state.entered.latestStageStatus stage.id ≠ some .running) :
    state.pendingStageIds = stage.id :: state.entered.pendingStageIds ∨
      state.pendingStageIds = [] ∧ state.entered.pendingStageIds = [] ∧
        (state.stageAttempts stage.id).length < stage.maxAttempts := by
  have hmem := (mem_of_stage? (bind_eq_some_iff.mp hcurrent).choose_spec.2).1
  rw [(entered_same state).compiledPipeline_eq] at hmem
  have hid := currentStageId_of_currentStage hcurrent
  rcases entered_cases state with ⟨next, remaining, hpending, -, hentered⟩ | ⟨hwait, hentered⟩
  · left
    rw [hentered] at hid ⊢
    rw [hpending]
    exact congrArg (· :: remaining) (some.inj hid)
  · right
    rw [hentered] at hid hidle hcurrent ⊢
    have hempty : state.pendingStageIds = [] := by
      rcases hwait with hempty | hrunning
      · exact hempty
      exfalso
      apply hidle
      simpa [currentStageRunning, hid] using hrunning
    refine ⟨hempty, hempty, ?_⟩
    cases hlatest : state.latestStageStatus stage.id with
    | none =>
      have hnil : state.stageAttempts stage.id = [] := by
        simpa [latestStageStatus, latestAttempt] using hlatest
      rw [hnil]
      unfold Stage.maxAttempts
      simp only [length_nil]
      omega
    | some status =>
      rcases hK.started stage.id status hlatest with rfl | rfl | rfl
      · exact absurd hlatest hidle
      · exact absurd hlatest (hK.cursor stage hcurrent)
      · exact hK.budgeted stage hmem hlatest

variable {next : PipelineRunState} {more : List RunEvent}

/-- The outlook depends on the attempts of one stage, where only these change. -/
theorem Outlook.update {b : StageAttempt} (hK : Outlook state)
    (hplan : next.compiledPipeline = state.compiledPipeline)
    (hothers : ∀ id, id ≠ stage.id → next.stageAttempts id = state.stageAttempts id)
    (hlatest : next.latestAttempt stage.id = some b)
    (hnumber : b.attempt = (next.stageAttempts stage.id).length)
    (hhandle : b.status = .running → b.providerHandle = none)
    (hstatus : b.status = .running ∨ b.status = .completed ∨ b.status = .failed)
    (hbudget : b.status = .failed → (next.stageAttempts stage.id).length < stage.maxAttempts)
    (hstage : stage ∈ state.compiledPipeline.stages) (hcursor : next.OnOpenWork)
    (hqueued : next.pendingStageIds ≠ [] → 0 < next.correctionCount) : Outlook next := by
  have hsame : ∀ id, id ≠ stage.id → next.latestAttempt id = state.latestAttempt id := by
    intro id hne
    unfold latestAttempt
    rw [hothers id hne]
  refine ⟨fun id a ha => ?_, fun id a ha hrunning => ?_, fun id status hid => ?_,
    fun other hother hfailed => ?_, hcursor, hqueued⟩
  · by_cases hid : id = stage.id
    · subst hid
      obtain rfl : b = a := some.inj (hlatest.symm.trans ha)
      exact hnumber
    · rw [hsame id hid] at ha
      rw [hothers id hid]
      exact hK.numbered id a ha
  · by_cases hid : id = stage.id
    · subst hid
      obtain rfl : b = a := some.inj (hlatest.symm.trans ha)
      exact hhandle hrunning
    · rw [hsame id hid] at ha
      exact hK.handleless id a ha hrunning
  · obtain ⟨a, ha, rfl⟩ := map_eq_some_iff.mp hid
    by_cases hid : id = stage.id
    · subst hid
      obtain rfl : b = a := some.inj (hlatest.symm.trans ha)
      exact hstatus
    · rw [hsame id hid] at ha
      exact hK.started id a.status (congrArg (Option.map StageAttempt.status) ha)
  · rw [hplan] at hother
    obtain ⟨a, ha, hfailed'⟩ := map_eq_some_iff.mp hfailed
    by_cases hid : other.id = stage.id
    · obtain rfl : other = stage :=
        inj_on_of_nodup_map state.compiledPipeline.ids_nodup hother hstage hid
      obtain rfl : b = a := some.inj (hlatest.symm.trans ha)
      exact hbudget hfailed'
    · rw [hothers other.id hid]
      refine hK.budgeted other hother ?_
      unfold latestStageStatus
      rw [← hsame other.id hid, ha]
      exact congrArg some hfailed'

/-- The copy that is executed has the same outlook. -/
theorem Outlook.begun (hK : Outlook state) (hcurrent : state.entered.currentStage = some stage)
    (hstage : stage ∈ state.compiledPipeline.stages)
    (h : Begun d.coordinator state.entered stage resuming a copy events) :
    Outlook copy ∧ a.providerHandle = none ∧ a.attempt = (copy.stageAttempts stage.id).length := by
  obtain ⟨hlatest, ha⟩ := h.attempt
  have hplan : copy.compiledPipeline = state.compiledPipeline :=
    ((entered_same state).trans h.same).compiledPipeline_eq
  have hattempts := entered_stageAttempts state
  have hothers : ∀ id, id ≠ stage.id → copy.stageAttempts id = state.stageAttempts id := by
    intro id hne
    rw [← hattempts]
    cases h with
    | fresh | resumed => exact update_of_ne hne _ _
  have hold : ∀ {running}, state.entered.latestAttempt stage.id = some running →
      state.latestAttempt stage.id = some running := by
    intro running hrunning
    unfold latestAttempt at hrunning ⊢
    rw [← hattempts]
    exact hrunning
  have hnumber : a.attempt = (copy.stageAttempts stage.id).length := by
    cases h with
    | fresh => simp [nextAttempt, appendAttempt]
    | resumed resolved latest status =>
      rw [length_setLatestAttempt latest, hattempts]
      have hnumber := hK.numbered stage.id _ (hold latest)
      exact hnumber
  have hhandle : a.providerHandle = none := by
    cases h with
    | fresh => rfl
    | resumed resolved latest status =>
      have hhandle := hK.handleless stage.id _ (hold latest) status
      exact hhandle
  have hcursor : copy.OnOpenWork := by
    intro other hother
    have hid : other.id = stage.id := by
      have hsame : copy.currentStage = state.entered.currentStage := by cases h <;> rfl
      rw [hsame, hcurrent] at hother
      rw [some.inj hother]
    rw [hid]
    unfold latestStageStatus
    rw [hlatest, map_some, ha]
    simp only [ne_eq, some.injEq, reduceCtorEq, not_false_eq_true]
  have hqueue : copy.pendingStageIds ≠ [] → 0 < copy.correctionCount := by
    have hsame : copy.pendingStageIds = state.entered.pendingStageIds ∧
        copy.correctionCount = state.entered.correctionCount := by cases h <;> exact ⟨rfl, rfl⟩
    rw [hsame.1, hsame.2]
    rcases entered_cases state with ⟨next, remaining, hpending, -, hentered⟩ | ⟨-, hentered⟩
    · rw [hentered]
      exact fun _ => hK.queued (by rw [hpending]; exact cons_ne_nil _ _)
    · rw [hentered]
      exact hK.queued
  refine ⟨hK.update hplan hothers hlatest hnumber (fun _ => hhandle) (Or.inl ha) ?_ hstage hcursor
    hqueue, hhandle, hnumber⟩
  intro hfailed
  rw [ha] at hfailed
  cases hfailed

/-- The work after an attempt of one stage was written. -/
theorem work_update (hplan : next.compiledPipeline = state.compiledPipeline)
    (hmax : next.maxCorrections = state.maxCorrections)
    (hloops : next.loopIterations = state.loopIterations)
    (hstage : stage ∈ state.compiledPipeline.stages)
    (hothers : ∀ id, id ≠ stage.id → next.stageAttempts id = state.stageAttempts id) :
    next.work + 2 * state.pendingStageIds.length + state.weight stage =
      state.work + 2 * next.pendingStageIds.length + next.weight stage := by
  have hsum := sum_stages_update hstage state.weight next.weight
    fun other _ hne => weight_of_ne hothers other hne
  have hleft : next.correctionsLeft = state.correctionsLeft := by
    unfold correctionsLeft
    rw [hplan, hmax, hloops]
  unfold work
  rw [hplan, hleft]
  omega

/-- A fresh attempt makes the work smaller; a resumed one leaves it as it is. -/
theorem Outlook.begun_work (hK : Outlook state) (hcurrent : state.entered.currentStage = some stage)
    (hstage : stage ∈ state.compiledPipeline.stages)
    (h : Begun d.coordinator state.entered stage resuming a copy events) :
    (resuming = false → copy.work + 1 ≤ state.work) ∧ (resuming = true → copy.work ≤ state.work) := by
  have hsame := (entered_same state).trans h.same
  have hattempts := entered_stageAttempts state
  have hothers : ∀ id, id ≠ stage.id → copy.stageAttempts id = state.stageAttempts id := by
    intro id hne
    rw [← hattempts]
    cases h with
    | fresh | resumed => exact update_of_ne hne _ _
  have hloops : copy.loopIterations = state.loopIterations := by
    have hentered : state.entered.loopIterations = state.loopIterations := by
      unfold entered
      split <;> rfl
    rw [← hentered]
    cases h <;> rfl
  have hupdate := work_update hsame.compiledPipeline_eq hsame.maxCorrections_eq hloops hstage hothers
  have hweight : state.entered.weight stage = state.weight stage := by
    unfold weight latestStageStatus
      latestAttempt
    rw [hattempts]
  have hqueue : state.entered.pendingStageIds.length ≤ state.pendingStageIds.length := by
    rcases entered_cases state with ⟨next, remaining, hpending, -, hentered⟩ | ⟨-, hentered⟩
    · rw [hentered, hpending]
      exact Nat.le_succ _
    · rw [hentered]
  constructor
  · rintro rfl
    cases h with
    | fresh resolved idle =>
      obtain ⟨hle, hlt⟩ := weight_appendAttempt (a := d.coordinator.nextAttempt state.entered stage.id)
        idle rfl
      rw [hweight] at hle hlt
      change (work _) + 2 * _ + _ = _ + 2 * state.entered.pendingStageIds.length +
        _ at hupdate
      rcases hK.fresh hcurrent idle with hnext | ⟨hempty, hempty', hbudget⟩
      · rw [hnext, length_cons] at hupdate
        omega
      rw [hattempts] at hlt
      have := hlt hbudget
      rw [hempty, hempty'] at hupdate
      omega
  · rintro rfl
    cases h with
    | resumed resolved latest status =>
      have hsame' : (state.entered.setLatestAttempt stage.id
          (d.coordinator.resumedAttempt state.entered stage.id _)).weight stage =
          state.entered.weight stage := weight_same latest status status
      change (work _) + 2 * _ + _ = _ + 2 * state.entered.pendingStageIds.length +
        _ at hupdate
      omega

/-- What the queue held for the stage is now an attempt. -/
theorem Spent.begun (hK : Outlook state) (hspent : Spent state)
    (hcurrent : state.entered.currentStage = some stage)
    (h : Begun d.coordinator state.entered stage resuming a copy events) : Spent copy := by
  have hattempts := entered_stageAttempts state
  have hplan : copy.compiledPipeline = state.compiledPipeline :=
    ((entered_same state).trans h.same).compiledPipeline_eq
  have hcounts : copy.pendingStageIds = state.entered.pendingStageIds ∧
      copy.correctionCount = state.correctionCount := by
    have hentered : state.entered.correctionCount = state.correctionCount := by
      unfold entered
      split <;> rfl
    rw [← hentered]
    cases h <;> exact ⟨rfl, rfl⟩
  have hqueue : ∀ id, state.entered.pendingStageIds.count id ≤ state.pendingStageIds.count id := by
    intro id
    rcases entered_cases state with ⟨next, remaining, hpending, -, hentered⟩ | ⟨-, hentered⟩
    · rw [hentered, hpending]
      exact count_le_count_cons
    · rw [hentered]
  intro other hother
  rw [hplan] at hother
  have hold := hspent other hother
  rw [hcounts.1, hcounts.2]
  cases h with
  | fresh resolved idle =>
    by_cases hid : other.id = stage.id
    · have hstage : stage ∈ state.compiledPipeline.stages := by
        have hmem := (mem_of_stage?
          (bind_eq_some_iff.mp hcurrent).choose_spec.2).1
        rwa [(entered_same state).compiledPipeline_eq] at hmem
      obtain rfl : other = stage :=
        inj_on_of_nodup_map state.compiledPipeline.ids_nodup hother hstage hid
      have hlength : ((state.entered.appendAttempt other.id
          (d.coordinator.nextAttempt state.entered other.id)).stageAttempts other.id).length =
          (state.stageAttempts other.id).length + 1 := by
        rw [← hattempts]
        simp [appendAttempt]
      rw [hlength]
      rcases hK.fresh hcurrent idle with hnext | ⟨hempty, hempty', hbudget⟩
      · rw [hnext, count_cons_self] at hold
        omega
      rw [hempty', count_nil]
      have hmul : other.maxAttempts ≤ other.maxAttempts * (1 + state.correctionCount) :=
        Nat.le_mul_of_pos_right _ (by omega)
      omega
    · have hsame : (state.entered.appendAttempt stage.id
          (d.coordinator.nextAttempt state.entered stage.id)).stageAttempts other.id =
          state.stageAttempts other.id := by
        rw [← hattempts]
        exact update_of_ne hid _ _
      rw [hsame]
      have := hqueue other.id
      omega
  | resumed resolved latest status =>
    rw [length_setLatestAttempt latest, hattempts]
    have := hqueue other.id
    omega

theorem corrections_append (events more : List RunEvent) :
    corrections (events ++ more) = corrections events ++ corrections more :=
  filterMap_append

theorem Reported.quiet
    (h : Reported state events) (hplan : next.compiledPipeline = state.compiledPipeline)
    (hloops : next.loopIterations = state.loopIterations)
    (hcount : next.correctionCount = state.correctionCount) (hquiet : corrections more = []) :
    Reported next (events ++ more) := by
  have hsame : corrections (events ++ more) = corrections events := by
    rw [corrections_append, hquiet, append_nil]
  refine ⟨fun loopId => ?_, ?_, fun loop hloop => ?_, fun stage hstage => ?_⟩
  · rw [hsame, hloops]
    exact h.iterations loopId
  · rw [hsame, hcount]
    exact h.total
  · rw [hsame]
    rw [hplan] at hloop
    exact h.bounded.declared loop hloop
  · rw [hsame, hplan]
    rw [hplan] at hstage
    exact h.bounded.fallback stage hstage

/-- A correction is counted and reported.  Its loop is known by what is reported: ids are
distinct, and only the fallback has no continuation. -/
theorem Reported.corrected {verdict : QCVerdict} {loopId correctionStageId : String}
    {onCorrection : List String} {loopMax : ℕ} (h : Reported state events)
    (hplan : state.compiledPipeline.LoopsDeclared)
    (hmax : state.maxCorrections = state.compiledPipeline.maxLoopCount)
    (hloop : correctionLoop state verdict = some (loopId, correctionStageId, onCorrection, loopMax))
    (hbounded : state.loopIterations loopId < loopMax)
    (hreported : corrections more = [(loopId, correctionStageId, onCorrection)]) :
    Reported (state.scheduleCorrection loopId correctionStageId onCorrection) (events ++ more) := by
  have hsame : corrections (events ++ more) =
      corrections events ++ [(loopId, correctionStageId, onCorrection)] := by
    rw [corrections_append, hreported]
  -- The entries of one loop are among those of its id.
  have hentries : ∀ c : String × String × List String, c.1 = loopId →
      (corrections events).count c < loopMax := by
    intro c hid
    refine lt_of_le_of_lt ?_ hbounded
    rw [← h.iterations loopId, count_eq_countP]
    refine countP_mono_left fun other _ hother => ?_
    rw [beq_iff_eq.mp hother]
    exact beq_iff_eq.mpr hid
  have hother : ∀ c : String × String × List String, c ≠ (loopId, correctionStageId, onCorrection) →
      (corrections (events ++ more)).count c = (corrections events).count c := by
    intro c hne
    rw [hsame, count_append, count_singleton, if_neg, Nat.add_zero]
    exact fun heq => hne (beq_iff_eq.mp heq).symm
  have hsuch : ∀ c : String × String × List String, c = (loopId, correctionStageId, onCorrection) →
      (corrections (events ++ more)).count c ≤ loopMax := by
    rintro c rfl
    have hlt := hentries (loopId, correctionStageId, onCorrection) rfl
    rw [hsame, count_append, count_singleton_self]
    exact hlt
  refine ⟨fun id => ?_, ?_, fun loop hmem => ?_, fun stage hstage => ?_⟩
  · rw [hsame, countP_append, h.iterations]
    by_cases hid : id = loopId
    · subst hid
      simp [scheduleCorrection]
    · simp [scheduleCorrection, update_of_ne hid, Ne.symm hid]
  · rw [hsame, length_append, h.total]
    rfl
  · replace hmem : loop ∈ state.compiledPipeline.loops := hmem
    by_cases hthis : (loop.id, loop.correctionStageId, loop.onCorrection) =
        (loopId, correctionStageId, onCorrection)
    · refine (hsuch _ hthis).trans (le_of_eq ?_)
      simp only [Prod.mk.injEq] at hthis
      rcases correctionLoop_cases hloop with ⟨chosen, hchosen, hid, -, -, rfl⟩ | ⟨-, hnone, -⟩
      · rw [inj_on_of_nodup_map hplan.distinct hchosen hmem (hid.symm.trans hthis.1.symm)]
      · exact absurd (hthis.2.2.trans hnone) (hplan.continued loop hmem)
    · rw [hother _ hthis]
      exact h.bounded.declared loop hmem
  · replace hstage : state.compiledPipeline.stages.find? (fun s => s.kind = .correct) = some stage :=
      hstage
    by_cases hthis : (stage.id, stage.id, []) = (loopId, correctionStageId, onCorrection)
    · refine (hsuch _ hthis).trans (le_of_eq ?_)
      simp only [Prod.mk.injEq] at hthis
      rcases correctionLoop_cases hloop with ⟨chosen, hchosen, -, -, hon, -⟩ | ⟨-, -, rfl⟩
      · exact absurd (hon.symm.trans hthis.2.2.symm) (hplan.continued chosen hchosen)
      · exact hmax
    · rw [hother _ hthis]
      exact h.bounded.fallback stage hstage

end Invariants

structure BudgetKept (pipeline : CompiledPipeline) (n : ℕ) (state : PipelineRunState)
    (events : List RunEvent) : Prop where
  plan : state.compiledPipeline = pipeline
  capped : state.maxCorrections = pipeline.maxLoopCount
  spent : Spent state
  reported : Reported state events
  going : state.status = .running → Outlook state ∧ state.work + n + 1 ≤ pipeline.advanceBudget

section Step

variable {d : Deployment} {now : String} {pipeline : CompiledPipeline} {n : ℕ}
  {state copy : PipelineRunState} {stage : Stage} {a : StageAttempt} {resuming : Bool}
  {events more : List RunEvent} {next : PipelineRunState × List RunEvent}

/-- Spent attempts, where neither attempts nor queue become more. -/
theorem Spent.same (h : Spent copy) (hplan : s.compiledPipeline = copy.compiledPipeline)
    (hlength : ∀ id, (s.stageAttempts id).length = (copy.stageAttempts id).length)
    (hqueue : ∀ id, s.pendingStageIds.count id ≤ copy.pendingStageIds.count id)
    (hcount : s.correctionCount = copy.correctionCount) : Spent s := by
  intro other hother
  rw [hplan] at hother
  have hold := h other hother
  have hless := hqueue other.id
  rw [hlength, hcount]
  omega

/-- An attempt of a stage is RUNNING, in a state whose books are kept. -/
structure Underway (pipeline : CompiledPipeline) (copy : PipelineRunState) (stage : Stage)
    (a : StageAttempt) (events : List RunEvent) : Prop where
  plan : copy.compiledPipeline = pipeline
  capped : copy.maxCorrections = pipeline.maxLoopCount
  spent : Spent copy
  reported : Reported copy events
  outlook : Outlook copy
  planned : stage ∈ copy.compiledPipeline.stages
  current : copy.currentStage = some stage
  latest : copy.latestAttempt stage.id = some a
  running : a.status = .running

/-- The call ends with an attempt that is RUNNING. -/
theorem Underway.waits {b : StageAttempt} {children : List ChildJobRef}
    (h : Underway pipeline copy stage a events) (hquiet : corrections more = [])
    (hb : b.status = .running) (hsame : b.attempt = a.attempt) (hhandle : b.providerHandle = none)
    (hwork : copy.work + n + 1 ≤ pipeline.advanceBudget) :
    BudgetKept pipeline n { copy.setLatestAttempt stage.id b with childJobs := children }
      (events ++ more) := by
  have hlength : ∀ id, ((copy.setLatestAttempt stage.id b).stageAttempts id).length =
      (copy.stageAttempts id).length := length_setLatestAttempt h.latest
  have hothers := stageAttempts_setLatestAttempt_of_ne copy stage.id b
  refine ⟨h.plan, h.capped, h.spent.same rfl hlength (fun _ => le_rfl) rfl,
    h.reported.quiet rfl rfl rfl hquiet, fun _ => ⟨?_, ?_⟩⟩
  · refine h.outlook.update (b := b) rfl hothers
      (latestAttempt_setLatestAttempt copy stage.id b) ?_ (fun _ => hhandle) (Or.inl hb) ?_
      h.planned ?_ h.outlook.queued
    · rw [hsame]
      exact (h.outlook.numbered stage.id a h.latest).trans (hlength stage.id).symm
    · intro hfailed
      rw [hb] at hfailed
      cases hfailed
    · intro other hother
      have hid : other.id = stage.id := by
        have hcurrent := h.current
        rw [show copy.currentStage = some other from hother] at hcurrent
        rw [some.inj hcurrent]
      rw [hid]
      show (copy.setLatestAttempt stage.id b).latestStageStatus stage.id ≠ _
      rw [latestStageStatus_setLatestAttempt, hb]
      exact nofun
  · have hupdate : work { copy.setLatestAttempt stage.id b with
        childJobs := children } + 2 * copy.pendingStageIds.length + copy.weight stage =
        copy.work + 2 * copy.pendingStageIds.length +
          (copy.setLatestAttempt stage.id b).weight stage :=
      work_update rfl rfl rfl h.planned hothers
    rw [weight_same h.latest h.running hb] at hupdate
    omega

/-- The state in which the attempt is recorded as `b`. -/
structure RecordedIn (copy : PipelineRunState) (stage : Stage) (b : StageAttempt)
    (r : PipelineRunState) : Prop where
  stageAttempts_eq : r.stageAttempts = (copy.setLatestAttempt stage.id b).stageAttempts
  compiledPipeline_eq : r.compiledPipeline = copy.compiledPipeline
  maxCorrections_eq : r.maxCorrections = copy.maxCorrections
  pendingStageIds_eq : r.pendingStageIds = copy.pendingStageIds
  loopIterations_eq : r.loopIterations = copy.loopIterations
  correctionCount_eq : r.correctionCount = copy.correctionCount
  currentStage_eq : r.currentStage = copy.currentStage

theorem recordedIn_recordedState (stage : Stage) (copy : PipelineRunState) (a : StageAttempt)
    (result : StageResult) (output : Fields) (artifact : Option ArtifactRef)
    (children : List ChildJobRef) :
    RecordedIn copy stage (recordedAttempt a result output)
      (recordedState stage { copy with childJobs := children } a result output artifact) := by
  rw [recordedState_eq]
  exact ⟨rfl, rfl, rfl, rfl, rfl, rfl, rfl⟩

section Recorded

variable {r : PipelineRunState} {b : StageAttempt}

variable (h : RecordedIn copy stage b r)
include h

theorem RecordedIn.length_eq (hlatest : copy.latestAttempt stage.id = some a) (id : String) :
    (r.stageAttempts id).length = (copy.stageAttempts id).length := by
  rw [h.stageAttempts_eq]
  exact length_setLatestAttempt hlatest id

theorem RecordedIn.others (id : String) (hne : id ≠ stage.id) :
    r.stageAttempts id = copy.stageAttempts id := by
  rw [h.stageAttempts_eq]
  exact stageAttempts_setLatestAttempt_of_ne copy stage.id b id hne

theorem RecordedIn.latest : r.latestAttempt stage.id = some b := by
  unfold latestAttempt
  rw [h.stageAttempts_eq]
  exact latestAttempt_setLatestAttempt copy stage.id b

/-- A record takes the RUNNING attempt from the work. -/
theorem RecordedIn.work (hU : Underway pipeline copy stage a events) (hb : b.status ≠ .running) :
    r.work + 1 = copy.work := by
  have hupdate := work_update h.compiledPipeline_eq h.maxCorrections_eq h.loopIterations_eq
    hU.planned h.others
  have hweight : r.weight stage + 1 = copy.weight stage := by
    have hset := weight_recorded hU.latest hU.running hb
    unfold weight latestStageStatus
      latestAttempt at hset ⊢
    rw [h.stageAttempts_eq]
    exact hset
  rw [h.pendingStageIds_eq] at hupdate
  omega

/-- The outlook of a run that goes on after a record. -/
theorem RecordedIn.outlook (hU : Underway pipeline copy stage a events)
    (hnumber : b.attempt = a.attempt) (hb : b.status = .completed ∨ b.status = .failed)
    (hattempts : s.stageAttempts = r.stageAttempts)
    (hplan : s.compiledPipeline = r.compiledPipeline) (hopen : s.OnOpenWork)
    (hbudget : r.latestStageStatus stage.id = some .failed →
      (r.stageAttempts stage.id).length < stage.maxAttempts)
    (hqueued : s.pendingStageIds ≠ [] → 0 < s.correctionCount) : Outlook s := by
  have hlast : s.latestAttempt stage.id = some b := by
    unfold latestAttempt
    rw [hattempts]
    exact h.latest
  refine hU.outlook.update (hplan.trans h.compiledPipeline_eq) (fun id hne => ?_) hlast ?_
    (fun hrunning => ?_) (Or.inr hb) (fun hfailed => ?_) hU.planned hopen hqueued
  · rw [hattempts]
    exact h.others id hne
  · rw [hattempts, h.length_eq hU.latest, hnumber]
    exact hU.outlook.numbered stage.id a hU.latest
  · rcases hb with hb | hb
    all_goals
      rw [hb] at hrunning
      cases hrunning
  · rw [hattempts]
    refine hbudget ?_
    unfold latestStageStatus
    rw [h.latest]
    exact congrArg some hfailed

/-- The call ends with a result that is recorded and answered. -/
theorem RecordedIn.kept (hanswered : Answered r stage next) (hsame : SameRun r next.1)
    (hU : Underway pipeline copy stage a events) (hloops : pipeline.LoopsDeclared)
    (hrepeats : pipeline.RepeatsBounded) (hnumber : b.attempt = a.attempt)
    (hb : b.status = .completed ∨ b.status = .failed)
    (hwork : copy.work + n ≤ pipeline.advanceBudget) :
    BudgetKept pipeline n next.1 (events ++ next.2) := by
  have hlength := h.length_eq hU.latest
  have hspent' : Spent r := by
    refine hU.spent.same h.compiledPipeline_eq hlength (fun id => ?_) h.correctionCount_eq
    rw [h.pendingStageIds_eq]
  have hreported' : Reported r events := by
    have hquiet : Reported r (events ++ []) :=
      hU.reported.quiet h.compiledPipeline_eq h.loopIterations_eq h.correctionCount_eq rfl
    rwa [append_nil] at hquiet
  have hless : r.work + 1 = copy.work := by
    refine h.work hU ?_
    rcases hb with hb | hb
    all_goals
      rw [hb]
      exact nofun
  have hplan' : next.1.compiledPipeline = pipeline :=
    hsame.compiledPipeline_eq.trans (h.compiledPipeline_eq.trans hU.plan)
  have hcapped' : next.1.maxCorrections = pipeline.maxLoopCount :=
    hsame.maxCorrections_eq.trans (h.maxCorrections_eq.trans hU.capped)
  have hworkSame : ∀ {s : PipelineRunState}, SameWork r s → SameRun r s → s.work = r.work := by
    intro s hs hrun
    unfold PipelineRunState.work PipelineRunState.correctionsLeft
    have hweight : s.weight = r.weight := by
      funext other
      unfold weight
      rw [hs.stageAttempts_eq, hs.latestStageStatus_eq]
    rw [hrun.compiledPipeline_eq, hrun.maxCorrections_eq, hs.loopIterations_eq,
      hs.pendingStageIds_eq, hweight]
  cases hanswered with
  | @ended s more final same quiet =>
    refine ⟨hplan', hcapped', ?_, hreported'.quiet hsame.compiledPipeline_eq
      same.loopIterations_eq same.correctionCount_eq quiet, fun hrunning => absurd hrunning final⟩
    refine hspent'.same hsame.compiledPipeline_eq (fun id => ?_) (fun id => ?_)
      same.correctionCount_eq
    · rw [same.stageAttempts_eq]
    · rw [same.pendingStageIds_eq]
  | @onward s more same quiet cursor budget =>
    refine ⟨hplan', hcapped', ?_, hreported'.quiet hsame.compiledPipeline_eq
      same.loopIterations_eq same.correctionCount_eq quiet, fun _ => ⟨?_, ?_⟩⟩
    · refine hspent'.same hsame.compiledPipeline_eq (fun id => ?_) (fun id => ?_)
        same.correctionCount_eq
      · rw [same.stageAttempts_eq]
      · rw [same.pendingStageIds_eq]
    · refine h.outlook hU hnumber hb same.stageAttempts_eq hsame.compiledPipeline_eq cursor budget ?_
      rw [same.pendingStageIds_eq, same.correctionCount_eq, h.pendingStageIds_eq,
        h.correctionCount_eq]
      exact hU.outlook.queued
    · have := hworkSame same hsame
      show s.work + n + 1 ≤ _
      omega
  | @corrected verdict loopId correctionStageId onCorrection loopMax more loop bounded completed
      reported =>
      have hmax : r.maxCorrections = r.compiledPipeline.maxLoopCount := by
        rw [h.maxCorrections_eq, hU.capped, h.compiledPipeline_eq, hU.plan]
      have hdeclared : r.compiledPipeline.LoopsDeclared := by
        rw [h.compiledPipeline_eq, hU.plan]
        exact hloops
      refine ⟨hplan', hcapped', fun other hother => ?_,
        hreported'.corrected hdeclared hmax loop bounded reported, fun _ => ⟨?_, ?_⟩⟩
      · have hold := hspent' other hother
        have hrepeats' : r.compiledPipeline.RepeatsBounded := by
          rw [h.compiledPipeline_eq, hU.plan]
          exact hrepeats
        have hlist : (correctionStageId :: onCorrection).count other.id ≤ other.maxAttempts :=
          count_le_maxAttempts hrepeats' hother loop
        show (r.stageAttempts other.id).length +
          (correctionStageId :: onCorrection).count other.id ≤
            other.maxAttempts * (1 + (r.correctionCount + 1))
        rw [← Nat.add_assoc, Nat.mul_add_one]
        omega
      · refine h.outlook hU hnumber hb rfl rfl (fun other hother => ?_) ?_
          (fun _ => Nat.succ_pos _)
        · cases hother
        · intro hfailed
          rw [completed] at hfailed
          cases hfailed
      · have := work_scheduleCorrection loop bounded
        show (r.scheduleCorrection loopId correctionStageId onCorrection).work + n + 1 ≤ _
        omega

end Recorded

/-- A fresh attempt is reported as started, and not as a correction. -/
theorem Begun.quiet (h : Begun d.coordinator state stage resuming a copy more) :
    corrections more = [] := by
  cases h <;> rfl

theorem entered_counts (state : PipelineRunState) :
    state.entered.loopIterations = state.loopIterations ∧
      state.entered.correctionCount = state.correctionCount := by
  unfold entered
  split <;> exact ⟨rfl, rfl⟩

section Kept

variable (hK : BudgetKept pipeline n state events)
include hK

/-- A queued stage that is not of the plan is dropped. -/
theorem BudgetKept.dropped {head : String} {remaining : List String} (hlive : Live state)
    (pending : state.pendingStageIds = head :: remaining) :
    BudgetKept pipeline (n + 1) { state with pendingStageIds := remaining } (events ++ []) := by
  obtain ⟨houtlook, hwork⟩ := hK.going hlive.running
  refine ⟨hK.plan, hK.capped, ?_, hK.reported.quiet rfl rfl rfl rfl, fun _ => ⟨?_, ?_⟩⟩
  · refine hK.spent.same rfl (fun _ => rfl) (fun id => ?_) rfl
    rw [pending]
    exact count_le_count_cons
  · refine ⟨houtlook.numbered, houtlook.handleless, houtlook.started, houtlook.budgeted,
      houtlook.cursor, fun _ => houtlook.queued ?_⟩
    rw [pending]
    exact cons_ne_nil _ _
  · have hless : work { state with pendingStageIds := remaining } + 2 = state.work := by
      unfold work
      rw [pending, length_cons]
      show state.correctionsLeft * (2 * state.compiledPipeline.queueBound + 1) +
        2 * remaining.length + (state.compiledPipeline.stages.map state.weight).sum + 2 = _
      omega
    show work { state with pendingStageIds := remaining } + (n + 1) + 1 ≤ _
    omega

/-- The run ends when there is no stage left. -/
theorem BudgetKept.exhausted : BudgetKept pipeline (n + 1)
    (state.entered.ended .success "All stages completed").1
    (events ++ (state.entered.ended .success "All stages completed").2) := by
  obtain ⟨artifact, text, heq⟩ := terminal_eq state.entered .success "All stages completed"
  obtain ⟨hiterations, hcount⟩ := entered_counts state
  have hsame := entered_same state
  unfold ended
  rw [heq]
  refine ⟨hsame.compiledPipeline_eq.trans hK.plan, hsame.maxCorrections_eq.trans hK.capped, ?_,
    hK.reported.quiet hsame.compiledPipeline_eq hiterations hcount rfl, fun hrunning => ?_⟩
  · refine hK.spent.same hsame.compiledPipeline_eq (fun id => ?_) (fun id => ?_) hcount
    · show (state.entered.stageAttempts id).length = _
      rw [entered_stageAttempts]
    · show state.entered.pendingStageIds.count id ≤ _
      rcases entered_cases state with ⟨head, remaining, hpending, -, hentered⟩ | ⟨-, hentered⟩
      · rw [hentered, hpending]
        exact count_le_count_cons
      · rw [hentered]
  · cases hrunning

/-- The attempt that a call executes is underway. -/
theorem BudgetKept.underway (houtlook : Outlook state)
    (hstage : stage ∈ state.compiledPipeline.stages)
    (current : state.entered.currentStage = some stage)
    (begun : Begun d.coordinator state.entered stage resuming a copy more) :
    Underway pipeline copy stage a (events ++ more) := by
  obtain ⟨hiterations, hcount⟩ := entered_counts state
  obtain ⟨hlatest, ha⟩ := begun.attempt
  have hsame := (entered_same state).trans begun.same
  have hkept : copy.loopIterations = state.loopIterations ∧
      copy.correctionCount = state.correctionCount ∧
      copy.currentStage = state.entered.currentStage := by
    rw [← hiterations, ← hcount]
    cases begun <;> exact ⟨rfl, rfl, rfl⟩
  exact
    { plan := hsame.compiledPipeline_eq.trans hK.plan
      capped := hsame.maxCorrections_eq.trans hK.capped
      spent := hK.spent.begun houtlook current begun
      reported :=
        hK.reported.quiet hsame.compiledPipeline_eq hkept.1 hkept.2.1 begun.quiet
      outlook := (houtlook.begun current hstage begun).1
      planned := hsame.compiledPipeline_eq ▸ hstage
      current := hkept.2.2.trans current
      latest := hlatest
      running := ha }

end Kept

/-- The call ends with a result that is completed or failed. -/
theorem Underway.answered {result : StageResult} {output : Fields} {artifact : Option ArtifactRef}
    {children : List ChildJobRef} (h : Underway pipeline copy stage a events)
    (hloops : pipeline.LoopsDeclared) (hrepeats : pipeline.RepeatsBounded)
    (hstatus : result.status = .completed ∨ result.status = .failed)
    (hnumber : a.attempt = (copy.stageAttempts stage.id).length)
    (hwork : copy.work + n ≤ pipeline.advanceBudget)
    (hnext : next = (recordedState stage { copy with childJobs := children } a result output
      artifact).afterResult stage result (recordedAttempt a result output).error) :
    BudgetKept pipeline n next.1 (events ++ next.2) := by
  subst hnext
  have hin := recordedIn_recordedState stage copy a result output artifact children
  have hvalid : validatedStatus result = .completed ∨ validatedStatus result = .failed := by
    unfold validatedStatus
    split
    · exact hstatus
    split
    · exact hstatus
    · exact Or.inr rfl
  have hstatusEq := recordedAttempt_status a result output
  have hb : (recordedAttempt a result output).status = .completed ∨
      (recordedAttempt a result output).status = .failed := by
    rw [hstatusEq]
    split
    · exact Or.inl rfl
    · exact Or.inr rfl
  have hsame := (recordedAttempt_same a result output).1
  have hanswered := afterResult_answered (recordedAttempt a result output).error
    (hin.currentStage_eq.trans h.current) (fun b hb => ?_) ?_ hvalid
  · exact hin.kept hanswered (afterResult_same _ _ _ _) h hloops hrepeats hsame hb hwork
  · obtain rfl := some.inj (hin.latest.symm.trans hb)
    rw [hsame, hin.length_eq h.latest]
    exact hnumber
  · unfold latestStageStatus
    rw [hin.latest, map_some, hstatusEq]

/-- **One call** keeps the books, and takes at least one from the budget. -/
theorem BudgetKept.step (hK : BudgetKept pipeline n state events) (hlive : Live state)
    (hloops : pipeline.LoopsDeclared) (hrepeats : pipeline.RepeatsBounded)
    (hresolves : ∀ stage ∈ pipeline.stages, ∃ authority,
      d.coordinator.authority stage = .ok authority)
    (hprompt : d.providers.Prompt) (hrecordable : d.providers.RecordableLeaves)
    (h : Advances d now state next) : BudgetKept pipeline (n + 1) next.1 (events ++ next.2) := by
  obtain ⟨houtlook, hwork⟩ := hK.going hlive.running
  have hstages : ∀ {stage}, state.entered.currentStage = some stage →
      stage ∈ state.compiledPipeline.stages := by
    intro stage hcurrent
    have hmem := (mem_of_stage? (bind_eq_some_iff.mp hcurrent).choose_spec.2).1
    rwa [(entered_same state).compiledPipeline_eq] at hmem
  cases h with
  | dropped pending idle missing => exact hK.dropped hlive pending
  | exhausted enters current => exact hK.exhausted
  | unresolved enters current refused =>
    obtain ⟨authority, hresolved⟩ := hresolves _ (hK.plan ▸ hstages current)
    rw [hresolved] at refused
    cases refused
  | skipped enters current skips =>
    rw [houtlook.not_skips current] at skips
    cases skips
  | @executed stage resuming a copy more outcome enters current due begun executed =>
    have hstage := hstages current
    have hunderway := hK.underway houtlook hstage current begun
    obtain ⟨-, hhandle, hnumber⟩ := houtlook.begun current hstage begun
    obtain ⟨hfresh, hresumed⟩ := houtlook.begun_work current hstage begun
    rw [← append_assoc]
    cases executed with
    | waiting children waits quiet =>
      obtain ⟨rfl, hnone⟩ := waits.prompt hprompt hrecordable hhandle
      have hless := hfresh rfl
      refine hunderway.waits ?_ waits.running waits.same hnone (by omega)
      rcases quiet with rfl | rfl <;> rfl
    | answered children answers closed recordable =>
      have hstatus := (answers.prompt now hprompt hrecordable hhandle).1
      refine hunderway.answered hloops hrepeats hstatus hnumber ?_ rfl
      cases resuming with
      | false =>
        have := hfresh rfl
        omega
      | true =>
        have := hresumed rfl
        omega

end Step

/-! ## The law -/

namespace Deployment

variable {d : Deployment} {runId : String} {pipeline : CompiledPipeline}
  {requestParams params : Fields}

/-- A generation, its quality control and a correction with which the quality control is
repeated at most twice. -/
def corrected : CompiledPipeline where
  stages :=
    [{ id := "generate", kind := .generate },
      { id := "qc", kind := .qc, dependsOn := ["generate"] },
      { id := "correct", kind := .correct }]
  loops := [⟨"loop", "qc", "correct", ["qc"], 2⟩]
  maxLoopCount := 2
  ids_nodup := by decide

/-- Every stage is a leaf, and completes with its image inline. -/
def inlining : Deployment where
  coordinator := ⟨fun _ => .ok .leaf, id⟩
  providers :=
    { obliging.providers with
      leafPoll := fun _ _ =>
        .ok { status := .completed, output := [("image_base64", .str "iVBORw0KGgo=")] } }

variable {now : String}

/-- The result of the generation cannot be recorded. -/
theorem inlining_unrecordable {stage : Stage} {output : Fields} {artifact : Option ArtifactRef} :
    ¬ Recordable now stage (leafResult
      { status := .completed, output := [("image_base64", .str "iVBORw0KGgo=")] }) output
        artifact := by
  intro h
  have hsanitized := h.sanitized
  have hrejected : rejectedField "$" [("image_base64", .str "iVBORw0KGgo=")] ≠ none := by
    decide +kernel
  obtain ⟨e, he⟩ := ne_none_iff_exists'.mp hrejected
  simp only [leafResult, sanitizeOutput, deepSanitize, he] at hsanitized
  cases hsanitized

/-- The generation is under the cursor, and nothing is recorded for it. -/
structure Inlines (state : PipelineRunState) : Prop where
  running : state.status = .running
  plan : state.compiledPipeline = oneStage
  pending : state.pendingStageIds = []
  cursor : state.currentStageId = some "generate"
  unrecorded : state.latestStageStatus "generate" ≠ some .completed
  unbound : state.requestParams = []

theorem Inlines.step {state : PipelineRunState}
    {next : PipelineRunState × List RunEvent} (hK : Inlines state)
    (h : Advances inlining now state next) : Inlines next.1 := by
  have hentered : state.entered = state := by
    unfold entered
    rw [hK.pending]
  have hcurrent : state.currentStage = some { id := "generate", kind := .generate } := by
    unfold currentStage
    rw [hK.cursor, hK.plan]
    rfl
  cases h with
  | dropped pending idle missing =>
    rw [hK.pending] at pending
    cases pending
  | exhausted enters current =>
    rw [hentered, hcurrent] at current
    cases current
  | unresolved enters current refused => cases refused
  | skipped enters current skips =>
    rw [hentered, hcurrent] at current
    obtain rfl := some.inj current
    rw [hentered] at skips
    unfold skipsCompleted at skips
    split at skips
    · rename_i last hlast
      exfalso
      apply hK.unrecorded
      unfold latestStageStatus
      rw [hlast]
      simp only [Bool.and_eq_true, beq_iff_eq] at skips
      exact congrArg some skips.1.1
    · cases skips
  | @executed stage resuming a copy more outcome enters current due begun executed =>
    rw [hentered, hcurrent] at current
    obtain rfl := some.inj current
    rw [hentered] at begun
    have hcopy : copy.status = .running ∧ copy.compiledPipeline = oneStage ∧
        copy.pendingStageIds = [] ∧ copy.currentStageId = some "generate" ∧
        copy.requestParams = [] := by
      have hsame : copy.status = state.status ∧ copy.compiledPipeline = state.compiledPipeline ∧
          copy.pendingStageIds = state.pendingStageIds ∧
          copy.currentStageId = state.currentStageId ∧
          copy.requestParams = state.requestParams := by
        cases begun <;> exact ⟨rfl, rfl, rfl, rfl, rfl⟩
      rw [hsame.1, hsame.2.1, hsame.2.2.1, hsame.2.2.2.1, hsame.2.2.2.2]
      exact ⟨hK.running, hK.plan, hK.pending, hK.cursor, hK.unbound⟩
    obtain ⟨hrunning, hplan, hpending, hcursor, hunbound⟩ := hcopy
    cases executed with
    | @waiting b log children waits quiet =>
      refine ⟨hrunning, hplan, hpending, hcursor, ?_, hunbound⟩
      show (copy.setLatestAttempt "generate" b).latestStageStatus "generate" ≠ _
      rw [latestStageStatus_setLatestAttempt, waits.running]
      exact nofun
    | @answered result output artifact children answers closed recordable =>
      exfalso
      cases answers with
      | unbound unresolved => cases unresolved
      | executed _ authority _ | polled _ authority _ | unknown authority _
      | unhandled authority _ _ _ | other authority =>
        cases authority
      | leaf authority bound answer =>
        obtain rfl := Except.ok.inj answer
        exact inlining_unrecordable recordable

end Deployment

end GpuManager.Coordinator
