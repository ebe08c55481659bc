import GpuManager.Coordinator.Children

/-!
# Cancelled means stopped

A run that ends as COORDINATOR_CANCELLED shall leave nothing behind: every child that the leaf
client has accepted for it has completed, has failed or was stopped, and so was the external
attempt that was RUNNING.  The cascade works from the children and the cursor that are stored.

A child is accepted before it is stored, so a process that stops in between leaves a child that
no cascade knows of.  And a child that is polled as cancelled counts as over, although no cancel
call has stopped it; if its completion was recorded before, that record is lost.  Apart from
these two the law holds, wherever the processes stop.
-/

namespace GpuManager.Coordinator

open AtomicProgram PipelineCoordinator PipelineRunState Option Local

/-! ## What is asked -/

/-- The leaf client has accepted the child for the run. -/
def Accepted (runId : String) (w : World) (childJobId : String) : Prop :=
  ∃ stageId idempotencyKey,
    ProviderCall.leafSubmit stageId runId idempotencyKey (.ok childJobId) ∈ w.calls

def PolledAs (w : World) (childJobId : String) (status : ChildStatus) : Prop :=
  ∃ poll : LeafPoll, ProviderCall.leafPoll childJobId (.ok poll) ∈ w.calls ∧ poll.status = status

def StoppedChild (w : World) (childJobId : String) : Prop :=
  ProviderCall.leafCancel childJobId (.ok true) ∈ w.calls

def StoppedStage (runId : String) (w : World) (stageId : String) : Prop :=
  ProviderCall.cancel runId stageId (.ok true) ∈ w.calls

/-- A run that ended as cancelled has left nothing behind. -/
def CancelledStopped (coordinator : PipelineCoordinator) (runId : String) (w : World) : Prop :=
  ∀ state, w.states runId = some state → state.terminalCode = some .coordinatorCancelled →
    (∀ childJobId, Accepted runId w childJobId →
      PolledAs w childJobId .completed ∨ PolledAs w childJobId .failed ∨
        StoppedChild w childJobId) ∧
    ∀ stage ∈ state.compiledPipeline.stages, coordinator.authority stage = .ok .external →
      ∀ a ∈ state.stageAttempts stage.id, a.status = .running → StoppedStage runId w stage.id

/-- No save makes a child that has completed or failed a cancelled one. -/
def KeepsReceipts (runId : String) (h : List (Event World Cmd)) : Prop :=
  ∀ e ∈ h, ∀ point state base, e.cmd = .hset point state → state.runId = runId →
    e.before.states runId = some base →
    ∀ (i : ℕ) (before after : ChildJobRef), base.childJobs[i]? = some before →
      state.childJobs[i]? = some after → before.status = .completed ∨ before.status = .failed →
      after.status ≠ .cancelled ∧ after.cancelled = before.cancelled

/-! ## The two gaps -/

/-- A process does not stop between the acceptance of a child of the run and its record. -/
def StopsRecorded (runId : String) (_ : World) (l : Local) : Prop :=
  ∀ base ∈ l.base, base.runId = runId → l.accepted = none

instance (runId : String) (w : World) (l : Local) : Decidable (StopsRecorded runId w l) :=
  inferInstanceAs (Decidable (∀ base ∈ l.base, base.runId = runId → l.accepted = none))

def PollsUncancelled (providers : Providers) (runId : String) (e : Event World Cmd) : Bool :=
  match e.cmd with
  | .leafPoll childJobId =>
    match providers.leafPoll e.before.calls childJobId with
    | .ok poll =>
      poll.status != .cancelled ||
        (e.before.states runId).all fun base =>
          base.childJobs.all fun child => child.childJobId != childJobId
    | .error _ => true
  | _ => true

/-- The stages of a plan have names, which is what the compiler checks. -/
def CompiledPipeline.Named (pipeline : CompiledPipeline) : Prop :=
  ∀ stage ∈ pipeline.stages, stage.id ≠ ""

instance (pipeline : CompiledPipeline) : Decidable pipeline.Named :=
  inferInstanceAs (Decidable (∀ stage ∈ pipeline.stages, stage.id ≠ ""))

/-! ## What the calls say -/

section Calls

variable {providers : Providers} {c : Cmd} {w w' : World} {runId childJobId stageId : String}

theorem mem_calls_exec {call : ProviderCall} (h : call ∈ w.calls) :
    call ∈ (exec providers c w).2.calls := by
  rw [exec_calls]
  exact List.mem_append_left _ h

/-- What a child is stored as is what was answered about it. -/
structure Receipt (w : World) (child : ChildJobRef) : Prop where
  cancelled : child.cancelled = true → StoppedChild w child.childJobId
  status : child.status = .completed ∨ child.status = .failed →
    PolledAs w child.childJobId child.status
  stopped : child.status = .cancelled → StoppedChild w child.childJobId

theorem PolledAs.mono {status : ChildStatus} (h : PolledAs w childJobId status)
    (hcalls : w.calls ⊆ w'.calls) : PolledAs w' childJobId status := by
  obtain ⟨poll, hmem, hstatus⟩ := h
  exact ⟨poll, hcalls hmem, hstatus⟩

variable {after before child : ChildJobRef}

theorem Receipt.mono (h : Receipt w child) (hcalls : w.calls ⊆ w'.calls) :
    Receipt w' child :=
  ⟨fun hcancelled => hcalls (h.cancelled hcancelled), fun hstatus => (h.status hstatus).mono hcalls,
    fun hstopped => hcalls (h.stopped hstopped)⟩

/-- A child that is over has completed, has failed or was stopped. -/
theorem Receipt.over (h : Receipt w child) (hover : child.isOver = true) :
    PolledAs w child.childJobId .completed ∨ PolledAs w child.childJobId .failed ∨
      StoppedChild w child.childJobId := by
  unfold ChildJobRef.isOver at hover
  rcases (Bool.or_eq_true _ _).mp hover with hcancelled | hover
  · exact Or.inr (Or.inr (h.cancelled hcancelled))
  cases hstatus : child.status with
  | completed => exact Or.inl (hstatus ▸ h.status (Or.inl hstatus))
  | failed => exact Or.inr (Or.inl (hstatus ▸ h.status (Or.inr hstatus)))
  | cancelled => exact Or.inr (Or.inr (h.stopped hstatus))
  | queued | inFlight | other text => simp [hstatus] at hover

/-- A child is accepted for the run only by a command about it. -/
theorem accepted_exec (h : Accepted runId (exec providers c w).2 childJobId) :
    Accepted runId w childJobId ∨
      ∃ stage inputs state key, c = .leafSubmit stage inputs state key ∧ state.runId = runId ∧
        providers.leafSubmit w.calls stage inputs state key = .ok childJobId := by
  obtain ⟨stageId, key, hmem⟩ := h
  rw [exec_calls] at hmem
  rcases List.mem_append.mp hmem with hmem | hmem
  · exact Or.inl ⟨stageId, key, hmem⟩
  right
  cases c with
  | leafSubmit stage inputs state key' =>
    simp only [Cmd.providerCall, toList_some, List.mem_singleton,
      ProviderCall.leafSubmit.injEq] at hmem
    exact ⟨stage, inputs, state, key', rfl, hmem.2.1.symm, hmem.2.2.2.symm⟩
  | _ => simp [Cmd.providerCall] at hmem

variable (hsave : ∀ point state, c ≠ .hset point state) {l : Local}
include hsave

theorem note_stopped (h : childJobId ∈ (l.note c (exec providers c w).1).stopped) :
    childJobId ∈ l.stopped ∨ StoppedChild (exec providers c w).2 childJobId := by
  have hnoted := noted (l := l) hsave (exec providers c w).1
  unfold StoppedChild
  rw [exec_calls]
  generalize hr : (exec providers c w).1 = r at hnoted h
  generalize l.note c r = l' at hnoted h
  cases hnoted with
  | load runId state => cases h
  | stopped other =>
    rcases List.mem_cons.mp h with rfl | h
    · simp [Cmd.providerCall, show providers.leafCancel w.calls childJobId = .ok true from hr]
    · exact Or.inl h
  | _ => exact Or.inl h

theorem note_stoppedStages (h : stageId ∈ (l.note c (exec providers c w).1).stoppedStages) :
    stageId ∈ l.stoppedStages ∨
      ∃ run, c = .cancel run stageId ∧ StoppedStage run (exec providers c w).2 stageId := by
  have hnoted := noted (l := l) hsave (exec providers c w).1
  unfold StoppedStage
  rw [exec_calls]
  generalize hr : (exec providers c w).1 = r at hnoted h
  generalize l.note c r = l' at hnoted h
  cases hnoted with
  | load runId state => cases h
  | stoppedStage run other =>
    rcases List.mem_cons.mp h with rfl | h
    · refine Or.inr ⟨run, rfl, ?_⟩
      simp [Cmd.providerCall, show providers.cancel w.calls run stageId = .ok true from hr]
    · exact Or.inl h
  | _ => exact Or.inl h

/-- Only a submission and a load change which child is to be recorded. -/
theorem note_accepted (hload : ∀ run, c = .hgetall run → l.accepted = none)
    (hsubmit : ∀ stage inputs state key, c ≠ .leafSubmit stage inputs state key) (r : Reply c) :
    (l.note c r).accepted = l.accepted := by
  have hnoted := noted (l := l) hsave r
  generalize l.note c r = l' at hnoted ⊢
  cases hnoted with
  | load run state => exact (hload run rfl).symm
  | accepted stage inputs state key childJobId =>
    exact absurd rfl (hsubmit stage inputs state key)
  | _ => rfl

end Calls

/-! ## The cursor -/

/-- A RUNNING attempt is the latest one of the stage under the cursor; and a result that waits
for its answer is not RUNNING any more. -/
structure CursorKept (state : PipelineRunState) (holder : Option Local) : Prop where
  running : ∀ stageId (k : ℕ) (a : StageAttempt), (state.stageAttempts stageId)[k]? = some a →
    a.status = .running →
    k + 1 = (state.stageAttempts stageId).length ∧ state.currentStageId = some stageId
  answered : ∀ l, holder = some l →
    (∃ stageId result, l.point = some (.recorded stageId result)) ∨ l.point = some .lastGood →
    state.currentStageRunning = false

section Cursor

variable {coordinator : PipelineCoordinator} {l : Local} {base state : PipelineRunState}
  {point : SavePoint}

variable {stageId : String}

theorem currentStageRunning_iff (h : base.currentStageId = some stageId) :
    base.currentStageRunning = true ↔ base.latestStageStatus stageId = some .running := by
  simp [currentStageRunning, h]

variable {a : StageAttempt}

theorem CursorKept.currentStageRunning {holder : Option Local} (hK : CursorKept base holder) {k : ℕ}
    (ha : (base.stageAttempts stageId)[k]? = some a) (hrunning : a.status = .running) :
    base.currentStageRunning = true := by
  obtain ⟨hlast, hcurrent⟩ := hK.running stageId k a ha hrunning
  rw [currentStageRunning_iff hcurrent]
  unfold latestStageStatus latestAttempt
  rw [List.getLast?_eq_getElem?, ← hlast, Nat.add_sub_cancel, ha]
  exact congrArg some hrunning

/-- The cursor leaves only a stage that is not RUNNING. -/
theorem Saves.cursor (h : Saves coordinator l base point state) (hK : CursorKept base (some l)) :
    state.currentStageId = base.currentStageId ∨ base.currentStageRunning = false := by
  have hended : ∀ (ended : PipelineRunState) code reason,
      (ended.terminal code reason).currentStageId = ended.currentStageId := by
    intro ended code reason
    obtain ⟨artifact, text, heq⟩ := terminal_eq ended code reason
    rw [heq]
  have hcopy : ∀ {stage a copy} {state : PipelineRunState},
      Executing coordinator base stage a copy → state.currentStageId = copy.currentStageId →
      state.currentStageId = base.currentStageId := by
    intro stage a copy state hexecuting hstate
    rw [hstate, hexecuting.copy_eq]
    rfl
  have honward : Onward l base → base.currentStageRunning = false := by
    intro h
    cases h with
    | @skipped stage current skips early =>
      have hid : base.currentStageId = some stage.id := currentStageId_of_currentStage current
      rw [Bool.eq_false_iff, Ne, currentStageRunning_iff hid]
      unfold skipsCompleted at skips
      unfold latestStageStatus
      split at skips
      · rename_i last hlast
        rw [hlast]
        simp only [Bool.and_eq_true, beq_iff_eq] at skips
        simp [skips.1.1]
      · cases skips
    | recorded current point _ _ => exact hK.answered l rfl (Or.inl ⟨_, _, point⟩)
    | accepted current point => exact hK.answered l rfl (Or.inr point)
  cases h with
  | entered live pending idle found early => exact Or.inr idle
  | correction live current kind point verdict_eq failed loop bounded =>
    exact Or.inr (hK.answered l rfl (Or.inl ⟨_, _, point⟩))
  | retry live current point failed budget =>
    exact Or.inl (currentStageId_of_currentStage current).symm
  | queued live onward pending | moved live onward pending ready other =>
    exact Or.inr (honward onward)
  | childAccepted executing _ _ _ _ | childPolled executing _ _ _ _ | handleSaved executing _
  | inFlight executing _ =>
    exact Or.inl (hcopy executing rfl)
  | recorded executing _ _ _ _ =>
    rw [recordedState_eq]
    exact Or.inl (hcopy executing rfl)
  | finished | exhausted | failed | cascaded => exact Or.inl (hended _ _ _)
  | _ => exact Or.inl rfl

/-- A save keeps the running attempt the latest one of the stage under the cursor. -/
theorem CursorKept.save (hK : CursorKept base (some l))
    (h : Saves coordinator l base point state) : CursorKept state (some (l.saved point state)) := by
  -- A RUNNING attempt that was there keeps the cursor.
  have hkept : ∀ {stageId : String} {k : ℕ} {a : StageAttempt},
      (base.stageAttempts stageId)[k]? = some a → a.status = .running →
      k + 1 = (base.stageAttempts stageId).length ∧ state.currentStageId = some stageId := by
    intro stageId k a ha hrunning
    obtain ⟨hlast, hcurrent⟩ := hK.running stageId k a ha hrunning
    refine ⟨hlast, ?_⟩
    rcases h.cursor hK with hsame | hidle
    · rw [hsame, hcurrent]
    · rw [hK.currentStageRunning ha hrunning] at hidle
      cases hidle
  constructor
  · intro stageId k a ha hrunning
    rcases h.stageAttempts_cases with hsame | ⟨stage, hcurrent, hpoint, hmore⟩ |
      ⟨stage, before, written, hexecuted, hwritten⟩
    · rw [hsame] at ha ⊢
      exact hkept ha hrunning
    · rw [hmore] at ha ⊢
      by_cases hid : stageId = stage.id
      · subst hid hpoint
        cases h with
        | @started other live current due idle early =>
          obtain rfl : stage = other := some.inj (hcurrent.symm.trans current)
          simp only [appendAttempt, Function.update_self] at ha ⊢
          rcases lt_trichotomy k (base.stageAttempts stage.id).length with hlt | rfl | hgt
          · -- Nothing was RUNNING before.
            rw [List.getElem?_append_left hlt] at ha
            have hactive := hK.currentStageRunning ha hrunning
            rw [currentStageRunning_iff (currentStageId_of_currentStage current)] at hactive
            exact absurd hactive idle
          · exact ⟨by simp, currentStageId_of_currentStage current⟩
          · rw [List.getElem?_eq_none (by simp; omega)] at ha
            cases ha
      · simp only [appendAttempt, Function.update_of_ne hid] at ha ⊢
        exact hkept ha hrunning
    · rw [hwritten] at ha ⊢
      by_cases hid : stageId = stage.id
      · subst hid
        have hpos := (latestAttempt_getElem? hexecuted.latest).1
        have hlength : ((base.setLatestAttempt stage.id written).stageAttempts stage.id).length =
            (base.stageAttempts stage.id).length := by
          simp only [setLatestAttempt, Function.update_self, List.length_append,
            List.length_dropLast, List.length_singleton]
          omega
        rw [hlength]
        rw [getElem?_setLatestAttempt base hexecuted.latest] at ha
        split at ha
        · rename_i hlast
          refine ⟨hlast, ?_⟩
          exact (hkept (latestAttempt_getElem? hexecuted.latest).2 hexecuted.status).2
        · exact hkept ha hrunning
      · simp only [setLatestAttempt, Function.update_of_ne hid] at ha ⊢
        exact hkept ha hrunning
  · intro l' hl' hpoint
    obtain rfl := some.inj hl'
    rcases hpoint with ⟨stageId, result, hpoint⟩ | hpoint
    · obtain rfl : point = _ := some.inj hpoint
      obtain ⟨stage, a, copy, hexecuting, rfl, -, -, -, -⟩ := h.recorded_source
      have hid : state.currentStageId = some stage.id := by
        have hcurrent := currentStageId_of_currentStage hexecuting.current
        obtain ⟨before, hlatest, hstatus, -⟩ := hexecuting.latest
        exact (hkept (latestAttempt_getElem? hlatest).2 hstatus).2
      rw [Bool.eq_false_iff, Ne, currentStageRunning_iff hid, h.recorded_status]
      split <;> simp only [Option.some.injEq, reduceCtorEq, not_false_eq_true]
    · obtain rfl : point = _ := some.inj hpoint
      cases h with
      | lastGood live current kind point verdict_eq passed =>
        exact hK.answered l rfl (Or.inl ⟨_, _, point⟩)

end Cursor

/-! ## The invariant -/

/-- What is stored and remembered of a run, against what was called. -/
structure CallsKept (coordinator : PipelineCoordinator) (runId : String) (w : World)
    (state : PipelineRunState) (holder : Option Local) : Prop where
  polled : ∀ l childJobId status, holder = some l → l.polled = some (childJobId, status) →
    PolledAs w childJobId status ∧
      ∀ child ∈ state.childJobs, child.childJobId = childJobId → status ≠ .cancelled
  stopped : ∀ l, holder = some l → ∀ childJobId ∈ l.stopped, StoppedChild w childJobId
  stoppedStages : ∀ l, holder = some l → ∀ stageId ∈ l.stoppedStages, StoppedStage runId w stageId
  accepted : ∀ childJobId, Accepted runId w childJobId →
    (∃ child ∈ state.childJobs, child.childJobId = childJobId) ∨
      ∃ l, holder = some l ∧ l.accepted = some childJobId
  /-- A child is recorded by the process that submitted it, before anything else is saved. -/
  submitted : ∀ l childJobId, holder = some l → l.accepted = some childJobId →
    l.Answered ∧ ∃ stage a copy, Executing coordinator state stage a copy
  receipts : ∀ child ∈ state.childJobs, Receipt w child

section CallsKept

variable {coordinator : PipelineCoordinator} {runId : String} {w : World} {l : Local}
  {base state : PipelineRunState} {point : SavePoint}

/-- A child that was accepted is recorded by the next save. -/
theorem Saves.accepts {childJobId : String} (h : Saves coordinator l base point state)
    (haccepted : l.accepted = some childJobId) (hanswered : l.Answered) {stage : Stage}
    {copy : PipelineRunState}
    (hexecuting : Executing coordinator base stage a copy) : point = .childAccepted := by
  have hunsettled : ¬ l.Settled := by
    intro hsettled
    rw [hsettled.accepted] at haccepted
    cases haccepted
  have hactive : base.latestStageStatus stage.id = some .running := by
    obtain ⟨running, hlatest, hstatus, -⟩ := hexecuting.latest
    simp [latestStageStatus, hlatest, hstatus]
  have hrunning : base.currentStageRunning = true :=
    (currentStageRunning_iff (currentStageId_of_currentStage hexecuting.current)).mpr hactive
  have honward : ¬ Onward l base := by
    intro h
    cases h with
    | @skipped other current skips early =>
      obtain rfl : stage = other := some.inj (hexecuting.current.symm.trans current)
      unfold skipsCompleted at skips
      unfold latestStageStatus at hactive
      split at skips
      · rename_i last hlast
        simp only [Bool.and_eq_true, beq_iff_eq] at skips
        simp [hlast, skips.1.1] at hactive
      · cases skips
    | recorded current point _ _ => exact hanswered.not_recorded _ _ point
    | accepted current point => exact hanswered.not_lastGood point
  have hfails : ¬ Fails l base := by
    intro h
    cases h with
    | stuck onward => exact honward onward
    | failure _ point _ | verdict _ point _ _ _ => exact hanswered.not_recorded _ _ point
  cases h with
  | childAccepted => rfl
  | dropped _ _ idle _ _ | entered _ _ idle _ _ =>
    rw [hrunning] at idle
    cases idle
  | started _ current _ idle _ =>
    obtain rfl := some.inj (hexecuting.current.symm.trans current)
    exact absurd hactive idle
  | childPolled _ settled _ _ _ | handleSaved _ settled | inFlight _ settled
  | recorded _ settled _ _ _ =>
    exact absurd settled hunsettled
  | lastGood _ _ _ point _ _ | correction _ _ _ point _ _ _ _ | retry _ _ point _ _ =>
    exact absurd point (hanswered.not_recorded _ _)
  | queued _ onward _ | stayed _ onward _ _ _ | moved _ onward _ _ _ | finished _ onward _ _ _ =>
    exact absurd onward honward
  | exhausted _ current _ _ =>
    rw [hexecuting.current] at current
    cases current
  | failed _ _ _ cause => exact absurd cause hfails
  | cascaded _ intended uncancelled _ _ _ =>
    have hwanted := hexecuting.live.wanted
    rw [intended, uncancelled] at hwanted
    cases hwanted
  | intent _ _ free =>
    rw [free] at haccepted
    cases haccepted

/-- What a save makes of the child at one place of the list: it is untouched, or was polled, or
was stopped. -/
abbrev MadeOf (w : World) (before after : ChildJobRef) : Prop :=
  after = before ∨
    (∃ status, after = { before with status := status } ∧ status ≠ .cancelled ∧
      PolledAs w before.childJobId status) ∨
    after = { before with cancelled := true, status := .cancelled } ∧ before.isOver = false ∧
      StoppedChild w before.childJobId

theorem CallsKept.child_cases (hK : CallsKept coordinator runId w base (some l))
    (h : Saves coordinator l base point state) {i : ℕ}
    (hbefore : base.childJobs[i]? = some before) (hafter : state.childJobs[i]? = some after) :
    MadeOf w before after := by
  cases h.children with
  | same children _ =>
    rw [children, hbefore] at hafter
    exact Or.inl (some.inj hafter).symm
  | @polled stage a copy j child status chosen copied polled point_eq children =>
    rw [children, List.getElem?_modify, hbefore, map_eq_map, map_some] at hafter
    have hmade := (some.inj hafter).symm
    split at hmade
    · rename_i hplace
      subst hplace
      have hchild := chosen.found
      rw [copied, hbefore] at hchild
      obtain rfl := some.inj hchild
      obtain ⟨hpolled, huncancelled⟩ := hK.polled l _ _ rfl polled
      exact Or.inr (Or.inl ⟨status, hmade,
        huncancelled before (List.mem_of_getElem? hbefore) rfl, hpolled⟩)
    · exact Or.inl hmade
  | accepted executing point_eq leaf first accepted attempts children =>
    have hlt : i < base.childJobs.length := (List.getElem?_eq_some_iff.mp hbefore).1
    rw [children, List.getElem?_append_left hlt, hbefore] at hafter
    exact Or.inl (some.inj hafter).symm
  | stopped ended point_eq children =>
    have hlt : i < base.childJobs.length := (List.getElem?_eq_some_iff.mp hbefore).1
    have hstops : ChildStops l.stopped before after := by
      obtain ⟨hlt', rfl⟩ := List.getElem?_eq_some_iff.mp hafter
      obtain ⟨_, rfl⟩ := List.getElem?_eq_some_iff.mp hbefore
      exact children.get hlt hlt'
    rcases hstops with hsame | ⟨hover, hmem, hmade⟩
    · exact Or.inl hsame
    · exact Or.inr (Or.inr ⟨hmade, hover, hK.stopped l rfl _ hmem⟩)

/-- Every child that is stored after a save was stored before, or was just accepted. -/
theorem Saves.child_before (h : Saves coordinator l base point state) {i : ℕ}
    (hafter : state.childJobs[i]? = some after) :
    (∃ before, base.childJobs[i]? = some before) ∨
      (l.accepted = some after.childJobId ∧ after.status = .queued ∧ after.cancelled = false) := by
  have hlt : i < state.childJobs.length := (List.getElem?_eq_some_iff.mp hafter).1
  by_cases hold : i < base.childJobs.length
  · exact Or.inl ⟨_, List.getElem?_eq_getElem hold⟩
  right
  cases h.children with
  | same children _ =>
    rw [children] at hlt
    exact absurd hlt hold
  | polled _ _ _ _ children =>
    rw [children, List.length_modify] at hlt
    exact absurd hlt hold
  | @accepted stage a copy childJobId executing point_eq leaf first accepted attempts children =>
    rw [children] at hafter
    obtain rfl : i = base.childJobs.length := by
      rw [children, List.length_append, List.length_singleton] at hlt
      omega
    rw [List.getElem?_concat_length] at hafter
    rw [← some.inj hafter]
    exact ⟨accepted, rfl, rfl⟩
  | stopped ended point_eq children =>
    rw [← children.length_eq] at hlt
    exact absurd hlt hold

theorem Receipt.save (h : Receipt w before) (hmade : MadeOf w before after) : Receipt w after := by
  rcases hmade with rfl | ⟨status, rfl, huncancelled, hpolled⟩ | ⟨rfl, -, hstopped⟩
  · exact h
  · exact ⟨h.cancelled, fun _ => hpolled, fun hcancelled => absurd hcancelled huncancelled⟩
  refine ⟨fun _ => hstopped, ?_, fun _ => hstopped⟩
  rintro (hstatus | hstatus)
  · cases hstatus
  · cases hstatus

/-- A save keeps what is stored of the children in step with what was called. -/
theorem CallsKept.save {w' : World} (hK : CallsKept coordinator runId w base (some l))
    (h : Saves coordinator l base point state) (hcalls : w'.calls = w.calls) :
    CallsKept coordinator runId w' state (some (l.saved point state)) := by
  have hsubset : w.calls ⊆ w'.calls := by
    rw [hcalls]
    exact List.Subset.refl _
  have hcases : ∀ child ∈ state.childJobs,
      (∃ (i : ℕ) (before : ChildJobRef), base.childJobs[i]? = some before ∧
      state.childJobs[i]? = some child) ∨
      (l.accepted = some child.childJobId ∧ child.status = .queued ∧ child.cancelled = false) := by
    intro child hmem
    obtain ⟨i, hi⟩ := List.mem_iff_getElem?.mp hmem
    rcases h.child_before hi with ⟨before, hbefore⟩ | hnew
    · exact Or.inl ⟨i, before, hbefore, hi⟩
    · exact Or.inr hnew
  have hsaved : ∀ {l'}, some (l.saved point state) = some l' → l' = l.saved point state :=
    fun h => (some.inj h).symm
  refine ⟨fun l' childJobId status hl' hpolled => ?_, fun l' hl' => ?_, fun l' hl' => ?_,
    fun childJobId haccepted => ?_, fun l' childJobId hl' haccepted => ?_, fun child hmem => ?_⟩
  · -- Only the save of a poll keeps what was polled.
    obtain rfl := hsaved hl'
    cases point with
    | childPolled =>
      obtain ⟨hanswer, huncancelled⟩ := hK.polled l childJobId status rfl hpolled
      refine ⟨hanswer.mono hsubset, fun child hmem hid => ?_⟩
      rcases hcases child hmem with ⟨i, before, hbefore, hafter⟩ | ⟨haccepted, -, -⟩
      · refine huncancelled before (List.mem_of_getElem? hbefore) ?_
        rw [← hid]
        rcases hK.child_cases h hbefore hafter with rfl | ⟨_, rfl, -, -⟩ | ⟨rfl, -, -⟩ <;> rfl
      · obtain ⟨hanswered, stage, a, copy, hexecuting⟩ := hK.submitted l _ rfl haccepted
        cases h.accepts haccepted hanswered hexecuting
    | _ => cases hpolled
  · obtain rfl := hsaved hl'
    exact fun childJobId hmem => hsubset (hK.stopped l rfl childJobId hmem)
  · obtain rfl := hsaved hl'
    exact fun stageId hmem => hsubset (hK.stoppedStages l rfl stageId hmem)
  · left
    obtain ⟨stageId, key, hmem⟩ := haccepted
    rw [hcalls] at hmem
    rcases hK.accepted childJobId ⟨stageId, key, hmem⟩ with ⟨before, hbefore, rfl⟩ | ⟨l', hl', hnew⟩
    · obtain ⟨i, hi⟩ := List.mem_iff_getElem?.mp hbefore
      have hlength : base.childJobs.length ≤ state.childJobs.length := by
        cases h.children with
        | same children _ => rw [children]
        | polled _ _ _ _ children => rw [children, List.length_modify]
        | accepted _ _ _ _ _ _ children => simp [children]
        | stopped _ _ children => exact children.length_eq.le
      have hlt : i < state.childJobs.length :=
        (List.getElem?_eq_some_iff.mp hi).1.trans_le hlength
      have hafter := List.getElem?_eq_getElem hlt
      refine ⟨_, List.mem_of_getElem? hafter, ?_⟩
      rcases hK.child_cases h hi hafter with hmade | ⟨_, hmade, -, -⟩ | ⟨hmade, -, -⟩ <;> rw [hmade]
    · obtain rfl := some.inj hl'
      obtain ⟨hanswered, stage, a, copy, hexecuting⟩ := hK.submitted l _ rfl hnew
      obtain rfl := h.accepts hnew hanswered hexecuting
      cases h.children with
      | same _ unrecorded => exact absurd rfl unrecorded
      | polled _ _ _ point_eq _ | stopped _ point_eq _ => cases point_eq
      | accepted _ _ _ _ accepted _ children =>
        refine ⟨_, children ▸ List.mem_append_right _ List.mem_cons_self, ?_⟩
        exact some.inj (accepted.symm.trans hnew)
  · obtain rfl := hsaved hl'
    cases haccepted
  · rcases hcases child hmem with ⟨i, before, hbefore, hafter⟩ | ⟨-, hqueued, hkept⟩
    · exact ((hK.receipts before (List.mem_of_getElem? hbefore)).save
        (hK.child_cases h hbefore hafter)).mono hsubset
    refine ⟨fun hcancelled => ?_, fun hstatus => ?_, fun hstatus => ?_⟩
    · rw [hkept] at hcancelled
      cases hcancelled
    · rw [hqueued] at hstatus
      rcases hstatus with hstatus | hstatus <;> cases hstatus
    · rw [hqueued] at hstatus
      cases hstatus

/-- A save that ends the run as cancelled is that of the cascade. -/
theorem Saves.cascade_stops (h : Saves coordinator l base point state)
    (hbase : base.terminalCode = none) (hcode : state.terminalCode = some .coordinatorCancelled) :
    (∀ child ∈ state.childJobs, child.isOver = true) ∧
      state.stageAttempts = base.stageAttempts ∧
      ∀ stage, base.currentStage = some stage → stage.id ≠ "" → base.currentStageRunning = true →
        coordinator.authority stage = .ok .external → stage.id ∈ l.stoppedStages := by
  have hkept : state.terminalCode = base.terminalCode → False := by
    intro hsame
    rw [hsame, hbase] at hcode
    cases hcode
  have hended : ∀ {ended : PipelineRunState} {code reason}, state = ended.terminal code reason →
      code = .coordinatorCancelled ∧ state.childJobs = ended.childJobs ∧
        state.stageAttempts = ended.stageAttempts := by
    intro ended code reason heq
    obtain ⟨artifact, text, hterminal⟩ := terminal_eq ended code reason
    rw [hterminal] at heq
    subst heq
    exact ⟨some.inj hcode, rfl, rfl⟩
  have hcopy : ∀ {stage a copy}, Executing coordinator base stage a copy →
      state.terminalCode = copy.terminalCode → False := by
    intro stage a copy hexecuting hstate
    refine hkept (hstate.trans ?_)
    rw [hexecuting.copy_eq]
    rfl
  cases h with
  | cascaded running intended uncancelled children_eq unsuccessful stops =>
    obtain ⟨hcancelled, hchildren, hattempts⟩ := hended rfl
    obtain ⟨hover, hstage⟩ := stops hcancelled
    rw [hchildren, hattempts]
    exact ⟨hover, rfl, hstage⟩
  | failed live unsuccessful uncancelled cause => exact absurd (hended rfl).1 uncancelled
  | finished | exhausted => exact nomatch (hended rfl).1
  | childAccepted executing _ _ _ _ | childPolled executing _ _ _ _ | handleSaved executing _
  | inFlight executing _ =>
    exact (hcopy executing rfl).elim
  | recorded executing _ _ _ _ =>
    rw [recordedState_eq] at hcopy
    exact (hcopy executing rfl).elim
  | _ => exact (hkept rfl).elim

theorem Saves.unended (h : Saves coordinator l base point state) (hbase : base.terminalCode = none)
    (hrunning : state.status = .running) : state.terminalCode = none := by
  rcases h.frame.2.2 with hended | ⟨-, hsame⟩
  · rw [hrunning] at hended
    exact nomatch hended
  · rw [hsame, hbase]

end CallsKept

structure CancelKept (coordinator : PipelineCoordinator) (runId : String)
    (h : List (Event World Cmd)) (w : World) (state : PipelineRunState) (holder : Option Local) :
    Prop where
  runId_eq : state.runId = runId
  held : ∀ l, holder = some l → l.base = some state
  named : state.compiledPipeline.Named
  unended : state.status = .running → state.terminalCode = none
  cursor : CursorKept state holder
  calls : CallsKept coordinator runId w state holder
  receipts : KeepsReceipts runId h
  ended : state.terminalCode = some .coordinatorCancelled →
    (∀ child ∈ state.childJobs, child.isOver = true) ∧
      ∀ stage ∈ state.compiledPipeline.stages, coordinator.authority stage = .ok .external →
        ∀ a ∈ state.stageAttempts stage.id, a.status = .running → StoppedStage runId w stage.id

section CancelKept

variable {coordinator : PipelineCoordinator} {runId : String} {h : List (Event World Cmd)}
  {w : World} {l : Local} {base state : PipelineRunState} {point : SavePoint}
  {holder : Option Local}

variable {e : Event World Cmd} {w' : World}

theorem KeepsReceipts.concat (hkept : KeepsReceipts runId h)
    (hnew : ∀ point state, e.cmd = .hset point state → state.runId ≠ runId) :
    KeepsReceipts runId (h ++ [e]) := by
  intro f hf point state base hcmd hrun
  rcases List.mem_append.mp hf with hf | hf
  · exact hkept f hf point state base hcmd hrun
  · rw [List.mem_singleton.mp hf] at hcmd
    exact absurd hrun (hnew point state hcmd)

/-- Nothing was called but more, and nothing was saved. -/
theorem CancelKept.carry {holder' : Option Local}
    (hK : CancelKept coordinator runId h w state holder) (hcalls : w.calls ⊆ w'.calls)
    (hnew : ∀ point state, e.cmd = .hset point state → state.runId ≠ runId)
    (hheld : ∀ l, holder' = some l → l.base = some state) (hcursor : CursorKept state holder')
    (hkept : CallsKept coordinator runId w' state holder') :
    CancelKept coordinator runId (h ++ [e]) w' state holder' := by
  refine ⟨hK.runId_eq, hheld, hK.named, hK.unended, hcursor, hkept, hK.receipts.concat hnew,
    fun hcode => ?_⟩
  obtain ⟨hover, hstages⟩ := hK.ended hcode
  refine ⟨hover, fun stage hstage hauthority a ha hrunning => ?_⟩
  exact hcalls (hstages stage hstage hauthority a ha hrunning)

/-- A process that does not hold the run submits no child for it. -/
theorem CallsKept.carry (hK : CallsKept coordinator runId w state none)
    (hcalls : w.calls ⊆ w'.calls)
    (haccepted : ∀ childJobId, Accepted runId w' childJobId → Accepted runId w childJobId) :
    CallsKept coordinator runId w' state none := by
  refine ⟨fun _ _ _ hl => (by cases hl), fun _ hl => (by cases hl), fun _ hl => (by cases hl),
    fun childJobId hnew => hK.accepted childJobId (haccepted childJobId hnew),
    fun _ _ hl => (by cases hl), fun child hmem => (hK.receipts child hmem).mono hcalls⟩

/-- The process that holds the run issues a command other than a save. -/
theorem CallsKept.own {providers : Providers}
    (hK : CallsKept coordinator runId e.before state (some l)) (hrun : state.runId = runId)
    (hbase : l.base = some state) (hstored : e.before.states runId = some state)
    (hallows : l.allows coordinator e.cmd) (hsave : ∀ point written, e.cmd ≠ .hset point written)
    (hpoint : (l.note e.cmd (exec providers e.cmd e.before).1).point = l.point)
    (huncancelled : PollsUncancelled providers runId e = true) :
    CallsKept coordinator runId (exec providers e.cmd e.before).2 state
      (some (l.note e.cmd (exec providers e.cmd e.before).1)) := by
  obtain ⟨c, w⟩ := e
  replace hstored : w.states runId = some state := hstored
  have hmore : w.calls ⊆ (exec providers c w).2.calls := fun _ hmem => mem_calls_exec hmem
  refine ⟨fun l' childJobId status hl' hpolled => ?_, fun l' hl' childJobId hmem => ?_,
    fun l' hl' stageId hmem => ?_, fun childJobId hnew => ?_, fun l' childJobId hl' hnew => ?_,
    fun child hmem => (hK.receipts child hmem).mono hmore⟩
  · obtain rfl := some.inj hl'
    rcases note_polled hsave hpolled with ⟨hold, -⟩ | ⟨poll, hcmd, hanswer, rfl⟩
    · obtain ⟨hanswer, hopen⟩ := hK.polled l childJobId status rfl hold
      exact ⟨hanswer.mono hmore, hopen⟩
    obtain rfl : c = _ := hcmd
    refine ⟨⟨poll, ?_, rfl⟩, fun child hmem hid hcancelled => ?_⟩
    · rw [exec_calls]
      refine List.mem_append_right _ ?_
      exact mem_toList.mpr (congrArg (fun r => some (ProviderCall.leafPoll childJobId r)) hanswer)
    · simp only [PollsUncancelled, hanswer, hcancelled, hstored, all_some,
        List.all_eq_true, Bool.or_eq_true, bne_self_eq_false, Bool.false_eq_true, false_or,
        bne_iff_ne] at huncancelled
      exact huncancelled child hmem hid
  · obtain rfl := some.inj hl'
    rcases note_stopped hsave hmem with hold | hnew
    · exact hmore (hK.stopped l rfl childJobId hold)
    · exact hnew
  · obtain rfl := some.inj hl'
    rcases note_stoppedStages hsave hmem with hold | ⟨run, hcmd, hnew⟩
    · exact hmore (hK.stoppedStages l rfl stageId hold)
    obtain rfl : c = _ := hcmd
    obtain ⟨other, hother, hown⟩ := hallows
    obtain rfl : state = other := some.inj (hbase.symm.trans hother)
    obtain rfl : run = runId := hown.symm.trans hrun
    exact hnew
  · by_cases hsubmit : ∃ stage inputs copy key, c = .leafSubmit stage inputs copy key
    · obtain ⟨stage, inputs, copy, key, rfl⟩ := hsubmit
      obtain ⟨other, a, hother, hexecuting, -, -, hsettled⟩ := hallows
      rcases accepted_exec hnew with hold | ⟨_, _, _, _, hcmd, -, hanswer⟩
      · rcases hK.accepted childJobId hold with hchild | ⟨l', hl', hwaiting⟩
        · exact Or.inl hchild
        obtain rfl := some.inj hl'
        rw [hsettled.accepted] at hwaiting
        cases hwaiting
      · cases hcmd
        refine Or.inr ⟨_, rfl, ?_⟩
        simp only [exec, hanswer, note]
    · have hother : ∀ stage inputs copy key, c ≠ .leafSubmit stage inputs copy key :=
        fun stage inputs copy key hcmd => hsubmit ⟨stage, inputs, copy, key, hcmd⟩
      rcases accepted_exec hnew with hold | ⟨stage, inputs, copy, key, hcmd, -, -⟩
      · rcases hK.accepted childJobId hold with hchild | ⟨l', hl', hwaiting⟩
        · exact Or.inl hchild
        obtain rfl := some.inj hl'
        refine Or.inr ⟨_, rfl, ?_⟩
        rw [note_accepted hsave ?_ hother]
        · exact hwaiting
        · rintro run rfl
          exact Idle.accepted hallows
      · exact absurd hcmd (hother stage inputs copy key)
  · obtain rfl := some.inj hl'
    by_cases hsubmit : ∃ stage inputs copy key, c = .leafSubmit stage inputs copy key
    · obtain ⟨stage, inputs, copy, key, rfl⟩ := hsubmit
      obtain ⟨other, a, hother, hexecuting, -, -, hsettled⟩ := hallows
      obtain rfl : state = other := some.inj (hbase.symm.trans hother)
      refine ⟨?_, stage, a, copy, hexecuting⟩
      generalize (exec providers (.leafSubmit stage inputs copy key) w).1 = r
      have hnoted := noted (l := l) hsave r
      generalize l.note _ _ = l' at hnoted ⊢
      cases hnoted <;> exact hsettled.answered
    · have hother : ∀ stage inputs copy key, c ≠ .leafSubmit stage inputs copy key :=
        fun stage inputs copy key hcmd => hsubmit ⟨stage, inputs, copy, key, hcmd⟩
      have hload : ∀ run, c = .hgetall run → l.accepted = none := by
        rintro run rfl
        exact Idle.accepted hallows
      rw [note_accepted hsave hload hother] at hnew
      obtain ⟨hanswered, hexecuting⟩ := hK.submitted l childJobId rfl hnew
      refine ⟨?_, hexecuting⟩
      unfold Local.Answered at hanswered ⊢
      rw [hpoint]
      generalize (exec providers c w).1 = r
      have hnoted := noted (l := l) hsave r
      generalize l.note c r = l' at hnoted ⊢
      cases hnoted with
      | announced =>
        split at hanswered
        · exact hanswered
        · exact hanswered
        · rfl
        · trivial
      | load run loaded =>
        rw [hload run rfl] at hnew
        cases hnew
      | _ => exact hanswered

/-- **A save** keeps what is known of cancelled children. -/
theorem CancelKept.save (hK : CancelKept coordinator runId h w base (some l))
    (hsaves : Saves coordinator l base point state) (hstored : w.states runId = some base)
    (hcalls : w'.calls = w.calls) :
    CancelKept coordinator runId (h ++ [⟨.hset point state, w⟩]) w' state
      (some (l.saved point state)) := by
  have hunended := hK.unended hsaves.base_running
  refine ⟨hsaves.runId_eq.trans hK.runId_eq, fun l' hl' => ?_, ?_, hsaves.unended hunended,
    hK.cursor.save hsaves, hK.calls.save hsaves hcalls, ?_, fun hcode => ?_⟩
  · obtain rfl := some.inj hl'
    rfl
  · rw [hsaves.compiledPipeline_eq]
    exact hK.named
  · intro e he point' state' base' hcmd hrun hbefore
    rcases List.mem_append.mp he with he | he
    · exact hK.receipts e he point' state' base' hcmd hrun hbefore
    rw [List.mem_singleton.mp he] at hcmd hbefore
    obtain ⟨rfl, rfl⟩ := Cmd.hset.inj hcmd
    obtain rfl : base = base' := some.inj (hstored.symm.trans hbefore)
    intro i before after hi hafter hstatus
    rcases hK.calls.child_cases hsaves hi hafter with rfl | ⟨status, rfl, hopen, -⟩ | ⟨-, hover, -⟩
    · refine ⟨?_, rfl⟩
      rcases hstatus with hstatus | hstatus
      all_goals
        rw [hstatus]
        exact nofun
    · exact ⟨hopen, rfl⟩
    · rcases hstatus with hstatus | hstatus <;> simp [ChildJobRef.isOver, hstatus] at hover
  · obtain ⟨hover, hattempts, hstops⟩ := hsaves.cascade_stops hunended hcode
    refine ⟨hover, fun stage hstage hauthority a ha hrunning => ?_⟩
    rw [hsaves.compiledPipeline_eq] at hstage
    rw [hattempts] at ha
    -- What is RUNNING is what the cascade has tried to stop.
    obtain ⟨k, hk⟩ := List.mem_iff_getElem?.mp ha
    obtain ⟨-, hid⟩ := hK.cursor.running stage.id k a hk hrunning
    have hcurrent : base.currentStage = some stage := by
      unfold currentStage
      rw [hid]
      exact CompiledPipeline.stage?_of_mem hstage
    have hstopped := hstops stage hcurrent (hK.named stage hstage)
      (hK.cursor.currentStageRunning hk hrunning) hauthority
    unfold StoppedStage
    rw [hcalls]
    exact hK.calls.stoppedStages l rfl stage.id hstopped

end CancelKept

namespace Deployment

variable {d : Deployment}

/-- Every step of serial processes keeps what is known of cancelled children. -/
theorem keptBy_cancelled {runId : String} {processes : List (Process CoordinatorOp)}
    (hplans : d.Submits runId CompiledPipeline.Named processes)
    (hpolls : ∀ e ∈ d.serialHistory processes, PollsUncancelled d.providers runId e = true) :
    KeptBy d runId (StopsRecorded runId) (d.serialHistory processes)
      (CancelKept d.coordinator runId) where
  create h w later w' pipeline requestParams hsplit hforeign _ hcalled := by
    have hmem : (⟨.evalSubmitParent (initialState runId pipeline requestParams), w⟩ :
        Event World Cmd) ∈ d.serialHistory processes :=
      hsplit ▸ List.mem_append_right _ List.mem_cons_self
    refine ⟨rfl, fun _ hl => (by cases hl), hplans _ hmem pipeline requestParams rfl, fun _ => rfl,
      ⟨fun _ _ _ hget => (by cases hget), fun _ hl => (by cases hl)⟩, ?_, ?_, fun hcode => by cases hcode⟩
    · refine ⟨fun _ _ _ hl => (by cases hl), fun _ hl => (by cases hl), fun _ hl => (by cases hl),
        fun childJobId haccepted => ?_, fun _ _ hl => (by cases hl), fun _ hchild => (by cases hchild)⟩
      obtain ⟨stageId, key, hcall⟩ := haccepted
      obtain ⟨⟨c, before⟩, he, hsubmit⟩ := hcalled _ hcall
      have hother := hforeign _ he
      cases c with
      | leafSubmit stage inputs state key' =>
        simp only [Cmd.providerCall, some.injEq, ProviderCall.leafSubmit.injEq] at hsubmit
        exact absurd hsubmit.2.1 hother
      | _ => simp [Cmd.providerCall] at hsubmit
    · intro e he point state base hcmd hrun
      rcases List.mem_append.mp he with he | he
      · have hother := hforeign e he
        rw [hcmd] at hother
        exact absurd hrun hother
      · rw [List.mem_singleton.mp he] at hcmd
        cases hcmd
  load h w state l hK := by
    refine hK.carry (List.Subset.refl _) (fun _ _ hcmd => by cases hcmd) (fun l' hl' => ?_)
      ⟨hK.cursor.running, fun l' hl' hpoint => ?_⟩ ?_
    · obtain rfl := some.inj hl'
      rfl
    · obtain rfl := some.inj hl'
      rcases hpoint with ⟨_, _, hpoint⟩ | hpoint <;> cases hpoint
    · refine ⟨fun l' childJobId status hl' hpolled => ?_, fun l' hl' childJobId hmem => ?_,
        fun l' hl' stageId hmem => ?_, fun childJobId haccepted => ?_,
        fun l' childJobId hl' haccepted => ?_, hK.calls.receipts⟩
      · obtain rfl := some.inj hl'
        cases hpolled
      · obtain rfl := some.inj hl'
        cases hmem
      · obtain rfl := some.inj hl'
        cases hmem
      · rcases hK.calls.accepted childJobId haccepted with hchild | ⟨_, hl, _⟩
        · exact Or.inl hchild
        · cases hl
      · obtain rfl := some.inj hl'
        cases haccepted
  other h e state hK hforeign := by
    refine hK.carry (fun _ hmem => mem_calls_exec hmem) (fun point written hcmd => ?_)
      (fun _ hl => (by cases hl)) ⟨hK.cursor.running, fun _ hl => (by cases hl)⟩
      (hK.calls.carry (fun _ hmem => mem_calls_exec hmem) fun childJobId haccepted => ?_)
    · rw [hcmd] at hforeign
      exact hforeign
    · rcases accepted_exec haccepted with hold | ⟨stage, inputs, copy, key, hcmd, hrun, -⟩
      · exact hold
      · rw [hcmd] at hforeign
        exact absurd hrun hforeign
  own h e later state l hsplit hK hbase hstored hallows hsave hkeep hpoint := by
    have hpoll := hpolls e (hsplit ▸ List.mem_append_right _ List.mem_cons_self)
    refine hK.carry (fun _ hmem => mem_calls_exec hmem)
      (fun point written hcmd => absurd hcmd (hsave point written)) (fun l' hl' => ?_)
      ⟨hK.cursor.running, fun l' hl' hwaits => ?_⟩
      (hK.calls.own hK.runId_eq hbase hstored hallows hsave hpoint hpoll)
    · obtain rfl := some.inj hl'
      exact hkeep.trans hbase
    · obtain rfl := some.inj hl'
      rw [hpoint] at hwaits
      exact hK.cursor.answered l rfl hwaits
  save h w later base l point state _ hK _ hstored hsaves := hK.save hsaves hstored rfl
  forget h w state l hK hsettled := by
    have hnone : l.accepted = none := by
      rcases hsettled with hsettled | hrecorded
      · exact hsettled.accepted
      · exact hrecorded state (hK.held l rfl) hK.runId_eq
    refine ⟨hK.runId_eq, fun _ hl => (by cases hl), hK.named, hK.unended,
      ⟨hK.cursor.running, fun _ hl => (by cases hl)⟩, ?_, hK.receipts, hK.ended⟩
    refine ⟨fun _ _ _ hl => (by cases hl), fun _ hl => (by cases hl), fun _ hl => (by cases hl),
      fun childJobId haccepted => ?_, fun _ _ hl => (by cases hl), hK.calls.receipts⟩
    rcases hK.calls.accepted childJobId haccepted with hchild | ⟨l', hl', hwaits⟩
    · exact Or.inl hchild
    obtain rfl := some.inj hl'
    rw [hnone] at hwaits
    cases hwaits

/-- **Cancelled means stopped.**  Whatever the providers answer, as long as no child is polled as
cancelled, and wherever the processes stop, except between the acceptance of a child and its
record: a run that ended as cancelled has left nothing behind, and no child that has completed
or failed becomes a cancelled one. -/
theorem cancelledStopped_of_recorded {runId : String} {processes : List (Process CoordinatorOp)}
    (hplans : d.Submits runId CompiledPipeline.Named processes)
    (hpolls : ∀ e ∈ d.serialHistory processes, PollsUncancelled d.providers runId e = true)
    (hstops : d.StopsAt (StopsRecorded runId) processes) :
    CancelledStopped d.coordinator runId (d.serialStore processes) ∧
      KeepsReceipts runId (d.serialHistory processes) := by
  have hkept := keptBy_cancelled hplans hpolls
  cases hstate : (d.serialStore processes).states runId with
  | none =>
    have hforeign := foreign_of_absent hkept hstops hstate
    refine ⟨fun state hsome => ?_, fun e he point state base hcmd hrun => ?_⟩
    · rw [hstate] at hsome
      cases hsome
    · have hother := hforeign e he
      rw [hcmd] at hother
      exact absurd hrun hother
  | some state =>
    have hend := serial_induction hkept hstops hstate
    refine ⟨fun other hother hcode => ?_, hend.receipts⟩
    obtain rfl : state = other := some.inj (hstate.symm.trans hother)
    obtain ⟨hover, hstages⟩ := hend.ended hcode
    refine ⟨fun childJobId haccepted => ?_, hstages⟩
    rcases hend.calls.accepted childJobId haccepted with ⟨child, hmem, rfl⟩ | ⟨_, hl, _⟩
    · exact (hend.calls.receipts child hmem).over (hover child hmem)
    · cases hl

/-! ## A generation that is not over -/

def waiting : Deployment where
  coordinator := (reviewing fun _ => true).coordinator
  providers :=
    { (reviewing fun _ => true).providers with
      leafPoll := fun _ _ => .ok { status := .inFlight } }

/-- The process that submits the generation stops after so many commands, and then the run is
cancelled. -/
def cancelledRun (commands : ℕ) : List (Process CoordinatorOp) :=
  [⟨.submitParent "run" reviewed [], 10⟩, ⟨.advanceOnce "now" "run", commands⟩,
    ⟨.requestCancellation 0 "run", 10⟩, ⟨.advanceOnce "now" "run", 30⟩]

/-- The child that was accepted for the run, if a call says so. -/
def acceptedChild (runId : String) : ProviderCall → Option String
  | .leafSubmit _ run _ (.ok childJobId) => if run = runId then some childJobId else none
  | _ => none

theorem accepted_of_acceptedChild {runId childJobId : String} {w : World}
    (h : childJobId ∈ w.calls.filterMap (acceptedChild runId)) : Accepted runId w childJobId := by
  obtain ⟨call, hmem, hcall⟩ := List.mem_filterMap.mp h
  cases call with
  | leafSubmit stageId run key answer =>
    cases answer with
    | ok id =>
      simp only [acceptedChild, ite_none_right_eq_some, some.injEq] at hcall
      obtain ⟨rfl, rfl⟩ := hcall
      exact ⟨stageId, key, hmem⟩
    | error e => cases hcall
  | _ => cases hcall

/-- The child is recorded, and the cascade stops it. -/
theorem cancelledStopped_waiting :
    ((waiting.serialStore (cancelledRun 30)).states "run").bind terminalCode =
        some .coordinatorCancelled ∧
      ((waiting.serialStore (cancelledRun 30)).calls.filterMap (acceptedChild "run")).length = 1 ∧
      CancelledStopped waiting.coordinator "run" (waiting.serialStore (cancelledRun 30)) ∧
      KeepsReceipts "run" (waiting.serialHistory (cancelledRun 30)) := by
  have hplans : waiting.Submits "run" CompiledPipeline.Named (cancelledRun 30) :=
    submits_of_all (by decide +kernel)
  have hpolls : ∀ e ∈ waiting.serialHistory (cancelledRun 30),
      PollsUncancelled waiting.providers "run" e = true := by decide +kernel
  have hstops : waiting.StopsAt (StopsRecorded "run") (cancelledRun 30) := by decide +kernel
  exact ⟨by decide +kernel, by decide +kernel, cancelledStopped_of_recorded hplans hpolls hstops⟩

/-- The process stops when the generation is accepted: the run ends as cancelled, and nobody has
polled or stopped the child. -/
theorem not_cancelledStopped_of_unrecorded :
    ¬ CancelledStopped waiting.coordinator "run" (waiting.serialStore (cancelledRun 5)) := by
  generalize hstore : waiting.serialStore (cancelledRun 5) = w
  have hcode : (w.states "run").bind terminalCode =
      some .coordinatorCancelled := by
    rw [← hstore]
    decide +kernel
  have haccepted : (w.calls.filterMap (acceptedChild "run")).length = 1 := by
    rw [← hstore]
    decide +kernel
  have hcalls : w.calls.length = 1 := by
    rw [← hstore]
    decide +kernel
  intro h
  obtain ⟨state, hstate, hcancelled⟩ := bind_eq_some_iff.mp hcode
  obtain ⟨childJobId, hchild⟩ := List.length_eq_one_iff.mp haccepted
  obtain ⟨call, hcall⟩ := List.length_eq_one_iff.mp hcalls
  have hsubmitted : Accepted "run" w childJobId :=
    accepted_of_acceptedChild (by simp [hchild])
  obtain ⟨stageId, key, hsubmit⟩ := hsubmitted
  -- The submission is the only call.
  have honly : ∀ other ∈ w.calls, other = .leafSubmit stageId "run" key (.ok childJobId) := by
    rw [hcall] at hsubmit ⊢
    intro other hother
    rw [List.mem_singleton.mp hother, List.mem_singleton.mp hsubmit]
  rcases (h state hstate hcancelled).1 childJobId ⟨stageId, key, hsubmit⟩ with
    ⟨poll, hpoll, -⟩ | ⟨poll, hpoll, -⟩ | hstopped
  · cases honly _ hpoll
  · cases honly _ hpoll
  · cases honly _ hstopped

end Deployment

end GpuManager.Coordinator
