import GpuManager.Coordinator.Serial

/-!
# The children of an attempt

An attempt of a leaf stage uses the child that was submitted for it.  Before one is submitted,
the earlier children of the stage are polled, and one that is queued, in flight or completed is
used instead: an attempt may have been given up although its child was accepted.

The search does not look at the attempt that a child was submitted for.  So when a correction
enters a stage again whose earlier attempt has completed, the child of that attempt is found,
and its result is recorded a second time.  As long as no child is polled as completed after its
result was recorded, every recorded result is that of a child of this attempt or of one that
was given up.
-/

namespace GpuManager.Coordinator

open AtomicProgram PipelineCoordinator PipelineRunState List Option Function

/-! ## The attempts of a run -/

/-- Attempts are numbered from one, have the key of their number, and are RUNNING, COMPLETED or
FAILED. -/
def Numbered (coordinator : PipelineCoordinator) (state : PipelineRunState) : Prop :=
  ∀ stageId k a, (state.stageAttempts stageId)[k]? = some a →
    a.attempt = k + 1 ∧
      a.idempotencyKey = coordinator.stageIdempotencyKey state.runId stageId (k + 1) ∧
      (a.status = .running ∨ a.status = .completed ∨ a.status = .failed)

variable {a running : StageAttempt}

theorem getElem?_setLatestAttempt (state : PipelineRunState) {stageId : String}
    (hlatest : state.latestAttempt stageId = some running) (a : StageAttempt) (k : ℕ) :
    ((state.setLatestAttempt stageId a).stageAttempts stageId)[k]? =
      if k + 1 = (state.stageAttempts stageId).length then some a
      else (state.stageAttempts stageId)[k]? := by
  have hlength : 0 < (state.stageAttempts stageId).length := by
    refine length_pos_of_ne_nil fun hnil => ?_
    simp [latestAttempt, hnil] at hlatest
  simp only [setLatestAttempt, update_self, getElem?_append,
    length_dropLast, getElem?_dropLast]
  split_ifs with h1 h2 h2
  · omega
  · rfl
  · rw [show k - ((state.stageAttempts stageId).length - 1) = 0 by omega]
    rfl
  · rw [getElem?_eq_none (by simp; omega), getElem?_eq_none (by omega)]

/-- The latest attempt by its number. -/
theorem latestAttempt_getElem? {state : PipelineRunState} {stageId : String}
    (h : state.latestAttempt stageId = some a) :
    0 < (state.stageAttempts stageId).length ∧
      (state.stageAttempts stageId)[(state.stageAttempts stageId).length - 1]? = some a := by
  unfold latestAttempt at h
  rw [List.getLast?_eq_getElem?] at h
  refine ⟨?_, h⟩
  obtain ⟨hlt, -⟩ := List.getElem?_eq_some_iff.mp h
  omega

section Attempts

variable {coordinator : PipelineCoordinator} {l : Local} {base state : PipelineRunState}
  {point : SavePoint}

variable {stageId : String}

/-- A RUNNING attempt is resumed under the key of its number. -/
theorem Numbered.resumed_key
    (h : Numbered coordinator base) (hlatest : base.latestAttempt stageId = some running) :
    (coordinator.resumedAttempt base stageId running).idempotencyKey =
      coordinator.stageIdempotencyKey base.runId stageId (base.stageAttempts stageId).length := by
  obtain ⟨hpos, hget⟩ := latestAttempt_getElem? hlatest
  obtain ⟨hnumber, hkey, -⟩ := h stageId _ running hget
  rw [show (base.stageAttempts stageId).length - 1 + 1 = (base.stageAttempts stageId).length by
    omega] at hnumber hkey
  unfold resumedAttempt
  simp only
  split
  · rw [hnumber]
  · exact hkey

/-- What a save leaves of an attempt: its outcome is written only where it is recorded. -/
def AttemptKept (base : PipelineRunState) (point : SavePoint) (stageId : String) (k : ℕ)
    (before after : StageAttempt) : Prop :=
  after.status = before.status ∨
    ∃ stage result, point = .recorded stage.id result ∧ base.currentStage = some stage ∧
      stageId = stage.id ∧ k + 1 = (base.stageAttempts stageId).length ∧
      before.status = .running ∧
      after.status = if validatedStatus result = .completed then .completed else .failed

theorem Saves.attempt_kept (h : Saves coordinator l base point state) {k : ℕ}
    (ha : (base.stageAttempts stageId)[k]? = some a) :
    ∃ a', (state.stageAttempts stageId)[k]? = some a' ∧ AttemptKept base point stageId k a a' := by
  rcases h.stageAttempts_cases with hsame | ⟨stage, -, -, hmore⟩ |
    ⟨stage, running, written, hexecuted, hwritten⟩
  · rw [hsame]
    exact ⟨a, ha, Or.inl rfl⟩
  · rw [hmore]
    refine ⟨a, ?_, Or.inl rfl⟩
    by_cases hid : stageId = stage.id
    · subst hid
      obtain ⟨hlt, -⟩ := List.getElem?_eq_some_iff.mp ha
      simpa [appendAttempt, List.getElem?_append_left hlt] using ha
    · simpa [appendAttempt, Function.update_of_ne hid] using ha
  · rw [hwritten]
    by_cases hid : stageId = stage.id
    · subst hid
      rw [getElem?_setLatestAttempt base hexecuted.latest]
      split
      · rename_i hlast
        have hrunning : a = running := by
          obtain ⟨hpos, hget⟩ := latestAttempt_getElem? hexecuted.latest
          rw [show (base.stageAttempts stage.id).length - 1 = k by omega, ha] at hget
          exact some.inj hget
        refine ⟨written, rfl, ?_⟩
        rcases hexecuted.outcome with ⟨hstatus, -⟩ | ⟨result, hpoint, hstatus⟩
        · left
          rw [hstatus, hrunning, hexecuted.status]
        right
        refine ⟨stage, result, hpoint, hexecuted.current, rfl, hlast, ?_, hstatus⟩
        rw [hrunning, hexecuted.status]
      · exact ⟨a, ha, Or.inl rfl⟩
    · refine ⟨a, ?_, Or.inl rfl⟩
      simpa [setLatestAttempt, Function.update_of_ne hid] using ha

theorem Saves.numbered (h : Saves coordinator l base point state)
    (hnumbered : Numbered coordinator base) : Numbered coordinator state := by
  unfold Numbered
  rw [h.runId_eq]
  intro stageId k a ha
  rcases h.stageAttempts_cases with hsame | ⟨stage, -, -, hmore⟩ |
    ⟨stage, running, written, hexecuted, hwritten⟩
  · rw [hsame] at ha
    exact hnumbered stageId k a ha
  · rw [hmore] at ha
    by_cases hid : stageId = stage.id
    · subst hid
      simp only [appendAttempt, update_self] at ha
      rcases lt_trichotomy k (base.stageAttempts stage.id).length with hlt | rfl | hgt
      · rw [getElem?_append_left hlt] at ha
        exact hnumbered stage.id k a ha
      · rw [getElem?_concat_length] at ha
        obtain rfl := some.inj ha
        exact ⟨rfl, rfl, Or.inl rfl⟩
      · rw [getElem?_eq_none (by simp; omega)] at ha
        cases ha
    · simp only [appendAttempt, update_of_ne hid] at ha
      exact hnumbered stageId k a ha
  · rw [hwritten] at ha
    by_cases hid : stageId = stage.id
    · subst hid
      rw [getElem?_setLatestAttempt base hexecuted.latest] at ha
      split at ha
      · rename_i hlast
        obtain rfl := some.inj ha
        obtain ⟨hpos, hget⟩ := latestAttempt_getElem? hexecuted.latest
        obtain ⟨hnumber, -, -⟩ := hnumbered stage.id _ running hget
        refine ⟨?_, ?_, ?_⟩
        · rw [hexecuted.number, hnumber]
          omega
        · rw [hexecuted.key, hnumbered.resumed_key hexecuted.latest, hlast]
        · rcases hexecuted.outcome with ⟨hstatus, -⟩ | ⟨result, -, hstatus⟩
          · exact Or.inl hstatus
          rw [hstatus]
          split
          · exact Or.inr (Or.inl rfl)
          · exact Or.inr (Or.inr rfl)
      · exact hnumbered stage.id k a ha
    · simp only [setLatestAttempt, update_of_ne hid] at ha
      exact hnumbered stageId k a ha

end Attempts

/-! ## Recorded children -/

/-- The child whose answer came last. -/
def lastPolled (w : World) : Option String :=
  (w.calls.filterMap fun
    | .leafPoll childJobId (.ok _) => some childJobId
    | _ => none).getLast?

def isLeaf (coordinator : PipelineCoordinator) (state : PipelineRunState) (stageId : String) :
    Bool :=
  (state.compiledPipeline.stage? stageId).any fun stage =>
    match coordinator.authority stage with
    | .ok .leaf => true
    | _ => false

/-- The child whose result is recorded as that of a COMPLETED attempt. -/
def recordedChild (coordinator : PipelineCoordinator) (runId : String) (e : Event World Cmd) :
    Option String :=
  match e.cmd with
  | .hset (.recorded stageId _) state =>
    if state.runId = runId ∧ isLeaf coordinator state stageId = true ∧
        state.latestStageStatus stageId = some .completed then lastPolled e.before
    else none
  | _ => none

def recordedChildren (coordinator : PipelineCoordinator) (runId : String)
    (h : List (Event World Cmd)) : List String :=
  h.filterMap (recordedChild coordinator runId)

/-- The child was submitted for the latest attempt, or for one that has not completed. -/
def SubmittedFor (state : PipelineRunState) (child : ChildJobRef) : Prop :=
  ∃ (k : ℕ) (a : StageAttempt), (state.stageAttempts child.stageId)[k]? = some a ∧
    a.idempotencyKey = child.idempotencyKey ∧
    (k + 1 = (state.stageAttempts child.stageId).length ∨ a.status = .failed ∨ a.status = .running)

/-- What is recorded as the result of a COMPLETED attempt is the result of a child that was
submitted for this attempt or for one that has not completed, and it was not recorded before. -/
def RecordsOwn (coordinator : PipelineCoordinator) (runId : String) (h : List (Event World Cmd)) :
    Prop :=
  ∀ earlier e later, h = earlier ++ e :: later → ∀ stageId result state,
    e.cmd = .hset (.recorded stageId result) state → state.runId = runId →
    isLeaf coordinator state stageId = true → state.latestStageStatus stageId = some .completed →
    ∃ child ∈ state.childJobs, child.stageId = stageId ∧
      lastPolled e.before = some child.childJobId ∧ SubmittedFor state child ∧
      child.childJobId ∉ recordedChildren coordinator runId earlier

/-- A child whose result was recorded is not polled as completed again. -/
def PollsOpen (coordinator : PipelineCoordinator) (providers : Providers) (runId : String)
    (earlier : List (Event World Cmd)) (e : Event World Cmd) : Bool :=
  match e.cmd with
  | .leafPoll childJobId =>
    match providers.leafPoll e.before.calls childJobId with
    | .ok poll =>
      poll.status != .completed ||
        !(recordedChildren coordinator runId earlier).contains childJobId
    | .error _ => true
  | _ => true

/-- Every poll of the run is such. -/
def Deployment.PollsOnce (d : Deployment) (runId : String) (h : List (Event World Cmd)) : Prop :=
  ∀ n < h.length, ∀ e ∈ h[n]?, PollsOpen d.coordinator d.providers runId (h.take n) e = true

instance (d : Deployment) (runId : String) (h : List (Event World Cmd)) :
    Decidable (d.PollsOnce runId h) :=
  inferInstanceAs (Decidable (∀ n < h.length, ∀ e ∈ h[n]?,
    PollsOpen d.coordinator d.providers runId (h.take n) e = true))

variable {e : Event World Cmd}

theorem Deployment.PollsOnce.open {d : Deployment} {runId : String}
    {h earlier later : List (Event World Cmd)} (hpolls : d.PollsOnce runId h)
    (hsplit : h = earlier ++ e :: later) :
    PollsOpen d.coordinator d.providers runId earlier e = true := by
  subst hsplit
  have hopen := hpolls earlier.length (by simp) e (by simp)
  rwa [take_left] at hopen

theorem recordedChild_of_not_recorded {coordinator : PipelineCoordinator} {runId : String}
    (h : ∀ stageId result state, e.cmd ≠ .hset (.recorded stageId result) state) :
    recordedChild coordinator runId e = none := by
  obtain ⟨cmd, w⟩ := e
  cases cmd with
  | hset point state =>
    cases point with
    | recorded stageId result => exact absurd rfl (h stageId result state)
    | _ => rfl
  | _ => rfl

theorem recordedChildren_concat (coordinator : PipelineCoordinator) (runId : String)
    (h : List (Event World Cmd)) (e : Event World Cmd) :
    recordedChildren coordinator runId (h ++ [e]) =
      recordedChildren coordinator runId h ++ (recordedChild coordinator runId e).toList := by
  unfold recordedChildren
  rw [filterMap_append]
  cases hrecorded : recordedChild coordinator runId e <;> simp [hrecorded]

variable {providers : Providers} {own : ChildJobRef} {childJobId : String} {stage : Stage} {c : Cmd}

/-- Only a poll that is answered changes which child was polled last. -/
theorem lastPolled_exec {w : World} (h : ∀ childJobId poll, c = .leafPoll childJobId →
      providers.leafPoll w.calls childJobId ≠ .ok poll) :
    lastPolled (exec providers c w).2 = lastPolled w := by
  unfold lastPolled
  rw [exec_calls, filterMap_append]
  cases c with
  | leafPoll childJobId =>
    cases hanswer : providers.leafPoll w.calls childJobId with
    | ok poll => exact absurd hanswer (h childJobId poll rfl)
    | error e => simp [Cmd.providerCall, hanswer]
  | _ => simp [Cmd.providerCall]

theorem lastPolled_leafPoll {w : World} {poll : LeafPoll}
    (h : providers.leafPoll w.calls childJobId = .ok poll) :
    lastPolled (exec providers (.leafPoll childJobId) w).2 = some childJobId := by
  unfold lastPolled
  rw [exec_calls]
  simp [Cmd.providerCall, h, filterMap_append]

theorem note_polled {l : Local} {w : World} {status : ChildStatus}
    (hsave : ∀ point state, c ≠ .hset point state)
    (h : (l.note c (exec providers c w).1).polled = some (childJobId, status)) :
    (l.polled = some (childJobId, status) ∧ ∀ other poll, c = .leafPoll other →
        providers.leafPoll w.calls other ≠ .ok poll) ∨
      ∃ poll, c = .leafPoll childJobId ∧ providers.leafPoll w.calls childJobId = .ok poll ∧
        poll.status = status := by
  by_cases hpoll : ∃ other, c = .leafPoll other
  · obtain ⟨other, rfl⟩ := hpoll
    cases hanswer : providers.leafPoll w.calls other with
    | error e =>
      simp only [exec, hanswer, Local.note] at h
      refine Or.inl ⟨h, fun found poll hfound => ?_⟩
      cases hfound
      rw [hanswer]
      simp only [ne_eq, reduceCtorEq, not_false_eq_true]
    | ok poll =>
      simp only [exec, hanswer, Local.note, some.injEq, Prod.mk.injEq] at h
      obtain ⟨rfl, rfl⟩ := h
      exact Or.inr ⟨poll, rfl, hanswer, rfl⟩
  · have hother : ∀ other poll, c = .leafPoll other →
        providers.leafPoll w.calls other ≠ .ok poll :=
      fun other _ hcmd => absurd ⟨other, hcmd⟩ hpoll
    generalize (exec providers c w).1 = r at h
    have hnoted := noted (l := l) hsave r
    generalize l.note c r = l' at hnoted h
    cases hnoted with
    | load runId state => cases h
    | polled other status => exact absurd ⟨other, rfl⟩ hpoll
    | _ => exact Or.inl ⟨h, hother⟩

/-! ## The invariant -/

/-- A child that is not cancelled was submitted for an attempt of a leaf stage; if that attempt
has completed, the result was that of the child. -/
structure Owned (coordinator : PipelineCoordinator) (runId : String) (h : List (Event World Cmd))
    (state : PipelineRunState) (child : ChildJobRef) : Prop where
  kept : child.cancelled = false
  leaf : isLeaf coordinator state child.stageId = true
  attempt : ∃ (k : ℕ) (a : StageAttempt), (state.stageAttempts child.stageId)[k]? = some a ∧
    a.idempotencyKey = child.idempotencyKey ∧
    (a.status = .completed → child.childJobId ∈ recordedChildren coordinator runId h)

def UniqueChildren (state : PipelineRunState) : Prop :=
  ∀ (i j : ℕ) (child other : ChildJobRef),
    state.childJobs[i]? = some child → state.childJobs[j]? = some other →
    child.stageId = other.stageId → child.idempotencyKey = other.idempotencyKey → i = j

structure ChildrenKept (coordinator : PipelineCoordinator) (runId : String)
    (h : List (Event World Cmd)) (w : World) (state : PipelineRunState) (holder : Option Local) :
    Prop where
  runId_eq : state.runId = runId
  held : ∀ l, holder = some l → l.base = some state
  numbered : Numbered coordinator state
  polled : ∀ l childJobId status, holder = some l → l.polled = some (childJobId, status) →
    lastPolled w = some childJobId ∧
      (status = .completed → childJobId ∉ recordedChildren coordinator runId h)
  owned : state.status = .running → ∀ child ∈ state.childJobs,
    Owned coordinator runId h state child
  unique : state.status = .running → UniqueChildren state
  records : RecordsOwn coordinator runId h

section Saves

variable {coordinator : PipelineCoordinator} {runId : String} {h : List (Event World Cmd)}
  {w : World} {l : Local} {base state : PipelineRunState} {point : SavePoint}

theorem isLeaf_of_currentStage (hcurrent : base.currentStage = some stage) :
    isLeaf coordinator base stage.id = true ↔ coordinator.authority stage = .ok .leaf := by
  unfold currentStage at hcurrent
  obtain ⟨id, -, hfound⟩ := bind_eq_some_iff.mp hcurrent
  have hstage := CompiledPipeline.stage?_of_mem (CompiledPipeline.mem_of_stage? hfound).1
  unfold isLeaf
  rw [hstage, any_some]
  split <;> simp_all

/-- What a save does to the children. -/
inductive ChildrenSaved (coordinator : PipelineCoordinator) (l : Local) (base : PipelineRunState)
    (point : SavePoint) (state : PipelineRunState) : Prop where
  | same (children : state.childJobs = base.childJobs) (unrecorded : point ≠ .childAccepted)
  | polled {stage : Stage} {a : StageAttempt} {copy : PipelineRunState} {i : ℕ}
      {child : ChildJobRef} {status : ChildStatus} (chosen : Chosen copy stage a i child)
      (copied : copy.childJobs = base.childJobs)
      (polled : l.polled = some (child.childJobId, status)) (point_eq : point = .childPolled)
      (children : state.childJobs = base.childJobs.modify i fun child =>
        { child with status := status })
  | accepted {stage : Stage} {a : StageAttempt} {copy : PipelineRunState} {childJobId : String}
      (executing : Executing coordinator base stage a copy) (point_eq : point = .childAccepted)
      (leaf : coordinator.authority stage = .ok .leaf)
      (first : copy.childOfAttempt stage.id a.idempotencyKey = none)
      (accepted : l.accepted = some childJobId)
      (attempts : state.stageAttempts = copy.stageAttempts)
      (children : state.childJobs = base.childJobs ++ [{
        childJobId := childJobId
        stageId := stage.id
        idempotencyKey := a.idempotencyKey }])
  | stopped (ended : state.status ≠ .running) (point_eq : point = .terminal)
      (children : List.Forall₂ (ChildStops l.stopped) base.childJobs state.childJobs)

/-- What a save makes of the list of children. -/
theorem Saves.children (h : Saves coordinator l base point state) :
    ChildrenSaved coordinator l base point state := by
  have hcopy : ∀ {stage a copy}, Executing coordinator base stage a copy →
      copy.childJobs = base.childJobs := by
    intro stage a copy hexecuting
    rw [hexecuting.copy_eq]
    rfl
  have hended : ∀ (ended : PipelineRunState) code reason,
      (ended.terminal code reason).status ≠ .running ∧
        (ended.terminal code reason).childJobs = ended.childJobs := by
    intro ended code reason
    obtain ⟨artifact, text, heq⟩ := terminal_eq ended code reason
    rw [heq]
    refine ⟨?_, rfl⟩
    cases code <;> exact nofun
  cases h with
  | @childAccepted stage a copy childJobId executing settled leaf first accepted =>
    refine .accepted executing rfl leaf first accepted rfl ?_
    rw [hcopy executing]
  | @childPolled stage a copy i child status executing settled leaf chosen polled =>
    refine .polled chosen (hcopy executing) polled rfl ?_
    rw [← hcopy executing]
    rfl
  | @handleSaved stage a copy handle executing settled =>
    have hsame : copy.childJobs = base.childJobs := hcopy executing
    exact .same hsame (fun heq => by cases heq)
  | inFlight executing _ => exact .same (hcopy executing) (fun heq => by cases heq)
  | @recorded stage a copy result output artifact executing _ _ _ _ =>
    have hsame : copy.childJobs = base.childJobs := hcopy executing
    rw [recordedState_eq]
    exact .same hsame (fun heq => by cases heq)
  | finished | exhausted | failed => exact .same (hended _ _ _).2 (fun heq => by cases heq)
  | @cascaded children stopped code reason running intended uncancelled children_eq _ _ =>
    obtain ⟨hover, hchildren⟩ := hended (Coordinator.cascaded base children stopped) code reason
    refine .stopped hover rfl ?_
    rw [hchildren]
    exact children_eq
  | _ => exact .same rfl (fun heq => by cases heq)

variable {child : ChildJobRef} {stageId : String} {result : StageResult} {copy : PipelineRunState}

/-- A command that leaves the state. -/
theorem Owned.concat (howned : Owned coordinator runId h state child) (e : Event World Cmd) :
    Owned coordinator runId (h ++ [e]) state child := by
  obtain ⟨hkept, hleaf, k, a, hget, hkey, hcompleted⟩ := howned
  refine ⟨hkept, hleaf, k, a, hget, hkey, fun hstatus => ?_⟩
  rw [recordedChildren_concat]
  exact mem_append_left _ (hcompleted hstatus)

/-- If the save completes the attempt that the child was submitted for, its result is recorded. -/
def GivesResult (coordinator : PipelineCoordinator) (runId : String) (h : List (Event World Cmd))
    (base : PipelineRunState) (point : SavePoint) (child : ChildJobRef) : Prop :=
  ∀ k a stage result, (base.stageAttempts child.stageId)[k]? = some a →
    a.idempotencyKey = child.idempotencyKey → point = .recorded stage.id result →
    base.currentStage = some stage → child.stageId = stage.id →
    k + 1 = (base.stageAttempts child.stageId).length → validatedStatus result = .completed →
    child.childJobId ∈ recordedChildren coordinator runId h

theorem Owned.carry {child' : ChildJobRef}
    (howned : Owned coordinator runId h base child) (hnumbered : Numbered coordinator base)
    (hsaves : Saves coordinator l base point state) (hid : child'.childJobId = child.childJobId)
    (hstage : child'.stageId = child.stageId) (hkey : child'.idempotencyKey = child.idempotencyKey)
    (hkept : child'.cancelled = child.cancelled)
    (hrecorded : GivesResult coordinator runId (h ++ [e]) base point child) :
    Owned coordinator runId (h ++ [e]) state child' := by
  refine ⟨hkept.trans howned.kept, ?_, ?_⟩
  · rw [hstage]
    unfold isLeaf
    rw [hsaves.compiledPipeline_eq]
    exact howned.leaf
  · obtain ⟨k, a, hget, hkeyed, hcompleted⟩ := howned.attempt
    obtain ⟨a', hget', hstatus⟩ := hsaves.attempt_kept hget
    rw [hstage, hid, hkey]
    refine ⟨k, a', hget', ?_, fun hcompleted' => ?_⟩
    · rw [← hkeyed, (hnumbered _ k a hget).2.1, (hsaves.numbered hnumbered _ k a' hget').2.1,
        hsaves.runId_eq]
    · rcases hstatus with hsame | ⟨stage, result, hpoint, hcurrent, hid', hlast, -, hstatus⟩
      · rw [recordedChildren_concat]
        exact mem_append_left _ (hcompleted (hsame ▸ hcompleted'))
      refine hrecorded k a stage result hget hkeyed hpoint hcurrent hid' hlast ?_
      by_contra hnot
      rw [hstatus, if_neg hnot] at hcompleted'
      cases hcompleted'

theorem Saves.recorded_source (h : Saves coordinator l base (.recorded stageId result) state) :
    ∃ stage a copy, Executing coordinator base stage a copy ∧ stageId = stage.id ∧
      Sourced coordinator l copy stage a result ∧ copy.childJobs = base.childJobs ∧
      state.childJobs = base.childJobs ∧ state.status = .running := by
  cases h with
  | @recorded stage a copy _ output artifact executing settled closed source published =>
    have hchildren : copy.childJobs = base.childJobs := by
      rw [executing.copy_eq]
      rfl
    refine ⟨stage, a, copy, executing, rfl, source, hchildren, ?_, ?_⟩
    · rw [recordedState_eq]
      exact hchildren
    · rw [recordedState_eq]
      exact executing.copy_live.running

/-- The child that was submitted for the attempt is the one that is used. -/
theorem Chosen.eq_of_key {i j : ℕ}
    (hchosen : Chosen copy stage a i child) (hunique : UniqueChildren copy)
    (hown : copy.childJobs[j]? = some own) (hstage : own.stageId = stage.id)
    (hkey : own.idempotencyKey = a.idempotencyKey) (hkept : own.cancelled = false) :
    own = child := by
  have hpair : (own, j) ∈ copy.childJobs.zipIdx.reverse := by
    rw [mem_reverse]
    exact mem_zipIdx_iff_getElem?.mpr hown
  cases hfound : copy.childOfAttempt stage.id a.idempotencyKey with
  | none =>
    have hnone := find?_eq_none.mp hfound (own, j) hpair
    simp [hstage, hkey, hkept] at hnone
  | some found =>
    obtain ⟨other, k⟩ := found
    have hmem := mem_of_find?_eq_some hfound
    rw [mem_reverse] at hmem
    have hget : copy.childJobs[k]? = some other := mem_zipIdx_iff_getElem?.mp hmem
    have hother := find?_some hfound
    simp only [Bool.and_eq_true, beq_iff_eq] at hother
    obtain rfl : k = i := hchosen.own other k hfound
    obtain rfl : j = k := hunique j k own other hown hget (hstage.trans hother.1.1.symm)
      (hkey.trans hother.1.2.symm)
    exact some.inj (hown.symm.trans hchosen.found)

/-- A key under which no child is found is that of no child. -/
theorem not_child_of_attempt {key : String} (h : copy.childOfAttempt stageId key = none) {j : ℕ}
    (hown : copy.childJobs[j]? = some own) (hkept : own.cancelled = false) :
    ¬ (own.stageId = stageId ∧ own.idempotencyKey = key) := by
  rintro ⟨hstage, hkey⟩
  have hpair : (own, j) ∈ copy.childJobs.zipIdx.reverse := by
    rw [mem_reverse]
    exact mem_zipIdx_iff_getElem?.mpr hown
  have hnone := find?_eq_none.mp h (own, j) hpair
  simp [hstage, hkey, hkept] at hnone

theorem RecordsOwn.concat (hrecords : RecordsOwn coordinator runId h)
    (hlast : ∀ stageId result state, e.cmd = .hset (.recorded stageId result) state →
      state.runId = runId → isLeaf coordinator state stageId = true →
      state.latestStageStatus stageId = some .completed →
      ∃ child ∈ state.childJobs, child.stageId = stageId ∧
        lastPolled e.before = some child.childJobId ∧ SubmittedFor state child ∧
        child.childJobId ∉ recordedChildren coordinator runId h) :
    RecordsOwn coordinator runId (h ++ [e]) :=
  forall_split_concat hrecords hlast

/-- A save of a running run keeps one child for every attempt. -/
theorem UniqueChildren.save (hunique : UniqueChildren base)
    (howned : ∀ child ∈ base.childJobs, child.cancelled = false)
    (hsaves : Saves coordinator l base point state) (hrunning : state.status = .running) :
    UniqueChildren state := by
  unfold UniqueChildren
  cases hsaves.children with
  | stopped ended => exact absurd hrunning ended
  | same hsame =>
    rw [hsame]
    exact hunique
  | polled chosen copied polled point_eq hmodified =>
    rw [hmodified]
    intro i j child other hchild hother hstage hkey
    rw [getElem?_modify] at hchild hother
    obtain ⟨child', hchild', rfl⟩ := map_eq_some_iff.mp hchild
    obtain ⟨other', hother', rfl⟩ := map_eq_some_iff.mp hother
    refine hunique i j child' other' hchild' hother' ?_ ?_
    · split_ifs at hstage <;> exact hstage
    · split_ifs at hkey <;> exact hkey
  | @accepted stage a copy childJobId hexecuting _ _ hfirst _ _ happended =>
    have hchildren : copy.childJobs = base.childJobs := by
      rw [hexecuting.copy_eq]
      rfl
    -- The new child is the only one under its key.
    have hnew : ∀ (n : ℕ) (own : ChildJobRef), base.childJobs[n]? = some own →
        own.stageId = stage.id → own.idempotencyKey ≠ a.idempotencyKey := by
      intro n own hown hstage hkey
      refine not_child_of_attempt hfirst (j := n) ?_ ?_ ⟨hstage, hkey⟩
      · rw [hchildren]
        exact hown
      · exact howned own (mem_of_getElem? hown)
    rw [happended]
    intro i j child other hchild hother hstage hkey
    rcases lt_trichotomy i base.childJobs.length with hi | rfl | hi
    · rw [getElem?_append_left hi] at hchild
      rcases lt_trichotomy j base.childJobs.length with hj | rfl | hj
      · rw [getElem?_append_left hj] at hother
        exact hunique i j child other hchild hother hstage hkey
      · rw [getElem?_concat_length] at hother
        obtain rfl := some.inj hother
        exact absurd hkey (hnew i child hchild hstage)
      · rw [getElem?_eq_none (by simp; omega)] at hother
        cases hother
    · rw [getElem?_concat_length] at hchild
      obtain rfl := some.inj hchild
      rcases lt_trichotomy j base.childJobs.length with hj | rfl | hj
      · rw [getElem?_append_left hj] at hother
        exact absurd hkey.symm (hnew j other hother hstage.symm)
      · rfl
      · rw [getElem?_eq_none (by simp; omega)] at hother
        cases hother
    · rw [getElem?_eq_none (by simp; omega)] at hchild
      cases hchild

/-- The result of a COMPLETED attempt of a leaf stage is that of a child that was polled. -/
theorem ChildrenKept.chosen (hK : ChildrenKept coordinator runId h w base (some l))
    (hsaves : Saves coordinator l base (.recorded stageId result) state)
    (hleaf : isLeaf coordinator base stageId = true)
    (hcompleted : validatedStatus result = .completed) :
    ∃ stage a copy i child, Executing coordinator base stage a copy ∧ stageId = stage.id ∧
      copy.childJobs = base.childJobs ∧ Chosen copy stage a i child ∧
      lastPolled w = some child.childJobId ∧
      child.childJobId ∉ recordedChildren coordinator runId h := by
  obtain ⟨stage, a, copy, hexecuting, rfl, hsource, hchildren, -, -⟩ := hsaves.recorded_source
  have hauthority := (isLeaf_of_currentStage hexecuting.current).mp hleaf
  have hstatus : result.status = .completed := by
    unfold validatedStatus at hcompleted
    split at hcompleted
    · exact hcompleted
    split at hcompleted
    · exact hcompleted
    · cases hcompleted
  obtain ⟨-, i, child, hchosen, hpolled⟩ := hsource hauthority hstatus
  obtain ⟨hlast, hfresh⟩ := hK.polled l _ _ rfl hpolled
  exact ⟨stage, a, copy, i, child, hexecuting, rfl, hchildren, hchosen, hlast, hfresh rfl⟩

/-- The status of a stage whose result is recorded. -/
theorem Saves.recorded_status (hsaves : Saves coordinator l base (.recorded stageId result) state) :
    state.latestStageStatus stageId =
      some (if validatedStatus result = .completed then .completed else .failed) := by
  cases hsaves with
  | @recorded stage a copy _ output artifact executing settled closed source published =>
    rw [recordedState_eq]
    simp [latestStageStatus, latestAttempt,
      recordedAttempt_status]

/-- A result that is recorded is that of a child of this attempt, or of one that was given up. -/
theorem ChildrenKept.recorded_own (hK : ChildrenKept coordinator runId h w base (some l))
    (hsaves : Saves coordinator l base (.recorded stageId result) state)
    (hleaf : isLeaf coordinator state stageId = true)
    (hcompleted : state.latestStageStatus stageId = some .completed) :
    ∃ child ∈ state.childJobs, child.stageId = stageId ∧
      lastPolled w = some child.childJobId ∧ SubmittedFor state child ∧
      child.childJobId ∉ recordedChildren coordinator runId h := by
  have hvalid : validatedStatus result = .completed := by
    by_contra hnot
    rw [hsaves.recorded_status, if_neg hnot] at hcompleted
    cases hcompleted
  have hleafBase : isLeaf coordinator base stageId = true := by
    unfold isLeaf at hleaf ⊢
    rwa [hsaves.compiledPipeline_eq] at hleaf
  obtain ⟨stage, a, copy, i, child, hexecuting, rfl, hchildren, hchosen, hlast, hfresh⟩ :=
    hK.chosen hsaves hleafBase hvalid
  obtain ⟨-, -, -, -, -, -, -, hsame, -⟩ := hsaves.recorded_source
  have hmem : child ∈ base.childJobs := hchildren ▸ mem_of_getElem? hchosen.found
  obtain ⟨k, b, hget, hkey, hrecorded⟩ :=
    (hK.owned hsaves.base_running child hmem).attempt
  refine ⟨child, hsame ▸ hmem, hchosen.sameStage, hlast, ?_, hfresh⟩
  obtain ⟨b', hget', hstatus⟩ := hsaves.attempt_kept hget
  have hkey' : b'.idempotencyKey = child.idempotencyKey := by
    rw [← hkey, (hK.numbered _ k b hget).2.1, (hsaves.numbered hK.numbered _ k b' hget').2.1,
      hsaves.runId_eq]
  refine ⟨k, b', hget', hkey', ?_⟩
  rcases hstatus with hstatus | ⟨_, _, _, _, _, hlatest, _, _⟩
  · rcases (hK.numbered _ k b hget).2.2 with hrunning | hcompleted' | hfailed
    · exact Or.inr (Or.inr (hstatus.trans hrunning))
    · exact absurd (hrecorded hcompleted') hfresh
    · exact Or.inr (Or.inl (hstatus.trans hfailed))
  · left
    rw [hlatest]
    rcases hsaves.stageAttempts_cases with hattempts | ⟨_, _, hpoint, _⟩ |
      ⟨other, _, written, hexecuted, hattempts⟩
    · rw [hattempts]
    · cases hpoint
    rw [hattempts]
    have hpos := (latestAttempt_getElem? hexecuted.latest).1
    obtain rfl : stage = other :=
      some.inj (hexecuting.current.symm.trans hexecuted.current)
    rw [hchosen.sameStage]
    simp only [setLatestAttempt, update_self, length_append,
      length_dropLast, length_singleton]
    omega

/-- A save keeps the children of a run their attempts' own, and one child for each key. -/
theorem ChildrenKept.save (hK : ChildrenKept coordinator runId h w base (some l))
    (hsaves : Saves coordinator l base point state) (w' : World) (hcalls : w'.calls = w.calls) :
    ChildrenKept coordinator runId (h ++ [⟨.hset point state, w⟩]) w' state
      (some (l.saved point state)) := by
  have hrunning := hsaves.base_running
  have hpolled : lastPolled w' = lastPolled w := by
    unfold lastPolled
    rw [hcalls]
  -- What was given to a child is what its attempt is recorded with.
  have hrecorded : ∀ child ∈ base.childJobs,
      GivesResult coordinator runId (h ++ [⟨.hset point state, w⟩]) base point child := by
    intro child hmem k a stage result hget hkey hpoint hcurrent hstage hlast hvalid
    subst hpoint
    have howned := hK.owned hrunning child hmem
    have hleaf : isLeaf coordinator base stage.id = true := hstage ▸ howned.leaf
    obtain ⟨other, b, copy, i, chosen, hexecuting, hid, hchildren, hchosen, hpolled, -⟩ :=
      hK.chosen hsaves hleaf hvalid
    obtain rfl : stage = other := some.inj (hcurrent.symm.trans hexecuting.current)
    obtain ⟨j, hj⟩ := mem_iff_getElem?.mp hmem
    have hkeyed : child.idempotencyKey = b.idempotencyKey := by
      obtain ⟨running, hlatest, -, rfl⟩ := hexecuting.latest
      rw [← hkey, (hK.numbered _ k a hget).2.1, hK.numbered.resumed_key hlatest, hlast, hstage]
    have hsame : child = chosen := by
      refine hchosen.eq_of_key ?_ (j := j) ?_ hstage hkeyed howned.kept
      · unfold UniqueChildren
        rw [hchildren]
        exact hK.unique hrunning
      · rw [hchildren]
        exact hj
    have hleaf' : isLeaf coordinator state stage.id = true := by
      unfold isLeaf at hleaf ⊢
      rwa [hsaves.compiledPipeline_eq]
    rw [recordedChildren_concat]
    refine mem_append_right _ ?_
    simp [recordedChild, hsaves.runId_eq, hK.runId_eq, hleaf', hsaves.recorded_status, hvalid,
      hpolled, hsame]
  refine ⟨hsaves.runId_eq.trans hK.runId_eq, fun l' hl' => ?_, hsaves.numbered hK.numbered,
    fun l' childJobId status hl' hnoted => ?_, fun hopen child hmem => ?_,
    fun hopen => ?_, hK.records.concat fun stageId result written hcmd _ hleaf hcompleted => ?_⟩
  · obtain rfl := some.inj hl'
    rfl
  · -- Only the save of a poll keeps what was polled.
    obtain rfl := some.inj hl'
    cases point with
    | childPolled =>
      obtain ⟨hlast, hfresh⟩ := hK.polled l childJobId status rfl hnoted
      rw [hpolled, recordedChildren_concat]
      exact ⟨hlast, fun hcompleted => by simpa [recordedChild] using hfresh hcompleted⟩
    | _ => cases hnoted
  · cases hsaves.children with
    | stopped ended => exact absurd hopen ended
    | same hsame =>
      rw [hsame] at hmem
      exact (hK.owned hrunning child hmem).carry hK.numbered hsaves rfl rfl rfl rfl
        (hrecorded child hmem)
    | polled _ _ _ _ hmodified =>
      rw [hmodified] at hmem
      obtain ⟨i, hi⟩ := mem_iff_getElem?.mp hmem
      rw [getElem?_modify] at hi
      obtain ⟨before, hbefore, rfl⟩ := map_eq_some_iff.mp hi
      have hmem' := mem_of_getElem? hbefore
      refine (hK.owned hrunning before hmem').carry hK.numbered hsaves ?_ ?_ ?_ ?_
        (hrecorded before hmem')
      · split_ifs <;> rfl
      · split_ifs <;> rfl
      · split_ifs <;> rfl
      · split_ifs <;> rfl
    | @accepted stage a copy childJobId hexecuting _ hleaf _ _ hattempts happended =>
      rw [happended] at hmem
      rcases mem_append.mp hmem with hmem | hmem
      · exact (hK.owned hrunning child hmem).carry hK.numbered hsaves rfl rfl rfl rfl
          (hrecorded child hmem)
      obtain rfl := mem_singleton.mp hmem
      have hcopy : copy.latestAttempt stage.id = some a := by
        rw [hexecuting.copy_eq]
        exact latestAttempt_setLatestAttempt base stage.id a
      have hget := (latestAttempt_getElem? hcopy).2
      rw [← hattempts] at hget
      refine ⟨rfl, ?_, ?_⟩
      · unfold isLeaf
        rw [hsaves.compiledPipeline_eq]
        exact (isLeaf_of_currentStage hexecuting.current).mpr hleaf
      · refine ⟨_, a, hget, rfl, fun hcompleted => ?_⟩
        rw [hexecuting.status_eq] at hcompleted
        cases hcompleted
  · exact (hK.unique hrunning).save (fun child hmem => (hK.owned hrunning child hmem).kept) hsaves
      hopen
  · obtain ⟨rfl, rfl⟩ := Cmd.hset.inj hcmd
    exact hK.recorded_own hsaves hleaf hcompleted

end Saves

namespace Deployment

variable {d : Deployment} {runId : String}

theorem keptBy_children {processes : List (Process CoordinatorOp)}
    (hpolls : d.PollsOnce runId (d.serialHistory processes)) :
    KeptBy d runId (fun _ _ => True) (d.serialHistory processes)
      (ChildrenKept d.coordinator runId) where
  create h w later w' pipeline requestParams _ hforeign _ _ := by
    refine ⟨rfl, fun _ hl => (by cases hl), fun _ _ _ hget => (by cases hget),
      fun _ _ _ hl => (by cases hl), fun _ _ hmem => (by cases hmem),
      fun _ _ _ _ _ hget => (by cases hget), ?_⟩
    intro earlier e later hsplit stageId result state hcmd hrun
    have hmem : e ∈ h ++ [⟨.evalSubmitParent (initialState runId pipeline requestParams), w⟩] :=
      hsplit ▸ mem_append_right _ mem_cons_self
    rcases mem_append.mp hmem with hmem | hmem
    · have hother := hforeign e hmem
      rw [hcmd] at hother
      exact absurd hrun hother
    · rw [mem_singleton.mp hmem] at hcmd
      cases hcmd
  load h w state l hK := by
    refine ⟨hK.runId_eq, fun l' hl' => ?_, hK.numbered, fun l' childJobId status hl' hpolled => ?_,
      fun hrunning child hmem => ?_, hK.unique, hK.records.concat fun _ _ _ hcmd => (by cases hcmd)⟩
    · obtain rfl := some.inj hl'
      rfl
    · obtain rfl := some.inj hl'
      cases hpolled
    · exact (hK.owned hrunning child hmem).concat _
  other h e state hK hforeign := by
    refine ⟨hK.runId_eq, hK.held, hK.numbered, fun _ _ _ hl => (by cases hl),
      fun hrunning child hmem => ?_, hK.unique, hK.records.concat fun stageId result written hcmd => ?_⟩
    · exact (hK.owned hrunning child hmem).concat _
    · intro hrun
      rw [hcmd] at hforeign
      exact absurd hrun hforeign
  own h e later state l hsplit hK hbase _ _ hsave hkeep _ := by
    have hnone : recordedChild d.coordinator runId e = none :=
      recordedChild_of_not_recorded fun stageId result written => hsave _ written
    have hsame : recordedChildren d.coordinator runId (h ++ [e]) =
        recordedChildren d.coordinator runId h := by
      rw [recordedChildren_concat, hnone]
      exact append_nil _
    refine ⟨hK.runId_eq, fun l' hl' => ?_, hK.numbered, fun l' childJobId status hl' hpolled => ?_,
      fun hrunning child hmem => ?_, hK.unique,
      hK.records.concat fun stageId result written hcmd => absurd hcmd (hsave _ written)⟩
    · obtain rfl := some.inj hl'
      exact hkeep.trans hbase
    · obtain rfl := some.inj hl'
      rw [hsame]
      rcases note_polled hsave hpolled with ⟨hold, hquiet⟩ | ⟨poll, hcmd, hanswer, rfl⟩
      · rw [lastPolled_exec hquiet]
        exact hK.polled l childJobId status rfl hold
      obtain ⟨cmd, before⟩ := e
      obtain rfl : cmd = _ := hcmd
      refine ⟨lastPolled_leafPoll hanswer, fun hcompleted => ?_⟩
      have hopen := hpolls.open hsplit
      simpa [PollsOpen, hanswer, hcompleted] using hopen
    · exact (hK.owned hrunning child hmem).concat _
  save h w later base l point state _ hK _ _ hsaves := hK.save hsaves _ rfl
  forget h w state l hK _ :=
    ⟨hK.runId_eq, fun _ hl => (by cases hl), hK.numbered, fun _ _ _ hl => (by cases hl), hK.owned,
      hK.unique, hK.records⟩

/-- **Every attempt has its own child.**  As long as no child is polled as completed once its
result was recorded, what is recorded as the result of a COMPLETED attempt of a leaf stage is the
result of a child of this attempt or of one that has not completed, and is recorded only once. -/
theorem recordsOwn_of_pollsOnce {runId : String} {processes : List (Process CoordinatorOp)}
    (hpolls : d.PollsOnce runId (d.serialHistory processes)) :
    RecordsOwn d.coordinator runId (d.serialHistory processes) := by
  have hkept := keptBy_children hpolls
  have hstops : d.StopsAt (fun _ _ => True) processes :=
    stopsWhere_of_forall (exec d.providers) d.program (fun _ _ => trivial) _ processes
  cases hstate : (d.serialStore processes).states runId with
  | none =>
    have hforeign := foreign_of_absent hkept hstops hstate
    intro earlier e later hsplit stageId result state hcmd hrun
    have hother := hforeign e (hsplit ▸ mem_append_right _ mem_cons_self)
    rw [hcmd] at hother
    exact absurd hrun hother
  | some state => exact (serial_induction hkept hstops hstate).records

/-! ## A generation that is repeated -/

def advanced (pipeline : CompiledPipeline) (n : ℕ) : List (Process CoordinatorOp) :=
  ⟨.submitParent "run" pipeline [], 10⟩ :: List.replicate n ⟨.advanceOnce "now" "run", 40⟩

/-- The plan, in which a generation that fails is tried once more. -/
def retried : CompiledPipeline where
  stages := { id := "generate", kind := .generate, retries := some 1 } :: reviewed.stages.tail
  loops := reviewed.loops
  maxLoopCount := 1
  ids_nodup := reviewed.ids_nodup

/-- The verdicts and the leaf jobs of the review, but the first poll finds its job failed; the job
is run again, and the next poll finds it completed. -/
def recovering : Deployment where
  coordinator := (reviewing fun n => 0 < n).coordinator
  providers :=
    { (reviewing fun n => 0 < n).providers with
      leafPoll := fun calls childJobId =>
        if calls.any fun | .leafPoll .. => true | _ => false then
          (reviewing fun n => 0 < n).providers.leafPoll calls childJobId
        else .ok { status := .failed } }

/-- The second attempt of the generation is given the child of the first, which failed; after the
correction only the quality control is repeated. -/
theorem recordsOwn_recovered :
    ((recovering.serialStore (advanced retried 5)).states "run").map (fun state =>
        (state.status, (state.stageAttempts "generate").map (·.status), state.childJobs.length)) =
        some (.completed, [.failed, .completed], 1) ∧
      RecordsOwn recovering.coordinator "run" (recovering.serialHistory (advanced retried 5)) := by
  have hpolls : recovering.PollsOnce "run" (recovering.serialHistory (advanced retried 5)) := by
    decide +kernel
  exact ⟨by decide +kernel, recordsOwn_of_pollsOnce hpolls⟩

/-- A correction after which the generation is repeated as well. -/
def regenerated : CompiledPipeline where
  stages := reviewed.stages
  loops := [⟨"loop", "qc", "correct", ["generate", "qc"], 1⟩]
  maxLoopCount := 1
  ids_nodup := reviewed.ids_nodup

/-- The result of a child is recorded that was recorded before. -/
def recordsAgain (coordinator : PipelineCoordinator) (runId : String)
    (earlier : List (Event World Cmd)) (e : Event World Cmd) : Bool :=
  match e.cmd with
  | .hset (.recorded stageId _) state =>
    state.runId == runId && isLeaf coordinator state stageId &&
      state.latestStageStatus stageId == some .completed &&
      (lastPolled e.before).all (recordedChildren coordinator runId earlier).contains
  | _ => false

theorem not_recordsOwn_of_again {coordinator : PipelineCoordinator}
    {h : List (Event World Cmd)} {n : ℕ} (hget : h[n]? = some e)
    (hagain : recordsAgain coordinator runId (h.take n) e = true) :
    ¬ RecordsOwn coordinator runId h := by
  intro hrecords
  obtain ⟨hlt, rfl⟩ := List.getElem?_eq_some_iff.mp hget
  have hsplit : h = h.take n ++ h[n] :: h.drop (n + 1) := by
    rw [getElem_cons_drop, take_append_drop]
  unfold recordsAgain at hagain
  split at hagain
  · rename_i stageId result state hcmd
    simp only [Bool.and_eq_true, beq_iff_eq] at hagain
    obtain ⟨child, -, -, hlast, -, hfresh⟩ := hrecords _ _ _ hsplit stageId result state hcmd
      hagain.1.1.1 hagain.1.1.2 hagain.1.2
    rw [hlast] at hagain
    exact hfresh (by simpa using hagain.2)
  · cases hagain

/-- The repeated generation is given the result of the first one. -/
theorem not_recordsOwn_regenerated :
    ¬ RecordsOwn (reviewing fun n => 0 < n).coordinator "run"
        ((reviewing fun n => 0 < n).serialHistory (advanced regenerated 4)) := by
  generalize hhistory : (reviewing fun n => 0 < n).serialHistory (advanced regenerated 4) = history
  have hsome : ∃ n < history.length, (history[n]?).any
      (recordsAgain (reviewing fun n => 0 < n).coordinator "run" (history.take n)) = true := by
    rw [← hhistory]
    decide +kernel
  obtain ⟨n, hlt, hany⟩ := hsome
  rw [getElem?_eq_getElem hlt] at hany
  exact not_recordsOwn_of_again (getElem?_eq_getElem hlt) hany

end Deployment

end GpuManager.Coordinator
