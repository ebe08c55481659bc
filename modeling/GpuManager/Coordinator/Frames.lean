import GpuManager.Coordinator.Driving

/-!
# What `advance` touches

A call of `advance` writes the state of its own run, appends events and asks the providers; it
leaves the parent stream and the memory of the store alone.  Its last part, from the record of a
result on, does not even ask the providers, and changes neither attempts nor children.

The programs are read here by the commands they can issue and by what they can return, whatever
they are answered.
-/

namespace GpuManager.Coordinator

open AtomicProgram RedisCoordinatorStore PipelineCoordinator

/-- The commands of `advance` on a run: neither the parent stream nor the memory of the store is
touched, and only the state of the run is written. -/
def Touches (runId : String) : Cmd → Prop
  | .hset _ state => state.runId = runId
  | .evalSubmitParent _ | .xaddParent _ | .xreadgroup _ | .xack _ | .xpendingRange _ | .xrange _
  | .xclaim _ _ _ | .replaceParent _ _ | .getEntryId _ _ | .setEntryId _ _ _ | .popEntryId _ _
  | .elapse _ => False
  | _ => True

/-- What the answer to a recorded result keeps: whose state it is, and the attempts and children
in it. -/
structure Keeps (state next : PipelineRunState) : Prop where
  runId_eq : next.runId = state.runId
  stageAttempts_eq : next.stageAttempts = state.stageAttempts
  childJobs_eq : next.childJobs = state.childJobs

theorem Keeps.refl (state : PipelineRunState) : Keeps state state := ⟨rfl, rfl, rfl⟩

/-- The commands of the answer to the recorded result. -/
def Records (recorded : PipelineRunState) : Cmd → Prop
  | .hset _ state => Keeps recorded state
  | .xaddEvent _ _ => True
  | _ => False

variable {c : Cmd}

theorem Records.touches {recorded : PipelineRunState} (h : Records recorded c) :
    Touches recorded.runId c := by
  cases c with
  | hset point state => exact h.runId_eq
  | xaddEvent id event => trivial
  | _ => exact h.elim

/-- Only the state of the run, the events and the calls of the providers may differ; a state that
is stored stays stored. -/
structure Apart (runId : String) (w w' : World) : Prop where
  stream : w'.stream = w.stream
  delivered : w'.delivered = w.delivered
  pel : w'.pel = w.pel
  now : w'.now = w.now
  entryIds : w'.entryIds = w.entryIds
  states : ∀ key, key ≠ runId → w'.states key = w.states key
  kept : (w.states runId).isSome → (w'.states runId).isSome
  keyed : ∀ state, w'.states runId = some state → w.states runId = some state ∨ state.runId = runId

theorem Apart.refl (runId : String) (w : World) : Apart runId w w :=
  ⟨rfl, rfl, rfl, rfl, rfl, fun _ _ => rfl, id, fun _ h => Or.inl h⟩

theorem Apart.trans {runId : String} {w₁ w₂ w₃ : World} (h : Apart runId w₁ w₂)
    (h' : Apart runId w₂ w₃) : Apart runId w₁ w₃ where
  stream := h'.stream.trans h.stream
  delivered := h'.delivered.trans h.delivered
  pel := h'.pel.trans h.pel
  now := h'.now.trans h.now
  entryIds := h'.entryIds.trans h.entryIds
  states := fun key hkey => (h'.states key hkey).trans (h.states key hkey)
  kept := fun hsome => h'.kept (h.kept hsome)
  keyed := fun state hstate => by
    rcases h'.keyed state hstate with hstate | hrun
    · exact h.keyed state hstate
    · exact Or.inr hrun

variable {providers : Providers} {authority : Authority} {resuming : Bool} {w : World}

theorem apart_exec {runId : String} (h : Touches runId c)
    (w : World) : Apart runId w (exec providers c w).2 := by
  cases c with
  | hset point state =>
    obtain rfl : state.runId = runId := h
    refine ⟨rfl, rfl, rfl, rfl, rfl, fun key hkey => Function.update_of_ne hkey _ _, fun _ => ?_,
      fun other hother => ?_⟩
    · change (Function.update w.states state.runId (some state) state.runId).isSome
      rw [Function.update_self]
      rfl
    · change Function.update w.states state.runId (some state) state.runId = some other at hother
      rw [Function.update_self] at hother
      cases hother
      exact Or.inr rfl
  | evalSubmitParent _ | xaddParent _ | xreadgroup _ | xack _ | xpendingRange _ | xrange _
  | xclaim _ _ _ | replaceParent _ _ | getEntryId _ _ | setEntryId _ _ _ | popEntryId _ _
  | elapse _ =>
    exact h.elim
  | _ => exact ⟨rfl, rfl, rfl, rfl, rfl, fun _ _ => rfl, id, fun _ h => Or.inl h⟩

/-- The program issues only commands that satisfy `P`, and what it returns satisfies `R`. -/
def Within {α : Type} (P : Cmd → Prop) (R : α → Prop) (p : Method α) : Prop :=
  p.Obeys (Prog.Monitor.allowing P) (fun _ r => ∀ a, r = .ok a → R a) ()

section Within

variable {α β : Type} {P : Cmd → Prop} {R : α → Prop} {R' : β → Prop} {f : Bool → Method α}

theorem Within.mono {P' : Cmd → Prop} {R₁ : α → Prop} {p : Method α} (h : Within P R p)
    (hP : ∀ c, P c → P' c) (hR : ∀ a, R a → R₁ a) : Within P' R₁ p := by
  have hall : ∀ {u : Unit} {p : Method α},
      p.Obeys (Prog.Monitor.allowing P) (fun _ r => ∀ a, r = .ok a → R a) u →
      p.Obeys (Prog.Monitor.allowing P') (fun _ r => ∀ a, r = .ok a → R₁ a) u := by
    intro u p hp
    induction hp with
    | done hQ => exact .done fun a ha => hR a (hQ a ha)
    | call head tail ih => exact .call (hP _ head) ih
  exact hall h

theorem within_pure {a : α} (h : R a) : Within P R (pure a) := by
  refine .done fun a' ha' => ?_
  cases ha'
  exact h

theorem within_throw {e : CoordinatorError} : Within P R (.throw e) :=
  .done fun _ h => by cases h

theorem within_send {f : Reply c → Method α} (h : P c)
    (hf : ∀ r, Within P R (f r)) : Within P R (send c >>= f) := .call h hf

theorem within_bind {p : Method α} {f : α → Method β} (hp : Within P R p)
    (hf : ∀ a, R a → Within P R' (f a)) : Within P R' (p >>= f) :=
  Prog.Obeys.bind hp (fun _ a h => hf a (h a rfl)) fun _ _ _ _ h => by cases h

theorem within_saveState {point : SavePoint} {state : PipelineRunState}
    (h : P (.hset point state)) (hf : ∀ saved, Within P R (f saved)) :
    Within P R (saveState point state >>= f) := by
  refine within_send h fun r => ?_
  cases r with
  | ok _ => exact hf true
  | error _ => exact hf false

theorem within_appendEvent {id : String} {event : RunEvent}
    (h : P (.xaddEvent id event)) (hf : ∀ appended, Within P R (f appended)) :
    Within P R (appendEvent id event >>= f) := by
  refine within_send h fun r => ?_
  cases r with
  | ok _ => exact hf true
  | error _ => exact hf false

end Within

/-- What every command of a program keeps holds where the program ends. -/
theorem Within.ends_inv {α : Type} {P : Cmd → Prop} {R : α → Prop} {p : Method α}
    (h : Within P R p) {I : World → Prop}
    (hstep : ∀ c w, P c → I w → I (exec providers c w).2) (hw : I w) :
    Prog.Ends (exec providers) p (fun r w' => (∀ a, r = .ok a → R a) ∧ I w') w := by
  have hall : ∀ {u : Unit} {p : Method α},
      p.Obeys (Prog.Monitor.allowing P) (fun _ r => ∀ a, r = .ok a → R a) u →
      ∀ w₁, I w₁ →
        Prog.Ends (exec providers) p (fun r w' => (∀ a, r = .ok a → R a) ∧ I w') w₁ := by
    intro u p hp
    induction hp with
    | done hR => exact fun w₁ hw₁ => ⟨hR, hw₁⟩
    | call head tail ih => exact fun w₁ hw₁ => ih _ _ (hstep _ w₁ head hw₁)
  exact hall h w hw

/-- Run to its end, a program of a run stays apart from everything else. -/
theorem Within.ends {α : Type} {runId : String} {R : α → Prop} {p : Method α}
    (h : Within (Touches runId) R p) (providers : Providers) (w : World) :
    Prog.Ends (exec providers) p
      (fun r w' => (∀ a, r = .ok a → R a) ∧ Apart runId w w') w :=
  h.ends_inv (fun _ w₁ hc hw₁ => hw₁.trans (apart_exec hc w₁)) (Apart.refl runId w)

section Answer

variable {state : PipelineRunState} {error : Option String}

variable {p : Method PipelineRunState} {stage : Stage}

/-- Programs one after the other keep what each of them keeps. -/
theorem Within.keeps {next : PipelineRunState}
    (h : Within (Records next) (Keeps next) p) (hkeeps : Keeps state next) :
    Within (Records state) (Keeps state) p := by
  have htrans : ∀ last, Keeps next last → Keeps state last := fun last hlast =>
    ⟨hlast.runId_eq.trans hkeeps.runId_eq, hlast.stageAttempts_eq.trans hkeeps.stageAttempts_eq,
      hlast.childJobs_eq.trans hkeeps.childJobs_eq⟩
  refine h.mono (fun c hc => ?_) htrans
  cases c with
  | hset point last => exact htrans last hc
  | xaddEvent id event => trivial
  | _ => exact hc.elim

theorem terminalize_within {code : TerminalCode} {reason : String} :
    Within (Records state) (Keeps state) (terminalize state code reason) := by
  unfold terminalize
  split
  · exact within_pure (Keeps.refl state)
  have hended : Keeps state (state.terminal code reason) := by
    obtain ⟨artifact, text, hterminal⟩ := terminal_eq state code reason
    rw [hterminal]
    exact ⟨rfl, rfl, rfl⟩
  exact within_saveState hended fun _ => within_appendEvent trivial fun _ => within_pure hended

theorem advanceToNextStage_within :
    Within (Records state) (Keeps state) (advanceToNextStage state) := by
  have hmoved : ∀ (current : Option String) (note : Option CursorNote),
      Keeps state { state with currentStageId := current, cursorNote := note } :=
    fun _ _ => ⟨rfl, rfl, rfl⟩
  unfold advanceToNextStage
  split
  · exact within_saveState (hmoved none _) fun _ => within_pure (hmoved none _)
  split
  · split <;> exact terminalize_within
  rename_i nextStageId _
  split
  · exact within_saveState (Keeps.refl state) fun _ => within_pure (Keeps.refl state)
  split
  · exact terminalize_within
  · exact within_saveState (hmoved (some nextStageId) none) fun _ =>
      within_appendEvent trivial fun _ => within_pure (hmoved (some nextStageId) none)

theorem handleQcResult_within {verdict : QCVerdict} :
    Within (Records state) (Keeps state) (handleQcResult state verdict) := by
  unfold handleQcResult
  refine within_appendEvent trivial fun _ => ?_
  split
  · split
    · have haccepted : Keeps state { state with lastGoodArtifact := state.artifact } :=
        ⟨rfl, rfl, rfl⟩
      exact within_saveState haccepted fun _ => advanceToNextStage_within.keeps haccepted
    · exact advanceToNextStage_within
  · split
    · exact terminalize_within
    rename_i loopId correctionStageId onCorrection loopMax _
    simp only
    split
    · exact terminalize_within
    have hscheduled : Keeps state
        (state.scheduleCorrection loopId correctionStageId onCorrection) := ⟨rfl, rfl, rfl⟩
    exact within_saveState hscheduled fun _ =>
      within_appendEvent trivial fun _ => within_pure hscheduled

theorem handleStageFailure_within :
    Within (Records state) (Keeps state) (handleStageFailure state stage error) := by
  have hretried : ∀ note : Option CursorNote,
      Keeps state { state with currentStageId := some stage.id, cursorNote := note } :=
    fun _ => ⟨rfl, rfl, rfl⟩
  unfold handleStageFailure
  simp only
  split
  · exact terminalize_within
  split
  · exact within_saveState (hretried _) fun _ =>
      within_appendEvent trivial fun _ => within_pure (hretried _)
  · exact terminalize_within

variable {result : StageResult}

/-- What follows the save of a recorded result keeps it. -/
theorem recorded_within :
    Within (Records state) (Keeps state)
      (if validatedStatus result = .failed then handleStageFailure state stage error
        else
          match result.qcVerdict, stage.kind with
          | some verdict, .qc => handleQcResult state verdict
          | _, _ => advanceToNextStage state) := by
  split
  · exact handleStageFailure_within
  split
  · exact handleQcResult_within
  · exact advanceToNextStage_within

end Answer

section Advance

variable {coordinator : PipelineCoordinator} {runId : String} {state : PipelineRunState}

/-- The state belongs to the run. -/
def Of (runId : String) (state : PipelineRunState) : Prop := state.runId = runId

/-- What keeps the state of a run stays with the run. -/
theorem Within.of (h : Within (Records state) (Keeps state) p)
    (hrun : Of runId state) : Within (Touches runId) (Of runId) p := by
  subst hrun
  exact h.mono (fun _ hc => hc.touches) fun _ hkeeps => hkeeps.runId_eq

variable {now : String} {stage : Stage} {a : StageAttempt} {inputs : Option Fields} {id : String}

theorem recordResult_within (h : Of runId state) :
    Within (Touches runId) (Of runId) (recordResult now stage state a result) := by
  unfold recordResult
  split
  · exact within_throw
  split
  · exact within_throw
  · exact within_throw
  rename_i output artifact _ _
  have hrecorded : Of runId (recordedState stage state a result output artifact) := by
    rw [recordedState_eq]
    exact h
  exact within_saveState hrecorded fun _ => recorded_within.of hrecorded

theorem settleResult_within (h : Of runId state) :
    Within (Touches runId) (Of runId) (settleResult now authority stage state a result) := by
  unfold settleResult
  split
  · split
    · split
      · exact recordResult_within h
      · exact within_saveState h fun _ => within_appendEvent trivial fun _ => within_pure h
    · exact within_saveState h fun _ => within_pure h
  · exact recordResult_within h

theorem executeExternal_within :
    Within (Touches runId) (fun _ => True) (executeExternal stage inputs state a resuming) := by
  unfold executeExternal
  split
  · split
    · exact within_send trivial fun _ => within_pure trivial
    · exact within_pure trivial
  · exact within_send trivial fun _ => within_pure trivial

theorem reusableChild_within (candidates : List (ChildJobRef × ℕ)) :
    Within (Touches runId) (fun _ => True) (reusableChild candidates) := by
  induction candidates with
  | nil => exact within_pure trivial
  | cons candidate candidates ih =>
    unfold reusableChild
    refine within_send trivial fun r => ?_
    cases r with
    | error e => exact ih
    | ok prior =>
      simp only
      split
      · exact within_pure trivial
      · exact within_pure trivial
      · exact within_pure trivial
      · exact ih

theorem childForAttempt_within (h : Of runId state) :
    Within (Touches runId) (fun found => Of runId found.1)
      (childForAttempt stage inputs state a) := by
  unfold childForAttempt
  split
  · exact within_pure h
  refine within_bind (reusableChild_within _) fun found _ => ?_
  match found with
  | some (childJobId, i) => exact within_pure h
  | none =>
    refine within_send trivial fun r => ?_
    match r with
    | .error _ => exact within_throw
    | .ok childJobId => exact within_saveState h fun _ => within_pure h

theorem executeLeaf_within (h : Of runId state) :
    Within (Touches runId) (fun done => Of runId done.1) (executeLeaf stage inputs state a) := by
  unfold executeLeaf
  refine within_bind (childForAttempt_within h) fun found hfound => ?_
  obtain ⟨copy, childJobId, i⟩ := found
  unfold leafPoll
  refine within_bind (R := fun _ => True) (within_send trivial fun r => ?_) fun poll _ => ?_
  · match r with
    | .ok _ => exact within_pure trivial
    | .error _ => exact within_throw
  · exact within_saveState hfound fun _ => within_pure hfound

theorem executeAttempt_within (h : Of runId state) :
    Within (Touches runId) (Of runId) (executeAttempt now authority stage state a resuming) := by
  unfold executeAttempt
  split
  · exact settleResult_within h
  split
  · exact within_bind executeExternal_within fun _ _ => settleResult_within h
  · exact within_bind (executeLeaf_within h) fun done hdone => settleResult_within hdone
  · exact settleResult_within h

theorem runCurrentStage_within (h : Of runId state) :
    Within (Touches runId) (Of runId) (coordinator.runCurrentStage now state) := by
  unfold runCurrentStage
  split
  · exact terminalize_within.of h
  split
  · exact within_throw
  split
  · exact advanceToNextStage_within.of h
  split
  · exact executeAttempt_within h
  · exact within_saveState h fun _ =>
      within_appendEvent trivial fun _ => executeAttempt_within h

theorem cancelChild_within (child : ChildJobRef) :
    Within (Touches runId) (fun _ => True) (cancelChild id child) := by
  unfold cancelChild
  split
  · exact within_pure trivial
  refine within_send trivial fun r => ?_
  match r with
  | .ok true => exact within_pure trivial
  | .ok false => exact within_pure trivial
  | .error _ => exact within_appendEvent trivial fun _ => within_pure trivial

theorem cancelChildren_within (children : List ChildJobRef) :
    Within (Touches runId) (fun _ => True) (cancelChildren id children) := by
  induction children with
  | nil => exact within_pure trivial
  | cons child children ih =>
    unfold cancelChildren
    exact within_bind (cancelChild_within child) fun _ _ =>
      within_bind ih fun _ _ => within_pure trivial

theorem cancelExternal_within :
    Within (Touches runId) (fun _ => True) (coordinator.cancelExternal state) := by
  unfold cancelExternal
  split
  · exact within_pure trivial
  split
  · exact within_pure trivial
  split
  · exact within_appendEvent trivial fun _ => within_pure trivial
  · refine within_send trivial fun r => ?_
    match r with
    | .ok true => exact within_pure trivial
    | .ok false => exact within_pure trivial
    | .error _ => exact within_appendEvent trivial fun _ => within_pure trivial
  · exact within_pure trivial

theorem cascadeCancellation_within (h : Of runId state) :
    Within (Touches runId) (Of runId) (coordinator.cascadeCancellation state) := by
  unfold cascadeCancellation
  refine within_appendEvent trivial fun _ => ?_
  refine within_bind cancelExternal_within fun _ _ => ?_
  refine within_bind (cancelChildren_within _) fun stops _ => ?_
  simp only
  split <;> exact terminalize_within.of h

/-- Where the stored states are known by their runs, `advance` stays with its run. -/
theorem advance_within (coordinator : PipelineCoordinator) (now : String)
    (passed : PipelineRunState) (providers : Providers)
    (hkeyed : ∀ key state, w.states key = some state → state.runId = key) :
    Prog.Ends (exec providers) (coordinator.advance now passed)
      (fun r w' => (∀ state, r = .ok state → state.runId = passed.runId) ∧
        Apart passed.runId w w') w := by
  have hrun : Of passed.runId ((w.states passed.runId).getD passed) := by
    cases hloaded : w.states passed.runId with
    | none => exact rfl
    | some state => exact hkeyed _ state hloaded
  unfold advance
  refine ends_loadState ?_
  generalize (w.states passed.runId).getD passed = state at hrun
  refine Within.ends ?_ providers w
  simp only
  split
  · exact cascadeCancellation_within hrun
  split
  · exact within_pure hrun
  split
  · split
    · exact within_saveState hrun fun _ => within_pure hrun
    · exact within_saveState hrun fun _ => runCurrentStage_within hrun
  · exact runCurrentStage_within hrun

end Advance

end GpuManager.Coordinator
