import Mathlib.Data.Rat.Floor
import Mathlib.Data.List.Chain
import Mathlib.Tactic.Linarith

/-!
# The recovery reducer

`reduce_recovery` of `bundle_lifecycle.py`: one observation of a bundle is reduced
to one action and the next recovery state.  A recovery run is the fold of the
reducer over a list of observations.

The reducer is a circuit breaker.  A lost probe restarts the bundle, at most
`max_restart_attempts` times in a retry window; one more and the bundle is
quarantined, which is recorded as the phase `FAULTED`.  Two facts about runs decide
how good a breaker it is.

* The open circuit is stored *in the phase*, the same field in which the disabled,
  maintenance, planned-stop and coexistence branches note why they skipped.  They
  come first, so they overwrite it.
* The attempts are counted in the `RESTART` branch only.  A bundle that has never
  been healthy is handled by the `START` branch, which counts nothing.

Times are rational numbers.
-/

namespace GpuManager.Lifecycle

open List

inductive DesiredState where
  | stopped | running | idle | pinned
  deriving DecidableEq

inductive RecoveryPhase where
  | disabled | intentionallyOff | ready | crashed | recovering | faulted | maintenance
  | blocked
  deriving DecidableEq

inductive RecoveryAction where
  | skip | probe | start | restart | quarantine
  deriving DecidableEq

/-- `RecoveryState`. -/
structure RecoveryState where
  phase : RecoveryPhase := .intentionallyOff
  transitionId : ℤ := 0
  restartAttempts : ℤ := 0
  retryWindowStartedAt : Option ℚ := none
  lastRestartAt : Option ℚ := none
  lastHealthyAt : Option ℚ := none
  deriving DecidableEq

/-- `RecoveryObservation`.  `probeOk = none` means that a probe is still needed. -/
structure RecoveryObservation where
  enabled : Bool := true
  desiredState : DesiredState := .idle
  maintenanceMode : Bool := false
  plannedStop : Bool := false
  coexistencePaused : Bool := false
  probeOk : Option Bool := none
  now : ℚ := 0
  rejoinRequested : Bool := false
  maxRestartAttempts : ℤ := 3
  retryWindowSeconds : ℚ := 300
  minRestartIntervalSeconds : ℚ := 30
  deriving DecidableEq

/-- `RecoveryDecision`. -/
structure RecoveryDecision where
  action : RecoveryAction
  reason : String
  previous : RecoveryState
  next : RecoveryState
  emitTransitionLog : Bool := false

/-- `_changed`. -/
def changed (previous next : RecoveryState) : Bool :=
  previous.phase ≠ next.phase || previous.transitionId ≠ next.transitionId

def RecoveryState.toPhase (state : RecoveryState) (phase : RecoveryPhase) : RecoveryState :=
  { state with
    phase := phase
    transitionId :=
      if phase ≠ state.phase then state.transitionId + 1 else state.transitionId }

/-- `_decision`. -/
def decision (action : RecoveryAction) (reason : String) (previous next : RecoveryState)
    (emitTransitionLog : Bool := false) : RecoveryDecision :=
  { action := action
    reason := reason
    previous := previous
    next := next
    emitTransitionLog := emitTransitionLog || changed previous next }

def RecoveryState.rejoined (state : RecoveryState) : RecoveryState :=
  { state with
    phase := .intentionallyOff
    transitionId := state.transitionId + 1
    restartAttempts := 0
    retryWindowStartedAt := none
    lastRestartAt := none }

/-- `window_started` and `attempts` as a failed probe finds them: the current retry
window, or a new one once it is over. -/
def retryWindow (state : RecoveryState) (o : RecoveryObservation) : ℚ × ℤ :=
  match state.retryWindowStartedAt with
  | none => (o.now, 0)
  | some started =>
    if o.now - started > o.retryWindowSeconds then (o.now, 0)
    else (started, state.restartAttempts)

/-- The failed probe of a bundle that has been healthy: restart it, or give up. -/
def reduceHealthLost (state : RecoveryState) (o : RecoveryObservation) : RecoveryDecision :=
  if (retryWindow state o).2 + 1 > max 1 o.maxRestartAttempts then
    decision .quarantine "restart_attempts_exhausted" state
      { state.toPhase .faulted with
        restartAttempts := (retryWindow state o).2 + 1
        retryWindowStartedAt := some (retryWindow state o).1
        lastRestartAt := none }
  else
    decision .restart "health_lost" state
      { state with
        phase := .recovering
        transitionId := state.transitionId + 1
        restartAttempts := (retryWindow state o).2 + 1
        retryWindowStartedAt := some (retryWindow state o).1
        lastRestartAt := some o.now }
      (decide (state.phase = .ready))

/-- The branches of `reduce_recovery` that look at the probe. -/
def reduceProbe (state : RecoveryState) (o : RecoveryObservation) : RecoveryDecision :=
  match o.probeOk with
  | none =>
    if (state.phase = .recovering ∨ state.phase = .crashed) ∧
        ∃ last ∈ state.lastRestartAt, o.now - last < o.minRestartIntervalSeconds then
      decision .skip "restart_cooldown" state state
    else decision .probe "probe_required" state state
  | some true =>
    decision .skip "ready" state
      { state.toPhase .ready with
        restartAttempts := 0
        retryWindowStartedAt := none
        lastRestartAt := none
        lastHealthyAt := some o.now }
  | some false =>
    match state.lastHealthyAt with
    | none =>
      decision .start "never_healthy" state
        { state.toPhase .crashed with lastRestartAt := some o.now }
    | some _ => reduceHealthLost state o

/-- `reduce_recovery`. -/
def reduceRecovery (state : RecoveryState) (o : RecoveryObservation) : RecoveryDecision :=
  if o.enabled = false ∨ o.desiredState = .stopped then
    decision .skip (if o.enabled then "desired_stopped" else "config_disabled") state
      (state.toPhase .disabled)
  else if o.maintenanceMode then
    decision .skip "maintenance_mode" state (state.toPhase .maintenance)
  else if o.plannedStop then
    decision .skip "planned_stop" state (state.toPhase .blocked)
  else if o.coexistencePaused then
    decision .skip "coexistence_paused" state (state.toPhase .blocked)
  else if state.phase = .faulted then
    if o.rejoinRequested = false then decision .skip "circuit_open" state state
    else reduceProbe state.rejoined o
  else reduceProbe state o

/-! ## What one observation does -/

/-- The observation takes one of the branches that skip whatever the phase is. -/
def RecoveryObservation.Blocking (o : RecoveryObservation) : Prop :=
  o.enabled = false ∨ o.desiredState = .stopped ∨ o.maintenanceMode = true ∨
    o.plannedStop = true ∨ o.coexistencePaused = true

/-- The observation ends a quarantine: a rejoin is requested or the probe is good. -/
def RecoveryObservation.Releases (o : RecoveryObservation) : Prop :=
  o.rejoinRequested = true ∨ o.probeOk = some true

instance (o : RecoveryObservation) : Decidable o.Blocking := by
  unfold RecoveryObservation.Blocking
  infer_instance

instance (o : RecoveryObservation) : Decidable o.Releases := by
  unfold RecoveryObservation.Releases
  infer_instance

section Reduction

variable {state : RecoveryState} {o : RecoveryObservation}

/-- A blocking observation skips and overwrites the phase, nothing else. -/
theorem reduceRecovery_of_blocking (h : o.Blocking) (state : RecoveryState) :
    ∃ phase, phase ≠ .faulted ∧ (reduceRecovery state o).action = .skip ∧
      (reduceRecovery state o).next = state.toPhase phase := by
  unfold reduceRecovery
  split
  · exact ⟨.disabled, nofun, rfl, rfl⟩
  rename_i hdisabled
  split
  · exact ⟨.maintenance, nofun, rfl, rfl⟩
  rename_i hmaintenance
  split
  · exact ⟨.blocked, nofun, rfl, rfl⟩
  rename_i hplanned
  split
  · exact ⟨.blocked, nofun, rfl, rfl⟩
  rename_i hpaused
  rcases h with h | h | h | h | h
  · exact absurd (Or.inl h) hdisabled
  · exact absurd (Or.inr h) hdisabled
  · exact absurd h hmaintenance
  · exact absurd h hplanned
  · exact absurd h hpaused

/-- An open circuit answers every other observation without a rejoin by itself. -/
theorem reduceRecovery_of_faulted (h : ¬ o.Blocking) (hphase : state.phase = .faulted)
    (hrejoin : o.rejoinRequested = false) :
    reduceRecovery state o = decision .skip "circuit_open" state state := by
  simp only [RecoveryObservation.Blocking, not_or] at h
  obtain ⟨henabled, hstopped, hmaintenance, hplanned, hpaused⟩ := h
  simp [reduceRecovery, henabled, hstopped, hmaintenance, hplanned, hpaused, hphase, hrejoin]

/-- A requested rejoin closes the circuit first. -/
theorem reduceRecovery_of_rejoin (h : ¬ o.Blocking) (hphase : state.phase = .faulted)
    (hrejoin : o.rejoinRequested = true) :
    reduceRecovery state o = reduceProbe state.rejoined o := by
  simp only [RecoveryObservation.Blocking, not_or] at h
  obtain ⟨henabled, hstopped, hmaintenance, hplanned, hpaused⟩ := h
  simp [reduceRecovery, henabled, hstopped, hmaintenance, hplanned, hpaused, hphase, hrejoin]

theorem reduceRecovery_of_closed (h : ¬ o.Blocking) (hphase : state.phase ≠ .faulted) :
    reduceRecovery state o = reduceProbe state o := by
  simp only [RecoveryObservation.Blocking, not_or] at h
  obtain ⟨henabled, hstopped, hmaintenance, hplanned, hpaused⟩ := h
  simp [reduceRecovery, henabled, hstopped, hmaintenance, hplanned, hpaused, hphase]

theorem reduceProbe_quarantine (h : (reduceProbe state o).action = .quarantine) :
    (reduceProbe state o).next.phase = .faulted := by
  unfold reduceProbe at h ⊢
  split at h
  · split at h <;> cases h
  · cases h
  split at h
  · cases h
  unfold reduceHealthLost at h ⊢
  split at h
  · rename_i hexhausted
    rw [if_pos hexhausted]
    rfl
  · cases h

theorem reduceRecovery_quarantine (h : (reduceRecovery state o).action = .quarantine) :
    (reduceRecovery state o).next.phase = .faulted := by
  by_cases hblocking : o.Blocking
  · obtain ⟨phase, -, haction, -⟩ := reduceRecovery_of_blocking hblocking state
    rw [haction] at h
    cases h
  by_cases hphase : state.phase = .faulted
  · cases hrejoin : o.rejoinRequested with
    | false =>
      rw [reduceRecovery_of_faulted hblocking hphase hrejoin]
      exact hphase
    | true =>
      rw [reduceRecovery_of_rejoin hblocking hphase hrejoin] at h ⊢
      exact reduceProbe_quarantine h
  · rw [reduceRecovery_of_closed hblocking hphase] at h ⊢
    exact reduceProbe_quarantine h

end Reduction

/-! ## Recovery runs -/

/-- One step of a recovery run: the state it starts from and what is observed. -/
structure RecoveryStep where
  before : RecoveryState
  observation : RecoveryObservation
  deriving DecidableEq

/-- What the reducer decides. -/
def RecoveryStep.decision (step : RecoveryStep) : RecoveryDecision :=
  reduceRecovery step.before step.observation

/-- The fold of `reduce_recovery` over the observations. -/
def recoverySteps : RecoveryState → List RecoveryObservation → List RecoveryStep
  | _, [] => []
  | state, o :: os => ⟨state, o⟩ :: recoverySteps (reduceRecovery state o).next os

/-- The step brings the bundle up. -/
def RecoveryStep.Attempts (step : RecoveryStep) : Prop :=
  step.decision.action = .start ∨ step.decision.action = .restart

instance (step : RecoveryStep) : Decidable step.Attempts := by
  unfold RecoveryStep.Attempts
  infer_instance

variable {after before : List RecoveryStep} {step : RecoveryStep}

/-- A part of a run is the run from the state it starts in. -/
theorem recoverySteps_split {state : RecoveryState} {os : List RecoveryObservation}
    (h : recoverySteps state os = before ++ step :: after) :
    ∃ rest, recoverySteps step.before (step.observation :: rest) = step :: after ∧
      (step.observation :: rest) <:+ os := by
  induction os generalizing state before with
  | nil => simp [recoverySteps] at h
  | cons o os ih =>
    rw [recoverySteps] at h
    cases before with
    | nil =>
      obtain ⟨rfl, hafter⟩ := cons_eq_cons.mp h
      exact ⟨os, by rw [recoverySteps, ← hafter], suffix_refl _⟩
    | cons first before =>
      obtain ⟨-, hrest⟩ := cons_eq_cons.mp h
      obtain ⟨rest, hsteps, hsuffix⟩ := ih hrest
      exact ⟨rest, hsteps, hsuffix.trans (suffix_cons o os)⟩

/-! ## The quarantine circuit -/

/-- After a quarantine the bundle is not brought up again until an observation
releases it. -/
def QuarantineHolds (steps : List RecoveryStep) : Prop :=
  ∀ before quarantine between attempt after,
    steps = before ++ quarantine :: (between ++ attempt :: after) →
    quarantine.decision.action = .quarantine → attempt.Attempts →
    ∃ step ∈ between ++ [attempt], step.observation.Releases

/-- The step does not overwrite an open circuit: in the phase `FAULTED` an observation
that takes a skipping branch also releases the bundle. -/
def RecoveryStep.KeepsCircuit (step : RecoveryStep) : Prop :=
  step.before.phase = .faulted → step.observation.Blocking → step.observation.Releases

instance (step : RecoveryStep) : Decidable step.KeepsCircuit := by
  unfold RecoveryStep.KeepsCircuit
  infer_instance

/-- **One observation.**  An open circuit that is neither overwritten nor released
skips and stays open. -/
theorem RecoveryStep.stays_open (hkeeps : step.KeepsCircuit)
    (hphase : step.before.phase = .faulted) (hnot : ¬ step.observation.Releases) :
    ¬ step.Attempts ∧ step.decision.next.phase = .faulted := by
  have hblocking : ¬ step.observation.Blocking := fun h => hnot (hkeeps hphase h)
  have hrejoin : step.observation.rejoinRequested = false := by
    by_contra hne
    exact hnot (Or.inl (by simpa using hne))
  have hdecision : step.decision = Lifecycle.decision .skip "circuit_open" step.before
      step.before := reduceRecovery_of_faulted hblocking hphase hrejoin
  refine ⟨?_, ?_⟩
  · unfold RecoveryStep.Attempts
    rw [hdecision]
    rintro (h | h) <;> cases h
  · rw [hdecision]
    exact hphase

/-- **A run of observations.**  From an open circuit, the first attempt comes with or
after a release. -/
theorem releases_before_attempt {state : RecoveryState} {os : List RecoveryObservation}
    {between : List RecoveryStep} {attempt : RecoveryStep} (hphase : state.phase = .faulted)
    (hkeeps : ∀ step ∈ recoverySteps state os, step.KeepsCircuit)
    (hsteps : recoverySteps state os = between ++ attempt :: after) (hattempt : attempt.Attempts) :
    ∃ step ∈ between ++ [attempt], step.observation.Releases := by
  induction os generalizing state between with
  | nil => simp [recoverySteps] at hsteps
  | cons o os ih =>
    rw [recoverySteps] at hsteps hkeeps
    rw [forall_mem_cons] at hkeeps
    by_cases hrelease : o.Releases
    · cases between with
      | nil | cons first between =>
        obtain ⟨rfl, -⟩ := cons_eq_cons.mp hsteps
        exact ⟨⟨state, o⟩, by simp, hrelease⟩
    · obtain ⟨hnot, hopen⟩ := RecoveryStep.stays_open hkeeps.1 hphase hrelease
      cases between with
      | nil =>
        obtain ⟨rfl, -⟩ := cons_eq_cons.mp hsteps
        exact absurd hattempt hnot
      | cons first between =>
        obtain ⟨rfl, hrest⟩ := cons_eq_cons.mp hsteps
        obtain ⟨step, hmem, hreleases⟩ := ih hopen hkeeps.2 hrest
        exact ⟨step, mem_cons_of_mem _ hmem, hreleases⟩

/-- **The quarantine circuit.**  In every run whose steps do not overwrite an open
circuit, a quarantined bundle is not brought up again until it is released. -/
theorem quarantine_holds {state : RecoveryState} {os : List RecoveryObservation}
    (hkeeps : ∀ step ∈ recoverySteps state os, step.KeepsCircuit) :
    QuarantineHolds (recoverySteps state os) := by
  intro before quarantine between attempt after hsteps haction hattempt
  obtain ⟨rest, hrest, -⟩ := recoverySteps_split hsteps
  rw [recoverySteps] at hrest
  obtain ⟨-, hrest⟩ := cons_eq_cons.mp hrest
  refine releases_before_attempt (reduceRecovery_quarantine haction) ?_ hrest hattempt
  intro step hstep
  refine hkeeps step ?_
  rw [hsteps]
  rw [hrest] at hstep
  exact mem_append_right _ (mem_cons_of_mem _ hstep)

def failedProbe (now : ℚ) : RecoveryObservation := { probeOk := some false, now := now }

def healthy : RecoveryState := { phase := .ready, lastHealthyAt := some 0 }

/-- Four failed probes open the circuit; a rejoin closes it. -/
def rejoinedRun : List RecoveryStep :=
  recoverySteps healthy
    [failedProbe 1, failedProbe 2, failedProbe 3, failedProbe 4, failedProbe 400,
      { failedProbe 401 with rejoinRequested := true }]

/-- No step overwrites the open circuit. -/
theorem rejoinedRun_quarantineHolds : QuarantineHolds rejoinedRun :=
  quarantine_holds (by decide +kernel)

/-- Four failed probes open the circuit; a maintenance window closes it. -/
def overwritten : List RecoveryObservation :=
  [failedProbe 1, failedProbe 2, failedProbe 3, failedProbe 4,
    { now := 5, maintenanceMode := true }, failedProbe 400]

/-- The sixth observation restarts the quarantined bundle; nobody asked for it. -/
theorem overwritten_not_quarantineHolds :
    overwritten.Pairwise (fun o o' => o.now ≤ o'.now) ∧
      ¬ QuarantineHolds (recoverySteps healthy overwritten) := by
  refine ⟨by decide +kernel, fun h => ?_⟩
  have hrelease := h ((recoverySteps healthy overwritten).take 3)
    ((recoverySteps healthy overwritten).get ⟨3, by decide +kernel⟩)
    [(recoverySteps healthy overwritten).get ⟨4, by decide +kernel⟩]
    ((recoverySteps healthy overwritten).get ⟨5, by decide +kernel⟩) []
    (by decide +kernel) (by decide +kernel) (by decide +kernel)
  revert hrelease
  decide +kernel

/-! ## The number of attempts -/

section Attempts

variable {m : ℤ} {retry : ℚ} {state : RecoveryState} {os : List RecoveryObservation}

def RecoveryStep.SetsWindow (step : RecoveryStep) : Prop :=
  step.decision.next.retryWindowStartedAt ≠ none ∧
    step.decision.next.retryWindowStartedAt ≠ step.before.retryWindowStartedAt

/-- From a decision that sets the window, and from the first `START`, at most
`max(1, max_restart_attempts)` attempts are made within the length of the window. -/
def AttemptsBounded (m : ℤ) (retry : ℚ) (steps : List RecoveryStep) : Prop :=
  ∀ before first after, steps = before ++ first :: after →
    (first.SetsWindow ∨ first.decision.action = .start ∧
      ∀ step ∈ before, step.decision.action ≠ .start) →
    ((first :: after).countP fun step => decide (step.Attempts ∧
      step.observation.now ≤ first.observation.now + retry) : ℤ) ≤ max 1 m

/-- A failed probe that no branch before the probe takes. -/
def RecoveryObservation.Fails (o : RecoveryObservation) : Prop :=
  ¬ o.Blocking ∧ o.probeOk = some false

instance (o : RecoveryObservation) : Decidable o.Fails := by
  unfold RecoveryObservation.Fails
  infer_instance

/-- The failed probes that are reached: an open circuit hides them until a blocking
observation overwrites it. -/
def failedProbes (state : RecoveryState) (os : List RecoveryObservation) :
    List RecoveryObservation :=
  (if state.phase = .faulted then os.dropWhile fun o => decide (¬ o.Blocking) else os).filter
    fun o => decide o.Fails

variable {o : RecoveryObservation}

/-- What a quiet observation, one that does not release, can do: nothing but a change of
phase, or the reaction to a failed probe. -/
theorem reduceRecovery_quiet (hquiet : ¬ o.Releases) (state : RecoveryState) :
    (¬ RecoveryStep.Attempts ⟨state, o⟩ ∧
        (reduceRecovery state o).next.lastHealthyAt = state.lastHealthyAt ∧
        (reduceRecovery state o).next.retryWindowStartedAt = state.retryWindowStartedAt ∧
        (reduceRecovery state o).next.restartAttempts = state.restartAttempts ∧
        ∀ os, failedProbes state (o :: os) = failedProbes (reduceRecovery state o).next os) ∨
      (o.Fails ∧ state.phase ≠ .faulted ∧ reduceRecovery state o = reduceProbe state o) := by
  by_cases hblocking : o.Blocking
  · obtain ⟨phase, hphase, haction, hnext⟩ := reduceRecovery_of_blocking hblocking state
    refine Or.inl ⟨?_, by rw [hnext]; rfl, by rw [hnext]; rfl, by rw [hnext]; rfl, fun os => ?_⟩
    · unfold RecoveryStep.Attempts RecoveryStep.decision
      rw [haction]
      simp
    · have hnot : ¬ o.Fails := fun h => h.1 hblocking
      have hnextPhase : (state.toPhase phase).phase ≠ .faulted := hphase
      unfold failedProbes
      rw [hnext, if_neg hnextPhase]
      split
      · rw [dropWhile_cons_of_neg (by simpa using hblocking),
          filter_cons_of_neg (by simpa using hnot)]
      · rw [filter_cons_of_neg (by simpa using hnot)]
  by_cases hphase : state.phase = .faulted
  · have hrejoin : o.rejoinRequested = false := by
      by_contra hne
      exact hquiet (Or.inl (by simpa using hne))
    have hdecision := reduceRecovery_of_faulted hblocking hphase hrejoin
    refine Or.inl ⟨?_, by rw [hdecision]; rfl, by rw [hdecision]; rfl, by rw [hdecision]; rfl,
      fun os => ?_⟩
    · unfold RecoveryStep.Attempts RecoveryStep.decision
      rw [hdecision]
      simp [decision]
    · have hsame : (reduceRecovery state o).next = state := by rw [hdecision]; rfl
      rw [hsame]
      unfold failedProbes
      rw [if_pos hphase, if_pos hphase, dropWhile_cons_of_pos (by simpa using hblocking)]
  have hdecision := reduceRecovery_of_closed hblocking hphase
  cases hprobe : o.probeOk with
  | none =>
    have hnext : (reduceProbe state o).next = state ∧
        (reduceProbe state o).action ≠ .start ∧ (reduceProbe state o).action ≠ .restart := by
      unfold reduceProbe
      rw [hprobe]
      simp only
      split <;> exact ⟨rfl, nofun, nofun⟩
    have hnot : ¬ o.Fails := by
      rintro ⟨-, hfalse⟩
      rw [hprobe] at hfalse
      cases hfalse
    rw [hdecision, hnext.1]
    refine Or.inl ⟨?_, rfl, rfl, rfl, fun os => ?_⟩
    · unfold RecoveryStep.Attempts RecoveryStep.decision
      rw [hdecision]
      exact fun h => h.elim hnext.2.1 hnext.2.2
    · unfold failedProbes
      rw [if_neg hphase, if_neg hphase, filter_cons_of_neg (by simpa using hnot)]
  | some ok =>
    cases ok with
    | true => exact absurd (Or.inr hprobe) hquiet
    | false => exact Or.inr ⟨⟨hblocking, hprobe⟩, hphase, hdecision⟩

/-! ### A bundle that has never been healthy -/

/-- A reached failed probe of such a bundle is a `START`, and nothing is counted. -/
theorem reduceProbe_never (hfails : o.Fails) (hnever : state.lastHealthyAt = none) :
    reduceProbe state o = decision .start "never_healthy" state
      { state.toPhase .crashed with lastRestartAt := some o.now } := by
  unfold reduceProbe
  rw [hfails.2]
  simp only [hnever]

/-- The attempts for a bundle that has never been healthy are its reached failed
probes, all of them `START`s, and no decision sets the window. -/
theorem attempts_of_never (hnever : state.lastHealthyAt = none)
    (hquiet : ∀ o ∈ os, ¬ o.Releases) :
    ((recoverySteps state os).filter fun step => decide step.Attempts).map
        RecoveryStep.observation = failedProbes state os ∧
      ∀ step ∈ recoverySteps state os,
        ¬ step.SetsWindow ∧ (step.Attempts → step.decision.action = .start) := by
  induction os generalizing state with
  | nil =>
    refine ⟨?_, fun _ h => by cases h⟩
    unfold failedProbes
    split <;> rfl
  | cons o os ih =>
    rw [forall_mem_cons] at hquiet
    rw [recoverySteps, forall_mem_cons]
    rcases reduceRecovery_quiet hquiet.1 state with
      ⟨hnot, hhealthy, hwindow, -, hprobes⟩ | ⟨hfails, hphase, heq⟩
    · obtain ⟨hfilter, hall⟩ := ih (hhealthy.trans hnever) hquiet.2
      refine ⟨?_, ⟨fun h => h.2 hwindow, fun h => absurd h hnot⟩, hall⟩
      rw [filter_cons_of_neg (by simpa using hnot), hfilter, hprobes]
    · rw [reduceProbe_never hfails hnever] at heq
      have hstart : RecoveryStep.decision ⟨state, o⟩ = _ := heq
      have hattempts : RecoveryStep.Attempts ⟨state, o⟩ := by
        unfold RecoveryStep.Attempts
        rw [hstart]
        exact Or.inl rfl
      have hnext : (reduceRecovery state o).next.lastHealthyAt = none := by
        rw [heq]
        exact hnever
      have hnextPhase : (reduceRecovery state o).next.phase ≠ .faulted := by
        rw [heq]
        exact nofun
      obtain ⟨hfilter, hall⟩ := ih hnext hquiet.2
      refine ⟨?_, ⟨fun h => h.2 ?_, fun _ => ?_⟩, hall⟩
      · rw [filter_cons_of_pos (by simpa using hattempts), map_cons, hfilter]
        unfold failedProbes
        rw [if_neg hphase, if_neg hnextPhase, filter_cons_of_pos (by simpa using hfails)]
      · rw [hstart]
        rfl
      · rw [hstart]
        rfl

/-- The first `START` and what comes after it are all the reached failed probes. -/
theorem attempts_from_first {first : RecoveryStep}
    (hnever : state.lastHealthyAt = none) (hquiet : ∀ o ∈ os, ¬ o.Releases)
    (hsteps : recoverySteps state os = before ++ first :: after) (hfirst : first.Attempts)
    (hbefore : ∀ step ∈ before, ¬ step.Attempts) :
    ∃ rest, failedProbes state os = first.observation :: rest ∧
      ∀ bound : ℚ, (first :: after).countP (fun step => decide (step.Attempts ∧
          step.observation.now ≤ bound)) =
        (failedProbes state os).countP fun o => decide (o.now ≤ bound) := by
  obtain ⟨hprobes, -⟩ := attempts_of_never hnever hquiet
  have hnone : before.filter (fun step => decide step.Attempts) = [] := by
    rw [filter_eq_nil_iff]
    intro step hstep
    simpa using hbefore step hstep
  have hfilter : (recoverySteps state os).filter (fun step => decide step.Attempts) =
      (first :: after).filter fun step => decide step.Attempts := by
    rw [hsteps, filter_append, hnone, nil_append]
  rw [hfilter] at hprobes
  refine ⟨(after.filter fun step => decide step.Attempts).map RecoveryStep.observation, ?_,
    fun bound => ?_⟩
  · rw [← hprobes, filter_cons_of_pos (by simpa using hfirst), map_cons]
  · rw [← hprobes, countP_map, countP_filter]
    congr 1
    funext step
    simp [and_comm]

/-! ### A bundle that has been healthy -/

/-- The retry window a failed probe finds is a new one with no attempts, or the
current one, which is not over. -/
theorem retryWindow_cases (state : RecoveryState) (o : RecoveryObservation) :
    (retryWindow state o = (o.now, 0) ∧
        ∀ started ∈ state.retryWindowStartedAt, o.now - started > o.retryWindowSeconds) ∨
      ∃ started, state.retryWindowStartedAt = some started ∧
        o.now - started ≤ o.retryWindowSeconds ∧
        retryWindow state o = (started, state.restartAttempts) := by
  unfold retryWindow
  cases hwindow : state.retryWindowStartedAt with
  | none => exact Or.inl ⟨rfl, by simp⟩
  | some started =>
    by_cases hover : o.now - started > o.retryWindowSeconds
    · refine Or.inl ⟨by simp only [if_pos hover], ?_⟩
      simpa using hover
    · refine Or.inr ⟨started, rfl, not_lt.mp hover, by simp only [if_neg hover]⟩

/-- The reaction to a failed probe writes the window and one more attempt, and is an
attempt only within the bound. -/
theorem reduceHealthLost_fields (state : RecoveryState) (o : RecoveryObservation) :
    (reduceHealthLost state o).next.lastHealthyAt = state.lastHealthyAt ∧
      (reduceHealthLost state o).next.retryWindowStartedAt = some (retryWindow state o).1 ∧
      (reduceHealthLost state o).next.restartAttempts = (retryWindow state o).2 + 1 ∧
      (reduceHealthLost state o).action ≠ .start ∧
      ((reduceHealthLost state o).action = .restart →
        (retryWindow state o).2 + 1 ≤ max 1 o.maxRestartAttempts) := by
  unfold reduceHealthLost
  split
  · exact ⟨rfl, rfl, rfl, nofun, nofun⟩
  · rename_i hbound
    exact ⟨rfl, rfl, rfl, nofun, fun _ => not_lt.mp hbound⟩

theorem reduceProbe_healthy (hfails : o.Fails)
    (hhealthy : state.lastHealthyAt ≠ none) : reduceProbe state o = reduceHealthLost state o := by
  obtain ⟨t, ht⟩ := Option.ne_none_iff_exists'.mp hhealthy
  unfold reduceProbe
  rw [hfails.2]
  simp only [ht]

/-- A bundle that has been healthy is never `START`ed, and stays one that has been
healthy. -/
theorem healthy_step (hquiet : ¬ o.Releases) (hhealthy : state.lastHealthyAt ≠ none) :
    (reduceRecovery state o).next.lastHealthyAt ≠ none ∧
      (reduceRecovery state o).action ≠ .start := by
  rcases reduceRecovery_quiet hquiet state with ⟨hnot, hsame, -⟩ | ⟨hfails, -, heq⟩
  · exact ⟨hsame ▸ hhealthy, fun h => hnot (Or.inl h)⟩
  rw [heq, reduceProbe_healthy hfails hhealthy]
  obtain ⟨hsame, -, -, hstart, -⟩ := reduceHealthLost_fields state o
  exact ⟨hsame ▸ hhealthy, hstart⟩

theorem healthy_steps (hquiet : ∀ o ∈ os, ¬ o.Releases)
    (hhealthy : state.lastHealthyAt ≠ none) :
    ∀ step ∈ recoverySteps state os,
      step.before.lastHealthyAt ≠ none ∧ step.decision.action ≠ .start := by
  induction os generalizing state with
  | nil => exact fun _ h => by cases h
  | cons o os ih =>
    rw [forall_mem_cons] at hquiet
    rw [recoverySteps, forall_mem_cons]
    obtain ⟨hnext, hstart⟩ := healthy_step hquiet.1 hhealthy
    exact ⟨⟨hhealthy, hstart⟩, ih hquiet.2 hnext⟩

/-- Nothing is within a bound that the observations have passed. -/
theorem countP_eq_zero_of_late {bound : ℚ} (hlate : ∀ o ∈ os, bound < o.now) :
    (recoverySteps state os).countP (fun step => decide (step.Attempts ∧
      step.observation.now ≤ bound)) = 0 := by
  induction os generalizing state with
  | nil => rfl
  | cons o os ih =>
    rw [forall_mem_cons] at hlate
    rw [recoverySteps, countP_cons_of_neg]
    · exact ih hlate.2
    · simpa using fun _ => hlate.1

/-- **A window.**  While the window that started at `started` lasts, the attempts that
are left are the ones it has not counted yet. -/
theorem restarts_le {started : ℚ} (hconst : ∀ o ∈ os, o.maxRestartAttempts = m ∧
      o.retryWindowSeconds = retry)
    (hnow : os.Pairwise fun o o' => o.now ≤ o'.now) (hquiet : ∀ o ∈ os, ¬ o.Releases)
    (hhealthy : state.lastHealthyAt ≠ none)
    (hwindow : state.retryWindowStartedAt = some started) :
    ((recoverySteps state os).countP (fun step => decide (step.Attempts ∧
      step.observation.now ≤ started + retry)) : ℤ) ≤ max 0 (max 1 m - state.restartAttempts) := by
  induction os generalizing state with
  | nil => exact le_max_left _ _
  | cons o os ih =>
    rw [forall_mem_cons] at hconst hquiet
    rw [pairwise_cons] at hnow
    obtain ⟨hnextHealthy, -⟩ := healthy_step hquiet.1 hhealthy
    rw [recoverySteps]
    rcases reduceRecovery_quiet hquiet.1 state with
      ⟨hnot, -, hsame, hattempts, -⟩ | ⟨hfails, -, heq⟩
    · rw [countP_cons_of_neg (by simpa using fun h => absurd h hnot), ← hattempts]
      exact ih hconst.2 hnow.2 hquiet.2 hnextHealthy (hsame.trans hwindow)
    rw [reduceProbe_healthy hfails hhealthy] at heq
    obtain ⟨-, hnextWindow, hnextAttempts, hstart, hrestart⟩ := reduceHealthLost_fields state o
    rcases retryWindow_cases state o with ⟨-, hover⟩ | ⟨started', hstarted', -, hcurrent⟩
    · -- The window is over, and so are all later observations.
      have hlate : started + retry < o.now := by
        have hgt := hover started (by rw [hwindow]; rfl)
        rw [hconst.1.2] at hgt
        linarith
      rw [countP_cons_of_neg (by simpa using fun _ => hlate),
        countP_eq_zero_of_late fun o' ho' => hlate.trans_le (hnow.1 o' ho')]
      exact le_max_left _ _
    · obtain rfl : started' = started := by
        rw [hwindow] at hstarted'
        exact (Option.some.inj hstarted').symm
      have hnext := ih hconst.2 hnow.2 hquiet.2
        hnextHealthy (by rw [heq, hnextWindow, hcurrent])
      rw [heq, hnextAttempts, hcurrent] at hnext
      rw [heq]
      by_cases hattempts : RecoveryStep.Attempts ⟨state, o⟩
      · -- One more attempt, which the window has counted.
        have haction : (reduceHealthLost state o).action = .restart := by
          rcases hattempts with h | h
          · exact absurd ((congrArg RecoveryDecision.action heq).symm.trans h) hstart
          · exact (congrArg RecoveryDecision.action heq).symm.trans h
        have hle := hrestart haction
        rw [hcurrent, hconst.1.1] at hle
        have hone : (if decide (RecoveryStep.Attempts ⟨state, o⟩ ∧
            o.now ≤ started' + retry) = true then 1 else 0 : ℕ) ≤ 1 := by
          split <;> omega
        rw [countP_cons]
        simp only at hle hnext ⊢
        omega
      · rw [countP_cons_of_neg (by simpa using fun h => absurd h hattempts)]
        refine hnext.trans (max_le_max le_rfl ?_)
        simp only
        omega

/-- A decision that sets the window is an attempt that opens it. -/
theorem RecoveryStep.SetsWindow.opens (hsets : step.SetsWindow)
    (hquiet : ¬ step.observation.Releases) (hhealthy : step.before.lastHealthyAt ≠ none) :
    step.decision.next.lastHealthyAt ≠ none ∧
      step.decision.next.retryWindowStartedAt = some step.observation.now ∧
      step.decision.next.restartAttempts = 1 := by
  refine ⟨(healthy_step hquiet hhealthy).1, ?_⟩
  rcases reduceRecovery_quiet hquiet step.before with ⟨-, -, hsame, -⟩ | ⟨hfails, -, heq⟩
  · exact absurd hsame hsets.2
  rw [reduceProbe_healthy hfails hhealthy] at heq
  obtain ⟨-, hwindow, hattempts, -⟩ := reduceHealthLost_fields step.before step.observation
  have hdecision : step.decision = reduceHealthLost step.before step.observation := heq
  rcases retryWindow_cases step.before step.observation with
    ⟨hfresh, -⟩ | ⟨started, hstarted, -, hcurrent⟩
  · rw [hdecision, hwindow, hattempts, hfresh]
    exact ⟨rfl, rfl⟩
  · refine absurd ?_ hsets.2
    rw [hdecision, hwindow, hcurrent, hstarted]

/-- The attempts after a decision that sets the window, itself included. -/
theorem attemptsBounded_of_healthy (hconst : ∀ o ∈ os, o.maxRestartAttempts = m ∧
      o.retryWindowSeconds = retry)
    (hnow : os.Pairwise fun o o' => o.now ≤ o'.now) (hquiet : ∀ o ∈ os, ¬ o.Releases)
    (hhealthy : state.lastHealthyAt ≠ none) :
    AttemptsBounded m retry (recoverySteps state os) := by
  intro before first after hsteps hfirst
  obtain ⟨hbefore, hstart⟩ := healthy_steps hquiet hhealthy first (by rw [hsteps]; simp)
  rcases hfirst with hsets | ⟨haction, -⟩
  · obtain ⟨rest, hrest, hsuffix⟩ := recoverySteps_split hsteps
    rw [recoverySteps] at hrest
    obtain ⟨-, rfl⟩ := cons_eq_cons.mp hrest
    have hmem : ∀ o ∈ rest, o ∈ os := fun o ho =>
      hsuffix.subset (mem_cons_of_mem _ ho)
    have hfirstQuiet := hquiet _ (hsuffix.subset mem_cons_self)
    obtain ⟨hnext, hwindow, hattempts⟩ := hsets.opens hfirstQuiet hbefore
    have hle := restarts_le (fun o ho => hconst o (hmem o ho))
      (pairwise_cons.mp (hnow.sublist hsuffix.sublist)).2
      (fun o ho => hquiet o (hmem o ho)) hnext hwindow
    have hone : (if decide (first.Attempts ∧ first.observation.now ≤
        first.observation.now + retry) = true then 1 else 0 : ℕ) ≤ 1 := by
      split <;> omega
    rw [hattempts] at hle
    rw [countP_cons]
    simp only [RecoveryStep.decision] at hle ⊢
    omega
  · exact absurd haction hstart

/-- **The number of attempts.**  Over observations that never release the bundle, the
attempts of every window are bounded exactly if the bundle has been healthy before, or
if no more failed probes are reached within a window of the first. -/
theorem attempts_bounded_iff (hconst : ∀ o ∈ os, o.maxRestartAttempts = m ∧
      o.retryWindowSeconds = retry)
    (hnow : os.Pairwise fun o o' => o.now ≤ o'.now)
    (hquiet : ∀ o ∈ os, o.probeOk ≠ some true ∧ o.rejoinRequested = false) :
    AttemptsBounded m retry (recoverySteps state os) ↔
      state.lastHealthyAt ≠ none ∨ ∀ first ∈ (failedProbes state os).head?,
        ((failedProbes state os).countP fun o => decide (o.now ≤ first.now + retry) : ℤ) ≤
          max 1 m := by
  have hquiet' : ∀ o ∈ os, ¬ o.Releases := by
    rintro o ho (h | h)
    · rw [(hquiet o ho).2] at h
      cases h
    · exact (hquiet o ho).1 h
  by_cases hhealthy : state.lastHealthyAt = none
  swap
  · exact iff_of_true (attemptsBounded_of_healthy hconst hnow hquiet' hhealthy) (Or.inl hhealthy)
  obtain ⟨hprobes, hall⟩ := attempts_of_never hhealthy hquiet'
  constructor
  · intro hbounded
    refine Or.inr fun probe hprobe => ?_
    -- The first reached probe is the first `START`.
    obtain ⟨rest, hrest⟩ := List.head?_eq_some_iff.mp hprobe
    rw [← hprobes] at hrest
    obtain ⟨first, attempts, hfilter, rfl, -⟩ := map_eq_cons_iff.mp hrest
    obtain ⟨before, after, hsteps, hbefore, hfirst, -⟩ := filter_eq_cons_iff.mp hfilter
    have hattempts : first.Attempts := by simpa using hfirst
    have hnone : ∀ step ∈ before, ¬ step.Attempts := fun step hstep => by
      simpa using hbefore step hstep
    obtain ⟨-, -, hcount⟩ := attempts_from_first hhealthy hquiet' hsteps hattempts hnone
    rw [← hcount]
    refine hbounded before first after hsteps (Or.inr ⟨?_, fun step hstep haction => ?_⟩)
    · exact (hall first (by rw [hsteps]; simp)).2 hattempts
    · exact hnone step hstep (Or.inl haction)
  · rintro (h | hcond)
    · exact absurd hhealthy h
    intro before first after hsteps hfirst
    rcases hfirst with hsets | ⟨haction, hbefore⟩
    · exact absurd hsets (hall first (by rw [hsteps]; simp)).1
    have hnone : ∀ step ∈ before, ¬ step.Attempts := by
      intro step hstep hattempts
      exact hbefore step hstep ((hall step (by rw [hsteps]; simp [hstep])).2 hattempts)
    obtain ⟨rest, hhead, hcount⟩ :=
      attempts_from_first hhealthy hquiet' hsteps (Or.inl haction) hnone
    rw [hcount]
    exact hcond _ (by rw [hhead]; rfl)

/-- Three failed probes of a new bundle are three attempts, which is what the default
configuration allows. -/
theorem attempts_bounded_three :
    AttemptsBounded 3 300
      (recoverySteps {} [failedProbe 1, failedProbe 2, failedProbe 3]) :=
  (attempts_bounded_iff (by decide +kernel) (by decide +kernel) (by decide +kernel)).mpr
    (by decide +kernel)

/-- Four failed probes of a new bundle within the window of the first. -/
def neverHealthy : List RecoveryObservation :=
  [failedProbe 1, failedProbe 2, failedProbe 3, failedProbe 4]

/-- The fourth probe starts the bundle a fourth time. -/
theorem neverHealthy_not_attemptsBounded :
    (∀ o ∈ neverHealthy, o.maxRestartAttempts = 3 ∧ o.retryWindowSeconds = 300) ∧
      neverHealthy.Pairwise (fun o o' => o.now ≤ o'.now) ∧
      (∀ o ∈ neverHealthy, o.probeOk ≠ some true ∧ o.rejoinRequested = false) ∧
      ¬ AttemptsBounded 3 300 (recoverySteps {} neverHealthy) := by
  refine ⟨by decide +kernel, by decide +kernel, by decide +kernel, fun h => ?_⟩
  have hcount := h [] ((recoverySteps {} neverHealthy).get ⟨0, by decide +kernel⟩)
    ((recoverySteps {} neverHealthy).drop 1) (by decide +kernel)
    (Or.inr ⟨by decide +kernel, by simp⟩)
  revert hcount
  decide +kernel

end Attempts

end GpuManager.Lifecycle
