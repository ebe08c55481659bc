import GpuManager.Lifecycle.Recovery

/-!
# The spacing of restarts

A tick of the supervisor calls `reduce_recovery` without a probe, and only if the answer is
`PROBE` does it call again, at the same time, with the result of the probe.  The first call is
where the cooldown is tested, and it is tested in the phases `RECOVERING` and `CRASHED` only:
the skipping branches rewrite the phase and keep the time of the last restart, and the tick after
them probes at once.

`restarts_spaced`: in a run in which no failed probe finds the time of a recent restart under
another phase, restarts are spaced by the configured interval.  The invariant says what a restart
leaves behind until the bundle is healthy or rejoined: its time, or the interval is over.
-/

namespace GpuManager.Lifecycle

open List

/-- What one tick is given; the result of the probe counts only if the probe is made. -/
structure RecoveryTick where
  observation : RecoveryObservation
  probeOk : Bool

/-- The call without a probe. -/
def RecoveryTick.asks (tick : RecoveryTick) (state : RecoveryState) : RecoveryStep :=
  ⟨state, { tick.observation with probeOk := none }⟩

def RecoveryTick.probes (tick : RecoveryTick) (state : RecoveryState) : RecoveryStep :=
  ⟨(tick.asks state).decision.next, { tick.observation with probeOk := some tick.probeOk }⟩

def tickSteps : RecoveryState → List RecoveryTick → List RecoveryStep
  | _, [] => []
  | state, tick :: ticks =>
    if (tick.asks state).decision.action = .probe then
      tick.asks state :: tick.probes state ::
        tickSteps (tick.probes state).decision.next ticks
    else tick.asks state :: tickSteps (tick.asks state).decision.next ticks

namespace RecoveryStep

def Heals (step : RecoveryStep) : Prop := step.observation.probeOk = some true

def Rejoins (step : RecoveryStep) : Prop :=
  ¬ step.observation.Blocking ∧ step.before.phase = .faulted ∧
    step.observation.rejoinRequested = true

/-- A failed probe does not find the time of a recent restart under a phase in which the cooldown
is not tested. -/
def Cooled (step : RecoveryStep) : Prop :=
  step.observation.probeOk = some false → ¬ step.observation.Blocking →
    ∀ last ∈ step.before.lastRestartAt,
      step.observation.now - last < step.observation.minRestartIntervalSeconds →
      step.before.phase = .recovering ∨ step.before.phase = .crashed

instance (step : RecoveryStep) : Decidable step.Heals := by
  unfold Heals
  infer_instance

instance (step : RecoveryStep) : Decidable step.Rejoins := by
  unfold Rejoins
  infer_instance

instance (step : RecoveryStep) : Decidable step.Cooled := by
  unfold Cooled
  infer_instance

end RecoveryStep

/-- Two attempts without a good probe and without a rejoin between them are at least `interval`
apart. -/
def RestartsSpaced (interval : ℚ) (steps : List RecoveryStep) : Prop :=
  ∀ before first between second after,
    steps = before ++ first :: (between ++ second :: after) →
    first.Attempts → second.Attempts →
    (∀ step ∈ between, ¬ step.Heals ∧ ¬ step.Rejoins) →
    interval ≤ second.observation.now - first.observation.now

/-! ## What one call does -/

section Calls

variable {state : RecoveryState} {o : RecoveryObservation} {tick : RecoveryTick}

/-- Without a probe the state is kept, and the probe is asked for once the cooldown is over. -/
theorem reduceProbe_unasked (hprobe : o.probeOk = none) :
    (reduceProbe state o).next = state ∧
      ((reduceProbe state o).action = .skip ∨ (reduceProbe state o).action = .probe) ∧
      ((reduceProbe state o).action = .probe →
        (state.phase = .recovering ∨ state.phase = .crashed) →
        ∀ last ∈ state.lastRestartAt, o.minRestartIntervalSeconds ≤ o.now - last) := by
  unfold reduceProbe
  rw [hprobe]
  simp only
  split
  · exact ⟨rfl, Or.inl rfl, fun h => by cases h⟩
  rename_i hover
  refine ⟨rfl, Or.inr rfl, fun _ hphase last hlast => ?_⟩
  by_contra hshort
  exact hover ⟨hphase, last, hlast, not_le.mp hshort⟩

/-- Unless it rejoins, a call without a probe keeps the time of the last restart; where it asks for
a probe it keeps the state, and the cooldown that is tested is over. -/
theorem asks_quiet (hrejoins : ¬ (tick.asks state).Rejoins) :
    (tick.asks state).decision.next.lastRestartAt = state.lastRestartAt ∧
      ((tick.asks state).decision.action = .probe →
        (tick.asks state).decision.next = state ∧ ¬ tick.observation.Blocking ∧
          state.phase ≠ .faulted ∧
          ((state.phase = .recovering ∨ state.phase = .crashed) →
            ∀ last ∈ state.lastRestartAt,
              tick.observation.minRestartIntervalSeconds ≤ tick.observation.now - last)) := by
  have hdecision : (tick.asks state).decision = reduceRecovery state (tick.asks state).observation :=
    rfl
  rw [hdecision]
  by_cases hblocking : (tick.asks state).observation.Blocking
  · obtain ⟨phase, -, haction, hnext⟩ := reduceRecovery_of_blocking hblocking state
    refine ⟨by rw [hnext]; rfl, fun hprobe => ?_⟩
    rw [haction] at hprobe
    cases hprobe
  · by_cases hphase : state.phase = .faulted
    · have hrejoin : (tick.asks state).observation.rejoinRequested = false := by
        by_contra hrequested
        exact hrejoins ⟨hblocking, hphase, by simpa using hrequested⟩
      rw [reduceRecovery_of_faulted hblocking hphase hrejoin]
      exact ⟨rfl, fun hprobe => by cases hprobe⟩
    · rw [reduceRecovery_of_closed hblocking hphase]
      have hunasked : (tick.asks state).observation.probeOk = none := rfl
      obtain ⟨hnext, -, hover⟩ := reduceProbe_unasked hunasked
      rw [hnext]
      exact ⟨rfl, fun hprobe => ⟨rfl, hblocking, hphase, hover hprobe⟩⟩

/-- An attempt is the answer to a failed probe, and its time is kept. -/
theorem reduceProbe_attempts
    (h : (reduceProbe state o).action = .start ∨ (reduceProbe state o).action = .restart) :
    o.probeOk = some false ∧ (reduceProbe state o).next.lastRestartAt = some o.now := by
  unfold reduceProbe at h ⊢
  split
  · rename_i hprobe
    rw [hprobe] at h
    simp only at h
    split at h <;> rcases h with h | h <;> cases h
  · rename_i hprobe
    rw [hprobe] at h
    rcases h with h | h <;> cases h
  · rename_i hprobe
    rw [hprobe] at h
    refine ⟨hprobe, ?_⟩
    cases hhealthy : state.lastHealthyAt with
    | none => rfl
    | some at' =>
      simp only [hhealthy] at h
      simp only
      unfold reduceHealthLost at h ⊢
      split
      · rename_i hexhausted
        rw [if_pos hexhausted] at h
        rcases h with h | h <;> cases h
      · rfl

theorem attempts_failed {step : RecoveryStep} (h : step.Attempts) :
    step.observation.probeOk = some false ∧
      step.decision.next.lastRestartAt = some step.observation.now := by
  obtain ⟨state, o⟩ := step
  have hskip : ∀ {reason : String} {next : RecoveryState},
      reduceRecovery state o = decision .skip reason state next → False := by
    intro reason next heq
    unfold RecoveryStep.Attempts RecoveryStep.decision at h
    rw [heq] at h
    rcases h with h | h <;> cases h
  by_cases hblocking : o.Blocking
  · obtain ⟨phase, -, haction, -⟩ := reduceRecovery_of_blocking hblocking state
    unfold RecoveryStep.Attempts RecoveryStep.decision at h
    rw [haction] at h
    rcases h with h | h <;> cases h
  · by_cases hphase : state.phase = .faulted
    · cases hrejoin : o.rejoinRequested with
      | false => exact (hskip (reduceRecovery_of_faulted hblocking hphase hrejoin)).elim
      | true =>
        unfold RecoveryStep.Attempts RecoveryStep.decision at *
        rw [reduceRecovery_of_rejoin hblocking hphase hrejoin] at *
        exact reduceProbe_attempts h
    · unfold RecoveryStep.Attempts RecoveryStep.decision at *
      rw [reduceRecovery_of_closed hblocking hphase] at *
      exact reduceProbe_attempts h

theorem asks_not_attempts (tick : RecoveryTick) (state : RecoveryState) :
    ¬ (tick.asks state).Attempts := by
  intro h
  cases (attempts_failed h).1

end Calls

/-! ## A run of ticks -/

section Runs

variable {state : RecoveryState} {ticks : List RecoveryTick} {interval time : ℚ}

/-- **What a restart leaves behind.**  As long as the bundle is neither healthy nor rejoined, the
time of the restart is kept or the interval is over; so the next attempt is spaced. -/
theorem spaced_since {between after : List RecoveryStep} {second : RecoveryStep}
    (hinterval : ∀ tick ∈ ticks, tick.observation.minRestartIntervalSeconds = interval)
    (hordered : ticks.Pairwise fun a b => a.observation.now ≤ b.observation.now)
    (hcooled : ∀ step ∈ tickSteps state ticks, step.Cooled)
    (hsince : state.lastRestartAt = some time ∨
      ∀ tick ∈ ticks, interval ≤ tick.observation.now - time)
    (hsteps : tickSteps state ticks = between ++ second :: after) (hsecond : second.Attempts)
    (hquiet : ∀ step ∈ between, ¬ step.Heals ∧ ¬ step.Rejoins) :
    interval ≤ second.observation.now - time := by
  induction ticks generalizing state between with
  | nil => simp [tickSteps] at hsteps
  | cons tick ticks ih =>
    rw [forall_mem_cons] at hinterval
    rw [pairwise_cons] at hordered
    -- The first call is not the attempt.
    have hasks : ∀ rest, tick.asks state :: rest = between ++ second :: after →
        ∃ between', between = tick.asks state :: between' ∧
          rest = between' ++ second :: after := by
      intro rest hrest
      cases between with
      | nil =>
        obtain ⟨heq, -⟩ := cons_eq_cons.mp hrest
        exact absurd (heq ▸ hsecond) (asks_not_attempts tick state)
      | cons step between' =>
        obtain ⟨rfl, htail⟩ := cons_eq_cons.mp hrest
        exact ⟨between', rfl, htail⟩
    unfold tickSteps at hsteps hcooled
    split at hsteps
    · rename_i hprobe
      rw [if_pos hprobe, forall_mem_cons, forall_mem_cons] at hcooled
      obtain ⟨between', rfl, hrest⟩ := hasks _ hsteps
      rw [forall_mem_cons] at hquiet
      obtain ⟨-, hstate⟩ := asks_quiet hquiet.1.2
      obtain ⟨hnext, hblocking, -, hover⟩ := hstate hprobe
      have hfailed : tick.probeOk = false → interval ≤ tick.observation.now - time := by
        intro hfalse
        rcases hsince with hlast | hspaced
        · by_contra hshort
          rw [not_le, ← hinterval.1] at hshort
          have hprobes := hcooled.2.1 (congrArg some hfalse) hblocking
          rw [show (tick.probes state).before = state from hnext] at hprobes
          exact not_le.mpr hshort (hover (hprobes time hlast hshort) time hlast)
        · exact hspaced tick mem_cons_self
      cases between' with
      | nil =>
        obtain ⟨rfl, -⟩ := cons_eq_cons.mp hrest
        exact hfailed (Option.some.inj (attempts_failed hsecond).1)
      | cons step between' =>
        obtain ⟨rfl, htail⟩ := cons_eq_cons.mp hrest
        rw [forall_mem_cons] at hquiet
        have hfalse : tick.probeOk = false := by
          by_contra htrue
          exact hquiet.2.1.1 (congrArg some (by simpa using htrue))
        refine ih hinterval.2 hordered.2 hcooled.2.2 (Or.inr fun later hlater => ?_) htail
          hquiet.2.2
        have hnow := hordered.1 later hlater
        have hspaced := hfailed hfalse
        linarith
    · rename_i hprobe
      rw [if_neg hprobe, forall_mem_cons] at hcooled
      obtain ⟨between', rfl, hrest⟩ := hasks _ hsteps
      rw [forall_mem_cons] at hquiet
      obtain ⟨hkept, -⟩ := asks_quiet hquiet.1.2
      refine ih hinterval.2 hordered.2 hcooled.2 ?_ hrest hquiet.2
      rcases hsince with hlast | hspaced
      · exact Or.inl (hkept.trans hlast)
      · exact Or.inr fun later hlater => hspaced later (mem_cons_of_mem _ hlater)

/-- What follows an attempt is the run of the later ticks. -/
theorem tickSteps_split {before rest : List RecoveryStep} {first : RecoveryStep}
    (hsteps : tickSteps state ticks = before ++ first :: rest) (hfirst : first.Attempts) :
    ∃ later, later <:+ ticks ∧ rest = tickSteps first.decision.next later := by
  induction ticks generalizing state before with
  | nil => simp [tickSteps] at hsteps
  | cons tick ticks ih =>
    have hlater : ∀ {state' : RecoveryState} {before' : List RecoveryStep},
        tickSteps state' ticks = before' ++ first :: rest →
        ∃ later, later <:+ tick :: ticks ∧ rest = tickSteps first.decision.next later := by
      intro state' before' h
      obtain ⟨later, hsuffix, hrest⟩ := ih h
      exact ⟨later, hsuffix.trans (suffix_cons tick ticks), hrest⟩
    unfold tickSteps at hsteps
    cases before with
    | nil =>
      exfalso
      split at hsteps
      · exact asks_not_attempts tick state ((cons_eq_cons.mp hsteps).1 ▸ hfirst)
      · exact asks_not_attempts tick state ((cons_eq_cons.mp hsteps).1 ▸ hfirst)
    | cons step before =>
      split at hsteps
      · obtain ⟨-, hsteps⟩ := cons_eq_cons.mp hsteps
        cases before with
        | nil =>
          obtain ⟨rfl, hrest⟩ := cons_eq_cons.mp hsteps
          exact ⟨ticks, suffix_cons tick ticks, hrest.symm⟩
        | cons step before => exact hlater (cons_eq_cons.mp hsteps).2
      · exact hlater (cons_eq_cons.mp hsteps).2

/-- **The spacing of restarts.**  In a run in which every failed probe that finds the time of a
recent restart finds it under a phase in which the cooldown is tested, restarts are spaced. -/
theorem restarts_spaced
    (hinterval : ∀ tick ∈ ticks, tick.observation.minRestartIntervalSeconds = interval)
    (hordered : ticks.Pairwise fun a b => a.observation.now ≤ b.observation.now)
    (hcooled : ∀ step ∈ tickSteps state ticks, step.Cooled) :
    RestartsSpaced interval (tickSteps state ticks) := by
  intro before first between second after hsteps hfirst hsecond hquiet
  obtain ⟨later, hsuffix, hrest⟩ := tickSteps_split hsteps hfirst
  refine spaced_since (fun tick htick => hinterval tick (hsuffix.mem htick))
    (hordered.sublist hsuffix.sublist) (fun step hstep => hcooled step ?_)
    (Or.inl (attempts_failed hfirst).2) hrest.symm hsecond hquiet
  rw [hsteps, hrest]
  exact mem_append_right _ (mem_cons_of_mem _ hstep)

end Runs

/-- A tick of the default configuration whose probe fails. -/
def failingTick (now : ℚ) : RecoveryTick := ⟨{ now := now }, false⟩

/-- A restart, a tick in the cooldown, and the next restart. -/
theorem restarts_spaced_cooldown :
    RestartsSpaced 30 (tickSteps healthy [failingTick 1, failingTick 2, failingTick 31]) :=
  restarts_spaced (by decide +kernel) (by decide +kernel) (by decide +kernel)

/-- A maintenance window of one tick between two failed probes. -/
def maintained : List RecoveryTick :=
  [failingTick 1, ⟨{ now := 2, maintenanceMode := true }, false⟩, failingTick 3]

/-- The bundle is restarted twice within two seconds. -/
theorem maintained_not_spaced :
    maintained.Pairwise (fun a b => a.observation.now ≤ b.observation.now) ∧
      ¬ RestartsSpaced 30 (tickSteps healthy maintained) := by
  refine ⟨by decide +kernel, fun h => ?_⟩
  have hspaced := h ((tickSteps healthy maintained).take 1)
    ((tickSteps healthy maintained).get ⟨1, by decide +kernel⟩)
    (((tickSteps healthy maintained).drop 2).take 2)
    ((tickSteps healthy maintained).get ⟨4, by decide +kernel⟩) []
    (by decide +kernel) (by decide +kernel) (by decide +kernel) (by decide +kernel)
  revert hspaced
  decide +kernel

end GpuManager.Lifecycle
