import GpuManager.Coordinator.Serial

/-!
# The artifact of a run that does not succeed

A run keeps three artifacts: the current one, the first one of a generation, and the one that
the quality control accepted last.  A run that ends without success shall deliver the accepted
one, or else the first generated one, or else none.

What is asked is read off the history: `lastPassed` and `firstGenerated` look at the recorded
results only.  The state agrees with them but for three gaps.  The verdict and the artifact that
it accepts are saved one after the other, and a process that stops in between leaves the older
one; a passing verdict that comes with a failed result, or when there is no artifact, accepts
nothing; and a run with no artifact to fall back to keeps the current one, whoever made it.
-/

namespace GpuManager.Coordinator

open AtomicProgram PipelineCoordinator PipelineRunState Option

/-! ## What shall be delivered -/

/-- The result is that of a quality control whose verdict passed. -/
def PipelineRunState.passes (state : PipelineRunState) (stageId : String) (result : StageResult) :
    Bool :=
  (state.compiledPipeline.stage? stageId).any (fun stage => stage.kind == .qc) &&
    result.qcVerdict.any fun verdict => verdict.passed

/-- The result is that of a generation that has published an artifact. -/
def PipelineRunState.generates (state : PipelineRunState) (stageId : String)
    (result : StageResult) : Bool :=
  (state.compiledPipeline.stage? stageId).any (fun stage => stage.kind.isGeneration) &&
    result.artifact.isSome

/-- The artifact that is current at a passing verdict. -/
def passedArtifact (runId : String) (e : Event World Cmd) : Option (Option ArtifactRef) :=
  match e.cmd with
  | .hset (.recorded stageId result) state =>
    if state.runId = runId ∧ state.passes stageId result = true then some state.artifact else none
  | _ => none

def generatedArtifact (runId : String) (e : Event World Cmd) : Option ArtifactRef :=
  match e.cmd with
  | .hset (.recorded stageId result) state =>
    if state.runId = runId ∧ state.generates stageId result = true then state.artifact else none
  | _ => none

/-- The artifact that was current at the last passing verdict. -/
def lastPassed (runId : String) (h : List (Event World Cmd)) : Option (Option ArtifactRef) :=
  (h.filterMap (passedArtifact runId)).getLast?

def firstGenerated (runId : String) (h : List (Event World Cmd)) : Option ArtifactRef :=
  (h.filterMap (generatedArtifact runId)).head?

def deliverable (runId : String) (h : List (Event World Cmd)) : Option ArtifactRef :=
  match lastPassed runId h with
  | some artifact => artifact
  | none => firstGenerated runId h

/-- A run that has ended without success delivers this. -/
def Delivers (runId : String) (h : List (Event World Cmd)) (w : World) : Prop :=
  ∀ state code, w.states runId = some state → state.terminalCode = some code → code ≠ .success →
    state.artifact = deliverable runId h

variable {e : Event World Cmd} {result : StageResult} {w' : World} {stage : Stage}

theorem artifact_of_foreign {runId : String} (h : Foreign runId e.cmd) :
    passedArtifact runId e = none ∧ generatedArtifact runId e = none := by
  obtain ⟨cmd, w⟩ := e
  cases cmd with
  | hset point state =>
    have hother : state.runId ≠ runId := h
    cases point with
    | recorded stageId result => simp [passedArtifact, generatedArtifact, hother]
    | _ => exact ⟨rfl, rfl⟩
  | _ => exact ⟨rfl, rfl⟩

theorem artifact_of_not_recorded {runId : String}
    (h : ∀ stageId result state, e.cmd ≠ .hset (.recorded stageId result) state) :
    passedArtifact runId e = none ∧ generatedArtifact runId e = none := by
  obtain ⟨cmd, w⟩ := e
  cases cmd with
  | hset point state =>
    cases point with
    | recorded stageId result => exact absurd rfl (h stageId result state)
    | _ => exact ⟨rfl, rfl⟩
  | _ => exact ⟨rfl, rfl⟩

theorem lastPassed_concat (runId : String) (h : List (Event World Cmd)) (e : Event World Cmd) :
    lastPassed runId (h ++ [e]) = (passedArtifact runId e).or (lastPassed runId h) := by
  unfold lastPassed
  rw [List.filterMap_append]
  cases hpassed : passedArtifact runId e with
  | none | some artifact => simp [hpassed]

theorem firstGenerated_concat (runId : String) (h : List (Event World Cmd)) (e : Event World Cmd) :
    firstGenerated runId (h ++ [e]) = (firstGenerated runId h).or (generatedArtifact runId e) := by
  unfold firstGenerated
  rw [List.filterMap_append, List.head?_append]
  cases hgenerated : generatedArtifact runId e with
  | none | some artifact => simp [hgenerated]

/-- A command that records no result of the run. -/
theorem artifacts_concat {runId : String} {h : List (Event World Cmd)}
    (hnone : passedArtifact runId e = none ∧ generatedArtifact runId e = none) :
    lastPassed runId (h ++ [e]) = lastPassed runId h ∧
      firstGenerated runId (h ++ [e]) = firstGenerated runId h := by
  rw [lastPassed_concat, firstGenerated_concat, hnone.1, hnone.2]
  exact ⟨rfl, or_none⟩

/-! ## The three gaps -/

/-- A verdict has accepted the current artifact, but it is not yet kept. -/
def Local.unkept (l : Local) (base : PipelineRunState) : Bool :=
  match l.point with
  | some (.recorded stageId result) =>
    base.passes stageId result && base.lastGoodArtifact != base.artifact
  | _ => false

/-- A process does not stop so while it holds the run. -/
def StopsKept (runId : String) (_ : World) (l : Local) : Prop :=
  ∀ base ∈ l.base, base.runId = runId → l.unkept base = false

instance (runId : String) (w : World) (l : Local) : Decidable (StopsKept runId w l) :=
  inferInstanceAs (Decidable (∀ base ∈ l.base, base.runId = runId → l.unkept base = false))

/-- A verdict that passes comes with a result that has not failed and when there is an artifact;
and a run that ends without success has an artifact to fall back to if it has any. -/
def AcceptsArtifact (runId : String) (e : Event World Cmd) : Bool :=
  match e.cmd with
  | .hset (.recorded stageId result) state =>
    state.runId != runId || !state.passes stageId result ||
      (validatedStatus result != .failed && state.artifact.isSome)
  | .hset .terminal state =>
    state.runId != runId || state.terminalCode == some .success ||
      (e.before.states runId).all fun base =>
        base.artifact.isNone || base.fallbackArtifact.isSome
  | _ => true

/-! ## What a save does to the artifacts -/

structure SameArtifacts (base state : PipelineRunState) : Prop where
  artifact : state.artifact = base.artifact
  initial : state.initialArtifact = base.initialArtifact
  lastGood : state.lastGoodArtifact = base.lastGoodArtifact

section Saves

variable {coordinator : PipelineCoordinator} {l : Local} {base state : PipelineRunState}
  {point : SavePoint}

theorem stage?_of_currentStage (h : base.currentStage = some stage) :
    base.compiledPipeline.stage? stage.id = some stage := by
  unfold currentStage at h
  obtain ⟨id, -, hfound⟩ := bind_eq_some_iff.mp h
  exact CompiledPipeline.stage?_of_mem (CompiledPipeline.mem_of_stage? hfound).1

theorem passes_iff (h : base.currentStage = some stage) :
    base.passes stage.id result = true ↔
      stage.kind = .qc ∧ ∃ verdict, result.qcVerdict = some verdict ∧ verdict.passed = true := by
  unfold passes
  rw [stage?_of_currentStage h]
  cases result.qcVerdict with
  | none | some verdict => simp

/-- What a save makes of the artifacts of a run. -/
theorem Saves.artifact_cases (h : Saves coordinator l base point state) :
    (∃ (stage : Stage) (result : StageResult) (artifact : Option ArtifactRef),
      point = .recorded stage.id result ∧ base.currentStage = some stage ∧ l.Settled ∧
        Live state ∧ artifact.isSome = result.artifact.isSome ∧
        state.artifact = artifact.or base.artifact ∧
        state.initialArtifact = (base.publishArtifact stage artifact).initialArtifact ∧
        state.lastGoodArtifact = base.lastGoodArtifact ∧
        state.terminalCode = base.terminalCode) ∨
    (point = .lastGood ∧ state = { base with lastGoodArtifact := base.artifact } ∧
      ∃ stageId result, l.point = some (.recorded stageId result) ∧
        base.passes stageId result = true) ∨
    (point = .terminal ∧ ∃ ended code reason, state = terminal ended code reason ∧
      SameArtifacts base ended) ∨
    (point ≠ .lastGood ∧ (∀ stageId result, point ≠ .recorded stageId result) ∧
      SameArtifacts base state ∧ state.terminalCode = base.terminalCode) := by
  -- An execution that is not recorded leaves the artifacts.
  have hcopy : ∀ {stage a copy} {state : PipelineRunState},
      Executing coordinator base stage a copy → SameArtifacts copy state →
      state.terminalCode = copy.terminalCode →
      SameArtifacts base state ∧ state.terminalCode = base.terminalCode := by
    intro stage a copy state hexecuting hartifacts hcode
    have hbase := hexecuting.copy_eq
    subst hbase
    exact ⟨⟨hartifacts.artifact, hartifacts.initial, hartifacts.lastGood⟩, hcode⟩
  have hended : ∀ {ended : PipelineRunState} {code : TerminalCode} {reason : String},
      SameArtifacts base ended → SavePoint.terminal = .terminal ∧
        ∃ ended' code' reason', ended.terminal code reason =
          terminal ended' code' reason' ∧ SameArtifacts base ended' :=
    fun hartifacts => ⟨rfl, _, _, _, rfl, hartifacts⟩
  cases h with
  | @recorded stage a copy result output artifact executing settled closed source published =>
    left
    have hcopyEq := executing.copy_eq
    have hlive := executing.copy_live
    rw [recordedState_eq]
    refine ⟨stage, result, artifact, rfl, executing.current, settled,
      ⟨hlive.running, hlive.wanted⟩, published, ?_, ?_, ?_, ?_⟩
    · rw [hcopyEq]
      rfl
    · rw [hcopyEq]
      cases artifact <;> rfl
    · rw [hcopyEq]
      rfl
    · rw [hcopyEq]
      rfl
  | @lastGood stage result verdict live current kind point verdict_eq passed =>
    refine Or.inr (Or.inl ⟨rfl, rfl, stage.id, result, point, ?_⟩)
    exact (passes_iff current).mpr ⟨kind, verdict, verdict_eq, passed⟩
  | finished | exhausted | failed | cascaded =>
    exact Or.inr (Or.inr (Or.inl (hended ⟨rfl, rfl, rfl⟩)))
  | childAccepted executing _ _ _ _ | childPolled executing _ _ _ _ | handleSaved executing _
  | inFlight executing _ =>
    exact Or.inr (Or.inr (Or.inr ⟨(by intro h; cases h), (fun _ _ h => by cases h),
      hcopy executing ⟨rfl, rfl, rfl⟩ rfl⟩))
  | _ =>
    exact Or.inr (Or.inr (Or.inr ⟨(by intro h; cases h), (fun _ _ h => by cases h),
      ⟨rfl, rfl, rfl⟩, rfl⟩))

/-- After a passing verdict the next save keeps the artifact that it accepted. -/
theorem Saves.lastGood_of_passing {stageId : String}
    (h : Saves coordinator l base point state) (hlive : Live base)
    (hpoint : l.point = some (.recorded stageId result)) (hpasses : base.passes stageId result = true)
    (hstatus : validatedStatus result ≠ .failed) (hartifact : base.artifact ≠ none) :
    point = .lastGood := by
  have hunsettled : ¬ l.Settled := fun h => h.answered.not_recorded stageId result hpoint
  have hdone : ∀ {p : SavePoint}, l.point = some p → p = .recorded stageId result := by
    intro p hp
    exact some.inj (hp.symm.trans hpoint)
  have honward : ¬ Onward l base := by
    intro h
    cases h with
    | skipped _ _ early =>
      rcases early with ⟨hnone, -⟩ | hentered
      · rw [hnone] at hpoint
        cases hpoint
      · cases hdone hentered
    | @recorded stage other current point _ passed =>
      obtain ⟨rfl, rfl⟩ := SavePoint.recorded.inj (hdone point)
      obtain ⟨hkind, verdict, hverdict, -⟩ := (passes_iff current).mp hpasses
      exact hartifact (passed verdict hverdict hkind).2
    | accepted _ point => cases hdone point
  have hfails : ¬ Fails l base := by
    intro h
    cases h with
    | stuck onward => exact honward onward
    | failure _ point failed =>
      obtain ⟨rfl, rfl⟩ := SavePoint.recorded.inj (hdone point)
      exact hstatus failed
    | @verdict stage other verdict current point kind verdict_eq failed =>
      obtain ⟨rfl, rfl⟩ := SavePoint.recorded.inj (hdone point)
      obtain ⟨-, passing, hverdict, hpassed⟩ := (passes_iff current).mp hpasses
      obtain rfl : passing = verdict := some.inj (hverdict.symm.trans verdict_eq)
      rw [failed] at hpassed
      cases hpassed
  cases h with
  | lastGood => rfl
  | dropped _ _ _ _ early | entered _ _ _ _ early | exhausted _ _ early _ | intent _ early _ =>
    cases hpoint.symm.trans early
  | started _ _ _ _ early =>
    rcases early with ⟨hnone, -⟩ | hentered
    · cases hpoint.symm.trans hnone
    · cases hdone hentered
  | childAccepted _ answered _ _ _ => exact absurd hpoint (answered.not_recorded stageId result)
  | childPolled _ settled _ _ _ | handleSaved _ settled | inFlight _ settled
  | recorded _ settled _ _ _ =>
    exact absurd settled hunsettled
  | @correction stage other verdict _ _ _ _ live current kind point verdict_eq failed loop bounded =>
    obtain ⟨rfl, rfl⟩ := SavePoint.recorded.inj (hdone point)
    exact absurd (.verdict current point kind verdict_eq failed) hfails
  | retry _ current point failed _ =>
    obtain ⟨rfl, rfl⟩ := SavePoint.recorded.inj (hdone point)
    exact absurd failed hstatus
  | queued _ onward _ | stayed _ onward _ _ _ | moved _ onward _ _ _ | finished _ onward _ _ _ =>
    exact absurd onward honward
  | failed _ _ _ cause => exact absurd cause hfails
  | cascaded _ intended uncancelled _ _ _ =>
    have hwanted := hlive.wanted
    rw [intended, uncancelled] at hwanted
    cases hwanted

theorem terminal_artifact {code : TerminalCode} {reason : String} (hcode : code ≠ .success)
    (h : base.artifact = none ∨ base.fallbackArtifact ≠ none) :
    (base.terminal code reason).artifact = base.fallbackArtifact := by
  unfold terminal
  cases hfallback : base.fallbackArtifact with
  | none =>
    rcases h with hnone | hsome
    · exact hnone
    · exact absurd hfallback hsome
  | some fallback =>
    simp only
    split
    · rfl
    · rename_i hsame
      simpa [hcode] using hsame

end Saves

/-! ## The invariant -/

/-- The artifacts of the state are those of the history, but for a verdict that is not answered
yet. -/
structure DeliveryKept (runId : String) (h : List (Event World Cmd)) (_ : World)
    (state : PipelineRunState) (holder : Option Local) : Prop where
  runId_eq : state.runId = runId
  held : ∀ l, holder = some l → l.base = some state
  unended : state.status = .running → state.terminalCode = none
  generated : state.initialArtifact = firstGenerated runId h
  present : ∀ artifact, lastPassed runId h = some artifact → artifact ≠ none
  passing : ∀ l stageId result, holder = some l → l.point = some (.recorded stageId result) →
    state.passes stageId result = true →
    lastPassed runId h = some state.artifact ∧ validatedStatus result ≠ .failed ∧ Live state
  kept : (∀ l stageId result, holder = some l → l.point = some (.recorded stageId result) →
      state.passes stageId result = false) → state.status = .running →
    state.lastGoodArtifact = (lastPassed runId h).join
  ended : ∀ code, state.terminalCode = some code → code ≠ .success →
    state.artifact = deliverable runId h

/-- What a run falls back to is what shall be delivered. -/
theorem fallbackArtifact_eq {runId : String} {h : List (Event World Cmd)}
    {state : PipelineRunState} (hgenerated : state.initialArtifact = firstGenerated runId h)
    (hpresent : ∀ artifact, lastPassed runId h = some artifact → artifact ≠ none)
    (hkept : state.lastGoodArtifact = (lastPassed runId h).join) :
    state.fallbackArtifact = deliverable runId h := by
  unfold fallbackArtifact deliverable
  rw [hgenerated, hkept]
  cases hlast : lastPassed runId h with
  | none => rfl
  | some artifact =>
    cases artifact with
    | none => exact absurd rfl (hpresent none hlast)
    | some artifact => rfl

section DeliveryKept

variable {d : Deployment} {runId : String} {h : List (Event World Cmd)} {w : World} {l : Local}
  {base state : PipelineRunState} {holder holder' : Option Local}

/-- A command that records no result of the run and leaves its state. -/
theorem DeliveryKept.skip (hK : DeliveryKept runId h w state holder)
    (hnone : passedArtifact runId e = none ∧ generatedArtifact runId e = none)
    (hheld : ∀ l, holder' = some l → l.base = some state)
    (hpoint : ∀ stageId result, (∃ l, holder' = some l ∧ l.point = some (.recorded stageId result)) ↔
      ∃ l, holder = some l ∧ l.point = some (.recorded stageId result)) :
    DeliveryKept runId (h ++ [e]) w' state holder' := by
  obtain ⟨hlast, hfirst⟩ := artifacts_concat (h := h) hnone
  refine ⟨hK.runId_eq, hheld, hK.unended, ?_, ?_, fun l stageId result hl hrecorded => ?_,
    fun hopen => ?_, ?_⟩
  · rw [hfirst]
    exact hK.generated
  · rw [hlast]
    exact hK.present
  · rw [hlast]
    obtain ⟨l', hl', hrecorded'⟩ := (hpoint stageId result).mp ⟨l, hl, hrecorded⟩
    exact hK.passing l' stageId result hl' hrecorded'
  · rw [hlast]
    refine hK.kept fun l stageId result hl hrecorded => ?_
    obtain ⟨l', hl', hrecorded'⟩ := (hpoint stageId result).mpr ⟨l, hl, hrecorded⟩
    exact hopen l' stageId result hl' hrecorded'
  · unfold deliverable
    rw [hlast, hfirst]
    exact hK.ended

variable {artifact : Option ArtifactRef}

/-- Only a generation that publishes an artifact is recorded as such. -/
theorem generatedArtifact_recorded (hrun : state.runId = runId)
    (hstage : state.compiledPipeline.stage? stage.id = some stage)
    (hpublished : artifact.isSome = result.artifact.isSome)
    (hartifact : state.artifact = artifact.or base.artifact) :
    base.initialArtifact.or (generatedArtifact runId ⟨.hset (.recorded stage.id result) state, w⟩) =
      (base.publishArtifact stage artifact).initialArtifact := by
  simp only [generatedArtifact, generates, hrun, hstage, ← hpublished, true_and,
    any_some]
  cases artifact with
  | none => simp [publishArtifact]
  | some published =>
    rw [hartifact]
    cases hkind : stage.kind.isGeneration <;> simp [publishArtifact, hkind]

section

variable (hK : DeliveryKept runId h w base (some l)) {point : SavePoint}
include hK

theorem DeliveryKept.record
    (hrun : state.runId = runId) (hplan : state.compiledPipeline = base.compiledPipeline)
    (haccepts : AcceptsArtifact runId ⟨.hset (.recorded stage.id result) state, w⟩ = true)
    (hcurrent : base.currentStage = some stage) (hsettled : l.Settled) (hlive : Live state)
    (hpublished : artifact.isSome = result.artifact.isSome)
    (hartifact : state.artifact = artifact.or base.artifact)
    (hinitial : state.initialArtifact = (base.publishArtifact stage artifact).initialArtifact)
    (hgood : state.lastGoodArtifact = base.lastGoodArtifact)
    (hcode : state.terminalCode = base.terminalCode) (hrunning : base.status = .running) :
    DeliveryKept runId (h ++ [⟨.hset (.recorded stage.id result) state, w⟩]) w' state
      (some (l.saved (.recorded stage.id result) state)) := by
  have hstage : state.compiledPipeline.stage? stage.id = some stage := by
    rw [hplan]
    exact stage?_of_currentStage hcurrent
  -- Before the record nothing was unanswered.
  have hkept : base.lastGoodArtifact = (lastPassed runId h).join := by
    refine hK.kept (fun l' stageId other hl' hrecorded => ?_) hrunning
    obtain rfl := some.inj hl'
    exact absurd hrecorded (hsettled.answered.not_recorded stageId other)
  have hpassed : passedArtifact runId ⟨.hset (.recorded stage.id result) state, w⟩ =
      if state.passes stage.id result = true then some state.artifact else none := by
    simp [passedArtifact, hrun]
  have haccepted : state.passes stage.id result = true →
      validatedStatus result ≠ .failed ∧ state.artifact ≠ none := by
    intro hpasses
    simpa [AcceptsArtifact, hrun, hpasses, isSome_iff_ne_none] using haccepts
  refine ⟨hrun, fun l' hl' => ?_, fun _ => ?_, ?_, fun found hfound => ?_,
    fun l' stageId other hl' hrecorded hpasses => ?_, fun hopen _ => ?_, fun code hcode' => ?_⟩
  · obtain rfl := some.inj hl'
    rfl
  · exact hcode.trans (hK.unended hrunning)
  · rw [firstGenerated_concat, ← hK.generated, hinitial]
    exact (generatedArtifact_recorded hrun hstage hpublished hartifact).symm
  · rw [lastPassed_concat, hpassed] at hfound
    split at hfound
    · rename_i hpasses
      obtain rfl : state.artifact = found := some.inj hfound
      exact (haccepted hpasses).2
    · exact hK.present found hfound
  · obtain rfl := some.inj hl'
    obtain ⟨rfl, rfl⟩ := SavePoint.recorded.inj (some.inj hrecorded)
    rw [lastPassed_concat, hpassed, if_pos hpasses]
    exact ⟨rfl, (haccepted hpasses).1, hlive⟩
  · have hnot := hopen _ stage.id result rfl rfl
    rw [lastPassed_concat, hpassed, if_neg (by simp [hnot]), hgood]
    exact hkept
  · rw [hcode, hK.unended hrunning] at hcode'
    cases hcode'

/-- A save that records no result, over a state whose verdicts are answered by it or before. -/
theorem DeliveryKept.answer (hrun : state.runId = runId)
    (hpoint : ∀ stageId result, point ≠ .recorded stageId result)
    (hunended : state.status = .running → state.terminalCode = none)
    (hinitial : state.initialArtifact = base.initialArtifact)
    (hgood : state.status = .running → state.lastGoodArtifact = (lastPassed runId h).join)
    (hended : ∀ code, state.terminalCode = some code → code ≠ .success →
      state.artifact = deliverable runId h) :
    DeliveryKept runId (h ++ [⟨.hset point state, w⟩]) w' state (some (l.saved point state)) := by
  have hnone : passedArtifact runId ⟨.hset point state, w⟩ = none ∧
      generatedArtifact runId ⟨.hset point state, w⟩ = none := by
    refine artifact_of_not_recorded fun stageId result other hcmd => ?_
    exact hpoint stageId result (Cmd.hset.inj hcmd).1
  obtain ⟨hlast, hfirst⟩ := artifacts_concat (h := h) hnone
  refine ⟨hrun, fun l' hl' => ?_, hunended, ?_, ?_, fun l' stageId result hl' hrecorded => ?_,
    fun _ hrunning => ?_, ?_⟩
  · obtain rfl := some.inj hl'
    rfl
  · rw [hfirst, hinitial]
    exact hK.generated
  · rw [hlast]
    exact hK.present
  · obtain rfl := some.inj hl'
    exact absurd (some.inj hrecorded) (hpoint stageId result)
  · rw [hlast]
    exact hgood hrunning
  · unfold deliverable
    rw [hlast, hfirst]
    exact hended

/-- A save keeps the artifacts of the state those of the history. -/
theorem DeliveryKept.save (hstored : w.states runId = some base)
    (haccepts : AcceptsArtifact runId ⟨.hset point state, w⟩ = true)
    (hsaves : Saves d.coordinator l base point state) :
    DeliveryKept runId (h ++ [⟨.hset point state, w⟩]) w' state (some (l.saved point state)) := by
  have hrun : state.runId = runId := hsaves.runId_eq.trans hK.runId_eq
  have hrunning := hsaves.base_running
  -- A verdict that is not answered yet is answered by `lastGood`.
  have hlastGood : ∀ stageId result, l.point = some (.recorded stageId result) →
      base.passes stageId result = true → point = .lastGood := by
    intro stageId result hrecorded hpasses
    obtain ⟨hlast, hstatus, hlive⟩ := hK.passing l stageId result rfl hrecorded hpasses
    exact hsaves.lastGood_of_passing hlive hrecorded hpasses hstatus (hK.present _ hlast)
  have hkept : point ≠ .lastGood → base.lastGoodArtifact = (lastPassed runId h).join := by
    intro hpoint
    refine hK.kept (fun l' stageId result hl' hrecorded => ?_) hrunning
    obtain rfl := some.inj hl'
    cases hpasses : base.passes stageId result with
    | false => rfl
    | true => exact absurd (hlastGood stageId result hrecorded hpasses) hpoint
  rcases hsaves.artifact_cases with
    ⟨stage, result, artifact, rfl, hcurrent, hsettled, hlive, hpublished, hartifact, hinitial,
      hgood, hcode⟩ |
    ⟨rfl, rfl, stageId, result, hrecorded, hpasses⟩ | ⟨rfl, ended, code, reason, rfl, hsame⟩ |
    ⟨hgood, hpoint, hsame, hcode⟩
  · exact hK.record hrun hsaves.compiledPipeline_eq haccepts hcurrent hsettled hlive hpublished
      hartifact hinitial hgood hcode hrunning
  · obtain ⟨hlast, -, -⟩ := hK.passing l stageId result rfl hrecorded hpasses
    refine hK.answer hrun (fun _ _ heq => by cases heq) (fun _ => hK.unended hrunning) rfl
      (fun _ => ?_) hK.ended
    rw [hlast]
    rfl
  · have hgood := hkept (fun heq => by cases heq)
    obtain ⟨last, text, hterminal⟩ := terminal_eq ended code reason
    have hcode : (ended.terminal code reason).terminalCode = some code := by rw [hterminal]
    refine hK.answer hrun (fun _ _ heq => by cases heq) (fun hopen => ?_) ?_ (fun hopen => ?_)
      fun other hother hfailed => ?_
    · rw [hterminal] at hopen
      have hover := code.status_isTerminal
      rw [show code.status = .running from hopen] at hover
      cases hover
    · rw [hterminal]
      exact hsame.initial
    · rw [hterminal] at hopen
      have hover := code.status_isTerminal
      rw [show code.status = .running from hopen] at hover
      cases hover
    · obtain rfl : code = other := some.inj (hcode.symm.trans hother)
      have hfallback : ended.fallbackArtifact = base.fallbackArtifact := by
        unfold fallbackArtifact
        rw [hsame.initial, hsame.lastGood]
      have hwhole : ended.artifact = none ∨ ended.fallbackArtifact ≠ none := by
        rw [hfallback, hsame.artifact]
        simpa [AcceptsArtifact, hrun, hcode, hfailed, hstored, isSome_iff_ne_none]
          using haccepts
      rw [terminal_artifact hfailed hwhole, hfallback]
      exact fallbackArtifact_eq hK.generated hK.present hgood
  · refine hK.answer hrun hpoint (fun _ => hcode.trans (hK.unended hrunning)) hsame.initial
      (fun _ => ?_) fun code hother => ?_
    · rw [hsame.lastGood]
      exact hkept hgood
    · rw [hcode, hK.unended hrunning] at hother
      cases hother

end

theorem DeliveryKept.create {pipeline : CompiledPipeline} {requestParams : Fields}
    (hforeign : ∀ e ∈ h, Foreign runId e.cmd) :
    DeliveryKept runId
      (h ++ [⟨.evalSubmitParent (initialState runId pipeline requestParams), w⟩]) w'
      (initialState runId pipeline requestParams) none := by
  have hpassed : lastPassed runId h = none := by
    unfold lastPassed
    rw [List.filterMap_eq_nil_iff.mpr fun e he => (artifact_of_foreign (hforeign e he)).1]
    rfl
  have hgenerated : firstGenerated runId h = none := by
    unfold firstGenerated
    rw [List.filterMap_eq_nil_iff.mpr fun e he => (artifact_of_foreign (hforeign e he)).2]
    rfl
  have hnone : passedArtifact runId
        ⟨.evalSubmitParent (initialState runId pipeline requestParams), w⟩ = none ∧
      generatedArtifact runId
        ⟨.evalSubmitParent (initialState runId pipeline requestParams), w⟩ = none := ⟨rfl, rfl⟩
  obtain ⟨hlast, hfirst⟩ := artifacts_concat (h := h) hnone
  refine ⟨rfl, fun _ hl => (by cases hl), fun _ => rfl, ?_, fun artifact hfound => ?_,
    fun _ _ _ hl => (by cases hl), fun _ _ => ?_, fun code hcode => by cases hcode⟩
  · rw [hfirst, hgenerated]
    rfl
  · rw [hlast, hpassed] at hfound
    cases hfound
  · rw [hlast, hpassed]
    rfl

/-- What is lost with a process that has finished, or has not stopped before it has kept what a
verdict accepted. -/
theorem DeliveryKept.forget (hK : DeliveryKept runId h w state (some l))
    (hstops : l.Settled ∨ StopsKept runId w l) : DeliveryKept runId h w state none := by
  refine ⟨hK.runId_eq, fun _ hl => (by cases hl), hK.unended, hK.generated, hK.present,
    fun _ _ _ hl => (by cases hl), fun _ hrunning => ?_, hK.ended⟩
  by_cases hpending : ∃ stageId result, l.point = some (.recorded stageId result) ∧
      state.passes stageId result = true
  · obtain ⟨stageId, result, hrecorded, hpasses⟩ := hpending
    obtain ⟨hlast, -, -⟩ := hK.passing l stageId result rfl hrecorded hpasses
    have hsame : state.lastGoodArtifact = state.artifact := by
      rcases hstops with hsettled | hstops
      · exact absurd hrecorded (hsettled.answered.not_recorded stageId result)
      · simpa [Local.unkept, hrecorded, hpasses] using hstops state (hK.held l rfl) hK.runId_eq
    rw [hlast, hsame]
    rfl
  · refine hK.kept (fun l' stageId result hl' hrecorded => ?_) hrunning
    obtain rfl := some.inj hl'
    cases hpasses : state.passes stageId result with
    | false => rfl
    | true => exact absurd ⟨stageId, result, hrecorded, hpasses⟩ hpending

end DeliveryKept

namespace Deployment

variable {d : Deployment}

theorem keptBy_delivery {runId : String} {processes : List (Process CoordinatorOp)}
    (haccepts : ∀ e ∈ d.serialHistory processes, AcceptsArtifact runId e = true) :
    KeptBy d runId (StopsKept runId) (d.serialHistory processes) (DeliveryKept runId) where
  create h w later w' pipeline requestParams _ hforeign _ _ := DeliveryKept.create hforeign
  load h w state l hK := by
    refine hK.skip ⟨rfl, rfl⟩ (fun l' hl' => ?_) fun stageId result => ?_
    · obtain rfl := some.inj hl'
      rfl
    · simp [Local.load]
  other h e state hK hforeign :=
    hK.skip (artifact_of_foreign hforeign) hK.held fun _ _ => Iff.rfl
  own h e later state l _ hK hbase _ _ hsave hkeep hpoint := by
    refine hK.skip (artifact_of_not_recorded fun stageId result written hcmd => ?_)
      (fun l' hl' => ?_) fun stageId result => ?_
    · exact hsave _ written hcmd
    · obtain rfl := some.inj hl'
      exact hkeep.trans hbase
    · simp [hpoint]
  save h w later base l point state hsplit hK _ hstored hsaves := by
    have hmem : (⟨.hset point state, w⟩ : Event World Cmd) ∈ d.serialHistory processes :=
      hsplit ▸ List.mem_append_right _ List.mem_cons_self
    exact hK.save hstored (haccepts _ hmem) hsaves
  forget h w state l hK hstops := hK.forget hstops

/-- **A rejected artifact is not delivered.**  Wherever the processes stop, except between a
passing verdict and the save that keeps what it accepted: a run that ends without success
delivers what was accepted last, or else what was generated first. -/
theorem delivers_of_accepts {runId : String} {processes : List (Process CoordinatorOp)}
    (haccepts : ∀ e ∈ d.serialHistory processes, AcceptsArtifact runId e = true)
    (hstops : d.StopsAt (StopsKept runId) processes) :
    Delivers runId (d.serialHistory processes) (d.serialStore processes) := by
  intro state code hstate hcode hfailed
  exact (serial_induction (keptBy_delivery haccepts) hstops hstate).ended code hcode hfailed

/-! ## An artifact that is edited before it is accepted -/

/-- The artifact is generated, edited and accepted; its delivery comes last. -/
def edited : CompiledPipeline where
  stages :=
    [{ id := "generate", kind := .generate },
      { id := "edit", kind := .delegate, dependsOn := ["generate"] },
      { id := "qc", kind := .qc, dependsOn := ["edit"] },
      { id := "deliver", kind := .delegate, dependsOn := ["qc"] }]
  ids_nodup := by decide

/-- Generation and edit publish artifacts, the verdict passes, and the delivery fails. -/
def undelivering : Deployment where
  coordinator := ⟨fun _ => .ok .external, id⟩
  providers :=
    { obliging.providers with
      execute := fun _ stage _ _ _ =>
        if stage.id = "deliver" then .ok { status := .failed, error := some "refused" }
        else if stage.id = "qc" then
          .ok { status := .completed, qcVerdict := some { stageId := "qc", passed := true } }
        else .ok { status := .completed, artifact := some ⟨some stage.id, some "sha", []⟩ } }

/-- Every process comes to its end, but the one that records the verdict executes `n` commands. -/
def editedRun (n : ℕ) : List (Process CoordinatorOp) :=
  ⟨.submitParent "run" edited [], 10⟩ ::
    [30, 30, n, 30, 30].map fun steps => ⟨.advanceOnce "now" "run", steps⟩

/-- The artifact of the run at its end without success. -/
def delivered (d : Deployment) (processes : List (Process CoordinatorOp)) : Option ArtifactRef :=
  (((d.serialStore processes).states "run").filter fun state =>
    state.terminalCode == some .providerError).bind artifact

/-- The edited artifact is accepted, and delivered when the delivery has failed. -/
theorem delivers_edited :
    delivered undelivering (editedRun 30) = some ⟨"edit", "sha", "edit", "now"⟩ ∧
      Delivers "run" (undelivering.serialHistory (editedRun 30))
        (undelivering.serialStore (editedRun 30)) := by
  have haccepts : ∀ e ∈ undelivering.serialHistory (editedRun 30),
      AcceptsArtifact "run" e = true := by decide +kernel
  have hstops : undelivering.StopsAt (StopsKept "run") (editedRun 30) := by decide +kernel
  exact ⟨by decide +kernel, delivers_of_accepts haccepts hstops⟩

/-- A process that stops between the verdict and the next save leaves the generated artifact. -/
theorem not_delivers_of_unkept :
    ¬ Delivers "run" (undelivering.serialHistory (editedRun 6))
        (undelivering.serialStore (editedRun 6)) := by
  have hend : (((undelivering.serialStore (editedRun 6)).states "run").map fun state =>
      (state.terminalCode, state.artifact.map ArtifactRef.pathOrUrl)) =
        some (some .providerError, some "generate") := by decide +kernel
  have haccepted : (deliverable "run" (undelivering.serialHistory (editedRun 6))).map
      ArtifactRef.pathOrUrl = some "edit" := by decide +kernel
  intro h
  obtain ⟨state, hstate, hended⟩ := map_eq_some_iff.mp hend
  obtain ⟨hcode, hartifact⟩ := Prod.mk.inj hended
  rw [h state _ hstate hcode (by decide), haccepted] at hartifact
  exact absurd hartifact (by decide)

end Deployment

end GpuManager.Coordinator
