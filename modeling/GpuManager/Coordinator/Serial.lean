import GpuManager.Lib.Restarts
import GpuManager.Coordinator.Saves

/-!
# One process at a time

The runs of this module are lists of processes: each works on the store alone, may stop between
any two of its commands, and is followed by the next one, which starts from what is stored.
Then the copy of the process at work is what the store holds, so that every save is made over
the stored state.

`serial_induction` is the rule for one run of the coordinator.  Its invariant is about the
history, the world, the stored state of the run, and what is remembered of the process at work
if that process holds the run.
-/

namespace GpuManager.Coordinator

open AtomicProgram PipelineCoordinator List Option

/-- The command is not about the run. -/
def Foreign (runId : String) : Cmd → Prop
  | .hset _ state => state.runId ≠ runId
  | .execute _ _ state _ => state.runId ≠ runId
  | .leafSubmit _ _ state _ => state.runId ≠ runId
  | .cancel run _ => run ≠ runId
  | .xaddEvent run (.correctionStarted _ _ _ _) => run ≠ runId
  | _ => True

def Cmd.providerCall (providers : Providers) (w : World) : Cmd → Option ProviderCall
  | .execute stage resolvedInputs state idempotencyKey =>
    some (.execute stage.id idempotencyKey
      (providers.execute w.calls stage resolvedInputs state idempotencyKey))
  | .poll stage resolvedInputs state idempotencyKey providerHandle =>
    some (.poll stage.id idempotencyKey providerHandle
      (providers.poll w.calls stage resolvedInputs state idempotencyKey providerHandle))
  | .cancel runId stageId => some (.cancel runId stageId (providers.cancel w.calls runId stageId))
  | .leafSubmit stage resolvedInputs state idempotencyKey =>
    some (.leafSubmit stage.id state.runId idempotencyKey
      (providers.leafSubmit w.calls stage resolvedInputs state idempotencyKey))
  | .leafPoll childJobId => some (.leafPoll childJobId (providers.leafPoll w.calls childJobId))
  | .leafCancel childJobId => some (.leafCancel childJobId (providers.leafCancel w.calls childJobId))
  | _ => none

theorem exec_calls (providers : Providers) (c : Cmd) (w : World) :
    (exec providers c w).2.calls = w.calls ++ (c.providerCall providers w).toList := by
  have hnone : w.calls = w.calls ++ [] := (append_nil _).symm
  cases c with
  | evalSubmitParent state | xreadgroup consumer | xclaim consumer minIdleTime entryId =>
    simp only [exec]
    split <;> exact hnone
  | execute | poll | cancel | leafSubmit | leafPoll | leafCancel => rfl
  | _ => exact hnone

def Called (providers : Providers) (h : List (Event World Cmd)) (w : World) : Prop :=
  ∀ call ∈ w.calls, ∃ e ∈ h, e.cmd.providerCall providers e.before = some call

theorem Called.step {providers : Providers} {h : List (Event World Cmd)} {e : Event World Cmd}
    (hcalled : Called providers h e.before) :
    Called providers (h ++ [e]) (exec providers e.cmd e.before).2 := by
  intro call hmem
  rw [exec_calls] at hmem
  rcases mem_append.mp hmem with hmem | hmem
  · obtain ⟨f, hf, hcall⟩ := hcalled call hmem
    exact ⟨f, mem_append_left _ hf, hcall⟩
  · exact ⟨e, mem_append_right _ (mem_singleton.mpr rfl), mem_toList.mp hmem⟩

/-- States are stored under their own id, and the copy of the process at work is stored. -/
structure Owns (w : World) (l : Local) : Prop where
  keyed : ∀ key state, w.states key = some state → state.runId = key
  stored : ∀ base, l.base = some base → w.states base.runId = some base

section Step

variable {coordinator : PipelineCoordinator} {providers : Providers} {w : World} {l : Local}

/-- A run that is stored is not created again. -/
theorem states_evalSubmitParent {runId : String} {state stored : PipelineRunState}
    (hstored : w.states runId = some stored) :
    (exec providers (.evalSubmitParent state) w).2.states runId = some stored := by
  rw [exec_evalSubmitParent_states]
  split
  · exact hstored
  rename_i hnew
  rw [Function.update_of_ne]
  · exact hstored
  · rintro rfl
    rw [hstored] at hnew
    exact hnew rfl

theorem Owns.step (h : Owns w l) (providers : Providers) (c : Cmd) :
    Owns (exec providers c w).2 (l.note c (exec providers c w).1) := by
  refine ⟨keyed_exec h.keyed, fun base hbase => ?_⟩
  rcases c.cases_states with ⟨point, state, rfl⟩ | ⟨state, rfl⟩ | ⟨loaded, rfl⟩ | ⟨hwrite, hcopy⟩
  · obtain rfl : state = base := some.inj hbase
    exact Function.update_self ..
  · rw [(note_same rfl _).1] at hbase
    exact states_evalSubmitParent (h.stored base hbase)
  · cases hfound : w.states loaded with
    | none =>
      simp only [exec, hfound, Local.note] at hbase ⊢
      exact h.stored base hbase
    | some state =>
      simp only [exec, hfound, Local.note] at hbase ⊢
      obtain rfl := some.inj hbase
      rw [h.keyed loaded state hfound]
      exact hfound
  · rw [(note_same hcopy _).1] at hbase
    rw [exec_states providers hwrite]
    exact h.stored base hbase

/-- A process that holds another run issues no command about this one. -/
theorem foreign_of_allows {runId : String} {c : Cmd} (hallows : l.allows coordinator c)
    (hother : ∀ base, l.base = some base → base.runId ≠ runId) : Foreign runId c := by
  cases c with
  | hset point state =>
    obtain ⟨base, hbase, hsaves⟩ := hallows
    change state.runId ≠ runId
    rw [hsaves.runId_eq]
    exact hother base hbase
  | execute stage inputs state key => exact hother state hallows.1
  | leafSubmit stage inputs state key =>
    obtain ⟨base, a, hbase, hexecuting, -⟩ := hallows
    change state.runId ≠ runId
    rw [hexecuting.copy_eq]
    exact hother base hbase
  | cancel run stageId =>
    obtain ⟨base, hbase, rfl⟩ := hallows
    exact hother base hbase
  | xaddEvent run event =>
    cases event with
    | correctionStarted stageId loopId iteration onCorrection =>
      obtain ⟨base, hbase, rfl⟩ := hallows
      exact hother base hbase
    | _ => trivial
  | _ => trivial

end Step

/-! ## The rule -/

/-- An invariant of one run: about the history, the world, the stored state, and the process at
work if it holds the run. -/
abbrev RunInvariant :=
  List (Event World Cmd) → World → PipelineRunState → Option Local → Prop

structure KeptBy (d : Deployment) (runId : String) (P : World → Local → Prop)
    (history : List (Event World Cmd)) (K : RunInvariant) : Prop where
  /-- The run is created. -/
  create : ∀ h w later w' pipeline requestParams,
    history = h ++ ⟨.evalSubmitParent (initialState runId pipeline requestParams), w⟩ :: later →
    (∀ e ∈ h, Foreign runId e.cmd) → w.states runId = none → Called d.providers h w' →
    K (h ++ [⟨.evalSubmitParent (initialState runId pipeline requestParams), w⟩]) w'
      (initialState runId pipeline requestParams) none
  /-- A process loads the run. -/
  load : ∀ h w state (l : Local), K h w state none →
    K (h ++ [⟨.hgetall runId, w⟩]) w state (some (l.load runId state))
  /-- A process that does not hold the run issues a command. -/
  other : ∀ h e state, K h e.before state none → Foreign runId e.cmd →
    K (h ++ [e]) (exec d.providers e.cmd e.before).2 state none
  /-- The process that holds the run issues a command other than a save. -/
  own : ∀ h e later state l, history = h ++ e :: later → K h e.before state (some l) →
    l.base = some state → e.before.states runId = some state → l.allows d.coordinator e.cmd →
    (∀ point written, e.cmd ≠ .hset point written) →
    (l.note e.cmd (exec d.providers e.cmd e.before).1).base = l.base →
    (l.note e.cmd (exec d.providers e.cmd e.before).1).point = l.point →
    K (h ++ [e]) (exec d.providers e.cmd e.before).2 state
      (some (l.note e.cmd (exec d.providers e.cmd e.before).1))
  /-- The process that holds the run saves it. -/
  save : ∀ h w later base l point state, history = h ++ ⟨.hset point state, w⟩ :: later →
    K h w base (some l) → l.base = some base → w.states runId = some base →
    Saves d.coordinator l base point state →
    K (h ++ [⟨.hset point state, w⟩]) (w.setState state) state (some (l.saved point state))
  /-- The process that holds the run comes to its end, or stops. -/
  forget : ∀ h w state l, K h w state (some l) → l.Settled ∨ P w l → K h w state none

namespace Deployment

variable (d : Deployment)

def serialStore (processes : List (Process CoordinatorOp)) : World :=
  processStore (exec d.providers) d.program {} processes

def serialHistory (processes : List (Process CoordinatorOp)) : List (Event World Cmd) :=
  processHistory (exec d.providers) d.program {} processes

/-- Whatever is submitted under the id of the run is such a plan. -/
def Submits (runId : String) (plans : CompiledPipeline → Prop)
    (processes : List (Process CoordinatorOp)) : Prop :=
  ∀ e ∈ d.serialHistory processes, ∀ pipeline requestParams,
    e.cmd = .evalSubmitParent (initialState runId pipeline requestParams) → plans pipeline

/-- Every process comes to its end, or stops where `P` holds. -/
def StopsAt (P : World → Local → Prop) (processes : List (Process CoordinatorOp)) : Prop :=
  StopsWhere (exec d.providers) d.program (monitor d.coordinator) {} P {} processes

instance (P : World → Local → Prop) [∀ w l, Decidable (P w l)]
    (processes : List (Process CoordinatorOp)) : Decidable (d.StopsAt P processes) :=
  decidableStopsWhere ..

variable {d}

structure SerialKept (d : Deployment) (runId : String) (K : RunInvariant)
    (h : List (Event World Cmd)) (w : World) (l : Local) : Prop where
  owns : Owns w l
  called : Called d.providers h w
  absent : w.states runId = none → ∀ e ∈ h, Foreign runId e.cmd
  held : ∀ state, w.states runId = some state → l.base = some state → K h w state (some l)
  left : ∀ state, w.states runId = some state → (∀ base, l.base = some base → base.runId ≠ runId) →
    K h w state none

section Rule

variable {runId : String} {P : World → Local → Prop} {K : RunInvariant}
  {history h later : List (Event World Cmd)} {e : Event World Cmd} {l : Local}

/-- A command that neither saves nor loads nor creates the run. -/
theorem SerialKept.quiet (hkept : KeptBy d runId P history K) (hsplit : history = h ++ e :: later)
    (hJ : SerialKept d runId K h e.before l) (hallows : l.allows d.coordinator e.cmd)
    (hsaves : ∀ point written, e.cmd ≠ .hset point written)
    (hsame : (l.note e.cmd (exec d.providers e.cmd e.before).1).base = l.base ∧
      (l.note e.cmd (exec d.providers e.cmd e.before).1).loaded = l.loaded ∧
      (l.note e.cmd (exec d.providers e.cmd e.before).1).point = l.point)
    (hstates : (exec d.providers e.cmd e.before).2.states runId = e.before.states runId) :
    SerialKept d runId K (h ++ [e]) (exec d.providers e.cmd e.before).2
      (l.note e.cmd (exec d.providers e.cmd e.before).1) := by
  refine ⟨hJ.owns.step d.providers e.cmd, hJ.called.step, fun hnone => ?_,
    fun state hstate hbase => ?_, fun state hstate hother => ?_⟩
  · rw [hstates] at hnone
    have hforeign : Foreign runId e.cmd := by
      refine foreign_of_allows hallows fun base hbase hrun => ?_
      have hstored := hJ.owns.stored base hbase
      rw [hrun, hnone] at hstored
      cases hstored
    intro other hmem
    rcases mem_append.mp hmem with hmem | hmem
    · exact hJ.absent hnone other hmem
    · rw [mem_singleton.mp hmem]
      exact hforeign
  · rw [hstates] at hstate
    rw [hsame.1] at hbase
    exact hkept.own h e later state l hsplit (hJ.held state hstate hbase) hbase
      hstate hallows hsaves hsame.1 hsame.2.2
  · rw [hstates] at hstate
    rw [hsame.1] at hother
    exact hkept.other h e state (hJ.left state hstate hother) (foreign_of_allows hallows hother)

variable {state : PipelineRunState} {processes : List (Process CoordinatorOp)}

section

variable (hkept : KeptBy d runId P history K) {w : World}
include hkept

/-- A save of the run keeps the invariant for the copy that was saved. -/
theorem SerialKept.save {point : SavePoint}
    (hsplit : history = h ++ ⟨.hset point state, w⟩ :: later) (hJ : SerialKept d runId K h w l)
    (hallows : l.allows d.coordinator (.hset point state)) :
    SerialKept d runId K (h ++ [⟨.hset point state, w⟩]) (w.setState state) (l.saved point state) := by
  obtain ⟨base, hbase, hsaves⟩ := hallows
  have howns : Owns (w.setState state) (l.saved point state) :=
    hJ.owns.step d.providers (.hset point state)
  have hcalled : Called d.providers (h ++ [⟨.hset point state, w⟩]) (w.setState state) :=
    hJ.called.step (e := ⟨.hset point state, w⟩)
  have hstored := hJ.owns.stored base hbase
  have hrunId := hsaves.runId_eq
  by_cases hrun : state.runId = runId
  · have hbaseRun : base.runId = runId := hrunId.symm.trans hrun
    have hafter : (w.setState state).states runId = some state := by
      subst hrun
      exact Function.update_self ..
    rw [hbaseRun] at hstored
    refine ⟨howns, hcalled, fun hnone => ?_, fun other hother hown => ?_, fun other _ hforeign => ?_⟩
    · rw [hafter] at hnone
      cases hnone
    · obtain rfl : state = other := some.inj (hafter.symm.trans hother)
      exact hkept.save h w later base l point state hsplit (hJ.held base hstored hbase) hbase
        hstored hsaves
    · exact absurd hrun (hforeign state rfl)
  · have hbaseRun : base.runId ≠ runId := hrunId ▸ hrun
    have hafter : (w.setState state).states runId = w.states runId :=
      Function.update_of_ne (Ne.symm hrun) _ _
    have hother : ∀ other, l.base = some other → other.runId ≠ runId := by
      intro other hown
      rw [hbase] at hown
      cases hown
      exact hbaseRun
    refine ⟨howns, hcalled, fun hnone x hx => ?_, fun stored hstate hown => ?_,
      fun stored hstate _ => ?_⟩
    · rcases mem_append.mp hx with hx | hx
      · exact hJ.absent (hafter.symm.trans hnone) x hx
      · rw [mem_singleton.mp hx]
        exact hrun
    · obtain rfl : state = stored := some.inj hown
      exact absurd (hJ.owns.keyed runId state (hafter.symm.trans hstate)) hrun
    · exact hkept.other h ⟨.hset point state, w⟩ stored
        (hJ.left stored (hafter.symm.trans hstate) hother) hrun

theorem SerialKept.create (hsplit : history = h ++ ⟨.evalSubmitParent state, w⟩ :: later)
    (hJ : SerialKept d runId K h w l) (hallows : l.allows d.coordinator (.evalSubmitParent state))
    (hnew : w.states runId = none) (hrun : state.runId = runId) :
    SerialKept d runId K (h ++ [⟨.evalSubmitParent state, w⟩])
      (exec d.providers (.evalSubmitParent state) w).2 l := by
  obtain ⟨pipeline, requestParams, hinitial⟩ := hallows
  rw [hrun] at hinitial
  have hafter : (exec d.providers (.evalSubmitParent state) w).2.states runId = some state := by
    rw [exec_evalSubmitParent_states, hrun, hnew]
    exact Function.update_self ..
  have howns : Owns (exec d.providers (.evalSubmitParent state) w).2 l :=
    hJ.owns.step d.providers (.evalSubmitParent state)
  refine ⟨howns, hJ.called.step (e := ⟨.evalSubmitParent state, w⟩), fun hnone => ?_,
    fun other hother hown => ?_, fun other hstate _ => ?_⟩
  · rw [hafter] at hnone
    cases hnone
  · -- No process holds a run that was not stored.
    have hstored := hJ.owns.stored other hown
    rw [howns.keyed runId other hother, hnew] at hstored
    cases hstored
  · obtain rfl : state = other := some.inj (hafter.symm.trans hstate)
    rw [hinitial] at hsplit ⊢
    refine hkept.create h w later _ pipeline requestParams hsplit (hJ.absent hnew) hnew ?_
    intro call hmem
    rw [exec_calls] at hmem
    exact hJ.called call (by simpa [Cmd.providerCall] using hmem)

/-- A process that has made no save may forget the run. -/
theorem SerialKept.leave (hJ : SerialKept d runId K h w l) (hidle : l.Idle)
    (hstate : w.states runId = some state) : K h w state none := by
  by_cases hown : l.base = some state
  · exact hkept.forget h w state l (hJ.held state hstate hown) (Or.inl hidle.settled)
  refine hJ.left state hstate fun base hbase hrun => hown ?_
  have hstored := hJ.owns.stored base hbase
  rw [hrun, hstate] at hstored
  rw [hbase, hstored]

theorem SerialKept.load {loaded : String} (hJ : SerialKept d runId K h w l)
    (hidle : l.Idle) (hfound : w.states loaded = some state) :
    SerialKept d runId K (h ++ [⟨.hgetall loaded, w⟩]) w
      (l.load loaded state) := by
  have hkey := hJ.owns.keyed loaded state hfound
  refine ⟨⟨hJ.owns.keyed, fun base hbase => ?_⟩, hJ.called.step (e := ⟨.hgetall loaded, w⟩),
    fun hnone x hx => ?_, fun stored hstate hown => ?_, fun stored hstate hother => ?_⟩
  · obtain rfl := some.inj hbase
    rw [hkey]
    exact hfound
  · rcases mem_append.mp hx with hx | hx
    · exact hJ.absent hnone x hx
    · rw [mem_singleton.mp hx]
      trivial
  · obtain rfl := some.inj hown
    have hrun := hJ.owns.keyed runId state hstate
    rw [hkey] at hrun
    subst hrun
    exact hkept.load h w state l (hJ.leave hkept hidle hstate)
  · exact hkept.other h ⟨.hgetall loaded, w⟩ stored (hJ.leave hkept hidle hstate) trivial

/-- **One command.** -/
theorem SerialKept.step (hsplit : history = h ++ e :: later)
    (hJ : SerialKept d runId K h e.before l) (hallows : l.allows d.coordinator e.cmd) :
    SerialKept d runId K (h ++ [e]) (exec d.providers e.cmd e.before).2
      (l.note e.cmd (exec d.providers e.cmd e.before).1) := by
  obtain ⟨cmd, w⟩ := e
  rcases cmd.cases_states with ⟨point, state, rfl⟩ | ⟨state, rfl⟩ | ⟨loaded, rfl⟩ | ⟨hwrite, hcopy⟩
  · exact SerialKept.save hkept hsplit hJ hallows
  · by_cases hnew : w.states runId = none ∧ state.runId = runId
    · exact SerialKept.create hkept hsplit hJ hallows hnew.1 hnew.2
    refine SerialKept.quiet hkept hsplit hJ hallows (fun _ _ hcmd => by cases hcmd)
      (note_same rfl _) ?_
    change (exec d.providers (.evalSubmitParent state) w).2.states runId = w.states runId
    rw [exec_evalSubmitParent_states]
    split
    · rfl
    rename_i hfree
    refine Function.update_of_ne (fun hrun => hnew ⟨?_, hrun.symm⟩) _ _
    rw [hrun]
    simpa using hfree
  · cases hfound : w.states loaded with
    | some state =>
      have hnote : l.note (.hgetall loaded) (exec d.providers (.hgetall loaded) w).1 =
          (l.load loaded state) := by
        simp only [exec, hfound, Local.note]
      change SerialKept d runId K _ w
        (l.note (.hgetall loaded) (exec d.providers (.hgetall loaded) w).1)
      rw [hnote]
      exact SerialKept.load hkept hJ hallows hfound
    | none =>
      have hnote : l.note (.hgetall loaded) (exec d.providers (.hgetall loaded) w).1 = l := by
        simp only [exec, hfound, Local.note]
      refine SerialKept.quiet hkept hsplit hJ hallows (fun _ _ hcmd => by cases hcmd) ?_ rfl
      rw [hnote]
      exact ⟨rfl, rfl, rfl⟩
  · refine SerialKept.quiet hkept hsplit hJ hallows (fun point state hcmd => ?_)
      (note_same hcopy _) (congrFun (exec_states d.providers hwrite w) runId)
    obtain rfl : cmd = .hset point state := hcmd
    cases hwrite

end

variable (hkept : KeptBy d runId P (d.serialHistory processes) K)
include hkept

theorem serial_kept (hstops : d.StopsAt P processes) :
    SerialKept d runId K (d.serialHistory processes) (d.serialStore processes) {} := by
  have hstart : SerialKept d runId K [] {} {} :=
    ⟨⟨fun _ _ h => (by cases h), fun _ h => (by cases h)⟩, fun _ h => (by cases h),
      fun _ _ h => (by cases h), fun _ h => (by cases h), fun _ h => (by cases h)⟩
  -- What the process knew is lost where it has finished or stopped.
  have hlost : ∀ h w l, SerialKept d runId K h w l → l.Settled ∨ P w l →
      SerialKept d runId K h w {} := by
    intro h w l hJ hsettled
    refine ⟨⟨hJ.owns.keyed, fun _ h => (by cases h)⟩, hJ.called, hJ.absent, fun _ _ h => (by cases h),
      fun state hstate _ => ?_⟩
    by_cases hown : l.base = some state
    · exact hkept.forget h w state l (hJ.held state hstate hown) hsettled
    refine hJ.left state hstate fun base hbase hrun => hown ?_
    have hstored := hJ.owns.stored base hbase
    rw [hrun, hstate] at hstored
    rw [hbase, hstored]
  obtain ⟨hend, -⟩ := process_induction (program_obeys d) (J := SerialKept d runId K) hstart
    (fun earlier e later l hsplit hJ hallows => hJ.step hkept hsplit hallows)
    (fun h w l r hJ hfinished => hlost h w l hJ (Or.inl hfinished.1))
    (fun h w l hJ hP => hlost h w l hJ (Or.inr hP)) hstops
  exact hend

/-- **Every run of processes.**  An invariant of one run that is kept by every command and by
the loss of what a process knows holds at the end. -/
theorem serial_induction (hstops : d.StopsAt P processes)
    (hstate : (d.serialStore processes).states runId = some state) :
    K (d.serialHistory processes) (d.serialStore processes) state none :=
  (serial_kept hkept hstops).left state hstate fun _ h => (by cases h)

/-- Before a run is stored no command is about it. -/
theorem foreign_of_absent (hstops : d.StopsAt P processes)
    (habsent : (d.serialStore processes).states runId = none) :
    ∀ e ∈ d.serialHistory processes, Foreign runId e.cmd :=
  (serial_kept hkept hstops).absent habsent

end Rule

/-- The plans that are submitted can be looked up in the history. -/
theorem submits_of_all {runId : String} {plans : CompiledPipeline → Prop} [DecidablePred plans]
    {processes : List (Process CoordinatorOp)}
    (h : (d.serialHistory processes).all (fun e =>
      match e.cmd with
      | .evalSubmitParent state => decide (plans state.compiledPipeline)
      | _ => true) = true) : d.Submits runId plans processes := by
  intro e he pipeline requestParams hcmd
  have hplan := all_eq_true.mp h e he
  rw [hcmd] at hplan
  exact of_decide_eq_true hplan

/-! ## A pipeline with a correction loop -/

theorem reviewed_nodup : ["generate", "qc", "correct"].Nodup := by decide

/-- A generation, its quality control, and a correction with which the quality control is
repeated at most once. -/
def reviewed : CompiledPipeline where
  stages :=
    [{ id := "generate", kind := .generate },
      { id := "qc", kind := .qc, dependsOn := ["generate"] },
      { id := "correct", kind := .correct }]
  loops := [⟨"loop", "qc", "correct", ["qc"], 1⟩]
  maxLoopCount := 1
  ids_nodup := reviewed_nodup

def isExecuted (stageId : String) : ProviderCall → Bool
  | .execute id _ _ => id == stageId
  | _ => false

/-- Generations are leaf jobs named by their keys, and the `n`-th verdict of a stage is
`verdicts n`. -/
def reviewing (verdicts : ℕ → Bool) : Deployment where
  coordinator := ⟨fun stage => .ok (if stage.kind.isGeneration then .leaf else .external), id⟩
  providers :=
    { execute := fun calls stage _ _ _ =>
        .ok
          { status := .completed
            qcVerdict :=
              if stage.kind = .qc then
                some { stageId := stage.id, passed := verdicts (calls.countP (isExecuted stage.id)) }
              else none }
      poll := fun _ _ _ _ _ _ => .ok { status := .completed }
      cancel := fun _ _ _ => .ok true
      leafSubmit := fun _ _ _ _ idempotencyKey => .ok idempotencyKey
      leafPoll := fun _ childJobId =>
        .ok { status := .completed, artifact := some ⟨some childJobId, some "sha", []⟩ }
      leafCancel := fun _ _ => .ok true }

end Deployment

end GpuManager.Coordinator
