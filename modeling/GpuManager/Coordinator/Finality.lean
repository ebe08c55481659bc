import GpuManager.Coordinator.Saves

/-!
# Terminal states and requested cancellations

`advance` works on a private copy that it loaded before a provider call of any length, and a
save writes the whole hash without looking at what is there.  `request_cancellation` is its own
load and save.  So one client may write over what another has written since it loaded: a
request that was loaded before the run ended makes the run running again, and a consumer that
loaded before the request takes the intent away.

Neither happens while every save is fresh, that is, while no other client has saved the run
since the saving client loaded or saved it; a request may be saved over other requests.  Then a
terminal state is never written again, and from a granted request on the run keeps its intent
and starts no attempt until it is terminal.
-/

namespace GpuManager.Coordinator

open AtomicProgram Function Option

/-! ## Fresh saves -/

/-- How a client's copy of the run relates to what the store holds: they are the same, only
requests for cancellation were saved since, or the copy is stale. -/
inductive Freshness where
  | stale
  | requested
  | fresh
  deriving DecidableEq

def noteCopies (runId : String) (copies : ℕ → Freshness) (x : ℕ × Event World Cmd) :
    ℕ → Freshness :=
  match x.2.cmd with
  | .hgetall loaded => if loaded = runId then update copies x.1 .fresh else copies
  | .hset .intent state =>
    if state.runId = runId then fun i =>
      if i = x.1 then .fresh else if copies i = .stale then .stale else .requested
    else copies
  | .hset _ state =>
    if state.runId = runId then fun i => if i = x.1 then .fresh else .stale else copies
  | _ => copies

/-- A save of the run is made by a client whose copy is fresh; a request may also be saved over
other requests. -/
def SavesFresh (runId : String) (copies : ℕ → Freshness) (x : ℕ × Event World Cmd) : Prop :=
  match x.2.cmd with
  | .hset .intent state => state.runId = runId → copies x.1 ≠ .stale
  | .hset _ state => state.runId = runId → copies x.1 = .fresh
  | _ => True

instance (runId : String) (copies : ℕ → Freshness) (x : ℕ × Event World Cmd) :
    Decidable (SavesFresh runId copies x) := by
  unfold SavesFresh
  split <;> infer_instance

/-- Every save of the run is fresh. -/
def Deployment.Fresh (d : Deployment) (runId : String) (ls : List (Label CoordinatorOp)) : Prop :=
  Along (SavesFresh runId) (noteCopies runId) (fun _ => .stale) (d.trace ls)

instance (d : Deployment) (runId : String) (ls : List (Label CoordinatorOp)) :
    Decidable (d.Fresh runId ls) :=
  inferInstanceAs (Decidable (Along _ _ _ _))

/-! ## What is kept along a run of fresh saves -/

def Freshness.Fits (base stored : PipelineRunState) : Freshness → Prop
  | .stale => True
  | .requested => stored = { base with cancellationIntent := true }
  | .fresh => stored = base

variable {base : PipelineRunState}

/-- A copy that is not stale is what is stored, up to the requests. -/
theorem Freshness.Fits.requested {f : Freshness} {stored : PipelineRunState}
    (h : f.Fits base stored) (hf : f ≠ .stale) :
    { stored with cancellationIntent := true } = { base with cancellationIntent := true } := by
  cases f with
  | stale => exact absurd rfl hf
  | requested =>
    obtain rfl : stored = { base with cancellationIntent := true } := h
    rfl
  | fresh =>
    obtain rfl : stored = base := h
    rfl

variable {w : World} {point : SavePoint} {state : PipelineRunState} {j : ℕ} {i : ℕ} {l : Local}

theorem savesFresh_hset {runId : String} {copies : ℕ → Freshness}
    (h : SavesFresh runId copies (i, ⟨.hset point state, w⟩)) (hrun : state.runId = runId) :
    copies i = .fresh ∨ point = .intent ∧ copies i = .requested := by
  cases point with
  | intent =>
    have hcopy : copies i ≠ .stale := h hrun
    cases hi : copies i with
    | stale => exact absurd hi hcopy
    | requested => exact Or.inr ⟨rfl, rfl⟩
    | fresh => exact Or.inl rfl
  | _ => exact Or.inl (h hrun)

/-- A save of another run changes no copy of this one. -/
theorem noteCopies_hset_of_ne {runId : String} {copies : ℕ → Freshness} (hrun : state.runId ≠ runId)
    :
    noteCopies runId copies (j, ⟨.hset point state, w⟩) = copies := by
  cases point <;> exact if_neg hrun

theorem noteCopies_hset_self {runId : String} {copies : ℕ → Freshness} (hrun : state.runId = runId)
    :
    noteCopies runId copies (j, ⟨.hset point state, w⟩) j = .fresh := by
  cases point <;> simp [noteCopies, hrun]

/-- After a save of another client a copy is stale, unless that save was a request. -/
theorem noteCopies_hset_other {runId : String} (copies : ℕ → Freshness) (w : World)
    (point : SavePoint) (hrun : state.runId = runId) (hi : i ≠ j) :
    noteCopies runId copies (j, ⟨.hset point state, w⟩) i = .stale ∨
      point = .intent ∧ copies i ≠ .stale ∧
        noteCopies runId copies (j, ⟨.hset point state, w⟩) i = .requested := by
  cases point with
  | intent =>
    by_cases hstale : copies i = .stale
    · left
      simp [noteCopies, hrun, hi, hstale]
    right
    refine ⟨rfl, hstale, ?_⟩
    simp [noteCopies, hrun, hi, hstale]
  | _ =>
    left
    simp [noteCopies, hrun, hi]

/-- States are stored under their own id, a fresh copy of the run is what is stored, and only a
terminal run is cancelled. -/
structure CopiesKept (runId : String) (locals : ℕ → Local) (copies : ℕ → Freshness)
    (w : World) : Prop where
  keyed : ∀ key state, w.states key = some state → state.runId = key
  copies : ∀ i base, (locals i).base = some base → base.runId = runId →
    ∃ stored, w.states runId = some stored ∧ (copies i).Fits base stored
  cancelled : ∀ stored, w.states runId = some stored → stored.cancelled = true →
    stored.status.isTerminal = true

theorem terminal_isTerminal (state : PipelineRunState) (code : TerminalCode) (reason : String) :
    (state.terminal code reason).status.isTerminal = true := by
  have h := code.status_isTerminal
  unfold PipelineRunState.terminal
  split
  · split <;> exact h
  · exact h

section Step

variable {d : Deployment} {runId : String} {trace : List (ℕ × Event World Cmd)} {copies : ℕ → Freshness}
  {x : ℕ × Event World Cmd}

/-- Over a copy with a requested cancellation there is only the cascade, which ends the run,
and another request. -/
theorem Saves.of_intended {coordinator : PipelineCoordinator}
    (h : Saves coordinator l base point state) (hintent : base.cancellationIntent = true)
    (hcancelled : base.cancelled = false) :
    point = .terminal ∧ state.status.isTerminal = true ∨
      point = .intent ∧ state = { base with cancellationIntent := true } := by
  have hdead : ¬ Live base := by
    intro hlive
    have hwanted := hlive.wanted
    simp [hintent, hcancelled] at hwanted
  cases h with
  | childAccepted executing _ _ _ _ | childPolled executing _ _ _ _ | handleSaved executing _
  | inFlight executing _ | recorded executing _ _ _ _ =>
    exact absurd executing.live hdead
  | cascaded => exact Or.inl ⟨rfl, terminal_isTerminal _ _ _⟩
  | intent _ _ _ => exact Or.inr ⟨rfl, rfl⟩
  | dropped live _ _ _ _ | entered live _ _ _ _ | started live _ _ _ _ | lastGood live _ _ _ _ _
  | correction live _ _ _ _ _ _ _ | retry live _ _ _ _ | queued live _ _ | stayed live _ _ _ _
  | moved live _ _ _ _ | finished live _ _ _ _ | exhausted live _ _ _ | failed live _ _ _ =>
    exact absurd live hdead

variable (h : CopiesKept runId (d.locals trace) copies x.2.before)
  (hallows : (d.locals trace x.1).allows d.coordinator x.2.cmd) (hfresh : SavesFresh runId copies x)
include h hallows hfresh

/-- The stored state of the run before and after a command. -/
theorem states_after :
    (d.system.after x.2).states runId = x.2.before.states runId ∨
      (x.2.before.states runId = none ∧ ∃ pipeline requestParams,
        (d.system.after x.2).states runId =
          some (PipelineCoordinator.initialState runId pipeline requestParams)) ∨
      ∃ base point state, x.2.before.states runId = some base ∧
        Saves d.coordinator (d.locals trace x.1) base point state ∧
        (d.system.after x.2).states runId = some state := by
  obtain ⟨i, cmd, w⟩ := x
  cases cmd with
  | hset point state =>
    obtain ⟨base, hbase, hsaves⟩ := hallows
    by_cases hrun : state.runId = runId
    · obtain ⟨stored, hstored, hfits⟩ := h.copies i base hbase (hsaves.runId_eq.symm.trans hrun)
      have hafter : (d.system.after ⟨.hset point state, w⟩).states runId = some state := by
        subst hrun
        exact update_self ..
      refine Or.inr (Or.inr ⟨stored, point, state, hstored, ?_, hafter⟩)
      rcases savesFresh_hset hfresh hrun with hcopy | ⟨rfl, hcopy⟩
      · rw [hcopy] at hfits
        obtain rfl : stored = base := hfits
        exact hsaves
      · -- A request over other requests is saved as they were.
        rw [hcopy] at hfits
        obtain rfl : stored = { base with cancellationIntent := true } := hfits
        cases hsaves with
        | intent running early free => exact .intent running early free
    · left
      exact update_of_ne (Ne.symm hrun) _ _
  | evalSubmitParent state =>
    have hstates := exec_evalSubmitParent_states d.providers state w
    change (exec d.providers (.evalSubmitParent state) w).2.states runId = _ ∨ _
    rw [hstates]
    split
    · exact Or.inl rfl
    rename_i hnew
    by_cases hrun : state.runId = runId
    · obtain ⟨pipeline, requestParams, hstate⟩ := hallows
      subst hrun
      refine Or.inr (Or.inl ⟨by simpa using hnew, pipeline, requestParams, ?_⟩)
      rw [← hstate]
      change (exec d.providers (.evalSubmitParent state) w).2.states _ = _
      rw [hstates, if_neg hnew]
      exact update_self ..
    · left
      exact update_of_ne (Ne.symm hrun) _ _
  | _ =>
    left
    exact congrFun (exec_states d.providers rfl w) runId

/-- After an event the copy of every client fits what is stored, as its note says. -/
theorem copies_after (i : ℕ) (base : PipelineRunState)
    (hbase : (d.locals (trace ++ [x]) i).base = some base) (hrun : base.runId = runId) :
    ∃ stored, (d.system.after x.2).states runId = some stored ∧
      (noteCopies runId copies x i).Fits base stored := by
  obtain ⟨j, cmd, w⟩ := x
  -- A client that keeps its copy, where the run is not written.
  have hkept : (d.locals trace i).base = some base →
      (exec d.providers cmd w).2.states runId = w.states runId →
      noteCopies runId copies (j, ⟨cmd, w⟩) i = copies i →
      ∃ stored, (exec d.providers cmd w).2.states runId = some stored ∧
        (noteCopies runId copies (j, ⟨cmd, w⟩) i).Fits base stored := by
    intro hold hsame hnote
    obtain ⟨stored, hstored, hfits⟩ := h.copies i base hold hrun
    rw [hnote]
    exact ⟨stored, hsame.trans hstored, hfits⟩
  change ∃ stored, (exec d.providers cmd w).2.states runId = some stored ∧ _
  rcases cmd.cases_states with ⟨point, state, rfl⟩ | ⟨state, rfl⟩ | ⟨loaded, rfl⟩ | ⟨hwrite, hcopy⟩
  · rw [d.locals_concat] at hbase
    by_cases hstate : state.runId = runId
    · refine ⟨state, ?_, ?_⟩
      · subst hstate
        exact update_self ..
      · by_cases hi : i = j
        · subst hi
          rw [update_self] at hbase
          rw [noteCopies_hset_self hstate]
          exact some.inj hbase
        · rw [update_of_ne hi] at hbase
          rcases noteCopies_hset_other copies w point hstate hi with hnote | ⟨rfl, hcopy, hnote⟩
          · rw [hnote]
            trivial
          rw [hnote]
          -- Both copies are what is stored up to the requests.
          obtain ⟨own, hown, hsaves⟩ := hallows
          obtain ⟨stored, hstored, hfits⟩ := h.copies i base hbase hrun
          obtain ⟨_, hstored', hfits'⟩ :=
            h.copies j own hown (hsaves.runId_eq.symm.trans hstate)
          rw [hstored] at hstored'
          cases hstored'
          cases hsaves with
          | intent running _ _ =>
            exact (hfits'.requested (hfresh hstate)).symm.trans (hfits.requested hcopy)
    · by_cases hi : i = j
      · subst hi
        rw [update_self] at hbase
        obtain rfl := some.inj hbase
        exact absurd hrun hstate
      · rw [update_of_ne hi] at hbase
        refine hkept hbase (update_of_ne (Ne.symm hstate) _ _) ?_
        rw [noteCopies_hset_of_ne hstate]
  · rw [(d.locals_concat_same rfl i).1] at hbase
    refine hkept hbase ?_ rfl
    -- The run of a copy is not created again.
    obtain ⟨stored, hstored, -⟩ := h.copies i base hbase hrun
    rw [exec_evalSubmitParent_states]
    split
    · rfl
    rename_i hnew
    refine update_of_ne ?_ _ _
    intro heq
    rw [← heq, hstored] at hnew
    exact hnew rfl
  · rw [d.locals_concat] at hbase
    by_cases hi : i = j
    · subst hi
      rw [update_self] at hbase
      cases hfound : w.states loaded with
      | none =>
        have hnote : (d.locals trace i).note (.hgetall loaded)
            (exec d.providers (.hgetall loaded) w).1 = d.locals trace i := by
          simp only [exec, hfound, Local.note]
        rw [hnote] at hbase
        refine hkept hbase rfl ?_
        have hother : loaded ≠ runId := by
          rintro rfl
          obtain ⟨stored, hstored, -⟩ := h.copies i base hbase hrun
          rw [hfound] at hstored
          cases hstored
        simp only [noteCopies, if_neg hother]
      | some state =>
        have hnote : ((d.locals trace i).note (.hgetall loaded)
            (exec d.providers (.hgetall loaded) w).1).base = some state := by
          simp only [exec, hfound, Local.note, Local.load]
        rw [hnote] at hbase
        obtain rfl := some.inj hbase
        have hloaded := h.keyed loaded state hfound
        rw [hrun] at hloaded
        subst hloaded
        refine ⟨state, hfound, ?_⟩
        simp only [noteCopies, if_true, update_self]
        rfl
    · rw [update_of_ne hi] at hbase
      refine hkept hbase rfl ?_
      simp only [noteCopies]
      split
      · rw [update_of_ne hi]
      · rfl
  · rw [(d.locals_concat_same hcopy i).1] at hbase
    refine hkept hbase (congrFun (exec_states d.providers hwrite w) runId) ?_
    cases cmd with
    | hset point state => cases hwrite
    | hgetall loaded => cases hcopy
    | _ => rfl

/-- **One command.** -/
theorem CopiesKept.step :
    CopiesKept runId (d.locals (trace ++ [x])) (noteCopies runId copies x)
      (d.system.after x.2) := by
  refine ⟨keyed_exec h.keyed, copies_after h hallows hfresh, fun stored hstored hcancelled => ?_⟩
  rcases states_after h hallows hfresh with hsame | ⟨-, pipeline, requestParams, hnew⟩ |
    ⟨base, point, state, hbase, hsaves, hafter⟩
  · rw [hsame] at hstored
    exact h.cancelled stored hstored hcancelled
  · rw [hnew] at hstored
    cases hstored
    cases hcancelled
  · rw [hafter] at hstored
    cases hstored
    rcases hsaves.frame.2.2 with hterminal | ⟨hsame, -⟩
    · exact hterminal
    -- The copy was running, so it was not cancelled.
    have hbaseTerminal := h.cancelled base hbase (hsame.symm.trans hcancelled)
    rw [hsaves.base_running] at hbaseTerminal
    cases hbaseTerminal

end Step

namespace Deployment

variable {d : Deployment} {runId : String} {ls ls₁ ls₂ : List (Label CoordinatorOp)}

def freshCopies (runId : String) (trace : List (ℕ × Event World Cmd)) : ℕ → Freshness :=
  trace.foldl (noteCopies runId) fun _ => .stale

theorem freshCopies_concat (trace : List (ℕ × Event World Cmd)) (x : ℕ × Event World Cmd) :
    freshCopies runId (trace ++ [x]) = noteCopies runId (freshCopies runId trace) x :=
  List.foldl_concat ..

variable {x : ℕ × Event World Cmd}

theorem Fresh.at (h : d.Fresh runId ls) {earlier later : List (ℕ × Event World Cmd)}
    (htrace : d.trace ls = earlier ++ x :: later) :
    SavesFresh runId (freshCopies runId earlier) x := by
  unfold Fresh at h
  rw [htrace] at h
  exact h.at

theorem Fresh.left (h : d.Fresh runId (ls₁ ++ ls₂)) : d.Fresh runId ls₁ := by
  unfold Fresh at h ⊢
  have htrace : d.trace (ls₁ ++ ls₂) =
      d.trace ls₁ ++ d.system.trace (d.system.run start ls₁) ls₂ :=
    d.system.trace_append start ls₁ ls₂
  rw [htrace] at h
  exact h.left

theorem copiesKept_start : CopiesKept runId (d.locals []) (freshCopies runId []) start.store :=
  ⟨fun _ _ h => (by cases h), fun _ _ h => (by cases h), fun _ h => (by cases h)⟩

/-- **Every run of fresh saves.** -/
theorem copiesKept (h : d.Fresh runId ls) :
    CopiesKept runId (d.locals (d.trace ls)) (freshCopies runId (d.trace ls)) (d.store ls) := by
  obtain ⟨-, hend⟩ := d.system.trace_induction
    (fun trace w => CopiesKept runId (d.locals trace) (freshCopies runId trace) w)
    (show CopiesKept runId (d.locals []) (freshCopies runId []) start.store from copiesKept_start)
    (fun earlier x later htrace hkept => by
      rw [freshCopies_concat]
      exact hkept.step (d.allows htrace) (h.at htrace))
  exact hend

/-- **A terminal state is final.**  Every save is made over a copy that is running. -/
theorem terminal_later (h : d.Fresh runId (ls₁ ++ ls₂))
    (hstate : (d.store ls₁).states runId = some state)
    (hterminal : state.status.isTerminal = true) :
    (d.store (ls₁ ++ ls₂)).states runId = some state := by
  have hlater := d.later_induction (fun trace w =>
    CopiesKept runId (d.locals trace) (freshCopies runId trace) w ∧ w.states runId = some state)
    ⟨copiesKept h.left, hstate⟩ (fun earlier x later htrace ⟨hkept, hstored⟩ => by
      rw [freshCopies_concat]
      refine ⟨hkept.step (d.allows htrace) (h.at htrace), ?_⟩
      rcases states_after hkept (d.allows htrace) (h.at htrace) with hsame | ⟨hnone, -⟩ |
        ⟨base, point, state, hbase, hsaves, hafter⟩
      · exact hsame.trans hstored
      · rw [hstored] at hnone
        cases hnone
      rw [hstored] at hbase
      cases hbase
      rw [hsaves.base_running] at hterminal
      cases hterminal)
  exact hlater.2.2

/-! ## Requests -/

def Intended (state : PipelineRunState) : Prop :=
  state.status = .running → state.cancellationIntent = true

/-- A client has loaded the run of its copy, and where its last save was a request, the run is
over or is about to be cancelled. -/
structure Requested (runId : String) (locals : ℕ → Local) (w : World) : Prop where
  own : ∀ i base, (locals i).base = some base → (locals i).loaded = some base.runId
  kept : ∀ i, (locals i).loaded = some runId → (locals i).point = some .intent →
    ∃ state, w.states runId = some state ∧ Intended state

variable {trace : List (ℕ × Event World Cmd)} {copies : ℕ → Freshness}

/-- What can be saved over a run that is about to be cancelled. -/
theorem intended_cases
    (hkept : CopiesKept runId (d.locals trace) copies w) (hbase : w.states runId = some base)
    (hintended : Intended base) (hsaves : Saves d.coordinator l base point state) :
    point = .terminal ∧ state.status.isTerminal = true ∨
      point = .intent ∧ state = { base with cancellationIntent := true } := by
  have hrunning := hsaves.base_running
  refine hsaves.of_intended (hintended hrunning) ?_
  by_contra hcancelled
  have hterminal := hkept.cancelled base hbase (by simpa using hcancelled)
  rw [hrunning] at hterminal
  cases hterminal

/-- A run that is over or about to be cancelled stays so. -/
theorem intended_after (hkept : CopiesKept runId (d.locals trace) copies x.2.before)
    (hallows : (d.locals trace x.1).allows d.coordinator x.2.cmd)
    (hfresh : SavesFresh runId copies x)
    (h : ∃ state, x.2.before.states runId = some state ∧ Intended state) :
    ∃ state, (d.system.after x.2).states runId = some state ∧ Intended state := by
  obtain ⟨stored, hstored, hintended⟩ := h
  rcases states_after hkept hallows hfresh with hsame | ⟨hnone, -⟩ |
    ⟨base, point, state, hbase, hsaves, hafter⟩
  · exact ⟨stored, hsame.trans hstored, hintended⟩
  · rw [hstored] at hnone
    cases hnone
  rw [hstored] at hbase
  cases hbase
  refine ⟨state, hafter, fun hrunning => ?_⟩
  rcases intended_cases hkept hstored hintended hsaves with ⟨-, hterminal⟩ | ⟨-, rfl⟩
  · rw [hrunning] at hterminal
    cases hterminal
  · rfl

/-- **One event** keeps a run whose cancellation was requested over or about to be cancelled. -/
theorem Requested.step (h : Requested runId (d.locals trace) x.2.before)
    (hkept : CopiesKept runId (d.locals trace) copies x.2.before)
    (hallows : (d.locals trace x.1).allows d.coordinator x.2.cmd)
    (hfresh : SavesFresh runId copies x) :
    Requested runId (d.locals (trace ++ [x])) (d.system.after x.2) := by
  have hlater := intended_after hkept hallows hfresh
  have hlocals : x.2.cmd.isCopy = false → ∀ i,
      (d.locals (trace ++ [x]) i).base = (d.locals trace i).base ∧
      (d.locals (trace ++ [x]) i).loaded = (d.locals trace i).loaded ∧
      (d.locals (trace ++ [x]) i).point = (d.locals trace i).point :=
    d.locals_concat_same
  obtain ⟨j, cmd, w⟩ := x
  have hown : ∀ i base, (d.locals trace i).base = some base →
      (d.locals trace i).loaded = some base.runId := h.own
  have hsame : ∀ i, (d.locals trace i).loaded = some runId →
      (d.locals trace i).point = some .intent →
      ∃ state, (exec d.providers cmd w).2.states runId = some state ∧ Intended state :=
    fun i hloaded hpoint => hlater (h.kept i hloaded hpoint)
  have hquiet : cmd.isCopy = false → Requested runId (d.locals (trace ++ [(j, ⟨cmd, w⟩)]))
      (exec d.providers cmd w).2 := by
    intro hcopy
    refine ⟨fun i base hbase => ?_, fun i hloaded hpoint => ?_⟩
    · obtain ⟨hbase', hloaded', -⟩ := hlocals hcopy i
      rw [hbase'] at hbase
      rw [hloaded']
      exact hown i base hbase
    · obtain ⟨-, hloaded', hpoint'⟩ := hlocals hcopy i
      rw [hloaded'] at hloaded
      rw [hpoint'] at hpoint
      exact hsame i hloaded hpoint
  rcases cmd.cases_states with ⟨point, state, rfl⟩ | ⟨state, rfl⟩ | ⟨loaded, rfl⟩ | ⟨-, hcopy⟩
  · obtain ⟨base, hbase, hsaves⟩ := hallows
    rw [d.locals_concat]
    refine ⟨fun i other hother => ?_, fun i hloaded hpoint => ?_⟩
    · by_cases hi : i = j
      · subst hi
        rw [update_self] at hother ⊢
        obtain rfl := some.inj hother
        rw [hsaves.runId_eq]
        exact hown i base hbase
      · rw [update_of_ne hi] at hother ⊢
        exact hown i other hother
    · by_cases hi : i = j
      · subst hi
        rw [update_self] at hloaded hpoint
        have hrun : base.runId = runId := some.inj ((hown i base hbase).symm.trans hloaded)
        have hintent : point = .intent := some.inj hpoint
        subst hintent
        obtain ⟨hrunning, -⟩ := hsaves
        subst hrun
        exact ⟨_, update_self .., fun _ => rfl⟩
      · rw [update_of_ne hi] at hloaded hpoint
        exact hsame i hloaded hpoint
  · exact hquiet rfl
  · rw [d.locals_concat]
    refine ⟨fun i base hbase => ?_, fun i hloaded hpoint => ?_⟩
    · by_cases hi : i = j
      · subst hi
        rw [update_self] at hbase ⊢
        cases hfound : w.states loaded with
        | none =>
          simp only [exec, hfound, Local.note] at hbase ⊢
          exact hown i base hbase
        | some state =>
          simp only [exec, hfound, Local.note, Local.load] at hbase ⊢
          obtain rfl := some.inj hbase
          rw [hkept.keyed loaded state hfound]
      · rw [update_of_ne hi] at hbase ⊢
        exact hown i base hbase
    · by_cases hi : i = j
      · subst hi
        rw [update_self] at hloaded hpoint
        cases hfound : w.states loaded with
        | none =>
          simp only [exec, hfound, Local.note] at hloaded hpoint
          exact hsame i hloaded hpoint
        | some state =>
          -- A client that has just loaded has not saved since.
          simp only [exec, hfound, Local.note] at hpoint
          cases hpoint
      · rw [update_of_ne hi] at hloaded hpoint
        exact hsame i hloaded hpoint
  · exact hquiet hcopy

theorem requested_of_result (h : d.Fresh runId ls)
    (hresult : (d.system.run start ls).result i = some (.ok (.cancellation runId true))) :
    ∃ state, (d.store ls).states runId = some state ∧ Intended state := by
  obtain ⟨-, -, hend⟩ := d.system.trace_induction
    (fun trace w => CopiesKept runId (d.locals trace) (freshCopies runId trace) w ∧
      Requested runId (d.locals trace) w)
    (show CopiesKept runId (d.locals []) (freshCopies runId []) start.store ∧
        Requested runId (d.locals []) start.store from
      ⟨copiesKept_start, fun _ _ h => (by cases h), fun _ h => (by cases h)⟩)
    (fun earlier x later htrace ⟨hkept, hrequested⟩ => by
      rw [freshCopies_concat]
      exact ⟨hkept.step (d.allows htrace) (h.at htrace),
        hrequested.step hkept (d.allows htrace) (h.at htrace)⟩)
  obtain ⟨-, hfinished⟩ := d.finished_of_result hresult
  obtain ⟨hloaded, hpoint⟩ := hfinished runId rfl
  exact hend.kept i hloaded hpoint

/-- The command starts an attempt of a stage of the run. -/
def StartsAttempt (runId : String) (cmd : Cmd) : Prop :=
  ∃ state, cmd = .hset .started state ∧ state.runId = runId

/-- **A requested cancellation is not lost.** -/
theorem requested_later (h : d.Fresh runId (ls₁ ++ ls₂))
    (hresult : (d.system.run start ls₁).result i = some (.ok (.cancellation runId true))) :
    (∀ x ∈ d.system.trace (d.system.run start ls₁) ls₂, ¬ StartsAttempt runId x.2.cmd) ∧
      ∃ state, (d.store (ls₁ ++ ls₂)).states runId = some state ∧ Intended state := by
  obtain ⟨hall, -, hend⟩ := d.later_induction (fun trace w =>
    CopiesKept runId (d.locals trace) (freshCopies runId trace) w ∧
      ∃ state, w.states runId = some state ∧ Intended state)
    ⟨copiesKept h.left, requested_of_result h.left hresult⟩
    (fun earlier x later htrace ⟨hkept, hintended⟩ => by
      rw [freshCopies_concat]
      exact ⟨hkept.step (d.allows htrace) (h.at htrace),
        intended_after hkept (d.allows htrace) (h.at htrace) hintended⟩)
  refine ⟨?_, hend⟩
  rintro ⟨j, cmd, w⟩ hx ⟨state, rfl, hrun⟩
  obtain ⟨earlier, later, htrace, hkept, stored, hstored, hintended⟩ := hall _ hx
  obtain ⟨base, hbase, hsaves⟩ := d.allows htrace
  obtain ⟨_, hstored', hfits⟩ := hkept.copies j base hbase (hsaves.runId_eq.symm.trans hrun)
  have hfresh : freshCopies runId earlier j = .fresh := h.at htrace hrun
  rw [hfresh] at hfits
  obtain rfl : _ = base := hfits
  rw [hstored] at hstored'
  cases hstored'
  rcases intended_cases hkept hstored hintended hsaves with ⟨hpoint, -⟩ | ⟨hpoint, -⟩
  all_goals
    cases hpoint

/-- **Terminal states and cancellations.**  From any point of a run on, a status that is
terminal there is kept, and after a request that was granted no attempt is started and the run
keeps its intent until it is terminal. -/
def FinalFrom (d : Deployment) (runId : String) (ls₁ ls₂ : List (Label CoordinatorOp)) : Prop :=
  (∀ before, (d.store ls₁).states runId = some before → before.status.isTerminal = true →
    ∃ after, (d.store (ls₁ ++ ls₂)).states runId = some after ∧ after.status = before.status) ∧
  ∀ i, (d.system.run start ls₁).result i = some (.ok (.cancellation runId true)) →
    (∀ x ∈ d.system.trace (d.system.run start ls₁) ls₂, ¬ StartsAttempt runId x.2.cmd) ∧
    ∃ after, (d.store (ls₁ ++ ls₂)).states runId = some after ∧
      (after.status = .running → after.cancellationIntent = true)

/-- **Terminal states are final**, and cancellations are not lost, from any point on of every run in
which each save is of a copy that is not stale. -/
theorem finalFrom_of_fresh (d : Deployment) (runId : String)
    (ls₁ ls₂ : List (Label CoordinatorOp)) (h : d.Fresh runId (ls₁ ++ ls₂)) :
    d.FinalFrom runId ls₁ ls₂ := by
  refine ⟨fun before hbefore hterminal => ?_, fun i hresult => requested_later h hresult⟩
  exact ⟨before, terminal_later h hbefore hterminal, rfl⟩

/-! ## A pipeline of one stage -/

/-- The run is submitted, and its cancellation is requested and granted. -/
def cancelledRequest : List (Label CoordinatorOp) :=
  .start (.submitParent "run" oneStage []) :: List.replicate 2 (.act 0) ++
    .start (.requestCancellation 1 "run") :: List.replicate 5 (.act 1)

/-- A consumer takes the run up. -/
def consumption : List (Label CoordinatorOp) :=
  .start (.processOne 0 "consumer" "now") :: List.replicate 20 (.act 2)

/-- A request that is granted before a consumer takes the run up. -/
theorem finalFrom_of_request_first :
    (obliging.system.run start cancelledRequest).result 1 = some (.ok (.cancellation "run" true)) ∧
      obliging.Fresh "run" (cancelledRequest ++ consumption) ∧
      obliging.FinalFrom "run" cancelledRequest consumption := by
  have hgranted : (obliging.system.run start cancelledRequest).result 1 =
      some (.ok (.cancellation "run" true)) := rfl
  have hfresh : obliging.Fresh "run" (cancelledRequest ++ consumption) := by decide +kernel
  exact ⟨hgranted, hfresh, finalFrom_of_fresh obliging "run" cancelledRequest consumption hfresh⟩

/-- A request loads the run, and a consumer completes it before the request is saved. -/
def overtakenRequest : List (Label CoordinatorOp) :=
  .start (.submitParent "run" oneStage []) :: List.replicate 2 (.act 0) ++
    .start (.processOne 0 "consumer" "now") :: .start (.requestCancellation 1 "run") ::
    .act 2 :: List.replicate 20 (.act 1)

/-- A request that was loaded before the run completed makes it running again. -/
theorem not_finalFrom_of_overtaken : ¬ obliging.FinalFrom "run" overtakenRequest [.act 2] := by
  have hbefore : ((obliging.store overtakenRequest).states "run").map PipelineRunState.status =
      some .completed := by decide +kernel
  have hafter : ((obliging.store (overtakenRequest ++ [.act 2])).states "run").map
      PipelineRunState.status = some .running := by decide +kernel
  intro h
  obtain ⟨before, hstored, hstatus⟩ := map_eq_some_iff.mp hbefore
  obtain ⟨after, hstored', hsame⟩ := h.1 before hstored (by rw [hstatus]; rfl)
  rw [hstored', map_some, hsame, hstatus] at hafter
  cases hafter

end Deployment

end GpuManager.Coordinator
