import GpuManager.Coordinator.Saves

/-!
# No parent run is lost

A run is taken up again as long as the parent stream has an entry for it that is not yet
delivered or still pending.  Entries are acknowledged on four paths: after a terminal result,
when an entry is replaced by a fresh one, when a cancellation wakes the run, and when duplicates
are consolidated.  The first is safe only if the terminal state is really stored, and
`_terminalize` does not look at what its save answers.

Here every Redis command may fail, with or without having been executed.  The entry that
carries a running run is its *newest* one: duplicates are acknowledged only where a newer entry
of the same run was seen.  A run is lost where a client acts on a terminal state that is not
what is stored, so the condition of this module is about the saves alone: no save of a
terminal state is refused, and no running copy is saved over a terminal state.
-/

namespace GpuManager.Coordinator

open AtomicProgram List Option Function

/-! ## Failing commands -/

/-- What happens to a Redis command. -/
inductive Fault where
  | none
  /-- The command is not executed and raises. -/
  | rejected
  /-- The command is executed and its reply is lost. -/
  | lost
  deriving DecidableEq

/-- What a Redis command raises; the memory of a process and the providers do not fail so. -/
def Cmd.raised : (c : Cmd) → Option (Reply c)
  | .hgetall _ => some (.error .raised)
  | .hset _ _ => some (.error .raised)
  | .evalSubmitParent _ => some (.error .raised)
  | .xaddEvent _ _ => some (.error .raised)
  | .xaddParent _ => some (.error .raised)
  | .xreadgroup _ => some (.error .raised)
  | .xack _ => some (.error .raised)
  | .xpendingRange _ => some (.error .raised)
  | .xrange _ => some (.error .raised)
  | .xclaim _ _ _ => some (.error .raised)
  | .replaceParent _ _ => some (.error .raised)
  | _ => none

/-- The world and the number of commands that were issued. -/
structure FaultyWorld where
  world : World := {}
  issued : ℕ := 0

/-- One command, with the fault that the schedule has for it. -/
def execFaulty (providers : Providers) (faults : ℕ → Fault) (c : Cmd) (s : FaultyWorld) :
    Reply c × FaultyWorld :=
  match c.raised, faults s.issued with
  | some raised, .rejected => (raised, ⟨s.world, s.issued + 1⟩)
  | some raised, .lost => (raised, ⟨(exec providers c s.world).2, s.issued + 1⟩)
  | _, _ => ((exec providers c s.world).1, ⟨(exec providers c s.world).2, s.issued + 1⟩)

/-- Any number of clients on a store whose commands may fail. -/
def Deployment.faultySystem (d : Deployment) (faults : ℕ → Fault) :
    System FaultyWorld Cmd Reply CoordinatorError Outcome CoordinatorOp where
  exec := execFaulty d.providers faults
  launch := fun _ op => some (d.program op)

def Deployment.faultyStart : Config FaultyWorld Cmd Reply CoordinatorError Outcome := ⟨{}, []⟩

/-- The three ways in which a command may end. -/
theorem execFaulty_cases (providers : Providers) (faults : ℕ → Fault) (c : Cmd) (s : FaultyWorld) :
    (c.raised.isSome → faults s.issued ≠ .rejected) ∧
        (execFaulty providers faults c s).1 = (exec providers c s.world).1 ∧
        (execFaulty providers faults c s).2.world = (exec providers c s.world).2 ∨
      faults s.issued ≠ .rejected ∧ c.raised = some (execFaulty providers faults c s).1 ∧
        (execFaulty providers faults c s).2.world = (exec providers c s.world).2 ∨
      faults s.issued = .rejected ∧ c.raised = some (execFaulty providers faults c s).1 ∧
        (execFaulty providers faults c s).2.world = s.world := by
  unfold execFaulty
  split
  · rename_i raised hraised hfault
    exact Or.inr (Or.inr ⟨hfault, hraised, rfl⟩)
  · rename_i raised hraised hfault
    refine Or.inr (Or.inl ⟨?_, hraised, rfl⟩)
    rw [hfault]
    exact nofun
  · rename_i hother _
    refine Or.inl ⟨fun hsome hfault => ?_, rfl, rfl⟩
    obtain ⟨raised, hraised⟩ := isSome_iff_exists.mp hsome
    exact hother raised hraised hfault

/-! ## Entries of the parent stream -/

/-- The entry is not yet delivered to the group or still pending in it. -/
def World.Open (w : World) (entryId : ℕ) : Prop :=
  w.delivered ≤ entryId ∨ ∃ e ∈ w.pel, e.entryId = entryId

/-- The newest entry of a run. -/
structure World.Newest (w : World) (runId : String) (entryId : ℕ) : Prop where
  entry : w.stream[entryId]? = some runId
  newest : ∀ other, w.stream[other]? = some runId → other ≤ entryId

/-- The newest entry of the run is not yet delivered or still pending. -/
def World.Carries (w : World) (runId : String) : Prop :=
  ∃ entryId, w.Newest runId entryId ∧ w.Open entryId

variable {w' : World} {runId : String} {entryIds : List ℕ} {entryId : ℕ}

theorem World.Carries.congr {w : World} (h : w.Carries runId)
    (hstream : w'.stream = w.stream) (hdelivered : w'.delivered = w.delivered)
    (hpel : w'.pel = w.pel) : w'.Carries runId := by
  obtain ⟨entryId, ⟨hentry, hnewest⟩, hopen⟩ := h
  refine ⟨entryId, ⟨?_, ?_⟩, ?_⟩
  · rw [hstream]
    exact hentry
  · rw [hstream]
    exact hnewest
  · unfold World.Open
    rw [hdelivered, hpel]
    exact hopen

/-- Every running run has an entry that is not yet delivered or still pending. -/
def World.NoneLost (w : World) : Prop :=
  ∀ runId state, w.states runId = some state → state.status = .running →
    ∃ entryId, w.stream[entryId]? = some runId ∧ w.Open entryId

/-- What is kept about the store. -/
structure ParentsKept (w : World) : Prop where
  keyed : ∀ key state, w.states key = some state → state.runId = key
  delivered_le : w.delivered ≤ w.stream.length
  remembered : ∀ store runId entryId, w.entryIds store runId = some entryId →
    w.stream[entryId]? = some runId
  carried : ∀ runId state, w.states runId = some state → state.status = .running → w.Carries runId

/-- What a client holds is true: its copy is terminal only if the run is, and it knows the
entries of the stream by their runs. -/
structure Holds (w : World) (l : Local) : Prop where
  base : ∀ base, l.base = some base → ∃ stored, w.states base.runId = some stored ∧
    (base.status.isTerminal = true → stored.status.isTerminal = true)
  claimed : ∀ runId entryId, l.claimed = some (runId, entryId) → w.stream[entryId]? = some runId
  seen : ∀ entryId runId, (entryId, runId) ∈ l.seen → w.stream[entryId]? = some runId

/-- The stream only grows, and a terminal run stays terminal. -/
structure Onwards (w w' : World) : Prop where
  stream : w.stream <+: w'.stream
  states : ∀ runId stored, w.states runId = some stored → ∃ stored', w'.states runId = some stored' ∧
    (stored.status.isTerminal = true → stored'.status.isTerminal = true)

theorem Onwards.entry {w : World} (h : Onwards w w')
    (hentry : w.stream[entryId]? = some runId) : w'.stream[entryId]? = some runId := by
  obtain ⟨rest, hrest⟩ := h.stream
  rw [← hrest, List.getElem?_append_left (List.getElem?_eq_some_iff.mp hentry).1]
  exact hentry

/-- What a client holds stays true. -/
theorem Holds.onwards {w : World} {l : Local} (h : Holds w l) (hle : Onwards w w') :
    Holds w' l := by
  refine ⟨fun base hbase => ?_, fun runId entryId hclaimed => ?_, fun entryId runId hseen => ?_⟩
  · obtain ⟨stored, hstored, hterminal⟩ := h.base base hbase
    obtain ⟨stored', hstored', hterminal'⟩ := hle.states base.runId stored hstored
    exact ⟨stored', hstored', fun hbase => hterminal' (hterminal hbase)⟩
  · exact hle.entry (h.claimed runId entryId hclaimed)
  · exact hle.entry (h.seen entryId runId hseen)

theorem Onwards.refl (w : World) : Onwards w w :=
  ⟨prefix_rfl, fun _ stored hstored => ⟨stored, hstored, id⟩⟩

theorem Onwards.trans {w w'' : World} (h : Onwards w w') (h' : Onwards w' w'') : Onwards w w'' := by
  refine ⟨h.stream.trans h'.stream, fun runId stored hstored => ?_⟩
  obtain ⟨stored', hstored', hterminal⟩ := h.states runId stored hstored
  obtain ⟨stored'', hstored'', hterminal'⟩ := h'.states runId stored' hstored'
  exact ⟨stored'', hstored'', fun hold => hterminal' (hterminal hold)⟩

/-- A command that touches neither the stream nor a state. -/
theorem onwards_of_eq {w : World} (hstream : w'.stream = w.stream) (hstates : w'.states = w.states)
    : Onwards w w' := by
  refine ⟨hstream ▸ prefix_rfl, fun runId stored hstored => ⟨stored, ?_, id⟩⟩
  rw [hstates]
  exact hstored

/-! ## The updates of the store -/

section Updates

variable {w : World}

/-- A state may be saved over what is stored if it is terminal or that is running. -/
def World.Takes (w : World) (state : PipelineRunState) : Prop :=
  state.status.isTerminal = false → ∀ stored ∈ w.states state.runId,
    stored.status.isTerminal = false

variable {state : PipelineRunState}

theorem isTerminal_eq_false : state.status.isTerminal = false ↔ state.status = .running := by
  cases hstatus : state.status <;> simp [RunStatus.isTerminal]

theorem states_setState (w : World) (state : PipelineRunState) (runId : String) :
    (w.setState state).states runId = if runId = state.runId then some state else w.states runId := by
  unfold World.setState
  split
  · rename_i hrun
    subst hrun
    exact update_self ..
  · rename_i hrun
    exact update_of_ne hrun _ _

theorem onwards_setState (h : w.Takes state) : Onwards w (w.setState state) := by
  refine ⟨prefix_rfl, fun runId stored hstored => ?_⟩
  rw [states_setState]
  split
  · rename_i hrun
    subst hrun
    refine ⟨state, rfl, fun hterminal => ?_⟩
    by_contra hopen
    have hstill := h (by simpa using hopen) stored hstored
    rw [hterminal] at hstill
    cases hstill
  · exact ⟨stored, hstored, id⟩

/-- A save over a stored state. -/
theorem ParentsKept.setState (h : ParentsKept w) (htakes : w.Takes state)
    (hstored : (w.states state.runId).isSome) : ParentsKept (w.setState state) := by
  refine ⟨fun key other hother => ?_, h.delivered_le, h.remembered, fun runId other hother hrunning => ?_⟩
  · rw [states_setState] at hother
    split at hother
    · rename_i hkey
      cases hother
      exact hkey.symm
    · exact h.keyed key other hother
  · have hcarries : w.Carries runId := by
      rw [states_setState] at hother
      split at hother
      · rename_i hrun
        subst hrun
        cases hother
        obtain ⟨stored, hstored⟩ := isSome_iff_exists.mp hstored
        have hopen := htakes (isTerminal_eq_false.mpr hrunning) stored hstored
        exact h.carried _ stored hstored (isTerminal_eq_false.mp hopen)
      · exact h.carried runId other hother hrunning
    exact hcarries.congr rfl rfl rfl

theorem onwards_addParent (w : World) (runId : String) : Onwards w (w.addParent runId) :=
  ⟨prefix_append _ _, fun _ stored hstored => ⟨stored, hstored, id⟩⟩

/-- The entry that was just added is the newest of its run. -/
theorem newest_addParent (w : World) (runId : String) :
    (w.addParent runId).Newest runId w.stream.length := by
  refine ⟨List.getElem?_concat_length, fun other hother => ?_⟩
  have hlt := (List.getElem?_eq_some_iff.mp hother).1
  simp only [World.addParent, length_append, length_singleton] at hlt
  omega

/-- The newest entry of a run stays so when an entry of another run is added. -/
theorem World.Newest.addParent {other : String} (h : w.Newest runId entryId)
    (hother : other ≠ runId) : (w.addParent other).Newest runId entryId := by
  refine ⟨(onwards_addParent w other).entry h.entry, fun later hlater => ?_⟩
  have hlt := (List.getElem?_eq_some_iff.mp hlater).1
  simp only [World.addParent, length_append, length_singleton] at hlt hlater
  by_cases hlast : later < w.stream.length
  · rw [List.getElem?_append_left hlast] at hlater
    exact h.newest later hlater
  obtain rfl : later = w.stream.length := by omega
  rw [List.getElem?_concat_length] at hlater
  exact absurd (some.inj hlater) hother

variable (h : ParentsKept w)
include h

theorem ParentsKept.addParent (runId : String) : ParentsKept (w.addParent runId) := by
  refine ⟨h.keyed, ?_, fun store other entryId hentry => ?_, fun other state hstate hrunning => ?_⟩
  · have hle := h.delivered_le
    simp only [World.addParent, length_append, length_singleton]
    omega
  · exact (onwards_addParent w runId).entry (h.remembered store other entryId hentry)
  · by_cases hrun : runId = other
    · subst hrun
      exact ⟨_, newest_addParent w runId, Or.inl h.delivered_le⟩
    · obtain ⟨entryId, hnewest, hopen⟩ := h.carried other state hstate hrunning
      exact ⟨entryId, hnewest.addParent hrun, hopen⟩

/-- Entries may be acknowledged where each of them belongs to a terminal run or is not the
newest of its run. -/
theorem ParentsKept.ack (hspent : ∀ entryId ∈ entryIds, ∀ runId state, w.states runId = some state →
      state.status = .running → ¬ w.Newest runId entryId) : ParentsKept (w.ack entryIds) := by
  refine ⟨h.keyed, h.delivered_le, h.remembered, fun runId state hstate hrunning => ?_⟩
  obtain ⟨entryId, hnewest, hopen⟩ := h.carried runId state hstate hrunning
  refine ⟨entryId, ⟨hnewest.entry, hnewest.newest⟩, ?_⟩
  rcases hopen with hundelivered | ⟨e, he, rfl⟩
  · exact Or.inl hundelivered
  · have hkept : e.entryId ∉ entryIds := fun hmem => hspent _ hmem runId state hstate hrunning hnewest
    exact Or.inr ⟨e, mem_filter.mpr ⟨he, by simpa using hkept⟩, rfl⟩

theorem ParentsKept.setEntryId {store : ℕ} {entryId : Option ℕ}
    (hentry : ∀ id, entryId = some id → w.stream[id]? = some runId) :
    ParentsKept (w.setEntryId store runId entryId) := by
  refine ⟨h.keyed, h.delivered_le, fun store' runId' entryId' hold => ?_,
    fun other state hstate hrunning => (h.carried other state hstate hrunning).congr rfl rfl rfl⟩
  simp only [World.setEntryId] at hold
  by_cases hstore : store' = store
  · subst hstore
    rw [update_self] at hold
    by_cases hrun : runId' = runId
    · subst hrun
      rw [update_self] at hold
      exact hentry entryId' hold
    · rw [update_of_ne hrun] at hold
      exact h.remembered store' runId' entryId' hold
  · rw [update_of_ne hstore] at hold
    exact h.remembered store' runId' entryId' hold

theorem ParentsKept.deliver (consumer : String) (hsome : w.delivered < w.stream.length) :
    ParentsKept
      { w with
        delivered := w.delivered + 1
        pel := w.pel ++ [⟨w.delivered, consumer, w.now⟩] } := by
  refine ⟨h.keyed, hsome, h.remembered, fun runId state hstate hrunning => ?_⟩
  obtain ⟨entryId, hnewest, hopen⟩ := h.carried runId state hstate hrunning
  refine ⟨entryId, ⟨hnewest.entry, hnewest.newest⟩, ?_⟩
  rcases hopen with hundelivered | ⟨e, he, rfl⟩
  · rcases Nat.eq_or_lt_of_le hundelivered with rfl | hlt
    · exact Or.inr ⟨_, mem_append_right _ (mem_singleton_self _), rfl⟩
    · exact Or.inl hlt
  · exact Or.inr ⟨e, mem_append_left _ he, rfl⟩

/-- A pending entry that changes hands stays pending. -/
theorem ParentsKept.claim {f : PendingEntry → PendingEntry} (hf : ∀ e, (f e).entryId = e.entryId) :
    ParentsKept { w with pel := w.pel.map f } := by
  refine ⟨h.keyed, h.delivered_le, h.remembered, fun runId state hstate hrunning => ?_⟩
  obtain ⟨entryId, hnewest, hopen⟩ := h.carried runId state hstate hrunning
  refine ⟨entryId, ⟨hnewest.entry, hnewest.newest⟩, ?_⟩
  rcases hopen with hundelivered | ⟨e, he, rfl⟩
  · exact Or.inl hundelivered
  · exact Or.inr ⟨f e, mem_map_of_mem he, hf e⟩

/-- What is kept does not depend on the events, the calls and the clock. -/
theorem ParentsKept.congr (events : String → List RunEvent) (now : ℕ) (calls : List ProviderCall) :
    ParentsKept { w with events := events, now := now, calls := calls } :=
  ⟨h.keyed, h.delivered_le, h.remembered, fun runId state hstate hrunning =>
    (h.carried runId state hstate hrunning).congr rfl rfl rfl⟩

end Updates

/-! ## One command -/

section Step

variable {coordinator : PipelineCoordinator} {providers : Providers} {w : World} {l : Local}
  {c : Cmd}

def Fits (w : World) : Cmd → Prop
  | .hset _ state => w.Takes state
  | _ => True

/-- A save is made over a copy whose run is stored. -/
theorem Holds.stored {point : SavePoint} {state : PipelineRunState} (h : Holds w l)
    (hallows : l.allows coordinator (.hset point state)) : (w.states state.runId).isSome := by
  obtain ⟨base, hbase, hsaves⟩ := hallows
  obtain ⟨stored, hstored, -⟩ := h.base base hbase
  rw [hsaves.runId_eq, hstored]
  rfl

/-- A command that fits keeps the stream and every terminal state. -/
theorem onwards_exec (hfits : Fits w c) : Onwards w (exec providers c w).2 := by
  cases c with
  | hset point state => exact onwards_setState hfits
  | evalSubmitParent state =>
    simp only [exec]
    split
    · exact Onwards.refl w
    rename_i hnew
    have htakes : w.Takes state := by
      intro _ stored hstored
      rw [mem_def] at hstored
      rw [hstored] at hnew
      exact absurd rfl hnew
    have hevent : Onwards (w.setState state)
        ((w.setState state).appendEvent state.runId .submitted) := onwards_of_eq rfl rfl
    exact ((onwards_setState htakes).trans hevent).trans (onwards_addParent _ state.runId)
  | xaddParent runId => exact onwards_addParent w runId
  | replaceParent runId entryId => exact (onwards_addParent w runId).trans (onwards_of_eq rfl rfl)
  | xreadgroup consumer =>
    simp only [exec]
    split
    · exact Onwards.refl w
    · exact onwards_of_eq rfl rfl
  | xclaim consumer minIdleTime entryId =>
    simp only [exec]
    split
    · exact onwards_of_eq rfl rfl
    · exact Onwards.refl w
  | _ => exact onwards_of_eq rfl rfl

/-- An entry that is acknowledged belongs to a terminal run or is not the newest of its run. -/
theorem spent_of_allows (hl : Holds w l) (hallows : l.allows coordinator (.xack entryIds)) :
    ∀ entryId ∈ entryIds, ∀ runId state, w.states runId = some state → state.status = .running →
      ¬ w.Newest runId entryId := by
  intro entryId hmem runId state hstate hrunning hnewest
  rcases hallows with ⟨base, claimedId, hbase, hterminal, hclaimed, rfl⟩ | hduplicates
  · rw [mem_singleton.mp hmem] at hnewest
    have hentry := hl.claimed base.runId claimedId hclaimed
    rw [hnewest.entry] at hentry
    obtain rfl := some.inj hentry
    obtain ⟨stored, hstored, hsame⟩ := hl.base base hbase
    rw [hstate] at hstored
    obtain rfl := some.inj hstored
    have hover := hsame hterminal
    rw [hrunning] at hover
    cases hover
  · obtain ⟨other, newer, hseen, hnewer, hlt⟩ := hduplicates entryId hmem
    have hentry := hl.seen entryId other hseen
    rw [hnewest.entry] at hentry
    obtain rfl := some.inj hentry
    exact absurd (hnewest.newest newer (hl.seen newer runId hnewer)) (Nat.not_le.mpr hlt)

/-- A run that is created is carried by the entry that is added with it. -/
theorem ParentsKept.submit (h : ParentsKept w) (state : PipelineRunState) :
    ParentsKept (((w.setState state).appendEvent state.runId .submitted).addParent state.runId) := by
  refine ⟨fun key other hother => ?_, ?_, fun store runId entryId hentry => ?_,
    fun runId other hother hrunning => ?_⟩
  · have hother : (w.setState state).states key = some other := hother
    rw [states_setState] at hother
    split at hother
    · rename_i hkey
      cases hother
      exact hkey.symm
    · exact h.keyed key other hother
  · exact (h.addParent state.runId).delivered_le
  · exact (h.addParent state.runId).remembered store runId entryId hentry
  · by_cases hrun : state.runId = runId
    · subst hrun
      exact ⟨w.stream.length, newest_addParent _ state.runId, Or.inl h.delivered_le⟩
    have hother : (w.setState state).states runId = some other := hother
    rw [states_setState, if_neg (Ne.symm hrun)] at hother
    obtain ⟨entryId, hnewest, hopen⟩ := h.carried runId other hother hrunning
    have hadded := hnewest.addParent hrun
    exact ⟨entryId, ⟨hadded.entry, hadded.newest⟩, hopen⟩

/-- A command that fits keeps an entry for every running run. -/
theorem ParentsKept.exec (h : ParentsKept w) (hl : Holds w l) (hallows : l.allows coordinator c)
    (hfits : Fits w c) : ParentsKept (exec providers c w).2 := by
  cases c with
  | hset point state => exact h.setState hfits (hl.stored hallows)
  | evalSubmitParent state =>
    simp only [Coordinator.exec]
    split
    · exact h
    · exact h.submit state
  | xaddEvent runId event => exact h.congr _ w.now w.calls
  | xaddParent runId => exact h.addParent runId
  | xreadgroup consumer =>
    simp only [Coordinator.exec]
    split
    · exact h
    · rename_i runId hnext
      exact h.deliver consumer (List.getElem?_eq_some_iff.mp hnext).1
  | xack entryIds => exact h.ack (spent_of_allows hl hallows)
  | xclaim consumer minIdleTime entryId =>
    simp only [Coordinator.exec]
    split
    · refine h.claim fun e => ?_
      split
      · rename_i heq
        exact heq.symm
      · rfl
    · exact h
  | replaceParent runId entryId =>
    have hentry : w.stream[entryId]? = some runId := hl.claimed runId entryId hallows
    refine (h.addParent runId).ack fun other hmem run state hstate hrunning hnewest => ?_
    -- The replaced entry is older than the one that was added for its run.
    rw [mem_singleton.mp hmem] at hnewest
    have hsame := (onwards_addParent w runId).entry hentry
    rw [hnewest.entry] at hsame
    obtain rfl := some.inj hsame
    have hle := hnewest.newest _ (newest_addParent w run).entry
    have hlt := (List.getElem?_eq_some_iff.mp hentry).1
    omega
  | setEntryId store runId entryId =>
    refine h.setEntryId fun id hid => ?_
    obtain rfl := some.inj hid
    exact hl.seen _ runId hallows
  | popEntryId store runId => exact h.setEntryId fun id hid => by cases hid
  | execute stage inputs state key | poll stage inputs state key handle | cancel runId stageId
  | leafSubmit stage inputs state key | leafPoll childJobId | leafCancel childJobId =>
    exact h.congr w.events w.now _
  | elapse milliseconds => exact h.congr w.events _ w.calls
  | hgetall runId | xpendingRange count | xrange entryId | getEntryId store runId => exact h

/-- What a client holds after the reply to a command. -/
theorem Holds.note (hl : Holds w l) (h : ParentsKept w) (hfits : Fits w c) :
    Holds (exec providers c w).2 (l.note c (exec providers c w).1) := by
  have hle : Onwards w (exec providers c w).2 := onwards_exec hfits
  have hsame := hl.onwards hle
  -- A client that has seen further entries of the stream.
  have hseen : ∀ entries : List (ℕ × String),
      (∀ entryId runId, (entryId, runId) ∈ entries → w.stream[entryId]? = some runId) →
      Holds (exec providers c w).2 { l with seen := entries ++ l.seen } := by
    intro entries hentries
    refine ⟨hsame.base, hsame.claimed, fun entryId runId hmem => ?_⟩
    rcases mem_append.mp hmem with hmem | hmem
    · exact hle.entry (hentries entryId runId hmem)
    · exact hsame.seen entryId runId hmem
  have hclaimed : ∀ store runId,
      Holds (exec providers c w).2
        { l with claimed := (w.entryIds store runId).map fun id => (runId, id) } := by
    intro store runId
    refine ⟨hsame.base, fun run entryId hid => ?_, hsame.seen⟩
    obtain ⟨id, hfound, hpair⟩ := map_eq_some_iff.mp hid
    cases hpair
    exact hle.entry (h.remembered store runId entryId hfound)
  cases c with
  | hgetall runId =>
    cases hfound : w.states runId with
    | none =>
      simp only [exec, hfound, Local.note]
      exact hl
    | some state =>
      simp only [exec, hfound, Local.note]
      refine ⟨fun base hbase => ?_, hl.claimed, hl.seen⟩
      obtain rfl := some.inj hbase
      refine ⟨state, ?_, id⟩
      rw [h.keyed runId state hfound]
      exact hfound
  | hset point state =>
    refine ⟨fun base hbase => ?_, hsame.claimed, hsame.seen⟩
    obtain rfl := some.inj hbase
    exact ⟨state, update_self .., id⟩
  | xreadgroup consumer =>
    simp only [exec] at hseen hsame ⊢
    split
    · exact hl
    rename_i runId hnext
    simp only [hnext] at hseen
    refine hseen [(w.delivered, runId)] fun entryId run hmem => ?_
    cases mem_singleton.mp hmem
    exact hnext
  | xrange entryId =>
    refine hseen _ fun other runId hmem => ?_
    split at hmem
    · cases hmem
    rename_i run hfound
    cases mem_singleton.mp hmem
    exact hfound
  | xclaim consumer minIdleTime entryId =>
    simp only [exec] at hseen hsame ⊢
    split
    · rename_i runId _ hfound hpending
      simp only [hfound, hpending] at hseen
      refine hseen [(entryId, runId)] fun other run hmem => ?_
      cases mem_singleton.mp hmem
      exact hfound
    · exact hl
  | getEntryId store runId | popEntryId store runId => exact hclaimed store runId
  | xaddEvent runId event => cases event <;> exact ⟨hsame.base, hsame.claimed, hsame.seen⟩
  | execute stage inputs state key => exact ⟨hsame.base, hsame.claimed, hsame.seen⟩
  | leafSubmit stage inputs state key | leafPoll childJobId | leafCancel childJobId
  | cancel runId stageId =>
    simp only [exec, Local.note] at hsame ⊢
    split <;> exact ⟨hsame.base, hsame.claimed, hsame.seen⟩
  | _ => exact hsame

/-- A command that raised tells a client nothing, but a client takes its save for granted. -/
theorem Holds.note_raised {r : Reply c} (hl : Holds w l) (hraised : c.raised = some r)
    (hsaved : ∀ point state, c = .hset point state → ∃ stored, w.states state.runId = some stored ∧
      (state.status.isTerminal = true → stored.status.isTerminal = true)) :
    Holds w (l.note c r) := by
  cases c with
  | hset point state =>
    refine ⟨fun base hbase => ?_, hl.claimed, hl.seen⟩
    obtain rfl := some.inj hbase
    exact hsaved point state rfl
  | xaddEvent runId event => cases event <;> exact ⟨hl.base, hl.claimed, hl.seen⟩
  | hgetall runId | xreadgroup consumer | xrange entryId | xclaim consumer minIdleTime entryId =>
    cases hraised
    exact hl
  | evalSubmitParent state | xaddParent runId | xack entryIds | xpendingRange count
  | replaceParent runId entryId =>
    exact hl
  | _ => cases hraised

end Step

/-! ## Runs -/

/-- A save of a terminal state is not refused, and a running copy is not saved over a terminal
state. -/
def SaveKept (faults : ℕ → Fault) (x : ℕ × Event FaultyWorld Cmd) : Prop :=
  match x.2.cmd with
  | .hset _ state =>
    if faults x.2.before.issued = .rejected then state.status.isTerminal = false
    else x.2.before.world.Takes state
  | _ => True

instance (w : World) (state : PipelineRunState) : Decidable (w.Takes state) := by
  unfold World.Takes
  infer_instance

instance (faults : ℕ → Fault) (x : ℕ × Event FaultyWorld Cmd) : Decidable (SaveKept faults x) := by
  unfold SaveKept
  split <;> infer_instance

namespace Deployment

variable (d : Deployment) (faults : ℕ → Fault)

/-- The commands of a run, with the clients that issued them. -/
def faultyTrace (ls : List (Label CoordinatorOp)) : List (ℕ × Event FaultyWorld Cmd) :=
  (d.faultySystem faults).trace faultyStart ls

/-- The world at the end of a run. -/
def faultyStore (ls : List (Label CoordinatorOp)) : World :=
  ((d.faultySystem faults).run faultyStart ls).store.world

def faultyLocals (trace : List (ℕ × Event FaultyWorld Cmd)) : ℕ → Local :=
  (d.faultySystem faults).locals (monitor d.coordinator) (fun _ => {}) trace

variable {d faults}

variable {x : ℕ × Event FaultyWorld Cmd} {earlier : List (ℕ × Event FaultyWorld Cmd)}

/-- Whatever the clients are answered, they issue only commands that their monitor allows. -/
theorem faulty_allows {ls : List (Label CoordinatorOp)} {later : List (ℕ × Event FaultyWorld Cmd)}
    (h : d.faultyTrace faults ls = earlier ++ x :: later) :
    (d.faultyLocals faults earlier x.1).allows d.coordinator x.2.cmd := by
  have hlaunches : ∀ results op p, (∀ i r, results i = some r → ∃ l, Finished l r) →
      (fun _ : CoordinatorOp => True) op → (d.faultySystem faults).launch results op = some p →
      p.Obeys (monitor d.coordinator) Finished {} := by
    intro results op p _ _ hp
    cases hp
    exact program_obeys d op
  have hnobody : ∀ (i : ℕ) p, (faultyStart.clients)[i]? = some p →
      p.Obeys (monitor d.coordinator) Finished ((fun _ => {} : ℕ → Local) i) := by
    intro i p hp
    cases hp
  have hany : ∀ op, Label.start op ∈ ls → (fun _ : CoordinatorOp => True) op := fun _ _ => trivial
  exact ((d.faultySystem faults).obeys_run hlaunches hnobody (fun _ _ => rfl) hany).1 earlier x
    later h

/-- A save that is executed is one that the store may take. -/
theorem fits_of_saveKept (h : SaveKept faults x)
    (hexecuted : x.2.cmd.raised.isSome → faults x.2.before.issued ≠ .rejected) :
    Fits x.2.before.world x.2.cmd := by
  obtain ⟨i, cmd, s⟩ := x
  cases cmd with
  | hset point state =>
    have hnot : faults s.issued ≠ .rejected := hexecuted rfl
    simp only [SaveKept, if_neg hnot] at h
    exact h
  | _ => trivial

/-- **One command of a run.** -/
theorem parents_step (hallows : (d.faultyLocals faults earlier x.1).allows d.coordinator x.2.cmd)
    (hsave : SaveKept faults x)
    (h : ParentsKept x.2.before.world ∧ ∀ i, Holds x.2.before.world (d.faultyLocals faults earlier i))
    :
    ParentsKept ((d.faultySystem faults).after x.2).world ∧
      ∀ i, Holds ((d.faultySystem faults).after x.2).world
        (d.faultyLocals faults (earlier ++ [x]) i) := by
  obtain ⟨hkept, hholds⟩ := h
  have hlocals : d.faultyLocals faults (earlier ++ [x]) =
      update (d.faultyLocals faults earlier) x.1
        ((d.faultyLocals faults earlier x.1).note x.2.cmd
          (execFaulty d.providers faults x.2.cmd x.2.before).1) :=
    (d.faultySystem faults).locals_concat (monitor d.coordinator) _ earlier x
  -- The other clients hold what they held, and the client that acts takes note of the reply.
  have hall : ∀ w', Onwards x.2.before.world w' →
      Holds w' ((d.faultyLocals faults earlier x.1).note x.2.cmd
        (execFaulty d.providers faults x.2.cmd x.2.before).1) →
      ∀ i, Holds w' (d.faultyLocals faults (earlier ++ [x]) i) := by
    intro w' hle hactor i
    rw [hlocals]
    by_cases hi : i = x.1
    · subst hi
      rw [update_self]
      exact hactor
    · rw [update_of_ne hi]
      exact (hholds i).onwards hle
  change ParentsKept (execFaulty d.providers faults x.2.cmd x.2.before).2.world ∧
    ∀ i, Holds (execFaulty d.providers faults x.2.cmd x.2.before).2.world _
  rcases execFaulty_cases d.providers faults x.2.cmd x.2.before with
    ⟨hexecuted, hreply, hworld⟩ | ⟨hexecuted, hraised, hworld⟩ | ⟨hrejected, hraised, hworld⟩
  · have hfits := fits_of_saveKept hsave hexecuted
    rw [hworld]
    refine ⟨hkept.exec (hholds x.1) hallows hfits, hall _ (onwards_exec hfits) ?_⟩
    rw [hreply]
    exact (hholds x.1).note hkept hfits
  · have hfits := fits_of_saveKept hsave fun _ => hexecuted
    rw [hworld]
    refine ⟨hkept.exec (hholds x.1) hallows hfits, hall _ (onwards_exec hfits) ?_⟩
    refine ((hholds x.1).onwards (onwards_exec hfits)).note_raised hraised ?_
    intro point state hcmd
    rw [hcmd]
    exact ⟨state, update_self .., id⟩
  · rw [hworld]
    refine ⟨hkept, hall _ (Onwards.refl _) ?_⟩
    refine (hholds x.1).note_raised hraised ?_
    -- A save that is refused was of a running state.
    intro point state hcmd
    obtain ⟨stored, hstored⟩ := isSome_iff_exists.mp ((hholds x.1).stored (hcmd ▸ hallows))
    refine ⟨stored, hstored, fun hterminal => ?_⟩
    simp only [SaveKept, hcmd, if_pos hrejected] at hsave
    rw [hsave] at hterminal
    cases hterminal

/-- **No parent run is lost.**  In every run, whatever the order of the clients' commands and
wherever they fail or stop: if no save of a terminal state is refused and no running copy is
saved over a terminal state, then every running run has an entry that is not yet delivered or
still pending. -/
theorem noneLost_of_saveKept (d : Deployment) (faults : ℕ → Fault)
    (ls : List (Label CoordinatorOp)) (h : ∀ x ∈ d.faultyTrace faults ls, SaveKept faults x) :
    (d.faultyStore faults ls).NoneLost := by
  have hstart : ParentsKept faultyStart.store.world ∧
      ∀ i, Holds faultyStart.store.world (d.faultyLocals faults [] i) :=
    ⟨⟨fun _ _ h => (by cases h), le_rfl, fun _ _ _ h => (by cases h), fun _ _ h => (by cases h)⟩,
      fun _ => ⟨fun _ h => (by cases h), fun _ _ h => (by cases h), fun _ _ h => (by cases h)⟩⟩
  obtain ⟨-, hend, -⟩ := (d.faultySystem faults).trace_induction
    (fun trace s => ParentsKept s.world ∧ ∀ i, Holds s.world (d.faultyLocals faults trace i)) hstart
    (fun earlier x later htrace hkept => by
      have hmem : x ∈ d.faultyTrace faults ls := by
        have htrace : d.faultyTrace faults ls = earlier ++ x :: later := htrace
        rw [htrace]
        exact mem_append_right _ mem_cons_self
      exact parents_step (faulty_allows htrace) (h x hmem) hkept)
  intro runId state hstate hrunning
  obtain ⟨entryId, hnewest, hopen⟩ := hend.carried runId state hstate hrunning
  exact ⟨entryId, hnewest.entry, hopen⟩

/-! ## A pipeline of one stage -/

def submitAndProcess : List (Label CoordinatorOp) :=
  .start (.submitParent "run" oneStage []) :: List.replicate 2 (.act 0) ++
    .start (.processOne 0 "consumer" "now") :: List.replicate 20 (.act 1)

def terminalSaveFails (fault : Fault) (n : ℕ) : Fault := if n = 11 then fault else .none

/-- The reply to the save of the terminal state is lost. -/
theorem noneLost_of_lost_reply :
    (∀ x ∈ obliging.faultyTrace (terminalSaveFails .lost) submitAndProcess,
        SaveKept (terminalSaveFails .lost) x) ∧
      (obliging.faultyStore (terminalSaveFails .lost) submitAndProcess).NoneLost := by
  have hkept : ∀ x ∈ obliging.faultyTrace (terminalSaveFails .lost) submitAndProcess,
      SaveKept (terminalSaveFails .lost) x := by decide +kernel
  exact ⟨hkept, noneLost_of_saveKept obliging _ submitAndProcess hkept⟩

/-- The save of the terminal state is refused, and the entry is acknowledged all the same. -/
theorem not_noneLost_of_refused_save :
    ¬ (obliging.faultyStore (terminalSaveFails .rejected) submitAndProcess).NoneLost := by
  have hstatus : ((obliging.faultyStore (terminalSaveFails .rejected) submitAndProcess).states
      "run").map PipelineRunState.status = some .running := by decide +kernel
  have hstream : (obliging.faultyStore (terminalSaveFails .rejected) submitAndProcess).stream.length ≤
      (obliging.faultyStore (terminalSaveFails .rejected) submitAndProcess).delivered := by
    decide +kernel
  have hpel : (obliging.faultyStore (terminalSaveFails .rejected) submitAndProcess).pel.length = 0 := by
    decide +kernel
  intro h
  obtain ⟨state, hstate, hrunning⟩ := map_eq_some_iff.mp hstatus
  obtain ⟨entryId, hentry, hundelivered | ⟨e, he, -⟩⟩ := h "run" state hstate hrunning
  · have hlt := (List.getElem?_eq_some_iff.mp hentry).1
    omega
  · rw [length_eq_zero_iff.mp hpel] at he
    cases he

end Deployment

end GpuManager.Coordinator
