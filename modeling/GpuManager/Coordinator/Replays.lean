import GpuManager.Coordinator.Serial

/-!
# Completed work and its repetition

A run that is redelivered after a crash is advanced from what is stored.  Two things are asked:
the external executor is called at most once for an idempotency key, and a stage whose latest
attempt is COMPLETED is attempted again only after `correction_started`.

The first holds: an attempt is saved before it is executed, it is executed only by the process
that saved it, and the key determines the stage and the number of the attempt.

The second fails in three ways.  The record of a result, the decision on it and the move of the
cursor are saved one after the other, and a process that stops in between leaves a cursor on
completed work that `advance` does not skip, because the verdict failed or because the cursor
note of a correction is still there.  A process that stops between the schedule of a correction
and its event leaves a correction without its event.  And a loop whose continuation names a
stage twice attempts it twice for one event.  Without these three the second holds as well.
-/

namespace GpuManager.Coordinator

open AtomicProgram PipelineCoordinator PipelineRunState Option List

/-! ## Idempotency keys -/

theorem append_colon_inj {s s' d d' : List Char} (hd : ':' ∉ d) (hd' : ':' ∉ d')
    (h : s ++ ':' :: d = s' ++ ':' :: d') : s = s' ∧ d = d' := by
  rcases append_eq_append_iff.mp h with ⟨t, hs, ht⟩ | ⟨t, hs, ht⟩
  · cases t with
    | nil => exact ⟨by simpa using hs.symm, (List.cons.inj ht).2⟩
    | cons c t =>
      obtain ⟨-, hd''⟩ := List.cons.inj ht
      exact absurd (hd'' ▸ mem_append_right _ mem_cons_self) hd
  · cases t with
    | nil => exact ⟨by simpa using hs, (List.cons.inj ht).2.symm⟩
    | cons c t =>
      obtain ⟨-, hd''⟩ := List.cons.inj ht
      exact absurd (hd'' ▸ mem_append_right _ mem_cons_self) hd'

theorem colon_notMem_toString (n : ℕ) : ':' ∉ (toString n).toList := by
  intro hmem
  have hdigit : ':' ∈ Nat.toDigits 10 n := by simpa [Nat.toDigits] using hmem
  have hcolon := Nat.isDigit_of_mem_toDigits (by decide) (by decide) hdigit
  exact absurd hcolon (by decide)

theorem toString_inj {n n' : ℕ} (h : (toString n).toList = (toString n').toList) : n = n' := by
  have hint := PythonText.int_toString n
  rw [String.toList_inj.mp h, PythonText.int_toString] at hint
  exact_mod_cast (some.inj hint).symm

/-- What is hashed for an attempt of a run determines the stage and the number of the attempt. -/
theorem attempt_eq_of_text_eq {runId : String} {p q : String × ℕ}
    (h : runId ++ ":" ++ p.1 ++ ":" ++ toString p.2 =
      runId ++ ":" ++ q.1 ++ ":" ++ toString q.2) : p = q := by
  have htext := congrArg String.toList h
  simp only [String.toList_append, append_assoc, append_cancel_left_eq] at htext
  have hcolon : (":" : String).toList = [':'] := rfl
  rw [hcolon] at htext
  obtain ⟨hstage, hnumber⟩ := append_colon_inj (colon_notMem_toString p.2)
    (colon_notMem_toString q.2) (by simpa using htext)
  exact Prod.ext (String.toList_inj.mp hstage) (toString_inj hnumber)

/-- The key of a call of the external executor for the run. -/
def executedKey (runId : String) (e : Event World Cmd) : Option String :=
  match e.cmd with
  | .execute _ _ state key => if state.runId = runId then some key else none
  | _ => none

/-- The keys with which the external executor was called for the run. -/
def executedKeys (runId : String) (h : List (Event World Cmd)) : List String :=
  h.filterMap (executedKey runId)

/-- The attempt of a call of the external executor for the run: its stage and its number. -/
def executedAttempt (runId : String) (e : Event World Cmd) : Option (String × ℕ) :=
  match e.cmd with
  | .execute stage _ state _ =>
    if state.runId = runId then some (stage.id, (state.stageAttempts stage.id).length) else none
  | _ => none

/-- The attempts that the external executor was called for. -/
def executedAttempts (runId : String) (h : List (Event World Cmd)) : List (String × ℕ) :=
  h.filterMap (executedAttempt runId)

variable {e : Event World Cmd} {correctionStageId id loopId stageId : String} {loopMax : ℕ}

theorem executed_of_foreign {runId : String} (h : Foreign runId e.cmd) :
    executedKey runId e = none ∧ executedAttempt runId e = none := by
  obtain ⟨cmd, w⟩ := e
  cases cmd with
  | execute stage inputs state key =>
    have hother : state.runId ≠ runId := h
    simp [executedKey, executedAttempt, hother]
  | _ => exact ⟨rfl, rfl⟩

theorem executed_of_not_execute {runId : String}
    (h : ∀ stage inputs state key, e.cmd ≠ .execute stage inputs state key) :
    executedKey runId e = none ∧ executedAttempt runId e = none := by
  obtain ⟨cmd, w⟩ := e
  cases cmd with
  | execute stage inputs state key => exact absurd rfl (h stage inputs state key)
  | _ => exact ⟨rfl, rfl⟩

theorem executed_concat_of_none {runId : String} {h : List (Event World Cmd)}
    (hnone : executedKey runId e = none ∧ executedAttempt runId e = none) :
    executedKeys runId (h ++ [e]) = executedKeys runId h ∧
      executedAttempts runId (h ++ [e]) = executedAttempts runId h := by
  simp [executedKeys, executedAttempts, filterMap_append, hnone.1, hnone.2]

/-- Every attempt is executed at most once, under its own key. -/
structure ExecutedOnce (coordinator : PipelineCoordinator) (runId : String)
    (h : List (Event World Cmd)) (state : PipelineRunState) (holder : Option Local) : Prop where
  runId_eq : state.runId = runId
  nodup : (executedAttempts runId h).Nodup
  keys : executedKeys runId h = (executedAttempts runId h).map fun p =>
    coordinator.stageIdempotencyKey runId p.1 p.2
  bounded : ∀ p ∈ executedAttempts runId h, p.2 ≤ (state.stageAttempts p.1).length
  /-- An attempt that was just started is new. -/
  started : ∀ l, holder = some l → l.point = some .started → l.called = false →
    ∀ stage, state.currentStage = some stage →
      (stage.id, (state.stageAttempts stage.id).length) ∉ executedAttempts runId h ∧
      ∃ a, state.latestAttempt stage.id = some a ∧
        a.idempotencyKey = coordinator.stageIdempotencyKey runId stage.id
          (state.stageAttempts stage.id).length

variable {holder holder' : Option Local} {onCorrection : List String} {verdict : QCVerdict}

/-- The same where nothing was executed and the attempts are the same. -/
theorem ExecutedOnce.congr {coordinator : PipelineCoordinator} {runId : String}
    {h : List (Event World Cmd)} {state : PipelineRunState}
    (hK : ExecutedOnce coordinator runId h state holder)
    (hnone : executedKey runId e = none ∧ executedAttempt runId e = none)
    (hholder : ∀ l', holder' = some l' → l'.point = some .started → l'.called = false →
      ∃ l, holder = some l ∧ l.point = some .started ∧ l.called = false) :
    ExecutedOnce coordinator runId (h ++ [e]) state holder' := by
  obtain ⟨hkeys, hattempts⟩ := executed_concat_of_none (h := h) hnone
  refine ⟨hK.runId_eq, ?_, ?_, ?_, fun l' hl' hpoint hcalled => ?_⟩
  · rw [hattempts]
    exact hK.nodup
  · rw [hkeys, hattempts]
    exact hK.keys
  · rw [hattempts]
    exact hK.bounded
  · rw [hattempts]
    obtain ⟨l, hl, hpoint, hcalled⟩ := hholder l' hl' hpoint hcalled
    exact hK.started l hl hpoint hcalled

section ExecutedOnce

variable {d : Deployment} {runId : String} {h : List (Event World Cmd)} {w : World} {l : Local}
  {base state : PipelineRunState}

/-- A save keeps every key executed at most once. -/
theorem ExecutedOnce.save {point : SavePoint}
    (hK : ExecutedOnce d.coordinator runId h base (some l))
    (hsaves : Saves d.coordinator l base point state) :
    ExecutedOnce d.coordinator runId (h ++ [⟨.hset point state, w⟩]) state
      (some (l.saved point state)) := by
  have hnone : executedKey runId ⟨.hset point state, w⟩ = none ∧
      executedAttempt runId ⟨.hset point state, w⟩ = none := ⟨rfl, rfl⟩
  obtain ⟨hkeys, hattempts⟩ := executed_concat_of_none (h := h) hnone
  refine ⟨hsaves.runId_eq.trans hK.runId_eq, ?_, ?_, ?_, ?_⟩
  · rw [hattempts]
    exact hK.nodup
  · rw [hkeys, hattempts]
    exact hK.keys
  · rw [hattempts]
    exact fun p hp => (hK.bounded p hp).trans (hsaves.length_le p.1)
  · rw [hattempts]
    intro l' hl' hpoint _ stage hstage
    obtain rfl := some.inj hl'
    obtain rfl : point = .started := some.inj hpoint
    cases hsaves with
    | @started other live current due idle early =>
      obtain rfl : other = stage := some.inj (current.symm.trans hstage)
      have hlength : ((base.appendAttempt other.id
          (d.coordinator.nextAttempt base other.id)).stageAttempts other.id).length =
          (base.stageAttempts other.id).length + 1 := by
        simp [appendAttempt]
      rw [hlength]
      refine ⟨fun hmem => ?_, _, latestAttempt_appendAttempt base other.id _, ?_⟩
      · have hle := hK.bounded _ hmem
        simp at hle
      · rw [← hK.runId_eq]
        rfl

/-- Another command of the process that holds the run. -/
theorem ExecutedOnce.own
    (hK : ExecutedOnce d.coordinator runId h state (some l)) (hbase : l.base = some state)
    (hallows : l.allows d.coordinator e.cmd) (hsave : ∀ point written, e.cmd ≠ .hset point written)
    (hpoint : (l.note e.cmd (exec d.providers e.cmd e.before).1).point = l.point) :
    ExecutedOnce d.coordinator runId (h ++ [e]) state
      (some (l.note e.cmd (exec d.providers e.cmd e.before).1)) := by
  by_cases hexecute : ∃ stage inputs copy key, e.cmd = .execute stage inputs copy key
  · obtain ⟨stage, inputs, copy, key, hcmd⟩ := hexecute
    obtain ⟨cmd, before⟩ := e
    obtain rfl : cmd = _ := hcmd
    obtain ⟨hcopy, hstarted, hcalled, hcurrent, a, hlatest, hkey⟩ := hallows
    obtain rfl : state = copy := some.inj (hbase.symm.trans hcopy)
    obtain ⟨hnew, a', hlatest', hkey'⟩ := hK.started l rfl hstarted hcalled stage hcurrent
    obtain rfl : a = a' := some.inj (hlatest.symm.trans hlatest')
    have hkeys : executedKeys runId (h ++ [⟨.execute stage inputs state key, before⟩]) =
        executedKeys runId h ++ [key] := by
      simp [executedKeys, executedKey, filterMap_append, hK.runId_eq]
    have hattempts : executedAttempts runId (h ++ [⟨.execute stage inputs state key, before⟩]) =
        executedAttempts runId h ++ [(stage.id, (state.stageAttempts stage.id).length)] := by
      simp [executedAttempts, executedAttempt, filterMap_append, hK.runId_eq]
    refine ⟨hK.runId_eq, ?_, ?_, ?_, fun l' hl' _ hnot => ?_⟩
    · rw [hattempts, ← concat_eq_append]
      exact hK.nodup.concat hnew
    · rw [hkeys, hattempts, hK.keys, map_append, ← hkey, hkey']
      rfl
    · rw [hattempts]
      intro p hp
      rcases mem_append.mp hp with hp | hp
      · exact hK.bounded p hp
      · rw [mem_singleton.mp hp]
    · -- The executor was just called.
      obtain rfl := some.inj hl'
      cases hnot
  · have hother : ∀ stage inputs copy key, e.cmd ≠ .execute stage inputs copy key :=
      fun stage inputs copy key hcmd => hexecute ⟨stage, inputs, copy, key, hcmd⟩
    refine hK.congr (executed_of_not_execute hother) fun l' hl' hstarted hcalled => ?_
    obtain rfl := some.inj hl'
    rw [hpoint] at hstarted
    rw [note_called hsave hother] at hcalled
    exact ⟨l, rfl, hstarted, hcalled⟩

end ExecutedOnce

/-! ## The queue of a correction -/

/-- The stages of every loop are in the plan, which is what the compiler checks. -/
def CompiledPipeline.LoopsKnown (pipeline : CompiledPipeline) : Prop :=
  ∀ loop ∈ pipeline.loops, ∀ id ∈ loop.correctionStageId :: loop.onCorrection,
    (pipeline.stage? id).isSome

instance (pipeline : CompiledPipeline) : Decidable pipeline.LoopsKnown :=
  inferInstanceAs (Decidable (∀ loop ∈ pipeline.loops,
    ∀ id ∈ loop.correctionStageId :: loop.onCorrection, (pipeline.stage? id).isSome))

/-- No loop names a stage twice. -/
def CompiledPipeline.LoopsDistinct (pipeline : CompiledPipeline) : Prop :=
  ∀ loop ∈ pipeline.loops, (loop.correctionStageId :: loop.onCorrection).Nodup

instance (pipeline : CompiledPipeline) : Decidable pipeline.LoopsDistinct :=
  inferInstanceAs (Decidable (∀ loop ∈ pipeline.loops,
    (loop.correctionStageId :: loop.onCorrection).Nodup))

theorem correctionLoop_nodup {state : PipelineRunState}
    (hdistinct : state.compiledPipeline.LoopsDistinct)
    (h : correctionLoop state verdict = some (loopId, correctionStageId, onCorrection, loopMax)) :
    (correctionStageId :: onCorrection).Nodup := by
  rcases correctionLoop_cases h with ⟨loop, hloop, -, rfl, rfl, -⟩ | ⟨-, rfl, -⟩
  · exact hdistinct loop hloop
  · exact nodup_singleton _

theorem correctionLoop_known {state : PipelineRunState} (hknown : state.compiledPipeline.LoopsKnown)
    (h : correctionLoop state verdict = some (loopId, correctionStageId, onCorrection, loopMax)) :
    ∀ id ∈ correctionStageId :: onCorrection, (state.compiledPipeline.stage? id).isSome := by
  rcases correctionLoop_cases h with ⟨loop, hloop, -, rfl, rfl, -⟩ |
    ⟨⟨stage, hstage, -, rfl⟩, rfl, -⟩
  · exact hknown loop hloop
  intro id hid
  rw [mem_singleton.mp hid,
    CompiledPipeline.stage?_of_mem (mem_of_find?_eq_some hstage)]
  rfl

/-- The stages that wait in the queue are distinct, in the plan, and not under the cursor; and
the attempt of a result that was just recorded is COMPLETED exactly if the result is. -/
structure QueueKept (state : PipelineRunState) (holder : Option Local) : Prop where
  known : state.compiledPipeline.LoopsKnown
  distinct : state.compiledPipeline.LoopsDistinct
  nodup : state.pendingStageIds.Nodup
  apart : ∀ id, state.currentStageId = some id → id ∉ state.pendingStageIds
  planned : ∀ id ∈ state.pendingStageIds, (state.compiledPipeline.stage? id).isSome
  recorded : ∀ l stageId result, holder = some l → l.point = some (.recorded stageId result) →
    state.latestStageStatus stageId =
      some (if validatedStatus result = .completed then .completed else .failed)

/-- The same plan, the same queue and the same cursor. -/
def SamePlace (base state : PipelineRunState) : Prop :=
  state.compiledPipeline = base.compiledPipeline ∧
    state.pendingStageIds = base.pendingStageIds ∧ state.currentStageId = base.currentStageId

theorem SamePlace.terminal {base state : PipelineRunState} (h : SamePlace base state)
    (code : TerminalCode) (reason : String) : SamePlace base (state.terminal code reason) := by
  obtain ⟨artifact, text, heq⟩ := terminal_eq state code reason
  rw [heq]
  exact h

theorem QueueKept.of_same {base state : PipelineRunState}
    (h : QueueKept base holder) (hsame : SamePlace base state)
    (hrecorded : ∀ l stageId result, holder' = some l → l.point = some (.recorded stageId result) →
      state.latestStageStatus stageId =
        some (if validatedStatus result = .completed then .completed else .failed)) :
    QueueKept state holder' := by
  obtain ⟨hplan, hpending, hcurrent⟩ := hsame
  refine ⟨?_, ?_, ?_, ?_, ?_, hrecorded⟩
  · rw [hplan]
    exact h.known
  · rw [hplan]
    exact h.distinct
  · rw [hpending]
    exact h.nodup
  · rw [hpending, hcurrent]
    exact h.apart
  · rw [hpending, hplan]
    exact h.planned

/-- A save keeps the queue: distinct planned stages, none of them under the cursor. -/
theorem QueueKept.save {coordinator : PipelineCoordinator} {l : Local}
    {base state : PipelineRunState} {point : SavePoint} (h : QueueKept base (some l))
    (hsaves : Saves coordinator l base point state) :
    QueueKept state (some (l.saved point state)) := by
  -- Where no result is recorded, the last field says nothing.
  have hother : (∀ stageId result, point ≠ .recorded stageId result) →
      ∀ l' stageId result, some (l.saved point state) = some l' →
      l'.point = some (.recorded stageId result) → state.latestStageStatus stageId =
        some (if validatedStatus result = .completed then .completed else .failed) := by
    intro hpoint l' stageId result hl' hrecorded
    obtain rfl := some.inj hl'
    exact absurd (some.inj hrecorded) (hpoint stageId result)
  have hkeeps : (∀ stageId result, point ≠ .recorded stageId result) → SamePlace base state →
      QueueKept state (some (l.saved point state)) :=
    fun hpoint hsame => h.of_same hsame (hother hpoint)
  have hcopy : ∀ {stage a copy own}, Executing coordinator base stage a copy →
      SamePlace copy own → SamePlace base own := by
    intro stage a copy own hexecuting hsame
    rw [hexecuting.copy_eq] at hsame
    exact hsame
  have hbase : SamePlace base base := ⟨rfl, rfl, rfl⟩
  cases hsaves with
  | @dropped next remaining live pending idle missing early =>
    have hnodup := h.nodup
    rw [pending, nodup_cons] at hnodup
    refine ⟨h.known, h.distinct, hnodup.2, fun id hid hmem => ?_, fun id hid => ?_,
      hother (by simp)⟩
    · exact h.apart id hid (pending ▸ mem_cons_of_mem _ hmem)
    · exact h.planned id (pending ▸ mem_cons_of_mem _ hid)
  | @entered next remaining stage live pending idle found early =>
    have hnodup := h.nodup
    rw [pending, nodup_cons] at hnodup
    refine ⟨h.known, h.distinct, hnodup.2, fun id hid => ?_, fun id hid => ?_,
      hother (by simp)⟩
    · obtain rfl := some.inj hid
      exact hnodup.1
    · exact h.planned id (pending ▸ mem_cons_of_mem _ hid)
  | correction live current kind point verdict_eq failed loop bounded =>
    refine ⟨h.known, h.distinct, correctionLoop_nodup h.distinct loop, fun id hid => ?_,
      correctionLoop_known h.known loop, hother (by simp)⟩
    cases hid
  | queued live onward pending =>
    refine ⟨h.known, h.distinct, h.nodup, fun id hid => ?_, h.planned,
      hother (by simp)⟩
    cases hid
  | moved live onward pending ready other =>
    refine ⟨h.known, h.distinct, h.nodup, fun id _ hmem => ?_, h.planned,
      hother (by simp)⟩
    have hmem : id ∈ base.pendingStageIds := hmem
    rw [pending] at hmem
    cases hmem
  | retry live current point failed budget =>
    exact hkeeps (by simp) ⟨rfl, rfl, (currentStageId_of_currentStage current).symm⟩
  | @recorded stage a copy result output artifact executing settled closed source published =>
    rw [recordedState_eq]
    refine h.of_same (hcopy executing ⟨rfl, rfl, rfl⟩) fun l' stageId result' hl' hrecorded => ?_
    obtain rfl := some.inj hl'
    obtain ⟨rfl, rfl⟩ := SavePoint.recorded.inj (some.inj hrecorded)
    simp [latestStageStatus, latestAttempt,
      recordedAttempt_status]
  | childAccepted executing _ _ _ _ | handleSaved executing _ | inFlight executing _ =>
    exact hkeeps (by simp) (hcopy executing ⟨rfl, rfl, rfl⟩)
  | @childPolled stage a copy i child status executing _ _ _ _ =>
    obtain ⟨hplan, hpending, hcurrent⟩ : SamePlace base copy := hcopy executing ⟨rfl, rfl, rfl⟩
    exact hkeeps (by simp) ⟨hplan, hpending, hcurrent⟩
  | finished | exhausted | failed => exact hkeeps (by simp) (hbase.terminal _ _)
  | @cascaded children stopped code reason _ _ _ _ _ _ =>
    have hsame : SamePlace base (cascaded base children stopped) := ⟨rfl, rfl, rfl⟩
    exact hkeeps (by simp) (hsame.terminal code reason)
  | started | lastGood | stayed | intent => exact hkeeps (by simp) hbase

/-! ## Corrections and repeated work -/

/-- `correction_started` was appended when the stage already had these attempts. -/
def CorrectedSince (runId stageId : String) (h : List (Event World Cmd))
    (attempts : List StageAttempt) : Prop :=
  ∃ earlier f later, h = earlier ++ f :: later ∧
    (∃ correctionStageId loopId iteration onCorrection,
      f.cmd = .xaddEvent runId
        (.correctionStarted correctionStageId loopId iteration onCorrection)) ∧
    ∃ stored, f.before.states runId = some stored ∧ stored.stageAttempts stageId = attempts

theorem CorrectedSince.concat {runId : String} {h : List (Event World Cmd)}
    {attempts : List StageAttempt} (hsince : CorrectedSince runId stageId h attempts)
    (e : Event World Cmd) : CorrectedSince runId stageId (h ++ [e]) attempts := by
  obtain ⟨earlier, f, later, rfl, hcmd, hstored⟩ := hsince
  exact ⟨earlier, f, later ++ [e], by simp, hcmd, hstored⟩

/-- A stage whose latest attempt is COMPLETED gets a further one only after a correction. -/
def RepeatsCorrected (runId : String) (h : List (Event World Cmd)) : Prop :=
  ∀ earlier e later, h = earlier ++ e :: later → ∀ point state base, e.cmd = .hset point state →
    state.runId = runId → e.before.states runId = some base →
    ∀ stageId, base.latestStageStatus stageId = some .completed →
      (base.stageAttempts stageId).length < (state.stageAttempts stageId).length →
      CorrectedSince runId stageId earlier (base.stageAttempts stageId)

/-- One more command. -/
theorem RepeatsCorrected.concat {runId : String} {h : List (Event World Cmd)}
    (hrepeats : RepeatsCorrected runId h)
    (hlast : ∀ point state base, e.cmd = .hset point state → state.runId = runId →
      e.before.states runId = some base → ∀ stageId,
      base.latestStageStatus stageId = some .completed →
      (base.stageAttempts stageId).length < (state.stageAttempts stageId).length →
      CorrectedSince runId stageId h (base.stageAttempts stageId)) :
    RepeatsCorrected runId (h ++ [e]) :=
  forall_split_concat hrepeats hlast

/-- The places at which a result is recorded or kept, but not yet answered. -/
def SavePoint.isResult : SavePoint → Bool
  | .recorded _ _ | .lastGood => true
  | _ => false

/-- Nothing is queued, and the cursor is on completed work that would not be skipped. -/
def PipelineRunState.repeatsCompleted (state : PipelineRunState) : Bool :=
  state.pendingStageIds.isEmpty &&
    match state.currentStage with
    | some stage =>
      state.latestStageStatus stage.id == some .completed && !state.skipsCompleted stage.id
    | none => false

/-- The process is between a result and its answer, where the cursor is on work that would be
repeated, or between a correction and its event. -/
def Local.torn (l : Local) (base : PipelineRunState) : Bool :=
  match l.point with
  | some point => point.isResult && base.repeatsCompleted ||
      (match point with
        | .correction => !l.announced
        | _ => false)
  | none => false

/-- A process does not stop so while it holds the run. -/
def StopsWhole (runId : String) (_ : World) (l : Local) : Prop :=
  ∀ base ∈ l.base, base.runId = runId → l.torn base = false

instance (runId : String) (w : World) (l : Local) : Decidable (StopsWhole runId w l) :=
  inferInstanceAs (Decidable (∀ base ∈ l.base, base.runId = runId → l.torn base = false))

/-- Whatever is about to be attempted again was there before a correction. -/
structure CorrectionsKept (runId : String) (h : List (Event World Cmd)) (state : PipelineRunState)
    (holder : Option Local) : Prop where
  queued : (∀ l, holder = some l → l.point = some .correction → l.announced = true) →
    state.status = .running →
    ∀ id ∈ state.pendingStageIds, CorrectedSince runId id h (state.stageAttempts id)
  entered : ∀ l, holder = some l → l.point = some .entered → ∀ stage,
    state.currentStage = some stage → state.latestStageStatus stage.id = some .completed →
    CorrectedSince runId stage.id h (state.stageAttempts stage.id)
  repeated : (∀ l point, holder = some l → l.point = some point → point.isResult = false) →
    state.status = .running → state.repeatsCompleted = true → ∀ stage,
    state.currentStage = some stage → CorrectedSince runId stage.id h (state.stageAttempts stage.id)
  repeats : RepeatsCorrected runId h

theorem repeatsCompleted_iff {state : PipelineRunState} :
    state.repeatsCompleted = true ↔ state.pendingStageIds = [] ∧ ∃ stage,
      state.currentStage = some stage ∧ state.latestStageStatus stage.id = some .completed ∧
        state.skipsCompleted stage.id = false := by
  unfold repeatsCompleted
  cases state.currentStage with
  | none | some stage => simp

section Saves

variable {coordinator : PipelineCoordinator} {l : Local} {base state : PipelineRunState}
  {point : SavePoint}

variable (h : Saves coordinator l base point state)
include h

/-- Only a correction puts stages in the queue. -/
theorem Saves.pending_subset (hpoint : point ≠ .correction) :
    state.pendingStageIds ⊆ base.pendingStageIds := by
  have hcopy : ∀ {stage a copy} {state : PipelineRunState},
      Executing coordinator base stage a copy → state.pendingStageIds = copy.pendingStageIds →
      state.pendingStageIds ⊆ base.pendingStageIds := by
    intro stage a copy state hexecuting hstate
    rw [hstate, hexecuting.copy_eq]
    exact List.Subset.refl _
  have hended : ∀ (ended : PipelineRunState) code reason,
      ended.pendingStageIds ⊆ base.pendingStageIds →
      (ended.terminal code reason).pendingStageIds ⊆ base.pendingStageIds := by
    intro ended code reason hsubset
    obtain ⟨artifact, text, heq⟩ := terminal_eq ended code reason
    rw [heq]
    exact hsubset
  cases h with
  | correction => exact absurd rfl hpoint
  | dropped _ pending _ _ _ | entered _ pending _ _ _ =>
    rw [pending]
    exact subset_cons_self _ _
  | childAccepted executing _ _ _ _ | childPolled executing _ _ _ _ | handleSaved executing _
  | inFlight executing _ =>
    exact hcopy executing rfl
  | recorded executing _ _ _ _ =>
    rw [recordedState_eq]
    exact hcopy executing rfl
  | finished | exhausted | failed | cascaded => exact hended _ _ _ (List.Subset.refl _)
  | _ => exact List.Subset.refl _

/-- A save changes the attempts of the stage under the cursor only. -/
theorem Saves.attempts_of_ne (hid : base.currentStageId ≠ some id) :
    state.stageAttempts id = base.stageAttempts id := by
  rcases h.stageAttempts_cases with hsame | ⟨stage, hcurrent, -, hmore⟩ |
    ⟨stage, running, a, hexecuted, hwritten⟩
  · rw [hsame]
  · have hne : id ≠ stage.id := by
      rintro rfl
      exact hid (currentStageId_of_currentStage hcurrent)
    rw [hmore]
    exact Function.update_of_ne hne _ _
  · have hne : id ≠ stage.id := by
      rintro rfl
      exact hid (currentStageId_of_currentStage hexecuted.current)
    rw [hwritten]
    exact Function.update_of_ne hne _ _

/-- A running state is not saved between a correction and its event. -/
theorem Saves.announced (hrunning : state.status = .running)
    (hcorrection : l.point = some .correction) : l.announced = true := by
  have hsettled : l.Settled → l.announced = true := fun h => h.answered.announced hcorrection
  have honward : ¬ Onward l base := by
    intro h
    cases h with
    | skipped _ _ early =>
      rcases early with ⟨hnone, -⟩ | hentered
      · rw [hcorrection] at hnone
        cases hnone
      · rw [hcorrection] at hentered
        cases hentered
    | recorded _ point _ _ | accepted _ point =>
      rw [hcorrection] at point
      cases point
  have hended : ∀ (ended : PipelineRunState) code reason,
      (ended.terminal code reason).status ≠ .running := by
    intro ended code reason
    obtain ⟨artifact, text, heq⟩ := terminal_eq ended code reason
    rw [heq]
    cases code <;> exact nofun
  cases h with
  | dropped _ _ _ _ early | entered _ _ _ _ early | intent _ early _ =>
    rw [hcorrection] at early
    cases early
  | started _ _ _ _ early =>
    rcases early with ⟨hnone, -⟩ | hentered
    · rw [hcorrection] at hnone
      cases hnone
    · rw [hcorrection] at hentered
      cases hentered
  | childAccepted _ answered _ _ _ => exact answered.announced hcorrection
  | childPolled _ settled _ _ _ | handleSaved _ settled | inFlight _ settled
  | recorded _ settled _ _ _ =>
    exact hsettled settled
  | lastGood _ _ _ point _ _ | correction _ _ _ point _ _ _ _ | retry _ _ point _ _ =>
    rw [hcorrection] at point
    cases point
  | queued _ onward _ | stayed _ onward _ _ _ | moved _ onward _ _ _ => exact absurd onward honward
  | finished | exhausted | failed | cascaded => exact absurd hrunning (hended _ _ _)

end Saves

section Executing

variable {coordinator : PipelineCoordinator} {base copy : PipelineRunState} {stage : Stage}
  {a : StageAttempt}

/-- The attempt that is executed is RUNNING in the copy. -/
theorem Executing.latest_copy (h : Executing coordinator base stage a copy) :
    copy.latestStageStatus stage.id = some .running := by
  rw [h.copy_eq]
  simp [latestStageStatus, latestAttempt,
    setLatestAttempt, h.status_eq]

theorem Executing.not_completed (h : Executing coordinator base stage a copy) {other : Stage}
    (hcurrent : copy.currentStage = some other) :
    copy.latestStageStatus other.id ≠ some .completed := by
  obtain rfl : stage = other := some.inj (h.copy_current.symm.trans hcurrent)
  rw [h.latest_copy]
  exact nofun

end Executing

section CorrectionsKept

variable {coordinator : PipelineCoordinator} {runId : String} {h : List (Event World Cmd)}
  {w : World} {l : Local} {base state : PipelineRunState} {point : SavePoint}

section

variable (hK : CorrectionsKept runId h base (some l)) {stage : Stage}
include hK

/-- A further attempt of completed work comes after a correction. -/
theorem CorrectionsKept.further (hsaves : Saves coordinator l base point state)
    (hcompleted : base.latestStageStatus stageId = some .completed)
    (hmore : (base.stageAttempts stageId).length < (state.stageAttempts stageId).length) :
    CorrectedSince runId stageId h (base.stageAttempts stageId) := by
  rcases hsaves.stageAttempts_cases with hsame | ⟨stage, hcurrent, hpoint, happended⟩ |
    ⟨stage, running, a, hexecuted, hwritten⟩
  · rw [hsame] at hmore
    exact absurd hmore (lt_irrefl _)
  · by_cases hid : stageId = stage.id
    · subst hid hpoint
      cases hsaves with
      | started live current due idle early =>
        obtain rfl := some.inj (hcurrent.symm.trans current)
        rcases early with ⟨hnone, hpending⟩ | hentered
        · refine hK.repeated (fun l' point hl' hpoint => ?_) live.running
            (repeatsCompleted_iff.mpr ⟨hpending, stage, hcurrent, hcompleted, due⟩) stage hcurrent
          obtain rfl := some.inj hl'
          rw [hnone] at hpoint
          cases hpoint
        · exact hK.entered l rfl hentered stage hcurrent hcompleted
    · rw [happended] at hmore
      simp [appendAttempt, Function.update_of_ne hid] at hmore
  · by_cases hid : stageId = stage.id
    · subst hid
      rw [hexecuted.running] at hcompleted
      cases hcompleted
    · rw [hwritten] at hmore
      simp [setLatestAttempt, Function.update_of_ne hid] at hmore

/-- The stages that wait in the queue were there before their correction. -/
theorem CorrectionsKept.queued_save (hQ : QueueKept base (some l))
    (hsaves : Saves coordinator l base point state) (hpoint : point ≠ .correction)
    (hrunning : state.status = .running) (e : Event World Cmd) (hid : id ∈ state.pendingStageIds) :
    CorrectedSince runId id (h ++ [e]) (state.stageAttempts id) := by
  have hbase := hsaves.pending_subset hpoint hid
  have hapart : base.currentStageId ≠ some id := fun hcurrent => hQ.apart id hcurrent hbase
  rw [hsaves.attempts_of_ne hapart]
  refine (hK.queued (fun l' hl' hcorrection => ?_) hsaves.base_running id hbase).concat e
  obtain rfl := some.inj hl'
  exact hsaves.announced hrunning hcorrection

/-- The stage that was taken from the queue was there before its correction. -/
theorem CorrectionsKept.entered_save
    (hsaves : Saves coordinator l base .entered state) (e : Event World Cmd)
    (hcurrent : state.currentStage = some stage) :
    CorrectedSince runId stage.id (h ++ [e]) (state.stageAttempts stage.id) := by
  cases hsaves with
  | @entered next remaining stage' live pending idle found early =>
    have hnext : some next = some stage.id := currentStageId_of_currentStage hcurrent
    obtain rfl : next = stage.id := some.inj hnext
    have hid : stage.id ∈ base.pendingStageIds := by
      rw [pending]
      exact mem_cons_self
    refine (hK.queued (fun l' hl' hcorrection => ?_) live.running stage.id hid).concat e
    obtain rfl := some.inj hl'
    rw [early] at hcorrection
    cases hcorrection

/-- Completed work under the cursor that would be repeated. -/
theorem CorrectionsKept.repeated_save (hQ : QueueKept base (some l))
    (hsaves : Saves coordinator l base point state) (hpoint : point.isResult = false)
    (hrunning : state.status = .running) (hrepeats : state.repeatsCompleted = true)
    (e : Event World Cmd) (hcurrent : state.currentStage = some stage) :
    CorrectedSince runId stage.id (h ++ [e]) (state.stageAttempts stage.id) := by
  obtain ⟨-, stage', hcurrent', hcompleted, -⟩ := repeatsCompleted_iff.mp hrepeats
  obtain rfl : stage = stage' := some.inj (hcurrent.symm.trans hcurrent')
  have hended : ∀ (ended : PipelineRunState) code reason,
      (ended.terminal code reason).status ≠ .running := by
    intro ended code reason
    obtain ⟨artifact, text, heq⟩ := terminal_eq ended code reason
    rw [heq]
    cases code <;> exact nofun
  have hready : ∀ {id : String}, base.firstReadyStageId = some id →
      base.latestStageStatus id ≠ some .completed := not_completed_of_ready
  cases hsaves with
  | @dropped next remaining live pending idle missing early =>
    have hplanned := hQ.planned next (by simp [pending])
    rw [missing] at hplanned
    cases hplanned
  | @entered next remaining other live pending idle found early =>
    have hentered : Saves coordinator l base .entered (base.enterPending next remaining) :=
      .entered live pending idle found early
    exact hK.entered_save hentered e hcurrent
  | @started other live current due idle early =>
    obtain rfl : stage = other := some.inj (hcurrent.symm.trans current)
    simp [latestStageStatus, latestAttempt,
      appendAttempt, PipelineCoordinator.nextAttempt] at hcompleted
  | childAccepted executing _ _ _ _ | childPolled executing _ _ _ _ | inFlight executing _ =>
    exact (executing.not_completed hcurrent hcompleted).elim
  | @handleSaved other a copy handle executing settled =>
    have hother : copy.currentStage = some other := executing.copy_current
    obtain rfl : stage = other := some.inj (hcurrent.symm.trans hother)
    have hrunning : a.status = .running := executing.status_eq
    simp [latestStageStatus, latestAttempt,
      setLatestAttempt, hrunning] at hcompleted
  | recorded | lastGood => cases hpoint
  | correction | queued => cases hcurrent
  | @retry other result note live current point failed budget =>
    have hid : some other.id = some stage.id := currentStageId_of_currentStage hcurrent
    have hrecorded := hQ.recorded l other.id result rfl point
    have hcompleted' : base.latestStageStatus stage.id = some .completed := hcompleted
    rw [some.inj hid, hcompleted'] at hrecorded
    simp [failed] at hrecorded
  | stayed live onward pending ready current =>
    have hid : some stage.id = some _ := (currentStageId_of_currentStage hcurrent).symm.trans current
    obtain rfl := some.inj hid
    exact absurd hcompleted (hready ready)
  | moved live onward pending ready other =>
    have hid : some _ = some stage.id := currentStageId_of_currentStage hcurrent
    obtain rfl := some.inj hid
    exact absurd hcompleted (hready ready)
  | finished | exhausted | failed | cascaded => exact absurd hrunning (hended _ _ _)
  | intent running early _ =>
    refine (hK.repeated (fun l' point hl' hpoint => ?_) running hrepeats stage hcurrent).concat e
    obtain rfl := some.inj hl'
    rw [early] at hpoint
    cases hpoint

theorem CorrectionsKept.save (hQ : QueueKept base (some l)) (hstored : w.states runId = some base)
    (hsaves : Saves coordinator l base point state) :
    CorrectionsKept runId (h ++ [⟨.hset point state, w⟩]) state
      (some (l.saved point state)) := by
  refine ⟨fun hannounced hrunning id hid => ?_, fun l' hl' hentered stage hcurrent _ => ?_,
    fun hresult hrunning hrepeats stage hcurrent => ?_, hK.repeats.concat ?_⟩
  · by_cases hpoint : point = .correction
    · subst hpoint
      cases hannounced _ rfl rfl
    · exact hK.queued_save hQ hsaves hpoint hrunning _ hid
  · obtain rfl := some.inj hl'
    obtain rfl : point = .entered := some.inj hentered
    exact hK.entered_save hsaves _ hcurrent
  · exact hK.repeated_save hQ hsaves (hresult _ point rfl rfl) hrunning hrepeats _ hcurrent
  · intro point' state' base' hcmd _ hbase' stageId hcompleted hmore
    obtain ⟨rfl, rfl⟩ := Cmd.hset.inj hcmd
    obtain rfl : base = base' := some.inj (hstored.symm.trans hbase')
    exact hK.further hsaves hcompleted hmore

end

/-- Nothing of this is about a command that is not a save of the run. -/
theorem RepeatsCorrected.skip (hrepeats : RepeatsCorrected runId h)
    (hother : ∀ point state, e.cmd = .hset point state → state.runId ≠ runId) :
    RepeatsCorrected runId (h ++ [e]) := by
  refine hrepeats.concat fun point state base hcmd hrun => ?_
  exact absurd hrun (hother point state hcmd)

/-- A command that leaves the state and what is remembered of the process. -/
theorem CorrectionsKept.skip (hK : CorrectionsKept runId h state holder)
    (hother : ∀ point written, e.cmd = .hset point written → written.runId ≠ runId)
    (hqueued : (∀ l, holder' = some l → l.point = some .correction → l.announced = true) →
      ∀ l, holder = some l → l.point = some .correction → l.announced = true)
    (hentered : ∀ l', holder' = some l' → l'.point = some .entered →
      ∃ l, holder = some l ∧ l.point = some .entered)
    (hresult : (∀ l point, holder' = some l → l.point = some point → point.isResult = false) →
      ∀ l point, holder = some l → l.point = some point → point.isResult = false) :
    CorrectionsKept runId (h ++ [e]) state holder' := by
  refine ⟨fun hannounced hrunning id hid => ?_, fun l' hl' hpoint stage hcurrent hcompleted => ?_,
    fun hopen hrunning hrepeats stage hcurrent => ?_, hK.repeats.skip hother⟩
  · exact (hK.queued (hqueued hannounced) hrunning id hid).concat e
  · obtain ⟨l, hl, hpoint⟩ := hentered l' hl' hpoint
    exact (hK.entered l hl hpoint stage hcurrent hcompleted).concat e
  · exact (hK.repeated (hresult hopen) hrunning hrepeats stage hcurrent).concat e

end CorrectionsKept

/-! ## Every run -/

structure Replayed (coordinator : PipelineCoordinator) (runId : String)
    (h : List (Event World Cmd)) (_ : World) (state : PipelineRunState) (holder : Option Local) :
    Prop where
  executed : ExecutedOnce coordinator runId h state holder
  queue : QueueKept state holder
  corrections : CorrectionsKept runId h state holder
  held : ∀ l, holder = some l → l.base = some state

section Replayed

variable {d : Deployment} {runId : String} {h : List (Event World Cmd)} {w : World} {l : Local}
  {state : PipelineRunState}

theorem executed_of_all_foreign (hforeign : ∀ e ∈ h, Foreign runId e.cmd) :
    executedKeys runId h = [] ∧ executedAttempts runId h = [] := by
  constructor
  · exact filterMap_eq_nil_iff.mpr fun e he => (executed_of_foreign (hforeign e he)).1
  · exact filterMap_eq_nil_iff.mpr fun e he => (executed_of_foreign (hforeign e he)).2

theorem repeatsCorrected_of_all_foreign (hforeign : ∀ e ∈ h, Foreign runId e.cmd) :
    RepeatsCorrected runId h := by
  intro earlier e later hsplit point state base hcmd hrun
  have hother := hforeign e (hsplit ▸ mem_append_right _ mem_cons_self)
  rw [hcmd] at hother
  exact absurd hrun hother

variable {w' : World}

/-- A run that is created has executed nothing yet. -/
theorem Replayed.create {pipeline : CompiledPipeline} {requestParams : Fields}
    (hforeign : ∀ e ∈ h, Foreign runId e.cmd) (hknown : pipeline.LoopsKnown)
    (hdistinct : pipeline.LoopsDistinct) :
    Replayed d.coordinator runId
      (h ++ [⟨.evalSubmitParent (initialState runId pipeline requestParams), w⟩]) w'
      (initialState runId pipeline requestParams) none := by
  have hall : ∀ e ∈ h ++ [⟨.evalSubmitParent (initialState runId pipeline requestParams), w⟩],
      Foreign runId e.cmd := by
    intro e he
    rcases mem_append.mp he with he | he
    · exact hforeign e he
    · rw [mem_singleton.mp he]
      trivial
  obtain ⟨hkeys, hattempts⟩ := executed_of_all_foreign hall
  refine ⟨⟨rfl, ?_, ?_, ?_, fun _ hl => by cases hl⟩,
    ⟨hknown, hdistinct, nodup_nil, fun _ _ => not_mem_nil, fun _ hid => (by cases hid),
      fun _ _ _ hl => by cases hl⟩,
    ⟨fun _ _ _ hid => (by cases hid), fun _ hl => (by cases hl), fun _ _ hrepeats => ?_,
      repeatsCorrected_of_all_foreign hall⟩, fun _ hl => by cases hl⟩
  · rw [hattempts]
    exact nodup_nil
  · rw [hkeys, hattempts]
    rfl
  · rw [hattempts]
    exact fun _ hp => by cases hp
  · -- Nothing has been attempted.
    obtain ⟨-, stage, -, hcompleted, -⟩ := repeatsCompleted_iff.mp hrepeats
    cases hcompleted

theorem Replayed.save {base : PipelineRunState} {point : SavePoint}
    (hK : Replayed d.coordinator runId h w base (some l)) (hstored : w.states runId = some base)
    (hsaves : Saves d.coordinator l base point state) :
    Replayed d.coordinator runId (h ++ [⟨.hset point state, w⟩]) w' state
      (some (l.saved point state)) := by
  refine ⟨hK.executed.save hsaves, hK.queue.save hsaves, hK.corrections.save hK.queue hstored hsaves,
    fun l' hl' => ?_⟩
  obtain rfl := some.inj hl'
  rfl

theorem Replayed.load (hK : Replayed d.coordinator runId h w state none)
    (hbase : l.base = some state) (hpoint : l.point = none) :
    Replayed d.coordinator runId (h ++ [⟨.hgetall runId, w⟩]) w state (some l) := by
  have hnopoint : ∀ l' point, some l = some l' → l'.point ≠ some point := by
    intro l' point hl' hpoint'
    obtain rfl := some.inj hl'
    rw [hpoint] at hpoint'
    cases hpoint'
  refine ⟨hK.executed.congr ⟨rfl, rfl⟩ fun l' hl' hstarted => ?_,
    hK.queue.of_same ⟨rfl, rfl, rfl⟩ fun l' stageId result hl' hrecorded => ?_,
    hK.corrections.skip (fun _ _ hcmd => by cases hcmd) (fun _ _ hl' => by cases hl')
      (fun l' hl' hentered => ?_) (fun _ _ _ hl' => by cases hl'), fun l' hl' => ?_⟩
  · exact absurd hstarted (hnopoint l' _ hl')
  · exact absurd hrecorded (hnopoint l' _ hl')
  · exact absurd hentered (hnopoint l' _ hl')
  · obtain rfl := some.inj hl'
    exact hbase

theorem Replayed.other (hK : Replayed d.coordinator runId h w state none)
    (hforeign : Foreign runId e.cmd) : Replayed d.coordinator runId (h ++ [e]) w' state none := by
  refine ⟨hK.executed.congr (executed_of_foreign hforeign) fun _ hl => (by cases hl),
    hK.queue, hK.corrections.skip (fun point written hcmd => ?_) (fun _ _ hl => by cases hl)
      (fun _ hl => by cases hl) (fun _ _ _ hl => by cases hl), hK.held⟩
  rw [hcmd] at hforeign
  exact hforeign

/-- `correction_started` finds every stage as it is stored. -/
theorem CorrectionsKept.announce {iteration : ℕ}
    (hK : CorrectionsKept runId h state (some l)) (hstored : w.states runId = some state) :
    CorrectionsKept runId
      (h ++ [⟨.xaddEvent runId
        (.correctionStarted correctionStageId loopId iteration onCorrection), w⟩]) state
      (some { l with announced := true }) := by
  have hsince : ∀ id, CorrectedSince runId id
      (h ++ [⟨.xaddEvent runId
        (.correctionStarted correctionStageId loopId iteration onCorrection), w⟩])
      (state.stageAttempts id) := by
    intro id
    exact ⟨h, _, [], rfl, ⟨_, _, _, _, rfl⟩, state, hstored, rfl⟩
  exact ⟨fun _ _ id _ => hsince id, fun _ _ _ stage _ _ => hsince stage.id,
    fun _ _ _ stage _ => hsince stage.id, hK.repeats.skip fun _ _ hcmd => by cases hcmd⟩

theorem Replayed.own
    (hK : Replayed d.coordinator runId h e.before state (some l)) (hbase : l.base = some state)
    (hstored : e.before.states runId = some state) (hallows : l.allows d.coordinator e.cmd)
    (hsave : ∀ point written, e.cmd ≠ .hset point written)
    (hkeep : (l.note e.cmd (exec d.providers e.cmd e.before).1).base = l.base)
    (hpoint : (l.note e.cmd (exec d.providers e.cmd e.before).1).point = l.point) :
    Replayed d.coordinator runId (h ++ [e]) w' state
      (some (l.note e.cmd (exec d.providers e.cmd e.before).1)) := by
  refine ⟨hK.executed.own hbase hallows hsave hpoint,
    hK.queue.of_same ⟨rfl, rfl, rfl⟩ fun l' stageId result hl' hrecorded => ?_, ?_, fun l' hl' => ?_⟩
  · obtain rfl := some.inj hl'
    rw [hpoint] at hrecorded
    exact hK.queue.recorded l stageId result rfl hrecorded
  · by_cases hevent : ∃ run stageId loopId iteration on,
        e.cmd = .xaddEvent run (.correctionStarted stageId loopId iteration on)
    · obtain ⟨run, stageId, loopId, iteration, on, hcmd⟩ := hevent
      obtain ⟨cmd, before⟩ := e
      obtain rfl : cmd = _ := hcmd
      obtain ⟨base, hbase', hrun⟩ := hallows
      obtain rfl : state = base := some.inj (hbase.symm.trans hbase')
      obtain rfl : runId = run := hK.executed.runId_eq.symm.trans hrun
      exact hK.corrections.announce hstored
    · have hsame := note_announced (l := l) hsave
        (fun run stageId loopId iteration on hcmd =>
          hevent ⟨run, stageId, loopId, iteration, on, hcmd⟩)
        (exec d.providers e.cmd e.before).1
      refine hK.corrections.skip (fun point written hcmd => absurd hcmd (hsave point written))
        (fun hannounced l' hl' hcorrection => ?_) (fun l' hl' hentered => ?_)
        (fun hresult l' point hl' hpoint' => ?_)
      · obtain rfl := some.inj hl'
        rw [← hsame]
        exact hannounced _ rfl (hpoint.trans hcorrection)
      · obtain rfl := some.inj hl'
        exact ⟨l, rfl, hpoint.symm.trans hentered⟩
      · obtain rfl := some.inj hl'
        exact hresult _ point rfl (hpoint.trans hpoint')
  · obtain rfl := some.inj hl'
    exact hkeep.trans hbase

/-- What is lost with a process that has finished, or has not stopped where it is torn. -/
theorem Replayed.forget (hK : Replayed d.coordinator runId h w state (some l))
    (hsettled : l.Settled ∨ StopsWhole runId w l) :
    Replayed d.coordinator runId h w state none := by
  have hwhole : l.torn state = false ∨ l.Settled := by
    rcases hsettled with hsettled | hstops
    · exact Or.inr hsettled
    · exact Or.inl (hstops state (hK.held l rfl) hK.executed.runId_eq)
  have hannounced : l.point = some .correction → l.announced = true := by
    intro hpoint
    rcases hwhole with hwhole | hsettled
    · simpa [Local.torn, hpoint, SavePoint.isResult] using hwhole
    · exact hsettled.answered.announced hpoint
  have hresult : state.repeatsCompleted = true → ∀ point, l.point = some point →
      point.isResult = false := by
    intro hrepeats point hpoint
    rcases hwhole with hwhole | hsettled
    · simp only [Local.torn, hpoint, hrepeats, Bool.or_eq_false_iff, Bool.and_true] at hwhole
      exact hwhole.1
    have hanswered := hsettled.answered
    unfold Local.Answered at hanswered
    rw [hpoint] at hanswered
    cases point with
    | recorded stageId result | lastGood => cases hanswered
    | _ => rfl
  have hkept := hK.executed
  refine ⟨⟨hkept.runId_eq, hkept.nodup, hkept.keys, hkept.bounded, fun _ hl => by cases hl⟩,
    hK.queue.of_same ⟨rfl, rfl, rfl⟩ fun _ _ _ hl => (by cases hl),
    ⟨fun _ hrunning => ?_, fun _ hl => (by cases hl), fun _ hrunning hrepeats => ?_,
      hK.corrections.repeats⟩, fun _ hl => by cases hl⟩
  · refine hK.corrections.queued (fun l' hl' => ?_) hrunning
    obtain rfl := some.inj hl'
    exact hannounced
  · refine hK.corrections.repeated (fun l' point hl' => ?_) hrunning hrepeats
    obtain rfl := some.inj hl'
    exact hresult hrepeats point

end Replayed

namespace Deployment

variable (d : Deployment)

/-- The texts that were hashed for the calls of the external executor. -/
def digested (runId : String) (h : List (Event World Cmd)) : Set String :=
  {text | ∃ p ∈ executedAttempts runId h, text = runId ++ ":" ++ p.1 ++ ":" ++ toString p.2}

variable {d}

theorem keptBy_replayed {runId : String} {processes : List (Process CoordinatorOp)}
    (hplans : d.Submits runId (fun pipeline => pipeline.LoopsKnown ∧ pipeline.LoopsDistinct)
      processes) :
    KeptBy d runId (StopsWhole runId) (d.serialHistory processes)
      (Replayed d.coordinator runId) where
  create h w later w' pipeline requestParams hsplit hforeign _ _ := by
    have hmem : (⟨.evalSubmitParent (initialState runId pipeline requestParams), w⟩ :
        Event World Cmd) ∈ d.serialHistory processes :=
      hsplit ▸ mem_append_right _ mem_cons_self
    obtain ⟨hknown, hdistinct⟩ := hplans _ hmem pipeline requestParams rfl
    exact Replayed.create hforeign hknown hdistinct
  load h w state l hK := hK.load rfl rfl
  other h e state hK hforeign := hK.other hforeign
  own h e later state l _ hK hbase hstored hallows hsave hkeep hpoint :=
    hK.own hbase hstored hallows hsave hkeep hpoint
  save h w later base l point state _ hK _ hstored hsaves := hK.save hstored hsaves
  forget h w state l hK hsettled := hK.forget hsettled

/-- **Completed work is not repeated.**  Whatever the providers answer and wherever the processes
stop, except between a result and its answer where the cursor is on work that would be repeated
and between a correction and its event: no key is executed twice, and completed work is
attempted again only after a correction. -/
theorem unrepeated_of_stopsWhole {runId : String} {processes : List (Process CoordinatorOp)}
    (hplans : d.Submits runId (fun pipeline => pipeline.LoopsKnown ∧ pipeline.LoopsDistinct)
      processes)
    (hsha : Set.InjOn d.coordinator.sha256 (digested runId (d.serialHistory processes)))
    (hstops : d.StopsAt (StopsWhole runId) processes) :
    (executedKeys runId (d.serialHistory processes)).Nodup ∧
      RepeatsCorrected runId (d.serialHistory processes) := by
  have hkept := keptBy_replayed hplans
  cases hstate : (d.serialStore processes).states runId with
  | none =>
    have hforeign := foreign_of_absent hkept hstops hstate
    refine ⟨?_, repeatsCorrected_of_all_foreign hforeign⟩
    rw [(executed_of_all_foreign hforeign).1]
    exact nodup_nil
  | some state =>
    have hend := serial_induction hkept hstops hstate
    refine ⟨?_, hend.corrections.repeats⟩
    rw [hend.executed.keys]
    refine hend.executed.nodup.map_on fun p hp q hq hkey => ?_
    exact attempt_eq_of_text_eq (hsha ⟨p, hp, rfl⟩ ⟨q, hq, rfl⟩ hkey)

/-! ## A failed verdict -/

/-- The first process stops when it has submitted the generation; the verdict fails once. -/
def correctedRun : List (Process CoordinatorOp) :=
  [⟨.submitParent "run" reviewed [], 10⟩, ⟨.advanceOnce "now" "run", 5⟩,
    ⟨.advanceOnce "now" "run", 30⟩, ⟨.advanceOnce "now" "run", 30⟩,
    ⟨.advanceOnce "now" "run", 30⟩, ⟨.advanceOnce "now" "run", 30⟩]

/-- No key is executed twice, and the quality control is repeated after a correction. -/
theorem unrepeated_of_corrected :
    (reviewing fun n => 0 < n).StopsAt (StopsWhole "run") correctedRun ∧
      ((((reviewing fun n => 0 < n).serialStore correctedRun).states "run").map fun state =>
        (state.status, (state.stageAttempts "qc").length)) = some (.completed, 2) ∧
      (executedKeys "run" ((reviewing fun n => 0 < n).serialHistory correctedRun)).Nodup ∧
      RepeatsCorrected "run" ((reviewing fun n => 0 < n).serialHistory correctedRun) := by
  have hplans : (reviewing fun n => 0 < n).Submits "run"
      (fun pipeline => pipeline.LoopsKnown ∧ pipeline.LoopsDistinct) correctedRun :=
    submits_of_all (by decide +kernel)
  have hstops : (reviewing fun n => 0 < n).StopsAt (StopsWhole "run") correctedRun := by
    decide +kernel
  exact ⟨hstops, by decide +kernel, unrepeated_of_stopsWhole hplans (Function.injective_id.injOn) hstops⟩

/-- The process that records the failed verdict stops before it schedules the correction. -/
def tornRun : List (Process CoordinatorOp) :=
  [⟨.submitParent "run" reviewed [], 10⟩, ⟨.advanceOnce "now" "run", 30⟩,
    ⟨.advanceOnce "now" "run", 6⟩, ⟨.advanceOnce "now" "run", 3⟩]

def repeatsStage (runId stageId : String) (e : Event World Cmd) : Bool :=
  match e.cmd, e.before.states runId with
  | .hset _ state, some base =>
    state.runId == runId && base.latestStageStatus stageId == some .completed &&
      (base.stageAttempts stageId).length < (state.stageAttempts stageId).length
  | _, _ => false

def announcesCorrection (e : Event World Cmd) : Bool :=
  match e.cmd with
  | .xaddEvent _ (.correctionStarted _ _ _ _) => true
  | _ => false

/-- The quality control has completed, and is attempted again although nothing is corrected. -/
theorem not_repeatsCorrected_of_torn :
    ¬ RepeatsCorrected "run" ((reviewing fun _ => false).serialHistory tornRun) := by
  generalize hhistory : (reviewing fun _ => false).serialHistory tornRun = history
  have hrepeated : (history.getLast?.map (repeatsStage "run" "qc")) = some true := by
    rw [← hhistory]
    decide +kernel
  have hnever : history.all (fun e => !announcesCorrection e) = true := by
    rw [← hhistory]
    decide +kernel
  intro hcorrected
  obtain ⟨e, hlast, hrepeats⟩ := map_eq_some_iff.mp hrepeated
  obtain ⟨earlier, hsplit⟩ := List.getLast?_eq_some_iff.mp hlast
  unfold repeatsStage at hrepeats
  split at hrepeats
  · rename_i point state base hcmd hbase
    simp only [Bool.and_eq_true, beq_iff_eq, decide_eq_true_eq] at hrepeats
    obtain ⟨before, f, between, rfl, ⟨_, _, _, _, hevent⟩, -⟩ := hcorrected earlier e [] hsplit
      point state base hcmd hrepeats.1.1 hbase "qc" hrepeats.1.2 hrepeats.2
    have hnot := all_eq_true.mp hnever f (by simp [hsplit])
    simp [announcesCorrection, hevent] at hnot
  · cases hrepeats

end Deployment

end GpuManager.Coordinator
