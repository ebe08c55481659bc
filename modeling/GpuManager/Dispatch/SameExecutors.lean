import GpuManager.Dispatch.StageExecutors

/-!
# The executors are the same

A loop that tries a stage writes the retries and the result of that stage alone.  While the stage
has no result yet and the context holds the retries that `execute` counted, the two loops do the
same; this is so when a stage begins, since its id is not that of an earlier one.
-/

namespace GpuManager.Dispatch

open PyStr

variable {F : Type} {provider : Provider F} {stage : Stage F} {bounds : Bounds}

/-! ## What a loop writes -/

structure Touches (stage : Stage F) (s s' : ExecutorState F) : Prop where
  stageMap : ∀ id, id ≠ stage.id → s'.stageMap.get? id = s.stageMap.get? id
  retryCount : ∀ id, id ≠ stage.id →
    s'.context.retryCount.get? id = s.context.retryCount.get? id

theorem Touches.trans {s s' s'' : ExecutorState F} (h : Touches stage s s')
    (h' : Touches stage s' s'') : Touches stage s s'' :=
  ⟨fun id hid => (h'.stageMap id hid).trans (h.stageMap id hid),
    fun id hid => (h'.retryCount id hid).trans (h.retryCount id hid)⟩

theorem Touches.withError {s s' : ExecutorState F} (h : Touches stage s s') (error : PyStr) :
    Touches stage s (s'.withError error) := ⟨h.stageMap, h.retryCount⟩

variable (s : ExecutorState F)

theorem stageMap_record (id : PyStr) (result : StageResult F) :
    (s.record id result).stageMap = s.stageMap.set id result := rfl

theorem stageMap_attempted (consumed : ℤ) :
    ((s.withRetry stage.id consumed).called stage).stageMap = s.stageMap := rfl

theorem retryCount_attempted (consumed : ℤ) :
    ((s.withRetry stage.id consumed).called stage).context.retryCount =
      s.context.retryCount.set stage.id consumed := rfl

theorem stageMap_failed (attempt : ℕ) (consumed : ℤ) (lastError : PyStr) :
    (s.failed stage attempt consumed lastError).stageMap = s.stageMap := rfl

theorem retryCount_failed (attempt : ℕ) (consumed : ℤ) (lastError : PyStr) :
    (s.failed stage attempt consumed lastError).context.retryCount =
      s.context.retryCount.set stage.id consumed := rfl

/-- An output is recorded beside the retries. -/
theorem retryCount_updateContext (context : StageContext F) (id kind : PyStr)
    (result : StageResult F) :
    (context.updateContext id kind result).retryCount = context.retryCount := by
  unfold StageContext.updateContext
  repeat' split
  all_goals rfl

theorem touches_record (result : StageResult F) : Touches stage s (s.record stage.id result) :=
  ⟨fun id hid => by rw [stageMap_record, PyDict.get?_set, if_neg hid], fun _ _ => rfl⟩

theorem touches_attempted (consumed : ℤ) :
    Touches stage s ((s.withRetry stage.id consumed).called stage) :=
  ⟨fun _ _ => rfl, fun id hid => by rw [retryCount_attempted, PyDict.get?_set, if_neg hid]⟩

theorem touches_failed (attempt : ℕ) (consumed : ℤ) (lastError : PyStr) :
    Touches stage s (s.failed stage attempt consumed lastError) :=
  ⟨fun _ _ => rfl, fun id hid => by rw [retryCount_failed, PyDict.get?_set, if_neg hid]⟩

theorem touches_giveUp (stageRetries consumed : ℤ) (lastError : PyStr) :
    Touches stage s (s.giveUp stage stageRetries consumed lastError) :=
  (touches_record s _).withError _

theorem touches_skip (error reason : PyStr) : Touches stage s (s.skip stage error reason) :=
  (touches_record s _).withError _

theorem touches_returned (result : StageResult F) : Touches stage s (s.returned stage result) := by
  refine (touches_record s result).trans ⟨fun id _ => ?_, fun id _ => ?_⟩ <;>
    unfold ExecutorState.returned ExecutorState.update <;> split
  · rfl
  · rfl
  · exact congrArg (fun d : PyDict PyStr ℤ => d.get? id) (retryCount_updateContext ..)
  · rfl

/-- **The loop of `dispatch`** writes for its stage alone. -/
theorem touches_dispatchLoop (stageRetries : ℤ) (attempt : ℕ) :
    Touches stage s (dispatchLoop provider stage stageRetries attempt s) := by
  fun_induction dispatchLoop provider stage stageRetries attempt s with
  | case1 attempt s consumed s' lastError _ failed _ =>
    exact (touches_attempted s consumed).trans
      ((touches_failed s' _ _ lastError).trans (touches_giveUp failed ..))
  | case2 attempt s consumed s' lastError _ failed _ ih =>
    exact (touches_attempted s consumed).trans ((touches_failed s' _ _ lastError).trans ih)
  | case3 attempt s consumed s' result _ =>
    exact (touches_attempted s consumed).trans (touches_returned s' result)

/-! ## The loops agree -/

/-- A stage was not tried yet. -/
structure Untried (stage : Stage F) (s : ExecutorState F) : Prop where
  stageMap : s.stageMap.get? stage.id = none
  retryCount : s.context.retryCount.get? stage.id = none

/-- What was written for another stage leaves a stage untried. -/
theorem Untried.touched {other : Stage F} {s s' : ExecutorState F} (h : Untried stage s)
    (hid : stage.id ≠ other.id) (htouches : Touches other s s') : Untried stage s' :=
  ⟨(htouches.stageMap _ hid).trans h.stageMap, (htouches.retryCount _ hid).trans h.retryCount⟩

/-- The loops agree as long as the stage has no result and the context holds the retries. -/
theorem executeLoop_eq {stageRetries consumed : ℤ} {attempt : ℕ} {lastError : PyStr}
    {s : ExecutorState F} (hmap : s.stageMap.get? stage.id = none)
    (hretry : (s.context.retryCount.get? stage.id).getD 0 = consumed)
    (hattempt : (attempt : ℤ) ≤ stageRetries) :
    executeLoop provider stage stageRetries attempt consumed lastError s =
      dispatchLoop provider stage stageRetries attempt s := by
  -- The induction is on the attempts that are left after this one.
  induction hleft : (stageRetries - attempt).toNat generalizing attempt consumed lastError s with
  | zero =>
    rw [executeLoop, if_pos hattempt, dispatchLoop, hretry]
    simp only
    cases hprovider : provider ((s.withRetry stage.id consumed).called stage).calls with
    | ok result => rfl
    | error lastError =>
      have hlast : stageRetries < (attempt + 1 : ℕ) := by omega
      simp only
      rw [executeLoop, if_neg (not_le.mpr hlast), if_pos hlast, if_pos]
      · rw [retryCount_failed, PyDict.get?_set_self]
        rfl
      · rw [stageMap_failed, stageMap_attempted, hmap]
        rfl
  | succ left ih =>
    rw [executeLoop, if_pos hattempt, dispatchLoop, hretry]
    simp only
    cases hprovider : provider ((s.withRetry stage.id consumed).called stage).calls with
    | ok result => rfl
    | error lastError =>
      have hagain : ¬ stageRetries < (attempt + 1 : ℕ) := by omega
      simp only
      rw [if_neg hagain]
      apply ih
      · rw [stageMap_failed, stageMap_attempted, hmap]
      · rw [retryCount_failed, PyDict.get?_set_self]
        rfl
      · omega
      · omega

/-- Two runs over the stages agree when their loops agree on every untried stage. -/
theorem runStages_congr {retryLoop retryLoop' : RetryLoop F} {stages : List (Stage F)}
    {s : ExecutorState F} (hnodup : (stages.map Stage.id).Nodup)
    (huntried : ∀ stage ∈ stages, Untried stage s)
    (hloops : ∀ stage ∈ stages, ∀ s, Untried stage s →
      retryLoop stage (stage.stageRetries bounds) s = retryLoop' stage (stage.stageRetries bounds) s)
    (htouches : ∀ stage ∈ stages, ∀ s,
      Touches stage s (retryLoop' stage (stage.stageRetries bounds) s)) :
    runStages retryLoop bounds stages s = runStages retryLoop' bounds stages s := by
  induction stages generalizing s with
  | nil => rfl
  | cons stage stages ih =>
    have hne : ∀ other ∈ stages, other.id ≠ stage.id := fun other hother heq =>
      (List.nodup_cons.mp hnodup).1 (heq ▸ List.mem_map_of_mem hother)
    have hrest : ∀ {s'}, Touches stage s s' →
        runStages retryLoop bounds stages s' = runStages retryLoop' bounds stages s' := by
      intro s' h
      apply ih (List.nodup_cons.mp hnodup).2
      · exact fun other hother =>
          (huntried other (List.mem_cons_of_mem _ hother)).touched (hne other hother) h
      · exact fun other hother => hloops other (List.mem_cons_of_mem _ hother)
      · exact fun other hother => htouches other (List.mem_cons_of_mem _ hother)
    have hstage := huntried stage List.mem_cons_self
    simp only [runStages]
    split
    · rfl
    · exact hrest (touches_skip ..)
    split
    · exact hrest (touches_skip ..)
    · rw [hloops stage List.mem_cons_self s hstage]
      exact hrest (htouches stage List.mem_cons_self s)

/-- **The two executors are the same algorithm**: they make the same calls, and return the same
context and results or raise for the same stage. -/
theorem execute_eq_dispatch (provider : Provider F) (bounds : Bounds) (stages : List (Stage F))
    (context : StageContext F) (hnodup : (stages.map Stage.id).Nodup)
    (hretries : ∀ stage ∈ stages, 0 ≤ stage.stageRetries bounds)
    (hcontext : context.retryCount = []) :
    execute provider bounds stages context = dispatch provider bounds stages context := by
  unfold execute dispatch
  apply runStages_congr hnodup
  · exact fun stage _ => ⟨rfl, by rw [hcontext]; rfl⟩
  · intro stage hstage s hs
    apply executeLoop_eq hs.stageMap
    · rw [hs.retryCount]
      rfl
    · exact hretries stage hstage
  · exact fun stage _ s => touches_dispatchLoop s _ _

/-- Two stages, the second of which waits for the first and may be tried again once. -/
def twoStages : List (Stage Unit) :=
  [{ id := text "a", kind := text "generate", provider := text "p" },
    { id := text "b", kind := text "qc", provider := text "p", retries := some 1,
      dependsOn := some [text "a"] }]

/-- With a provider that always fails they are the same too. -/
theorem execute_eq_dispatch_twoStages :
    execute (fun _ => .error (text "down")) {} twoStages {} =
      dispatch (fun _ => .error (text "down")) {} twoStages {} :=
  execute_eq_dispatch _ _ _ _ (by decide) (by decide) rfl

end GpuManager.Dispatch
