import GpuManager.Dispatch.SameExecutors

/-!
# What a run of the executor amounts to

Where every dependency is declared before the stage that waits for it, the calls of a run fall into
one block for each stage, in the order of the stages.  A block is empty only if a dependency has
*failed* or the corrections are used up: a dependency that was skipped, because of a failure before
it, lets the stage go on.
-/

namespace GpuManager.Dispatch

open List

variable {F : Type} {provider : Provider F} {bounds : Bounds} {stages : List (Stage F)}

def tries (provider : Provider F) : RetryLoop F :=
  fun stage stageRetries s => dispatchLoop provider stage stageRetries 0 s

/-- What became of a stage: the calls that were made for it, and its result. -/
structure Block (F : Type) where
  stage : Stage F
  calls : List (ProviderCall F)
  result : StageResult F

/-- The id of its stage. -/
def Block.id (b : Block F) : PyStr := b.stage.id

def Block.Clear (b : Block F) (before : List (Block F)) : Prop :=
  ∀ other ∈ before, other.id ∈ b.stage.dependsOn.getD [] → other.result.status ≠ .failed

/-- A stage is sent to its provider if no dependency has failed, and no more often than its retries
allow; only a correction may be left out without a failure. -/
structure Block.Served (bounds : Bounds) (before : List (Block F)) (b : Block F) : Prop where
  own : ∀ call ∈ b.calls, call.stageId = b.id
  bounded : b.calls.length ≤ (b.stage.stageRetries bounds).toNat + 1
  clear : b.calls ≠ [] → b.Clear before
  sent : b.Clear before → b.stage.kind ≠ PyStr.text "correct" → b.calls ≠ []

/-- A run that returned goes on after some blocks with a block for each of the stages. -/
def InBlocks (bounds : Bounds) (before : List (Block F)) (stages : List (Stage F)) (run : Run F) :
    Prop :=
  ∃ blocks context, blocks.map Block.stage = stages ∧
    run = ⟨(before ++ blocks).flatMap Block.calls,
      .ok (context, (before ++ blocks).map Block.result)⟩ ∧
    ∀ pre b post, blocks = pre ++ b :: post → b.Served bounds (before ++ pre)

/-- Every dependency is declared before, after stages with these ids. -/
def Declared : List PyStr → List (Stage F) → Prop
  | _, [] => True
  | ids, stage :: stages =>
    (∀ dependency ∈ stage.dependsOn.getD [], dependency ∈ ids) ∧
      Declared (ids ++ [stage.id]) stages

/-- The state after these blocks. -/
structure Account (before : List (Block F)) (s : ExecutorState F) : Prop where
  calls : s.calls = before.flatMap Block.calls
  results : s.results = before.map Block.result
  stageMap : ∀ b ∈ before, s.stageMap.get? b.id = some b.result

/-- A block was added. -/
structure Adds (s s' : ExecutorState F) (b : Block F) : Prop where
  calls : s'.calls = s.calls ++ b.calls
  results : s'.results = s.results ++ [b.result]
  stageMap : s'.stageMap = s.stageMap.set b.id b.result

variable {before : List (Block F)} {s s' : ExecutorState F}

theorem Account.add {b : Block F} (h : Account before s) (hb : Adds s s' b)
    (hnew : ∀ other ∈ before, other.id ≠ b.id) : Account (before ++ [b]) s' := by
  refine ⟨?_, ?_, fun other hother => ?_⟩
  · rw [hb.calls, h.calls, flatMap_append, flatMap_singleton]
  · rw [hb.results, h.results, map_append, map_singleton]
  rw [hb.stageMap, PyDict.get?_set]
  rcases mem_append.mp hother with hother | hother
  · rw [if_neg (hnew other hother)]
    exact h.stageMap other hother
  · rw [mem_singleton.mp hother, if_pos rfl]

/-- The loop that tries a stage adds its block. -/
theorem adds_dispatchLoop (stage : Stage F) (stageRetries : ℤ) (attempt : ℕ)
    (s : ExecutorState F) :
    ∃ calls result, Adds s (dispatchLoop provider stage stageRetries attempt s)
        ⟨stage, calls, result⟩ ∧
      (∀ call ∈ calls, call.stageId = stage.id) ∧ calls ≠ [] ∧
      calls.length ≤ (stageRetries - attempt).toNat + 1 := by
  fun_induction dispatchLoop provider stage stageRetries attempt s with
  | case1 attempt s consumed =>
    exact ⟨[stage.call (s.withRetry stage.id consumed).context], _, ⟨rfl, rfl, rfl⟩,
      forall_mem_singleton.mpr rfl, cons_ne_nil _ _, Nat.le_add_left _ _⟩
  | case2 attempt s consumed s' lastError _ failed hagain ih =>
    obtain ⟨calls, result, hadds, hown, -, hlength⟩ := ih
    refine ⟨stage.call (s.withRetry stage.id consumed).context :: calls, result,
      ⟨hadds.calls.trans (append_assoc s.calls [_] calls), hadds.results, hadds.stageMap⟩,
      forall_mem_cons.mpr ⟨rfl, hown⟩, cons_ne_nil _ _, ?_⟩
    rw [length_cons]
    omega
  | case3 attempt s consumed s' result =>
    refine ⟨[stage.call (s.withRetry stage.id consumed).context], result, ?_,
      forall_mem_singleton.mpr rfl, cons_ne_nil _ _, Nat.le_add_left _ _⟩
    unfold ExecutorState.returned ExecutorState.update
    split <;> exact ⟨rfl, rfl, rfl⟩

/-- What the fan-in says of dependencies that were declared before. -/
theorem Account.fanIn_cases (h : Account before s) {dependencies : List PyStr}
    (hdeclared : ∀ dependency ∈ dependencies, dependency ∈ before.map Block.id) :
    (fanIn s.stageMap dependencies = .satisfied ∧
        ∀ b ∈ before, b.id ∈ dependencies → b.result.status ≠ .failed) ∨
      ∃ dependency, fanIn s.stageMap dependencies = .blocked dependency ∧
        ∃ b ∈ before, b.id ∈ dependencies ∧ b.result.status = .failed := by
  induction dependencies with
  | nil => exact Or.inl ⟨rfl, fun _ _ hmem => by cases hmem⟩
  | cons dependency dependencies ih =>
    obtain ⟨hfirst, hrest⟩ := forall_mem_cons.mp hdeclared
    obtain ⟨b, hb, rfl⟩ := mem_map.mp hfirst
    unfold fanIn
    simp only [h.stageMap b hb]
    split
    · exact Or.inr ⟨_, rfl, b, hb, mem_cons_self, ‹_›⟩
    rcases ih hrest with ⟨hfan, hclear⟩ | ⟨blocked, hfan, other, hother, hmem, hfailed⟩
    · refine Or.inl ⟨hfan, fun other hother hmem => ?_⟩
      rcases mem_cons.mp hmem with heq | hmem
      · have hsame := h.stageMap other hother
        rw [heq, h.stageMap b hb] at hsame
        rwa [← Option.some.inj hsame]
      · exact hclear other hother hmem
    · exact Or.inr ⟨blocked, hfan, other, hother, mem_cons_of_mem _ hmem, hfailed⟩

/-- **The loop over the stages** adds a block and a result for each of them. -/
theorem runStages_inBlocks (h : Account before s)
    (hnodup : (before.map Block.id ++ stages.map Stage.id).Nodup)
    (hdeclared : Declared (before.map Block.id) stages) :
    InBlocks bounds before stages (runStages (tries provider) bounds stages s) := by
  induction stages generalizing before s with
  | nil =>
    refine ⟨[], s.context, rfl, ?_, fun pre b post hnil => ?_⟩
    · rw [append_nil, ← h.calls, ← h.results]
      rfl
    · exact absurd hnil.symm (append_ne_nil_of_right_ne_nil _ (cons_ne_nil _ _))
  | cons stage stages ih =>
    -- A block of this stage is followed by the blocks of the others.
    have hnext : ∀ {s' : ExecutorState F} {b : Block F}, b.stage = stage → Adds s s' b →
        b.Served bounds before →
        InBlocks bounds before (stage :: stages) (runStages (tries provider) bounds stages s') := by
      rintro s' b rfl hadds hserved
      have hnew : ∀ other ∈ before, other.id ≠ b.id := fun other hother heq =>
        (nodup_append'.mp hnodup).2.2 (mem_map_of_mem hother) (heq ▸ mem_cons_self)
      have hids : (before ++ [b]).map Block.id =
          before.map Block.id ++ [b.id] := map_append
      obtain ⟨blocks, context, hblocks, hrun, hall⟩ :=
        ih (h.add hadds hnew) (by rw [hids, append_assoc]; exact hnodup)
          (by rw [hids]; exact hdeclared.2)
      simp only [append_assoc, singleton_append] at hrun hall
      refine ⟨b :: blocks, context, by rw [map_cons, hblocks], hrun, fun pre c post heq => ?_⟩
      rcases cons_eq_append_iff.mp heq with ⟨rfl, hcons⟩ | ⟨rest, rfl, hrest⟩
      · obtain ⟨rfl, -⟩ := cons.inj hcons
        rw [append_nil]
        exact hserved
      · exact hall rest c post hrest
    have hskip : ∀ error reason,
        Adds s (s.skip stage error reason) ⟨stage, [], stage.result .skipped error 0⟩ :=
      fun error reason => ⟨(append_nil s.calls).symm, rfl, rfl⟩
    unfold runStages
    rcases h.fanIn_cases hdeclared.1 with ⟨hfan, hclear⟩ | ⟨dependency, hfan, b, hb, hmem, hfailed⟩
    · simp only [hfan]
      split
      case isTrue hbound =>
        exact hnext rfl (hskip _ _) ⟨fun _ hcall => (by cases hcall), Nat.zero_le _,
          fun hcalls => absurd rfl hcalls, fun _ hkind => absurd hbound.1 hkind⟩
      case isFalse =>
        obtain ⟨calls, result, hadds, hown, hcalls, hlength⟩ :=
          @adds_dispatchLoop _ provider stage (stage.stageRetries bounds) 0 s
        exact hnext rfl hadds ⟨hown, by simpa using hlength, fun _ => hclear, fun _ _ => hcalls⟩
    · simp only [hfan]
      exact hnext rfl (hskip _ _) ⟨fun _ hcall => (by cases hcall), Nat.zero_le _,
        fun hcalls => absurd rfl hcalls, fun hall => absurd hfailed (hall b hb hmem)⟩

/-- **A run** in which every dependency is declared before returns, with a block and a result for
each stage. -/
theorem dispatch_inBlocks (provider : Provider F) (bounds : Bounds) (context : StageContext F)
    (hnodup : (stages.map Stage.id).Nodup) (hdeclared : Declared [] stages) :
    InBlocks bounds [] stages (dispatch provider bounds stages context) :=
  have hstart : Account [] ({ context := context } : ExecutorState F) :=
    ⟨rfl, rfl, fun _ h => by cases h⟩
  runStages_inBlocks hstart hnodup hdeclared

/-- Whatever is down. -/
theorem dispatch_inBlocks_twoStages :
    InBlocks {} [] twoStages (dispatch (fun _ => .error (PyStr.text "down")) {} twoStages {}) :=
  dispatch_inBlocks _ _ _ (by decide) ⟨fun _ h => (by cases h), by decide, trivial⟩

end GpuManager.Dispatch
