import GpuManager.Coordinator.Frames
import GpuManager.Coordinator.Parents

/-!
# Orphaned runs

When nothing new is in the parent stream, `process_one` reclaims the pending entries that its
consumer owns or that have been idle for long enough, and goes on with the first of the runs
they name.  The others stay pending and are reached by later calls.

`reclaim_orphaned_parents` loads the state of every run it has found an entry for, and raises
at the first one that has none; the in-memory store passes over such a run.  One entry without
a loadable state therefore keeps the whole list back, in this call and in all later ones.  Where
every entry has one, each orphaned run is reached, as long as no run that is served raises or
stays in progress for ever.
-/

namespace GpuManager.Coordinator

open AtomicProgram RedisCoordinatorStore PipelineCoordinator ControllerPipelineRuntime Prog World
open List

/-! ## Reclaiming -/

def World.pending (w : World) : List ℕ := w.pel.map PendingEntry.entryId

structure GroupSound (w : World) : Prop where
  nodup : w.pending.Nodup
  delivered : ∀ entryId ∈ w.pending, entryId < w.delivered
  le : w.delivered ≤ w.stream.length

structure QueueSound (w : World) : Prop extends GroupSound w where
  keyed : ∀ key state, w.states key = some state → state.runId = key

/-- The consumer takes a pending entry over: it is its own, or has been idle for long enough. -/
def TakenOver (consumer : String) (now : ℕ) (e : PendingEntry) : Prop :=
  e.consumer = consumer ∨ reclaimMinIdleMs ≤ now - e.deliveredAt

instance (consumer : String) (now : ℕ) (e : PendingEntry) :
    Decidable (TakenOver consumer now e) := by
  unfold TakenOver
  infer_instance

def World.message (w : World) (entryId : ℕ) : List (ℕ × String) :=
  match w.stream[entryId]? with
  | none => []
  | some runId => if runId = "" then [] else [(entryId, runId)]

/-- What the consumer collects from these pending entries. -/
def World.collects (w : World) (consumer : String) (es : List PendingEntry) : List (ℕ × String) :=
  es.flatMap fun e => if TakenOver consumer w.now e then w.message e.entryId else []

/-- The two worlds differ at most in the owners of the pending entries. -/
structure SameQueue (w w' : World) : Prop where
  states : w'.states = w.states
  stream : w'.stream = w.stream
  delivered : w'.delivered = w.delivered
  now : w'.now = w.now
  entryIds : w'.entryIds = w.entryIds
  calls : w'.calls = w.calls
  pending : w'.pending = w.pending

theorem SameQueue.refl (w : World) : SameQueue w w := ⟨rfl, rfl, rfl, rfl, rfl, rfl, rfl⟩

theorem SameQueue.trans {w₁ w₂ w₃ : World} (h : SameQueue w₁ w₂) (h' : SameQueue w₂ w₃) :
    SameQueue w₁ w₃ :=
  ⟨h'.states.trans h.states, h'.stream.trans h.stream, h'.delivered.trans h.delivered,
    h'.now.trans h.now, h'.entryIds.trans h.entryIds, h'.calls.trans h.calls,
    h'.pending.trans h.pending⟩

section Reclaim

variable {providers : Providers} {consumer : String} {store : ℕ} {w : World}

theorem messages_filter (w : World) (entryId : ℕ) :
    (match w.stream[entryId]? with
      | none => []
      | some runId => [(entryId, runId)]).filter (fun m => m.2 != "") = w.message entryId := by
  unfold message
  split
  · rfl
  rename_i runId _
  by_cases hblank : runId = ""
  · rw [if_pos hblank, hblank]
    rfl
  · rw [if_neg hblank]
    simpa using hblank

/-- The entry changes hands. -/
def World.claim (w : World) (consumer : String) (entryId : ℕ) : World :=
  { w with
    pel := w.pel.map fun e => if e.entryId = entryId then ⟨entryId, consumer, w.now⟩ else e }

theorem sameQueue_claim (w : World) (consumer : String) (entryId : ℕ) :
    SameQueue w (w.claim consumer entryId) := by
  refine ⟨rfl, rfl, rfl, rfl, rfl, rfl, ?_⟩
  unfold pending claim
  rw [map_map]
  refine map_congr_left fun e _ => ?_
  change (if e.entryId = entryId then (⟨entryId, consumer, w.now⟩ : PendingEntry)
    else e).entryId = _
  split
  · rename_i heq
    exact heq.symm
  · rfl

variable (providers consumer) in
/-- An entry that is idle for long enough can be claimed. -/
theorem exec_xclaim {e : PendingEntry} (he : e ∈ w.pel)
    (hidle : reclaimMinIdleMs ≤ w.now - e.deliveredAt) :
    ∃ messages w', exec providers (.xclaim consumer reclaimMinIdleMs e.entryId) w =
        (.ok messages, w') ∧ messages.filter (fun m => m.2 != "") = w.message e.entryId ∧
      (w' = w ∨ w' = w.claim consumer e.entryId) := by
  have hfound : (w.pel.find? fun e' =>
      e'.entryId = e.entryId && reclaimMinIdleMs ≤ w.now - e'.deliveredAt).isSome := by
    rw [find?_isSome]
    exact ⟨e, he, by simpa using hidle⟩
  obtain ⟨e', he'⟩ := Option.isSome_iff_exists.mp hfound
  cases hstream : w.stream[e.entryId]? with
  | none =>
    refine ⟨[], w, ?_, ?_, Or.inl rfl⟩
    · simp only [exec, hstream]
    · simp only [message, hstream, filter_nil]
  | some runId =>
    refine ⟨[(e.entryId, runId)], w.claim consumer e.entryId, ?_, ?_, Or.inr rfl⟩
    · simp only [exec, hstream, he', claim]
    · rw [← messages_filter, hstream]

/-- The messages of the entries that are taken over are collected, in order. -/
theorem ends_collectEntries (es : List PendingEntry) (w : World)
    (hnodup : (es.map PendingEntry.entryId).Nodup) (hes : ∀ e ∈ es, e ∈ w.pel) :
    Ends (exec providers)
      (collectEntries consumer (es.map fun e => (e.entryId, e.consumer, w.now - e.deliveredAt)))
      (fun r w' => r = .ok (w.collects consumer es) ∧ SameQueue w w') w := by
  induction es generalizing w with
  | nil => exact ⟨rfl, SameQueue.refl w⟩
  | cons e es ih =>
    obtain ⟨hfresh, hnodup⟩ := nodup_cons.mp hnodup
    -- The rest of the list, once this entry is dealt with.
    have hrest : ∀ (messages : List (ℕ × String)) (w₁ : World), SameQueue w w₁ →
        (∀ e ∈ es, e ∈ w₁.pel) →
        messages.filter (fun m => m.2 != "") =
          (if TakenOver consumer w.now e then w.message e.entryId else []) →
        Ends (exec providers)
          (do
            let rest ← collectEntries consumer
              (es.map fun e => (e.entryId, e.consumer, w.now - e.deliveredAt))
            pure (messages.filter (fun m => m.2 != "") ++ rest))
          (fun r w' => r = .ok (w.collects consumer (e :: es)) ∧ SameQueue w w') w₁ := by
      intro messages w₁ hsame hin hmessages
      have hends := ih w₁ hnodup hin
      rw [hsame.now] at hends
      refine ends_bind (ends_mono hends ?_)
      rintro r w' ⟨rfl, hsame'⟩
      refine ⟨?_, hsame.trans hsame'⟩
      have hcollects : w₁.collects consumer es = w.collects consumer es := by
        unfold collects message
        rw [hsame.now, hsame.stream]
      rw [hmessages, hcollects]
      rfl
    have hin : ∀ e ∈ es, e ∈ w.pel := fun e' he' => hes e' (mem_cons_of_mem _ he')
    simp only [map_cons]
    unfold collectEntries
    by_cases hown : e.consumer = consumer
    · rw [if_pos hown]
      refine ends_send ?_
      have htaken : TakenOver consumer w.now e := Or.inl hown
      exact hrest _ w (SameQueue.refl w) hin
        ((messages_filter w e.entryId).trans (if_pos htaken).symm)
    · rw [if_neg hown]
      by_cases hidle : reclaimMinIdleMs ≤ w.now - e.deliveredAt
      · rw [if_pos hidle]
        obtain ⟨messages, w', hexec, hmessages, hw'⟩ :=
          exec_xclaim providers consumer (hes e mem_cons_self) hidle
        refine ends_send ?_
        rw [hexec]
        refine hrest messages w' ?_ ?_ ?_
        · rcases hw' with rfl | rfl
          · exact SameQueue.refl _
          · exact sameQueue_claim w consumer e.entryId
        · intro e' he'
          rcases hw' with rfl | rfl
          · exact hin e' he'
          refine mem_map.mpr ⟨e', hin e' he', if_neg fun heq => hfresh ?_⟩
          rw [← heq]
          exact mem_map_of_mem he'
        · have htaken : TakenOver consumer w.now e := Or.inr hidle
          exact hmessages.trans (if_pos htaken).symm
      · rw [if_neg hidle]
        have hleft : ¬ TakenOver consumer w.now e := fun htaken => htaken.elim hown hidle
        exact hrest [] w (SameQueue.refl w) hin (if_neg hleft).symm

theorem pending_ack (w : World) (entryIds : List ℕ) :
    (w.ack entryIds).pending = w.pending.filter fun i => i ∉ entryIds := by
  unfold pending World.ack
  rw [filter_map]
  rfl

variable {entryIds : List ℕ}

/-- Pending entries are acknowledged, each once. -/
theorem countP_pending (hpel : w.pending.Nodup) (hnodup : entryIds.Nodup)
    (hpending : ∀ i ∈ entryIds, i ∈ w.pending) :
    w.pel.countP (fun e => e.entryId ∈ entryIds) = entryIds.length := by
  have hperm : (w.pending.filter fun i => i ∈ entryIds).Perm entryIds := by
    refine (perm_ext_iff_of_nodup (hpel.filter _) hnodup).mpr fun i => ?_
    simp only [mem_filter, decide_eq_true_eq]
    exact ⟨And.right, fun h => ⟨hpending i h, h⟩⟩
  rw [countP_eq_length_filter, ← hperm.length_eq]
  unfold pending
  rw [filter_map, length_map]
  rfl

variable {runId : String} {i : ℕ} {entries : List (ℕ × String)}

theorem ends_ackDuplicates (hpel : w.pending.Nodup) (hnodup : entryIds.Nodup)
    (hpending : ∀ i ∈ entryIds, i ∈ w.pending) :
    Ends (exec providers) (ackDuplicates runId entryIds)
      (fun r w' => r = .ok () ∧ w' = w.ack entryIds) w := by
  unfold ackDuplicates
  split
  · rename_i hnone
    refine ⟨rfl, ?_⟩
    subst hnone
    change w = { w with pel := w.pel.filter fun e => e.entryId ∉ [] }
    simp
  · refine ends_send ?_
    simp only [exec]
    rw [if_pos (countP_pending hpel hnodup hpending)]
    exact ⟨rfl, rfl⟩

/-- The older entries of the runs. -/
def olderEntries (entries : List (ℕ × String)) (runIds : List String) : List ℕ :=
  runIds.flatMap fun runId => (entryIdsOf entries runId).dropLast

/-- The older entries of these runs are acknowledged, and the newest of each is remembered. -/
structure Consolidated (store : ℕ) (entries : List (ℕ × String)) (runIds : List String)
    (w w' : World) : Prop where
  states : w'.states = w.states
  stream : w'.stream = w.stream
  delivered : w'.delivered = w.delivered
  now : w'.now = w.now
  calls : w'.calls = w.calls
  pending : w'.pending = w.pending.filter fun i => i ∉ olderEntries entries runIds
  retained : ∀ runId ∈ runIds, w'.entryIds store runId = (entryIdsOf entries runId).getLast?
  others : ∀ runId, runId ∉ runIds → w'.entryIds store runId = w.entryIds store runId

theorem nodup_entryIdsOf (entries : List (ℕ × String)) (runId : String) :
    (entryIdsOf entries runId).Nodup :=
  (perm_insertionSort _ _).nodup_iff.mpr (nodup_dedup _)

/-- Where every run can be loaded, the states of all of them are returned. -/
theorem ends_consolidate
    (hentries : ∀ m ∈ entries, ∀ m' ∈ entries, m.1 = m'.1 → m.2 = m'.2) (runIds : List String)
    (hruns : runIds.Nodup) (w : World) (hpel : w.pending.Nodup)
    (hpending : ∀ runId ∈ runIds, ∀ i ∈ entryIdsOf entries runId, i ∈ w.pending)
    (hloaded : ∀ runId ∈ runIds, (w.states runId).isSome ∧ entryIdsOf entries runId ≠ []) :
    Ends (exec providers) (consolidate store entries runIds)
      (fun r w' => (∃ states, r = .ok states ∧ states.map some = runIds.map w.states) ∧
        Consolidated store entries runIds w w') w := by
  induction runIds generalizing w with
  | nil =>
    refine ⟨⟨[], rfl, rfl⟩, rfl, rfl, rfl, rfl, rfl, ?_, fun _ h => (by cases h), fun _ _ => rfl⟩
    exact (filter_eq_self.mpr fun i _ => by simp [olderEntries]).symm
  | cons runId runIds ih =>
    obtain ⟨hfresh, hruns⟩ := nodup_cons.mp hruns
    obtain ⟨⟨hsome, hnonempty⟩, hloaded⟩ := forall_mem_cons.mp hloaded
    obtain ⟨hown, hpending⟩ := forall_mem_cons.mp hpending
    obtain ⟨state, hstate⟩ := Option.isSome_iff_exists.mp hsome
    have hlast : (entryIdsOf entries runId).getLast? =
        some ((entryIdsOf entries runId).getLast hnonempty) := getLast?_eq_some_getLast _
    generalize (entryIdsOf entries runId).getLast hnonempty = retainedId at hlast
    have hdropped : ((entryIdsOf entries runId).dropLast).Nodup :=
      (nodup_entryIdsOf entries runId).sublist (dropLast_sublist _)
    unfold consolidate
    simp only
    refine ends_bind (ends_mono (ends_ackDuplicates hpel hdropped
      fun i hi => hown i (dropLast_subset _ hi)) ?_)
    rintro r w₁ ⟨rfl, rfl⟩
    simp only
    unfold retain
    refine ends_bind (ends_loadState ?_)
    have hstored : (w.ack (entryIdsOf entries runId).dropLast).states runId = some state := hstate
    rw [hstored, hlast]
    refine ends_send (ends_pure ?_)
    -- The entries of the other runs are still pending.
    have hkept : ∀ other ∈ runIds, ∀ i ∈ entryIdsOf entries other,
        i ∈ (w.ack (entryIdsOf entries runId).dropLast).pending := by
      intro other hother i hi
      rw [pending_ack, mem_filter]
      refine ⟨hpending other hother i hi, decide_eq_true fun hdup => ?_⟩
      have hsame := hentries _ (mem_entryIdsOf.mp (dropLast_subset _ hdup)) _
        (mem_entryIdsOf.mp hi) rfl
      have hsame : runId = other := hsame
      exact hfresh (hsame ▸ hother)
    have hack : (w.ack (entryIdsOf entries runId).dropLast).pending.Nodup := by
      rw [pending_ack]
      exact hpel.filter _
    refine ends_bind (ends_mono (ih hruns
      ((w.ack (entryIdsOf entries runId).dropLast).setEntryId store runId (some retainedId))
      hack hkept hloaded) ?_)
    rintro r w' ⟨⟨states, rfl, hstates⟩, hdone⟩
    refine ends_pure ⟨⟨state :: states, rfl, ?_⟩, hdone.states, hdone.stream,
      hdone.delivered, hdone.now, hdone.calls, ?_, ?_, ?_⟩
    · rw [map_cons, map_cons, hstates, hstate]
      rfl
    · rw [hdone.pending]
      change ((w.ack (entryIdsOf entries runId).dropLast).pending.filter _) = _
      rw [pending_ack, filter_filter]
      refine filter_congr fun i _ => ?_
      simp only [olderEntries, flatMap_cons, mem_append, not_or, Bool.decide_and]
      exact Bool.and_comm _ _
    · intro other hother
      rcases mem_cons.mp hother with rfl | hother
      · rw [hdone.others _ hfresh, hlast]
        simp [setEntryId]
      · exact hdone.retained other hother
    · intro other hother
      rw [mem_cons, not_or] at hother
      rw [hdone.others other hother.2]
      simp [setEntryId, World.ack, hother.1]

/-- Where one of the runs cannot be loaded, nothing is returned. -/
theorem ends_consolidate_missing (runIds : List String) (w : World)
    (hmissing : ∃ runId ∈ runIds, w.states runId = none) :
    Ends (exec providers) (consolidate store entries runIds)
      (fun r _ => ∃ e, r = .error e) w := by
  induction runIds generalizing w with
  | nil => simp at hmissing
  | cons runId runIds ih =>
    have hack : Ends (exec providers)
        (ackDuplicates runId (entryIdsOf entries runId).dropLast)
        (fun r w' => w'.states = w.states) w := by
      unfold ackDuplicates
      split
      · exact rfl
      refine ends_send ?_
      simp only [exec]
      split <;> exact rfl
    unfold consolidate
    simp only
    refine ends_bind (ends_mono hack ?_)
    intro r w₁ hstates
    cases r with
    | error e => exact ⟨e, rfl⟩
    | ok _ =>
      simp only
      unfold retain
      refine ends_bind (ends_loadState ?_)
      cases hstate : w₁.states runId with
      | none => exact ⟨_, rfl⟩
      | some state =>
        have hrest : ∃ runId ∈ runIds, w₁.states runId = none := by
          obtain ⟨other, hother, hnone⟩ := hmissing
          rw [← hstates] at hnone
          rcases mem_cons.mp hother with rfl | hother
          · rw [hstate] at hnone
            cases hnone
          · exact ⟨other, hother, hnone⟩
        cases (entryIdsOf entries runId).getLast? with
        | none => exact ⟨_, rfl⟩
        | some retainedId =>
          refine ends_send (ends_pure ?_)
          refine ends_bind (ends_mono
            (ih (w₁.setEntryId store runId (some retainedId)) hrest) ?_)
          rintro r w' ⟨e, rfl⟩
          exact ⟨e, rfl⟩

/-- The entries of the first hundred pending ones that the consumer takes over. -/
def World.takenOver (w : World) (consumer : String) : List (ℕ × String) :=
  w.collects consumer (w.pel.take 100)

def World.orphans (w : World) (consumer : String) : List String :=
  ((w.takenOver consumer).map Prod.snd).dedup.insertionSort (· ≤ ·)

theorem mem_orphans : runId ∈ w.orphans consumer ↔ ∃ i, (i, runId) ∈ w.takenOver consumer := by
  simp [orphans]

variable {entryId j : ℕ}

theorem mem_message :
    (j, runId) ∈ w.message i ↔ j = i ∧ w.stream[i]? = some runId ∧ runId ≠ "" := by
  unfold message
  split
  · rename_i hnone
    simp [hnone]
  rename_i run hrun
  by_cases hblank : run = ""
  · subst hblank
    simp only [if_true, not_mem_nil, hrun, Option.some.injEq, false_iff]
    rintro ⟨-, rfl, hne⟩
    exact hne rfl
  · rw [if_neg hblank, mem_singleton, hrun]
    constructor
    · intro heq
      cases heq
      exact ⟨rfl, rfl, hblank⟩
    · rintro ⟨rfl, hsame, -⟩
      rw [Option.some.inj hsame]

theorem mem_takenOver :
    (i, runId) ∈ w.takenOver consumer ↔ (∃ e ∈ w.pel.take 100, e.entryId = i ∧
      TakenOver consumer w.now e) ∧ w.stream[i]? = some runId ∧ runId ≠ "" := by
  unfold takenOver collects
  rw [mem_flatMap]
  constructor
  · rintro ⟨e, he, hmem⟩
    split at hmem
    · rename_i htaken
      obtain ⟨rfl, hentry, hne⟩ := mem_message.mp hmem
      exact ⟨⟨e, he, rfl, htaken⟩, hentry, hne⟩
    · cases hmem
  · rintro ⟨⟨e, he, rfl, htaken⟩, hentry, hne⟩
    refine ⟨e, he, ?_⟩
    rw [if_pos htaken]
    exact mem_message.mpr ⟨rfl, hentry, hne⟩

/-- An entry that is taken over is pending. -/
theorem pending_of_takenOver (h : (i, runId) ∈ w.takenOver consumer) : i ∈ w.pending := by
  obtain ⟨⟨e, he, rfl, -⟩, -⟩ := mem_takenOver.mp h
  exact mem_map_of_mem (mem_of_mem_take he)

theorem ends_collected (hsound : GroupSound w)
    {Q : Except CoordinatorError (List PipelineRunState) →
      World → Prop}
    (h : ∀ w₁, SameQueue w w₁ → Ends (exec providers)
      (consolidate store (w.takenOver consumer) (w.orphans consumer)) Q w₁) :
    Ends (exec providers) (reclaimOrphanedParents store consumer) Q w := by
  unfold reclaimOrphanedParents
  refine ends_send ?_
  simp only [exec]
  have hnodup : ((w.pel.take 100).map PendingEntry.entryId).Nodup :=
    hsound.nodup.sublist ((take_sublist _ _).map _)
  refine ends_bind (ends_mono
    (ends_collectEntries _ w hnodup fun e he => mem_of_mem_take he) ?_)
  rintro r w₁ ⟨rfl, hsame⟩
  exact h w₁ hsame

theorem orphans_nodup (w : World) (consumer : String) : (w.orphans consumer).Nodup :=
  (perm_insertionSort _ _).nodup_iff.mpr (nodup_dedup _)

/-- Where every orphaned run can be loaded, the states of all of them are returned. -/
theorem ends_reclaim (hsound : GroupSound w)
    (hloaded : ∀ runId ∈ w.orphans consumer, (w.states runId).isSome) :
    Ends (exec providers) (reclaimOrphanedParents store consumer)
      (fun r w' => (∃ states, r = .ok states ∧
          states.map some = (w.orphans consumer).map w.states) ∧
        ∃ w₁, SameQueue w w₁ ∧
          Consolidated store (w.takenOver consumer) (w.orphans consumer) w₁ w') w := by
  refine ends_collected hsound fun w₁ hsame => ?_
  have hfun : ∀ m ∈ w.takenOver consumer, ∀ m' ∈ w.takenOver consumer, m.1 = m'.1 → m.2 = m'.2 := by
    rintro ⟨i, runId⟩ hm ⟨j, other⟩ hm' heq
    obtain rfl : i = j := heq
    have hsame := (mem_takenOver.mp hm).2.1.symm.trans (mem_takenOver.mp hm').2.1
    exact Option.some.inj hsame
  refine ends_mono (ends_consolidate hfun _ (orphans_nodup w consumer) w₁ ?_ ?_ ?_) ?_
  · rw [hsame.pending]
    exact hsound.nodup
  · intro runId _ i hi
    rw [hsame.pending]
    exact pending_of_takenOver (mem_entryIdsOf.mp hi)
  · intro runId hrun
    obtain ⟨i, hi⟩ := mem_orphans.mp hrun
    rw [hsame.states]
    exact ⟨hloaded runId hrun, ne_nil_of_mem (mem_entryIdsOf.mpr hi)⟩
  · rintro r w' ⟨hstates, hdone⟩
    rw [hsame.states] at hstates
    exact ⟨hstates, w₁, hsame, hdone⟩

theorem ends_reclaim_missing (hsound : GroupSound w)
    (hmissing : ∃ runId ∈ w.orphans consumer, w.states runId = none) :
    Ends (exec providers) (reclaimOrphanedParents store consumer)
      (fun r _ => ∃ e, r = .error e) w := by
  refine ends_collected hsound fun w₁ hsame => ends_consolidate_missing _ w₁ ?_
  rw [hsame.states]
  exact hmissing

end Reclaim

/-! ## One call of a consumer -/

section Call

variable {d : Deployment} {consumer : String} {store : ℕ} {w : World} {now : String}

/-- The claimed entry of a run is acknowledged, and replaced unless the run is terminal. -/
structure Released (w : World) (state : PipelineRunState) (entryId : ℕ) (w' : World) : Prop where
  states : w'.states = w.states
  delivered : w'.delivered = w.delivered
  now : w'.now = w.now
  stream : w'.stream = if state.status.isTerminal then w.stream else w.stream ++ [state.runId]
  pending : w'.pending = w.pending.filter fun i => i ∉ [entryId]

variable {state : PipelineRunState}

theorem ends_release (hentry : w.entryIds store state.runId = some entryId) :
    Ends (exec d.providers) (release store state)
      (fun r w' => r = .ok state ∧ Released w state entryId w') w := by
  unfold release
  by_cases hterminal : state.status.isTerminal = true
  · rw [if_pos hterminal]
    unfold ackParent
    refine ends_bind (ends_send ?_)
    simp only [exec, hentry]
    refine ends_send ?_
    simp only [exec]
    refine ⟨rfl, rfl, rfl, rfl, (if_pos hterminal).symm, ?_⟩
    exact pending_ack _ _
  · rw [if_neg hterminal]
    unfold requeueParent
    refine ends_bind (ends_send ?_)
    simp only [exec, hentry]
    refine ends_send (ends_send ?_)
    refine ⟨rfl, rfl, rfl, rfl, (if_neg hterminal).symm, ?_⟩
    exact pending_ack _ _

/-- Every entry that is not yet delivered or still pending names a run whose state can be
loaded. -/
def World.Loadable (w : World) : Prop :=
  ∀ entryId runId, w.Open entryId → w.stream[entryId]? = some runId →
    runId ≠ "" ∧ (w.states runId).isSome

/-- What is left to do: each entry is delivered and acknowledged. -/
def World.burden (w : World) : ℕ := 2 * (w.stream.length - w.delivered) + w.pending.length

theorem mem_pending {i : ℕ} : i ∈ w.pending ↔ ∃ e ∈ w.pel, e.entryId = i := mem_map

structure Claims (store : ℕ) (w w₁ : World) (runId : String) (entryId : ℕ) : Prop where
  states : w₁.states = w.states
  stream : w₁.stream = w.stream
  now : w₁.now = w.now
  calls : w₁.calls = w.calls
  entry : w₁.entryIds store runId = some entryId
  pending : entryId ∈ w₁.pending
  named : w.stream[entryId]? = some runId
  sound : QueueSound w₁
  opened : ∀ i, w₁.Open i → w.Open i
  kept : ∀ other, other ≠ runId → (∃ i ∈ w.pending, w.stream[i]? = some other) →
    ∃ i ∈ w₁.pending, w.stream[i]? = some other
  lighter : w₁.burden ≤ w.burden

structure Served (w : World) (state : PipelineRunState) (w' : World) : Prop where
  sound : QueueSound w'
  loadable : w'.Loadable
  stream : w'.stream = if state.status.isTerminal then w.stream else w.stream ++ [state.runId]
  named : state.runId ∈ w.stream
  kept : ∀ other, other ≠ state.runId → (∃ i ∈ w.pending, w.stream[i]? = some other) →
    ∃ i ∈ w'.pending, w'.stream[i]? = some other
  lighter : state.status.isTerminal = true → w'.burden < w.burden
  now : w'.now = w.now

def Deployment.Returns (d : Deployment) (now : String) (w : World) : Prop :=
  ∀ w' state, w'.states = w.states → w'.calls = w.calls → w'.states state.runId = some state →
    ∃ next, ((d.coordinator.advance now state).run (exec d.providers) w').1 = .ok next

variable {w₁ : World} {runId : String} {w' : World}

/-- One claimed entry has been handled: the state of its run may be written, the entry is
acknowledged, and unless the run is terminal a new one stands at the end of the stream. -/
structure Handled (w : World) (runId : String) (entryId : ℕ) (terminal : Bool) (w' : World) :
    Prop where
  states : ∀ key, key ≠ runId → w'.states key = w.states key
  kept : (w.states runId).isSome → (w'.states runId).isSome
  keyed : ∀ state, w'.states runId = some state → w.states runId = some state ∨ state.runId = runId
  delivered : w'.delivered = w.delivered
  now : w'.now = w.now
  stream : w'.stream = if terminal then w.stream else w.stream ++ [runId]
  pending : w'.pending = w.pending.filter fun i => i ∉ [entryId]

theorem Released.handled {w₂ : World} (h : Released w₂ state entryId w')
    (hapart : Apart runId w₁ w₂) (hrun : state.runId = runId) :
    Handled w₁ runId entryId state.status.isTerminal w' where
  states key hkey := by
    rw [h.states]
    exact hapart.states key hkey
  kept hsome := by
    rw [h.states]
    exact hapart.kept hsome
  keyed other hother := hapart.keyed other (h.states ▸ hother)
  delivered := h.delivered.trans hapart.delivered
  now := h.now.trans hapart.now
  stream := by rw [h.stream, hapart.stream, hrun]
  pending := by
    rw [h.pending]
    unfold World.pending
    rw [hapart.pel]

section Handled

variable {terminal : Bool} (h : Handled w₁ runId entryId terminal w')
include h

/-- The stream only grows. -/
theorem Handled.stream_old {i : ℕ} (hi : i < w₁.stream.length) :
    w'.stream[i]? = w₁.stream[i]? := by
  rw [h.stream]
  split
  · rfl
  · exact List.getElem?_append_left hi

theorem Handled.sound (hsound : QueueSound w₁) : QueueSound w' := by
  refine ⟨⟨?_, fun i hi => ?_, ?_⟩, fun key state hstate => ?_⟩
  · rw [h.pending]
    exact hsound.nodup.filter _
  · rw [h.pending] at hi
    rw [h.delivered]
    exact hsound.delivered i (mem_of_mem_filter hi)
  · have hle := hsound.le
    rw [h.delivered, h.stream]
    split
    · exact hle
    · rw [length_append]
      omega
  · by_cases hsame : key = runId
    · subst hsame
      rcases h.keyed state hstate with hold | hown
      · exact hsound.keyed key state hold
      · exact hown
    · rw [h.states key hsame] at hstate
      exact hsound.keyed key state hstate

/-- An open entry was open before, or is the one that was added for the run. -/
theorem Handled.loadable (hloadable : w₁.Loadable) (hne : runId ≠ "")
    (hsome : (w₁.states runId).isSome) : w'.Loadable := by
  have hkept : ∀ other, (w₁.states other).isSome → (w'.states other).isSome := by
    intro other hother
    by_cases hsame : other = runId
    · subst hsame
      exact h.kept hother
    · rw [h.states other hsame]
      exact hother
  intro i other hopen hother
  by_cases hold : i < w₁.stream.length
  · have hwas : w₁.Open i := by
      rcases hopen with hundelivered | hpel
      · rw [h.delivered] at hundelivered
        exact Or.inl hundelivered
      have hmem := mem_pending.mpr hpel
      rw [h.pending] at hmem
      exact Or.inr (mem_pending.mp (mem_of_mem_filter hmem))
    rw [h.stream_old hold] at hother
    obtain ⟨hne', hsome'⟩ := hloadable i other hwas hother
    exact ⟨hne', hkept other hsome'⟩
  · have hadded : other = runId := by
      rw [h.stream] at hother
      split at hother
      · exact absurd (List.getElem?_eq_some_iff.mp hother).1 hold
      · rw [List.getElem?_append_right (Nat.le_of_not_lt hold)] at hother
        exact mem_singleton.mp (mem_of_getElem? hother)
    subst hadded
    exact ⟨hne, hkept other hsome⟩

end Handled

section Claims

variable (hclaims : Claims store w w₁ runId entryId) (hloadable : w.Loadable)
include hclaims hloadable

theorem Claims.loadable : w₁.Loadable := by
  intro i other hopen hother
  rw [hclaims.stream] at hother
  rw [hclaims.states]
  exact hloadable i other (hclaims.opened i hopen) hother

/-- The claimed run can be loaded. -/
theorem Claims.own : runId ≠ "" ∧ (w₁.states runId).isSome := by
  refine hclaims.loadable hloadable entryId runId (Or.inr (mem_pending.mp hclaims.pending)) ?_
  rw [hclaims.stream]
  exact hclaims.named

/-- A claimed entry that was handled has been served. -/
theorem Claims.served (hrun : state.runId = runId)
    (h : Handled w₁ runId entryId state.status.isTerminal w') : Served w state w' := by
  subst hrun
  obtain ⟨hne, hsome⟩ := hclaims.own hloadable
  refine ⟨h.sound hclaims.sound, h.loadable (hclaims.loadable hloadable) hne hsome, ?_,
    mem_of_getElem? hclaims.named, fun other hother hpend => ?_, fun hterminal => ?_,
    h.now.trans hclaims.now⟩
  · rw [h.stream, hclaims.stream]
  · obtain ⟨i, hi, hnamed⟩ := hclaims.kept other hother hpend
    refine ⟨i, ?_, ?_⟩
    · rw [h.pending, mem_filter]
      refine ⟨hi, decide_eq_true fun heq => hother ?_⟩
      rw [mem_singleton.mp heq] at hnamed
      exact Option.some.inj (hnamed.symm.trans hclaims.named)
    · rw [← hclaims.stream] at hnamed
      exact (h.stream_old (List.getElem?_eq_some_iff.mp hnamed).1).trans hnamed
  · refine Nat.lt_of_lt_of_le ?_ hclaims.lighter
    unfold burden
    rw [h.delivered, h.stream, if_pos hterminal]
    have hfewer : w'.pending.length < w₁.pending.length := by
      rw [h.pending]
      refine length_filter_lt_length_iff_exists.mpr ⟨entryId, hclaims.pending, ?_⟩
      simp
    omega

/-- A claimed run is advanced and released. -/
theorem ends_processClaimed (hreturns : d.Returns now w) :
    Ends (exec d.providers) (processClaimed d.coordinator store now runId)
      (fun r w' => ∃ state, r = .ok state ∧ Served w state w') w₁ := by
  obtain ⟨-, hsome⟩ := hclaims.own hloadable
  obtain ⟨stored, hstored⟩ := Option.isSome_iff_exists.mp hsome
  have hkey := hclaims.sound.keyed runId stored hstored
  unfold processClaimed
  refine ends_loadState ?_
  rw [hstored]
  obtain ⟨next, hnext⟩ := hreturns w₁ stored hclaims.states hclaims.calls (hkey ▸ hstored)
  refine ends_bind ?_
  have hadvanced := advance_within d.coordinator now stored d.providers hclaims.sound.keyed
  unfold Ends at hadvanced ⊢
  rw [hnext] at hadvanced ⊢
  obtain ⟨hrun, hapart⟩ := hadvanced
  generalize ((d.coordinator.advance now stored).run (exec d.providers) w₁).2 = w₂ at hapart ⊢
  replace hrun : next.runId = runId := (hrun next rfl).trans hkey
  rw [hkey] at hapart
  have hentry : w₂.entryIds store next.runId = some entryId := by
    rw [hapart.entryIds, hrun]
    exact hclaims.entry
  change Ends (exec d.providers) (release store next)
    (fun r w' => ∃ state, r = .ok state ∧ Served w state w') w₂
  refine ends_mono (ends_release hentry) ?_
  rintro r w' ⟨rfl, hreleased⟩
  exact ⟨next, rfl, hclaims.served hloadable hrun (hreleased.handled hapart hrun)⟩

end Claims

def World.deliver (w : World) (consumer : String) : World :=
  { w with
    delivered := w.delivered + 1
    pel := w.pel ++ [⟨w.delivered, consumer, w.now⟩] }

theorem pending_deliver (w : World) (consumer : String) :
    (w.deliver consumer).pending = w.pending ++ [w.delivered] := by
  unfold pending deliver
  rw [map_append]
  rfl

/-- The next entry of the stream is claimed by its delivery. -/
theorem claims_deliver (hsound : QueueSound w) (hnext : w.stream[w.delivered]? = some runId) :
    Claims store w ((w.deliver consumer).setEntryId store runId (some w.delivered)) runId
      w.delivered := by
  have hlt := (List.getElem?_eq_some_iff.mp hnext).1
  have hpending : ((w.deliver consumer).setEntryId store runId (some w.delivered)).pending =
      w.pending ++ [w.delivered] := pending_deliver w consumer
  have hnew : w.delivered ∉ w.pending := fun h => Nat.lt_irrefl _ (hsound.delivered _ h)
  refine ⟨rfl, rfl, rfl, rfl, ?_, ?_, hnext, ⟨⟨?_, ?_, hlt⟩, hsound.keyed⟩, ?_, ?_, ?_⟩
  · simp [setEntryId]
  · rw [hpending]
    exact mem_append_right _ mem_cons_self
  · rw [hpending]
    exact Nodup.append hsound.nodup (nodup_singleton _)
      (disjoint_singleton.mpr hnew)
  · intro i hi
    rw [hpending] at hi
    rcases mem_append.mp hi with hi | hi
    · exact Nat.lt_succ_of_lt (hsound.delivered i hi)
    · rw [mem_singleton.mp hi]
      exact Nat.lt_succ_self _
  · rintro i (hundelivered | hpel)
    · exact Or.inl (Nat.le_of_succ_le hundelivered)
    · have hi := mem_pending.mpr hpel
      rw [hpending] at hi
      rcases mem_append.mp hi with hi | hi
      · exact Or.inr (mem_pending.mp hi)
      · exact Or.inl (mem_singleton.mp hi).ge
  · rintro other - ⟨i, hi, hother⟩
    refine ⟨i, ?_, hother⟩
    rw [hpending]
    exact mem_append_left _ hi
  · unfold burden
    rw [hpending, length_append]
    change 2 * (w.stream.length - (w.delivered + 1)) + _ ≤ _
    simp only [length_singleton]
    omega

/-- The newest entry of a run that was taken over stays pending. -/
theorem retained_pending (hsame : SameQueue w w₁)
    (hdone : Consolidated store (w.takenOver consumer) (w.orphans consumer) w₁ w')
    (horphan : runId ∈ w.orphans consumer) :
    ∃ i, (entryIdsOf (w.takenOver consumer) runId).getLast? = some i ∧ i ∈ w'.pending ∧
      w.stream[i]? = some runId := by
  obtain ⟨j, hj⟩ := mem_orphans.mp horphan
  have hne : entryIdsOf (w.takenOver consumer) runId ≠ [] :=
    ne_nil_of_mem (mem_entryIdsOf.mpr hj)
  have hlast := mem_entryIdsOf.mp (getLast_mem hne)
  refine ⟨_, getLast?_eq_some_getLast hne, ?_, (mem_takenOver.mp hlast).2.1⟩
  rw [hdone.pending, hsame.pending, mem_filter]
  refine ⟨pending_of_takenOver hlast, decide_eq_true fun holder => ?_⟩
  obtain ⟨other, -, hdropped⟩ := mem_flatMap.mp holder
  have hother := mem_entryIdsOf.mp (dropLast_subset _ hdropped)
  obtain rfl : runId = other :=
    Option.some.inj ((mem_takenOver.mp hlast).2.1.symm.trans (mem_takenOver.mp hother).2.1)
  have hnodup := nodup_entryIdsOf (w.takenOver consumer) runId
  rw [← dropLast_append_getLast hne] at hnodup
  exact (nodup_append.mp hnodup).2.2 _ hdropped _ mem_cons_self rfl

/-- A run that is taken over is claimed under one of its entries. -/
theorem claims_reclaim (hsound : QueueSound w) (hsame : SameQueue w w₁)
    (hdone : Consolidated store (w.takenOver consumer) (w.orphans consumer) w₁ w')
    (horphan : runId ∈ w.orphans consumer) : ∃ entryId, Claims store w w' runId entryId := by
  obtain ⟨entryId, hlast, hpending, hnamed⟩ := retained_pending hsame hdone horphan
  have hfilter : w'.pending =
      w.pending.filter fun i => i ∉ olderEntries (w.takenOver consumer) (w.orphans consumer) := by
    rw [hdone.pending, hsame.pending]
  have hsub : ∀ i ∈ w'.pending, i ∈ w.pending := by
    intro i hi
    rw [hfilter] at hi
    exact mem_of_mem_filter hi
  have hdelivered : w'.delivered = w.delivered := hdone.delivered.trans hsame.delivered
  have hstream : w'.stream = w.stream := hdone.stream.trans hsame.stream
  have hstates : w'.states = w.states := hdone.states.trans hsame.states
  refine ⟨entryId, hstates, hstream, hdone.now.trans hsame.now, hdone.calls.trans hsame.calls,
    (hdone.retained runId horphan).trans hlast, hpending, hnamed, ⟨⟨?_, ?_, ?_⟩, ?_⟩, ?_, ?_, ?_⟩
  · rw [hfilter]
    exact hsound.nodup.filter _
  · intro i hi
    rw [hdelivered]
    exact hsound.delivered i (hsub i hi)
  · rw [hdelivered, hstream]
    exact hsound.le
  · rw [hstates]
    exact hsound.keyed
  · rintro i (hundelivered | hpel)
    · rw [hdelivered] at hundelivered
      exact Or.inl hundelivered
    · exact Or.inr (mem_pending.mp (hsub i (mem_pending.mpr hpel)))
  · -- An entry that was acknowledged is older than one of the same run that stays.
    rintro other - ⟨i, hi, hother⟩
    by_cases holder : i ∈ olderEntries (w.takenOver consumer) (w.orphans consumer)
    · obtain ⟨run, hrun, hdropped⟩ := mem_flatMap.mp holder
      have hmem := mem_entryIdsOf.mp (dropLast_subset _ hdropped)
      obtain rfl : other = run :=
        Option.some.inj (hother.symm.trans (mem_takenOver.mp hmem).2.1)
      obtain ⟨j, -, hj, hnamed'⟩ := retained_pending hsame hdone hrun
      exact ⟨j, hj, hnamed'⟩
    · refine ⟨i, ?_, hother⟩
      rw [hfilter, mem_filter]
      exact ⟨hi, decide_eq_true holder⟩
  · have hfewer : w'.pending.length ≤ w.pending.length := by
      rw [hfilter]
      exact length_filter_le _ _
    unfold burden
    rw [hdelivered, hstream]
    omega

/-- A call of `process_one`: nothing is left to take up, or a run was served. -/
inductive Turn (consumer : String) (w : World) :
    Except CoordinatorError (Option PipelineRunState) → World → Prop where
  | idle (delivered : w.stream[w.delivered]? = none)
      (left : ∀ e ∈ w.pel.take 100, ¬ TakenOver consumer w.now e) : Turn consumer w (.ok none) w
  | served {state : PipelineRunState} {w' : World} (served : Served w state w') :
      Turn consumer w (.ok (some state)) w'

/-- Where nothing is taken over, nothing is claimed. -/
theorem ends_collectEntries_none (es : List PendingEntry)
    (hleft : ∀ e ∈ es, ¬ TakenOver consumer w.now e) :
    Ends (exec d.providers)
      (collectEntries consumer (es.map fun e => (e.entryId, e.consumer, w.now - e.deliveredAt)))
      (fun r w' => r = .ok [] ∧ w' = w) w := by
  induction es with
  | nil => exact ⟨rfl, rfl⟩
  | cons e es ih =>
    obtain ⟨hleft, hrest⟩ := forall_mem_cons.mp hleft
    simp only [map_cons]
    unfold collectEntries
    rw [if_neg fun hown => hleft (Or.inl hown), if_neg fun hidle => hleft (Or.inr hidle)]
    refine ends_bind (ends_pure ?_)
    refine ends_bind (ends_mono (ih hrest) ?_)
    rintro r w' ⟨rfl, rfl⟩
    exact ⟨rfl, rfl⟩

/-- A pending entry that the consumer takes over names an orphaned run. -/
theorem orphans_ne_nil (hsound : QueueSound w) (hloadable : w.Loadable)
    (hleft : ¬ ∀ e ∈ w.pel.take 100, ¬ TakenOver consumer w.now e) : w.orphans consumer ≠ [] := by
  simp only [not_forall, not_not] at hleft
  obtain ⟨e, he, htaken⟩ := hleft
  have hpel := mem_of_mem_take he
  have hlt : e.entryId < w.stream.length :=
    Nat.lt_of_lt_of_le (hsound.delivered _ (mem_map_of_mem hpel)) hsound.le
  have hentry : w.stream[e.entryId]? = some w.stream[e.entryId] := getElem?_eq_getElem hlt
  have hne := (hloadable e.entryId _ (Or.inr ⟨e, hpel, rfl⟩) hentry).1
  exact ne_nil_of_mem
    (mem_orphans.mpr ⟨_, mem_takenOver.mpr ⟨⟨e, he, rfl, htaken⟩, hentry, hne⟩⟩)

theorem orphan_loaded (hloadable : w.Loadable) (h : runId ∈ w.orphans consumer) :
    (w.states runId).isSome := by
  obtain ⟨i, hi⟩ := mem_orphans.mp h
  exact (hloadable i runId (Or.inr (mem_pending.mp (pending_of_takenOver hi)))
    (mem_takenOver.mp hi).2.1).2

/-- **One turn** serves a run, or finds none to take up. -/
theorem ends_processOne (hsound : QueueSound w) (hloadable : w.Loadable)
    (hreturns : d.Returns now w) :
    Ends (exec d.providers) (processOne d.coordinator store consumer now)
      (Turn consumer w) w := by
  have hserve : ∀ {w₁ : World} {runId : String} {entryId : ℕ},
      Claims store w w₁ runId entryId →
      Ends (exec d.providers)
        (some <$> processClaimed d.coordinator store now runId) (Turn consumer w) w₁ := by
    intro w₁ runId entryId hclaims
    refine ends_map (ends_mono (ends_processClaimed hclaims hloadable hreturns) ?_)
    rintro r w' ⟨state, rfl, hserved⟩
    exact .served hserved
  unfold processOne dequeueParent
  refine ends_bind (ends_send ?_)
  simp only [exec]
  cases hnext : w.stream[w.delivered]? with
  | some runId =>
    have hlt := (List.getElem?_eq_some_iff.mp hnext).1
    obtain ⟨hne, hsome⟩ := hloadable w.delivered runId (Or.inl le_rfl) hnext
    obtain ⟨state, hstate⟩ := Option.isSome_iff_exists.mp hsome
    simp only [if_neg hne]
    refine ends_send (ends_loadState ?_)
    have hloaded : ((w.deliver consumer).setEntryId store runId (some w.delivered)).states runId =
        some state := hstate
    simp only [exec, World.deliver] at hloaded ⊢
    rw [hloaded]
    refine ends_pure ?_
    simp only
    rw [hsound.keyed runId state hstate]
    exact hserve (claims_deliver hsound hnext)
  | none =>
    refine ends_pure ?_
    simp only
    by_cases hleft : ∀ e ∈ w.pel.take 100, ¬ TakenOver consumer w.now e
    · unfold reclaimOrphanedParents
      refine ends_bind (ends_send ?_)
      simp only [exec]
      refine ends_bind (ends_mono (ends_collectEntries_none _ hleft) ?_)
      rintro r w' ⟨rfl, rfl⟩
      exact .idle hnext hleft
    · obtain ⟨runId, runIds, horphans⟩ := exists_cons_of_ne_nil
        (orphans_ne_nil hsound hloadable hleft)
      have hloaded : ∀ runId ∈ w.orphans consumer, (w.states runId).isSome :=
        fun runId hrun => orphan_loaded hloadable hrun
      refine ends_bind (ends_mono (ends_reclaim hsound.toGroupSound hloaded) ?_)
      rintro r w' ⟨⟨states, rfl, hstates⟩, w₁, hsame, hdone⟩
      rw [horphans] at hstates
      cases states with
      | nil => cases hstates
      | cons state states =>
        have hstate : w.states runId = some state := (List.cons.inj hstates).1.symm
        simp only
        rw [hsound.keyed runId state hstate]
        have horphan : runId ∈ w.orphans consumer := by
          rw [horphans]
          exact mem_cons_self
        obtain ⟨entryId, hclaims⟩ := claims_reclaim hsound hsame hdone horphan
        exact hserve hclaims

end Call

/-! ## One consumer -/

/-- A consumer with its store object, the time that passes before each of its calls, and what
its clock shows then. -/
structure Consumer where
  store : ℕ
  name : String
  pause : ℕ → ℕ
  clock : ℕ → String

def Consumer.waited (c : Consumer) : ℕ → ℕ
  | 0 => c.pause 0
  | k + 1 => c.waited k + c.pause (k + 1)

namespace Deployment

variable (d : Deployment) (c : Consumer) (w : World)

/-- The world in which a call of `process_one` begins, where nobody else acts. -/
def before : ℕ → World
  | 0 => { w with now := w.now + c.pause 0 }
  | k + 1 =>
    let after := ((processOne d.coordinator c.store c.name (c.clock k)).run (exec d.providers)
      (before k)).2
    { after with now := after.now + c.pause (k + 1) }

def returned (k : ℕ) : Except CoordinatorError (Option PipelineRunState) :=
  ((processOne d.coordinator c.store c.name (c.clock k)).run (exec d.providers)
    (d.before c w k)).1

/-- A call returns the run. -/
def Reached (runId : String) : Prop :=
  ∃ k state, d.returned c w k = .ok (some state) ∧ state.runId = runId

/-- Nothing stands in the way of an orphaned run: every open entry names a run that can be
loaded, the coordinator raises on none of them, a run that is served again and again is terminal
at last, and time goes on. -/
structure Undisturbed : Prop where
  keyed : ∀ key state, w.states key = some state → state.runId = key
  loadable : w.Loadable
  returns : ∀ k, d.Returns (c.clock k) (d.before c w k)
  ends : ∀ runId, ∃ K, ∀ k state, K ≤ k → d.returned c w k = .ok (some state) →
    state.runId = runId → state.status.isTerminal = true
  passes : ∀ t, ∃ k, t ≤ c.waited k

variable {d c w}

variable {k : ℕ} {runId : String}

theorem turn_before (hreturns : d.Returns (c.clock k) (d.before c w k))
    (hsound : QueueSound (d.before c w k)) (hloadable : (d.before c w k).Loadable) :
    ∃ after, Turn c.name (d.before c w k) (d.returned c w k) after ∧
      d.before c w (k + 1) = { after with now := after.now + c.pause (k + 1) } :=
  ⟨_, ends_processOne hsound hloadable hreturns, rfl⟩

/-- **One more call.** -/
theorem kept_before (hsound : GroupSound w) (h : d.Undisturbed c w) (k : ℕ) :
    QueueSound (d.before c w k) ∧ (d.before c w k).Loadable ∧
      (d.before c w k).now = w.now + c.waited k ∧
      ∀ runId ∈ (d.before c w k).stream, runId ∈ w.stream := by
  induction k with
  | zero =>
    exact ⟨⟨⟨hsound.nodup, hsound.delivered, hsound.le⟩, h.keyed⟩, h.loadable, rfl, fun _ h => h⟩
  | succ k ih =>
    obtain ⟨hkept, hloadable, hnow, hruns⟩ := ih
    obtain ⟨after, hturn, hnext⟩ := turn_before (h.returns k) hkept hloadable
    rw [hnext]
    generalize d.returned c w k = r at hturn
    cases hturn with
    | idle _ _ =>
      refine ⟨⟨⟨hkept.nodup, hkept.delivered, hkept.le⟩, hkept.keyed⟩, hloadable, ?_, hruns⟩
      change (d.before c w k).now + _ = w.now + (c.waited k + _)
      rw [hnow, Nat.add_assoc]
    | served hserved =>
      refine ⟨⟨⟨hserved.sound.nodup, hserved.sound.delivered, hserved.sound.le⟩,
        hserved.sound.keyed⟩, hserved.loadable, ?_, fun runId hrun => ?_⟩
      · change after.now + _ = w.now + (c.waited k + _)
        rw [hserved.now, hnow, Nat.add_assoc]
      · have hrun : runId ∈ after.stream := hrun
        rw [hserved.stream] at hrun
        split at hrun
        · exact hruns runId hrun
        rcases mem_append.mp hrun with hrun | hrun
        · exact hruns runId hrun
        · rw [mem_singleton.mp hrun]
          exact hruns _ hserved.named

theorem waited_le (h : j ≤ k) : c.waited j ≤ c.waited k := by
  induction h with
  | refl => exact le_rfl
  | step _ ih => exact ih.trans (Nat.le_add_right _ _)

/-- From some call on, every run that is served is terminal. -/
theorem exists_bound (h : d.Undisturbed c w) (runIds : List String) :
    ∃ K, ∀ runId ∈ runIds, ∀ k state, K ≤ k → d.returned c w k = .ok (some state) →
      state.runId = runId → state.status.isTerminal = true := by
  induction runIds with
  | nil => exact ⟨0, fun _ h => by cases h⟩
  | cons runId runIds ih =>
    obtain ⟨K, hK⟩ := ih
    obtain ⟨K', hK'⟩ := h.ends runId
    refine ⟨max K K', fun other hother k state hk => ?_⟩
    rcases mem_cons.mp hother with rfl | hother
    · exact hK' k state (le_of_max_le_right hk)
    · exact hK other hother k state (le_of_max_le_left hk)

/-- An entry of the run is pending. -/
def Waiting (w : World) (runId : String) : Prop := ∃ i ∈ w.pending, w.stream[i]? = some runId

section

variable (hsound : GroupSound w) (h : d.Undisturbed c w)
include hsound h

/-- A run that waits is returned, or waits still. -/
theorem waiting_before (hwaiting : Waiting w runId) (k : ℕ) :
    d.Reached c w runId ∨ Waiting (d.before c w k) runId := by
  induction k with
  | zero => exact Or.inr hwaiting
  | succ k ih =>
    rcases ih with hreached | hwaiting
    · exact Or.inl hreached
    obtain ⟨hkept, hloadable, -⟩ := kept_before hsound h k
    obtain ⟨after, hturn, hnext⟩ := turn_before (h.returns k) hkept hloadable
    rw [hnext]
    cases hturn' : d.returned c w k with
    | error e =>
      rw [hturn'] at hturn
      cases hturn
    | ok state? =>
      rw [hturn'] at hturn
      cases hturn with
      | idle _ _ => exact Or.inr hwaiting
      | @served state after hserved =>
        by_cases hrun : state.runId = runId
        · exact Or.inl ⟨k, state, hturn', hrun⟩
        · exact Or.inr (hserved.kept runId (Ne.symm hrun) hwaiting)

/-- As long as an entry is pending, some later call serves a run, and the calls before it change
nothing but the time. -/
theorem exists_served (hwaiting : Waiting (d.before c w k) runId) :
    ∃ j state after, k ≤ j ∧ (d.before c w j).stream = (d.before c w k).stream ∧
      (d.before c w j).delivered = (d.before c w k).delivered ∧
      (d.before c w j).pel = (d.before c w k).pel ∧ d.returned c w j = .ok (some state) ∧
      Served (d.before c w j) state after ∧
      d.before c w (j + 1) = { after with now := after.now + c.pause (j + 1) } := by
  by_contra hnever
  -- Every later call finds the same queue and is idle.
  have hidle : ∀ n, (d.before c w (k + n)).stream = (d.before c w k).stream ∧
      (d.before c w (k + n)).delivered = (d.before c w k).delivered ∧
      (d.before c w (k + n)).pel = (d.before c w k).pel ∧
      ∀ e ∈ (d.before c w (k + n)).pel.take 100,
        ¬ TakenOver c.name (d.before c w (k + n)).now e := by
    intro n
    have hturns : ∀ n, (d.before c w (k + n)).stream = (d.before c w k).stream →
        (d.before c w (k + n)).delivered = (d.before c w k).delivered →
        (d.before c w (k + n)).pel = (d.before c w k).pel →
        (∀ e ∈ (d.before c w (k + n)).pel.take 100,
          ¬ TakenOver c.name (d.before c w (k + n)).now e) ∧
        (d.before c w (k + n + 1)).stream = (d.before c w (k + n)).stream ∧
        (d.before c w (k + n + 1)).delivered = (d.before c w (k + n)).delivered ∧
        (d.before c w (k + n + 1)).pel = (d.before c w (k + n)).pel := by
      intro n hstream hdelivered hpel
      obtain ⟨hkept, hloadable, -⟩ := kept_before hsound h (k + n)
      obtain ⟨after, hturn, hnext⟩ := turn_before (h.returns (k + n)) hkept hloadable
      cases hreturned : d.returned c w (k + n) with
      | error e =>
        rw [hreturned] at hturn
        cases hturn
      | ok state? =>
        rw [hreturned] at hturn
        cases hturn with
        | idle _ hleft =>
          rw [hnext]
          exact ⟨hleft, rfl, rfl, rfl⟩
        | @served state after hserved =>
          exact absurd ⟨k + n, state, after, Nat.le_add_right _ _, hstream, hdelivered, hpel,
            hreturned, hserved, hnext⟩ hnever
    induction n with
    | zero => exact ⟨rfl, rfl, rfl, (hturns 0 rfl rfl rfl).1⟩
    | succ n ih =>
      obtain ⟨-, hstream, hdelivered, hpel⟩ := hturns n ih.1 ih.2.1 ih.2.2.1
      have hstream := hstream.trans ih.1
      have hdelivered := hdelivered.trans ih.2.1
      have hpel := hpel.trans ih.2.2.1
      exact ⟨hstream, hdelivered, hpel, (hturns (n + 1) hstream hdelivered hpel).1⟩
  -- The oldest pending entry is idle for long enough at last.
  obtain ⟨i, hi, -⟩ := hwaiting
  obtain ⟨e, he, -⟩ := mem_pending.mp hi
  obtain ⟨oldest, rest, hpel⟩ := exists_cons_of_ne_nil (ne_nil_of_mem he)
  obtain ⟨j, hj⟩ := h.passes (oldest.deliveredAt + reclaimMinIdleMs)
  obtain ⟨-, -, hsame, hleft⟩ := hidle j
  refine hleft oldest ?_ (Or.inr ?_)
  · rw [hsame, hpel]
    exact mem_cons_self
  · have hnow := (kept_before hsound h (k + j)).2.2.1
    have hle : c.waited j ≤ c.waited (k + j) := waited_le (Nat.le_add_left j k)
    omega

/-- **Every orphaned run is reached.** -/
theorem reached_of_undisturbed (hwaiting : Waiting w runId) : d.Reached c w runId := by
  obtain ⟨K, hK⟩ := exists_bound h w.stream
  have hall : ∀ n k, K ≤ k → (d.before c w k).burden ≤ n → Waiting (d.before c w k) runId →
      d.Reached c w runId := by
    intro n
    induction n with
    | zero =>
      rintro k - hburden ⟨i, hi, -⟩
      have hpos := length_pos_of_mem hi
      unfold burden at hburden
      omega
    | succ n ih =>
      intro k hk hburden hwaiting
      obtain ⟨j, state, after, hkj, hstream, hdelivered, hpel, hreturned, hserved, hnext⟩ :=
        exists_served hsound h hwaiting
      by_cases hrun : state.runId = runId
      · exact ⟨j, state, hreturned, hrun⟩
      have hterminal : state.status.isTerminal = true :=
        hK state.runId ((kept_before hsound h j).2.2.2 _ hserved.named) j state
          (hk.trans hkj) hreturned rfl
      refine ih (j + 1) (hk.trans (Nat.le_succ_of_le hkj)) ?_ ?_
      · have hlt := hserved.lighter hterminal
        have hsame : (d.before c w j).burden = (d.before c w k).burden := by
          unfold burden pending
          rw [hstream, hdelivered, hpel]
        have hafter : (d.before c w (j + 1)).burden = after.burden := by
          rw [hnext]
          rfl
        omega
      · rw [hnext]
        refine hserved.kept runId (Ne.symm hrun) ?_
        obtain ⟨i, hi, hnamed⟩ := hwaiting
        refine ⟨i, ?_, ?_⟩
        · unfold pending at hi ⊢
          rw [hpel]
          exact hi
        · rw [hstream]
          exact hnamed
  rcases waiting_before hsound h hwaiting K with hreached | hwaiting
  · exact hreached
  · exact hall _ K le_rfl le_rfl hwaiting

end

/-- What `reclaim_orphaned_parents` returns to the consumer. -/
def reclaimed (d : Deployment) (c : Consumer) (w : World) :
    Except CoordinatorError (List PipelineRunState) :=
  ((reclaimOrphanedParents c.store c.name).run (exec d.providers) w).1

/-- Each running run that is taken over is returned exactly where each run that is taken over
can be loaded, or none is running; and an undisturbed consumer reaches every run that waits. -/
theorem reclaimed_iff (d : Deployment) (c : Consumer) {w : World} (hsound : GroupSound w) :
    ((∀ runId ∈ w.orphans c.name, ∀ state, w.states runId = some state →
        state.status = .running → ∃ states, d.reclaimed c w = .ok states ∧ state ∈ states) ↔
      (∀ runId ∈ w.orphans c.name, (w.states runId).isSome) ∨
        ∀ runId ∈ w.orphans c.name, ∀ state, w.states runId = some state →
          state.status ≠ .running) ∧
      (d.Undisturbed c w → ∀ runId, Waiting w runId → d.Reached c w runId) := by
  refine ⟨⟨fun hreturned => ?_, ?_⟩, fun h _ => reached_of_undisturbed hsound h⟩
  · by_contra hboth
    rw [not_or] at hboth
    obtain ⟨hmissing, hrunning⟩ := hboth
    simp only [not_forall] at hmissing hrunning
    obtain ⟨lost, hlost, hnone⟩ := hmissing
    obtain ⟨runId, horphan, state, hstate, hrun⟩ := hrunning
    obtain ⟨states, hok, -⟩ := hreturned runId horphan state hstate (not_not.mp hrun)
    have hends : Ends (exec d.providers) (reclaimOrphanedParents c.store c.name)
        (fun r _ => ∃ e, r = .error e) w :=
      ends_reclaim_missing hsound ⟨lost, hlost, Option.not_isSome_iff_eq_none.mp hnone⟩
    obtain ⟨e, herror⟩ : ∃ e, d.reclaimed c w = .error e := hends
    rw [herror] at hok
    cases hok
  · rintro (hloaded | hover) runId horphan state hstate hrunning
    · have hends : Ends (exec d.providers) (reclaimOrphanedParents c.store c.name) _ w :=
        ends_reclaim hsound hloaded
      obtain ⟨⟨states, hok, hstates⟩, -⟩ := hends
      refine ⟨states, hok, ?_⟩
      have hmem : some state ∈ (w.orphans c.name).map w.states :=
        mem_map.mpr ⟨runId, horphan, hstate⟩
      rw [← hstates] at hmem
      obtain ⟨other, hother, hsame⟩ := mem_map.mp hmem
      rw [← Option.some.inj hsame]
      exact hother
    · exact absurd hrunning (hover runId horphan state hstate)

/-! ## Two entries -/

def minutely : Consumer := ⟨0, "consumer", fun _ => 60000, fun _ => "now"⟩

theorem minutely_waited (k : ℕ) : minutely.waited k = 60000 * (k + 1) := by
  induction k with
  | zero => rfl
  | succ k ih =>
    change minutely.waited k + 60000 = _
    omega

/-- The entries of runs are pending with the consumer: two that were submitted, one that has
ended, and others without a state. -/
def claimedWorld (names : List String) : World where
  states := fun key =>
    if key = "done" then some { initialState "done" oneStage [] with status := .completed }
    else if key ∈ ["run", "other"] then some (initialState key oneStage []) else none
  stream := names
  delivered := names.length
  pel := (List.range names.length).map fun i => ⟨i, "consumer", 0⟩

theorem claimedWorld_sound (names : List String) : GroupSound (claimedWorld names) := by
  have hpending : (claimedWorld names).pending = range names.length := by
    unfold pending claimedWorld
    rw [map_map]
    exact map_id _
  refine ⟨?_, fun i hi => ?_, le_rfl⟩
  · rw [hpending]
    exact nodup_range
  · rw [hpending] at hi
    exact mem_range.mp hi

/-- A call that finds an entry without a state raises, and nothing is changed. -/
theorem processOne_lost (k t : ℕ) :
    ∃ e, (processOne obliging.coordinator minutely.store minutely.name (minutely.clock k)).run
      (exec obliging.providers) { claimedWorld ["lost", "run"] with now := t } =
        (.error e, { claimedWorld ["lost", "run"] with now := t }) :=
  ⟨_, rfl⟩

theorem before_lost (k : ℕ) : ∃ t, obliging.before minutely (claimedWorld ["lost", "run"]) k =
    { claimedWorld ["lost", "run"] with now := t } := by
  induction k with
  | zero => exact ⟨_, rfl⟩
  | succ k ih =>
    obtain ⟨t, ht⟩ := ih
    obtain ⟨e, he⟩ := processOne_lost k t
    refine ⟨t + 60000, ?_⟩
    unfold before
    rw [ht, he]
    rfl

/-- An entry whose run has no state keeps a running run from being returned, in this call and in
every later one. -/
theorem not_reached_lost : GroupSound (claimedWorld ["lost", "run"]) ∧
    "run" ∈ (claimedWorld ["lost", "run"]).orphans "consumer" ∧
    ((claimedWorld ["lost", "run"]).states "run").map PipelineRunState.status = some .running ∧
    ¬ obliging.Reached minutely (claimedWorld ["lost", "run"]) "run" := by
  refine ⟨claimedWorld_sound _, by decide, rfl, ?_⟩
  rintro ⟨k, state, hreturned, -⟩
  obtain ⟨t, ht⟩ := before_lost k
  obtain ⟨e, he⟩ := processOne_lost k t
  unfold returned at hreturned
  rw [ht, he] at hreturned
  cases hreturned

/-- A stored run has ended, or is one of the two that were submitted, as it was submitted. -/
def Settling (w : World) : Prop :=
  ∀ key state, w.states key = some state → state.runId = key ∧
    (state.status.isTerminal = true ∧ state.cancellationIntent = false ∨
      key ∈ ["run", "other"] ∧ state = initialState key oneStage [])

theorem settling_claimedWorld (names : List String) : Settling (claimedWorld names) := by
  intro key state hstate
  simp only [claimedWorld] at hstate
  split at hstate
  · rename_i hkey
    cases hstate
    exact ⟨hkey.symm, Or.inl ⟨rfl, rfl⟩⟩
  split at hstate
  · rename_i hkey
    cases hstate
    exact ⟨rfl, Or.inr ⟨hkey, rfl⟩⟩
  · cases hstate

/-- A run that is advanced ends, whatever was saved of it before. -/
theorem Settling.advanced {w w' : World} (h : Settling w) {key : String}
    {started recorded ended : PipelineRunState}
    (hstates : w'.states = Function.update (Function.update (Function.update w.states key
      (some started)) key (some recorded)) key (some ended))
    (hrun : ended.runId = key) (hended : ended.status.isTerminal = true)
    (hwanted : ended.cancellationIntent = false) : Settling w' := by
  intro other state hstate
  rw [hstates, Function.update_idem, Function.update_idem] at hstate
  by_cases hkey : other = key
  · subst hkey
    rw [Function.update_self] at hstate
    cases hstate
    exact ⟨hrun, Or.inl ⟨hended, hwanted⟩⟩
  · rw [Function.update_of_ne hkey] at hstate
    exact h other state hstate

/-- The coordinator returns on every stored run. -/
theorem Settling.returns {w : World} {now : String} (h : Settling w) :
    obliging.Returns now w := by
  intro w' state hsame _ hstored
  change Ends (exec obliging.providers) _ (fun r _ => ∃ next, r = .ok next) w'
  obtain ⟨-, ⟨hended, hwanted⟩ | ⟨hkey, hinitial⟩⟩ := h state.runId state (hsame ▸ hstored)
  · unfold advance
    refine ends_loadState ?_
    rw [hstored]
    simp only [Option.getD_some, hwanted, hended, Bool.false_and, Bool.false_eq_true, if_false,
      if_true]
    exact ⟨state, rfl⟩
  · generalize state.runId = key at hkey hinitial hstored
    subst hinitial
    unfold advance
    refine ends_loadState ?_
    have hloaded : w'.states (initialState key oneStage []).runId =
        some (initialState key oneStage []) := hstored
    rw [hloaded]
    simp only [mem_cons, not_mem_nil, or_false] at hkey
    rcases hkey with rfl | rfl <;> exact ⟨_, rfl⟩

/-- A run that has ended, between two that a process has claimed before it died. -/
def orphanedWorld : World := claimedWorld ["run", "done", "other"]

/-- What is left after three calls. -/
def settledWorld (t : ℕ) : World := { obliging.before minutely orphanedWorld 3 with now := t }

theorem processOne_settled (k t : ℕ) :
    (processOne obliging.coordinator minutely.store minutely.name (minutely.clock k)).run
      (exec obliging.providers) (settledWorld t) = (.ok none, settledWorld t) := rfl

theorem before_settled (k : ℕ) :
    ∃ t, obliging.before minutely orphanedWorld (k + 3) = settledWorld t := by
  induction k with
  | zero => exact ⟨_, rfl⟩
  | succ k ih =>
    obtain ⟨t, ht⟩ := ih
    refine ⟨t + 60000, ?_⟩
    unfold before
    rw [ht, processOne_settled]
    rfl

/-- The first call acknowledges the run that has ended, and the other two end one run each. -/
theorem settling_before : (k : ℕ) → Settling (obliging.before minutely orphanedWorld k)
  | 0 => settling_claimedWorld ["run", "done", "other"]
  | 1 => settling_claimedWorld ["run", "done", "other"]
  | 2 => @Settling.advanced _ _ (settling_before 1) "other" _ _ _ rfl rfl rfl rfl
  | 3 => @Settling.advanced _ _ (settling_before 2) "run" _ _ _ rfl rfl rfl rfl
  | k + 4 => by
      obtain ⟨t, ht⟩ := before_settled (k + 1)
      rw [ht]
      exact settling_before 3

/-- Of three runs that were claimed by a process that died, those that are running are returned
and advanced. -/
theorem reached_orphans : GroupSound orphanedWorld ∧ obliging.Undisturbed minutely orphanedWorld ∧
    (∀ runId ∈ orphanedWorld.orphans "consumer", ∀ state,
      orphanedWorld.states runId = some state → state.status = .running →
        ∃ states, obliging.reclaimed minutely orphanedWorld = .ok states ∧ state ∈ states) ∧
    ∀ runId ∈ ["run", "done", "other"], obliging.Reached minutely orphanedWorld runId := by
  have hsound : GroupSound orphanedWorld := claimedWorld_sound _
  have hundisturbed : obliging.Undisturbed minutely orphanedWorld := by
    refine ⟨fun key state hstate => (settling_before 0 key state hstate).1,
      fun entryId runId _ hnamed => ?_, fun k => (settling_before k).returns,
      fun runId => ⟨3, fun k state hk hreturned _ => ?_⟩, fun t => ⟨t, ?_⟩⟩
    · rcases entryId with _ | _ | _ | entryId
      all_goals
        cases hnamed
        try exact ⟨by decide, rfl⟩
    · obtain ⟨k, rfl⟩ := Nat.exists_eq_add_of_le' hk
      obtain ⟨t, ht⟩ := before_settled k
      unfold returned at hreturned
      rw [ht, processOne_settled] at hreturned
      cases hreturned
    · rw [minutely_waited]
      omega
  obtain ⟨hiff, hreached⟩ := reclaimed_iff obliging minutely hsound
  refine ⟨hsound, hundisturbed, hiff.mpr (Or.inl (by decide)), fun runId hrun => ?_⟩
  refine hreached hundisturbed runId ?_
  simp only [mem_cons, not_mem_nil, or_false] at hrun
  rcases hrun with rfl | rfl | rfl
  · exact ⟨0, by decide, rfl⟩
  · exact ⟨1, by decide, rfl⟩
  · exact ⟨2, by decide, rfl⟩

end Deployment

end GpuManager.Coordinator
