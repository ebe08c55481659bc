import GpuManager.Lifecycle.StoreOracle

/-!
# Recovery bookkeeping against transitions

The idle loop fetches the record of a bundle, reduces its recovery state with what it has
observed, and records the result.  Meanwhile other clients begin, renew and finish transitions
of the bundle.  `record_recovery` is refused while a transition is under way, and the loop
takes a refusal to mean that the state has changed during its probe.

A whole transition fits between the fetch and the record.  Then nothing is under way, the
record is accepted, and the recovery state derived from before the transition replaces what the
transition left: the phase that its finish published, and a transition id that was raised
meanwhile.

The theorem of this module says that this is the only way.  The bookkeeping is sound along a
run, whatever is observed, if and only if no record is accepted after a transition of the
bundle has begun or finished since the fetch.
-/

namespace GpuManager.Lifecycle

open Machine PythonText InMemory Option Function

/-- `get` of the store of a kind. -/
def StoreKind.get : (kind : StoreKind) → kind.store.State → String → BundleLifecycleRecord
  | .inMemory, s, bundleName => InMemory.get s bundleName 0
  | .redis, s, bundleName => Redis.get s bundleName

/-- The calls of the other clients. -/
def TransitionOp.isTransition : TransitionOp → Bool
  | .recordRecovery _ _ _ _ _ | .expire _ _ => false
  | _ => true

/-- A begin, a renewal or a finish, of one bundle or of a group. -/
abbrev TransitionCall := { op : TransitionOp // op.isTransition = true }

/-- The phase that a call publishes for a bundle when it is accepted. -/
def TransitionOp.publishes (bundleName : String) : TransitionOp → Option RecoveryPhase
  | .begin name _ _ _ _ _ => if name = bundleName then some .recovering else none
  | .beginGroup transitions _ _ _ _ =>
    if bundleName ∈ (normalizeGroupTransitions transitions).map Prod.fst then some .recovering
    else none
  | .finish lease success _ _ _ =>
    if lease.bundleName = bundleName then some (if success then .ready else .crashed) else none
  | .finishGroup leases success _ _ _ =>
    if bundleName ∈ leases.map BundleTransitionLease.bundleName then
      some (if success then .ready else .crashed)
    else none
  | _ => none

/-- What the client that keeps the books and the other clients do. -/
inductive RecoveryLabel where
  | fetch
  | record (o : RecoveryObservation) (desiredState : DesiredState) (now : ℚ) (reason : String)
  | transition (call : TransitionCall)

/-- A store, the recovery state that the client has fetched and not yet used, and the phase
that a transition of the bundle has published since. -/
structure RecoveryRun (kind : StoreKind) where
  store : kind.store.State
  fetched : Option RecoveryState := none
  published : Option RecoveryPhase := none

namespace RecoveryRun

variable {kind : StoreKind} (bundleName : String)

def stored (r : RecoveryRun kind) : RecoveryState := (kind.get r.store bundleName).recovery

/-- `get`; `reduce_recovery` and `record_recovery`; or a call of another client. -/
def step : RecoveryLabel → RecoveryRun kind → Unit × RecoveryRun kind
  | .fetch, r => ((), { r with fetched := some (r.stored bundleName), published := none })
  | .record o desiredState now reason, r =>
    match r.fetched with
    | none => ((), r)
    | some fetched =>
      ((), { store := (kind.store.recordRecovery bundleName desiredState
        (reduceRecovery fetched o).next now reason r.store).2 })
  | .transition call, r =>
    let answer := kind.store.answer call.1 r.store
    ((), { r with
      store := answer.2
      published :=
        if answer.1 then (call.1.publishes bundleName).or r.published else r.published })

/-- No record of any bundle. -/
def start (kind : StoreKind) : RecoveryRun kind := { store := kind.store.empty }

/-- The transition id does not decrease, and a finish that has come after the fetch keeps the
phase that it published. -/
structure Kept (before after : RecoveryRun kind) : Prop where
  transitionId : (before.stored bundleName).transitionId ≤ (after.stored bundleName).transitionId
  phase : ∀ p, before.published = some p → p ≠ .recovering → (after.stored bundleName).phase = p

/-- The step keeps what it should; a record keeps it whatever the client observes. -/
def Sound (v : Visit RecoveryLabel (RecoveryRun kind)) : Prop :=
  match v.op with
  | .record _ desiredState now reason =>
    ∀ o, Kept bundleName v.before
      (step bundleName (.record o desiredState now reason) v.before).2
  | _ => (v.before.stored bundleName).transitionId ≤
      ((step bundleName v.op v.before).2.stored bundleName).transitionId

/-- A record that finds no transition under way comes before any transition of the bundle has
begun or finished since the fetch. -/
def Unraced (v : Visit RecoveryLabel (RecoveryRun kind)) : Prop :=
  match v.op with
  | .record _ _ now _ => v.before.fetched.isSome →
      ¬ InProgress (kind.get v.before.store bundleName) now → v.before.published = none
  | _ => True

end RecoveryRun

/-! ## What the calls do to the recovery state -/

/-- The recovery state of a bundle before and after an accepted or refused call. -/
structure Moves (published : Option RecoveryPhase) (before after : RecoveryState) : Prop where
  untouched : published = none → after = before
  phase : ∀ p, published = some p → after.phase = p
  begun : published = some .recovering → after.transitionId = before.transitionId + 1
  finished : ∀ p, published = some p → p ≠ .recovering → after.transitionId = before.transitionId

theorem Moves.refl (before : RecoveryState) : Moves none before before :=
  ⟨fun _ => rfl, nofun, nofun, nofun⟩

def BundleLifecycleStore.published (store : BundleLifecycleStore) (bundleName : String)
    (op : TransitionOp) (s : store.State) : Option RecoveryPhase :=
  if (store.answer op s).1 then op.publishes bundleName else none

section Moves

variable (store : BundleLifecycleStore) {bundleName : String} {op : TransitionOp}
  {s written : store.State} {p : Prop} [Decidable p] (recovery : store.State → RecoveryState)

/-- A call is accepted under a condition, and then writes. -/
theorem moves_of_answer
    (heq : store.answer op s = if p then (true, written) else (false, s))
    (h : p → Moves (op.publishes bundleName) (recovery s) (recovery written)) :
    Moves (store.published bundleName op s) (recovery s) (recovery (store.answer op s).2) := by
  unfold BundleLifecycleStore.published
  rw [heq]
  by_cases hp : p
  · rw [if_pos hp]
    exact h hp
  · rw [if_neg hp]
    exact .refl _

variable {after before f : RecoveryState}

/-- The recovery state with which a finish is published. -/
theorem moves_finished (success : Bool)
    (hphase : after.phase = if success then .ready else .crashed)
    (h : after.transitionId = before.transitionId) :
    Moves (some (if success then .ready else .crashed)) before after :=
  ⟨nofun, fun _ hp => hphase.trans (some.inj hp),
    fun hp => (by cases success <;> cases hp), fun _ _ _ => h⟩

theorem moves_begun (hphase : after.phase = .recovering)
    (h : after.transitionId = before.transitionId + 1) : Moves (some .recovering) before after :=
  ⟨nofun, fun _ hp => hphase.trans (some.inj hp), fun _ => h,
    fun _ hp hne => absurd (some.inj hp).symm hne⟩

end Moves

namespace InMemory

variable {records : Records} {bundleName : String} {record : BundleLifecycleRecord}

def recovery (records : Records) (bundleName : String) : RecoveryState :=
  (get records bundleName 0).recovery

theorem current_recovery (records : Records) (bundleName : String) (now : ℚ) :
    (current records bundleName now).recovery = recovery records bundleName :=
  congrArg BundleView.recovery (current_view records bundleName now 0).1

variable {written : Records}

theorem recovery_of_eq
    (h : written bundleName = some record) : recovery written bundleName = record.recovery := by
  simp [recovery, get, current, h]

theorem recovery_congr (h : written bundleName = records bundleName) :
    recovery written bundleName = recovery records bundleName := by
  simp [recovery, get, current, h]

/-- A write over one bundle. -/
theorem moves_update {name : String} (p : Option RecoveryPhase)
    (h : name = bundleName → Moves p (recovery records bundleName) record.recovery) :
    Moves (if name = bundleName then p else none) (recovery records bundleName)
      (recovery (update records name (some record)) bundleName) := by
  by_cases hname : name = bundleName
  · rw [if_pos hname]
    subst hname
    rw [recovery_of_eq (update_self ..)]
    exact h rfl
  · rw [if_neg hname, recovery_congr (update_of_ne (Ne.symm hname) ..)]
    exact .refl _

theorem moves_forHolders (h : Named records) {leases : List BundleTransitionLease} {now : ℚ}
    (write : BundleLifecycleRecord → BundleLifecycleRecord) (p : Option RecoveryPhase)
    (hwrite : ∀ record, Moves p record.recovery (write record).recovery)
    (hheld : ∀ lease ∈ leases, Held lease now records) :
    Moves (if bundleName ∈ leases.map BundleTransitionLease.bundleName then p else none)
      (recovery records bundleName)
      (recovery ((leases.filterMap fun lease => records lease.bundleName).foldl
        (fun (written : Records) record =>
          update written record.bundleName (some (write record))) records)
        bundleName) := by
  have hfold := foldl_held write h hheld bundleName
  by_cases hname : bundleName ∈ leases.map BundleTransitionLease.bundleName
  · rw [if_pos hname] at hfold ⊢
    obtain ⟨lease, hlease, rfl⟩ := List.mem_map.mp hname
    obtain ⟨record, hrecord, -⟩ := hheld lease hlease
    have hrecord : records lease.bundleName = some record := hrecord
    rw [hrecord] at hfold
    rw [recovery_of_eq hfold, recovery_of_eq hrecord]
    exact hwrite record
  · rw [if_neg hname] at hfold ⊢
    rw [recovery_congr hfold]
    exact .refl _

/-- **In memory.**  What a call does to the recovery state of a bundle. -/
theorem moves (h : Named records) {op : TransitionOp} (hop : op.isTransition = true) :
    Moves (inMemoryStore.published bundleName op records) (recovery records bundleName)
      (recovery (inMemoryStore.answer op records).2 bundleName) := by
  cases op with
  | recordRecovery | expire => cases hop
  | begin name desiredState owner now ttl reason =>
    refine moves_of_answer inMemoryStore (recovery · bundleName) (answer_begin ..) fun _ => ?_
    refine moves_update _ fun hname => moves_begun rfl ?_
    rw [← hname, ← current_recovery records name now]
    rfl
  | beginGroup transitions owner now ttl reason =>
    refine moves_of_answer inMemoryStore (recovery · bundleName) (answer_beginGroup ..) fun _ => ?_
    obtain ⟨hwritten, hother⟩ := foldl_update
      (fun t => begun (current records t.1 now) t.2 owner now ttl reason)
      (normalizeGroupTransitions transitions) (normalizeGroupTransitions_nodup transitions)
      records
    simp only [TransitionOp.publishes]
    split
    · rename_i hmem
      obtain ⟨t, ht, rfl⟩ := List.mem_map.mp hmem
      rw [recovery_of_eq (hwritten t ht)]
      refine moves_begun rfl ?_
      rw [← current_recovery records t.1 now]
      rfl
    · rename_i hmem
      rw [recovery_congr (hother bundleName fun t ht heq => hmem (heq ▸ List.mem_map_of_mem ht))]
      exact .refl _
  | renew lease now ttl =>
    refine moves_of_answer inMemoryStore (recovery · bundleName) (forHolder_eq ..) fun _ => ?_
    have hkept : lease.bundleName = bundleName → Moves none (recovery records bundleName)
        (renewed now ttl (current records lease.bundleName now)).recovery := by
      rintro rfl
      rw [← current_recovery records lease.bundleName now]
      exact .refl _
    have hmoves := moves_update none hkept
    rwa [ite_self] at hmoves
  | renewGroup leases now ttl =>
    cases leases with
    | nil => exact .refl _
    | cons first rest =>
      refine moves_of_answer inMemoryStore (recovery · bundleName) (forHolders_eq ..)
        fun hheld => ?_
      have hmoves : Moves (if bundleName ∈ _ then none else none) _ _ :=
        moves_forHolders h (renewed now ttl) none (fun record => .refl record.recovery) hheld
      rwa [ite_self] at hmoves
  | finish lease success now reason error =>
    refine moves_of_answer inMemoryStore (recovery · bundleName) (forHolder_eq ..) fun _ => ?_
    refine moves_update _ fun hname => moves_finished success rfl ?_
    rw [← hname, ← current_recovery records lease.bundleName now]
    rfl
  | finishGroup leases success now reason error =>
    refine moves_of_answer inMemoryStore (recovery · bundleName) (forHolders_eq ..) fun hheld => ?_
    exact moves_forHolders h _ _ (fun record => moves_finished success rfl rfl) hheld

end InMemory

namespace Redis

variable {hashes : Hashes} {bundleName : String} {h : BundleHash} {written : Hashes}

def recovery (hashes : Hashes) (bundleName : String) : RecoveryState :=
  (get hashes bundleName).recovery

theorem recovery_of_eq (hw : written bundleName = some h) :
    recovery written bundleName = (fromFields bundleName h).recovery := by
  simp [recovery, get, fields, hw]

theorem recovery_congr (h : written bundleName = hashes bundleName) :
    recovery written bundleName = recovery hashes bundleName := by
  simp [recovery, get, fields, h]

theorem moves_update {name : String} (p : Option RecoveryPhase) (hwrite : name = bundleName →
      Moves p (recovery hashes bundleName) (fromFields bundleName h).recovery) :
    Moves (if name = bundleName then p else none) (recovery hashes bundleName)
      (recovery (update hashes name (some h)) bundleName) := by
  by_cases hname : name = bundleName
  · rw [if_pos hname]
    subst hname
    rw [recovery_of_eq (update_self ..)]
    exact hwrite rfl
  · rw [if_neg hname, recovery_congr (update_of_ne (Ne.symm hname) ..)]
    exact .refl _

theorem moves_forHolders (leases : List BundleTransitionLease)
    (write : BundleHash → BundleHash) (p : Option RecoveryPhase)
    (hidem : ∀ h, write (write h) = write h)
    (hwrite : Moves p (recovery hashes bundleName)
      (fromFields bundleName (write (fields hashes bundleName))).recovery) :
    Moves (if bundleName ∈ leases.map BundleTransitionLease.bundleName then p else none)
      (recovery hashes bundleName)
      (recovery (leases.foldl (fun (written : Hashes) lease =>
        update written lease.bundleName
          (some (write (fields written lease.bundleName)))) hashes) bundleName) := by
  have hfold := foldl_write write hidem leases hashes bundleName
  by_cases hname : bundleName ∈ leases.map BundleTransitionLease.bundleName
  · rw [if_pos hname] at hfold ⊢
    rw [recovery_of_eq hfold]
    exact hwrite
  · rw [if_neg hname] at hfold ⊢
    rw [recovery_congr hfold]
    exact .refl _

/-- **In Redis.**  What a call does to the recovery state of a bundle. -/
theorem moves {op : TransitionOp} (hop : op.isTransition = true) :
    Moves (redisStore.published bundleName op hashes) (recovery hashes bundleName)
      (recovery (redisStore.answer op hashes).2 bundleName) := by
  cases op with
  | recordRecovery | expire => cases hop
  | begin name desiredState owner now ttl reason =>
    refine moves_of_answer redisStore (recovery · bundleName) (answer_begin ..) fun _ => ?_
    refine moves_update _ fun hname => moves_begun rfl ?_
    subst hname
    rfl
  | beginGroup transitions owner now ttl reason =>
    refine moves_of_answer redisStore (recovery · bundleName) (answer_beginGroup ..) fun _ => ?_
    obtain ⟨hwritten, hother⟩ := beginEach_written owner now ttl reason
      (normalizeGroupTransitions transitions) (normalizeGroupTransitions_nodup transitions)
      hashes
    simp only [TransitionOp.publishes]
    split
    · rename_i hmem
      obtain ⟨t, ht, rfl⟩ := List.mem_map.mp hmem
      rw [recovery_of_eq (hwritten t ht)]
      exact moves_begun rfl rfl
    · rename_i hmem
      rw [recovery_congr (hother bundleName fun t ht heq => hmem (heq ▸ List.mem_map_of_mem ht))]
      exact .refl _
  | renew lease now ttl =>
    refine moves_of_answer redisStore (recovery · bundleName) rfl fun _ => ?_
    have hkept : lease.bundleName = bundleName → Moves none (recovery hashes bundleName)
        (fromFields bundleName (renewed now ttl (fields hashes lease.bundleName))).recovery := by
      rintro rfl
      exact .refl _
    have hmoves := moves_update none hkept
    rwa [ite_self] at hmoves
  | renewGroup leases now ttl =>
    cases leases with
    | nil => exact .refl _
    | cons first rest =>
      refine moves_of_answer redisStore (recovery · bundleName) rfl fun _ => ?_
      have hmoves : Moves (if bundleName ∈ _ then none else none) _ _ :=
        moves_forHolders (first :: rest) (renewed now ttl) none (renewed_idem ttl)
          (.refl (recovery hashes bundleName))
      rwa [ite_self] at hmoves
  | finish lease success now reason error =>
    refine moves_of_answer redisStore (recovery · bundleName) rfl fun _ => ?_
    refine moves_update _ fun hname => moves_finished success (by cases success <;> rfl) ?_
    subst hname
    cases success <;> rfl
  | finishGroup leases success now reason error =>
    cases leases with
    | nil => exact .refl _
    | cons first rest =>
      refine moves_of_answer redisStore (recovery · bundleName) rfl fun _ => ?_
      exact moves_forHolders (first :: rest) (finished success now reason error) _
        (finished_idem success reason error)
        (moves_finished success (by cases success <;> rfl) (by cases success <;> rfl))

end Redis

/-! ## The bookkeeping -/

theorem transitionId_le_toPhase (state : RecoveryState) (phase : RecoveryPhase) :
    state.transitionId ≤ (state.toPhase phase).transitionId := by
  simp only [RecoveryState.toPhase]
  split <;> omega

/-- The reducer does not lower the transition id. -/
theorem transitionId_le_reduceRecovery (state : RecoveryState) (o : RecoveryObservation) :
    state.transitionId ≤ (reduceRecovery state o).next.transitionId := by
  have hprobe : ∀ state : RecoveryState,
      state.transitionId ≤ (reduceProbe state o).next.transitionId := by
    intro state
    unfold reduceProbe
    split
    · split <;> exact le_rfl
    · exact transitionId_le_toPhase state .ready
    split
    · exact transitionId_le_toPhase state .crashed
    unfold reduceHealthLost
    split
    · exact transitionId_le_toPhase state .faulted
    · simp [decision]
  unfold reduceRecovery
  split
  · exact transitionId_le_toPhase state .disabled
  split
  · exact transitionId_le_toPhase state .maintenance
  split
  · exact transitionId_le_toPhase state .blocked
  split
  · exact transitionId_le_toPhase state .blocked
  split
  · split
    · exact le_rfl
    · refine le_trans ?_ (hprobe state.rejoined)
      simp [RecoveryState.rejoined]
  · exact hprobe state

/-- An observation without a probe result leaves the recovery state alone. -/
theorem reduceRecovery_unobserved (state : RecoveryState) :
    (reduceRecovery state {}).next = state := by
  have hblocking : ¬ RecoveryObservation.Blocking {} := by decide
  by_cases hphase : state.phase = .faulted
  · rw [reduceRecovery_of_faulted hblocking hphase rfl]
    rfl
  rw [reduceRecovery_of_closed hblocking hphase]
  simp only [reduceProbe]
  split <;> rfl

theorem exists_other_phase (state : RecoveryState) (p : RecoveryPhase) :
    ∃ o, (reduceRecovery state o).next.phase ≠ p := by
  by_cases hp : p = .disabled
  · refine ⟨{ maintenanceMode := true }, ?_⟩
    rw [hp]
    simp [reduceRecovery, decision, RecoveryState.toPhase]
  · refine ⟨{ enabled := false }, ?_⟩
    simpa [reduceRecovery, decision, RecoveryState.toPhase] using Ne.symm hp

/-- The records of the in-memory store stand under their own names. -/
def StoreKind.Tidy : (kind : StoreKind) → kind.store.State → Prop
  | .inMemory, s => Named s
  | .redis, _ => True

section Kinds

variable {kind : StoreKind} {s : kind.store.State} {bundleName : String}

theorem StoreKind.moves (hs : kind.Tidy s) (call : TransitionCall) :
    Moves (kind.store.published bundleName call.1 s) (kind.get s bundleName).recovery
        (kind.get (kind.store.answer call.1 s).2 bundleName).recovery ∧
      kind.Tidy (kind.store.answer call.1 s).2 := by
  cases kind with
  | inMemory =>
    refine ⟨InMemory.moves hs call.2, ?_⟩
    have hnamed := (InMemory.raises hs call.1).2
    obtain ⟨op, hop⟩ := call
    cases op <;> exact hnamed
  | redis => exact ⟨Redis.moves call.2, trivial⟩

/-- **`record_recovery`** replaces the recovery state, unless a transition is under way. -/
theorem StoreKind.recordRecovery_eq (hs : kind.Tidy s) (desiredState : DesiredState)
    (recovery : RecoveryState) (now : ℚ) (reason : String) :
    (InProgress (kind.get s bundleName) now →
        (kind.store.recordRecovery bundleName desiredState recovery now reason s).2 = s) ∧
      (¬ InProgress (kind.get s bundleName) now →
        (kind.get (kind.store.recordRecovery bundleName desiredState recovery now reason s).2
          bundleName).recovery = recovery) ∧
      kind.Tidy (kind.store.recordRecovery bundleName desiredState recovery now reason s).2 := by
  cases kind with
  | inMemory =>
    have hprogress : InMemory.InProgress (InMemory.get s bundleName 0) now ↔
        InMemory.InProgress (InMemory.current s bundleName now) now := by
      obtain ⟨hview, hexpires⟩ := InMemory.current_view s bundleName 0 now
      have howner := congrArg BundleView.transitionOwner hview
      simp only [BundleLifecycleRecord.view] at howner
      simp only [InMemory.InProgress, InMemory.get, howner, hexpires]
    refine ⟨fun h => ?_, fun h => ?_, (recordRecovery_keeps hs ..).1⟩
    · exact congrArg Prod.snd (if_pos (hprogress.mp h))
    · have heq : recordRecovery bundleName desiredState recovery now reason s = _ :=
        if_neg (mt hprogress.mpr h)
      show InMemory.recovery (InMemory.recordRecovery bundleName desiredState recovery now reason
        s).2 bundleName = recovery
      rw [heq]
      exact recovery_of_eq (update_self ..)
  | redis =>
    have hprogress : InProgress (Redis.get s bundleName) now ↔
        Redis.InProgress (Redis.fields s bundleName) now := by
      unfold InProgress Redis.InProgress
      refine and_congr_left fun _ => ?_
      rw [← nonempty_isSome]
      simp only [Redis.get, Redis.fromFields, nonempty, filter_filter, Bool.and_self]
    refine ⟨fun h => ?_, fun h => ?_, trivial⟩
    · exact congrArg Prod.snd (if_pos (hprogress.mp h))
    · have heq : Redis.recordRecovery bundleName desiredState recovery now reason s = _ :=
        if_neg (mt hprogress.mpr h)
      show Redis.recovery (Redis.recordRecovery bundleName desiredState recovery now reason
        s).2 bundleName = recovery
      rw [heq]
      exact Redis.recovery_of_eq (update_self ..)

end Kinds

namespace RecoveryRun

variable {kind : StoreKind} {r : RecoveryRun kind} (bundleName : String)

/-- What is fetched is what is stored, until a transition of the bundle begins or finishes; a
transition that begins raises the id. -/
structure Tracked (r : RecoveryRun kind) : Prop where
  tidy : kind.Tidy r.store
  phase : ∀ p, r.published = some p → (r.stored bundleName).phase = p
  same : ∀ f, r.fetched = some f → r.published = none → r.stored bundleName = f
  le : ∀ f, r.fetched = some f → f.transitionId ≤ (r.stored bundleName).transitionId
  lt : ∀ f, r.fetched = some f → r.published = some .recovering →
    f.transitionId < (r.stored bundleName).transitionId

variable {bundleName}

/-- As long as nothing is published, what is fetched has to be what is stored. -/
theorem Tracked.unpublished (htidy : kind.Tidy r.store) (hpublished : r.published = none)
    (hfetched : ∀ f, r.fetched = some f → r.stored bundleName = f) : Tracked bundleName r where
  tidy := htidy
  phase p hp := absurd (hpublished.symm.trans hp) (some_ne_none p).symm
  same f hf _ := hfetched f hf
  le f hf := (congrArg RecoveryState.transitionId (hfetched f hf)).ge
  lt _ _ hp := absurd (hpublished.symm.trans hp) (some_ne_none _).symm

/-- A transition lets the id of the stored recovery state only grow. -/
theorem Tracked.transition (h : Tracked bundleName r) (call : TransitionCall) :
    (r.stored bundleName).transitionId ≤
        ((step bundleName (.transition call) r).2.stored bundleName).transitionId ∧
      Tracked bundleName (step bundleName (.transition call) r).2 := by
  obtain ⟨hmoves, htidy⟩ := StoreKind.moves h.tidy call
  have hpublished : (step bundleName (.transition call) r).2.published =
      (kind.store.published bundleName call.1 r.store).or r.published := by
    unfold step BundleLifecycleStore.published
    simp only
    split <;> rfl
  change Moves _ (r.stored bundleName)
    ((step bundleName (.transition call) r).2.stored bundleName) at hmoves
  cases hp : kind.store.published bundleName call.1 r.store with
  | none =>
    rw [hp, none_or] at hpublished
    have hstored := hmoves.untouched hp
    refine ⟨by rw [hstored], htidy, ?_, ?_, ?_, ?_⟩
    · rw [hpublished, hstored]
      exact h.phase
    · rw [hpublished, hstored]
      exact h.same
    · rw [hstored]
      exact h.le
    · rw [hpublished, hstored]
      exact h.lt
  | some p =>
    rw [hp, some_or] at hpublished
    rw [hp] at hmoves
    -- A begin raises the id by one, a finish keeps it.
    have hid : (r.stored bundleName).transitionId ≤
          ((step bundleName (.transition call) r).2.stored bundleName).transitionId ∧
        (p = .recovering → (r.stored bundleName).transitionId <
          ((step bundleName (.transition call) r).2.stored bundleName).transitionId) := by
      by_cases hrec : p = .recovering
      · have := hmoves.begun (by rw [hrec])
        exact ⟨by omega, fun _ => by omega⟩
      · exact ⟨(hmoves.finished p rfl hrec).ge, fun h => absurd h hrec⟩
    refine ⟨hid.1, htidy, ?_, ?_, ?_, ?_⟩
    · rw [hpublished]
      exact hmoves.phase
    · rw [hpublished]
      intro f _ hnone
      cases hnone
    · exact fun f hf => (h.le f hf).trans hid.1
    · intro f hf hrec
      rw [hpublished] at hrec
      exact (h.le f hf).trans_lt (hid.2 (some.inj hrec))

theorem step_record_none (hf : r.fetched = none) (o : RecoveryObservation)
    (desiredState : DesiredState) (now : ℚ) (reason : String) :
    step bundleName (.record o desiredState now reason) r = ((), r) := by
  simp only [step, hf]

theorem step_record_some (hf : r.fetched = some f) (o : RecoveryObservation)
    (desiredState : DesiredState) (now : ℚ) (reason : String) :
    step bundleName (.record o desiredState now reason) r =
      ((), { store := (kind.store.recordRecovery bundleName desiredState
        (reduceRecovery f o).next now reason r.store).2 }) := by
  simp only [step, hf]

theorem Tracked.record (h : Tracked bundleName r) (o : RecoveryObservation)
    (desiredState : DesiredState) (now : ℚ) (reason : String) :
    Tracked bundleName (step bundleName (.record o desiredState now reason) r).2 := by
  cases hf : r.fetched with
  | none =>
    rw [step_record_none hf]
    exact h
  | some f =>
    rw [step_record_some hf]
    exact .unpublished (StoreKind.recordRecovery_eq h.tidy ..).2.2 rfl
      fun g hg => absurd hg (some_ne_none g).symm

/-- A record after a fetch: it writes what the reducer makes of the fetched state, unless a
transition is under way. -/
theorem stored_record (h : Tracked bundleName r) (hf : r.fetched = some f)
    (o : RecoveryObservation) (desiredState : DesiredState) (now : ℚ) (reason : String) :
    (InProgress (kind.get r.store bundleName) now →
        (step bundleName (.record o desiredState now reason) r).2.stored bundleName =
          r.stored bundleName) ∧
      (¬ InProgress (kind.get r.store bundleName) now →
        (step bundleName (.record o desiredState now reason) r).2.stored bundleName =
          (reduceRecovery f o).next) := by
  obtain ⟨hbusy, hidle, -⟩ := StoreKind.recordRecovery_eq h.tidy desiredState
    (reduceRecovery f o).next now reason
  rw [step_record_some hf]
  refine ⟨fun hprogress => ?_, hidle⟩
  show (kind.get _ bundleName).recovery = _
  rw [hbusy hprogress]
  rfl

/-- **One step.**  It is sound exactly when it is not raced. -/
theorem Tracked.sound_iff {v : Visit RecoveryLabel (RecoveryRun kind)}
    (h : Tracked bundleName v.before) : Sound bundleName v ↔ Unraced bundleName v := by
  obtain ⟨op, r⟩ := v
  cases op with
  | fetch => exact iff_of_true le_rfl trivial
  | transition call => exact iff_of_true (h.transition call).1 trivial
  | record o desiredState now reason =>
    show (∀ o, Kept bundleName r (step bundleName (.record o desiredState now reason) r).2) ↔
      (r.fetched.isSome → ¬ InProgress (kind.get r.store bundleName) now →
        r.published = none)
    cases hf : r.fetched with
    | none =>
      refine iff_of_true (fun o => ?_) nofun
      rw [step_record_none hf]
      exact ⟨le_rfl, fun p hp _ => h.phase p hp⟩
    | some f =>
      have hrecord := fun o => stored_record h hf o desiredState now reason
      constructor
      · intro hkept _ hidle
        by_contra hraced
        obtain ⟨p, hp⟩ := ne_none_iff_exists'.mp hraced
        by_cases hrec : p = .recovering
        · -- The id that the transition raised is taken back.
          have hle := (hkept {}).transitionId
          rw [(hrecord {}).2 hidle, reduceRecovery_unobserved] at hle
          exact absurd hle (not_le.mpr (h.lt f hf (hp.trans (by rw [hrec]))))
        · -- The phase that the transition published is replaced.
          obtain ⟨o, ho⟩ := exists_other_phase f p
          have hphase := (hkept o).phase p hp hrec
          rw [(hrecord o).2 hidle] at hphase
          exact ho hphase
      · intro hunraced o
        by_cases hprogress : InProgress (kind.get r.store bundleName) now
        · have hstored := (hrecord o).1 hprogress
          exact ⟨by rw [hstored], fun p hp _ => by rw [hstored]; exact h.phase p hp⟩
        have hnone := hunraced rfl hprogress
        refine ⟨?_, fun p hp => ?_⟩
        · rw [(hrecord o).2 hprogress, h.same f hf hnone]
          exact transitionId_le_reduceRecovery f o
        · rw [hnone] at hp
          cases hp

/-- **Recovery bookkeeping** keeps the transition id and the published phases, in either store
and along every run, exactly when no accepted record is raced by a transition. -/
theorem bookkeeping_sound_iff (kind : StoreKind) (bundleName : String)
    (labels : List RecoveryLabel) :
    (∀ v ∈ visits (step bundleName) (start kind) labels, Sound bundleName v) ↔
      ∀ v ∈ visits (step bundleName) (start kind) labels, Unraced bundleName v := by
  refine forall_visits_iff (P := fun _ => True) (I := Tracked bundleName)
    (fun v _ h => h.sound_iff) (fun v _ h _ => ?_) ?_ labels fun _ _ => trivial
  · obtain ⟨op, r⟩ := v
    cases op with
    | fetch => exact .unpublished h.tidy rfl fun f hf => some.inj hf
    | transition call => exact (h.transition call).2
    | record o desiredState now reason => exact h.record o desiredState now reason
  · refine .unpublished ?_ rfl fun f hf => absurd hf (some_ne_none f).symm
    cases kind with
    | inMemory => exact fun _ _ hrecord => (by cases hrecord)
    | redis => trivial

/-- A transition fits between the fetch and the record. -/
def racedRecord : List RecoveryLabel :=
  [.fetch, .transition ⟨.begin "b" .running "o" 1 60 "start", rfl⟩,
    .transition ⟨.finish ⟨"b", "o", 1, 1, 61⟩ true 2 "" none, rfl⟩, .record {} .idle 3 "idle-pre"]

/-- In either store the record takes the transition id back to zero. -/
theorem racedRecord_not_sound :
    (¬ ∀ v ∈ visits (step "b") (start .inMemory) racedRecord, Sound "b" v) ∧
      ¬ ∀ v ∈ visits (step "b") (start .redis) racedRecord, Sound "b" v := by
  constructor
  all_goals
    intro hall
    simp only [racedRecord, visits, List.forall_mem_cons] at hall
    exact absurd (hall.2.2.2.1 {}).transitionId (by decide +kernel)

end RecoveryRun

end GpuManager.Lifecycle
