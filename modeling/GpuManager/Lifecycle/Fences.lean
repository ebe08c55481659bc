import GpuManager.Lib.FencedLedger
import GpuManager.Lifecycle.Transitions

/-!
# Superseded transition leases

The fences of the bundle transitions, over whole runs.  A run is any sequence of calls
with any arguments; in the Redis store a key may also expire at any time after its
time to live has passed.

Both stores are instances of a `Fencing`.  The level of a bundle is its stored
`generation_fence`, and every call but a key's expiry raises the levels it grants and
lowers none.  What follows for both is that a later `begin` carries a larger fence and
that a superseded lease is dead: no call accepts it.  For the Redis store this is so
only as long as no hash that carries a fence expires; after that the count starts over
and an old lease of the same owner is the current one again.
-/

namespace GpuManager.Lifecycle

open FencedLedger InMemory BundleTransitionLease Function List

/-- The protocol of the two stores, with the expiry of a key and the stored fence of a
bundle. -/
structure BundleLifecycleStore where
  State : Type
  empty : State
  begin : String → DesiredState → String → ℚ → ℚ → String → State → TransitionAttempt × State
  beginGroup : List (String × DesiredState) → String → ℚ → ℚ → String → State →
    TransitionGroupAttempt × State
  renew : BundleTransitionLease → ℚ → ℚ → State → Bool × State
  renewGroup : List BundleTransitionLease → ℚ → ℚ → State → Bool × State
  finish : BundleTransitionLease → Bool → ℚ → String → Option String → State → Bool × State
  finishGroup : List BundleTransitionLease → Bool → ℚ → String → Option String → State →
    Bool × State
  recordRecovery : String → DesiredState → RecoveryState → ℚ → String → State → Bool × State
  expire : String → ℚ → State → State
  fence : State → String → ℤ

/-- The stored fence of a bundle. -/
def InMemory.fence (records : Records) (bundleName : String) : ℤ :=
  ((records bundleName).map BundleLifecycleRecord.generationFence).getD 0

/-- The stored fence of a bundle. -/
def Redis.fence (hashes : Redis.Hashes) (bundleName : String) : ℤ :=
  (Redis.fields hashes bundleName).generationFence.getD 0

def inMemoryStore : BundleLifecycleStore where
  State := Records
  empty := fun _ => none
  begin := begin
  beginGroup := beginGroup
  renew := renew
  renewGroup := renewGroup
  finish := finish
  finishGroup := finishGroup
  recordRecovery := recordRecovery
  expire := fun _ _ records => records
  fence := fence

/-- `RedisBundleLifecycleStore`. -/
def redisStore : BundleLifecycleStore where
  State := Redis.Hashes
  empty := fun _ => none
  begin := Redis.begin
  beginGroup := Redis.beginGroup
  renew := Redis.renew
  renewGroup := Redis.renewGroup
  finish := Redis.finish
  finishGroup := Redis.finishGroup
  recordRecovery := Redis.recordRecovery
  expire := Redis.expire
  fence := Redis.fence

/-- One call, or the expiry of a key. -/
inductive TransitionOp where
  | begin (bundleName : String) (desiredState : DesiredState) (owner : String)
      (now ttlSeconds : ℚ) (reason : String)
  | beginGroup (transitions : List (String × DesiredState)) (owner : String)
      (now ttlSeconds : ℚ) (reason : String)
  | renew (lease : BundleTransitionLease) (now ttlSeconds : ℚ)
  | renewGroup (leases : List BundleTransitionLease) (now ttlSeconds : ℚ)
  | finish (lease : BundleTransitionLease) (success : Bool) (now : ℚ) (reason : String)
      (error : Option String)
  | finishGroup (leases : List BundleTransitionLease) (success : Bool) (now : ℚ)
      (reason : String) (error : Option String)
  | recordRecovery (bundleName : String) (desiredState : DesiredState)
      (recovery : RecoveryState) (now : ℚ) (reason : String)
  | expire (bundleName : String) (now : ℚ)

namespace BundleLifecycleStore

variable (store : BundleLifecycleStore)

def step : TransitionOp → store.State → List BundleTransitionLease × store.State
  | .begin bundleName desiredState owner now ttl reason, s =>
    let r := store.begin bundleName desiredState owner now ttl reason s
    (r.1.lease.toList, r.2)
  | .beginGroup transitions owner now ttl reason, s =>
    let r := store.beginGroup transitions owner now ttl reason s
    (r.1.lease.getD [], r.2)
  | .renew lease now ttl, s => ([], (store.renew lease now ttl s).2)
  | .renewGroup leases now ttl, s => ([], (store.renewGroup leases now ttl s).2)
  | .finish lease success now reason error, s =>
    ([], (store.finish lease success now reason error s).2)
  | .finishGroup leases success now reason error, s =>
    ([], (store.finishGroup leases success now reason error s).2)
  | .recordRecovery bundleName desiredState recovery now reason, s =>
    ([], (store.recordRecovery bundleName desiredState recovery now reason s).2)
  | .expire bundleName now, s => ([], store.expire bundleName now s)

/-- The grants of a store, fenced by the stored generation. -/
def fencing : Fencing store.State TransitionOp BundleTransitionLease String where
  step := store.step
  key := bundleName
  fence := generationFence
  level := store.fence

/-- No call accepts the lease: it is answered `false` and nothing changes. -/
structure Dead (lease : BundleTransitionLease) (s : store.State) : Prop where
  renew : ∀ now ttl, store.renew lease now ttl s = (false, s)
  finish : ∀ success now reason error,
    store.finish lease success now reason error s = (false, s)
  renewGroup : ∀ leases, lease ∈ leases → ∀ now ttl,
    store.renewGroup leases now ttl s = (false, s)
  finishGroup : ∀ leases, lease ∈ leases → ∀ success now reason error,
    store.finishGroup leases success now reason error s = (false, s)

/-- A later lease of a bundle has a larger fence, and an earlier one is dead. -/
def SupersededDead (st : Ledger store.State BundleTransitionLease) : Prop :=
  st.grants.Pairwise fun earlier later => earlier.bundleName = later.bundleName →
    earlier.generationFence < later.generationFence ∧ store.Dead earlier st.store

/-- The expiry of a key does not take a fence with it. -/
def KeepsFence (v : store.State × TransitionOp) : Prop :=
  match v.2 with
  | .expire bundleName now =>
    store.fence (store.expire bundleName now v.1) bundleName = store.fence v.1 bundleName
  | _ => True

instance (v : store.State × TransitionOp) : Decidable (store.KeepsFence v) := by
  unfold KeepsFence
  split <;> infer_instance

/-- No lease granted yet. -/
def start : Ledger store.State BundleTransitionLease := ⟨store.empty, []⟩

end BundleLifecycleStore

/-! ## Groups -/

theorem map_fst_filterMap_sublist {α β : Type} {f : α → Option (α × β)} (names : List α)
    (hf : ∀ name t, f name = some t → t.1 = name) :
    ((names.filterMap f).map Prod.fst).Sublist names := by
  induction names with
  | nil => exact Sublist.slnil
  | cons name names ih =>
    cases ht : f name with
    | none =>
      rw [filterMap_cons_none ht]
      exact ih.cons name
    | some t =>
      rw [filterMap_cons_some ht, map_cons, hf name t ht]
      exact ih.cons_cons name

/-- A normalised group names each bundle once. -/
theorem normalizeGroupTransitions_nodup (transitions : List (String × DesiredState)) :
    ((normalizeGroupTransitions transitions).map Prod.fst).Nodup := by
  refine (map_fst_filterMap_sublist _ fun name t ht => ?_).nodup (Finset.sort_nodup _ _)
  simpa using List.find?_some ht

/-! ## The in-memory store -/

namespace InMemory

variable {records : Records} {write : BundleLifecycleRecord → BundleLifecycleRecord}

def Named (records : Records) : Prop :=
  ∀ bundleName record, records bundleName = some record → record.bundleName = bundleName

variable {record : BundleLifecycleRecord} {written : Records}

theorem Named.update (h : Named records) {bundleName : String}
    (hname : record.bundleName = bundleName) :
    Named (update records bundleName (some record)) := by
  intro name r hr
  by_cases hn : name = bundleName
  · subst hn
    rw [update_self] at hr
    exact Option.some.inj hr ▸ hname
  · rw [update_of_ne hn] at hr
    exact h name r hr

theorem current_bundleName (h : Named records) (bundleName : String) (now : ℚ) :
    (current records bundleName now).bundleName = bundleName := by
  unfold current
  cases hr : records bundleName with
  | none => rfl
  | some record => exact h bundleName record hr

theorem current_generationFence (records : Records) (bundleName : String) (now : ℚ) :
    (current records bundleName now).generationFence = fence records bundleName := by
  unfold current fence
  cases records bundleName with
  | none | some record => rfl

theorem fence_update (records : Records) (bundleName name : String)
    (record : BundleLifecycleRecord) :
    fence (update records bundleName (some record)) name =
      if name = bundleName then record.generationFence else fence records name := by
  unfold fence
  by_cases hn : name = bundleName
  · subst hn
    simp
  · simp [hn]

/-- A write that keeps the name and the fence of a record. -/
def KeepsIdentity (write : BundleLifecycleRecord → BundleLifecycleRecord) : Prop :=
  ∀ record, (write record).bundleName = record.bundleName ∧
    (write record).generationFence = record.generationFence

theorem renewed_keepsIdentity (now ttl : ℚ) : KeepsIdentity (renewed now ttl) :=
  fun _ => ⟨rfl, rfl⟩

theorem finished_keepsIdentity (success : Bool) (now : ℚ) (reason : String)
    (error : Option String) (defaultError : String) :
    KeepsIdentity (finished success now reason error defaultError) :=
  fun _ => ⟨rfl, rfl⟩

theorem forHolder_keeps (lease : BundleTransitionLease) (now : ℚ)
    (hwrite : KeepsIdentity write) (h : Named records) :
    Named (forHolder lease now write records).2 ∧ ∀ name,
      fence (forHolder lease now write records).2 name =
        fence records name := by
  unfold forHolder
  cases hr : records lease.bundleName with
  | none => exact ⟨h, fun _ => rfl⟩
  | some record =>
    simp only
    split
    · refine ⟨h.update ((hwrite record).1.trans (h _ _ hr)), fun name => ?_⟩
      rw [fence_update]
      split
      · rename_i hn
        subst hn
        rw [(hwrite record).2]
        simp [fence, hr]
      · rfl
    · exact ⟨h, fun _ => rfl⟩

/-- Writing records over their own keys keeps every fence. -/
theorem foldl_keeps
    (hwrite : KeepsIdentity write) {level : String → ℤ} (rs : List BundleLifecycleRecord)
    (hrs : ∀ record ∈ rs, record.generationFence = level record.bundleName)
    (h : Named written) (hlevel : ∀ name, fence written name = level name) :
    Named (rs.foldl (fun written record =>
        update written record.bundleName (some (write record))) written) ∧
      ∀ name, fence (rs.foldl (fun written record =>
        update written record.bundleName (some (write record))) written) name =
          level name := by
  induction rs generalizing written with
  | nil => exact ⟨h, hlevel⟩
  | cons record rs ih =>
    rw [forall_mem_cons] at hrs
    refine ih hrs.2 (h.update (hwrite record).1) fun name => ?_
    rw [fence_update]
    split
    · rename_i hn
      subst hn
      rw [(hwrite record).2, hrs.1]
    · exact hlevel name

theorem forHolders_keeps (leases : List BundleTransitionLease) (now : ℚ)
    (hwrite : KeepsIdentity write) (h : Named records) :
    Named (forHolders leases now write records).2 ∧ ∀ name,
      fence (forHolders leases now write records).2 name =
        fence records name := by
  unfold forHolders
  split
  · refine foldl_keeps hwrite _ (fun record hrecord => ?_) h fun _ => rfl
    obtain ⟨lease, -, hr⟩ := mem_filterMap.mp hrecord
    rw [h _ _ hr]
    simp [fence, hr]
  · exact ⟨h, fun _ => rfl⟩

theorem foldl_begun (next : String × DesiredState → BundleLifecycleRecord)
    (hnext : ∀ t, (next t).bundleName = t.1) (ts : List (String × DesiredState))
    (hnodup : (ts.map Prod.fst).Nodup) (h : Named written) :
    Named (ts.foldl (fun written t => update written t.1 (some (next t))) written) ∧
      (∀ name, name ∉ ts.map Prod.fst → fence (ts.foldl (fun written t =>
        update written t.1 (some (next t))) written) name =
          fence written name) ∧
      ∀ t ∈ ts, fence (ts.foldl (fun written t =>
        update written t.1 (some (next t))) written) t.1 = (next t).generationFence := by
  induction ts generalizing written with
  | nil => exact ⟨h, fun _ _ => rfl, fun _ ht => by cases ht⟩
  | cons t ts ih =>
    rw [map_cons, nodup_cons] at hnodup
    obtain ⟨hnamed, hother, hwritten⟩ := ih hnodup.2 (h.update (hnext t))
    refine ⟨hnamed, fun name hname => ?_, fun t' ht' => ?_⟩
    · rw [map_cons, mem_cons, not_or] at hname
      rw [foldl_cons, hother name hname.2, fence_update, if_neg hname.1]
    · rcases mem_cons.mp ht' with rfl | ht'
      · rw [foldl_cons, hother _ hnodup.1, fence_update, if_pos rfl]
      · exact hwritten t' ht'

theorem begin_raises (h : Named records) (bundleName : String) (desiredState : DesiredState)
    (owner : String) (now ttl : ℚ) (reason : String) :
    inMemoryStore.fencing.Raises (.begin bundleName desiredState owner now ttl reason) records ∧
      Named (begin bundleName desiredState owner now ttl reason records).2 := by
  by_cases hprogress : InProgress (current records bundleName now) now
  · have heq : begin bundleName desiredState owner now ttl reason records =
        ({ acquired := false
           reason := "transition_in_progress"
           record := some (current records bundleName now) }, records) := if_pos hprogress
    refine ⟨.of_nil records ?_ fun _ => rfl, by rw [heq]; exact h⟩
    show ((begin bundleName desiredState owner now ttl reason records).1.lease.toList,
      (begin bundleName desiredState owner now ttl reason records).2) = _
    rw [heq]
    rfl
  · obtain ⟨next, hnext⟩ : ∃ next, next = begun (current records bundleName now) desiredState
        owner now ttl reason := ⟨_, rfl⟩
    have heq : begin bundleName desiredState owner now ttl reason records =
        ({ acquired := true
           lease := some (leaseOf bundleName owner next)
           reason := "acquired"
           record := some next }, update records bundleName (some next)) := by
      rw [hnext]
      exact if_neg hprogress
    have hname : next.bundleName = bundleName := by
      rw [hnext]
      exact current_bundleName h bundleName now
    have hfence : next.generationFence = fence records bundleName + 1 := by
      rw [hnext, ← current_generationFence records bundleName now]
      rfl
    refine ⟨.of_step [leaseOf bundleName owner next]
      (update records bundleName (some next)) ?_ (nodup_singleton _) ?_ ?_,
      by rw [heq]; exact h.update hname⟩
    · show ((begin bundleName desiredState owner now ttl reason records).1.lease.toList,
        (begin bundleName desiredState owner now ttl reason records).2) = _
      rw [heq]
      rfl
    · intro lease hlease
      obtain rfl := mem_singleton.mp hlease
      refine ⟨hfence, ?_⟩
      show fence (update records bundleName (some next)) bundleName = _
      rw [fence_update, if_pos rfl]
      rfl
    · intro name hother
      show fence (update records bundleName (some next)) name = fence records name
      rw [fence_update, if_neg]
      rintro rfl
      exact hother (mem_singleton_self _)

theorem beginGroup_raises (h : Named records) (transitions : List (String × DesiredState))
    (owner : String) (now ttl : ℚ) (reason : String) :
    inMemoryStore.fencing.Raises (.beginGroup transitions owner now ttl reason) records ∧
      Named (beginGroup transitions owner now ttl reason records).2 := by
  have hrefused : ∀ text, beginGroup transitions owner now ttl reason records =
      ({ acquired := false, reason := text }, records) →
      inMemoryStore.fencing.Raises (.beginGroup transitions owner now ttl reason) records ∧
        Named (beginGroup transitions owner now ttl reason records).2 := by
    intro text heq
    refine ⟨.of_nil records ?_ fun _ => rfl, by rw [heq]; exact h⟩
    show ((beginGroup transitions owner now ttl reason records).1.lease.getD [],
      (beginGroup transitions owner now ttl reason records).2) = _
    rw [heq]
    rfl
  by_cases hempty : normalizeGroupTransitions transitions = []
  · exact hrefused "empty_group" (if_pos hempty)
  by_cases hprogress : ∃ t ∈ normalizeGroupTransitions transitions,
      InProgress (current records t.1 now) now
  · exact hrefused "transition_in_progress" ((if_neg hempty).trans (if_pos hprogress))
  obtain ⟨next, hnext⟩ : ∃ next, next = fun t : String × DesiredState =>
      begun (current records t.1 now) t.2 owner now ttl reason := ⟨_, rfl⟩
  have heq : beginGroup transitions owner now ttl reason records =
      ({ acquired := true
         lease := some ((normalizeGroupTransitions transitions).map fun t =>
          leaseOf t.1 owner (next t))
         reason := "acquired" },
        (normalizeGroupTransitions transitions).foldl
          (fun (written : Records) t => update written t.1 (some (next t))) records) := by
    rw [hnext]
    exact (if_neg hempty).trans (if_neg hprogress)
  have hnodup := normalizeGroupTransitions_nodup transitions
  obtain ⟨hnamed, hother, hwritten⟩ := foldl_begun next
    (fun t => by rw [hnext]; exact current_bundleName h t.1 now) _ hnodup h
  generalize (normalizeGroupTransitions transitions).foldl
    (fun (written : Records) t => update written t.1 (some (next t))) records =
      written at heq hnamed hother hwritten
  have hkeys : ((normalizeGroupTransitions transitions).map fun t =>
      leaseOf t.1 owner (next t)).map bundleName =
        (normalizeGroupTransitions transitions).map Prod.fst := by
    rw [map_map]
    rfl
  refine ⟨.of_step ((normalizeGroupTransitions transitions).map fun t =>
      leaseOf t.1 owner (next t)) written ?_ (hkeys ▸ hnodup) ?_ fun name hname => ?_,
    by rw [heq]; exact hnamed⟩
  · show ((beginGroup transitions owner now ttl reason records).1.lease.getD [],
      (beginGroup transitions owner now ttl reason records).2) = _
    rw [heq]
    rfl
  · intro lease hlease
    obtain ⟨t, ht, rfl⟩ := mem_map.mp hlease
    refine ⟨?_, hwritten t ht⟩
    show (next t).generationFence = fence records t.1 + 1
    rw [hnext, ← current_generationFence records t.1 now]
    rfl
  · exact hother name fun hmem => hname (hkeys ▸ hmem)

theorem recordRecovery_keeps (h : Named records) (bundleName : String)
    (desiredState : DesiredState) (recovery : RecoveryState) (now : ℚ) (reason : String) :
    Named (recordRecovery bundleName desiredState recovery now reason records).2 ∧ ∀ name,
      fence (recordRecovery bundleName desiredState recovery now reason records).2 name =
        fence records name := by
  unfold recordRecovery
  split
  · exact ⟨h, fun _ => rfl⟩
  refine ⟨h.update (current_bundleName h bundleName now), fun name => ?_⟩
  rw [fence_update]
  split
  · rename_i hn
    subst hn
    exact current_generationFence records name now
  · rfl

/-- **The in-memory store** raises its levels with every call. -/
theorem raises (h : Named records) (op : TransitionOp) :
    inMemoryStore.fencing.Raises op records ∧ Named (inMemoryStore.step op records).2 := by
  cases op with
  | begin bundleName desiredState owner now ttl reason =>
    exact begin_raises h bundleName desiredState owner now ttl reason
  | beginGroup transitions owner now ttl reason =>
    exact beginGroup_raises h transitions owner now ttl reason
  | renew lease now ttl =>
    have hkeeps := forHolder_keeps lease now
      (renewed_keepsIdentity now ttl) h
    exact ⟨.of_nil _ rfl hkeeps.2, hkeeps.1⟩
  | renewGroup leases now ttl =>
    have hkeeps : Named (renewGroup leases now ttl records).2 ∧ ∀ name,
        fence (renewGroup leases now ttl records).2 name = fence records name := by
      unfold renewGroup
      split
      · exact ⟨h, fun _ => rfl⟩
      · exact forHolders_keeps leases now (renewed_keepsIdentity now ttl) h
    exact ⟨.of_nil _ rfl hkeeps.2, hkeeps.1⟩
  | finish lease success now reason error =>
    have hkeeps := forHolder_keeps lease now
      (finished_keepsIdentity success now reason error "bundle transition failed") h
    exact ⟨.of_nil _ rfl hkeeps.2, hkeeps.1⟩
  | finishGroup leases success now reason error =>
    have hkeeps := forHolders_keeps leases now
      (finished_keepsIdentity success now reason error "bundle transition group failed") h
    exact ⟨.of_nil _ rfl hkeeps.2, hkeeps.1⟩
  | recordRecovery bundleName desiredState recovery now reason =>
    have hkeeps := recordRecovery_keeps h bundleName desiredState recovery now reason
    exact ⟨.of_nil _ rfl hkeeps.2, hkeeps.1⟩
  | expire bundleName now => exact ⟨.of_nil _ rfl fun _ => rfl, h⟩

variable {lease : BundleTransitionLease}

variable (hlt : lease.generationFence < fence records lease.bundleName)
include hlt

variable {now : ℚ}

/-- A lease below the stored fence is not the current one. -/
theorem not_holds (hr : records lease.bundleName = some record) : ¬ Holds lease record now := by
  rintro ⟨-, hfence, -⟩
  have hstored : fence records lease.bundleName = record.generationFence := by simp [fence, hr]
  omega

theorem forHolder_refuses (now : ℚ) (write : BundleLifecycleRecord → BundleLifecycleRecord) :
    forHolder lease now write records = (false, records) := by
  unfold forHolder
  cases hr : records lease.bundleName with
  | none => rfl
  | some record => exact if_neg (not_holds hlt hr)

variable {leases : List BundleTransitionLease}

theorem forHolders_refuses (hmem : lease ∈ leases) (now : ℚ)
    (write : BundleLifecycleRecord → BundleLifecycleRecord) :
    forHolders leases now write records = (false, records) := by
  refine if_neg fun hall => ?_
  obtain ⟨record, hr, hholds⟩ := hall lease hmem
  exact not_holds hlt hr hholds

theorem dead :
    inMemoryStore.Dead lease records where
  renew := fun now _ => forHolder_refuses hlt now _
  finish := fun _ now _ _ => forHolder_refuses hlt now _
  renewGroup := fun leases hmem now ttl => by
    show renewGroup leases now ttl records = (false, records)
    unfold renewGroup
    split
    · rfl
    · exact forHolders_refuses hlt hmem now _
  finishGroup := fun _ hmem _ now _ _ => forHolders_refuses hlt hmem now _

end InMemory

/-! ## The Redis store -/

namespace Redis

variable {hashes : Hashes}

theorem fence_update (hashes : Hashes) (bundleName name : String) (h : BundleHash) :
    fence (update hashes bundleName (some h)) name =
      if name = bundleName then h.generationFence.getD 0 else fence hashes name := by
  unfold fence fields
  by_cases hn : name = bundleName
  · subst hn
    simp
  · simp [hn]

/-- Writing a hash with its old fence keeps every fence. -/
theorem fence_update_same (hashes : Hashes) {bundleName : String} {h : BundleHash}
    (hh : h.generationFence = (fields hashes bundleName).generationFence) (name : String) :
    fence (update hashes bundleName (some h)) name = fence hashes name := by
  rw [fence_update]
  split
  · rename_i hn
    subst hn
    rw [hh]
    rfl
  · rfl

theorem renewed_generationFence (now ttl : ℚ) (h : BundleHash) :
    (renewed now ttl h).generationFence = h.generationFence := rfl

theorem finished_generationFence (success : Bool) (now : ℚ) (reason : String)
    (error : Option String) (h : BundleHash) :
    (finished success now reason error h).generationFence = h.generationFence := by
  unfold finished
  cases success <;> rfl

section Holders

variable {write : BundleHash → BundleHash}
  (hwrite : ∀ h, (write h).generationFence = h.generationFence)

include hwrite

theorem forHolder_fence (lease : BundleTransitionLease) (now : ℚ) (name : String) :
    fence (forHolder lease now write hashes).2 name = fence hashes name := by
  unfold forHolder
  split
  · exact fence_update_same hashes (hwrite _) name
  · rfl

theorem forHolders_fence (leases : List BundleTransitionLease) (now : ℚ) (name : String) :
    fence (forHolders leases now write hashes).2 name = fence hashes name := by
  have hfold : ∀ (ls : List BundleTransitionLease) (written : Hashes),
      fence (ls.foldl (fun written lease => update written lease.bundleName
        (some (write (fields written lease.bundleName)))) written) name = fence written name := by
    intro ls
    induction ls with
    | nil => exact fun _ => rfl
    | cons lease ls ih =>
      intro written
      rw [foldl_cons, ih]
      exact fence_update_same written (hwrite _) name
  unfold forHolders
  split
  · rfl
  split
  · exact hfold _ hashes
  · rfl

end Holders

/-- The lease of a bundle whose hash has just been written. -/
theorem begin_eq (bundleName : String) (desiredState : DesiredState) (owner : String)
    (now ttl : ℚ) (reason : String) (hashes : Hashes) :
    redisStore.step (.begin bundleName desiredState owner now ttl reason) hashes =
        ([], hashes) ∨
      ∃ lease : BundleTransitionLease, lease.bundleName = bundleName ∧
        lease.generationFence = fence hashes bundleName + 1 ∧
        redisStore.step (.begin bundleName desiredState owner now ttl reason) hashes =
          ([lease], update hashes bundleName (some
            (begun (fields hashes bundleName) bundleName desiredState owner now ttl reason))) := by
  by_cases hprogress : InProgress (fields hashes bundleName) now
  · left
    have heq : begin bundleName desiredState owner now ttl reason hashes =
        ({ acquired := false
           reason := "transition_in_progress"
           record := some (fromFields bundleName (fields hashes bundleName)) }, hashes) :=
      if_pos hprogress
    show ((begin bundleName desiredState owner now ttl reason hashes).1.lease.toList,
      (begin bundleName desiredState owner now ttl reason hashes).2) = _
    rw [heq]
    rfl
  · right
    refine ⟨
      { bundleName := bundleName
        owner := owner
        generationFence := fence hashes bundleName + 1
        transitionId := (fields hashes bundleName).transitionId.getD 0 + 1
        expiresAt := now + ttl }, rfl, rfl, ?_⟩
    show ((begin bundleName desiredState owner now ttl reason hashes).1.lease.toList,
      (begin bundleName desiredState owner now ttl reason hashes).2) = _
    unfold begin
    rw [if_neg hprogress]
    rfl

theorem begin_raises (bundleName : String) (desiredState : DesiredState) (owner : String)
    (now ttl : ℚ) (reason : String) :
    redisStore.fencing.Raises (.begin bundleName desiredState owner now ttl reason) hashes := by
  rcases begin_eq bundleName desiredState owner now ttl reason hashes with
    hstep | ⟨lease, hname, hfence, hstep⟩
  · exact .of_nil hashes hstep fun _ => rfl
  refine .of_step [lease] _ hstep (nodup_singleton _) ?_ fun name hother => ?_
  · intro l hl
    obtain rfl := mem_singleton.mp hl
    refine ⟨hfence.trans (by rw [← hname]; rfl), ?_⟩
    show fence (update hashes bundleName _) l.bundleName = l.generationFence
    rw [hname, fence_update, if_pos rfl, hfence]
    rfl
  · show fence (update hashes bundleName _) name = fence hashes name
    rw [fence_update, if_neg]
    rintro rfl
    exact hother (mem_singleton.mpr hname.symm)

/-- What the writing loop of a group grants and writes. -/
theorem beginEach_spec (owner : String) (now ttl : ℚ) (reason : String)
    (ts : List (String × DesiredState)) (hnodup : (ts.map Prod.fst).Nodup) (hashes : Hashes) :
    (beginEach owner now ttl reason ts hashes).1.map bundleName =
        ts.map Prod.fst ∧
      (∀ l ∈ (beginEach owner now ttl reason ts hashes).1,
        l.generationFence = fence hashes l.bundleName + 1 ∧
          fence (beginEach owner now ttl reason ts hashes).2 l.bundleName = l.generationFence) ∧
      ∀ name, name ∉ ts.map Prod.fst →
        fence (beginEach owner now ttl reason ts hashes).2 name = fence hashes name := by
  induction ts generalizing hashes with
  | nil => exact ⟨rfl, fun _ hl => (by cases hl), fun _ _ => rfl⟩
  | cons t ts ih =>
    rw [map_cons, nodup_cons] at hnodup
    obtain ⟨hkeys, hgranted, hother⟩ := ih hnodup.2 (update hashes t.1
      (some (begun (fields hashes t.1) t.1 t.2 owner now ttl reason)))
    rw [beginEach]
    refine ⟨by rw [map_cons, hkeys, map_cons], ?_, fun name hname => ?_⟩
    · rw [forall_mem_cons]
      refine ⟨⟨rfl, ?_⟩, fun l hl => ?_⟩
      · rw [hother t.1 hnodup.1, fence_update, if_pos rfl]
      · obtain ⟨hfence, hlevel⟩ := hgranted l hl
        have hne : l.bundleName ≠ t.1 := by
          intro heq
          refine hnodup.1 ?_
          have hmem := mem_map_of_mem (f := bundleName) hl
          rwa [hkeys, heq] at hmem
        rw [fence_update, if_neg hne] at hfence
        exact ⟨hfence, hlevel⟩
    · rw [map_cons, mem_cons, not_or] at hname
      rw [hother name hname.2, fence_update, if_neg hname.1]

theorem beginGroup_raises (transitions : List (String × DesiredState)) (owner : String)
    (now ttl : ℚ) (reason : String) :
    redisStore.fencing.Raises (.beginGroup transitions owner now ttl reason) hashes := by
  have hrefused : ∀ text, beginGroup transitions owner now ttl reason hashes =
      ({ acquired := false, reason := text }, hashes) →
      redisStore.fencing.Raises (.beginGroup transitions owner now ttl reason) hashes := by
    intro text heq
    refine .of_nil hashes ?_ fun _ => rfl
    show ((beginGroup transitions owner now ttl reason hashes).1.lease.getD [],
      (beginGroup transitions owner now ttl reason hashes).2) = _
    rw [heq]
    rfl
  by_cases hempty : normalizeGroupTransitions transitions = []
  · exact hrefused "empty_group" (if_pos hempty)
  by_cases hprogress : ∃ t ∈ normalizeGroupTransitions transitions,
      InProgress (fields hashes t.1) now
  · exact hrefused "transition_in_progress" ((if_neg hempty).trans (if_pos hprogress))
  have heq : beginGroup transitions owner now ttl reason hashes =
      ({ acquired := true
         lease := some (beginEach owner now ttl reason (normalizeGroupTransitions transitions)
          hashes).1
         reason := "acquired" },
        (beginEach owner now ttl reason (normalizeGroupTransitions transitions) hashes).2) :=
    (if_neg hempty).trans (if_neg hprogress)
  have hnodup := normalizeGroupTransitions_nodup transitions
  obtain ⟨hkeys, hgranted, hother⟩ := beginEach_spec owner now ttl reason _ hnodup hashes
  refine .of_step _ _ ?_ (hkeys ▸ hnodup) hgranted fun name hname => ?_
  · show ((beginGroup transitions owner now ttl reason hashes).1.lease.getD [],
      (beginGroup transitions owner now ttl reason hashes).2) = _
    rw [heq]
    rfl
  · exact hother name fun hmem => hname (hkeys ▸ hmem)

theorem recordRecovery_fence (bundleName : String) (desiredState : DesiredState)
    (recovery : RecoveryState) (now : ℚ) (reason : String) (name : String) :
    fence (recordRecovery bundleName desiredState recovery now reason hashes).2 name =
      fence hashes name := by
  unfold recordRecovery
  split
  · rfl
  · refine fence_update_same hashes ?_ name
    rfl

theorem expire_fence {bundleName : String}
    (hkeeps : redisStore.KeepsFence (hashes, .expire bundleName now)) (name : String) :
    fence (expire bundleName now hashes) name = fence hashes name := by
  by_cases hn : name = bundleName
  · subst hn
    exact hkeeps
  unfold expire
  split
  · split
    · simp [fence, fields, hn]
    · rfl
  · rfl

/-- **The Redis store** raises its levels with every call, as long as no expiry takes a
fence with it. -/
theorem raises {op : TransitionOp} (hkeeps : redisStore.KeepsFence (hashes, op)) :
    redisStore.fencing.Raises op hashes := by
  cases op with
  | begin bundleName desiredState owner now ttl reason =>
    exact begin_raises bundleName desiredState owner now ttl reason
  | beginGroup transitions owner now ttl reason =>
    exact beginGroup_raises transitions owner now ttl reason
  | renew lease now ttl =>
    exact .of_nil _ rfl (forHolder_fence (renewed_generationFence now ttl) lease now)
  | renewGroup leases now ttl =>
    exact .of_nil _ rfl (forHolders_fence (renewed_generationFence now ttl) leases now)
  | finish lease success now reason error =>
    exact .of_nil _ rfl
      (forHolder_fence (finished_generationFence success now reason error) lease now)
  | finishGroup leases success now reason error =>
    exact .of_nil _ rfl
      (forHolders_fence (finished_generationFence success now reason error) leases now)
  | recordRecovery bundleName desiredState recovery now reason =>
    exact .of_nil _ rfl
      (recordRecovery_fence bundleName desiredState recovery now reason)
  | expire bundleName now => exact .of_nil _ rfl (expire_fence hkeeps)

variable {lease : BundleTransitionLease}

variable (hpos : 0 < lease.generationFence)
  (hlt : lease.generationFence < fence hashes lease.bundleName)
include hpos hlt

/-- A lease below the stored fence is not the current one. -/
theorem not_holds {owner : String} :
    ¬ Holds owner lease (fields hashes lease.bundleName) now := by
  rintro ⟨-, hfence, -⟩
  unfold fence at hlt
  cases hstored : (fields hashes lease.bundleName).generationFence with
  | none =>
    rw [hstored] at hlt
    simp at hlt
    omega
  | some stored =>
    rw [hstored, Option.getD_some] at hlt hfence
    omega

theorem forHolders_refuses (hmem : lease ∈ leases) (now : ℚ)
    (write : BundleHash → BundleHash) : forHolders leases now write hashes = (false, hashes) := by
  unfold forHolders
  split
  · rfl
  · exact if_neg fun hall => not_holds hpos hlt (hall lease hmem)

theorem dead :
    redisStore.Dead lease hashes where
  renew := fun _ _ => if_neg (not_holds hpos hlt)
  finish := fun _ _ _ _ => if_neg (not_holds hpos hlt)
  renewGroup := fun _ hmem now _ => forHolders_refuses hpos hlt hmem now _
  finishGroup := fun _ hmem _ now _ _ => forHolders_refuses hpos hlt hmem now _

end Redis

/-! ## Both stores -/

/-- In an ordered ledger a superseded lease is dead. -/
theorem BundleLifecycleStore.supersededDead_of_ordered {store : BundleLifecycleStore}
    {st : Ledger store.State BundleTransitionLease} (hst : store.fencing.Ordered st)
    (hdead : ∀ lease : BundleTransitionLease, 0 < lease.generationFence →
      lease.generationFence < store.fence st.store lease.bundleName →
      store.Dead lease st.store) : store.SupersededDead st := by
  refine Pairwise.imp_of_mem (fun {earlier later} hearlier hlater hlt hkey => ?_) hst.lt
  have hfence := hlt hkey
  refine ⟨hfence, hdead earlier (hst.pos earlier hearlier) ?_⟩
  have hlevel := hst.le later hlater
  rw [hkey]
  exact lt_of_lt_of_le hfence hlevel

inductive StoreKind where
  | inMemory | redis
  deriving DecidableEq

/-- The store of a kind. -/
def StoreKind.store : StoreKind → BundleLifecycleStore
  | .inMemory => inMemoryStore
  | .redis => redisStore

/-- **Superseded leases are dead.**  In every run of the in-memory store, and in every
run of the Redis store in which no expiry of a key takes a fence with it, a later lease
of a bundle has a larger fence and an earlier one is refused by every call. -/
theorem superseded_dead (kind : StoreKind) (ops : List TransitionOp)
    (hkeeps : kind = .redis →
      ∀ v ∈ kind.store.fencing.visits kind.store.start ops, kind.store.KeepsFence v) :
    kind.store.SupersededDead (kind.store.fencing.run kind.store.start ops) := by
  cases kind with
  | inMemory =>
    have hstart : inMemoryStore.fencing.Ordered inMemoryStore.start :=
      ⟨fun _ => le_rfl, fun _ h => (by cases h), fun _ h => (by cases h), Pairwise.nil⟩
    obtain ⟨hordered, -⟩ := hstart.run (I := Named)
      (fun op s hs => (raises hs op).2) (fun _ _ h => by cases h)
      fun v _ hv => (raises hv v.2).1
    exact BundleLifecycleStore.supersededDead_of_ordered hordered
      fun _ _ hlt => dead hlt
  | redis =>
    have hstart : redisStore.fencing.Ordered redisStore.start :=
      ⟨fun _ => le_rfl, fun _ h => (by cases h), fun _ h => (by cases h), Pairwise.nil⟩
    obtain ⟨hordered, -⟩ := hstart.run (I := fun _ => True) (fun _ _ _ => trivial) trivial
      fun v hv _ => Redis.raises (hkeeps rfl v hv)
    exact BundleLifecycleStore.supersededDead_of_ordered hordered
      fun _ hpos hlt => Redis.dead hpos hlt

/-- Two transitions of one owner, the second after the first has lapsed. -/
def twoTransitions : List TransitionOp :=
  [.begin "b" .running "o" 0 1 "first", .begin "b" .running "o" 3 180 "second"]

/-- The first lease is refused by every call. -/
theorem twoTransitions_supersededDead :
    redisStore.SupersededDead (redisStore.fencing.run redisStore.start twoTransitions) :=
  superseded_dead .redis twoTransitions fun _ => by decide +kernel

/-- The same, with the key of the bundle expired in between. -/
def expiredBetween : List TransitionOp :=
  [.begin "b" .running "o" 0 1 "first", .expire "b" 2, .begin "b" .running "o" 3 180 "second"]

/-- Both transitions carry fence one, and the lease of the first renews the second. -/
theorem expiredBetween_not_supersededDead :
    (redisStore.renew ⟨"b", "o", 1, 1, 1⟩ 4 180
        (redisStore.fencing.run redisStore.start expiredBetween).store).1 = true ∧
      ¬ redisStore.SupersededDead (redisStore.fencing.run redisStore.start expiredBetween) := by
  refine ⟨by decide +kernel, fun h => ?_⟩
  have hgrants : (redisStore.fencing.run redisStore.start expiredBetween).grants =
      [⟨"b", "o", 1, 1, 1⟩, ⟨"b", "o", 1, 1, 183⟩] := by
    decide +kernel
  unfold BundleLifecycleStore.SupersededDead at h
  rw [hgrants] at h
  have hlt := ((pairwise_cons.mp h).1 _ (mem_singleton_self _) rfl).1
  exact absurd hlt (by decide)

end GpuManager.Lifecycle
