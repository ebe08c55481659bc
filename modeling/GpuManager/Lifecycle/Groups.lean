import GpuManager.Lib.KeyedCalls
import GpuManager.Lifecycle.StoreOracle

/-!
# Group transitions and their parts

A group call checks all its bundles and then writes all of them, each in a loop of its own, and
in the Redis store by a script with argument positions of its own.  A call of one bundle
`ActsAt` that bundle, so calls of the parts of a group can be compared with the group itself in
any order.

`groups_act_singly`: in every reachable state of either store a group call is refused and writes
nothing, or it writes and returns what the calls of its parts do.  Two readings of the source go
into the statement.  A group lease is the lease of a *single owner*, and the scripts compare every
bundle with the owner of the first lease.  And a finish without an error text falls back to a text
of its own, which in memory is another one for a group.
-/

namespace GpuManager.Lifecycle

open KeyedCalls Machine PythonText Lifecycle.Redis InMemory List

namespace BundleLifecycleStore

variable (store : BundleLifecycleStore)

/-- The state a run of calls ends in. -/
def reached (ops : List TransitionOp) : store.State := final store.answer store.empty ops

/-- A group is not acquired and nothing changes, or the bundles of the group can be begun singly,
in any order, with the same leases and the same records. -/
def BeginsSingly (transitions : List (String × DesiredState)) (owner : String)
    (now ttlSeconds : ℚ) (reason : String) (s : store.State) : Prop :=
  let r := store.beginGroup transitions owner now ttlSeconds reason s
  (r.1.acquired = false ∧ r.2 = s) ∨
    r.1.acquired = true ∧ ∃ leases, r.1.lease = some leases ∧
      ∀ order : List (String × DesiredState),
        order.Perm (normalizeGroupTransitions transitions) →
        let singly := each (fun t => store.begin t.1 t.2 owner now ttlSeconds reason) order s
        (∀ attempt ∈ singly.1, attempt.acquired = true) ∧
          (singly.1.filterMap TransitionAttempt.lease).Perm leases ∧ singly.2 = r.2

/-- A call of a group lease is refused and nothing changes, or every lease of it is accepted
singly, and the single calls, in any order, leave the same records. -/
def ActsSingly (single : BundleTransitionLease → store.State → Bool × store.State)
    (leases : List BundleTransitionLease) (s : store.State) (r : Bool × store.State) : Prop :=
  r = (false, s) ∨
    r.1 = true ∧ (∀ lease ∈ leases, (single lease s).1 = true) ∧
      ∀ order : List BundleTransitionLease, order.Perm leases → (each single order s).2 = r.2

/-- The group calls act as their parts do, where `groupError` is the error text that a single
finish is given for the error text of a group. -/
structure GroupsActSingly (groupError : Option String → Option String) (s : store.State) :
    Prop where
  begins : ∀ transitions owner now ttlSeconds reason,
    store.BeginsSingly transitions owner now ttlSeconds reason s
  renews : ∀ leases : List BundleTransitionLease, leases ≠ [] →
    (∀ a ∈ leases, ∀ b ∈ leases, a.owner = b.owner) → ∀ now ttlSeconds,
    store.ActsSingly (fun lease => store.renew lease now ttlSeconds) leases s
      (store.renewGroup leases now ttlSeconds s)
  finishes : ∀ leases : List BundleTransitionLease, leases ≠ [] →
    (∀ a ∈ leases, ∀ b ∈ leases, a.owner = b.owner) → ∀ success now reason error,
    store.ActsSingly
      (fun lease => store.finish lease success now reason (groupError error)) leases s
      (store.finishGroup leases success now reason error s)

end BundleLifecycleStore

/-! ## Beginning -/

section Begins

variable {store : BundleLifecycleStore} {transitions : List (String × DesiredState)}
  {owner : String} {now ttl : ℚ} {reason : String}

theorem BundleLifecycleStore.BeginsSingly.of_refused {s : store.State} (text : String)
    (h : store.beginGroup transitions owner now ttl reason s =
      ({ acquired := false, reason := text }, s)) :
    store.BeginsSingly transitions owner now ttl reason s := by
  unfold BundleLifecycleStore.BeginsSingly
  rw [h]
  exact Or.inl ⟨rfl, rfl⟩

theorem BundleLifecycleStore.BeginsSingly.of_acquired {s after : store.State}
    {leases : List BundleTransitionLease}
    (h : store.beginGroup transitions owner now ttl reason s =
      ({ acquired := true, lease := some leases, reason := "acquired" }, after))
    (hsingly : ∀ order : List (String × DesiredState),
      order.Perm (normalizeGroupTransitions transitions) →
      let singly := each (fun t => store.begin t.1 t.2 owner now ttl reason) order s
      (∀ attempt ∈ singly.1, attempt.acquired = true) ∧
        (singly.1.filterMap TransitionAttempt.lease).Perm leases ∧ singly.2 = after) :
    store.BeginsSingly transitions owner now ttl reason s := by
  unfold BundleLifecycleStore.BeginsSingly
  rw [h]
  exact Or.inr ⟨rfl, leases, rfl, hsingly⟩

def InMemory.beginAt (owner : String) (now ttlSeconds : ℚ) (reason : String)
    (t : String × DesiredState) (record : Option BundleLifecycleRecord) :
    TransitionAttempt × Option BundleLifecycleRecord :=
  let r := begin t.1 t.2 owner now ttlSeconds reason fun _ => record
  (r.1, r.2 t.1)

def Redis.beginAt (owner : String) (now ttlSeconds : ℚ) (reason : String)
    (t : String × DesiredState) (h : Option BundleHash) :
    TransitionAttempt × Option BundleHash :=
  let r := begin t.1 t.2 owner now ttlSeconds reason fun _ => h
  (r.1, r.2 t.1)

theorem InMemory.begin_actsAt (owner : String) (now ttl : ℚ) (reason : String) :
    ActsAt Prod.fst (beginAt owner now ttl reason)
      (fun t => begin t.1 t.2 owner now ttl reason) := by
  intro t records
  have hcurrent : current (fun _ => records t.1) t.1 now =
      current records t.1 now := rfl
  unfold beginAt begin
  simp only [hcurrent]
  split
  · rw [Function.update_eq_self]
  · simp

theorem Redis.begin_actsAt (owner : String) (now ttl : ℚ) (reason : String) :
    ActsAt Prod.fst (beginAt owner now ttl reason)
      (fun t => begin t.1 t.2 owner now ttl reason) := by
  intro t hashes
  have hfields : fields (fun _ => hashes t.1) t.1 = fields hashes t.1 := rfl
  unfold beginAt begin
  simp only [hfields]
  split
  · rw [Function.update_eq_self]
  · simp

/-- Both stores begin a group by writing what the single calls write: the single calls of a list
in the order of the group, and of any other order of it. -/
theorem begun_singly {V : Type} {part : String × DesiredState → V → TransitionAttempt × V}
    {call : String × DesiredState → (String → V) → TransitionAttempt × (String → V)}
    (hacts : ActsAt Prod.fst part call) {ts : List (String × DesiredState)}
    (hnodup : (ts.map Prod.fst).Nodup) {s after : String → V}
    {leaseFor : String × DesiredState → BundleTransitionLease}
    (hanswer : ∀ t ∈ ts, (part t (s t.1)).1.acquired = true ∧
      (part t (s t.1)).1.lease = some (leaseFor t))
    (hwritten : ∀ t ∈ ts, after t.1 = (part t (s t.1)).2)
    (hothers : ∀ name, (∀ t ∈ ts, t.1 ≠ name) → after name = s name)
    (order : List (String × DesiredState)) (horder : order.Perm ts) :
    (∀ attempt ∈ (each call order s).1, attempt.acquired = true) ∧
      ((each call order s).1.filterMap TransitionAttempt.lease).Perm (ts.map leaseFor) ∧
      (each call order s).2 = after := by
  obtain ⟨hanswers, hvalues, hrest⟩ :=
    hacts.each_of_nodup ((horder.map Prod.fst).nodup_iff.mpr hnodup) s
  refine ⟨fun attempt hattempt => ?_, ?_, funext fun name => ?_⟩
  · rw [hanswers] at hattempt
    obtain ⟨t, ht, rfl⟩ := mem_map.mp hattempt
    exact (hanswer t (horder.subset ht)).1
  · have hleases : (each call order s).1.filterMap TransitionAttempt.lease =
        order.map leaseFor := by
      rw [hanswers, filterMap_map, ← filterMap_eq_map]
      exact filterMap_congr fun t ht => (hanswer t (horder.subset ht)).2
    rw [hleases]
    exact horder.map leaseFor
  · by_cases hname : ∃ t ∈ ts, t.1 = name
    · obtain ⟨t, ht, rfl⟩ := hname
      rw [hvalues t (horder.mem_iff.mpr ht), hwritten t ht]
    have hfar : ∀ t ∈ ts, t.1 ≠ name := fun t ht heq => hname ⟨t, ht, heq⟩
    rw [hothers name hfar]
    refine hrest name fun hmem => ?_
    obtain ⟨t, ht, heq⟩ := mem_map.mp hmem
    exact hfar t (horder.subset ht) heq

/-- So it does in memory. -/
theorem InMemory.beginsSingly (transitions : List (String × DesiredState)) (owner : String)
    (now ttl : ℚ) (reason : String) (records : Records) :
    inMemoryStore.BeginsSingly transitions owner now ttl reason records := by
  by_cases hempty : normalizeGroupTransitions transitions = []
  · exact .of_refused "empty_group" (if_pos hempty)
  by_cases hprogress : ∃ t ∈ normalizeGroupTransitions transitions,
      InProgress (current records t.1 now) now
  · exact .of_refused "transition_in_progress" ((if_neg hempty).trans (if_pos hprogress))
  refine .of_acquired ((if_neg hempty).trans (if_neg hprogress)) fun order horder => ?_
  have hnodup := normalizeGroupTransitions_nodup transitions
  obtain ⟨hwritten, hothers⟩ := foldl_update
    (fun t => begun (current records t.1 now) t.2 owner now ttl reason)
    (normalizeGroupTransitions transitions) hnodup records
  have hpart : ∀ t ∈ normalizeGroupTransitions transitions,
      beginAt owner now ttl reason t (records t.1) =
        let next := begun (current records t.1 now) t.2 owner now ttl reason
        ({ acquired := true
           lease := some (leaseOf t.1 owner next)
           reason := "acquired"
           record := some next }, some next) := by
    intro t ht
    have hcurrent : current (fun _ => records t.1) t.1 now =
        current records t.1 now := rfl
    unfold beginAt begin
    simp only [hcurrent]
    rw [if_neg fun h => hprogress ⟨t, ht, h⟩]
    exact Prod.ext rfl (Function.update_self ..)
  refine begun_singly (begin_actsAt owner now ttl reason) hnodup
    (fun t ht => ?_) (fun t ht => ?_) hothers order horder
  · rw [hpart t ht]
    exact ⟨rfl, rfl⟩
  · rw [hpart t ht]
    exact hwritten t ht

/-- The leases that the writing loop of the group script reports. -/
theorem Redis.beginEach_leases (owner : String) (now ttl : ℚ) (reason : String)
    (ts : List (String × DesiredState)) (hnodup : (ts.map Prod.fst).Nodup)
    (hashes : Hashes) :
    (beginEach owner now ttl reason ts hashes).1 = ts.map fun t =>
      { bundleName := t.1
        owner := owner
        generationFence := (fields hashes t.1).generationFence.getD 0 + 1
        transitionId := (fields hashes t.1).transitionId.getD 0 + 1
        expiresAt := now + ttl } := by
  induction ts generalizing hashes with
  | nil => rfl
  | cons t ts ih =>
    rw [map_cons, nodup_cons] at hnodup
    simp only [beginEach, map_cons, ih hnodup.2]
    refine congrArg₂ _ rfl (map_congr_left fun t' ht' => ?_)
    have hne : t'.1 ≠ t.1 := fun heq => hnodup.1 (heq ▸ mem_map_of_mem ht')
    simp [fields, hne]

/-- A group begins as its bundles begin one by one. -/
theorem Redis.beginsSingly (transitions : List (String × DesiredState)) (owner : String)
    (now ttl : ℚ) (reason : String) (hashes : Hashes) :
    redisStore.BeginsSingly transitions owner now ttl reason hashes := by
  by_cases hempty : normalizeGroupTransitions transitions = []
  · exact .of_refused "empty_group" (if_pos hempty)
  by_cases hprogress : ∃ t ∈ normalizeGroupTransitions transitions,
      InProgress (fields hashes t.1) now
  · exact .of_refused "transition_in_progress" ((if_neg hempty).trans (if_pos hprogress))
  refine .of_acquired ((if_neg hempty).trans (if_neg hprogress)) fun order horder => ?_
  have hnodup := normalizeGroupTransitions_nodup transitions
  obtain ⟨hwritten, hothers⟩ := beginEach_written owner now ttl reason
    (normalizeGroupTransitions transitions) hnodup hashes
  have hpart : ∀ t ∈ normalizeGroupTransitions transitions,
      beginAt owner now ttl reason t (hashes t.1) =
        let h := begun (fields hashes t.1) t.1 t.2 owner now ttl reason
        ({ acquired := true
           lease := some
            { bundleName := t.1
              owner := owner
              generationFence := (fields hashes t.1).generationFence.getD 0 + 1
              transitionId := (fields hashes t.1).transitionId.getD 0 + 1
              expiresAt := now + ttl }
           reason := "acquired"
           record := some (fromFields t.1 h) }, some h) := by
    intro t ht
    have hfields : fields (fun _ => hashes t.1) t.1 = fields hashes t.1 := rfl
    unfold beginAt begin
    simp only [hfields]
    rw [if_neg fun h => hprogress ⟨t, ht, h⟩]
    exact Prod.ext rfl (Function.update_self ..)
  rw [beginEach_leases owner now ttl reason _ hnodup]
  refine begun_singly (begin_actsAt owner now ttl reason) hnodup
    (fun t ht => ?_) (fun t ht => ?_) hothers order horder
  · rw [hpart t ht]
    exact ⟨rfl, rfl⟩
  · rw [hpart t ht]
    exact hwritten t ht

end Begins

/-! ## Renewing and finishing -/

section Holders

variable {leases : List BundleTransitionLease} {now : ℚ}

/-- What a call for the holder of a lease does with the record of its bundle. -/
def InMemory.holderAt (now : ℚ) (write : BundleLifecycleRecord → BundleLifecycleRecord)
    (lease : BundleTransitionLease) (record : Option BundleLifecycleRecord) :
    Bool × Option BundleLifecycleRecord :=
  let r := forHolder lease now write fun _ => record
  (r.1, r.2 lease.bundleName)

/-- What a call for the holder of a lease does with the hash of its bundle. -/
def Redis.holderAt (now : ℚ) (write : BundleHash → BundleHash)
    (lease : BundleTransitionLease) (h : Option BundleHash) :
    Bool × Option BundleHash :=
  let r := forHolder lease now write fun _ => h
  (r.1, r.2 lease.bundleName)

theorem InMemory.holder_actsAt (now : ℚ)
    (write : BundleLifecycleRecord → BundleLifecycleRecord) :
    ActsAt BundleTransitionLease.bundleName (holderAt now write)
      (fun lease => forHolder lease now write) := by
  intro lease records
  unfold holderAt forHolder
  have hself : Function.update records lease.bundleName (records lease.bundleName) = records :=
    Function.update_eq_self ..
  cases hrecord : records lease.bundleName with
  | none =>
    rw [hrecord] at hself
    simp [hrecord, hself]
  | some record =>
    rw [hrecord] at hself
    by_cases hholds : Holds lease record now
    · simp [hrecord, hholds]
    · simp [hrecord, hholds, hself]

theorem Redis.holder_actsAt (now : ℚ) (write : BundleHash → BundleHash) :
    ActsAt BundleTransitionLease.bundleName (holderAt now write)
      (fun lease => forHolder lease now write) := by
  intro lease hashes
  have hfields : fields (fun _ => hashes lease.bundleName) lease.bundleName =
      fields hashes lease.bundleName := rfl
  unfold holderAt forHolder
  simp only [hfields]
  split <;> simp

variable {write : BundleLifecycleRecord → BundleLifecycleRecord}

/-- A write that may be repeated, by the holder or not, is kept. -/
theorem InMemory.holderAt_keeps
    (hidem : ∀ record, write (write record) = write record) (lease : BundleTransitionLease)
    (record : Option BundleLifecycleRecord) :
    (holderAt now write lease (record.map write)).2 = record.map write := by
  unfold holderAt forHolder
  cases record with
  | none => rfl
  | some record =>
    simp only [Option.map_some]
    split
    · simp [hidem]
    · rfl

theorem Redis.holderAt_keeps {write : BundleHash → BundleHash}
    (hidem : ∀ h, write (write h) = write h) (lease : BundleTransitionLease)
    (h : BundleHash) :
    (holderAt now write lease (some (write h))).2 = some (write h) := by
  unfold holderAt forHolder fields
  simp only [Option.getD_some]
  split
  · simp [hidem]
  · rfl

/-- A call of a group of leases in memory acts as the calls of its leases do. -/
theorem InMemory.forHolders_actsSingly {records : Records}
    (hnamed : Named records) (leases : List BundleTransitionLease)
    (hidem : ∀ record, write (write record) = write record) :
    inMemoryStore.ActsSingly (fun lease => forHolder lease now write) leases records
      (forHolders leases now write records) := by
  rw [forHolders_eq]
  split
  · rename_i hheld
    have hpart : ∀ lease ∈ leases, holderAt now write lease
        (records lease.bundleName) = (true, (records lease.bundleName).map write) := by
      intro lease hlease
      obtain ⟨record, hrecord, hholds⟩ := hheld lease hlease
      have hrecord : records lease.bundleName = some record := hrecord
      unfold holderAt forHolder
      rw [hrecord]
      simp [hholds]
    refine Or.inr ⟨rfl, fun lease hlease => ?_, fun order horder => ?_⟩
    · have haccepted := holder_actsAt now write lease records
      rw [hpart lease hlease] at haccepted
      exact congrArg Prod.fst haccepted
    · refine ((holder_actsAt now write).each_of_settled
        (fun name => (records name).map write) order (s := records)
        (fun lease hlease => congrArg Prod.snd (hpart lease (horder.subset hlease)))
        fun lease _ => holderAt_keeps hidem lease _).trans (funext fun name => ?_)
      exact (if_congr (horder.map _).mem_iff rfl rfl).trans
        (foldl_held write hnamed hheld _).symm
  · exact Or.inl rfl

/-- A group script acts as the scripts of its leases do, if they have one owner. -/
theorem Redis.forHolders_actsSingly (hashes : Hashes)
    (howner : ∀ a ∈ leases, ∀ b ∈ leases, a.owner = b.owner)
    {write : BundleHash → BundleHash} (hidem : ∀ h, write (write h) = write h) :
    redisStore.ActsSingly (fun lease => forHolder lease now write) leases hashes
      (forHolders leases now write hashes) := by
  unfold forHolders
  cases leases with
  | nil => exact Or.inl rfl
  | cons first rest =>
    simp only
    split
    · rename_i hheld
      have hpart : ∀ lease ∈ first :: rest, holderAt now write lease
          (hashes lease.bundleName) =
            (true, some (write (fields hashes lease.bundleName))) := by
        intro lease hlease
        have hholds := hheld lease hlease
        rw [howner first mem_cons_self lease hlease] at hholds
        have hfields : fields (fun _ => hashes lease.bundleName) lease.bundleName =
            fields hashes lease.bundleName := rfl
        unfold holderAt forHolder
        simp [hfields, hholds]
      refine Or.inr ⟨rfl, fun lease hlease => ?_, fun order horder => ?_⟩
      · have haccepted := holder_actsAt now write lease hashes
        rw [hpart lease hlease] at haccepted
        exact congrArg Prod.fst haccepted
      · refine ((holder_actsAt now write).each_of_settled
          (fun name => some (write (fields hashes name))) order (s := hashes)
          (fun lease hlease => congrArg Prod.snd (hpart lease (horder.subset hlease)))
          fun lease _ => holderAt_keeps hidem lease _).trans (funext fun name => ?_)
        exact (if_congr (horder.map _).mem_iff rfl rfl).trans
          (foldl_write write hidem _ _ _).symm
    · exact Or.inl rfl

end Holders

/-! ## Every group call -/

/-- The records of every reachable state stand under their own names. -/
theorem InMemory.named_reached (ops : List TransitionOp) :
    Named (inMemoryStore.reached ops) := by
  have hstep : ∀ (op : TransitionOp) (records : Records),
      (inMemoryStore.answer op records).2 = (inMemoryStore.step op records).2 := by
    intro op records
    cases op <;> rfl
  have hrun : ∀ (ops : List TransitionOp) (records : Records),
      Named records → Named (final inMemoryStore.answer records ops) := by
    intro ops
    induction ops with
    | nil => exact fun _ hnamed => hnamed
    | cons op ops ih =>
      intro records hnamed
      refine ih _ ?_
      rw [hstep]
      exact (raises hnamed op).2
  exact hrun ops _ fun _ _ hrecord => (by cases hrecord)

/-- The error text that `finish_group` of the in-memory store falls back to. -/
def groupFailure (error : Option String) : Option String :=
  some ((nonempty error).getD "bundle transition group failed")

theorem InMemory.finished_groupFailure (success : Bool) (now : ℚ) (reason : String)
    (error : Option String) :
    finished success now reason (groupFailure error) "bundle transition failed" =
      finished success now reason error "bundle transition group failed" := by
  funext record
  have hgroup : (nonempty (groupFailure error)).getD "bundle transition failed" =
      (nonempty error).getD "bundle transition group failed" := by
    unfold groupFailure
    cases herror : nonempty error with
    | none => rfl
    | some text =>
      have htext : nonempty (some text) = some text :=
        nonempty_eq_some.mpr ⟨(nonempty_eq_some.mp herror).1, rfl⟩
      exact congrArg (Option.getD · _) htext
  unfold finished
  rw [hgroup]

theorem InMemory.finished_idem (success : Bool) (now : ℚ) (reason : String)
    (error : Option String) (defaultError : String) (record : BundleLifecycleRecord) :
    finished success now reason error defaultError
        (finished success now reason error defaultError record) =
      finished success now reason error defaultError record := by
  unfold finished
  by_cases hreason : reason = "" <;> cases success <;> simp [hreason]

/-- **Groups act singly.**  In every reachable state of both stores a group call is all or nothing
and equal to its parts in any order; in memory a group that fails without an error text has one of
its own. -/
theorem groups_act_singly (ops : List TransitionOp) :
    inMemoryStore.GroupsActSingly groupFailure (inMemoryStore.reached ops) ∧
      redisStore.GroupsActSingly id (redisStore.reached ops) := by
  constructor
  · have hnamed := named_reached ops
    refine ⟨fun _ _ _ _ _ => beginsSingly .., ?_, ?_⟩
    · intro leases hne _ now ttl
      have heq : inMemoryStore.renewGroup leases now ttl (inMemoryStore.reached ops) =
          forHolders leases now (renewed now ttl) (inMemoryStore.reached ops) :=
        if_neg hne
      rw [heq]
      exact forHolders_actsSingly hnamed leases fun _ => rfl
    · intro leases _ _ success now reason error
      show inMemoryStore.ActsSingly (fun lease => forHolder lease now
        (finished success now reason (groupFailure error) "bundle transition failed"))
        leases _ (finishGroup leases success now reason error _)
      rw [InMemory.finished_groupFailure]
      exact InMemory.forHolders_actsSingly hnamed leases fun record => InMemory.finished_idem ..
  · refine ⟨fun _ _ _ _ _ => beginsSingly .., ?_, ?_⟩
    · intro leases _ howner now ttl
      exact forHolders_actsSingly _ howner (renewed_idem ttl)
    · intro leases _ howner success now reason error
      exact forHolders_actsSingly _ howner (finished_idem success reason error)

def oneBegun : List TransitionOp := [.begin "b" .running "o" 1 60 "start"]

/-- A group of one bundle that fails without an error text leaves another text than the bundle
alone does. -/
theorem oneBegun_not_groupsActSingly :
    ¬ inMemoryStore.GroupsActSingly id (inMemoryStore.reached oneBegun) := by
  intro h
  have hfinishes := h.finishes [⟨"b", "o", 1, 1, 61⟩] (by decide) (by decide) false 2 "" none
  rcases hfinishes with hrefused | ⟨-, -, heach⟩
  · exact absurd (congrArg Prod.fst hrefused) (by decide +kernel)
  have hrecord := congrArg
    (fun records : Records => (records "b").map BundleLifecycleRecord.lastError)
    (heach _ (Perm.refl _))
  exact absurd hrecord (by decide +kernel)

end GpuManager.Lifecycle
