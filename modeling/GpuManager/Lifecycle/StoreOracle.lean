import GpuManager.Lib.Machine
import GpuManager.Lifecycle.Fences

/-!
# The two lifecycle stores as one

The in-memory store stands in for the Redis store, so the same calls should be accepted by
both and leave the same records.  Each call is written twice, as a `replace` of a dataclass
and as a list of fields in a script, and two of the pairs have drifted apart.

* `begin` notes the time in `last_restart_at` in memory.  The scripts of Redis do not.
* A successful `finish` resets the restart bookkeeping in Redis.  In memory it does not.

Nothing in the stores themselves reads the three fields of the bookkeeping, so the drift is
silent there: the same calls are accepted afterwards, and the next `record_recovery` writes
the bookkeeping as a whole and ends the drift.  It is `reduce_recovery` that reads them.

Groups differ too.  The scripts compare every bundle of a group with the owner of its *first*
lease, and a group without leases is finished in memory and refused by Redis.

The theorem of this module says that this is all: the stores agree along a run if and only if
none of its calls meets one of these differences.
-/

namespace GpuManager.Lifecycle

open Machine PythonText InMemory Function List

/-- What the two stores are compared in: the desired state, the recovery state, the fence
and the owner. -/
structure BundleView where
  desiredState : DesiredState
  recovery : RecoveryState
  generationFence : ℤ
  transitionOwner : Option String
  deriving DecidableEq

def BundleLifecycleRecord.view (record : BundleLifecycleRecord) : BundleView :=
  { desiredState := record.desiredState
    recovery := record.recovery
    generationFence := record.generationFence
    transitionOwner := record.transitionOwner }

/-- `get`, where the clock dates a bundle without a record. -/
def InMemory.get (records : Records) (bundleName : String) (clock : ℚ) :
    BundleLifecycleRecord :=
  current records bundleName clock

/-- `get`. -/
def Redis.get (hashes : Redis.Hashes) (bundleName : String) : BundleLifecycleRecord :=
  Redis.fromFields bundleName (Redis.fields hashes bundleName)

def BundleLifecycleStore.answer (store : BundleLifecycleStore) :
    TransitionOp → store.State → Bool × store.State
  | .begin bundleName desiredState owner now ttl reason, s =>
    let r := store.begin bundleName desiredState owner now ttl reason s
    (r.1.acquired, r.2)
  | .beginGroup transitions owner now ttl reason, s =>
    let r := store.beginGroup transitions owner now ttl reason s
    (r.1.acquired, r.2)
  | .renew lease now ttl, s => store.renew lease now ttl s
  | .renewGroup leases now ttl, s => store.renewGroup leases now ttl s
  | .finish lease success now reason error, s =>
    store.finish lease success now reason error s
  | .finishGroup leases success now reason error, s =>
    store.finishGroup leases success now reason error s
  | .recordRecovery bundleName desiredState recovery now reason, s =>
    store.recordRecovery bundleName desiredState recovery now reason s
  | .expire bundleName now, s => (false, store.expire bundleName now s)

/-- A call with a non-empty owner.  No key of Redis expires. -/
def TransitionOp.Proper : TransitionOp → Prop
  | .begin _ _ owner _ _ _ => owner ≠ ""
  | .beginGroup _ owner _ _ _ => owner ≠ ""
  | .renew lease _ _ => lease.owner ≠ ""
  | .renewGroup leases _ _ => ∀ lease ∈ leases, lease.owner ≠ ""
  | .finish lease _ _ _ _ => lease.owner ≠ ""
  | .finishGroup leases _ _ _ _ => ∀ lease ∈ leases, lease.owner ≠ ""
  | .recordRecovery _ _ _ _ _ => True
  | .expire _ _ => False

def bothStores (op : TransitionOp) (st : Records × Redis.Hashes) :
    (Bool × Bool) × Records × Redis.Hashes :=
  pair inMemoryStore.answer redisStore.answer op st

def noBundles : Records × Redis.Hashes := (fun _ => none, fun _ => none)

def SameRecords (st : Records × Redis.Hashes) : Prop :=
  ∀ bundleName clock,
    (get st.1 bundleName clock).view = (Redis.get st.2 bundleName).view

/-- The call is accepted by both stores or by none, and they hold the same records after
it. -/
structure StoresAgree (v : Visit TransitionOp (Records × Redis.Hashes)) : Prop where
  answer : (bothStores v.op v.before).1.1 = (bothStores v.op v.before).1.2
  records : SameRecords (bothStores v.op v.before).2

/-! ## The calls that fit -/

def InMemory.Held (lease : BundleTransitionLease) (now : ℚ) (records : Records) :
    Prop :=
  ∃ record ∈ records lease.bundleName, Holds lease record now

instance (lease : BundleTransitionLease) (now : ℚ) (records : Records) :
    Decidable (Held lease now records) :=
  inferInstanceAs (Decidable (∃ record ∈ records lease.bundleName, _))

/-- The same lease with the owner that the group scripts look for. -/
def ownedByFirst (leases : List BundleTransitionLease) (lease : BundleTransitionLease) :
    BundleTransitionLease :=
  { lease with owner := (leases.head?.map BundleTransitionLease.owner).getD lease.owner }

/-- The leases of a group have one owner, or the group is refused, whichever owner is
compared. -/
def GroupFits (leases : List BundleTransitionLease) (now : ℚ) (records : Records) :
    Prop :=
  (∀ lease ∈ leases, ownedByFirst leases lease = lease) ∨
    (∃ lease ∈ leases, ¬ Held lease now records) ∧
      ∃ lease ∈ leases, ¬ Held (ownedByFirst leases lease) now records

/-- No restart is being counted. -/
def RecoveryState.Reset (recovery : RecoveryState) : Prop :=
  recovery.restartAttempts = 0 ∧ recovery.retryWindowStartedAt = none ∧
    recovery.lastRestartAt = none

/-- A transition that is begun finds its own time in `last_restart_at`, a transition that is
finished with success finds the bookkeeping reset, and a group that is finished has leases, of
one owner. -/
def TransitionOp.Fits (records : Records) : TransitionOp → Prop
  | .begin bundleName _ _ now _ _ =>
    ¬ InProgress (current records bundleName now) now →
      (current records bundleName now).recovery.lastRestartAt = some now
  | .beginGroup transitions _ now _ _ =>
    (∀ t ∈ normalizeGroupTransitions transitions,
      ¬ InProgress (current records t.1 now) now) →
      ∀ t ∈ normalizeGroupTransitions transitions,
        (current records t.1 now).recovery.lastRestartAt = some now
  | .renewGroup leases now _ => GroupFits leases now records
  | .finish lease success now _ _ =>
    success = true → Held lease now records →
      (current records lease.bundleName now).recovery.Reset
  | .finishGroup leases success now _ _ =>
    leases ≠ [] ∧ GroupFits leases now records ∧
      (success = true → (∀ lease ∈ leases, Held lease now records) →
        ∀ lease ∈ leases, (current records lease.bundleName now).recovery.Reset)
  | _ => True

instance (leases : List BundleTransitionLease) (now : ℚ) (records : Records) :
    Decidable (GroupFits leases now records) := by
  unfold GroupFits
  infer_instance

instance (recovery : RecoveryState) : Decidable recovery.Reset := by
  unfold RecoveryState.Reset
  infer_instance

instance (op : TransitionOp) : Decidable op.Proper := by
  cases op <;> unfold TransitionOp.Proper <;> infer_instance

instance (records : Records) (op : TransitionOp) : Decidable (op.Fits records) := by
  cases op <;> unfold TransitionOp.Fits <;> infer_instance

/-! ## One bundle in both stores -/

/-- What has to go with the compared fields for the stores to go on alike: the same expiry,
and both counters of a bundle that has an owner. -/
structure Tied (record : BundleLifecycleRecord) (h : Redis.BundleHash) : Prop where
  expires : h.transitionExpiresAt.getD 0 = record.transitionExpiresAt
  counted : (nonempty h.transitionOwner).isSome →
    h.generationFence.isSome ∧ h.transitionId.isSome

structure Mirrors (bundleName : String) (record : BundleLifecycleRecord) (h : Redis.BundleHash) :
    Prop extends Tied record h where
  view : record.view = (Redis.fromFields bundleName h).view

section Bundle

variable {bundleName : String} {record : BundleLifecycleRecord} {h : Redis.BundleHash} {now : ℚ}

variable {s : Option String}

theorem nonempty_eq_some {owner : String} :
    nonempty s = some owner ↔ owner ≠ "" ∧ s = some owner := by
  simp [nonempty, Option.filter_eq_some_iff, and_comm]

theorem nonempty_isSome : (nonempty s).isSome ↔ s.getD "" ≠ "" := by
  cases s <;> simp [nonempty]

section

variable (hm : Mirrors bundleName record h)
include hm

theorem Mirrors.owner : record.transitionOwner = nonempty h.transitionOwner :=
  congrArg BundleView.transitionOwner hm.view

theorem Mirrors.recovery : record.recovery = (Redis.fromFields bundleName h).recovery :=
  congrArg BundleView.recovery hm.view

theorem Mirrors.inProgress_iff : Redis.InProgress h now ↔ InProgress record now := by
  unfold Redis.InProgress InProgress
  rw [hm.owner, hm.expires]
  refine and_congr_left fun _ => ?_
  rw [← nonempty_isSome]
  cases hh : nonempty h.transitionOwner with
  | none => simp [nonempty]
  | some owner =>
    obtain ⟨hne, -⟩ := nonempty_eq_some.mp hh
    simp [nonempty, hne]

variable {first lease : BundleTransitionLease}

/-- A script finds a lease current exactly when the record does, for a non-empty owner. -/
theorem Mirrors.holds_iff (howner : lease.owner ≠ "") :
    Redis.Holds lease.owner lease h now ↔ Holds lease record now := by
  unfold Redis.Holds Holds
  have hownerIff : h.transitionOwner.getD "" = lease.owner ↔
      record.transitionOwner = some lease.owner := by
    rw [hm.owner, nonempty_eq_some]
    cases hh : h.transitionOwner with
    | none => simpa using howner.symm
    | some owner => simp [howner]
  rw [hownerIff, hm.expires]
  refine and_congr_right fun hcurrent => ?_
  rw [hm.owner] at hcurrent
  obtain ⟨hfence, htransition⟩ := hm.counted (by rw [hcurrent]; rfl)
  obtain ⟨fence, hfence⟩ := Option.isSome_iff_exists.mp hfence
  obtain ⟨transition, htransition⟩ := Option.isSome_iff_exists.mp htransition
  have hfence' : record.generationFence = fence := by
    have := congrArg BundleView.generationFence hm.view
    simpa [BundleLifecycleRecord.view, Redis.fromFields, hfence] using this
  have htransition' : record.recovery.transitionId = transition := by
    simp [hm.recovery, Redis.fromFields, htransition]
  simp [hfence, htransition, hfence', htransition']

/-- What `begin` writes in the two stores differs in `last_restart_at` only. -/
theorem Mirrors.begun_view_iff {owner : String} (howner : owner ≠ "") (desiredState : DesiredState)
    (ttl : ℚ) (reason : String) :
    (begun record desiredState owner now ttl reason).view =
        (Redis.fromFields bundleName
          (Redis.begun h bundleName desiredState owner now ttl reason)).view ↔
      record.recovery.lastRestartAt = some now := by
  have hrecovery := hm.recovery
  have hfence := congrArg BundleView.generationFence hm.view
  simp only [BundleLifecycleRecord.view, Redis.fromFields] at hrecovery hfence
  simp only [BundleLifecycleRecord.view, begun, Redis.fromFields, Redis.begun,
    BundleView.mk.injEq, RecoveryState.mk.injEq, hrecovery, hfence, Option.getD_some, true_and]
  have hnonempty : nonempty (some owner) = some owner := nonempty_eq_some.mpr ⟨howner, rfl⟩
  rw [hnonempty]
  simp [eq_comm]

end

theorem begun_tied (desiredState : DesiredState) (owner : String) (ttl : ℚ) (reason : String)
    (record : BundleLifecycleRecord) (h : Redis.BundleHash) :
    Tied (begun record desiredState owner now ttl reason)
      (Redis.begun h bundleName desiredState owner now ttl reason) :=
  ⟨rfl, fun _ => ⟨rfl, rfl⟩⟩

/-- A renewal writes the same in the two stores. -/
theorem Mirrors.renewed (hm : Mirrors bundleName record h) (ttl : ℚ) :
    Mirrors bundleName (renewed now ttl record) (Redis.renewed now ttl h) :=
  ⟨⟨rfl, hm.counted⟩, hm.view⟩

/-- What a finish writes in the two stores differs in the restart bookkeeping only, and after
a failure in nothing. -/
theorem Mirrors.finished_view_iff (hm : Mirrors bundleName record h) (success : Bool)
    (reason : String) (error : Option String) (defaultError : String) :
    (finished success now reason error defaultError record).view =
        (Redis.fromFields bundleName (Redis.finished success now reason error h)).view ↔
      (success = true → record.recovery.Reset) := by
  have hrecovery := hm.recovery
  have hfence := congrArg BundleView.generationFence hm.view
  have hdesired := congrArg BundleView.desiredState hm.view
  have hempty : nonempty (some "") = none := rfl
  simp only [BundleLifecycleRecord.view, Redis.fromFields] at hrecovery hfence hdesired
  cases success with
  | false =>
    simp [BundleLifecycleRecord.view, finished, Redis.fromFields, Redis.finished,
      hrecovery, hfence, hdesired, hempty]
  | true =>
    simp [BundleLifecycleRecord.view, finished, Redis.fromFields, Redis.finished,
      RecoveryState.Reset, hrecovery, hfence, hdesired, hempty]

theorem finished_tied (success : Bool) (reason : String) (error : Option String)
    (defaultError : String) (record : BundleLifecycleRecord) (h : Redis.BundleHash) :
    Tied (finished success now reason error defaultError record)
      (Redis.finished success now reason error h) := by
  cases success with
  | false | true => exact ⟨rfl, fun howner => absurd howner (by simp [Redis.finished, nonempty])⟩

end Bundle

/-! ## Both stores -/

structure StoresMirror (st : Records × Redis.Hashes) : Prop where
  named : Named st.1
  mirrors : ∀ bundleName, Mirrors bundleName (current st.1 bundleName 0)
    (Redis.fields st.2 bundleName)

theorem InMemory.current_view (records : Records) (bundleName : String)
    (now now' : ℚ) :
    (current records bundleName now).view =
        (current records bundleName now').view ∧
      (current records bundleName now).transitionExpiresAt =
        (current records bundleName now').transitionExpiresAt := by
  unfold current
  cases records bundleName with
  | none | some record => exact ⟨rfl, rfl⟩

section Stores

variable {st st' : Records × Redis.Hashes} {op : TransitionOp} {now : ℚ}

theorem StoresMirror.at (hst : StoresMirror st) (bundleName : String) (now : ℚ) :
    Mirrors bundleName (current st.1 bundleName now) (Redis.fields st.2 bundleName) := by
  have hm := hst.mirrors bundleName
  obtain ⟨hview, hexpires⟩ := current_view st.1 bundleName now 0
  exact ⟨⟨hm.expires.trans hexpires.symm, hm.counted⟩, hview.trans hm.view⟩

theorem StoresMirror.sameRecords (hst : StoresMirror st) : SameRecords st :=
  fun bundleName clock => (hst.at bundleName clock).view

variable {records : Records} {hashes : Redis.Hashes} {owner : String}

theorem held_iff :
    Held lease now records ↔
      Holds lease (current records lease.bundleName now) now := by
  unfold Held current
  cases records lease.bundleName with
  | none => simp [Holds]
  | some record => simp

/-- A script finds a lease current exactly when it is held in memory. -/
theorem StoresMirror.holds_iff (hst : StoresMirror st) (howner : lease.owner ≠ "") :
    Redis.Holds lease.owner lease (Redis.fields st.2 lease.bundleName) now ↔
      Held lease now st.1 := by
  rw [held_iff]
  exact (hst.at lease.bundleName now).holds_iff howner

/-- What a call that both stores accept does: it writes the bundles of some items. -/
structure Rewrites {ι : Type} (items : List ι) (name : ι → String)
    (inMemory : ι → BundleLifecycleRecord) (inRedis : ι → Redis.BundleHash)
    (st st' : Records × Redis.Hashes) : Prop where
  written : ∀ i ∈ items,
    st'.1 (name i) = some (inMemory i) ∧ st'.2 (name i) = some (inRedis i)
  others : ∀ bundleName, (∀ i ∈ items, name i ≠ bundleName) →
    st'.1 bundleName = st.1 bundleName ∧ st'.2 bundleName = st.2 bundleName

variable {ι : Type} {items : List ι} {name : ι → String} {inMemory : ι → BundleLifecycleRecord}
  {inRedis : ι → Redis.BundleHash}

/-- After such a call the stores hold the same records exactly when they do for the bundles
it wrote. -/
theorem Rewrites.sameRecords_iff (hrw : Rewrites items name inMemory inRedis st st')
    (hst : StoresMirror st) :
    SameRecords st' ↔ ∀ i ∈ items,
      (inMemory i).view = (Redis.fromFields (name i) (inRedis i)).view := by
  have hwritten : ∀ i ∈ items, ∀ clock, InMemory.get st'.1 (name i) clock = inMemory i ∧
      Redis.get st'.2 (name i) = Redis.fromFields (name i) (inRedis i) := by
    intro i hi clock
    obtain ⟨hm, hr⟩ := hrw.written i hi
    simp [InMemory.get, InMemory.current, Redis.get, Redis.fields, hm, hr]
  constructor
  · intro hsame i hi
    have := hsame (name i) 0
    rwa [(hwritten i hi 0).1, (hwritten i hi 0).2] at this
  · intro hsame bundleName clock
    by_cases hname : ∃ i ∈ items, name i = bundleName
    · obtain ⟨i, hi, rfl⟩ := hname
      rw [(hwritten i hi clock).1, (hwritten i hi clock).2]
      exact hsame i hi
    · obtain ⟨hm, hr⟩ := hrw.others bundleName fun i hi heq => hname ⟨i, hi, heq⟩
      have := hst.sameRecords bundleName clock
      simpa [InMemory.get, InMemory.current, Redis.get, Redis.fields, hm, hr] using this

theorem Rewrites.storesMirror (hrw : Rewrites items name inMemory inRedis st st')
    (hst : StoresMirror st) (hnames : ∀ i ∈ items, (inMemory i).bundleName = name i)
    (htied : ∀ i ∈ items, Tied (inMemory i) (inRedis i)) (hsame : SameRecords st') :
    StoresMirror st' := by
  refine ⟨fun bundleName record hrecord => ?_, fun bundleName => ⟨?_, hsame bundleName 0⟩⟩
  · by_cases hname : ∃ i ∈ items, name i = bundleName
    · obtain ⟨i, hi, rfl⟩ := hname
      rw [(hrw.written i hi).1] at hrecord
      exact Option.some.inj hrecord ▸ hnames i hi
    · rw [(hrw.others bundleName fun i hi heq => hname ⟨i, hi, heq⟩).1] at hrecord
      exact hst.named bundleName record hrecord
  · by_cases hname : ∃ i ∈ items, name i = bundleName
    · obtain ⟨i, hi, rfl⟩ := hname
      obtain ⟨hm, hr⟩ := hrw.written i hi
      simpa [current, Redis.fields, hm, hr] using htied i hi
    · obtain ⟨hm, hr⟩ := hrw.others bundleName fun i hi heq => hname ⟨i, hi, heq⟩
      have := (hst.mirrors bundleName).toTied
      simpa [current, Redis.fields, hm, hr] using this

theorem rewrites_update (bundleName : String) (record : BundleLifecycleRecord)
    (h : Redis.BundleHash) :
    Rewrites [bundleName] id (fun _ => record) (fun _ => h) st
      (update st.1 bundleName (some record), update st.2 bundleName (some h)) := by
  refine ⟨fun i hi => ?_, fun other hother => ?_⟩
  · obtain rfl := mem_singleton.mp hi
    exact ⟨update_self .., update_self ..⟩
  · have hne : other ≠ bundleName := (hother bundleName (mem_singleton_self _)).symm
    exact ⟨update_of_ne hne .., update_of_ne hne ..⟩

/-- A call is decided: the stores agree on it exactly when the condition holds, and then go on
alike. -/
def Decided (op : TransitionOp) (st : Records × Redis.Hashes) (fits : Prop) : Prop :=
  (StoresAgree ⟨op, st⟩ ↔ fits) ∧ (StoresAgree ⟨op, st⟩ → StoresMirror (bothStores op st).2)

theorem Decided.congr {p q : Prop} (h : Decided op st p) (hpq : p ↔ q) : Decided op st q := by
  rwa [← propext hpq]

theorem bothStores_eq {a b : Bool} (hmemory : inMemoryStore.answer op st.1 = (a, records))
    (hredis : redisStore.answer op st.2 = (b, hashes)) :
    bothStores op st = ((a, b), (records, hashes)) := by
  unfold bothStores pair
  rw [hmemory, hredis]

/-- **One call.**  Both stores accept it under a condition of their own, and then write the
bundles of some items.  They agree on it exactly when the conditions are both met or both not,
and what they write is the same. -/
theorem decided (hst : StoresMirror st) {p q fits : Prop} [Decidable p] [Decidable q]
    (hmemory : inMemoryStore.answer op st.1 = if p then (true, records) else (false, st.1))
    (hredis : redisStore.answer op st.2 = if q then (true, hashes) else (false, st.2))
    (hrw : p → Rewrites items name inMemory inRedis st (records, hashes))
    (hnames : ∀ i ∈ items, (inMemory i).bundleName = name i)
    (htied : p → ∀ i ∈ items, Tied (inMemory i) (inRedis i)) (hfits : (q ↔ p) ∧ (p → ∀ i ∈ items,
      (inMemory i).view = (Redis.fromFields (name i) (inRedis i)).view) ↔ fits) :
    Decided op st fits := by
  rw [Decided, ← hfits]
  by_cases hp : p <;> by_cases hq : q
  · have heq := bothStores_eq (hmemory.trans (if_pos hp)) (hredis.trans (if_pos hq))
    have hiff := (hrw hp).sameRecords_iff hst
    refine ⟨⟨fun h => ⟨iff_of_true hq hp, fun _ => ?_⟩, fun h => ⟨?_, ?_⟩⟩, fun h => ?_⟩
    · have hsame := h.records
      rw [heq] at hsame
      exact hiff.mp hsame
    · rw [heq]
    · rw [heq]
      exact hiff.mpr (h.2 hp)
    · have hsame := h.records
      rw [heq] at hsame ⊢
      exact (hrw hp).storesMirror hst hnames (htied hp) hsame
  · have heq := bothStores_eq (hmemory.trans (if_pos hp)) (hredis.trans (if_neg hq))
    have hne : ¬ StoresAgree ⟨op, st⟩ := fun h => by
      have hanswer := h.answer
      rw [heq] at hanswer
      cases hanswer
    exact ⟨iff_of_false hne fun h => hq (h.1.mpr hp), fun h => absurd h hne⟩
  · have heq := bothStores_eq (hmemory.trans (if_neg hp)) (hredis.trans (if_pos hq))
    have hne : ¬ StoresAgree ⟨op, st⟩ := fun h => by
      have hanswer := h.answer
      rw [heq] at hanswer
      cases hanswer
    exact ⟨iff_of_false hne fun h => hp (h.1.mp hq), fun h => absurd h hne⟩
  · have heq := bothStores_eq (hmemory.trans (if_neg hp)) (hredis.trans (if_neg hq))
    refine ⟨iff_of_true ⟨?_, ?_⟩ ⟨iff_of_false hq hp, fun h => absurd h hp⟩, fun _ => ?_⟩
    · rw [heq]
    · rw [heq]
      exact hst.sameRecords
    · rw [heq]
      exact hst

/-! ## Calls for one bundle -/

theorem InMemory.answer_begin (bundleName : String) (desiredState : DesiredState)
    (owner : String) (now ttl : ℚ) (reason : String) (records : Records) :
    inMemoryStore.answer (.begin bundleName desiredState owner now ttl reason) records =
      if ¬ InProgress (current records bundleName now) now then
        (true, update records bundleName (some (begun
          (current records bundleName now) desiredState owner now ttl reason)))
      else (false, records) := by
  rw [ite_not]
  show ((begin bundleName desiredState owner now ttl reason records).1.acquired,
    (begin bundleName desiredState owner now ttl reason records).2) = _
  unfold begin
  split <;> rfl

theorem Redis.answer_begin (bundleName : String) (desiredState : DesiredState) (owner : String)
    (now ttl : ℚ) (reason : String) (hashes : Redis.Hashes) :
    redisStore.answer (.begin bundleName desiredState owner now ttl reason) hashes =
      if ¬ Redis.InProgress (Redis.fields hashes bundleName) now then
        (true, update hashes bundleName (some (Redis.begun
          (Redis.fields hashes bundleName) bundleName desiredState owner now ttl reason)))
      else (false, hashes) := by
  rw [ite_not]
  show ((Redis.begin bundleName desiredState owner now ttl reason hashes).1.acquired,
    (Redis.begin bundleName desiredState owner now ttl reason hashes).2) = _
  unfold Redis.begin
  split <;> rfl

theorem begin_decided (hst : StoresMirror st) (howner : owner ≠ "")
    (bundleName : String) (desiredState : DesiredState) (now ttl : ℚ) (reason : String) :
    Decided (.begin bundleName desiredState owner now ttl reason) st
      (TransitionOp.Fits st.1 (.begin bundleName desiredState owner now ttl reason)) := by
  have hm := hst.at bundleName now
  refine decided hst (answer_begin ..) (Redis.answer_begin ..)
    (fun _ => rewrites_update ..) ?_ (fun _ _ _ => begun_tied ..) ?_
  · rw [forall_mem_singleton]
    exact current_bundleName hst.named _ _
  · rw [forall_mem_singleton, and_iff_right (not_congr hm.inProgress_iff)]
    exact forall_congr' fun _ => hm.begun_view_iff howner ..

theorem recordRecovery_decided (hst : StoresMirror st) (bundleName : String)
    (desiredState : DesiredState) (recovery : RecoveryState) (now : ℚ) (reason : String) :
    Decided (.recordRecovery bundleName desiredState recovery now reason) st True := by
  have hm := hst.at bundleName now
  refine decided hst (ite_not _ _ _).symm (ite_not _ _ _).symm
    (fun _ => rewrites_update ..) ?_ (fun _ _ _ => ⟨hm.expires, fun h => ?_⟩) ?_
  · rw [forall_mem_singleton]
    exact current_bundleName hst.named _ _
  · exact ⟨(hm.counted h).1, rfl⟩
  · rw [forall_mem_singleton, and_iff_right (not_congr hm.inProgress_iff)]
    have hfence := congrArg BundleView.generationFence hm.view
    refine iff_of_true (fun _ => ?_) trivial
    simp only [BundleLifecycleRecord.view, Redis.fromFields, BundleView.mk.injEq]
    exact ⟨rfl, rfl, hfence, hm.owner⟩

section Holder

/-! A renewal and a finish, of one bundle or of a group, are a write for the holders of
leases. -/

variable (write : BundleLifecycleRecord → BundleLifecycleRecord)
  (write' : Redis.BundleHash → Redis.BundleHash) (fits : BundleLifecycleRecord → Prop)

theorem InMemory.forHolder_eq (lease : BundleTransitionLease) (now : ℚ)
    (records : Records) :
    forHolder lease now write records =
      if Held lease now records then
        (true, update records lease.bundleName
          (some (write (current records lease.bundleName now))))
      else (false, records) := by
  unfold forHolder
  split
  · rename_i hnone
    rw [if_neg]
    rintro ⟨record, hrecord, -⟩
    rw [hnone] at hrecord
    cases hrecord
  · rename_i record hrecord
    simp [Held, current, hrecord]

theorem forHolder_decided (hst : StoresMirror st) (howner : lease.owner ≠ "")
    (hmemory : inMemoryStore.answer op st.1 = forHolder lease now write st.1)
    (hredis : redisStore.answer op st.2 = Redis.forHolder lease now write' st.2)
    (hname : ∀ record, (write record).bundleName = record.bundleName)
    (htied : ∀ record h, Mirrors lease.bundleName record h → Tied (write record) (write' h))
    (hview : ∀ record h, Mirrors lease.bundleName record h →
      ((write record).view = (Redis.fromFields lease.bundleName (write' h)).view ↔ fits record)) :
    Decided op st (Held lease now st.1 →
      fits (current st.1 lease.bundleName now)) := by
  have hm := hst.at lease.bundleName now
  refine decided hst (hmemory.trans (forHolder_eq ..)) hredis
    (fun _ => rewrites_update ..) ?_ (fun _ _ _ => htied _ _ hm) ?_
  · rw [forall_mem_singleton, hname]
    exact current_bundleName hst.named _ _
  · rw [forall_mem_singleton, and_iff_right (hst.holds_iff howner)]
    exact forall_congr' fun _ => hview _ _ hm

/-- A fold that writes records over their own keys. -/
theorem InMemory.foldl_write {source : Records} (rs : List BundleLifecycleRecord)
    (hrs : ∀ record ∈ rs, source record.bundleName = some record) (written : Records)
    (bundleName : String) :
    (rs.foldl (fun (written : Records) record =>
        update written record.bundleName (some (write record))) written) bundleName =
      if bundleName ∈ rs.map BundleLifecycleRecord.bundleName then
        (source bundleName).map write
      else written bundleName := by
  induction rs generalizing written with
  | nil => rfl
  | cons record rs ih =>
    rw [forall_mem_cons] at hrs
    rw [foldl_cons, ih hrs.2, map_cons]
    by_cases hmem : bundleName ∈ rs.map BundleLifecycleRecord.bundleName
    · rw [if_pos hmem, if_pos (mem_cons_of_mem _ hmem)]
    rw [if_neg hmem]
    by_cases hname : bundleName = record.bundleName
    · subst hname
      rw [update_self, if_pos mem_cons_self, hrs.1]
      rfl
    · rw [update_of_ne hname, if_neg]
      simp [hname, hmem]

variable {leases : List BundleTransitionLease} {rest : List BundleTransitionLease}

/-- The write over the bundles of a group whose leases are all held. -/
theorem InMemory.foldl_held (hnamed : Named records)
    (hheld : ∀ lease ∈ leases, Held lease now records) (bundleName : String) :
    ((leases.filterMap fun lease => records lease.bundleName).foldl
        (fun (written : Records) record =>
          update written record.bundleName (some (write record))) records) bundleName =
      if bundleName ∈ leases.map BundleTransitionLease.bundleName then
        (records bundleName).map write
      else records bundleName := by
  have hrs : ∀ record ∈ leases.filterMap fun lease => records lease.bundleName,
      records record.bundleName = some record := by
    intro record hrecord
    obtain ⟨lease, -, hr⟩ := mem_filterMap.mp hrecord
    rw [hnamed _ _ hr]
    exact hr
  refine (foldl_write write _ hrs _ _).trans (if_congr ?_ rfl rfl)
  rw [mem_map, mem_map]
  constructor
  · rintro ⟨record, hrecord, rfl⟩
    obtain ⟨lease, hlease, hr⟩ := mem_filterMap.mp hrecord
    exact ⟨lease, hlease, (hnamed _ _ hr).symm⟩
  · rintro ⟨lease, hlease, rfl⟩
    obtain ⟨record, hrecord, -⟩ := hheld lease hlease
    exact ⟨record, mem_filterMap.mpr ⟨lease, hlease, hrecord⟩, hnamed _ _ hrecord⟩

/-- A fold that writes hashes over their own keys, with a write that may be repeated. -/
theorem Redis.foldl_write (hidem : ∀ h, write' (write' h) = write' h)
    (leases : List BundleTransitionLease) (hashes : Redis.Hashes) (bundleName : String) :
    (leases.foldl (fun (written : Redis.Hashes) lease => update written lease.bundleName
        (some (write' (Redis.fields written lease.bundleName)))) hashes) bundleName =
      if bundleName ∈ leases.map BundleTransitionLease.bundleName then
        some (write' (Redis.fields hashes bundleName))
      else hashes bundleName := by
  induction leases generalizing hashes with
  | nil => rfl
  | cons lease leases ih =>
    rw [foldl_cons, ih, map_cons]
    by_cases hname : bundleName = lease.bundleName
    · subst hname
      rw [if_pos mem_cons_self]
      by_cases hmem : lease.bundleName ∈ leases.map BundleTransitionLease.bundleName
      · rw [if_pos hmem]
        simp [Redis.fields, hidem]
      · rw [if_neg hmem, update_self]
    · simp [Redis.fields, hname]

theorem InMemory.forHolders_eq (leases : List BundleTransitionLease) (now : ℚ)
    (records : Records) :
    forHolders leases now write records =
      if ∀ lease ∈ leases, Held lease now records then
        (true, (leases.filterMap fun lease => records lease.bundleName).foldl
          (fun (written : Records) record =>
            update written record.bundleName (some (write record))) records)
      else (false, records) := rfl

/-- What the owner comparison of the group scripts comes to. -/
theorem StoresMirror.groupHolds_iff (hst : StoresMirror st) (howner : first.owner ≠ "") :
    (∀ lease ∈ first :: rest,
        Redis.Holds first.owner lease (Redis.fields st.2 lease.bundleName) now) ↔
      ∀ lease ∈ first :: rest,
        Held (ownedByFirst (first :: rest) lease) now st.1 := by
  refine forall₂_congr fun lease _ => ?_
  have h : (ownedByFirst (first :: rest) lease).owner ≠ "" := howner
  exact hst.holds_iff h

/-- The two ways to compare the owners of a group agree exactly when the group fits. -/
theorem groupFits_iff :
    ((∀ lease ∈ leases, Held (ownedByFirst leases lease) now records) ↔
        ∀ lease ∈ leases, Held lease now records) ↔
      GroupFits leases now records := by
  constructor
  · intro hiff
    by_cases hall : ∀ lease ∈ leases, Held lease now records
    · -- A bundle has one owner, so both comparisons can only succeed for one owner.
      refine Or.inl fun lease hlease => ?_
      obtain ⟨record, hrecord, hholds⟩ := hall lease hlease
      obtain ⟨record', hrecord', hholds'⟩ := hiff.mpr hall lease hlease
      obtain rfl := Option.some.inj (hrecord.symm.trans hrecord')
      have howner := Option.some.inj (hholds'.1.symm.trans hholds.1)
      exact congrArg (fun owner => { lease with owner := owner }) howner
    · refine Or.inr ⟨by simpa using hall, ?_⟩
      simpa using mt hiff.mp hall
  · rintro (howner | ⟨⟨lease, hlease, hnot⟩, lease', hlease', hnot'⟩)
    · refine forall₂_congr fun lease hlease => ?_
      rw [howner lease hlease]
    · exact iff_of_false (fun h => hnot' (h lease' hlease')) fun h => hnot (h lease hlease)

theorem forHolders_rewrites (hst : StoresMirror st) (hidem : ∀ h, write' (write' h) = write' h)
    (hheld : ∀ lease ∈ leases, Held lease now st.1) :
    Rewrites leases BundleTransitionLease.bundleName
      (fun lease => write (current st.1 lease.bundleName now))
      (fun lease => write' (Redis.fields st.2 lease.bundleName)) st
      ((leases.filterMap fun lease => st.1 lease.bundleName).foldl (fun written record =>
          update written record.bundleName (some (write record))) st.1,
        leases.foldl (fun written lease => update written lease.bundleName
          (some (write' (Redis.fields written lease.bundleName)))) st.2) := by
  refine ⟨fun lease hlease => ⟨?_, ?_⟩, fun bundleName hother => ⟨?_, ?_⟩⟩
  · obtain ⟨record, hrecord, -⟩ := hheld lease hlease
    have hrecord : st.1 lease.bundleName = some record := hrecord
    refine (foldl_held write hst.named hheld _).trans ?_
    rw [if_pos (mem_map_of_mem hlease)]
    simp [current, hrecord]
  · exact (Redis.foldl_write write' hidem _ _ _).trans (if_pos (mem_map_of_mem hlease))
  · refine (foldl_held write hst.named hheld _).trans (if_neg fun hmem => ?_)
    obtain ⟨lease, hlease, hname⟩ := mem_map.mp hmem
    exact hother lease hlease hname
  · refine (Redis.foldl_write write' hidem _ _ _).trans (if_neg fun hmem => ?_)
    obtain ⟨lease, hlease, hname⟩ := mem_map.mp hmem
    exact hother lease hlease hname

theorem forHolders_decided (hst : StoresMirror st)
    (howner : first.owner ≠ "") (hmemory : inMemoryStore.answer op st.1 =
      forHolders (first :: rest) now write st.1)
    (hredis : redisStore.answer op st.2 = Redis.forHolders (first :: rest) now write' st.2)
    (hidem : ∀ h, write' (write' h) = write' h)
    (hname : ∀ record, (write record).bundleName = record.bundleName)
    (htied : ∀ bundleName record h, Mirrors bundleName record h → Tied (write record) (write' h))
    (hview : ∀ bundleName record h, Mirrors bundleName record h →
      ((write record).view = (Redis.fromFields bundleName (write' h)).view ↔ fits record)) :
    Decided op st (GroupFits (first :: rest) now st.1 ∧
      ((∀ lease ∈ first :: rest, Held lease now st.1) → ∀ lease ∈ first :: rest,
        fits (current st.1 lease.bundleName now))) := by
  refine decided hst (hmemory.trans (forHolders_eq ..)) hredis
    (fun hheld => forHolders_rewrites write write' hst hidem hheld) ?_ ?_ ?_
  · intro lease _
    rw [hname]
    exact current_bundleName hst.named _ _
  · exact fun _ lease _ => htied _ _ _ (hst.at lease.bundleName now)
  · rw [hst.groupHolds_iff howner, groupFits_iff]
    refine and_congr_right fun _ => forall_congr' fun _ => forall₂_congr fun lease _ => ?_
    exact hview _ _ _ (hst.at lease.bundleName now)

end Holder

/-! ## Groups that begin -/

theorem InMemory.answer_beginGroup (transitions : List (String × DesiredState)) (owner : String)
    (now ttl : ℚ) (reason : String) (records : Records) :
    inMemoryStore.answer (.beginGroup transitions owner now ttl reason) records =
      if normalizeGroupTransitions transitions ≠ [] ∧
          ∀ t ∈ normalizeGroupTransitions transitions,
            ¬ InProgress (current records t.1 now) now then
        (true, (normalizeGroupTransitions transitions).foldl
          (fun (written : Records) t => update written t.1 (some (begun
            (current records t.1 now) t.2 owner now ttl reason))) records)
      else (false, records) := by
  show ((beginGroup transitions owner now ttl reason records).1.acquired,
    (beginGroup transitions owner now ttl reason records).2) = _
  unfold beginGroup
  simp only
  by_cases hempty : normalizeGroupTransitions transitions = []
  · rw [if_pos hempty, if_neg fun h => h.1 hempty]
  rw [if_neg hempty]
  split
  · rename_i hprogress
    obtain ⟨t, ht, hprogress⟩ := hprogress
    rw [if_neg fun h => h.2 t ht hprogress]
  · rename_i hidle
    rw [if_pos ⟨hempty, fun t ht hprogress => hidle ⟨t, ht, hprogress⟩⟩]

theorem Redis.answer_beginGroup (transitions : List (String × DesiredState)) (owner : String)
    (now ttl : ℚ) (reason : String) (hashes : Redis.Hashes) :
    redisStore.answer (.beginGroup transitions owner now ttl reason) hashes =
      if normalizeGroupTransitions transitions ≠ [] ∧
          ∀ t ∈ normalizeGroupTransitions transitions,
            ¬ Redis.InProgress (Redis.fields hashes t.1) now then
        (true, (Redis.beginEach owner now ttl reason (normalizeGroupTransitions transitions)
          hashes).2)
      else (false, hashes) := by
  show ((Redis.beginGroup transitions owner now ttl reason hashes).1.acquired,
    (Redis.beginGroup transitions owner now ttl reason hashes).2) = _
  unfold Redis.beginGroup
  simp only
  by_cases hempty : normalizeGroupTransitions transitions = []
  · rw [if_pos hempty, if_neg fun h => h.1 hempty]
  rw [if_neg hempty]
  split
  · rename_i hprogress
    obtain ⟨t, ht, hprogress⟩ := hprogress
    rw [if_neg fun h => h.2 t ht hprogress]
  · rename_i hidle
    rw [if_pos ⟨hempty, fun t ht hprogress => hidle ⟨t, ht, hprogress⟩⟩]

theorem InMemory.foldl_update (next : String × DesiredState → BundleLifecycleRecord)
    (ts : List (String × DesiredState)) (hnodup : (ts.map Prod.fst).Nodup)
    (records : Records) :
    (∀ t ∈ ts, (ts.foldl (fun (written : Records) t =>
        update written t.1 (some (next t))) records) t.1 = some (next t)) ∧
      ∀ bundleName, (∀ t ∈ ts, t.1 ≠ bundleName) →
        (ts.foldl (fun (written : Records) t =>
          update written t.1 (some (next t))) records) bundleName =
            records bundleName := by
  induction ts generalizing records with
  | nil => exact ⟨fun _ ht => (by cases ht), fun _ _ => rfl⟩
  | cons t ts ih =>
    rw [map_cons, nodup_cons] at hnodup
    obtain ⟨hwritten, hother⟩ := ih hnodup.2 (update records t.1 (some (next t)))
    simp only [foldl_cons, forall_mem_cons]
    refine ⟨⟨?_, hwritten⟩, fun bundleName hname => ?_⟩
    · rw [hother t.1 fun t' ht' heq => hnodup.1 (heq ▸ mem_map_of_mem ht')]
      exact update_self ..
    · rw [hother bundleName hname.2, update_of_ne hname.1.symm]

/-- What the writing loop of the group script writes. -/
theorem Redis.beginEach_written (owner : String) (now ttl : ℚ) (reason : String)
    (ts : List (String × DesiredState)) (hnodup : (ts.map Prod.fst).Nodup)
    (hashes : Redis.Hashes) :
    (∀ t ∈ ts, (Redis.beginEach owner now ttl reason ts hashes).2 t.1 =
        some (Redis.begun (Redis.fields hashes t.1) t.1 t.2 owner now ttl reason)) ∧
      ∀ bundleName, (∀ t ∈ ts, t.1 ≠ bundleName) →
        (Redis.beginEach owner now ttl reason ts hashes).2 bundleName = hashes bundleName := by
  induction ts generalizing hashes with
  | nil => exact ⟨fun _ ht => (by cases ht), fun _ _ => rfl⟩
  | cons t ts ih =>
    rw [map_cons, nodup_cons] at hnodup
    obtain ⟨hwritten, hother⟩ := ih hnodup.2 (update hashes t.1
      (some (Redis.begun (Redis.fields hashes t.1) t.1 t.2 owner now ttl reason)))
    have hne : ∀ t' ∈ ts, t'.1 ≠ t.1 :=
      fun t' ht' heq => hnodup.1 (heq ▸ mem_map_of_mem ht')
    simp only [Redis.beginEach, forall_mem_cons]
    refine ⟨⟨?_, fun t' ht' => ?_⟩, fun bundleName hname => ?_⟩
    · rw [hother t.1 hne, update_self]
    · rw [hwritten t' ht']
      simp [Redis.fields, hne t' ht']
    · rw [hother bundleName hname.2, update_of_ne hname.1.symm]

/-- The stores agree on a group exactly if it fits, and then go on alike. -/
theorem beginGroup_decided (hst : StoresMirror st) (howner : owner ≠ "")
    (transitions : List (String × DesiredState)) (now ttl : ℚ) (reason : String) :
    Decided (.beginGroup transitions owner now ttl reason) st
      (TransitionOp.Fits st.1 (.beginGroup transitions owner now ttl reason)) := by
  have hnodup := normalizeGroupTransitions_nodup transitions
  obtain ⟨hmemory, hmemory'⟩ := foldl_update
    (fun t => begun (current st.1 t.1 now) t.2 owner now ttl reason)
    (normalizeGroupTransitions transitions) hnodup st.1
  obtain ⟨hredis, hredis'⟩ := Redis.beginEach_written owner now ttl reason
    (normalizeGroupTransitions transitions) hnodup st.2
  have hrw : Rewrites (normalizeGroupTransitions transitions) Prod.fst
      (fun t => begun (current st.1 t.1 now) t.2 owner now ttl reason)
      (fun t => Redis.begun (Redis.fields st.2 t.1) t.1 t.2 owner now ttl reason) st
      (_, (Redis.beginEach owner now ttl reason (normalizeGroupTransitions transitions) st.2).2) :=
    ⟨fun t ht => ⟨hmemory t ht, hredis t ht⟩, fun bundleName hother =>
      ⟨hmemory' bundleName hother, hredis' bundleName hother⟩⟩
  refine decided hst (answer_beginGroup ..) (Redis.answer_beginGroup ..)
    (fun _ => hrw) ?_ (fun _ _ _ => begun_tied ..) ?_
  · exact fun t _ => current_bundleName hst.named _ _
  · have hiff : (∀ t ∈ normalizeGroupTransitions transitions,
        ¬ Redis.InProgress (Redis.fields st.2 t.1) now) ↔
          ∀ t ∈ normalizeGroupTransitions transitions,
            ¬ InProgress (current st.1 t.1 now) now :=
      forall₂_congr fun t _ => not_congr (hst.at t.1 now).inProgress_iff
    rw [hiff, and_iff_right Iff.rfl]
    have hview : (∀ t ∈ normalizeGroupTransitions transitions,
        (begun (current st.1 t.1 now) t.2 owner now ttl reason).view =
          (Redis.fromFields t.1 (Redis.begun (Redis.fields st.2 t.1) t.1 t.2 owner now ttl
            reason)).view) ↔
        ∀ t ∈ normalizeGroupTransitions transitions,
          (current st.1 t.1 now).recovery.lastRestartAt = some now :=
      forall₂_congr fun t _ => (hst.at t.1 now).begun_view_iff howner ..
    rw [hview]
    constructor
    · intro h hidle t ht
      exact h ⟨ne_nil_of_mem ht, hidle⟩ t ht
    · exact fun h hidle => h hidle.2

/-! ## Every call -/

theorem renewed_idem (ttl : ℚ) (h : Redis.BundleHash) :
    Redis.renewed now ttl (Redis.renewed now ttl h) = Redis.renewed now ttl h := rfl

theorem finished_idem (success : Bool) (reason : String) (error : Option String)
    (h : Redis.BundleHash) :
    Redis.finished success now reason error (Redis.finished success now reason error h) =
      Redis.finished success now reason error h := by
  cases success <;> rfl

/-- **One call.**  The stores agree on it exactly when it fits, and then go on alike. -/
theorem step_decided (hst : StoresMirror st) (hop : op.Proper) :
    Decided op st (op.Fits st.1) := by
  cases op with
  | begin bundleName desiredState owner now ttl reason => exact begin_decided hst hop ..
  | beginGroup transitions owner now ttl reason => exact beginGroup_decided hst hop ..
  | recordRecovery bundleName desiredState recovery now reason =>
    exact recordRecovery_decided hst ..
  | expire bundleName now => exact absurd hop id
  | renew lease now ttl =>
    refine (forHolder_decided (renewed now ttl) (Redis.renewed now ttl) (fun _ => True) hst hop
      rfl rfl (fun _ => rfl)
      (fun record h hm => (hm.renewed ttl).toTied)
      fun record h hm => iff_of_true (hm.renewed ttl).view trivial).congr ?_
    exact iff_of_true (fun _ => trivial) trivial
  | finish lease success now reason error =>
    refine (forHolder_decided
      (finished success now reason error "bundle transition failed")
      (Redis.finished success now reason error)
      (fun record => success = true → record.recovery.Reset) hst hop rfl rfl (fun _ => rfl)
      (fun record h hm => finished_tied ..)
      fun record h hm => hm.finished_view_iff ..).congr ?_
    exact ⟨fun h hsuccess hheld => h hheld hsuccess, fun h hheld hsuccess => h hsuccess hheld⟩
  | renewGroup leases now ttl =>
    cases leases with
    | nil =>
      have heq : bothStores (.renewGroup [] now ttl) st = ((false, false), st) :=
        bothStores_eq rfl rfl
      refine ⟨iff_of_true ⟨?_, ?_⟩ (Or.inl nofun), fun _ => ?_⟩
      · rw [heq]
      · rw [heq]
        exact hst.sameRecords
      · rw [heq]
        exact hst
    | cons first rest =>
      refine (forHolders_decided (renewed now ttl) (Redis.renewed now ttl) (fun _ => True) hst
        (hop first mem_cons_self) rfl rfl
        (renewed_idem ttl) (fun _ => rfl) (fun _ record h hm => (hm.renewed ttl).toTied)
        fun _ record h hm => iff_of_true (hm.renewed ttl).view trivial).congr ?_
      exact and_iff_left fun _ _ _ => trivial
  | finishGroup leases success now reason error =>
    cases leases with
    | nil =>
      -- Finished in memory, refused by Redis.
      have heq : bothStores (.finishGroup [] success now reason error) st =
          ((true, false), st) :=
        bothStores_eq ((forHolders_eq _ [] now st.1).trans
          (if_pos fun _ hlease => (by cases hlease))) rfl
      have hne : ¬ StoresAgree ⟨.finishGroup [] success now reason error, st⟩ := fun h => by
        have hanswer := h.answer
        rw [heq] at hanswer
        cases hanswer
      exact ⟨iff_of_false hne fun h => h.1 rfl, fun h => absurd h hne⟩
    | cons first rest =>
      refine (forHolders_decided
        (finished success now reason error "bundle transition group failed")
        (Redis.finished success now reason error)
        (fun record => success = true → record.recovery.Reset) hst (hop first mem_cons_self)
        rfl rfl (finished_idem success reason error)
        (fun _ => rfl) (fun _ record h hm => finished_tied ..)
        fun _ record h hm => hm.finished_view_iff ..).congr ?_
      show _ ↔ first :: rest ≠ [] ∧ _
      rw [and_iff_right (cons_ne_nil first rest)]
      refine and_congr_right fun _ => ?_
      exact ⟨fun h hsuccess hheld lease hlease => h hheld lease hlease hsuccess,
        fun h hheld lease hlease hsuccess => h hsuccess hheld lease hlease⟩

end Stores

theorem noBundles_mirror : StoresMirror noBundles :=
  ⟨fun _ _ hrecord => (by cases hrecord),
    fun _ => ⟨⟨rfl, fun howner => (by cases howner)⟩, rfl⟩⟩

/-- **The two lifecycle stores agree** along a run, on the answers and on the records that they hold
after each call, exactly when every call of it fits. -/
theorem stores_agree_iff (ops : List TransitionOp) (hops : ∀ op ∈ ops, op.Proper) :
    (∀ v ∈ visits bothStores noBundles ops, StoresAgree v) ↔
      ∀ v ∈ visits bothStores noBundles ops, v.op.Fits v.before.1 :=
  forall_visits_iff (fun _ hop hst => (step_decided hst hop).1)
    (fun _ hop hst => (step_decided hst hop).2) noBundles_mirror ops hops

/-- A failed transition of a bundle whose restart has been recorded, and another owner that is
refused meanwhile. -/
def failedTransition : List TransitionOp :=
  [.recordRecovery "b" .idle { phase := .crashed, transitionId := 1, lastRestartAt := some 5 } 4
      "idle",
    .begin "b" .running "o" 5 60 "restart", .begin "b" .idle "p" 6 60 "other",
    .renewGroup [⟨"b", "o", 1, 2, 65⟩] 7 60,
    .finish ⟨"b", "o", 1, 2, 65⟩ false 8 "" (some "timeout"),
    .recordRecovery "b" .idle { phase := .ready, transitionId := 3, lastHealthyAt := some 9 } 9
      "idle"]

/-- Every call of `failedTransition` fits. -/
theorem failedTransition_agree :
    (∀ op ∈ failedTransition, op.Proper) ∧
      ∀ v ∈ visits bothStores noBundles failedTransition, StoresAgree v :=
  ⟨by decide +kernel,
    (stores_agree_iff failedTransition (by decide +kernel)).mpr (by decide +kernel)⟩

/-- The first transition of a bundle, finished with success. -/
def firstTransition : List TransitionOp :=
  [.begin "b" .running "o" 1 60 "start", .finish ⟨"b", "o", 1, 1, 61⟩ true 2 "" none]

/-- In memory the bundle has been restarted at 1, in Redis never. -/
theorem firstTransition_not_agree :
    ¬ ∀ v ∈ visits bothStores noBundles firstTransition, StoresAgree v := by
  intro hall
  have hbegun := hall ⟨.begin "b" .running "o" 1 60 "start", noBundles⟩ mem_cons_self
  exact absurd (hbegun.records "b" 0) (by decide +kernel)

end GpuManager.Lifecycle
