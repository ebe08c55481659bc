import GpuManager.Broker.MirrorCoherence
import GpuManager.Broker.Readiness

/-!
# Observation beside the lifecycle

`StandaloneBrokerService.refresh_once` reduces fresh evidence to a snapshot and
publishes it over whatever a drain, a rejoin or a fault has left in Redis.  It may
refresh a member, it may complete a rejoin that is already under way, and nothing
else: `refreshOnce_observed`.

* `rejoin`: `MemberRejoinCoordinator.rejoin`.
* `readOrRepair`, `completeRejoin`, `observedMember`: the three parts of one
  member's turn before `put_member`.
* `Persisted`: what a stored member must be for the pass to respect it.
* `Observed`: what the pass may do to it.

The one thing observation does take back is a fence that no reader accepts: the
repair sets it to zero, however large the text beside it is
(`refreshOnce_resets_fence`).
-/

namespace GpuManager.Broker

namespace MirrorStore

/-! ## The pass -/

/-- `MemberRejoinCoordinator.rejoin`. -/
def rejoin (name : String) (expectedStateVersion generationFence : ℤ) (readiness : StoredMember)
    (s : MirrorStore) : Except BrokerError StoredMember × MirrorStore :=
  withMember name (fun current =>
    if current.rest.state = .readyAccepting ∧ current.rest.accepting then (.ok current, s)
    else if current.rest.state ≠ .joining ∧ generationFence ≤ current.generationFence.value then
      (.error (.contractError "GENERATION_FENCE_STALE"), s)
    else if readiness.rest.name ≠ name then
      (.error (.contractError "READINESS_MEMBER_MISMATCH"), s)
    else if (truthy readiness.rest.gpuId).isSome ∧
        readiness.rest.idleServiceEffective ≠ some true then
      (.error (.contractError ReasonCode.memberIdleServiceNotEffective.value), s)
    else if readiness.rest.state ≠ .readyAccepting ∨ readiness.rest.accepting = false then
      (.error (.contractError "MEMBER_NOT_READY"), s)
    else if readiness.rest.blockers ≠ [] ∨ readiness.rest.reasonCodes ≠ [] then
      (.error (.contractError "MEMBER_NOT_READY"), s)
    else if current.rest.state = .joining then
      if expectedStateVersion ≠ current.stateVersion.value then
        (.error (.reservationStale ReasonCode.reservationStateStale.value), s)
      else s.completeMemberRejoin name current.stateVersion.value readiness
    else
      match s.beginMemberRejoin name expectedStateVersion generationFence with
      | (.error e, s') => (.error e, s')
      | (.ok joining, s') => s'.completeMemberRejoin name joining.stateVersion.value readiness) s

/-- `get_member`, with the repair of a record it cannot read. -/
def readOrRepair (name : String) (s : MirrorStore) :
    Except BrokerError (Option StoredMember) × MirrorStore :=
  match getMember name s with
  | .ok persisted => (.ok persisted, s)
  | .error _ =>
    match s.repairMalformedMemberGenerationFence name with
    | (.ok repaired, s') => (.ok (some repaired), s')
    | (.error e, s') => (.error e, s')

/-- The evidence completes the rejoin of a member that waits for it. -/
def CompletesRejoin (snapshot : MemberSnapshot) (persisted : StoredMember) (s : MirrorStore) :
    Prop :=
  persisted.rest.state = .joining ∧ snapshot.state = .readyAccepting ∧
    snapshot.accepting = true ∧ snapshot.blockers = [] ∧ snapshot.reasonCodes = [] ∧
    s.leaseCount snapshot.name = 0

instance (snapshot : MemberSnapshot) (persisted : StoredMember) (s : MirrorStore) :
    Decidable (CompletesRejoin snapshot persisted s) :=
  inferInstanceAs (Decidable (_ ∧ _ ∧ _ ∧ _ ∧ _ ∧ _))

/-- The snapshot and the persisted member after the rejoin branch. -/
def completeRejoin (snapshot : MemberSnapshot) (persisted : Option StoredMember)
    (s : MirrorStore) : Except BrokerError (StoredMember × Option StoredMember) × MirrorStore :=
  match persisted with
  | none => (.ok (.ofSnapshot snapshot, none), s)
  | some p =>
    if CompletesRejoin snapshot p s then
      match s.rejoin snapshot.name p.stateVersion.value p.generationFence.value
        (.ofSnapshot snapshot) with
      | (.ok rejoined, s') => (.ok (rejoined, some rejoined), s')
      | (.error (.reservationStale message), s') =>
        -- a concurrent lifecycle change wins
        match getMember snapshot.name s' with
        | .error e => (.error e, s')
        | .ok none => (.error (.reservationStale message), s')
        | .ok (some p') => (.ok (.ofSnapshot snapshot, some p'), s')
      | (.error e, s') => (.error e, s')
    else (.ok (.ofSnapshot snapshot, some p), s)

/-- The states a controller owns, with the blocker shown for each. -/
def lifecycleBlocker : MemberState → Option String
  | .draining => some "member drain in progress"
  | .offline => some "member rejoin required"
  | .joining => some "member rejoin in progress"
  | .faulted => some "member faulted; explicit rejoin required"
  | _ => none

/-- The snapshot that is published beside a persisted member. -/
def observedMember (snapshot : StoredMember) (persisted : Option StoredMember) : StoredMember :=
  match persisted with
  | none => snapshot
  | some p =>
    match lifecycleBlocker p.rest.state with
    | some blocker =>
      { snapshot with
        rest :=
          { snapshot.rest with
            state := p.rest.state
            accepting := false
            blockers := RedisJobRepository.appendUnique snapshot.rest.blockers blocker }
        stateVersion := p.stateVersion
        generationFence := p.generationFence
        compatibleFreeSlots := some (.int 0) }
    | none =>
      if snapshot.stateVersion.value < p.stateVersion.value ∨
          snapshot.generationFence.value < p.generationFence.value then
        { snapshot with
          stateVersion := snapshot.stateVersion.greatest p.stateVersion
          generationFence := snapshot.generationFence.greatest p.generationFence }
      else snapshot

end MirrorStore

/-- The part of `StandaloneBrokerService` that a pass changes: the cache, by its
values, and Redis. -/
structure BrokerService where
  cache : StrictMemberSnapshotCache
  store : MirrorStore

namespace BrokerService

/-- The second half of one member's turn: from the member that was read to the
cached result of `put_member`. -/
def publish (snapshot : MemberSnapshot) (cache : StrictMemberSnapshotCache)
    (persisted : Option StoredMember) (s : MirrorStore) : Except BrokerError Unit × BrokerService :=
  match s.completeRejoin snapshot persisted with
  | (.error e, s') => (.error e, ⟨cache, s'⟩)
  | (.ok (snapshot', persisted'), s') =>
    let observed := MirrorStore.observedMember snapshot' persisted'
    match s'.putMember observed with
    | (.error e, s'') => (.error e, ⟨cache.store snapshot.name observed.snapshot, s''⟩)
    | (.ok published, s'') => (.ok (), ⟨cache.store snapshot.name published.snapshot, s''⟩)

def refreshMember (evidence : String → Probes) (now : ℚ) (name : String) (w : BrokerService) :
    Except BrokerError Unit × BrokerService :=
  match w.cache.update name (evidence name) now with
  | none => (.error (.other "KeyError" ("UNKNOWN_MEMBER:" ++ name)), w)
  | some (snapshot, cache) =>
    match w.store.readOrRepair name with
    | (.error e, s) => (.error e, ⟨cache, s⟩)
    | (.ok persisted, s) => publish snapshot cache persisted s

/-- `refresh_once`, from the evidence of `observe_all` on. -/
def refreshOnce (evidence : String → Probes) (now : ℚ) :
    List String → BrokerService → Except BrokerError Unit × BrokerService
  | [], w => (.ok (), w)
  | name :: names, w =>
    match w.refreshMember evidence now name with
    | (.ok (), w') => refreshOnce evidence now names w'
    | (.error e, w') => (.error e, w')

end BrokerService

/-! ## What a stored member must be, and what may become of it -/

/-- The copies agree on the state, the admission and a version below `10 ^ 14`,
and on the fence where the record's is one. -/
structure Persisted (name : String) (h : MirrorHash) : Prop where
  named : h.record.rest.name = name
  state : h.record.rest.state = h.state
  accepting : h.record.rest.accepting = h.accepting
  version : ∃ v, Small v ∧ h.stateVersion = .int v ∧ h.record.stateVersion = .int v
  fence : h.record.wellFenced = true →
    ∃ f, Small f ∧ h.generationFence = .int f ∧ h.record.generationFence = .int f

/-- Both copies show the state. -/
def MirrorHash.Shows (h : MirrorHash) (state : MemberState) : Prop :=
  h.state = state ∧ h.record.rest.state = state

/-- The reduced snapshot is ready without a blocker or a reason. -/
def Ready (snapshot : MemberSnapshot) : Prop :=
  snapshot.state = .readyAccepting ∧ snapshot.blockers = [] ∧ snapshot.reasonCodes = []

/-- The fences of `h'` are those of `h`, or, where no controller owns the state, the greater of
its fence and that of the snapshot, as `put_member` writes it. -/
def FencedBy (snapshot : MemberSnapshot) (h h' : MirrorHash) : Prop :=
  h'.generationFence = h.generationFence ∧
      h'.record.generationFence = h.record.generationFence ∨
    MirrorStore.lifecycleBlocker h.state = none ∧
      h'.generationFence = .int (max snapshot.generationFence h.record.generationFence.value) ∧
      h'.record.generationFence =
        throughLua (max snapshot.generationFence h.record.generationFence.value)

/-- What the observation `snapshot` may make of a hash beside a lease set. -/
structure Observed (snapshot : MemberSnapshot) (leases : Finset String) (h h' : MirrorHash) :
    Prop where
  version : h.stateVersion.value ≤ h'.stateVersion.value ∧
    h.record.stateVersion.value ≤ h'.record.stateVersion.value
  fence : h.record.wellFenced = true → h.generationFence.value ≤ h'.generationFence.value ∧
    h.record.generationFence.value ≤ h'.record.generationFence.value
  fencedBy : h.record.wellFenced = true → FencedBy snapshot h h'
  malformed : h.record.wellFenced = false →
    h'.generationFence = h.generationFence ∧
        h'.record.generationFence = h.record.generationFence ∨
      h.state ∈ MirrorStore.repairable ∧ h.accepting = false ∧ leases = ∅ ∧
        (h'.generationFence = .int 0 ∧ h'.record.generationFence = .int 0 ∨
          h.state = .unhealthy ∧ h'.generationFence = .int snapshot.generationFence ∧
            h'.record.generationFence = throughLua snapshot.generationFence)
  held : h.state = .draining ∨ h.state = .offline ∨ h.state = .faulted → h.accepting = false →
    h'.Shows h.state ∧ h'.accepting = false ∧ h'.record.rest.accepting = false
  joining : h.state = .joining →
    h'.Shows .joining ∨ h'.Shows .readyAccepting ∧ leases = ∅ ∧ Ready snapshot

theorem Persisted.observed_self {name : String} {h : MirrorHash} (hp : Persisted name h)
    (snapshot : MemberSnapshot) (leases : Finset String) : Observed snapshot leases h h where
  version := ⟨le_rfl, le_rfl⟩
  fence _ := ⟨le_rfl, le_rfl⟩
  fencedBy _ := Or.inl ⟨rfl, rfl⟩
  malformed _ := Or.inl ⟨rfl, rfl⟩
  held _ haccepting := ⟨⟨rfl, hp.state⟩, haccepting, hp.accepting.trans haccepting⟩
  joining hjoining := Or.inl ⟨hjoining, hp.state.trans hjoining⟩

namespace MirrorStore

variable {s : MirrorStore} {name : String}

/-! ## The publication -/

/-- What `put_member` has written for a snapshot and the reads before its
script. -/
structure Published (m : StoredMember) (a : Lua.RefreshArgs) (h' : MirrorHash) : Prop where
  state : h'.Shows a.persistedState
  accepting : h'.accepting = a.persistedAccepting ∧
    h'.record.rest.accepting = a.persistedAccepting
  version : h'.stateVersion = .int a.effectiveVersion ∧
    h'.record.stateVersion = throughLua a.effectiveVersion
  fence : h'.generationFence = m.generationFence ∧
    h'.record.generationFence = throughLua m.generationFence.value

theorem putMember_published (m : StoredMember) (s : MirrorStore) :
    (s.putMember m).2 = s ∨
      ∃ h', (s.putMember m).2 = s.put m.rest.name h' ∧ Published m (refreshArgs m s) h' := by
  unfold putMember
  dsimp only
  split
  · exact Or.inl rfl
  split
  · exact Or.inl rfl
  · split <;> exact Or.inr ⟨_, rfl, ⟨rfl, rfl⟩, ⟨rfl, rfl⟩, ⟨rfl, rfl⟩, ⟨rfl, rfl⟩⟩

variable {m : StoredMember} {h' : MirrorHash}

/-- A publication over a hash whose copies agree. -/
theorem Published.observed {h : MirrorHash} (hh : s.members m.rest.name = some h)
    (hpub : Published m (refreshArgs m s) h') {v f : ℤ} (hv : Small v)
    (hversion : h.stateVersion = .int v) (hf : Small f) (hfence : f ≤ m.generationFence.value) :
    (v ≤ h'.stateVersion.value ∧ v ≤ h'.record.stateVersion.value) ∧
      f ≤ h'.generationFence.value ∧ f ≤ h'.record.generationFence.value := by
  have hle : v ≤ (refreshArgs m s).effectiveVersion := by
    unfold Lua.RefreshArgs.effectiveVersion refreshArgs
    simp [hh, hversion]
  refine ⟨⟨?_, ?_⟩, ?_, ?_⟩
  · rw [hpub.version.1]
    exact hle
  · rw [hpub.version.2]
    exact le_throughLua_value hv.1 hv.2 hle
  · rw [hpub.fence.1]
    exact hfence
  · rw [hpub.fence.2]
    exact le_throughLua_value hf.1 hf.2 hfence

/-! ## The rejoin branch -/

def rejoined (readiness current : StoredMember) : StoredMember :=
  { readiness with
    rest :=
      { readiness.rest with
        state := .readyAccepting
        accepting := true
        drainDisabledSlots := 0
        dispatcherLeases := 0 }
    generationFence := current.generationFence
    stateVersion := current.stateVersion.add 1 }

theorem getMember_eq {h : MirrorHash} (hh : s.members name = some h)
    (hfenced : h.record.wellFenced = true) : getMember name s = .ok (some h.record) := by
  simp [getMember, hh, hfenced]

variable {h : MirrorHash} {readiness : StoredMember} {a : Lua.RefreshArgs}

theorem completeMemberRejoin_cases (hh : s.members name = some h)
    (hfenced : h.record.wellFenced = true) (hnamed : h.record.rest.name = name) (version : ℤ)
    (readiness : StoredMember) :
    (∃ e, s.completeMemberRejoin name version readiness = (.error e, s)) ∨
      s.completeMemberRejoin name version readiness =
        (.ok (rejoined readiness h.record),
          s.put name (lifecycleHash (rejoined readiness h.record) h)) := by
  unfold completeMemberRejoin withMember atVersion afterTransition
  rw [getMember_eq hh hfenced]
  dsimp only
  split
  · exact Or.inl ⟨_, rfl⟩
  split
  · exact Or.inl ⟨_, rfl⟩
  split
  · exact Or.inl ⟨_, rfl⟩
  split
  · exact Or.inl ⟨_, rfl⟩
  split
  · rcases commitMemberDrain_lifecycle (a := ⟨.completeRejoin, h.record,
      rejoined readiness h.record, 0, ""⟩) (by simp) (by simp) s
      with ⟨e, heq⟩ | ⟨m, hm, heq⟩
    · exact Or.inl ⟨e, heq⟩
    dsimp only at hm heq
    rw [hnamed, hh] at hm
    obtain rfl := Option.some.inj hm
    rw [hnamed] at heq
    exact Or.inr heq
  · exact Or.inl ⟨_, rfl⟩

/-- The rejoin of a member that is joining is refused, and the store stays, or it
completes. -/
theorem rejoin_cases (hh : s.members name = some h) (hfenced : h.record.wellFenced = true)
    (hnamed : h.record.rest.name = name) (hjoining : h.record.rest.state = .joining)
    (version fence : ℤ) (readiness : StoredMember) :
    (∃ e, s.rejoin name version fence readiness = (.error e, s)) ∨
      s.rejoin name version fence readiness =
        (.ok (rejoined readiness h.record),
          s.put name (lifecycleHash (rejoined readiness h.record) h)) := by
  unfold rejoin withMember
  rw [getMember_eq hh hfenced]
  simp only [hjoining, reduceCtorEq, false_and, if_false, ne_eq, not_true_eq_false, if_true]
  split
  · exact Or.inl ⟨_, rfl⟩
  split
  · exact Or.inl ⟨_, rfl⟩
  split
  · exact Or.inl ⟨_, rfl⟩
  split
  · exact Or.inl ⟨_, rfl⟩
  split
  · exact Or.inl ⟨_, rfl⟩
  · exact completeMemberRejoin_cases hh hfenced hnamed _ readiness

/-- The rejoin branch of a persisted member: it fails, it passes the member on,
or it brings it back on an empty lease set. -/
theorem completeRejoin_cases {snapshot : MemberSnapshot}
    (hh : s.members snapshot.name = some h) (hfenced : h.record.wellFenced = true)
    (hnamed : h.record.rest.name = snapshot.name) :
    (∃ e, s.completeRejoin snapshot (some h.record) = (.error e, s)) ∨
      s.completeRejoin snapshot (some h.record) =
        (.ok (.ofSnapshot snapshot, some h.record), s) ∨
      (CompletesRejoin snapshot h.record s ∧ s.completeRejoin snapshot (some h.record) =
        (.ok (rejoined (.ofSnapshot snapshot) h.record,
            some (rejoined (.ofSnapshot snapshot) h.record)),
          s.put snapshot.name (lifecycleHash (rejoined (.ofSnapshot snapshot) h.record) h))) := by
  unfold completeRejoin
  dsimp only
  split
  · next hcompletes =>
      rcases rejoin_cases hh hfenced hnamed hcompletes.1 h.record.stateVersion.value
        h.record.generationFence.value (.ofSnapshot snapshot) with ⟨e, heq⟩ | heq
      · rw [heq]
        cases e with
        | reservationStale message =>
          dsimp only
          rw [getMember_eq hh hfenced]
          exact Or.inr (Or.inl rfl)
        | _ => exact Or.inl ⟨_, rfl⟩
      · rw [heq]
        exact Or.inr (Or.inr ⟨hcompletes, rfl⟩)
  · exact Or.inr (Or.inl rfl)

/-! ## The repair -/

/-- The hash a repair writes. -/
def repairedHash (h : MirrorHash) : MirrorHash :=
  { record := { h.record with generationFence := .int 0 }
    state := h.record.rest.state
    accepting := h.record.rest.accepting
    stateVersion := throughLua h.record.stateVersion.value
    generationFence := .int 0
    compatibleFreeSlots := h.record.compatibleFreeSlots.map fun n => throughLua n.value
    configuredSlots := throughLua h.record.configuredSlots.value }

theorem repair_cases (hh : s.members name = some h) :
    (∃ e, s.repairMalformedMemberGenerationFence name = (.error e, s)) ∨
      (h.record.rest.state ∈ repairable ∧ h.record.rest.accepting = false ∧
        s.leases name = ∅ ∧
        s.repairMalformedMemberGenerationFence name =
          (.ok { h.record with generationFence := .int 0 }, s.put name (repairedHash h))) := by
  unfold repairMalformedMemberGenerationFence repairMemberGenerationFence
  simp only [hh]
  cases hversion : h.record.stateVersion with
  | float n => exact Or.inl ⟨_, rfl⟩
  | int version =>
    dsimp only
    split
    · exact Or.inl ⟨_, rfl⟩
    split
    · exact Or.inl ⟨_, rfl⟩
    split
    · exact Or.inl ⟨_, rfl⟩
    split
    · exact Or.inl ⟨_, rfl⟩
    next hstate =>
      split
      · exact Or.inl ⟨_, rfl⟩
      next hleases =>
        split
        · exact Or.inl ⟨_, rfl⟩
        obtain ⟨hmem, hclosed⟩ := not_or.mp hstate
        refine Or.inr ⟨not_not.mp hmem, by simpa using hclosed, ?_, ?_⟩
        · exact Finset.card_eq_zero.mp (not_not.mp hleases)
        · simp only [repairedHash, hversion]

/-- Reading a member: it is as it is, it cannot be repaired, or its fence is set
to zero at an empty lease set. -/
theorem readOrRepair_cases (hh : s.members name = some h) :
    (h.record.wellFenced = true ∧ s.readOrRepair name = (.ok (some h.record), s)) ∨
      (∃ e, s.readOrRepair name = (.error e, s)) ∨
      (h.record.wellFenced = false ∧ h.record.rest.state ∈ repairable ∧
        h.record.rest.accepting = false ∧ s.leases name = ∅ ∧
        s.readOrRepair name =
          (.ok (some { h.record with generationFence := .int 0 }),
            s.put name (repairedHash h))) := by
  unfold readOrRepair
  cases hfenced : h.record.wellFenced with
  | true =>
    rw [getMember_eq hh hfenced]
    exact Or.inl ⟨rfl, rfl⟩
  | false =>
    have hget : getMember name s = .error .repositoryUnavailable := by
      simp [getMember, hh, hfenced]
    rw [hget]
    dsimp only
    rcases repair_cases hh with ⟨e, heq⟩ | ⟨hstate, hclosed, hleases, heq⟩
    · rw [heq]
      exact Or.inr (Or.inl ⟨e, rfl⟩)
    · rw [heq]
      exact Or.inr (Or.inr ⟨rfl, hstate, hclosed, hleases, rfl⟩)

/-! ## What is published beside a member -/

/-- A controller's state is published as it is, without admission. -/
theorem observedMember_held {snapshot p : StoredMember} {blocker : String}
    (hheld : lifecycleBlocker p.rest.state = some blocker) :
    (observedMember snapshot (some p)).rest.state = p.rest.state ∧
      (observedMember snapshot (some p)).rest.accepting = false := by
  unfold observedMember
  simp only [hheld, and_self]

/-- No published fence is behind the persisted one. -/
theorem le_observedMember_fence (snapshot p : StoredMember) :
    p.generationFence.value ≤ (observedMember snapshot (some p)).generationFence.value := by
  unfold observedMember
  dsimp only
  split
  · exact le_rfl
  split
  · exact Number.le_greatest_right _ _
  next hbehind =>
    simp only [not_or, not_lt] at hbehind
    exact hbehind.2

/-- The fence that is published beside a readable one. -/
theorem observedMember_fence {snapshot p : StoredMember} {g f : ℤ}
    (hg : snapshot.generationFence = .int g) (hf : p.generationFence = .int f) :
    (observedMember snapshot (some p)).generationFence =
      if lifecycleBlocker p.rest.state = none then .int (max g f) else .int f := by
  unfold observedMember
  dsimp only
  cases lifecycleBlocker p.rest.state with
  | some blocker => simp [hf]
  | none =>
    simp only [hg, hf, Number.value_int, Number.greatest, if_true]
    split
    · show (if g < f then Number.int f else .int g) = .int (max g f)
      split
      next hlt => rw [max_eq_right hlt.le]
      next hle => rw [max_eq_left (not_lt.mp hle)]
    next hbehind =>
      simp only [not_or, not_lt] at hbehind
      simp [hg, max_eq_left hbehind.2]

theorem observedMember_name (snapshot : StoredMember) (persisted : Option StoredMember) :
    (observedMember snapshot persisted).rest.name = snapshot.rest.name := by
  unfold observedMember
  split
  · rfl
  split
  · rfl
  · split <;> rfl

/-- A member that is its own persisted member is published as it is. -/
theorem observedMember_ready {p : StoredMember} (hready : p.rest.state = .readyAccepting) :
    observedMember p (some p) = p := by
  unfold observedMember
  simp [hready, lifecycleBlocker]

/-- `put_member` does not leave a state that the snapshot itself carries. -/
theorem persistedState_eq (hstate : a.currentState = some a.member.state) :
    a.persistedState = a.member.state := by
  unfold Lua.RefreshArgs.persistedState
  rw [hstate, Option.getD_some, ite_self]

theorem persistedAccepting_eq (hclosed : a.member.accepting = false) :
    a.persistedAccepting = false := by
  unfold Lua.RefreshArgs.persistedAccepting
  rw [hclosed, ite_self]

theorem Published.shows (hh : s.members m.rest.name = some h)
    (hpub : Published m (refreshArgs m s) h') (hstate : m.rest.state = h.state) :
    h'.Shows h.state := by
  have hkept : (refreshArgs m s).persistedState = m.rest.state := by
    refine persistedState_eq ?_
    simp [refreshArgs, hh, StoredMember.snapshot, hstate]
  rw [← hstate, ← hkept]
  exact hpub.state

theorem Published.closed (hpub : Published m (refreshArgs m s) h')
    (hclosed : m.rest.accepting = false) :
    h'.accepting = false ∧ h'.record.rest.accepting = false := by
  have hkept : (refreshArgs m s).persistedAccepting = false := persistedAccepting_eq hclosed
  rw [← hkept]
  exact hpub.accepting

end MirrorStore

open MirrorStore in
/-- A publication beside the member that was read is an observation. -/
theorem observed_of_published {s : MirrorStore} {name : String} {h h' : MirrorHash}
    (hh : s.members name = some h) (hp : Persisted name h)
    (hfenced : h.record.wellFenced = true) {snapshot : MemberSnapshot}
    (hname : snapshot.name = name)
    (hpub : Published (observedMember (.ofSnapshot snapshot) (some h.record))
      (refreshArgs (observedMember (.ofSnapshot snapshot) (some h.record)) s) h')
    (leases : Finset String) : Observed snapshot leases h h' := by
  obtain ⟨v, hv, hversion, hrecord⟩ := hp.version
  obtain ⟨f, hf, hfence, hfence'⟩ := hp.fence hfenced
  have hh' : s.members (observedMember (.ofSnapshot snapshot) (some h.record)).rest.name =
      some h := by
    rw [observedMember_name]
    exact hname ▸ hh
  have hle := le_observedMember_fence (.ofSnapshot snapshot) h.record
  rw [hfence', Number.value_int] at hle
  obtain ⟨⟨hv₁, hv₂⟩, hf₁, hf₂⟩ := hpub.observed hh' hv hversion hf hle
  have hheld : ∀ blocker, lifecycleBlocker h.state = some blocker →
      h'.Shows h.state ∧ h'.accepting = false ∧ h'.record.rest.accepting = false := by
    intro blocker hblocker
    rw [← hp.state] at hblocker
    obtain ⟨hstate, hclosed⟩ := @observedMember_held (.ofSnapshot snapshot) _ _ hblocker
    exact ⟨hpub.shows hh' (hstate.trans hp.state), hpub.closed hclosed⟩
  refine ⟨?_, fun _ => ?_, fun _ => ?_, fun hmalformed => absurd hmalformed (by simp [hfenced]),
    ?_, ?_⟩
  · rw [hversion, hrecord]
    exact ⟨hv₁, hv₂⟩
  · rw [hfence, hfence']
    exact ⟨hf₁, hf₂⟩
  · have hpublished := @observedMember_fence (.ofSnapshot snapshot) _ _ _ rfl hfence'
    rw [hp.state] at hpublished
    unfold FencedBy
    rw [hpub.fence.1, hpub.fence.2, hpublished, hfence, hfence']
    split
    next hfree => exact Or.inr ⟨hfree, rfl, rfl⟩
    · exact Or.inl ⟨rfl, hf.throughLua_eq⟩
  · rintro (hstate | hstate | hstate) - <;> exact hheld _ (by rw [hstate]; rfl)
  · intro hjoining
    exact Or.inl (hjoining ▸ (hheld _ (by rw [hjoining]; rfl)).1)

open MirrorStore in
/-- The hash of a completed rejoin, and a publication over it, are observations
of the member that was joining. -/
theorem observed_of_rejoined {s : MirrorStore} {name : String} {h : MirrorHash}
    (hp : Persisted name h) (hfenced : h.record.wellFenced = true) {snapshot : MemberSnapshot}
    (hcompletes : CompletesRejoin snapshot h.record s) (hname : snapshot.name = name)
    {h' : MirrorHash}
    (hresult : h' = lifecycleHash (rejoined (.ofSnapshot snapshot) h.record) h ∨
      Published (rejoined (.ofSnapshot snapshot) h.record)
        (refreshArgs (rejoined (.ofSnapshot snapshot) h.record)
          (s.put name (lifecycleHash (rejoined (.ofSnapshot snapshot) h.record) h))) h') :
    Observed snapshot (s.leases name) h h' := by
  obtain ⟨v, hv, hversion, hrecord⟩ := hp.version
  obtain ⟨f, hf, hfence, hfence'⟩ := hp.fence hfenced
  obtain ⟨hjoining, hready, -, hblockers, hreasons, hleases⟩ := hcompletes
  rw [hp.state] at hjoining
  generalize hu : rejoined (.ofSnapshot snapshot) h.record = u at hresult
  have hstep : u.stateVersion = .int (v + 1) := by simp [← hu, rejoined, hrecord]
  have hsame : u.generationFence = .int f := by simp [← hu, rejoined, hfence']
  have hstate : u.rest.state = .readyAccepting := by rw [← hu]; rfl
  have hnamed : u.rest.name = name := by rw [← hu]; exact hname
  have hempty : s.leases name = ∅ := hname ▸ Finset.card_eq_zero.mp hleases
  have hle : v ≤ (throughLua (v + 1)).value := le_throughLua_value hv.1 hv.2 (by omega)
  have hfacts : ((v ≤ h'.stateVersion.value ∧ v ≤ h'.record.stateVersion.value) ∧
      f ≤ h'.generationFence.value ∧ f ≤ h'.record.generationFence.value) ∧
      h'.Shows .readyAccepting := by
    rcases hresult with rfl | hpub
    · refine ⟨⟨⟨?_, ?_⟩, ?_, ?_⟩, hstate, hstate⟩
      · simp [lifecycleHash, hstep]
      · simpa [lifecycleHash, StoredMember.throughLua, hstep] using hle
      · simp [lifecycleHash, hsame]
      · simp [lifecycleHash, StoredMember.throughLua, hsame, hf.throughLua_eq]
    · have hh' : (s.put name (lifecycleHash u h)).members u.rest.name =
          some (lifecycleHash u h) := by
        rw [hnamed]
        simp
      have hkept : (refreshArgs u (s.put name (lifecycleHash u h))).persistedState =
          .readyAccepting := by
        refine (persistedState_eq ?_).trans hstate
        unfold refreshArgs
        rw [hh']
        rfl
      have hversion' : v ≤ (refreshArgs u (s.put name (lifecycleHash u h))).effectiveVersion := by
        unfold Lua.RefreshArgs.effectiveVersion refreshArgs
        rw [hh']
        simp [lifecycleHash, hstep]
      refine ⟨⟨⟨?_, ?_⟩, ?_, ?_⟩, hkept ▸ hpub.state⟩
      · rw [hpub.version.1]
        exact hversion'
      · rw [hpub.version.2]
        exact le_throughLua_value hv.1 hv.2 hversion'
      · rw [hpub.fence.1, hsame, Number.value_int]
      · rw [hpub.fence.2, hsame, Number.value_int, hf.throughLua_eq, Number.value_int]
  refine ⟨?_, fun _ => ?_, fun _ => Or.inl ?_,
    fun hmalformed => absurd hmalformed (by simp [hfenced]), ?_,
    fun _ => Or.inr ⟨hfacts.2, hempty, hready, hblockers, hreasons⟩⟩
  · rw [hversion, hrecord]
    exact hfacts.1.1
  · rw [hfence, hfence']
    exact hfacts.1.2
  · rw [hfence, hfence']
    rcases hresult with rfl | hpub
    · simp [lifecycleHash, StoredMember.throughLua, hsame, hf.throughLua_eq]
    · rw [hpub.fence.1, hpub.fence.2, hsame, Number.value_int, hf.throughLua_eq]
      exact ⟨rfl, rfl⟩
  · rintro (hstate | hstate | hstate) <;> simp [hjoining] at hstate

namespace BrokerService

def reduced (evidence : String → Probes) (now : ℚ) (name : String) (w : BrokerService) :
    Option MemberSnapshot :=
  (w.cache.update name (evidence name) now).map (·.1)

variable {snapshot : MemberSnapshot} {w : BrokerService} {other : String} {name : String}

/-- The reduced snapshot is the member's own. -/
theorem name_of_update {cache cache' : StrictMemberSnapshotCache} {probes : Probes}
    {now : ℚ} (h : cache.update name probes now = some (snapshot, cache')) :
    snapshot.name = name := by
  obtain ⟨config, previous, -, -, rfl, -⟩ := StrictMemberSnapshotCache.update_eq_some h
  exact (strict_mapMemberReady ..).named

theorem publish_store (snapshot : MemberSnapshot) (cache : StrictMemberSnapshotCache)
    (persisted : Option StoredMember) (s : MirrorStore) :
    (publish snapshot cache persisted s).2.store =
      match s.completeRejoin snapshot persisted with
      | (.error _, s') => s'
      | (.ok (snapshot', persisted'), s') =>
        (s'.putMember (MirrorStore.observedMember snapshot' persisted')).2 := by
  unfold publish
  rcases s.completeRejoin snapshot persisted with ⟨_ | ⟨snapshot', persisted'⟩, s'⟩
  · rfl
  · dsimp only
    rcases s'.putMember (MirrorStore.observedMember snapshot' persisted') with ⟨_ | _, _⟩ <;> rfl

open MirrorStore in
/-- The second half of a turn over a member that was read. -/
theorem publish_observed {s : MirrorStore} {h : MirrorHash}
    (hh : s.members name = some h) (hp : Persisted name h) (hfenced : h.record.wellFenced = true)
    (hname : snapshot.name = name) (cache : StrictMemberSnapshotCache) :
    ∃ h', (publish snapshot cache (some h.record) s).2.store.members name = some h' ∧
      Observed snapshot (s.leases name) h h' := by
  subst hname
  rw [publish_store]
  rcases completeRejoin_cases hh hfenced hp.named with ⟨e, heq⟩ | heq | ⟨hcompletes, heq⟩ <;>
    rw [heq]
  · exact ⟨h, hh, hp.observed_self _ _⟩
  · dsimp only
    rcases putMember_published (observedMember (.ofSnapshot snapshot) (some h.record)) s
      with hsame | ⟨h', hput, hpub⟩
    · rw [hsame]
      exact ⟨h, hh, hp.observed_self _ _⟩
    rw [hput, observedMember_name]
    exact ⟨h', by simp [StoredMember.ofSnapshot],
      observed_of_published hh hp hfenced rfl hpub _⟩
  · dsimp only
    rw [observedMember_ready (by rfl)]
    rcases putMember_published (rejoined (.ofSnapshot snapshot) h.record) _
      with hsame | ⟨h', hput, hpub⟩
    · rw [hsame]
      exact ⟨_, by simp, observed_of_rejoined hp hfenced hcompletes rfl (Or.inl rfl)⟩
    rw [hput]
    exact ⟨h', by simp [rejoined, StoredMember.ofSnapshot],
      observed_of_rejoined hp hfenced hcompletes rfl (Or.inr hpub)⟩

open MirrorStore in
/-- The hash of a repair is one whose copies agree. -/
theorem persisted_repairedHash {h : MirrorHash} (hp : Persisted name h) :
    Persisted name (repairedHash h) where
  named := hp.named
  state := rfl
  accepting := rfl
  version := by
    obtain ⟨v, hv, -, hrecord⟩ := hp.version
    exact ⟨v, hv, by simp [repairedHash, hrecord, hv.throughLua_eq], hrecord⟩
  fence _ := ⟨0, small_zero, rfl, rfl⟩

open MirrorStore in
/-- An observation of a repaired hash is one of the hash itself. -/
theorem observed_of_repaired {h h' : MirrorHash} (hp : Persisted name h)
    (hfenced : h.record.wellFenced = false) (hstate : h.record.rest.state ∈ repairable)
    (hclosed : h.record.rest.accepting = false) {leases : Finset String} (hleases : leases = ∅)
    (hobserved : Observed snapshot leases (repairedHash h) h') : Observed snapshot leases h h' := by
  obtain ⟨v, hv, hversion, hrecord⟩ := hp.version
  have hsame : (repairedHash h).state = h.state := hp.state
  refine ⟨?_, fun h => absurd h (by simp [hfenced]), fun h => absurd h (by simp [hfenced]),
    fun _ => Or.inr ⟨hp.state ▸ hstate, hp.accepting ▸ hclosed, hleases, ?_⟩, fun hheld _ => ?_,
    fun hjoining => hobserved.joining (hsame.trans hjoining)⟩
  · have := hobserved.version
    simpa [repairedHash, hversion, hrecord, hv.throughLua_eq] using this
  · rcases hobserved.fencedBy rfl with hzero | ⟨hfree, hpublished⟩
    · exact Or.inl hzero
    · -- the only repairable state that no controller owns
      have hunhealthy : ∀ state ∈ repairable, lifecycleBlocker state = none →
          state = .unhealthy := by decide
      refine Or.inr ⟨hunhealthy _ (hp.state ▸ hstate) (hsame ▸ hfree), ?_⟩
      simpa [repairedHash] using hpublished
  · rw [← hsame] at hheld ⊢
    exact hobserved.held hheld hclosed

open MirrorStore in
/-- **One member's turn is an observation of it**, or leaves it. -/
theorem refreshMember_observed {h : MirrorHash} (hh : w.store.members name = some h)
    (hp : Persisted name h) (evidence : String → Probes) (now : ℚ) :
    ∃ h', (w.refreshMember evidence now name).2.store.members name = some h' ∧
      (h' = h ∨ ∃ snapshot, w.reduced evidence now name = some snapshot ∧
        Observed snapshot (w.store.leases name) h h') := by
  unfold refreshMember reduced
  cases hupdate : w.cache.update name (evidence name) now with
  | none => exact ⟨h, hh, Or.inl rfl⟩
  | some result =>
    obtain ⟨snapshot, cache⟩ := result
    have hname := name_of_update hupdate
    dsimp only
    rcases readOrRepair_cases hh with ⟨hfenced, heq⟩ | ⟨e, heq⟩ |
      ⟨hfenced, hstate, hclosed, hleases, heq⟩ <;> rw [heq]
    · obtain ⟨h', hh', hobserved⟩ := publish_observed hh hp hfenced hname cache
      exact ⟨h', hh', Or.inr ⟨snapshot, rfl, hobserved⟩⟩
    · exact ⟨h, hh, Or.inl rfl⟩
    obtain ⟨h', hh', hobserved⟩ := publish_observed (s := w.store.put name (repairedHash h))
      (h := repairedHash h) (by simp) (persisted_repairedHash hp) rfl hname cache
    exact ⟨h', hh', Or.inr ⟨snapshot, rfl,
      observed_of_repaired hp hfenced hstate hclosed hleases hobserved⟩⟩

/-! ## The other members -/

/-- The two services agree on everything about a member. -/
structure SameMember (other : String) (w w' : BrokerService) : Prop where
  members : w'.store.members other = w.store.members other
  leases : w'.store.leases = w.store.leases
  cached : w'.cache.cached other = w.cache.cached other
  configs : w'.cache.configs = w.cache.configs
  freshness : w'.cache.freshnessMs = w.cache.freshnessMs

theorem SameMember.refl (other : String) (w : BrokerService) : SameMember other w w :=
  ⟨rfl, rfl, rfl, rfl, rfl⟩

theorem SameMember.reduced {w' : BrokerService} (hsame : SameMember other w w')
    (evidence : String → Probes) (now : ℚ) :
    w'.reduced evidence now other = w.reduced evidence now other := by
  unfold BrokerService.reduced StrictMemberSnapshotCache.update
  rw [hsame.configs, hsame.cached, hsame.freshness]
  split <;> rfl

open MirrorStore in
/-- `put_member` writes the hash of its own member. -/
theorem putMember_frame (m : StoredMember) (s : MirrorStore) :
    (s.putMember m).2.leases = s.leases ∧
      ∀ other, other ≠ m.rest.name → (s.putMember m).2.members other = s.members other := by
  rcases putMember_published m s with heq | ⟨h', heq, -⟩ <;> rw [heq]
  · exact ⟨rfl, fun _ _ => rfl⟩
  · exact ⟨rfl, fun other hother => by simp [hother]⟩

/-- The second half of a turn writes the member's own cache entry. -/
theorem publish_cache (snapshot : MemberSnapshot) (cache : StrictMemberSnapshotCache)
    (persisted : Option StoredMember) (s : MirrorStore) :
    (publish snapshot cache persisted s).2.cache = cache ∨
      ∃ m, (publish snapshot cache persisted s).2.cache = cache.store snapshot.name m := by
  unfold publish
  rcases s.completeRejoin snapshot persisted with ⟨_ | ⟨snapshot', persisted'⟩, s'⟩
  · exact Or.inl rfl
  dsimp only
  rcases s'.putMember (MirrorStore.observedMember snapshot' persisted') with ⟨_ | _, _⟩ <;>
    exact Or.inr ⟨_, rfl⟩

open MirrorStore in
theorem publish_frame {s : MirrorStore} {persisted : Option StoredMember}
    (cache : StrictMemberSnapshotCache)
    (hread : persisted = none ∨ ∃ h, s.members snapshot.name = some h ∧
      h.record.wellFenced = true ∧ h.record.rest.name = snapshot.name ∧
      persisted = some h.record) :
    (publish snapshot cache persisted s).2.store.leases = s.leases ∧
      ∀ other, other ≠ snapshot.name →
        (publish snapshot cache persisted s).2.store.members other = s.members other := by
  rw [publish_store]
  rcases hread with rfl | ⟨h, hh, hfenced, hnamed, rfl⟩
  · exact putMember_frame (.ofSnapshot snapshot) s
  rcases completeRejoin_cases hh hfenced hnamed with ⟨e, heq⟩ | heq | ⟨-, heq⟩ <;> rw [heq]
  · exact ⟨rfl, fun _ _ => rfl⟩
  · have hput := putMember_frame (observedMember (.ofSnapshot snapshot) (some h.record)) s
    rwa [observedMember_name] at hput
  have hput := putMember_frame (observedMember (rejoined (.ofSnapshot snapshot) h.record)
    (some (rejoined (.ofSnapshot snapshot) h.record)))
    (s.put snapshot.name (lifecycleHash (rejoined (.ofSnapshot snapshot) h.record) h))
  rw [observedMember_name] at hput
  refine ⟨hput.1, fun other hother => (hput.2 other hother).trans ?_⟩
  simp [hother]

open MirrorStore in
/-- **A turn leaves every other member alone.** -/
theorem refreshMember_frame
    (hp : ∀ h, w.store.members name = some h → Persisted name h) (evidence : String → Probes)
    (now : ℚ) (hother : other ≠ name) :
    SameMember other w (w.refreshMember evidence now name).2 := by
  unfold refreshMember
  cases hupdate : w.cache.update name (evidence name) now with
  | none => exact .refl other w
  | some result =>
    obtain ⟨snapshot, cache⟩ := result
    obtain rfl := name_of_update hupdate
    obtain ⟨config, previous, -, -, -, rfl⟩ := StrictMemberSnapshotCache.update_eq_some hupdate
    -- the cache before and after the second half differs from `w` at the name only
    have hcache : ∀ (persisted : Option StoredMember) (s : MirrorStore), s.leases = w.store.leases →
        s.members other = w.store.members other →
        (persisted = none ∨ ∃ h, s.members snapshot.name = some h ∧
          h.record.wellFenced = true ∧ h.record.rest.name = snapshot.name ∧
          persisted = some h.record) →
        SameMember other w
          (publish snapshot (w.cache.store snapshot.name snapshot) persisted s).2 := by
      intro persisted s hleases hmembers hread
      obtain ⟨hl, hm⟩ := publish_frame (w.cache.store snapshot.name snapshot) hread
      refine ⟨(hm other hother).trans hmembers, hl.trans hleases, ?_, ?_, ?_⟩ <;>
        rcases publish_cache snapshot (w.cache.store snapshot.name snapshot) persisted s
          with heq | ⟨m, heq⟩ <;> rw [heq] <;>
        simp [StrictMemberSnapshotCache.store, hother]
    have hfailed : SameMember other w ⟨w.cache.store snapshot.name snapshot, w.store⟩ :=
      ⟨rfl, rfl, by simp [StrictMemberSnapshotCache.store, hother], rfl, rfl⟩
    dsimp only
    cases hh : w.store.members snapshot.name with
    | none =>
      have heq : w.store.readOrRepair snapshot.name = (.ok none, w.store) := by
        simp [readOrRepair, getMember, hh]
      rw [heq]
      exact hcache none w.store rfl rfl (Or.inl rfl)
    | some h =>
      have hmember := hp h hh
      rcases readOrRepair_cases hh with ⟨hfenced, heq⟩ | ⟨e, heq⟩ |
        ⟨-, -, -, -, heq⟩ <;> rw [heq]
      · exact hcache _ _ rfl rfl (Or.inr ⟨h, hh, hfenced, hmember.named, rfl⟩)
      · exact hfailed
      · exact hcache _ _ rfl (by simp [hother])
          (Or.inr ⟨repairedHash h, by simp, rfl, hmember.named, rfl⟩)

/-! ## The whole pass -/

/-- What a pass has made of a member: nothing, or what its reduced snapshot
allows. -/
def Respected (w : BrokerService) (evidence : String → Probes) (now : ℚ) (name : String)
    (h h' : MirrorHash) : Prop :=
  h' = h ∨ ∃ snapshot, w.reduced evidence now name = some snapshot ∧
    Observed snapshot (w.store.leases name) h h'

/-- A pass over other members leaves a member. -/
theorem refreshOnce_frame (evidence : String → Probes) (now : ℚ) {names : List String}
    (hother : other ∉ names) (hnodup : names.Nodup)
    (hp : ∀ name ∈ names, ∀ h, w.store.members name = some h → Persisted name h) :
    (w.refreshOnce evidence now names).2.store.members other = w.store.members other := by
  induction names generalizing w with
  | nil => rfl
  | cons name names ih =>
    obtain ⟨hne, hnot⟩ := not_or.mp (fun h => hother (List.mem_cons.mpr h))
    obtain ⟨hfresh, hnodup⟩ := List.nodup_cons.mp hnodup
    have hsame := refreshMember_frame (hp name List.mem_cons_self) evidence now hne
    have hrest : ∀ n ∈ names, ∀ h,
        (w.refreshMember evidence now name).2.store.members n = some h → Persisted n h := by
      intro n hn h hh
      have hn' : n ≠ name := fun h => hfresh (h ▸ hn)
      rw [(refreshMember_frame (hp name List.mem_cons_self) evidence now hn').members] at hh
      exact hp n (List.mem_cons_of_mem _ hn) h hh
    unfold refreshOnce
    rcases hturn : w.refreshMember evidence now name with ⟨_ | _, w'⟩ <;> rw [hturn] at hsame hrest
    · exact hsame.members
    · exact (ih hnot hnodup hrest).trans hsame.members

/-- **Observation takes no lifecycle authority.**  One pass over members whose
copies agree keeps their versions and fences from falling, leaves a drain, an
offline member and a quarantine, and ends a rejoin only on an empty lease set and
a ready snapshot.  A fence that no reader accepts is left, or the repair resets it at a closed
member without leases; beside an unhealthy one the fence of the snapshot is then published. -/
theorem refreshOnce_observed {w : BrokerService} {names : List String} (hnodup : names.Nodup)
    (hp : ∀ name h, w.store.members name = some h → Persisted name h)
    (evidence : String → Probes) (now : ℚ) {name : String} {h : MirrorHash}
    (hh : w.store.members name = some h) :
    ∃ h', (w.refreshOnce evidence now names).2.store.members name = some h' ∧
      Respected w evidence now name h h' := by
  have hnames : ∀ n ∈ names, ∀ h, w.store.members n = some h → Persisted n h :=
    fun n _ h => hp n h
  replace hp := hp name h hh
  induction names generalizing w with
  | nil => exact ⟨h, hh, Or.inl rfl⟩
  | cons head names ih =>
    obtain ⟨hfresh, htail⟩ := List.nodup_cons.mp hnodup
    have hrest : ∀ n ∈ names, ∀ h,
        (w.refreshMember evidence now head).2.store.members n = some h → Persisted n h := by
      intro n hn h hh
      have hn' : n ≠ head := fun h => hfresh (h ▸ hn)
      rw [(refreshMember_frame (hnames head List.mem_cons_self) evidence now hn').members] at hh
      exact hnames n (List.mem_cons_of_mem _ hn) h hh
    unfold refreshOnce
    by_cases hname : name = head
    · subst hname
      obtain ⟨h', hh', hobserved⟩ := refreshMember_observed hh hp evidence now
      rcases hturn : w.refreshMember evidence now name with ⟨_ | _, w'⟩ <;>
        rw [hturn] at hh' hrest
      · exact ⟨h', hh', hobserved⟩
      · exact ⟨h', (refreshOnce_frame evidence now hfresh htail hrest).trans hh', hobserved⟩
    · have hsame := refreshMember_frame (hnames head List.mem_cons_self) evidence now hname
      rcases hturn : w.refreshMember evidence now head with ⟨_ | _, w'⟩ <;>
        rw [hturn] at hsame hrest
      · exact ⟨h, hsame.members.trans hh, Or.inl rfl⟩
      obtain ⟨h', hh', hrespected⟩ := ih htail (hsame.members.trans hh) hrest
      refine ⟨h', hh', ?_⟩
      rcases hrespected with rfl | ⟨snapshot, hreduced, hobserved⟩
      · exact Or.inl rfl
      rw [hsame.reduced] at hreduced
      rw [hsame.leases] at hobserved
      exact Or.inr ⟨snapshot, hreduced, hobserved⟩

def brokerOf (s : MirrorStore) : BrokerService where
  cache := .new [("m", cpuMember)] 5000
  store := s

/-- A drained member stays offline, whatever is reported. -/
theorem refreshOnce_observed_offline :
    ∃ h', ((brokerOf drainedStore).refreshOnce (fun _ => {}) 0 ["m"]).2.store.members "m" =
        some h' ∧
      ∃ h, drainedStore.members "m" = some h ∧
        Respected (brokerOf drainedStore) (fun _ => {}) 0 "m" h h' := by
  have hpersisted : ∀ name h, drainedStore.members name = some h → Persisted name h := by
    intro name h hh
    by_cases hname : name = "m"
    · subst hname
      obtain rfl : _ = h := Option.some.inj hh
      exact ⟨rfl, rfl, rfl, ⟨4, by decide, rfl, rfl⟩, fun _ => ⟨0, by decide, rfl, rfl⟩⟩
    · simp [drainedStore, MirrorStore.empty, hname] at hh
  obtain ⟨h', hh', hrespected⟩ := @refreshOnce_observed (brokerOf drainedStore) ["m"] (by decide)
    hpersisted (fun _ => {}) 0 "m" _ rfl
  exact ⟨h', hh', _, rfl, hrespected⟩

/-- A rejoin under a fence of fifteen digits leaves a record that no reader
accepts; the next pass sets the fence to zero. -/
theorem refreshOnce_resets_fence :
    ((drainedStore.beginMemberRejoin "m" 4 100000000000001).2.members "m").map
        (·.generationFence) = some (.int 100000000000001) ∧
      (((brokerOf (drainedStore.beginMemberRejoin "m" 4 100000000000001).2).refreshOnce
        (fun _ => {}) 0 ["m"]).2.store.members "m").map (·.generationFence) = some (.int 0) := by
  constructor <;> decide +kernel

end BrokerService

end GpuManager.Broker
