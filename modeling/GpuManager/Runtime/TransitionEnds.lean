import GpuManager.Runtime.FenceSafety
import GpuManager.Runtime.Transition

/-!
# How a transition ends

* `transitionRules`: what the other owners and the clock keep.  A lease that is no longer the
  stored unexpired one never becomes it again.
* `wp_transitionRuntime`: from its begin on, a transition that is not disturbed ends in the state
  that its evidence supports, on each of its paths.
* `transition_settled`: so does every play of it.
* `cancelledTwice_not_settled`: a second cancellation, while the handler of the first awaits
  `reconcile`, leaves a record in transition behind a live lease.
-/

namespace GpuManager.Runtime

open AtomicProgram PyStr TransitionProg Option List PyDict Prod StateCall

variable {c : Contracts} {call : TransitionCall} {s s' : TransitionState} {now : ℚ}

/-! ## The lease of the transition -/

/-- The lease of the transition is the stored one, and has not expired. -/
def TransitionState.Holds (s : TransitionState) : Prop :=
  ∃ lease ∈ s.lease, ∃ record ∈ s.records.get? lease.instanceId, Owned record lease s.clock

instance (s : TransitionState) : Decidable s.Holds := by
  unfold TransitionState.Holds
  infer_instance

/-- The record of a transition that failed: blocked, with no owner, and not accepting. -/
def InstanceRecord.Blocked (record : InstanceRecord) : Prop :=
  record.state = .blocked ∧ record.transitionOwner = none ∧ record.accepting = false

/-- The state of a record that is in a desired state. -/
def DesiredState.control : DesiredState → ControlState
  | ready => .ready
  | stopped => .stopped

/-- The adapter has produced the evidence for a record that is returned: a complete observation of
the desired state, for the requested profile.  The record has the fence of the transition. -/
def Evidenced (c : Contracts) (call : TransitionCall) (record : InstanceRecord)
    (s : TransitionState) : Prop :=
  ∃ lease ∈ s.lease, ∃ observation ∈ s.produced, ∃ state, desired call.desiredState = .ok state ∧
    record.transitionFence = lease.fence ∧
    observationErrors c call.profileName call.profile observation = some [] ∧
    observationReachedDesired observation state = true ∧
    record.state = state.control

/-- **The end that the evidence supports.**  What is returned is evidenced; after any other exit,
the transition has ended with a blocked record or, if its end raised only after it, a published
one, or else its lease is no longer the stored unexpired one. -/
def Settled (c : Contracts) (call : TransitionCall) (r : Except Raised InstanceRecord)
    (s : TransitionState) : Prop :=
  match r with
  | .ok record => Evidenced c call record s
  | .error _ =>
    match s.ended with
    | some record => record.Blocked ∨ Evidenced c call record s
    | none => ¬ s.Holds

/-- While the lease is held, the adapter raises no `BaseException` but a cancellation, and none of
these while the handlers reconcile; the failure can be written down, is not cancelled, and a given
`now` is before the stored end of the lease.  An observation that names the stored profile names
the requested one. -/
def Undisturbed (call : TransitionCall) (command : TransitionCommand) (o : TransitionOutcome)
    (s : TransitionState) : Prop :=
  match command with
  | .bindTransition _ => s.Holds → o.raises ≠ some .base
  | .adapter .reconcile => s.Holds → o.raises ≠ some .cancelled ∧ o.raises ≠ some .base
  | .adapter _ => s.Holds → o.raises ≠ some .base
  | .failTransition lease error => s.Holds → o.raises = none ∧ error.isSome = true ∧
      ∀ now ∈ call.now, ∀ record ∈ s.records.get? lease.instanceId,
        now < record.transitionExpiresAt
  | .publishObservation lease observation => ∀ record ∈ s.records.get? lease.instanceId,
      (observation.get "profile_name").str? = some record.profileName →
        record.profileName = call.profileName
  | _ => True

instance (call : TransitionCall) (command : TransitionCommand) (o : TransitionOutcome)
    (s : TransitionState) : Decidable (Undisturbed call command o s) := by
  unfold Undisturbed
  split <;> infer_instance

/-! ## What the others keep -/

/-- Records are stored under their own ids, and no fence is ever taken back. -/
structure Kept (s : TransitionState) : Prop where
  named : ∀ id record, s.records.get? id = some record → record.instanceId = id
  fence : ∀ lease ∈ s.lease, ∃ record, s.records.get? lease.instanceId = some record ∧
    lease.fence ≤ record.transitionFence

structure Meantime (s s' : TransitionState) : Prop where
  clock : s.clock ≤ s'.clock
  lease : s'.lease = s.lease
  produced : s'.produced = s.produced
  ended : s'.ended = s.ended
  holds : s'.Holds → s.Holds

variable {records : Records} {other : StateCall} {current : InstanceRecord} {answer : Returned}

/-- A written record has the id of its instance. -/
theorem written_named (hnamed : ∀ id record, records.get? id = some record → record.instanceId = id)
    (hcurrent : other.current c records = some current) :
    (other.written c current).instanceId = other.instanceId := by
  have hid : current.instanceId = other.instanceId := by
    cases hrecord : records.get? other.instanceId with
    | some record =>
      rw [StateCall.current_eq other hrecord] at hcurrent
      obtain rfl := some.inj hcurrent
      exact hnamed _ _ hrecord
    | none =>
      cases other <;> simp_all [StateCall.current, StateCall.instanceId]
      all_goals exact congrArg InstanceRecord.instanceId hcurrent.symm
  cases other <;> exact hid

theorem written_fence (other : StateCall) (current : InstanceRecord) :
    current.transitionFence ≤ (other.written c current).transitionFence := by
  cases other with
  | beginTransition => exact (Int.lt_add_one_iff.mpr le_rfl).le
  | _ => exact le_rfl

/-- A call that presents another lease does not make one the stored unexpired one. -/
theorem owned_of_written {lease : TransitionLease}
    (hadmitted : other.Admitted c records) (hcurrent : other.current c records = some current)
    (hid : other.instanceId = lease.instanceId) (hforeign : ¬ other.PresentsOwn (some lease))
    (hfence : lease.fence ≤ current.transitionFence)
    (howned : Owned (other.written c current) lease now) : Owned current lease now := by
  have hpresents : ∀ presented time, other.presents = some (presented, time) →
      presented.instanceId = other.instanceId →
      current.transitionOwner = some lease.owner → current.transitionFence = lease.fence → False := by
    intro presented time hpresents hsame howner hfence'
    obtain ⟨record, hrecord, howned'⟩ := owned_of_admitted hpresents hadmitted
    rw [hsame] at hrecord
    rw [current_eq other hrecord] at hcurrent
    obtain rfl := some.inj hcurrent
    refine hforeign ⟨presented, ?_, lease, rfl, hsame.trans hid, ?_, ?_⟩
    · rw [hpresents]
      rfl
    · exact some.inj (howned'.owner.symm.trans howner)
    · exact howned'.fence.symm.trans hfence'
  cases other with
  | register instanceId profileName profile time =>
    exact ⟨howned.owner, howned.fence, howned.named, howned.live⟩
  | beginTransition instanceId profileName profile owner desiredState ttlSeconds time =>
    have hnext : current.transitionFence + 1 = lease.fence := howned.fence
    omega
  | renew presented ttlSeconds time =>
    exact (hpresents presented time rfl rfl howned.owner howned.fence).elim
  | failTransition presented error time => cases howned.owner
  | publishObservation presented profile observation time =>
    have howner : (if (stateForObservation observation).Final then none
        else current.transitionOwner) = some lease.owner := howned.owner
    split at howner
    · cases howner
    · exact (hpresents presented time rfl rfl howner howned.fence).elim

theorem Kept.change (h : Kept s) (hchange : change c other s.records = .ok (answer, records)) :
    Kept { s with records := records } := by
  obtain ⟨-, current, hcurrent, -, rfl⟩ := change_ok hchange
  refine ⟨fun id record hrecord => ?_, fun lease hlease => ?_⟩
  · rw [PyDict.get?_set] at hrecord
    split at hrecord
    case isTrue hid =>
      obtain rfl := some.inj hrecord
      exact hid ▸ written_named h.named hcurrent
    case isFalse => exact h.named id record hrecord
  · obtain ⟨record, hrecord, hfence⟩ := h.fence lease hlease
    show ∃ record, PyDict.get? (PyDict.set s.records _ _) _ = some record ∧ _
    rw [PyDict.get?_set]
    by_cases hid : lease.instanceId = other.instanceId
    · rw [if_pos hid]
      rw [hid] at hrecord
      rw [StateCall.current_eq other hrecord] at hcurrent
      obtain rfl := some.inj hcurrent
      exact ⟨_, rfl, hfence.trans (written_fence other record)⟩
    · rw [if_neg hid]
      exact ⟨record, hrecord, hfence⟩

/-- A call that does not present the lease does not bring it back. -/
theorem holds_of_change (h : Kept s) (hforeign : ¬ other.PresentsOwn s.lease)
    (hchange : change c other s.records = .ok (answer, records))
    (hholds : TransitionState.Holds { s with records := records }) : s.Holds := by
  obtain ⟨lease, hlease, record, hrecord, howned⟩ := hholds
  obtain ⟨hadmitted, current, hcurrent, -, rfl⟩ := change_ok hchange
  obtain ⟨before, hbefore, hfence⟩ := h.fence lease hlease
  refine ⟨lease, hlease, before, hbefore, ?_⟩
  have hset : get? (set s.records other.instanceId (other.written c current))
      lease.instanceId = some record := hrecord
  rw [get?_set] at hset
  split at hset
  case isTrue hid =>
    obtain rfl := some.inj hset
    rw [hid] at hbefore
    rw [current_eq other hbefore] at hcurrent
    obtain rfl := some.inj hcurrent
    exact owned_of_written hadmitted (current_eq other hbefore) hid.symm
      (mem_def.mp hlease ▸ hforeign) hfence howned
  case isFalse =>
    rw [hbefore] at hset
    obtain rfl := some.inj hset
    exact howned

theorem Meantime.refl (s : TransitionState) : Meantime s s := ⟨le_rfl, rfl, rfl, rfl, id⟩

theorem Meantime.trans {s'' : TransitionState} (h : Meantime s s') (h' : Meantime s' s'') :
    Meantime s s'' :=
  ⟨h.clock.trans h'.clock, h'.lease.trans h.lease, h'.produced.trans h.produced,
    h'.ended.trans h.ended, h.holds ∘ h'.holds⟩

/-- A renewal that succeeds is one of the stored unexpired lease. -/
theorem holds_of_renew (c : Contracts) {lease : TransitionLease} {answer : TransitionLease}
    (hlease : lease ∈ s.lease)
    (hrenew : Runtime.renew lease call.ttlSeconds s.clock s.records = .ok (answer, records)) :
    s.Holds := by
  have hchange : change c (.renew lease call.ttlSeconds s.clock) s.records =
      .ok (.lease answer, records) := congrArg (Except.map _) hrenew
  obtain ⟨record, hrecord, -, howned⟩ := (change_ok hchange).1
  exact ⟨lease, hlease, record, hrecord, howned⟩

/-- **One move of the others.** -/
theorem meanwhile_keeps {e : Meanwhile} (hmove : transitionEnv c call e s = some s')
    (h : Kept s) : Kept s' ∧ Meantime s s' := by
  cases e with
  | tick clock =>
    simp only [transitionEnv] at hmove
    split at hmove
    case isFalse => cases hmove
    case isTrue hclock =>
      obtain rfl := some.inj hmove
      refine ⟨⟨h.named, h.fence⟩, hclock, rfl, rfl, rfl, ?_⟩
      rintro ⟨lease, hlease, record, hrecord, howned⟩
      exact ⟨lease, hlease, record, hrecord, howned.owner, howned.fence, howned.named,
        lt_of_le_of_lt hclock howned.live⟩
  | keepalive =>
    simp only [transitionEnv] at hmove
    split at hmove
    case h_2 => cases hmove
    case h_1 lease hkeeping hlease =>
      split at hmove
      · rename_i answer records hrenew
        obtain rfl := some.inj hmove
        have hchange : change c (.renew lease call.ttlSeconds s.clock) s.records =
            .ok (.lease answer, records) := congrArg (Except.map _) hrenew
        exact ⟨h.change hchange, le_rfl, rfl, rfl, rfl,
          fun _ => holds_of_renew c hlease hrenew⟩
      · obtain rfl := some.inj hmove
        exact ⟨⟨h.named, h.fence⟩, le_rfl, rfl, rfl, rfl, id⟩
  | other other =>
    simp only [transitionEnv] at hmove
    split at hmove
    case isTrue => cases hmove
    case isFalse hforeign =>
      split at hmove
      · rename_i answer records hchange
        obtain rfl := some.inj hmove
        exact ⟨h.change hchange, le_rfl, rfl, rfl, rfl, holds_of_change h hforeign hchange⟩
      · obtain rfl := some.inj hmove
        exact ⟨h, Meantime.refl s⟩

/-- The rules of a transition. -/
def transitionRules (c : Contracts) (call : TransitionCall) :
    Rules (transitionArena c call) where
  Inv := Kept
  rely := Meantime
  rely_refl := Meantime.refl
  rely_trans := Meantime.trans
  env := meanwhile_keeps

/-! ## The paths of a transition -/

section Paths

variable {ε α β : Type} {lease : TransitionLease} {known : List (Json ℚ)}

/-- A program of the transition, while it is not disturbed. -/
abbrev Reaches (c : Contracts) (call : TransitionCall)
    (post : Except ε α → TransitionState → Prop) (p : TransitionProg ε α) (s : TransitionState) :
    Prop :=
  (transitionRules c call).wp (Undisturbed call) post p s

/-- The transition has begun and not ended, and the adapter has produced these observations. -/
structure Working (lease : TransitionLease) (known : List (Json ℚ)) (s : TransitionState) :
    Prop where
  lease : s.lease = some lease
  ended : s.ended = none
  known : ∀ observation ∈ known, observation ∈ s.produced

theorem Working.meanwhile (h : Working lease known s) (hmeantime : Meantime s s') :
    Working lease known s' :=
  ⟨hmeantime.lease.trans h.lease, hmeantime.ended.trans h.ended,
    fun observation hmem => hmeantime.produced ▸ h.known observation hmem⟩

/-- An exception of the transition.  What the handlers do not catch has not been raised under a
live lease. -/
structure Failing (lease : TransitionLease) (e : Raised) (s : TransitionState) : Prop where
  working : Working lease [] s
  base : e = .base → ¬ s.Holds

theorem Working.failing (h : Working lease known s) {e : Raised} (he : e ≠ .base) :
    Failing lease e s :=
  ⟨⟨h.lease, h.ended, fun _ hmem => absurd hmem not_mem_nil⟩, fun hbase => absurd hbase he⟩

/-- A part of the transition ends as it should, or fails. -/
def Going (failure : ε → Raised) (lease : TransitionLease) (post : α → TransitionState → Prop) :
    Except ε α → TransitionState → Prop
  | .ok a, s => post a s
  | .error e, s => Failing lease (failure e) s

/-- Two parts, one after the other. -/
theorem reaches_seq {failure : ε → Raised} {q : α → TransitionState → Prop}
    {post : β → TransitionState → Prop} {p : TransitionProg ε α} {f : α → TransitionProg ε β}
    (hp : Reaches c call (Going failure lease q) p s)
    (hf : ∀ a s', q a s' → Reaches c call (Going failure lease post) (f a) s') :
    Reaches c call (Going failure lease post) (p >>= f) s := by
  refine (transitionRules c call).wp_bind (Rules.wp_mono _ hp fun r s' hr => ?_)
  cases r with
  | ok a => exact hf a s' hr
  | error e => exact hr

variable {phase : TransitionPhase} {state : DesiredState} {observation : Json ℚ}

theorem reaches_inPhase {post : α → TransitionState → Prop} {p : TransitionProg Raised α}
    (hp : Reaches c call (Going id lease post) p s) :
    Reaches c call (Going Prod.snd lease post) (inPhase phase p) s := by
  refine (transitionRules c call).wp_rescue (Rules.wp_mono _ hp fun r s' hr => ?_)
  cases r with
  | ok a | error e => exact hr

/-- A command, in the state in which it is executed. -/
theorem reaches_call {command : TransitionCommand} {post : Except ε α → TransitionState → Prop}
    {k : TransitionReply command → TransitionProg ε α} (hworking : Working lease known s)
    (h : ∀ s' o, Kept s' → Working lease known s' → Undisturbed call command o s' →
      ∀ answer s'', transitionExec c call command o s' = some (answer, s'') →
        Kept s'' ∧ Reaches c call post (k answer) s'') :
    Reaches c call post (.call command k) s :=
  fun s' hkept hmeantime o hundisturbed answer s'' hexec =>
    h s' o hkept (hworking.meanwhile hmeantime) hundisturbed answer s'' hexec

theorem reaches_adapter (hphase : phase ≠ .reconcile) (h : Working lease known s) :
    Reaches c call (Going id lease fun observation => Working lease (observation :: known))
      (adapter phase) s := by
  refine reaches_call h fun s' o hkept hworking hundisturbed answer s'' hexec => ?_
  have hbase : s'.Holds → o.raises ≠ some .base := fun hholds => by
    cases phase with
    | reconcile => exact absurd rfl hphase
    | _ => exact hundisturbed hholds
  simp only [transitionExec] at hexec
  split at hexec
  · rename_i e hraises
    obtain ⟨rfl, rfl⟩ := mk.inj (some.inj hexec)
    refine ⟨hkept, ⟨hworking.lease, hworking.ended, fun _ hmem => absurd hmem not_mem_nil⟩,
      fun he hholds => hbase hholds ?_⟩
    rw [hraises, show e = Raised.base from he]
  · obtain ⟨rfl, rfl⟩ := mk.inj (some.inj hexec)
    refine ⟨⟨hkept.named, hkept.fence⟩, hworking.lease, hworking.ended, fun observation hmem => ?_⟩
    rcases mem_cons.mp hmem with rfl | hmem
    · exact mem_append_right _ (mem_singleton.mpr rfl)
    · exact mem_append_left _ (hworking.known observation hmem)

theorem reaches_bind (h : Working lease known s) :
    Reaches c call (Going id lease fun _ => Working lease known)
      (TransitionProg.bind lease) s := by
  refine reaches_call h fun s' o hkept hworking hundisturbed answer s'' hexec => ?_
  simp only [transitionExec] at hexec
  obtain ⟨rfl, rfl⟩ := mk.inj (some.inj hexec)
  refine ⟨hkept, ?_⟩
  cases hraises : o.raises with
  | none => exact hworking
  | some e =>
    refine ⟨⟨hworking.lease, hworking.ended, fun _ hmem => absurd hmem not_mem_nil⟩,
      fun he hholds => hundisturbed hholds ?_⟩
    rw [hraises, show e = Raised.base from he]

theorem reaches_ensureLeaseLive (h : Working lease known s) :
    Reaches c call (Going id lease fun _ => Working lease known) (ensureLeaseLive phase) s := by
  refine reaches_call h fun s' o hkept hworking hundisturbed answer s'' hexec => ?_
  obtain ⟨rfl, rfl⟩ := mk.inj (some.inj hexec)
  refine ⟨hkept, ?_⟩
  show Reaches c call _ (if s'.lost = true then _ else _) s'
  split
  · exact hworking.failing (fun he => (by cases he))
  · exact hworking

theorem reaches_pause (h : Working lease known s) :
    Reaches c call (Going id lease fun _ => Working lease known) pause s := by
  refine reaches_call h fun s' o hkept hworking hundisturbed answer s'' hexec => ?_
  simp only [transitionExec] at hexec
  split at hexec
  all_goals
    obtain ⟨rfl, rfl⟩ := mk.inj (some.inj hexec)
    refine ⟨hkept, ?_⟩
  · exact hworking.failing (fun he => (by cases he))
  · exact hworking

theorem storeCall_cases {o : TransitionOutcome} {r : Except StateError α}
    {error : TransitionState} {ok : α → TransitionState}
    {answered : Except Raised α × TransitionState} (h : storeCall o r error ok = answered) :
    (∃ a, o.raises = none ∧ r = .ok a ∧ answered.1 = .ok a ∧ answered.2 = ok a) ∨
      (∃ e, answered.1 = .error e ∧ e ≠ .base ∧ answered.2 = error ∧
        (o.raises = none → ∃ why, r = .error why)) := by
  subst h
  unfold storeCall
  split
  case isTrue hraises =>
    refine Or.inr ⟨.cancelled, rfl, (fun he => (by cases he)), rfl, fun hnone => ?_⟩
    rw [hnone] at hraises
    cases hraises
  case isFalse hraises =>
    cases r with
    | error why =>
      refine Or.inr ⟨why.raised o.message, rfl, ?_, rfl, fun _ => ⟨why, rfl⟩⟩
      cases why <;> exact fun he => (by cases he)
    | ok a =>
      refine Or.inl ⟨a, ?_, rfl, rfl, rfl⟩
      rwa [Bool.not_eq_true, isSome_eq_false_iff, isNone_iff_eq_none] at hraises

theorem reaches_renewOrRaise (h : Working lease known s) :
    Reaches c call (Going id lease fun _ => Working lease known) (renewOrRaise lease) s := by
  refine reaches_call h fun s' o hkept hworking hundisturbed answer s'' hexec => ?_
  simp only [transitionExec] at hexec
  generalize hr : storeCall o _ _ _ = r at hexec
  obtain ⟨rfl, rfl⟩ := mk.inj (some.inj hexec)
  rcases storeCall_cases hr with
    ⟨a, -, hrenew, hanswer, hs⟩ | ⟨e, hanswer, he, hs, -⟩
  · rw [hs, hanswer]
    have hchange : change c (.renew lease call.ttlSeconds s'.clock) s'.records =
        .ok (.lease a.1, a.2) := congrArg (Except.map _) hrenew
    exact ⟨hkept.change hchange, hworking.lease, hworking.ended, hworking.known⟩
  · rw [hs, hanswer]
    exact ⟨hkept, hworking.failing he⟩

/-- The transition has ended with the record that is returned. -/
structure Published (c : Contracts) (call : TransitionCall) (lease : TransitionLease)
    (record : InstanceRecord) (s : TransitionState) : Prop where
  lease : s.lease = some lease
  ended : s.ended = some record
  evidenced : Evidenced c call record s

/-- The state of an observation that has reached the desired one. -/
theorem stateForObservation_of_reached (h : observationReachedDesired observation state = true) :
    stateForObservation observation = state.control := by
  cases state with
  | ready =>
    have hstate : (observation.get "state").str? = some (text "ready") := by
      simp only [observationReachedDesired, decide_eq_true_iff] at h
      exact h.1
    unfold stateForObservation
    rw [hstate]
    exact if_pos rfl
  | stopped =>
    have hstate : (observation.get "state").str? = some (text "stopped") := by
      simp only [observationReachedDesired, decide_eq_true_iff] at h
      exact h.1
    unfold stateForObservation
    rw [hstate]
    exact (if_neg (by decide)).trans (if_pos rfl)

/-- `publish_observation`, of what the adapter has produced and reaches the desired state. -/
theorem reaches_publish (hdesired : desired call.desiredState = .ok state)
    (h : Working lease known s) (hmem : observation ∈ known)
    (hreached : observationReachedDesired observation state = true) :
    Reaches c call (Going id lease (Published c call lease)) (publish lease observation) s := by
  refine reaches_call h fun s' o hkept hworking hundisturbed answer s'' hexec => ?_
  simp only [transitionExec] at hexec
  generalize hr : storeCall o _ _ _ = r at hexec
  obtain ⟨rfl, rfl⟩ := mk.inj (some.inj hexec)
  rcases storeCall_cases hr with
    ⟨a, -, hpublish, hanswer, hs⟩ | ⟨e, hanswer, he, hs, -⟩
  · rw [hs, hanswer]
    have hchange : change c (.publishObservation lease call.profile observation
        (call.now.getD s'.clock)) s'.records = .ok (.record a.1, a.2) :=
      congrArg (Except.map _) hpublish
    have hkept' := hkept.change hchange
    refine ⟨⟨hkept'.named, hkept'.fence⟩, hworking.lease, rfl, ?_⟩
    obtain ⟨⟨hchecked, record, hrecord, hpublishes⟩, current, hcurrent, hwritten, -⟩ :=
      change_ok hchange
    rw [current_eq (.publishObservation ..) hrecord] at hcurrent
    obtain rfl := some.inj hcurrent
    have hwritten : a.1 = _ := Returned.record.inj hwritten
    have hname : record.profileName = call.profileName :=
      hundisturbed record hrecord hpublishes.name
    rw [hpublishes.name, hname] at hchecked
    refine ⟨lease, hworking.lease, observation, hworking.known observation hmem, state, hdesired,
      (congrArg InstanceRecord.transitionFence hwritten).trans hpublishes.owned.fence, hchecked,
      hreached, ?_⟩
    exact (congrArg InstanceRecord.state hwritten).trans
      (stateForObservation_of_reached hreached)
  · rw [hs, hanswer]
    exact ⟨hkept, hworking.failing he⟩

/-- The rounds of `_wait_for_desired_observation`. -/
theorem reaches_waitRounds (rounds : ℕ) (h : Working lease known s) :
    Reaches c call (Going id lease fun observation s' =>
        Working lease (observation :: known) s' ∧
          observationReachedDesired observation state = true)
      (waitRounds c state rounds) s := by
  induction rounds generalizing s with
  | zero =>
    refine reaches_call h fun s' o hkept hworking hundisturbed answer s'' hexec => ?_
    cases hexec
  | succ rounds ih =>
    refine reaches_seq (reaches_adapter (fun hphase => (by cases hphase)) h)
      fun evidence s₁ h₁ => reaches_seq (reaches_ensureLeaseLive h₁) fun _ s₂ h₂ => ?_
    split
    case isTrue hreached => exact ⟨h₂, hreached⟩
    case isFalse =>
      have hknown : Working lease known s₂ :=
        ⟨h₂.lease, h₂.ended, fun o hmem => h₂.known o (mem_cons_of_mem _ hmem)⟩
      split
      · exact h₂.failing (fun he => (by cases he))
      refine reaches_call hknown fun s₃ o hkept h₃ hundisturbed answer s₄ hexec => ?_
      obtain ⟨rfl, rfl⟩ := mk.inj (some.inj hexec)
      refine ⟨hkept, ?_⟩
      show Reaches c call _ (if o.flag = true then _ else _) s₃
      split
      · exact h₃.failing (fun he => (by cases he))
      refine reaches_seq (reaches_pause h₃) fun lost s₄ h₄ => ?_
      split
      · exact reaches_seq (reaches_ensureLeaseLive h₄) fun _ s₅ h₅ => ih h₅
      · exact ih h₄

variable {rounds : ℕ} {r : Except Raised InstanceRecord}

theorem reaches_waitForDesiredObservation (h : Working lease known s) :
    Reaches c call (Going id lease fun observation s' =>
        Working lease (observation :: known) s' ∧
          observationReachedDesired observation state = true)
      (waitForDesiredObservation c call state rounds) s := by
  unfold waitForDesiredObservation
  split
  · exact h.failing (fun he => (by cases he))
  split
  · exact h.failing (fun he => (by cases he))
  · exact reaches_waitRounds rounds h

/-- A method of the adapter, and the check after it. -/
theorem reaches_actIn (hphase : phase ≠ .reconcile) (h : Working lease known s) :
    Reaches c call (Going Prod.snd lease fun _ => Working lease []) (actIn phase) s :=
  reaches_inPhase (reaches_seq (reaches_adapter hphase h) fun _ _ h =>
    reaches_ensureLeaseLive ⟨h.lease, h.ended, fun _ hmem => absurd hmem not_mem_nil⟩)

theorem reaches_health (hdesired : desired call.desiredState = .ok state)
    (h : Working lease known s) :
    Reaches c call (Going Prod.snd lease (Published c call lease))
      (inPhase .health do
        let evidence ← waitForDesiredObservation c call state rounds
        publish lease evidence) s :=
  reaches_inPhase (reaches_seq (reaches_waitForDesiredObservation h) fun _ _ h =>
    reaches_publish hdesired h.1 mem_cons_self h.2)

/-- **The `try` block.** -/
theorem reaches_tryBlock (hdesired : desired call.desiredState = .ok state) (h : Working lease [] s)
    :
    Reaches c call (Going Prod.snd lease (Published c call lease))
      (tryBlock c call state rounds lease) s := by
  have hinspect : ∀ phase : TransitionPhase, phase = .inspect ∨ phase = .drain ∨ phase = .unload ∨
      phase = .stop ∨ phase = .prepare ∨ phase = .load → phase ≠ .reconcile := by
    rintro phase (rfl | rfl | rfl | rfl | rfl | rfl) <;> exact fun hphase => (by cases hphase)
  refine reaches_seq (q := fun observed => Working lease [observed]) (reaches_inPhase
    (reaches_seq (reaches_bind h) fun _ s₁ h₁ => reaches_seq (reaches_adapter
      (hinspect _ (by simp)) h₁) fun observed s₂ h₂ =>
        reaches_seq (reaches_ensureLeaseLive h₂) fun _ s₃ h₃ => h₃)) fun observed s₄ h₄ => ?_
  split
  · rename_i hreached
    exact reaches_inPhase (reaches_publish hdesired h₄ (mem_singleton.mpr rfl) hreached)
  refine reaches_seq (q := fun _ => Working lease []) (reaches_inPhase
    (reaches_seq (reaches_renewOrRaise h₄) fun _ s₅ h₅ => reaches_ensureLeaseLive
      (h₅.failing (e := .cancelled) (fun he => (by cases he))).working)) fun _ s₆ h₆ => ?_
  -- From here on the desired state is brought about, and then waited for.
  have hbring : ∀ s, Working lease [] s → Reaches c call (Going snd lease
      (Published c call lease)) (if state = .stopped then do
          actIn .stop
          inPhase .health do
            let evidence ← waitForDesiredObservation c call state rounds
            publish lease evidence
        else do
          actIn .prepare
          inPhase .prepare (renewOrRaise lease)
          actIn .load
          inPhase .health do
            let evidence ← waitForDesiredObservation c call state rounds
            publish lease evidence) s := by
    intro s₇ h₇
    split
    · exact reaches_seq (reaches_actIn (hinspect _ (by simp)) h₇) fun _ _ h =>
        reaches_health hdesired h
    exact reaches_seq (reaches_actIn (hinspect _ (by simp)) h₇) fun _ _ h =>
      reaches_seq (reaches_inPhase (reaches_renewOrRaise h)) fun _ _ h =>
        reaches_seq (reaches_actIn (hinspect _ (by simp)) h) fun _ _ h =>
          reaches_health hdesired h
  dsimp only
  split
  · exact reaches_seq (reaches_actIn (hinspect _ (by simp)) h₆) fun _ _ h =>
      reaches_seq (reaches_inPhase (reaches_renewOrRaise h)) fun _ _ h =>
        reaches_seq (reaches_actIn (hinspect _ (by simp)) h) fun _ _ h =>
          reaches_seq (reaches_inPhase (reaches_renewOrRaise h)) fun _ s₇ h => hbring s₇ h
  · exact hbring s₆ h₆

/-! ## The ends of a transition -/

/-- The transition is over: its record is published or blocked, or its lease is gone. -/
def Closed (c : Contracts) (call : TransitionCall) (lease : TransitionLease) :
    Except Raised InstanceRecord → TransitionState → Prop
  | .ok record, s => Published c call lease record s
  | .error _, s => s.lease = some lease ∧
      match s.ended with
      | some record => record.Blocked
      | none => ¬ s.Holds

/-- `reconcile`, the exceptions of which are passed over. -/
theorem reaches_reconcile {rest : TransitionProg Raised InstanceRecord} (h : Working lease [] s)
    (hrest : ∀ s', Working lease [] s' → Reaches c call (Closed c call lease) rest s') :
    Reaches c call (Closed c call lease)
      (.call (.adapter .reconcile) fun r => pass r >>= fun _ => rest) s := by
  refine reaches_call h fun s' o hkept hworking hundisturbed answer s'' hexec => ?_
  simp only [transitionExec] at hexec
  split at hexec
  · rename_i e hraises
    obtain ⟨rfl, rfl⟩ := mk.inj (some.inj hexec)
    refine ⟨hkept, ?_⟩
    by_cases hholds : s'.Holds
    · have hraised := hundisturbed hholds
      rw [hraises] at hraised
      cases e with
      | cancelled => exact absurd rfl hraised.1
      | exception message => exact hrest s' hworking
      | base => exact absurd rfl hraised.2
    · -- The lease is gone already, so nothing has to be written any more.
      have hgone : s'.lease = some lease ∧ match s'.ended with
          | some record => record.Blocked
          | none => ¬ s'.Holds := ⟨hworking.lease, by rw [hworking.ended]; exact hholds⟩
      cases e with
      | cancelled | base => exact hgone
      | exception message => exact hrest s' hworking
  · obtain ⟨rfl, rfl⟩ := mk.inj (some.inj hexec)
    exact ⟨⟨hkept.named, hkept.fence⟩, hrest _ ⟨hworking.lease, hworking.ended,
      fun _ hmem => absurd hmem not_mem_nil⟩⟩

/-- A failure of the store while the lease is held is none of its checks. -/
theorem failTransition_of_holds (c : Contracts) (hkept : Kept s) (hlease : s.lease = some lease)
    (hholds : s.Holds) {error : PyStr} (hnow : ∀ record ∈ s.records.get? lease.instanceId,
      now < record.transitionExpiresAt) {why : StateError} :
    failTransition lease error now s.records ≠ .error why := by
  intro herror
  have hchange : change c (.failTransition lease error now) s.records = .error why :=
    congrArg (Except.map _) herror
  obtain ⟨own, hown, record, hrecord, howned⟩ := hholds
  rw [hlease] at hown
  obtain rfl := some.inj hown
  rcases change_decides c (.failTransition lease error now) s.records with
    ⟨-, current, -, hok⟩ | ⟨hrefused, -⟩
  · rw [hchange] at hok
    cases hok
  · exact hrefused ⟨record, hrecord, (hkept.named _ record hrecord).symm, howned.owner,
      howned.fence, howned.named, hnow record hrecord⟩

/-- `fail_transition`, after which the handler raises whatever happens. -/
theorem reaches_failTransition {error : Option PyStr} (h : Working lease [] s)
    {k : Except Raised Unit → TransitionProg Raised InstanceRecord}
    (hraises : ∀ answer, ∃ e, k answer = .done (.error e)) :
    Reaches c call (Closed c call lease) (.call (.failTransition lease error) k) s := by
  refine reaches_call h fun s' o hkept hworking hundisturbed answer s'' hexec => ?_
  obtain ⟨raised, hk⟩ := hraises answer
  rw [hk]
  have hunless : ¬ s'.Holds → s'.lease = some lease ∧ match s'.ended with
      | some record => record.Blocked
      | none => ¬ s'.Holds := fun hholds => ⟨hworking.lease, by rw [hworking.ended]; exact hholds⟩
  cases error with
  | none =>
    obtain ⟨-, rfl⟩ := mk.inj (some.inj hexec)
    exact ⟨hkept, hunless fun hholds => Bool.false_ne_true (hundisturbed hholds).2.1⟩
  | some error =>
    simp only [transitionExec] at hexec
    generalize hr : storeCall o _ _ _ = r at hexec
    obtain ⟨-, rfl⟩ := mk.inj (some.inj hexec)
    rcases storeCall_cases hr with
      ⟨a, -, hfail, -, hs⟩ | ⟨e, -, -, hs, hrefused⟩
    · rw [hs]
      have hchange : change c (.failTransition lease error (call.now.getD s'.clock))
          s'.records = .ok (.record a.1, a.2) := congrArg (Except.map _) hfail
      obtain ⟨-, current, -, hwritten, -⟩ := change_ok hchange
      have hwritten : a.1 = _ := Returned.record.inj hwritten
      have hkept' := hkept.change hchange
      refine ⟨⟨hkept'.named, hkept'.fence⟩, hworking.lease, ?_⟩
      show InstanceRecord.Blocked a.1
      rw [hwritten]
      exact ⟨rfl, rfl, rfl⟩
    · rw [hs]
      refine ⟨hkept, hunless fun hholds => ?_⟩
      obtain ⟨hnone, -, hnow⟩ := hundisturbed hholds
      obtain ⟨why, herror⟩ := hrefused hnone
      refine failTransition_of_holds c hkept hworking.lease hholds (fun record hrecord => ?_)
        herror
      obtain ⟨own, hown, record', hrecord', howned⟩ := id hholds
      rw [hworking.lease] at hown
      obtain rfl := some.inj hown
      rw [mem_def, hrecord'] at hrecord
      obtain rfl := some.inj hrecord
      cases hgiven : call.now with
      | none => exact howned.live
      | some now => exact hnow now hgiven record' hrecord'

/-- **The `except` clauses.** -/
theorem reaches_exceptClauses {r : Except (TransitionPhase × Raised) InstanceRecord}
    (h : Going Prod.snd lease (Published c call lease) r s) :
    Reaches c call (Closed c call lease) (exceptClauses lease r) s := by
  rcases r with ⟨phase, e⟩ | record
  · have hfailing : Failing lease e s := h
    cases e with
    | cancelled | exception message =>
      refine reaches_reconcile hfailing.working fun s' h' => ?_
      refine reaches_failTransition h' fun answer => ?_
      rcases answer with (_ | _ | _) | _ <;> exact ⟨_, rfl⟩
    | base =>
      refine ⟨hfailing.working.lease, ?_⟩
      rw [hfailing.working.ended]
      exact hfailing.base rfl
  · exact h

theorem Closed.meanwhile (h : Closed c call lease r s) (hmeantime : Meantime s s') :
    Closed c call lease r s' := by
  cases r with
  | ok record =>
    obtain ⟨own, hown, observation, hmem, hevidence⟩ := h.evidenced
    exact ⟨hmeantime.lease.trans h.lease, hmeantime.ended.trans h.ended, own,
      hmeantime.lease.symm ▸ hown, observation, hmeantime.produced.symm ▸ hmem, hevidence⟩
  | error e =>
    refine ⟨hmeantime.lease.trans h.1, ?_⟩
    have hend := h.2
    rw [hmeantime.ended]
    cases hended : s.ended with
    | some record =>
      rw [hended] at hend
      exact hend
    | none =>
      rw [hended] at hend
      exact fun hholds => hend (hmeantime.holds hholds)

/-- What is closed is settled, also when the end of the transition raises. -/
theorem Closed.settled (h : Closed c call lease r s) :
    Settled c call r s ∧ ∀ e, Settled c call (.error e) s := by
  cases r with
  | ok record =>
    refine ⟨h.evidenced, fun e => ?_⟩
    unfold Settled
    simp only [h.ended]
    exact Or.inr h.evidenced
  | error e =>
    have hsettled : ∀ e, Settled c call (.error e) s := by
      intro e
      have hend := h.2
      unfold Settled
      cases hended : s.ended with
      | some record =>
        rw [hended] at hend
        exact Or.inl hend
      | none =>
        rw [hended] at hend
        exact hend
    exact ⟨hsettled e, hsettled⟩

/-- **The `finally` clause.** -/
theorem reaches_finallyClause (h : Closed c call lease r s) :
    Reaches c call (Settled c call) (finallyClause r) s := by
  intro s₁ hkept₁ hmeantime₁ o₁ _ answer₁ s₂ hexec₁
  obtain ⟨rfl, rfl⟩ := mk.inj (some.inj hexec₁)
  refine ⟨⟨hkept₁.named, hkept₁.fence⟩, ?_⟩
  intro s₃ hkept₃ hmeantime₃ o₃ _ answer₃ s₄ hexec₃
  obtain ⟨rfl, rfl⟩ := mk.inj (some.inj hexec₃)
  have hstopped : Meantime s₁ { s₁ with keeping := false } := ⟨le_rfl, rfl, rfl, rfl, id⟩
  have hsettled := ((h.meanwhile hmeantime₁).meanwhile (hstopped.trans hmeantime₃)).settled
  refine ⟨hkept₃, ?_⟩
  cases o₃.raises with
  | none => exact hsettled.1
  | some e => exact hsettled.2 e

/-- **The whole transition.** -/
theorem reaches_transitionRuntime (rounds : ℕ) (hlease : s.lease = none)
    (hended : s.ended = none) :
    Reaches c call (Settled c call) (transitionRuntime c call rounds) s := by
  intro s' hkept hmeantime o _ answer s'' hexec
  have hlease' : s'.lease = none := hmeantime.lease.trans hlease
  have hended' : s'.ended = none := hmeantime.ended.trans hended
  simp only [transitionArena, transitionExec] at hexec
  generalize hr : storeCall o _ _ _ = r at hexec
  obtain ⟨rfl, rfl⟩ := mk.inj (some.inj hexec)
  rcases storeCall_cases hr with
    ⟨a, -, hbegin, hanswer, hs⟩ | ⟨e, hanswer, -, hs, -⟩
  · rw [hs, hanswer]
    have hchange : change c (.beginTransition call.instanceId call.profileName call.profile
        call.owner call.desiredState call.ttlSeconds (call.now.getD s'.clock)) s'.records =
        .ok (.begun a.1.1 a.1.2, a.2) := congrArg (Except.map _) hbegin
    have hkept' := hkept.change hchange
    obtain ⟨hadmitted, current, -, hbegun, hrecords⟩ := change_ok hchange
    obtain ⟨-, hown⟩ := Returned.begun.inj hbegun
    obtain ⟨state, hdesired⟩ := hadmitted.2.2.1
    refine ⟨⟨hkept'.named, fun own hmem => ?_⟩, ?_⟩
    · obtain rfl := some.inj hmem
      show ∃ record, a.2.get? a.1.2.instanceId = some record ∧ _
      rw [hrecords, hown]
      exact ⟨_, get?_set_self _ _ _, le_rfl⟩
    · simp only [hdesired]
      have hworking : Working a.1.2 []
          { s' with records := a.2, lease := some a.1.2, keeping := true } :=
        ⟨rfl, hended', fun _ hmem => absurd hmem not_mem_nil⟩
      refine (transitionRules c call).wp_rescue ((transitionRules c call).wp_rescue ?_)
      refine Rules.wp_mono _ (reaches_tryBlock hdesired hworking) fun r s h => ?_
      exact Rules.wp_mono _ (reaches_exceptClauses h) fun r s h => reaches_finallyClause h
  · rw [hs, hanswer]
    refine ⟨hkept, ?_⟩
    show Settled c call (.error e) s'
    unfold Settled
    simp only [hended']
    rintro ⟨own, hown, -⟩
    rw [hlease'] at hown
    cases hown

end Paths

/-- The start: nothing is stored yet, as the other owners may store anything first. -/
def transitionStart (clock : ℚ) : TransitionState := { clock := clock }

/-- **A transition settles.**  However the adapter, the clock and other clients interleave with it:
if nothing disturbs it, what it returns is evidenced, and after any other exit it has ended with a
record that is blocked or evidenced, or its lease is not the stored one any more. -/
theorem transition_settled (c : Contracts) (call : TransitionCall) (rounds : ℕ) (clock : ℚ)
    (moves : List (Move TransitionOutcome Meanwhile)) (r : Except Raised InstanceRecord)
    (hundisturbed : (transitionArena c call).AllActs (Undisturbed call) moves
      (transitionRuntime c call rounds) (transitionStart clock))
    (hplay : (transitionArena c call).play moves (transitionRuntime c call rounds)
      (transitionStart clock) = some (.done r, s)) : Settled c call r s :=
  (transitionRules c call).play_sound
    ⟨fun _ _ hrecord => (by cases hrecord), fun _ hlease => (by cases hlease)⟩
    (reaches_transitionRuntime rounds rfl rfl) hundisturbed hplay

/-- The end of a play. -/
def ended? : Option (TransitionProg Raised InstanceRecord × TransitionState) →
    Option (Except Raised InstanceRecord × TransitionState)
  | some (.done r, s) => some (r, s)
  | _ => none

theorem ended?_eq {next : Option (TransitionProg Raised InstanceRecord × TransitionState)}
    {r : Except Raised InstanceRecord × TransitionState} (h : ended? next = some r) :
    next = some (.done r.1, r.2) := by
  unfold ended? at h
  split at h
  · obtain rfl := some.inj h
    rfl
  · cases h

def readyCall : TransitionCall where
  instanceId := text "gpu"
  profileName := text "p"
  profile := .obj []
  owner := text "a"
  desiredState := text "ready"
  ttlSeconds := 60
  readinessTimeoutSeconds := 180
  readinessPollIntervalSeconds := 1
  now := none

/-- The outside answers a command, with this exception. -/
def answers (raises : Option Raised) : Move TransitionOutcome Meanwhile :=
  .act { raises := raises, observation := [], message := [], flag := false }

/-- A complete observation of a process that is ready. -/
def readyObservation : List (PyStr × Json ℚ) :=
  [(text "profile_name", .str (text "p")),
    (text "profile_fingerprint", .str (hexdigest [1, 2])),
    (text "state", .str (text "ready")),
    (text "process_generation", .int 1),
    (text "process_ready", .bool true),
    (text "model_ready", .bool true),
    (text "accepting", .bool true)]

def foundReady : List (Move TransitionOutcome Meanwhile) :=
  [answers none, answers none,
    .act { raises := none, observation := readyObservation, message := [], flag := false },
    answers none, answers none, answers none, answers none]

/-- What is returned then is evidenced. -/
theorem transition_settled_foundReady :
    ∃ record s, (transitionArena lenient readyCall).play foundReady
        (transitionRuntime lenient readyCall 1) (transitionStart 0) =
          some (.done (.ok record), s) ∧ record.state = .ready ∧
      Settled lenient readyCall (.ok record) s := by
  have hend : (ended? ((transitionArena lenient readyCall).play foundReady
      (transitionRuntime lenient readyCall 1) (transitionStart 0))).map
        (fun r => r.1.toOption.map (·.state)) = some (some .ready) := by
    decide +kernel
  obtain ⟨⟨r, s⟩, hplay, hr⟩ := map_eq_some_iff.mp hend
  obtain ⟨record, hrecord, hstate⟩ := map_eq_some_iff.mp hr
  cases r with
  | error e => cases hrecord
  | ok record' =>
    obtain rfl := some.inj hrecord
    refine ⟨record', s, ended?_eq hplay, hstate,
      transition_settled lenient readyCall 1 0 foundReady _ (by decide +kernel)
        (ended?_eq hplay)⟩

/-- The adapter fails to inspect, and the transition is cancelled while the handler reconciles. -/
def cancelledTwice : List (Move TransitionOutcome Meanwhile) :=
  [answers none, answers none, answers (some (.exception (some (text "gone")))),
    answers (some .cancelled), answers none, answers none]

/-- The cancelled transition leaves its record in transition, with a live lease. -/
theorem cancelledTwice_not_settled :
    ¬ ∀ (moves : List (Move TransitionOutcome Meanwhile)) (r : Except Raised InstanceRecord)
        (s : TransitionState), (transitionArena lenient readyCall).play moves
          (transitionRuntime lenient readyCall 1) (transitionStart 0) = some (.done r, s) →
        Settled lenient readyCall r s := by
  intro hall
  have hend : (ended? ((transitionArena lenient readyCall).play cancelledTwice
      (transitionRuntime lenient readyCall 1) (transitionStart 0))).map
        (fun r => (r.1.toOption, r.2.ended, decide r.2.Holds)) = some (none, none, true) := by
    decide +kernel
  obtain ⟨⟨r, s⟩, hplay, hr⟩ := map_eq_some_iff.mp hend
  obtain ⟨herror, hr⟩ := mk.inj hr
  obtain ⟨hended, hholds⟩ := mk.inj hr
  have hended : s.ended = none := hended
  have hsettled := hall _ _ _ (ended?_eq hplay)
  cases r with
  | ok record => cases herror
  | error e =>
    unfold Settled at hsettled
    rw [hended] at hsettled
    exact hsettled (of_decide_eq_true hholds)

end GpuManager.Runtime
