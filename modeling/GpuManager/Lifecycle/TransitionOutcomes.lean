import GpuManager.Lifecycle.TransitionRuns

/-!
# How an operation under a lease ends

* `InMemory.step_unowned`: a record without an owner is changed by a new transition, which raises
  its fence, or by `record_recovery`, and by no other call.
* `runnerRules`: what the clock, the keepalive task and the other owners keep.
* `reaches_run`: every path of a runner finishes its lease once, with the outcome that it returns.
* `runner_settled`: so does every play of either runner, if its operation raises nothing that the
  runner does not handle while the lease is live.
* `unreadable_not_settled`: an exception whose text cannot be made leaves the lease behind.
-/

namespace GpuManager.Lifecycle

open AtomicProgram RunnerProg InMemory BundleTransitionLease Option List Prod

/-! ## Writes for the holders of leases -/

namespace InMemory

variable {write : BundleLifecycleRecord → BundleLifecycleRecord} {names : List String}
  {records written : Records} {now : ℚ}

def Written (write : BundleLifecycleRecord → BundleLifecycleRecord) (names : List String)
    (records written : Records) : Prop :=
  ∀ name, written name = if name ∈ names then (records name).map write else records name

theorem Written.named (h : Written write names records written) (hwrite : KeepsIdentity write)
    (hnamed : Named records) : Named written := by
  intro name record hrecord
  rw [h name] at hrecord
  split at hrecord
  · obtain ⟨before, hbefore, rfl⟩ := map_eq_some_iff.mp hrecord
    exact (hwrite before).1.trans (hnamed name before hbefore)
  · exact hnamed name record hrecord

theorem Written.fence (h : Written write names records written) (hwrite : KeepsIdentity write)
    (name : String) : InMemory.fence written name = InMemory.fence records name := by
  unfold InMemory.fence
  rw [h name]
  split
  · cases records name with
    | none => rfl
    | some record => exact (hwrite record).2
  · rfl

variable {name : String} {record : BundleLifecycleRecord}

theorem Written.get? (h : Written write names records written) (hname : name ∈ names)
    (hrecord : record ∈ records name) : write record ∈ written name := by
  rw [mem_def, h name, if_pos hname, mem_def.mp hrecord]
  rfl

/-- A call for the holder of a lease. -/
theorem forHolder_cases (lease : BundleTransitionLease) (now : ℚ)
    (write : BundleLifecycleRecord → BundleLifecycleRecord) (records : Records) :
    (Held lease now records ∧ (forHolder lease now write records).1 = true ∧
        Written write [lease.bundleName] records (forHolder lease now write records).2) ∨
      (¬ Held lease now records ∧ forHolder lease now write records = (false, records)) := by
  rw [forHolder_eq]
  by_cases hheld : Held lease now records
  · rw [if_pos hheld]
    refine Or.inl ⟨hheld, rfl, fun name => ?_⟩
    obtain ⟨record, hrecord, -⟩ := hheld
    by_cases hname : name = lease.bundleName
    · subst hname
      rw [if_pos (mem_singleton_self _)]
      show Function.update records _ _ _ = _
      rw [Function.update_self, mem_def.mp hrecord, current, mem_def.mp hrecord]
      rfl
    · rw [if_neg fun hmem => hname (mem_singleton.mp hmem)]
      exact Function.update_of_ne hname ..
  · rw [if_neg hheld]
    exact Or.inr ⟨hheld, rfl⟩

theorem forHolders_cases (hnamed : Named records) (leases : List BundleTransitionLease) (now : ℚ)
    (write : BundleLifecycleRecord → BundleLifecycleRecord) :
    ((∀ lease ∈ leases, Held lease now records) ∧ (forHolders leases now write records).1 = true ∧
        Written write (leases.map bundleName) records
          (forHolders leases now write records).2) ∨
      (¬ (∀ lease ∈ leases, Held lease now records) ∧
        forHolders leases now write records = (false, records)) := by
  rw [forHolders_eq]
  by_cases hheld : ∀ lease ∈ leases, Held lease now records
  · rw [if_pos hheld]
    exact Or.inl ⟨hheld, rfl, fun name => foldl_held write hnamed hheld name⟩
  · rw [if_neg hheld]
    exact Or.inr ⟨hheld, rfl⟩

/-- No call for the holder of a lease changes a record without an owner. -/
theorem Written.unowned {leases : List BundleTransitionLease}
    (h : Written write (leases.map bundleName) records written)
    (hheld : ∀ lease ∈ leases, Held lease now records) (hrecord : records name = some record)
    (howner : record.transitionOwner = none) : written name = some record := by
  rw [h name, if_neg, hrecord]
  intro hmem
  obtain ⟨lease, hlease, rfl⟩ := mem_map.mp hmem
  obtain ⟨held, hstored, hholds⟩ := hheld lease hlease
  rw [mem_def, hrecord] at hstored
  obtain rfl := some.inj hstored
  rw [hholds.1] at howner
  cases howner

/-- A new transition raises the fence of the record that it writes. -/
theorem begun_generationFence_ne (records : Records) (bundleName : String)
    (desiredState : DesiredState) (owner : String) (now ttl : ℚ) (reason : String) :
    (begun (current records bundleName now) desiredState owner now ttl reason).generationFence ≠
      fence records bundleName := by
  rw [← current_generationFence records bundleName now]
  exact (lt_add_one _).ne'

variable {owner reason : String}

variable {ttl : ℚ}

theorem begin_unowned {bundleName : String} {desiredState : DesiredState}
    (hrecord : records name = some record)
    (hfence : fence (begin bundleName desiredState owner now ttl reason records).2 name =
      fence records name) :
    (begin bundleName desiredState owner now ttl reason records).2 name = some record := by
  unfold begin at hfence ⊢
  split
  · exact hrecord
  rename_i hprogress
  rw [if_neg hprogress, fence_update] at hfence
  split at hfence
  case isTrue hname =>
    subst hname
    exact (begun_generationFence_ne _ _ _ _ _ _ _ hfence).elim
  case isFalse hname => exact (Function.update_of_ne hname ..).trans hrecord

theorem beginGroup_unowned {transitions : List (String × DesiredState)}
    (hrecord : records name = some record)
    (hfence : fence (beginGroup transitions owner now ttl reason records).2 name =
      fence records name) :
    (beginGroup transitions owner now ttl reason records).2 name = some record := by
  by_cases hempty : normalizeGroupTransitions transitions = []
  · have heq : (beginGroup transitions owner now ttl reason records).2 = records :=
      congrArg snd (if_pos hempty)
    rw [heq]
    exact hrecord
  by_cases hprogress : ∃ t ∈ normalizeGroupTransitions transitions,
      InProgress (current records t.1 now) now
  · have heq : (beginGroup transitions owner now ttl reason records).2 = records :=
      congrArg snd ((if_neg hempty).trans (if_pos hprogress))
    rw [heq]
    exact hrecord
  have heq : (beginGroup transitions owner now ttl reason records).2 =
      (normalizeGroupTransitions transitions).foldl (fun (written : Records) t =>
        Function.update written t.1
          (some (begun (current records t.1 now) t.2 owner now ttl reason))) records :=
    congrArg snd ((if_neg hempty).trans (if_neg hprogress))
  obtain ⟨hwritten, hothers⟩ := foldl_update
    (fun t => begun (current records t.1 now) t.2 owner now ttl reason)
    (normalizeGroupTransitions transitions) (normalizeGroupTransitions_nodup transitions) records
  rw [heq] at hfence ⊢
  by_cases hname : ∃ t ∈ normalizeGroupTransitions transitions, t.1 = name
  · obtain ⟨t, ht, rfl⟩ := hname
    refine absurd ?_ (begun_generationFence_ne records t.1 t.2 owner now ttl reason)
    rw [← hfence, fence, hwritten t ht]
    rfl
  · exact (hothers name fun t ht heq => hname ⟨t, ht, heq⟩).trans hrecord

/-- **A record without an owner** is changed by a call that raises its fence, or that records a
recovery. -/
theorem step_unowned (hnamed : Named records) {op : TransitionOp}
    (hrecord : records name = some record) (howner : record.transitionOwner = none)
    (hrecovers : name ∉ op.recovers)
    (hfence : fence (inMemoryStore.step op records).2 name = fence records name) :
    (inMemoryStore.step op records).2 name = some record := by
  have hholder : ∀ lease now write, (forHolder lease now write records).2 name = some record := by
    intro lease now write
    rcases forHolder_cases lease now write records with ⟨hheld, -, hwritten⟩ | ⟨-, heq⟩
    · exact @Written.unowned _ _ _ _ _ _ [lease] hwritten
        (fun lease' hlease' => mem_singleton.mp hlease' ▸ hheld) hrecord howner
    · rw [heq]
      exact hrecord
  have hholders : ∀ leases now write,
      (forHolders leases now write records).2 name = some record := by
    intro leases now write
    rcases forHolders_cases hnamed leases now write with ⟨hheld, -, hwritten⟩ | ⟨-, heq⟩
    · exact hwritten.unowned hheld hrecord howner
    · rw [heq]
      exact hrecord
  cases op with
  | begin bundleName desiredState owner now ttl reason => exact begin_unowned hrecord hfence
  | beginGroup transitions owner now ttl reason => exact beginGroup_unowned hrecord hfence
  | renew lease now ttl | finish lease success now reason error => exact hholder lease now _
  | renewGroup leases now ttl =>
    show (renewGroup leases now ttl records).2 name = _
    unfold renewGroup
    split
    · exact hrecord
    · exact hholders leases now _
  | finishGroup leases success now reason error => exact hholders leases now _
  | recordRecovery bundleName desiredState recovery now reason =>
    show (recordRecovery bundleName desiredState recovery now reason records).2 name = _
    unfold recordRecovery
    split
    · exact hrecord
    · have hne : name ≠ bundleName := fun heq => hrecovers (mem_singleton.mpr heq)
      exact (Function.update_of_ne hne ..).trans hrecord
  | expire bundleName now => exact hrecord

end InMemory

/-! ## The calls of a runner -/

section Calls

variable {lease : RunnerLease} {now : ℚ} {records : Records}

/-- `finish` matches the records, and rewrites all of them, or is refused. -/
theorem finishTransition_cases (hnamed : Named records) (lease : RunnerLease)
    (success : Bool) (now : ℚ) (reason : String) (error : Option String) :
    ∃ text, (lease.Live now records ∧
        (finishTransition lease success now reason error records).1 = true ∧
        Written (finished success now reason error text)
          (lease.members.map bundleName) records
          (finishTransition lease success now reason error records).2) ∨
      (¬ lease.Live now records ∧
        finishTransition lease success now reason error records = (false, records)) := by
  cases lease with
  | transition lease =>
    have hlive : (RunnerLease.transition lease).Live now records ↔
        Held lease now records := forall_mem_singleton
    rw [hlive]
    exact ⟨_, forHolder_cases lease now _ records⟩
  | group leases => exact ⟨_, forHolders_cases hnamed leases now _⟩

/-- A renewal rewrites the records of the lease, if it is live, or changes nothing. -/
theorem renewTransition_cases (controller : BundleLifecycleController)
    (hnamed : Named records) (lease : RunnerLease) (now : ℚ) :
    (lease.Live now records ∧
        Written (renewed now controller.transitionTtlSeconds)
          (lease.members.map bundleName) records
          (controller.renewTransition lease now records).2) ∨
      (controller.renewTransition lease now records).2 = records := by
  cases lease with
  | transition lease =>
    have hlive : (RunnerLease.transition lease).Live now records ↔
        Held lease now records := forall_mem_singleton
    rw [hlive]
    rcases forHolder_cases lease now
      (renewed now controller.transitionTtlSeconds) records with
      ⟨hheld, -, hwritten⟩ | ⟨-, heq⟩
    · exact Or.inl ⟨hheld, hwritten⟩
    · exact Or.inr (congrArg snd heq)
  | group leases =>
    show (_ ∧ Written _ _ records
      (renewGroup leases now controller.transitionTtlSeconds records).2) ∨
        (renewGroup leases now controller.transitionTtlSeconds records).2 = records
    unfold renewGroup
    split
    · exact Or.inr rfl
    rcases forHolders_cases hnamed leases now
      (renewed now controller.transitionTtlSeconds) with
      ⟨hheld, -, hwritten⟩ | ⟨-, heq⟩
    · exact Or.inl ⟨hheld, hwritten⟩
    · exact Or.inr (congrArg snd heq)

/-- The records of a round of the keepalive task are those of a renewal. -/
theorem keepaliveRound_records (controller : BundleLifecycleController) (lease : RunnerLease)
    (now : ℚ) (stores : Records × Resources) :
    (controller.keepaliveRound lease now stores).2.1 =
      (controller.renewTransition lease now stores.1).2 := by
  unfold BundleLifecycleController.keepaliveRound
  cases controller.resourceLease <;> rfl

theorem RunnerLease.Live.renewed {written : Records} (h : lease.Live now records)
    (hwritten : Written (renewed now ttl)
      (lease.members.map bundleName) records written) :
    lease.Live now written := by
  intro member hmember
  obtain ⟨record, hrecord, howner, hfence, hid, -⟩ := h member hmember
  refine ⟨InMemory.renewed now ttl record, hwritten.get? (mem_map_of_mem hmember) hrecord,
    howner, hfence, hid, ?_⟩
  show now < now + max (1 / 10) ttl
  have hpos : (0 : ℚ) < max (1 / 10) ttl := lt_max_of_lt_left (by norm_num)
  linarith

/-- A lease that has just been granted is not above the fences of its records. -/
theorem beginTransition_fence (controller : BundleLifecycleController)
    (request : TransitionRequest) (reason : String) (now : ℚ)
    (hnamed : Named records) :
    Named (controller.beginTransition request reason now records).2 ∧
      ∀ lease ∈ (controller.beginTransition request reason now records).1.1,
        ∀ member ∈ lease.members, fence
          (controller.beginTransition request reason now records).2 member.bundleName =
            member.generationFence := by
  cases request with
  | transition bundleName desiredState =>
    obtain ⟨hraises, hnamed'⟩ := begin_raises hnamed bundleName desiredState
      controller.owner now controller.transitionTtlSeconds reason
    refine ⟨hnamed', fun lease hlease member hmember => ?_⟩
    refine (hraises.granted member ?_).2
    show member ∈ (begin bundleName desiredState controller.owner now
      controller.transitionTtlSeconds reason records).1.lease.toList
    simp only [BundleLifecycleController.beginTransition] at hlease
    split at hlease
    · obtain ⟨granted, hgranted, rfl⟩ := map_eq_some_iff.mp hlease
      rw [hgranted]
      exact hmember
    · cases hlease
  | group transitions =>
    obtain ⟨hraises, hnamed'⟩ := beginGroup_raises hnamed transitions
      controller.owner now controller.transitionTtlSeconds reason
    refine ⟨hnamed', fun lease hlease member hmember => ?_⟩
    refine (hraises.granted member ?_).2
    show member ∈ (beginGroup transitions controller.owner now
      controller.transitionTtlSeconds reason records).1.lease.getD []
    simp only [BundleLifecycleController.beginTransition] at hlease
    split at hlease
    · obtain ⟨granted, hgranted, rfl⟩ := map_eq_some_iff.mp hlease
      rw [hgranted]
      exact hmember
    · cases hlease

end Calls

/-! ## The end of a runner -/

variable {α : Type} {controller : BundleLifecycleController} {s s' : RunnerState}

/-- `completed` was returned. -/
def completed (r : Except Raised (Bool × Option α × String)) : Bool :=
  match r with
  | .ok (acquired, _, reason) => acquired && reason == "completed"
  | .error _ => false

/-- The record of a bundle has no owner, and the phase of an outcome. -/
def ClosedAs (success : Bool) (record : BundleLifecycleRecord) : Prop :=
  record.transitionOwner = none ∧
    record.recovery.phase = if success = true then .ready else .crashed

/-- The record of each bundle of the lease is closed, unless a later transition has been begun or
its recovery has been recorded since. -/
def RunnerState.Closed (s : RunnerState) (lease : RunnerLease) (success : Bool) : Prop :=
  ∀ member ∈ lease.members, member.bundleName ∉ s.recovered →
    fence s.records member.bundleName = member.generationFence →
    ∃ record ∈ s.records member.bundleName, ClosedAs success record

/-- **What a runner owes.**  It returns `completed` only if every renewal succeeded and its one
`finish`, with success, matched the records; and if the lease had not expired or been superseded,
it has finished it once, and has left no record behind that is owned or in another phase. -/
structure RunnerSettled (r : Except Raised (Bool × Option α × String)) (s : RunnerState) :
    Prop where
  completed : completed r = true →
    (∀ renewed ∈ s.renewals, renewed = true) ∧ s.finishes = [⟨true, true⟩]
  closed : ∀ lease ∈ s.lease, s.lapsed = false →
    (∃ success, s.finishes = [⟨success, true⟩]) ∧ s.Closed lease (Lifecycle.completed r)

/-- The runner handles an exception: a cancellation, or an `Exception` whose text can be made. -/
def Raised.Handled : Raised → Prop
  | .cancelled => True
  | .exception text => text.isSome = true
  | .base => False

instance (e : Raised) : Decidable e.Handled := by
  unfold Raised.Handled
  split <;> infer_instance

/-- The operation raises nothing that the runner does not handle, while the lease is live. -/
def HandledWhileLive (command : RunnerCommand) (o : Except Raised (α × Bool)) (s : RunnerState) :
    Prop :=
  match command, o with
  | .operation, .error e => (∃ lease ∈ s.lease, lease.Live s.clock s.records) → e.Handled
  | _, _ => True

instance (command : RunnerCommand) (o : Except Raised (α × Bool)) (s : RunnerState) :
    Decidable (HandledWhileLive command o s) := by
  unfold HandledWhileLive
  split <;> infer_instance

/-! ## What the others keep -/

structure RunnerState.Kept (s : RunnerState) : Prop where
  named : Named s.records
  fence : ∀ lease ∈ s.lease, ∀ member ∈ lease.members,
    member.generationFence ≤ fence s.records member.bundleName
  live : ∀ lease ∈ s.lease, s.finishes = [] → s.lapsed = false → lease.Live s.clock s.records
  closed : ∀ lease ∈ s.lease, ∀ success, s.finishes = [⟨success, true⟩] → s.Closed lease success
  renewals : s.lost = false → ∀ renewed ∈ s.renewals, renewed = true
  keeping : s.keeping = true → s.lost = false

structure Unaffected (s s' : RunnerState) : Prop where
  lease : s'.lease = s.lease
  finishes : s'.finishes = s.finishes
  lapsed : s'.lapsed = false → s.lapsed = false
  stopped : s.keeping = false → s'.keeping = false ∧ s'.lost = s.lost

theorem Unaffected.refl (s : RunnerState) : Unaffected s s := ⟨rfl, rfl, id, fun h => ⟨h, rfl⟩⟩

theorem Unaffected.trans {s'' : RunnerState} (h : Unaffected s s') (h' : Unaffected s' s'') :
    Unaffected s s'' := by
  refine ⟨h'.lease.trans h.lease, h'.finishes.trans h.finishes, h.lapsed ∘ h'.lapsed,
    fun hstopped => ?_⟩
  obtain ⟨hkeeping, hlost⟩ := h.stopped hstopped
  obtain ⟨hkeeping', hlost'⟩ := h'.stopped hkeeping
  exact ⟨hkeeping', hlost'.trans hlost⟩

/-- A lease that has not lapsed at the last look is live. -/
theorem live_of_observed {lease : RunnerLease} (hlease : lease ∈ s.lease)
    (hfinishes : s.finishes = []) (hlapsed : s.observed.lapsed = false) :
    lease.Live s.clock s.records := by
  by_contra hlive
  have hlapsed : (s.lapsed || decide (s.finishes = [] ∧
      ∃ lease ∈ s.lease, ¬ lease.Live s.clock s.records)) = false := hlapsed
  rw [Bool.or_eq_false_iff, decide_eq_false_iff_not] at hlapsed
  exact hlapsed.2 ⟨hfinishes, lease, hlease, hlive⟩

theorem lapsed_of_observed (hlapsed : s.observed.lapsed = false) : s.lapsed = false :=
  (Bool.or_eq_false_iff.mp hlapsed).1

/-- A look at the lease keeps what holds, apart from what the look is for. -/
theorem kept_observed (hnamed : Named s.records)
    (hfence : ∀ lease ∈ s.lease, ∀ member ∈ lease.members,
      member.generationFence ≤ fence s.records member.bundleName)
    (hclosed : ∀ lease ∈ s.lease, ∀ success, s.finishes = [⟨success, true⟩] →
      s.Closed lease success)
    (hrenewals : s.lost = false → ∀ renewed ∈ s.renewals, renewed = true)
    (hkeeping : s.keeping = true → s.lost = false) : s.observed.Kept :=
  ⟨hnamed, hfence, fun _ hlease hfinishes => live_of_observed (s := s) hlease hfinishes, hclosed,
    hrenewals, hkeeping⟩

/-- A call of another owner keeps the fences from falling. -/
theorem fence_step (hnamed : Named s.records) (op : TransitionOp) (name : String) :
    fence s.records name ≤
      fence (inMemoryStore.step op s.records).2 name :=
  (raises hnamed op).1.level_le name

/-- A call of another owner leaves what is closed closed. -/
theorem RunnerState.Kept.closed_step (h : s.Kept) (op : TransitionOp) {lease : RunnerLease}
    {success : Bool} (hlease : lease ∈ s.lease) (hfinishes : s.finishes = [⟨success, true⟩]) :
    RunnerState.Closed { s with
      records := (inMemoryStore.step op s.records).2
      recovered := op.recovers ++ s.recovered } lease success := by
  intro member hmember hrecovered hfence
  have hrecovered : member.bundleName ∉ op.recovers ++ s.recovered := hrecovered
  rw [mem_append, not_or] at hrecovered
  have hbefore : InMemory.fence s.records member.bundleName = member.generationFence :=
    le_antisymm (hfence ▸ fence_step h.named op member.bundleName) (h.fence lease hlease member hmember)
  obtain ⟨record, hrecord, hclosed⟩ :=
    h.closed lease hlease success hfinishes member hmember hrecovered.2 hbefore
  exact ⟨record, step_unowned h.named hrecord hclosed.1 hrecovered.1
    (hfence.trans hbefore.symm), hclosed⟩

/-- A round of the keepalive task keeps what holds. -/
theorem RunnerState.Kept.keepalive (h : s.Kept) {lease : RunnerLease} (hlease : s.lease = some lease)
    (hkeeping : s.keeping = true) {records : Records} (resources : Resources)
    (renewed : Bool)
    (hrecords : records = (controller.renewTransition lease s.clock s.records).2) :
    RunnerState.Kept { s with
      records := records
      resources := resources
      renewals := s.renewals ++ [renewed]
      lost := !renewed
      keeping := renewed } := by
  have hrenewals : (!renewed) = false →
      ∀ answer ∈ s.renewals ++ [renewed], answer = true := by
    intro hlost answer hanswer
    rcases mem_append.mp hanswer with hbefore | hlast
    · exact h.renewals (h.keeping hkeeping) answer hbefore
    · rw [mem_singleton.mp hlast]
      exact (Bool.not_eq_false' renewed).mp hlost
  have hstopped : renewed = true → (!renewed) = false := (Bool.not_eq_false' renewed).mpr
  rcases renewTransition_cases controller h.named lease s.clock with ⟨hlive, hwritten⟩ | hsame
  · rw [← hrecords] at hwritten
    have hidentity := renewed_keepsIdentity s.clock controller.transitionTtlSeconds
    refine ⟨hwritten.named hidentity h.named, fun own hown member hmember => ?_,
      fun own hown hfinishes hlapsed => ?_, fun own hown success hfinishes member hmember
        hrecovered hfence => ?_, hrenewals, hstopped⟩
    · exact (h.fence own hown member hmember).trans (hwritten.fence hidentity _).ge
    · obtain rfl := some.inj (hlease.symm.trans hown)
      exact hlive.renewed hwritten
    · -- What is closed has no owner, so it is not renewed.
      obtain rfl := some.inj (hlease.symm.trans hown)
      obtain ⟨record, hrecord, howner, -⟩ := h.closed lease hown success hfinishes member hmember
        hrecovered ((hwritten.fence hidentity _).symm.trans hfence)
      obtain ⟨held, hheld, hholds⟩ := hlive member hmember
      rw [mem_def.mp hrecord] at hheld
      obtain rfl := some.inj hheld
      rw [hholds.1] at howner
      cases howner
  · rw [hrecords, hsame]
    exact ⟨h.named, h.fence, h.live, h.closed, hrenewals, hstopped⟩

/-- **One move of the others.** -/
theorem runnerEnv_keeps {e : RunnerEvent} (hmove : runnerEnv controller e s = some s')
    (h : s.Kept) : s'.Kept ∧ Unaffected s s' := by
  cases e with
  | setClock clock =>
    obtain rfl := some.inj hmove
    refine ⟨kept_observed h.named h.fence h.closed h.renewals h.keeping, rfl, rfl, ?_,
      fun hstopped => ⟨hstopped, rfl⟩⟩
    exact lapsed_of_observed (s := { s with clock := clock })
  | keepalive =>
    simp only [runnerEnv] at hmove
    split at hmove
    case h_2 => cases hmove
    case h_1 lease hkeeping hlease =>
      obtain rfl := some.inj hmove
      refine ⟨h.keepalive hlease hkeeping _ _ (keepaliveRound_records ..), rfl, rfl, id, ?_⟩
      intro hstopped
      rw [hkeeping] at hstopped
      cases hstopped
  | call op =>
    obtain rfl := some.inj hmove
    refine ⟨kept_observed (raises h.named op).2 (fun lease hlease member hmember => ?_)
      (fun lease hlease success hfinishes => ?_) h.renewals h.keeping, rfl, rfl, ?_,
      fun hstopped => ⟨hstopped, rfl⟩⟩
    · exact (h.fence lease hlease member hmember).trans (fence_step h.named op _)
    · have hfinishes : s.finishes = [⟨success, true⟩] := hfinishes
      rw [if_neg (by rw [hfinishes]; exact cons_ne_nil _ _)]
      exact h.closed_step op hlease hfinishes
    · exact lapsed_of_observed (s := { s with
        records := (inMemoryStore.step op s.records).2
        recovered := if s.finishes = [] then s.recovered else op.recovers ++ s.recovered })
  | setResources resources =>
    obtain rfl := some.inj hmove
    exact ⟨⟨h.named, h.fence, h.live, h.closed, h.renewals, h.keeping⟩, rfl, rfl, id,
      fun hstopped => ⟨hstopped, rfl⟩⟩

/-- The rules of a runner. -/
def runnerRules (α : Type) (controller : BundleLifecycleController) :
    Rules (runnerArena (α := α) controller) where
  Inv := RunnerState.Kept
  rely := Unaffected
  rely_refl := Unaffected.refl
  rely_trans := Unaffected.trans
  env := runnerEnv_keeps

/-! ## The paths of a runner -/

section Paths

variable {β : Type} {lease : RunnerLease} {success matched : Bool}

/-- A program of a runner whose operation raises nothing that is not handled. -/
abbrev Reaches (controller : BundleLifecycleController)
    (post : Except Raised β → RunnerState → Prop) (p : RunnerProg α β) (s : RunnerState) : Prop :=
  (runnerRules α controller).wp HandledWhileLive post p s

structure Begun (lease : RunnerLease) (s : RunnerState) : Prop where
  lease : s.lease = some lease
  finishes : s.finishes = []

structure FinishedAs (lease : RunnerLease) (success matched : Bool) (s : RunnerState) : Prop where
  lease : s.lease = some lease
  finishes : s.finishes = [⟨success, matched⟩]
  matched : s.lapsed = false → matched = true

theorem Begun.unaffected (h : Begun lease s) (hmeantime : Unaffected s s') : Begun lease s' :=
  ⟨hmeantime.lease.trans h.lease, hmeantime.finishes.trans h.finishes⟩

theorem FinishedAs.unaffected (h : FinishedAs lease success matched s)
    (hmeantime : Unaffected s s') : FinishedAs lease success matched s' :=
  ⟨hmeantime.lease.trans h.lease, hmeantime.finishes.trans h.finishes,
    h.matched ∘ hmeantime.lapsed⟩

/-- `finish` closes the records that it matches. -/
theorem RunnerState.Kept.finish (h : s.Kept) (hbegun : Begun lease s) (success : Bool)
    (reason : String) (error : Option String) :
    RunnerState.Kept { s with
      records := (finishTransition lease success s.clock reason error s.records).2
      finishes := s.finishes ++ [⟨success, lease.Live s.clock s.records⟩] } ∧
    (finishTransition lease success s.clock reason error s.records).1 =
      decide (lease.Live s.clock s.records) := by
  have hnotNil : s.finishes ++ [⟨success, lease.Live s.clock s.records⟩] ≠ [] :=
    append_ne_nil_of_right_ne_nil _ (cons_ne_nil _ _)
  have hlast : ∀ outcome, s.finishes ++ [⟨success, lease.Live s.clock s.records⟩] =
      [⟨outcome, true⟩] → success = outcome ∧ lease.Live s.clock s.records := by
    intro outcome houtcome
    rw [hbegun.finishes] at houtcome
    obtain ⟨hsuccess, hlive⟩ := FinishCall.mk.inj (singleton_inj.mp houtcome)
    exact ⟨hsuccess, of_decide_eq_true hlive⟩
  obtain ⟨text, ⟨hlive, hanswer, hwritten⟩ | ⟨hnot, hrefused⟩⟩ :=
    finishTransition_cases h.named lease success s.clock reason error
  · have hidentity := finished_keepsIdentity success s.clock reason error text
    refine ⟨⟨hwritten.named hidentity h.named, fun own hown member hmember => ?_,
      fun own hown hnil => absurd hnil hnotNil,
      fun own hown outcome houtcome member hmember _ _ => ?_, h.renewals, h.keeping⟩,
      by rw [hanswer, decide_eq_true hlive]⟩
    · exact (h.fence own hown member hmember).trans (hwritten.fence hidentity _).ge
    · obtain ⟨rfl, -⟩ := hlast outcome houtcome
      obtain rfl := some.inj (hbegun.lease.symm.trans hown)
      obtain ⟨record, hrecord, -⟩ := hlive member hmember
      exact ⟨_, hwritten.get? (mem_map_of_mem hmember) hrecord, rfl, rfl⟩
  · rw [hrefused]
    exact ⟨⟨h.named, h.fence, fun own hown hnil => absurd hnil hnotNil,
      fun own hown outcome houtcome => absurd (hlast outcome houtcome).2 hnot, h.renewals,
      h.keeping⟩, (decide_eq_false hnot).symm⟩

theorem reaches_finish {error : Option String} {k : Bool → RunnerProg α β}
    {post : Except Raised β → RunnerState → Prop} (h : Begun lease s)
    (hnext : ∀ s' matched, s'.Kept → FinishedAs lease success matched s' →
      (s.keeping = false → s'.lost = s.lost) → Reaches controller post (k matched) s') :
    Reaches controller post (.call (.finishTransition lease success reason error) k) s := by
  intro s' hkept hmeantime o _ answer s'' hexec
  obtain ⟨rfl, rfl⟩ := mk.inj (some.inj hexec)
  have hbegun := h.unaffected hmeantime
  obtain ⟨hkept', hanswer⟩ := hkept.finish hbegun success reason error
  refine ⟨hkept', ?_⟩
  show Reaches controller post (k (finishTransition lease success s'.clock reason error
    s'.records).1) _
  rw [hanswer]
  refine hnext _ _ hkept' ⟨hbegun.lease, ?_, fun hlapsed => ?_⟩ fun hstopped =>
    (hmeantime.stopped hstopped).2
  · show s'.finishes ++ _ = _
    rw [hbegun.finishes]
    rfl
  · exact decide_eq_true (hkept.live lease hbegun.lease hbegun.finishes hlapsed)

/-- After an exception, the lease has been finished without success, or it had lapsed before. -/
def LeftBehind (lease : RunnerLease) (s : RunnerState) : Prop :=
  (∃ matched, FinishedAs lease false matched s) ∨ Begun lease s ∧ s.lapsed = true

theorem LeftBehind.unaffected (h : LeftBehind lease s) (hmeantime : Unaffected s s') :
    LeftBehind lease s' := by
  rcases h with ⟨matched, h⟩ | ⟨hbegun, hlapsed⟩
  · exact Or.inl ⟨matched, h.unaffected hmeantime⟩
  refine Or.inr ⟨hbegun.unaffected hmeantime, Bool.eq_true_of_not_eq_false fun hnot => ?_⟩
  rw [hmeantime.lapsed hnot] at hlapsed
  cases hlapsed

/-- What has been finished is settled, if the outcome is what is returned. -/
theorem FinishedAs.settled {r : Except Raised (Bool × Option α × String)} (hkept : s.Kept)
    (h : FinishedAs lease success matched s)
    (hphase : matched = true → completed r = success)
    (hcompleted : completed r = true →
      success = true ∧ matched = true ∧ ∀ renewed ∈ s.renewals, renewed = true) :
    RunnerSettled r s := by
  refine ⟨fun hr => ?_, fun own hown hlapsed => ?_⟩
  · obtain ⟨rfl, rfl, hrenewals⟩ := hcompleted hr
    exact ⟨hrenewals, h.finishes⟩
  · obtain rfl := h.matched hlapsed
    exact ⟨⟨success, h.finishes⟩, (hphase rfl).symm ▸ hkept.closed own hown success h.finishes⟩

theorem LeftBehind.settled {e : Raised} (hkept : s.Kept) (h : LeftBehind lease s) :
    RunnerSettled (.error e : Except Raised (Bool × Option α × String)) s := by
  rcases h with ⟨matched, h⟩ | ⟨hbegun, hlapsed⟩
  · exact h.settled hkept (fun _ => rfl) fun hr => absurd hr Bool.false_ne_true
  refine ⟨fun hr => absurd hr Bool.false_ne_true, fun own hown hnot => ?_⟩
  rw [hlapsed] at hnot
  cases hnot

/-- After the `except` clauses. -/
def Caught (lease : RunnerLease) (r : Except Raised (α × Bool)) (s : RunnerState) : Prop :=
  match r with
  | .ok _ => Begun lease s
  | .error _ => LeftBehind lease s

/-- **The operation and its `except` clauses.** -/
theorem reaches_tryBlock (texts : RunnerTexts) (reason : String) (h : Begun lease s) :
    Reaches controller (Caught lease)
      ((tryBlock (α := α)).rescue (exceptClauses texts lease reason)) s := by
  intro s' hkept hmeantime o hhandled answer s'' hexec
  obtain ⟨rfl, rfl⟩ := mk.inj (some.inj hexec)
  have hbegun := h.unaffected hmeantime
  refine ⟨hkept, ?_⟩
  have hlapsed : ∀ e : Raised, o = .error e → ¬ e.Handled → LeftBehind lease s' := by
    intro e he hnot
    subst he
    refine Or.inr ⟨hbegun, Bool.eq_true_of_not_eq_false fun hlapsed => hnot (hhandled ?_)⟩
    exact ⟨lease, hbegun.lease, hkept.live lease hbegun.lease hbegun.finishes hlapsed⟩
  rcases o with (_ | (_ | text) | _) | outcome
  · exact reaches_finish hbegun fun s'' matched _ hfinished _ => Or.inl ⟨matched, hfinished⟩
  · exact hlapsed _ rfl Bool.false_ne_true
  · exact reaches_finish hbegun fun s'' matched _ hfinished _ => Or.inl ⟨matched, hfinished⟩
  · exact hlapsed _ rfl id
  · exact hbegun

/-- After the `finally` clause. -/
def Joined (lease : RunnerLease) (r : Except Raised (α × Bool)) (s : RunnerState) : Prop :=
  s.keeping = false ∧ Caught lease r s

/-- **The `finally` clause.** -/
theorem reaches_finallyClause {r : Except Raised (α × Bool)} (h : Caught lease r s) :
    Reaches controller (fun r s => s.Kept ∧ Joined lease r s) (finallyClause r) s := by
  intro s' hkept hmeantime o _ answer s'' hexec
  obtain ⟨rfl, rfl⟩ := mk.inj (some.inj hexec)
  have hkept' : RunnerState.Kept { s' with keeping := false } :=
    ⟨hkept.named, hkept.fence, hkept.live, hkept.closed, hkept.renewals,
      fun hkeeping => absurd hkeeping Bool.false_ne_true⟩
  have hstopped : Unaffected s' { s' with keeping := false } :=
    ⟨rfl, rfl, id, fun _ => ⟨rfl, rfl⟩⟩
  refine ⟨hkept', hkept', rfl, ?_⟩
  cases r with
  | ok outcome | error e => exact h.unaffected (hmeantime.trans hstopped)

/-- **What follows the `try` statement.** -/
theorem reaches_publish (texts : RunnerTexts) (reason : String) (outcome : α × Bool)
    (hstopped : s.keeping = false) (h : Begun lease s) :
    Reaches controller RunnerSettled (publish texts lease reason outcome) s := by
  intro s' hkept hmeantime o _ answer s'' hexec
  obtain ⟨rfl, rfl⟩ := mk.inj (some.inj hexec)
  have hbegun := h.unaffected hmeantime
  have hkeeping := (hmeantime.stopped hstopped).1
  refine ⟨hkept, ?_⟩
  obtain ⟨result, success⟩ := outcome
  have hstale : completed (.ok (true, some result, "stale_transition") :
      Except Raised (Bool × Option α × String)) = false := rfl
  cases hlost : s'.lost with
  | true =>
    refine reaches_finish hbegun fun s'' matched hkept' hfinished _ => ?_
    exact hfinished.settled hkept' (fun _ => rfl) fun hr =>
      absurd (hstale.symm.trans hr) Bool.false_ne_true
  | false =>
    refine reaches_finish hbegun fun s'' matched hkept' hfinished hsame => ?_
    have hrenewals := hkept'.renewals ((hsame hkeeping).trans hlost)
    cases matched with
    | false =>
      exact hfinished.settled hkept' (fun hmatched => absurd hmatched Bool.false_ne_true)
        fun hr => absurd (hstale.symm.trans hr) Bool.false_ne_true
    | true =>
      cases success with
      | false =>
        exact hfinished.settled hkept' (fun _ => rfl) fun hr => absurd hr Bool.false_ne_true
      | true => exact hfinished.settled hkept' (fun _ => rfl) fun _ => ⟨rfl, rfl, hrenewals⟩

structure Idle (s : RunnerState) : Prop where
  lease : s.lease = none
  finishes : s.finishes = []
  keeping : s.keeping = false
  lost : s.lost = false

/-- **The whole runner.** -/
theorem reaches_run (texts : RunnerTexts) (request : TransitionRequest) (reason : String)
    (h : Idle s) : Reaches (α := α) controller RunnerSettled (run texts request reason) s := by
  intro s' hkept hmeantime o _ answer s'' hexec
  obtain ⟨rfl, rfl⟩ := mk.inj (some.inj hexec)
  have hfinishes : s'.finishes = [] := hmeantime.finishes.trans h.finishes
  have hlost : s'.lost = false := (hmeantime.stopped h.keeping).2.trans h.lost
  obtain ⟨hnamed, hfence⟩ :=
    beginTransition_fence controller request reason s'.clock hkept.named
  generalize controller.beginTransition request reason s'.clock s'.records = r at hnamed hfence
  obtain ⟨⟨granted, refused⟩, records⟩ := r
  refine ⟨kept_observed hnamed (fun own hown member hmember => (hfence own hown member hmember).ge)
    (fun own hown success hsuccess => ?_) hkept.renewals fun _ => hlost, ?_⟩
  · have hsuccess : s'.finishes = [⟨success, true⟩] := hsuccess
    rw [hfinishes] at hsuccess
    cases hsuccess
  · cases granted with
    | none =>
      refine ⟨fun hr => absurd hr Bool.false_ne_true, fun own hown => ?_⟩
      cases hown
    | some lease =>
      have hbegun : Begun lease (RunnerState.observed
          { s' with records := records, lease := some lease, keeping := true }) :=
        ⟨rfl, hfinishes⟩
      show Reaches controller RunnerSettled
        ((tryBlock.rescue (exceptClauses texts lease reason)).rescue finallyClause >>=
          publish texts lease reason) _
      refine (runnerRules α controller).wp_bind ((runnerRules α controller).wp_rescue ?_)
      refine Rules.wp_mono _ (reaches_tryBlock texts reason hbegun) fun r s h => ?_
      refine Rules.wp_mono _ (reaches_finallyClause h) fun r s h => ?_
      obtain ⟨hkept, hstopped, hcaught⟩ := h
      cases r with
      | ok outcome => exact reaches_publish texts reason outcome hstopped hcaught
      | error e => exact hcaught.settled hkept

end Paths

/-- The start: nothing is stored, as the other owners may store anything first. -/
def runnerStart (clock : ℚ) : RunnerState := { clock := clock }

/-- **Every run of an operation under a lease.**  However the operation, the renewals and the clock
interleave: if the operation raises nothing that the runner does not handle while the lease is live,
the runner pays what it owes. -/
theorem runner_settled (controller : BundleLifecycleController) (request : TransitionRequest)
    (reason : String) (clock : ℚ) (moves : List (Move (Except Raised (α × Bool)) RunnerEvent))
    (r : Except Raised (Bool × Option α × String))
    (hhandled : (runnerArena controller).AllActs HandledWhileLive moves (request.runner reason)
      (runnerStart clock))
    (hplay : (runnerArena controller).play moves (request.runner reason) (runnerStart clock) =
      some (.done r, s)) : RunnerSettled r s := by
  have hkept : (runnerStart clock).Kept :=
    ⟨fun _ _ hrecord => (by cases hrecord), fun _ hlease => (by cases hlease),
      fun _ hlease => (by cases hlease), fun _ hlease => (by cases hlease),
      fun _ _ hrenewed => (by cases hrenewed), fun _ => rfl⟩
  refine (runnerRules α controller).play_sound hkept ?_ hhandled hplay
  cases request with
  | transition bundleName desiredState | group transitions =>
    exact reaches_run _ _ reason ⟨rfl, rfl, rfl, rfl⟩

def minuteController : BundleLifecycleController := { owner := "o", transitionTtlSeconds := 60 }

def operates (o : Except Raised (Unit × Bool)) : Move (Except Raised (Unit × Bool)) RunnerEvent :=
  .act o

/-- The lease is renewed once, while its operation succeeds. -/
def succeeds : List (Move (Except Raised (Unit × Bool)) RunnerEvent) :=
  [operates (.ok ((), true)), .env (.setClock 20), .env .keepalive, operates (.ok ((), true)),
    operates (.ok ((), true)), operates (.ok ((), true)), operates (.ok ((), true))]

/-- That operation is settled as completed. -/
theorem runner_settled_succeeds :
    ∃ r s, (runnerArena minuteController).play succeeds
        ((TransitionRequest.transition "b" .running).runner "start")
        (runnerStart 0) = some (.done r, s) ∧ completed r = true ∧ s.lapsed = false ∧
      RunnerSettled r s := by
  have hend : ((runnerArena minuteController).outcome? succeeds
      ((TransitionRequest.transition "b" .running).runner "start")
      (runnerStart 0)).map (fun r => (completed r.1, r.2.lapsed)) = some (true, false) := by
    decide +kernel
  obtain ⟨⟨r, s⟩, hplay, hr⟩ := map_eq_some_iff.mp hend
  obtain ⟨hcompleted, hlapsed⟩ := mk.inj hr
  have hplay := Arena.play_of_outcome? _ hplay
  exact ⟨r, s, hplay, hcompleted, hlapsed,
    runner_settled minuteController _ "start" 0 succeeds r (by decide +kernel) hplay⟩

/-- The operation raises an exception whose text cannot be made. -/
def unreadable : List (Move (Except Raised (Unit × Bool)) RunnerEvent) :=
  [operates (.ok ((), true)), operates (.error (.exception none)), operates (.ok ((), true))]

/-- The lease is left behind then. -/
theorem unreadable_not_settled :
    ¬ ∀ (moves : List (Move (Except Raised (Unit × Bool)) RunnerEvent))
        (r : Except Raised (Bool × Option Unit × String)) (s : RunnerState),
        (runnerArena minuteController).play moves
            ((TransitionRequest.transition "b" .running).runner "start") (runnerStart 0) =
          some (.done r, s) →
        RunnerSettled r s := by
  intro hall
  have hend : ((runnerArena minuteController).outcome? unreadable
      ((TransitionRequest.transition "b" .running).runner "start") (runnerStart 0)).map
        (fun r => (r.2.lease.isSome, r.2.lapsed, r.2.finishes)) = some (true, false, []) := by
    decide +kernel
  obtain ⟨⟨r, s⟩, hplay, hr⟩ := map_eq_some_iff.mp hend
  obtain ⟨hlease, hr⟩ := mk.inj hr
  obtain ⟨hlapsed, hfinishes⟩ := mk.inj hr
  obtain ⟨lease, hlease⟩ := isSome_iff_exists.mp hlease
  obtain ⟨⟨success, hfinished⟩, -⟩ :=
    (hall _ r s (Arena.play_of_outcome? _ hplay)).closed lease hlease hlapsed
  rw [hfinishes] at hfinished
  cases hfinished

end GpuManager.Lifecycle
