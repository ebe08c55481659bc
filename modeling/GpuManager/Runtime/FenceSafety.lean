import GpuManager.Runtime.StateHistory

/-!
# Fence safety over restarts

* `Told`: what the record of an instance says about the changes so far; each call keeps it.
* `Sound`: the memory tells of the changes that are kept, and the file of the durable ones; a
  change, a write and a restart keep it.
* `fence_safe`: in a run whose instance ids a file gives back, the process is fence-safe.
* `pairRun_not_fenceSafe`: an id with a surrogate pair comes back as another id, so after a restart
  its first fence is begun a second time.
-/

namespace GpuManager.Runtime

open Json PyStr List StateCall

variable {c : Contracts} {changes : List Change} {records : Records} {record : InstanceRecord}
  {id : PyStr}

/-! ## Changes by status -/

section Statuses

variable {p q : Status → Bool}

theorem changesWhere_cons (p : Status → Bool) (e : Entry) (entries : List Entry) :
    changesWhere p (e :: entries) =
      if p e.status = true then (e.call, e.answer) :: changesWhere p entries
      else changesWhere p entries := by
  unfold changesWhere
  rw [filterMap_cons]
  split <;> simp_all

theorem changesWhere_append (p : Status → Bool) (entries entries' : List Entry) :
    changesWhere p (entries ++ entries') = changesWhere p entries ++ changesWhere p entries' :=
  filterMap_append

theorem changesWhere_map {f : Entry → Entry}
    (hsame : ∀ e, (f e).call = e.call ∧ (f e).answer = e.answer)
    (hstatus : ∀ e, p (f e).status = q e.status) (entries : List Entry) :
    changesWhere p (entries.map f) = changesWhere q entries := by
  unfold changesWhere
  rw [filterMap_map]
  refine filterMap_congr fun e _ => ?_
  show (if p (f e).status = true then some ((f e).call, (f e).answer) else none) = _
  rw [hstatus, (hsame e).1, (hsame e).2]

theorem wrote_same (e : Entry) : e.wrote.call = e.call ∧ e.wrote.answer = e.answer := ⟨rfl, rfl⟩

theorem restarted_same (e : Entry) :
    e.restarted.call = e.call ∧ e.restarted.answer = e.answer := ⟨rfl, rfl⟩

theorem changesWhere_complete (hwrote : ∀ e : Entry, p e.wrote.status = q e.status)
    (hcompleted : p .completed = true) {entries : List Entry} {i : ℕ} {e : Entry}
    (hi : entries[i]? = some e) (hq : q e.status = true) :
    changesWhere p (complete i entries) = changesWhere q entries := by
  induction entries generalizing i with
  | nil => simp at hi
  | cons e' entries ih =>
    cases i with
    | zero =>
      obtain rfl : e' = e := by simpa using hi
      unfold complete
      rw [changesWhere_cons, changesWhere_cons, if_pos hcompleted, if_pos hq,
        changesWhere_map wrote_same hwrote]
    | succ i =>
      unfold complete
      rw [changesWhere_cons, changesWhere_cons, hwrote,
        ih (by simpa using hi)]
      rfl

theorem changesWhere_sublist (h : ∀ status, p status = true → q status = true)
    (entries : List Entry) :
    (changesWhere p entries).Sublist (changesWhere q entries) := by
  induction entries with
  | nil => exact Sublist.slnil
  | cons e entries ih =>
    rw [changesWhere_cons, changesWhere_cons]
    by_cases hp : p e.status = true
    · rw [if_pos hp, if_pos (h _ hp)]
      exact ih.cons_cons _
    rw [if_neg hp]
    split
    · exact ih.cons _
    · exact ih

end Statuses

/-! ## What a record tells -/

theorem begins_append (changes changes' : List Change) (id : PyStr) :
    begins (changes ++ changes') id = begins changes id ++ begins changes' id :=
  filterMap_append

theorem generations_append (changes changes' : List Change) (id : PyStr) :
    generations (changes ++ changes') id = generations changes id ++ generations changes' id :=
  filterMap_append

variable {fingerprint profileName : PyStr} {call : StateCall} {changes' : List Change} {x : Change}

theorem EndedReady.append (h : EndedReady c changes id profileName fingerprint)
    (hnone : begins changes' id = []) :
    EndedReady c (changes ++ changes') id profileName fingerprint := by
  obtain ⟨before, lease, profile, observation, now, answer, after, rfl, hid, hlast, hafter, hrest⟩ := h
  refine ⟨before, lease, profile, observation, now, answer, after ++ changes', by simp, hid, hlast,
    ?_, hrest⟩
  rw [begins_append, hafter, hnone]
  rfl

/-- What the record of an instance says about the changes. -/
structure Told (c : Contracts) (changes : List Change) (id : PyStr) (record : InstanceRecord) :
    Prop where
  named : record.instanceId = id
  fence : 0 ≤ record.transitionFence
  last : (begins changes id).getLast?.getD 0 = record.transitionFence
  begun : ∀ fence ∈ begins changes id, fence ≤ record.transitionFence
  returned : ∀ generation ∈ generations changes id, generation ≤ record.processGeneration
  owned : record.transitionOwner.isSome = true → 0 < record.transitionFence
  profile : join record.profileName = record.profileName
  fingerprint : join record.profileFingerprint = record.profileFingerprint
  ready : record.state = .ready →
    EndedReady c changes id record.profileName record.profileFingerprint

structure Tells (c : Contracts) (records : Records) (changes : List Change) : Prop where
  nodup : (records.map (·.1)).Nodup
  joined : ∀ e ∈ records, join e.1 = e.1
  told : ∀ id record, records.get? id = some record → Told c changes id record
  untold : ∀ id, records.get? id = none → begins changes id = [] ∧ generations changes id = []
  begun : ∀ id, (begins changes id).Pairwise (· < ·)
  returned : ∀ id, (generations changes id).Pairwise (· ≤ ·)

theorem Tells.keyed (h : Tells c records changes) : Keyed records := by
  have htold : ∀ e ∈ records, Told c changes e.1 e.2 :=
    fun e he => h.told e.1 e.2 (PyDict.get?_eq_some_of_mem h.nodup he)
  exact ⟨h.nodup, h.joined, fun e he => (htold e he).named, fun e he => (htold e he).fence⟩

/-- A record that is not there yet. -/
theorem Told.new (hnone : begins changes id = [] ∧ generations changes id = [])
    (hname : join profileName = profileName)
    (hfingerprint : join fingerprint = fingerprint) (now : ℚ) :
    Told c changes id
      { instanceId := id
        profileName := profileName
        profileFingerprint := fingerprint
        observedAt := now } := by
  refine ⟨rfl, le_refl 0, ?_, ?_, ?_, ?_, hname, hfingerprint, ?_⟩
  · rw [hnone.1]
    rfl
  · rw [hnone.1]
    exact fun _ h => absurd h not_mem_nil
  · rw [hnone.2]
    exact fun _ h => absurd h not_mem_nil
  · exact fun h => absurd h Bool.false_ne_true
  · exact fun h => (by cases h)

theorem Told.frame (h : Told c changes id record)
    (hbegins : begins changes' id = []) (hgenerations : generations changes' id = []) :
    Told c (changes ++ changes') id record := by
  refine ⟨h.named, h.fence, ?_, ?_, ?_, h.owned, h.profile, h.fingerprint,
    fun hready => (h.ready hready).append hbegins⟩
  · rw [begins_append, hbegins, append_nil]
    exact h.last
  · rw [begins_append, hbegins, append_nil]
    exact h.begun
  · rw [generations_append, hgenerations, append_nil]
    exact h.returned

theorem Told.rejoined (h : Told c changes id record) (hjoin : join id = id) :
    Told c changes id record.rejoined := by
  refine ⟨?_, h.fence, h.last, h.begun, h.returned, ?_, ?_, ?_, ?_⟩
  · show join record.instanceId = id
    rw [h.named, hjoin]
  · show (record.transitionOwner.map join).isSome = true → _
    rw [Option.isSome_map]
    exact h.owned
  · show join (join record.profileName) = join record.profileName
    rw [h.profile, h.profile]
  · show join (join record.profileFingerprint) = join record.profileFingerprint
    rw [h.fingerprint, h.fingerprint]
  · show record.state = .ready →
      EndedReady c changes id (join record.profileName) (join record.profileFingerprint)
    rw [h.profile, h.fingerprint]
    exact h.ready

/-- How a change moves the fence and the generation of the instance. -/
structure Follows (record next : InstanceRecord) (x : Change) (id : PyStr) : Prop where
  fence : begins [x] id = [] ∧ next.transitionFence = record.transitionFence ∨
    begins [x] id = [next.transitionFence] ∧
      next.transitionFence = record.transitionFence + 1
  generation : record.processGeneration ≤ next.processGeneration
  returned : ∀ generation ∈ generations [x] id, generation = next.processGeneration

/-- A record after a change of its instance. -/
theorem Told.next (h : Told c changes id record) {next : InstanceRecord}
    (hfollows : Follows record next x id) (hnamed : next.instanceId = id)
    (howned : next.transitionOwner.isSome = true →
      record.transitionOwner.isSome = true ∨ begins [x] id ≠ [])
    (hname : join next.profileName = next.profileName)
    (hfingerprint : join next.profileFingerprint = next.profileFingerprint)
    (hready : next.state = .ready →
      EndedReady c (changes ++ [x]) id next.profileName next.profileFingerprint) :
    Told c (changes ++ [x]) id next := by
  have hle : record.transitionFence ≤ next.transitionFence := by
    rcases hfollows.fence with ⟨-, heq⟩ | ⟨-, heq⟩ <;> omega
  refine ⟨hnamed, h.fence.trans hle, ?_, fun fence hmem => ?_, fun generation hmem => ?_,
    fun hsome => ?_, hname, hfingerprint, hready⟩
  · rw [begins_append]
    rcases hfollows.fence with ⟨hnone, heq⟩ | ⟨hone, -⟩
    · rw [hnone, append_nil, heq]
      exact h.last
    · rw [hone, List.getLast?_append]
      rfl
  · rw [begins_append] at hmem
    rcases mem_append.mp hmem with hmem | hmem
    · exact (h.begun fence hmem).trans hle
    rcases hfollows.fence with ⟨hnone, -⟩ | ⟨hone, -⟩
    · rw [hnone] at hmem
      exact absurd hmem not_mem_nil
    · rw [hone] at hmem
      exact (mem_singleton.mp hmem).le
  · rw [generations_append] at hmem
    rcases mem_append.mp hmem with hmem | hmem
    · exact (h.returned generation hmem).trans hfollows.generation
    · exact (hfollows.returned generation hmem).le
  · rcases howned hsome with howned | hbegun
    · exact (h.owned howned).trans_le hle
    have hfence := h.fence
    rcases hfollows.fence with ⟨hnone, -⟩ | ⟨-, heq⟩
    · exact absurd hnone hbegun
    · omega

/-- The records after a change of one instance. -/
theorem Tells.set (h : Tells c records changes) {next : InstanceRecord}
    (hjoin : join id = id) (hcurrent : Told c changes id record)
    (hfollows : Follows record next x id) (hnext : Told c (changes ++ [x]) id next)
    (hother : ∀ other, other ≠ id → begins [x] other = [] ∧ generations [x] other = []) :
    Tells c (records.set id next) (changes ++ [x]) := by
  have hkeyed := h.keyed.set next (by rw [hnext.named, hjoin]) hnext.fence
  rw [hnext.named] at hkeyed
  refine ⟨hkeyed.nodup, hkeyed.joined, fun other stored hstored => ?_, fun other hmissing => ?_,
    fun other => ?_, fun other => ?_⟩
  · rw [PyDict.get?_set] at hstored
    by_cases hid : other = id
    · subst hid
      rw [if_pos rfl] at hstored
      exact Option.some.inj hstored ▸ hnext
    · rw [if_neg hid] at hstored
      obtain ⟨hbegins, hgenerations⟩ := hother other hid
      exact (h.told other stored hstored).frame hbegins hgenerations
  · rw [PyDict.get?_set] at hmissing
    by_cases hid : other = id
    · rw [if_pos hid] at hmissing
      cases hmissing
    rw [if_neg hid] at hmissing
    obtain ⟨hbegins, hgenerations⟩ := hother other hid
    rw [begins_append, generations_append, hbegins, hgenerations, append_nil,
      append_nil]
    exact h.untold other hmissing
  · rw [begins_append]
    by_cases hid : other = id
    · subst hid
      rcases hfollows.fence with ⟨hnone, -⟩ | ⟨hone, heq⟩
      · rw [hnone, append_nil]
        exact h.begun other
      rw [hone, pairwise_append]
      refine ⟨h.begun other, pairwise_singleton _ _, fun fence hmem _ hlast => ?_⟩
      rw [mem_singleton.mp hlast, heq]
      exact Int.lt_add_one_iff.mpr (hcurrent.begun fence hmem)
    · rw [(hother other hid).1, append_nil]
      exact h.begun other
  · rw [generations_append]
    by_cases hid : other = id
    · subst hid
      rw [pairwise_append]
      refine ⟨h.returned other, pairwise_of_forall_mem_list fun a ha b hb => ?_,
        fun generation hmem last hlast => ?_⟩
      · rw [hfollows.returned a ha, hfollows.returned b hb]
      · rw [hfollows.returned last hlast]
        exact (hcurrent.returned generation hmem).trans hfollows.generation
    · rw [(hother other hid).2, append_nil]
      exact h.returned other

/-! ## The calls -/

/-- A record is about the instance of the call that wrote it. -/
theorem written_instanceId (call : StateCall) (current : InstanceRecord) :
    (call.written c current).instanceId = current.instanceId := by
  cases call <;> rfl

/-- How an admitted call moves the fence and the generation. -/
theorem follows_written (call : StateCall) {current : InstanceRecord}
    (hnamed : current.instanceId = call.instanceId) :
    Follows current (call.written c current) (call, call.returned (call.written c current))
      call.instanceId := by
  cases call with
  | register instanceId profileName profile now | failTransition lease error now =>
    refine ⟨Or.inl ⟨rfl, rfl⟩, le_refl current.processGeneration, ?_⟩
    simp [generations, StateCall.returned]
  | beginTransition instanceId profileName profile owner desiredState ttlSeconds now =>
    refine ⟨Or.inr ⟨?_, rfl⟩, le_refl current.processGeneration, ?_⟩
    · simp [begins, StateCall.returned, InstanceRecord.lease, StateCall.instanceId]
    · simp [generations, StateCall.returned]
  | renew lease ttlSeconds now =>
    exact ⟨Or.inl ⟨rfl, rfl⟩, le_refl current.processGeneration,
      fun _ h => absurd h not_mem_nil⟩
  | publishObservation lease profile observation now =>
    refine ⟨Or.inl ⟨rfl, rfl⟩, le_max_left _ _, ?_⟩
    simp [generations, StateCall.returned]

/-- A call says nothing about another instance. -/
theorem frame_written (call : StateCall) {current : InstanceRecord}
    (hnamed : current.instanceId = call.instanceId) {other : PyStr}
    (hother : other ≠ call.instanceId) :
    begins [(call, call.returned (call.written c current))] other = [] ∧
      generations [(call, call.returned (call.written c current))] other = [] := by
  have hrecord : (call.written c current).instanceId ≠ other := by
    rw [written_instanceId, hnamed]
    exact hother.symm
  cases call with
  | register instanceId profileName profile now | failTransition lease error now
  | publishObservation lease profile observation now =>
    exact ⟨rfl, by simp [generations, returned, hrecord]⟩
  | beginTransition instanceId profileName profile owner desiredState ttlSeconds now =>
    refine ⟨?_, by simp [generations, returned, hrecord]⟩
    have hlease : instanceId ≠ other := hother.symm
    simp [begins, returned, InstanceRecord.lease, hlease]
  | renew lease ttlSeconds now => exact ⟨rfl, rfl⟩

theorem join_fingerprint (profile : Json ℚ) :
    join ((c.fingerprint profile).getD []) = (c.fingerprint profile).getD [] := by
  unfold Contracts.fingerprint
  cases c.digest profile with
  | none => rfl
  | some digest => exact join_hexdigest digest

variable {profile : Json ℚ} {now : ℚ}

/-- The name of a profile that passes its checks. -/
theorem join_profileName
    (h : c.profileErrors profileName profile = []) : join profileName = profileName := by
  refine join_of_isId ?_
  unfold Contracts.profileErrors at h
  by_cases hid : isId profileName = true
  · exact hid
  · rw [if_neg hid] at h
    cases h

/-- The call gives its instance a record whose id a file gives back. -/
def StateCall.Storable (call : StateCall) : Prop := (StateEvent.change call).Storable

/-- What an admitted call starts from is what is told. -/
theorem Tells.current (h : Tells c records changes)
    (hadmitted : call.Admitted c records) {current : InstanceRecord}
    (hcurrent : call.current c records = some current) : Told c changes call.instanceId current := by
  cases hstored : records.get? call.instanceId with
  | some stored =>
    have hsame := (current_eq call hstored (c := c)).symm.trans hcurrent
    exact Option.some.inj hsame ▸ h.told _ _ hstored
  | none =>
    have hnone := h.untold _ hstored
    cases call with
    | register instanceId profileName profile now
    | beginTransition instanceId profileName profile owner desiredState ttlSeconds now =>
      obtain rfl := Option.some.inj hcurrent
      have hget : records.get? instanceId = none := hstored
      rw [hget]
      exact Told.new hnone (join_profileName hadmitted.1) (join_fingerprint profile) now
    | renew lease ttlSeconds now | failTransition lease error now
    | publishObservation lease profile observation now =>
      exact absurd (hstored.symm.trans hcurrent) (by simp)

/-- The ids of the records are ids that a file gives back. -/
theorem Tells.storable (h : Tells c records changes)
    (hstorable : call.Storable) {current : InstanceRecord}
    (hcurrent : call.current c records = some current) : join call.instanceId = call.instanceId := by
  have hstored : ∀ id, records.get? id = some current → join id = id :=
    fun id hget => h.joined (id, current) (PyDict.mem_of_get? hget)
  cases call with
  | register instanceId profileName profile now
  | beginTransition instanceId profileName profile owner desiredState ttlSeconds now =>
    exact hstorable
  | renew lease ttlSeconds now | failTransition lease error now
  | publishObservation lease profile observation now =>
    exact hstored _ hcurrent

/-- The record that an admitted call writes says what it should. -/
theorem Told.written (call : StateCall) (hadmitted : call.Admitted c records)
    {current : InstanceRecord} (hcurrent : call.current c records = some current)
    (h : Told c changes call.instanceId current) :
    Told c (changes ++ [(call, call.returned (call.written c current))]) call.instanceId
      (call.written c current) := by
  have hnamed : (call.written c current).instanceId = call.instanceId := by
    rw [written_instanceId, h.named]
  have hfollows := follows_written (c := c) call h.named
  cases call with
  | register instanceId profileName profile now =>
    refine h.next hfollows hnamed (fun hsome => Or.inl hsome) (join_profileName hadmitted.1)
      (join_fingerprint profile) fun hready => ?_
    -- A record stays ready only under the profile that it was ready for.
    have hstate : (if current.SameProfile profileName ((c.fingerprint profile).getD []) then
        current.state else .unknown) = ControlState.ready := hready
    split at hstate
    · rename_i hsame
      have hnone : begins [(StateCall.register instanceId profileName profile now,
          StateCall.returned (current.registered profileName ((c.fingerprint profile).getD []) now)
            (.register instanceId profileName profile now))] instanceId = [] := rfl
      have hended := (h.ready hstate).append hnone
      rw [hsame.1, hsame.2] at hended
      exact hended
    · cases hstate
  | beginTransition instanceId profileName profile owner desiredState ttlSeconds now =>
    refine h.next hfollows hnamed (fun _ => Or.inr ?_) (join_profileName hadmitted.1)
      (join_fingerprint profile) fun hready => (by cases hready)
    simp [begins, StateCall.returned, InstanceRecord.lease, StateCall.instanceId]
  | renew lease ttlSeconds now =>
    exact h.next hfollows hnamed (fun hsome => Or.inl hsome) h.profile h.fingerprint
      fun hready => (h.ready hready).append rfl
  | failTransition lease error now =>
    exact h.next hfollows hnamed (fun hsome => absurd hsome Bool.false_ne_true) h.profile
      h.fingerprint fun hready => (by cases hready)
  | publishObservation lease profile observation now =>
    obtain ⟨-, stored, hstored, hpublishes⟩ := hadmitted
    have hcurrent : records.get? lease.instanceId = some current := hcurrent
    obtain rfl := Option.some.inj (hstored.symm.trans hcurrent)
    have howner : stored.transitionOwner.isSome = true := by
      rw [hpublishes.owned.owner]
      rfl
    refine h.next hfollows hnamed (fun _ => Or.inl howner) h.profile h.fingerprint
      fun hready => ⟨changes, lease, profile, observation, now, _, [], rfl, rfl, ?_, rfl, hready,
        hpublishes.name, hpublishes.fingerprint⟩
    have hlast : (begins changes lease.instanceId).getLast?.getD 0 = stored.transitionFence :=
      h.last
    have hfence := h.owned howner
    show (begins changes lease.instanceId).getLast? = some lease.fence
    rw [← hpublishes.owned.fence]
    cases hbegins : (begins changes lease.instanceId).getLast? with
    | none =>
      rw [hbegins, Option.getD_none] at hlast
      exact absurd hlast hfence.ne
    | some fence =>
      rw [hbegins, Option.getD_some] at hlast
      rw [hlast]

/-- **A call keeps what the records tell.** -/
theorem Tells.change (h : Tells c records changes) (hstorable : call.Storable)
    {answer : Returned} {next : Records}
    (hchange : Runtime.change c call records = .ok (answer, next)) :
    Tells c next (changes ++ [(call, answer)]) := by
  obtain ⟨hadmitted, current, hcurrent, rfl, rfl⟩ := change_ok hchange
  have htold := h.current hadmitted hcurrent
  exact h.set (h.storable hstorable hcurrent) htold (follows_written call htold.named)
    (htold.written call hadmitted hcurrent) fun other hother => frame_written call htold.named hother

/-! ## Runs -/

/-- The memory tells of what is kept, and the file of what is durable. -/
structure Sound (c : Contracts) (p : Process) : Prop where
  memory : Tells c p.memory p.kept
  file : ∃ records, Tells c records p.durable ∧
    (p.file = none ∧ records = [] ∨ p.file = some (stateDocument records))

theorem tells_nil : Tells c [] [] :=
  ⟨nodup_nil, fun _ h => absurd h not_mem_nil, fun _ _ h => (by cases h),
    fun _ _ => ⟨rfl, rfl⟩, fun _ => Pairwise.nil, fun _ => Pairwise.nil⟩

theorem sound_init : Sound c {} := ⟨tells_nil, [], tells_nil, Or.inl ⟨rfl, rfl⟩⟩

/-- A store that is opened on its file has the records of the file. -/
theorem Tells.reopened (h : Tells c records changes) {file : Option (Json ℚ)}
    (hfile : file = none ∧ records = [] ∨ file = some (stateDocument records))
    {memory : Records} (hload : load file = some memory) : Tells c memory changes := by
  rcases hfile with ⟨rfl, rfl⟩ | rfl
  · exact Option.some.inj hload ▸ h
  obtain ⟨value, hvalue, hread⟩ := Option.bind_eq_some_iff.mp hload
  obtain ⟨read, hread', hkeyed, hget⟩ := readDocument_stateDocument h.keyed hvalue
  obtain rfl := Option.some.inj (hread'.symm.trans hread)
  refine ⟨hkeyed.nodup, hkeyed.joined, fun id record hrecord => ?_, fun id hmissing => ?_,
    h.begun, h.returned⟩
  · rw [hget] at hrecord
    obtain ⟨stored, hstored, rfl⟩ := Option.map_eq_some_iff.mp hrecord
    exact (h.told id stored hstored).rejoined (h.joined (id, stored) (PyDict.mem_of_get? hstored))
  · rw [hget, Option.map_eq_none_iff] at hmissing
    exact h.untold id hmissing

/-- **One event** keeps the memory and the file those that the changes tell of. -/
theorem Sound.step {p p' : Process} (h : Sound c p) {event : StateEvent}
    (hstorable : event.Storable) (hstep : step c event p = some p') : Sound c p' := by
  cases event with
  | change call =>
    unfold Runtime.step at hstep
    simp only at hstep
    cases hchange : Runtime.change c call p.memory with
    | error e =>
      rw [hchange] at hstep
      exact Option.some.inj hstep ▸ h
    | ok result =>
      obtain ⟨answer, memory⟩ := result
      rw [hchange] at hstep
      obtain rfl := Option.some.inj hstep
      refine ⟨?_, ?_⟩
      · show Tells c memory (changesWhere _ (p.entries ++ [⟨call, answer, .changed⟩]))
        rw [changesWhere_append]
        exact h.memory.change hstorable hchange
      · show ∃ records, Tells c records (changesWhere _ (p.entries ++ [⟨call, answer, .changed⟩]))
          ∧ _
        rw [changesWhere_append, show changesWhere (fun s => s ≠ .lost ∧ s ≠ .changed)
          [⟨call, answer, .changed⟩] = [] from rfl, append_nil]
        exact h.file
  | write i =>
    unfold Runtime.step at hstep
    simp only at hstep
    cases hentry : p.entries[i]? with
    | none =>
      rw [hentry] at hstep
      cases hstep
    | some e =>
      rw [hentry] at hstep
      simp only at hstep
      split at hstep
      · rename_i hstatus
        obtain ⟨_, -, rfl⟩ := Option.map_eq_some_iff.mp hstep
        have hnotLost : decide (e.status ≠ .lost) = true := by
          rcases hstatus with hs | hs <;> rw [hs] <;> rfl
        -- The write makes every change that is kept a durable one.
        have hkept : changesWhere (fun s => s ≠ .lost) (complete i p.entries) = p.kept := by
          refine changesWhere_complete (fun e => ?_) rfl hentry hnotLost
          show decide ((if e.status = .changed then Status.written else e.status) ≠ .lost) = _
          cases e.status <;> rfl
        have hdurable : changesWhere (fun s => s ≠ .lost ∧ s ≠ .changed)
            (complete i p.entries) = p.kept := by
          refine changesWhere_complete (fun e => ?_) rfl hentry hnotLost
          show decide ((if e.status = .changed then Status.written else e.status) ≠ .lost ∧
            (if e.status = .changed then Status.written else e.status) ≠ .changed) = _
          cases e.status <;> rfl
        refine ⟨?_, p.memory, ?_, Or.inr rfl⟩
        · show Tells c p.memory (changesWhere _ (complete i p.entries))
          rw [hkept]
          exact h.memory
        · show Tells c p.memory (changesWhere _ (complete i p.entries))
          rw [hdurable]
          exact h.memory
      · cases hstep
  | restart =>
    obtain ⟨memory, hload, rfl⟩ := Option.map_eq_some_iff.mp hstep
    obtain ⟨records, htells, hfile⟩ := h.file
    have hkept : changesWhere (fun s => s ≠ .lost) (p.entries.map Entry.restarted) =
        p.durable := by
      refine changesWhere_map restarted_same (fun e => ?_) _
      obtain ⟨_, _, status⟩ := e
      cases status <;> rfl
    have hdurable : changesWhere (fun s => s ≠ .lost ∧ s ≠ .changed)
        (p.entries.map Entry.restarted) = p.durable := by
      refine changesWhere_map restarted_same (fun e => ?_) _
      obtain ⟨_, _, status⟩ := e
      cases status <;> rfl
    refine ⟨?_, records, ?_, hfile⟩
    · show Tells c memory (changesWhere _ (p.entries.map Entry.restarted))
      rw [hkept]
      exact htells.reopened hfile hload
    · show Tells c records (changesWhere _ (p.entries.map Entry.restarted))
      rw [hdurable]
      exact htells

theorem Sound.run {events : List StateEvent} {p p' : Process} (h : Sound c p)
    (hstorable : ∀ event ∈ events, event.Storable) (hrun : run c events p = some p') :
    Sound c p' := by
  induction events generalizing p with
  | nil => exact Option.some.inj hrun ▸ h
  | cons event events ih =>
    rw [forall_mem_cons] at hstorable
    obtain ⟨next, hstep, hrest⟩ := Option.bind_eq_some_iff.mp hrun
    exact ih (h.step hstorable.1 hstep) hstorable.2 hrest

theorem completed_sublist (p : Process) : p.completed.Sublist p.kept :=
  changesWhere_sublist (fun status hcompleted => by
    rw [decide_eq_true_iff] at hcompleted ⊢
    rw [hcompleted]
    decide) p.entries

/-- A call that presents a lease is admitted for the live owner of its fence only. -/
theorem owned_of_admitted {lease : TransitionLease}
    (hpresents : call.presents = some (lease, now)) (hadmitted : call.Admitted c records) :
    ∃ record, records.get? lease.instanceId = some record ∧ Owned record lease now := by
  cases call with
  | register instanceId profileName profile now
  | beginTransition instanceId profileName profile owner desiredState ttlSeconds now =>
    cases hpresents
  | renew lease ttlSeconds now | failTransition lease error now =>
    obtain ⟨record, hrecord, -, howned⟩ := hadmitted
    cases hpresents
    exact ⟨record, hrecord, howned⟩
  | publishObservation lease profile observation now =>
    obtain ⟨-, record, hrecord, hpublishes⟩ := hadmitted
    cases hpresents
    exact ⟨record, hrecord, hpublishes.owned⟩

/-- What `admission_errors` has found when it returns nothing. -/
theorem ready_of_admissionErrors {instanceId : PyStr}
    (h : admissionErrors c instanceId profileName profile now records = some []) :
    ∃ record, records.get? instanceId = some record ∧ record.state = .ready ∧
      record.profileName = profileName ∧ c.fingerprint profile = some record.profileFingerprint := by
  unfold admissionErrors at h
  cases hrecord : records.get? instanceId with
  | none =>
    rw [hrecord] at h
    cases h
  | some record =>
    rw [hrecord] at h
    simp only [Option.bind_eq_bind, Option.bind_eq_some_iff] at h
    obtain ⟨fingerprint, hfingerprint, h⟩ := h
    have herrors := Option.some.inj h
    simp only [append_eq_nil_iff] at herrors
    obtain ⟨⟨⟨⟨⟨⟨⟨⟨⟨-, hname⟩, hprint⟩, hstate⟩, -⟩, -⟩, -⟩, -⟩, -⟩, -⟩ := herrors
    refine ⟨record, rfl, by_contra fun hne => ?_, by_contra fun hne => ?_, ?_⟩
    · simp [hne] at hstate
    · simp [hne] at hname
    · rw [hfingerprint]
      exact congrArg some (by_contra fun hne => by simp [Ne.symm hne] at hprint)

theorem Sound.fenceSafe {p : Process} (h : Sound c p) : FenceSafe c p := by
  refine ⟨fun id => ?_, fun call lease now hpresents hstale => ?_, fun id => ?_,
    fun id profileName profile now hadmission => ?_⟩
  · exact (h.memory.begun id).sublist ((completed_sublist p).filterMap _)
  · have hnot : ¬ call.Admitted c p.memory := by
      intro hadmitted
      obtain ⟨record, hrecord, howned⟩ := owned_of_admitted hpresents hadmitted
      rcases hstale with ⟨fence, hmem, hlt⟩ | hexpired
      · have hle := (h.memory.told _ record hrecord).begun fence hmem
        rw [howned.fence] at hle
        exact absurd hlt (not_lt.mpr hle)
      · exact absurd howned.live (not_lt.mpr (hexpired record hrecord))
    rcases change_decides c call p.memory with ⟨hadmitted, -⟩ | ⟨-, e, herror⟩
    · exact absurd hadmitted hnot
    refine ⟨⟨e, herror⟩, ?_⟩
    unfold Runtime.step
    simp only [herror]
  · exact (h.memory.returned id).sublist ((completed_sublist p).filterMap _)
  · obtain ⟨record, hrecord, hready, hname, hprint⟩ := ready_of_admissionErrors hadmission
    have hended := (h.memory.told id record hrecord).ready hready
    rw [hname] at hended
    exact ⟨_, hprint, hended⟩

/-- **Fence safety**: in a run whose instance ids a file gives back, fences and generations only
grow, a lease that is expired or superseded changes nothing, and an instance is admitted only for
the profile that its last transition ended ready for. -/
theorem fence_safe (c : Contracts) (events : List StateEvent) (p : Process)
    (hrun : run c events {} = some p) (hstorable : ∀ event ∈ events, event.Storable) :
    FenceSafe c p :=
  (sound_init.run hstorable hrun).fenceSafe

/-- A transition of an instance. -/
def firstOf (instanceId : PyStr) (now : ℚ) : StateCall :=
  .beginTransition instanceId (text "p") (.obj []) (text "a") (text "ready") 60 now

/-- A transition, a restart, and a transition when the lease of the first has expired. -/
def twiceBegun (instanceId : PyStr) : List StateEvent :=
  [.change (firstOf instanceId 0), .write 0, .restart, .change (firstOf instanceId 100), .write 1]

/-- The fence goes on after the restart. -/
theorem fence_safe_twiceBegun :
    ∃ p, run lenient (twiceBegun (text "gpu")) {} = some p ∧
      begins p.completed (text "gpu") = [1, 2] ∧ FenceSafe lenient p := by
  have hruns : (run lenient (twiceBegun (text "gpu")) {}).map
      (fun p => begins p.completed (text "gpu")) = some [1, 2] := by decide +kernel
  obtain ⟨p, hrun, hbegins⟩ := Option.map_eq_some_iff.mp hruns
  exact ⟨p, hrun, hbegins, fence_safe lenient _ p hrun (by decide +kernel)⟩

def pairId : PyStr := [⟨0xD83D, by decide⟩, ⟨0xDE00, by decide⟩]

/-- Its first fence is begun a second time after the restart. -/
theorem pairRun_not_fenceSafe :
    ∃ p, run lenient (twiceBegun pairId) {} = some p ∧ ¬ FenceSafe lenient p := by
  have hruns : (run lenient (twiceBegun pairId) {}).map
      (fun p => begins p.completed pairId) = some [1, 1] := by decide +kernel
  obtain ⟨p, hrun, hbegins⟩ := Option.map_eq_some_iff.mp hruns
  refine ⟨p, hrun, fun hsafe => ?_⟩
  have hfences := hsafe.fences pairId
  rw [hbegins] at hfences
  exact absurd hfences (by decide)

end GpuManager.Runtime
