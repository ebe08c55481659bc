import GpuManager.Broker.Clients
import GpuManager.Broker.MemberOracle
import GpuManager.Broker.MirrorCoherence

/-!
# A drain comes to its end

A member that drains finishes the work it has: every lease is released by the dispatcher
that holds it, in any order, nothing new is reserved on the member meanwhile, and when the
last lease is gone the drain is completed and the member is offline.

In Redis the dispatcher's release asks for the lease alone, whatever the version that the
claim was made under.  But each release raises the version, and so does the beginning of the
drain: once the record and the text of the version come apart, or the record can no longer
be read, the drain cannot be completed.

In memory the release of a draining member asks for the claim's version to be the member's
own.  `begin_member_drain` has just raised it, so a drain with a lease from before cannot be
finished; and a reservation is checked against the snapshot that its caller brings, so a
caller with an old one can still reserve a draining member.

Both conditions are exact.
-/

namespace GpuManager.Broker

open Machine MemoryStore Function Option

/-- What happens between the beginning and the completion of a drain: the dispatcher releases
an attempt with the version it claimed, or a reservation is tried with the arguments that the
repository looks at. -/
inductive DrainStep (R : Type) where
  | release (attemptId : String) (claimedMemberStateVersion : ℤ)
  | reserve (call : R)

/-- What is observed of a step: whether a release was accepted, or the member that was
reserved, if any. -/
inductive DrainReply where
  | released (accepted : Bool)
  | reserved (member : Option String)
  deriving DecidableEq

variable {R : Type}

/-- The attempts that a sequence of steps releases, in order. -/
def releases (steps : List (DrainStep R)) : List String :=
  steps.filterMap fun
    | .release attemptId _ => some attemptId
    | .reserve _ => none

/-- The steps release each of the leases once, in any order, and nothing else. -/
def ReleasesAll (steps : List (DrainStep R)) (leases : Finset String) : Prop :=
  (releases steps).Nodup ∧ ∀ a, a ∈ leases ↔ a ∈ releases steps

/-- A release that was accepted, or a reservation that did not get the member. -/
def DrainReply.Fine (name : String) : DrainReply → Prop
  | .released accepted => accepted = true
  | .reserved member => member ≠ some name

namespace DrainStep

def reservedInRedis (r : Except BrokerError (Option StoredMember)) : Option String :=
  match r with
  | .ok (some member) => some member.rest.name
  | _ => none

def reservedInMemory (r : Except BrokerError (Option (JobRecord × MemberSnapshot))) :
    Option String :=
  match r with
  | .ok (some (job, _)) => job.selectedMember
  | _ => none

variable (name : String)

/-- A step in Redis. -/
def inRedis : DrainStep (List MirrorStore.MirrorCandidate) → MirrorStore → DrainReply × MirrorStore
  | .release attemptId claimed, s =>
    let r := s.releaseMemberLease name attemptId claimed false
    (.released (accepted r.1), r.2)
  | .reserve candidates, s =>
    let r := MirrorStore.reserveNext candidates false s
    (.reserved (reservedInRedis r.1), r.2)

/-- A step in memory. -/
def inMemory (agingSeconds : ℚ) : DrainStep ReserveCall → MemoryStore → DrainReply × MemoryStore
  | .release attemptId claimed, s =>
    let r := releaseMemberLease name attemptId claimed s
    (.released (accepted r.1), r.2)
  | .reserve call, s =>
    let r := call.inMemory agingSeconds s
    (.reserved (reservedInMemory r.1), r.2)

end DrainStep

/-- The drain of a member in Redis: once it has begun, and if the steps release its leases,
every step is fine and the completion at the member's version leaves it offline. -/
def RedisDrains (s : MirrorStore) (name : String) (v : ℤ)
    (steps : List (DrainStep (List MirrorStore.MirrorCandidate))) : Prop :=
  let begun := s.beginMemberDrain name v
  accepted begun.1 = true → ReleasesAll steps (s.leases name) →
    (∀ x ∈ visits (DrainStep.inRedis name) begun.2 steps, (x.op.inRedis name x.before).1.Fine name) ∧
    ∃ m, (final (DrainStep.inRedis name) begun.2 steps).getMember name = .ok (some m) ∧
      let completed := (final (DrainStep.inRedis name) begun.2 steps).completeMemberDrain name
        m.stateVersion.value
      accepted completed.1 = true ∧
        (completed.2.members name).map MirrorHash.state = some .offline

/-- The drain of a member in memory. -/
def MemoryDrains (agingSeconds : ℚ) (s : MemoryStore) (name : String) (v : ℤ)
    (steps : List (DrainStep ReserveCall)) : Prop :=
  let begun := beginMemberDrain name v s
  accepted begun.1 = true → ReleasesAll steps (s.leases name) →
    (∀ x ∈ visits (DrainStep.inMemory name agingSeconds) begun.2 steps,
      (x.op.inMemory name agingSeconds x.before).1.Fine name) ∧
    ∃ m, (final (DrainStep.inMemory name agingSeconds) begun.2 steps).members name = some m ∧
      let completed := completeMemberDrain name m.stateVersion
        (final (DrainStep.inMemory name agingSeconds) begun.2 steps)
      accepted completed.1 = true ∧
        (completed.2.members name).map MemberSnapshot.state = some .offline

variable {steps : List (DrainStep R)} {leases : Finset String} {attemptId : String}

/-- The first release of a sequence takes one of the leases, and the rest of the sequence
releases the others. -/
theorem ReleasesAll.of_release {claimed : ℤ}
    (h : ReleasesAll (.release attemptId claimed :: steps) leases) :
    attemptId ∈ leases ∧ ReleasesAll steps (leases.erase attemptId) := by
  obtain ⟨hnodup, hmem⟩ := h
  change (attemptId :: releases steps).Nodup at hnodup
  change ∀ a, a ∈ leases ↔ a ∈ attemptId :: releases steps at hmem
  rw [List.nodup_cons] at hnodup
  refine ⟨(hmem attemptId).mpr List.mem_cons_self, hnodup.2, fun a => ?_⟩
  rw [Finset.mem_erase, hmem a, List.mem_cons]
  constructor
  · rintro ⟨hne, rfl | ha⟩
    · exact absurd rfl hne
    · exact ha
  · intro ha
    refine ⟨?_, Or.inr ha⟩
    rintro rfl
    exact hnodup.1 ha

theorem ReleasesAll.of_reserve {call : R}
    (h : ReleasesAll (.reserve call :: steps) leases) :
    ReleasesAll steps leases := h

theorem ReleasesAll.eq_empty (h : ReleasesAll ([] : List (DrainStep R)) leases) : leases = ∅ :=
  Finset.eq_empty_of_forall_notMem fun a ha => by simpa [releases] using (h.2 a).mp ha

/-- **The steps of a drain.**  If a step that finds the member draining is fine exactly when it
fits, and a fine one keeps it draining and takes the released lease alone, then all steps are fine
exactly when all fit, and the member drains without a lease at the end. -/
theorem drainSteps_iff {S : Type} (f : DrainStep R → S → DrainReply × S) (Drains : S → Prop)
    (leasesOf : S → Finset String) (Fits : DrainStep R → S → Prop) (name : String)
    (hrelease : ∀ s a claimed, Drains s → a ∈ leasesOf s →
      ((f (.release a claimed) s).1.Fine name ↔ Fits (.release a claimed) s) ∧
      ((f (.release a claimed) s).1.Fine name → Drains (f (.release a claimed) s).2 ∧
        leasesOf (f (.release a claimed) s).2 = (leasesOf s).erase a))
    (hreserve : ∀ s call, Drains s →
      ((f (.reserve call) s).1.Fine name ↔ Fits (.reserve call) s) ∧
      ((f (.reserve call) s).1.Fine name → Drains (f (.reserve call) s).2 ∧
        leasesOf (f (.reserve call) s).2 = leasesOf s))
    {s : S} (hs : Drains s) (hall : ReleasesAll steps (leasesOf s)) :
    ((∀ x ∈ visits f s steps, (f x.op x.before).1.Fine name) ↔
      ∀ x ∈ visits f s steps, Fits x.op x.before) ∧
    ((∀ x ∈ visits f s steps, (f x.op x.before).1.Fine name) →
      Drains (final f s steps) ∧ leasesOf (final f s steps) = ∅) := by
  induction steps generalizing s with
  | nil => exact ⟨by simp [visits], fun _ => ⟨hs, hall.eq_empty⟩⟩
  | cons step steps ih =>
    simp only [visits, final, List.forall_mem_cons]
    -- A fine step keeps the member draining; the rest releases what is left.
    have hstep : ((f step s).1.Fine name ↔ Fits step s) ∧
        ((f step s).1.Fine name →
          Drains (f step s).2 ∧ ReleasesAll steps (leasesOf (f step s).2)) := by
      cases step with
      | release a claimed =>
        obtain ⟨hmem, hrest⟩ := hall.of_release
        obtain ⟨hiff, hkeep⟩ := hrelease s a claimed hs hmem
        refine ⟨hiff, fun hfine => ?_⟩
        obtain ⟨hdrains, hleases⟩ := hkeep hfine
        exact ⟨hdrains, hleases ▸ hrest⟩
      | reserve call =>
        obtain ⟨hiff, hkeep⟩ := hreserve s call hs
        refine ⟨hiff, fun hfine => ?_⟩
        obtain ⟨hdrains, hleases⟩ := hkeep hfine
        exact ⟨hdrains, hleases ▸ hall.of_reserve⟩
    obtain ⟨hiff, hkeep⟩ := hstep
    constructor
    · rw [hiff]
      refine and_congr_right fun hfits => ?_
      obtain ⟨hdrains, hrest⟩ := hkeep (hiff.mpr hfits)
      exact (ih hdrains hrest).1
    · rintro ⟨hfine, hfines⟩
      obtain ⟨hdrains, hrest⟩ := hkeep hfine
      exact (ih hdrains hrest).2 hfines

/-! ## In Redis -/

section Redis

variable {s : MirrorStore} {name : String} {h : MirrorHash}

/-- Every hash is under the name of its record, which shows its state. -/
def MirrorStore.Shown (s : MirrorStore) : Prop :=
  ∀ name h, s.members name = some h → h.Presents name h.state

/-- The member drains. -/
def MirrorStore.Drains (s : MirrorStore) (name : String) : Prop :=
  ∃ h, s.members name = some h ∧ h.Presents name .draining

/-- A step that fits a drain in Redis: the record can be read, the next version is one more in
doubles, and what the script writes can be encoded. -/
def DrainStep.FitsRedis (name : String) :
    DrainStep (List MirrorStore.MirrorCandidate) → MirrorStore → Prop
  | .release attemptId _, s => ∀ h, s.members name = some h →
      h.Releases ((s.leases name).erase attemptId).card
  | .reserve _, _ => True

/-- The condition on a drain in Redis: its steps fit, and at the end the record can be read,
shows the version that the text shows, and can be written once more. -/
def RedisFits (s : MirrorStore) (name : String) (v : ℤ)
    (steps : List (DrainStep (List MirrorStore.MirrorCandidate))) : Prop :=
  let begun := s.beginMemberDrain name v
  accepted begun.1 = true → ReleasesAll steps (s.leases name) →
    (∀ x ∈ visits (DrainStep.inRedis name) begun.2 steps, x.op.FitsRedis name x.before) ∧
    ∀ h, (final (DrainStep.inRedis name) begun.2 steps).members name = some h →
      h.record.wellFenced = true ∧ h.Writes h.record.offline

namespace MirrorStore

/-- What a step of a reservation leaves of the member: its hash and its leases are as before, and
it is not the one that was claimed. -/
structure Spares (name : String) (s t : MirrorStore) (claimed : StoredMember → Prop) : Prop where
  member : t.members name = s.members name
  leases : t.leases name = s.leases name
  other : ∀ member, claimed member → member.rest.name ≠ name

theorem Spares.refl {claimed : StoredMember → Prop} (h : ∀ member, ¬ claimed member) :
    Spares name s s claimed :=
  ⟨rfl, rfl, fun member hmember => absurd hmember (h member)⟩

theorem reserveCommit_spares (c : MirrorCandidate) (h : MirrorHash) (free : ℤ)
    (hne : c.member.rest.name ≠ name) :
    Spares name s (reserveCommit c h free s).2
      fun member => (reserveCommit c h free s).1 = .claimed member := by
  unfold reserveCommit
  dsimp only
  split
  · exact ⟨rfl, update_of_ne hne.symm .., fun member hmember => Turn.noConfusion hmember⟩
  · refine ⟨update_of_ne hne.symm .., update_of_ne hne.symm .., fun member hmember => ?_⟩
    obtain rfl := Turn.claimed.inj hmember
    exact hne

/-- A turn of a reservation leaves a draining member alone. -/
theorem reserveTurn_spares (c : MirrorCandidate) (hs : s.Drains name) :
    Spares name s (reserveTurn c s).2 fun member => (reserveTurn c s).1 = .claimed member := by
  unfold reserveTurn
  dsimp only
  cases hh : s.members c.member.rest.name with
  | none => exact .refl fun _ => nofun
  | some h =>
    dsimp only
    split
    · exact .refl fun _ => nofun
    split
    · exact .refl fun _ => nofun
    rename_i hready
    have hne : c.member.rest.name ≠ name := by
      rintro rfl
      obtain ⟨h', hh', hM⟩ := hs
      obtain rfl := some.inj (hh.symm.trans hh')
      exact hready (Or.inl (by simp [hM.state]))
    split
    · exact .refl fun _ => nofun
    split
    · exact .refl fun _ => nofun
    split
    · exact .refl fun _ => nofun
    · exact reserveCommit_spares c h _ hne

theorem Spares.drains {t : MirrorStore} {claimed : StoredMember → Prop}
    (h : Spares name s t claimed) (hs : s.Drains name) : t.Drains name := by
  obtain ⟨m, hm, hM⟩ := hs
  exact ⟨m, h.member.trans hm, hM⟩

/-- **A reservation** leaves a draining member alone. -/
theorem reserveNext_spares (candidates : List MirrorCandidate) (staleSeen : Bool)
    (hs : s.Drains name) :
    Spares name s (reserveNext candidates staleSeen s).2
      fun member => (reserveNext candidates staleSeen s).1 = .ok (some member) := by
  induction candidates generalizing staleSeen s with
  | nil =>
    unfold reserveNext
    split <;> exact .refl fun _ hclaimed => by cases hclaimed
  | cons c rest ih =>
    have hturn := reserveTurn_spares c hs
    rcases heq : reserveTurn c s with ⟨turn, s'⟩
    rw [heq] at hturn
    cases turn with
    | claimed member =>
      simp only [reserveNext, heq]
      refine ⟨hturn.member, hturn.leases, fun other hother => hturn.other other ?_⟩
      exact congrArg Turn.claimed (some.inj (Except.ok.inj hother))
    | unavailable =>
      simp only [reserveNext, heq]
      have hrest := ih true (hturn.drains hs)
      exact ⟨hrest.member.trans hturn.member, hrest.leases.trans hturn.leases, hrest.other⟩
    | ended result =>
      simp only [reserveNext, heq]
      refine ⟨hturn.member, hturn.leases, fun other hother => ?_⟩
      cases result <;> cases hother

end MirrorStore

theorem MirrorStore.release_drains (attemptId : String) (claimed : ℤ) (hs : s.Drains name)
    (hmem : attemptId ∈ s.leases name) :
    (accepted (s.releaseMemberLease name attemptId claimed false).1 = true ↔
      (DrainStep.release attemptId claimed).FitsRedis name s) ∧
    (accepted (s.releaseMemberLease name attemptId claimed false).1 = true →
      (s.releaseMemberLease name attemptId claimed false).2.Drains name ∧
      (s.releaseMemberLease name attemptId claimed false).2.leases name =
        (s.leases name).erase attemptId) := by
  obtain ⟨h, hh, hM⟩ := hs
  have hfits : (DrainStep.release attemptId claimed).FitsRedis name s ↔
      h.Releases ((s.leases name).erase attemptId).card := by
    simp [DrainStep.FitsRedis, hh]
  rw [hfits]
  rcases MirrorStore.releaseMemberLease_decides hh hM.recordName attemptId claimed with
    ⟨⟨-, hreleases⟩, hacc, hafter⟩ | ⟨hnot, hrej, -⟩
  · refine ⟨iff_of_true hacc hreleases, fun _ => ?_⟩
    rw [hafter]
    exact ⟨⟨_, update_self .., hM.recordName, hM.recordState, hM.recordState⟩, update_self ..⟩
  · refine ⟨iff_of_false (by rw [hrej]; simp) fun hreleases => hnot ⟨hmem, hreleases⟩,
      fun hacc => ?_⟩
    rw [hrej] at hacc
    cases hacc

theorem reservedInRedis_ne (candidates : List MirrorStore.MirrorCandidate) (hs : s.Drains name) :
    DrainStep.reservedInRedis (MirrorStore.reserveNext candidates false s).1 ≠ some name := by
  have hother := (MirrorStore.reserveNext_spares candidates false hs).other
  unfold DrainStep.reservedInRedis
  split
  · rename_i member hmember
    exact fun hname => hother member hmember (some.inj hname)
  · exact nofun

/-- The completion of a drain without leases, at the version that the record shows. -/
theorem completes_iff (hh : s.members name = some h) (hM : h.Presents name .draining)
    (hempty : s.leases name = ∅) :
    (∃ m, s.getMember name = .ok (some m) ∧
      accepted (s.completeMemberDrain name m.stateVersion.value).1 = true ∧
        ((s.completeMemberDrain name m.stateVersion.value).2.members name).map MirrorHash.state =
          some .offline) ↔ h.record.wellFenced = true ∧ h.Writes h.record.offline := by
  have hread : ∀ m, s.getMember name = .ok (some m) ↔ h.record.wellFenced = true ∧ h.record = m := by
    intro m
    unfold MirrorStore.getMember
    by_cases hfenced : h.record.wellFenced = true <;> simp [hh, hfenced]
  simp only [hread, and_assoc, exists_and_left, exists_eq_left']
  refine and_congr_right fun hfenced => ?_
  rcases MirrorStore.completeMemberDrain_decides hM hh h.record.stateVersion.value with
    ⟨⟨-, -, -, hwrites⟩, hacc, hafter⟩ | ⟨hnot, hrej, -⟩
  · refine iff_of_true ⟨hacc, ?_⟩ hwrites
    rw [hafter]
    simp [MirrorStore.lifecycleHash, StoredMember.offline]
  · refine iff_of_false (fun h => ?_) fun hwrites => hnot ⟨⟨hfenced, rfl⟩, rfl, hempty, hwrites⟩
    rw [hrej] at h
    cases h.1

/-- **Drains in Redis.**  From a store whose records show its hashes a drain that has begun is
finished exactly when it fits. -/
theorem redis_drains_iff (hs : s.Shown) (name : String) (v : ℤ)
    (steps : List (DrainStep (List MirrorStore.MirrorCandidate))) :
    RedisDrains s name v steps ↔ RedisFits s name v steps := by
  unfold RedisDrains RedisFits
  refine forall_congr' fun hbegun => forall_congr' fun hall => ?_
  cases hh : s.members name with
  | none =>
    simp [MirrorStore.beginMemberDrain, MirrorStore.withMember, MirrorStore.getMember, hh,
      accepted] at hbegun
  | some h =>
    obtain ⟨hdrains, hleases⟩ : (s.beginMemberDrain name v).2.Drains name ∧
        (s.beginMemberDrain name v).2.leases name = s.leases name := by
      rcases MirrorStore.beginMemberDrain_decides (hs name h hh) hh v with
        ⟨-, -, hafter⟩ | ⟨-, hrej, -⟩
      · rw [hafter]
        split
        · rename_i hdraining
          exact ⟨⟨h, hh, hdraining ▸ hs name h hh⟩, rfl⟩
        · exact ⟨⟨_, update_self .., (hs name h hh).recordName, rfl, rfl⟩, rfl⟩
      · rw [hrej] at hbegun
        cases hbegun
    obtain ⟨hiff, hend⟩ := drainSteps_iff (DrainStep.inRedis name) (·.Drains name)
      (·.leases name) (DrainStep.FitsRedis name) name
      (fun s a claimed hs hmem => MirrorStore.release_drains a claimed hs hmem)
      (fun s candidates hs => ⟨iff_of_true (reservedInRedis_ne candidates hs) trivial, fun _ =>
        ⟨(MirrorStore.reserveNext_spares candidates false hs).drains hs,
          (MirrorStore.reserveNext_spares candidates false hs).leases⟩⟩) hdrains (hleases ▸ hall)
    rw [hiff]
    refine and_congr_right fun hfits => ?_
    obtain ⟨⟨h', hh', hM'⟩, hempty⟩ := hend (hiff.mpr hfits)
    rw [completes_iff hh' hM' hempty]
    simp [hh']

end Redis

/-! ## In memory -/

def MemberSnapshot.drainedVersion (m : MemberSnapshot) : ℤ :=
  if m.state = .draining then m.stateVersion else m.stateVersion + 1

/-- A call of `reserve_next` that gets a snapshot of the member: there is a job, the first
candidate is a snapshot of the member, and what the repository holds for it passes every
check. -/
def ReserveCall.Takes (c : ReserveCall) (agingSeconds : ℚ) (name : String) (s : MemoryStore) :
    Prop :=
  ∃ selected candidate, s.peekNext agingSeconds c.now = some selected ∧
    c.candidate = some candidate ∧ candidate.member.name = name ∧
    Reservable selected candidate.member (c.current candidate) s

/-- A step that fits a drain in memory: the version of the claim is the one of the draining
member, and no reservation takes a snapshot of the member. -/
def DrainStep.FitsMemory (agingSeconds : ℚ) (name : String) (drained : ℤ) :
    DrainStep ReserveCall → MemoryStore → Prop
  | .release _ claimed, _ => claimed = drained
  | .reserve call, s => ¬ call.Takes agingSeconds name s

def MemoryFits (agingSeconds : ℚ) (s : MemoryStore) (name : String) (v : ℤ)
    (steps : List (DrainStep ReserveCall)) : Prop :=
  let begun := beginMemberDrain name v s
  ∀ m, s.members name = some m → accepted begun.1 = true →
    ReleasesAll steps (s.leases name) →
    ∀ x ∈ visits (DrainStep.inMemory name agingSeconds) begun.2 steps,
      x.op.FitsMemory agingSeconds name m.drainedVersion x.before

section Memory

variable {s : MemoryStore} {name : String} {w : ℤ}

def MemoryStore.Drains (s : MemoryStore) (name : String) (w : ℤ) : Prop :=
  ∃ m, s.members name = some m ∧ m.state = .draining ∧ m.stateVersion = w

theorem MemoryStore.release_drains (claimed : ℤ)
    (hs : s.Drains name w) (hmem : attemptId ∈ s.leases name) :
    (accepted (releaseMemberLease name attemptId claimed s).1 = true ↔ claimed = w) ∧
      (accepted (releaseMemberLease name attemptId claimed s).1 = true →
        (releaseMemberLease name attemptId claimed s).2.Drains name w ∧
        (releaseMemberLease name attemptId claimed s).2.leases name =
          (s.leases name).erase attemptId) := by
  obtain ⟨m, hm, hstate, rfl⟩ := hs
  have hfenced : releaseFenced m claimed ↔ claimed ≠ m.stateVersion := by
    simp [releaseFenced, hstate]
  rcases releaseMemberLease_decides hm attemptId claimed with
    ⟨⟨-, hnot⟩, hacc, hafter⟩ | ⟨hnot, hrej, -⟩
  · rw [hfenced, not_not] at hnot
    refine ⟨iff_of_true hacc hnot, fun _ => ?_⟩
    rw [hafter]
    refine ⟨⟨_, update_self .., ?_, ?_⟩, ?_⟩
    · simp [releasedMember, hstate]
    · simp [releasedMember, hstate]
    · simp [setMember, putLeases]
  · rw [hfenced, not_not] at hnot
    have hne : claimed ≠ m.stateVersion := fun heq => hnot ⟨hmem, heq⟩
    refine ⟨iff_of_false (by rw [hrej]; simp) hne, fun hacc => ?_⟩
    rw [hrej] at hacc
    cases hacc

/-- A reservation in memory gets the member exactly when it takes a snapshot of it, and
otherwise leaves the member and its leases. -/
theorem reserve_takes_iff (agingSeconds : ℚ) (name : String) (c : ReserveCall)
    (s : MemoryStore) :
    (DrainStep.reservedInMemory (c.inMemory agingSeconds s).1 = some name ↔
      c.Takes agingSeconds name s) ∧
    (¬ c.Takes agingSeconds name s →
      (c.inMemory agingSeconds s).2.members name = s.members name ∧
      (c.inMemory agingSeconds s).2.leases name = s.leases name) := by
  have hfind : (c.orderedMembers.map Candidate.member).find?
      (isCandidate c.requirements) = c.candidate.map Candidate.member := by
    rw [List.find?_map]
    rfl
  unfold ReserveCall.inMemory reserveNext
  cases hpeek : s.peekNext agingSeconds c.now with
  | none =>
    refine ⟨iff_of_false (by simp [DrainStep.reservedInMemory]) ?_, fun _ => ⟨rfl, rfl⟩⟩
    rintro ⟨selected, candidate, hselected, -⟩
    rw [hpeek] at hselected
    cases hselected
  | some selected =>
    simp only [hfind]
    cases hcandidate : c.candidate with
    | none =>
      refine ⟨iff_of_false (by simp [DrainStep.reservedInMemory]) ?_, fun _ => ⟨rfl, rfl⟩⟩
      rintro ⟨selected', candidate, -, hsome, -⟩
      rw [hcandidate] at hsome
      cases hsome
    | some candidate =>
      simp only [map_some]
      change
        (DrainStep.reservedInMemory ((reserveMember selected candidate.member
          (c.current candidate) candidate.attemptId c.now s).1.map some) = some name ↔ _) ∧ _
      have htakes : c.Takes agingSeconds name s ↔ candidate.member.name = name ∧
          Reservable selected candidate.member (c.current candidate) s := by
        constructor
        · rintro ⟨selected', candidate', hs, hc, hrest⟩
          rw [hpeek, some.injEq] at hs
          rw [hcandidate, some.injEq] at hc
          exact hs ▸ hc ▸ hrest
        · exact fun hrest => ⟨selected, candidate, hpeek, hcandidate, hrest⟩
      rw [htakes]
      rcases reserveMember_cases selected candidate.member (c.current candidate)
        candidate.attemptId c.now s with ⟨hnot, e, heq⟩ | ⟨hr, job, -, heq⟩
      · refine ⟨iff_of_false ?_ fun h => hnot h.2, fun _ => ?_⟩
        · rw [heq]
          simp [DrainStep.reservedInMemory, Except.map]
        · exact ⟨congrArg (fun r => r.2.members name) heq,
            congrArg (fun r => r.2.leases name) heq⟩
      · rw [heq]
        refine ⟨?_, fun hnot => ?_⟩
        · simp [DrainStep.reservedInMemory, Except.map, claimedJob, hr]
        · have hne : name ≠ candidate.member.name := fun h => hnot ⟨h.symm, hr⟩
          refine ⟨?_, ?_⟩
          · refine (congrArg (fun r => r.2.members name) heq).trans ?_
            exact update_of_ne hne ..
          · refine (congrArg (fun r => r.2.leases name) heq).trans ?_
            exact update_of_ne hne ..

/-- A reservation that does not get the draining member leaves it draining. -/
theorem reserve_drains (agingSeconds : ℚ) (call : ReserveCall) (hs : s.Drains name w) :
    (((DrainStep.reserve call).inMemory name agingSeconds s).1.Fine name ↔
      (DrainStep.reserve call).FitsMemory agingSeconds name w s) ∧
    (((DrainStep.reserve call).inMemory name agingSeconds s).1.Fine name →
      ((DrainStep.reserve call).inMemory name agingSeconds s).2.Drains name w ∧
      ((DrainStep.reserve call).inMemory name agingSeconds s).2.leases name = s.leases name) := by
  obtain ⟨hiff, hkeep⟩ := reserve_takes_iff agingSeconds name call s
  refine ⟨not_congr hiff, fun hfine => ?_⟩
  obtain ⟨hmember, hleases⟩ := hkeep fun htakes => hfine (hiff.mpr htakes)
  obtain ⟨m, hm, hrest⟩ := hs
  exact ⟨⟨m, hmember.trans hm, hrest⟩, hleases⟩

/-- **Drains in memory.**  A drain that has begun is finished exactly when its steps fit. -/
theorem memory_drains_iff (agingSeconds : ℚ) (s : MemoryStore) (name : String) (v : ℤ)
    (steps : List (DrainStep ReserveCall)) :
    MemoryDrains agingSeconds s name v steps ↔ MemoryFits agingSeconds s name v steps := by
  unfold MemoryDrains MemoryFits
  cases hm : s.members name with
  | none =>
    have hrun : accepted (beginMemberDrain name v s).1 = false := by
      simp [beginMemberDrain, atVersion, hm, accepted]
    simp [hrun]
  | some m =>
    simp only [some.injEq, forall_eq']
    refine forall_congr' fun hbegun => forall_congr' fun hall => ?_
    obtain ⟨hdrains, hleases⟩ :
        (beginMemberDrain name v s).2.Drains name m.drainedVersion ∧
          (beginMemberDrain name v s).2.leases name = s.leases name := by
      rcases beginMemberDrain_decides hm v with ⟨-, -, hafter⟩ | ⟨-, hrej, -⟩
      · rw [hafter]
        unfold MemberSnapshot.drainedVersion
        split
        · rename_i hdraining
          exact ⟨⟨m, hm, hdraining, rfl⟩, rfl⟩
        · exact ⟨⟨_, update_self .., rfl, rfl⟩, rfl⟩
      · rw [hrej] at hbegun
        cases hbegun
    obtain ⟨hiff, hend⟩ := drainSteps_iff (DrainStep.inMemory name agingSeconds)
      (·.Drains name m.drainedVersion) (·.leases name)
      (DrainStep.FitsMemory agingSeconds name m.drainedVersion) name
      (fun s a claimed hs hmem => release_drains claimed hs hmem)
      (fun s call hs => reserve_drains agingSeconds call hs) hdrains (hleases ▸ hall)
    rw [← hiff]
    refine and_iff_left_of_imp fun hfines => ?_
    obtain ⟨⟨m', hm', hstate', hversion'⟩, hempty⟩ := hend hfines
    refine ⟨m', hm', ?_⟩
    rcases completeMemberDrain_decides hm' m'.stateVersion with
      ⟨-, hacc, hafter⟩ | ⟨hnot, -⟩
    · refine ⟨hacc, ?_⟩
      simp only [hafter, setMember, update_self, map_some]
    · exact absurd ⟨rfl, hstate', hempty⟩ hnot

end Memory

/-! ## Stores that calls have led to -/

namespace MirrorStore

variable {s : MirrorStore} {name : String} {h : MirrorHash}

theorem Shown.put (hs : s.Shown) (hh : h.Presents name h.state) : (s.put name h).Shown := by
  intro other h' hother
  by_cases hname : other = name
  · subst hname
    obtain rfl : h = h' := by simpa using hother
    exact hh
  · exact hs other h' (by simpa [hname] using hother)

/-- A commit of a drain call whose record is under the name of the member. -/
theorem Shown.commit (hs : s.Shown) {a : DrainCall}
    (hname : a.updated.rest.name = a.current.rest.name) : (commitMemberDrain a s).2.Shown := by
  rcases commitMemberDrain_store a s with heq | ⟨h, -, heq | ⟨-, heq⟩⟩ <;> rw [heq]
  · exact hs
  · unfold lifecycleCommit
    split
    · exact hs
    · exact hs.put ⟨hname, rfl, rfl⟩
  · unfold releaseCommit
    dsimp only
    split
    · exact hs
    split <;> exact Shown.put (s := s.srem _ _) hs ⟨hname, rfl, rfl⟩

/-- Every method that reads the member first keeps the store shown if what follows does. -/
theorem Shown.withMember (hs : s.Shown)
    {next : StoredMember → Except BrokerError StoredMember × MirrorStore}
    (hnext : ∀ h, s.members name = some h → (next h.record).2.Shown) :
    (MirrorStore.withMember name next s).2.Shown := by
  cases hh : s.members name with
  | none =>
    simp only [MirrorStore.withMember, getMember, hh]
    exact hs
  | some h =>
    rw [withMember_eq hh]
    split
    · exact hnext h hh
    · exact hs

theorem Shown.atVersion (hs : s.Shown) {current : StoredMember} {v : ℤ}
    {next : Except BrokerError StoredMember × MirrorStore} (hnext : next.2.Shown) :
    (MirrorStore.atVersion current v s next).2.Shown := by
  unfold MirrorStore.atVersion
  split
  · exact hs
  · exact hnext

theorem Shown.afterTransition (hs : s.Shown) {current target : MemberState}
    {next : Except BrokerError StoredMember × MirrorStore} (hnext : next.2.Shown) :
    (MirrorStore.afterTransition current target s next).2.Shown := by
  unfold MirrorStore.afterTransition
  split
  · exact hnext
  · exact hs

theorem Shown.reserveCommit (hs : s.Shown) (c : MirrorCandidate) (free : ℤ) :
    (MirrorStore.reserveCommit c h free s).2.Shown := by
  unfold MirrorStore.reserveCommit
  dsimp only
  split
  · exact hs
  · exact Shown.put (s := s.sadd _ _) hs ⟨rfl, rfl, rfl⟩

theorem Shown.reserveNext (hs : s.Shown) (candidates : List MirrorCandidate) (staleSeen : Bool) :
    (MirrorStore.reserveNext candidates staleSeen s).2.Shown := by
  induction candidates generalizing staleSeen s with
  | nil =>
    unfold MirrorStore.reserveNext
    split <;> exact hs
  | cons c rest ih =>
    have hturn : (reserveTurn c s).2.Shown := by
      unfold reserveTurn
      dsimp only
      cases s.members c.member.rest.name with
      | none => exact hs
      | some h =>
        dsimp only
        split
        · exact hs
        split
        · exact hs
        split
        · exact hs
        split
        · exact hs
        split
        · exact hs
        · exact hs.reserveCommit c _
    unfold MirrorStore.reserveNext
    split <;> rename_i heq <;> rw [heq] at hturn
    · exact hturn
    · exact ih hturn true
    · exact hturn

/-- **A call** keeps the store shown. -/
theorem Shown.effect (hs : s.Shown) (call : MirrorCall) : (call.effect s).Shown := by
  cases call with
  | putMember member =>
    show (s.putMember (.ofSnapshot member)).2.Shown
    unfold putMember
    dsimp only
    split
    · exact hs
    split
    · exact hs
    split <;> exact hs.put ⟨rfl, rfl, rfl⟩
  | reserveNext candidates => exact hs.reserveNext _ false
  | requeueClaim name attemptId refusal =>
    show (s.requeueClaim name attemptId refusal).2.Shown
    unfold requeueClaim
    split
    · exact hs
    · rename_i member h hget hh
      split
      · exact hs
      split
      · exact hs
      refine Shown.put (s := s.srem name attemptId) hs ⟨?_, rfl, rfl⟩
      have hread : h.record.rest.name = member.rest.name := by
        unfold getMember at hget
        rw [hh] at hget
        dsimp only at hget
        split at hget
        · rw [some.inj (Except.ok.inj hget)]
        · cases hget
      exact hread.symm.trans (hs name h hh).recordName
    · exact hs
  | releaseMemberLease name attemptId claimed enforce =>
    exact hs.withMember fun h hh => hs.commit rfl
  | beginMemberDrain name version =>
    refine hs.withMember fun h hh => hs.atVersion ?_
    split
    · exact hs
    · exact hs.afterTransition (hs.commit rfl)
  | completeMemberDrain name version =>
    exact hs.withMember fun h hh => hs.atVersion (hs.afterTransition (hs.commit rfl))
  | beginMemberRejoin name version fence =>
    refine hs.withMember fun h hh => hs.atVersion ?_
    split
    · exact hs
    · exact hs.afterTransition (hs.commit rfl)
  | completeMemberRejoin name version readiness =>
    refine hs.withMember fun h hh => hs.atVersion ?_
    split
    · exact hs
    rename_i hname
    split
    · exact hs
    split
    · exact hs
    · exact hs.afterTransition (hs.commit
        ((not_not.mp hname).trans (hs name h hh).recordName.symm))
  | repairMemberGenerationFence name version =>
    show (s.repairMemberGenerationFence name version).2.Shown
    unfold repairMemberGenerationFence
    split
    · exact hs
    split
    · exact hs
    rename_i h hh
    split
    · exact hs
    split
    · exact hs
    split
    · exact hs
    split
    · exact hs
    split
    · exact hs
    · exact hs.put ⟨(hs name h hh).recordName, rfl, rfl⟩

theorem shown_empty : empty.Shown := fun _ _ h => nomatch h

/-- **Every call** of a run keeps the store shown. -/
theorem Shown.run (hs : s.Shown) (calls : List MirrorCall) : (s.run calls).Shown := by
  induction calls generalizing s with
  | nil => exact hs
  | cons call calls ih => exact ih (hs.effect call)

end MirrorStore

/-- **A drain can always finish**, in both repositories, exactly when its steps fit: in Redis from
the members that any calls have led to, in memory from any. -/
theorem drains_finish_iff (calls : List MirrorCall) (agingSeconds : ℚ) (memory : MemoryStore)
    (name : String) (v : ℤ) (steps : List (DrainStep (List MirrorStore.MirrorCandidate)))
    (steps' : List (DrainStep ReserveCall)) :
    RedisDrains (MirrorStore.empty.run calls) name v steps ∧
        MemoryDrains agingSeconds memory name v steps' ↔
      RedisFits (MirrorStore.empty.run calls) name v steps ∧
        MemoryFits agingSeconds memory name v steps' :=
  and_congr (redis_drains_iff (MirrorStore.shown_empty.run calls) name v steps)
    (memory_drains_iff agingSeconds memory name v steps')

namespace Deployment

/-- The member of the deployment, as a caller of the repository in memory shows it. -/
def freeMember : MemberSnapshot := { member with compatibleFreeSlots := some 1 }

/-- A job is submitted and reserved in memory, on the member at its first version. -/
def reservedInMemory : MemoryStore :=
  let s₁ := (putMember freeMember empty).2
  let s₂ := (submit job.record "s" s₁).2
  (reserveNext 300 0 [freeMember] ⟨0, 0, ["chat"]⟩ none "a" s₂).2

/-- The dispatcher releases the reservation with the version that it claimed. -/
def releaseOfClaim {R : Type} : List (DrainStep R) := [.release "a" 1]

/-- The drain of the reserved member begins, and the only lease cannot be released. -/
theorem releaseOfClaim_not_finish :
    ¬ (RedisDrains (MirrorStore.empty.run []) "m" 1 releaseOfClaim ∧
      MemoryDrains 300 reservedInMemory "m" 1 releaseOfClaim) := by
  rintro ⟨-, hdrains⟩
  have hbegun : accepted (beginMemberDrain "m" 1 reservedInMemory).1 = true := by
    decide +kernel
  have hleases : reservedInMemory.leases "m" = {"a"} := by decide +kernel
  have hall : ReleasesAll (R := ReserveCall) releaseOfClaim (reservedInMemory.leases "m") := by
    rw [hleases]
    exact ⟨by decide, by simp [releases, releaseOfClaim]⟩
  have hfine := (hdrains hbegun hall).1 ⟨.release "a" 1, _⟩ List.mem_cons_self
  revert hfine
  show ¬ accepted (releaseMemberLease "m" "a" 1
    (beginMemberDrain "m" 1 reservedInMemory).2).1 = true
  decide +kernel

end Deployment

end GpuManager.Broker
