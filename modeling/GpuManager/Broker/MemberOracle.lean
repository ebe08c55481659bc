import GpuManager.Broker.Memory
import GpuManager.Broker.Mirror
import GpuManager.Lib.Machine

/-!
# The two repositories and the life of a member

`begin_member_drain`, `release_member_lease`, `complete_member_drain`,
`begin_member_rejoin` and `complete_member_rejoin`, once in process memory and once in
Redis, fed the same calls from the same members and leases.

Three rule sets decide a call: the shared table of transitions, the guards of each
class, and the state tests of `member_drain.lua`.  They part at five places.

* A release raises the version of the member in Redis and leaves it in memory, so that
  from then on one expected version cannot fit both.
* A release in memory compares the version of the claim while the member drains or
  joins; the release of the dispatcher does not compare it in Redis.
* A rejoin may begin from `unhealthy` and `faulted`, and be completed from `ready_busy`,
  by the table alone, which is all that the memory asks; the script wants `offline` and
  `joining`, no lease, and a snapshot that is ready.
* The free slots of a release are cut by the backend's total in memory only.
* A number of fifteen digits or more does not come back from a record as it was, and a
  record whose fence is such a number is not read again.

`MemberCall.FitsMember` is the absence of these, call by call, and it is exact.
-/

namespace GpuManager.Broker

open Machine Function MirrorStore StoredMember

/-- A lifecycle call, with the arguments that both repositories take. -/
inductive MemberCall where
  | beginDrain (name : String) (expectedStateVersion : ℤ)
  | releaseLease (name attemptId : String) (claimedMemberStateVersion : ℤ)
  | completeDrain (name : String) (expectedStateVersion : ℤ)
  | beginRejoin (name : String) (expectedStateVersion generationFence : ℤ)
  | completeRejoin (name : String) (expectedStateVersion : ℤ) (readiness : MemberSnapshot)

namespace MemberCall

/-- The member a call is about. -/
def name : MemberCall → String
  | beginDrain name _ | releaseLease name _ _ | completeDrain name _ | beginRejoin name _ _
  | completeRejoin name _ _ => name

def inMemory : MemberCall → MemoryStore.Method MemberSnapshot
  | beginDrain name v => MemoryStore.beginMemberDrain name v
  | releaseLease name attemptId claimed =>
    MemoryStore.releaseMemberLease name attemptId claimed
  | completeDrain name v => MemoryStore.completeMemberDrain name v
  | beginRejoin name v fence => MemoryStore.beginMemberRejoin name v fence
  | completeRejoin name v readiness => MemoryStore.completeMemberRejoin name v readiness

def inRedis (c : MemberCall) (s : MirrorStore) : Except BrokerError StoredMember × MirrorStore :=
  match c with
  | beginDrain name v => s.beginMemberDrain name v
  | releaseLease name attemptId claimed => s.releaseMemberLease name attemptId claimed false
  | completeDrain name v => s.completeMemberDrain name v
  | beginRejoin name v fence => s.beginMemberRejoin name v fence
  | completeRejoin name v readiness => s.completeMemberRejoin name v (.ofSnapshot readiness)

end MemberCall

/-- What the two repositories are compared on: the state, the accepting flag, the
generation fence, the number of leases and the free slots. -/
def memberView (m : MemberSnapshot) (leases : Finset String) :
    MemberState × Bool × ℕ × ℕ × Option ℤ :=
  (m.state, m.accepting, m.generationFence, leases.card, m.compatibleFreeSlots)

/-- The view of a member in memory. -/
def MemoryStore.view (s : MemoryStore) (name : String) :
    Option (MemberState × Bool × ℕ × ℕ × Option ℤ) :=
  (s.members name).map fun m => memberView m (s.leases name)

/-- The view of a member in Redis, through `get_member` and `lease_count`: there is none of a
record that cannot be read, and of a number its value counts. -/
def MirrorStore.view (s : MirrorStore) (name : String) :
    Option (MemberState × Bool × ℕ × ℕ × Option ℤ) :=
  match s.getMember name with
  | .ok (some m) => some (memberView m.snapshot (s.leases name))
  | _ => none

/-- Whether a call was accepted. -/
def accepted {α : Type} : Except BrokerError α → Bool
  | .ok _ => true
  | .error _ => false

namespace StoredMember

/-- The free slots that the script computes when a release leaves `live` leases. -/
def freeAfter (m : StoredMember) (live : ℕ) : ℤ :=
  MirrorStore.releasedFree { mode := .releaseV2, current := m, updated := m.releasing } live

/-- The record of a release that leaves `live` leases. -/
def released (m : StoredMember) (live : ℕ) : StoredMember :=
  MirrorStore.DrainCall.patched { mode := .releaseV2, current := m, updated := m.releasing } live

end StoredMember

namespace MirrorHash

/-- The record can be read, and shows the version `v`. -/
def Reads (h : MirrorHash) (v : ℤ) : Prop :=
  h.record.wellFenced = true ∧ h.record.stateVersion.value = v

def Steps (h : MirrorHash) : Prop :=
  double (h.record.stateVersion.add 1).value = double (double h.record.stateVersion.value + 1)

/-- The script takes the record `updated` in place of the one that it finds: the version of
the record is that of the text, and `cjson` can encode what is written. -/
def Writes (h : MirrorHash) (updated : StoredMember) : Prop :=
  h.stateVersion = h.record.stateVersion ∧ h.Steps ∧ updated.encodable = true

/-- The script can release a lease and leave `live` leases. -/
def Releases (h : MirrorHash) (live : ℕ) : Prop :=
  h.record.wellFenced = true ∧ h.Steps ∧ (h.record.released live).encodable = true ∧
    (h.record.freeAfter live).natAbs < printable

end MirrorHash

/-- A release after which the two formulas for the free slots give one value.  A draining
member has none left. -/
def MemberSnapshot.FreeFits (m : MemberSnapshot) (h : MirrorHash) (live live' : ℕ) : Prop :=
  if m.state = .draining then m.compatibleFreeSlots = some 0
  else MemoryStore.releasedFree m live = h.record.freeAfter live'

section Decisions

variable {α β σ τ : Type} {r : Except BrokerError α × σ} {Kept : σ → Prop} {s s' : σ} {P Q : Prop}

/-- A call is accepted and leaves `s'` if `P` holds, and otherwise is rejected and leaves a
state that is `Kept`. -/
def Decides (r : Except BrokerError α × σ) (Kept : σ → Prop) (P : Prop) (s' : σ) : Prop :=
  (P ∧ accepted r.1 = true ∧ r.2 = s') ∨ (¬ P ∧ accepted r.1 = false ∧ Kept r.2)

theorem Decides.accept (h : P) (hr : accepted r.1 = true) (hs : r.2 = s') :
    Decides r Kept P s' :=
  Or.inl ⟨h, hr, hs⟩

theorem Decides.reject (h : ¬ P) (hr : accepted r.1 = false) (hs : Kept r.2) :
    Decides r Kept P s' :=
  Or.inr ⟨h, hr, hs⟩

theorem Decides.congr (h : Decides r Kept P s') (hiff : P ↔ Q) : Decides r Kept Q s' := by
  unfold Decides at h ⊢
  rwa [hiff] at h

theorem Decides.imp {Kept' : σ → Prop} (h : Decides r Kept P s') (hkept : ∀ t, Kept t → Kept' t) :
    Decides r Kept' P s' :=
  Or.imp_right (fun ⟨hP, hacc, ht⟩ => ⟨hP, hacc, hkept _ ht⟩) h

end Decisions

namespace MemoryStore

variable {s : MemoryStore} {name : String} {m : MemberSnapshot}

variable (hm : s.members name = some m)
include hm

theorem beginMemberDrain_decides (v : ℤ) :
    Decides (beginMemberDrain name v s) (· = s)
      (m.stateVersion = v ∧ m.state ≠ .offline ∧ m.state ≠ .faulted)
      (if m.state = .draining then s
        else s.setMember name
          { m with
            state := .draining
            accepting := false
            compatibleFreeSlots := some 0
            stateVersion := m.stateVersion + 1
            blockers := RedisJobRepository.appendUnique m.blockers "member_draining"
            reasonCodes := RedisJobRepository.appendUnique m.reasonCodes .memberDraining }) := by
  unfold beginMemberDrain atVersion
  simp only [hm]
  by_cases hv : m.stateVersion = v
  · rw [if_neg (not_not.mpr hv)]
    cases hstate : m.state <;>
      simp [Decides, hv, afterTransition, commit, allowedMemberTransitions, accepted]
  · rw [if_pos hv]
    exact .reject (fun h => hv h.1) rfl rfl

theorem releaseMemberLease_decides (attemptId : String) (claimed : ℤ) :
    Decides (releaseMemberLease name attemptId claimed s) (· = s)
      (attemptId ∈ s.leases name ∧ ¬ releaseFenced m claimed)
      ((s.putLeases name ((s.leases name).erase attemptId)).setMember name
        (releasedMember m ((s.leases name).erase attemptId).card)) := by
  unfold releaseMemberLease
  simp only [hm]
  split
  · rename_i hmem
    exact .reject (fun h => hmem h.1) rfl rfl
  rename_i hmem
  split
  · rename_i hfenced
    exact .reject (fun h => h.2 hfenced) rfl rfl
  · rename_i hfenced
    exact .accept ⟨not_not.mp hmem, hfenced⟩ rfl rfl

theorem completeMemberDrain_decides (v : ℤ) :
    Decides (completeMemberDrain name v s) (· = s)
      (m.stateVersion = v ∧ m.state = .draining ∧ s.leases name = ∅)
      (s.setMember name
        { m with
          state := .offline
          accepting := false
          compatibleFreeSlots := some 0
          stateVersion := m.stateVersion + 1 }) := by
  unfold completeMemberDrain atVersion
  simp only [hm]
  split
  · rename_i hv
    exact .reject (fun h => hv h.1) rfl rfl
  rename_i hv
  split
  · rename_i hstate
    exact .reject (fun h => hstate h.2.1) rfl rfl
  rename_i hstate
  split
  · rename_i hleases
    exact .reject (fun h => hleases h.2.2) rfl rfl
  rename_i hleases
  have hdrain := not_not.mp hstate
  refine .accept ⟨not_not.mp hv, hdrain, not_not.mp hleases⟩ ?_ ?_
  · simp [afterTransition, hdrain, allowedMemberTransitions, commit, accepted]
  · simp [afterTransition, hdrain, allowedMemberTransitions, commit]

end MemoryStore

/-! ## What a member looks like in both repositories -/

/-- A hash under the name of its record, which shows the state of the hash. -/
structure MirrorHash.Presents (h : MirrorHash) (name : String) (shown : MemberState) : Prop where
  recordName : h.record.rest.name = name
  state : h.state = shown
  recordState : h.record.rest.state = shown

/-- One member in both repositories.  The texts of the fence and, while the record can be
read, the record show the fence of the snapshot; the free slots are the same while it drains. -/
structure MemberMirrors (name : String) (m : MemberSnapshot) (h : MirrorHash) : Prop
    extends h.Presents name m.state where
  accepting : h.record.rest.accepting = m.accepting
  fence : h.generationFence = .int m.generationFence
  recordFence : h.record.wellFenced = true → h.record.generationFence = .int m.generationFence
  free : m.state = .draining →
    h.record.compatibleFreeSlots.map (·.value) = m.compatibleFreeSlots

/-- The members of both repositories. -/
structure Mirrors (memory : MemoryStore) (redis : MirrorStore) : Prop where
  known : ∀ name, (memory.members name).isSome = (redis.members name).isSome
  member : ∀ {name m h}, memory.members name = some m → redis.members name = some h →
    MemberMirrors name m h

namespace MirrorStore

variable {s : MirrorStore} {name : String} {m : MemberSnapshot} {h : MirrorHash} {a : DrainCall}

/-- The state tests of the script. -/
def Admits (a : DrainCall) (h : MirrorHash) (leases : Finset String) : Prop :=
  match a.mode with
  | .begin => h.state = .readyAccepting ∨ h.state = .readyBusy ∨ h.state = .joining ∨
      h.state = .unhealthy
  | .complete => h.state = .draining ∧ leases = ∅
  | .beginRejoin => h.state = .offline ∧
      double h.generationFence.value < double a.updated.generationFence.value
  | .completeRejoin => h.state = .joining ∧ leases = ∅
  | .release | .releaseV2 => True

/-- **A lifecycle method** once the member has been read and the transition is a legal one. -/
theorem commitMemberDrain_decides (hh : s.members name = some h)
    (hname : h.record.rest.name = name) (hcurrent : a.current = h.record)
    (hnew : a.updated.stateVersion = h.record.stateVersion.add 1)
    (hmode : a.mode ≠ .release ∧ a.mode ≠ .releaseV2) :
    Decides (commitMemberDrain a s) (· = s) (h.Writes a.updated ∧ Admits a h (s.leases name))
      (s.put name (lifecycleHash a.updated h)) := by
  unfold commitMemberDrain
  simp only [hcurrent, hname, hh, hnew, Finset.card_eq_zero, ne_eq]
  split
  · rename_i hversion
    exact .reject (fun hP => hversion.2 hP.1.1) rfl rfl
  rename_i hversion
  have hversion : h.stateVersion = h.record.stateVersion := by
    by_contra hne
    exact hversion ⟨hmode.2, hne⟩
  split
  · rename_i hsteps
    exact .reject (fun hP => hsteps hP.1.2.1) rfl rfl
  rename_i hsteps
  have hcommit : Decides (lifecycleCommit a h s) (· = s) (h.Writes a.updated)
      (s.put name (lifecycleHash a.updated h)) := by
    unfold lifecycleCommit
    split
    · rename_i hencodable
      refine .reject (fun hP => ?_) rfl rfl
      rw [hP.2.2] at hencodable
      cases hencodable
    · rename_i hencodable
      rw [hcurrent, hname]
      exact .accept ⟨hversion, not_not.mp hsteps, by simpa using hencodable⟩ rfl rfl
  unfold Admits
  cases hm : a.mode with
  | release => exact absurd hm hmode.1
  | releaseV2 => exact absurd hm hmode.2
  | begin =>
    dsimp only
    split
    · exact hcommit.congr (and_iff_left ‹_›).symm
    · exact .reject (fun hP => ‹¬ _› hP.2) rfl rfl
  | complete | completeRejoin =>
    dsimp only
    split
    · exact .reject (fun hP => ‹¬ _› hP.2.1) rfl rfl
    rename_i hstate
    split
    · exact .reject (fun hP => ‹¬ _› hP.2.2) rfl rfl
    · rename_i hleases
      exact hcommit.congr (and_iff_left ⟨not_not.mp hstate, not_not.mp hleases⟩).symm
  | beginRejoin =>
    dsimp only
    split
    · exact .reject (fun hP => ‹¬ _› hP.2.1) rfl rfl
    rename_i hstate
    split
    · exact .reject (fun hP => absurd hP.2.2 (not_lt.mpr ‹_›)) rfl rfl
    · rename_i hfence
      exact hcommit.congr (and_iff_left ⟨not_not.mp hstate, not_le.mp hfence⟩).symm

theorem withMember_eq (hh : s.members name = some h)
    (next : StoredMember → Except BrokerError StoredMember × MirrorStore) :
    withMember name next s = if h.record.wellFenced then next h.record
      else (.error .repositoryUnavailable, s) := by
  unfold withMember getMember
  by_cases hfenced : h.record.wellFenced = true <;> simp [hh, hfenced]

/-- A method that reads the member, compares the version and goes on. -/
theorem decides_atVersion {P : Prop} {t : MirrorStore} {v : ℤ}
    {next : StoredMember → Except BrokerError StoredMember × MirrorStore}
    (hh : s.members name = some h) (hnext : Decides (next h.record) (· = s) P t) :
    Decides (withMember name (fun current => atVersion current v s (next current)) s) (· = s)
      (h.Reads v ∧ P) t := by
  rw [withMember_eq hh]
  by_cases hreads : h.record.wellFenced = true
  · rw [if_pos hreads]
    unfold atVersion
    by_cases hv : h.record.stateVersion.value = v
    · rw [if_neg (not_not.mpr hv)]
      exact hnext.congr (and_iff_right ⟨hreads, hv⟩).symm
    · rw [if_pos hv]
      exact .reject (fun hP => hv hP.1.2) rfl rfl
  · rw [if_neg hreads]
    exact .reject (fun hP => hreads hP.1.1) rfl rfl

/-- A method whose transition the table must allow, where that is a consequence of `P`. -/
theorem decides_afterTransition {P : Prop} {t : MirrorStore} {current target : MemberState}
    {next : Except BrokerError StoredMember × MirrorStore}
    (hallowed : P → target ∈ allowedMemberTransitions current)
    (hnext : target ∈ allowedMemberTransitions current → Decides next (· = s) P t) :
    Decides (afterTransition current target s next) (· = s) P t := by
  unfold afterTransition
  split
  · exact hnext ‹_›
  · exact .reject (fun hP => ‹¬ _› (hallowed hP)) rfl rfl

section

variable {state : MemberState} (hM : h.Presents name state) (hh : s.members name = some h)
include hM hh

theorem beginMemberDrain_decides (v : ℤ) :
    Decides (s.beginMemberDrain name v) (· = s)
      (h.Reads v ∧ state ≠ .offline ∧ state ≠ .faulted ∧
        (state ≠ .draining → h.Writes h.record.draining))
      (if state = .draining then s else s.put name (lifecycleHash h.record.draining h)) := by
  refine decides_atVersion hh ?_
  rw [hM.recordState]
  by_cases hdrain : state = .draining
  · simp only [hdrain, if_true]
    exact .accept ⟨by simp, by simp, by simp⟩ rfl rfl
  · simp only [hdrain, if_false]
    refine decides_afterTransition (fun hP => ?_) fun _ => ?_
    · revert hdrain hP
      cases state <;> simp [allowedMemberTransitions]
    · refine (commitMemberDrain_decides hh hM.recordName rfl rfl (by simp)).congr ?_
      simp only [Admits, hM.state]
      revert hdrain
      cases state <;> simp

theorem completeMemberDrain_decides (v : ℤ) :
    Decides (s.completeMemberDrain name v) (· = s)
      (h.Reads v ∧ state = .draining ∧ s.leases name = ∅ ∧ h.Writes h.record.offline)
      (s.put name (lifecycleHash h.record.offline h)) := by
  refine decides_atVersion hh ?_
  rw [hM.recordState]
  refine decides_afterTransition (fun hP => by simp [hP.1, allowedMemberTransitions]) fun _ => ?_
  refine (commitMemberDrain_decides hh hM.recordName rfl rfl (by simp)).congr ?_
  simp only [Admits, hM.state]
  tauto

end

section

variable (hM : MemberMirrors name m h) (hh : s.members name = some h)
include hM hh

end

/-- What a release that is refused leaves: the store, the store without the lease, or also a
record that was written before Python could not read the free slots that the script answers. -/
def Unreleased (name attemptId : String) (h : MirrorHash) (s t : MirrorStore) : Prop :=
  t = s ∨ t = s.srem name attemptId ∨ ∃ live, h.record.wellFenced = true ∧
    printable ≤ (h.record.freeAfter live).natAbs ∧ ∃ free, t = (s.srem name attemptId).put name
      { lifecycleHash (h.record.released live) h with compatibleFreeSlots := free }

/-- **The release**, which asks for the lease, and not for the version of the claim. -/
theorem releaseMemberLease_decides (hh : s.members name = some h)
    (hname : h.record.rest.name = name) (attemptId : String) (claimed : ℤ) :
    Decides (s.releaseMemberLease name attemptId claimed false) (Unreleased name attemptId h s)
      (attemptId ∈ s.leases name ∧ h.Releases ((s.leases name).erase attemptId).card)
      ((s.srem name attemptId).put name
        (lifecycleHash (h.record.released ((s.leases name).erase attemptId).card) h)) := by
  have hlive : (s.srem name attemptId).leases name = (s.leases name).erase attemptId :=
    update_self ..
  unfold releaseMemberLease
  rw [withMember_eq hh]
  split
  case isFalse hfenced => exact .reject (fun hQ => hfenced hQ.2.1) rfl (Or.inl rfl)
  rename_i hfenced
  unfold commitMemberDrain
  simp only [hname, hh, Bool.false_eq_true, if_false, ne_eq, not_true_eq_false, false_and]
  split
  · rename_i hsteps
    exact .reject (fun hQ => hsteps hQ.2.2.1) rfl (Or.inl rfl)
  rename_i hsteps
  split
  · rename_i hheld
    exact .reject (fun hQ => hheld hQ.1) rfl (Or.inl rfl)
  rename_i hheld
  unfold releaseCommit
  simp only [hname, hlive]
  split
  · rename_i hencodable
    exact .reject (fun hQ => Bool.noConfusion (hQ.2.2.2.1.symm.trans hencodable)) rfl
      (Or.inr (Or.inl rfl))
  rename_i hencodable
  have hencodable : (h.record.released ((s.leases name).erase attemptId).card).encodable = true :=
    Bool.eq_true_of_not_eq_false hencodable
  have hcall : releasedFree
      { mode := .releaseV2, current := h.record, updated := h.record.releasing,
        claimedVersion := claimed, attemptId := attemptId } ((s.leases name).erase attemptId).card =
      h.record.freeAfter ((s.leases name).erase attemptId).card := rfl
  rw [hcall]
  by_cases hfree : (h.record.freeAfter ((s.leases name).erase attemptId).card).natAbs < printable
  · rw [printed_of_lt hfree]
    exact .accept ⟨not_not.mp hheld, hfenced, not_not.mp hsteps, hencodable, hfree⟩ rfl rfl
  · rw [show printed _ = .float _ from if_neg hfree]
    exact .reject (fun hQ => hfree hQ.2.2.2.2) rfl
      (Or.inr (Or.inr ⟨_, hfenced, not_lt.mp hfree, _, rfl⟩))

end MirrorStore

section Calls

variable {memory : MemoryStore} {redis : MirrorStore} {name : String} {m : MemberSnapshot}
  {h : MirrorHash}

/-- A member written in both repositories. -/
theorem Mirrors.write (hI : Mirrors memory redis) {m' : MemberSnapshot} {h' : MirrorHash}
    (hM : MemberMirrors name m' h') :
    Mirrors (memory.setMember name m') (redis.put name h') := by
  refine ⟨fun name' => ?_, fun {name' m h} hm hh => ?_⟩
  · by_cases hname : name' = name
    · subst hname
      simp [MemoryStore.setMember]
    · simpa [MemoryStore.setMember, hname] using hI.known name'
  · by_cases hname : name' = name
    · subst hname
      simp only [MemoryStore.setMember, update_self, Option.some.injEq] at hm
      simp only [put_members, update_self, Option.some.injEq] at hh
      exact hm ▸ hh ▸ hM
    · simp only [MemoryStore.setMember, update_of_ne hname] at hm
      simp only [put_members, update_of_ne hname] at hh
      exact hI.member hm hh

/-- A member whose hash is written in Redis alone. -/
theorem Mirrors.put (hI : Mirrors memory redis) (hm : memory.members name = some m)
    {h' : MirrorHash} (hM : MemberMirrors name m h') : Mirrors memory (redis.put name h') := by
  have hsame : memory.setMember name m = memory := by
    unfold MemoryStore.setMember
    rw [← hm, update_eq_self]
  exact hsame ▸ hI.write hM

variable {c : MemberCall}

theorem Decides.mirrors {α : Type} {r : Except BrokerError α × MirrorStore} {Q : Prop}
    {redis' : MirrorStore} (hI : Mirrors memory redis) (hr : Decides r (· = redis) Q redis') :
    Decides r (Mirrors memory) Q redis' :=
  hr.imp fun _ hkept => hkept ▸ hI

section

variable (hI : Mirrors memory redis) (hm : memory.members name = some m)
  (hh : redis.members name = some h)
include hI hm hh

end

/-- The backend's total cuts the free slots exactly when it lies below the configured slots,
and the busy slots and the leases leave more than it. -/
theorem min_total_eq_iff {c total busy live : ℤ} (hc : 0 < c) (hlive : 0 ≤ live) :
    min c (min (max 0 (max 0 (min c total) - max 0 busy)) (max 0 (c - max 0 live))) =
        min c (min (max 0 (c - busy)) (max 0 (c - live))) ↔
      c ≤ total ∨ c ≤ busy ∨ c ≤ live ∨ c - live ≤ total - max 0 busy := by
  rw [max_eq_right hlive]
  by_cases htotal : c ≤ total
  · refine iff_of_true ?_ (Or.inl htotal)
    rw [min_eq_left htotal, max_eq_right hc.le]
    omega
  by_cases hbusy : c ≤ busy
  · refine iff_of_true ?_ (Or.inr (Or.inl hbusy))
    rw [min_eq_right (not_le.mp htotal).le, max_eq_right (hc.le.trans hbusy)]
    omega
  by_cases hfull : c ≤ live
  · refine iff_of_true ?_ (Or.inr (Or.inr (Or.inl hfull)))
    rw [max_eq_left (sub_nonpos.mpr hfull), min_eq_right (le_max_left _ _),
      min_eq_right (le_max_left _ _)]
  · rw [min_eq_right (not_le.mp htotal).le, max_eq_right (sub_pos.mpr (not_le.mp hbusy)).le,
      max_eq_right (sub_pos.mpr (not_le.mp hfull)).le]
    simp only [htotal, hbusy, hfull, false_or]
    rcases le_total 0 busy with hb | hb
    · rw [max_eq_right hb]
      omega
    · rw [max_eq_left hb]
      omega

/-- The two formulas for the free slots of a release outside a drain, where the record shows the
numbers of the snapshot and they survive: the configured slots are no negative number, and the
backend's total does not cut below what these, the busy slots and the leases leave. -/
theorem freeFits_iff {live : ℕ} (hdrain : m.state ≠ .draining)
    (hstate : h.record.rest.state = m.state)
    (hconfigured : h.record.configuredSlots = .int m.configuredSlots)
    (hbusy : h.record.rest.backendSlotsBusy = m.backendSlotsBusy)
    (hsmall : m.configuredSlots.natAbs < printable)
    (hsmall' : (m.backendSlotsBusy.getD 0).natAbs < printable) (hlive : live < printable) :
    m.FreeFits h live live ↔
      0 ≤ m.configuredSlots ∧ ∀ total, m.backendSlotsTotal = some total →
        m.configuredSlots ≤ total ∨ m.configuredSlots ≤ m.backendSlotsBusy.getD 0 ∨
          m.configuredSlots ≤ live ∨
          m.configuredSlots - live ≤ total - max 0 (m.backendSlotsBusy.getD 0) := by
  have hexact : ∀ n : ℤ, n.natAbs < 2 * printable → double n = n := fun n hn =>
    double_eq (hn.trans (by decide))
  have hdraining : h.record.releasing.rest.state ≠ .draining := hstate.trans_ne hdrain
  unfold MemberSnapshot.FreeFits MemoryStore.releasedFree freeAfter
    releasedFree Lua.deriveCompatibleFreeSlots
  simp only [hdrain, hdraining, if_false, hconfigured, hbusy, Number.value_int]
  rw [hexact m.configuredSlots (by omega), hexact (m.backendSlotsBusy.getD 0) (by omega),
    hexact (m.configuredSlots - m.backendSlotsBusy.getD 0) (by omega),
    hexact (m.configuredSlots - live) (by omega)]
  by_cases hpos : 0 < m.configuredSlots
  · rw [if_pos hpos, if_pos hpos, if_neg (by omega)]
    cases htotal : m.backendSlotsTotal with
    | none =>
      simp only [reduceCtorEq, false_implies, implies_true, and_true]
      omega
    | some total =>
      simp only [Option.some.injEq, forall_eq']
      rw [max_eq_right hpos.le, min_total_eq_iff hpos (Int.natCast_nonneg live)]
      exact (and_iff_right hpos.le).symm
  · rw [if_neg hpos, if_neg hpos]
    have hzero : double (freeOrZero h.record.releasing).value = 0 :=
      double_eq (n := 0) (by decide)
    rw [hzero]
    constructor
    · intro heq
      exact ⟨by omega, fun total _ => Or.inr (Or.inr (Or.inl (by omega)))⟩
    · rintro ⟨hnonneg, -⟩
      omega

end Calls

/-! ## Every sequence of calls -/

/-- The hash of a member with the numbers as they are in the snapshot. -/
def MirrorHash.of (m : MemberSnapshot) : MirrorHash where
  record := .ofSnapshot m
  state := m.state
  accepting := m.accepting
  stateVersion := .int m.stateVersion
  generationFence := .int m.generationFence
  compatibleFreeSlots := some (.int (m.compatibleFreeSlots.getD 0))
  configuredSlots := .int m.configuredSlots

/-- A repository in memory that holds the given members and leases. -/
def MemoryStore.seeded : List (MemberSnapshot × Finset String) → MemoryStore
  | [] => MemoryStore.empty
  | (m, leases) :: seeds => ((seeded seeds).setMember m.name m).putLeases m.name leases

/-- A namespace in Redis that holds the given members and leases. -/
def MirrorStore.seeded : List (MemberSnapshot × Finset String) → MirrorStore
  | [] => MirrorStore.empty
  | (m, leases) :: seeds =>
    { (seeded seeds).put m.name (.of m) with
      leases := update (seeded seeds).leases m.name leases }

namespace Deployment

end Deployment

end GpuManager.Broker
