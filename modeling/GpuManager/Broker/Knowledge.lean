import GpuManager.Broker.ScriptSpecs
import GpuManager.Broker.Dispatcher

/-!
# What the broker's clients know and promise

The store invariant, the order in which a job and a member evolve, and what a
client knows about the record it holds.  Three facts carry everything that is
proved about runs.

* A hash is **coherent**: the canonical record agrees with the denormalised
  top-level fields.
* A job hash only moves forward: each write raises its version by one, keeps its
  priority and never takes an accepted boundary back (`JobHash.Written`).
* A client's copy of a job is the stored record for as long as the versions agree
  (`Copy`).  This is what makes a compare-and-set on the version alone safe, and
  it is exactly what `dispatch` gives up when it bumps its copy before writing.

Nothing of this kind is true of a member without a condition on the run, because
two scripts write a member without comparing versions.  `Assumption.fresh` is
that condition; with it members move forward too (`MemberHash.Le`).  The slot
counts and free-slot values of a member are only as good as the snapshots that
callers supply; `Assumption.slots` and `Assumption.bounded` say what is assumed of
those.
-/

namespace GpuManager.Broker

open AtomicProgram

/-- What a family of runs assumes: members whose slot count is fixed in every
snapshot a caller supplies, whether the free-slot values of those snapshots keep
to it, whether member writes are fresh, and whether the two callers of
`replace_job` take part. -/
structure Assumption where
  slots : String → Option ℤ
  slots_pos : ∀ name n, slots name = some n → 0 < n
  bounded : Prop
  fresh : Prop
  replaces : Prop

/-- No slot counts are fixed. -/
def Assumption.anySlots (fresh : Prop) (replaces : Prop := True) : Assumption where
  slots := fun _ => none
  slots_pos := fun _ _ h => by cases h
  bounded := False
  fresh := fresh
  replaces := replaces

/-! ## Coherent hashes -/

/-- The record of a job agrees with its hash, a queued job has not crossed the
accepted boundary, and the member a job names exists. -/
structure JobHash.Coherent (id : String) (h : JobHash) (s : Store) : Prop where
  jobId : h.record.jobId = id
  state : h.record.state = h.state
  stateVersion : h.record.stateVersion = h.stateVersion
  boundary : h.state = .queued → h.record.acceptedBoundaryCrossed = false
  member : ∀ name, truthy h.record.selectedMember = some name →
    (s.members name).isSome

/-- A free-slot value of a member with a fixed slot count. -/
def Assumption.FreeOk (A : Assumption) (name : String) (free : ℤ) : Prop :=
  A.bounded → ∀ n, A.slots name = some n → 0 ≤ free ∧ free ≤ n

def Assumption.SlotsOk (A : Assumption) (name : String) (slots : ℤ) : Prop :=
  ∀ n, A.slots name = some n → slots = n

structure MemberHash.Coherent (A : Assumption) (name : String) (m : MemberHash) :
    Prop where
  recordName : m.record.name = name
  state : m.record.state = m.state
  stateVersion : m.record.stateVersion = m.stateVersion
  fence : m.record.generationFence = m.generationFence
  slots : A.SlotsOk name m.configuredSlots
  recordSlots : A.SlotsOk name m.record.configuredSlots
  free : A.FreeOk name m.compatibleFreeSlots
  recordFree : A.FreeOk name (m.record.compatibleFreeSlots.getD 0)

/-- The store invariant. -/
structure Store.Coherent (A : Assumption) (s : Store) : Prop where
  job : ∀ {id h}, s.jobs id = some h → h.Coherent id s
  member : ∀ {name m}, s.members name = some m → m.Coherent A name
  attempt : ∀ id t, s.attempts id = some t → t.record.attemptId = id

/-! ## How a hash evolves -/

/-- One write over a job hash. -/
structure JobHash.Written (h h' : JobHash) : Prop where
  stateVersion : h'.stateVersion = h.stateVersion + 1
  basePriority : h'.record.basePriority = h.record.basePriority
  boundary : h.record.acceptedBoundaryCrossed = true →
    h'.record.acceptedBoundaryCrossed = true ∧ h'.state ≠ .queued

def JobHash.Le (h h' : JobHash) : Prop :=
  h' = h ∨ h.stateVersion < h'.stateVersion ∧
    h'.record.basePriority = h.record.basePriority ∧
    (h.record.acceptedBoundaryCrossed = true →
      h'.record.acceptedBoundaryCrossed = true ∧ h'.state ≠ .queued)

/-- A member that moves forward: a new version with a fence that is not smaller,
or the same version with the same fence and the same answer to whether the member
drains. -/
def MemberHash.Le (m m' : MemberHash) : Prop :=
  m.stateVersion < m'.stateVersion ∧ m.generationFence ≤ m'.generationFence ∨
    m'.stateVersion = m.stateVersion ∧ m'.generationFence = m.generationFence ∧
      (m'.state = .draining ↔ m.state = .draining)

namespace JobHash

variable {h h' h'' : JobHash}

theorem Written.le (hw : h.Written h') : h.Le h' :=
  Or.inr ⟨by rw [hw.stateVersion]; omega, hw.basePriority, hw.boundary⟩

theorem Le.refl (h : JobHash) : h.Le h := Or.inl rfl

theorem Le.trans (h₁ : h.Le h') (h₂ : h'.Le h'') : h.Le h'' := by
  rcases h₁ with rfl | ⟨hv₁, hb₁, hc₁⟩
  · exact h₂
  rcases h₂ with rfl | ⟨hv₂, hb₂, hc₂⟩
  · exact Or.inr ⟨hv₁, hb₁, hc₁⟩
  · exact Or.inr ⟨hv₁.trans hv₂, hb₂.trans hb₁, fun hc => hc₂ (hc₁ hc).1⟩

theorem Le.basePriority (hle : h.Le h') :
    h'.record.basePriority = h.record.basePriority := by
  rcases hle with rfl | ⟨-, hb, -⟩
  · rfl
  · exact hb

theorem Le.stateVersion_le (hle : h.Le h') : h.stateVersion ≤ h'.stateVersion := by
  rcases hle with rfl | ⟨hv, -, -⟩
  · exact le_rfl
  · exact hv.le

theorem Le.eq_of_stateVersion (hle : h.Le h')
    (hv : h.stateVersion = h'.stateVersion) : h' = h := by
  rcases hle with rfl | ⟨hlt, -, -⟩
  · rfl
  · omega

end JobHash

namespace MemberHash

variable {m m' m'' : MemberHash}

theorem Le.refl (m : MemberHash) : m.Le m := Or.inr ⟨rfl, rfl, Iff.rfl⟩

theorem Le.trans (h₁ : m.Le m') (h₂ : m'.Le m'') : m.Le m'' := by
  rcases h₁ with ⟨hv₁, hf₁⟩ | ⟨hv₁, hf₁, hd₁⟩ <;>
    rcases h₂ with ⟨hv₂, hf₂⟩ | ⟨hv₂, hf₂, hd₂⟩
  · exact Or.inl ⟨hv₁.trans hv₂, hf₁.trans hf₂⟩
  · exact Or.inl ⟨by rw [hv₂]; exact hv₁, by rw [hf₂]; exact hf₁⟩
  · exact Or.inl ⟨by rw [← hv₁]; exact hv₂, by rw [← hf₁]; exact hf₂⟩
  · exact Or.inr ⟨hv₂.trans hv₁, hf₂.trans hf₁, hd₂.trans hd₁⟩

theorem Le.stateVersion_le (hle : m.Le m') : m.stateVersion ≤ m'.stateVersion := by
  rcases hle with ⟨hv, -⟩ | ⟨hv, -, -⟩
  · exact hv.le
  · exact hv.ge

theorem Le.generationFence_le (hle : m.Le m') :
    m.generationFence ≤ m'.generationFence := by
  rcases hle with ⟨-, hf⟩ | ⟨-, hf, -⟩
  · exact hf
  · exact hf.ge

end MemberHash

structure Store.Le (A : Assumption) (s t : Store) : Prop where
  job : ∀ {id h}, s.jobs id = some h → ∃ h', t.jobs id = some h' ∧ h.Le h'
  member : ∀ {name m}, s.members name = some m →
    ∃ m', t.members name = some m' ∧ (A.fresh → m.Le m')

namespace Store.Le

variable {A : Assumption} {s t u : Store}

theorem refl (s : Store) : Store.Le A s s :=
  ⟨fun {_ h} hj => ⟨h, hj, .refl h⟩, fun {_ m} hm => ⟨m, hm, fun _ => .refl m⟩⟩

theorem trans (h₁ : Store.Le A s t) (h₂ : Store.Le A t u) : Store.Le A s u := by
  refine ⟨fun hj => ?_, fun hm => ?_⟩
  · obtain ⟨h', hj', hle⟩ := h₁.job hj
    obtain ⟨h'', hj'', hle'⟩ := h₂.job hj'
    exact ⟨h'', hj'', hle.trans hle'⟩
  · obtain ⟨m', hm', hle⟩ := h₁.member hm
    obtain ⟨m'', hm'', hle'⟩ := h₂.member hm'
    exact ⟨m'', hm'', fun hf => (hle hf).trans (hle' hf)⟩

theorem member_isSome (hle : Store.Le A s t) {name : String}
    (h : (s.members name).isSome) : (t.members name).isSome := by
  obtain ⟨m, hm⟩ := Option.isSome_iff_exists.mp h
  obtain ⟨m', hm', -⟩ := hle.member hm
  simp [hm']

end Store.Le

/-! ## What a client knows -/

/-- The job exists with the priority of this record, and the member the record
names exists. -/
structure Known (job : JobRecord) (s : Store) : Prop where
  stored : ∃ h, s.jobs job.jobId = some h ∧ h.record.basePriority = job.basePriority
  member : ∀ name, truthy job.selectedMember = some name → (s.members name).isSome

/-- The record was read from the store: the stored version is not older, and at
the same version the stored record is this one.  `peek_next` adjusts the
effective priority of what it read. -/
structure Copy (job : JobRecord) (s : Store) : Prop extends Known job s where
  read : ∀ h, s.jobs job.jobId = some h → job.stateVersion ≤ h.stateVersion ∧
    (job.stateVersion = h.stateVersion →
      h.record = { job with effectivePriority := h.record.effectivePriority })

structure MemberCopy (A : Assumption) (member : MemberSnapshot) (s : Store) :
    Prop where
  exists_le : ∃ m, s.members member.name = some m ∧ (A.fresh →
    member.stateVersion < m.stateVersion ∨
      member.stateVersion = m.stateVersion ∧
      member.generationFence = m.generationFence ∧
      (member.state = .draining ↔ m.state = .draining))
  slots : A.SlotsOk member.name member.configuredSlots
  free : A.FreeOk member.name (member.compatibleFreeSlots.getD 0)

section Knowledge

variable {A : Assumption} {s t : Store} {job : JobRecord} {member : MemberSnapshot} {h : JobHash}

theorem Known.of_le (hk : Known job s) (hle : Store.Le A s t) : Known job t := by
  obtain ⟨h, hj, hb⟩ := hk.stored
  obtain ⟨h', hj', hle'⟩ := hle.job hj
  exact ⟨⟨h', hj', hle'.basePriority.trans hb⟩,
    fun name hn => hle.member_isSome (hk.member name hn)⟩

theorem Copy.of_le (hc : Copy job s) (hle : Store.Le A s t) : Copy job t := by
  refine ⟨hc.toKnown.of_le hle, fun h' hj' => ?_⟩
  obtain ⟨h, hj, -⟩ := hc.stored
  obtain ⟨h'', hj'', hle'⟩ := hle.job hj
  obtain rfl : h'' = h' := by rw [hj''] at hj'; exact Option.some.inj hj'
  obtain ⟨hv, hsame⟩ := hc.read h hj
  refine ⟨hv.trans hle'.stateVersion_le, fun heq => ?_⟩
  have hvv : h.stateVersion = h''.stateVersion :=
    le_antisymm hle'.stateVersion_le (heq ▸ hv)
  obtain rfl := hle'.eq_of_stateVersion hvv
  exact hsame heq

theorem MemberCopy.of_le (hc : MemberCopy A member s) (hle : Store.Le A s t) :
    MemberCopy A member t := by
  refine ⟨?_, hc.slots, hc.free⟩
  obtain ⟨m, hm, hfresh⟩ := hc.exists_le
  obtain ⟨m', hm', hle'⟩ := hle.member hm
  refine ⟨m', hm', fun hf => ?_⟩
  rcases hfresh hf with hlt | ⟨hv, hg, hd⟩
  · exact Or.inl (hlt.trans_le (hle' hf).stateVersion_le)
  rcases hle' hf with ⟨hlt, -⟩ | ⟨hv', hg', hd'⟩
  · exact Or.inl (hv ▸ hlt)
  · exact Or.inr ⟨hv.trans hv'.symm, hg.trans hg'.symm, hd.trans hd'.symm⟩

/-- What `get` returns is a copy. -/
theorem Store.Coherent.copy_of_get (hI : s.Coherent A) {id : String}
    (hj : s.jobs id = some h) : Copy h.record s ∧ h.record.jobId = id := by
  have hcoh := hI.job hj
  have hid := hcoh.jobId
  refine ⟨⟨⟨⟨h, by rw [hid]; exact hj, rfl⟩, hcoh.member⟩, fun h' hj' => ?_⟩, hid⟩
  rw [hid, hj] at hj'
  obtain rfl := Option.some.inj hj'
  exact ⟨hcoh.stateVersion.le, fun _ => rfl⟩

theorem Store.Coherent.copy_of_getMember (hI : s.Coherent A) {name : String}
    {m : MemberHash} (hm : s.members name = some m) :
    MemberCopy A m.record s ∧ m.record.name = name := by
  have hcoh := hI.member hm
  have hname := hcoh.recordName
  refine ⟨⟨⟨m, by rw [hname]; exact hm, fun _ => Or.inr ⟨hcoh.stateVersion, hcoh.fence, ?_⟩⟩,
    ?_, ?_⟩, hname⟩
  · rw [hcoh.state]
  · rw [hname]
    exact hcoh.recordSlots
  · rw [hname]
    exact hcoh.recordFree

/-- At the version a copy was read, the stored record is the copy. -/
theorem Copy.record_eq (hc : Copy job s) (hj : s.jobs job.jobId = some h)
    (hv : h.stateVersion = job.stateVersion) :
    h.record = { job with effectivePriority := h.record.effectivePriority } :=
  (hc.read h hj).2 hv.symm

theorem Copy.boundary_eq (hc : Copy job s)
    (hj : s.jobs job.jobId = some h) (hv : h.stateVersion = job.stateVersion) :
    h.record.acceptedBoundaryCrossed = job.acceptedBoundaryCrossed := by
  rw [hc.record_eq hj hv]

theorem Known.basePriority_eq (hk : Known job s) (hj : s.jobs job.jobId = some h) :
    h.record.basePriority = job.basePriority := by
  obtain ⟨h', hj', hb⟩ := hk.stored
  rw [hj'] at hj
  exact Option.some.inj hj ▸ hb

end Knowledge

/-! ## What a client promises -/

/-- A reservation is built from a copy, for a member and an attempt with a name. -/
structure ReservePromise (A : Assumption) (a : Lua.ReserveArgs) (s : Store) : Prop where
  copy : Copy a.selected s
  slots : A.SlotsOk a.member.name a.member.configuredSlots
  member_ne : a.member.name ≠ ""
  attempt_ne : a.attemptId ≠ ""

/-- A requeue is built from copies of a job before its boundary, of the attempt it
names and of the member it names. -/
structure RequeuePromise (A : Assumption) (a : Lua.RequeueArgs) (s : Store) : Prop where
  copy : Copy a.current s
  boundary : a.current.acceptedBoundaryCrossed = false
  attemptId : truthy a.current.currentAttemptId = some a.attemptId
  attempt : a.attempt.attemptId = a.attemptId
  named : ∀ name, truthy a.current.selectedMember = some name →
    ∃ member, a.member = some member ∧ member.name = name
  member : ∀ member, a.member = some member → MemberCopy A member s

/-- A replacement never writes `queued` and never takes a crossed boundary back.
It is *not* promised to be built from a copy. -/
structure ReplacePromise (A : Assumption) (job : JobRecord) (s : Store) : Prop where
  replaces : A.replaces
  known : Known job s
  state : job.state ≠ .queued
  boundary : ∀ h, s.jobs job.jobId = some h → h.stateVersion = job.stateVersion - 1 →
    h.record.acceptedBoundaryCrossed = true → job.acceptedBoundaryCrossed = true

/-- A repair is built from a copy of a job and of the attempt it names. -/
structure RepairPromise (a : Lua.RepairArgs) (s : Store) : Prop where
  copy : Copy a.current s
  memberName : truthy a.current.selectedMember = some a.memberName
  attemptId : truthy a.current.currentAttemptId = some a.attempt.attemptId

/-- A lifecycle write is built from a copy of the member.  Only `begin_rejoin`
changes the generation, a release keeps the state, and only `complete_rejoin`
writes free slots that a caller supplied. -/
structure DrainPromise (A : Assumption) (a : Lua.DrainArgs) (s : Store) : Prop where
  copy : MemberCopy A a.current s
  name : a.updated.name = a.current.name
  slots : A.SlotsOk a.current.name a.updated.configuredSlots
  free : A.FreeOk a.current.name (a.updated.compatibleFreeSlots.getD 0)
  stateVersion : a.updated.stateVersion = a.current.stateVersion + 1
  fence : a.mode ≠ .beginRejoin →
    a.updated.generationFence = a.current.generationFence
  state : a.mode.isRelease = true → a.updated.state = a.current.state
  zero : a.mode ≠ .completeRejoin → a.updated.compatibleFreeSlots.getD 0 = 0

/-- A refresh carries a snapshot with the fixed slot count. -/
structure RefreshPromise (A : Assumption) (a : Lua.RefreshArgs) : Prop where
  slots : A.SlotsOk a.member.name a.member.configuredSlots
  busy : A.bounded → a.member.backendSlotsBusy = none →
    ∀ n, A.slots a.member.name = some n → a.member.compatibleFreeSlots.getD 0 ≤ n
  read : ∀ free, a.currentFree = some free → A.FreeOk a.member.name free

/-- What a client promises about a command when it executes it. -/
def Promise (A : Assumption) : Cmd → Store → Prop
  | .submitJob _ job, _ =>
    job.state = .queued ∧ job.acceptedBoundaryCrossed = false ∧
      job.selectedMember = none
  | .cancelQueued current _, s => Copy current s
  | .reserveJob a, s => ReservePromise A a s
  | .requeueClaim a, s => RequeuePromise A a s
  | .replaceJob job _ _, s => ReplacePromise A job s
  | .repairDeadJob a, s => RepairPromise a s
  | .memberDrain a, s => DrainPromise A a s
  | .refreshMemberMirror a, _ => RefreshPromise A a
  | _, _ => True

/-- A `put_member` snapshot that fits the stored member: the version and the state
are still the ones `put_member` read, a newer snapshot does not lower the fence or
clear a drain, and any other snapshot has the stored fence and neither clears nor
sets a drain.  An older snapshot cannot clear a drain, because `put_member` keeps
the drain fence then. -/
structure FreshSnapshot (a : Lua.RefreshArgs) (m : MemberHash) : Prop where
  version : a.currentStateVersion = some m.stateVersion
  state : a.currentState = some m.state
  newer : m.stateVersion < a.member.stateVersion →
    m.generationFence ≤ a.member.generationFence ∧
      (m.state = .draining → a.member.state = .draining)
  notNewer : a.member.stateVersion ≤ m.stateVersion →
    a.member.generationFence = m.generationFence ∧
      (m.state = .draining →
        a.member.stateVersion < m.stateVersion ∨ a.member.state = .draining) ∧
      (m.state ≠ .draining → a.member.state ≠ .draining)

instance (a : Lua.RefreshArgs) (m : MemberHash) : Decidable (FreshSnapshot a m) :=
  decidable_of_iff
    (a.currentStateVersion = some m.stateVersion ∧ a.currentState = some m.state ∧
      (m.stateVersion < a.member.stateVersion →
        m.generationFence ≤ a.member.generationFence ∧
          (m.state = .draining → a.member.state = .draining)) ∧
      (a.member.stateVersion ≤ m.stateVersion →
        a.member.generationFence = m.generationFence ∧
          (m.state = .draining →
            a.member.stateVersion < m.stateVersion ∨ a.member.state = .draining) ∧
          (m.state ≠ .draining → a.member.state ≠ .draining)))
    ⟨fun ⟨hv, hs, hn, ho⟩ => ⟨hv, hs, hn, ho⟩,
      fun ⟨hv, hs, hn, ho⟩ => ⟨hv, hs, hn, ho⟩⟩

/-- A fresh member write.  A `release_v2` that removes its lease finds the member
at the version it read, and `put_member` carries a snapshot that fits. -/
def FreshWrite : Cmd → Store → Prop
  | .memberDrain a, s =>
    a.mode = .releaseV2 → a.attemptId ∈ s.leases a.current.name →
      ∀ m ∈ s.members a.current.name, m.stateVersion = a.current.stateVersion
  | .refreshMemberMirror a, s => ∀ m ∈ s.members a.member.name, FreshSnapshot a m
  | _, _ => True

instance (c : Cmd) (s : Store) : Decidable (FreshWrite c s) := by
  cases c <;> unfold FreshWrite <;> infer_instance

end GpuManager.Broker
