import GpuManager.Broker.Clients

/-!
# Slots and leases of a member

A member with `N` configured slots carries a set of live leases and a mirror,
`compatible_free_slots`, of how many further reservations it can take.  The lease
set is the truth: `reserve_job.lua` counts it inside the script that adds to it,
so it can never outgrow the slots.

The mirror is written by five scripts.  Three of them recompute it from the lease
set or leave it alone.  `put_member` may take it from the snapshot of its caller,
and `requeue_claim` adds one to a value that Python read before the script ran:
`reserve_job.lua` lowers the mirror without raising the version that the requeue
compares, and a requeue of a lease that was already released gives the slot back a
second time.

The theorem of this module bounds the lease set in every run, and the mirror in
every run without those three inputs.
-/

namespace GpuManager.Broker

open AtomicProgram Lua Store Option Function Finset

/-- Every snapshot that a call supplies for the member has `N` slots.  A readiness
snapshot is written as it is, so its free slots are part of what the call
supplies. -/
def Op.SlotsConstant (name : String) (N : ℤ) : Op → Prop
  | .putMember member => member.name = name → member.configuredSlots = N
  | .reserveNext _ members _ _ _ _ =>
    ∀ c ∈ members, c.member.name = name → c.member.configuredSlots = N
  | .completeMemberRejoin _ _ readiness =>
    readiness.name = name → readiness.configuredSlots = N ∧
      0 ≤ readiness.compatibleFreeSlots.getD 0 ∧
      readiness.compatibleFreeSlots.getD 0 ≤ N
  | _ => True

/-- A `put_member` snapshot that reports no busy slots claims no more free slots
than the member has. -/
def Op.FreeFits (name : String) (N : ℤ) : Op → Prop
  | .putMember member => member.name = name → member.backendSlotsBusy = none →
      member.compatibleFreeSlots.getD 0 ≤ N
  | _ => True

/-- A `requeue_claim` that commits finds the lease it gives back, and has not read
more free slots than the member still has. -/
def RequeuesFresh (name : String) (e : Event Store Cmd) : Prop :=
  match e.cmd with
  | .requeueClaim a =>
    (requeueClaim a e.before).1 = .ok () →
      ∀ member ∈ a.member, member.name = name →
        a.attemptId ∈ e.before.leases name ∧
          ∀ m ∈ e.before.members name,
            member.compatibleFreeSlots.getD 0 ≤ m.compatibleFreeSlots
  | _ => True

instance (name : String) (e : Event Store Cmd) : Decidable (RequeuesFresh name e) := by
  unfold RequeuesFresh
  split <;> infer_instance

/-- The mirror lies between zero and the slots that no lease holds. -/
def Store.FreeBounded (name : String) (N : ℤ) (s : Store) : Prop :=
  ∀ m, s.members name = some m → 0 ≤ m.compatibleFreeSlots ∧
    m.compatibleFreeSlots ≤ N - (s.leases name).card

/-- The assumption that a call fixes the slots of one member. -/
def Assumption.fixedSlots (name : String) {N : ℤ} (hN : 0 < N) (bounded : Prop) :
    Assumption where
  slots := fun name' => if name' = name then some N else none
  slots_pos := by
    intro name' n h
    split at h
    · exact some.inj h ▸ hN
    · cases h
  bounded := bounded
  fresh := False
  replaces := True

section Admits

variable {name : String} {N : ℤ} (hN : 0 < N) {bounded : Prop}

theorem fixedSlots_self :
    (Assumption.fixedSlots name hN bounded).slots name = some N := if_pos rfl

/-- A property of the fixed slot count needs to be shown for the one member
only. -/
theorem forall_fixedSlots {name' : String} {P : ℤ → Prop} (h : name' = name → P N) :
    ∀ n, (Assumption.fixedSlots name hN bounded).slots name' = some n → P n := by
  intro n hn
  simp only [Assumption.fixedSlots] at hn
  split at hn
  · rename_i heq
    exact some.inj hn ▸ h heq
  · cases hn

theorem fixedSlots_admits {op : Op} (hconst : op.SlotsConstant name N)
    (hfits : bounded → op.FreeFits name N) :
    (Assumption.fixedSlots name hN bounded).Admits op := by
  cases op with
  | putMember member =>
    exact ⟨forall_fixedSlots hN hconst,
      fun hb hbusy => forall_fixedSlots hN fun hname => hfits hb hname hbusy⟩
  | reserveNext now members requirements owner token url =>
    exact fun c hc => forall_fixedSlots hN (hconst c hc)
  | completeMemberRejoin name' version readiness =>
    exact ⟨forall_fixedSlots hN fun hname => (hconst hname).1,
      fun _ => forall_fixedSlots hN fun hname => (hconst hname).2⟩
  | _ => trivial

end Admits

/-! ## The lease set -/

section Leases

variable {A : Assumption} {s : Store} {name : String} {N : ℤ}

/-- Only a reservation adds a lease. -/
theorem exec_leases_cases (c : Cmd) (s : Store) (name : String) :
    (exec c s).2.leases name ⊆ s.leases name ∨
      ∃ a h m, c = .reserveJob a ∧ a.member.name = name ∧ Reservable a h m s ∧
        (exec c s).2 = reserveCommit a h m s := by
  have hsrem : ∀ name' attempt, (s.srem name' attempt).leases name ⊆ s.leases name := by
    intro name' attempt
    by_cases hname : name = name'
    · subst hname
      simp [erase_subset]
    · simp [hname]
  have heffect := exec_effect c s
  generalize (exec c s).2 = t at heffect ⊢
  cases heffect with
  | @reserved a h m guards =>
    by_cases hname : a.member.name = name
    · exact Or.inr ⟨a, h, m, rfl, hname, guards, rfl⟩
    left
    have hne : name ≠ a.member.name := fun h => hname h.symm
    simp [reserveCommit, hne]
  | requeued found active member =>
    left
    rcases requeueMember_cases member with ⟨rfl, -⟩ | ⟨name', m, member, -, -, -, -, rfl⟩
    · exact subset_rfl
    · exact hsrem name' _
  | repaired =>
    left
    rw [repairCommit_leases]
    exact hsrem _ _
  | released => exact Or.inl (hsrem _ _)
  | _ => exact Or.inl subset_rfl

/-- The leases of a member: no more than its slots, and none without a member. -/
structure LeasesBounded (name : String) (N : ℤ) (s : Store) : Prop where
  card_le : ((s.leases name).card : ℤ) ≤ N
  owned : (s.leases name).Nonempty → (s.members name).isSome

/-- **One command.** -/
theorem exec_leasesBounded {c : Cmd} (hI : s.Coherent A) (hslots : A.slots name = some N)
    (hle : Le A s (exec c s).2) (hL : LeasesBounded name N s) :
    LeasesBounded name N (exec c s).2 := by
  rcases exec_leases_cases c s name with hsub | ⟨a, h, m, rfl, rfl, hr, heq⟩
  · refine ⟨?_, fun hne => hle.member_isSome (hL.owned (hne.mono hsub))⟩
    have hcard := card_le_card hsub
    have hbound := hL.card_le
    omega
  · have hm := slots_slotsOk (hI.member hr.member) N hslots
    have hroom := hr.room
    rw [heq]
    refine ⟨?_, fun _ => by simp [reserveCommit]⟩
    have hcard := card_insert_le a.attemptId (s.leases a.member.name)
    simp only [reserveCommit, putMemberHash_leases, sadd_leases,
      putAttempt_leases, putJob_leases, zrem_leases,
      update_self]
    omega

end Leases

/-! ## The free-slot mirror -/

section Mirror

variable {A : Assumption} {s : Store} {name : String} {N : ℤ} {a : DrainArgs}

def MirrorFits (name : String) (N : ℤ) (s : Store) : Prop :=
  ∀ m, s.members name = some m → m.compatibleFreeSlots + (s.leases name).card ≤ N

/-- Fewer leases and the same member. -/
theorem MirrorFits.of_subset {s' : Store} (hM : MirrorFits name N s)
    (hmembers : s'.members name = s.members name)
    (hleases : s'.leases name ⊆ s.leases name) : MirrorFits name N s' := by
  intro m hm
  rw [hmembers] at hm
  have hfits := hM m hm
  have hcard := card_le_card hleases
  omega

theorem reserveJob_mirrorFits {a : ReserveArgs} (hI : s.Coherent A)
    (hslots : A.slots name = some N) (hL' : LeasesBounded name N (reserveJob a s).2)
    (hM : MirrorFits name N s) : MirrorFits name N (reserveJob a s).2 := by
  rcases reserveJob_cases a s with ⟨-, heq⟩ | ⟨h, m, hr, heq⟩
  · rw [heq]
    exact hM
  rw [heq] at hL' ⊢
  by_cases hname : name = a.member.name
  · subst hname
    have hm := slots_slotsOk (hI.member hr.member) N hslots
    have hcard := hL'.card_le
    intro m' hm'
    simp only [reserveCommit, putMemberHash_members, update_self,
      some.injEq] at hm'
    subst hm'
    simp only [reserveCommit, putMemberHash_leases] at hcard ⊢
    omega
  · refine hM.of_subset ?_ ?_ <;> simp [reserveCommit, hname]

/-- A fresh requeue gives back the slot of one lease. -/
theorem requeueClaim_mirrorFits {a : RequeueArgs}
    (hp : RequeuePromise A a s) (hM : MirrorFits name N s)
    (hfresh : RequeuesFresh name ⟨.requeueClaim a, s⟩) :
    MirrorFits name N (requeueClaim a s).2 := by
  have hnames := hp.named
  rcases requeueClaim_cases a s with ⟨-, heq⟩ | ⟨h, s₁, t, -, -, -, hmember, -, heq⟩
  · rw [heq]
    exact hM
  have hcommit := hfresh (by rw [heq])
  rw [heq]
  rcases requeueMember_cases hmember with
    ⟨rfl, -⟩ | ⟨name', m, member, hsel, hm, hread, -, rfl⟩
  · exact hM.of_subset rfl subset_rfl
  obtain ⟨member', hread', hmname⟩ := hnames name' hsel
  obtain rfl : member = member' := by
    rw [hread] at hread'
    exact some.inj hread'
  by_cases hname : name = name'
  · subst hname
    obtain ⟨hlease, hfree⟩ := hcommit member hread hmname
    have hold := hM m hm
    have hle := hfree m hm
    have hcard : ((s.leases name).erase a.attemptId).card + 1 = (s.leases name).card :=
      card_erase_add_one hlease
    intro m' hm'
    simp only [requeueJob, releaseClaimedMember, putAttempt_members,
      putJob_members, zadd_members, putMemberHash_members,
      update_self, some.injEq] at hm'
    subst hm'
    simp only [requeueJob, releaseClaimedMember, RequeueArgs.newMember,
      putAttempt_leases, putJob_leases, zadd_leases,
      putMemberHash_leases, srem_leases, update_self,
      getD_some]
    omega
  · refine hM.of_subset ?_ ?_ <;> simp [requeueJob, releaseClaimedMember, hname]

/-- What a release writes leaves room for the leases that remain. -/
theorem releasedFree_add_le {live : ℕ} (hN : 0 < N)
    (hslots : a.current.configuredSlots = N) (hlive : (live : ℤ) ≤ N) :
    releasedFree a live + live ≤ N := by
  unfold releasedFree
  split
  · omega
  · rw [hslots, if_pos hN]
    omega

/-- A drain keeps the mirror within the slots that no lease holds. -/
theorem memberDrain_mirrorFits (hslots : A.slots name = some N)
    (hbounded : A.bounded) (hp : DrainPromise A a s)
    (hL : LeasesBounded name N s) (hM : MirrorFits name N s) :
    MirrorFits name N (memberDrain a s).2 := by
  obtain ⟨hcopy, -, -, hfree, -, -, -, hzero⟩ := hp
  rcases memberDrain_cases a s with ⟨-, heq⟩ | ⟨m, -, -, hguard, -, heq⟩
  · rw [heq]
    exact hM
  rw [heq]
  by_cases hname : name = a.current.name
  · subst hname
    have hpos := A.slots_pos _ _ hslots
    have hcard := hL.card_le
    by_cases hrelease : a.mode.isRelease = true
    · rw [if_pos hrelease]
      intro m' hm'
      have hlive : (releasedLive a s : ℤ) ≤ N := by
        have := card_le_card (erase_subset a.attemptId
          (s.leases a.current.name))
        unfold releasedLive
        omega
      have hfits := releasedFree_add_le hpos (hcopy.slots N hslots) hlive
      simp only [releaseCommit, putMemberHash_members, update_self,
        some.injEq] at hm'
      subst hm'
      simpa [releaseCommit, releasedLive] using hfits
    · rw [if_neg hrelease]
      intro m' hm'
      simp only [lifecycleCommit, putMemberHash_members, update_self,
        some.injEq] at hm'
      subst hm'
      simp only [lifecycleCommit, putMemberHash_leases]
      by_cases hmode : a.mode = .completeRejoin
      · -- A member that rejoins has no leases.
        have hempty : m.state = .joining ∧ s.leases a.current.name = ∅ := by
          simpa [DrainGuard, hmode] using hguard
        have hle := (hfree hbounded N hslots).2
        rw [hempty.2, card_empty]
        omega
      · rw [hzero hmode]
        omega
  · refine hM.of_subset ?_ ?_ <;> split <;> simp [releaseCommit, lifecycleCommit, hname]

theorem refreshMemberMirror_mirrorFits {a : RefreshArgs} (hI : s.Coherent A)
    (hslots : A.slots name = some N) (hbounded : A.bounded)
    (hp : RefreshPromise A a) (hL : LeasesBounded name N s)
    (hM : MirrorFits name N s) :
    MirrorFits name N (refreshMemberMirror a s).2 := by
  obtain ⟨hsnapshot, hbusy, hread⟩ := hp
  by_cases hname : name = a.member.name
  · subst hname
    have hinitial := (initialFree_freeOk (runtimeFree_freeOk hsnapshot hbusy) hread
      hbounded N hslots).2
    intro m' hm'
    simp only [refreshMemberMirror, putMemberHash_members, update_self,
      some.injEq] at hm'
    subst hm'
    simp only [refreshMemberMirror, putMemberHash_leases]
    unfold refreshedFree
    simp only
    rcases eq_empty_or_nonempty (s.leases a.member.name) with hempty | hne
    · rw [hempty, card_empty, if_neg (by simp)]
      omega
    -- With a live lease the stored value stays, and there is one.
    obtain ⟨m, hm⟩ := isSome_iff_exists.mp (hL.owned hne)
    have hfree := ((hI.member hm).free hbounded N hslots).1
    rw [hm, map_some, getD_some,
      if_pos ⟨card_pos.mpr hne, hfree⟩]
    exact hM m hm
  · refine hM.of_subset ?_ ?_
    · simp [refreshMemberMirror, hname]
    · simp [refreshMemberMirror]

/-- **One command.**  With bounded snapshots and fresh requeues the mirror keeps
leaving room for every lease. -/
theorem exec_mirrorFits {c : Cmd} (hI : s.Coherent A) (hslots : A.slots name = some N)
    (hbounded : A.bounded) (hp : Promise A c s) (hL : LeasesBounded name N s)
    (hL' : LeasesBounded name N (exec c s).2) (hfresh : RequeuesFresh name ⟨c, s⟩)
    (hM : MirrorFits name N s) : MirrorFits name N (exec c s).2 := by
  have hsubset : ∀ c : Cmd, c.writesMember = false → MirrorFits name N (exec c s).2 := by
    intro c hc
    refine hM.of_subset (congrFun (exec_members_eq hc) name) ?_
    rcases exec_leases_cases c s name with hsub | ⟨a, h, m, rfl, -⟩
    · exact hsub
    · cases hc
  cases c with
  | reserveJob a => exact reserveJob_mirrorFits hI hslots hL' hM
  | requeueClaim a => exact requeueClaim_mirrorFits hp hM hfresh
  | memberDrain a => exact memberDrain_mirrorFits hslots hbounded hp hL hM
  | refreshMemberMirror a =>
    exact refreshMemberMirror_mirrorFits hI hslots hbounded hp hL hM
  | _ => exact hsubset _ rfl

end Mirror

/-! ## Every run -/

section Runs

variable {name : String} {N : ℤ} (hN : 0 < N) {bounded : Prop}
  {labels : List BrokerLabel}

include hN in
theorem leasesBounded_of_constant
    (hconst : ∀ op, Label.start op ∈ labels → op.2.SlotsConstant name N) :
    LeasesBounded name N (broker.run idle labels).store := by
  let A := Assumption.fixedSlots name hN False
  refine broker.run_induction (LeasesBounded name N) ⟨by simpa [idle, empty] using hN.le,
    fun hne => by simp [idle, empty] at hne⟩ fun e he hL => ?_
  obtain ⟨hI, hp⟩ := broker_sound A
    (fun op hop => fixedSlots_admits hN (hconst op hop) fun hb => hb.elim)
    (fun hf => hf.elim) he
  have hle := ((discipline A).preserves e.cmd e.before hI hp fun hf => hf.elim).2
  exact exec_leasesBounded hI (fixedSlots_self hN) hle hL

end Runs

/-- **Slots.**  With a constant and positive slot count the live leases never
exceed the slots.  If moreover no snapshot without a busy report claims more free
slots than there are, and every committed requeue is fresh, then the mirror always
lies between zero and the slots that no lease holds. -/
theorem slots_bounded (name : String) (N : ℤ) (hN : 0 < N) (labels : List BrokerLabel)
    (hconst : ∀ op, Label.start op ∈ labels → op.2.SlotsConstant name N) :
    (∀ ls, ls <+: labels →
        (((broker.run idle ls).store.leases name).card : ℤ) ≤ N) ∧
      ((∀ op, Label.start op ∈ labels → op.2.FreeFits name N) →
        (∀ e ∈ broker.history idle labels, RequeuesFresh name e) →
        ∀ ls, ls <+: labels → (broker.run idle ls).store.FreeBounded name N) := by
  have hsub : ∀ {ls}, ls <+: labels →
      ∀ op, Label.start op ∈ ls → op.2.SlotsConstant name N :=
    fun hls op hop => hconst op (hls.subset hop)
  refine ⟨fun ls hls => (leasesBounded_of_constant hN (hsub hls)).card_le, ?_⟩
  intro hfits hfresh ls hls
  let A := Assumption.fixedSlots name hN True
  have hslots : A.slots name = some N := fixedSlots_self hN
  have hadmits : ∀ op, Label.start op ∈ ls → A.Admits op.2 := fun op hop =>
    fixedSlots_admits hN (hsub hls op hop) fun _ => hfits op (hls.subset hop)
  have hcoherent := (broker_le A (List.prefix_refl ls) hadmits fun hf => hf.elim).1
  -- Along the run: the leases stay within the slots and the mirror within the rest.
  have hmirror : LeasesBounded name N (broker.run idle ls).store ∧
      MirrorFits name N (broker.run idle ls).store := by
    refine broker.run_induction
      (fun s => LeasesBounded name N s ∧ MirrorFits name N s) ?_ fun e he hLM => ?_
    · refine ⟨⟨by simpa [idle, empty] using hN.le, fun hne => ?_⟩, fun m hm => ?_⟩
      · simp [idle, empty] at hne
      · simp [idle, empty] at hm
    · obtain ⟨hI, hp⟩ := broker_sound A hadmits (fun hf => hf.elim) he
      have hle := ((discipline A).preserves e.cmd e.before hI hp fun hf => hf.elim).2
      have hL' := exec_leasesBounded hI hslots hle hLM.1
      exact ⟨hL', exec_mirrorFits hI hslots trivial hp hLM.1 hL'
        (hfresh e (broker.mem_history_of_isPrefix hls he)) hLM.2⟩
  intro m hm
  have hfree := (hcoherent.member hm).free trivial N hslots
  have hfit := hmirror.2 m hm
  exact ⟨hfree.1, by omega⟩

namespace Deployment

/-- The claim is taken back right after the reservation. -/
def requeuedClaim : List BrokerLabel :=
  reserved ++ [call (.requeueClaim job.record .preAcceptanceRequeue none)] ++ acts 4 4

/-- The requeue of `requeuedClaim` is fresh. -/
theorem requeuedClaim_bounded :
    (∀ e ∈ broker.history idle requeuedClaim, RequeuesFresh "m" e) ∧
      ∀ ls, ls <+: requeuedClaim → (broker.run idle ls).store.FreeBounded "m" 1 := by
  have hfresh : ∀ e ∈ broker.history idle requeuedClaim, RequeuesFresh "m" e := by
    decide +kernel
  have hops : ∀ op, Label.start op ∈ requeuedClaim →
      op.2.SlotsConstant "m" 1 ∧ op.2.FreeFits "m" 1 := by
    intro op hop
    simp only [requeuedClaim, reserved, submitted, acts, call, List.mem_append,
      List.mem_cons, List.mem_replicate, List.not_mem_nil, Label.start.injEq,
      reduceCtorEq, and_false, or_false] at hop
    rcases hop with (((rfl | rfl) | rfl) | rfl) | rfl
    all_goals simp [Op.SlotsConstant, Op.FreeFits, member]
  exact ⟨hfresh, (slots_bounded "m" 1 one_pos requeuedClaim
    fun op hop => (hops op hop).1).2 (fun op hop => (hops op hop).2) hfresh⟩

def wideMember : MemberSnapshot := { member with configuredSlots := 2 }

/-- A requeue has read the member when a second reservation takes a slot. -/
def staleRequeue : List BrokerLabel :=
  [call (.acquireLeadership "d" 0 1000)] ++ acts 0 1 ++
    [call (.putMember wideMember)] ++ acts 1 6 ++
    [call (.submit job "s")] ++ acts 2 1 ++
    [call (.submit { job with jobId := "j2", idempotencyKey := "k2" } "s")] ++ acts 3 1 ++
    [call (.reserveNext 0 [⟨wideMember, "a", 0⟩] ⟨0, 0, ["chat"]⟩ "d" 1 none)] ++
    acts 4 5 ++ [call (.requeueClaim job.record .preAcceptanceRequeue none)] ++ acts 5 3 ++
    [call (.reserveNext 0 [⟨wideMember, "b", 0⟩] ⟨0, 0, ["chat"]⟩ "d" 1 none)] ++
    acts 6 5 ++ acts 5 1

/-- One lease is live and both slots are advertised as free. -/
theorem staleRequeue_not_bounded :
    (∀ op, Label.start op ∈ staleRequeue → op.2.SlotsConstant "m" 2) ∧
      ¬ ∀ ls, ls <+: staleRequeue → (broker.run idle ls).store.FreeBounded "m" 2 := by
  constructor
  · intro op hop
    simp only [staleRequeue, acts, call, List.mem_append, List.mem_cons,
      List.mem_replicate, List.not_mem_nil, Label.start.injEq, reduceCtorEq, and_false,
      or_false] at hop
    rcases hop with (((((rfl | rfl) | rfl) | rfl) | rfl) | rfl) | rfl
    all_goals simp [Op.SlotsConstant, wideMember]
  · intro hall
    have hfree : ((broker.run idle staleRequeue).store.members "m").map
        MemberHash.compatibleFreeSlots = some 2 := by
      decide +kernel
    have hlive : ((broker.run idle staleRequeue).store.leases "m").card = 1 := by
      decide +kernel
    obtain ⟨m, hm, hm2⟩ := map_eq_some_iff.mp hfree
    have hbound := (hall _ (List.prefix_refl _) m hm).2
    rw [hm2, hlive] at hbound
    norm_num at hbound

end Deployment

end GpuManager.Broker
