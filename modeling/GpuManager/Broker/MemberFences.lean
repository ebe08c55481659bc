import GpuManager.Broker.Clients

/-!
# What a version fence does for a member, and what it does not

A member carries two fences.  `state_version` is compared by the scripts that
reserve, requeue, drain and rejoin; `generation_fence` is raised when a drained
member comes back.  A third protection is a state: a member that drains is left
alone until the drain is completed.

Two writers compare nothing.  `release_v2` writes the state, version and
generation of the snapshot it read earlier, and `put_member` writes what it
computed from five separate reads and from a snapshot of its caller.  If another
client moved the member in between, both write the past back.

The theorem of this module says that this is all that can go wrong: in a run whose
`release_v2` and `put_member` writes are fresh (`FreshWrite`), both fences only
rise and a draining member leaves its state through `complete_member_drain` only.
-/

namespace GpuManager.Broker

open AtomicProgram Lua Option

/-- What is asked of the members of a run: neither fence ever decreases, and only
`complete_member_drain` ends a drain. -/
structure MembersFenced (labels : List BrokerLabel) : Prop where
  fences : ∀ ls₁ ls₂, ls₁ <+: ls₂ → ls₂ <+: labels → ∀ name m,
    (broker.run idle ls₁).store.members name = some m →
    ∃ m', (broker.run idle ls₂).store.members name = some m' ∧
      m.stateVersion ≤ m'.stateVersion ∧ m.generationFence ≤ m'.generationFence
  drain : ∀ ls l, ls ++ [l] <+: labels → ∀ name m,
    (broker.run idle ls).store.members name = some m → m.state = .draining →
    (∃ a, System.pending (broker.run idle ls) l = some (.memberDrain a) ∧
        a.mode = .complete ∧ a.current.name = name) ∨
      ∃ m', (broker.run idle (ls ++ [l])).store.members name = some m' ∧
        m'.state = .draining

section Drain

variable {A : Assumption} {s : Store}

variable {name : String} {m : MemberHash}

/-- A requeue of a draining member writes a draining member. -/
theorem requeueClaim_keeps_draining {a : RequeueArgs} (hp : RequeuePromise A a s) (hf : A.fresh)
    (hm : s.members name = some m) (hd : m.state = .draining) :
    ∃ m', (requeueClaim a s).2.members name = some m' ∧ m'.state = .draining := by
  obtain ⟨-, -, -, -, hnames, hcopies⟩ := hp
  rcases requeueClaim_cases a s with ⟨-, heq⟩ | ⟨h, s₁, t, -, -, -, hmember, -, heq⟩
  · rw [heq]
    exact ⟨m, hm, hd⟩
  rw [heq]
  rcases requeueMember_cases hmember with
    ⟨rfl, -⟩ | ⟨name', m', member, hsel, hm', hread, hv, rfl⟩
  · exact ⟨m, hm, hd⟩
  by_cases hname : name = name'
  · subst hname
    obtain rfl : m' = m := by rw [hm] at hm'; exact (some.inj hm').symm
    obtain ⟨member', hread', hmname⟩ := hnames name hsel
    obtain rfl : member = member' := by
      rw [hread] at hread'
      exact some.inj hread'
    refine ⟨_, by simp [requeueJob, releaseClaimedMember]; rfl, ?_⟩
    -- The snapshot was read at the stored version, so it drains as well.
    obtain ⟨m'', hm'', hrel⟩ := (hcopies member hread).exists_le
    obtain rfl : m' = m'' := by
      rw [hmname, hm] at hm''
      exact some.inj hm''
    rcases hrel hf with hlt | ⟨-, -, hdrain⟩
    · omega
    · exact hdrain.mpr hd
  · refine ⟨m, ?_, hd⟩
    simp [requeueJob, releaseClaimedMember, hname, hm]

/-- Of the lifecycle modes only `complete` ends a drain; a fresh release keeps
it. -/
theorem memberDrain_keeps_draining {a : DrainArgs} (hp : DrainPromise A a s) (hf : A.fresh)
    (hfresh : FreshWrite (.memberDrain a) s) (hm : s.members name = some m)
    (hd : m.state = .draining) :
    (a.mode = .complete ∧ a.current.name = name) ∨
      ∃ m', (memberDrain a s).2.members name = some m' ∧ m'.state = .draining := by
  obtain ⟨hcopy, -, -, -, -, -, hstate, -⟩ := hp
  rcases memberDrain_cases a s with ⟨-, heq⟩ | ⟨m', hm', hv, hguard, -, heq⟩
  · rw [heq]
    exact Or.inr ⟨m, hm, hd⟩
  rw [heq]
  by_cases hname : name = a.current.name
  · subst hname
    obtain rfl : m' = m := by rw [hm] at hm'; exact (some.inj hm').symm
    have hcurrent : a.mode.isRelease = true → a.current.state = .draining := by
      intro hrelease
      have hver : m'.stateVersion = a.current.stateVersion := by
        by_cases hmode : a.mode = .releaseV2
        · refine hfresh hmode ?_ m' hm
          simpa [DrainGuard, hmode] using hguard
        · exact hv hmode
      obtain ⟨m'', hm'', hrel⟩ := hcopy.exists_le
      obtain rfl : m' = m'' := by rw [hm] at hm''; exact some.inj hm''
      rcases hrel hf with hlt | ⟨-, -, hdrain⟩
      · omega
      · exact hdrain.mpr hd
    by_cases hrelease : a.mode.isRelease = true
    · rw [if_pos hrelease]
      refine Or.inr ⟨_, by simp [releaseCommit]; rfl, ?_⟩
      exact (hstate hrelease).trans (hcurrent hrelease)
    · -- The guard of every other mode but `complete` asks for another state.
      left
      unfold DrainGuard at hguard
      cases hmode : a.mode with
      | complete => exact ⟨rfl, rfl⟩
      | release | releaseV2 => simp [hmode, DrainMode.isRelease] at hrelease
      | begin | beginRejoin | completeRejoin => simp [hmode, hd] at hguard
  · refine Or.inr ⟨m, ?_, hd⟩
    split <;> simp [releaseCommit, lifecycleCommit, hname, hm]

theorem refreshMemberMirror_keeps_draining {a : RefreshArgs}
    (hfresh : FreshWrite (.refreshMemberMirror a) s) (hm : s.members name = some m)
    (hd : m.state = .draining) :
    ∃ m', (refreshMemberMirror a s).2.members name = some m' ∧
      m'.state = .draining := by
  by_cases hname : name = a.member.name
  · subst hname
    have hfits := hfresh m hm
    refine ⟨_, by simp [refreshMemberMirror]; rfl, ?_⟩
    have heff : a.effectiveVersion = max m.stateVersion a.member.stateVersion := by
      simp [RefreshArgs.effectiveVersion, hfits.version]
    have hsnapshot : a.member.stateVersion < m.stateVersion ∨
        a.member.state = .draining := by
      rcases lt_or_ge m.stateVersion a.member.stateVersion with hlt | hge
      · exact Or.inr ((hfits.newer hlt).2 hd)
      · exact (hfits.notNewer hge).2.1 hd
    change a.persistedState = .draining
    unfold RefreshArgs.persistedState RefreshArgs.preserveDrainFence
      RefreshArgs.preserveFaultFence
    rw [heff, hfits.version, hfits.state, hd]
    rcases hsnapshot with hold | hdrain
    · simp [hold]
    · simp [hdrain]
  · refine ⟨m, ?_, hd⟩
    simp [refreshMemberMirror, hname, hm]

/-- **One command.**  With fresh member writes only a completed drain ends a
drain. -/
theorem exec_keeps_draining {c : Cmd} (hp : Promise A c s) (hf : A.fresh) (hfresh : FreshWrite c s)
    (hm : s.members name = some m) (hd : m.state = .draining) :
    (∃ a : DrainArgs, c = .memberDrain a ∧ a.mode = .complete ∧
        a.current.name = name) ∨
      ∃ m', (exec c s).2.members name = some m' ∧ m'.state = .draining := by
  have hsame : (exec c s).2.members = s.members →
      ∃ m', (exec c s).2.members name = some m' ∧ m'.state = .draining :=
    fun heq => ⟨m, by rw [heq]; exact hm, hd⟩
  cases c with
  | reserveJob a =>
    refine Or.inr ?_
    rcases reserveJob_cases a s with ⟨-, heq⟩ | ⟨h, m', hr, heq⟩
    · exact hsame (congrArg Store.members heq)
    -- A draining member takes no reservation.
    have hne : name ≠ a.member.name := by
      rintro rfl
      have hready := hr.memberState
      rw [show m' = m from some.inj (hr.member.symm.trans hm), hd] at hready
      cases hready
    refine ⟨m, ?_, hd⟩
    simp [exec, heq, reserveCommit, hne, hm]
  | requeueClaim a => exact Or.inr (requeueClaim_keeps_draining hp hf hm hd)
  | memberDrain a =>
    rcases memberDrain_keeps_draining hp hf hfresh hm hd with hcomplete | hkept
    · exact Or.inl ⟨a, rfl, hcomplete⟩
    · exact Or.inr hkept
  | refreshMemberMirror a => exact Or.inr (refreshMemberMirror_keeps_draining hfresh hm hd)
  | _ => exact Or.inr (hsame (exec_members_eq rfl))

end Drain

/-- **Members.**  In every run whose member writes are fresh, neither fence ever
decreases and a drain ends only by being completed. -/
theorem members_fenced_of_fresh (labels : List BrokerLabel)
    (hfresh : ∀ e ∈ broker.history idle labels, FreshWrite e.cmd e.before) :
    MembersFenced labels := by
  have hadmits : ∀ (ls : List BrokerLabel) op, Label.start op ∈ ls →
      (Assumption.anySlots True).Admits op.2 :=
    fun _ op _ => Assumption.anySlots_admits _ op.2
  have hsub : ∀ {ls}, ls <+: labels → ∀ e ∈ broker.history idle ls,
      FreshWrite e.cmd e.before :=
    fun hls e he => hfresh e (broker.mem_history_of_isPrefix hls he)
  refine ⟨fun ls₁ ls₂ h₁ h₂ name m hm => ?_, fun ls l hls name m hm hd => ?_⟩
  · obtain ⟨-, hle⟩ := broker_le (.anySlots True) h₁ (hadmits ls₂) fun _ => hsub h₂
    obtain ⟨m', hm', hle'⟩ := hle.member hm
    exact ⟨m', hm', (hle' trivial).stateVersion_le, (hle' trivial).generationFence_le⟩
  · rw [System.run_concat_store]
    cases hp : System.pending (broker.run idle ls) l with
    | none => exact Or.inr ⟨m, hm, hd⟩
    | some c =>
      have hmem := broker.mem_history_of_pending hp
      have hpromise := (broker_sound (.anySlots True) (hadmits _)
        (fun _ => hsub hls) hmem).2
      rcases exec_keeps_draining hpromise trivial (hsub hls _ hmem) hm hd with
        ⟨a, rfl, hcomplete⟩ | hkept
      · exact Or.inl ⟨a, rfl, hcomplete⟩
      · exact Or.inr hkept

namespace Deployment

/-- The job is dispatched to its end, and the member is drained and comes back with
the next generation. -/
def drainedAndBack : List BrokerLabel :=
  reserved ++ [call (.dispatch 3 transport 1 2)] ++ acts 4 7 ++
    [call (.beginMemberDrain "m" 2)] ++ acts 5 2 ++
    [call (.completeMemberDrain "m" 3)] ++ acts 6 2 ++
    [call (.beginMemberRejoin "m" 4 1)] ++ acts 7 2 ++
    [call (.completeMemberRejoin "m" 5 member)] ++ acts 8 2

/-- All writes of `drainedAndBack` are fresh. -/
theorem drainedAndBack_fenced :
    (∀ e ∈ broker.history idle drainedAndBack, FreshWrite e.cmd e.before) ∧
      MembersFenced drainedAndBack := by
  have hfresh : ∀ e ∈ broker.history idle drainedAndBack, FreshWrite e.cmd e.before := by
    decide +kernel
  exact ⟨hfresh, members_fenced_of_fresh drainedAndBack hfresh⟩

/-- A release has read the member when a drain begins. -/
def drainDuringRelease : List BrokerLabel :=
  reserved ++ [call (.releaseMemberLease "m" "a" 1 false)] ++ acts 4 1 ++
    [call (.beginMemberDrain "m" 1)] ++ acts 5 2

/-- The release then writes the member back as ready, and the drain is lost. -/
theorem drainDuringRelease_not_fenced :
    ¬ MembersFenced (drainDuringRelease ++ [.act 4]) := by
  intro hfenced
  have hdraining : ((broker.run idle drainDuringRelease).store.members "m").map
      MemberHash.state = some .draining := by
    decide +kernel
  have hready : ((broker.run idle (drainDuringRelease ++ [.act 4])).store.members "m").map
      MemberHash.state = some .readyAccepting := by
    decide +kernel
  have hmode : ∀ a, System.pending (broker.run idle drainDuringRelease)
      (.act 4 : BrokerLabel) = some (.memberDrain a) → a.mode = .releaseV2 := by
    intro a hpending
    have hcmd : (System.pending (broker.run idle drainDuringRelease)
        (.act 4 : BrokerLabel)).map (fun c => match c with
          | .memberDrain a => decide (a.mode = .releaseV2)
          | _ => true) = some true := by
      decide +kernel
    rw [hpending] at hcmd
    simpa using hcmd
  obtain ⟨m, hm, hd⟩ := map_eq_some_iff.mp hdraining
  rcases hfenced.drain drainDuringRelease (.act 4) (List.prefix_refl _) "m" m hm hd with
    ⟨a, hpending, hcomplete, -⟩ | ⟨m', hm', hd'⟩
  · rw [hmode a hpending] at hcomplete
    cases hcomplete
  · rw [hm', map_some, hd'] at hready
    cases hready

end Deployment

end GpuManager.Broker
