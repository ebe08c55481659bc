import GpuManager.Broker.Mirror

/-!
# The two copies agree while the numbers fit

The record of a member is encoded by `cjson`, the top-level fields are the texts
of the arguments.  Below `10 ^ 14` the two ways end in the same integer, and every
call keeps the copies equal: `MirrorStore.run_coherent`.  From there on the record
holds a float, which no reader takes for a fence: `rejoin_readable_iff`.

* `Small`: the numbers that survive, and are no negative count.
* `Mirrored`, `Coherent`: the invariant of one hash, and of the store.
* `MirrorCall.Within`: what a call must stay below.
-/

namespace GpuManager.Broker

open MirrorStore StoredMember Number Option

/-! ## Small numbers -/

/-- A number that both copies keep. -/
def Small (n : ℤ) : Prop := 0 ≤ n ∧ n < printable

instance (n : ℤ) : Decidable (Small n) := inferInstanceAs (Decidable (_ ∧ _))

section Small

variable {n k : ℤ}

theorem Small.natAbs_lt (h : Small n) : n.natAbs < printable := by
  obtain ⟨hlo, hhi⟩ := h
  omega

@[simp] theorem small_zero : Small 0 := ⟨le_refl 0, by decide⟩

theorem Small.double_eq (h : Small n) : double n = n :=
  GpuManager.double_eq (h.natAbs_lt.trans (by decide))

theorem Small.throughLua_eq (h : Small n) : throughLua n = .int n :=
  throughLua_eq_int h.natAbs_lt

theorem Small.printed_eq (h : Small n) : printed n = .int n := printed_of_lt h.natAbs_lt

theorem Small.of_le (h : Small n) (hlo : 0 ≤ k) (hle : k ≤ n) : Small k :=
  ⟨hlo, hle.trans_lt h.2⟩

end Small

/-! ## One member -/

/-- The four numbers of a member are small integers; the free slots may be
`None`. -/
structure Whole (m : StoredMember) : Prop where
  version : ∃ v, Small v ∧ m.stateVersion = .int v
  fence : ∃ f, Small f ∧ m.generationFence = .int f
  free : m.compatibleFreeSlots = none ∨ ∃ x, Small x ∧ m.compatibleFreeSlots = some (.int x)
  configured : ∃ c, Small c ∧ m.configuredSlots = .int c

/-- The top-level text of the free slots says what the record says. -/
def SameFree (record : Option Number) (text : Option Number) : Prop :=
  ∃ x, Small x ∧ text = some (.int x) ∧ (record = some (.int x) ∨ record = none ∧ x = 0)

/-- **The copies agree.** -/
structure Mirrored (name : String) (h : MirrorHash) : Prop where
  named : h.record.rest.name = name
  whole : Whole h.record
  state : h.record.rest.state = h.state
  accepting : h.record.rest.accepting = h.accepting
  version : h.record.stateVersion = h.stateVersion
  fence : h.record.generationFence = h.generationFence
  free : SameFree h.record.compatibleFreeSlots h.compatibleFreeSlots
  configured : ∃ c, Small c ∧ h.configuredSlots = .int c

namespace Whole

variable {m : StoredMember}

theorem wellFenced (h : Whole m) : m.wellFenced = true := by
  obtain ⟨f, hf, heq⟩ := h.fence
  simp [StoredMember.wellFenced, heq, hf.1]

/-- Lua keeps the four numbers. -/
theorem throughLua (h : Whole m) :
    m.throughLua.stateVersion = m.stateVersion ∧
      m.throughLua.generationFence = m.generationFence ∧
      m.throughLua.compatibleFreeSlots = m.compatibleFreeSlots ∧
      m.throughLua.configuredSlots = m.configuredSlots := by
  obtain ⟨v, hv, hversion⟩ := h.version
  obtain ⟨f, hf, hfence⟩ := h.fence
  obtain ⟨c, hc, hconfigured⟩ := h.configured
  refine ⟨?_, ?_, ?_, ?_⟩
  · simp [StoredMember.throughLua, hversion, hv.throughLua_eq]
  · simp [StoredMember.throughLua, hfence, hf.throughLua_eq]
  · rcases h.free with hfree | ⟨x, hx, hfree⟩
    · simp [StoredMember.throughLua, hfree]
    · simp [StoredMember.throughLua, hfree, hx.throughLua_eq]
  · simp [StoredMember.throughLua, hconfigured, hc.throughLua_eq]

theorem through (h : Whole m) : Whole m.throughLua := by
  obtain ⟨hversion, hfence, hfree, hconfigured⟩ := h.throughLua
  exact ⟨hversion ▸ h.version, hfence ▸ h.fence, hfree ▸ h.free, hconfigured ▸ h.configured⟩

theorem succ (h : Whole m) (hnext : m.stateVersion.value + 1 < printable) :
    ∃ v, Small v ∧ m.stateVersion.add 1 = .int v := by
  obtain ⟨v, hv, heq⟩ := h.version
  rw [heq] at hnext
  refine ⟨v + 1, ⟨?_, hnext⟩, by rw [heq]; rfl⟩
  have := hv.1
  omega

end Whole

namespace MirrorStore

/-- All copies agree. -/
def Coherent (s : MirrorStore) : Prop := ∀ name h, s.members name = some h → Mirrored name h

theorem coherent_empty : empty.Coherent := fun _ _ h => absurd h (by simp [empty])

variable {s : MirrorStore} {name : String}

variable {h : MirrorHash} {a : DrainCall} {next : Except BrokerError StoredMember × MirrorStore}

theorem Coherent.put (hs : s.Coherent) (hm : Mirrored name h) : (s.put name h).Coherent := by
  intro other h' hother
  by_cases hname : other = name
  · subst hname
    obtain rfl : h = h' := by simpa using hother
    exact hm
  · exact hs other h' (by simpa [hname] using hother)

theorem Coherent.srem (hs : s.Coherent) (name attempt : String) : (s.srem name attempt).Coherent :=
  hs

theorem Coherent.sadd (hs : s.Coherent) (name attempt : String) : (s.sadd name attempt).Coherent :=
  hs

/-! ## The commits -/

/-- A record that goes through `cjson` beside its own numbers as arguments. -/
theorem mirrored_written {m : StoredMember} (hm : Whole m) (hnamed : m.rest.name = name)
    (hconfigured : ∃ c, Small c ∧ h.configuredSlots = .int c) {text : Option Number}
    (hfree : SameFree m.compatibleFreeSlots text) :
    Mirrored name
      { h with
        record := m.throughLua
        state := m.rest.state
        accepting := m.rest.accepting
        compatibleFreeSlots := text
        stateVersion := m.stateVersion
        generationFence := m.generationFence } where
  named := hnamed
  whole := hm.through
  state := rfl
  accepting := rfl
  version := hm.throughLua.1
  fence := hm.throughLua.2.1
  free := by rw [hm.throughLua.2.2.1]; exact hfree
  configured := hconfigured

theorem lifecycleCommit_coherent (hs : s.Coherent) (hh : s.members a.current.rest.name = some h)
    (hupdated : Whole a.updated) (hnamed : a.updated.rest.name = a.current.rest.name) :
    (lifecycleCommit a h s).2.Coherent := by
  have hfree : SameFree a.updated.compatibleFreeSlots (some (freeOrZero a.updated)) := by
    unfold freeOrZero
    rcases hupdated.free with hnone | ⟨x, hx, hsome⟩
    · rw [hnone]
      exact ⟨0, small_zero, rfl, Or.inr ⟨rfl, rfl⟩⟩
    · rw [hsome]
      exact ⟨x, hx, rfl, Or.inl rfl⟩
  unfold lifecycleCommit
  split
  · exact hs
  · exact hs.put (mirrored_written hupdated hnamed (hs _ h hh).configured hfree)

/-- What a release computes from small slots is small. -/
theorem small_releasedFree (hcurrent : Whole a.current)
    (hfree : a.updated.compatibleFreeSlots = some (.int 0)) (live : ℕ) :
    Small (releasedFree a live) := by
  obtain ⟨c, hc, hconfigured⟩ := hcurrent.configured
  unfold releasedFree
  simp only [hconfigured, value_int, hc.double_eq, freeOrZero, hfree, getD_some,
    small_zero.double_eq]
  split
  · exact small_zero
  split
  · refine hc.of_le ?_ (min_le_left _ _)
    exact le_min hc.1 (le_min (le_max_left _ _) (le_max_left _ _))
  · exact small_zero

theorem releaseCommit_coherent (hs : s.Coherent) (hh : s.members a.current.rest.name = some h)
    (hcurrent : Whole a.current) (hupdated : Whole a.updated)
    (hnamed : a.updated.rest.name = a.current.rest.name)
    (hfree : a.updated.compatibleFreeSlots = some (.int 0)) : (releaseCommit a h s).2.Coherent := by
  have hsmall := small_releasedFree hcurrent hfree
    ((s.srem a.current.rest.name a.attemptId).leases a.current.rest.name).card
  unfold releaseCommit
  dsimp only
  split
  · exact hs.srem _ _
  rw [hsmall.printed_eq]
  refine (hs.srem _ _).put (@mirrored_written _ h
    { a.updated with
      rest :=
        { a.updated.rest with
          dispatcherLeases :=
            ((s.srem a.current.rest.name a.attemptId).leases a.current.rest.name).card }
      compatibleFreeSlots := some (.int (releasedFree a _)) }
    ⟨hupdated.version, hupdated.fence, Or.inr ⟨_, hsmall, rfl⟩, hupdated.configured⟩ hnamed
    (hs _ h hh).configured _ ⟨_, hsmall, rfl, Or.inl rfl⟩)

/-- `_commit_member_drain` leaves the store or makes one of the two commits. -/
theorem commitMemberDrain_store (a : DrainCall) (s : MirrorStore) :
    (commitMemberDrain a s).2 = s ∨ ∃ h, s.members a.current.rest.name = some h ∧
      ((commitMemberDrain a s).2 = (lifecycleCommit a h s).2 ∨
        (a.mode = .release ∨ a.mode = .releaseV2) ∧
          (commitMemberDrain a s).2 = (releaseCommit a h s).2) := by
  unfold commitMemberDrain
  dsimp only
  cases hh : s.members a.current.rest.name with
  | none => exact Or.inl rfl
  | some h =>
    dsimp only
    split
    · exact Or.inl rfl
    split
    · exact Or.inl rfl
    cases hmode : a.mode <;> dsimp only <;> repeat' split
    all_goals first
      | exact Or.inl (by with_reducible rfl)
      | exact Or.inr ⟨h, rfl, Or.inl (by with_reducible rfl)⟩
      | exact Or.inr ⟨h, rfl, Or.inr ⟨by simp, by with_reducible rfl⟩⟩

theorem commitMemberDrain_coherent (hs : s.Coherent) (hcurrent : Whole a.current)
    (hupdated : Whole a.updated) (hnamed : a.updated.rest.name = a.current.rest.name)
    (hfree : a.mode = .release ∨ a.mode = .releaseV2 →
      a.updated.compatibleFreeSlots = some (.int 0)) : (commitMemberDrain a s).2.Coherent := by
  rcases commitMemberDrain_store a s with heq | ⟨h, hh, heq | ⟨hmode, heq⟩⟩ <;> rw [heq]
  · exact hs
  · exact lifecycleCommit_coherent hs hh hupdated hnamed
  · exact releaseCommit_coherent hs hh hcurrent hupdated hnamed (hfree hmode)

/-! ## The lifecycle calls -/

theorem withMember_coherent (hs : s.Coherent)
    {next : StoredMember → Except BrokerError StoredMember × MirrorStore}
    (hnext : ∀ h, s.members name = some h → (next h.record).2.Coherent) :
    (withMember name next s).2.Coherent := by
  unfold withMember getMember
  cases hh : s.members name with
  | none => exact hs
  | some h =>
    dsimp only
    split
    · exact hs
    · next heq => split at heq <;> simp at heq
    next current heq =>
      split at heq
      · obtain rfl : h.record = current := by simpa using heq
        exact hnext h hh
      · simp at heq

theorem atVersion_coherent (hs : s.Coherent) {current : StoredMember} {expected : ℤ}
    (hnext : next.2.Coherent) :
    (atVersion current expected s next).2.Coherent := by
  unfold atVersion
  split
  · exact hs
  · exact hnext

theorem afterTransition_coherent (hs : s.Coherent) {current target : MemberState}
    (hnext : next.2.Coherent) :
    (afterTransition current target s next).2.Coherent := by
  unfold afterTransition
  split
  · exact hnext
  · exact hs

/-- The version of a member has a successor that is still small. -/
def Advances (name : String) (s : MirrorStore) : Prop :=
  ∀ h, s.members name = some h → h.stateVersion.value + 1 < printable

instance (name : String) (s : MirrorStore) : Decidable (s.Advances name) :=
  match hh : s.members name with
  | none => .isTrue fun _ h => absurd (hh.symm.trans h) (by simp)
  | some h =>
    decidable_of_iff (h.stateVersion.value + 1 < printable)
      ⟨fun hlt _ h' => some.inj (hh.symm.trans h') ▸ hlt, fun hall => hall h hh⟩

section

variable (hs : s.Coherent) (hnext : s.Advances name)
include hs hnext

theorem Coherent.succ (hh : s.members name = some h) :
    ∃ v, Small v ∧ h.record.stateVersion.add 1 = .int v := by
  refine (hs name h hh).whole.succ ?_
  rw [(hs name h hh).version]
  exact hnext h hh

theorem beginMemberDrain_coherent (version : ℤ) : (s.beginMemberDrain name version).2.Coherent := by
  unfold beginMemberDrain
  refine withMember_coherent hs fun h hh => atVersion_coherent hs ?_
  split
  · exact hs
  refine afterTransition_coherent hs (commitMemberDrain_coherent hs (hs name h hh).whole
    ⟨hs.succ hnext hh, (hs name h hh).whole.fence, Or.inr ⟨0, small_zero, rfl⟩,
      (hs name h hh).whole.configured⟩ rfl fun _ => rfl)

theorem completeMemberDrain_coherent (version : ℤ) :
    (s.completeMemberDrain name version).2.Coherent := by
  unfold completeMemberDrain
  refine withMember_coherent hs fun h hh => atVersion_coherent hs <| afterTransition_coherent hs ?_
  exact commitMemberDrain_coherent hs (hs name h hh).whole
    ⟨hs.succ hnext hh, (hs name h hh).whole.fence, Or.inr ⟨0, small_zero, rfl⟩,
      (hs name h hh).whole.configured⟩ rfl fun _ => rfl

theorem releaseMemberLease_coherent (attemptId : String) (claimed : ℤ) (enforce : Bool) :
    (s.releaseMemberLease name attemptId claimed enforce).2.Coherent := by
  unfold releaseMemberLease
  refine withMember_coherent hs fun h hh => ?_
  exact commitMemberDrain_coherent hs (hs name h hh).whole
    ⟨hs.succ hnext hh, (hs name h hh).whole.fence, Or.inr ⟨0, small_zero, rfl⟩,
      (hs name h hh).whole.configured⟩ rfl fun _ => rfl

variable {fence free : ℤ}

theorem beginMemberRejoin_coherent (version : ℤ) (hfence : fence < printable) :
    (s.beginMemberRejoin name version fence).2.Coherent := by
  unfold beginMemberRejoin
  refine withMember_coherent hs fun h hh => atVersion_coherent hs ?_
  split
  · exact hs
  next hlater =>
    obtain ⟨f, hf, heq⟩ := (hs name h hh).whole.fence
    have hsmall : Small fence := by
      rw [heq, value_int] at hlater
      have := hf.1
      exact ⟨by omega, hfence⟩
    exact afterTransition_coherent hs (commitMemberDrain_coherent hs (hs name h hh).whole
      ⟨hs.succ hnext hh, ⟨fence, hsmall, rfl⟩, Or.inr ⟨0, small_zero, rfl⟩,
        (hs name h hh).whole.configured⟩ rfl fun _ => rfl)

end

structure SmallSlots (m : MemberSnapshot) : Prop where
  configured : Small m.configuredSlots
  free : ∀ x, m.compatibleFreeSlots = some x → Small x

instance (m : MemberSnapshot) : Decidable (SmallSlots m) :=
  decidable_of_iff (Small m.configuredSlots ∧ ∀ x ∈ m.compatibleFreeSlots, Small x)
    ⟨fun h => ⟨h.1, fun x hx => h.2 x hx⟩, fun h => ⟨h.configured, fun x hx => h.free x hx⟩⟩

theorem completeMemberRejoin_coherent (hs : s.Coherent) (hnext : s.Advances name) (version : ℤ)
    {readiness : MemberSnapshot} (hsmall : SmallSlots readiness) :
    (s.completeMemberRejoin name version (.ofSnapshot readiness)).2.Coherent := by
  unfold completeMemberRejoin
  refine withMember_coherent hs fun h hh => atVersion_coherent hs ?_
  split
  · exact hs
  next hname =>
    split
    · exact hs
    split
    · exact hs
    have hfree : (ofSnapshot readiness).compatibleFreeSlots = none ∨
        ∃ x, Small x ∧
          (ofSnapshot readiness).compatibleFreeSlots = some (.int x) := by
      cases hx : readiness.compatibleFreeSlots with
      | none => exact Or.inl (by simp [ofSnapshot, hx])
      | some x =>
        exact Or.inr ⟨x, hsmall.free x hx, by simp [ofSnapshot, hx]⟩
    refine afterTransition_coherent hs (commitMemberDrain_coherent hs (hs name h hh).whole
      ⟨hs.succ hnext hh, (hs name h hh).whole.fence, hfree,
        ⟨_, hsmall.configured, rfl⟩⟩ ?_ fun hmode => by simp at hmode)
    exact (not_not.mp hname).trans (hs name h hh).named.symm

/-! ## The refresh -/

structure SmallMember (m : MemberSnapshot) : Prop where
  configured : Small m.configuredSlots
  version : m.stateVersion < printable
  fence : m.generationFence < printable
  total : m.configuredSlots = 0 → ∀ n, m.backendSlotsTotal = some n → n < printable
  free : ∀ x, m.compatibleFreeSlots = some x → x < printable

instance (m : MemberSnapshot) : Decidable (SmallMember m) :=
  decidable_of_iff (Small m.configuredSlots ∧ m.stateVersion < printable ∧
      m.generationFence < printable ∧
      (m.configuredSlots = 0 → ∀ n ∈ m.backendSlotsTotal, n < printable) ∧
      ∀ x ∈ m.compatibleFreeSlots, x < printable)
    ⟨fun h => ⟨h.1, h.2.1, h.2.2.1, fun hz n hn => h.2.2.2.1 hz n hn, fun x hx => h.2.2.2.2 x hx⟩,
      fun h => ⟨h.configured, h.version, h.fence, fun hz n hn => h.total hz n hn,
        fun x hx => h.free x hx⟩⟩

variable {member : MemberSnapshot}

theorem Coherent.currentFree (hs : s.Coherent)
    (h : (refreshArgs (.ofSnapshot member) s).currentFree = some free) : Small free := by
  obtain ⟨m, hm, hfree⟩ := bind_eq_some_iff.mp h
  obtain ⟨x, hx, htext, -⟩ := (hs _ m hm).free
  rw [htext] at hfree
  obtain rfl : x = free := by simpa using hfree
  exact hx

theorem Coherent.effectiveVersion (hs : s.Coherent) (hsmall : SmallMember member) :
    Small (refreshArgs (.ofSnapshot member) s).effectiveVersion := by
  have hcurrent : Small ((refreshArgs (.ofSnapshot member) s).currentStateVersion.getD 0) := by
    unfold refreshArgs
    dsimp only
    cases hm : s.members (ofSnapshot member).rest.name with
    | none => exact small_zero
    | some m =>
      obtain ⟨v, hv, hversion⟩ := (hs _ m hm).whole.version
      rw [bind_some, ← (hs _ m hm).version, hversion]
      exact hv
  have hversion : (refreshArgs (.ofSnapshot member) s).member.stateVersion < printable :=
    hsmall.version
  exact ⟨hcurrent.1.trans (le_max_left _ _), max_lt hcurrent.2 hversion⟩

theorem small_derived {configured busy live : ℤ} {total : Option ℤ} (hhi : configured < printable) :
    Small (Lua.deriveCompatibleFreeSlots configured total busy live) := by
  unfold Lua.deriveCompatibleFreeSlots
  dsimp only
  split
  · exact small_zero
  have hle : max 0 configured < printable := max_lt (by decide) hhi
  refine ⟨?_, (min_le_left _ _).trans_lt hle⟩
  exact le_min (le_max_left _ _) (le_min (le_max_left _ _) (le_max_left _ _))

theorem small_runtimeFree (hsmall : SmallMember member) :
    Small (refreshArgs (.ofSnapshot member) s).runtimeFree := by
  have hfree : Small (max 0 (member.compatibleFreeSlots.getD 0)) := by
    refine ⟨le_max_left _ _, max_lt (by decide) ?_⟩
    cases hx : member.compatibleFreeSlots with
    | none => exact small_zero.2
    | some x => exact hsmall.free x hx
  have hvalue : (refreshArgs (.ofSnapshot member) s).member.compatibleFreeSlots =
      member.compatibleFreeSlots := by
    simp [refreshArgs, snapshot, ofSnapshot, Function.comp_def]
  have hconfigured : (refreshArgs (.ofSnapshot member) s).configured < printable := by
    unfold Lua.RefreshArgs.configured
    split
    · next hle =>
        have hzero : member.configuredSlots = 0 := le_antisymm hle hsmall.configured.1
        show member.backendSlotsTotal.getD member.configuredSlots < printable
        cases hn : member.backendSlotsTotal with
        | none => exact hsmall.configured.2
        | some n => exact hsmall.total hzero n hn
    · exact hsmall.configured.2
  unfold Lua.RefreshArgs.runtimeFree
  rw [hvalue]
  split
  · split
    · exact small_derived hconfigured
    · exact hfree
  · exact hfree

theorem Coherent.initialFree (hs : s.Coherent) (hsmall : SmallMember member) :
    Small (refreshArgs (.ofSnapshot member) s).initialFree := by
  unfold Lua.RefreshArgs.initialFree
  split
  · exact small_runtimeFree hsmall
  split
  · exact small_runtimeFree hsmall
  next free hfree =>
    split
    · exact small_runtimeFree hsmall
    · exact hs.currentFree hfree

theorem Coherent.refreshedFree (hs : s.Coherent) {requested : ℤ} (hrequested : Small requested)
    (h : MirrorStore.refreshedFree name requested s = some free) : Small free := by
  unfold MirrorStore.refreshedFree at h
  split at h
  · obtain rfl : requested = free := by simpa [hrequested.double_eq] using h
    exact hrequested
  split at h
  · obtain rfl : requested = free := by simpa [hrequested.double_eq] using h
    exact hrequested
  next m hm =>
    obtain ⟨x, hx, htext, -⟩ := (hs _ m hm).free
    rw [htext, map_some, value_int, hx.double_eq, if_pos hx.1,
      some_inj] at h
    exact h ▸ hx

/-- A small snapshot is written alike into both copies. -/
theorem putMember_coherent (hs : s.Coherent) (hsmall : SmallMember member) :
    (s.putMember (.ofSnapshot member)).2.Coherent := by
  unfold putMember
  dsimp only
  split
  · exact hs
  next free hfree =>
    have hx := hs.refreshedFree (hs.initialFree hsmall) hfree
    split
    · exact hs
    rw [hx.printed_eq]
    simp only [parsed_int]
    have hfence : Small member.generationFence := ⟨Int.natCast_nonneg _, by
      exact_mod_cast hsmall.fence⟩
    have hconfigured : ∃ c, Small c ∧
        throughLua (ofSnapshot member).configuredSlots.value = .int c :=
      ⟨_, hsmall.configured, hsmall.configured.throughLua_eq⟩
    refine hs.put ?_
    exact @mirrored_written member.name
      ⟨.ofSnapshot member, .offline, false, .int 0, .int 0, none,
        throughLua (ofSnapshot member).configuredSlots.value⟩
      { recordMember (.ofSnapshot member) (refreshArgs (.ofSnapshot member) s) with
        rest :=
          { (recordMember (.ofSnapshot member) (refreshArgs (.ofSnapshot member) s)).rest with
            dispatcherLeases := (s.leases member.name).card }
        compatibleFreeSlots := some (.int free) }
      ⟨⟨_, hs.effectiveVersion hsmall, rfl⟩, ⟨_, hfence, rfl⟩, Or.inr ⟨_, hx, rfl⟩,
        ⟨_, hsmall.configured, rfl⟩⟩ rfl hconfigured _ ⟨_, hx, rfl, Or.inl rfl⟩

/-! ## Reservation -/

theorem slotsOf_mirrored (hm : Mirrored name h) : Small (slotsOf h) := by
  obtain ⟨c, hc, hconfigured⟩ := hm.configured
  obtain ⟨c', hc', hrecord⟩ := hm.whole.configured
  unfold slotsOf
  rw [hconfigured, hrecord, value_int, value_int, hc.double_eq, hc'.double_eq]
  split
  · exact hc'
  · exact hc

theorem reserveCommit_coherent (hs : s.Coherent) {candidate : MemberSnapshot} {attemptId : String}
    {refusal : Option (Except BrokerError Unit)} (hh : s.members candidate.name = some h)
    (hslots : Small candidate.configuredSlots) (hfree : Small free) (hpos : 0 < free) :
    (reserveCommit ⟨.ofSnapshot candidate, attemptId, refusal⟩ h free s).2.Coherent := by
  have hm := hs _ h hh
  obtain ⟨v, hv, hversion⟩ := hm.whole.version
  obtain ⟨f, hf, hfence⟩ := hm.whole.fence
  have hslotsOf := slotsOf_mirrored hm
  generalize hlive : (((s.sadd candidate.name attemptId).leases candidate.name).card : ℤ) = live
  have hlive0 : 0 ≤ live := hlive ▸ Int.natCast_nonneg _
  have hnew : Small (max 0 (min (double (free - 1)) (double (slotsOf h - live)))) := by
    have hless : Small (free - 1) := hfree.of_le (by omega) (by omega)
    refine ⟨le_max_left _ _, max_lt (by decide) ?_⟩
    rw [hless.double_eq]
    exact (min_le_left _ _).trans_lt hless.2
  have hv' : double h.stateVersion.value = v := by
    rw [← hm.version, hversion, value_int, hv.double_eq]
  have hf' : double h.generationFence.value = f := by
    rw [← hm.fence, hfence, value_int, hf.double_eq]
  unfold reserveCommit
  simp only [hv', hf']
  split
  · exact hs.sadd _ _
  refine (hs.sadd _ _).put ?_
  have hmirror := @mirrored_written candidate.name { h with configuredSlots := .int (slotsOf h) }
    { ofSnapshot candidate with
      rest :=
        { candidate with
          state := h.state
          accepting := h.accepting
          dispatcherLeases := ((s.sadd candidate.name attemptId).leases candidate.name).card }
      stateVersion := .int v
      generationFence := .int f
      compatibleFreeSlots := some (.int _) }
    ⟨⟨v, hv, rfl⟩, ⟨f, hf, rfl⟩, Or.inr ⟨_, hnew, rfl⟩, ⟨_, hslots, rfl⟩⟩ rfl
    ⟨_, hslotsOf, rfl⟩ _ ⟨_, hnew, rfl, Or.inl rfl⟩
  rw [← hlive] at hmirror
  rw [← hm.version, ← hm.fence, hversion, hfence]
  exact hmirror

theorem reserveTurn_coherent (hs : s.Coherent) {candidate : MemberSnapshot} {attemptId : String}
    {refusal : Option (Except BrokerError Unit)} (hslots : Small candidate.configuredSlots) :
    (reserveTurn ⟨.ofSnapshot candidate, attemptId, refusal⟩ s).2.Coherent := by
  unfold reserveTurn
  dsimp only
  split
  · exact hs
  next h hh =>
    split
    · exact hs
    split
    · exact hs
    split
    · exact hs
    next free hfree =>
      obtain ⟨x, hx, htext, -⟩ := (hs _ h hh).free
      obtain rfl : int x = free := by
        rw [htext] at hfree
        exact some.inj hfree
      rw [value_int, hx.double_eq]
      split
      · exact hs
      next hguard =>
        split
        · exact hs
        exact reserveCommit_coherent hs hh hslots hx (by
          by_contra hle
          exact hguard (Or.inl (not_lt.mp hle)))

theorem reserveNext_coherent
    {candidates : List (MemberSnapshot × String × Option (Except BrokerError Unit))}
    (hslots : ∀ c ∈ candidates, Small c.1.configuredSlots) (staleSeen : Bool) :
    ∀ {s : MirrorStore}, s.Coherent →
      (reserveNext (candidates.map fun c => ⟨.ofSnapshot c.1, c.2.1, c.2.2⟩) staleSeen s).2.Coherent
        := by
  induction candidates generalizing staleSeen with
  | nil =>
    intro s hs
    rw [List.map_nil, reserveNext]
    split <;> exact hs
  | cons c rest ih =>
    intro s hs
    have hturn := @reserveTurn_coherent s hs c.1 c.2.1 c.2.2 (hslots c List.mem_cons_self)
    rw [List.map_cons, reserveNext]
    split
    · next heq => rwa [heq] at hturn
    · next heq =>
        rw [heq] at hturn
        exact ih (fun c hc => hslots c (List.mem_cons_of_mem _ hc)) true hturn
    · next heq => rwa [heq] at hturn

/-! ## Requeue and repair -/

/-- A requeue of a member whose next version is small keeps the copies alike. -/
theorem requeueClaim_coherent (hs : s.Coherent) (hnext : s.Advances name) (attemptId : String)
    (refusal : Option BrokerError) : (s.requeueClaim name attemptId refusal).2.Coherent := by
  unfold requeueClaim
  split
  · exact hs
  · next member h hmember hh =>
      have hm := hs name h hh
      obtain rfl : h.record = member := by
        simpa [getMember, hh, hm.whole.wellFenced] using hmember
      split
      · exact hs
      split
      · exact hs
      obtain ⟨c, hc, hconfigured⟩ := hm.whole.configured
      obtain ⟨x, hx, -, hfree⟩ := hm.free
      have hslot : ∃ y, Small y ∧ h.record.configuredSlots.least
          ((h.record.compatibleFreeSlots.getD (.int 0)).add 1) = .int y := by
        have hvalue : h.record.compatibleFreeSlots.getD (.int 0) = .int x := by
          rcases hfree with hsome | ⟨hnone, rfl⟩
          · rw [hsome, getD_some]
          · rw [hnone, getD_none]
        rw [hvalue, hconfigured, int_add, least]
        split
        · next hlt =>
            have := hx.1
            exact ⟨x + 1, hc.of_le (by omega) (le_of_lt hlt), rfl⟩
        · exact ⟨c, hc, rfl⟩
      obtain ⟨y, hy, hleast⟩ := hslot
      simp only [hleast]
      refine (hs.srem _ _).put
        { named := hm.named
          whole := ⟨hs.succ hnext hh, hm.whole.fence, Or.inr ⟨y, hy, rfl⟩, hm.whole.configured⟩
          state := rfl
          accepting := rfl
          version := rfl
          fence := rfl
          free := ⟨y, hy, rfl, Or.inl rfl⟩
          configured := hm.configured }
  · exact hs

/-- A coherent fence needs no repair. -/
theorem repair_coherent (hs : s.Coherent) (name : String) (version : ℤ) :
    (s.repairMemberGenerationFence name version).2 = s := by
  unfold repairMemberGenerationFence
  split
  · rfl
  split
  · rfl
  · next h hh => rw [if_pos (hs name h hh).whole.wellFenced]

/-! ## What the two readers see -/

/-- Equal state, admission, version, fence and free slots; no free count reads
as zero. -/
structure Agree (record view : StoredMember) : Prop where
  state : record.rest.state = view.rest.state
  accepting : record.rest.accepting = view.rest.accepting
  version : record.stateVersion = view.stateVersion
  fence : record.generationFence = view.generationFence
  free : record.compatibleFreeSlots.getD (.int 0) = view.compatibleFreeSlots.getD (.int 0)

/-- The record of a hash and its top-level fields agree. -/
structure CopiesAgree (h : MirrorHash) : Prop where
  state : h.record.rest.state = h.state
  accepting : h.record.rest.accepting = h.accepting
  version : h.record.stateVersion = h.stateVersion
  fence : h.record.generationFence = h.generationFence
  free : some (h.record.compatibleFreeSlots.getD (.int 0)) = h.compatibleFreeSlots

/-- Both readers find the member, in agreeing copies, or none of them does. -/
def ReadsAgree (name : String) (s : MirrorStore) : Prop :=
  (getMember name s = .ok none ∧ getReservationMember name s = .ok none) ∨
    ∃ h record view, s.members name = some h ∧ CopiesAgree h ∧
      getMember name s = .ok (some record) ∧ getReservationMember name s = .ok (some view) ∧
      Agree record view

/-- Where the copies agree, so do the two readers. -/
theorem Coherent.readsAgree (hs : s.Coherent) (name : String) : ReadsAgree name s := by
  cases hh : s.members name with
  | none => exact Or.inl ⟨by simp [getMember, hh], by simp [getReservationMember, hh]⟩
  | some h =>
    have hm := hs name h hh
    obtain ⟨v, hv, hversion⟩ := hm.whole.version
    obtain ⟨f, hf, hfence⟩ := hm.whole.fence
    obtain ⟨x, hx, htext, hfree⟩ := hm.free
    obtain ⟨c, hc, hconfigured⟩ := hm.configured
    have hvalue : h.record.compatibleFreeSlots.getD (.int 0) = .int x := by
      rcases hfree with hsome | ⟨hnone, rfl⟩
      · rw [hsome, getD_some]
      · rw [hnone, getD_none]
    have hget : getMember name s = .ok (some h.record) := by
      simp [getMember, hh, hm.whole.wellFenced]
    have hsigns : ¬ (h.record.rest.name ≠ name ∨ v < 0 ∨ f < 0 ∨ x < 0 ∨ c < 0) := by
      have := hv.1
      have := hf.1
      have := hx.1
      have := hc.1
      rw [hm.named]
      simp only [ne_eq, not_true_eq_false, false_or]
      omega
    have hview : getReservationMember name s = .ok (some
        { rest :=
            { h.record.rest with
              state := h.state
              accepting := h.accepting
              dispatcherLeases := (s.leases name).card }
          configuredSlots := .int c
          stateVersion := .int v
          generationFence := .int f
          compatibleFreeSlots := some (.int x) }) := by
      unfold getReservationMember
      simp only [hh, hm.whole.wellFenced, Bool.true_eq_false, if_false, ← hm.version, ← hm.fence,
        hversion, hfence, htext, hconfigured, bind_some, parsed_int, if_neg hsigns]
    refine Or.inr ⟨h, h.record, _, hh, ⟨hm.state, hm.accepting, hm.version, hm.fence, ?_⟩, hget,
      hview, ⟨hm.state, hm.accepting, hversion, hfence, ?_⟩⟩
    · rw [hvalue, htext]
    · rw [hvalue, getD_some]

end MirrorStore

/-! ## Runs of calls -/

/-- What a call must stay below `10 ^ 14`, and above zero where it brings slot
counts: its own numbers, and the next version of the member it writes. -/
def MirrorCall.Within (s : MirrorStore) : MirrorCall → Prop
  | putMember member => SmallMember member
  | reserveNext candidates => ∀ c ∈ candidates, Small c.1.configuredSlots
  | requeueClaim name _ _ => s.Advances name
  | releaseMemberLease name _ _ _ => s.Advances name
  | beginMemberDrain name _ => s.Advances name
  | completeMemberDrain name _ => s.Advances name
  | beginMemberRejoin name _ fence => s.Advances name ∧ fence < printable
  | completeMemberRejoin name _ readiness =>
    s.Advances name ∧ SmallSlots readiness
  | repairMemberGenerationFence _ _ => True

instance (s : MirrorStore) : (call : MirrorCall) → Decidable (call.Within s)
  | .putMember member => inferInstanceAs (Decidable (SmallMember member))
  | .reserveNext candidates =>
    inferInstanceAs (Decidable (∀ c ∈ candidates, Small c.1.configuredSlots))
  | .requeueClaim name _ _ => inferInstanceAs (Decidable (s.Advances name))
  | .releaseMemberLease name _ _ _ => inferInstanceAs (Decidable (s.Advances name))
  | .beginMemberDrain name _ => inferInstanceAs (Decidable (s.Advances name))
  | .completeMemberDrain name _ => inferInstanceAs (Decidable (s.Advances name))
  | .beginMemberRejoin name _ fence =>
    inferInstanceAs (Decidable (s.Advances name ∧ fence < printable))
  | .completeMemberRejoin name _ readiness =>
    inferInstanceAs (Decidable (s.Advances name ∧ SmallSlots readiness))
  | .repairMemberGenerationFence _ _ => .isTrue trivial

/-- Every call of a sequence is within the bounds where it runs. -/
def MirrorStore.RunsWithin (s : MirrorStore) : List MirrorCall → Prop
  | [] => True
  | call :: calls => call.Within s ∧ (call.effect s).RunsWithin calls

instance decidableRunsWithin (s : MirrorStore) :
    (calls : List MirrorCall) → Decidable (s.RunsWithin calls)
  | [] => .isTrue trivial
  | call :: calls =>
    have := decidableRunsWithin (call.effect s) calls
    inferInstanceAs (Decidable (_ ∧ _))

/-- One call keeps the copies equal. -/
theorem MirrorCall.effect_coherent {s : MirrorStore} (hs : s.Coherent) {call : MirrorCall}
    (hwithin : call.Within s) : (call.effect s).Coherent := by
  cases call with
  | putMember member => exact putMember_coherent hs hwithin
  | reserveNext candidates => exact reserveNext_coherent hwithin false hs
  | requeueClaim name attemptId refusal =>
    exact requeueClaim_coherent hs hwithin attemptId refusal
  | releaseMemberLease name attemptId claimed enforce =>
    exact releaseMemberLease_coherent hs hwithin attemptId claimed enforce
  | beginMemberDrain name version => exact beginMemberDrain_coherent hs hwithin version
  | completeMemberDrain name version =>
    exact completeMemberDrain_coherent hs hwithin version
  | beginMemberRejoin name version fence =>
    exact beginMemberRejoin_coherent hs hwithin.1 version hwithin.2
  | completeMemberRejoin name version readiness =>
    exact completeMemberRejoin_coherent hs hwithin.1 version hwithin.2
  | repairMemberGenerationFence name version =>
    show (s.repairMemberGenerationFence name version).2.Coherent
    rwa [repair_coherent hs]

theorem MirrorStore.run_keeps {s : MirrorStore} (hs : s.Coherent) {calls : List MirrorCall}
    (hwithin : s.RunsWithin calls) : (s.run calls).Coherent := by
  induction calls generalizing s with
  | nil => exact hs
  | cons call calls ih => exact ih (call.effect_coherent hs hwithin.1) hwithin.2

/-- **The copies of every member agree after every run within the bounds**, so
the two readers return snapshots that agree. -/
theorem MirrorStore.run_coherent {calls : List MirrorCall}
    (hwithin : empty.RunsWithin calls) (name : String) :
    ReadsAgree name (empty.run calls) :=
  (run_keeps coherent_empty hwithin).readsAgree name

/-- A member of four slots. -/
def fourSlots : MemberSnapshot :=
  { name := "m"
    state := .readyAccepting
    accepting := true
    configuredSlots := 4
    contextPerSlot := 8192
    stateVersion := 1
    observedAt := 0
    backendSlotsBusy := some 0
    compatibleFreeSlots := some 4 }

/-- A member is put, leased, drained and brought back. -/
def fourSlotsRun : List MirrorCall :=
  [.putMember fourSlots, .reserveNext [(fourSlots, "a", none)], .beginMemberDrain "m" 1,
    .releaseMemberLease "m" "a" 1 false, .completeMemberDrain "m" 3, .beginMemberRejoin "m" 4 7,
    .completeMemberRejoin "m" 5 fourSlots]

/-- All numbers of `fourSlotsRun` are within the bounds. -/
theorem run_coherent_fourSlots :
    ReadsAgree "m" (empty.run fourSlotsRun) := by
  have hwithin : empty.RunsWithin fourSlotsRun := by decide +kernel
  exact run_coherent hwithin "m"

/-- One fence of fifteen digits, and the record can no longer be read. -/
theorem putMember_fence_lost :
    ¬ ReadsAgree "m" (empty.run
      [.putMember { fourSlots with generationFence := 100000000000001 }]) := by
  have hlost : ((empty.run
      [.putMember { fourSlots with generationFence := 100000000000001 }]).members "m").map
        (fun h => h.record.wellFenced) = some false := by
    decide +kernel
  obtain ⟨h, hh, hfenced⟩ := map_eq_some_iff.mp hlost
  have hget : getMember "m" (empty.run
      [.putMember { fourSlots with generationFence := 100000000000001 }]) =
        .error .repositoryUnavailable := by
    simp only [getMember, hh, hfenced, Bool.false_eq_true, if_false]
  rintro (⟨hnone, -⟩ | ⟨_, _, _, -, -, hsome, -⟩)
  · simp [hget] at hnone
  · simp [hget] at hsome

/-! ## A rejoin with a new fence -/

namespace MirrorStore

variable {s s' : MirrorStore} {name : String} {m : StoredMember}

/-- Outside the release modes a commit is refused, and the store stays, or it
answers with what it has written. -/
theorem commitMemberDrain_lifecycle {a : DrainCall} (hrelease : a.mode ≠ .release)
    (hreleaseV2 : a.mode ≠ .releaseV2) (s : MirrorStore) :
    (∃ e, commitMemberDrain a s = (.error e, s)) ∨
      ∃ m, s.members a.current.rest.name = some m ∧
        commitMemberDrain a s =
          (.ok a.updated, s.put a.current.rest.name (lifecycleHash a.updated m)) := by
  unfold commitMemberDrain
  dsimp only
  split
  · exact Or.inl ⟨_, rfl⟩
  next m hm =>
    unfold lifecycleCommit
    cases hmode : a.mode with
    | release => exact absurd hmode hrelease
    | releaseV2 => exact absurd hmode hreleaseV2
    | begin | complete | beginRejoin | completeRejoin =>
      dsimp only
      repeat' split
      all_goals first
        | exact Or.inl ⟨_, by with_reducible rfl⟩
        | exact Or.inr ⟨m, hm, by with_reducible rfl⟩

/-- The fence and the version of a rejoin are what is read afterwards, and an
older fence, or the same one, is refused from then on. -/
def RejoinHolds (name : String) (fence version : ℤ) (s : MirrorStore) : Prop :=
  (∃ m, getMember name s = .ok (some m) ∧ m.generationFence = .int fence ∧
      m.stateVersion = .int version) ∧
    ∀ expected' fence', fence' ≤ fence →
      ∃ e, s.beginMemberRejoin name expected' fence' = (.error e, s)

theorem getMember_put (s : MirrorStore) (name : String) (h : MirrorHash) :
    getMember name (s.put name h) =
      if h.record.wellFenced then .ok (some h.record) else .error .repositoryUnavailable := by
  simp [getMember]

theorem fence_of_getMember (h : getMember name s = .ok (some m)) :
    0 ≤ m.generationFence.value := by
  unfold getMember at h
  split at h
  · simp at h
  split at h
  · next hfenced =>
      obtain rfl : _ = m := by simpa using h
      unfold wellFenced at hfenced
      split at hfenced
      · next heq => simpa [heq] using hfenced
      · simp at hfenced
  · simp at h

/-- A fence that is not larger than the one read is refused. -/
theorem beginMemberRejoin_stale {fence' : ℤ} (expected' : ℤ)
    (hget : getMember name s = .ok (some m)) (hfence : m.generationFence = .int fence)
    (hle : fence' ≤ fence) :
    ∃ e, s.beginMemberRejoin name expected' fence' = (.error e, s) := by
  unfold beginMemberRejoin withMember atVersion
  rw [hget]
  dsimp only
  split
  · exact ⟨_, rfl⟩
  · rw [if_pos (by rw [hfence]; exact hle)]
    exact ⟨_, rfl⟩

/-- **A rejoin survives the rewrite exactly when its two numbers are printed as
integers.**  A fence or a version of fifteen digits is accepted as well, and
comes back as a float. -/
theorem rejoin_readable_iff {current updated : StoredMember} {version expected fence : ℤ}
    (hnamed : current.rest.name = name) (hcurrent : getMember name s = .ok (some current))
    (hversion : current.stateVersion = .int version)
    (haccepted : s.beginMemberRejoin name expected fence = (.ok updated, s')) :
    RejoinHolds name fence (version + 1) s' ↔
      fence < printable ∧ (version + 1).natAbs < printable := by
  have hfence0 := fence_of_getMember hcurrent
  unfold beginMemberRejoin withMember atVersion afterTransition at haccepted
  rw [hcurrent] at haccepted
  dsimp only at haccepted
  split at haccepted
  · simp at haccepted
  split at haccepted
  · simp at haccepted
  next hlater =>
    split at haccepted
    · obtain ⟨m, rfl⟩ : ∃ m, s' = s.put current.rest.name (lifecycleHash
          { current with
            rest := { current.rest with state := .joining, accepting := false }
            compatibleFreeSlots := some (.int 0)
            generationFence := .int fence
            stateVersion := current.stateVersion.add 1 } m) := by
        rcases commitMemberDrain_lifecycle (a := ⟨.beginRejoin, current, _, 0, ""⟩)
          (by simp) (by simp) s with ⟨e, heq⟩ | ⟨m, -, heq⟩
        · rw [heq] at haccepted
          simp at haccepted
        · rw [heq] at haccepted
          exact ⟨m, (congrArg Prod.snd haccepted).symm⟩
      have hpositive : 0 ≤ fence := by omega
      subst hnamed
      constructor
      · rintro ⟨⟨read, hread, hfence, hstep⟩, -⟩
        rw [getMember_put] at hread
        split at hread
        · obtain rfl : _ = read := by simpa using hread
          simp only [lifecycleHash, StoredMember.throughLua, hversion, int_add,
            value_int] at hfence hstep
          have := throughLua_eq_int_iff.mp hfence
          exact ⟨by omega, throughLua_eq_int_iff.mp hstep⟩
        · simp at hread
      · rintro ⟨hfence, hstep⟩
        have hfence' : throughLua fence = .int fence := throughLua_eq_int (by omega)
        have hread := getMember_put s current.rest.name (lifecycleHash
          { current with
            rest := { current.rest with state := .joining, accepting := false }
            compatibleFreeSlots := some (.int 0)
            generationFence := .int fence
            stateVersion := current.stateVersion.add 1 } m)
        rw [if_pos (by
          simp [lifecycleHash, StoredMember.throughLua, StoredMember.wellFenced, hfence',
            hpositive])] at hread
        refine ⟨⟨_, hread, hfence', ?_⟩, fun expected' fence' hle =>
          beginMemberRejoin_stale expected' hread hfence' hle⟩
        simpa [lifecycleHash, StoredMember.throughLua, hversion] using throughLua_eq_int hstep
    · simp at haccepted

end MirrorStore

def drainedMember : StoredMember :=
  .ofSnapshot
    { fourSlots with
      state := .offline
      accepting := false
      stateVersion := 4
      compatibleFreeSlots := some 0 }

def drainedStore : MirrorStore :=
  empty.put "m"
    { record := drainedMember
      state := .offline
      accepting := false
      stateVersion := .int 4
      generationFence := .int 0
      compatibleFreeSlots := some (.int 0)
      configuredSlots := .int 4 }

def rejoining (fence : ℤ) : StoredMember :=
  { drainedMember with
    rest := { drainedMember.rest with state := .joining }
    generationFence := .int fence
    stateVersion := .int 5 }

/-- A fence of one digit is printed as an integer. -/
theorem rejoin_readable_seven :
    RejoinHolds "m" 7 5 (drainedStore.beginMemberRejoin "m" 4 7).2 := by
  have haccepted : (drainedStore.beginMemberRejoin "m" 4 7).1 = .ok (rejoining 7) := by
    decide +kernel
  have hcurrent : getMember "m" drainedStore = .ok (some drainedMember) := by
    decide +kernel
  have hpair : drainedStore.beginMemberRejoin "m" 4 7 =
      (.ok (rejoining 7), (drainedStore.beginMemberRejoin "m" 4 7).2) := by
    rw [← haccepted]
  have hversion : drainedMember.stateVersion = .int 4 := rfl
  exact (rejoin_readable_iff rfl hcurrent hversion hpair).mpr (by decide +kernel)

/-- A fence of fifteen digits is accepted, and then no one can read the member. -/
theorem rejoin_fence_lost :
    (drainedStore.beginMemberRejoin "m" 4 100000000000001).1 =
        .ok (rejoining 100000000000001) ∧
      ¬ RejoinHolds "m" 100000000000001 5
        (drainedStore.beginMemberRejoin "m" 4 100000000000001).2 := by
  refine ⟨by decide +kernel, ?_⟩
  have hlost : getMember "m"
      (drainedStore.beginMemberRejoin "m" 4 100000000000001).2 =
        .error .repositoryUnavailable := by decide +kernel
  rintro ⟨⟨m, hget, -⟩, -⟩
  simp [hlost] at hget

end GpuManager.Broker
