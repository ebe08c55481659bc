import GpuManager.Broker.Clients

/-!
# Leadership and the reservation fence

A dispatcher reserves under a fencing token.  `acquire_leader.lua` draws the token
of a new term from a counter, `renew_leader.lua` moves the expiry of the running
term, and `reserve_job.lua` lets a reservation through only if the leader hash
holds exactly the caller's owner and token and has not expired by the caller's
clock.

No clock is trusted: each call brings its own reading, and readings may disagree
and run backwards, so a term can be replaced while its holder believes it to be
alive.  What holds regardless is about tokens.  The token in the leader hash never
exceeds the counter and never decreases; hence a new term gets a token that nobody
was ever given, and the fences of committed reservations do not decrease.
-/

namespace GpuManager.Broker

open AtomicProgram Store Lua Prod

def Store.term (s : Store) : Option LeaderHash × ℕ := (s.leader, s.fenceCounter)

section Frame

variable {s : Store} {c : Cmd}

/-- Nothing but the two leadership scripts touches the leader hash. -/
theorem exec_term_eq (hc : c.writesLeader = false) : (exec c s).2.term = s.term := by
  have heffect := exec_effect c s
  generalize (exec c s).2 = t at heffect ⊢
  cases heffect with
  | led silent leads =>
    rw [hc] at leads
    cases leads
  | requeued found active member =>
    obtain ⟨-, -, -, hleader, hcounter, -⟩ := requeueMember_frame member
    exact Prod.ext hleader hcounter
  | @repaired a h =>
    obtain ⟨attempts, hcommit⟩ := repairCommit_eq a h s
    rw [hcommit]
    split <;> rfl
  | _ => rfl

end Frame

/-- The token of the leader hash was drawn from the counter. -/
def TokenDrawn (s : Store) : Prop := ∀ l ∈ s.leader, l.token ≤ s.fenceCounter

/-- Counter and leader token never decrease, and a leader hash never disappears. -/
structure TermLe (s t : Store) : Prop where
  counter : s.fenceCounter ≤ t.fenceCounter
  leader : ∀ l ∈ s.leader, ∃ l' ∈ t.leader, l.token ≤ l'.token

theorem TermLe.refl (s : Store) : TermLe s s :=
  ⟨le_rfl, fun l hl => ⟨l, hl, le_rfl⟩⟩

theorem TermLe.trans (s t u : Store) (h₁ : TermLe s t) (h₂ : TermLe t u) :
    TermLe s u := by
  refine ⟨h₁.counter.trans h₂.counter, fun l hl => ?_⟩
  obtain ⟨l', hl', hle⟩ := h₁.leader l hl
  obtain ⟨l'', hl'', hle'⟩ := h₂.leader l' hl'
  exact ⟨l'', hl'', hle.trans hle'⟩

/-- **One command** keeps the token drawn and moves the terms forward. -/
theorem exec_termLe {s : Store} (c : Cmd) (hs : TokenDrawn s) :
    TokenDrawn (exec c s).2 ∧ TermLe s (exec c s).2 := by
  have hsame : ∀ c : Cmd, c.writesLeader = false →
      TokenDrawn (exec c s).2 ∧ TermLe s (exec c s).2 := by
    intro c hc
    have hterm := exec_term_eq (s := s) hc
    refine ⟨fun l hl => ?_, (congrArg snd hterm).ge, fun l hl => ⟨l, ?_, le_rfl⟩⟩
    · exact (hs l ((congrArg fst hterm).symm.trans hl)).trans
        (congrArg snd hterm).ge
    · exact (congrArg fst hterm).trans hl
  cases c with
  | acquireLeader owner now ttl =>
    rcases acquireLeader_cases owner now ttl s with heq | ⟨l, -, -, heq⟩ | heq
    · simp only [exec, heq]
      exact ⟨hs, .refl s⟩
    · simp only [exec, heq]
      exact ⟨hs, .refl s⟩
    simp only [exec, heq]
    refine ⟨fun l hl => ?_, Nat.le_succ _, fun l hl => ?_⟩
    · obtain rfl : _ = l := Option.some.inj hl
      exact le_rfl
    · exact ⟨_, rfl, (hs l hl).trans (Nat.le_succ _)⟩
  | renewLeader owner token now ttl =>
    rcases renewLeader_cases owner token now ttl s with heq | ⟨l, hl, -, -, heq⟩
    · simp only [exec, heq]
      exact ⟨hs, .refl s⟩
    simp only [exec, heq]
    refine ⟨fun l' hl' => ?_, le_rfl, fun l' hl' => ?_⟩
    · obtain rfl : _ = l' := Option.some.inj hl'
      exact hs l hl
    · obtain rfl : l = l' := Option.some.inj (hl.symm.trans hl')
      exact ⟨_, rfl, le_rfl⟩
  | _ => exact hsame _ rfl

def HandsOut (e : Event Store Cmd) (token : ℕ) : Prop :=
  match e.cmd with
  | .acquireLeader owner now ttl =>
    ∃ expiresAt, (acquireLeader owner now ttl e.before).1 = .ok (token, expiresAt)
  | .renewLeader owner current now ttl =>
    ∃ expiresAt,
      (renewLeader owner current now ttl e.before).1 = .ok (token, expiresAt)
  | _ => False

/-- A token that opens a new term: there was no leader hash, or it had expired by
the clock of the call. -/
def OpensTerm (e : Event Store Cmd) (token : ℕ) : Prop :=
  match e.cmd with
  | .acquireLeader owner now ttl =>
    (∀ l ∈ e.before.leader, l.expiresAt ≤ now) ∧
      ∃ expiresAt, (acquireLeader owner now ttl e.before).1 = .ok (token, expiresAt)
  | _ => False

/-- A reservation that commits stores an attempt with this fence. -/
def CommitsFence (e : Event Store Cmd) (fence : ℤ) : Prop :=
  match e.cmd with
  | .reserveJob a => (reserveJob a e.before).1 = .ok () ∧
      ∃ t, (reserveJob a e.before).2.attempts a.attemptId = some t ∧
        t.reservationFence = fence
  | _ => False

section Events

variable {e : Event Store Cmd} {token : ℕ}

theorem HandsOut.le_counter (hs : TokenDrawn e.before)
    (h : HandsOut e token) : token ≤ (broker.after e).fenceCounter := by
  obtain ⟨cmd, s⟩ := e
  cases cmd with
  | acquireLeader owner now ttl =>
    obtain ⟨expiresAt, hreply⟩ := h
    change token ≤ (acquireLeader owner now ttl s).2.fenceCounter
    rcases acquireLeader_cases owner now ttl s with heq | ⟨l, hl, -, heq⟩ | heq
    · rw [heq] at hreply
      cases hreply
    · rw [heq] at hreply ⊢
      obtain rfl : l.token = token := by injection hreply with h; exact congrArg fst h
      exact hs l hl
    · rw [heq] at hreply ⊢
      injection hreply with h
      exact (congrArg fst h).ge
  | renewLeader owner current now ttl =>
    obtain ⟨expiresAt, hreply⟩ := h
    change token ≤ (renewLeader owner current now ttl s).2.fenceCounter
    rcases renewLeader_cases owner current now ttl s with heq | ⟨l, hl, -, -, heq⟩
    · rw [heq] at hreply
      cases hreply
    rw [heq] at hreply ⊢
    obtain rfl : l.token = token := by injection hreply with h; exact congrArg fst h
    exact hs l hl
  | _ => exact h.elim

theorem OpensTerm.eq_counter (h : OpensTerm e token) :
    token = e.before.fenceCounter + 1 := by
  obtain ⟨cmd, s⟩ := e
  cases cmd with
  | acquireLeader owner now ttl =>
    obtain ⟨hexpired, expiresAt, hreply⟩ := h
    unfold acquireLeader at hreply
    simp only at hreply
    split at hreply
    · injection hreply with h
      exact (congrArg fst h).symm
    rename_i l hl
    rw [if_neg (not_lt.mpr (hexpired l hl))] at hreply
    injection hreply with h
    exact (congrArg fst h).symm
  | _ => exact h.elim

/-- A committed reservation carries the token of the leader hash, before and
after. -/
theorem CommitsFence.leader {fence : ℤ} (h : CommitsFence e fence) :
    (∃ l ∈ e.before.leader, (l.token : ℤ) = fence) ∧
      ∃ l ∈ (broker.after e).leader, (l.token : ℤ) = fence := by
  obtain ⟨cmd, s⟩ := e
  cases cmd with
  | reserveJob a =>
    obtain ⟨hreply, t, ht, rfl⟩ := h
    rcases reserveJob_cases a s with ⟨⟨err, herr⟩, -⟩ | ⟨h, m, hr, heq⟩
    · rw [herr] at hreply
      cases hreply
    rw [heq] at ht
    have hfence : a.fencingToken = t.reservationFence := by
      simp only [reserveCommit, putMemberHash_attempts, sadd_attempts,
        putAttempt_attempts, Function.update_self, Option.some.injEq] at ht
      rw [← ht]
    obtain ⟨l, hl, -, htoken, -⟩ := hr.fence
    refine ⟨⟨l, hl, htoken.trans hfence⟩, l, ?_, htoken.trans hfence⟩
    exact (congrArg fst (exec_term_eq (s := s) (c := .reserveJob a) rfl)).trans hl
  | _ => exact h.elim

end Events

/-- **Fencing.**  In every run, whatever the clocks read: a token that opens a term
is larger than every token handed out before, at every moment at most one pair of
owner and token passes the fence test, and the fences of committed reservations do
not decrease. -/
theorem single_leader_fencing (labels : List BrokerLabel) :
    ((broker.history idle labels).Pairwise fun e e' =>
        ∀ token token', HandsOut e token → OpensTerm e' token' → token < token') ∧
      (∀ ls, ls <+: labels → ∀ owner owner' token token' now now',
        (broker.run idle ls).store.fencePasses owner token now →
        (broker.run idle ls).store.fencePasses owner' token' now' →
        owner = owner' ∧ token = token') ∧
      (broker.history idle labels).Pairwise fun e e' =>
        ∀ fence fence', CommitsFence e fence → CommitsFence e' fence' →
          fence ≤ fence' := by
  have hdrawn : ∀ e ∈ broker.history idle labels, TokenDrawn e.before := by
    intro e he
    obtain ⟨l₁, l, h₁, -, hbefore, -⟩ := broker.exists_prefix_of_mem_history he
    rw [hbefore]
    refine broker.run_induction TokenDrawn (fun l hl => ?_) fun e _ hs =>
      (exec_termLe e.cmd hs).1
    simp [idle, empty] at hl
  obtain ⟨-, hordered⟩ := broker.history_pairwise TermLe TermLe.refl TermLe.trans
    fun e he => (exec_termLe e.cmd (hdrawn e he)).2
  refine ⟨?_, ?_, ?_⟩
  · refine hordered.imp_of_mem fun {e e'} he _ hle token token' hout hopen => ?_
    have hold := hout.le_counter (hdrawn e he)
    have hnew := hopen.eq_counter
    have hcounter := hle.counter
    omega
  · rintro ls - owner owner' token token' now now' ⟨l, hl, rfl, rfl, -⟩ ⟨l', hl', rfl, rfl, -⟩
    obtain rfl : l = l' := Option.some.inj (hl.symm.trans hl')
    exact ⟨rfl, rfl⟩
  · refine hordered.imp_of_mem fun {e e'} _ _ hle fence fence' hcommit hcommit' => ?_
    obtain ⟨l, hl, rfl⟩ := hcommit.leader.2
    obtain ⟨l', hl', rfl⟩ := hcommit'.leader.1
    obtain ⟨l'', hl'', htoken⟩ := hle.leader l hl
    obtain rfl : l' = l'' := Option.some.inj (hl'.symm.trans hl'')
    exact_mod_cast htoken

end GpuManager.Broker
