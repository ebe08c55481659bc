import Mathlib.Data.List.Basic
import GpuManager.Lib.AtomicProgram

/-!
# Rely and guarantee for programs under keyed locks

A `LockSystem` runs programs each of which holds the lock of its key from its first command to
its last.  A command either awaits or is immediate, and a step of a run is one awaited command
with the immediate ones after it, up to the next command that awaits.  What a command answers is
partly up to the outside, which is an oracle here; and the outside takes steps of its own.

The programs of one key never overlap, so an assertion about what only the holder of a key
changes stays true while the holder waits.  A `Contract` says this once.

* `rely key` is what may happen to the state while a holder of the key waits;
* `guar key` is what one step of such a holder does;
* what one holder guarantees is what the others rely on, and every step keeps the invariant.

`Contract.wp` is the weakest precondition of a program under `rely`, in which each step of it is
one of `guar`; `Contract.run_keeps` turns one `wp` for each launched program into a statement
about every run.
-/

namespace AtomicProgram

open List

variable {S C : Type} {R : C → Type} {ε α Req K O E : Type} {p : Prog C R ε α} {req : Req}

/-- Programs that run under the locks of their keys.  `finish` is what is noted down when a
program returns. -/
structure LockSystem (S C : Type) (R : C → Type) (ε α Req K O E : Type) where
  awaits : C → Bool
  exec : (c : C) → O → S → R c × S
  launch : Req → Except ε (K × Prog C R ε α)
  finish : Req → α → S → S
  cancelled : ε
  env : E → S → Option S

/-- How far a call has come. -/
inductive CallStatus (C : Type) (R : C → Type) (ε α K : Type) where
  | waiting (key : K) (p : Prog C R ε α)
  | running (key : K) (p : Prog C R ε α)
  | finished (r : Except ε α)

/-- A call. -/
structure LockCall (C : Type) (R : C → Type) (ε α Req K : Type) where
  req : Req
  status : CallStatus C R ε α K

/-- The state and the calls so far. -/
structure LockWorld (S C : Type) (R : C → Type) (ε α Req K : Type) where
  state : S
  calls : List (LockCall C R ε α Req K)

/-- What happens next.  A call that waits for its lock may be cancelled; after that, a cancellation
is an answer of the command that awaits. -/
inductive LockLabel (Req O E : Type) where
  | request (req : Req)
  | acquire (i : ℕ) (o : O)
  | act (i : ℕ) (o : O)
  | cancel (i : ℕ)
  | env (e : E)

namespace LockSystem

variable (sys : LockSystem S C R ε α Req K O E)

/-- Run the immediate commands. -/
def settle (o : O) : Prog C R ε α → S → Prog C R ε α × S
  | .done r, s => (.done r, s)
  | .call c k, s =>
    if sys.awaits c = true then (.call c k, s)
    else settle o (k (sys.exec c o s).1) (sys.exec c o s).2

def resume (req : Req) (key : K) : Prog C R ε α → S → CallStatus C R ε α K × S
  | .done (.ok a), s => (.finished (.ok a), sys.finish req a s)
  | .done (.error e), s => (.finished (.error e), s)
  | p, s => (.running key p, s)

end LockSystem

/-- The lock that a call holds. -/
def CallStatus.holds? : CallStatus C R ε α K → Option K
  | running key _ => some key
  | _ => none

namespace LockSystem

variable (sys : LockSystem S C R ε α Req K O E) [DecidableEq K]

def step : LockLabel Req O E → LockWorld S C R ε α Req K → Option (LockWorld S C R ε α Req K)
  | .request req, w =>
    match sys.launch req with
    | .error e => some { w with calls := w.calls ++ [⟨req, .finished (.error e)⟩] }
    | .ok (key, p) => some { w with calls := w.calls ++ [⟨req, .waiting key p⟩] }
  | .acquire i o, w =>
    match w.calls[i]? with
    | some ⟨req, .waiting key p⟩ =>
      if w.calls.any (fun call => call.status.holds? = some key) = true then none
      else
        let settled := sys.settle o p w.state
        let resumed := sys.resume req key settled.1 settled.2
        some ⟨resumed.2, w.calls.set i ⟨req, resumed.1⟩⟩
    | _ => none
  | .act i o, w =>
    match w.calls[i]? with
    | some ⟨req, .running key (.call c k)⟩ =>
      let answered := sys.exec c o w.state
      let settled := sys.settle o (k answered.1) answered.2
      let resumed := sys.resume req key settled.1 settled.2
      some ⟨resumed.2, w.calls.set i ⟨req, resumed.1⟩⟩
    | _ => none
  | .cancel i, w =>
    match w.calls[i]? with
    | some ⟨req, .waiting _ _⟩ =>
      some { w with calls := w.calls.set i ⟨req, .finished (.error sys.cancelled)⟩ }
    | _ => none
  | .env e, w => (sys.env e w.state).map fun s => { w with state := s }

/-- A run. -/
def run : List (LockLabel Req O E) → LockWorld S C R ε α Req K →
    Option (LockWorld S C R ε α Req K)
  | [], w => some w
  | label :: labels, w => (sys.step label w).bind (run labels)

def withEnv (env : E → S → Option S) : LockSystem S C R ε α Req K O E := { sys with env := env }

variable {sys} {env : E → S → Option S} {w w' : LockWorld S C R ε α Req K}

omit [DecidableEq K] in
theorem settle_withEnv (o : O) (p : Prog C R ε α) (s : S) :
    (sys.withEnv env).settle o p s = sys.settle o p s := by
  induction p generalizing s with
  | done r => rfl
  | call c k ih =>
    unfold settle
    rw [ih]
    rfl

/-- The environment only matters to its own steps. -/
theorem step_withEnv {label : LockLabel Req O E}
    (h : ∀ e, label = .env e → env e w.state = sys.env e w.state) :
    (sys.withEnv env).step label w = sys.step label w := by
  cases label with
  | request req | cancel i => rfl
  | acquire i o | act i o =>
    unfold step
    simp only [settle_withEnv]
    rfl
  | env e =>
    show (env e w.state).map _ = (sys.env e w.state).map _
    rw [h e rfl]

end LockSystem

/-- What the holders of the keys rely on, and what they guarantee. -/
structure Contract (sys : LockSystem S C R ε α Req K O E) where
  Inv : S → Prop
  rely : K → S → S → Prop
  guar : K → S → S → Prop
  rely_refl : ∀ key s, rely key s s
  rely_trans : ∀ {key s s' s''}, rely key s s' → rely key s' s'' → rely key s s''
  guar_inv : ∀ {key s s'}, Inv s → guar key s s' → Inv s'
  guar_rely : ∀ {key other s s'}, key ≠ other → Inv s → guar key s s' → rely other s s'
  env_inv : ∀ {e s s'}, sys.env e s = some s' → Inv s → Inv s'
  env_rely : ∀ {e s s'} key, sys.env e s = some s' → Inv s → rely key s s'

namespace Contract

variable {sys : LockSystem S C R ε α Req K O E} (ct : Contract sys) {key : K} {β γ : Type} {c : C}

/-- The weakest precondition under interference, of a program whose step has begun in `start`. -/
def wp (key : K) (post : Except ε β → S → S → Prop) : Prog C R ε β → S → S → Prop
  | .done r, start, s => post r start s
  | .call c k, start, s =>
    if sys.awaits c = true then
      ct.guar key start s ∧ ∀ s', ct.Inv s' → ct.rely key s s' → ∀ o,
        wp key post (k (sys.exec c o s').1) s' (sys.exec c o s').2
    else ∀ o, wp key post (k (sys.exec c o s).1) start (sys.exec c o s).2

def ends (key : K) (req : Req) : Except ε α → S → S → Prop
  | .ok a, start, s => ct.guar key start (sys.finish req a s)
  | .error _, start, s => ct.guar key start s

section Rules

variable {post post' : Except ε β → S → S → Prop} {start s : S} {k : R c → Prog C R ε β}

/-- A command that awaits. -/
theorem wp_awaits (hc : sys.awaits c = true) (hguar : ct.guar key start s)
    (hnext : ∀ s', ct.Inv s' → ct.rely key s s' → ∀ o,
      ct.wp key post (k (sys.exec c o s').1) s' (sys.exec c o s').2) :
    ct.wp key post (.call c k) start s := by
  unfold wp
  rw [if_pos hc]
  exact ⟨hguar, hnext⟩

theorem wp_immediate (hc : sys.awaits c = false)
    (hnext : ∀ o, ct.wp key post (k (sys.exec c o s).1) start (sys.exec c o s).2) :
    ct.wp key post (.call c k) start s := by
  unfold wp
  rw [if_neg (by rw [hc]; exact Bool.false_ne_true)]
  exact hnext

/-- Sequencing: the second part starts in the step in which the first one ends. -/
theorem wp_bind {f : β → Prog C R ε γ} {last : Except ε γ → S → S → Prop} {p : Prog C R ε β}
    (h : ct.wp key (fun r start s =>
      match r with
      | .ok b => ct.wp key last (f b) start s
      | .error e => last (.error e) start s) p start s) :
    ct.wp key last (p >>= f) start s := by
  induction p generalizing start s with
  | done r =>
    cases r with
    | ok b | error e => exact h
  | call c k ih =>
    rw [Prog.bind_call]
    unfold wp at h ⊢
    split
    · rename_i hc
      rw [if_pos hc] at h
      exact ⟨h.1, fun s' hinv hrely o => ih _ (h.2 s' hinv hrely o)⟩
    · rename_i hc
      rw [if_neg hc] at h
      exact fun o => ih _ (h o)

end Rules

/-! ## Runs -/

def Resumes (key : K) (req : Req) (p : Prog C R ε α) (s : S) : Prop :=
  ∃ c k, p = .call c k ∧ ∀ s', ct.Inv s' → ct.rely key s s' → ∀ o,
    ct.wp key (ct.ends key req) (k (sys.exec c o s').1) s' (sys.exec c o s').2

structure Sound (w : LockWorld S C R ε α Req K) : Prop where
  inv : ct.Inv w.state
  waiting : ∀ call ∈ w.calls, ∀ key p, call.status = .waiting key p →
    ∀ s, ct.Inv s → ct.wp key (ct.ends key call.req) p s s
  running : ∀ call ∈ w.calls, ∀ key p, call.status = .running key p →
    ct.Resumes key call.req p w.state
  alone : ∀ (i j : ℕ) (ci cj : LockCall C R ε α Req K) (key : K), w.calls[i]? = some ci →
    w.calls[j]? = some cj → ci.status.holds? = some key → cj.status.holds? = some key → i = j

/-- Every program that is launched keeps the contract. -/
def Launches : Prop :=
  ∀ req key p, sys.launch req = .ok (key, p) → ∀ s, ct.Inv s → ct.wp key (ct.ends key req) p s s

inductive Steps : S → S → Prop where
  | refl (s : S) : Steps s s
  | guar {s s' : S} (key : K) (h : ct.guar key s s') : Steps s s'
  | env {s s' : S} (e : E) (h : sys.env e s = some s') : Steps s s'

theorem wp_settle {post : Except ε α → S → S → Prop} {start s : S} (o : O)
    (h : ct.wp key post p start s) :
    ct.wp key post (sys.settle o p s).1 start (sys.settle o p s).2 := by
  induction p generalizing s with
  | done r => exact h
  | call c k ih =>
    unfold LockSystem.settle
    split
    · exact h
    rename_i hc
    unfold wp at h
    rw [if_neg hc] at h
    exact ih _ (h o)

theorem settle_awaits {s : S} {o : O} {k : R c → Prog C R ε α}
    (h : (sys.settle o p s).1 = .call c k) : sys.awaits c = true := by
  induction p generalizing s with
  | done r => cases h
  | call c' k' ih =>
    unfold LockSystem.settle at h
    split at h
    · rename_i hc
      cases h
      exact hc
    · exact ih _ h

/-- A call goes on with a step of `guar`, and waits with what is left of it. -/
theorem resume_sound {start s : S} (o : O) (h : ct.wp key (ct.ends key req) p start s) :
    let settled := sys.settle o p s
    let resumed := sys.resume req key settled.1 settled.2
    ct.guar key start resumed.2 ∧
      ((∃ r, resumed.1 = .finished r) ∨
        ∃ q, resumed.1 = .running key q ∧ ct.Resumes key req q resumed.2) := by
  have hsettled := ct.wp_settle o h
  have hawaits : ∀ c k, (sys.settle o p s).1 = .call c k → sys.awaits c = true :=
    fun _ _ hcall => settle_awaits hcall
  simp only
  revert hsettled hawaits
  generalize sys.settle o p s = settled
  obtain ⟨q, s'⟩ := settled
  intro hsettled hawaits
  cases q with
  | done r =>
    cases r with
    | ok a | error e => exact ⟨hsettled, Or.inl ⟨_, rfl⟩⟩
  | call c k =>
    unfold wp at hsettled
    rw [if_pos (hawaits c k rfl)] at hsettled
    exact ⟨hsettled.1, Or.inr ⟨_, rfl, c, k, rfl, hsettled.2⟩⟩

section Run

variable {w w' : LockWorld S C R ε α Req K} {call : LockCall C R ε α Req K}

variable {status : CallStatus C R ε α K}

theorem holds?_eq_some :
    status.holds? = some key ↔ ∃ p, status = .running key p := by
  cases status with
  | waiting other p | running other p | finished r => simp [CallStatus.holds?]

/-- A program that waits is not disturbed by what the others do. -/
theorem Resumes.mono {s s' : S} (h : ct.Resumes key req p s)
    (hrely : ct.rely key s s') : ct.Resumes key req p s' := by
  obtain ⟨c, k, hp, hnext⟩ := h
  exact ⟨c, k, hp, fun s'' hinv hrely' => hnext s'' hinv (ct.rely_trans hrely hrely')⟩

/-- One call goes on, while no other one holds its key. -/
theorem Sound.resume (h : ct.Sound w) {i : ℕ} (hi : w.calls[i]? = some call)
    (hfree : ∀ (j : ℕ) (cj : LockCall C R ε α Req K), w.calls[j]? = some cj →
      cj.status.holds? = some key → j = i) {s : S} (hguar : ct.guar key w.state s)
    (hstatus : (∃ r, status = .finished r) ∨
      ∃ q, status = .running key q ∧ ct.Resumes key call.req q s) :
    ct.Sound ⟨s, w.calls.set i ⟨call.req, status⟩⟩ := by
  have hset : ∀ j, (w.calls.set i ⟨call.req, status⟩)[j]? =
      if i = j then some ⟨call.req, status⟩ else w.calls[j]? := by
    intro j
    rw [List.getElem?_set]
    by_cases hij : i = j
    · rw [if_pos hij, if_pos hij, if_pos (List.getElem?_eq_some_iff.mp hi).1]
    · rw [if_neg hij, if_neg hij]
  have hheld : ∀ other, status.holds? = some other → other = key := by
    intro other hother
    rcases hstatus with ⟨r, rfl⟩ | ⟨q, rfl, -⟩
    · cases hother
    · exact (Option.some.inj hother).symm
  refine ⟨ct.guar_inv h.inv hguar, ?_, ?_, ?_⟩
  · intro other hmem key' p hwaiting
    rcases List.mem_or_eq_of_mem_set hmem with hmem | rfl
    · exact h.waiting other hmem key' p hwaiting
    · rcases hstatus with ⟨r, rfl⟩ | ⟨q, rfl, -⟩ <;> cases hwaiting
  · intro other hmem key' p hrunning
    obtain ⟨j, hj⟩ := List.getElem?_of_mem hmem
    rw [hset] at hj
    split at hj
    · cases hj
      rcases hstatus with ⟨r, rfl⟩ | ⟨q, rfl, hresumes⟩
      · cases hrunning
      · cases hrunning
        exact hresumes
    · rename_i hij
      have hne : key ≠ key' := by
        rintro rfl
        exact hij (hfree j other hj (holds?_eq_some.mpr ⟨p, hrunning⟩)).symm
      exact (h.running other (List.mem_of_getElem? hj) key' p hrunning).mono ct
        (ct.guar_rely hne h.inv hguar)
  · intro j l cj cl key' hj hl hcj hcl
    simp only at hj hl
    rw [hset] at hj hl
    split at hj
    · rename_i hij
      subst hij
      cases hj
      obtain rfl := hheld key' hcj
      split at hl
      · assumption
      · exact (hfree l cl hl hcl).symm
    · split at hl
      · rename_i hil
        subst hil
        cases hl
        obtain rfl := hheld key' hcl
        exact hfree j cj hj hcj
      · exact h.alone j l cj cl key' hj hl hcj hcl

/-- A call that waits or has finished comes in, or takes the place of one that waits. -/
theorem Sound.mono {calls : List (LockCall C R ε α Req K)} (h : ct.Sound w)
    (hwaiting : ∀ call ∈ calls, ∀ key p, call.status = .waiting key p →
      ∀ s, ct.Inv s → ct.wp key (ct.ends key call.req) p s s)
    (hrunning : ∀ (i : ℕ) (call : LockCall C R ε α Req K) (key : K), calls[i]? = some call →
      call.status.holds? = some key → w.calls[i]? = some call) :
    ct.Sound ⟨w.state, calls⟩ := by
  refine ⟨h.inv, hwaiting, fun call hmem key p hcall => ?_, fun i j ci cj key hi hj hci hcj => ?_⟩
  · obtain ⟨i, hi⟩ := getElem?_of_mem hmem
    have hstored := hrunning i call key hi (holds?_eq_some.mpr ⟨p, hcall⟩)
    exact h.running call (mem_of_getElem? hstored) key p hcall
  · exact h.alone i j ci cj key (hrunning i ci key hi hci) (hrunning j cj key hj hcj) hci hcj

theorem Sound.request (h : ct.Sound w) (hfree : ∀ key, call.status.holds? ≠ some key)
    (hwaiting : ∀ key p, call.status = .waiting key p →
      ∀ s, ct.Inv s → ct.wp key (ct.ends key call.req) p s s) :
    ct.Sound ⟨w.state, w.calls ++ [call]⟩ := by
  refine Sound.mono ct h (fun other hmem => ?_) fun i other key hi hother => ?_
  · rcases mem_append.mp hmem with hmem | hmem
    · exact h.waiting other hmem
    · rw [mem_singleton.mp hmem]
      exact hwaiting
  · rw [getElem?_append] at hi
    split at hi
    · exact hi
    · rw [mem_singleton.mp (mem_of_getElem? hi)] at hother
      exact absurd hother (hfree key)

variable [DecidableEq K]

/-- **A step of a run** keeps the contract, and is a step of a holder or of the outside. -/
theorem Sound.step (hlaunch : ct.Launches) (h : ct.Sound w) {label : LockLabel Req O E}
    (hstep : sys.step label w = some w') : ct.Sound w' ∧ ct.Steps w.state w'.state := by
  cases label with
  | request req =>
    unfold LockSystem.step at hstep
    simp only at hstep
    split at hstep
    · cases hstep
      refine ⟨Sound.request ct h ?_ ?_, .refl _⟩
      · exact fun key hkey => (by cases hkey)
      · exact fun key p hp => (by cases hp)
    · rename_i key p hok
      cases hstep
      refine ⟨Sound.request ct h ?_ ?_, .refl _⟩
      · exact fun key hkey => (by cases hkey)
      · intro key' p' hp
        cases hp
        exact hlaunch req key p hok
  | acquire i o =>
    unfold LockSystem.step at hstep
    simp only at hstep
    split at hstep
    · rename_i req key p hi
      split at hstep
      · cases hstep
      rename_i hany
      cases hstep
      have hwp := h.waiting _ (mem_of_getElem? hi) key p rfl w.state h.inv
      obtain ⟨hguar, hstatus⟩ := ct.resume_sound o hwp
      refine ⟨Sound.resume ct h hi (fun j cj hj hheld => ?_) hguar hstatus, .guar key hguar⟩
      refine absurd ?_ hany
      rw [any_eq_true]
      exact ⟨cj, mem_of_getElem? hj, decide_eq_true hheld⟩
    · cases hstep
  | act i o =>
    unfold LockSystem.step at hstep
    simp only at hstep
    split at hstep
    · rename_i req key c k hi
      cases hstep
      obtain ⟨c', k', hp, hnext⟩ := h.running _ (mem_of_getElem? hi) key _ rfl
      cases hp
      have hwp := hnext w.state h.inv (ct.rely_refl key w.state) o
      obtain ⟨hguar, hstatus⟩ := ct.resume_sound o hwp
      refine ⟨Sound.resume ct h hi (fun j cj hj hheld => ?_) hguar hstatus, .guar key hguar⟩
      exact h.alone j i cj _ key hj hi hheld rfl
    · cases hstep
  | cancel i =>
    unfold LockSystem.step at hstep
    simp only at hstep
    split at hstep
    · rename_i req key p hi
      cases hstep
      refine ⟨Sound.mono ct h (fun other hmem => ?_) fun j other key' hj hother => ?_, .refl _⟩
      · rcases mem_or_eq_of_mem_set hmem with hmem | rfl
        · exact h.waiting other hmem
        · exact fun key' p' hp => (by cases hp)
      · rw [getElem?_set] at hj
        split at hj
        · split at hj
          · cases hj
            cases hother
          · cases hj
        · exact hj
    · cases hstep
  | env e =>
    obtain ⟨s, henv, rfl⟩ := Option.map_eq_some_iff.mp hstep
    refine ⟨⟨ct.env_inv henv h.inv, h.waiting, fun call hmem key p hp => ?_, h.alone⟩,
      .env e henv⟩
    exact (h.running call hmem key p hp).mono ct (ct.env_rely key henv h.inv)

/-- **Every run**: what each step of a holder and of the outside keeps, a run keeps. -/
theorem run_keeps (hlaunch : ct.Launches) (P : S → Prop)
    (hsteps : ∀ s s', ct.Inv s → ct.Steps s s' → P s → P s') (h : ct.Sound w)
    {labels : List (LockLabel Req O E)} (hrun : sys.run labels w = some w') :
    ct.Sound w' ∧ (P w.state → P w'.state) := by
  induction labels generalizing w with
  | nil =>
    cases hrun
    exact ⟨h, id⟩
  | cons label labels ih =>
    obtain ⟨next, hstep, hrest⟩ := Option.bind_eq_some_iff.mp hrun
    obtain ⟨hnext, hsteps'⟩ := Sound.step ct hlaunch h hstep
    obtain ⟨hsound, hkeeps⟩ := ih hnext hrest
    exact ⟨hsound, fun hP => hkeeps (hsteps _ _ h.inv hsteps' hP)⟩

end Run

end Contract

end AtomicProgram
