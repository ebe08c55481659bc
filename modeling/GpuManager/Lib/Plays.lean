import GpuManager.Lib.AtomicProgram

/-!
# Programs played against an environment

One program on a shared state.  What a command answers is partly up to an oracle, and between two
commands the environment takes any number of steps of its own.  A play is a list of moves of
either kind, and ends when the program does.

`Rules` says what the environment keeps and what one may rely on while it moves; `Rules.wp` is the
weakest precondition of a program under it, and `Rules.play_sound` turns it into a statement about
every play.  A condition on the commands of a play, in the states in which they are executed, is
part of both.
-/

namespace AtomicProgram

variable {S C : Type} {R : C → Type} {ε ε' α β O E : Type}

def Prog.rescue : Prog C R ε α → (Except ε α → Prog C R ε' β) → Prog C R ε' β
  | .done r, f => f r
  | .call c k, f => .call c fun r => (k r).rescue f

/-- A state with commands, and an environment.  An oracle may not fit a command. -/
structure Arena (S C : Type) (R : C → Type) (O E : Type) where
  exec : (c : C) → O → S → Option (R c × S)
  env : E → S → Option S

/-- The program executes a command, or the environment moves. -/
inductive Move (O E : Type) where
  | act (o : O)
  | env (e : E)

namespace Arena

variable (arena : Arena S C R O E)

/-- One move. -/
def step : Move O E → Prog C R ε α → S → Option (Prog C R ε α × S)
  | .act o, .call c k, s => (arena.exec c o s).map fun r => (k r.1, r.2)
  | .env e, .call c k, s => (arena.env e s).map fun s => (.call c k, s)
  | _, .done _, _ => none

/-- The moves of a play. -/
def play : List (Move O E) → Prog C R ε α → S → Option (Prog C R ε α × S)
  | [], p, s => some (p, s)
  | move :: moves, p, s => (arena.step move p s).bind fun next => play moves next.1 next.2

/-- The outcome of a play whose program has come to its end. -/
def outcome? (moves : List (Move O E)) (p : Prog C R ε α) (s : S) : Option (Except ε α × S) :=
  match arena.play moves p s with
  | some (.done r, s') => some (r, s')
  | _ => none

theorem play_of_outcome? {moves : List (Move O E)} {p : Prog C R ε α} {s : S}
    {r : Except ε α × S} (h : arena.outcome? moves p s = some r) :
    arena.play moves p s = some (.done r.1, r.2) := by
  unfold outcome? at h
  split at h
  · rename_i hplay
    obtain rfl := Option.some.inj h
    exact hplay
  · cases h

def AllActs (K : C → O → S → Prop) : List (Move O E) → Prog C R ε α → S → Prop
  | [], _, _ => True
  | move :: moves, p, s =>
    (match move, p with
      | .act o, .call c _ => K c o s
      | _, _ => True) ∧
    ∀ next, arena.step move p s = some next → AllActs K moves next.1 next.2

instance decidableAllActs (K : C → O → S → Prop) [∀ c o s, Decidable (K c o s)] :
    (moves : List (Move O E)) → (p : Prog C R ε α) → (s : S) →
      Decidable (arena.AllActs K moves p s)
  | [], _, _ => isTrue trivial
  | move :: moves, p, s =>
    have _ : Decidable (match move, p with
        | .act o, .call c _ => K c o s
        | _, _ => True) := by
      split <;> infer_instance
    have _ : Decidable (∀ next, arena.step move p s = some next →
        arena.AllActs K moves next.1 next.2) :=
      match hstep : arena.step move p s with
      | none => isTrue fun _ h => (by cases h)
      | some next =>
        have _ := decidableAllActs K moves next.1 next.2
        decidable_of_iff (arena.AllActs K moves next.1 next.2)
          ⟨fun h _ hnext => Option.some.inj hnext ▸ h, fun h => h next rfl⟩
    inferInstanceAs (Decidable (_ ∧ _))

end Arena

/-- What the environment keeps, and what one may rely on while it moves. -/
structure Rules (arena : Arena S C R O E) where
  Inv : S → Prop
  rely : S → S → Prop
  rely_refl : ∀ s, rely s s
  rely_trans : ∀ {s s' s''}, rely s s' → rely s' s'' → rely s s''
  env : ∀ {e s s'}, arena.env e s = some s' → Inv s → Inv s' ∧ rely s s'

namespace Rules

variable {arena : Arena S C R O E} (rules : Rules arena) (K : C → O → S → Prop)

/-- The weakest precondition of a program under the environment. -/
def wp (post : Except ε α → S → Prop) : Prog C R ε α → S → Prop
  | .done r, s => post r s
  | .call c k, s => ∀ s', rules.Inv s' → rules.rely s s' → ∀ o, K c o s' →
      ∀ r s'', arena.exec c o s' = some (r, s'') → rules.Inv s'' ∧ wp post (k r) s''

variable {K} {post post' : Except ε α → S → Prop} {p : Prog C R ε α} {s s' : S}

theorem wp_mono (h : rules.wp K post p s) (hpost : ∀ r s, post r s → post' r s) :
    rules.wp K post' p s := by
  induction p generalizing s with
  | done r => exact hpost r s h
  | call c k ih =>
    intro s' hinv hrely o hK r s'' hexec
    obtain ⟨hinv', hnext⟩ := h s' hinv hrely o hK r s'' hexec
    exact ⟨hinv', ih r hnext⟩

/-- The handler of an outcome starts where the program ends. -/
theorem wp_rescue {f : Except ε α → Prog C R ε' β} {last : Except ε' β → S → Prop}
    (h : rules.wp K (fun r s => rules.wp K last (f r) s) p s) :
    rules.wp K last (p.rescue f) s := by
  induction p generalizing s with
  | done r => exact h
  | call c k ih =>
    intro s' hinv hrely o hK r s'' hexec
    obtain ⟨hinv', hnext⟩ := h s' hinv hrely o hK r s'' hexec
    exact ⟨hinv', ih r hnext⟩

theorem wp_bind {f : α → Prog C R ε β} {last : Except ε β → S → Prop}
    (h : rules.wp K (fun r s =>
      match r with
      | .ok a => rules.wp K last (f a) s
      | .error e => last (.error e) s) p s) :
    rules.wp K last (p >>= f) s := by
  induction p generalizing s with
  | done r =>
    cases r with
    | ok a | error e => exact h
  | call c k ih =>
    rw [Prog.bind_call]
    intro s' hinv hrely o hK r s'' hexec
    obtain ⟨hinv', hnext⟩ := h s' hinv hrely o hK r s'' hexec
    exact ⟨hinv', ih r hnext⟩

/-- What may be relied on does not disturb a program that is about to execute a command. -/
theorem wp_rely {c : C} {k : R c → Prog C R ε α} (h : rules.wp K post (.call c k) s)
    (hrely : rules.rely s s') : rules.wp K post (.call c k) s' :=
  fun s'' hinv hrely' => h s'' hinv (rules.rely_trans hrely hrely')

/-- **Every play** that ends, ends in the postcondition. -/
theorem play_sound {moves : List (Move O E)} (hinv : rules.Inv s) (h : rules.wp K post p s)
    (hK : arena.AllActs K moves p s) {r : Except ε α}
    (hplay : arena.play moves p s = some (.done r, s')) : post r s' := by
  induction moves generalizing p s with
  | nil =>
    obtain ⟨rfl, rfl⟩ := Prod.mk.inj (Option.some.inj hplay)
    exact h
  | cons move moves ih =>
    obtain ⟨⟨q, t⟩, hstep, hrest⟩ := Option.bind_eq_some_iff.mp hplay
    obtain ⟨hact, hlater⟩ := hK
    have hlater := hlater _ hstep
    cases p with
    | done r' => cases move <;> cases hstep
    | call c k =>
      cases move with
      | act o =>
        obtain ⟨⟨answer, t'⟩, hexec, heq⟩ := Option.map_eq_some_iff.mp hstep
        obtain ⟨rfl, rfl⟩ := Prod.mk.inj heq
        obtain ⟨hinv', hnext⟩ := h s hinv (rules.rely_refl s) o hact answer t' hexec
        exact ih hinv' hnext hlater hrest
      | env e =>
        obtain ⟨t', henv, heq⟩ := Option.map_eq_some_iff.mp hstep
        obtain ⟨rfl, rfl⟩ := Prod.mk.inj heq
        obtain ⟨hinv', hrely⟩ := rules.env henv hinv
        exact ih hinv' (rules.wp_rely h hrely) hlater hrest

end Rules

end AtomicProgram
