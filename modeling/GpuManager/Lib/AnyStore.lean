import GpuManager.Lib.AtomicProgram

/-!
# Programs over a store that may hold anything

Other clients act between the commands of a program, and nothing is known of what they do: when a
command arrives, the store may hold anything.  `note` keeps what is remembered of the commands.

* `Must`: whatever the store holds, the program ends as it should.
* `May`: for some contents of the store, it ends in a given way.
-/

namespace AtomicProgram.Prog

variable {C S L ε α β : Type} {R : C → Type}

section Defs

variable (exec : (c : C) → S → R c × S) (note : L → C → S → L)

/-- However the store is found by each command, the program ends so that `Q` holds. -/
def Must (Q : L → Except ε α → Prop) : Prog C R ε α → L → Prop
  | .done r, l => Q l r
  | .call c k, l => ∀ s, Must Q (k (exec c s).1) (note l c s)

/-- The store can be found by the commands so that the program ends with `P`. -/
def May (P : L → Except ε α → Prop) : Prog C R ε α → L → Prop
  | .done r, l => P l r
  | .call c k, l => ∃ s, May P (k (exec c s).1) (note l c s)

end Defs

variable {exec : (c : C) → S → R c × S} {note : L → C → S → L} {l : L}

variable {Q P : L → Except ε α → Prop} {p : Prog C R ε α} {f : α → Prog C R ε β}

/-- What may happen is what must. -/
theorem must_may (hQ : p.Must exec note Q l) (hP : p.May exec note P l) : ∃ l r, Q l r ∧ P l r := by
  induction p generalizing l with
  | done r => exact ⟨l, r, hQ, hP⟩
  | call c k ih =>
    obtain ⟨s, hs⟩ := hP
    exact ih _ (hQ s) hs

theorem Must.mono {Q' : L → Except ε α → Prop} (hp : p.Must exec note Q l)
    (h : ∀ l r, Q l r → Q' l r) : p.Must exec note Q' l := by
  induction p generalizing l with
  | done r => exact h l r hp
  | call c k ih => exact fun s => ih _ (hp s)

theorem Must.bind {Q' : L → Except ε β → Prop} (hp : p.Must exec note Q l)
    (hok : ∀ l a, Q l (.ok a) → (f a).Must exec note Q' l)
    (herror : ∀ l e, Q l (.error e) → Q' l (.error e)) : (p >>= f).Must exec note Q' l := by
  induction p generalizing l with
  | done r =>
    cases r with
    | ok a => exact hok l a hp
    | error e => exact herror l e hp
  | call c k ih => exact fun s => ih _ (hp s)

/-- A `try` block ends with the outcome of its body as a value. -/
theorem Must.attempt (hp : p.Must exec note Q l) :
    p.attempt.Must exec note (fun l r => ∃ a, r = .ok a ∧ Q l a) l := by
  induction p generalizing l with
  | done r => exact ⟨r, rfl, hp⟩
  | call c k ih => exact fun s => ih _ (hp s)

theorem May.bind {P' : L → Except ε β → Prop} (hp : p.May exec note P l)
    (hok : ∀ l r, P l r → ∃ a, r = .ok a ∧ (f a).May exec note P' l) :
    (p >>= f).May exec note P' l := by
  induction p generalizing l with
  | done r =>
    obtain ⟨a, rfl, hf⟩ := hok l r hp
    exact hf
  | call c k ih =>
    obtain ⟨s, hs⟩ := hp
    exact ⟨s, ih _ hs⟩

theorem May.attempt (hp : p.May exec note P l) :
    p.attempt.May exec note (fun l r => ∃ a, r = .ok a ∧ P l a) l := by
  induction p generalizing l with
  | done r => exact ⟨r, rfl, hp⟩
  | call c k ih =>
    obtain ⟨s, hs⟩ := hp
    exact ⟨s, ih _ hs⟩

end AtomicProgram.Prog
