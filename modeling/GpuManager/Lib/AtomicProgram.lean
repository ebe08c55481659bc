import Mathlib.Logic.Basic

/-!
# Programs over atomic commands

A client of a shared store is a sequential program that talks to the store
through **atomic commands**: it sends one command, waits for the typed reply,
and decides what to do next.  `Prog` is that program as a tree: a leaf is a
returned value or a raised exception, an inner node is one command together
with the continuation that receives its reply.

Two readings of the same tree matter.

* `Prog.run` is the sequential reading: the program runs to its end with nobody
  else touching the store.
* `AtomicProgram.System` (in `GpuManager.Lib.Interleaving`) is the concurrent
  reading: between any two commands of one client, any other client may execute
  any of its own.

Exceptions are part of the tree and not of the reply types, because the code
that is embedded here raises and catches between commands; `attempt` is the
`try` block that hands the exception back as a value.
-/

namespace AtomicProgram

/-- A program that issues commands `c : C`, receives replies of type `R c`, and
ends with a value of type `α` or an exception of type `ε`. -/
inductive Prog (C : Type) (R : C → Type) (ε α : Type) where
  | done : Except ε α → Prog C R ε α
  | call : (c : C) → (R c → Prog C R ε α) → Prog C R ε α

namespace Prog

variable {C : Type} {R : C → Type} {ε α β : Type}

/-- Sequencing: an exception ends the program, a value is handed on. -/
def bind : Prog C R ε α → (α → Prog C R ε β) → Prog C R ε β
  | .done (.ok a), f => f a
  | .done (.error e), _ => .done (.error e)
  | .call c k, f => .call c fun r => (k r).bind f

instance : Monad (Prog C R ε) where
  pure a := .done (.ok a)
  bind := bind

/-- Raise an exception. -/
def throw (e : ε) : Prog C R ε α := .done (.error e)

def perform (c : C) : Prog C R ε (R c) := .call c fun r => .done (.ok r)

/-- Run `p` and hand its outcome back as a value; nothing is raised. -/
def attempt : Prog C R ε α → Prog C R ε (Except ε α)
  | .done r => .done (.ok r)
  | .call c k => .call c fun r => (k r).attempt

/-- The program has come to its end. -/
def isDone : Prog C R ε α → Bool
  | .done _ => true
  | .call _ _ => false

@[simp] theorem pure_eq (a : α) : (pure a : Prog C R ε α) = .done (.ok a) := rfl

@[simp] theorem bind_done_ok (a : α) (f : α → Prog C R ε β) :
    (Prog.done (.ok a) : Prog C R ε α) >>= f = f a := rfl

@[simp] theorem bind_done_error (e : ε) (f : α → Prog C R ε β) :
    (Prog.done (.error e) : Prog C R ε α) >>= f = .done (.error e) := rfl

@[simp] theorem bind_throw (e : ε) (f : α → Prog C R ε β) :
    (Prog.throw e : Prog C R ε α) >>= f = .throw e := rfl

@[simp] theorem bind_call (c : C) (k : R c → Prog C R ε α)
    (f : α → Prog C R ε β) :
    Prog.call c k >>= f = .call c fun r => k r >>= f := rfl

@[simp] theorem bind_perform (c : C) (f : R c → Prog C R ε β) :
    Prog.perform c >>= f = .call c f := rfl

/-! ## The commands of a program -/

/-- Every command the program can issue, whatever the replies, satisfies `P`. -/
inductive Issues (P : C → Prop) : Prog C R ε α → Prop where
  | done (r : Except ε α) : Issues P (.done r)
  | call {c : C} {k : R c → Prog C R ε α} (head : P c) (tail : ∀ r, Issues P (k r)) :
      Issues P (.call c k)

variable {P : C → Prop} {p : Prog C R ε α} {f : α → Prog C R ε β}

theorem issues_bind (hp : p.Issues P) (hf : ∀ a, (f a).Issues P) :
    (p >>= f).Issues P := by
  induction hp with
  | done r =>
    cases r with
    | ok a => exact hf a
    | error e => exact .done _
  | call head tail ih => exact .call head ih

theorem issues_attempt (hp : p.Issues P) : p.attempt.Issues P := by
  induction hp with
  | done r => exact .done _
  | call head tail ih => exact .call head ih

/-! ## Monitors -/

/-- What is remembered about one client while it runs: `ok` says which command it may issue
next, and `next` takes note of the reply. -/
structure Monitor (L C : Type) (R : C → Type) where
  ok : L → C → Prop
  next : L → (c : C) → R c → L

variable {L : Type}

/-- Whatever the replies, the program issues only commands that the monitor allows, and ends
in a state and with an outcome that satisfy `Q`. -/
inductive Obeys (m : Monitor L C R) (Q : L → Except ε α → Prop) : L → Prog C R ε α → Prop where
  | done {l : L} {r : Except ε α} (h : Q l r) : Obeys m Q l (.done r)
  | call {l : L} {c : C} {k : R c → Prog C R ε α} (head : m.ok l c)
      (tail : ∀ r, Obeys m Q (m.next l c r) (k r)) : Obeys m Q l (.call c k)

section Obeys

variable {m : Monitor L C R} {l : L}

variable {p : Prog C R ε α}

theorem Obeys.mono {Q Q' : L → Except ε α → Prop} (hp : p.Obeys m Q l) (h : ∀ l r, Q l r → Q' l r) :
    p.Obeys m Q' l := by
  induction hp with
  | done hQ => exact .done (h _ _ hQ)
  | call head tail ih => exact .call head ih

/-- Sequencing: what the first part ends with is what the second part starts from. -/
theorem Obeys.bind {Q : L → Except ε α → Prop} {Q' : L → Except ε β → Prop}
    (hp : p.Obeys m Q l) (hok : ∀ l a, Q l (.ok a) → (f a).Obeys m Q' l)
    (herror : ∀ l e, Q l (.error e) → Q' l (.error e)) : (p >>= f).Obeys m Q' l := by
  induction hp with
  | @done l r hQ =>
    cases r with
    | ok a => exact hok l a hQ
    | error e => exact .done (herror l e hQ)
  | call head tail ih => exact .call head ih

/-- A `try` block ends with the outcome of its body as a value. -/
theorem Obeys.attempt {Q : L → Except ε α → Prop} (hp : p.Obeys m Q l) :
    p.attempt.Obeys m (fun l r => ∃ a, r = .ok a ∧ Q l a) l := by
  induction hp with
  | done hQ => exact .done ⟨_, rfl, hQ⟩
  | call head tail ih => exact .call head ih

/-- The monitor that allows the same commands all the time. -/
def Monitor.allowing (P : C → Prop) : Monitor Unit C R := ⟨fun _ => P, fun _ _ _ => ()⟩

/-- Sequencing, where the second part depends on what the first one can return. -/
theorem issues_bind_of_obeys {Q : Unit → Except ε α → Prop}
    {u : Unit} (hp : p.Obeys (Monitor.allowing P) Q u) (hf : ∀ u a, Q u (.ok a) → (f a).Issues P) :
    (p >>= f).Issues P := by
  induction hp with
  | @done u r hQ =>
    cases r with
    | ok a => exact hf u a hQ
    | error e => exact .done _
  | call head tail ih => exact .call head ih

end Obeys

/-! ## The sequential reading -/

variable {S : Type}

/-- Run a program to its end with no other client in between. -/
def run (exec : (c : C) → S → R c × S) : Prog C R ε α → S → Except ε α × S
  | .done r, s => (r, s)
  | .call c k, s => (k (exec c s).1).run exec (exec c s).2

variable (exec : (c : C) → S → R c × S)

/-- The sequential run of a sequence is the run of its parts. -/
theorem run_bind (p : Prog C R ε α) (f : α → Prog C R ε β) (s : S) :
    (p >>= f).run exec s =
      match p.run exec s with
      | (.ok a, s') => (f a).run exec s'
      | (.error e, s') => (.error e, s') := by
  induction p generalizing s with
  | done r => cases r <;> rfl
  | call c k ih => exact ih (exec c s).1 (exec c s).2

/-- The sequential run of a `try` block never raises. -/
theorem run_attempt (p : Prog C R ε α) (s : S) :
    p.attempt.run exec s = (.ok (p.run exec s).1, (p.run exec s).2) := by
  induction p generalizing s with
  | done r => rfl
  | call c k ih => exact ih (exec c s).1 (exec c s).2

def commands (exec : (c : C) → S → R c × S) : Prog C R ε α → S → List C
  | .done _, _ => []
  | .call c k, s => c :: (k (exec c s).1).commands exec (exec c s).2

/-- What each of its commands keeps, the sequential run keeps. -/
theorem run_of_commands {K : S → Prop} (hK : ∀ c s, P c → K s → K (exec c s).2) {s : S}
    (hok : ∀ c ∈ p.commands exec s, P c) (hs : K s) : K (p.run exec s).2 := by
  induction p generalizing s with
  | done r => exact hs
  | call c k ih =>
    simp only [commands, List.forall_mem_cons] at hok
    exact ih _ hok.2 (hK c s hok.1 hs)

/-- `Q` holds of the outcome and the store that the sequential run ends with. -/
def Ends (p : Prog C R ε α) (Q : Except ε α → S → Prop) (s : S) : Prop :=
  Q (p.run exec s).1 (p.run exec s).2

variable {exec} {Q : Except ε α → S → Prop} {s : S}

theorem ends_pure {a : α} (h : Q (.ok a) s) : Ends exec (pure a) Q s := h

theorem ends_throw {e : ε} (h : Q (.error e) s) : Ends exec (.throw e) Q s := h

theorem ends_mono {Q' : Except ε α → S → Prop} (h : Ends exec p Q s) (hQ : ∀ r t, Q r t → Q' r t) :
    Ends exec p Q' s := hQ _ _ h

theorem ends_bind {p : Prog C R ε β} {f : β → Prog C R ε α}
    (h : Ends exec p (fun r t => match r with
      | .ok b => Ends exec (f b) Q t
      | .error e => Q (.error e) t) s) : Ends exec (p >>= f) Q s := by
  unfold Ends at h ⊢
  rw [run_bind]
  split
  · rename_i b s' heq
    rw [heq] at h
    exact h
  · rename_i e s' heq
    rw [heq] at h
    exact h

theorem ends_attempt {p : Prog C R ε β} {Q : Except ε (Except ε β) → S → Prop}
    (h : Ends exec p (fun r t => Q (.ok r) t) s) : Ends exec p.attempt Q s := by
  unfold Ends at h ⊢
  rw [run_attempt]
  exact h

theorem ends_ite {c : Prop} [Decidable c] {q : Prog C R ε α} (hp : c → Ends exec p Q s)
    (hq : ¬ c → Ends exec q Q s) : Ends exec (if c then p else q) Q s := by
  split
  · rename_i hc
    exact hp hc
  · rename_i hc
    exact hq hc

theorem ends_map {p : Prog C R ε β} {f : β → α}
    (h : Ends exec p (fun r t => Q (r.map f) t) s) : Ends exec (f <$> p) Q s := by
  refine ends_bind (f := fun b => pure (f b)) (ends_mono h ?_)
  rintro (e | b) t hQ
  · exact hQ
  · exact ends_pure hQ

end Prog

end AtomicProgram
