import GpuManager.Lib.Interleaving

/-!
# Processes that may stop

One process at a time works on a store.  A `Process` is an operation together with the number
of commands that it executes before it stops for good; with enough of them the operation comes
to its end.  The next process starts from what the store holds, and whatever the one before it
knew is gone.  "A crash at any point" is therefore "every list of processes".

The rule below is the one for such runs.  A monitor watches the current process; the invariant
relates the history, the store and what the monitor remembers.  It has to survive one command,
and it has to survive the loss of what the monitor remembers: at the end of an operation, where
the program's own postcondition helps, and where a process stops, under whatever is known about
the points at which processes stop.
-/

namespace AtomicProgram

open List

variable {S C : Type} {R : C → Type} {ε α Op L : Type} {J : List (Event S C) → S → L → Prop}

/-- What holds of every element of a list and the elements before it, with one element more. -/
theorem forall_split_concat {P : List α → α → Prop} {h : List α} {x : α}
    (hall : ∀ earlier y later, h = earlier ++ y :: later → P earlier y) (hlast : P h x)
    (earlier : List α) (y : α) (later : List α) (hsplit : h ++ [x] = earlier ++ y :: later) :
    P earlier y := by
  rcases eq_nil_or_concat later with rfl | ⟨rest, last, rfl⟩
  · obtain ⟨rfl, hy⟩ := append_inj' hsplit rfl
    obtain rfl : x = y := by simpa using hy
    exact hlast
  · have hsame : h ++ [x] = (earlier ++ y :: rest) ++ [last] := by simpa using hsplit
    obtain ⟨rfl, -⟩ := append_inj' hsame rfl
    exact hall earlier y rest rfl

namespace Prog

/-- What is left of a program after at most `n` commands, and the store it leaves. -/
def after (exec : (c : C) → S → R c × S) : ℕ → Prog C R ε α → S → Prog C R ε α × S
  | 0, p, s => (p, s)
  | _ + 1, .done r, s => (.done r, s)
  | n + 1, .call c k, s => (k (exec c s).1).after exec n (exec c s).2

/-- The first `n` commands of a program, with the stores they find. -/
def events (exec : (c : C) → S → R c × S) : ℕ → Prog C R ε α → S → List (Event S C)
  | 0, _, _ => []
  | _ + 1, .done _, _ => []
  | n + 1, .call c k, s => ⟨c, s⟩ :: (k (exec c s).1).events exec n (exec c s).2

end Prog

def Prog.Monitor.memory (m : Prog.Monitor L C R) (exec : (c : C) → S → R c × S) (l : L)
    (events : List (Event S C)) : L :=
  events.foldl (fun l e => m.next l e.cmd (exec e.cmd e.before).1) l

/-- An operation, and the number of commands after which it stops. -/
structure Process (Op : Type) where
  op : Op
  steps : ℕ

section Processes

variable (exec : (c : C) → S → R c × S) (program : Op → Prog C R ε α)

def processStore : S → List (Process Op) → S
  | s, [] => s
  | s, process :: processes => processStore ((program process.op).after exec process.steps s).2 processes

def processHistory : S → List (Process Op) → List (Event S C)
  | _, [] => []
  | s, process :: processes =>
    (program process.op).events exec process.steps s ++
      processHistory ((program process.op).after exec process.steps s).2 processes

/-- Every process comes to its end, or stops where `P` holds of the store and of what its monitor
remembers. -/
def StopsWhere (m : Prog.Monitor L C R) (l₀ : L) (P : S → L → Prop) : S → List (Process Op) → Prop
  | _, [] => True
  | s, process :: processes =>
    (((program process.op).after exec process.steps s).1.isDone = true ∨
        P ((program process.op).after exec process.steps s).2
          (m.memory exec l₀ ((program process.op).events exec process.steps s))) ∧
      StopsWhere m l₀ P ((program process.op).after exec process.steps s).2 processes

instance decidableStopsWhere (m : Prog.Monitor L C R) (l₀ : L) (P : S → L → Prop)
    [∀ s l, Decidable (P s l)] (s : S) :
    (processes : List (Process Op)) → Decidable (StopsWhere exec program m l₀ P s processes)
  | [] => inferInstanceAs (Decidable True)
  | process :: processes =>
    have := decidableStopsWhere m l₀ P ((program process.op).after exec process.steps s).2 processes
    inferInstanceAs (Decidable (_ ∧ _))

variable {P : S → L → Prop}

/-- Processes that may stop anywhere. -/
theorem stopsWhere_of_forall {m : Prog.Monitor L C R} {l₀ : L}
    (h : ∀ s l, P s l) (s : S) (processes : List (Process Op)) :
    StopsWhere exec program m l₀ P s processes := by
  induction processes generalizing s with
  | nil => trivial
  | cons process processes ih => exact ⟨Or.inr (h _ _), ih _⟩

end Processes

section Rule

variable {program : Op → Prog C R ε α} {m : Prog.Monitor L C R} {Q : L → Except ε α → Prop} {l₀ : L}

theorem Prog.Obeys.events (exec : (c : C) → S → R c × S) {p : Prog C R ε α} {l : L} {s : S}
    (hp : p.Obeys m Q l)
    (n : ℕ) (h0 : J [] s l)
    (hstep : ∀ earlier e later l, p.events exec n s = earlier ++ e :: later → J earlier e.before l →
      m.ok l e.cmd →
        J (earlier ++ [e]) (exec e.cmd e.before).2 (m.next l e.cmd (exec e.cmd e.before).1)) :
    J (p.events exec n s) (p.after exec n s).2 (m.memory exec l (p.events exec n s)) ∧
      (p.after exec n s).1.Obeys m Q (m.memory exec l (p.events exec n s)) ∧
      ∀ earlier e later, p.events exec n s = earlier ++ e :: later →
        ∃ l, m.ok l e.cmd ∧ J earlier e.before l := by
  induction n generalizing p l s J with
  | zero =>
    refine ⟨h0, hp, fun earlier e later h => ?_⟩
    cases earlier <;> cases h
  | succ n ih =>
    cases hp with
    | done hQ =>
      refine ⟨h0, .done hQ, fun earlier e later h => ?_⟩
      cases earlier <;> cases h
    | @call _ c k hok tail =>
      have hfirst : J [⟨c, s⟩] (exec c s).2 (m.next l c (exec c s).1) :=
        hstep [] ⟨c, s⟩ _ l rfl h0 hok
      obtain ⟨hend, hrest, hall⟩ := ih (tail (exec c s).1) (J := fun h => J (⟨c, s⟩ :: h)) hfirst
        (fun earlier e later l h hJ hok => by
          refine hstep (⟨c, s⟩ :: earlier) e later l ?_ hJ hok
          simp only [Prog.events, h, cons_append])
      refine ⟨hend, hrest, fun earlier e later h => ?_⟩
      cases earlier with
      | nil =>
        obtain ⟨rfl, -⟩ := cons.inj h
        exact ⟨l, hok, h0⟩
      | cons first earlier =>
        obtain ⟨rfl, htail⟩ := cons.inj h
        exact hall earlier e later htail

/-- **Every run of processes.** -/
theorem process_induction {exec : (c : C) → S → R c × S} (hobeys : ∀ op, (program op).Obeys m Q l₀)
    {s : S} {processes : List (Process Op)} (h0 : J [] s l₀)
    (hstep : ∀ earlier e later l, processHistory exec program s processes = earlier ++ e :: later →
      J earlier e.before l → m.ok l e.cmd →
      J (earlier ++ [e]) (exec e.cmd e.before).2 (m.next l e.cmd (exec e.cmd e.before).1))
    (hdone : ∀ h s l r, J h s l → Q l r → J h s l₀) (hstop : ∀ h s l, J h s l → P s l → J h s l₀)
    (hstops : StopsWhere exec program m l₀ P s processes) :
    J (processHistory exec program s processes) (processStore exec program s processes) l₀ ∧
      ∀ earlier e later, processHistory exec program s processes = earlier ++ e :: later →
        ∃ l, m.ok l e.cmd ∧ J earlier e.before l := by
  induction processes generalizing s J with
  | nil =>
    refine ⟨h0, fun earlier e later h => ?_⟩
    cases earlier <;> cases h
  | cons process processes ih =>
    obtain ⟨hcall, hcalls⟩ := hstops
    have hfirst := (hobeys process.op).events exec (J := J) (s := s) process.steps h0 (by
      intro earlier e later l h hJ hok
      refine hstep earlier e
        (later ++
          processHistory exec program ((program process.op).after exec process.steps s).2 processes) l
        ?_ hJ hok
      simp only [processHistory, h, append_assoc, cons_append])
    obtain ⟨hend, hrest, hall⟩ := hfirst
    -- The next process knows nothing of what this one knew.
    have hnext : J ((program process.op).events exec process.steps s)
        ((program process.op).after exec process.steps s).2 l₀ := by
      rcases hcall with hdone' | hP
      · generalize ((program process.op).after exec process.steps s).1 = rest at hrest hdone'
        cases hrest with
        | done hQ => exact hdone _ _ _ _ hend hQ
        | call _ _ => cases hdone'
      · exact hstop _ _ _ hend hP
    obtain ⟨hlast, hlater⟩ := ih
      (J := fun h => J ((program process.op).events exec process.steps s ++ h)) (by simpa using hnext)
      (fun earlier e later l h hJ hok => by
        have hwhole : processHistory exec program s (process :: processes) =
            ((program process.op).events exec process.steps s ++ earlier) ++ e :: later := by
          simp only [processHistory, h, append_assoc]
        simpa using hstep _ e later l hwhole hJ hok)
      (fun h s l r hJ hQ => hdone _ s l r hJ hQ) (fun h s l hJ hP => hstop _ s l hJ hP) hcalls
    refine ⟨hlast, fun earlier e later h => ?_⟩
    simp only [processHistory] at h
    rcases append_eq_append_iff.mp h with ⟨rest, hleft, hright⟩ | ⟨rest, hleft, hright⟩
    · subst hleft
      exact hlater rest e later hright
    cases rest with
    | nil =>
      simp only [append_nil] at hleft
      subst hleft
      obtain ⟨l, hok, hJ⟩ := hlater [] e later (by simpa using hright.symm)
      exact ⟨l, hok, by simpa using hJ⟩
    | cons first rest =>
      obtain ⟨rfl, -⟩ := cons.inj hright
      exact hall earlier e rest hleft

end Rule

end AtomicProgram
