import Mathlib.Algebra.Ring.Int.Defs
import Mathlib.Data.List.Basic
import Mathlib.Order.Basic
import GpuManager.Lib.AtomicProgram

/-!
# Interleaved runs of atomic programs

A `System` is a store with atomic commands and a way to launch client programs.
A configuration is the store together with every client launched so far; a run
is a list of labels, each of which launches one client or lets one client
execute its next command.  No fairness and no bound on the number of clients is
assumed, so "every interleaving" is "every list of labels".

## Reasoning about a run

Invariants of a concurrent store are rarely facts about the store alone: a
client holds a private copy of what it read, and the argument is about how that
copy relates to the store *now*.  `Discipline` packages the ingredients of that
argument.

* `Inv` is the store invariant and `Le` is the order in which the store evolves:
  whatever a client has learnt must survive every step upwards in `Le`.
* `Ok c s` is what a client promises about a command at the moment it executes
  it; `Allowed c s` is a condition on the run, not on the clients.
* `preserves` is the one obligation per command: an allowed command that keeps
  its promise keeps `Inv` and moves the store upwards.

`Discipline.wp` is then the weakest precondition under interference: at each
command it quantifies over every later store, so it is stable by construction
(`wp_of_le`), and `Discipline.sound` turns one `wp` per launched program into a
statement about every run.
-/

namespace AtomicProgram

open List Function

variable {S C : Type} {R : C → Type} {ε α Op : Type} {c : C} {i : ℕ}

/-- A shared store with atomic commands.  `launch` receives the outcomes of the
clients that have finished, so that one operation may take over what another
returned. -/
structure System (S C : Type) (R : C → Type) (ε α Op : Type) where
  exec : (c : C) → S → R c × S
  launch : (ℕ → Option (Except ε α)) → Op → Option (Prog C R ε α)

structure Config (S C : Type) (R : C → Type) (ε α : Type) where
  store : S
  clients : List (Prog C R ε α)

def Config.result (cfg : Config S C R ε α) (i : ℕ) : Option (Except ε α) :=
  match cfg.clients[i]? with
  | some (.done r) => some r
  | _ => none

theorem Config.mem_of_result {cfg : Config S C R ε α} {r : Except ε α}
    (h : cfg.result i = some r) : Prog.done r ∈ cfg.clients := by
  unfold Config.result at h
  split at h
  · rename_i r' hget
    obtain rfl : r' = r := by simpa using h
    exact mem_of_getElem? hget
  · cases h

/-- One step of a run: launch a client, or let client `i` execute its next
command. -/
inductive Label (Op : Type) where
  | start (op : Op)
  | act (i : ℕ)

/-- The client that a label lets act. -/
def Label.client {Op : Type} : Label Op → ℕ
  | .start _ => 0
  | .act i => i

/-- A command executed in a run, with the store it was executed in. -/
structure Event (S C : Type) where
  cmd : C
  before : S

namespace System

variable (sys : System S C R ε α Op) {l : Label Op}

def pending (cfg : Config S C R ε α) : Label Op → Option C
  | .start _ => none
  | .act i =>
    match cfg.clients[i]? with
    | some (.call c _) => some c
    | _ => none

/-- The configuration after one label.  A label that names no runnable client
changes nothing. -/
def step (cfg : Config S C R ε α) : Label Op → Config S C R ε α
  | .start op =>
    match sys.launch cfg.result op with
    | some p => { cfg with clients := cfg.clients ++ [p] }
    | none => cfg
  | .act i =>
    match cfg.clients[i]? with
    | some (.call c k) =>
      { store := (sys.exec c cfg.store).2
        clients := cfg.clients.set i (k (sys.exec c cfg.store).1) }
    | _ => cfg

/-- The configuration a run ends in. -/
def run (cfg : Config S C R ε α) (labels : List (Label Op)) :
    Config S C R ε α :=
  labels.foldl sys.step cfg

def history (cfg : Config S C R ε α) : List (Label Op) → List (Event S C)
  | [] => []
  | l :: ls =>
    match pending cfg l with
    | some c => ⟨c, cfg.store⟩ :: history (sys.step cfg l) ls
    | none => history (sys.step cfg l) ls

/-- The commands a run executes, in order, with the clients that executed them. -/
def trace (cfg : Config S C R ε α) : List (Label Op) → List (ℕ × Event S C)
  | [] => []
  | l :: ls =>
    match pending cfg l with
    | some c => (l.client, ⟨c, cfg.store⟩) :: trace (sys.step cfg l) ls
    | none => trace (sys.step cfg l) ls

/-- The store an event leaves behind. -/
def after (e : Event S C) : S := (sys.exec e.cmd e.before).2

def reply (e : Event S C) : R e.cmd := (sys.exec e.cmd e.before).1

section

variable (cfg : Config S C R ε α)

@[simp] theorem run_nil : sys.run cfg [] = cfg := rfl

@[simp] theorem run_cons (l : Label Op) (ls : List (Label Op)) :
    sys.run cfg (l :: ls) = sys.run (sys.step cfg l) ls := rfl

theorem run_append (ls ls' : List (Label Op)) :
    sys.run cfg (ls ++ ls') = sys.run (sys.run cfg ls) ls' := by
  simp [run, foldl_append]

theorem history_append (ls ls' : List (Label Op)) :
    sys.history cfg (ls ++ ls') =
      sys.history cfg ls ++ sys.history (sys.run cfg ls) ls' := by
  induction ls generalizing cfg with
  | nil => rfl
  | cons l ls ih =>
    simp only [cons_append, history, run_cons]
    split <;> simp [ih]

/-- A label executes its pending command and nothing else touches the store. -/
theorem step_store (l : Label Op) :
    (sys.step cfg l).store =
      match pending cfg l with
      | some c => (sys.exec c cfg.store).2
      | none => cfg.store := by
  cases l with
  | start op =>
    simp only [step, pending]
    split <;> rfl
  | act i =>
    simp only [step, pending]
    split <;> simp_all

theorem run_concat_store (ls : List (Label Op)) (l : Label Op) :
    (sys.run cfg (ls ++ [l])).store =
      match pending (sys.run cfg ls) l with
      | some c => (sys.exec c (sys.run cfg ls).store).2
      | none => (sys.run cfg ls).store := by
  rw [run_append]
  exact sys.step_store (sys.run cfg ls) l

end

variable {cfg : Config S C R ε α} {ls : List (Label Op)} {Admits : Op → Prop} {e : Event S C}

/-- What a label executes is part of the history. -/
theorem mem_history_of_pending (hp : pending (sys.run cfg ls) l = some c) :
    ⟨c, (sys.run cfg ls).store⟩ ∈ sys.history cfg (ls ++ [l]) := by
  rw [history_append, mem_append]
  right
  simp [history, hp]

/-- A client that is about to execute a command goes on with its reply. -/
theorem step_act {k : R c → Prog C R ε α} {r : R c} {s : S}
    (hget : cfg.clients[i]? = some (.call c k)) (hexec : sys.exec c cfg.store = (r, s)) :
    sys.step cfg (.act i) = ⟨s, cfg.clients.set i (k r)⟩ := by
  simp only [step, hget, hexec]

/-- **Store induction.**  A property of the store that every executed command
keeps holds at the end of the run. -/
theorem run_induction (P : S → Prop) (h0 : P cfg.store)
    (hstep : ∀ e ∈ sys.history cfg ls, P e.before → P (sys.after e)) :
    P (sys.run cfg ls).store := by
  induction ls generalizing cfg with
  | nil => exact h0
  | cons l ls ih =>
    simp only [run_cons]
    have hstore := sys.step_store cfg l
    cases hp : pending cfg l with
    | none =>
      simp only [hp] at hstore
      refine ih (hstore ▸ h0) fun e he => hstep e ?_
      simpa [history, hp] using he
    | some c =>
      simp only [hp] at hstore
      have hhead : P (sys.exec c cfg.store).2 :=
        hstep ⟨c, cfg.store⟩ (by simp [history, hp]) h0
      refine ih (hstore ▸ hhead) fun e he => hstep e ?_
      simp only [history, hp]
      exact mem_cons_of_mem _ he

/-- Such a property also holds before every executed command. -/
theorem history_induction (P : S → Prop) (h0 : P cfg.store)
    (hstep : ∀ e ∈ sys.history cfg ls, P e.before → P (sys.after e)) :
    ∀ e ∈ sys.history cfg ls, P e.before := by
  induction ls generalizing cfg with
  | nil => exact fun e he => (by cases he)
  | cons l ls ih =>
    have hstore := sys.step_store cfg l
    cases hp : pending cfg l with
    | none =>
      simp only [hp] at hstore
      simp only [history, hp] at hstep ⊢
      exact ih (hstore ▸ h0) hstep
    | some c =>
      simp only [hp] at hstore
      simp only [history, hp, forall_mem_cons] at hstep ⊢
      have hhead : P (sys.exec c cfg.store).2 := hstep.1 h0
      exact ⟨h0, ih (hstore ▸ hhead) hstep.2⟩

/-- The history is the trace without the clients. -/
theorem trace_map_snd (cfg : Config S C R ε α) (ls : List (Label Op)) :
    (sys.trace cfg ls).map Prod.snd = sys.history cfg ls := by
  induction ls generalizing cfg with
  | nil => rfl
  | cons l ls ih =>
    simp only [trace, history]
    split
    · rw [map_cons, ih]
    · exact ih _

theorem trace_append (cfg : Config S C R ε α) (ls ls' : List (Label Op)) :
    sys.trace cfg (ls ++ ls') = sys.trace cfg ls ++ sys.trace (sys.run cfg ls) ls' := by
  induction ls generalizing cfg with
  | nil => rfl
  | cons l ls ih =>
    simp only [cons_append, trace, run_cons]
    split <;> simp [ih]

theorem mem_history_of_mem_trace {x : ℕ × Event S C} (h : x ∈ sys.trace cfg ls) :
    x.2 ∈ sys.history cfg ls := by
  rw [← trace_map_snd]
  exact mem_map_of_mem h

theorem mem_trace_of_pending (hp : pending (sys.run cfg ls) l = some c) :
    (l.client, ⟨c, (sys.run cfg ls).store⟩) ∈ sys.trace cfg (ls ++ [l]) := by
  rw [trace_append, mem_append]
  right
  simp [trace, hp]

/-- **Trace induction.**  A property of what was executed so far and of the store that every
executed command keeps holds before each of them and at the end of the run. -/
theorem trace_induction (P : List (ℕ × Event S C) → S → Prop) (h0 : P [] cfg.store)
    (hstep : ∀ earlier x later, sys.trace cfg ls = earlier ++ x :: later →
      P earlier x.2.before → P (earlier ++ [x]) (sys.after x.2)) :
    (∀ earlier x later, sys.trace cfg ls = earlier ++ x :: later → P earlier x.2.before) ∧
      P (sys.trace cfg ls) (sys.run cfg ls).store := by
  induction ls generalizing cfg P with
  | nil =>
    refine ⟨fun earlier x later h => ?_, h0⟩
    cases earlier <;> cases h
  | cons l ls ih =>
    have hstore := sys.step_store cfg l
    cases hp : pending cfg l with
    | none =>
      simp only [hp] at hstore
      simp only [trace, hp] at hstep ⊢
      exact ih P (hstore ▸ h0) hstep
    | some c =>
      simp only [hp] at hstore
      simp only [trace, hp] at hstep ⊢
      -- The rest of the run starts with this command already executed.
      have hhead : P [(l.client, ⟨c, cfg.store⟩)] (sys.step cfg l).store := by
        rw [hstore]
        exact hstep [] _ _ rfl h0
      obtain ⟨hbefore, hend⟩ := ih (fun earlier s => P ((l.client, ⟨c, cfg.store⟩) :: earlier) s)
        hhead fun earlier x later h => by
          simpa using hstep ((l.client, ⟨c, cfg.store⟩) :: earlier) x later (by simp [h])
      refine ⟨fun earlier x later h => ?_, hend⟩
      cases earlier with
      | nil =>
        obtain ⟨rfl, -⟩ := cons.inj h
        exact h0
      | cons y earlier =>
        obtain ⟨rfl, hrest⟩ := cons.inj h
        exact hbefore earlier x later hrest

/-- Every executed command starts in a store the run visits and leaves one the
run visits next. -/
theorem exists_prefix_of_mem_history (he : e ∈ sys.history cfg ls) :
    ∃ l₁ l, l₁ <+: ls ∧ (l₁ ++ [l]) <+: ls ∧
      e.before = (sys.run cfg l₁).store ∧
      sys.after e = (sys.run cfg (l₁ ++ [l])).store := by
  induction ls generalizing cfg with
  | nil => cases he
  | cons l ls ih =>
    have hstore := sys.step_store cfg l
    have hlater : e ∈ sys.history (sys.step cfg l) ls →
        ∃ l₁ l', l₁ <+: l :: ls ∧ (l₁ ++ [l']) <+: l :: ls ∧
          e.before = (sys.run cfg l₁).store ∧
          sys.after e = (sys.run cfg (l₁ ++ [l'])).store := by
      intro hmem
      obtain ⟨l₁, l', h₁, h₂, hb, ha⟩ := ih hmem
      refine ⟨l :: l₁, l', ?_, ?_, hb, ha⟩
      · simpa using h₁
      · simpa using h₂
    cases hp : pending cfg l with
    | none => exact hlater (by simpa [history, hp] using he)
    | some c =>
      simp only [history, hp, mem_cons] at he
      rcases he with rfl | hmem
      · simp only [hp] at hstore
        refine ⟨[], l, nil_prefix, by simp, rfl, ?_⟩
        simp [after, hstore]
      · exact hlater hmem

/-- The commands of an initial part of a run are commands of the run. -/
theorem mem_history_of_isPrefix {ls₁ : List (Label Op)} (h : ls₁ <+: ls)
    (he : e ∈ sys.history cfg ls₁) : e ∈ sys.history cfg ls := by
  obtain ⟨ls₂, rfl⟩ := h
  rw [history_append]
  exact mem_append_left _ he

/-- **Order along a run.**  If every executed command moves the store upwards in a
preorder, then a later command starts above what an earlier one left behind. -/
theorem history_pairwise (le : S → S → Prop) (hrefl : ∀ s, le s s)
    (htrans : ∀ s t u, le s t → le t u → le s u)
    (hstep : ∀ e ∈ sys.history cfg ls, le e.before (sys.after e)) :
    (∀ e ∈ sys.history cfg ls, le cfg.store e.before) ∧
      (sys.history cfg ls).Pairwise fun e e' => le (sys.after e) e'.before := by
  induction ls generalizing cfg with
  | nil => exact ⟨fun e he => (by cases he), Pairwise.nil⟩
  | cons l ls ih =>
    have hstore := sys.step_store cfg l
    cases hp : pending cfg l with
    | none =>
      simp only [hp] at hstore
      simp only [history, hp] at hstep ⊢
      rw [← hstore]
      exact ih hstep
    | some c =>
      simp only [hp] at hstore
      simp only [history, hp, forall_mem_cons, pairwise_cons] at hstep ⊢
      obtain ⟨hfirst, hlater⟩ := ih hstep.2
      rw [hstore] at hfirst
      refine ⟨⟨hrefl _, fun e he => ?_⟩, fun e he => hfirst e he, hlater⟩
      exact htrans _ _ _ hstep.1 (hfirst e he)

/-- **Measure along a run.**  What each executed command adds to a measure of the store, the
run adds up. -/
theorem run_measure (m : S → ℤ) (f : Event S C → ℤ)
    (hstep : ∀ e ∈ sys.history cfg ls, m (sys.after e) = m e.before + f e) :
    m (sys.run cfg ls).store = m cfg.store + ((sys.history cfg ls).map f).sum := by
  induction ls generalizing cfg with
  | nil => simp [history]
  | cons l ls ih =>
    simp only [run_cons]
    have hstore := sys.step_store cfg l
    cases hp : pending cfg l with
    | none =>
      simp only [hp] at hstore
      simp only [history, hp] at hstep ⊢
      rw [ih hstep, hstore]
    | some c =>
      simp only [hp] at hstore
      simp only [history, hp, forall_mem_cons, map_cons, sum_cons] at hstep ⊢
      have hhead : m (sys.exec c cfg.store).2 = m cfg.store + f ⟨c, cfg.store⟩ := hstep.1
      rw [ih hstep.2, hstore, hhead]
      omega

/-- Every command of a run is one that a launched program can issue. -/
theorem issues_run {P : C → Prop}
    (hl : ∀ results op p, Admits op → sys.launch results op = some p → p.Issues P)
    (hcfg : ∀ p ∈ cfg.clients, p.Issues P) (hadm : ∀ op, Label.start op ∈ ls → Admits op) :
    ∀ e ∈ sys.history cfg ls, P e.cmd := by
  induction ls generalizing cfg with
  | nil => exact fun e he => (by cases he)
  | cons l ls ih =>
    have htail : ∀ op, Label.start op ∈ ls → Admits op :=
      fun op hop => hadm op (mem_cons_of_mem _ hop)
    have hnext : ∀ p ∈ (sys.step cfg l).clients, p.Issues P := by
      intro p hp
      cases l with
      | start op =>
        simp only [step] at hp
        split at hp
        next q hq =>
          rcases mem_append.mp hp with hp | hp
          · exact hcfg p hp
          · obtain rfl := mem_singleton.mp hp
            exact hl _ op p (hadm op mem_cons_self) hq
        · exact hcfg p hp
      | act i =>
        simp only [step] at hp
        split at hp
        next c k hget =>
          rcases mem_or_eq_of_mem_set hp with hp | rfl
          · exact hcfg p hp
          · cases hcfg _ (mem_of_getElem? hget) with
            | call head tail => exact tail _
        · exact hcfg p hp
    cases hpending : pending cfg l with
    | none =>
      simp only [history, hpending]
      exact ih hnext htail
    | some c =>
      simp only [history, hpending, forall_mem_cons]
      refine ⟨?_, ih hnext htail⟩
      cases l with
      | start op => cases hpending
      | act i =>
        simp only [pending] at hpending
        split at hpending
        next c' k hget =>
          obtain rfl := Option.some.inj hpending
          cases hcfg _ (mem_of_getElem? hget) with
          | call head tail => exact head
        · cases hpending

/-! ## Monitored runs -/

variable {L : Type} {m : Prog.Monitor L C R} {ℓ : ℕ → L}

/-- What a monitor remembers about each client after a trace. -/
def locals (m : Prog.Monitor L C R) (ℓ : ℕ → L) (trace : List (ℕ × Event S C)) : ℕ → L :=
  trace.foldl (fun ℓ x => update ℓ x.1 (m.next (ℓ x.1) x.2.cmd (sys.reply x.2))) ℓ

theorem locals_concat (m : Prog.Monitor L C R) (ℓ : ℕ → L) (trace : List (ℕ × Event S C))
    (x : ℕ × Event S C) :
    sys.locals m ℓ (trace ++ [x]) = update (sys.locals m ℓ trace) x.1
      (m.next (sys.locals m ℓ trace x.1) x.2.cmd (sys.reply x.2)) :=
  foldl_concat ..

/-- A client that is let act has nothing to do, or executes its next command. -/
theorem act_cases (cfg : Config S C R ε α) (i : ℕ) :
    (pending cfg (Label.act i : Label Op) = none ∧ sys.step cfg (.act i) = cfg) ∨
      ∃ c k, cfg.clients[i]? = some (.call c k) ∧ pending cfg (Label.act i : Label Op) = some c ∧
        sys.step cfg (.act i) =
          ⟨(sys.exec c cfg.store).2, cfg.clients.set i (k (sys.exec c cfg.store).1)⟩ := by
  cases hget : cfg.clients[i]? with
  | none => exact Or.inl ⟨by simp only [pending, hget], by simp only [step, hget]⟩
  | some q =>
    cases q with
    | done r => exact Or.inl ⟨by simp only [pending, hget], by simp only [step, hget]⟩
    | call c k =>
      exact Or.inr ⟨c, k, rfl, by simp only [pending, hget], by simp only [step, hget]⟩

theorem length_le_step (cfg : Config S C R ε α) (l : Label Op) :
    cfg.clients.length ≤ (sys.step cfg l).clients.length := by
  cases l with
  | start op | act i =>
    simp only [step]
    split <;> simp

theorem length_le_run (cfg : Config S C R ε α) (ls : List (Label Op)) :
    cfg.clients.length ≤ (sys.run cfg ls).clients.length := by
  induction ls generalizing cfg with
  | nil => exact Nat.le_refl _
  | cons l ls ih => exact Nat.le_trans (sys.length_le_step cfg l) (ih _)

/-- Nothing is known about a client that was not launched. -/
theorem locals_of_length_le
    (h : (sys.run cfg ls).clients.length ≤ i) : sys.locals m ℓ (sys.trace cfg ls) i = ℓ i := by
  induction ls generalizing cfg ℓ with
  | nil => rfl
  | cons l ls ih =>
    rw [run_cons] at h
    cases l with
    | start op => exact ih h
    | act j =>
      rcases sys.act_cases cfg j with ⟨hnone, hsame⟩ | ⟨c, k, hget, hsome, hnext⟩
      · simp only [trace, hnone]
        exact ih h
      simp only [trace, hsome, Label.client]
      have hj : j < cfg.clients.length := (List.getElem?_eq_some_iff.mp hget).1
      have hlater := Nat.le_trans (Nat.le_trans (sys.length_le_step cfg _)
        (sys.length_le_run _ ls)) h
      refine (ih h).trans (update_of_ne ?_ _ _)
      omega

/-- **Monitored runs.**  If every launched program obeys the monitor, whatever the finished
clients have returned, then every command of a run is allowed by what the monitor remembers
about its client, and what is left of each client still obeys it. -/
theorem obeys_run {Q : L → Except ε α → Prop} {l₀ : L}
    (hl : ∀ results op p, (∀ i r, results i = some r → ∃ l, Q l r) → Admits op →
      sys.launch results op = some p → p.Obeys m Q l₀)
    (hcfg : ∀ (i : ℕ) p, cfg.clients[i]? = some p → p.Obeys m Q (ℓ i))
    (hnew : ∀ i, cfg.clients.length ≤ i → ℓ i = l₀) (hadm : ∀ op, Label.start op ∈ ls → Admits op) :
    (∀ earlier x later, sys.trace cfg ls = earlier ++ x :: later →
      m.ok (sys.locals m ℓ earlier x.1) x.2.cmd) ∧
    ∀ (i : ℕ) p, (sys.run cfg ls).clients[i]? = some p →
      p.Obeys m Q (sys.locals m ℓ (sys.trace cfg ls) i) := by
  induction ls generalizing cfg ℓ with
  | nil =>
    refine ⟨fun earlier x later h => ?_, hcfg⟩
    cases earlier <;> cases h
  | cons l ls ih =>
    have htail : ∀ op, Label.start op ∈ ls → Admits op :=
      fun op hop => hadm op (mem_cons_of_mem _ hop)
    cases l with
    | start op =>
      have hresults : ∀ i r, cfg.result i = some r → ∃ l, Q l r := by
        intro i r hr
        obtain ⟨j, hj⟩ := List.getElem?_of_mem (Config.mem_of_result hr)
        cases hcfg j _ hj with
        | done hQ => exact ⟨_, hQ⟩
      refine ih ?_ ?_ htail
      · intro i p hp
        simp only [step] at hp
        split at hp
        next q hq =>
          rcases Nat.lt_trichotomy i cfg.clients.length with hlt | heq | hgt
          · exact hcfg i p (by rwa [List.getElem?_append_left hlt] at hp)
          · obtain rfl : q = p := by simpa [heq] using hp
            rw [hnew i (Nat.le_of_eq heq.symm)]
            exact hl _ op q hresults (hadm op mem_cons_self) hq
          · rw [List.getElem?_eq_none (by simp; omega)] at hp
            cases hp
        · exact hcfg i p hp
      · intro i hi
        refine hnew i (Nat.le_trans ?_ hi)
        simp only [step]
        split <;> simp
    | act i =>
      rcases sys.act_cases cfg i with ⟨hnone, hsame⟩ | ⟨c, k, hget, hsome, hnext⟩
      · simp only [trace, hnone, run_cons, hsame]
        exact ih hcfg hnew htail
      simp only [trace, hsome, run_cons, hnext, Label.client]
      obtain ⟨hok, hk⟩ : m.ok (ℓ i) c ∧ ∀ r, (k r).Obeys m Q (m.next (ℓ i) c r) := by
        cases hcfg i _ hget with
        | call head tail => exact ⟨head, tail⟩
      have hi : i < cfg.clients.length := (List.getElem?_eq_some_iff.mp hget).1
      -- The client goes on with the reply, and the monitor has taken note of it.
      have hcfg' : ∀ (j : ℕ) p, (cfg.clients.set i (k (sys.exec c cfg.store).1))[j]? = some p →
          p.Obeys m Q
            (update ℓ i (m.next (ℓ i) c (sys.exec c cfg.store).1) j) := by
        intro j p hp
        by_cases hj : j = i
        · subst hj
          rw [List.getElem?_set_self hi] at hp
          obtain rfl := Option.some.inj hp
          rw [update_self]
          exact hk _
        · rw [List.getElem?_set_ne (Ne.symm hj)] at hp
          rw [update_of_ne hj]
          exact hcfg j p hp
      have hnew' : ∀ j, (cfg.clients.set i (k (sys.exec c cfg.store).1)).length ≤ j →
          update ℓ i (m.next (ℓ i) c (sys.exec c cfg.store).1) j = l₀ := by
        intro j hj
        rw [length_set] at hj
        rw [update_of_ne (by omega)]
        exact hnew j hj
      obtain ⟨hcommands, hclients⟩ := @ih ⟨(sys.exec c cfg.store).2, _⟩ _ hcfg' hnew' htail
      refine ⟨fun earlier x later h => ?_, hclients⟩
      cases earlier with
      | nil =>
        obtain ⟨rfl, -⟩ := List.cons.inj h
        exact hok
      | cons y earlier =>
        obtain ⟨rfl, hrest⟩ := List.cons.inj h
        exact hcommands earlier x later hrest

end System

/-! ## Conditions along a trace -/

section Along

variable {M X : Type} {P : M → X → Prop} {note : M → X → M}

/-- Each element of a list meets a condition on what the elements before it add up to. -/
def Along (P : M → X → Prop) (note : M → X → M) : M → List X → Prop
  | _, [] => True
  | m, x :: xs => P m x ∧ Along P note (note m x) xs

instance decidableAlong [∀ m x, Decidable (P m x)] (m : M) :
    (xs : List X) → Decidable (Along P note m xs)
  | [] => inferInstanceAs (Decidable True)
  | x :: xs =>
    have := decidableAlong (note m x) xs
    inferInstanceAs (Decidable (_ ∧ _))

theorem Along.at {m : M} {earlier later : List X} {x : X}
    (h : Along P note m (earlier ++ x :: later)) : P (earlier.foldl note m) x := by
  induction earlier generalizing m with
  | nil => exact h.1
  | cons y earlier ih => exact ih h.2

theorem Along.left {m : M} {xs ys : List X} (h : Along P note m (xs ++ ys)) :
    Along P note m xs := by
  induction xs generalizing m with
  | nil => trivial
  | cons x xs ih => exact ⟨h.1, ih h.2⟩

end Along

/-! ## Disciplines -/

/-- What a group of clients agrees on: a store invariant, the order in which the
store evolves, the promise attached to each command, and the condition under
which runs are considered. -/
structure Discipline (sys : System S C R ε α Op) where
  Inv : S → Prop
  Le : S → S → Prop
  Ok : C → S → Prop
  Allowed : C → S → Prop
  /-- What the outcome of a finished client is known to satisfy from then on. -/
  Post : α → S → Prop
  /-- The operations that may be launched. -/
  Admits : Op → Prop
  le_refl : ∀ s, Le s s
  le_trans : ∀ {s t u}, Le s t → Le t u → Le s u
  preserves : ∀ c s, Inv s → Ok c s → Allowed c s →
    Inv (sys.exec c s).2 ∧ Le s (sys.exec c s).2

namespace Discipline

variable {sys : System S C R ε α Op} (D : Discipline sys) {β γ : Type} {f : β → Prog C R ε γ}

/-- **Weakest precondition under interference.**  Before each command, and
before the end, other clients may have moved the store anywhere upwards. -/
def wp : Prog C R ε β → (Except ε β → S → Prop) → S → Prop
  | .done r, Q, s => ∀ s', D.Le s s' → D.Inv s' → Q r s'
  | .call c k, Q, s => ∀ s', D.Le s s' → D.Inv s' →
      D.Ok c s' ∧ (D.Allowed c s' →
        wp (k (sys.exec c s').1) Q (sys.exec c s').2)

variable {p : Prog C R ε β} {Q : Except ε β → S → Prop} {s : S} {P : β → S → Prop} {b : β}

/-- The condition is stable: it survives every step of the other clients. -/
theorem wp_of_le {s' : S} (h : D.wp p Q s) (hle : D.Le s s') : D.wp p Q s' := by
  cases p with
  | done r | call c k => exact fun t ht => h t (D.le_trans hle ht)

theorem wp_mono {Q' : Except ε β → S → Prop} (h : D.wp p Q s) (hQ : ∀ r t, Q r t → Q' r t) :
    D.wp p Q' s := by
  induction p generalizing s with
  | done r => exact fun t ht hI => hQ r t (h t ht hI)
  | call c k ih =>
    intro t ht hI
    obtain ⟨hok, hk⟩ := h t ht hI
    exact ⟨hok, fun ha => ih _ (hk ha)⟩

/-- Sequencing: what the first part guarantees about its value is what the
second part may start from. -/
theorem wp_bind {Q : Except ε γ → S → Prop} (h : D.wp p (fun r t => match r with
      | .ok b => D.wp (f b) Q t
      | .error e => D.Inv t → Q (.error e) t) s) : D.wp (p >>= f) Q s := by
  induction p generalizing s with
  | done r =>
    cases r with
    | error e => exact fun t ht hI => h t ht hI hI
    | ok b =>
      -- The continuation is only known to be safe from later stores, which
      -- is all that `wp` asks about.
      simp only [Prog.bind_done_ok]
      cases hf : f b with
      | done r | call c k =>
        intro t ht hI
        have hwp := h t ht hI
        simp only [hf] at hwp
        exact hwp t (D.le_refl t) hI
  | call c k ih =>
    intro t ht hI
    obtain ⟨hok, hk⟩ := h t ht hI
    exact ⟨hok, fun ha => ih _ (hk ha)⟩

/-- A `try` block: both outcomes of the body become values. -/
theorem wp_attempt {Q : Except ε (Except ε β) → S → Prop} (h : D.wp p (fun r t => Q (.ok r) t) s) :
    D.wp p.attempt Q s := by
  induction p generalizing s with
  | done r => exact h
  | call c k ih =>
    intro t ht hI
    obtain ⟨hok, hk⟩ := h t ht hI
    exact ⟨hok, fun ha => ih _ (hk ha)⟩

/-- A command whose promise holds at every later store, followed by a
continuation that is safe for every reply. -/
theorem wp_call {k : R c → Prog C R ε β} (hok : ∀ t, D.Le s t → D.Inv t → D.Ok c t)
    (hk : ∀ t, D.Le s t → D.Inv t → D.Allowed c t →
      D.Le s (sys.exec c t).2 → D.Inv (sys.exec c t).2 →
      D.wp (k (sys.exec c t).1) Q (sys.exec c t).2) : D.wp (.call c k) Q s := by
  intro t ht hI
  refine ⟨hok t ht hI, fun ha => ?_⟩
  obtain ⟨hI', hle⟩ := D.preserves c t hI (hok t ht hI) ha
  exact hk t ht hI ha (D.le_trans ht hle) hI'

/-- A postcondition may also use that the store has moved upwards. -/
theorem wp_and_le (h : D.wp p Q s) : D.wp p (fun r t => D.Le s t ∧ D.Inv t ∧ Q r t) s := by
  induction p generalizing s with
  | done r => exact fun t ht hI => ⟨ht, hI, h t ht hI⟩
  | call c k ih =>
    intro t ht hI
    obtain ⟨hok, hk⟩ := h t ht hI
    refine ⟨hok, fun ha => ?_⟩
    have hle := D.le_trans ht (D.preserves c t hI hok ha).2
    refine D.wp_mono (ih _ (hk ha)) ?_
    rintro r u ⟨hu, hIu, hq⟩
    exact ⟨D.le_trans hle hu, hIu, hq⟩

/-- The postcondition that constrains returned values only. -/
def Returns (P : β → S → Prop) (r : Except ε β) (s : S) : Prop :=
  ∀ b, r = .ok b → P b s

/-- A program that keeps every promise, whatever it returns. -/
def Safe (p : Prog C R ε β) (s : S) : Prop := D.wp p (Returns fun _ _ => True) s

theorem wp_raise {e : ε} : D.wp (Prog.throw e : Prog C R ε β) (Returns P) s :=
  fun _ _ _ _ h => by cases h

theorem wp_pure (h : ∀ t, D.Le s t → D.Inv t → P b t) :
    D.wp (pure b : Prog C R ε β) (Returns P) s := by
  intro t ht hI b' hb
  cases hb
  exact h t ht hI

theorem safe_pure : D.Safe (pure b : Prog C R ε β) s :=
  D.wp_pure fun _ _ _ => trivial

variable {P' : γ → S → Prop}

/-- Sequencing for postconditions about returned values. -/
theorem wp_seq (h : D.wp p (Returns P) s)
    (hk : ∀ b t, D.Le s t → D.Inv t → P b t → D.wp (f b) (Returns P') t) :
    D.wp (p >>= f) (Returns P') s := by
  refine D.wp_bind (D.wp_mono (D.wp_and_le h) ?_)
  rintro r t ⟨hle, hI, hP⟩
  cases r with
  | ok b => exact hk b t hle hI (hP b rfl)
  | error e => exact fun _ _ hb => by cases hb

/-- Mapping the returned value of a safe program. -/
theorem wp_map {f : β → γ} (h : D.wp p (Returns P) s)
    (hf : ∀ b t, P b t → P' (f b) t) (hstable : ∀ b t u, D.Le t u → P b t → P b u) :
    D.wp (f <$> p) (Returns P') s :=
  D.wp_seq h fun b _ _ _ hb =>
    D.wp_pure fun u hu _ => hf b u (hstable b _ u hu hb)

def post (r : Except ε α) (s : S) : Prop := Returns D.Post r s

/-- The obligation on launched programs: each is safe from every store that
satisfies the invariant, given what the finished clients left behind. -/
def Launches : Prop :=
  ∀ (results : ℕ → Option (Except ε α)) (op : Op) (p : Prog C R ε α) (s : S),
    D.Inv s → D.Admits op →
    (∀ i a, results i = some (.ok a) → D.Post a s) →
    sys.launch results op = some p → D.wp p D.post s

/-- A configuration in which the invariant holds and every client is safe. -/
def Good (cfg : Config S C R ε α) : Prop :=
  D.Inv cfg.store ∧ ∀ p ∈ cfg.clients, D.wp p D.post cfg.store

/-- A configuration without clients is good as soon as its store is. -/
theorem good_of_inv (h : D.Inv s) : D.Good ⟨s, []⟩ :=
  ⟨h, fun _ hp => by cases hp⟩

variable {cfg : Config S C R ε α} (hl : D.Launches) (hg : D.Good cfg)
include hl hg

/-- **One step.**  A good configuration stays good and its store moves upwards,
and the command that was executed kept its promise. -/
theorem step_good (l : Label Op) (hadm : ∀ op, l = .start op → D.Admits op)
    (hal : ∀ c, System.pending cfg l = some c → D.Allowed c cfg.store) :
    D.Good (sys.step cfg l) ∧ D.Le cfg.store (sys.step cfg l).store ∧
      ∀ c, System.pending cfg l = some c → D.Ok c cfg.store := by
  obtain ⟨hinv, hwp⟩ := hg
  cases l with
  | start op =>
    simp only [System.step]
    cases hlaunch : sys.launch cfg.result op with
    | none => exact ⟨⟨hinv, hwp⟩, D.le_refl _, fun c hc => by cases hc⟩
    | some p =>
      refine ⟨⟨hinv, fun q hq => ?_⟩, D.le_refl _, fun c hc => by cases hc⟩
      rcases mem_append.mp hq with hq | hq
      · exact hwp q hq
      obtain rfl : q = p := by simpa using hq
      refine hl cfg.result op q cfg.store hinv (hadm op rfl) ?_ hlaunch
      intro i a hres
      exact hwp _ (Config.mem_of_result hres) cfg.store (D.le_refl _) hinv a rfl
  | act i =>
    simp only [System.step, System.pending] at hal ⊢
    cases hget : cfg.clients[i]? with
    | none => exact ⟨⟨hinv, hwp⟩, D.le_refl _, fun c hc => by cases hc⟩
    | some p =>
      cases p with
      | done r => exact ⟨⟨hinv, hwp⟩, D.le_refl _, fun c hc => by cases hc⟩
      | call c k =>
        simp only [hget, Option.some.injEq] at hal ⊢
        have hself := hwp _ (mem_of_getElem? hget) cfg.store
          (D.le_refl _) hinv
        obtain ⟨hok, hk⟩ := hself
        have ha := hal c rfl
        obtain ⟨hinv', hle⟩ := D.preserves c cfg.store hinv hok ha
        refine ⟨⟨hinv', fun q hq => ?_⟩, hle, fun c' hc => hc ▸ hok⟩
        rcases mem_or_eq_of_mem_set hq with hq | rfl
        · exact D.wp_of_le (hwp q hq) hle
        · exact hk ha

/-- **Every run.**  If every launched program is safe, then in every run whose
commands are allowed the configuration stays good, the store only moves upwards,
and each executed command met its promise in a store that satisfied the
invariant. -/
theorem sound {ls : List (Label Op)} (hadm : ∀ op, Label.start op ∈ ls → D.Admits op)
    (hal : ∀ e ∈ sys.history cfg ls, D.Allowed e.cmd e.before) :
    D.Good (sys.run cfg ls) ∧ D.Le cfg.store (sys.run cfg ls).store ∧
      ∀ e ∈ sys.history cfg ls, D.Inv e.before ∧ D.Ok e.cmd e.before := by
  induction ls generalizing cfg with
  | nil => exact ⟨hg, D.le_refl _, fun e he => by cases he⟩
  | cons l ls ih =>
    have hadmHead : ∀ op, l = .start op → D.Admits op :=
      fun op hop => hadm op (by simp [hop])
    have hadmTail : ∀ op, Label.start op ∈ ls → D.Admits op :=
      fun op hop => hadm op (mem_cons_of_mem _ hop)
    cases hp : System.pending cfg l with
    | none =>
      simp only [System.history, hp] at hal ⊢
      obtain ⟨hnext, hle, -⟩ := D.step_good hl hg l hadmHead (by simp [hp])
      obtain ⟨hgood, hle', hrest⟩ := ih hnext hadmTail hal
      exact ⟨hgood, D.le_trans hle hle', hrest⟩
    | some c =>
      simp only [System.history, hp, forall_mem_cons] at hal ⊢
      obtain ⟨hnext, hle, hok⟩ :=
        D.step_good hl hg l hadmHead (by simpa [hp] using hal.1)
      obtain ⟨hgood, hle', hrest⟩ := ih hnext hadmTail hal.2
      exact ⟨hgood, D.le_trans hle hle', ⟨hg.1, hok c hp⟩, hrest⟩

/-- What is reached later in an allowed run lies above what was reached before. -/
theorem le_of_isPrefix {ls₁ ls₂ : List (Label Op)} (hpre : ls₁ <+: ls₂)
    (hadm : ∀ op, Label.start op ∈ ls₂ → D.Admits op)
    (hal : ∀ e ∈ sys.history cfg ls₂, D.Allowed e.cmd e.before) :
    D.Inv (sys.run cfg ls₁).store ∧
      D.Le (sys.run cfg ls₁).store (sys.run cfg ls₂).store := by
  obtain ⟨ls, rfl⟩ := hpre
  rw [System.run_append]
  rw [System.history_append] at hal
  have hfirst := D.sound hl hg (fun op hop => hadm op (mem_append_left _ hop))
    fun e he => hal e (mem_append_left _ he)
  have hsecond := D.sound hl hfirst.1
    (fun op hop => hadm op (mem_append_right _ hop))
    fun e he => hal e (mem_append_right _ he)
  exact ⟨hfirst.1.1, hsecond.2.1⟩

end Discipline

end AtomicProgram
