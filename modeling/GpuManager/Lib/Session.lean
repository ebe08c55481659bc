import GpuManager.Lib.Interleaving

/-!
# Sessions: one call after the other

The sequential reading of a `System`.  A session is the store together with the
outcomes of the calls made so far; a call launches its program and runs it to its
end before the next call starts.  It is the reading for properties that hold only
while no call is in progress.

A program that is safe under interference is safe without it, so what a
`Discipline` proves about a program applies to its sequential run as well
(`Discipline.run_of_wp`), together with any further property of the store that the
executed commands keep.
-/

namespace AtomicProgram

variable {S C : Type} {R : C → Type} {ε α Op : Type}

/-- The store and the outcomes of the calls made so far, in order. -/
structure Session (S ε α : Type) where
  store : S
  outcomes : List (Except ε α)

structure Call (S ε α Op : Type) where
  before : Session S ε α
  op : Op

namespace System

variable (sys : System S C R ε α Op) {st : Session S ε α} {ops : List Op}

/-- Make one call and wait for its end.  A call that cannot be launched changes
nothing. -/
def call (st : Session S ε α) (op : Op) : Session S ε α :=
  match sys.launch (fun i => st.outcomes[i]?) op with
  | none => st
  | some p =>
    { store := (p.run sys.exec st.store).2
      outcomes := st.outcomes ++ [(p.run sys.exec st.store).1] }

/-- The calls of a session, each with the session it starts from. -/
def calls (st : Session S ε α) : List Op → List (Call S ε α Op)
  | [] => []
  | op :: ops => ⟨st, op⟩ :: calls (sys.call st op) ops

/-- **Session induction.**  A property that every call keeps, given what is assumed
of each call, holds before and after each call. -/
theorem calls_induction (P : Session S ε α → Prop) (H : Call S ε α Op → Prop)
    (hcall : ∀ st op, P st → H ⟨st, op⟩ → P (sys.call st op))
    (h0 : P st) (hH : ∀ c ∈ sys.calls st ops, H c) :
    ∀ c ∈ sys.calls st ops, P c.before ∧ P (sys.call c.before c.op) := by
  induction ops generalizing st with
  | nil =>
    intro c hc
    cases hc
  | cons op ops ih =>
    simp only [calls, List.forall_mem_cons] at hH ⊢
    have hnext := hcall st op h0 hH.1
    exact ⟨⟨h0, hnext⟩, ih hnext hH.2⟩

/-- The commands of a call. -/
def callCommands (st : Session S ε α) (op : Op) : List C :=
  match sys.launch (fun i => st.outcomes[i]?) op with
  | none => []
  | some p => p.commands sys.exec st.store

/-- What each command of a session keeps holds after each of its calls. -/
theorem calls_of_commands {K : S → Prop} {P : C → Prop} (hK : ∀ c s, P c → K s → K (sys.exec c s).2)
    (hok : ∀ c ∈ sys.calls st ops, ∀ d ∈ sys.callCommands c.before c.op, P d)
    (hs : K st.store) : ∀ c ∈ sys.calls st ops, K (sys.call c.before c.op).store := by
  intro c hc
  refine (sys.calls_induction (fun st => K st.store)
    (fun c => ∀ d ∈ sys.callCommands c.before c.op, P d) ?_ hs hok c hc).2
  intro st op hst hcommands
  unfold callCommands at hcommands
  unfold call
  split
  · exact hst
  rename_i p hlaunch
  simp only [hlaunch] at hcommands
  exact Prog.run_of_commands sys.exec hK hcommands hst

end System

namespace Discipline

variable {sys : System S C R ε α Op} (D : Discipline sys) {β : Type}

/-- **Without interference.**  The sequential run of a safe program keeps the
invariant, moves the store upwards and reaches its postcondition; and it keeps
every further property that allowed commands with a kept promise keep. -/
theorem run_of_wp (K : S → Prop) (hallowed : ∀ c s, D.Allowed c s)
    (hK : ∀ c s, D.Inv s → D.Ok c s → K s → K (sys.exec c s).2)
    {p : Prog C R ε β} {Q : Except ε β → S → Prop} {s : S} (hwp : D.wp p Q s)
    (hI : D.Inv s) (hk : K s) :
    D.Inv (p.run sys.exec s).2 ∧ D.Le s (p.run sys.exec s).2 ∧
      K (p.run sys.exec s).2 ∧ Q (p.run sys.exec s).1 (p.run sys.exec s).2 := by
  induction p generalizing s with
  | done r => exact ⟨hI, D.le_refl s, hk, hwp s (D.le_refl s) hI⟩
  | call c k ih =>
    obtain ⟨hok, hnext⟩ := hwp s (D.le_refl s) hI
    obtain ⟨hI', hle⟩ := D.preserves c s hI hok (hallowed c s)
    obtain ⟨hI'', hle', hk', hQ⟩ := ih _ (hnext (hallowed c s)) hI' (hK c s hI hok hk)
    exact ⟨hI'', D.le_trans hle hle', hk', hQ⟩

end Discipline

end AtomicProgram
