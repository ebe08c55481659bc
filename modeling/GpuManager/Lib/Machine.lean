import Mathlib.Data.List.Basic

/-!
# Machines fed with operations

A machine is a function from an operation and a state to a reply and the next state.  A
`Visit` is one operation of a run together with the state in which it finds the machine,
so that a property of a run is a property of all its visits.

The rule below reduces such a property to one visit: an invariant that holds at the start
and survives every visit with the property.  Where, under the invariant, a condition on
the visit decides the property, it decides it for the whole run.

Two implementations of one interface that are fed the same operations are one machine,
`pair`; the invariant is then a relation between the two states.
-/

namespace Machine

variable {Op S T A B : Type}

structure Visit (Op S : Type) where
  op : Op
  before : S

/-- The visits of a run, in order. -/
def visits (f : Op → S → A × S) : S → List Op → List (Visit Op S)
  | _, [] => []
  | s, op :: ops => ⟨op, s⟩ :: visits f (f op s).2 ops

/-- The state a run ends in. -/
def final (f : Op → S → A × S) : S → List Op → S
  | s, [] => s
  | s, op :: ops => final f (f op s).2 ops

def pair (f : Op → S → A × S) (g : Op → T → B × T) (op : Op) (st : S × T) :
    (A × B) × (S × T) :=
  (((f op st.1).1, (g op st.2).1), ((f op st.1).2, (g op st.2).2))

variable {f : Op → S → A × S} {P : Op → Prop} {I : S → Prop} {Good Fits : Visit Op S → Prop}

/-- **Deciding a property of a run.**  If, under an invariant, a visit of an admitted
operation has the property exactly when a condition on it holds, and the property keeps the
invariant, then every visit of a run has the property exactly when the condition holds at
every visit. -/
theorem forall_visits_iff
    (hstep : ∀ v : Visit Op S, P v.op → I v.before → (Good v ↔ Fits v))
    (hkeep : ∀ v : Visit Op S, P v.op → I v.before → Good v → I (f v.op v.before).2) {s : S}
    (h0 : I s) (ops : List Op) (hops : ∀ op ∈ ops, P op) :
    (∀ v ∈ visits f s ops, Good v) ↔ ∀ v ∈ visits f s ops, Fits v := by
  induction ops generalizing s with
  | nil => simp [visits]
  | cons op ops ih =>
    rw [List.forall_mem_cons] at hops
    simp only [visits, List.forall_mem_cons]
    have hop := hstep ⟨op, s⟩ hops.1 h0
    rw [hop]
    refine and_congr_right fun hfits => ?_
    exact ih (hkeep ⟨op, s⟩ hops.1 h0 (hop.mpr hfits)) hops.2

end Machine
