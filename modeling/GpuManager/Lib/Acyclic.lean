import Mathlib.Data.Fintype.Card
import Mathlib.Data.Set.Finite.Basic
import Mathlib.Logic.Relation
import Mathlib.Order.WellFounded

/-!
# Cycles of a finite relation

`r a b` says that `a` depends on `b`.  On a finite set a relation without cycles has a minimal
element, and a set in which everything depends on something in the set consists of what lies on a
cycle or depends, directly or not, on one that does (`Blocked`).
-/

namespace Dependency

open Relation

variable {α : Type*} {r : α → α → Prop} {s : Set α} {a b : α}

/-- `a` lies on a cycle or depends, directly or not, on something that does. -/
def Blocked (r : α → α → Prop) (a : α) : Prop := ∃ b, ReflTransGen r a b ∧ TransGen r b b

theorem blocked_of_cycle (h : TransGen r a a) : Blocked r a := ⟨a, ReflTransGen.refl, h⟩

/-- The next element of a cycle is on the cycle. -/
theorem next_on_cycle (h : TransGen r a a) : ∃ b, r a b ∧ TransGen r b b := by
  obtain ⟨b, hab, hba⟩ := TransGen.head'_iff.mp h
  exact ⟨b, hab, TransGen.tail' hba hab⟩

theorem Blocked.dependency (h : Blocked r a) : ∃ b, r a b ∧ Blocked r b := by
  obtain ⟨c, hac, hcycle⟩ := h
  rcases ReflTransGen.cases_head hac with rfl | ⟨b, hab, hbc⟩
  · obtain ⟨b, hab, hb⟩ := next_on_cycle hcycle
    exact ⟨b, hab, blocked_of_cycle hb⟩
  · exact ⟨b, hab, c, hbc, hcycle⟩

/-- A finite set without cycles has an element that depends on none of the set. -/
theorem exists_minimal (hfin : s.Finite) (hne : s.Nonempty)
    (hacyclic : ∀ a ∈ s, ¬ TransGen r a a) : ∃ a ∈ s, ∀ b ∈ s, ¬ r a b := by
  have : Finite s := hfin
  let below : s → s → Prop := fun x y => TransGen r y x
  have : IsTrans s below := ⟨fun x y z hxy hyz => hyz.trans hxy⟩
  have : Std.Irrefl below := ⟨fun x => hacyclic x x.2⟩
  have hwf : WellFounded below := Finite.wellFounded_of_trans_of_irrefl below
  obtain ⟨a, ha⟩ := hne
  obtain ⟨m, -, hmin⟩ := hwf.has_min Set.univ ⟨⟨a, ha⟩, trivial⟩
  exact ⟨m, m.2, fun b hb hmb => hmin ⟨b, hb⟩ trivial (TransGen.single hmb)⟩

/-- Where everything of a finite set depends on something of the set, everything is blocked. -/
theorem blocked_of_stuck (hfin : s.Finite) (hstuck : ∀ a ∈ s, ∃ b ∈ s, r a b) (ha : a ∈ s) :
    Blocked r a := by
  by_contra hfree
  -- Among what `a` depends on in the set there would be a minimal element.
  have hreached : ∃ m ∈ {b ∈ s | ReflTransGen r a b},
      ∀ b ∈ {b ∈ s | ReflTransGen r a b}, ¬ r m b := by
    apply exists_minimal (hfin.subset (Set.sep_subset _ _)) ⟨a, ha, ReflTransGen.refl⟩
    exact fun b hb hcycle => hfree ⟨b, hb.2, hcycle⟩
  obtain ⟨m, ⟨hm, ham⟩, hmin⟩ := hreached
  obtain ⟨b, hb, hmb⟩ := hstuck m hm
  exact hmin b ⟨hb, ham.tail hmb⟩ hmb

/-- Where every set that is met has a minimal element, nothing is blocked. -/
theorem not_blocked_of_founded
    (hfounded : ∀ P : α → Prop, (∃ a ∈ s, P a) → ∃ a ∈ s, P a ∧ ∀ b, r a b → ¬ P b)
    (ha : a ∈ s) : ¬ Blocked r a := by
  intro hblocked
  obtain ⟨m, -, hm, hmin⟩ := hfounded (Blocked r) ⟨a, ha, hblocked⟩
  obtain ⟨b, hmb, hb⟩ := hm.dependency
  exact hmin b hmb hb

theorem acyclic_of_rank (rank : α → ℕ) (hrank : ∀ a b, r a b → rank b < rank a) (a : α) :
    ¬ TransGen r a a := by
  have hless : ∀ {a b}, TransGen r a b → rank b < rank a := by
    intro a b h
    induction h with
    | single hab => exact hrank _ _ hab
    | tail _ hbc ih => exact (hrank _ _ hbc).trans ih
  exact fun hcycle => (hless hcycle).false

end Dependency
