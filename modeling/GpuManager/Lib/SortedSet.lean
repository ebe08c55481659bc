import Mathlib.Data.List.Sort
import Mathlib.Data.Prod.Lex
import Mathlib.Data.Int.Basic
import Mathlib.Order.Basic

/-!
# Sorted sets

A sorted set keeps distinct members, each with an integer score, ordered by
score and, among equal scores, by the member itself.  It is the key/value
store's own collection type for queues: adding an existing member moves it to
its new score, removing is by member, and the first member is the one with the
least score.

The order and the distinctness of the members are fields of the structure, so
no operation has to re-establish them for its caller.
-/

namespace KeyValue

/-- The order of a sorted set: by score, then by member. -/
def entryLe {α : Type} [LinearOrder α] (x y : ℤ × α) : Prop := toLex x ≤ toLex y

namespace entryLe

variable {α : Type} [LinearOrder α]

instance : DecidableRel (entryLe (α := α)) :=
  fun x y => inferInstanceAs (Decidable (toLex x ≤ toLex y))

instance : Std.Total (entryLe (α := α)) :=
  ⟨fun x y => le_total (toLex x) (toLex y)⟩

instance : IsTrans (ℤ × α) entryLe :=
  ⟨fun _ _ _ h₁ h₂ => le_trans (α := ℤ ×ₗ α) h₁ h₂⟩

end entryLe

structure SortedSet (α : Type) [LinearOrder α] where
  entries : List (ℤ × α)
  sorted : entries.Pairwise entryLe
  nodup : (entries.map Prod.snd).Nodup

namespace SortedSet

variable {α : Type} [LinearOrder α]

/-- The sorted set without members. -/
def empty : SortedSet α := ⟨[], List.Pairwise.nil, List.nodup_nil⟩

instance : Membership α (SortedSet α) := ⟨fun z a => a ∈ z.entries.map Prod.snd⟩

variable {z : SortedSet α} {a : α} {b : α}

theorem mem_iff : a ∈ z ↔ a ∈ z.entries.map Prod.snd :=
  Iff.rfl

instance (z : SortedSet α) (a : α) : Decidable (a ∈ z) :=
  inferInstanceAs (Decidable (a ∈ z.entries.map Prod.snd))

def remove (z : SortedSet α) (a : α) : SortedSet α where
  entries := z.entries.filter fun x => x.2 ≠ a
  sorted := z.sorted.sublist List.filter_sublist
  nodup := z.nodup.sublist (List.filter_sublist.map Prod.snd)

@[simp] theorem not_mem_empty (a : α) : a ∉ (empty : SortedSet α) := by
  simp [mem_iff, empty]

@[simp] theorem mem_remove : b ∈ z.remove a ↔ b ∈ z ∧ b ≠ a := by
  simp only [mem_iff, remove, List.mem_map, List.mem_filter, decide_eq_true_eq]
  constructor
  · rintro ⟨x, ⟨hx, hne⟩, rfl⟩
    exact ⟨⟨x, hx, rfl⟩, hne⟩
  · rintro ⟨⟨x, hx, rfl⟩, hne⟩
    exact ⟨x, ⟨hx, hne⟩, rfl⟩

def add (z : SortedSet α) (score : ℤ) (a : α) : SortedSet α where
  entries := (z.remove a).entries.orderedInsert entryLe (score, a)
  sorted := (z.remove a).sorted.orderedInsert _ _
  nodup := by
    have hperm := ((z.remove a).entries.perm_orderedInsert entryLe (score, a)).map
      Prod.snd
    rw [hperm.nodup_iff, List.map_cons, List.nodup_cons]
    refine ⟨fun hmem => ?_, (z.remove a).nodup⟩
    exact (mem_remove.mp (mem_iff.mpr hmem)).2 rfl

@[simp] theorem mem_add {score : ℤ} : b ∈ z.add score a ↔ b = a ∨ b ∈ z := by
  have hperm := ((z.remove a).entries.perm_orderedInsert entryLe (score, a)).map
    Prod.snd
  rw [mem_iff, add, hperm.mem_iff, List.map_cons, List.mem_cons, ← mem_iff,
    mem_remove]
  by_cases h : b = a <;> simp [h]

/-- The member with the least score. -/
def first (z : SortedSet α) : Option α := z.entries.head?.map Prod.snd

theorem mem_of_first (h : z.first = some a) : a ∈ z := by
  rw [first, Option.map_eq_some_iff] at h
  obtain ⟨x, hx, rfl⟩ := h
  exact mem_iff.mpr (List.mem_map_of_mem (List.mem_of_mem_head? hx))

/-- The score of a member. -/
def score (z : SortedSet α) (a : α) : Option ℤ :=
  (z.entries.find? fun x => x.2 = a).map Prod.fst

/-- The members are the ones with a score. -/
theorem score_isSome_iff : (z.score a).isSome ↔ a ∈ z := by
  rw [score, Option.isSome_map, List.find?_isSome, mem_iff, List.mem_map]
  simp only [decide_eq_true_eq]

end SortedSet

end KeyValue
