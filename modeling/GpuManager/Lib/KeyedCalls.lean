import Mathlib.Data.List.Basic
import Mathlib.Logic.Function.Basic

/-!
# Calls that act at one key

A store is a function from keys to values, and a call `ActsAt` its key if it reads and writes
the store there only.  Calls of different keys do not see each other, so a list of calls can be
read off the store before the first of them.  Calls of one key do see each other.  Where the
first of them writes a value that the others keep, the list still writes what each of them would
write alone.

Both rules describe the store after the list by its keys, so they hold for the list in any order.
-/

namespace KeyedCalls

open Function List

variable {ι κ V A S : Type}

def each (call : ι → S → A × S) : List ι → S → List A × S
  | [], s => ([], s)
  | i :: is, s =>
    let rest := each call is (call i s).2
    ((call i s).1 :: rest.1, rest.2)

variable [DecidableEq κ] {key : ι → κ} {part : ι → V → A × V}
  {call : ι → (κ → V) → A × (κ → V)} {is : List ι} {s : κ → V}

/-- A call reads and writes the store at its key, as `part` does. -/
def ActsAt (key : ι → κ) (part : ι → V → A × V) (call : ι → (κ → V) → A × (κ → V)) : Prop :=
  ∀ i s, call i s = ((part i (s (key i))).1, update s (key i) (part i (s (key i))).2)

/-- **Calls of different keys**: each finds the store as it was before the first. -/
theorem ActsAt.each_of_nodup (hacts : ActsAt key part call) (hnodup : (is.map key).Nodup)
    (s : κ → V) :
    (each call is s).1 = is.map (fun i => (part i (s (key i))).1) ∧
      (∀ i ∈ is, (each call is s).2 (key i) = (part i (s (key i))).2) ∧
      ∀ k ∉ is.map key, (each call is s).2 k = s k := by
  induction is generalizing s with
  | nil => exact ⟨rfl, fun _ hi => (by cases hi), fun _ _ => rfl⟩
  | cons i is ih =>
    rw [map_cons, nodup_cons] at hnodup
    obtain ⟨hanswers, hwritten, hothers⟩ := ih hnodup.2 (call i s).2
    have hfar : ∀ j ∈ is, (call i s).2 (key j) = s (key j) := by
      intro j hj
      have hne : key j ≠ key i := fun heq => hnodup.1 (heq ▸ mem_map_of_mem hj)
      rw [hacts i s]
      exact update_of_ne hne ..
    refine ⟨?_, ?_, fun k hk => ?_⟩
    · show (call i s).1 :: (each call is (call i s).2).1 = _
      rw [hanswers, hacts i s, map_cons]
      refine congrArg _ (map_congr_left fun j hj => ?_)
      have hj' := hfar j hj
      rw [hacts i s] at hj'
      exact congrArg (fun v => (part j v).1) hj'
    · rw [forall_mem_cons]
      refine ⟨(hothers _ hnodup.1).trans ?_, fun j hj => (hwritten j hj).trans ?_⟩
      · rw [hacts i s]
        exact update_self ..
      · rw [hfar j hj]
    · rw [map_cons, mem_cons, not_or] at hk
      refine (hothers k hk.2).trans ?_
      rw [hacts i s]
      exact update_of_ne hk.1 ..

/-- **Calls that settle**: if each call alone writes the value that its key is to have, and keeps
that value once it is there, then the list writes these values. -/
theorem ActsAt.each_of_settled (hacts : ActsAt key part call) (target : κ → V) (is : List ι)
    (hwrites : ∀ i ∈ is, (part i (s (key i))).2 = target (key i))
    (hkeeps : ∀ i ∈ is, (part i (target (key i))).2 = target (key i)) :
    (each call is s).2 = fun k => if k ∈ is.map key then target k else s k := by
  induction is generalizing s with
  | nil => rfl
  | cons i is ih =>
    rw [forall_mem_cons] at hwrites hkeeps
    have hcall : (call i s).2 = update s (key i) (target (key i)) := by
      rw [hacts i s, ← hwrites.1]
    have hrest : ∀ j ∈ is, (part j ((call i s).2 (key j))).2 = target (key j) := by
      intro j hj
      rw [hcall]
      by_cases hkey : key j = key i
      · rw [hkey, update_self, ← hkey]
        exact hkeeps.2 j hj
      · rw [update_of_ne hkey]
        exact hwrites.2 j hj
    refine (ih hrest hkeeps.2).trans ?_
    funext k
    rw [hcall, map_cons]
    by_cases hkey : k = key i
    · subst hkey
      rw [update_self, if_pos mem_cons_self, ite_self]
    · rw [update_of_ne hkey]
      exact if_congr (by rw [mem_cons, or_iff_right hkey]) rfl rfl

end KeyedCalls
