import Mathlib.Algebra.GroupWithZero.Nat
import Mathlib.Data.List.Basic
import Mathlib.Logic.Relation

/-!
# Breadth-first search

`next` lists the neighbours of an element.  `level k l` is what is reached from a list in `k` steps,
in the order of the lists and with repetitions, `find` goes through the levels for the first hit,
and `search` is the search with a queue that expands an element once.

* `search_eq_find`: the search with a queue finds the first hit of the levels.
-/

namespace BreadthFirst

open Relation List

variable {α : Type*}

section Definitions

variable (next : α → List α) (hit : α → Bool)

/-- What is reached in so many steps. -/
def level : ℕ → List α → List α
  | 0, l => l
  | k + 1, l => level k (l.flatMap next)

/-- The first hit of so many levels. -/
def find : ℕ → List α → Option α
  | 0, _ => none
  | n + 1, l => (l.find? hit).or (find n (l.flatMap next))

/-- The search: the head of the queue is a hit, was visited before, or is expanded. -/
def search [DecidableEq α] : ℕ → List α → List α → Option α
  | 0, _, _ => none
  | _ + 1, [], _ => none
  | fuel + 1, a :: queue, visited =>
    if hit a then some a
    else if a ∈ visited then search fuel queue visited
    else search fuel (queue ++ (next a).filter (· ∉ a :: visited)) (a :: visited)

def unlisted [DecidableEq α] (all visited : List α) : ℕ :=
  ((all.filter (· ∉ visited)).map fun a => (next a).length).sum

end Definitions

variable {next : α → List α} {hit : α → Bool} {n fuel : ℕ} {a b : α}

/-! ## Levels -/

variable {l all visited : List α} {k : ℕ}

/-- The next level is what the level lists. -/
theorem mem_level_succ : a ∈ level next (k + 1) l ↔ ∃ b ∈ level next k l, a ∈ next b := by
  induction k generalizing l with
  | zero => exact mem_flatMap
  | succ k ih => exact ih

theorem exists_level (h : ReflTransGen (fun a b => b ∈ next a) a b) :
    ∃ k, b ∈ level next k [a] := by
  induction h with
  | refl => exact ⟨0, mem_singleton_self _⟩
  | tail _ hstep ih =>
    obtain ⟨k, hk⟩ := ih
    exact ⟨k + 1, mem_level_succ.mpr ⟨_, hk, hstep⟩⟩

/-- What is on a level is reached by way of the levels before. -/
theorem reached_of_level {P : α → Prop} (hlevels : ∀ j ≤ k, ∀ c ∈ level next j [a], P c)
    (h : b ∈ level next k [a]) : ReflTransGen (fun a b => b ∈ next a ∧ P b) a b := by
  induction k generalizing b with
  | zero =>
    rw [mem_singleton.mp h]
  | succ k ih =>
    obtain ⟨c, hc, hstep⟩ := mem_level_succ.mp h
    have hreached := ih (fun j hj => hlevels j (Nat.le_succ_of_le hj)) hc
    exact hreached.tail ⟨hstep, hlevels (k + 1) (Nat.le_refl _) b h⟩

/-- A hit is the first of its level, and there is none on the levels before. -/
theorem find_eq_some (h : find next hit n l = some a) :
    ∃ k before after, level next k l = before ++ a :: after ∧ hit a = true ∧
      (∀ b ∈ before, hit b = false) ∧ ∀ j < k, ∀ b ∈ level next j l, hit b = false := by
  induction n generalizing l with
  | zero => cases h
  | succ n ih =>
    unfold find at h
    cases hfirst : l.find? hit with
    | some found =>
      rw [hfirst] at h
      obtain rfl := Option.some.inj h
      obtain ⟨hhit, before, after, heq, hbefore⟩ := find?_eq_some_iff_append.mp hfirst
      refine ⟨0, before, after, heq, hhit, fun b hb => ?_, fun j hj => absurd hj (by omega)⟩
      simpa using hbefore b hb
    | none =>
      rw [hfirst] at h
      obtain ⟨k, before, after, heq, hhit, hbefore, hlevels⟩ := ih h
      refine ⟨k + 1, before, after, heq, hhit, hbefore, fun j hj b hb => ?_⟩
      cases j with
      | zero => simpa using find?_eq_none.mp hfirst b hb
      | succ j => exact hlevels j (by omega) b hb

theorem find_eq_none (h : find next hit n l = none) :
    ∀ k < n, ∀ b ∈ level next k l, hit b = false := by
  induction n generalizing l with
  | zero => exact fun k hk => absurd hk (by omega)
  | succ n ih =>
    obtain ⟨hfirst, hrest⟩ := Option.or_eq_none_iff.mp h
    intro k hk b hb
    cases k with
    | zero => simpa using find?_eq_none.mp hfirst b hb
    | succ k => exact ih hrest k (by omega) b hb

/-- Where two elements are each the first of their kind on a list, they are the same. -/
theorem eq_of_first {before after before' after' : List α}
    (heq : before ++ a :: after = before' ++ b :: after') (ha : a ∉ before') (hb : b ∉ before) :
    b = a := by
  rcases append_eq_append_iff.mp heq with ⟨t, rfl, ht⟩ | ⟨t, rfl, ht⟩
  · cases t with
    | nil => exact (cons.inj ht).1.symm
    | cons c t =>
      rw [(cons.inj ht).1] at ha
      exact absurd (mem_append_right _ mem_cons_self) ha
  · cases t with
    | nil => exact (cons.inj ht).1
    | cons c t =>
      rw [(cons.inj ht).1] at hb
      exact absurd (mem_append_right _ mem_cons_self) hb

/-! ## What may be left out -/

section Drop

variable {before after : List α} {Seen : α → Prop}

/-- **Left out**: what was seen on a level before, or stands further to the left, does not change
the first hit. -/
theorem find_drop {dropped : List α}
    (hseen : ∀ a, Seen a → hit a = false ∧ ∀ b ∈ next a, Seen b ∨ b ∈ before ∨ b ∈ after)
    (hdropped : ∀ a ∈ dropped, Seen a ∨ a ∈ before) :
    find next hit n (before ++ (dropped ++ after)) = find next hit n (before ++ after) := by
  induction n generalizing before dropped after Seen with
  | zero => rfl
  | succ n ih =>
    unfold find
    rw [find?_append, find?_append, find?_append]
    cases hbefore : before.find? hit with
    | some found => rfl
    | none =>
      rw [find?_eq_none] at hbefore
      have hnone : dropped.find? hit = none := by
        rw [find?_eq_none]
        intro a ha
        rcases hdropped a ha with h | h
        · simp [(hseen a h).1]
        · exact hbefore a h
      rw [hnone]
      cases hafter : after.find? hit with
      | some found => rfl
      | none =>
        rw [find?_eq_none] at hafter
        show find next hit n _ = find next hit n _
        rw [flatMap_append, flatMap_append, flatMap_append]
        -- One level further, all of this level has been seen.
        refine @ih _ _ (fun a => Seen a ∨ a ∈ before ∨ a ∈ after) _ ?_ ?_
        · rintro a (ha | ha | ha)
          · exact ⟨(hseen a ha).1, fun b hb => Or.inl ((hseen a ha).2 b hb)⟩
          · refine ⟨by simpa using hbefore a ha, fun b hb => Or.inr (Or.inl ?_)⟩
            exact mem_flatMap.mpr ⟨a, ha, hb⟩
          · refine ⟨by simpa using hafter a ha, fun b hb => Or.inr (Or.inr ?_)⟩
            exact mem_flatMap.mpr ⟨a, ha, hb⟩
        · intro b hb
          obtain ⟨a, ha, hab⟩ := mem_flatMap.mp hb
          rcases hdropped a ha with h | h
          · exact Or.inl ((hseen a h).2 b hab)
          · exact Or.inr (mem_flatMap.mpr ⟨a, h, hab⟩)

/-- What was seen may be filtered out of a part of the list. -/
theorem find_filter {middle : List α} {keep : α → Bool}
    (hseen : ∀ a, Seen a → hit a = false ∧
      ∀ b ∈ next a, Seen b ∨ b ∈ before ∨ b ∈ middle ∨ b ∈ after)
    (hkeep : ∀ a ∈ middle, keep a = false → Seen a) :
    find next hit n (before ++ (middle.filter keep ++ after)) =
      find next hit n (before ++ (middle ++ after)) := by
  induction middle generalizing before with
  | nil => rfl
  | cons m middle ih =>
    have hrest : ∀ a ∈ middle, keep a = false → Seen a := fun a ha =>
      hkeep a (mem_cons_of_mem _ ha)
    by_cases hm : keep m = true
    · have hshift : ∀ l : List α, before ++ (m :: l ++ after) = (before ++ [m]) ++ (l ++ after) :=
        fun l => by simp
      rw [filter_cons_of_pos hm, hshift, hshift]
      refine ih (fun a ha => ⟨(hseen a ha).1, fun b hb => ?_⟩) hrest
      have := (hseen a ha).2 b hb
      simp only [mem_append, mem_cons, not_mem_nil, or_false] at this ⊢
      tauto
    · rw [Bool.not_eq_true] at hm
      have hmSeen := hkeep m mem_cons_self hm
      have hclosed : ∀ a, Seen a → hit a = false ∧
          ∀ b ∈ next a, Seen b ∨ b ∈ before ∨ b ∈ middle ∨ b ∈ after := by
        intro a ha
        refine ⟨(hseen a ha).1, fun b hb => ?_⟩
        rcases (hseen a ha).2 b hb with h | h | h | h
        · exact Or.inl h
        · exact Or.inr (Or.inl h)
        · rcases mem_cons.mp h with rfl | h
          · exact Or.inl hmSeen
          · exact Or.inr (Or.inr (Or.inl h))
        · exact Or.inr (Or.inr (Or.inr h))
      rw [filter_cons_of_neg (by simp [hm]), ih hclosed hrest]
      symm
      refine @find_drop _ next hit n before (middle ++ after) Seen [m] ?_ ?_
      · intro a ha
        refine ⟨(hclosed a ha).1, fun b hb => ?_⟩
        simpa only [mem_append] using (hclosed a ha).2 b hb
      · intro a ha
        rw [mem_singleton.mp ha]
        exact Or.inl hmSeen

end Drop

/-! ## The search with a queue -/

variable [DecidableEq α]

theorem unlisted_cons : unlisted next (a :: all) visited =
    (if a ∈ visited then 0 else (next a).length) + unlisted next all visited := by
  unfold unlisted
  by_cases ha : a ∈ visited <;> simp [ha]

theorem unlisted_le : unlisted next all (a :: visited) ≤ unlisted next all visited := by
  induction all with
  | nil => exact Nat.le_refl _
  | cons b all ih =>
    rw [unlisted_cons, unlisted_cons]
    by_cases hb : b ∈ visited
    · rw [if_pos hb, if_pos (mem_cons_of_mem _ hb)]
      omega
    · rw [if_neg hb]
      split <;> omega

/-- An expanded element has listed its neighbours. -/
theorem unlisted_expand (ha : a ∈ all) (hnew : a ∉ visited) :
    unlisted next all (a :: visited) + (next a).length ≤ unlisted next all visited := by
  induction all with
  | nil => cases ha
  | cons b all ih =>
    rw [unlisted_cons, unlisted_cons]
    by_cases hb : b = a
    · subst hb
      rw [if_pos mem_cons_self, if_neg hnew]
      have := @unlisted_le _ next b all visited _
      omega
    · have hall := ih ((mem_cons.mp ha).resolve_left (Ne.symm hb))
      by_cases hvisited : b ∈ visited
      · rw [if_pos hvisited, if_pos (mem_cons_of_mem _ hvisited)]
        omega
      have : b ∉ a :: visited := fun h => (mem_cons.mp h).elim hb hvisited
      rw [if_neg hvisited, if_neg this]
      omega

theorem search_cons {queue : List α} : search next hit (fuel + 1) (a :: queue) visited =
    if hit a then some a
    else if a ∈ visited then search next hit fuel queue visited
    else search next hit fuel (queue ++ (next a).filter (· ∉ a :: visited)) (a :: visited) :=
  rfl

/-- The visited elements are no hits, and what they list has been visited or is in the queue. -/
def Expanded (next : α → List α) (hit : α → Bool) (visited queue : List α) : Prop :=
  ∀ a ∈ visited, hit a = false ∧ ∀ b ∈ next a, b ∈ visited ∨ b ∈ queue

section Expanded

variable {front back queue : List α}

omit [DecidableEq α] in
/-- An element that was visited may leave the queue. -/
theorem Expanded.skip (h : Expanded next hit visited (a :: queue)) (hold : a ∈ visited) :
    Expanded next hit visited queue := by
  intro b hb
  refine ⟨(h b hb).1, fun c hc => ?_⟩
  rcases (h b hb).2 c hc with hc | hc
  · exact Or.inl hc
  rcases mem_cons.mp hc with rfl | hc
  · exact Or.inl hold
  · exact Or.inr hc

/-- An element that is no hit leaves the queue for the neighbours that are new. -/
theorem Expanded.expand (h : Expanded next hit visited (a :: queue)) (hhit : hit a = false) :
    Expanded next hit (a :: visited) (queue ++ (next a).filter (· ∉ a :: visited)) := by
  intro b hb
  rcases mem_cons.mp hb with rfl | hb
  · refine ⟨hhit, fun c hc => ?_⟩
    by_cases hnew : c ∈ b :: visited
    · exact Or.inl hnew
    · exact Or.inr (mem_append_right _ (mem_filter.mpr ⟨hc, decide_eq_true hnew⟩))
  · refine ⟨(h b hb).1, fun c hc => ?_⟩
    have := (h b hb).2 c hc
    simp only [mem_append, mem_cons] at this ⊢
    tauto

omit [DecidableEq α] in
/-- What a visited element lists does not change the first hit of the level after the front. -/
theorem Expanded.find_skip (h : Expanded next hit visited (front ++ back))
    (hfront : ∀ b ∈ front, hit b = false) (hold : a ∈ visited) :
    find next hit n (back ++ (next a ++ front.flatMap next)) =
      find next hit n (back ++ front.flatMap next) := by
  refine @find_drop _ next hit n back _ (fun b => b ∈ visited ∨ b ∈ front) _ ?_ ?_
  · rintro b (hb | hb)
    · refine ⟨(h b hb).1, fun c hc => ?_⟩
      have := (h b hb).2 c hc
      rw [mem_append] at this
      tauto
    · exact ⟨hfront b hb, fun c hc => Or.inr (Or.inr (mem_flatMap.mpr ⟨b, hb, hc⟩))⟩
  · intro c hc
    have := (h a hold).2 c hc
    rw [mem_append] at this
    tauto

/-- Nor does it matter which of the neighbours of an expanded element are new. -/
theorem Expanded.find_expand
    (h : Expanded next hit (a :: visited)
      (front ++ (back ++ (next a).filter (· ∉ a :: visited))))
    (hfront : ∀ b ∈ front, hit b = false) :
    find next hit n (back ++ ((next a).filter (· ∉ a :: visited) ++ front.flatMap next)) =
      find next hit n (back ++ (next a ++ front.flatMap next)) := by
  refine @find_filter _ next hit n back _ (fun b => b ∈ a :: visited ∨ b ∈ front) _ _ ?_ ?_
  · rintro b (hb | hb)
    · refine ⟨(h b hb).1, fun c hc => ?_⟩
      have := (h b hb).2 c hc
      simp only [mem_append] at this
      rcases this with h | h | h | h
      · exact Or.inl (Or.inl h)
      · exact Or.inl (Or.inr h)
      · exact Or.inr (Or.inl h)
      · exact Or.inr (Or.inr (Or.inl (mem_of_mem_filter h)))
    · exact ⟨hfront b hb, fun c hc => Or.inr (Or.inr (Or.inr (mem_flatMap.mpr ⟨b, hb, hc⟩)))⟩
  · intro c hc hdropped
    by_contra hnew
    rw [decide_eq_false_iff_not, not_not] at hdropped
    exact hnew (Or.inl hdropped)

end Expanded

/-- With so much fuel the search finds the first hit: the queue is the rest of a level and what
this level has listed so far. -/
def FindsWithin (next : α → List α) (hit : α → Bool) (all : List α) (fuel : ℕ) : Prop :=
  ∀ {front back visited n}, (∀ a ∈ front ++ back, a ∈ all) →
    Expanded next hit visited (front ++ back) →
    (front ++ back).length + unlisted next all visited < fuel → fuel ≤ n →
    search next hit fuel (front ++ back) visited =
      (front.find? hit).or (find next hit n (back ++ front.flatMap next))

/-- The head of the queue, where it stands on the level that is being gone through. -/
theorem FindsWithin.pop {front back : List α} (ih : FindsWithin next hit all fuel)
    (hall : ∀ a ∈ all, ∀ b ∈ next a, b ∈ all) (hqueue : ∀ b ∈ a :: (front ++ back), b ∈ all)
    (hvisited : Expanded next hit visited (a :: (front ++ back)))
    (hfuel : (front ++ back).length + 1 + unlisted next all visited < fuel + 1) (hn : fuel ≤ n) :
    search next hit (fuel + 1) (a :: (front ++ back)) visited =
      ((a :: front).find? hit).or (find next hit n (back ++ (next a ++ front.flatMap next))) := by
  rw [search_cons]
  by_cases hhit : hit a = true
  · rw [if_pos hhit, find?_cons_of_pos hhit]
    rfl
  rw [if_neg hhit, find?_cons_of_neg hhit]
  rw [Bool.not_eq_true] at hhit
  have hrest : ∀ b ∈ front ++ back, b ∈ all := fun b hb => hqueue b (mem_cons_of_mem _ hb)
  -- Past the front, none of which is a hit, only the level after it matters.
  have hpast : ∀ {x y : Option α}, ((∀ b ∈ front, hit b = false) → x = y) →
      (front.find? hit).or x = (front.find? hit).or y := by
    intro x y heq
    cases hfirst : front.find? hit with
    | some found => rfl
    | none =>
      rw [find?_eq_none] at hfirst
      rw [heq fun b hb => by simpa using hfirst b hb]
  by_cases hold : a ∈ visited
  · have hskipped := hvisited.skip hold
    rw [if_pos hold, ih hrest hskipped (by omega) hn]
    exact hpast fun hfront => (hskipped.find_skip hfront hold).symm
  · have hexpanded := hvisited.expand hhit
    rw [append_assoc] at hexpanded
    have hqueue' : ∀ b ∈ front ++ (back ++ (next a).filter (· ∉ a :: visited)), b ∈ all := by
      intro b hb
      rw [← append_assoc] at hb
      rcases mem_append.mp hb with hb | hb
      · exact hrest b hb
      · exact hall a (hqueue a mem_cons_self) b (mem_of_mem_filter hb)
    have hlength : ((next a).filter (· ∉ a :: visited)).length ≤ (next a).length :=
      length_filter_le _ _
    have hexpand := @unlisted_expand _ next a _ visited _ (hqueue a mem_cons_self) hold
    rw [if_neg hold, append_assoc, ih hqueue' hexpanded
      (by simp only [length_append] at hfuel ⊢; omega) hn, append_assoc]
    exact hpast hexpanded.find_expand

omit [DecidableEq α] in
theorem find_nil : find next hit n [] = none := by
  induction n with
  | zero => rfl
  | succ n ih => exact ih

/-- **The search with a queue** finds the first hit of the levels. -/
theorem search_queue (hall : ∀ a ∈ all, ∀ b ∈ next a, b ∈ all) (fuel : ℕ) :
    FindsWithin next hit all fuel := by
  induction fuel with
  | zero => exact fun _ _ hfuel _ => absurd hfuel (Nat.not_lt_zero _)
  | succ fuel ih =>
    intro front back visited n hqueue hvisited hfuel hn
    cases front with
    | cons a front =>
      rw [cons_append, length_cons] at hfuel
      exact ih.pop hall hqueue hvisited hfuel (by omega)
    | nil =>
      -- The next level begins.
      rw [nil_append] at hqueue hvisited hfuel
      rw [nil_append, flatMap_nil, append_nil]
      cases back with
      | nil => exact find_nil.symm
      | cons a back =>
        obtain ⟨n, rfl⟩ := Nat.exists_eq_succ_of_ne_zero (show n ≠ 0 by omega)
        have hlevel := @FindsWithin.pop _ next hit n fuel a all visited _ back [] ih hall
          (by simpa using hqueue) (by simpa using hvisited) (by simpa using hfuel) (by omega)
        rw [append_nil] at hlevel
        exact hlevel

/-- **The search** from one element. -/
theorem search_eq_find (hall : ∀ a ∈ all, ∀ b ∈ next a, b ∈ all) (ha : a ∈ all)
    (hfuel : (all.map fun a => (next a).length).sum + 1 < fuel) (hn : fuel ≤ n) :
    search next hit fuel [a] [] = find next hit n [a] := by
  have hunlisted : unlisted next all [] = (all.map fun a => (next a).length).sum := by
    simp [unlisted]
  have hsearch := @search_queue _ next hit all _ hall fuel [] [a] [] n (by simpa using ha) nofun
    (by rw [hunlisted]; simp; omega) hn
  simpa using hsearch

end BreadthFirst
