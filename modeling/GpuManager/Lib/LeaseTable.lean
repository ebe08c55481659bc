import Mathlib.Data.List.Pairwise
import Mathlib.Order.Lattice
import Mathlib.Order.Nat

/-!
# Lease tables

A table of entries, one per key, each with an owner, a fence and an expiry; and the
**grants** that were made over it, each over several keys.  A grant is *live* at a time
if it has not been released and has not expired.

`Table.Backs` is the invariant that makes grants exclusive: every live grant owns the
entry of each of its keys.  It is kept by a grant over keys without a live entry, by a
renewal and a release of a grant that owns all its keys, by the removal of an expired
entry and by the passing of time.  Since fences are never used twice, two live grants
over a common key are the same grant.
-/

namespace LeaseTable

open List

/-- What a table holds for a key. -/
structure Entry (O T : Type) where
  owner : O
  fence : ℕ
  expiresAt : T
  deriving DecidableEq

/-- A grant: its keys, its fence, and what has become of it. -/
structure Grant (K O T : Type) where
  keys : List K
  owner : O
  fence : ℕ
  expiresAt : T
  released : Bool

variable {K O T : Type} {i : ℕ}

/-- The entry a live grant owns. -/
def Grant.entry (g : Grant K O T) : Entry O T := ⟨g.owner, g.fence, g.expiresAt⟩

def Grant.Live [LinearOrder T] (g : Grant K O T) (now : T) : Prop :=
  g.released = false ∧ now < g.expiresAt

def setAll [DecidableEq K] (keys : List K) (e : Entry O T) (entries : K → Option (Entry O T)) :
    K → Option (Entry O T) :=
  fun k => if k ∈ keys then some e else entries k

def dropAll [DecidableEq K] (keys : List K) (entries : K → Option (Entry O T)) :
    K → Option (Entry O T) :=
  fun k => if k ∈ keys then none else entries k

/-- The table backs the grants at a time: fences increase, and every live grant owns the
entry of each of its keys. -/
structure Backs [LinearOrder T] (entries : K → Option (Entry O T)) (counter : ℕ)
    (grants : List (Grant K O T)) (now : T) : Prop where
  fences : grants.Pairwise fun g g' => g.fence < g'.fence
  bounded : ∀ g ∈ grants, g.fence ≤ counter
  owns : ∀ g ∈ grants, g.Live now → ∀ k ∈ g.keys, entries k = some g.entry

namespace Backs

variable [LinearOrder T] {entries : K → Option (Entry O T)} {counter : ℕ}
  {grants : List (Grant K O T)} {now now' : T}

variable (h : Backs entries counter grants now) {g g₀ : Grant K O T} {f : Grant K O T → Grant K O T}
include h

/-- **Exclusion.**  Two different live grants have no key in common. -/
theorem exclusive :
    grants.Pairwise fun g g' => ∀ t, now ≤ t → g.Live t → g'.Live t →
      ∀ k ∈ g.keys, k ∉ g'.keys := by
  refine Pairwise.imp_of_mem (fun {g g'} hg hg' hlt t ht hlive hlive' k hk hk' => ?_)
    h.fences
  have hk := h.owns g hg ⟨hlive.1, ht.trans_lt hlive.2⟩ k hk
  have hk' := h.owns g' hg' ⟨hlive'.1, ht.trans_lt hlive'.2⟩ k hk'
  rw [hk] at hk'
  exact hlt.ne (congrArg Entry.fence (Option.some.inj hk'))

theorem advance (hle : now ≤ now') : Backs entries counter grants now' :=
  ⟨h.fences, h.bounded, fun g hg hlive => h.owns g hg ⟨hlive.1, hle.trans_lt hlive.2⟩⟩

theorem grant [DecidableEq K] {keys : List K} (owner : O) (expiresAt : T)
    (hfree : ∀ k ∈ keys, ∀ e ∈ entries k, e.expiresAt ≤ now) :
    Backs (setAll keys ⟨owner, counter + 1, expiresAt⟩ entries) (counter + 1)
      (grants ++ [⟨keys, owner, counter + 1, expiresAt, false⟩]) now := by
  refine ⟨?_, fun g hg => ?_, fun g hg hlive k hk => ?_⟩
  · refine pairwise_append.mpr ⟨h.fences, pairwise_singleton _ _, ?_⟩
    intro g hg g' hg'
    obtain rfl := mem_singleton.mp hg'
    exact Nat.lt_succ_of_le (h.bounded g hg)
  · rcases mem_append.mp hg with hg | hg
    · exact (h.bounded g hg).trans (Nat.le_succ counter)
    · obtain rfl := mem_singleton.mp hg
      exact le_rfl
  · rcases mem_append.mp hg with hg | hg
    · -- A live grant keeps its keys: they were not free.
      have hentry := h.owns g hg hlive k hk
      have hnot : k ∉ keys := by
        intro hmem
        exact absurd (hfree k hmem g.entry hentry) (not_le.mpr hlive.2)
      rw [setAll, if_neg hnot]
      exact hentry
    · obtain rfl := mem_singleton.mp hg
      have hk : k ∈ keys := hk
      rw [setAll, if_pos hk]
      rfl

/-- A grant of the list with the one at `i` changed is the changed one, or another one of
the list. -/
theorem modify_mem (hg₀ : grants[i]? = some g₀) (hg : g ∈ grants.modify i f) :
    g = f g₀ ∨ g ∈ grants ∧ g.fence ≠ g₀.fence := by
  obtain ⟨j, hj⟩ := mem_iff_getElem?.mp hg
  rw [List.getElem?_modify] at hj
  by_cases hij : i = j
  · subst hij
    left
    simpa [hg₀, eq_comm] using hj
  · right
    have hj : grants[j]? = some g := by simpa [hij] using hj
    refine ⟨mem_of_getElem? hj, ?_⟩
    obtain ⟨hi', hgi⟩ := List.getElem?_eq_some_iff.mp hg₀
    obtain ⟨hj', hgj⟩ := List.getElem?_eq_some_iff.mp hj
    have hlt := pairwise_iff_getElem.mp h.fences
    subst hgi hgj
    rcases Nat.lt_or_gt_of_ne hij with hij | hij
    · exact (hlt i j hi' hj' hij).ne'
    · exact (hlt j i hj' hi' hij).ne

/-- Changing a grant without its fence keeps what is said of the fences. -/
theorem modify_fences (i : ℕ) (hf : ∀ g, (f g).fence = g.fence) :
    (grants.modify i f).Pairwise (fun g g' => g.fence < g'.fence) ∧
      ∀ g ∈ grants.modify i f, g.fence ≤ counter := by
  have hmap : (grants.modify i f).map Grant.fence = grants.map Grant.fence := by
    apply ext_getElem?
    intro j
    rw [List.getElem?_map, List.getElem?_map, List.getElem?_modify]
    by_cases hij : i = j
    · cases grants[j]? <;> simp [hij, hf]
    · simp [hij]
  constructor
  · have hpair := pairwise_map.mpr h.fences
    rw [← hmap] at hpair
    exact pairwise_map.mp hpair
  · intro g hg
    have hmem := mem_map_of_mem (f := Grant.fence) hg
    rw [hmap] at hmem
    obtain ⟨g', hg', heq⟩ := mem_map.mp hmem
    exact heq ▸ h.bounded g' hg'

/-- A live grant keeps an entry that another grant's call writes or drops: the entry bears
another fence. -/
theorem other_key
    (hheld : ∀ k ∈ g₀.keys, ∃ e, entries k = some e ∧ e.fence = g₀.fence) (hg : g ∈ grants)
    (hne : g.fence ≠ g₀.fence) (hlive : g.Live now) {k : K} (hk : k ∈ g.keys) : k ∉ g₀.keys := by
  intro hmem
  obtain ⟨e, he, hfence⟩ := hheld k hmem
  rw [h.owns g hg hlive k hk] at he
  apply hne
  rw [← hfence, ← Option.some.inj he]
  rfl

/-- A grant that bears the entries of all its keys is renewed. -/
theorem renew [DecidableEq K] (hg₀ : grants[i]? = some g₀)
    (expiresAt : T) (hheld : ∀ k ∈ g₀.keys, ∃ e, entries k = some e ∧ e.fence = g₀.fence) :
    Backs (setAll g₀.keys ⟨g₀.owner, g₀.fence, expiresAt⟩ entries) counter
      (grants.modify i fun g => { g with expiresAt := expiresAt }) now := by
  obtain ⟨hfences, hbounded⟩ := h.modify_fences i (f := fun g => { g with expiresAt := expiresAt })
    fun _ => rfl
  refine ⟨hfences, hbounded, fun g hg hlive k hk => ?_⟩
  rcases h.modify_mem hg₀ hg with rfl | ⟨hg, hne⟩
  · have hk : k ∈ g₀.keys := hk
    rw [setAll, if_pos hk]
    rfl
  · rw [setAll, if_neg (h.other_key hheld hg hne hlive hk)]
    exact h.owns g hg hlive k hk

/-- A grant that bears the entries of all its keys is released. -/
theorem release [DecidableEq K] (hg₀ : grants[i]? = some g₀)
    (hheld : ∀ k ∈ g₀.keys, ∃ e, entries k = some e ∧ e.fence = g₀.fence) :
    Backs (dropAll g₀.keys entries) counter
      (grants.modify i fun g => { g with released := true }) now := by
  obtain ⟨hfences, hbounded⟩ := h.modify_fences i (f := fun g => { g with released := true })
    fun _ => rfl
  refine ⟨hfences, hbounded, fun g hg hlive k hk => ?_⟩
  rcases h.modify_mem hg₀ hg with rfl | ⟨hg, hne⟩
  · cases hlive.1
  · rw [dropAll, if_neg (h.other_key hheld hg hne hlive hk)]
    exact h.owns g hg hlive k hk

theorem expire [DecidableEq K] {k₀ : K} (hexpired : ∀ e ∈ entries k₀, e.expiresAt ≤ now) :
    Backs (dropAll [k₀] entries) counter grants now := by
  refine ⟨h.fences, h.bounded, fun g hg hlive k hk => ?_⟩
  have hentry := h.owns g hg hlive k hk
  have hne : k ∉ [k₀] := by
    intro hmem
    obtain rfl := mem_singleton.mp hmem
    exact absurd (hexpired g.entry hentry) (not_le.mpr hlive.2)
  rw [dropAll, if_neg hne]
  exact hentry

end Backs

end LeaseTable
