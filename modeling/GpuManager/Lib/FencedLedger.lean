import Mathlib.Data.List.Pairwise
import Mathlib.Tactic.Linarith

/-!
# Fenced grants

A store that grants leases and fences them: for each key it keeps a **level**, and a
granted lease carries the level that its grant has just reached.  A `Fencing` is such
a store as far as its grants are concerned, and a `Ledger` is the store together with
every lease it has granted, in order.

If no step lowers a level and every grant raises it (`Fencing.Raises`), then the
grants of one key carry strictly increasing fences, and every lease but the last of
its key lies below the level of the store.
-/

namespace FencedLedger

/-- A store that grants leases `L` for keys `K`, one level per key. -/
structure Fencing (S Op L K : Type) where
  step : Op → S → List L × S
  key : L → K
  fence : L → ℤ
  level : S → K → ℤ

structure Ledger (S L : Type) where
  store : S
  grants : List L

namespace Fencing

variable {S Op L K : Type} (F : Fencing S Op L K)

/-- One call. -/
def next (st : Ledger S L) (op : Op) : Ledger S L :=
  ⟨(F.step op st.store).2, st.grants ++ (F.step op st.store).1⟩

/-- A run of calls. -/
def run (st : Ledger S L) (ops : List Op) : Ledger S L := ops.foldl F.next st

def visits (st : Ledger S L) : List Op → List (S × Op)
  | [] => []
  | op :: ops => (st.store, op) :: visits (F.next st op) ops

/-- The call grants leases of distinct keys, each one level up, and leaves every other
level alone. -/
structure Raises (op : Op) (s : S) : Prop where
  nodup : ((F.step op s).1.map F.key).Nodup
  granted : ∀ l ∈ (F.step op s).1, F.fence l = F.level s (F.key l) + 1 ∧
    F.level (F.step op s).2 (F.key l) = F.fence l
  other : ∀ k, k ∉ (F.step op s).1.map F.key → F.level (F.step op s).2 k = F.level s k

/-- Grants of one key carry increasing fences, up to the level of the store. -/
structure Ordered (st : Ledger S L) : Prop where
  nonneg : ∀ k, 0 ≤ F.level st.store k
  pos : ∀ l ∈ st.grants, 0 < F.fence l
  le : ∀ l ∈ st.grants, F.fence l ≤ F.level st.store (F.key l)
  lt : st.grants.Pairwise fun l l' => F.key l = F.key l' → F.fence l < F.fence l'

variable {F} {op : Op} {st : Ledger S L} {s : S}

/-- The same for a call whose grants and effect are known. -/
theorem Raises.of_step (grants : List L) (s' : S)
    (hstep : F.step op s = (grants, s')) (hnodup : (grants.map F.key).Nodup)
    (hgranted : ∀ l ∈ grants, F.fence l = F.level s (F.key l) + 1 ∧
      F.level s' (F.key l) = F.fence l)
    (hother : ∀ k, k ∉ grants.map F.key → F.level s' k = F.level s k) : F.Raises op s := by
  refine ⟨?_, ?_, ?_⟩
  · rw [hstep]
    exact hnodup
  · rw [hstep]
    exact hgranted
  · rw [hstep]
    exact hother

/-- A call that grants nothing and keeps every level. -/
theorem Raises.of_nil (s' : S) (hstep : F.step op s = ([], s'))
    (hlevel : ∀ k, F.level s' k = F.level s k) : F.Raises op s :=
  .of_step [] s' hstep List.nodup_nil (fun _ hl => by cases hl) fun k _ => hlevel k

theorem Raises.level_le (h : F.Raises op s) (k : K) :
    F.level s k ≤ F.level (F.step op s).2 k := by
  by_cases hk : k ∈ (F.step op s).1.map F.key
  · obtain ⟨l, hl, rfl⟩ := List.mem_map.mp hk
    obtain ⟨hfence, hlevel⟩ := h.granted l hl
    omega
  · rw [h.other k hk]

/-- **One call** keeps the grants ordered. -/
theorem Ordered.next (hst : F.Ordered st)
    (h : F.Raises op st.store) : F.Ordered (F.next st op) := by
  refine ⟨fun k => (hst.nonneg k).trans (h.level_le k), fun l hl => ?_, fun l hl => ?_, ?_⟩
  · rcases List.mem_append.mp hl with hl | hl
    · exact hst.pos l hl
    have hlevel := hst.nonneg (F.key l)
    have hfence := (h.granted l hl).1
    omega
  · rcases List.mem_append.mp hl with hl | hl
    · exact (hst.le l hl).trans (h.level_le _)
    · exact (h.granted l hl).2.ge
  · refine List.pairwise_append.mpr ⟨hst.lt, ?_, fun l hl l' hl' hkey => ?_⟩
    · -- Two leases of one call have different keys.
      refine (List.pairwise_map.mp h.nodup).imp fun hne hkey => ?_
      exact absurd hkey hne
    · have hle := hst.le l hl
      have hfence := (h.granted l' hl').1
      rw [hkey] at hle
      omega

/-- **A run** whose calls all raise their levels keeps the grants ordered. -/
theorem Ordered.run {I : S → Prop} (hI : ∀ op s, I s → I (F.step op s).2)
    {ops : List Op} (hst : F.Ordered st) (hinv : I st.store)
    (h : ∀ v ∈ F.visits st ops, I v.1 → F.Raises v.2 v.1) :
    F.Ordered (F.run st ops) ∧ I (F.run st ops).store := by
  induction ops generalizing st with
  | nil => exact ⟨hst, hinv⟩
  | cons op ops ih =>
    rw [visits, List.forall_mem_cons] at h
    exact ih (hst.next (h.1 hinv)) (hI op st.store hinv) h.2

end Fencing

end FencedLedger
