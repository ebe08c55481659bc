import Mathlib.Data.List.Basic

/-!
# Dictionaries

A Python dictionary is the list of its items in insertion order.  Setting a key that is
there keeps its place.
-/

/-- A Python `dict`. -/
abbrev PyDict (K V : Type) := List (K × V)

namespace PyDict

open List

variable {K V : Type} [DecidableEq K]

/-- `d.get(key)`. -/
def get? (d : PyDict K V) (key : K) : Option V := (d.find? fun e => e.1 = key).map (·.2)

/-- `d[key] = value`. -/
def set (d : PyDict K V) (key : K) (value : V) : PyDict K V :=
  if d.any fun e => e.1 = key then d.map fun e => if e.1 = key then (key, value) else e
  else d ++ [(key, value)]

@[simp] theorem get?_nil (key : K) : get? ([] : PyDict K V) key = none := rfl

theorem get?_cons (e : K × V) (d : PyDict K V) (key : K) :
    get? (e :: d) key = if e.1 = key then some e.2 else get? d key := by
  unfold get?
  by_cases h : e.1 = key <;> simp [h]

theorem get?_append (d d' : PyDict K V) (key : K) :
    get? (d ++ d') key = (get? d key).or (get? d' key) := by
  unfold get?
  rw [List.find?_append]
  cases d.find? fun e => e.1 = key <;> rfl

/-- `d[key]` exists when some item has the key. -/
theorem any_iff (d : PyDict K V) (key : K) :
    d.any (fun e => e.1 = key) = true ↔ (get? d key).isSome = true := by
  unfold get?
  rw [Option.isSome_map, List.find?_isSome, any_eq_true]

/-- What is found after the items of a key were replaced. -/
theorem get?_replace (d : PyDict K V) (key other : K) (value : V) :
    get? (d.map fun e => if e.1 = key then (key, value) else e) other =
      if other = key then (get? d key).map fun _ => value else get? d other := by
  induction d with
  | nil => simp
  | cons e d ih =>
    rw [map_cons, get?_cons, get?_cons, get?_cons, ih]
    by_cases he : e.1 = key
    · by_cases ho : other = key
      · simp [he, ho]
      · have hko : ¬ key = other := fun h => ho h.symm
        simp [he, ho, hko]
    · by_cases ho : other = key <;> simp [he, ho]

theorem get?_set (d : PyDict K V) (key other : K) (value : V) :
    get? (set d key value) other = if other = key then some value else get? d other := by
  unfold set
  split
  · next hin =>
      rw [any_iff] at hin
      obtain ⟨old, hold⟩ := Option.isSome_iff_exists.mp hin
      rw [get?_replace, hold]
      rfl
  · next hout =>
      rw [any_iff, Bool.not_eq_true, Option.isSome_eq_false_iff, Option.isNone_iff_eq_none] at hout
      rw [get?_append, get?_cons, get?_nil]
      by_cases ho : other = key
      · subst ho
        simp [hout]
      · have hko : ¬ key = other := fun h => ho h.symm
        cases get? d other <;> simp [ho, hko]

@[simp] theorem get?_set_self (d : PyDict K V) (key : K) (value : V) :
    get? (set d key value) key = some value := by
  rw [get?_set, if_pos rfl]

variable {d : PyDict K V} {key : K} {value : V}

theorem get?_isSome : (get? d key).isSome = true ↔ key ∈ d.map (·.1) := by
  rw [← any_iff, any_eq_true, mem_map]
  simp

theorem get?_eq_some_of_mem (hnodup : (d.map (·.1)).Nodup) {e : K × V} (he : e ∈ d) :
    get? d e.1 = some e.2 := by
  induction d with
  | nil => cases he
  | cons first d ih =>
    rw [map_cons, nodup_cons] at hnodup
    rw [get?_cons]
    rcases mem_cons.mp he with rfl | he
    · rw [if_pos rfl]
    have hne : first.1 ≠ e.1 := fun h => hnodup.1 (h ▸ mem_map_of_mem he)
    rw [if_neg hne]
    exact ih hnodup.2 he

theorem mem_of_get? (h : get? d key = some value) : (key, value) ∈ d := by
  unfold get? at h
  obtain ⟨e, he, hvalue⟩ := Option.map_eq_some_iff.mp h
  have hkey : e.1 = key := by simpa using List.find?_some he
  rw [← hkey, ← hvalue]
  exact mem_of_find?_eq_some he

theorem nodup_set (hnodup : (d.map (·.1)).Nodup) (key : K) (value : V) :
    ((set d key value).map (·.1)).Nodup := by
  unfold set
  split
  · have hkeys : (d.map fun e => if e.1 = key then (key, value) else e).map (·.1) =
        d.map (·.1) := by
      rw [map_map]
      refine map_congr_left fun e _ => ?_
      by_cases h : e.1 = key <;> simp [h]
    rw [hkeys]
    exact hnodup
  · next hout =>
      rw [map_append, map_cons, map_nil, nodup_append]
      refine ⟨hnodup, by simp, fun k hk k' hk' => ?_⟩
      obtain ⟨e, he, rfl⟩ := mem_map.mp hk
      rw [mem_singleton.mp hk']
      exact fun h => hout (any_eq_true.mpr ⟨e, he, decide_eq_true h⟩)

/-- Setting distinct keys one after the other builds the list of them. -/
theorem foldl_set {items : PyDict K V} (hnodup : ((d ++ items).map (·.1)).Nodup) :
    items.foldl (fun d e => set d e.1 e.2) d = d ++ items := by
  induction items generalizing d with
  | nil => simp
  | cons e items ih =>
    have hset : set d e.1 e.2 = d ++ [e] := by
      refine if_neg ?_
      rw [any_eq_true]
      rintro ⟨e', he', hkey⟩
      rw [map_append, nodup_append] at hnodup
      exact hnodup.2.2 e'.1 (mem_map_of_mem he') e.1 (by simp) (of_decide_eq_true hkey)
    rw [foldl_cons, hset, ih (by simpa using hnodup)]
    simp

/-- Setting a key to what it has changes nothing. -/
theorem set_eq_self (hnodup : (d.map (·.1)).Nodup) (h : get? d key = some value) :
    set d key value = d := by
  have hin : d.any (fun e => e.1 = key) = true := by
    rw [any_iff, h]
    rfl
  unfold set
  rw [if_pos hin]
  refine (map_congr_left fun e he => ?_).trans (map_id d)
  by_cases hkey : e.1 = key
  · have hvalue := get?_eq_some_of_mem hnodup he
    rw [hkey, h] at hvalue
    rw [if_pos hkey, ← hkey, Option.some.inj hvalue]
    rfl
  · rw [if_neg hkey]
    rfl

/-- With distinct keys the order of the items does not matter to a lookup. -/
theorem get?_of_perm {d' : PyDict K V} (hperm : d.Perm d') (hnodup : (d.map (·.1)).Nodup) (key : K)
    : get? d key = get? d' key := by
  have hnodup' : (d'.map (·.1)).Nodup := (hperm.map (·.1)).nodup_iff.mp hnodup
  cases hvalue : get? d key with
  | some value => exact (get?_eq_some_of_mem hnodup' (hperm.mem_iff.mp (mem_of_get? hvalue))).symm
  | none =>
    cases hvalue' : get? d' key with
    | none => rfl
    | some value =>
      have hmem := hperm.mem_iff.mpr (mem_of_get? hvalue')
      rw [get?_eq_some_of_mem hnodup hmem] at hvalue
      cases hvalue

theorem get?_mapValues {W : Type} (f : V → W) (d : PyDict K V) (key : K) :
    get? (d.map fun e => (e.1, f e.2)) key = (get? d key).map f := by
  induction d with
  | nil => rfl
  | cons e d ih =>
    rw [map_cons, get?_cons, get?_cons, ih]
    by_cases h : e.1 = key <;> simp [h]

end PyDict
