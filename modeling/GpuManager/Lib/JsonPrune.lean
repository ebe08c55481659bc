import GpuManager.Lib.Json
import GpuManager.Lib.PyDict

/-!
# Leaving out the members of a value

`prune keep` leaves out, at any depth, the members of objects whose key is not kept.

* `kept_prune`: what is left has only keys that are kept.
* `at?_prune`: along a path of such keys nothing else is changed.
-/

namespace Json

variable {F : Type} {keep : PyStr → Bool}

mutual

/-- The value without the members whose key is not kept. -/
def prune (keep : PyStr → Bool) : Json F → Json F
  | .obj members => .obj (pruneMembers keep members)
  | .arr items => .arr (pruneItems keep items)
  | value => value

def pruneMembers (keep : PyStr → Bool) : List (PyStr × Json F) → List (PyStr × Json F)
  | [] => []
  | (key, value) :: members =>
    if keep key then (key, prune keep value) :: pruneMembers keep members
    else pruneMembers keep members

def pruneItems (keep : PyStr → Bool) : List (Json F) → List (Json F)
  | [] => []
  | item :: items => prune keep item :: pruneItems keep items

end

mutual

/-- Every object at any depth has only keys that are kept. -/
def Kept (keep : PyStr → Bool) : Json F → Prop
  | .obj members => KeptMembers keep members
  | .arr items => KeptItems keep items
  | _ => True

def KeptMembers (keep : PyStr → Bool) : List (PyStr × Json F) → Prop
  | [] => True
  | (key, value) :: members => keep key = true ∧ Kept keep value ∧ KeptMembers keep members

def KeptItems (keep : PyStr → Bool) : List (Json F) → Prop
  | [] => True
  | item :: items => Kept keep item ∧ KeptItems keep items

end

/-- A step into a value. -/
inductive Step where
  | key (key : PyStr)
  | index (i : ℕ)

/-- What is at a path of a value. -/
def at? : List Step → Json F → Option (Json F)
  | [], value => some value
  | .key key :: path, .obj members => (PyDict.get? members key).bind (at? path)
  | .index i :: path, .arr items => items[i]?.bind (at? path)
  | _, _ => none

/-- A value without what it holds: the length of a list is left. -/
def skin : Json F → Json F
  | .obj _ => .obj []
  | .arr items => .arr (items.map fun _ => .null)
  | value => value

/-! ## What is left -/

mutual

/-- **What is left** has only keys that are kept. -/
theorem kept_prune : (value : Json F) → Kept keep (prune keep value)
  | .obj members => keptMembers_prune members
  | .arr items => keptItems_prune items
  | .null => trivial
  | .bool _ => trivial
  | .int _ => trivial
  | .float _ => trivial
  | .str _ => trivial

theorem keptMembers_prune :
    (members : List (PyStr × Json F)) → KeptMembers keep (pruneMembers keep members)
  | [] => trivial
  | (key, value) :: members => by
      rw [pruneMembers]
      split
      case isTrue hkey => exact ⟨hkey, kept_prune value, keptMembers_prune members⟩
      case isFalse => exact keptMembers_prune members

theorem keptItems_prune : (items : List (Json F)) → KeptItems keep (pruneItems keep items)
  | [] => trivial
  | item :: items => ⟨kept_prune item, keptItems_prune items⟩

end

theorem keptMembers_iff {members : List (PyStr × Json F)} :
    KeptMembers keep members ↔ ∀ m ∈ members, keep m.1 = true ∧ Kept keep m.2 := by
  induction members with
  | nil => simp [KeptMembers]
  | cons m members ih => simp [KeptMembers, ih, and_assoc]

/-! ## What is not changed -/

theorem pruneItems_eq_map (items : List (Json F)) :
    pruneItems keep items = items.map (prune keep) := by
  induction items with
  | nil => rfl
  | cons item items ih => rw [pruneItems, ih, List.map_cons]

/-- A member whose key is kept is found, pruned. -/
theorem get?_pruneMembers (members : List (PyStr × Json F)) {key : PyStr} (hkey : keep key = true) :
    PyDict.get? (pruneMembers keep members) key =
      (PyDict.get? members key).map (prune keep) := by
  induction members with
  | nil => rfl
  | cons m members ih =>
    obtain ⟨name, value⟩ := m
    rw [pruneMembers, PyDict.get?_cons]
    by_cases hname : name = key
    · subst hname
      rw [if_pos hkey, PyDict.get?_cons, if_pos rfl, if_pos rfl]
      rfl
    · rw [if_neg hname, ← ih]
      split
      · rw [PyDict.get?_cons, if_neg hname]
      · rfl

/-- **Along a path** of keys that are kept there is what was there, pruned. -/
theorem at?_prune {path : List Step} (hpath : ∀ key, .key key ∈ path → keep key = true)
    (value : Json F) : at? path (prune keep value) = (at? path value).map (prune keep) := by
  induction path generalizing value with
  | nil =>
    rw [at?, at?]
    rfl
  | cons step path ih =>
    have hrest := ih fun key hmem => hpath key (List.mem_cons_of_mem _ hmem)
    cases step with
    | key key =>
      cases value with
      | obj members =>
        rw [prune, at?, at?, get?_pruneMembers members (hpath key List.mem_cons_self)]
        cases PyDict.get? members key with
        | none => rfl
        | some value => exact hrest value
      | _ => rfl
    | index i =>
      cases value with
      | arr items =>
        rw [prune, at?, at?, pruneItems_eq_map, List.getElem?_map]
        cases items[i]? with
        | none => rfl
        | some value => exact hrest value
      | _ => rfl

theorem skin_prune (value : Json F) : skin (prune keep value) = skin value := by
  cases value with
  | arr items =>
    rw [prune, skin, skin, pruneItems_eq_map, List.map_map]
    rfl
  | _ => rfl

end Json
