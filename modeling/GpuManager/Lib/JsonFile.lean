import Mathlib.Algebra.Group.Nat.Defs
import Mathlib.Data.List.Basic
import Mathlib.Data.List.Nodup
import Mathlib.Data.List.Sort
import GpuManager.Lib.Json
import GpuManager.Lib.PyDict

/-!
# What a JSON file gives back

`json.loads` of what `json.dumps(value, sort_keys=True)` wrote, as a function of the value.
A string is written code point by code point in ASCII escapes and read with every high
surrogate joined to a low one that follows it; an integer of more than 4300 digits is not
written at all; a float is read back exactly; the members of an object come back sorted by
their keys, of which the last counts when two are read as the same.

For a `Plain` value, whose strings hold no such pair and whose objects have distinct keys,
only the order of the members changes (`reread_plain`), and no lookup sees it
(`get?_sortKeys`).

`encode` is the text that a digest is taken of.  It is written in UTF-8, so that it raises for any
surrogate.
-/

namespace PyStr

def pair (high low : CodePoint) : CodePoint :=
  ⟨(0x10000 + (high.val - 0xD800) * 0x400 + (low.val - 0xDC00)) % 0x110000,
    Nat.mod_lt _ (by decide)⟩

def isHigh (c : CodePoint) : Bool := 0xD800 ≤ c.val && c.val ≤ 0xDBFF

def isLow (c : CodePoint) : Bool := 0xDC00 ≤ c.val && c.val ≤ 0xDFFF

/-- The string that is read back: pairs of surrogates are joined. -/
def join : PyStr → PyStr
  | [] => []
  | [c] => [c]
  | c :: d :: rest => if isHigh c && isLow d then pair c d :: join rest else c :: join (d :: rest)

/-- Without high surrogates there is nothing to join. -/
theorem join_eq_self {s : PyStr} (h : ∀ c ∈ s, isHigh c = false) : join s = s := by
  induction s with
  | nil => rfl
  | cons c rest ih =>
    rw [List.forall_mem_cons] at h
    cases rest with
    | nil => rfl
    | cons d rest =>
      unfold join
      rw [h.1, Bool.false_and, if_neg (by decide), ih h.2]

theorem join_of_isId {s : PyStr} (h : isId s = true) : join s = s := by
  refine join_eq_self fun d hd => ?_
  cases s with
  | nil => cases hd
  | cons c rest =>
    simp only [isId, isAlphanumeric, isHigh, Bool.and_eq_true, Bool.or_eq_true, List.all_eq_true,
      decide_eq_true_eq, Bool.and_eq_false_iff, decide_eq_false_iff_not] at h ⊢
    rcases List.mem_cons.mp hd with rfl | hd
    · have hfirst := h.1.1
      omega
    · have hrest := h.2 d hd
      omega

theorem join_hexdigest (digest : List (Fin 16)) : join (hexdigest digest) = hexdigest digest := by
  have hascii : ∀ d : Fin 16, isHigh ⟨(if d.val < 10 then 0x30 + d.val else 0x57 + d.val) %
      0x110000, Nat.mod_lt _ (by decide)⟩ = false := by decide
  refine join_eq_self fun point hpoint => ?_
  obtain ⟨d, -, rfl⟩ := List.mem_map.mp hpoint
  exact hascii d

theorem le_total (a b : PyStr) : le a b = true ∨ le b a = true := by
  induction a generalizing b with
  | nil => exact Or.inl rfl
  | cons x xs ih =>
    cases b with
    | nil => exact Or.inr rfl
    | cons y ys =>
      unfold le
      rcases lt_trichotomy x y with h | rfl | h
      · exact Or.inl (by simp [h])
      · simpa using ih ys
      · exact Or.inr (by simp [h])

theorem le_trans {a b d : PyStr} (hab : le a b = true) (hbd : le b d = true) : le a d = true := by
  induction a generalizing b d with
  | nil => rfl
  | cons x xs ih =>
    cases b with
    | nil => cases hab
    | cons y ys =>
      cases d with
      | nil => cases hbd
      | cons z zs =>
        simp only [le, Bool.or_eq_true, Bool.and_eq_true, decide_eq_true_eq, beq_iff_eq]
          at hab hbd ⊢
        rcases hab with hxy | ⟨rfl, hxs⟩
        · rcases hbd with hyz | ⟨rfl, -⟩
          · exact Or.inl (hxy.trans hyz)
          · exact Or.inl hxy
        · rcases hbd with hyz | ⟨rfl, hys⟩
          · exact Or.inl hyz
          · exact Or.inr ⟨rfl, ih hxs hys⟩

end PyStr

namespace Json

open PyStr List PyDict

variable {F : Type}

/-- `sys.int_info.default_max_str_digits`: integers below this bound can be written. -/
def intLimit : ℕ := 10 ^ 4300

/-- The members of an object in the order of their keys. -/
def sortMembers (members : List (PyStr × Json F)) : List (PyStr × Json F) :=
  members.insertionSort fun a b => PyStr.le a.1 b.1 = true

mutual

/-- `json.loads(json.dumps(value, sort_keys=True))`; `none` when `json.dumps` raises. -/
def reread : Json F → Option (Json F)
  | .null => some .null
  | .bool b => some (.bool b)
  | .int n => if n.natAbs < intLimit then some (.int n) else none
  | .float x => some (.float x)
  | .str s => some (.str (join s))
  | .arr items => (rereadItems items).map .arr
  | .obj members => (rereadMembers members).map fun ms =>
    .obj ((sortMembers ms).foldl (fun d m => PyDict.set d (join m.1) m.2) [])

def rereadItems : List (Json F) → Option (List (Json F))
  | [] => some []
  | item :: items =>
    match reread item, rereadItems items with
    | some item, some items => some (item :: items)
    | _, _ => none

def rereadMembers : List (PyStr × Json F) → Option (List (PyStr × Json F))
  | [] => some []
  | (key, value) :: members =>
    match reread value, rereadMembers members with
    | some value, some members => some ((key, value) :: members)
    | _, _ => none

end

mutual

/-- The value with the members of every object sorted. -/
def sortKeys : Json F → Json F
  | .arr items => .arr (sortItems items)
  | .obj members => .obj (sortMembers (sortValues members))
  | value => value

def sortItems : List (Json F) → List (Json F)
  | [] => []
  | item :: items => sortKeys item :: sortItems items

def sortValues : List (PyStr × Json F) → List (PyStr × Json F)
  | [] => []
  | (key, value) :: members => (key, sortKeys value) :: sortValues members

end

mutual

/-- No string holds a high surrogate followed by a low one, the integers can be written, and
the keys of each object are distinct. -/
def Plain : Json F → Prop
  | .int n => n.natAbs < intLimit
  | .str s => join s = s
  | .arr items => PlainItems items
  | .obj members => (members.map (·.1)).Nodup ∧ PlainMembers members
  | _ => True

def PlainItems : List (Json F) → Prop
  | [] => True
  | item :: items => Plain item ∧ PlainItems items

def PlainMembers : List (PyStr × Json F) → Prop
  | [] => True
  | (key, value) :: members => join key = key ∧ Plain value ∧ PlainMembers members

end

mutual

def decPlain : (v : Json F) → Decidable (Plain v)
  | .null => isTrue trivial
  | .bool _ => isTrue trivial
  | .int n => inferInstanceAs (Decidable (n.natAbs < intLimit))
  | .float _ => isTrue trivial
  | .str s => inferInstanceAs (Decidable (join s = s))
  | .arr items => decPlainItems items
  | .obj members =>
    have := decPlainMembers members
    inferInstanceAs (Decidable ((members.map (·.1)).Nodup ∧ PlainMembers members))

def decPlainItems : (items : List (Json F)) → Decidable (PlainItems items)
  | [] => isTrue trivial
  | item :: items =>
    have := decPlain item
    have := decPlainItems items
    inferInstanceAs (Decidable (Plain item ∧ PlainItems items))

def decPlainMembers : (members : List (PyStr × Json F)) → Decidable (PlainMembers members)
  | [] => isTrue trivial
  | (key, value) :: members =>
    have := decPlain value
    have := decPlainMembers members
    inferInstanceAs (Decidable (join key = key ∧ Plain value ∧ PlainMembers members))

end

instance (v : Json F) : Decidable (Plain v) := decPlain v

theorem plainItems_iff {items : List (Json F)} : PlainItems items ↔ ∀ v ∈ items, Plain v := by
  induction items with
  | nil => simp [PlainItems]
  | cons item items ih => simp [PlainItems, ih]

variable {members : List (PyStr × Json F)} {v : Json F} {members' : List (PyStr × Json F)}

theorem plainMembers_iff : PlainMembers members ↔ ∀ m ∈ members, join m.1 = m.1 ∧ Plain m.2 := by
  induction members with
  | nil => simp [PlainMembers]
  | cons m members ih => simp [PlainMembers, ih, and_assoc]

theorem sortItems_eq_map (items : List (Json F)) : sortItems items = items.map sortKeys := by
  induction items with
  | nil => rfl
  | cons item items ih => simp [sortItems, ih]

theorem sortValues_eq_map (members : List (PyStr × Json F)) :
    sortValues members = members.map fun m => (m.1, sortKeys m.2) := by
  induction members with
  | nil => rfl
  | cons m members ih => simp [sortValues, ih]

theorem map_fst_sortValues (members : List (PyStr × Json F)) :
    (sortValues members).map (·.1) = members.map (·.1) := by
  rw [sortValues_eq_map, map_map]
  rfl

theorem sortMembers_perm (members : List (PyStr × Json F)) :
    (sortMembers members).Perm members := perm_insertionSort _ _

/-- Distinct keys that are read back as they are build the list of them. -/
theorem foldl_set_of_nodup {ms d : List (PyStr × Json F)}
    (hnodup : ((d ++ ms).map (·.1)).Nodup) (hjoin : ∀ m ∈ ms, join m.1 = m.1) :
    ms.foldl (fun d m => PyDict.set d (join m.1) m.2) d = d ++ ms := by
  have hset : ms.foldl (fun d m => PyDict.set d (join m.1) m.2) d =
      ms.foldl (fun d m => PyDict.set d m.1 m.2) d :=
    List.foldl_ext _ _ _ fun d m hm => by rw [hjoin m hm]
  rw [hset]
  exact PyDict.foldl_set hnodup

mutual

/-- A plain value comes back with its members sorted. -/
theorem reread_plain : (v : Json F) → Plain v → reread v = some (sortKeys v)
  | .null, _ => rfl
  | .bool b, _ => rfl
  | .float x, _ => rfl
  | .int n, h => by
      unfold reread
      exact if_pos h
  | .str s, h => by
      have hjoin : join s = s := h
      unfold reread
      rw [hjoin]
      rfl
  | .arr items, h => by
      unfold reread
      rw [rereadItems_plain items h]
      rfl
  | .obj members, h => by
      unfold reread
      rw [rereadMembers_plain members h.2]
      have hperm := sortMembers_perm (sortValues members)
      have hkeys := map_fst_sortValues members
      show some (Json.obj ((sortMembers (sortValues members)).foldl _ [])) = _
      rw [foldl_set_of_nodup]
      · rfl
      · rw [nil_append]
        exact (hperm.map (·.1)).nodup_iff.mpr (hkeys ▸ h.1)
      · intro m hm
        have hm : m ∈ sortValues members := hperm.mem_iff.mp hm
        rw [sortValues_eq_map] at hm
        obtain ⟨m', hm', rfl⟩ := mem_map.mp hm
        exact (plainMembers_iff.mp h.2 m' hm').1

theorem rereadItems_plain :
    (items : List (Json F)) → PlainItems items → rereadItems items = some (sortItems items)
  | [], _ => rfl
  | item :: items, h => by
      unfold rereadItems
      rw [reread_plain item h.1, rereadItems_plain items h.2]
      rfl

theorem rereadMembers_plain : (members : List (PyStr × Json F)) → PlainMembers members →
    rereadMembers members = some (sortValues members)
  | [], _ => rfl
  | (key, value) :: members, h => by
      unfold rereadMembers
      rw [reread_plain value h.2.1, rereadMembers_plain members h.2.2]
      rfl

end

/-- With distinct keys the order of the members does not matter to a lookup. -/
theorem find?_of_perm (hperm : members.Perm members')
    (hnodup : (members.map (·.1)).Nodup) (key : PyStr) :
    members.find? (fun m => m.1 = key) = members'.find? fun m => m.1 = key := by
  have hnodup' : (members'.map (·.1)).Nodup := (hperm.map (·.1)).nodup_iff.mp hnodup
  cases hfind : members.find? fun m => m.1 = key with
  | none =>
    refine (find?_eq_none.mpr fun m hm => ?_).symm
    exact find?_eq_none.mp hfind m (hperm.mem_iff.mpr hm)
  | some m =>
    have hm := mem_of_find?_eq_some hfind
    have hkey : m.1 = key := by simpa using find?_some hfind
    cases hfind' : members'.find? fun m => m.1 = key with
    | none =>
      have := find?_eq_none.mp hfind' m (hperm.mem_iff.mp hm)
      simp [hkey] at this
    | some m' =>
      have hm' := hperm.mem_iff.mpr (mem_of_find?_eq_some hfind')
      have hkey' : m'.1 = key := by simpa using find?_some hfind'
      rw [inj_on_of_nodup_map hnodup hm hm' (hkey.trans hkey'.symm)]

/-- A lookup in a plain object after it was read back. -/
theorem get?_sortKeys (h : Plain v) (key : String) :
    (sortKeys v).get? key = (v.get? key).map sortKeys := by
  cases v with
  | obj members =>
    have hperm := sortMembers_perm (sortValues members)
    have hkeys := map_fst_sortValues members
    show ((sortMembers (sortValues members)).find? _).map _ = _
    rw [← find?_of_perm hperm.symm (hkeys ▸ h.1), sortValues_eq_map, find?_map]
    have hcomp : ((fun m : PyStr × Json F => decide (m.1 = PyStr.text key)) ∘
        fun m : PyStr × Json F => (m.1, sortKeys m.2)) = fun m => decide (m.1 = PyStr.text key) :=
      rfl
    rw [hcomp]
    show _ = ((members.find? fun m => m.1 = PyStr.text key).map _).map _
    cases members.find? fun m => m.1 = PyStr.text key <;> rfl
  | _ => rfl

theorem eq_of_reread_int {n : ℤ} (h : reread (.int n) = some v) : v = .int n := by
  unfold reread at h
  split at h
  · exact (Option.some.inj h).symm
  · cases h

theorem eq_of_reread_str {s : PyStr} (h : reread (.str s) = some v) : v = .str (join s) := by
  unfold reread at h
  exact (Option.some.inj h).symm

theorem rereadMembers_get? (h : rereadMembers members = some members') :
    members'.map (·.1) = members.map (·.1) ∧
      (∀ m ∈ members, (reread m.2).isSome) ∧
      ∀ key, PyDict.get? members' key = (PyDict.get? members key).bind reread := by
  induction members generalizing members' with
  | nil =>
    obtain rfl := Option.some.inj h
    exact ⟨rfl, fun _ hm => (by cases hm), fun _ => rfl⟩
  | cons m members ih =>
    obtain ⟨key, value⟩ := m
    unfold rereadMembers at h
    cases hvalue : reread value with
    | none => simp [hvalue] at h
    | some value' =>
      cases hrest : rereadMembers members with
      | none => simp [hvalue, hrest] at h
      | some rest =>
        rw [hvalue, hrest] at h
        obtain rfl := Option.some.inj h
        obtain ⟨hkeys, hsome, hget⟩ := ih hrest
        refine ⟨by simp [hkeys], ?_, fun other => ?_⟩
        · exact forall_mem_cons.mpr ⟨by rw [hvalue]; rfl, hsome⟩
        · rw [get?_cons, get?_cons, hget]
          by_cases hother : key = other
          · rw [if_pos hother, if_pos hother]
            exact hvalue.symm
          · rw [if_neg hother, if_neg hother]

/-- **A lookup in an object that was read back**, when its keys are distinct and hold no pairs. -/
theorem get?_reread (hnodup : (members.map (·.1)).Nodup)
    (hjoin : ∀ key ∈ members.map (·.1), join key = key) (h : reread (.obj members) = some v) :
    ∃ members', v = .obj members' ∧ (members'.map (·.1)).Perm (members.map (·.1)) ∧
      (∀ m ∈ members, (reread m.2).isSome) ∧
      ∀ key, PyDict.get? members' key = (PyDict.get? members key).bind reread := by
  unfold reread at h
  obtain ⟨read, hread, rfl⟩ := Option.map_eq_some_iff.mp h
  obtain ⟨hkeys, hsome, hget⟩ := rereadMembers_get? hread
  have hperm := sortMembers_perm read
  have hsorted : ((sortMembers read).map (·.1)).Perm (members.map (·.1)) :=
    hkeys ▸ hperm.map (·.1)
  have hjoin' : ∀ m ∈ sortMembers read, join m.1 = m.1 :=
    fun m hm => hjoin m.1 (hsorted.subset (mem_map_of_mem hm))
  refine ⟨sortMembers read, ?_, hsorted, hsome, fun key => ?_⟩
  · rw [foldl_set_of_nodup (by simpa using hsorted.nodup_iff.mpr hnodup) hjoin']
    rfl
  · rw [← hget]
    exact congrArg (Option.map Prod.snd)
      (find?_of_perm hperm (hsorted.nodup_iff.mpr hnodup) key)

/-- **A member of an object that was read back**, by the text of its key. -/
theorem reread_get (keys : List PyStr) (hkeys : members.map (·.1) = keys) (hnodup : keys.Nodup)
    (hjoin : ∀ key ∈ keys, join key = key) (h : reread (.obj members) = some v) (key : String)
    (value : Json F) (hmem : (text key, value) ∈ members) : reread value = some (v.get key) := by
  subst hkeys
  obtain ⟨members', rfl, -, hsome, hget⟩ := get?_reread hnodup hjoin h
  obtain ⟨value', hvalue⟩ := Option.isSome_iff_exists.mp (hsome _ hmem)
  have hfound : PyDict.get? members' (text key) = some value' := by
    rw [hget, PyDict.get?_eq_some_of_mem hnodup hmem]
    exact hvalue
  rw [hvalue]
  show some value' = some ((PyDict.get? members' (text key)).getD .null)
  rw [hfound]
  rfl

/-! ## Values that are sorted already -/

instance : Std.Total fun a b : PyStr × Json F => PyStr.le a.1 b.1 = true :=
  ⟨fun a b => PyStr.le_total a.1 b.1⟩

instance : IsTrans (PyStr × Json F) fun a b => PyStr.le a.1 b.1 = true :=
  ⟨fun _ _ _ => PyStr.le_trans⟩

/-- The members of a sorted object are not moved again. -/
theorem sortMembers_sortMembers (members : List (PyStr × Json F)) :
    sortMembers (sortMembers members) = sortMembers members :=
  (pairwise_insertionSort _ members).insertionSort_eq

mutual

/-- Sorting the keys a second time changes nothing. -/
theorem sortKeys_sortKeys : (v : Json F) → sortKeys (sortKeys v) = sortKeys v
  | .null => rfl
  | .bool _ => rfl
  | .int _ => rfl
  | .float _ => rfl
  | .str _ => rfl
  | .arr items => congrArg Json.arr (sortItems_sortItems items)
  | .obj members => by
      have hvalues : sortValues (sortMembers (sortValues members)) =
          sortMembers (sortValues members) := by
        rw [sortValues_eq_map, map_congr_left (g := id) fun m hm => ?_, map_id]
        have hm : m ∈ sortValues members := (sortMembers_perm _).mem_iff.mp hm
        exact Prod.ext rfl (sortValues_sortKeys members m hm)
      show Json.obj (sortMembers (sortValues (sortMembers (sortValues members)))) = _
      rw [hvalues, sortMembers_sortMembers]
      rfl

theorem sortItems_sortItems : (items : List (Json F)) →
    sortItems (sortItems items) = sortItems items
  | [] => rfl
  | item :: items => congrArg₂ cons (sortKeys_sortKeys item) (sortItems_sortItems items)

theorem sortValues_sortKeys : (members : List (PyStr × Json F)) →
    ∀ m ∈ sortValues members, sortKeys m.2 = m.2
  | [], _, h => absurd h not_mem_nil
  | (key, value) :: members, m, h => by
      rcases mem_cons.mp h with rfl | h
      · exact sortKeys_sortKeys value
      · exact sortValues_sortKeys members m h

end

mutual

theorem plain_sortKeys : {v : Json F} → v.Plain → (sortKeys v).Plain
  | .null, h => h
  | .bool _, h => h
  | .int _, h => h
  | .float _, h => h
  | .str _, h => h
  | .arr items, h => by
      have hitems : PlainItems (sortItems items) := plainItems_sortItems h
      exact hitems
  | .obj members, h => by
      have hperm := sortMembers_perm (sortValues members)
      have hkeys := map_fst_sortValues members
      refine ⟨(hperm.map (·.1)).nodup_iff.mpr (hkeys ▸ h.1), plainMembers_iff.mpr fun m hm => ?_⟩
      exact plainMembers_iff.mp (plainMembers_sortValues h.2) m (hperm.mem_iff.mp hm)

theorem plainItems_sortItems : {items : List (Json F)} → PlainItems items →
    PlainItems (sortItems items)
  | [], _ => trivial
  | _ :: _, h => ⟨plain_sortKeys h.1, plainItems_sortItems h.2⟩

theorem plainMembers_sortValues : {members : List (PyStr × Json F)} → PlainMembers members →
    PlainMembers (sortValues members)
  | [], _ => trivial
  | (_, _) :: _, h => ⟨h.1, plain_sortKeys h.2.1, plainMembers_sortValues h.2.2⟩

end

/-! ## The text of a digest -/

mutual

/-- The strings of a value, the keys of its objects among them. -/
def strings : Json F → List PyStr
  | .str s => [s]
  | .arr items => stringsOfItems items
  | .obj members => stringsOfMembers members
  | _ => []

def stringsOfItems : List (Json F) → List PyStr
  | [] => []
  | item :: items => strings item ++ stringsOfItems items

def stringsOfMembers : List (PyStr × Json F) → List PyStr
  | [] => []
  | (key, value) :: members => key :: strings value ++ stringsOfMembers members

end

def isSurrogate (c : CodePoint) : Bool := isHigh c || isLow c

/-- `json.dumps(value, sort_keys=True, ensure_ascii=False).encode("utf-8")` of a dictionary, as the
value that it is the text of; `none` when that raises. -/
def encode (v : Json F) : Option (Json F) :=
  if v.Plain ∧ ∀ s ∈ strings v, s.any isSurrogate = false then some (sortKeys v) else none

theorem stringsOfMembers_perm (h : members.Perm members') :
    (stringsOfMembers members).Perm (stringsOfMembers members') := by
  induction h with
  | nil => exact Perm.refl _
  | cons m _ ih => exact ih.append_left (m.1 :: strings m.2)
  | swap m m' members =>
    show ((m'.1 :: strings m'.2) ++ ((m.1 :: strings m.2) ++ _)).Perm
      ((m.1 :: strings m.2) ++ ((m'.1 :: strings m'.2) ++ _))
    rw [← append_assoc, ← append_assoc]
    exact perm_append_comm.append_right _
  | trans _ _ ih ih' => exact ih.trans ih'

mutual

/-- Sorting the keys moves the strings of a value. -/
theorem strings_sortKeys : (v : Json F) → (strings (sortKeys v)).Perm (strings v)
  | .null => Perm.refl _
  | .bool _ => Perm.refl _
  | .int _ => Perm.refl _
  | .float _ => Perm.refl _
  | .str _ => Perm.refl _
  | .arr items => stringsOfItems_sortItems items
  | .obj members =>
    (stringsOfMembers_perm (sortMembers_perm _)).trans (stringsOfMembers_sortValues members)

theorem stringsOfItems_sortItems : (items : List (Json F)) →
    (stringsOfItems (sortItems items)).Perm (stringsOfItems items)
  | [] => Perm.refl _
  | item :: items => (strings_sortKeys item).append (stringsOfItems_sortItems items)

theorem stringsOfMembers_sortValues : (members : List (PyStr × Json F)) →
    (stringsOfMembers (sortValues members)).Perm (stringsOfMembers members)
  | [] => Perm.refl _
  | (key, value) :: members =>
    ((strings_sortKeys value).append (stringsOfMembers_sortValues members)).cons key

end

theorem plain_of_encode {doc : Json F} (h : encode v = some doc) : v.Plain := by
  unfold encode at h
  split at h
  case isTrue hencodable => exact hencodable.1
  case isFalse => cases h

end Json
