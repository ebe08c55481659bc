import Mathlib.Tactic.Common
import GpuManager.Lib.Json

/-!
# Regular expressions

The part of `re` that the patterns of the repository use.  A pattern is read as the places where a
match that begins at a place may end.  `re` tries these in some order, which decides what it
returns and not whether it finds a match, and only the latter is ever asked for.

With `IGNORECASE` a letter of a pattern stands for both its cases, and `i`, `k` and `s` stand for
the letters beyond ASCII that fold to them as well.
-/

/-- A regular expression. -/
inductive Regex where
  | one (p : CodePoint → Bool)
  | empty
  | seq (r r' : Regex)
  | alt (r r' : Regex)
  | star (r : Regex)
  /-- `^` -/
  | start
  /-- `$` -/
  | finish
  /-- `\b`, for the characters of `\w` -/
  | boundary (word : CodePoint → Bool)

namespace Regex

open List

/-! ## Matches -/

/-- The ends of any number of steps, at most as many as given. -/
def steps (step : ℕ → List ℕ) : ℕ → ℕ → List ℕ
  | 0, i => [i]
  | n + 1, i => i :: (step i).flatMap (steps step n)

/-- Whether the character at a place is one of `\w`; beyond the ends there is none. -/
def wordAt (word : CodePoint → Bool) (s : PyStr) (i : ℕ) : Bool := (s[i]?).any word

/-- The places where a match may end that begins at a place. -/
def ends : Regex → PyStr → ℕ → List ℕ
  | one p, s, i => if (s[i]?).any p then [i + 1] else []
  | empty, _, i => [i]
  | seq r r', s, i => (r.ends s i).flatMap (r'.ends s)
  | alt r r', s, i => r.ends s i ++ r'.ends s i
  | star r, s, i => steps (r.ends s) (s.length - i) i
  | start, _, i => if i = 0 then [i] else []
  | finish, s, i =>
    if i = s.length ∨ (i + 1 = s.length ∧ (s[i]?).any fun c => c.val = 0x0a) then [i] else []
  | boundary word, s, i =>
    if (0 < i && wordAt word s (i - 1)) ≠ wordAt word s i then [i] else []

/-- `pattern.match(s)` finds one. -/
def isMatch (r : Regex) (s : PyStr) : Bool := !(r.ends s 0).isEmpty

/-- `pattern.search(s)` finds one. -/
def isFound (r : Regex) (s : PyStr) : Bool :=
  (List.range (s.length + 1)).any fun i => !(r.ends s i).isEmpty

/-! ## Patterns -/

/-- `r+`. -/
def plus (r : Regex) : Regex := .seq r (.star r)

/-- `r?`. -/
def opt (r : Regex) : Regex := .alt r .empty

def seqs : List Regex → Regex
  | [] => .empty
  | [r] => r
  | r :: rs => .seq r (seqs rs)

/-- One of the patterns. -/
def alts : List Regex → Regex
  | [] => .one fun _ => false
  | [r] => r
  | r :: rs => .alt r (alts rs)

/-- A character of a class. -/
def cls (characters : String) : Regex := .one fun c => c ∈ PyStr.text characters

def foldsTo (letter c : CodePoint) : Bool :=
  c = letter ||
  (0x61 ≤ letter.val && letter.val ≤ 0x7a && c.val + 0x20 = letter.val) ||
  (letter.val = 0x69 && (c.val = 0x130 || c.val = 0x131)) ||
  (letter.val = 0x6b && c.val = 0x212a) ||
  (letter.val = 0x73 && c.val = 0x17f)

/-- The characters of a text. -/
def lit (s : String) : Regex := seqs ((PyStr.text s).map fun c => .one (· = c))

/-- The characters of a text in lower case, whatever the case. -/
def litFold (s : String) : Regex := seqs ((PyStr.text s).map fun c => .one (foldsTo c))

def isLower (c : CodePoint) : Bool := 0x61 ≤ c.val && c.val ≤ 0x7a

def isUpper (c : CodePoint) : Bool := 0x41 ≤ c.val && c.val ≤ 0x5a

def isDecimal (c : CodePoint) : Bool := 0x30 ≤ c.val && c.val ≤ 0x39

def isUnderscore (c : CodePoint) : Bool := c.val = 0x5f

def isLetterFold (c : CodePoint) : Bool :=
  isLower c || isUpper c || c.val = 0x130 || c.val = 0x131 || c.val = 0x212a || c.val = 0x17f

/-! ## Words -/

def Spells (r : Regex) (w : PyStr) : Prop :=
  ∀ pre post, pre.length + w.length ∈ r.ends (pre ++ (w ++ post)) pre.length

section Spells

variable {r r' : Regex} {w w' : PyStr} {p : CodePoint → Bool} {c : CodePoint}

theorem spells_one (h : p c = true) : Spells (.one p) [c] := by
  intro pre post
  simp [ends, h]

theorem spells_empty : Spells .empty [] := fun _ _ => mem_singleton.mpr rfl

theorem Spells.seq (h : Spells r w) (h' : Spells r' w') : Spells (.seq r r') (w ++ w') := by
  intro pre post
  refine mem_flatMap.mpr ⟨pre.length + w.length, ?_, ?_⟩
  · simpa using h pre (w' ++ post)
  · simpa [Nat.add_assoc] using h' (pre ++ w) post

theorem Spells.left (h : Spells r w) : Spells (.alt r r') w := fun pre post =>
  mem_append_left _ (h pre post)

theorem Spells.right (h : Spells r' w) : Spells (.alt r r') w := fun pre post =>
  mem_append_right _ (h pre post)

theorem spells_star (h : ∀ c ∈ w, p c = true) : Spells (.star (.one p)) w := by
  intro pre post
  have hsteps : ∀ n, w.length ≤ n →
      pre.length + w.length ∈ steps ((one p).ends (pre ++ (w ++ post))) n pre.length := by
    induction w generalizing pre with
    | nil => intro n _; cases n <;> exact mem_cons_self
    | cons c w ih =>
      rw [forall_mem_cons] at h
      intro n hn
      obtain ⟨n, rfl⟩ : ∃ m, n = m + 1 := ⟨n - 1, by simp at hn; omega⟩
      refine mem_cons_of_mem _ (mem_flatMap.mpr ⟨pre.length + 1, ?_, ?_⟩)
      · simp [ends, h.1]
      · have hrest := ih h.2 (pre ++ [c]) n (by simpa using hn)
        simpa [Nat.add_assoc, Nat.add_comm, Nat.add_left_comm] using hrest
  exact hsteps _ (by simp)

theorem spells_plus (h : ∀ d ∈ c :: w, p d = true) :
    Spells (plus (.one p)) (c :: w) := by
  rw [forall_mem_cons] at h
  exact (spells_one h.1).seq (spells_star h.2)

/-- `^r$` matches the word. -/
theorem Spells.isMatch (h : Spells r w) : isMatch (.seqs [.start, r, .finish]) w = true := by
  have hends : w.length ∈ (seqs [.start, r, .finish]).ends w 0 := by
    have hword := h [] []
    rw [append_nil, nil_append, length_nil, Nat.zero_add] at hword
    refine mem_flatMap.mpr ⟨0, mem_singleton.mpr rfl, mem_flatMap.mpr
      ⟨w.length, hword, ?_⟩⟩
    change w.length ∈ if w.length = w.length ∨ _ then [w.length] else []
    rw [if_pos (Or.inl rfl)]
    exact mem_singleton.mpr rfl
  unfold Regex.isMatch
  rw [isEmpty_eq_false_iff.mpr (ne_nil_of_mem hends)]
  rfl

end Spells

end Regex
