import Mathlib.Data.List.TakeWhile
import Mathlib.Data.String.Basic
import Std.Data.String.ToInt
import GpuManager.Lib.Json

/-!
# Python text

The few operations of Python's `str` that identifiers go through before they reach a
store: `strip` removes white space at both ends, a slice keeps a number of leading
characters, the empty string is falsy, a text is cut after its start or at the first
occurrence of a character, and `int` reads a decimal number.

White space is what `str.isspace` says of a single character, which includes the
separators outside ASCII.
-/

namespace PythonText

open List

/-- `c.isspace()`. -/
def isSpace (c : Char) : Bool := PyStr.spaceCode c.toNat

/-- `s.strip()`. -/
def strip (s : String) : String := String.ofList (PyStr.trim isSpace s.toList)

/-- `s[:n]`. -/
def slice (n : ℕ) (s : String) : String := String.ofList (s.toList.take n)

/-- `c.lower()`, up to the characters beyond ASCII in it: the Kelvin sign and the dotted capital I
are the only ones beyond ASCII whose lower case has a letter of ASCII. -/
def lowerChar (c : Char) : List Char :=
  if c.toNat = 0x212a then ['k']
  else if c.toNat = 0x130 then ['i', Char.ofNat 0x307]
  else [c.toLower]

/-- `s.lower()`, as far as a comparison with text of ASCII can tell. -/
def lower (s : String) : String := String.ofList (s.toList.flatMap lowerChar)

def nonempty (s : Option String) : Option String := s.filter (· ≠ "")

def afterLastChars (sep : List Char) : List Char → Option (List Char)
  | [] => none
  | c :: cs =>
    match afterLastChars sep cs with
    | some rest => some rest
    | none => if sep.isPrefixOf (c :: cs) then some ((c :: cs).drop sep.length) else none

def afterLast (sep s : String) : Option String :=
  (afterLastChars sep.toList s.toList).map String.ofList

def after (start s : String) : Option String :=
  if start.toList.isPrefixOf s.toList then some (String.ofList (s.toList.drop start.toList.length))
  else none

/-- `s.split(c, 1)`, where `c in s`. -/
def splitOnce (c : Char) (s : String) : Option (String × String) :=
  match s.toList.dropWhile (· ≠ c) with
  | [] => none
  | _ :: rest => some (String.ofList (s.toList.takeWhile (· ≠ c)), String.ofList rest)

/-- `s.split()`. -/
def split (s : String) : List String :=
  ((s.toList.splitOnP isSpace).filter fun word => !word.isEmpty).map String.ofList

/-- `repr(s)` of a text without quotes and control characters. -/
def quoted (s : String) : String := "'" ++ s ++ "'"

/-- `int(s)` of a decimal text with an optional sign; anything else is a `ValueError`. -/
def int (s : String) : Option ℤ :=
  match (strip s).toList with
  | '+' :: digits => (String.ofList digits).toNat?.map Int.ofNat
  | _ => (strip s).toInt?

/-- What is left after trimming on the left and then on the right starts with no white
space. -/
theorem dropWhile_rdropWhile (p : Char → Bool) (l : List Char) :
    ((l.dropWhile p).rdropWhile p).dropWhile p = (l.dropWhile p).rdropWhile p := by
  obtain ⟨rest, hrest⟩ := rdropWhile_prefix p (l.dropWhile p)
  cases hstripped : (l.dropWhile p).rdropWhile p with
  | nil => rfl
  | cons first others =>
    rw [hstripped] at hrest
    have hne : l.dropWhile p ≠ [] := by
      rw [← hrest]
      simp
    have hfirst : (l.dropWhile p).head hne = first := by simp only [← hrest]; rfl
    have hnot := head_dropWhile_not p hne
    rw [hfirst] at hnot
    rw [dropWhile_cons_of_neg (by simp [hnot])]

@[simp] theorem strip_strip (s : String) : strip (strip s) = strip s := by
  unfold strip PyStr.trim
  rw [String.toList_ofList, dropWhile_rdropWhile, rdropWhile_idempotent]

/-- Words that are written on one line, with blanks between them, are split. -/
theorem split_line {words : List String}
    (h : ∀ w ∈ words, w.toList ≠ [] ∧ ∀ c ∈ w.toList, isSpace c = false) :
    split (String.ofList (List.intercalate [' '] (words.map String.toList) ++ ['\n'])) = words := by
  unfold split
  rw [String.toList_ofList]
  induction words with
  | nil => decide
  | cons w words ih =>
    rw [forall_mem_cons] at h
    have hword : (fun word : List Char => !word.isEmpty) w.toList = true := by simp [h.1.1]
    cases words with
    | nil =>
      rw [map_cons, map_nil, intercalate_singleton,
        splitOnP_append_cons_of_forall_mem h.1.2 '\n' rfl, splitOnP_nil,
        filter_cons_of_pos (p := fun word : List Char => !word.isEmpty) hword]
      simp
    | cons w' words =>
      have ih := ih h.2
      rw [map_cons, map_cons, intercalate_cons_cons, append_assoc,
        append_assoc, singleton_append,
        splitOnP_append_cons_of_forall_mem h.1.2 ' ' rfl, ← map_cons,
        filter_cons_of_pos (p := fun word : List Char => !word.isEmpty) hword,
        map_cons, ih, String.ofList_toList]

theorem isSpace_of_isDigit {c : Char} (h : c.isDigit = true) : isSpace c = false := by
  have hcode : 48 ≤ c.toNat ∧ c.toNat ≤ 57 := by
    simp only [Char.isDigit, Bool.and_eq_true, decide_eq_true_eq, ge_iff_le] at h
    exact h
  simp only [isSpace, PyStr.spaceCode, Bool.or_eq_false_iff, Bool.and_eq_false_iff,
    decide_eq_false_iff_not]
  omega

theorem strip_of_not_space {s : String} (h : ∀ c ∈ s.toList, isSpace c = false) : strip s = s := by
  have hleft : s.toList.dropWhile isSpace = s.toList :=
    dropWhile_eq_self_iff.mpr fun hl => by simp [h _ (getElem_mem hl)]
  have hright : s.toList.rdropWhile isSpace = s.toList :=
    rdropWhile_eq_self_iff.mpr fun hl => by simp [h _ (getLast_mem hl)]
  unfold strip PyStr.trim
  rw [hleft, hright, String.ofList_toList]

theorem int_toString (n : ℕ) : int (toString n) = some (n : ℤ) := by
  have hdigit : ∀ c ∈ (toString n).toList, c.isDigit = true := by
    intro c hc
    have hmem : c ∈ Nat.toDigits 10 n := by simpa [Nat.toDigits] using hc
    exact Nat.isDigit_of_mem_toDigits (by decide) (by decide) hmem
  have hstrip : strip (toString n) = toString n :=
    strip_of_not_space fun c hc => isSpace_of_isDigit (hdigit c hc)
  unfold int
  rw [hstrip]
  split
  next digits hplus =>
    have hsign := hdigit '+' (by rw [hplus]; exact mem_cons_self)
    cases hsign
  · have hint : (toString (n : ℤ)).toInt? = some (n : ℤ) := by simp
    exact hint

end PythonText
