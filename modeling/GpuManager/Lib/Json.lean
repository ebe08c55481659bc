import Mathlib.Data.Int.Notation
import Mathlib.Data.List.DropRight
import Mathlib.Data.Nat.Notation

/-!
# JSON values as Python holds them

A Python string is a sequence of code points, among which the surrogates are allowed; it is
therefore not a `String`, whose characters are Unicode scalar values.  A JSON value is what
`json.loads` returns: numbers are integers of any size or floats, and an object is a
dictionary.  Floats are never computed with here and stay a parameter.
-/

abbrev CodePoint := Fin 0x110000

/-- A Python `str`. -/
abbrev PyStr := List CodePoint

instance neZero_codePoints : @NeZero ℕ Zero.ofOfNat0 0x110000 := ⟨by decide⟩
instance neZero_sixteen : @NeZero ℕ Zero.ofOfNat0 16 := ⟨by decide⟩
instance : LawfulBEq CodePoint := inferInstance
instance : LawfulBEq PyStr := inferInstance

namespace PyStr

theorem code_lt (c : Char) : c.toNat % 0x110000 < 0x110000 := Nat.mod_lt _ (by decide)

/-- The string of a literal. -/
def text (s : String) : PyStr := s.toList.map fun c => ⟨c.toNat % 0x110000, code_lt c⟩

/-- The code points that are white space to `str.isspace`. -/
def spaceCode (n : ℕ) : Bool :=
  (0x09 ≤ n && n ≤ 0x0d) || (0x1c ≤ n && n ≤ 0x20) || n = 0x85 || n = 0xa0 || n = 0x1680 ||
    (0x2000 ≤ n && n ≤ 0x200a) || n = 0x2028 || n = 0x2029 || n = 0x202f || n = 0x205f ||
    n = 0x3000

/-- `c.isspace()`. -/
def isSpace (c : CodePoint) : Bool := spaceCode c.val

/-- What is left without the elements at both ends that satisfy `p`. -/
def trim {α : Type} (p : α → Bool) (l : List α) : List α := (l.dropWhile p).rdropWhile p

/-- `s.strip()`. -/
def strip (s : PyStr) : PyStr := trim isSpace s

/-- `not s.strip()`. -/
def blank (s : PyStr) : Bool := s.all isSpace

/-- `repr(s)` of a string without quotes, backslashes and unprintable code points. -/
def quoted (s : PyStr) : PyStr := text "'" ++ s ++ text "'"

/-- `str(n)`. -/
def ofNat (n : ℕ) : PyStr := text (toString n)

/-- An ASCII letter or digit. -/
def isAlphanumeric (c : CodePoint) : Bool :=
  (0x30 ≤ c.val && c.val ≤ 0x39) || (0x41 ≤ c.val && c.val ≤ 0x5a) ||
    (0x61 ≤ c.val && c.val ≤ 0x7a)

/-- A full match of `[A-Za-z0-9][A-Za-z0-9._-]{0,127}`. -/
def isId : PyStr → Bool
  | [] => false
  | c :: rest =>
    isAlphanumeric c && rest.length ≤ 127 &&
      rest.all fun d => isAlphanumeric d || d.val = 0x2e || d.val = 0x5f || d.val = 0x2d

/-- `s.lower()`; `other` is what becomes of a code point beyond ASCII. -/
def lower (other : CodePoint → PyStr) (s : PyStr) : PyStr :=
  s.flatMap fun c =>
    if c.val < 0x80 then [if 0x41 ≤ c.val && c.val ≤ 0x5a then c + 0x20 else c] else other c

/-- `hexdigest`. -/
def hexdigest (digest : List (Fin 16)) : PyStr :=
  digest.map fun d => ⟨(if d.val < 10 then 0x30 + d.val else 0x57 + d.val) % 0x110000,
    Nat.mod_lt _ (by decide)⟩

/-- `a <= b`, by code points. -/
def le : PyStr → PyStr → Bool
  | [], _ => true
  | _ :: _, [] => false
  | a :: as, b :: bs => a < b || (a == b && le as bs)

end PyStr

/-- A JSON value. -/
inductive Json (F : Type) where
  | null
  | bool (b : Bool)
  | int (n : ℤ)
  | float (x : F)
  | str (s : PyStr)
  | arr (items : List (Json F))
  | obj (members : List (PyStr × Json F))

namespace Json

variable {F : Type}

/-- `value.get(key)`, with the absent key told apart from `None`. -/
def get? (value : Json F) (key : String) : Option (Json F) :=
  match value with
  | .obj members => (members.find? fun m => m.1 = PyStr.text key).map (·.2)
  | _ => none

def get (value : Json F) (key : String) : Json F := (value.get? key).getD .null

/-- `isinstance(value, str)`. -/
def str? : Json F → Option PyStr
  | .str s => some s
  | _ => none

/-- `isinstance(value, Mapping)`. -/
def isObj : Json F → Bool
  | .obj _ => true
  | _ => false

/-- `value is None`. -/
def isNull : Json F → Bool
  | .null => true
  | _ => false

/-- `hash(value)` exists: lists and dictionaries are not hashable. -/
def hashable : Json F → Bool
  | .arr _ => false
  | .obj _ => false
  | _ => true

end Json
