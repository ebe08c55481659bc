import GpuManager.Lib.JsonFile

/-!
# JSON as text

`json.dumps(value, separators=(",", ":"), ensure_ascii=False)` and `json.loads`, on code points.
The reader follows the scanner of the standard library: it accepts `NaN` and the infinities,
refuses control characters inside strings, joins an escaped pair of surrogates, keeps the last
of several values of one key, and lets `int` refuse more than 4300 digits.  Floats are a
parameter, with their texts; the depth of a document is not bounded.

* `number`, `scanString`, `value`: the scanner, on a fuel of two for each character.
* `loads`: `json.loads`.
* `dumps`: `json.dumps`, which raises for an integer of more than 4300 digits.
-/

namespace Json

open PyStr

/-- The floats and their texts. -/
structure Floats (F : Type) where
  /-- `float.__repr__(x)`, or `NaN`, `Infinity`, `-Infinity`. -/
  text : F → PyStr
  /-- `float(text)`. -/
  ofText : PyStr → F
  nan : F
  infinity : F
  negInfinity : F

/-- Why `json.loads` raises: a `JSONDecodeError`, or the `ValueError` of too long an integer. -/
inductive LoadsError where
  | decode
  | tooManyDigits
  deriving DecidableEq

variable {F : Type}

/-! ## Characters and numbers -/

/-- The code point of a character. -/
def code (c : Char) : CodePoint := ⟨c.toNat % 0x110000, PyStr.code_lt c⟩

def isDigit (c : CodePoint) : Bool := 0x30 ≤ c.val && c.val ≤ 0x39

def natText (n : ℕ) : PyStr := (Nat.toDigits 10 n).map code

/-- `int.__repr__(n)`. -/
def intText (n : ℤ) : PyStr := (if n < 0 then [code '-'] else []) ++ natText n.natAbs

/-- The value of decimal digits. -/
def natOfDigits (digits : PyStr) : ℕ := digits.foldl (fun n c => 10 * n + (c.val - 0x30)) 0

/-- `int(text)` of an optional sign and decimal digits. -/
def intOfText (negative : Bool) (digits : PyStr) : Except LoadsError ℤ :=
  if 4300 < digits.length then .error .tooManyDigits
  else .ok (if negative then -(natOfDigits digits : ℤ) else natOfDigits digits)

def fraction : PyStr → PyStr × PyStr
  | c :: d :: rest =>
    if c = code '.' ∧ isDigit d then
      (c :: d :: rest.takeWhile isDigit, rest.dropWhile isDigit)
    else ([], c :: d :: rest)
  | s => ([], s)

/-- `e`, an optional sign and digits, if that is what follows. -/
def exponent : PyStr → PyStr × PyStr
  | c :: d :: rest =>
    if c = code 'e' ∨ c = code 'E' then
      if isDigit d then (c :: d :: rest.takeWhile isDigit, rest.dropWhile isDigit)
      else if d = code '+' ∨ d = code '-' then
        match rest with
        | e :: rest' =>
          if isDigit e then
            (c :: d :: e :: rest'.takeWhile isDigit, rest'.dropWhile isDigit)
          else ([], c :: d :: rest)
        | [] => ([], c :: d :: rest)
      else ([], c :: d :: rest)
    else ([], c :: d :: rest)
  | s => ([], s)

def numberEnd (floats : Floats F) (negative : Bool) (digits s : PyStr) :
    Except LoadsError (Json F × PyStr) :=
  let (frac, s) := fraction s
  let (exp, s) := exponent s
  if frac = [] ∧ exp = [] then
    match intOfText negative digits with
    | .ok n => .ok (.int n, s)
    | .error e => .error e
  else
    .ok (.float (floats.ofText ((if negative then [code '-'] else []) ++ digits ++ frac ++ exp)), s)

def unsigned (floats : Floats F) (negative : Bool) : PyStr → Except LoadsError (Json F × PyStr)
  | [] => .error .decode
  | c :: rest =>
    if c = code '0' then numberEnd floats negative [c] rest
    else if isDigit c then
      numberEnd floats negative (c :: rest.takeWhile isDigit) (rest.dropWhile isDigit)
    else .error .decode

/-- `_match_number`. -/
def number (floats : Floats F) : PyStr → Except LoadsError (Json F × PyStr)
  | [] => .error .decode
  | c :: rest => if c = code '-' then unsigned floats true rest else unsigned floats false (c :: rest)

/-! ## Strings -/

def hexDigit (n : ℕ) : CodePoint :=
  ⟨(if n < 10 then 0x30 + n else 0x57 + n) % 0x110000, Nat.mod_lt _ (by decide)⟩

/-- `ESCAPE_DCT`, and `\u00xx` for the other control characters. -/
def escape (c : CodePoint) : PyStr :=
  if c = code '"' then [code '\\', code '"']
  else if c = code '\\' then [code '\\', code '\\']
  else if c = code '\n' then [code '\\', code 'n']
  else if c = code '\r' then [code '\\', code 'r']
  else if c = code '\t' then [code '\\', code 't']
  else if c.val = 0x0c then [code '\\', code 'f']
  else if c.val = 0x08 then [code '\\', code 'b']
  else if c.val < 0x20 then
    [code '\\', code 'u', code '0', code '0', hexDigit (c.val / 16), hexDigit (c.val % 16)]
  else [c]

/-- The text of a string. -/
def quote (s : PyStr) : PyStr := code '"' :: s.flatMap escape ++ [code '"']

def hexValue (c : CodePoint) : Option ℕ :=
  if 0x30 ≤ c.val ∧ c.val ≤ 0x39 then some (c.val - 0x30)
  else if 0x61 ≤ c.val ∧ c.val ≤ 0x66 then some (c.val - 0x57)
  else if 0x41 ≤ c.val ∧ c.val ≤ 0x46 then some (c.val - 0x37)
  else none

/-- Four hexadecimal digits. -/
def hex4 (a b c d : CodePoint) : Option CodePoint :=
  match hexValue a, hexValue b, hexValue c, hexValue d with
  | some a, some b, some c, some d =>
    some ⟨(((a * 16 + b) * 16 + c) * 16 + d) % 0x110000, Nat.mod_lt _ (by decide)⟩
  | _, _, _, _ => none

/-- `BACKSLASH`. -/
def unescape (c : CodePoint) : Option CodePoint :=
  if c = code '"' ∨ c = code '\\' ∨ c = code '/' then some c
  else if c = code 'n' then some (code '\n')
  else if c = code 'r' then some (code '\r')
  else if c = code 't' then some (code '\t')
  else if c = code 'f' then some ⟨0x0c, by decide⟩
  else if c = code 'b' then some ⟨0x08, by decide⟩
  else none

/-- The characters up to the closing quote, each with whether it was written as `\uxxxx`; `none`
is a `JSONDecodeError`. -/
def scanString : PyStr → Option (List (CodePoint × Bool) × PyStr)
  | [] => none
  | c :: rest =>
    if c = code '"' then some ([], rest)
    else if c = code '\\' then
      match rest with
      | [] => none
      | e :: rest =>
        if e = code 'u' then
          match rest with
          | h1 :: h2 :: h3 :: h4 :: rest =>
            match hex4 h1 h2 h3 h4 with
            | some d => (scanString rest).map fun r => ((d, true) :: r.1, r.2)
            | none => none
          | _ => none
        else
          match unescape e with
          | some d => (scanString rest).map fun r => ((d, false) :: r.1, r.2)
          | none => none
    else if c.val < 0x20 then none
    else (scanString rest).map fun r => ((c, false) :: r.1, r.2)

def joinEscaped : List (CodePoint × Bool) → PyStr
  | [] => []
  | [c] => [c.1]
  | c :: d :: rest =>
    if c.2 && d.2 && isHigh c.1 && isLow d.1 then pair c.1 d.1 :: joinEscaped rest
    else c.1 :: joinEscaped (d :: rest)

def scanstring (s : PyStr) : Except LoadsError (PyStr × PyStr) :=
  match scanString s with
  | some (chars, rest) => .ok (joinEscaped chars, rest)
  | none => .error .decode

/-! ## Values -/

def isWhitespace (c : CodePoint) : Bool :=
  c = code ' ' || c = code '\t' || c = code '\n' || c = code '\r'

def skip (s : PyStr) : PyStr := s.dropWhile isWhitespace

/-- `s` without the prefix `word`. -/
def strip? (word s : PyStr) : Option PyStr :=
  if word.isPrefixOf s then some (s.drop word.length) else none

/-- The constants of the scanner. -/
def constants (floats : Floats F) : List (PyStr × Json F) :=
  [(text "null", .null), (text "true", .bool true), (text "false", .bool false),
    (text "NaN", .float floats.nan), (text "Infinity", .float floats.infinity),
    (text "-Infinity", .float floats.negInfinity)]

/-- A constant or a number. -/
def scalar (floats : Floats F) (s : PyStr) : Except LoadsError (Json F × PyStr) :=
  match (constants floats).findSome? fun c => (strip? c.1 s).map fun rest => (c.2, rest) with
  | some r => .ok r
  | none => number floats s

mutual

/-- `scan_once`. -/
def value (floats : Floats F) : ℕ → PyStr → Except LoadsError (Json F × PyStr)
  | 0, _ => .error .decode
  | n + 1, s =>
    match s with
    | [] => .error .decode
    | c :: rest =>
      if c = code '"' then
        match scanstring rest with
        | .ok (text, rest) => .ok (.str text, rest)
        | .error e => .error e
      else if c = code '[' then
        if (skip rest).head? = some (code ']') then .ok (.arr [], (skip rest).tail)
        else
          match items floats n (skip rest) with
          | .ok (values, rest) => .ok (.arr values, rest)
          | .error e => .error e
      else if c = code '{' then
        if (skip rest).head? = some (code '}') then .ok (.obj [], (skip rest).tail)
        else
          match members floats n (skip rest) with
          | .ok (pairs, rest) =>
            .ok (.obj (pairs.foldl (fun d m => PyDict.set d m.1 m.2) []), rest)
          | .error e => .error e
      else scalar floats (c :: rest)

def items (floats : Floats F) : ℕ → PyStr → Except LoadsError (List (Json F) × PyStr)
  | 0, _ => .error .decode
  | n + 1, s =>
    match value floats n s with
    | .error e => .error e
    | .ok (v, rest) =>
      match skip rest with
      | [] => .error .decode
      | c :: rest =>
        if c = code ']' then .ok ([v], rest)
        else if c = code ',' then
          match items floats n (skip rest) with
          | .ok (values, rest) => .ok (v :: values, rest)
          | .error e => .error e
        else .error .decode

def members (floats : Floats F) : ℕ → PyStr → Except LoadsError (List (PyStr × Json F) × PyStr)
  | 0, _ => .error .decode
  | n + 1, s =>
    match s with
    | [] => .error .decode
    | q :: rest =>
      if q = code '"' then
        match scanstring rest with
        | .error e => .error e
        | .ok (key, rest) =>
          match skip rest with
          | [] => .error .decode
          | colon :: rest =>
            if colon = code ':' then
              match value floats n (skip rest) with
              | .error e => .error e
              | .ok (v, rest) =>
                match skip rest with
                | [] => .error .decode
                | c :: rest =>
                  if c = code '}' then .ok ([(key, v)], rest)
                  else if c = code ',' then
                    match members floats n (skip rest) with
                    | .ok (pairs, rest) => .ok ((key, v) :: pairs, rest)
                    | .error e => .error e
                  else .error .decode
            else .error .decode
      else .error .decode

end

/-- `json.loads(text)`. -/
def loads (floats : Floats F) (s : PyStr) : Except LoadsError (Json F) :=
  if s.head? = some (⟨0xFEFF, by decide⟩ : CodePoint) then .error .decode
  else
    match value floats (2 * s.length + 2) (skip s) with
    | .ok (v, rest) => if skip rest = [] then .ok v else .error .decode
    | .error e => .error e

mutual

/-- `json.dumps(value, separators=(",", ":"), ensure_ascii=False)`; `none` when it raises. -/
def dumps (floats : Floats F) : Json F → Option PyStr
  | .null => some (text "null")
  | .bool b => some (if b then text "true" else text "false")
  | .int n => if n.natAbs < intLimit then some (intText n) else none
  | .float x => some (floats.text x)
  | .str s => some (quote s)
  | .arr values => (dumpsItems floats values).map fun t => code '[' :: t ++ [code ']']
  | .obj pairs => (dumpsMembers floats pairs).map fun t => code '{' :: t ++ [code '}']

def dumpsItems (floats : Floats F) : List (Json F) → Option PyStr
  | [] => some []
  | [v] => dumps floats v
  | v :: w :: values =>
    match dumps floats v, dumpsItems floats (w :: values) with
    | some t, some t' => some (t ++ code ',' :: t')
    | _, _ => none

def dumpsMembers (floats : Floats F) : List (PyStr × Json F) → Option PyStr
  | [] => some []
  | [(key, v)] => (dumps floats v).map fun t => quote key ++ code ':' :: t
  | (key, v) :: m :: pairs =>
    match dumps floats v, dumpsMembers floats (m :: pairs) with
    | some t, some t' => some (quote key ++ code ':' :: t ++ code ',' :: t')
    | _, _ => none

end

end Json
