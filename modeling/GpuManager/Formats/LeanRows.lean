import GpuManager.Broker.StreamReader
import GpuManager.Lib.JsonRoundTrip
import GpuManager.Lib.Regex

/-!
# Rows of the LEAN format

A row of a table is written cell by cell, with tabs between.  A string that could be taken for
something else stands in quotes: a quote in it is doubled, a backslash and a newline are escaped.
`_split_tab_cells` looks for tabs outside the quotes, and `_parse_cell_value` guesses what a cell
is.  It guesses right on what `_cell_encode` writes (`parseTabRow_cellEncode`).

How Python prints and reads numbers is a parameter, and that it reads what it prints is
`Numbers.Exact`.
-/

namespace GpuManager.Formats

open PyStr Json List

variable {F : Type}

/-! ## Cells -/

/-- Numbers and their texts. -/
structure Numbers (F : Type) where
  /-- `\d` -/
  digit : CodePoint → Bool
  /-- `math.isfinite(x)` -/
  finite : F → Bool
  /-- `str(x)` -/
  str : F → PyStr
  /-- `float(text)` -/
  ofText : PyStr → F
  /-- `int(text)` -/
  int : PyStr → ℤ

variable (py : Numbers F) {s t : PyStr}

/-- `NUMBER_REGEX`. -/
def numberRegex : Regex :=
  .seqs [.start, .seqs [.opt (.cls "-"),
    .alt (.seqs [.plus (.one py.digit), .opt (.cls "."), .star (.one py.digit)])
      (.seq (.cls ".") (.plus (.one py.digit))),
    .opt (.seqs [.cls "eE", .opt (.cls "+-"), .plus (.one py.digit)])], .finish]

/-- `_needs_quoting`. -/
def needsQuoting (value : PyStr) : Bool :=
  value = [] || value ∈ [text "T", text "F", text "_"] || value.strip ≠ value ||
    (numberRegex py).isMatch value || ['\t', '\n', '\\', '"'].any fun c => code c ∈ value

/-- `value.replace(c, new)`. -/
def replaceChar (c : Char) (new : String) (value : PyStr) : PyStr :=
  value.flatMap fun d => if d = code c then text new else [d]

/-- `_escape_cell`. -/
def escapeCell (value : PyStr) : PyStr :=
  replaceChar '"' "\"\"" (replaceChar '\n' "\\n" (replaceChar '\\' "\\\\" value))

/-- `_cell_encode`; the error is the text of the `ValueError`. -/
def cellEncode : Json F → Except PyStr PyStr
  | .null => .ok (text "_")
  | .bool b => .ok (text (if b then "T" else "F"))
  | .int n => .ok (intText n)
  | .float x =>
    if py.finite x then .ok (py.str x)
    else
      .error (text "Unsupported number: " ++ py.str x ++
        text ". NaN and Infinity not representable.")
  | .str value =>
    .ok (if needsQuoting py value then code '"' :: escapeCell value ++ [code '"'] else value)
  | _ => .error (text "Not a scalar cell value")

/-- `_unescape_cell`. -/
def unescapeCell : PyStr → PyStr
  | [] => []
  | [ch] => [ch]
  | ch :: next :: rest =>
    if ch = code '"' ∧ next = code '"' then code '"' :: unescapeCell rest
    else if ch = code '\\' ∧ next = code 'n' then code '\n' :: unescapeCell rest
    else if ch = code '\\' ∧ next = code '\\' then code '\\' :: unescapeCell rest
    else ch :: unescapeCell (next :: rest)

/-- `_parse_number`. -/
def parseNumber (s : PyStr) : Json F :=
  if s = [] then .str s
  else if code '.' ∈ s ∨ code 'e' ∈ s ∨ code 'E' ∈ s then .float (py.ofText s)
  else .int (py.int s)

def parseStripped (s : PyStr) : Json F :=
  if 2 ≤ s.length ∧ s.head? = some (code '"') ∧ s.getLast? = some (code '"') then
    .str (unescapeCell (s.drop 1).dropLast)
  else if s = text "T" then .bool true
  else if s = text "F" then .bool false
  else if s = text "_" then .null
  else if s = [] then .str []
  else if (numberRegex py).isMatch s then parseNumber py s
  else .str s

/-- `_parse_cell_value`. -/
def parseCellValue (s : PyStr) : Json F := parseStripped py s.strip

/-! ## Rows -/

/-- `LeanParseError`. -/
structure LeanParseError where
  line : ℕ
  content : PyStr
  message : PyStr

/-- The loop of `_split_tab_cells`: the cells, and whether the last one is in quotes. -/
def splitFrom : Bool → PyStr → PyStr → List PyStr × Bool
  | inQuotes, current, [] => ([current], inQuotes)
  | true, current, [ch] => ([current ++ [ch]], ch ≠ code '"')
  | true, current, ch :: next :: rest =>
    if ch = code '"' then
      if next = code '"' then splitFrom true (current ++ [ch, next]) rest
      else splitFrom false (current ++ [ch]) (next :: rest)
    else splitFrom true (current ++ [ch]) (next :: rest)
  | false, current, ch :: rest =>
    if ch = code '"' then splitFrom true (current ++ [ch]) rest
    else if ch = code '\t' then
      (current :: (splitFrom false [] rest).1, (splitFrom false [] rest).2)
    else splitFrom false (current ++ [ch]) rest

/-- `_split_tab_cells`. -/
def splitTabCells (line : PyStr) : Except LeanParseError (List PyStr) :=
  match splitFrom false [] line with
  | (cells, false) => .ok cells
  | (_, true) => .error ⟨0, line, text "Unterminated quote in row: \"" ++ line ++ text "\""⟩

/-- `_parse_tab_row`. -/
def parseTabRow (line : PyStr) : Except LeanParseError (List (Json F)) :=
  (splitTabCells line).map fun cells => cells.map (parseCellValue py)

/-- `"\t".join(texts)`. -/
def tabJoin (texts : List PyStr) : PyStr := List.intercalate [code '\t'] texts

/-! ## Numbers -/

structure Numbers.Exact (py : Numbers F) : Prop where
  digit : ∀ c, isDigit c = true → py.digit c = true
  int : ∀ n, py.int (intText n) = n
  finite : ∀ x, py.finite x = true → FiniteText (py.str x) ∧ py.ofText (py.str x) = x

def NumberText (t : PyStr) : Prop :=
  ∃ (negative : Bool) (digits frac exp : PyStr), digits ≠ [] ∧
    (∀ c ∈ digits, isDigit c = true) ∧ FractionPart frac ∧ ExponentPart exp ∧
    t = (if negative then [code '-'] else []) ++ digits ++ frac ++ exp

theorem numberText_intText (n : ℤ) : NumberText (intText n) :=
  ⟨n < 0, natText n.natAbs, [], [], by simp [natText, Nat.toDigits_ne_nil],
    fun _ hc => isDigit_natText hc, Or.inl rfl, Or.inl rfl, by simp [intText]⟩

theorem numberText_finiteText (h : FiniteText t) : NumberText t := by
  obtain ⟨negative, digits, frac, exp, hdigits, hfrac, hexp, -, rfl⟩ := h
  refine ⟨negative, digits, frac, exp, ?_, ?_, hfrac, hexp, rfl⟩
  · obtain ⟨c, ds, rfl, -⟩ := hdigits.head
    exact cons_ne_nil c ds
  · rcases hdigits with rfl | ⟨c, ds, rfl, -, hds⟩
    · exact forall_mem_singleton.mpr rfl
    · exact hds

variable {py} {c : CodePoint} {v : Json F}

/-- `NUMBER_REGEX` accepts what Python prints. -/
theorem NumberText.isMatch (hdigit : ∀ c, isDigit c = true → py.digit c = true)
    (h : NumberText t) : (numberRegex py).isMatch t = true := by
  obtain ⟨negative, digits, frac, exp, hne, hdigits, hfrac, hexp, rfl⟩ := h
  have hsign : (Regex.opt (.cls "-")).Spells (if negative then [code '-'] else []) := by
    cases negative with
    | false => exact Regex.spells_empty.right
    | true => exact (Regex.spells_one rfl).left
  have hplus : (Regex.plus (.one py.digit)).Spells digits := by
    obtain ⟨c, ds, rfl⟩ := exists_cons_of_ne_nil hne
    exact Regex.spells_plus fun d hd => hdigit d (hdigits d hd)
  have hinteger : (Regex.seqs [.plus (.one py.digit), .opt (.cls "."),
      .star (.one py.digit)]).Spells (digits ++ frac) := by
    rcases hfrac with rfl | ⟨d, ds, rfl, hds⟩
    · exact hplus.seq (Regex.spells_empty.right.seq (Regex.spells_star nofun))
    · exact hplus.seq ((Regex.spells_one rfl).left.seq
        (Regex.spells_star fun c hc => hdigit c (hds c hc)))
  have hexponent : (Regex.opt (.seqs [.cls "eE", .opt (.cls "+-"),
      .plus (.one py.digit)])).Spells exp := by
    rcases hexp with rfl | ⟨sign, d, ds, rfl, hsign, hds⟩
    · exact Regex.spells_empty.right
    · have hmark : (Regex.opt (.cls "+-")).Spells [sign] := by
        rcases hsign with rfl | rfl <;> exact (Regex.spells_one rfl).left
      exact ((Regex.spells_one rfl).seq
        (hmark.seq (Regex.spells_plus fun c hc => hdigit c (hds c hc)))).left
  rw [append_assoc _ digits, append_assoc]
  exact (hsign.seq (hinteger.left.seq hexponent)).isMatch

def numeric (c : CodePoint) : Bool := 0x2b ≤ c.val && c.val ≤ 0x39 || c.val = 0x65

theorem numeric_of_isDigit (h : isDigit c = true) : numeric c = true := by
  simp only [isDigit, Bool.and_eq_true, decide_eq_true_eq] at h
  simp only [numeric, Bool.or_eq_true, Bool.and_eq_true, decide_eq_true_eq]
  omega

theorem NumberText.numeric (h : NumberText t) :
    ∀ c ∈ t, Formats.numeric c = true := by
  obtain ⟨negative, digits, frac, exp, -, hdigits, hfrac, hexp, rfl⟩ := h
  simp only [forall_mem_append]
  refine ⟨⟨⟨?_, fun c hc => numeric_of_isDigit (hdigits c hc)⟩, ?_⟩, ?_⟩
  · cases negative with
    | false => exact forall_mem_nil _
    | true => exact forall_mem_singleton.mpr rfl
  · rcases hfrac with rfl | ⟨d, ds, rfl, hds⟩
    · exact forall_mem_nil _
    · exact forall_mem_cons.mpr ⟨rfl, fun c hc => numeric_of_isDigit (hds c hc)⟩
  · rcases hexp with rfl | ⟨sign, d, ds, rfl, hsign, hds⟩
    · exact forall_mem_nil _
    · refine forall_mem_cons.mpr ⟨rfl, forall_mem_cons.mpr
        ⟨?_, fun c hc => numeric_of_isDigit (hds c hc)⟩⟩
      rcases hsign with rfl | rfl <;> rfl

/-! ## Strings -/

theorem escapeCell_cons (c : CodePoint) (s : PyStr) :
    escapeCell (c :: s) = escapeCell [c] ++ escapeCell s := by
  simp [escapeCell, replaceChar]

/-- What becomes of one character. -/
theorem escapeCell_single (c : CodePoint) :
    c = code '"' ∧ escapeCell [c] = [code '"', code '"'] ∨
      c = code '\\' ∧ escapeCell [c] = [code '\\', code '\\'] ∨
      c = code '\n' ∧ escapeCell [c] = [code '\\', code 'n'] ∨
      c ≠ code '"' ∧ c ≠ code '\\' ∧ c ≠ code '\n' ∧ escapeCell [c] = [c] := by
  by_cases hquote : c = code '"'
  · exact Or.inl ⟨hquote, by rw [hquote]; rfl⟩
  by_cases hslash : c = code '\\'
  · exact Or.inr (Or.inl ⟨hslash, by rw [hslash]; rfl⟩)
  by_cases hnewline : c = code '\n'
  · exact Or.inr (Or.inr (Or.inl ⟨hnewline, by rw [hnewline]; rfl⟩))
  · refine Or.inr (Or.inr (Or.inr ⟨hquote, hslash, hnewline, ?_⟩))
    simp [escapeCell, replaceChar, hquote, hslash, hnewline]

theorem unescapeCell_plain (hquote : c ≠ code '"') (hslash : c ≠ code '\\')
    (s : PyStr) : unescapeCell (c :: s) = c :: unescapeCell s := by
  cases s with
  | nil => rfl
  | cons next s => simp [unescapeCell, hquote, hslash]

theorem unescapeCell_escapeCell (s : PyStr) : unescapeCell (escapeCell s) = s := by
  induction s with
  | nil => rfl
  | cons c s ih =>
    rw [escapeCell_cons]
    rcases escapeCell_single c with ⟨rfl, h⟩ | ⟨rfl, h⟩ | ⟨rfl, h⟩ | ⟨hquote, hslash, -, h⟩
    · rw [h, cons_append, singleton_append, unescapeCell, if_pos ⟨rfl, rfl⟩, ih]
    · rw [h, cons_append, singleton_append, unescapeCell, if_neg (by decide),
        if_neg (by decide), if_pos ⟨rfl, rfl⟩, ih]
    · rw [h, cons_append, singleton_append, unescapeCell, if_neg (by decide),
        if_pos ⟨rfl, rfl⟩, ih]
    · rw [h, singleton_append, unescapeCell_plain hquote hslash, ih]

theorem newline_not_mem_escapeCell (s : PyStr) : code '\n' ∉ escapeCell s := by
  induction s with
  | nil => exact not_mem_nil
  | cons c s ih =>
    rw [escapeCell_cons, mem_append, not_or]
    refine ⟨?_, ih⟩
    rcases escapeCell_single c with ⟨-, h⟩ | ⟨-, h⟩ | ⟨-, h⟩ | ⟨-, -, hnewline, h⟩
    · rw [h]; decide
    · rw [h]; decide
    · rw [h]; decide
    · rw [h, mem_singleton]
      exact hnewline.symm

/-! ## The split -/

theorem splitFrom_bare (h : ∀ c ∈ t, c ≠ code '"' ∧ c ≠ code '\t') (current rest : PyStr) :
    splitFrom false current (t ++ rest) = splitFrom false (current ++ t) rest := by
  induction t generalizing current with
  | nil => rw [nil_append, append_nil]
  | cons c t ih =>
    rw [forall_mem_cons] at h
    rw [cons_append, splitFrom, if_neg h.1.1, if_neg h.1.2, ih h.2, append_assoc,
      singleton_append]

theorem splitFrom_plain (hc : c ≠ code '"') (current : PyStr)
    (hs : s ≠ []) : splitFrom true current (c :: s) = splitFrom true (current ++ [c]) s := by
  cases s with
  | nil => exact absurd rfl hs
  | cons next s => rw [splitFrom, if_neg hc]

/-- In quotes nothing is split, up to the quote that is not doubled. -/
theorem splitFrom_quoted {rest : PyStr} (hrest : rest.head? ≠ some (code '"'))
    (s current : PyStr) : splitFrom true current (escapeCell s ++ code '"' :: rest) =
      splitFrom false (current ++ (escapeCell s ++ [code '"'])) rest := by
  induction s generalizing current with
  | nil =>
    rcases rest with _ | ⟨next, rest⟩
    · rfl
    · have hnext : next ≠ code '"' := fun h => hrest (by rw [h]; rfl)
      change splitFrom true current (code '"' :: next :: rest) = _
      rw [splitFrom, if_pos rfl, if_neg hnext]
      rfl
  | cons c s ih =>
    have htail : escapeCell s ++ code '"' :: rest ≠ [] := by simp
    rw [escapeCell_cons]
    rcases escapeCell_single c with ⟨-, h⟩ | ⟨-, h⟩ | ⟨-, h⟩ | ⟨hquote, -, -, h⟩ <;> rw [h]
    · change splitFrom true current (code '"' :: code '"' :: (escapeCell s ++ _)) = _
      rw [splitFrom, if_pos rfl, if_pos rfl, ih]
      simp
    · change splitFrom true current (code '\\' :: code '\\' :: (escapeCell s ++ _)) = _
      rw [splitFrom_plain (by decide) _ (cons_ne_nil _ _),
        splitFrom_plain (by decide) _ htail, ih]
      simp
    · change splitFrom true current (code '\\' :: code 'n' :: (escapeCell s ++ _)) = _
      rw [splitFrom_plain (by decide) _ (cons_ne_nil _ _),
        splitFrom_plain (by decide) _ htail, ih]
      simp
    · change splitFrom true current (c :: (escapeCell s ++ _)) = _
      rw [splitFrom_plain hquote _ htail, ih]
      simp

/-! ## One cell -/

def IsCell (py : Numbers F) : Json F → Prop
  | .float x => py.finite x = true
  | .arr _ | .obj _ => False
  | _ => True

/-- The text of a cell is kept together by the split, and read as the value. -/
structure CellText (py : Numbers F) (t : PyStr) (v : Json F) : Prop where
  split : ∀ current rest, rest.head? ≠ some (code '"') →
    splitFrom false current (t ++ rest) = splitFrom false (current ++ t) rest
  parse : parseCellValue py t = v
  newline : code '\n' ∉ t

theorem strip_eq_self (hfirst : ∀ c ∈ s.head?, isSpace c = false)
    (hlast : ∀ c ∈ s.getLast?, isSpace c = false) : s.strip = s := by
  have hleft : s.dropWhile isSpace = s := dropWhile_eq_self_iff.mpr fun hl => by
    rw [hfirst _ (by rw [head?_eq_getElem?, getElem?_eq_getElem hl]; rfl)]
    exact Bool.false_ne_true
  unfold strip trim
  rw [hleft]
  exact rdropWhile_eq_self_iff.mpr fun hne => by
    rw [hlast _ (getLast?_eq_getLast_of_ne_nil hne)]
    exact Bool.false_ne_true

/-- No quote, no tab and no newline. -/
def bare (t : PyStr) : Bool := t.all fun c => c ≠ code '"' && c ≠ code '\t' && c ≠ code '\n'

theorem cellText_bare (h : bare t = true) (hparse : parseCellValue py t = v) : CellText py t v := by
  have hall : ∀ c ∈ t, (c ≠ code '"' ∧ c ≠ code '\t') ∧ c ≠ code '\n' := by
    simpa only [bare, all_eq_true, Bool.and_eq_true, decide_eq_true_eq] using h
  exact ⟨fun current rest _ => splitFrom_bare (fun c hc => (hall c hc).1) current rest, hparse,
    fun hc => (hall _ hc).2 rfl⟩

theorem cellText_number (hdigit : ∀ c, isDigit c = true → py.digit c = true)
    (h : NumberText t) : CellText py t (parseNumber py t) := by
  have hother : ∀ c ∈ t, ∀ d, numeric d = false → c ≠ d := fun c hc d hd heq => by
    rw [← heq, h.numeric c hc] at hd
    cases hd
  have hspace : ∀ c ∈ t, isSpace c = false := fun c hc => by
    have hrange := h.numeric c hc
    simp only [numeric, Bool.or_eq_true, Bool.and_eq_true, decide_eq_true_eq] at hrange
    simp only [isSpace, spaceCode, Bool.or_eq_false_iff, Bool.and_eq_false_iff, decide_eq_false_iff_not]
    omega
  have hstrip : t.strip = t := strip_eq_self (fun c hc => hspace c (mem_of_mem_head? hc))
    (fun c hc => hspace c (mem_of_mem_getLast? hc))
  have hne : t ≠ [] := by
    obtain ⟨negative, digits, frac, exp, hne, -, -, -, rfl⟩ := h
    simp [hne]
  have hword : ∀ c, numeric c = false → t ≠ [c] := fun c hc heq =>
    hother c (heq ▸ mem_cons_self) c hc rfl
  refine cellText_bare ?_ ?_
  · rw [bare, all_eq_true]
    intro c hc
    simp only [Bool.and_eq_true, decide_eq_true_eq]
    exact ⟨⟨hother c hc _ rfl, hother c hc _ rfl⟩, hother c hc _ rfl⟩
  · have hT : t ≠ text "T" := hword _ rfl
    have hF : t ≠ text "F" := hword _ rfl
    have hnull : t ≠ text "_" := hword _ rfl
    unfold parseCellValue parseStripped
    rw [hstrip, if_neg, if_neg hT, if_neg hF, if_neg hnull, if_neg hne, if_pos (h.isMatch hdigit)]
    rintro ⟨-, hhead, -⟩
    exact hother _ (mem_of_mem_head? hhead) _ rfl rfl

theorem cellText_quoted (s : PyStr) :
    CellText py (code '"' :: escapeCell s ++ [code '"']) (.str s) := by
  have hlast : (code '"' :: escapeCell s ++ [code '"']).getLast? = some (code '"') :=
    getLast?_concat
  refine ⟨fun current rest hrest => ?_, ?_, fun hmem => ?_⟩
  · change splitFrom false current (code '"' :: (escapeCell s ++ [code '"'] ++ rest)) = _
    rw [splitFrom, if_pos rfl, append_assoc, singleton_append, splitFrom_quoted hrest,
      append_assoc]
    rfl
  · have hstrip : strip (code '"' :: escapeCell s ++ [code '"']) =
        code '"' :: escapeCell s ++ [code '"'] := by
      refine strip_eq_self (fun c hc => ?_) fun c hc => ?_
      · obtain rfl : code '"' = c := Option.some.inj hc
        rfl
      · obtain rfl : code '"' = c := Option.some.inj (hlast.symm.trans hc)
        rfl
    unfold parseCellValue parseStripped
    rw [hstrip, if_pos ⟨by simp, rfl, hlast⟩]
    change Json.str (unescapeCell (escapeCell s ++ [code '"']).dropLast) = _
    rw [dropLast_concat, unescapeCell_escapeCell]
  · rcases mem_append.mp hmem with hmem | hmem
    · rcases mem_cons.mp hmem with h | hmem
      · exact absurd h (by decide)
      · exact newline_not_mem_escapeCell s hmem
    · exact absurd (mem_singleton.mp hmem) (by decide)

/-- **A cell.**  It is written, and its text stays whole and is read as the cell. -/
theorem exists_cellText (hpy : py.Exact) (hv : IsCell py v) :
    ∃ t, cellEncode py v = .ok t ∧ CellText py t v := by
  cases v with
  | null => exact ⟨_, rfl, cellText_bare rfl rfl⟩
  | bool b =>
    refine ⟨_, rfl, ?_⟩
    cases b with
    | false => exact cellText_bare rfl rfl
    | true => exact cellText_bare rfl rfl
  | int n =>
    refine ⟨_, rfl, ?_⟩
    have hread : parseNumber py (intText n) = .int n := by
      have hchars : ∀ c ∈ intText n, c = code '-' ∨ isDigit c = true := by
        intro c hc
        rcases mem_append.mp hc with hc | hc
        · split at hc
          · exact Or.inl (mem_singleton.mp hc)
          · cases hc
        · exact Or.inr (isDigit_natText hc)
      unfold parseNumber
      rw [if_neg (by simp [intText, natText, Nat.toDigits_ne_nil]), if_neg, hpy.int]
      rintro (hc | hc | hc) <;> rcases hchars _ hc with h | h <;> revert h <;> decide
    exact hread ▸ cellText_number hpy.digit (numberText_intText n)
  | float x =>
    refine ⟨_, if_pos hv, ?_⟩
    obtain ⟨htext, hvalue⟩ := hpy.finite x hv
    have hmark : code '.' ∈ py.str x ∨ code 'e' ∈ py.str x := by
      obtain ⟨negative, digits, frac, exp, -, hfrac, hexp, hne, heq⟩ := htext
      rw [heq]
      rcases hne with hne | hne
      · rcases hfrac with rfl | ⟨d, ds, rfl, -⟩
        · exact absurd rfl hne
        · exact Or.inl (by simp)
      · rcases hexp with rfl | ⟨sign, d, ds, rfl, -⟩
        · exact absurd rfl hne
        · exact Or.inr (by simp)
    have hread : parseNumber py (py.str x) = .float x := by
      unfold parseNumber
      rw [if_neg, if_pos (hmark.imp_right Or.inl), hvalue]
      intro h
      rw [h] at hmark
      simp at hmark
    exact hread ▸ cellText_number hpy.digit (numberText_finiteText htext)
  | str s =>
    unfold cellEncode
    by_cases hquote : needsQuoting py s = true
    · exact ⟨_, congrArg Except.ok (if_pos hquote), cellText_quoted s⟩
    · refine ⟨_, congrArg Except.ok (if_neg hquote), ?_⟩
      simp only [needsQuoting, Bool.or_eq_true, decide_eq_true_eq, not_or, not_not,
        Bool.not_eq_true, any_eq_true, not_exists, not_and] at hquote
      obtain ⟨⟨⟨⟨hne, hword⟩, hstrip⟩, hmatch⟩, hspecial⟩ := hquote
      have habsent : ∀ c ∈ ['\t', '\n', '\\', '"'], code c ∉ s := hspecial
      have hquoteless : code '"' ∉ s := habsent '"' (by decide)
      refine cellText_bare ?_ ?_
      · rw [bare, all_eq_true]
        intro c hc
        simp only [Bool.and_eq_true, decide_eq_true_eq]
        refine ⟨⟨?_, ?_⟩, ?_⟩ <;> rintro rfl
        · exact hquoteless hc
        · exact habsent '\t' (by decide) hc
        · exact habsent '\n' (by decide) hc
      · simp only [mem_cons, not_mem_nil, or_false, not_or] at hword
        unfold parseCellValue parseStripped
        rw [hstrip, if_neg, if_neg hword.1, if_neg hword.2.1, if_neg hword.2.2, if_neg hne,
          if_neg (Bool.eq_false_iff.mp hmatch)]
        exact fun h => hquoteless (mem_of_mem_head? h.2.1)
  | arr | obj => cases hv

/-! ## Rows -/

theorem tabJoin_cons (t u : PyStr) (texts : List PyStr) :
    tabJoin (t :: u :: texts) = t ++ code '\t' :: tabJoin (u :: texts) := by
  unfold tabJoin
  rw [intercalate_cons_cons, append_assoc, singleton_append]

theorem splitFrom_tabJoin {texts : List PyStr} {cells : List (Json F)}
    (h : List.Forall₂ (CellText py) (t :: texts) cells) (current : PyStr) :
    splitFrom false current (tabJoin (t :: texts)) = ((current ++ t) :: texts, false) ∧
      code '\n' ∉ tabJoin (t :: texts) := by
  induction texts generalizing t cells current with
  | nil =>
    cases h with
    | cons ht hrest =>
      have hsplit := ht.split current [] (by simp)
      rw [append_nil] at hsplit
      rw [tabJoin, intercalate_singleton]
      exact ⟨hsplit, ht.newline⟩
  | cons u texts ih =>
    cases h with
    | cons ht hrest =>
      obtain ⟨hsplit, hnewline⟩ := ih hrest []
      rw [tabJoin_cons]
      constructor
      · have htab : (code '\t' :: tabJoin (u :: texts)).head? ≠ some (code '"') :=
          fun h => absurd (Option.some.inj h) (by decide)
        rw [ht.split _ _ htab, splitFrom, if_neg (by decide), if_pos rfl, hsplit]
        rfl
      · rw [mem_append, mem_cons, not_or, not_or]
        exact ⟨ht.newline, by decide, hnewline⟩

/-- **Rows are a codec.**  The cells of a row are written without a newline, whatever characters
they hold, and the row is read back from their line. -/
theorem parseTabRow_cellEncode (py : Numbers F) (hpy : py.Exact) {cells : List (Json F)}
    (hne : cells ≠ []) (hcells : ∀ v ∈ cells, IsCell py v) :
    ∃ texts, cells.mapM (cellEncode py) = .ok texts ∧
      parseTabRow py (tabJoin texts) = .ok cells ∧ code '\n' ∉ tabJoin texts := by
  have hencoded : ∃ texts, cells.mapM (cellEncode py) = .ok texts ∧
      Forall₂ (CellText py) texts cells := by
    clear hne
    induction cells with
    | nil => exact ⟨[], rfl, .nil⟩
    | cons v cells ih =>
      rw [forall_mem_cons] at hcells
      obtain ⟨t, ht, hcell⟩ := exists_cellText hpy hcells.1
      obtain ⟨texts, htexts, hrest⟩ := ih hcells.2
      refine ⟨t :: texts, ?_, .cons hcell hrest⟩
      rw [mapM_cons, ht, htexts]
      rfl
  obtain ⟨texts, htexts, hread⟩ := hencoded
  refine ⟨texts, htexts, ?_⟩
  have hparse : texts.map (parseCellValue py) = cells := by
    have hrel := hread.imp fun _ _ hcell => hcell.parse
    rwa [← forall₂_map_left_iff (R := (· = ·)), forall₂_eq_eq_eq] at hrel
  cases texts with
  | nil => exact absurd (hparse ▸ rfl) hne
  | cons t texts =>
    obtain ⟨hsplit, hnewline⟩ := splitFrom_tabJoin hread []
    refine ⟨?_, hnewline⟩
    unfold parseTabRow splitTabCells
    rw [hsplit]
    exact congrArg Except.ok hparse

/-! ## A row of each kind -/

/-- Decimal integers, and one half. -/
def halves : Numbers Unit where
  digit := isDigit
  finite _ := true
  str _ := text "0.5"
  ofText _ := ()
  int t := if t.head? = some (code '-') then -(natOfDigits t.tail : ℤ) else natOfDigits t

theorem halves_exact : halves.Exact where
  digit := fun _ h => h
  int := fun n => by
    have hhead : (natText n.natAbs).head? ≠ some (code '-') := fun h =>
      absurd (isDigit_natText (mem_of_mem_head? h)) (by decide)
    unfold halves intText
    by_cases hneg : n < 0
    · simp only [if_pos hneg]
      change -(natOfDigits (natText n.natAbs) : ℤ) = n
      rw [natOfDigits_natText]
      omega
    · simp only [if_neg hneg, nil_append, if_neg hhead, natOfDigits_natText]
      omega
  finite := fun _ _ => ⟨⟨false, [code '0'], [code '.', code '5'], [], Or.inl rfl,
    Or.inr ⟨code '5', [], rfl, forall_mem_singleton.mpr rfl⟩, Or.inl rfl,
    Or.inl (cons_ne_nil _ _), rfl⟩, rfl⟩

/-- A row with a cell of every kind, and one with a tab, quotes and a newline. -/
theorem parseTabRow_cellEncode_kinds :
    ∃ texts, ([.null, .bool true, .int (-12), .float (), .str [], .str (text "a\t\"b\"\\\n"),
        .str (text "12")] : List (Json Unit)).mapM (cellEncode halves) = .ok texts ∧
      parseTabRow halves (tabJoin texts) = .ok [.null, .bool true, .int (-12), .float (), .str [],
        .str (text "a\t\"b\"\\\n"), .str (text "12")] ∧ code '\n' ∉ tabJoin texts := by
  refine parseTabRow_cellEncode halves halves_exact (cons_ne_nil _ _) ?_
  simp [IsCell, halves]

end GpuManager.Formats
