import Mathlib.Tactic.Common
import GpuManager.Lib.JsonText

/-!
# Reading JSON back

What `json.dumps` wrote is what `json.loads` returns.  Numbers, strings and the nested values
are read back one after the other; what makes a number end is the delimiter behind it.

* `Floats.Faithful`: `float(repr(x))` is `x`, as the standard library documents it.
* `Delimited`: what may follow a number.
* `Regular`: the integers can be written, and the keys of each object are distinct.
* `loads_dumps`: the round trip.
-/

namespace Json

open PyStr List Option

variable {F : Type} {exp frac tail : PyStr}

/-! ## Reading numbers back -/

def Delimited (s : PyStr) : Prop :=
  ∀ c ∈ s.head?, isDigit c = false ∧ c ≠ code '.' ∧ c ≠ code 'e' ∧ c ≠ code 'E'

variable {c : CodePoint} {s rest digits word t key : PyStr} {n : ℕ} {v : Json F} {floats : Floats F}
  {values : List (Json F)} {pairs : List (PyStr × Json F)}

theorem delimited_cons (s : PyStr) (hdigit : isDigit c = false) (hpoint : c ≠ code '.')
    (he : c ≠ code 'e') (hE : c ≠ code 'E') : Delimited (c :: s) := by
  intro d hd
  obtain rfl : c = d := some.inj hd
  exact ⟨hdigit, hpoint, he, hE⟩

theorem delimited_nil : Delimited [] := by
  intro c hc
  exact absurd hc (by simp)

theorem fraction_delimited (h : Delimited s) : fraction s = ([], s) := by
  rcases s with _ | ⟨c, _ | ⟨d, s⟩⟩
  · rfl
  · rfl
  · exact if_neg fun hc => (h c rfl).2.1 hc.1

theorem exponent_delimited (h : Delimited s) : exponent s = ([], s) := by
  rcases s with _ | ⟨c, _ | ⟨d, s⟩⟩
  · rfl
  · rfl
  · exact if_neg fun hc => hc.elim (h c rfl).2.2.1 (h c rfl).2.2.2

/-- Digits before a delimiter are read whole. -/
theorem takeWhile_digits {ds : PyStr} (hds : ∀ c ∈ ds, isDigit c = true)
    (hrest : ∀ c ∈ rest.head?, isDigit c = false) :
    (ds ++ rest).takeWhile isDigit = ds ∧ (ds ++ rest).dropWhile isDigit = rest := by
  have hnot : rest.takeWhile isDigit = [] ∧ rest.dropWhile isDigit = rest := by
    rcases rest with _ | ⟨c, rest⟩
    · exact ⟨rfl, rfl⟩
    · have hc := hrest c rfl
      simp [hc]
  constructor
  · rw [takeWhile_append_of_pos hds, hnot.1, append_nil]
  · rw [dropWhile_append_of_pos hds, hnot.2]

theorem code_of_isDigit {c : Char} (h : c.isDigit = true) :
    (code c).val = c.toNat ∧ isDigit (code c) = true := by
  have hc : 48 ≤ c.toNat ∧ c.toNat ≤ 57 := by
    simp only [Char.isDigit, Bool.and_eq_true, decide_eq_true_eq, ge_iff_le] at h
    exact h
  have hval : (code c).val = c.toNat := Nat.mod_eq_of_lt (by omega)
  refine ⟨hval, ?_⟩
  simp only [isDigit, hval, Bool.and_eq_true, decide_eq_true_eq]
  omega

theorem isDigit_natText (hc : c ∈ natText n) : isDigit c = true := by
  obtain ⟨d, hd, rfl⟩ := mem_map.mp hc
  exact (code_of_isDigit (Nat.isDigit_of_mem_toDigits (by decide) (by decide) hd)).2

/-- The digits of a number are read back as the number. -/
theorem natOfDigits_natText (n : ℕ) : natOfDigits (natText n) = n := by
  have hfold : ∀ (l : List Char) (init : ℕ), (∀ c ∈ l, c.isDigit = true) →
      (l.map code).foldl (fun n c => 10 * n + (c.val - 0x30)) init = Nat.ofDigitChars 10 l init := by
    intro l
    induction l with
    | nil => intro init _; rfl
    | cons c l ih =>
      intro init h
      rw [forall_mem_cons] at h
      rw [map_cons, foldl_cons, (code_of_isDigit h.1).1]
      exact ih _ h.2
  refine (hfold _ 0 fun c hc => ?_).trans Nat.ofDigitChars_ten_toDigits
  exact Nat.isDigit_of_mem_toDigits (by decide) (by decide) hc

theorem length_natText (h : n < intLimit) : (natText n).length ≤ 4300 := by
  unfold intLimit at h
  rw [natText, length_map, Nat.length_toDigits_le_iff (by decide) (by decide)]
  exact h

theorem natText_of_lt (h : n < 10) : natText n = [code n.digitChar] := by
  rw [natText, Nat.toDigits_of_lt_base h, map_singleton]

theorem natText_pos (hn : 0 < n) : ∃ c ds, natText n = c :: ds ∧ c ≠ code '0' := by
  induction n using Nat.strong_induction_on with
  | _ n ih =>
    by_cases hlt : n < 10
    · refine ⟨code n.digitChar, [], natText_of_lt hlt, ?_⟩
      have hall : ∀ m < 10, 0 < m → code (Nat.digitChar m) ≠ code '0' := by decide
      exact hall n hlt hn
    · obtain ⟨c, ds, hds, hc⟩ := ih (n / 10) (Nat.div_lt_self hn (by decide)) (by omega)
      refine ⟨c, ds ++ [code (n % 10).digitChar], ?_, hc⟩
      unfold natText at hds ⊢
      rw [Nat.toDigits_of_base_le (by decide) (not_lt.mp hlt), map_append, hds]
      rfl

def IntegerPart (digits : PyStr) : Prop :=
  digits = [code '0'] ∨
    ∃ c ds, digits = c :: ds ∧ c ≠ code '0' ∧ ∀ d ∈ c :: ds, isDigit d = true

theorem integerPart_natText (n : ℕ) : IntegerPart (natText n) := by
  rcases Nat.eq_zero_or_pos n with rfl | hn
  · exact Or.inl rfl
  obtain ⟨c, ds, hds, hc⟩ := natText_pos hn
  refine Or.inr ⟨c, ds, hds, hc, fun d hd => isDigit_natText (n := n) ?_⟩
  rw [hds]
  exact hd

theorem unsigned_integerPart (floats : Floats F) (negative : Bool) (hdigits : IntegerPart digits)
    (hrest : ∀ c ∈ rest.head?, isDigit c = false) :
    unsigned floats negative (digits ++ rest) = numberEnd floats negative digits rest := by
  rcases hdigits with rfl | ⟨c, ds, rfl, hc, hds⟩
  · rw [singleton_append, unsigned, if_pos rfl]
  rw [forall_mem_cons] at hds
  obtain ⟨htake, hdrop⟩ := takeWhile_digits hds.2 hrest
  rw [cons_append, unsigned, if_neg hc, if_pos hds.1, htake, hdrop]

/-- The first character of an integer part is a digit. -/
theorem IntegerPart.head (h : IntegerPart digits) :
    ∃ c ds, digits = c :: ds ∧ isDigit c = true := by
  rcases h with rfl | ⟨c, ds, rfl, -, hds⟩
  · exact ⟨code '0', [], rfl, by decide⟩
  · exact ⟨c, ds, rfl, hds c mem_cons_self⟩

theorem number_signed (floats : Floats F) (negative : Bool) (hdigits : IntegerPart digits) :
    number floats ((if negative then [code '-'] else []) ++ digits ++ rest) =
      unsigned floats negative (digits ++ rest) := by
  obtain ⟨c, ds, rfl, hc⟩ := hdigits.head
  cases negative with
  | false =>
    have hne : c ≠ code '-' := by
      rintro rfl
      exact absurd hc (by decide)
    exact if_neg hne
  | true => rw [if_pos rfl, append_assoc, singleton_append, number, if_pos rfl]

theorem number_intText (floats : Floats F) {n : ℤ} (hn : n.natAbs < intLimit)
    (hrest : Delimited rest) : number floats (intText n ++ rest) = .ok (.int n, rest) := by
  have hdigit : ∀ c ∈ rest.head?, isDigit c = false := fun c hc => (hrest c hc).1
  have hvalue : (if decide (n < 0) = true then -(n.natAbs : ℤ) else n.natAbs) = n := by
    split <;> rename_i h <;> simp only [decide_eq_true_eq] at h <;> omega
  have hsign : intText n =
      (if decide (n < 0) = true then [code '-'] else []) ++ natText n.natAbs := by
    unfold intText
    simp
  rw [hsign, number_signed floats (decide (n < 0)) (integerPart_natText n.natAbs),
    unsigned_integerPart floats _ (integerPart_natText n.natAbs) hdigit, numberEnd,
    fraction_delimited hrest]
  simp only [exponent_delimited hrest, and_self, if_true, intOfText, natOfDigits_natText]
  rw [if_neg (not_lt.mpr (length_natText hn)), hvalue]

def FractionPart (frac : PyStr) : Prop :=
  frac = [] ∨ ∃ d ds, frac = code '.' :: d :: ds ∧ ∀ c ∈ d :: ds, isDigit c = true

def ExponentPart (exp : PyStr) : Prop :=
  exp = [] ∨ ∃ sign d ds, exp = code 'e' :: sign :: d :: ds ∧ (sign = code '+' ∨ sign = code '-') ∧
    ∀ c ∈ d :: ds, isDigit c = true

/-- The text of a finite float: it has a fraction or an exponent. -/
def FiniteText (s : PyStr) : Prop :=
  ∃ (negative : Bool) (digits frac exp : PyStr), IntegerPart digits ∧ FractionPart frac ∧
    ExponentPart exp ∧ (frac ≠ [] ∨ exp ≠ []) ∧
    s = (if negative then [code '-'] else []) ++ digits ++ frac ++ exp

/-- `float(repr(x))` is `x`, and `repr` writes a finite float with a fraction or an exponent. -/
def Floats.Faithful (floats : Floats F) : Prop :=
  ∀ x, floats.text x = PyStr.text "NaN" ∧ floats.nan = x ∨
    floats.text x = PyStr.text "Infinity" ∧ floats.infinity = x ∨
    floats.text x = PyStr.text "-Infinity" ∧ floats.negInfinity = x ∨
    FiniteText (floats.text x) ∧ floats.ofText (floats.text x) = x

theorem fraction_part (hfrac : FractionPart frac)
    (hrest : ∀ c ∈ rest.head?, isDigit c = false ∧ c ≠ code '.') :
    fraction (frac ++ rest) = (frac, rest) := by
  rcases hfrac with rfl | ⟨d, ds, rfl, hds⟩
  · rcases rest with _ | ⟨c, _ | ⟨d, rest⟩⟩
    · rfl
    · rfl
    · exact if_neg fun hc => (hrest c rfl).2 hc.1
  · rw [forall_mem_cons] at hds
    obtain ⟨htake, hdrop⟩ := takeWhile_digits hds.2 fun c hc => (hrest c hc).1
    rw [cons_append, cons_append, fraction, if_pos ⟨rfl, hds.1⟩, htake, hdrop]

theorem exponent_part (hexp : ExponentPart exp) (hrest : Delimited rest) :
    exponent (exp ++ rest) = (exp, rest) := by
  rcases hexp with rfl | ⟨sign, d, ds, rfl, hsign, hds⟩
  · exact exponent_delimited hrest
  rw [forall_mem_cons] at hds
  obtain ⟨htake, hdrop⟩ := takeWhile_digits hds.2 fun c hc => (hrest c hc).1
  have hnot : ¬ isDigit sign = true := by
    rcases hsign with rfl | rfl <;> decide
  rw [cons_append, cons_append, cons_append, exponent, if_pos (Or.inl rfl),
    if_neg hnot, if_pos hsign]
  simp only [hds.1, if_true, htake, hdrop]

/-- What follows an integer part that has a fraction or an exponent behind it. -/
theorem head_exponent (hexp : ExponentPart exp) (hrest : Delimited rest) :
    ∀ c ∈ (exp ++ rest).head?, isDigit c = false ∧ c ≠ code '.' := by
  rcases hexp with rfl | ⟨sign, d, ds, rfl, -, -⟩
  · exact fun c hc => ⟨(hrest c hc).1, (hrest c hc).2.1⟩
  intro c hc
  obtain rfl : code 'e' = c := some.inj hc
  exact ⟨by decide, by decide⟩

theorem head_fraction (hfrac : FractionPart frac) (hrest : ∀ c ∈ rest.head?, isDigit c = false) :
    ∀ c ∈ (frac ++ rest).head?, isDigit c = false := by
  rcases hfrac with rfl | ⟨d, ds, rfl, -⟩
  · exact hrest
  intro c hc
  obtain rfl : code '.' = c := some.inj hc
  decide

theorem number_finiteText (floats : Floats F) (hs : FiniteText s) (hrest : Delimited rest) :
    number floats (s ++ rest) = .ok (.float (floats.ofText s), rest) := by
  obtain ⟨negative, digits, frac, exp, hdigits, hfrac, hexp, hne, rfl⟩ := hs
  have hbehind := head_exponent hexp hrest
  have hhead := head_fraction hfrac fun c hc => (hbehind c hc).1
  rw [show (if negative then [code '-'] else []) ++ digits ++ frac ++ exp ++ rest =
      (if negative then [code '-'] else []) ++ digits ++ (frac ++ (exp ++ rest)) by
        simp only [append_assoc],
    number_signed floats negative hdigits, unsigned_integerPart floats negative hdigits hhead,
    numberEnd, fraction_part hfrac hbehind]
  simp only [exponent_part hexp hrest]
  rw [if_neg fun h => hne.elim (fun hf => hf h.1) fun he => he h.2]

/-! ## Reading scalars back -/

/-- A text that starts differently has no such prefix. -/
theorem strip?_of_ne {w : CodePoint} (h : w ≠ c) : strip? (w :: word) (c :: s) = none := by
  simp [strip?, h]

theorem strip?_of_second {w v : CodePoint} (h : ∀ d ∈ s.head?, v ≠ d) :
    strip? (w :: v :: word) (w :: s) = none := by
  rcases s with _ | ⟨d, s⟩
  · simp [strip?]
  · simp [strip?, h d rfl]

theorem scalar_number (floats : Floats F)
    (h : isDigit c = true ∨ c = code '-' ∧ ∀ d ∈ s.head?, isDigit d = true) :
    scalar floats (c :: s) = number floats (c :: s) := by
  have hne : ∀ w, isDigit w = false → w ≠ code '-' → w ≠ c := by
    rintro w hw hminus rfl
    rcases h with h | ⟨h, -⟩
    · exact absurd h (by rw [hw]; decide)
    · exact hminus h
  have hminus : strip? (text "-Infinity") (c :: s) = none := by
    rcases h with h | ⟨rfl, h⟩
    · refine strip?_of_ne ?_
      rintro rfl
      exact absurd h (by decide)
    · refine strip?_of_second fun d hd => ?_
      rintro rfl
      exact absurd (h _ hd) (by decide)
  have hnone : ∀ p ∈ constants floats, strip? p.1 (c :: s) = none := by
    simp only [constants, forall_mem_cons]
    exact ⟨strip?_of_ne (hne _ (by decide) (by decide)),
      strip?_of_ne (hne _ (by decide) (by decide)), strip?_of_ne (hne _ (by decide) (by decide)),
      strip?_of_ne (hne _ (by decide) (by decide)), strip?_of_ne (hne _ (by decide) (by decide)),
      hminus, fun p hp => absurd hp not_mem_nil⟩
  unfold scalar
  rw [List.findSome?_eq_none_iff.mpr fun p hp => by rw [hnone p hp]; rfl]

theorem scalar_constant (floats : Floats F) (h : (word, v) ∈ constants floats) (rest : PyStr) :
    scalar floats (word ++ rest) = .ok (v, rest) := by
  simp only [constants, mem_cons, Prod.mk.injEq, not_mem_nil, or_false] at h
  rcases h with ⟨rfl, rfl⟩ | ⟨rfl, rfl⟩ | ⟨rfl, rfl⟩ | ⟨rfl, rfl⟩ | ⟨rfl, rfl⟩ | ⟨rfl, rfl⟩ <;> rfl

def Starts (s : PyStr) : Prop :=
  ∃ c rest, s = c :: rest ∧ isWhitespace c = false ∧ c ≠ code ']' ∧ c.val < 0x80

def ScalarText (floats : Floats F) (s : PyStr) (v : Json F) : Prop :=
  (∃ c rest, s = c :: rest ∧ c ≠ code '"' ∧ c ≠ code '[' ∧ c ≠ code '{' ∧
    isWhitespace c = false ∧ c ≠ code ']' ∧ c.val < 0x80) ∧
    ∀ rest, Delimited rest → scalar floats (s ++ rest) = .ok (v, rest)

theorem ScalarText.starts (h : ScalarText floats s v) : Starts s := by
  obtain ⟨⟨c, rest, hs, -, -, -, hstart⟩, -⟩ := h
  exact ⟨c, rest, hs, hstart⟩

/-- The scanner leaves a scalar to `scalar`. -/
theorem ScalarText.value (h : ScalarText floats s v) (hrest : Delimited rest) (n : ℕ) :
    value floats (n + 1) (s ++ rest) = .ok (v, rest) := by
  obtain ⟨⟨c, tail, rfl, hquote, hbracket, hbrace, -⟩, hscalar⟩ := h
  have hread := hscalar rest hrest
  rw [cons_append] at hread ⊢
  unfold Json.value
  simp only [hquote, hbracket, hbrace, if_false, hread]

theorem scalarText_constant (floats : Floats F) (h : (word, v) ∈ constants floats) :
    ScalarText floats word v := by
  refine ⟨?_, fun rest _ => scalar_constant floats h rest⟩
  simp only [constants, mem_cons, Prod.mk.injEq, not_mem_nil, or_false] at h
  rcases h with ⟨rfl, -⟩ | ⟨rfl, -⟩ | ⟨rfl, -⟩ | ⟨rfl, -⟩ | ⟨rfl, -⟩ | ⟨rfl, -⟩ <;>
    exact ⟨_, _, rfl, by decide⟩

/-- An integer part with its sign starts as a scalar. -/
theorem signed_head (negative : Bool) (h : IntegerPart digits) (tail : PyStr) :
    ∃ c rest, (if negative then [code '-'] else []) ++ digits ++ tail = c :: rest ∧
      (isDigit c = true ∨ c = code '-' ∧ ∀ d ∈ rest.head?, isDigit d = true) := by
  obtain ⟨c, ds, rfl, hc⟩ := h.head
  cases negative with
  | false => exact ⟨c, ds ++ tail, rfl, Or.inl hc⟩
  | true =>
    refine ⟨code '-', c :: ds ++ tail, rfl, Or.inr ⟨rfl, fun d hd => ?_⟩⟩
    obtain rfl : c = d := some.inj hd
    exact hc

theorem scalarText_signed (floats : Floats F) {negative : Bool} (hdigits : IntegerPart digits)
    (hread : ∀ rest, Delimited rest →
      number floats ((if negative then [code '-'] else []) ++ digits ++ tail ++ rest) =
        .ok (v, rest)) :
    ScalarText floats ((if negative then [code '-'] else []) ++ digits ++ tail) v := by
  constructor
  · obtain ⟨c, rest, hs, hc⟩ := signed_head negative hdigits tail
    have hne : ∀ w, isDigit w = false → w ≠ code '-' → c ≠ w := by
      rintro w hw hminus rfl
      rcases hc with h | ⟨h, -⟩
      · exact absurd h (by rw [hw]; decide)
      · exact hminus h
    have hspace : isWhitespace c = false := by
      simp only [isWhitespace, Bool.or_eq_false_iff, decide_eq_false_iff_not]
      exact ⟨⟨⟨hne _ (by decide) (by decide), hne _ (by decide) (by decide)⟩,
        hne _ (by decide) (by decide)⟩, hne _ (by decide) (by decide)⟩
    have hascii : c.val < 0x80 := by
      rcases hc with h | ⟨rfl, -⟩
      · simp only [isDigit, Bool.and_eq_true, decide_eq_true_eq] at h
        omega
      · decide
    exact ⟨c, rest, hs, hne _ (by decide) (by decide), hne _ (by decide) (by decide),
      hne _ (by decide) (by decide), hspace, hne _ (by decide) (by decide), hascii⟩
  · intro rest hrest
    have hnumber := hread rest hrest
    obtain ⟨c, s, hs, hc⟩ := signed_head negative hdigits (tail ++ rest)
    rw [← append_assoc] at hs
    rw [hs] at hnumber ⊢
    rwa [scalar_number floats hc]

theorem scalarText_int (floats : Floats F) {n : ℤ} (hn : n.natAbs < intLimit) :
    ScalarText floats (intText n) (.int n) := by
  have hsign : intText n =
      (if decide (n < 0) = true then [code '-'] else []) ++ natText n.natAbs ++ [] := by
    simp [intText]
  rw [hsign]
  refine scalarText_signed floats (integerPart_natText n.natAbs) fun rest hrest => ?_
  rw [← hsign]
  exact number_intText floats hn hrest

theorem scalarText_float (hfloats : floats.Faithful) (x : F) :
    ScalarText floats (floats.text x) (.float x) := by
  rcases hfloats x with ⟨h, hx⟩ | ⟨h, hx⟩ | ⟨h, hx⟩ | ⟨hfinite, hx⟩
  · rw [h]
    exact scalarText_constant floats (by simp [constants, hx])
  · rw [h]
    exact scalarText_constant floats (by simp [constants, hx])
  · rw [h]
    exact scalarText_constant floats (by simp [constants, hx])
  have hread := fun rest => @number_finiteText F _ rest floats hfinite
  obtain ⟨negative, digits, frac, exp, hdigits, -, -, -, hs⟩ := hfinite
  rw [append_assoc] at hs
  rw [hx, hs] at hread
  rw [hs]
  exact scalarText_signed floats hdigits hread

/-! ## Reading strings back -/

/-- A control character is read back from its four digits. -/
theorem hex4_control (hc : c.val < 0x20) :
    hex4 (code '0') (code '0') (hexDigit (c.val / 16)) (hexDigit (c.val % 16)) = some c := by
  have hall : ∀ n < 0x20, ∀ hn : n < 0x110000,
      hex4 (code '0') (code '0') (hexDigit (n / 16)) (hexDigit (n % 16)) = some ⟨n, hn⟩ := by decide
  exact hall c.val hc c.isLt

theorem scanString_close (rest : PyStr) : scanString (code '"' :: rest) = some ([], rest) := by
  rw [scanString.eq_def]
  exact if_pos rfl

theorem scanString_short {e d : CodePoint} (rest : PyStr) (hu : e ≠ code 'u')
    (hd : unescape e = some d) :
    scanString (code '\\' :: e :: rest) =
      (scanString rest).map fun r => ((d, false) :: r.1, r.2) := by
  have hne : code '\\' ≠ code '"' := by decide
  rw [scanString.eq_def]
  simp only [if_neg hne, if_true, if_neg hu, hd]

theorem scanString_hex {h1 h2 h3 h4 d : CodePoint} (rest : PyStr)
    (hd : hex4 h1 h2 h3 h4 = some d) :
    scanString (code '\\' :: code 'u' :: h1 :: h2 :: h3 :: h4 :: rest) =
      (scanString rest).map fun r => ((d, true) :: r.1, r.2) := by
  have hne : code '\\' ≠ code '"' := by decide
  rw [scanString.eq_def]
  simp only [if_neg hne, if_true, hd]

theorem scanString_plain (rest : PyStr) (hquote : c ≠ code '"') (hslash : c ≠ code '\\')
    (hc : ¬ c.val < 0x20) :
    scanString (c :: rest) = (scanString rest).map fun r => ((c, false) :: r.1, r.2) := by
  rw [scanString.eq_def]
  simp only [if_neg hquote, if_neg hslash, if_neg hc]

/-- The escape of a character is read as the character. -/
theorem scanString_escape_append (c : CodePoint) :
    ∃ escaped : Bool, (escaped = true → isHigh c = false) ∧ ∀ rest,
      scanString (escape c ++ rest) =
        (scanString rest).map fun r => ((c, escaped) :: r.1, r.2) := by
  have hshort : ∀ e, e ≠ code 'u' → unescape e = some c →
      ∃ escaped : Bool, (escaped = true → isHigh c = false) ∧ ∀ rest,
        scanString ([code '\\', e] ++ rest) =
          (scanString rest).map fun r => ((c, escaped) :: r.1, r.2) := fun e hu hc =>
    ⟨false, fun h => absurd h (by decide), fun rest => scanString_short rest hu hc⟩
  unfold escape
  split_ifs with h1 h2 h3 h4 h5 h6 h7 h8
  · exact hshort _ (by decide) (by subst h1; decide)
  · exact hshort _ (by decide) (by subst h2; decide)
  · exact hshort _ (by decide) (by subst h3; decide)
  · exact hshort _ (by decide) (by subst h4; decide)
  · exact hshort _ (by decide) (by subst h5; decide)
  · exact hshort _ (by decide) (by rw [show c = ⟨0x0c, by decide⟩ from Fin.ext h6]; decide)
  · exact hshort _ (by decide) (by rw [show c = ⟨0x08, by decide⟩ from Fin.ext h7]; decide)
  · refine ⟨true, fun _ => ?_, fun rest => scanString_hex rest (hex4_control h8)⟩
    simp only [isHigh, Bool.and_eq_false_iff, decide_eq_false_iff_not]
    omega
  · exact ⟨false, fun h => absurd h (by decide), fun rest => scanString_plain rest h1 h2 h8⟩

/-- The text of a string is read up to its closing quote. -/
theorem scanString_flatMap (s rest : PyStr) :
    ∃ chars, scanString (s.flatMap escape ++ code '"' :: rest) = some (chars, rest) ∧
      chars.map (·.1) = s ∧ ∀ u ∈ chars, u.2 = true → isHigh u.1 = false := by
  induction s with
  | nil => exact ⟨[], scanString_close rest, rfl, fun u hu => absurd hu not_mem_nil⟩
  | cons c s ih =>
    obtain ⟨chars, hscan, hchars, hhigh⟩ := ih
    obtain ⟨escaped, hescaped, hread⟩ := scanString_escape_append c
    refine ⟨(c, escaped) :: chars, ?_, ?_, ?_⟩
    · rw [flatMap_cons, append_assoc, hread, hscan]
      rfl
    · rw [map_cons, hchars]
    · exact forall_mem_cons.mpr ⟨hescaped, hhigh⟩

theorem joinEscaped_eq_map {chars : List (CodePoint × Bool)}
    (h : ∀ u ∈ chars, u.2 = true → isHigh u.1 = false) : joinEscaped chars = chars.map (·.1) := by
  induction chars with
  | nil => rfl
  | cons c chars ih =>
    rw [forall_mem_cons] at h
    rcases chars with _ | ⟨d, chars⟩
    · rfl
    have hnot : ¬ (c.2 && d.2 && isHigh c.1 && isLow d.1) = true := by
      simp only [Bool.and_eq_true]
      rintro ⟨⟨⟨hescaped, -⟩, hhigh⟩, -⟩
      rw [h.1 hescaped] at hhigh
      exact absurd hhigh (by decide)
    rw [joinEscaped, if_neg hnot, ih h.2, ← map_cons]

theorem scanstring_quote (s rest : PyStr) :
    scanstring (s.flatMap escape ++ code '"' :: rest) = .ok (s, rest) := by
  obtain ⟨chars, hscan, hchars, hhigh⟩ := scanString_flatMap s rest
  unfold scanstring
  rw [hscan]
  simp only [joinEscaped_eq_map hhigh, hchars]

theorem quote_append (s rest : PyStr) :
    quote s ++ rest = code '"' :: (s.flatMap escape ++ code '"' :: rest) := by
  simp [quote]

/-! ## Reading values back -/

theorem starts_dumps (hfloats : floats.Faithful) (h : dumps floats v = some t) : Starts t := by
  cases v with
  | null | str s =>
    obtain rfl : _ = t := some.inj h
    exact ⟨_, _, rfl, by decide, by decide, by decide⟩
  | bool b =>
    obtain rfl : _ = t := some.inj h
    cases b <;> exact ⟨_, _, rfl, by decide, by decide, by decide⟩
  | int n =>
    rw [dumps] at h
    split at h
    · next hn =>
        obtain rfl : _ = t := some.inj h
        exact (scalarText_int floats hn).starts
    · exact absurd h (by simp)
  | float x =>
    obtain rfl : _ = t := some.inj h
    exact (scalarText_float hfloats x).starts
  | arr values | obj pairs =>
    obtain ⟨t', -, rfl⟩ := map_eq_some_iff.mp h
    exact ⟨_, _, rfl, by decide, by decide, by decide⟩

theorem skip_cons (s : PyStr) (h : isWhitespace c = false) : skip (c :: s) = c :: s := by
  simp [skip, h]

theorem Starts.skip (h : Starts s) (rest : PyStr) : skip (s ++ rest) = s ++ rest := by
  obtain ⟨c, tail, rfl, hc, -⟩ := h
  exact skip_cons _ hc

mutual

/-- The integers can be written, and the keys of each object are distinct. -/
def Regular : Json F → Prop
  | .int n => n.natAbs < intLimit
  | .arr values => RegularItems values
  | .obj pairs => (pairs.map (·.1)).Nodup ∧ RegularMembers pairs
  | _ => True

def RegularItems : List (Json F) → Prop
  | [] => True
  | v :: values => Regular v ∧ RegularItems values

def RegularMembers : List (PyStr × Json F) → Prop
  | [] => True
  | (_, v) :: pairs => Regular v ∧ RegularMembers pairs

end

theorem Starts.append (h : Starts s) (rest : PyStr) : Starts (s ++ rest) := by
  obtain ⟨c, tail, rfl, hc⟩ := h
  exact ⟨c, tail ++ rest, rfl, hc⟩

theorem Starts.length_pos (h : Starts s) : 0 < s.length := by
  obtain ⟨c, tail, rfl, -⟩ := h
  exact Nat.succ_pos _

theorem starts_quote (s rest : PyStr) : Starts (quote s ++ rest) :=
  ⟨_, _, quote_append s rest, by decide, by decide, by decide⟩

theorem starts_dumpsItems (hfloats : floats.Faithful) (h : dumpsItems floats (v :: values) = some t)
    :
    Starts t := by
  cases values with
  | nil => exact starts_dumps hfloats h
  | cons w values =>
    rw [dumpsItems] at h
    split at h
    · next t₁ t₂ h₁ h₂ =>
        obtain rfl := some.inj h
        exact (starts_dumps hfloats h₁).append _
    · exact absurd h (by simp)

theorem starts_dumpsMembers {m : PyStr × Json F} (h : dumpsMembers floats (m :: pairs) = some t) :
    ∃ rest, t = quote m.1 ++ code ':' :: rest := by
  cases pairs with
  | nil =>
    obtain ⟨t', -, rfl⟩ := map_eq_some_iff.mp h
    exact ⟨t', rfl⟩
  | cons m' pairs =>
    rw [dumpsMembers] at h
    split at h
    · next t₁ t₂ h₁ h₂ =>
        obtain rfl := some.inj h
        exact ⟨t₁ ++ code ',' :: t₂, by simp⟩
    · exact absurd h (by simp)

/-- The delimiters that `json.dumps` writes after a value. -/
theorem delimited_structural (s : PyStr) : Delimited (code ',' :: s) ∧ Delimited (code ']' :: s) ∧
    Delimited (code '}' :: s) :=
  ⟨delimited_cons s (by decide) (by decide) (by decide) (by decide),
    delimited_cons s (by decide) (by decide) (by decide) (by decide),
    delimited_cons s (by decide) (by decide) (by decide) (by decide)⟩

theorem items_last (h : value floats n s = .ok (v, code ']' :: rest) ) :
    items floats (n + 1) s = .ok ([v], rest) := by
  rw [items, h]
  simp only [skip_cons rest (show isWhitespace (code ']') = false by decide), if_true]

theorem items_more (h : value floats n s = .ok (v, code ',' :: t)) (hstarts : Starts t)
    (hrest : items floats n t = .ok (values, rest)) :
    items floats (n + 1) s = .ok (v :: values, rest) := by
  have hskip : skip t = t := by
    have := hstarts.skip []
    rwa [append_nil] at this
  rw [items, h]
  simp only [skip_cons t (show isWhitespace (code ',') = false by decide),
    if_neg (show code ',' ≠ code ']' by decide), if_true, hskip, hrest]

theorem members_key (hstarts : Starts s) (h : value floats n s = .ok (v, t)) :
    members floats (n + 1) (quote key ++ code ':' :: s) =
      match skip t with
      | [] => .error .decode
      | c :: rest =>
        if c = code '}' then .ok ([(key, v)], rest)
        else if c = code ',' then
          match members floats n (skip rest) with
          | .ok (pairs, rest) => .ok ((key, v) :: pairs, rest)
          | .error e => .error e
        else .error .decode := by
  have hskip : skip s = s := by
    have := hstarts.skip []
    rwa [append_nil] at this
  rw [quote_append, members]
  simp only [if_true, scanstring_quote, skip_cons s (show isWhitespace (code ':') = false by decide),
    hskip, h]
  try rfl

theorem members_last (hstarts : Starts s) (h : value floats n s = .ok (v, code '}' :: rest) ) :
    members floats (n + 1) (quote key ++ code ':' :: s) = .ok ([(key, v)], rest) := by
  rw [members_key hstarts h]
  simp only [skip_cons rest (show isWhitespace (code '}') = false by decide), if_true]

theorem members_more (hstarts : Starts s) (h : value floats n s = .ok (v, code ',' :: t))
    (hmore : Starts t) (hrest : members floats n t = .ok (pairs, rest)) :
    members floats (n + 1) (quote key ++ code ':' :: s) = .ok ((key, v) :: pairs, rest) := by
  have hskip : skip t = t := by
    have := hmore.skip []
    rwa [append_nil] at this
  rw [members_key hstarts h]
  simp only [skip_cons t (show isWhitespace (code ',') = false by decide),
    if_neg (show code ',' ≠ code '}' by decide), if_true, hskip, hrest]

theorem value_array (hstarts : Starts s) (h : items floats n s = .ok (values, rest)) :
    value floats (n + 1) (code '[' :: s) = .ok (.arr values, rest) := by
  have hskip : skip s = s := by
    have := hstarts.skip []
    rwa [append_nil] at this
  obtain ⟨c, tail, hs, -, hbracket, -⟩ := hstarts
  have hhead : ¬ s.head? = some (code ']') := by
    rw [hs]
    exact fun h => hbracket (some.inj h)
  rw [value]
  simp only [if_neg (show code '[' ≠ code '"' by decide), if_true, hskip, if_neg hhead, h]

theorem value_object (hs : s = quote key ++ tail) (h : members floats n s = .ok (pairs, rest)) :
    value floats (n + 1) (code '{' :: s) =
      .ok (.obj (pairs.foldl (fun d m => PyDict.set d m.1 m.2) []), rest) := by
  have hskip : skip s = s := by
    rw [hs, quote_append]
    exact skip_cons _ (by decide)
  have hhead : ¬ s.head? = some (code '}') := by
    rw [hs, quote_append]
    intro h
    exact absurd (some.inj h) (by decide)
  rw [value]
  simp only [if_neg (show code '{' ≠ code '"' by decide),
    if_neg (show code '{' ≠ code '[' by decide), if_true, hskip, if_neg hhead, h]

theorem ScalarText.read (h : ScalarText floats s v) (ht : some s = some t) (hn : 2 * t.length ≤ n)
    (hrest : Delimited rest) : Json.value floats n (t ++ rest) = .ok (v, rest) := by
  obtain rfl := some.inj ht
  have hpos := h.starts.length_pos
  obtain ⟨m, rfl⟩ : ∃ m, n = m + 1 := ⟨n - 1, by omega⟩
  exact h.value hrest m

mutual

theorem value_dumps (hfloats : floats.Faithful) :
    (v : Json F) → v.Regular → ∀ (t rest : PyStr) (n : ℕ), dumps floats v = some t →
      2 * t.length ≤ n → Delimited rest → value floats n (t ++ rest) = .ok (v, rest)
  | .null, _ => by
      intro t rest n ht hn hrest
      have hnull : ScalarText floats (text "null") .null :=
        scalarText_constant floats (by simp [constants])
      rw [dumps] at ht
      exact hnull.read ht hn hrest
  | .bool b, _ => by
      intro t rest n ht hn hrest
      have hbool : ScalarText floats (if b then text "true" else text "false") (.bool b) := by
        cases b <;> exact scalarText_constant floats (by simp [constants])
      rw [dumps] at ht
      exact hbool.read ht hn hrest
  | .int k, hv => by
      intro t rest n ht hn hrest
      have hk : k.natAbs < intLimit := hv
      rw [dumps, if_pos hk] at ht
      exact (scalarText_int floats hk).read ht hn hrest
  | .float x, _ => by
      intro t rest n ht hn hrest
      rw [dumps] at ht
      exact (scalarText_float hfloats x).read ht hn hrest
  | .str s, _ => by
      intro t rest n ht hn _
      obtain rfl : quote s = t := some.inj ht
      obtain ⟨m, rfl⟩ : ∃ m, n = m + 1 := ⟨n - 1, by simp [quote] at hn; omega⟩
      rw [quote_append, value, if_pos rfl, scanstring_quote]
  | .arr [], _ => by
      intro t rest n ht hn _
      obtain rfl : [code '[', code ']'] = t := some.inj ht
      obtain ⟨m, rfl⟩ : ∃ m, n = m + 1 := ⟨n - 1, by simp at hn; omega⟩
      rw [cons_append, singleton_append, value, if_neg (by decide), if_pos rfl,
        skip_cons rest (by decide)]
      rfl
  | .arr (v :: values), hv => by
      intro t rest n ht hn _
      obtain ⟨t', ht', rfl⟩ := map_eq_some_iff.mp ht
      simp only [length_append, length_cons, length_nil] at hn
      obtain ⟨m, rfl⟩ : ∃ m, n = m + 1 := ⟨n - 1, by omega⟩
      have hread := items_dumps hfloats (v :: values) (cons_ne_nil _ _) hv t' rest m ht'
        (by omega)
      have hstarts := (starts_dumpsItems hfloats ht').append (code ']' :: rest)
      rw [cons_append, cons_append, append_assoc, singleton_append]
      exact value_array hstarts hread
  | .obj [], _ => by
      intro t rest n ht hn _
      obtain rfl : [code '{', code '}'] = t := some.inj ht
      obtain ⟨m, rfl⟩ : ∃ m, n = m + 1 := ⟨n - 1, by simp at hn; omega⟩
      rw [cons_append, singleton_append, value, if_neg (by decide), if_neg (by decide),
        if_pos rfl, skip_cons rest (by decide)]
      rfl
  | .obj (m :: pairs), hv => by
      intro t rest n ht hn _
      obtain ⟨t', ht', rfl⟩ := map_eq_some_iff.mp ht
      simp only [length_append, length_cons, length_nil] at hn
      obtain ⟨k, rfl⟩ : ∃ k, n = k + 1 := ⟨n - 1, by omega⟩
      have hread := members_dumps hfloats (m :: pairs) (cons_ne_nil _ _) hv.2 t' rest k ht'
        (by omega)
      obtain ⟨tail, htail⟩ := starts_dumpsMembers ht'
      have hs : t' ++ code '}' :: rest = quote m.1 ++ (code ':' :: tail ++ code '}' :: rest) := by
        rw [htail, append_assoc]
      rw [cons_append, cons_append, append_assoc, singleton_append,
        value_object hs hread, PyDict.foldl_set (d := []) hv.1]
      rfl

theorem items_dumps (hfloats : floats.Faithful) :
    (values : List (Json F)) → values ≠ [] → RegularItems values →
      ∀ (t rest : PyStr) (n : ℕ), dumpsItems floats values = some t →
        2 * t.length < n → items floats n (t ++ code ']' :: rest) = .ok (values, rest)
  | [], hne, _ => absurd rfl hne
  | [v], _, hv => by
      intro t rest n ht hn
      obtain ⟨m, rfl⟩ : ∃ m, n = m + 1 := ⟨n - 1, by omega⟩
      exact items_last
        (value_dumps hfloats v hv.1 _ _ _ ht (by omega) (delimited_structural rest).2.1)
  | v :: w :: values, _, hv => by
      intro t rest n ht hn
      obtain ⟨m, rfl⟩ : ∃ m, n = m + 1 := ⟨n - 1, by omega⟩
      rw [dumpsItems] at ht
      split at ht
      · next t₁ t₂ h₁ h₂ =>
          obtain rfl := some.inj ht
          simp only [length_append, length_cons] at hn
          rw [append_assoc, cons_append]
          exact items_more
            (value_dumps hfloats v hv.1 _ _ _ h₁ (by omega) (delimited_structural _).1)
            ((starts_dumpsItems hfloats h₂).append _)
            (items_dumps hfloats (w :: values) (cons_ne_nil _ _) hv.2 _ _ _ h₂ (by omega))
      · exact absurd ht (by simp)

theorem members_dumps (hfloats : floats.Faithful) :
    (pairs : List (PyStr × Json F)) → pairs ≠ [] → RegularMembers pairs →
      ∀ (t rest : PyStr) (n : ℕ), dumpsMembers floats pairs = some t →
        2 * t.length < n → members floats n (t ++ code '}' :: rest) = .ok (pairs, rest)
  | [], hne, _ => absurd rfl hne
  | [(key, v)], _, hv => by
      intro t rest n ht hn
      obtain ⟨m, rfl⟩ : ∃ m, n = m + 1 := ⟨n - 1, by omega⟩
      obtain ⟨t₁, h₁, rfl⟩ := map_eq_some_iff.mp ht
      simp only [length_append, length_cons] at hn
      rw [append_assoc, cons_append]
      exact members_last ((starts_dumps hfloats h₁).append _)
        (value_dumps hfloats v hv.1 _ _ _ h₁ (by omega) (delimited_structural rest).2.2)
  | (key, v) :: m' :: pairs, _, hv => by
      intro t rest n ht hn
      obtain ⟨m, rfl⟩ : ∃ m, n = m + 1 := ⟨n - 1, by omega⟩
      rw [dumpsMembers] at ht
      split at ht
      · next t₁ t₂ h₁ h₂ =>
          obtain rfl := some.inj ht
          simp only [length_append, length_cons] at hn
          obtain ⟨tail, htail⟩ := starts_dumpsMembers h₂
          have hstarts : Starts (t₂ ++ code '}' :: rest) := by
            rw [htail, append_assoc]
            exact starts_quote _ _
          rw [show quote key ++ code ':' :: t₁ ++ code ',' :: t₂ ++ code '}' :: rest =
            quote key ++ code ':' :: (t₁ ++ code ',' :: (t₂ ++ code '}' :: rest)) by simp]
          exact members_more ((starts_dumps hfloats h₁).append _)
            (value_dumps hfloats v hv.1 _ _ _ h₁ (by omega) (delimited_structural _).1) hstarts
            (members_dumps hfloats (m' :: pairs) (cons_ne_nil _ _) hv.2 _ _ _ h₂ (by omega))
      · exact absurd ht (by simp)

end

/-- **Round trip.**  What `json.dumps` wrote is what `json.loads` returns. -/
theorem loads_dumps (hfloats : floats.Faithful) (hv : v.Regular) (ht : dumps floats v = some t) :
    loads floats t = .ok v := by
  have hread := value_dumps hfloats v hv t [] (2 * t.length + 2) ht (by omega) delimited_nil
  have hstarts := starts_dumps hfloats ht
  have hskip := hstarts.skip []
  rw [append_nil] at hread hskip
  unfold loads
  rw [hskip, hread, if_neg]
  · rfl
  · obtain ⟨c, tail, rfl, -, -, hascii⟩ := hstarts
    intro hbom
    rw [some.inj hbom] at hascii
    exact absurd hascii (by decide)

end Json
