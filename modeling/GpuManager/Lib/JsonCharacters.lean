import Mathlib.Data.List.TakeWhile
import GpuManager.Lib.JsonRoundTrip

/-!
# The values and the characters of JSON texts

Two facts about the values and the texts that the round trip relates.  Whatever `json.loads`
returns is regular, so that it can be written again (`regular_of_loads`, `dumps_isSome`).  And a
text is made of printable ASCII and of the characters of the strings: it has no control
character (`control_not_mem_dumps`), and a surrogate exactly when a string has one
(`encodable_iff`).
-/

namespace Json

open PyStr List Option Except Prod

variable {F : Type} {digits t : PyStr} {pairs : List (PyStr × Json F)}

/-! ## What was read -/

theorem regularMembers_iff :
    RegularMembers pairs ↔ ∀ m ∈ pairs, m.2.Regular := by
  induction pairs with
  | nil => simp [RegularMembers]
  | cons m pairs ih => simp [RegularMembers, ih]

variable {v : Json F} {negative : Bool} {floats : Floats F} {s rest : PyStr} {n : ℕ} {c : CodePoint}

theorem mem_set {d : PyDict PyStr (Json F)} {key : PyStr} {m : PyStr × Json F}
    (h : m ∈ PyDict.set d key v) : m ∈ d ∨ m = (key, v) := by
  unfold PyDict.set at h
  split at h
  · obtain ⟨e, he, rfl⟩ := mem_map.mp h
    split
    · exact Or.inr rfl
    · exact Or.inl he
  · simpa using h

theorem regular_foldl_set {d : List (PyStr × Json F)} (hpairs : RegularMembers pairs)
    (hnodup : (d.map (·.1)).Nodup) (hd : RegularMembers d) :
    (Json.obj (pairs.foldl (fun d m => PyDict.set d m.1 m.2) d)).Regular := by
  induction pairs generalizing d with
  | nil => exact ⟨hnodup, hd⟩
  | cons m pairs ih =>
    refine ih hpairs.2 (PyDict.nodup_set hnodup m.1 m.2) ?_
    rw [regularMembers_iff] at hd ⊢
    intro e he
    rcases mem_set he with he | rfl
    · exact hd e he
    · exact hpairs.1

theorem natOfDigits_lt (h : ∀ c ∈ digits, isDigit c = true) :
    natOfDigits digits < 10 ^ digits.length := by
  have hfold : ∀ (l : PyStr) (init : ℕ), (∀ c ∈ l, isDigit c = true) →
      l.foldl (fun n c => 10 * n + (c.val - 0x30)) init < (init + 1) * 10 ^ l.length := by
    intro l
    induction l with
    | nil => intro init _; simp
    | cons c l ih =>
      intro init h
      rw [forall_mem_cons] at h
      have hc : c.val - 0x30 ≤ 9 := by
        have := h.1
        simp only [isDigit, Bool.and_eq_true, decide_eq_true_eq] at this
        omega
      have hstep : 10 * init + (c.val - 0x30) + 1 ≤ (init + 1) * 10 := by omega
      rw [foldl_cons, length_cons, Nat.pow_succ, Nat.mul_comm (10 ^ l.length) 10,
        ← Nat.mul_assoc]
      exact (ih _ h.2).trans_le (Nat.mul_le_mul_right _ hstep)
  have hall := hfold digits 0 h
  rwa [Nat.zero_add, Nat.one_mul] at hall

theorem natAbs_intOfText {n : ℤ} (hdigits : ∀ c ∈ digits, isDigit c = true)
    (h : intOfText negative digits = .ok n) : n.natAbs < intLimit := by
  unfold intOfText at h
  split at h
  · exact absurd h (by simp)
  next hlength =>
    have hlt := natOfDigits_lt hdigits
    have hle : ∀ k, digits.length ≤ k → 10 ^ digits.length ≤ 10 ^ k := fun k hk =>
      Nat.pow_le_pow_right (by decide) hk
    have hn : n.natAbs = natOfDigits digits := by
      obtain rfl := ok.inj h
      cases negative <;> simp
    rw [hn, intLimit]
    exact hlt.trans_le (hle 4300 (not_lt.mp hlength))

theorem regular_numberEnd (hdigits : ∀ c ∈ digits, isDigit c = true)
    (h : numberEnd floats negative digits s = .ok (v, rest)) : v.Regular := by
  unfold numberEnd at h
  simp only at h
  split at h
  · split at h
    · next n hn =>
        obtain ⟨rfl, -⟩ := mk.inj (ok.inj h)
        exact natAbs_intOfText hdigits hn
    · exact absurd h (by simp)
  · obtain ⟨rfl, -⟩ := mk.inj (ok.inj h)
    trivial

theorem regular_unsigned (h : unsigned floats negative s = .ok (v, rest)) : v.Regular := by
  rcases s with _ | ⟨c, s⟩
  · exact absurd h (by simp [unsigned])
  rw [unsigned] at h
  split at h
  · next hc =>
      refine regular_numberEnd (fun d hd => ?_) h
      rw [mem_singleton.mp hd, hc]
      decide
  · split at h
    · next hc =>
        refine regular_numberEnd (forall_mem_cons.mpr ⟨hc, fun d hd => ?_⟩) h
        exact mem_takeWhile_imp hd
    · exact absurd h (by simp)

theorem regular_scalar (h : scalar floats s = .ok (v, rest)) : v.Regular := by
  unfold scalar at h
  split at h
  · next r hr =>
      obtain rfl := ok.inj h
      obtain ⟨c, hc, hfound⟩ := exists_of_findSome?_eq_some hr
      obtain ⟨rest', -, hv⟩ := map_eq_some_iff.mp hfound
      obtain ⟨rfl, -⟩ := mk.inj hv
      simp only [constants, mem_cons, not_mem_nil, or_false] at hc
      rcases hc with rfl | rfl | rfl | rfl | rfl | rfl <;> trivial
  · rcases s with _ | ⟨c, s⟩
    · exact absurd h (by simp [number])
    rw [number] at h
    split at h
    · exact regular_unsigned h
    · exact regular_unsigned h

def ReadsRegular (floats : Floats F) (n : ℕ) : Prop :=
  (∀ s v rest, value floats n s = .ok (v, rest) → v.Regular) ∧
    (∀ s values rest, items floats n s = .ok (values, rest) → RegularItems values) ∧
    ∀ s pairs rest, members floats n s = .ok (pairs, rest) → RegularMembers pairs

theorem regular_value_succ (ih : ReadsRegular floats n) (h : value floats (n + 1) s = .ok (v, rest))
    : v.Regular := by
  rcases s with _ | ⟨c, s⟩
  · exact absurd h (by simp [value])
  rw [value] at h
  split_ifs at h
  · split at h
    · obtain ⟨rfl, -⟩ := mk.inj (ok.inj h)
      trivial
    · exact absurd h (by simp)
  · obtain ⟨rfl, -⟩ := mk.inj (ok.inj h)
    trivial
  · split at h
    · next values t hread =>
        obtain ⟨rfl, -⟩ := mk.inj (ok.inj h)
        exact ih.2.1 _ _ _ hread
    · exact absurd h (by simp)
  · obtain ⟨rfl, -⟩ := mk.inj (ok.inj h)
    exact ⟨nodup_nil, trivial⟩
  · split at h
    · next pairs t hread =>
        obtain ⟨rfl, -⟩ := mk.inj (ok.inj h)
        exact regular_foldl_set (ih.2.2 _ _ _ hread) nodup_nil trivial
    · exact absurd h (by simp)
  · exact regular_scalar h

theorem regular_items_succ (ih : ReadsRegular floats n) {values : List (Json F)}
    (h : items floats (n + 1) s = .ok (values, rest)) : RegularItems values := by
  rw [items] at h
  split at h
  · exact absurd h (by simp)
  next v t hv =>
    have hregular := ih.1 _ _ _ hv
    split at h
    · exact absurd h (by simp)
    split_ifs at h
    · obtain ⟨rfl, -⟩ := mk.inj (ok.inj h)
      exact ⟨hregular, trivial⟩
    split at h
    · next values t' hread =>
        obtain ⟨rfl, -⟩ := mk.inj (ok.inj h)
        exact ⟨hregular, ih.2.1 _ _ _ hread⟩
    · exact absurd h (by simp)

theorem regular_members_succ (ih : ReadsRegular floats n)
    (h : members floats (n + 1) s = .ok (pairs, rest)) : RegularMembers pairs := by
  rcases s with _ | ⟨q, s⟩
  · exact absurd h (by simp [members])
  rw [members] at h
  split_ifs at h
  split at h
  · exact absurd h (by simp)
  split at h
  · exact absurd h (by simp)
  split_ifs at h
  split at h
  · exact absurd h (by simp)
  next v t hv =>
    have hregular := ih.1 _ _ _ hv
    split at h
    · exact absurd h (by simp)
    split_ifs at h
    · obtain ⟨rfl, -⟩ := mk.inj (ok.inj h)
      exact ⟨hregular, trivial⟩
    split at h
    · next pairs t' hread =>
        obtain ⟨rfl, -⟩ := mk.inj (ok.inj h)
        exact ⟨hregular, ih.2.2 _ _ _ hread⟩
    · exact absurd h (by simp)

theorem readsRegular (floats : Floats F) (n : ℕ) : ReadsRegular floats n := by
  induction n with
  | zero =>
    refine ⟨fun s v rest h => ?_, fun s values rest h => ?_, fun s pairs rest h => ?_⟩
    · exact absurd h (by simp [value])
    · exact absurd h (by simp [items])
    · exact absurd h (by simp [members])
  | succ n ih =>
    exact ⟨fun s v rest => regular_value_succ ih, fun s values rest => regular_items_succ ih,
      fun s pairs rest => regular_members_succ ih⟩

/-- Whatever `json.loads` returns can be written again, unless it has surrogates. -/
theorem regular_of_loads (h : loads floats s = .ok v) : v.Regular := by
  unfold loads at h
  split_ifs at h
  split at h
  · next w rest hread =>
      split_ifs at h
      obtain rfl := ok.inj h
      exact (readsRegular floats _).1 _ _ _ hread
  · exact absurd h (by simp)

/-! ## The characters of a text -/

/-- A printable ASCII character. -/
def Printable (c : CodePoint) : Prop := 0x20 ≤ c.val ∧ c.val < 0x7f

instance (c : CodePoint) : Decidable (Printable c) :=
  inferInstanceAs (Decidable (_ ∧ _))

theorem printable_of_all (hs : (s.all fun c => decide (Printable c)) = true) (hc : c ∈ s) :
    Printable c :=
  of_decide_eq_true (all_eq_true.mp hs c hc)

theorem printable_of_isDigit (h : isDigit c = true) : Printable c := by
  simp only [isDigit, Bool.and_eq_true, decide_eq_true_eq] at h
  exact ⟨by omega, by omega⟩

theorem printable_hexDigit (h : n < 16) : Printable (hexDigit n) := by
  unfold Printable hexDigit
  simp only
  split <;> omega

/-- The escape of a character is printable, or the character. -/
theorem mem_escape {d : CodePoint} (h : d ∈ escape c) : Printable d ∨ d = c ∧ 0x20 ≤ c.val := by
  have hpair : ∀ e, Printable e → d ∈ [code '\\', e] → Printable d := by
    intro e he hd
    simp only [mem_cons, not_mem_nil, or_false] at hd
    rcases hd with rfl | rfl
    · exact ⟨by decide, by decide⟩
    · exact he
  unfold escape at h
  split_ifs at h with h1 h2 h3 h4 h5 h6 h7 h8
  · exact Or.inl (hpair _ ⟨by decide, by decide⟩ h)
  · exact Or.inl (hpair _ ⟨by decide, by decide⟩ h)
  · exact Or.inl (hpair _ ⟨by decide, by decide⟩ h)
  · exact Or.inl (hpair _ ⟨by decide, by decide⟩ h)
  · exact Or.inl (hpair _ ⟨by decide, by decide⟩ h)
  · exact Or.inl (hpair _ ⟨by decide, by decide⟩ h)
  · exact Or.inl (hpair _ ⟨by decide, by decide⟩ h)
  · simp only [mem_cons, not_mem_nil, or_false] at h
    rcases h with rfl | rfl | rfl | rfl | rfl | rfl
    · exact Or.inl ⟨by decide, by decide⟩
    · exact Or.inl ⟨by decide, by decide⟩
    · exact Or.inl ⟨by decide, by decide⟩
    · exact Or.inl ⟨by decide, by decide⟩
    · exact Or.inl (printable_hexDigit (by omega))
    · exact Or.inl (printable_hexDigit (by omega))
  · exact Or.inr ⟨mem_singleton.mp h, not_lt.mp h8⟩

theorem mem_quote (h : c ∈ quote s) : Printable c ∨ c ∈ s ∧ 0x20 ≤ c.val := by
  simp only [quote, cons_append, mem_cons, mem_append, not_mem_nil,
    or_false, mem_flatMap] at h
  rcases h with rfl | ⟨d, hd, hc⟩ | rfl
  · exact Or.inl ⟨by decide, by decide⟩
  · rcases mem_escape hc with h | ⟨rfl, h⟩
    · exact Or.inl h
    · exact Or.inr ⟨hd, h⟩
  · exact Or.inl ⟨by decide, by decide⟩

/-- A character outside ASCII is written as it is. -/
theorem mem_quote_of_mem (hc : c ∈ s) (hascii : 0x80 ≤ c.val) : c ∈ quote s := by
  have hne : ∀ d : Char, (code d).val < 0x80 → c ≠ code d := by
    rintro d hd rfl
    omega
  have hescape : c ∈ escape c := by
    unfold escape
    rw [if_neg (hne _ (by decide)), if_neg (hne _ (by decide)), if_neg (hne _ (by decide)),
      if_neg (hne _ (by decide)), if_neg (hne _ (by decide)), if_neg (by omega),
      if_neg (by omega), if_neg (by omega)]
    exact mem_singleton_self c
  simp only [quote, cons_append, mem_cons, mem_append, mem_flatMap]
  exact Or.inr (Or.inl ⟨c, hc, hescape⟩)

theorem printable_natText (h : c ∈ natText n) : Printable c :=
  printable_of_isDigit (isDigit_natText h)

theorem printable_sign (h : c ∈ if negative then [code '-'] else []) : Printable c := by
  cases negative with
  | false => exact absurd h not_mem_nil
  | true =>
    rw [mem_singleton.mp h]
    exact ⟨by decide, by decide⟩

theorem printable_intText {n : ℤ} (h : c ∈ intText n) : Printable c := by
  rcases mem_append.mp h with h | h
  · have hsign : c ∈ if decide (n < 0) = true then [code '-'] else [] := by simpa using h
    exact printable_sign hsign
  · exact printable_natText h

theorem printable_finiteText (hs : FiniteText s) (h : c ∈ s) : Printable c := by
  obtain ⟨negative, digits, frac, exp, hdigits, hfrac, hexp, -, rfl⟩ := hs
  simp only [mem_append] at h
  rcases h with ((h | h) | h) | h
  · exact printable_sign h
  · rcases hdigits with rfl | ⟨d, ds, rfl, -, hds⟩
    · rw [mem_singleton.mp h]
      exact ⟨by decide, by decide⟩
    · exact printable_of_isDigit (hds c h)
  · rcases hfrac with rfl | ⟨d, ds, rfl, hds⟩
    · exact absurd h not_mem_nil
    rcases mem_cons.mp h with rfl | h
    · exact ⟨by decide, by decide⟩
    · exact printable_of_isDigit (hds c h)
  · rcases hexp with rfl | ⟨sign, d, ds, rfl, hsign, hds⟩
    · exact absurd h not_mem_nil
    rcases mem_cons.mp h with rfl | h
    · exact ⟨by decide, by decide⟩
    rcases mem_cons.mp h with rfl | h
    · rcases hsign with rfl | rfl <;> exact ⟨by decide, by decide⟩
    · exact printable_of_isDigit (hds c h)

theorem printable_text (hfloats : floats.Faithful) {x : F} (h : c ∈ floats.text x) :
    Printable c := by
  rcases hfloats x with ⟨hx, -⟩ | ⟨hx, -⟩ | ⟨hx, -⟩ | ⟨hx, -⟩
  · exact printable_of_all (by decide) (hx ▸ h)
  · exact printable_of_all (by decide) (hx ▸ h)
  · exact printable_of_all (by decide) (hx ▸ h)
  · exact printable_finiteText hx h

/-- A character of a text: printable, or one of a string of the value. -/
def Written (strings : List PyStr) (c : CodePoint) : Prop :=
  Printable c ∨ ∃ s ∈ strings, c ∈ s ∧ 0x20 ≤ c.val

theorem Written.mono {strings strings' : List PyStr} (h : Written strings c)
    (hsub : ∀ s ∈ strings, s ∈ strings') : Written strings' c := by
  rcases h with h | ⟨s, hs, hc⟩
  · exact Or.inl h
  · exact Or.inr ⟨s, hsub s hs, hc⟩

theorem written_quote {strings : List PyStr} (hs : s ∈ strings) (h : c ∈ quote s) :
    Written strings c :=
  (mem_quote h).imp id fun hc => ⟨s, hs, hc⟩

mutual

theorem written_dumps (hfloats : floats.Faithful) :
    (v : Json F) → ∀ (t : PyStr), dumps floats v = some t → ∀ c ∈ t, Written (strings v) c
  | .null => by
      intro t ht c hc
      obtain rfl : text "null" = t := some.inj ht
      exact Or.inl (printable_of_all (by decide) hc)
  | .bool b => by
      intro t ht c hc
      obtain rfl : (if b then text "true" else text "false") = t := some.inj ht
      cases b <;> exact Or.inl (printable_of_all (by decide) hc)
  | .int n => by
      intro t ht c hc
      rw [dumps] at ht
      split at ht
      · obtain rfl := some.inj ht
        exact Or.inl (printable_intText hc)
      · exact absurd ht (by simp)
  | .float x => by
      intro t ht c hc
      obtain rfl : floats.text x = t := some.inj ht
      exact Or.inl (printable_text hfloats hc)
  | .str s => by
      intro t ht c hc
      obtain rfl : quote s = t := some.inj ht
      exact written_quote mem_cons_self hc
  | .arr values => by
      intro t ht c hc
      obtain ⟨t', ht', rfl⟩ := map_eq_some_iff.mp ht
      simp only [mem_append, mem_cons, not_mem_nil, or_false] at hc
      rcases hc with (rfl | hc) | rfl
      · exact Or.inl ⟨by decide, by decide⟩
      · exact written_dumpsItems hfloats values t' ht' c hc
      · exact Or.inl ⟨by decide, by decide⟩
  | .obj pairs => by
      intro t ht c hc
      obtain ⟨t', ht', rfl⟩ := map_eq_some_iff.mp ht
      simp only [mem_append, mem_cons, not_mem_nil, or_false] at hc
      rcases hc with (rfl | hc) | rfl
      · exact Or.inl ⟨by decide, by decide⟩
      · exact written_dumpsMembers hfloats pairs t' ht' c hc
      · exact Or.inl ⟨by decide, by decide⟩

theorem written_dumpsItems (hfloats : floats.Faithful) :
    (values : List (Json F)) → ∀ (t : PyStr), dumpsItems floats values = some t →
      ∀ c ∈ t, Written (stringsOfItems values) c
  | [] => by
      intro t ht c hc
      obtain rfl : [] = t := some.inj ht
      exact absurd hc not_mem_nil
  | [v] => by
      intro t ht c hc
      exact (written_dumps hfloats v t ht c hc).mono fun s hs => mem_append_left _ hs
  | v :: w :: values => by
      intro t ht c hc
      rw [dumpsItems] at ht
      split at ht
      · next t₁ t₂ h₁ h₂ =>
          obtain rfl := some.inj ht
          simp only [mem_append, mem_cons] at hc
          rcases hc with hc | rfl | hc
          · exact (written_dumps hfloats v t₁ h₁ c hc).mono fun s hs => mem_append_left _ hs
          · exact Or.inl ⟨by decide, by decide⟩
          · exact (written_dumpsItems hfloats (w :: values) t₂ h₂ c hc).mono fun s hs =>
              mem_append_right _ hs
      · exact absurd ht (by simp)

theorem written_dumpsMembers (hfloats : floats.Faithful) :
    (pairs : List (PyStr × Json F)) → ∀ (t : PyStr), dumpsMembers floats pairs = some t →
      ∀ c ∈ t, Written (stringsOfMembers pairs) c
  | [] => by
      intro t ht c hc
      obtain rfl : [] = t := some.inj ht
      exact absurd hc not_mem_nil
  | [(key, v)] => by
      intro t ht c hc
      obtain ⟨t₁, h₁, rfl⟩ := map_eq_some_iff.mp ht
      simp only [mem_append, mem_cons] at hc
      rcases hc with hc | rfl | hc
      · exact written_quote mem_cons_self hc
      · exact Or.inl ⟨by decide, by decide⟩
      · exact (written_dumps hfloats v t₁ h₁ c hc).mono fun s hs =>
          mem_append_left _ (mem_cons_of_mem _ hs)
  | (key, v) :: m :: pairs => by
      intro t ht c hc
      rw [dumpsMembers] at ht
      split at ht
      · next t₁ t₂ h₁ h₂ =>
          obtain rfl := some.inj ht
          simp only [mem_append, mem_cons] at hc
          rcases hc with (hc | rfl | hc) | rfl | hc
          · exact written_quote mem_cons_self hc
          · exact Or.inl ⟨by decide, by decide⟩
          · exact (written_dumps hfloats v t₁ h₁ c hc).mono fun s hs =>
              mem_append_left _ (mem_cons_of_mem _ hs)
          · exact Or.inl ⟨by decide, by decide⟩
          · exact (written_dumpsMembers hfloats (m :: pairs) t₂ h₂ c hc).mono fun s hs =>
              mem_append_right _ hs
      · exact absurd ht (by simp)

end

mutual

/-- A character outside ASCII of a string stands in the text. -/
theorem mem_dumps_of_mem :
    (v : Json F) → ∀ (t : PyStr), dumps floats v = some t → ∀ s ∈ strings v, ∀ c ∈ s,
      0x80 ≤ c.val → c ∈ t
  | .null => fun _ _ _ hs => absurd hs not_mem_nil
  | .bool _ => fun _ _ _ hs => absurd hs not_mem_nil
  | .int _ => fun _ _ _ hs => absurd hs not_mem_nil
  | .float _ => fun _ _ _ hs => absurd hs not_mem_nil
  | .str text => by
      intro t ht s hs c hc hascii
      obtain rfl : quote text = t := some.inj ht
      obtain rfl : s = text := mem_singleton.mp hs
      exact mem_quote_of_mem hc hascii
  | .arr values => by
      intro t ht s hs c hc hascii
      obtain ⟨t', ht', rfl⟩ := map_eq_some_iff.mp ht
      have := mem_dumpsItems_of_mem values t' ht' s hs c hc hascii
      simp [this]
  | .obj pairs => by
      intro t ht s hs c hc hascii
      obtain ⟨t', ht', rfl⟩ := map_eq_some_iff.mp ht
      have := mem_dumpsMembers_of_mem pairs t' ht' s hs c hc hascii
      simp [this]

theorem mem_dumpsItems_of_mem :
    (values : List (Json F)) → ∀ (t : PyStr), dumpsItems floats values = some t →
      ∀ s ∈ stringsOfItems values, ∀ c ∈ s, 0x80 ≤ c.val → c ∈ t
  | [] => fun _ _ _ hs => absurd hs not_mem_nil
  | [v] => by
      intro t ht s hs c hc hascii
      rcases mem_append.mp hs with hs | hs
      · exact mem_dumps_of_mem v t ht s hs c hc hascii
      · exact absurd hs not_mem_nil
  | v :: w :: values => by
      intro t ht s hs c hc hascii
      rw [dumpsItems] at ht
      split at ht
      · next t₁ t₂ h₁ h₂ =>
          obtain rfl := some.inj ht
          rcases mem_append.mp hs with hs | hs
          · exact mem_append_left _ (mem_dumps_of_mem v t₁ h₁ s hs c hc hascii)
          · exact mem_append_right _ (mem_cons_of_mem _
              (mem_dumpsItems_of_mem (w :: values) t₂ h₂ s hs c hc hascii))
      · exact absurd ht (by simp)

theorem mem_dumpsMembers_of_mem :
    (pairs : List (PyStr × Json F)) → ∀ (t : PyStr), dumpsMembers floats pairs = some t →
      ∀ s ∈ stringsOfMembers pairs, ∀ c ∈ s, 0x80 ≤ c.val → c ∈ t
  | [] => fun _ _ _ hs => absurd hs not_mem_nil
  | [(key, v)] => by
      intro t ht s hs c hc hascii
      obtain ⟨t₁, h₁, rfl⟩ := map_eq_some_iff.mp ht
      simp only [stringsOfMembers, append_nil, mem_cons] at hs
      rcases hs with rfl | hs
      · exact mem_append_left _ (mem_quote_of_mem hc hascii)
      · exact mem_append_right _ (mem_cons_of_mem _
          (mem_dumps_of_mem v t₁ h₁ s hs c hc hascii))
  | (key, v) :: m :: pairs => by
      intro t ht s hs c hc hascii
      rw [dumpsMembers] at ht
      split at ht
      · next t₁ t₂ h₁ h₂ =>
          obtain rfl := some.inj ht
          rcases mem_append.mp hs with hs | hs
          · refine mem_append_left _ ?_
            rcases mem_cons.mp hs with rfl | hs
            · exact mem_append_left _ (mem_quote_of_mem hc hascii)
            · exact mem_append_right _ (mem_cons_of_mem _
                (mem_dumps_of_mem v t₁ h₁ s hs c hc hascii))
          · exact mem_append_right _ (mem_cons_of_mem _
              (mem_dumpsMembers_of_mem (m :: pairs) t₂ h₂ s hs c hc hascii))
      · exact absurd ht (by simp)

end

def Encodable (v : Json F) : Prop := ∀ s ∈ strings v, ∀ c ∈ s, isSurrogate c = false

theorem isSurrogate_iff : isSurrogate c = true ↔ 0xD800 ≤ c.val ∧ c.val ≤ 0xDFFF := by
  simp only [isSurrogate, isHigh, isLow, Bool.or_eq_true, Bool.and_eq_true, decide_eq_true_eq]
  omega

/-- The text has a surrogate exactly when a string of the value has one. -/
theorem encodable_iff (hfloats : floats.Faithful) (ht : dumps floats v = some t) :
    (∀ c ∈ t, isSurrogate c = false) ↔ v.Encodable := by
  constructor
  · intro h s hs c hc
    by_contra hsurrogate
    rw [Bool.not_eq_false] at hsurrogate
    have hrange := isSurrogate_iff.mp hsurrogate
    have hmem := mem_dumps_of_mem v t ht s hs c hc (by omega)
    rw [h c hmem] at hsurrogate
    exact absurd hsurrogate (by decide)
  · intro h c hc
    rcases written_dumps hfloats v t ht c hc with hprintable | ⟨s, hs, hcs, -⟩
    · by_contra hsurrogate
      rw [Bool.not_eq_false] at hsurrogate
      have hrange := isSurrogate_iff.mp hsurrogate
      have hascii := hprintable.2
      omega
    · exact h s hs c hcs

theorem control_not_mem_dumps (hfloats : floats.Faithful) (ht : dumps floats v = some t)
    (hc : c ∈ t) : 0x20 ≤ c.val := by
  rcases written_dumps hfloats v t ht c hc with hprintable | ⟨s, -, -, hcontrol⟩
  · exact hprintable.1
  · exact hcontrol

mutual

theorem dumps_isSome : (v : Json F) → v.Regular → (dumps floats v).isSome
  | .null, _ => rfl
  | .bool _, _ => rfl
  | .int n, h => by
      have hn : n.natAbs < intLimit := h
      rw [dumps, if_pos hn]
      rfl
  | .float _, _ => rfl
  | .str _, _ => rfl
  | .arr values, h => by
      rw [dumps, isSome_map]
      exact dumpsItems_isSome values h
  | .obj pairs, h => by
      rw [dumps, isSome_map]
      exact dumpsMembers_isSome pairs h.2

theorem dumpsItems_isSome :
    (values : List (Json F)) → RegularItems values → (dumpsItems floats values).isSome
  | [], _ => rfl
  | [v], h => dumps_isSome v h.1
  | v :: w :: values, h => by
      have hitem : (dumps floats v).isSome := dumps_isSome v h.1
      have hitems : (dumpsItems floats (w :: values)).isSome := dumpsItems_isSome (w :: values) h.2
      obtain ⟨t, ht⟩ := isSome_iff_exists.mp hitem
      obtain ⟨t', ht'⟩ := isSome_iff_exists.mp hitems
      rw [dumpsItems, ht, ht']
      rfl

theorem dumpsMembers_isSome :
    (pairs : List (PyStr × Json F)) → RegularMembers pairs → (dumpsMembers floats pairs).isSome
  | [], _ => rfl
  | [(key, v)], h => by
      rw [dumpsMembers, isSome_map]
      exact dumps_isSome v h.1
  | (key, v) :: m :: pairs, h => by
      have hmember : (dumps floats v).isSome := dumps_isSome v h.1
      have hmembers : (dumpsMembers floats (m :: pairs)).isSome :=
        dumpsMembers_isSome (m :: pairs) h.2
      obtain ⟨t, ht⟩ := isSome_iff_exists.mp hmember
      obtain ⟨t', ht'⟩ := isSome_iff_exists.mp hmembers
      rw [dumpsMembers, ht, ht']
      rfl

end

end Json
