import Mathlib.Data.Nat.Log
import Mathlib.Algebra.Order.Group.Unbundled.Int
import Mathlib.Algebra.Order.Ring.Int

/-!
# Whole numbers on their way through Lua

Lua has one kind of number, the double, and prints it with fourteen significant
digits.  A reader that keeps integers and floats apart gets an integer back
exactly when the printed text has no exponent.

* `roundDigits`: a number cut to its leading digits in a base, half to even.
* `double`, `printed`: the two roundings, at 53 binary and at 14 decimal digits.
* `throughLua_eq_int`: below `10 ^ 14` nothing happens to a number.
* `throughLua_eq_float`: from `10 ^ 14` on it comes back as a float.
-/

namespace GpuManager

/-! ## Rounding to leading digits -/

/-- `n` with its leading `digits` digits in `base`, rounded half to even. -/
def roundDigits (base digits n : ℕ) : ℕ :=
  let unit := base ^ (Nat.log base n + 1 - digits)
  let q := n / unit
  let r := n % unit
  if unit < 2 * r ∨ (2 * r = unit ∧ q % 2 = 1) then (q + 1) * unit else q * unit

section Rounding

variable {base digits n : ℕ}

/-- A number that has no more digits stays. -/
theorem roundDigits_of_lt (hn : n < base ^ digits) (hdigits : 0 < digits) :
    roundDigits base digits n = n := by
  have hlog : Nat.log base n + 1 - digits = 0 := by
    by_cases hzero : n = 0
    · subst hzero
      simp only [Nat.log_zero_right]
      omega
    · have := Nat.log_lt_of_lt_pow hzero hn
      omega
  unfold roundDigits
  simp [hlog, Nat.mod_one]

theorem le_roundDigits {k : ℕ} (hbase : 1 < base) (hdigits : 0 < digits) (hn : base ^ k ≤ n) :
    base ^ k ≤ roundDigits base digits n := by
  have hpos : 0 < base := by omega
  have hunit : 0 < base ^ (Nat.log base n + 1 - digits) := Nat.pow_pos hpos
  have hne : n ≠ 0 := fun h => by
    have := Nat.pow_pos (n := k) hpos
    omega
  have hlower : base ^ k ≤
      n / base ^ (Nat.log base n + 1 - digits) * base ^ (Nat.log base n + 1 - digits) := by
    rcases le_total (Nat.log base n + 1 - digits) k with hle | hle
    · have hsplit : base ^ k = base ^ (k - (Nat.log base n + 1 - digits)) *
          base ^ (Nat.log base n + 1 - digits) := by
        rw [← pow_add]
        congr 1
        omega
      rw [hsplit] at hn ⊢
      exact Nat.mul_le_mul_right _ ((Nat.le_div_iff_mul_le hunit).mpr hn)
    · have hle' : base ^ (Nat.log base n + 1 - digits) ≤ n :=
        (Nat.pow_le_pow_right hpos (by omega)).trans (Nat.pow_log_le_self base hne)
      calc base ^ k ≤ base ^ (Nat.log base n + 1 - digits) := Nat.pow_le_pow_right hpos hle
        _ ≤ _ := Nat.le_mul_of_pos_left _ (Nat.div_pos hle' hunit)
  unfold roundDigits
  dsimp only
  split
  · exact hlower.trans (Nat.mul_le_mul_right _ (Nat.le_succ _))
  · exact hlower

end Rounding

/-! ## Doubles -/

/-- The double nearest to a whole number; without a bound, see `fitsDouble`. -/
def double (n : ℤ) : ℤ := n.sign * roundDigits 2 53 n.natAbs

/-- Whether the number is in the range of doubles; beyond it Lua has `inf`. -/
def fitsDouble (n : ℤ) : Bool := decide ((double n).natAbs < 2 ^ 1024)

/-- A number as a reader holds it that keeps integers and floats apart.  All
floats here are whole. -/
inductive Number where
  | int (n : ℤ)
  | float (n : ℤ)
  deriving DecidableEq

namespace Number

/-- What the number is worth. -/
def value : Number → ℤ
  | int n => n
  | float n => n

@[simp] theorem value_int (n : ℤ) : (int n).value = n := rfl

/-- `x + k`: a float stays one. -/
def add : Number → ℤ → Number
  | int n, k => int (n + k)
  | float n, k => float (double (n + k))

@[simp] theorem int_add (n k : ℤ) : (int n).add k = int (n + k) := rfl

def least (x y : Number) : Number := if y.value < x.value then y else x

def greatest (x y : Number) : Number := if x.value < y.value then y else x

theorem le_greatest_right (x y : Number) : y.value ≤ (x.greatest y).value := by
  unfold greatest
  split
  · exact le_rfl
  · exact not_lt.mp ‹_›

/-- `int(text)` of the text of a number: the text of a float is refused. -/
def parsed : Number → Option ℤ
  | int n => some n
  | float _ => none

@[simp] theorem parsed_int (n : ℤ) : (int n).parsed = some n := rfl

end Number

/-- The first number that does not fit into the printed digits. -/
def printable : ℕ := 10 ^ 14

/-- A double printed with fourteen significant digits and read back: an exponent
makes a float of it. -/
def printed (d : ℤ) : Number :=
  if d.natAbs < printable then .int d
  else .float (double (d.sign * roundDigits 10 14 d.natAbs))

/-- A number decoded and printed by Lua, and read back. -/
def throughLua (n : ℤ) : Number := printed (double n)

theorem double_eq {n : ℤ} (hn : n.natAbs < 2 ^ 53) : double n = n := by
  unfold double
  rw [roundDigits_of_lt hn (by omega)]
  exact Int.sign_mul_natAbs n

theorem natAbs_double (n : ℤ) : (double n).natAbs = roundDigits 2 53 n.natAbs := by
  unfold double
  rw [Int.natAbs_mul, Int.natAbs_natCast]
  by_cases hzero : n = 0
  · subst hzero
    decide
  · rw [Int.natAbs_sign_of_ne_zero hzero, one_mul]

/-- A double is at least as large as a printable bound that its number reaches. -/
theorem printable_le_double {n : ℤ} (hn : printable ≤ n.natAbs) :
    printable ≤ (double n).natAbs := by
  by_cases hexact : n.natAbs < 2 ^ 53
  · rwa [double_eq hexact]
  rw [natAbs_double]
  have hpow : printable ≤ 2 ^ 53 := by decide
  exact hpow.trans (le_roundDigits (by omega) (by omega) (not_lt.mp hexact))

@[simp] theorem printed_of_lt {d : ℤ} (hd : d.natAbs < printable) : printed d = .int d :=
  if_pos hd

/-- Below the bound nothing happens to a number. -/
theorem throughLua_eq_int {n : ℤ} (hn : n.natAbs < printable) : throughLua n = .int n := by
  have hexact : n.natAbs < 2 ^ 53 := hn.trans (by decide)
  rw [throughLua, double_eq hexact, printed_of_lt hn]

@[simp] theorem throughLua_zero : throughLua 0 = .int 0 := throughLua_eq_int (by decide)

theorem throughLua_eq_float {n : ℤ} (hn : printable ≤ n.natAbs) :
    ∃ x, throughLua n = .float x :=
  ⟨_, if_neg (not_lt.mpr (printable_le_double hn))⟩

theorem throughLua_eq_int_iff {n : ℤ} : throughLua n = .int n ↔ n.natAbs < printable := by
  refine ⟨fun h => ?_, throughLua_eq_int⟩
  by_contra hn
  obtain ⟨x, hx⟩ := throughLua_eq_float (not_lt.mp hn)
  rw [hx] at h
  exact Number.noConfusion h

theorem printable_le_double_of_le {n : ℤ} (hn : (printable : ℤ) ≤ n) :
    (printable : ℤ) ≤ double n := by
  have hpos : 0 < n := lt_of_lt_of_le (by decide) hn
  have habs := @printable_le_double n (by omega)
  have hsign : 0 ≤ double n := by
    unfold double
    rw [Int.sign_eq_one_of_pos hpos, one_mul]
    exact Int.natCast_nonneg _
  omega

/-- A value does not sink below a printable one on its way through Lua. -/
theorem le_throughLua_value {v n : ℤ} (hlo : 0 ≤ v) (hv : v < printable) (hle : v ≤ n) :
    v ≤ (throughLua n).value := by
  by_cases hn : n.natAbs < printable
  · rwa [throughLua_eq_int hn, Number.value_int]
  have hn' : (printable : ℤ) ≤ n := by omega
  have hd := printable_le_double_of_le hn'
  have hpos : 0 < double n := lt_of_lt_of_le (by decide) hd
  have hdigits : (printable : ℤ) ≤ roundDigits 10 14 (double n).natAbs := by
    have := @le_roundDigits 10 14 (double n).natAbs 14 (by omega) (by omega)
      (by have : printable = 10 ^ 14 := rfl; omega)
    exact_mod_cast this
  unfold throughLua printed
  rw [if_neg (by omega), Int.sign_eq_one_of_pos hpos, one_mul]
  exact le_of_lt (hv.trans_le (printable_le_double_of_le hdigits))

end GpuManager
