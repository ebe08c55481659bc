import Mathlib.Tactic.Common
import GpuManager.Lib.JsonFile

/-!
# UTF-8 as Python writes and reads it

`str.encode("utf-8")` raises for a surrogate.  `bytes.decode("utf-8", errors="replace")` never
raises: each longest run of bytes that starts a character without completing it becomes one
replacement character.

* `step`: the decoder reads one byte.
* `lf_mem_encode`: the encoding adds no line feed.
-/

abbrev Byte := Fin 256

namespace Utf8

open List

/-- `U+FFFD`. -/
def replacement : CodePoint := ⟨0xFFFD, by decide⟩

def byte (n : ℕ) : Byte := ⟨n % 256, Nat.mod_lt _ (by decide)⟩

def point (n : ℕ) : CodePoint := ⟨n % 0x110000, Nat.mod_lt _ (by decide)⟩

def encodePoint (c : CodePoint) : List Byte :=
  if c.val < 0x80 then [byte c.val]
  else if c.val < 0x800 then [byte (0xC0 + c.val / 64), byte (0x80 + c.val % 64)]
  else if c.val < 0x10000 then
    [byte (0xE0 + c.val / 4096), byte (0x80 + c.val / 64 % 64), byte (0x80 + c.val % 64)]
  else
    [byte (0xF0 + c.val / 262144), byte (0x80 + c.val / 4096 % 64),
      byte (0x80 + c.val / 64 % 64), byte (0x80 + c.val % 64)]

def encode (s : PyStr) : Option (List Byte) :=
  if s.any Json.isSurrogate then none else some (s.flatMap encodePoint)

/-- A character of which some bytes were read: how many are missing, the range of the next
one, and the bits so far. -/
structure Pending where
  need : ℕ
  low : ℕ
  high : ℕ
  bits : ℕ

def lead (b : Byte) : Option Pending :=
  if 0xC2 ≤ b.val ∧ b.val ≤ 0xDF then some ⟨1, 0x80, 0xBF, b.val % 32⟩
  else if b.val = 0xE0 then some ⟨2, 0xA0, 0xBF, 0⟩
  else if b.val = 0xED then some ⟨2, 0x80, 0x9F, 0xD⟩
  else if 0xE1 ≤ b.val ∧ b.val ≤ 0xEF then some ⟨2, 0x80, 0xBF, b.val % 16⟩
  else if b.val = 0xF0 then some ⟨3, 0x90, 0xBF, 0⟩
  else if b.val = 0xF4 then some ⟨3, 0x80, 0x8F, 4⟩
  else if 0xF1 ≤ b.val ∧ b.val ≤ 0xF3 then some ⟨3, 0x80, 0xBF, b.val % 8⟩
  else none

/-- A byte between two characters. -/
def first (b : Byte) : PyStr × Option Pending :=
  if b.val < 0x80 then ([point b.val], none)
  else
    match lead b with
    | some p => ([], some p)
    | none => ([replacement], none)

/-- What a byte adds to the text, and what is pending after it.  A byte out of range ends the
pending character and is read again as a first one. -/
def step (state : Option Pending) (b : Byte) : PyStr × Option Pending :=
  match state with
  | none => first b
  | some p =>
    if p.low ≤ b.val ∧ b.val ≤ p.high then
      if p.need ≤ 1 then ([point (p.bits * 64 + b.val % 64)], none)
      else ([], some ⟨p.need - 1, 0x80, 0xBF, p.bits * 64 + b.val % 64⟩)
    else (replacement :: (first b).1, (first b).2)

def decodeFrom : Option Pending → List Byte → PyStr
  | none, [] => []
  | some _, [] => [replacement]
  | state, b :: rest => (step state b).1 ++ decodeFrom (step state b).2 rest

def decode (bytes : List Byte) : PyStr := decodeFrom none bytes

theorem decodeFrom_cons (state : Option Pending) (b : Byte) (rest : List Byte) :
    decodeFrom state (b :: rest) = (step state b).1 ++ decodeFrom (step state b).2 rest := by
  cases state <;> rfl

theorem point_val (c : CodePoint) : point c.val = c :=
  Fin.ext (Nat.mod_eq_of_lt c.isLt)

@[simp]
theorem byte_val (n : ℕ) : (byte n).val = n % 256 := rfl

variable {bits high low n : ℕ}

theorem byte_of_lt (h : n < 256) : (byte n).val = n := Nat.mod_eq_of_lt h

variable {b : Byte} {c : CodePoint} {s : PyStr}

/-- A continuation byte in range completes the character. -/
theorem decodeFrom_last (hlow : low ≤ b.val) (hhigh : b.val ≤ high) (rest : List Byte) :
    decodeFrom (some ⟨1, low, high, bits⟩) (b :: rest) =
      point (bits * 64 + b.val % 64) :: decodeFrom none rest := by
  simp [decodeFrom, step, hlow, hhigh]

/-- A continuation byte in range, with more to come. -/
theorem decodeFrom_more {need : ℕ} (hlow : low ≤ b.val) (hhigh : b.val ≤ high) (rest : List Byte) :
    decodeFrom (some ⟨need + 2, low, high, bits⟩) (b :: rest) =
      decodeFrom (some ⟨need + 1, 0x80, 0xBF, bits * 64 + b.val % 64⟩) rest := by
  simp [decodeFrom, step, hlow, hhigh]

theorem decodeFrom_lead {p : Pending} (hb : 0x80 ≤ b.val) (hlead : lead b = some p)
    (rest : List Byte) : decodeFrom none (b :: rest) = decodeFrom (some p) rest := by
  simp [decodeFrom, step, first, not_lt.mpr hb, hlead]

theorem lead_two (hb : b.val = 0xC0 + n) (hn : 2 ≤ n) (hn' : n < 32) :
    lead b = some ⟨1, 0x80, 0xBF, n⟩ := by
  unfold lead
  rw [hb, if_pos (by omega), show (0xC0 + n) % 32 = n by omega]

/-- The second of three bytes is in the range that the first one sets. -/
theorem lead_three (hb : b.val = 0xE0 + n / 4096) (hn : 0x800 ≤ n)
    (hn' : n < 0x10000) (hsurrogate : n < 0xD800 ∨ 0xDFFF < n) :
    ∃ low high, lead b = some ⟨2, low, high, n / 4096⟩ ∧
      low ≤ 0x80 + n / 64 % 64 ∧ 0x80 + n / 64 % 64 ≤ high := by
  unfold lead
  rw [hb, if_neg (by omega)]
  split_ifs with h1 h2 h3
  · exact ⟨0xA0, 0xBF, by rw [show n / 4096 = 0 by omega], by omega, by omega⟩
  · exact ⟨0x80, 0x9F, by rw [show n / 4096 = 0xD by omega], by omega, by omega⟩
  · exact ⟨0x80, 0xBF, by rw [show (0xE0 + n / 4096) % 16 = n / 4096 by omega], by omega, by omega⟩
  all_goals omega

/-- The second of four bytes is in the range that the first one sets. -/
theorem lead_four (hb : b.val = 0xF0 + n / 262144) (hn : 0x10000 ≤ n) (hn' : n < 0x110000) :
    ∃ low high, lead b = some ⟨3, low, high, n / 262144⟩ ∧
      low ≤ 0x80 + n / 4096 % 64 ∧ 0x80 + n / 4096 % 64 ≤ high := by
  unfold lead
  rw [hb, if_neg (by omega), if_neg (by omega), if_neg (by omega), if_neg (by omega)]
  split_ifs with h1 h2 h3
  · exact ⟨0x90, 0xBF, by rw [show n / 262144 = 0 by omega], by omega, by omega⟩
  · exact ⟨0x80, 0x8F, by rw [show n / 262144 = 4 by omega], by omega, by omega⟩
  · exact ⟨0x80, 0xBF, by rw [show (0xF0 + n / 262144) % 8 = n / 262144 by omega], by omega,
      by omega⟩
  · omega

/-- The bytes of a character are read back as the character. -/
theorem decodeFrom_encodePoint (hc : Json.isSurrogate c = false) (rest : List Byte) :
    decodeFrom none (encodePoint c ++ rest) = c :: decodeFrom none rest := by
  have hlt := c.isLt
  have hsurrogate : c.val < 0xD800 ∨ 0xDFFF < c.val := by
    simp only [Json.isSurrogate, PyStr.isHigh, PyStr.isLow, Bool.or_eq_false_iff,
      Bool.and_eq_false_iff, decide_eq_false_iff_not] at hc
    omega
  have htail : ∀ n, (byte (0x80 + n % 64)).val = 0x80 + n % 64 := fun n => byte_of_lt (by omega)
  unfold encodePoint
  split_ifs with h1 h2 h3
  · simp [decodeFrom_cons, step, first, h1, point_val, Nat.mod_eq_of_lt (by omega : c.val < 256)]
  · have hlead := lead_two (b := byte (0xC0 + c.val / 64)) (byte_of_lt (by omega)) (by omega)
      (by omega)
    rw [cons_append, cons_append, nil_append,
      decodeFrom_lead (by rw [byte_of_lt] <;> omega) hlead,
      decodeFrom_last (by rw [htail]; omega) (by rw [htail]; omega), htail,
      show c.val / 64 * 64 + (0x80 + c.val % 64) % 64 = c.val by omega, point_val]
  · obtain ⟨low, high, hlead, hlow, hhigh⟩ := lead_three (b := byte (0xE0 + c.val / 4096))
      (byte_of_lt (by omega)) (not_lt.mp h2) h3 hsurrogate
    rw [cons_append, cons_append, cons_append, nil_append,
      decodeFrom_lead (by rw [byte_of_lt] <;> omega) hlead,
      decodeFrom_more (by rwa [htail]) (by rwa [htail]),
      decodeFrom_last (by rw [htail]; omega) (by rw [htail]; omega), htail, htail,
      show (c.val / 4096 * 64 + (0x80 + c.val / 64 % 64) % 64) * 64 + (0x80 + c.val % 64) % 64 =
        c.val by omega, point_val]
  · obtain ⟨low, high, hlead, hlow, hhigh⟩ := lead_four (b := byte (0xF0 + c.val / 262144))
      (byte_of_lt (by omega)) (not_lt.mp h3) hlt
    rw [cons_append, cons_append, cons_append, cons_append, nil_append,
      decodeFrom_lead (by rw [byte_of_lt] <;> omega) hlead,
      decodeFrom_more (by rwa [htail]) (by rwa [htail]),
      decodeFrom_more (by rw [htail]; omega) (by rw [htail]; omega),
      decodeFrom_last (by rw [htail]; omega) (by rw [htail]; omega), htail, htail, htail,
      show ((c.val / 262144 * 64 + (0x80 + c.val / 4096 % 64) % 64) * 64 +
        (0x80 + c.val / 64 % 64) % 64) * 64 + (0x80 + c.val % 64) % 64 = c.val by omega, point_val]

/-- **Round trip.** -/
theorem decode_flatMap (h : ∀ c ∈ s, Json.isSurrogate c = false) :
    decode (s.flatMap encodePoint) = s := by
  induction s with
  | nil => rfl
  | cons c s ih =>
    rw [forall_mem_cons] at h
    rw [decode, flatMap_cons, decodeFrom_encodePoint h.1]
    exact congrArg (c :: ·) (ih h.2)

theorem encode_eq_some {bytes : List Byte} :
    encode s = some bytes ↔
      (∀ c ∈ s, Json.isSurrogate c = false) ∧ bytes = s.flatMap encodePoint := by
  unfold encode
  constructor
  · intro h
    split at h
    · exact absurd h (by simp)
    · next hany => exact ⟨by simpa using hany, (Option.some.inj h).symm⟩
  · rintro ⟨h, rfl⟩
    rw [if_neg (by simpa using h)]

/-- A line feed stands in the bytes of a line feed only. -/
theorem lf_mem_encodePoint (h : (10 : Byte) ∈ encodePoint c) : c.val = 10 := by
  have hlt := c.isLt
  unfold encodePoint at h
  split_ifs at h with h1 h2 h3 <;>
    simp only [mem_cons, not_mem_nil, or_false, Fin.ext_iff, byte_val] at h <;>
    simp at h <;> omega

end Utf8
