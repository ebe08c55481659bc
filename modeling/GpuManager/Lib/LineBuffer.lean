import Mathlib.Tactic.Common

/-!
# Lines out of chunks

A reader that receives its input in chunks keeps what follows the last separator in a buffer,
and hands each complete line to a handler that may fail.  How the input was cut does not matter:
the handler sees the lines of the concatenation, and the buffer ends up with its rest.

* `splitAll`: the complete lines of a text, and what follows the last separator.
* `splitAll_append`: an extension of a text is split from its unfinished line on.
* `feed`: one chunk.
* `feedAll_eq`: all chunks, as one text.
-/

namespace LineBuffer

open List

variable {A S E : Type} {P : S → Prop}

section Split

variable [DecidableEq A] {sep : A}

/-- One more element in front of the first line, or of the rest. -/
def prepend (a : A) : List (List A) × List A → List (List A) × List A
  | ([], rest) => ([], a :: rest)
  | (line :: lines, rest) => ((a :: line) :: lines, rest)

/-- The lines that end in `sep`, without it, and what follows the last of them. -/
def splitAll (sep : A) : List A → List (List A) × List A
  | [] => ([], [])
  | a :: text =>
    if a = sep then ([] :: (splitAll sep text).1, (splitAll sep text).2)
    else prepend a (splitAll sep text)

theorem splitAll_cons {a : A} (h : a ≠ sep) (text : List A) :
    splitAll sep (a :: text) = prepend a (splitAll sep text) :=
  if_neg h

theorem splitAll_sep (sep : A) (text : List A) :
    splitAll sep (sep :: text) = ([] :: (splitAll sep text).1, (splitAll sep text).2) :=
  if_pos rfl

/-- A text without separators is one unfinished line. -/
theorem splitAll_of_not_mem {text : List A} (h : sep ∉ text) :
    splitAll sep text = ([], text) := by
  induction text with
  | nil => rfl
  | cons a text ih =>
    obtain ⟨hne, hmem⟩ := not_or.mp (fun hm => h (mem_cons.mpr hm))
    rw [splitAll_cons (Ne.symm hne), ih hmem]
    rfl

theorem not_mem_splitAll (sep : A) (text : List A) : sep ∉ (splitAll sep text).2 := by
  induction text with
  | nil => exact not_mem_nil
  | cons a text ih =>
    by_cases ha : a = sep
    · subst ha
      rw [splitAll_sep]
      exact ih
    · rw [splitAll_cons ha]
      rcases hsplit : splitAll sep text with ⟨_ | ⟨line, lines⟩, rest⟩ <;> rw [hsplit] at ih
      · exact fun h => (mem_cons.mp h).elim (fun h => ha h.symm) ih
      · exact ih

theorem splitAll_line {line : List A} (h : sep ∉ line) (text : List A) :
    splitAll sep (line ++ sep :: text) =
      (line :: (splitAll sep text).1, (splitAll sep text).2) := by
  induction line with
  | nil => exact splitAll_sep sep text
  | cons a line ih =>
    obtain ⟨hne, hmem⟩ := not_or.mp (fun hm => h (mem_cons.mpr hm))
    rw [cons_append, splitAll_cons (Ne.symm hne), ih hmem]
    rfl

/-- More text is split from the unfinished line on. -/
theorem splitAll_append (sep : A) (text more : List A) :
    splitAll sep (text ++ more) =
      ((splitAll sep text).1 ++ (splitAll sep ((splitAll sep text).2 ++ more)).1,
        (splitAll sep ((splitAll sep text).2 ++ more)).2) := by
  induction text with
  | nil => rfl
  | cons a text ih =>
    rw [cons_append]
    by_cases ha : a = sep
    · subst ha
      rw [splitAll_sep, splitAll_sep, ih]
      rfl
    · rw [splitAll_cons ha, splitAll_cons ha, ih]
      rcases splitAll sep text with ⟨_ | ⟨line, lines⟩, rest⟩
      · show prepend a (splitAll sep (rest ++ more)) = splitAll sep (a :: (rest ++ more))
        rw [splitAll_cons ha]
      · rfl

end Split

section Handle

variable (handle : S → List A → Except E S)

/-- The lines, one after the other; a failure ends them. -/
def handleAll : S → List (List A) → Except E S
  | s, [] => .ok s
  | s, line :: lines =>
    match handle s line with
    | .ok s' => handleAll s' lines
    | .error e => .error e

variable {handle}

theorem handleAll_append (s : S) (lines lines' : List (List A)) :
    handleAll handle s (lines ++ lines') =
      match handleAll handle s lines with
      | .ok s' => handleAll handle s' lines'
      | .error e => .error e := by
  induction lines generalizing s with
  | nil => rfl
  | cons line lines ih =>
    rw [cons_append, handleAll, handleAll]
    cases handle s line with
    | ok s' => exact ih s'
    | error e => rfl

/-- What each line preserves, all lines preserve. -/
theorem handleAll_invariant
    (hstep : ∀ s line s', P s → handle s line = .ok s' → P s') {s s' : S} (hs : P s)
    {lines : List (List A)} (h : handleAll handle s lines = .ok s') : P s' := by
  induction lines generalizing s with
  | nil =>
    obtain rfl := Except.ok.inj h
    exact hs
  | cons line lines ih =>
    rw [handleAll] at h
    cases hhandle : handle s line with
    | ok t =>
      rw [hhandle] at h
      exact ih (hstep s line t hs hhandle) h
    | error e =>
      rw [hhandle] at h
      exact absurd h (by simp)

end Handle

section Feed

variable [DecidableEq A] (sep : A) (handle : S → List A → Except E S)

/-- One chunk: the complete lines of the buffer and the chunk are handled, the rest stays. -/
def feed (state : S × List A) (chunk : List A) : Except E (S × List A) :=
  match handleAll handle state.1 (splitAll sep (state.2 ++ chunk)).1 with
  | .ok s => .ok (s, (splitAll sep (state.2 ++ chunk)).2)
  | .error e => .error e

/-- All chunks. -/
def feedAll : S × List A → List (List A) → Except E (S × List A)
  | state, [] => .ok state
  | state, chunk :: chunks =>
    match feed sep handle state chunk with
    | .ok state' => feedAll state' chunks
    | .error e => .error e

variable {sep} {handle}

/-- A chunk and then another one are the chunk of both. -/
theorem feed_append (state : S × List A) (chunk chunk' : List A) :
    feed sep handle state (chunk ++ chunk') =
      match feed sep handle state chunk with
      | .ok state' => feed sep handle state' chunk'
      | .error e => .error e := by
  unfold feed
  rw [← append_assoc, splitAll_append sep (state.2 ++ chunk) chunk', handleAll_append]
  cases handleAll handle state.1 (splitAll sep (state.2 ++ chunk)).1 <;> rfl

/-- **Chunks do not matter.**  The reader ends where the concatenation takes it, if no separator
waits in its buffer. -/
theorem feedAll_eq {state : S × List A} (hbuffer : sep ∉ state.2) (chunks : List (List A)) :
    feedAll sep handle state chunks = feed sep handle state chunks.flatten := by
  induction chunks generalizing state with
  | nil =>
    unfold feed
    rw [flatten_nil, append_nil, splitAll_of_not_mem hbuffer]
    rfl
  | cons chunk chunks ih =>
    rw [flatten_cons, feed_append, feedAll]
    cases hfeed : feed sep handle state chunk with
    | error e => rfl
    | ok state' =>
      refine ih ?_
      unfold feed at hfeed
      split at hfeed
      · obtain rfl := Except.ok.inj hfeed
        exact not_mem_splitAll sep _
      · exact absurd hfeed (by simp)

/-- What each line preserves, all chunks preserve. -/
theorem feedAll_invariant
    (hstep : ∀ s line s', P s → handle s line = .ok s' → P s') {state state' : S × List A}
    (hs : P state.1) (hbuffer : sep ∉ state.2) {chunks : List (List A)}
    (h : feedAll sep handle state chunks = .ok state') : P state'.1 := by
  rw [feedAll_eq hbuffer, feed] at h
  split at h
  · next t ht =>
      obtain rfl := Except.ok.inj h
      exact handleAll_invariant hstep hs ht
  · exact absurd h (by simp)

end Feed

end LineBuffer
