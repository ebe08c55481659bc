import Mathlib.Logic.Basic

/-!
# Objects backed by one file

An object holds a view of what its file contains.  The first call reads the file; a call
that changes the view writes the whole document to a temporary file, replaces the file by it
and then syncs the directory.  The read may fail, the document may not be one the object
accepts, and the write may fail before or after the replacement, in which case the object
keeps its view.

The object here marks itself as loaded before it reads, so that a load that fails is not
repeated.  `respectful_iff` says exactly which runs of such an object neither destroy what
could not be read nor leave a trace of a failed write (`Careful`).
-/

namespace FileBacked

variable {Op R V C : Type}

structure Format (V C : Type) where
  load : C → Option V
  empty : V

/-- What a call does once the view is loaded: it answers, or it has a next view to write. -/
inductive Effect (V C R : Type) where
  | answer (r : R)
  | commit (view : V) (document : C) (r : R)

/-- Where the write of a call fails: not at all, before the file is replaced, or at the sync
of the directory after that. -/
inductive WriteFault where
  | none
  | before
  | after
  deriving DecidableEq

structure Faults where
  unreadable : Bool
  write : WriteFault

/-- An object and its file. -/
structure Handle (V C : Type) where
  loaded : Bool
  view : V
  file : Option C

/-- What the caller gets. -/
inductive Reply (R : Type) where
  | answered (r : R)
  | notLoaded
  | notWritten

/-- What became of a call: the reply, whether the file was replaced, and the object after. -/
structure Outcome (V C R : Type) where
  reply : Reply R
  replaced : Bool
  next : Handle V C

/-- A new object on a file. -/
def fresh (fmt : Format V C) (file : Option C) : Handle V C := ⟨false, fmt.empty, file⟩

section Calls

variable (fmt : Format V C) (early : Op → Option R) (exec : Op → V → Effect V C R)

/-- The view a call works on; `none` when loading fails. -/
def loadedView (h : Handle V C) (faults : Faults) : Option V :=
  if h.loaded then some h.view
  else
    match h.file with
    | none => some h.view
    | some document => if faults.unreadable then none else fmt.load document

/-- A call on a loaded view. -/
def work (op : Op) (faults : Faults) (h : Handle V C) (view : V) : Outcome V C R :=
  match exec op view with
  | .answer r => ⟨.answered r, false, ⟨true, view, h.file⟩⟩
  | .commit view' document r =>
    match faults.write with
    | .before => ⟨.notWritten, false, ⟨true, view, h.file⟩⟩
    | .after => ⟨.notWritten, true, ⟨true, view, some document⟩⟩
    | .none => ⟨.answered r, true, ⟨true, view', some document⟩⟩

/-- One call.  Some calls end early, before the object is looked at. -/
def call (op : Op) (faults : Faults) (h : Handle V C) : Outcome V C R :=
  match early op with
  | some r => ⟨.answered r, false, h⟩
  | none =>
    match loadedView fmt h faults with
    | none => ⟨.notLoaded, false, { h with loaded := true }⟩
    | some view => work exec op faults h view

def loadFails (op : Op) (h : Handle V C) (faults : Faults) : Prop :=
  early op = none ∧ loadedView fmt h faults = none

def Reply.deniesRecord (absent : R → Prop) : Reply R → Prop
  | .answered r => absent r
  | _ => False

/-- No call after a failed load replaces the file or denies a record, and a call whose write
fails leaves the file and the view as they were.  `failed` says whether the load has
failed. -/
def Respectful (absent : R → Prop) : Prop → Handle V C → List (Op × Faults) → Prop
  | _, _, [] => True
  | failed, h, (op, faults) :: rest =>
    (failed → (call fmt early exec op faults h).replaced = false ∧
      ¬ (call fmt early exec op faults h).reply.deniesRecord absent) ∧
    ((call fmt early exec op faults h).reply = .notWritten →
      (call fmt early exec op faults h).next.file = h.file ∧
      ∀ view, loadedView fmt h faults = some view →
        (call fmt early exec op faults h).next.view = view) ∧
    Respectful absent (failed ∨ loadFails fmt early op h faults)
      (call fmt early exec op faults h).next rest

/-- After a failed load a call is rejected for its arguments or its write fails in time, and
a write that fails after the replacement has nothing new to write. -/
def Careful (rejected creates : Op → Prop) : Prop → Handle V C → List (Op × Faults) → Prop
  | _, _, [] => True
  | failed, h, (op, faults) :: rest =>
    (failed → rejected op ∨ (creates op ∧ faults.write = .before)) ∧
    (faults.write = .after → early op = none → ∀ view, loadedView fmt h faults = some view →
      ∀ view' document r, exec op view = .commit view' document r → h.file = some document) ∧
    Careful rejected creates (failed ∨ loadFails fmt early op h faults)
      (call fmt early exec op faults h).next rest

end Calls

section Characterization

variable {fmt : Format V C} {early : Op → Option R} {exec : Op → V → Effect V C R} {absent : R → Prop}
  {rejected creates : Op → Prop}

/-- What a call does on the empty view: a rejected call answers without denying a record, a
call that creates one writes, and any other call denies one. -/
structure EmptyView (fmt : Format V C) (early : Op → Option R) (exec : Op → V → Effect V C R)
    (absent : R → Prop) (rejected creates : Op → Prop) : Prop where
  ends : ∀ op r, early op = some r → rejected op ∧ ¬ absent r
  answers : ∀ op, rejected op → early op = none → ∃ r, exec op fmt.empty = .answer r ∧ ¬ absent r
  writes : ∀ op, ¬ rejected op → creates op →
    ∃ view document r, exec op fmt.empty = .commit view document r
  denies : ∀ op, ¬ rejected op → ¬ creates op → ∃ r, exec op fmt.empty = .answer r ∧ absent r

/-- After a failed load the object passes for an empty one. -/
def Emptied (fmt : Format V C) (h : Handle V C) : Prop := h.loaded = true ∧ h.view = fmt.empty

variable {h : Handle V C} {op : Op} {faults : Faults}

theorem loadedView_of_emptied (he : Emptied fmt h) (faults : Faults) :
    loadedView fmt h faults = some fmt.empty := by
  unfold loadedView
  rw [if_pos he.1, he.2]

/-- A call on an emptied object is harmless exactly if it is rejected or its write fails in
time, and then it leaves the object as it is. -/
theorem harmless_iff (hempty : EmptyView fmt early exec absent rejected creates)
    (he : Emptied fmt h) (op : Op) (faults : Faults) :
    ((call fmt early exec op faults h).replaced = false ∧
        ¬ (call fmt early exec op faults h).reply.deniesRecord absent) ↔
      (rejected op ∨ (creates op ∧ faults.write = .before)) := by
  unfold call
  cases hearly : early op with
  | some r =>
    obtain ⟨hop, habsent⟩ := hempty.ends op r hearly
    exact iff_of_true ⟨rfl, habsent⟩ (.inl hop)
  | none =>
  rw [loadedView_of_emptied he]
  dsimp only [work]
  by_cases hop : rejected op
  · obtain ⟨r, hr, habsent⟩ := hempty.answers op hop hearly
    rw [hr]
    exact iff_of_true ⟨rfl, habsent⟩ (.inl hop)
  by_cases hcreates : creates op
  · obtain ⟨view, document, r, hr⟩ := hempty.writes op hop hcreates
    rw [hr]
    cases hwrite : faults.write with
    | before => exact iff_of_true ⟨rfl, id⟩ (.inr ⟨hcreates, rfl⟩)
    | after | none => exact iff_of_false (fun h => by cases h.1) fun h => by simp [hop] at h
  · obtain ⟨r, hr, habsent⟩ := hempty.denies op hop hcreates
    rw [hr]
    exact iff_of_false (fun h => h.2 habsent) fun h => by simp [hop, hcreates] at h

/-- A harmless call on an emptied object leaves it emptied. -/
theorem emptied_call (hempty : EmptyView fmt early exec absent rejected creates)
    (he : Emptied fmt h) (hop : rejected op ∨ (creates op ∧ faults.write = .before)) :
    Emptied fmt (call fmt early exec op faults h).next := by
  unfold call
  cases hearly : early op with
  | some r => exact he
  | none =>
  rw [loadedView_of_emptied he]
  dsimp only [work]
  by_cases hrejected : rejected op
  · obtain ⟨r, hr, -⟩ := hempty.answers op hrejected hearly
    rw [hr]
    exact ⟨rfl, rfl⟩
  · obtain ⟨hcreates, hwrite⟩ := hop.resolve_left hrejected
    obtain ⟨view, document, r, hr⟩ := hempty.writes op hrejected hcreates
    simp only [hr, hwrite]
    exact ⟨rfl, rfl⟩

theorem emptied_of_loadFails (hview : h.loaded = false → h.view = fmt.empty)
    (hfail : loadFails fmt early op h faults) :
    Emptied fmt (call fmt early exec op faults h).next := by
  obtain ⟨hearly, hload⟩ := hfail
  unfold call
  rw [hearly, hload]
  refine ⟨rfl, hview ?_⟩
  cases hloaded : h.loaded with
  | false => rfl
  | true =>
    unfold loadedView at hload
    rw [if_pos hloaded] at hload
    cases hload

/-- An object that is not loaded has not been worked on. -/
theorem unloaded_call (hview : h.loaded = false → h.view = fmt.empty)
    (hloaded : (call fmt early exec op faults h).next.loaded = false) :
    (call fmt early exec op faults h).next.view = fmt.empty := by
  unfold call at hloaded ⊢
  cases hearly : early op with
  | some r =>
    simp only [hearly] at hloaded ⊢
    exact hview hloaded
  | none =>
    simp only [hearly] at hloaded
    cases hload : loadedView fmt h faults with
    | none => simp [hload] at hloaded
    | some view =>
      simp only [hload, work] at hloaded
      cases hexec : exec op view with
      | answer r => simp [hexec] at hloaded
      | commit view' document r => cases hwrite : faults.write <;> simp [hexec, hwrite] at hloaded

/-- A write that fails leaves file and view alone exactly if it fails before the replacement
or there was nothing new to write. -/
theorem unwritten_iff (op : Op) (faults : Faults) :
    ((call fmt early exec op faults h).reply = .notWritten →
        (call fmt early exec op faults h).next.file = h.file ∧
        ∀ view, loadedView fmt h faults = some view →
          (call fmt early exec op faults h).next.view = view) ↔
      (faults.write = .after → early op = none → ∀ view, loadedView fmt h faults = some view →
        ∀ view' document r, exec op view = .commit view' document r → h.file = some document) := by
  unfold call
  cases hearly : early op with
  | some r => exact iff_of_true (fun hreply => by cases hreply) fun _ hnone => by cases hnone
  | none =>
  cases hload : loadedView fmt h faults with
  | none =>
    refine iff_of_true (fun hreply => by cases hreply) fun _ _ view hview => ?_
    cases hview
  | some view =>
    dsimp only [work]
    cases hexec : exec op view with
    | answer r =>
      refine iff_of_true (fun hreply => by cases hreply) fun _ _ view' hview => ?_
      cases hview
      intro view' document r' hcommit
      rw [hexec] at hcommit
      cases hcommit
    | commit view' document r =>
      cases hwrite : faults.write with
      | none => exact iff_of_true (fun hreply => by cases hreply) (fun h => by cases h)
      | before =>
        refine iff_of_true (fun _ => ⟨rfl, fun view'' hview => ?_⟩) (fun h => by cases h)
        cases hview
        rfl
      | after =>
        constructor
        · intro hkept _ _ view'' hview
          cases hview
          intro view'' document' r' hcommit
          rw [hexec] at hcommit
          cases hcommit
          exact (hkept rfl).1.symm
        · intro hsame _
          refine ⟨(hsame rfl rfl view rfl view' document r hexec).symm, fun view'' hview => ?_⟩
          cases hview
          rfl

/-- A run is respectful exactly if it is careful. -/
theorem respectful_iff (hempty : EmptyView fmt early exec absent rejected creates) (failed : Prop)
    (h : Handle V C) (hview : h.loaded = false → h.view = fmt.empty)
    (hfailed : failed → Emptied fmt h) (ops : List (Op × Faults)) :
    Respectful fmt early exec absent failed h ops ↔
      Careful fmt early exec rejected creates failed h ops := by
  induction ops generalizing failed h with
  | nil => exact Iff.rfl
  | cons first rest ih =>
    obtain ⟨op, faults⟩ := first
    unfold Respectful Careful
    have hharmless : (failed → (call fmt early exec op faults h).replaced = false ∧
        ¬ (call fmt early exec op faults h).reply.deniesRecord absent) ↔
        (failed → rejected op ∨
          (creates op ∧ faults.write = .before)) :=
      forall_congr' fun hf => harmless_iff hempty (hfailed hf) op faults
    rw [hharmless, unwritten_iff]
    refine and_congr_right fun hop => and_congr_right fun _ => ?_
    refine ih _ _ (fun hloaded => unloaded_call hview hloaded) ?_
    · rintro (hf | hfail)
      · exact emptied_call hempty (hfailed hf) (hop hf)
      · exact emptied_of_loadFails hview hfail

end Characterization

end FileBacked
