import GpuManager.Lib.BreadthFirst
import GpuManager.Services.CycleCheck

/-!
# Ambiguous corrections

`_check_correction_loop` takes each pair of correct stages in the order of their declaration and
searches upwards from the second one, breadth first, for the first one and for a qc stage.

* `hasQcBetween_eq_false_iff`: a pair is rejected when nothing upstream is a qc stage or the search
  comes to the first one before it comes to a qc stage.
* `correction_exact_iff`: when the check rejects exactly the ambiguous corrections.
-/

namespace GpuManager.Services

open PyStr Relation Dependency BreadthFirst List

variable {F : Type}

section Statement

variable (py : PyValues F) (stages : List (Stage F))

/-- A key is that of a qc stage. -/
def IsQc (id : Key F) : Prop := ∃ stage ∈ stages, py.keyOf stage.id = id ∧ stage.kind = text "qc"

/-- There is a dependency path none of whose inner stages is a qc stage. -/
def Ungated (b a : Key F) : Prop :=
  ∃ c, ReflTransGen (fun x y => DependsOn py stages x y ∧ ¬ IsQc py stages y) b c ∧
    DependsOn py stages c a

/-- Two correct stages have such a path between them. -/
def Ambiguous : Prop :=
  ∃ a ∈ stages, ∃ b ∈ stages, a.kind = text "correct" ∧ b.kind = text "correct" ∧
    py.keyOf a.id ≠ py.keyOf b.id ∧ Ungated py stages (py.keyOf b.id) (py.keyOf a.id)

/-- Nothing that a stage depends on, directly or not, is a qc stage. -/
def Uncontrolled (b : Key F) : Prop := ∀ c, TransGen (DependsOn py stages) b c → ¬ IsQc py stages c

/-- Two correct stages, the first declared before the second. -/
def DeclaredBefore (a b : Stage F) : Prop :=
  [a, b].Sublist (stages.filter fun s => s.kind = text "correct")

variable [DecidableEq F]

def depsOf (id : Key F) : List (Key F) := ((stageMap py stages).get? id).elim [] (·.deps py)

/-- Level by level upwards from a stage, in the order of the dependency lists, another one comes
before all qc stages. -/
def MetBeforeQc (b a : Key F) : Prop :=
  ∃ k before after, level (depsOf py stages) k [b] = before ++ a :: after ∧
    (∀ c ∈ before, ¬ IsQc py stages c) ∧
    ∀ j < k, ∀ c ∈ level (depsOf py stages) j [b], ¬ IsQc py stages c

def RaisesAmbiguous : Prop :=
  ∃ message, checkCorrectionLoop py stages = .error ⟨.ambiguousCorrectionLoop, message⟩

end Statement

variable [DecidableEq F] {py : PyValues F} {stages : List (Stage F)} {a b : Key F}

/-! ## The search -/

/-- What the search stops at. -/
def stops (py : PyValues F) (stages : List (Stage F)) (a c : Key F) : Bool :=
  c = a || ((stageMap py stages).get? c).any fun s => s.kind = text "qc"

section Search

variable (hnodup : (stages.map fun s => py.keyOf s.id).Nodup) {stage : Stage F}

include hnodup

theorem get?_stageMap (hstage : stage ∈ stages) :
    (stageMap py stages).get? (py.keyOf stage.id) = some stage := by
  rw [stageMap_eq hnodup]
  have hkeys : ((stages.map fun s => (py.keyOf s.id, s)).map (·.1)).Nodup := by
    rw [List.map_map]
    exact hnodup
  exact PyDict.get?_eq_some_of_mem hkeys (mem_map_of_mem hstage)

theorem stage_of_get? {id : Key F} (h : (stageMap py stages).get? id = some stage) :
    stage ∈ stages ∧ py.keyOf stage.id = id := by
  have hin : id ∈ (stageMap py stages).map (·.1) :=
    PyDict.get?_isSome.mp (by rw [h]; rfl)
  rw [stageMap_eq hnodup, List.map_map] at hin
  obtain ⟨found, hfound, rfl⟩ := List.mem_map.mp hin
  obtain rfl := Option.some.inj ((get?_stageMap hnodup hfound).symm.trans h)
  exact ⟨hfound, rfl⟩

theorem mem_depsOf {id dep : Key F} : dep ∈ depsOf py stages id ↔ DependsOn py stages id dep := by
  unfold depsOf
  constructor
  · intro h
    cases hget : (stageMap py stages).get? id with
    | none =>
      rw [hget] at h
      cases h
    | some stage =>
      rw [hget] at h
      obtain ⟨hstage, hkey⟩ := stage_of_get? hnodup hget
      exact ⟨stage, hstage, hkey, h⟩
  · rintro ⟨stage, hstage, rfl, hdep⟩
    rw [get?_stageMap hnodup hstage]
    exact hdep

theorem stops_iff {c : Key F} : stops py stages a c = true ↔ c = a ∨ IsQc py stages c := by
  unfold stops
  rw [Bool.or_eq_true, decide_eq_true_eq, Option.any_eq_true]
  constructor
  · rintro (h | ⟨stage, hget, hkind⟩)
    · exact Or.inl h
    · obtain ⟨hstage, hkey⟩ := stage_of_get? hnodup hget
      exact Or.inr ⟨stage, hstage, hkey, of_decide_eq_true hkind⟩
  · rintro (h | ⟨stage, hstage, rfl, hkind⟩)
    · exact Or.inl h
    · exact Or.inr ⟨stage, get?_stageMap hnodup hstage, decide_eq_true hkind⟩

section Known

variable (hknown : ∀ stage ∈ stages, ∀ dep ∈ stage.deps py,
  ∃ other ∈ stages, py.keyOf other.id = dep)

include hknown

/-- `_has_qc_between` is a breadth-first search that tells what it stopped at. -/
theorem hasQcBetween_eq_search {fuel : ℕ} {queue visited : List (Key F)}
    (hqueue : ∀ c ∈ queue, ∃ stage ∈ stages, py.keyOf stage.id = c)
    (hvisited : ∀ c ∈ visited, stops py stages a c = false) :
    hasQcBetween py (stageMap py stages) a fuel queue visited =
      (search (depsOf py stages) (stops py stages a) fuel queue visited).any (· ≠ a) := by
  induction fuel generalizing queue visited with
  | zero => rfl
  | succ fuel ih =>
    cases queue with
    | nil => rfl
    | cons current queue =>
      obtain ⟨hcurrent, hrest⟩ := forall_mem_cons.mp hqueue
      obtain ⟨stage, hstage, rfl⟩ := hcurrent
      have hget := get?_stageMap hnodup hstage
      rw [hasQcBetween, search_cons]
      by_cases hsource : py.keyOf stage.id = a
      · have hstop : stops py stages a (py.keyOf stage.id) = true := by
          simp [stops, hsource]
        rw [if_pos hsource, if_pos hstop]
        simp [hsource]
      · rw [if_neg hsource]
        by_cases hold : py.keyOf stage.id ∈ visited
        · rw [if_pos hold, hvisited _ hold, if_neg Bool.false_ne_true, if_pos hold]
          exact ih hrest hvisited
        rw [if_neg hold]
        simp only [hget]
        by_cases hkind : stage.kind = text "qc"
        · have hstop : stops py stages a (py.keyOf stage.id) = true :=
            (stops_iff hnodup).mpr (Or.inr ⟨stage, hstage, rfl, hkind⟩)
          rw [if_pos hkind, if_pos hstop]
          simp [hsource]
        · have hstop : stops py stages a (py.keyOf stage.id) = false := by
            unfold stops
            rw [hget]
            simp [hsource, hkind]
          have hdeps : depsOf py stages (py.keyOf stage.id) = stage.deps py := by
            unfold depsOf
            rw [hget]
            rfl
          rw [if_neg hkind, hstop, if_neg Bool.false_ne_true, if_neg hold, hdeps]
          refine ih (fun c hc => ?_) (forall_mem_cons.mpr ⟨hstop, hvisited⟩)
          rcases mem_append.mp hc with hc | hc
          · exact hrest c hc
          · exact hknown stage hstage c (mem_of_mem_filter hc)

/-- With the fuel of the check the search finds the first stop of the levels. -/
theorem hasQcBetween_eq_find (hstage : stage ∈ stages) {n : ℕ}
    (hn : searchFuel (stageMap py stages) ≤ n) :
    hasQcBetween py (stageMap py stages) a (searchFuel (stageMap py stages))
        [py.keyOf stage.id] [] =
      (find (depsOf py stages) (stops py stages a) n [py.keyOf stage.id]).any (· ≠ a) := by
  rw [hasQcBetween_eq_search hnodup hknown]
  · rw [@search_eq_find _ _ _ n _ _ (stages.map fun s => py.keyOf s.id) _ ?_
      (mem_map_of_mem hstage) ?_ hn]
    · intro c hc dep hdep
      obtain ⟨other, hother, -, hlisted⟩ := (mem_depsOf hnodup).mp hdep
      obtain ⟨found, hfound, rfl⟩ := hknown other hother dep hlisted
      exact mem_map_of_mem hfound
    · have hsum : ((stages.map fun s => py.keyOf s.id).map
          fun c => (depsOf py stages c).length).sum =
          ((stageMap py stages).map fun e => e.2.dependsOn.length).sum := by
        rw [stageMap_eq hnodup, List.map_map, List.map_map]
        congr 1
        refine map_congr_left fun s hs => ?_
        show (depsOf py stages (py.keyOf s.id)).length = s.dependsOn.length
        unfold depsOf
        rw [get?_stageMap hnodup hs]
        exact length_map _
      rw [hsum]
      exact Nat.lt_succ_self _
  · intro c hc
    rw [mem_singleton.mp hc]
    exact ⟨stage, hstage, rfl⟩
  · exact fun c hc => (by cases hc)

/-- **A pair is rejected** when no qc stage is upstream, or the first is met before one. -/
theorem hasQcBetween_eq_false_iff (hstage : stage ∈ stages) (hkind : stage.kind = text "correct") :
    hasQcBetween py (stageMap py stages) a (searchFuel (stageMap py stages))
        [py.keyOf stage.id] [] = false ↔
      Uncontrolled py stages (py.keyOf stage.id) ∨ MetBeforeQc py stages (py.keyOf stage.id) a := by
  have hedges : (fun x y => y ∈ depsOf py stages x) = DependsOn py stages := by
    funext x y
    exact propext (mem_depsOf hnodup)
  have hself : ¬ IsQc py stages (py.keyOf stage.id) := by
    rintro ⟨other, hother, hkey, hqc⟩
    rw [stage_of_key hnodup hother hstage hkey, hkind] at hqc
    revert hqc
    decide
  have hgo : ∀ {c}, stops py stages a c = false → ¬ IsQc py stages c := fun h hqc =>
    Bool.false_ne_true (h.symm.trans ((stops_iff hnodup).mpr (Or.inr hqc)))
  have hstop : stops py stages a a = true := (stops_iff hnodup).mpr (Or.inl rfl)
  constructor
  · intro h
    by_cases hfree : Uncontrolled py stages (py.keyOf stage.id)
    · exact Or.inl hfree
    -- A qc stage is on some level, so that the search stops there at the latest.
    unfold Uncontrolled at hfree
    push Not at hfree
    obtain ⟨c, hpath, hqc⟩ := hfree
    rw [← hedges] at hpath
    obtain ⟨k, hk⟩ := exists_level hpath.to_reflTransGen
    rw [hasQcBetween_eq_find hnodup hknown hstage (Nat.le_max_left _ (k + 1))] at h
    cases hfind : find (depsOf py stages) (stops py stages a)
        (max (searchFuel (stageMap py stages)) (k + 1)) [py.keyOf stage.id] with
    | none => exact absurd hqc (hgo (find_eq_none hfind k (Nat.le_max_right _ _) c hk))
    | some x =>
      rw [hfind] at h
      obtain rfl : x = a := by simpa using h
      obtain ⟨j, before, after, heq, -, hbefore, hlevels⟩ := find_eq_some hfind
      exact Or.inr ⟨j, before, after, heq, fun c hc => hgo (hbefore c hc),
        fun i hi c hc => hgo (hlevels i hi c hc)⟩
  · rintro (hfree | ⟨k, before, after, heq, hbefore, hlevels⟩)
    · rw [hasQcBetween_eq_find hnodup hknown hstage (Nat.le_refl _)]
      cases hfind : find (depsOf py stages) (stops py stages a)
          (searchFuel (stageMap py stages)) [py.keyOf stage.id] with
      | none => rfl
      | some x =>
        obtain ⟨j, before, after, heq, hx, -⟩ := find_eq_some hfind
        have hreached := @reached_of_level _ _ _ x j (fun _ => True) (fun _ _ _ _ => trivial)
          (heq ▸ mem_append_right _ mem_cons_self)
        have hpath : ReflTransGen (DependsOn py stages) (py.keyOf stage.id) x := by
          rw [← hedges]
          exact ReflTransGen.mono (fun _ _ h => h.1) _ _ hreached
        rcases (stops_iff hnodup).mp hx with rfl | hqc
        · simp
        rcases reflTransGen_iff_eq_or_transGen.mp hpath with rfl | hpath
        · exact absurd hqc hself
        · exact absurd hqc (hfree x hpath)
    · rw [hasQcBetween_eq_find hnodup hknown hstage (Nat.le_max_left _ (k + 1))]
      have hmem : a ∈ level (depsOf py stages) k [py.keyOf stage.id] :=
        heq ▸ mem_append_right _ mem_cons_self
      cases hfind : find (depsOf py stages) (stops py stages a)
          (max (searchFuel (stageMap py stages)) (k + 1)) [py.keyOf stage.id] with
      | none => rfl
      | some x =>
        obtain ⟨j, before', after', heq', hx, hbefore', hlevels'⟩ := find_eq_some hfind
        have hxmem : x ∈ level (depsOf py stages) j [py.keyOf stage.id] :=
          heq' ▸ mem_append_right _ mem_cons_self
        rcases (stops_iff hnodup).mp hx with rfl | hqc
        · simp
        -- The search stopped neither before `a` nor after it.
        rcases Nat.lt_trichotomy j k with hless | rfl | hmore
        · exact absurd hqc (hlevels j hless x hxmem)
        · obtain rfl := eq_of_first (heq.symm.trans heq')
            (fun ha => Bool.false_ne_true ((hbefore' a ha).symm.trans hstop))
            (fun hx => hbefore x hx hqc)
          simp
        · exact absurd hstop (by simp [hlevels' k hmore a hmem])

omit hknown in
/-- Where the first is met before a qc stage, the path to it is not gated. -/
theorem MetBeforeQc.ungated (h : MetBeforeQc py stages b a) (hne : a ≠ b) : Ungated py stages b a := by
  obtain ⟨k, before, after, heq, -, hlevels⟩ := h
  cases k with
  | zero =>
    have hmem : a ∈ level (depsOf py stages) 0 [b] :=
      heq ▸ mem_append_right _ mem_cons_self
    exact absurd (mem_singleton.mp hmem) hne
  | succ k =>
    have hmem : a ∈ level (depsOf py stages) (k + 1) [b] :=
      heq ▸ mem_append_right _ mem_cons_self
    obtain ⟨c, hc, hdep⟩ := mem_level_succ.mp hmem
    have hreached := reached_of_level (fun j hj => hlevels j (Nat.lt_succ_of_le hj)) hc
    have hedges : ∀ x y, y ∈ depsOf py stages x ∧ ¬ IsQc py stages y →
        DependsOn py stages x y ∧ ¬ IsQc py stages y := fun x y hxy =>
      ⟨(mem_depsOf hnodup).mp hxy.1, hxy.2⟩
    exact ⟨c, ReflTransGen.mono hedges _ _ hreached, (mem_depsOf hnodup).mp hdep⟩

end Known

end Search

/-! ## The pairs -/

/-- A pair passes. -/
def Passes (py : PyValues F) (stages : PyDict (Key F) (Stage F)) (a b : Stage F) : Prop :=
  hasQcBetween py stages (py.keyOf a.id) (searchFuel stages) [py.keyOf b.id] [] = true

theorem checkCorrectionsAfter_spec {map : PyDict (Key F) (Stage F)} {first : Stage F}
    {later : List (Stage F)} :
    (checkCorrectionsAfter py map first later = .ok () ∧ ∀ b ∈ later, Passes py map first b) ∨
    ((∃ message, checkCorrectionsAfter py map first later =
      .error ⟨.ambiguousCorrectionLoop, message⟩) ∧ ¬ ∀ b ∈ later, Passes py map first b) := by
  induction later with
  | nil => exact Or.inl ⟨rfl, fun _ h => (by cases h)⟩
  | cons b later ih =>
    unfold checkCorrectionsAfter require
    by_cases hpass : Passes py map first b
    · have hthen : hasQcBetween py map (py.keyOf first.id) (searchFuel map)
        [py.keyOf b.id] [] = true := hpass
      rw [if_pos hthen]
      rcases ih with ⟨hok, hall⟩ | ⟨herror, hnot⟩
      · exact Or.inl ⟨hok, forall_mem_cons.mpr ⟨hpass, hall⟩⟩
      · exact Or.inr ⟨herror, fun h => hnot (forall_mem_cons.mp h).2⟩
    · have hfails : ¬ hasQcBetween py map (py.keyOf first.id) (searchFuel map)
        [py.keyOf b.id] [] = true := hpass
      rw [if_neg hfails]
      exact Or.inr ⟨⟨_, rfl⟩, fun h => hpass (forall_mem_cons.mp h).1⟩

/-- **The pairs are checked** in the order of declaration; the check raises unless all pass. -/
theorem checkCorrections_spec {map : PyDict (Key F) (Stage F)} {corrections : List (Stage F)} :
    (checkCorrections py map corrections = .ok () ∧ corrections.Pairwise (Passes py map)) ∨
    ((∃ message, checkCorrections py map corrections =
      .error ⟨.ambiguousCorrectionLoop, message⟩) ∧ ¬ corrections.Pairwise (Passes py map)) := by
  induction corrections with
  | nil => exact Or.inl ⟨rfl, Pairwise.nil⟩
  | cons first later ih =>
    unfold checkCorrections
    rcases @checkCorrectionsAfter_spec _ _ py map first later with
      ⟨hok, hall⟩ | ⟨⟨message, herror⟩, hnot⟩
    · rw [hok]
      rcases ih with ⟨hrest, hpairs⟩ | ⟨herror, hnot⟩
      · exact Or.inl ⟨hrest, pairwise_cons.mpr ⟨hall, hpairs⟩⟩
      · exact Or.inr ⟨herror, fun h => hnot (pairwise_cons.mp h).2⟩
    · rw [herror]
      exact Or.inr ⟨⟨message, rfl⟩, fun h => hnot (pairwise_cons.mp h).1⟩

section Check

variable (hnodup : (stages.map fun s => py.keyOf s.id).Nodup)

include hnodup

omit [DecidableEq F] in
/-- Of two declared stages both are stages of the kind, and they are distinct. -/
theorem DeclaredBefore.distinct {first later : Stage F} (h : DeclaredBefore stages first later) :
    (first ∈ stages ∧ first.kind = text "correct") ∧
      (later ∈ stages ∧ later.kind = text "correct") ∧
      py.keyOf first.id ≠ py.keyOf later.id := by
  have hstage : ∀ s ∈ [first, later], s ∈ stages ∧ s.kind = text "correct" := fun s hs =>
    (mem_filter.mp (h.subset hs)).imp_right of_decide_eq_true
  refine ⟨hstage first (by simp), hstage later (by simp), ?_⟩
  have hkeys := hnodup.sublist ((h.trans filter_sublist).map fun s => py.keyOf s.id)
  simpa using hkeys

/-- **The check raises** when, for some correct stage and one declared before it, no qc stage is
upstream or the other is met before one. -/
theorem raisesAmbiguous_iff
    (hknown : ∀ stage ∈ stages, ∀ dep ∈ stage.deps py, ∃ other ∈ stages, py.keyOf other.id = dep) :
    RaisesAmbiguous py stages ↔ ∃ first later, DeclaredBefore stages first later ∧
      (Uncontrolled py stages (py.keyOf later.id) ∨
        MetBeforeQc py stages (py.keyOf later.id) (py.keyOf first.id)) := by
  have hpairs : RaisesAmbiguous py stages ↔
      ¬ (stages.filter fun s => s.kind = text "correct").Pairwise
        (Passes py (stageMap py stages)) := by
    unfold RaisesAmbiguous checkCorrectionLoop
    rcases @checkCorrections_spec _ _ py (stageMap py stages)
      (stages.filter fun s => s.kind = text "correct") with ⟨hok, hall⟩ | ⟨herror, hnot⟩
    · rw [hok]
      exact iff_of_false (fun ⟨_, h⟩ => (by cases h)) (not_not.mpr hall)
    · exact iff_of_true herror hnot
  rw [hpairs, pairwise_iff_forall_sublist]
  push Not
  refine exists_congr fun first => exists_congr fun later => ?_
  constructor
  · rintro ⟨hdeclared, hfails⟩
    obtain ⟨-, ⟨hlater, hkind⟩, -⟩ := DeclaredBefore.distinct hnodup hdeclared
    exact ⟨hdeclared, (hasQcBetween_eq_false_iff hnodup hknown hlater hkind).mp
      (Bool.eq_false_of_not_eq_true hfails)⟩
  · rintro ⟨hdeclared, hmet⟩
    obtain ⟨-, ⟨hlater, hkind⟩, -⟩ := DeclaredBefore.distinct hnodup hdeclared
    have hfalse := (hasQcBetween_eq_false_iff hnodup hknown hlater hkind).mpr hmet
    exact ⟨hdeclared, fun h => Bool.false_ne_true (hfalse.symm.trans h)⟩

end Check

/-- **Ambiguous corrections** are rejected exactly when they exist, exactly when two things hold: if
there are any, some correct stage declared after another has no qc stage upstream or leads to that
other level by level before it leads to a qc stage; and if there are none, each correct stage
declared after another has a qc stage upstream. -/
theorem correction_exact_iff (py : PyValues F) (stages : List (Stage F))
    (hnodup : (stages.map fun s => py.keyOf s.id).Nodup)
    (hknown : ∀ stage ∈ stages, ∀ dep ∈ stage.deps py, ∃ other ∈ stages, py.keyOf other.id = dep) :
    (RaisesAmbiguous py stages ↔ Ambiguous py stages) ↔
      (Ambiguous py stages → ∃ first later, DeclaredBefore stages first later ∧
        (Uncontrolled py stages (py.keyOf later.id) ∨
          MetBeforeQc py stages (py.keyOf later.id) (py.keyOf first.id))) ∧
      (¬ Ambiguous py stages → ∀ first later, DeclaredBefore stages first later →
        ¬ Uncontrolled py stages (py.keyOf later.id)) := by
  rw [raisesAmbiguous_iff hnodup hknown]
  have hambiguous : ∀ first later, DeclaredBefore stages first later →
      MetBeforeQc py stages (py.keyOf later.id) (py.keyOf first.id) → Ambiguous py stages := by
    intro first later hdeclared hmet
    obtain ⟨⟨hfirst, hfirstKind⟩, ⟨hlater, hlaterKind⟩, hne⟩ :=
      @DeclaredBefore.distinct _ py _ hnodup _ _ hdeclared
    exact ⟨first, hfirst, later, hlater, hfirstKind, hlaterKind, hne,
      hmet.ungated hnodup hne⟩
  constructor
  · intro hexact
    refine ⟨hexact.mpr, fun hnone first later hdeclared hfree => ?_⟩
    exact hnone (hexact.mp ⟨first, later, hdeclared, Or.inl hfree⟩)
  · rintro ⟨hsome, hnone⟩
    refine ⟨?_, hsome⟩
    rintro ⟨first, later, hdeclared, hfree | hmet⟩
    · by_contra hnot
      exact hnone hnot first later hdeclared hfree
    · exact hambiguous first later hdeclared hmet

/-- Two correct stages, the second with a list of dependencies. -/
def twoCorrections (dependsOn : List (Json Unit)) : List (Stage Unit) :=
  [{ id := .str (text "a"), kind := text "correct", provider := text "p", dependsOn := [],
     retries := .null, params := [] },
   { id := .str (text "b"), kind := text "correct", provider := text "p", dependsOn := dependsOn,
     retries := .null, params := [] }]

/-- A correction after a correction is ambiguous, and rejected. -/
theorem correction_exact_chain :
    (RaisesAmbiguous plainValues (twoCorrections [stageA]) ↔
        Ambiguous plainValues (twoCorrections [stageA])) ↔
      (Ambiguous plainValues (twoCorrections [stageA]) →
        ∃ first later, DeclaredBefore (twoCorrections [stageA]) first later ∧
          (Uncontrolled plainValues (twoCorrections [stageA]) (plainValues.keyOf later.id) ∨
            MetBeforeQc plainValues (twoCorrections [stageA]) (plainValues.keyOf later.id)
              (plainValues.keyOf first.id))) ∧
      (¬ Ambiguous plainValues (twoCorrections [stageA]) →
        ∀ first later, DeclaredBefore (twoCorrections [stageA]) first later →
          ¬ Uncontrolled plainValues (twoCorrections [stageA]) (plainValues.keyOf later.id)) :=
  correction_exact_iff plainValues (twoCorrections [stageA]) (by decide +kernel) (by decide +kernel)

/-- **Two unrelated corrections** are rejected. -/
theorem unrelated_rejected :
    (∀ id, ¬ TransGen (DependsOn plainValues (twoCorrections [])) id id) ∧
      ¬ (RaisesAmbiguous plainValues (twoCorrections []) ↔
        Ambiguous plainValues (twoCorrections [])) := by
  have hedge : ∀ x y, ¬ DependsOn plainValues (twoCorrections []) x y := by
    rintro x y ⟨stage, hstage, -, hdep⟩
    have hnone : ∀ stage ∈ twoCorrections [], stage.deps plainValues = [] := by
      simp [twoCorrections, Stage.deps]
    rw [hnone stage hstage] at hdep
    cases hdep
  constructor
  · intro id hcycle
    obtain ⟨y, hstep, -⟩ := TransGen.head'_iff.mp hcycle
    exact hedge id y hstep
  · intro hexact
    have hraises : RaisesAmbiguous plainValues (twoCorrections []) := by
      refine (checkCorrections_spec.resolve_left ?_).1
      rintro ⟨hok, -⟩
      have hfails : (checkCorrectionLoop plainValues (twoCorrections [])).toOption = none := by
        decide +kernel
      have haccepts : checkCorrectionLoop plainValues (twoCorrections []) = .ok () := hok
      rw [toOption_eq_some_iff.mpr haccepts] at hfails
      cases hfails
    obtain ⟨_, _, _, _, _, _, _, c, _, hstep⟩ := hexact.mp hraises
    exact hedge _ _ hstep

end GpuManager.Services
