import Mathlib.Data.List.Perm.Subperm
import GpuManager.Lib.Acyclic
import GpuManager.Services.LoadedPipeline

/-!
# The cycle check

`_detect_cycle` counts the open dependencies of a stage by the entries of its list and takes one
off for each stage that is done, so that a stage that lists a dependency twice is never done.

* `mem_ordered_iff`: the order holds the stages that settle: those without repetition in their
  lists, all of whose dependencies settle.
* `detectCycle_exact_iff`: the check is exact exactly when every stage that lists a dependency twice
  is on a cycle or depends on one anyway.
-/

namespace GpuManager.Services

open PyStr Relation Dependency CyclePass List

variable {F : Type} {py : PyValues F} {stages : List (Stage F)}

/-- A stage lists another one. -/
def DependsOn (py : PyValues F) (stages : List (Stage F)) (a b : Key F) : Prop :=
  ∃ stage ∈ stages, py.keyOf stage.id = a ∧ b ∈ stage.deps py

/-- A stage whose list has no repetition and whose dependencies settle. -/
inductive Settles (py : PyValues F) (stages : List (Stage F)) : Key F → Prop where
  | intro {stage : Stage F} (hstage : stage ∈ stages) (hnodup : (stage.deps py).Nodup)
      (hdeps : ∀ dep ∈ stage.deps py, Settles py stages dep) : Settles py stages (py.keyOf stage.id)

/-! ## One round -/

section Round

variable {pass : CyclePass F} {sid : Key F} {rest : List (Key F × Stage F)} {n : Key F}

/-- The stages that list a stage. -/
def Lists (py : PyValues F) (rest : List (Key F × Stage F)) (sid n : Key F) : Prop :=
  ∃ stage, (n, stage) ∈ rest ∧ sid ∈ stage.deps py

theorem lists_cons {other : Key F} {stage : Stage F} :
    Lists py ((other, stage) :: rest) sid n ↔
      (n = other ∧ sid ∈ stage.deps py) ∨ Lists py rest sid n := by
  unfold Lists
  constructor
  · rintro ⟨found, hmem, hdep⟩
    rcases mem_cons.mp hmem with heq | hmem
    · obtain ⟨rfl, rfl⟩ := Prod.mk.inj heq
      exact Or.inl ⟨rfl, hdep⟩
    · exact Or.inr ⟨found, hmem, hdep⟩
  · rintro (⟨rfl, hdep⟩ | ⟨found, hmem, hdep⟩)
    · exact ⟨stage, mem_cons_self, hdep⟩
    · exact ⟨found, mem_cons_of_mem _ hmem, hdep⟩

theorem not_lists_of_notMem (h : n ∉ rest.map (·.1)) : ¬ Lists py rest sid n :=
  fun ⟨_, hmem, _⟩ => h (mem_map_of_mem hmem)

variable [DecidableEq F]

theorem queue_release (other : Key F) : (pass.release other).queue =
    if pass.inDegree other - 1 = 0 then pass.queue ++ [other] else pass.queue := rfl

/-- What the inner loop does: each stage that lists the one that is done loses one open dependency,
and goes into the queue when it had one left. -/
theorem done_spec (hnodup : (rest.map (·.1)).Nodup) :
    (pass.done py sid rest).ordered = pass.ordered ∧
    (∀ n, (Lists py rest sid n → (pass.done py sid rest).inDegree n = pass.inDegree n - 1) ∧
      (¬ Lists py rest sid n → (pass.done py sid rest).inDegree n = pass.inDegree n)) ∧
    (∀ n, n ∈ (pass.done py sid rest).queue ↔
      n ∈ pass.queue ∨ (Lists py rest sid n ∧ pass.inDegree n = 1)) := by
  induction rest generalizing pass with
  | nil =>
    refine ⟨rfl, fun n => ⟨fun ⟨_, hmem, _⟩ => (by cases hmem), fun _ => rfl⟩, fun n => ?_⟩
    exact ⟨Or.inl, fun h => h.resolve_right fun ⟨⟨_, hmem, _⟩, _⟩ => (by cases hmem)⟩
  | cons e rest ih =>
    obtain ⟨other, stage⟩ := e
    obtain ⟨hout, hnodup⟩ := nodup_cons.mp hnodup
    unfold done
    by_cases hdep : sid ∈ stage.deps py
    · rw [if_pos hdep]
      obtain ⟨hordered, hdegree, hqueue⟩ := @ih (pass.release other) hnodup
      have hself : (pass.release other).inDegree other = pass.inDegree other - 1 :=
        Function.update_self ..
      have hne : ∀ n, n ≠ other → (pass.release other).inDegree n = pass.inDegree n :=
        fun n hn => Function.update_of_ne hn _ _
      have hmem : ∀ n, n ∈ (pass.release other).queue ↔
          n ∈ pass.queue ∨ (n = other ∧ pass.inDegree other = 1) := by
        intro n
        rw [queue_release]
        by_cases hone : pass.inDegree other = 1
        · simp [hone]
        · have : pass.inDegree other - 1 ≠ 0 := by omega
          simp [hone, this]
      refine ⟨hordered, fun n => ?_, fun n => ?_⟩
      · rw [lists_cons]
        by_cases hn : n = other
        · subst hn
          rw [(hdegree n).2 (not_lists_of_notMem hout), hself]
          exact ⟨fun _ => rfl, fun h => absurd (Or.inl ⟨rfl, hdep⟩) h⟩
        · rw [← hne n hn]
          exact ⟨fun h => (hdegree n).1 (h.resolve_left fun h => hn h.1),
            fun h => (hdegree n).2 fun hlists => h (Or.inr hlists)⟩
      · rw [hqueue, hmem, lists_cons]
        by_cases hn : n = other
        · subst hn
          simp [hdep, not_lists_of_notMem hout]
        · simp [hn, hne n hn]
    · rw [if_neg hdep]
      obtain ⟨hordered, hdegree, hqueue⟩ := @ih pass hnodup
      have hlists : ∀ n, Lists py ((other, stage) :: rest) sid n ↔ Lists py rest sid n := by
        intro n
        rw [lists_cons]
        exact or_iff_right fun h => hdep h.2
      simp only [hlists]
      exact ⟨hordered, hdegree, hqueue⟩

theorem nodup_queue_done (hnodup : (rest.map (·.1)).Nodup) (hqueue : pass.queue.Nodup)
    (hnew : ∀ n, Lists py rest sid n → pass.inDegree n = 1 → n ∉ pass.queue) :
    (pass.done py sid rest).queue.Nodup := by
  induction rest generalizing pass with
  | nil => exact hqueue
  | cons e rest ih =>
    obtain ⟨other, stage⟩ := e
    obtain ⟨hout, hnodup⟩ := nodup_cons.mp hnodup
    unfold done
    split
    case isFalse hdep =>
      exact ih hnodup hqueue fun n hlists => hnew n (lists_cons.mpr (Or.inr hlists))
    case isTrue hdep =>
      have hother := hnew other (lists_cons.mpr (Or.inl ⟨rfl, hdep⟩))
      apply ih hnodup
      · rw [queue_release]
        split
        case isFalse => exact hqueue
        case isTrue hzero =>
          refine nodup_append.mpr ⟨hqueue, nodup_singleton _, fun a ha b hb heq => ?_⟩
          rw [mem_singleton.mp hb] at heq
          exact hother (by omega) (heq ▸ ha)
      · intro n hlists hone hmem
        have hne : n ≠ other := fun h => not_lists_of_notMem hout (h ▸ hlists)
        have hkept : (pass.release other).inDegree n = pass.inDegree n :=
          Function.update_of_ne hne _ _
        have hout := hnew n (lists_cons.mpr (Or.inr hlists)) (hkept ▸ hone)
        rw [queue_release] at hmem
        split at hmem
        · exact (mem_append.mp hmem).elim hout fun h => hne (mem_singleton.mp h)
        · exact hout hmem

end Round

/-! ## The loop -/

section Loop

variable [DecidableEq F] {pass : CyclePass F} {fuel : ℕ}

/-- A list of which as many entries are in the order as it has is in the order without repetition. -/
theorem closed_of_length {l ordered : List (Key F)} (hnodup : ordered.Nodup)
    (hlength : (ordered.filter (· ∈ l)).length = l.length) :
    l.Nodup ∧ ∀ dep ∈ l, dep ∈ ordered := by
  have hsub : (ordered.filter (· ∈ l)).Subperm l :=
    subperm_of_subset (hnodup.filter _) fun a ha =>
      of_decide_eq_true (mem_filter.mp ha).2
  have hperm : (ordered.filter (· ∈ l)).Perm l := hsub.perm_of_length_le hlength.ge
  exact ⟨hperm.nodup_iff.mp (hnodup.filter _),
    fun dep hdep => mem_of_mem_filter (hperm.mem_iff.mpr hdep)⟩

/-- The invariant of the loop. -/
structure SoundPass (py : PyValues F) (stages : List (Stage F)) (pass : CyclePass F) : Prop where
  /-- the count of a stage is its entries without the stages that are done -/
  count : ∀ stage ∈ stages, pass.inDegree (py.keyOf stage.id) =
    stage.dependsOn.length - ((pass.ordered.filter (· ∈ stage.deps py)).length : ℤ)
  /-- a stage in the queue waits for nothing -/
  closed : ∀ stage ∈ stages, py.keyOf stage.id ∈ pass.queue ++ pass.ordered →
    ∀ dep ∈ stage.deps py, dep ∈ pass.ordered
  settled : ∀ n ∈ pass.queue ++ pass.ordered, Settles py stages n
  exhaustive : ∀ stage ∈ stages, pass.inDegree (py.keyOf stage.id) = 0 →
    py.keyOf stage.id ∈ pass.queue ++ pass.ordered
  nodup : (pass.queue ++ pass.ordered).Nodup

/-- What a round makes of a pass: the stage at the head of the queue joins the order, a stage that
lists it has one open dependency less, and joins the queue if that was its last. -/
structure IsRound (py : PyValues F) (stages : List (Stage F)) (pass : CyclePass F) (sid : Key F)
    (queue : List (Key F)) (after : CyclePass F) : Prop where
  ordered : after.ordered = pass.ordered ++ [sid]
  fewer : ∀ stage ∈ stages, sid ∈ stage.deps py →
    after.inDegree (py.keyOf stage.id) = pass.inDegree (py.keyOf stage.id) - 1
  same : ∀ stage ∈ stages, sid ∉ stage.deps py →
    after.inDegree (py.keyOf stage.id) = pass.inDegree (py.keyOf stage.id)
  queued : ∀ n, n ∈ after.queue ↔ n ∈ queue ∨
    ∃ stage ∈ stages, py.keyOf stage.id = n ∧ sid ∈ stage.deps py ∧ pass.inDegree n = 1
  nodup : queue.Nodup → (∀ stage ∈ stages, sid ∈ stage.deps py → py.keyOf stage.id ∉ queue) →
    after.queue.Nodup

omit [DecidableEq F] in
theorem Settles.stage {n : Key F} (h : Settles py stages n) :
    ∃ stage ∈ stages, py.keyOf stage.id = n := by
  obtain ⟨hstage, -, -⟩ := h
  exact ⟨_, hstage, rfl⟩

section Nodup

variable (hnodup : (stages.map fun s => py.keyOf s.id).Nodup) {stage : Stage F} {n sid : Key F}

include hnodup

omit [DecidableEq F] in
theorem stage_of_key {a b : Stage F} (ha : a ∈ stages) (hb : b ∈ stages)
    (heq : py.keyOf a.id = py.keyOf b.id) : a = b :=
  inj_on_of_nodup_map hnodup ha hb heq

theorem lists_stageMap_iff : Lists py (stageMap py stages) sid n ↔
    ∃ stage ∈ stages, py.keyOf stage.id = n ∧ sid ∈ stage.deps py := by
  rw [stageMap_eq hnodup]
  constructor
  · rintro ⟨found, hmem, hdep⟩
    obtain ⟨stage, hstage, heq⟩ := mem_map.mp hmem
    obtain ⟨hkey, rfl⟩ := Prod.mk.inj heq
    exact ⟨stage, hstage, hkey, hdep⟩
  · rintro ⟨stage, hstage, rfl, hdep⟩
    exact ⟨stage, mem_map_of_mem hstage, hdep⟩

theorem lists_stageMap (hstage : stage ∈ stages) :
    Lists py (stageMap py stages) sid (py.keyOf stage.id) ↔ sid ∈ stage.deps py := by
  rw [lists_stageMap_iff hnodup]
  constructor
  · rintro ⟨found, hfound, hkey, hdep⟩
    rw [← stage_of_key hnodup hfound hstage hkey]
    exact hdep
  · exact fun hdep => ⟨stage, hstage, rfl, hdep⟩

theorem SoundPass.start : SoundPass py stages (CyclePass.start (stageMap py stages)) := by
  have hkeys : ((stageMap py stages).map (·.1)).Nodup := by
    rw [stageMap_eq hnodup, List.map_map]
    exact hnodup
  have hdegree : ∀ stage ∈ stages, (CyclePass.start (stageMap py stages)).inDegree
      (py.keyOf stage.id) = stage.dependsOn.length := by
    intro stage hstage
    have hmem : (py.keyOf stage.id, stage) ∈ stageMap py stages := by
      rw [stageMap_eq hnodup]
      exact mem_map_of_mem hstage
    show ((stageMap py stages).get? (py.keyOf stage.id) |>.map _).getD 0 = _
    rw [PyDict.get?_eq_some_of_mem hkeys hmem]
    rfl
  have hqueue : ∀ n, n ∈ (CyclePass.start (stageMap py stages)).queue ↔
      ∃ stage ∈ stages, py.keyOf stage.id = n ∧ stage.dependsOn = [] := by
    intro n
    show n ∈ ((stageMap py stages).filter _).map _ ↔ _
    rw [stageMap_eq hnodup, mem_map]
    constructor
    · rintro ⟨e, he, rfl⟩
      obtain ⟨he, hzero⟩ := mem_filter.mp he
      obtain ⟨stage, hstage, rfl⟩ := mem_map.mp he
      exact ⟨stage, hstage, rfl, length_eq_zero_iff.mp (of_decide_eq_true hzero)⟩
    · rintro ⟨stage, hstage, rfl, hnil⟩
      refine ⟨(py.keyOf stage.id, stage), mem_filter.mpr ⟨mem_map_of_mem hstage, ?_⟩, rfl⟩
      exact decide_eq_true (by rw [hnil]; rfl)
  have hempty : (CyclePass.start (stageMap py stages)).ordered = [] := rfl
  constructor
  case count =>
    intro stage hstage
    rw [hdegree stage hstage, hempty]
    simp
  case closed =>
    intro stage hstage hmem dep hdep
    rw [hempty, append_nil] at hmem
    obtain ⟨other, hother, hkey, hnil⟩ := (hqueue _).mp hmem
    obtain rfl := stage_of_key hnodup hother hstage hkey
    unfold Stage.deps at hdep
    rw [hnil] at hdep
    cases hdep
  case settled =>
    intro n hn
    rw [hempty, append_nil] at hn
    obtain ⟨stage, hstage, rfl, hnil⟩ := (hqueue n).mp hn
    have hdeps : stage.deps py = [] := by
      unfold Stage.deps
      rw [hnil]
      rfl
    exact ⟨hstage, hdeps ▸ nodup_nil, fun dep hdep => by rw [hdeps] at hdep; cases hdep⟩
  case exhaustive =>
    intro stage hstage hzero
    rw [hdegree stage hstage] at hzero
    rw [hempty, append_nil]
    exact (hqueue _).mpr ⟨stage, hstage, rfl, length_eq_zero_iff.mp (by omega)⟩
  case nodup =>
    rw [hempty, append_nil]
    exact hkeys.sublist (filter_sublist.map _)

variable {queue : List (Key F)}

theorem isRound : IsRound py stages pass sid queue
    (pass.round py (stageMap py stages) sid queue) := by
  have hkeys : ((stageMap py stages).map (·.1)).Nodup := by
    rw [stageMap_eq hnodup, List.map_map]
    exact hnodup
  obtain ⟨hordered, hdegree, hmem⟩ :=
    @done_spec _ py { pass with queue := queue, ordered := pass.ordered ++ [sid] } sid _ _ hkeys
  refine ⟨hordered, fun stage hstage hdep => ?_, fun stage hstage hdep => ?_, fun n => ?_,
    fun hqueue hnew => nodup_queue_done hkeys hqueue fun n hlists _ => ?_⟩
  · exact (hdegree _).1 ((lists_stageMap hnodup hstage).mpr hdep)
  · exact (hdegree _).2 fun hlists => hdep ((lists_stageMap hnodup hstage).mp hlists)
  · refine (hmem n).trans (or_congr_right ?_)
    rw [lists_stageMap_iff hnodup]
    constructor
    · rintro ⟨⟨stage, hstage, hkey, hdep⟩, hone⟩
      exact ⟨stage, hstage, hkey, hdep, hone⟩
    · rintro ⟨stage, hstage, hkey, hdep, hone⟩
      exact ⟨⟨stage, hstage, hkey, hdep⟩, hone⟩
  · obtain ⟨stage, hstage, rfl, hdep⟩ := (lists_stageMap_iff hnodup).mp hlists
    exact hnew stage hstage hdep

section Step

variable {after : CyclePass F} (hround : IsRound py stages pass sid queue after)
  (h : SoundPass py stages pass)
include hround

omit [DecidableEq F] hnodup in
/-- What is new in the queue listed the stage that is done, as its last open dependency. -/
theorem IsRound.joins (hn : n ∈ after.queue) (hout : n ∉ queue) :
    ∃ stage ∈ stages, py.keyOf stage.id = n ∧ sid ∈ stage.deps py ∧ after.inDegree n = 0 := by
  obtain ⟨stage, hstage, rfl, hdep, hone⟩ := ((hround.queued n).mp hn).resolve_left hout
  refine ⟨stage, hstage, rfl, hdep, ?_⟩
  rw [hround.fewer stage hstage hdep, hone]
  rfl

include h

omit hnodup in
theorem IsRound.count (hstage : stage ∈ stages) : after.inDegree (py.keyOf stage.id) =
    stage.dependsOn.length - ((after.ordered.filter (· ∈ stage.deps py)).length : ℤ) := by
  have hbefore := h.count stage hstage
  rw [hround.ordered, filter_append, length_append]
  by_cases hdep : sid ∈ stage.deps py
  · rw [hround.fewer stage hstage hdep]
    simp only [hdep, decide_true, filter_cons_of_pos, filter_nil, length_singleton]
    push_cast
    omega
  · rw [hround.same stage hstage hdep]
    simp only [hdep, decide_false, Bool.false_eq_true, not_false_eq_true,
      filter_cons_of_neg, filter_nil, length_nil]
    push_cast
    omega

variable (hqueue : pass.queue = sid :: queue)
include hqueue

omit [DecidableEq F] hnodup hround h in
/-- The head of the queue joins the order, and nothing else moves. -/
theorem popped_perm : (pass.queue ++ pass.ordered).Perm (queue ++ (pass.ordered ++ [sid])) := by
  rw [hqueue, ← append_assoc]
  exact (perm_append_singleton sid (queue ++ pass.ordered)).symm

omit hnodup in
/-- Whose count is zero now lists each dependency once, and all are done. -/
theorem IsRound.closes (hstage : stage ∈ stages) (hzero : after.inDegree (py.keyOf stage.id) = 0) :
    (stage.deps py).Nodup ∧ ∀ dep ∈ stage.deps py, dep ∈ after.ordered := by
  apply closed_of_length
  · rw [hround.ordered]
    exact (nodup_append.mp ((popped_perm hqueue).nodup_iff.mp h.nodup)).2.1
  · have hlength : (stage.deps py).length = stage.dependsOn.length := length_map _
    have hcount := hround.count h hstage
    omega

omit hnodup hround in
/-- What waits for the stage that is done is neither in the queue nor done. -/
theorem SoundPass.waits (hstage : stage ∈ stages) (hdep : sid ∈ stage.deps py) :
    py.keyOf stage.id ∉ pass.queue ++ pass.ordered := by
  intro hin
  have hdone := h.closed stage hstage hin sid hdep
  have hnodup := h.nodup
  rw [hqueue] at hnodup
  exact (nodup_cons.mp hnodup).1 (mem_append_right _ hdone)

omit hnodup in
/-- **A round** keeps the invariant. -/
theorem IsRound.sound : SoundPass py stages after := by
  have hpopped := popped_perm hqueue
  constructor
  case count => exact fun stage hstage => hround.count h hstage
  case closed =>
    intro stage hstage hin dep hdep
    by_cases hbefore : py.keyOf stage.id ∈ pass.queue ++ pass.ordered
    · rw [hround.ordered]
      exact mem_append_left _ (h.closed stage hstage hbefore dep hdep)
    rw [hpopped.mem_iff, mem_append, not_or] at hbefore
    rw [hround.ordered] at hin
    obtain ⟨-, -, -, -, hzero⟩ :=
      hround.joins ((mem_append.mp hin).resolve_right hbefore.2) hbefore.1
    exact (hround.closes h hqueue hstage hzero).2 dep hdep
  case settled =>
    intro n hn
    rw [hround.ordered] at hn
    by_cases hbefore : n ∈ queue ++ (pass.ordered ++ [sid])
    · exact h.settled n (hpopped.mem_iff.mpr hbefore)
    rw [mem_append, not_or] at hbefore
    obtain ⟨stage, hstage, rfl, -, hzero⟩ :=
      hround.joins ((mem_append.mp hn).resolve_right hbefore.2) hbefore.1
    obtain ⟨hdeps, hall⟩ := hround.closes h hqueue hstage hzero
    refine ⟨hstage, hdeps, fun dep hdep => ?_⟩
    have hdone := hall dep hdep
    rw [hround.ordered] at hdone
    exact h.settled dep (hpopped.mem_iff.mpr (mem_append_right _ hdone))
  case exhaustive =>
    intro stage hstage hzero
    rw [hround.ordered]
    by_cases hdep : sid ∈ stage.deps py
    · rw [hround.fewer stage hstage hdep] at hzero
      refine mem_append_left _ ((hround.queued _).mpr ?_)
      exact Or.inr ⟨stage, hstage, rfl, hdep, by omega⟩
    · rw [hround.same stage hstage hdep] at hzero
      have hbefore := hpopped.mem_iff.mp (h.exhaustive stage hstage hzero)
      rcases mem_append.mp hbefore with hin | hin
      · exact mem_append_left _ ((hround.queued _).mpr (Or.inl hin))
      · exact mem_append_right _ hin
  case nodup =>
    rw [hround.ordered]
    obtain ⟨hnodup, hordered, hapart⟩ := nodup_append.mp (hpopped.nodup_iff.mp h.nodup)
    refine nodup_append.mpr ⟨hround.nodup hnodup fun stage hstage hdep hin => ?_, hordered, ?_⟩
    · exact h.waits hqueue hstage hdep (hpopped.mem_iff.mpr (mem_append_left _ hin))
    rintro n hn m hm rfl
    by_cases hold : n ∈ queue
    · exact hapart n hold n hm rfl
    · obtain ⟨stage, hstage, rfl, hdep, -⟩ := hround.joins hn hold
      exact h.waits hqueue hstage hdep (hpopped.mem_iff.mpr (mem_append_right _ hm))

end Step

omit hnodup in
theorem SoundPass.length_le (h : SoundPass py stages pass) :
    pass.queue.length + pass.ordered.length ≤ stages.length := by
  have hsub : pass.queue ++ pass.ordered ⊆ stages.map fun s => py.keyOf s.id := by
    intro n hn
    obtain ⟨stage, hstage, rfl⟩ := (h.settled n hn).stage
    exact mem_map_of_mem hstage
  have hlength := (subperm_of_subset h.nodup hsub).length_le
  rwa [length_append, length_map] at hlength

/-- **The loop** keeps the invariant, and with a round for each stage it empties the queue. -/
theorem SoundPass.loop (h : SoundPass py stages pass)
    (hfuel : stages.length ≤ pass.ordered.length + fuel) :
    SoundPass py stages (loop py (stageMap py stages) fuel pass) ∧
      (loop py (stageMap py stages) fuel pass).queue = [] := by
  induction fuel generalizing pass with
  | zero =>
    refine ⟨h, length_eq_zero_iff.mp ?_⟩
    have := h.length_le
    show pass.queue.length = 0
    omega
  | succ fuel ih =>
    unfold loop
    split
    case h_1 hempty => exact ⟨h, hempty⟩
    case h_2 sid queue hqueue =>
      have hround : IsRound py stages pass sid queue _ := isRound hnodup
      apply ih (hround.sound h hqueue)
      rw [hround.ordered, length_append, length_singleton]
      omega

/-- **The order** holds the stages that settle. -/
theorem mem_ordered_iff :
    n ∈ (loop py (stageMap py stages) (stageMap py stages).length
      (start (stageMap py stages))).ordered ↔ Settles py stages n := by
  have hlength : (stageMap py stages).length = stages.length := by
    rw [stageMap_eq hnodup, length_map]
  obtain ⟨hsound, hempty⟩ := @SoundPass.loop _ _ _ _ _ (stageMap py stages).length hnodup
    (SoundPass.start hnodup) (by omega)
  constructor
  · exact fun hn => hsound.settled n (mem_append_right _ hn)
  · intro hsettles
    induction hsettles with
    | @intro stage hstage hdeps _ ih =>
      have hperm : ((loop py (stageMap py stages) (stageMap py stages).length
          (start (stageMap py stages))).ordered.filter (· ∈ stage.deps py)).Perm
          (stage.deps py) := by
        rw [perm_ext_iff_of_nodup ((nodup_append.mp hsound.nodup).2.1.filter _) hdeps]
        intro dep
        rw [mem_filter, decide_eq_true_eq]
        exact ⟨fun h => h.2, fun h => ⟨ih dep h, h⟩⟩
      have hzero := hsound.count stage hstage
      have hlist : (stage.deps py).length = stage.dependsOn.length := length_map _
      rw [hperm.length_eq, hlist, Int.sub_self] at hzero
      have hin := hsound.exhaustive stage hstage hzero
      rwa [hempty] at hin

/-! ## The check -/

/-- What the check returns: the stages that do not settle, if there are any. -/
theorem detectCycle_spec :
    (∀ n, n ∈ (detectCycle py (stageMap py stages)).getD [] ↔
      n ∈ stages.map (fun s => py.keyOf s.id) ∧ ¬ Settles py stages n) ∧
    (detectCycle py (stageMap py stages) = none ↔
      ∀ stage ∈ stages, Settles py stages (py.keyOf stage.id)) := by
  have hkeys : (stageMap py stages).map (·.1) = stages.map fun s => py.keyOf s.id := by
    rw [stageMap_eq hnodup, List.map_map]
    rfl
  have hlength : (stageMap py stages).length = stages.length := by
    rw [stageMap_eq hnodup, length_map]
  have hsound := (@SoundPass.loop _ _ _ _ _ (stageMap py stages).length hnodup
    (SoundPass.start hnodup) (by omega)).1
  have hmem := @mem_ordered_iff _ _ _ _ hnodup
  have hordered := (nodup_append.mp hsound.nodup).2.1
  unfold detectCycle
  dsimp only
  rw [hkeys, hlength]
  rw [hlength] at hmem hsound hordered
  generalize (loop py (stageMap py stages) stages.length
    (start (stageMap py stages))).ordered = ordered at hmem hordered
  -- The order is as long as the list of the stages exactly when it holds them all.
  have hall : ordered.length = stages.length ↔
      ∀ stage ∈ stages, Settles py stages (py.keyOf stage.id) := by
    have hsub : ordered ⊆ stages.map fun s => py.keyOf s.id := by
      intro n hn
      obtain ⟨stage, hstage, rfl⟩ := (hmem.mp hn).stage
      exact mem_map_of_mem hstage
    have hsubperm := subperm_of_subset hordered hsub
    constructor
    · intro heq stage hstage
      have hperm := hsubperm.perm_of_length_le (by rw [length_map, heq])
      exact hmem.mp (hperm.mem_iff.mpr (mem_map_of_mem hstage))
    · intro hsettles
      have hback : (stages.map fun s => py.keyOf s.id) ⊆ ordered := by
        intro n hn
        obtain ⟨stage, hstage, rfl⟩ := mem_map.mp hn
        exact hmem.mpr (hsettles stage hstage)
      have hlong := (subperm_of_subset hnodup hback).length_le
      have hshort := hsubperm.length_le
      rw [length_map] at hlong hshort
      omega
  constructor
  · intro n
    split
    case isTrue => simp [mem_filter, hmem]
    case isFalse heq =>
      have hsettles := hall.mp (not_not.mp heq)
      constructor
      · intro h
        cases h
      · rintro ⟨hn, hnot⟩
        obtain ⟨stage, hstage, rfl⟩ := mem_map.mp hn
        exact absurd (hsettles stage hstage) hnot
  · rw [← hall]
    split
    case isTrue hne => simp [hne]
    case isFalse heq => simp [not_not.mp heq]

omit [DecidableEq F] in
/-- What settles lists each dependency once, and all of them settle. -/
theorem Settles.deps (hstage : stage ∈ stages) (h : Settles py stages (py.keyOf stage.id)) :
    (stage.deps py).Nodup ∧ ∀ dep ∈ stage.deps py, Settles py stages dep := by
  generalize hkey : py.keyOf stage.id = n at h
  obtain ⟨hfound, hdeps, hall⟩ := h
  rw [stage_of_key hnodup hstage hfound hkey]
  exact ⟨hdeps, hall⟩

omit [DecidableEq F] in
/-- Nothing on a cycle and nothing that depends on one settles. -/
theorem Settles.not_blocked (h : Settles py stages n) :
    ¬ Blocked (DependsOn py stages) n := by
  induction h with
  | @intro stage hstage _ _ ih =>
    intro hblocked
    obtain ⟨dep, ⟨found, hfound, hkey, hdep⟩, hnext⟩ := hblocked.dependency
    rw [stage_of_key hnodup hfound hstage hkey] at hdep
    exact ih dep hdep hnext

/-- Where the stages that repeat a dependency are blocked anyway, all that does not settle is. -/
theorem blocked_of_not_settles
    (hknown : ∀ stage ∈ stages, ∀ dep ∈ stage.deps py, ∃ other ∈ stages, py.keyOf other.id = dep)
    (hrepeated : ∀ stage ∈ stages, ¬ (stage.deps py).Nodup →
      Blocked (DependsOn py stages) (py.keyOf stage.id))
    (hstage : stage ∈ stages) (h : ¬ Settles py stages (py.keyOf stage.id)) :
    Blocked (DependsOn py stages) (py.keyOf stage.id) := by
  let unsettled : Set (Key F) :=
    {n | n ∈ stages.map (fun s => py.keyOf s.id) ∧ ¬ Settles py stages n}
  have hfin : unsettled.Finite := by
    refine Set.Finite.subset (finite_toSet (stages.map fun s => py.keyOf s.id)) ?_
    exact fun _ hn => hn.1
  refine blocked_of_stuck hfin ?_ ⟨mem_map_of_mem hstage, h⟩
  -- What does not settle has a dependency that does not.
  rintro n ⟨hn, hnot⟩
  obtain ⟨other, hother, rfl⟩ := mem_map.mp hn
  have hunsettled : ∃ dep ∈ other.deps py, ¬ Settles py stages dep := by
    by_cases hdeps : (other.deps py).Nodup
    · by_contra hall
      push Not at hall
      exact hnot ⟨hother, hdeps, hall⟩
    · obtain ⟨dep, ⟨found, hfound, hkey, hdep⟩, hnext⟩ := (hrepeated other hother hdeps).dependency
      rw [stage_of_key hnodup hfound hother hkey] at hdep
      exact ⟨dep, hdep, fun hsettles => hsettles.not_blocked hnodup hnext⟩
  obtain ⟨dep, hdep, hnext⟩ := hunsettled
  obtain ⟨found, hfound, rfl⟩ := hknown other hother dep hdep
  exact ⟨_, ⟨mem_map_of_mem hfound, hnext⟩, other, hother, rfl, hdep⟩

end Nodup

end Loop

/-- **The cycle check** returns nothing exactly for a graph without cycles, and otherwise the stages
on a cycle or behind one, exactly when every stage that lists a dependency twice is one of these. -/
theorem detectCycle_exact_iff [DecidableEq F] (py : PyValues F) (registry : List PyStr)
    (data : Json F) (draft : Draft F) (h : loadDraft py registry data = .ok draft) :
    ((detectCycle py (stageMap py draft.stages) = none ↔
        ∀ id, ¬ TransGen (DependsOn py draft.stages) id id) ∧
      ∀ ids, detectCycle py (stageMap py draft.stages) = some ids →
        ∀ id, id ∈ ids ↔ Blocked (DependsOn py draft.stages) id) ↔
    ∀ stage ∈ draft.stages, ¬ (stage.deps py).Nodup →
      Blocked (DependsOn py draft.stages) (py.keyOf stage.id) := by
  have hnodup := (loadDraft_ok h).nodup
  have hknown := (loadDraft_ok h).known
  obtain ⟨hids, hnone⟩ := @detectCycle_spec _ py draft.stages _ hnodup
  have hstageOf : ∀ id, Blocked (DependsOn py draft.stages) id →
      ∃ stage ∈ draft.stages, py.keyOf stage.id = id := by
    intro id hblocked
    obtain ⟨-, ⟨stage, hstage, hkey, -⟩, -⟩ := hblocked.dependency
    exact ⟨stage, hstage, hkey⟩
  constructor
  · rintro ⟨-, hexact⟩ stage hstage hrepeated
    have hnot : ¬ Settles py draft.stages (py.keyOf stage.id) :=
      fun hsettles => hrepeated (hsettles.deps hnodup hstage).1
    have hin := (hids _).mpr ⟨mem_map_of_mem hstage, hnot⟩
    cases hresult : detectCycle py (stageMap py draft.stages) with
    | none => exact absurd (hnone.mp hresult stage hstage) hnot
    | some ids =>
      rw [hresult] at hin
      exact (hexact ids hresult _).mp hin
  · intro hrepeated
    have hblocked : ∀ stage ∈ draft.stages,
        ¬ Settles py draft.stages (py.keyOf stage.id) ↔
          Blocked (DependsOn py draft.stages) (py.keyOf stage.id) := fun stage hstage =>
      ⟨fun hnot => blocked_of_not_settles hnodup hknown hrepeated hstage hnot,
        fun hblocked hsettles => hsettles.not_blocked hnodup hblocked⟩
    constructor
    · rw [hnone]
      constructor
      · intro hsettles id hcycle
        obtain ⟨stage, hstage, rfl⟩ := hstageOf id (blocked_of_cycle hcycle)
        exact (hsettles stage hstage).not_blocked hnodup (blocked_of_cycle hcycle)
      · intro hacyclic stage hstage
        by_contra hnot
        obtain ⟨b, -, hcycle⟩ := (hblocked stage hstage).mp hnot
        exact hacyclic b hcycle
    · intro ids hresult id
      have hin := hids id
      rw [hresult] at hin
      refine Iff.trans (show id ∈ ids ↔ _ from hin) ?_
      constructor
      · rintro ⟨hid, hnot⟩
        obtain ⟨stage, hstage, rfl⟩ := mem_map.mp hid
        exact (hblocked stage hstage).mp hnot
      · intro hid
        obtain ⟨stage, hstage, rfl⟩ := hstageOf id hid
        exact ⟨mem_map_of_mem hstage, (hblocked stage hstage).mpr hid⟩

/-- Two stages, the second of which depends on the first. -/
def twoStages (dependsOn : List (Json Unit)) : Json Unit :=
  .obj [(text "schema_id", .str schemaId), (text "stages", .arr [
    .obj [(text "id", .str (text "a")), (text "kind", .str (text "generate")),
      (text "provider", .str (text "p"))],
    .obj [(text "id", .str (text "b")), (text "kind", .str (text "generate")),
      (text "provider", .str (text "p")), (text "depends_on", .arr dependsOn)]])]

/-- The first of the stages. -/
def stageA : Json Unit := .str (text "a")

/-- For two stages in a row the check is exact. -/
theorem detectCycle_exact_twoStages : ∃ draft,
    loadDraft plainValues [text "p"] (twoStages [stageA]) = .ok draft ∧
      (((detectCycle plainValues (stageMap plainValues draft.stages) = none ↔
          ∀ id, ¬ TransGen (DependsOn plainValues draft.stages) id id) ∧
        ∀ ids, detectCycle plainValues (stageMap plainValues draft.stages) = some ids →
          ∀ id, id ∈ ids ↔ Blocked (DependsOn plainValues draft.stages) id) ↔
      ∀ stage ∈ draft.stages, ¬ (stage.deps plainValues).Nodup →
        Blocked (DependsOn plainValues draft.stages) (plainValues.keyOf stage.id)) := by
  have hloads : (loadDraft plainValues [text "p"] (twoStages [stageA])).toOption.isSome = true := by
    decide +kernel
  obtain ⟨draft, hdraft⟩ := Option.isSome_iff_exists.mp hloads
  have hdraft := toOption_eq_some_iff.mp hdraft
  exact ⟨draft, hdraft, detectCycle_exact_iff _ _ _ draft hdraft⟩

/-- The place of a stage in the row. -/
def rank (id : Key Unit) : ℕ := if id = .str (text "a") then 0 else 1

/-- **A repeated dependency** is taken for a cycle. -/
theorem repeated_not_exact : ¬ ∀ draft : Draft Unit,
    loadDraft plainValues [text "p"] (twoStages [stageA, stageA]) = .ok draft →
      (detectCycle plainValues (stageMap plainValues draft.stages) = none ↔
        ∀ id, ¬ TransGen (DependsOn plainValues draft.stages) id id) := by
  intro hall
  have hrejected : (loadDraft plainValues [text "p"] (twoStages [stageA, stageA])).toOption.any
      (fun draft => (detectCycle plainValues (stageMap plainValues draft.stages)).isSome &&
        draft.stages.all fun stage => (stage.deps plainValues).all fun dep =>
          decide (rank dep < rank (plainValues.keyOf stage.id))) = true := by
    decide +kernel
  obtain ⟨draft, hdraft, hany⟩ := (Option.any_eq_true _ _).mp hrejected
  obtain ⟨hcycle, hranks⟩ := Bool.and_eq_true_iff.mp hany
  have hacyclic : ∀ id, ¬ TransGen (DependsOn plainValues draft.stages) id id := by
    refine acyclic_of_rank rank ?_
    rintro id dep ⟨stage, hstage, rfl, hdep⟩
    exact of_decide_eq_true (all_eq_true.mp (all_eq_true.mp hranks stage hstage) dep hdep)
  rw [(hall draft (toOption_eq_some_iff.mp hdraft)).mpr hacyclic] at hcycle
  cases hcycle

end GpuManager.Services
