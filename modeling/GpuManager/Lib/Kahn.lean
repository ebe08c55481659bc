import Mathlib.Data.Int.Notation
import Mathlib.Data.List.Nodup
import Mathlib.Data.List.Perm.Subperm
import Mathlib.Data.Nat.Notation
import Mathlib.Logic.Function.Basic
import GpuManager.Lib.Acyclic

/-!
# Kahn's algorithm

A graph is a list of nodes and, for each node, the list of nodes it depends on.  The
algorithm keeps for every node the number of dependencies that it has not visited yet and a
stack of the nodes for which that number has reached zero; it visits the top of the stack
and takes one off the count of each node that depends on it.

A node is only ever visited after everything it depends on (`Ordered`).  What is
load-bearing downstream is the consequence for a pass that has visited every node: any
non-empty set of nodes has an element none of whose dependencies lies in the set
(`exists_minimal`).  A pass over a graph without cycles visits every node
(`visited_of_acyclic`).
-/

namespace Kahn

open List

variable {α : Type} {order rest : List α} {current n : α} {P : α → Prop}

/-- Each node of the list comes after (that is, in front of) all it depends on. -/
def Ordered (deps : α → List α) : List α → Prop
  | [] => True
  | node :: earlier => (∀ d ∈ deps node, d ∈ earlier) ∧ Ordered deps earlier

/-- The first visited node of a set depends on no other node of it. -/
theorem Ordered.exists_minimal {deps : α → List α}
    (h : Ordered deps order) (hne : ∃ node ∈ order, P node) :
    ∃ node ∈ order, P node ∧ ∀ d ∈ deps node, ¬ P d := by
  induction order with
  | nil =>
    obtain ⟨node, hmem, -⟩ := hne
    cases hmem
  | cons latest earlier ih =>
    by_cases hearlier : ∃ node ∈ earlier, P node
    · obtain ⟨node, hmem, hP, hmin⟩ := ih h.2 hearlier
      exact ⟨node, mem_cons_of_mem _ hmem, hP, hmin⟩
    -- nothing visited before has the property, so none of the dependencies has
    obtain ⟨node, hmem, hP⟩ := hne
    rcases mem_cons.mp hmem with rfl | hmem
    · exact ⟨node, mem_cons_self, hP, fun d hd hPd => hearlier ⟨d, h.1 d hd, hPd⟩⟩
    · exact absurd ⟨node, hmem, hP⟩ hearlier

theorem Ordered.closed {deps : α → List α} (h : Ordered deps order) :
    ∀ n ∈ order, ∀ d ∈ deps n, d ∈ order := by
  induction order with
  | nil => intro n hn; cases hn
  | cons latest earlier ih =>
    intro n hn d hd
    rcases mem_cons.mp hn with rfl | hn
    · exact mem_cons_of_mem _ (h.1 d hd)
    · exact mem_cons_of_mem _ (ih h.2 n hn d hd)

/-- What depends on earlier nodes alone may come after them. -/
theorem Ordered.append {deps : α → List α} {later earlier : List α} (h : Ordered deps earlier)
    (hlater : ∀ n ∈ later, ∀ d ∈ deps n, d ∈ earlier) : Ordered deps (later ++ earlier) := by
  induction later with
  | nil => exact h
  | cons n later ih =>
    refine ⟨fun d hd => mem_append_right _ (hlater n mem_cons_self d hd), ?_⟩
    exact ih fun m hm => hlater m (mem_cons_of_mem _ hm)

/-- In the order of the visits a node has a higher index than what it depends on. -/
theorem Ordered.idxOf_lt [BEq α] [LawfulBEq α] {deps : α → List α} (h : Ordered deps order)
    (hnodup : order.Nodup) {d : α} (hn : n ∈ order) (hd : d ∈ deps n) :
    order.reverse.idxOf d < order.reverse.idxOf n := by
  induction order with
  | nil => cases hn
  | cons latest earlier ih =>
    obtain ⟨hout, hnodup⟩ := nodup_cons.mp hnodup
    rw [reverse_cons]
    rcases mem_cons.mp hn with rfl | hn
    · have hearlier := mem_reverse.mpr (h.1 d hd)
      rw [idxOf_append_of_mem hearlier,
        idxOf_append_of_notMem fun hmem => hout (mem_reverse.mp hmem)]
      exact Nat.lt_add_right _ (idxOf_lt_length_of_mem hearlier)
    · have hearlier := mem_reverse.mpr (h.2.closed n hn d hd)
      rw [idxOf_append_of_mem hearlier, idxOf_append_of_mem (mem_reverse.mpr hn)]
      exact ih h.2 hnodup hn

/-! ## The loop -/

variable [DecidableEq α]

/-- The state of a pass: the open dependencies of each node, the stack of nodes that wait
to be visited, and the nodes visited so far, the latest first. -/
structure Pass (α : Type) where
  indegree : α → ℤ
  ready : List α
  visited : List α

/-- The nodes that depend on a node. -/
def children (nodes : List α) (deps : α → List α) (node : α) : List α :=
  nodes.filter fun child => node ∈ deps child

/-- Every dependency is open, and the nodes without any are ready. -/
def start (nodes : List α) (deps : α → List α) : Pass α where
  indegree node := (deps node).length
  ready := nodes.filter fun node => (deps node).length = 0
  visited := []

def release (pass : Pass α) (child : α) : Pass α :=
  let degree := pass.indegree child - 1
  { pass with
    indegree := Function.update pass.indegree child degree
    ready := if degree = 0 then child :: pass.ready else pass.ready }

/-- The body of the loop: the top of the stack is visited. -/
def visit (nodes : List α) (deps : α → List α) (pass : Pass α) (current : α) (rest : List α) :
    Pass α :=
  (children nodes deps current).foldl release
    { pass with ready := rest, visited := current :: pass.visited }

def loop (nodes : List α) (deps : α → List α) : ℕ → Pass α → Pass α
  | 0, pass => pass
  | fuel + 1, pass =>
    match pass.ready with
    | [] => pass
    | current :: rest => loop nodes deps fuel (visit nodes deps pass current rest)

/-- A whole pass.  No node is visited twice (`loop_ready`), so that as many visits as there
are nodes suffice. -/
def run (nodes : List α) (deps : α → List α) : Pass α :=
  loop nodes deps nodes.length (start nodes deps)

section Release

variable {cs : List α}

/-- What the inner loop does: each child loses one open dependency, and the children that
had one left become ready. -/
theorem foldl_release (pass : Pass α) (hcs : cs.Nodup) :
    (cs.foldl release pass).visited = pass.visited ∧
    (∀ n, (cs.foldl release pass).indegree n =
      if n ∈ cs then pass.indegree n - 1 else pass.indegree n) ∧
    ∀ n, n ∈ (cs.foldl release pass).ready ↔ n ∈ pass.ready ∨ (n ∈ cs ∧ pass.indegree n = 1) := by
  induction cs generalizing pass with
  | nil => simp
  | cons c cs ih =>
    obtain ⟨hc, hcs⟩ := nodup_cons.mp hcs
    obtain ⟨hvisited, hdegree, hready⟩ := ih (release pass c) hcs
    have hother : ∀ n, n ≠ c → (release pass c).indegree n = pass.indegree n :=
      fun n hn => Function.update_of_ne hn _ _
    have hself : (release pass c).indegree c = pass.indegree c - 1 := Function.update_self ..
    refine ⟨hvisited, fun n => ?_, fun n => ?_⟩
    · show (cs.foldl release (release pass c)).indegree n = _
      rw [hdegree]
      by_cases hn : n = c
      · subst hn
        simp [hc, hself]
      · simp [hn, hother n hn]
    · show n ∈ (cs.foldl release (release pass c)).ready ↔ _
      rw [hready]
      have hstack : n ∈ (release pass c).ready ↔
          n ∈ pass.ready ∨ (n = c ∧ pass.indegree c = 1) := by
        unfold release
        by_cases hdeg : pass.indegree c = 1
        · simp [hdeg, or_comm]
        · have : pass.indegree c - 1 ≠ 0 := by omega
          simp [hdeg, this]
      rw [hstack]
      by_cases hn : n = c
      · subst hn
        simp [hc]
      · simp [hn, hother n hn]

/-- The stack holds no node twice if no child with one open dependency was on it. -/
theorem nodup_foldl_release (pass : Pass α) (hcs : cs.Nodup) (hready : pass.ready.Nodup)
    (hnew : ∀ c ∈ cs, pass.indegree c = 1 → c ∉ pass.ready) :
    (cs.foldl release pass).ready.Nodup := by
  induction cs generalizing pass with
  | nil => exact hready
  | cons c cs ih =>
    obtain ⟨hc, hcs⟩ := nodup_cons.mp hcs
    refine ih (release pass c) hcs ?_ ?_
    · unfold release
      by_cases hdeg : pass.indegree c - 1 = 0
      · simp only [hdeg, if_true]
        exact nodup_cons.mpr ⟨hnew c mem_cons_self (by omega), hready⟩
      · simpa only [hdeg, if_false] using hready
    · intro m hm hone
      have hne : m ≠ c := fun h => hc (h ▸ hm)
      have hkept : (release pass c).indegree m = pass.indegree m := Function.update_of_ne hne _ _
      have hout := hnew m (mem_cons_of_mem _ hm) (hkept ▸ hone)
      unfold release
      by_cases hdeg : pass.indegree c - 1 = 0
      · simp [hdeg, hne, hout]
      · simpa [hdeg] using hout

end Release

section Run

variable {nodes : List α} {deps : α → List α} {pass : Pass α} {fuel : ℕ}

/-- The invariant of the loop. -/
structure Sound (nodes : List α) (deps : α → List α) (pass : Pass α) : Prop where
  /-- the count of a node is the number of its dependencies not visited yet -/
  count : ∀ n ∈ nodes, pass.indegree n = (deps n).countP (· ∉ pass.visited)
  /-- a node on the stack waits for nothing -/
  met : ∀ n ∈ pass.ready, ∀ d ∈ deps n, d ∈ pass.visited
  ready : ∀ n ∈ pass.ready, n ∈ nodes
  visited : ∀ n ∈ pass.visited, n ∈ nodes
  apart : ∀ n ∈ pass.ready, n ∉ pass.visited
  readyNodup : pass.ready.Nodup
  visitedNodup : pass.visited.Nodup
  ordered : Ordered deps pass.visited

theorem Sound.start (hnodes : nodes.Nodup) : Sound nodes deps (start nodes deps) where
  count n _ := by simp [Kahn.start, countP_eq_length_filter]
  met n hn d hd := by
    have hnone : (deps n).length = 0 := by simpa [Kahn.start] using (mem_filter.mp hn).2
    rw [eq_nil_of_length_eq_zero hnone] at hd
    cases hd
  ready n hn := (mem_filter.mp hn).1
  visited n hn := by cases hn
  apart n _ hn := by cases hn
  readyNodup := hnodes.filter _
  visitedNodup := nodup_nil
  ordered := trivial

/-- Visiting a node takes it out of the open dependencies of its children, once each. -/
theorem countP_visit {l visited : List α} (hl : l.Nodup) (hcurrent : current ∉ visited) :
    (l.countP (· ∉ current :: visited) : ℤ) =
      if current ∈ l then (l.countP (· ∉ visited) : ℤ) - 1 else l.countP (· ∉ visited) := by
  induction l with
  | nil => simp
  | cons a l ih =>
    obtain ⟨ha, hl⟩ := nodup_cons.mp hl
    have hrest := ih hl
    rw [countP_cons, countP_cons]
    push_cast
    by_cases hac : a = current
    · subst hac
      rw [if_neg ha] at hrest
      rw [hrest]
      simp [hcurrent]
    · have hca : ¬ current = a := fun h => hac h.symm
      rw [hrest]
      by_cases hav : a ∈ visited <;> by_cases hin : current ∈ l <;> simp [hac, hca, hav, hin]

/-- Visiting the first ready node keeps the pass sound. -/
theorem Sound.visit (h : Sound nodes deps pass) (hnodes : nodes.Nodup)
    (hdeps : ∀ n ∈ nodes, (deps n).Nodup) (hready : pass.ready = current :: rest) :
    Sound nodes deps (visit nodes deps pass current rest) := by
  have hcs : (children nodes deps current).Nodup := hnodes.filter _
  have hcur : current ∈ pass.ready := by rw [hready]; exact mem_cons_self
  have hfresh : current ∉ pass.visited := h.apart _ hcur
  obtain ⟨hout, hrest⟩ := nodup_cons.mp (hready ▸ h.readyNodup)
  have hsub : ∀ n ∈ rest, n ∈ pass.ready := fun n hn => by
    rw [hready]
    exact mem_cons_of_mem _ hn
  obtain ⟨hvisited, hdegree, hstack⟩ : (Kahn.visit nodes deps pass current rest).visited =
      current :: pass.visited ∧ _ := foldl_release _ hcs
  have hchild : ∀ n, n ∈ children nodes deps current ↔ n ∈ nodes ∧ current ∈ deps n := by
    intro n
    simp [children]
  -- a node is put on the stack when its last open dependency is the one visited now
  have hlast : ∀ n, n ∈ nodes → current ∈ deps n → pass.indegree n = 1 →
      ∀ d ∈ deps n, d ∈ current :: pass.visited := by
    intro n hn hdep hone d hd
    have hnone := countP_visit (hdeps n hn) hfresh
    rw [if_pos hdep, ← h.count n hn, hone] at hnone
    have hzero : (deps n).countP (· ∉ current :: pass.visited) = 0 := by omega
    by_contra hout
    exact countP_eq_zero.mp hzero d hd (decide_eq_true hout)
  have hwaits : ∀ n ∈ pass.ready, current ∉ deps n := fun n hn hdep =>
    hfresh (h.met n hn current hdep)
  constructor
  case count =>
    intro n hn
    show (List.foldl release _ _).indegree n = _
    rw [hdegree, hvisited, countP_visit (hdeps n hn) hfresh, ← h.count n hn]
    simp [hchild, hn]
  case met =>
    intro n hn d hd
    rw [hvisited]
    rcases (hstack n).mp hn with hn | ⟨hn, hone⟩
    · exact mem_cons_of_mem _ (h.met n (hsub n hn) d hd)
    · obtain ⟨hn, hdep⟩ := (hchild n).mp hn
      exact hlast n hn hdep hone d hd
  case ready =>
    intro n hn
    rcases (hstack n).mp hn with hn | ⟨hn, -⟩
    · exact h.ready n (hsub n hn)
    · exact ((hchild n).mp hn).1
  case visited =>
    intro n hn
    rw [hvisited] at hn
    rcases mem_cons.mp hn with rfl | hn
    · exact h.ready _ hcur
    · exact h.visited n hn
  case apart =>
    intro n hn hv
    rw [hvisited] at hv
    rcases (hstack n).mp hn with hn | ⟨hn, -⟩
    · rcases mem_cons.mp hv with rfl | hv
      · exact hout hn
      · exact h.apart n (hsub n hn) hv
    · obtain ⟨-, hdep⟩ := (hchild n).mp hn
      rcases mem_cons.mp hv with rfl | hv
      · exact hwaits _ hcur hdep
      · exact hfresh (h.ordered.closed n hv current hdep)
  case readyNodup =>
    refine nodup_foldl_release _ hcs hrest fun n hn _ hmem => ?_
    exact hwaits n (hsub n hmem) ((hchild n).mp hn).2
  case visitedNodup =>
    rw [hvisited]
    exact nodup_cons.mpr ⟨hfresh, h.visitedNodup⟩
  case ordered =>
    rw [hvisited]
    exact ⟨fun d hd => h.met _ hcur d hd, h.ordered⟩

/-- The invariant of a whole pass, and that the fuel was enough: what is still on the stack
is a node that has not been visited. -/
theorem Sound.loop (h : Sound nodes deps pass) (hnodes : nodes.Nodup)
    (hdeps : ∀ n ∈ nodes, (deps n).Nodup) :
    Sound nodes deps (loop nodes deps fuel pass) ∧
      (nodes.length ≤ pass.visited.length + fuel → (loop nodes deps fuel pass).ready = []) := by
  induction fuel generalizing pass with
  | zero =>
    refine ⟨h, fun hfull => ?_⟩
    show pass.ready = []
    by_contra hne
    obtain ⟨n, hn⟩ := exists_mem_of_ne_nil _ hne
    have hsub : (n :: pass.visited).Subperm nodes :=
      subperm_of_subset (nodup_cons.mpr ⟨h.apart n hn, h.visitedNodup⟩)
        (cons_subset.mpr ⟨h.ready n hn, h.visited⟩)
    have hlen : pass.visited.length + 1 ≤ nodes.length := hsub.length_le
    omega
  | succ fuel ih =>
    unfold loop
    cases hready : pass.ready with
    | nil => exact ⟨h, fun _ => hready⟩
    | cons current rest =>
      obtain ⟨hsound, hdone⟩ := ih (h.visit hnodes hdeps hready)
      refine ⟨hsound, fun hfull => hdone ?_⟩
      have hvisited : (Kahn.visit nodes deps pass current rest).visited =
          current :: pass.visited := (foldl_release _ (hnodes.filter _)).1
      rw [hvisited, length_cons]
      omega

/-- No node was forgotten: one without open dependencies is on the stack or was visited. -/
def Exhaustive (nodes : List α) (pass : Pass α) : Prop :=
  ∀ n ∈ nodes, pass.indegree n = 0 → n ∈ pass.ready ∨ n ∈ pass.visited

omit [DecidableEq α] in
theorem Exhaustive.start : Exhaustive nodes (start nodes deps) := by
  intro n hn hzero
  have hlength : (deps n).length = 0 := Int.natCast_eq_zero.mp hzero
  exact Or.inl (mem_filter.mpr ⟨hn, decide_eq_true hlength⟩)

theorem Exhaustive.visit (h : Exhaustive nodes pass) (hnodes : nodes.Nodup)
    (hready : pass.ready = current :: rest) :
    Exhaustive nodes (visit nodes deps pass current rest) := by
  have hcs : (children nodes deps current).Nodup := hnodes.filter _
  obtain ⟨hvisited, hdegree, hstack⟩ : (Kahn.visit nodes deps pass current rest).visited =
      current :: pass.visited ∧ _ := foldl_release _ hcs
  intro n hn hzero
  have hzero : (if n ∈ children nodes deps current then pass.indegree n - 1
      else pass.indegree n) = 0 := (hdegree n).symm.trans hzero
  rw [hvisited]
  split at hzero
  case isTrue hchild =>
    have hone : pass.indegree n = 1 := by omega
    exact Or.inl ((hstack n).mpr (Or.inr ⟨hchild, hone⟩))
  case isFalse =>
    rcases h n hn hzero with hmem | hmem
    · rw [hready] at hmem
      rcases mem_cons.mp hmem with rfl | hmem
      · exact Or.inr mem_cons_self
      · exact Or.inl ((hstack n).mpr (Or.inl hmem))
    · exact Or.inr (mem_cons_of_mem _ hmem)

theorem Exhaustive.loop (h : Exhaustive nodes pass) (hnodes : nodes.Nodup) :
    Exhaustive nodes (loop nodes deps fuel pass) := by
  induction fuel generalizing pass with
  | zero => exact h
  | succ fuel ih =>
    unfold Kahn.loop
    cases hready : pass.ready with
    | nil => exact h
    | cons current rest => exact ih (h.visit hnodes hready)

/-- A pass ends with an empty stack. -/
theorem ready_run (hnodes : nodes.Nodup) (hdeps : ∀ n ∈ nodes, (deps n).Nodup) :
    (run nodes deps).ready = [] :=
  ((Sound.start hnodes).loop hnodes hdeps).2 (Nat.le_add_left ..)

/-- Where every node has been visited, a set of nodes has an element that depends on no
other element of the set. -/
theorem exists_minimal (hnodes : nodes.Nodup) (hdeps : ∀ n ∈ nodes, (deps n).Nodup)
    (hall : (run nodes deps).visited.length = nodes.length)
    (hne : ∃ n ∈ nodes, P n) : ∃ n ∈ nodes, P n ∧ ∀ d ∈ deps n, ¬ P d := by
  have hsound : Sound nodes deps (run nodes deps) :=
    ((Sound.start hnodes).loop hnodes hdeps).1
  have hperm : (run nodes deps).visited.Perm nodes :=
    (subperm_of_subset hsound.visitedNodup hsound.visited).perm_of_length_le (Nat.le_of_eq hall.symm)
  obtain ⟨n, hn, hP⟩ := hne
  obtain ⟨m, hm, hmin⟩ := hsound.ordered.exists_minimal ⟨n, hperm.mem_iff.mpr hn, hP⟩
  exact ⟨m, hperm.mem_iff.mp hm, hmin⟩

/-- What a pass leaves out depends on something that it leaves out. -/
theorem exists_unvisited (hnodes : nodes.Nodup) (hdeps : ∀ n ∈ nodes, (deps n).Nodup)
    (hn : n ∈ nodes) (hout : n ∉ (run nodes deps).visited) :
    ∃ d ∈ deps n, d ∉ (run nodes deps).visited := by
  have hsound : Sound nodes deps (run nodes deps) :=
    ((Sound.start hnodes).loop hnodes hdeps).1
  have hexhaustive : Exhaustive nodes (run nodes deps) := Exhaustive.start.loop hnodes
  by_contra hnone
  have hzero : (deps n).countP (· ∉ (run nodes deps).visited) = 0 :=
    countP_eq_zero.mpr fun d hd hopen => hnone ⟨d, hd, of_decide_eq_true hopen⟩
  rcases hexhaustive n hn (by rw [hsound.count n hn, hzero]; rfl) with hready | hvisited
  · rw [ready_run hnodes hdeps] at hready
    cases hready
  · exact hout hvisited

/-- A pass over a graph without cycles visits every node. -/
theorem visited_of_acyclic (hnodes : nodes.Nodup) (hdeps : ∀ n ∈ nodes, (deps n).Nodup)
    (hknown : ∀ n ∈ nodes, ∀ d ∈ deps n, d ∈ nodes)
    (hacyclic : ∀ n ∈ nodes, ¬ Relation.TransGen (fun a b => b ∈ deps a) n n) :
    (run nodes deps).visited.length = nodes.length := by
  have hsound : Sound nodes deps (run nodes deps) :=
    ((Sound.start hnodes).loop hnodes hdeps).1
  have hall : ∀ n ∈ nodes, n ∈ (run nodes deps).visited := by
    by_contra hsome
    push Not at hsome
    have hfin : {n | n ∈ nodes ∧ n ∉ (run nodes deps).visited}.Finite :=
      nodes.finite_toSet.subset fun n hn => hn.1
    obtain ⟨m, ⟨hm, hout⟩, hmin⟩ := Dependency.exists_minimal hfin hsome fun n hn => hacyclic n hn.1
    obtain ⟨d, hd, hdout⟩ := exists_unvisited hnodes hdeps hm hout
    exact hmin d ⟨hknown m hm d hd, hdout⟩ hd
  exact le_antisymm (subperm_of_subset hsound.visitedNodup hsound.visited).length_le
    (subperm_of_subset hnodes hall).length_le

end Run

end Kahn
