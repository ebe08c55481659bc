import GpuManager.Lib.PyDict
import Mathlib.Algebra.BigOperators.Group.List.Basic
import Mathlib.Algebra.Order.BigOperators.Group.List
import Mathlib.Algebra.Order.Ring.Int

/-!
# Bundle identities

`validate_bundle_identities` makes eight checks of each bundle that is not idle and looks every
claim up; `validate_aggregate_dual_gpu_capacity` compares the slots on the two sides of a resource
group.  In a map that both accept each primary claims itself and what it links, and nothing else
(`accepted_paired`).  Nothing compares `linked_to` with `linked_from`, asks whether a linked bundle
is idle, or keeps two primaries from linking one secondary (`shared_secondary`).
-/

namespace GpuManager.Contracts

open List

/-- What the checks read of a bundle; `claimResources` is `none` also for what is no list. -/
structure BundleCfg where
  idle : Bool := false
  services : List String := []
  linkedTo : List String := []
  linkedFrom : List String := []
  claimResources : Option (List String) := none
  capacitySlots : Option ℤ := none
  resourceGroup : Option String := none
  resourceRole : Option String := none
  resourceContract : Option String := none
  routingGroup : Option String := none

abbrev Bundles := PyDict String BundleCfg

structure Texts where
  list : List String → String
  repr : Option String → String
  reprInt : Option ℤ → String

namespace BundleCfg

/-- `_is_primary`. -/
def isPrimary (cfg : BundleCfg) : Bool := !cfg.linkedTo.isEmpty && cfg.linkedFrom.isEmpty

/-- `_is_secondary`. -/
def isSecondary (cfg : BundleCfg) : Bool := !cfg.linkedFrom.isEmpty

end BundleCfg

/-- The text of `BundleIdentityError` where the condition holds. -/
def refuse (p : Prop) [Decidable p] (message : String) : Option String :=
  if p then some message else none

section Checks

variable (texts : Texts) (name : String) (cfg : BundleCfg)

/-- `validate_primary_claims`. -/
def validatePrimaryClaims : Option String :=
  if cfg.isPrimary = false then none
  else
    let claims := cfg.claimResources.getD []
    let subject := "primary bundle '" ++ name
    let must := subject ++ "' claim_resources must include "
    (refuse (claims = []) (subject ++ "' is missing or has empty claim_resources — must list " ++
      "itself and all linked secondaries")).or <|
    (refuse (name ∉ claims) (must ++ "'" ++ name ++ "' itself; got " ++ texts.list claims)).or <|
    (cfg.linkedTo.findSome? fun secondary => refuse (secondary ∉ claims)
      (must ++ "linked secondary '" ++ secondary ++ "'; got " ++ texts.list claims)).or <|
    claims.findSome? fun claimed => refuse (claimed ≠ name ∧ claimed ∉ cfg.linkedTo)
      (subject ++ "' claim_resources references '" ++ claimed ++
        "' which is not in its linked_to list " ++ texts.list cfg.linkedTo)

/-- `validate_secondary_claims`. -/
def validateSecondaryClaims : Option String :=
  if cfg.isSecondary = false then none
  else
    let claims := cfg.claimResources.getD []
    let subject := "secondary bundle '" ++ name
    (refuse (claims = []) (subject ++ "' is missing or has empty claim_resources — must list " ++
      "only itself")).or <|
    refuse (claims ≠ [name]) (subject ++ "' claim_resources must list only itself; got " ++
      texts.list claims)

/-- `validate_capacity_slots`. -/
def validateCapacitySlots : Option String :=
  refuse (cfg.idle = false ∧ cfg.services ≠ [] ∧ ¬ cfg.capacitySlots.any (1 ≤ ·))
    ("top-level non-idle bundle '" ++ name ++ "' (services=" ++ texts.list cfg.services ++
      ") must declare capacity_slots as a positive integer; got " ++
      texts.reprInt cfg.capacitySlots)

/-- `validate_resource_role`. -/
def validateResourceRole : Option String :=
  let is (position declared : String) :=
    "bundle '" ++ name ++ "' is a " ++ position ++ " but resource_role is " ++
      texts.repr cfg.resourceRole ++ " instead of '" ++ declared ++ "'"
  (refuse (cfg.idle = false ∧ cfg.isPrimary ∧ cfg.resourceRole ≠ some "primary")
    (is "primary (linked_to is non-empty, linked_from is empty)" "primary")).or <|
  refuse (cfg.idle = false ∧ cfg.isSecondary ∧ cfg.resourceRole ≠ some "secondary")
    (is "secondary (linked_from is non-empty)" "secondary")

/-- The value is missing or empty. -/
def falsy (value : Option String) : Bool := value.all (· = "")

/-- `validate_resource_group`. -/
def validateResourceGroup : Option String :=
  refuse (cfg.idle = false ∧ falsy cfg.resourceGroup)
    ("non-idle bundle '" ++ name ++ "' must declare resource_group; got " ++
      texts.repr cfg.resourceGroup)

/-- `validate_resource_contract`. -/
def validateResourceContract : Option String :=
  refuse (cfg.idle = false ∧ (cfg.isPrimary ∨ cfg.isSecondary) ∧
      cfg.resourceContract ≠ some "exclusive")
    ("bundle '" ++ name ++ "' participates in dual-GPU scheduling (is primary or secondary) but " ++
      "resource_contract is " ++ texts.repr cfg.resourceContract ++ " instead of 'exclusive'")

def validateRoutingGroupPresence : Option String :=
  refuse (cfg.idle = false ∧ cfg.services ≠ [] ∧ falsy cfg.routingGroup)
    ("non-idle top-level bundle '" ++ name ++ "' (services=" ++ texts.list cfg.services ++
      ") must declare routing_group; got " ++ texts.repr cfg.routingGroup)

/-- `validate_routing_group_chain_consistency`; a peer that does not exist declares none. -/
def validateRoutingGroupChainConsistency (allBundles : Bundles) : Option String :=
  let group (peer : String) := (allBundles.get? peer).bind (·.routingGroup)
  let own := cfg.routingGroup
  let message (subject peerIs peer : String) (declared : Option String) :=
    subject ++ " bundle '" ++ name ++ "' has routing_group '" ++ own.getD "None" ++ "' but " ++
      peerIs ++ " '" ++ peer ++ "' declares routing_group '" ++ declared.getD "" ++
      "' — all members of a dual-GPU exclusive chain must share the same routing_group"
  if cfg.idle then none
  else
    (if cfg.linkedFrom = [] then
      cfg.linkedTo.findSome? fun peer => refuse (¬ falsy (group peer) ∧ group peer ≠ own)
        (message "primary" "secondary" peer (group peer))
    else none).or <|
    if cfg.linkedTo = [] then
      cfg.linkedFrom.findSome? fun peer =>
        refuse (¬ falsy own ∧ ¬ falsy (group peer) ∧ own ≠ group peer)
          (message "secondary" "its primary" peer (group peer))
    else none

/-- `validate_claim_reference`. -/
def validateClaimReference (claim : String) (allBundleNames : List String) : Option String :=
  refuse (claim ∉ allBundleNames)
    ("bundle '" ++ name ++ "' claims resource '" ++ claim ++
      "' which does not exist in bundles\x7b\x7d")

end Checks

def caught (tag : String) (raised : Option String) : List String :=
  (raised.map fun message => "[" ++ tag ++ "] " ++ message).toList

/-- `validate_bundle_identities`. -/
def validateBundleIdentities (texts : Texts) (bundles : Bundles) : List String :=
  (bundles.flatMap fun (name, cfg) =>
    if cfg.idle then []
    else
      caught "capacity_slots" (validateCapacitySlots texts name cfg) ++
      caught "resource_group" (validateResourceGroup texts name cfg) ++
      caught "resource_role" (validateResourceRole texts name cfg) ++
      caught "resource_contract" (validateResourceContract texts name cfg) ++
      caught "primary_claims" (validatePrimaryClaims texts name cfg) ++
      caught "secondary_claims" (validateSecondaryClaims texts name cfg) ++
      caught "routing_group_presence" (validateRoutingGroupPresence texts name cfg) ++
      caught "routing_group_chain"
        (validateRoutingGroupChainConsistency name cfg bundles)) ++
  bundles.flatMap fun (name, cfg) => (cfg.claimResources.getD []).flatMap fun claim =>
    caught "claim_reference" (validateClaimReference name claim (bundles.map (·.1)))

/-! ## Capacity -/

/-- The slots of a resource group, by the part that a bundle has in it. -/
structure Counts where
  primary : ℤ := 0
  secondary : ℤ := 0
  total : ℤ := 0

def Counts.add (counts : Counts) (cfg : BundleCfg) (slots : ℤ) : Counts :=
  if cfg.isPrimary then { counts with primary := counts.primary + slots }
  else if cfg.isSecondary then { counts with secondary := counts.secondary + slots }
  else { counts with total := counts.total + slots }

/-- The group of a bundle and the slots counted there; `none` where the loop goes on. -/
def counted (slots : BundleCfg → Option ℤ) (cfg : BundleCfg) : Option (String × ℤ) :=
  if cfg.idle ∨ falsy cfg.resourceGroup then none
  else cfg.resourceGroup.bind fun group => (slots cfg).map (group, ·)

/-- A turn of the loop that both functions on capacities make. -/
def countBundle (slots : BundleCfg → Option ℤ) (byGroup : PyDict String Counts) (cfg : BundleCfg) :
    PyDict String Counts :=
  match counted slots cfg with
  | none => byGroup
  | some (group, n) => byGroup.set group (((byGroup.get? group).getD {}).add cfg n)

def tally (slots : BundleCfg → Option ℤ) (byGroup : PyDict String Counts) (bundles : Bundles) :
    PyDict String Counts :=
  bundles.foldl (fun byGroup e => countBundle slots byGroup e.2) byGroup

/-- What `compute_aggregate_capacity` counts: a positive number of slots. -/
def positiveSlots (cfg : BundleCfg) : Option ℤ := cfg.capacitySlots.filter (1 ≤ ·)

/-- What `validate_aggregate_dual_gpu_capacity` counts: the slots of a linked bundle, `0` without
any. -/
def linkedSlots (cfg : BundleCfg) : Option ℤ :=
  if cfg.isPrimary ∨ cfg.isSecondary then some (cfg.capacitySlots.getD 0) else none

def Counts.logical (counts : Counts) : ℤ := counts.primary + counts.total

/-- `compute_aggregate_capacity`. -/
def computeAggregateCapacity (bundles : Bundles) : PyDict String ℤ :=
  (tally positiveSlots [] bundles).map fun (group, counts) => (group, counts.logical)

def validateAggregateDualGpuCapacity (bundles : Bundles) : List String :=
  (tally linkedSlots [] bundles).filterMap fun (group, counts) =>
    refuse (counts.primary ≠ counts.secondary)
      ("resource_group '" ++ group ++ "' has asymmetric dual-GPU capacity: primary=" ++
        toString counts.primary ++ " secondary=" ++ toString counts.secondary ++
        ". For exclusive dual-GPU groups, both sides must be equal (the primary claims both " ++
        "GPUs atomically).")

/-- Both validators return no error. -/
def Accepted (texts : Texts) (bundles : Bundles) : Prop :=
  validateBundleIdentities texts bundles = [] ∧ validateAggregateDualGpuCapacity bundles = []

instance (texts : Texts) (bundles : Bundles) : Decidable (Accepted texts bundles) :=
  inferInstanceAs (Decidable (_ ∧ _))

def share (group : String) (cfg : BundleCfg) : ℤ :=
  match counted positiveSlots cfg with
  | some (declared, n) => if declared = group ∧ cfg.isSecondary = false then n else 0
  | none => 0

/-- The slots of the primaries and the standalone bundles of a group. -/
def groupSlots (group : String) (bundles : Bundles) : ℤ :=
  (bundles.map fun e => share group e.2).sum

theorem logical_add (counts : Counts) (cfg : BundleCfg) (n : ℤ) :
    (counts.add cfg n).logical = counts.logical + if cfg.isSecondary = false then n else 0 := by
  unfold Counts.add Counts.logical
  by_cases hprimary : cfg.isPrimary = true
  · have hsecondary : cfg.isSecondary = false := by
      simp_all [BundleCfg.isPrimary, BundleCfg.isSecondary]
    simp only [hprimary, hsecondary, if_true]
    omega
  · by_cases hsecondary : cfg.isSecondary = true <;> simp [hprimary, hsecondary]
    omega

theorem share_nonneg (group : String) (cfg : BundleCfg) : 0 ≤ share group cfg := by
  unfold share
  cases h : counted positiveSlots cfg with
  | none => exact le_refl 0
  | some e =>
    have hpos : 1 ≤ e.2 := by
      unfold counted at h
      split at h
      · cases h
      obtain ⟨g, -, hg⟩ := Option.bind_eq_some_iff.mp h
      obtain ⟨n, hn, rfl⟩ := Option.map_eq_some_iff.mp hg
      simpa using (Option.filter_eq_some_iff.mp hn).2
    dsimp only
    split <;> omega

/-- A turn adds the share of the bundle. -/
theorem countBundle_logical (group : String) (byGroup : PyDict String Counts) (cfg : BundleCfg) :
    (((countBundle positiveSlots byGroup cfg).get? group).getD {}).logical =
      ((byGroup.get? group).getD {}).logical + share group cfg := by
  unfold countBundle share
  cases counted positiveSlots cfg with
  | none => exact (add_zero _).symm
  | some c =>
    rw [PyDict.get?_set]
    by_cases hgroup : group = c.1
    · simp [hgroup, logical_add]
    · simp [hgroup, Ne.symm hgroup]

/-- The tally after some bundles is the one before them and what these add. -/
theorem tally_logical (group : String) (bundles : Bundles) (byGroup : PyDict String Counts) :
    (((tally positiveSlots byGroup bundles).get? group).getD {}).logical =
      ((byGroup.get? group).getD {}).logical + groupSlots group bundles := by
  induction bundles generalizing byGroup with
  | nil => exact (add_zero _).symm
  | cons e bundles ih =>
    have hstep := ih (countBundle positiveSlots byGroup e.2)
    rw [countBundle_logical, add_assoc] at hstep
    exact hstep

/-- A group with a counted bundle is in the tally. -/
theorem tally_isSome {slots : BundleCfg → Option ℤ} {group : String} {bundles : Bundles}
    {byGroup : PyDict String Counts}
    (h : (byGroup.get? group).isSome ∨ ∃ e ∈ bundles, ∃ n, counted slots e.2 = some (group, n)) :
    ((tally slots byGroup bundles).get? group).isSome := by
  induction bundles generalizing byGroup with
  | nil => simpa [tally] using h
  | cons e bundles ih =>
    refine ih ?_
    change ((countBundle slots byGroup e.2).get? group).isSome ∨ _
    rcases h with h | ⟨e', he, n, hn⟩
    · left
      unfold countBundle
      cases counted slots e.2 with
      | none => exact h
      | some c =>
        rw [PyDict.get?_set]
        split
        · rfl
        · exact h
    · rcases mem_cons.mp he with rfl | he
      · left
        simp [countBundle, hn]
      · exact Or.inr ⟨e', he, n, hn⟩

variable {e : String × BundleCfg}

/-- `compute_aggregate_capacity` sums up the primaries and the standalone bundles of a group. -/
theorem computeAggregateCapacity_get? {bundles : Bundles}
    (he : e ∈ bundles) {group : String} {n : ℤ}
    (hcounted : counted positiveSlots e.2 = some (group, n)) :
    (computeAggregateCapacity bundles).get? group = some (groupSlots group bundles) := by
  have hlogical := tally_logical group bundles []
  obtain ⟨counts, hcounts⟩ := Option.isSome_iff_exists.mp
    (@tally_isSome positiveSlots group bundles [] (Or.inr ⟨e, he, n, hcounted⟩))
  rw [computeAggregateCapacity, PyDict.get?_mapValues, hcounts]
  rw [hcounts] at hlogical
  simpa [Counts.logical] using hlogical

/-! ## Accepted maps -/

structure Paired (bundles : Bundles) : Prop where
  primary : ∀ e ∈ bundles, e.2.idle = false → e.2.isPrimary →
    (∀ c, c ∈ e.2.claimResources.getD [] ↔ c = e.1 ∨ c ∈ e.2.linkedTo) ∧
      ∀ secondary ∈ e.2.linkedTo, secondary ∈ bundles.map (·.1)
  secondary : ∀ e ∈ bundles, e.2.idle = false → e.2.isSecondary →
    e.2.claimResources = some [e.1]
  shared : ∀ e ∈ bundles, ∀ e' ∈ bundles, (e.2.idle = false ∧ e.2.isPrimary) →
    (e'.2.idle = false ∧ e'.2.isPrimary) → e.1 ≠ e'.1 →
    ∀ c ∈ e.2.claimResources.getD [], c ∈ e'.2.claimResources.getD [] →
      c ∈ e.2.linkedTo ∨ c ∈ e'.2.linkedTo
  capacity : ∀ e ∈ bundles, e.2.idle = false → e.2.isPrimary → e.2.services ≠ [] →
    ∃ group, e.2.resourceGroup = some group ∧ 1 ≤ groupSlots group bundles ∧
      (computeAggregateCapacity bundles).get? group = some (groupSlots group bundles)

theorem refuse_eq_none {p : Prop} [Decidable p] {message : String} :
    refuse p message = none ↔ ¬ p := by
  unfold refuse
  split <;> simp_all

theorem caught_eq_nil {tag : String} {raised : Option String} :
    caught tag raised = [] ↔ raised = none := by
  cases raised <;> simp [caught]

section Accepted

variable {texts : Texts} {name : String} {cfg : BundleCfg} {bundles : Bundles}

theorem validatePrimaryClaims_eq_none (hprimary : cfg.isPrimary = true)
    (h : validatePrimaryClaims texts name cfg = none) (c : String) :
    c ∈ cfg.claimResources.getD [] ↔ c = name ∨ c ∈ cfg.linkedTo := by
  simp only [validatePrimaryClaims, hprimary, Bool.true_eq_false, if_false, Option.or_eq_none_iff,
    findSome?_eq_none_iff, refuse_eq_none, not_not, not_and] at h
  obtain ⟨-, hself, hlinked, honly⟩ := h
  refine ⟨fun hc => or_iff_not_imp_left.mpr (honly c hc), ?_⟩
  rintro (rfl | hc)
  · exact hself
  · exact hlinked c hc

theorem validateSecondaryClaims_eq_none (hsecondary : cfg.isSecondary = true)
    (h : validateSecondaryClaims texts name cfg = none) : cfg.claimResources = some [name] := by
  simp only [validateSecondaryClaims, hsecondary, Bool.true_eq_false, if_false,
    Option.or_eq_none_iff, refuse_eq_none, not_not] at h
  cases hclaims : cfg.claimResources with
  | none => simp [hclaims] at h
  | some claims => simpa [hclaims] using h.2

/-- A checked top-level bundle is counted in its group. -/
theorem counted_of_validate (hidle : cfg.idle = false) (hservices : cfg.services ≠ [])
    (hslots : validateCapacitySlots texts name cfg = none)
    (hgroup : validateResourceGroup texts name cfg = none) :
    ∃ group n, cfg.resourceGroup = some group ∧ 1 ≤ n ∧
      counted positiveSlots cfg = some (group, n) := by
  simp only [validateCapacitySlots, validateResourceGroup, refuse_eq_none, hidle, hservices, ne_eq,
    not_false_eq_true, true_and, not_not, Option.any_eq_true, decide_eq_true_eq] at hslots hgroup
  obtain ⟨n, hn, hpos⟩ := hslots
  cases hdeclared : cfg.resourceGroup with
  | none => simp [hdeclared, falsy] at hgroup
  | some group =>
    refine ⟨group, n, rfl, hpos, ?_⟩
    rw [hdeclared] at hgroup
    simp [counted, positiveSlots, hidle, hdeclared, hgroup, hn, hpos]

variable (h : Accepted texts bundles)
include h

/-- Each check passes on each bundle that is not idle. -/
theorem Accepted.checks (he : e ∈ bundles) (hidle : e.2.idle = false) :
    validateCapacitySlots texts e.1 e.2 = none ∧ validateResourceGroup texts e.1 e.2 = none ∧
      validatePrimaryClaims texts e.1 e.2 = none ∧
      validateSecondaryClaims texts e.1 e.2 = none := by
  have hchecks := flatMap_eq_nil_iff.mp (append_eq_nil_iff.mp h.1).1 e he
  simp only [hidle, Bool.false_eq_true, if_false, append_eq_nil_iff, caught_eq_nil] at hchecks
  tauto

theorem Accepted.claim_mem (he : e ∈ bundles) {claim : String}
    (hclaim : claim ∈ e.2.claimResources.getD []) : claim ∈ bundles.map (·.1) := by
  have hclaims := flatMap_eq_nil_iff.mp (append_eq_nil_iff.mp h.1).2 e he
  have hcaught := flatMap_eq_nil_iff.mp hclaims claim hclaim
  exact not_not.mp (refuse_eq_none.mp (caught_eq_nil.mp hcaught))

/-- **Consistent claims.**  In every map that both validators accept a primary claims itself and
what it links, a secondary itself alone, two primaries share linked bundles only, and the group of a
primary with services has the capacity that is counted for it. -/
theorem accepted_paired : Paired bundles := by
  have hprimary : ∀ e ∈ bundles, e.2.idle = false → e.2.isPrimary → ∀ c,
      c ∈ e.2.claimResources.getD [] ↔ c = e.1 ∨ c ∈ e.2.linkedTo := fun e he hidle hprimary =>
    validatePrimaryClaims_eq_none hprimary (h.checks he hidle).2.2.1
  refine ⟨fun e he hidle hp => ⟨hprimary e he hidle hp, fun secondary hlinked =>
      h.claim_mem he ((hprimary e he hidle hp secondary).mpr (Or.inr hlinked))⟩,
    fun e he hidle hs => validateSecondaryClaims_eq_none hs (h.checks he hidle).2.2.2, ?_, ?_⟩
  · rintro e he e' he' ⟨hidle, hp⟩ ⟨hidle', hp'⟩ hne c hc hc'
    rcases (hprimary e he hidle hp c).mp hc with rfl | hlinked
    · exact Or.inr (((hprimary e' he' hidle' hp' _).mp hc').resolve_left hne)
    · exact Or.inl hlinked
  · intro e he hidle hp hservices
    obtain ⟨hslots, hgroup, -, -⟩ := h.checks he hidle
    obtain ⟨group, n, hdeclared, hpos, hcounted⟩ :=
      counted_of_validate hidle hservices hslots hgroup
    refine ⟨group, hdeclared, ?_, computeAggregateCapacity_get? he hcounted⟩
    have hsecondary : e.2.isSecondary = false := by
      simp_all [BundleCfg.isPrimary, BundleCfg.isSecondary]
    have hshare : share group e.2 = n := by simp [share, hcounted, hsecondary]
    have hle : share group e.2 ≤ groupSlots group bundles :=
      single_le_sum (fun x hx => by
        obtain ⟨e, -, rfl⟩ := mem_map.mp hx
        exact share_nonneg group e.2) _ (mem_map_of_mem he)
    exact hpos.trans (hshare ▸ hle)

end Accepted

/-- Two primaries that both link `s`, which names the first; the second links the idle `i` too. -/
def sharedSecondary : Bundles :=
  let linked (group role : String) (claims : List String) : BundleCfg :=
    { services := ["svc"], claimResources := claims, capacitySlots := some 1,
      resourceGroup := group, resourceRole := role, resourceContract := "exclusive",
      routingGroup := "r" }
  [("a", { linked "g1" "primary" ["a", "s"] with linkedTo := ["s"] }),
   ("s", { linked "g1" "secondary" ["s"] with linkedFrom := ["a"] }),
   ("b", { linked "g2" "primary" ["b", "s", "t", "i"] with linkedTo := ["s", "t", "i"] }),
   ("t", { linked "g2" "secondary" ["t"] with linkedFrom := ["b"] }),
   ("i", { idle := true })]

/-- Both validators accept the map. -/
theorem accepted_paired_shared : Paired sharedSecondary :=
  @accepted_paired ⟨fun _ => "", fun _ => "", fun _ => ""⟩ sharedSecondary (by decide)

/-- Both accept a map in which two primaries claim one secondary, which names one of them only, and
a primary links an idle bundle. -/
theorem shared_secondary :
    Accepted ⟨fun _ => "", fun _ => "", fun _ => ""⟩ sharedSecondary ∧
      ∃ a ∈ sharedSecondary, ∃ b ∈ sharedSecondary, ∃ s ∈ sharedSecondary,
        ∃ i ∈ sharedSecondary, a.1 ≠ b.1 ∧ a.2.isPrimary ∧ b.2.isPrimary ∧
          s.1 ∈ a.2.claimResources.getD [] ∧ s.1 ∈ b.2.claimResources.getD [] ∧
          s.1 ∈ b.2.linkedTo ∧ b.1 ∉ s.2.linkedFrom ∧ i.1 ∈ b.2.linkedTo ∧ i.2.idle = true := by
  decide

end GpuManager.Contracts
