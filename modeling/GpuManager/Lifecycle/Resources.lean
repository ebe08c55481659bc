import Mathlib.Algebra.Order.Floor.Ring
import Mathlib.Data.Finset.Order
import Mathlib.Data.List.Sort
import GpuManager.Lib.LeaseTable
import GpuManager.Lifecycle.Fences

/-!
# Resource leases

The other half of the bundle lifecycle stores of `bundle_lifecycle.py`: leases over sets
of physical resources.  A lease is taken over all its resources or over none, under one
fence from a counter that is never reset.

Both stores keep one entry for every resource.  The in-memory store keeps it in a
dictionary and never drops an entry that has expired.  The Redis store keeps it in a hash
under a digest of the resource, with a time to live that ends after the lease.

## Main results

* `resource_leases_exclusive` — in every run of either store no two leases that are
  unreleased and unexpired share a resource, fences of the leases increase, and a call
  that is refused changes nothing.
-/

namespace GpuManager.Lifecycle

open PythonText LeaseTable List

/-- `ResourceLease`. -/
structure ResourceLease where
  resourceIds : List String
  owner : String
  fence : ℕ
  expiresAt : ℚ
  deriving DecidableEq

/-- `canonical_resource_ids` of an iterable of strings: stripped, without duplicates and
sorted; a blank identity is a `ValueError`. -/
def canonicalResourceIds (resources : List String) : Except String (List String) :=
  if ∃ resource ∈ resources, strip resource = "" then
    .error "resource identities must be non-empty strings"
  else .ok ((resources.map strip).dedup.insertionSort (· ≤ ·))

/-- The canonical identities of canonical identities are these. -/
theorem canonicalResourceIds_idem {resources normalized : List String}
    (h : canonicalResourceIds resources = .ok normalized) :
    canonicalResourceIds normalized = .ok normalized := by
  unfold canonicalResourceIds at h
  split at h
  · cases h
  next hblank =>
    obtain rfl := Except.ok.inj h
    have hstripped : ∀ r ∈ (resources.map strip).dedup.insertionSort (· ≤ ·),
        strip r = r ∧ r ≠ "" := by
      intro r hr
      rw [mem_insertionSort, mem_dedup] at hr
      obtain ⟨resource, hmem, rfl⟩ := mem_map.mp hr
      exact ⟨strip_strip resource, fun hempty => hblank ⟨resource, hmem, hempty⟩⟩
    have hnodup : ((resources.map strip).dedup.insertionSort (· ≤ ·)).Nodup :=
      (perm_insertionSort _ _).nodup_iff.mpr (nodup_dedup _)
    unfold canonicalResourceIds
    rw [if_neg, map_congr_left fun r hr => (hstripped r hr).1, map_id', hnodup.dedup,
      (pairwise_insertionSort (· ≤ ·) _).insertionSort_eq]
    rintro ⟨r, hr, hempty⟩
    exact (hstripped r hr).2 (by rw [← (hstripped r hr).1, hempty])

def leaseExpiry (now ttlSeconds : ℚ) : ℚ := now + max (1 / 10) ttlSeconds

/-! ## The in-memory store -/

namespace InMemory

/-- `_resource_leases` and `_resource_fence`. -/
structure Resources where
  leases : String → Option (Entry String ℚ) := fun _ => none
  resourceFence : ℕ := 0

/-- `acquire_resources`. -/
def acquireResources (resourceIds : List String) (owner : String) (now ttlSeconds : ℚ)
    (s : Resources) : Except String (Option ResourceLease) × Resources :=
  match canonicalResourceIds resourceIds with
  | .error e => (.error e, s)
  | .ok normalized =>
    if normalized = [] then (.ok none, s)
    else if ∃ resource ∈ normalized, ∃ current ∈ s.leases resource, current.expiresAt > now
    then (.ok none, s)
    else
      let fence := s.resourceFence + 1
      let expiresAt := leaseExpiry now ttlSeconds
      (.ok (some ⟨normalized, owner, fence, expiresAt⟩),
        { leases := setAll normalized ⟨owner, fence, expiresAt⟩ s.leases
          resourceFence := fence })

/-- The entry is the lease's own. -/
def Bears (lease : ResourceLease) (current : Option (Entry String ℚ)) : Prop :=
  current.map (fun e => (e.owner, e.fence)) = some (lease.owner, lease.fence)

instance (lease : ResourceLease) (current : Option (Entry String ℚ)) :
    Decidable (Bears lease current) := by
  unfold Bears
  infer_instance

/-- `renew_resources`. -/
def renewResources (lease : ResourceLease) (now ttlSeconds : ℚ) (s : Resources) :
    Except String Bool × Resources :=
  match canonicalResourceIds lease.resourceIds with
  | .error e => (.error e, s)
  | .ok normalized =>
    if ∃ resource ∈ normalized, ¬ Bears lease (s.leases resource) ∨
        ∃ current ∈ s.leases resource, current.expiresAt ≤ now then (.ok false, s)
    else
      (.ok true, { s with
        leases := setAll normalized ⟨lease.owner, lease.fence, leaseExpiry now ttlSeconds⟩
          s.leases })

/-- `release_resources`. -/
def releaseResources (lease : ResourceLease) (s : Resources) : Except String Bool × Resources :=
  match canonicalResourceIds lease.resourceIds with
  | .error e => (.error e, s)
  | .ok normalized =>
    if ∃ resource ∈ normalized, ¬ Bears lease (s.leases resource) then (.ok false, s)
    else (.ok true, { s with leases := dropAll normalized s.leases })

end InMemory

/-! ## The Redis store -/

namespace Redis

/-- The hash of a resource.  `deadline` is when its key may expire. -/
structure ResourceHash where
  owner : String
  fence : ℕ
  expiresAt : ℚ
  deadline : ℚ
  deriving DecidableEq

/-- The resource keys, by digest, and the counter key. -/
structure Resources where
  hashes : String → Option ResourceHash := fun _ => none
  counter : ℕ := 0

/-- `EXPIRE key math.max(1, math.ceil(expires - now) + 1)`. -/
def resourceDeadline (now expires : ℚ) : ℚ := now + max 1 (⌈expires - now⌉ + 1 : ℤ)

/-- `acquire_resources`: the keys are the digests of the resources. -/
def acquireResources (digest : String → String) (resourceIds : List String) (owner : String)
    (now ttlSeconds : ℚ) (s : Resources) : Except String (Option ResourceLease) × Resources :=
  match canonicalResourceIds resourceIds with
  | .error e => (.error e, s)
  | .ok normalized =>
    if normalized = [] then (.ok none, s)
    else
      let keys := normalized.map digest
      let expires := leaseExpiry now ttlSeconds
      if ∃ key ∈ keys, ∃ h ∈ s.hashes key, h.owner ≠ "" ∧ h.expiresAt > now then
        (.ok none, s)
      else
        let fence := s.counter + 1
        (.ok (some ⟨normalized, owner, fence, expires⟩),
          { hashes := fun key =>
              if key ∈ keys then some ⟨owner, fence, expires, resourceDeadline now expires⟩
              else s.hashes key
            counter := fence })

/-- The hash bears the owner and the fence of the lease. -/
def Bears (lease : ResourceLease) (current : Option ResourceHash) : Prop :=
  ∃ h ∈ current, h.owner = lease.owner ∧ h.fence = lease.fence

instance (lease : ResourceLease) (current : Option ResourceHash) :
    Decidable (Bears lease current) := by
  unfold Bears
  infer_instance

/-- `renew_resources`. -/
def renewResources (digest : String → String) (lease : ResourceLease) (now ttlSeconds : ℚ)
    (s : Resources) : Except String Bool × Resources :=
  match canonicalResourceIds lease.resourceIds with
  | .error e => (.error e, s)
  | .ok normalized =>
    if normalized = [] then (.ok false, s)
    else
      let keys := normalized.map digest
      let expires := leaseExpiry now ttlSeconds
      if ∃ key ∈ keys, ¬ Bears lease (s.hashes key) ∨
          ∃ h ∈ s.hashes key, h.expiresAt ≤ now then (.ok false, s)
      else
        (.ok true, { s with
          hashes := fun key =>
            if key ∈ keys then (s.hashes key).map fun h =>
              { h with expiresAt := expires, deadline := resourceDeadline now expires }
            else s.hashes key })

/-- `release_resources`. -/
def releaseResources (digest : String → String) (lease : ResourceLease) (s : Resources) :
    Except String Bool × Resources :=
  match canonicalResourceIds lease.resourceIds with
  | .error e => (.error e, s)
  | .ok normalized =>
    if normalized = [] then (.ok false, s)
    else
      let keys := normalized.map digest
      if ∃ key ∈ keys, ¬ Bears lease (s.hashes key) then (.ok false, s)
      else
        (.ok true, { s with
          hashes := fun key => if key ∈ keys then none else s.hashes key })

def expireResource (key : String) (now : ℚ) (s : Resources) : Resources :=
  if ∃ h ∈ s.hashes key, h.deadline ≤ now then
    { s with hashes := fun key' => if key' ∈ [key] then none else s.hashes key' }
  else s

end Redis

/-! ## Runs

A run is a sequence of calls by any owners and, for Redis, expiries of keys.  A client
renews and releases a lease it was granted, which the run names by the position of the
grant. -/

/-- The resource half of the `BundleLifecycleStore` protocol. -/
structure ResourceStore where
  State : Type
  start : State
  acquire : List String → String → ℚ → ℚ → State → Except String (Option ResourceLease) × State
  renew : ResourceLease → ℚ → ℚ → State → Except String Bool × State
  release : ResourceLease → State → Except String Bool × State
  expire : String → ℚ → State → State

/-- `InMemoryBundleLifecycleStore`; its entries never disappear by themselves. -/
def inMemoryResources : ResourceStore where
  State := InMemory.Resources
  start := {}
  acquire := InMemory.acquireResources
  renew := InMemory.renewResources
  release := InMemory.releaseResources
  expire := fun _ _ s => s

/-- `RedisBundleLifecycleStore`, for a digest function. -/
def redisResources (digest : String → String) : ResourceStore where
  State := Redis.Resources
  start := {}
  acquire := Redis.acquireResources digest
  renew := Redis.renewResources digest
  release := Redis.releaseResources digest
  expire := Redis.expireResource

/-- The resource store of a kind. -/
def StoreKind.resources (digest : String → String) : StoreKind → ResourceStore
  | .inMemory => inMemoryResources
  | .redis => redisResources digest

/-- A lease that was granted, when it ends after its renewals, and whether it was
released. -/
structure GrantedLease where
  lease : ResourceLease
  expiresAt : ℚ
  released : Bool := false

def GrantedLease.Live (g : GrantedLease) (t : ℚ) : Prop := g.released = false ∧ t < g.expiresAt

/-- One step of a run. -/
inductive ResourceOp where
  | acquire (resourceIds : List String) (owner : String) (now ttlSeconds : ℚ)
  | renew (granted : ℕ) (now ttlSeconds : ℚ)
  | release (granted : ℕ) (now : ℚ)
  | expire (key : String) (now : ℚ)

namespace ResourceOp

/-- When the step happens. -/
def now : ResourceOp → ℚ
  | acquire _ _ now _ => now
  | renew _ now _ => now
  | release _ now => now
  | expire _ now => now

/-- An owner has a name. -/
def HasOwner : ResourceOp → Prop
  | acquire _ owner _ _ => owner ≠ ""
  | _ => True

end ResourceOp

structure ResourceRun (store : ResourceStore) where
  state : store.State
  granted : List GrantedLease

namespace ResourceStore

variable (store : ResourceStore)

/-- One step. -/
def step (r : ResourceRun store) : ResourceOp → ResourceRun store
  | .acquire resourceIds owner now ttlSeconds =>
    match store.acquire resourceIds owner now ttlSeconds r.state with
    | (.ok (some lease), state) => ⟨state, r.granted ++ [{ lease, expiresAt := lease.expiresAt }]⟩
    | (_, state) => ⟨state, r.granted⟩
  | .renew i now ttlSeconds =>
    match r.granted[i]? with
    | none => r
    | some g =>
      match store.renew g.lease now ttlSeconds r.state with
      | (.ok true, state) =>
        ⟨state, r.granted.modify i fun g =>
          { g with expiresAt := leaseExpiry now ttlSeconds }⟩
      | (_, state) => ⟨state, r.granted⟩
  | .release i _ =>
    match r.granted[i]? with
    | none => r
    | some g =>
      match store.release g.lease r.state with
      | (.ok true, state) =>
        ⟨state, r.granted.modify i fun g => { g with released := true }⟩
      | (_, state) => ⟨state, r.granted⟩
  | .expire key now => { r with state := store.expire key now r.state }

/-- A run from the empty store. -/
def run (ops : List ResourceOp) : ResourceRun store := ops.foldl store.step ⟨store.start, []⟩

/-- No two live leases of the run share a resource, from the time of its last step on. -/
def Exclusive (ops : List ResourceOp) : Prop :=
  (store.run ops).granted.Pairwise fun g g' => ∀ t, (∀ op ∈ ops, op.now ≤ t) →
    g.Live t → g'.Live t → ∀ r ∈ g.lease.resourceIds, r ∉ g'.lease.resourceIds

/-- A call that returns `None` or `False`, or raises, leaves the store as it was. -/
structure RefusalsChangeNothing : Prop where
  acquire : ∀ resourceIds owner now ttlSeconds s,
    (∀ lease, (store.acquire resourceIds owner now ttlSeconds s).1 ≠ .ok (some lease)) →
      (store.acquire resourceIds owner now ttlSeconds s).2 = s
  renew : ∀ lease now ttlSeconds s, (store.renew lease now ttlSeconds s).1 ≠ .ok true →
    (store.renew lease now ttlSeconds s).2 = s
  release : ∀ lease s, (store.release lease s).1 ≠ .ok true → (store.release lease s).2 = s

/-! ## Both stores are lease tables -/

/-- A store that implements a lease table: what its states stand for, and what each call
that succeeds does to the table. -/
structure Implements where
  key : String → String
  entries : store.State → String → Option (Entry String ℚ)
  counter : store.State → ℕ
  Sound : store.State → Prop
  sound_start : Sound store.start
  refusals : store.RefusalsChangeNothing
  acquire : ∀ {resourceIds owner now ttlSeconds s lease s'}, Sound s → owner ≠ "" →
    store.acquire resourceIds owner now ttlSeconds s = (.ok (some lease), s') →
      (Sound s' ∧ canonicalResourceIds lease.resourceIds = .ok lease.resourceIds) ∧
      (lease.fence = counter s + 1 ∧ counter s' = counter s + 1) ∧
      (∀ k ∈ lease.resourceIds.map key, ∀ e ∈ entries s k, e.expiresAt ≤ now) ∧
      entries s' = setAll (lease.resourceIds.map key)
        ⟨lease.owner, lease.fence, lease.expiresAt⟩ (entries s)
  renew : ∀ {lease now ttlSeconds s s'}, Sound s →
    canonicalResourceIds lease.resourceIds = .ok lease.resourceIds →
    store.renew lease now ttlSeconds s = (.ok true, s') →
      (Sound s' ∧ counter s' = counter s) ∧
      (∀ k ∈ lease.resourceIds.map key, ∃ e, entries s k = some e ∧ e.fence = lease.fence) ∧
      entries s' = setAll (lease.resourceIds.map key)
        ⟨lease.owner, lease.fence, leaseExpiry now ttlSeconds⟩ (entries s)
  release : ∀ {lease s s'}, Sound s →
    canonicalResourceIds lease.resourceIds = .ok lease.resourceIds →
    store.release lease s = (.ok true, s') →
      (Sound s' ∧ counter s' = counter s) ∧
      (∀ k ∈ lease.resourceIds.map key, ∃ e, entries s k = some e ∧ e.fence = lease.fence) ∧
      entries s' = dropAll (lease.resourceIds.map key) (entries s)
  expire : ∀ {k now s}, Sound s →
    (Sound (store.expire k now s) ∧ counter (store.expire k now s) = counter s) ∧
      (entries (store.expire k now s) = entries s ∨
        (∀ e ∈ entries s k, e.expiresAt ≤ now) ∧
          entries (store.expire k now s) = dropAll [k] (entries s))

end ResourceStore

def GrantedLease.toGrant (key : String → String) (g : GrantedLease) : Grant String String ℚ :=
  ⟨g.lease.resourceIds.map key, g.lease.owner, g.lease.fence, g.expiresAt, g.released⟩

namespace ResourceStore.Implements

variable {store : ResourceStore} (table : store.Implements)

structure Backed (r : ResourceRun store) (t : ℚ) : Prop where
  sound : table.Sound r.state
  canonical : ∀ g ∈ r.granted,
    canonicalResourceIds g.lease.resourceIds = .ok g.lease.resourceIds
  backs : Backs (table.entries r.state) (table.counter r.state)
    (r.granted.map (GrantedLease.toGrant table.key)) t

variable {table} {f : GrantedLease → GrantedLease}

/-- Changing when a granted lease ends, or that it was released, is the same change of the
grant. -/
theorem map_modify (granted : List GrantedLease) (key : String → String) (i : ℕ)
    {k : Grant String String ℚ → Grant String String ℚ}
    (hf : ∀ g, (f g).toGrant key = k (g.toGrant key)) :
    (granted.modify i f).map (GrantedLease.toGrant key) =
      (granted.map (GrantedLease.toGrant key)).modify i k := by
  apply ext_getElem?
  intro j
  rw [List.getElem?_map, List.getElem?_modify, List.getElem?_modify, List.getElem?_map]
  by_cases hij : i = j
  · cases granted[j]? <;> simp [hij, hf]
  · simp [hij]

/-- A change of a granted lease that keeps the lease keeps its resources canonical. -/
theorem canonical_modify {granted : List GrantedLease} (hf : ∀ g, (f g).lease = g.lease) (i : ℕ)
    (hcanonical : ∀ g ∈ granted,
      canonicalResourceIds g.lease.resourceIds = .ok g.lease.resourceIds) :
    ∀ g ∈ granted.modify i f,
      canonicalResourceIds g.lease.resourceIds = .ok g.lease.resourceIds := by
  intro g hg
  obtain ⟨j, hj⟩ := mem_iff_getElem?.mp hg
  rw [List.getElem?_modify] at hj
  cases hget : granted[j]? with
  | none => simp [hget] at hj
  | some g' =>
    have hlease : g.lease = g'.lease := by
      rw [hget] at hj
      have hj : (if i = j then f g' else g') = g := by simpa using hj
      rw [← hj]
      split
      · exact hf g'
      · rfl
    rw [hlease]
    exact hcanonical g' (mem_of_getElem? hget)

/-- **One step.**  A step with a named owner keeps the run backed at its time. -/
theorem Backed.step {r : ResourceRun store} {op : ResourceOp} (h : table.Backed r op.now)
    (howner : op.HasOwner) : table.Backed (store.step r op) op.now := by
  obtain ⟨hsound, hcanonical, hbacks⟩ := h
  cases op with
  | acquire resourceIds owner now ttlSeconds =>
    simp only [ResourceStore.step]
    split
    next lease s' heq =>
      obtain ⟨⟨hsound', hids⟩, ⟨hfence, hcounter⟩, hfree, hentries⟩ :=
        table.acquire hsound howner heq
      refine ⟨hsound', ?_, ?_⟩
      · intro g hg
        rcases mem_append.mp hg with hg | hg
        · exact hcanonical g hg
        · obtain rfl := mem_singleton.mp hg
          exact hids
      · have hgrant := hbacks.grant lease.owner lease.expiresAt hfree
        rw [← hfence] at hgrant
        rw [map_append, hentries, hcounter, ← hfence]
        exact hgrant
    next hnot heq =>
      have hsame := table.refusals.acquire resourceIds owner now ttlSeconds r.state
      rw [heq] at hsame
      obtain rfl := hsame hnot
      exact ⟨hsound, hcanonical, hbacks⟩
  | renew i now ttlSeconds =>
    simp only [ResourceStore.step]
    split
    · exact ⟨hsound, hcanonical, hbacks⟩
    next g hget =>
      split
      next s' heq =>
        have hids := hcanonical g (mem_of_getElem? hget)
        obtain ⟨⟨hsound', hcounter⟩, hheld, hentries⟩ := table.renew hsound hids heq
        refine ⟨hsound', canonical_modify (by intro; rfl) i hcanonical, ?_⟩
        have hgrant : (r.granted.map (GrantedLease.toGrant table.key))[i]? =
            some (g.toGrant table.key) := by
          rw [List.getElem?_map, hget]
          rfl
        rw [map_modify r.granted table.key i
          (k := fun g => { g with expiresAt := leaseExpiry now ttlSeconds }) fun _ => rfl,
          hentries, hcounter]
        exact hbacks.renew hgrant _ hheld
      next hnot heq =>
        have hsame := table.refusals.renew g.lease now ttlSeconds r.state
        rw [heq] at hsame
        obtain rfl := hsame hnot
        exact ⟨hsound, hcanonical, hbacks⟩
  | release i now =>
    simp only [ResourceStore.step]
    split
    · exact ⟨hsound, hcanonical, hbacks⟩
    next g hget =>
      split
      next s' heq =>
        have hids := hcanonical g (mem_of_getElem? hget)
        obtain ⟨⟨hsound', hcounter⟩, hheld, hentries⟩ := table.release hsound hids heq
        refine ⟨hsound', canonical_modify (by intro; rfl) i hcanonical, ?_⟩
        have hgrant : (r.granted.map (GrantedLease.toGrant table.key))[i]? =
            some (g.toGrant table.key) := by
          rw [List.getElem?_map, hget]
          rfl
        rw [map_modify r.granted table.key i
          (k := fun g => { g with released := true }) fun _ => rfl, hentries, hcounter]
        exact hbacks.release hgrant hheld
      next hnot heq =>
        have hsame := table.refusals.release g.lease r.state
        rw [heq] at hsame
        obtain rfl := hsame hnot
        exact ⟨hsound, hcanonical, hbacks⟩
  | expire key now =>
    obtain ⟨⟨hsound', hcounter⟩, hentries⟩ :
        (table.Sound (store.expire key now r.state) ∧
          table.counter (store.expire key now r.state) = table.counter r.state) ∧ _ :=
      table.expire hsound
    refine ⟨hsound', hcanonical, ?_⟩
    show Backs (table.entries (store.expire key now r.state))
      (table.counter (store.expire key now r.state)) _ now
    rw [hcounter]
    rcases hentries with hsame | ⟨hexpired, hdropped⟩
    · rw [hsame]
      exact hbacks
    · rw [hdropped]
      exact hbacks.expire hexpired

/-- **A run.**  From the time of its last step on, a run in time order is one of a lease
table. -/
theorem backed_run (ops : List ResourceOp) (howners : ∀ op ∈ ops, op.HasOwner)
    (horder : (ops.map ResourceOp.now).Pairwise (· ≤ ·)) (t : ℚ)
    (ht : ∀ op ∈ ops, op.now ≤ t) : table.Backed (store.run ops) t := by
  -- The last step happens at or after all the others, so the run before it is backed then.
  induction ops using List.reverseRecOn generalizing t with
  | nil =>
    refine ⟨table.sound_start, fun _ hg => (by cases hg), ?_⟩
    exact ⟨Pairwise.nil, fun _ hg => (by cases hg), fun _ hg => (by cases hg)⟩
  | append_singleton ops op ih =>
    rw [map_append, pairwise_append] at horder
    obtain ⟨hbefore, -, hlast⟩ := horder
    have hlast : ∀ op' ∈ ops, op'.now ≤ op.now := fun op' hop' =>
      hlast op'.now (mem_map_of_mem hop') op.now (mem_singleton_self _)
    have hbacked := ih (fun op' hop' => howners op' (mem_append_left _ hop')) hbefore
      op.now hlast
    have hmem : op ∈ ops ++ [op] := mem_append_right _ (mem_singleton_self op)
    have hstep := hbacked.step (howners op hmem)
    rw [ResourceStore.run, foldl_append]
    exact ⟨hstep.sound, hstep.canonical, hstep.backs.advance (ht op hmem)⟩

end ResourceStore.Implements

/-! ### The in-memory store -/

namespace InMemory

/-- What `acquire_resources` returns and leaves. -/
theorem acquireResources_cases (resourceIds : List String) (owner : String)
    (now ttlSeconds : ℚ) (s : Resources) :
    ((∀ lease, (acquireResources resourceIds owner now ttlSeconds s).1 ≠ .ok (some lease)) ∧
      (acquireResources resourceIds owner now ttlSeconds s).2 = s) ∨
    ∃ normalized, canonicalResourceIds resourceIds = .ok normalized ∧
      (∀ r ∈ normalized, ∀ e ∈ s.leases r, e.expiresAt ≤ now) ∧
      acquireResources resourceIds owner now ttlSeconds s =
        (.ok (some ⟨normalized, owner, s.resourceFence + 1, leaseExpiry now ttlSeconds⟩),
          ⟨setAll normalized ⟨owner, s.resourceFence + 1, leaseExpiry now ttlSeconds⟩ s.leases,
            s.resourceFence + 1⟩) := by
  unfold acquireResources
  split
  · exact Or.inl ⟨nofun, rfl⟩
  next normalized hids =>
    split
    · exact Or.inl ⟨nofun, rfl⟩
    split
    · exact Or.inl ⟨nofun, rfl⟩
    next hblocked =>
      exact Or.inr ⟨normalized, hids,
        fun r hr e he => not_lt.mp fun hlt => hblocked ⟨r, hr, e, he, hlt⟩, rfl⟩

/-- The entries of a lease that `renew_resources` or `release_resources` acts for. -/
theorem Bears.entry {lease : ResourceLease} {current : Option (Entry String ℚ)}
    (h : Bears lease current) : ∃ e, current = some e ∧ e.fence = lease.fence := by
  cases current with
  | none => cases h
  | some e =>
    have h : (e.owner, e.fence) = (lease.owner, lease.fence) := Option.some.inj h
    exact ⟨e, rfl, congrArg Prod.snd h⟩

/-- A refused `renew_resources` changes nothing; one that succeeds writes the new expiry
over entries that all bear the lease. -/
theorem renewResources_cases (lease : ResourceLease) (now ttlSeconds : ℚ) (s : Resources) :
    ((renewResources lease now ttlSeconds s).1 ≠ .ok true ∧
      (renewResources lease now ttlSeconds s).2 = s) ∨
    ∃ normalized, canonicalResourceIds lease.resourceIds = .ok normalized ∧
      (∀ r ∈ normalized, Bears lease (s.leases r)) ∧
      renewResources lease now ttlSeconds s = (.ok true,
        ⟨setAll normalized ⟨lease.owner, lease.fence, leaseExpiry now ttlSeconds⟩ s.leases,
          s.resourceFence⟩) := by
  unfold renewResources
  split
  · exact Or.inl ⟨nofun, rfl⟩
  next normalized hids =>
    split
    · exact Or.inl ⟨nofun, rfl⟩
    next hrefused =>
      exact Or.inr ⟨normalized, hids,
        fun r hr => by_contra fun hnot => hrefused ⟨r, hr, Or.inl hnot⟩, rfl⟩

/-- A refused `release_resources` changes nothing; one that succeeds drops entries that all
bear the lease. -/
theorem releaseResources_cases (lease : ResourceLease) (s : Resources) :
    ((releaseResources lease s).1 ≠ .ok true ∧ (releaseResources lease s).2 = s) ∨
    ∃ normalized, canonicalResourceIds lease.resourceIds = .ok normalized ∧
      (∀ r ∈ normalized, Bears lease (s.leases r)) ∧
      releaseResources lease s =
        (.ok true, ⟨dropAll normalized s.leases, s.resourceFence⟩) := by
  unfold releaseResources
  split
  · exact Or.inl ⟨nofun, rfl⟩
  next normalized hids =>
    split
    · exact Or.inl ⟨nofun, rfl⟩
    next hrefused =>
      exact Or.inr ⟨normalized, hids,
        fun r hr => by_contra fun hnot => hrefused ⟨r, hr, hnot⟩, rfl⟩

def implements : inMemoryResources.Implements where
  key := fun r => r
  entries := Resources.leases
  counter := Resources.resourceFence
  Sound := fun _ => True
  sound_start := trivial
  refusals :=
    { acquire := fun _ _ _ _ _ hnot => (acquireResources_cases ..).elim And.right
        fun ⟨_, _, _, heq⟩ => absurd (congrArg Prod.fst heq) (hnot _)
      renew := fun _ _ _ _ hnot => (renewResources_cases ..).elim And.right
        fun ⟨_, _, _, heq⟩ => absurd (congrArg Prod.fst heq) hnot
      release := fun _ _ hnot => (releaseResources_cases ..).elim And.right
        fun ⟨_, _, _, heq⟩ => absurd (congrArg Prod.fst heq) hnot }
  acquire := by
    intro resourceIds owner now ttlSeconds s lease s' _ _ heq
    rcases acquireResources_cases resourceIds owner now ttlSeconds s with
      ⟨hnot, -⟩ | ⟨normalized, hids, hfree, heq'⟩
    · exact absurd (congrArg Prod.fst heq) (hnot lease)
    obtain ⟨hlease, rfl⟩ := Prod.mk.inj (heq'.symm.trans heq)
    obtain rfl := Option.some.inj (Except.ok.inj hlease)
    rw [map_id']
    exact ⟨⟨trivial, canonicalResourceIds_idem hids⟩, ⟨rfl, rfl⟩, hfree, rfl⟩
  renew := by
    intro lease now ttlSeconds s s' _ hids heq
    rcases renewResources_cases lease now ttlSeconds s with
      ⟨hnot, -⟩ | ⟨normalized, hids', hheld, heq'⟩
    · exact absurd (congrArg Prod.fst heq) hnot
    obtain ⟨-, rfl⟩ := Prod.mk.inj (heq'.symm.trans heq)
    obtain rfl := Except.ok.inj (hids.symm.trans hids')
    rw [map_id']
    exact ⟨⟨trivial, rfl⟩, fun r hr => (hheld r hr).entry, rfl⟩
  release := by
    intro lease s s' _ hids heq
    rcases releaseResources_cases lease s with ⟨hnot, -⟩ | ⟨normalized, hids', hheld, heq'⟩
    · exact absurd (congrArg Prod.fst heq) hnot
    obtain ⟨-, rfl⟩ := Prod.mk.inj (heq'.symm.trans heq)
    obtain rfl := Except.ok.inj (hids.symm.trans hids')
    rw [map_id']
    exact ⟨⟨trivial, rfl⟩, fun r hr => (hheld r hr).entry, rfl⟩
  expire := fun _ => ⟨⟨trivial, rfl⟩, Or.inl rfl⟩

end InMemory

/-! ### The Redis store -/

namespace Redis

def ResourceHash.entry (h : ResourceHash) : Entry String ℚ := ⟨h.owner, h.fence, h.expiresAt⟩

def Resources.Sound (s : Resources) : Prop :=
  ∀ key h, s.hashes key = some h → h.owner ≠ "" ∧ h.expiresAt ≤ h.deadline

/-- The time to live ends after the lease. -/
theorem le_resourceDeadline (now expires : ℚ) : expires ≤ resourceDeadline now expires := by
  have hceil : expires - now ≤ (⌈expires - now⌉ : ℚ) := Int.le_ceil _
  have hmax : ((⌈expires - now⌉ + 1 : ℤ) : ℚ) ≤ max 1 ((⌈expires - now⌉ + 1 : ℤ) : ℚ) :=
    le_max_right _ _
  unfold resourceDeadline
  push_cast at hmax ⊢
  linarith

/-- What `acquire_resources` returns and leaves. -/
theorem acquireResources_cases (digest : String → String) (resourceIds : List String)
    (owner : String) (now ttlSeconds : ℚ) (s : Resources) :
    ((∀ lease,
        (acquireResources digest resourceIds owner now ttlSeconds s).1 ≠ .ok (some lease)) ∧
      (acquireResources digest resourceIds owner now ttlSeconds s).2 = s) ∨
    ∃ normalized, canonicalResourceIds resourceIds = .ok normalized ∧
      (∀ key ∈ normalized.map digest, ∀ h ∈ s.hashes key, h.owner = "" ∨ h.expiresAt ≤ now) ∧
      acquireResources digest resourceIds owner now ttlSeconds s =
        (.ok (some ⟨normalized, owner, s.counter + 1, leaseExpiry now ttlSeconds⟩),
          ⟨fun key =>
            if key ∈ normalized.map digest then
              some ⟨owner, s.counter + 1, leaseExpiry now ttlSeconds,
                resourceDeadline now (leaseExpiry now ttlSeconds)⟩
            else s.hashes key, s.counter + 1⟩) := by
  unfold acquireResources
  split
  · exact Or.inl ⟨nofun, rfl⟩
  next normalized hids =>
    split
    · exact Or.inl ⟨nofun, rfl⟩
    dsimp only
    split
    · exact Or.inl ⟨nofun, rfl⟩
    next hblocked =>
      refine Or.inr ⟨normalized, hids, fun key hkey h hh => ?_, rfl⟩
      by_cases howner : h.owner = ""
      · exact Or.inl howner
      · exact Or.inr (not_lt.mp fun hlt => hblocked ⟨key, hkey, h, hh, howner, hlt⟩)

variable {lease : ResourceLease} {s s' : Resources} {digest : String → String} {now : ℚ}

/-- The entry of a lease that `renew_resources` or `release_resources` acts for. -/
theorem Bears.entry {current : Option ResourceHash} (h : Bears lease current) :
    ∃ e, current.map ResourceHash.entry = some e ∧ e.fence = lease.fence := by
  obtain ⟨h', rfl, -, hfence⟩ := h
  exact ⟨h'.entry, rfl, hfence⟩

/-- A refused `renew_resources` changes nothing; one that succeeds writes the new expiry
into hashes that all bear the lease. -/
theorem renewResources_cases (digest : String → String) (lease : ResourceLease)
    (now ttlSeconds : ℚ) (s : Resources) :
    ((renewResources digest lease now ttlSeconds s).1 ≠ .ok true ∧
      (renewResources digest lease now ttlSeconds s).2 = s) ∨
    ∃ normalized, canonicalResourceIds lease.resourceIds = .ok normalized ∧
      (∀ key ∈ normalized.map digest, Bears lease (s.hashes key)) ∧
      renewResources digest lease now ttlSeconds s = (.ok true,
        ⟨fun key =>
          if key ∈ normalized.map digest then (s.hashes key).map fun h =>
            { h with
              expiresAt := leaseExpiry now ttlSeconds
              deadline := resourceDeadline now (leaseExpiry now ttlSeconds) }
          else s.hashes key, s.counter⟩) := by
  unfold renewResources
  split
  · exact Or.inl ⟨nofun, rfl⟩
  next normalized hids =>
    split
    · exact Or.inl ⟨nofun, rfl⟩
    dsimp only
    split
    · exact Or.inl ⟨nofun, rfl⟩
    next hrefused =>
      exact Or.inr ⟨normalized, hids,
        fun key hkey => by_contra fun hnot => hrefused ⟨key, hkey, Or.inl hnot⟩, rfl⟩

/-- A refused `release_resources` changes nothing; one that succeeds deletes hashes that all
bear the lease. -/
theorem releaseResources_cases (digest : String → String) (lease : ResourceLease)
    (s : Resources) :
    ((releaseResources digest lease s).1 ≠ .ok true ∧
      (releaseResources digest lease s).2 = s) ∨
    ∃ normalized, canonicalResourceIds lease.resourceIds = .ok normalized ∧
      (∀ key ∈ normalized.map digest, Bears lease (s.hashes key)) ∧
      releaseResources digest lease s = (.ok true,
        ⟨fun key => if key ∈ normalized.map digest then none else s.hashes key,
          s.counter⟩) := by
  unfold releaseResources
  split
  · exact Or.inl ⟨nofun, rfl⟩
  next normalized hids =>
    split
    · exact Or.inl ⟨nofun, rfl⟩
    dsimp only
    split
    · exact Or.inl ⟨nofun, rfl⟩
    next hrefused =>
      exact Or.inr ⟨normalized, hids,
        fun key hkey => by_contra fun hnot => hrefused ⟨key, hkey, hnot⟩, rfl⟩

theorem Resources.Sound.drop (hs : s.Sound) (keys : List String) :
    Resources.Sound { s with hashes := fun key => if key ∈ keys then none else s.hashes key } := by
  intro key h hh
  by_cases hkey : key ∈ keys
  · simp [hkey] at hh
  · exact hs key h (by simpa [hkey] using hh)

theorem entries_drop (s : Resources) (keys : List String) :
    (fun key => (if key ∈ keys then none else s.hashes key).map ResourceHash.entry) =
      dropAll keys (fun key => (s.hashes key).map ResourceHash.entry) := by
  funext key
  unfold dropAll
  split <;> rfl

variable {ttlSeconds : ℚ}

/-- What a successful `acquire_resources` does to the table. -/
theorem acquireResources_table {resourceIds : List String} {owner : String}
    (hs : s.Sound) (howner : owner ≠ "")
    (heq : acquireResources digest resourceIds owner now ttlSeconds s = (.ok (some lease), s')) :
    (s'.Sound ∧ canonicalResourceIds lease.resourceIds = .ok lease.resourceIds) ∧
      (lease.fence = s.counter + 1 ∧ s'.counter = s.counter + 1) ∧
      (∀ k ∈ lease.resourceIds.map digest, ∀ e ∈ (s.hashes k).map ResourceHash.entry,
        e.expiresAt ≤ now) ∧
      (fun key => (s'.hashes key).map ResourceHash.entry) =
        setAll (lease.resourceIds.map digest) ⟨lease.owner, lease.fence, lease.expiresAt⟩
          fun key => (s.hashes key).map ResourceHash.entry := by
  rcases acquireResources_cases digest resourceIds owner now ttlSeconds s with
    ⟨hnot, -⟩ | ⟨normalized, hids, hfree, heq'⟩
  · exact absurd (congrArg Prod.fst heq) (hnot lease)
  obtain ⟨hlease, rfl⟩ := Prod.mk.inj (heq'.symm.trans heq)
  obtain rfl := Option.some.inj (Except.ok.inj hlease)
  refine ⟨⟨?_, canonicalResourceIds_idem hids⟩, ⟨rfl, rfl⟩, ?_, ?_⟩
  · intro key h hh
    by_cases hkey : key ∈ normalized.map digest
    · simp only [if_pos hkey, Option.some.injEq] at hh
      subst hh
      exact ⟨howner, le_resourceDeadline _ _⟩
    · simp only [if_neg hkey] at hh
      exact hs key h hh
  · intro key hkey e he
    obtain ⟨h, hh, rfl⟩ := Option.map_eq_some_iff.mp he
    exact (hfree key hkey h hh).resolve_left (hs key h hh).1
  · funext key
    unfold setAll
    by_cases hkey : key ∈ normalized.map digest
    · simp only [if_pos hkey]
      rfl
    · simp only [if_neg hkey]

/-- What a successful `renew_resources` does to the table. -/
theorem renewResources_table (hs : s.Sound)
    (hids : canonicalResourceIds lease.resourceIds = .ok lease.resourceIds)
    (heq : renewResources digest lease now ttlSeconds s = (.ok true, s')) :
    (s'.Sound ∧ s'.counter = s.counter) ∧
      (∀ k ∈ lease.resourceIds.map digest,
        ∃ e, (s.hashes k).map ResourceHash.entry = some e ∧ e.fence = lease.fence) ∧
      (fun key => (s'.hashes key).map ResourceHash.entry) =
        setAll (lease.resourceIds.map digest)
          ⟨lease.owner, lease.fence, leaseExpiry now ttlSeconds⟩
          fun key => (s.hashes key).map ResourceHash.entry := by
  rcases renewResources_cases digest lease now ttlSeconds s with
    ⟨hnot, -⟩ | ⟨normalized, hids', hheld, heq'⟩
  · exact absurd (congrArg Prod.fst heq) hnot
  obtain ⟨-, rfl⟩ := Prod.mk.inj (heq'.symm.trans heq)
  obtain rfl := Except.ok.inj (hids.symm.trans hids')
  refine ⟨⟨?_, rfl⟩, fun k hk => (hheld k hk).entry, ?_⟩
  · intro key h hh
    by_cases hkey : key ∈ lease.resourceIds.map digest
    · simp only [if_pos hkey] at hh
      obtain ⟨h', hh', rfl⟩ := Option.map_eq_some_iff.mp hh
      exact ⟨(hs key h' hh').1, le_resourceDeadline _ _⟩
    · simp only [if_neg hkey] at hh
      exact hs key h hh
  · funext key
    unfold setAll
    by_cases hkey : key ∈ lease.resourceIds.map digest
    · obtain ⟨h, hh, howner, hfence⟩ := hheld key hkey
      simp only [if_pos hkey, Option.mem_def.mp hh, Option.map_some, ResourceHash.entry, howner,
        hfence]
    · simp only [if_neg hkey]

/-- What a successful `release_resources` does to the table. -/
theorem releaseResources_table (hs : s.Sound)
    (hids : canonicalResourceIds lease.resourceIds = .ok lease.resourceIds)
    (heq : releaseResources digest lease s = (.ok true, s')) :
    (s'.Sound ∧ s'.counter = s.counter) ∧
      (∀ k ∈ lease.resourceIds.map digest,
        ∃ e, (s.hashes k).map ResourceHash.entry = some e ∧ e.fence = lease.fence) ∧
      (fun key => (s'.hashes key).map ResourceHash.entry) =
        dropAll (lease.resourceIds.map digest)
          fun key => (s.hashes key).map ResourceHash.entry := by
  rcases releaseResources_cases digest lease s with
    ⟨hnot, -⟩ | ⟨normalized, hids', hheld, heq'⟩
  · exact absurd (congrArg Prod.fst heq) hnot
  obtain ⟨-, rfl⟩ := Prod.mk.inj (heq'.symm.trans heq)
  obtain rfl := Except.ok.inj (hids.symm.trans hids')
  exact ⟨⟨hs.drop _, rfl⟩, fun k hk => (hheld k hk).entry, entries_drop s _⟩

theorem expireResource_table {key : String} (hs : s.Sound) :
    ((expireResource key now s).Sound ∧ (expireResource key now s).counter = s.counter) ∧
      ((fun k => ((expireResource key now s).hashes k).map ResourceHash.entry) =
          (fun k => (s.hashes k).map ResourceHash.entry) ∨
        (∀ e ∈ (s.hashes key).map ResourceHash.entry, e.expiresAt ≤ now) ∧
          (fun k => ((expireResource key now s).hashes k).map ResourceHash.entry) =
            dropAll [key] fun k => (s.hashes k).map ResourceHash.entry) := by
  unfold expireResource
  split
  next hover =>
    refine ⟨⟨hs.drop _, rfl⟩, Or.inr ⟨?_, entries_drop s _⟩⟩
    intro e he
    obtain ⟨h, hh, rfl⟩ := Option.map_eq_some_iff.mp he
    obtain ⟨h', hh', hdeadline⟩ := hover
    obtain rfl := Option.some.inj (hh.symm.trans hh')
    exact (hs key h hh).2.trans hdeadline
  · exact ⟨⟨hs, rfl⟩, Or.inl rfl⟩

def implements (digest : String → String) : (redisResources digest).Implements where
  key := digest
  entries := fun s key => (s.hashes key).map ResourceHash.entry
  counter := Resources.counter
  Sound := Resources.Sound
  sound_start := fun _ _ hh => (by cases hh)
  refusals :=
    { acquire := fun _ _ _ _ _ hnot => (acquireResources_cases _ ..).elim And.right
        fun ⟨_, _, _, heq⟩ => absurd (congrArg Prod.fst heq) (hnot _)
      renew := fun _ _ _ _ hnot => (renewResources_cases _ ..).elim And.right
        fun ⟨_, _, _, heq⟩ => absurd (congrArg Prod.fst heq) hnot
      release := fun _ _ hnot => (releaseResources_cases _ ..).elim And.right
        fun ⟨_, _, _, heq⟩ => absurd (congrArg Prod.fst heq) hnot }
  acquire := acquireResources_table
  renew := renewResources_table
  release := releaseResources_table
  expire := expireResource_table

end Redis

/-! ## Exclusion -/

namespace ResourceStore.Implements

variable {store : ResourceStore}

/-- A backed run has exclusive leases. -/
theorem exclusive (table : store.Implements) (ops : List ResourceOp)
    (howners : ∀ op ∈ ops, op.HasOwner)
    (horder : (ops.map ResourceOp.now).Pairwise (· ≤ ·)) : store.Exclusive ops := by
  rw [ResourceStore.Exclusive, pairwise_iff_getElem]
  intro i j hi hj hij t ht hlive hlive' r hr hr'
  have hbacked := table.backed_run ops howners horder t ht
  have hpair := pairwise_map.mp hbacked.backs.exclusive
  exact (pairwise_iff_getElem.mp hpair) i j hi hj hij t le_rfl hlive hlive' (table.key r)
    (mem_map_of_mem hr) (mem_map_of_mem hr')

theorem fences (table : store.Implements) (ops : List ResourceOp)
    (howners : ∀ op ∈ ops, op.HasOwner)
    (horder : (ops.map ResourceOp.now).Pairwise (· ≤ ·)) :
    (store.run ops).granted.Pairwise fun g g' => g.lease.fence < g'.lease.fence := by
  obtain ⟨t, ht⟩ : ∃ t, ∀ op ∈ ops, op.now ≤ t := by
    obtain ⟨t, ht⟩ := ((ops.map ResourceOp.now).toFinset).exists_le
    exact ⟨t, fun op hop => ht op.now (mem_toFinset.mpr (mem_map_of_mem hop))⟩
  have hfences := (table.backed_run ops howners horder t ht).backs.fences
  rw [pairwise_map] at hfences
  exact hfences

end ResourceStore.Implements

/-- Both stores are lease tables. -/
def StoreKind.implements (digest : String → String) :
    (kind : StoreKind) → (kind.resources digest).Implements
  | .inMemory => InMemory.implements
  | .redis => Redis.implements digest

/-- **Resource leases are exclusive.**  In every run of either store in time order by owners
with names, no two leases that are unreleased and unexpired share a resource, the fences of
the leases increase, and a call that is refused leaves the store as it was. -/
theorem resource_leases_exclusive (kind : StoreKind) (digest : String → String)
    (ops : List ResourceOp) (howners : ∀ op ∈ ops, op.HasOwner)
    (horder : (ops.map ResourceOp.now).Pairwise (· ≤ ·)) :
    (kind.resources digest).Exclusive ops ∧
      (((kind.resources digest).run ops).granted.Pairwise fun g g' =>
        g.lease.fence < g'.lease.fence) ∧
      (kind.resources digest).RefusalsChangeNothing :=
  ⟨(kind.implements digest).exclusive ops howners horder,
    (kind.implements digest).fences ops howners horder, (kind.implements digest).refusals⟩

/-- Two owners over overlapping resources: the second is refused while the first holds its
lease, also after a renewal, and served once it is released and its key has expired. -/
def contended : List ResourceOp :=
  [.acquire ["gpu:primary", " cpu:0-7 "] "manager-a" 0 10, .acquire ["cpu:0-7"] "manager-b" 5 10,
    .renew 0 8 10, .acquire ["cpu:0-7", "cpu:0-7"] "manager-b" 12 10, .release 0 15,
    .acquire ["cpu:0-7"] "manager-b" 16 10, .expire "cpu:0-7" 30]

/-- The run of `contended` grants two leases, and the theorem covers it. -/
theorem contended_exclusive :
    ((StoreKind.redis.resources id).run contended).granted.length = 2 ∧
      (StoreKind.redis.resources id).Exclusive contended := by
  refine ⟨by decide +kernel, (resource_leases_exclusive .redis id contended ?_ ?_).1⟩
  · simp [contended, ResourceOp.HasOwner]
  · simp only [contended, List.map, ResourceOp.now]
    norm_num

end GpuManager.Lifecycle
