import GpuManager.Lib.LuaNumber
import GpuManager.Broker.Repository

/-!
# The two copies of a member, with their numbers

`Broker.Store` keeps numbers as they are.  Here a member hash is taken with what
happens to a number on its way: a value written as a script argument stays the
text Python sent, a value that a script decodes, computes with or encodes is a
double printed with fourteen digits.  The record and the top-level fields are
written from different sides of that line.

* `StoredMember`: a snapshot whose four fenced numbers may have become floats.
* `MirrorHash`, `MirrorStore`: the member keys and the lease sets.
* `MirrorStore.putMember` … `repairMemberGenerationFence`: the calls, each as one
  function, since nothing runs between its reads and its script.

Of the remaining numbers of a snapshot only the value is kept.  What a script
decides from the job, queue, attempt and leader keys is an argument of the call.
-/

namespace GpuManager.Broker

/-! ## Members -/

/-- A member as Python reads it from a record, or writes it into one.  `rest`
holds the other fields; its own copies of the four numbers are not read. -/
structure StoredMember where
  rest : MemberSnapshot
  configuredSlots : Number
  stateVersion : Number
  generationFence : Number
  compatibleFreeSlots : Option Number
  deriving DecidableEq

namespace StoredMember

/-- A snapshot that has not been in Redis: all its numbers are integers. -/
def ofSnapshot (m : MemberSnapshot) : StoredMember where
  rest := m
  configuredSlots := .int m.configuredSlots
  stateVersion := .int m.stateVersion
  generationFence := .int m.generationFence
  compatibleFreeSlots := m.compatibleFreeSlots.map .int

/-- The values of a stored member. -/
def snapshot (m : StoredMember) : MemberSnapshot :=
  { m.rest with
    configuredSlots := m.configuredSlots.value
    stateVersion := m.stateVersion.value
    generationFence := m.generationFence.value.toNat
    compatibleFreeSlots := m.compatibleFreeSlots.map (·.value) }

/-- `cjson.encode(cjson.decode(record))`, as Python reads it back. -/
def throughLua (m : StoredMember) : StoredMember where
  rest :=
    { m.rest with
      contextPerSlot := (GpuManager.throughLua m.rest.contextPerSlot).value
      backendSlotsTotal := m.rest.backendSlotsTotal.map fun n => (GpuManager.throughLua n).value
      backendSlotsBusy := m.rest.backendSlotsBusy.map fun n => (GpuManager.throughLua n).value
      dispatcherLeases := (GpuManager.throughLua m.rest.dispatcherLeases).value
      drainDisabledSlots := (GpuManager.throughLua m.rest.drainDisabledSlots).value
      mainPid := m.rest.mainPid.map fun n => (GpuManager.throughLua n).value
      snapshotAgeMs := (GpuManager.throughLua m.rest.snapshotAgeMs).value }
  configuredSlots := GpuManager.throughLua m.configuredSlots.value
  stateVersion := GpuManager.throughLua m.stateVersion.value
  generationFence := GpuManager.throughLua m.generationFence.value
  compatibleFreeSlots := m.compatibleFreeSlots.map fun n => GpuManager.throughLua n.value

/-- Whether `cjson` can encode the record: it refuses an infinite number. -/
def encodable (m : StoredMember) : Bool :=
  [m.rest.contextPerSlot, m.rest.dispatcherLeases, m.rest.drainDisabledSlots,
      m.rest.snapshotAgeMs, m.configuredSlots.value, m.stateVersion.value,
      m.generationFence.value].all fitsDouble &&
    [m.rest.backendSlotsTotal, m.rest.backendSlotsBusy, m.rest.mainPid,
      m.compatibleFreeSlots.map (·.value)].all fun n => n.all fitsDouble

/-- `MemberSnapshot.__post_init__`: the fence is a non-negative integer. -/
def wellFenced (m : StoredMember) : Bool :=
  match m.generationFence with
  | .int n => decide (0 ≤ n)
  | .float _ => false

def draining (m : StoredMember) : StoredMember :=
  { m with
    rest :=
      { m.rest with
        state := .draining
        accepting := false
        blockers := RedisJobRepository.appendUnique m.rest.blockers "member_draining"
        reasonCodes := RedisJobRepository.appendUnique m.rest.reasonCodes .memberDraining }
    compatibleFreeSlots := some (.int 0)
    stateVersion := m.stateVersion.add 1 }

/-- The record of `release_member_lease`, before the script counts the leases. -/
def releasing (m : StoredMember) : StoredMember :=
  { m with
    rest :=
      { m.rest with
        dispatcherLeases := 0
        drainDisabledSlots :=
          if m.rest.state = .draining then m.rest.drainDisabledSlots + 1
          else m.rest.drainDisabledSlots }
    compatibleFreeSlots := some (.int 0)
    stateVersion := m.stateVersion.add 1 }

def offline (m : StoredMember) : StoredMember :=
  { m with
    rest := { m.rest with state := .offline, accepting := false }
    compatibleFreeSlots := some (.int 0)
    stateVersion := m.stateVersion.add 1 }

def joining (m : StoredMember) (generationFence : ℤ) : StoredMember :=
  { m with
    rest := { m.rest with state := .joining, accepting := false }
    compatibleFreeSlots := some (.int 0)
    generationFence := .int generationFence
    stateVersion := m.stateVersion.add 1 }

def rejoined (m readiness : StoredMember) : StoredMember :=
  { readiness with
    rest :=
      { readiness.rest with
        state := .readyAccepting
        accepting := true
        drainDisabledSlots := 0
        dispatcherLeases := 0 }
    generationFence := m.generationFence
    stateVersion := m.stateVersion.add 1 }

end StoredMember

/-- `member:<name>`.  `compatibleFreeSlots` is `none` where the text is not the
text of a number. -/
structure MirrorHash where
  record : StoredMember
  state : MemberState
  accepting : Bool
  stateVersion : Number
  generationFence : Number
  compatibleFreeSlots : Option Number
  configuredSlots : Number
  deriving DecidableEq

structure MirrorStore where
  members : String → Option MirrorHash
  leases : String → Finset String

namespace MirrorStore

def empty : MirrorStore := ⟨fun _ => none, fun _ => ∅⟩

/-- Write a member hash. -/
def put (s : MirrorStore) (name : String) (h : MirrorHash) : MirrorStore :=
  { s with members := Function.update s.members name (some h) }

/-- `SADD leases:<name> attempt`. -/
def sadd (s : MirrorStore) (name attempt : String) : MirrorStore :=
  { s with leases := Function.update s.leases name (insert attempt (s.leases name)) }

/-- `SREM leases:<name> attempt`. -/
def srem (s : MirrorStore) (name attempt : String) : MirrorStore :=
  { s with leases := Function.update s.leases name ((s.leases name).erase attempt) }

@[simp] theorem put_members (s : MirrorStore) (name : String) (h : MirrorHash) :
    (s.put name h).members = Function.update s.members name (some h) := rfl

@[simp] theorem sadd_members (s : MirrorStore) (name attempt : String) :
    (s.sadd name attempt).members = s.members := rfl

@[simp] theorem srem_members (s : MirrorStore) (name attempt : String) :
    (s.srem name attempt).members = s.members := rfl

/-! ## Reading -/

/-- `get_member`. -/
def getMember (name : String) (s : MirrorStore) : Except BrokerError (Option StoredMember) :=
  match s.members name with
  | none => .ok none
  | some h =>
    if h.record.wellFenced then .ok (some h.record) else .error .repositoryUnavailable

/-- `get_reservation_member`: the record, with the top-level fields put over it. -/
def getReservationMember (name : String) (s : MirrorStore) :
    Except BrokerError (Option StoredMember) :=
  match s.members name with
  | none => .ok none
  | some h =>
    if h.record.wellFenced = false then .error .repositoryUnavailable
    else
      match h.stateVersion.parsed, h.generationFence.parsed,
        h.compatibleFreeSlots.bind (·.parsed), h.configuredSlots.parsed with
      | some version, some fence, some free, some configured =>
        if h.record.rest.name ≠ name ∨ version < 0 ∨ fence < 0 ∨ free < 0 ∨ configured < 0 then
          .error .repositoryUnavailable
        else
          .ok (some
            { rest :=
                { h.record.rest with
                  state := h.state
                  accepting := h.accepting
                  dispatcherLeases := (s.leases name).card }
              configuredSlots := .int configured
              stateVersion := .int version
              generationFence := .int fence
              compatibleFreeSlots := some (.int free) })
      | _, _, _, _ => .error .repositoryUnavailable

/-- `lease_count`. -/
def leaseCount (name : String) (s : MirrorStore) : ℕ := (s.leases name).card

/-! ## The readiness refresh -/

def refreshArgs (member : StoredMember) (s : MirrorStore) : Lua.RefreshArgs :=
  { member := member.snapshot
    currentFree := (s.members member.rest.name).bind fun h =>
      h.compatibleFreeSlots.bind (·.parsed)
    currentStateVersion := (s.members member.rest.name).bind (·.stateVersion.parsed)
    liveLeases := (s.leases member.rest.name).card
    currentState := (s.members member.rest.name).map (·.state)
    currentAccepting := (s.members member.rest.name).map (·.accepting) }

/-- `record_member`. -/
def recordMember (member : StoredMember) (a : Lua.RefreshArgs) : StoredMember :=
  { member with
    rest :=
      { member.rest with
        state := a.persistedState
        accepting := a.persistedAccepting
        dispatcherLeases := a.liveLeases }
    stateVersion := .int a.effectiveVersion
    compatibleFreeSlots := some (.int a.initialFree) }

/-- The free slots `REFRESH_MEMBER_MIRROR_LUA` writes; `none` where it compares a
text that is no number. -/
def refreshedFree (name : String) (requested : ℤ) (s : MirrorStore) : Option ℤ :=
  if (s.leases name).card = 0 then some (double requested)
  else
    match s.members name with
    | none => some (double requested)
    | some h => h.compatibleFreeSlots.map fun free =>
      if 0 ≤ double free.value then double free.value else double requested

/-- `put_member`.  The answer converts the free slots the script reports, after
the script has written. -/
def putMember (member : StoredMember) (s : MirrorStore) :
    Except BrokerError StoredMember × MirrorStore :=
  let name := member.rest.name
  let a := refreshArgs member s
  let record := recordMember member a
  match refreshedFree name a.initialFree s with
  | none => (.error .repositoryUnavailable, s)
  | some free =>
    let live := (s.leases name).card
    let patched : StoredMember :=
      { record with
        rest := { record.rest with dispatcherLeases := live }
        compatibleFreeSlots := some (.int free) }
    if patched.encodable = false then (.error .repositoryUnavailable, s)
    else
      let s' := s.put name
        { record := patched.throughLua
          state := a.persistedState
          accepting := a.persistedAccepting
          stateVersion := .int a.effectiveVersion
          generationFence := member.generationFence
          compatibleFreeSlots := some (printed free)
          configuredSlots := GpuManager.throughLua member.configuredSlots.value }
      match (printed free).parsed with
      | none => (.error (.valueError "invalid literal for int()"), s')
      | some free' =>
        (.ok { record with
          rest := { record.rest with dispatcherLeases := live }
          compatibleFreeSlots := some (.int free') }, s')

/-! ## Member lifecycle -/

structure DrainCall where
  mode : Lua.DrainMode
  current : StoredMember
  updated : StoredMember
  claimedVersion : ℤ := 0
  attemptId : String := ""

def freeOrZero (m : StoredMember) : Number := m.compatibleFreeSlots.getD (.int 0)

def releasedFree (a : DrainCall) (live : ℕ) : ℤ :=
  let configured := double a.current.configuredSlots.value
  let busy := double (a.current.rest.backendSlotsBusy.getD 0)
  if a.updated.rest.state = .draining then 0
  else if 0 < configured then
    min configured (min (max 0 (double (configured - busy))) (max 0 (double (configured - live))))
  else double (freeOrZero a.updated).value

/-- The record of a release with the leases that are left. -/
def DrainCall.patched (a : DrainCall) (live : ℕ) : StoredMember :=
  { a.updated with
    rest := { a.updated.rest with dispatcherLeases := live }
    compatibleFreeSlots := some (.int (releasedFree a live)) }

/-- The two release modes: the lease is gone before the record is encoded. -/
def releaseCommit (a : DrainCall) (h : MirrorHash) (s : MirrorStore) :
    Except BrokerError StoredMember × MirrorStore :=
  let name := a.current.rest.name
  let s₁ := s.srem name a.attemptId
  let live := (s₁.leases name).card
  let free := releasedFree a live
  if (a.patched live).encodable = false then (.error .repositoryUnavailable, s₁)
  else
    let s₂ := s₁.put name
      { h with
        record := (a.patched live).throughLua
        state := a.updated.rest.state
        accepting := a.updated.rest.accepting
        compatibleFreeSlots := some (printed free)
        stateVersion := a.updated.stateVersion
        generationFence := a.updated.generationFence }
    match (printed free).parsed with
    | none => (.error (.valueError "invalid literal for int()"), s₂)
    | some free' =>
      (.ok { a.updated with
        rest := { a.updated.rest with dispatcherLeases := live }
        compatibleFreeSlots := some (.int free') }, s₂)

def lifecycleHash (updated : StoredMember) (h : MirrorHash) : MirrorHash :=
  { h with
    record := updated.throughLua
    state := updated.rest.state
    accepting := updated.rest.accepting
    compatibleFreeSlots := some (freeOrZero updated)
    stateVersion := updated.stateVersion
    generationFence := updated.generationFence }

/-- The lifecycle modes: the record goes through `cjson`, the top-level fields
are the arguments. -/
def lifecycleCommit (a : DrainCall) (h : MirrorHash) (s : MirrorStore) :
    Except BrokerError StoredMember × MirrorStore :=
  if a.updated.encodable = false then (.error .repositoryUnavailable, s)
  else
    (.ok a.updated, s.put a.current.rest.name (lifecycleHash a.updated h))

/-- `_commit_member_drain` with `member_drain.lua`.  Versions are compared as
texts, and the step to the next one in doubles. -/
def commitMemberDrain (a : DrainCall) (s : MirrorStore) :
    Except BrokerError StoredMember × MirrorStore :=
  let name := a.current.rest.name
  match s.members name with
  | none => (.error (.contractError ("UNKNOWN_MEMBER:" ++ name)), s)
  | some h =>
    let live := (s.leases name).card
    if a.mode ≠ .releaseV2 ∧ h.stateVersion ≠ a.current.stateVersion then
      (.error (.reservationStale "RESERVATION_STATE_STALE"), s)
    else if double a.updated.stateVersion.value ≠
        double (double a.current.stateVersion.value + 1) then
      (.error (.contractError "MEMBER_STATE_VERSION_INVALID"), s)
    else
      match a.mode with
      | .begin =>
        if h.state = .readyAccepting ∨ h.state = .readyBusy ∨ h.state = .joining ∨
            h.state = .unhealthy then
          lifecycleCommit a h s
        else (.error (.contractError "DRAIN_INVALID_STATE"), s)
      | .release =>
        if double a.claimedVersion ≠ double a.current.stateVersion.value then
          (.error (.reservationStale "RESERVATION_STATE_STALE"), s)
        else if a.attemptId ∉ s.leases name then
          (.error (.reservationStale "LEASE_NOT_OWNED"), s)
        else releaseCommit a h s
      | .releaseV2 =>
        if a.attemptId ∉ s.leases name then
          (.error (.reservationStale "LEASE_NOT_OWNED"), s)
        else releaseCommit a h s
      | .complete =>
        if h.state ≠ .draining then (.error (.contractError "DRAIN_INVALID_STATE"), s)
        else if live ≠ 0 then (.error (.reservationStale "MEMBER_LEASES_REMAIN"), s)
        else lifecycleCommit a h s
      | .beginRejoin =>
        if h.state ≠ .offline then (.error (.contractError "REJOIN_INVALID_STATE"), s)
        else if double a.updated.generationFence.value ≤ double h.generationFence.value then
          (.error (.contractError "GENERATION_FENCE_STALE"), s)
        else lifecycleCommit a h s
      | .completeRejoin =>
        if h.state ≠ .joining then (.error (.contractError "REJOIN_INVALID_STATE"), s)
        else if live ≠ 0 then (.error (.reservationStale "MEMBER_LEASES_REMAIN"), s)
        else lifecycleCommit a h s

def withMember (name : String)
    (next : StoredMember → Except BrokerError StoredMember × MirrorStore) (s : MirrorStore) :
    Except BrokerError StoredMember × MirrorStore :=
  match getMember name s with
  | .error e => (.error e, s)
  | .ok none => (.error (.contractError ("UNKNOWN_MEMBER:" ++ name)), s)
  | .ok (some current) => next current

def afterTransition (current target : MemberState) (s : MirrorStore)
    (next : Except BrokerError StoredMember × MirrorStore) :
    Except BrokerError StoredMember × MirrorStore :=
  if target ∈ allowedMemberTransitions current then next
  else (.error (.contractError
    ("ILLEGAL_MEMBER_TRANSITION:" ++ current.value ++ "->" ++ target.value)), s)

/-- The version check of the lifecycle methods, in Python's numbers. -/
def atVersion (current : StoredMember) (expectedStateVersion : ℤ) (s : MirrorStore)
    (next : Except BrokerError StoredMember × MirrorStore) :
    Except BrokerError StoredMember × MirrorStore :=
  if current.stateVersion.value ≠ expectedStateVersion then
    (.error (.reservationStale ReasonCode.reservationStateStale.value), s)
  else next

/-- `begin_member_drain`. -/
def beginMemberDrain (name : String) (expectedStateVersion : ℤ) (s : MirrorStore) :
    Except BrokerError StoredMember × MirrorStore :=
  withMember name (fun current =>
    atVersion current expectedStateVersion s <|
      if current.rest.state = .draining then (.ok current, s)
      else afterTransition current.rest.state .draining s <| commitMemberDrain
        { mode := .begin
          current := current
          updated := current.draining } s) s

/-- `release_member_lease`. -/
def releaseMemberLease (name attemptId : String) (claimedMemberStateVersion : ℤ)
    (enforceStateVersionFence : Bool) (s : MirrorStore) :
    Except BrokerError StoredMember × MirrorStore :=
  withMember name (fun current => commitMemberDrain
    { mode := if enforceStateVersionFence then .release else .releaseV2
      current := current
      updated := current.releasing
      claimedVersion := claimedMemberStateVersion
      attemptId := attemptId } s) s

/-- `complete_member_drain`. -/
def completeMemberDrain (name : String) (expectedStateVersion : ℤ) (s : MirrorStore) :
    Except BrokerError StoredMember × MirrorStore :=
  withMember name (fun current =>
    atVersion current expectedStateVersion s <|
      afterTransition current.rest.state .offline s <| commitMemberDrain
        { mode := .complete
          current := current
          updated := current.offline } s) s

/-- `begin_member_rejoin`. -/
def beginMemberRejoin (name : String) (expectedStateVersion generationFence : ℤ)
    (s : MirrorStore) : Except BrokerError StoredMember × MirrorStore :=
  withMember name (fun current =>
    atVersion current expectedStateVersion s <|
      if generationFence ≤ current.generationFence.value then
        (.error (.contractError "GENERATION_FENCE_STALE"), s)
      else afterTransition current.rest.state .joining s <| commitMemberDrain
        { mode := .beginRejoin
          current := current
          updated := current.joining generationFence } s) s

/-- `complete_member_rejoin`. -/
def completeMemberRejoin (name : String) (expectedStateVersion : ℤ) (readiness : StoredMember)
    (s : MirrorStore) : Except BrokerError StoredMember × MirrorStore :=
  withMember name (fun current =>
    atVersion current expectedStateVersion s <|
      if readiness.rest.name ≠ name then
        (.error (.contractError "READINESS_MEMBER_MISMATCH"), s)
      else if readiness.rest.state ≠ .readyAccepting ∨ readiness.rest.accepting = false then
        (.error (.contractError "MEMBER_NOT_READY"), s)
      else if readiness.rest.blockers ≠ [] ∨ readiness.rest.reasonCodes ≠ [] then
        (.error (.contractError "MEMBER_NOT_READY"), s)
      else afterTransition current.rest.state .readyAccepting s <| commitMemberDrain
        { mode := .completeRejoin
          current := current
          updated := current.rejoined readiness } s) s

/-! ## Reservation -/

/-- How one candidate of a reservation round ends: with a claim, with the next
candidate's turn, or with the round. -/
inductive Turn where
  | claimed (member : StoredMember)
  | unavailable
  | ended (result : Except BrokerError Unit)

/-- A candidate, the attempt id drawn for it and, when the leader, job, queue or
attempt keys refuse the claim, how the round then ends. -/
structure MirrorCandidate where
  member : StoredMember
  attemptId : String
  refusal : Option (Except BrokerError Unit) := none

/-- `configured_slots` of `reserve_job.lua`: the record's where the field has
none. -/
def slotsOf (h : MirrorHash) : ℤ :=
  if double h.configuredSlots.value ≤ 0 then double h.record.configuredSlots.value
  else double h.configuredSlots.value

/-- The member hash of a successful `reserve_job.lua`.  Numbers that a script
passes to Redis itself are written in full. -/
def reserveCommit (c : MirrorCandidate) (h : MirrorHash) (free : ℤ) (s : MirrorStore) :
    Turn × MirrorStore :=
  let name := c.member.rest.name
  let s₁ := s.sadd name c.attemptId
  let live := (s₁.leases name).card
  let newFree := max 0 (min (double (free - 1)) (double (slotsOf h - live)))
  let patched : StoredMember :=
    { c.member with
      rest :=
        { c.member.rest with
          state := h.state
          accepting := h.accepting
          dispatcherLeases := live }
      stateVersion := .int (double h.stateVersion.value)
      generationFence := .int (double h.generationFence.value)
      compatibleFreeSlots := some (.int newFree) }
  if patched.encodable = false then (.ended (.error .repositoryUnavailable), s₁)
  else
    (.claimed
      { c.member with
        rest := { c.member.rest with dispatcherLeases := c.member.rest.dispatcherLeases + 1 }
        compatibleFreeSlots := some (.int
          (max 0 ((c.member.compatibleFreeSlots.getD (.int 0)).value - 1))) },
      s₁.put name
        { h with
          record := patched.throughLua
          compatibleFreeSlots := some (.int newFree)
          configuredSlots := .int (slotsOf h) })

/-- One candidate's turn. -/
def reserveTurn (c : MirrorCandidate) (s : MirrorStore) : Turn × MirrorStore :=
  let name := c.member.rest.name
  match s.members name with
  | none => (.ended (.error (.reservationStale ReasonCode.reservationStateStale.value)), s)
  | some h =>
    if h.stateVersion ≠ c.member.stateVersion then
      (.ended (.error (.reservationStale ReasonCode.reservationStateStale.value)), s)
    else if h.state ≠ .readyAccepting ∨ h.accepting = false then (.unavailable, s)
    else
      match h.compatibleFreeSlots with
      | none => (.ended (.error .repositoryUnavailable), s)
      | some free =>
        if double free.value ≤ 0 ∨ slotsOf h ≤ 0 ∨ slotsOf h ≤ (s.leases name).card then
          (.unavailable, s)
        else
          match c.refusal with
          | some result => (.ended result, s)
          | none => reserveCommit c h (double free.value) s

def reserveNext : List MirrorCandidate → Bool → MirrorStore →
    Except BrokerError (Option StoredMember) × MirrorStore
  | [], staleSeen, s =>
    if staleSeen then
      (.error (.reservationStale ReasonCode.reservationStateStale.value), s)
    else (.ok none, s)
  | c :: rest, _, s =>
    match reserveTurn c s with
    | (.claimed member, s') => (.ok (some member), s')
    | (.unavailable, s') => reserveNext rest true s'
    | (.ended result, s') => (result.map fun _ => none, s')

/-! ## Requeue of a claim -/

/-- The member part of `requeue_claim` for a job that names one.  The record is
written as Python sent it; no `cjson` is involved. -/
def requeueClaim (name attemptId : String) (refusal : Option BrokerError) (s : MirrorStore) :
    Except BrokerError Unit × MirrorStore :=
  match getMember name s, s.members name with
  | .error e, _ => (.error e, s)
  | .ok (some member), some h =>
    if h.stateVersion ≠ member.stateVersion then
      (.error (.reservationStale ReasonCode.reservationStateStale.value), s)
    else
      match refusal with
      | some e => (.error e, s)
      | none =>
        let free := member.configuredSlots.least
          ((member.compatibleFreeSlots.getD (.int 0)).add 1)
        let new : StoredMember :=
          { member with
            rest :=
              { member.rest with
                dispatcherLeases := max 0 (member.rest.dispatcherLeases - 1) }
            compatibleFreeSlots := some free
            stateVersion := member.stateVersion.add 1 }
        (.ok (), (s.srem name attemptId).put name
          { h with
            record := new
            state := new.rest.state
            accepting := new.rest.accepting
            compatibleFreeSlots := some free
            stateVersion := new.stateVersion
            generationFence := new.generationFence })
  | _, _ => (refusal.elim (.ok ()) .error, s)

/-! ## Repair of a fence -/

def repairable : List MemberState := [.offline, .unhealthy, .faulted, .draining, .joining]

/-- `repair_member_generation_fence`.  A `null` free count is a light userdata
in Lua and no number as a text. -/
def repairMemberGenerationFence (name : String) (expectedStateVersion : ℤ) (s : MirrorStore) :
    Except BrokerError StoredMember × MirrorStore :=
  if expectedStateVersion < 0 then
    (.error (.contractError "MEMBER_STATE_VERSION_INVALID"), s)
  else
    match s.members name with
    | none => (.error (.contractError ("UNKNOWN_MEMBER:" ++ name)), s)
    | some h =>
      if h.record.wellFenced then
        (.error (.contractError "MEMBER_GENERATION_FENCE_REPAIR_NOT_NEEDED"), s)
      else if h.record.stateVersion.value ≠ expectedStateVersion then
        (.error (.reservationStale "RESERVATION_STATE_STALE"), s)
      else if h.record.rest.state ∉ repairable ∨ h.record.rest.accepting then
        (.error (.contractError "MEMBER_REPAIR_STATE_INVALID"), s)
      else if (s.leases name).card ≠ 0 then
        (.error (.reservationStale "MEMBER_LEASES_REMAIN"), s)
      else if h.stateVersion ≠ .int expectedStateVersion then
        (.error (.reservationStale "RESERVATION_STATE_STALE"), s)
      else
        let repaired : StoredMember := { h.record with generationFence := .int 0 }
        (.ok repaired, s.put name
          { record := repaired
            state := repaired.rest.state
            accepting := repaired.rest.accepting
            stateVersion := GpuManager.throughLua repaired.stateVersion.value
            generationFence := .int 0
            compatibleFreeSlots := repaired.compatibleFreeSlots.map fun n =>
              GpuManager.throughLua n.value
            configuredSlots := GpuManager.throughLua repaired.configuredSlots.value })

/-- `repair_malformed_member_generation_fence`: the version is the record's own. -/
def repairMalformedMemberGenerationFence (name : String) (s : MirrorStore) :
    Except BrokerError StoredMember × MirrorStore :=
  match s.members name with
  | none => (.error (.contractError ("UNKNOWN_MEMBER:" ++ name)), s)
  | some h =>
    match h.record.stateVersion with
    | .int version =>
      if version < 0 then (.error .repositoryUnavailable, s)
      else repairMemberGenerationFence name version s
    | .float _ => (.error .repositoryUnavailable, s)

end MirrorStore

/-! ## Calls -/

/-- The calls that touch a member. -/
inductive MirrorCall where
  | putMember (member : MemberSnapshot)
  | reserveNext (candidates : List (MemberSnapshot × String × Option (Except BrokerError Unit)))
  | requeueClaim (name attemptId : String) (refusal : Option BrokerError)
  | releaseMemberLease (name attemptId : String) (claimedMemberStateVersion : ℤ)
      (enforceStateVersionFence : Bool)
  | beginMemberDrain (name : String) (expectedStateVersion : ℤ)
  | completeMemberDrain (name : String) (expectedStateVersion : ℤ)
  | beginMemberRejoin (name : String) (expectedStateVersion generationFence : ℤ)
  | completeMemberRejoin (name : String) (expectedStateVersion : ℤ) (readiness : MemberSnapshot)
  | repairMemberGenerationFence (name : String) (expectedStateVersion : ℤ)

namespace MirrorCall

/-- The store after a call. -/
def effect (call : MirrorCall) (s : MirrorStore) : MirrorStore :=
  match call with
  | putMember member => (s.putMember (.ofSnapshot member)).2
  | reserveNext candidates => (MirrorStore.reserveNext
      (candidates.map fun c => ⟨.ofSnapshot c.1, c.2.1, c.2.2⟩) false s).2
  | requeueClaim name attemptId refusal => (s.requeueClaim name attemptId refusal).2
  | releaseMemberLease name attemptId claimed enforce =>
    (s.releaseMemberLease name attemptId claimed enforce).2
  | beginMemberDrain name version => (s.beginMemberDrain name version).2
  | completeMemberDrain name version => (s.completeMemberDrain name version).2
  | beginMemberRejoin name version fence => (s.beginMemberRejoin name version fence).2
  | completeMemberRejoin name version readiness =>
    (s.completeMemberRejoin name version (.ofSnapshot readiness)).2
  | repairMemberGenerationFence name version => (s.repairMemberGenerationFence name version).2

end MirrorCall

def MirrorStore.run (s : MirrorStore) (calls : List MirrorCall) : MirrorStore :=
  calls.foldl (fun s call => call.effect s) s

end GpuManager.Broker
