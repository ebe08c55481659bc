import Mathlib.Data.Finset.Card
import Mathlib.Data.String.Basic
import Mathlib.Tactic.Simps.Basic
import GpuManager.Lib.SortedSet
import GpuManager.Broker.Contracts

/-!
# The broker's Redis namespace

One `Store` is the content of a broker's Redis prefix: a hash per job, member,
attempt, repair and idempotency key, one sorted set per priority, one lease set
per member, the dispatcher's leader hash and its fence counter.

A hash keeps the denormalised top-level fields next to the canonical `record`,
because the scripts compare and write the top-level fields while the Python
methods read the record.  That the two agree is a theorem about the scripts, not
part of the data.

`repairClaims` is the one component that is not in Redis: it is the table of the
process-local `InMemoryRepairFence`.

Numbers are exact here.  The scripts count in doubles, and `cjson` prints fourteen digits:
this is the same for versions, fences and slot counts below 10^14.  What happens to a member
above is the subject of `MirrorStore`.
-/

namespace GpuManager.Broker

open KeyValue

/-- `job:<id>`.  `acceptedBoundaryCrossed` is the top-level field that
`requeue_claim.lua` reads; no script writes it. -/
structure JobHash where
  record : JobRecord
  state : JobState
  stateVersion : ℤ
  selectedMember : Option String := none
  memberStateVersion : Option ℤ := none
  queueClaimedAt : Option ℚ := none
  currentAttemptId : Option String := none
  acceptedBoundaryCrossed : Option String := none
  deriving DecidableEq

/-- `member:<name>`. -/
structure MemberHash where
  record : MemberSnapshot
  state : MemberState
  accepting : Bool
  stateVersion : ℤ
  generationFence : ℕ
  compatibleFreeSlots : ℤ
  configuredSlots : ℤ
  deriving DecidableEq

/-- `attempt:<id>`.  `ttl` is the retention set by `EXPIRE`, in seconds; a key
without one never expires. -/
structure AttemptHash where
  record : AttemptRecord
  state : AttemptState
  jobId : String
  memberName : String
  reservationFence : ℤ
  reservedAt : ℚ
  terminalAt : Option ℚ := none
  errorCategory : Option ReasonCode := none
  ttl : Option ℤ := none
  deriving DecidableEq

inductive RepairStatus where
  | pending | completed
  deriving DecidableEq

/-- `repair:<job id>`. -/
structure RepairHash where
  owner : String
  fence : ℤ
  status : RepairStatus
  deriving DecidableEq

/-- `dispatcher:leader`. -/
structure LeaderHash where
  owner : String
  token : ℕ
  expiresAt : ℚ
  deriving DecidableEq

/-- `idempotency:<digest>`. -/
structure IdempotencyHash where
  requestSha256 : String
  jobId : String
  deriving DecidableEq

structure RepairClaim where
  fence : ℤ
  owner : String
  completed : Bool
  deriving DecidableEq

/-- The keys under one broker prefix. -/
structure Store where
  jobs : String → Option JobHash
  queues : Priority → SortedSet String
  idempotency : String → Option IdempotencyHash
  members : String → Option MemberHash
  leases : String → Finset String
  attempts : String → Option AttemptHash
  repairs : String → Option RepairHash
  leader : Option LeaderHash
  fenceCounter : ℕ
  repairClaims : String → Option RepairClaim

namespace Store

/-- A namespace without keys. -/
def empty : Store where
  jobs := fun _ => none
  queues := fun _ => SortedSet.empty
  idempotency := fun _ => none
  members := fun _ => none
  leases := fun _ => ∅
  attempts := fun _ => none
  repairs := fun _ => none
  leader := none
  fenceCounter := 0
  repairClaims := fun _ => none

/-- `ZADD queue:<p> score id`. -/
@[simps -fullyApplied jobs members leases attempts leader fenceCounter]
def zadd (s : Store) (p : Priority) (score : ℤ) (id : String) : Store :=
  { s with queues := Function.update s.queues p ((s.queues p).add score id) }

/-- `ZREM queue:<p> id`. -/
@[simps -fullyApplied jobs members leases attempts leader fenceCounter]
def zrem (s : Store) (p : Priority) (id : String) : Store :=
  { s with queues := Function.update s.queues p ((s.queues p).remove id) }

/-- Write the hash of a job. -/
@[simps -fullyApplied jobs queues members leases attempts leader fenceCounter]
def putJob (s : Store) (id : String) (h : JobHash) : Store :=
  { s with jobs := Function.update s.jobs id (some h) }

/-- Write the hash of a member. -/
@[simps -fullyApplied members jobs queues leases attempts leader fenceCounter]
def putMemberHash (s : Store) (name : String) (h : MemberHash) : Store :=
  { s with members := Function.update s.members name (some h) }

/-- Write the hash of an attempt. -/
@[simps -fullyApplied attempts jobs queues members leases leader fenceCounter]
def putAttempt (s : Store) (id : String) (h : AttemptHash) : Store :=
  { s with attempts := Function.update s.attempts id (some h) }

/-- `SADD leases:<name> attempt`. -/
@[simps -fullyApplied leases jobs queues members attempts leader fenceCounter]
def sadd (s : Store) (name attempt : String) : Store :=
  { s with leases := Function.update s.leases name (insert attempt (s.leases name)) }

/-- `SREM leases:<name> attempt`. -/
@[simps -fullyApplied leases jobs queues members attempts leader fenceCounter]
def srem (s : Store) (name attempt : String) : Store :=
  { s with leases := Function.update s.leases name ((s.leases name).erase attempt) }

section Fields

variable (s : Store) (p : Priority) (score : ℤ) (id : String) {q : Priority} {b : String}

/-- Queue membership after `ZADD`. -/
@[simp] theorem mem_zadd_queues :
    b ∈ (s.zadd p score id).queues q ↔ (q = p ∧ b = id) ∨ b ∈ s.queues q := by
  by_cases h : q = p
  · subst h
    simp [zadd]
  · simp [zadd, h]

@[simp] theorem mem_zrem_queues :
    b ∈ (s.zrem p id).queues q ↔ b ∈ s.queues q ∧ ¬ (q = p ∧ b = id) := by
  by_cases h : q = p
  · subst h
    simp [zrem]
  · simp [zrem, h]

end Fields

end Store

end GpuManager.Broker
