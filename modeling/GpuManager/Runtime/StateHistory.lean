import GpuManager.Runtime.StateCodec

/-!
# Histories of the runtime state

Any number of owners call one `FileRuntimeStateStore`.  A call changes the records in one critical
section and writes the file in another, so other calls come in between; and the process may stop
between any two sections and open the store again on its file.

A `Process` is the store and its file, with an account of every change so far, in order.  A change
is *kept* until a restart loses it, it is *durable* once some write has put it in the file, and its
call is *completed* by its own write.

What the records say about the past is one predicate, `Tells`: the fences that were begun, the
generations that were returned, and, for a ready record, the transition that ended there.  The
memory tells of the kept changes and the file of the durable ones, and a restart makes the two the
same.  `fence_safe` reads the four parts of fence safety off that.  Only an instance id with a
surrogate pair escapes it, because a file gives it back as another id.
-/

namespace GpuManager.Runtime

open Json PyStr

/-- What became of a change. -/
inductive Status where
  | changed
  | written
  | completed
  | survived
  | lost
  deriving DecidableEq

structure Entry where
  call : StateCall
  answer : Returned
  status : Status

structure Process where
  memory : Records := []
  file : Option (Json ℚ) := none
  entries : List Entry := []

inductive StateEvent where
  | change (call : StateCall)
  | write (i : ℕ)
  | restart

/-- Every change is in the file. -/
def Entry.wrote (e : Entry) : Entry :=
  { e with status := if e.status = .changed then .written else e.status }

/-- The process stops: what is not in the file is lost, and no call goes on. -/
def Entry.restarted (e : Entry) : Entry :=
  { e with
    status :=
      match e.status with
      | .changed => .lost
      | .written => .survived
      | status => status }

def complete : ℕ → List Entry → List Entry
  | _, [] => []
  | 0, e :: entries => { e with status := .completed } :: entries.map Entry.wrote
  | i + 1, e :: entries => e.wrote :: complete i entries

/-- One event; `none` when it cannot happen: the call has nothing to write, the document cannot be
encoded, or the store cannot be opened. -/
def step (c : Contracts) : StateEvent → Process → Option Process
  | .change call, p =>
    match change c call p.memory with
    | .error _ => some p
    | .ok (answer, memory) =>
      some { p with memory := memory, entries := p.entries ++ [⟨call, answer, .changed⟩] }
  | .write i, p =>
    match p.entries[i]? with
    | none => none
    | some e =>
      if e.status = .changed ∨ e.status = .written then
        (reread (stateDocument p.memory)).map fun _ =>
          { p with
            file := some (stateDocument p.memory)
            entries := complete i p.entries }
      else none
  | .restart, p =>
    (load p.file).map fun memory =>
      { p with memory := memory, entries := p.entries.map Entry.restarted }

/-- A run of events. -/
def run (c : Contracts) : List StateEvent → Process → Option Process
  | [], p => some p
  | event :: events, p => (step c event p).bind (run c events)

abbrev Change := StateCall × Returned

/-- The changes of the entries with such a status, in order. -/
def changesWhere (p : Status → Bool) (entries : List Entry) : List Change :=
  entries.filterMap fun e => if p e.status = true then some (e.call, e.answer) else none

def Process.kept (p : Process) : List Change := changesWhere (fun s => s ≠ .lost) p.entries

/-- The changes that are in the file. -/
def Process.durable (p : Process) : List Change :=
  changesWhere (fun s => s ≠ .lost ∧ s ≠ .changed) p.entries

def Process.completed (p : Process) : List Change :=
  changesWhere (fun s => s = .completed) p.entries

def begins (changes : List Change) (instanceId : PyStr) : List ℤ :=
  changes.filterMap fun change =>
    match change.2 with
    | .begun _ lease => if lease.instanceId = instanceId then some lease.fence else none
    | _ => none

/-- The process generations in the records that were returned for an instance. -/
def generations (changes : List Change) (instanceId : PyStr) : List ℤ :=
  changes.filterMap fun change =>
    match change.2 with
    | .record record | .begun record _ =>
      if record.instanceId = instanceId then some record.processGeneration else none
    | .lease _ => none

/-- The last transition begun for the instance ended with a ready observation, under its fence, for
the profile. -/
def EndedReady (c : Contracts) (changes : List Change) (instanceId profileName fingerprint : PyStr) :
    Prop :=
  ∃ before lease profile observation now answer after,
    changes = before ++ (.publishObservation lease profile observation now, answer) :: after ∧
      lease.instanceId = instanceId ∧ (begins before instanceId).getLast? = some lease.fence ∧
      begins after instanceId = [] ∧ stateForObservation observation = .ready ∧
      (observation.get "profile_name").str? = some profileName ∧
      c.fingerprint profile = some fingerprint

def StateCall.presents : StateCall → Option (TransitionLease × ℚ)
  | renew lease _ now => some (lease, now)
  | failTransition lease _ now => some (lease, now)
  | publishObservation lease _ _ now => some (lease, now)
  | _ => none

/-- **Fence safety** of a process. -/
structure FenceSafe (c : Contracts) (p : Process) : Prop where
  fences : ∀ instanceId, (begins p.completed instanceId).Pairwise (· < ·)
  refused : ∀ call lease now, call.presents = some (lease, now) →
    ((∃ fence ∈ begins p.kept lease.instanceId, lease.fence < fence) ∨
      ∀ record, p.memory.get? lease.instanceId = some record →
        record.transitionExpiresAt ≤ now) →
    (∃ e, change c call p.memory = .error e) ∧ step c (.change call) p = some p
  generations : ∀ instanceId, (generations p.completed instanceId).Pairwise (· ≤ ·)
  admitted : ∀ instanceId profileName profile now,
    admissionErrors c instanceId profileName profile now p.memory = some [] →
      ∃ fingerprint, c.fingerprint profile = some fingerprint ∧
        EndedReady c p.kept instanceId profileName fingerprint

/-- The records that a call makes have an id that a file gives back. -/
def StateEvent.Storable : StateEvent → Prop
  | .change (.register instanceId _ _ _) => join instanceId = instanceId
  | .change (.beginTransition instanceId _ _ _ _ _ _) => join instanceId = instanceId
  | _ => True

instance (event : StateEvent) : Decidable event.Storable := by
  unfold StateEvent.Storable
  split <;> infer_instance

end GpuManager.Runtime
