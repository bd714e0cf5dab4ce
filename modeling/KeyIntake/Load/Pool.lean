import KeyIntake.Load.Agenda
import KeyIntake.Load.Event
/-!
# The worker pool

A pool carries out an agenda in virtual time: only the delays of pages and fetches advance the
clock. A started job stays in the pool until it is collected. Before a job is started while as many
jobs are in the pool as there are workers, one job is collected; when the agenda is done, all of
them are. Collecting takes the job that ends first, of those that end at the same instant the one
that was started first, and waits for its end if that is yet to come. Jobs go on while a page is
awaited.

The jobs in the pool that will end are queued in the order in which they will be collected, so
collecting takes the head of the queue. Jobs that never end are only counted: they are never
collected.

## Main definitions

* `Running` — a started job that will end.
* `Pool` — clock, queue, jobs that never end, history.
* `Pool.run` — carry out an agenda, to the end or to the point where the pool waits forever.
-/

set_option autoImplicit false

namespace KeyIntake

/-- A started job that will end: its number in starting order, the instant at which it ends and what
it yields. -/
structure Running (α : Type) where
  index : Nat
  name : String
  finish : Nat
  outcome : Except Fault (List α)

/-- The start of a job: its item and the instant. -/
structure Start where
  item : Item
  instant : Nat
  deriving DecidableEq

namespace Running

variable {α : Type}

/-- Queue a job behind all jobs that end no later. The job is the latest one started, so among jobs
that end together the queue keeps the order in which they were started. -/
def enqueue (u : Running α) : List (Running α) → List (Running α)
  | [] => [u]
  | v :: queue => if u.finish < v.finish then u :: v :: queue else v :: enqueue u queue

/-- What happened when a job has been collected. -/
def event (u : Running α) : Event α :=
  match u.outcome with
  | .ok values => .loaded u.name values
  | .error fault => .lost u.name fault

end Running

/-- A pool of workers in virtual time, with its history. -/
structure Pool (α : Type) where
  /-- The present instant, in milliseconds. -/
  clock : Nat := 0
  /-- The started jobs that will end and were not collected, in the order of collection. -/
  queue : List (Running α) := []
  /-- The number of started jobs that never end. -/
  stuck : Nat := 0
  /-- The starts so far, in order. -/
  starts : List Start := []
  /-- The largest number of fetches that went on at the same time, so far. -/
  peak : Nat := 0
  /-- What happened so far, in order. -/
  trace : List (Event α) := []

/-- Where an agenda leads: the pool in the end, and whether the end is reached or waited for
forever. -/
structure Outcome (α : Type) where
  pool : Pool α
  returned : Bool

namespace Pool

variable {α : Type}

/-- The number of jobs started and not collected. -/
def inFlight (p : Pool α) : Nat := p.queue.length + p.stuck

/-- The number of fetches that go on at the present instant. A fetch that ends at this instant has
ended. -/
def fetching (p : Pool α) : Nat := p.queue.countP (fun u => p.clock < u.finish) + p.stuck

/-- Note an event. -/
def note (p : Pool α) (e : Event α) : Pool α := { p with trace := p.trace ++ [e] }

/-- Let time pass. -/
def wait (p : Pool α) (delay : Nat) : Pool α := { p with clock := p.clock + delay }

/-- Collect a job, the rest of the queue being given: wait for its end and note what it yielded. -/
def collect (p : Pool α) (u : Running α) (rest : List (Running α)) : Pool α :=
  { p with clock := max p.clock u.finish, queue := rest, trace := p.trace ++ [u.event] }

/-- Start a job at the present instant. -/
def launch (p : Pool α) (job : Job α) : Pool α :=
  let q := { p with
    starts := p.starts ++ [Start.mk job.item p.clock]
    peak := max p.peak (p.fetching + 1) }
  match job.course with
  | none => { q with stuck := p.stuck + 1 }
  | some (duration, outcome) =>
    let u : Running α := ⟨p.starts.length, job.item.name, p.clock + duration, outcome⟩
    { q with queue := u.enqueue p.queue }

/-- Collect the jobs of a queue one after the other. -/
def drainFrom (p : Pool α) : List (Running α) → Pool α
  | [] => p
  | u :: rest => drainFrom (p.collect u rest) rest

/-- Collect all jobs. The end is reached if none of the jobs goes on forever. -/
def drain (p : Pool α) : Outcome α := ⟨p.drainFrom p.queue, p.stuck == 0⟩

/-- Carry out an agenda with a number of workers, then collect all jobs. A job that finds all
workers taken by jobs that never end is waited for forever. -/
def run (workers : Nat) (p : Pool α) : List (Step α) → Outcome α
  | [] => p.drain
  | .await delay :: steps => run workers (p.wait delay) steps
  | .reject name fault :: steps => run workers (p.note (.unreadable name fault)) steps
  | .close page listed selected :: steps =>
    run workers (p.note (.pageDone page listed selected)) steps
  | .abandon page fault :: steps => run workers (p.note (.pageLost page fault)) steps
  | .start job :: steps =>
    if p.inFlight < workers then run workers (p.launch job) steps
    else
      match p.queue with
      | [] => ⟨p, false⟩
      | u :: rest => run workers ((p.collect u rest).launch job) steps

end Pool

end KeyIntake
