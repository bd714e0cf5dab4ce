import KeyIntake.Log
import KeyIntake.Tree
/-!
# Dialogues with the vault

Everything that is said to the vault is a dialogue: requests whose replies decide how it goes on,
with log records in between. A network answers requests, and under a network a dialogue has an
answer, a list of requests and a log.

## Main definitions

* `Request`, `Reply`, `Network` — what is sent, what comes back, and from where.
* `Dialogue` — a program that asks and takes note.
* `Dialogue.answer`, `Dialogue.requests`, `Dialogue.records` — the three views of a dialogue under a
  network.

## Main results

* `Dialogue.answer_bind`, `Dialogue.requests_bind`, `Dialogue.records_bind` — the views of two
  dialogues one after the other.

## Design

A network is a function, so equal requests get equal replies and exchanges take no time. The body
of a reply is given as the tree that its text denotes, if it denotes one.
-/

set_option autoImplicit false

namespace KeyIntake

/-! ### Requests and replies -/

/-- The methods of requests. -/
inductive Method where
  | get
  | list
  | post
  deriving DecidableEq, Repr

/-- The word for a method. -/
def Method.word : Method → String
  | get => "GET"
  | list => "LIST"
  | post => "POST"

/-- A request: where it goes, who asks, and what is sent along. -/
structure Request where
  method : Method
  url : String
  /-- The token of the login; the login itself has none. -/
  token : Option String := none
  body : Option Tree := none
  deriving Repr

/-- What comes of a request. -/
inductive Reply where
  /-- The vault could not be reached. -/
  | unreachable
  /-- The request arrived, but the connection was closed instead of a reply. -/
  | dropped
  /-- A reply with a status and the tree that its body denotes, if it denotes one. -/
  | answered (status : Nat) (body : Option Tree)
  deriving Repr

/-- A network that answers requests. -/
abbrev Network := Request → Reply

namespace Network

/-- The network on which nothing can be reached. -/
def unreachable : Network := fun _ => .unreachable

/-- A request arrives, whatever comes back. -/
def reaches (n : Network) (r : Request) : Bool :=
  match n r with
  | .unreachable => false
  | _ => true

end Network

/-! ### Dialogues -/

/-- A program that sends requests and takes note of what happens. -/
inductive Dialogue (α : Type) where
  /-- The end, with an answer. -/
  | done (a : α)
  /-- Send a request and go on with its reply. -/
  | ask (request : Request) (next : Reply → Dialogue α)
  /-- Write a log record and go on. -/
  | note (record : LogRecord) (next : Dialogue α)

namespace Dialogue

variable {α β : Type}

/-- One dialogue after another. -/
def bind (d : Dialogue α) (next : α → Dialogue β) : Dialogue β :=
  match d with
  | done a => next a
  | ask request following => ask request fun reply => bind (following reply) next
  | note record rest => note record (bind rest next)

instance : Monad Dialogue where
  pure := done
  bind := bind

/-- Send a request. -/
def send (request : Request) : Dialogue Reply := ask request done

/-- Write a log record. -/
def log (record : LogRecord) : Dialogue Unit := note record (done ())

/-- The answer of a dialogue under a network. -/
def answer (n : Network) : Dialogue α → α
  | done a => a
  | ask request next => answer n (next (n request))
  | note _ rest => answer n rest

/-- The requests that a dialogue sends under a network, in order. -/
def requests (n : Network) : Dialogue α → List Request
  | done _ => []
  | ask request next => request :: requests n (next (n request))
  | note _ rest => requests n rest

/-- The log of a dialogue under a network, in order. -/
def records (n : Network) : Dialogue α → List LogRecord
  | done _ => []
  | ask request next => records n (next (n request))
  | note record rest => record :: records n rest

/-! ### The views of dialogues one after the other -/

@[simp] theorem bind_eq (d : Dialogue α) (next : α → Dialogue β) : d >>= next = d.bind next := rfl

@[simp] theorem pure_eq (a : α) : (pure a : Dialogue α) = done a := rfl

@[simp] theorem answer_bind (n : Network) (d : Dialogue α) (next : α → Dialogue β) :
    (d.bind next).answer n = (next (d.answer n)).answer n := by
  induction d with
  | done a => rfl
  | ask request next ih => exact ih (n request)
  | note record rest ih => exact ih

@[simp] theorem requests_bind (n : Network) (d : Dialogue α) (next : α → Dialogue β) :
    (d.bind next).requests n = d.requests n ++ (next (d.answer n)).requests n := by
  induction d with
  | done a => rfl
  | ask request next ih => exact congrArg (request :: ·) (ih (n request))
  | note record rest ih => exact ih

@[simp] theorem records_bind (n : Network) (d : Dialogue α) (next : α → Dialogue β) :
    (d.bind next).records n = d.records n ++ (next (d.answer n)).records n := by
  induction d with
  | done a => rfl
  | ask request next ih => exact ih (n request)
  | note record rest ih => exact congrArg (record :: ·) ih

end Dialogue

end KeyIntake
