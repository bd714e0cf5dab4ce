import KeyIntake.Word
/-!
# Limits of a load

How many items are worked on at the same time, and how long the fetch of one item may take.

## Main definitions

* `Span` — an exact length of time.
* `Limits` — concurrency and fetch timeout.
* `Limits.workers` — the number of workers, at least one.
-/

set_option autoImplicit false

namespace KeyIntake

/-- An exact length of time. -/
structure Span where
  nanoseconds : Nat
  deriving DecidableEq, Repr

namespace Span

/-- A length of time in seconds and further nanoseconds. -/
def ofParts (seconds nanos : Nat) : Span := ⟨seconds * 1000000000 + nanos⟩

/-- A whole number of milliseconds. -/
def ofMillis (ms : Nat) : Span := ⟨ms * 1000000⟩

/-- The whole milliseconds in a length of time. -/
def millis (d : Span) : Nat := d.nanoseconds / 1000000

/-- The whole seconds in a length of time. -/
def seconds (d : Span) : Nat := d.nanoseconds / 1000000000

/-- The nanoseconds beyond the whole seconds. -/
def nanos (d : Span) : Nat := d.nanoseconds % 1000000000

end Span

/-- The limits of a load. The timeout is in milliseconds; without one a fetch may take forever. -/
structure Limits where
  concurrency : Nat := 8
  timeoutMillis : Option Nat := none
  deriving DecidableEq, Repr

namespace Limits

/-- The limits with another concurrency. -/
def withConcurrency (l : Limits) (n : Nat) : Limits := { l with concurrency := n }

/-- The limits with a fetch timeout, which is stored in whole milliseconds up to the largest
word. -/
def withTimeout (l : Limits) (d : Span) : Limits :=
  { l with timeoutMillis := some (Word.clamp d.millis) }

/-- The fetch timeout as a length of time. -/
def timeout (l : Limits) : Option Span := l.timeoutMillis.map Span.ofMillis

/-- The number of workers: the concurrency, but at least one. -/
def workers (l : Limits) : Nat := max 1 l.concurrency

/-- There is always a worker. -/
theorem workers_pos (l : Limits) : 0 < l.workers := by
  simp only [workers]
  omega

end Limits

end KeyIntake
