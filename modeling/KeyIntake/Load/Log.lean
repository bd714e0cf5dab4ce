import KeyIntake.Item
import KeyIntake.Load.Event
import KeyIntake.Log
/-!
# The log of a load

Each event of a load is logged by one record. Faults are logged as warnings, failed listings as
errors.

## Main definitions

* `Event.record` — the record of an event.
-/

set_option autoImplicit false

namespace KeyIntake

namespace Event

variable {α : Type}

/-- Where records about a whole load come from. -/
def loaderTarget : String := "keyloader_bulk::loader"

/-- Where records about a single item come from. -/
def unitTarget : String := "keyloader_bulk::unit"

/-- The log record of an event in a load of items of a kind. -/
def record (kind : ItemKind) : Event α → LogRecord
  | unlisted fault =>
    { level := .error, target := loaderTarget
      message := "Failed to list vault items, aborting load"
      fields := [("kind", .text kind.label), ("error", .text fault.message)] }
  | pageLost page fault =>
    { level := .error, target := loaderTarget
      message := "Vault listing failed mid-traversal, stopping"
      fields := [("kind", .text kind.label), ("page", .number page),
        ("error", .text fault.message)] }
  | unreadable name fault =>
    { level := .warn, target := loaderTarget
      message := "Vault item metadata unreadable, counting as failed"
      fields := [("kind", .text kind.label), ("item", .text name),
        ("error", .text fault.message)] }
  | pageDone page listed selected =>
    { level := .debug, target := loaderTarget
      message := "Dispatched vault page"
      fields := [("kind", .text kind.label), ("page", .number page), ("listed", .number listed),
        ("selected", .number selected)] }
  | loaded name values =>
    { level := .debug, target := unitTarget
      message := "Vault item loaded"
      fields := [("item", .text name), ("produced", .number values.length)] }
  | lost name fault =>
    { level := .warn, target := unitTarget
      message := "Failed to load vault item"
      fields := [("item", .text name), ("kind", .word fault.kind.label),
        ("error", .text fault.message)] }
  | finished pages kept failed =>
    { level := .info, target := loaderTarget
      message := "Vault bulk load finished"
      fields := [("kind", .text kind.label), ("pages", .number pages), ("loaded", .number kept),
        ("failed", .number failed)] }

end Event

end KeyIntake
