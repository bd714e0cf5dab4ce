import KeyIntake.Tree.Json
/-!
# Health of the vault

## Main definitions

* `Health` — the result of a probe.
* `Health.json` — the result in JSON.
-/

set_option autoImplicit false

namespace KeyIntake

/-- The result of a probe: whether the vault answered, in how many milliseconds, and what went
wrong. -/
structure Health where
  accessible : Bool
  responseMillis : Option Nat
  error : Option String
  deriving DecidableEq, Repr

namespace Health

/-- The vault answered in time. -/
def healthy (ms : Nat) : Health := ⟨true, some ms, none⟩

/-- The vault could not be reached or refused to answer. -/
def unhealthy (error : String) : Health := ⟨false, none, some error⟩

/-- The vault answered and nothing went wrong. -/
def isHealthy (h : Health) : Bool := h.accessible && h.error.isNone

/-- The result in compact JSON, its fields in this order. -/
def json (h : Health) : String :=
  "\x7b\"accessible\":" ++ Json.write (.bool h.accessible) ++ ",\"response_time_ms\":" ++
    ((h.responseMillis.map Text.decimal).getD "null") ++ ",\"error\":" ++
    ((h.error.map Quoted.json).getD "null") ++ "\x7d"

end Health

end KeyIntake
