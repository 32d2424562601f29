/-
  ShiftReduce.Search.Options
  ────────────────────────────────
  **OPTIONS OF A SEARCH.**
-/
import ShiftReduce.Text.Json

namespace ShiftReduce

/-- Options of a search; by default every branch runs to its end and every
result is reported. -/
structure SearchOptions where
  /-- Skip accepted results whose forest has been reported already. -/
  deduplicate : Bool := false
  /-- End a branch once it has made that many moves. -/
  maxSteps : Option Nat := none
  deriving DecidableEq

namespace SearchOptions

/-- Options as an object with both fields. -/
def toJson (options : SearchOptions) : Json :=
  .object [("deduplicate", .bool options.deduplicate),
    ("max_steps", .ofOption .nat options.maxSteps)]

end SearchOptions

end ShiftReduce
