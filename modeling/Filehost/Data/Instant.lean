import Mathlib.Data.Rat.Defs
import Mathlib.Algebra.Order.Ring.Rat

namespace Filehost.Data

/-! Instants and durations are rational seconds. -/

/-- `Instant::duration_since` is zero for a later instant. -/
def durationSince (now earlier : ℚ) : ℚ := max (now - earlier) 0

end Filehost.Data
