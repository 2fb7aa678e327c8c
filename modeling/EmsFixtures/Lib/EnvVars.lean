import Mathlib.Init

/-!
# Numbers from the environment

`env_f64`, which every configurable fixture has its copy of: a variable that is not set takes its default, one that is
set must parse.  Nothing is asked of the number.
-/

namespace EmsFixtures

/-- `std::env::var`; `none` also for a value that is not Unicode. -/
abbrev EnvVars := String → Option String

/-- "{name} is not a number: {raw}". -/
structure NotANumber where
  name : String
  raw : String
  deriving DecidableEq, Repr

variable {F : Type} (parse : String → Option F) (env : EnvVars)

/-- Parse an optional f64 env var, falling back to `default` when unset. -/
def envF64 (name : String) (default : F) : Except NotANumber F :=
  match env name with
  | some raw => match parse raw with
    | some x => .ok x
    | none => .error { name, raw }
  | none => .ok default

variable {parse env}

theorem envF64_eq_ok_iff {name : String} {default x : F} : envF64 parse env name default = .ok x ↔
    (env name = none ∧ default = x) ∨ ∃ raw, env name = some raw ∧ parse raw = some x := by
  unfold envF64
  cases env name with
  | none => simp
  | some raw => cases hp : parse raw <;> simp [hp]

end EmsFixtures
