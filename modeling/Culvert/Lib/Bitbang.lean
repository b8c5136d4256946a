import Mathlib

/-! Bit-banging: a device whose inputs are set, and whose output is read, one command at a time. -/

namespace Bitbang

/-- A device with three inputs and an output. -/
structure Pins (π : Type) where
  drive (tck tms tdi : Bool) : π → π
  tdo : π → Bool

/-- A command of the protocol: drive the pins, or sample TDO. Any other is passed over. -/
inductive Command where
  | drive (tck tms tdi : Bool)
  | sample
  | other
  deriving DecidableEq, Repr

section
variable {π : Type} (pins : Pins π)

/-- What is read, in order, and what becomes of the device. -/
def play : List Command → π → List Bool × π
  | [], p => ([], p)
  | .drive tck tms tdi :: rest, p => play rest (pins.drive tck tms tdi p)
  | .sample :: rest, p => (pins.tdo p :: (play rest p).1, (play rest p).2)
  | .other :: rest, p => play rest p

theorem play_append (first rest : List Command) (p : π) : play pins (first ++ rest) p =
    ((play pins first p).1 ++ (play pins rest (play pins first p).2).1, (play pins rest (play pins first p).2).2) := by
  induction first generalizing p with
  | nil => rfl
  | cons command first ih =>
    cases command with
    | drive tck tms tdi => exact ih (pins.drive tck tms tdi p)
    | sample =>
      rw [List.cons_append, play, play, ih p]
      rfl
    | other => exact ih p

end

end Bitbang
