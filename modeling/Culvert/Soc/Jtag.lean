import Culvert.Lib.Bitbang
import Culvert.Soc.Lifecycle

namespace Culvert
open Bitbang

def jtagSwModeTck : Word := 1 <<< 18
def jtagSwModeTms : Word := 1 <<< 17
def jtagSwModeTdio : Word := 1 <<< 16
section
variable {σ : Type} (bus : Bus σ) (start : Word)

def jtagReadl (reg : Word) : Prog (Faulty σ) Word := socReadl bus (start + reg)

def jtagWritel (reg val : Word) : Prog (Faulty σ) Unit := socWritel bus (start + reg) val

/-- What `jtag_bitbang_set` writes. -/
def jtagPins (tck tms tdi : Bool) : Word :=
  Soc.jtagSwModeEn ||| (if tck then jtagSwModeTck else 0) ||| (if tms then jtagSwModeTms else 0) |||
    (if tdi then jtagSwModeTdio else 0)

def jtagBitbangSet (tck tms tdi : Byte) : Prog (Faulty σ) Unit :=
  jtagWritel bus start Soc.jtagSwMode (jtagPins (tck ≠ 0) (tms ≠ 0) (tdi ≠ 0))

def jtagBitbangGet : Prog (Faulty σ) Byte := do
  let reg ← jtagReadl bus start Soc.jtagSwMode
  return if reg &&& jtagSwModeTdio ≠ 0 then 1 else 0

end

end Culvert
