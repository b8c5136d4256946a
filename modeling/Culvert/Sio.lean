import Culvert.Lib.ByteMem
import Culvert.Lib.Prog

namespace Culvert

/-- The port accesses of `struct lpc`. -/
structure Lpc (σ : Type) where
  readb : Nat → Prog σ Byte
  writeb : Nat → Byte → Prog σ Unit

/-- The "io" space: `lpc_init` and `lpc_destroy`, and the accesses between the two. -/
structure LpcSpace (σ : Type) where
  io : Lpc σ
  init : Prog σ Unit
  destroy : Prog σ Unit

/-- `enum sio_dev` -/
inductive SioDev where
  | suart1 | suart2 | wakeup | gpio | suart3 | suart4 | ilpc | mbox
  deriving DecidableEq, Repr

def SioDev.code : SioDev → Byte
  | .suart1 => 0x02
  | .suart2 => 0x03
  | .wakeup => 0x04
  | .gpio => 0x07
  | .suart3 => 0x0b
  | .suart4 => 0x0c
  | .ilpc => 0x0d
  | .mbox => 0x0e

/-- `struct sio`: the port space and the address port `SIO_ADDR`; the data port follows it. -/
structure Sio (σ : Type) where
  io : Lpc σ
  base : Nat

/-- `sio_init`: the first of the two ports a SuperIO may be found at. -/
def sioInit {σ : Type} (space : LpcSpace σ) : Prog σ (Sio σ) := do
  space.init
  return ⟨space.io, 0x2e⟩

def sioDestroy {σ : Type} (space : LpcSpace σ) : Prog σ Unit := space.destroy

section
variable {σ : Type} (ctx : Sio σ)

def sioLock : Prog σ Unit := ctx.io.writeb ctx.base 0xaa

def sioUnlock : Prog σ Unit := Prog.all [ctx.io.writeb ctx.base 0xa5, ctx.io.writeb ctx.base 0xa5]

def sioReadb (addr : Byte) : Prog σ Byte := do
  ctx.io.writeb ctx.base addr
  ctx.io.readb (ctx.base + 1)

def sioWriteb (addr val : Byte) : Prog σ Unit := do
  ctx.io.writeb ctx.base addr
  ctx.io.writeb (ctx.base + 1) val

def sioSelect (dev : SioDev) : Prog σ Unit := sioWriteb ctx 0x07 dev.code

/-- Two devices are selected, and each must read back. -/
def sioPresent : Prog σ Bool :=
  Prog.ensuring (do
    sioUnlock ctx
    sioSelect ctx .suart1
    let dev ← sioReadb ctx 0x07
    if dev ≠ SioDev.suart1.code then
      return false
    else
      sioSelect ctx .suart4
      let dev ← sioReadb ctx 0x07
      return dev = SioDev.suart4.code) (sioLock ctx)

/-- The `found` of `sio_probe`, which an error code makes true as well. -/
def sioFound : Prog σ Bool := do
  match ← Prog.attempt (sioPresent ctx) with
  | .ok present => return present
  | .error _ => return true

end

/-- Whether there is a SuperIO, and the address port it was last looked for at. -/
def sioProbe {σ : Type} (io : Lpc σ) : Prog σ (Bool × Nat) := do
  if ← sioFound ⟨io, 0x2e⟩ then
    return (true, 0x2e)
  else
    return (← sioFound ⟨io, 0x4e⟩, 0x4e)

end Culvert
