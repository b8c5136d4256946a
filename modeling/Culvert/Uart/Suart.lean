import Culvert.Ahb
import Culvert.Sio

namespace Culvert

def uartThr : Nat := 0
def uartRbr : Nat := 0
def uartDll : Nat := 0
def uartIer : Nat := 1
def uartDlh : Nat := 1
def uartFcr : Nat := 2
def uartLcr : Nat := 3
def uartMcr : Nat := 4
def uartLsr : Nat := 5

/-- `struct suart`. Its `dev` may be any `int` the enumeration can hold. -/
structure Suart where
  dev : Word
  sirq : Byte
  base : BitVec 16
  baud : BitVec 16
  deriving DecidableEq, Repr

def SioDev.isSuart : SioDev → Bool
  | .suart1 | .suart2 | .suart3 | .suart4 => true
  | _ => false

/-- `UART_DEFAULT_BAUD`. -/
def uartDefaultBaud : Nat := 115200

def baudToDivisor (baud : Nat) : BitVec 16 := BitVec.ofNat 16 (24000000 / 13 / (16 * baud))

section
variable {σ : Type} (space : LpcSpace σ)

/-- The device is selected, its ports and interrupt are read (`defaults`) or set, and it is enabled. -/
def suartSetup (sio : Sio σ) (ctx : Suart) (dev : SioDev) (settings : Option (BitVec 16 × Word)) : Prog σ Suart := do
  sioSelect sio dev
  let ctx ← match settings with
    | none => do
      let hi ← sioReadb sio 0x60
      let lo ← sioReadb sio 0x61
      let sirq ← sioReadb sio 0x70
      pure { ctx with base := hi ++ lo, sirq }
    | some (base, sirq) => do
      sioWriteb sio 0x60 (base.extractLsb' 8 8)
      sioWriteb sio 0x61 (base.setWidth 8)
      sioWriteb sio 0x70 (sirq.byte 0)
      pure { ctx with base, sirq := sirq.byte 0 }
  sioWriteb sio 0x30 1
  return ctx

/-- Polled, 115200 8N1: IER, MCR, LCR with DLAB, the divisor, LCR without. -/
def suartConfigure (io : Lpc σ) (ctx : Suart) : Prog σ Unit := do
  let divisor := baudToDivisor uartDefaultBaud
  io.writeb (ctx.base.toNat + uartIer) 0
  io.writeb (ctx.base.toNat + uartMcr) 0x0b
  io.writeb (ctx.base.toNat + uartLcr) 0x93
  io.writeb (ctx.base.toNat + uartDlh) (divisor.extractLsb' 8 8)
  io.writeb (ctx.base.toNat + uartDll) (divisor.setWidth 8)
  io.writeb (ctx.base.toNat + uartLcr) 0x13

/-- `__suart_init`: without `settings` those of the hardware are kept. -/
def suartInit (ctx : Suart) (dev : SioDev) (settings : Option (BitVec 16 × Word)) : Prog σ Suart := do
  if ¬ dev.isSuart then Prog.fail einval
  let sio ← sioInit space
  sioUnlock sio
  match ← Prog.attempt (suartSetup sio ctx dev settings) with
  | .error e => do
    let _ ← Prog.attempt (sioLock sio)
    let _ ← Prog.attempt (sioDestroy space)
    Prog.fail e
  | .ok ctx => do
    let _ ← Prog.attempt (sioLock sio)
    sioDestroy space
    space.init
    match ← Prog.attempt (suartConfigure space.io ctx) with
    | .error e => do
      let _ ← Prog.attempt space.destroy
      Prog.fail e
    | .ok () => do
      space.io.writeb (ctx.base.toNat + uartFcr) 0x07
      return ctx

def suartDestroy (ctx : Suart) : Prog σ Unit := do
  let sio ← sioInit space
  sioUnlock sio
  Prog.ensuring (do
    sioWriteb sio 0x07 (ctx.dev.byte 0)
    sioWriteb sio 0x30 0) (do
    let _ ← Prog.attempt (sioLock sio)
    sioDestroy space)

end

def lsrError : Byte := 0x80
def lsrThre : Byte := 0x20
def lsrDr : Byte := 0x01

section
variable {σ : Type} (io : Lpc σ) (ctx : Suart)

/-- `while (len && slots)`: the number of bytes left. -/
def suartPush : Nat → List Byte → Prog σ Nat
  | 0, buf => return buf.length
  | _, [] => return 0
  | slots + 1, b :: rest => do
    io.writeb (ctx.base.toNat + uartThr) b
    suartPush slots rest

/-- The number of bytes left to write, all of them where the UART has something to read first. -/
def suartWrite (buf : List Byte) : Prog σ Nat := do
  if buf = [] then return 0
  let lsr ← io.readb (ctx.base.toNat + uartLsr)
  if lsr &&& lsrError ≠ 0 then Prog.fail eio
  if lsr &&& lsrDr ≠ 0 then return buf.length
  if lsr &&& lsrThre = 0 then return buf.length
  suartPush io ctx 16 buf

/-- `!(rc = lpc_readb(..., UART_LSR, ...)) && (lsr & UART_LSR_DR)`. -/
def suartReady : Prog σ (Except Errno Bool) :=
  Prog.attempt do
    let lsr ← io.readb (ctx.base.toNat + uartLsr)
    return decide (lsr &&& lsrDr ≠ 0)

/-- The inner loop of `suart_read` with room for so many bytes: what it read, and the error of the LSR access that
ended it. -/
def suartBurst : Nat → Prog σ (List Byte × Option Errno)
  | 0 => do
    match ← suartReady io ctx with
    | .error e => return ([], some e)
    | .ok _ => return ([], none)
  | room + 1 => do
    match ← suartReady io ctx with
    | .error e => return ([], some e)
    | .ok false => return ([], none)
    | .ok true => do
      let b ← io.readb (ctx.base.toNat + uartRbr)
      let (rest, rc) ← suartBurst room
      return (b :: rest, rc)

/-- `do ... while (--retry)`: a burst, and `retry` more. -/
def suartBursts : Nat → Nat → Prog σ (List Byte × Option Errno)
  | 0, room => suartBurst io ctx room
  | retry + 1, room => do
    let (bs, _) ← suartBurst io ctx room
    let (rest, rc) ← suartBursts retry (room - bs.length)
    return (bs ++ rest, rc)

def suartRead (len : Nat) : Prog σ (List Byte) := do
  let lsr ← io.readb (ctx.base.toNat + uartLsr)
  if lsr &&& lsrError ≠ 0 then Prog.fail eio
  if lsr &&& lsrDr = 0 then return []
  match ← suartBursts io ctx 99 len with
  | (_, some e) => Prog.fail e
  | (bs, none) => return bs

/-- The receive FIFO is reset before each write. -/
def suartFlushTurn (buf : List Byte) (remaining : Nat) : Prog σ (Nat ⊕ Unit) := do
  if remaining = 0 then return .inr ()
  io.writeb (ctx.base.toNat + uartFcr) 0x03
  let remaining ← suartWrite io ctx (buf.drop (buf.length - remaining))
  return .inl remaining

def suartFlush (fuel : Nat) (buf : List Byte) : Prog σ Unit :=
  Prog.loop (suartFlushTurn io ctx buf) fuel buf.length

end

end Culvert
