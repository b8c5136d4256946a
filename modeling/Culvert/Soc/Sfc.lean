import Culvert.Flash.Chip
import Culvert.Hw.Spi
import Culvert.Lib.Bits

namespace Culvert

/-- The two kinds of controller. -/
inductive SfcType where
  | fmc
  | smc
  deriving DecidableEq, Repr

def fmcCeType : Word := 0x00
def fmcCeCtrl : Word := 0x04
def fmcCe0Ctrl : Word := 0x10
def fmcTiming : Word := 0x94
def smcCe0Ctrl : Word := 0x10
def smcTiming : Word := 0x94

namespace SfcType

/-- `type_reg`, `ctl_reg` and `fread_timing_reg` of `struct sfc_data`, as `sfc_driver_init` sets them. -/
def typeReg : SfcType → Word
  | fmc | smc => fmcCeType

def ctlReg : SfcType → Word
  | fmc => fmcCe0Ctrl
  | smc => smcCe0Ctrl

def freadTimingReg : SfcType → Word
  | fmc => fmcTiming
  | smc => smcTiming

@[simp] theorem ctlReg_eq (type : SfcType) : type.ctlReg = ceCtrl := by
  cases type
  · rfl
  · rfl

end SfcType

/-- The part of `struct sfc_data` that changes. The user mode bits of both control values are clear. -/
structure SfcData where
  type : SfcType
  ctlVal : Word
  ctlReadVal : Word
  freadTimingVal : Word
  mode4b : Bool
  ctlPlain : ctlVal &&& 7 = 0
  readPlain : ctlReadVal &&& 7 = 0

namespace SfcData
variable (ct : SfcData)

theorem ctl_seven : (ct.ctlVal ||| 7) &&& 7 = 7 := BitVec.or_and_self_right ct.ctlVal 7

theorem ctl_three : (ct.ctlVal ||| 3) &&& 7 = 3 := by
  rw [BitVec.and_comm, BitVec.and_or_distrib_left, BitVec.and_comm, ct.ctlPlain]
  rfl

end SfcData

section
variable {χ : Type} (spi : SpiChip χ)

def sfcReadl (off : Word) : Prog (Faulty (SpiHost χ)) Word := Faulty.access (SpiHost.readl off)

def sfcWritel (off val : Word) : Prog (Faulty (SpiHost χ)) Unit :=
  Faulty.access fun h => ((), SpiHost.writel spi off val h)

def windowWrites : List Byte → Prog (Faulty (SpiHost χ)) Unit
  | [] => pure ()
  | b :: bs => do
    Faulty.access fun h => ((), SpiHost.windowWrite spi b h)
    windowWrites bs

/-- `flash_write` of the driver. -/
def sfcFlashWrite (buf : List Byte) : Prog (Faulty (SpiHost χ)) Unit := orMinusOne (windowWrites spi buf)

/-- `flash_read` of the driver. -/
def sfcFlashRead (off : Word) (len : Nat) : Prog (Faulty (SpiHost χ)) (List Byte) :=
  orMinusOne (Faulty.access (SpiHost.windowRead spi off.toNat len))

variable (ct : SfcData)

def sfcStartCmd (cmd : Byte) : Prog (Faulty (SpiHost χ)) Unit := do
  sfcWritel spi ct.type.ctlReg (ct.ctlVal ||| 7)
  sfcWritel spi ct.type.ctlReg (ct.ctlVal ||| 3)
  sfcFlashWrite spi [cmd]

/-- Its errors are only logged. -/
def sfcEndCmd : Prog (Faulty (SpiHost χ)) Unit := do
  sfcWritel spi ct.type.ctlReg (ct.ctlVal ||| 7)
  sfcWritel spi ct.type.ctlReg ct.ctlReadVal

def sfcSendAddr (addr : Word) : Prog (Faulty (SpiHost χ)) Unit :=
  let ap := addr.bytes.reverse
  if ct.mode4b then sfcFlashWrite spi ap else sfcFlashWrite spi (ap.drop 1)

/-- What both commands begin with. -/
def sfcOpenCmd (cmd : Byte) (addr : Option Word) : Prog (Faulty (SpiHost χ)) Unit := do
  sfcStartCmd spi ct cmd
  match addr with
  | some addr => sfcSendAddr spi ct addr
  | none => pure ()

end

/-- `if (size) { buf[i++] = b; size--; }` -/
def sfcStore (b : Byte) : List Byte × Nat × Nat → List Byte × Nat × Nat
  | (buf, i, 0) => (buf, i, 0)
  | (buf, i, size + 1) => (buf.set i b, i + 1, size)

def sfcUnpack (val : Word) (cursor : List Byte × Nat × Nat) : List Byte × Nat × Nat :=
  sfcStore (val.byte 3) (sfcStore (val.byte 2) (sfcStore (val.byte 1) (sfcStore (val.byte 0) cursor)))

theorem sfcStore_size (b : Byte) (buf : List Byte) (i size : Nat) : (sfcStore b (buf, i, size)).2.2 = size - 1 := by
  cases size with
  | zero => rfl
  | succ size => rfl

theorem sfcUnpack_size (val : Word) (buf : List Byte) (i size : Nat) :
    (sfcUnpack val (buf, i, size)).2.2 = size - 4 := by
  have step (b : Byte) (s : List Byte × Nat × Nat) : (sfcStore b s).2.2 = s.2.2 - 1 := sfcStore_size b s.1 s.2.1 s.2.2
  rw [sfcUnpack, step, step, step, step, Nat.sub_sub, Nat.sub_sub, Nat.sub_sub]

section
variable {χ : Type} (spi : SpiChip χ)

/-- The loop of `sfc_cmd_rd`, with the buffer that it leaves and its return code. -/
def sfcReadData (buf : List Byte) (i size : Nat) : Prog (Faulty (SpiHost χ)) (List Byte × Except Errno Unit) :=
  if _done : size = 0 then pure (buf, .ok ())
  else do
    match ← Prog.attempt (Faulty.access (SpiHost.windowReadl spi)) with
    | .error e => pure (buf, .error e)
    | .ok val =>
      let next := sfcUnpack val (buf, i, size)
      sfcReadData next.1 next.2.1 next.2.2
termination_by size
decreasing_by
  rw [sfcUnpack_size]
  omega

variable (ct : SfcData)

/-- What is left in the buffer, and the return code. -/
def sfcCmdRd (cmd : Byte) (addr : Option Word) (buf : List Byte) (size : Nat) :
    Prog (Faulty (SpiHost χ)) (List Byte × Except Errno Unit) := do
  let got ← match ← Prog.attempt (sfcOpenCmd spi ct cmd addr) with
    | .error e => pure (buf, .error e)
    | .ok () => sfcReadData spi buf 0 size
  let _ ← Prog.attempt (sfcEndCmd spi ct)
  return got

def sfcCmdWr (cmd : Byte) (addr : Option Word) (buf : List Byte) : Prog (Faulty (SpiHost χ)) Unit :=
  Prog.ensuring
    (do
      sfcOpenCmd spi ct cmd addr
      if buf ≠ [] then sfcFlashWrite spi buf else pure ())
    (sfcEndCmd spi ct)

def sfcDirectRead (pos : Word) (len : Nat) : Prog (Faulty (SpiHost χ)) (List Byte) := sfcFlashRead spi pos len

end

end Culvert
