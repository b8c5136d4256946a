import Culvert.Flash.Init
import Culvert.Soc.SfcFraming

namespace Culvert

/-- The size up to which three address bytes are enough. -/
def threeByteMax : Word := 0x1000000

theorem plain_or {val : Word} (plain : val &&& 7 = 0) : (val ||| 0x2000) &&& 7 = 0 := by
  rw [BitVec.and_comm, BitVec.and_or_distrib_left, BitVec.and_comm, plain]
  rfl

theorem plain_and_not {val : Word} (plain : val &&& 7 = 0) : val &&& ~~~0x2000 &&& 7 = 0 := by
  have apart : (~~~0x2000 &&& 7 : Word) = 7 := by decide
  rw [BitVec.and_assoc, apart, plain]

namespace SfcData

/-- Bit 13 of both control values, and the mode of the driver. -/
def with4b (ct : SfcData) (enable : Bool) : SfcData :=
  if enable then
    { ct with
      ctlVal := ct.ctlVal ||| 0x2000
      ctlReadVal := ct.ctlReadVal ||| 0x2000
      mode4b := true
      ctlPlain := plain_or ct.ctlPlain
      readPlain := plain_or ct.readPlain }
  else
    { ct with
      ctlVal := ct.ctlVal &&& ~~~0x2000
      ctlReadVal := ct.ctlReadVal &&& ~~~0x2000
      mode4b := false
      ctlPlain := plain_and_not ct.ctlPlain
      readPlain := plain_and_not ct.readPlain }

/-- As `sfc_driver_init` allocates it, with the fields of the type. -/
def zeroed (type : SfcType) : SfcData := ⟨type, 0, 0, 0, false, rfl, rfl⟩

/-- The control values of `sfc_init_device`: single bit, HCLK/8, normal reads. -/
def sanitized (type : SfcType) (mode4b : Bool) : SfcData := ⟨type, 0x400, 0x400, 0, mode4b, rfl, rfl⟩

end SfcData

/-- The driver's data and the controller that it drives. -/
structure SfcDev (χ : Type) where
  ct : SfcData
  bus : Faulty (SpiHost χ)

section
variable {χ α : Type}

/-- An operation of the driver that leaves its data as it is. -/
def onBus (m : SfcData → Prog (Faulty (SpiHost χ)) α) : Prog (SfcDev χ) α := fun s =>
  match m s.ct s.bus with
  | .ok a bus => .ok a { s with bus }
  | .error e bus => .error e { s with bus }

variable (spi : SpiChip χ)

def sfcRd (op : Byte) (addr : Option Word) (size : Nat) : Prog (SfcDev χ) (List Byte) := do
  match ← onBus fun ct => sfcCmdRd spi ct op addr (List.replicate size 0) size with
  | (buf, .ok ()) => pure buf
  | (_, .error e) => Prog.fail e

def sfcSwitch4b (enable : Bool) (ceCtrl : Word) : Prog (SfcDev χ) Unit := do
  modify fun s => { s with ct := s.ct.with4b enable }
  onBus fun ct => sfcWritel spi ct.type.ctlReg ct.ctlReadVal
  let ceCtrl := if enable then ceCtrl ||| 1 else ceCtrl &&& ~~~1
  let s ← get
  if ceCtrl ≠ 0 ∧ s.ct.type = .fmc then onBus fun _ => sfcWritel spi fmcCeCtrl ceCtrl else pure ()

def sfcSet4b (finfo : Option FlashInfo) (enable : Bool) : Prog (SfcDev χ) Unit := do
  let s ← get
  match s.ct.type, finfo with
  | .smc, _ => sfcSwitch4b spi enable 0
  | .fmc, none => throw .fault
  | .fmc, some info =>
    if info.size > threeByteMax then do
      let ceCtrl ← onBus fun _ => sfcReadl fmcCeCtrl
      sfcSwitch4b spi enable ceCtrl
    else if enable then Prog.fail eio
    else pure ()

/-- The operations of the driver. Its `setup` returns before it does anything. -/
def sfcOps : Sfc (SfcDev χ) where
  setup := some (pure ())
  set4b := some (sfcSet4b spi)
  chipId := none
  directRead := some fun pos len => onBus fun _ => sfcDirectRead spi pos len
  write := none
  erase := none
  rd := some (sfcRd spi)
  wr := some fun op addr buf => onBus fun ct => sfcCmdWr spi ct op addr buf
  finfo := none

/-- An error stands for the result `false`. -/
def sfcInitDevice : Prog (SfcDev χ) Unit := do
  let ctl ← onBus fun ct => sfcReadl ct.type.ctlReg
  if ctl = 0xffffffff then Prog.fail eio
  else do
    let ceType ← onBus fun ct => sfcReadl ct.type.typeReg
    onBus fun ct => sfcWritel spi ct.type.typeReg (ceType ||| (7 <<< 16))
    modify fun s => { s with ct := .sanitized s.ct.type s.ct.mode4b }
    onBus fun ct => sfcWritel spi ct.type.ctlReg ct.ctlReadVal
    onBus fun ct => sfcWritel spi ct.type.freadTimingReg ct.freadTimingVal
    modify fun s => { s with ct := { s.ct with mode4b := false } }

/-- The controller of the given type, initialised, and then the chip behind it. -/
def sfcFlashInit (fuel : Nat) : Prog (SfcDev χ) (FlashChip (SfcDev χ)) := do
  sfcInitDevice spi
  flashInit fuel (sfcOps spi)

end

end Culvert
