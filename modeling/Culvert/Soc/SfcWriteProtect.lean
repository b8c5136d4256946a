import Culvert.Lib.Bits
import Culvert.Lib.Run
import Culvert.Soc.SfcInit

/-! What `sfc_write_protect_save` does to the bits that `sfc_init_device` enables writes with. -/

namespace Culvert

open Prog

def fmcCeTypeCe2Wp : Word := 1 <<< 18
def fmcCeTypeCe1Wp : Word := 1 <<< 17
def fmcCeTypeCe0Wp : Word := 1 <<< 16

/-- `type_wp_mask` of `struct sfc_data`, as `sfc_driver_init` sets it. -/
def SfcType.typeWpMask : SfcType → Word
  | .smc => fmcCeTypeCe0Wp ||| fmcCeTypeCe1Wp ||| fmcCeTypeCe2Wp
  | .fmc => fmcCeTypeCe0Wp ||| fmcCeTypeCe1Wp

section
variable {χ : Type} (spi : SpiChip χ)

def sfcWriteProtectSave (enable : Bool) : Prog (SfcDev χ) Word := onBus fun ct => do
  let oldTsr ← sfcReadl ct.type.typeReg
  let newTsr := if enable then oldTsr ||| ct.type.typeWpMask else oldTsr &&& ~~~ct.type.typeWpMask
  sfcWritel spi ct.type.typeReg newTsr
  return oldTsr &&& ct.type.typeWpMask

def sfcWriteProtectRestore (save : Word) : Prog (SfcDev χ) Unit := onBus fun ct => do
  let tsr ← sfcReadl ct.type.typeReg
  let tsr := tsr &&& ~~~ct.type.typeWpMask
  let tsr := tsr ||| (save &&& ct.type.typeWpMask)
  sfcWritel spi ct.type.typeReg tsr

end

namespace SfcDev
variable {χ : Type}

/-- The type register of the controller. -/
def tsr (s : SfcDev χ) : Word := s.bus.dev.regs s.ct.type.typeReg

/-- `type_wp_mask` covers the chip-select. -/
def Covers (s : SfcDev χ) (n : Nat) : Prop := s.ct.type.typeWpMask.getLsbD (16 + n) = true

/-- As the comment in `sfc_init_device` has it, bit 16 + n enables writes on chip-select n. -/
def WriteEnabled (s : SfcDev χ) (n : Nat) : Prop := s.tsr.getLsbD (16 + n) = true

/-- Other traffic: whatever leaves the type register and the type of the controller alone. -/
def Quiet (s : SfcDev χ) (m : Prog (SfcDev χ) Unit) (s' : SfcDev χ) : Prop :=
  (m.run s).state = s' ∧ s'.ct.type = s.ct.type ∧ s'.tsr = s.tsr

end SfcDev

section
variable {χ α : Type} {spi : SpiChip χ} {s s' : SfcDev χ} {enable : Bool} {save : Word}

theorem SpiHost.writel_regs (off val : Word) (h : SpiHost χ) :
    (SpiHost.writel spi off val h).regs = Function.update h.regs off val := by
  rw [SpiHost.writel]
  split
  · rw [SpiHost.assertCe]
    split
    · rfl
    · rfl
  · split
    · rw [SpiHost.releaseCe]
      split
      · rfl
      · rfl
    · rfl

theorem sfcOnBus_ok {m : SfcData → Prog (Faulty (SpiHost χ)) α} {a : α} (run : (onBus m).run s = .ok a s') :
    (m s.ct).run s.bus = .ok a s'.bus ∧ s'.ct = s.ct := by
  simp only [onBus, EStateM.run] at run ⊢
  split at run
  case h_1 a' bus ran =>
    cases run
    exact ⟨ran, rfl⟩
  case h_2 => cases run

theorem sfcWritel_ok {off val : Word} {bus bus' : Faulty (SpiHost χ)} (run : (sfcWritel spi off val).run bus = .ok () bus') :
    bus'.dev.regs off = val := by
  rw [(Faulty.access_ok run).2]
  show (SpiHost.writel spi off val bus.dev).regs off = val
  rw [SpiHost.writel_regs, Function.update_self]

/-- What a read-modify-write of the type register leaves in it. -/
theorem typeReg_modified {f : SfcData → Word → Word} {g : SfcData → Word → α} {a : α} (run : (onBus fun ct => do
      let tsr ← sfcReadl ct.type.typeReg
      sfcWritel spi ct.type.typeReg (f ct tsr)
      return g ct tsr : Prog (SfcDev χ) α).run s = .ok a s') :
    s'.tsr = f s.ct s.tsr ∧ a = g s.ct s.tsr ∧ s'.ct = s.ct := by
  obtain ⟨ran, same⟩ := sfcOnBus_ok run
  obtain ⟨tsr, bus₁, read, rest⟩ := bind_ok_iff.mp ran
  obtain ⟨_, bus₂, write, last⟩ := bind_ok_iff.mp rest
  have value : tsr = s.tsr := (Faulty.access_ok read).1
  injection last with result bus
  rw [bus] at write
  refine ⟨?_, by rw [← result, value], same⟩
  rw [SfcDev.tsr, same, sfcWritel_ok write, value]

theorem sfcWriteProtectSave_ok (run : (sfcWriteProtectSave spi enable).run s = .ok save s') :
    s'.tsr = (if enable then s.tsr ||| s.ct.type.typeWpMask else s.tsr &&& ~~~s.ct.type.typeWpMask) ∧
      save = s.tsr &&& s.ct.type.typeWpMask ∧ s'.ct = s.ct :=
  typeReg_modified (f := fun ct tsr => if enable then tsr ||| ct.type.typeWpMask else tsr &&& ~~~ct.type.typeWpMask)
    (g := fun ct tsr => tsr &&& ct.type.typeWpMask) run

theorem sfcWriteProtectRestore_ok (run : (sfcWriteProtectRestore spi save).run s = .ok () s') :
    s'.tsr = s.tsr &&& ~~~s.ct.type.typeWpMask ||| save &&& s.ct.type.typeWpMask := by
  refine (@typeReg_modified χ Unit spi s s' (fun ct tsr => tsr &&& ~~~ct.type.typeWpMask ||| save &&& ct.type.typeWpMask)
    (fun _ _ => ()) () ?_).1
  simp only [bind_pure_unit]
  exact run

/-- The save leaves the bits outside the mask alone. -/
theorem sfcWriteProtectSave_within (run : (sfcWriteProtectSave spi enable).run s = .ok save s') :
    Within s.ct.type.typeWpMask s.tsr s'.tsr := by
  have all : s.ct.type.typeWpMask &&& ~~~s.ct.type.typeWpMask = 0 := BitVec.and_not_self _
  rw [(sfcWriteProtectSave_ok run).1]
  cases enable with
  | false => exact .clear all _
  | true => exact .set all _

theorem Quiet.kept {es : List (Prog (SfcDev χ) Unit)} (run : Run SfcDev.Quiet s es s') :
    s'.ct.type = s.ct.type ∧ s'.tsr = s.tsr := by
  let same (d : SfcDev χ) : Prop := d.ct.type = s.ct.type ∧ d.tsr = s.tsr
  have all : same s' := run.invariant (fun _ _ _ here step => ⟨step.2.1.trans here.1, step.2.2.trans here.2⟩) ⟨rfl, rfl⟩
  exact all

end

/-- A run through `sfc_init_device`, other traffic, and a `sfc_write_protect_save` that succeeds. -/
structure SfcSaved {χ : Type} (spi : SpiChip χ) (enable : Bool) where
  start : SfcDev χ
  inited : SfcDev χ
  init : (sfcInitDevice spi).run start = .ok () inited
  before : List (Prog (SfcDev χ) Unit)
  ready : SfcDev χ
  traffic : Run SfcDev.Quiet inited before ready
  saved : Word
  guarded : SfcDev χ
  save : (sfcWriteProtectSave spi enable).run ready = .ok saved guarded

namespace SfcSaved
variable {χ : Type} {spi : SpiChip χ} {enable : Bool}

/-- Until the restore no chip-select that is covered is write-enabled, and the restore brings the register back. -/
structure Protects (r : SfcSaved spi enable) : Prop where
  guards : enable = true → ∀ es s', Run SfcDev.Quiet r.guarded es s' → ∀ n, s'.Covers n → ¬ s'.WriteEnabled n
  restores : ∀ es s' s'', Run SfcDev.Quiet r.guarded es s' → (sfcWriteProtectRestore spi r.saved).run s' = .ok () s'' →
    s''.tsr = r.ready.tsr

/-- Whatever the save was for, the restore takes it back. -/
theorem restored (r : SfcSaved spi enable) {es : List (Prog (SfcDev χ) Unit)} {s' s'' : SfcDev χ}
    (traffic : Run SfcDev.Quiet r.guarded es s') (restore : (sfcWriteProtectRestore spi r.saved).run s' = .ok () s'') :
    s''.tsr = r.ready.tsr := by
  obtain ⟨type, tsr⟩ := Quiet.kept traffic
  obtain ⟨-, saved, same⟩ := sfcWriteProtectSave_ok r.save
  have within : r.guarded.tsr &&& ~~~r.ready.ct.type.typeWpMask = r.ready.tsr &&& ~~~r.ready.ct.type.typeWpMask :=
    sfcWriteProtectSave_within r.save
  rw [sfcWriteProtectRestore_ok restore, type, tsr, same, within, saved, BitVec.and_assoc, BitVec.and_self,
    ← BitVec.and_or_distrib_left, BitVec.or_comm, BitVec.or_not_self, BitVec.and_allOnes]

/-- The bits that a save for protection sets are those that enable writes. -/
theorem enabled (r : SfcSaved spi true) (n : Nat) (covered : r.guarded.Covers n) : r.guarded.WriteEnabled n := by
  obtain ⟨set, -, same⟩ := sfcWriteProtectSave_ok r.save
  rw [SfcDev.WriteEnabled, set, if_pos rfl, BitVec.getLsbD_or]
  rw [SfcDev.Covers, same] at covered
  rw [covered, Bool.or_true]

theorem covers_zero (s : SfcDev χ) : s.Covers 0 := by
  rw [SfcDev.Covers]
  cases s.ct.type
  · rfl
  · rfl

/-- Save and restore do what they should exactly where they are not to protect anything: the bits that are set for it
are those that enable writes. -/
theorem protects_iff (r : SfcSaved spi enable) : r.Protects ↔ enable = false := by
  constructor
  · intro protects
    cases enable with
    | false => rfl
    | true => exact absurd (r.enabled 0 (covers_zero _)) (protects.guards rfl [] r.guarded (.nil _) 0 (covers_zero _))
  · intro off
    refine ⟨fun on => ?_, fun es s' s'' traffic restore => r.restored traffic restore⟩
    rw [off] at on
    cases on

end SfcSaved

/-- A controller whose chips may not be written before the driver is there. -/
def sfcProtected : SfcDev Unit :=
  ⟨.zeroed .fmc, ⟨⟨fun _ => 0, false, ()⟩, fun _ => none, 0⟩⟩

/-- A chip-select with nothing behind it. -/
def spiOpen : SpiChip Unit := ⟨id, id, fun _ => id, fun _ => (0xff, ()), fun _ _ => 0xff⟩

def sfcSaved (enable : Bool) : SfcSaved spiOpen enable where
  start := sfcProtected
  inited := ((sfcInitDevice spiOpen).run sfcProtected).state
  init := rfl
  before := []
  ready := ((sfcInitDevice spiOpen).run sfcProtected).state
  traffic := .nil _
  saved := 0x30000
  guarded := ((sfcWriteProtectSave spiOpen enable).run ((sfcInitDevice spiOpen).run sfcProtected).state).state
  save := by cases enable <;> rfl

/-- A save that is to protect. -/
theorem sfcSaved_not_protects : ¬ (sfcSaved true).Protects :=
  fun protects => protects.guards rfl [] _ (.nil _) 0 (by unfold SfcDev.Covers; decide) (by unfold SfcDev.WriteEnabled; decide)

/-- A save that is not to protect. -/
theorem sfcSaved_protects : (sfcSaved false).Protects := (sfcSaved false).protects_iff.mpr rfl

end Culvert
