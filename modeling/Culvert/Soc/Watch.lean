import Culvert.Lib.Bits
import Culvert.Lib.Passes
import Culvert.Soc.Bridges

namespace Culvert
open Faulty Watched

/-- The bus, with the states that its writes led to. -/
def Bus.watched {σ : Type} (bus : Bus σ) : Bus (Watched σ) where
  readl phys w := ((bus.readl phys w.now).1, { w with now := (bus.readl phys w.now).2 })
  writel phys val w := w.push (bus.writel phys val w.now)

/-- A device at which accesses fail as told, before the first one. -/
def watching {σ : Type} (now : σ) (fails : Nat → Option Errno) : Faulty (Watched σ) := ⟨⟨now, []⟩, fails, 0⟩

/-- Reads have no effect. -/
def Bus.Plain (bus : Bus Regs) : Prop := ∀ phys regs, bus.readl phys regs = (regs phys, regs)

theorem regBus_plain : regBus.Plain := fun _ _ => rfl

section
variable {bus : Bus Regs} {I : Watched Regs → Prop} {w : Watched Regs} {phys val : Word}

theorem socReadl_passes (plain : bus.Plain) {Q : Word → Watched Regs → Prop} (safe : I w)
    (post : Q (w.now phys) w) : Passes I w (socReadl bus.watched phys) Q := by
  have same : bus.watched.readl phys w = (w.now phys, w) := by
    show ((bus.readl phys w.now).1, { w with now := (bus.readl phys w.now).2 }) = _
    rw [plain]
  refine Passes.access safe ?_
  rw [same]
  exact post

theorem socWritel_passes {Q : Unit → Watched Regs → Prop} (safe : I w)
    (post : Q () (w.push (bus.writel phys val w.now))) : Passes I w (socWritel bus.watched phys val) Q :=
  Passes.access safe post

end

def BridgeGateDesc.ungated (scu : Word) (desc : BridgeGateDesc) (regs : Regs) : Regs :=
  Function.update regs (scu + desc.reg) (regs (scu + desc.reg) &&& ~~~desc.mask)

theorem BridgeGateDesc.ungated_ungated (scu : Word) (desc : BridgeGateDesc) (regs : Regs) :
    desc.Ungated scu (desc.ungated scu regs) := by
  unfold Ungated ungated
  rw [Function.update_self]
  exact BitVec.and_not_and_self _ _

theorem BridgeGateDesc.ungated_congr {scu : Word} {desc : BridgeGateDesc} {regs regs' : Regs}
    (same : regs' (scu + desc.reg) = regs (scu + desc.reg)) :
    desc.Ungated scu regs' ↔ desc.Ungated scu regs := by
  unfold Ungated
  rw [same]

theorem bridgesEnable_passes {bus : Bus Regs} {I : Watched Regs → Prop} {w : Watched Regs} {bridges : Bridges} {id : Int}
    {desc : BridgeGateDesc} (plain : bus.Plain)
    (write : ∀ val regs, bus.writel (bridges.scu + desc.reg) val regs = Function.update regs (bridges.scu + desc.reg) val)
    (found : bridges.desc id = .ok desc) (safe : I w) : Passes I w (bridgesEnable bus.watched bridges id)
      fun _ w' => w' = w.push (desc.ungated bridges.scu w.now) := by
  unfold bridgesEnable bridgesConfigure
  rw [found]
  refine Passes.bind (Passes.pure (Q := fun d w' => desc = d ∧ w = w') ⟨rfl, rfl⟩) ?_
  rintro _ _ ⟨rfl, rfl⟩
  refine Passes.bind (socReadl_passes plain (Q := fun v w' => v = w.now (bridges.scu + desc.reg) ∧ w = w')
    safe ⟨rfl, rfl⟩) ?_
  rintro _ _ ⟨rfl, rfl⟩
  refine socWritel_passes safe ?_
  rw [write]
  rfl

/-- The bits that a list of addresses and masks has at an address. -/
def bitsAt (bits : List (Word × Word)) (phys : Word) : Word :=
  bits.foldr (fun entry mask => if entry.1 = phys then entry.2 ||| mask else mask) 0

theorem sub_bitsAt {bits : List (Word × Word)} {phys mask : Word} (mem : (phys, mask) ∈ bits) :
    mask &&& ~~~bitsAt bits phys = 0 := by
  have absorbed (x y : Word) : x &&& ~~~(x ||| y) = 0 := by
    rw [BitVec.not_or, ← BitVec.and_assoc, BitVec.and_not_self]
    exact BitVec.zero_and
  induction bits with
  | nil => cases mem
  | cons entry rest ih =>
    rcases List.mem_cons.mp mem with rfl | mem
    · show mask &&& ~~~(if phys = phys then mask ||| bitsAt rest phys else bitsAt rest phys) = 0
      rw [if_pos rfl]
      exact absorbed _ _
    · show mask &&& ~~~(if entry.1 = phys then entry.2 ||| bitsAt rest phys else bitsAt rest phys) = 0
      by_cases same : entry.1 = phys
      · rw [if_pos same, BitVec.not_or, BitVec.and_comm (~~~entry.2), ← BitVec.and_assoc, ih mem]
        exact BitVec.zero_and
      · rw [if_neg same]
        exact ih mem

/-- No register differs in a bit that is not in the list. -/
def Confined (bits : List (Word × Word)) (old new : Regs) : Prop :=
  ∀ phys, Within (bitsAt bits phys) (old phys) (new phys)

theorem Confined.refl (bits : List (Word × Word)) (regs : Regs) : Confined bits regs regs := fun _ => rfl

theorem Confined.update {bits : List (Word × Word)} {old regs : Regs} {phys mask val : Word}
    (confined : Confined bits old regs) (mem : (phys, mask) ∈ bits) (within : Within mask (regs phys) val) :
    Confined bits old (Function.update regs phys val) := by
  intro other
  by_cases same : other = phys
  · subst same
    rw [Function.update_self]
    exact (confined other).trans (within.mono (sub_bitsAt mem))
  · rw [Function.update_of_ne same]
    exact confined other

end Culvert
