import Culvert.Soc.Sioctl
import Culvert.Soc.Watch

namespace Culvert
open Faulty Watched

/-- The bits of a strap register of the AST2600 that are not protected. -/
def unprotected (reg val : Word) (regs : Regs) : Word := val &&& ~~~regs (scuBase + (reg + 8))

/-- A write to the registers of a generation. Straps are plain bits on the AST2400. On the others
a write to the strap register sets them and a write to another register clears them; the AST2600
refuses this for protected ones. -/
def strapWrite : AstGeneration → Word → Word → Regs → Regs
  | .g4, phys, val, regs => Function.update regs phys val
  | .g5, phys, val, regs =>
    if phys = scuBase + ast2500ScuHwStrap then
      Function.update regs phys (regs phys ||| val)
    else if phys = scuBase + ast2500ScuSiliconId then
      Function.update regs (scuBase + ast2500ScuHwStrap) (regs (scuBase + ast2500ScuHwStrap) &&& ~~~val)
    else Function.update regs phys val
  | .g6, phys, val, regs =>
    match [ast2600ScuHwStrap1, ast2600ScuHwStrap2].find? (fun reg => phys = scuBase + reg) with
    | some reg => Function.update regs phys (regs phys ||| unprotected reg val regs)
    | none =>
      match [ast2600ScuHwStrap1, ast2600ScuHwStrap2].find? (fun reg => phys = scuBase + (reg + 4)) with
      | some reg => Function.update regs (scuBase + reg) (regs (scuBase + reg) &&& ~~~unprotected reg val regs)
      | none => Function.update regs phys val

def strapBus (gen : AstGeneration) : Bus Regs where
  readl phys regs := (regs phys, regs)
  writel := strapWrite gen

theorem strapBus_plain (gen : AstGeneration) : (strapBus gen).Plain := fun _ _ => rfl

/-- The registers at which a write is not just a write. -/
def strapRegs : AstGeneration → List Word
  | .g4 => []
  | .g5 => [scuBase + ast2500ScuHwStrap, scuBase + ast2500ScuSiliconId]
  | .g6 => [scuBase + ast2600ScuHwStrap1, scuBase + ast2600ScuHwStrap2, scuBase + (ast2600ScuHwStrap1 + 4),
      scuBase + (ast2600ScuHwStrap2 + 4)]

theorem strapWrite_other {gen : AstGeneration} {phys : Word} (other : phys ∉ strapRegs gen) (val : Word) (regs : Regs) :
    strapWrite gen phys val regs = Function.update regs phys val := by
  cases gen with
  | g4 => rfl
  | g5 =>
    simp only [strapRegs, List.mem_cons, List.not_mem_nil, or_false, not_or] at other
    simp only [strapWrite, if_neg other.1, if_neg other.2]
  | g6 =>
    simp only [strapRegs, List.mem_cons, List.not_mem_nil, or_false, not_or] at other
    obtain ⟨set₁, set₂, clear₁, clear₂⟩ := other
    simp only [strapWrite, List.find?_cons, set₁, set₂, clear₁, clear₂, decide_false, List.find?_nil]

/-- The straps of the SuperIO. -/
def sioStrap (gen : AstGeneration) : Word := scuBase + (sioctlPdata gen).reg

def strapped (gen : AstGeneration) (bits : Word) (regs : Regs) : Regs :=
  Function.update regs (sioStrap gen) (regs (sioStrap gen) ||| bits)

def unstrapped (gen : AstGeneration) (bits : Word) (regs : Regs) : Regs :=
  Function.update regs (sioStrap gen) (regs (sioStrap gen) &&& ~~~bits)

section
variable {I : Watched Regs → Prop} {w : Watched Regs} {bits : Word}

theorem scuReadl_passes {gen : AstGeneration} {Q : Word → Watched Regs → Prop} {reg : Word} (safe : I w)
    (post : Q (w.now (scuBase + reg)) w) : Passes I w (scuReadl (strapBus gen).watched reg) Q :=
  socReadl_passes (strapBus_plain gen) safe post

theorem ast2600StrapIsProtected_passes {reg : Word} (known : reg = ast2600ScuHwStrap2) (safe : I w) :
    Passes I w (ast2600StrapIsProtected (strapBus .g6).watched reg bits)
      fun protect w' => w = w' ∧ (protect = false → unprotected reg bits w.now = bits) := by
  subst known
  refine Passes.bind (Q := fun protect w' => protect = w.now (scuBase + (ast2600ScuHwStrap2 + 8)) ∧ w = w')
    (scuReadl_passes safe ⟨rfl, rfl⟩) ?_
  rintro _ _ ⟨rfl, rfl⟩
  refine Passes.pure ⟨rfl, fun clear => ?_⟩
  simp only [ne_eq, decide_eq_false_iff_not, not_not] at clear
  unfold unprotected
  ext i inside
  have bit : (w.now (scuBase + (ast2600ScuHwStrap2 + 8)) &&& bits)[i] = false := by
    rw [clear]
    exact BitVec.getElem_zero inside
  simp only [BitVec.getElem_and, BitVec.getElem_not] at bit ⊢
  grind

/-- Setting straps of the SuperIO sets them, if the call returns 0. -/
theorem strapSet_passes (gen : AstGeneration) (safe : I w) :
    Passes I w (strapSet (strapBus gen).watched gen (sioctlPdata gen).reg bits bits)
      fun _ w' => w' = w.push (strapped gen bits w.now) := by
  have within : ¬ bits &&& ~~~bits ≠ 0 := fun h => h (BitVec.and_not_self bits)
  cases gen with
  | g4 =>
    show Passes I w (ast2400StrapSet (strapBus .g4).watched (sioctlPdata .g4).reg bits bits) _
    unfold ast2400StrapSet ast2400StrapModify
    rw [if_neg (by decide), if_neg within]
    refine Passes.bind (Q := fun val w' => val = w.now (sioStrap .g4) ∧ w = w') (scuReadl_passes safe ⟨rfl, rfl⟩) ?_
    rintro _ _ ⟨rfl, rfl⟩
    exact socWritel_passes safe rfl
  | g5 =>
    show Passes I w (ast2500StrapSet (strapBus .g5).watched (sioctlPdata .g5).reg bits bits) _
    unfold ast2500StrapSet
    rw [if_neg (not_or.mpr ⟨by decide, within⟩)]
    exact socWritel_passes safe rfl
  | g6 =>
    show Passes I w (ast2600StrapSet (strapBus .g6).watched (sioctlPdata .g6).reg bits bits) _
    unfold ast2600StrapSet
    rw [if_neg (by decide), if_neg within]
    refine Passes.bind (ast2600StrapIsProtected_passes rfl safe) ?_
    rintro protect _ ⟨rfl, free⟩
    cases protect with
    | true => exact Passes.fail safe
    | false =>
      refine socWritel_passes safe ?_
      show w.push (Function.update w.now (sioStrap .g6) (w.now (sioStrap .g6) |||
        unprotected ast2600ScuHwStrap2 bits w.now)) = _
      rw [show unprotected ast2600ScuHwStrap2 bits w.now = bits from free rfl]
      rfl

theorem strapClear_passes (gen : AstGeneration) (safe : I w) :
    Passes I w (strapClear (strapBus gen).watched gen (sioctlPdata gen).reg bits bits)
      fun _ w' => w' = w.push (unstrapped gen bits w.now) := by
  have within : ¬ bits &&& ~~~bits ≠ 0 := fun h => h (BitVec.and_not_self bits)
  cases gen with
  | g4 =>
    show Passes I w (ast2400StrapClear (strapBus .g4).watched (sioctlPdata .g4).reg bits bits) _
    unfold ast2400StrapClear ast2400StrapModify
    rw [if_neg (by decide), if_neg within]
    refine Passes.bind (Q := fun val w' => val = w.now (sioStrap .g4) ∧ w = w') (scuReadl_passes safe ⟨rfl, rfl⟩) ?_
    rintro _ _ ⟨rfl, rfl⟩
    exact socWritel_passes safe rfl
  | g5 =>
    show Passes I w (ast2500StrapClear (strapBus .g5).watched (sioctlPdata .g5).reg bits bits) _
    unfold ast2500StrapClear
    rw [if_neg (not_or.mpr ⟨by decide, within⟩)]
    exact socWritel_passes safe rfl
  | g6 =>
    show Passes I w (ast2600StrapClear (strapBus .g6).watched (sioctlPdata .g6).reg bits bits) _
    unfold ast2600StrapClear
    rw [if_neg within]
    refine Passes.bind (ast2600StrapIsProtected_passes rfl safe) ?_
    rintro protect _ ⟨rfl, free⟩
    cases protect with
    | true => exact Passes.fail safe
    | false =>
      refine socWritel_passes safe ?_
      show w.push (Function.update w.now (sioStrap .g6) (w.now (sioStrap .g6) &&&
        ~~~unprotected ast2600ScuHwStrap2 bits w.now)) = _
      rw [show unprotected ast2600ScuHwStrap2 bits w.now = bits from free rfl]
      rfl

end

end Culvert
