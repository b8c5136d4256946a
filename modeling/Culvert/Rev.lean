import Culvert.Soc.Bus

namespace Culvert

def enodev : Errno := ⟨19, by decide, by decide⟩

/-- `enum ast_generation` -/
inductive AstGeneration where
  | g4
  | g5
  | g6
  deriving DecidableEq, Repr

def astSiliconRevs : List Word :=
  [0x02000303, 0x02010303, 0x04000303, 0x04010303, 0x04030303, 0x05000303, 0x05010303, 0x05020303, 0x05030303]

def revGeneration (rev : Word) : Option AstGeneration :=
  match (rev >>> 24 &&& 0xff).toNat with
  | 0x02 => some .g4
  | 0x04 => some .g5
  | 0x05 => some .g6
  | _ => none

def revStepping (rev : Word) : Nat := (rev >>> 16 &&& 0xf).toNat

def revIsSupported (rev : Word) : Bool := rev ∈ astSiliconRevs

/-- `rev_probe` through the `readl` of an ahb. -/
def revProbeThrough {σ : Type} (readl : Word → Prog σ Word) : Prog σ Word := do
  let scu004 ← readl (0x1e6e2000 ||| 0x004)
  let scu07c ← readl (0x1e6e2000 ||| 0x07c)
  let isG6 := scu004 >>> 28 &&& 0xf = 0 ∧ scu07c >>> 24 &&& 0xff = 0
  let rev ← if isG6 then readl (0x1e6e2000 ||| 0x014) else pure scu07c
  if revIsSupported rev then return rev else Prog.fail enodev

theorem revProbeThrough_ok {σ : Type} {readl : Word → Prog σ Word} {s s' : σ} {rev : Word}
    (run : (revProbeThrough readl).run s = .ok rev s') : revIsSupported rev = true := by
  have checked {m : Prog σ Word} {s₁ : σ}
      (run : (m >>= fun rev => if revIsSupported rev then pure rev else Prog.fail enodev).run s₁ = .ok rev s') :
      revIsSupported rev = true := by
    obtain ⟨found, s₂, _, last⟩ := Prog.bind_ok_iff.mp run
    by_cases supported : revIsSupported found = true
    · rw [if_pos supported] at last
      cases last
      exact supported
    · rw [if_neg supported] at last
      cases last
  obtain ⟨_, _, _, run⟩ := Prog.bind_ok_iff.mp run
  obtain ⟨_, _, _, run⟩ := Prog.bind_ok_iff.mp run
  dsimp only at run
  split at run
  · exact checked run
  · exact checked run

section
variable {σ : Type} (bus : Bus σ)

/-- The revision is at another place on the AST2600, which the first two registers tell. -/
def revProbe : Prog (Faulty σ) Word := do
  let scu004 ← socReadl bus (0x1e6e2000 ||| 0x004)
  let scu07c ← socReadl bus (0x1e6e2000 ||| 0x07c)
  let isG6 := scu004 >>> 28 &&& 0xf = 0 ∧ scu07c >>> 24 &&& 0xff = 0
  let rev ← if isG6 then socReadl bus (0x1e6e2000 ||| 0x014) else pure scu07c
  if revIsSupported rev then return rev else Prog.fail enodev

theorem revProbe_eq : revProbe bus = revProbeThrough (socReadl bus) := rfl

/-- `soc_probe` up to the binding of the drivers. `align` is what `soc_align_fdt` returns. -/
def socFromRev (align : Except Errno Unit) : Prog (Faulty σ) Word := do
  let rev ← revProbe bus
  if (revGeneration rev).isNone then
    Prog.fail enotsup
  else
    Prog.ofExcept align
    return rev

end

end Culvert
