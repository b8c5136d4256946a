import Culvert.Rev

namespace Culvert

def ast2400ScuHwStrap1 : Word := 0x070
def ast2400ScuHwStrap2 : Word := 0x0d0
def ast2500ScuHwStrap : Word := 0x070
def ast2500ScuSiliconId : Word := 0x07c
def ast2600ScuHwStrap1 : Word := 0x500
def ast2600ScuHwStrap2 : Word := 0x510
def ast2600ScuHwStrap3 : Word := 0x51c

def scuBase : Word := 0x1e6e2000

def astScuProtKey : Word := 0x000
def astScuPassword : Word := 0x1688a8a8

section
variable {σ : Type} (bus : Bus σ)

def scuReadl (reg : Word) : Prog (Faulty σ) Word := socReadl bus (scuBase + reg)

def scuWritel (reg val : Word) : Prog (Faulty σ) Unit := socWritel bus (scuBase + reg) val

/-- A read of one of the strap registers of a generation. -/
def strapReadOf (straps : List Word) (reg : Word) : Prog (Faulty σ) Word :=
  if straps.contains reg then scuReadl bus reg else Prog.fail einval

def ast2400StrapRead (reg : Word) : Prog (Faulty σ) Word := strapReadOf bus [ast2400ScuHwStrap1, ast2400ScuHwStrap2] reg

def ast2500StrapRead (reg : Word) : Prog (Faulty σ) Word := strapReadOf bus [ast2500ScuHwStrap] reg

def ast2600StrapRead (reg : Word) : Prog (Faulty σ) Word :=
  strapReadOf bus [ast2600ScuHwStrap1, ast2600ScuHwStrap2, ast2600ScuHwStrap3] reg

def strapRead : AstGeneration → Word → Prog (Faulty σ) Word
  | .g4 => ast2400StrapRead bus
  | .g5 => ast2500StrapRead bus
  | .g6 => ast2600StrapRead bus

/-- The straps of the AST2400 are read, modified and written. -/
def ast2400StrapModify (reg update mask : Word) (modify : Word → Word) : Prog (Faulty σ) Unit := do
  if ¬ (reg = ast2400ScuHwStrap1 ∨ reg = ast2400ScuHwStrap2) then
    Prog.fail einval
  else if update &&& ~~~mask ≠ 0 then
    Prog.fail einval
  else
    let val ← scuReadl bus reg
    scuWritel bus reg (modify val)

def ast2400StrapSet (reg update mask : Word) : Prog (Faulty σ) Unit :=
  ast2400StrapModify bus reg update mask (· ||| update)

def ast2400StrapClear (reg update mask : Word) : Prog (Faulty σ) Unit :=
  ast2400StrapModify bus reg update mask (· &&& ~~~update)

def ast2500StrapSet (reg update mask : Word) : Prog (Faulty σ) Unit :=
  if reg ≠ ast2500ScuHwStrap ∨ update &&& ~~~mask ≠ 0 then Prog.fail einval
  else scuWritel bus reg update

/-- The silicon ID register clears straps. -/
def ast2500StrapClear (reg update mask : Word) : Prog (Faulty σ) Unit :=
  if reg ≠ ast2500ScuHwStrap ∨ update &&& ~~~mask ≠ 0 then Prog.fail einval
  else scuWritel bus ast2500ScuSiliconId update

def ast2600StrapIsProtected (reg mask : Word) : Prog (Faulty σ) Bool :=
  if reg = ast2600ScuHwStrap3 then
    return false
  else if reg = ast2600ScuHwStrap1 ∨ reg = ast2600ScuHwStrap2 then do
    let protect ← scuReadl bus (reg + 8)
    return protect &&& mask ≠ 0
  else
    Prog.fail einval

def ast2600StrapSet (reg update mask : Word) : Prog (Faulty σ) Unit :=
  if ¬ (reg = ast2600ScuHwStrap1 ∨ reg = ast2600ScuHwStrap2 ∨ reg = ast2600ScuHwStrap3) then
    Prog.fail einval
  else if update &&& ~~~mask ≠ 0 then
    Prog.fail einval
  else do
    if ← ast2600StrapIsProtected bus reg mask then Prog.fail eperm
    else scuWritel bus reg update

def ast2600StrapClear (reg update mask : Word) : Prog (Faulty σ) Unit :=
  if update &&& ~~~mask ≠ 0 then
    Prog.fail einval
  else do
    if ← ast2600StrapIsProtected bus reg mask then
      Prog.fail eperm
    else if reg = ast2600ScuHwStrap1 ∨ reg = ast2600ScuHwStrap2 then
      scuWritel bus (reg + 4) update
    else if reg = ast2600ScuHwStrap3 then
      let val ← scuReadl bus reg
      scuWritel bus reg (val &&& ~~~(update &&& mask))
    else
      Prog.fail einval

def strapSet : AstGeneration → Word → Word → Word → Prog (Faulty σ) Unit
  | .g4 => ast2400StrapSet bus
  | .g5 => ast2500StrapSet bus
  | .g6 => ast2600StrapSet bus

def strapClear : AstGeneration → Word → Word → Word → Prog (Faulty σ) Unit
  | .g4 => ast2400StrapClear bus
  | .g5 => ast2500StrapClear bus
  | .g6 => ast2600StrapClear bus

end

theorem strapReadOf_observes {straps : List Word} {reg : Word} (known : reg ∈ straps) :
    Faulty.Observes (strapReadOf regBus straps reg) fun regs => regs (scuBase + reg) := by
  unfold strapReadOf
  rw [if_pos (List.contains_iff_mem.mpr known)]
  exact socReadl_observes (scuBase + reg)

end Culvert
