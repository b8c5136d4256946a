import Culvert.Ahb
import Culvert.Lib.Changes

namespace Culvert

/-- What is behind the AHB: the values that reads give and what reads and writes do to it. -/
structure Bus (σ : Type) where
  readl : Word → σ → Word × σ
  writel : Word → Word → σ → σ

/-- Registers which read what was last written to them. -/
abbrev Regs := Word → Word

def regBus : Bus Regs where
  readl phys regs := (regs phys, regs)
  writel phys val regs := Function.update regs phys val

section
variable {σ : Type} (bus : Bus σ)

def socReadl (phys : Word) : Prog (Faulty σ) Word := Faulty.access (bus.readl phys)

def socWritel (phys val : Word) : Prog (Faulty σ) Unit := Faulty.access fun s => ((), bus.writel phys val s)

end

theorem socReadl_observes (phys : Word) : Faulty.Observes (socReadl regBus phys) fun regs => regs phys :=
  Faulty.Observes.access fun _ => rfl

theorem socWritel_changes (phys val : Word) :
    Faulty.Changes (socWritel regBus phys val) fun regs => Function.update regs phys val :=
  Faulty.Changes.access _

/-- A register is read and written back, changed. -/
theorem socModify_changes (phys : Word) (f : Word → Word) :
    Faulty.Changes (do let val ← socReadl regBus phys; socWritel regBus phys (f val))
      fun regs => Function.update regs phys (f (regs phys)) :=
  Faulty.Changes.bind (socReadl_observes phys) fun val => socWritel_changes phys (f val)

theorem socReadl_yields (phys : Word) (regs : Regs) : Faulty.Yields regs (socReadl regBus phys) (regs phys) regs :=
  Faulty.Yields.access (regBus.readl phys)

theorem socWritel_yields (phys val : Word) (regs : Regs) :
    Faulty.Yields regs (socWritel regBus phys val) () (Function.update regs phys val) :=
  Faulty.Yields.access fun regs => ((), regBus.writel phys val regs)

end Culvert
