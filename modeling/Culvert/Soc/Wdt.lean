import Culvert.Flash.Chip
import Culvert.Lib.Takes
import Culvert.Soc.Bus

namespace Culvert

/-- The watchdogs of the AST2500. -/
inductive Wdt where
  | wdt1
  | wdt2
  | wdt3
  deriving DecidableEq, Repr

namespace Wdt

/-- The start of its registers. -/
def start : Wdt → Word
  | wdt1 => 0x1e785000
  | wdt2 => 0x1e785020
  | wdt3 => 0x1e785040

end Wdt

def wdtReload : Word := 0x04
def wdtRestart : Word := 0x08
def wdtRestartMagic : Word := 0x4755
def wdtCtrl : Word := 0x0c
def wdtCtrlAltBoot : Word := 1 <<< 7
def wdtCtrlResetSoc : Word := 0b00 <<< 5
def wdtCtrlClk1mhz : Word := 1 <<< 4
def wdtCtrlSysReset : Word := 1 <<< 1
def wdtCtrlEnable : Word := 1 <<< 0
def wdtResetMask : Word := 0x1c

section
variable {σ : Type} (bus : Bus σ) (wdt : Wdt)

def wdtReadl (reg : Word) : Prog (Faulty σ) Word := socReadl bus (wdt.start + reg)
def wdtWritel (reg val : Word) : Prog (Faulty σ) Unit := socWritel bus (wdt.start + reg) val

def wdtStop : Prog (Faulty σ) Unit := do
  let val ← wdtReadl bus wdt wdtCtrl
  wdtWritel bus wdt wdtCtrl (val &&& ~~~wdtCtrlEnable)

def wdtConfigClksrc : Prog (Faulty σ) Unit := do
  let val ← wdtReadl bus wdt wdtCtrl
  wdtWritel bus wdt wdtCtrl (val ||| wdtCtrlClk1mhz)

def wdtUsecsToTicks (usecs : Word) : Prog (Faulty σ) Word := do
  let val ← wdtReadl bus wdt wdtCtrl
  if val &&& wdtCtrlClk1mhz = 0 then Prog.fail eio else return usecs

/-- The control value that starts the reset. -/
def wdtResetMode (mode : Word) : Word :=
  (mode ||| (wdtCtrlResetSoc ||| wdtCtrlSysReset ||| wdtCtrlEnable)) &&& ~~~wdtCtrlAltBoot

/-- Everything is reset except SPI, X-DMA, MCTP and SDRAM, and the AHB bridges are. -/
def wdtConfigure : Prog (Faulty σ) Unit := do
  wdtStop bus wdt
  wdtConfigClksrc bus wdt
  wdtWritel bus wdt wdtResetMask 0x23ffffb

def wdtRun (wait : Word) : Prog (Faulty σ) Unit := do
  wdtWritel bus wdt wdtReload wait
  wdtWritel bus wdt wdtRestart wdtRestartMagic
  let mode ← wdtReadl bus wdt wdtCtrl
  wdtWritel bus wdt wdtCtrl (wdtResetMode mode)

/-- `wdt_perform_reset` until the watchdog runs. -/
def wdtArm : Prog (Faulty σ) Unit := do
  wdtConfigure bus wdt
  let wait ← wdtUsecsToTicks bus wdt 5000000
  wdtRun bus wdt wait

end

/-! The steps as the device sees them. -/

section
variable {σ : Type} (bus : Bus σ)

/-- A register read, modified and written. -/
def Bus.modify (phys : Word) (f : Word → Word) (d : σ) : σ :=
  bus.writel phys (f (bus.readl phys d).1) (bus.readl phys d).2

open Faulty

theorem modify_takes (phys : Word) (f : Word → Word) (d : σ) : Takes (fun _ => True) d (do
    let val ← socReadl bus phys
    socWritel bus phys (f val)) 2 () (bus.modify phys f d) :=
  (Takes.access (bus.readl phys) trivial).bind (f := fun val => socWritel bus phys (f val))
    (Takes.access (fun d' => ((), bus.writel phys (f (bus.readl phys d).1) d')) trivial)

theorem writel_takes (phys val : Word) (d : σ) :
    Takes (fun _ => True) d (socWritel bus phys val) 1 () (bus.writel phys val d) :=
  Takes.access (fun d => ((), bus.writel phys val d)) trivial

variable (wdt : Wdt) (d : σ)

def wdtConfigured : σ :=
  let stopped := bus.modify (wdt.start + wdtCtrl) (· &&& ~~~wdtCtrlEnable) d
  bus.writel (wdt.start + wdtResetMask) 0x23ffffb (bus.modify (wdt.start + wdtCtrl) (· ||| wdtCtrlClk1mhz) stopped)

def wdtRunning (wait : Word) : σ :=
  let loaded := bus.writel (wdt.start + wdtRestart) wdtRestartMagic (bus.writel (wdt.start + wdtReload) wait d)
  bus.modify (wdt.start + wdtCtrl) wdtResetMode loaded

/-- The control register of the configured watchdog, and the device once it is read. -/
def wdtClock : Word × σ := bus.readl (wdt.start + wdtCtrl) (wdtConfigured bus wdt d)

theorem wdtConfigure_takes : Takes (fun _ => True) d (wdtConfigure bus wdt) 5 () (wdtConfigured bus wdt d) := by
  have stop := modify_takes bus (wdt.start + wdtCtrl) (· &&& ~~~wdtCtrlEnable) d
  have clksrc := modify_takes bus (wdt.start + wdtCtrl) (· ||| wdtCtrlClk1mhz)
    (bus.modify (wdt.start + wdtCtrl) (· &&& ~~~wdtCtrlEnable) d)
  have mask := writel_takes bus (wdt.start + wdtResetMask) 0x23ffffb (bus.modify (wdt.start + wdtCtrl)
    (· ||| wdtCtrlClk1mhz) (bus.modify (wdt.start + wdtCtrl) (· &&& ~~~wdtCtrlEnable) d))
  have rest := clksrc.bind (f := fun _ => wdtWritel bus wdt wdtResetMask 0x23ffffb) mask
  exact stop.bind (f := fun _ => do wdtConfigClksrc bus wdt; wdtWritel bus wdt wdtResetMask 0x23ffffb) rest

theorem wdtRun_takes (wait : Word) :
    Takes (fun _ => True) d (wdtRun bus wdt wait) 4 () (wdtRunning bus wdt d wait) := by
  have reload := writel_takes bus (wdt.start + wdtReload) wait d
  have restart := writel_takes bus (wdt.start + wdtRestart) wdtRestartMagic (bus.writel (wdt.start + wdtReload) wait d)
  have mode := modify_takes bus (wdt.start + wdtCtrl) wdtResetMode
    (bus.writel (wdt.start + wdtRestart) wdtRestartMagic (bus.writel (wdt.start + wdtReload) wait d))
  have rest := restart.bind (f := fun _ => do
    let mode ← wdtReadl bus wdt wdtCtrl
    wdtWritel bus wdt wdtCtrl (wdtResetMode mode)) mode
  exact reload.bind (f := fun _ => do
    wdtWritel bus wdt wdtRestart wdtRestartMagic
    let mode ← wdtReadl bus wdt wdtCtrl
    wdtWritel bus wdt wdtCtrl (wdtResetMode mode)) rest

/-- With its clock selected, the watchdog is set up and started in ten accesses. -/
theorem wdtArm_takes (clock : (wdtClock bus wdt d).1 &&& wdtCtrlClk1mhz ≠ 0) : Takes (fun _ => True) d (wdtArm bus wdt)
    10 () (wdtRunning bus wdt (wdtClock bus wdt d).2 5000000) := by
  have read := Takes.access (I := fun _ => True) (bus.readl (wdt.start + wdtCtrl)) (d := wdtConfigured bus wdt d)
    trivial
  have ticks : Takes (fun _ => True) (wdtConfigured bus wdt d) (wdtUsecsToTicks bus wdt 5000000) 1 5000000
      (wdtClock bus wdt d).2 := by
    refine read.bind (f := fun val => if val &&& wdtCtrlClk1mhz = 0 then Prog.fail eio else return 5000000) (k := 0) ?_
    rw [wdtClock] at clock ⊢
    rw [if_neg clock]
    exact Takes.pure 5000000
  have rest := ticks.bind (f := wdtRun bus wdt) (wdtRun_takes bus wdt (wdtClock bus wdt d).2 5000000)
  exact (wdtConfigure_takes bus wdt d).bind (f := fun _ => do
    let wait ← wdtUsecsToTicks bus wdt 5000000
    wdtRun bus wdt wait) rest

theorem wdtUsecsToTicks_no_clock (usecs : Word) (s : Faulty σ)
    (clock : (bus.readl (wdt.start + wdtCtrl) s.dev).1 &&& wdtCtrlClk1mhz = 0) :
    ∃ e s', (wdtUsecsToTicks bus wdt usecs).run s = .error (.rc e) s' := by
  have read := Takes.access (I := fun _ => True) (bus.readl (wdt.start + wdtCtrl)) (d := s.dev) trivial
  rcases clear_or_firstFails s 1 with clear | ⟨k, lt, first⟩
  · have run : (wdtReadl bus wdt wdtCtrl).run s = _ := read.clear s rfl clear
    rw [wdtUsecsToTicks, Prog.run_bind_ok run, if_pos clock]
    exact ⟨eio, _, rfl⟩
  · obtain ⟨e, mid, _, run⟩ := read.failed s k rfl lt first
    have run : (wdtReadl bus wdt wdtCtrl).run s = _ := run
    exact ⟨e, _, Prog.run_bind_error run⟩

/-- Without its clock the watchdog is given up, if no access failed before. -/
theorem wdtArm_no_clock (s : Faulty σ) (clock : (wdtClock bus wdt s.dev).1 &&& wdtCtrlClk1mhz = 0) :
    ∃ e s', (wdtArm bus wdt).run s = .error (.rc e) s' := by
  have configure := wdtConfigure_takes bus wdt s.dev
  rcases clear_or_firstFails s 5 with clear | ⟨k, lt, first⟩
  · obtain ⟨e, s', run⟩ := wdtUsecsToTicks_no_clock bus wdt 5000000 (s.after 5 (wdtConfigured bus wdt s.dev)) clock
    refine ⟨e, s', ?_⟩
    rw [wdtArm, Prog.run_bind_ok (configure.clear s rfl clear)]
    exact Prog.run_bind_error run
  · obtain ⟨e, mid, _, run⟩ := configure.failed s k rfl lt first
    exact ⟨e, _, Prog.run_bind_error run⟩

end

end Culvert
