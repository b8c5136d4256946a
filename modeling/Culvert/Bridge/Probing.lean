import Culvert.Bridge.Ilpc
import Culvert.Rev

namespace Culvert

/-- The drivers of the bridges that need no console. -/
inductive HostBridge where
  | p2a
  | ilpc
  | l2a
  | devmem
  deriving DecidableEq, Repr

/-- `struct ahb`: the driver that `drv` points to and the one whose operations `ops` points to, or
nothing that is known. -/
structure AhbPtrs where
  drv : Option HostBridge
  ops : Option HostBridge
  deriving DecidableEq

/-- `ahb_init_ops`. -/
def ahbInitOps (drv : HostBridge) : AhbPtrs := ⟨some drv, some drv⟩

/-- What a context holds outside of its memory. -/
inductive HostResource where
  | pciBar
  | barMap
  | devMem
  | ioMap
  | lpcFw
  | lpcIo
  deriving DecidableEq, Repr

def HostBridge.resources : HostBridge → List HostResource
  | .p2a => [.pciBar, .barMap]
  | .ilpc => [.lpcIo]
  | .l2a => [.lpcFw, .lpcIo]
  | .devmem => [.devMem, .ioMap]

/-- The machine that the drivers run on: the outcomes of its calls, and the accesses to the bus
`σ`, which return any values and fail in any way. -/
structure HostEnv (σ : Type) where
  arm : Bool
  malloc : Bool
  lpcInitFw : Except Errno Unit
  lpcInitIo : Except Errno Unit
  pciOpen : Except Errno Unit
  devOpen : Except Errno Unit
  mmap : Except Errno Unit
  munmap : Except Errno Unit
  io : Lpc σ
  barWritel : Nat → Word → Prog σ Unit
  p2abReadl : Word → Prog σ Word
  devmemReadl : Word → Prog σ Word

structure IlpcbMem where
  ahb : AhbPtrs
  base : Nat

structure L2abMem where
  ahb : AhbPtrs
  ilpcb : IlpcbMem
  restore7 : Word
  restore8 : Word

structure P2abMem where
  ahb : AhbPtrs
  rbar : Word

structure DevmemMem where
  ahb : AhbPtrs
  win : Bool

/-- A context of type `κ` while its driver is probed: what it holds, the revisions that `rev_probe`
found through it, and the bus behind it. -/
structure Probing (κ σ : Type) where
  ctx : κ
  held : List HostResource
  revs : List Word
  bus : σ

namespace Probing
variable {κ σ α : Type}

/-- A fresh context, whatever its memory contains. -/
def start (ctx : κ) (bus : σ) : Probing κ σ := ⟨ctx, [], [], bus⟩

def onBus (m : Prog σ α) : Prog (Probing κ σ) α :=
  Prog.zoom (fun p => p.bus) (fun p bus => { p with bus := bus }) m

def setCtx (f : κ → κ) : Prog (Probing κ σ) Unit := modify fun p => { p with ctx := f p.ctx }

def acquire (res : HostResource) (outcome : Except Errno Unit) : Prog (Probing κ σ) Unit := do
  Prog.ofExcept outcome
  modify fun p => { p with held := res :: p.held }

def release (res : HostResource) : Prog (Probing κ σ) Unit :=
  modify fun p => { p with held := p.held.filter fun r => r ≠ res }

/-- `rev_probe` through the ahb of the context. -/
def revProbe (readl : Word → Prog σ Word) : Prog (Probing κ σ) Unit := do
  let rev ← onBus (revProbeThrough readl)
  modify fun p => { p with revs := rev :: p.revs }

/-- The end of the driver probes: a failed step leads to the cleanup and to a null pointer. -/
def orCleanup (m : Prog (Probing κ σ) Unit) (cleanup : Prog (Probing κ σ) Unit)
    (next : Prog (Probing κ σ) Bool) : Prog (Probing κ σ) Bool := do
  match ← Prog.attempt m with
  | .ok () => next
  | .error _ =>
    let _ ← Prog.attempt cleanup
    return false

section
variable (env : HostEnv σ)

def ilpcbInit : Prog (Probing IlpcbMem σ) Unit := do
  setCtx fun ctx => { ctx with ahb := ahbInitOps .ilpc, base := 0x2e }
  acquire .lpcIo env.lpcInitIo

/-- 1 where there is a SuperIO and 0 where there is none. -/
def ilpcbProbe : Prog (Probing IlpcbMem σ) Nat := do
  let (found, base) ← onBus (sioProbe env.io)
  setCtx fun ctx => { ctx with base := base }
  if found then
    revProbe (ilpcbReadl ⟨env.io, base⟩)
    return 1
  else
    return 0

def ilpcbDestroy : Prog (Probing IlpcbMem σ) Unit := release .lpcIo

def ilpcbDriverProbe : Prog (Probing IlpcbMem σ) Bool :=
  if env.malloc then
    orCleanup (ilpcbInit env) (pure ()) do
      orCleanup (do let _ ← ilpcbProbe env) ilpcbDestroy (pure true)
  else pure false

def onIlpcb (m : Prog (Probing IlpcbMem σ) α) : Prog (Probing L2abMem σ) α :=
  Prog.zoom (fun p => ⟨p.ctx.ilpcb, p.held, p.revs, p.bus⟩)
    (fun p q => ⟨{ p.ctx with ilpcb := q.ctx }, q.held, q.revs, q.bus⟩) m

def l2abSaveHicr78 : Prog (Probing L2abMem σ) Unit := do
  let base := (← get).ctx.ilpcb.base
  let restore7 ← onBus (ilpcbReadl ⟨env.io, base⟩ 0x1e789088)
  setCtx fun ctx => { ctx with restore7 := restore7 }
  let restore8 ← onBus (ilpcbReadl ⟨env.io, base⟩ 0x1e78908c)
  setCtx fun ctx => { ctx with restore8 := restore8 }

/-- `l2ab_init` from its `ilpcb_probe` on, up to the initialisation of the ahb. Any value but 0
leads to its cleanup. -/
def l2abAttach : Prog (Probing L2abMem σ) Nat := do
  let rc ← onIlpcb (ilpcbProbe env)
  if rc ≠ 0 then
    return rc
  else
    l2abSaveHicr78 env
    return 0

def l2abCleanup : Prog (Probing L2abMem σ) Unit := do
  onIlpcb ilpcbDestroy
  release .lpcFw

def l2abInit : Prog (Probing L2abMem σ) Nat := do
  acquire .lpcFw env.lpcInitFw
  onIlpcb (ilpcbInit env)
  match ← Prog.attempt (l2abAttach env) with
  | .ok 0 =>
    setCtx fun ctx => { ctx with ahb := ahbInitOps .l2a }
    return 0
  | .ok rc =>
    l2abCleanup
    return rc
  | .error e =>
    l2abCleanup
    Prog.fail e

def l2abDriverProbe : Prog (Probing L2abMem σ) Bool :=
  if env.malloc then
    orCleanup (do let _ ← l2abInit env) (pure ()) (pure true)
  else pure false

def p2abInit : Prog (Probing P2abMem σ) Unit := do
  acquire .pciBar env.pciOpen
  match ← Prog.attempt (acquire .barMap env.mmap) with
  | .error e =>
    release .pciBar
    Prog.fail e
  | .ok () =>
    setCtx fun ctx => { ctx with rbar := 0 }
    let _ ← Prog.attempt (onBus (env.barWritel 0xf004 0))
    match ← Prog.attempt (onBus (env.barWritel 0xf000 1)) with
    | .error e =>
      release .barMap
      release .pciBar
      Prog.fail e
    | .ok () => setCtx fun ctx => { ctx with ahb := ahbInitOps .p2a }

def p2abDestroy : Prog (Probing P2abMem σ) Unit := do
  onBus (env.barWritel 0xf000 0)
  Prog.ofExcept env.munmap
  release .barMap
  release .pciBar

def p2abDriverProbe : Prog (Probing P2abMem σ) Bool :=
  if env.malloc then
    orCleanup (p2abInit env) (pure ()) do
      orCleanup (revProbe env.p2abReadl) (p2abDestroy env) (pure true)
  else pure false

def devmemInit : Prog (Probing DevmemMem σ) Unit := do
  acquire .devMem env.devOpen
  match ← Prog.attempt (acquire .ioMap env.mmap) with
  | .error e =>
    release .devMem
    Prog.fail e
  | .ok () => setCtx fun ctx => { ctx with win := false, ahb := ahbInitOps .devmem }

/-- It is built to fail on anything but an ARM. -/
def devmemProbe : Prog (Probing DevmemMem σ) Unit := if env.arm then revProbe env.devmemReadl else Prog.fail enotsup

def devmemDestroy : Prog (Probing DevmemMem σ) Unit := do
  if (← get).ctx.win then throw .fault
  release .ioMap
  release .devMem

def devmemDriverProbe : Prog (Probing DevmemMem σ) Bool :=
  if env.malloc then
    orCleanup (devmemInit env) (pure ()) do
      orCleanup (devmemProbe env) devmemDestroy (pure true)
  else pure false

end

end Probing

/-- The context that a driver allocates. -/
def HostBridge.Ctx : HostBridge → Type
  | .p2a => P2abMem
  | .ilpc => IlpcbMem
  | .l2a => L2abMem
  | .devmem => DevmemMem

def HostBridge.ahb : (drv : HostBridge) → drv.Ctx → AhbPtrs
  | .p2a, ctx => P2abMem.ahb ctx
  | .ilpc, ctx => IlpcbMem.ahb ctx
  | .l2a, ctx => L2abMem.ahb ctx
  | .devmem, ctx => DevmemMem.ahb ctx

/-- `driver->probe`: whether it returns an ahb. -/
def driverProbe {σ : Type} (env : HostEnv σ) : (drv : HostBridge) → Prog (Probing drv.Ctx σ) Bool
  | .p2a => Probing.p2abDriverProbe env
  | .ilpc => Probing.ilpcbDriverProbe env
  | .l2a => Probing.l2abDriverProbe env
  | .devmem => Probing.devmemDriverProbe env

end Culvert
