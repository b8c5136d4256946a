import Culvert.Ahb
import Culvert.Mmio

namespace Culvert

/-- What the `id`-th `mmap` gave: a view at `addr` of the physical bytes from `base` on. -/
structure Mapping where
  id : Nat
  addr : Nat
  base : Nat
  len : Nat
  deriving DecidableEq

/-- An access through a mapping, with the window of the context at that time. -/
structure DevmemAccess where
  view : Mapping
  addr : Nat
  len : Nat
  win : Option Mapping

/-- `struct devmem` over physical memory. `mmaps` and `munmaps` tell what the calls of these
functions return, by number; `unmapped` lists the mappings that are gone. -/
structure Devmem where
  pgsize : Size
  io : Mapping
  win : Option Mapping
  phys : Word
  len : Nat
  mmaps : Nat → Except Errno Nat
  munmaps : Nat → Except Errno Unit
  calls : Nat
  unmapped : List Nat
  mem : Mem
  ram : Mem
  touched : List DevmemAccess

def astSocIo : Word := 0x1e600000
def astSocIoLen : Word := 0x00200000

namespace Devmem

def mmap (len : Nat) (phys : Word) : Prog Devmem Mapping := fun s =>
  match s.mmaps s.calls with
  | .error e => .error (.rc e) { s with calls := s.calls + 1 }
  | .ok addr => .ok ⟨s.calls, addr, phys.toNat, len⟩ { s with calls := s.calls + 1 }

/-- Unmapping anything but a whole mapping is not modelled, and faults. -/
def munmap (m : Mapping) (len : Nat) : Prog Devmem Unit := fun s =>
  if m.len ≠ len then .error .fault s
  else match s.munmaps s.calls with
    | .error e => .error (.rc e) { s with calls := s.calls + 1 }
    | .ok () => .ok () { s with calls := s.calls + 1, unmapped := m.id :: s.unmapped }

/-- One access through `m`; it must be mapped and the bytes must lie in it. -/
def touch {α : Type} (m : Mapping) (addr n : Nat) (f : Mem → Nat → α × Mem) : Prog Devmem α := fun s =>
  let s' := { s with touched := ⟨m, addr, n, s.win⟩ :: s.touched }
  if m.id ∉ s.unmapped ∧ m.addr ≤ addr ∧ addr + n ≤ m.addr + m.len then
    .ok (f s.mem (m.base + (addr - m.addr))).1 { s' with mem := (f s.mem (m.base + (addr - m.addr))).2 }
  else .error .fault s'

def viewLoad (m : Mapping) (addr n : Nat) : Prog Devmem (List Byte) :=
  touch m addr n fun mem a => (ByteMem.read mem a n, mem)

def viewStore (m : Mapping) (addr : Nat) (bs : List Byte) : Prog Devmem Unit :=
  touch m addr bs.length fun mem a => ((), ByteMem.write mem a bs)

def ramLoad (addr n : Nat) : Prog Devmem (List Byte) := fun s => .ok (ByteMem.read s.ram addr n) s

def ramStore (addr : Nat) (bs : List Byte) : Prog Devmem Unit := fun s =>
  .ok () { s with ram := ByteMem.write s.ram addr bs }

/-- From the view `m` to the caller's memory. -/
def ingress (m : Mapping) : Copier Devmem where
  byte src dst := do ramStore dst (← viewLoad m src 1)
  word src dst := do ramStore dst (← viewLoad m src 4)

/-- From the caller's memory to the view `m`. -/
def egress (m : Mapping) : Copier Devmem where
  byte src dst := do viewStore m dst (← ramLoad src 1)
  word src dst := do viewStore m dst (← ramLoad src 4)

end Devmem

def devmemAligned (pgsize : Size) (phys : Word) : Word := (phys.setWidth 64 &&& ~~~(pgsize - 1)).setWidth 32
def devmemOffset (pgsize : Size) (phys : Word) : Word := (phys.setWidth 64 &&& (pgsize - 1)).setWidth 32

/-- `ctx->win`, which the callers use without a check. -/
def devmemWin : Prog Devmem Mapping := do
  match (← get).win with
  | some win => return win
  | none => throw .fault

def devmemOpenWin (aligned : Word) (offset len : Nat) : Prog Devmem Nat := do
  if (← get).win.isNone then
    let win ← Devmem.mmap (offset + len) aligned
    modify fun ctx => { ctx with win := some win, phys := aligned, len := offset + len }
  return offset

/-- `devmem_setup_win` up to its `return offset`. -/
def devmemMapWin (phys : Word) (len : Nat) : Prog Devmem Nat := do
  let ctx ← get
  let aligned := devmemAligned ctx.pgsize phys
  let offset := (devmemOffset ctx.pgsize phys).toNat
  if let some win := ctx.win then
    if ¬ (ctx.phys = aligned ∧ ctx.len ≥ offset + len) then
      Devmem.munmap win ctx.len
      modify fun ctx => { ctx with win := none }
  devmemOpenWin aligned offset len

def devmemSetupWin (phys : Word) (len : Nat) : Prog Devmem Nat := do
  match ← Prog.attempt (devmemMapWin phys len) with
  | .ok offset => return offset
  | .error e =>
    modify fun ctx => { ctx with win := none, phys := 0, len := 0 }
    Prog.fail e

def devmemRead (phys : Word) (buf len : Nat) : Prog Devmem Unit := do
  if len > ssizeMax then Prog.fail eperm
  let woff ← orMinusOne (devmemSetupWin phys len)
  let win ← devmemWin
  mmioMemcpy (Devmem.ingress win) buf (win.addr + woff) len

def devmemWrite (phys : Word) (buf len : Nat) : Prog Devmem Unit := do
  if len > ssizeMax then Prog.fail eperm
  let woff ← orMinusOne (devmemSetupWin phys len)
  let win ← devmemWin
  mmioMemcpy (Devmem.egress win) (win.addr + woff) buf len

/-- `phys` is served from the SoC I/O mapping. -/
def InSocIo (phys : Word) : Prop := phys ≥ astSocIo ∧ phys < astSocIo + astSocIoLen

instance (phys : Word) : Decidable (InSocIo phys) := inferInstanceAs (Decidable (_ ∧ _))

def devmemReadl (phys : Word) : Prog Devmem Word := do
  if phys &&& 3 ≠ 0 then Prog.fail einval
  if InSocIo phys then
    let io := (← get).io
    let container ← Devmem.viewLoad io (io.addr + (phys - astSocIo).toNat) 4
    return ByteMem.wordOf container
  else
    let woff ← devmemSetupWin phys 4
    let win ← devmemWin
    let container ← Devmem.viewLoad win (win.addr + woff) 4
    return ByteMem.wordOf container

def devmemWritel (phys val : Word) : Prog Devmem Unit := do
  if phys &&& 3 ≠ 0 then Prog.fail einval
  if InSocIo phys then
    let io := (← get).io
    Devmem.viewStore io (io.addr + (phys - astSocIo).toNat) val.bytes
  else
    let woff ← devmemSetupWin phys 4
    let win ← devmemWin
    Devmem.viewStore win (win.addr + woff) val.bytes

/-- `sysconf` and `open` are given by what they return. `phys` and `len` are not assigned. -/
def devmemInit (pgsize : Size) (opened : Except Errno Unit) : Prog Devmem Unit := do
  modify fun ctx => { ctx with pgsize := pgsize }
  match opened with
  | .error e => Prog.fail e
  | .ok () =>
    let io ← Devmem.mmap astSocIoLen.toNat astSocIo
    modify fun ctx => { ctx with io := io, win := none }

/-- The operations of `devmem_ahb_ops`, on a buffer at `buf`. -/
def devmemCall (buf : Nat) : MemOp → Prog Devmem MemReply
  | .read phys len => do
    devmemRead phys buf len
    return .bytes (← Devmem.ramLoad buf len)
  | .write phys bs => do
    Devmem.ramStore buf bs
    devmemWrite phys buf bs.length
    return .done
  | .readl phys => do return .word (← devmemReadl phys)
  | .writel phys val => do devmemWritel phys val; return .done

end Culvert
