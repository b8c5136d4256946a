import Culvert.Ahb
import Culvert.Hw.P2aBar
import Culvert.Mmio

namespace Culvert

/-- An access to the mapping, with RBAR, PKR and `ctx->rbar` as they were. -/
structure P2abAccess where
  addr : Nat
  len : Nat
  rbar : Word
  pkr : Word
  cached : Word

/-- `struct p2ab` with the BAR it maps at `mmio` and the memory of its callers. `touched` records the
accesses to the mapping, `violations` counts the asserts that did not hold, which a build with `NDEBUG`
does not check. -/
structure P2ab where
  mmio : Nat
  rbar : Word
  bar : P2aBar
  ram : Mem
  touched : List P2abAccess
  ndebug : Bool
  violations : Nat

namespace P2ab

def access (s : P2ab) (addr n : Nat) : P2abAccess := ⟨addr, n, s.bar.rbar, s.bar.pkr, s.rbar⟩

/-- One access to the mapping; outside of its 128 KiB there is nothing to access. -/
def touch {α : Type} (addr n : Nat) (f : P2aBar → Nat → α × P2aBar) : Prog P2ab α := fun s =>
  let s' := { s with touched := s.access addr n :: s.touched }
  if s.mmio ≤ addr ∧ addr + n ≤ s.mmio + 0x20000 then
    .ok (f s.bar (addr - s.mmio)).1 { s' with bar := (f s.bar (addr - s.mmio)).2 }
  else .error .fault s'

def barLoad (addr n : Nat) : Prog P2ab (List Byte) := touch addr n fun bar o => (bar.load o n, bar)

def barStore (addr : Nat) (bs : List Byte) : Prog P2ab Unit := touch addr bs.length fun bar o => ((), bar.store o bs)

def ramLoad (addr n : Nat) : Prog P2ab (List Byte) := fun s => .ok (ByteMem.read s.ram addr n) s

def ramStore (addr : Nat) (bs : List Byte) : Prog P2ab Unit := fun s =>
  .ok () { s with ram := ByteMem.write s.ram addr bs }

/-- From the mapping to the caller's memory. -/
def ingress : Copier P2ab where
  byte src dst := do ramStore dst (← barLoad src 1)
  word src dst := do ramStore dst (← barLoad src 4)

/-- From the caller's memory to the mapping. -/
def egress : Copier P2ab where
  byte src dst := do barStore dst (← ramLoad src 1)
  word src dst := do barStore dst (← ramLoad src 4)

def assert (p : Prop) [Decidable p] : Prog P2ab Unit := fun s =>
  if p then .ok () s
  else if s.ndebug then .ok () { s with violations := s.violations + 1 }
  else .error .fault { s with violations := s.violations + 1 }

theorem run_assert {p : Prop} [Decidable p] (holds : p) (s : P2ab) : (assert p).run s = .ok () s := if_pos holds

theorem run_assert_violated {p : Prop} [Decidable p] (fails : ¬ p) (s : P2ab) : (assert p).run s =
    if s.ndebug then .ok () { s with violations := s.violations + 1 }
    else .error .fault { s with violations := s.violations + 1 } := if_neg fails

end P2ab

def p2abPkr : Nat := 0xf000
def p2abRbar : Nat := 0xf004
def p2abRbarRemapMask : Word := 0xffff0000
def p2abWindowBase : Nat := 0x10000
def p2abWindowLen : Nat := 0x10000

/-- `__p2ab_writel`. -/
def p2abRegWritel (addr : Nat) (val : Word) : Prog P2ab Unit := do
  P2ab.assert (addr < 0x20000 - 4 + 1)
  P2ab.assert (addr % 4 = 0)
  P2ab.barStore ((← get).mmio + addr) val.bytes

def p2abUnlock : Prog P2ab Unit := p2abRegWritel p2abPkr 1

/-- Move the window to `phys`, unless it is there; the offset of `phys` in it. -/
def p2abMap (phys : Word) : Prog P2ab Nat := do
  let rbar := phys &&& p2abRbarRemapMask
  let offset := phys &&& ~~~p2abRbarRemapMask
  if (← get).rbar = rbar then return offset.toNat
  p2abRegWritel p2abRbar rbar
  modify fun ctx => { ctx with rbar := rbar }
  return offset.toNat

/-- The size of the next copy in both loops; where `phys` lies in its window plays no part in it. -/
def p2abChunk (remaining : Nat) : Nat := if remaining > p2abWindowLen then p2abWindowLen else remaining

theorem p2abChunk_of_le {remaining : Nat} (small : remaining ≤ 0x10000) : p2abChunk remaining = remaining := by
  rw [p2abChunk, if_neg (by simp only [p2abWindowLen]; omega)]

theorem p2abChunk_of_gt {remaining : Nat} (big : 0x10000 < remaining) : p2abChunk remaining = 0x10000 := by
  rw [p2abChunk, if_pos (by simpa only [p2abWindowLen] using big), p2abWindowLen]

theorem p2abChunk_progress {remaining : Nat} (more : remaining - p2abChunk remaining ≠ 0) :
    remaining - p2abChunk remaining < remaining := by
  by_cases small : remaining ≤ 0x10000
  · rw [p2abChunk_of_le small] at more
    omega
  · rw [p2abChunk_of_gt (by omega)]
    omega

def p2abReadLoop (phys : Word) (buf remaining : Nat) : Prog P2ab Unit := do
  let ingress := p2abChunk remaining
  let rc ← orMinusOne (p2abMap phys)
  mmioMemcpy P2ab.ingress buf ((← get).mmio + p2abWindowBase + rc) ingress
  if _more : remaining - ingress ≠ 0 then
    p2abReadLoop (phys + BitVec.ofNat 32 ingress) (buf + ingress) (remaining - ingress)
termination_by remaining
decreasing_by exact p2abChunk_progress (by assumption)

def p2abRead (phys : Word) (buf len : Nat) : Prog P2ab Unit := do
  if len > ssizeMax then Prog.fail eperm
  p2abReadLoop phys buf len

def p2abWriteLoop (phys : Word) (buf remaining : Nat) : Prog P2ab Unit := do
  let egress := p2abChunk remaining
  let rc ← orMinusOne (p2abMap phys)
  mmioMemcpy P2ab.egress ((← get).mmio + p2abWindowBase + rc) buf egress
  if _more : remaining - egress ≠ 0 then
    p2abWriteLoop (phys + BitVec.ofNat 32 egress) (buf + egress) (remaining - egress)
termination_by remaining
decreasing_by exact p2abChunk_progress (by assumption)

def p2abWrite (phys : Word) (buf len : Nat) : Prog P2ab Unit := do
  if len > ssizeMax then Prog.fail eperm
  p2abWriteLoop phys buf len

def p2abReadl (phys : Word) : Prog P2ab Word := do
  if phys &&& 3 ≠ 0 then Prog.fail einval
  let rc ← p2abMap phys
  let le ← P2ab.barLoad ((← get).mmio + p2abWindowBase + rc) 4
  return ByteMem.wordOf le

def p2abWritel (phys val : Word) : Prog P2ab Unit := do
  let rc ← p2abMap phys
  P2ab.barStore ((← get).mmio + p2abWindowBase + rc) val.bytes

/-- `pci_open` and `mmap` are given by their outcomes. -/
def p2abInit (pciOpen : Except Errno Unit) (mmap : Except Errno Nat) : Prog P2ab Unit := do
  match pciOpen with
  | .error e => Prog.fail e
  | .ok () =>
    match mmap with
    | .error e => Prog.fail e
    | .ok addr =>
      modify fun ctx => { ctx with mmio := addr, rbar := 0 }
      p2abRegWritel p2abRbar 0
      p2abUnlock

/-- The operations of `p2ab_ahb_ops`, on a buffer at `buf`. -/
def p2abCall (buf : Nat) : MemOp → Prog P2ab MemReply
  | .read phys len => do
    p2abRead phys buf len
    return .bytes (← P2ab.ramLoad buf len)
  | .write phys bs => do
    P2ab.ramStore buf bs
    p2abWrite phys buf bs.length
    return .done
  | .readl phys => do return .word (← p2abReadl phys)
  | .writel phys val => do p2abWritel phys val; return .done

end Culvert
