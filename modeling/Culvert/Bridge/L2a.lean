import Culvert.Bridge.IlpcFlat

namespace Culvert

def lpcHicr7 : Word := 0x1e789088
def lpcHicr8 : Word := 0x1e78908c
def l2abWindowSize : Size := 0x8000000

/-- An early return of `l2ab_map`: the cached window, and what the registers held. -/
structure L2abHit where
  phys : Word
  len : Size
  hicr7 : Word
  hicr8 : Word

/-- `struct l2ab` over a SuperIO whose AHB memory has HICR7 and HICR8. `fwReads` and `fwWrites` are
what the transfers through the LPC firmware space return, by number. `mapped` tells whether some
`l2ab_map` has written both registers, and no write since has stored anything else in them. -/
structure L2ab where
  sio : Faulty SuperIo
  fwReads : Nat → Except Errno (List Byte)
  fwWrites : Nat → Except Errno Nat
  transfers : Nat
  phys : Word
  len : Size
  restore7 : Word
  restore8 : Word
  mapped : Bool
  hits : List L2abHit

/-- `len` expanded to the start of the 64 KiB page of `phys`, and made a power of two. -/
def l2abWindow (phys : Word) (len : Size) : Size :=
  let fromAligned := phys.setWidth 64 + len - (phys &&& ~~~0xffff).setWidth 64
  let len := if len < fromAligned then fromAligned else len
  let len := if len < 0x10000 then 0x10000 else len
  if (len.setWidth 32 : Word).cpop ≠ 1 then (1 : Size) <<< (31 - (len.setWidth 32 : Word).clz.toNat) else len

def l2abHicr8 (len : Size) : Word := (~~~(len - 1) ||| (len - 1) >>> 16).setWidth 32

namespace L2ab

def hicr7 (s : L2ab) : Word := ByteMem.readWord s.sio.dev.ahb lpcHicr7.toNat
def hicr8 (s : L2ab) : Word := ByteMem.readWord s.sio.dev.ahb lpcHicr8.toNat

/-- The request lies in the cached window, as `l2ab_map` checks it. -/
def Fits (s : L2ab) (phys : Word) (len : Size) : Prop :=
  s.phys ≤ phys ∧ phys.setWidth 64 + len ≤ s.phys.setWidth 64 + s.len

instance (s : L2ab) (phys : Word) (len : Size) : Decidable (s.Fits phys len) := inferInstanceAs (Decidable (_ ∧ _))

/-- What the register must hold for the cached window. -/
def wanted (s : L2ab) (reg : Word) : Word := if reg = lpcHicr7 then s.phys else l2abHicr8 s.len

def ilpcb {α : Type} (m : Prog (Faulty SuperIo) α) : Prog L2ab α := Prog.zoom L2ab.sio (fun s io => { s with sio := io }) m

end L2ab

section
variable (base : Nat)

def l2abHicrWritel (reg val : Word) : Prog L2ab Unit := do
  L2ab.ilpcb (ilpcbWritel (superIo base) reg val)
  modify fun ctx => { ctx with mapped := ctx.mapped && val == ctx.wanted reg }

/-- The offset of `phys` in the LPC firmware space. -/
def l2abMap (phys : Word) (len : Size) : Prog L2ab Nat := do
  let ctx ← get
  if ctx.Fits phys len then
    set { ctx with hits := ⟨ctx.phys, ctx.len, ctx.hicr7, ctx.hicr8⟩ :: ctx.hits }
    return (phys - ctx.phys).toNat
  if len > l2abWindowSize then Prog.fail einval
  let window := l2abWindow phys len
  let hicr7 := phys &&& ~~~0xffff
  let hicr8 := l2abHicr8 window
  l2abHicrWritel base lpcHicr7 hicr7
  l2abHicrWritel base lpcHicr8 hicr8
  modify fun ctx => { ctx with phys := hicr7, len := window, mapped := true }
  return (phys &&& 0xffff).toNat

/-- `lpc_read` and `lpc_write` of the firmware space. -/
def l2abFwRead : Prog L2ab (List Byte) := do
  let ctx ← get
  set { ctx with transfers := ctx.transfers + 1 }
  match ctx.fwReads ctx.transfers with
  | .ok bs => return bs
  | .error e => Prog.fail e

def l2abFwWrite : Prog L2ab Nat := do
  let ctx ← get
  set { ctx with transfers := ctx.transfers + 1 }
  match ctx.fwWrites ctx.transfers with
  | .ok n => return n
  | .error e => Prog.fail e

def l2abChunk (remaining : Size) : Size := if remaining > l2abWindowSize then l2abWindowSize else remaining

def l2abReadTurn : Word × Size × List Byte → Prog L2ab (Word × Size × List Byte ⊕ List Byte)
  | (phys, remaining, got) => do
    let _ ← orMinusOne (l2abMap base phys (l2abChunk remaining))
    let bs ← orMinusOne l2abFwRead
    let remaining := remaining - BitVec.ofNat 64 bs.length
    if remaining = 0 then return .inr (got ++ bs)
    return .inl (phys + BitVec.ofNat 32 bs.length, remaining, got ++ bs)

def l2abRead (fuel : Nat) (phys : Word) (len : Size) : Prog L2ab (List Byte) := do
  if len.toNat > ssizeMax then Prog.fail eperm
  Prog.loop (l2abReadTurn base) fuel (phys, len, [])

def l2abWriteTurn : Word × Size → Prog L2ab (Word × Size ⊕ Unit)
  | (phys, remaining) => do
    let _ ← orMinusOne (l2abMap base phys (l2abChunk remaining))
    let egress ← orMinusOne l2abFwWrite
    let remaining := remaining - BitVec.ofNat 64 egress
    if remaining = 0 then return .inr ()
    return .inl (phys + BitVec.ofNat 32 egress, remaining)

def l2abWrite (fuel : Nat) (phys : Word) (len : Size) : Prog L2ab Unit := do
  if len.toNat > ssizeMax then Prog.fail eperm
  Prog.loop (l2abWriteTurn base) fuel (phys, len)

def l2abSaveHicr78 : Prog L2ab Unit := do
  let restore7 ← L2ab.ilpcb (ilpcbReadl (superIo base) lpcHicr7)
  modify fun ctx => { ctx with restore7 := restore7 }
  let restore8 ← L2ab.ilpcb (ilpcbReadl (superIo base) lpcHicr8)
  modify fun ctx => { ctx with restore8 := restore8 }

def l2abRestoreHicr78 : Prog L2ab Unit := do
  l2abHicrWritel base lpcHicr8 (← get).restore8
  l2abHicrWritel base lpcHicr7 (← get).restore7

end

/-- What a client of the bridge asks for. -/
inductive L2abOp where
  | map (phys : Word) (len : Size)
  | read (phys : Word) (len : Size)
  | write (phys : Word) (len : Size)
  | release
  | reinit

def l2abCall (base fuel : Nat) : L2abOp → Prog L2ab Unit
  | .map phys len => do let _ ← l2abMap base phys len
  | .read phys len => do let _ ← l2abRead base fuel phys len
  | .write phys len => l2abWrite base fuel phys len
  | .release => l2abRestoreHicr78 base
  | .reinit => l2abSaveHicr78 base

end Culvert
