import Culvert.Flash.Init
import Culvert.Soc.Bus

namespace Culvert

/-- The registers of an SoC, and a flash chip that need not do as it is told: the command with the number
`k` leaves `leaves k` in the region that it is for, and `answers k` is read back where it is not the array
that is read. -/
structure Board where
  regs : Regs
  mem : Mem
  turn : Nat
  leaves : Nat → Mem
  answers : Nat → Byte → Mem

namespace Board

/-- The registers are behind the bus. -/
def bus : Bus Board where
  readl phys b := (b.regs phys, b)
  writel phys val b := { b with regs := Function.update b.regs phys val }

/-- The address is in the aligned region of `size` bytes around `addr`. -/
def around (size : Nat) (addr : Word) (x : Nat) : Bool := x / size = addr.toNat / size

/-- The addresses whose bytes a command may change. -/
def reaches (op : Byte) : Option Word → Nat → Bool
  | none, _ => op = cmdCe ∨ op = cmdMicBulkErase
  | some addr, x =>
    if op = cmdPp then around 0x100 addr x
    else if op = cmdSe then around 0x1000 addr x
    else if op = cmdBe32k then around 0x8000 addr x
    else if op = cmdBe then around 0x10000 addr x
    else false

def command (op : Byte) (addr : Option Word) (b : Board) : Board :=
  { b with
    mem := fun x => if reaches op addr x then b.leaves b.turn x else b.mem x
    turn := b.turn + 1 }

def array (addr : Word) (n : Nat) (b : Board) : List Byte := ByteMem.read b.mem addr.toNat n

def answer (op : Byte) (addr : Option Word) (n : Nat) (b : Board) : List Byte :=
  match addr with
  | some addr => if op = cmdRead then b.array addr n else ByteMem.read (b.answers b.turn op) 0 n
  | none => ByteMem.read (b.answers b.turn op) 0 n

/-- A controller in front of the chip. A command may fail before it is carried out or afterwards. -/
def sfc (direct switches : Bool) (finfo : Option FlashInfo) : Sfc (Faulty Board) where
  setup := none
  set4b := if switches then some fun _ _ => pure () else none
  chipId := none
  directRead := if direct then some fun addr n => Faulty.access fun b => (b.array addr n, b) else none
  write := none
  erase := none
  rd := some fun op addr n => do
    Faulty.access fun b => ((), b.command op addr)
    Faulty.access fun b => (b.answer op addr n, b)
  wr := some fun op addr _ => do
    Faulty.access fun b => ((), b.command op addr)
    Faulty.access fun b => ((), b)
  finfo := finfo

/-- Only the bytes from `lo` on and below `hi` may differ. -/
def Spares (lo hi : Nat) (s s' : Faulty Board) : Prop := ∀ x, x < lo ∨ hi ≤ x → s'.dev.mem x = s.dev.mem x

instance (lo hi : Nat) : IsPreorder (Faulty Board) (Spares lo hi) where
  refl _ _ _ := rfl
  trans _ _ _ first second x outside := (second x outside).trans (first x outside)

end Board

end Culvert
