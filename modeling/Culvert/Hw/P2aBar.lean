import Culvert.Lib.ByteMem

namespace Culvert

/-- BAR 1 of the VGA function. The lower half is registers, kept as the bytes last stored in them;
byte `0x10000 + o` of the upper half is the AHB byte at RBAR + `o`. -/
structure P2aBar where
  regs : Mem
  ahb : Mem

namespace P2aBar

def rbar (d : P2aBar) : Word := ByteMem.readWord d.regs 0xf004
def pkr (d : P2aBar) : Word := ByteMem.readWord d.regs 0xf000

/-- The `n` bytes from offset `o` on, which lie in one half of the BAR. -/
def load (d : P2aBar) (o n : Nat) : List Byte :=
  if 0x10000 ≤ o then ByteMem.read d.ahb (d.rbar.toNat + (o - 0x10000)) n else ByteMem.read d.regs o n

def store (d : P2aBar) (o : Nat) (bs : List Byte) : P2aBar :=
  if 0x10000 ≤ o then { d with ahb := ByteMem.write d.ahb (d.rbar.toNat + (o - 0x10000)) bs }
  else { d with regs := ByteMem.write d.regs o bs }

theorem load_window (d : P2aBar) (k n : Nat) :
    d.load (0x10000 + k) n = ByteMem.read d.ahb (d.rbar.toNat + k) n := by
  rw [load, if_pos (by omega), Nat.add_sub_cancel_left]

theorem store_window (d : P2aBar) (k : Nat) (bs : List Byte) :
    d.store (0x10000 + k) bs = { d with ahb := ByteMem.write d.ahb (d.rbar.toNat + k) bs } := by
  rw [store, if_pos (by omega), Nat.add_sub_cancel_left]

theorem store_rbar (d : P2aBar) (w : Word) : (d.store 0xf004 w.bytes).rbar = w ∧
    (d.store 0xf004 w.bytes).pkr = d.pkr ∧ (d.store 0xf004 w.bytes).ahb = d.ahb := by
  rw [store, if_neg (by omega)]
  refine ⟨ByteMem.readWord_write _ _ _, ?_, rfl⟩
  exact ByteMem.readWord_write_of_disjoint (Or.inl (by omega))

theorem store_pkr (d : P2aBar) (w : Word) : (d.store 0xf000 w.bytes).pkr = w ∧
    (d.store 0xf000 w.bytes).rbar = d.rbar ∧ (d.store 0xf000 w.bytes).ahb = d.ahb := by
  rw [store, if_neg (by omega)]
  refine ⟨ByteMem.readWord_write _ _ _, ?_, rfl⟩
  exact ByteMem.readWord_write_of_disjoint (Or.inr (by simp))

end P2aBar

end Culvert
