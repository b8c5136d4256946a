import Culvert.Lib.ByteMem
import Culvert.Lib.Run

/-- What a client asks of a memory with 32-bit addresses. -/
inductive MemOp where
  | read (addr : Word) (len : Nat)
  | write (addr : Word) (bytes : List Byte)
  | readl (addr : Word)
  | writel (addr : Word) (val : Word)
  deriving DecidableEq

/-- What an operation on the memory answers. -/
inductive MemReply where
  | bytes (bs : List Byte)
  | word (w : Word)
  | done
  deriving DecidableEq

namespace MemOp

def addr : MemOp → Word
  | .read a _ | .write a _ | .readl a | .writel a _ => a

def len : MemOp → Nat
  | .read _ n => n
  | .write _ bs => bs.length
  | .readl _ | .writel _ _ => 4

/-- The bytes asked for lie below `2 ^ 32`. -/
def InRange (op : MemOp) : Prop := op.addr.toNat + op.len ≤ 2 ^ 32

instance (op : MemOp) : Decidable op.InRange := inferInstanceAs (Decidable (_ ≤ _))

/-- In range, and of an aligned word if of a word. -/
def Plain (op : MemOp) : Prop :=
  op.InRange ∧ match op with
    | .readl phys | .writel phys _ => phys &&& 3 = 0
    | _ => True

theorem plain_readl_iff {phys : Word} : (readl phys).Plain ↔ phys.toNat + 4 ≤ 2 ^ 32 ∧ phys &&& 3 = 0 := Iff.rfl

theorem plain_writel_iff {phys val : Word} : (writel phys val).Plain ↔ phys.toNat + 4 ≤ 2 ^ 32 ∧ phys &&& 3 = 0 := Iff.rfl

/-- The answer of a flat little-endian byte memory. -/
def flatReply (m : Mem) : MemOp → MemReply
  | .read a n => .bytes (ByteMem.read m a.toNat n)
  | .write _ _ => .done
  | .readl a => .word (ByteMem.readWord m a.toNat)
  | .writel _ _ => .done

/-- What the operation leaves in a flat little-endian byte memory. -/
def flatUpdate (m : Mem) : MemOp → Mem
  | .read _ _ => m
  | .write a bs => ByteMem.write m a.toNat bs
  | .readl _ => m
  | .writel a w => ByteMem.writeWord m a.toNat w

end MemOp

/-- One call on a flat byte memory and its answer. -/
def FlatStep (m : Mem) (e : MemOp × MemReply) (m' : Mem) : Prop := e.2 = e.1.flatReply m ∧ m' = e.1.flatUpdate m

/-- One call that may also fail, and then leaves the memory as it is. -/
def FlatOrFail {ε : Type} (m : Mem) (e : MemOp × Except ε MemReply) (m' : Mem) : Prop :=
  match e.2 with
  | .ok reply => FlatStep m (e.1, reply) m'
  | .error _ => m' = m
