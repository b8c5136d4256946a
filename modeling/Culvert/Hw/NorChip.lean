import Culvert.Flash.Chip
import Culvert.Lib.Bits

namespace Culvert

/-- What changes the array of a NOR chip. -/
inductive NorOp where
  | program (addr : Word) (bs : List Byte)
  | erase (op : Byte) (addr : Word)
  deriving DecidableEq, Repr

/-- A NOR chip with the erase opcodes of `flags`. A program or an erase takes as many status reads as
`latency` says for it; `ops` lists those that the write enable latch let through, latest first. -/
structure NorChip where
  mem : Mem
  flags : Word
  wel : Bool
  busy : Nat
  latency : Nat → Nat
  ops : List NorOp

namespace NorChip

/-- The block of an erase opcode. -/
def blockSize (flags : Word) (op : Byte) : Option Nat :=
  if op = cmdSe ∧ flags &&& flErase4k ≠ 0 then some 0x1000
  else if op = cmdBe32k ∧ flags &&& flErase32k ≠ 0 then some 0x8000
  else if op = cmdBe ∧ flags &&& flErase64k ≠ 0 then some 0x10000
  else none

/-- The bytes of a page program are anded to the array and wrap around in their page. -/
def programPage (page : Nat) : Nat → List Byte → Mem → Mem
  | _, [], mem => mem
  | off, b :: bs, mem =>
    let a := page + off % 0x100
    programPage page (off + 1) bs (ByteMem.write mem a [mem a &&& b])

/-- The aligned block of `size` bytes around `a` is set to ones. -/
def eraseBlock (size a : Nat) (mem : Mem) : Mem := fun x => if x / size = a / size then 0xff else mem x

def apply (flags : Word) : NorOp → Mem → Mem
  | .program addr bs, mem => programPage (addr.toNat / 0x100 * 0x100) (addr.toNat % 0x100) bs mem
  | .erase op addr, mem =>
    match blockSize flags op with
    | some size => eraseBlock size addr.toNat mem
    | none => mem

/-- A program or an erase, which the write enable latch and an idle chip let through. -/
def modify (d : NorChip) (op : NorOp) : NorChip :=
  if d.wel = true ∧ d.busy = 0 then
    { d with mem := apply d.flags op d.mem, wel := false, busy := d.latency d.ops.length, ops := op :: d.ops }
  else d

def write (op : Byte) (addr : Option Word) (buf : List Byte) (d : NorChip) : NorChip :=
  match addr with
  | none => if op = cmdWren ∧ d.busy = 0 then { d with wel := true } else d
  | some addr =>
    if op = cmdPp then d.modify (.program addr buf)
    else if op ∈ [cmdSe, cmdBe32k, cmdBe] then d.modify (.erase op addr)
    else d

def status (d : NorChip) : Byte :=
  (if d.busy = 0 then 0 else statWip) ||| (if d.wel = true then statWen else 0)

/-- The array, which a busy chip does not show. -/
def array (addr : Word) (n : Nat) (d : NorChip) : List Byte :=
  if d.busy = 0 then ByteMem.read d.mem addr.toNat n else List.replicate n 0xff

def read (op : Byte) (addr : Option Word) (n : Nat) (d : NorChip) : List Byte × NorChip :=
  if op = cmdRdsr then (List.replicate n d.status, { d with busy := d.busy - 1 })
  else
    match addr with
    | some addr => if op = cmdRead then (d.array addr n, d) else (List.replicate n 0, d)
    | none => (List.replicate n 0, d)

/-- A controller whose commands reach the chip, with or without a high level read. -/
def sfc (direct switches : Bool) (finfo : FlashInfo) : Sfc NorChip where
  setup := none
  set4b := if switches then some fun _ _ => pure () else none
  chipId := none
  directRead := if direct then some fun addr n => do return (← get).array addr n else none
  write := none
  erase := none
  rd := some fun op addr n d => .ok (d.read op addr n).1 (d.read op addr n).2
  wr := some fun op addr buf d => .ok () (d.write op addr buf)
  finfo := some finfo

/-- `bs` anded to the bytes from `a` on. -/
def anded (mem : Mem) (a : Nat) (bs : List Byte) : Mem :=
  ByteMem.write mem a (List.zipWith (· &&& ·) (ByteMem.read mem a bs.length) bs)

section
variable {mem : Mem} {a x : Nat} {bs cs : List Byte}

theorem anded_outside (outside : x < a ∨ a + bs.length ≤ x) : anded mem a bs x = mem x := by
  rcases outside with below | above
  · exact ByteMem.write_below below
  · exact ByteMem.write_above (by simpa using above)

theorem anded_inside {i : Nat} (inside : i < bs.length) : anded mem a bs (a + i) = mem (a + i) &&& bs[i] := by
  rw [anded, ByteMem.write_inside (by simpa using inside), List.getElem_zipWith]
  simp [ByteMem.read]

theorem anded_append : anded mem a (bs ++ cs) = anded (anded mem a bs) (a + bs.length) cs := by
  have total : (bs ++ cs).length = bs.length + cs.length := List.length_append
  funext x
  by_cases before : x < a + bs.length
  · have late : anded (anded mem a bs) (a + bs.length) cs x = anded mem a bs x := anded_outside (Or.inl before)
    rw [late]
    by_cases below : x < a
    · rw [anded_outside (Or.inl below), anded_outside (Or.inl below)]
    · obtain ⟨i, rfl⟩ : ∃ i, x = a + i := ⟨x - a, by omega⟩
      have inside : i < bs.length := by omega
      rw [anded_inside inside, anded_inside (by omega : i < (bs ++ cs).length), List.getElem_append_left inside]
  · have early : anded mem a bs x = mem x := anded_outside (Or.inr (by omega))
    by_cases above : a + bs.length + cs.length ≤ x
    · have late : anded (anded mem a bs) (a + bs.length) cs x = anded mem a bs x := anded_outside (Or.inr above)
      rw [late, early, anded_outside (Or.inr (by omega))]
    · obtain ⟨i, rfl⟩ : ∃ i, x = a + bs.length + i := ⟨x - (a + bs.length), by omega⟩
      have inside : i < cs.length := by omega
      rw [anded_inside inside, early, Nat.add_assoc, anded_inside (by omega : bs.length + i < (bs ++ cs).length),
        List.getElem_append_right (by omega)]
      simp

/-- Where the array has all the bits of `bs`, anding stores them. -/
theorem anded_eq_write (covered : ∀ i (inside : i < bs.length), bs[i] &&& ~~~mem (a + i) = 0) :
    anded mem a bs = ByteMem.write mem a bs := by
  funext x
  by_cases below : x < a
  · rw [anded_outside (Or.inl below), ByteMem.write_below below]
  by_cases above : a + bs.length ≤ x
  · rw [anded_outside (Or.inr above), ByteMem.write_above above]
  obtain ⟨i, rfl⟩ : ∃ i, x = a + i := ⟨x - a, by omega⟩
  have inside : i < bs.length := by omega
  rw [anded_inside inside, ByteMem.write_inside inside]
  exact BitVec.and_eq_of_sub (covered i inside)

/-- A program that stays in its page only ands its bytes. -/
theorem programPage_eq {page off : Nat} (fits : off + bs.length ≤ 0x100) :
    programPage page off bs mem = anded mem (page + off) bs := by
  induction bs generalizing off mem with
  | nil => simp [programPage, anded]
  | cons b bs ih =>
    rw [List.length_cons] at fits
    rw [programPage, Nat.mod_eq_of_lt (by omega), ih (by omega)]
    have single : ByteMem.write mem (page + off) [mem (page + off) &&& b] = anded mem (page + off) [b] := rfl
    rw [single, ← Nat.add_assoc]
    exact anded_append.symm

end

end NorChip

end Culvert
