import Culvert.Lib.ByteMem
import Culvert.Mmio

/-! `mmio_memcpy` between two places of one memory, with the accesses it makes. -/

namespace Culvert

/-- An access to the memory, with its width in bytes. -/
inductive MmioAccess where
  | load (addr width : Nat)
  | store (addr width : Nat)
  deriving DecidableEq, Repr

namespace MmioAccess

def addr : MmioAccess → Nat
  | load addr _ => addr
  | store addr _ => addr

def width : MmioAccess → Nat
  | load _ width => width
  | store _ width => width

/-- The byte at `x` is among those that are loaded. -/
def loads (x : Nat) : MmioAccess → Bool
  | load addr width => addr ≤ x ∧ x < addr + width
  | store _ _ => false

def stores (x : Nat) : MmioAccess → Bool
  | load _ _ => false
  | store addr width => addr ≤ x ∧ x < addr + width

@[simp] theorem loads_load (x addr width : Nat) : (load addr width).loads x = decide (addr ≤ x ∧ x < addr + width) := rfl
@[simp] theorem loads_store (x addr width : Nat) : (store addr width).loads x = false := rfl
@[simp] theorem stores_load (x addr width : Nat) : (load addr width).stores x = false := rfl
@[simp] theorem stores_store (x addr width : Nat) :
    (store addr width).stores x = decide (addr ≤ x ∧ x < addr + width) := rfl

/-- What is loaded lies in the `len` bytes from `src` on, what is stored in those from `dst` on. -/
def Inside (src dst len : Nat) : MmioAccess → Prop
  | load addr width => src ≤ addr ∧ addr + width ≤ src + len
  | store addr width => dst ≤ addr ∧ addr + width ≤ dst + len

end MmioAccess

/-- Memory, and the accesses that have been made to it, in their order. -/
structure MmioBus where
  mem : Mem
  accesses : List MmioAccess

/-- `*dst = *src` for a type that is so many bytes wide. -/
def mmioAssign (width src dst : Nat) : Prog MmioBus Unit := modify fun s =>
  ⟨ByteMem.write s.mem dst (ByteMem.read s.mem src width), s.accesses ++ [.load src width, .store dst width]⟩

def mmioCopier : Copier MmioBus where
  byte := mmioAssign 1
  word := mmioAssign 4

/-- The accesses that copy `k` bytes from `src` to `dst`. -/
structure MmioCopied (src dst k : Nat) (accesses : List MmioAccess) : Prop where
  inside : ∀ a ∈ accesses, a.Inside src dst k
  aligned : ∀ a ∈ accesses, a.width = 1 ∨ a.width = 4 ∧ a.addr % 4 = 0
  once : ∀ i < k, accesses.countP (·.loads (src + i)) = 1 ∧ accesses.countP (·.stores (dst + i)) = 1

section
variable {m : Mem} {src dst k width len : Nat} {accesses : List MmioAccess}

theorem MmioAccess.Inside.mono {a : MmioAccess} {n : Nat} (here : a.Inside src dst k) (le : k ≤ n) :
    a.Inside src dst n := by
  cases a with
  | load addr width => exact ⟨here.1, here.2.trans (by omega)⟩
  | store addr width => exact ⟨here.1, here.2.trans (by omega)⟩

/-- Nothing beyond the bytes copied so far has been touched. -/
theorem MmioCopied.fresh (copied : MmioCopied src dst k accesses) {i : Nat} (beyond : k ≤ i) :
    accesses.countP (·.loads (src + i)) = 0 ∧ accesses.countP (·.stores (dst + i)) = 0 := by
  simp only [List.countP_eq_zero]
  constructor
  · intro a mem loaded
    have here := copied.inside a mem
    cases a with
    | load addr width =>
      have covers := of_decide_eq_true loaded
      have end' := here.2
      omega
    | store addr width => cases loaded
  · intro a mem stored
    have here := copied.inside a mem
    cases a with
    | load addr width => cases stored
    | store addr width =>
      have covers := of_decide_eq_true stored
      have end' := here.2
      omega

theorem MmioCopied.assign (copied : MmioCopied src dst k accesses)
    (wide : width = 1 ∨ width = 4 ∧ (src + k) % 4 = 0 ∧ (dst + k) % 4 = 0) :
    MmioCopied src dst (k + width) (accesses ++ [.load (src + k) width, .store (dst + k) width]) where
  inside a mem := by
    rcases List.mem_append.mp mem with before | now
    · exact (copied.inside a before).mono (Nat.le_add_right k width)
    · simp only [List.mem_cons, List.not_mem_nil, or_false] at now
      rcases now with rfl | rfl
      · exact ⟨by omega, by omega⟩
      · exact ⟨by omega, by omega⟩
  aligned a mem := by
    rcases List.mem_append.mp mem with before | now
    · exact copied.aligned a before
    · simp only [List.mem_cons, List.not_mem_nil, or_false] at now
      rcases now with rfl | rfl
      · exact wide.imp_right fun ⟨four, source, _⟩ => ⟨four, source⟩
      · exact wide.imp_right fun ⟨four, _, target⟩ => ⟨four, target⟩
  once i below := by
    simp only [List.countP_append, List.countP_cons, List.countP_nil, MmioAccess.loads_load, MmioAccess.loads_store,
      MmioAccess.stores_load, MmioAccess.stores_store, decide_eq_true_eq, Bool.false_eq_true, if_false]
    by_cases done : i < k
    · obtain ⟨loaded, stored⟩ := copied.once i done
      rw [loaded, stored, if_neg (by omega), if_neg (by omega)]
      exact ⟨rfl, rfl⟩
    · obtain ⟨loaded, stored⟩ := copied.fresh (Nat.not_lt.mp done)
      rw [loaded, stored, if_pos (by omega), if_pos (by omega)]
      exact ⟨rfl, rfl⟩

theorem mmioAssign_advances (apart : src + len ≤ dst ∨ dst + len ≤ src) (fits : k + width ≤ len)
    (wide : width = 1 ∨ width = 4 ∧ (src + k) % 4 = 0 ∧ (dst + k) % 4 = 0) :
    Prog.Advances (fun k s => s.mem = ByteMem.copy m dst src k ∧ MmioCopied src dst k s.accesses) (fun _ => False) len k
      width (mmioAssign width (src + k) (dst + k)) := by
  rintro ⟨mem, accesses⟩ - ⟨rfl, copied⟩
  refine ⟨fun _ => ⟨(), _, rfl, ?_, copied.assign wide⟩, fun beyond => absurd beyond (by omega)⟩
  exact (ByteMem.copy_add (by omega)).symm

end

/-- Each byte is loaded once and stored once, by bytes and aligned words only, however the two sides are aligned. -/
theorem mmioMemcpy_copies (m : Mem) (dst src len : Nat) (apart : src + len ≤ dst ∨ dst + len ≤ src) :
    ∃ accesses, (mmioMemcpy mmioCopier dst src len).run ⟨m, []⟩ = .ok () ⟨ByteMem.copy m dst src len, accesses⟩ ∧
      (∀ a ∈ accesses, a.Inside src dst len) ∧ (∀ a ∈ accesses, a.width = 1 ∨ a.width = 4 ∧ a.addr % 4 = 0) ∧
      ∀ k < len, accesses.countP (·.loads (src + k)) = 1 ∧ accesses.countP (·.stores (dst + k)) = 1 := by
  have start : MmioCopied src dst 0 [] :=
    ⟨fun _ never => absurd never List.not_mem_nil, fun _ never => absurd never List.not_mem_nil,
      fun k never => absurd never (Nat.not_lt_zero k)⟩
  have moves : Prog.Advances (fun k s => s.mem = ByteMem.copy m dst src k ∧ MmioCopied src dst k s.accesses)
      (fun _ => False) len 0 len (mmioMemcpy mmioCopier dst src len) :=
    mmioMemcpy_advances (fun k below => mmioAssign_advances apart (by omega) (Or.inl rfl))
      fun k fits source target => mmioAssign_advances apart fits (Or.inr ⟨rfl, source, target⟩)
  obtain ⟨_, ⟨mem, accesses⟩, run, rfl, copied⟩ := (moves ⟨m, []⟩ (Nat.zero_le len) ⟨rfl, start⟩).1 (by omega)
  rw [Nat.zero_add] at run copied
  exact ⟨accesses, run, copied.inside, copied.aligned, copied.once⟩

/-- A byte, a word and a byte. -/
theorem mmioMemcpy_copies_six : ∃ accesses,
    (mmioMemcpy mmioCopier 0x203 0x103 6).run ⟨fun a => BitVec.ofNat 8 a, []⟩ =
      .ok () ⟨ByteMem.copy (fun a => BitVec.ofNat 8 a) 0x203 0x103 6, accesses⟩ ∧
    (∀ a ∈ accesses, a.Inside 0x103 0x203 6) ∧ (∀ a ∈ accesses, a.width = 1 ∨ a.width = 4 ∧ a.addr % 4 = 0) ∧
    ∀ k < 6, accesses.countP (·.loads (0x103 + k)) = 1 ∧ accesses.countP (·.stores (0x203 + k)) = 1 :=
  mmioMemcpy_copies _ 0x203 0x103 6 (by decide)

end Culvert
