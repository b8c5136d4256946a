import Culvert.Flash.PageWrite
import Culvert.Lib.Settles

namespace Culvert

open NorChip

/-- The operation may change what is at `x`. -/
def NorOp.Alters (flags : Word) : NorOp → Nat → Prop
  | .program addr bs, x => ∃ i < bs.length, x = addr.toNat / 0x100 * 0x100 + (addr.toNat % 0x100 + i) % 0x100
  | .erase op addr, x => ∃ size ∈ blockSize flags op, x / size = addr.toNat / size

theorem PageProgram.alters_iff {flags addr : Word} {bs : List Byte} (program : PageProgram (.program addr bs)) (x : Nat) :
    (NorOp.program addr bs).Alters flags x ↔ addr.toNat ≤ x ∧ x < addr.toNat + bs.length := by
  obtain ⟨_, fits⟩ := program
  have split := Nat.div_add_mod addr.toNat 0x100
  constructor
  · rintro ⟨i, inside, rfl⟩
    rw [Nat.mod_eq_of_lt (by omega)]
    omega
  · rintro ⟨low, high⟩
    refine ⟨x - addr.toNat, by omega, ?_⟩
    rw [Nat.mod_eq_of_lt (by omega)]
    omega

/-- The chip has gone from `d` to `d'` by operations that together may change the `n` bytes from `a` on and no others. -/
def AltersExactly (d d' : NorChip) (a n : Nat) : Prop :=
  ∃ new, d'.ops = new ++ d.ops ∧ ∀ x, (∃ op ∈ new, op.Alters d.flags x) ↔ a ≤ x ∧ x < a + n

section
variable {d d₁ d' : NorChip} {a n k : Nat}

theorem AltersExactly.refl (d : NorChip) (a : Nat) : AltersExactly d d a 0 := by
  refine ⟨[], rfl, fun x => ⟨?_, ?_⟩⟩
  · rintro ⟨_, never, _⟩
    cases never
  · rintro ⟨low, high⟩
    omega

theorem AltersExactly.trans (first : AltersExactly d d₁ a n) (flags : d₁.flags = d.flags)
    (next : AltersExactly d₁ d' (a + n) k) : AltersExactly d d' a (n + k) := by
  obtain ⟨new, ops, all⟩ := first
  obtain ⟨new', ops', all'⟩ := next
  rw [flags] at all'
  refine ⟨new' ++ new, by rw [ops', ops, List.append_assoc], fun x => ⟨?_, fun ⟨low, high⟩ => ?_⟩⟩
  · rintro ⟨op, mem, alters⟩
    rcases List.mem_append.mp mem with late | early
    · have := (all' x).mp ⟨op, late, alters⟩
      omega
    · have := (all x).mp ⟨op, early, alters⟩
      omega
  · by_cases here : x < a + n
    · obtain ⟨op, mem, alters⟩ := (all x).mpr ⟨low, here⟩
      exact ⟨op, List.mem_append_right _ mem, alters⟩
    · obtain ⟨op, mem, alters⟩ := (all' x).mpr ⟨by omega, by omega⟩
      exact ⟨op, List.mem_append_left _ mem, alters⟩

end

section
variable {direct switches : Bool} {finfo : FlashInfo} {c : FlashChip NorChip} {d : NorChip}
variable (ctrl : c.ctrl = NorChip.sfc direct switches finfo)
include ctrl

/-- The page programs cover what is written. -/
theorem flashWritePages_alters {dst : Word} {src : List Byte} (idle : d.busy = 0) (small : dst.toNat + src.length < 2 ^ 32) :
    ∃ d', Prog.Ends (fun fuel => flashWritePages c fuel dst src) d () d' ∧ AltersExactly d d' dst.toNat src.length := by
  induction dst, src using flashWritePages.induct generalizing d with
  | case1 dst => exact ⟨d, .congr (fun fuel => by rw [flashWritePages, dif_pos rfl]) (.pure ()), .refl d dst.toNat⟩
  | case2 dst src more k =>
    rename_i ih
    have some : 0 < src.length := List.length_pos_iff.mpr more
    have pos : 0 < k := pageChunk_pos some
    have le : k ≤ src.length := pageChunk_le dst src.length
    have page : dst.toNat % 0x100 + k ≤ 0x100 := pageChunk_page dst src.length
    have length : (src.take k).length = k := List.length_take_of_le le
    have next : (dst + BitVec.ofNat 32 k).toNat = dst.toNat + k := Word.toNat_add_ofNat (by omega)
    have fits : dst.toNat % 0x100 + (src.take k).length ≤ 0x100 := by omega
    have first := flWpage_nor ctrl idle (by omega : 0 < (src.take k).length) fits
    have one : AltersExactly d (d.done (.program dst (src.take k))) dst.toNat k := by
      refine ⟨[.program dst (src.take k)], rfl, fun x => ?_⟩
      have program : PageProgram (.program dst (src.take k)) := ⟨by omega, fits⟩
      have alters := @PageProgram.alters_iff d.flags dst (src.take k) program x
      rw [length] at alters
      simp only [List.mem_singleton, exists_eq_left, alters]
    obtain ⟨d', rest, covers⟩ := @ih (d.done (.program dst (src.take k))) rfl (by rw [next, List.length_drop]; omega)
    rw [next, List.length_drop] at covers
    have both := first.bind (f := fun fuel _ => flashWritePages c fuel (dst + BitVec.ofNat 32 k) (src.drop k)) rest
    refine ⟨d', .congr (fun fuel => ?_) both, ?_⟩
    · rw [flashWritePages, dif_neg more]
    · have all := one.trans rfl covers
      rw [Nat.add_sub_cancel' le] at all
      exact all

/-- A verified write that passes the range check: what it leaves, and what it returns. -/
theorem flashWrite_settles {dst : Word} {src : List Byte} (idle : d.busy = 0) (some : 0 < src.length)
    (fits : dst.toNat + src.length ≤ c.tsize.toNat) :
    ∃ d', d'.busy = 0 ∧ d'.flags = d.flags ∧ d'.mem = anded d.mem dst.toNat src ∧ AltersExactly d d' dst.toNat src.length ∧
      Prog.Settles (fun fuel => flashWrite c fuel dst src true) d
        (if ByteMem.read d'.mem dst.toNat src.length = src then .ok () d' else .error (.rc eremoteio) d') := by
  have bound := c.tsize.isLt
  have small : dst.toNat + src.length < 2 ^ 32 := by omega
  obtain ⟨d', ends, worked⟩ := flashWritePages_nor ctrl idle small
  obtain ⟨d'', ends', covers⟩ := flashWritePages_alters ctrl idle small
  obtain ⟨_, rfl⟩ := ends.unique ends'
  refine ⟨d', worked.idle, worked.flags, worked.array, covers, ?_⟩
  have same (fuel : Nat) : flashWrite c fuel dst src true = (do flashWritePages c fuel dst src; flashVerify c dst src) := by
    rw [← flashWriteData_nor ctrl]
    exact if_neg (flashWrite_range some fits)
  simp only [same]
  exact ends.settles (.of_run (flashVerify_run ctrl worked.idle small))

omit ctrl in
theorem flashWrite_refused {dst : Word} {src : List Byte} (size : src.length < 2 ^ 32)
    (sticks : ¬ dst.toNat + src.length ≤ c.tsize.toNat) (fuel : Nat) :
    (flashWrite c fuel dst src true).run d = .error (.rc einval) d := by
  have length : (BitVec.ofNat 32 src.length).toNat = src.length := by
    rw [BitVec.toNat_ofNat, Nat.mod_eq_of_lt size]
  have range : dst + BitVec.ofNat 32 src.length ≤ dst ∨ BitVec.ofNat 32 src.length = 0 ∨
      dst + BitVec.ofNat 32 src.length > c.tsize := by
    by_contra inside
    have admitted := (BitVec.range_iff dst (BitVec.ofNat 32 src.length) c.tsize).mp inside
    rw [length] at admitted
    exact sticks admitted.2
  rw [flashWrite]
  simp only [if_pos range]
  rfl

end

end Culvert
