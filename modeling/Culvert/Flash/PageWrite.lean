import Culvert.Flash.SmartWrite

namespace Culvert

open NorChip

/-- Every bit that is set in `src` is set in the array from `a` on. -/
def CoveredBy (mem : Mem) (a : Nat) (src : List Byte) : Prop :=
  ∀ i (inside : i < src.length), src[i] &&& ~~~mem (a + i) = 0

theorem and_eq_self_iff {b m : Byte} : m &&& b = b ↔ b &&& ~~~m = 0 := by
  constructor
  · intro same
    rw [← same, BitVec.and_comm m b, BitVec.and_assoc, BitVec.and_not_self]
    exact BitVec.and_zero
  · exact BitVec.and_eq_of_sub

/-- What has been anded reads back as what was written exactly when no bit had to be set. -/
theorem read_anded_iff {mem : Mem} {a : Nat} {src : List Byte} :
    ByteMem.read (anded mem a src) a src.length = src ↔ CoveredBy mem a src := by
  constructor
  · intro stored i inside
    have byte : anded mem a src (a + i) = src[i] := by
      have entry := ByteMem.read_getElem? (m := anded mem a src) (a := a) inside
      rw [stored, List.getElem?_eq_getElem inside] at entry
      exact (Option.some.inj entry).symm
    rw [anded_inside inside] at byte
    exact and_eq_self_iff.mp byte
  · intro covered
    rw [anded_eq_write covered, ByteMem.read_write]

/-- What `flash_write` does to a chip. Each page program it issues stays in its page, its bytes are anded to the
array, and the verification tells whether no bit had to be set. -/
structure Ands (c : FlashChip NorChip) (d d' : NorChip) (dst : Word) (src : List Byte) (verify : Bool) : Prop where
  inside : ∀ i (inside : i < src.length), d'.mem (dst.toNat + i) = d.mem (dst.toNat + i) &&& src[i]
  outside : ∀ x, x < dst.toNat ∨ dst.toNat + src.length ≤ x → d'.mem x = d.mem x
  programs : ∃ new, d'.ops = new ++ d.ops ∧ ∀ op ∈ new, PageProgram op
  ends : (verify = true → CoveredBy d.mem dst.toNat src) →
    Prog.Ends (fun fuel => flashWrite c fuel dst src verify) d () d'
  fails : verify = true → ¬ CoveredBy d.mem dst.toNat src →
    Prog.Fails (fun fuel => flashWrite c fuel dst src verify) d eremoteio d'

/-- A write that passes the range check of `flash_write`, on a controller without a write hook. -/
theorem flash_write_ands (c : FlashChip NorChip) (direct switches : Bool) (finfo : FlashInfo) (d : NorChip)
    (dst size : Word) (src : List Byte) (verify : Bool) (ctrl : c.ctrl = NorChip.sfc direct switches finfo)
    (idle : d.busy = 0) (length : src.length = size.toNat)
    (accepted : ¬ (dst + size ≤ dst ∨ size = 0 ∨ dst + size > c.tsize)) : ∃ d', Ands c d d' dst src verify := by
  have range : ¬ (dst + BitVec.ofNat 32 src.length ≤ dst ∨ BitVec.ofNat 32 src.length = 0 ∨
      dst + BitVec.ofNat 32 src.length > c.tsize) := by
    rw [length, BitVec.ofNat_toNat, BitVec.setWidth_eq]
    exact accepted
  obtain ⟨some, fits⟩ := (BitVec.range_iff dst size c.tsize).mp accepted
  have bound := c.tsize.isLt
  have small : dst.toNat + src.length < 2 ^ 32 := by omega
  obtain ⟨d', written, worked⟩ := flashWritePages_nor ctrl idle small
  have stored : ByteMem.read d'.mem dst.toNat src.length = src ↔ CoveredBy d.mem dst.toNat src := by
    rw [worked.array]
    exact read_anded_iff
  have checked := flashVerify_run ctrl worked.idle small
  refine ⟨d', ?_, ?_, worked.ops, ?_, ?_⟩
  · intro i inside
    rw [worked.array]
    exact anded_inside inside
  · intro x outside
    rw [worked.array]
    exact anded_outside outside
  · intro covered
    refine .ite_neg range ?_
    simp only [flashWriteData_nor ctrl]
    refine written.bind ?_
    cases verify with
    | false => exact .pure ()
    | true =>
      rw [if_pos (stored.mpr (covered rfl))] at checked
      exact .of_run checked
  · rintro rfl uncovered
    have failing : Prog.Fails (fun _ => flashVerify c dst src) d' eremoteio d' := by
      rw [if_neg fun same => uncovered (stored.mp same)] at checked
      exact ⟨0, fun _ _ => checked⟩
    obtain ⟨enough, fails⟩ := written.bind_fails (f := fun _ _ => flashVerify c dst src) failing
    refine ⟨enough, fun fuel le => ?_⟩
    have same : flashWrite c fuel dst src true = (do flashWriteData c fuel dst src; flashVerify c dst src) := if_neg range
    show (flashWrite c fuel dst src true).run d = _
    rw [same, flashWriteData_nor ctrl]
    exact fails fuel le

/-- Two bytes around the end of a page. -/
theorem flash_write_ands_pair : ∃ d', Ands macronix.chip (macronix.idle (fun _ => 0xff) false fun n => n) d' 0x12ff
    [0x5a, 0xa5] true :=
  flash_write_ands macronix.chip true true macronix.info _ 0x12ff 2 [0x5a, 0xa5] true rfl rfl rfl (by decide)

end Culvert
