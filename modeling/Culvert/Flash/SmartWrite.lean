import Culvert.Flash.NorFlash

namespace Culvert

open NorChip

/-- A chip as `flash_identify` leaves it: the granularity comes from the erase sizes, and the chip is
made of 64 KiB blocks. -/
structure NorFlash where
  direct : Bool
  switches : Bool
  mode4b : Bool
  info : FlashInfo
  tsize : Word
  minEraseMask : Word
  mask : flMinEraseMask info.flags = some minEraseMask
  blocks : tsize.toNat % 0x10000 = 0

namespace NorFlash

def chip (f : NorFlash) : FlashChip NorChip :=
  ⟨NorChip.sfc f.direct f.switches f.info, f.info, f.tsize, f.minEraseMask, f.mode4b⟩

/-- The chip itself, with nothing to wait for. -/
def idle (f : NorFlash) (mem : Mem) (wel : Bool) (latency : Nat → Nat) : NorChip :=
  ⟨mem, f.info.flags, wel, 0, latency, []⟩

end NorFlash

theorem flashInfos_identified : ∀ info ∈ flashInfos,
    (flMinEraseMask info.flags).isSome = true ∧ info.size.toNat % 0x10000 = 0 := by decide

/-- The erase blocks of a granularity, and the opcode for one of them. -/
structure Granule (flags mask : Word) (bits : Nat) (op : Byte) : Prop where
  sizes : bits = 12 ∨ bits = 15 ∨ bits = 16
  mask : mask = BitVec.ofNat 32 (2 ^ bits - 1)
  block : blockSize flags op = some (2 ^ bits)
  best : ∀ dst : Word, dst.toNat % 2 ^ bits = 0 →
    flGetBestErase flags dst (BitVec.ofNat 32 (2 ^ bits)) = (BitVec.ofNat 32 (2 ^ bits), op)
  erases : op ≠ cmdPp ∧ op ∈ [cmdSe, cmdBe32k, cmdBe]

theorem granule_of_mask {flags mask : Word} (admitted : flMinEraseMask flags = some mask) :
    ∃ bits op, Granule flags mask bits op := by
  rw [flMinEraseMask] at admitted
  split at admitted
  case isTrue has4k =>
    refine ⟨12, cmdSe, Or.inl rfl, (Option.some.inj admitted).symm, if_pos ⟨rfl, has4k⟩, fun dst _ => ?_, by decide⟩
    exact if_pos (Or.inr (by decide))
  case isFalse no4k =>
    split at admitted
    case isTrue has32k =>
      refine ⟨15, cmdBe32k, Or.inr (Or.inl rfl), (Option.some.inj admitted).symm, ?_, fun dst aligned => ?_, by decide⟩
      · rw [blockSize, if_neg (fun first => absurd first.1 (by decide)), if_pos ⟨rfl, has32k⟩]
        rfl
      · have low : dst &&& 0x7fff = 0 := BitVec.and_mask_eq_zero (x := dst) (by decide : 15 ≤ 32) aligned
        have large : ¬ (dst &&& 0x7fff ≠ 0 ∨ BitVec.ofNat 32 (2 ^ 15) < 0x8000) := by
          rw [low]
          decide
        rw [flGetBestErase, if_neg large, if_pos ⟨has32k, Or.inr (by decide)⟩]
        rfl
    case isFalse no32k =>
      split at admitted
      case isTrue has64k =>
        refine ⟨16, cmdBe, Or.inr (Or.inr rfl), (Option.some.inj admitted).symm, ?_, fun dst aligned => ?_, by decide⟩
        · rw [blockSize, if_neg (fun first => absurd first.1 (by decide)),
            if_neg (fun second => absurd second.1 (by decide)), if_pos ⟨rfl, has64k⟩]
          rfl
        · have low : dst &&& 0x7fff = 0 := BitVec.and_mask_eq_zero (x := dst) (by decide : 15 ≤ 32) (by omega)
          have large : ¬ (dst &&& 0x7fff ≠ 0 ∨ BitVec.ofNat 32 (2 ^ 16) < 0x8000) := by
            rw [low]
            decide
          rw [flGetBestErase, if_neg large, if_neg fun both => no32k both.1, if_neg has64k]
          rfl
      case isFalse => cases admitted

section
variable {σ : Type} {c : FlashChip σ} {bits : Nat} {op : Byte} {dst : Size}

theorem Granule.small {flags mask : Word} (granule : Granule flags mask bits op) : bits ≤ 16 := by
  have := granule.sizes
  omega

theorem Granule.size_toNat {flags mask : Word} (granule : Granule flags mask bits op) :
    (mask + 1).toNat = 2 ^ bits := by
  rw [granule.mask]
  rcases granule.sizes with rfl | rfl | rfl
  · rfl
  · rfl
  · rfl

theorem Granule.size_eq {flags mask : Word} (granule : Granule flags mask bits op) :
    mask + 1 = BitVec.ofNat 32 (2 ^ bits) := by
  rw [granule.mask]
  rcases granule.sizes with rfl | rfl | rfl
  · rfl
  · rfl
  · rfl

theorem Granule.size_ne_zero {flags mask : Word} (granule : Granule flags mask bits op) :
    ((mask + 1).setWidth 64 : Size) ≠ 0 := by
  intro empty
  have value : ((mask + 1).setWidth 64 : Size).toNat = 2 ^ bits := by
    rw [BitVec.toNat_setWidth_of_le (by decide), granule.size_toNat]
  rw [empty] at value
  exact absurd value (Nat.two_pow_pos bits).ne

/-- The block of an address on the chip is on the chip. -/
theorem Granule.block_fits {flags mask : Word} (granule : Granule flags mask bits op) {a tsize : Nat}
    (blocks : tsize % 0x10000 = 0) (inside : a < tsize) : a - a % 2 ^ bits + 2 ^ bits ≤ tsize := by
  rcases granule.sizes with rfl | rfl | rfl
  · omega
  · omega
  · omega

theorem smartOff_toNat (granule : Granule c.info.flags c.minEraseMask bits op) (small : dst.toNat < 2 ^ 32) :
    (smartOff c dst).toNat = dst.toNat % 2 ^ bits := by
  have := granule.small
  rw [smartOff, BitVec.setWidth_and, BitVec.setWidth_setWidth_of_le _ (by decide), BitVec.setWidth_eq, granule.mask,
    BitVec.and_mask_toNat _ (by omega : bits ≤ 32), BitVec.toNat_setWidth, Nat.mod_eq_of_lt small]

theorem smartPage_toNat (granule : Granule c.info.flags c.minEraseMask bits op) (small : dst.toNat < 2 ^ 32) :
    (smartPage c dst).toNat = dst.toNat - dst.toNat % 2 ^ bits := by
  have off := smartOff_toNat granule small
  rw [smartOff, BitVec.setWidth_and, BitVec.setWidth_setWidth_of_le _ (by decide), BitVec.setWidth_eq] at off
  have parts := Word.toNat_and_add_and_not (dst.setWidth 32) c.minEraseMask
  rw [off, BitVec.toNat_setWidth, Nat.mod_eq_of_lt small] at parts
  rw [smartPage, BitVec.setWidth_and, BitVec.setWidth_setWidth_of_le _ (by decide), BitVec.setWidth_eq]
  omega

theorem smartChunk_eq (granule : Granule c.info.flags c.minEraseMask bits op) (small : dst.toNat < 2 ^ 32) (size : Nat) :
    smartChunk c dst size = min size (2 ^ bits - dst.toNat % 2 ^ bits) := by
  have off := smartOff_toNat granule small
  have room : (c.minEraseMask + 1 - smartOff c dst).toNat = 2 ^ bits - dst.toNat % 2 ^ bits := by
    rw [BitVec.toNat_sub_of_le, granule.size_toNat, off]
    rw [BitVec.le_def, granule.size_toNat, off]
    exact Nat.le_of_lt (Nat.mod_lt _ (Nat.two_pow_pos bits))
  simp only [smartChunk, room]
  split <;> omega

end

section
variable {mem : Mem} {a n : Nat} {src : List Byte} {same : Bool}

theorem flashSmartComp_needErase (le : src.length ≤ n)
    (erase : flashSmartComp src (ByteMem.read mem a n) same = .needErase) :
    ∃ i, ∃ inside : i < src.length, src[i] &&& ~~~mem (a + i) ≠ 0 := by
  induction src generalizing a n same with
  | nil =>
    rw [flashSmartComp] at erase
    split at erase <;> cases erase
    simp
  | cons s src ih =>
    obtain ⟨n, rfl⟩ : ∃ k, n = k + 1 := ⟨n - 1, by rw [List.length_cons] at le; omega⟩
    rw [ByteMem.read_succ, flashSmartComp] at erase
    split at erase
    case isTrue bit => exact ⟨0, by simp, bit⟩
    case isFalse =>
      obtain ⟨i, inside, bit⟩ := ih (by rw [List.length_cons] at le; omega) erase
      refine ⟨i + 1, by simpa using inside, ?_⟩
      rwa [List.getElem_cons_succ, show a + (i + 1) = a + 1 + i by omega]

theorem flashSmartComp_covered (le : src.length ≤ n)
    (keep : flashSmartComp src (ByteMem.read mem a n) same ≠ .needErase) :
    ∀ i (inside : i < src.length), src[i] &&& ~~~mem (a + i) = 0 := by
  induction src generalizing a n same with
  | nil =>
    intro i inside
    simp at inside
  | cons s src ih =>
    obtain ⟨n, rfl⟩ : ∃ k, n = k + 1 := ⟨n - 1, by rw [List.length_cons] at le; omega⟩
    rw [ByteMem.read_succ, flashSmartComp] at keep
    split at keep
    case isTrue => exact absurd rfl keep
    case isFalse bit =>
      intro i inside
      cases i with
      | zero => exact not_not.mp bit
      | succ i =>
        have rest := ih (by rw [List.length_cons] at le; omega) keep i (by simpa using inside)
        rwa [List.getElem_cons_succ, show a + (i + 1) = a + 1 + i by omega]

theorem flashSmartComp_noChange (le : src.length ≤ n)
    (unchanged : flashSmartComp src (ByteMem.read mem a n) same = .noChange) :
    same = true ∧ ByteMem.read mem a src.length = src := by
  induction src generalizing a n same with
  | nil =>
    rw [flashSmartComp] at unchanged
    · cases same with
      | true => exact ⟨rfl, rfl⟩
      | false => cases unchanged
    · simp
  | cons s src ih =>
    obtain ⟨n, rfl⟩ : ∃ k, n = k + 1 := ⟨n - 1, by rw [List.length_cons] at le; omega⟩
    rw [ByteMem.read_succ, flashSmartComp] at unchanged
    split at unchanged
    case isTrue => cases unchanged
    case isFalse =>
      obtain ⟨both, rest⟩ := ih (by rw [List.length_cons] at le; omega) unchanged
      rw [Bool.and_eq_true, beq_iff_eq] at both
      refine ⟨both.1, ?_⟩
      rw [List.length_cons, ByteMem.read_succ, rest, both.2]

end

section
variable {mem : Mem} {a page er : Nat} {src : List Byte}

/-- The buffer that is written back holds the block as it is to be. -/
theorem smartMerge_eq {off : Nat} (fits : off + src.length ≤ er) : smartMerge (ByteMem.read mem page er) off src =
    ByteMem.read (ByteMem.write mem (page + off) src) page er := by
  have before : ByteMem.read (ByteMem.write mem (page + off) src) page off = ByteMem.read mem page off :=
    ByteMem.read_write_of_disjoint (Or.inl le_rfl)
  have after : ByteMem.read (ByteMem.write mem (page + off) src) (page + off + src.length) (er - (off + src.length)) =
      ByteMem.read mem (page + off + src.length) (er - (off + src.length)) :=
    ByteMem.read_write_of_disjoint (Or.inr le_rfl)
  have split : ByteMem.read (ByteMem.write mem (page + off) src) page er =
      ByteMem.read (ByteMem.write mem (page + off) src) page off ++
        ByteMem.read (ByteMem.write mem (page + off) src) (page + off) src.length ++
        ByteMem.read (ByteMem.write mem (page + off) src) (page + off + src.length) (er - (off + src.length)) := by
    rw [← ByteMem.read_add, Nat.add_assoc page off, ← ByteMem.read_add, Nat.add_sub_cancel' fits]
  rw [smartMerge, ByteMem.read_take (by omega), ByteMem.read_drop (by omega), split, before, after, ByteMem.read_write, ← Nat.add_assoc]

/-- An erased block that is written back. -/
theorem write_erased (pos : 0 < er) (aligned : page % er = 0) (low : page ≤ a) (high : a + src.length ≤ page + er) :
    ByteMem.write (eraseBlock er page mem) page (ByteMem.read (ByteMem.write mem a src) page er) =
      ByteMem.write mem a src := by
  funext x
  by_cases inside : page ≤ x ∧ x < page + er
  · obtain ⟨i, rfl⟩ : ∃ i, x = page + i := ⟨x - page, by omega⟩
    rw [ByteMem.write_inside (by rw [ByteMem.read_length]; omega)]
    simp [ByteMem.read]
  · have outside : eraseBlock er page mem x = mem x := by
      refine if_neg fun same => inside ?_
      have page_eq := Nat.div_add_mod page er
      have x_eq := Nat.div_add_mod x er
      have := Nat.mod_lt x pos
      rw [same] at x_eq
      omega
    rcases Nat.lt_or_ge x page with below | above
    · rw [ByteMem.write_below below, outside, ByteMem.write_below (by omega)]
    · rw [ByteMem.write_above (by rw [ByteMem.read_length]; omega), outside, ByteMem.write_above (by omega)]

theorem same_block {x : Nat} (pos : 0 < er) (aligned : page % er = 0) (low : page ≤ x) (high : x < page + er) :
    x / er = page / er := by
  obtain ⟨i, rfl⟩ : ∃ i, x = page + i := ⟨x - page, by omega⟩
  obtain ⟨q, rfl⟩ : ∃ q, page = er * q := ⟨page / er, by rw [Nat.mul_div_cancel' (Nat.dvd_of_mod_eq_zero aligned)]⟩
  rw [Nat.mul_add_div pos, Nat.mul_div_cancel_left q pos, Nat.div_eq_of_lt (by omega), Nat.add_zero]

/-- Every byte of an erased block has all its bits. -/
theorem eraseBlock_covers {x : Nat} (pos : 0 < er) (aligned : page % er = 0) (low : page ≤ x) (high : x < page + er)
    (b : Byte) : b &&& ~~~eraseBlock er page mem x = 0 := by
  rw [eraseBlock, if_pos (same_block pos aligned low high)]
  exact BitVec.and_zero

end

/-- An erase of a block in which some bit that is to be stored is not set in the array. -/
def Justified (flags : Word) (mem : Mem) (a : Nat) (src : List Byte) : NorOp → Prop
  | .program _ _ => True
  | .erase op addr => ∃ size, blockSize flags op = some size ∧
      ∃ i, ∃ inside : i < src.length, (a + i) / size = addr.toNat / size ∧ src[i] &&& ~~~mem (a + i) ≠ 0

section
variable {flags : Word} {mem : Mem} {a : Nat} {src : List Byte} {op : NorOp}

theorem PageProgram.justified (program : PageProgram op) : Justified flags mem a src op := by
  cases op with
  | program addr bs => trivial
  | erase op addr => cases program

theorem Justified.take {k : Nat} (justified : Justified flags mem a (src.take k) op) :
    Justified flags mem a src op := by
  cases op with
  | program addr bs => trivial
  | erase op addr =>
    obtain ⟨size, known, i, inside, block, bit⟩ := justified
    rw [List.length_take] at inside
    rw [List.getElem_take] at bit
    exact ⟨size, known, i, by omega, block, bit⟩

/-- The bytes that are stored first play no part in what is erased for the others. -/
theorem Justified.drop {k : Nat} (le : k ≤ src.length)
    (justified : Justified flags (ByteMem.write mem a (src.take k)) (a + k) (src.drop k) op) :
    Justified flags mem a src op := by
  cases op with
  | program addr bs => trivial
  | erase op addr =>
    obtain ⟨size, known, i, inside, block, bit⟩ := justified
    rw [List.length_drop] at inside
    rw [ByteMem.write_above (by rw [List.length_take]; omega), List.getElem_drop, Nat.add_assoc] at bit
    rw [Nat.add_assoc] at block
    exact ⟨size, known, k + i, by omega, block, bit⟩

end

section
variable {direct switches : Bool} {finfo : FlashInfo} {c : FlashChip NorChip} {d : NorChip}
variable {bits : Nat} {op : Byte}
variable (ctrl : c.ctrl = NorChip.sfc direct switches finfo) (known : d.flags = c.info.flags)
variable (granule : Granule c.info.flags c.minEraseMask bits op) (blocks : c.tsize.toNat % 0x10000 = 0)
include ctrl granule

/-- One block passes the checks of `flash_erase`. -/
theorem flashErase_range {page : Word} (aligned : page.toNat % 2 ^ bits = 0)
    (fits : page.toNat + 2 ^ bits ≤ c.tsize.toNat) (fuel : Nat) :
    flashErase c fuel (page.setWidth 64) ((c.minEraseMask + 1).setWidth 64) =
      Prog.loop (flashEraseTurn c fuel) fuel (page.setWidth 64, (c.minEraseMask + 1).setWidth 64) := by
  have bound := c.tsize.isLt
  have pos : 0 < 2 ^ bits := Nat.two_pow_pos bits
  have dst : (page.setWidth 64).toNat = page.toNat := BitVec.toNat_setWidth_of_le (by decide)
  have size : ((c.minEraseMask + 1).setWidth 64).toNat = 2 ^ bits := by
    rw [BitVec.toNat_setWidth_of_le (by decide), granule.size_toNat]
  have tsize : (c.tsize.setWidth 64).toNat = c.tsize.toNat := BitVec.toNat_setWidth_of_le (by decide)
  have range := BitVec.range_iff (page.setWidth 64) ((c.minEraseMask + 1).setWidth 64) (c.tsize.setWidth 64)
  rw [dst, size, tsize] at range
  have small := granule.small
  have pageLow : page &&& c.minEraseMask = 0#32 := by
    rw [granule.mask]
    exact BitVec.and_mask_eq_zero (by omega) aligned
  have sizeLow : (c.minEraseMask + 1) &&& c.minEraseMask = 0#32 := by
    rw [granule.size_eq, granule.mask]
    refine BitVec.and_mask_eq_zero (by omega) ?_
    rw [← granule.size_eq, granule.size_toNat, Nat.mod_self]
  have boundaries : (page.setWidth 64 ||| (c.minEraseMask + 1).setWidth 64) &&& c.minEraseMask.setWidth 64 = (0 : Size) := by
    rw [← BitVec.setWidth_or, ← BitVec.setWidth_and, BitVec.and_comm, BitVec.and_or_distrib_left, BitVec.and_comm _ page,
      BitVec.and_comm _ (c.minEraseMask + 1), pageLow, sizeLow]
    rfl
  rw [flashErase, if_neg (range.mpr ⟨pos, fits⟩), if_neg (not_not.mpr boundaries), ctrl]
  rfl

/-- One block is erased in one go. -/
theorem flashErase_block {page : Word} (idle : d.busy = 0) (aligned : page.toNat % 2 ^ bits = 0)
    (fits : page.toNat + 2 ^ bits ≤ c.tsize.toNat) :
    Prog.Ends (fun fuel => flashErase c fuel (page.setWidth 64) ((c.minEraseMask + 1).setWidth 64)) d ()
      (d.done (.erase op page)) := by
  have narrow (w : Word) : (w.setWidth 64).setWidth 32 = w := by
    rw [BitVec.setWidth_setWidth_of_le _ (by decide), BitVec.setWidth_eq]
  have best : flGetBestErase c.info.flags page (c.minEraseMask + 1) = (c.minEraseMask + 1, op) := by
    rw [granule.size_eq]
    exact granule.best page aligned
  have effect (d : NorChip) : d.write op (some page) [] = d.modify (.erase op page) := by
    rw [NorChip.write]
    show (if op = cmdPp then _ else if op ∈ [cmdSe, cmdBe32k, cmdBe] then _ else d) = _
    rw [if_neg granule.erases.1, if_pos granule.erases.2]
  have first : Prog.Ends (fun fuel => flashEraseTurn c fuel (page.setWidth 64, (c.minEraseMask + 1).setWidth 64)) d
      (.inl (page.setWidth 64 + (c.minEraseMask + 1).setWidth 64, 0)) (d.done (.erase op page)) := by
    simp only [flashEraseTurn, if_neg granule.size_ne_zero, narrow, best, ctrl, BitVec.sub_self]
    exact modify_then idle effect (.pure _)
  have last : Prog.Ends (fun fuel => flashEraseTurn c fuel (page.setWidth 64 + (c.minEraseMask + 1).setWidth 64, 0))
      (d.done (.erase op page)) (.inr ()) (d.done (.erase op page)) := .of_run rfl
  exact .congr (flashErase_range ctrl granule aligned fits) (Prog.LoopEnds.next first (.last last)).ends

include known

/-- One turn of `flash_smart_write`: the bytes are stored, and the block is erased only for bits that
are not set. -/
theorem flashSmartBlock_nor {dst : Size} {src : List Byte} (idle : d.busy = 0) (some : 0 < src.length)
    (small : dst.toNat < 2 ^ 32) (room : dst.toNat % 2 ^ bits + src.length ≤ 2 ^ bits)
    (within : dst.toNat - dst.toNat % 2 ^ bits + 2 ^ bits ≤ c.tsize.toNat) :
    ∃ d', Prog.Ends (fun fuel => flashSmartBlock c fuel dst (smartPage c dst) (smartOff c dst) src
        (ByteMem.read d.mem (smartPage c dst).toNat (2 ^ bits))) d () d' ∧
      Worked (Justified d.flags d.mem dst.toNat src) (ByteMem.write d.mem dst.toNat src) d d' := by
  have page := smartPage_toNat granule small
  have off := smartOff_toNat granule small
  have pos : 0 < 2 ^ bits := Nat.two_pow_pos bits
  have low : dst.toNat % 2 ^ bits ≤ dst.toNat := Nat.mod_le _ _
  have start : (smartPage c dst).toNat + (smartOff c dst).toNat = dst.toNat := by omega
  have buf : (ByteMem.read d.mem (smartPage c dst).toNat (2 ^ bits)).drop (smartOff c dst).toNat =
      ByteMem.read d.mem dst.toNat (2 ^ bits - (smartOff c dst).toNat) := by
    rw [ByteMem.read_drop (by omega), start]
  have enough : src.length ≤ 2 ^ bits - (smartOff c dst).toNat := by omega
  have aligned : (smartPage c dst).toNat % 2 ^ bits = 0 := by
    rw [page]
    exact Nat.sub_mod_eq_zero_of_mod_eq (Nat.mod_mod _ _).symm
  have narrow : (dst.setWidth 32).toNat = dst.toNat := by
    rw [BitVec.toNat_setWidth, Nat.mod_eq_of_lt small]
  simp only [flashSmartBlock, buf]
  cases compared : flashSmartComp src (ByteMem.read d.mem dst.toNat (2 ^ bits - (smartOff c dst).toNat)) true with
  | noChange =>
    obtain ⟨_, same⟩ := flashSmartComp_noChange enough compared
    have unchanged : ByteMem.write d.mem dst.toNat src = d.mem := by
      rw [← same, ByteMem.write_read]
    rw [unchanged]
    exact ⟨d, .pure (), .refl idle⟩
  | needWrite =>
    have covered := flashSmartComp_covered enough (by rw [compared]; decide)
    rw [← narrow] at covered
    have fits : (dst.setWidth 32).toNat + src.length ≤ c.tsize.toNat := by omega
    obtain ⟨d', ends, worked⟩ := flashWrite_nor ctrl idle some fits covered
    rw [narrow] at worked
    exact ⟨d', ends, worked.mono fun _ => PageProgram.justified⟩
  | needErase =>
    obtain ⟨i, inside, bit⟩ := flashSmartComp_needErase enough compared
    have merged : smartMerge (ByteMem.read d.mem (smartPage c dst).toNat (2 ^ bits)) (smartOff c dst).toNat src =
        ByteMem.read (ByteMem.write d.mem dst.toNat src) (smartPage c dst).toNat (2 ^ bits) := by
      rw [smartMerge_eq (by omega), start]
    have erased := flashErase_block ctrl granule idle aligned (by omega)
    have array : (d.done (.erase op (smartPage c dst))).mem = eraseBlock (2 ^ bits) (smartPage c dst).toNat d.mem := by
      show apply d.flags (.erase op (smartPage c dst)) d.mem = _
      rw [apply, known, granule.block]
    have why : Justified d.flags d.mem dst.toNat src (.erase op (smartPage c dst)) := by
      refine ⟨2 ^ bits, by rw [known, granule.block], i, inside, ?_, bit⟩
      exact same_block pos aligned (by omega) (by omega)
    have wiped : Worked (Justified d.flags d.mem dst.toNat src)
        (eraseBlock (2 ^ bits) (smartPage c dst).toNat d.mem) d (d.done (.erase op (smartPage c dst))) := by
      rw [← array]
      exact .done why
    have covered : ∀ j (within : j < (ByteMem.read (ByteMem.write d.mem dst.toNat src) (smartPage c dst).toNat (2 ^ bits)).length),
        (ByteMem.read (ByteMem.write d.mem dst.toNat src) (smartPage c dst).toNat (2 ^ bits))[j] &&&
          ~~~(d.done (.erase op (smartPage c dst))).mem ((smartPage c dst).toNat + j) = 0 := by
      intro j within
      rw [ByteMem.read_length] at within
      rw [array]
      exact eraseBlock_covers pos aligned (by omega) (by omega) _
    obtain ⟨d', ends, worked⟩ := flashWrite_nor ctrl (d := d.done (.erase op (smartPage c dst))) rfl
      (by rw [ByteMem.read_length]; exact pos) (by rw [ByteMem.read_length]; omega) covered
    rw [array, write_erased pos aligned (by omega) (by omega)] at worked
    refine ⟨d', ?_, wiped.trans (worked.mono fun _ => PageProgram.justified)⟩
    simp only [merged]
    exact erased.bind ends

/-- From any block on, the rest of the bytes is stored. -/
theorem flashSmartWriteLoop_nor {stop : Word} {dst : Size} {src : List Byte} (idle : d.busy = 0)
    (ends : dst.toNat + src.length = stop.toNat) (within : stop.toNat ≤ c.tsize.toNat) (blocks : c.tsize.toNat % 0x10000 = 0) :
    ∃ d', Prog.Ends (fun fuel => flashSmartWriteLoop c fuel stop dst src) d () d' ∧
      Worked (Justified d.flags d.mem dst.toNat src) (ByteMem.write d.mem dst.toNat src) d d' := by
  have bound := stop.isLt
  have wide : (stop.setWidth 64 : Size).toNat = stop.toNat := BitVec.toNat_setWidth_of_le (by decide)
  have pos : 0 < 2 ^ bits := Nat.two_pow_pos bits
  induction dst, src using flashSmartWriteLoop.induct c stop generalizing d with
  | case1 dst src more ih =>
    have some : 0 < src.length := by
      rw [BitVec.lt_def, wide] at more
      omega
    have small : dst.toNat < 2 ^ 32 := by omega
    have offset : dst.toNat % 2 ^ bits < 2 ^ bits := Nat.mod_lt _ pos
    have low : dst.toNat % 2 ^ bits ≤ dst.toNat := Nat.mod_le _ _
    obtain ⟨k, chunk⟩ : ∃ k, k = smartChunk c dst src.length := ⟨_, rfl⟩
    rw [← chunk] at ih
    have size : k = min src.length (2 ^ bits - dst.toNat % 2 ^ bits) := by
      rw [chunk, smartChunk_eq granule small]
    have length : (src.take k).length = k := List.length_take_of_le (by omega)
    have room : dst.toNat - dst.toNat % 2 ^ bits + 2 ^ bits ≤ c.tsize.toNat :=
      granule.block_fits blocks (by omega)
    have page := smartPage_toNat granule small
    have pageWide : ((smartPage c dst).setWidth 64 : Size).toNat = (smartPage c dst).toNat :=
      BitVec.toNat_setWidth_of_le (by decide)
    have read : (flashRead c ((smartPage c dst).setWidth 64) (c.minEraseMask + 1).toNat).run d =
        .ok (ByteMem.read d.mem (smartPage c dst).toNat (2 ^ bits)) d := by
      rw [flashRead_nor ctrl idle (by omega), pageWide, granule.size_toNat]
    have someTaken : 0 < (src.take k).length := by omega
    obtain ⟨d₁, block, worked⟩ := flashSmartBlock_nor ctrl known granule idle someTaken small (by omega) room
    have next : (dst + BitVec.ofNat 64 k).toNat = dst.toNat + k := by
      rw [BitVec.toNat_add, BitVec.toNat_ofNat]
      omega
    obtain ⟨d', rest, worked'⟩ := ih (by omega) (worked.flags.trans known) worked.idle
      (by rw [next, List.length_drop]; omega)
    have whole : ByteMem.write d.mem dst.toNat src =
        ByteMem.write (ByteMem.write d.mem dst.toNat (src.take k)) (dst.toNat + k) (src.drop k) := by
      conv_lhs => rw [← List.take_append_drop k src]
      rw [ByteMem.write_append, length]
    rw [worked.array, worked.flags, next] at worked'
    refine ⟨d', ?_, ?_⟩
    · have last := block.bind (f := fun fuel _ => flashSmartWriteLoop c fuel stop (dst + BitVec.ofNat 64 k) (src.drop k)) rest
      have turn := (Prog.Ends.of_run read).bind (f := fun fuel buf => do
        flashSmartBlock c fuel dst (smartPage c dst) (smartOff c dst) (src.take k) buf
        flashSmartWriteLoop c fuel stop (dst + BitVec.ofNat 64 k) (src.drop k)) last
      refine .congr (fun fuel => ?_) turn
      rw [flashSmartWriteLoop, if_pos more, ← chunk]
      simp only [dif_neg (by omega : ¬ k = 0)]
    · rw [whole]
      exact (worked.mono fun _ => Justified.take).trans (worked'.mono fun _ => Justified.drop (by omega))
  | case2 dst src done =>
    have empty : src = [] := by
      rw [BitVec.lt_def, wide] at done
      exact List.eq_nil_of_length_eq_zero (by omega)
    rw [empty, ByteMem.write_nil]
    refine ⟨d, .congr (fun fuel => ?_) (.pure ()), .refl idle⟩
    rw [flashSmartWriteLoop, if_neg done]

end

/-- The range check of `flash_smart_write` lets all of the chip through. -/
theorem flashSmartWrite_range {tsize : Word} {dst : Size} {n : Nat} (some : 0 < n) (fits : dst.toNat + n ≤ tsize.toNat) :
    ((dst + BitVec.ofNat 64 n).setWidth 32).toNat = dst.toNat + n ∧
    ¬ (((dst + BitVec.ofNat 64 n).setWidth 32).setWidth 64 ≤ dst ∨ BitVec.ofNat 64 n = 0 ∨
      (dst + BitVec.ofNat 64 n).setWidth 32 > tsize) := by
  have bound := tsize.isLt
  have sum : (dst + BitVec.ofNat 64 n).toNat = dst.toNat + n := by
    rw [BitVec.toNat_add, BitVec.toNat_ofNat]
    omega
  have stop : ((dst + BitVec.ofNat 64 n).setWidth 32).toNat = dst.toNat + n := by
    rw [BitVec.toNat_setWidth, sum, Nat.mod_eq_of_lt (by omega)]
  refine ⟨stop, ?_⟩
  rintro (wrapped | empty | beyond)
  · rw [BitVec.le_def, BitVec.toNat_setWidth_of_le (by decide), stop] at wrapped
    omega
  · have size : (BitVec.ofNat 64 n).toNat = n := by
      rw [BitVec.toNat_ofNat, Nat.mod_eq_of_lt (by omega)]
    rw [empty] at size
    exact absurd size some.ne
  · rw [gt_iff_lt, BitVec.lt_def, stop] at beyond
    omega

/-- Without command failures `flash_smart_write` stores its bytes and leaves all others as they were,
and it only erases a block in which a bit is to be set that is clear. -/
theorem flash_smart_write_stores (f : NorFlash) (mem : Mem) (wel : Bool) (latency : Nat → Nat) (dst : Size)
    (src : List Byte) (some : 0 < src.length) (fits : dst.toNat + src.length ≤ f.tsize.toNat) :
    ∃ d', Prog.Ends (fun fuel => flashSmartWrite f.chip fuel dst src) (f.idle mem wel latency) () d' ∧
      (∀ i (inside : i < src.length), d'.mem (dst.toNat + i) = src[i]) ∧
      (∀ x, x < dst.toNat ∨ dst.toNat + src.length ≤ x → d'.mem x = mem x) ∧
      ∀ op ∈ d'.ops, Justified f.info.flags mem dst.toNat src op := by
  obtain ⟨bits, op, granule⟩ := granule_of_mask f.mask
  obtain ⟨stop, range⟩ := flashSmartWrite_range some fits
  have within : ((dst + BitVec.ofNat 64 src.length).setWidth 32).toNat ≤ f.chip.tsize.toNat := by
    rw [stop]
    exact fits
  obtain ⟨d', ends, worked⟩ :=
    flashSmartWriteLoop_nor (c := f.chip) (d := f.idle mem wel latency) rfl rfl granule rfl stop.symm within f.blocks
  refine ⟨d', .ite_neg range ends, ?_, ?_, ?_⟩
  · intro i inside
    rw [worked.array, ByteMem.write_inside inside]
  · rintro x (below | above)
    · rw [worked.array, ByteMem.write_below below]
      rfl
    · rw [worked.array, ByteMem.write_above above]
      rfl
  · obtain ⟨new, ops, all⟩ := worked.ops
    intro op mem
    have here : op ∈ new := by
      rw [ops] at mem
      exact (List.mem_append.mp mem).resolve_right fun never => nomatch never
    exact all op here

/-- The first of the Macronix chips. -/
def macronix : NorFlash := ⟨true, true, false, ⟨0xc22018, 0x01000000, flEraseAll ||| flCan4b⟩, 0x01000000, 0xfff, rfl, rfl⟩

/-- Two bytes across the end of an erase block: the one below it is in an erased block and the one above it is not. -/
theorem flash_smart_write_stores_across : ∃ d',
    Prog.Ends (fun fuel => flashSmartWrite macronix.chip fuel 0x1fff [0x5a, 0xa5])
      (macronix.idle (fun x => if x < 0x2000 then 0xff else 0) false fun n => n) () d' ∧
      (∀ i (inside : i < [0x5a#8, 0xa5#8].length), d'.mem (0x1fff + i) = [0x5a#8, 0xa5#8][i]) ∧
      (∀ x, x < 0x1fff ∨ 0x1fff + 2 ≤ x → d'.mem x = if x < 0x2000 then 0xff else 0) ∧
      ∀ op ∈ d'.ops, Justified macronix.info.flags (fun x => if x < 0x2000 then 0xff else 0) 0x1fff [0x5a, 0xa5] op :=
  flash_smart_write_stores macronix (fun x => if x < 0x2000 then 0xff else 0) false (fun n => n) 0x1fff [0x5a, 0xa5]
    (by decide) (by decide)

end Culvert
