import Culvert.Flash.Spared

/-! A chip that holds what it holds: every command is carried out at once, and none changes the array. -/

namespace Culvert

open Prog

/-- The largest of the Macronix chips. -/
def macronix128 : FlashInfo := ⟨0xc2201b, 0x08000000, flEraseAll ||| flCan4b⟩

namespace Board

/-- An AST2500 in front of a 128 MiB chip with the array `mem`. -/
def held (mem : Mem) : Board where
  regs := fun _ => 0x04030303
  mem := mem
  turn := 0
  leaves := fun _ => mem
  answers := fun _ op i => if op = cmdRdid then [0xc2, 0x20, 0x1b].getD i 0 else statWen

/-- As `held`, after some commands, with no access that fails. -/
def Held (mem : Mem) (s : Faulty Board) : Prop := s.Sound ∧ ∃ turn, s.dev = { held mem with turn }

section
variable {α : Type} {mem : Mem} {direct switches : Bool} {finfo : Option FlashInfo}

theorem access_held {look : Board → α × Board} {a : α}
    (step : ∀ turn, ∃ turn', look { held mem with turn } = (a, { held mem with turn := turn' })) :
    Leads (Held mem) (Faulty.access look) a (Held mem) := by
  rintro s ⟨sound, turn, dev⟩
  obtain ⟨turn', same⟩ := step turn
  refine ⟨⟨{ held mem with turn := turn' }, s.fails, s.accesses + 1⟩, ?_, sound, turn', rfl⟩
  simp only [Faulty.access, EStateM.run, sound s.accesses, dev, same]

theorem skip_held : Leads (Held mem) (Pure.pure ()) () (Held mem) := Leads.pure fun _ here => here

theorem command_held (op : Byte) (addr : Option Word) :
    Leads (Held mem) (Faulty.access fun b : Board => ((), b.command op addr)) () (Held mem) := by
  refine access_held fun turn => ⟨turn + 1, ?_⟩
  have array : (fun x => if reaches op addr x then mem x else mem x) = mem := funext fun x => ite_self _
  show ((), { held mem with mem := fun x => if reaches op addr x then mem x else mem x, turn := turn + 1 }) = _
  rw [array]
  rfl

theorem socReadl_held (phys : Word) : Leads (Held mem) (socReadl bus phys) 0x04030303 (Held mem) :=
  access_held fun turn => ⟨turn, rfl⟩

theorem cmdWr_held (op : Byte) (addr : Option Word) (buf : List Byte) :
    Leads (Held mem) ((sfc direct switches finfo).cmdWr op addr buf) () (Held mem) :=
  (command_held op addr).bind (f := fun _ => Faulty.access fun b : Board => ((), b)) (access_held fun turn => ⟨turn, rfl⟩)

theorem flReadStat_held : Leads (Held mem) (flReadStat (sfc direct switches finfo)) statWen (Held mem) := by
  have read : Leads (Held mem) ((sfc direct switches finfo).cmdRd cmdRdsr none 1) [statWen] (Held mem) :=
    (command_held cmdRdsr none).bind (f := fun _ => Faulty.access fun b : Board => (b.answer cmdRdsr none 1, b))
      (access_held fun turn => ⟨turn, rfl⟩)
  exact read.bind (f := fun bs => Pure.pure (bs.headD 0)) (Leads.pure fun _ here => here)

theorem flSyncWaitIdle_held {info : FlashInfo} (plain : info.flags &&& flMicronBugs = 0) {fuel : Nat} (some : 0 < fuel) :
    Leads (Held mem) (flSyncWaitIdle (sfc direct switches (.some info)) fuel) () (Held mem) := by
  obtain ⟨fuel, rfl⟩ : ∃ k, fuel = k + 1 := ⟨fuel - 1, by omega⟩
  have idle : flIdle (sfc direct switches (.some info)) = (Pure.pure () : Prog (Faulty Board) Unit) := if_neg (not_not.mpr plain)
  have turn : Leads (Held mem) (flSyncWaitIdleTurn (sfc direct switches (.some info)) ()) (.inr ()) (Held mem) := by
    refine flReadStat_held.bind ?_
    rw [if_pos (by decide), idle]
    exact Leads.pure fun _ here => here
  rw [flSyncWaitIdle, Prog.loop]
  exact turn.bind (Leads.pure fun _ here => here)

theorem flWren_held (fuel : Nat) : Leads (Held mem) (flWren (sfc direct switches finfo) fuel) () (Held mem) := by
  rw [flWren, flWrenLoop]
  refine (cmdWr_held cmdWren none []).bind (flReadStat_held.bind ?_)
  rw [if_neg (by decide), if_pos (by decide)]
  exact Leads.pure fun _ here => here

end

/-- What `flash_init` makes of the chip. -/
def heldChip (direct switches : Bool) : FlashChip (Faulty Board) :=
  ⟨sfc direct switches (some macronix128), macronix128, macronix128.size, 0xfff, false⟩

section
variable {mem : Mem} {direct switches : Bool} {fuel : Nat} (some : 0 < fuel)

theorem flashRead_held (pos : Size) (n : Nat) : Leads (Held mem) (flashRead (heldChip direct switches) pos n)
    (ByteMem.read mem (pos.setWidth 32 : Word).toNat n) (Held mem) := by
  cases direct with
  | true =>
    have shape : flashRead (heldChip true switches) pos n =
        Faulty.access fun b : Board => (b.array (pos.setWidth 32) n, b) := rfl
    rw [shape]
    exact access_held fun turn => ⟨turn, rfl⟩
  | false =>
    exact (command_held cmdRead (.some (pos.setWidth 32))).bind
      (f := fun _ => Faulty.access fun b : Board => (b.answer cmdRead (.some (pos.setWidth 32)) n, b))
      (access_held fun turn => ⟨turn, rfl⟩)

theorem flashVerify_held {dst : Word} {src : List Byte} (fits : dst.toNat + src.length < 2 ^ 32)
    (there : ByteMem.read mem dst.toNat src.length = src) :
    Leads (Held mem) (flashVerify (heldChip direct switches) dst src) () (Held mem) := by
  induction dst, src using flashVerify.induct with
  | case1 dst =>
    rw [flashVerify, dif_pos rfl]
    exact Leads.pure fun _ here => here
  | case2 dst src more chunk ih =>
    have pos : 0 < src.length := List.length_pos_iff.mpr more
    have le : verifyChunk src.length ≤ src.length := verifyChunk_le src.length
    have next : (dst + BitVec.ofNat 32 (verifyChunk src.length)).toNat = dst.toNat + verifyChunk src.length :=
      Word.toNat_add_ofNat (by omega)
    have head : ByteMem.read mem dst.toNat (verifyChunk src.length) = src.take (verifyChunk src.length) := by
      rw [← ByteMem.read_take le, there]
    have tail : ByteMem.read mem (dst + BitVec.ofNat 32 (verifyChunk src.length)).toNat
        (src.drop (verifyChunk src.length)).length = src.drop (verifyChunk src.length) := by
      rw [next, List.length_drop, ← ByteMem.read_drop le, there]
    have rest := ih (by rw [next, List.length_drop]; omega) tail
    rw [flashVerify, dif_neg more]
    refine (flashRead_held _ _).bind ?_
    rw [BitVec.setWidth_setWidth_of_le _ (by decide), BitVec.setWidth_eq, if_neg (not_not.mpr head)]
    exact rest

include some

theorem flWpage_held {dst : Word} {src : List Byte} (pos : 0 < src.length) (page : src.length ≤ 0x100) :
    Leads (Held mem) (flWpage (heldChip direct switches) fuel dst src) () (Held mem) := by
  rw [flWpage, if_neg (by omega)]
  exact (flWren_held fuel).bind ((cmdWr_held cmdPp (.some dst) src).bind (flSyncWaitIdle_held rfl some))

theorem flashWritePages_held {dst : Word} {src : List Byte} :
    Leads (Held mem) (flashWritePages (heldChip direct switches) fuel dst src) () (Held mem) := by
  induction dst, src using flashWritePages.induct with
  | case1 dst =>
    rw [flashWritePages, dif_pos rfl]
    exact Leads.pure fun _ here => here
  | case2 dst src more chunk ih =>
    have pos := pageChunk_pos (d := dst) (List.length_pos_iff.mpr more)
    have le := pageChunk_le dst src.length
    have page := pageChunk_page dst src.length
    have length : (src.take (pageChunk dst src.length)).length = pageChunk dst src.length := List.length_take_of_le le
    rw [flashWritePages, dif_neg more]
    exact (flWpage_held some (by omega) (by omega)).bind ih

/-- Writing what is there goes well. -/
theorem flashWrite_held {dst : Word} {src : List Byte} (pos : 0 < src.length)
    (fits : dst.toNat + src.length ≤ macronix128.size.toNat) (there : ByteMem.read mem dst.toNat src.length = src) :
    Leads (Held mem) (flashWrite (heldChip direct switches) fuel dst src true) () (Held mem) := by
  have bound := macronix128.size.isLt
  have stop : (dst + BitVec.ofNat 32 src.length).toNat = dst.toNat + src.length := Word.toNat_add_ofNat (by omega)
  have range : ¬ (dst + BitVec.ofNat 32 src.length ≤ dst ∨ BitVec.ofNat 32 src.length = 0 ∨
      dst + BitVec.ofNat 32 src.length > (heldChip direct switches).tsize) := by
    rintro (wrapped | empty | beyond)
    · rw [BitVec.le_def, stop] at wrapped
      omega
    · have size : (BitVec.ofNat 32 src.length).toNat = src.length := by
        rw [BitVec.toNat_ofNat, Nat.mod_eq_of_lt (by omega)]
      rw [empty] at size
      exact absurd size pos.ne
    · rw [gt_iff_lt, BitVec.lt_def, stop] at beyond
      have same : (heldChip direct switches).tsize = macronix128.size := rfl
      rw [same] at beyond
      omega
  rw [flashWrite, if_neg range]
  refine (flashWritePages_held some).bind ?_
  rw [if_pos rfl]
  exact flashVerify_held (by omega) there

/-- A window of the chip is erased, as far as the chip says. -/
theorem flashErase_held {dst : Word} (aligned : dst.toNat % 0x10000 = 0)
    (fits : dst.toNat + 0x10000 ≤ macronix128.size.toNat) :
    Leads (Held mem) (flashErase (heldChip direct switches) (fuel + 1) (dst.setWidth 64) 0x10000) () (Held mem) := by
  have bound := dst.isLt
  have stop : (dst.setWidth 64 + 0x10000 : Size).toNat = dst.toNat + 0x10000 := by
    rw [BitVec.toNat_add, BitVec.toNat_setWidth_of_le (by decide)]
    exact Nat.mod_eq_of_lt (by show dst.toNat + 65536 < _; omega)
  have start : (dst.setWidth 64 : Size).toNat = dst.toNat := BitVec.toNat_setWidth_of_le (by decide)
  have narrow : (dst.setWidth 64).setWidth 32 = dst := by
    rw [BitVec.setWidth_setWidth_of_le _ (by decide), BitVec.setWidth_eq]
  have range : ¬ (dst.setWidth 64 + 0x10000 ≤ dst.setWidth 64 ∨ (0x10000 : Size) = 0 ∨
      (dst.setWidth 64 + 0x10000 : Size) > (heldChip direct switches).tsize.setWidth 64) := by
    rintro (wrapped | empty | beyond)
    · rw [BitVec.le_def, stop, start] at wrapped
      omega
    · cases empty
    · have size : ((heldChip direct switches).tsize.setWidth 64 : Size).toNat = macronix128.size.toNat := rfl
      rw [gt_iff_lt, BitVec.lt_def, stop, size] at beyond
      omega
  have boundaries : (dst.setWidth 64 ||| 0x10000) &&& (heldChip direct switches).minEraseMask.setWidth 64 = (0 : Size) := by
    have low : (dst.setWidth 64 : Size) &&& 0xfff = 0 :=
      BitVec.and_mask_eq_zero (by decide : 12 ≤ 64) (by rw [start]; omega)
    show (dst.setWidth 64 ||| 0x10000) &&& 0xfff = (0 : Size)
    rw [BitVec.and_comm, BitVec.and_or_distrib_left, BitVec.and_comm _ (dst.setWidth 64), low]
    rfl
  rw [flashErase, if_neg range, if_neg (not_not.mpr boundaries)]
  show Leads (Held mem) (Prog.loop (flashEraseTurn (heldChip direct switches) (fuel + 1)) (fuel + 1) _) () (Held mem)
  have known : macronix128 ∈ flashInfos := by decide
  rw [Prog.loop, eraseWindow_turn known _ aligned]
  simp only [bind_assoc, pure_bind]
  obtain ⟨fuel, rfl⟩ : ∃ k, fuel = k + 1 := ⟨fuel - 1, by omega⟩
  refine (flWren_held _).bind ((cmdWr_held cmdBe (.some dst) []).bind ((flSyncWaitIdle_held rfl (by omega)).bind ?_))
  exact Leads.pure fun _ here => here

end

section
variable {mem : Mem} {direct switches : Bool}

theorem flashIdentify_held (fuel : Nat) : Leads (Held mem) (flashIdentify fuel (sfc direct switches none))
    (heldChip direct switches) (Held mem) := by
  have ask : Leads (Held mem) ((sfc direct switches none).cmdRd cmdRdid none 3) [0xc2, 0x20, 0x1b] (Held mem) :=
    (command_held cmdRdid none).bind (f := fun _ => Faulty.access fun b : Board => (b.answer cmdRdid none 3, b))
      (access_held fun turn => ⟨turn, rfl⟩)
  have id : Leads (Held mem) (flChipId fuel (sfc direct switches none)) [0xc2, 0x20, 0x1b] (Held mem) := by
    refine flReadStat_held.bind ?_
    rw [if_neg (by decide)]
    exact skip_held.bind (f := fun _ => (sfc direct switches none).cmdRd cmdRdid none 3) ask
  refine id.bind ?_
  have three : ¬ ([0xc2, 0x20, 0x1b] : List Byte).length < 3 := by decide
  have lookup : flashLookup (idWord [0xc2, 0x20, 0x1b]) = some macronix128 := by decide
  have granule : flMinEraseMask macronix128.flags = some 0xfff := by decide
  rw [if_neg three, lookup]
  dsimp only
  rw [granule]
  exact skip_held.bind (f := fun _ => Pure.pure (heldChip direct switches)) (Leads.pure fun _ here => here)

theorem flashConfigure_held (fuel : Nat) : Leads (Held mem) (flashConfigure fuel (heldChip direct switches))
    (heldChip direct switches) (Held mem) := by
  have enter : Leads (Held mem) (flashSet4b fuel (heldChip direct switches) true) () (Held mem) :=
    (flWren_held fuel).attempt.bind (f := fun _ => (sfc direct switches (some macronix128)).cmdWr cmdEn4b none [])
      (cmdWr_held cmdEn4b none [])
  have switch : Leads (Held mem) ((heldChip direct switches).ctrlSet4b true) () (Held mem) := by
    cases switches with
    | true => exact skip_held
    | false => exact skip_held
  have select : Leads (Held mem) (flashSelectMode fuel (heldChip direct switches)) () (Held mem) := by
    have wide : (heldChip direct switches).tsize > 0x01000000 := by
      show macronix128.size > 0x01000000
      decide
    rw [flashSelectMode, if_pos wide]
    exact enter.bind (f := fun _ => (heldChip direct switches).ctrlSet4b true) switch
  have cropped : { heldChip direct switches with tsize := cropSize macronix128.size macronix128.flags } =
      heldChip direct switches := by
    rw [cropSize_eq (by decide)]
    rfl
  have shape : flashConfigure fuel (heldChip direct switches) = (do
      let c := { heldChip direct switches with tsize := cropSize macronix128.size macronix128.flags }
      flashSelectMode fuel c
      return c) := rfl
  rw [shape, cropped]
  exact select.bind (Leads.pure fun _ here => here)

end

end Board

end Culvert
