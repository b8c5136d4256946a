import Culvert.Hw.Board
import Culvert.Lib.Bits

/-! Which bytes of a chip that need not do as it is told an operation may change, and what it has checked. -/

namespace Culvert

open Prog

namespace Board

section
variable {α : Type} {direct switches : Bool} {finfo : Option FlashInfo} {lo hi : Nat}

theorem access_spares {look : Board → α × Board} (same : ∀ b x, x < lo ∨ hi ≤ x → (look b).2.mem x = b.mem x) :
    Keeps (Spares lo hi) (Faulty.access look) := by
  intro s x outside
  rcases Faulty.access_dev look s with unchanged | changed
  · rw [unchanged]
  · rw [changed, same s.dev x outside]

/-- A command for a region in between. -/
theorem command_spares {op : Byte} {addr : Option Word} (inside : ∀ x, reaches op addr x = true → lo ≤ x ∧ x < hi) :
    Keeps (Spares lo hi) (Faulty.access fun b : Board => ((), b.command op addr)) := by
  refine access_spares fun b x outside => ?_
  have missed : ¬ reaches op addr x = true := by
    intro reached
    have := inside x reached
    omega
  exact if_neg missed

theorem cmdWr_spares {op : Byte} {addr : Option Word} (buf : List Byte)
    (inside : ∀ x, reaches op addr x = true → lo ≤ x ∧ x < hi) :
    Keeps (Spares lo hi) ((sfc direct switches finfo).cmdWr op addr buf) :=
  (command_spares inside).bind fun _ => access_spares fun _ _ _ => rfl

theorem cmdRd_spares {op : Byte} {addr : Option Word} (n : Nat) (plain : ∀ x, reaches op addr x = false) :
    Keeps (Spares lo hi) ((sfc direct switches finfo).cmdRd op addr n) := by
  refine (command_spares fun x reached => ?_).bind fun _ => access_spares fun _ _ _ => rfl
  rw [plain x] at reached
  cases reached

theorem flReadStat_spares : Keeps (Spares lo hi) (flReadStat (sfc direct switches finfo)) :=
  (cmdRd_spares 1 fun _ => rfl).bind fun bs => keeps_pure (bs.headD 0)

theorem flIdle_spares : Keeps (Spares lo hi) (flIdle (sfc direct switches finfo)) := by
  cases finfo with
  | none => exact keeps_throw .fault
  | some info =>
    have flag : Keeps (Spares lo hi) (flMicronStatus (sfc direct switches (some info))) :=
      (cmdRd_spares 1 fun _ => rfl).attempt.bind fun _ => keeps_pure ()
    exact Keeps.ite flag (keeps_pure ())

theorem flSyncWaitIdle_spares (fuel : Nat) : Keeps (Spares lo hi) (flSyncWaitIdle (sfc direct switches finfo) fuel) := by
  refine Keeps.loop (fun _ => ?_) fuel ()
  exact flReadStat_spares.bind fun stat => Keeps.ite (flIdle_spares.bind fun _ => keeps_pure _) (keeps_pure _)

theorem flWren_spares (fuel : Nat) : Keeps (Spares lo hi) (flWren (sfc direct switches finfo) fuel) := by
  rw [flWren]
  generalize 1000 = tries
  induction tries with
  | zero => exact keeps_fail etimedout
  | succ tries ih =>
    have wren : Keeps (Spares lo hi) ((sfc direct switches finfo).cmdWr cmdWren none []) := by
      refine cmdWr_spares [] fun x reached => ?_
      cases reached
    refine wren.bind fun _ => flReadStat_spares.bind fun stat => ?_
    exact Keeps.ite ((flSyncWaitIdle_spares fuel).bind fun _ => ih) (Keeps.ite (keeps_pure ()) ih)

end

/-- A chip that `flash_init` found on the board. -/
structure Found (direct switches : Bool) (c : FlashChip (Faulty Board)) : Prop where
  known : c.info ∈ flashInfos
  ctrl : c.ctrl = sfc direct switches (some c.info)
  tsize : c.tsize = c.info.size

section
variable {direct switches : Bool} {c : FlashChip (Faulty Board)} {lo hi : Nat} (found : Found direct switches c)
include found

theorem flWpage_spares {dst : Word} {src : List Byte} (fuel : Nat) (lower : lo % 0x100 = 0) (upper : hi % 0x100 = 0)
    (low : lo ≤ dst.toNat) (high : dst.toNat < hi) : Keeps (Spares lo hi) (flWpage c fuel dst src) := by
  rw [flWpage, found.ctrl]
  refine Keeps.ite (keeps_fail einval) ((flWren_spares fuel).bind fun _ => ?_)
  refine (cmdWr_spares src fun x reached => ?_).bind fun _ => flSyncWaitIdle_spares fuel
  have page : x / 0x100 = dst.toNat / 0x100 := of_decide_eq_true reached
  omega

theorem flashWritePages_spares {dst : Word} {src : List Byte} (fuel : Nat) (lower : lo % 0x100 = 0)
    (upper : hi % 0x100 = 0) (low : lo ≤ dst.toNat) (high : dst.toNat + src.length ≤ hi) (bound : hi < 2 ^ 32) :
    Keeps (Spares lo hi) (flashWritePages c fuel dst src) := by
  induction dst, src using flashWritePages.induct with
  | case1 dst =>
    rw [flashWritePages, dif_pos rfl]
    exact keeps_pure ()
  | case2 dst src more chunk ih =>
    rw [flashWritePages, dif_neg more]
    have some : 0 < src.length := List.length_pos_iff.mpr more
    have pos : 0 < pageChunk dst src.length := pageChunk_pos some
    have le : pageChunk dst src.length ≤ src.length := pageChunk_le dst src.length
    have next : (dst + BitVec.ofNat 32 (pageChunk dst src.length)).toNat = dst.toNat + pageChunk dst src.length :=
      Word.toNat_add_ofNat (by omega)
    have rest := ih (by rw [next]; omega) (by rw [next, List.length_drop]; omega)
    exact (flWpage_spares found fuel lower upper low (by omega)).bind fun _ => rest

theorem flashRead_spares (pos : Size) (n : Nat) : Keeps (Spares lo hi) (flashRead c pos n) := by
  have manual : Keeps (Spares lo hi) (flashReadManual c pos n) := by
    have read : Keeps (Spares lo hi) ((sfc direct switches (some c.info)).cmdRd cmdRead (some (pos.setWidth 32)) n) :=
      cmdRd_spares n fun _ => rfl
    rw [flashReadManual, found.ctrl]
    exact read
  rw [flashRead, found.ctrl]
  cases direct with
  | true => exact Keeps.ite (access_spares fun _ _ _ => rfl) manual
  | false => exact manual

theorem flashRead_ok {pos : Size} {n : Nat} {s s' : Faulty Board} {bs : List Byte}
    (run : (flashRead c pos n).run s = .ok bs s') : bs = ByteMem.read s.dev.mem (pos.setWidth 32 : Word).toNat n := by
  have manual (run : (flashReadManual c pos n).run s = .ok bs s') :
      bs = ByteMem.read s.dev.mem (pos.setWidth 32 : Word).toNat n := by
    rw [flashReadManual, found.ctrl] at run
    obtain ⟨_, s₁, first, second⟩ := bind_ok_iff.mp run
    have same : Spares 0 0 s s₁ := by
      refine (command_spares fun x reached => ?_).ok first
      cases reached
    obtain ⟨rfl, _⟩ := Faulty.access_ok second
    have array : s₁.dev.mem = s.dev.mem := funext fun x => same x (Or.inr (Nat.zero_le x))
    show ByteMem.read s₁.dev.mem _ n = _
    rw [array]
  rw [flashRead, found.ctrl] at run
  cases direct with
  | true =>
    change (if c.HighLevel then _ else _ : Prog _ _).run s = _ at run
    split at run
    · exact (Faulty.access_ok run).1
    · exact manual run
  | false => exact manual run

theorem flashVerify_spares {dst : Word} {src : List Byte} : Keeps (Spares lo hi) (flashVerify c dst src) := by
  induction dst, src using flashVerify.induct with
  | case1 dst =>
    rw [flashVerify, dif_pos rfl]
    exact keeps_pure ()
  | case2 dst src more chunk ih =>
    rw [flashVerify, dif_neg more]
    refine (flashRead_spares found _ _).bind fun vbuf => ?_
    exact Keeps.ite (keeps_fail eremoteio) ih

/-- What passes the verification is in the array. -/
theorem flashVerify_ok {dst : Word} {src : List Byte} (fits : dst.toNat + src.length < 2 ^ 32) {s s' : Faulty Board}
    (run : (flashVerify c dst src).run s = .ok () s') : ByteMem.read s.dev.mem dst.toNat src.length = src := by
  induction dst, src using flashVerify.induct generalizing s with
  | case1 dst => rfl
  | case2 dst src more chunk ih =>
    have some : 0 < src.length := List.length_pos_iff.mpr more
    have le : verifyChunk src.length ≤ src.length := verifyChunk_le src.length
    rw [flashVerify, dif_neg more] at run
    obtain ⟨vbuf, s₁, read, rest⟩ := bind_ok_iff.mp run
    have array : s₁.dev.mem = s.dev.mem :=
      funext fun x => (flashRead_spares found _ _).ok read x (show x < 0 ∨ 0 ≤ x from Or.inr (Nat.zero_le x))
    have value := flashRead_ok found read
    rw [BitVec.setWidth_setWidth_of_le _ (by decide), BitVec.setWidth_eq] at value
    by_cases differ : vbuf ≠ src.take (verifyChunk src.length)
    · rw [if_pos differ] at rest
      cases rest
    · rw [if_neg differ] at rest
      have next : (dst + BitVec.ofNat 32 (verifyChunk src.length)).toNat = dst.toNat + verifyChunk src.length :=
        Word.toNat_add_ofNat (by omega)
      have tail := ih (by rw [next, List.length_drop]; omega) rest
      rw [array, next, List.length_drop] at tail
      have split : src.length = verifyChunk src.length + (src.length - verifyChunk src.length) := by omega
      calc ByteMem.read s.dev.mem dst.toNat src.length
          = ByteMem.read s.dev.mem dst.toNat (verifyChunk src.length) ++
              ByteMem.read s.dev.mem (dst.toNat + verifyChunk src.length) (src.length - verifyChunk src.length) := by
            rw [← ByteMem.read_add, ← split]
        _ = src.take (verifyChunk src.length) ++ src.drop (verifyChunk src.length) := by
            rw [tail, ← value, not_not.mp differ]
        _ = src := List.take_append_drop _ src

theorem flashWriteData_spares {dst : Word} {src : List Byte} (fuel : Nat) (lower : lo % 0x100 = 0)
    (upper : hi % 0x100 = 0) (low : lo ≤ dst.toNat) (high : dst.toNat + src.length ≤ hi) (bound : hi < 2 ^ 32) :
    Keeps (Spares lo hi) (flashWriteData c fuel dst src) := by
  rw [flashWriteData, found.ctrl]
  show Keeps (Spares lo hi) (flashWriteManual c fuel dst src)
  rw [flashWriteManual]
  exact Keeps.ite (keeps_fail eopnotsupp) (flashWritePages_spares found fuel lower upper low high bound)

theorem flashWrite_spares {dst : Word} {src : List Byte} (fuel : Nat) (lower : lo % 0x100 = 0)
    (upper : hi % 0x100 = 0) (low : lo ≤ dst.toNat) (high : dst.toNat + src.length ≤ hi) (bound : hi < 2 ^ 32) :
    Keeps (Spares lo hi) (flashWrite c fuel dst src true) := by
  rw [flashWrite]
  refine Keeps.ite (keeps_fail einval) ?_
  exact (flashWriteData_spares found fuel lower upper low high bound).bind fun _ => flashVerify_spares found

theorem flashWrite_ok {dst : Word} {src : List Byte} (fuel : Nat) (fits : dst.toNat + src.length < 2 ^ 32)
    {s s' : Faulty Board} (run : (flashWrite c fuel dst src true).run s = .ok () s') :
    ByteMem.read s'.dev.mem dst.toNat src.length = src := by
  rw [flashWrite] at run
  split at run
  · cases run
  · obtain ⟨_, s₁, _, verify⟩ := bind_ok_iff.mp run
    rw [if_pos rfl] at verify
    have array : s'.dev.mem = s₁.dev.mem :=
      funext fun x => (flashVerify_spares found).ok verify x (show x < 0 ∨ 0 ≤ x from Or.inr (Nat.zero_le x))
    rw [array]
    exact flashVerify_ok found fits verify

end

/-- A window of the image is one block of every chip of the table. -/
theorem best_window {info : FlashInfo} (known : info ∈ flashInfos) {dst : Word} (aligned : dst.toNat % 0x10000 = 0) :
    flGetBestErase info.flags dst 0x10000 = (0x10000, cmdBe) := by
  have blocks : ∀ info ∈ flashInfos, info.flags &&& flErase64k ≠ 0 := by decide
  have low : dst &&& 0x7fff = 0 := BitVec.and_mask_eq_zero (by decide : 15 ≤ 32) (by omega)
  have window : dst &&& 0xffff = 0 := BitVec.and_mask_eq_zero (by decide : 16 ≤ 32) aligned
  have large : ¬ (dst &&& 0x7fff ≠ 0 ∨ (0x10000 : Word) < 0x8000) := by
    rw [low]
    decide
  have whole : ¬ (info.flags &&& flErase32k ≠ 0 ∧ (dst &&& 0xffff ≠ 0 ∨ (0x10000 : Word) < 0x10000)) := by
    rw [window]
    rintro ⟨_, split | few⟩
    · exact split rfl
    · exact absurd few (by decide)
  rw [flGetBestErase, if_neg large, if_neg whole, if_neg (blocks info known)]

theorem eraseWindow_fits {c : FlashChip (Faulty Board)} {dst : Word} {fuel : Nat} {s s' : Faulty Board}
    (run : (flashErase c fuel (dst.setWidth 64) 0x10000).run s = .ok () s') : dst.toNat + 0x10000 ≤ c.tsize.toNat := by
  have bound := dst.isLt
  have stop : (dst.setWidth 64 + 0x10000 : Size).toNat = dst.toNat + 0x10000 := by
    rw [BitVec.toNat_add, BitVec.toNat_setWidth_of_le (by decide)]
    exact Nat.mod_eq_of_lt (by show dst.toNat + 65536 < _; omega)
  rw [flashErase] at run
  split at run
  · cases run
  · rename_i range
    have within : ¬ (dst.setWidth 64 + 0x10000 : Size) > c.tsize.setWidth 64 := fun beyond => range (Or.inr (Or.inr beyond))
    rw [gt_iff_lt, BitVec.lt_def, stop, BitVec.toNat_setWidth_of_le (by decide)] at within
    omega

theorem eraseWindow_turn {c : FlashChip (Faulty Board)} (known : c.info ∈ flashInfos) {dst : Word} (fuel : Nat)
    (aligned : dst.toNat % 0x10000 = 0) : flashEraseTurn c fuel (dst.setWidth 64, 0x10000) = (do
      flWren c.ctrl fuel
      c.ctrl.cmdWr cmdBe (some dst) []
      flSyncWaitIdle c.ctrl fuel
      return .inl (dst.setWidth 64 + 0x10000, 0)) := by
  have narrow : (dst.setWidth 64).setWidth 32 = dst := by
    rw [BitVec.setWidth_setWidth_of_le _ (by decide), BitVec.setWidth_eq]
  have size : (0x10000 : Size).setWidth 32 = (0x10000 : Word) := rfl
  have some : (0x10000 : Size) ≠ 0 := by decide
  rw [flashEraseTurn, if_neg some, narrow, size, best_window known aligned]
  rfl

section
variable {direct switches : Bool} {c : FlashChip (Faulty Board)} (found : Found direct switches c)
include found

theorem eraseWindow_spares {dst : Word} (fuel : Nat) (aligned : dst.toNat % 0x10000 = 0) :
    Keeps (Spares dst.toNat (dst.toNat + 0x10000)) (flashErase c fuel (dst.setWidth 64) 0x10000) := by
  have last (turns : Nat) : Keeps (Spares dst.toNat (dst.toNat + 0x10000))
      (Prog.loop (flashEraseTurn c fuel) turns (dst.setWidth 64 + 0x10000, 0)) := by
    cases turns with
    | zero => exact keeps_throw .hang
    | succ turns => exact keeps_pure ()
  have loop : Keeps (Spares dst.toNat (dst.toNat + 0x10000))
      (Prog.loop (flashEraseTurn c fuel) fuel (dst.setWidth 64, 0x10000)) := by
    cases fuel with
    | zero => exact keeps_throw .hang
    | succ turns =>
      rw [Prog.loop, eraseWindow_turn found.known _ aligned]
      simp only [bind_assoc, pure_bind]
      rw [found.ctrl]
      refine (flWren_spares _).bind fun _ => (cmdWr_spares [] fun x reached => ?_).bind fun _ =>
        (flSyncWaitIdle_spares _).bind fun _ => last turns
      have block : x / 0x10000 = dst.toNat / 0x10000 := of_decide_eq_true reached
      omega
  rw [flashErase]
  refine Keeps.ite (keeps_fail einval) (Keeps.ite (keeps_fail einval) ?_)
  rw [found.ctrl]
  exact loop

end

end Board

end Culvert
