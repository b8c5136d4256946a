import Culvert.Hw.NorChip
import Culvert.Lib.Ends

namespace Culvert

namespace NorChip

/-- The chip once a program or an erase is done. -/
def done (d : NorChip) (op : NorOp) : NorChip :=
  { d with mem := apply d.flags op d.mem, wel := false, busy := 0, ops := op :: d.ops }

/-- The chip has gone from `d` to `d'`, where it is idle and has the array `mem`, by operations that
satisfy `P`. -/
structure Worked (P : NorOp → Prop) (mem : Mem) (d d' : NorChip) : Prop where
  idle : d'.busy = 0
  flags : d'.flags = d.flags
  array : d'.mem = mem
  ops : ∃ new, d'.ops = new ++ d.ops ∧ ∀ op ∈ new, P op

namespace Worked
variable {P Q : NorOp → Prop} {mem mem' : Mem} {d d₁ d' : NorChip}

theorem refl (idle : d.busy = 0) : Worked P d.mem d d := ⟨idle, rfl, rfl, [], rfl, fun _ never => nomatch never⟩

theorem trans (first : Worked P mem d d₁) (next : Worked P mem' d₁ d') : Worked P mem' d d' := by
  obtain ⟨new, ops, all⟩ := first.ops
  obtain ⟨new', ops', all'⟩ := next.ops
  refine ⟨next.idle, next.flags.trans first.flags, next.array, new' ++ new, ?_, fun op mem => ?_⟩
  · rw [ops', ops, List.append_assoc]
  · rcases List.mem_append.mp mem with late | early
    · exact all' op late
    · exact all op early

theorem mono (worked : Worked P mem d d') (imp : ∀ op, P op → Q op) : Worked Q mem d d' := by
  obtain ⟨new, ops, all⟩ := worked.ops
  exact ⟨worked.idle, worked.flags, worked.array, new, ops, fun op mem => imp op (all op mem)⟩

theorem done {op : NorOp} (ok : P op) : Worked P (apply d.flags op d.mem) d (d.done op) := by
  refine ⟨rfl, rfl, rfl, [op], rfl, fun op' mem => ?_⟩
  rw [List.mem_singleton.mp mem]
  exact ok

end Worked

end NorChip

open NorChip

section
variable {direct switches : Bool} {finfo : FlashInfo} {d : NorChip}

theorem flReadStat_nor : (flReadStat (NorChip.sfc direct switches finfo)).run d =
    .ok d.status { d with busy := d.busy - 1 } := rfl

theorem status_idle (idle : d.busy = 0) : d.status &&& statWip = 0 := by
  rw [status, if_pos idle]
  cases d.wel <;> rfl

theorem status_busy (busy : d.busy ≠ 0) : d.status &&& statWip ≠ 0 := by
  rw [status, if_neg busy]
  cases d.wel <;> decide

theorem status_enabled (idle : d.busy = 0) (wel : d.wel = true) : d.status &&& statWen ≠ 0 := by
  rw [status, if_pos idle, if_pos wel]
  decide

theorem flIdle_nor : (flIdle (NorChip.sfc direct switches finfo)).run d = .ok () d := by
  have flag : (flMicronStatus (NorChip.sfc direct switches finfo)).run d = .ok () d := rfl
  rw [flIdle]
  show (if finfo.flags &&& flMicronBugs ≠ 0 then flMicronStatus _ else pure ()).run d = _
  split
  · exact flag
  · rfl

/-- A chip that is busy for `n` more status reads is waited for. -/
theorem flSyncWaitIdle_turns (n : Nat) (busy : d.busy = n) :
    Prog.LoopEnds (fun _ => flSyncWaitIdleTurn (NorChip.sfc direct switches finfo)) (n + 1) () d () { d with busy := 0 } := by
  induction n generalizing d with
  | zero =>
    refine .last (.of_run ?_)
    rw [flSyncWaitIdleTurn, Prog.run_bind_ok flReadStat_nor, if_pos (status_idle busy), Prog.run_bind_ok flIdle_nor]
    rw [busy]
    rfl
  | succ n ih =>
    have fewer : ({ d with busy := d.busy - 1 } : NorChip).busy = n := by
      rw [busy]
      rfl
    have turn : (flSyncWaitIdleTurn (NorChip.sfc direct switches finfo) ()).run d =
        .ok (.inl ()) { d with busy := d.busy - 1 } := by
      rw [flSyncWaitIdleTurn, Prog.run_bind_ok flReadStat_nor, if_neg (status_busy (by omega))]
      rfl
    exact .next (.of_run turn) (ih fewer)

theorem flSyncWaitIdle_nor :
    Prog.Ends (flSyncWaitIdle (NorChip.sfc direct switches finfo)) d () { d with busy := 0 } :=
  (flSyncWaitIdle_turns d.busy rfl).ends

theorem flWrenLoop_nor (idle : d.busy = 0) (fuel tries : Nat) :
    (flWrenLoop (NorChip.sfc direct switches finfo) fuel (tries + 1)).run d = .ok () { d with wel := true } := by
  have enabled : d.write cmdWren none [] = { d with wel := true } := by
    rw [NorChip.write]
    exact if_pos ⟨rfl, idle⟩
  have wren : ((NorChip.sfc direct switches finfo).cmdWr cmdWren none []).run d = .ok () { d with wel := true } := by
    rw [← enabled]
    rfl
  have ready : ({ d with wel := true } : NorChip).busy = 0 := idle
  rw [flWrenLoop, Prog.run_bind_ok wren, Prog.run_bind_ok flReadStat_nor, if_neg (not_not.mpr (status_idle ready)),
    if_pos (status_enabled ready rfl), ready]
  rfl

theorem flWren_nor (idle : d.busy = 0) :
    Prog.Ends (flWren (NorChip.sfc direct switches finfo)) d () { d with wel := true } :=
  ⟨0, fun fuel _ => flWrenLoop_nor idle fuel 999⟩

/-- The write enable, a program or an erase, and the wait. -/
theorem modify_then {α : Type} {op : Byte} {addr : Option Word} {buf : List Byte} {what : NorOp} {d' : NorChip}
    {next : Nat → Prog NorChip α} {a : α} (idle : d.busy = 0) (effect : ∀ d : NorChip, d.write op addr buf = d.modify what)
    (rest : Prog.Ends next (d.done what) a d') :
    Prog.Ends (fun fuel => do
      flWren (NorChip.sfc direct switches finfo) fuel
      (NorChip.sfc direct switches finfo).cmdWr op addr buf
      flSyncWaitIdle (NorChip.sfc direct switches finfo) fuel
      next fuel) d a d' := by
  refine (flWren_nor idle).bind ?_
  have through : ((NorChip.sfc direct switches finfo).cmdWr op addr buf).run { d with wel := true } =
      .ok () (modify { d with wel := true } what) := by
    rw [← effect]
    rfl
  refine (Prog.Ends.of_run through).bind ?_
  have accepted : modify { d with wel := true } what =
      { d with mem := apply d.flags what d.mem, wel := false, busy := d.latency d.ops.length, ops := what :: d.ops } :=
    if_pos ⟨rfl, idle⟩
  rw [accepted]
  exact flSyncWaitIdle_nor.bind rest

theorem modify_nor {op : Byte} {addr : Option Word} {buf : List Byte} {what : NorOp} (idle : d.busy = 0)
    (effect : ∀ d : NorChip, d.write op addr buf = d.modify what) :
    Prog.Ends (fun fuel => do
      flWren (NorChip.sfc direct switches finfo) fuel
      (NorChip.sfc direct switches finfo).cmdWr op addr buf
      flSyncWaitIdle (NorChip.sfc direct switches finfo) fuel) d () (d.done what) := by
  have ends := @modify_then direct switches finfo d Unit op addr buf what _ (fun _ => pure ()) () idle effect (.pure ())
  simpa only [bind_pure_unit] using ends

end

theorem flWpage_array (flags : Word) (mem : Mem) {dst : Word} {src : List Byte}
    (fits : dst.toNat % 0x100 + src.length ≤ 0x100) :
    apply flags (.program dst src) mem = anded mem dst.toNat src := by
  rw [apply, programPage_eq fits]
  congr 1
  omega

/-- The range check of `flash_write` lets all of the chip through. -/
theorem flashWrite_range {tsize dst : Word} {n : Nat} (some : 0 < n) (fits : dst.toNat + n ≤ tsize.toNat) :
    ¬ (dst + BitVec.ofNat 32 n ≤ dst ∨ BitVec.ofNat 32 n = 0 ∨ dst + BitVec.ofNat 32 n > tsize) := by
  have bound := tsize.isLt
  have size : (BitVec.ofNat 32 n).toNat = n := by
    rw [BitVec.toNat_ofNat, Nat.mod_eq_of_lt (by omega)]
  refine (BitVec.range_iff dst (BitVec.ofNat 32 n) tsize).mpr ?_
  rw [size]
  exact ⟨some, fits⟩

section
variable {direct switches : Bool} {finfo : FlashInfo} {c : FlashChip NorChip} {d : NorChip}
variable (ctrl : c.ctrl = NorChip.sfc direct switches finfo)
include ctrl

theorem flashRead_nor {pos : Size} (idle : d.busy = 0) (small : pos.toNat < 2 ^ 32) (n : Nat) :
    (flashRead c pos n).run d = .ok (ByteMem.read d.mem pos.toNat n) d := by
  have address : (pos.setWidth 32).toNat = pos.toNat := by
    rw [BitVec.toNat_setWidth, Nat.mod_eq_of_lt small]
  have array : d.array (pos.setWidth 32) n = ByteMem.read d.mem pos.toNat n := by
    rw [NorChip.array, if_pos idle, address]
  have manual : (flashReadManual c pos n).run d = .ok (ByteMem.read d.mem pos.toNat n) d := by
    rw [flashReadManual, ctrl, ← array]
    rfl
  rw [flashRead, ctrl]
  cases direct with
  | false => exact manual
  | true =>
    show (if c.HighLevel then _ else flashReadManual c pos n).run d = _
    split
    · rw [← array]
      rfl
    · exact manual

/-- A program of a page, or of what is left of it. -/
theorem flWpage_nor {dst : Word} {src : List Byte} (idle : d.busy = 0) (some : 0 < src.length)
    (fits : dst.toNat % 0x100 + src.length ≤ 0x100) :
    Prog.Ends (fun fuel => flWpage c fuel dst src) d () (d.done (.program dst src)) := by
  refine .ite_neg (by omega) ?_
  rw [ctrl]
  exact modify_nor idle fun _ => rfl

/-- What a page program may be. -/
def PageProgram : NorOp → Prop
  | .program addr bs => 0 < bs.length ∧ addr.toNat % 0x100 + bs.length ≤ 0x100
  | .erase _ _ => False

theorem flashWritePages_nor {dst : Word} {src : List Byte} (idle : d.busy = 0)
    (small : dst.toNat + src.length < 2 ^ 32) : ∃ d', Prog.Ends (fun fuel => flashWritePages c fuel dst src) d () d' ∧
      Worked PageProgram (anded d.mem dst.toNat src) d d' := by
  induction dst, src using flashWritePages.induct generalizing d with
  | case1 dst =>
    refine ⟨d, ?_, ?_⟩
    · refine .congr (fun fuel => by rw [flashWritePages, dif_pos rfl]) (.pure ())
    · have nothing : anded d.mem dst.toNat [] = d.mem := by simp [anded]
      rw [nothing]
      exact .refl idle
  | case2 dst src more k =>
    rename_i ih
    have some : 0 < src.length := List.length_pos_iff.mpr more
    have pos : 0 < k := pageChunk_pos some
    have le : k ≤ src.length := pageChunk_le dst src.length
    have page : dst.toNat % 0x100 + k ≤ 0x100 := pageChunk_page dst src.length
    have length : (src.take k).length = k := List.length_take_of_le le
    have next : (dst + BitVec.ofNat 32 k).toNat = dst.toNat + k := Word.toNat_add_ofNat (by omega)
    have fits : dst.toNat % 0x100 + (src.take k).length ≤ 0x100 := by omega
    have whole : anded d.mem dst.toNat src = anded (anded d.mem dst.toNat (src.take k)) (dst.toNat + k) (src.drop k) := by
      conv_lhs => rw [← List.take_append_drop k src]
      rw [anded_append, length]
    have first := flWpage_nor ctrl idle (by omega) fits
    have worked : Worked PageProgram (anded d.mem dst.toNat (src.take k)) d (d.done (.program dst (src.take k))) := by
      rw [← flWpage_array d.flags d.mem fits]
      exact .done ⟨by omega, fits⟩
    obtain ⟨d', rest, worked'⟩ := ih worked.idle (by rw [next, List.length_drop]; omega)
    have both := first.bind (f := fun fuel _ => flashWritePages c fuel (dst + BitVec.ofNat 32 k) (src.drop k)) rest
    refine ⟨d', .congr (fun fuel => ?_) both, ?_⟩
    · rw [flashWritePages, dif_neg more]
    · rw [worked.array, next] at worked'
      rw [whole]
      exact worked.trans worked'

/-- The verification tells whether the array holds the bytes. -/
theorem flashVerify_run {dst : Word} {src : List Byte} (idle : d.busy = 0) (small : dst.toNat + src.length < 2 ^ 32) :
    (flashVerify c dst src).run d =
      if ByteMem.read d.mem dst.toNat src.length = src then .ok () d else .error (.rc eremoteio) d := by
  induction dst, src using flashVerify.induct with
  | case1 dst =>
    rw [flashVerify, dif_pos rfl]
    rfl
  | case2 dst src more k =>
    rename_i ih
    have some : 0 < src.length := List.length_pos_iff.mpr more
    have pos : 0 < k := verifyChunk_pos some
    have le : k ≤ src.length := verifyChunk_le src.length
    have next : (dst + BitVec.ofNat 32 k).toNat = dst.toNat + k := Word.toNat_add_ofNat (by omega)
    have wide : (dst.setWidth 64).toNat = dst.toNat := BitVec.toNat_setWidth_of_le (by decide)
    have seen : (flashRead c (dst.setWidth 64) k).run d = .ok (ByteMem.read d.mem (dst.setWidth 64).toNat k) d :=
      flashRead_nor ctrl idle (by omega) k
    have rest := ih (by rw [next, List.length_drop]; omega)
    rw [next, List.length_drop] at rest
    have whole : ByteMem.read d.mem dst.toNat src.length = src ↔ ByteMem.read d.mem dst.toNat k = src.take k ∧
        ByteMem.read d.mem (dst.toNat + k) (src.length - k) = src.drop k := by
      have split := ByteMem.read_add d.mem dst.toNat k (src.length - k)
      rw [Nat.add_sub_cancel' le] at split
      rw [split]
      conv_lhs => rhs; rw [← List.take_append_drop k src]
      exact ⟨fun same => List.append_inj same (by simp [le]), fun both => by rw [both.1, both.2]⟩
    rw [flashVerify, dif_neg more, Prog.run_bind_ok seen, wide]
    by_cases head : ByteMem.read d.mem dst.toNat k = src.take k
    · rw [if_neg (not_not.mpr head), rest]
      simp only [whole, head, true_and]
    · rw [if_pos head, if_neg fun both => head (whole.mp both).1]
      rfl

theorem flashVerify_nor {dst : Word} {src : List Byte} (idle : d.busy = 0) (small : dst.toNat + src.length < 2 ^ 32)
    (stored : ByteMem.read d.mem dst.toNat src.length = src) : (flashVerify c dst src).run d = .ok () d := by
  rw [flashVerify_run ctrl idle small, if_pos stored]

theorem flashWriteData_nor (fuel : Nat) (dst : Word) (src : List Byte) :
    flashWriteData c fuel dst src = flashWritePages c fuel dst src := by
  rw [flashWriteData, ctrl]
  show flashWriteManual c fuel dst src = _
  rw [flashWriteManual, ctrl]
  rfl

/-- A verified write where the array has all the bits that are to be stored. -/
theorem flashWrite_nor {dst : Word} {src : List Byte} (idle : d.busy = 0) (some : 0 < src.length)
    (fits : dst.toNat + src.length ≤ c.tsize.toNat)
    (covered : ∀ i (inside : i < src.length), src[i] &&& ~~~d.mem (dst.toNat + i) = 0) :
    ∃ d', Prog.Ends (fun fuel => flashWrite c fuel dst src true) d () d' ∧
      Worked PageProgram (ByteMem.write d.mem dst.toNat src) d d' := by
  have bound := c.tsize.isLt
  have small : dst.toNat + src.length < 2 ^ 32 := by omega
  obtain ⟨d', ends, worked⟩ := flashWritePages_nor ctrl idle small
  rw [anded_eq_write covered] at worked
  refine ⟨d', .ite_neg (flashWrite_range some fits) ?_, worked⟩
  simp only [flashWriteData_nor ctrl]
  refine ends.bind (.of_run ?_)
  refine flashVerify_nor ctrl worked.idle small ?_
  rw [worked.array, ByteMem.read_write]

end

end Culvert
