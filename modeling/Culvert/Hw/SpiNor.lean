import Culvert.Flash.Init
import Culvert.Hw.Spi

namespace Culvert

/-- A flash chip: its address mode, which a chip without a 4-byte mode cannot leave, its write enable
latch, and the number of status reads until it is idle. Some chips want a write enable before they
change their address mode. -/
structure SpiNor where
  info : FlashInfo
  wantsWren : Bool
  mode4b : Bool
  able : mode4b = true → info.flags &&& flCan4b ≠ 0
  wel : Bool
  protect : Byte
  busy : Nat
  mem : Mem

namespace SpiNor

def idBytes (info : FlashInfo) : List Byte := [info.id.byte 2, info.id.byte 1, info.id.byte 0]

def status (c : SpiNor) : Byte :=
  (if c.busy ≠ 0 then statWip else 0) ||| (if c.wel then statWen else 0) ||| (c.protect &&& 0xfc)

/-- A change of the address mode is accepted with writes enabled, where the chip wants them to be. -/
def Accepts (c : SpiNor) : Prop := c.wantsWren = true → c.wel = true

instance (c : SpiNor) : Decidable c.Accepts := inferInstanceAs (Decidable (_ → _))

def enabled (c : SpiNor) : SpiNor := { c with wel := true }

def enter4b (c : SpiNor) : SpiNor :=
  if can : c.info.flags &&& flCan4b ≠ 0 then { c with mode4b := true, able := fun _ => can } else c

def exit4b (c : SpiNor) : SpiNor := { c with mode4b := false, able := fun on => nomatch on }

/-- The command that was sent. A busy chip takes none but status reads. -/
def execute (sent : List Byte) (c : SpiNor) : SpiNor :=
  if c.busy ≠ 0 then { c with busy := c.busy - 1 }
  else if sent = [cmdWren] then c.enabled
  else if sent = [cmdEn4b] ∧ c.Accepts then c.enter4b
  else if sent = [cmdEx4b] ∧ c.Accepts then c.exit4b
  else c

/-- The byte that comes back `given` bytes after the command was sent. -/
def answer (sent : List Byte) (given : Nat) (c : SpiNor) : Byte :=
  if sent = [cmdRdsr] then c.status
  else if sent = [cmdRdid] then (idBytes c.info).getD given 0
  else 0

section
variable {c : SpiNor} {sent : List Byte}

theorem execute_wren (idle : c.busy = 0) : execute [cmdWren] c = c.enabled := by
  rw [execute, if_neg (not_not.mpr idle), if_pos rfl]

theorem execute_en4b (idle : c.busy = 0) (accepts : c.Accepts) : execute [cmdEn4b] c = c.enter4b := by
  have differ : [cmdEn4b] ≠ [cmdWren] := by decide
  rw [execute, if_neg (not_not.mpr idle), if_neg differ, if_pos ⟨rfl, accepts⟩]

theorem execute_ex4b (idle : c.busy = 0) (accepts : c.Accepts) : execute [cmdEx4b] c = c.exit4b := by
  have differ : [cmdEx4b] ≠ [cmdWren] ∧ [cmdEx4b] ≠ [cmdEn4b] := by decide
  rw [execute, if_neg (not_not.mpr idle), if_neg differ.1, if_neg (fun both => differ.2 both.1), if_pos ⟨rfl, accepts⟩]

theorem execute_other (idle : c.busy = 0) (other : sent ∉ [[cmdWren], [cmdEn4b], [cmdEx4b]]) : execute sent c = c := by
  simp only [List.mem_cons, List.not_mem_nil, or_false, not_or] at other
  obtain ⟨wren, en4b, ex4b⟩ := other
  rw [execute, if_neg (not_not.mpr idle), if_neg wren, if_neg (fun both => en4b both.1),
    if_neg (fun both => ex4b both.1)]

/-- The protection bits hide neither WIP nor WEN. -/
theorem status_and {mask : Byte} (apart : 0xfc &&& mask = 0) : c.status &&& mask =
    ((if c.busy ≠ 0 then statWip else 0) ||| (if c.wel then statWen else 0)) &&& mask := by
  have none : c.protect &&& 0xfc &&& mask = 0#8 := by
    rw [BitVec.and_assoc, apart]
    exact BitVec.and_zero
  rw [status, BitVec.and_comm, BitVec.and_or_distrib_left, BitVec.and_comm mask (c.protect &&& 0xfc), none,
    BitVec.or_zero, BitVec.and_comm]

theorem status_wip_iff : c.status &&& statWip ≠ 0 ↔ c.busy ≠ 0 := by
  rw [status_and (by decide)]
  by_cases busy : c.busy ≠ 0
  · rw [if_pos busy]
    cases c.wel
    · exact iff_of_true (by decide) busy
    · exact iff_of_true (by decide) busy
  · rw [if_neg busy]
    cases c.wel
    · exact iff_of_false (by decide) busy
    · exact iff_of_false (by decide) busy

theorem status_wen (enabled : c.wel = true) : c.status &&& statWen ≠ 0 := by
  rw [status_and (by decide), enabled]
  split
  · decide
  · decide

end

end SpiNor

/-- The chip on the bus, with the bytes shifted out and the number shifted in since CE# went active. -/
structure SpiNorBus where
  chip : SpiNor
  sent : List Byte
  given : Nat

namespace SpiNorBus

/-- A command is carried out when CE# goes inactive. -/
def spi : SpiChip SpiNorBus where
  select w := ⟨w.chip, [], 0⟩
  deselect w := ⟨w.chip.execute w.sent, [], 0⟩
  shiftOut b w := { w with sent := w.sent ++ [b] }
  shiftIn w := (w.chip.answer w.sent w.given, { w with given := w.given + 1 })
  mapped w := w.chip.mem

variable {c : SpiNor} {sent : List Byte} {n given : Nat}

theorem sends_spi (w : SpiNorBus) (out : List Byte) : spi.sends out w = { w with sent := w.sent ++ out } := by
  induction out generalizing w with
  | nil =>
    rw [List.append_nil]
    rfl
  | cons b out ih =>
    rw [SpiChip.sends, ih]
    simp only [spi, List.append_assoc, List.singleton_append]

theorem receives_spi : spi.receives n ⟨c, sent, given⟩ =
    ((List.range n).map fun i => c.answer sent (given + i), ⟨c, sent, given + n⟩) := by
  induction n generalizing given with
  | zero => rfl
  | succ n ih =>
    have rest : spi.receives n (spi.shiftIn ⟨c, sent, given⟩).2 = _ := ih
    rw [SpiChip.receives, rest, List.range_succ_eq_map, List.map_cons, List.map_map, Nat.add_assoc, Nat.add_comm 1]
    simp only [Prod.mk.injEq, List.cons.injEq, and_true]
    refine ⟨rfl, List.map_congr_left fun i _ => ?_⟩
    rw [Function.comp_apply, Nat.succ_eq_add_one, Nat.add_comm i, Nat.add_assoc]

/-- One command and what is read back. -/
theorem transfer_spi (w : SpiNorBus) (out : List Byte) (n : Nat) : spi.transfer out n w =
    ((List.range n).map (w.chip.answer out), ⟨w.chip.execute out, [], 0⟩) := by
  rw [SpiChip.transfer, sends_spi]
  have selected : spi.select w = ⟨w.chip, [], 0⟩ := rfl
  rw [selected, List.nil_append, receives_spi]
  simp only [Nat.zero_add]
  rfl

end SpiNorBus

end Culvert
