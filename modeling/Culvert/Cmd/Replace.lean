import Culvert.AhbSiphon
import Culvert.Lib.Occurrences
import Culvert.Lib.Total
import Culvert.Soc.Sdmc

namespace Culvert
open Prog

/-- `DUMP_RAM_WIN`. -/
def dumpRamWin : Nat := 8 <<< 20

/-- MATCH and REPLACE as `cmd_replace_parse_opt` lets them through. -/
structure ReplaceArgs where
  memMatch : List Byte
  memReplace : List Byte
  fits : memReplace.length ≤ memMatch.length

section
variable {σ : Type} (ops : AhbOps σ) (arguments : ReplaceArgs)

/-- One match: how far into the window the search has come, and what `rc` is left at. -/
def replaceTurn (ramCursor : Nat) (winChunk : List Byte) (s : Nat × Int) : Prog σ ((Nat × Int) ⊕ Int) := do
  let (needle, rc) := s
  match Text.memmem arguments.memMatch (winChunk.drop needle) with
  | none => return .inr rc
  | some found => do
    let needle := needle + found
    match ← attempt (ops.write (BitVec.ofNat 32 (ramCursor + needle)) arguments.memReplace) with
    | .error e => return .inr e.code
    | .ok () => do
      let rc : Int := arguments.memReplace.length
      if needle + arguments.memMatch.length > dumpRamWin then return .inr rc
      return .inl (needle + arguments.memMatch.length, rc)

/-- One window. -/
def replaceWindowTurn (fuel vramStart : Nat) (s : Nat × Int) : Prog σ ((Nat × Int) ⊕ Int) := do
  let (ramCursor, rc) := s
  if ¬ ramCursor < vramStart then return .inr rc
  let winChunk ← ops.read (BitVec.ofNat 32 ramCursor) dumpRamWin
  if winChunk.length ≠ dumpRamWin then return .inr winChunk.length
  let rc ← loop (replaceTurn ops arguments ramCursor winChunk) fuel (0, dumpRamWin)
  return .inl (ramCursor + dumpRamWin, rc)

/-- `do_replace` once the memory controller is acquired. -/
def doReplace (readl : Word → Prog σ Word) (gen : AstGeneration) (fuel : Nat) : Prog σ Int := do
  let dram := sdmcDramRegion gen (← readl ((sdmc gen).iomem + mcrConfig))
  let vram := sdmcVramRegion gen (← readl ((sdmc gen).iomem + mcrConfig))
  loop (replaceWindowTurn ops arguments fuel vram.start.toNat) fuel (dram.start.toNat, 0)

end

/-- A bridge without failures to the flat memory that `mem` makes of its state, and to a memory controller that
reads `conf`. -/
structure WholeAhb {σ : Type} (mem : σ → Mem) (ops : AhbOps σ) (readl : Word → Prog σ Word) (gen : AstGeneration)
    (conf : Word) : Prop where
  read : ∀ s (phys : Word) n, phys.toNat + n ≤ 2 ^ 32 → ∃ s',
    (ops.read phys n).run s = .ok (ByteMem.read (mem s) phys.toNat n) s' ∧ mem s' = mem s
  write : ∀ s (phys : Word) bs, phys.toNat + bs.length ≤ 2 ^ 32 → ∃ s',
    (ops.write phys bs).run s = .ok () s' ∧ mem s' = ByteMem.write (mem s) phys.toNat bs
  config : ∀ s, ∃ s', (readl ((sdmc gen).iomem + mcrConfig)).run s = .ok conf s' ∧ mem s' = mem s

/-- The windows below the VRAM. -/
def ramWindows (gen : AstGeneration) (conf : Word) : Nat :=
  ((sdmcVramRegion gen conf).start.toNat - (sdmcDramRegion gen conf).start.toNat) / dumpRamWin

/-- They reach to the VRAM exactly. -/
theorem ramWindows_whole (gen : AstGeneration) (conf : Word) : (sdmcVramRegion gen conf).start.toNat =
    (sdmcDramRegion gen conf).start.toNat + ramWindows gen conf * dumpRamWin ∧ ramWindows gen conf ≤ 256 := by
  rw [ramWindows, sdmcVramRegion, sdmcDramRegion]
  have small : (conf &&& 3).toNat < 4 := by
    have := Nat.and_two_pow_sub_one_eq_mod conf.toNat 2
    have low : (conf &&& 3).toNat = conf.toNat % 4 := this
    omega
  have small' : (conf >>> 2 &&& 3).toNat < 4 := by
    have := Nat.and_two_pow_sub_one_eq_mod (conf >>> 2).toNat 2
    have low : (conf >>> 2 &&& 3).toNat = (conf >>> 2).toNat % 4 := this
    omega
  generalize (conf &&& 3).toNat = i at small
  generalize (conf >>> 2 &&& 3).toNat = j at small'
  have all : ∀ gen, ∀ i < 4, ∀ j < 4, (dramStart gen + (dramSizes gen).getD i 0 - vramSizes.getD j 0).toNat =
      (dramStart gen).toNat + ((dramStart gen + (dramSizes gen).getD i 0 - vramSizes.getD j 0).toNat -
        (dramStart gen).toNat) / dumpRamWin * dumpRamWin ∧
      ((dramStart gen + (dramSizes gen).getD i 0 - vramSizes.getD j 0).toNat - (dramStart gen).toNat) / dumpRamWin ≤ 256 := by
    intro gen
    cases gen <;> decide
  exact all gen i small j small'

section
variable {σ : Type} {mem : σ → Mem} {ops : AhbOps σ} {readl : Word → Prog σ Word} {gen : AstGeneration} {conf : Word}
variable {arguments : ReplaceArgs} {fuel ramCursor : Nat} {winChunk : List Byte}

/-- A match that is found is overwritten, and the search goes on behind it. -/
theorem replaceTurn_some (whole : WholeAhb mem ops readl gen conf) {needle found : Nat} {rc : Int} (s : σ)
    (some' : Text.memmem arguments.memMatch (winChunk.drop needle) = some found)
    (inside : needle + found + arguments.memMatch.length ≤ dumpRamWin) (below : ramCursor + (needle + found) < 2 ^ 32)
    (range : ramCursor + dumpRamWin ≤ 2 ^ 32) :
    ∃ s', (replaceTurn ops arguments ramCursor winChunk (needle, rc)).run s =
      .ok (.inl (needle + found + arguments.memMatch.length, arguments.memReplace.length)) s' ∧
      mem s' = ByteMem.write (mem s) (ramCursor + (needle + found)) arguments.memReplace := by
  have fits := arguments.fits
  have address : (BitVec.ofNat 32 (ramCursor + (needle + found))).toNat = ramCursor + (needle + found) := by
    rw [BitVec.toNat_ofNat, Nat.mod_eq_of_lt below]
  obtain ⟨s', run, stored⟩ := whole.write s (BitVec.ofNat 32 (ramCursor + (needle + found))) arguments.memReplace (by
    rw [address]
    omega)
  rw [address] at stored
  refine ⟨s', ?_, stored⟩
  simp only [replaceTurn, some']
  rw [run_bind_ok (attempt_ok run)]
  simp only [if_neg (show ¬ needle + found + arguments.memMatch.length > dumpRamWin by omega)]
  rfl

theorem replaceTurns_whole (whole : WholeAhb mem ops readl gen conf) (some' : arguments.memMatch ≠ [])
    (size : winChunk.length = dumpRamWin) (range : ramCursor + dumpRamWin ≤ 2 ^ 32) {needle : Nat} {rc : Int} (s : σ)
    (enough : dumpRamWin < needle + fuel) (le : needle ≤ dumpRamWin) :
    ∃ rc' s', (loop (replaceTurn ops arguments ramCursor winChunk) fuel (needle, rc)).run s = .ok rc' s' ∧
      mem s' = ByteMem.overwrite (mem s) (ramCursor + needle) arguments.memReplace
        (Text.occurrences arguments.memMatch 0 (winChunk.drop needle)) := by
  have long : 0 < arguments.memMatch.length := List.length_pos_iff.mpr some'
  induction fuel generalizing needle rc s with
  | zero => omega
  | succ fuel ih =>
    rw [loop]
    cases found : Text.memmem arguments.memMatch (winChunk.drop needle) with
    | none =>
      rw [Text.occurrences_none found]
      refine ⟨rc, s, ?_, rfl⟩
      simp only [replaceTurn, found, pure_bind]
      rfl
    | some p =>
      have inside := Text.memmem_le found
      rw [List.length_drop, size] at inside
      obtain ⟨s₁, run, stored⟩ := @replaceTurn_some σ mem ops readl gen conf arguments ramCursor winChunk whole needle p rc s
        found (by omega) (by omega) range
      obtain ⟨rc', s', rest, last⟩ := @ih (needle + p + arguments.memMatch.length) arguments.memReplace.length s₁
        (by omega) (by omega)
      refine ⟨rc', s', ?_, ?_⟩
      · rw [run_bind_ok run]
        exact rest
      · have place : ramCursor + needle + (p + arguments.memMatch.length) =
            ramCursor + (needle + p + arguments.memMatch.length) := by omega
        have cursor : ramCursor + needle + p = ramCursor + (needle + p) := Nat.add_assoc _ _ _
        rw [Text.occurrences_some some' found, List.drop_drop, ByteMem.overwrite, List.foldl_cons, ← ByteMem.overwrite,
          ByteMem.overwrite_map, place, cursor, ← stored, last, ← Nat.add_assoc needle p]

/-- Nothing is the first match everywhere: the search does not go on. -/
theorem replaceTurns_empty (whole : WholeAhb mem ops readl gen conf) (empty : arguments.memMatch = [])
    (range : ramCursor + dumpRamWin ≤ 2 ^ 32) (fuel : Nat) (rc : Int) (s : σ) :
    ∃ s', (loop (replaceTurn ops arguments ramCursor winChunk) fuel (0, rc)).run s = .error .hang s' := by
  have pos : 0 < dumpRamWin := by decide
  have found : Text.memmem arguments.memMatch (winChunk.drop 0) = some 0 := by
    rw [empty]
    cases winChunk.drop 0 <;> simp [Text.memmem]
  have zero : arguments.memMatch.length = 0 := List.length_eq_zero_iff.mpr empty
  refine loop_stuck (fun place _ => place.1 = 0) (fun place s start => ?_) fuel rfl
  obtain ⟨_, rc⟩ := place
  cases start
  obtain ⟨s', run, _⟩ := @replaceTurn_some σ mem ops readl gen conf arguments ramCursor winChunk whole 0 0 rc s found
    (by omega) (by omega) range
  exact Or.inr ⟨_, s', run, by simpa only [Nat.zero_add] using zero⟩

/-- The windows from `ramCursor` on, with the memory behind it as it was. -/
theorem replaceWindows_whole (whole : WholeAhb mem ops readl gen conf) (some' : arguments.memMatch ≠ [])
    (enough : dumpRamWin < fuel) {turns windows : Nat} {rc : Int} (s : σ)
    (range : ramCursor + windows * dumpRamWin ≤ 2 ^ 32) (count : windows < turns) :
    ∃ rc' s', (loop (replaceWindowTurn ops arguments fuel (ramCursor + windows * dumpRamWin)) turns (ramCursor, rc)).run s =
        .ok rc' s' ∧
      mem s' = ByteMem.overwrite (mem s) ramCursor arguments.memReplace (Text.windowOccurrences arguments.memMatch
        dumpRamWin windows (ByteMem.read (mem s) ramCursor (windows * dumpRamWin))) := by
  have pos : 0 < dumpRamWin := by decide
  have fits := arguments.fits
  induction windows generalizing ramCursor rc s turns with
  | zero =>
    obtain ⟨turns, rfl⟩ : ∃ k, turns = k + 1 := ⟨turns - 1, by omega⟩
    refine ⟨rc, s, ?_, rfl⟩
    simp only [loop, replaceWindowTurn, Nat.zero_mul, Nat.add_zero, Nat.lt_irrefl, not_false_eq_true, if_true, pure_bind]
    rfl
  | succ windows ih =>
    obtain ⟨turns, rfl⟩ : ∃ k, turns = k + 1 := ⟨turns - 1, by omega⟩
    rw [Nat.succ_mul] at range ⊢
    have here : ramCursor < 2 ^ 32 := by omega
    have address : (BitVec.ofNat 32 ramCursor).toNat = ramCursor := by
      rw [BitVec.toNat_ofNat, Nat.mod_eq_of_lt here]
    obtain ⟨s₁, read, kept⟩ := whole.read s (BitVec.ofNat 32 ramCursor) dumpRamWin (by
      rw [address]
      omega)
    rw [address] at read
    have window : ramCursor + dumpRamWin ≤ 2 ^ 32 := by omega
    have start : dumpRamWin < 0 + fuel := by omega
    obtain ⟨rc₂, s₂, run, stored⟩ := @replaceTurns_whole σ mem ops readl gen conf arguments fuel ramCursor _ whole some'
      (ByteMem.read_length (mem s) ramCursor dumpRamWin) window 0 dumpRamWin s₁ start (Nat.zero_le _)
    rw [kept, Nat.add_zero, List.drop_zero] at stored
    have turn : (replaceWindowTurn ops arguments fuel (ramCursor + (windows * dumpRamWin + dumpRamWin)) (ramCursor, rc)).run s =
        .ok (.inl (ramCursor + dumpRamWin, rc₂)) s₂ := by
      have more : ¬ ¬ ramCursor < ramCursor + (windows * dumpRamWin + dumpRamWin) := by omega
      simp only [replaceWindowTurn, if_neg more]
      rw [run_bind_ok read]
      simp only [ByteMem.read_length, ne_eq, not_true, if_false]
      rw [run_bind_ok run]
      rfl
    have behind : ByteMem.read (mem s₂) (ramCursor + dumpRamWin) (windows * dumpRamWin) =
        ByteMem.read (mem s) (ramCursor + dumpRamWin) (windows * dumpRamWin) := by
      refine ByteMem.read_congr fun x low _ => ?_
      rw [stored]
      refine ByteMem.overwrite_outside fun p member => Or.inr ?_
      have inside := Text.occurrences_inside some' member
      rw [ByteMem.read_length] at inside
      omega
    have range' : ramCursor + dumpRamWin + windows * dumpRamWin ≤ 2 ^ 32 := by omega
    have count' : windows < turns := by omega
    obtain ⟨rc', s', rest, last⟩ := @ih (ramCursor + dumpRamWin) turns rc₂ s₂ range' count'
    refine ⟨rc', s', ?_, ?_⟩
    · rw [loop, run_bind_ok turn]
      rw [show ramCursor + (windows * dumpRamWin + dumpRamWin) = ramCursor + dumpRamWin + windows * dumpRamWin by omega]
      exact rest
    · rw [Nat.add_comm (windows * dumpRamWin) dumpRamWin, Text.windowOccurrences, ByteMem.read_take (by omega),
        ByteMem.read_drop (by omega), Nat.add_sub_cancel_left, ByteMem.overwrite_append, ByteMem.overwrite_map, ← stored,
        last, behind]

end

/-- What is in the DRAM below the VRAM. -/
def ramBytes (gen : AstGeneration) (conf : Word) (m : Mem) : List Byte :=
  ByteMem.read m (sdmcDramRegion gen conf).start.toNat
    ((sdmcVramRegion gen conf).start.toNat - (sdmcDramRegion gen conf).start.toNat)

/-- `replace ram` ends, with REPLACE stored over the occurrences of MATCH below the VRAM, from left to right, and
over nothing else. -/
def ReplacesAll {σ : Type} (mem : σ → Mem) (gen : AstGeneration) (conf : Word) (arguments : ReplaceArgs) (s : σ)
    (run : Nat → EStateM.Result Stop σ Int) : Prop :=
  ∃ enough, ∀ fuel, enough ≤ fuel → ∃ rc s', run fuel = .ok rc s' ∧
    mem s' = ByteMem.overwrite (mem s) (sdmcDramRegion gen conf).start.toNat arguments.memReplace
      (Text.occurrences arguments.memMatch 0 (ramBytes gen conf (mem s)))

/-- There is no window to search; or MATCH is not empty, and none of its occurrences lies across the end of a window,
unless there is nothing to change. -/
def ReplaceAdmits (gen : AstGeneration) (conf : Word) (arguments : ReplaceArgs) (m : Mem) : Prop :=
  ramWindows gen conf = 0 ∨ arguments.memMatch ≠ [] ∧ (arguments.memReplace <+: arguments.memMatch ∨
    ∀ p ∈ Text.occurrences arguments.memMatch 0 (ramBytes gen conf m), p % dumpRamWin + arguments.memMatch.length ≤ dumpRamWin)

section
variable {σ : Type} {mem : σ → Mem} {ops : AhbOps σ} {readl : Word → Prog σ Word} {gen : AstGeneration} {conf : Word}
variable {arguments : ReplaceArgs} {fuel : Nat} {s : σ}

theorem ramBytes_eq (gen : AstGeneration) (conf : Word) (m : Mem) : ramBytes gen conf m =
    ByteMem.read m (sdmcDramRegion gen conf).start.toNat (ramWindows gen conf * dumpRamWin) := by
  rw [ramBytes, (ramWindows_whole gen conf).1, Nat.add_sub_cancel_left]

/-- The registers are read, and then the windows from the start of the DRAM on. -/
theorem doReplace_start (whole : WholeAhb mem ops readl gen conf) (arguments : ReplaceArgs) (fuel : Nat) (s : σ) :
    ∃ s₁, mem s₁ = mem s ∧ (doReplace ops arguments readl gen fuel).run s =
      (loop (replaceWindowTurn ops arguments fuel ((sdmcDramRegion gen conf).start.toNat + ramWindows gen conf * dumpRamWin))
        fuel ((sdmcDramRegion gen conf).start.toNat, 0)).run s₁ := by
  obtain ⟨s₁, first, kept⟩ := whole.config s
  obtain ⟨s₂, second, kept'⟩ := whole.config s₁
  refine ⟨s₂, kept'.trans kept, ?_⟩
  rw [doReplace, run_bind_ok first, run_bind_ok second, ← (ramWindows_whole gen conf).1]

theorem ramWindows_range (gen : AstGeneration) (conf : Word) :
    (sdmcDramRegion gen conf).start.toNat + ramWindows gen conf * dumpRamWin ≤ 2 ^ 32 := by
  rw [← (ramWindows_whole gen conf).1]
  exact Nat.le_of_lt (BitVec.isLt _)

/-- With something to search for the scan ends; each window has been searched on its own. -/
theorem doReplace_windows (whole : WholeAhb mem ops readl gen conf) (some' : arguments.memMatch ≠ [])
    (enough : dumpRamWin < fuel) (s : σ) : ∃ rc s', (doReplace ops arguments readl gen fuel).run s = .ok rc s' ∧
      mem s' = ByteMem.overwrite (mem s) (sdmcDramRegion gen conf).start.toNat arguments.memReplace
        (Text.windowOccurrences arguments.memMatch dumpRamWin (ramWindows gen conf) (ramBytes gen conf (mem s))) := by
  have few : ramWindows gen conf < fuel := by
    have := (ramWindows_whole gen conf).2
    have : 256 < dumpRamWin := by decide
    omega
  obtain ⟨s₁, kept, start⟩ := doReplace_start whole arguments fuel s
  obtain ⟨rc, s', run, last⟩ := @replaceWindows_whole σ mem ops readl gen conf arguments fuel _ whole some' enough fuel
    (ramWindows gen conf) 0 s₁ (ramWindows_range gen conf) few
  rw [kept] at last
  exact ⟨rc, s', start.trans run, by rw [ramBytes_eq, last]⟩

theorem doReplace_none (whole : WholeAhb mem ops readl gen conf) (none : ramWindows gen conf = 0) (some' : 0 < fuel)
    (s : σ) : ∃ s', (doReplace ops arguments readl gen fuel).run s = .ok 0 s' ∧ mem s' = mem s := by
  obtain ⟨s₁, kept, start⟩ := doReplace_start whole arguments fuel s
  obtain ⟨fuel, rfl⟩ : ∃ k, fuel = k + 1 := ⟨fuel - 1, by omega⟩
  refine ⟨s₁, start.trans ?_, kept⟩
  simp only [none, Nat.zero_mul, Nat.add_zero, loop, replaceWindowTurn, Nat.lt_irrefl, not_false_eq_true, if_true, pure_bind]
  rfl

theorem doReplace_hangs (whole : WholeAhb mem ops readl gen conf) (empty : arguments.memMatch = [])
    (some' : ramWindows gen conf ≠ 0) (fuel : Nat) (s : σ) :
    ∃ s', (doReplace ops arguments readl gen fuel).run s = .error .hang s' := by
  obtain ⟨s₁, _, start⟩ := doReplace_start whole arguments fuel s
  have range := ramWindows_range gen conf
  have pos : 0 < dumpRamWin := by decide
  have one : dumpRamWin ≤ ramWindows gen conf * dumpRamWin := Nat.le_mul_of_pos_left _ (Nat.pos_of_ne_zero some')
  rw [start]
  cases fuel with
  | zero => exact ⟨s₁, rfl⟩
  | succ fuel =>
    have address : (BitVec.ofNat 32 (sdmcDramRegion gen conf).start.toNat).toNat = (sdmcDramRegion gen conf).start.toNat := by
      rw [BitVec.ofNat_toNat, BitVec.setWidth_eq]
    obtain ⟨s₂, read, _⟩ := whole.read s₁ (BitVec.ofNat 32 (sdmcDramRegion gen conf).start.toNat) dumpRamWin (by
      rw [address]
      omega)
    obtain ⟨s', run⟩ := @replaceTurns_empty σ mem ops readl gen conf arguments (sdmcDramRegion gen conf).start.toNat
      (ByteMem.read (mem s₁) (sdmcDramRegion gen conf).start.toNat dumpRamWin) whole empty (by omega) (fuel + 1) dumpRamWin s₂
    rw [address] at read
    refine ⟨s', ?_⟩
    have more : ¬ ¬ (sdmcDramRegion gen conf).start.toNat <
        (sdmcDramRegion gen conf).start.toNat + ramWindows gen conf * dumpRamWin := by omega
    have turn : (replaceWindowTurn ops arguments (fuel + 1) ((sdmcDramRegion gen conf).start.toNat +
        ramWindows gen conf * dumpRamWin) ((sdmcDramRegion gen conf).start.toNat, 0)).run s₁ = .error .hang s' := by
      simp only [replaceWindowTurn, if_neg more]
      rw [run_bind_ok read]
      simp only [ByteMem.read_length, ne_eq, not_true, if_false]
      exact run_bind_error run
    rw [loop, run_bind_error turn]

/-- The scan ends with every occurrence below the VRAM replaced, and nothing else touched, exactly if there is no
window to search, or MATCH is not empty and none of its occurrences lies across two windows, unless nothing is to
change. -/
theorem doReplace_all_iff (whole : WholeAhb mem ops readl gen conf) (arguments : ReplaceArgs) (s : σ) :
    ReplacesAll mem gen conf arguments s (fun fuel => (doReplace ops arguments readl gen fuel).run s) ↔
      ReplaceAdmits gen conf arguments (mem s) := by
  by_cases none : ramWindows gen conf = 0
  · refine iff_of_true ⟨1, fun fuel enough => ?_⟩ (Or.inl none)
    obtain ⟨s', run, kept⟩ : ∃ s', (doReplace ops arguments readl gen fuel).run s = .ok 0 s' ∧ mem s' = mem s :=
      doReplace_none whole none (by omega) s
    refine ⟨0, s', run, ?_⟩
    rw [kept, ramBytes_eq, none, Nat.zero_mul, ByteMem.read_zero]
    rfl
  rw [ReplaceAdmits, or_iff_right none]
  by_cases empty : arguments.memMatch = []
  · refine iff_of_false (fun ⟨enough, runs⟩ => ?_) fun ⟨some', _⟩ => some' empty
    obtain ⟨rc, s', run, _⟩ := runs enough (Nat.le_refl _)
    obtain ⟨s'', hangs⟩ := doReplace_hangs whole empty none enough s
    have both := run.symm.trans hangs
    cases both
  rw [and_iff_right empty]
  have occurs := ByteMem.occurs_occurrences empty (mem s) (sdmcDramRegion gen conf).start.toNat
    (ramWindows gen conf * dumpRamWin)
  have occurs' := ByteMem.occurs_windowOccurrences empty (mem s) (sdmcDramRegion gen conf).start.toNat
    (ramWindows gen conf * dumpRamWin) dumpRamWin (ramWindows gen conf)
  have size : (ramBytes gen conf (mem s)).length = ramWindows gen conf * dumpRamWin := by
    rw [ramBytes_eq, ByteMem.read_length]
  rw [← ramBytes_eq] at occurs occurs'
  constructor
  · rintro ⟨enough, runs⟩
    rw [or_iff_not_imp_left]
    intro other p place
    obtain ⟨rc, s', run, last⟩ := runs (max enough (dumpRamWin + 1)) (Nat.le_max_left _ _)
    obtain ⟨rc', s'', run', last'⟩ := doReplace_windows whole empty (Nat.le_max_right enough (dumpRamWin + 1)) s
    have both := run.symm.trans run'
    injection both with _ state
    rw [state, last'] at last
    have found := (occurs'.places_of_overwrite occurs arguments.fits other last p).mpr place
    exact Text.windowOccurrences_fits empty size found
  · intro seams
    refine ⟨dumpRamWin + 1, fun fuel enough => ?_⟩
    obtain ⟨rc, s', run, last⟩ := doReplace_windows whole empty enough s
    refine ⟨rc, s', run, last.trans ?_⟩
    rcases seams with stub | fits
    · rw [occurs.keeps stub, occurs'.keeps stub]
    · rw [Text.windowOccurrences_eq size fits]

end

/-- A memory as a bridge. -/
def wholeAhb : AhbOps Mem where
  read phys n := do return ByteMem.read (← get) phys.toNat n
  write phys bs := modify fun m => ByteMem.write m phys.toNat bs

theorem wholeAhb_whole (gen : AstGeneration) (conf : Word) : WholeAhb id wholeAhb (fun _ => pure conf) gen conf where
  read m _ _ _ := ⟨m, rfl, rfl⟩
  write m phys bs _ := ⟨ByteMem.write m phys.toNat bs, rfl, rfl⟩
  config m := ⟨m, rfl, rfl⟩

/-- The last two bytes of the first window. -/
def lastPair : Mem := fun x => if x = 0x807ffffe then 0x61 else if x = 0x807fffff then 0x62 else 0

/-- MATCH reaches to the end of the window and no further. -/
theorem doReplace_all_pair : ReplacesAll id .g5 0 ⟨[0x61, 0x62], [0x63], by decide⟩ lastPair
    (fun fuel => (doReplace wholeAhb ⟨[0x61, 0x62], [0x63], by decide⟩ (fun _ => pure 0) .g5 fuel).run lastPair) := by
  refine (doReplace_all_iff (wholeAhb_whole .g5 0) ⟨[0x61, 0x62], [0x63], by decide⟩ lastPair).mpr
    (Or.inr ⟨by decide, Or.inr fun p place => ?_⟩)
  have occurs := ByteMem.occurs_occurrences (show [0x61#8, 0x62#8] ≠ [] by decide) lastPair 0x80000000
    ((sdmcVramRegion .g5 0).start.toNat - 0x80000000)
  have first : lastPair (0x80000000 + p) = 0x61 := occurs.here p place 0 (by decide)
  have only : p = 0x7ffffe := by
    rw [lastPair] at first
    by_contra other
    rw [if_neg (by omega)] at first
    split at first <;> exact absurd first (by decide)
  rw [only]
  decide

/-- An empty MATCH is found for ever. -/
theorem doReplace_empty : ¬ ReplacesAll id .g5 0 ⟨[], [], by decide⟩ (fun _ => 0x61)
    (fun fuel => (doReplace wholeAhb ⟨[], [], by decide⟩ (fun _ => pure 0) .g5 fuel).run fun _ => 0x61) := by
  rintro ⟨enough, runs⟩
  obtain ⟨rc, s', run, _⟩ := runs enough (Nat.le_refl _)
  obtain ⟨s'', hangs⟩ := doReplace_hangs (wholeAhb_whole .g5 0) (rfl : (⟨[], [], by decide⟩ : ReplaceArgs).memMatch = [])
    (by decide) enough fun _ => 0x61
  have both := run.symm.trans hangs
  cases both

end Culvert
