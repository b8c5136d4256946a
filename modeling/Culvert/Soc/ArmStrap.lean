import Culvert.Lib.Sound
import Culvert.Soc.Clk
import Culvert.Soc.StrapUpdates

/-! The clock gate of the ARM and the strap that it is. -/

namespace Culvert

open Prog Faulty

/-- What a call leaves in the registers when no access fails, whatever it returns. -/
def effect (m : Prog (Faulty Regs) Unit) (regs : Regs) : Regs := (m.run ⟨regs, fun _ => none, 0⟩).state.dev

/-- The strap register with the gate in bit 0. -/
def armStrap : AstGeneration → Word
  | .g4 => ast2400ScuHwStrap1
  | .g5 => ast2500ScuHwStrap
  | .g6 => ast2600ScuHwStrap1

/-- The clock driver does what the strap driver does, and so ungating takes a gating back. -/
structure ArmClkAgrees (gen : AstGeneration) (regs : Regs) : Prop where
  disables : effect (clkDisable (strapBus gen) gen .arm) regs = effect (strapSet (strapBus gen) gen (armStrap gen) 1 1) regs
  enables : effect (clkEnable (strapBus gen) gen .arm) regs = effect (strapClear (strapBus gen) gen (armStrap gen) 1 1) regs
  inverse : effect (clkEnable (strapBus gen) gen .arm) (effect (clkDisable (strapBus gen) gen .arm) regs) =
    regs.modify (armStrap gen) (· &&& ~~~1)

section
variable {gen : AstGeneration} {regs regs' : Regs} {m : Prog (Faulty Regs) Unit}

theorem effect_of_yields (yields : Yields regs m () regs') : effect m regs = regs' := by
  obtain ⟨s', run, _, here⟩ := yields ⟨regs, fun _ => none, 0⟩ (fun _ => rfl) rfl
  rw [effect, run]
  exact here

theorem effect_of_refused {check : Prog (Faulty Regs) Bool} {e : Errno} {f : Bool → Prog (Faulty Regs) Unit}
    (yields : Yields regs check true regs') (refuses : f true = Prog.fail e) : effect (check >>= f) regs = regs' := by
  obtain ⟨s', run, _, here⟩ := yields ⟨regs, fun _ => none, 0⟩ (fun _ => rfl) rfl
  rw [effect, run_bind_ok run, refuses]
  exact here

@[simp] theorem effect_scuWritel (reg val : Word) :
    effect (scuWritel (strapBus gen) reg val) regs = strapWrite gen (scuBase + reg) val regs := rfl

theorem scuReadl_yields (gen : AstGeneration) (reg : Word) (regs : Regs) :
    Yields regs (scuReadl (strapBus gen) reg) (regs (scuBase + reg)) regs := Yields.access _

theorem scuWritel_yields (gen : AstGeneration) (reg val : Word) (regs : Regs) :
    Yields regs (scuWritel (strapBus gen) reg val) () (strapWrite gen (scuBase + reg) val regs) :=
  Yields.access fun regs => ((), strapWrite gen (scuBase + reg) val regs)

theorem Regs.modify_modify (reg : Word) (f g : Word → Word) : (regs.modify reg f).modify reg g = regs.modify reg (g ∘ f) := by
  unfold Regs.modify
  rw [Function.update_self, Function.update_idem]
  rfl

/-- What is set is cleared again. -/
theorem modify_set_clear (reg bits : Word) :
    (regs.modify reg (· ||| bits)).modify reg (· &&& ~~~bits) = regs.modify reg (· &&& ~~~bits) := by
  have same (old : Word) : (old ||| bits) &&& ~~~bits = old &&& ~~~bits := Within.set (BitVec.and_not_self bits) old
  rw [Regs.modify_modify]
  exact congrArg (regs.modify reg) (funext same)

/-! ## The AST2400 -/

theorem arm_lost : ¬ ArmClkAgrees .g4 regs := by
  intro agrees
  have now := congrFun agrees.inverse (scuBase + armStrap .g4)
  have gated : effect (clkEnable (strapBus .g4) .g4 .arm) (effect (clkDisable (strapBus .g4) .g4 .arm) regs)
      (scuBase + armStrap .g4) = 1 := by
    show Function.update (Function.update regs (scuBase + scuClkStrap) scuClkStrapArm) (scuBase + scuSiliconRevision)
      scuClkStrapArm (scuBase + armStrap .g4) = 1
    rw [Function.update_of_ne (by decide)]
    exact Function.update_self _ _ _
  rw [gated, Regs.modify_self] at now
  have bit := congrArg (fun w : Word => w.getLsbD 0) now
  simp at bit

/-! ## The AST2500 -/

theorem g5_disables (regs : Regs) : effect (clkDisable (strapBus .g5) .g5 .arm) regs = regs.modify ast2500ScuHwStrap (· ||| 1) := rfl

theorem g5_enables (regs : Regs) : effect (clkEnable (strapBus .g5) .g5 .arm) regs = regs.modify ast2500ScuHwStrap (· &&& ~~~1) := rfl

theorem g5_agrees : ArmClkAgrees .g5 regs := by
  refine ⟨rfl, rfl, ?_⟩
  rw [g5_disables, g5_enables]
  exact modify_set_clear ast2500ScuHwStrap 1

/-! ## The AST2600 -/

theorem and_one_eq_zero_iff {old : Word} : old &&& 1 = 0 ↔ old.getLsbD 0 = false := by
  constructor
  · intro none
    have bit := congrArg (fun w : Word => w.getLsbD 0) none
    simpa using bit
  · intro clear
    refine BitVec.eq_of_getLsbD_eq fun i inside => ?_
    rw [BitVec.getLsbD_and]
    cases i with
    | zero =>
      rw [clear]
      rfl
    | succ i => simp

theorem and_not_one {old : Word} (clear : old.getLsbD 0 = false) : old &&& ~~~1 = old := by
  refine BitVec.eq_of_getLsbD_eq fun i inside => ?_
  rw [BitVec.getLsbD_and, BitVec.getLsbD_not]
  cases i with
  | zero => rw [clear, Bool.false_and]
  | succ i =>
    have high : (1 : Word).getLsbD (i + 1) = false := by simp
    rw [high, decide_eq_true inside, Bool.not_false, Bool.and_true, Bool.and_true]

/-- Bit 0 of STRAP1 is write-protected. -/
def ArmProtected (regs : Regs) : Prop := regs (scuBase + (ast2600ScuHwStrap1 + 8)) &&& 1 ≠ 0

instance (regs : Regs) : Decidable (ArmProtected regs) :=
  inferInstanceAs (Decidable (regs (scuBase + (ast2600ScuHwStrap1 + 8)) &&& 1 ≠ 0))

theorem g6_disables (regs : Regs) : effect (clkDisable (strapBus .g6) .g6 .arm) regs =
    regs.modify ast2600ScuHwStrap1 (· ||| unprotected ast2600ScuHwStrap1 1 regs) := rfl

theorem g6_enables (regs : Regs) : effect (clkEnable (strapBus .g6) .g6 .arm) regs =
    regs.modify ast2600ScuHwStrap1 (· &&& ~~~unprotected ast2600ScuHwStrap1 1 regs) := rfl

theorem g6_isProtected (regs : Regs) : Yields regs (ast2600StrapIsProtected (strapBus .g6) ast2600ScuHwStrap1 1)
    (decide (ArmProtected regs)) regs := by
  rw [ast2600StrapIsProtected, if_neg (by decide), if_pos (by decide)]
  exact (scuReadl_yields .g6 (ast2600ScuHwStrap1 + 8) regs).bind (Yields.pure _)

theorem g6_sets_free (free : ¬ ArmProtected regs) : effect (strapSet (strapBus .g6) .g6 (armStrap .g6) 1 1) regs =
    strapWrite .g6 (scuBase + ast2600ScuHwStrap1) 1 regs := by
  refine effect_of_yields ?_
  show Yields regs (ast2600StrapSet (strapBus .g6) ast2600ScuHwStrap1 1 1) () _
  rw [ast2600StrapSet, if_neg (by decide), if_neg (by decide)]
  refine (g6_isProtected regs).bind ?_
  rw [if_neg (by simpa using free)]
  exact scuWritel_yields .g6 ast2600ScuHwStrap1 1 regs

theorem g6_clears_free (free : ¬ ArmProtected regs) : effect (strapClear (strapBus .g6) .g6 (armStrap .g6) 1 1) regs =
    strapWrite .g6 (scuBase + (ast2600ScuHwStrap1 + 4)) 1 regs := by
  refine effect_of_yields ?_
  show Yields regs (ast2600StrapClear (strapBus .g6) ast2600ScuHwStrap1 1 1) () _
  rw [ast2600StrapClear, if_neg (by decide)]
  refine (g6_isProtected regs).bind ?_
  rw [if_neg (by simpa using free), if_pos (by decide)]
  exact scuWritel_yields .g6 (ast2600ScuHwStrap1 + 4) 1 regs

theorem g6_sets_protected (locked : ArmProtected regs) :
    effect (strapSet (strapBus .g6) .g6 (armStrap .g6) 1 1) regs = regs := by
  show effect (ast2600StrapSet (strapBus .g6) ast2600ScuHwStrap1 1 1) regs = regs
  rw [ast2600StrapSet, if_neg (by decide), if_neg (by decide)]
  have refused := g6_isProtected regs
  rw [decide_eq_true locked] at refused
  exact effect_of_refused refused (if_pos rfl)

theorem g6_clears_protected (locked : ArmProtected regs) :
    effect (strapClear (strapBus .g6) .g6 (armStrap .g6) 1 1) regs = regs := by
  show effect (ast2600StrapClear (strapBus .g6) ast2600ScuHwStrap1 1 1) regs = regs
  rw [ast2600StrapClear, if_neg (by decide)]
  have refused := g6_isProtected regs
  rw [decide_eq_true locked] at refused
  exact effect_of_refused refused (if_pos rfl)

theorem unprotected_free (free : ¬ ArmProtected regs) : unprotected ast2600ScuHwStrap1 1 regs = 1 :=
  @unprotected_eq regs ast2600ScuHwStrap1 1 1 (by decide) (not_not.mp free)

theorem unprotected_locked (locked : ArmProtected regs) : unprotected ast2600ScuHwStrap1 1 regs = 0 := by
  have set : (regs (scuBase + (ast2600ScuHwStrap1 + 8))).getLsbD 0 = true :=
    eq_true_of_ne_false fun clear => locked (and_one_eq_zero_iff.mpr clear)
  refine BitVec.eq_of_getLsbD_eq fun i inside => ?_
  rw [unprotected, BitVec.getLsbD_and, BitVec.getLsbD_not]
  cases i with
  | zero =>
    rw [set]
    rfl
  | succ i => simp

theorem Regs.modify_id {f : Word → Word} {reg : Word} (same : f (regs (scuBase + reg)) = regs (scuBase + reg)) :
    regs.modify reg f = regs := by
  rw [Regs.modify, same, Function.update_eq_self]

theorem g6_disables_protected (locked : ArmProtected regs) : effect (clkDisable (strapBus .g6) .g6 .arm) regs = regs := by
  rw [g6_disables, unprotected_locked locked]
  exact Regs.modify_id (BitVec.or_zero)

theorem g6_enables_protected (locked : ArmProtected regs) : effect (clkEnable (strapBus .g6) .g6 .arm) regs = regs := by
  rw [g6_enables, unprotected_locked locked]
  exact Regs.modify_id BitVec.and_allOnes

/-- The protection register is another one. -/
theorem armProtected_modify (f : Word → Word) : ArmProtected (regs.modify ast2600ScuHwStrap1 f) ↔ ArmProtected regs := by
  rw [ArmProtected, Regs.modify_other (by decide)]
  rfl

theorem g6_agrees_iff : ArmClkAgrees .g6 regs ↔
    (ArmProtected regs → (regs (scuBase + ast2600ScuHwStrap1)).getLsbD 0 = false) := by
  by_cases locked : ArmProtected regs
  · have both : effect (clkEnable (strapBus .g6) .g6 .arm) (effect (clkDisable (strapBus .g6) .g6 .arm) regs) = regs := by
      rw [g6_disables_protected locked, g6_enables_protected locked]
    constructor
    · intro agrees _
      have now := congrFun (both.symm.trans agrees.inverse) (scuBase + ast2600ScuHwStrap1)
      rw [show armStrap .g6 = ast2600ScuHwStrap1 from rfl, Regs.modify_self] at now
      rw [now]
      simp
    · intro clear
      refine ⟨?_, ?_, ?_⟩
      · rw [g6_disables_protected locked, g6_sets_protected locked]
      · rw [g6_enables_protected locked, g6_clears_protected locked]
      · rw [both]
        exact (Regs.modify_id (and_not_one (clear locked))).symm
  · have gated := g6_disables regs
    rw [unprotected_free locked] at gated
    refine iff_of_true ⟨?_, ?_, ?_⟩ fun never => absurd never locked
    · rw [g6_sets_free locked]
      rfl
    · rw [g6_clears_free locked]
      rfl
    · rw [gated, g6_enables, unprotected_free (mt (armProtected_modify _).mp locked)]
      exact modify_set_clear ast2600ScuHwStrap1 1

end

/-- The clock driver gates the ARM as the strap driver does on the AST2500, and on the AST2600 unless the strap is set
and write-protected; never on the AST2400. -/
theorem armClkAgrees_iff (gen : AstGeneration) (regs : Regs) : ArmClkAgrees gen regs ↔
    gen ≠ .g4 ∧ (gen = .g6 → ArmProtected regs → (regs (scuBase + ast2600ScuHwStrap1)).getLsbD 0 = false) := by
  cases gen with
  | g4 => exact iff_of_false arm_lost fun other => other.1 rfl
  | g5 => exact iff_of_true g5_agrees ⟨by decide, fun never => nomatch never⟩
  | g6 =>
    rw [g6_agrees_iff]
    exact ⟨fun clear => ⟨by decide, fun _ => clear⟩, fun both => both.2 rfl⟩

/-- An AST2400 with bits 0 and 1 of the straps set keeps bit 0 and loses bit 1. -/
theorem arm_lost_pair : ¬ ArmClkAgrees .g4 fun _ => 3 := arm_lost

end Culvert
