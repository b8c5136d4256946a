import Culvert.Hw.Straps
import Culvert.Lib.Hoare

/-! What setting and clearing straps does to all the straps of a generation. -/

namespace Culvert

open Prog

/-- The two calls that change a strap. -/
inductive StrapOp where
  | set
  | clear
  deriving DecidableEq, Repr

namespace StrapOp

/-- `strap_set` and `strap_clear`. -/
def strap {σ : Type} (bus : Bus σ) (gen : AstGeneration) : StrapOp → Word → Word → Word → Prog (Faulty σ) Unit
  | .set => strapSet bus gen
  | .clear => strapClear bus gen

/-- What a register holds afterwards. -/
def apply : StrapOp → Word → Word → Word
  | .set, update, old => old ||| update
  | .clear, update, old => old &&& ~~~update

end StrapOp

/-- The strap registers of a generation. -/
def strapsOf : AstGeneration → List Word
  | .g4 => [ast2400ScuHwStrap1, ast2400ScuHwStrap2]
  | .g5 => [ast2500ScuHwStrap]
  | .g6 => [ast2600ScuHwStrap1, ast2600ScuHwStrap2, ast2600ScuHwStrap3]

/-- A register changes as it should if the call returns 0 and not at all otherwise, and no other strap register does. -/
structure StrapUpdated (gen : AstGeneration) (op : StrapOp) (reg update : Word) (regs : Regs)
    (r : EStateM.Result Stop (Faulty Regs) Unit) : Prop where
  done : ∀ s', r = .ok () s' → s'.dev (scuBase + reg) = op.apply update (regs (scuBase + reg))
  refused : ∀ e s', r = .error e s' → s'.dev (scuBase + reg) = regs (scuBase + reg)
  frame : ∀ other ∈ strapsOf gen, other ≠ reg → r.state.dev (scuBase + other) = regs (scuBase + other)

/-- The registers once `reg` holds what `f` makes of it. -/
def Regs.modify (regs : Regs) (reg : Word) (f : Word → Word) : Regs :=
  Function.update regs (scuBase + reg) (f (regs (scuBase + reg)))

/-- From `regs` the call leaves `regs'`, and where it fails `regs`. -/
def Changes (regs : Regs) (m : Prog (Faulty Regs) Unit) (regs' : Regs) : Prop :=
  Triple (fun s => s.dev = regs) m (fun _ s => s.dev = regs') fun _ s => s.dev = regs

section
variable {gen : AstGeneration} {regs regs' : Regs} {reg update mask : Word} {m : Prog (Faulty Regs) Unit}

theorem scuReadl_still (gen : AstGeneration) (reg : Word) (regs : Regs) : Triple (fun s => s.dev = regs)
    (scuReadl (strapBus gen) reg) (fun val s => val = regs (scuBase + reg) ∧ s.dev = regs) fun _ s => s.dev = regs := by
  refine Faulty.access_triple (I := (· = regs)) (K := fun val d => val = regs (scuBase + reg) ∧ d = regs)
    (E := fun _ s => s.dev = regs) ?_ fun _ _ same => same
  rintro _ rfl
  exact ⟨rfl, rfl⟩

theorem scuWritel_changes (gen : AstGeneration) (reg val : Word) (regs : Regs) :
    Changes regs (scuWritel (strapBus gen) reg val) (strapWrite gen (scuBase + reg) val regs) := by
  unfold Changes scuWritel socWritel
  refine Faulty.access_triple (I := (· = regs)) (K := fun _ d => d = strapWrite gen (scuBase + reg) val regs)
    (E := fun _ s => s.dev = regs) ?_ fun _ _ same => same
  rintro _ rfl
  rfl

theorem Changes.fail (e : Errno) : Changes regs (Prog.fail e) regs' := Triple.fail fun _ here => here

/-- The call may look at a register first. -/
theorem Changes.read {f : Word → Prog (Faulty Regs) Unit} (next : Changes regs (f (regs (scuBase + reg))) regs') :
    Changes regs (scuReadl (strapBus gen) reg >>= f) regs' := by
  refine Triple.bind (scuReadl_still gen reg regs) fun val => ?_
  rintro s ⟨rfl, here⟩
  exact next s here

theorem ast2400StrapModify_changes {f : Word → Word} :
    Changes regs (ast2400StrapModify (strapBus .g4) reg update mask f) (regs.modify reg f) := by
  rw [ast2400StrapModify]
  refine Triple.ite (Changes.fail _) (Triple.ite (Changes.fail _) (Changes.read ?_))
  exact scuWritel_changes .g4 reg (f (regs (scuBase + reg))) regs

theorem ast2500StrapSet_changes :
    Changes regs (ast2500StrapSet (strapBus .g5) reg update mask) (regs.modify reg (· ||| update)) := by
  rw [ast2500StrapSet]
  by_cases refused : reg ≠ ast2500ScuHwStrap ∨ update &&& ~~~mask ≠ 0
  · rw [if_pos refused]
    exact Changes.fail _
  · rw [if_neg refused]
    obtain rfl : reg = ast2500ScuHwStrap := by
      by_contra other
      exact refused (Or.inl other)
    exact scuWritel_changes .g5 ast2500ScuHwStrap update regs

theorem ast2500StrapClear_changes :
    Changes regs (ast2500StrapClear (strapBus .g5) reg update mask) (regs.modify reg (· &&& ~~~update)) := by
  rw [ast2500StrapClear]
  by_cases refused : reg ≠ ast2500ScuHwStrap ∨ update &&& ~~~mask ≠ 0
  · rw [if_pos refused]
    exact Changes.fail _
  · rw [if_neg refused]
    obtain rfl : reg = ast2500ScuHwStrap := by
      by_contra other
      exact refused (Or.inl other)
    exact scuWritel_changes .g5 ast2500ScuSiliconId update regs

/-- What is asked for is written if none of the mask is protected. -/
theorem unprotected_eq (sub : update &&& ~~~mask = 0) (free : regs (scuBase + (reg + 8)) &&& mask = 0) :
    unprotected reg update regs = update := by
  unfold unprotected
  ext i inside
  have low : (update &&& ~~~mask)[i] = false := by
    rw [sub]
    exact BitVec.getElem_zero inside
  have clear : (regs (scuBase + (reg + 8)) &&& mask)[i] = false := by
    rw [free]
    exact BitVec.getElem_zero inside
  simp only [BitVec.getElem_and, BitVec.getElem_not] at low clear ⊢
  grind

/-- The registers with protection. -/
theorem ast2600StrapIsProtected_changes (known : reg = ast2600ScuHwStrap1 ∨ reg = ast2600ScuHwStrap2)
    {f : Bool → Prog (Faulty Regs) Unit} (next : Changes regs (f (regs (scuBase + (reg + 8)) &&& mask ≠ 0)) regs') :
    Changes regs (ast2600StrapIsProtected (strapBus .g6) reg mask >>= f) regs' := by
  have other : reg ≠ ast2600ScuHwStrap3 := by
    rcases known with rfl | rfl
    · decide
    · decide
  rw [ast2600StrapIsProtected, if_neg other, if_pos known, bind_assoc]
  exact Changes.read next

theorem strapWrite_set (known : reg = ast2600ScuHwStrap1 ∨ reg = ast2600ScuHwStrap2) (free : unprotected reg update regs = update) :
    strapWrite .g6 (scuBase + reg) update regs = regs.modify reg (· ||| update) := by
  rcases known with rfl | rfl
  · show Function.update regs (scuBase + ast2600ScuHwStrap1) (regs (scuBase + ast2600ScuHwStrap1) |||
      unprotected ast2600ScuHwStrap1 update regs) = _
    rw [free]
    rfl
  · show Function.update regs (scuBase + ast2600ScuHwStrap2) (regs (scuBase + ast2600ScuHwStrap2) |||
      unprotected ast2600ScuHwStrap2 update regs) = _
    rw [free]
    rfl

theorem strapWrite_clear (known : reg = ast2600ScuHwStrap1 ∨ reg = ast2600ScuHwStrap2)
    (free : unprotected reg update regs = update) :
    strapWrite .g6 (scuBase + (reg + 4)) update regs = regs.modify reg (· &&& ~~~update) := by
  rcases known with rfl | rfl
  · show Function.update regs (scuBase + ast2600ScuHwStrap1) (regs (scuBase + ast2600ScuHwStrap1) &&&
      ~~~unprotected ast2600ScuHwStrap1 update regs) = _
    rw [free]
    rfl
  · show Function.update regs (scuBase + ast2600ScuHwStrap2) (regs (scuBase + ast2600ScuHwStrap2) &&&
      ~~~unprotected ast2600ScuHwStrap2 update regs) = _
    rw [free]
    rfl

theorem ast2600StrapSet_changes (other : reg ≠ ast2600ScuHwStrap3) :
    Changes regs (ast2600StrapSet (strapBus .g6) reg update mask) (regs.modify reg (· ||| update)) := by
  rw [ast2600StrapSet]
  by_cases known : reg = ast2600ScuHwStrap1 ∨ reg = ast2600ScuHwStrap2 ∨ reg = ast2600ScuHwStrap3
  · rw [if_neg (not_not.mpr known)]
    by_cases sub : update &&& ~~~mask = 0
    · rw [if_neg (not_not.mpr sub)]
      have pair : reg = ast2600ScuHwStrap1 ∨ reg = ast2600ScuHwStrap2 := known.imp_right fun rest => rest.resolve_right other
      refine ast2600StrapIsProtected_changes pair ?_
      by_cases free : regs (scuBase + (reg + 8)) &&& mask = 0
      · rw [if_neg (by simpa using free), ← strapWrite_set pair (unprotected_eq sub free)]
        exact scuWritel_changes .g6 reg update regs
      · rw [if_pos (by simpa using free)]
        exact Changes.fail _
    · rw [if_pos sub]
      exact Changes.fail _
  · rw [if_pos known]
    exact Changes.fail _

/-- The write to STRAP3 is a bare one. -/
theorem ast2600StrapSet_strap3 : Changes regs (ast2600StrapSet (strapBus .g6) ast2600ScuHwStrap3 update mask)
    (regs.modify ast2600ScuHwStrap3 fun _ => update) := by
  rw [ast2600StrapSet, if_neg (by decide)]
  exact Triple.ite (Changes.fail _) (scuWritel_changes .g6 ast2600ScuHwStrap3 update regs)

/-- The call has come to that one write. -/
theorem strap3_goes_through (sub : update &&& ~~~mask = 0) {s : Faulty Regs} :
    (∃ s', (StrapOp.set.strap (strapBus .g6) .g6 ast2600ScuHwStrap3 update mask).run s = .ok () s') ↔
      s.fails s.accesses = none := by
  have write : StrapOp.set.strap (strapBus .g6) .g6 ast2600ScuHwStrap3 update mask =
      scuWritel (strapBus .g6) ast2600ScuHwStrap3 update := by
    show ast2600StrapSet (strapBus .g6) ast2600ScuHwStrap3 update mask = _
    rw [ast2600StrapSet, if_neg (by decide), if_neg (not_not.mpr sub), ast2600StrapIsProtected, if_pos rfl, pure_bind,
      if_neg (by decide)]
  have one := @Faulty.access_ok_iff Regs Unit
    (fun regs => ((), strapWrite .g6 (scuBase + ast2600ScuHwStrap3) update regs)) s
  rw [write, ← one]
  exact ⟨fun ⟨s', run⟩ => ⟨(), s', run⟩, fun ⟨_, s', run⟩ => ⟨s', run⟩⟩

theorem ast2600StrapClear_changes :
    Changes regs (ast2600StrapClear (strapBus .g6) reg update mask) (regs.modify reg (· &&& ~~~update)) := by
  rw [ast2600StrapClear]
  by_cases sub : update &&& ~~~mask = 0
  · rw [if_neg (not_not.mpr sub)]
    by_cases pair : reg = ast2600ScuHwStrap1 ∨ reg = ast2600ScuHwStrap2
    · refine ast2600StrapIsProtected_changes pair ?_
      by_cases free : regs (scuBase + (reg + 8)) &&& mask = 0
      · rw [if_neg (by simpa using free), if_pos pair, ← strapWrite_clear pair (unprotected_eq sub free)]
        exact scuWritel_changes .g6 (reg + 4) update regs
      · rw [if_pos (by simpa using free)]
        exact Changes.fail _
    · by_cases third : reg = ast2600ScuHwStrap3
      · have whole : update &&& mask = update := by
          rw [BitVec.and_comm]
          exact BitVec.and_eq_of_sub sub
        rw [ast2600StrapIsProtected, if_pos third, pure_bind, if_neg (by simp), if_neg pair, if_pos third, whole]
        subst third
        exact Changes.read (scuWritel_changes .g6 ast2600ScuHwStrap3 _ regs)
      · rw [ast2600StrapIsProtected, if_neg third, if_neg pair]
        exact Triple.bind (Q := fun _ _ => False) (Triple.fail fun _ here => here) fun _ _ never => never.elim
  · rw [if_pos sub]
    exact Changes.fail _

/-- Every set but that of STRAP3, and every clear, is a read-modify-write in effect. -/
theorem strapOp_changes (op : StrapOp) (plain : ¬ (gen = .g6 ∧ op = .set ∧ reg = ast2600ScuHwStrap3)) :
    Changes regs (op.strap (strapBus gen) gen reg update mask) (regs.modify reg (op.apply update)) := by
  cases gen with
  | g4 =>
    cases op with
    | set => exact ast2400StrapModify_changes
    | clear => exact ast2400StrapModify_changes
  | g5 =>
    cases op with
    | set => exact ast2500StrapSet_changes
    | clear => exact ast2500StrapClear_changes
  | g6 =>
    cases op with
    | set => exact ast2600StrapSet_changes fun third => plain ⟨rfl, rfl, third⟩
    | clear => exact ast2600StrapClear_changes

theorem Regs.modify_self (f : Word → Word) : regs.modify reg f (scuBase + reg) = f (regs (scuBase + reg)) :=
  Function.update_self _ _ _

theorem Regs.modify_other {other : Word} (ne : other ≠ reg) (f : Word → Word) :
    regs.modify reg f (scuBase + other) = regs (scuBase + other) :=
  Function.update_of_ne (fun same => ne (BitVec.add_right_inj _ |>.mp same)) _ _

/-- Only what the register holds after a success is left to compare. -/
theorem Changes.updated_iff {op : StrapOp} {f : Word → Word} {s : Faulty Regs}
    (changes : Changes s.dev m (s.dev.modify reg f)) : StrapUpdated gen op reg update s.dev (m.run s) ↔
      ((∃ s', m.run s = .ok () s') → f (s.dev (scuBase + reg)) = op.apply update (s.dev (scuBase + reg))) := by
  obtain ⟨good, bad⟩ := changes s rfl
  constructor
  · rintro updated ⟨s', run⟩
    rw [← updated.done s' run, good () s' run, Regs.modify_self]
  · intro same
    refine ⟨fun s' run => ?_, fun e s' run => by rw [bad e s' run], fun other _ ne => ?_⟩
    · rw [good () s' run, Regs.modify_self, same ⟨s', run⟩]
    · cases run : m.run s with
      | ok a s' =>
        rw [EStateM.Result.state_ok, good a s' run, Regs.modify_other ne]
      | error e s' =>
        rw [EStateM.Result.state_error, bad e s' run]

end

/-- A strap register is updated as it should be but for STRAP3 of the AST2600: what is set in it is written as it is,
and clears the rest. -/
theorem strapUpdated_iff (gen : AstGeneration) (op : StrapOp) (reg update mask : Word) (s : Faulty Regs)
    (sub : update &&& ~~~mask = 0) :
    StrapUpdated gen op reg update s.dev ((op.strap (strapBus gen) gen reg update mask).run s) ↔
      (gen = .g6 ∧ op = .set ∧ reg = ast2600ScuHwStrap3 →
        s.dev (scuBase + ast2600ScuHwStrap3) &&& ~~~update = 0 ∨ s.fails s.accesses ≠ none) := by
  by_cases bare : gen = .g6 ∧ op = .set ∧ reg = ast2600ScuHwStrap3
  · obtain ⟨rfl, rfl, rfl⟩ := bare
    have changes : Changes s.dev (StrapOp.set.strap (strapBus .g6) .g6 ast2600ScuHwStrap3 update mask)
      (s.dev.modify ast2600ScuHwStrap3 fun _ => update) := ast2600StrapSet_strap3
    rw [changes.updated_iff, strap3_goes_through sub]
    have same : update = StrapOp.set.apply update (s.dev (scuBase + ast2600ScuHwStrap3)) ↔
        s.dev (scuBase + ast2600ScuHwStrap3) &&& ~~~update = 0 := eq_comm.trans BitVec.or_eq_right_iff
    rw [same]
    constructor
    · intro imp _
      by_cases goes : s.fails s.accesses = none
      · exact Or.inl (imp goes)
      · exact Or.inr goes
    · intro imp goes
      exact (imp ⟨rfl, rfl, rfl⟩).resolve_right (not_not.mpr goes)
  · rw [Changes.updated_iff (strapOp_changes op bare)]
    simp [bare]

/-- A bit is set beside another. -/
theorem strapUpdated_pair : StrapUpdated .g6 .set ast2600ScuHwStrap1 1 (fun _ => 2)
    ((StrapOp.set.strap (strapBus .g6) .g6 ast2600ScuHwStrap1 1 1).run ⟨fun _ => 2, fun _ => none, 0⟩) ↔
      (AstGeneration.g6 = .g6 ∧ StrapOp.set = .set ∧ ast2600ScuHwStrap1 = ast2600ScuHwStrap3 →
        (2 : Word) &&& ~~~1 = 0 ∨ (none : Option Errno) ≠ none) :=
  strapUpdated_iff .g6 .set ast2600ScuHwStrap1 1 1 ⟨fun _ => 2, fun _ => none, 0⟩ (by decide)

/-- Bit 1 of STRAP3 is lost when bit 0 is set. -/
theorem strap3_set_clobbers : ¬ StrapUpdated .g6 .set ast2600ScuHwStrap3 1 (fun _ => 2)
    ((StrapOp.set.strap (strapBus .g6) .g6 ast2600ScuHwStrap3 1 1).run ⟨fun _ => 2, fun _ => none, 0⟩) := by
  intro updated
  have now := updated.done ⟨strapWrite .g6 (scuBase + ast2600ScuHwStrap3) 1 fun _ => 2, fun _ => none, 1⟩ rfl
  exact absurd now (by decide)

end Culvert
