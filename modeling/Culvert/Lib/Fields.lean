import Culvert.Lib.Bits

/-- Some bits of a register. -/
structure RegField (ι : Type) (w : Nat) where
  reg : ι
  mask : BitVec w
  deriving DecidableEq, Repr

namespace RegField
variable {ι : Type} {w : Nat} [DecidableEq ι] (f g : RegField ι w) {bits : BitVec w}

def get (regs : ι → BitVec w) : BitVec w := regs f.reg &&& f.mask

def put (bits : BitVec w) (regs : ι → BitVec w) : ι → BitVec w :=
  Function.update regs f.reg (regs f.reg &&& ~~~f.mask ||| bits)

def Apart : Prop := f.reg = g.reg → f.mask &&& g.mask = 0

variable {f g}

theorem get_put (fits : bits &&& ~~~f.mask = 0) (regs : ι → BitVec w) : f.get (f.put bits regs) = bits := by
  rw [get, put, Function.update_self, BitVec.replace_and _ _ fits]

theorem get_put_apart (apart : f.Apart g) (fits : bits &&& ~~~f.mask = 0) (regs : ι → BitVec w) :
    g.get (f.put bits regs) = g.get regs := by
  by_cases same : g.reg = f.reg
  · have none : f.mask &&& g.mask = 0 := apart same.symm
    have inside : bits &&& g.mask = 0 := by
      rw [← BitVec.and_eq_of_sub fits, BitVec.and_comm f.mask, BitVec.and_assoc, none]
      exact BitVec.and_zero
    have cleared : regs f.reg &&& ~~~f.mask &&& g.mask = regs f.reg &&& g.mask := by
      have sub : g.mask &&& ~~~(~~~f.mask) = 0 := by
        rw [BitVec.not_not, BitVec.and_comm]
        exact none
      rw [BitVec.and_assoc, BitVec.and_comm (~~~f.mask), BitVec.and_comm g.mask, BitVec.and_eq_of_sub sub]
    rw [get, get, put, same, Function.update_self, BitVec.and_comm, BitVec.and_or_distrib_left, BitVec.and_comm g.mask,
      BitVec.and_comm g.mask, cleared, inside]
    exact BitVec.or_zero
  · rw [get, get, put, Function.update_of_ne same]

end RegField

/-- What selects the source `σ` of each destination `δ`: a field for each destination, apart from those of the others,
and what it holds for a source, if that can be selected there. -/
structure Switchboard (σ δ ι : Type) (w : Nat) where
  field : δ → RegField ι w
  code : σ → δ → Option (BitVec w)
  used : ι → BitVec w
  fits {s d bits} : code s d = some bits → bits &&& ~~~(field d).mask = 0
  apart {d e} : d ≠ e → (field d).Apart (field e)
  uses d : (field d).mask &&& ~~~used (field d).reg = 0

namespace Switchboard
variable {σ δ ι : Type} {w : Nat} (board : Switchboard σ δ ι w)

/-- A destination is given a source, or the fields of a register what they held at the start. -/
inductive Act (σ δ ι : Type) where
  | select (s : σ) (d : δ)
  | restore (reg : ι)
  deriving DecidableEq, Repr

def allowed : Act σ δ ι → Bool
  | .select s d => (board.code s d).isSome
  | .restore _ => true

/-- The registers show which sources have been selected, and hold what they held else. -/
structure Shows (start regs : ι → BitVec w) (sources : δ → Option σ) : Prop where
  kept {d} : sources d = none → (board.field d).get regs = (board.field d).get start
  selected {d s} : sources d = some s → board.code s d = some ((board.field d).get regs)
  others reg : Within (board.used reg) (start reg) (regs reg)

theorem Shows.refl {board : Switchboard σ δ ι w} (regs : ι → BitVec w) : board.Shows regs regs fun _ => none where
  kept _ := rfl
  selected := fun shown => by cases shown
  others _ := .refl _ _

section
variable [DecidableEq δ] [DecidableEq ι]

/-- The sources that have been selected since the start. -/
def select (sources : δ → Option σ) : Act σ δ ι → δ → Option σ
  | .select s d => Function.update sources d (some s)
  | .restore reg => fun d => if (board.field d).reg = reg then none else sources d

/-- What becomes of the registers. -/
def effect (start : ι → BitVec w) : Act σ δ ι → (ι → BitVec w) → ι → BitVec w
  | .select s d, regs => (board.field d).put ((board.code s d).getD 0) regs
  | .restore reg, regs => Function.update regs reg (start reg)

variable {board} {start regs : ι → BitVec w} {sources : δ → Option σ} {act : Act σ δ ι} {acts : List (Act σ δ ι)}

theorem Shows.step (shows : board.Shows start regs sources) (may : board.allowed act = true) :
    board.Shows start (board.effect start act regs) (board.select sources act) := by
  cases act with
  | select s d =>
    obtain ⟨bits, code⟩ := Option.isSome_iff_exists.mp may
    have fits := board.fits code
    simp only [effect, select, code, Option.getD_some]
    refine ⟨fun {e} none => ?_, fun {e s'} shown => ?_, fun reg => ?_⟩
    · by_cases same : e = d
      · rw [same, Function.update_self] at none
        cases none
      · rw [Function.update_of_ne same] at none
        rw [RegField.get_put_apart (board.apart (Ne.symm same)) fits, shows.kept none]
    · by_cases same : e = d
      · subst same
        rw [Function.update_self] at shown
        cases shown
        rw [RegField.get_put fits, code]
      · rw [Function.update_of_ne same] at shown
        rw [RegField.get_put_apart (board.apart (Ne.symm same)) fits, shows.selected shown]
    · by_cases same : reg = (board.field d).reg
      · subst same
        rw [RegField.put, Function.update_self]
        exact (shows.others _).trans ((Within.replace fits _).mono (board.uses d))
      · rw [RegField.put, Function.update_of_ne same]
        exact shows.others reg
  | restore reg =>
    simp only [effect, select]
    refine ⟨fun {d} none => ?_, fun {d s} shown => ?_, fun reg' => ?_⟩
    · by_cases same : (board.field d).reg = reg
      · rw [RegField.get, RegField.get, same, Function.update_self]
      · rw [if_neg same] at none
        rw [RegField.get, Function.update_of_ne same]
        exact shows.kept none
    · by_cases same : (board.field d).reg = reg
      · rw [if_pos same] at shown
        cases shown
      · rw [if_neg same] at shown
        rw [RegField.get, Function.update_of_ne same]
        exact shows.selected shown
    · by_cases same : reg' = reg
      · rw [same, Function.update_self]
        exact .refl _ _
      · rw [Function.update_of_ne same]
        exact shows.others reg'

theorem Shows.steps (shows : board.Shows start regs sources) (may : ∀ act ∈ acts, board.allowed act = true) :
    board.Shows start (acts.foldl (fun regs act => board.effect start act regs) regs)
      (acts.foldl board.select sources) := by
  induction acts generalizing regs sources with
  | nil => exact shows
  | cons act acts ih =>
    exact ih (shows.step (may act List.mem_cons_self)) fun later mem => may later (List.mem_cons_of_mem act mem)

end

end Switchboard
