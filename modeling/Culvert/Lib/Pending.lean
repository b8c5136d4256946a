import Mathlib

/-! Traces are lists of events, latest first. An event that `opens` something is pending until one
that `closes` it, or until the next `mark`. -/

namespace Pending
variable {α : Type} (mark opens closes guarded : α → Prop)

/-- Something is pending after the trace. -/
def Open : List α → Prop
  | [] => False
  | e :: older => ¬ mark e ∧ (opens e ∨ ¬ closes e ∧ Open older)

/-- No guarded event has come while something was pending. -/
def Guarded : List α → Prop
  | [] => True
  | e :: older => (guarded e → ¬ Open mark opens closes older) ∧ Guarded older

/-- Every event that needs another has it right before. -/
def Preceded (needs : α → Prop) (before : α → Prop) : List α → Prop
  | [] => True
  | e :: older => (needs e → ∃ e' ∈ older.head?, before e') ∧ Preceded needs before older

variable {mark opens closes guarded}

/-- What was opened and not closed is pending. -/
theorem open_of_split {recent older : List α} {e : α} (opened : opens e) (unmarked : ¬ mark e)
    (kept : ∀ x ∈ recent, ¬ mark x ∧ ¬ closes x) : Open mark opens closes (recent ++ e :: older) := by
  induction recent with
  | nil => exact ⟨unmarked, Or.inl opened⟩
  | cons x recent ih =>
    obtain ⟨noMark, noClose⟩ := kept x List.mem_cons_self
    exact ⟨noMark, Or.inr ⟨noClose, ih fun y mem => kept y (List.mem_cons_of_mem x mem)⟩⟩

theorem guarded_suffix {recent older : List α} (all : Guarded mark opens closes guarded (recent ++ older)) :
    Guarded mark opens closes guarded older := by
  induction recent with
  | nil => exact all
  | cons x recent ih => exact ih all.2

theorem preceded_suffix {needs before : α → Prop} {recent older : List α}
    (all : Preceded needs before (recent ++ older)) : Preceded needs before older := by
  induction recent with
  | nil => exact all
  | cons x recent ih => exact ih all.2

/-- Between an opening and a guarded event, with no mark between them, there is a closing one. -/
theorem closed_between {trace before between after : List α} {e e' : α}
    (all : Guarded mark opens closes guarded trace.reverse) (split : trace = before ++ e :: between ++ e' :: after)
    (opened : opens e) (unmarked : ¬ mark e) (guard : guarded e') (same : ∀ x ∈ between, ¬ mark x) :
    ∃ x ∈ between, closes x := by
  by_contra never
  have reversed : trace.reverse = after.reverse ++ e' :: (between.reverse ++ e :: before.reverse) := by
    rw [split]
    simp
  rw [reversed] at all
  refine (guarded_suffix all).1 guard (open_of_split opened unmarked fun x mem => ?_)
  rw [List.mem_reverse] at mem
  exact ⟨same x mem, fun close => never ⟨x, mem, close⟩⟩

/-- The event right before one that needs it. -/
theorem preceded_last {needs ready : α → Prop} {trace before after : List α} {e : α}
    (all : Preceded needs ready trace.reverse) (split : trace = before ++ e :: after) (need : needs e) :
    ∃ e' ∈ before.getLast?, ready e' := by
  have reversed : trace.reverse = after.reverse ++ e :: before.reverse := by
    rw [split]
    simp
  rw [reversed] at all
  have first := (preceded_suffix all).1 need
  rwa [List.head?_reverse] at first

end Pending
