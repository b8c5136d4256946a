import Mathlib

/-- A record, latest entry first, to which only entries in `P` were added. -/
def Grown {α : Type} (P : α → Prop) (old now : List α) : Prop := ∃ new, now = new ++ old ∧ ∀ a ∈ new, P a

namespace Grown
variable {α : Type} {P Q : α → Prop} {old mid now : List α} {a : α}

theorem refl (P : α → Prop) (old : List α) : Grown P old old := ⟨[], rfl, fun _ mem => nomatch mem⟩

theorem cons (grown : Grown P old now) (added : P a) : Grown P old (a :: now) := by
  obtain ⟨new, rfl, all⟩ := grown
  refine ⟨a :: new, rfl, fun b mem => ?_⟩
  rcases List.mem_cons.mp mem with rfl | mem
  · exact added
  · exact all b mem

theorem trans (first : Grown P old mid) (second : Grown P mid now) : Grown P old now := by
  obtain ⟨new, rfl, all⟩ := first
  obtain ⟨newer, rfl, more⟩ := second
  refine ⟨newer ++ new, by rw [List.append_assoc], fun b mem => ?_⟩
  rcases List.mem_append.mp mem with mem | mem
  · exact more b mem
  · exact all b mem

theorem mono (grown : Grown P old now) (imp : ∀ a, P a → Q a) : Grown Q old now := by
  obtain ⟨new, same, all⟩ := grown
  exact ⟨new, same, fun b mem => imp b (all b mem)⟩

end Grown

/-- A record to which some entry outside of `P` was added. -/
def Strayed {α : Type} (P : α → Prop) (old now : List α) : Prop := ∃ new, now = new ++ old ∧ ∃ a ∈ new, ¬ P a

namespace Strayed
variable {α : Type} {P Q : α → Prop} {old mid now : List α} {a : α}

theorem cons (grown : Grown Q old now) (bad : ¬ P a) : Strayed P old (a :: now) := by
  obtain ⟨new, rfl, _⟩ := grown
  exact ⟨a :: new, rfl, a, List.mem_cons_self, bad⟩

theorem after (first : Grown Q old mid) (second : Strayed P mid now) : Strayed P old now := by
  obtain ⟨new, rfl, _⟩ := first
  obtain ⟨newer, rfl, a, mem, bad⟩ := second
  exact ⟨newer ++ new, by rw [List.append_assoc], a, List.mem_append_left new mem, bad⟩

theorem not_grown (strayed : Strayed P old now) (imp : ∀ a, Q a → P a) : ¬ Grown Q old now := by
  obtain ⟨new, rfl, a, mem, bad⟩ := strayed
  rintro ⟨other, same, all⟩
  rw [List.append_cancel_right same] at mem
  exact bad (imp a (all a mem))

end Strayed

/-- The only entry in `P` is where the record says. -/
theorem only_entry {α : Type} {P : α → Prop} {new old later earlier : List α} {a b : α} (after : ∀ c ∈ new, ¬ P c)
    (before : ∀ c ∈ old, ¬ P c) (entry : P b) (same : new ++ a :: old = later ++ b :: earlier) : a = b ∧ old = earlier := by
  induction new generalizing later with
  | nil =>
    cases later with
    | nil =>
      injection same with head tail
      exact ⟨head, tail⟩
    | cons c later =>
      injection same with _ tail
      refine absurd entry (before b ?_)
      rw [tail]
      exact List.mem_append_right later List.mem_cons_self
  | cons n new ih =>
    cases later with
    | nil =>
      injection same with head _
      rw [← head] at entry
      exact absurd entry (after n List.mem_cons_self)
    | cons c later =>
      injection same with _ tail
      exact ih (fun c mem => after c (List.mem_cons_of_mem n mem)) tail
