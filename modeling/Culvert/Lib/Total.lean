import Culvert.Lib.Hoare

namespace Prog
variable {σ α β : Type}

theorem run_get_bind {f : σ → Prog σ α} {s : σ} : (get >>= f).run s = (f s).run s := rfl

/-- From `P` the program returns a value, and ends in `Q`. -/
def Total (P : σ → Prop) (m : Prog σ α) (Q : α → σ → Prop) : Prop := ∀ s, P s → ∃ a s', m.run s = .ok a s' ∧ Q a s'

namespace Total
variable {P P' : σ → Prop} {Q Q' : α → σ → Prop} {R : β → σ → Prop} {m : Prog σ α} {f : α → Prog σ β}

theorem pure {a : α} (post : ∀ s, P s → Q a s) : Total P (pure a) Q := fun s pre => ⟨a, s, rfl, post s pre⟩

theorem bind (first : Total P m Q) (next : ∀ a, Total (Q a) (f a) R) : Total P (m >>= f) R := by
  intro s pre
  obtain ⟨a, s₁, run, mid⟩ := first s pre
  obtain ⟨b, s', rest, post⟩ := next a s₁ mid
  exact ⟨b, s', by rw [run_bind_ok run, rest], post⟩

theorem conseq (total : Total P m Q) (pre : ∀ s, P' s → P s) (post : ∀ a s, Q a s → Q' a s) : Total P' m Q' := by
  intro s start
  obtain ⟨a, s', run, last⟩ := total s (pre s start)
  exact ⟨a, s', run, post a s' last⟩

theorem get {f : σ → Prog σ β} (next : ∀ s, P s → Total (· = s) (f s) R) : Total P (get >>= f) R :=
  fun s pre => next s pre s rfl

end Total

end Prog
