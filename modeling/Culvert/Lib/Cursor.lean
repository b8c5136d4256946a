import Culvert.Lib.Prog

namespace Prog
variable {σ α β : Type}

/-- From `Q k` the program moves on to `Q (k + n)`, unless that is beyond `lim`: then it faults in a
state in `F`. -/
def Advances (Q : Nat → σ → Prop) (F : σ → Prop) (lim k n : Nat) (m : Prog σ α) : Prop := ∀ s, k ≤ lim → Q k s →
  (k + n ≤ lim → ∃ a s', m.run s = .ok a s' ∧ Q (k + n) s') ∧
    (lim < k + n → ∃ s', m.run s = .error .fault s' ∧ F s')

namespace Advances
variable {Q : Nat → σ → Prop} {F : σ → Prop} {lim k n n' : Nat} {m : Prog σ α} {f : α → Prog σ β}

theorem pure (a : α) : Advances Q F lim k 0 (pure a : Prog σ α) := by
  intro s within here
  exact ⟨fun _ => ⟨a, s, rfl, here⟩, fun beyond => absurd beyond (by omega)⟩

theorem bind {t : Nat} (total : n + n' = t) (first : Advances Q F lim k n m)
    (next : ∀ a, Advances Q F lim (k + n) n' (f a)) : Advances Q F lim k t (m >>= f) := by
  subst total
  intro s within here
  obtain ⟨moves, faults⟩ := first s within here
  by_cases stop : lim < k + n
  · obtain ⟨s', run, bad⟩ := faults stop
    exact ⟨fun fits => absurd fits (by omega), fun _ => ⟨s', run_bind_error run, bad⟩⟩
  · obtain ⟨a, s₁, run, there⟩ := moves (by omega)
    obtain ⟨moves', faults'⟩ := next a s₁ (by omega) there
    rw [Nat.add_assoc] at moves' faults'
    rw [run_bind_ok run]
    exact ⟨moves', faults'⟩

end Advances

end Prog
