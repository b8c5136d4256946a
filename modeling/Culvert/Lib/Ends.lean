import Culvert.Lib.Prog

/-! Programs that take a fuel: what they do once they are given enough of it. -/

namespace Prog
variable {σ α β : Type}

/-- With enough fuel `m` returns `a` and goes from `s` to `s'`. -/
def Ends (m : Nat → Prog σ α) (s : σ) (a : α) (s' : σ) : Prop := ∃ enough, ∀ fuel, enough ≤ fuel → (m fuel).run s = .ok a s'

namespace Ends
variable {m : Nat → Prog σ α} {f : Nat → α → Prog σ β} {s s₁ s' : σ} {a : α} {b : β}

theorem of_run {m : Prog σ α} (run : m.run s = .ok a s') : Ends (fun _ => m) s a s' := ⟨0, fun _ _ => run⟩

theorem pure (a : α) : Ends (fun _ => pure a) s a s := of_run rfl

theorem bind (first : Ends m s a s₁) (next : Ends (fun fuel => f fuel a) s₁ b s') :
    Ends (fun fuel => m fuel >>= f fuel) s b s' := by
  obtain ⟨n, first⟩ := first
  obtain ⟨k, next⟩ := next
  refine ⟨max n k, fun fuel enough => ?_⟩
  rw [run_bind_ok (first fuel (by omega))]
  exact next fuel (by omega)

theorem ite_neg {c : Prop} [Decidable c] {m' : Nat → Prog σ α} (fails : ¬ c) (no : Ends m' s a s') :
    Ends (fun fuel => if c then m fuel else m' fuel) s a s' := by
  simp only [if_neg fails]
  exact no

theorem congr {m' : Nat → Prog σ α} (same : ∀ fuel, m fuel = m' fuel) (ends : Ends m' s a s') : Ends m s a s' := by
  obtain rfl : m = m' := funext same
  exact ends

end Ends

/-- With enough fuel `m` fails with `e` and goes from `s` to `s'`. -/
def Fails (m : Nat → Prog σ α) (s : σ) (e : Errno) (s' : σ) : Prop :=
  ∃ enough, ∀ fuel, enough ≤ fuel → (m fuel).run s = .error (.rc e) s'

theorem Ends.bind_fails {m : Nat → Prog σ α} {f : Nat → α → Prog σ β} {s s₁ s' : σ} {a : α} {e : Errno}
    (first : Ends m s a s₁) (next : Fails (fun fuel => f fuel a) s₁ e s') : Fails (fun fuel => m fuel >>= f fuel) s e s' := by
  obtain ⟨n, first⟩ := first
  obtain ⟨k, next⟩ := next
  refine ⟨max n k, fun fuel enough => ?_⟩
  rw [run_bind_ok (first fuel (by omega))]
  exact next fuel (by omega)

/-- The loop ends in at most `n` turns, when its turns are given enough fuel. -/
def LoopEnds (body : Nat → α → Prog σ (α ⊕ β)) (n : Nat) (a : α) (s : σ) (b : β) (s' : σ) : Prop :=
  ∃ enough, ∀ fuel, enough ≤ fuel → ∀ turns, n ≤ turns → (loop (body fuel) turns a).run s = .ok b s'

namespace LoopEnds
variable {body : Nat → α → Prog σ (α ⊕ β)} {n : Nat} {a a' : α} {b : β} {s s₁ s' : σ}

theorem last (turn : Ends (fun fuel => body fuel a) s (.inr b) s') : LoopEnds body 1 a s b s' := by
  obtain ⟨enough, turn⟩ := turn
  refine ⟨enough, fun fuel le turns some => ?_⟩
  obtain ⟨turns, rfl⟩ : ∃ k, turns = k + 1 := ⟨turns - 1, by omega⟩
  rw [loop, run_bind_ok (turn fuel le)]
  rfl

theorem next (turn : Ends (fun fuel => body fuel a) s (.inl a') s₁) (rest : LoopEnds body n a' s₁ b s') :
    LoopEnds body (n + 1) a s b s' := by
  obtain ⟨k, turn⟩ := turn
  obtain ⟨k', rest⟩ := rest
  refine ⟨max k k', fun fuel le turns some => ?_⟩
  obtain ⟨turns, rfl⟩ : ∃ k, turns = k + 1 := ⟨turns - 1, by omega⟩
  rw [loop, run_bind_ok (turn fuel (by omega))]
  exact rest fuel (by omega) turns (by omega)

theorem ends (all : LoopEnds body n a s b s') : Ends (fun fuel => loop (body fuel) fuel a) s b s' := by
  obtain ⟨enough, all⟩ := all
  exact ⟨max enough n, fun fuel le => all fuel (by omega) fuel (by omega)⟩

end LoopEnds

end Prog
