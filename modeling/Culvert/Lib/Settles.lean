import Culvert.Lib.Ends
import Culvert.Lib.Frame

/-! Programs that take a fuel and may fail: what becomes of them once they are given enough of it. -/

namespace Prog
variable {σ α β : Type}

/-- With enough fuel the run of `m` from `s` comes to `r`. -/
def Settles (m : Nat → Prog σ α) (s : σ) (r : EStateM.Result Stop σ α) : Prop :=
  ∃ enough, ∀ fuel, enough ≤ fuel → (m fuel).run s = r

/-- With enough fuel every run of `m` from `s` comes to a result in `Q`. -/
def ComesTo (m : Nat → Prog σ α) (s : σ) (Q : EStateM.Result Stop σ α → Prop) : Prop :=
  ∃ enough, ∀ fuel, enough ≤ fuel → Q ((m fuel).run s)

theorem ComesTo.both {m : Nat → Prog σ α} {s : σ} {Q Q' : EStateM.Result Stop σ α → Prop} (first : ComesTo m s Q)
    (second : ComesTo m s Q') : ∃ r, Q r ∧ Q' r := by
  obtain ⟨n, first⟩ := first
  obtain ⟨k, second⟩ := second
  exact ⟨_, first (max n k) (Nat.le_max_left n k), second (max n k) (Nat.le_max_right n k)⟩

/-- The loop comes to `r` in at most `n` turns, when its turns are given enough fuel. -/
def LoopSettles (body : Nat → α → Prog σ (α ⊕ β)) (n : Nat) (a : α) (s : σ) (r : EStateM.Result Stop σ β) : Prop :=
  ∃ enough, ∀ fuel, enough ≤ fuel → ∀ turns, n ≤ turns → (loop (body fuel) turns a).run s = r

section
variable {m : Nat → Prog σ α} {body : Nat → α → Prog σ (α ⊕ β)} {f : Nat → α → Prog σ β} {n : Nat} {a a' : α} {b : β}
variable {s s₁ s' : σ} {r : EStateM.Result Stop σ β} {e : Stop}

theorem Ends.unique {a₁ a₂ : α} {s₁ s₂ : σ} (first : Ends m s a₁ s₁) (second : Ends m s a₂ s₂) : a₁ = a₂ ∧ s₁ = s₂ := by
  obtain ⟨n, first⟩ := first
  obtain ⟨k, second⟩ := second
  have both := (first (max n k) (Nat.le_max_left n k)).symm.trans (second (max n k) (Nat.le_max_right n k))
  injection both with value state
  exact ⟨value, state⟩

theorem Settles.of_run {m : Prog σ β} (run : m.run s = r) : Settles (fun _ => m) s r := ⟨0, fun _ _ => run⟩

theorem Ends.settles (first : Ends m s a s₁) (next : Settles (fun fuel => f fuel a) s₁ r) :
    Settles (fun fuel => m fuel >>= f fuel) s r := by
  obtain ⟨n, first⟩ := first
  obtain ⟨k, next⟩ := next
  refine ⟨max n k, fun fuel enough => ?_⟩
  rw [run_bind_ok (first fuel (by omega))]
  exact next fuel (by omega)

theorem LoopSettles.last (turn : Settles (fun fuel => body fuel a) s (.ok (.inr b) s')) :
    LoopSettles body 1 a s (.ok b s') := by
  obtain ⟨enough, turn⟩ := turn
  refine ⟨enough, fun fuel le turns some' => ?_⟩
  obtain ⟨turns, rfl⟩ : ∃ k, turns = k + 1 := ⟨turns - 1, by omega⟩
  rw [loop, run_bind_ok (turn fuel le)]
  rfl

theorem LoopSettles.stop (turn : Settles (fun fuel => body fuel a) s (.error e s')) :
    LoopSettles body 1 a s (.error e s') := by
  obtain ⟨enough, turn⟩ := turn
  refine ⟨enough, fun fuel le turns some' => ?_⟩
  obtain ⟨turns, rfl⟩ : ∃ k, turns = k + 1 := ⟨turns - 1, by omega⟩
  rw [loop, run_bind_error (turn fuel le)]

theorem LoopSettles.next (turn : Settles (fun fuel => body fuel a) s (.ok (.inl a') s₁)) (rest : LoopSettles body n a' s₁ r) :
    LoopSettles body (n + 1) a s r := by
  obtain ⟨k, turn⟩ := turn
  obtain ⟨k', rest⟩ := rest
  refine ⟨max k k', fun fuel le turns some' => ?_⟩
  obtain ⟨turns, rfl⟩ : ∃ k, turns = k + 1 := ⟨turns - 1, by omega⟩
  rw [loop, run_bind_ok (turn fuel (by omega))]
  exact rest fuel (by omega) turns (by omega)

theorem LoopSettles.mono {k : Nat} (all : LoopSettles body n a s r) (le : n ≤ k) : LoopSettles body k a s r := by
  obtain ⟨enough, all⟩ := all
  exact ⟨enough, fun fuel le' turns some' => all fuel le' turns (by omega)⟩

theorem LoopSettles.settles (all : LoopSettles body n a s r) : Settles (fun fuel => loop (body fuel) fuel a) s r := by
  obtain ⟨enough, all⟩ := all
  exact ⟨max enough n, fun fuel le => all fuel (by omega) fuel (by omega)⟩

theorem Settles.unique {r₁ r₂ : EStateM.Result Stop σ α} (first : Settles m s r₁) (second : Settles m s r₂) : r₁ = r₂ := by
  obtain ⟨n, first⟩ := first
  obtain ⟨k, second⟩ := second
  exact (first (max n k) (Nat.le_max_left n k)).symm.trans (second (max n k) (Nat.le_max_right n k))

end

end Prog
