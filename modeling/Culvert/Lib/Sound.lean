import Culvert.Lib.Frame

namespace Faulty
variable {σ α β : Type}

/-- Where no access fails, `m` returns `a` and takes the device from `d` to `d'`. -/
def Yields (d : σ) (m : Prog (Faulty σ) α) (a : α) (d' : σ) : Prop := ∀ s, s.Sound → s.dev = d →
  ∃ s', m.run s = .ok a s' ∧ s'.Sound ∧ s'.dev = d'

namespace Yields
variable {d d₁ d' : σ} {m : Prog (Faulty σ) α} {f : α → Prog (Faulty σ) β} {a a' : α} {b : β} {s s' : Faulty σ}

theorem pure (a : α) : Yields d (pure a) a d := fun s sound here => ⟨s, rfl, sound, here⟩

theorem access (f : σ → α × σ) : Yields d (access f) (f d).1 (f d).2 := by
  intro s sound here
  obtain ⟨a, s', run, sound'⟩ := access_succeeds f s sound
  obtain ⟨value, dev⟩ := access_ok run
  rw [here] at value dev
  exact ⟨s', by rw [run, value], sound', dev⟩

theorem bind (first : Yields d m a d₁) (next : Yields d₁ (f a) b d') : Yields d (m >>= f) b d' := by
  intro s sound here
  obtain ⟨s₁, run, sound₁, here₁⟩ := first s sound here
  obtain ⟨s', run', rest⟩ := next s₁ sound₁ here₁
  exact ⟨s', by rw [Prog.run_bind_ok run, run'], rest⟩

theorem attempt (first : Yields d m a d') : Yields d (Prog.attempt m) (.ok a) d' := by
  intro s sound here
  obtain ⟨s', run, rest⟩ := first s sound here
  exact ⟨s', Prog.attempt_ok run, rest⟩

theorem result (yields : Yields d m a d') (sound : s.Sound) (here : s.dev = d) (run : m.run s = .ok a' s') :
    a' = a ∧ s'.Sound ∧ s'.dev = d' := by
  obtain ⟨s₁, run₁, rest⟩ := yields s sound here
  rw [run₁] at run
  cases run
  exact ⟨rfl, rest⟩

end Yields

/-- `m` leaves the device as it is and returns what `f` makes of it, or fails on an access. -/
def Observes (m : Prog (Faulty σ) α) (f : σ → α) : Prop := ∀ s, ∃ s', s'.dev = s.dev ∧ s'.fails = s.fails ∧
  (m.run s = .ok (f s.dev) s' ∨ ¬ s.Sound ∧ ∃ e, m.run s = .error (.rc e) s')

namespace Observes
variable {m : Prog (Faulty σ) α} {f : σ → α} {n : α → Prog (Faulty σ) β} {g : α → σ → β} {s s' : Faulty σ} {a : α}

theorem pure (a : α) : Observes (pure a : Prog (Faulty σ) α) fun _ => a :=
  fun s => ⟨s, rfl, rfl, Or.inl rfl⟩

theorem access {look : σ → α × σ} (still : ∀ d, (look d).2 = d) : Observes (access look) fun d => (look d).1 := by
  intro s
  refine ⟨{ s with accesses := s.accesses + 1 }, rfl, rfl, ?_⟩
  simp only [Faulty.access, EStateM.run]
  cases outcome : s.fails s.accesses with
  | none =>
    refine Or.inl ?_
    simp only [still]
  | some e => exact Or.inr ⟨fun sound => absurd ((sound s.accesses).symm.trans outcome) (Option.some_ne_none e).symm, e, rfl⟩

theorem bind (first : Observes m f) (next : ∀ a, Observes (n a) (g a)) :
    Observes (m >>= n) fun d => g (f d) d := by
  intro s
  obtain ⟨s₁, dev₁, fails₁, outcome⟩ := first s
  rcases outcome with run₁ | ⟨unsound, e, run₁⟩
  · obtain ⟨s₂, dev₂, fails₂, outcome⟩ := next (f s.dev) s₁
    refine ⟨s₂, dev₂.trans dev₁, fails₂.trans fails₁, ?_⟩
    rw [Prog.run_bind_ok run₁, ← dev₁]
    rcases outcome with run₂ | ⟨unsound, e, run₂⟩
    · rw [dev₁] at run₂ ⊢
      exact Or.inl run₂
    · rw [Sound, fails₁] at unsound
      rw [dev₁]
      exact Or.inr ⟨unsound, e, run₂⟩
  · exact ⟨s₁, dev₁, fails₁, Or.inr ⟨unsound, e, Prog.run_bind_error run₁⟩⟩

theorem ite {c : Prop} [Decidable c] {m' : Prog (Faulty σ) α} {f' : σ → α} (yes : Observes m f)
    (no : Observes m' f') : Observes (if c then m else m') fun d => if c then f d else f' d := by
  by_cases h : c
  · simp only [if_pos h]
    exact yes
  · simp only [if_neg h]
    exact no

theorem congr {f' : σ → α} (observes : Observes m f) (same : ∀ d, f d = f' d) : Observes m f' := by
  obtain rfl : f = f' := funext same
  exact observes

theorem ok (observes : Observes m f) (run : m.run s = .ok a s') : a = f s.dev ∧ s'.dev = s.dev := by
  obtain ⟨s₁, dev, _, run₁ | ⟨_, _, run₁⟩⟩ := observes s
  · rw [run₁] at run
    cases run
    exact ⟨rfl, dev⟩
  · rw [run₁] at run
    cases run

theorem yields (observes : Observes m f) (d : σ) : Yields d m (f d) d := by
  intro s sound here
  obtain ⟨s', dev, fails, run | ⟨unsound, _⟩⟩ := observes s
  · rw [here] at run
    refine ⟨s', run, ?_, dev.trans here⟩
    rw [Sound, fails]
    exact sound
  · exact absurd sound unsound

end Observes

end Faulty
