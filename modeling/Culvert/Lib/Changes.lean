import Culvert.Lib.Sound

namespace Faulty
variable {σ α : Type}

/-- `m` makes `f` of the device and returns, or leaves it as it is and fails on an access. -/
def Changes (m : Prog (Faulty σ) Unit) (f : σ → σ) : Prop := ∀ s, ∃ s', s'.fails = s.fails ∧
  (m.run s = .ok () s' ∧ s'.dev = f s.dev ∨ (∃ e, m.run s = .error (.rc e) s') ∧ s'.dev = s.dev ∧ ¬ s.Sound)

namespace Changes
variable {m : Prog (Faulty σ) Unit} {f : σ → σ}

theorem access (f : σ → σ) : Changes (access fun d => ((), f d)) f := by
  intro s
  simp only [Faulty.access, EStateM.run]
  cases outcome : s.fails s.accesses with
  | none => exact ⟨{ s with dev := f s.dev, accesses := s.accesses + 1 }, rfl, Or.inl ⟨rfl, rfl⟩⟩
  | some e =>
    refine ⟨{ s with accesses := s.accesses + 1 }, rfl, Or.inr ⟨⟨e, rfl⟩, rfl, fun sound => ?_⟩⟩
    rw [sound] at outcome
    cases outcome

/-- The device is looked at and then changed. -/
theorem bind {look : Prog (Faulty σ) α} {g : σ → α} {n : α → Prog (Faulty σ) Unit} {f : α → σ → σ}
    (first : Observes look g) (next : ∀ a, Changes (n a) (f a)) : Changes (look >>= n) fun d => f (g d) d := by
  intro s
  obtain ⟨s₁, dev₁, fails₁, run₁ | ⟨unsound, e, run₁⟩⟩ := first s
  · obtain ⟨s', fails', outcome⟩ := next (g s.dev) s₁
    refine ⟨s', fails'.trans fails₁, ?_⟩
    rw [Prog.run_bind_ok run₁]
    rw [dev₁, Sound, fails₁] at outcome
    exact outcome
  · exact ⟨s₁, fails₁, Or.inr ⟨⟨e, Prog.run_bind_error run₁⟩, dev₁, unsound⟩⟩

theorem state (changes : Changes m f) (s : Faulty σ) :
    (m.run s).state.dev = f s.dev ∨ (m.run s).state.dev = s.dev ∧ ¬ s.Sound := by
  obtain ⟨s', _, ⟨run, dev⟩ | ⟨⟨e, run⟩, dev, unsound⟩⟩ := changes s
  · rw [run]
    exact Or.inl dev
  · rw [run]
    exact Or.inr ⟨dev, unsound⟩

end Changes

/-- `m` goes through `acts` in order, until one is not allowed or an access fails. -/
def Performs (allowed : α → Bool) (effect : α → σ → σ) (m : Prog (Faulty σ) Unit) (acts : List α) : Prop :=
  ∀ s, ∃ s' made, s'.fails = s.fails ∧ s'.dev = made.foldl (fun d act => effect act d) s.dev ∧
    made <+: acts.takeWhile allowed ∧ (s.Sound → made = acts.takeWhile allowed) ∧
    (m.run s = .ok () s' ∧ made = acts ∨ (∃ e, m.run s = .error (.rc e) s') ∧ made ≠ acts)

namespace Performs
variable {allowed : α → Bool} {effect : α → σ → σ} {m n : Prog (Faulty σ) Unit} {acts : List α} {act : α}

theorem change (changes : Changes m (effect act)) (may : allowed act = true) : Performs allowed effect m [act] := by
  intro s
  have all : [act].takeWhile allowed = [act] := by rw [List.takeWhile_cons_of_pos may, List.takeWhile_nil]
  obtain ⟨s', fails, ⟨run, dev⟩ | ⟨error, dev, unsound⟩⟩ := changes s
  · refine ⟨s', [act], fails, dev, ?_, fun _ => all.symm, Or.inl ⟨run, rfl⟩⟩
    rw [all]
  · exact ⟨s', [], fails, dev, List.nil_prefix, fun sound => absurd sound unsound,
      Or.inr ⟨error, (List.cons_ne_nil act []).symm⟩⟩

theorem refuse {e : Errno} (may : allowed act = false) : Performs allowed effect (Prog.fail e) [act] := by
  intro s
  have none : [act].takeWhile allowed = [] := List.takeWhile_cons_of_neg (by rw [may]; decide)
  exact ⟨s, [], rfl, rfl, List.nil_prefix, fun _ => none.symm, Or.inr ⟨⟨e, rfl⟩, (List.cons_ne_nil act []).symm⟩⟩

theorem cons (first : Performs allowed effect m [act]) (next : Performs allowed effect n acts) :
    Performs allowed effect (do m; n) (act :: acts) := by
  intro s
  obtain ⟨s₁, made, fails₁, dev₁, before, sound₁, ⟨run₁, rfl⟩ | ⟨⟨e, run₁⟩, part⟩⟩ := first s
  · have may : allowed act = true := by
      cases may : allowed act
      · rw [List.takeWhile_cons_of_neg (by rw [may]; decide)] at before
        exact absurd (List.prefix_nil.mp before) (List.cons_ne_nil act [])
      · rfl
    obtain ⟨s₂, rest, fails₂, dev₂, before', sound₂, outcome⟩ := next s₁
    rw [Sound, fails₁] at sound₂
    refine ⟨s₂, act :: rest, fails₂.trans fails₁, ?_, ?_, fun sound => ?_, ?_⟩
    · rw [dev₂, dev₁]
      rfl
    · rw [List.takeWhile_cons_of_pos may]
      exact List.cons_prefix_cons.mpr ⟨rfl, before'⟩
    · rw [List.takeWhile_cons_of_pos may, sound₂ sound]
    · rw [Prog.run_bind_ok run₁]
      rcases outcome with ⟨run₂, rfl⟩ | ⟨error, part⟩
      · exact Or.inl ⟨run₂, rfl⟩
      · exact Or.inr ⟨error, fun same => part (List.cons.inj same).2⟩
  · have none : made = [] := by
      have short := before.trans (List.takeWhile_prefix allowed)
      rcases List.prefix_cons_iff.mp short with none | ⟨rest, rfl, more⟩
      · exact none
      · rw [List.prefix_nil.mp more] at part
        exact absurd rfl part
    subst none
    refine ⟨s₁, [], fails₁, dev₁, List.nil_prefix, fun sound => ?_,
      Or.inr ⟨⟨e, Prog.run_bind_error run₁⟩, (List.cons_ne_nil act acts).symm⟩⟩
    have refused := sound₁ sound
    cases may : allowed act
    · exact (List.takeWhile_cons_of_neg (by rw [may]; decide)).symm
    · rw [List.takeWhile_cons_of_pos may] at refused
      cases refused

end Performs

end Faulty
