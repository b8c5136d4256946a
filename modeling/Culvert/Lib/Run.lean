import Mathlib

/-- A run of `step`, with the events it went through in order. -/
inductive Run {σ ε : Type} (step : σ → ε → σ → Prop) : σ → List ε → σ → Prop
  | nil (s) : Run step s [] s
  | cons {s s₁ s₂ e es} : step s e s₁ → Run step s₁ es s₂ → Run step s (e :: es) s₂

namespace Run
variable {σ τ ε : Type} {step : σ → ε → σ → Prop} {s s₁ s' : σ} {es fs : List ε}

/-- What every step keeps, a run keeps. -/
theorem invariant {inv : σ → Prop} (keep : ∀ s e s', inv s → step s e s' → inv s')
    (run : Run step s es s') (start : inv s) : inv s' := by
  induction run with
  | nil => exact start
  | cons head _ ih => exact ih (keep _ _ _ start head)

/-- A run of steps that keep an invariant, each shadowed by an abstract step on the same event, is
shadowed by an abstract run. -/
theorem simulate {step' : τ → ε → τ → Prop} (inv : σ → Prop) (abs : σ → τ)
    (shadow : ∀ s e s', inv s → step s e s' → inv s' ∧ step' (abs s) e (abs s'))
    (run : Run step s es s') (start : inv s) : Run step' (abs s) es (abs s') := by
  induction run with
  | nil => exact .nil _
  | cons head _ ih =>
    obtain ⟨kept, shadowed⟩ := shadow _ _ _ start head
    exact .cons shadowed (ih kept)

/-- The same where an abstract state is only related to the state. -/
theorem refine {step' : τ → ε → τ → Prop} (rel : σ → τ → Prop)
    (shadow : ∀ s e s' t, rel s t → step s e s' → ∃ t', step' t e t' ∧ rel s' t')
    (run : Run step s es s') {t : τ} (start : rel s t) : ∃ t', Run step' t es t' ∧ rel s' t' := by
  induction run generalizing t with
  | nil => exact ⟨t, .nil t, start⟩
  | cons head _ ih =>
    obtain ⟨t₁, first, start₁⟩ := shadow _ _ _ _ start head
    obtain ⟨t', rest, last⟩ := ih start₁
    exact ⟨t', .cons first rest, last⟩

theorem mono {step' : σ → ε → σ → Prop} (imp : ∀ s e s', step s e s' → step' s e s')
    (run : Run step s es s') : Run step' s es s' := by
  induction run with
  | nil => exact .nil _
  | cons head _ ih => exact .cons (imp _ _ _ head) ih

/-- The same for steps on the events of the run only. -/
theorem mono_mem {step' : σ → ε → σ → Prop} {p : ε → Prop} (run : Run step s es s') (all : ∀ e ∈ es, p e)
    (imp : ∀ s e s', p e → step s e s' → step' s e s') : Run step' s es s' := by
  induction run with
  | nil => exact .nil _
  | cons head _ ih =>
    have later := ih fun e mem => all e (List.mem_cons_of_mem _ mem)
    exact .cons (imp _ _ _ (all _ List.mem_cons_self) head) later

theorem mono_inv {step' : σ → ε → σ → Prop} (inv : σ → Prop) (keep : ∀ s e s', inv s → step s e s' → inv s')
    (imp : ∀ s e s', inv s → step s e s' → step' s e s') (run : Run step s es s') (start : inv s) :
    Run step' s es s' :=
  run.simulate inv id (fun s e s' ok head => ⟨keep s e s' ok head, imp s e s' ok head⟩) start

/-- A run on what `f` shows of the events. -/
theorem map {ι : Type} {f : ι → ε} {es : List ι} (run : Run (fun s e s' => step s (f e) s') s es s') :
    Run step s (es.map f) s' := by
  induction run with
  | nil => exact .nil _
  | cons head _ ih => exact .cons head ih

end Run

/-- A run of `step` each of whose steps meets `p`. -/
def RunEach {σ ε : Type} (step p : σ → ε → σ → Prop) : σ → List ε → σ → Prop :=
  Run fun s e s' => step s e s' ∧ p s e s'

namespace RunEach
variable {σ τ ε : Type} {step p q : σ → ε → σ → Prop} {s s' : σ} {es : List ε}

/-- Two conditions that agree on the steps taken under an invariant are met by the same runs. -/
theorem congr (inv : σ → Prop) (keep : ∀ s e s', inv s → step s e s' → inv s')
    (agree : ∀ s e s', inv s → step s e s' → (p s e s' ↔ q s e s')) (start : inv s) :
    RunEach step p s es s' ↔ RunEach step q s es s' := by
  constructor
  · intro each
    exact each.mono_inv inv (fun s e s' ok h => keep s e s' ok h.1)
      (fun s e s' ok h => ⟨h.1, (agree s e s' ok h.1).mp h.2⟩) start
  · intro each
    exact each.mono_inv inv (fun s e s' ok h => keep s e s' ok h.1)
      (fun s e s' ok h => ⟨h.1, (agree s e s' ok h.1).mpr h.2⟩) start

end RunEach
