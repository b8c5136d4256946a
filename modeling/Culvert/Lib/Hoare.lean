import Culvert.Lib.Frame

namespace Prog
variable {σ α β : Type}

/-- From `P` the program ends in `Q` when it returns a value and in `E` when it stops without one. -/
def Triple (P : σ → Prop) (m : Prog σ α) (Q : α → σ → Prop) (E : Stop → σ → Prop) : Prop := ∀ s, P s →
  (∀ a s', m.run s = .ok a s' → Q a s') ∧ ∀ e s', m.run s = .error e s' → E e s'

namespace Triple
variable {P P' : σ → Prop} {Q Q' : α → σ → Prop} {R : β → σ → Prop} {E E' : Stop → σ → Prop}
variable {m : Prog σ α} {f : α → Prog σ β} {s s' : σ}

theorem pure {a : α} (post : ∀ s, P s → Q a s) : Triple P (pure a) Q E := by
  intro s pre
  refine ⟨fun b s' run => ?_, fun e s' run => ?_⟩
  · cases run
    exact post s pre
  · cases run

theorem throw {e : Stop} (post : ∀ s, P s → E e s) : Triple P (throw e : Prog σ α) Q E := by
  intro s pre
  refine ⟨fun b s' run => ?_, fun e' s' run => ?_⟩
  · cases run
  · cases run
    exact post s pre

theorem fail {e : Errno} (post : ∀ s, P s → E (.rc e) s) : Triple P (fail e : Prog σ α) Q E := throw post

theorem bind (first : Triple P m Q E) (next : ∀ a, Triple (Q a) (f a) R E) : Triple P (m >>= f) R E := by
  intro s pre
  obtain ⟨good, bad⟩ := first s pre
  refine ⟨fun b s' run => ?_, fun e s' run => ?_⟩
  · obtain ⟨a, s₁, head, tail⟩ := bind_ok_iff.mp run
    exact (next a s₁ (good a s₁ head)).1 b s' tail
  · rcases bind_error_iff.mp run with head | ⟨a, s₁, head, tail⟩
    · exact bad e s' head
    · exact (next a s₁ (good a s₁ head)).2 e s' tail

theorem ite {c : Prop} [Decidable c] {m' : Prog σ α} (yes : Triple P m Q E) (no : Triple P m' Q E) :
    Triple P (if c then m else m') Q E := by
  by_cases h : c
  · rw [if_pos h]
    exact yes
  · rw [if_neg h]
    exact no

theorem conseq (triple : Triple P m Q E) (pre : ∀ s, P' s → P s) (post : ∀ a s, Q a s → Q' a s)
    (stop : ∀ e s, E e s → E' e s) : Triple P' m Q' E' := by
  intro s start
  obtain ⟨good, bad⟩ := triple s (pre s start)
  exact ⟨fun a s' run => post a s' (good a s' run), fun e s' run => stop e s' (bad e s' run)⟩

/-- A loop keeps what each turn restores. -/
theorem loop {body : α → Prog σ (α ⊕ β)} (I : α → σ → Prop)
    (turn : ∀ a, Triple (I a) (body a) (fun r s => r.elim (I · s) (R · s)) E)
    (out : ∀ a s, I a s → E .hang s) (fuel : Nat) (a : α) : Triple (I a) (loop body fuel a) R E := by
  induction fuel generalizing a with
  | zero => exact throw (out a)
  | succ fuel ih =>
    refine (turn a).bind fun r => ?_
    cases r with
    | inl a' => exact ih a'
    | inr b => exact pure fun _ post => post

theorem attempt (triple : Triple P m Q E) : Triple P (attempt m)
    (fun r s => match r with | .ok a => Q a s | .error e => E (.rc e) s) E := by
  intro s pre
  obtain ⟨good, bad⟩ := triple s pre
  refine ⟨fun r s' run => ?_, fun e s' run => ?_⟩
  · cases r with
    | ok a => exact good a s' (attempt_ok_iff.mp run)
    | error e => exact bad _ s' (attempt_error_iff.mp run)
  · rw [run_attempt] at run
    cases first : m.run s with
    | ok a s₁ =>
      rw [first] at run
      cases run
    | error e' s₁ =>
      rw [first] at run
      cases e' with
      | rc _ => cases run
      | fault =>
        cases run
        exact bad _ _ first
      | hang =>
        cases run
        exact bad _ _ first

/-- What `m` establishes on every path and `cleanup` does not undo. -/
theorem ensuring {I : σ → Prop} {cleanup : Prog σ Unit} (first : Triple P m (fun _ => I) (fun _ => I))
    (last : Triple I cleanup (fun _ => I) (fun _ => I)) :
    Triple P (ensuring m cleanup) (fun _ => I) (fun _ => I) := by
  refine bind (Q := fun _ => I) (first.attempt.conseq (fun _ pre => pre) ?_ (fun _ _ post => post)) fun r =>
    bind (Q := fun _ => I) (last.attempt.conseq (fun _ pre => pre) ?_ (fun _ _ post => post)) fun _ => ?_
  · intro a s post
    cases a with
    | ok _ => exact post
    | error _ => exact post
  · intro a s post
    cases a with
    | ok _ => exact post
    | error _ => exact post
  · cases r with
    | ok a => exact pure fun _ post => post
    | error e => exact fail fun _ post => post

/-- Where a triple's program ends, whatever it returns. -/
theorem state {I : σ → Prop} (triple : Triple P m (fun _ => I) (fun _ => I)) (pre : P s) : I (m.run s).state := by
  obtain ⟨good, bad⟩ := triple s pre
  cases run : m.run s with
  | ok a s' => exact good a s' run
  | error e s' => exact bad e s' run

/-- A program on a part of the state, next to what does not look at that part. -/
theorem zoom {τ : Type} {get : τ → σ} {set : τ → σ → τ} {F : τ → Prop} (back : ∀ t s, get (set t s) = s)
    (frame : ∀ t s, F t → F (set t s)) (triple : Triple P m Q E) : Triple (fun t => P (get t) ∧ F t)
    (zoom get set m) (fun a t => Q a (get t) ∧ F t) (fun e t => E e (get t) ∧ F t) := by
  intro t start
  obtain ⟨good, bad⟩ := triple (get t) start.1
  refine ⟨fun a t' run => ?_, fun e t' run => ?_⟩
  · obtain ⟨s', run', rfl⟩ := zoom_ok_iff.mp run
    rw [back]
    exact ⟨good a s' run', frame t s' start.2⟩
  · obtain ⟨s', run', rfl⟩ := zoom_error_iff.mp run
    rw [back]
    exact ⟨bad e s' run', frame t s' start.2⟩

theorem of_keeps {R : σ → σ → Prop} (kept : Keeps R m) (carry : ∀ s s', P s → R s s' → P s') :
    Triple P m (fun _ => P) (fun _ => P) := fun s pre =>
  ⟨fun _ s' run => carry s s' pre (kept.ok run), fun _ s' run => carry s s' pre (kept.error run)⟩

end Triple

/-- From every state in `P` the program returns `a`, in a state in `Q`. -/
def Leads (P : σ → Prop) (m : Prog σ α) (a : α) (Q : σ → Prop) : Prop := ∀ s, P s → ∃ s', m.run s = .ok a s' ∧ Q s'

namespace Leads
variable {P Q R : σ → Prop} {m : Prog σ α} {f : α → Prog σ β} {a : α} {b : β} {s s' : σ}

theorem pure (imp : ∀ s, P s → Q s) : Leads P (pure a) a Q := fun s start => ⟨s, rfl, imp s start⟩

theorem bind (first : Leads P m a Q) (next : Leads Q (f a) b R) : Leads P (m >>= f) b R := by
  intro s start
  obtain ⟨s₁, run₁, mid⟩ := first s start
  obtain ⟨s₂, run₂, last⟩ := next s₁ mid
  exact ⟨s₂, by rw [run_bind_ok run₁, run₂], last⟩

theorem get {f : σ → Prog σ β} (next : ∀ s, P s → Leads P (f s) b Q) : Leads P (get >>= f) b Q :=
  fun s start => next s start s start

theorem modify {g : σ → σ} (step : ∀ s, P s → Q (g s)) : Leads P (modify g) () Q :=
  fun s start => ⟨g s, rfl, step s start⟩

theorem attempt (leads : Leads P m a Q) : Leads P (attempt m) (.ok a) Q := by
  intro s start
  obtain ⟨s', run, last⟩ := leads s start
  exact ⟨s', attempt_ok run, last⟩

theorem mono {P' Q' : σ → Prop} (leads : Leads P m a Q) (pre : ∀ s, P' s → P s) (post : ∀ s, Q s → Q' s) :
    Leads P' m a Q' := by
  intro s start
  obtain ⟨s', run, last⟩ := leads s (pre s start)
  exact ⟨s', run, post s' last⟩

theorem result {a' : α} (leads : Leads P m a Q) (start : P s) (run : m.run s = .ok a' s') : a' = a ∧ Q s' := by
  obtain ⟨s₁, run₁, last⟩ := leads s start
  rw [run₁] at run
  cases run
  exact ⟨rfl, last⟩

end Leads

end Prog

/-- An access that succeeds takes the device to `K`; one that fails leaves it as it is. -/
theorem Faulty.access_triple {σ α : Type} {look : σ → α × σ} {I : σ → Prop} {K : α → σ → Prop}
    {E : Stop → Faulty σ → Prop} (done : ∀ d, I d → K (look d).1 (look d).2)
    (stop : ∀ e s, I s.dev → E (.rc e) s) :
    Prog.Triple (fun s : Faulty σ => I s.dev) (access look) (fun a s => K a s.dev) E := by
  intro s start
  refine ⟨fun a s' run => ?_, fun e s' run => ?_⟩
  · obtain ⟨rfl, eq⟩ := access_ok run
    rw [eq]
    exact done s.dev start
  · obtain ⟨r, rfl⟩ := access_returns look s e s' run
    have same := access_error run
    exact stop r s' (same ▸ start)
