import Culvert.Lib.Prog

namespace Prog
variable {σ τ α β : Type}

/-- Whatever the program returns, it ends in a state that `R` relates to the one it started in. -/
def Keeps (R : σ → σ → Prop) (m : Prog σ α) : Prop := ∀ s, R s (m.run s).state

/-- `f` sees no difference. -/
def Same (f : σ → τ) (s s' : σ) : Prop := f s' = f s

instance (f : σ → τ) : IsPreorder σ (Same f) where
  refl _ := rfl
  trans _ _ _ first second := Eq.trans second first

section
variable {R : σ → σ → Prop} {m : Prog σ α} {s s' : σ}

theorem Keeps.attempt (first : Keeps R m) : Keeps R (attempt m) := by
  intro s
  rw [attempt_state]
  exact first s

theorem Keeps.ite {c : Prop} [Decidable c] {m' : Prog σ α} (yes : Keeps R m) (no : Keeps R m') :
    Keeps R (if c then m else m') := by
  by_cases h : c
  · rw [if_pos h]
    exact yes
  · rw [if_neg h]
    exact no

theorem Keeps.mono {R' : σ → σ → Prop} (kept : Keeps R m) (imp : ∀ s s', R s s' → R' s s') : Keeps R' m :=
  fun s => imp s _ (kept s)

/-- What `m` reaches, the rest of the program leaves in place. -/
theorem state_bind {f : α → Prog σ β} {F : σ → Prop} (reached : F (m.run s).state) (next : ∀ a, Keeps R (f a))
    (carry : ∀ s₁ s₂, F s₁ → R s₁ s₂ → F s₂) : F ((m >>= f).run s).state := by
  cases run : m.run s with
  | ok a s₁ =>
    rw [run] at reached
    rw [run_bind_ok run]
    exact carry s₁ _ reached (next a s₁)
  | error e s₁ =>
    rw [run] at reached
    rw [run_bind_error run]
    exact reached

theorem Keeps.ok {a : α} (kept : Keeps R m) (run : m.run s = .ok a s') : R s s' := by
  have := kept s
  rwa [run] at this

theorem Keeps.error {e : Stop} (kept : Keeps R m) (run : m.run s = .error e s') : R s s' := by
  have := kept s
  rwa [run] at this

end

section
variable {R : σ → σ → Prop} [IsPreorder σ R] {m : Prog σ α} {n : Prog σ β} {f : α → Prog σ β}

theorem keeps_pure (a : α) : Keeps R (pure a : Prog σ α) := fun s => refl_of R s

theorem keeps_throw (e : Stop) : Keeps R (throw e : Prog σ α) := fun s => refl_of R s

theorem keeps_fail (e : Errno) : Keeps R (fail e : Prog σ α) := fun s => refl_of R s

/-- The rest of the program is only run on values that `m` returns. -/
theorem Keeps.bind_of (first : Keeps R m) (next : ∀ s a s', m.run s = .ok a s' → Keeps R (f a)) :
    Keeps R (m >>= f) := by
  intro s
  have head := first s
  cases run : m.run s with
  | ok a s₁ =>
    rw [run, EStateM.Result.state_ok] at head
    rw [run_bind_ok run]
    exact trans_of R head (next s a s₁ run s₁)
  | error e s₁ =>
    rw [run] at head
    rw [run_bind_error run]
    exact head

theorem Keeps.bind (first : Keeps R m) (next : ∀ a, Keeps R (f a)) : Keeps R (m >>= f) :=
  first.bind_of fun _ a _ _ => next a

theorem Keeps.ensuring {cleanup : Prog σ Unit} (first : Keeps R m) (last : Keeps R cleanup) :
    Keeps R (ensuring m cleanup) := by
  refine first.attempt.bind fun r => last.attempt.bind fun _ => ?_
  cases r with
  | ok a => exact keeps_pure a
  | error e => exact keeps_fail e

theorem state_ensuring {F : σ → Prop} {cleanup : Prog σ Unit} {s : σ} (reached : F (m.run s).state)
    (last : Keeps R cleanup) (carry : ∀ s₁ s₂, F s₁ → R s₁ s₂ → F s₂) : F ((ensuring m cleanup).run s).state := by
  rw [← attempt_state] at reached
  refine state_bind reached (fun r => last.attempt.bind fun _ => ?_) carry
  cases r with
  | ok a => exact keeps_pure a
  | error e => exact keeps_fail e

theorem Keeps.also (first : Keeps R m) (second : Keeps R n) : Keeps R (also m n) := by
  refine first.attempt.bind fun r => second.attempt.bind fun r' => ?_
  cases r <;> cases r'
  · exact keeps_fail _
  · exact keeps_fail _
  · exact keeps_fail _
  · exact keeps_pure _

theorem Keeps.all {ms : List (Prog σ Unit)} (each : ∀ m ∈ ms, Keeps R m) : Keeps R (all ms) := by
  induction ms with
  | nil => exact keeps_pure ()
  | cons m ms ih =>
    have rest := ih fun m' mem => each m' (List.mem_cons_of_mem m mem)
    exact ((each m List.mem_cons_self).also rest).bind fun _ => keeps_pure ()

theorem Keeps.loop {body : α → Prog σ (α ⊕ β)} (turn : ∀ a, Keeps R (body a)) (fuel : Nat) (a : α) :
    Keeps R (loop body fuel a) := by
  induction fuel generalizing a with
  | zero => exact keeps_throw _
  | succ fuel ih =>
    refine (turn a).bind fun r => ?_
    cases r with
    | inl a' => exact ih a'
    | inr b => exact keeps_pure b

end

/-- The program neither faults nor hangs. -/
def Returns (m : Prog σ α) : Prop := ∀ s e s', m.run s = .error e s' → ∃ r, e = .rc r

section
variable {m : Prog σ α} {n : Prog σ β} {f : α → Prog σ β}

theorem returns_pure (a : α) : Returns (pure a : Prog σ α) := by
  intro s e s' run
  cases run

theorem returns_fail (e : Errno) : Returns (fail e : Prog σ α) := by
  intro s e' s' run
  cases run
  exact ⟨e, rfl⟩

theorem Returns.bind (first : Returns m) (next : ∀ a, Returns (f a)) : Returns (m >>= f) := by
  intro s e s' run
  rcases bind_error_iff.mp run with head | ⟨a, s₁, _, tail⟩
  · exact first s e s' head
  · exact next a s₁ e s' tail

theorem Returns.attempt (first : Returns m) : Returns (attempt m) := by
  intro s e s' run
  rw [run_attempt] at run
  cases head : m.run s with
  | ok a s₁ =>
    rw [head] at run
    cases run
  | error e' s₁ =>
    rw [head] at run
    obtain ⟨r, rfl⟩ := first s e' s₁ head
    cases run

theorem Returns.ensuring {cleanup : Prog σ Unit} (first : Returns m) (last : Returns cleanup) :
    Returns (ensuring m cleanup) := by
  refine first.attempt.bind fun r => last.attempt.bind fun _ => ?_
  cases r with
  | ok a => exact returns_pure a
  | error e => exact returns_fail e

theorem Returns.also (first : Returns m) (second : Returns n) : Returns (also m n) := by
  refine first.attempt.bind fun r => second.attempt.bind fun r' => ?_
  cases r <;> cases r'
  · exact returns_fail _
  · exact returns_fail _
  · exact returns_fail _
  · exact returns_pure _

theorem Returns.all {ms : List (Prog σ Unit)} (each : ∀ m ∈ ms, Returns m) : Returns (all ms) := by
  induction ms with
  | nil => exact returns_pure ()
  | cons m ms ih =>
    have rest := ih fun m' mem => each m' (List.mem_cons_of_mem m mem)
    exact ((each m List.mem_cons_self).also rest).bind fun _ => returns_pure ()

end

/-- From `s` the program returns in `s'`, with a value or an error code. -/
def ReturnsIn (m : Prog σ α) (s s' : σ) : Prop := ∃ r, (attempt m).run s = .ok r s'

section
variable {m : Prog σ α} {f : α → Prog σ β} {s s' : σ} {a : α} {e : Errno}

theorem returnsIn_iff : ReturnsIn m s s' ↔ (∃ a, m.run s = .ok a s') ∨ ∃ e, m.run s = .error (.rc e) s' := by
  constructor
  · rintro ⟨a | e, run⟩
    · exact Or.inr ⟨a, attempt_error_iff.mp run⟩
    · exact Or.inl ⟨e, attempt_ok_iff.mp run⟩
  · rintro (⟨a, run⟩ | ⟨e, run⟩)
    · exact ⟨.ok a, attempt_ok run⟩
    · exact ⟨.error e, attempt_rc run⟩

theorem returnsIn_bind : ReturnsIn (m >>= f) s s' ↔
    (∃ e, m.run s = .error (.rc e) s') ∨ ∃ a s₁, m.run s = .ok a s₁ ∧ ReturnsIn (f a) s₁ s' := by
  rw [returnsIn_iff]
  constructor
  · rintro (⟨b, run⟩ | ⟨e, run⟩)
    · obtain ⟨a, s₁, head, tail⟩ := bind_ok_iff.mp run
      exact Or.inr ⟨a, s₁, head, returnsIn_iff.mpr (Or.inl ⟨b, tail⟩)⟩
    · rcases bind_error_iff.mp run with head | ⟨a, s₁, head, tail⟩
      · exact Or.inl ⟨e, head⟩
      · exact Or.inr ⟨a, s₁, head, returnsIn_iff.mpr (Or.inr ⟨e, tail⟩)⟩
  · rintro (⟨e, run⟩ | ⟨a, s₁, head, tail⟩)
    · exact Or.inr ⟨e, run_bind_error run⟩
    · rcases returnsIn_iff.mp tail with ⟨b, run⟩ | ⟨e, run⟩
      · exact Or.inl ⟨b, bind_ok_iff.mpr ⟨a, s₁, head, run⟩⟩
      · exact Or.inr ⟨e, bind_error_iff.mpr (Or.inr ⟨a, s₁, head, run⟩)⟩

theorem returnsIn_ensuring {cleanup : Prog σ Unit} : ReturnsIn (ensuring m cleanup) s s' ↔
    ∃ s₁, ReturnsIn m s s₁ ∧ ReturnsIn cleanup s₁ s' := by
  rw [returnsIn_iff]
  constructor
  · rintro (⟨a, run⟩ | ⟨e, run⟩)
    · obtain ⟨s₁, first, last⟩ := ensuring_ok_iff.mp run
      exact ⟨s₁, returnsIn_iff.mpr (Or.inl ⟨a, first⟩), last⟩
    · obtain ⟨s₁, first, last⟩ := ensuring_error_iff.mp run
      exact ⟨s₁, returnsIn_iff.mpr (Or.inr ⟨e, first⟩), last⟩
  · rintro ⟨s₁, first, last⟩
    rcases returnsIn_iff.mp first with ⟨a, run⟩ | ⟨e, run⟩
    · exact Or.inl ⟨a, ensuring_ok_iff.mpr ⟨s₁, run, last⟩⟩
    · exact Or.inr ⟨e, ensuring_error_iff.mpr ⟨s₁, run, last⟩⟩

theorem Keeps.returnsIn {R : σ → σ → Prop} (kept : Keeps R m) (returned : ReturnsIn m s s') : R s s' := by
  rcases returnsIn_iff.mp returned with ⟨a, run⟩ | ⟨e, run⟩
  · exact kept.ok run
  · exact kept.error run

end

/-- Run `m` on the part of the state that `get` and `set` give access to. -/
def zoom (get : τ → σ) (set : τ → σ → τ) (m : Prog σ α) : Prog τ α := fun t =>
  match m (get t) with
  | .ok a s => .ok a (set t s)
  | .error e s => .error e (set t s)

section
variable {get : τ → σ} {set : τ → σ → τ} {m : Prog σ α} {t t' : τ}

theorem run_zoom_ok {a : α} {s : σ} (run : m.run (get t) = .ok a s) :
    (zoom get set m).run t = .ok a (set t s) := by
  simp only [zoom, EStateM.run] at *
  rw [run]

theorem zoom_ok_iff {a : α} : (zoom get set m).run t = .ok a t' ↔
    ∃ s, m.run (get t) = .ok a s ∧ t' = set t s := by
  simp only [zoom, EStateM.run]
  cases m (get t) with
  | ok b s => simp [eq_comm]
  | error e s => simp

/-- A program on a part keeps what does not look at that part. -/
theorem zoom_keeps {R : τ → τ → Prop} (same : ∀ t s, R t (set t s)) : Keeps R (zoom get set m) := by
  intro t
  simp only [zoom, EStateM.run]
  cases m (get t) with
  | ok a s => exact same t s
  | error e s => exact same t s

theorem zoom_state : ((zoom get set m).run t).state = set t (m.run (get t)).state := by
  simp only [zoom, EStateM.run]
  cases m (get t) with
  | ok a s => rfl
  | error e s => rfl

/-- What a program on a part does to it carries over to the whole. -/
theorem Keeps.zoom {R : σ → σ → Prop} {R' : τ → τ → Prop} (kept : Keeps R m) (lift : ∀ t s, R (get t) s → R' t (set t s)) :
    Keeps R' (zoom get set m) := by
  intro t
  have part := kept (get t)
  simp only [Prog.zoom, EStateM.run] at part ⊢
  cases run : m (get t) with
  | ok a s =>
    rw [run] at part
    exact lift t s part
  | error e s =>
    rw [run] at part
    exact lift t s part

/-- What a program on a part keeps of it, it keeps of the whole. -/
theorem zoom_same {ρ : Type} {whole : τ → ρ} (view : σ → ρ) (after : ∀ t s, whole (set t s) = view s)
    (before : ∀ t, whole t = view (get t)) (kept : Keeps (Same view) m) : Keeps (Same whole) (zoom get set m) := by
  intro t
  have part := kept (get t)
  simp only [zoom, EStateM.run, Same, before] at part ⊢
  cases run : m (get t) with
  | ok a s =>
    rw [run] at part
    exact (before _).symm.trans ((after t s).trans part)
  | error e s =>
    rw [run] at part
    exact (before _).symm.trans ((after t s).trans part)

theorem zoom_error_iff {e : Stop} : (zoom get set m).run t = .error e t' ↔
    ∃ s, m.run (get t) = .error e s ∧ t' = set t s := by
  simp only [zoom, EStateM.run]
  cases m (get t) with
  | ok b s => simp
  | error e' s => simp [eq_comm]

end

end Prog

theorem Faulty.access_keeps {σ α τ : Type} {view : σ → τ} {f : σ → α × σ} (same : ∀ d, view (f d).2 = view d) :
    Prog.Keeps (Prog.Same fun s : Faulty σ => view s.dev) (access f) := by
  intro s
  rcases access_dev f s with unchanged | changed
  · rw [Prog.Same, unchanged]
  · rw [Prog.Same, changed, same]

theorem Faulty.access_returns {σ α : Type} (f : σ → α × σ) : Prog.Returns (access f) := by
  intro s e s' run
  simp only [access, EStateM.run] at run
  split at run
  · cases run
    exact ⟨_, rfl⟩
  · cases run
