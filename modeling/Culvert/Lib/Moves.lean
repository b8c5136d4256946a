import Culvert.Lib.Takes

/-! Where a program leaves a device whose accesses may fail, with a value or an error code. -/

namespace Faulty
variable {σ α β : Type}

/-- From a device in `I` the program returns: with a value and the device in `K`, or with an error code and
the device in `E`. -/
def Moves (I : σ → Prop) (m : Prog (Faulty σ) α) (K E : σ → Prop) : Prop := ∀ s, I s.dev →
  (∃ a s', m.run s = .ok a s' ∧ K s'.dev) ∨ ∃ e s', m.run s = .error (.rc e) s' ∧ E s'.dev

/-- An access that never fails. -/
def sure (f : σ → α × σ) : Prog (Faulty σ) α := fun s =>
  .ok (f s.dev).1 { s with dev := (f s.dev).2, accesses := s.accesses + 1 }

namespace Moves
variable {I J K E : σ → Prop} {m : Prog (Faulty σ) α} {n : Prog (Faulty σ) β} {f : α → Prog (Faulty σ) β}
variable {s s' : Faulty σ}

theorem pure {a : α} (post : ∀ d, I d → K d) : Moves I (pure a : Prog (Faulty σ) α) K E :=
  fun s start => Or.inl ⟨a, s, rfl, post s.dev start⟩

theorem fail {e : Errno} (stop : ∀ d, I d → E d) : Moves I (Prog.fail e : Prog (Faulty σ) α) K E :=
  fun s start => Or.inr ⟨e, s, rfl, stop s.dev start⟩

theorem access {look : σ → α × σ} (done : ∀ d, I d → K (look d).2) (still : ∀ d, I d → E d) :
    Moves I (access look) K E := by
  intro s start
  cases outcome : s.fails s.accesses with
  | none =>
    refine Or.inl ⟨(look s.dev).1, s.after 1 (look s.dev).2, ?_, done s.dev start⟩
    simp only [Faulty.access, EStateM.run, outcome, after]
  | some e =>
    refine Or.inr ⟨e, s.after 1 s.dev, ?_, still s.dev start⟩
    simp only [Faulty.access, EStateM.run, outcome, after]

theorem sure {look : σ → α × σ} (done : ∀ d, I d → K (look d).2) : Moves I (sure look) K E :=
  fun s start => Or.inl ⟨(look s.dev).1, s.after 1 (look s.dev).2, rfl, done s.dev start⟩

theorem bind (first : Moves I m J E) (next : ∀ a, Moves J (f a) K E) : Moves I (m >>= f) K E := by
  intro s start
  rcases first s start with ⟨a, s₁, run, mid⟩ | ⟨e, s₁, run, stop⟩
  · rw [Prog.run_bind_ok run]
    exact next a s₁ mid
  · exact Or.inr ⟨e, s₁, Prog.run_bind_error run, stop⟩

theorem mono {I' K' E' : σ → Prop} (moves : Moves I m K E) (pre : ∀ d, I' d → I d) (post : ∀ d, K d → K' d)
    (stop : ∀ d, E d → E' d) : Moves I' m K' E' := by
  intro s start
  rcases moves s (pre s.dev start) with ⟨a, s₁, run, last⟩ | ⟨e, s₁, run, last⟩
  · exact Or.inl ⟨a, s₁, run, post s₁.dev last⟩
  · exact Or.inr ⟨e, s₁, run, stop s₁.dev last⟩

theorem ite {c : Prop} [Decidable c] {m' : Prog (Faulty σ) α} (yes : Moves I m K E) (no : Moves I m' K E) :
    Moves I (if c then m else m') K E := by
  by_cases h : c
  · rw [if_pos h]
    exact yes
  · rw [if_neg h]
    exact no

theorem attempt (moves : Moves I m K K) : Moves I (Prog.attempt m) K E := by
  intro s start
  rcases moves s start with ⟨a, s₁, run, last⟩ | ⟨e, s₁, run, last⟩
  · exact Or.inl ⟨.ok a, s₁, Prog.attempt_ok run, last⟩
  · exact Or.inl ⟨.error e, s₁, Prog.attempt_rc run, last⟩

theorem ensuring {cleanup : Prog (Faulty σ) Unit} (first : Moves I m J J) (last : Moves J cleanup K K) :
    Moves I (Prog.ensuring m cleanup) K K := by
  refine first.attempt.bind fun r => last.attempt.bind fun _ => ?_
  cases r with
  | ok a => exact pure fun _ post => post
  | error e => exact fail fun _ post => post

theorem also (first : Moves I m J J) (second : Moves J n K K) : Moves I (Prog.also m n) K K := by
  refine first.attempt.bind fun r => second.attempt.bind fun r' => ?_
  cases r <;> cases r'
  · exact fail fun _ post => post
  · exact fail fun _ post => post
  · exact fail fun _ post => post
  · exact pure fun _ post => post

theorem all {ms : List (Prog (Faulty σ) Unit)} (each : ∀ m ∈ ms, Moves I m I I) : Moves I (Prog.all ms) I I := by
  induction ms with
  | nil => exact pure fun _ post => post
  | cons m ms ih =>
    have rest := ih fun m' mem => each m' (List.mem_cons_of_mem m mem)
    exact ((each m List.mem_cons_self).also rest).bind fun _ => pure fun _ post => post

/-- Where the device is left, whatever the program returns. -/
theorem state (moves : Moves I m K K) (start : I s.dev) : K (m.run s).state.dev := by
  rcases moves s start with ⟨a, s₁, run, last⟩ | ⟨e, s₁, run, last⟩
  · rw [run]
    exact last
  · rw [run]
    exact last

theorem ok {a : α} (moves : Moves I m K E) (start : I s.dev) (run : m.run s = .ok a s') : K s'.dev := by
  rcases moves s start with ⟨a', s₁, run', last⟩ | ⟨e, s₁, run', last⟩
  · rw [run] at run'
    cases run'
    exact last
  · rw [run] at run'
    cases run'

theorem error {e : Stop} (moves : Moves I m K E) (start : I s.dev) (run : m.run s = .error e s') : E s'.dev := by
  rcases moves s start with ⟨a', s₁, run', last⟩ | ⟨e, s₁, run', last⟩
  · rw [run] at run'
    cases run'
  · rw [run] at run'
    cases run'
    exact last

end Moves

/-- Two accesses of which the second is made whatever the first returns. -/
theorem pair_run (f g : σ → Unit × σ) (s : Faulty σ) : (Prog.all [access f, access g]).run s =
    match s.fails s.accesses, s.fails (s.accesses + 1) with
    | none, none => .ok () (s.after 2 (g (f s.dev).2).2)
    | some e, none => .error (.rc e) (s.after 2 (g s.dev).2)
    | none, some e => .error (.rc e) (s.after 2 (f s.dev).2)
    | some e, some e' => .error (.rc (e.or e')) (s.after 2 s.dev) := by
  cases first : s.fails s.accesses <;> cases second : s.fails (s.accesses + 1) <;>
    simp [Prog.all, Prog.also, Prog.attempt, Prog.fail, access, after, first, second, bind, EStateM.bind, pure,
      EStateM.pure, EStateM.run, throw, throwThe, MonadExceptOf.throw, EStateM.throw]

end Faulty
