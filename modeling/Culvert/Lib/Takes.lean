import Culvert.Lib.Prog

/-! How many accesses a program makes, and where it stops when one of them fails. -/

namespace Faulty
variable {σ α β : Type}

/-- None of the next `n` accesses fails. -/
def Clear (s : Faulty σ) (n : Nat) : Prop := ∀ k < n, s.fails (s.accesses + k) = none

/-- Of the next accesses `k` is the first that fails. -/
def FirstFails (s : Faulty σ) (k : Nat) : Prop := s.Clear k ∧ ∃ e, s.fails (s.accesses + k) = some e

/-- `n` accesses later, with the device in `d`. -/
def after (s : Faulty σ) (n : Nat) (d : σ) : Faulty σ := { s with dev := d, accesses := s.accesses + n }

section
variable {s : Faulty σ} {n m k : Nat} {d d' : σ}

@[simp] theorem after_dev : (s.after n d).dev = d := rfl
@[simp] theorem after_fails : (s.after n d).fails = s.fails := rfl
@[simp] theorem after_accesses : (s.after n d).accesses = s.accesses + n := rfl

@[simp] theorem after_after : (s.after n d).after m d' = s.after (n + m) d' := by
  simp only [after, Nat.add_assoc]

@[simp] theorem after_zero : s.after 0 s.dev = s := rfl

theorem clear_zero : s.Clear 0 := fun _ lt => absurd lt (Nat.not_lt_zero _)

theorem Clear.mono (clear : s.Clear n) (le : m ≤ n) : s.Clear m := fun k lt => clear k (Nat.lt_of_lt_of_le lt le)

theorem clear_add : s.Clear (n + m) ↔ s.Clear n ∧ (s.after n d).Clear m := by
  constructor
  · intro clear
    refine ⟨clear.mono (Nat.le_add_right n m), fun k lt => ?_⟩
    rw [after_fails, after_accesses, Nat.add_assoc]
    exact clear (n + k) (by omega)
  · rintro ⟨first, second⟩ k lt
    by_cases early : k < n
    · exact first k early
    · have later := second (k - n) (by omega)
      rw [after_fails, after_accesses, Nat.add_assoc, Nat.add_sub_cancel' (by omega)] at later
      exact later

theorem FirstFails.not_clear (first : s.FirstFails k) (lt : k < n) : ¬ s.Clear n := by
  intro clear
  obtain ⟨_, e, fails⟩ := first
  rw [clear k lt] at fails
  cases fails

theorem FirstFails.shift (first : s.FirstFails (n + k)) : (s.after n d).FirstFails k := by
  obtain ⟨clear, e, fails⟩ := first
  refine ⟨(clear_add.mp clear).2, e, ?_⟩
  rw [after_fails, after_accesses, Nat.add_assoc, fails]

/-- Either none of the next accesses fails, or one of them is the first to. -/
theorem clear_or_firstFails (s : Faulty σ) (n : Nat) : s.Clear n ∨ ∃ k < n, s.FirstFails k := by
  induction n with
  | zero => exact Or.inl clear_zero
  | succ n ih =>
    rcases ih with clear | ⟨k, lt, first⟩
    · cases outcome : s.fails (s.accesses + n) with
      | none =>
        refine Or.inl fun k lt => ?_
        rcases Nat.lt_succ_iff_lt_or_eq.mp lt with lt | rfl
        · exact clear k lt
        · exact outcome
      | some e => exact Or.inr ⟨n, Nat.lt_succ_self n, clear, e, outcome⟩
    · exact Or.inr ⟨k, Nat.lt_succ_of_lt lt, first⟩

end

/-- From the device `d` the program makes `n` accesses. When none fails it returns `a` and leaves the
device in `d'`. It stops with an error at the first that does, the device then being in `I`. -/
structure Takes (I : σ → Prop) (d : σ) (m : Prog (Faulty σ) α) (n : Nat) (a : α) (d' : σ) : Prop where
  clear : ∀ s, s.dev = d → s.Clear n → m.run s = .ok a (s.after n d')
  failed : ∀ s k, s.dev = d → k < n → s.FirstFails k → ∃ e mid, I mid ∧ m.run s = .error (.rc e) (s.after (k + 1) mid)

namespace Takes
variable {I : σ → Prop} {d d₁ d' : σ} {m : Prog (Faulty σ) α} {f : α → Prog (Faulty σ) β} {n k : Nat} {a : α} {b : β}

theorem pure (a : α) : Takes I d (pure a) 0 a d where
  clear s here _ := by
    subst here
    rfl
  failed _ _ _ lt := absurd lt (Nat.not_lt_zero _)

theorem access (f : σ → α × σ) (inside : I d) : Takes I d (access f) 1 (f d).1 (f d).2 where
  clear s here clear := by
    have fine : s.fails s.accesses = none := clear 0 Nat.one_pos
    simp only [Faulty.access, EStateM.run, fine, after, here]
  failed s k here lt first := by
    obtain rfl : k = 0 := by omega
    obtain ⟨e, fails⟩ := first.2
    rw [Nat.add_zero] at fails
    refine ⟨e, d, inside, ?_⟩
    simp only [Faulty.access, EStateM.run, fails, after, here]

theorem bind (first : Takes I d m n a d₁) (next : Takes I d₁ (f a) k b d') : Takes I d (m >>= f) (n + k) b d' where
  clear s here clear := by
    have parts := (clear_add (d := d₁)).mp clear
    rw [Prog.run_bind_ok (first.clear s here parts.1), next.clear (s.after n d₁) rfl parts.2, after_after]
  failed s j here lt fails := by
    by_cases early : j < n
    · obtain ⟨e, mid, inside, run⟩ := first.failed s j here early fails
      exact ⟨e, mid, inside, Prog.run_bind_error run⟩
    · obtain ⟨i, rfl⟩ : ∃ i, j = n + i := ⟨j - n, by omega⟩
      obtain ⟨e, mid, inside, run⟩ := next.failed (s.after n d₁) i rfl (by omega) fails.shift
      refine ⟨e, mid, inside, ?_⟩
      have none := fails.1.mono (Nat.le_add_right n i)
      rw [Prog.run_bind_ok (first.clear s here none), run, after_after, Nat.add_assoc]

theorem congr {n' : Nat} {a' : α} {d'' : σ} (takes : Takes I d m n a d') (count : n' = n) (value : a' = a)
    (dev : d'' = d') : Takes I d m n' a' d'' := by
  subst count value dev
  exact takes

/-- A program that makes no other accesses than `m` and returns when `m` does. -/
theorem wrap {m' : Prog (Faulty σ) α} (takes : Takes I d m n a d')
    (ok : ∀ s s', m.run s = .ok a s' → m'.run s = .ok a s')
    (error : ∀ s s' e, m.run s = .error (.rc e) s' → ∃ e', m'.run s = .error (.rc e') s') : Takes I d m' n a d' where
  clear s here clear := ok _ _ (takes.clear s here clear)
  failed s k here lt first := by
    obtain ⟨e, mid, inside, run⟩ := takes.failed s k here lt first
    obtain ⟨e', run'⟩ := error _ _ _ run
    exact ⟨e', mid, inside, run'⟩

/-- As a cleanup whose outcome is dropped, the program returns whatever fails. -/
theorem attempt {s : Faulty σ} (takes : Takes I d m n a d') (here : s.dev = d) :
    ∃ r s', (Prog.attempt m).run s = .ok r s' ∧ (s.Clear n → s' = s.after n d') := by
  rcases clear_or_firstFails s n with clear | ⟨k, lt, first⟩
  · have run := takes.clear s here clear
    exact ⟨.ok a, s.after n d', Prog.attempt_ok run, fun _ => rfl⟩
  · obtain ⟨e, mid, _, run⟩ := takes.failed s k here lt first
    exact ⟨.error e, s.after (k + 1) mid, Prog.attempt_rc run, fun clear => absurd clear (first.not_clear lt)⟩

/-- What follows starts where the program is through, or it does not start. -/
theorem bind_run {s : Faulty σ} (takes : Takes I d m n a d') (here : s.dev = d) (f : α → Prog (Faulty σ) β) :
    (s.Clear n → (m >>= f).run s = (f a).run (s.after n d')) ∧ (¬ s.Clear n → ∃ e s', (m >>= f).run s = .error (.rc e) s') := by
  refine ⟨fun clear => Prog.run_bind_ok (takes.clear s here clear), fun fails => ?_⟩
  rcases clear_or_firstFails s n with clear | ⟨k, lt, first⟩
  · exact absurd clear fails
  · obtain ⟨e, mid, _, run⟩ := takes.failed s k here lt first
    exact ⟨e, _, Prog.run_bind_error run⟩

end Takes

/-- Accesses that change the device and return nothing, one after the other. -/
def each : List (σ → σ) → Prog (Faulty σ) Unit
  | [] => pure ()
  | f :: fs => do
    access fun d => ((), f d)
    each fs

section
variable {fs : List (σ → σ)} {s : Faulty σ} {k : Nat}

theorem access_first_fails {f : σ → α × σ} (fails : s.FirstFails 0) : ∃ e, (access f).run s = .error (.rc e) (s.after 1 s.dev) := by
  obtain ⟨e, mid, here, run⟩ := (Takes.access (I := (· = s.dev)) f rfl).failed s 0 rfl Nat.one_pos fails
  rw [here] at run
  exact ⟨e, run⟩

theorem each_clear (clear : s.Clear fs.length) :
    (each fs).run s = .ok () (s.after fs.length (fs.foldl (fun d f => f d) s.dev)) := by
  induction fs generalizing s with
  | nil => rfl
  | cons f fs ih =>
    rw [List.length_cons, Nat.add_comm] at clear
    have parts := (clear_add (d := f s.dev)).mp clear
    have first := (Takes.access (I := fun _ => True) (fun d => ((), f d)) trivial).clear s rfl parts.1
    rw [each, Prog.run_bind_ok first, ih parts.2, after_after, List.length_cons, Nat.add_comm 1]
    rfl

/-- The accesses before the one that fails have been made. -/
theorem each_failed (inside : k < fs.length) (fails : s.FirstFails k) :
    ∃ e, (each fs).run s = .error (.rc e) (s.after (k + 1) ((fs.take k).foldl (fun d f => f d) s.dev)) := by
  induction fs generalizing s k with
  | nil => exact absurd inside (Nat.not_lt_zero _)
  | cons f fs ih =>
    cases k with
    | zero =>
      obtain ⟨e, run⟩ := @access_first_fails σ Unit s (fun d => ((), f d)) fails
      exact ⟨e, Prog.run_bind_error run⟩
    | succ k =>
      have first := (Takes.access (I := fun _ => True) (fun d => ((), f d)) trivial).clear s rfl
        (fails.1.mono (by omega : 1 ≤ k + 1))
      rw [Nat.add_comm] at fails
      obtain ⟨e, run⟩ := ih (Nat.lt_of_succ_lt_succ inside) (fails.shift (d := f s.dev))
      refine ⟨e, ?_⟩
      rw [each, Prog.run_bind_ok first, run, after_after, Nat.add_comm 1]
      rfl

end

/-- An access succeeds if and only if its turn is not one that fails. -/
theorem access_ok_iff {f : σ → α × σ} {s : Faulty σ} : (∃ a s', (access f).run s = .ok a s') ↔ s.fails s.accesses = none := by
  cases turn : s.fails s.accesses with
  | none => simp [access, EStateM.run, turn]
  | some e => simp [access, EStateM.run, turn]

end Faulty
