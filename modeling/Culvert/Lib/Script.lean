import Culvert.Lib.Prog

/-! A peer that answers the requests of a program from a script, which fixes the outcome of each. -/

/-- The answer to each request by its number, and the requests made so far with their answers. -/
structure Scripted (ι α : Type) where
  answers : Nat → Except Errno α
  made : List (ι × Except Errno α)

namespace Scripted
variable {ι α β γ : Type}

def ask (i : ι) : Prog (Scripted ι α) α := fun s =>
  let s' := { s with made := s.made ++ [(i, s.answers s.made.length)] }
  match s.answers s.made.length with
  | .ok a => .ok a s'
  | .error e => .error (.rc e) s'

/-- The next `n` requests succeed. -/
def Answered (s : Scripted ι α) (n : Nat) : Prop := ∀ k < n, (s.answers (s.made.length + k)).isOk = true

/-- The requests `is` later. -/
def after (s : Scripted ι α) (is : List ι) : Scripted ι α where
  answers := s.answers
  made := s.made ++ is.mapIdx fun k i => (i, s.answers (s.made.length + k))

variable {s : Scripted ι α} {is js : List ι} {i : ι} {n m : Nat}

@[simp] theorem after_answers : (s.after is).answers = s.answers := rfl

@[simp] theorem after_length : (s.after is).made.length = s.made.length + is.length := by
  simp only [after, List.length_append, List.length_mapIdx]

@[simp] theorem after_nil : s.after [] = s := by
  simp only [after, List.mapIdx_nil, List.append_nil]

theorem after_append : (s.after is).after js = s.after (is ++ js) := by
  simp only [after, List.mapIdx_append, List.append_assoc, List.length_append, List.length_mapIdx, Nat.add_assoc,
    Nat.add_comm]

theorem answered_zero : s.Answered 0 := fun _ lt => absurd lt (Nat.not_lt_zero _)

theorem Answered.mono (answered : s.Answered n) (le : m ≤ n) : s.Answered m :=
  fun k lt => answered k (Nat.lt_of_lt_of_le lt le)

theorem answered_add : s.Answered (is.length + m) ↔ s.Answered is.length ∧ (s.after is).Answered m := by
  constructor
  · intro answered
    refine ⟨answered.mono (Nat.le_add_right _ m), fun k lt => ?_⟩
    rw [after_answers, after_length, Nat.add_assoc]
    exact answered (is.length + k) (by omega)
  · rintro ⟨first, second⟩ k lt
    by_cases early : k < is.length
    · exact first k early
    · have later := second (k - is.length) (by omega)
      rw [after_answers, after_length, Nat.add_assoc, Nat.add_sub_cancel' (by omega)] at later
      exact later

/-- Once the requests `is` have succeeded, so has each of them in the record. -/
theorem after_ok (answered : s.Answered is.length) :
    ∀ entry ∈ (s.after is).made, entry ∈ s.made ∨ entry.2.isOk = true := by
  intro entry mem
  rcases List.mem_append.mp mem with old | new
  · exact Or.inl old
  · obtain ⟨k, lt, rfl⟩ := List.mem_mapIdx.mp new
    exact Or.inr (answered k lt)

theorem after_not_ok (refused : ¬ s.Answered is.length) :
    ∃ entry ∈ (s.after is).made, entry.1 ∈ is ∧ entry.2.isOk = false := by
  simp only [Answered, not_forall] at refused
  obtain ⟨k, lt, failed⟩ := refused
  refine ⟨(is[k], s.answers (s.made.length + k)), ?_, List.getElem_mem lt, by simpa using failed⟩
  exact List.mem_append_right _ (List.mem_mapIdx.mpr ⟨k, lt, rfl⟩)

/-- The program makes the requests `is` and returns `b`; when one fails it stops, having made those up to there. -/
structure Asks (s : Scripted ι α) (m : Prog (Scripted ι α) β) (is : List ι) (b : β) : Prop where
  answered : s.Answered is.length → m.run s = .ok b (s.after is)
  refused : ¬ s.Answered is.length →
    ∃ e is', m.run s = .error (.rc e) (s.after is') ∧ is' <+: is ∧ ¬ s.Answered is'.length

namespace Asks
variable {m : Prog (Scripted ι α) β} {f : β → Prog (Scripted ι α) γ} {b : β} {c : γ} {a : α}

theorem pure (b : β) : Asks s (pure b) [] b where
  answered _ := by
    rw [after_nil]
    rfl
  refused blocked := absurd answered_zero blocked

theorem ask (here : ∀ a', s.answers s.made.length = .ok a' → a' = a) : Asks s (ask i) [i] a where
  answered answered := by
    have ok := answered 0 Nat.one_pos
    rw [Nat.add_zero] at ok
    cases answer : s.answers s.made.length with
    | error e =>
      rw [answer] at ok
      cases ok
    | ok a' =>
      obtain rfl := here a' answer
      simp only [Scripted.ask, EStateM.run, answer, after, List.mapIdx_singleton, Nat.add_zero]
  refused blocked := by
    cases answer : s.answers s.made.length with
    | ok a' =>
      refine absurd (fun k lt => ?_) blocked
      obtain rfl : k = 0 := by simpa using lt
      rw [Nat.add_zero, answer]
      rfl
    | error e =>
      refine ⟨e, [i], ?_, List.prefix_rfl, blocked⟩
      simp only [Scripted.ask, EStateM.run, answer, after, List.mapIdx_singleton, Nat.add_zero]

theorem bind (first : Asks s m is b) (next : Asks (s.after is) (f b) js c) : Asks s (m >>= f) (is ++ js) c where
  answered answered := by
    rw [List.length_append] at answered
    obtain ⟨early, late⟩ := answered_add.mp answered
    rw [Prog.run_bind_ok (first.answered early), next.answered late, after_append]
  refused blocked := by
    by_cases early : s.Answered is.length
    · have late : ¬ (s.after is).Answered js.length := by
        intro late
        rw [List.length_append] at blocked
        exact blocked (answered_add.mpr ⟨early, late⟩)
      obtain ⟨e, js', run, upTo, failed⟩ := next.refused late
      refine ⟨e, is ++ js', ?_, (List.prefix_append_right_inj is).mpr upTo, fun answered => ?_⟩
      · rw [Prog.run_bind_ok (first.answered early), run, after_append]
      · rw [List.length_append] at answered
        exact failed (answered_add.mp answered).2
    · obtain ⟨e, is', run, upTo, failed⟩ := first.refused early
      exact ⟨e, is', Prog.run_bind_error run, upTo.trans (List.prefix_append is js), failed⟩

/-- A single request is made whatever its answer. -/
theorem attempt (asks : Asks s m [i] b) : ∃ r, (Prog.attempt m).run s = .ok r (s.after [i]) ∧
    (s.Answered 1 → r = .ok b) ∧ (¬ s.Answered 1 → ∃ e, r = .error e) := by
  by_cases answered : s.Answered 1
  · exact ⟨.ok b, Prog.attempt_ok (asks.answered answered), fun _ => rfl, fun blocked => absurd answered blocked⟩
  · obtain ⟨e, is', run, upTo, failed⟩ := asks.refused answered
    have whole : is' = [i] := by
      rcases List.prefix_cons_iff.mp upTo with rfl | ⟨t, rfl, none⟩
      · exact absurd answered_zero failed
      · rw [List.prefix_nil.mp none]
    rw [whole] at run
    exact ⟨.error e, Prog.attempt_rc run, fun clear => absurd clear answered, fun _ => ⟨e, rfl⟩⟩

/-- With `rc |=` between them all requests are made. -/
theorem all {f : ι → Prog (Scripted ι α) Unit} (each : ∀ i (s : Scripted ι α), Asks s (f i) [i] ()) :
    Asks s (Prog.all (is.map f)) is () := by
  suffices outcome : ∃ r, (Prog.attempt (Prog.all (is.map f))).run s = .ok r (s.after is) ∧
      (s.Answered is.length → r = .ok ()) ∧ (¬ s.Answered is.length → ∃ e, r = .error e) by
    obtain ⟨r, run, ok, error⟩ := outcome
    constructor
    · intro answered
      rw [ok answered] at run
      exact Prog.attempt_ok_iff.mp run
    · intro refused
      obtain ⟨e, failed⟩ := error refused
      rw [failed] at run
      exact ⟨e, is, Prog.attempt_error_iff.mp run, List.prefix_rfl, refused⟩
  induction is generalizing s with
  | nil => exact ⟨.ok (), by rw [after_nil]; rfl, fun _ => rfl, fun blocked => absurd answered_zero blocked⟩
  | cons i is ih =>
    obtain ⟨r, run, ok, error⟩ := (each i s).attempt
    obtain ⟨r', run', ok', error'⟩ := ih (s := s.after [i])
    have both : s.Answered (i :: is).length ↔ s.Answered 1 ∧ (s.after [i]).Answered is.length := by
      rw [List.length_cons, Nat.add_comm]
      exact @answered_add _ _ s [i] is.length
    rw [after_append] at run'
    have pair := Prog.attempt_also run run'
    have whole (r : Except Errno (Unit × Unit)) (s' : Scripted ι α)
        (also : (Prog.attempt (Prog.also (f i) (Prog.all (is.map f)))).run s = .ok r s') :
        (Prog.attempt (Prog.all ((i :: is).map f))).run s = .ok (r.map fun _ => ()) s' := by
      rw [List.map_cons, Prog.all]
      cases r with
      | ok _ => exact Prog.attempt_ok (Prog.run_bind_ok (Prog.attempt_ok_iff.mp also))
      | error e => exact Prog.attempt_rc (Prog.run_bind_error (Prog.attempt_error_iff.mp also))
    refine ⟨_, whole _ _ pair, fun answered => ?_, fun blocked => ?_⟩
    · rw [ok (both.mp answered).1, ok' (both.mp answered).2]
      rfl
    · by_cases early : s.Answered 1
      · obtain ⟨e, failed⟩ := error' fun late => blocked (both.mpr ⟨early, late⟩)
        rw [ok early, failed]
        exact ⟨e, rfl⟩
      · obtain ⟨e, failed⟩ := error early
        rw [failed]
        cases r' with
        | ok _ => exact ⟨e, rfl⟩
        | error e' => exact ⟨e.or e', rfl⟩

/-- What a function does before the access that `goto out` leads to, the result of which is dropped. -/
theorem ensuring (asks : Asks s m is b) {cleanup : Prog (Scripted ι α) Unit}
    (last : ∀ s' : Scripted ι α, Asks s' cleanup [i] ()) :
    (s.Answered is.length → (Prog.ensuring m cleanup).run s = .ok b (s.after (is ++ [i]))) ∧
    (¬ s.Answered is.length → ∃ e is', (Prog.ensuring m cleanup).run s = .error (.rc e) (s.after (is' ++ [i])) ∧
      is' <+: is ∧ ¬ s.Answered is'.length) := by
  constructor
  · intro answered
    obtain ⟨r, run, _⟩ := (last (s.after is)).attempt
    rw [after_append] at run
    exact Prog.ensuring_ok_iff.mpr ⟨_, asks.answered answered, r, run⟩
  · intro blocked
    obtain ⟨e, is', run, upTo, failed⟩ := asks.refused blocked
    obtain ⟨r, run', _⟩ := (last (s.after is')).attempt
    rw [after_append] at run'
    exact ⟨e, is', Prog.ensuring_error_iff.mpr ⟨_, run, r, run'⟩, upTo, failed⟩

end Asks

end Scripted
