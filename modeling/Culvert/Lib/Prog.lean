import Mathlib

/-- The number `num` of a failed call's return value `-num`. -/
structure Errno where
  num : Nat
  pos : 0 < num
  bound : num < 256
  deriving DecidableEq, Repr

namespace Errno

/-- The value a function returns for this error. -/
def code (e : Errno) : Int := -(e.num : Int)

theorem code_neg (e : Errno) : e.code < 0 := by
  have := e.pos
  simp only [code]
  omega

/-- `-a | -b` in two's complement, the value `rc |= f()` leaves behind. -/
def or (a b : Errno) : Errno where
  num := ((a.num - 1) &&& (b.num - 1)) + 1
  pos := Nat.succ_pos _
  bound := by
    have small : (a.num - 1) &&& (b.num - 1) ≤ a.num - 1 := Nat.and_le_left
    have := a.bound
    have := a.pos
    omega

end Errno

/-- Why a program stops without a value: it returns an error code, it touches something that is
not there, or the iterations it was given run out while it is still looping. -/
inductive Stop where
  | rc (e : Errno)
  | fault
  | hang
  deriving DecidableEq, Repr

/-- A program over the state `σ`. What it did to the state before stopping is kept. -/
abbrev Prog (σ α : Type) := EStateM Stop σ α

namespace EStateM.Result
variable {ε σ α : Type}

def state : EStateM.Result ε σ α → σ
  | .ok _ s => s
  | .error _ s => s

@[simp] theorem state_ok (a : α) (s : σ) : (EStateM.Result.ok a s : EStateM.Result ε σ α).state = s := rfl
@[simp] theorem state_error (e : ε) (s : σ) : (EStateM.Result.error e s : EStateM.Result ε σ α).state = s := rfl

end EStateM.Result

namespace Prog
variable {σ τ α β : Type}

def fail (e : Errno) : Prog σ α := throw (.rc e)

def ofExcept : Except Errno α → Prog σ α
  | .ok a => pure a
  | .error e => fail e

/-- Run `m` and hand its error code to the caller as a value. -/
def attempt (m : Prog σ α) : Prog σ (Except Errno α) := fun s =>
  match m s with
  | .ok a s' => .ok (.ok a) s'
  | .error (.rc e) s' => .ok (.error e) s'
  | .error .fault s' => .error .fault s'
  | .error .hang s' => .error .hang s'

/-- `m` followed by `cleanup` on every path that returns, as `goto done` does. The value or error
code is that of `m`; an error code of `cleanup` is dropped. -/
def ensuring (m : Prog σ α) (cleanup : Prog σ Unit) : Prog σ α := do
  let r ← attempt m
  let _ ← attempt cleanup
  match r with
  | .ok a => pure a
  | .error e => fail e

/-- `rc = m(); rc |= n();`: both are run, whatever `m` returns. -/
def also (m : Prog σ α) (n : Prog σ β) : Prog σ (α × β) := do
  let r ← attempt m
  let r' ← attempt n
  match r, r' with
  | .ok a, .ok b => pure (a, b)
  | .error e, .ok _ => fail e
  | .ok _, .error f => fail f
  | .error e, .error f => fail (e.or f)

/-- The value of `rc` after `rc = m(); rc |= n();`. -/
def joined : Except Errno α → Except Errno β → Except Errno (α × β)
  | .ok a, .ok b => .ok (a, b)
  | .error e, .ok _ => .error e
  | .ok _, .error f => .error f
  | .error e, .error f => .error (e.or f)

def all : List (Prog σ Unit) → Prog σ Unit
  | [] => pure ()
  | m :: ms => do
    let _ ← also m (all ms)
    pure ()

/-- Repeat `body` until it yields a result, at most `fuel` times. -/
def loop (body : α → Prog σ (α ⊕ β)) : Nat → α → Prog σ β
  | 0, _ => throw .hang
  | fuel + 1, a => do
    match ← body a with
    | .inl a' => loop body fuel a'
    | .inr b => pure b

/-! What a run that returned went through. -/

section Inversion
variable {m : Prog σ α} {f : α → Prog σ β} {s s' : σ} {a : α} {b : β} {e : Stop}

theorem bind_ok_iff : (m >>= f).run s = .ok b s' ↔ ∃ a s₁, m.run s = .ok a s₁ ∧ (f a).run s₁ = .ok b s' := by
  rw [EStateM.run_bind]
  cases m.run s <;> simp

theorem bind_error_iff : (m >>= f).run s = .error e s' ↔
    m.run s = .error e s' ∨ ∃ a s₁, m.run s = .ok a s₁ ∧ (f a).run s₁ = .error e s' := by
  rw [EStateM.run_bind]
  cases m.run s <;> simp

theorem run_bind_ok (first : m.run s = .ok a s') : (m >>= f).run s = (f a).run s' := by
  rw [EStateM.run_bind, first]

theorem run_bind_error (first : m.run s = .error e s') : (m >>= f).run s = .error e s' := by
  rw [EStateM.run_bind, first]

/-- A loop each of whose turns goes on, or waits for good. -/
theorem loop_stuck {body : α → Prog σ (α ⊕ β)} (I : α → σ → Prop) (turn : ∀ a s, I a s →
      (∃ s', (body a).run s = .error .hang s') ∨ ∃ a' s', (body a).run s = .ok (.inl a') s' ∧ I a' s')
    (fuel : Nat) (here : I a s) : ∃ s', (loop body fuel a).run s = .error .hang s' := by
  induction fuel generalizing a s with
  | zero => exact ⟨s, rfl⟩
  | succ fuel ih =>
    rw [loop]
    rcases turn a s here with ⟨s', run⟩ | ⟨a', s', run, next⟩
    · exact ⟨s', run_bind_error run⟩
    · rw [run_bind_ok run]
      exact ih next

@[simp] theorem run_fail (e : Errno) (s : σ) : (fail e : Prog σ α).run s = .error (.rc e) s := rfl

theorem run_attempt (m : Prog σ α) (s : σ) : (attempt m).run s =
    match m.run s with
    | .ok a s' => .ok (.ok a) s'
    | .error (.rc e) s' => .ok (.error e) s'
    | .error .fault s' => .error .fault s'
    | .error .hang s' => .error .hang s' := rfl

@[simp] theorem attempt_state (m : Prog σ α) (s : σ) : ((attempt m).run s).state = (m.run s).state := by
  rw [run_attempt]
  rcases m.run s with _ | _ | _ | _ <;> rfl

theorem attempt_ok (run : m.run s = .ok a s') : (attempt m).run s = .ok (.ok a) s' := by
  rw [run_attempt, run]

theorem attempt_rc {e : Errno} (run : m.run s = .error (.rc e) s') : (attempt m).run s = .ok (.error e) s' := by
  rw [run_attempt, run]

theorem attempt_ok_iff : (attempt m).run s = .ok (.ok a) s' ↔ m.run s = .ok a s' := by
  rw [run_attempt]
  rcases m.run s with _ | _ | _ | _ <;> simp

theorem attempt_error_iff {e : Errno} : (attempt m).run s = .ok (.error e) s' ↔ m.run s = .error (.rc e) s' := by
  rw [run_attempt]
  rcases m.run s with _ | _ | _ | _ <;> simp

theorem attempt_ne_rc {e : Errno} : (attempt m).run s ≠ .error (.rc e) s' := by
  rw [run_attempt]
  rcases m.run s with _ | _ | _ | _ <;> simp

theorem ensuring_ok_iff {cleanup : Prog σ Unit} : (ensuring m cleanup).run s = .ok a s' ↔
    ∃ s₁, m.run s = .ok a s₁ ∧ ∃ r, (attempt cleanup).run s₁ = .ok r s' := by
  simp only [ensuring, bind_ok_iff]
  constructor
  · rintro ⟨r, s₁, first, r', s₂, second, last⟩
    cases r with
    | ok a' =>
      obtain ⟨rfl, rfl⟩ : a' = a ∧ s₂ = s' := by simpa using last
      exact ⟨s₁, attempt_ok_iff.mp first, r', second⟩
    | error e => simp at last
  · rintro ⟨s₁, first, r, second⟩
    exact ⟨.ok a, s₁, attempt_ok first, r, s', second, rfl⟩

theorem ensuring_error_iff {cleanup : Prog σ Unit} {e : Errno} : (ensuring m cleanup).run s = .error (.rc e) s' ↔
    ∃ s₁, m.run s = .error (.rc e) s₁ ∧ ∃ r, (attempt cleanup).run s₁ = .ok r s' := by
  simp only [ensuring, bind_error_iff]
  constructor
  · rintro (never | ⟨r, s₁, first, never | ⟨r', s₂, second, last⟩⟩)
    · exact absurd never attempt_ne_rc
    · exact absurd never attempt_ne_rc
    · cases r with
      | ok a => cases last
      | error e' =>
        obtain ⟨rfl, rfl⟩ : e' = e ∧ s₂ = s' := by simpa using last
        exact ⟨s₁, attempt_error_iff.mp first, r', second⟩
  · rintro ⟨s₁, first, r, second⟩
    exact Or.inr ⟨.error e, s₁, attempt_rc first, Or.inr ⟨r, s', second, rfl⟩⟩

theorem also_ok_iff {n : Prog σ β} : (also m n).run s = .ok (a, b) s' ↔
    ∃ s₁, m.run s = .ok a s₁ ∧ n.run s₁ = .ok b s' := by
  simp only [also, bind_ok_iff]
  constructor
  · rintro ⟨r, s₁, first, r', s₂, second, last⟩
    cases r with
    | error e => cases r' <;> simp at last
    | ok a' =>
      cases r' with
      | error e => simp at last
      | ok b' =>
        obtain ⟨⟨rfl, rfl⟩, rfl⟩ : (a' = a ∧ b' = b) ∧ s₂ = s' := by simpa using last
        exact ⟨s₁, attempt_ok_iff.mp first, attempt_ok_iff.mp second⟩
  · rintro ⟨s₁, first, second⟩
    exact ⟨.ok a, s₁, attempt_ok first, .ok b, s', attempt_ok second, rfl⟩

theorem attempt_also {n : Prog σ β} {r : Except Errno α} {r' : Except Errno β} {s₁ : σ}
    (first : (attempt m).run s = .ok r s₁) (second : (attempt n).run s₁ = .ok r' s') :
    (attempt (also m n)).run s = .ok (joined r r') s' := by
  have run : (also m n).run s = (ofExcept (joined r r')).run s' := by
    rw [also, run_bind_ok first, run_bind_ok second]
    cases r <;> cases r' <;> rfl
  cases outcome : joined r r' with
  | ok both =>
    rw [outcome] at run
    exact attempt_ok run
  | error e =>
    rw [outcome] at run
    exact attempt_rc run

theorem all_cons_ok_iff {m : Prog σ Unit} {ms : List (Prog σ Unit)} : (all (m :: ms)).run s = .ok () s' ↔
    ∃ s₁, m.run s = .ok () s₁ ∧ (all ms).run s₁ = .ok () s' := by
  simp only [all, bind_ok_iff]
  constructor
  · rintro ⟨⟨_, _⟩, s₁, both, last⟩
    obtain rfl : s₁ = s' := by simpa using last
    exact also_ok_iff.mp both
  · intro both
    exact ⟨((), ()), s', also_ok_iff.mpr both, rfl⟩

end Inversion

/-- From every state in `P` the program returns a value, in a state in `P`. -/
def Succeeds (P : σ → Prop) (m : Prog σ α) : Prop := ∀ s, P s → ∃ a s', m.run s = .ok a s' ∧ P s'

section Succeeds
variable {P : σ → Prop} {m : Prog σ α} {n : Prog σ β} {f : α → Prog σ β}

theorem Succeeds.pure (a : α) : Succeeds P (pure a : Prog σ α) := fun s ok => ⟨a, s, rfl, ok⟩

theorem Succeeds.bind (first : Succeeds P m) (next : ∀ a, Succeeds P (f a)) : Succeeds P (m >>= f) := by
  intro s ok
  obtain ⟨a, s₁, run, ok₁⟩ := first s ok
  obtain ⟨b, s₂, run₂, ok₂⟩ := next a s₁ ok₁
  exact ⟨b, s₂, bind_ok_iff.mpr ⟨a, s₁, run, run₂⟩, ok₂⟩

theorem Succeeds.ensuring {cleanup : Prog σ Unit} (first : Succeeds P m) (next : Succeeds P cleanup) :
    Succeeds P (ensuring m cleanup) := by
  intro s ok
  obtain ⟨a, s₁, run, ok₁⟩ := first s ok
  obtain ⟨_, s₂, run₂, ok₂⟩ := next s₁ ok₁
  exact ⟨a, s₂, ensuring_ok_iff.mpr ⟨s₁, run, _, attempt_ok run₂⟩, ok₂⟩

theorem Succeeds.also (first : Succeeds P m) (next : Succeeds P n) : Succeeds P (also m n) := by
  intro s ok
  obtain ⟨a, s₁, run, ok₁⟩ := first s ok
  obtain ⟨b, s₂, run₂, ok₂⟩ := next s₁ ok₁
  exact ⟨(a, b), s₂, also_ok_iff.mpr ⟨s₁, run, run₂⟩, ok₂⟩

theorem Succeeds.all {ms : List (Prog σ Unit)} (each : ∀ m ∈ ms, Succeeds P m) : Succeeds P (all ms) := by
  induction ms with
  | nil => exact Succeeds.pure ()
  | cons m ms ih =>
    have rest := ih fun m' mem => each m' (List.mem_cons_of_mem m mem)
    exact ((each m List.mem_cons_self).also rest).bind fun _ => .pure ()

end Succeeds

end Prog

/-- A device whose accesses fail where the oracle says so. The oracle is asked once for each
access, by its number. -/
structure Faulty (σ : Type) where
  dev : σ
  fails : Nat → Option Errno
  accesses : Nat

namespace Faulty
variable {σ α : Type}

/-- One access. A failing one leaves the device as it is. -/
def access (f : σ → α × σ) : Prog (Faulty σ) α := fun s =>
  match s.fails s.accesses with
  | some e => .error (.rc e) { s with accesses := s.accesses + 1 }
  | none => .ok (f s.dev).1 { s with dev := (f s.dev).2, accesses := s.accesses + 1 }

theorem access_ok {f : σ → α × σ} {s s' : Faulty σ} {a : α} (run : (access f).run s = .ok a s') :
    a = (f s.dev).1 ∧ s'.dev = (f s.dev).2 := by
  simp only [access, EStateM.run] at run
  split at run
  · cases run
  · cases run
    exact ⟨rfl, rfl⟩

theorem access_error {f : σ → α × σ} {s s' : Faulty σ} {e : Stop} (run : (access f).run s = .error e s') :
    s'.dev = s.dev := by
  simp only [access, EStateM.run] at run
  split at run
  · cases run
    rfl
  · cases run

theorem access_dev (f : σ → α × σ) (s : Faulty σ) :
    ((access f).run s).state.dev = s.dev ∨ ((access f).run s).state.dev = (f s.dev).2 := by
  simp only [access, EStateM.run]
  split
  · exact Or.inl rfl
  · exact Or.inr rfl

/-- No access will fail. -/
def Sound (s : Faulty σ) : Prop := ∀ n, s.fails n = none

theorem access_succeeds (f : σ → α × σ) : Prog.Succeeds Sound (access f) := by
  intro s sound
  refine ⟨(f s.dev).1, { s with dev := (f s.dev).2, accesses := s.accesses + 1 }, ?_, sound⟩
  simp only [access, EStateM.run, sound s.accesses]

end Faulty
