import Culvert.Lib.Hoare
import Culvert.Lib.Takes

/-- Something, and the states that it went through, latest first. -/
structure Watched (σ : Type) where
  now : σ
  past : List σ

namespace Watched
variable {σ : Type}

def push (w : Watched σ) (now : σ) : Watched σ := ⟨now, now :: w.past⟩

/-- All of it is in `P`, and so is what it is now. -/
def Through (P : σ → Prop) (w : Watched σ) : Prop := P w.now ∧ ∀ s ∈ w.past, P s

theorem Through.start {P : σ → Prop} {now : σ} (here : P now) : Through P ⟨now, []⟩ := ⟨here, fun _ mem => nomatch mem⟩

theorem Through.push {P : σ → Prop} {w : Watched σ} (through : Through P w) {now : σ} (next : P now) :
    Through P (w.push now) := by
  refine ⟨next, fun s mem => ?_⟩
  rcases List.mem_cons.mp mem with rfl | mem
  · exact next
  · exact through.2 s mem

end Watched

namespace Faulty
variable {σ α β : Type}

/-- From the device `d` the program ends in `Q` when it returns a value, and in `P` when it stops
without one, whatever accesses fail. -/
def Passes (P : σ → Prop) (d : σ) (m : Prog (Faulty σ) α) (Q : α → σ → Prop) : Prop :=
  Prog.Triple (fun s => s.dev = d) m (fun a s => Q a s.dev) (fun _ s => P s.dev)

namespace Passes
variable {P : σ → Prop} {d : σ} {m : Prog (Faulty σ) α} {Q Q' : α → σ → Prop} {R : β → σ → Prop}
variable {f : α → Prog (Faulty σ) β} {s s' : Faulty σ} {a : α}

theorem pure (post : Q a d) : Passes P d (pure a) Q := Prog.Triple.pure fun s here => by
  rw [here]
  exact post

theorem fail {e : Errno} (safe : P d) : Passes P d (Prog.fail e : Prog (Faulty σ) α) Q :=
  Prog.Triple.fail fun s here => by
    rw [here]
    exact safe

theorem bind (first : Passes P d m Q) (next : ∀ a d', Q a d' → Passes P d' (f a) R) : Passes P d (m >>= f) R :=
  Prog.Triple.bind first fun a s post => next a s.dev post s rfl

theorem ite {c : Prop} [Decidable c] {m' : Prog (Faulty σ) α} (yes : c → Passes P d m Q) (no : ¬ c → Passes P d m' Q) :
    Passes P d (if c then m else m') Q := by
  by_cases h : c
  · rw [if_pos h]
    exact yes h
  · rw [if_neg h]
    exact no h

theorem conseq (passes : Passes P d m Q) (imp : ∀ a d', Q a d' → Q' a d') : Passes P d m Q' :=
  Prog.Triple.conseq passes (fun _ here => here) (fun a s => imp a s.dev) fun _ _ safe => safe

theorem mono {P' : σ → Prop} (passes : Passes P d m Q) (imp : ∀ d, P d → P' d) : Passes P' d m Q :=
  Prog.Triple.conseq passes (fun _ here => here) (fun _ _ post => post) fun _ s => imp s.dev

/-- A failing access changes nothing. -/
theorem access {look : σ → α × σ} (safe : P d) (post : Q (look d).1 (look d).2) : Passes P d (access look) Q := by
  intro s here
  refine ⟨fun a s' run => ?_, fun e s' run => ?_⟩
  · obtain ⟨value, dev⟩ := access_ok run
    rw [here] at value dev
    rw [value, dev]
    exact post
  · show P s'.dev
    rw [access_error run, here]
    exact safe

theorem attempt (passes : Passes P d m Q) :
    Passes P d (Prog.attempt m) fun r d' => match r with | .ok a => Q a d' | .error _ => P d' :=
  Prog.Triple.conseq (Prog.Triple.attempt passes) (fun _ here => here) (fun r s post => by
    cases r with
    | ok a => exact post
    | error e => exact post) fun _ _ safe => safe

theorem ok (passes : Passes P s.dev m Q) (run : m.run s = .ok a s') : Q a s'.dev := (passes s rfl).1 a s' run

/-- Where the run ends, if what it returns with is in `P` as well. -/
theorem state (passes : Passes P s.dev m fun _ => P) : P (m.run s).state.dev :=
  by
  have triple : Prog.Triple (fun t => t.dev = s.dev) m (fun _ t => P t.dev) fun _ t => P t.dev := passes
  exact Prog.Triple.state (I := fun t : Faulty σ => P t.dev) triple rfl

end Passes

end Faulty

namespace Faulty
variable {σ α : Type}

/-- The access with the number `n`, counted from here, fails. -/
def FailsAt (s : Faulty σ) (n : Nat) : Prop := (s.fails (s.accesses + n)).isSome

instance (s : Faulty σ) (n : Nat) : Decidable (s.FailsAt n) := inferInstanceAs (Decidable (_ = true))

section
variable {s : Faulty σ} {f : σ → α × σ} {d : σ} {m n : Nat}

@[simp] theorem after_failsAt : (s.after m d).FailsAt n ↔ s.FailsAt (m + n) := by
  unfold FailsAt after
  rw [Nat.add_assoc]

theorem access_passed (passed : ¬ s.FailsAt 0) : (access f).run s = .ok (f s.dev).1 (s.after 1 (f s.dev).2) := by
  cases outcome : s.fails s.accesses with
  | none =>
    simp only [access, EStateM.run, outcome]
    rfl
  | some e =>
    refine absurd ?_ passed
    unfold FailsAt
    rw [Nat.add_zero, outcome]
    rfl

theorem access_failed (failed : s.FailsAt 0) : ∃ e, (access f).run s = .error (.rc e) (s.after 1 s.dev) := by
  unfold FailsAt at failed
  rw [Nat.add_zero] at failed
  obtain ⟨e, outcome⟩ := Option.isSome_iff_exists.mp failed
  refine ⟨e, ?_⟩
  simp only [access, EStateM.run, outcome]
  rfl

end

end Faulty
