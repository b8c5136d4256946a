import Culvert.Lib.FlatMemory
import Culvert.Lib.Hoare

namespace Culvert

def eperm : Errno := ⟨1, by decide, by decide⟩
def eio : Errno := ⟨5, by decide, by decide⟩
def enomem : Errno := ⟨12, by decide, by decide⟩
def einval : Errno := ⟨22, by decide, by decide⟩
def erange : Errno := ⟨34, by decide, by decide⟩
def enotsup : Errno := ⟨95, by decide, by decide⟩
def etimedout : Errno := ⟨110, by decide, by decide⟩
def eremoteio : Errno := ⟨121, by decide, by decide⟩

/-- `size_t` and `off_t` of a 64-bit host. -/
abbrev Size := BitVec 64

/-- `SSIZE_MAX` of a 64-bit host. -/
def ssizeMax : Nat := 2 ^ 63 - 1

theorem and_three_eq_zero_iff (phys : Word) : phys &&& 3 = 0 ↔ phys.toNat % 4 = 0 := by
  have low : (phys &&& 3).toNat = phys.toNat % 4 := Nat.and_two_pow_sub_one_eq_mod phys.toNat 2
  rw [← low, ← BitVec.toNat_inj]
  rfl

section
variable {σ α : Type}

/-- Any error of `m` is returned as -1, as the `read` and `write` of `struct ahb_ops` do. -/
def orMinusOne (m : Prog σ α) : Prog σ α := do
  match ← Prog.attempt m with
  | .ok a => pure a
  | .error _ => Prog.fail eperm

theorem orMinusOne_ok {m : Prog σ α} {s s' : σ} {a : α} : (orMinusOne m).run s = .ok a s' ↔ m.run s = .ok a s' := by
  rw [orMinusOne, Prog.bind_ok_iff]
  constructor
  · rintro ⟨r, s₁, first, last⟩
    cases r with
    | error e => cases last
    | ok a' =>
      cases last
      exact Prog.attempt_ok_iff.mp first
  · intro run
    exact ⟨.ok a, s', Prog.attempt_ok run, rfl⟩

theorem orMinusOne_rc {m : Prog σ α} {s s' : σ} {e : Errno} (run : m.run s = .error (.rc e) s') :
    (orMinusOne m).run s = .error (.rc eperm) s' := by
  rw [orMinusOne, Prog.run_bind_ok (Prog.attempt_rc run)]
  rfl

theorem orMinusOne_triple {P I : σ → Prop} {m : Prog σ α} {Q : α → σ → Prop}
    (triple : Prog.Triple P m Q fun _ => I) : Prog.Triple P (orMinusOne m) Q fun _ => I := by
  refine triple.attempt.bind fun r => ?_
  cases r with
  | ok a => exact Prog.Triple.pure fun _ post => post
  | error e => exact Prog.Triple.fail fun _ post => post

theorem orMinusOne_keeps {R : σ → σ → Prop} [IsPreorder σ R] {m : Prog σ α} (kept : Prog.Keeps R m) :
    Prog.Keeps R (orMinusOne m) := by
  refine kept.attempt.bind fun r => ?_
  cases r with
  | ok a => exact Prog.keeps_pure a
  | error e => exact Prog.keeps_fail eperm

end

end Culvert
