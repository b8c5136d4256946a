import Culvert.Lib.Cursor
import Culvert.Lib.Frame

namespace Culvert

/-- The two assignments of `mmio_memcpy`, of a byte and of a 32-bit word, from the address `src` to
the address `dst`. -/
structure Copier (σ : Type) where
  byte : Nat → Nat → Prog σ Unit
  word : Nat → Nat → Prog σ Unit

section
variable {σ : Type} (c : Copier σ)

def copyBytes (src dst : Nat) : Nat → Prog σ Unit
  | 0 => pure ()
  | len + 1 => do
    c.byte src dst
    copyBytes (src + 1) (dst + 1) len

def copyWords (src dst : Nat) : Nat → Prog σ Unit
  | len + 4 => do
    c.word src dst
    copyWords (src + 4) (dst + 4) len
  | len => copyBytes c src dst len

/-- Bytes up to a word boundary, then words, then the bytes left. -/
def copyAligned (src dst : Nat) : Nat → Prog σ Unit
  | 0 => copyWords c src dst 0
  | len + 1 =>
    if src % 4 ≠ 0 ∧ dst % 4 ≠ 0 then do
      c.byte src dst
      copyAligned (src + 1) (dst + 1) len
    else copyWords c src dst (len + 1)

def mmioMemcpy (dst src len : Nat) : Prog σ Unit :=
  if src % 4 ≠ dst % 4 then copyBytes c src dst len else copyAligned c src dst len

end

section
variable {σ : Type} {c : Copier σ} {Q : Nat → σ → Prop} {F : σ → Prop} {lim src dst len : Nat}

theorem copyBytes_advances (byte : ∀ k < len, Prog.Advances Q F lim k 1 (c.byte (src + k) (dst + k))) :
    ∀ n k, k + n ≤ len → Prog.Advances Q F lim k n (copyBytes c (src + k) (dst + k) n) := by
  intro n
  induction n with
  | zero =>
    intro k _
    exact Prog.Advances.pure ()
  | succ n ih =>
    intro k fits
    exact .bind (Nat.add_comm 1 n) (byte k (by omega)) fun _ => ih (k + 1) (by omega)

theorem copyWords_advances (byte : ∀ k < len, Prog.Advances Q F lim k 1 (c.byte (src + k) (dst + k)))
    (word : ∀ k, k + 4 ≤ len → (src + k) % 4 = 0 → (dst + k) % 4 = 0 →
      Prog.Advances Q F lim k 4 (c.word (src + k) (dst + k))) :
    ∀ n k, k + n ≤ len → (3 < n → (src + k) % 4 = 0 ∧ (dst + k) % 4 = 0) →
      Prog.Advances Q F lim k n (copyWords c (src + k) (dst + k) n) := by
  intro n
  induction n using Nat.strongRecOn with
  | ind n ih =>
    intro k fits aligned
    match n with
    | 0 | 1 | 2 | 3 => exact copyBytes_advances byte _ k fits
    | n + 4 =>
      obtain ⟨srcAligned, dstAligned⟩ := aligned (by omega)
      refine .bind (Nat.add_comm 4 n) (word k (by omega) srcAligned dstAligned) fun _ => ?_
      exact ih n (by omega) (k + 4) (by omega) fun _ => ⟨by omega, by omega⟩

/-- `mmio_memcpy` moves on by `len` when each of its assignments moves on by its width. The words it
moves are aligned on both sides. -/
theorem mmioMemcpy_advances (byte : ∀ k < len, Prog.Advances Q F lim k 1 (c.byte (src + k) (dst + k)))
    (word : ∀ k, k + 4 ≤ len → (src + k) % 4 = 0 → (dst + k) % 4 = 0 →
      Prog.Advances Q F lim k 4 (c.word (src + k) (dst + k))) :
    Prog.Advances Q F lim 0 len (mmioMemcpy c dst src len) := by
  have aligned (same : src % 4 = dst % 4) : ∀ n k, k + n ≤ len →
      Prog.Advances Q F lim k n (copyAligned c (src + k) (dst + k) n) := by
    intro n
    induction n with
    | zero =>
      intro k fits
      exact copyWords_advances byte word 0 k fits fun big => absurd big (by omega)
    | succ n ih =>
      intro k fits
      rw [copyAligned]
      split
      · exact .bind (Nat.add_comm 1 n) (byte k (by omega)) fun _ => ih (k + 1) (by omega)
      · exact copyWords_advances byte word (n + 1) k fits fun _ => by omega
  rw [mmioMemcpy]
  split
  · exact copyBytes_advances byte len 0 (by omega)
  · exact aligned (by omega) len 0 (by omega)

end

section
variable {σ : Type} {c : Copier σ} {R : σ → σ → Prop} [IsPreorder σ R] {src dst : Nat}

open Prog

theorem copyBytes_keeps (byte : ∀ k, Keeps R (c.byte (src + k) (dst + k))) :
    ∀ n k, Keeps R (copyBytes c (src + k) (dst + k) n) := by
  intro n
  induction n with
  | zero => exact fun _ => keeps_pure ()
  | succ n ih => exact fun k => (byte k).bind fun _ => ih (k + 1)

theorem copyWords_keeps (byte : ∀ k, Keeps R (c.byte (src + k) (dst + k)))
    (word : ∀ k, Keeps R (c.word (src + k) (dst + k))) : ∀ n k, Keeps R (copyWords c (src + k) (dst + k) n) := by
  intro n
  induction n using Nat.strongRecOn with
  | ind n ih =>
    intro k
    match n with
    | 0 | 1 | 2 | 3 => exact copyBytes_keeps byte _ k
    | n + 4 => exact (word k).bind fun _ => ih n (by omega) (k + 4)

/-- `mmio_memcpy` keeps what each of its assignments keeps. -/
theorem mmioMemcpy_keeps (byte : ∀ k, Keeps R (c.byte (src + k) (dst + k)))
    (word : ∀ k, Keeps R (c.word (src + k) (dst + k))) (len : Nat) : Keeps R (mmioMemcpy c dst src len) := by
  have aligned : ∀ n k, Keeps R (copyAligned c (src + k) (dst + k) n) := by
    intro n
    induction n with
    | zero => exact copyWords_keeps byte word 0
    | succ n ih =>
      intro k
      rw [copyAligned]
      exact Keeps.ite ((byte k).bind fun _ => ih (k + 1)) (copyWords_keeps byte word (n + 1) k)
  rw [mmioMemcpy]
  exact Keeps.ite (copyBytes_keeps byte len 0) (aligned len 0)

end

end Culvert
