import Culvert.Ahb
import Culvert.Lib.Fd

namespace Culvert

/-- The `read` and `write` of `struct ahb_ops`. A read gives the bytes it returns the number of. -/
structure AhbOps (σ : Type) where
  read : Word → Nat → Prog σ (List Byte)
  write : Word → List Byte → Prog σ Unit

/-- A bridge, the file descriptor that is siphoned to or from, and whether there is memory for the chunk. -/
structure Siphon (σ : Type) where
  ahb : σ
  fd : Fd
  memory : Bool

namespace Siphon
variable {σ : Type}

def onAhb {α : Type} (m : Prog σ α) : Prog (Siphon σ) α :=
  Prog.zoom (fun s => s.ahb) (fun s ahb => { s with ahb := ahb }) m

def onFd {α : Type} (m : Prog Fd α) : Prog (Siphon σ) α :=
  Prog.zoom (fun s => s.fd) (fun s fd => { s with fd := fd }) m

theorem onAhb_ok {α : Type} {m : Prog σ α} {a : α} {s : Siphon σ} {ahb : σ} (run : m.run s.ahb = .ok a ahb) :
    (onAhb m).run s = .ok a { s with ahb := ahb } := Prog.run_zoom_ok run

theorem onFd_ok {α : Type} {m : Prog Fd α} {a : α} {s : Siphon σ} {fd : Fd} (run : m.run s.fd = .ok a fd) :
    (onFd m).run s = .ok a { s with fd := fd } := Prog.run_zoom_ok run

end Siphon

def ahbChunk : Nat := 2 ^ 20

/-- How much is asked for at once, as `size_t`. -/
def siphonCount (len : Int) : Nat :=
  (BitVec.ofInt 64 (if len > ahbChunk ∨ len = -1 then (ahbChunk : Int) else len)).toNat

/-- What is left to move once `n` bytes were. -/
def siphonLeft (len : Int) (n : Nat) : Int := if len > 0 then len - n else len

section
variable {σ : Type} (ops : AhbOps σ)

def orEio {α : Type} (m : Prog (Siphon σ) α) : Prog (Siphon σ) α := do
  match ← Prog.attempt m with
  | .ok a => pure a
  | .error _ => Prog.fail eio

def siphonMalloc (e : Errno) : Prog (Siphon σ) Unit := do
  unless (← get).memory do Prog.fail e

/-- One turn of the loop in `ahb_siphon_out`. -/
def siphonOutTurn (fuel : Nat) : Word × Int → Prog (Siphon σ) ((Word × Int) ⊕ Unit)
  | (phys, len) => do
    let chunk ← orEio (Siphon.onAhb (ops.read phys (siphonCount len)))
    Siphon.onFd (Fd.writeAll fuel chunk)
    let left := siphonLeft len chunk.length
    if left = 0 then return .inr ()
    return .inl (phys + BitVec.ofNat 32 chunk.length, left)

def ahbSiphonOut (fuel : Nat) (phys : Word) (len : Int) : Prog (Siphon σ) Unit := do
  if len = 0 then return
  siphonMalloc enomem
  Prog.loop (siphonOutTurn ops fuel) fuel (phys, len)

/-- One turn of the loop in `ahb_siphon_in`. -/
def siphonInTurn : Word × Int → Prog (Siphon σ) ((Word × Int) ⊕ Unit)
  | (phys, len) => do
    let chunk ← Siphon.onFd (Fd.read (siphonCount len))
    if chunk = [] then return .inr ()
    orEio (Siphon.onAhb (ops.write phys chunk))
    return .inl (phys + BitVec.ofNat 32 chunk.length, siphonLeft len chunk.length)

def ahbSiphonIn (fuel : Nat) (phys : Word) (len : Int) : Prog (Siphon σ) Unit := do
  siphonMalloc eperm
  Prog.loop (siphonInTurn ops) fuel (phys, len)

end

/-- A bridge to the flat memory that `mem` makes of its state. A read may stop short, a write does not. -/
structure FlatAhb {σ : Type} (mem : σ → Mem) (ops : AhbOps σ) : Prop where
  read : ∀ s (phys : Word) n, 0 < n → phys.toNat + n ≤ 2 ^ 32 → ∃ k s', 0 < k ∧ k ≤ n ∧
    (ops.read phys n).run s = .ok (ByteMem.read (mem s) phys.toNat k) s' ∧ mem s' = mem s
  write : ∀ s (phys : Word) bs, bs ≠ [] → phys.toNat + bs.length ≤ 2 ^ 32 → ∃ s',
    (ops.write phys bs).run s = .ok () s' ∧ mem s' = ByteMem.write (mem s) phys.toNat bs

section
variable {σ : Type} {mem : σ → Mem} {ops : AhbOps σ} {s : Siphon σ}

theorem orEio_ok {α : Type} {m : Prog (Siphon σ) α} {a : α} {s' : Siphon σ} (run : m.run s = .ok a s') :
    (orEio m).run s = .ok a s' := by
  rw [orEio, Prog.run_bind_ok (Prog.attempt_ok run)]
  rfl

theorem siphonMalloc_ok {e : Errno} (memory : s.memory) : (siphonMalloc e).run s = .ok () s := by
  simp only [siphonMalloc, EStateM.run_bind, EStateM.run_get, memory]
  rfl

theorem siphonCount_le {len : Nat} : siphonCount len ≤ len := by
  rw [siphonCount]
  split
  case isTrue long =>
    have far : ahbChunk < len := by omega
    exact Nat.le_of_lt far
  case isFalse short =>
    have near : len ≤ ahbChunk := by omega
    rw [ahbChunk] at near
    rw [BitVec.ofInt_natCast, BitVec.toNat_ofNat]
    omega

theorem siphonCount_pos {len : Nat} (some : 0 < len) : 0 < siphonCount len := by
  rw [siphonCount]
  split
  · decide
  case isFalse short =>
    have near : len ≤ ahbChunk := by omega
    rw [ahbChunk] at near
    rw [BitVec.ofInt_natCast, BitVec.toNat_ofNat]
    omega

theorem siphonLeft_natCast {len n : Nat} (le : n ≤ len) : siphonLeft len n = (len - n : Nat) := by
  rw [siphonLeft]
  split
  · omega
  · omega

/-- `n` bytes from `phys` on; the address wraps around after 4 GiB. -/
def busBytes (m : Mem) (phys : Word) (n : Nat) : List Byte :=
  (List.range n).map fun i => m (phys + BitVec.ofNat 32 i).toNat

@[simp] theorem busBytes_length (m : Mem) (phys : Word) (n : Nat) : (busBytes m phys n).length = n := by simp [busBytes]

theorem busBytes_add (m : Mem) (phys : Word) (n k : Nat) :
    busBytes m phys (n + k) = busBytes m phys n ++ busBytes m (phys + BitVec.ofNat 32 n) k := by
  simp only [busBytes, List.range_add, List.map_append, List.map_map]
  congr 2
  funext i
  show m (phys + BitVec.ofNat 32 (n + i)).toNat = m (phys + BitVec.ofNat 32 n + BitVec.ofNat 32 i).toNat
  rw [BitVec.ofNat_add, BitVec.add_assoc]

theorem busBytes_eq (m : Mem) {phys : Word} {n : Nat} (inside : phys.toNat + n ≤ 2 ^ 32) :
    busBytes m phys n = ByteMem.read m phys.toNat n := by
  rw [busBytes, ByteMem.read]
  refine List.map_congr_left fun i mem => ?_
  have less : i < n := List.mem_range.mp mem
  rw [Word.toNat_add_ofNat (by omega)]

/-- The bridge answers the reads in `ok` from the memory that `mem` makes of its state. It may stop short. -/
def AhbAnswers (mem : σ → Mem) (ops : AhbOps σ) (ok : Word → Nat → Prop) : Prop := ∀ s phys n, 0 < n → ok phys n →
  ∃ k s', 0 < k ∧ k ≤ n ∧ (ops.read phys n).run s = .ok (busBytes (mem s) phys k) s' ∧ mem s' = mem s

theorem FlatAhb.answers (flat : FlatAhb mem ops) : AhbAnswers mem ops fun phys n => phys.toNat + n ≤ 2 ^ 32 := by
  intro s phys n some inside
  obtain ⟨k, s', pos, le, read, kept⟩ := flat.read s phys n some inside
  refine ⟨k, s', pos, le, ?_, kept⟩
  rw [busBytes_eq _ (by omega)]
  exact read

/-- Siphoning out ends once more turns were given than there are bytes, and emits those bytes. -/
theorem siphonOut_loop {ok : Word → Nat → Prop} (answers : AhbAnswers mem ops ok) {fuel inner : Nat} (phys : Word)
    (len : Nat) (works : s.fd.Works) (some : 0 < len)
    (inside : ∀ j n, 0 < n → j + n ≤ len → ok (phys + BitVec.ofNat 32 j) n) (enough : len < fuel) (enough' : len < inner) :
    ∃ s', (Prog.loop (siphonOutTurn ops inner) fuel (phys, (len : Int))).run s = .ok () s' ∧
      s'.fd.bytes = s.fd.bytes ++ busBytes (mem s.ahb) phys len ∧ mem s'.ahb = mem s.ahb ∧
      s.fd.SameAnswers s'.fd ∧ s'.memory = s.memory := by
  induction fuel generalizing s phys len with
  | zero => exact absurd enough (Nat.not_lt_zero _)
  | succ fuel ih =>
    have asked : siphonCount len ≤ len := siphonCount_le
    have here : ok phys (siphonCount len) := by
      have at' := inside 0 (siphonCount len) (siphonCount_pos some) (by omega)
      rw [BitVec.add_zero] at at'
      exact at'
    obtain ⟨k, ahb, pos, le, read, kept⟩ := answers s.ahb phys (siphonCount len) (siphonCount_pos some) here
    have ingress := orEio_ok (Siphon.onAhb_ok read)
    have short : (busBytes (mem s.ahb) phys k).length < inner := by
      rw [busBytes_length]
      omega
    obtain ⟨fd, write, bytes, same⟩ := Fd.writeAll_works works short
    have egress := Siphon.onFd_ok (s := { s with ahb := ahb }) write
    have left : siphonLeft len (busBytes (mem s.ahb) phys k).length = (len - k : Nat) := by
      rw [busBytes_length, siphonLeft_natCast (by omega)]
    rw [Prog.loop, siphonOutTurn, bind_assoc, Prog.run_bind_ok ingress, bind_assoc, Prog.run_bind_ok egress, left]
    by_cases done : len - k = 0
    · refine ⟨{ s with ahb := ahb, fd := fd }, ?_, ?_, kept, same, rfl⟩
      · rw [done]
        rfl
      · rw [bytes, show k = len by omega]
    · obtain ⟨s', rest, bytes', kept', same', memory'⟩ := ih (s := { s with ahb := ahb, fd := fd })
        (phys + BitVec.ofNat 32 k) (len - k) (works.of_same same) (by omega)
        (fun j n pos' le' => by rw [BitVec.add_assoc, ← BitVec.ofNat_add]; exact inside (k + j) n pos' (by omega))
        (by omega) (by omega)
      refine ⟨s', ?_, ?_, kept'.trans kept, Eq.trans same' same, memory'⟩
      · rw [if_neg (by omega), busBytes_length]
        exact rest
      · rw [bytes', bytes, kept, List.append_assoc, ← busBytes_add, Nat.add_sub_cancel' (by omega)]

theorem ahbSiphonOut_answers {ok : Word → Nat → Prop} (answers : AhbAnswers mem ops ok) {fuel : Nat} (phys : Word)
    (len : Nat) (memory : s.memory) (works : s.fd.Works)
    (inside : ∀ j n, 0 < n → j + n ≤ len → ok (phys + BitVec.ofNat 32 j) n) (enough : len < fuel) :
    ∃ s', (ahbSiphonOut ops fuel phys len).run s = .ok () s' ∧
      s'.fd.bytes = s.fd.bytes ++ busBytes (mem s.ahb) phys len ∧ mem s'.ahb = mem s.ahb ∧
      s.fd.SameAnswers s'.fd ∧ s'.memory = s.memory := by
  rw [ahbSiphonOut]
  by_cases none : len = 0
  · subst none
    exact ⟨s, rfl, (List.append_nil _).symm, rfl, rfl, rfl⟩
  · obtain ⟨s', run, rest⟩ := siphonOut_loop answers phys len works (by omega) inside enough enough
    refine ⟨s', ?_, rest⟩
    rw [if_neg (by omega), Prog.run_bind_ok (siphonMalloc_ok memory)]
    exact run

theorem ahbSiphonOut_emits (flat : FlatAhb mem ops) {fuel : Nat} (phys : Word) (len : Nat) (memory : s.memory)
    (works : s.fd.Works) (inside : phys.toNat + len ≤ 2 ^ 32) (enough : len < fuel) :
    ∃ s', (ahbSiphonOut ops fuel phys len).run s = .ok () s' ∧
      s'.fd.bytes = s.fd.bytes ++ ByteMem.read (mem s.ahb) phys.toNat len ∧ mem s'.ahb = mem s.ahb := by
  have parts : ∀ j n, 0 < n → j + n ≤ len → (phys + BitVec.ofNat 32 j).toNat + n ≤ 2 ^ 32 := by
    intro j n pos le
    rw [Word.toNat_add_ofNat (by omega)]
    omega
  obtain ⟨s', run, bytes, kept, _⟩ := ahbSiphonOut_answers flat.answers phys len memory works parts enough
  rw [busBytes_eq _ inside] at bytes
  exact ⟨s', run, bytes, kept⟩

/-- How many bytes of the descriptor `ahb_siphon_in` is to move. -/
def siphonWanted (len : Int) (stream : List Byte) : Nat :=
  if len = -1 then stream.length else min len.toNat stream.length

theorem siphonCount_eq_zero {len : Int} (bound : -1 ≤ len) (none : siphonCount len = 0) : len = 0 := by
  by_cases sentinel : len = -1
  · subst sentinel
    cases none
  · obtain ⟨n, rfl⟩ : ∃ n : Nat, len = n := ⟨len.toNat, by omega⟩
    by_contra some
    have pos : 0 < siphonCount n := siphonCount_pos (by omega)
    omega

section
variable {len : Int} {stream : List Byte} {n : Nat}

/-- No chunk is longer than what is wanted. -/
theorem le_wanted (bound : -1 ≤ len) (asked : n ≤ siphonCount len) (there : n ≤ stream.length) :
    n ≤ siphonWanted len stream := by
  rw [siphonWanted]
  by_cases sentinel : len = -1
  · rw [if_pos sentinel]
    exact there
  · obtain ⟨m, rfl⟩ : ∃ m : Nat, len = m := ⟨len.toNat, by omega⟩
    have most : siphonCount m ≤ m := siphonCount_le
    rw [if_neg sentinel]
    omega

theorem wanted_eq_zero (bound : -1 ≤ len) (none : siphonCount len = 0 ∨ stream = []) :
    siphonWanted len stream = 0 := by
  rw [siphonWanted]
  rcases none with zero | ended
  · rw [siphonCount_eq_zero bound zero]
    rfl
  · rw [ended]
    split
    · rfl
    · exact Nat.min_zero _

theorem wanted_left (bound : -1 ≤ len) (le : n ≤ siphonWanted len stream) :
    siphonWanted (siphonLeft len n) (stream.drop n) = siphonWanted len stream - n ∧ -1 ≤ siphonLeft len n := by
  simp only [siphonWanted, siphonLeft] at le ⊢
  rw [List.length_drop]
  by_cases sentinel : len = -1
  · subst sentinel
    simp
  · rw [if_neg sentinel] at le ⊢
    split
    · rw [if_neg (by omega)]
      omega
    · omega

end

theorem siphonIn_loop (flat : FlatAhb mem ops) {fuel : Nat} (phys : Word) (len : Int) (works : s.fd.Works)
    (bound : -1 ≤ len) (inside : phys.toNat + siphonWanted len s.fd.bytes ≤ 2 ^ 32)
    (enough : s.fd.bytes.length < fuel) :
    ∃ s', (Prog.loop (siphonInTurn ops) fuel (phys, len)).run s = .ok () s' ∧
      s'.fd.bytes = s.fd.bytes.drop (siphonWanted len s.fd.bytes) ∧
      mem s'.ahb = ByteMem.write (mem s.ahb) phys.toNat (s.fd.bytes.take (siphonWanted len s.fd.bytes)) := by
  induction fuel generalizing s phys len with
  | zero => exact absurd enough (Nat.not_lt_zero _)
  | succ fuel ih =>
    obtain ⟨n, fd, read, asked, there, none, bytes, same⟩ := Fd.read_works works (siphonCount len)
    have ingress := Siphon.onFd_ok read
    have length : (s.fd.bytes.take n).length = n := List.length_take_of_le there
    rw [Prog.loop, siphonInTurn, bind_assoc, Prog.run_bind_ok ingress]
    by_cases ended : n = 0
    · subst ended
      refine ⟨{ s with fd := fd }, rfl, ?_, ?_⟩
      · rw [wanted_eq_zero bound (none rfl), bytes]
      · rw [wanted_eq_zero bound (none rfl), List.take_zero, ByteMem.write_nil]
    · have le := le_wanted bound asked there
      have some : s.fd.bytes.take n ≠ [] := fun nil => by
        rw [nil] at length
        exact ended length.symm
      obtain ⟨ahb, write, stored⟩ := flat.write s.ahb phys _ some (by omega)
      have egress := orEio_ok (Siphon.onAhb_ok (s := { s with fd := fd }) write)
      obtain ⟨wanted, bound'⟩ := wanted_left bound le
      rw [← bytes] at wanted
      have next : (phys + BitVec.ofNat 32 n).toNat + (siphonWanted len s.fd.bytes - n) ≤ 2 ^ 32 ∧
          (n < siphonWanted len s.fd.bytes → (phys + BitVec.ofNat 32 n).toNat = phys.toNat + n) := by
        by_cases last : n = siphonWanted len s.fd.bytes
        · have := (phys + BitVec.ofNat 32 n).isLt
          omega
        · have near : (phys + BitVec.ofNat 32 n).toNat = phys.toNat + n := Word.toNat_add_ofNat (by omega)
          omega
      obtain ⟨s', rest, bytes', stored'⟩ := ih (s := { s with fd := fd, ahb := ahb }) (phys + BitVec.ofNat 32 n)
        (siphonLeft len n) (works.of_same same) bound' (by rw [wanted]; exact next.1)
        (by rw [bytes, List.length_drop]; omega)
      refine ⟨s', ?_, ?_, ?_⟩
      · rw [if_neg some, bind_assoc, Prog.run_bind_ok egress, length]
        exact rest
      · rw [bytes', wanted, bytes, List.drop_drop, Nat.add_sub_cancel' le]
      · rw [stored', wanted, bytes, stored]
        have split : s.fd.bytes.take (siphonWanted len s.fd.bytes) =
            s.fd.bytes.take n ++ (s.fd.bytes.drop n).take (siphonWanted len s.fd.bytes - n) := by
          rw [← List.take_add, Nat.add_sub_cancel' le]
        rw [split, ByteMem.write_append, length]
        by_cases last : n < siphonWanted len s.fd.bytes
        · rw [next.2 last]
        · rw [show siphonWanted len s.fd.bytes - n = 0 by omega, List.take_zero, ByteMem.write_nil, ByteMem.write_nil]

/-- Siphoning in ends once more turns were given than there are bytes to come, and stores those wanted. -/
theorem ahbSiphonIn_stores (flat : FlatAhb mem ops) {fuel : Nat} (phys : Word) (len : Int) (memory : s.memory)
    (works : s.fd.Works) (bound : -1 ≤ len) (inside : phys.toNat + siphonWanted len s.fd.bytes ≤ 2 ^ 32)
    (enough : s.fd.bytes.length < fuel) :
    ∃ s', (ahbSiphonIn ops fuel phys len).run s = .ok () s' ∧
      s'.fd.bytes = s.fd.bytes.drop (siphonWanted len s.fd.bytes) ∧
      mem s'.ahb = ByteMem.write (mem s.ahb) phys.toNat (s.fd.bytes.take (siphonWanted len s.fd.bytes)) := by
  obtain ⟨s', run, rest⟩ := siphonIn_loop flat phys len works bound inside enough
  refine ⟨s', ?_, rest⟩
  rw [ahbSiphonIn, Prog.run_bind_ok (siphonMalloc_ok memory)]
  exact run

theorem ahbSiphon_restores (flat : FlatAhb mem ops) {fuel : Nat} (phys : Word) (len : Nat) (back : Int) (infd : Fd)
    (memory : s.memory) (works : s.fd.Works) (works' : infd.Works) (empty : s.fd.bytes = [])
    (inside : phys.toNat + len ≤ 2 ^ 32) (enough : len < fuel) (whole : back = len ∨ back = -1) :
    ∃ s₁ s₂, (ahbSiphonOut ops fuel phys len).run s = .ok () s₁ ∧
      (ahbSiphonIn ops fuel phys back).run ⟨s₁.ahb, { infd with bytes := s₁.fd.bytes }, true⟩ = .ok () s₂ ∧
      mem s₂.ahb = mem s.ahb := by
  obtain ⟨s₁, out, bytes, kept⟩ := ahbSiphonOut_emits flat phys len memory works inside enough
  rw [empty, List.nil_append] at bytes
  have length : s₁.fd.bytes.length = len := by rw [bytes, ByteMem.read_length]
  have wanted : siphonWanted back s₁.fd.bytes = len := by
    rw [siphonWanted]
    rcases whole with rfl | rfl
    · rw [if_neg (by omega)]
      omega
    · rw [if_pos rfl, length]
  obtain ⟨s₂, back, _, stored⟩ := ahbSiphonIn_stores (s := ⟨s₁.ahb, { infd with bytes := s₁.fd.bytes }, true⟩) flat phys
    back rfl works' (by omega) (by rw [wanted]; exact inside) (by rw [length]; exact enough)
  refine ⟨s₁, s₂, out, back, ?_⟩
  rw [stored, wanted, List.take_of_length_le (Nat.le_of_eq length), bytes, kept, ByteMem.write_read]

end

/-- Where a bridge's reads give one byte at least of a flat memory and its writes go through, siphoning out
emits the region asked for and siphoning in stores what was asked for of the stream, all of it for -1,
whatever the calls on the descriptor move at a time. Out and back in again changes nothing. -/
theorem ahb_siphon_copies {σ : Type} {mem : σ → Mem} {ops : AhbOps σ} (flat : FlatAhb mem ops) :
    (∀ (s : Siphon σ) (phys : Word) (len fuel : Nat), s.memory → s.fd.Works → phys.toNat + len ≤ 2 ^ 32 → len < fuel →
      ∃ s', (ahbSiphonOut ops fuel phys len).run s = .ok () s' ∧
        s'.fd.bytes = s.fd.bytes ++ ByteMem.read (mem s.ahb) phys.toNat len ∧ mem s'.ahb = mem s.ahb) ∧
    (∀ (s : Siphon σ) (phys : Word) (len fuel : Nat), s.memory → s.fd.Works → phys.toNat + len ≤ 2 ^ 32 →
      s.fd.bytes.length < fuel → ∃ s', (ahbSiphonIn ops fuel phys len).run s = .ok () s' ∧
        s'.fd.bytes = s.fd.bytes.drop len ∧
        mem s'.ahb = ByteMem.write (mem s.ahb) phys.toNat (s.fd.bytes.take len)) ∧
    (∀ (s : Siphon σ) (phys : Word) (fuel : Nat), s.memory → s.fd.Works →
      phys.toNat + s.fd.bytes.length ≤ 2 ^ 32 → s.fd.bytes.length < fuel →
      ∃ s', (ahbSiphonIn ops fuel phys (-1)).run s = .ok () s' ∧ s'.fd.bytes = [] ∧
        mem s'.ahb = ByteMem.write (mem s.ahb) phys.toNat s.fd.bytes) ∧
    ∀ (s : Siphon σ) (infd : Fd) (phys : Word) (len fuel : Nat) (back : Int), s.memory → s.fd.Works → infd.Works →
      s.fd.bytes = [] → phys.toNat + len ≤ 2 ^ 32 → len < fuel → back = len ∨ back = -1 →
      ∃ s₁ s₂, (ahbSiphonOut ops fuel phys len).run s = .ok () s₁ ∧
        (ahbSiphonIn ops fuel phys back).run ⟨s₁.ahb, { infd with bytes := s₁.fd.bytes }, true⟩ = .ok () s₂ ∧
        mem s₂.ahb = mem s.ahb := by
  refine ⟨fun s phys len fuel memory works inside enough => ?_, fun s phys len fuel memory works inside enough => ?_,
    fun s phys fuel memory works inside enough => ?_, ?_⟩
  · exact ahbSiphonOut_emits flat phys len memory works inside enough
  · have wanted : siphonWanted len s.fd.bytes = min len s.fd.bytes.length := by
      rw [siphonWanted, if_neg (by omega), Int.toNat_natCast]
    obtain ⟨s', run, bytes, stored⟩ := ahbSiphonIn_stores flat phys len memory works (by omega)
      (by rw [wanted]; omega) enough
    refine ⟨s', run, ?_, ?_⟩
    · rw [bytes, wanted, ← List.drop_eq_drop_min]
    · rw [stored, wanted, ← List.take_eq_take_min]
  · have wanted : siphonWanted (-1) s.fd.bytes = s.fd.bytes.length := if_pos rfl
    obtain ⟨s', run, bytes, stored⟩ := ahbSiphonIn_stores flat phys (-1) memory works (by omega)
      (by rw [wanted]; exact inside) enough
    refine ⟨s', run, ?_, ?_⟩
    · rw [bytes, wanted, List.drop_length]
    · rw [stored, wanted, List.take_length]
  · intro s infd phys len fuel back memory works works' empty inside enough whole
    exact ahbSiphon_restores flat phys len back infd memory works works' empty inside enough whole

/-- A memory that gives up to `most + 1` bytes a read. -/
def memAhb (most : Nat) : AhbOps Mem where
  read phys n := do return ByteMem.read (← get) phys.toNat (min n (most + 1))
  write phys bs := modify fun m => ByteMem.write m phys.toNat bs

theorem memAhb_flat (most : Nat) : FlatAhb id (memAhb most) where
  read m phys n some _ := ⟨min n (most + 1), m, by omega, by omega, rfl, rfl⟩
  write m phys bs _ _ := ⟨ByteMem.write m phys.toNat bs, rfl, rfl⟩

/-- The last ten bytes of the bus, two at a time. -/
theorem ahb_siphon_copies_short : ∃ s', (ahbSiphonOut (memAhb 3) 16 0xfffffff6 10).run
    ⟨fun _ => 0xa5, ⟨[], fun _ => .ok 2, 0⟩, true⟩ = .ok () s' ∧ s'.fd.bytes = List.replicate 10 0xa5 := by
  obtain ⟨s', run, bytes, _⟩ := (ahb_siphon_copies (memAhb_flat 3)).1 ⟨fun _ => 0xa5, ⟨[], fun _ => .ok 2, 0⟩, true⟩
    0xfffffff6 10 16 rfl (fun _ => ⟨2, rfl⟩) (by decide) (by decide)
  exact ⟨s', run, bytes⟩

end Culvert
