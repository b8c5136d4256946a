import Culvert.AhbSiphon
import Culvert.Lib.FlatMemory

/-! What `ahb_siphon_out` and `ahb_siphon_in` move, over any bridge that serves the memory. -/

namespace Culvert
open Prog

/-- The `read` and `write` of a bridge, of those that `call` makes. -/
def callOps {σ : Type} (call : MemOp → Prog σ MemReply) : AhbOps σ where
  read phys n := do
    match ← call (.read phys n) with
    | .bytes bs => return bs
    | _ => Prog.fail eio
  write phys bs := do
    let _ ← call (.write phys bs)
    return ()

/-- `ahb_readl` and `ahb_writel`. -/
def callReadl {σ : Type} (call : MemOp → Prog σ MemReply) (phys : Word) : Prog σ Word := do
  match ← call (.readl phys) with
  | .word w => return w
  | _ => Prog.fail eio

def callWritel {σ : Type} (call : MemOp → Prog σ MemReply) (phys val : Word) : Prog σ Unit := do
  let _ ← call (.writel phys val)
  return ()

/-- In the states of `I` a call that `may` be made is one of the memory, or stops without effect on it. -/
def CallsServe {σ : Type} (call : MemOp → Prog σ MemReply) (I : σ → Prop) (mem : σ → Mem) (may : MemOp → Prop) : Prop :=
  ∀ op, may op → ∀ m, Triple (fun s => I s ∧ mem s = m) (call op) (fun r s => I s ∧ FlatStep m (op, r) (mem s))
    fun _ s => I s ∧ mem s = m

/-- The memory itself. -/
def flatCall (op : MemOp) : Prog Mem MemReply := fun m => .ok (op.flatReply m) (op.flatUpdate m)

theorem flatCall_serves (may : MemOp → Prop) : CallsServe flatCall (fun _ => True) id may := by
  rintro op _ m _ ⟨_, rfl⟩
  refine ⟨fun r s' run => ?_, fun e s' run => ?_⟩
  · cases run
    exact ⟨trivial, rfl, rfl⟩
  · cases run

section
variable {σ : Type} {call : MemOp → Prog σ MemReply} {I : σ → Prop} {mem : σ → Mem} {may : MemOp → Prop} {m : Mem}

theorem CallsServe.read (serve : CallsServe call I mem may) {phys : Word} {n : Nat} (here : may (.read phys n)) :
    Triple (fun s => I s ∧ mem s = m) ((callOps call).read phys n)
      (fun bs s => (I s ∧ mem s = m) ∧ bs = ByteMem.read m phys.toNat n) fun _ s => I s ∧ mem s = m := by
  refine (serve _ here m).bind fun r => ?_
  cases r with
  | bytes bs =>
    refine Triple.pure fun s step => ?_
    obtain ⟨inv, reply, kept⟩ := step
    exact ⟨⟨inv, kept⟩, MemReply.bytes.inj reply⟩
  | word w =>
    refine Triple.fail fun s step => ?_
    obtain ⟨_, reply, _⟩ := step
    cases reply
  | done =>
    refine Triple.fail fun s step => ?_
    obtain ⟨_, reply, _⟩ := step
    cases reply

theorem CallsServe.write (serve : CallsServe call I mem may) {phys : Word} {bs : List Byte} (here : may (.write phys bs)) :
    Triple (fun s => I s ∧ mem s = m) ((callOps call).write phys bs)
      (fun _ s => I s ∧ mem s = ByteMem.write m phys.toNat bs) fun _ s => I s ∧ mem s = m :=
  (serve _ here m).bind fun _ => Triple.pure fun _ step => ⟨step.1, step.2.2⟩

theorem CallsServe.readl (serve : CallsServe call I mem may) {phys : Word} (here : may (.readl phys)) :
    Triple (fun s => I s ∧ mem s = m) (callReadl call phys)
      (fun val s => (I s ∧ mem s = m) ∧ val = ByteMem.readWord m phys.toNat) fun _ s => I s ∧ mem s = m := by
  refine (serve _ here m).bind fun r => ?_
  cases r with
  | bytes bs =>
    refine Triple.fail fun s step => ?_
    obtain ⟨_, reply, _⟩ := step
    cases reply
  | word w =>
    refine Triple.pure fun s step => ?_
    obtain ⟨inv, reply, kept⟩ := step
    exact ⟨⟨inv, kept⟩, MemReply.word.inj reply⟩
  | done =>
    refine Triple.fail fun s step => ?_
    obtain ⟨_, reply, _⟩ := step
    cases reply

theorem CallsServe.writel (serve : CallsServe call I mem may) {phys val : Word} (here : may (.writel phys val)) :
    Triple (fun s => I s ∧ mem s = m) (callWritel call phys val)
      (fun _ s => I s ∧ mem s = ByteMem.writeWord m phys.toNat val) fun _ s => I s ∧ mem s = m :=
  (serve _ here m).bind fun _ => Triple.pure fun _ step => ⟨step.1, step.2.2⟩

/-- How much of `n` bytes is asked for at once. -/
theorem siphonCount_eq_min (n : Nat) : siphonCount n = min n ahbChunk := by
  rw [siphonCount]
  split
  case isTrue long =>
    have far : ahbChunk < n := by omega
    rw [Nat.min_eq_right (Nat.le_of_lt far)]
    rfl
  case isFalse short =>
    have near : n ≤ ahbChunk := by omega
    have small : n < 2 ^ 64 := Nat.lt_of_le_of_lt near (by decide)
    rw [BitVec.ofInt_natCast, BitVec.toNat_ofNat, Nat.mod_eq_of_lt small, Nat.min_eq_left near]

theorem onAhb_triple {α : Type} {p : Prog σ α} {P : σ → Prop} {Q : α → σ → Prop} {E : Stop → σ → Prop}
    (op : Triple P p Q E) (F : Fd → Prop) : Triple (fun s : Siphon σ => P s.ahb ∧ F s.fd) (Siphon.onAhb p)
      (fun a s => Q a s.ahb ∧ F s.fd) fun e s => E e s.ahb ∧ F s.fd :=
  Triple.zoom (fun _ _ => rfl) (fun _ _ same => same) op

theorem onFd_triple {α : Type} {p : Prog Fd α} {P : Fd → Prop} {Q : α → Fd → Prop} {E : Stop → Fd → Prop}
    (op : Triple P p Q E) (F : σ → Prop) : Triple (fun s : Siphon σ => P s.fd ∧ F s.ahb) (Siphon.onFd p)
      (fun a s => Q a s.fd ∧ F s.ahb) fun e s => E e s.fd ∧ F s.ahb :=
  Triple.zoom (fun _ _ => rfl) (fun _ _ same => same) op

theorem orEio_triple {α : Type} {p : Prog (Siphon σ) α} {P : Siphon σ → Prop} {Q : α → Siphon σ → Prop}
    {E : Siphon σ → Prop} (op : Triple P p Q fun _ => E) : Triple P (orEio p) Q fun _ => E := by
  refine op.attempt.bind fun r => ?_
  cases r with
  | ok a => exact Triple.pure fun _ post => post
  | error e => exact Triple.fail fun _ post => post

theorem siphonMalloc_triple (P : Siphon σ → Prop) (e : Errno) : Triple P (siphonMalloc e) (fun _ => P) fun _ => P := by
  intro s pre
  cases memory : s.memory with
  | true =>
    refine ⟨fun _ s' run => ?_, fun _ s' run => ?_⟩
    · rw [siphonMalloc_ok memory] at run
      cases run
      exact pre
    · rw [siphonMalloc_ok memory] at run
      cases run
  | false =>
    have failed : (siphonMalloc e).run s = .error (.rc e) s := by
      simp only [siphonMalloc, EStateM.run_bind, EStateM.run_get, memory]
      rfl
    refine ⟨fun _ s' run => ?_, fun _ s' run => ?_⟩
    · rw [failed] at run
      cases run
    · rw [failed] at run
      cases run
      exact pre

/-- The bytes written so far are the first `n` from `phys` on, behind those that were there. -/
structure Emitted (I : σ → Prop) (mem : σ → Mem) (m : Mem) (phys : Word) (before : List Byte) (n : Nat) (s : Siphon σ) :
    Prop where
  inv : I s.ahb
  kept : mem s.ahb = m
  bytes : s.fd.bytes = before ++ ByteMem.read m phys.toNat n

/-- It was stopped at some of the first `n`. -/
def EmittedPart (I : σ → Prop) (mem : σ → Mem) (m : Mem) (phys : Word) (before : List Byte) (n : Nat) (s : Siphon σ) : Prop :=
  ∃ k ≤ n, Emitted I mem m phys before k s

/-- Before a turn, which starts at a whole number of chunks and before the end. -/
def Emitting (I : σ → Prop) (mem : σ → Mem) (m : Mem) (phys : Word) (before : List Byte) (len : Nat) (a : Word × Int)
    (s : Siphon σ) : Prop :=
  ∃ j < len, j % ahbChunk = 0 ∧ a = (phys + BitVec.ofNat 32 j, ((len - j : Nat) : Int)) ∧ Emitted I mem m phys before j s

section
variable {phys : Word} {len j n : Nat} {before chunk : List Byte}

theorem read_emits (serve : CallsServe call I mem may) {start : Word} (here : may (.read start n))
    (place : start.toNat = phys.toNat + j) (le : j ≤ len) :
    Triple (Emitted I mem m phys before j) (orEio (Siphon.onAhb ((callOps call).read start n)))
      (fun bs s => Emitted I mem m phys before j s ∧ bs = ByteMem.read m (phys.toNat + j) n)
      fun _ => EmittedPart I mem m phys before len := by
  intro s emitted
  have op := orEio_triple (onAhb_triple (serve.read here (m := m)) (· = s.fd))
  rw [place] at op
  refine (op.conseq (fun _ pre => pre) (fun bs t post => ?_) fun _ t stopped => ?_) s ⟨⟨emitted.inv, emitted.kept⟩, rfl⟩
  · obtain ⟨⟨⟨inv, kept⟩, read⟩, fd⟩ := post
    exact ⟨⟨inv, kept, by rw [fd, emitted.bytes]⟩, read⟩
  · obtain ⟨⟨inv, kept⟩, fd⟩ := stopped
    exact ⟨j, le, inv, kept, by rw [fd, emitted.bytes]⟩

theorem writeAll_emits (inner : Nat) (le : j + n ≤ len) :
    Triple (fun s => Emitted I mem m phys before j s ∧ chunk = ByteMem.read m (phys.toNat + j) n)
      (Siphon.onFd (Fd.writeAll inner chunk)) (fun _ s => Emitted I mem m phys before (j + n) s ∧ chunk.length = n)
      fun _ => EmittedPart I mem m phys before len := by
  rintro s ⟨emitted, rfl⟩
  have op := onFd_triple (@Fd.writeAll_triple (before ++ ByteMem.read m phys.toNat j) inner
    (ByteMem.read m (phys.toNat + j) n)) fun ahb => I ahb ∧ mem ahb = m
  refine (op.conseq (fun _ pre => pre) (fun _ t post => ?_) fun _ t stopped => ?_) s
    ⟨emitted.bytes, emitted.inv, emitted.kept⟩
  · obtain ⟨bytes, inv, kept⟩ := post
    refine ⟨⟨inv, kept, ?_⟩, ByteMem.read_length _ _ _⟩
    rw [bytes, List.append_assoc, ← ByteMem.read_add]
  · obtain ⟨⟨done, left, bytes, split⟩, inv, kept⟩ := stopped
    have total : done.length + left.length = n := by rw [← List.length_append, split, ByteMem.read_length]
    have front : done = ByteMem.read m (phys.toNat + j) done.length := by
      rw [← ByteMem.read_take (show done.length ≤ n by omega), ← split, List.take_left]
    refine ⟨j + done.length, by omega, inv, kept, ?_⟩
    rw [bytes, List.append_assoc, ByteMem.read_add, ← front]

/-- One chunk. -/
theorem siphonOutTurn_emits (serve : CallsServe call I mem may) (range : phys.toNat + len ≤ 2 ^ 32)
    (chunks : ∀ j < len, j % ahbChunk = 0 → may (.read (phys + BitVec.ofNat 32 j) (min (len - j) ahbChunk)))
    (inner : Nat) (a : Word × Int) : Triple (Emitting I mem m phys before len a) (siphonOutTurn (callOps call) inner a)
      (fun (r : (Word × Int) ⊕ Unit) s => r.elim (Emitting I mem m phys before len · s) fun _ => Emitted I mem m phys before len s)
      fun _ => EmittedPart I mem m phys before len := by
  rintro s ⟨j, less, aligned, rfl, emitted⟩
  have place : (phys + BitVec.ofNat 32 j).toNat = phys.toNat + j := Word.toNat_add_ofNat (by omega)
  have count : siphonCount ((len - j : Nat) : Int) = min (len - j) ahbChunk := siphonCount_eq_min _
  rw [siphonOutTurn, count]
  refine ((read_emits serve (chunks j less aligned) place (Nat.le_of_lt less)).bind fun chunk =>
    (writeAll_emits inner (by omega)).bind fun _ => ?_) s emitted
  rintro t ⟨emitted', length⟩
  rw [length, siphonLeft_natCast (Nat.min_le_left _ _)]
  by_cases last : len - j ≤ ahbChunk
  · rw [Nat.min_eq_left last] at emitted' ⊢
    rw [Nat.add_sub_cancel' (Nat.le_of_lt less)] at emitted'
    rw [if_pos (by omega)]
    exact Triple.pure (fun _ post => post) t emitted'
  · have full : min (len - j) ahbChunk = ahbChunk := Nat.min_eq_right (by omega)
    rw [full] at emitted' ⊢
    rw [if_neg (by omega)]
    refine Triple.pure (fun _ post => post) t ⟨j + ahbChunk, by omega, by rw [Nat.add_mod_right, aligned], ?_, emitted'⟩
    rw [BitVec.add_assoc, ← BitVec.ofNat_add, Nat.sub_sub]

/-- What has been written is the start of the region, and all of it once 0 is returned. -/
theorem ahbSiphonOut_emits_part (serve : CallsServe call I mem may) (range : phys.toNat + len ≤ 2 ^ 32)
    (chunks : ∀ j < len, j % ahbChunk = 0 → may (.read (phys + BitVec.ofNat 32 j) (min (len - j) ahbChunk)))
    (fuel : Nat) : Triple (Emitted I mem m phys before 0) (ahbSiphonOut (callOps call) fuel phys len)
      (fun _ => Emitted I mem m phys before len) fun _ => EmittedPart I mem m phys before len := by
  rw [ahbSiphonOut]
  by_cases none : len = 0
  · subst none
    exact Triple.pure fun _ post => post
  · rw [if_neg (by omega)]
    have allocated := (siphonMalloc_triple (Emitted I mem m phys before 0) enomem).conseq (fun _ pre => pre)
      (fun _ _ post => post) fun _ _ stopped => (⟨0, Nat.zero_le len, stopped⟩ : EmittedPart I mem m phys before len _)
    have moves := Triple.loop (Emitting I mem m phys before len) (siphonOutTurn_emits serve range chunks fuel)
      (fun a s going => by
        obtain ⟨j, less, _, _, emitted⟩ := going
        exact ⟨j, Nat.le_of_lt less, emitted⟩) fuel (phys, (len : Int))
    refine allocated.bind fun _ => moves.conseq (fun s emitted => ?_) (fun _ _ post => post) fun _ _ stopped => stopped
    refine ⟨0, by omega, rfl, ?_, emitted⟩
    rw [BitVec.add_zero, Nat.sub_zero]

/-- A call that `may` be made returns a value. -/
def CallsReturn (call : MemOp → Prog σ MemReply) (I : σ → Prop) (may : MemOp → Prop) : Prop :=
  ∀ op, may op → ∀ s, I s → ∃ r s', (call op).run s = .ok r s'

theorem CallsServe.read_returns (serve : CallsServe call I mem may) (returns : CallsReturn call I may) {start : Word}
    (here : may (.read start n)) {s : σ} (inv : I s) : ∃ s', ((callOps call).read start n).run s =
      .ok (ByteMem.read (mem s) start.toNat n) s' ∧ I s' ∧ mem s' = mem s := by
  obtain ⟨r, s', run⟩ := returns _ here s inv
  obtain ⟨inv', reply, kept⟩ := (serve _ here (mem s) s ⟨inv, rfl⟩).1 r s' run
  have bytes : r = .bytes (ByteMem.read (mem s) start.toNat n) := reply
  subst bytes
  exact ⟨s', Prog.run_bind_ok run, inv', kept⟩

theorem CallsServe.readl_returns (serve : CallsServe call I mem may) (returns : CallsReturn call I may) {start : Word}
    (here : may (.readl start)) {s : σ} (inv : I s) : ∃ s', (callReadl call start).run s =
      .ok (ByteMem.readWord (mem s) start.toNat) s' ∧ I s' ∧ mem s' = mem s := by
  obtain ⟨r, s', run⟩ := returns _ here s inv
  obtain ⟨inv', reply, kept⟩ := (serve _ here (mem s) s ⟨inv, rfl⟩).1 r s' run
  have word : r = .word (ByteMem.readWord (mem s) start.toNat) := reply
  subst word
  exact ⟨s', Prog.run_bind_ok run, inv', kept⟩

theorem CallsServe.writel_returns (serve : CallsServe call I mem may) (returns : CallsReturn call I may) {start val : Word}
    (here : may (.writel start val)) {s : σ} (inv : I s) : ∃ s', (callWritel call start val).run s = .ok () s' ∧ I s' := by
  obtain ⟨r, s', run⟩ := returns _ here s inv
  exact ⟨s', Prog.run_bind_ok run, ((serve _ here (mem s) s ⟨inv, rfl⟩).1 r s' run).1⟩

theorem siphonOut_loop_returns (serve : CallsServe call I mem may) (returns : CallsReturn call I may)
    (chunks : ∀ j < len, j % ahbChunk = 0 → may (.read (phys + BitVec.ofNat 32 j) (min (len - j) ahbChunk)))
    {inner fuel : Nat} {s : Siphon σ} (inv : I s.ahb) (works : s.fd.Works) (less : j < len) (aligned : j % ahbChunk = 0)
    (enough : len - j < fuel) (enough' : ahbChunk < inner) : ∃ s', (loop (siphonOutTurn (callOps call) inner) fuel
      (phys + BitVec.ofNat 32 j, ((len - j : Nat) : Int))).run s = .ok () s' := by
  induction fuel generalizing s j with
  | zero => exact absurd enough (Nat.not_lt_zero _)
  | succ fuel ih =>
    have count : siphonCount ((len - j : Nat) : Int) = min (len - j) ahbChunk := siphonCount_eq_min _
    obtain ⟨ahb, read, inv', _⟩ := serve.read_returns returns (chunks j less aligned) inv
    have ingress := orEio_ok (Siphon.onAhb_ok read)
    have short : (ByteMem.read (mem s.ahb) (phys + BitVec.ofNat 32 j).toNat (min (len - j) ahbChunk)).length < inner := by
      rw [ByteMem.read_length]
      omega
    obtain ⟨fd, write, _, same⟩ := Fd.writeAll_works works short
    have egress := Siphon.onFd_ok (s := { s with ahb := ahb }) write
    rw [loop, siphonOutTurn, count, bind_assoc, Prog.run_bind_ok ingress, bind_assoc, Prog.run_bind_ok egress,
      ByteMem.read_length, siphonLeft_natCast (Nat.min_le_left _ _)]
    by_cases last : len - j ≤ ahbChunk
    · rw [Nat.min_eq_left last, if_pos (by omega)]
      exact ⟨_, rfl⟩
    · have positive : 0 < ahbChunk := by decide
      obtain ⟨s', rest⟩ := ih (s := { s with ahb := ahb, fd := fd }) (j := j + ahbChunk) inv' (works.of_same same)
        (by omega) (by rw [Nat.add_mod_right, aligned]) (by omega)
      refine ⟨s', ?_⟩
      rw [Nat.min_eq_right (by omega), if_neg (by omega), BitVec.add_assoc, ← BitVec.ofNat_add, Nat.sub_sub]
      exact rest

/-- Where nothing fails it returns 0. -/
theorem ahbSiphonOut_returns (serve : CallsServe call I mem may) (returns : CallsReturn call I may)
    (chunks : ∀ j < len, j % ahbChunk = 0 → may (.read (phys + BitVec.ofNat 32 j) (min (len - j) ahbChunk)))
    {fuel : Nat} {s : Siphon σ} (inv : I s.ahb) (works : s.fd.Works) (memory : s.memory) (enough : len + ahbChunk < fuel) :
    ∃ s', (ahbSiphonOut (callOps call) fuel phys len).run s = .ok () s' := by
  rw [ahbSiphonOut]
  by_cases none : len = 0
  · subst none
    exact ⟨s, rfl⟩
  · rw [if_neg (by omega), Prog.run_bind_ok (siphonMalloc_ok memory)]
    have run : ∃ s', (loop (siphonOutTurn (callOps call) fuel) fuel
        (phys + BitVec.ofNat 32 0, ((len - 0 : Nat) : Int))).run s = .ok () s' :=
      siphonOut_loop_returns serve returns chunks inv works (by omega) (Nat.zero_mod _) (by omega) (by omega)
    rw [BitVec.add_zero, Nat.sub_zero] at run
    exact run

end

theorem CallsServe.write_returns (serve : CallsServe call I mem may) (returns : CallsReturn call I may) {start : Word}
    {bs : List Byte} (here : may (.write start bs)) {s : σ} (inv : I s) :
    ∃ s', ((callOps call).write start bs).run s = .ok () s' ∧ I s' := by
  obtain ⟨r, s', run⟩ := returns _ here s inv
  exact ⟨s', Prog.run_bind_ok run, ((serve _ here (mem s) s ⟨inv, rfl⟩).1 r s' run).1⟩

theorem siphonIn_loop_returns (serve : CallsServe call I mem may) (returns : CallsReturn call I may)
    (may_all : ∀ start bs, bs ≠ [] → (MemOp.write start bs).InRange → may (.write start bs)) {fuel : Nat} {s : Siphon σ}
    {phys : Word} {len : Int} (inv : I s.ahb) (works : s.fd.Works) (bound : -1 ≤ len)
    (range : phys.toNat + siphonWanted len s.fd.bytes ≤ 2 ^ 32) (enough : s.fd.bytes.length < fuel) :
    ∃ s', (loop (siphonInTurn (callOps call)) fuel (phys, len)).run s = .ok () s' := by
  induction fuel generalizing s phys len with
  | zero => exact absurd enough (Nat.not_lt_zero _)
  | succ fuel ih =>
    obtain ⟨n, fd, read, asked, there, none, bytes, same⟩ := Fd.read_works works (siphonCount len)
    have ingress := Siphon.onFd_ok read
    have length : (s.fd.bytes.take n).length = n := List.length_take_of_le there
    rw [loop, siphonInTurn, bind_assoc, Prog.run_bind_ok ingress]
    by_cases ended : n = 0
    · subst ended
      exact ⟨_, rfl⟩
    · have le := le_wanted bound asked there
      have some : s.fd.bytes.take n ≠ [] := fun nil => by
        rw [nil] at length
        exact ended length.symm
      have inRange : (MemOp.write phys (s.fd.bytes.take n)).InRange := by
        simp only [MemOp.InRange, MemOp.addr, MemOp.len]
        omega
      obtain ⟨ahb, write, inv'⟩ := serve.write_returns returns (may_all phys _ some inRange) inv
      have egress := orEio_ok (Siphon.onAhb_ok (s := { s with fd := fd }) write)
      obtain ⟨wanted, bound'⟩ := wanted_left bound le
      rw [← bytes] at wanted
      have next : (phys + BitVec.ofNat 32 n).toNat + (siphonWanted len s.fd.bytes - n) ≤ 2 ^ 32 := by
        by_cases last : n = siphonWanted len s.fd.bytes
        · have := (phys + BitVec.ofNat 32 n).isLt
          omega
        · have near : (phys + BitVec.ofNat 32 n).toNat = phys.toNat + n := Word.toNat_add_ofNat (by omega)
          omega
      obtain ⟨s', rest⟩ := ih (s := { s with fd := fd, ahb := ahb }) inv' (works.of_same same) bound'
        (by rw [wanted]; exact next) (by rw [bytes, List.length_drop]; omega)
      refine ⟨s', ?_⟩
      rw [if_neg some, bind_assoc, Prog.run_bind_ok egress, length]
      exact rest

/-- Siphoning out changes nothing and writes the start of the region, all of it where it returns 0. -/
def SiphonsOut (call : MemOp → Prog σ MemReply) (mem : σ → Mem) (s : Siphon σ) (phys : Word) (len fuel : Nat) : Prop :=
  (∀ s', (ahbSiphonOut (callOps call) fuel phys len).run s = .ok () s' →
    s'.fd.bytes = s.fd.bytes ++ ByteMem.read (mem s.ahb) phys.toNat len ∧ mem s'.ahb = mem s.ahb) ∧
  ∀ e s', (ahbSiphonOut (callOps call) fuel phys len).run s = .error e s' →
    ∃ k ≤ len, s'.fd.bytes = s.fd.bytes ++ ByteMem.read (mem s.ahb) phys.toNat k ∧ mem s'.ahb = mem s.ahb

theorem CallsServe.siphons {s : Siphon σ} {phys : Word} {len : Nat} (serve : CallsServe call I mem may) (inv : I s.ahb)
    (range : phys.toNat + len ≤ 2 ^ 32)
    (chunks : ∀ j < len, j % ahbChunk = 0 → may (.read (phys + BitVec.ofNat 32 j) (min (len - j) ahbChunk)))
    (fuel : Nat) : SiphonsOut call mem s phys len fuel := by
  have start : Emitted I mem (mem s.ahb) phys s.fd.bytes 0 s := ⟨inv, rfl, (List.append_nil _).symm⟩
  obtain ⟨good, bad⟩ := ahbSiphonOut_emits_part serve range chunks fuel s start
  refine ⟨fun s' run => ?_, fun e s' run => ?_⟩
  · have emitted := good () s' run
    exact ⟨emitted.bytes, emitted.kept⟩
  · obtain ⟨k, le, emitted⟩ := bad e s' run
    exact ⟨k, le, emitted.bytes, emitted.kept⟩

section
variable {phys : Word} {len : Int} {stream : List Byte} {j k : Nat}

/-- The first `j` bytes of the stream are stored from `phys` on, the first `k` have been read. -/
structure Stored (I : σ → Prop) (mem : σ → Mem) (m : Mem) (phys : Word) (stream : List Byte) (j k : Nat) (s : Siphon σ) :
    Prop where
  inv : I s.ahb
  there : mem s.ahb = ByteMem.write m phys.toNat (stream.take j)
  left : s.fd.bytes = stream.drop k

/-- It was stopped on the way. -/
def StoredPart (I : σ → Prop) (mem : σ → Mem) (m : Mem) (phys : Word) (stream : List Byte) (n : Nat) (s : Siphon σ) : Prop :=
  ∃ j k, j ≤ k ∧ k ≤ n ∧ Stored I mem m phys stream j k s

/-- Before a turn. -/
def Storing (I : σ → Prop) (mem : σ → Mem) (m : Mem) (phys : Word) (stream : List Byte) (len : Int) (a : Word × Int)
    (s : Siphon σ) : Prop :=
  ∃ j ≤ siphonWanted len stream, a.1 = phys + BitVec.ofNat 32 j ∧ -1 ≤ a.2 ∧
    siphonWanted a.2 (stream.drop j) = siphonWanted len stream - j ∧ Stored I mem m phys stream j j s

theorem siphonWanted_le (len : Int) (stream : List Byte) : siphonWanted len stream ≤ stream.length := by
  rw [siphonWanted]
  split
  · exact Nat.le_refl _
  · exact Nat.min_le_right _ _

theorem writeInRange_chunks {n : Nat} (range : phys.toNat + n ≤ 2 ^ 32) :
    ∀ j bs, bs ≠ [] → j + bs.length ≤ n → (MemOp.write (phys + BitVec.ofNat 32 j) bs).InRange := by
  intro j bs some le
  have positive : 0 < bs.length := List.length_pos_iff.mpr some
  simp only [MemOp.InRange, MemOp.addr, MemOp.len]
  rw [Word.toNat_add_ofNat (by omega)]
  omega

/-- One chunk. -/
theorem siphonInTurn_stores (serve : CallsServe call I mem may)
    (range : phys.toNat + siphonWanted len stream ≤ 2 ^ 32)
    (chunks : ∀ j bs, bs ≠ [] → j + bs.length ≤ siphonWanted len stream → may (.write (phys + BitVec.ofNat 32 j) bs))
    (a : Word × Int) : Triple (Storing I mem m phys stream len a) (siphonInTurn (callOps call) a)
      (fun (r : (Word × Int) ⊕ Unit) s => r.elim (Storing I mem m phys stream len · s)
        fun _ => Stored I mem m phys stream (siphonWanted len stream) (siphonWanted len stream) s)
      fun _ => StoredPart I mem m phys stream (siphonWanted len stream) := by
  obtain ⟨start, left⟩ := a
  rintro s ⟨j, le, rfl, bound, wanted, stored⟩
  replace bound : -1 ≤ left := bound
  replace wanted : siphonWanted left (stream.drop j) = siphonWanted len stream - j := wanted
  have read := onFd_triple (@Fd.read_outcome (stream.drop j) (siphonCount left)) fun ahb => I ahb ∧
    mem ahb = ByteMem.write m phys.toNat (stream.take j)
  have longer := siphonWanted_le len stream
  rw [siphonInTurn]
  refine ((read.conseq (fun _ pre => pre) (fun _ _ post => post) fun _ t stopped =>
    (⟨j, j, Nat.le_refl j, le, stopped.2.1, stopped.2.2, stopped.1⟩ :
      StoredPart I mem m phys stream (siphonWanted len stream) t)).bind fun chunk => ?_) s
    ⟨stored.left, stored.inv, stored.there⟩
  rintro t ⟨⟨split, asked, ends⟩, inv, there⟩
  have total : chunk.length + t.fd.bytes.length = stream.length - j := by
    rw [← List.length_append, split, List.length_drop]
  by_cases none : chunk = []
  · subst none
    rw [if_pos rfl]
    have zero : siphonWanted left (stream.drop j) = 0 := wanted_eq_zero bound (ends rfl)
    have whole : j = siphonWanted len stream := by omega
    rw [List.nil_append] at split
    subst whole
    exact Triple.pure (fun _ post => post) t ⟨inv, there, split⟩
  · have positive : 0 < chunk.length := List.length_pos_iff.mpr none
    have fit : chunk.length ≤ siphonWanted left (stream.drop j) :=
      le_wanted bound asked (by rw [List.length_drop]; omega)
    obtain ⟨next, bound'⟩ := wanted_left bound fit
    rw [List.drop_drop] at next
    have here := chunks j chunk none (by omega)
    have place : (phys + BitVec.ofNat 32 j).toNat = phys.toNat + j := Word.toNat_add_ofNat (by omega)
    have front : chunk = (stream.drop j).take chunk.length := by rw [← split, List.take_left]
    have rest : t.fd.bytes = stream.drop (j + chunk.length) := by
      rw [← List.drop_drop, ← split, List.drop_left]
    have after : ByteMem.write (ByteMem.write m phys.toNat (stream.take j)) (phys.toNat + j) chunk =
        ByteMem.write m phys.toNat (stream.take (j + chunk.length)) := by
      rw [List.take_add, ByteMem.write_append, List.length_take_of_le (by omega), ← front]
    have write := orEio_triple (onAhb_triple (serve.write here (m := ByteMem.write m phys.toNat (stream.take j))) (· = t.fd))
    rw [place, after] at write
    rw [if_neg none]
    refine ((write.conseq (fun _ pre => pre) (fun _ _ post => post) fun _ u stopped =>
      (⟨j, j + chunk.length, Nat.le_add_right _ _, by omega, stopped.1.1, stopped.1.2, by rw [stopped.2, rest]⟩ :
        StoredPart I mem m phys stream (siphonWanted len stream) u)).bind fun _ => ?_) t ⟨⟨inv, there⟩, rfl⟩
    refine Triple.pure fun u post => ?_
    obtain ⟨⟨inv', there'⟩, fd⟩ := post
    refine ⟨j + chunk.length, by omega, ?_, bound', ?_, inv', there', by rw [fd, rest]⟩
    · rw [BitVec.add_assoc, ← BitVec.ofNat_add]
    · rw [next]
      omega

/-- What has been stored is the start of the stream, and all that is wanted of it once 0 is returned. -/
theorem ahbSiphonIn_stores_part (serve : CallsServe call I mem may) (bound : -1 ≤ len)
    (range : phys.toNat + siphonWanted len stream ≤ 2 ^ 32)
    (chunks : ∀ j bs, bs ≠ [] → j + bs.length ≤ siphonWanted len stream → may (.write (phys + BitVec.ofNat 32 j) bs))
    (fuel : Nat) : Triple (Stored I mem m phys stream 0 0) (ahbSiphonIn (callOps call) fuel phys len)
      (fun _ => Stored I mem m phys stream (siphonWanted len stream) (siphonWanted len stream))
      fun _ => StoredPart I mem m phys stream (siphonWanted len stream) := by
  rw [ahbSiphonIn]
  have allocated := (siphonMalloc_triple (Stored I mem m phys stream 0 0) eperm).conseq (fun _ pre => pre)
    (fun _ _ post => post) fun _ _ stopped => (⟨0, 0, Nat.le_refl 0, Nat.zero_le _, stopped⟩ :
      StoredPart I mem m phys stream (siphonWanted len stream) _)
  have moves := Triple.loop (Storing I mem m phys stream len) (siphonInTurn_stores serve range chunks)
    (fun a s going => by
      obtain ⟨j, le, _, _, _, stored⟩ := going
      exact ⟨j, j, Nat.le_refl j, le, stored⟩) fuel (phys, len)
  refine allocated.bind fun _ => moves.conseq (fun s stored => ?_) (fun _ _ post => post) fun _ _ stopped => stopped
  exact ⟨0, Nat.zero_le _, (BitVec.add_zero phys).symm, bound, by rw [List.drop_zero, Nat.sub_zero], stored⟩

end

/-- Calls that succeed from the states of `J`, and are served from any of `I`, are served and return from those. -/
theorem CallsServe.of_succeeds {J : σ → Prop} (serve : CallsServe call I mem may) (imp : ∀ s, J s → I s)
    (succeeds : ∀ op, may op → Succeeds J (call op)) : CallsServe call J mem may ∧ CallsReturn call J may := by
  refine ⟨fun op here m s start => ?_, fun op here s inv => ?_⟩
  · obtain ⟨r, s', run, inv⟩ := succeeds op here s start.1
    refine ⟨fun r' t ok => ?_, fun e t error => ?_⟩
    · have step := ((serve op here m s ⟨imp s start.1, start.2⟩).1 r' t ok).2
      rw [run] at ok
      cases ok
      exact ⟨inv, step⟩
    · rw [run] at error
      cases error
  · obtain ⟨r, s', run, _⟩ := succeeds op here s inv
    exact ⟨r, s', run⟩

end

end Culvert
