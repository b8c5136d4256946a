import Culvert.Lib.Bits
import Culvert.Lib.CInt
import Culvert.Lib.Takes
import Culvert.Uart.Suart

/-! The divisor that `suart_set_baud` programs. -/

namespace Culvert

open Prog Faulty

def uartLcrDlab : Byte := 1 <<< 7

/-- `baud_to_divisor`, on any `int`. -/
def baudDivisor {σ : Type} (baud : Int) : Prog σ (BitVec 16) := do
  let clocks ← CInt.mul 16 baud
  let divisor ← CInt.div (24000000 / 13) clocks
  return BitVec.ofInt 16 divisor

/-- The error state that the last access may find is only logged. -/
def suartSetBaud {σ : Type} (io : Lpc σ) (ctx : Suart) (rate : Word) : Prog σ Suart := do
  let lcr ← io.readb (ctx.base.toNat + uartLcr)
  io.writeb (ctx.base.toNat + uartLcr) (lcr ||| uartLcrDlab)
  let divisor ← baudDivisor rate.toInt
  io.writeb (ctx.base.toNat + uartDlh) (divisor.extractLsb' 8 8)
  io.writeb (ctx.base.toNat + uartDll) (divisor.setWidth 8)
  io.writeb (ctx.base.toNat + uartLcr) (lcr &&& ~~~uartLcrDlab)
  io.writeb (ctx.base.toNat + uartFcr) 0x07
  let _lsr ← io.readb (ctx.base.toNat + uartLsr)
  return { ctx with baud := rate.setWidth 16 }

/-- The divisor latch and the register that opens it. -/
structure UartLatch where
  dll : Byte
  dlh : Byte
  lcr : Byte
  lsr : Byte

namespace UartLatch

def read (base p : Nat) (u : UartLatch) : Byte :=
  if p = base + uartLcr then u.lcr else if p = base + uartLsr then u.lsr else 0xff

/-- The first two ports are the latch while DLAB is set, and THR and IER otherwise. -/
def write (base p : Nat) (v : Byte) (u : UartLatch) : UartLatch :=
  if p = base + uartLcr then { u with lcr := v }
  else if u.lcr &&& uartLcrDlab = 0 then u
  else if p = base + uartDll then { u with dll := v }
  else if p = base + uartDlh then { u with dlh := v }
  else u

end UartLatch

/-- Any access may fail. -/
def latchLpc (base : Nat) : Lpc (Faulty UartLatch) where
  readb p := Faulty.access fun u => (u.read base p, u)
  writeb p v := Faulty.access fun u => ((), u.write base p v)

/-- Either an error that left the latch and LCR as they were, or the divisor of the rate, LCR with DLAB clear, and the
rate recorded. -/
structure BaudSet (rate : Word) (u : UartLatch) (r : EStateM.Result Stop (Faulty UartLatch) Suart) : Prop where
  defined : ∀ s', r ≠ .error .fault s'
  refused : ∀ e s', r = .error (.rc e) s' → s'.dev.dll = u.dll ∧ s'.dev.dlh = u.dlh ∧ s'.dev.lcr = u.lcr
  programmed : ∀ ctx s', r = .ok ctx s' →
    (∃ d : Nat, 1 ≤ d ∧ d ≤ 65535 ∧ (d : Int) = ⌊(24000000 / 13 : ℚ) / (16 * rate.toInt)⌋ ∧
      s'.dev.dlh ++ s'.dev.dll = BitVec.ofNat 16 d) ∧
    s'.dev.lcr = u.lcr &&& ~~~uartLcrDlab ∧ (ctx.baud.toNat : Int) = rate.toInt

/-- The divisor can be worked out. -/
def BaudDefined (rate : Int) : Prop := rate ≠ 0 ∧ -2 ^ 27 ≤ rate ∧ rate < 2 ^ 27

/-- What is programmed for a rate. -/
def divisorOf (rate : Int) : BitVec 16 := BitVec.ofInt 16 (Int.tdiv 1846153 (16 * rate))

/-- The registers written before the access with this number already held what was written to them. -/
structure Untouched (rate : Int) (u : UartLatch) (k : Nat) : Prop where
  opened : k < 5 → u.lcr &&& uartLcrDlab ≠ 0
  dlh : 2 < k → u.dlh = (divisorOf rate).extractLsb' 8 8
  dll : 3 < k → u.dll = (divisorOf rate).setWidth 8
  closed : 4 < k → u.lcr &&& uartLcrDlab = 0

/-- After the two accesses that open the latch: the divisor is one, the rate fits, and a later access that fails finds
nothing changed yet. -/
structure BaudAccepts (rate : Int) (s : Faulty UartLatch) : Prop where
  defined : BaudDefined rate
  fits : s.Clear 7 → 2 ≤ rate ∧ rate ≤ 65535
  untouched : ∀ k, 2 ≤ k → k < 7 → s.FirstFails k → Untouched rate s.dev k

section
variable {σ : Type} {rate : Int}

theorem baudDivisor_defined (defined : BaudDefined rate) : (baudDivisor rate : Prog σ (BitVec 16)) = pure (divisorOf rate) := by
  obtain ⟨some, low, high⟩ := defined
  have clocks : (CInt.mul 16 rate : Prog σ Int) = pure (16 * rate) := CInt.ofInt_fits ⟨by omega, by omega⟩
  have quotient : CInt.Fits (Int.tdiv 1846153 (16 * rate)) := by
    have size : (Int.tdiv 1846153 (16 * rate)).natAbs = 1846153 / (16 * rate).natAbs := Int.natAbs_tdiv _ _
    have le : 1846153 / (16 * rate).natAbs ≤ 1846153 := Nat.div_le_self _ _
    exact ⟨by omega, by omega⟩
  have divided : (CInt.div (24000000 / 13) (16 * rate) : Prog σ Int) = pure (Int.tdiv 1846153 (16 * rate)) := by
    rw [CInt.div, if_neg (by omega)]
    exact CInt.ofInt_fits quotient
  rw [baudDivisor, clocks, pure_bind, divided, pure_bind, divisorOf]

theorem baudDivisor_undefined (undefined' : ¬ BaudDefined rate) : (baudDivisor rate : Prog σ (BitVec 16)) = throw .fault := by
  by_cases zero : rate = 0
  · rw [zero]
    rfl
  · have large : ¬ CInt.Fits (16 * rate) := fun fits => undefined' ⟨zero, by have := fits.1; omega, by have := fits.2; omega⟩
    rw [baudDivisor, CInt.mul, CInt.ofInt, if_neg large]
    rfl

end

/-! ## The run -/

section
variable {ctx : Suart} {rate : Word} {s : Faulty UartLatch}

/-- The latch is open. -/
def opened (u : UartLatch) : UartLatch := { u with lcr := u.lcr ||| uartLcrDlab }

/-- The first two accesses. -/
theorem open_takes (base : Nat) (u : UartLatch) : Takes (· = u) u (do
      let lcr ← (latchLpc base).readb (base + uartLcr)
      (latchLpc base).writeb (base + uartLcr) (lcr ||| uartLcrDlab)
      return lcr) 2 u.lcr (opened u) := by
  have read := Takes.access (I := (· = u)) (fun u' : UartLatch => (u'.read base (base + uartLcr), u')) (d := u) rfl
  have write := Takes.access (I := (· = u)) (fun u' : UartLatch => ((), u'.write base (base + uartLcr) (u.lcr ||| uartLcrDlab)))
    (d := u) rfl
  have value : u.read base (base + uartLcr) = u.lcr := if_pos rfl
  have state : u.write base (base + uartLcr) (u.lcr ||| uartLcrDlab) = opened u := if_pos rfl
  simp only [value] at read
  simp only [state] at write
  exact read.bind (f := fun lcr => do
    (latchLpc base).writeb (base + uartLcr) (lcr ||| uartLcrDlab)
    return lcr) (write.bind (f := fun _ => pure u.lcr) (Takes.pure u.lcr))

/-- The writes once the divisor is worked out. -/
def baudWrites (base : Nat) (lcr : Byte) (divisor : BitVec 16) : List (UartLatch → UartLatch) :=
  [fun u => u.write base (base + uartDlh) (divisor.extractLsb' 8 8), fun u => u.write base (base + uartDll) (divisor.setWidth 8),
    fun u => u.write base (base + uartLcr) (lcr &&& ~~~uartLcrDlab), fun u => u.write base (base + uartFcr) 0x07]

/-- What the call does after the two accesses. -/
def baudRest (ctx : Suart) (rate : Word) (lcr : Byte) : Prog (Faulty UartLatch) Suart := do
  let divisor ← baudDivisor rate.toInt
  each (baudWrites ctx.base.toNat lcr divisor)
  let _lsr ← (latchLpc ctx.base.toNat).readb (ctx.base.toNat + uartLsr)
  return { ctx with baud := rate.setWidth 16 }

theorem suartSetBaud_run (ctx : Suart) (rate : Word) (s : Faulty UartLatch) :
    (s.Clear 2 → (suartSetBaud (latchLpc ctx.base.toNat) ctx rate).run s =
      (baudRest ctx rate s.dev.lcr).run (s.after 2 (opened s.dev))) ∧
    (¬ s.Clear 2 → ∃ e s', (suartSetBaud (latchLpc ctx.base.toNat) ctx rate).run s = .error (.rc e) s' ∧ s'.dev = s.dev) := by
  have same : suartSetBaud (latchLpc ctx.base.toNat) ctx rate = (do
      let lcr ← (latchLpc ctx.base.toNat).readb (ctx.base.toNat + uartLcr)
      (latchLpc ctx.base.toNat).writeb (ctx.base.toNat + uartLcr) (lcr ||| uartLcrDlab)
      return lcr) >>= baudRest ctx rate := by
    simp only [suartSetBaud, baudRest, baudWrites, each, bind_assoc, pure_bind]
    rfl
  have takes := open_takes ctx.base.toNat s.dev
  rw [same]
  refine ⟨fun clear => run_bind_ok (takes.clear s rfl clear), fun fails => ?_⟩
  rcases clear_or_firstFails s 2 with clear | ⟨k, lt, first⟩
  · exact absurd clear fails
  · obtain ⟨e, mid, here, run⟩ := takes.failed s k rfl lt first
    exact ⟨e, _, run_bind_error run, here⟩

theorem write_dlh {base : Nat} {u : UartLatch} {v : Byte} (latched : u.lcr &&& uartLcrDlab ≠ 0) :
    u.write base (base + uartDlh) v = { u with dlh := v } := by
  rw [UartLatch.write, if_neg (by simp [uartDlh, uartLcr]), if_neg latched, if_neg (by simp [uartDlh, uartDll]), if_pos rfl]

theorem write_dll {base : Nat} {u : UartLatch} {v : Byte} (latched : u.lcr &&& uartLcrDlab ≠ 0) :
    u.write base (base + uartDll) v = { u with dll := v } := by
  rw [UartLatch.write, if_neg (by simp [uartDll, uartLcr]), if_neg latched, if_pos rfl]

theorem write_lcr {base : Nat} {u : UartLatch} {v : Byte} : u.write base (base + uartLcr) v = { u with lcr := v } := if_pos rfl

theorem write_fcr {base : Nat} {u : UartLatch} {v : Byte} (plain : u.lcr &&& uartLcrDlab = 0) :
    u.write base (base + uartFcr) v = u := by
  rw [UartLatch.write, if_neg (by simp [uartFcr, uartLcr]), if_pos plain]

theorem dlab_set (lcr : Byte) : (lcr ||| uartLcrDlab) &&& uartLcrDlab ≠ 0 := by
  rw [BitVec.or_and_self_right]
  decide

/-- The device after so many of the writes. -/
def latchAfter (u : UartLatch) (divisor : BitVec 16) (k : Nat) : UartLatch :=
  { u with
    dlh := if 0 < k then divisor.extractLsb' 8 8 else u.dlh
    dll := if 1 < k then divisor.setWidth 8 else u.dll
    lcr := if 2 < k then u.lcr &&& ~~~uartLcrDlab else u.lcr ||| uartLcrDlab }

theorem baudWrites_foldl (base : Nat) (u : UartLatch) (divisor : BitVec 16) (k : Nat) :
    ((baudWrites base u.lcr divisor).take k).foldl (fun d f => f d) (opened u) = latchAfter u divisor k := by
  have first : (opened u).write base (base + uartDlh) (divisor.extractLsb' 8 8) = latchAfter u divisor 1 :=
    write_dlh (dlab_set u.lcr)
  have second : (latchAfter u divisor 1).write base (base + uartDll) (divisor.setWidth 8) = latchAfter u divisor 2 :=
    write_dll (dlab_set u.lcr)
  have third : (latchAfter u divisor 2).write base (base + uartLcr) (u.lcr &&& ~~~uartLcrDlab) = latchAfter u divisor 3 :=
    write_lcr
  have fourth : (latchAfter u divisor 3).write base (base + uartFcr) 0x07 = latchAfter u divisor 4 :=
    write_fcr (BitVec.and_not_and_self u.lcr uartLcrDlab)
  rcases k with _ | _ | _ | _ | k
  · rfl
  · exact first
  · show ((opened u).write base (base + uartDlh) (divisor.extractLsb' 8 8)).write base (base + uartDll) (divisor.setWidth 8) = _
    rw [first, second]
  · show (((opened u).write base (base + uartDlh) (divisor.extractLsb' 8 8)).write base (base + uartDll)
      (divisor.setWidth 8)).write base (base + uartLcr) (u.lcr &&& ~~~uartLcrDlab) = _
    rw [first, second, third]
  · rw [List.take_of_length_le (by simp [baudWrites])]
    show ((((opened u).write base (base + uartDlh) (divisor.extractLsb' 8 8)).write base (base + uartDll)
      (divisor.setWidth 8)).write base (base + uartLcr) (u.lcr &&& ~~~uartLcrDlab)).write base (base + uartFcr) 0x07 = _
    rw [first, second, third, fourth]
    rfl

/-- What comes of the rest. -/
theorem baudRest_run (ctx : Suart) (rate : Word) (u : UartLatch) {s : Faulty UartLatch} (here : s.dev = opened u)
    (defined : BaudDefined rate.toInt) :
    (s.Clear 5 → (baudRest ctx rate u.lcr).run s = .ok { ctx with baud := rate.setWidth 16 }
      (s.after 5 (latchAfter u (divisorOf rate.toInt) 4))) ∧
    ∀ k < 5, s.FirstFails k → ∃ e s', (baudRest ctx rate u.lcr).run s = .error (.rc e) s' ∧
      s'.dev = latchAfter u (divisorOf rate.toInt) k := by
  have length : (baudWrites ctx.base.toNat u.lcr (divisorOf rate.toInt)).length = 4 := rfl
  have written := baudWrites_foldl ctx.base.toNat u (divisorOf rate.toInt)
  have writes (clear : s.Clear 4) : (each (baudWrites ctx.base.toNat u.lcr (divisorOf rate.toInt))).run s =
      .ok () (s.after 4 (latchAfter u (divisorOf rate.toInt) 4)) := by
    have run := @each_clear UartLatch (baudWrites ctx.base.toNat u.lcr (divisorOf rate.toInt)) s clear
    rw [here, ← List.take_length (l := baudWrites _ _ _), written, List.take_length] at run
    exact run
  have body : baudRest ctx rate u.lcr = (do
      each (baudWrites ctx.base.toNat u.lcr (divisorOf rate.toInt))
      let _lsr ← (latchLpc ctx.base.toNat).readb (ctx.base.toNat + uartLsr)
      return { ctx with baud := rate.setWidth 16 }) := by
    rw [baudRest, baudDivisor_defined defined, pure_bind]
  rw [body]
  refine ⟨fun clear => ?_, fun k lt fails => ?_⟩
  · have parts := (clear_add (n := 4) (m := 1) (d := latchAfter u (divisorOf rate.toInt) 4)).mp clear
    have read := (Takes.access (I := fun _ => True) (fun u' : UartLatch =>
      (u'.read ctx.base.toNat (ctx.base.toNat + uartLsr), u')) trivial).clear (s.after 4 _) rfl parts.2
    rw [run_bind_ok (writes parts.1)]
    exact run_bind_ok read
  · by_cases early : k < 4
    · obtain ⟨e, run⟩ := @each_failed UartLatch (baudWrites ctx.base.toNat u.lcr (divisorOf rate.toInt)) s k early fails
      rw [here, written] at run
      exact ⟨e, _, run_bind_error run, rfl⟩
    · obtain rfl : k = 4 := by omega
      obtain ⟨e, run⟩ := access_first_fails (f := fun u' : UartLatch =>
        (u'.read ctx.base.toNat (ctx.base.toNat + uartLsr), u'))
        (FirstFails.shift (n := 4) (k := 0) (d := latchAfter u (divisorOf rate.toInt) 4) fails)
      refine ⟨e, (s.after 4 (latchAfter u (divisorOf rate.toInt) 4)).after 1 (latchAfter u (divisorOf rate.toInt) 4), ?_, rfl⟩
      rw [run_bind_ok (writes (fails.1.mono (by omega)))]
      exact run_bind_error run

/-- What the latch is while nothing has changed. -/
theorem latchAfter_same_iff {rate : Int} {u : UartLatch} {k : Nat} :
    ((latchAfter u (divisorOf rate) k).dll = u.dll ∧ (latchAfter u (divisorOf rate) k).dlh = u.dlh ∧
      (latchAfter u (divisorOf rate) k).lcr = u.lcr) ↔ Untouched rate u (k + 2) := by
  have set : ∀ lcr : Byte, lcr ||| uartLcrDlab = lcr ↔ lcr &&& uartLcrDlab ≠ 0 := by decide
  have clear : ∀ lcr : Byte, lcr &&& ~~~uartLcrDlab = lcr ↔ lcr &&& uartLcrDlab = 0 := by decide
  constructor
  · rintro ⟨dll, dlh, lcr⟩
    refine ⟨fun lt => ?_, fun lt => ?_, fun lt => ?_, fun lt => ?_⟩
    · exact (set _).mp ((if_neg (by omega)).symm.trans lcr)
    · exact dlh.symm.trans (if_pos (by omega))
    · exact dll.symm.trans (if_pos (by omega))
    · exact (clear _).mp ((if_pos (by omega)).symm.trans lcr)
  · rintro ⟨still, dlh, dll, closed⟩
    refine ⟨?_, ?_, ?_⟩
    · by_cases lt : 1 < k
      · exact (if_pos lt).trans (dll (by omega)).symm
      · exact if_neg lt
    · by_cases lt : 0 < k
      · exact (if_pos lt).trans (dlh (by omega)).symm
      · exact if_neg lt
    · by_cases lt : 2 < k
      · exact (if_pos lt).trans ((clear _).mpr (closed (by omega)))
      · exact (if_neg lt).trans ((set _).mpr (still (by omega)))

end

/-! ## The divisor of a rate -/

theorem floor_divisor (n : Nat) : ⌊(24000000 / 13 : ℚ) / (16 * (n : ℤ))⌋ = ((1846153 / (16 * n) : Nat) : ℤ) := by
  have whole : (24000000 / 13 : ℚ) / (16 * (n : ℤ)) = ((24000000 : ℤ) : ℚ) / ((13 * (16 * n) : Nat) : ℚ) := by
    push_cast
    rw [div_div]
  have chain : 24000000 / (13 * (16 * n)) = 1846153 / (16 * n) := by
    rw [← Nat.div_div_eq_div_mul]
  rw [whole, Rat.floor_intCast_div_natCast, ← chain]
  norm_cast

theorem divisorOf_nat (n : Nat) : divisorOf n = BitVec.ofNat 16 (1846153 / (16 * n)) := by
  have quotient : Int.tdiv 1846153 (16 * (n : Int)) = ((1846153 / (16 * n) : Nat) : Int) := (Int.ofNat_tdiv 1846153 (16 * n)).symm
  rw [divisorOf, quotient, BitVec.ofInt_natCast]

/-- A rate has a divisor of 16 bits and fits in 16 bits itself. -/
theorem divisor_iff {rate : Word} (defined : BaudDefined rate.toInt) :
    ((∃ d : Nat, 1 ≤ d ∧ d ≤ 65535 ∧ (d : Int) = ⌊(24000000 / 13 : ℚ) / (16 * rate.toInt)⌋ ∧
      divisorOf rate.toInt = BitVec.ofNat 16 d) ∧ ((rate.setWidth 16).toNat : Int) = rate.toInt) ↔
      2 ≤ rate.toInt ∧ rate.toInt ≤ 65535 := by
  obtain ⟨some, _, _⟩ := defined
  have cut : (rate.setWidth 16).toNat < 65536 := (rate.setWidth 16).isLt
  constructor
  · rintro ⟨⟨d, one, small, floor, _⟩, kept⟩
    refine ⟨?_, by omega⟩
    rw [← kept, floor_divisor] at floor
    have quotient : d = 1846153 / (16 * (rate.setWidth 16).toNat) := by exact_mod_cast floor
    by_contra less
    have unit : (rate.setWidth 16).toNat = 1 := by omega
    rw [unit] at quotient
    omega
  · rintro ⟨low, high⟩
    obtain ⟨n, nat⟩ : ∃ n : Nat, rate.toInt = n := ⟨rate.toInt.toNat, by omega⟩
    have width : rate.toNat = n := by
      rw [BitVec.toInt_eq_toNat_cond] at nat
      have := rate.isLt
      split at nat <;> omega
    have floor := floor_divisor n
    have divisor := divisorOf_nat n
    rw [nat] at low high ⊢
    have least : 1 ≤ 1846153 / (16 * n) := (Nat.le_div_iff_mul_le (by omega)).mpr (by omega)
    have most : 1846153 / (16 * n) < 65536 := Nat.div_lt_of_lt_mul (by omega)
    refine ⟨⟨1846153 / (16 * n), least, by omega, floor.symm, divisor⟩, ?_⟩
    rw [BitVec.toNat_setWidth, width, Nat.mod_eq_of_lt (by omega)]

theorem latch_bytes (divisor : BitVec 16) : divisor.extractLsb' 8 8 ++ divisor.setWidth 8 = divisor := by
  ext i inside
  simp only [BitVec.getElem_append, BitVec.getElem_setWidth, BitVec.getElem_extractLsb']
  split
  · rw [BitVec.getLsbD_eq_getElem]
  · rw [show 8 + (i - 8) = i by omega, BitVec.getLsbD_eq_getElem]

/-- Where all accesses go through, what is programmed decides. -/
theorem baudSet_done_iff {ctx : Suart} {rate : Word} {u : UartLatch} {s : Faulty UartLatch} (defined : BaudDefined rate.toInt)
    (here : s.dev = latchAfter u (divisorOf rate.toInt) 4) :
    BaudSet rate u (.ok { ctx with baud := rate.setWidth 16 } s) ↔ 2 ≤ rate.toInt ∧ rate.toInt ≤ 65535 := by
  have latch : s.dev.dlh ++ s.dev.dll = divisorOf rate.toInt := by
    rw [here]
    exact latch_bytes (divisorOf rate.toInt)
  rw [← divisor_iff defined]
  constructor
  · intro set
    obtain ⟨divisor, _, baud⟩ := set.programmed _ s rfl
    rw [latch] at divisor
    exact ⟨divisor, baud⟩
  · rintro ⟨divisor, baud⟩
    refine ⟨by simp, by simp, fun ctx' s' ok => ?_⟩
    cases ok
    rw [latch]
    refine ⟨divisor, ?_, baud⟩
    rw [here]
    rfl

theorem baudSet_failed_iff {rate : Word} {u : UartLatch} {s : Faulty UartLatch} {e : Errno} {k : Nat}
    (here : s.dev = latchAfter u (divisorOf rate.toInt) k) :
    BaudSet rate u (.error (.rc e) s) ↔ Untouched rate.toInt u (k + 2) := by
  rw [← latchAfter_same_iff, ← here]
  constructor
  · intro set
    exact set.refused e s rfl
  · intro same
    refine ⟨by simp, fun e' s' failed => ?_, by simp⟩
    cases failed
    exact same

/-- A rate is set, or refused with the latch as it was, exactly if one of the accesses that open the latch fails or
what comes behind them accepts the rate. -/
theorem baudSet_iff (ctx : Suart) (rate : Word) (s : Faulty UartLatch) :
    BaudSet rate s.dev ((suartSetBaud (latchLpc ctx.base.toNat) ctx rate).run s) ↔
      (s.Clear 2 → BaudAccepts rate.toInt s) := by
  obtain ⟨through, stopped⟩ := suartSetBaud_run ctx rate s
  by_cases clear : s.Clear 2
  · rw [through clear]
    simp only [clear, true_imp_iff]
    by_cases defined : BaudDefined rate.toInt
    · obtain ⟨done, failed⟩ := @baudRest_run ctx rate s.dev (s.after 2 (opened s.dev)) rfl defined
      rcases clear_or_firstFails s 7 with all | ⟨k, lt, first⟩
      · have rest : (s.after 2 (opened s.dev)).Clear 5 := ((clear_add (n := 2) (m := 5)).mp all).2
        rw [done rest, baudSet_done_iff defined rfl]
        exact ⟨fun fits => ⟨defined, fun _ => fits, fun k _ lt first => absurd all (first.not_clear lt)⟩,
          fun accepts => accepts.fits all⟩
      · obtain ⟨j, rfl⟩ : ∃ j, k = 2 + j := ⟨k - 2, by
          by_contra early
          exact first.not_clear (by omega : k < 2) clear⟩
        obtain ⟨e, s', run, here⟩ := failed j (by omega) first.shift
        rw [run, baudSet_failed_iff here]
        constructor
        · intro untouched
          refine ⟨defined, fun all => absurd all (first.not_clear lt), fun k' _ _ first' => ?_⟩
          obtain rfl : k' = j + 2 := by
            by_contra other
            rcases Nat.lt_or_gt_of_ne other with less | more
            · exact first'.not_clear (by omega : k' < 2 + j) first.1
            · exact first.not_clear (by omega : 2 + j < k') first'.1
          exact untouched
        · intro accepts
          have untouched := accepts.untouched (2 + j) (by omega) lt first
          rw [Nat.add_comm] at untouched
          exact untouched
    · have fault : (baudRest ctx rate s.dev.lcr).run (s.after 2 (opened s.dev)) = .error .fault (s.after 2 (opened s.dev)) := by
        rw [baudRest, baudDivisor_undefined defined]
        rfl
      exact iff_of_false (fun set => set.defined _ fault) fun accepts => defined accepts.defined
  · obtain ⟨e, s', run, same⟩ := stopped clear
    rw [run]
    refine iff_of_true ⟨by simp, fun e' s₁ failed => ?_, by simp⟩ fun never => absurd never clear
    cases failed
    rw [same]
    exact ⟨rfl, rfl, rfl⟩

/-- A UART at 0x3f8 as it was initialised. -/
def idleUart : Suart := ⟨0x02, 4, 0x3f8, 49664⟩

def idleLatch : UartLatch := ⟨1, 0, 0x13, 0x60⟩

/-- A rate of 0 divides by zero. -/
theorem suartSetBaud_zero : ¬ BaudSet 0 idleLatch
    ((suartSetBaud (latchLpc idleUart.base.toNat) idleUart 0).run ⟨idleLatch, fun _ => none, 0⟩) := by
  intro set
  have run := (suartSetBaud_run idleUart 0 ⟨idleLatch, fun _ => none, 0⟩).1 fun _ _ => rfl
  rw [run] at set
  exact set.defined _ rfl

end Culvert
