import Culvert.Soc.Trace

namespace Culvert

/-- What `trace_dump` finds: the selected length, the ring, the write offset and whether it has wrapped around. -/
structure TraceRing where
  bufLen : Word
  base : Word
  offset : Nat
  wrapped : Bool
  selectable : bufLen.toNat < 8
  aligned : base.toNat % (ahbcBcrBufLen bufLen).toNat = 0
  word : offset % 4 = 0
  inside : offset < (ahbcBcrBufLen bufLen).toNat

namespace TraceRing
variable (r : TraceRing)

def size : Nat := (ahbcBcrBufLen r.bufLen).toNat

def stop : Word := r.base + BitVec.ofNat 32 r.offset

/-- What `R_AHBC_BCR_BUF` holds. -/
def reg : Word := r.stop ||| if r.wrapped then ahbcBcrBufWrap else 0

/-- The registers hold the ring. -/
structure Held (ahbc : Word) (m : Mem) : Prop where
  csr : (ByteMem.readWord m (ahbc + rAhbcBcrCsr).toNat &&& ahbcBcrCsrBufLenMask) >>> ahbcBcrCsrBufLenShift = r.bufLen
  buf : ByteMem.readWord m (ahbc + rAhbcBcrBuf).toNat = r.reg

/-- The ring in the order in which it was written. -/
def bytes (m : Mem) : List Byte :=
  (if r.wrapped then ByteMem.read m (r.base.toNat + r.offset) (r.size - r.offset) else []) ++
    ByteMem.read m r.base.toNat r.offset

/-- The offsets that the mask of `trace_dump` has. -/
def reach : Nat := 2 ^ (12 + r.bufLen.toNat)

end TraceRing

theorem bufLens_reach : ∀ k : Fin 8, (ahbcBcrBufLen (BitVec.ofNat 32 k)).toNat = 2 ^ (12 + k.val) ∨
    (ahbcBcrBufLen (BitVec.ofNat 32 k)).toNat = 2 * 2 ^ (12 + k.val) := by decide

theorem genmask_words : ∀ k : Fin 8, genmask (11 + k.val) 2 = ~~~3 &&& BitVec.ofNat 64 (2 ^ (12 + k.val) - 1) := by decide

section
variable (r : TraceRing)

theorem TraceRing.reach_le : r.reach ≤ 2 ^ 19 :=
  Nat.pow_le_pow_right (by decide) (by have := r.selectable; omega)

theorem TraceRing.reach_pos : 0 < r.reach := Nat.two_pow_pos _

/-- The mask has all offsets of the ring, or half of them. -/
theorem TraceRing.size_eq : r.size = r.reach ∨ r.size = 2 * r.reach := by
  have both := bufLens_reach ⟨r.bufLen.toNat, r.selectable⟩
  rw [BitVec.ofNat_toNat, BitVec.setWidth_eq] at both
  exact both

theorem TraceRing.fits : r.base.toNat + r.size ≤ 2 ^ 32 := by
  have aligned : r.base.toNat % r.size = 0 := r.aligned
  have less := r.base.isLt
  have whole : 2 ^ 32 % r.size = 0 := by
    have divides : r.reach ∣ 2 ^ 31 := Nat.pow_dvd_pow 2 (by have := r.selectable; omega)
    rcases r.size_eq with size | size
    · rw [size]
      exact Nat.mod_eq_zero_of_dvd (divides.trans (by decide))
    · rw [size, show (2 : Nat) ^ 32 = 2 * 2 ^ 31 from rfl, Nat.mul_mod_mul_left, Nat.mod_eq_zero_of_dvd divides]
  have pos : 0 < r.size := Nat.lt_of_le_of_lt (Nat.zero_le _) r.inside
  obtain ⟨k, base⟩ := Nat.dvd_of_mod_eq_zero aligned
  obtain ⟨n, all⟩ := Nat.dvd_of_mod_eq_zero whole
  rw [base, all] at less
  have below : k < n := Nat.lt_of_mul_lt_mul_left less
  rw [base, all, ← Nat.mul_succ]
  exact Nat.mul_le_mul_left _ below

theorem TraceRing.stop_toNat : r.stop.toNat = r.base.toNat + r.offset := by
  have fits := r.fits
  have inside : r.offset < r.size := r.inside
  exact Word.toNat_add_ofNat (by omega)

theorem TraceRing.base_mod : r.base.toNat % r.reach = 0 := by
  have aligned : r.base.toNat % r.size = 0 := r.aligned
  rcases r.size_eq with size | size
  · rw [size] at aligned
    exact aligned
  · rw [size] at aligned
    exact Nat.mod_eq_zero_of_dvd ((Nat.dvd_mul_left _ _).trans (Nat.dvd_of_mod_eq_zero aligned))

theorem TraceRing.stop_low : r.stop &&& 3 = 0 := by
  have word := r.word
  have four : r.base.toNat % 4 = 0 := by
    have divides : 4 ∣ r.reach := (Nat.pow_dvd_pow 2 (by omega) : 2 ^ 2 ∣ 2 ^ (12 + r.bufLen.toNat))
    exact Nat.mod_eq_zero_of_dvd (divides.trans (Nat.dvd_of_mod_eq_zero r.base_mod))
  rw [and_three_eq_zero_iff, r.stop_toNat]
  omega

theorem TraceRing.writePtr_eq : traceWritePtr r.bufLen r.stop = r.stop &&& BitVec.ofNat 32 (r.reach - 1) := by
  have low := r.stop_low
  have small := r.reach_le
  have pos := r.reach_pos
  have none : r.stop.setWidth 64 &&& (3 : Size) = 0 := by
    have wide : (r.stop &&& 3).setWidth 64 = r.stop.setWidth 64 &&& (3 : Size) := BitVec.setWidth_and
    rw [← wide, low]
    rfl
  have kept : r.stop.setWidth 64 &&& ~~~(3 : Size) = r.stop.setWidth 64 := by
    rw [BitVec.and_comm]
    refine BitVec.and_eq_of_sub ?_
    rw [BitVec.not_not]
    exact none
  have mask := genmask_words ⟨r.bufLen.toNat, r.selectable⟩
  rw [traceWritePtr, mask, ← BitVec.and_assoc, kept, BitVec.setWidth_and, BitVec.setWidth_setWidth_of_le _ (by decide),
    BitVec.setWidth_eq]
  congr 1
  apply BitVec.eq_of_toNat_eq
  rw [BitVec.toNat_setWidth, BitVec.toNat_ofNat, BitVec.toNat_ofNat, TraceRing.reach]
  exact Nat.mod_mod_of_dvd _ (by decide)

theorem TraceRing.writePtr_toNat : (traceWritePtr r.bufLen r.stop).toNat = r.offset % r.reach := by
  have selectable := r.selectable
  have low : (r.stop &&& BitVec.ofNat 32 (r.reach - 1)).toNat = r.stop.toNat % r.reach :=
    BitVec.and_mask_toNat r.stop (by omega)
  rw [r.writePtr_eq, low, r.stop_toNat, Nat.add_mod, r.base_mod, Nat.zero_add, Nat.mod_mod]

theorem TraceRing.traceBase_toNat : (traceBase r.bufLen r.stop).toNat = r.base.toNat + (r.offset - r.offset % r.reach) := by
  have split := Word.toNat_and_add_and_not r.stop (traceWritePtr r.bufLen r.stop ||| 3)
  have low : r.stop &&& (traceWritePtr r.bufLen r.stop ||| 3) = traceWritePtr r.bufLen r.stop := by
    rw [BitVec.and_or_distrib_left, r.stop_low, r.writePtr_eq, ← BitVec.and_assoc, BitVec.and_self]
    exact BitVec.or_zero
  have le := Nat.mod_le r.offset r.reach
  rw [low, r.writePtr_toNat, r.stop_toNat] at split
  rw [traceBase]
  omega

theorem TraceRing.stop_wrap : r.stop &&& ahbcBcrBufWrap = 0 := by
  have both : r.stop &&& ahbcBcrBufWrap = r.stop &&& 3 &&& ahbcBcrBufWrap := by
    rw [BitVec.and_assoc]
    rfl
  rw [both, r.stop_low]
  exact BitVec.zero_and

theorem TraceRing.reg_wrap : r.reg &&& ahbcBcrBufWrap ≠ 0 ↔ r.wrapped = true := by
  rw [TraceRing.reg]
  cases r.wrapped with
  | false =>
    rw [if_neg (by decide), show (r.stop ||| 0 : Word) = r.stop from BitVec.or_zero, r.stop_wrap]
    decide
  | true =>
    rw [if_pos rfl, BitVec.or_and_self_right]
    decide

theorem TraceRing.reg_stop : r.reg &&& ~~~ahbcBcrBufWrap = r.stop := by
  have kept : r.stop &&& ~~~ahbcBcrBufWrap = r.stop := by
    rw [BitVec.and_comm]
    refine BitVec.and_eq_of_sub ?_
    rw [BitVec.not_not]
    exact r.stop_wrap
  rw [TraceRing.reg]
  cases r.wrapped with
  | false =>
    rw [if_neg (by decide), show (r.stop ||| 0 : Word) = r.stop from BitVec.or_zero]
    exact kept
  | true =>
    rw [if_pos rfl, BitVec.and_comm, BitVec.and_or_distrib_left, BitVec.and_comm, kept, BitVec.and_comm,
      BitVec.and_not_self]
    exact BitVec.or_zero

end

/-- A bus in front of what `mem` makes of its state. It answers the registers, and the reads in `ok`. -/
structure TraceBus {σ : Type} (mem : σ → Mem) (ops : AhbReadlOps σ) (ahbc : Word) (ok : Word → Nat → Prop) : Prop where
  regs : ∀ off ∈ [rAhbcBcrCsr, rAhbcBcrBuf, rAhbcBcrFifoMerge], ∀ s, ∃ s',
    (ops.readl (ahbc + off)).run s = .ok (ByteMem.readWord (mem s) (ahbc + off).toNat) s' ∧ mem s' = mem s
  sram : AhbAnswers mem ops.toAhbOps ok

section
variable {σ : Type} {mem : σ → Mem} {ops : AhbReadlOps σ} {ahbc : Word} {ok : Word → Nat → Prop}
variable (bus : TraceBus mem ops ahbc ok)
include bus

theorem ahbcReadl_run {off : Word} (reg : off ∈ [rAhbcBcrCsr, rAhbcBcrBuf, rAhbcBcrFifoMerge]) (s : Siphon σ) :
    ∃ ahb, (ahbcReadl ops ahbc off).run s = .ok (ByteMem.readWord (mem s.ahb) (ahbc + off).toNat) { s with ahb := ahb } ∧
      mem ahb = mem s.ahb := by
  obtain ⟨ahb, run, kept⟩ := bus.regs off reg s.ahb
  exact ⟨ahb, Siphon.onAhb_ok run, kept⟩

theorem socSiphonOut_run (s : Siphon σ) (phys : Word) (len : Size) (memory : s.memory) (works : s.fd.Works)
    (small : len.toNat < 2 ^ 63) (inside : ∀ j n, 0 < n → j + n ≤ len.toNat → ok (phys + BitVec.ofNat 32 j) n)
    {fuel : Nat} (enough : len.toNat < fuel) : ∃ s', (socSiphonOut ops fuel phys len).run s = .ok () s' ∧
      s'.fd.bytes = s.fd.bytes ++ busBytes (mem s.ahb) phys len.toNat ∧ mem s'.ahb = mem s.ahb ∧
      s'.memory ∧ s'.fd.Works := by
  have signed : len.toInt = (len.toNat : Int) := BitVec.toInt_eq_toNat_of_lt (by omega)
  obtain ⟨s', run, bytes, kept, same, memory'⟩ :=
    ahbSiphonOut_answers bus.sram phys len.toNat memory works inside enough
  refine ⟨s', ?_, bytes, kept, ?_, works.of_same same⟩
  · rw [socSiphonOut, signed]
    exact run
  · rw [memory']
    exact memory

end

/-- How much `trace_dump` takes from the write pointer on where the ring has wrapped around. -/
def TraceRing.first (r : TraceRing) : Nat := (traceBase r.bufLen r.stop).toNat + r.size - r.offset % r.reach

/-- What `trace_dump` emits, if the bus answers. -/
def TraceRing.dumped (r : TraceRing) (m : Mem) : List Byte :=
  (if r.wrapped then busBytes m r.stop r.first else []) ++ busBytes m (traceBase r.bufLen r.stop) (r.offset % r.reach)

section
variable (r : TraceRing)

theorem TraceRing.mod_le_size : r.offset % r.reach ≤ r.size :=
  (Nat.mod_le r.offset r.reach).trans (Nat.le_of_lt r.inside)

theorem TraceRing.first_toNat : ((traceBase r.bufLen r.stop).setWidth 64 + ahbcBcrBufLen r.bufLen -
    (traceWritePtr r.bufLen r.stop).setWidth 64).toNat = r.first := by
  have less := (traceBase r.bufLen r.stop).isLt
  have le := r.mod_le_size
  have fits := r.fits
  have size : (ahbcBcrBufLen r.bufLen).toNat = r.size := rfl
  rw [BitVec.toNat_sub, BitVec.toNat_add, BitVec.toNat_setWidth_of_le (by decide),
    BitVec.toNat_setWidth_of_le (by decide), r.writePtr_toNat, size, TraceRing.first]
  omega

theorem TraceRing.second_toNat : ((r.stop - traceBase r.bufLen r.stop).setWidth 64 : Size).toNat = r.offset % r.reach := by
  have base := r.traceBase_toNat
  have stop := r.stop_toNat
  have le := Nat.mod_le r.offset r.reach
  rw [BitVec.toNat_setWidth_of_le (by decide), BitVec.toNat_sub_of_le]
  · omega
  · rw [BitVec.le_def]
    omega

end

section
variable {σ : Type} {mem : σ → Mem} {ops : AhbReadlOps σ} {ahbc : Word} {ok : Word → Nat → Prop} {r : TraceRing} {m : Mem}
variable (bus : TraceBus mem ops ahbc ok) (held : r.Held ahbc m)
include bus held

theorem traceDump_run (s : Siphon σ) (there : mem s.ahb = m) (memory : s.memory) (works : s.fd.Works)
    (late : r.wrapped = true → ∀ j n, 0 < n → j + n ≤ r.first → ok (r.stop + BitVec.ofNat 32 j) n)
    (early : ∀ j n, 0 < n → j + n ≤ r.offset % r.reach → ok (traceBase r.bufLen r.stop + BitVec.ofNat 32 j) n)
    {fuel : Nat} (enough : 2 ^ 33 ≤ fuel) : ∃ s', (traceDump ops ahbc fuel).run s = .ok () s' ∧
      s'.fd.bytes = s.fd.bytes ++ r.dumped m := by
  obtain ⟨ahb₁, csr, kept₁⟩ := ahbcReadl_run bus (by simp : rAhbcBcrCsr ∈ _) s
  obtain ⟨ahb₂, buf, kept₂⟩ := ahbcReadl_run bus (by simp : rAhbcBcrBuf ∈ _) { s with ahb := ahb₁ }
  obtain ⟨ahb₃, merge, kept₃⟩ := ahbcReadl_run bus (by simp : rAhbcBcrFifoMerge ∈ _) { s with ahb := ahb₂ }
  have here₁ : mem ahb₁ = m := kept₁.trans there
  have here₂ : mem ahb₂ = m := kept₂.trans here₁
  have here₃ : mem ahb₃ = m := kept₃.trans here₂
  have size := r.fits
  have le := r.mod_le_size
  have less := (traceBase r.bufLen r.stop).isLt
  have least : r.first < 2 ^ 33 := by
    rw [TraceRing.first]
    omega
  have reg : ByteMem.readWord (mem ahb₁) (ahbc + rAhbcBcrBuf).toNat = r.reg := by
    rw [here₁]
    exact held.buf
  have len : (ByteMem.readWord (mem s.ahb) (ahbc + rAhbcBcrCsr).toNat &&& ahbcBcrCsrBufLenMask) >>>
      ahbcBcrCsrBufLenShift = r.bufLen := by
    rw [there]
    exact held.csr
  rw [reg] at buf
  have last (t : Siphon σ) (here : mem t.ahb = m) (memory : t.memory) (works : t.fd.Works) :
      ∃ s', (socSiphonOut ops fuel (traceBase r.bufLen r.stop) ((r.stop - traceBase r.bufLen r.stop).setWidth 64)).run t =
        .ok () s' ∧ s'.fd.bytes = t.fd.bytes ++ busBytes m (traceBase r.bufLen r.stop) (r.offset % r.reach) := by
    have second := r.second_toNat
    have few : ((r.stop - traceBase r.bufLen r.stop).setWidth 64 : Size).toNat < fuel := by omega
    obtain ⟨s', run, bytes, _⟩ := socSiphonOut_run bus t _ _ memory works (by omega) (by rw [second]; exact early) few
    rw [second, here] at bytes
    exact ⟨s', run, bytes⟩
  rw [traceDump, Prog.run_bind_ok csr, Prog.run_bind_ok buf, Prog.run_bind_ok (Prog.attempt_ok merge)]
  simp only [len, r.reg_stop]
  cases wrapped : r.wrapped with
  | false =>
    rw [if_neg fun wrap => absurd (r.reg_wrap.mp wrap) (by rw [wrapped]; decide)]
    obtain ⟨s', run, bytes⟩ := last { s with ahb := ahb₃ } here₃ memory works
    refine ⟨s', run, ?_⟩
    rw [bytes, TraceRing.dumped, wrapped]
    rfl
  | true =>
    have first := r.first_toNat
    obtain ⟨s₁, run₁, bytes₁, kept, memory₁, works₁⟩ := socSiphonOut_run bus { s with ahb := ahb₃ } r.stop
      ((traceBase r.bufLen r.stop).setWidth 64 + ahbcBcrBufLen r.bufLen - (traceWritePtr r.bufLen r.stop).setWidth 64)
      memory works (by omega) (by rw [first]; exact late wrapped) (by omega : _ < fuel)
    obtain ⟨s', run, bytes⟩ := last s₁ (kept.trans here₃) memory₁ works₁
    rw [first, here₃] at bytes₁
    rw [if_pos (r.reg_wrap.mpr wrapped), Prog.run_bind_ok run₁]
    refine ⟨s', run, ?_⟩
    rw [bytes, bytes₁, TraceRing.dumped, wrapped, List.append_assoc]
    rfl

end

/-- A read that stays in the ring. -/
def TraceRing.InRing (r : TraceRing) (phys : Word) (n : Nat) : Prop :=
  r.base.toNat ≤ phys.toNat ∧ phys.toNat + n ≤ r.base.toNat + r.size

/-- On every bus that answers the reads in the ring, whatever it does with others, the ring is emitted. -/
def TraceRing.Emitted (r : TraceRing) (ahbc : Word) (m : Mem) : Prop :=
  ∀ (σ : Type) (mem : σ → Mem) (ops : AhbReadlOps σ) (s : Siphon σ), TraceBus mem ops ahbc r.InRing →
    mem s.ahb = m → s.memory → s.fd.Works → ∃ enough, ∀ fuel, enough ≤ fuel →
      ∃ s', (traceDump ops ahbc fuel).run s = .ok () s' ∧ s'.fd.bytes = s.fd.bytes ++ r.bytes m

/-- A memory without addresses that do not answer. -/
def memReadl : AhbReadlOps Mem where
  read phys n := do return busBytes (← get) phys n
  write phys bs := modify fun m => ByteMem.write m phys.toNat bs
  readl phys := do return ByteMem.readWord (← get) phys.toNat

theorem memReadl_bus (ahbc : Word) (ok : Word → Nat → Prop) : TraceBus id memReadl ahbc ok where
  regs _ _ m := ⟨m, rfl, rfl⟩
  sram m _ n some _ := ⟨n, m, some, le_rfl, rfl, rfl⟩

section
variable {r : TraceRing} {ahbc : Word} {m : Mem}

theorem TraceRing.dumped_length : (r.dumped m).length =
    (if r.wrapped then (traceBase r.bufLen r.stop).toNat + r.size else r.offset % r.reach) := by
  have le := r.mod_le_size
  rw [TraceRing.dumped, List.length_append, busBytes_length]
  cases r.wrapped with
  | false => exact Nat.zero_add _
  | true =>
    rw [if_pos rfl, if_pos rfl, busBytes_length, TraceRing.first]
    omega

theorem TraceRing.bytes_length : (r.bytes m).length = if r.wrapped then r.size else r.offset := by
  have inside : r.offset < r.size := r.inside
  rw [TraceRing.bytes, List.length_append, ByteMem.read_length]
  cases r.wrapped with
  | false => exact Nat.zero_add _
  | true =>
    rw [if_pos rfl, if_pos rfl, ByteMem.read_length]
    omega

theorem TraceRing.Emitted.masked (held : r.Held ahbc m) (emitted : r.Emitted ahbc m) :
    r.offset < r.reach ∧ (r.wrapped = true → r.base = 0) := by
  let s : Siphon Mem := ⟨m, ⟨[], fun _ => .ok 1, 0⟩, true⟩
  have works : s.fd.Works := fun _ => ⟨1, rfl⟩
  obtain ⟨enough, all⟩ := emitted Mem id memReadl s (memReadl_bus ahbc _) rfl rfl works
  obtain ⟨s₁, run₁, bytes₁⟩ := all (max enough (2 ^ 33)) (le_max_left _ _)
  obtain ⟨s₂, run₂, bytes₂⟩ := traceDump_run (memReadl_bus ahbc fun _ _ => True) held s rfl rfl works
    (fun _ _ _ _ _ => trivial) (fun _ _ _ _ => trivial) (le_max_right enough (2 ^ 33))
  rw [run₁] at run₂
  cases run₂
  have same : (r.bytes m).length = (r.dumped m).length := by rw [← List.append_cancel_left (bytes₁.symm.trans bytes₂)]
  have base := r.traceBase_toNat
  have le := Nat.mod_le r.offset r.reach
  have less := Nat.mod_lt r.offset r.reach_pos
  rw [TraceRing.bytes_length, TraceRing.dumped_length] at same
  cases wrapped : r.wrapped with
  | false =>
    rw [wrapped, if_neg (by decide), if_neg (by decide)] at same
    exact ⟨by omega, fun never => absurd never Bool.false_ne_true⟩
  | true =>
    rw [wrapped, if_pos rfl, if_pos rfl] at same
    have zero : r.base.toNat = 0 := by omega
    exact ⟨by omega, fun _ => BitVec.eq_of_toNat_eq zero⟩

theorem TraceRing.traceBase_eq (masked : r.offset < r.reach) : traceBase r.bufLen r.stop = r.base := by
  apply BitVec.eq_of_toNat_eq
  rw [r.traceBase_toNat, Nat.mod_eq_of_lt masked, Nat.sub_self]
  rfl

/-- With the whole offset in the mask, and at address 0 if the ring has wrapped around, what is dumped is the ring. -/
theorem TraceRing.dumped_eq (masked : r.offset < r.reach) (low : r.wrapped = true → r.base = 0) :
    r.dumped m = r.bytes m := by
  have fits := r.fits
  have inside : r.offset < r.size := r.inside
  have stop := r.stop_toNat
  have early := @busBytes_eq m r.base r.offset (by omega)
  rw [TraceRing.dumped, TraceRing.bytes, r.traceBase_eq masked, Nat.mod_eq_of_lt masked, early]
  cases wrapped : r.wrapped with
  | false => rfl
  | true =>
    have zero : r.base.toNat = 0 := by
      rw [low wrapped]
      rfl
    have first : r.first = r.size - r.offset := by
      rw [TraceRing.first, r.traceBase_eq masked, Nat.mod_eq_of_lt masked, zero, Nat.zero_add]
    rw [if_pos rfl, if_pos rfl, first, busBytes_eq _ (by omega), stop]

theorem TraceRing.emitted_of_masked (held : r.Held ahbc m) (masked : r.offset < r.reach)
    (low : r.wrapped = true → r.base = 0) : r.Emitted ahbc m := by
  intro σ mem ops s bus there memory works
  have fits := r.fits
  have inside : r.offset < r.size := r.inside
  have stop := r.stop_toNat
  refine ⟨2 ^ 33, fun fuel enough => ?_⟩
  rw [← TraceRing.dumped_eq masked low]
  refine traceDump_run bus held s there memory works (fun wrapped j n pos le => ?_) (fun j n pos le => ?_) enough
  · have zero : r.base.toNat = 0 := by
      rw [low wrapped]
      rfl
    rw [TraceRing.first, r.traceBase_eq masked, Nat.mod_eq_of_lt masked, zero] at le
    have near : (r.stop + BitVec.ofNat 32 j).toNat = r.stop.toNat + j := Word.toNat_add_ofNat (by omega)
    exact ⟨by omega, by omega⟩
  · rw [Nat.mod_eq_of_lt masked] at le
    have near : (r.base + BitVec.ofNat 32 j).toNat = r.base.toNat + j := Word.toNat_add_ofNat (by omega)
    rw [r.traceBase_eq masked]
    exact ⟨by omega, by omega⟩

end

/-- The mask grows by a bit with the length code, but the table doubles twice from 32 KiB to 128 KiB; and where the
ring has wrapped around, the length up to its end has the base in it. -/
theorem trace_dump_emitted_iff (r : TraceRing) (ahbc : Word) (m : Mem) (held : r.Held ahbc m) :
    r.Emitted ahbc m ↔ r.offset < 2 ^ (12 + r.bufLen.toNat) ∧ (r.wrapped = true → r.base = 0) :=
  ⟨fun emitted => emitted.masked held, fun condition => TraceRing.emitted_of_masked held condition.1 condition.2⟩

/-- The 32 KiB of the SRAM of an AST2500, of which 256 bytes were written last. -/
def sramRing (wrapped : Bool) : TraceRing where
  bufLen := 3
  base := 0x1e720000
  offset := 0x100
  wrapped := wrapped
  selectable := by decide
  aligned := by decide
  word := by decide
  inside := by decide

/-- The AHB controller of an AST2500 with the ring in its registers. -/
def sramRingMem (wrapped : Bool) : Mem :=
  ByteMem.write (ByteMem.write (fun _ => 0) 0x1e600040 (0x300 : Word).bytes) 0x1e600044 (sramRing wrapped).reg.bytes

theorem sramRing_held (wrapped : Bool) : (sramRing wrapped).Held 0x1e600000 (sramRingMem wrapped) where
  csr := by
    have apart : ByteMem.readWord (sramRingMem wrapped) 0x1e600040 = 0x300 := by
      rw [sramRingMem, ByteMem.readWord_write_of_disjoint (Or.inl (by decide))]
      exact ByteMem.readWord_write _ _ _
    show (ByteMem.readWord (sramRingMem wrapped) 0x1e600040 &&& ahbcBcrCsrBufLenMask) >>> ahbcBcrCsrBufLenShift = 3
    rw [apart]
    decide
  buf := ByteMem.readWord_write _ _ _

/-- A ring in the SRAM. -/
theorem trace_dump_emitted_sram : (sramRing false).Emitted 0x1e600000 (sramRingMem false) ↔
    0x100 < 2 ^ (12 + (3 : Word).toNat) ∧ (false = true → (0x1e720000 : Word) = 0) :=
  trace_dump_emitted_iff (sramRing false) 0x1e600000 (sramRingMem false) (sramRing_held false)

/-- A ring that has wrapped around is dumped with as many bytes after its end as there are addresses below it. -/
theorem trace_dump_beyond : ¬ ∀ (r : TraceRing) (ahbc : Word) (m : Mem), r.Held ahbc m → r.Emitted ahbc m := by
  intro emitted
  have masked := (emitted (sramRing true) 0x1e600000 (sramRingMem true) (sramRing_held true)).masked (sramRing_held true)
  exact absurd (masked.2 rfl) (by decide)

end Culvert
