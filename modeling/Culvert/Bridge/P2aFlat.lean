import Culvert.Bridge.P2a
import Culvert.Lib.Run
import Culvert.Lib.Trace

namespace Culvert

/-- A write of RBAR. -/
def P2abAccess.IsRemap (mmio : Nat) (a : P2abAccess) : Prop := a.addr = mmio + 0xf004 ∧ a.len = 4

/-- An access within the 64 KiB window, to none but the `len` AHB bytes from `phys` on. -/
def P2abAccess.InWindow (mmio phys len : Nat) (a : P2abAccess) : Prop :=
  mmio + 0x10000 ≤ a.addr ∧ a.addr + a.len ≤ mmio + 0x20000 ∧ phys ≤ a.rbar.toNat + (a.addr - (mmio + 0x10000)) ∧
    a.rbar.toNat + (a.addr - (mmio + 0x10000)) + a.len ≤ phys + len

/-- What a call on the `len` bytes from `phys` on may access. -/
def P2abAccess.Serves (mmio phys len : Nat) (a : P2abAccess) : Prop :=
  a.IsRemap mmio ∨ a.InWindow mmio phys len

theorem P2abAccess.Serves.mono {mmio phys len phys' len' : Nat} {a : P2abAccess} (serves : a.Serves mmio phys' len')
    (from' : phys ≤ phys') (to' : phys' + len' ≤ phys + len) : a.Serves mmio phys len := by
  rcases serves with remap | ⟨lower, upper, start, fin⟩
  · exact Or.inl remap
  · exact Or.inr ⟨lower, upper, by omega, by omega⟩

namespace P2ab

/-- The cached window is the one the hardware has. -/
structure Synced (s : P2ab) : Prop where
  rbar : s.bar.rbar = s.rbar
  pkr : s.bar.pkr = 1

/-- `phys` is at its offset in the window. -/
structure Mapped (phys : Word) (s : P2ab) : Prop extends Synced s where
  window : s.rbar.toNat + phys.toNat % 0x10000 = phys.toNat

theorem run_touch_ok {α : Type} {s : P2ab} {o n : Nat} (f : P2aBar → Nat → α × P2aBar) (fits : o + n ≤ 0x20000) :
    (touch (s.mmio + o) n f).run s =
      .ok (f s.bar o).1 { s with bar := (f s.bar o).2, touched := s.access (s.mmio + o) n :: s.touched } := by
  simp only [touch, EStateM.run]
  rw [if_pos ⟨by omega, by omega⟩, Nat.add_sub_cancel_left]

theorem run_touch_fault {α : Type} {s : P2ab} {o n : Nat} (f : P2aBar → Nat → α × P2aBar) (beyond : 0x20000 < o + n) :
    (touch (s.mmio + o) n f).run s =
      .error .fault { s with touched := s.access (s.mmio + o) n :: s.touched } := by
  simp only [touch, EStateM.run]
  rw [if_neg (by omega)]

end P2ab

theorem rbarMask_toNat (phys : Word) : (phys &&& ~~~p2abRbarRemapMask).toNat = phys.toNat % 0x10000 ∧
    (phys &&& p2abRbarRemapMask).toNat + phys.toNat % 0x10000 = phys.toNat := by
  have low : (phys &&& ~~~p2abRbarRemapMask).toNat = phys.toNat % 0x10000 := by
    rw [show ~~~p2abRbarRemapMask = 0xffff#32 from rfl, BitVec.toNat_and]
    exact Nat.and_two_pow_sub_one_eq_mod phys.toNat 16
  exact ⟨low, by rw [← low]; exact Word.toNat_and_add_and_not phys p2abRbarRemapMask⟩

section
variable {s : P2ab} {phys : Word} {buf len : Nat}

open P2ab

/-- The register writes of the driver go to PKR and RBAR. -/
theorem run_p2abRegWritel {addr : Nat} (val : Word) (reg : addr = p2abPkr ∨ addr = p2abRbar) :
    (p2abRegWritel addr val).run s =
      .ok () { s with bar := s.bar.store addr val.bytes, touched := s.access (s.mmio + addr) 4 :: s.touched } := by
  have fits : addr + 4 ≤ 0x20000 := by
    rcases reg with rfl | rfl <;> decide
  have below : addr < 0x20000 - 4 + 1 := by omega
  have aligned : addr % 4 = 0 := by
    rcases reg with rfl | rfl <;> rfl
  rw [p2abRegWritel, Prog.run_bind_ok (run_assert below s), Prog.run_bind_ok (run_assert aligned s)]
  exact run_touch_ok (fun bar o => ((), bar.store o val.bytes)) fits

/-- Mapping always succeeds, leaves AHB and the caller's memory alone, and writes no register but RBAR. -/
theorem p2abMap_ok (synced : s.Synced) (phys : Word) : ∃ s', (p2abMap phys).run s = .ok (phys.toNat % 0x10000) s' ∧
    s'.Mapped phys ∧ s'.mmio = s.mmio ∧ s'.bar.ahb = s.bar.ahb ∧ s'.ram = s.ram ∧
    Grown (P2abAccess.IsRemap s.mmio) s.touched s'.touched := by
  obtain ⟨low, high⟩ := rbarMask_toNat phys
  by_cases cached : s.rbar = phys &&& p2abRbarRemapMask
  · have run : (p2abMap phys).run s = .ok (phys.toNat % 0x10000) s := by
      rw [p2abMap, ← low]
      simp [cached]
    exact ⟨s, run, ⟨synced, by rw [cached, high]⟩, rfl, rfl, rfl, Grown.refl _ _⟩
  · obtain ⟨rbarEq, pkrEq, ahbEq⟩ := s.bar.store_rbar (phys &&& p2abRbarRemapMask)
    let s₁ : P2ab := { s with bar := s.bar.store 0xf004 (phys &&& p2abRbarRemapMask).bytes,
                              touched := s.access (s.mmio + 0xf004) 4 :: s.touched }
    let s₂ : P2ab := { s₁ with rbar := phys &&& p2abRbarRemapMask }
    have moved : (p2abRegWritel p2abRbar (phys &&& p2abRbarRemapMask)).run s = .ok () s₁ :=
      run_p2abRegWritel _ (Or.inr rfl)
    have run : (p2abMap phys).run s = .ok (phys.toNat % 0x10000) s₂ := by
      rw [p2abMap, ← low]
      simp only [EStateM.run_bind, EStateM.run_get, if_neg cached, moved]
      rfl
    have touched : Grown (P2abAccess.IsRemap s.mmio) s.touched s₂.touched := (Grown.refl _ _).cons ⟨rfl, rfl⟩
    exact ⟨s₂, run, ⟨⟨rbarEq, pkrEq.trans synced.pkr⟩, high⟩, rfl, ahbEq, rfl, touched⟩

/-- What is left after copying `k` of `len` bytes out of the window of `s`. -/
structure P2ab.Ingressed (s : P2ab) (phys : Word) (len buf k : Nat) (s' : P2ab) : Prop where
  ctx : s'.mmio = s.mmio ∧ s'.rbar = s.rbar
  bar : s'.bar = s.bar
  ram : s'.ram = ByteMem.write s.ram buf (ByteMem.read s.bar.ahb phys.toNat k)
  touched : Grown (P2abAccess.Serves s.mmio phys.toNat len) s.touched s'.touched

/-- What is left after copying `k` of `len` bytes into the window of `s`. -/
structure P2ab.Egressed (s : P2ab) (phys : Word) (len buf k : Nat) (s' : P2ab) : Prop where
  ctx : s'.mmio = s.mmio ∧ s'.rbar = s.rbar
  regs : s'.bar.regs = s.bar.regs
  ahb : s'.bar.ahb = ByteMem.write s.bar.ahb phys.toNat (ByteMem.read s.ram buf k)
  ram : s'.ram = s.ram
  touched : Grown (P2abAccess.Serves s.mmio phys.toNat len) s.touched s'.touched

/-- An access that some call may make. -/
def P2abAccess.Served (mmio : Nat) (a : P2abAccess) : Prop := ∃ phys len, a.Serves mmio phys len

/-- Since `s` there was an access that no call should make. -/
def P2ab.Astray (s s' : P2ab) : Prop := Strayed (P2abAccess.Served s.mmio) s.touched s'.touched

theorem P2ab.access_serves {t : P2ab} {mmio o n k : Nat} (start : t.bar.rbar.toNat + o = phys.toNat + k)
    (window : o + n ≤ 0x10000) (inside : k + n ≤ len) :
    (t.access (mmio + (0x10000 + o)) n).Serves mmio phys.toNat len := by
  refine Or.inr ⟨by simp only [access]; omega, by simp only [access]; omega, ?_⟩
  have offset : mmio + (0x10000 + o) - (mmio + 0x10000) = o := by omega
  simp only [access, offset]
  omega

theorem P2ab.astray_of_beyond {t : P2ab} {o n : Nat} {P : P2abAccess → Prop} (beyond : 0x20000 < o + n)
    (window : 0x10000 ≤ o) (touched : Grown P s.touched t.touched) :
    s.Astray { t with touched := t.access (s.mmio + o) n :: t.touched } := by
  refine Strayed.cons touched ?_
  rintro ⟨phys, len, ⟨addr, _⟩ | ⟨_, upper, _⟩⟩
  · simp only [access] at addr
    omega
  · simp only [access] at upper
    omega

/-- Moving `n` bytes out of the window, which strays from it when they do not all lie in it. -/
theorem P2ab.ingress_advances (mapped : s.Mapped phys) {k n : Nat} (inside : k + n ≤ len) :
    Prog.Advances (s.Ingressed phys len buf) s.Astray (0x10000 - phys.toNat % 0x10000) k n
    (do ramStore (buf + k) (← barLoad (s.mmio + 0x10000 + phys.toNat % 0x10000 + k) n)) := by
  intro t _ here
  have addr : s.mmio + 0x10000 + phys.toNat % 0x10000 + k = t.mmio + (0x10000 + (phys.toNat % 0x10000 + k)) := by
    have := here.ctx.1
    omega
  have low : phys.toNat % 0x10000 < 0x10000 := Nat.mod_lt _ (by decide)
  rw [addr]
  constructor
  · intro fits
    have loaded := run_touch_ok (s := t) (fun bar o => (bar.load o n, bar))
      (show 0x10000 + (phys.toNat % 0x10000 + k) + n ≤ 0x20000 by omega)
    refine ⟨(), _, (Prog.run_bind_ok loaded).trans rfl, here.ctx, here.bar, ?_, here.touched.cons ?_⟩
    · have aliased : t.bar.load (0x10000 + (phys.toNat % 0x10000 + k)) n =
          ByteMem.read s.bar.ahb (phys.toNat + k) n := by
        rw [P2aBar.load_window, here.bar, mapped.rbar, ← Nat.add_assoc, mapped.window]
      show ByteMem.write t.ram (buf + k) (t.bar.load (0x10000 + (phys.toNat % 0x10000 + k)) n) = _
      rw [aliased, here.ram, ByteMem.read_add, ByteMem.write_append, ByteMem.read_length]
    · rw [here.ctx.1]
      exact P2ab.access_serves (by rw [here.bar, mapped.rbar, ← Nat.add_assoc, mapped.window]) (by omega) inside
  · intro beyond
    have faulted := run_touch_fault (s := t) (fun bar o => (bar.load o n, bar))
      (show 0x20000 < 0x10000 + (phys.toNat % 0x10000 + k) + n by omega)
    rw [here.ctx.1] at faulted ⊢
    exact ⟨_, Prog.run_bind_error faulted, astray_of_beyond (by omega) (by omega) here.touched⟩

/-- Moving `n` bytes into the window. -/
theorem P2ab.egress_advances (mapped : s.Mapped phys) {k n : Nat} (inside : k + n ≤ len) :
    Prog.Advances (s.Egressed phys len buf) s.Astray (0x10000 - phys.toNat % 0x10000) k n
    (do barStore (s.mmio + 0x10000 + phys.toNat % 0x10000 + k) (← ramLoad (buf + k) n)) := by
  intro t _ here
  have addr : s.mmio + 0x10000 + phys.toNat % 0x10000 + k = t.mmio + (0x10000 + (phys.toNat % 0x10000 + k)) := by
    have := here.ctx.1
    omega
  have low : phys.toNat % 0x10000 < 0x10000 := Nat.mod_lt _ (by decide)
  have width : (ByteMem.read t.ram (buf + k) n).length = n := ByteMem.read_length _ _ _
  have rbarEq : t.bar.rbar = s.bar.rbar := by rw [P2aBar.rbar, here.regs, ← P2aBar.rbar]
  rw [addr]
  constructor
  · intro fits
    have stored := run_touch_ok (s := t) (n := (ByteMem.read t.ram (buf + k) n).length)
      (fun bar o => ((), bar.store o (ByteMem.read t.ram (buf + k) n)))
      (show 0x10000 + (phys.toNat % 0x10000 + k) + (ByteMem.read t.ram (buf + k) n).length ≤ 0x20000 by omega)
    refine ⟨(), _, stored, here.ctx, ?_, ?_, here.ram, here.touched.cons ?_⟩
    · show (t.bar.store (0x10000 + (phys.toNat % 0x10000 + k)) _).regs = _
      rw [P2aBar.store_window]
      exact here.regs
    · show (t.bar.store (0x10000 + (phys.toNat % 0x10000 + k)) _).ahb = _
      rw [P2aBar.store_window]
      show ByteMem.write t.bar.ahb (t.bar.rbar.toNat + _) _ = _
      rw [rbarEq, mapped.rbar, ← Nat.add_assoc, mapped.window, here.ahb, here.ram, ByteMem.read_add,
        ByteMem.write_append, ByteMem.read_length]
    · rw [here.ctx.1]
      exact P2ab.access_serves (by rw [rbarEq, mapped.rbar, ← Nat.add_assoc, mapped.window]) (by omega) (by omega)
  · intro beyond
    have faulted := run_touch_fault (s := t) (n := (ByteMem.read t.ram (buf + k) n).length)
      (fun bar o => ((), bar.store o (ByteMem.read t.ram (buf + k) n)))
      (show 0x20000 < 0x10000 + (phys.toNat % 0x10000 + k) + (ByteMem.read t.ram (buf + k) n).length by omega)
    rw [here.ctx.1] at faulted ⊢
    exact ⟨_, faulted, astray_of_beyond (by omega) (by omega) here.touched⟩

theorem p2abIngress_advances (mapped : s.Mapped phys) (n : Nat) : Prog.Advances (s.Ingressed phys n buf) s.Astray
    (0x10000 - phys.toNat % 0x10000) 0 n
    (mmioMemcpy ingress buf (s.mmio + p2abWindowBase + phys.toNat % 0x10000) n) :=
  mmioMemcpy_advances (fun k below => P2ab.ingress_advances mapped (by omega))
    (fun k below _ _ => P2ab.ingress_advances mapped below)

theorem p2abEgress_advances (mapped : s.Mapped phys) (n : Nat) : Prog.Advances (s.Egressed phys n buf) s.Astray
    (0x10000 - phys.toNat % 0x10000) 0 n
    (mmioMemcpy egress (s.mmio + p2abWindowBase + phys.toNat % 0x10000) buf n) :=
  mmioMemcpy_advances (fun k below => P2ab.egress_advances mapped (by omega))
    (fun k below _ _ => P2ab.egress_advances mapped below)

theorem P2ab.ingressed_refl (s : P2ab) (phys : Word) (len buf : Nat) : s.Ingressed phys len buf 0 s :=
  ⟨⟨rfl, rfl⟩, rfl, by rw [ByteMem.read_zero, ByteMem.write_nil], Grown.refl _ _⟩

theorem P2ab.egressed_refl (s : P2ab) (phys : Word) (len buf : Nat) : s.Egressed phys len buf 0 s :=
  ⟨⟨rfl, rfl⟩, rfl, by rw [ByteMem.read_zero, ByteMem.write_nil], rfl, Grown.refl _ _⟩

/-- The lengths that a read or write from `phys` on is served for. -/
def P2aFits (phys : Word) (len : Nat) : Prop := phys.toNat % 0x10000 = 0 ∨ phys.toNat % 0x10000 + len ≤ 0x10000

theorem p2abChunk_le (len : Nat) : p2abChunk len ≤ len := by
  by_cases small : len ≤ 0x10000
  · rw [p2abChunk_of_le small]
  · rw [p2abChunk_of_gt (by omega)]
    omega

/-- The first copy stays in the window exactly for these lengths. -/
theorem p2abChunk_fits_iff : phys.toNat % 0x10000 + p2abChunk len ≤ 0x10000 ↔ P2aFits phys len := by
  rw [P2aFits]
  by_cases small : len ≤ 0x10000
  · rw [p2abChunk_of_le small]
    omega
  · rw [p2abChunk_of_gt (by omega)]
    omega

/-- What remains after the first copy starts at the next window. -/
theorem p2abChunk_next (range : phys.toNat + len ≤ 2 ^ 32) (fits : P2aFits phys len) (more : len - p2abChunk len ≠ 0) :
    p2abChunk len = 0x10000 ∧ (phys + BitVec.ofNat 32 (p2abChunk len)).toNat = phys.toNat + p2abChunk len ∧
      P2aFits (phys + BitVec.ofNat 32 (p2abChunk len)) (len - p2abChunk len) := by
  have big : 0x10000 < len := by
    by_cases small : len ≤ 0x10000
    · rw [p2abChunk_of_le small] at more
      omega
    · omega
  have chunk := p2abChunk_of_gt big
  have next : (phys + BitVec.ofNat 32 (p2abChunk len)).toNat = phys.toNat + p2abChunk len :=
    Word.toNat_add_ofNat (by omega)
  refine ⟨chunk, next, Or.inl ?_⟩
  have start : phys.toNat % 0x10000 = 0 := by
    rcases fits with start | short <;> omega
  omega

/-- What a read of `len` bytes into `buf` leaves. -/
structure P2ab.ReadDone (s : P2ab) (phys : Word) (buf len : Nat) (s' : P2ab) : Prop where
  synced : s'.Synced
  mmio : s'.mmio = s.mmio
  ahb : s'.bar.ahb = s.bar.ahb
  ram : s'.ram = ByteMem.write s.ram buf (ByteMem.read s.bar.ahb phys.toNat len)
  touched : Grown (P2abAccess.Serves s.mmio phys.toNat len) s.touched s'.touched

/-- What a write of `len` bytes from `buf` leaves. -/
structure P2ab.WriteDone (s : P2ab) (phys : Word) (buf len : Nat) (s' : P2ab) : Prop where
  synced : s'.Synced
  mmio : s'.mmio = s.mmio
  ahb : s'.bar.ahb = ByteMem.write s.bar.ahb phys.toNat (ByteMem.read s.ram buf len)
  ram : s'.ram = s.ram
  touched : Grown (P2abAccess.Serves s.mmio phys.toNat len) s.touched s'.touched

/-- One turn of the read loop that stays in its window. -/
theorem p2abReadTurn_ok (synced : s.Synced) (buf : Nat) {n : Nat} (fits : phys.toNat % 0x10000 + n ≤ 0x10000) :
    ∃ s₁ s₂, (p2abMap phys).run s = .ok (phys.toNat % 0x10000) s₁ ∧
      (mmioMemcpy ingress buf (s₁.mmio + p2abWindowBase + phys.toNat % 0x10000) n).run s₁ = .ok () s₂ ∧
      s.ReadDone phys buf n s₂ := by
  obtain ⟨s₁, map, mapped, mmio₁, ahb₁, ram₁, touched₁⟩ := p2abMap_ok synced phys
  obtain ⟨copies, _⟩ := p2abIngress_advances mapped n s₁ (Nat.zero_le _) (s₁.ingressed_refl phys n buf)
  obtain ⟨_, s₂, copy, copied⟩ := copies (by omega)
  rw [Nat.zero_add] at copied
  have touched := copied.touched
  rw [mmio₁] at touched
  refine ⟨s₁, s₂, map, copy, ⟨?_, ?_⟩, copied.ctx.1.trans mmio₁, ?_, ?_, ?_⟩
  · rw [copied.bar, copied.ctx.2]
    exact mapped.rbar
  · rw [copied.bar]
    exact mapped.pkr
  · rw [copied.bar, ahb₁]
  · rw [copied.ram, ram₁, ahb₁]
  · exact (touched₁.mono fun _ remap => Or.inl remap).trans touched

theorem p2abWriteTurn_ok (synced : s.Synced) (buf : Nat) {n : Nat} (fits : phys.toNat % 0x10000 + n ≤ 0x10000) :
    ∃ s₁ s₂, (p2abMap phys).run s = .ok (phys.toNat % 0x10000) s₁ ∧
      (mmioMemcpy egress (s₁.mmio + p2abWindowBase + phys.toNat % 0x10000) buf n).run s₁ = .ok () s₂ ∧
      s.WriteDone phys buf n s₂ := by
  obtain ⟨s₁, map, mapped, mmio₁, ahb₁, ram₁, touched₁⟩ := p2abMap_ok synced phys
  obtain ⟨copies, _⟩ := p2abEgress_advances mapped n s₁ (Nat.zero_le _) (s₁.egressed_refl phys n buf)
  obtain ⟨_, s₂, copy, copied⟩ := copies (by omega)
  rw [Nat.zero_add] at copied
  have touched := copied.touched
  rw [mmio₁] at touched
  refine ⟨s₁, s₂, map, copy, ⟨?_, ?_⟩, copied.ctx.1.trans mmio₁, ?_, copied.ram.trans ram₁, ?_⟩
  · rw [P2aBar.rbar, copied.regs, ← P2aBar.rbar, copied.ctx.2]
    exact mapped.rbar
  · rw [P2aBar.pkr, copied.regs, ← P2aBar.pkr]
    exact mapped.pkr
  · rw [copied.ahb, ram₁, ahb₁]
  · exact (touched₁.mono fun _ remap => Or.inl remap).trans touched

theorem p2abReadLoop_ok (synced : s.Synced) (range : phys.toNat + len ≤ 2 ^ 32) (fits : P2aFits phys len) :
    ∃ s', (p2abReadLoop phys buf len).run s = .ok () s' ∧ s.ReadDone phys buf len s' := by
  induction len using Nat.strongRecOn generalizing s phys buf with
  | ind len ih =>
    have bound := p2abChunk_le len
    obtain ⟨s₁, s₂, map, copy, done⟩ := p2abReadTurn_ok synced buf (p2abChunk_fits_iff.mpr fits)
    rw [p2abReadLoop, Prog.run_bind_ok (orMinusOne_ok.mpr map)]
    simp only [EStateM.run_bind, EStateM.run_get, copy]
    split
    · rename_i more
      obtain ⟨chunk, next, fits'⟩ := p2abChunk_next range fits more
      obtain ⟨s₃, rest, left⟩ :=
        @ih (len - p2abChunk len) (by omega) s₂ _ (buf + p2abChunk len) done.synced (by omega) fits'
      have whole : len = p2abChunk len + (len - p2abChunk len) := by omega
      have touched := left.touched
      rw [done.mmio] at touched
      refine ⟨s₃, rest, left.synced, left.mmio.trans done.mmio, left.ahb.trans done.ahb, ?_, ?_⟩
      · rw [left.ram, done.ram, done.ahb, next, whole, ByteMem.read_add, ByteMem.write_append, ByteMem.read_length,
          ← whole]
      · exact (done.touched.mono fun _ serves => serves.mono (Nat.le_refl _) (by omega)).trans
          (touched.mono fun _ serves => serves.mono (by omega) (by omega))
    · have whole : p2abChunk len = len := by omega
      rw [whole] at done
      exact ⟨s₂, rfl, done⟩

theorem p2abWriteLoop_ok (synced : s.Synced) (range : phys.toNat + len ≤ 2 ^ 32) (fits : P2aFits phys len) :
    ∃ s', (p2abWriteLoop phys buf len).run s = .ok () s' ∧ s.WriteDone phys buf len s' := by
  induction len using Nat.strongRecOn generalizing s phys buf with
  | ind len ih =>
    have bound := p2abChunk_le len
    obtain ⟨s₁, s₂, map, copy, done⟩ := p2abWriteTurn_ok synced buf (p2abChunk_fits_iff.mpr fits)
    rw [p2abWriteLoop, Prog.run_bind_ok (orMinusOne_ok.mpr map)]
    simp only [EStateM.run_bind, EStateM.run_get, copy]
    split
    · rename_i more
      obtain ⟨chunk, next, fits'⟩ := p2abChunk_next range fits more
      obtain ⟨s₃, rest, left⟩ :=
        @ih (len - p2abChunk len) (by omega) s₂ _ (buf + p2abChunk len) done.synced (by omega) fits'
      have whole : len = p2abChunk len + (len - p2abChunk len) := by omega
      have touched := left.touched
      rw [done.mmio] at touched
      refine ⟨s₃, rest, left.synced, left.mmio.trans done.mmio, ?_, left.ram.trans done.ram, ?_⟩
      · rw [left.ahb, done.ahb, done.ram, next, whole, ByteMem.read_add, ByteMem.write_append, ByteMem.read_length,
          ← whole]
      · exact (done.touched.mono fun _ serves => serves.mono (Nat.le_refl _) (by omega)).trans
          (touched.mono fun _ serves => serves.mono (by omega) (by omega))
    · have whole : p2abChunk len = len := by omega
      rw [whole] at done
      exact ⟨s₂, rfl, done⟩

theorem p2abReadLoop_astray (synced : s.Synced) (crosses : ¬ P2aFits phys len) :
    ∃ s', (p2abReadLoop phys buf len).run s = .error .fault s' ∧ s.Astray s' := by
  obtain ⟨s₁, map, mapped, mmio₁, _, _, touched₁⟩ := p2abMap_ok synced phys
  have first := mt p2abChunk_fits_iff.mp crosses
  obtain ⟨_, faults⟩ := p2abIngress_advances mapped (p2abChunk len) s₁ (Nat.zero_le _)
    (s₁.ingressed_refl phys (p2abChunk len) buf)
  obtain ⟨s₂, fault, astray⟩ := faults (by omega)
  rw [P2ab.Astray, mmio₁] at astray
  refine ⟨s₂, ?_, Strayed.after touched₁ astray⟩
  rw [p2abReadLoop, Prog.run_bind_ok (orMinusOne_ok.mpr map)]
  simp only [EStateM.run_bind, EStateM.run_get, fault]

theorem p2abWriteLoop_astray (synced : s.Synced) (crosses : ¬ P2aFits phys len) :
    ∃ s', (p2abWriteLoop phys buf len).run s = .error .fault s' ∧ s.Astray s' := by
  obtain ⟨s₁, map, mapped, mmio₁, _, _, touched₁⟩ := p2abMap_ok synced phys
  have first := mt p2abChunk_fits_iff.mp crosses
  obtain ⟨_, faults⟩ := p2abEgress_advances mapped (p2abChunk len) s₁ (Nat.zero_le _)
    (s₁.egressed_refl phys (p2abChunk len) buf)
  obtain ⟨s₂, fault, astray⟩ := faults (by omega)
  rw [P2ab.Astray, mmio₁] at astray
  refine ⟨s₂, ?_, Strayed.after touched₁ astray⟩
  rw [p2abWriteLoop, Prog.run_bind_ok (orMinusOne_ok.mpr map)]
  simp only [EStateM.run_bind, EStateM.run_get, fault]

theorem p2abReadl_misaligned (misaligned : phys.toNat % 4 ≠ 0) :
    (p2abReadl phys).run s = .error (.rc einval) s := by
  rw [p2abReadl, if_pos fun zero => misaligned ((and_three_eq_zero_iff phys).mp zero)]
  rfl

theorem p2abReadl_ok (synced : s.Synced) (aligned : phys.toNat % 4 = 0) : ∃ s',
    (p2abReadl phys).run s = .ok (ByteMem.readWord s.bar.ahb phys.toNat) s' ∧ s'.Synced ∧ s'.bar.ahb = s.bar.ahb ∧
      Grown (P2abAccess.Serves s.mmio phys.toNat 4) s.touched s'.touched := by
  obtain ⟨s₁, map, mapped, mmio₁, ahb₁, _, touched₁⟩ := p2abMap_ok synced phys
  have fits : 0x10000 + phys.toNat % 0x10000 + 4 ≤ 0x20000 := by omega
  have load := run_touch_ok (s := s₁) (fun bar o => (bar.load o 4, bar)) fits
  have aliased : s₁.bar.load (0x10000 + phys.toNat % 0x10000) 4 = ByteMem.read s.bar.ahb phys.toNat 4 := by
    rw [P2aBar.load_window, mapped.rbar, mapped.window, ahb₁]
  let s₂ : P2ab := { s₁ with
    touched := s₁.access (s₁.mmio + (0x10000 + phys.toNat % 0x10000)) 4 :: s₁.touched }
  refine ⟨s₂, ?_, ⟨mapped.rbar, mapped.pkr⟩, ahb₁, (touched₁.mono fun _ remap => Or.inl remap).cons ?_⟩
  · rw [p2abReadl, if_neg (not_not.mpr ((and_three_eq_zero_iff phys).mpr aligned))]
    simp only [EStateM.run_bind, EStateM.run_get, EStateM.run_pure, map, barLoad, p2abWindowBase, Nat.add_assoc, load]
    rw [aliased, ByteMem.wordOf_read]
  · rw [mmio₁]
    exact P2ab.access_serves (k := 0) (by rw [mapped.rbar, mapped.window]; rfl) (by omega) (Nat.le_refl 4)

theorem p2abWritel_ok (synced : s.Synced) (fits : phys.toNat % 0x10000 + 4 ≤ 0x10000) (val : Word) : ∃ s',
    (p2abWritel phys val).run s = .ok () s' ∧ s'.Synced ∧
      s'.bar.ahb = ByteMem.writeWord s.bar.ahb phys.toNat val ∧
      Grown (P2abAccess.Serves s.mmio phys.toNat 4) s.touched s'.touched := by
  obtain ⟨s₁, map, mapped, mmio₁, ahb₁, _, touched₁⟩ := p2abMap_ok synced phys
  have inside : 0x10000 + phys.toNat % 0x10000 + 4 ≤ 0x20000 := by omega
  have store := run_touch_ok (s := s₁) (n := 4) (fun bar o => ((), bar.store o val.bytes)) inside
  let s₂ : P2ab := { s₁ with
    bar := s₁.bar.store (0x10000 + phys.toNat % 0x10000) val.bytes
    touched := s₁.access (s₁.mmio + (0x10000 + phys.toNat % 0x10000)) 4 :: s₁.touched }
  refine ⟨s₂, ?_, ?_, ?_, (touched₁.mono fun _ remap => Or.inl remap).cons ?_⟩
  · rw [p2abWritel, Prog.run_bind_ok map]
    simp only [EStateM.run_bind, EStateM.run_get, barStore, p2abWindowBase, Nat.add_assoc, Word.bytes_length, store, s₂]
  · simp only [s₂, P2aBar.store_window]
    exact ⟨mapped.rbar, mapped.pkr⟩
  · show (s₁.bar.store (0x10000 + phys.toNat % 0x10000) val.bytes).ahb = _
    rw [P2aBar.store_window, mapped.rbar, mapped.window, ahb₁]
    rfl
  · rw [mmio₁]
    exact P2ab.access_serves (k := 0) (by rw [mapped.rbar, mapped.window]; rfl) fits (Nat.le_refl 4)

theorem p2abWritel_astray (synced : s.Synced) (crosses : 0x10000 < phys.toNat % 0x10000 + 4) (val : Word) :
    ∃ s', (p2abWritel phys val).run s = .error .fault s' ∧ s.Astray s' := by
  obtain ⟨s₁, map, mapped, mmio₁, _, _, touched₁⟩ := p2abMap_ok synced phys
  have beyond : 0x20000 < 0x10000 + phys.toNat % 0x10000 + 4 := by omega
  have fault := run_touch_fault (s := s₁) (n := 4) (fun bar o => ((), bar.store o val.bytes)) beyond
  have astray : s.Astray { s₁ with touched := s₁.access (s.mmio + _) 4 :: s₁.touched } :=
    astray_of_beyond beyond (by omega) touched₁
  rw [← mmio₁] at astray
  refine ⟨_, ?_, astray⟩
  rw [p2abWritel, Prog.run_bind_ok map]
  simp only [EStateM.run_bind, EStateM.run_get, barStore, p2abWindowBase, Nat.add_assoc, Word.bytes_length, fault]

end

/-- The requests that stay in their window. -/
def P2aServed : MemOp → Prop
  | .read phys len => P2aFits phys len
  | .write phys bs => P2aFits phys bs.length
  | .readl _ => True
  | .writel phys _ => phys.toNat % 0x10000 ≤ 0xfffc

section
variable {s : P2ab} {op : MemOp}

/-- A call that is served succeeds as on a flat memory, or refuses with EINVAL. -/
theorem p2abCall_served (synced : s.Synced) (range : op.InRange) (buf : Nat) (served : P2aServed op) :
    (∃ r s', (p2abCall buf op).run s = .ok r s' ∧ FlatStep s.bar.ahb (op, r) s'.bar.ahb ∧ s'.Synced ∧
      Grown (P2abAccess.Serves s.mmio op.addr.toNat op.len) s.touched s'.touched) ∨
    (p2abCall buf op).run s = .error (.rc einval) s := by
  cases op with
  | read phys len =>
    have small : ¬ len > ssizeMax := by
      simp only [MemOp.InRange, MemOp.len, ssizeMax] at *
      omega
    obtain ⟨s', run, done⟩ := @p2abReadLoop_ok s phys buf len synced range served
    refine Or.inl ⟨.bytes (ByteMem.read s'.ram buf len), s', ?_, ⟨?_, done.ahb⟩, done.synced, done.touched⟩
    · rw [p2abCall, p2abRead, if_neg small]
      exact (Prog.run_bind_ok run).trans rfl
    · have back := ByteMem.read_write s.ram buf (ByteMem.read s.bar.ahb phys.toNat len)
      rw [ByteMem.read_length] at back
      rw [done.ram, back]
      rfl
  | write phys bs =>
    have small : ¬ bs.length > ssizeMax := by
      simp only [MemOp.InRange, MemOp.len, ssizeMax] at *
      omega
    have filled : P2ab.Synced { s with ram := ByteMem.write s.ram buf bs } := ⟨synced.rbar, synced.pkr⟩
    obtain ⟨s', run, done⟩ := @p2abWriteLoop_ok _ phys buf bs.length filled range served
    refine Or.inl ⟨.done, s', ?_, ⟨rfl, ?_⟩, done.synced, done.touched⟩
    · rw [p2abCall, p2abWrite, if_neg small]
      exact (Prog.run_bind_ok run).trans rfl
    · rw [done.ahb]
      show ByteMem.write s.bar.ahb _ (ByteMem.read (ByteMem.write s.ram buf bs) buf bs.length) = _
      rw [ByteMem.read_write]
      rfl
  | readl phys =>
    by_cases aligned : phys.toNat % 4 = 0
    · obtain ⟨s', run, synced', ahb', touched⟩ := p2abReadl_ok synced aligned
      exact Or.inl ⟨_, s', (Prog.run_bind_ok run).trans rfl, ⟨rfl, ahb'⟩, synced', touched⟩
    · exact Or.inr (Prog.run_bind_error (p2abReadl_misaligned aligned))
  | writel phys val =>
    have fits : phys.toNat % 0x10000 + 4 ≤ 0x10000 := by
      simp only [P2aServed] at served
      omega
    obtain ⟨s', run, synced', ahb', touched⟩ := p2abWritel_ok synced fits val
    exact Or.inl ⟨.done, s', (Prog.run_bind_ok run).trans rfl, ⟨rfl, ahb'⟩, synced', touched⟩

/-- A call that is not served runs out of the BAR. -/
theorem p2abCall_astray (synced : s.Synced) (range : op.InRange) (buf : Nat) (refused : ¬ P2aServed op) :
    ∃ s', (p2abCall buf op).run s = .error .fault s' ∧ s.Astray s' := by
  cases op with
  | read phys len =>
    have small : ¬ len > ssizeMax := by
      simp only [MemOp.InRange, MemOp.len, ssizeMax] at *
      omega
    obtain ⟨s', fault, astray⟩ := @p2abReadLoop_astray s phys buf len synced refused
    refine ⟨s', ?_, astray⟩
    rw [p2abCall, p2abRead, if_neg small]
    exact Prog.run_bind_error fault
  | write phys bs =>
    have small : ¬ bs.length > ssizeMax := by
      simp only [MemOp.InRange, MemOp.len, ssizeMax] at *
      omega
    have filled : P2ab.Synced { s with ram := ByteMem.write s.ram buf bs } := ⟨synced.rbar, synced.pkr⟩
    obtain ⟨s', fault, astray⟩ := @p2abWriteLoop_astray _ phys buf bs.length filled refused
    refine ⟨s', ?_, astray⟩
    rw [p2abCall, p2abWrite, if_neg small]
    exact (Prog.run_bind_ok rfl).trans (Prog.run_bind_error fault)
  | readl phys => exact absurd trivial refused
  | writel phys val =>
    have crosses : 0x10000 < phys.toNat % 0x10000 + 4 := by
      simp only [P2aServed] at refused
      omega
    obtain ⟨s', fault, astray⟩ := p2abWritel_astray synced crosses val
    exact ⟨s', Prog.run_bind_error fault, astray⟩

end

/-- A call that returns, with a value or with an error. -/
def P2abReturns (s : P2ab) (e : Nat × MemOp) (s' : P2ab) : Prop :=
  e.2.InRange ∧ ((∃ r, (p2abCall e.1 e.2).run s = .ok r s') ∨ ∃ err, (p2abCall e.1 e.2).run s = .error (.rc err) s')

/-- Reached from a successful `p2ab_init` by calls. -/
def P2abReach (s : P2ab) : Prop := ∃ pciOpen mmap t s₀ es,
  (p2abInit pciOpen mmap).run t = .ok () s₀ ∧ Run P2abReturns s₀ es s

/-- Once the BAR is mapped, initialisation moves the window to 0 and unlocks the bridge. -/
theorem p2abInit_ok (t : P2ab) (addr : Nat) : ∃ s, (p2abInit (.ok ()) (.ok addr)).run t = .ok () s ∧ s.Synced ∧
    s.mmio = addr ∧ s.violations = t.violations ∧ Grown (·.addr < addr + 0x10000) t.touched s.touched := by
  let t₁ : P2ab := { t with mmio := addr, rbar := 0 }
  let t₂ : P2ab := { t₁ with
    bar := t.bar.store p2abRbar (0 : Word).bytes, touched := t₁.access (addr + p2abRbar) 4 :: t.touched }
  have first : (p2abRegWritel p2abRbar 0).run t₁ = .ok () t₂ := run_p2abRegWritel 0 (Or.inr rfl)
  have second := run_p2abRegWritel (s := t₂) 1 (Or.inl rfl)
  obtain ⟨rbarEq, _, _⟩ := t.bar.store_rbar 0
  obtain ⟨pkrEq, rbarKept, _⟩ := t₂.bar.store_pkr 1
  refine ⟨_, (Prog.run_bind_ok first).trans second, ⟨rbarKept.trans rbarEq, pkrEq⟩, rfl, rfl, ?_⟩
  refine ((Grown.refl _ t.touched).cons ?_).cons ?_
  · exact Nat.add_lt_add_left (by decide) addr
  · exact Nat.add_lt_add_left (by decide) addr

theorem p2abInit_synced {pciOpen : Except Errno Unit} {mmap : Except Errno Nat} {t s : P2ab}
    (run : (p2abInit pciOpen mmap).run t = .ok () s) : s.Synced := by
  cases pciOpen with
  | error e => cases run
  | ok _ =>
    cases mmap with
    | error e => cases run
    | ok addr =>
      obtain ⟨s', whole, synced, _⟩ := p2abInit_ok t addr
      have same := run.symm.trans whole
      cases same
      exact synced

theorem P2abReturns.synced {s s' : P2ab} {e : Nat × MemOp} (synced : s.Synced) (step : P2abReturns s e s') :
    s'.Synced := by
  obtain ⟨range, returned⟩ := step
  by_cases served : P2aServed e.2
  · rcases p2abCall_served synced range e.1 served with ⟨r, t, run, _, synced', _⟩ | run
    · rcases returned with ⟨_, ok⟩ | ⟨_, error⟩
      · rw [run] at ok
        cases ok
        exact synced'
      · rw [run] at error
        cases error
    · rcases returned with ⟨_, ok⟩ | ⟨_, error⟩
      · rw [run] at ok
        cases ok
      · rw [run] at error
        cases error
        exact synced
  · obtain ⟨t, fault, _⟩ := p2abCall_astray synced range e.1 served
    rcases returned with ⟨_, ok⟩ | ⟨_, error⟩
    · rw [fault] at ok
      cases ok
    · rw [fault] at error
      cases error

theorem P2abReach.synced {s : P2ab} (reach : P2abReach s) : s.Synced := by
  obtain ⟨_, _, t, s₀, es, init, run⟩ := reach
  exact run.invariant (fun _ _ _ synced step => step.synced synced) (p2abInit_synced init)

/-- If the call succeeds it does what it does to a flat memory; in any case it touches none but its
own bytes, within the window, and RBAR. -/
def P2abFlat (s : P2ab) (buf : Nat) (op : MemOp) : Prop :=
  (∀ r s', (p2abCall buf op).run s = .ok r s' → FlatStep s.bar.ahb (op, r) s'.bar.ahb) ∧
    Grown (P2abAccess.Serves s.mmio op.addr.toNat op.len) s.touched ((p2abCall buf op).run s).state.touched

/-- In every reachable state the bridge behaves as a flat memory exactly for the calls it serves. -/
theorem p2ab_flat_iff_served {s : P2ab} (reach : P2abReach s) (buf : Nat) {op : MemOp} (range : op.InRange) :
    P2abFlat s buf op ↔ P2aServed op := by
  have synced := reach.synced
  constructor
  · intro flat
    by_contra refused
    obtain ⟨s', fault, astray⟩ := p2abCall_astray synced range buf refused
    have touched := flat.2
    rw [fault] at touched
    exact astray.not_grown (fun _ serves => ⟨_, _, serves⟩) touched
  · intro served
    rcases p2abCall_served synced range buf served with ⟨r, s', run, flat, _, touched⟩ | run
    · refine ⟨fun r' t ok => ?_, by rw [run]; exact touched⟩
      rw [run] at ok
      cases ok
      exact flat
    · refine ⟨fun r' t ok => ?_, by rw [run]; exact Grown.refl _ _⟩
      rw [run] at ok
      cases ok

/-- The bridge before `p2ab_init`, over cleared memory. -/
def p2abClosed : P2ab where
  mmio := 0
  rbar := 0
  bar := ⟨fun _ => 0, fun _ => 0⟩
  ram := fun _ => 0
  touched := []
  ndebug := true
  violations := 0

/-- The bridge as `p2ab_init` leaves it, with the BAR mapped at 0x7f0000000000. -/
def p2abOpened : P2ab := ((p2abInit (.ok ()) (.ok 0x7f0000000000)).run p2abClosed).state

theorem p2abOpened_reach : P2abReach p2abOpened := by
  obtain ⟨s, run, _⟩ := p2abInit_ok p2abClosed 0x7f0000000000
  have opened : p2abOpened = s := by rw [p2abOpened, run, EStateM.Result.state_ok]
  exact ⟨.ok (), .ok 0x7f0000000000, p2abClosed, s, [], run, by rw [opened]; exact .nil s⟩

/-- The read of a register. -/
theorem p2abOpened_flat_iff : P2abFlat p2abOpened 0 (.readl 0x1e6e2004) ↔ P2aServed (.readl 0x1e6e2004) :=
  p2ab_flat_iff_served p2abOpened_reach 0 (by decide)

/-- 32 bytes at 0xfff0, across a 64 KiB boundary, run out of the window. -/
theorem p2ab_not_flat : ¬ ∀ (s : P2ab) (buf : Nat) (op : MemOp), P2abReach s → op.InRange → P2abFlat s buf op := by
  intro flat
  have range : (MemOp.read 0xfff0 0x20).InRange := by decide
  have crosses : ¬ P2aServed (.read 0xfff0 0x20) := by
    simp [P2aServed, P2aFits]
  obtain ⟨s', fault, astray⟩ := p2abCall_astray p2abOpened_reach.synced range 0 crosses
  have touched := (flat p2abOpened 0 _ p2abOpened_reach range).2
  rw [fault] at touched
  exact astray.not_grown (fun _ serves => ⟨_, _, serves⟩) touched

end Culvert
