import Culvert.Bridge.Devmem
import Culvert.Lib.Run
import Culvert.Lib.Trace

namespace Culvert

/-- The access went through the current window or the SoC I/O mapping, stayed in it, and touched
none but the `len` physical bytes from `phys` on. -/
structure DevmemAccess.Serves (io : Mapping) (phys len : Nat) (a : DevmemAccess) : Prop where
  view : a.view = io ∨ a.win = some a.view
  inside : a.view.addr ≤ a.addr ∧ a.addr + a.len ≤ a.view.addr + a.view.len
  bytes : phys ≤ a.view.base + (a.addr - a.view.addr) ∧ a.view.base + (a.addr - a.view.addr) + a.len ≤ phys + len

namespace Devmem

/-- `w` is a live view of the physical bytes the context says it is. -/
structure Window (s : Devmem) (w : Mapping) : Prop where
  base : w.base = s.phys.toNat
  len : w.len = s.len
  live : w.id ∉ s.unmapped
  known : w.id < s.calls
  apart : w.id ≠ s.io.id

/-- What the calls keep: the I/O view is mapped where it should be, and a window that is open is one of the mappings
that are left. -/
structure Inv (s : Devmem) : Prop where
  io : s.io.base = astSocIo.toNat ∧ s.io.len = astSocIoLen.toNat
  ioLive : s.io.id ∉ s.unmapped
  ioKnown : s.io.id < s.calls
  win : ∀ w, s.win = some w → s.Window w
  gone : ∀ id ∈ s.unmapped, id < s.calls

/-- What system calls on windows leave alone. -/
structure Kept (s s' : Devmem) : Prop where
  mem : s'.mem = s.mem
  ram : s'.ram = s.ram
  io : s'.io = s.io
  touched : s'.touched = s.touched

/-- `phys` is at `woff` in the window `w`, with `len` bytes from there on. -/
structure Covers (s : Devmem) (w : Mapping) (phys : Word) (woff len : Nat) : Prop where
  win : s.win = some w
  start : w.base + woff = phys.toNat
  fits : woff + len ≤ w.len

theorem Kept.refl (s : Devmem) : s.Kept s := ⟨rfl, rfl, rfl, rfl⟩

theorem Kept.trans {s t u : Devmem} (first : s.Kept t) (second : t.Kept u) : s.Kept u :=
  ⟨second.mem.trans first.mem, second.ram.trans first.ram, second.io.trans first.io,
    second.touched.trans first.touched⟩

end Devmem

/-- The page of an address and the offset in it add up to the address, whatever the page size. -/
theorem devmemAligned_add_offset (pgsize : Size) (phys : Word) :
    (devmemAligned pgsize phys).toNat + (devmemOffset pgsize phys).toNat = phys.toNat := by
  have aligned : devmemAligned pgsize phys = phys &&& ~~~(pgsize - 1).setWidth 32 := by
    rw [devmemAligned, BitVec.setWidth_and, BitVec.setWidth_not (by decide)]
    congr 1
    exact BitVec.setWidth_setWidth_of_le phys (by decide)
  have offset : devmemOffset pgsize phys = phys &&& (pgsize - 1).setWidth 32 := by
    rw [devmemOffset, BitVec.setWidth_and]
    congr 1
    exact BitVec.setWidth_setWidth_of_le phys (by decide)
  rw [aligned, offset, Nat.add_comm]
  exact Word.toNat_and_add_and_not phys _

section
variable {s s' : Devmem} {phys : Word} {buf len : Nat}

open Devmem

/-- After a system call that failed the window is gone, and with it what the context says of it. -/
theorem Devmem.Inv.dropped (inv : s.Inv) (phys : Word) (len : Nat) :
    { s with win := none, phys := phys, len := len, calls := s.calls + 1 }.Inv where
  io := inv.io
  ioLive := inv.ioLive
  ioKnown := Nat.lt_succ_of_lt inv.ioKnown
  win _ none := nomatch none
  gone id old := Nat.lt_succ_of_lt (inv.gone id old)

theorem Devmem.Inv.munmap (inv : s.Inv) {w : Mapping} (win : s.win = some w) :
    (∃ s', (Devmem.munmap w s.len).run s = .ok () s' ∧ { s' with win := none }.Inv ∧ s.Kept s') ∨
    ∃ e s', (Devmem.munmap w s.len).run s = .error (.rc e) s' ∧ { s' with win := none, phys := 0, len := 0 }.Inv ∧
      s.Kept s' := by
  have window := inv.win w win
  simp only [Devmem.munmap, EStateM.run, if_neg (not_not.mpr window.len)]
  cases s.munmaps s.calls with
  | error e => exact Or.inr ⟨e, _, rfl, inv.dropped 0 0, ⟨rfl, rfl, rfl, rfl⟩⟩
  | ok _ =>
    refine Or.inl ⟨_, rfl, ?_, ⟨rfl, rfl, rfl, rfl⟩⟩
    have dropped := inv.dropped s.phys s.len
    refine ⟨inv.io, fun old => ?_, dropped.ioKnown, fun _ none => (nomatch none), fun id old => ?_⟩
    · rcases List.mem_cons.mp old with same | old
      · exact window.apart same.symm
      · exact inv.ioLive old
    · rcases List.mem_cons.mp old with rfl | old
      · exact Nat.lt_succ_of_lt window.known
      · exact dropped.gone id old

/-- A new window is a live view of what was asked for. -/
theorem Devmem.Inv.mmap (inv : s.Inv) (len : Nat) (aligned : Word) :
    (∃ w s', (Devmem.mmap len aligned).run s = .ok w s' ∧ w.base = aligned.toNat ∧ w.len = len ∧
      { s' with win := some w, phys := aligned, len := len }.Inv ∧ s.Kept s') ∨
    ∃ e s', (Devmem.mmap len aligned).run s = .error (.rc e) s' ∧ { s' with win := none, phys := 0, len := 0 }.Inv ∧
      s.Kept s' := by
  have fresh : s.calls ∉ s.unmapped := fun old => absurd (inv.gone _ old) (Nat.lt_irrefl _)
  simp only [Devmem.mmap, EStateM.run]
  cases s.mmaps s.calls with
  | error e => exact Or.inr ⟨e, _, rfl, inv.dropped 0 0, ⟨rfl, rfl, rfl, rfl⟩⟩
  | ok addr =>
    refine Or.inl ⟨_, _, rfl, rfl, rfl, ?_, ⟨rfl, rfl, rfl, rfl⟩⟩
    have dropped := inv.dropped s.phys s.len
    refine ⟨inv.io, inv.ioLive, dropped.ioKnown, fun w win => ?_, dropped.gone⟩
    cases win
    exact ⟨rfl, rfl, fresh, Nat.lt_succ_self _, fun same => absurd inv.ioKnown (by rw [← same]; exact Nat.lt_irrefl _)⟩

/-- The context has a window over the request, or the call has failed and the window is dropped. -/
def Devmem.SetUp (s : Devmem) (phys : Word) (len : Nat) (r : EStateM.Result Stop Devmem Nat) : Prop :=
  (∃ w woff s', r = .ok woff s' ∧ s'.Inv ∧ s'.Covers w phys woff len ∧ s.Kept s') ∨
    ∃ e s', r = .error (.rc e) s' ∧ { s' with win := none, phys := 0, len := 0 }.Inv ∧ s.Kept s'

theorem devmemOpenWin_outcome (inv : s.Inv) (none : s.win = none) {aligned : Word} {offset : Nat}
    (sum : aligned.toNat + offset = phys.toNat) (len : Nat) :
    s.SetUp phys len ((devmemOpenWin aligned offset len).run s) := by
  rcases inv.mmap (offset + len) aligned with ⟨w, s', run, base, width, inv', kept⟩ | ⟨e, s', run, inv', kept⟩
  · have opened : (devmemOpenWin aligned offset len).run s =
        .ok offset { s' with win := some w, phys := aligned, len := offset + len } := by
      simp only [devmemOpenWin, EStateM.run_bind, EStateM.run_get, none, Option.isNone_none, if_true, run]
      rfl
    exact Or.inl ⟨w, offset, _, opened, inv', ⟨rfl, by rw [base, sum], Nat.le_of_eq width.symm⟩,
      ⟨kept.mem, kept.ram, kept.io, kept.touched⟩⟩
  · have failed : (devmemOpenWin aligned offset len).run s = .error (.rc e) s' := by
      simp only [devmemOpenWin, EStateM.run_bind, EStateM.run_get, none, Option.isNone_none, if_true, run]
    exact Or.inr ⟨e, s', failed, inv', kept⟩

theorem devmemMapWin_outcome (inv : s.Inv) (phys : Word) (len : Nat) :
    s.SetUp phys len ((devmemMapWin phys len).run s) := by
  have sum := devmemAligned_add_offset s.pgsize phys
  cases win : s.win with
  | none =>
    have fresh : (devmemMapWin phys len).run s =
        (devmemOpenWin (devmemAligned s.pgsize phys) (devmemOffset s.pgsize phys).toNat len).run s := by
      simp only [devmemMapWin, EStateM.run_bind, EStateM.run_get, win]
    rw [fresh]
    exact devmemOpenWin_outcome inv win sum len
  | some w =>
    have window := inv.win w win
    by_cases reuse : s.phys = devmemAligned s.pgsize phys ∧ s.len ≥ (devmemOffset s.pgsize phys).toNat + len
    · have kept : (devmemMapWin phys len).run s = .ok (devmemOffset s.pgsize phys).toNat s := by
        simp only [devmemMapWin, EStateM.run_bind, EStateM.run_get, win, if_neg (not_not.mpr reuse), devmemOpenWin]
        rfl
      have covers : s.Covers w phys (devmemOffset s.pgsize phys).toNat len :=
        ⟨win, by rw [window.base, reuse.1, sum], by rw [window.len]; exact reuse.2⟩
      exact Or.inl ⟨w, _, s, kept, inv, covers, Kept.refl s⟩
    · rcases inv.munmap win with ⟨s₁, drop, inv₁, kept₁⟩ | ⟨e, s₁, drop, inv₁, kept₁⟩
      · have dropped : (devmemMapWin phys len).run s =
            (devmemOpenWin (devmemAligned s.pgsize phys) (devmemOffset s.pgsize phys).toNat len).run
              { s₁ with win := none } := by
          simp only [devmemMapWin, EStateM.run_bind, EStateM.run_get, win, if_pos reuse, drop]
          rfl
        have kept₂ : s.Kept { s₁ with win := none } := ⟨kept₁.mem, kept₁.ram, kept₁.io, kept₁.touched⟩
        rw [dropped]
        rcases devmemOpenWin_outcome inv₁ rfl sum len with ⟨w', woff, s', run, inv', covers, kept⟩ |
          ⟨e, s', run, inv', kept⟩
        · exact Or.inl ⟨w', woff, s', run, inv', covers, kept₂.trans kept⟩
        · exact Or.inr ⟨e, s', run, inv', kept₂.trans kept⟩
      · have failed : (devmemMapWin phys len).run s = .error (.rc e) s₁ := by
          simp only [devmemMapWin, EStateM.run_bind, EStateM.run_get, win, if_pos reuse, drop]
        exact Or.inr ⟨e, s₁, failed, inv₁, kept₁⟩

/-- What `devmem_setup_win` leaves: a window over the request, or none at all. -/
theorem devmemSetupWin_outcome (inv : s.Inv) (phys : Word) (len : Nat) :
    (∃ w woff s', (devmemSetupWin phys len).run s = .ok woff s' ∧ s'.Inv ∧ s'.Covers w phys woff len ∧ s.Kept s') ∨
    ∃ e s', (devmemSetupWin phys len).run s = .error (.rc e) s' ∧ s'.Inv ∧ s.Kept s' := by
  rcases devmemMapWin_outcome inv phys len with ⟨w, woff, s', run, inv', covers, kept⟩ | ⟨e, s', run, inv', kept⟩
  · exact Or.inl ⟨w, woff, s', (Prog.run_bind_ok (Prog.attempt_ok run)).trans rfl, inv', covers, kept⟩
  · exact Or.inr ⟨e, _, (Prog.run_bind_ok (Prog.attempt_rc run)).trans rfl, inv',
      ⟨kept.mem, kept.ram, kept.io, kept.touched⟩⟩

theorem run_devmemWin {w : Mapping} (win : s.win = some w) : devmemWin.run s = .ok w s := by
  simp only [devmemWin, EStateM.run_bind, EStateM.run_get, win]
  rfl

/-- An access that lies in a live view. -/
theorem run_touch {α : Type} {m : Mapping} {o n : Nat} (live : m.id ∉ s.unmapped) (fits : o + n ≤ m.len)
    (f : Mem → Nat → α × Mem) : (Devmem.touch m (m.addr + o) n f).run s =
      .ok (f s.mem (m.base + o)).1 { s with
        mem := (f s.mem (m.base + o)).2, touched := ⟨m, m.addr + o, n, s.win⟩ :: s.touched } := by
  simp only [Devmem.touch, EStateM.run]
  rw [if_pos ⟨live, by omega, by omega⟩, Nat.add_sub_cancel_left]

theorem run_viewLoad {m : Mapping} {o n : Nat} (live : m.id ∉ s.unmapped) (fits : o + n ≤ m.len) :
    (viewLoad m (m.addr + o) n).run s = .ok (ByteMem.read s.mem (m.base + o) n)
      { s with touched := ⟨m, m.addr + o, n, s.win⟩ :: s.touched } :=
  run_touch live fits fun mem a => (ByteMem.read mem a n, mem)

theorem run_viewStore {m : Mapping} {o : Nat} {bs : List Byte} (live : m.id ∉ s.unmapped)
    (fits : o + bs.length ≤ m.len) : (viewStore m (m.addr + o) bs).run s = .ok () { s with
      mem := ByteMem.write s.mem (m.base + o) bs, touched := ⟨m, m.addr + o, bs.length, s.win⟩ :: s.touched } :=
  run_touch live fits fun mem a => ((), ByteMem.write mem a bs)

/-- An access through a view at an offset serves the bytes that are there. -/
theorem DevmemAccess.serves {io m : Mapping} {win : Option Mapping} {o n k : Nat} (view : m = io ∨ win = some m)
    (fits : o + n ≤ m.len) (start : m.base + o = phys.toNat + k) (inside : k + n ≤ len) :
    DevmemAccess.Serves io phys.toNat len ⟨m, m.addr + o, n, win⟩ := by
  refine ⟨view, ⟨Nat.le_add_right _ _, by simp only; omega⟩, ?_⟩
  simp only [Nat.add_sub_cancel_left]
  omega

theorem Devmem.Inv.data (inv : s.Inv) (mem ram : Mem) (touched : List DevmemAccess) :
    { s with mem := mem, ram := ram, touched := touched }.Inv where
  io := inv.io
  ioLive := inv.ioLive
  ioKnown := inv.ioKnown
  win w win := ⟨(inv.win w win).base, (inv.win w win).len, (inv.win w win).live, (inv.win w win).known,
    (inv.win w win).apart⟩
  gone := inv.gone

/-- After copying `k` of `len` bytes of the window out to `buf`. -/
structure Devmem.Ingressed (s : Devmem) (phys : Word) (len buf k : Nat) (s' : Devmem) : Prop where
  inv : s'.Inv
  ctx : s'.win = s.win ∧ s'.io = s.io
  mem : s'.mem = s.mem
  ram : s'.ram = ByteMem.write s.ram buf (ByteMem.read s.mem phys.toNat k)
  touched : Grown (DevmemAccess.Serves s.io phys.toNat len) s.touched s'.touched

/-- After copying `k` of `len` bytes from `buf` into the window. -/
structure Devmem.Egressed (s : Devmem) (phys : Word) (len buf k : Nat) (s' : Devmem) : Prop where
  inv : s'.Inv
  ctx : s'.win = s.win ∧ s'.io = s.io
  mem : s'.mem = ByteMem.write s.mem phys.toNat (ByteMem.read s.ram buf k)
  ram : s'.ram = s.ram
  touched : Grown (DevmemAccess.Serves s.io phys.toNat len) s.touched s'.touched

theorem Devmem.ingress_advances {w : Mapping} {woff : Nat} (covers : s.Covers w phys woff len) {k n : Nat}
    (inside : k + n ≤ len) : Prog.Advances (s.Ingressed phys len buf) (fun _ => False) len k n
    (do ramStore (buf + k) (← viewLoad w (w.addr + woff + k) n)) := by
  intro t _ here
  refine ⟨fun _ => ?_, fun beyond => absurd beyond (by omega)⟩
  have win : t.win = some w := here.ctx.1.trans covers.win
  have fits : woff + k + n ≤ w.len := by
    have := covers.fits
    omega
  have start : w.base + (woff + k) = phys.toNat + k := by rw [← covers.start, Nat.add_assoc]
  have load := run_viewLoad (here.inv.win w win).live fits
  have served : DevmemAccess.Serves s.io phys.toNat len ⟨w, w.addr + (woff + k), n, t.win⟩ :=
    DevmemAccess.serves (Or.inr win) fits start inside
  rw [start, ← Nat.add_assoc] at load
  rw [← Nat.add_assoc] at served
  refine ⟨(), _, (Prog.run_bind_ok load).trans rfl, here.inv.data _ _ _, here.ctx, here.mem, ?_, here.touched.cons served⟩
  show ByteMem.write t.ram (buf + k) (ByteMem.read t.mem (phys.toNat + k) n) = _
  rw [here.mem, here.ram, ByteMem.read_add, ByteMem.write_append, ByteMem.read_length]

theorem Devmem.egress_advances {w : Mapping} {woff : Nat} (covers : s.Covers w phys woff len) {k n : Nat}
    (inside : k + n ≤ len) : Prog.Advances (s.Egressed phys len buf) (fun _ => False) len k n
    (do viewStore w (w.addr + woff + k) (← ramLoad (buf + k) n)) := by
  intro t _ here
  refine ⟨fun _ => ?_, fun beyond => absurd beyond (by omega)⟩
  have win : t.win = some w := here.ctx.1.trans covers.win
  have width : (ByteMem.read t.ram (buf + k) n).length = n := ByteMem.read_length _ _ _
  have fits : woff + k + (ByteMem.read t.ram (buf + k) n).length ≤ w.len := by
    have := covers.fits
    omega
  have start : w.base + (woff + k) = phys.toNat + k := by rw [← covers.start, Nat.add_assoc]
  have store := run_viewStore (here.inv.win w win).live fits
  have served : DevmemAccess.Serves s.io phys.toNat len
      ⟨w, w.addr + (woff + k), (ByteMem.read t.ram (buf + k) n).length, t.win⟩ :=
    DevmemAccess.serves (Or.inr win) fits start (by omega)
  rw [start, ← Nat.add_assoc] at store
  rw [← Nat.add_assoc] at served
  refine ⟨(), _, store, here.inv.data _ _ _, here.ctx, ?_, here.ram, here.touched.cons served⟩
  show ByteMem.write t.mem (phys.toNat + k) (ByteMem.read t.ram (buf + k) n) = _
  rw [here.ram, here.mem, ByteMem.read_add, ByteMem.write_append, ByteMem.read_length]

/-- `mmio_memcpy` out of a window that covers the request copies just the request. -/
theorem devmemIngress_ok {w : Mapping} {woff : Nat} (inv : s.Inv) (covers : s.Covers w phys woff len) (buf : Nat) :
    ∃ s', (mmioMemcpy (Devmem.ingress w) buf (w.addr + woff) len).run s = .ok () s' ∧
      s.Ingressed phys len buf len s' := by
  have start : s.Ingressed phys len buf 0 s :=
    ⟨inv, ⟨rfl, rfl⟩, rfl, by rw [ByteMem.read_zero, ByteMem.write_nil], Grown.refl _ _⟩
  have moves : Prog.Advances (s.Ingressed phys len buf) (fun _ => False) len 0 len
      (mmioMemcpy (Devmem.ingress w) buf (w.addr + woff) len) :=
    mmioMemcpy_advances (fun k below => Devmem.ingress_advances covers (by omega))
      (fun k below _ _ => Devmem.ingress_advances covers below)
  obtain ⟨_, s', run, done⟩ := (moves s (Nat.zero_le _) start).1 (by omega)
  rw [Nat.zero_add] at done
  exact ⟨s', run, done⟩

theorem devmemEgress_ok {w : Mapping} {woff : Nat} (inv : s.Inv) (covers : s.Covers w phys woff len) (buf : Nat) :
    ∃ s', (mmioMemcpy (Devmem.egress w) (w.addr + woff) buf len).run s = .ok () s' ∧
      s.Egressed phys len buf len s' := by
  have start : s.Egressed phys len buf 0 s :=
    ⟨inv, ⟨rfl, rfl⟩, by rw [ByteMem.read_zero, ByteMem.write_nil], rfl, Grown.refl _ _⟩
  have moves : Prog.Advances (s.Egressed phys len buf) (fun _ => False) len 0 len
      (mmioMemcpy (Devmem.egress w) (w.addr + woff) buf len) :=
    mmioMemcpy_advances (fun k below => Devmem.egress_advances covers (by omega))
      (fun k below _ _ => Devmem.egress_advances covers below)
  obtain ⟨_, s', run, done⟩ := (moves s (Nat.zero_le _) start).1 (by omega)
  rw [Nat.zero_add] at done
  exact ⟨s', run, done⟩

end

/-- A value is that of a flat memory and comes from the bytes asked for; an error leaves the memory
and its record of accesses alone. -/
def DevmemCorrect (s : Devmem) (op : MemOp) (r : EStateM.Result Stop Devmem MemReply) : Prop :=
  (∃ reply s', r = .ok reply s' ∧ FlatStep s.mem (op, reply) s'.mem ∧ s'.Inv ∧ s'.io = s.io ∧
    Grown (DevmemAccess.Serves s.io op.addr.toNat op.len) s.touched s'.touched) ∨
  ∃ e s', r = .error (.rc e) s' ∧ s'.Inv ∧ s'.mem = s.mem ∧ s'.io = s.io ∧ s'.touched = s.touched

section
variable {s : Devmem} {phys : Word}

open Devmem

theorem devmemRead_correct (inv : s.Inv) (buf : Nat) {len : Nat} (range : (MemOp.read phys len).InRange) :
    DevmemCorrect s (.read phys len) ((devmemCall buf (.read phys len)).run s) := by
  have small : ¬ len > ssizeMax := by
    simp only [MemOp.InRange, MemOp.len, ssizeMax] at *
    omega
  simp only [devmemCall, devmemRead, if_neg small]
  rcases devmemSetupWin_outcome inv phys len with ⟨w, woff, s₁, setup, inv₁, covers, kept⟩ |
    ⟨e, s₁, setup, inv₁, kept⟩
  · obtain ⟨s₂, copy, done⟩ := devmemIngress_ok inv₁ covers buf
    have body : (do
        let woff ← orMinusOne (devmemSetupWin phys len)
        let win ← devmemWin
        mmioMemcpy (Devmem.ingress win) buf (win.addr + woff) len : Prog Devmem Unit).run s = .ok () s₂ := by
      rw [Prog.run_bind_ok (orMinusOne_ok.mpr setup), Prog.run_bind_ok (run_devmemWin covers.win)]
      exact copy
    have touched := done.touched
    rw [kept.io, kept.touched] at touched
    refine Or.inl ⟨_, s₂, (Prog.run_bind_ok body).trans rfl, ⟨?_, done.mem.trans kept.mem⟩, done.inv,
      done.ctx.2.trans kept.io, touched⟩
    have back := ByteMem.read_write s₁.ram buf (ByteMem.read s₁.mem phys.toNat len)
    rw [ByteMem.read_length] at back
    rw [done.ram, back, kept.mem]
    rfl
  · have failed := orMinusOne_rc setup
    exact Or.inr ⟨eperm, s₁, Prog.run_bind_error (Prog.run_bind_error failed), inv₁, kept.mem, kept.io, kept.touched⟩

theorem devmemWrite_correct (inv : s.Inv) (buf : Nat) {bs : List Byte} (range : (MemOp.write phys bs).InRange) :
    DevmemCorrect s (.write phys bs) ((devmemCall buf (.write phys bs)).run s) := by
  have small : ¬ bs.length > ssizeMax := by
    simp only [MemOp.InRange, MemOp.len, ssizeMax] at *
    omega
  have filled : { s with ram := ByteMem.write s.ram buf bs }.Inv := inv.data s.mem _ s.touched
  simp only [devmemCall, devmemWrite, if_neg small]
  rcases devmemSetupWin_outcome filled phys bs.length with ⟨w, woff, s₁, setup, inv₁, covers, kept⟩ |
    ⟨e, s₁, setup, inv₁, kept⟩
  · obtain ⟨s₂, copy, done⟩ := devmemEgress_ok inv₁ covers buf
    have body : (do
        let woff ← orMinusOne (devmemSetupWin phys bs.length)
        let win ← devmemWin
        mmioMemcpy (Devmem.egress win) (win.addr + woff) buf bs.length : Prog Devmem Unit).run
          { s with ram := ByteMem.write s.ram buf bs } = .ok () s₂ := by
      rw [Prog.run_bind_ok (orMinusOne_ok.mpr setup), Prog.run_bind_ok (run_devmemWin covers.win)]
      exact copy
    have touched := done.touched
    rw [kept.io, kept.touched] at touched
    refine Or.inl ⟨.done, s₂, (Prog.run_bind_ok rfl).trans ((Prog.run_bind_ok body).trans rfl), ⟨rfl, ?_⟩, done.inv,
      done.ctx.2.trans kept.io, touched⟩
    rw [done.mem, kept.mem, kept.ram, ByteMem.read_write]
    rfl
  · have failed := orMinusOne_rc setup
    exact Or.inr ⟨eperm, s₁, (Prog.run_bind_ok rfl).trans (Prog.run_bind_error (Prog.run_bind_error failed)), inv₁,
      kept.mem, kept.io, kept.touched⟩

/-- An aligned word of the SoC I/O range lies in its mapping. -/
theorem socIo_fits (aligned : phys.toNat % 4 = 0) (socIo : InSocIo phys) :
    (phys - astSocIo).toNat + 4 ≤ astSocIoLen.toNat ∧ astSocIo.toNat + (phys - astSocIo).toNat = phys.toNat := by
  have above : 0x1e600000 ≤ phys.toNat := socIo.1
  have below : phys.toNat < 0x1e800000 := socIo.2
  have offset : (phys - astSocIo).toNat = phys.toNat - 0x1e600000 := BitVec.toNat_sub_of_le socIo.1
  have start : astSocIo.toNat = 0x1e600000 := rfl
  have len : astSocIoLen.toNat = 0x200000 := rfl
  omega

/-- A word access is made through one view, at the offset of `phys` in it. -/
theorem devmemWordView (inv : s.Inv) (aligned : phys.toNat % 4 = 0) :
    (InSocIo phys ∧ (phys - astSocIo).toNat + 4 ≤ s.io.len ∧ s.io.base + (phys - astSocIo).toNat = phys.toNat) ∨
      ¬ InSocIo phys := by
  by_cases socIo : InSocIo phys
  · obtain ⟨fits, sum⟩ := socIo_fits aligned socIo
    exact Or.inl ⟨socIo, by rw [inv.io.2]; exact fits, by rw [inv.io.1]; exact sum⟩
  · exact Or.inr socIo

theorem devmemReadl_correct (inv : s.Inv) (buf : Nat) :
    DevmemCorrect s (.readl phys) ((devmemCall buf (.readl phys)).run s) := by
  have word {s' : Devmem} {w : Word} (run : (devmemReadl phys).run s = .ok w s') :
      (devmemCall buf (.readl phys)).run s = .ok (.word w) s' := (Prog.run_bind_ok run).trans rfl
  by_cases aligned : phys.toNat % 4 = 0
  · have check : ¬ phys &&& 3 ≠ 0 := not_not.mpr ((and_three_eq_zero_iff phys).mpr aligned)
    rcases devmemWordView inv aligned with ⟨socIo, fits, start⟩ | other
    · have load := run_viewLoad inv.ioLive fits
      rw [start] at load
      have run : (devmemReadl phys).run s = .ok (ByteMem.readWord s.mem phys.toNat)
          { s with touched := ⟨s.io, s.io.addr + (phys - astSocIo).toNat, 4, s.win⟩ :: s.touched } := by
        simp only [devmemReadl, if_neg check, if_pos socIo, EStateM.run_bind, EStateM.run_get, EStateM.run_pure, load,
          ByteMem.wordOf_read]
      exact Or.inl ⟨_, _, word run, ⟨rfl, rfl⟩, inv.data _ _ _, rfl,
        (Grown.refl _ _).cons (DevmemAccess.serves (k := 0) (Or.inl rfl) fits start (Nat.le_refl 4))⟩
    · rcases devmemSetupWin_outcome inv phys 4 with ⟨w, woff, s₁, setup, inv₁, covers, kept⟩ |
        ⟨e, s₁, setup, inv₁, kept⟩
      · have load := run_viewLoad (inv₁.win w covers.win).live covers.fits
        rw [covers.start] at load
        have run : (devmemReadl phys).run s = .ok (ByteMem.readWord s.mem phys.toNat)
            { s₁ with touched := ⟨w, w.addr + woff, 4, s₁.win⟩ :: s₁.touched } := by
          simp only [devmemReadl, if_neg check, if_neg other, EStateM.run_bind, EStateM.run_pure, setup,
            run_devmemWin covers.win, load, ByteMem.wordOf_read, kept.mem]
        have served : Grown (DevmemAccess.Serves s.io phys.toNat 4) s.touched
            (⟨w, w.addr + woff, 4, s₁.win⟩ :: s₁.touched) := by
          rw [kept.touched]
          exact (Grown.refl _ _).cons (DevmemAccess.serves (k := 0) (Or.inr covers.win) covers.fits covers.start
            (Nat.le_refl 4))
        exact Or.inl ⟨_, _, word run, ⟨rfl, kept.mem⟩, inv₁.data _ _ _, kept.io, served⟩
      · have run : (devmemReadl phys).run s = .error (.rc e) s₁ := by
          simp only [devmemReadl, if_neg check, if_neg other, EStateM.run_bind, setup]
        exact Or.inr ⟨e, s₁, Prog.run_bind_error run, inv₁, kept.mem, kept.io, kept.touched⟩
  · have run : (devmemReadl phys).run s = .error (.rc einval) s := by
      rw [devmemReadl, if_pos fun zero => aligned ((and_three_eq_zero_iff phys).mp zero)]
      rfl
    exact Or.inr ⟨einval, s, Prog.run_bind_error run, inv, rfl, rfl, rfl⟩

theorem devmemWritel_correct (inv : s.Inv) (buf : Nat) {val : Word} :
    DevmemCorrect s (.writel phys val) ((devmemCall buf (.writel phys val)).run s) := by
  have done {s' : Devmem} (run : (devmemWritel phys val).run s = .ok () s') :
      (devmemCall buf (.writel phys val)).run s = .ok .done s' := (Prog.run_bind_ok run).trans rfl
  by_cases aligned : phys.toNat % 4 = 0
  · have check : ¬ phys &&& 3 ≠ 0 := not_not.mpr ((and_three_eq_zero_iff phys).mpr aligned)
    rcases devmemWordView inv aligned with ⟨socIo, fits, start⟩ | other
    · have store := @run_viewStore s _ _ val.bytes inv.ioLive fits
      rw [start] at store
      have run : (devmemWritel phys val).run s = .ok () { s with
          mem := ByteMem.write s.mem phys.toNat val.bytes
          touched := ⟨s.io, s.io.addr + (phys - astSocIo).toNat, val.bytes.length, s.win⟩ :: s.touched } := by
        simp only [devmemWritel, if_neg check, if_pos socIo, EStateM.run_bind, EStateM.run_get, store]
      exact Or.inl ⟨_, _, done run, ⟨rfl, rfl⟩, inv.data _ _ _, rfl,
        (Grown.refl _ _).cons (DevmemAccess.serves (k := 0) (Or.inl rfl) fits start (Nat.le_refl 4))⟩
    · rcases devmemSetupWin_outcome inv phys 4 with ⟨w, woff, s₁, setup, inv₁, covers, kept⟩ |
        ⟨e, s₁, setup, inv₁, kept⟩
      · have store := @run_viewStore s₁ _ _ val.bytes (inv₁.win w covers.win).live covers.fits
        rw [covers.start] at store
        have run : (devmemWritel phys val).run s = .ok () { s₁ with
            mem := ByteMem.write s₁.mem phys.toNat val.bytes
            touched := ⟨w, w.addr + woff, val.bytes.length, s₁.win⟩ :: s₁.touched } := by
          simp only [devmemWritel, if_neg check, if_neg other, EStateM.run_bind, setup, run_devmemWin covers.win, store]
        have served : Grown (DevmemAccess.Serves s.io phys.toNat 4) s.touched
            (⟨w, w.addr + woff, val.bytes.length, s₁.win⟩ :: s₁.touched) := by
          rw [kept.touched]
          exact (Grown.refl _ _).cons (DevmemAccess.serves (k := 0) (Or.inr covers.win) covers.fits covers.start
            (Nat.le_refl 4))
        refine Or.inl ⟨_, _, done run, ⟨rfl, ?_⟩, inv₁.data _ _ _, kept.io, served⟩
        show ByteMem.write s₁.mem phys.toNat val.bytes = _
        rw [kept.mem]
        rfl
      · have run : (devmemWritel phys val).run s = .error (.rc e) s₁ := by
          simp only [devmemWritel, if_neg check, if_neg other, EStateM.run_bind, setup]
        exact Or.inr ⟨e, s₁, Prog.run_bind_error run, inv₁, kept.mem, kept.io, kept.touched⟩
  · have run : (devmemWritel phys val).run s = .error (.rc einval) s := by
      rw [devmemWritel, if_pos fun zero => aligned ((and_three_eq_zero_iff phys).mp zero)]
      rfl
    exact Or.inr ⟨einval, s, Prog.run_bind_error run, inv, rfl, rfl, rfl⟩

theorem devmemCall_correct (inv : s.Inv) (buf : Nat) {op : MemOp} (range : op.InRange) :
    DevmemCorrect s op ((devmemCall buf op).run s) := by
  cases op with
  | read phys len => exact devmemRead_correct inv buf range
  | write phys bs => exact devmemWrite_correct inv buf range
  | readl phys => exact devmemReadl_correct inv buf
  | writel phys val => exact devmemWritel_correct inv buf

end

/-- A call on some buffer, with its value or error. -/
def DevmemStep (s : Devmem) (e : Nat × MemOp × Except Errno MemReply) (s' : Devmem) : Prop :=
  e.2.1.InRange ∧ (Prog.attempt (devmemCall e.1 e.2.1)).run s = .ok e.2.2 s'

/-- `devmem_init` has succeeded, in a process that has unmapped nothing yet. -/
def DevmemStart (s : Devmem) : Prop := ∃ pgsize opened t, t.unmapped = [] ∧
  (devmemInit pgsize opened).run t = .ok () s

theorem DevmemStart.inv {s : Devmem} (start : DevmemStart s) : s.Inv := by
  obtain ⟨pgsize, opened, t, none, run⟩ := start
  obtain ⟨_, t₁, set, run⟩ := Prog.bind_ok_iff.mp run
  cases set
  cases opened with
  | error e => cases run
  | ok _ =>
    obtain ⟨io, t₂, map, last⟩ := Prog.bind_ok_iff.mp run
    cases last
    simp only [Devmem.mmap, EStateM.run] at map
    split at map
    · cases map
    · cases map
      refine ⟨⟨rfl, rfl⟩, ?_, Nat.lt_succ_self _, fun w win => (nomatch win), ?_⟩
      · simp only [none, List.not_mem_nil, not_false_eq_true]
      · intro id old
        simp only [none, List.not_mem_nil] at old

/-- What a step does to the memory and which accesses it makes. -/
def DevmemServed (s : Devmem) (e : Nat × MemOp × Except Errno MemReply) (s' : Devmem) : Prop :=
  FlatOrFail s.mem e.2 s'.mem ∧ Grown (DevmemAccess.Serves s.io e.2.1.addr.toNat e.2.1.len) s.touched s'.touched

theorem DevmemStep.served {s s' : Devmem} {e : Nat × MemOp × Except Errno MemReply} (inv : s.Inv)
    (step : DevmemStep s e s') : s'.Inv ∧ DevmemServed s e s' := by
  obtain ⟨range, run⟩ := step
  rcases devmemCall_correct inv e.1 range with ⟨reply, t, call, flat, inv', _, touched⟩ |
    ⟨err, t, call, inv', mem, _, touched⟩
  · rw [Prog.attempt_ok call] at run
    obtain ⟨outcome, rfl⟩ := EStateM.Result.ok.inj run
    refine ⟨inv', ?_, touched⟩
    rw [FlatOrFail, ← outcome]
    exact flat
  · rw [Prog.attempt_rc call] at run
    obtain ⟨outcome, rfl⟩ := EStateM.Result.ok.inj run
    refine ⟨inv', ?_, by rw [touched]; exact Grown.refl _ _⟩
    rw [FlatOrFail, ← outcome]
    exact mem

/-- In any run of calls, whatever fails in it, each call is one of a flat memory or fails without
effect, and accesses nothing but its own bytes in the window or the I/O mapping. The calls of the
run make one run of the flat memory, and after it every further call returns. -/
theorem devmem_flat {s s' : Devmem} {es : List (Nat × MemOp × Except Errno MemReply)} (start : DevmemStart s)
    (run : Run DevmemStep s es s') :
    RunEach DevmemStep DevmemServed s es s' ∧ Run FlatOrFail s.mem (es.map Prod.snd) s'.mem ∧
      ∀ buf op, op.InRange → ∃ r t, DevmemStep s' (buf, op, r) t := by
  have inv : s'.Inv := run.invariant (fun _ _ _ inv step => (step.served inv).1) start.inv
  refine ⟨?_, ?_, fun buf op range => ?_⟩
  · exact run.mono_inv Devmem.Inv (fun _ _ _ inv step => (step.served inv).1)
      (fun _ _ _ inv step => ⟨step, (step.served inv).2⟩) start.inv
  · have abstract : Run (fun m (e : Nat × MemOp × Except Errno MemReply) m' => FlatOrFail m e.2 m') s.mem es s'.mem :=
      run.simulate Devmem.Inv (fun s => s.mem)
        (fun _ _ _ inv step => ⟨(step.served inv).1, (step.served inv).2.1⟩) start.inv
    exact abstract.map
  · rcases devmemCall_correct inv buf range with ⟨reply, t, call, _⟩ | ⟨err, t, call, _⟩
    · exact ⟨.ok reply, t, range, Prog.attempt_ok call⟩
    · exact ⟨.error err, t, range, Prog.attempt_rc call⟩

/-- A context before `devmem_init`, over cleared memory, whose system calls do not fail. -/
def devmemClosed : Devmem where
  pgsize := 0
  io := ⟨0, 0, 0, 0⟩
  win := none
  phys := 0
  len := 0
  mmaps _ := .ok 0x10000
  munmaps _ := .ok ()
  calls := 0
  unmapped := []
  mem _ := 0
  ram _ := 0
  touched := []

def devmemOpened : Devmem := ((devmemInit 0x1000 (.ok ())).run devmemClosed).state

/-- The read of a word of the RAM. -/
theorem devmemOpened_flat : ∃ s', Run DevmemStep devmemOpened [(0, .readl 0x80000004, .ok (.word 0))] s' ∧
    RunEach DevmemStep DevmemServed devmemOpened [(0, .readl 0x80000004, .ok (.word 0))] s' := by
  have start : DevmemStart devmemOpened := ⟨0x1000, .ok (), devmemClosed, rfl, rfl⟩
  have step : DevmemStep devmemOpened (0, .readl 0x80000004, .ok (.word 0))
      ((Prog.attempt (devmemCall 0 (.readl 0x80000004))).run devmemOpened).state := ⟨by decide, rfl⟩
  have run := Run.cons step (.nil _)
  exact ⟨_, run, (devmem_flat start run).1⟩

end Culvert
