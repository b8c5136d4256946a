import Culvert.Bridge.DevmemFlat
import Culvert.Bridge.IlpcFlat
import Culvert.Bridge.P2aFlat
import Culvert.Bridge.Siphoned

/-! What `ahb_siphon_out` and `ahb_siphon_in` move through the bridges of the host. -/

namespace Culvert
open Prog

section
variable {base : Nat}

/-- A read in range. -/
def ReadInRange (op : MemOp) : Prop := op.InRange ∧ ∃ phys n, op = .read phys n

theorem readInRange_chunks {phys : Word} {len : Nat} (range : phys.toNat + len ≤ 2 ^ 32) :
    ∀ j < len, j % ahbChunk = 0 → ReadInRange (.read (phys + BitVec.ofNat 32 j) (min (len - j) ahbChunk)) := by
  intro j less _
  refine ⟨?_, _, _, rfl⟩
  simp only [MemOp.InRange, MemOp.addr, MemOp.len]
  rw [Word.toNat_add_ofNat (by omega)]
  omega

theorem ilpcbRead_keeps (addr : Word) (len : Nat) : Keeps (Same ahbOf) (ilpcbRead (superIo base) addr len) := by
  have turns (addr : Word) : Keeps (Same ahbOf) (ilpcbReadLoop (superIo base) addr len) := by
    induction len generalizing addr with
    | zero => exact keeps_pure _
    | succ n ih =>
      exact (ilpcbSetAddr_keeps addr).bind fun _ => (sioReadb_keeps _).bind fun _ => (sioReadb_keeps _).bind fun _ =>
        (ih (addr + 1)).bind fun _ => keeps_pure _
  exact Keeps.ite (keeps_throw _) (orMinusOne_keeps (((ilpcbSetup_keeps 0).bind fun _ => turns addr).ensuring
    (writeb_addr_keeps _)))

theorem ilpcbRead_succeeds {addr : Word} {len : Nat} (small : len ≤ ssizeMax) :
    Succeeds Faulty.Sound (ilpcbRead (superIo base) addr len) := by
  have turns (addr : Word) : Succeeds Faulty.Sound (ilpcbReadLoop (superIo base) addr len) := by
    clear small
    induction len generalizing addr with
    | zero => exact .pure _
    | succ n ih =>
      exact (ilpcbSetAddr_succeeds addr).bind fun _ => (sioReadb_succeeds _).bind fun _ => (sioReadb_succeeds _).bind
        fun _ => (ih (addr + 1)).bind fun _ => .pure _
  intro s sound
  obtain ⟨bs, s', run, sound'⟩ := (((ilpcbSetup_succeeds 0).bind fun _ => turns addr).ensuring sioLock_succeeds) s sound
  refine ⟨bs, s', ?_, sound'⟩
  rw [ilpcbRead, if_neg (by omega)]
  exact orMinusOne_ok.mpr run

theorem ilpcb_serves : CallsServe (ilpcbCall (superIo base)) (fun _ => True) ahbOf ReadInRange := by
  rintro op ⟨range, phys, n, rfl⟩ m s ⟨_, here⟩
  refine ⟨fun r s' run => ?_, fun e s' run => ?_⟩
  · obtain ⟨reply, kept⟩ := IlpcStep.effect (⟨range, run⟩ : IlpcStep base s (.read phys n, r) s')
    refine ⟨trivial, ?_, ?_⟩
    · rw [← here]
      exact reply
    · rw [← here]
      exact kept
  · have kept : Keeps (Same ahbOf) (ilpcbCall (superIo base) (.read phys n)) :=
      (ilpcbRead_keeps phys n).bind fun _ => keeps_pure _
    exact ⟨trivial, (kept.error run).trans here⟩

theorem ilpcb_succeeds (op : MemOp) (here : ReadInRange op) : Succeeds Faulty.Sound (ilpcbCall (superIo base) op) := by
  obtain ⟨range, phys, n, rfl⟩ := here
  have small : n ≤ ssizeMax := by
    simp only [MemOp.InRange, MemOp.addr, MemOp.len, ssizeMax] at *
    omega
  exact (ilpcbRead_succeeds small).bind fun _ => .pure _

end

/-- A read that stays in its window. -/
def ReadFits (op : MemOp) : Prop := op.InRange ∧ ∃ phys n, op = .read phys n ∧ P2aFits phys n

/-- The chunks of a region start on a boundary of 64K as the region does, or there is one only. -/
theorem readFits_chunks {phys : Word} {len : Nat} (range : phys.toNat + len ≤ 2 ^ 32) (fits : P2aFits phys len) :
    ∀ j < len, j % ahbChunk = 0 → ReadFits (.read (phys + BitVec.ofNat 32 j) (min (len - j) ahbChunk)) := by
  intro j less aligned
  have place : (phys + BitVec.ofNat 32 j).toNat = phys.toNat + j := Word.toNat_add_ofNat (by omega)
  refine ⟨?_, _, _, rfl, ?_⟩
  · simp only [MemOp.InRange, MemOp.addr, MemOp.len]
    omega
  · rw [P2aFits, place]
    rw [P2aFits] at fits
    simp only [ahbChunk] at aligned ⊢
    omega

theorem p2abRead_ok {s : P2ab} (synced : s.Synced) (buf : Nat) {phys : Word} {n : Nat}
    (range : (MemOp.read phys n).InRange) (fits : P2aFits phys n) : ∃ r s', (p2abCall buf (.read phys n)).run s = .ok r s' ∧
      FlatStep s.bar.ahb (.read phys n, r) s'.bar.ahb ∧ s'.Synced := by
  rcases p2abCall_served synced range buf fits with ⟨r, s', run, flat, synced', _⟩ | refused
  · exact ⟨r, s', run, flat, synced'⟩
  · have small : ¬ n > ssizeMax := by
      simp only [MemOp.InRange, MemOp.addr, MemOp.len, ssizeMax] at *
      omega
    obtain ⟨s', run, _⟩ := @p2abReadLoop_ok s phys buf n synced range fits
    rw [p2abCall, p2abRead, if_neg small, Prog.run_bind_ok run] at refused
    cases refused

theorem p2ab_serves (buf : Nat) : CallsServe (p2abCall buf) P2ab.Synced (fun s => s.bar.ahb) ReadFits := by
  rintro op ⟨range, phys, n, rfl, fits⟩ m s ⟨synced, here⟩
  subst here
  obtain ⟨r, s', run, flat, synced'⟩ := p2abRead_ok synced buf range fits
  refine ⟨fun r' t ok => ?_, fun e t error => ?_⟩
  · rw [run] at ok
    cases ok
    exact ⟨synced', flat⟩
  · rw [run] at error
    cases error

theorem p2ab_returns (buf : Nat) : CallsReturn (p2abCall buf) P2ab.Synced ReadFits := by
  rintro op ⟨range, phys, n, rfl, fits⟩ s synced
  obtain ⟨r, s', run, _⟩ := p2abRead_ok synced buf range fits
  exact ⟨r, s', run⟩

/-- A region that does not fit its window is not siphoned out: the first chunk faults. -/
theorem p2ab_siphon_astray {s : Siphon P2ab} (synced : s.ahb.Synced) (memory : s.memory) (buf : Nat) {phys : Word} {len : Nat}
    (range : phys.toNat + len ≤ 2 ^ 32) (crosses : ¬ P2aFits phys len) (fuel : Nat) :
    ∃ s', (ahbSiphonOut (callOps (p2abCall buf)) (fuel + 1) phys len).run s = .error .fault s' := by
  have count : siphonCount (len : Int) = min len ahbChunk := siphonCount_eq_min len
  have first : ¬ P2aFits phys (min len ahbChunk) := by
    rw [P2aFits] at crosses ⊢
    simp only [ahbChunk]
    omega
  have some : (len : Int) ≠ 0 := by
    rw [P2aFits] at crosses
    omega
  have inRange : (MemOp.read phys (min len ahbChunk)).InRange := by
    simp only [MemOp.InRange, MemOp.addr, MemOp.len]
    omega
  obtain ⟨ahb, fault, _⟩ := p2abCall_astray synced inRange buf first
  have read : ((callOps (p2abCall buf)).read phys (min len ahbChunk)).run s.ahb = .error .fault ahb :=
    Prog.run_bind_error fault
  have zoomed : (Siphon.onAhb ((callOps (p2abCall buf)).read phys (min len ahbChunk))).run s =
      .error .fault { s with ahb := ahb } := zoom_error_iff.mpr ⟨ahb, read, rfl⟩
  have turn : (siphonOutTurn (callOps (p2abCall buf)) (fuel + 1) (phys, (len : Int))).run s =
      .error .fault { s with ahb := ahb } := by
    rw [siphonOutTurn, count, orEio]
    refine Prog.run_bind_error (Prog.run_bind_error ?_)
    rw [run_attempt, zoomed]
  refine ⟨{ s with ahb := ahb }, ?_⟩
  rw [ahbSiphonOut, if_neg some, Prog.run_bind_ok (siphonMalloc_ok memory), loop]
  exact Prog.run_bind_error turn

theorem devmem_serves (buf : Nat) : CallsServe (devmemCall buf) Devmem.Inv (fun s => s.mem) MemOp.InRange := by
  rintro op range m s ⟨inv, here⟩
  subst here
  refine ⟨fun r t ok => ?_, fun e t error => ?_⟩
  · rcases devmemCall_correct inv buf range with ⟨r', s', run, flat, inv', _⟩ | ⟨e, s', run, _⟩
    · rw [run] at ok
      cases ok
      exact ⟨inv', flat⟩
    · rw [run] at ok
      cases ok
  · rcases devmemCall_correct inv buf range with ⟨r', s', run, _⟩ | ⟨e', s', run, inv', kept, _⟩
    · rw [run] at error
      cases error
    · rw [run] at error
      cases error
      exact ⟨inv', kept⟩

/-- `mmap` and `munmap` never fail. -/
def Devmem.Calm (s : Devmem) : Prop := (∀ n, ∃ a, s.mmaps n = .ok a) ∧ ∀ n, s.munmaps n = .ok ()

/-- It does not fail with an error code. -/
def Devmem.Steady {α : Type} (m : Prog Devmem α) : Prop := Triple Devmem.Calm m (fun _ => Devmem.Calm) fun e _ => e = .fault

theorem devmemMmap_steady (len : Nat) (phys : Word) : Devmem.Steady (Devmem.mmap len phys) := by
  intro s calm
  obtain ⟨a, ok⟩ := calm.1 s.calls
  refine ⟨fun w s' run => ?_, fun e s' run => ?_⟩
  · simp only [Devmem.mmap, EStateM.run, ok] at run
    cases run
    exact calm
  · simp only [Devmem.mmap, EStateM.run, ok] at run
    cases run

theorem devmemMunmap_steady (w : Mapping) (len : Nat) : Devmem.Steady (Devmem.munmap w len) := by
  intro s calm
  have ok := calm.2 s.calls
  refine ⟨fun _ s' run => ?_, fun e s' run => ?_⟩
  · simp only [Devmem.munmap, EStateM.run, ok] at run
    split at run
    · cases run
    · cases run
      exact calm
  · simp only [Devmem.munmap, EStateM.run, ok] at run
    split at run
    · cases run
      rfl
    · cases run

theorem steady_modify (f : Devmem → Devmem) (same : ∀ s, (f s).mmaps = s.mmaps ∧ (f s).munmaps = s.munmaps) :
    Devmem.Steady (modify f) := by
  intro s calm
  refine ⟨fun _ s' run => ?_, fun e s' run => ?_⟩
  · cases run
    rw [Devmem.Calm, (same s).1, (same s).2]
    exact calm
  · cases run

theorem get_steady : Devmem.Steady (get : Prog Devmem Devmem) := by
  intro s calm
  refine ⟨fun _ s' run => ?_, fun e s' run => ?_⟩
  · cases run
    exact calm
  · cases run

theorem pure_steady {α : Type} (a : α) : Devmem.Steady (pure a) := Triple.pure fun _ calm => calm

theorem devmemOpenWin_steady (aligned : Word) (offset len : Nat) : Devmem.Steady (devmemOpenWin aligned offset len) := by
  refine get_steady.bind fun t => Triple.ite (Triple.bind (devmemMmap_steady _ _) fun win => ?_) (pure_steady _)
  exact (steady_modify (fun ctx => { ctx with win := some win, phys := aligned, len := offset + len }) fun _ => ⟨rfl, rfl⟩).bind
    fun _ => pure_steady _

theorem devmemSetupWin_steady (phys : Word) (len : Nat) : Devmem.Steady (devmemSetupWin phys len) := by
  have maps : Devmem.Steady (devmemMapWin phys len) := by
    refine get_steady.bind fun t => ?_
    cases t.win with
    | none => exact devmemOpenWin_steady _ _ _
    | some w =>
      refine Triple.ite (Triple.bind (devmemMunmap_steady w t.len) fun _ => ?_) (devmemOpenWin_steady _ _ _)
      exact (steady_modify (fun ctx => { ctx with win := none }) fun _ => ⟨rfl, rfl⟩).bind fun _ => devmemOpenWin_steady _ _ _
  refine maps.attempt.bind fun r => ?_
  cases r with
  | ok offset => exact pure_steady _
  | error e =>
    intro s never
    cases never

theorem devmemSetupWin_calm {s : Devmem} (inv : s.Inv) (calm : s.Calm) (phys : Word) (len : Nat) :
    ∃ w woff s', (devmemSetupWin phys len).run s = .ok woff s' ∧ s'.Inv ∧ s'.Covers w phys woff len ∧ s'.Calm := by
  obtain ⟨good, bad⟩ := devmemSetupWin_steady phys len s calm
  rcases devmemSetupWin_outcome inv phys len with ⟨w, woff, s', run, inv', covers, _⟩ | ⟨e, s', run, _⟩
  · exact ⟨w, woff, s', run, inv', covers, good woff s' run⟩
  · cases bad _ s' run

/-- Nothing in the process changes what its system calls will answer. -/
theorem devmemTouch_keeps {α : Type} (w : Mapping) (addr n : Nat) (f : Mem → Nat → α × Mem) :
    Keeps (Same fun s : Devmem => (s.mmaps, s.munmaps)) (Devmem.touch w addr n f) := by
  intro s
  simp only [Devmem.touch, EStateM.run]
  split <;> rfl

theorem devmemIngress_calm {s s' : Devmem} {w : Mapping} {dst src len : Nat} (calm : s.Calm)
    (run : (mmioMemcpy (Devmem.ingress w) dst src len).run s = .ok () s') : s'.Calm := by
  have each (n src dst : Nat) : Keeps (Same fun s : Devmem => (s.mmaps, s.munmaps))
      (do Devmem.ramStore dst (← Devmem.viewLoad w src n)) :=
    (devmemTouch_keeps w src n _).bind fun _ _ => rfl
  have kept := (mmioMemcpy_keeps (c := Devmem.ingress w) (fun k => each 1 (src + k) (dst + k))
    (fun k => each 4 (src + k) (dst + k)) len).ok run
  rw [Devmem.Calm, (Prod.mk.inj kept).1, (Prod.mk.inj kept).2]
  exact calm

theorem devmemEgress_calm {s s' : Devmem} {w : Mapping} {dst src len : Nat} (calm : s.Calm)
    (run : (mmioMemcpy (Devmem.egress w) dst src len).run s = .ok () s') : s'.Calm := by
  have each (n src dst : Nat) : Keeps (Same fun s : Devmem => (s.mmaps, s.munmaps))
      (do Devmem.viewStore w dst (← Devmem.ramLoad src n)) :=
    Keeps.bind (fun _ => rfl) fun bs => devmemTouch_keeps w dst bs.length _
  have kept := (mmioMemcpy_keeps (c := Devmem.egress w) (fun k => each 1 (src + k) (dst + k))
    (fun k => each 4 (src + k) (dst + k)) len).ok run
  rw [Devmem.Calm, (Prod.mk.inj kept).1, (Prod.mk.inj kept).2]
  exact calm

/-- A read or a write in range. -/
def DataInRange (op : MemOp) : Prop := op.InRange ∧ ((∃ phys n, op = .read phys n) ∨ ∃ phys bs, op = .write phys bs)

theorem devmem_succeeds (buf : Nat) (op : MemOp) (here : DataInRange op) :
    Succeeds (fun s : Devmem => s.Inv ∧ s.Calm) (devmemCall buf op) := by
  rintro s ⟨inv, calm⟩
  obtain ⟨range, ⟨phys, n, rfl⟩ | ⟨phys, bs, rfl⟩⟩ := here
  · have small : ¬ n > ssizeMax := by
      simp only [MemOp.InRange, MemOp.addr, MemOp.len, ssizeMax] at *
      omega
    obtain ⟨w, woff, s₁, setup, inv₁, covers, calm₁⟩ := devmemSetupWin_calm inv calm phys n
    obtain ⟨s₂, copy, done⟩ := devmemIngress_ok inv₁ covers buf
    have body : (devmemRead phys buf n).run s = .ok () s₂ := by
      rw [devmemRead, if_neg small, Prog.run_bind_ok (orMinusOne_ok.mpr setup), Prog.run_bind_ok (run_devmemWin covers.win)]
      exact copy
    exact ⟨.bytes (ByteMem.read s₂.ram buf n), s₂, Prog.run_bind_ok body, done.inv, devmemIngress_calm calm₁ copy⟩
  · have small : ¬ bs.length > ssizeMax := by
      simp only [MemOp.InRange, MemOp.addr, MemOp.len, ssizeMax] at *
      omega
    have filled : { s with ram := ByteMem.write s.ram buf bs }.Inv := inv.data s.mem _ s.touched
    obtain ⟨w, woff, s₁, setup, inv₁, covers, calm₁⟩ := devmemSetupWin_calm filled calm phys bs.length
    obtain ⟨s₂, copy, done⟩ := devmemEgress_ok inv₁ covers buf
    have body : (devmemWrite phys buf bs.length).run { s with ram := ByteMem.write s.ram buf bs } = .ok () s₂ := by
      rw [devmemWrite, if_neg small, Prog.run_bind_ok (orMinusOne_ok.mpr setup), Prog.run_bind_ok (run_devmemWin covers.win)]
      exact copy
    exact ⟨.done, s₂, (Prog.run_bind_ok rfl).trans (Prog.run_bind_ok body), done.inv, devmemEgress_calm calm₁ copy⟩

theorem devmem_calm (buf : Nat) : CallsServe (devmemCall buf) (fun s => s.Inv ∧ s.Calm) (fun s => s.mem) DataInRange ∧
    CallsReturn (devmemCall buf) (fun s => s.Inv ∧ s.Calm) DataInRange := by
  have serve : CallsServe (devmemCall buf) Devmem.Inv (fun s => s.mem) DataInRange :=
    fun op here => devmem_serves buf op here.1
  exact serve.of_succeeds (fun _ both => both.1) (devmem_succeeds buf)

theorem dataInRange_chunks {phys : Word} {len : Nat} (range : phys.toNat + len ≤ 2 ^ 32) :
    ∀ j < len, j % ahbChunk = 0 → DataInRange (.read (phys + BitVec.ofNat 32 j) (min (len - j) ahbChunk)) := by
  intro j less aligned
  obtain ⟨inRange, phys', n, same⟩ := readInRange_chunks range j less aligned
  exact ⟨inRange, Or.inl ⟨phys', n, same⟩⟩

/-- Siphoning out through iLPC2AHB, P2A and `/dev/mem` writes the region in order, all of it if it returns 0, and
changes no memory. Through P2A it does so exactly for a region that starts on a boundary of 64K or lies between two; any
other makes it fault. -/
theorem siphon_out_bridges :
    (∀ base (s : Siphon (Faulty SuperIo)) (phys : Word) len fuel, phys.toNat + len ≤ 2 ^ 32 →
      SiphonsOut (ilpcbCall (superIo base)) ahbOf s phys len fuel ∧
      (s.ahb.Sound → s.memory → s.fd.Works → len + ahbChunk < fuel →
        ∃ s', (ahbSiphonOut (callOps (ilpcbCall (superIo base))) fuel phys len).run s = .ok () s')) ∧
    (∀ buf (s : Siphon P2ab) (phys : Word) len fuel, P2abReach s.ahb → phys.toNat + len ≤ 2 ^ 32 →
      (P2aFits phys len → SiphonsOut (p2abCall buf) (fun b => b.bar.ahb) s phys len fuel) ∧
      (s.memory → s.fd.Works → len + ahbChunk < fuel →
        ((∃ s', (ahbSiphonOut (callOps (p2abCall buf)) fuel phys len).run s = .ok () s') ↔ P2aFits phys len))) ∧
    ∀ buf start es (s : Siphon Devmem) (phys : Word) len fuel, DevmemStart start → Run DevmemStep start es s.ahb →
      phys.toNat + len ≤ 2 ^ 32 → SiphonsOut (devmemCall buf) (fun d => d.mem) s phys len fuel ∧
      (s.ahb.Calm → s.memory → s.fd.Works → len + ahbChunk < fuel →
        ∃ s', (ahbSiphonOut (callOps (devmemCall buf)) fuel phys len).run s = .ok () s') := by
  refine ⟨fun base s phys len fuel range => ⟨?_, fun sound memory works enough => ?_⟩,
    fun buf s phys len fuel reach range => ⟨fun fits => ?_, fun memory works enough => ⟨fun returned => ?_, fun fits => ?_⟩⟩,
    fun buf start es s phys len fuel opened run range => ⟨?_, fun calm memory works enough => ?_⟩⟩
  · exact ilpcb_serves.siphons trivial range (readInRange_chunks range) fuel
  · obtain ⟨serve, returns⟩ := (@ilpcb_serves base).of_succeeds (fun _ _ => trivial) ilpcb_succeeds
    exact ahbSiphonOut_returns serve returns (readInRange_chunks range) sound works memory enough
  · exact (p2ab_serves buf).siphons reach.synced range (readFits_chunks range fits) fuel
  · by_contra crosses
    obtain ⟨more, rfl⟩ : ∃ more, fuel = more + 1 := ⟨fuel - 1, by omega⟩
    obtain ⟨s', fault⟩ := p2ab_siphon_astray reach.synced memory buf range crosses more
    obtain ⟨t, run⟩ := returned
    rw [fault] at run
    cases run
  · exact ahbSiphonOut_returns (p2ab_serves buf) (p2ab_returns buf) (readFits_chunks range fits) reach.synced works memory
      enough
  · have inv : s.ahb.Inv := run.invariant (fun _ _ _ inv step => (step.served inv).1) opened.inv
    exact (devmem_serves buf).siphons inv range (fun j less aligned => (readInRange_chunks range j less aligned).1) fuel
  · have inv : s.ahb.Inv := run.invariant (fun _ _ _ inv step => (step.served inv).1) opened.inv
    obtain ⟨serve, returns⟩ := devmem_calm buf
    exact ahbSiphonOut_returns serve returns (dataInRange_chunks range) ⟨inv, calm⟩ works memory enough

/-- Two bytes on either side of a 64K boundary come through iLPC2AHB and `/dev/mem`, one after the other out of `write`;
through P2A only the one behind the boundary does. -/
theorem siphon_out_bridges_pair :
    (∃ s', (ahbSiphonOut (callOps (ilpcbCall (superIo 0x2e))) 0x200000 0x1e6effff 2).run
      ⟨superIoCleared, ⟨[], fun _ => .ok 1, 0⟩, true⟩ = .ok () s' ∧ s'.fd.bytes = [0, 0] ∧ ahbOf s'.ahb = fun _ => 0) ∧
    (¬ ∃ s', (ahbSiphonOut (callOps (p2abCall 0)) 0x200000 0x1e6effff 2).run
      ⟨p2abOpened, ⟨[], fun _ => .ok 1, 0⟩, true⟩ = .ok () s') ∧
    (∃ s', (ahbSiphonOut (callOps (p2abCall 0)) 0x200000 0x1e6f0000 1).run
      ⟨p2abOpened, ⟨[], fun _ => .ok 1, 0⟩, true⟩ = .ok () s' ∧ s'.fd.bytes = [0]) ∧
    ∃ s', (ahbSiphonOut (callOps (devmemCall 0)) 0x200000 0x1e6effff 2).run
      ⟨devmemOpened, ⟨[], fun _ => .ok 1, 0⟩, true⟩ = .ok () s' ∧ s'.fd.bytes = [0, 0] := by
  obtain ⟨ilpc, p2a, devmem⟩ := siphon_out_bridges
  have works : (⟨[], fun _ => .ok 1, 0⟩ : Fd).Works := fun _ => ⟨_, rfl⟩
  have start : DevmemStart devmemOpened := ⟨0x1000, .ok (), devmemClosed, rfl, rfl⟩
  refine ⟨?_, ?_, ?_, ?_⟩
  · obtain ⟨⟨emits, _⟩, returns⟩ := ilpc 0x2e ⟨superIoCleared, ⟨[], fun _ => .ok 1, 0⟩, true⟩ 0x1e6effff 2 0x200000
      (by decide)
    obtain ⟨s', run⟩ := returns (fun _ => rfl) rfl works (by decide)
    obtain ⟨bytes, kept⟩ := emits s' run
    exact ⟨s', run, bytes, kept⟩
  · obtain ⟨_, returns⟩ := p2a 0 ⟨p2abOpened, ⟨[], fun _ => .ok 1, 0⟩, true⟩ 0x1e6effff 2 0x200000 p2abOpened_reach
      (by decide)
    have crosses : ¬ P2aFits 0x1e6effff 2 := by simp [P2aFits]
    exact fun returned => crosses ((returns rfl works (by decide)).mp returned)
  · obtain ⟨emits, returns⟩ := p2a 0 ⟨p2abOpened, ⟨[], fun _ => .ok 1, 0⟩, true⟩ 0x1e6f0000 1 0x200000 p2abOpened_reach
      (by decide)
    have fits : P2aFits 0x1e6f0000 1 := by simp [P2aFits]
    obtain ⟨s', run⟩ := (returns rfl works (by decide)).mpr fits
    exact ⟨s', run, ((emits fits).1 s' run).1⟩
  · obtain ⟨⟨emits, _⟩, returns⟩ := devmem 0 devmemOpened [] ⟨devmemOpened, ⟨[], fun _ => .ok 1, 0⟩, true⟩ 0x1e6effff 2
      0x200000 start (.nil _) (by decide)
    obtain ⟨s', run⟩ := returns ⟨fun _ => ⟨_, rfl⟩, fun _ => rfl⟩ rfl works (by decide)
    exact ⟨s', run, (emits s' run).1⟩

/-- What is siphoned in through `/dev/mem` is what is siphoned out again, however the descriptors split it up and
whatever was mapped before; where no system call fails, both return. Where one does, the start of the stream is stored
and nothing else. -/
theorem devmem_siphon_back {start : Devmem} {es : List (Nat × MemOp × Except Errno MemReply)} {s : Siphon Devmem}
    (opened : DevmemStart start) (run : Run DevmemStep start es s.ahb) (buf fuel : Nat) {phys : Word} {len : Int}
    (bound : -1 ≤ len) (range : phys.toNat + siphonWanted len s.fd.bytes ≤ 2 ^ 32) :
    (∀ s₁, (ahbSiphonIn (callOps (devmemCall buf)) fuel phys len).run s = .ok () s₁ →
      s₁.fd.bytes = s.fd.bytes.drop (siphonWanted len s.fd.bytes) ∧
      s₁.ahb.mem = ByteMem.write s.ahb.mem phys.toNat (s.fd.bytes.take (siphonWanted len s.fd.bytes)) ∧
      ∀ out fuel' s₂, (ahbSiphonOut (callOps (devmemCall buf)) fuel' phys (siphonWanted len s.fd.bytes)).run
          ⟨s₁.ahb, out, true⟩ = .ok () s₂ →
        s₂.fd.bytes = out.bytes ++ s.fd.bytes.take (siphonWanted len s.fd.bytes) ∧ s₂.ahb.mem = s₁.ahb.mem) ∧
    (∀ e s₁, (ahbSiphonIn (callOps (devmemCall buf)) fuel phys len).run s = .error e s₁ →
      ∃ j k, j ≤ k ∧ k ≤ siphonWanted len s.fd.bytes ∧ s₁.fd.bytes = s.fd.bytes.drop k ∧
        s₁.ahb.mem = ByteMem.write s.ahb.mem phys.toNat (s.fd.bytes.take j)) ∧
    (s.ahb.Calm → s.memory → s.fd.Works → s.fd.bytes.length < fuel →
      ∃ s₁, (ahbSiphonIn (callOps (devmemCall buf)) fuel phys len).run s = .ok () s₁ ∧
      ∀ out fuel', out.Works → s.fd.bytes.length + ahbChunk < fuel' → ∃ s₂,
        (ahbSiphonOut (callOps (devmemCall buf)) fuel' phys (siphonWanted len s.fd.bytes)).run ⟨s₁.ahb, out, true⟩ =
          .ok () s₂) := by
  have inv : s.ahb.Inv := run.invariant (fun _ _ _ inv step => (step.served inv).1) opened.inv
  have chunks := writeInRange_chunks range
  have longer := siphonWanted_le len s.fd.bytes
  have empty : s.ahb.mem = ByteMem.write s.ahb.mem phys.toNat (s.fd.bytes.take 0) := (ByteMem.write_nil _ _).symm
  have fresh : Stored Devmem.Inv (fun d => d.mem) s.ahb.mem phys s.fd.bytes 0 0 s := ⟨inv, empty, List.drop_zero.symm⟩
  obtain ⟨good, bad⟩ := ahbSiphonIn_stores_part (devmem_serves buf) bound range chunks fuel s fresh
  refine ⟨fun s₁ ok => ?_, fun e s₁ error => ?_, fun calm memory works enough => ?_⟩
  · have stored := good () s₁ ok
    refine ⟨stored.left, stored.there, fun out fuel' s₂ back => ?_⟩
    have length : (s.fd.bytes.take (siphonWanted len s.fd.bytes)).length = siphonWanted len s.fd.bytes :=
      List.length_take_of_le longer
    have siphons := (devmem_serves buf).siphons (s := ⟨s₁.ahb, out, true⟩) stored.inv range
      (fun j less aligned => (readInRange_chunks range j less aligned).1) fuel'
    obtain ⟨bytes, kept⟩ := siphons.1 s₂ back
    have read := ByteMem.read_write s.ahb.mem phys.toNat (s.fd.bytes.take (siphonWanted len s.fd.bytes))
    rw [length] at read
    refine ⟨?_, kept⟩
    rw [bytes]
    show out.bytes ++ ByteMem.read s₁.ahb.mem phys.toNat _ = _
    rw [stored.there, read]
  · obtain ⟨j, k, le, le', stored⟩ := bad e s₁ error
    exact ⟨j, k, le, le', stored.left, stored.there⟩
  · obtain ⟨serve, returns⟩ := devmem_calm buf
    obtain ⟨s₁, loops⟩ := siphonIn_loop_returns serve returns (fun start bs _ here => ⟨here, Or.inr ⟨start, bs, rfl⟩⟩)
      ⟨inv, calm⟩ works bound range enough
    have ok : (ahbSiphonIn (callOps (devmemCall buf)) fuel phys len).run s = .ok () s₁ := by
      rw [ahbSiphonIn, Prog.run_bind_ok (siphonMalloc_ok memory)]
      exact loops
    have fresh' : Stored (fun s => s.Inv ∧ s.Calm) (fun d : Devmem => d.mem) s.ahb.mem phys s.fd.bytes 0 0 s :=
      ⟨⟨inv, calm⟩, empty, List.drop_zero.symm⟩
    have stored := (ahbSiphonIn_stores_part serve bound range (fun j bs some le => ⟨chunks j bs some le, Or.inr ⟨_, bs, rfl⟩⟩)
      fuel s fresh').1 () s₁ ok
    refine ⟨s₁, ok, fun out fuel' works' enough' => ?_⟩
    exact ahbSiphonOut_returns (s := ⟨s₁.ahb, out, true⟩) serve returns (dataInRange_chunks range) stored.inv works' rfl
      (by omega)

/-- Three bytes, however many are asked for. -/
theorem devmem_siphon_back_some : ∃ s₁, (ahbSiphonIn (callOps (devmemCall 0)) 4 0x80000000 (-1)).run
    ⟨devmemOpened, ⟨[1, 2, 3], fun _ => .ok 2, 0⟩, true⟩ = .ok () s₁ := by
  have start : DevmemStart devmemOpened := ⟨0x1000, .ok (), devmemClosed, rfl, rfl⟩
  have returns := (@devmem_siphon_back devmemOpened [] ⟨devmemOpened, ⟨[1, 2, 3], fun _ => .ok 2, 0⟩, true⟩ start (.nil _) 0 4
    0x80000000 (-1) (by decide) (by decide)).2.2
  obtain ⟨s₁, ok, _⟩ := returns ⟨fun _ => ⟨_, rfl⟩, fun _ => rfl⟩ rfl (fun _ => ⟨_, rfl⟩) (by decide)
  exact ⟨s₁, ok⟩

end Culvert
