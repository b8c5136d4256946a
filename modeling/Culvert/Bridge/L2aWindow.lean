import Culvert.Bridge.L2a
import Culvert.Lib.Run

namespace Culvert

/-- The registers held what maps the cached window. -/
def L2abHit.Good (h : L2abHit) : Prop := h.hicr7 = h.phys ∧ h.hicr8 = l2abHicr8 h.len

namespace L2ab

/-- The registers hold what maps the cached window. -/
def Synced (s : L2ab) : Prop := s.hicr7 = s.phys ∧ s.hicr8 = l2abHicr8 s.len

/-- What the calls keep: the window is where the context has it, and every access so far has hit what it was for. -/
structure Inv (s : L2ab) : Prop where
  synced : s.mapped = true → s.Synced
  hits : ∀ h ∈ s.hits, h.Good

theorem ilpcb_ok {α : Type} {m : Prog (Faulty SuperIo) α} {s s' : L2ab} {a : α} :
    (L2ab.ilpcb m).run s = .ok a s' ↔ ∃ io, m.run s.sio = .ok a io ∧ s' = { s with sio := io } := Prog.zoom_ok_iff

theorem ilpcb_error {α : Type} {m : Prog (Faulty SuperIo) α} {s s' : L2ab} {e : Stop} :
    (L2ab.ilpcb m).run s = .error e s' ↔ ∃ io, m.run s.sio = .error e io ∧ s' = { s with sio := io } :=
  Prog.zoom_error_iff

end L2ab

/-- The registers, the cached window and the record of hits. -/
def L2ab.view (s : L2ab) : Mem × Word × Size × Bool × List L2abHit := (s.sio.dev.ahb, s.phys, s.len, s.mapped, s.hits)

theorem L2ab.Inv.of_view {s s' : L2ab} (inv : s.Inv) (same : s'.view = s.view) : s'.Inv := by
  simp only [L2ab.view, Prod.mk.injEq] at same
  obtain ⟨ahb, phys, len, mapped, hits⟩ := same
  refine ⟨fun live => ?_, by rw [hits]; exact inv.hits⟩
  rw [mapped] at live
  have synced := inv.synced live
  simp only [L2ab.Synced, L2ab.hicr7, L2ab.hicr8] at *
  rw [ahb, phys, len]
  exact synced

section
variable {base : Nat} {s s' : L2ab} {phys : Word} {len : Size}

/-- A register write that returns has stored its value, and changed nothing but the SuperIO. -/
theorem l2abHicrWritel_ok {reg val : Word} (run : (l2abHicrWritel base reg val).run s = .ok () s') :
    ByteMem.readWord s'.sio.dev.ahb reg.toNat = val ∧
      (∀ a, a + 4 ≤ reg.toNat ∨ reg.toNat + 4 ≤ a →
        ByteMem.readWord s'.sio.dev.ahb a = ByteMem.readWord s.sio.dev.ahb a) ∧
      s' = { s with sio := s'.sio, mapped := s.mapped && val == s.wanted reg } := by
  obtain ⟨_, s₁, write, last⟩ := Prog.bind_ok_iff.mp run
  obtain ⟨io, writel, rfl⟩ := L2ab.ilpcb_ok.mp write
  cases last
  have stored := ilpcbWritel_ok writel
  refine ⟨?_, fun a apart => ?_, rfl⟩
  · show ByteMem.readWord io.dev.ahb reg.toNat = val
    rw [stored]
    exact ByteMem.readWord_write _ _ _
  · show ByteMem.readWord io.dev.ahb a = _
    rw [stored]
    exact ByteMem.readWord_write_of_disjoint apart

/-- A register write that fails leaves the register as it was. -/
theorem l2abHicrWritel_error {reg val : Word} {stop : Stop}
    (run : (l2abHicrWritel base reg val).run s = .error stop s') : s'.view = s.view := by
  rcases Prog.bind_error_iff.mp run with write | ⟨_, s₁, _, last⟩
  · obtain ⟨io, writel, rfl⟩ := L2ab.ilpcb_error.mp write
    have kept : io.dev.ahb = s.sio.dev.ahb := ilpcbWritel_error writel
    rw [L2ab.view, L2ab.view, kept]
  · cases last

theorem l2abHicrWritel_succeeds (sound : s.sio.Sound) (reg val : Word) :
    ∃ s', (l2abHicrWritel base reg val).run s = .ok () s' ∧ s'.sio.Sound := by
  obtain ⟨_, io, run, sound'⟩ := @ilpcbWritel_succeeds base reg val s.sio sound
  exact ⟨_, (Prog.run_bind_ok (L2ab.ilpcb_ok.mpr ⟨io, run, rfl⟩)).trans rfl, sound'⟩

theorem run_l2abMap_hit (fits : s.Fits phys len) : (l2abMap base phys len).run s = .ok (phys - s.phys).toNat
    { s with hits := ⟨s.phys, s.len, s.hicr7, s.hicr8⟩ :: s.hits } := by
  simp only [l2abMap, EStateM.run_bind, EStateM.run_get, if_pos fits]
  rfl

theorem run_l2abMap_big (miss : ¬ s.Fits phys len) (big : len > l2abWindowSize) :
    (l2abMap base phys len).run s = .error (.rc einval) s := by
  simp only [l2abMap, EStateM.run_bind, EStateM.run_get, if_neg miss, if_pos big]
  rfl

theorem run_l2abMap_miss (miss : ¬ s.Fits phys len) (small : ¬ len > l2abWindowSize) :
    (l2abMap base phys len).run s = (do
      l2abHicrWritel base lpcHicr7 (phys &&& ~~~0xffff)
      l2abHicrWritel base lpcHicr8 (l2abHicr8 (l2abWindow phys len))
      modify fun ctx => { ctx with phys := phys &&& ~~~0xffff, len := l2abWindow phys len, mapped := true }
      return (phys &&& 0xffff).toNat : Prog L2ab Nat).run s := by
  simp only [l2abMap, EStateM.run_bind, EStateM.run_get, if_neg miss, if_neg small]

/-- On ports that do not fail a miss caches the window it opens. -/
theorem l2abMap_miss_ok (sound : s.sio.Sound) (miss : ¬ s.Fits phys len) (small : ¬ len > l2abWindowSize) :
    ∃ a s', (l2abMap base phys len).run s = .ok a s' ∧ s'.sio.Sound ∧ s'.phys = phys &&& ~~~0xffff ∧
      s'.len = l2abWindow phys len ∧ s'.restore7 = s.restore7 := by
  obtain ⟨s₁, first, sound₁⟩ := @l2abHicrWritel_succeeds base s sound lpcHicr7 (phys &&& ~~~0xffff)
  obtain ⟨s₂, second, sound₂⟩ := @l2abHicrWritel_succeeds base s₁ sound₁ lpcHicr8
    (l2abHicr8 (l2abWindow phys len))
  have frame₁ := (l2abHicrWritel_ok first).2.2
  have frame₂ := (l2abHicrWritel_ok second).2.2
  rw [run_l2abMap_miss miss small, Prog.run_bind_ok first, Prog.run_bind_ok second]
  exact ⟨_, _, rfl, sound₂, rfl, rfl, by rw [frame₂, frame₁]⟩

theorem l2abFwRead_keeps : Prog.Keeps (Prog.Same L2ab.view) l2abFwRead := by
  intro s
  simp only [l2abFwRead, EStateM.run_bind, EStateM.run_get, EStateM.run_set]
  cases s.fwReads s.transfers <;> rfl

theorem l2abFwWrite_keeps : Prog.Keeps (Prog.Same L2ab.view) l2abFwWrite := by
  intro s
  simp only [l2abFwWrite, EStateM.run_bind, EStateM.run_get, EStateM.run_set]
  cases s.fwWrites s.transfers <;> rfl

theorem l2abSaveHicr78_keeps : Prog.Keeps (Prog.Same L2ab.view) (l2abSaveHicr78 base) := by
  have readl (reg : Word) : Prog.Keeps (Prog.Same L2ab.view) (L2ab.ilpcb (ilpcbReadl (superIo base) reg)) := by
    intro s
    have kept := @ilpcbReadl_keeps base reg s.sio
    cases run : (L2ab.ilpcb (ilpcbReadl (superIo base) reg)).run s with
    | ok val s' =>
      obtain ⟨io, readl, rfl⟩ := L2ab.ilpcb_ok.mp run
      rw [readl] at kept
      have ahb : io.dev.ahb = s.sio.dev.ahb := kept
      simp only [EStateM.Result.state_ok, Prog.Same, L2ab.view, ahb]
    | error e s' =>
      obtain ⟨io, readl, rfl⟩ := L2ab.ilpcb_error.mp run
      rw [readl] at kept
      have ahb : io.dev.ahb = s.sio.dev.ahb := kept
      simp only [EStateM.Result.state_error, Prog.Same, L2ab.view, ahb]
  refine (readl lpcHicr7).bind fun _ => Prog.Keeps.bind (fun s => rfl) fun _ => ?_
  exact (readl lpcHicr8).bind fun _ => fun s => rfl

end

/-- The first request a call makes of `l2ab_map`. -/
def L2abOp.request : L2abOp → Option (Word × Size)
  | .map phys len => some (phys, len)
  | .read phys len | .write phys len => if len.toNat ≤ ssizeMax then some (phys, l2abChunk len) else none
  | .release | .reinit => none

/-- A call, with the iterations its loop gets, up to where it returns or is still looping. -/
def L2abStep (base : Nat) (s : L2ab) (e : Nat × L2abOp) (s' : L2ab) : Prop :=
  s' = ((l2abCall base e.1 e.2).run s).state

/-- `l2ab_init` has just saved the registers; the cached window is whatever the allocation held. -/
def L2abStart (base : Nat) (s : L2ab) : Prop :=
  ∃ t : L2ab, t.mapped = false ∧ t.hits = [] ∧ (l2abSaveHicr78 base).run t = .ok () s

theorem L2abStart.inv {base : Nat} {s : L2ab} (start : L2abStart base s) : s.Inv := by
  obtain ⟨t, unmapped, none, run⟩ := start
  have fresh : t.Inv := ⟨fun live => absurd (unmapped.symm.trans live) (by decide), by simp [none]⟩
  exact fresh.of_view (l2abSaveHicr78_keeps.ok run)

/-- The context before `l2ab_init` saves the registers, on a SuperIO in front of cleared memory. -/
def l2abCleared : L2ab where
  sio := superIoCleared
  fwReads _ := .ok []
  fwWrites _ := .ok 0
  transfers := 0
  phys := 0
  len := 0
  restore7 := 0
  restore8 := 0
  mapped := false
  hits := []

end Culvert
