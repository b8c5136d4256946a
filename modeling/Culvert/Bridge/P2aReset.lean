import Culvert.Bridge.P2aFlat
import Culvert.Lib.Hoare

/-! The P2A bridge over SoC resets, each of which clears RBAR and PKR. -/

namespace Culvert
open Prog

/-- The BAR after a SoC reset, with `ahb` for what the reset left in the SoC. -/
def P2aBar.reset (d : P2aBar) (ahb : Mem) : P2aBar :=
  { (d.store 0xf004 (0 : Word).bytes).store 0xf000 (0 : Word).bytes with ahb := ahb }

/-- `__p2ab_readl`. The operand of `sizeof` is the pointer `val`, of 8 bytes on a 64-bit host. -/
def p2abRegReadl (addr : Nat) : Prog P2ab Word := do
  P2ab.assert (addr < 0x20000 - 8 + 1)
  P2ab.assert (addr % 8 = 0)
  return ByteMem.wordOf (← P2ab.barLoad ((← get).mmio + addr) 4)

/-- `p2ab_driver_reinit`. -/
def p2abReinit : Prog P2ab Unit := do
  let rbar ← p2abRegReadl p2abRbar
  modify fun ctx => { ctx with rbar := rbar }

/-- A call of the bridge, a reset of the device behind it, or `p2ab_driver_reinit`. -/
inductive P2abEvent where
  | call (buf : Nat) (op : MemOp)
  | reset (ahb : Mem)
  | reinit

/-- The caller may go on after an error code. -/
def P2abEvent.prog : P2abEvent → Prog P2ab Unit
  | .call buf op => do let _ ← attempt (p2abCall buf op)
  | .reset ahb => modify fun s => { s with bar := s.bar.reset ahb }
  | .reinit => do let _ ← attempt p2abReinit

/-- The next event, which there is unless the process has ended. -/
def P2abStep (r : EStateM.Result Stop P2ab Unit) (e : P2abEvent) (r' : EStateM.Result Stop P2ab Unit) : Prop :=
  ∃ s, r = .ok () s ∧ r' = e.prog.run s

/-- A run from `p2ab_init` on. -/
def P2abRun (t : P2ab) (es : List P2abEvent) (r : EStateM.Result Stop P2ab Unit) : Prop :=
  ∃ pciOpen mmap, Run P2abStep ((p2abInit pciOpen mmap).run t) es r

/-- No access between a reset and the driver's reinit. -/
def P2abOrderly (es : List P2abEvent) : Prop := ∀ before ahb between buf op later,
  es = before ++ .reset ahb :: between ++ .call buf op :: later → .reinit ∈ between

/-- An access through the window finds the bridge unlocked and the window where the driver thinks it is. -/
def P2abAccess.Current (mmio : Nat) (a : P2abAccess) : Prop := mmio + 0x10000 ≤ a.addr → a.cached = a.rbar ∧ a.pkr = 1

/-- Since `t` each access through the window was as it should be, and no assert was violated. -/
structure P2ab.Kept (t s : P2ab) : Prop where
  current : Grown (P2abAccess.Current s.mmio) t.touched s.touched
  asserts : s.violations = t.violations

/-- What a call does to the driver and the bridge. -/
structure P2ab.Onward (m : Nat) (s s' : P2ab) : Prop where
  mmio : s'.mmio = m
  violations : s'.violations = s.violations
  synced : s.Synced → s'.Synced ∧ Grown (P2abAccess.Current m) s.touched s'.touched

def P2ab.OnwardFrom (m : Nat) (s s' : P2ab) : Prop := s.mmio = m → s.Onward m s'

instance (m : Nat) : IsPreorder P2ab (P2ab.OnwardFrom m) where
  refl s here := ⟨here, rfl, fun synced => ⟨synced, Grown.refl _ _⟩⟩
  trans s s₁ s₂ first second here := by
    have one := first here
    have two := second one.mmio
    refine ⟨two.mmio, two.violations.trans one.violations, fun synced => ?_⟩
    obtain ⟨synced₁, grown₁⟩ := one.synced synced
    obtain ⟨synced₂, grown₂⟩ := two.synced synced₁
    exact ⟨synced₂, grown₁.trans grown₂⟩

namespace P2ab
variable {m : Nat} {s : P2ab} {α : Type}

theorem Synced.access_current (synced : s.Synced) (addr n : Nat) : (s.access addr n).Current m :=
  fun _ => ⟨synced.rbar.symm, synced.pkr⟩

theorem onward_get {f : P2ab → Prog P2ab α} (next : ∀ s : P2ab, s.mmio = m → Keeps (OnwardFrom m) (f s)) :
    Keeps (OnwardFrom m) (get >>= f) := by
  intro s here
  exact next s here s here

/-- A load from the mapping; what it returns plays no part. -/
theorem barLoad_onward (addr n : Nat) : Keeps (OnwardFrom m) (barLoad addr n) := by
  intro s here
  have grown : s.Synced → Grown (P2abAccess.Current m) s.touched (s.access addr n :: s.touched) := fun synced =>
    (Grown.refl _ _).cons (synced.access_current addr n)
  simp only [barLoad, touch, EStateM.run]
  split
  · exact ⟨here, rfl, fun synced => ⟨⟨synced.rbar, synced.pkr⟩, grown synced⟩⟩
  · exact ⟨here, rfl, fun synced => ⟨⟨synced.rbar, synced.pkr⟩, grown synced⟩⟩

/-- A store into the window leaves the registers alone. -/
theorem barStore_onward (o : Nat) (bs : List Byte) : Keeps (OnwardFrom m) (barStore (m + p2abWindowBase + o) bs) := by
  intro s here
  have grown : s.Synced → Grown (P2abAccess.Current m) s.touched (s.access (m + p2abWindowBase + o) bs.length :: s.touched) :=
    fun synced => (Grown.refl _ _).cons (synced.access_current _ _)
  simp only [barStore, touch, EStateM.run]
  split
  · have offset : m + p2abWindowBase + o - s.mmio = 0x10000 + o := by
      rw [here, p2abWindowBase]
      omega
    refine ⟨here, rfl, fun synced => ⟨?_, grown synced⟩⟩
    rw [offset, EStateM.Result.state_ok, P2aBar.store_window]
    exact ⟨synced.rbar, synced.pkr⟩
  · exact ⟨here, rfl, fun synced => ⟨⟨synced.rbar, synced.pkr⟩, grown synced⟩⟩

theorem ramLoad_onward (addr n : Nat) : Keeps (OnwardFrom m) (ramLoad addr n) := fun s => refl_of (OnwardFrom m) s

theorem ramStore_onward (addr : Nat) (bs : List Byte) : Keeps (OnwardFrom m) (ramStore addr bs) :=
  fun _ here => ⟨here, rfl, fun synced => ⟨⟨synced.rbar, synced.pkr⟩, Grown.refl _ _⟩⟩

theorem ingress_onward (buf src len : Nat) : Keeps (OnwardFrom m) (mmioMemcpy ingress buf src len) :=
  mmioMemcpy_keeps (fun _ => (barLoad_onward _ 1).bind fun bs => ramStore_onward _ bs)
    (fun _ => (barLoad_onward _ 4).bind fun bs => ramStore_onward _ bs) len

theorem egress_onward (o buf len : Nat) : Keeps (OnwardFrom m) (mmioMemcpy egress (m + p2abWindowBase + o) buf len) := by
  have store (k n : Nat) : Keeps (OnwardFrom m) (do barStore (m + p2abWindowBase + o + k) (← ramLoad (buf + k) n)) := by
    rw [Nat.add_assoc (m + p2abWindowBase) o k]
    exact (ramLoad_onward _ n).bind fun bs => barStore_onward (o + k) bs
  exact mmioMemcpy_keeps (fun k => store k 1) (fun k => store k 4) len

end P2ab

section Calls
variable {m : Nat} {s : P2ab} {phys : Word} {α : Type}

open P2ab

/-- The window is moved in the hardware and in the driver, or in neither. -/
theorem p2abMap_onward (phys : Word) : Keeps (OnwardFrom m) (p2abMap phys) := by
  intro s here
  by_cases cached : s.rbar = phys &&& p2abRbarRemapMask
  · have run : (p2abMap phys).run s = .ok (phys &&& ~~~p2abRbarRemapMask).toNat s := by
      rw [p2abMap]
      simp [cached]
    rw [run]
    exact refl_of (OnwardFrom m) s here
  · have moved := @run_p2abRegWritel s _ (phys &&& p2abRbarRemapMask) (Or.inr rfl)
    obtain ⟨rbarEq, pkrEq, _⟩ := s.bar.store_rbar (phys &&& p2abRbarRemapMask)
    have run : (p2abMap phys).run s = .ok (phys &&& ~~~p2abRbarRemapMask).toNat { s with
        bar := s.bar.store p2abRbar (phys &&& p2abRbarRemapMask).bytes
        rbar := phys &&& p2abRbarRemapMask
        touched := s.access (s.mmio + p2abRbar) 4 :: s.touched } := by
      rw [p2abMap]
      simp only [EStateM.run_bind, EStateM.run_get, if_neg cached, moved]
      rfl
    rw [run]
    exact ⟨here, rfl, fun synced => ⟨⟨rbarEq, pkrEq.trans synced.pkr⟩,
      (Grown.refl _ _).cons (synced.access_current _ _)⟩⟩

theorem p2abReadLoop_onward (phys : Word) (buf remaining : Nat) : Keeps (OnwardFrom m) (p2abReadLoop phys buf remaining) := by
  induction remaining using Nat.strongRecOn generalizing phys buf with
  | ind remaining ih =>
    rw [p2abReadLoop]
    refine (orMinusOne_keeps (p2abMap_onward phys)).bind fun rc => onward_get fun s here => ?_
    refine (ingress_onward _ _ _).bind fun _ => ?_
    split
    · exact ih _ (p2abChunk_progress (by assumption)) _ _
    · exact keeps_pure ()

theorem p2abWriteLoop_onward (phys : Word) (buf remaining : Nat) : Keeps (OnwardFrom m) (p2abWriteLoop phys buf remaining) := by
  induction remaining using Nat.strongRecOn generalizing phys buf with
  | ind remaining ih =>
    rw [p2abWriteLoop]
    refine (orMinusOne_keeps (p2abMap_onward phys)).bind fun rc => onward_get fun s here => ?_
    rw [here]
    refine (egress_onward _ _ _).bind fun _ => ?_
    split
    · exact ih _ (p2abChunk_progress (by assumption)) _ _
    · exact keeps_pure ()

/-- Whatever is asked of the bridge, and whether or not it is granted. -/
theorem p2abCall_onward (buf : Nat) (op : MemOp) : Keeps (OnwardFrom m) (p2abCall buf op) := by
  cases op with
  | read phys len =>
    have loop := @p2abReadLoop_onward m phys buf len
    have read : Keeps (OnwardFrom m) (p2abRead phys buf len) := Keeps.ite ((keeps_fail eperm).bind fun _ => loop) loop
    exact read.bind fun _ => (ramLoad_onward buf len).bind fun bs => keeps_pure (MemReply.bytes bs)
  | write phys bs =>
    have loop := @p2abWriteLoop_onward m phys buf bs.length
    have write : Keeps (OnwardFrom m) (p2abWrite phys buf bs.length) :=
      Keeps.ite ((keeps_fail eperm).bind fun _ => loop) loop
    exact (ramStore_onward buf bs).bind fun _ => write.bind fun _ => keeps_pure MemReply.done
  | readl phys =>
    have load (rc : Nat) : Keeps (OnwardFrom m) (do
        let le ← barLoad ((← get).mmio + p2abWindowBase + rc) 4
        return ByteMem.wordOf le) :=
      onward_get fun s _ => (barLoad_onward _ 4).bind fun le => keeps_pure (ByteMem.wordOf le)
    have mapped := (p2abMap_onward phys).bind load
    have readl : Keeps (OnwardFrom m) (p2abReadl phys) := Keeps.ite ((keeps_fail einval).bind fun _ => mapped) mapped
    exact readl.bind fun w => keeps_pure (MemReply.word w)
  | writel phys val =>
    have store (rc : Nat) : Keeps (OnwardFrom m) (do
        barStore ((← get).mmio + p2abWindowBase + rc) val.bytes) := by
      refine onward_get fun s here => ?_
      rw [here]
      exact barStore_onward rc val.bytes
    have writel : Keeps (OnwardFrom m) (p2abWritel phys val) := (p2abMap_onward phys).bind store
    exact writel.bind fun _ => keeps_pure MemReply.done

end Calls

section Resets
variable {s t : P2ab} {es : List P2abEvent} {r r' : EStateM.Result Stop P2ab Unit}

open P2ab

theorem P2aBar.reset_locked (d : P2aBar) (ahb : Mem) : (d.reset ahb).rbar = 0 ∧ (d.reset ahb).pkr = 0 := by
  obtain ⟨rbarEq, _, _⟩ := d.store_rbar 0
  obtain ⟨pkrEq, kept, _⟩ := (d.store 0xf004 (0 : Word).bytes).store_pkr 0
  exact ⟨kept.trans rbarEq, pkrEq⟩

/-- RBAR is not on a multiple of 8; without the check it is read all the same. -/
theorem p2abReinit_run (s : P2ab) : p2abReinit.run s =
    if s.ndebug then .ok () { s with
      rbar := s.bar.rbar
      violations := s.violations + 1
      touched := s.access (s.mmio + p2abRbar) 4 :: s.touched }
    else .error .fault { s with violations := s.violations + 1 } := by
  have below := run_assert (show p2abRbar < 0x20000 - 8 + 1 by decide) s
  have read : (p2abRegReadl p2abRbar).run s =
      (do P2ab.assert (p2abRbar % 8 = 0); return ByteMem.wordOf (← barLoad ((← get).mmio + p2abRbar) 4)).run s := by
    rw [p2abRegReadl, Prog.run_bind_ok below]
  have misaligned := run_assert_violated (show ¬ p2abRbar % 8 = 0 by decide) s
  by_cases build : s.ndebug = true
  · rw [if_pos build] at misaligned
    have load := @run_touch_ok _ { s with violations := s.violations + 1 } p2abRbar 4
      (fun bar o => (bar.load o 4, bar)) (by decide)
    have value : ByteMem.wordOf (s.bar.load p2abRbar 4) = s.bar.rbar := by
      rw [P2aBar.load, if_neg (by decide), ByteMem.wordOf_read]
      rfl
    have loaded : (p2abRegReadl p2abRbar).run s = .ok s.bar.rbar { s with
        violations := s.violations + 1
        touched := s.access (s.mmio + p2abRbar) 4 :: s.touched } := by
      rw [read, Prog.run_bind_ok misaligned, ← value]
      simp only [EStateM.run_bind, EStateM.run_get, barLoad, load]
      rfl
    rw [if_pos build, p2abReinit, Prog.run_bind_ok loaded]
    rfl
  · rw [if_neg build] at misaligned
    rw [if_neg build, p2abReinit]
    exact Prog.run_bind_error (read.trans (Prog.run_bind_error misaligned))

/-- `p2ab_driver_reinit` reads where the window is, and leaves the bridge locked. -/
theorem p2abReinit_locked (ndebug : s.ndebug = true) (ahb : Mem) : ∃ s',
    (do (P2abEvent.reset ahb).prog; p2abReinit).run s = .ok () s' ∧ s'.bar.rbar = s'.rbar ∧ s'.bar.pkr = 0 := by
  have reinit := p2abReinit_run { s with bar := s.bar.reset ahb }
  rw [if_pos ndebug] at reinit
  exact ⟨_, reinit, rfl, (s.bar.reset_locked ahb).2⟩

theorem P2abEvent.call_onward {m : Nat} (buf : Nat) (op : MemOp) : Keeps (OnwardFrom m) (P2abEvent.call buf op).prog :=
  (p2abCall_onward buf op).attempt.bind fun _ => keeps_pure ()

/-- Where an event leaves the driver. -/
theorem P2abEvent.counts (e : P2abEvent) (s : P2ab) : (e.prog.run s).state.mmio = s.mmio ∧
    s.violations ≤ (e.prog.run s).state.violations ∧
    (e = .reinit → s.violations < (e.prog.run s).state.violations) := by
  cases e with
  | call buf op =>
    have onward := P2abEvent.call_onward buf op s rfl
    exact ⟨onward.mmio, onward.violations.ge, nofun⟩
  | reset ahb => exact ⟨rfl, Nat.le_refl _, nofun⟩
  | reinit =>
    have same : (P2abEvent.reinit.prog.run s).state = (p2abReinit.run s).state := by
      rw [← attempt_state p2abReinit s, P2abEvent.prog, EStateM.run_bind]
      cases (attempt p2abReinit).run s <;> rfl
    rw [same, p2abReinit_run]
    split
    · exact ⟨rfl, Nat.le_succ _, fun _ => Nat.lt_succ_self _⟩
    · exact ⟨rfl, Nat.le_succ _, fun _ => Nat.lt_succ_self _⟩

/-- Violations are never taken back. -/
theorem P2abStep.violations (run : Run P2abStep r es r') : r.state.violations ≤ r'.state.violations ∧
    (.reinit ∈ es → r.state.violations < r'.state.violations) := by
  induction run with
  | nil r => exact ⟨Nat.le_refl _, nofun⟩
  | @cons r r₁ r₂ e es head _ ih =>
    obtain ⟨s, rfl, rfl⟩ := head
    obtain ⟨_, le, lt⟩ := e.counts s
    refine ⟨le.trans ih.1, fun mem => ?_⟩
    rcases List.mem_cons.mp mem with first | later
    · exact Nat.lt_of_lt_of_le (lt first.symm) ih.1
    · exact Nat.lt_of_le_of_lt le (ih.2 later)

/-- With no reinit there is no access after a reset either. -/
theorem P2abOrderly.after_reset {ahb : Mem} (orderly : P2abOrderly (.reset ahb :: es)) (never : .reinit ∉ es) (buf : Nat)
    (op : MemOp) : .call buf op ∉ es := by
  intro mem
  obtain ⟨between, later, rfl⟩ := List.append_of_mem mem
  exact never (List.mem_append_left _ (orderly [] ahb between buf op later rfl))

theorem P2abOrderly.tail {e : P2abEvent} (orderly : P2abOrderly (e :: es)) : P2abOrderly es :=
  fun before ahb between buf op later eq => orderly (e :: before) ahb between buf op later (by rw [eq]; rfl)

/-- From an unlocked bridge, or when nothing more is asked of it, a run without reinit keeps all in order. -/
theorem P2abStep.kept (run : Run P2abStep r es r') (start : r.state.Synced ∨ ∀ buf op, .call buf op ∉ es)
    (orderly : P2abOrderly es) (never : .reinit ∉ es) : r'.state.mmio = r.state.mmio ∧ r.state.Kept r'.state := by
  induction run with
  | nil r => exact ⟨rfl, Grown.refl _ _, rfl⟩
  | @cons r r₁ r₂ e es head tail ih =>
    obtain ⟨s, rfl, rfl⟩ := head
    have rest : .reinit ∉ es := fun mem => never (List.mem_cons_of_mem e mem)
    have first : (e.prog.run s).state.mmio = s.mmio ∧ s.Kept (e.prog.run s).state ∧
        ((e.prog.run s).state.Synced ∨ ∀ buf op, .call buf op ∉ es) := by
      cases e with
      | call buf op =>
        have synced : s.Synced := start.resolve_right fun none => none buf op List.mem_cons_self
        have onward := P2abEvent.call_onward buf op s rfl
        obtain ⟨synced', current⟩ := onward.synced synced
        refine ⟨onward.mmio, ⟨?_, onward.violations⟩, Or.inl synced'⟩
        rw [onward.mmio]
        exact current
      | reset ahb => exact ⟨rfl, ⟨Grown.refl _ _, rfl⟩, Or.inr (orderly.after_reset rest)⟩
      | reinit => exact absurd List.mem_cons_self never
    obtain ⟨mmio, kept, next⟩ := first
    obtain ⟨mmio', kept'⟩ := ih next orderly.tail rest
    refine ⟨mmio'.trans mmio, ?_, kept'.asserts.trans kept.asserts⟩
    have early := kept.current
    rw [← mmio'] at early
    exact early.trans kept'.current

/-- Where `p2ab_init` fails there is nothing after it. -/
theorem P2abStep.stopped {e : Errno} (run : Run P2abStep (.error (.rc e) t) es r) : es = [] ∧ r = .error (.rc e) t := by
  cases run with
  | nil => exact ⟨rfl, rfl⟩
  | cons head _ =>
    obtain ⟨_, never, _⟩ := head
    cases never

/-- Every access through the window is as it should be, and no assert is violated, in exactly the runs without
a reinit. -/
theorem p2ab_kept_iff (run : P2abRun t es r) (orderly : P2abOrderly es) : t.Kept r.state ↔ .reinit ∉ es := by
  obtain ⟨pciOpen, mmap, run⟩ := run
  have refused {e : Errno} (run : Run P2abStep (.error (.rc e) t) es r) : t.Kept r.state ↔ .reinit ∉ es := by
    obtain ⟨rfl, rfl⟩ := P2abStep.stopped run
    exact iff_of_true ⟨Grown.refl _ _, rfl⟩ nofun
  cases pciOpen with
  | error e => exact refused run
  | ok _ =>
  cases mmap with
  | error e => exact refused run
  | ok addr =>
  obtain ⟨s, init, synced, mmio, asserts, grown⟩ := p2abInit_ok t addr
  rw [init] at run
  have current : Grown (P2abAccess.Current s.mmio) t.touched s.touched := by
    refine grown.mono fun a below window => ?_
    rw [mmio] at window
    omega
  constructor
  · intro kept mem
    have lt := (P2abStep.violations run).2 mem
    rw [kept.asserts, EStateM.Result.state_ok, asserts] at lt
    exact absurd lt (Nat.lt_irrefl _)
  · intro never
    obtain ⟨still, kept⟩ := P2abStep.kept run (Or.inl synced) orderly never
    refine ⟨?_, kept.asserts.trans asserts⟩
    rw [EStateM.Result.state_ok] at still
    rw [← still] at current
    exact current.trans kept.current

theorem P2abOrderly.of_no_reset (none : ∀ ahb, .reset ahb ∉ es) : P2abOrderly es := by
  intro before ahb between buf op later eq
  refine absurd ?_ (none ahb)
  rw [eq]
  exact List.mem_append_left _ (List.mem_append_right before List.mem_cons_self)

theorem P2abOrderly.of_no_call (none : ∀ buf op, .call buf op ∉ es) : P2abOrderly es := by
  intro before ahb between buf op later eq
  refine absurd ?_ (none buf op)
  rw [eq]
  exact List.mem_append_right _ List.mem_cons_self

end Resets

/-- One read of a register. -/
theorem p2abClosed_kept : ∃ r, P2abRun p2abClosed [.call 0 (.readl 0x1e6e2004)] r ∧ p2abClosed.Kept r.state := by
  obtain ⟨s, init, _⟩ := p2abInit_ok p2abClosed 0x7f0000000000
  have run : P2abRun p2abClosed [.call 0 (.readl 0x1e6e2004)] _ :=
    ⟨.ok (), .ok 0x7f0000000000, .cons ⟨s, init, rfl⟩ (.nil _)⟩
  exact ⟨_, run, (p2ab_kept_iff run (.of_no_reset (by simp))).mpr (by simp)⟩

/-- A reset and the reinit after it. -/
theorem p2ab_reset_not_kept : ¬ ∀ (t : P2ab) (es : List P2abEvent) (r : EStateM.Result Stop P2ab Unit),
    P2abRun t es r → P2abOrderly es → t.Kept r.state := by
  intro all
  obtain ⟨s, init, _, _, asserts, _⟩ := p2abInit_ok p2abClosed 0x7f0000000000
  have run : Run P2abStep (.ok () s) [.reset fun _ => 0, .reinit] _ :=
    .cons ⟨s, rfl, rfl⟩ (.cons ⟨_, rfl, rfl⟩ (.nil _))
  have lt := (P2abStep.violations run).2 (by simp)
  have started : P2abRun p2abClosed [.reset fun _ => 0, .reinit] _ :=
    ⟨.ok (), .ok 0x7f0000000000, by rw [init]; exact run⟩
  have kept := all _ _ _ started (.of_no_call (by simp))
  rw [kept.asserts, EStateM.Result.state_ok, asserts] at lt
  exact absurd lt (Nat.lt_irrefl _)

end Culvert
