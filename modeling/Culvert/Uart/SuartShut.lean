import Culvert.Hw.SioUsers
import Culvert.Uart.Suart

/-! What the SUART functions, and all users of the SuperIO with them, leave it as. -/

namespace Culvert

open Faulty

section Session
variable {port : Nat} {dev : Byte} {α : Type}

/-- How the two SUART functions start, with the SuperIO at `port`. -/
def suartSession (port : Nat) (rest : Sio (Faulty SioTap) → Prog (Faulty SioTap) α) : Prog (Faulty SioTap) α := do
  let sio ← sioInit (tapSpace port)
  sioUnlock sio
  rest sio

/-- The port space opens and both unlock keys arrive; or it does not open or not both keys arrive, and the
SuperIO was shut and the keys do not open it. -/
def SessionShuts (s : Faulty SioTap) : Prop := s.Clear 3 ∨ s.dev.Shut ∧ (s.fails s.accesses ≠ none ∨
  s.dev.sio.keys = 0 ∨ s.fails (s.accesses + 1) ≠ none ∧ s.fails (s.accesses + 2) ≠ none)

theorem sioInit_run (s : Faulty SioTap) : (sioInit (tapSpace port)).run s =
    match s.fails s.accesses with
    | none => .ok ⟨tapLpc port, 0x2e⟩ (s.after 1 s.dev)
    | some e => .error (.rc e) (s.after 1 s.dev) := by
  cases first : s.fails s.accesses <;>
    simp [sioInit, tapSpace, access, after, first, bind, EStateM.bind, pure, EStateM.pure, EStateM.run]

theorem one_key_shut_iff (d : SioTap) : (d.writeAddr 0xa5).Shut ↔ d.Shut ∧ d.sio.keys = 0 := by
  simp only [SioTap.Shut, SioTap.writeAddr, SuperIo.writeAddr]
  grind

/-- A session that does not come to its own work leaves the registers, and is shut as `SessionShuts` says. -/
theorem suartSession_stopped {rest : Sio (Faulty SioTap) → Prog (Faulty SioTap) α} {s : Faulty SioTap}
    (blocked : ¬ s.Clear 3) : ∃ e s', (suartSession 0x2e rest).run s = .error (.rc e) s' ∧
      s'.dev.written = s.dev.written ∧ (s'.dev.Shut ↔ SessionShuts s) := by
  have opening := @sioInit_run 0x2e s
  cases first : s.fails s.accesses with
  | some e =>
    rw [first] at opening
    refine ⟨e, _, Prog.run_bind_error opening, rfl, ?_⟩
    simp [SessionShuts, blocked, first]
  | none =>
    rw [first] at opening
    have unlock := pair_run (fun d : SioTap => ((), d.writeAddr 0xa5)) (fun d => ((), d.writeAddr 0xa5))
      (s.after 1 s.dev)
    rw [← sioUnlock_eq 0x2e] at unlock
    simp only [after_fails, after_accesses, after_after, after_dev] at unlock
    cases second : s.fails (s.accesses + 1) <;> cases third : s.fails (s.accesses + 1 + 1)
    · exact absurd (fun k lt => by interval_cases k; exacts [first, second, third]) blocked
    · rw [second, third] at unlock
      refine ⟨_, _, (Prog.run_bind_ok opening).trans (Prog.run_bind_error unlock), rfl, ?_⟩
      rw [after_dev, one_key_shut_iff]
      simp [SessionShuts, blocked, first, second]
    · rw [second, third] at unlock
      refine ⟨_, _, (Prog.run_bind_ok opening).trans (Prog.run_bind_error unlock), rfl, ?_⟩
      rw [after_dev, one_key_shut_iff]
      simp [SessionShuts, blocked, first, third]
    · rw [second, third] at unlock
      refine ⟨_, _, (Prog.run_bind_ok opening).trans (Prog.run_bind_error unlock), rfl, ?_⟩
      rw [after_dev]
      simp [SessionShuts, blocked, second, third]

/-- Otherwise its own work starts on the SuperIO unlocked. -/
theorem suartSession_started {rest : Sio (Faulty SioTap) → Prog (Faulty SioTap) α} {s : Faulty SioTap}
    (clear : s.Clear 3) : (suartSession 0x2e rest).run s =
      (rest ⟨tapLpc 0x2e, 0x2e⟩).run (s.after 3 ((s.dev.writeAddr 0xa5).writeAddr 0xa5)) := by
  have first : s.fails s.accesses = none := clear 0 (by omega)
  have second : s.fails (s.accesses + 1) = none := clear 1 (by omega)
  have third : s.fails (s.accesses + 1 + 1) = none := clear 2 (by omega)
  have opening := @sioInit_run 0x2e s
  rw [first] at opening
  have unlock := pair_run (fun d : SioTap => ((), d.writeAddr 0xa5)) (fun d => ((), d.writeAddr 0xa5))
    (s.after 1 s.dev)
  rw [← sioUnlock_eq 0x2e] at unlock
  simp only [after_fails, after_accesses, after_after, after_dev, second, third] at unlock
  exact (Prog.run_bind_ok opening).trans (Prog.run_bind_ok unlock)

/-- What no write but those of the keys changes. -/
def Closed (port : Nat) (I : SioTap → Prop) : Prop :=
  ∀ d p v, v ≠ 0xa5 → v ≠ 0xaa → I d → I (d.writePort port p v)

theorem shut_closed (Q : List Byte → Prop) : Closed port fun d => d.Shut ∧ Q d.written := by
  rintro d p v notKey _ ⟨shut, kept⟩
  rw [SioTap.writePort]
  split
  · exact ⟨SioTap.writeAddr_shut shut notKey, kept⟩
  split
  · rw [SioTap.writeData_shut_eq shut]
    exact ⟨shut, kept⟩
  · exact ⟨shut, kept⟩

theorem unlocked_closed : Closed port fun d => d.sio.unlocked = true := by
  intro d p v _ notLock opened
  rw [SioTap.writePort]
  split
  · simp only [SioTap.writeAddr, SuperIo.writeAddr, opened, if_true, if_neg notLock]
  split
  · rw [SioTap.writeData_unlocked]
    exact opened
  · exact opened

/-- No value written to the UART's own registers is a key. -/
theorem uart_writeb_moves {I E : SioTap → Prop} (closed : Closed port I) (stop : ∀ d, I d → E d) {p : Nat} {v : Byte}
    (plain : v ≠ 0xa5 ∧ v ≠ 0xaa) : Moves I ((tapLpc port).writeb p v) I E :=
  tapLpc_writeb_moves (fun d start => closed d p v plain.1 plain.2 start) stop

theorem suartConfigure_moves {I : SioTap → Prop} (closed : Closed port I) (ctx : Suart) :
    Moves I (suartConfigure (tapLpc port) ctx) I I := by
  have store {p : Nat} {v : Byte} (plain : v ≠ 0xa5 ∧ v ≠ 0xaa) : Moves I ((tapLpc port).writeb p v) I I :=
    uart_writeb_moves closed (fun _ start => start) plain
  exact (store (by decide)).bind fun _ => (store (by decide)).bind fun _ => (store (by decide)).bind fun _ =>
    (store (by decide)).bind fun _ => (store (by decide)).bind fun _ => store (by decide)

theorem space_moves {I E : SioTap → Prop} (stop : ∀ d, I d → E d) : Moves I (access fun d : SioTap => ((), d)) I E :=
  Moves.access (fun _ start => start) stop

/-- The work of `__suart_init` after its session has started. -/
def suartEnable (port : Nat) (ctx : Suart) (dev : SioDev) (settings : Option (BitVec 16 × Word))
    (sio : Sio (Faulty SioTap)) : Prog (Faulty SioTap) Suart := do
  match ← Prog.attempt (suartSetup sio ctx dev settings) with
  | .error e => do
    let _ ← Prog.attempt (sioLock sio)
    let _ ← Prog.attempt (sioDestroy (tapSpace port))
    Prog.fail e
  | .ok ctx => do
    let _ ← Prog.attempt (sioLock sio)
    sioDestroy (tapSpace port)
    (tapSpace port).init
    match ← Prog.attempt (suartConfigure (tapSpace port).io ctx) with
    | .error e => do
      let _ ← Prog.attempt (tapSpace port).destroy
      Prog.fail e
    | .ok () => do
      (tapSpace port).io.writeb (ctx.base.toNat + uartFcr) 0x07
      return ctx

theorem suartInit_eq {sdev : SioDev} (suart : sdev.isSuart = true) (ctx : Suart)
    (settings : Option (BitVec 16 × Word)) :
    suartInit (tapSpace port) ctx sdev settings = suartSession port (suartEnable port ctx sdev settings) := by
  rw [suartInit, if_neg (by simp [suart])]
  rfl

/-- When the setup leaves the device in `J` and the lock takes it to `I`, the rest keeps it there. -/
theorem suartEnable_moves {I J K : SioTap → Prop} (closed : Closed port I) {sio : Sio (Faulty SioTap)} {ctx : Suart}
    {sdev : SioDev} {settings : Option (BitVec 16 × Word)} (setup : Moves K (suartSetup sio ctx sdev settings) J J)
    (lock : Moves J (sioLock sio) I I) : Moves K (suartEnable port ctx sdev settings sio) I I := by
  have space : Moves I (access fun d : SioTap => ((), d)) I I := space_moves fun _ start => start
  refine setup.attempt.bind fun r => ?_
  cases r with
  | error e => exact lock.attempt.bind fun _ => space.attempt.bind fun _ => Moves.fail fun _ stop => stop
  | ok ctx =>
    refine lock.attempt.bind fun _ => space.bind fun _ => space.bind fun _ =>
      (suartConfigure_moves closed ctx).attempt.bind fun r => ?_
    cases r with
    | error e => exact space.attempt.bind fun _ => Moves.fail fun _ stop => stop
    | ok _ =>
      exact (uart_writeb_moves closed (fun _ start => start) (by decide)).bind fun _ => Moves.pure fun _ post => post

theorem suartSetup_moves (ctx : Suart) (sdev : SioDev) (settings : Option (BitVec 16 × Word)) :
    Moves (SioTap.Open sdev.code) (suartSetup ⟨tapLpc port, port⟩ ctx sdev settings) (SioTap.Only sdev.code)
      (SioTap.Only sdev.code) := by
  have stop {β : Type} {I K : SioTap → Prop} {m : Prog (Faulty SioTap) β} (moves : Moves I m K (SioTap.Tuned sdev.code)) :
      Moves I m K (SioTap.Only sdev.code) :=
    moves.mono (fun _ pre => pre) (fun _ post => post) fun _ tuned => tuned.only
  have select : Moves (SioTap.Open sdev.code) (sioSelect ⟨tapLpc port, port⟩ sdev) (SioTap.Tuned sdev.code)
      (SioTap.Only sdev.code) :=
    (sioSelect_moves sdev.code).mono (fun _ pre => pre) (fun _ post => ⟨post.1.only, fun _ => post.2⟩) fun _ only => only
  have enable (ctx' : Suart) : Moves (SioTap.Tuned sdev.code) (do
      sioWriteb ⟨tapLpc port, port⟩ 0x30 1
      return ctx') (SioTap.Only sdev.code) (SioTap.Only sdev.code) :=
    (stop (sioWriteb_moves (by decide) (by decide) 1)).bind fun _ => Moves.pure fun _ tuned => tuned.only
  refine select.bind fun _ => ?_
  cases settings with
  | none =>
    exact (stop (sioReadb_moves (by decide))).bind fun _ => (stop (sioReadb_moves (by decide))).bind fun _ =>
      (stop (sioReadb_moves (by decide))).bind fun _ =>
      Moves.bind (J := SioTap.Tuned sdev.code) (Moves.pure fun _ tuned => tuned) enable
  | some chosen =>
    exact (stop (sioWriteb_moves (by decide) (by decide) _)).bind fun _ =>
      (stop (sioWriteb_moves (by decide) (by decide) _)).bind fun _ =>
      (stop (sioWriteb_moves (by decide) (by decide) _)).bind fun _ =>
      Moves.bind (J := SioTap.Tuned sdev.code) (Moves.pure fun _ tuned => tuned) enable

/-- The work of `suart_destroy` after its session has started. -/
def suartDisable (port : Nat) (ctx : Suart) (sio : Sio (Faulty SioTap)) : Prog (Faulty SioTap) Unit :=
  Prog.ensuring (do
    sioWriteb sio 0x07 (ctx.dev.byte 0)
    sioWriteb sio 0x30 0) (do
    let _ ← Prog.attempt (sioLock sio)
    sioDestroy (tapSpace port))

theorem suartDestroy_eq (ctx : Suart) :
    suartDestroy (tapSpace port) ctx = suartSession port (suartDisable port ctx) := rfl

theorem suartDisable_moves {I J K : SioTap → Prop} {sio : Sio (Faulty SioTap)} {ctx : Suart}
    (work : Moves K (do sioWriteb sio 0x07 (ctx.dev.byte 0); sioWriteb sio 0x30 0) J J)
    (lock : Moves J (sioLock sio) I I) : Moves K (suartDisable port ctx sio) I I :=
  work.ensuring (lock.attempt.bind fun _ => space_moves fun _ start => start)

theorem suartRetire_moves (v : Byte) : Moves (SioTap.Open v) (do
    sioWriteb ⟨tapLpc port, port⟩ 0x07 v
    sioWriteb ⟨tapLpc port, port⟩ 0x30 0) (SioTap.Only v) (SioTap.Only v) := by
  have disable : Moves (SioTap.Tuned v) (sioWriteb ⟨tapLpc port, port⟩ 0x30 0) (SioTap.Tuned v) (SioTap.Tuned v) :=
    sioWriteb_moves (by decide) (by decide) 0
  refine (sioSelect_moves v).bind fun _ => disable.mono ?_ (fun _ tuned => tuned.only) fun _ tuned => tuned.only
  intro d selected
  exact ⟨selected.1.only, fun _ => selected.2⟩

/-- The register write of `suart_destroy` reaches the device selected, unless an access before it fails. -/
theorem suartRetire_takes {d : SioTap} (fresh : d.written = []) (opened : d.sio.unlocked = true) (v : Byte) :
    ∃ d', d'.written = [v] ∧ Takes (fun mid => mid.written = []) d (do
      sioWriteb ⟨tapLpc port, port⟩ 0x07 v
      sioWriteb ⟨tapLpc port, port⟩ 0x30 0) 4 () d' := by
  have store {d : SioTap} (fresh : d.written = []) {r : Byte} (notLock : r ≠ 0xaa) (v : Byte) :
      Takes (fun mid => mid.written = []) d (sioWriteb ⟨tapLpc port, port⟩ r v) 2 ()
        ((d.writeAddr r).writeData v) := by
    have eq : sioWriteb ⟨tapLpc port, port⟩ r v = (access fun d : SioTap => ((), d.writeAddr r)) >>= fun _ =>
        access fun d => ((), d.writeData v) := by
      have other : (port + 1 = port) = False := by simp
      simp only [sioWriteb, tapLpc, notLock, and_false, if_false, SioTap.writePort_addr, SioTap.writePort_data, other,
        false_and]
    rw [eq]
    exact Takes.bind (f := fun _ => access fun d : SioTap => ((), d.writeData v))
      (Takes.access (fun d : SioTap => ((), d.writeAddr r)) fresh)
      (Takes.access (fun d : SioTap => ((), d.writeData v)) fresh)
  have awake : d.Open v := ⟨by rw [SioTap.Only, fresh]; simp, opened⟩
  have selecting := awake.writeAddr (v := 0x07) (by decide)
  have fresh₁ : ((d.writeAddr 0x07).writeData v).written = [] := by
    simp only [SioTap.writeData, selecting.2.1, ne_eq, not_true_eq_false, and_false, if_false]
    exact fresh
  have ldn₁ : ((d.writeAddr 0x07).writeData v).sio.ldn = v := by
    simp only [SioTap.writeData, SuperIo.writeData, selecting.1.unlocked, selecting.2.1, not_true_eq_false, if_false, if_true]
  have awake₁ : ((d.writeAddr 0x07).writeData v).Open v := by
    refine ⟨by rw [SioTap.Only, fresh₁]; simp, ?_⟩
    rw [SioTap.writeData_unlocked]
    exact selecting.1.unlocked
  have enabling := awake₁.writeAddr (v := 0x30) (by decide)
  have select := store fresh (r := 0x07) (by decide) v
  have retire := store fresh₁ (r := 0x30) (by decide) 0
  refine ⟨_, ?_, Takes.bind (f := fun _ => sioWriteb ⟨tapLpc port, port⟩ 0x30 0) select retire⟩
  have ldn₂ : (((d.writeAddr 0x07).writeData v).writeAddr 0x30).sio.ldn = v := by
    rw [enabling.2.2, ldn₁]
  rw [SioTap.writeData, if_pos ⟨enabling.1.unlocked, by rw [enabling.2.1]; decide⟩, ldn₂]
  exact congrArg (v :: ·) fresh₁

/-- What a session leaves behind, when its work keeps to `dev` and ends with the lock. -/
theorem suartSession_left {rest : Sio (Faulty SioTap) → Prog (Faulty SioTap) α} {s : Faulty SioTap}
    (work : Moves (SioTap.Open dev) (rest ⟨tapLpc 0x2e, 0x2e⟩) (fun d => d.Shut ∧ d.Only dev)
      (fun d => d.Shut ∧ d.Only dev)) (fresh : s.dev.written = []) :
    (((suartSession 0x2e rest).run s).state.dev.Shut ↔ SessionShuts s) ∧
      ((suartSession 0x2e rest).run s).state.dev.Only dev := by
  by_cases clear : s.Clear 3
  · have start : ((s.dev.writeAddr 0xa5).writeAddr 0xa5).Open dev := by
      refine ⟨?_, SioTap.unlock_unlocked s.dev⟩
      intro ldn mem
      have listed : ldn ∈ s.dev.written := mem
      rw [fresh] at listed
      cases listed
    rw [suartSession_started clear]
    have last := work.state (s := s.after 3 ((s.dev.writeAddr 0xa5).writeAddr 0xa5)) start
    exact ⟨iff_of_true last.1 (Or.inl clear), last.2⟩
  · obtain ⟨e, s', run, kept, shut⟩ := @suartSession_stopped α rest s clear
    rw [run]
    refine ⟨shut, ?_⟩
    intro ldn mem
    have listed : ldn ∈ s'.dev.written := mem
    rw [kept, fresh] at listed
    cases listed

/-- `suart_destroy` writes a register of the device its context names, unless one of its first seven accesses
fails. -/
theorem suartDestroy_written (ctx : Suart) {s : Faulty SioTap} (fresh : s.dev.written = []) :
    (s.Clear 7 → ((suartDestroy (tapSpace 0x2e) ctx).run s).state.dev.written = [ctx.dev.byte 0]) ∧
      (¬ s.Clear 7 → ((suartDestroy (tapSpace 0x2e) ctx).run s).state.dev.written = []) := by
  have cleanup (l : List Byte) : Moves (fun d => d.written = l) (do
      let _ ← Prog.attempt (sioLock ⟨tapLpc 0x2e, 0x2e⟩)
      sioDestroy (tapSpace 0x2e)) (fun d => d.written = l) (fun d => d.written = l) := by
    have lock : Moves (fun d => d.written = l) (sioLock ⟨tapLpc 0x2e, 0x2e⟩) (fun d => d.written = l)
        (fun d => d.written = l) := by
      refine tapLpc_writeb_moves (fun d same => ?_) fun d same => same
      rw [SioTap.writePort_addr]
      exact same
    exact lock.attempt.bind fun _ => space_moves fun _ same => same
  have kept : Prog.Keeps (Prog.Same fun s : Faulty SioTap => s.dev.written) (do
      let _ ← Prog.attempt (sioLock ⟨tapLpc 0x2e, 0x2e⟩)
      sioDestroy (tapSpace 0x2e)) := fun s => (cleanup s.dev.written).state rfl
  rw [suartDestroy_eq]
  by_cases clear : s.Clear 3
  · have opened := SioTap.unlock_unlocked s.dev
    obtain ⟨d', written, work⟩ := @suartRetire_takes 0x2e ((s.dev.writeAddr 0xa5).writeAddr 0xa5) fresh opened
      (ctx.dev.byte 0)
    rw [suartSession_started clear]
    rcases clear_or_firstFails (s.after 3 ((s.dev.writeAddr 0xa5).writeAddr 0xa5)) 4 with rest | ⟨k, lt, fails⟩
    · refine ⟨fun _ => ?_, fun blocked => absurd (clear_add.mpr ⟨clear, rest⟩) blocked⟩
      have reached := work.clear _ rfl rest
      refine Prog.state_ensuring (F := fun s => s.dev.written = [ctx.dev.byte 0]) ?_ kept fun _ _ => fun was same =>
        same.trans was
      rw [reached]
      exact written
    · refine ⟨fun all => absurd (clear_add.mp all).2 (fails.not_clear lt), fun _ => ?_⟩
      obtain ⟨e, mid, none, stop⟩ := work.failed _ k rfl lt fails
      refine Prog.state_ensuring (F := fun s => s.dev.written = []) ?_ kept fun _ _ => fun was same =>
        same.trans was
      rw [stop]
      exact none
  · obtain ⟨e, s', run, kept, _⟩ := @suartSession_stopped Unit (suartDisable 0x2e ctx) s clear
    rw [run]
    exact ⟨fun all => absurd (all.mono (by omega)) clear, fun _ => kept.trans fresh⟩

/-- The two ports `0x2e` and `0x2f` are no SuperIO's. -/
theorem away_second : Elsewhere 0x4e 0x2e := by
  unfold Elsewhere
  omega

theorem sioWriteb_away {base : Nat} (away : Elsewhere port base) {I : SioTap → Prop} (r v : Byte) :
    Moves I (sioWriteb ⟨tapLpc port, base⟩ r v) I I := by
  obtain ⟨notAddr, notAddr', notData⟩ := away
  have notData' : base + 1 ≠ port + 1 := by omega
  simp only [sioWriteb, tapLpc_writeb_other notAddr notData, tapLpc_writeb_other notAddr' notData']
  exact Moves.bind (f := fun _ => access fun d : SioTap => ((), d)) (space_moves fun _ start => start)
    fun _ => space_moves fun _ start => start

theorem sioReadb_away {base : Nat} (away : Elsewhere port base) {I : SioTap → Prop} (r : Byte) :
    Moves I (sioReadb ⟨tapLpc port, base⟩ r) I I := by
  obtain ⟨notAddr, _, notData⟩ := away
  have notData' : base + 1 ≠ port + 1 := by omega
  simp only [sioReadb, tapLpc_writeb_other notAddr notData, tapLpc_readb_other notData']
  exact Moves.bind (f := fun _ => access fun d : SioTap => ((0xff : Byte), d)) (space_moves fun _ start => start)
    fun _ => Moves.access (fun _ start => start) fun _ start => start

/-- A session at the first port leaves a SuperIO at the second alone where its work does. -/
theorem suartSession_away {I : SioTap → Prop} {rest : Sio (Faulty SioTap) → Prog (Faulty SioTap) α}
    (work : Moves I (rest ⟨tapLpc 0x4e, 0x2e⟩) I I) : Moves I (suartSession 0x4e rest) I I := by
  have unlock : Moves I (sioUnlock ⟨tapLpc 0x4e, 0x2e⟩) I I := by
    rw [sioUnlock_elsewhere away_second]
    refine Moves.all fun m mem => ?_
    simp only [List.mem_cons, List.not_mem_nil, or_false, or_self] at mem
    rw [mem]
    exact space_moves fun _ start => start
  intro s start
  have opening := @sioInit_run 0x4e s
  cases first : s.fails s.accesses with
  | some e =>
    rw [first] at opening
    exact Or.inr ⟨e, _, Prog.run_bind_error opening, start⟩
  | none =>
    rw [first] at opening
    have next : Moves I (sioUnlock ⟨tapLpc 0x4e, 0x2e⟩ >>= fun _ => rest ⟨tapLpc 0x4e, 0x2e⟩) I I :=
      unlock.bind fun _ => work
    have eq : (suartSession 0x4e rest).run s =
        (sioUnlock ⟨tapLpc 0x4e, 0x2e⟩ >>= fun _ => rest ⟨tapLpc 0x4e, 0x2e⟩).run (s.after 1 s.dev) :=
      Prog.run_bind_ok opening
    rw [eq]
    exact next (s.after 1 s.dev) start

theorem sioLock_away {base : Nat} (away : Elsewhere port base) {I : SioTap → Prop} :
    Moves I (sioLock ⟨tapLpc port, base⟩) I I := by
  rw [sioLock_elsewhere away]
  exact space_moves fun _ start => start

theorem suartInit_away {I : SioTap → Prop} (closed : Closed 0x4e I) {sdev : SioDev} (suart : sdev.isSuart = true)
    (ctx : Suart) (settings : Option (BitVec 16 × Word)) :
    Moves I (suartInit (tapSpace 0x4e) ctx sdev settings) I I := by
  rw [suartInit_eq suart]
  refine suartSession_away (suartEnable_moves closed ?_ (sioLock_away away_second))
  refine (sioWriteb_away away_second _ _).bind fun _ => ?_
  have enable (ctx' : Suart) : Moves I (do
      sioWriteb ⟨tapLpc 0x4e, 0x2e⟩ 0x30 1
      return ctx') I I := (sioWriteb_away away_second _ _).bind fun _ => Moves.pure fun _ post => post
  cases settings with
  | none =>
    exact (sioReadb_away away_second _).bind fun _ => (sioReadb_away away_second _).bind fun _ =>
      (sioReadb_away away_second _).bind fun _ => Moves.bind (J := I) (Moves.pure fun _ post => post) enable
  | some chosen =>
    exact (sioWriteb_away away_second _ _).bind fun _ => (sioWriteb_away away_second _ _).bind fun _ =>
      (sioWriteb_away away_second _ _).bind fun _ => Moves.bind (J := I) (Moves.pure fun _ post => post) enable

theorem suartDestroy_away {I : SioTap → Prop} (ctx : Suart) : Moves I (suartDestroy (tapSpace 0x4e) ctx) I I := by
  rw [suartDestroy_eq]
  refine suartSession_away (suartDisable_moves ?_ (sioLock_away away_second))
  exact (sioWriteb_away away_second _ _).bind fun _ => sioWriteb_away away_second _ _

theorem suartSetup_dev {σ : Type} {sio : Sio σ} {ctx ctx' : Suart} {sdev : SioDev}
    {settings : Option (BitVec 16 × Word)} {s s' : σ}
    (run : (suartSetup sio ctx sdev settings).run s = .ok ctx' s') : ctx'.dev = ctx.dev := by
  obtain ⟨_, s₁, _, run⟩ := Prog.bind_ok_iff.mp run
  cases settings with
  | none =>
    obtain ⟨_, _, _, run⟩ := Prog.bind_ok_iff.mp run
    obtain ⟨_, _, _, run⟩ := Prog.bind_ok_iff.mp run
    obtain ⟨_, _, _, run⟩ := Prog.bind_ok_iff.mp run
    obtain ⟨_, _, filled, run⟩ := Prog.bind_ok_iff.mp run
    obtain ⟨_, _, _, last⟩ := Prog.bind_ok_iff.mp run
    cases filled
    cases last
    rfl
  | some chosen =>
    obtain ⟨_, _, _, run⟩ := Prog.bind_ok_iff.mp run
    obtain ⟨_, _, _, run⟩ := Prog.bind_ok_iff.mp run
    obtain ⟨_, _, _, run⟩ := Prog.bind_ok_iff.mp run
    obtain ⟨_, _, filled, run⟩ := Prog.bind_ok_iff.mp run
    obtain ⟨_, _, _, last⟩ := Prog.bind_ok_iff.mp run
    cases filled
    cases last
    rfl

/-- `__suart_init` never fills in the `dev` of its context, and succeeds for the SUARTs only. -/
theorem suartInit_dev {σ : Type} {space : LpcSpace σ} {ctx ctx' : Suart} {sdev : SioDev}
    {settings : Option (BitVec 16 × Word)} {s s' : σ}
    (run : (suartInit space ctx sdev settings).run s = .ok ctx' s') : sdev.isSuart = true ∧ ctx'.dev = ctx.dev := by
  by_cases suart : sdev.isSuart = true
  · refine ⟨suart, ?_⟩
    rw [suartInit, if_neg (by simp [suart])] at run
    obtain ⟨_, _, _, run⟩ := Prog.bind_ok_iff.mp run
    obtain ⟨_, _, _, run⟩ := Prog.bind_ok_iff.mp run
    obtain ⟨r, _, setup, run⟩ := Prog.bind_ok_iff.mp run
    cases r with
    | error e =>
      obtain ⟨_, _, _, run⟩ := Prog.bind_ok_iff.mp run
      obtain ⟨_, _, _, run⟩ := Prog.bind_ok_iff.mp run
      cases run
    | ok ctx₁ =>
      have kept := suartSetup_dev (Prog.attempt_ok_iff.mp setup)
      obtain ⟨_, _, _, run⟩ := Prog.bind_ok_iff.mp run
      obtain ⟨_, _, _, run⟩ := Prog.bind_ok_iff.mp run
      obtain ⟨_, _, _, run⟩ := Prog.bind_ok_iff.mp run
      obtain ⟨r, _, _, run⟩ := Prog.bind_ok_iff.mp run
      cases r with
      | error e =>
        obtain ⟨_, _, _, run⟩ := Prog.bind_ok_iff.mp run
        cases run
      | ok _ =>
        obtain ⟨_, _, _, last⟩ := Prog.bind_ok_iff.mp run
        cases last
        exact kept
  · rw [suartInit, if_pos suart] at run
    cases run

end Session

/-- The users of the SuperIO. A `suart_destroy` is given the context that a successful `suart_init` made of
`prior`. -/
inductive SioCall where
  | ilpcb (op : MemOp)
  | sioProbe
  | suartInit (ctx : Suart) (dev : SioDev) (settings : Option (BitVec 16 × Word))
  | suartDestroy (prior : Suart) (dev : SioDev) (ctx : Suart)

namespace SioCall

/-- The call with the SuperIO at `port`, which the iLPC2AHB bridge has found there. -/
def prog (port : Nat) : SioCall → Prog (Faulty SioTap) Unit
  | .ilpcb op => do let _ ← ilpcbCall ⟨tapLpc port, port⟩ op
  | .sioProbe => do let _ ← Culvert.sioProbe (tapLpc port)
  | .suartInit ctx dev settings => do let _ ← Culvert.suartInit (tapSpace port) ctx dev settings
  | .suartDestroy _ _ ctx => Culvert.suartDestroy (tapSpace port) ctx

def Made (port : Nat) : SioCall → Prop
  | .suartDestroy prior dev ctx => ∃ settings s s',
    (Culvert.suartInit (tapSpace port) prior dev settings).run s = .ok ctx s'
  | _ => True

/-- The logical devices the call may write to. -/
def devices : SioCall → List Byte
  | .ilpcb _ => [SioDev.ilpc.code]
  | .sioProbe => []
  | .suartInit _ dev _ => [dev.code]
  | .suartDestroy _ dev _ => [dev.code]

/-- The SuperIO is locked and no register of any other device was written. -/
def Tidy (call : SioCall) (d : SioTap) : Prop := d.Shut ∧ ∀ ldn ∈ d.written, ldn ∈ call.devices

/-- A session on the one chip of the board leaves it shut, and one on the port where there is none leaves it alone. -/
def SessionTidy (port : Nat) (s : Faulty SioTap) : Prop := if port = 0x2e then SessionShuts s else s.dev.Shut

/-- When a call leaves the SuperIO tidy. -/
def TidyWhen (port : Nat) (s : Faulty SioTap) : SioCall → Prop
  | .ilpcb op => s.dev.Shut ∨ ¬ IlpcRefuses op
  | .sioProbe => port = 0x2e ∨ s.dev.Shut ∨ s.Clear 6
  | .suartInit _ dev _ => if dev.isSuart then SessionTidy port s else s.dev.Shut
  | .suartDestroy prior dev _ =>
    SessionTidy port s ∧ (port = 0x2e → s.Clear 7 → prior.dev.byte 0 = dev.code)

end SioCall

section Tidy
variable {port : Nat} {s : Faulty SioTap}

theorem not_mem_of_only {l : List Byte} (only : ∀ dev, ∀ ldn ∈ l, ldn = dev) (ldn : Byte) : ldn ∉ l := by
  intro mem
  have zero := only 0 ldn mem
  have one := only 1 ldn mem
  rw [zero] at one
  exact absurd one (by decide)

theorem only_of_fresh (fresh : s.dev.written = []) (dev : Byte) : s.dev.Only dev := by
  rw [SioTap.Only, fresh]
  simp

/-- A program's value does not matter to where it leaves the device. -/
theorem state_discard {α : Type} (m : Prog (Faulty SioTap) α) :
    ((do let _ ← m : Prog (Faulty SioTap) Unit).run s).state = (m.run s).state := by
  cases run : m.run s with
  | ok a s' =>
    rw [EStateM.run_bind, run]
    rfl
  | error e s' =>
    rw [EStateM.run_bind, run]
    rfl

theorem ilpcb_tidy_iff (op : MemOp) (fresh : s.dev.written = []) :
    (SioCall.ilpcb op).Tidy (((SioCall.ilpcb op).prog port).run s).state.dev ↔
      (SioCall.ilpcb op).TidyWhen port s := by
  rw [SioCall.prog, state_discard]
  by_cases refused : IlpcRefuses op
  · rw [ilpcbCall_refused refused]
    simp [SioCall.Tidy, SioCall.TidyWhen, refused, fresh]
  · have left := (@ilpcbCall_moves port op refused).state (s := s) (only_of_fresh fresh 0x0d)
    refine iff_of_true ⟨left.1, fun ldn mem => ?_⟩ (Or.inr refused)
    rw [left.2 ldn mem]
    exact List.mem_singleton_self _

theorem sioProbe_tidy_iff (atPort : port = 0x2e ∨ port = 0x4e) (fresh : s.dev.written = []) :
    SioCall.sioProbe.Tidy ((SioCall.sioProbe.prog port).run s).state.dev ↔ SioCall.sioProbe.TidyWhen port s := by
  rw [SioCall.prog, state_discard]
  have start := only_of_fresh fresh
  rcases atPort with rfl | rfl
  · have left (dev : Byte) := sioProbe_first.state (start dev)
    exact iff_of_true ⟨(left 0).1, fun ldn mem => absurd mem (not_mem_of_only (fun dev => (left dev).2) ldn)⟩
      (Or.inl rfl)
  · have left (dev : Byte) := sioProbe_second s (start dev)
    have none (ldn : Byte) := not_mem_of_only (fun dev => (left dev).1) ldn
    rw [SioCall.Tidy, (left 0).2, and_iff_left fun ldn mem => absurd mem (none ldn)]
    simp [SioCall.TidyWhen]

/-- A SuperIO at the second port stays as open as it was. -/
theorem tidy_away {α : Type} {m : Prog (Faulty SioTap) α} {call : SioCall} (fresh : s.dev.written = [])
    (moves : ∀ I, Closed 0x4e I → Moves I m I I) : call.Tidy (m.run s).state.dev ↔ s.dev.Shut := by
  cases opened : s.dev.sio.unlocked with
  | true =>
    have left := (moves _ unlocked_closed).state opened
    exact iff_of_false (fun tidy => by simp [SioCall.Tidy, SioTap.Shut, left] at tidy) (by simp [SioTap.Shut, opened])
  | false =>
    have left := (moves _ (shut_closed (· = []))).state (s := s) ⟨opened, fresh⟩
    refine iff_of_true ⟨left.1, fun ldn mem => ?_⟩ opened
    rw [left.2] at mem
    cases mem

theorem suartInit_tidy_iff (atPort : port = 0x2e ∨ port = 0x4e) (ctx : Suart) (dev : SioDev)
    (settings : Option (BitVec 16 × Word)) (fresh : s.dev.written = []) :
    (SioCall.suartInit ctx dev settings).Tidy (((SioCall.suartInit ctx dev settings).prog port).run s).state.dev ↔
      (SioCall.suartInit ctx dev settings).TidyWhen port s := by
  rw [SioCall.prog, state_discard]
  by_cases suart : dev.isSuart = true
  · rw [SioCall.TidyWhen, if_pos suart, SioCall.SessionTidy]
    rcases atPort with rfl | rfl
    · rw [suartInit_eq suart, if_pos rfl]
      have work : Moves (SioTap.Open dev.code) (suartEnable 0x2e ctx dev settings ⟨tapLpc 0x2e, 0x2e⟩)
          (fun d => d.Shut ∧ d.Only dev.code) (fun d => d.Shut ∧ d.Only dev.code) :=
        suartEnable_moves (shut_closed fun l => ∀ ldn ∈ l, ldn = dev.code) (suartSetup_moves ctx dev settings)
          sioLock_moves
      have left := suartSession_left work fresh
      rw [SioCall.Tidy, left.1, and_iff_left]
      intro ldn mem
      rw [left.2 ldn mem]
      exact List.mem_singleton_self _
    · rw [if_neg (by decide)]
      exact tidy_away fresh fun I closed => suartInit_away closed suart ctx settings
  · have stop : (suartInit (tapSpace port) ctx dev settings).run s = .error (.rc einval) s := by
      rw [suartInit, if_pos suart]
      rfl
    rw [stop]
    simp [SioCall.Tidy, SioCall.TidyWhen, suart, fresh, EStateM.Result.state]

theorem suartDestroy_tidy_iff (atPort : port = 0x2e ∨ port = 0x4e) {prior ctx : Suart} {dev : SioDev}
    (made : (SioCall.suartDestroy prior dev ctx).Made port) (fresh : s.dev.written = []) :
    (SioCall.suartDestroy prior dev ctx).Tidy (((SioCall.suartDestroy prior dev ctx).prog port).run s).state.dev ↔
      (SioCall.suartDestroy prior dev ctx).TidyWhen port s := by
  obtain ⟨settings, s₀, s₁, init⟩ := made
  have kept := (suartInit_dev init).2
  rw [SioCall.prog, SioCall.TidyWhen, SioCall.SessionTidy]
  rcases atPort with rfl | rfl
  · have work : Moves (SioTap.Open (ctx.dev.byte 0)) (suartDisable 0x2e ctx ⟨tapLpc 0x2e, 0x2e⟩)
        (fun d => d.Shut ∧ d.Only (ctx.dev.byte 0)) (fun d => d.Shut ∧ d.Only (ctx.dev.byte 0)) :=
      suartDisable_moves (suartRetire_moves (ctx.dev.byte 0)) sioLock_moves
    have left := suartSession_left work fresh
    rw [← suartDestroy_eq] at left
    have written := suartDestroy_written ctx fresh
    rw [SioCall.Tidy, left.1, if_pos rfl, ← kept]
    refine and_congr_right fun _ => ?_
    by_cases clear : s.Clear 7
    · rw [written.1 clear]
      simp [SioCall.devices, clear]
    · rw [written.2 clear]
      simp [clear]
  · rw [if_neg (by decide)]
    simp only [show ((0x4e : Nat) = 0x2e) = False by simp, false_implies, and_true]
    exact tidy_away fresh fun I _ => suartDestroy_away ctx

end Tidy

/-- From every state of a SuperIO at either port, for every pattern of failing accesses. -/
theorem sio_tidy_iff (port : Nat) (atPort : port = 0x2e ∨ port = 0x4e) (call : SioCall) (made : call.Made port)
    (s : Faulty SioTap) (fresh : s.dev.written = []) :
    call.Tidy ((call.prog port).run s).state.dev ↔ call.TidyWhen port s := by
  cases call with
  | ilpcb op => exact ilpcb_tidy_iff op fresh
  | sioProbe => exact sioProbe_tidy_iff atPort fresh
  | suartInit ctx dev settings => exact suartInit_tidy_iff atPort ctx dev settings fresh
  | suartDestroy prior dev ctx => exact suartDestroy_tidy_iff atPort made fresh

/-- A locked SuperIO with cleared registers, on ports that never fail. -/
def sioCleared : Faulty SioTap where
  dev := ⟨⟨false, 0, 0, 0, fun _ _ => 0, fun _ => 0⟩, []⟩
  fails _ := none
  accesses := 0

/-- A SuperIO that nothing has been written to. -/
theorem sio_tidy_iff_cleared : (0x2e = 0x2e ∨ 0x2e = 0x4e) ∧ SioCall.sioProbe.Made 0x2e ∧
    sioCleared.dev.written = [] ∧ SioCall.sioProbe.Tidy ((SioCall.sioProbe.prog 0x2e).run sioCleared).state.dev :=
  ⟨Or.inl rfl, trivial, rfl, (sio_tidy_iff 0x2e (Or.inl rfl) .sioProbe trivial sioCleared rfl).mpr (Or.inl rfl)⟩

/-- `suart_init_defaults` enables SUART3, and `suart_destroy` disables the device a cleared context names. -/
theorem suartDestroy_not_tidy : ¬ ∀ (port : Nat), port = 0x2e ∨ port = 0x4e → ∀ call : SioCall, call.Made port →
    ∀ s : Faulty SioTap, s.dev.written = [] → call.Tidy ((call.prog port).run s).state.dev := by
  intro tidy
  have made : (SioCall.suartDestroy ⟨0, 0, 0, 0⟩ .suart3 ⟨0, 0, 0, 0⟩).Made 0x2e := ⟨none, sioCleared, _, rfl⟩
  have left := (suartDestroy_tidy_iff (Or.inl rfl) made rfl).mp (tidy 0x2e (Or.inl rfl) _ made sioCleared rfl)
  exact absurd (left.2 rfl fun _ _ => rfl) (by decide)

end Culvert
