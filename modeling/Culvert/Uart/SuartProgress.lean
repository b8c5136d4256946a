import Culvert.Lib.Sound
import Culvert.Uart.SuartTurns

/-! Once the line is quiet and the transmitter drains, every byte gets through. -/

namespace Culvert

open Faulty

namespace Uart16550

/-- From access `n` on nothing arrives and the transmitter drains its FIFO before each access. -/
structure Calm (n : Nat) (u : Uart16550) : Prop where
  quiet : ∀ k, n ≤ k → u.arrives k = []
  drained : ∀ k, n ≤ k → uartFifo ≤ u.drains k
  room : u.tx ≤ uartFifo

/-- The same UART some accesses on. -/
structure Later (u u' : Uart16550) : Prop where
  arrives : u'.arrives = u.arrives
  drains : u'.drains = u.drains
  now : u.now ≤ u'.now
  room : u.tx ≤ uartFifo → u'.tx ≤ uartFifo

variable {n : Nat} {u u' u'' : Uart16550}

theorem Later.trans (first : u.Later u') (second : u'.Later u'') : u.Later u'' where
  arrives := second.arrives.trans first.arrives
  drains := second.drains.trans first.drains
  now := Nat.le_trans first.now second.now
  room bound := second.room (first.room bound)

theorem Later.refl (u : Uart16550) : u.Later u := ⟨rfl, rfl, Nat.le_refl _, fun bound => bound⟩

theorem Calm.later (calm : u.Calm n) (later : u.Later u') : u'.Calm n where
  quiet := by
    rw [later.arrives]
    exact calm.quiet
  drained := by
    rw [later.drains]
    exact calm.drained
  room := later.room calm.room

theorem elapse_later (u : Uart16550) : u.Later u.elapse :=
  ⟨rfl, rfl, Nat.le_succ _, fun bound => Nat.le_trans (Nat.sub_le _ _) bound⟩

theorem push_later (later : u.Later u') (v : Byte) : u.Later (u'.push v) := by
  rw [push]
  split
  · rename_i free
    exact ⟨later.arrives, later.drains, later.now, fun _ => free⟩
  · exact ⟨later.arrives, later.drains, later.now, later.room⟩

theorem pop_later (later : u.Later u') : u.Later u'.pop.2 := by
  rw [pop]
  split
  · exact later
  · exact ⟨later.arrives, later.drains, later.now, later.room⟩

theorem control_later (later : u.Later u') (v : Byte) : u.Later (u'.control v) := by
  refine ⟨later.arrives, later.drains, later.now, fun bound => ?_⟩
  show (if v &&& 4 = 0 then u'.tx else 0) ≤ uartFifo
  split
  · exact later.room bound
  · exact Nat.zero_le _

theorem readPort_later (base p : Nat) (u : Uart16550) : u.Later (u.readPort base p).2 := by
  rw [readPort]
  split
  · exact u.elapse_later
  split
  · exact pop_later u.elapse_later
  · exact u.elapse_later

theorem writePort_later (base p : Nat) (v : Byte) (u : Uart16550) : u.Later (u.writePort base p v) := by
  rw [writePort]
  split
  · exact push_later u.elapse_later v
  split
  · exact control_later u.elapse_later v
  · exact u.elapse_later

theorem Calm.elapse_tx (calm : u.Calm n) (late : n ≤ u.now) : u.elapse.tx = 0 := by
  have drained := calm.drained u.now late
  have room := calm.room
  show u.tx - u.drains u.now = 0
  omega

theorem Calm.elapse_rx (calm : u.Calm n) (late : n ≤ u.now) : u.elapse.rx = u.rx.take uartFifo := by
  show (u.rx ++ u.arrives u.now).take uartFifo = _
  rw [calm.quiet u.now late, List.append_nil]

end Uart16550

section
variable {ctx : Suart} {n : Nat} {u : Uart16550}

theorem writeb_yields (p : Nat) (v : Byte) (u : Uart16550) :
    Yields u ((uartLpc ctx.base.toNat).writeb p v) () (u.writePort ctx.base.toNat p v) := by
  rw [uartLpc_writeb]
  exact Yields.access fun u : Uart16550 => ((), u.writePort ctx.base.toNat p v)

theorem lsr_yields (u : Uart16550) :
    Yields u ((uartLpc ctx.base.toNat).readb (ctx.base.toNat + uartLsr)) u.elapse.lsr u.elapse := by
  have look := Yields.access (Uart16550.readPort ctx.base.toNat (ctx.base.toNat + uartLsr)) (d := u)
  rw [Uart16550.readPort, if_pos rfl] at look
  rw [uartLpc_readb]
  exact look

/-- The slots are used while there are bytes. -/
theorem suartPush_yields (slots : Nat) (buf : List Byte) (u : Uart16550) : ∃ u',
    Yields u (suartPush (uartLpc ctx.base.toNat) ctx slots buf) (buf.length - slots) u' ∧ u.Later u' ∧
      (u.Calm n → n ≤ u.now → u.rx = [] → u'.rx = []) := by
  induction slots generalizing buf u with
  | zero => exact ⟨u, Yields.pure _, .refl u, fun _ _ empty => empty⟩
  | succ slots ih =>
    cases buf with
    | nil =>
      refine ⟨u, ?_, .refl u, fun _ _ empty => empty⟩
      rw [List.length_nil, Nat.zero_sub]
      exact Yields.pure 0
    | cons b rest =>
      have step := Uart16550.writePort_later ctx.base.toNat (ctx.base.toNat + uartThr) b u
      obtain ⟨u', more, later, quiet⟩ := ih rest (u.writePort ctx.base.toNat (ctx.base.toNat + uartThr) b)
      refine ⟨u', ?_, step.trans later, fun calm late empty => ?_⟩
      · rw [List.length_cons, Nat.add_sub_add_right]
        exact (writeb_yields _ b u).bind more
      · refine quiet (calm.later step) (Nat.le_trans late step.now) ?_
        have still : u.elapse.rx = [] := by
          rw [calm.elapse_rx late, empty, List.take_nil]
        rw [Uart16550.writePort, if_pos rfl, Uart16550.push]
        split
        · exact still
        · exact still

theorem suartWrite_yields {buf : List Byte} (some : buf ≠ []) (u : Uart16550) : ∃ left u',
    Yields u (suartWrite (uartLpc ctx.base.toNat) ctx buf) left u' ∧ left ≤ buf.length ∧ u.Later u' ∧
      u.now < u'.now ∧ (u.Calm n → n ≤ u.now → u.rx = [] → left < buf.length ∧ u'.rx = []) := by
  have first := u.elapse_later
  have ticks : u.now < u.elapse.now := Nat.lt_succ_self _
  have clean : ¬ u.elapse.lsr &&& lsrError ≠ 0 := fun error => error u.elapse.lsr_no_error
  simp only [suartWrite, if_neg some]
  by_cases data : u.elapse.lsr &&& lsrDr ≠ 0
  · refine ⟨buf.length, u.elapse, (lsr_yields u).bind ?_, Nat.le_refl _, first, ticks, fun calm late empty => ?_⟩
    · rw [if_neg clean, if_pos data]
      exact Yields.pure _
    · have still : u.elapse.rx = [] := by
        rw [calm.elapse_rx late, empty, List.take_nil]
      exact absurd (u.elapse.lsr_data.mpr still) data
  · by_cases busy : u.elapse.lsr &&& lsrThre = 0
    · refine ⟨buf.length, u.elapse, (lsr_yields u).bind ?_, Nat.le_refl _, first, ticks, fun calm late empty => ?_⟩
      · rw [if_neg clean, if_neg data, if_pos busy]
        exact Yields.pure _
      · exact absurd (calm.elapse_tx late) (u.elapse.lsr_thre.mp busy)
    · obtain ⟨u', push, later, quiet⟩ := @suartPush_yields ctx n 16 buf u.elapse
      have pos : 0 < buf.length := List.length_pos_iff.mpr some
      refine ⟨buf.length - 16, u', (lsr_yields u).bind ?_, Nat.sub_le _ _, first.trans later,
        Nat.lt_of_lt_of_le ticks later.now, fun calm late empty => ⟨by omega, ?_⟩⟩
      · rw [if_neg clean, if_neg data, if_neg busy]
        exact push
      · refine quiet (calm.later first) (Nat.le_trans late first.now) ?_
        rw [calm.elapse_rx late, empty, List.take_nil]

theorem suartReady_yields (u : Uart16550) : Yields u (suartReady (uartLpc ctx.base.toNat) ctx)
    (.ok (decide (u.elapse.rx ≠ []))) u.elapse := by
  have same : decide (u.elapse.lsr &&& lsrDr ≠ 0) = decide (u.elapse.rx ≠ []) :=
    decide_eq_decide.mpr (not_congr u.elapse.lsr_data)
  have look := Yields.bind (f := fun lsr => pure (decide (lsr &&& lsrDr ≠ 0))) (@lsr_yields ctx u) (Yields.pure _)
  rw [same] at look
  exact look.attempt

theorem Uart16550.pop_rx (u : Uart16550) : u.pop.2.rx = u.rx.tail := by
  rw [Uart16550.pop]
  split
  · rename_i empty
    rw [empty, List.tail_nil]
  · rename_i full
    rw [full, List.tail_cons]

/-- A burst empties a receive FIFO that it has room for. -/
theorem suartBurst_yields (room : Nat) (u : Uart16550) : ∃ out u',
    Yields u (suartBurst (uartLpc ctx.base.toNat) ctx room) (out, none) u' ∧ out.length ≤ room ∧ u.Later u' ∧
      (u.Calm n → n ≤ u.now → (u.rx.take uartFifo).length ≤ room → u'.rx = []) := by
  have first := u.elapse_later
  induction room generalizing u with
  | zero =>
    refine ⟨[], u.elapse, (suartReady_yields u).bind (Yields.pure _), Nat.le_refl _, first, fun calm late fits => ?_⟩
    rw [calm.elapse_rx late]
    exact List.length_eq_zero_iff.mp (Nat.le_zero.mp fits)
  | succ room ih =>
    by_cases empty : u.elapse.rx = []
    · have ready : decide (u.elapse.rx ≠ []) = false := by simp [empty]
      have look := @suartReady_yields ctx u
      rw [ready] at look
      exact ⟨[], u.elapse, look.bind (Yields.pure _), Nat.zero_le _, first, fun _ _ _ => empty⟩
    · have ready : decide (u.elapse.rx ≠ []) = true := by simp [empty]
      have look := @suartReady_yields ctx u
      rw [ready] at look
      have taken := Yields.access (Uart16550.readPort ctx.base.toNat (ctx.base.toNat + uartRbr)) (d := u.elapse)
      have second := u.elapse.readPort_later ctx.base.toNat (ctx.base.toNat + uartRbr)
      obtain ⟨out, u', rest, bound, later, quiet⟩ :=
        ih (u.elapse.readPort ctx.base.toNat (ctx.base.toNat + uartRbr)).2 (Uart16550.elapse_later _)
      refine ⟨_ :: out, u', look.bind (taken.bind (rest.bind (Yields.pure _))), Nat.succ_le_succ bound,
        (first.trans second).trans later, fun calm late fits => ?_⟩
      have late₁ : n ≤ u.elapse.now := Nat.le_trans late first.now
      refine quiet ((calm.later first).later second) (Nat.le_trans late₁ second.now) ?_
      have left : (u.elapse.readPort ctx.base.toNat (ctx.base.toNat + uartRbr)).2.rx =
          ((u.rx.take uartFifo).take uartFifo).tail := by
        rw [Uart16550.readPort, if_neg (by simp [uartLsr, uartRbr]), if_pos rfl, Uart16550.pop_rx,
          (calm.later first).elapse_rx late₁, calm.elapse_rx late]
      rw [left]
      simp only [List.length_take, List.length_tail] at *
      omega

theorem suartBursts_yields (retry room : Nat) (u : Uart16550) : ∃ out u',
    Yields u (suartBursts (uartLpc ctx.base.toNat) ctx retry room) (out, none) u' ∧ out.length ≤ room ∧ u.Later u' ∧
      (u.Calm n → n ≤ u.now → (u.rx.take uartFifo).length ≤ room → u'.rx = []) := by
  induction retry generalizing room u with
  | zero => exact suartBurst_yields room u
  | succ retry ih =>
    obtain ⟨out, u₁, burst, bound, later, quiet⟩ := @suartBurst_yields ctx n room u
    obtain ⟨out', u', bursts, bound', later', quiet'⟩ := ih (room - out.length) u₁
    refine ⟨out ++ out', u', burst.bind (bursts.bind (Yields.pure _)), ?_, later.trans later', fun calm late fits => ?_⟩
    · rw [List.length_append]
      omega
    · refine quiet' (calm.later later) (Nat.le_trans late later.now) ?_
      rw [quiet calm late fits, List.take_nil]
      exact Nat.zero_le _

/-- After a read on a quiet line nothing is left to read. -/
theorem suartRead_yields (u : Uart16550) : ∃ out u',
    Yields u (suartRead (uartLpc ctx.base.toNat) ctx 1024) out u' ∧ out.length ≤ 1024 ∧ u.Later u' ∧
      (u.Calm n → n ≤ u.now → u'.rx = []) := by
  have first := u.elapse_later
  have clean : ¬ u.elapse.lsr &&& lsrError ≠ 0 := fun error => error u.elapse.lsr_no_error
  by_cases data : u.elapse.lsr &&& lsrDr = 0
  · refine ⟨[], u.elapse, (lsr_yields u).bind ?_, Nat.zero_le _, first, fun _ _ => u.elapse.lsr_data.mp data⟩
    rw [if_neg clean, if_pos data]
    exact Yields.pure _
  · obtain ⟨out, u', bursts, bound, later, quiet⟩ := @suartBursts_yields ctx n 99 1024 u.elapse
    refine ⟨out, u', (lsr_yields u).bind ?_, bound, first.trans later, fun calm late => ?_⟩
    · rw [if_neg clean, if_neg data]
      exact bursts.bind (Yields.pure out)
    · refine quiet (calm.later first) (Nat.le_trans late first.now) ?_
      rw [List.length_take, uartFifo]
      omega

theorem drop_ne_nil {buf : List Byte} {left : Nat} (some : left ≠ 0) (le : left ≤ buf.length) :
    buf.drop (buf.length - left) ≠ [] := by
  intro empty
  have none := List.length_eq_zero_iff.mpr empty
  rw [List.length_drop] at none
  omega

/-- Every turn writes a byte or brings the calm nearer. -/
theorem suartFlush_loop {fuel : Nat} {buf : List Byte} {left : Nat} {s : Faulty Uart16550} (sound : s.Sound)
    (calm : s.dev.Calm n) (le : left ≤ buf.length) (enough : (n - s.dev.now) + left < fuel) :
    ∃ s', (Prog.loop (suartFlushTurn (uartLpc ctx.base.toNat) ctx buf) fuel left).run s = .ok () s' := by
  induction fuel generalizing left s with
  | zero => exact absurd enough (Nat.not_lt_zero _)
  | succ fuel ih =>
    rw [Prog.loop]
    by_cases done : left = 0
    · rw [suartFlushTurn, if_pos done]
      exact ⟨s, rfl⟩
    · have some := drop_ne_nil done le
      have length : (buf.drop (buf.length - left)).length = left := by
        rw [List.length_drop]
        omega
      let reset := s.dev.writePort ctx.base.toNat (ctx.base.toNat + uartFcr) 0x03
      have first : s.dev.Later reset := Uart16550.writePort_later _ _ _ _
      have resetEq : reset = s.dev.elapse.control 0x03 := by
        show s.dev.writePort ctx.base.toNat (ctx.base.toNat + uartFcr) 0x03 = _
        rw [Uart16550.writePort, if_neg (by simp [uartFcr, uartThr]), if_pos rfl]
      have empty : reset.rx = [] := by
        rw [resetEq]
        rfl
      have ticks : s.dev.now < reset.now := by
        rw [resetEq]
        exact Nat.lt_succ_self _
      obtain ⟨left', u', write, le', later, _, moves⟩ := @suartWrite_yields ctx n _ some reset
      rw [length] at le' moves
      obtain ⟨s₁, run₁, sound₁, dev₁⟩ := writeb_yields (ctx.base.toNat + uartFcr) 0x03 s.dev s sound rfl
      obtain ⟨s₂, run₂, sound₂, dev₂⟩ := write s₁ sound₁ dev₁
      have turn : (suartFlushTurn (uartLpc ctx.base.toNat) ctx buf left).run s = .ok (.inl left') s₂ := by
        rw [suartFlushTurn, if_neg done, Prog.run_bind_ok run₁, Prog.run_bind_ok run₂]
        rfl
      rw [Prog.run_bind_ok turn]
      have calm₂ : s₂.dev.Calm n := by
        rw [dev₂]
        exact (calm.later first).later later
      refine ih sound₂ calm₂ (by omega) ?_
      rw [dev₂]
      have onward := later.now
      by_cases late : n ≤ reset.now
      · have less := (moves (calm.later first) late empty).1
        omega
      · omega

/-- `suart_flush` returns once the line is quiet. -/
theorem suartFlush_returns {fuel : Nat} {buf : List Byte} {s : Faulty Uart16550} (sound : s.Sound)
    (calm : s.dev.Calm n) (enough : n + buf.length < fuel) :
    ∃ s', (suartFlush (uartLpc ctx.base.toNat) ctx fuel buf).run s = .ok () s' :=
  suartFlush_loop sound calm (Nat.le_refl _) (by omega)

end

/-- No access, read, write or poll fails, and the UART is calm from access `n` on. -/
structure Console.Alive (n : Nat) (c : Console) : Prop where
  sound : c.uart.Sound
  calm : c.uart.dev.Calm n
  uin : c.uin.Works
  uout : c.uout.Works
  epoll : ∀ k, ∃ ready, c.epoll k = .ok ready

section
variable {ctx : Suart} {n fuel : Nat} {c : Console}

theorem onUart_yields {α : Type} {m : Prog (Faulty Uart16550) α} {a : α} {u : Uart16550} (alive : c.Alive n)
    (yields : Yields c.uart.dev m a u) (later : c.uart.dev.Later u) :
    ∃ c', (Console.onUart m).run c = .ok a c' ∧ c'.Alive n ∧ c'.uart.dev = u ∧ c'.uout = c.uout := by
  obtain ⟨s', run, sound, dev⟩ := yields c.uart alive.sound rfl
  refine ⟨{ c with uart := s' }, Prog.run_zoom_ok run, ⟨sound, ?_, alive.uin, alive.uout, alive.epoll⟩, dev, rfl⟩
  show s'.dev.Calm n
  rw [dev]
  exact alive.calm.later later

/-- What was read is passed on, and on a quiet line the receive FIFO is empty then. -/
theorem suartRunOut_returns (alive : c.Alive n) (enough : 1024 < fuel) :
    ∃ c', (suartRunOut ctx fuel).run c = .ok () c' ∧ c'.Alive n ∧ c.uart.dev.Later c'.uart.dev ∧
      (n ≤ c.uart.dev.now → c'.uart.dev.rx = []) := by
  obtain ⟨out, u', read, bound, later, quiet⟩ := @suartRead_yields ctx n c.uart.dev
  obtain ⟨c₁, run₁, alive₁, dev₁, _⟩ := onUart_yields alive read later
  obtain ⟨fd', run₂, _, same⟩ := @Fd.writeAll_works c₁.uout fuel out alive₁.uout (by omega)
  have run₂' : (Console.onUout (Fd.writeAll fuel out)).run c₁ = .ok () { c₁ with uout := fd' } := Prog.run_zoom_ok run₂
  refine ⟨{ c₁ with uout := fd' }, ?_, ⟨alive₁.sound, alive₁.calm, alive₁.uin, alive₁.uout.of_same same, alive₁.epoll⟩,
    ?_, ?_⟩
  · rw [suartRunOut, Prog.run_bind_ok run₁]
    exact run₂'
  · show c.uart.dev.Later c₁.uart.dev
    rw [dev₁]
    exact later
  · intro late
    show c₁.uart.dev.rx = []
    rw [dev₁]
    exact quiet alive.calm late

/-- How far the loop over a chunk is from its end. -/
def runMeasure (n : Nat) (c : Console) (left : Nat) : Nat :=
  2 * (n - c.uart.dev.now) + 2 * left + if c.uart.dev.rx = [] then 0 else 1

/-- A turn writes a byte, empties the receive FIFO or brings the calm nearer. -/
theorem suartRunInTurn_returns {chunk : List Byte} {left : Nat} (alive : c.Alive n) (enough : 1024 < fuel)
    (some : left ≠ 0) (le : left ≤ chunk.length) :
    ∃ left' c', (suartRunInTurn ctx fuel chunk left).run c = .ok (.inl left') c' ∧ c'.Alive n ∧ left' ≤ left ∧
      runMeasure n c' left' < runMeasure n c left := by
  have length : (chunk.drop (chunk.length - left)).length = left := by
    rw [List.length_drop]
    omega
  obtain ⟨left', u₁, write, le', later₁, ticks, moves⟩ := @suartWrite_yields ctx n _ (drop_ne_nil some le) c.uart.dev
  rw [length] at le' moves
  obtain ⟨c₁, run₁, alive₁, dev₁, _⟩ := onUart_yields alive write later₁
  obtain ⟨c', run₂, alive', later₂, quiet⟩ := @suartRunOut_returns ctx n fuel c₁ alive₁ enough
  rw [dev₁] at later₂ quiet
  refine ⟨left', c', ?_, alive', le', ?_⟩
  · rw [suartRunInTurn, if_neg some, Prog.run_bind_ok run₁, Prog.run_bind_ok run₂]
    rfl
  · have onward := later₂.now
    simp only [runMeasure]
    by_cases late : n ≤ c.uart.dev.now
    · rw [if_pos (quiet (Nat.le_trans late later₁.now))]
      by_cases empty : c.uart.dev.rx = []
      · have less := (moves alive.calm late empty).1
        rw [if_pos empty]
        omega
      · rw [if_neg empty]
        omega
    · split <;> split <;> omega

theorem suartRunIn_loop {chunk : List Byte} {left turns : Nat} (alive : c.Alive n) (enough : 1024 < fuel)
    (le : left ≤ chunk.length) (bound : runMeasure n c left < turns) :
    ∃ c', (Prog.loop (suartRunInTurn ctx fuel chunk) turns left).run c = .ok () c' ∧ c'.Alive n := by
  induction turns generalizing left c with
  | zero => exact absurd bound (Nat.not_lt_zero _)
  | succ turns ih =>
    rw [Prog.loop]
    by_cases done : left = 0
    · rw [suartRunInTurn, if_pos done]
      exact ⟨c, rfl, alive⟩
    · obtain ⟨left', c₁, run, alive₁, le', less⟩ := @suartRunInTurn_returns ctx n fuel c chunk left alive enough done le
      rw [Prog.run_bind_ok run]
      exact ih alive₁ (by omega) (by omega)

theorem suartRunTurn_returns (alive : c.Alive n) (enough : 2 * n + 1100 < fuel) :
    ∃ c', (suartRunTurn ctx fuel).run c = .ok () c' ∧ c'.Alive n := by
  obtain ⟨ready, answered⟩ := alive.epoll c.polls
  have polled : Console.poll.run c = .ok ready { c with polls := c.polls + 1 } := by
    simp only [Console.poll, EStateM.run, answered]
  have alive₁ : ({ c with polls := c.polls + 1 } : Console).Alive n :=
    ⟨alive.sound, alive.calm, alive.uin, alive.uout, alive.epoll⟩
  rw [suartRunTurn, Prog.run_bind_ok polled]
  cases ready with
  | true =>
    obtain ⟨k, fd', read, bound, le, _, _, same⟩ := Fd.read_works alive.uin 16
    have read' : (Console.onUin (Fd.read 16)).run { c with polls := c.polls + 1 } =
        .ok (c.uin.bytes.take k) { c with polls := c.polls + 1, uin := fd' } := Prog.run_zoom_ok read
    have alive₂ : ({ c with polls := c.polls + 1, uin := fd' } : Console).Alive n :=
      ⟨alive.sound, alive.calm, alive.uin.of_same same, alive.uout, alive.epoll⟩
    have short : (c.uin.bytes.take k).length ≤ 16 := by
      rw [List.length_take]
      omega
    have near : runMeasure n { c with polls := c.polls + 1, uin := fd' } (c.uin.bytes.take k).length < fuel := by
      simp only [runMeasure]
      split <;> omega
    obtain ⟨c', run, alive'⟩ := @suartRunIn_loop ctx n fuel _ _ _ fuel alive₂ (by omega) (Nat.le_refl _) near
    refine ⟨c', ?_, alive'⟩
    show (Console.onUin (Fd.read 16) >>= suartRunIn ctx fuel).run _ = _
    rw [Prog.run_bind_ok read']
    exact run
  | false =>
    obtain ⟨c', run, alive', _⟩ := @suartRunOut_returns ctx n fuel _ alive₁ (by omega)
    exact ⟨c', run, alive'⟩

/-- `suart_run` never stalls once the line is quiet. -/
theorem suartRun_returns (alive : c.Alive n) (enough : 2 * n + 1100 < fuel) (turns : Nat) :
    ∃ c', (suartRun ctx fuel turns).run c = .ok () c' := by
  have rest (c : Console) (alive : c.Alive n) : ∃ c', (suartRunTurns ctx fuel turns).run c = .ok () c' := by
    induction turns generalizing c with
    | zero => exact ⟨c, rfl⟩
    | succ turns ih =>
      obtain ⟨c₁, run, alive₁⟩ := @suartRunTurn_returns ctx n fuel c alive enough
      obtain ⟨c', run'⟩ := ih c₁ alive₁
      exact ⟨c', (Prog.run_bind_ok run).trans run'⟩
  obtain ⟨ready, answered⟩ := alive.epoll c.polls
  have polled : Console.poll.run c = .ok ready { c with polls := c.polls + 1 } := by
    simp only [Console.poll, EStateM.run, answered]
  rw [suartRun, Prog.run_bind_ok polled]
  exact rest _ ⟨alive.sound, alive.calm, alive.uin, alive.uout, alive.epoll⟩

end

/-- Whatever the line and the transmitter do, and whatever fails: `suart_flush` has written a front part of the
buffer to THR, all of it when it returns without an error; `suart_run` is part of the way between what it read
and THR, and between the receive FIFO and `uout`. Each of its turns has nothing in hand at its end, and moves something:
a byte of `uin` at least where `uin` is ready, and all that stood in the receive FIFO. So all of `uin` is in THR after as
many turns that find it ready. Once the line is quiet and the transmitter drains, both return. -/
theorem suart_delivers (ctx : Suart) :
    (∀ (fuel : Nat) (buf : List Byte) (s : Faulty Uart16550), s.dev.tx ≤ uartFifo → s.dev.overrun = false →
      let r := (suartFlush (uartLpc ctx.base.toNat) ctx fuel buf).run s
      (∃ k, r.state.dev.sent = s.dev.sent ++ buf.take k ∧ r.state.dev.overrun = false) ∧
      (∀ s', r = .ok () s' → s'.dev.sent = s.dev.sent ++ buf) ∧
      ∀ n, s.Sound → s.dev.Calm n → n + buf.length < fuel → ∃ s', r = .ok () s') ∧
    ∀ (fuel turns : Nat) (c : Console), c.uart.dev.tx ≤ uartFifo → c.uart.dev.overrun = false →
      let r := (suartRun ctx fuel turns).run c
      r.state.Partway c.uin.bytes c.uout.bytes c.uart.dev.sent c.uart.dev.taken ∧
      (∀ c', r = .ok () c' → c'.Balanced c.uin.bytes c.uout.bytes c.uart.dev.sent c.uart.dev.taken [] [] ∧
        ∃ readies, readies.length = turns ∧ Run Console.Turned { c with polls := c.polls + 1 } readies c' ∧
          (c.uin.bytes.length ≤ readies.count true → c'.uart.dev.sent = c.uart.dev.sent ++ c.uin.bytes)) ∧
      ∀ n, c.Alive n → 2 * n + 1100 < fuel → ∃ c', r = .ok () c' := by
  constructor
  · intro fuel buf s room fits
    have holds : s.dev.Holds s.dev.sent s.dev.taken := ⟨rfl, rfl, room, fits⟩
    obtain ⟨good, bad⟩ := suartFlush_triple fuel buf s holds
    refine ⟨?_, fun s' run => (good () s' run).sent, fun n sound calm enough => suartFlush_returns sound calm enough⟩
    cases run : (suartFlush (uartLpc ctx.base.toNat) ctx fuel buf).run s with
    | ok _ s' =>
      have left := good () s' run
      refine ⟨buf.length, ?_, left.fits⟩
      rw [List.take_length]
      exact left.sent
    | error e s' =>
      obtain ⟨k, left⟩ := bad e s' run
      exact ⟨k, left.sent, left.fits⟩
  · intro fuel turns c room fits
    have start : c.Balanced c.uin.bytes c.uout.bytes c.uart.dev.sent c.uart.dev.taken [] [] :=
      ⟨room, fits, ⟨[], rfl, rfl⟩, [], (List.append_nil _).symm, (List.append_nil _).symm⟩
    obtain ⟨good, bad⟩ := suartRun_triple fuel turns c start
    refine ⟨?_, fun c' run => ⟨good () c' run, ?_⟩, fun n alive enough => suartRun_returns alive enough turns⟩
    · cases run : (suartRun ctx fuel turns).run c with
      | ok _ c' => exact (good () c' run).partway
      | error e c' => exact bad e c' run
    · obtain ⟨readies, length, turned⟩ := suartRun_turned room fits run
      refine ⟨readies, length, turned, fun enough => ?_⟩
      obtain ⟨read, inEq, sentEq⟩ := (good () c' run).host
      have none : c'.uin.bytes = [] := List.length_eq_zero_iff.mp (by
        have left : c'.uin.bytes.length ≤ c.uin.bytes.length - readies.count true :=
          @turns_consume { c with polls := c.polls + 1 } c' readies turned
        omega)
      rw [none, List.append_nil] at inEq
      rw [List.append_nil] at sentEq
      rw [sentEq, inEq]

/-- An idle UART on a quiet line, with a byte to read. -/
def uartIdle : Faulty Uart16550 where
  dev := { tx := 0, rx := [0x24], sent := [], taken := [], overrun := false, now := 0, drains := fun _ => 16,
           arrives := fun _ => [], status := fun _ => 0 }
  fails _ := none
  accesses := 0

/-- A console with three bytes to send, whose descriptor gives one at a time. -/
def consoleIdle : Console where
  uart := uartIdle
  uin := ⟨[0x6c, 0x73, 0x0a], fun _ => .ok 1, 0⟩
  uout := ⟨[], fun _ => .ok 1, 0⟩
  epoll _ := .ok true
  polls := 0

theorem uartIdle_calm : uartIdle.dev.Calm 0 := ⟨fun _ _ => rfl, fun _ _ => Nat.le_refl _, Nat.zero_le _⟩

/-- `suart_flush` sends a line, and `suart_run` sends another and passes on what there is to read. -/
theorem suart_delivers_idle :
    (∃ s', (suartFlush (uartLpc 0x3f8) ⟨0, 0, 0x3f8, 0⟩ 20 [0x6c, 0x73, 0x0a]).run uartIdle = .ok () s' ∧
      s'.dev.sent = [0x6c, 0x73, 0x0a]) ∧
    ∃ c', (suartRun ⟨0, 0, 0x3f8, 0⟩ 1101 3).run consoleIdle = .ok () c' ∧ c'.uart.dev.sent = [0x6c, 0x73, 0x0a] ∧
      [0x24] <+: c'.uout.bytes := by
  obtain ⟨flush, delivers⟩ := suart_delivers ⟨0, 0, 0x3f8, 0⟩
  constructor
  · obtain ⟨_, sends, returns⟩ := flush 20 [0x6c, 0x73, 0x0a] uartIdle (by decide) rfl
    obtain ⟨s', run⟩ := returns 0 (fun _ => rfl) uartIdle_calm (by decide)
    exact ⟨s', run, sends s' run⟩
  · obtain ⟨_, moves, returns⟩ := delivers 1101 3 consoleIdle (by decide) rfl
    have alive : consoleIdle.Alive 0 :=
      ⟨fun _ => rfl, uartIdle_calm, fun _ => ⟨1, rfl⟩, fun _ => ⟨1, rfl⟩, fun _ => ⟨_, rfl⟩⟩
    obtain ⟨c', run⟩ := returns 0 alive (by decide)
    obtain ⟨_, readies, length, turned, all⟩ := moves c' run
    cases turned with
    | nil => cases length
    | cons first rest =>
      obtain ⟨⟨ready, epoll, _⟩, _, _, _, passed, _, out, front⟩ := first
      cases rest with
      | nil => cases length
      | cons second rest =>
        obtain ⟨⟨ready', epoll', _⟩, _, _, _, passed', _, out', _⟩ := second
        cases rest with
        | nil => cases length
        | cons third rest =>
          obtain ⟨⟨ready'', _, _⟩, _, _, _, passed'', _, out'', _⟩ := third
          rw [epoll', epoll] at ready''
          rw [epoll] at ready'
          cases ready
          cases ready'
          cases ready''
          cases rest with
          | cons => cases length
          | nil =>
            refine ⟨c', run, all (by decide), ?_⟩
            rw [out'', out', out, List.append_assoc, List.append_assoc]
            exact (front (Or.inr (by decide))).trans (List.prefix_append _ _)

end Culvert
