import Culvert.Lib.Run
import Culvert.Uart.SuartRun

/-! What each turn of `suart_run` moves, and that it moves something. -/

namespace Culvert

open Prog

namespace Uart16550

/-- What came out of the receive FIFO or stands in it stays in front of what follows. -/
structure Onward (u u' : Uart16550) : Prop where
  taken : u.taken <+: u'.taken
  front : u.taken ++ u.rx.take uartFifo <+: u'.taken ++ u'.rx.take uartFifo

variable {u u' u'' : Uart16550}

theorem Onward.refl (u : Uart16550) : u.Onward u := ⟨List.prefix_refl _, List.prefix_refl _⟩

theorem Onward.trans (first : u.Onward u') (second : u'.Onward u'') : u.Onward u'' :=
  ⟨first.taken.trans second.taken, first.front.trans second.front⟩

/-- Bytes that arrive go to the end of the FIFO. -/
theorem elapse_onward (u : Uart16550) : u.Onward u.elapse := by
  refine ⟨List.prefix_refl _, ?_⟩
  show u.taken ++ u.rx.take uartFifo <+: u.taken ++ ((u.rx ++ u.arrives u.now).take uartFifo).take uartFifo
  rw [List.take_take, Nat.min_self, List.prefix_append_right_inj]
  exact (List.prefix_append u.rx _).take uartFifo

theorem push_onward (u : Uart16550) (v : Byte) : u.Onward (u.push v) := by
  rw [push]
  split
  · exact ⟨List.prefix_refl _, List.prefix_refl _⟩
  · exact ⟨List.prefix_refl _, List.prefix_refl _⟩

theorem pop_onward (u : Uart16550) : u.Onward u.pop.2 := by
  rw [pop]
  split
  · exact .refl u
  case h_2 b rest full =>
    refine ⟨List.prefix_append _ _, ?_⟩
    show u.taken ++ u.rx.take uartFifo <+: u.taken ++ [b] ++ rest.take uartFifo
    rw [full, List.append_assoc, List.prefix_append_right_inj, uartFifo, List.take_succ_cons, List.singleton_append,
      List.cons_prefix_cons]
    exact ⟨rfl, List.take_prefix_take_left (by decide)⟩

theorem readPort_onward (base p : Nat) (u : Uart16550) : u.Onward (u.readPort base p).2 := by
  rw [readPort]
  split
  · exact u.elapse_onward
  split
  · exact u.elapse_onward.trans u.elapse.pop_onward
  · exact u.elapse_onward

theorem writePort_onward {base p : Nat} (other : p ≠ base + uartFcr) (v : Byte) (u : Uart16550) :
    u.Onward (u.writePort base p v) := by
  rw [writePort, if_neg other]
  split
  · exact u.elapse_onward.trans (u.elapse.push_onward v)
  · exact u.elapse_onward

/-- `front` has come out of the receive FIFO or is next to, and no more than `room` bytes of it are still to come. -/
structure Offers (front : List Byte) (room : Nat) (u : Uart16550) : Prop where
  ahead : front <+: u.taken ++ u.rx.take uartFifo
  room : front.length ≤ u.taken.length + room

variable {front : List Byte} {room : Nat}

theorem Offers.onward (offers : u.Offers front room) (onward : u.Onward u') : u'.Offers front room :=
  ⟨offers.ahead.trans onward.front, Nat.le_trans offers.room (Nat.add_le_add_right onward.taken.length_le room)⟩

theorem Offers.of_taken (taken : front <+: u.taken) : u.Offers front room :=
  ⟨taken.trans (List.prefix_append _ _), Nat.le_add_right_of_le taken.length_le⟩

theorem Offers.all (offers : u.Offers front 0) : front <+: u.taken :=
  List.prefix_of_prefix_length_le offers.ahead (List.prefix_append _ _) offers.room

theorem Offers.drained (offers : u.Offers front room) (empty : u.rx = []) : front <+: u.taken := by
  have ahead := offers.ahead
  rw [empty, List.take_nil, List.append_nil] at ahead
  exact ahead

theorem Offers.pop (offers : u.Offers front (room + 1)) (ready : u.rx ≠ []) : u.pop.2.Offers front room := by
  refine ⟨offers.ahead.trans u.pop_onward.front, ?_⟩
  have bound := offers.room
  rw [Uart16550.pop]
  split
  case h_1 empty => exact absurd empty ready
  case h_2 b rest full =>
    show front.length ≤ (u.taken ++ [b]).length + room
    rw [List.length_append, List.length_singleton]
    omega

end Uart16550

/-- The same behind an access. -/
def SuartOnward (s s' : Faulty Uart16550) : Prop := s.dev.Onward s'.dev

instance : IsPreorder (Faulty Uart16550) SuartOnward where
  refl s := .refl s.dev
  trans _ _ _ first second := first.trans second

theorem access_onward {α : Type} {f : Uart16550 → α × Uart16550} (each : ∀ u : Uart16550, u.Onward (f u).2) :
    Keeps SuartOnward (Faulty.access f) := by
  intro s
  rw [SuartOnward]
  rcases Faulty.access_dev f s with same | moved
  · rw [same]
    exact .refl s.dev
  · rw [moved]
    exact each s.dev

section
variable {ctx : Suart} {front : List Byte}

theorem readb_onward (p : Nat) : Keeps SuartOnward ((uartLpc ctx.base.toNat).readb p) := by
  rw [uartLpc_readb]
  exact access_onward (Uart16550.readPort_onward ctx.base.toNat p)

theorem thr_onward (v : Byte) : Keeps SuartOnward ((uartLpc ctx.base.toNat).writeb (ctx.base.toNat + uartThr) v) := by
  rw [uartLpc_writeb]
  exact access_onward (Uart16550.writePort_onward (by simp [uartThr, uartFcr]) v)

theorem suartPush_onward (slots : Nat) (buf : List Byte) :
    Keeps SuartOnward (suartPush (uartLpc ctx.base.toNat) ctx slots buf) := by
  induction slots generalizing buf with
  | zero => exact keeps_pure _
  | succ slots ih =>
    cases buf with
    | nil => exact keeps_pure _
    | cons b rest => exact (thr_onward b).bind fun _ => ih rest

theorem suartWrite_onward (buf : List Byte) : Keeps SuartOnward (suartWrite (uartLpc ctx.base.toNat) ctx buf) := by
  refine .ite (keeps_pure _) ((readb_onward _).bind fun lsr => ?_)
  refine .ite ((keeps_fail eio).bind fun _ => ?_) (.ite (keeps_pure _) (.ite (keeps_pure _) (suartPush_onward 16 buf)))
  exact .ite (keeps_pure _) (.ite (keeps_pure _) (suartPush_onward 16 buf))

theorem suartReady_offers (room : Nat) : Triple (fun s => s.dev.Offers front room)
    (suartReady (uartLpc ctx.base.toNat) ctx)
    (fun r s => s.dev.Offers front room ∧ (r = .ok true → s.dev.rx ≠ []) ∧ (r = .ok false → s.dev.rx = []))
    fun _ _ => True := by
  have look : Triple (fun s => s.dev.Offers front room) ((uartLpc ctx.base.toNat).readb (ctx.base.toNat + uartLsr))
      (fun lsr s => s.dev.Offers front room ∧ lsr = s.dev.lsr) fun _ s => s.dev.Offers front room := by
    rw [uartLpc_readb]
    refine Faulty.access_triple (I := fun u : Uart16550 => u.Offers front room)
      (K := fun lsr (u : Uart16550) => u.Offers front room ∧ lsr = u.lsr) (fun u offers => ?_) fun _ _ offers => offers
    rw [Uart16550.readPort, if_pos rfl]
    exact ⟨offers.onward u.elapse_onward, rfl⟩
  have decided := look.bind (R := fun (ready : Bool) s => s.dev.Offers front room ∧ (ready = true → s.dev.rx ≠ []) ∧
    (ready = false → s.dev.rx = [])) (f := fun lsr => pure (decide (lsr &&& lsrDr ≠ 0))) fun lsr =>
      Triple.pure fun s start => ⟨start.1, fun ready empty => ?_, fun idle => ?_⟩
  · refine decided.attempt.conseq (fun _ pre => pre) (fun r s post => ?_) fun _ _ _ => trivial
    cases r with
    | ok ready => exact ⟨post.1, fun same => post.2.1 (Except.ok.inj same), fun same => post.2.2 (Except.ok.inj same)⟩
    | error e =>
      refine ⟨post, fun never => ?_, fun never => ?_⟩
      · cases never
      · cases never
  · rw [← Uart16550.lsr_data, ← start.2] at empty
    exact of_decide_eq_true ready empty
  · rw [← Uart16550.lsr_data, ← start.2]
    exact not_not.mp (of_decide_eq_false idle)

/-- A burst that no error ends takes all that was there, if there is room for it. -/
theorem suartBurst_offers (room : Nat) : Triple (fun s => s.dev.Offers front room)
    (suartBurst (uartLpc ctx.base.toNat) ctx room)
    (fun r s => s.dev.Offers front (room - r.1.length) ∧ (r.2 = none → front <+: s.dev.taken)) fun _ _ => True := by
  induction room with
  | zero =>
    refine (suartReady_offers 0).bind fun r => ?_
    cases r with
    | error e => exact Triple.pure fun s post => ⟨post.1, fun never => absurd never (Option.some_ne_none e)⟩
    | ok ready => exact Triple.pure fun s post => ⟨post.1, fun _ => post.1.all⟩
  | succ room ih =>
    refine (suartReady_offers (room + 1)).bind fun r => ?_
    cases r with
    | error e => exact Triple.pure fun s post => ⟨post.1, fun never => absurd never (Option.some_ne_none e)⟩
    | ok ready =>
      cases ready with
      | false => exact Triple.pure fun s post => ⟨post.1, fun _ => post.1.drained (post.2.2 rfl)⟩
      | true =>
        have take : Triple (fun s => s.dev.Offers front (room + 1) ∧ s.dev.rx ≠ [])
            ((uartLpc ctx.base.toNat).readb (ctx.base.toNat + uartRbr)) (fun _ s => s.dev.Offers front room)
            fun _ _ => True := by
          rw [uartLpc_readb]
          refine Faulty.access_triple (I := fun u : Uart16550 => u.Offers front (room + 1) ∧ u.rx ≠ [])
            (K := fun _ (u : Uart16550) => u.Offers front room) (fun u start => ?_) fun _ _ _ => trivial
          have ready : u.elapse.rx ≠ [] := by simp [Uart16550.elapse, uartFifo, start.2]
          rw [Uart16550.readPort, if_neg (by simp [uartLsr, uartRbr]), if_pos rfl]
          exact (start.1.onward u.elapse_onward).pop ready
        refine (take.conseq (fun _ pre => ⟨pre.1, pre.2.1 rfl⟩) (fun _ _ post => post) fun _ _ stop => stop).bind fun b =>
          ih.bind fun r => Triple.pure fun s post => ⟨?_, post.2⟩
        show s.dev.Offers front (room + 1 - (r.1.length + 1))
        rw [Nat.add_sub_add_right]
        exact post.1

theorem suartBursts_offers (retry room : Nat) : Triple (fun s => s.dev.Offers front room)
    (suartBursts (uartLpc ctx.base.toNat) ctx retry room)
    (fun r s => r.2 = none → front <+: s.dev.taken) fun _ _ => True := by
  induction retry generalizing room with
  | zero => exact (suartBurst_offers room).conseq (fun _ pre => pre) (fun _ _ post => post.2) fun _ _ stop => stop
  | succ retry ih =>
    refine (suartBurst_offers room).bind fun r => ?_
    exact ((ih (room - r.1.length)).conseq (fun _ pre => pre.1) (fun _ _ post => post) fun _ _ stop => stop).bind fun _ =>
      Triple.pure fun _ post => post

/-- `suart_read` takes what was in the receive FIFO, at least. -/
theorem suartRead_offers (len : Nat) : Triple (fun s => s.dev.Offers front len)
    (suartRead (uartLpc ctx.base.toNat) ctx len) (fun _ s => front <+: s.dev.taken) fun _ _ => True := by
  have look : Triple (fun s => s.dev.Offers front len) ((uartLpc ctx.base.toNat).readb (ctx.base.toNat + uartLsr))
      (fun lsr s => s.dev.Offers front len ∧ lsr = s.dev.lsr) fun _ _ => True := by
    rw [uartLpc_readb]
    refine Faulty.access_triple (I := fun u : Uart16550 => u.Offers front len)
      (K := fun lsr (u : Uart16550) => u.Offers front len ∧ lsr = u.lsr) (fun u offers => ?_) fun _ _ _ => trivial
    rw [Uart16550.readPort, if_pos rfl]
    exact ⟨offers.onward u.elapse_onward, rfl⟩
  refine look.bind fun lsr => Triple.ite ?_ ?_
  · exact (Triple.fail (Q := fun _ _ => False) fun _ _ => trivial).bind fun _ _ never => never.elim
  by_cases empty : lsr &&& lsrDr = 0
  · rw [if_pos empty]
    refine Triple.pure fun s start => start.1.drained ?_
    rw [start.2] at empty
    exact s.dev.lsr_data.mp empty
  · rw [if_neg empty]
    refine ((suartBursts_offers 99 len).conseq (fun _ pre => pre.1) (fun _ _ post => post) fun _ _ stop => stop).bind fun r => ?_
    obtain ⟨bs, rc⟩ := r
    cases rc with
    | some e => exact Triple.fail fun _ _ => trivial
    | none => exact Triple.pure fun _ post => post rfl

end

/-- A turn of `suart_run` after `epoll` has told whether `uin` is ready. What was read from `uin` has gone to THR,
and a byte at least where `uin` was ready and not at its end. What came out of the receive FIFO has gone to `uout`, and
all that stood in it at least, unless `uin` was ready and at its end. -/
structure Console.Turned (c : Console) (ready : Bool) (c' : Console) : Prop where
  polled : c.epoll c.polls = .ok ready ∧ c'.epoll = c.epoll ∧ c'.polls = c.polls + 1
  room : c'.uart.dev.tx ≤ uartFifo
  fits : c'.uart.dev.overrun = false
  inward : ∃ read, c.uin.bytes = read ++ c'.uin.bytes ∧ c'.uart.dev.sent = c.uart.dev.sent ++ read ∧
    (ready = false → read = []) ∧ (ready = true → c.uin.bytes ≠ [] → read ≠ [])
  outward : ∃ passed, c'.uart.dev.taken = c.uart.dev.taken ++ passed ∧ c'.uout.bytes = c.uout.bytes ++ passed ∧
    (ready = false ∨ c.uin.bytes ≠ [] → c.uart.dev.rx.take uartFifo <+: passed)

/-- What only the loop of `suart_run` itself changes. -/
def Console.loop (c : Console) : Fd × (Nat → Except Errno Bool) × Nat := (c.uin, c.epoll, c.polls)

section
variable {ctx : Suart} {front : List Byte} {fuel turns : Nat} {c c' c₁ : Console} {readies : List Bool}

theorem suartRunOut_same (fuel : Nat) : Keeps (Same Console.loop) (suartRunOut ctx fuel) := by
  have uart : Keeps (Same Console.loop) (Console.onUart (suartRead (uartLpc ctx.base.toNat) ctx 1024)) :=
    zoom_keeps fun _ _ => rfl
  refine uart.bind fun out => ?_
  exact zoom_keeps fun _ _ => rfl

theorem suartRunIn_same (fuel : Nat) (chunk : List Byte) : Keeps (Same Console.loop) (suartRunIn ctx fuel chunk) := by
  refine Keeps.loop (fun left => .ite (keeps_pure _) ?_) fuel chunk.length
  have uart : Keeps (Same Console.loop) (Console.onUart (suartWrite (uartLpc ctx.base.toNat) ctx
      (chunk.drop (chunk.length - left)))) := zoom_keeps fun _ _ => rfl
  exact uart.bind fun _ => (suartRunOut_same fuel).bind fun _ => keeps_pure _

theorem suartRunOut_offers (fuel : Nat) : Triple (fun c => c.uart.dev.Offers front 1024) (suartRunOut ctx fuel)
    (fun _ c => front <+: c.uart.dev.taken) fun _ _ => True := by
  have reads : Triple (fun c => c.uart.dev.Offers front 1024)
      (Console.onUart (suartRead (uartLpc ctx.base.toNat) ctx 1024)) (fun _ c => front <+: c.uart.dev.taken)
      fun _ _ => True := fun c offers =>
    ((onUart_triple (suartRead_offers 1024) c.uin c.uout).conseq (fun _ pre => pre) (fun _ _ post => post.1)
      fun _ _ _ => trivial) c ⟨offers, rfl, rfl⟩
  refine reads.bind fun out c taken => ?_
  refine ⟨fun _ c' run => ?_, fun _ _ _ => trivial⟩
  obtain ⟨uout, _, rfl⟩ := zoom_ok_iff.mp run
  exact taken

/-- The first turn over a chunk reads, and what it has taken stays taken. -/
theorem suartRunIn_offers {chunk : List Byte} (some : chunk ≠ []) (fuel : Nat) :
    Triple (fun c => c.uart.dev.Offers front 1024) (suartRunIn ctx fuel chunk)
      (fun _ c => front <+: c.uart.dev.taken) fun _ _ => True := by
  let inv (left : Nat) (c : Console) : Prop := c.uart.dev.Offers front 1024 ∧ (left = 0 → front <+: c.uart.dev.taken)
  have turn (left : Nat) : Triple (inv left) (suartRunInTurn ctx fuel chunk left)
      (fun r c => r.elim (inv · c) fun _ => front <+: c.uart.dev.taken) fun _ _ => True := by
    rw [suartRunInTurn]
    by_cases done : left = 0
    · rw [if_pos done]
      exact Triple.pure fun c here => here.2 done
    rw [if_neg done]
    have write : Triple (inv left) (Console.onUart (suartWrite (uartLpc ctx.base.toNat) ctx
        (chunk.drop (chunk.length - left)))) (fun _ c => c.uart.dev.Offers front 1024) fun _ _ => True := by
      rintro c ⟨offers, _⟩
      refine ⟨fun _ c' run => ?_, fun _ _ _ => trivial⟩
      obtain ⟨uart, part, rfl⟩ := zoom_ok_iff.mp run
      exact offers.onward ((suartWrite_onward _).ok part)
    exact write.bind fun left' => (suartRunOut_offers fuel).bind (R := fun (r : Nat ⊕ Unit) c => r.elim (inv · c) fun _ =>
      front <+: c.uart.dev.taken) fun _ => Triple.pure fun c taken => ⟨.of_taken taken, fun _ => taken⟩
  refine (Triple.loop inv turn (fun _ _ _ => trivial) fuel chunk.length).conseq (fun c offers => ⟨offers, fun none => ?_⟩)
    (fun _ _ post => post) fun _ _ stop => stop
  exact absurd (List.length_eq_zero_iff.mp none) some

theorem poll_ok {ready : Bool} (run : Console.poll.run c = .ok ready c₁) :
    c.epoll c.polls = .ok ready ∧ c₁ = { c with polls := c.polls + 1 } := by
  simp only [Console.poll, EStateM.run] at run
  cases outcome : c.epoll c.polls with
  | ok _ =>
    rw [outcome] at run
    cases run
    exact ⟨rfl, rfl⟩
  | error _ =>
    rw [outcome] at run
    cases run

/-- What a turn has read is gone from `uin`. -/
theorem Console.Balanced.turned {ready : Bool} {read : List Byte} {uin : Fd}
    (balanced : c'.Balanced c.uin.bytes c.uout.bytes c.uart.dev.sent c.uart.dev.taken [] [])
    (polled : c.epoll c.polls = .ok ready) (same : c'.loop = (uin, c.epoll, c.polls + 1))
    (split : c.uin.bytes = read ++ uin.bytes) (idle : ready = false → read = [])
    (some : ready = true → c.uin.bytes ≠ [] → read ≠ [])
    (taken : ready = false ∨ c.uin.bytes ≠ [] → c.uart.dev.taken ++ c.uart.dev.rx.take uartFifo <+: c'.uart.dev.taken) :
    c.Turned ready c' := by
  obtain ⟨here, others⟩ := Prod.mk.inj same
  obtain ⟨epoll, polls⟩ := Prod.mk.inj others
  obtain ⟨read', inEq, sentEq⟩ := balanced.host
  obtain ⟨passed, takenEq, outEq⟩ := balanced.bmc
  rw [List.append_nil] at sentEq takenEq
  rw [split, here] at inEq
  obtain rfl : read' = read := (List.append_cancel_right inEq).symm
  refine ⟨⟨polled, epoll, polls⟩, balanced.room, balanced.fits, ⟨read', ?_, sentEq, idle, some⟩, passed, takenEq, outEq,
    fun serves => ?_⟩
  · rw [here]
    exact split
  · have front := taken serves
    rw [takenEq, List.prefix_append_right_inj] at front
    exact front

theorem suartRunTurn_turned (room : c.uart.dev.tx ≤ uartFifo) (fits : c.uart.dev.overrun = false)
    (run : (suartRunTurn ctx fuel).run c = .ok () c') : ∃ ready, c.Turned ready c' := by
  obtain ⟨ready, c₁, poll, run⟩ := bind_ok_iff.mp run
  obtain ⟨answered, rfl⟩ := poll_ok poll
  let c₁ : Console := { c with polls := c.polls + 1 }
  have start : c₁.Balanced c.uin.bytes c.uout.bytes c.uart.dev.sent c.uart.dev.taken [] [] :=
    ⟨room, fits, ⟨[], rfl, rfl⟩, [], (List.append_nil _).symm, (List.append_nil _).symm⟩
  have offers : c₁.uart.dev.Offers (c.uart.dev.taken ++ c.uart.dev.rx.take uartFifo) 1024 := by
    refine ⟨List.prefix_refl _, ?_⟩
    rw [List.length_append, List.length_take, uartFifo]
    show c.uart.dev.taken.length + _ ≤ c.uart.dev.taken.length + 1024
    omega
  refine ⟨ready, ?_⟩
  cases ready with
  | false =>
    have balanced := (suartRunOut_triple fuel c₁ start).1 () c' run
    have taken := (suartRunOut_offers fuel c₁ offers).1 () c' run
    have same := (suartRunOut_same fuel).ok run
    exact balanced.turned answered same rfl (fun _ => rfl) (fun never => absurd never (by decide)) fun _ => taken
  | true =>
    obtain ⟨chunk, c₂, read, run⟩ := bind_ok_iff.mp run
    have pending := (runChunk_triple 16 c₁ start).1 chunk c₂ read
    obtain ⟨uin, part, rfl⟩ := zoom_ok_iff.mp read
    obtain ⟨split, _, ended⟩ := (Fd.read_outcome 16 c.uin rfl).1 chunk uin part
    have balanced := (suartRunIn_triple fuel chunk _ pending).1 () c' run
    have same := (suartRunIn_same fuel chunk).ok run
    have some (more : c.uin.bytes ≠ []) : chunk ≠ [] := fun none => (ended none).elim (by decide) more
    refine balanced.turned answered same split.symm (fun never => absurd never (by decide)) (fun _ => some) fun more => ?_
    have more : c.uin.bytes ≠ [] := more.resolve_left (by decide)
    exact (suartRunIn_offers (some more) fuel { c₁ with uin := uin } offers).1 () c' run

theorem suartRunTurns_turned (room : c.uart.dev.tx ≤ uartFifo) (fits : c.uart.dev.overrun = false)
    (run : (suartRunTurns ctx fuel turns).run c = .ok () c') :
    ∃ readies, readies.length = turns ∧ Run Console.Turned c readies c' := by
  induction turns generalizing c with
  | zero =>
    cases run
    exact ⟨[], rfl, .nil _⟩
  | succ turns ih =>
    obtain ⟨_, c₁, first, rest⟩ := bind_ok_iff.mp run
    obtain ⟨ready, turned⟩ := suartRunTurn_turned room fits first
    obtain ⟨readies, length, more⟩ := ih turned.room turned.fits rest
    exact ⟨ready :: readies, congrArg (· + 1) length, .cons turned more⟩

/-- A run that no error ends goes turn by turn. -/
theorem suartRun_turned (room : c.uart.dev.tx ≤ uartFifo) (fits : c.uart.dev.overrun = false)
    (run : (suartRun ctx fuel turns).run c = .ok () c') :
    ∃ readies, readies.length = turns ∧ Run Console.Turned { c with polls := c.polls + 1 } readies c' := by
  obtain ⟨_, c₁, poll, rest⟩ := bind_ok_iff.mp run
  obtain ⟨_, rfl⟩ := poll_ok poll
  exact suartRunTurns_turned room fits rest

/-- Each turn that finds `uin` ready takes a byte of what is left. -/
theorem turns_consume (run : Run Console.Turned c readies c') :
    c'.uin.bytes.length ≤ c.uin.bytes.length - readies.count true := by
  induction run with
  | nil => exact Nat.le_refl _
  | @cons c c₁ c' ready readies turned _ ih =>
    obtain ⟨read, split, _, _, some⟩ := turned.inward
    have length := congrArg List.length split
    rw [List.length_append] at length
    cases ready with
    | false =>
      rw [List.count_cons_of_ne (by decide)]
      omega
    | true =>
      rw [List.count_cons_self]
      by_cases ended : c.uin.bytes = []
      · rw [ended, List.length_nil] at length
        omega
      · have pos := List.length_pos_iff.mpr (some rfl ended)
        omega

end

end Culvert
