import Culvert.Lib.Fd
import Culvert.Uart.SuartFifo

/-! `suart_run` between a UART and two file descriptors. -/

namespace Culvert

open Prog

/-- The UART, the descriptors of the host, and what each call of `epoll` answers: whether `uin` is ready. -/
structure Console where
  uart : Faulty Uart16550
  uin : Fd
  uout : Fd
  epoll : Nat → Except Errno Bool
  polls : Nat

namespace Console
variable {α : Type}

def onUart (m : Prog (Faulty Uart16550) α) : Prog Console α :=
  Prog.zoom (fun c => c.uart) (fun c uart => { c with uart }) m

def onUin (m : Prog Fd α) : Prog Console α := Prog.zoom (fun c => c.uin) (fun c uin => { c with uin }) m

def onUout (m : Prog Fd α) : Prog Console α := Prog.zoom (fun c => c.uout) (fun c uout => { c with uout }) m

/-- `epoll_ctl` or `epoll_wait`. -/
def poll : Prog Console Bool := fun c =>
  match c.epoll c.polls with
  | .ok ready => .ok ready { c with polls := c.polls + 1 }
  | .error e => .error (.rc e) { c with polls := c.polls + 1 }

end Console

section
variable (ctx : Suart)

/-- Bytes from the BMC to `uout`. -/
def suartRunOut (fuel : Nat) : Prog Console Unit := do
  let out ← Console.onUart (suartRead (uartLpc ctx.base.toNat) ctx 1024)
  Console.onUout (Fd.writeAll fuel out)

def suartRunInTurn (fuel : Nat) (chunk : List Byte) (left : Nat) : Prog Console (Nat ⊕ Unit) := do
  if left = 0 then return .inr ()
  let left ← Console.onUart (suartWrite (uartLpc ctx.base.toNat) ctx (chunk.drop (chunk.length - left)))
  suartRunOut ctx fuel
  return .inl left

/-- The loop over what is left of the chunk read from `uin`. -/
def suartRunIn (fuel : Nat) (chunk : List Byte) : Prog Console Unit :=
  Prog.loop (suartRunInTurn ctx fuel chunk) fuel chunk.length

/-- One turn of the loop over `epoll_wait`. -/
def suartRunTurn (fuel : Nat) : Prog Console Unit := do
  if ← Console.poll then
    let chunk ← Console.onUin (Fd.read 16)
    suartRunIn ctx fuel chunk
  else
    suartRunOut ctx fuel

/-- The turns of the loop of `suart_run`. -/
def suartRunTurns (fuel : Nat) : Nat → Prog Console Unit
  | 0 => pure ()
  | turns + 1 => do
    suartRunTurn ctx fuel
    suartRunTurns fuel turns

/-- `suart_run` as far as the end of so many turns of its loop, which only an error ends. -/
def suartRun (fuel turns : Nat) : Prog Console Unit := do
  let _ ← Console.poll
  suartRunTurns ctx fuel turns

end

/-- `pending` was read from `uin` and not yet written to THR, `held` was taken from the receive FIFO and not yet
written to `uout`. -/
structure Console.Balanced (inward outward sent taken pending held : List Byte) (c : Console) : Prop where
  room : c.uart.dev.tx ≤ uartFifo
  fits : c.uart.dev.overrun = false
  host : ∃ read, inward = read ++ c.uin.bytes ∧ c.uart.dev.sent ++ pending = sent ++ read
  bmc : ∃ passed, c.uart.dev.taken = taken ++ (passed ++ held) ∧ c.uout.bytes = outward ++ passed

/-- Nothing lost or reordered on the way, in either direction. -/
def Console.Partway (inward outward sent taken : List Byte) (c : Console) : Prop :=
  ∃ pending held, c.Balanced inward outward sent taken pending held

section
variable {inward outward sent taken pending held : List Byte} {ctx : Suart}

theorem Console.Balanced.partway {c : Console} (balanced : c.Balanced inward outward sent taken pending held) :
    c.Partway inward outward sent taken := ⟨pending, held, balanced⟩

theorem Console.Balanced.holds {c : Console} (balanced : c.Balanced inward outward sent taken pending held) :
    c.uart.dev.Holds c.uart.dev.sent c.uart.dev.taken := ⟨rfl, rfl, balanced.room, balanced.fits⟩

/-- A UART operation leaves the descriptors alone. -/
theorem onUart_triple {α : Type} {m : Prog (Faulty Uart16550) α} {P : Faulty Uart16550 → Prop}
    {Q : α → Faulty Uart16550 → Prop} {E : Stop → Faulty Uart16550 → Prop} (op : Triple P m Q E) (uin uout : Fd) :
    Triple (fun c => P c.uart ∧ c.uin = uin ∧ c.uout = uout) (Console.onUart m)
      (fun a c => Q a c.uart ∧ c.uin = uin ∧ c.uout = uout) (fun e c => E e c.uart ∧ c.uin = uin ∧ c.uout = uout) :=
  Triple.zoom (F := fun c : Console => c.uin = uin ∧ c.uout = uout) (fun _ _ => rfl) (fun _ _ same => same) op

theorem onUin_triple {α : Type} {m : Prog Fd α} {P : Fd → Prop} {Q : α → Fd → Prop} {E : Stop → Fd → Prop}
    (op : Triple P m Q E) (uart : Faulty Uart16550) (uout : Fd) :
    Triple (fun c => P c.uin ∧ c.uart = uart ∧ c.uout = uout) (Console.onUin m)
      (fun a c => Q a c.uin ∧ c.uart = uart ∧ c.uout = uout) (fun e c => E e c.uin ∧ c.uart = uart ∧ c.uout = uout) :=
  Triple.zoom (F := fun c : Console => c.uart = uart ∧ c.uout = uout) (fun _ _ => rfl) (fun _ _ same => same) op

theorem onUout_triple {α : Type} {m : Prog Fd α} {P : Fd → Prop} {Q : α → Fd → Prop} {E : Stop → Fd → Prop}
    (op : Triple P m Q E) (uart : Faulty Uart16550) (uin : Fd) :
    Triple (fun c => P c.uout ∧ c.uart = uart ∧ c.uin = uin) (Console.onUout m)
      (fun a c => Q a c.uout ∧ c.uart = uart ∧ c.uin = uin) (fun e c => E e c.uout ∧ c.uart = uart ∧ c.uin = uin) :=
  Triple.zoom (F := fun c : Console => c.uart = uart ∧ c.uin = uin) (fun _ _ => rfl) (fun _ _ same => same) op

/-- `suart_write` moves the front of what is pending to THR. -/
theorem runWrite_triple (buf : List Byte) : Triple (Console.Balanced inward outward sent taken buf [])
    (Console.onUart (suartWrite (uartLpc ctx.base.toNat) ctx buf))
    (fun left c => left ≤ buf.length ∧ c.Balanced inward outward sent taken (buf.drop (buf.length - left)) [])
    (fun _ => Console.Partway inward outward sent taken) := by
  have moved {c c' : Console} (balanced : c.Balanced inward outward sent taken buf []) (k : Nat)
      (holds : c'.uart.dev.Holds (c.uart.dev.sent ++ buf.take k) c.uart.dev.taken)
      (same : c'.uin = c.uin ∧ c'.uout = c.uout) : c'.Balanced inward outward sent taken (buf.drop k) [] := by
    obtain ⟨passed, tookEq, outEq⟩ := balanced.bmc
    obtain ⟨read, inEq, sentEq⟩ := balanced.host
    refine ⟨holds.room, holds.fits, ⟨read, ?_, ?_⟩, passed, ?_, ?_⟩
    · rw [same.1]
      exact inEq
    · rw [holds.sent, List.append_assoc, List.take_append_drop]
      exact sentEq
    · rw [holds.taken, tookEq]
    · rw [same.2, outEq]
  intro c balanced
  obtain ⟨good, bad⟩ := onUart_triple (suartWrite_triple buf) c.uin c.uout c ⟨balanced.holds, rfl, rfl⟩
  refine ⟨fun left c' run => ?_, fun e c' run => ?_⟩
  · obtain ⟨⟨le, holds⟩, same⟩ := good left c' run
    exact ⟨le, moved balanced _ holds same⟩
  · obtain ⟨⟨k, holds⟩, same⟩ := bad e c' run
    exact (moved balanced k holds same).partway

/-- `suart_read` takes bytes that are then held. -/
theorem runRead_triple (len : Nat) : Triple (Console.Balanced inward outward sent taken pending [])
    (Console.onUart (suartRead (uartLpc ctx.base.toNat) ctx len))
    (fun out => Console.Balanced inward outward sent taken pending out)
    (fun _ => Console.Partway inward outward sent taken) := by
  have moved {c c' : Console} (balanced : c.Balanced inward outward sent taken pending []) (out : List Byte)
      (holds : c'.uart.dev.Holds c.uart.dev.sent (c.uart.dev.taken ++ out))
      (same : c'.uin = c.uin ∧ c'.uout = c.uout) : c'.Balanced inward outward sent taken pending out := by
    obtain ⟨passed, tookEq, outEq⟩ := balanced.bmc
    obtain ⟨read, inEq, sentEq⟩ := balanced.host
    refine ⟨holds.room, holds.fits, ⟨read, ?_, ?_⟩, passed, ?_, ?_⟩
    · rw [same.1]
      exact inEq
    · rw [holds.sent]
      exact sentEq
    · rw [holds.taken, tookEq, List.append_nil, List.append_assoc]
    · rw [same.2, outEq]
  intro c balanced
  obtain ⟨good, bad⟩ := onUart_triple (suartRead_triple len) c.uin c.uout c ⟨balanced.holds, rfl, rfl⟩
  refine ⟨fun out c' run => ?_, fun e c' run => ?_⟩
  · obtain ⟨⟨_, holds⟩, same⟩ := good out c' run
    exact moved balanced out holds same
  · obtain ⟨⟨out, holds⟩, same⟩ := bad e c' run
    exact (moved balanced out holds same).partway

/-- What is held goes to `uout`, all of it unless a write fails. -/
theorem runPass_triple (fuel : Nat) (out : List Byte) : Triple (Console.Balanced inward outward sent taken pending out)
    (Console.onUout (Fd.writeAll fuel out)) (fun _ => Console.Balanced inward outward sent taken pending [])
    (fun _ => Console.Partway inward outward sent taken) := by
  intro c balanced
  obtain ⟨passed, tookEq, outEq⟩ := balanced.bmc
  have write : Triple (fun fd => fd.bytes = c.uout.bytes) (Fd.writeAll fuel out) _ _ := Fd.writeAll_triple fuel out
  obtain ⟨good, bad⟩ := onUout_triple write c.uart c.uin c ⟨rfl, rfl, rfl⟩
  have moved {c' : Console} {held : List Byte} (same : c'.uart = c.uart ∧ c'.uin = c.uin) (passed' : List Byte)
      (split : passed' ++ held = passed ++ out) (bytes : c'.uout.bytes = outward ++ passed') :
      c'.Balanced inward outward sent taken pending held := by
    refine ⟨?_, ?_, ?_, passed', ?_, bytes⟩
    · rw [same.1]
      exact balanced.room
    · rw [same.1]
      exact balanced.fits
    · rw [same.1, same.2]
      exact balanced.host
    · rw [same.1, tookEq, split]
  refine ⟨fun _ c' run => ?_, fun e c' run => ?_⟩
  · obtain ⟨bytes, same⟩ := good () c' run
    refine moved same (passed ++ out) (List.append_nil _) ?_
    rw [bytes, outEq, List.append_assoc]
  · obtain ⟨⟨done, left, bytes, whole⟩, same⟩ := bad e c' run
    refine (moved same (passed ++ done) ?_ ?_ : c'.Balanced inward outward sent taken pending left).partway
    · rw [List.append_assoc, whole]
    · rw [bytes, outEq, List.append_assoc]

theorem suartRunOut_triple (fuel : Nat) : Triple (Console.Balanced inward outward sent taken pending [])
    (suartRunOut ctx fuel) (fun _ => Console.Balanced inward outward sent taken pending [])
    (fun _ => Console.Partway inward outward sent taken) :=
  (runRead_triple 1024).bind fun out => runPass_triple fuel out

theorem suartRunIn_triple (fuel : Nat) (chunk : List Byte) :
    Triple (Console.Balanced inward outward sent taken chunk []) (suartRunIn ctx fuel chunk)
      (fun _ => Console.Balanced inward outward sent taken [] []) (fun _ => Console.Partway inward outward sent taken) := by
  have turn (left : Nat) : Triple (fun c => left ≤ chunk.length ∧
      c.Balanced inward outward sent taken (chunk.drop (chunk.length - left)) []) (suartRunInTurn ctx fuel chunk left)
      (fun r c => r.elim (fun left => left ≤ chunk.length ∧
        c.Balanced inward outward sent taken (chunk.drop (chunk.length - left)) [])
        fun _ => c.Balanced inward outward sent taken [] [])
      (fun _ => Console.Partway inward outward sent taken) := by
    rw [suartRunInTurn]
    by_cases done : left = 0
    · rw [if_pos done]
      refine Triple.pure fun c inv => ?_
      have balanced := inv.2
      rw [done, Nat.sub_zero, List.drop_length] at balanced
      exact balanced
    · rw [if_neg done]
      intro c inv
      have length : (chunk.drop (chunk.length - left)).length = left := by
        rw [List.length_drop]
        omega
      refine ((runWrite_triple (chunk.drop (chunk.length - left))).bind (R := fun (r : Nat ⊕ Unit) c =>
        r.elim (fun left => left ≤ chunk.length ∧
          c.Balanced inward outward sent taken (chunk.drop (chunk.length - left)) [])
          fun _ => c.Balanced inward outward sent taken [] []) fun left' => ?_) c inv.2
      intro c' post
      rw [length, List.drop_drop] at post
      have total : chunk.length - left + (left - left') = chunk.length - left' := by omega
      rw [total] at post
      exact ((suartRunOut_triple fuel).bind fun _ => Triple.pure fun c'' balanced =>
        ⟨by omega, balanced⟩) c' post.2
  refine (Triple.loop (fun left c => left ≤ chunk.length ∧
    c.Balanced inward outward sent taken (chunk.drop (chunk.length - left)) []) turn (fun _ _ inv => inv.2.partway) fuel
    chunk.length).conseq (fun c balanced => ⟨Nat.le_refl _, ?_⟩) (fun _ _ post => post) fun _ _ stop => stop
  rw [Nat.sub_self, List.drop_zero]
  exact balanced

theorem poll_triple : Triple (Console.Balanced inward outward sent taken [] []) Console.poll
    (fun _ => Console.Balanced inward outward sent taken [] []) (fun _ => Console.Partway inward outward sent taken) := by
  intro c balanced
  have after : ({ c with polls := c.polls + 1 } : Console).Balanced inward outward sent taken [] [] :=
    ⟨balanced.room, balanced.fits, balanced.host, balanced.bmc⟩
  cases answered : c.epoll c.polls with
  | ok ready =>
    refine ⟨fun r c' run => ?_, fun e c' run => ?_⟩
    · simp only [Console.poll, EStateM.run, answered] at run
      cases run
      exact after
    · simp only [Console.poll, EStateM.run, answered] at run
      cases run
  | error e =>
    refine ⟨fun r c' run => ?_, fun e c' run => ?_⟩
    · simp only [Console.poll, EStateM.run, answered] at run
      cases run
    · simp only [Console.poll, EStateM.run, answered] at run
      cases run
      exact after.partway

/-- Reading a chunk makes it pending. -/
theorem runChunk_triple (count : Nat) : Triple (Console.Balanced inward outward sent taken [] [])
    (Console.onUin (Fd.read count)) (fun chunk => Console.Balanced inward outward sent taken chunk [])
    (fun _ => Console.Partway inward outward sent taken) := by
  intro c balanced
  have read : Triple (fun fd => fd.bytes = c.uin.bytes) (Fd.read count) _ _ := Fd.read_triple count
  obtain ⟨good, bad⟩ := onUin_triple read c.uart c.uout c ⟨rfl, rfl, rfl⟩
  have moved {c' : Console} {chunk : List Byte} (bytes : chunk ++ c'.uin.bytes = c.uin.bytes)
      (same : c'.uart = c.uart ∧ c'.uout = c.uout) : c'.Balanced inward outward sent taken chunk [] := by
    obtain ⟨passed, tookEq, outEq⟩ := balanced.bmc
    obtain ⟨read, inEq, sentEq⟩ := balanced.host
    refine ⟨?_, ?_, ⟨read ++ chunk, ?_, ?_⟩, passed, ?_, ?_⟩
    · rw [same.1]
      exact balanced.room
    · rw [same.1]
      exact balanced.fits
    · rw [List.append_assoc, bytes]
      exact inEq
    · rw [List.append_nil] at sentEq
      rw [same.1, sentEq, List.append_assoc]
    · rw [same.1, tookEq]
    · rw [same.2, outEq]
  refine ⟨fun chunk c' run => ?_, fun e c' run => ?_⟩
  · obtain ⟨bytes, same⟩ := good chunk c' run
    exact moved bytes same
  · obtain ⟨bytes, same⟩ := bad e c' run
    have untouched : c'.Balanced inward outward sent taken [] [] := moved bytes same
    exact untouched.partway

theorem suartRunTurn_triple (fuel : Nat) : Triple (Console.Balanced inward outward sent taken [] [])
    (suartRunTurn ctx fuel) (fun _ => Console.Balanced inward outward sent taken [] [])
    (fun _ => Console.Partway inward outward sent taken) := by
  refine poll_triple.bind fun ready => ?_
  cases ready with
  | true => exact (runChunk_triple 16).bind fun chunk => suartRunIn_triple fuel chunk
  | false => exact suartRunOut_triple fuel

theorem suartRun_triple (fuel turns : Nat) : Triple (Console.Balanced inward outward sent taken [] [])
    (suartRun ctx fuel turns) (fun _ => Console.Balanced inward outward sent taken [] [])
    (fun _ => Console.Partway inward outward sent taken) := by
  have rest : Triple (Console.Balanced inward outward sent taken [] []) (suartRunTurns ctx fuel turns)
      (fun _ => Console.Balanced inward outward sent taken [] []) (fun _ => Console.Partway inward outward sent taken) := by
    induction turns with
    | zero => exact Triple.pure fun _ balanced => balanced
    | succ turns ih => exact (suartRunTurn_triple fuel).bind fun _ => ih
  exact poll_triple.bind fun _ => rest

end

end Culvert
