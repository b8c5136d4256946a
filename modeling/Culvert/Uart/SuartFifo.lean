import Culvert.Hw.Uart16550

/-! Every byte through the FIFOs once and in order, whatever the transmitter and the line do meanwhile. -/

namespace Culvert

open Prog

section Safety
variable {ctx : Suart} {sent taken : List Byte}

/-- What an operation that stops early leaves: a part of `buf` written, some bytes taken. -/
def WrotePart (sent taken buf : List Byte) (s : Faulty Uart16550) : Prop :=
  ∃ k, s.dev.Holds (sent ++ buf.take k) taken

theorem suartPush_triple (slots : Nat) (buf : List Byte) :
    Triple (fun s => s.dev.Holds sent taken ∧ s.dev.tx + slots ≤ uartFifo)
      (suartPush (uartLpc ctx.base.toNat) ctx slots buf)
      (fun left s => left ≤ buf.length ∧ s.dev.Holds (sent ++ buf.take (buf.length - left)) taken)
      (fun _ => WrotePart sent taken buf) := by
  induction slots generalizing buf sent with
  | zero =>
    refine Triple.pure fun s start => ⟨Nat.le_refl _, ?_⟩
    rw [Nat.sub_self, List.take_zero, List.append_nil]
    exact start.1
  | succ slots ih =>
    cases buf with
    | nil =>
      refine Triple.pure fun s start => ⟨Nat.le_refl _, ?_⟩
      rw [List.take_nil, List.append_nil]
      exact start.1
    | cons b rest =>
      have store : Triple (fun s => s.dev.Holds sent taken ∧ s.dev.tx + (slots + 1) ≤ uartFifo)
          ((uartLpc ctx.base.toNat).writeb (ctx.base.toNat + uartThr) b)
          (fun _ s => s.dev.Holds (sent ++ [b]) taken ∧ s.dev.tx + slots ≤ uartFifo)
          (fun _ => WrotePart sent taken (b :: rest)) := by
        rw [uartLpc_writeb]
        refine Faulty.access_triple (I := fun u : Uart16550 => u.Holds sent taken ∧ u.tx + (slots + 1) ≤ uartFifo)
          (K := fun _ (u : Uart16550) => u.Holds (sent ++ [b]) taken ∧ u.tx + slots ≤ uartFifo) (fun u start => ?_)
          fun _ s start => ⟨0, ?_⟩
        · have room : u.elapse.tx < uartFifo := by
            have drained : u.elapse.tx ≤ u.tx := Nat.sub_le _ _
            omega
          rw [Uart16550.writePort, if_pos rfl]
          refine ⟨start.1.elapse.push room b, ?_⟩
          have drained : u.elapse.tx ≤ u.tx := Nat.sub_le _ _
          rw [Uart16550.push, if_pos room]
          show u.elapse.tx + 1 + slots ≤ uartFifo
          omega
        · rw [List.take_zero, List.append_nil]
          exact start.1
      refine store.bind fun _ => (ih rest).conseq (fun _ pre => pre) ?_ ?_
      · intro left s post
        obtain ⟨le, holds⟩ := post
        refine ⟨Nat.le_succ_of_le le, ?_⟩
        rw [List.length_cons, Nat.succ_sub le, List.take_succ_cons, List.append_cons]
        exact holds
      · intro _ s stop
        obtain ⟨k, holds⟩ := stop
        refine ⟨k + 1, ?_⟩
        rw [List.take_succ_cons, List.append_cons]
        exact holds

/-- LSR as the UART has it at that access. -/
theorem lsr_triple {E : Stop → Faulty Uart16550 → Prop}
    (stop : ∀ e s, s.dev.Holds sent taken → E (.rc e) s) :
    Triple (fun s => s.dev.Holds sent taken)
      ((uartLpc ctx.base.toNat).readb (ctx.base.toNat + uartLsr))
      (fun lsr s => s.dev.Holds sent taken ∧ lsr = s.dev.lsr) E := by
  rw [uartLpc_readb]
  refine Faulty.access_triple (I := fun u : Uart16550 => u.Holds sent taken)
    (K := fun lsr (u : Uart16550) => u.Holds sent taken ∧ lsr = u.lsr) (fun u holds => ?_) stop
  rw [Uart16550.readPort, if_pos rfl]
  exact ⟨holds.elapse, rfl⟩

theorem suartWrite_triple (buf : List Byte) : Triple (fun s => s.dev.Holds sent taken)
    (suartWrite (uartLpc ctx.base.toNat) ctx buf)
    (fun left s => left ≤ buf.length ∧ s.dev.Holds (sent ++ buf.take (buf.length - left)) taken)
    (fun _ => WrotePart sent taken buf) := by
  have none {s : Faulty Uart16550} (holds : s.dev.Holds sent taken) :
      s.dev.Holds (sent ++ buf.take (buf.length - buf.length)) taken := by
    rw [Nat.sub_self, List.take_zero, List.append_nil]
    exact holds
  have part {s : Faulty Uart16550} (holds : s.dev.Holds sent taken) : WrotePart sent taken buf s :=
    ⟨buf.length - buf.length, none holds⟩
  by_cases empty : buf = []
  · rw [suartWrite, if_pos empty]
    refine Triple.pure fun s holds => ⟨Nat.zero_le _, ?_⟩
    subst empty
    exact none holds
  · rw [suartWrite, if_neg empty]
    refine (lsr_triple fun _ _ holds => part holds).bind fun lsr => ?_
    refine Triple.ite ?_ ?_
    · exact (Triple.fail (Q := fun _ _ => False) fun s start => part start.1).bind fun _ _ never => never.elim
    refine Triple.ite (Triple.pure fun s start => ⟨Nat.le_refl _, none start.1⟩) ?_
    by_cases busy : lsr &&& lsrThre = 0
    · rw [if_pos busy]
      exact Triple.pure fun s start => ⟨Nat.le_refl _, none start.1⟩
    · rw [if_neg busy]
      refine (suartPush_triple 16 buf).conseq (fun s start => ⟨start.1, ?_⟩) (fun _ _ post => post) fun _ _ stop => stop
      have idle : ¬ s.dev.lsr &&& 0x20 = 0 := by
        rw [← start.2]
        exact busy
      rw [Uart16550.lsr_thre, not_not] at idle
      rw [idle, uartFifo]

/-- What a read that stops early has taken. -/
def TookSome (sent taken : List Byte) (s : Faulty Uart16550) : Prop := ∃ bs, s.dev.Holds sent (taken ++ bs)

theorem tookSome {s : Faulty Uart16550} (holds : s.dev.Holds sent taken) : TookSome sent taken s :=
  ⟨[], by rw [List.append_nil]; exact holds⟩

theorem suartReady_triple {E : Stop → Faulty Uart16550 → Prop} : Triple (fun s => s.dev.Holds sent taken)
    (suartReady (uartLpc ctx.base.toNat) ctx)
    (fun r s => s.dev.Holds sent taken ∧ (r = .ok true → s.dev.rx ≠ [])) E := by
  have look : Triple (fun s => s.dev.Holds sent taken)
      (do
        let lsr ← (uartLpc ctx.base.toNat).readb (ctx.base.toNat + uartLsr)
        return decide (lsr &&& lsrDr ≠ 0))
      (fun (ready : Bool) s => s.dev.Holds sent taken ∧ (ready = true → s.dev.rx ≠ []))
      (fun e s => s.dev.Holds sent taken ∧ ∃ r, e = .rc r) := by
    refine (lsr_triple fun e s holds => ⟨holds, e, rfl⟩).bind fun lsr => Triple.pure fun s start => ⟨start.1, ?_⟩
    intro ready empty
    rw [← Uart16550.lsr_data, ← start.2] at empty
    exact of_decide_eq_true ready empty
  intro s holds
  obtain ⟨good, bad⟩ := look.attempt s holds
  refine ⟨fun r s' run => ?_, fun e s' run => ?_⟩
  · have post := good r s' run
    cases r with
    | ok ready => exact ⟨post.1, fun eq => post.2 (Except.ok.inj eq)⟩
    | error e => exact ⟨post.1, fun eq => nomatch eq⟩
  · obtain ⟨_, r, rfl⟩ := bad e s' run
    exact absurd run attempt_ne_rc

/-- A burst returns what it takes. -/
theorem suartBurst_triple (room : Nat) : Triple (fun s => s.dev.Holds sent taken)
    (suartBurst (uartLpc ctx.base.toNat) ctx room)
    (fun r s => r.1.length ≤ room ∧ s.dev.Holds sent (taken ++ r.1)) (fun _ => TookSome sent taken) := by
  have none {s : Faulty Uart16550} (holds : s.dev.Holds sent taken) : s.dev.Holds sent (taken ++ []) := by
    rw [List.append_nil]
    exact holds
  induction room generalizing taken with
  | zero =>
    refine suartReady_triple.bind fun r => ?_
    cases r with
    | error e => exact Triple.pure fun s start => ⟨Nat.le_refl 0, none start.1⟩
    | ok ready => exact Triple.pure fun s start => ⟨Nat.le_refl 0, none start.1⟩
  | succ room ih =>
    refine suartReady_triple.bind fun r => ?_
    cases r with
    | error e => exact Triple.pure fun s start => ⟨Nat.zero_le _, none start.1⟩
    | ok ready =>
      cases ready with
      | false => exact Triple.pure fun s start => ⟨Nat.zero_le _, none start.1⟩
      | true =>
        have take : Triple (fun s => s.dev.Holds sent taken ∧ (Except.ok true = (.ok true : Except Errno Bool) →
            s.dev.rx ≠ [])) ((uartLpc ctx.base.toNat).readb (ctx.base.toNat + uartRbr))
            (fun b s => s.dev.Holds sent (taken ++ [b])) (fun _ => TookSome sent taken) := by
          rw [uartLpc_readb]
          refine Faulty.access_triple (I := fun u : Uart16550 => u.Holds sent taken ∧
            (Except.ok true = (.ok true : Except Errno Bool) → u.rx ≠ []))
            (K := fun b (u : Uart16550) => u.Holds sent (taken ++ [b])) (fun u start => ?_)
            fun _ s start => tookSome start.1
          have ready : u.elapse.rx ≠ [] := by
            simp [Uart16550.elapse, uartFifo, start.2 rfl]
          rw [Uart16550.readPort, if_neg (by simp [uartLsr, uartRbr]), if_pos rfl]
          exact start.1.elapse.pop ready
        refine take.bind fun b => ?_
        refine ((@ih (taken ++ [b]) ?_).conseq (fun _ pre => pre) (fun _ _ post => post) ?_).bind fun r =>
          Triple.pure fun s post => ?_
        · intro s holds
          rw [List.append_nil]
          exact holds
        · intro _ s stop
          obtain ⟨bs, holds⟩ := stop
          exact ⟨b :: bs, by rw [List.append_cons]; exact holds⟩
        · refine ⟨Nat.succ_le_succ post.1, ?_⟩
          rw [List.append_cons]
          exact post.2

theorem suartBursts_triple (retry room : Nat) : Triple (fun s => s.dev.Holds sent taken)
    (suartBursts (uartLpc ctx.base.toNat) ctx retry room)
    (fun r s => r.1.length ≤ room ∧ s.dev.Holds sent (taken ++ r.1)) (fun _ => TookSome sent taken) := by
  induction retry generalizing taken room with
  | zero => exact suartBurst_triple room
  | succ retry ih =>
    refine (suartBurst_triple room).bind fun r => ?_
    have more : Triple (fun s => r.1.length ≤ room ∧ s.dev.Holds sent (taken ++ r.1))
        (suartBursts (uartLpc ctx.base.toNat) ctx retry (room - r.1.length))
        (fun r' s => (r.1 ++ r'.1).length ≤ room ∧ s.dev.Holds sent (taken ++ (r.1 ++ r'.1)))
        (fun _ => TookSome sent taken) := by
      intro s start
      obtain ⟨good, bad⟩ := ih (room - r.1.length) s start.2
      refine ⟨fun r' s' run => ?_, fun e s' run => ?_⟩
      · obtain ⟨le, holds⟩ := good r' s' run
        rw [List.length_append, ← List.append_assoc]
        exact ⟨by omega, holds⟩
      · obtain ⟨bs, holds⟩ := bad e s' run
        exact ⟨r.1 ++ bs, by rw [← List.append_assoc]; exact holds⟩
    exact more.bind fun _ => Triple.pure fun _ post => post

/-- `suart_read` returns what it took, unless an access fails. -/
theorem suartRead_triple (len : Nat) : Triple (fun s => s.dev.Holds sent taken)
    (suartRead (uartLpc ctx.base.toNat) ctx len)
    (fun bs s => bs.length ≤ len ∧ s.dev.Holds sent (taken ++ bs)) (fun _ => TookSome sent taken) := by
  have none {s : Faulty Uart16550} (holds : s.dev.Holds sent taken) : s.dev.Holds sent (taken ++ []) := by
    rw [List.append_nil]
    exact holds
  refine (lsr_triple fun _ _ holds => tookSome holds).bind fun lsr => Triple.ite ?_ (Triple.ite ?_ ?_)
  · exact (Triple.fail (Q := fun _ _ => False) fun s start => tookSome start.1).bind fun _ _ never => never.elim
  · exact Triple.pure fun s start => ⟨Nat.zero_le _, none start.1⟩
  · refine ((suartBursts_triple 99 len).conseq (fun _ start => start.1) (fun _ _ post => post)
      fun _ _ stop => stop).bind fun r => ?_
    obtain ⟨bs, rc⟩ := r
    cases rc with
    | some e => exact Triple.fail fun s post => ⟨bs, post.2⟩
    | none => exact Triple.pure fun s post => post

theorem suartFlush_triple (fuel : Nat) (buf : List Byte) : Triple (fun s => s.dev.Holds sent taken)
    (suartFlush (uartLpc ctx.base.toNat) ctx fuel buf) (fun _ s => s.dev.Holds (sent ++ buf) taken)
    (fun _ => WrotePart sent taken buf) := by
  have part {s : Faulty Uart16550} {remaining : Nat}
      (holds : s.dev.Holds (sent ++ buf.take (buf.length - remaining)) taken) : WrotePart sent taken buf s :=
    ⟨_, holds⟩
  have turn (remaining : Nat) : Triple (fun s => remaining ≤ buf.length ∧
      s.dev.Holds (sent ++ buf.take (buf.length - remaining)) taken)
      (suartFlushTurn (uartLpc ctx.base.toNat) ctx buf remaining)
      (fun r s => r.elim (fun remaining => remaining ≤ buf.length ∧
        s.dev.Holds (sent ++ buf.take (buf.length - remaining)) taken) fun _ => s.dev.Holds (sent ++ buf) taken)
      (fun _ => WrotePart sent taken buf) := by
    rw [suartFlushTurn]
    by_cases done : remaining = 0
    · rw [if_pos done]
      refine Triple.pure fun s inv => ?_
      have all := inv.2
      rw [done, Nat.sub_zero, List.take_length] at all
      exact all
    · rw [if_neg done]
      have reset : Triple (fun s => remaining ≤ buf.length ∧
          s.dev.Holds (sent ++ buf.take (buf.length - remaining)) taken)
          ((uartLpc ctx.base.toNat).writeb (ctx.base.toNat + uartFcr) 0x03)
          (fun _ s => remaining ≤ buf.length ∧ s.dev.Holds (sent ++ buf.take (buf.length - remaining)) taken)
          (fun _ => WrotePart sent taken buf) := by
        rw [uartLpc_writeb]
        refine Faulty.access_triple (I := fun u : Uart16550 => remaining ≤ buf.length ∧
          u.Holds (sent ++ buf.take (buf.length - remaining)) taken)
          (K := fun _ (u : Uart16550) => remaining ≤ buf.length ∧
            u.Holds (sent ++ buf.take (buf.length - remaining)) taken) (fun u inv => ⟨inv.1, ?_⟩)
          fun _ s inv => part inv.2
        rw [Uart16550.writePort, if_neg (by simp [uartFcr, uartThr]), if_pos rfl]
        exact inv.2.elapse.control 0x03
      refine reset.bind fun _ => ?_
      intro s inv
      have length : (buf.drop (buf.length - remaining)).length = remaining := by
        rw [List.length_drop]
        omega
      have joined (k : Nat) : sent ++ buf.take (buf.length - remaining) ++ (buf.drop (buf.length - remaining)).take k =
          sent ++ buf.take (buf.length - remaining + k) := by
        rw [List.append_assoc, ← List.take_add]
      refine ((suartWrite_triple (buf.drop (buf.length - remaining))).bind (R := fun (r : Nat ⊕ Unit) s =>
        r.elim (fun remaining => remaining ≤ buf.length ∧
          s.dev.Holds (sent ++ buf.take (buf.length - remaining)) taken) fun _ => s.dev.Holds (sent ++ buf) taken)
        fun left => Triple.pure fun s post => ?_).conseq (fun _ pre => pre) (fun _ _ post => post) ?_ s inv.2
      · rw [length, joined] at post
        have total : buf.length - remaining + (remaining - left) = buf.length - left := by omega
        rw [total] at post
        exact ⟨by omega, post.2⟩
      · intro _ s stop
        obtain ⟨k, holds⟩ := stop
        rw [joined] at holds
        exact ⟨_, holds⟩
  refine (Triple.loop (fun remaining s => remaining ≤ buf.length ∧
    s.dev.Holds (sent ++ buf.take (buf.length - remaining)) taken) turn (fun _ _ inv => part inv.2) fuel
    buf.length).conseq (fun s holds => ⟨Nat.le_refl _, ?_⟩) (fun _ _ post => post) fun _ _ stop => stop
  rw [Nat.sub_self, List.take_zero, List.append_nil]
  exact holds

end Safety

end Culvert
