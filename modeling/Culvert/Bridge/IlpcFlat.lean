import Culvert.Bridge.Ilpc
import Culvert.Hw.SuperIo
import Culvert.Lib.Frame

namespace Culvert

/-- The ports of a SuperIO decoded at `base`, any access of which may fail. -/
def superIoLpc (base : Nat) : Lpc (Faulty SuperIo) where
  readb port := Faulty.access fun d => if port = base + 1 then d.readData else (0xff, d)
  writeb port v := Faulty.access fun d =>
    ((), if port = base then d.writeAddr v else if port = base + 1 then d.writeData v else d)

def superIo (base : Nat) : Sio (Faulty SuperIo) := ⟨superIoLpc base, base⟩

@[simp] theorem superIo_base (base : Nat) : (superIo base).base = base := rfl

theorem superIo_writeb (base port : Nat) (v : Byte) : (superIo base).io.writeb port v = Faulty.access fun d =>
    ((), if port = base then d.writeAddr v else if port = base + 1 then d.writeData v else d) := rfl

theorem superIo_readb (base port : Nat) :
    (superIo base).io.readb port = Faulty.access fun d => if port = base + 1 then d.readData else (0xff, d) := rfl

section Ports
variable {base : Nat} {s s' : Faulty SuperIo}

theorem writeb_addr_ok {v : Byte} (run : ((superIo base).io.writeb base v).run s = .ok () s') :
    s'.dev = s.dev.writeAddr v := by
  rw [superIo_writeb] at run
  have done := (Faulty.access_ok run).2
  simpa only [if_true] using done

theorem writeb_data_ok {v : Byte} (run : ((superIo base).io.writeb (base + 1) v).run s = .ok () s') :
    s'.dev = s.dev.writeData v := by
  rw [superIo_writeb] at run
  have done := (Faulty.access_ok run).2
  simpa using done

theorem sioWriteb_ok {r v : Byte} (run : (sioWriteb (superIo base) r v).run s = .ok () s') :
    s'.dev = s.dev.poke r v := by
  obtain ⟨_, s₁, first, second⟩ := Prog.bind_ok_iff.mp run
  rw [writeb_data_ok second, writeb_addr_ok first, SuperIo.poke]

theorem sioReadb_ok {r b : Byte} (run : (sioReadb (superIo base) r).run s = .ok b s') :
    b = (s.dev.peek r).1 ∧ s'.dev = (s.dev.peek r).2 := by
  obtain ⟨_, s₁, first, second⟩ := Prog.bind_ok_iff.mp run
  rw [superIo_readb] at second
  have done := Faulty.access_ok second
  rw [writeb_addr_ok first] at done
  simpa only [superIo_base, if_true, SuperIo.peek] using done

theorem sioUnlock_ok (run : (sioUnlock (superIo base)).run s = .ok () s') :
    s'.dev = (s.dev.writeAddr 0xa5).writeAddr 0xa5 := by
  obtain ⟨s₁, first, rest⟩ := Prog.all_cons_ok_iff.mp run
  obtain ⟨s₂, second, last⟩ := Prog.all_cons_ok_iff.mp rest
  cases last
  rw [writeb_addr_ok second, writeb_addr_ok first]

/-- Locking leaves the AHB memory alone, also when it fails. -/
theorem sioLock_ahb {r : Except Errno Unit} (run : (Prog.attempt (sioLock (superIo base))).run s = .ok r s') :
    s'.dev.ahb = s.dev.ahb := by
  have final := Prog.attempt_state (sioLock (superIo base)) s
  rw [run, EStateM.Result.state_ok] at final
  rw [final, sioLock, superIo_base, superIo_writeb]
  rcases Faulty.access_dev _ s with same | locked
  · rw [same]
  · rw [locked]
    simpa only [if_true] using SuperIo.lock_ahb s.dev

/-- After the setup the bridge is selected with the width asked for. -/
theorem ilpcbSetup_ok {width : Byte} (run : (ilpcbSetup (superIo base) width).run s = .ok () s') :
    s'.dev.Ready ∧ s'.dev.ilpc 0xf8 = width ∧ s'.dev.ahb = s.dev.ahb := by
  obtain ⟨_, s₁, unlock, run⟩ := Prog.bind_ok_iff.mp run
  obtain ⟨_, s₂, select, run⟩ := Prog.bind_ok_iff.mp run
  obtain ⟨_, s₃, enable, run⟩ := Prog.bind_ok_iff.mp run
  have unlocked : s₁.dev.unlocked = true := by rw [sioUnlock_ok unlock]; exact SuperIo.unlock_unlocked _
  have ready : s₂.dev.Ready := by rw [sioWriteb_ok select]; exact SuperIo.select_ready unlocked
  have ready₃ : s₃.dev.Ready := by rw [sioWriteb_ok enable]; exact ready.poke (by decide) _
  rw [sioWriteb_ok run]
  refine ⟨ready₃.poke (by decide) _, ?_, ?_⟩
  · rw [ready₃.poke_ilpc (by decide), if_pos rfl]
  · rw [ready₃.poke_ahb (by decide), sioWriteb_ok enable, ready.poke_ahb (by decide), sioWriteb_ok select,
      SuperIo.select_ahb unlocked, sioUnlock_ok unlock, SuperIo.unlock_ahb]

/-- The address registers hold `addr`; width and memory are untouched. -/
theorem ilpcbSetAddr_ok {addr : Word} (run : (ilpcbSetAddr (superIo base) addr).run s = .ok () s')
    (ready : s.dev.Ready) : s'.dev.Ready ∧ s'.dev.ahbAddr = addr ∧
      s'.dev.ilpc 0xf8 = s.dev.ilpc 0xf8 ∧ s'.dev.ahb = s.dev.ahb := by
  obtain ⟨s₁, first, run⟩ := Prog.all_cons_ok_iff.mp run
  obtain ⟨s₂, second, run⟩ := Prog.all_cons_ok_iff.mp run
  obtain ⟨s₃, third, run⟩ := Prog.all_cons_ok_iff.mp run
  obtain ⟨s₄, fourth, run⟩ := Prog.all_cons_ok_iff.mp run
  cases run
  have ready₁ : s₁.dev.Ready := by rw [sioWriteb_ok first]; exact ready.poke (by decide) _
  have ready₂ : s₂.dev.Ready := by rw [sioWriteb_ok second]; exact ready₁.poke (by decide) _
  have ready₃ : s₃.dev.Ready := by rw [sioWriteb_ok third]; exact ready₂.poke (by decide) _
  have regs (x : Byte) : s'.dev.ilpc x = if x = 0xf3 then addr.byte 0 else if x = 0xf2 then addr.byte 1 else
      if x = 0xf1 then addr.byte 2 else if x = 0xf0 then addr.byte 3 else s.dev.ilpc x := by
    rw [sioWriteb_ok fourth, ready₃.poke_ilpc (by decide), sioWriteb_ok third, ready₂.poke_ilpc (by decide),
      sioWriteb_ok second, ready₁.poke_ilpc (by decide), sioWriteb_ok first, ready.poke_ilpc (by decide)]
  refine ⟨?_, ?_, ?_, ?_⟩
  · rw [sioWriteb_ok fourth]
    exact ready₃.poke (by decide) _
  · simp [SuperIo.ahbAddr, regs]
  · simp [regs]
  · rw [sioWriteb_ok fourth, ready₃.poke_ahb (by decide), sioWriteb_ok third, ready₂.poke_ahb (by decide),
      sioWriteb_ok second, ready₁.poke_ahb (by decide), sioWriteb_ok first, ready.poke_ahb (by decide)]

/-- One turn of the read loop fetches the byte at `addr`. -/
theorem ilpcbReadTurn_ok {addr : Word} {x b : Byte} {s₁ s₂ : Faulty SuperIo} (ready : s.dev.Ready)
    (width : s.dev.ilpc 0xf8 = 0) (set : (ilpcbSetAddr (superIo base) addr).run s = .ok () s₁)
    (trigger : (sioReadb (superIo base) 0xfe).run s₁ = .ok x s₂)
    (fetch : (sioReadb (superIo base) 0xf7).run s₂ = .ok b s') :
    b = s.dev.ahb addr.toNat ∧ s'.dev.Ready ∧ s'.dev.ilpc 0xf8 = 0 ∧ s'.dev.ahb = s.dev.ahb := by
  obtain ⟨ready₁, addrEq, widthEq, ahbEq⟩ := ilpcbSetAddr_ok set ready
  have after := (sioReadb_ok trigger).2
  rw [ready₁.peek_trigger, SuperIo.ahbRead_byte (d := { s₁.dev with index := 0xfe }) (widthEq.trans width)] at after
  have indexed : ({ s₁.dev with index := 0xfe } : SuperIo).Ready := ⟨ready₁.unlocked, ready₁.ldn⟩
  have ready₂ : s₂.dev.Ready := by rw [after]; exact ⟨ready₁.unlocked, ready₁.ldn⟩
  have fetched := sioReadb_ok fetch
  rw [ready₂.peek_eq (by decide)] at fetched
  refine ⟨?_, ?_, ?_, ?_⟩
  · rw [fetched.1, after, indexed.setReg_ilpc, if_pos rfl, ← addrEq, ← ahbEq]
    rfl
  · rw [fetched.2]
    exact ⟨ready₂.unlocked, ready₂.ldn⟩
  · rw [fetched.2]
    show s₂.dev.ilpc 0xf8 = 0
    rw [after, indexed.setReg_ilpc, if_neg (by decide)]
    exact widthEq.trans width
  · rw [fetched.2, after]
    exact ahbEq

theorem ilpcbReadLoop_ok {addr : Word} {n : Nat} {bs : List Byte}
    (run : (ilpcbReadLoop (superIo base) addr n).run s = .ok bs s') (ready : s.dev.Ready)
    (width : s.dev.ilpc 0xf8 = 0) (fits : addr.toNat + n ≤ 2 ^ 32) :
    bs = ByteMem.read s.dev.ahb addr.toNat n ∧ s'.dev.ahb = s.dev.ahb := by
  induction n generalizing addr s bs with
  | zero =>
    cases run
    exact ⟨rfl, rfl⟩
  | succ n ih =>
    obtain ⟨_, s₁, set, run⟩ := Prog.bind_ok_iff.mp run
    obtain ⟨_, s₂, trigger, run⟩ := Prog.bind_ok_iff.mp run
    obtain ⟨b, s₃, fetch, run⟩ := Prog.bind_ok_iff.mp run
    obtain ⟨rest, s₄, more, last⟩ := Prog.bind_ok_iff.mp run
    cases last
    obtain ⟨byteEq, ready₃, width₃, ahb₃⟩ := ilpcbReadTurn_ok ready width set trigger fetch
    cases n with
    | zero =>
      cases more
      exact ⟨by rw [byteEq]; rfl, ahb₃⟩
    | succ n =>
      have next : (addr + 1).toNat = addr.toNat + 1 := Word.toNat_add_ofNat (n := 1) (by omega)
      obtain ⟨restEq, ahbEq⟩ := ih more ready₃ width₃ (by omega)
      exact ⟨by rw [ByteMem.read_succ, byteEq, restEq, next, ahb₃], ahbEq.trans ahb₃⟩

/-- One turn of the write loop stores its byte at `addr`. -/
theorem ilpcbWriteTurn_ok {addr : Word} {b : Byte} {s₁ s₂ : Faulty SuperIo} (ready : s.dev.Ready)
    (width : s.dev.ilpc 0xf8 = 0) (set : (ilpcbSetAddr (superIo base) addr).run s = .ok () s₁)
    (store : (sioWriteb (superIo base) 0xf7 b).run s₁ = .ok () s₂)
    (trigger : (sioWriteb (superIo base) 0xfe 0xcf).run s₂ = .ok () s') :
    s'.dev.Ready ∧ s'.dev.ilpc 0xf8 = 0 ∧ s'.dev.ahb = ByteMem.write s.dev.ahb addr.toNat [b] := by
  obtain ⟨ready₁, addrEq, widthEq, ahbEq⟩ := ilpcbSetAddr_ok set ready
  have stored := sioWriteb_ok store
  have ready₂ : s₂.dev.Ready := by rw [stored]; exact ready₁.poke (by decide) _
  have regs (x : Byte) : s₂.dev.ilpc x = if x = 0xf7 then b else s₁.dev.ilpc x := by
    rw [stored, ready₁.poke_ilpc (by decide)]
  have width₂ : s₂.dev.ilpc 0xf8 = 0 := by rw [regs, if_neg (by decide)]; exact widthEq.trans width
  have addr₂ : s₂.dev.ahbAddr = addr := by
    rw [← addrEq]
    simp [SuperIo.ahbAddr, regs]
  have after := sioWriteb_ok trigger
  rw [ready₂.poke_trigger, SuperIo.ahbWrite_byte (d := { s₂.dev with index := 0xfe }) width₂] at after
  refine ⟨?_, ?_, ?_⟩
  · rw [after]
    exact ⟨ready₂.unlocked, ready₂.ldn⟩
  · rw [after]
    exact width₂
  · rw [after]
    show ByteMem.write s₂.dev.ahb s₂.dev.ahbAddr.toNat [s₂.dev.ilpc 0xf7] = _
    rw [addr₂, regs, if_pos rfl, stored, ready₁.poke_ahb (by decide), ahbEq]

/-- The write loop leaves the last byte at `addr`, and nothing else. -/
theorem ilpcbWriteLoop_ok {addr : Word} {bs : List Byte}
    (run : (ilpcbWriteLoop (superIo base) addr bs).run s = .ok () s') (ready : s.dev.Ready)
    (width : s.dev.ilpc 0xf8 = 0) : s'.dev.ahb = ByteMem.write s.dev.ahb addr.toNat bs.getLast?.toList := by
  induction bs generalizing s with
  | nil =>
    cases run
    simp
  | cons b rest ih =>
    obtain ⟨_, s₁, set, run⟩ := Prog.bind_ok_iff.mp run
    obtain ⟨_, s₂, store, run⟩ := Prog.bind_ok_iff.mp run
    obtain ⟨_, s₃, trigger, run⟩ := Prog.bind_ok_iff.mp run
    obtain ⟨ready₃, width₃, ahb₃⟩ := ilpcbWriteTurn_ok ready width set store trigger
    rw [ih run ready₃ width₃, ahb₃]
    cases rest with
    | nil => simp
    | cons c rest =>
      rw [List.getLast?_cons_cons, List.getLast?_eq_some_getLast (by simp)]
      funext x
      simp only [Option.toList_some, ByteMem.write_singleton_apply]
      split <;> rfl

/-- A register read of the bridge changes no register of it. -/
theorem sioReadb_ready_ok {r b : Byte} (plain : SuperIo.Plain r) (ready : s.dev.Ready)
    (run : (sioReadb (superIo base) r).run s = .ok b s') :
    b = s.dev.ilpc r ∧ s'.dev.Ready ∧ s'.dev.ilpc = s.dev.ilpc ∧ s'.dev.ahb = s.dev.ahb := by
  have done := sioReadb_ok run
  rw [ready.peek_eq plain] at done
  refine ⟨done.1, ?_, ?_, ?_⟩ <;> rw [done.2]
  · exact ⟨ready.unlocked, ready.ldn⟩
  · rfl

/-- The word transfer of `ilpcb_readl`, between the setup and the lock. -/
theorem ilpcbReadlBody_ok {addr : Word} {x b₀ b₁ b₂ b₃ : Byte} {s₁ s₂ s₃ s₄ s₅ : Faulty SuperIo}
    (ready : s.dev.Ready) (width : s.dev.ilpc 0xf8 = 2)
    (set : (ilpcbSetAddr (superIo base) addr).run s = .ok () s₁)
    (trigger : (sioReadb (superIo base) 0xfe).run s₁ = .ok x s₂)
    (f4 : (sioReadb (superIo base) 0xf4).run s₂ = .ok b₃ s₃) (f5 : (sioReadb (superIo base) 0xf5).run s₃ = .ok b₂ s₄)
    (f6 : (sioReadb (superIo base) 0xf6).run s₄ = .ok b₁ s₅) (f7 : (sioReadb (superIo base) 0xf7).run s₅ = .ok b₀ s') :
    Word.ofBytes b₀ b₁ b₂ b₃ = ByteMem.readWord s.dev.ahb addr.toNat ∧ s'.dev.ahb = s.dev.ahb := by
  obtain ⟨ready₁, addrEq, widthEq, ahbEq⟩ := ilpcbSetAddr_ok set ready
  have indexed : ({ s₁.dev with index := 0xfe } : SuperIo).Ready := ⟨ready₁.unlocked, ready₁.ldn⟩
  have after := (sioReadb_ok trigger).2
  rw [ready₁.peek_trigger] at after
  have regs := indexed.ahbRead_word_ilpc (widthEq.trans width)
  rw [← after] at regs
  rw [SuperIo.ahbRead_word (d := { s₁.dev with index := 0xfe }) (widthEq.trans width)] at after
  have ready₂ : s₂.dev.Ready := by rw [after]; exact ⟨ready₁.unlocked, ready₁.ldn⟩
  have ahb₂ : s₂.dev.ahb = s₁.dev.ahb := by rw [after]; rfl
  obtain ⟨rfl, ready₃, same₃, ahb₃⟩ := sioReadb_ready_ok (by decide) ready₂ f4
  obtain ⟨rfl, ready₄, same₄, ahb₄⟩ := sioReadb_ready_ok (by decide) ready₃ f5
  obtain ⟨rfl, ready₅, same₅, ahb₅⟩ := sioReadb_ready_ok (by decide) ready₄ f6
  obtain ⟨rfl, _, _, ahb₆⟩ := sioReadb_ready_ok (by decide) ready₅ f7
  refine ⟨?_, by rw [ahb₆, ahb₅, ahb₄, ahb₃, ahb₂, ahbEq]⟩
  rw [same₅, same₄, same₃, ← addrEq, ← ahbEq]
  simp only [regs, ByteMem.readWord]
  rfl

/-- The word transfer of `ilpcb_writel`, between the setup and the lock. -/
theorem ilpcbWritelBody_ok {addr val : Word} {s₁ s₂ : Faulty SuperIo} (ready : s.dev.Ready)
    (width : s.dev.ilpc 0xf8 = 2) (set : (ilpcbSetAddr (superIo base) addr).run s = .ok () s₁)
    (store : (Prog.all [sioWriteb (superIo base) 0xf4 (val.byte 3), sioWriteb (superIo base) 0xf5 (val.byte 2),
      sioWriteb (superIo base) 0xf6 (val.byte 1), sioWriteb (superIo base) 0xf7 (val.byte 0)]).run s₁ = .ok () s₂)
    (trigger : (sioWriteb (superIo base) 0xfe 0xcf).run s₂ = .ok () s') :
    s'.dev.ahb = ByteMem.writeWord s.dev.ahb addr.toNat val := by
  obtain ⟨ready₁, addrEq, widthEq, ahbEq⟩ := ilpcbSetAddr_ok set ready
  obtain ⟨t₁, first, store⟩ := Prog.all_cons_ok_iff.mp store
  obtain ⟨t₂, second, store⟩ := Prog.all_cons_ok_iff.mp store
  obtain ⟨t₃, third, store⟩ := Prog.all_cons_ok_iff.mp store
  obtain ⟨t₄, fourth, store⟩ := Prog.all_cons_ok_iff.mp store
  cases store
  have readyT₁ : t₁.dev.Ready := by rw [sioWriteb_ok first]; exact ready₁.poke (by decide) _
  have readyT₂ : t₂.dev.Ready := by rw [sioWriteb_ok second]; exact readyT₁.poke (by decide) _
  have readyT₃ : t₃.dev.Ready := by rw [sioWriteb_ok third]; exact readyT₂.poke (by decide) _
  have ready₂ : s₂.dev.Ready := by rw [sioWriteb_ok fourth]; exact readyT₃.poke (by decide) _
  have regs (x : Byte) : s₂.dev.ilpc x = if x = 0xf7 then val.byte 0 else if x = 0xf6 then val.byte 1 else
      if x = 0xf5 then val.byte 2 else if x = 0xf4 then val.byte 3 else s₁.dev.ilpc x := by
    rw [sioWriteb_ok fourth, readyT₃.poke_ilpc (by decide), sioWriteb_ok third, readyT₂.poke_ilpc (by decide),
      sioWriteb_ok second, readyT₁.poke_ilpc (by decide), sioWriteb_ok first, ready₁.poke_ilpc (by decide)]
  have ahb₂ : s₂.dev.ahb = s₁.dev.ahb := by
    rw [sioWriteb_ok fourth, readyT₃.poke_ahb (by decide), sioWriteb_ok third, readyT₂.poke_ahb (by decide),
      sioWriteb_ok second, readyT₁.poke_ahb (by decide), sioWriteb_ok first, ready₁.poke_ahb (by decide)]
  have width₂ : s₂.dev.ilpc 0xf8 = 2 := by
    rw [← width, ← widthEq]
    simp [regs]
  have addr₂ : s₂.dev.ahbAddr = addr := by
    rw [← addrEq]
    simp [SuperIo.ahbAddr, regs]
  rw [sioWriteb_ok trigger, ready₂.poke_trigger, SuperIo.ahbWrite_word (d := { s₂.dev with index := 0xfe }) width₂]
  show ByteMem.write s₂.dev.ahb s₂.dev.ahbAddr.toNat
    [s₂.dev.ilpc 0xf7, s₂.dev.ilpc 0xf6, s₂.dev.ilpc 0xf5, s₂.dev.ilpc 0xf4] = _
  rw [addr₂, ahb₂, ahbEq]
  simp only [regs]
  rfl

theorem ilpcbRead_ok {addr : Word} {len : Nat} {bs : List Byte} (fits : addr.toNat + len ≤ 2 ^ 32)
    (run : (ilpcbRead (superIo base) addr len).run s = .ok bs s') :
    bs = ByteMem.read s.dev.ahb addr.toNat len ∧ s'.dev.ahb = s.dev.ahb := by
  rw [ilpcbRead, if_neg (by simp only [ssizeMax]; omega)] at run
  obtain ⟨s₁, body, _, lock⟩ := Prog.ensuring_ok_iff.mp (orMinusOne_ok.mp run)
  obtain ⟨_, s₂, setup, loop⟩ := Prog.bind_ok_iff.mp body
  obtain ⟨ready, width, ahb₂⟩ := ilpcbSetup_ok setup
  obtain ⟨bytesEq, ahb₁⟩ := ilpcbReadLoop_ok loop ready width fits
  exact ⟨by rw [bytesEq, ahb₂], by rw [sioLock_ahb lock, ahb₁, ahb₂]⟩

/-- A write stores the last byte of the buffer at `addr`, whatever its length. -/
theorem ilpcbWrite_ok {addr : Word} {buf : List Byte} (fits : addr.toNat + buf.length ≤ 2 ^ 32)
    (run : (ilpcbWrite (superIo base) addr buf).run s = .ok () s') :
    s'.dev.ahb = ByteMem.write s.dev.ahb addr.toNat buf.getLast?.toList := by
  rw [ilpcbWrite, if_neg (by simp only [ssizeMax]; omega)] at run
  obtain ⟨s₁, body, _, lock⟩ := Prog.ensuring_ok_iff.mp (orMinusOne_ok.mp run)
  obtain ⟨_, s₂, setup, loop⟩ := Prog.bind_ok_iff.mp body
  obtain ⟨ready, width, ahb₂⟩ := ilpcbSetup_ok setup
  rw [sioLock_ahb lock, ilpcbWriteLoop_ok loop ready width, ahb₂]

theorem ilpcbReadl_ok {addr val : Word} (run : (ilpcbReadl (superIo base) addr).run s = .ok val s') :
    val = ByteMem.readWord s.dev.ahb addr.toNat ∧ s'.dev.ahb = s.dev.ahb := by
  obtain ⟨s₁, body, _, lock⟩ := Prog.ensuring_ok_iff.mp run
  obtain ⟨_, s₂, setup, body⟩ := Prog.bind_ok_iff.mp body
  obtain ⟨ready, width, ahb₂⟩ := ilpcbSetup_ok setup
  obtain ⟨_, s₃, set, body⟩ := Prog.bind_ok_iff.mp body
  obtain ⟨_, s₄, trigger, body⟩ := Prog.bind_ok_iff.mp body
  obtain ⟨⟨⟨⟨b₃, b₂⟩, b₁⟩, b₀⟩, s₅, fetch, last⟩ := Prog.bind_ok_iff.mp body
  cases last
  obtain ⟨s₆, fetch, f7⟩ := Prog.also_ok_iff.mp fetch
  obtain ⟨s₇, fetch, f6⟩ := Prog.also_ok_iff.mp fetch
  obtain ⟨s₈, f4, f5⟩ := Prog.also_ok_iff.mp fetch
  obtain ⟨wordEq, ahb₁⟩ := ilpcbReadlBody_ok ready width set trigger f4 f5 f6 f7
  exact ⟨by rw [wordEq, ahb₂], by rw [sioLock_ahb lock, ahb₁, ahb₂]⟩

theorem ilpcbWritel_ok {addr val : Word} (run : (ilpcbWritel (superIo base) addr val).run s = .ok () s') :
    s'.dev.ahb = ByteMem.writeWord s.dev.ahb addr.toNat val := by
  obtain ⟨s₁, body, _, lock⟩ := Prog.ensuring_ok_iff.mp run
  obtain ⟨_, s₂, setup, body⟩ := Prog.bind_ok_iff.mp body
  obtain ⟨ready, width, ahb₂⟩ := ilpcbSetup_ok setup
  obtain ⟨_, s₃, set, body⟩ := Prog.bind_ok_iff.mp body
  obtain ⟨_, s₄, store, trigger⟩ := Prog.bind_ok_iff.mp body
  rw [sioLock_ahb lock, ilpcbWritelBody_ok ready width set store trigger, ahb₂]

end Ports

/-- A call that succeeds, within the 32-bit address space. -/
def IlpcStep (base : Nat) (s : Faulty SuperIo) (e : MemOp × MemReply) (s' : Faulty SuperIo) : Prop :=
  e.1.InRange ∧ (ilpcbCall (superIo base) e.1).run s = .ok e.2 s'

/-- The requests the bridge serves as a flat memory would: a write must end in the byte it starts
with, and find its other bytes in place. -/
def IlpcServed (m : Mem) : MemOp → Prop
  | .write addr buf =>
    buf.head? = buf.getLast? ∧ ∀ i, 0 < i → i < buf.length → buf[i]? = some (m (addr.toNat + i))
  | _ => True

/-- What one call answers and leaves in the AHB memory. -/
theorem IlpcStep.effect {base : Nat} {s s' : Faulty SuperIo} {e : MemOp × MemReply} (step : IlpcStep base s e s') :
    e.2 = e.1.flatReply s.dev.ahb ∧ s'.dev.ahb = match e.1 with
      | .write addr buf => ByteMem.write s.dev.ahb addr.toNat buf.getLast?.toList
      | op => op.flatUpdate s.dev.ahb := by
  obtain ⟨op, reply⟩ := e
  obtain ⟨fits, run⟩ := step
  cases op with
  | read addr len =>
    obtain ⟨bs, s₁, call, last⟩ := Prog.bind_ok_iff.mp run
    cases last
    obtain ⟨bytesEq, ahbEq⟩ := ilpcbRead_ok fits call
    exact ⟨by rw [bytesEq]; rfl, ahbEq⟩
  | write addr buf =>
    obtain ⟨_, s₁, call, last⟩ := Prog.bind_ok_iff.mp run
    cases last
    exact ⟨rfl, ilpcbWrite_ok fits call⟩
  | readl addr =>
    obtain ⟨w, s₁, call, last⟩ := Prog.bind_ok_iff.mp run
    cases last
    obtain ⟨wordEq, ahbEq⟩ := ilpcbReadl_ok call
    exact ⟨by rw [wordEq]; rfl, ahbEq⟩
  | writel addr val =>
    obtain ⟨_, s₁, call, last⟩ := Prog.bind_ok_iff.mp run
    cases last
    exact ⟨rfl, ilpcbWritel_ok call⟩

theorem IlpcStep.flat_iff {base : Nat} {s s' : Faulty SuperIo} {e : MemOp × MemReply} (step : IlpcStep base s e s') :
    FlatStep s.dev.ahb e s'.dev.ahb ↔ IlpcServed s.dev.ahb e.1 := by
  obtain ⟨reply, update⟩ := step.effect
  rw [FlatStep, update, and_iff_right reply]
  cases e.1 with
  | write addr buf => exact ByteMem.write_getLast?_eq_iff _ _ _
  | read _ _ => exact iff_of_true rfl trivial
  | readl _ => exact iff_of_true rfl trivial
  | writel _ _ => exact iff_of_true rfl trivial

/-- The calls of a run behave as on one flat memory exactly when each finds what `IlpcServed` asks for. -/
theorem ilpcb_flat_iff_served (base : Nat) (s s' : Faulty SuperIo) (es : List (MemOp × MemReply)) :
    (RunEach (IlpcStep base) (fun s e s' => FlatStep s.dev.ahb e s'.dev.ahb) s es s' ↔
      RunEach (IlpcStep base) (fun s e _ => IlpcServed s.dev.ahb e.1) s es s') ∧
    (RunEach (IlpcStep base) (fun s e _ => IlpcServed s.dev.ahb e.1) s es s' →
      Run FlatStep s.dev.ahb es s'.dev.ahb) := by
  have agree : RunEach (IlpcStep base) (fun s e s' => FlatStep s.dev.ahb e s'.dev.ahb) s es s' ↔
      RunEach (IlpcStep base) (fun s e _ => IlpcServed s.dev.ahb e.1) s es s' :=
    RunEach.congr (fun _ => True) (fun _ _ _ _ _ => trivial) (fun _ _ _ _ step => step.flat_iff) trivial
  refine ⟨agree, fun served => ?_⟩
  exact Run.simulate (fun _ => True) (fun s => s.dev.ahb) (fun _ _ _ _ step => ⟨trivial, step.2⟩)
    (agree.mpr served) trivial

section Frame
variable {base : Nat} {s s' : Faulty SuperIo}

def ahbOf (s : Faulty SuperIo) : Mem := s.dev.ahb

theorem writeb_addr_keeps (v : Byte) : Prog.Keeps (Prog.Same ahbOf) ((superIo base).io.writeb base v) := by
  rw [superIo_writeb]
  exact Faulty.access_keeps fun d => by simp only [if_true, SuperIo.writeAddr_ahb]

theorem readb_keeps (port : Nat) : Prog.Keeps (Prog.Same ahbOf) ((superIo base).io.readb port) := by
  rw [superIo_readb]
  refine Faulty.access_keeps fun d => ?_
  split
  · exact d.readData_ahb
  · rfl

theorem sioReadb_keeps (r : Byte) : Prog.Keeps (Prog.Same ahbOf) (sioReadb (superIo base) r) :=
  (writeb_addr_keeps r).bind fun _ => readb_keeps _

theorem sioWriteb_keeps {r : Byte} (quiet : r ≠ 0xfe ∧ r ≠ 0xa5) (v : Byte) :
    Prog.Keeps (Prog.Same ahbOf) (sioWriteb (superIo base) r v) := by
  intro s
  cases first : ((superIo base).io.writeb base r).run s with
  | error e s₁ =>
    rw [sioWriteb, superIo_base, Prog.run_bind_error first]
    exact (writeb_addr_keeps r).error first
  | ok _ s₁ =>
    have kept := (writeb_addr_keeps r).ok first
    rw [sioWriteb, superIo_base, Prog.run_bind_ok first, superIo_writeb]
    rcases Faulty.access_dev (fun d : SuperIo => ((), if base + 1 = base then d.writeAddr v
      else if base + 1 = base + 1 then d.writeData v else d)) s₁ with same | stored
    · rw [Prog.Same, ahbOf, same]
      exact kept
    · rw [Prog.Same, ahbOf, stored, if_neg (by omega), if_pos rfl, writeb_addr_ok first]
      exact s.dev.poke_ahb_of_ne quiet.1 quiet.2 v

theorem sioWriteb_trigger_error {r v : Byte} {e : Stop} (run : (sioWriteb (superIo base) r v).run s = .error e s') :
    ahbOf s' = ahbOf s := by
  rcases Prog.bind_error_iff.mp run with first | ⟨_, s₁, first, second⟩
  · exact (writeb_addr_keeps r).error first
  · have kept := (writeb_addr_keeps r).ok first
    rw [superIo_writeb] at second
    rw [ahbOf, Faulty.access_error second]
    exact kept

theorem ilpcbSetup_keeps (width : Byte) : Prog.Keeps (Prog.Same ahbOf) (ilpcbSetup (superIo base) width) := by
  have unlock : Prog.Keeps (Prog.Same ahbOf) (sioUnlock (superIo base)) := by
    apply Prog.Keeps.all
    intro m mem
    simp only [List.mem_cons, List.not_mem_nil, or_false, or_self] at mem
    rw [mem]
    exact writeb_addr_keeps _
  exact unlock.bind fun _ => (sioWriteb_keeps (by decide) _).bind fun _ =>
    (sioWriteb_keeps (by decide) _).bind fun _ => sioWriteb_keeps (by decide) _

theorem ilpcbSetAddr_keeps (addr : Word) : Prog.Keeps (Prog.Same ahbOf) (ilpcbSetAddr (superIo base) addr) := by
  apply Prog.Keeps.all
  intro m mem
  simp only [List.mem_cons, List.not_mem_nil, or_false] at mem
  rcases mem with rfl | rfl | rfl | rfl <;> exact sioWriteb_keeps (by decide) _

/-- Reading a word never changes the AHB memory. -/
theorem ilpcbReadl_keeps (addr : Word) : Prog.Keeps (Prog.Same ahbOf) (ilpcbReadl (superIo base) addr) := by
  refine Prog.Keeps.ensuring ?_ (writeb_addr_keeps _)
  refine (ilpcbSetup_keeps 2).bind fun _ => (ilpcbSetAddr_keeps addr).bind fun _ => (sioReadb_keeps _).bind fun _ => ?_
  refine Prog.Keeps.bind (((((sioReadb_keeps _).also (sioReadb_keeps _)).also (sioReadb_keeps _)).also
    (sioReadb_keeps _))) fun _ => Prog.keeps_pure _

theorem writeb_returns (port : Nat) (v : Byte) : Prog.Returns ((superIo base).io.writeb port v) := by
  rw [superIo_writeb]
  exact Faulty.access_returns _

theorem sioWriteb_returns (r v : Byte) : Prog.Returns (sioWriteb (superIo base) r v) :=
  (writeb_returns _ _).bind fun _ => writeb_returns _ _

theorem ilpcbWritel_returns (addr val : Word) : Prog.Returns (ilpcbWritel (superIo base) addr val) := by
  refine Prog.Returns.ensuring ?_ (writeb_returns _ _)
  have setup : Prog.Returns (ilpcbSetup (superIo base) 2) := by
    refine Prog.Returns.bind ?_ fun _ => (sioWriteb_returns _ _).bind fun _ => (sioWriteb_returns _ _).bind fun _ =>
      sioWriteb_returns _ _
    apply Prog.Returns.all
    intro m mem
    simp only [List.mem_cons, List.not_mem_nil, or_false, or_self] at mem
    rw [mem]
    exact writeb_returns _ _
  have stores (ms : List (Byte × Byte)) :
      Prog.Returns (Prog.all (ms.map fun rv => sioWriteb (superIo base) rv.1 rv.2)) := by
    apply Prog.Returns.all
    intro m mem
    obtain ⟨rv, _, rfl⟩ := List.mem_map.mp mem
    exact sioWriteb_returns _ _
  exact setup.bind fun _ => (stores [(0xf0, addr.byte 3), (0xf1, addr.byte 2), (0xf2, addr.byte 1),
    (0xf3, addr.byte 0)]).bind fun _ => (stores [(0xf4, val.byte 3), (0xf5, val.byte 2), (0xf6, val.byte 1),
    (0xf7, val.byte 0)]).bind fun _ => sioWriteb_returns _ _

/-- A word write that fails has not reached the AHB memory. -/
theorem ilpcbWritel_error {addr val : Word} {stop : Stop}
    (run : (ilpcbWritel (superIo base) addr val).run s = .error stop s') : ahbOf s' = ahbOf s := by
  obtain ⟨e, rfl⟩ := ilpcbWritel_returns addr val s stop s' run
  obtain ⟨s₁, body, _, lock⟩ := Prog.ensuring_error_iff.mp run
  have locked : ahbOf s' = ahbOf s₁ := sioLock_ahb lock
  have stores : Prog.Keeps (Prog.Same ahbOf) (Prog.all [sioWriteb (superIo base) 0xf4 (val.byte 3),
      sioWriteb (superIo base) 0xf5 (val.byte 2), sioWriteb (superIo base) 0xf6 (val.byte 1),
      sioWriteb (superIo base) 0xf7 (val.byte 0)]) := by
    apply Prog.Keeps.all
    intro m mem
    simp only [List.mem_cons, List.not_mem_nil, or_false] at mem
    rcases mem with rfl | rfl | rfl | rfl <;> exact sioWriteb_keeps (by decide) _
  rw [locked]
  rcases Prog.bind_error_iff.mp body with setup | ⟨_, s₂, setup, body⟩
  · exact (ilpcbSetup_keeps 2).error setup
  have kept₂ : ahbOf s₂ = ahbOf s := (ilpcbSetup_keeps 2).ok setup
  rcases Prog.bind_error_iff.mp body with set | ⟨_, s₃, set, body⟩
  · exact ((ilpcbSetAddr_keeps addr).error set).trans kept₂
  have kept₃ : ahbOf s₃ = ahbOf s₂ := (ilpcbSetAddr_keeps addr).ok set
  rcases Prog.bind_error_iff.mp body with store | ⟨_, s₄, store, trigger⟩
  · exact (stores.error store).trans (kept₃.trans kept₂)
  · have kept₄ : ahbOf s₄ = ahbOf s₃ := stores.ok store
    exact (sioWriteb_trigger_error trigger).trans (kept₄.trans (kept₃.trans kept₂))

end Frame

section Success
variable {base : Nat}

theorem writeb_succeeds (port : Nat) (v : Byte) : Prog.Succeeds Faulty.Sound ((superIo base).io.writeb port v) := by
  rw [superIo_writeb]
  exact Faulty.access_succeeds _

theorem sioWriteb_succeeds (r v : Byte) : Prog.Succeeds Faulty.Sound (sioWriteb (superIo base) r v) :=
  (writeb_succeeds _ _).bind fun _ => writeb_succeeds _ _

theorem sioReadb_succeeds (r : Byte) : Prog.Succeeds Faulty.Sound (sioReadb (superIo base) r) := by
  refine (writeb_succeeds _ _).bind fun _ => ?_
  rw [superIo_readb]
  exact Faulty.access_succeeds _

theorem sioLock_succeeds : Prog.Succeeds Faulty.Sound (sioLock (superIo base)) := writeb_succeeds _ _

theorem ilpcbSetup_succeeds (width : Byte) : Prog.Succeeds Faulty.Sound (ilpcbSetup (superIo base) width) := by
  refine Prog.Succeeds.bind ?_ fun _ => (sioWriteb_succeeds _ _).bind fun _ =>
    (sioWriteb_succeeds _ _).bind fun _ => sioWriteb_succeeds _ _
  apply Prog.Succeeds.all
  intro m mem
  simp only [List.mem_cons, List.not_mem_nil, or_false, or_self] at mem
  rw [mem]
  exact writeb_succeeds _ _

theorem ilpcbSetAddr_succeeds (addr : Word) : Prog.Succeeds Faulty.Sound (ilpcbSetAddr (superIo base) addr) := by
  apply Prog.Succeeds.all
  intro m mem
  simp only [List.mem_cons, List.not_mem_nil, or_false] at mem
  rcases mem with rfl | rfl | rfl | rfl <;> exact sioWriteb_succeeds _ _

theorem ilpcbWriteLoop_succeeds (addr : Word) (bs : List Byte) :
    Prog.Succeeds Faulty.Sound (ilpcbWriteLoop (superIo base) addr bs) := by
  induction bs with
  | nil => exact .pure ()
  | cons b rest ih =>
    exact (ilpcbSetAddr_succeeds addr).bind fun _ => (sioWriteb_succeeds _ _).bind fun _ =>
      (sioWriteb_succeeds _ _).bind fun _ => ih

theorem ilpcbWritel_succeeds (addr val : Word) : Prog.Succeeds Faulty.Sound (ilpcbWritel (superIo base) addr val) := by
  have stores : Prog.Succeeds Faulty.Sound (Prog.all [sioWriteb (superIo base) 0xf4 (val.byte 3),
      sioWriteb (superIo base) 0xf5 (val.byte 2), sioWriteb (superIo base) 0xf6 (val.byte 1),
      sioWriteb (superIo base) 0xf7 (val.byte 0)]) := by
    apply Prog.Succeeds.all
    intro m mem
    simp only [List.mem_cons, List.not_mem_nil, or_false] at mem
    rcases mem with rfl | rfl | rfl | rfl <;> exact sioWriteb_succeeds _ _
  exact ((ilpcbSetup_succeeds 2).bind fun _ => (ilpcbSetAddr_succeeds addr).bind fun _ =>
    stores.bind fun _ => sioWriteb_succeeds _ _).ensuring sioLock_succeeds

theorem ilpcbReadl_succeeds (addr : Word) : Prog.Succeeds Faulty.Sound (ilpcbReadl (superIo base) addr) := by
  have fetch : Prog.Succeeds Faulty.Sound ((((sioReadb (superIo base) 0xf4).also (sioReadb (superIo base) 0xf5)).also
      (sioReadb (superIo base) 0xf6)).also (sioReadb (superIo base) 0xf7)) :=
    (((sioReadb_succeeds _).also (sioReadb_succeeds _)).also (sioReadb_succeeds _)).also (sioReadb_succeeds _)
  exact ((ilpcbSetup_succeeds 2).bind fun _ => (ilpcbSetAddr_succeeds addr).bind fun _ =>
    (sioReadb_succeeds _).bind fun _ => fetch.bind fun _ => .pure _).ensuring sioLock_succeeds

/-- On ports that never fail a write of any length the host can hold returns. -/
theorem ilpcbWrite_succeeds {addr : Word} {buf : List Byte} (small : buf.length ≤ ssizeMax) :
    Prog.Succeeds Faulty.Sound (ilpcbWrite (superIo base) addr buf) := by
  intro s sound
  obtain ⟨_, s', run, sound'⟩ := (((ilpcbSetup_succeeds 0).bind fun _ => ilpcbWriteLoop_succeeds addr buf).ensuring
    sioLock_succeeds) s sound
  refine ⟨(), s', ?_, sound'⟩
  rw [ilpcbWrite, if_neg (by omega)]
  exact orMinusOne_ok.mpr run

end Success

/-- A locked SuperIO in front of cleared memory, with ports that never fail. -/
def superIoCleared : Faulty SuperIo where
  dev := { unlocked := false, keys := 0, index := 0, ldn := 0, regs := fun _ _ => 0, ahb := fun _ => 0 }
  fails _ := none
  accesses := 0

/-- Writing `01 02` at address 0 succeeds, and the flat memory's 02 at address 1 is missing. -/
theorem ilpcb_not_flat : ¬ ∀ (base : Nat) (s s' : Faulty SuperIo) (es : List (MemOp × MemReply)),
    Run (IlpcStep base) s es s' →
      RunEach (IlpcStep base) (fun s e s' => FlatStep s.dev.ahb e s'.dev.ahb) s es s' := by
  intro flat
  have small : [(1 : Byte), 2].length ≤ ssizeMax := by decide
  obtain ⟨_, s', call, _⟩ := @ilpcbWrite_succeeds 0x2e 0 [1, 2] small superIoCleared fun _ => rfl
  have step : IlpcStep 0x2e superIoCleared (.write 0 [1, 2], .done) s' :=
    ⟨by decide, Prog.bind_ok_iff.mpr ⟨_, _, call, rfl⟩⟩
  cases flat _ _ _ _ (.cons step (.nil _)) with
  | cons head _ =>
    have served := head.1.flat_iff.mp head.2
    exact absurd served.1 (by decide)

end Culvert
