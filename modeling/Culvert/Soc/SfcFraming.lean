import Culvert.Soc.Sfc

/-! What the chip sees of `sfc_cmd_wr` and `sfc_cmd_rd`. -/

namespace Culvert

/-- The bytes of an address, as many as the address mode has. -/
def SfcData.addrLen (ct : SfcData) : Nat := if ct.mode4b then 4 else 3

/-- The opcode, and the address where there is one. -/
def SfcData.header (ct : SfcData) (cmd : Byte) : Option Word → List Byte
  | none => [cmd]
  | some addr => cmd :: msbFirst ct.addrLen addr.toNat

theorem bytes_reverse (w : Word) : w.bytes.reverse = msbFirst 4 w.toNat := by
  have byte (i : Nat) : w.byte i = BitVec.ofNat 8 (w.toNat / 256 ^ i) := by
    apply BitVec.eq_of_toNat_eq
    rw [Word.byte, BitVec.extractLsb'_toNat, BitVec.toNat_ofNat, Nat.shiftRight_eq_div_pow, Nat.pow_mul]
  rw [msbFirst_succ, msbFirst_succ, msbFirst_succ, msbFirst_succ, ← byte, ← byte, ← byte, ← byte]
  rfl

theorem bytes_reverse_drop (w : Word) : w.bytes.reverse.drop 1 = msbFirst 3 w.toNat := by
  rw [bytes_reverse, msbFirst_succ, List.drop_one, List.tail_cons]

namespace SpiHost
variable {χ : Type} (spi : SpiChip χ)

/-- No other register than the control register differs. -/
def Beside (h mid : SpiHost χ) : Prop := ∀ off, off ≠ ceCtrl → mid.regs off = h.regs off

theorem Beside.refl (h : SpiHost χ) : Beside h h := fun _ _ => rfl

/-- In user mode with CE# active, and the chip in `c`. -/
def selected (h : SpiHost χ) (val : Word) (c : χ) : SpiHost χ :=
  { regs := Function.update h.regs ceCtrl val, active := true, chip := c }

/-- In user mode with CE# inactive, and the chip in `c`. -/
def dropped (h : SpiHost χ) (val : Word) (c : χ) : SpiHost χ :=
  { regs := Function.update h.regs ceCtrl val, active := false, chip := c }

/-- Back in read mode with CE# inactive, and the chip in `c`. -/
def closed (h : SpiHost χ) (ct : SfcData) (c : χ) : SpiHost χ :=
  { regs := Function.update h.regs ceCtrl ct.ctlReadVal, active := false, chip := c }

theorem Beside.closed_eq {h mid : SpiHost χ} (beside : Beside h mid) (ct : SfcData) (c : χ) :
    mid.closed ct c = h.closed ct c := by
  have regs : Function.update mid.regs ceCtrl ct.ctlReadVal = Function.update h.regs ceCtrl ct.ctlReadVal := by
    funext off
    by_cases here : off = ceCtrl
    · rw [here, Function.update_self, Function.update_self]
    · rw [Function.update_of_ne here, Function.update_of_ne here, beside off here]
  rw [closed, closed, regs]

theorem selected_beside (h : SpiHost χ) (val : Word) (c : χ) : Beside h (h.selected val c) :=
  fun _ other => Function.update_of_ne other _ _

theorem dropped_beside (h : SpiHost χ) (val : Word) (c : χ) : Beside h (h.dropped val c) :=
  fun _ other => Function.update_of_ne other _ _

end SpiHost

open SpiHost Faulty

section
variable {χ : Type} (spi : SpiChip χ) (ct : SfcData) (h : SpiHost χ)

theorem windowWrites_takes (val : Word) (bs : List Byte) (c : χ) :
    Takes (Beside h) (h.selected val c) (windowWrites spi bs) bs.length () (h.selected val (spi.sends bs c)) := by
  induction bs generalizing c with
  | nil => exact Takes.pure ()
  | cons b bs ih =>
    have first := Takes.access (fun d => ((), SpiHost.windowWrite spi b d)) (selected_beside h val c)
    have sent : SpiHost.windowWrite spi b (h.selected val c) = h.selected val (spi.shiftOut b c) :=
      windowWrite_active spi rfl
    rw [sent] at first
    exact (first.bind (ih _)).congr (Nat.add_comm _ _) rfl rfl

theorem orMinusOne_takes {σ α : Type} {I : σ → Prop} {d d' : σ} {m : Prog (Faulty σ) α} {n : Nat} {a : α}
    (takes : Takes I d m n a d') : Takes I d (orMinusOne m) n a d' :=
  takes.wrap (fun _ _ run => orMinusOne_ok.mpr run) fun _ _ _ run => ⟨eperm, orMinusOne_rc run⟩

theorem sfcFlashWrite_takes (val : Word) (bs : List Byte) (c : χ) :
    Takes (Beside h) (h.selected val c) (sfcFlashWrite spi bs) bs.length () (h.selected val (spi.sends bs c)) :=
  orMinusOne_takes (windowWrites_takes spi h val bs c)

theorem sfcRelease_takes {h mid : SpiHost χ} (beside : Beside h mid) : Takes (Beside h) mid
    (sfcWritel spi ct.type.ctlReg (ct.ctlVal ||| 7)) 1 () (mid.dropped (ct.ctlVal ||| 7) (rested spi mid)) := by
  have takes := Takes.access (fun d => ((), SpiHost.writel spi ct.type.ctlReg (ct.ctlVal ||| 7) d)) beside
  rw [SfcType.ctlReg_eq, writel_release spi ct.ctl_seven] at takes
  rw [SfcType.ctlReg_eq]
  exact takes

theorem sfcAssert_takes (val : Word) (c : χ) : Takes (Beside h) (h.dropped val c)
    (sfcWritel spi ct.type.ctlReg (ct.ctlVal ||| 3)) 1 () (h.selected (ct.ctlVal ||| 3) (spi.select c)) := by
  have takes := Takes.access (fun d => ((), SpiHost.writel spi ct.type.ctlReg (ct.ctlVal ||| 3) d))
    (dropped_beside h val c)
  rw [SfcType.ctlReg_eq, writel_assert spi ct.ctl_three, dropped, Function.update_idem] at takes
  rw [SfcType.ctlReg_eq]
  exact takes

theorem sfcStartCmd_takes (cmd : Byte) : Takes (Beside h) h (sfcStartCmd spi ct cmd) 3 ()
    (h.selected (ct.ctlVal ||| 3) (spi.sends [cmd] (spi.select (rested spi h)))) := by
  have first := sfcRelease_takes spi ct (Beside.refl h)
  have second := sfcAssert_takes spi ct h (ct.ctlVal ||| 7) (rested spi h)
  have third := sfcFlashWrite_takes spi h (ct.ctlVal ||| 3) [cmd] (spi.select (rested spi h))
  have raised := second.bind (f := fun _ => sfcFlashWrite spi [cmd]) third
  exact first.bind (f := fun _ => do sfcWritel spi ct.type.ctlReg (ct.ctlVal ||| 3); sfcFlashWrite spi [cmd]) raised

theorem sfcSendAddr_takes (addr : Word) (val : Word) (c : χ) : Takes (Beside h) (h.selected val c)
    (sfcSendAddr spi ct addr) ct.addrLen () (h.selected val (spi.sends (msbFirst ct.addrLen addr.toNat) c)) := by
  have sent := sfcFlashWrite_takes spi h val (msbFirst ct.addrLen addr.toNat) c
  rw [msbFirst_length] at sent
  rw [sfcSendAddr]
  cases mode : ct.mode4b with
  | true =>
    rw [SfcData.addrLen, if_pos mode] at sent ⊢
    rw [if_pos rfl, bytes_reverse]
    exact sent
  | false =>
    rw [SfcData.addrLen, mode] at sent ⊢
    rw [if_neg Bool.false_ne_true, bytes_reverse_drop]
    exact sent

theorem sfcOpenCmd_takes (cmd : Byte) (addr : Option Word) : Takes (Beside h) h (sfcOpenCmd spi ct cmd addr)
    (2 + (ct.header cmd addr).length) ()
    (h.selected (ct.ctlVal ||| 3) (spi.sends (ct.header cmd addr) (spi.select (rested spi h)))) := by
  have first := sfcStartCmd_takes spi ct h cmd
  cases addr with
  | none => exact first.bind (Takes.pure ())
  | some addr =>
    have second := sfcSendAddr_takes spi ct h addr (ct.ctlVal ||| 3) (spi.sends [cmd] (spi.select (rested spi h)))
    have both := first.bind (f := fun _ => sfcSendAddr spi ct addr) second
    rw [← spi.sends_append] at both
    refine both.congr ?_ rfl rfl
    rw [SfcData.header, List.length_cons, msbFirst_length]
    omega

theorem sfcWrite_takes (val : Word) (buf : List Byte) (c : χ) : Takes (Beside h) (h.selected val c)
    (if buf ≠ [] then sfcFlashWrite spi buf else pure ()) buf.length () (h.selected val (spi.sends buf c)) := by
  by_cases some : buf ≠ []
  · rw [if_pos some]
    exact sfcFlashWrite_takes spi h val buf c
  · obtain rfl : buf = [] := not_not.mp some
    exact Takes.pure ()

/-- Whatever was sent, the control register ends in read mode. -/
theorem sfcEndCmd_takes {h mid : SpiHost χ} (beside : Beside h mid) : Takes (Beside h) mid (sfcEndCmd spi ct) 2 ()
    (h.closed ct (rested spi mid)) := by
  have first := sfcRelease_takes spi ct beside
  have plain : SpiHost.writel spi ceCtrl ct.ctlReadVal (mid.dropped (ct.ctlVal ||| 7) (rested spi mid)) =
      h.closed ct (rested spi mid) := by
    rw [writel_plain spi fun _ => ct.readPlain, ← beside.closed_eq, dropped, Function.update_idem, closed]
  have inside : Beside h (mid.dropped (ct.ctlVal ||| 7) (rested spi mid)) := fun off other =>
    (dropped_beside mid _ _ off other).trans (beside off other)
  have second := Takes.access (fun d => ((), SpiHost.writel spi ceCtrl ct.ctlReadVal d)) inside
  rw [plain] at second
  rw [sfcEndCmd, SfcType.ctlReg_eq]
  rw [SfcType.ctlReg_eq] at first
  exact first.bind (f := fun _ => sfcWritel spi ceCtrl ct.ctlReadVal) second

theorem sfcEndCmd_attempt {s : Faulty (SpiHost χ)} (beside : Beside h s.dev) :
    ∃ r s', (Prog.attempt (sfcEndCmd spi ct)).run s = .ok r s' ∧
      (s.Clear 2 → s' = s.after 2 (h.closed ct (rested spi s.dev))) :=
  (sfcEndCmd_takes spi ct beside).attempt rfl

end

/-- The bytes stored one after the other, as long as there is room. -/
def sfcStores (bs : List Byte) (cursor : List Byte × Nat × Nat) : List Byte × Nat × Nat :=
  bs.foldl (fun cursor b => sfcStore b cursor) cursor

theorem sfcUnpack_eq (val : Word) (cursor : List Byte × Nat × Nat) :
    sfcUnpack val cursor = sfcStores val.bytes cursor := rfl

theorem sfcStores_append (bs pre old : List Byte) (size : Nat) (room : size ≤ old.length) :
    sfcStores bs (pre ++ old, pre.length, size) =
      (pre ++ bs.take size ++ old.drop (bs.take size).length, (pre ++ bs.take size).length, size - bs.length) := by
  induction bs generalizing pre old size with
  | nil => simp [sfcStores]
  | cons b bs ih =>
    cases size with
    | zero =>
      have still (bs : List Byte) : sfcStores bs (pre ++ old, pre.length, 0) = (pre ++ old, pre.length, 0) := by
        induction bs with
        | nil => rfl
        | cons b bs ih => exact ih
      simp [still]
    | succ size =>
      obtain ⟨o, old, rfl⟩ : ∃ o rest, old = o :: rest := List.exists_cons_of_ne_nil (by rintro rfl; simp at room)
      have stored : sfcStore b (pre ++ o :: old, pre.length, size + 1) =
          (pre ++ [b] ++ old, (pre ++ [b]).length, size) := by
        simp [sfcStore]
      have room : size ≤ old.length := Nat.le_of_succ_le_succ room
      have rest := ih (pre ++ [b]) old size room
      rw [sfcStores, List.foldl_cons, stored, ← sfcStores, rest]
      simp [Nat.add_sub_add_right]

section
variable {χ : Type} (spi : SpiChip χ) (h : SpiHost χ)

/-- The words read for `size` bytes. -/
def wordsFor (size : Nat) : Nat := (size + 3) / 4

theorem windowReadl_selected (val : Word) (c : χ) : windowReadl spi (h.selected val c) =
    (ByteMem.wordOf (spi.receives 4 c).1, h.selected val (spi.receives 4 c).2) := windowReadl_active spi rfl

theorem receives_four (c : χ) : (ByteMem.wordOf (spi.receives 4 c).1).bytes = (spi.receives 4 c).1 :=
  Word.bytes_ofBytes _ _ _ _

/-- The word that a turn of the loop reads, stored. -/
theorem sfcUnpack_received (c : χ) (pre old : List Byte) {size : Nat} (room : size ≤ old.length) :
    sfcUnpack (ByteMem.wordOf (spi.receives 4 c).1) (pre ++ old, pre.length, size) =
      (pre ++ (spi.receives 4 c).1.take size ++ old.drop (min size 4),
        (pre ++ (spi.receives 4 c).1.take size).length, size - 4) := by
  rw [sfcUnpack_eq, receives_four, sfcStores_append _ pre old size room, List.length_take, spi.receives_length]

theorem sfcReadData_clear (val : Word) (c : χ) (s : Faulty (SpiHost χ)) (pre old : List Byte) (size : Nat)
    (here : s.dev = h.selected val c) (room : size ≤ old.length) (clear : s.Clear (wordsFor size)) :
    (sfcReadData spi (pre ++ old) pre.length size).run s =
      .ok (pre ++ (spi.receives (4 * wordsFor size) c).1.take size ++ old.drop size, .ok ())
        (s.after (wordsFor size) (h.selected val (spi.receives (4 * wordsFor size) c).2)) := by
  induction size using Nat.strongRecOn generalizing c s pre old with
  | ind size ih =>
    rw [sfcReadData]
    by_cases done : size = 0
    · subst done
      rw [dif_pos rfl]
      simp [wordsFor, SpiChip.receives, ← here]
    · have words : wordsFor size = 1 + wordsFor (size - 4) := by
        simp only [wordsFor]
        omega
      rw [words] at clear
      have parts := (clear_add (d := h.selected val (spi.receives 4 c).2)).mp clear
      have first := (Takes.access (I := fun _ => True) (SpiHost.windowReadl spi) (d := h.selected val c) trivial).clear
        s here parts.1
      rw [windowReadl_selected] at first
      rw [dif_neg done, Prog.run_bind_ok (Prog.attempt_ok first)]
      dsimp only
      rw [sfcUnpack_received spi c pre old room]
      have rest := ih (size - 4) (by omega) (spi.receives 4 c).2 _ (pre ++ (spi.receives 4 c).1.take size)
        (old.drop (min size 4)) rfl (by rw [List.length_drop]; omega) parts.2
      rw [rest]
      have split : 4 * wordsFor size = 4 + 4 * wordsFor (size - 4) := by omega
      rw [split, spi.receives_add, List.take_append, spi.receives_length, List.drop_drop, after_after, words]
      have whole : min size 4 + (size - 4) = size := by omega
      rw [whole, List.append_assoc pre]

/-- A read that fails leaves the bytes past `size` alone. -/
theorem sfcReadData_failed (val : Word) (c : χ) (s : Faulty (SpiHost χ)) (pre old : List Byte) (size k : Nat)
    (here : s.dev = h.selected val c) (room : size ≤ old.length) (lt : k < wordsFor size) (fails : s.FirstFails k) :
    ∃ got e c', got.length ≤ size ∧ (sfcReadData spi (pre ++ old) pre.length size).run s =
      .ok (pre ++ got ++ old.drop got.length, .error e) (s.after (k + 1) (h.selected val c')) := by
  induction size using Nat.strongRecOn generalizing c s pre old k with
  | ind size ih =>
    have more : ¬ size = 0 := by
      rintro rfl
      exact absurd lt (Nat.not_lt_zero k)
    have words : wordsFor size = 1 + wordsFor (size - 4) := by
      simp only [wordsFor]
      omega
    have takes := Takes.access (I := fun d => d = h.selected val c) (SpiHost.windowReadl spi) rfl
    rw [windowReadl_selected] at takes
    rw [sfcReadData, dif_neg more]
    by_cases now : k = 0
    · subst now
      obtain ⟨e, mid, rfl, run⟩ := takes.failed s 0 here Nat.one_pos fails
      refine ⟨[], e, c, Nat.zero_le size, ?_⟩
      rw [Prog.run_bind_ok (Prog.attempt_rc run), List.append_nil, List.length_nil, List.drop_zero]
      rfl
    · obtain ⟨j, rfl⟩ : ∃ j, k = 1 + j := ⟨k - 1, by omega⟩
      have first := takes.clear s here (fails.1.mono (Nat.le_add_right 1 j))
      rw [Prog.run_bind_ok (Prog.attempt_ok first)]
      dsimp only
      rw [sfcUnpack_received spi c pre old room]
      obtain ⟨got, e, c', few, run⟩ := ih (size - 4) (by omega) (spi.receives 4 c).2
        (s.after 1 (h.selected val (spi.receives 4 c).2)) (pre ++ (spi.receives 4 c).1.take size)
        (old.drop (min size 4)) j rfl (by rw [List.length_drop]; omega) (by omega) fails.shift
      have taken : ((spi.receives 4 c).1.take size).length = min size 4 := by
        rw [List.length_take, spi.receives_length]
      have count : ((spi.receives 4 c).1.take size ++ got).length = min size 4 + got.length := by
        rw [List.length_append, taken]
      refine ⟨(spi.receives 4 c).1.take size ++ got, e, c', by omega, ?_⟩
      rw [run, List.drop_drop, after_after, count, ← List.append_assoc pre, Nat.add_assoc]

end

/-! ## Whole commands -/

section
variable {χ : Type} (spi : SpiChip χ) (ct : SfcData)

@[simp] theorem rested_selected (h : SpiHost χ) (val : Word) (c : χ) :
    rested spi (h.selected val c) = spi.deselect c := rfl

theorem sfcWrBody_takes (h : SpiHost χ) (cmd : Byte) (addr : Option Word) (data : List Byte) :
    Takes (Beside h) h
      (do
        sfcOpenCmd spi ct cmd addr
        if data ≠ [] then sfcFlashWrite spi data else pure ())
      (2 + (ct.header cmd addr ++ data).length) ()
      (h.selected (ct.ctlVal ||| 3) (spi.sends (ct.header cmd addr ++ data) (spi.select (rested spi h)))) := by
  have first := sfcOpenCmd_takes spi ct h cmd addr
  have second := sfcWrite_takes spi h (ct.ctlVal ||| 3) data
    (spi.sends (ct.header cmd addr) (spi.select (rested spi h)))
  rw [spi.sends_append, List.length_append, ← Nat.add_assoc]
  exact first.bind (f := fun _ => if data ≠ [] then sfcFlashWrite spi data else pure ()) second

variable (cmd : Byte) (addr : Option Word) (s : Faulty (SpiHost χ))

theorem sfcEndCmd_selected (n : Nat) (val : Word) (c : χ) :
    ∃ r s', (Prog.attempt (sfcEndCmd spi ct)).run (s.after n (s.dev.selected val c)) = .ok r s' ∧
      ((s.after n s.dev).Clear 2 → s' = s.after (n + 2) (s.dev.closed ct (spi.deselect c))) := by
  obtain ⟨r, s', run, closing⟩ := sfcEndCmd_attempt spi ct s.dev (s := s.after n (s.dev.selected val c))
    (selected_beside s.dev val c)
  refine ⟨r, s', run, fun two => ?_⟩
  rw [closing two, after_after]
  rfl

theorem sfcCmdWr_clear (data : List Byte) (clear : s.Clear (2 + (ct.header cmd addr ++ data).length)) :
    ∃ s', (sfcCmdWr spi ct cmd addr data).run s = .ok () s' ∧
      (s.Clear (2 + (ct.header cmd addr ++ data).length + 2) →
        s' = s.after (2 + (ct.header cmd addr ++ data).length + 2)
          (s.dev.closed ct (spi.transfer (ct.header cmd addr ++ data) 0 (rested spi s.dev)).2)) := by
  have body := (sfcWrBody_takes spi ct s.dev cmd addr data).clear s rfl clear
  obtain ⟨r, s', run, closing⟩ := sfcEndCmd_selected spi ct s (2 + (ct.header cmd addr ++ data).length)
    (ct.ctlVal ||| 3) (spi.sends (ct.header cmd addr ++ data) (spi.select (rested spi s.dev)))
  exact ⟨s', Prog.ensuring_ok_iff.mpr ⟨_, body, r, run⟩, fun whole => closing (clear_add.mp whole).2⟩

theorem sfcCmdWr_failed (data : List Byte) (k : Nat) (lt : k < 2 + (ct.header cmd addr ++ data).length)
    (fails : s.FirstFails k) : ∃ e s', (sfcCmdWr spi ct cmd addr data).run s = .error (.rc e) s' ∧
      ((s.after (k + 1) s.dev).Clear 2 → ∃ c, s' = s.after (k + 3) (s.dev.closed ct c)) := by
  obtain ⟨e, mid, inside, body⟩ := (sfcWrBody_takes spi ct s.dev cmd addr data).failed s k rfl lt fails
  obtain ⟨r, s', run, closing⟩ := sfcEndCmd_attempt spi ct s.dev (s := s.after (k + 1) mid) inside
  refine ⟨e, s', Prog.ensuring_error_iff.mpr ⟨_, body, r, run⟩, fun two => ⟨rested spi mid, ?_⟩⟩
  rw [closing two, after_after]
  rfl

theorem sfcCmdRd_clear (buf : List Byte) (size : Nat) (room : size ≤ buf.length)
    (clear : s.Clear (2 + (ct.header cmd addr).length + wordsFor size)) :
    ∃ s', (sfcCmdRd spi ct cmd addr buf size).run s =
      .ok ((spi.transfer (ct.header cmd addr) (4 * wordsFor size) (rested spi s.dev)).1.take size ++ buf.drop size,
        .ok ()) s' ∧
      (s.Clear (2 + (ct.header cmd addr).length + wordsFor size + 2) →
        s' = s.after (2 + (ct.header cmd addr).length + wordsFor size + 2) (s.dev.closed ct
          (spi.transfer (ct.header cmd addr) (4 * wordsFor size) (rested spi s.dev)).2)) := by
  have takes := sfcOpenCmd_takes spi ct s.dev cmd addr
  have parts := (clear_add (d := s.dev.selected (ct.ctlVal ||| 3)
    (spi.sends (ct.header cmd addr) (spi.select (rested spi s.dev))))).mp clear
  have first := takes.clear s rfl parts.1
  have second := sfcReadData_clear spi s.dev (ct.ctlVal ||| 3) _ _ [] buf size rfl room parts.2
  rw [List.nil_append, List.length_nil, List.nil_append, after_after] at second
  obtain ⟨r, s', run, closing⟩ := sfcEndCmd_selected spi ct s (2 + (ct.header cmd addr).length + wordsFor size)
    (ct.ctlVal ||| 3)
    (spi.receives (4 * wordsFor size) (spi.sends (ct.header cmd addr) (spi.select (rested spi s.dev)))).2
  refine ⟨s', ?_, fun whole => closing (clear_add.mp whole).2⟩
  rw [sfcCmdRd, Prog.run_bind_ok (Prog.attempt_ok first)]
  dsimp only
  rw [Prog.run_bind_ok second, Prog.run_bind_ok run]
  rfl

theorem sfcCmdRd_failed (buf : List Byte) (size k : Nat) (room : size ≤ buf.length)
    (lt : k < 2 + (ct.header cmd addr).length + wordsFor size) (fails : s.FirstFails k) :
    ∃ got e s', got.length ≤ size ∧
      (sfcCmdRd spi ct cmd addr buf size).run s = .ok (got ++ buf.drop got.length, .error e) s' ∧
      ((s.after (k + 1) s.dev).Clear 2 → ∃ c, s' = s.after (k + 3) (s.dev.closed ct c)) := by
  have takes := sfcOpenCmd_takes spi ct s.dev cmd addr
  by_cases early : k < 2 + (ct.header cmd addr).length
  · obtain ⟨e, mid, inside, first⟩ := takes.failed s k rfl early fails
    obtain ⟨r, s', run, closing⟩ := sfcEndCmd_attempt spi ct s.dev (s := s.after (k + 1) mid) inside
    refine ⟨[], e, s', Nat.zero_le size, ?_, fun two => ⟨rested spi mid, ?_⟩⟩
    · rw [sfcCmdRd, Prog.run_bind_ok (Prog.attempt_rc first)]
      dsimp only
      rw [pure_bind, Prog.run_bind_ok run]
      rfl
    · rw [closing two, after_after]
      rfl
  · obtain ⟨j, rfl⟩ : ∃ j, k = 2 + (ct.header cmd addr).length + j := ⟨k - (2 + (ct.header cmd addr).length), by omega⟩
    have first := takes.clear s rfl (fails.1.mono (Nat.le_add_right _ j))
    obtain ⟨got, e, c, few, second⟩ := sfcReadData_failed spi s.dev (ct.ctlVal ||| 3) _ _ [] buf size j rfl room
      (by omega) (fails.shift (d := s.dev.selected (ct.ctlVal ||| 3)
        (spi.sends (ct.header cmd addr) (spi.select (rested spi s.dev)))))
    rw [List.nil_append, List.length_nil, List.nil_append, after_after, ← Nat.add_assoc] at second
    obtain ⟨r, s', run, closing⟩ := sfcEndCmd_selected spi ct s (2 + (ct.header cmd addr).length + j + 1)
      (ct.ctlVal ||| 3) c
    refine ⟨got, e, s', few, ?_, fun two => ⟨spi.deselect c, closing two⟩⟩
    rw [sfcCmdRd, Prog.run_bind_ok (Prog.attempt_ok first)]
    dsimp only
    rw [Prog.run_bind_ok second, Prog.run_bind_ok run]
    rfl

end

/-- An address that fits the address mode is sent so that the chip reads it back. -/
theorem header_address (ct : SfcData) (cmd : Byte) {a : Word} (fits : a.toNat < 256 ^ ct.addrLen) :
    ∃ bs, ct.header cmd (some a) = cmd :: bs ∧ bs.length = ct.addrLen ∧ msbValue bs = a.toNat := by
  refine ⟨msbFirst ct.addrLen a.toNat, rfl, msbFirst_length _ _, ?_⟩
  rw [msbValue_msbFirst, Nat.mod_eq_of_lt fits]

/-- One command is one assertion of CE# in which the chip sees the opcode, the address and the data, or
answers with the bytes that end up in the buffer. A command that fails before its end returns an error,
and leaves the control register in read mode and CE# inactive where the two writes that end it go
through. -/
theorem sfc_cmd_framed {χ : Type} (spi : SpiChip χ) (ct : SfcData) (cmd : Byte) (addr : Option Word)
    (s : Faulty (SpiHost χ)) :
    (∀ a, addr = some a → a.toNat < 256 ^ ct.addrLen →
      ∃ bs, ct.header cmd addr = cmd :: bs ∧ bs.length = ct.addrLen ∧ msbValue bs = a.toNat) ∧
    (∀ data, let out := ct.header cmd addr ++ data
      (s.Clear (2 + out.length + 2) → (sfcCmdWr spi ct cmd addr data).run s =
        .ok () (s.after (2 + out.length + 2) (s.dev.closed ct (spi.transfer out 0 (rested spi s.dev)).2))) ∧
      ∀ k < 2 + out.length, s.FirstFails k → ∃ e s', (sfcCmdWr spi ct cmd addr data).run s = .error (.rc e) s' ∧
        ((s.after (k + 1) s.dev).Clear 2 → s'.dev.regs ceCtrl = ct.ctlReadVal ∧ s'.dev.active = false)) ∧
    ∀ buf size, size ≤ buf.length → let out := ct.header cmd addr
      let n := 2 + out.length + wordsFor size
      (s.Clear (n + 2) → (sfcCmdRd spi ct cmd addr buf size).run s =
        .ok ((spi.transfer out (4 * wordsFor size) (rested spi s.dev)).1.take size ++ buf.drop size, .ok ())
          (s.after (n + 2) (s.dev.closed ct (spi.transfer out (4 * wordsFor size) (rested spi s.dev)).2))) ∧
      ∀ k < n, s.FirstFails k → ∃ got e s', got.length ≤ size ∧
        (sfcCmdRd spi ct cmd addr buf size).run s = .ok (got ++ buf.drop got.length, .error e) s' ∧
        ((s.after (k + 1) s.dev).Clear 2 → s'.dev.regs ceCtrl = ct.ctlReadVal ∧ s'.dev.active = false) := by
  have ended (c : χ) : (s.dev.closed ct c).regs ceCtrl = ct.ctlReadVal ∧ (s.dev.closed ct c).active = false := by
    refine ⟨?_, rfl⟩
    dsimp only [SpiHost.closed]
    rw [Function.update_self]
  refine ⟨?_, fun data => ⟨fun clear => ?_, fun k lt fails => ?_⟩,
    fun buf size room => ⟨fun clear => ?_, fun k lt fails => ?_⟩⟩
  · rintro a rfl fits
    exact header_address ct cmd fits
  · obtain ⟨s', run, closing⟩ := sfcCmdWr_clear spi ct cmd addr s data (clear.mono (Nat.le_add_right _ 2))
    rw [run, closing clear]
  · obtain ⟨e, s', run, closing⟩ := sfcCmdWr_failed spi ct cmd addr s data k lt fails
    refine ⟨e, s', run, fun two => ?_⟩
    obtain ⟨c, rfl⟩ := closing two
    exact ended c
  · obtain ⟨s', run, closing⟩ := sfcCmdRd_clear spi ct cmd addr s buf size room (clear.mono (Nat.le_add_right _ 2))
    rw [run, closing clear]
  · obtain ⟨got, e, s', few, run, closing⟩ := sfcCmdRd_failed spi ct cmd addr s buf size k room lt fails
    refine ⟨got, e, s', few, run, fun two => ?_⟩
    obtain ⟨c, rfl⟩ := closing two
    exact ended c

/-- A chip that answers with zeroes. -/
def SpiChip.silent : SpiChip Unit := ⟨id, id, fun _ => id, fun _ => (0, ()), fun _ _ => 0⟩

/-- With the bus gone from the opcode on, CE# stays active. -/
theorem sfc_cmd_wr_left_active : ¬ ∀ (ct : SfcData) (cmd : Byte) (s : Faulty (SpiHost Unit)) (k : Nat),
    k < 2 + (ct.header cmd none).length → s.FirstFails k →
    ∃ e s', (sfcCmdWr SpiChip.silent ct cmd none []).run s = .error (.rc e) s' ∧
      s'.dev.regs ceCtrl = ct.ctlReadVal ∧ s'.dev.active = false := by
  intro all
  let ct : SfcData := ⟨.fmc, 0x400, 0x400, 0, false, by decide, by decide⟩
  let s : Faulty (SpiHost Unit) :=
    ⟨⟨fun _ => 0x400, false, ()⟩, fun n => if n < 2 then none else some eperm, 0⟩
  have fails : s.FirstFails 2 := by
    refine ⟨fun k lt => ?_, eperm, rfl⟩
    show (if 0 + k < 2 then none else some eperm) = none
    rw [if_pos (by omega)]
  obtain ⟨e, s', run, _, inactive⟩ := all ct cmdWren s 2 (by decide) fails
  have active : ((sfcCmdWr SpiChip.silent ct cmdWren none []).run s).state.dev.active = true := by decide
  rw [run, EStateM.Result.state_error, inactive] at active
  cases active

end Culvert
