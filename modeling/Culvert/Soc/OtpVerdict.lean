import Culvert.Lib.Hoare
import Culvert.Soc.OtpIdle

/-! What `otp_write` says of the words that it reads back. -/

namespace Culvert

open Prog

/-- An OTP controller that is idle whenever it is asked. The words that are read back are any at all, whatever
was programmed. -/
structure ReadbackOtp where
  words : Nat → Word
  reads : Nat

def ReadbackOtp.bus (otp : Otp) : Bus ReadbackOtp where
  readl phys d :=
    if phys = otp.iomem + otpStatus then (otpStatusIdle, d)
    else if phys = otp.iomem + otpCompare1 then (d.words d.reads, { d with reads := d.reads + 1 })
    else (0, d)
  writel _ _ d := d

/-- No access fails, and `n` words were read back. -/
def ReadAt (words : Nat → Word) (n : Nat) (env : OtpEnv ReadbackOtp) : Prop := OtpSound env ∧ env.soc.dev = ⟨words, n⟩

section
variable (otp : Otp) {words : Nat → Word} {n fuel : Nat}

theorem otpReadl_at {offset val : Word} {m : Nat}
    (look : (ReadbackOtp.bus otp).readl (otp.iomem + offset) ⟨words, n⟩ = (val, ⟨words, m⟩)) :
    Leads (ReadAt words n) (otpReadl (ReadbackOtp.bus otp) otp offset) val (ReadAt words m) := by
  rintro env ⟨sound, dev⟩
  obtain ⟨_, soc', run, sound'⟩ := Faulty.access_succeeds ((ReadbackOtp.bus otp).readl (otp.iomem + offset)) env.soc sound
  obtain ⟨value, dev'⟩ := Faulty.access_ok run
  rw [dev, look] at value dev'
  rw [value] at run
  exact ⟨{ env with soc := soc' }, run_zoom_ok run, sound', dev'⟩

theorem otpWritel_at (offset val : Word) :
    Leads (ReadAt words n) (otpWritel (ReadbackOtp.bus otp) otp offset val) () (ReadAt words n) := by
  have record : Leads (ReadAt words n)
      (modify fun env : OtpEnv ReadbackOtp => { env with issued := (offset, val) :: env.issued }) () (ReadAt words n) :=
    Leads.modify fun _ here => here
  refine record.bind ?_
  rintro env ⟨sound, dev⟩
  obtain ⟨_, soc', run, sound'⟩ := Faulty.access_succeeds
    (fun s => ((), (ReadbackOtp.bus otp).writel (otp.iomem + offset) val s)) env.soc sound
  exact ⟨{ env with soc := soc' }, run_zoom_ok run, sound', (Faulty.access_ok run).2.trans dev⟩

theorem otpWaitComplete_at (turns : 0 < fuel) :
    Leads (ReadAt words n) (otpWaitComplete (ReadbackOtp.bus otp) otp fuel) 0 (ReadAt words n) := by
  obtain ⟨fuel, rfl⟩ : ∃ k, fuel = k + 1 := ⟨fuel - 1, by omega⟩
  have status : Leads (ReadAt words n) (otpReadl (ReadbackOtp.bus otp) otp otpStatus) otpStatusIdle (ReadAt words n) :=
    otpReadl_at otp (if_pos rfl)
  have poll (start : Timespec) :
      Leads (ReadAt words n) (otpPoll (ReadbackOtp.bus otp) otp start) (.inr 0) (ReadAt words n) := by
    refine status.bind ?_
    rw [BitVec.and_self, if_pos rfl]
    exact Leads.pure fun _ here => here
  have wait (start : Timespec) : Leads (ReadAt words n)
      (Prog.loop (fun _ => otpPoll (ReadbackOtp.bus otp) otp start) (fuel + 1) ()) 0 (ReadAt words n) := by
    rw [Prog.loop]
    exact (poll start).bind (Leads.pure fun _ here => here)
  rintro env ⟨sound, dev⟩
  exact wait (env.clock env.calls) { env with calls := env.calls + 1 } ⟨sound, dev⟩

theorem otpTrigger_at (turns : 0 < fuel) (command addr val : Word) :
    Leads (ReadAt words n) (otpTrigger (ReadbackOtp.bus otp) otp fuel command addr val) 0 (ReadAt words n) :=
  (otpWritel_at otp _ _).bind ((otpWritel_at otp _ _).bind ((otpWritel_at otp _ _).bind (otpWaitComplete_at otp turns)))

theorem otpSetSoak_at (turns : 0 < fuel) {soak : Nat} (known : soak ≤ 2) :
    Leads (ReadAt words n) (otpSetSoak (ReadbackOtp.bus otp) otp fuel soak) () (ReadAt words n) := by
  rw [otpSetSoak, dif_neg (Nat.not_lt.mpr known)]
  exact (otpTrigger_at otp turns _ _ _).bind ((otpTrigger_at otp turns _ _ _).bind ((otpTrigger_at otp turns _ _ _).bind
    (otpWritel_at otp _ _)))

/-- One call of `otp_read_reg` takes one word. -/
theorem otpReadReg_at (turns : 0 < fuel) (addr : Word) :
    Leads (ReadAt words n) (otpReadReg (ReadbackOtp.bus otp) otp fuel addr) (words n) (ReadAt words (n + 1)) := by
  have apart : otp.iomem + otpCompare1 ≠ otp.iomem + otpStatus := by
    intro same
    have offsets : otpCompare1 = otpStatus := by simpa using same
    exact absurd offsets (by decide)
  refine (otpWritel_at otp _ _).bind ((otpWritel_at otp _ _).bind ((otpWaitComplete_at otp turns).bind (otpReadl_at otp ?_)))
  show (if otp.iomem + otpCompare1 = otp.iomem + otpStatus then _ else _) = _
  rw [if_neg apart, if_pos rfl]

/-- The word that is read back after `tries` tries has a bit of the mask. -/
def Taken (words : Nat → Word) (first : Nat) (bitmask : Word) (tries : Nat) : Prop := words (first + tries) &&& bitmask ≠ 0

theorem otpWriteTry_taken (turns : 0 < fuel) {bitmask : Word} {tries : Nat} (address : Word)
    (taken : Taken words n bitmask tries) : Leads (ReadAt words (n + tries))
      (otpWriteTry (ReadbackOtp.bus otp) otp fuel address bitmask tries) (.inr (tries, 0)) (ReadAt words (n + tries + 1)) := by
  have bit : words (n + tries) &&& bitmask ≠ 0 := taken
  refine (otpReadReg_at otp turns address).bind ?_
  rw [if_pos bit]
  exact Leads.pure fun _ here => here

theorem otpWriteTry_missed (turns : 0 < fuel) {bitmask : Word} {tries : Nat} (address : Word)
    (missed : ¬ Taken words n bitmask tries) : Leads (ReadAt words (n + tries))
      (otpWriteTry (ReadbackOtp.bus otp) otp fuel address bitmask tries)
      (if tries < numProgTries then .inl (tries + 1) else .inr (tries + 1, 0)) (ReadAt words (n + tries + 1)) := by
  have none : ¬ words (n + tries) &&& bitmask ≠ 0 := missed
  refine (otpReadReg_at otp turns address).bind ?_
  rw [if_neg none]
  have soak : (if tries % 2 ≠ 0 then 1 else 2) ≤ 2 := by
    split
    · decide
    · decide
  exact (otpSetSoak_at otp turns soak).bind ((otpTrigger_at otp turns _ _ _).bind (Leads.pure fun _ here => here))

/-- The loop breaks at the first word that is taken. -/
theorem otpWriteLoop_taken (turns : 0 < fuel) {bitmask : Word} {tries left : Nat} (address : Word)
    (taken : Taken words n bitmask (tries + left)) (within : tries + left ≤ numProgTries)
    (missed : ∀ k, tries ≤ k → k < tries + left → ¬ Taken words n bitmask k) : Leads (ReadAt words (n + tries))
      (Prog.loop (otpWriteTry (ReadbackOtp.bus otp) otp fuel address bitmask) (numProgTries + 1 - tries) tries)
      (tries + left, 0) (ReadAt words (n + (tries + left) + 1)) := by
  induction left generalizing tries with
  | zero =>
    obtain ⟨more, turn⟩ : ∃ k, numProgTries + 1 - tries = k + 1 := ⟨numProgTries - tries, by omega⟩
    rw [turn, Prog.loop]
    exact (otpWriteTry_taken otp turns address taken).bind (Leads.pure fun _ here => here)
  | succ left ih =>
    have turn : numProgTries + 1 - tries = numProgTries + 1 - (tries + 1) + 1 := by omega
    have goes : tries < numProgTries := by omega
    have first := otpWriteTry_missed otp turns address (missed tries le_rfl (by omega))
    rw [if_pos goes] at first
    have shift : tries + (left + 1) = tries + 1 + left := by omega
    rw [shift] at taken within missed ⊢
    rw [turn, Prog.loop]
    exact first.bind (ih taken within fun k low high => missed k (by omega) high)

/-- Without a word that is taken the loop makes all of its turns, and counts one more. -/
theorem otpWriteLoop_missed (turns : 0 < fuel) {bitmask : Word} {tries : Nat} (address : Word)
    (within : tries ≤ numProgTries) (missed : ∀ k, tries ≤ k → k ≤ numProgTries → ¬ Taken words n bitmask k) :
    Leads (ReadAt words (n + tries))
      (Prog.loop (otpWriteTry (ReadbackOtp.bus otp) otp fuel address bitmask) (numProgTries + 1 - tries) tries)
      (numProgTries + 1, 0) (ReadAt words (n + numProgTries + 1)) := by
  obtain ⟨left, rest⟩ : ∃ left, left = numProgTries - tries := ⟨_, rfl⟩
  induction left generalizing tries with
  | zero =>
    obtain rfl : tries = numProgTries := by omega
    have last := otpWriteTry_missed otp turns address (missed numProgTries le_rfl le_rfl)
    rw [if_neg (Nat.lt_irrefl _)] at last
    have turn : numProgTries + 1 - numProgTries = 0 + 1 := by omega
    rw [turn, Prog.loop]
    exact last.bind (Leads.pure fun _ here => here)
  | succ left ih =>
    have turn : numProgTries + 1 - tries = numProgTries + 1 - (tries + 1) + 1 := by omega
    have goes : tries < numProgTries := by omega
    have first := otpWriteTry_missed otp turns address (missed tries le_rfl within)
    rw [if_pos goes] at first
    rw [turn, Prog.loop]
    exact first.bind (ih goes (fun k low high => missed k (by omega) high) (by omega))

/-- Of the loop's result only the count is looked at. -/
theorem otpWrite_at (turns : 0 < fuel) {bitmask : Word} {m tries : Nat} (address : Word)
    (loop : Leads (ReadAt words n)
      (Prog.loop (otpWriteTry (ReadbackOtp.bus otp) otp fuel address bitmask) (numProgTries + 1) 0) (tries, 0)
      (ReadAt words m)) : Leads (ReadAt words n) (attempt (otpWrite (ReadbackOtp.bus otp) otp fuel address bitmask))
      (if tries = numProgTries then .error eremoteio else .ok 0) (ReadAt words m) := by
  intro env here
  obtain ⟨env₁, soak, here₁⟩ := otpSetSoak_at otp turns (by decide : 1 ≤ 2) env here
  obtain ⟨env₂, program, here₂⟩ := otpTrigger_at otp turns otpTriggerProgram address (~~~bitmask) env₁ here₁
  obtain ⟨env₃, tried, here₃⟩ := loop env₂ here₂
  obtain ⟨env₄, undo, here₄⟩ := otpSetSoak_at otp turns (by decide : 0 ≤ 2) env₃ here₃
  refine ⟨env₄, ?_, here₄⟩
  have program : (otpProgram (ReadbackOtp.bus otp) otp fuel address (~~~bitmask)).run env₁ = .ok 0 env₂ := program
  by_cases all : tries = numProgTries
  · rw [if_pos all]
    refine attempt_rc ?_
    rw [otpWrite, run_bind_ok soak]
    refine ensuring_error_iff.mpr ⟨env₃, ?_, .ok (), attempt_ok undo⟩
    rw [run_bind_ok program, run_bind_ok tried]
    dsimp only
    rw [if_pos all]
    rfl
  · rw [if_neg all]
    refine attempt_ok ?_
    rw [otpWrite, run_bind_ok soak]
    refine ensuring_ok_iff.mpr ⟨env₃, ?_, .ok (), attempt_ok undo⟩
    rw [run_bind_ok program, run_bind_ok tried]
    dsimp only
    rw [if_neg all]
    rfl

end

/-- The code returned is 0 just where a word read back has a bit of the mask, and `-EREMOTEIO` just where none has. -/
def OtpJudged (words : Nat → Word) (bitmask : Word) (first last : Nat) (rc : Except Errno Nat) : Prop :=
  (rc = .ok 0 ↔ ∃ i, first ≤ i ∧ i < last ∧ words i &&& bitmask ≠ 0) ∧
    (rc = .error eremoteio ↔ ∀ i, first ≤ i → i < last → words i &&& bitmask = 0)

/-- Where the word that is read after `k` tries is the first to be taken. -/
theorem judged_taken {words : Nat → Word} {bitmask : Word} {n k : Nat} (taken : Taken words n bitmask k) :
    OtpJudged words bitmask n (n + k + 1) (if k = numProgTries then .error eremoteio else .ok 0) ↔ k ≠ numProgTries := by
  have read : ∃ i, n ≤ i ∧ i < n + k + 1 ∧ words i &&& bitmask ≠ 0 := ⟨n + k, by omega, by omega, taken⟩
  by_cases last : k = numProgTries
  · rw [if_pos last]
    refine iff_of_false ?_ (not_not.mpr last)
    rintro ⟨zero, _⟩
    cases zero.mpr read
  · rw [if_neg last]
    refine iff_of_true ⟨iff_of_true rfl read, iff_of_false ?_ ?_⟩ last
    · rintro ⟨⟩
    · intro none
      exact taken (none (n + k) (by omega) (by omega))

/-- Where none is. -/
theorem judged_missed {words : Nat → Word} {bitmask : Word} {n m : Nat}
    (missed : ∀ i, n ≤ i → i < m → words i &&& bitmask = 0) : ¬ OtpJudged words bitmask n m (.ok 0) := by
  rintro ⟨zero, _⟩
  obtain ⟨i, low, high, taken⟩ := zero.mp rfl
  exact taken (missed i low high)

theorem otpWrite_judged {otp : Otp} {words : Nat → Word} {n fuel : Nat} (turns : 0 < fuel) (address bitmask : Word)
    {env : OtpEnv ReadbackOtp} (here : ReadAt words n env) :
    ∃ rc env', (attempt (otpWrite (ReadbackOtp.bus otp) otp fuel address bitmask)).run env = .ok rc env' ∧
      (OtpJudged words bitmask n env'.soc.dev.reads rc ↔ ∃ k < numProgTries, words (n + k) &&& bitmask ≠ 0) := by
  classical
  by_cases some : ∃ k, k ≤ numProgTries ∧ Taken words n bitmask k
  · obtain ⟨within, taken⟩ := Nat.find_spec some
    have missed : ∀ k, 0 ≤ k → k < 0 + Nat.find some → ¬ Taken words n bitmask k := by
      intro k _ less hit
      exact Nat.find_min some (by omega) ⟨by omega, hit⟩
    rw [← Nat.zero_add (Nat.find some)] at within taken
    have loop := otpWriteLoop_taken otp turns address taken within missed
    obtain ⟨env', run, _, dev⟩ := otpWrite_at otp turns address loop env here
    refine ⟨_, env', run, ?_⟩
    rw [dev]
    refine (judged_taken taken).trans ⟨fun early => ⟨_, by omega, taken⟩, ?_⟩
    rintro ⟨k, less, hit⟩ last
    exact missed k (Nat.zero_le k) (by omega) hit
  · have missed : ∀ k, 0 ≤ k → k ≤ numProgTries → ¬ Taken words n bitmask k := fun k _ within hit => some ⟨k, within, hit⟩
    have loop := otpWriteLoop_missed otp turns address (Nat.zero_le numProgTries) missed
    obtain ⟨env', run, _, dev⟩ := otpWrite_at otp turns address loop env here
    refine ⟨_, env', run, ?_⟩
    rw [if_neg (by decide), dev]
    refine iff_of_false (judged_missed fun i low high => ?_) ?_
    · have hit := missed (i - n) (Nat.zero_le _) (by dsimp only at high; omega)
      rw [Taken, Nat.add_sub_cancel' low] at hit
      exact not_not.mp hit
    · rintro ⟨k, less, hit⟩
      exact some ⟨k, by omega, hit⟩

/-- The count that `otp_write` looks at is that of a last try that took, not that of tries of which none did: the
code is right just where one of the first 16 words has a bit of the mask. -/
theorem otp_write_verdict (otp : Otp) (address bitmask : Word) (fuel : Nat) (turns : 0 < fuel)
    (env : OtpEnv ReadbackOtp) (sound : OtpSound env) :
    ∃ rc env', (attempt (otpWrite (ReadbackOtp.bus otp) otp fuel address bitmask)).run env = .ok rc env' ∧
      (OtpJudged env.soc.dev.words bitmask env.soc.dev.reads env'.soc.dev.reads rc ↔
        ∃ k < numProgTries, env.soc.dev.words (env.soc.dev.reads + k) &&& bitmask ≠ 0) :=
  otpWrite_judged turns address bitmask ⟨sound, rfl⟩

/-- An OTP controller whose words read back are all `word`. -/
def stuckOtp (word : Word) : OtpEnv ReadbackOtp where
  soc := ⟨⟨fun _ => word, 0⟩, fun _ => none, 0⟩
  issued := []
  clock := fun _ => ⟨0, 0⟩
  naps := fun _ => none
  calls := 0
  stdin := []
  errno := none

theorem otp_write_verdict_ones : ∃ rc env',
    (attempt (otpWrite (ReadbackOtp.bus (otpDriverInit 2)) (otpDriverInit 2) 1 0x800 1)).run (stuckOtp 1) = .ok rc env' ∧
      (OtpJudged (fun _ => 1) 1 0 env'.soc.dev.reads rc ↔ ∃ k < numProgTries, (1 : Word) &&& 1 ≠ 0) :=
  otp_write_verdict (otpDriverInit 2) 0x800 1 1 (by decide) (stuckOtp 1) fun _ => rfl

/-- A bit that never takes is reported as written. -/
theorem otp_write_misjudges : ¬ ∀ (env env' : OtpEnv ReadbackOtp) (rc : Except Errno Nat), OtpSound env →
    (attempt (otpWrite (ReadbackOtp.bus (otpDriverInit 2)) (otpDriverInit 2) 1 0x800 1)).run env = .ok rc env' →
      OtpJudged env.soc.dev.words 1 env.soc.dev.reads env'.soc.dev.reads rc := by
  intro all
  have sound : OtpSound (stuckOtp 0) := fun _ => rfl
  obtain ⟨rc, env', run, judged⟩ := otpWrite_judged (by decide : 0 < 1) 0x800 1 ⟨sound, rfl⟩
  obtain ⟨k, _, taken⟩ := judged.mp (all _ env' rc sound run)
  exact taken rfl

end Culvert
