import Culvert.Hw.OtpChip
import Culvert.Lib.Bits
import Culvert.Lib.Fuses
import Culvert.Lib.Run
import Culvert.Soc.OtpConfirm

namespace Culvert

/-- Where no access fails, `m` returns `a`, takes the words behind the controller from `words` to
`words'` and reads no input. -/
def OtpWords {α : Type} (words : Word → Word) (m : Prog (OtpEnv OtpChip) α) (a : α) (words' : Word → Word) : Prop :=
  ∀ chip, chip.words = words → ∃ chip', OtpYields chip m a chip' ∧ chip'.words = words'

namespace OtpWords
variable {α β : Type} {words words₁ words' : Word → Word} {m : Prog (OtpEnv OtpChip) α}
variable {f : α → Prog (OtpEnv OtpChip) β} {a : α} {b : β} {e : Errno}

theorem pure (a : α) : OtpWords words (pure a) a words := fun chip here => ⟨chip, .pure a, here⟩

theorem bind (first : OtpWords words m a words₁) (next : OtpWords words₁ (f a) b words') :
    OtpWords words (m >>= f) b words' := by
  intro chip here
  obtain ⟨chip₁, yields, here₁⟩ := first chip here
  obtain ⟨chip', yields', here'⟩ := next chip₁ here₁
  exact ⟨chip', yields.bind yields', here'⟩

theorem attempt (first : OtpWords words m a words') : OtpWords words (Prog.attempt m) (.ok a) words' := by
  intro chip here
  obtain ⟨chip', yields, here'⟩ := first chip here
  refine ⟨chip', fun env sound dev => ?_, here'⟩
  obtain ⟨env', run, rest⟩ := yields env sound dev
  exact ⟨env', Prog.attempt_ok run, rest⟩

theorem ensuring {cleanup : Prog (OtpEnv OtpChip) Unit} (first : OtpWords words m a words₁)
    (last : OtpWords words₁ cleanup () words') : OtpWords words (Prog.ensuring m cleanup) a words' :=
  first.attempt.bind (last.attempt.bind (.pure a))

theorem attempt_fail (e : Errno) : OtpWords words (Prog.attempt (Prog.fail e : Prog (OtpEnv OtpChip) α)) (.error e) words :=
  fun chip here => ⟨chip, fun env sound dev => ⟨env, rfl, sound, dev, rfl⟩, here⟩

end OtpWords

/-- Where no access fails and the input says `YES`, `m` returns `a` and takes the words from `words`
to `words'`. -/
def OtpConfirmed {α : Type} (words : Word → Word) (m : Prog (OtpEnv OtpChip) α) (a : α) (words' : Word → Word) : Prop :=
  ∀ env, OtpSound env → otpToken env.stdin = some "YES".toList → env.soc.dev.words = words →
    ∃ env', m.run env = .ok a env' ∧ OtpSound env' ∧ env'.soc.dev.words = words'

namespace OtpConfirmed
variable {α β : Type} {words words₁ words' : Word → Word} {m : Prog (OtpEnv OtpChip) α}
variable {f : α → Prog (OtpEnv OtpChip) β} {a : α} {b : β} {e : Errno}

theorem of_words (yields : OtpWords words m a words') : OtpConfirmed words m a words' := by
  intro env sound _ here
  obtain ⟨chip', run, here'⟩ := yields env.soc.dev here
  obtain ⟨env', run', sound', dev, _⟩ := run env sound rfl
  exact ⟨env', run', sound', by rw [dev]; exact here'⟩

theorem attempt_bind (first : OtpWords words m a words₁) {r : Except Errno β}
    (next : OtpConfirmed words₁ (Prog.attempt (f a)) r words') : OtpConfirmed words (Prog.attempt (m >>= f)) r words' := by
  intro env sound token here
  obtain ⟨chip₁, yields, here₁⟩ := first env.soc.dev here
  obtain ⟨env₁, run, sound₁, dev₁, input⟩ := yields env sound rfl
  rw [← input] at token
  obtain ⟨env', run', rest⟩ := next env₁ sound₁ token (by rw [dev₁]; exact here₁)
  refine ⟨env', ?_, rest⟩
  rw [Prog.run_attempt] at run' ⊢
  rw [Prog.run_bind_ok run, run']

/-- Past the confirmation, what follows is carried out. -/
theorem confirm {m : Prog (OtpEnv OtpChip) α} (action : OtpWords words m a words') :
    OtpConfirmed words (Prog.attempt (do otpConfirm; m)) (.ok a) words' := by
  intro env sound token here
  have run := otpConfirm_passes (Or.inl token)
  obtain ⟨chip', yields, here'⟩ := action env.soc.dev here
  obtain ⟨env', run', sound', dev, _⟩ := yields { env with stdin := (Text.scanWord 7 env.stdin).2 } sound rfl
  refine ⟨env', Prog.attempt_ok ?_, sound', by rw [dev]; exact here'⟩
  rw [Prog.run_bind_ok run, run']

end OtpConfirmed

/-- The word of the configuration at `offset`. -/
def otpConfig (words : Word → Word) (offset : Word) : Word := words (otpConfigAddr offset)

section
variable {words : Word → Word} {stepping fuel : Nat}

theorem otpReadReg_words (addr : Word) :
    OtpWords words (otpReadReg OtpChip.bus (otpDriverInit stepping) (fuel + 1) addr) (words addr) words := by
  rintro chip rfl
  exact ⟨_, otpReadReg_yields _, rfl⟩

theorem otpReadConfig_words (offset : Word) :
    OtpWords words (otpReadConfig OtpChip.bus (otpDriverInit stepping) (fuel + 1) offset) (otpConfig words offset) words :=
  otpReadReg_words _

theorem otpProgram_words (addr val : Word) :
    OtpWords words (otpProgram OtpChip.bus (otpDriverInit stepping) (fuel + 1) addr val) 0
      (Function.update words addr (words addr ||| ~~~val)) := by
  rintro chip rfl
  exact ⟨_, otpTrigger_yields _ _ _, rfl⟩

theorem otpWritel_words {offset : Word} (other : otpChipBase + offset ≠ otpChipBase + otpCommand) (val : Word) :
    OtpWords words (otpWritel OtpChip.bus (otpDriverInit stepping) offset val) () words := by
  rintro chip rfl
  refine ⟨_, otpWritel_yields _ _, ?_⟩
  show OtpChip.words (if _ then _ else if _ then _ else if _ then _ else _) = _
  rw [if_neg other]
  split
  · rfl
  · split <;> rfl

theorem otpWriteReg_words (addr val : Word) :
    OtpWords words (otpWriteReg OtpChip.bus (otpDriverInit stepping) (fuel + 1) addr val) 0 words := by
  rintro chip rfl
  exact ⟨_, otpTrigger_yields _ _ _, rfl⟩

theorem otpSetSoak_words {soak : Nat} (known : soak ≤ 2) :
    OtpWords words (otpSetSoak OtpChip.bus (otpDriverInit stepping) (fuel + 1) soak) () words := by
  unfold otpSetSoak
  rw [dif_neg (Nat.not_lt.mpr known)]
  exact (otpWriteReg_words _ _).bind ((otpWriteReg_words _ _).bind ((otpWriteReg_words _ _).bind
    (otpWritel_words (by decide) _)))

/-- Locking the controller again changes neither the result nor the words. -/
theorem otpUnlocked_confirmed {α : Type} {body : Prog (OtpEnv OtpChip) α} {r : Except Errno α} {words' : Word → Word}
    (inner : OtpConfirmed words (Prog.attempt body) r words') :
    OtpConfirmed words (Prog.attempt (otpUnlocked OtpChip.bus (otpDriverInit stepping) body)) r words' := by
  have key (words : Word → Word) (val : Word) :
      OtpWords words (otpWritel OtpChip.bus (otpDriverInit stepping) otpProtectKey val) () words :=
    otpWritel_words (by decide) val
  refine OtpConfirmed.attempt_bind (key words otpPasswd) fun env sound token here => ?_
  obtain ⟨env₁, run₁, sound₁, here₁⟩ := inner env sound token here
  obtain ⟨_, lock, _⟩ := key words' 0 env₁.soc.dev here₁
  obtain ⟨env', run', sound', dev, _⟩ := lock env₁ sound₁ rfl
  refine ⟨env', ?_, sound', ?_⟩
  · have last := Prog.attempt_ok run'
    cases r with
    | ok a => exact Prog.attempt_ok (Prog.ensuring_ok_iff.mpr ⟨env₁, Prog.attempt_ok_iff.mp run₁, _, last⟩)
    | error e => exact Prog.attempt_rc (Prog.ensuring_error_iff.mpr ⟨env₁, Prog.attempt_error_iff.mp run₁, _, last⟩)
  · rw [dev]
    assumption

/-- A write sets its bit at the first attempt. -/
theorem otpWrite_words (address : Word) {mask : Word} (some : mask ≠ 0) :
    OtpWords words (otpWrite OtpChip.bus (otpDriverInit stepping) (fuel + 1) address mask) 0
      (Function.update words address (words address ||| mask)) := by
  have program : OtpWords words (otpProgram OtpChip.bus (otpDriverInit stepping) (fuel + 1) address (~~~mask)) 0
      (Function.update words address (words address ||| mask)) := by
    have programmed := @otpProgram_words words stepping fuel address (~~~mask)
    rwa [BitVec.not_not] at programmed
  have set : Function.update words address (words address ||| mask) address &&& mask ≠ 0 := by
    rw [Function.update_self, BitVec.or_and_self_right]
    exact some
  refine (otpSetSoak_words (by decide)).bind (.ensuring (program.bind ?_) (otpSetSoak_words (by decide)))
  have turn : OtpWords (Function.update words address (words address ||| mask))
      (otpWriteTry OtpChip.bus (otpDriverInit stepping) (fuel + 1) address mask 0) (.inr (0, 0))
      (Function.update words address (words address ||| mask)) := by
    refine (otpReadReg_words address).bind ?_
    rw [if_pos set]
    exact .pure _
  exact (turn.bind (.pure (0, 0))).bind (.pure 0)

end

/-- The half that a strap is in, and its bit there. -/
def strapHalf (bit : Word) : Word := if bit.toNat > 31 then 1 else 0

def strapMask (bit : Word) : Word := (1 : Word) <<< (if bit.toNat > 31 then bit - 32 else bit)

/-- The address of one of the six option words of a half. -/
def strapOption (half : Word) (i : Nat) : Word := otpConfigAddr (.ofNat 32 (16 + i * 2) + half)

def strapProtect (half : Word) : Word := otpConfigAddr (30 + half)

/-- The option bits of a strap, from the `i`-th on. -/
def strapBits (words : Word → Word) (half mask : Word) (i left : Nat) : List Bool :=
  (List.range' i left).map fun j => words (strapOption half j) &&& mask ≠ 0

/-- The six option bits of a strap are a bank of fuses. -/
def strapBank (words : Word → Word) (bit : Word) : List Bool := strapBits words (strapHalf bit) (strapMask bit) 0 6

def strapValue (words : Word → Word) (bit : Word) : Bool := Fuses.value (strapBank words bit)

def strapProtected (words : Word → Word) (bit : Word) : Prop := words (strapProtect (strapHalf bit)) &&& strapMask bit ≠ 0

instance (words : Word → Word) (bit : Word) : Decidable (strapProtected words bit) := inferInstanceAs (Decidable (_ ≠ _))

/-- What the loop over the options finds. -/
def strapScan (words : Word → Word) (half mask : Word) : Nat → Nat → Word × Option Nat → Word × Option Nat
  | 0, _, acc => acc
  | left + 1, i, (res, f) => strapScan words half mask left (i + 1)
    (res ^^^ words (strapOption half i), if f.isNone ∧ words (strapOption half i) &&& mask = 0 then some i else f)

section
variable {words : Word → Word} {stepping fuel : Nat} {half mask bit : Word}

theorem otpStrapOptions_words (left i : Nat) (acc : Word × Option Nat) :
    OtpWords words (otpStrapOptions OtpChip.bus (otpDriverInit stepping) (fuel + 1) half mask left i acc)
      (strapScan words half mask left i acc) words := by
  induction left generalizing i acc with
  | zero => exact .pure acc
  | succ left ih => exact (otpReadConfig_words _).bind (ih (i + 1) _)

theorem strapMask_eq (bit : Word) (low : bit.toNat < 64) : strapMask bit = BitVec.twoPow 32 (bit.toNat % 32) := by
  have shift : (if bit.toNat > 31 then bit - 32 else bit).toNat = bit.toNat % 32 := by
    split
    · rw [BitVec.toNat_sub]
      have small : (32 : Word).toNat = 32 := rfl
      omega
    · omega
  unfold strapMask
  rw [show (1 : Word) <<< (if bit.toNat > 31 then bit - 32 else bit) =
    1#32 <<< (if bit.toNat > 31 then bit - 32 else bit).toNat from rfl, shift]
  rfl

theorem and_strapMask_ne_zero_iff (low : bit.toNat < 64) (x : Word) :
    x &&& strapMask bit ≠ 0 ↔ x.getLsbD (bit.toNat % 32) = true := by
  rw [strapMask_eq bit low, BitVec.and_twoPow]
  cases x.getLsbD (bit.toNat % 32) with
  | false => simp
  | true =>
    simp only [if_true, iff_true]
    intro zero
    have one : (BitVec.twoPow 32 (bit.toNat % 32)).getLsbD (bit.toNat % 32) = true := by
      rw [BitVec.getLsbD_twoPow]
      simp
      omega
    rw [zero] at one
    simp at one

theorem strapBits_succ (i left : Nat) : strapBits words half mask i (left + 1) =
    decide (words (strapOption half i) &&& mask ≠ 0) :: strapBits words half mask (i + 1) left := by
  unfold strapBits
  rw [List.range'_succ, List.map_cons]

/-- The exclusive or of the words holds the value of the bank. -/
theorem strapScan_value (low : bit.toNat < 64) (left i : Nat) (res : Word) (f : Option Nat) :
    (strapScan words half (strapMask bit) left i (res, f)).1.getLsbD (bit.toNat % 32) =
      xor (res.getLsbD (bit.toNat % 32)) (Fuses.value (strapBits words half (strapMask bit) i left)) := by
  induction left generalizing i res f with
  | zero => exact (Bool.xor_false _).symm
  | succ left ih =>
    unfold strapScan
    rw [ih, strapBits_succ, BitVec.getLsbD_xor, Bool.xor_assoc]
    congr 1
    have head : decide (words (strapOption half i) &&& strapMask bit ≠ 0) =
        (words (strapOption half i)).getLsbD (bit.toNat % 32) := by
      rw [Bool.eq_iff_iff, decide_eq_true_eq]
      exact and_strapMask_ne_zero_iff low _
    rw [head]
    rfl

/-- The option found is the first spare one. -/
theorem strapScan_spare (left i : Nat) (res : Word) (f : Option Nat) :
    (strapScan words half mask left i (res, f)).2 =
      f.or ((Fuses.spare (strapBits words half mask i left)).map (· + i)) := by
  induction left generalizing i res f with
  | zero => exact (Option.or_none).symm
  | succ left ih =>
    unfold strapScan
    rw [ih, strapBits_succ]
    unfold Fuses.spare
    rw [List.findIdx?_cons]
    cases f with
    | some n => rfl
    | none =>
      by_cases clear : words (strapOption half i) &&& mask = 0
      · simp [clear]
      · simp only [clear, Option.isNone_none, and_false, if_false, ne_eq, not_false_eq_true, decide_true, Bool.not_true,
          Bool.false_eq_true, Option.none_or, Option.map_map]
        congr 1
        funext n
        show n + (i + 1) = n + 1 + i
        omega

end

/-- What a confirmed call returns and makes of the words. -/
def strapOutcome (words : Word → Word) (bit val : Word) : Except Errno Nat × (Word → Word) :=
  if bit.toNat ≥ 64 ∨ val.toNat > 1 then (.error einval, words)
  else if strapProtected words bit then (.error eacces, words)
  else match Fuses.spare (strapBank words bit) with
    | none => (.error eperm, words)
    | some f =>
      if strapValue words bit = decide (val ≠ 0) then (.error ealready, words)
      else (.ok 0, Function.update words (strapOption (strapHalf bit) f)
        (words (strapOption (strapHalf bit) f) ||| strapMask bit))

section
variable {words : Word → Word} {stepping fuel : Nat} {bit val : Word}

theorem strapMask_ne_zero (low : bit.toNat < 64) : strapMask bit ≠ 0 := by
  have own := (and_strapMask_ne_zero_iff low (strapMask bit)).mpr
  rw [BitVec.and_self] at own
  refine own ?_
  rw [strapMask_eq bit low, BitVec.getLsbD_twoPow]
  simp
  omega

theorem strapScan_bank (words : Word → Word) (low : bit.toNat < 64) : ∃ res,
    strapScan words (strapHalf bit) (strapMask bit) 6 0 (0, none) = (res, Fuses.spare (strapBank words bit)) ∧
      (res &&& strapMask bit ≠ 0 ↔ strapValue words bit = true) := by
  refine ⟨_, Prod.ext rfl ?_, ?_⟩
  · rw [strapScan_spare, Option.none_or]
    exact Option.map_id'
  · have none : BitVec.getLsbD (0 : Word) (bit.toNat % 32) = false := BitVec.getLsbD_zero
    rw [and_strapMask_ne_zero_iff low, strapScan_value low, none, Bool.false_xor]
    rfl

theorem otpWriteStrap_confirmed : OtpConfirmed words
    (Prog.attempt (otpWriteStrap OtpChip.bus (otpDriverInit stepping) (fuel + 1) bit val))
    (strapOutcome words bit val).1 (strapOutcome words bit val).2 := by
  unfold otpWriteStrap strapOutcome
  by_cases range : bit.toNat ≥ 64 ∨ val.toNat > 1
  · simp only [if_pos range]
    exact .of_words (.attempt_fail einval)
  simp only [if_neg range]
  have low : bit.toNat < 64 := by omega
  refine otpUnlocked_confirmed (.attempt_bind (otpReadConfig_words _) ?_)
  by_cases locked : strapProtected words bit
  · simp only [if_pos locked]
    have refused : otpConfig words (30 + strapHalf bit) &&& strapMask bit ≠ 0 := locked
    refine .of_words ?_
    show OtpWords words (Prog.attempt (if otpConfig words (30 + strapHalf bit) &&& strapMask bit ≠ 0 then _ else _)) _ _
    rw [if_pos refused]
    exact .attempt_fail eacces
  simp only [if_neg locked]
  have allowed : ¬ otpConfig words (30 + strapHalf bit) &&& strapMask bit ≠ 0 := locked
  show OtpConfirmed words (Prog.attempt (if otpConfig words (30 + strapHalf bit) &&& strapMask bit ≠ 0 then _ else _)) _ _
  rw [if_neg allowed]
  obtain ⟨res, scan, value⟩ := strapScan_bank words low
  refine .attempt_bind (otpStrapOptions_words 6 0 (0, none)) ?_
  unfold strapHalf strapMask at scan
  rw [scan]
  cases spare : Fuses.spare (strapBank words bit) with
  | none => exact .of_words (.attempt_fail eperm)
  | some f =>
    have already : res &&& strapMask bit ≠ 0 ∧ val ≠ 0 ∨ val = 0 ∧ res &&& strapMask bit = 0 ↔
        strapValue words bit = decide (val ≠ 0) := by
      by_cases set : res &&& strapMask bit = 0
      · have zero : strapValue words bit = false := by
          rw [← Bool.not_eq_true, ← value]
          exact fun h => h set
        simp [set, zero]
      · have one : ¬ res &&& strapMask bit = 0#32 := set
        simp [one, value.mp set]
    have some : strapMask bit ≠ 0 := strapMask_ne_zero low
    dsimp only
    by_cases same : strapValue words bit = decide (val ≠ 0)
    · rw [if_pos same]
      refine .of_words ?_
      show OtpWords words (Prog.attempt (if res &&& strapMask bit ≠ 0 ∧ val ≠ 0 ∨ val = 0 ∧ res &&& strapMask bit = 0
        then _ else _)) _ _
      rw [if_pos (already.mpr same)]
      exact .attempt_fail ealready
    · rw [if_neg same]
      show OtpConfirmed words (Prog.attempt (if res &&& strapMask bit ≠ 0 ∧ val ≠ 0 ∨ val = 0 ∧ res &&& strapMask bit = 0
        then _ else _)) _ _
      rw [if_neg fun h => same (already.mp h)]
      exact .confirm (otpWrite_words _ some)

end

/-- A call of `otp_write_strap`, and what it returned. -/
structure OtpStrapCall where
  bit : Word
  val : Word
  result : Except Errno Nat

/-- A confirmed call on a bus without failures. -/
def StrapStep (stepping fuel : Nat) (words : Word → Word) (call : OtpStrapCall) (words' : Word → Word) : Prop :=
  ∃ env env', OtpSound env ∧ otpToken env.stdin = some "YES".toList ∧ env.soc.dev.words = words ∧
    (Prog.attempt (otpWriteStrap OtpChip.bus (otpDriverInit stepping) (fuel + 1) call.bit call.val)).run env =
      .ok call.result env' ∧ env'.soc.dev.words = words'

/-- A call that returns 0 was about an unprotected bit that differed from the value, and flips it by
setting one option bit; a call that returns an error changes nothing. -/
structure StrapFlips (words : Word → Word) (call : OtpStrapCall) (words' : Word → Word) : Prop where
  done : ∀ rc, call.result = .ok rc → rc = 0 ∧ ¬ strapProtected words call.bit ∧
    strapValue words call.bit ≠ decide (call.val ≠ 0) ∧ strapValue words' call.bit = decide (call.val ≠ 0) ∧
    ∃ i < 6, words (strapOption (strapHalf call.bit) i) &&& strapMask call.bit = 0 ∧
      words' = Function.update words (strapOption (strapHalf call.bit) i)
        (words (strapOption (strapHalf call.bit) i) ||| strapMask call.bit)
  refused : ∀ e, call.result = .error e → words' = words

/-- How often a strap was changed. -/
def strapChanges (bit : Word) (calls : List OtpStrapCall) : Nat :=
  calls.countP fun call => call.bit = bit ∧ call.result matches .ok _

section
variable {words words' : Word → Word} {stepping fuel : Nat} {bit val : Word} {call : OtpStrapCall}

theorem StrapStep.outcome (step : StrapStep stepping fuel words call words') :
    call.result = (strapOutcome words call.bit call.val).1 ∧ words' = (strapOutcome words call.bit call.val).2 := by
  obtain ⟨env, env', sound, token, rfl, run, rfl⟩ := step
  have outcome := @otpWriteStrap_confirmed env.soc.dev.words stepping fuel call.bit call.val
  obtain ⟨env'', run', _, here⟩ := outcome env sound token rfl
  rw [run] at run'
  obtain ⟨same, rfl⟩ := EStateM.Result.ok.inj run'
  exact ⟨same, here⟩

theorem strapHalf_cases (bit : Word) : strapHalf bit = 0 ∨ strapHalf bit = 1 := by
  unfold strapHalf
  split
  · exact Or.inr rfl
  · exact Or.inl rfl

/-- The option words and the protect words are different ones. -/
theorem strapOption_inj (bit bit' : Word) : ∀ i < 6, ∀ j < 6,
    strapOption (strapHalf bit) i = strapOption (strapHalf bit') j → strapHalf bit = strapHalf bit' ∧ i = j := by
  rcases strapHalf_cases bit with first | first
  all_goals
    rcases strapHalf_cases bit' with second | second
    all_goals
      rw [first, second]
      decide

theorem strapProtect_ne_option (bit bit' : Word) : ∀ i < 6,
    strapProtect (strapHalf bit') ≠ strapOption (strapHalf bit) i := by
  rcases strapHalf_cases bit with first | first
  all_goals
    rcases strapHalf_cases bit' with second | second
    all_goals
      rw [first, second]
      decide

theorem strapBank_length (words : Word → Word) (bit : Word) : (strapBank words bit).length = 6 := by
  unfold strapBank strapBits
  rw [List.length_map, List.length_range']

theorem strapBank_getElem {i : Nat} (inside : i < (strapBank words bit).length) :
    (strapBank words bit)[i] = decide (words (strapOption (strapHalf bit) i) &&& strapMask bit ≠ 0) := by
  simp [strapBank, strapBits]

/-- Setting an option bit blows its fuse, and no fuse of another strap. -/
theorem strapBank_set (low : bit.toNat < 64) {f : Nat} (option : f < 6) :
    strapBank (Function.update words (strapOption (strapHalf bit) f)
      (words (strapOption (strapHalf bit) f) ||| strapMask bit)) bit = (strapBank words bit).set f true := by
  refine List.ext_getElem (by rw [List.length_set, strapBank_length, strapBank_length]) fun i inside _ => ?_
  rw [strapBank_length] at inside
  rw [strapBank_getElem, List.getElem_set]
  by_cases same : f = i
  · subst same
    rw [if_pos rfl, Function.update_self, BitVec.or_and_self_right]
    exact decide_eq_true (strapMask_ne_zero low)
  · rw [if_neg same, strapBank_getElem, Function.update_of_ne]
    intro collide
    exact same (strapOption_inj bit bit i inside f option collide).2.symm

theorem strapBank_other {other : Word} (low : bit.toNat < 64) (low' : other.toNat < 64) (apart : other ≠ bit) {f : Nat}
    (option : f < 6) : strapBank (Function.update words (strapOption (strapHalf bit) f)
      (words (strapOption (strapHalf bit) f) ||| strapMask bit)) other = strapBank words other := by
  refine List.ext_getElem (by rw [strapBank_length, strapBank_length]) fun i inside _ => ?_
  rw [strapBank_length] at inside
  rw [strapBank_getElem, strapBank_getElem]
  by_cases collide : strapOption (strapHalf other) i = strapOption (strapHalf bit) f
  · obtain ⟨half, rfl⟩ := strapOption_inj other bit i inside f option collide
    rw [collide, Function.update_self]
    have bits : other.toNat % 32 ≠ bit.toNat % 32 := by
      intro same
      refine apart (BitVec.eq_of_toNat_eq ?_)
      unfold strapHalf at half
      split at half <;> split at half
      · omega
      · cases half
      · cases half
      · omega
    rw [decide_eq_decide, and_strapMask_ne_zero_iff low', and_strapMask_ne_zero_iff low', BitVec.getLsbD_or,
      strapMask_eq bit low, BitVec.getLsbD_twoPow]
    simp [bits.symm]
  · rw [Function.update_of_ne collide]

/-- What the outcome of a call tells. -/
theorem strapOutcome_cases (words : Word → Word) (bit val : Word) :
    (∃ e, strapOutcome words bit val = (.error e, words)) ∨
    (bit.toNat < 64 ∧ ¬ strapProtected words bit ∧ strapValue words bit ≠ decide (val ≠ 0) ∧
      ∃ f, Fuses.spare (strapBank words bit) = some f ∧
        strapOutcome words bit val = (.ok 0, Function.update words (strapOption (strapHalf bit) f)
          (words (strapOption (strapHalf bit) f) ||| strapMask bit))) := by
  unfold strapOutcome
  by_cases range : bit.toNat ≥ 64 ∨ val.toNat > 1
  · rw [if_pos range]
    exact Or.inl ⟨_, rfl⟩
  rw [if_neg range]
  by_cases locked : strapProtected words bit
  · rw [if_pos locked]
    exact Or.inl ⟨_, rfl⟩
  rw [if_neg locked]
  cases spare : Fuses.spare (strapBank words bit) with
  | none => exact Or.inl ⟨_, rfl⟩
  | some f =>
    dsimp only
    by_cases same : strapValue words bit = decide (val ≠ 0)
    · rw [if_pos same]
      exact Or.inl ⟨_, rfl⟩
    · rw [if_neg same]
      exact Or.inr ⟨by omega, locked, same, f, rfl, rfl⟩

theorem StrapStep.flips (step : StrapStep stepping fuel words call words') : StrapFlips words call words' := by
  obtain ⟨result, rfl⟩ := step.outcome
  rcases strapOutcome_cases words call.bit call.val with ⟨e, refused⟩ | ⟨low, unlocked, differs, f, spare, done⟩
  · rw [refused] at result ⊢
    exact ⟨fun rc ok => (nomatch result.symm.trans ok), fun _ _ => rfl⟩
  · rw [done] at result ⊢
    refine ⟨fun rc ok => ?_, fun e failed => (nomatch result.symm.trans failed)⟩
    obtain rfl : 0 = rc := Except.ok.inj (result.symm.trans ok)
    have option : f < 6 := by
      rw [← strapBank_length words call.bit]
      exact Fuses.spare_lt spare
    have clear := Fuses.spare_clear spare
    refine ⟨rfl, unlocked, differs, ?_, f, option, ?_, rfl⟩
    · unfold strapValue at differs ⊢
      rw [strapBank_set low option, Fuses.value_set clear]
      generalize decide (call.val ≠ 0) = wanted at differs ⊢
      generalize Fuses.value (strapBank words call.bit) = held at differs ⊢
      cases held <;> cases wanted <;> first | rfl | exact (differs rfl).elim
    · rw [List.getElem?_eq_getElem (Fuses.spare_lt spare), strapBank_getElem] at clear
      simpa using clear

/-- Each change of a strap blows one of its fuses. Nothing else does, and nothing protects it. -/
theorem StrapStep.blown (step : StrapStep stepping fuel words call words') (low : bit.toNat < 64) :
    Fuses.blown (strapBank words' bit) = Fuses.blown (strapBank words bit) + strapChanges bit [call] ∧
      (strapProtected words' bit ↔ strapProtected words bit) ∧
      (0 < strapChanges bit [call] → ¬ strapProtected words bit) := by
  obtain ⟨result, rfl⟩ := step.outcome
  rcases strapOutcome_cases words call.bit call.val with ⟨e, refused⟩ | ⟨low', unlocked, _, f, spare, done⟩
  · rw [refused] at result ⊢
    have none : strapChanges bit [call] = 0 := by
      unfold strapChanges
      rw [List.countP_singleton, result]
      simp
    rw [none]
    exact ⟨rfl, Iff.rfl, fun h => absurd h (Nat.lt_irrefl 0)⟩
  · rw [done] at result ⊢
    have option : f < 6 := by
      rw [← strapBank_length words call.bit]
      exact Fuses.spare_lt spare
    have protect : strapProtected (Function.update words (strapOption (strapHalf call.bit) f)
        (words (strapOption (strapHalf call.bit) f) ||| strapMask call.bit)) bit ↔ strapProtected words bit := by
      unfold strapProtected
      rw [Function.update_of_ne (strapProtect_ne_option call.bit bit f option)]
    refine ⟨?_, protect, ?_⟩
    · by_cases own : call.bit = bit
      · have one : strapChanges bit [call] = 1 := by
          unfold strapChanges
          rw [List.countP_singleton, result]
          simp [own]
        subst own
        rw [strapBank_set low option, Fuses.blown_set (Fuses.spare_clear spare), one]
      · have none : strapChanges bit [call] = 0 := by
          unfold strapChanges
          rw [List.countP_singleton]
          simp [own]
        rw [strapBank_other low' low (fun same => own same.symm) option, none, Nat.add_zero]
    · intro changed
      by_cases own : call.bit = bit
      · subst own
        exact unlocked
      · unfold strapChanges at changed
        rw [List.countP_singleton] at changed
        simp [own] at changed

theorem strapChanges_cons (bit : Word) (call : OtpStrapCall) (calls : List OtpStrapCall) :
    strapChanges bit (call :: calls) = strapChanges bit [call] + strapChanges bit calls := by
  unfold strapChanges
  rw [← List.countP_append]
  rfl

/-- In a run, the fuses blown count the changes. -/
theorem strapRun_blown {calls : List OtpStrapCall} (low : bit.toNat < 64)
    (run : Run (StrapStep stepping fuel) words calls words') :
    Fuses.blown (strapBank words' bit) = Fuses.blown (strapBank words bit) + strapChanges bit calls ∧
      (strapProtected words' bit ↔ strapProtected words bit) ∧
      (0 < strapChanges bit calls → ¬ strapProtected words bit) := by
  induction run with
  | nil words => exact ⟨rfl, Iff.rfl, fun h => absurd h (Nat.lt_irrefl 0)⟩
  | cons step _ ih =>
    obtain ⟨blown, protect, unlocked⟩ := step.blown low
    obtain ⟨blown', protect', unlocked'⟩ := ih
    rw [strapChanges_cons]
    refine ⟨by omega, protect'.trans protect, fun changed => ?_⟩
    rcases Nat.eq_zero_or_pos (strapChanges bit [_]) with zero | some
    · rw [zero, Nat.zero_add] at changed
      rw [← protect]
      exact unlocked' changed
    · exact unlocked some

/-- A strap that does not exist is never changed. -/
theorem strapRun_high {calls : List OtpStrapCall} (high : 64 ≤ bit.toNat)
    (run : Run (StrapStep stepping fuel) words calls words') : strapChanges bit calls = 0 := by
  induction run with
  | nil words => rfl
  | @cons _ _ _ call _ step _ ih =>
    rw [strapChanges_cons, ih, Nat.add_zero]
    unfold strapChanges
    rw [List.countP_singleton]
    by_cases own : call.bit = bit
    · have refused : call.result = .error einval := by
        rw [step.outcome.1]
        unfold strapOutcome
        rw [if_pos (Or.inl (by rw [own]; exact high))]
      simp [refused]
    · simp [own]

end

/-- The effective strap is kept over any run of confirmed calls: each returns, a 0 means that the bit
was flipped by one fuse, an error that nothing changed, and the six fuses of a bit that were clear at
the start are used up by six changes. -/
theorem otp_strap_fuses (stepping fuel : Nat) :
    (∀ env, OtpSound env → otpToken env.stdin = some "YES".toList → ∀ bit val, ∃ result env',
      (Prog.attempt (otpWriteStrap OtpChip.bus (otpDriverInit stepping) (fuel + 1) bit val)).run env = .ok result env') ∧
    (∀ words call words', StrapStep stepping fuel words call words' → StrapFlips words call words') ∧
    ∀ words calls words' bit, Run (StrapStep stepping fuel) words calls words' →
      (∀ b ∈ strapBank words bit, b = false) → strapChanges bit calls ≤ 6 ∧
        (strapChanges bit calls = 6 → ∀ call words'', StrapStep stepping fuel words' call words'' → call.bit = bit →
          call.val.toNat ≤ 1 → call.result = .error eperm) := by
  refine ⟨fun env sound token bit val => ?_, fun words call words' step => step.flips, ?_⟩
  · obtain ⟨env', run, _⟩ := otpWriteStrap_confirmed env sound token rfl
    exact ⟨_, env', run⟩
  · intro words calls words' bit run clear
    by_cases low : bit.toNat < 64
    · obtain ⟨blown, protect, unlocked⟩ := strapRun_blown low run
      have start : Fuses.blown (strapBank words bit) = 0 :=
        List.count_eq_zero.mpr fun mem => nomatch clear true mem
      have most := Fuses.blown_le (strapBank words' bit)
      rw [strapBank_length] at most
      refine ⟨by omega, fun six call words'' step own val => ?_⟩
      subst own
      have spare : Fuses.spare (strapBank words' call.bit) = none := by
        rw [Fuses.spare_eq_none_iff, strapBank_length]
        omega
      rw [step.outcome.1]
      unfold strapOutcome
      rw [if_neg (by omega), if_neg fun locked => unlocked (by omega) (protect.mp locked), spare]
    · have none := strapRun_high (Nat.not_lt.mp low) run
      exact ⟨by omega, fun six => by omega⟩

end Culvert
