import Culvert.Cmd.Otp
import Culvert.Soc.OtpConfirm

namespace Culvert
open Prog

/-- The program command for one bit of the configuration word or option at `offset`. -/
def otpCell (offset bit : Word) : Option Word × Option Word :=
  (some (otpConfigAddr offset), some (~~~((1 : Word) <<< bit)))

section
variable {σ : Type} {bus : Bus σ} {otp : Otp} {fuel : Nat}

theorem otpConfirm_programsOnly {P : Option Word × Option Word → Prop} :
    Keeps (OtpProgramsOnly P) (otpConfirm (σ := σ)) := by
  refine otpConfirm_programs.mono fun env env' same => ?_
  unfold OtpProgramsOnly
  rw [show otpPrograms env'.issued = otpPrograms env.issued from same]
  exact Grown.refl _ _

theorem otpWriteConf_programs (word bit : Word) :
    Keeps (OtpProgramsOnly (· = otpCell word bit)) (otpWriteConf bus otp fuel word bit) := by
  refine .ite (keeps_fail _) (otpUnlocked_programs ?_)
  refine ((otpReadReg_quiet _).mono fun _ _ => OtpQuiet.programsOnly).bind fun conf => .ite (keeps_fail _) ?_
  exact otpConfirm_programsOnly.bind fun _ => otpWrite_programs _ _

theorem otpRequest_conf (word bit : Word) :
    Keeps (OtpProgramsOnly (· = otpCell word bit)) (otpRequest bus otp fuel (.writeConf word bit)) :=
  otpWriteConf_programs word bit

/-- The option found is one of those looked at. -/
theorem otpStrapOptions_found {word bitmask : Word} {left i : Nat} {acc res : Word × Option Nat} {env env' : OtpEnv σ}
    (run : (otpStrapOptions bus otp fuel word bitmask left i acc).run env = .ok res env')
    (known : ∀ f ∈ acc.2, f < i + left) : ∀ f ∈ res.2, f < i + left := by
  induction left generalizing i acc env with
  | zero =>
    cases run
    exact known
  | succ left ih =>
    obtain ⟨strap, env₁, _, rest⟩ := bind_ok_iff.mp run
    have bound : i + (left + 1) = i + 1 + left := by omega
    rw [bound] at known ⊢
    refine ih rest fun f mem => ?_
    split at mem
    · cases mem
      omega
    · exact known f mem

theorem otpWriteStrap_programs (bit val : Word) :
    Keeps (OtpProgramsOnly fun p => ∃ i < 6, p =
        otpCell (.ofNat 32 (16 + i * 2) + if bit.toNat > 31 then 1 else 0) (if bit.toNat > 31 then bit - 32 else bit))
      (otpWriteStrap bus otp fuel bit val) := by
  refine .ite (keeps_fail _) (otpUnlocked_programs ?_)
  refine ((otpReadReg_quiet _).mono fun _ _ => OtpQuiet.programsOnly).bind fun protect => .ite (keeps_fail _) ?_
  refine ((otpStrapOptions_quiet _ _ 6 0 _).mono fun _ _ => OtpQuiet.programsOnly).bind_of fun env found env' run => ?_
  have bound := otpStrapOptions_found run fun f mem => nomatch mem
  obtain ⟨res, _ | f⟩ := found
  · exact keeps_fail _
  · refine .ite (keeps_fail _) (otpConfirm_programsOnly.bind fun _ => ?_)
    refine (otpWrite_programs _ _).mono fun _ _ only => Grown.mono only fun p cell => ?_
    exact ⟨f, by simpa using bound f rfl, cell⟩

theorem otpRequest_strap (bit val : Word) :
    Keeps (OtpProgramsOnly fun p => ∃ i < 6, p =
        otpCell (.ofNat 32 (16 + i * 2) + if bit.toNat > 31 then 1 else 0) (if bit.toNat > 31 then bit - 32 else bit))
      (otpRequest bus otp fuel (.writeStrap bit val)) := otpWriteStrap_programs bit val

end

section
variable {first second : String} {m n : Nat}

theorem cmdOtpParseOpt_number {arg : String} (number : arg ≠ "via") (drivers : List BridgeDriver) (rest : List String)
    (arguments : CmdOtpArgs) (k : Nat) (late : k = 2 ∨ k = 3) :
    cmdOtpParseOpt drivers (.arg arg k rest) arguments =
      .ok { arguments with key := .ofNat 32 (Text.strtoul 0 arg.toList).1 } := by
  rcases late with rfl | rfl
  · simp only [cmdOtpParseOpt]
  · simp only [cmdOtpParseOpt]

/-- Whatever is asked for, the key is the last word and the value is 0. -/
theorem cmdOtpParse_write (numerals : Numerals first second m n) (drivers : List BridgeDriver) (region : OtpRegion)
    (word : String) (named : word = if region = .conf then "conf" else "strap") :
    ArgpKey.parse (cmdOtpParseOpt drivers) [word, "write", first, second] cmdOtpArgs =
      .ok ⟨connectionArgs, region, false, .ofNat 32 n, 0⟩ := by
  obtain ⟨one, two⟩ := numerals
  have third := cmdOtpParseOpt_number (numeral_ne_via one) drivers [second]
  have fourth := cmdOtpParseOpt_number (numeral_ne_via two) drivers []
  have opened : cmdOtpParseOpt drivers (.arg word 0 ["write", first, second]) cmdOtpArgs =
      .ok { cmdOtpArgs with region := region } := by
    subst named
    cases region <;> rfl
  have written : cmdOtpParseOpt drivers (.arg "write" 1 [first, second]) { cmdOtpArgs with region := region } =
    .ok { cmdOtpArgs with region := region } := rfl
  unfold ArgpKey.parse
  simp only [ArgpKey.parseFrom, Nat.zero_add, Nat.reduceAdd, opened, written, third _ 2 (Or.inl rfl),
    fourth _ 3 (Or.inr rfl), bind, Except.bind, two]
  rfl

/-- Every command line `otp conf write` on these words programs the cell it names, or none. -/
def OtpConfNames (drivers : List BridgeDriver) (first second : String) (word bit : Nat) : Prop :=
  ∀ (σ : Type) (bus : Bus σ) (fuel : Nat) (host : OtpHost) (env : OtpEnv σ),
    OtpProgramsOnly (· = otpCell (.ofNat 32 word) (.ofNat 32 bit)) env
      ((cmdOtp bus fuel drivers host ["conf", "write", first, second]).run env).state

/-- The command line `otp strap write` on these words asks for the bit and value it names, and
programs an option word of the half the bit is in, or nothing. -/
def OtpStrapNames (drivers : List BridgeDriver) (first second : String) (bit value : Nat) : Prop :=
  (∃ arguments, ArgpKey.parse (cmdOtpParseOpt drivers) ["strap", "write", first, second] cmdOtpArgs = .ok arguments ∧
    arguments.request = .writeStrap (.ofNat 32 bit) (.ofNat 32 value)) ∧
  ∀ (σ : Type) (bus : Bus σ) (fuel : Nat) (host : OtpHost) (env : OtpEnv σ),
    OtpProgramsOnly (fun p => ∃ i < 6, p = otpCell (.ofNat 32 (16 + i * 2 + bit / 32)) (.ofNat 32 (bit % 32))) env
      ((cmdOtp bus fuel drivers host ["strap", "write", first, second]).run env).state

/-- What a request programs, the command programs. -/
theorem doOtp_programs {σ : Type} {bus : Bus σ} {fuel : Nat} {P : Option Word × Option Word → Prop}
    {request : OtpRequest} (each : ∀ otp, Keeps (OtpProgramsOnly P) (otpRequest bus otp fuel request)) (host : OtpHost) :
    Keeps (OtpProgramsOnly P) (doOtp bus fuel host request) := by
  unfold doOtp
  have init : Keeps (OtpProgramsOnly P) (Prog.ofExcept host.init : Prog (OtpEnv σ) Unit) := by
    cases host.init with
    | ok _ => exact keeps_pure _
    | error e => exact keeps_fail e
  refine init.bind fun _ => .ite ?_ (keeps_pure _)
  have probe : Keeps (OtpProgramsOnly P) (zoom (fun env : OtpEnv σ => env.soc) (fun env soc => { env with soc := soc })
      (socFromRev bus host.align)) := zoom_keeps fun _ _ => Grown.refl P _
  exact probe.bind fun rev => .ite (each _) (keeps_pure _)

/-- A host on which everything but the OTP code succeeds. -/
def otpBenchHost : OtpHost := ⟨.ok (), true, .ok (), true⟩

theorem doOtp_fires {word : Word} (low : word.toNat < numOtpConf) :
    OtpFires (otpBenchEnv "YES".toList none)
      ((doOtp otpBench 1 otpBenchHost (.writeConf word 0)).run (otpBenchEnv "YES".toList none)).state := by
  let probed : OtpEnv Unit := { otpBenchEnv "YES".toList none with soc := ⟨(), fun _ => none, 3⟩ }
  have probe : (zoom (fun env : OtpEnv Unit => env.soc) (fun env soc => { env with soc := soc })
      (socFromRev otpBench (.ok ()))).run (otpBenchEnv "YES".toList none) = .ok 0x05030303 probed := rfl
  have six : revGeneration 0x05030303 = some .g6 ∧ true = true := ⟨rfl, rfl⟩
  have fires := @otpBench_fires probed (fun _ => rfl) (revStepping 0x05030303) (Or.inl (by decide)) _ low
  have run : (doOtp otpBench 1 otpBenchHost (.writeConf word 0)).run (otpBenchEnv "YES".toList none) =
      (otpWriteConf otpBench (otpDriverInit (revStepping 0x05030303)) 1 word 0).run probed := by
    show (do
      let rev ← zoom (fun env : OtpEnv Unit => env.soc) (fun env soc => { env with soc := soc })
        (socFromRev otpBench (.ok ()))
      if revGeneration rev = some .g6 ∧ true = true then
        otpRequest otpBench (otpDriverInit (revStepping rev)) 1 (.writeConf word 0)
      else return 1 : Prog (OtpEnv Unit) Nat).run _ = _
    rw [run_bind_ok probe, if_pos six]
    rfl
  rw [run]
  exact @OtpFires.after _ _ probed _ rfl fires

/-- A command that was issued is in whatever the commands issued are known to be in. -/
theorem OtpFires.common {σ : Type} {env env' : OtpEnv σ} {P Q : Option Word × Option Word → Prop}
    (fires : OtpFires env env') (first : OtpProgramsOnly P env env') (second : OtpProgramsOnly Q env env') :
    ∃ p, P p ∧ Q p := by
  obtain ⟨p, earlier, grown⟩ := fires
  have mem {R : Option Word × Option Word → Prop} (only : OtpProgramsOnly R env env') : R p := by
    obtain ⟨new, same, all⟩ := only
    rw [← grown, List.append_cons] at same
    refine all p ?_
    rw [← List.append_cancel_right same]
    exact List.mem_append_right earlier (List.mem_singleton_self p)
  exact ⟨p, mem first, mem second⟩

/-- The cell with the key for a word and bit 0 is the one named only if both are 0. -/
theorem otpCell_inj (word : m < 16) (low : n < 16)
    (same : otpCell (.ofNat 32 n) 0 = otpCell (.ofNat 32 m) (.ofNat 32 n)) : m = 0 ∧ n = 0 := by
  have bits : ∀ n < 16, ~~~((1 : Word) <<< (0 : Word)) = ~~~((1 : Word) <<< BitVec.ofNat 32 n) → n = 0 := by decide
  have words : ∀ m < 16, otpConfigAddr 0 = otpConfigAddr (.ofNat 32 m) → m = 0 := by decide
  have zero : n = 0 := bits n low (Option.some.inj (congrArg Prod.snd same))
  subst zero
  exact ⟨words m word (Option.some.inj (congrArg Prod.fst same)), rfl⟩

theorem otpConfNames_iff (numerals : Numerals first second m n) (drivers : List BridgeDriver) (word : m < 16)
    (bit : n < 32) : OtpConfNames drivers first second m n ↔ 16 ≤ n ∨ m = 0 ∧ n = 0 := by
  have command {σ : Type} (bus : Bus σ) (fuel : Nat) (host : OtpHost) : cmdOtp bus fuel drivers host
      ["conf", "write", first, second] = doOtp bus fuel host (.writeConf (.ofNat 32 n) 0) := by
    unfold cmdOtp
    rw [cmdOtpParse_write numerals drivers .conf "conf" rfl]
    rfl
  have narrow : (BitVec.ofNat 32 n).toNat = n := by
    rw [BitVec.toNat_ofNat]
    omega
  constructor
  · intro names
    by_contra other
    have low : n < 16 := by omega
    have only := names Unit otpBench 1 otpBenchHost (otpBenchEnv "YES".toList none)
    rw [command] at only
    have fires := @doOtp_fires (.ofNat 32 n) (by rw [narrow]; exact low)
    have actual := @doOtp_programs _ otpBench 1 _ _ (fun otp => otpRequest_conf (.ofNat 32 n) 0) otpBenchHost
      (otpBenchEnv "YES".toList none)
    obtain ⟨p, rfl, same⟩ := fires.common actual only
    exact other (Or.inr (otpCell_inj word low same))
  · rintro cases σ bus fuel host env
    rw [command]
    refine doOtp_programs (fun otp => ?_) host env
    rcases cases with high | ⟨rfl, rfl⟩
    · have refused : otpRequest bus otp fuel (.writeConf (.ofNat 32 n) 0) = fail einval := by
        show otpWriteConf bus otp fuel (.ofNat 32 n) 0 = _
        unfold otpWriteConf
        rw [if_pos (Or.inl (by rw [narrow]; exact high))]
      rw [refused]
      exact keeps_fail einval
    · exact otpRequest_conf 0 0

theorem otpStrapNames_iff (numerals : Numerals first second m n) (drivers : List BridgeDriver) (bit : m < 64)
    (value : n ≤ 1) : OtpStrapNames drivers first second m n ↔ m = 0 ∧ n = 0 := by
  have parsed := cmdOtpParse_write numerals drivers .strap "strap" rfl
  have command {σ : Type} (bus : Bus σ) (fuel : Nat) (host : OtpHost) : cmdOtp bus fuel drivers host
      ["strap", "write", first, second] = doOtp bus fuel host (.writeStrap (.ofNat 32 n) 0) := by
    unfold cmdOtp
    rw [parsed]
    rfl
  constructor
  · rintro ⟨⟨arguments, here, asked⟩, _⟩
    rw [parsed] at here
    cases here
    obtain ⟨key, zero⟩ := OtpRequest.writeStrap.inj asked
    have keyNat := congrArg BitVec.toNat key
    have zeroNat := congrArg BitVec.toNat zero
    simp only [BitVec.toNat_ofNat] at keyNat zeroNat
    have none : n = 0 := by
      change 0 = n % 2 ^ 32 at zeroNat
      omega
    omega
  · rintro ⟨rfl, rfl⟩
    refine ⟨⟨_, parsed, rfl⟩, fun σ bus fuel host env => ?_⟩
    rw [command]
    refine doOtp_programs (fun otp => (otpRequest_strap 0 0).mono fun _ _ only => Grown.mono only ?_) host env
    rintro p ⟨i, option, rfl⟩
    refine ⟨i, option, ?_⟩
    show otpCell (BitVec.ofNat 32 (16 + i * 2) + 0#32) 0#32 = otpCell (BitVec.ofNat 32 (16 + i * 2)) 0#32
    rw [BitVec.add_zero]

/-- Each command line names the only cell that can be programmed. -/
theorem otp_names_cell_iff (numerals : Numerals first second m n) (drivers : List BridgeDriver) :
    (m < 16 → n < 32 → (OtpConfNames drivers first second m n ↔ 16 ≤ n ∨ m = 0 ∧ n = 0)) ∧
      (m < 64 → n ≤ 1 → (OtpStrapNames drivers first second m n ↔ m = 0 ∧ n = 0)) :=
  ⟨otpConfNames_iff numerals drivers, otpStrapNames_iff numerals drivers⟩

/-- The first cell, in two spellings. -/
theorem otp_names_cell_zero : OtpConfNames [] "0" "0x0" 0 0 ∧ OtpStrapNames [] "0" "0x0" 0 0 := by
  obtain ⟨conf, strap⟩ := otp_names_cell_iff (show Numerals "0" "0x0" 0 0 from ⟨by decide, by decide⟩) []
  exact ⟨(conf (by decide) (by decide)).mpr (Or.inr ⟨rfl, rfl⟩), (strap (by decide) (by decide)).mpr ⟨rfl, rfl⟩⟩

/-- `otp conf write 3 5` and `otp strap write 5 1`. -/
theorem otp_misnames : ¬ OtpConfNames [] "3" "5" 3 5 ∧ ¬ OtpStrapNames [] "5" "1" 5 1 := by
  constructor
  · intro names
    have := (otpConfNames_iff (show Numerals "3" "5" 3 5 from ⟨by decide, by decide⟩) [] (by decide) (by decide)).mp names
    omega
  · intro names
    have := (otpStrapNames_iff (show Numerals "5" "1" 5 1 from ⟨by decide, by decide⟩) [] (by decide) (by decide)).mp names
    omega

end

end Culvert
