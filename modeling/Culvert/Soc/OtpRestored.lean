import Culvert.Soc.OtpConfirm

namespace Culvert
open Prog

/-- The bus with a record of the writes that went through, latest first. -/
def Bus.logged {σ : Type} (bus : Bus σ) : Bus (σ × List (Word × Word)) where
  readl phys s := ((bus.readl phys s.1).1, (bus.readl phys s.1).2, s.2)
  writel phys val s := (bus.writel phys val s.1, (phys, val) :: s.2)

abbrev LoggedEnv (σ : Type) := OtpEnv (σ × List (Word × Word))

def OtpEnv.log {σ : Type} (env : LoggedEnv σ) : List (Word × Word) := env.soc.dev.2

/-- What changes how long and how strongly the controller programs. -/
inductive OtpSoakWrite where
  | parameter (addr val : Option Word)
  | timing (val : Word)

section
variable (otp : Otp)

/-- The soak parameters and timings written, latest first. -/
def otpSoakWrites : List (Word × Word) → List OtpSoakWrite
  | [] => []
  | (phys, val) :: earlier =>
    if phys = otp.iomem + otpTiming then .timing val :: otpSoakWrites earlier
    else if phys = otp.iomem + otpCommand ∧ val = otpTriggerWriteReg then
      .parameter (otpLatched (otp.iomem + otpAddr) earlier) (otpLatched (otp.iomem + otpCompare1) earlier) ::
        otpSoakWrites earlier
    else otpSoakWrites earlier

/-- The parameters of a soak configuration, latest first. -/
def OtpSoak.written (row : OtpSoak) : List OtpSoakWrite :=
  [.parameter (some 0x1000) (some row.parameters[2]), .parameter (some 0x5000) (some row.parameters[1]),
    .parameter (some 0x3000) (some row.parameters[0])]

/-- A complete soak configuration, latest first. -/
def OtpSoak.applied (row : OtpSoak) : List OtpSoakWrite := .timing row.timing :: row.written

/-- The controller is locked, and its soak configuration is the one it had or the first one. -/
structure OtpRestored {σ : Type} (env env' : LoggedEnv σ) : Prop where
  locked : otpLatched (otp.iomem + otpProtectKey) env'.log = some 0
  soak : otpSoakWrites otp env'.log = otpSoakWrites otp env.log ∨
    ∃ earlier, otpSoakWrites otp env'.log = otp.soak[0].applied ++ earlier

end

section
variable {σ : Type} {bus : Bus σ} {otp : Otp} {fuel : Nat} {env env' : LoggedEnv σ}

theorem otpReadl_log (offset : Word) : Keeps (Same (OtpEnv.log (σ := σ))) (otpReadl bus.logged otp offset) :=
  zoom_same (fun soc => soc.dev.2) (fun _ _ => rfl) (fun _ => rfl) (Faulty.access_keeps fun _ => rfl)

/-- A write is recorded if it goes through. -/
theorem otpWritel_log {offset val : Word} {log : List (Word × Word)} :
    Triple (fun env : LoggedEnv σ => env.log = log) (otpWritel bus.logged otp offset val)
      (fun _ env => env.log = (otp.iomem + offset, val) :: log) (fun _ env => env.log = log) := by
  rintro env rfl
  refine ⟨fun u env' run => ?_, fun e env' run => ?_⟩
  · obtain ⟨_, env₁, issue, write⟩ := bind_ok_iff.mp run
    cases issue
    obtain ⟨soc, access, rfl⟩ := zoom_ok_iff.mp write
    have dev := (Faulty.access_ok access).2
    exact congrArg Prod.snd dev
  · rcases bind_error_iff.mp run with never | ⟨_, env₁, issue, write⟩
    · cases never
    · cases issue
      obtain ⟨soc, access, rfl⟩ := zoom_error_iff.mp write
      have dev := Faulty.access_error access
      exact congrArg Prod.snd dev

theorem otpWaitComplete_log : Keeps (Same (OtpEnv.log (σ := σ))) (otpWaitComplete bus.logged otp fuel) := by
  have clock : Keeps (Same (OtpEnv.log (σ := σ))) OtpEnv.clockGettime := fun _ => rfl
  refine clock.bind fun start => .loop (fun _ => ?_) fuel ()
  refine (otpReadl_log otpStatus).bind fun reg => .ite (keeps_pure _) ?_
  have nap : Keeps (Same (OtpEnv.log (σ := σ))) OtpEnv.clockNanosleep := fun _ => rfl
  refine nap.bind fun cut => ?_
  cases cut with
  | some e => exact keeps_pure _
  | none => exact clock.bind fun stop => .ite (keeps_pure _) (keeps_fail _)

end

/-- The soak parameters and timings written do not change. -/
abbrev SoakKept {σ : Type} (otp : Otp) : LoggedEnv σ → LoggedEnv σ → Prop := Same fun env => otpSoakWrites otp env.log

section
variable {σ : Type} {bus : Bus σ} {otp : Otp} {fuel : Nat}

theorem otpWritel_soak {offset val : Word} (other : offset ≠ otpTiming)
    (command : ¬ (offset = otpCommand ∧ val = otpTriggerWriteReg)) :
    Keeps (SoakKept otp) (otpWritel bus.logged otp offset val) := by
  intro env
  obtain ⟨good, bad⟩ := @otpWritel_log σ bus otp offset val env.log env rfl
  have skipped (env' : LoggedEnv σ) (log : env'.log = (otp.iomem + offset, val) :: env.log) : SoakKept otp env env' := by
    have apart : ¬ otp.iomem + offset = otp.iomem + otpTiming := fun same => other (add_left_cancel same)
    have plain : ¬ (otp.iomem + offset = otp.iomem + otpCommand ∧ val = otpTriggerWriteReg) :=
      fun both => command ⟨add_left_cancel both.1, both.2⟩
    show otpSoakWrites otp env'.log = _
    rw [log, otpSoakWrites, if_neg apart, if_neg plain]
  cases run : (otpWritel bus.logged otp offset val).run env with
  | ok u env' => exact skipped env' (good u env' run)
  | error e env' => exact congrArg (otpSoakWrites otp) (bad e env' run)

theorem otpReadReg_soak (addr : Word) : Keeps (SoakKept otp) (otpReadReg bus.logged otp fuel addr) := by
  refine (otpWritel_soak (by decide) (by simp [otpAddr, otpCommand])).bind fun _ => ?_
  refine (otpWritel_soak (by decide) (by decide)).bind fun _ => ?_
  refine (otpWaitComplete_log.mono fun _ _ => congrArg _).bind fun _ => ?_
  exact (otpReadl_log otpCompare1).mono fun _ _ => congrArg _

theorem otpStrapOptions_soak (word bitmask : Word) (left i : Nat) (acc : Word × Option Nat) :
    Keeps (SoakKept otp) (otpStrapOptions bus.logged otp fuel word bitmask left i acc) := by
  induction left generalizing i acc with
  | zero => exact keeps_pure _
  | succ left ih => exact (otpReadReg_soak _).bind fun strap => ih _ _

theorem otpConfirm_soak : Keeps (SoakKept otp) (otpConfirm (σ := σ × List (Word × Word))) := by
  have scan : Keeps (SoakKept otp) (OtpEnv.scanf (σ := σ × List (Word × Word))) := fun _ => rfl
  refine scan.bind fun outcome => ?_
  cases outcome with
  | none =>
    have look : Keeps (SoakKept otp) (get : Prog (LoggedEnv σ) (LoggedEnv σ)) := fun _ => rfl
    refine look.bind fun env => ?_
    cases env.errno with
    | none => exact keeps_pure _
    | some e => exact keeps_fail e
  | some inp => exact .ite (keeps_pure _) (keeps_fail _)

/-- A register write of the controller changes one parameter, or fails before. -/
theorem otpWriteReg_soak (addr val : Word) (written : List OtpSoakWrite) :
    Triple (fun env => otpSoakWrites otp env.log = written) (otpWriteReg bus.logged otp fuel addr val)
      (fun _ env => otpSoakWrites otp env.log = .parameter (some addr) (some val) :: written)
      (fun _ env => otpSoakWrites otp env.log = written ∨
        otpSoakWrites otp env.log = .parameter (some addr) (some val) :: written) := by
  rintro env rfl
  have apart {a b : Word} (other : a ≠ b) : otp.iomem + a ≠ otp.iomem + b := fun same => other (add_left_cancel same)
  have skip₁ : otpSoakWrites otp ((otp.iomem + otpAddr, addr) :: env.log) = otpSoakWrites otp env.log := by
    rw [otpSoakWrites, if_neg (apart (by decide)), if_neg fun both => apart (by decide) both.1]
  have skip₂ : otpSoakWrites otp ((otp.iomem + otpCompare1, val) :: (otp.iomem + otpAddr, addr) :: env.log) =
      otpSoakWrites otp env.log := by
    rw [otpSoakWrites, if_neg (apart (by decide)), if_neg (fun both => apart (by decide) both.1), skip₁]
  have fired : otpSoakWrites otp ((otp.iomem + otpCommand, otpTriggerWriteReg) :: (otp.iomem + otpCompare1, val) ::
      (otp.iomem + otpAddr, addr) :: env.log) = .parameter (some addr) (some val) :: otpSoakWrites otp env.log := by
    have latched : otpLatched (otp.iomem + otpAddr) ((otp.iomem + otpCompare1, val) ::
        (otp.iomem + otpAddr, addr) :: env.log) = some addr := by
      rw [otpLatched, if_neg (apart (by decide)), otpLatched, if_pos rfl]
    rw [otpSoakWrites, if_neg (apart (by decide)), if_pos ⟨rfl, rfl⟩, latched, otpLatched, if_pos rfl, skip₂]
  have wait : Triple (fun env' : LoggedEnv σ => otpSoakWrites otp env'.log = .parameter (some addr) (some val) ::
        otpSoakWrites otp env.log) (otpWaitComplete bus.logged otp fuel)
      (fun _ env' => otpSoakWrites otp env'.log = .parameter (some addr) (some val) :: otpSoakWrites otp env.log)
      (fun _ env' => otpSoakWrites otp env'.log = .parameter (some addr) (some val) :: otpSoakWrites otp env.log) :=
    Triple.of_keeps (otpWaitComplete_log.mono fun _ _ => congrArg _) fun _ _ pre same => same.trans pre
  have all : Triple (fun env' : LoggedEnv σ => env'.log = env.log) (otpWriteReg bus.logged otp fuel addr val)
      (fun _ env' => otpSoakWrites otp env'.log = .parameter (some addr) (some val) :: otpSoakWrites otp env.log)
      (fun _ env' => otpSoakWrites otp env'.log = otpSoakWrites otp env.log ∨
        otpSoakWrites otp env'.log = .parameter (some addr) (some val) :: otpSoakWrites otp env.log) := by
    have quiet (log : List (Word × Word)) (same : otpSoakWrites otp log = otpSoakWrites otp env.log) (e : Stop)
        (env' : LoggedEnv σ) (here : env'.log = log) : otpSoakWrites otp env'.log = otpSoakWrites otp env.log ∨
          otpSoakWrites otp env'.log = .parameter (some addr) (some val) :: otpSoakWrites otp env.log := by
      rw [here]
      exact Or.inl same
    refine (otpWritel_log.conseq (fun _ here => here) (fun _ _ here => here) (quiet _ rfl)).bind fun _ => ?_
    refine (otpWritel_log.conseq (fun _ here => here) (fun _ _ here => here) (quiet _ skip₁)).bind fun _ => ?_
    refine (otpWritel_log.conseq (fun _ here => here) (fun _ env' here => ?_) (quiet _ skip₂)).bind fun _ =>
      wait.conseq (fun _ here => here) (fun _ _ here => here) fun _ _ here => Or.inr here
    rw [here]
    exact fired
  exact all env rfl

/-- A write of the timing is recorded as one. -/
theorem otpWritel_timing (val : Word) (written : List OtpSoakWrite) :
    Triple (fun env => otpSoakWrites otp env.log = written) (otpWritel bus.logged otp otpTiming val)
      (fun _ env => otpSoakWrites otp env.log = .timing val :: written) (fun _ env => otpSoakWrites otp env.log = written) := by
  rintro env rfl
  obtain ⟨good, bad⟩ := @otpWritel_log σ bus otp otpTiming val env.log env rfl
  refine ⟨fun u env' run => ?_, fun e env' run => congrArg (otpSoakWrites otp) (bad e env' run)⟩
  show otpSoakWrites otp env'.log = _
  have log : env'.log = (otp.iomem + otpTiming, val) :: env.log := good u env' run
  rw [log, otpSoakWrites, if_pos rfl]

/-- Some parameters of a configuration were written, but not its timing. -/
def OtpSoakPart (written now : List OtpSoakWrite) : Prop :=
  ∃ part, now = part ++ written ∧ ∀ v, part.head? ≠ some (.timing v)

theorem OtpSoakPart.parameters (written : List OtpSoakWrite) (params : List (Word × Word)) :
    OtpSoakPart written (params.map (fun p => .parameter (some p.1) (some p.2)) ++ written) := by
  refine ⟨_, rfl, fun v => ?_⟩
  cases params with
  | nil => exact fun never => nomatch never
  | cons p params => exact fun never => nomatch never

/-- A configuration is applied in full, or the timing is not written. -/
theorem otpSetSoak_soak {soak : Nat} (known : soak < 3) (written : List OtpSoakWrite) :
    Triple (fun env => otpSoakWrites otp env.log = written) (otpSetSoak bus.logged otp fuel soak)
      (fun _ env => otpSoakWrites otp env.log = otp.soak[soak].applied ++ written)
      (fun _ env => OtpSoakPart written (otpSoakWrites otp env.log)) := by
  have part (now : List OtpSoakWrite) (params : List (Word × Word))
      (same : now = params.map (fun p => .parameter (some p.1) (some p.2)) ++ written) : OtpSoakPart written now := by
    rw [same]
    exact OtpSoakPart.parameters written params
  let row := otp.soak[soak]
  rw [otpSetSoak, dif_neg (by omega)]
  refine ((otpWriteReg_soak 0x3000 row.parameters[0] written).conseq (fun _ pre => pre) (fun _ _ post => post)
    fun _ _ stop => ?_).bind fun _ => ?_
  · exact stop.elim (part _ []) (part _ [(0x3000, row.parameters[0])])
  refine ((otpWriteReg_soak 0x5000 row.parameters[1] _).conseq (fun _ pre => pre) (fun _ _ post => post)
    fun _ _ stop => ?_).bind fun _ => ?_
  · exact stop.elim (part _ [(0x3000, row.parameters[0])])
      (part _ [(0x5000, row.parameters[1]), (0x3000, row.parameters[0])])
  refine ((otpWriteReg_soak 0x1000 row.parameters[2] _).conseq (fun _ pre => pre) (fun _ _ post => post)
    fun _ _ stop => ?_).bind fun _ => ?_
  · exact stop.elim (part _ [(0x5000, row.parameters[1]), (0x3000, row.parameters[0])])
      (part _ [(0x1000, row.parameters[2]), (0x5000, row.parameters[1]), (0x3000, row.parameters[0])])
  refine (otpWritel_timing row.timing _).conseq (fun _ pre => pre) (fun _ _ post => post) fun _ _ stop => ?_
  exact part _ [(0x1000, row.parameters[2]), (0x5000, row.parameters[1]), (0x3000, row.parameters[0])] stop

end

/-- A call of `otp_write_conf` or `otp_write_strap`. -/
inductive OtpCall where
  | conf (word bit : Word)
  | strap (bit val : Word)

/-- The arguments pass the check in front of everything else. -/
def OtpCall.Admitted : OtpCall → Prop
  | .conf word bit => word.toNat < numOtpConf ∧ bit.toNat < 32
  | .strap bit val => bit.toNat < 64 ∧ val.toNat ≤ 1

section
variable {σ : Type} (bus : Bus σ) (otp : Otp) (fuel : Nat)

def otpCall : OtpCall → Prog (OtpEnv σ) Nat
  | .conf word bit => otpWriteConf bus otp fuel word bit
  | .strap bit val => otpWriteStrap bus otp fuel bit val

/-- What a call does between the unlocking and `otp_write`, and the arguments of that. -/
def otpEntry : OtpCall → Prog (OtpEnv σ) (Word × Word)
  | .conf word bit => do
    let conf ← otpReadConfig bus otp fuel word
    if conf &&& (1 : Word) <<< bit ≠ 0 then
      Prog.fail ealready
    else
      otpConfirm
      return (otpConfigAddr word, (1 : Word) <<< bit)
  | .strap bit val => do
    let word : Word := if bit.toNat > 31 then 1 else 0
    let bitmask := (1 : Word) <<< (if bit.toNat > 31 then bit - 32 else bit)
    let protect ← otpReadConfig bus otp fuel (30 + word)
    if protect &&& bitmask ≠ 0 then
      Prog.fail eacces
    else
      match ← otpStrapOptions bus otp fuel word bitmask 6 0 (0, none) with
      | (_, none) => Prog.fail eperm
      | (res, some f) =>
        if res &&& bitmask ≠ 0 ∧ val ≠ 0 ∨ val = 0 ∧ res &&& bitmask = 0 then
          Prog.fail ealready
        else
          otpConfirm
          return (otpConfigAddr (.ofNat 32 (16 + f * 2) + word), bitmask)

/-- What `otp_write` does before its undo. -/
def otpWriteTries (address bitmask : Word) : Prog (OtpEnv σ) Nat := do
  let _ ← otpProgram bus otp fuel address (~~~bitmask)
  let (tries, rc) ← Prog.loop (otpWriteTry bus otp fuel address bitmask) (numProgTries + 1) 0
  if tries = numProgTries then Prog.fail eremoteio else return rc

/-- What a call does with the controller unlocked. -/
def otpBody (call : OtpCall) : Prog (OtpEnv σ) Nat := do
  let (address, bitmask) ← otpEntry bus otp fuel call
  otpSetSoak bus otp fuel 1
  Prog.ensuring (otpWriteTries bus otp fuel address bitmask) (otpSetSoak bus otp fuel 0)

end

section
variable {σ : Type} {bus : Bus σ} {otp : Otp} {fuel : Nat} {call : OtpCall}

theorem bind_ite_fail {σ α β : Type} {c : Prop} [Decidable c] {e : Errno} {m : Prog σ α} {f : α → Prog σ β} :
    (if c then Prog.fail e else m) >>= f = if c then Prog.fail e else m >>= f := by
  by_cases h : c
  · rw [if_pos h, if_pos h]
    rfl
  · rw [if_neg h, if_neg h]

theorem otpCall_eq (admitted : call.Admitted) : otpCall bus otp fuel call = otpUnlocked bus otp (otpBody bus otp fuel call) := by
  cases call with
  | conf word bit =>
    have inside : ¬ (word.toNat ≥ numOtpConf ∨ bit.toNat ≥ 32) := by
      have both : word.toNat < numOtpConf ∧ bit.toNat < 32 := admitted
      omega
    rw [otpCall, otpWriteConf, if_neg inside, otpBody, otpEntry, bind_assoc]
    simp only [bind_ite_fail, bind_assoc, pure_bind]
    rfl
  | strap bit val =>
    have inside : ¬ (bit.toNat ≥ 64 ∨ val.toNat > 1) := by
      have both : bit.toNat < 64 ∧ val.toNat ≤ 1 := admitted
      omega
    rw [otpCall, otpWriteStrap, if_neg inside, otpBody, otpEntry]
    simp only [bind_ite_fail, bind_assoc]
    generalize (1 : Word) <<< (if bit.toNat > 31 then bit - 32 else bit) = bitmask
    generalize (if bit.toNat > 31 then (1 : Word) else 0) = word
    refine congrArg _ (congrArg _ (funext fun protect => ?_))
    by_cases set : protect &&& bitmask ≠ 0
    · rw [if_pos set, if_pos set]
    · rw [if_neg set, if_neg set]
      refine congrArg _ (funext fun options => ?_)
      obtain ⟨res, _ | f⟩ := options
      · rfl
      · simp only [bind_ite_fail, bind_assoc, pure_bind]
        rfl

theorem otpEntry_soak : Keeps (SoakKept otp) (otpEntry bus.logged otp fuel call) := by
  cases call with
  | conf word bit =>
    exact (otpReadReg_soak _).bind fun conf => .ite (keeps_fail _) (otpConfirm_soak.bind fun _ => keeps_pure _)
  | strap bit val =>
    refine (otpReadReg_soak _).bind fun protect => .ite (keeps_fail _) ?_
    refine (otpStrapOptions_soak _ _ 6 0 _).bind fun options => ?_
    obtain ⟨res, _ | f⟩ := options
    · exact keeps_fail _
    · exact .ite (keeps_fail _) (otpConfirm_soak.bind fun _ => keeps_pure _)

end

section
variable {σ : Type} (bus : Bus σ) (otp : Otp) (fuel : Nat) (call : OtpCall) (env : OtpEnv σ)

/-- From `env`, where the controller has been unlocked, the accesses of the cleanup succeed. -/
structure OtpCleanup : Prop where
  undo : ∀ p env₁ env₂ env₃, (otpEntry bus otp fuel call).run env = .ok p env₁ →
    (otpSetSoak bus otp fuel 1).run env₁ = .ok () env₂ → ReturnsIn (otpWriteTries bus otp fuel p.1 p.2) env₂ env₃ →
    ∃ env', (otpSetSoak bus otp fuel 0).run env₃ = .ok () env'
  lock : ∀ env₁, ReturnsIn (otpBody bus otp fuel call) env env₁ →
    ∃ env', (otpWritel bus otp otpProtectKey 0).run env₁ = .ok () env'

end

/-- From `env` on, the first soak configuration that `otp_write` applies fails after it has changed a parameter. -/
def OtpSoakCut {σ : Type} (bus : Bus σ) (otp : Otp) (fuel : Nat) (call : OtpCall) (env : LoggedEnv σ) : Prop :=
  ∃ p env₁ e env₂, (otpEntry bus.logged otp fuel call).run env = .ok p env₁ ∧
    (otpSetSoak bus.logged otp fuel 1).run env₁ = .error e env₂ ∧ ¬ SoakKept otp env₁ env₂

section
variable {σ : Type} {bus : Bus σ} {otp : Otp} {fuel : Nat} {call : OtpCall} {env env₁ env' : LoggedEnv σ}

/-- A configuration without its timing is no complete one. -/
theorem OtpSoakPart.not_applied {written earlier now : List OtpSoakWrite} {row : OtpSoak}
    (part : OtpSoakPart written now) (changed : now ≠ written) : now ≠ row.applied ++ earlier := by
  obtain ⟨part, rfl, plain⟩ := part
  cases part with
  | nil => exact absurd rfl changed
  | cons w part =>
    intro same
    exact plain row.timing (congrArg some (List.cons.inj same).1)

/-- Where the body leaves the soak configuration. -/
theorem otpBody_soak (cleanup : OtpCleanup bus.logged otp fuel call env)
    (returns : ReturnsIn (otpBody bus.logged otp fuel call) env env') :
    (SoakKept otp env env' ∨ ∃ earlier, otpSoakWrites otp env'.log = otp.soak[0].applied ++ earlier) ↔
      ¬ OtpSoakCut bus otp fuel call env := by
  rcases returnsIn_bind.mp returns with ⟨e, failed⟩ | ⟨p, env₁, entry, rest⟩
  · have kept : SoakKept otp env env' := otpEntry_soak.error failed
    refine ⟨fun _ => ?_, fun _ => Or.inl kept⟩
    rintro ⟨p, env₁, e', env₂, entry, _⟩
    rw [failed] at entry
    cases entry
  · have kept : SoakKept otp env env₁ := otpEntry_soak.ok entry
    rcases returnsIn_bind.mp rest with ⟨e, failed⟩ | ⟨_, env₂, soak, tail⟩
    · have part : OtpSoakPart (otpSoakWrites otp env₁.log) (otpSoakWrites otp env'.log) :=
        (otpSetSoak_soak (by decide : 1 < 3) _ env₁ rfl).2 _ env' failed
      constructor
      · rintro still ⟨p', env₁', e', env₂, entry', failed', changed⟩
        rw [entry] at entry'
        cases entry'
        rw [failed] at failed'
        cases failed'
        rcases still with same | ⟨earlier, applied⟩
        · exact changed (same.trans kept.symm)
        · exact part.not_applied changed applied
      · intro uncut
        by_cases same : SoakKept otp env₁ env'
        · exact Or.inl (same.trans kept)
        · exact absurd ⟨p, env₁, _, env', entry, failed, same⟩ uncut
    · obtain ⟨env₃, tried, undone⟩ := returnsIn_ensuring.mp tail
      obtain ⟨env₄, undo⟩ := cleanup.undo p env₁ env₂ env₃ entry soak tried
      have last : env' = env₄ := by
        rcases returnsIn_iff.mp undone with ⟨_, run⟩ | ⟨e, run⟩
        · rw [undo] at run
          cases run
          rfl
        · rw [undo] at run
          cases run
      have applied := (otpSetSoak_soak (by decide : 0 < 3) _ env₃ rfl).1 () env₄ undo
      refine ⟨fun _ => ?_, fun _ => Or.inr ⟨_, by rw [last]; exact applied⟩⟩
      rintro ⟨p', env₁', e', env₂', entry', failed', _⟩
      rw [entry] at entry'
      cases entry'
      rw [soak] at failed'
      cases failed'

end

/-- A call that returns after it has unlocked the controller, and whose cleanup works, leaves the controller locked,
with the soak configuration it had or the first one: but for a first configuration that fails half applied, which
`otp_write` does not undo. -/
theorem otp_write_restored_iff {σ : Type} (bus : Bus σ) (otp : Otp) (fuel : Nat) (call : OtpCall)
    (env env₁ env' : LoggedEnv σ) (admitted : call.Admitted)
    (unlocked : (otpWritel bus.logged otp otpProtectKey otpPasswd).run env = .ok () env₁)
    (cleanup : OtpCleanup bus.logged otp fuel call env₁)
    (returns : ReturnsIn (otpCall bus.logged otp fuel call) env env') :
    OtpRestored otp env env' ↔ ¬ OtpSoakCut bus otp fuel call env₁ := by
  have keyed (val : Word) : Keeps (SoakKept otp) (otpWritel bus.logged otp otpProtectKey val) :=
    otpWritel_soak (by decide) fun both => absurd both.1 (by decide)
  have first : SoakKept otp env env₁ := (keyed otpPasswd).ok unlocked
  rw [otpCall_eq admitted] at returns
  rcases returnsIn_bind.mp returns with ⟨e, failed⟩ | ⟨_, env₁', unlocked', rest⟩
  · rw [unlocked] at failed
    cases failed
  rw [unlocked] at unlocked'
  cases unlocked'
  obtain ⟨env₂, body, locked⟩ := returnsIn_ensuring.mp rest
  obtain ⟨env₃, lock⟩ := cleanup.lock env₂ body
  have last : env' = env₃ := by
    rcases returnsIn_iff.mp locked with ⟨_, run⟩ | ⟨e, run⟩
    · rw [lock] at run
      cases run
      rfl
    · rw [lock] at run
      cases run
  subst last
  have log : env'.log = (otp.iomem + otpProtectKey, 0) :: env₂.log := (otpWritel_log env₂ rfl).1 () env' lock
  have kept : SoakKept otp env₂ env' := (keyed 0).ok lock
  have inner := otpBody_soak cleanup body
  rw [← inner]
  constructor
  · rintro ⟨_, same | ⟨earlier, applied⟩⟩
    · exact Or.inl (kept.symm.trans (same.trans first.symm))
    · exact Or.inr ⟨earlier, kept.symm.trans applied⟩
  · intro either
    refine ⟨?_, ?_⟩
    · rw [log, otpLatched, if_pos rfl]
    · rcases either with same | ⟨earlier, applied⟩
      · exact Or.inl (kept.trans (same.trans first))
      · exact Or.inr ⟨earlier, kept.trans applied⟩

/-- A process in front of the idle controller, on a bus whose access number `n` fails. -/
def otpCutEnv (n : Nat) : LoggedEnv Unit where
  soc := ⟨((), []), fun k => if k = n then some eio else none, 0⟩
  issued := []
  clock _ := ⟨0, 0⟩
  naps _ := none
  calls := 0
  stdin := "YES".toList
  errno := none

/-- Where the steps of a call for the first bit lead from there. -/
def otpCutUnlocked (n : Nat) : LoggedEnv Unit :=
  ((otpWritel otpBench.logged (otpDriverInit 0) otpProtectKey otpPasswd).run (otpCutEnv n)).state

def otpCutConfirmed (n : Nat) : LoggedEnv Unit :=
  ((otpEntry otpBench.logged (otpDriverInit 0) 1 (.conf 0 0)).run (otpCutUnlocked n)).state

def otpCutSoaked (n : Nat) : LoggedEnv Unit :=
  ((otpSetSoak otpBench.logged (otpDriverInit 0) 1 1).run (otpCutConfirmed n)).state

def otpCutEnd (n : Nat) : LoggedEnv Unit :=
  ((otpWritel otpBench.logged (otpDriverInit 0) otpProtectKey 0).run (otpCutSoaked n)).state

section
variable {n : Nat} (late : n = 5 ∨ n = 8)
include late

/-- The access that fails is the first or the last of those that write the first parameter. -/
theorem otpCut_steps :
    (otpWritel otpBench.logged (otpDriverInit 0) otpProtectKey otpPasswd).run (otpCutEnv n) = .ok () (otpCutUnlocked n) ∧
      (otpEntry otpBench.logged (otpDriverInit 0) 1 (.conf 0 0)).run (otpCutUnlocked n) =
        .ok (0x800, 1) (otpCutConfirmed n) ∧
      (otpSetSoak otpBench.logged (otpDriverInit 0) 1 1).run (otpCutConfirmed n) = .error (.rc eio) (otpCutSoaked n) ∧
      (otpWritel otpBench.logged (otpDriverInit 0) otpProtectKey 0).run (otpCutSoaked n) = .ok () (otpCutEnd n) := by
  rcases late with rfl | rfl
  · exact ⟨rfl, rfl, rfl, rfl⟩
  · exact ⟨rfl, rfl, rfl, rfl⟩

theorem otpCut_body : (otpBody otpBench.logged (otpDriverInit 0) 1 (.conf 0 0)).run (otpCutUnlocked n) =
    .error (.rc eio) (otpCutSoaked n) := by
  obtain ⟨_, entry, soak, _⟩ := otpCut_steps late
  exact (run_bind_ok entry).trans (run_bind_error soak)

theorem otpCut_cleanup : OtpCleanup otpBench.logged (otpDriverInit 0) 1 (.conf 0 0) (otpCutUnlocked n) := by
  obtain ⟨_, entry, soak, lock⟩ := otpCut_steps late
  refine ⟨fun p env₁ env₂ env₃ entry' soak' => ?_, fun env₁ returns => ?_⟩
  · rw [entry] at entry'
    cases entry'
    rw [soak] at soak'
    cases soak'
  · have body := otpCut_body late
    have last : env₁ = otpCutSoaked n := by
      rcases returnsIn_iff.mp returns with ⟨_, run⟩ | ⟨_, run⟩
      · rw [body] at run
        cases run
      · rw [body] at run
        cases run
        rfl
    rw [last]
    exact ⟨_, lock⟩

theorem otpCut_returns : ReturnsIn (otpCall otpBench.logged (otpDriverInit 0) 1 (.conf 0 0)) (otpCutEnv n) (otpCutEnd n) := by
  obtain ⟨unlock, _, _, lock⟩ := otpCut_steps late
  have admitted : OtpCall.Admitted (.conf 0 0) := ⟨by decide, by decide⟩
  rw [otpCall_eq admitted]
  refine returnsIn_bind.mpr (Or.inr ⟨(), _, unlock, returnsIn_ensuring.mpr ⟨otpCutSoaked n, ?_, ?_⟩⟩)
  · exact returnsIn_iff.mpr (Or.inr ⟨eio, otpCut_body late⟩)
  · exact returnsIn_iff.mpr (Or.inl ⟨(), lock⟩)

end

/-- The write of the address of the first parameter fails. -/
theorem otp_write_restored_untouched : OtpRestored (otpDriverInit 0) (otpCutEnv 5) (otpCutEnd 5) ↔
    ¬ OtpSoakCut otpBench (otpDriverInit 0) 1 (.conf 0 0) (otpCutUnlocked 5) := by
  have late : 5 = 5 ∨ 5 = 8 := Or.inl rfl
  exact otp_write_restored_iff otpBench (otpDriverInit 0) 1 (.conf 0 0) (otpCutEnv 5) (otpCutUnlocked 5) (otpCutEnd 5)
    ⟨by decide, by decide⟩ (otpCut_steps late).1 (otpCut_cleanup late) (otpCut_returns late)

/-- The status read after the first parameter fails. -/
theorem otp_write_leaves_soak : ¬ ∀ (σ : Type) (bus : Bus σ) (otp : Otp) (fuel : Nat) (call : OtpCall)
    (env env₁ env' : LoggedEnv σ), call.Admitted →
    (otpWritel bus.logged otp otpProtectKey otpPasswd).run env = .ok () env₁ → OtpCleanup bus.logged otp fuel call env₁ →
    ReturnsIn (otpCall bus.logged otp fuel call) env env' → OtpRestored otp env env' := by
  intro restored
  have late : 8 = 5 ∨ 8 = 8 := Or.inr rfl
  have soak := (restored Unit otpBench (otpDriverInit 0) 1 (.conf 0 0) (otpCutEnv 8) (otpCutUnlocked 8) (otpCutEnd 8)
    ⟨by decide, by decide⟩ (otpCut_steps late).1 (otpCut_cleanup late) (otpCut_returns late)).soak
  have one : (otpSoakWrites (otpDriverInit 0) (otpCutEnd 8).log).length = 1 := by decide +kernel
  rcases soak with same | ⟨earlier, applied⟩
  · have none : (otpSoakWrites (otpDriverInit 0) (otpCutEnv 8).log).length = 0 := rfl
    rw [same, none] at one
    cases one
  · rw [applied, List.length_append] at one
    have four : (otpDriverInit 0).soak[0].applied.length = 4 := rfl
    omega

end Culvert
