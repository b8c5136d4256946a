import Culvert.Cmd.Otp
import Culvert.Cmd.ViaCommand
import Culvert.Soc.Bridgectl

namespace Culvert

/-- The registered drivers, any of which the user may have disabled. -/
def bridgeDrivers (disabled : String → Bool) : List BridgeDriver :=
  [⟨"debug-uart", true, disabled "debug-uart"⟩, ⟨"devmem", false, disabled "devmem"⟩, ⟨"ilpc", false, disabled "ilpc"⟩,
    ⟨"l2a", false, disabled "l2a"⟩, ⟨"p2a", false, disabled "p2a"⟩]

def uint32Max : Nat := 2 ^ 32 - 1

/-- The value is below `2 ^ 32`. -/
def parseMemArg (label arg : String) : Except String Size :=
  let out := Text.strtoul 0 arg.toList
  if out.1 = 2 ^ 64 - 1 ∧ Text.strtoulRange 0 arg.toList then
    .error s!"Failed to parse {label} '{arg}': Numerical result out of range"
  else if out.1 > uint32Max then .error s!"Failed to parse {label}: '{arg}' exceeds address space"
  else if arg = "" ∨ out.2 ≠ [] then .error s!"Invalid {label} format: '{arg}'"
  else .ok (.ofNat 64 out.1)

/-- A value of `strtoul` cut to 32 bits. -/
def wordArg (arg : String) : Word := .ofNat 32 (Text.strtoul 0 arg.toList).1

def noOption {β : Type} (_ : Char) (_ : Option String) (_ : β) : Except String β := .error "invalid option"

/-! `read` and `write` -/

inductive MemMode where
  | none
  | firmware
  | ram
  deriving DecidableEq, Repr

/-- `struct cmd_read_args` and `struct cmd_write_args` less the connection -/
structure CmdMemArgs where
  memBase : Size
  memSize : Size
  mode : MemMode
  deriving DecidableEq, Repr

def memOption (key : Char) (arg : Option String) (arguments : CmdMemArgs) : Except String CmdMemArgs :=
  match key, arg with
  | 't', some arg =>
    if arg ≠ "firmware" ∧ arg ≠ "ram" then .error s!"Invalid type '{arg}'"
    else .ok { arguments with mode := if arg = "firmware" then .firmware else .ram }
  | _, _ => .error "invalid option"

/-- The words of `name`, of which those in another mode than ram are skipped. -/
def memSwitch (name arg : String) (argNum : Nat) (arguments : CmdMemArgs) : Except String CmdMemArgs :=
  if arguments.mode ≠ .ram then .ok arguments
  else match argNum with
    | 0 => do
      let memBase ← parseMemArg s!"{name} RAM base" arg
      return { arguments with memBase := memBase }
    | 1 => do
      let memSize ← parseMemArg s!"{name} RAM size" arg
      return { arguments with memSize := memSize }
    | _ => .ok arguments

def cmdReadArgp : ViaCommand CmdMemArgs where
  start := ⟨0, 0, .none⟩
  option := memOption
  switch := memSwitch "read"
  finish argNum arguments :=
    if arguments.mode = .none then .error "No type to be read from defined..."
    else if arguments.mode = .ram ∧ argNum > 0 ∧ argNum < 2 then .error "Not enough arguments for ram mode..."
    else .ok arguments

def cmdWrite : ViaCommand CmdMemArgs where
  start := ⟨0, 0, .none⟩
  option := memOption
  switch := memSwitch "write"
  finish argNum arguments :=
    if arguments.mode = .none then .error "No type to write to defined..."
    else if arguments.mode = .ram ∧ argNum < 2 then .error "Not enough arguments for ram mode..."
    else .ok arguments

/-! `otp` -/

/-- `struct cmd_otp_args` less the connection -/
structure OtpOwn where
  region : OtpRegion
  read : Bool
  key : Word
  value : Word
  deriving DecidableEq, Repr

def cmdOtpCommand : ViaCommand OtpOwn where
  start := ⟨.strap, false, 0, 0⟩
  option := noOption
  switch arg argNum arguments :=
    match argNum with
    | 0 =>
      if arg ≠ "conf" ∧ arg ≠ "strap" then .error s!"Invalid region '{arg}'"
      else .ok { arguments with region := if arg = "conf" then .conf else .strap }
    | 1 =>
      if arg ≠ "read" ∧ arg ≠ "write" then .error s!"Invalid command '{arg}'"
      else .ok { arguments with read := arg = "read" }
    | 2 => .ok { arguments with key := wordArg arg }
    | 3 => .ok { arguments with key := wordArg arg }
    | _ => .ok arguments
  finish argNum arguments :=
    if argNum < 2 then .error "Not enough arguments"
    else if ¬ arguments.read ∧ argNum < 4 then .error "Not enough arguments for write"
    else .ok arguments

/-! `sfc` -/

inductive FlashOp where
  | read
  | write
  | erase
  deriving DecidableEq, Repr

/-- `struct cmd_sfc_args` less the connection -/
structure CmdSfcArgs where
  sfc : Option String
  address : Word
  len : Word
  operation : FlashOp
  deriving DecidableEq, Repr

def cmdSfc : ViaCommand CmdSfcArgs where
  start := ⟨none, 0, 0, .read⟩
  option key arg arguments :=
    match key, arg with
    | 's', some arg => if arg ≠ "fmc" then .error s!"Invalid SFC '{arg}'" else .ok { arguments with sfc := some arg }
    | _, _ => .error "invalid option"
  switch arg argNum arguments :=
    match argNum with
    | 0 =>
      match arg with
      | "erase" => .ok { arguments with operation := .erase }
      | "read" => .ok { arguments with operation := .read }
      | "write" => .ok { arguments with operation := .write }
      | _ => .error s!"Invalid command '{arg}'"
    | 1 => .ok { arguments with address := wordArg arg }
    | 2 => .ok { arguments with len := wordArg arg }
    | _ => .ok arguments
  finish argNum arguments :=
    if arguments.sfc = none then .error "No SFC defined."
    else if argNum < 3 then .error "Not enough arguments provided."
    else .ok arguments

/-! `reset` -/

/-- `struct cmd_reset_args` less the connection -/
structure CmdResetArgs where
  wdt : Option String
  deriving DecidableEq, Repr

def cmdReset : ViaCommand CmdResetArgs where
  start := ⟨none⟩
  option := noOption
  switch arg argNum arguments :=
    match argNum with
    | 0 => if arg ≠ "soc" then .error s!"Invalid reset target '{arg}'" else .ok arguments
    | 1 => .ok { arguments with wdt := some arg }
    | _ => .ok arguments
  finish argNum arguments :=
    if argNum < 2 then .error "Not enough arguments provided. Need type and watchdog." else .ok arguments

/-! `replace` -/

/-- `struct cmd_replace_args` less the connection -/
structure CmdReplaceArgs where
  memMatch : Option String
  memReplace : Option String
  deriving DecidableEq, Repr

def strlen (s : String) : Nat := s.utf8ByteSize

def cmdReplace : ViaCommand CmdReplaceArgs where
  start := ⟨none, none⟩
  option := noOption
  switch arg argNum arguments :=
    match argNum with
    | 0 => if arg ≠ "ram" then .error s!"Invalid type '{arg}' found. Only 'ram' is allowed" else .ok arguments
    | 1 => .ok { arguments with memMatch := some arg }
    | 2 => .ok { arguments with memReplace := some arg }
    | _ => .ok arguments
  finish argNum arguments :=
    if argNum < 3 then .error "Not enough arguments..."
    else match arguments.memMatch, arguments.memReplace with
      | some found, some put =>
        if strlen found < strlen put then
          -- The two lengths stand in this order.
          .error s!"REPLACE length {strlen found} overruns MATCH length {strlen put}, bailing"
        else .ok arguments
      -- The length of a null pointer is taken.
      | _, _ => .error "Segmentation fault"

/-! `trace` -/

inductive TraceMode where
  | read
  | write
  deriving DecidableEq, Repr

/-- `struct cmd_trace_args` less the connection -/
structure CmdTraceArgs where
  address : Size
  width : Size
  mode : TraceMode
  deriving DecidableEq, Repr

def cmdTrace : ViaCommand CmdTraceArgs where
  start := ⟨0, 0, .read⟩
  option := noOption
  switch arg argNum arguments :=
    match argNum with
    | 0 => .ok { arguments with address := .ofNat 64 (Text.strtoul 0 arg.toList).1 }
    | 1 =>
      let width : Size := .ofNat 64 (Text.strtoul 0 arg.toList).1
      if width ≠ 1 ∧ width ≠ 2 ∧ width ≠ 4 then .error s!"Invalid access size '{width.toNat}'"
      else .ok { arguments with width := width }
    | 2 =>
      match arg with
      | "read" => .ok { arguments with mode := .read }
      | "write" => .ok { arguments with mode := .write }
      | _ => .error s!"Invalid mode '{arg}'"
    | _ => .ok arguments
  finish _ arguments :=
    if arguments.address &&& (arguments.width - 1) ≠ 0 then
      .error "Listening address must be aligned to the access size"
    else .ok arguments

/-! `coprocessor` -/

inductive CoprocessorMode where
  | run
  | stop
  deriving DecidableEq, Repr

/-- `struct cmd_coprocessor_args` less the connection -/
structure CmdCoprocessorArgs where
  memBase : Size
  memSize : Size
  mode : CoprocessorMode
  deriving DecidableEq, Repr

def coprocTotalMemSize : Size := 32 * 1024 * 1024

def cmdCoprocessor : ViaCommand CmdCoprocessorArgs where
  start := ⟨0, 0, .run⟩
  option := noOption
  switch arg argNum arguments :=
    match argNum with
    | 0 =>
      if arg ≠ "run" ∧ arg ≠ "stop" then .error s!"Invalid command '{arg}'"
      else .ok { arguments with mode := if arg = "run" then .run else .stop }
    | argNum + 1 =>
      if arguments.mode ≠ .run then .ok arguments
      else match argNum with
        | 0 => do
          let memBase ← parseMemArg "coprocessor RAM base" arg
          return { arguments with memBase := memBase }
        | 1 => do
          let memSize ← parseMemArg "coprocessor RAM size" arg
          if memSize ≠ coprocTotalMemSize then
            .error "Only 32M memory is currently supported for the coprocessor"
          else return { arguments with memSize := memSize }
        | _ => .ok arguments
  finish argNum arguments :=
    if arguments.mode = .run ∧ argNum < 3 then .error "Not enough arguments for run mode..."
    else if arguments.mode = .stop ∧ argNum < 1 then .error "Not enough arguments for stop mode..."
    else .ok arguments

/-! `probe` -/

/-- `struct cmd_probe_args` less the connection -/
structure CmdProbeArgs where
  listIfaces : Bool
  requirement : BridgeMode
  deriving DecidableEq, Repr

/-- The defaults stored at the end are what the cleared arguments hold. -/
def cmdProbe : ViaCommand CmdProbeArgs where
  start := ⟨false, .permissive⟩
  option key arg arguments :=
    match key, arg with
    | 'l', none => .ok { arguments with listIfaces := true }
    | 'r', some arg =>
      if arg ≠ "integrity" ∧ arg ≠ "confidentiality" then .error s!"Invalid requirement '{arg}'"
      else .ok { arguments with requirement := if arg = "integrity" then .restricted else .disabled }
    | _, _ => .error "invalid option"
  switch _ _ arguments := .ok arguments
  finish _ arguments := .ok arguments

/-- The parser of `otp` is the one that the whole command runs. -/
theorem cmdOtp_parseOpt (drivers : List BridgeDriver) (key : ArgpKey) (own : OtpOwn) (connection : ConnectionArgs) :
    (cmdOtpCommand.parseOpt drivers key ⟨own, connection⟩).map
        (fun a => (⟨a.connection, a.own.region, a.own.read, a.own.key, a.own.value⟩ : CmdOtpArgs)) =
      cmdOtpParseOpt drivers key ⟨connection, own.region, own.read, own.key, own.value⟩ := by
  cases key with
  | finish argNum =>
    simp only [ViaCommand.parseOpt, cmdOtpCommand, cmdOtpParseOpt]
    split
    · rfl
    split
    · rfl
    · rfl
  | arg arg argNum rest =>
    by_cases via : arg = "via"
    · subst via
      simp only [ViaCommand.parseOpt, cmdOtpParseOpt, if_true]
      cases argpVia drivers rest connection <;> rfl
    · simp only [ViaCommand.parseOpt, if_neg via, cmdOtpCommand]
      obtain _ | _ | _ | _ | n := argNum
      · simp only [cmdOtpParseOpt]
        split <;> rfl
      · simp only [cmdOtpParseOpt]
        split <;> rfl
      · simp only [cmdOtpParseOpt]
        rfl
      · simp only [cmdOtpParseOpt]
        rfl
      · simp only [cmdOtpParseOpt]
        rfl

/-- The commands with a connection that a `via` names. -/
inductive ViaCmd where
  | read
  | write
  | otp
  | sfc
  | reset
  | replace
  | trace
  | coprocessor
  | probe
  deriving DecidableEq, Repr

namespace ViaCmd

def Own : ViaCmd → Type
  | read => CmdMemArgs
  | write => CmdMemArgs
  | otp => OtpOwn
  | sfc => CmdSfcArgs
  | reset => CmdResetArgs
  | replace => CmdReplaceArgs
  | trace => CmdTraceArgs
  | coprocessor => CmdCoprocessorArgs
  | probe => CmdProbeArgs

/-- Their parsers. -/
def command : (cmd : ViaCmd) → ViaCommand cmd.Own
  | read => cmdReadArgp
  | write => cmdWrite
  | otp => cmdOtpCommand
  | sfc => cmdSfc
  | reset => cmdReset
  | replace => cmdReplace
  | trace => cmdTrace
  | coprocessor => cmdCoprocessor
  | probe => cmdProbe

end ViaCmd

/-! What the words after a `via` are. -/

section
variable {disabled : String → Bool} {words : List String} {connection : ConnectionArgs}

def bridgeNames : List String := ["debug-uart", "devmem", "ilpc", "l2a", "p2a"]

theorem getBridgeDriver_name {drv : String} {driver : BridgeDriver}
    (found : getBridgeDriver (bridgeDrivers disabled) drv = .ok driver) : drv ∈ bridgeNames := by
  rw [getBridgeDriver] at found
  split at found
  · cases found
  case h_2 _ _ here =>
    have mem := List.mem_of_find?_eq_some here
    have named := List.find?_some here
    simp only [decide_eq_true_eq] at named
    rw [← named.1]
    simp only [bridgeDrivers, List.mem_cons, List.not_mem_nil, or_false] at mem
    rcases mem with rfl | rfl | rfl | rfl | rfl <;> simp [bridgeNames]

theorem valid_words (valid : cmdParseVia (bridgeDrivers disabled) words connectionArgs = .ok connection) :
    ∃ drv rest, words = drv :: rest ∧ drv ∈ bridgeNames ∧ (rest.length = 0 ∨ rest.length = 1 ∨ rest.length = 5) := by
  rw [cmdParseVia.eq_def] at valid
  split at valid
  case h_1 drv =>
    obtain ⟨driver, found, _⟩ := except_bind_ok_iff.mp valid
    exact ⟨drv, [], rfl, getBridgeDriver_name found, Or.inl rfl⟩
  case h_2 drv interface =>
    obtain ⟨driver, found, _⟩ := except_bind_ok_iff.mp valid
    exact ⟨drv, [interface], rfl, getBridgeDriver_name found, Or.inr (Or.inl rfl)⟩
  case h_3 drv interface ip port username password =>
    obtain ⟨driver, found, _⟩ := except_bind_ok_iff.mp valid
    exact ⟨drv, [interface, ip, port, username, password], rfl, getBridgeDriver_name found, Or.inr (Or.inr rfl)⟩
  case h_4 => cases valid

/-- No name of a driver is another word that a command knows, or a number. -/
theorem bridgeNames_plain {drv : String} (known : drv ∈ bridgeNames) : drv ≠ "via" ∧ drv ≠ "read" ∧ drv ≠ "write" ∧
    drv ≠ "" ∧ Text.strtoul 0 drv.toList = (0, drv.toList) ∧ drv.toList ≠ [] := by
  simp only [bridgeNames, List.mem_cons, List.not_mem_nil, or_false] at known
  rcases known with rfl | rfl | rfl | rfl | rfl <;> decide

theorem parseMemArg_name {drv : String} (known : drv ∈ bridgeNames) (label : String) (size : Size) :
    parseMemArg label drv ≠ .ok size := by
  obtain ⟨_, _, _, some, number, more⟩ := bridgeNames_plain known
  simp [parseMemArg, number, more, uint32Max]

end

namespace ViaCommand
variable {β : Type} {cmd : ViaCommand β} {own own' : β} {drv : String} {rest words : List String} {n : Nat}

/-- Words that the switch passes over leave the arguments as they are. -/
theorem switches_passed (passed : ∀ arg m, n ≤ m → cmd.switch arg m own = .ok own) :
    cmd.switches n words own = .ok own := by
  induction words generalizing n with
  | nil => rfl
  | cons arg rest ih =>
    have later : cmd.switches (n + 1) rest own = .ok own := ih fun arg m le => passed arg m (Nat.le_of_succ_le le)
    by_cases via : arg = "via"
    · rw [switches, if_pos via, later]
    · rw [switches, if_neg via, passed arg n (Nat.le_refl n)]
      exact later

theorem switches_cons_iff (plain : drv ≠ "via") : cmd.switches n (drv :: rest) own = .ok own' ↔
    ∃ own₁, cmd.switch drv n own = .ok own₁ ∧ cmd.switches (n + 1) rest own₁ = .ok own' := by
  rw [switches, if_neg plain, except_bind_ok_iff]

end ViaCommand

/-- What each option and word preserves, all of them do. -/
theorem ViaCommand.read_keeps {β : Type} {cmd : ViaCommand β} {I : Nat → β → Prop} {items : List ArgpItem} {n : Nat}
    {own own' : β} (option : ∀ key arg n own own', I n own → cmd.option key arg own = .ok own' → I n own')
    (switch : ∀ arg n own own', I n own → cmd.switch arg n own = .ok own' → I (n + 1) own')
    (read : cmd.read n items own = .ok own') (start : I n own) : I (n + ArgpItem.words items) own' := by
  induction items generalizing n own with
  | nil =>
    cases read
    exact start
  | cons item rest ih =>
    cases item with
    | option key arg argv =>
      obtain ⟨own₁, first, later⟩ := except_bind_ok_iff.mp read
      exact ih later (option key arg n own own₁ start first)
    | word arg =>
      obtain ⟨own₁, first, later⟩ := except_bind_ok_iff.mp read
      have last := ih later (switch arg n own own₁ start first)
      rw [ArgpItem.words, Nat.add_comm (ArgpItem.words rest), ← Nat.add_assoc]
      exact last

theorem noOption_refuses {β : Type} (key : Char) (arg : Option String) (own own' : β) :
    noOption key arg own ≠ .ok own' := by
  intro run
  cases run

theorem memSwitch_late {n : Nat} (late : 2 ≤ n) (name arg : String) (own : CmdMemArgs) :
    memSwitch name arg n own = .ok own := by
  obtain ⟨k, rfl⟩ : ∃ k, n = k + 2 := ⟨n - 2, by omega⟩
  unfold memSwitch
  split <;> rfl

/-- In the mode ram the name of a driver is no size. -/
theorem memSwitch_name {drv : String} (known : drv ∈ bridgeNames) (name : String) {own own' : CmdMemArgs}
    (ram : own.mode = .ram) : memSwitch name drv 1 own ≠ .ok own' := by
  intro run
  rw [memSwitch, if_neg (fun ne => ne ram)] at run
  obtain ⟨size, parsed, _⟩ := except_bind_ok_iff.mp run
  exact parseMemArg_name known _ size parsed

section
variable {disabled : String → Bool} {items : List ArgpItem} {words : List String} {connection : ConnectionArgs}
variable (plain : ArgpItem.NoVia items)
variable (valid : cmdParseVia (bridgeDrivers disabled) words connectionArgs = .ok connection)

/-- The connection survives the words after the `via`. -/
def ViaKept (disabled : String → Bool) (words : List String) (connection : ConnectionArgs) : Prop :=
  rereadVia (bridgeDrivers disabled) words connection = .ok connection

/-- A `via` among those words is refused. -/
def ViaLost (disabled : String → Bool) (words : List String) (connection : ConnectionArgs) : Prop :=
  ∀ c, rereadVia (bridgeDrivers disabled) words connection ≠ .ok c

include plain valid

theorem cmdReadArgp_neutral {own : CmdMemArgs} (read : cmdReadArgp.read 0 items cmdReadArgp.start = .ok own) :
    cmdReadArgp.ViaNeutral (bridgeDrivers disabled) items words connection ↔
      match own.mode with
      | .none => True
      | .firmware => ViaKept disabled words connection
      | .ram =>
        if ArgpItem.words items = 0 then False
        else if ArgpItem.words items = 1 then ViaLost disabled words connection
        else ViaKept disabled words connection := by
  obtain ⟨drv, rest, rfl, known, _⟩ := valid_words valid
  obtain ⟨base, size, mode⟩ := own
  cases mode with
  | none =>
    have passed := ViaCommand.viaNeutral_iff_of_passed plain valid read
      (ViaCommand.switches_passed fun _ _ _ => rfl) rfl
    rw [passed]
    exact iff_true_intro (Or.inl fun r run => nomatch run)
  | firmware => exact ViaCommand.viaNeutral_iff_kept plain valid read (ViaCommand.switches_passed fun _ _ _ => rfl) rfl rfl
  | ram =>
    have late (n : Nat) (le : 2 ≤ n) : cmdReadArgp.switches n (drv :: rest) ⟨base, size, .ram⟩ = .ok ⟨base, size, .ram⟩ :=
      ViaCommand.switches_passed fun arg m le' => memSwitch_late (Nat.le_trans le le') "read" arg ⟨base, size, .ram⟩
    have accepts (n : Nat) (far : n = 0 ∨ 2 ≤ n) : cmdReadArgp.finish n ⟨base, size, .ram⟩ = .ok ⟨base, size, .ram⟩ := by
      simp only [cmdReadArgp, reduceCtorEq, if_false]
      rw [if_neg (by omega)]
    rcases Nat.lt_trichotomy (ArgpItem.words items) 1 with none | one | more
    · obtain zero : ArgpItem.words items = 0 := by omega
      rw [if_pos zero, iff_false]
      refine ViaCommand.not_viaNeutral_of_alone plain valid read (accepts _ (Or.inl zero)) fun own' r switched => ?_
      rw [zero] at switched
      obtain ⟨own₁, first, _⟩ := (ViaCommand.switches_cons_iff (bridgeNames_plain known).1).mp switched
      have size : memSwitch "read" drv 1 ⟨base, size, .ram⟩ = .ok own₁ := first
      exact absurd size (memSwitch_name known "read" rfl)
    · rw [if_neg (by omega), if_pos one]
      refine ViaCommand.viaNeutral_iff_of_suffix plain valid read (fun r run => ?_) (late _ (by omega))
        (accepts _ (Or.inr (by rw [List.length_cons]; omega)))
      rw [one] at run
      cases run
    · rw [if_neg (by omega), if_neg (by omega)]
      exact ViaCommand.viaNeutral_iff_kept plain valid read (late _ (by omega)) (accepts _ (by omega))
        (accepts _ (by omega))

theorem cmdWrite_neutral {own : CmdMemArgs} (read : cmdWrite.read 0 items cmdWrite.start = .ok own) :
    cmdWrite.ViaNeutral (bridgeDrivers disabled) items words connection ↔
      match own.mode with
      | .none => True
      | .firmware => ViaKept disabled words connection
      | .ram =>
        if ArgpItem.words items = 0 then True
        else if ArgpItem.words items = 1 then ViaLost disabled words connection
        else ViaKept disabled words connection := by
  obtain ⟨drv, rest, rfl, known, _⟩ := valid_words valid
  obtain ⟨base, size, mode⟩ := own
  cases mode with
  | none =>
    have passed := ViaCommand.viaNeutral_iff_of_passed plain valid read
      (ViaCommand.switches_passed fun _ _ _ => rfl) rfl
    rw [passed]
    exact iff_true_intro (Or.inl fun r run => nomatch run)
  | firmware => exact ViaCommand.viaNeutral_iff_kept plain valid read (ViaCommand.switches_passed fun _ _ _ => rfl) rfl rfl
  | ram =>
    have late (n : Nat) (le : 2 ≤ n) : cmdWrite.switches n (drv :: rest) ⟨base, size, .ram⟩ = .ok ⟨base, size, .ram⟩ :=
      ViaCommand.switches_passed fun arg m le' => memSwitch_late (Nat.le_trans le le') "write" arg ⟨base, size, .ram⟩
    have accepts (n : Nat) (far : 2 ≤ n) : cmdWrite.finish n ⟨base, size, .ram⟩ = .ok ⟨base, size, .ram⟩ := by
      simp only [cmdWrite, reduceCtorEq, if_false]
      rw [if_neg (by omega)]
    have refuses (n : Nat) (near : n < 2) (r : CmdMemArgs) : cmdWrite.finish n ⟨base, size, .ram⟩ ≠ .ok r := by
      intro run
      simp only [cmdWrite, reduceCtorEq, if_false, true_and] at run
      rw [if_pos near] at run
      cases run
    rcases Nat.lt_trichotomy (ArgpItem.words items) 1 with none | one | more
    · obtain zero : ArgpItem.words items = 0 := by omega
      rw [if_pos zero, iff_true]
      refine ViaCommand.viaNeutral_of_both plain valid read (refuses _ (by omega)) fun own' r switched => ?_
      rw [zero] at switched
      obtain ⟨own₁, first, _⟩ := (ViaCommand.switches_cons_iff (bridgeNames_plain known).1).mp switched
      have size : memSwitch "write" drv 1 ⟨base, size, .ram⟩ = .ok own₁ := first
      exact absurd size (memSwitch_name known "write" rfl)
    · rw [if_neg (by omega), if_pos one]
      exact ViaCommand.viaNeutral_iff_of_suffix plain valid read (refuses _ (by omega)) (late _ (by omega))
        (accepts _ (by omega))
    · rw [if_neg (by omega), if_neg (by omega)]
      exact ViaCommand.viaNeutral_iff_kept plain valid read (late _ (by omega)) (accepts _ (by omega))
        (accepts _ (by omega))

theorem cmdReset_neutral {own : CmdResetArgs} (read : cmdReset.read 0 items cmdReset.start = .ok own) :
    cmdReset.ViaNeutral (bridgeDrivers disabled) items words connection ↔
      if ArgpItem.words items < 2 then ViaLost disabled words connection else ViaKept disabled words connection := by
  obtain ⟨drv, rest, rfl, known, _⟩ := valid_words valid
  have accepts (n : Nat) (far : 2 ≤ n) (own : CmdResetArgs) : cmdReset.finish n own = .ok own := by
    simp only [cmdReset]
    rw [if_neg (by omega)]
  have late (n : Nat) (le : 2 ≤ n) (own : CmdResetArgs) (words : List String) :
      cmdReset.switches n words own = .ok own := by
    refine ViaCommand.switches_passed fun arg m le' => ?_
    obtain ⟨k, rfl⟩ : ∃ k, m = k + 2 := ⟨m - 2, by omega⟩
    rfl
  by_cases few : ArgpItem.words items < 2
  · rw [if_pos few]
    have switched : ∃ own', cmdReset.switches (ArgpItem.words items + 1) (drv :: rest) own = .ok own' := by
      rcases Nat.lt_or_ge (ArgpItem.words items) 1 with none | one
      · obtain zero : ArgpItem.words items = 0 := by omega
        refine ⟨⟨some drv⟩, (ViaCommand.switches_cons_iff (bridgeNames_plain known).1).mpr ⟨⟨some drv⟩, ?_, ?_⟩⟩
        · rw [zero]
          rfl
        · exact late _ (by omega) _ rest
      · exact ⟨own, late _ (by omega) own _⟩
    obtain ⟨own', switched⟩ := switched
    refine ViaCommand.viaNeutral_iff_of_suffix plain valid read (fun r run => ?_) switched
      (accepts _ (by rw [List.length_cons]; omega) own')
    simp only [cmdReset] at run
    rw [if_pos few] at run
    cases run
  · rw [if_neg few]
    exact ViaCommand.viaNeutral_iff_kept plain valid read (late _ (by omega) own _) (accepts _ (by omega) own)
      (accepts _ (by omega) own)

theorem cmdProbe_neutral {own : CmdProbeArgs} (read : cmdProbe.read 0 items cmdProbe.start = .ok own) :
    cmdProbe.ViaNeutral (bridgeDrivers disabled) items words connection ↔ ViaKept disabled words connection := by
  exact ViaCommand.viaNeutral_iff_kept plain valid read (ViaCommand.switches_passed fun _ _ _ => rfl) rfl rfl

theorem cmdTrace_neutral {own : CmdTraceArgs} (read : cmdTrace.read 0 items cmdTrace.start = .ok own) :
    cmdTrace.ViaNeutral (bridgeDrivers disabled) items words connection ↔
      own.address &&& (own.width - 1) ≠ 0 ∨ 2 ≤ ArgpItem.words items ∧ ViaKept disabled words connection := by
  obtain ⟨drv, rest, rfl, known, _⟩ := valid_words valid
  obtain ⟨via, noRead, noWrite, _, number, _⟩ := bridgeNames_plain known
  have refused_iff (n : Nat) : (∀ r, cmdTrace.finish n own ≠ .ok r) ↔ own.address &&& (own.width - 1) ≠ 0 := by
    simp only [cmdTrace]
    split
    case isTrue off => exact ⟨fun _ => off, fun _ r run => nomatch run⟩
    case isFalse on => exact ⟨fun refused => absurd rfl (refused own), fun off => absurd off on⟩
  by_cases few : ArgpItem.words items < 2
  · have suffix (own' : CmdTraceArgs) (r : CmdTraceArgs)
        (switched : cmdTrace.switches (ArgpItem.words items + 1) (drv :: rest) own = .ok own') :
        cmdTrace.finish (ArgpItem.words items + 1 + (drv :: rest).length) own' ≠ .ok r := by
      obtain ⟨own₁, first, _⟩ := (ViaCommand.switches_cons_iff via).mp switched
      rcases Nat.lt_or_ge (ArgpItem.words items) 1 with none | one
      · obtain zero : ArgpItem.words items = 0 := by omega
        rw [zero] at first
        simp [cmdTrace, number] at first
      · obtain one : ArgpItem.words items = 1 := by omega
        rw [one] at first
        simp only [cmdTrace] at first
        cases first
    constructor
    · intro neutral
      by_contra other
      rw [not_or, not_not] at other
      refine ViaCommand.not_viaNeutral_of_alone (r := own) plain valid read ?_ suffix neutral
      simp only [cmdTrace]
      rw [if_neg (fun off => off other.1)]
    · rintro (off | ⟨more, _⟩)
      · exact ViaCommand.viaNeutral_of_both plain valid read ((refused_iff _).mpr off) suffix
      · omega
  · have late : cmdTrace.switches (ArgpItem.words items + 1) (drv :: rest) own = .ok own := by
      refine ViaCommand.switches_passed fun arg m le => ?_
      obtain ⟨k, rfl⟩ : ∃ k, m = k + 3 := ⟨m - 3, by omega⟩
      rfl
    rw [ViaCommand.viaNeutral_iff_of_passed plain valid read late rfl, refused_iff, ViaKept]
    have more : 2 ≤ ArgpItem.words items := by omega
    simp only [more, true_and]

theorem cmdSfc_neutral {own : CmdSfcArgs} (read : cmdSfc.read 0 items cmdSfc.start = .ok own) :
    cmdSfc.ViaNeutral (bridgeDrivers disabled) items words connection ↔ own.sfc = none ∨
      if ArgpItem.words items = 0 then words.length = 1 ∨ ViaLost disabled words connection
      else if ArgpItem.words items < 3 then ViaLost disabled words connection
      else ViaKept disabled words connection := by
  have switched (n : Nat) (later : 1 ≤ n) (words : List String) (own : CmdSfcArgs) :
      ∃ own', cmdSfc.switches n words own = .ok own' ∧ own'.sfc = own.sfc := by
    induction words generalizing n own with
    | nil => exact ⟨own, rfl, rfl⟩
    | cons arg rest ih =>
      by_cases via : arg = "via"
      · rw [ViaCommand.switches, if_pos via]
        exact ih (n + 1) (by omega) own
      · have step : ∃ own₁, cmdSfc.switch arg n own = .ok own₁ ∧ own₁.sfc = own.sfc := by
          obtain ⟨k, rfl⟩ := Nat.exists_eq_add_of_le' later
          obtain _ | _ | k := k
          · exact ⟨_, rfl, rfl⟩
          · exact ⟨_, rfl, rfl⟩
          · exact ⟨_, rfl, rfl⟩
        obtain ⟨own₁, first, same⟩ := step
        obtain ⟨own', more, same'⟩ := ih (n + 1) (by omega) own₁
        exact ⟨own', (ViaCommand.switches_cons_iff via).mpr ⟨own₁, first, more⟩, same'.trans same⟩
  have refuses (n : Nat) (own r : CmdSfcArgs) (short : own.sfc = none ∨ n < 3) : cmdSfc.finish n own ≠ .ok r := by
    intro run
    simp only [cmdSfc] at run
    split at run
    · cases run
    case isFalse named =>
      rw [if_pos (short.resolve_left named)] at run
      cases run
  have accepts (n : Nat) (own : CmdSfcArgs) (named : own.sfc ≠ none) (enough : 3 ≤ n) :
      cmdSfc.finish n own = .ok own := by
    simp only [cmdSfc]
    rw [if_neg named, if_neg (by omega)]
  obtain ⟨own', suffix, same⟩ := switched (ArgpItem.words items + 1) (by omega) words own
  have only (own₁ r : CmdSfcArgs) (here : cmdSfc.switches (ArgpItem.words items + 1) words own = .ok own₁)
      (short : own.sfc = none ∨ ArgpItem.words items + 1 + words.length < 3) :
      cmdSfc.finish (ArgpItem.words items + 1 + words.length) own₁ ≠ .ok r := by
    rw [suffix] at here
    cases here
    rw [← same] at short
    exact refuses _ _ r short
  obtain ⟨drv, rest, listed, known, count⟩ := valid_words valid
  have length : words.length = rest.length + 1 := by rw [listed, List.length_cons]
  by_cases unnamed : own.sfc = none
  · rw [iff_true_right (Or.inl unnamed)]
    exact ViaCommand.viaNeutral_of_both plain valid read (fun r => refuses _ _ r (Or.inl unnamed))
      fun own₁ r here => only own₁ r here (Or.inl unnamed)
  rw [or_iff_right unnamed]
  by_cases few : ArgpItem.words items < 3
  · have alone (r : CmdSfcArgs) := refuses (ArgpItem.words items) own r (Or.inr few)
    by_cases reaches : 3 ≤ ArgpItem.words items + 1 + words.length
    · have made := ViaCommand.viaNeutral_iff_of_suffix plain valid read alone suffix
        (accepts _ own' (by rw [same]; exact unnamed) reaches)
      rw [made]
      split
      · rw [or_iff_right (by omega)]
        rfl
      · rfl
    · rw [if_pos (by omega), iff_true_right (Or.inl (by omega))]
      exact ViaCommand.viaNeutral_of_both plain valid read alone
        fun own₁ r here => only own₁ r here (Or.inr (by omega))
  · rw [if_neg (by omega), if_neg few]
    have late : cmdSfc.switches (ArgpItem.words items + 1) words own = .ok own := by
      refine ViaCommand.switches_passed fun arg m le => ?_
      obtain ⟨k, rfl⟩ : ∃ k, m = k + 3 := ⟨m - 3, by omega⟩
      rfl
    exact ViaCommand.viaNeutral_iff_kept plain valid read late (accepts _ own unnamed (by omega))
      (accepts _ own unnamed (by omega))

omit plain valid in
/-- Nothing but the second word says whether to read, and no earlier one than the third is a key. -/
theorem cmdOtp_early {own : OtpOwn} (read : cmdOtpCommand.read 0 items cmdOtpCommand.start = .ok own) :
    (ArgpItem.words items ≤ 1 → own.read = false) ∧ (ArgpItem.words items ≤ 2 → own.key = 0) := by
  let early (n : Nat) (own : OtpOwn) : Prop := (n ≤ 1 → own.read = false) ∧ (n ≤ 2 → own.key = 0)
  have step (arg : String) (n : Nat) (own own' : OtpOwn) (start : early n own)
      (run : cmdOtpCommand.switch arg n own = .ok own') : early (n + 1) own' := by
    obtain ⟨reading, keyed⟩ := start
    match n with
    | 0 =>
      simp only [cmdOtpCommand] at run
      split at run
      · cases run
      · cases run
        exact ⟨fun _ => reading (by omega), fun _ => keyed (by omega)⟩
    | 1 =>
      simp only [cmdOtpCommand] at run
      split at run
      · cases run
      · cases run
        exact ⟨fun le => absurd le (by omega), fun _ => keyed (by omega)⟩
    | n + 2 => exact ⟨fun le => absurd le (by omega), fun le => absurd le (by omega)⟩
  have kept : early (0 + ArgpItem.words items) own :=
    ViaCommand.read_keeps (fun key arg _ own own' _ run => absurd run (noOption_refuses key arg own own')) step read
      ⟨fun _ => rfl, fun _ => rfl⟩
  rw [Nat.zero_add] at kept
  exact kept

theorem cmdOtp_neutral {own : OtpOwn} (read : cmdOtpCommand.read 0 items cmdOtpCommand.start = .ok own) :
    cmdOtpCommand.ViaNeutral (bridgeDrivers disabled) items words connection ↔
      if ArgpItem.words items = 0 then True
      else if ArgpItem.words items = 1 then words.length = 1 ∨ ViaLost disabled words connection
      else if own.read = false ∧ ArgpItem.words items < 4 then ViaLost disabled words connection
      else ViaKept disabled words connection := by
  have early := cmdOtp_early read
  have switched (n : Nat) (later : 2 ≤ n) (words : List String) (own : OtpOwn) :
      ∃ own', cmdOtpCommand.switches n words own = .ok own' ∧ own'.read = own.read := by
    induction words generalizing n own with
    | nil => exact ⟨own, rfl, rfl⟩
    | cons arg rest ih =>
      by_cases via : arg = "via"
      · rw [ViaCommand.switches, if_pos via]
        exact ih (n + 1) (by omega) own
      · have step : ∃ own₁, cmdOtpCommand.switch arg n own = .ok own₁ ∧ own₁.read = own.read := by
          obtain ⟨k, rfl⟩ := Nat.exists_eq_add_of_le' later
          obtain _ | _ | k := k
          · exact ⟨_, rfl, rfl⟩
          · exact ⟨_, rfl, rfl⟩
          · exact ⟨_, rfl, rfl⟩
        obtain ⟨own₁, first, same⟩ := step
        obtain ⟨own', more, same'⟩ := ih (n + 1) (by omega) own₁
        exact ⟨own', (ViaCommand.switches_cons_iff via).mpr ⟨own₁, first, more⟩, same'.trans same⟩
  have refuses (n : Nat) (own r : OtpOwn) (short : n < 2 ∨ own.read = false ∧ n < 4) :
      cmdOtpCommand.finish n own ≠ .ok r := by
    intro run
    simp only [cmdOtpCommand] at run
    split at run
    · cases run
    case isFalse enough =>
      obtain ⟨writes, few⟩ := short.resolve_left enough
      rw [if_pos ⟨by rw [writes]; decide, few⟩] at run
      cases run
  have accepts (n : Nat) (own : OtpOwn) (enough : 2 ≤ n ∧ (own.read = true ∨ 4 ≤ n)) :
      cmdOtpCommand.finish n own = .ok own := by
    simp only [cmdOtpCommand]
    rw [if_neg (by omega), if_neg]
    rintro ⟨writes, few⟩
    rcases enough.2 with reads | most
    · exact writes reads
    · omega
  obtain ⟨drv, rest, listed, known, count⟩ := valid_words valid
  obtain ⟨via, noRead, noWrite, _, number, _⟩ := bridgeNames_plain known
  have length : words.length = rest.length + 1 := by rw [listed, List.length_cons]
  by_cases zero : ArgpItem.words items = 0
  · rw [if_pos zero, iff_true]
    refine ViaCommand.viaNeutral_of_both plain valid read (fun r => refuses _ _ r (Or.inl (by omega)))
      fun own₁ r here => ?_
    rw [zero, listed] at here
    obtain ⟨_, first, _⟩ := (ViaCommand.switches_cons_iff via).mp here
    simp only [cmdOtpCommand, Nat.zero_add] at first
    rw [if_pos ⟨noRead, noWrite⟩] at first
    cases first
  rw [if_neg zero]
  obtain ⟨own', suffix, same⟩ := switched (ArgpItem.words items + 1) (by omega) words own
  by_cases one : ArgpItem.words items = 1
  · rw [if_pos one]
    have writes : own.read = false := early.1 (by omega)
    by_cases single : words.length = 1
    · rw [iff_true_right (Or.inl single)]
      refine ViaCommand.viaNeutral_of_both plain valid read (fun r => refuses _ _ r (Or.inl (by omega)))
        fun own₁ r here => ?_
      rw [suffix] at here
      cases here
      exact refuses _ _ r (Or.inr ⟨same.trans writes, by omega⟩)
    · rw [or_iff_right single]
      exact ViaCommand.viaNeutral_iff_of_suffix plain valid read (fun r => refuses _ _ r (Or.inl (by omega))) suffix
        (accepts _ own' ⟨by omega, Or.inr (by omega)⟩)
  rw [if_neg one]
  by_cases short : own.read = false ∧ ArgpItem.words items < 4
  · rw [if_pos short]
    exact ViaCommand.viaNeutral_iff_of_suffix plain valid read (fun r => refuses _ _ r (Or.inr short)) suffix
      (accepts _ own' ⟨by omega, Or.inr (by omega)⟩)
  · rw [if_neg short]
    have enough : own.read = true ∨ 4 ≤ ArgpItem.words items := by
      cases reads : own.read with
      | true => exact Or.inl rfl
      | false => exact Or.inr (Nat.le_of_not_lt fun few => short ⟨reads, few⟩)
    have late (n : Nat) (le : 4 ≤ n) (words : List String) : cmdOtpCommand.switches n words own = .ok own := by
      refine ViaCommand.switches_passed fun arg m le' => ?_
      obtain ⟨k, rfl⟩ : ∃ k, m = k + 4 := ⟨m - 4, by omega⟩
      rfl
    have passed : cmdOtpCommand.switches (ArgpItem.words items + 1) words own = .ok own := by
      rcases Nat.lt_or_ge (ArgpItem.words items) 3 with two | more
      · obtain two : ArgpItem.words items = 2 := by omega
        -- The name of the driver is read as the key, which is 0 without it too.
        have keyed : cmdOtpCommand.switch drv 3 own = .ok own := by
          have key : wordArg drv = own.key := by
            rw [wordArg, number, early.2 (by omega)]
            rfl
          simp only [cmdOtpCommand, key]
        rw [two, listed]
        exact (ViaCommand.switches_cons_iff via).mpr ⟨own, keyed, late _ (by omega) rest⟩
      · exact late _ (by omega) words
    exact ViaCommand.viaNeutral_iff_kept plain valid read passed
      (accepts _ own ⟨by omega, enough.imp_right fun le => by omega⟩) (accepts _ own ⟨by omega, enough⟩)

omit plain valid in
theorem cmdCoprocessor_early {own : CmdCoprocessorArgs}
    (read : cmdCoprocessor.read 0 items cmdCoprocessor.start = .ok own) :
    own.mode = .stop → 0 < ArgpItem.words items := by
  have kept : own.mode = .stop → 0 < 0 + ArgpItem.words items :=
    ViaCommand.read_keeps (I := fun n own => own.mode = .stop → 0 < n)
      (fun key arg _ own own' _ run => absurd run (noOption_refuses key arg own own'))
      (fun _ n _ _ _ _ _ => Nat.succ_pos n) read (fun stop => nomatch stop)
  rw [Nat.zero_add] at kept
  exact kept

theorem cmdCoprocessor_neutral {own : CmdCoprocessorArgs}
    (read : cmdCoprocessor.read 0 items cmdCoprocessor.start = .ok own) :
    cmdCoprocessor.ViaNeutral (bridgeDrivers disabled) items words connection ↔
      if own.mode = .run ∧ ArgpItem.words items < 2 then True
      else if own.mode = .run ∧ ArgpItem.words items = 2 then ViaLost disabled words connection
      else ViaKept disabled words connection := by
  have early := cmdCoprocessor_early read
  obtain ⟨drv, rest, rfl, known, _⟩ := valid_words valid
  obtain ⟨base, size, mode⟩ := own
  cases mode with
  | stop =>
    have some : 0 < ArgpItem.words items := early rfl
    have accepts (n : Nat) (pos : 0 < n) : cmdCoprocessor.finish n ⟨base, size, .stop⟩ = .ok ⟨base, size, .stop⟩ := by
      simp only [cmdCoprocessor, reduceCtorEq, false_and, if_false]
      rw [if_neg (by omega)]
    have passed : cmdCoprocessor.switches (ArgpItem.words items + 1) (drv :: rest) ⟨base, size, .stop⟩ =
        .ok ⟨base, size, .stop⟩ := by
      refine ViaCommand.switches_passed fun arg m le => ?_
      obtain ⟨k, rfl⟩ : ∃ k, m = k + 1 := ⟨m - 1, by omega⟩
      rfl
    simp only [reduceCtorEq, false_and, if_false]
    exact ViaCommand.viaNeutral_iff_kept plain valid read passed (accepts _ (by omega)) (accepts _ some)
  | run =>
    have accepts (n : Nat) (far : 3 ≤ n) : cmdCoprocessor.finish n ⟨base, size, .run⟩ = .ok ⟨base, size, .run⟩ := by
      simp only [cmdCoprocessor, true_and, reduceCtorEq, false_and, if_false]
      rw [if_neg (by omega)]
    have refuses (n : Nat) (near : n < 3) (r : CmdCoprocessorArgs) :
        cmdCoprocessor.finish n ⟨base, size, .run⟩ ≠ .ok r := by
      intro run
      simp only [cmdCoprocessor, true_and] at run
      rw [if_pos near] at run
      cases run
    have late (n : Nat) (le : 3 ≤ n) :
        cmdCoprocessor.switches n (drv :: rest) ⟨base, size, .run⟩ = .ok ⟨base, size, .run⟩ := by
      refine ViaCommand.switches_passed fun arg m le' => ?_
      obtain ⟨k, rfl⟩ : ∃ k, m = k + 3 := ⟨m - 3, by omega⟩
      rfl
    simp only [true_and]
    rcases Nat.lt_trichotomy (ArgpItem.words items) 2 with few | two | more
    · rw [if_pos few, iff_true]
      refine ViaCommand.viaNeutral_of_both plain valid read (refuses _ (by omega)) fun own' r switched => ?_
      obtain ⟨own₁, first, _⟩ := (ViaCommand.switches_cons_iff (bridgeNames_plain known).1).mp switched
      rcases Nat.lt_or_ge (ArgpItem.words items) 1 with none | one
      · obtain zero : ArgpItem.words items = 0 := by omega
        rw [zero] at first
        obtain ⟨value, parsed, _⟩ := except_bind_ok_iff.mp first
        exact absurd parsed (parseMemArg_name known _ value)
      · obtain one : ArgpItem.words items = 1 := by omega
        rw [one] at first
        obtain ⟨value, parsed, _⟩ := except_bind_ok_iff.mp first
        exact absurd parsed (parseMemArg_name known _ value)
    · rw [if_neg (by omega), if_pos two]
      exact ViaCommand.viaNeutral_iff_of_suffix plain valid read (refuses _ (by omega)) (late _ (by omega))
        (accepts _ (by omega))
    · rw [if_neg (by omega), if_neg (by omega)]
      exact ViaCommand.viaNeutral_iff_kept plain valid read (late _ (by omega)) (accepts _ (by omega))
        (accepts _ (by omega))

omit plain valid in
/-- Neither text is there before its word. -/
theorem cmdReplace_early {own : CmdReplaceArgs} (read : cmdReplace.read 0 items cmdReplace.start = .ok own) :
    (ArgpItem.words items ≤ 1 → own.memMatch = none) ∧ (ArgpItem.words items ≤ 2 → own.memReplace = none) := by
  let early (n : Nat) (own : CmdReplaceArgs) : Prop := (n ≤ 1 → own.memMatch = none) ∧ (n ≤ 2 → own.memReplace = none)
  have step (arg : String) (n : Nat) (own own' : CmdReplaceArgs) (start : early n own)
      (run : cmdReplace.switch arg n own = .ok own') : early (n + 1) own' := by
    obtain ⟨found, put⟩ := start
    match n with
    | 0 =>
      simp only [cmdReplace] at run
      split at run
      · cases run
      · cases run
        exact ⟨fun _ => found (by omega), fun _ => put (by omega)⟩
    | 1 =>
      cases run
      exact ⟨fun le => absurd le (by omega), fun _ => put (by omega)⟩
    | n + 2 => exact ⟨fun le => absurd le (by omega), fun le => absurd le (by omega)⟩
  have kept : early (0 + ArgpItem.words items) own :=
    ViaCommand.read_keeps (fun key arg _ own own' _ run => absurd run (noOption_refuses key arg own own')) step read
      ⟨fun _ => rfl, fun _ => rfl⟩
  rw [Nat.zero_add] at kept
  exact kept

end

/-- The text to be put in is there, and fits. -/
def CmdReplaceArgs.Fits (own : CmdReplaceArgs) : Prop :=
  ∃ found put, own.memMatch = some found ∧ own.memReplace = some put ∧ strlen put ≤ strlen found

theorem cmdReplace_finish_iff {own r : CmdReplaceArgs} {n : Nat} :
    cmdReplace.finish n own = .ok r ↔ (3 ≤ n ∧ own.Fits) ∧ r = own := by
  obtain ⟨found, put⟩ := own
  simp only [cmdReplace, CmdReplaceArgs.Fits]
  split
  case isTrue few =>
    constructor
    · intro run
      cases run
    · rintro ⟨⟨enough, _⟩, _⟩
      omega
  case isFalse enough =>
    cases found with
    | none =>
      constructor
      · intro run
        cases run
      · rintro ⟨⟨_, _, _, here, _⟩, _⟩
        cases here
    | some found =>
      cases put with
      | none =>
        constructor
        · intro run
          cases run
        · rintro ⟨⟨_, _, _, _, here, _⟩, _⟩
          cases here
      | some put =>
        by_cases overruns : strlen found < strlen put
        · simp only [if_pos overruns]
          constructor
          · intro run
            cases run
          · rintro ⟨⟨_, _, _, here, here', fits⟩, _⟩
            cases here
            cases here'
            omega
        · simp only [if_neg overruns]
          constructor
          · intro run
            cases run
            exact ⟨⟨by omega, found, put, rfl, rfl, by omega⟩, rfl⟩
          · rintro ⟨_, same⟩
            rw [same]

/-- The driver and the interface, taken for the two texts, do not fit. -/
def ViaOverruns (words : List String) : Prop :=
  match words with
  | drv :: interface :: _ => strlen drv < strlen interface
  | _ => True

section
variable {disabled : String → Bool} {items : List ArgpItem} {words : List String} {connection : ConnectionArgs}
variable (plain : ArgpItem.NoVia items)
variable (valid : cmdParseVia (bridgeDrivers disabled) words connectionArgs = .ok connection)

/-- No connection has none or four words. -/
theorem viaLost_of_interface {drv : String} {rest : List String} (known : drv ∈ bridgeNames)
    (count : rest.length = 0 ∨ rest.length = 4) : ViaLost disabled (drv :: "via" :: rest) connection := by
  intro c reread
  rw [rereadVia, if_neg (bridgeNames_plain known).1, rereadVia, if_pos rfl] at reread
  obtain ⟨c', via, _⟩ := except_bind_ok_iff.mp reread
  obtain _ | ⟨_, _ | ⟨_, _ | ⟨_, _ | ⟨_, _ | ⟨_, more⟩⟩⟩⟩⟩ := rest
  · cases via
  · exact absurd count (of_decide_eq_false rfl)
  · exact absurd count (of_decide_eq_false rfl)
  · exact absurd count (of_decide_eq_false rfl)
  · cases via
  · simp only [List.length_cons] at count
    omega

/-- The switch sets neither text from the fourth word on, and the first of them from the third. -/
theorem cmdReplace_late {n : Nat} (late : 3 ≤ n) (own : CmdReplaceArgs) (words : List String) :
    cmdReplace.switches n words own = .ok own := by
  refine ViaCommand.switches_passed fun arg m le => ?_
  obtain ⟨k, rfl⟩ : ∃ k, m = k + 3 := ⟨m - 3, by omega⟩
  rfl

include plain valid

theorem cmdReplace_neutral {own : CmdReplaceArgs} (read : cmdReplace.read 0 items cmdReplace.start = .ok own) :
    cmdReplace.ViaNeutral (bridgeDrivers disabled) items words connection ↔
      if ArgpItem.words items = 0 then ViaOverruns words ∨ ViaLost disabled words connection
      else if ArgpItem.words items < 3 then True
      else ¬ own.Fits ∨ ViaKept disabled words connection := by
  obtain ⟨found, put⟩ := cmdReplace_early read
  obtain ⟨drv, rest, rfl, known, count⟩ := valid_words valid
  have via := (bridgeNames_plain known).1
  have unfit (n : Nat) (own₁ r : CmdReplaceArgs) (bad : n < 3 ∨ ¬ own₁.Fits) :
      cmdReplace.finish n own₁ ≠ .ok r := by
    intro run
    obtain ⟨⟨enough, fits⟩, _⟩ := cmdReplace_finish_iff.mp run
    rcases bad with few | bad
    · omega
    · exact bad fits
  rcases Nat.lt_or_ge (ArgpItem.words items) 3 with few | more
  · have alone (r : CmdReplaceArgs) := unfit (ArgpItem.words items) own r (Or.inl few)
    by_cases zero : ArgpItem.words items = 0
    · rw [if_pos zero]
      have start (own' : CmdReplaceArgs) : cmdReplace.switches (ArgpItem.words items + 1) (drv :: rest) own = .ok own' ↔
          cmdReplace.switches 2 rest ⟨some drv, own.memReplace⟩ = .ok own' := by
        rw [ViaCommand.switches_cons_iff via, zero]
        constructor
        · rintro ⟨_, first, later⟩
          cases first
          exact later
        · exact fun later => ⟨_, rfl, later⟩
      cases rest with
      | nil =>
        have single : ViaOverruns [drv] := trivial
        rw [iff_true_right (Or.inl single)]
        exact ViaCommand.viaNeutral_of_both plain valid read alone
          fun own' r _ => unfit _ _ r (Or.inl (by rw [List.length_singleton]; omega))
      | cons interface rest =>
        by_cases again : interface = "via"
        · subst again
          have lost : ViaLost disabled (drv :: "via" :: rest) connection := by
            refine viaLost_of_interface known ?_
            rw [List.length_cons] at count
            omega
          rw [iff_true_right (Or.inr lost)]
          refine ViaCommand.viaNeutral_of_both plain valid read alone fun own' r switched => unfit _ _ r (Or.inr ?_)
          rw [start, ViaCommand.switches, if_pos rfl, cmdReplace_late (by decide)] at switched
          cases switched
          rintro ⟨_, _, _, here, _⟩
          rw [put (by omega)] at here
          cases here
        · have both : cmdReplace.switches (ArgpItem.words items + 1) (drv :: interface :: rest) own =
              .ok ⟨some drv, some interface⟩ :=
            (start _).mpr ((ViaCommand.switches_cons_iff again).mpr ⟨_, rfl, cmdReplace_late (by decide) _ _⟩)
          by_cases overruns : strlen drv < strlen interface
          · have longer : ViaOverruns (drv :: interface :: rest) := overruns
            rw [iff_true_right (Or.inl longer)]
            refine ViaCommand.viaNeutral_of_both plain valid read alone fun own' r switched => unfit _ _ r (Or.inr ?_)
            rw [both] at switched
            cases switched
            rintro ⟨_, _, here, here', fits⟩
            cases here
            cases here'
            omega
          · have outright : ¬ ViaOverruns (drv :: interface :: rest) := overruns
            rw [or_iff_right outright]
            refine ViaCommand.viaNeutral_iff_of_suffix plain valid read alone both
              (cmdReplace_finish_iff.mpr ⟨⟨?_, drv, interface, rfl, rfl, by omega⟩, rfl⟩)
            simp only [List.length_cons]
            omega
    · rw [if_neg zero, if_pos few, iff_true]
      refine ViaCommand.viaNeutral_of_both plain valid read alone fun own' r switched => unfit _ _ r (Or.inr ?_)
      rcases Nat.lt_or_ge (ArgpItem.words items) 2 with one | two
      · obtain one : ArgpItem.words items = 1 := by omega
        rw [one] at switched
        obtain ⟨_, first, later⟩ := (ViaCommand.switches_cons_iff via).mp switched
        cases first
        rw [cmdReplace_late (by decide)] at later
        cases later
        rintro ⟨_, _, here, _⟩
        rw [found (by omega)] at here
        cases here
      · rw [cmdReplace_late (by omega)] at switched
        cases switched
        rintro ⟨_, _, _, here, _⟩
        rw [put (by omega)] at here
        cases here
  · rw [if_neg (by omega), if_neg (by omega)]
    have same : cmdReplace.finish (ArgpItem.words items + 1 + (drv :: rest).length) own =
        cmdReplace.finish (ArgpItem.words items) own := by
      simp only [cmdReplace]
      rw [if_neg (by omega), if_neg (by omega)]
    rw [ViaCommand.viaNeutral_iff_of_passed plain valid read (cmdReplace_late (by omega) own _) same]
    refine or_congr ⟨fun refused fits => ?_, fun bad r => unfit _ _ r (Or.inr bad)⟩ Iff.rfl
    exact refused own (cmdReplace_finish_iff.mpr ⟨⟨more, fits⟩, rfl⟩)

end

namespace ViaCmd

/-- When a suffix that names a connection does nothing else to a command line, by what its options and
words before the `via` left in the arguments, and by how many words there are. -/
def Immune (disabled : String → Bool) (words : List String) (connection : ConnectionArgs) (count : Nat) :
    (cmd : ViaCmd) → cmd.Own → Prop
  | read, (own : CmdMemArgs) =>
    match own.mode with
    | .none => True
    | .firmware => ViaKept disabled words connection
    | .ram =>
      if count = 0 then False
      else if count = 1 then ViaLost disabled words connection
      else ViaKept disabled words connection
  | write, (own : CmdMemArgs) =>
    match own.mode with
    | .none => True
    | .firmware => ViaKept disabled words connection
    | .ram =>
      if count = 0 then True
      else if count = 1 then ViaLost disabled words connection
      else ViaKept disabled words connection
  | otp, (own : OtpOwn) =>
    if count = 0 then True
    else if count = 1 then words.length = 1 ∨ ViaLost disabled words connection
    else if own.read = false ∧ count < 4 then ViaLost disabled words connection
    else ViaKept disabled words connection
  | sfc, (own : CmdSfcArgs) => own.sfc = none ∨
    if count = 0 then words.length = 1 ∨ ViaLost disabled words connection
    else if count < 3 then ViaLost disabled words connection
    else ViaKept disabled words connection
  | reset, _ => if count < 2 then ViaLost disabled words connection else ViaKept disabled words connection
  | replace, (own : CmdReplaceArgs) =>
    if count = 0 then ViaOverruns words ∨ ViaLost disabled words connection
    else if count < 3 then True
    else ¬ own.Fits ∨ ViaKept disabled words connection
  | trace, (own : CmdTraceArgs) =>
    own.address &&& (own.width - 1) ≠ 0 ∨ 2 ≤ count ∧ ViaKept disabled words connection
  | coprocessor, (own : CmdCoprocessorArgs) =>
    if own.mode = .run ∧ count < 2 then True
    else if own.mode = .run ∧ count = 2 then ViaLost disabled words connection
    else ViaKept disabled words connection
  | probe, _ => ViaKept disabled words connection

end ViaCmd

/-- A suffix that names a connection decides nothing else about a command line without `via` when the options
and words of that line are refused anyway, and else exactly when the command is immune to the words there. -/
theorem via_suffix_neutral_iff (cmd : ViaCmd) (disabled : String → Bool) (items : List ArgpItem)
    (plain : ArgpItem.NoVia items) (words : List String) (connection : ConnectionArgs)
    (valid : cmdParseVia (bridgeDrivers disabled) words connectionArgs = .ok connection) :
    cmd.command.ViaNeutral (bridgeDrivers disabled) items words connection ↔
      ∀ own, cmd.command.read 0 items cmd.command.start = .ok own →
        cmd.Immune disabled words connection (ArgpItem.words items) own := by
  by_cases refused : ∀ own, cmd.command.read 0 items cmd.command.start ≠ .ok own
  · rw [iff_true_left (ViaCommand.viaNeutral_of_refused plain valid refused)]
    exact fun own read => absurd read (refused own)
  · obtain ⟨own, read⟩ : ∃ own, cmd.command.read 0 items cmd.command.start = .ok own := by
      by_contra none
      exact refused fun own read => none ⟨own, read⟩
    have one : (∀ own, cmd.command.read 0 items cmd.command.start = .ok own →
        cmd.Immune disabled words connection (ArgpItem.words items) own) ↔
          cmd.Immune disabled words connection (ArgpItem.words items) own := by
      constructor
      · exact fun all => all own read
      · intro immune own' read'
        rw [read] at read'
        cases read'
        exact immune
    rw [one]
    cases cmd with
    | read => exact cmdReadArgp_neutral plain valid read
    | write => exact cmdWrite_neutral plain valid read
    | otp => exact cmdOtp_neutral plain valid read
    | sfc => exact cmdSfc_neutral plain valid read
    | reset => exact cmdReset_neutral plain valid read
    | replace => exact cmdReplace_neutral plain valid read
    | trace => exact cmdTrace_neutral plain valid read
    | coprocessor => exact cmdCoprocessor_neutral plain valid read
    | probe => exact cmdProbe_neutral plain valid read

/-- `reset soc wdt1 via l2a` -/
theorem via_suffix_neutral_reset : cmdReset.ViaNeutral (bridgeDrivers fun _ => false) [.word "soc", .word "wdt1"] ["l2a"]
    { connectionArgs with bridgeDriver := some ⟨"l2a", false, false⟩ } := by
  have iff := via_suffix_neutral_iff .reset (fun _ => false) [.word "soc", .word "wdt1"]
    (by simp [ArgpItem.NoVia]) ["l2a"] { connectionArgs with bridgeDriver := some ⟨"l2a", false, false⟩ } rfl
  exact iff.mpr fun own _ => rfl

/-- `read -t ram` takes all of the RAM, but `read -t ram via p2a` the name of the driver for a size. -/
theorem via_suffix_changes_read :
    cmdParseVia (bridgeDrivers fun _ => false) ["p2a"] connectionArgs =
        .ok { connectionArgs with bridgeDriver := some ⟨"p2a", false, false⟩ } ∧
      ¬ cmdReadArgp.ViaNeutral (bridgeDrivers fun _ => false) [.option 't' (some "ram") ["-t", "ram"]] ["p2a"]
        { connectionArgs with bridgeDriver := some ⟨"p2a", false, false⟩ } := by
  have valid : cmdParseVia (bridgeDrivers fun _ => false) ["p2a"] connectionArgs =
      .ok { connectionArgs with bridgeDriver := some ⟨"p2a", false, false⟩ } := rfl
  have ram : cmdReadArgp.read 0 [.option 't' (some "ram") ["-t", "ram"]] cmdReadArgp.start = .ok ⟨0, 0, .ram⟩ := rfl
  refine ⟨valid, fun neutral => ?_⟩
  exact (cmdReadArgp_neutral (by simp [ArgpItem.NoVia]) valid ram).mp neutral

end Culvert
