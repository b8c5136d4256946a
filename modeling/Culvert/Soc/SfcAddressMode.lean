import Culvert.Hw.SpiNor
import Culvert.Soc.SfcInit

/-! The address mode that `flash_init` leaves in the chip, the driver and the controller. -/

namespace Culvert

open Prog SpiHost Faulty

/-- No access fails, the driver's data are `ct`, and the controller is in `h`. -/
def SfcDev.At {χ : Type} (ct : SfcData) (h : SpiHost χ) (s : SfcDev χ) : Prop := s.bus.Sound ∧ s.ct = ct ∧ s.bus.dev = h

section
variable {χ α : Type} {ct : SfcData} {h h' : SpiHost χ}

open SfcDev

theorem onBus_leads {m : SfcData → Prog (Faulty (SpiHost χ)) α} {a : α} {n : Nat}
    (run : ∀ s : Faulty (SpiHost χ), s.Sound → s.dev = h → (m ct).run s = .ok a (s.after n h')) :
    Leads (SfcDev.At ct h) (onBus m) a (SfcDev.At ct h') := by
  rintro s ⟨sound, data, dev⟩
  have ran : m s.ct s.bus = .ok a (s.bus.after n h') := by
    rw [data]
    exact run s.bus sound dev
  refine ⟨{ s with bus := s.bus.after n h' }, ?_, sound, data, rfl⟩
  rw [EStateM.run, onBus, ran]

theorem onBus_leads_of_takes {I : SpiHost χ → Prop} {m : SfcData → Prog (Faulty (SpiHost χ)) α} {a : α} {n : Nat}
    (takes : Takes I h (m ct) n a h') : Leads (SfcDev.At ct h) (onBus m) a (SfcDev.At ct h') :=
  onBus_leads fun s sound here => takes.clear s here fun k _ => sound (s.accesses + k)

variable (spi : SpiChip χ)

theorem readl_leads (off : SfcData → Word) :
    Leads (SfcDev.At ct h) (onBus fun ct => sfcReadl (off ct)) (h.regs (off ct)) (SfcDev.At ct h) :=
  onBus_leads_of_takes (I := fun _ => True) (Takes.access (SpiHost.readl (off ct)) trivial)

/-- A control value without the bits of user mode, or one for another register, leaves CE# alone. -/
theorem writel_leads (off val : SfcData → Word) (plain : off ct = ceCtrl → val ct &&& 7 = 0) :
    Leads (SfcDev.At ct h) (onBus fun ct => sfcWritel spi (off ct) (val ct)) ()
      (SfcDev.At ct { h with regs := Function.update h.regs (off ct) (val ct) }) := by
  have takes := Takes.access (I := fun _ => True) (fun h => ((), SpiHost.writel spi (off ct) (val ct) h)) (d := h)
    trivial
  rw [writel_plain spi plain] at takes
  exact onBus_leads_of_takes takes

/-- The operations of the driver for a chip that is identified or not. -/
def sfcOpsOf (finfo : Option FlashInfo) : Sfc (SfcDev χ) := { sfcOps spi with finfo }

theorem cmdWr_leads (finfo : Option FlashInfo) (op : Byte) : Leads (SfcDev.At ct h) ((sfcOpsOf spi finfo).cmdWr op none []) ()
    (SfcDev.At ct (h.closed ct (spi.transfer [op] 0 (rested spi h)).2)) := by
  show Leads (SfcDev.At ct h) (onBus fun ct => sfcCmdWr spi ct op none []) () _
  refine onBus_leads (n := 5) fun s sound here => ?_
  have clear (n : Nat) : s.Clear n := fun k _ => sound (s.accesses + k)
  obtain ⟨s', run, closing⟩ := sfcCmdWr_clear spi ct op none s [] (clear _)
  rw [run, closing (clear _), here]
  rfl

theorem cmdRd_leads (finfo : Option FlashInfo) (op : Byte) (n : Nat) :
    Leads (SfcDev.At ct h) ((sfcOpsOf spi finfo).cmdRd op none n)
      ((spi.transfer [op] (4 * wordsFor n) (rested spi h)).1.take n)
      (SfcDev.At ct (h.closed ct (spi.transfer [op] (4 * wordsFor n) (rested spi h)).2)) := by
  have leads : Leads (SfcDev.At ct h) (onBus fun ct => sfcCmdRd spi ct op none (List.replicate n 0) n)
      ((spi.transfer [op] (4 * wordsFor n) (rested spi h)).1.take n, .ok ())
      (SfcDev.At ct (h.closed ct (spi.transfer [op] (4 * wordsFor n) (rested spi h)).2)) := by
    refine onBus_leads (n := 3 + wordsFor n + 2) fun s sound here => ?_
    have clear (n : Nat) : s.Clear n := fun k _ => sound (s.accesses + k)
    obtain ⟨s', run, closing⟩ := sfcCmdRd_clear spi ct op none s (List.replicate n 0) n (by rw [List.length_replicate])
      (clear _)
    rw [run, closing (clear _), here, List.drop_replicate, Nat.sub_self, List.replicate_zero, List.append_nil]
    rfl
  exact leads.bind (Leads.pure fun _ here => here)

end

/-! ## The chip behind it -/

section
variable {ct : SfcData} {h : SpiHost SpiNorBus} {c : SpiNor} {finfo : Option FlashInfo}

open SfcDev SpiNorBus

/-- As a command leaves it, with the chip in `c`. -/
def Resting (ct : SfcData) (h : SpiHost SpiNorBus) (c : SpiNor) : SfcDev SpiNorBus → Prop :=
  SfcDev.At ct (h.closed ct ⟨c, [], 0⟩)

/-- The chip once CE# is inactive. -/
def SpiHost.nor (h : SpiHost SpiNorBus) : SpiNor := (rested spi h).chip

theorem resting_closed (ct' : SfcData) (w : SpiNorBus) (c : SpiNor) :
    Resting ct (h.closed ct' w) c = Resting ct h c := by
  simp only [Resting, SpiHost.closed, Function.update_idem]

@[simp] theorem nor_closed : (h.closed ct ⟨c, [], 0⟩).nor = c := rfl

theorem wr_leads (op : Byte) : Leads (SfcDev.At ct h) ((sfcOpsOf spi finfo).cmdWr op none []) ()
    (Resting ct h (h.nor.execute [op])) := by
  have leads : Leads (SfcDev.At ct h) _ _ _ := cmdWr_leads spi finfo op
  rw [transfer_spi] at leads
  exact leads

theorem rd_leads (op : Byte) (n : Nat) : Leads (SfcDev.At ct h) ((sfcOpsOf spi finfo).cmdRd op none n)
    ((List.range n).map (h.nor.answer [op])) (Resting ct h (h.nor.execute [op])) := by
  have leads : Leads (SfcDev.At ct h) _ _ _ := cmdRd_leads spi finfo op n
  have enough : min n (4 * wordsFor n) = n := by
    simp only [wordsFor]
    omega
  rw [transfer_spi] at leads
  dsimp only at leads
  rw [← List.map_take, List.take_range, enough] at leads
  exact leads

theorem flReadStat_leads : Leads (SfcDev.At ct h) (flReadStat (sfcOpsOf spi finfo)) h.nor.status
    (Resting ct h (h.nor.execute [cmdRdsr])) :=
  (rd_leads cmdRdsr 1).bind (f := fun bs => Pure.pure (bs.headD 0)) (Leads.pure fun _ rest => rest)

theorem resting_skip (ct : SfcData) (h : SpiHost SpiNorBus) (c : SpiNor) :
    Leads (Resting ct h c) (Pure.pure ()) () (Resting ct h c) := Leads.pure fun _ rest => rest

theorem rd_rest (op : Byte) (n : Nat) (idle : c.busy = 0) (plain : [op] ∉ [[cmdWren], [cmdEn4b], [cmdEx4b]]) :
    Leads (Resting ct h c) ((sfcOpsOf spi finfo).cmdRd op none n) ((List.range n).map (c.answer [op]))
      (Resting ct h c) := by
  have leads : Leads (Resting ct h c) ((sfcOpsOf spi finfo).cmdRd op none n) _ _ := rd_leads op n
  rw [nor_closed, resting_closed, SpiNor.execute_other idle plain] at leads
  exact leads

theorem wr_rest (op : Byte) : Leads (Resting ct h c) ((sfcOpsOf spi finfo).cmdWr op none []) ()
    (Resting ct h (c.execute [op])) := by
  have leads : Leads (Resting ct h c) ((sfcOpsOf spi finfo).cmdWr op none []) _ _ := wr_leads op
  rw [nor_closed, resting_closed] at leads
  exact leads

theorem flReadStat_rest (idle : c.busy = 0) :
    Leads (Resting ct h c) (flReadStat (sfcOpsOf spi finfo)) c.status (Resting ct h c) :=
  (rd_rest cmdRdsr 1 idle (by decide)).bind (f := fun bs => Pure.pure (bs.headD 0)) (Leads.pure fun _ rest => rest)

theorem flChipId_leads (fuel : Nat) (idle : h.nor.busy = 0) :
    Leads (SfcDev.At ct h) (flChipId fuel (sfcOpsOf spi none)) (SpiNor.idBytes h.nor.info) (Resting ct h h.nor) := by
  have first : Leads (SfcDev.At ct h) (flReadStat (sfcOpsOf spi none)) _ _ := flReadStat_leads
  rw [SpiNor.execute_other idle (by decide)] at first
  have last : Leads (Resting ct h h.nor) ((sfcOpsOf spi none).cmdRd cmdRdid none 3) _ _ :=
    rd_rest cmdRdid 3 idle (by decide)
  have quiet : ¬ h.nor.status &&& statWip ≠ 0 := fun busy => SpiNor.status_wip_iff.mp busy idle
  refine first.bind (f := fun stat => do
    if stat &&& statWip ≠ 0 then flSyncWaitIdle (sfcOpsOf spi none) fuel else Pure.pure ()
    (sfcOpsOf spi none).cmdRd cmdRdid none 3) ?_
  rw [if_neg quiet]
  exact (resting_skip ct h h.nor).bind (f := fun _ => (sfcOpsOf spi none).cmdRd cmdRdid none 3) last

theorem flashLookup_idBytes {info : FlashInfo} (known : info ∈ flashInfos) :
    flashLookup (idWord (SpiNor.idBytes info)) = some info := by
  revert info
  decide

/-- The chip that is identified as `info`. -/
def identified (info : FlashInfo) (mask : Word) : FlashChip (SfcDev SpiNorBus) :=
  { ctrl := sfcOpsOf spi (some info), info, tsize := info.size, minEraseMask := mask, mode4b := false }

theorem flashIdentify_leads (fuel : Nat) (idle : h.nor.busy = 0) (known : h.nor.info ∈ flashInfos) {mask : Word}
    (granule : flMinEraseMask h.nor.info.flags = some mask) :
    Leads (SfcDev.At ct h) (flashIdentify fuel (sfcOpsOf spi none)) (identified h.nor.info mask) (Resting ct h h.nor) := by
  have first : Leads (SfcDev.At ct h) _ _ _ := flChipId_leads fuel idle
  refine first.bind ?_
  have three : ¬ (SpiNor.idBytes h.nor.info).length < 3 := by
    simp [SpiNor.idBytes]
  rw [if_neg three, flashLookup_idBytes known]
  dsimp only
  rw [granule]
  exact (resting_skip ct h h.nor).bind (f := fun _ => Pure.pure (identified h.nor.info mask))
    (Leads.pure fun _ rest => rest)

theorem flWren_leads (fuel : Nat) (idle : c.busy = 0) :
    Leads (Resting ct h c) (flWren (sfcOpsOf spi finfo) fuel) () (Resting ct h c.enabled) := by
  have first : Leads (Resting ct h c) ((sfcOpsOf spi finfo).cmdWr cmdWren none []) _ _ := wr_rest cmdWren
  rw [SpiNor.execute_wren idle] at first
  have second : Leads (Resting ct h c.enabled) (flReadStat (sfcOpsOf spi finfo)) _ _ := flReadStat_rest idle
  have quiet : ¬ c.enabled.status &&& statWip ≠ 0 := fun busy => SpiNor.status_wip_iff.mp busy idle
  have ready : c.enabled.status &&& statWen ≠ 0 := SpiNor.status_wen rfl
  rw [flWren, flWrenLoop]
  refine first.bind (second.bind ?_)
  rw [if_neg quiet, if_pos ready]
  exact Leads.pure fun _ rest => rest

/-- The chip in the given mode, where it has it. -/
def SpiNor.in4b (c : SpiNor) (enable : Bool) : SpiNor := if enable then c.enter4b else c.exit4b

theorem flashSet4b_leads {info : FlashInfo} {mask : Word} (fuel : Nat) (enable : Bool) (idle : c.busy = 0) :
    Leads (Resting ct h c) (flashSet4b fuel (identified info mask) enable) ()
      (Resting ct h (c.enabled.in4b enable)) := by
  have first : Leads (Resting ct h c) (flWren (sfcOpsOf spi (some info)) fuel) _ _ := flWren_leads fuel idle
  have second : Leads (Resting ct h c.enabled)
      ((sfcOpsOf spi (some info)).cmdWr (if enable then cmdEn4b else cmdEx4b) none []) _ _ := wr_rest _
  refine first.attempt.bind (f := fun _ => (sfcOpsOf spi (some info)).cmdWr (if enable then cmdEn4b else cmdEx4b) none []) ?_
  cases enable with
  | true =>
    rw [if_pos rfl, SpiNor.execute_en4b (c := c.enabled) idle fun _ => rfl] at second
    exact second
  | false =>
    rw [if_neg Bool.false_ne_true, SpiNor.execute_ex4b (c := c.enabled) idle fun _ => rfl] at second
    exact second

end

section
variable {χ : Type} (spi : SpiChip χ) {ct : SfcData} {h : SpiHost χ}

open SfcDev

/-- The controller with the control value of the mode. -/
def SpiHost.switched (h : SpiHost χ) (ct : SfcData) (enable : Bool) : SpiHost χ :=
  { h with regs := Function.update h.regs ceCtrl (ct.with4b enable).ctlReadVal }

theorem with4b_type (ct : SfcData) (enable : Bool) : (ct.with4b enable).type = ct.type := by
  cases enable
  · rfl
  · rfl

theorem sfcSwitch4b_leads (enable : Bool) (ce : Word) {h' : SpiHost χ}
    (last : let ce' := if enable then ce ||| 1 else ce &&& ~~~1
      Leads (SfcDev.At (ct.with4b enable) (h.switched ct enable))
        (if ce' ≠ 0 ∧ ct.type = .fmc then onBus fun _ => sfcWritel spi fmcCeCtrl ce' else Pure.pure ()) ()
        (SfcDev.At (ct.with4b enable) h')) :
    Leads (SfcDev.At ct h) (sfcSwitch4b spi enable ce) () (SfcDev.At (ct.with4b enable) h') := by
  have first : Leads (SfcDev.At ct h) (modify fun s : SfcDev χ => { s with ct := s.ct.with4b enable }) ()
      (SfcDev.At (ct.with4b enable) h) := by
    refine Leads.modify ?_
    rintro s ⟨sound, rfl, dev⟩
    exact ⟨sound, rfl, dev⟩
  have second : Leads (SfcDev.At (ct.with4b enable) h) _ _ _ :=
    writel_leads spi (fun ct => ct.type.ctlReg) (fun ct => ct.ctlReadVal) fun _ => (ct.with4b enable).readPlain
  rw [SfcType.ctlReg_eq] at second
  refine first.bind (second.bind (Leads.get ?_))
  rintro s ⟨_, data, _⟩
  rw [data, with4b_type]
  exact last

theorem sfcSet4b_smc (type : ct.type = .smc) (finfo : Option FlashInfo) (enable : Bool) :
    Leads (SfcDev.At ct h) (sfcSet4b spi finfo enable) () (SfcDev.At (ct.with4b enable) (h.switched ct enable)) := by
  refine Leads.get ?_
  rintro s ⟨_, rfl, _⟩
  rw [type]
  refine sfcSwitch4b_leads spi enable 0 ?_
  dsimp only
  rw [if_neg]
  · exact Leads.pure fun _ here => here
  · rintro ⟨_, fmc⟩
    rw [type] at fmc
    cases fmc

/-- Bit 0 of the FMC's CE control register set besides. -/
def SpiHost.wide (h : SpiHost χ) (ct : SfcData) : SpiHost χ :=
  { h.switched ct true with
    regs := Function.update (h.switched ct true).regs fmcCeCtrl (h.regs fmcCeCtrl ||| 1) }

theorem sfcSet4b_fmc_large (type : ct.type = .fmc) {info : FlashInfo} (large : info.size > threeByteMax) :
    Leads (SfcDev.At ct h) (sfcSet4b spi (some info) true) () (SfcDev.At (ct.with4b true) (h.wide ct)) := by
  refine Leads.get ?_
  rintro s ⟨_, rfl, _⟩
  rw [type]
  dsimp only
  rw [if_pos large]
  refine (readl_leads fun _ => fmcCeCtrl).bind (sfcSwitch4b_leads spi true _ ?_)
  have some : h.regs fmcCeCtrl ||| 1 ≠ 0 := by
    intro none
    have bit := congrArg (fun w : Word => w &&& 1) none
    rw [BitVec.or_and_self_right] at bit
    exact absurd bit (by decide)
  dsimp only
  rw [if_pos rfl, if_pos ⟨some, type⟩]
  have differ : fmcCeCtrl ≠ ceCtrl := by decide
  exact writel_leads spi (fun _ => fmcCeCtrl) (fun _ => h.regs fmcCeCtrl ||| 1) fun same => absurd same differ

/-- On the FMC the controller is left as it is for a chip that three address bytes reach. -/
theorem sfcSet4b_fmc_small (type : ct.type = .fmc) {info : FlashInfo} (small : ¬ info.size > threeByteMax) :
    Leads (SfcDev.At ct h) (sfcSet4b spi (some info) false) () (SfcDev.At ct h) := by
  refine Leads.get ?_
  rintro s ⟨_, rfl, _⟩
  rw [type]
  dsimp only
  rw [if_neg small, if_neg Bool.false_ne_true]
  exact Leads.pure fun _ here => here

/-- The controller as `sfc_init_device` leaves it. -/
def SpiHost.sanitized (h : SpiHost χ) (type : SfcType) : SpiHost χ :=
  let regs := Function.update h.regs type.typeReg (h.regs type.typeReg ||| (7 <<< 16))
  { h with regs := Function.update (Function.update regs ceCtrl 0x400) type.freadTimingReg 0 }

theorem sfcInitDevice_leads {type : SfcType} (there : h.regs ceCtrl ≠ 0xffffffff) :
    Leads (SfcDev.At (.zeroed type) h) (sfcInitDevice spi) () (SfcDev.At (.sanitized type false) (h.sanitized type)) := by
  have read : Leads (SfcDev.At (.zeroed type) h) _ _ _ := readl_leads fun ct => ct.type.ctlReg
  have ctl : (SfcData.zeroed type).type.ctlReg = ceCtrl := SfcType.ctlReg_eq type
  rw [ctl] at read
  refine read.bind ?_
  rw [if_neg there]
  refine (readl_leads fun ct => ct.type.typeReg).bind ?_
  have apart : type.typeReg ≠ ceCtrl ∧ type.freadTimingReg ≠ ceCtrl := by
    cases type
    · decide
    · decide
  refine (writel_leads spi (fun ct => ct.type.typeReg) (fun _ => h.regs type.typeReg ||| (7 <<< 16))
    fun same => absurd same apart.1).bind ?_
  have calm : Leads (SfcDev.At (.zeroed type) { h with
        regs := Function.update h.regs type.typeReg (h.regs type.typeReg ||| (7 <<< 16)) })
      (modify fun s : SfcDev χ => { s with ct := .sanitized s.ct.type s.ct.mode4b }) ()
      (SfcDev.At (.sanitized type false) { h with
        regs := Function.update h.regs type.typeReg (h.regs type.typeReg ||| (7 <<< 16)) }) := by
    refine Leads.modify ?_
    rintro s ⟨sound, data, dev⟩
    refine ⟨sound, ?_, dev⟩
    rw [data]
    rfl
  refine calm.bind ?_
  have write : Leads (SfcDev.At (.sanitized type false) { h with
      regs := Function.update h.regs type.typeReg (h.regs type.typeReg ||| (7 <<< 16)) }) _ _ _ :=
    writel_leads spi (fun ct => ct.type.ctlReg) (fun ct => ct.ctlReadVal)
      fun _ => (SfcData.sanitized type false).readPlain
  have ctl : (SfcData.sanitized type false).type.ctlReg = ceCtrl := SfcType.ctlReg_eq type
  rw [ctl] at write
  refine write.bind ?_
  refine (writel_leads spi (fun ct => ct.type.freadTimingReg) (fun ct => ct.freadTimingVal)
    fun same => absurd same apart.2).bind (Leads.modify ?_)
  rintro s ⟨sound, data, dev⟩
  refine ⟨sound, ?_, dev⟩
  rw [data]
  rfl

theorem sfcInitDevice_not_ok {type : SfcType} (gone : h.regs ceCtrl = 0xffffffff) {s s' : SfcDev χ} {r : Unit}
    (start : SfcDev.At (.zeroed type) h s) : (sfcInitDevice spi).run s ≠ .ok r s' := by
  intro run
  obtain ⟨ctl, s₁, head, tail⟩ := Prog.bind_ok_iff.mp run
  have read : Leads (SfcDev.At (.zeroed type) h) _ _ _ := readl_leads fun ct => ct.type.ctlReg
  have reg : (SfcData.zeroed type).type.ctlReg = ceCtrl := SfcType.ctlReg_eq type
  rw [reg] at read
  obtain ⟨rfl, _⟩ := read.result start head
  rw [if_pos gone] at tail
  cases tail

end

/-- The four places that hold the address mode agree with the size of the chip. -/
structure AddressModesAgree (s : SfcDev SpiNorBus) (tsize : Word) : Prop where
  chip : s.bus.dev.chip.chip.mode4b = decide (tsize > threeByteMax)
  driver : s.ct.mode4b = decide (tsize > threeByteMax)
  control : (s.bus.dev.regs s.ct.type.ctlReg).getLsbD 13 = decide (tsize > threeByteMax)
  ce : s.ct.type = .fmc → (s.bus.dev.regs fmcCeCtrl).getLsbD 0 = decide (tsize > threeByteMax)

section
variable {ct : SfcData} {h : SpiHost SpiNorBus} {c : SpiNor} {mask : Word}

open SfcDev SpiNorBus

theorem flashConfigure_leads (fuel : Nat) {info : FlashInfo} (known : info ∈ flashInfos) {P Q : SfcDev SpiNorBus → Prop}
    (select : Leads P (flashSelectMode fuel (identified info mask)) () Q) :
    Leads P (flashConfigure fuel (identified info mask)) (identified info mask) Q := by
  have cropped : { identified info mask with tsize := cropSize info.size info.flags } = identified info mask := by
    rw [cropSize_eq known]
    rfl
  have shape : flashConfigure fuel (identified info mask) = (do
      let c := { identified info mask with tsize := cropSize info.size info.flags }
      flashSelectMode fuel c
      return c) := rfl
  rw [shape, cropped]
  exact select.bind (Leads.pure fun _ here => here)

theorem flashSelectMode_large (fuel : Nat) {info : FlashInfo}
    (large : info.size > threeByteMax) (idle : c.busy = 0) {h' : SpiHost SpiNorBus}
    (last : Leads (Resting ct h (c.enabled.in4b true)) (sfcSet4b spi (some info) true) () (SfcDev.At (ct.with4b true) h')) :
    Leads (Resting ct h c) (flashSelectMode fuel (identified info mask)) () (SfcDev.At (ct.with4b true) h') := by
  have wide : (identified info mask).tsize > 0x01000000 := large
  rw [flashSelectMode, if_pos wide]
  exact (flashSet4b_leads fuel true idle).bind (f := fun _ => (identified info mask).ctrlSet4b true) last

/-- Out of the 4-byte mode, for a chip that has it. -/
def SpiNor.small (c : SpiNor) : SpiNor := if c.info.flags &&& flCan4b ≠ 0 then c.enabled.exit4b else c

theorem small_mode (c : SpiNor) : c.small.mode4b = false := by
  rw [SpiNor.small]
  split
  · rfl
  · rename_i unable
    cases mode : c.mode4b with
    | false => rfl
    | true => exact absurd (c.able mode) unable

theorem flashClear4b_leads (fuel : Nat) (idle : c.busy = 0) :
    Leads (Resting ct h c) (flashClear4b fuel (identified c.info mask)) () (Resting ct h c.small) := by
  rw [SpiNor.small, flashClear4b]
  by_cases can : c.info.flags &&& flCan4b ≠ 0
  · rw [if_pos can]
    have able : (identified c.info mask).info.flags &&& flCan4b ≠ 0 := can
    rw [if_pos able]
    exact flashSet4b_leads fuel false idle
  · rw [if_neg can]
    have unable : ¬ (identified c.info mask).info.flags &&& flCan4b ≠ 0 := can
    rw [if_neg unable]
    exact resting_skip ct h c

theorem flashSelectMode_small (fuel : Nat) (small : ¬ c.info.size > threeByteMax)
    (idle : c.busy = 0) {ct' : SfcData} {h' : SpiHost SpiNorBus}
    (last : Leads (Resting ct h c.small) (sfcSet4b spi (some c.info) false) () (SfcDev.At ct' h')) :
    Leads (Resting ct h c) (flashSelectMode fuel (identified c.info mask)) () (SfcDev.At ct' h') := by
  have narrow : ¬ (identified c.info mask).tsize > 0x01000000 := small
  rw [flashSelectMode, if_neg narrow]
  exact (flashClear4b_leads fuel idle).bind (f := fun _ => (identified c.info mask).ctrlSet4b false) last

end

/-! ## Whole runs -/

section
variable {type : SfcType} {h : SpiHost SpiNorBus}

open SfcDev SpiNorBus

theorem execute_info (sent : List Byte) (c : SpiNor) : (c.execute sent).info = c.info := by
  have entered : c.enter4b.info = c.info := by
    rw [SpiNor.enter4b]
    split
    · rfl
    · rfl
  simp only [SpiNor.execute]
  split
  · rfl
  split
  · rfl
  split
  · exact entered
  split
  · rfl
  · rfl

theorem nor_info (h : SpiHost SpiNorBus) : h.nor.info = h.chip.chip.info := by
  rw [SpiHost.nor, rested]
  cases h.active
  · rfl
  · exact execute_info _ _

theorem in4b_true {c : SpiNor} (known : c.info ∈ flashInfos) (large : c.info.size > threeByteMax) :
    (c.enabled.in4b true).mode4b = true := by
  have can : c.enabled.info.flags &&& flCan4b ≠ 0 := can4b_of_large known large
  rw [SpiNor.in4b, if_pos rfl, SpiNor.enter4b, dif_pos can]

theorem ce_apart : fmcCeCtrl ≠ ceCtrl := by decide

theorem selectMode_large (fuel : Nat) (mask : Word) (idle : h.nor.busy = 0) (known : h.nor.info ∈ flashInfos)
    (large : h.nor.info.size > threeByteMax) : Leads (Resting (.sanitized type false) h h.nor)
      (flashSelectMode fuel (identified h.nor.info mask)) () (AddressModesAgree · h.nor.info.size) := by
  have mode := in4b_true known large
  cases type with
  | smc =>
    have last : Leads (Resting (.sanitized .smc false) h h.nor) (flashSelectMode fuel (identified h.nor.info mask)) _ _ :=
      flashSelectMode_large fuel large idle (sfcSet4b_smc spi rfl (some h.nor.info) true)
    refine last.mono (fun _ start => start) ?_
    rintro s' ⟨_, data, dev⟩
    refine ⟨?_, ?_, ?_, ?_⟩
    · rw [dev, decide_eq_true large]
      exact mode
    · rw [data, decide_eq_true large]
      rfl
    · rw [data, dev, SfcType.ctlReg_eq, decide_eq_true large]
      simp only [SpiHost.switched, Function.update_self]
      decide
    · rw [data]
      rintro ⟨⟩
  | fmc =>
    have last : Leads (Resting (.sanitized .fmc false) h h.nor) (flashSelectMode fuel (identified h.nor.info mask)) _ _ :=
      flashSelectMode_large fuel large idle (sfcSet4b_fmc_large spi rfl large)
    refine last.mono (fun _ start => start) ?_
    rintro s' ⟨_, data, dev⟩
    refine ⟨?_, ?_, ?_, ?_⟩
    · rw [dev, decide_eq_true large]
      exact mode
    · rw [data, decide_eq_true large]
      rfl
    · rw [data, dev, SfcType.ctlReg_eq, decide_eq_true large]
      simp only [SpiHost.wide, SpiHost.switched, Function.update_of_ne ce_apart.symm, Function.update_self]
      decide
    · intro _
      rw [dev, decide_eq_true large]
      simp only [SpiHost.wide, Function.update_self, BitVec.getLsbD_or]
      exact Bool.or_true _

/-- For a chip that three address bytes reach, the FMC keeps the bit that it had. -/
theorem selectMode_small (fuel : Nat) (mask : Word) (idle : h.nor.busy = 0) (small : ¬ h.nor.info.size > threeByteMax) :
    Leads (Resting (.sanitized type false) h h.nor) (flashSelectMode fuel (identified h.nor.info mask)) () fun s' =>
      (AddressModesAgree s' h.nor.info.size ↔ type = .smc ∨ (h.regs fmcCeCtrl).getLsbD 0 = false) := by
  have mode := small_mode h.nor
  cases type with
  | smc =>
    have last : Leads (Resting (.sanitized .smc false) h h.nor) (flashSelectMode fuel (identified h.nor.info mask)) _ _ :=
      flashSelectMode_small fuel small idle (sfcSet4b_smc spi rfl (some h.nor.info) false)
    refine last.mono (fun _ start => start) ?_
    rintro s' ⟨_, data, dev⟩
    refine iff_of_true ⟨?_, ?_, ?_, ?_⟩ (Or.inl rfl)
    · rw [dev, decide_eq_false small]
      exact mode
    · rw [data, decide_eq_false small]
      rfl
    · rw [data, dev, SfcType.ctlReg_eq, decide_eq_false small]
      simp only [SpiHost.switched, Function.update_self]
      decide
    · rw [data]
      rintro ⟨⟩
  | fmc =>
    have last : Leads (Resting (.sanitized .fmc false) h h.nor) (flashSelectMode fuel (identified h.nor.info mask)) _ _ :=
      flashSelectMode_small fuel small idle (sfcSet4b_fmc_small spi rfl small)
    refine last.mono (fun _ start => start) ?_
    rintro s' ⟨_, data, dev⟩
    have kept : s'.bus.dev.regs fmcCeCtrl = h.regs fmcCeCtrl := by
      rw [dev]
      simp only [SpiHost.closed, Function.update_of_ne ce_apart]
    constructor
    · intro agree
      have bit := agree.ce (by rw [data]; rfl)
      rw [kept, decide_eq_false small] at bit
      exact Or.inr bit
    · rintro (never | bit)
      · cases never
      refine ⟨?_, ?_, ?_, ?_⟩
      · rw [dev, decide_eq_false small]
        exact mode
      · rw [data, decide_eq_false small]
        rfl
      · rw [data, dev, SfcType.ctlReg_eq, decide_eq_false small]
        simp only [SpiHost.closed, Function.update_self]
        decide
      · intro _
        rw [kept, decide_eq_false small]
        exact bit

/-- What `flash_init` makes of an idle chip of the table, and where that leaves the address modes. -/
theorem flashInit_ends (type : SfcType) (fuel : Nat) (idle : h.nor.busy = 0) (known : h.nor.info ∈ flashInfos) :
    ∃ mask, Leads (SfcDev.At (.sanitized type false) h) (flashInit fuel (sfcOps spi)) (identified h.nor.info mask) fun s' =>
      (AddressModesAgree s' h.nor.info.size ↔
        type = .smc ∨ h.nor.info.size > threeByteMax ∨ (h.regs fmcCeCtrl).getLsbD 0 = false) := by
  obtain ⟨mask, granule⟩ := Option.isSome_iff_exists.mp (flMinEraseMask_isSome known)
  refine ⟨mask, (flashIdentify_leads fuel idle known granule).bind (flashConfigure_leads fuel known ?_)⟩
  by_cases large : h.nor.info.size > threeByteMax
  · exact (selectMode_large fuel mask idle known large).mono (fun _ start => start)
      fun s' agree => iff_of_true agree (Or.inr (Or.inl large))
  · refine (selectMode_small fuel mask idle large).mono (fun _ start => start) fun s' agree => ?_
    rw [agree, or_iff_right (a := h.nor.info.size > threeByteMax) large]

/-- A chip that is still busy is not waited for before it is identified. -/
theorem flashInit_not_ok (fuel : Nat) (busy : h.nor.busy ≠ 0) {s s' : SfcDev SpiNorBus}
    {c : FlashChip (SfcDev SpiNorBus)} (start : SfcDev.At (.sanitized type false) h s) : (flashInit fuel (sfcOps spi)).run s ≠ .ok c s' := by
  intro run
  obtain ⟨_, s₁, ident, _⟩ := Prog.bind_ok_iff.mp run
  obtain ⟨_, s₂, id, _⟩ := Prog.bind_ok_iff.mp ident
  obtain ⟨stat, s₃, read, wait⟩ := Prog.bind_ok_iff.mp id
  have stats : Leads (SfcDev.At (.sanitized type false) h) (flReadStat (sfcOpsOf spi none)) _ _ := flReadStat_leads
  obtain ⟨rfl, _⟩ := stats.result start read
  dsimp only at wait
  rw [if_pos (SpiNor.status_wip_iff.mpr busy)] at wait
  obtain ⟨_, s₄, idle, _⟩ := Prog.bind_ok_iff.mp wait
  exact flSyncWaitIdle_not_ok rfl fuel _ _ _ idle

/-- A controller that answers, with an idle chip of the table behind it. -/
structure ChipReady (h : SpiHost SpiNorBus) : Prop where
  there : h.regs ceCtrl ≠ 0xffffffff
  idle : h.nor.busy = 0
  known : h.nor.info ∈ flashInfos

theorem sfcFlashInit_ends (type : SfcType) (fuel : Nat) (ready : ChipReady h) :
    ∃ c, c.tsize = h.chip.chip.info.size ∧ Leads (SfcDev.At (.zeroed type) h) (sfcFlashInit spi fuel) c fun s' =>
      (AddressModesAgree s' c.tsize ↔
        type = .smc ∨ h.chip.chip.info.size > threeByteMax ∨ (h.regs fmcCeCtrl).getLsbD 0 = false) := by
  have idle : (h.sanitized type).nor.busy = 0 := ready.idle
  obtain ⟨mask, leads⟩ := flashInit_ends type fuel idle ready.known
  have kept : (h.sanitized type).regs fmcCeCtrl = h.regs fmcCeCtrl := by
    cases type
    · rfl
    · rfl
  have same : (h.sanitized type).nor = h.nor := rfl
  rw [kept, same, nor_info] at leads
  exact ⟨identified h.chip.chip.info mask, rfl, (sfcInitDevice_leads spi ready.there).bind leads⟩

theorem sfcFlashInit_ok (fuel : Nat) (known : h.nor.info ∈ flashInfos) {s s' : SfcDev SpiNorBus}
    {c : FlashChip (SfcDev SpiNorBus)} (start : SfcDev.At (.zeroed type) h s)
    (run : (sfcFlashInit spi fuel).run s = .ok c s') : ChipReady h := by
  obtain ⟨_, s₁, init, flash⟩ := Prog.bind_ok_iff.mp run
  have there : h.regs ceCtrl ≠ 0xffffffff := fun gone => sfcInitDevice_not_ok spi gone start init
  obtain ⟨_, start₁⟩ := (sfcInitDevice_leads spi there).result start init
  have idle : h.nor.busy = 0 := not_not.mp fun busy => flashInit_not_ok (h := h.sanitized type) fuel busy start₁ flash
  exact ⟨there, idle, known⟩

/-- Chip, driver and controller agree on the address mode for either controller and every chip of the
table, whatever they were left in, except for one that three address bytes reach behind an FMC that was
left in 4-byte mode. -/
theorem flash_init_address_modes (type : SfcType) (fuel : Nat) (s s' : SfcDev SpiNorBus)
    (c : FlashChip (SfcDev SpiNorBus)) (sound : s.bus.Sound) (fresh : s.ct = .zeroed type)
    (known : s.bus.dev.chip.chip.info ∈ flashInfos) (run : (sfcFlashInit spi fuel).run s = .ok c s') :
    AddressModesAgree s' c.tsize ↔ type = .smc ∨ s.bus.dev.chip.chip.info.size > threeByteMax ∨
      (s.bus.dev.regs fmcCeCtrl).getLsbD 0 = false := by
  have start : SfcDev.At (.zeroed type) s.bus.dev s := ⟨sound, fresh, rfl⟩
  have ready := sfcFlashInit_ok fuel (by rw [nor_info]; exact known) start run
  obtain ⟨c', _, leads⟩ := sfcFlashInit_ends type fuel ready
  obtain ⟨rfl, agree⟩ := leads.result start run
  exact agree

/-- A chip of 16 MiB. -/
def winbond : SpiNor where
  info := ⟨0xef4018, 0x01000000, flEraseAll⟩
  wantsWren := false
  mode4b := false
  able := fun on => nomatch on
  wel := false
  protect := 0
  busy := 0
  mem := fun _ => 0xff

/-- The chip behind an FMC whose CE control register reads `ce`. -/
def fmcWinbond (ce : Word) : SfcDev SpiNorBus where
  ct := .zeroed .fmc
  bus :=
    { dev := { regs := fun off => if off = fmcCeCtrl then ce else 0, active := false, chip := ⟨winbond, [], 0⟩ }
      fails := fun _ => none
      accesses := 0 }

theorem fmcWinbond_at (ce : Word) : SfcDev.At (.zeroed .fmc) (fmcWinbond ce).bus.dev (fmcWinbond ce) :=
  ⟨fun _ => rfl, rfl, rfl⟩

theorem winbond_known : winbond.info ∈ flashInfos := by decide

theorem fmcWinbond_ready (ce : Word) : ChipReady (fmcWinbond ce).bus.dev where
  there := by
    show (if ceCtrl = fmcCeCtrl then ce else 0) ≠ 0xffffffff
    rw [if_neg ce_apart.symm]
    decide
  idle := rfl
  known := winbond_known

/-- A Winbond chip of 16 MiB. -/
theorem flash_init_address_modes_winbond : ∃ c s', (sfcFlashInit spi 0).run (fmcWinbond 0) = .ok c s' ∧
    (AddressModesAgree s' c.tsize ↔ SfcType.fmc = .smc ∨ (0x01000000 : Word) > threeByteMax ∨
      (0 : Word).getLsbD 0 = false) := by
  obtain ⟨c, _, leads⟩ := sfcFlashInit_ends .fmc 0 (fmcWinbond_ready 0)
  obtain ⟨s', run, _⟩ := leads (fmcWinbond 0) (fmcWinbond_at 0)
  exact ⟨c, s', run, flash_init_address_modes .fmc 0 _ s' c (fun _ => rfl) rfl winbond_known run⟩

/-- Behind an FMC that was left in 4-byte mode, the 16 MiB chip and the driver use three bytes. -/
theorem flash_init_modes_disagree : ¬ ∀ (type : SfcType) (s s' : SfcDev SpiNorBus) (c : FlashChip (SfcDev SpiNorBus)),
    s.bus.Sound → s.ct = .zeroed type → s.bus.dev.chip.chip.info ∈ flashInfos →
    (sfcFlashInit spi 0).run s = .ok c s' → AddressModesAgree s' c.tsize := by
  intro all
  obtain ⟨c, _, leads⟩ := sfcFlashInit_ends .fmc 0 (fmcWinbond_ready 1)
  obtain ⟨s', run, agree⟩ := leads (fmcWinbond 1) (fmcWinbond_at 1)
  have holds := agree.mp (all .fmc _ s' c (fun _ => rfl) rfl winbond_known run)
  exact absurd holds (by decide)

end

end Culvert
