import Culvert.Flash.Chip

namespace Culvert

section
variable {σ : Type} (fuel : Nat)

def flChipId (ct : Sfc σ) : Prog σ (List Byte) := do
  let stat ← flReadStat ct
  if stat &&& statWip ≠ 0 then flSyncWaitIdle ct fuel else pure ()
  ct.cmdRd cmdRdid none 3

/-- The first three bytes of an ID as a word. -/
def idWord (id : List Byte) : Word :=
  let byte (i : Nat) : Word := (id.getD i 0).setWidth 32
  (byte 0 <<< 8 ||| byte 1) <<< 8 ||| byte 2

def flashLookup (iid : Word) : Option FlashInfo := flashInfos.find? fun info => info.id = iid

def flashIdentify (ct : Sfc σ) : Prog σ (FlashChip σ) := do
  let id ← ct.chipId.getD (flChipId fuel ct)
  if id.length < 3 then Prog.fail enxio
  else
    match flashLookup (idWord id) with
    | none => Prog.fail enxio
    | some info => do
      ct.setup.getD (pure ())
      match flMinEraseMask info.flags with
      | none => Prog.fail eio
      | some mask =>
        let ctrl := { ct with finfo := some info }
        return { ctrl, info, tsize := info.size, minEraseMask := mask, mode4b := false }

def flashSet4b (c : FlashChip σ) (enable : Bool) : Prog σ Unit :=
  match c.ctrl.wr with
  | none => pure ()
  | some wr => do
    let _ ← Prog.attempt (flWren c.ctrl fuel)
    wr (if enable then cmdEn4b else cmdEx4b) none []

/-- `ct->set_4b`, where there is one. -/
def FlashChip.ctrlSet4b (c : FlashChip σ) (enable : Bool) : Prog σ Unit :=
  match c.ctrl.set4b with
  | none => pure ()
  | some set4b => set4b c.ctrl.finfo enable

/-- The size that is used of a chip. -/
def cropSize (tsize flags : Word) : Word := if tsize > 0x01000000 ∧ flags &&& flCan4b = 0 then 0x01000000 else tsize

/-- A 4-byte mode left over by the previous user of the chip is left. -/
def flashClear4b (c : FlashChip σ) : Prog σ Unit :=
  if c.info.flags &&& flCan4b ≠ 0 then flashSet4b fuel c false else pure ()

/-- The address mode for the size that is used. -/
def flashSelectMode (c : FlashChip σ) : Prog σ Unit :=
  if c.tsize > 0x01000000 then do
    flashSet4b fuel c true
    c.ctrlSet4b true
  else do
    flashClear4b fuel c
    c.ctrlSet4b false

def flashConfigure (c : FlashChip σ) : Prog σ (FlashChip σ) := do
  let c := { c with tsize := cropSize c.tsize c.info.flags }
  flashSelectMode fuel c
  return c

def flashInit (ctrl : Sfc σ) : Prog σ (FlashChip σ) := do
  let c ← flashIdentify fuel ctrl
  flashConfigure fuel c

end

/-- Every chip of the table has an erase size. -/
theorem flMinEraseMask_isSome {info : FlashInfo} (known : info ∈ flashInfos) : (flMinEraseMask info.flags).isSome := by
  revert info
  decide

/-- Every chip of the table that is larger than three address bytes reach has a 4-byte mode. -/
theorem can4b_of_large {info : FlashInfo} (known : info ∈ flashInfos) (large : info.size > 0x01000000) :
    info.flags &&& flCan4b ≠ 0 := by
  revert info
  decide

theorem cropSize_eq {info : FlashInfo} (known : info ∈ flashInfos) : cropSize info.size info.flags = info.size := by
  rw [cropSize, if_neg]
  rintro ⟨large, unable⟩
  exact can4b_of_large known large unable

section
variable {σ : Type} {ct : Sfc σ}

theorem flIdle_not_ok (unknown : ct.finfo = none) (s : σ) (r : Unit) (s' : σ) : (flIdle ct).run s ≠ .ok r s' := by
  rw [flIdle, unknown]
  rintro ⟨⟩

/-- Waiting for a chip that is not identified yet never ends well. -/
theorem flSyncWaitIdle_not_ok (unknown : ct.finfo = none) (fuel : Nat) (s : σ) (r : Unit) (s' : σ) :
    (flSyncWaitIdle ct fuel).run s ≠ .ok r s' := by
  rw [flSyncWaitIdle]
  induction fuel generalizing s with
  | zero => rintro ⟨⟩
  | succ fuel ih =>
    intro run
    rw [Prog.loop] at run
    obtain ⟨next, s₁, turn, rest⟩ := Prog.bind_ok_iff.mp run
    cases next with
    | inl a => exact ih s₁ rest
    | inr b =>
      obtain ⟨stat, s₂, _, tail⟩ := Prog.bind_ok_iff.mp turn
      by_cases idle : stat &&& statWip = 0
      · rw [if_pos idle] at tail
        obtain ⟨_, s₃, head, _⟩ := Prog.bind_ok_iff.mp tail
        exact flIdle_not_ok unknown s₂ _ s₃ head
      · rw [if_neg idle] at tail
        cases tail

end

end Culvert
