import Culvert.Lib.ByteMem

namespace Culvert

/-- The SuperIO behind its address and data port, with the iLPC2AHB bridge as logical device 0x0d.
`keys` counts the 0xa5 writes seen in a row while locked; register 0x07 selects the logical device
that every other register belongs to. -/
structure SuperIo where
  unlocked : Bool
  keys : Nat
  index : Byte
  ldn : Byte
  regs : Byte → Byte → Byte
  ahb : Mem

namespace SuperIo

def ilpc (d : SuperIo) : Byte → Byte := d.regs 0x0d

def setReg (d : SuperIo) (r v : Byte) : SuperIo :=
  { d with regs := Function.update d.regs d.ldn (Function.update (d.regs d.ldn) r v) }

/-- The AHB address in f0-f3, most significant byte first. -/
def ahbAddr (d : SuperIo) : Word := Word.ofBytes (d.ilpc 0xf3) (d.ilpc 0xf2) (d.ilpc 0xf1) (d.ilpc 0xf0)

/-- An AHB read into the data registers: the byte in f7, or the word in f4-f7, most significant byte
first, when f8 selects four bytes. -/
def ahbRead (d : SuperIo) : SuperIo :=
  let a := d.ahbAddr.toNat
  if d.ilpc 0xf8 = 2 then
    (((d.setReg 0xf4 (d.ahb (a + 3))).setReg 0xf5 (d.ahb (a + 2))).setReg 0xf6 (d.ahb (a + 1))).setReg 0xf7 (d.ahb a)
  else d.setReg 0xf7 (d.ahb a)

def ahbWrite (d : SuperIo) : SuperIo :=
  let a := d.ahbAddr.toNat
  if d.ilpc 0xf8 = 2 then
    { d with ahb := ByteMem.write d.ahb a [d.ilpc 0xf7, d.ilpc 0xf6, d.ilpc 0xf5, d.ilpc 0xf4] }
  else { d with ahb := ByteMem.write d.ahb a [d.ilpc 0xf7] }

def writeAddr (d : SuperIo) (v : Byte) : SuperIo :=
  if d.unlocked then
    if v = 0xaa then { d with unlocked := false, keys := 0 } else { d with index := v }
  else if v = 0xa5 then
    if d.keys = 0 then { d with keys := 1 } else { d with unlocked := true, keys := 0 }
  else { d with keys := 0 }

def writeData (d : SuperIo) (v : Byte) : SuperIo :=
  if ¬ d.unlocked then d
  else if d.index = 0x07 then { d with ldn := v }
  else if d.ldn = 0x0d ∧ d.index = 0xfe ∧ v = 0xcf then d.ahbWrite
  else d.setReg d.index v

def readData (d : SuperIo) : Byte × SuperIo :=
  if ¬ d.unlocked then (0xff, d)
  else if d.index = 0x07 then (d.ldn, d)
  else if d.ldn = 0x0d ∧ d.index = 0xfe then (d.ilpc 0xfe, d.ahbRead)
  else (d.regs d.ldn d.index, d)

/-- Store `v` in register `r`: the index to the address port, the value to the data port. -/
def poke (r v : Byte) (d : SuperIo) : SuperIo := (d.writeAddr r).writeData v

def peek (r : Byte) (d : SuperIo) : Byte × SuperIo := (d.writeAddr r).readData

/-- Unlocked with the iLPC2AHB bridge selected. -/
structure Ready (d : SuperIo) : Prop where
  unlocked : d.unlocked = true
  ldn : d.ldn = 0x0d

variable {d : SuperIo} {r v : Byte}

@[simp] theorem setReg_unlocked : (d.setReg r v).unlocked = d.unlocked := rfl
@[simp] theorem setReg_ldn : (d.setReg r v).ldn = d.ldn := rfl
@[simp] theorem setReg_ahb : (d.setReg r v).ahb = d.ahb := rfl

theorem Ready.setReg_ilpc (ready : d.Ready) (r v x : Byte) :
    (d.setReg r v).ilpc x = if x = r then v else d.ilpc x := by
  simp only [ilpc, setReg, ready.ldn, Function.update_self, Function.update_apply]

/-- The keys unlock the SuperIO from every state. -/
theorem unlock_unlocked (d : SuperIo) : ((d.writeAddr 0xa5).writeAddr 0xa5).unlocked = true := by
  simp only [writeAddr]
  grind

theorem unlock_ahb (d : SuperIo) : ((d.writeAddr 0xa5).writeAddr 0xa5).ahb = d.ahb := by
  simp only [writeAddr]
  grind

theorem lock_ahb (d : SuperIo) : (d.writeAddr 0xaa).ahb = d.ahb := by
  simp only [writeAddr]
  grind

theorem select_ready (unlocked : d.unlocked = true) : (d.poke 0x07 0x0d).Ready := by
  constructor <;> simp [poke, writeAddr, writeData, unlocked]

theorem select_ahb (unlocked : d.unlocked = true) (v : Byte) : (d.poke 0x07 v).ahb = d.ahb := by
  simp [poke, writeAddr, writeData, unlocked]

/-- Registers of the bridge other than the lock key, the selector and the trigger. -/
def Plain (r : Byte) : Prop := r ≠ 0xaa ∧ r ≠ 0x07 ∧ r ≠ 0xfe

instance (r : Byte) : Decidable (Plain r) := inferInstanceAs (Decidable (_ ∧ _ ∧ _))

theorem Ready.writeAddr_eq (ready : d.Ready) (notKey : r ≠ 0xaa) : d.writeAddr r = { d with index := r } := by
  rw [writeAddr, if_pos ready.unlocked, if_neg notKey]

theorem Ready.poke_eq (ready : d.Ready) (plain : Plain r) (v : Byte) :
    d.poke r v = { d with index := r }.setReg r v := by
  rw [SuperIo.poke, ready.writeAddr_eq plain.1, writeData, if_neg (by simp [ready.unlocked]), if_neg plain.2.1,
    if_neg (fun trigger => plain.2.2 trigger.2.1)]

theorem Ready.poke (ready : d.Ready) (plain : Plain r) (v : Byte) : (d.poke r v).Ready := by
  rw [ready.poke_eq plain]
  exact ⟨ready.unlocked, ready.ldn⟩

theorem Ready.poke_ilpc (ready : d.Ready) (plain : Plain r) (v x : Byte) :
    (d.poke r v).ilpc x = if x = r then v else d.ilpc x := by
  rw [ready.poke_eq plain, Ready.setReg_ilpc (d := { d with index := r }) ⟨ready.unlocked, ready.ldn⟩]
  rfl

theorem Ready.poke_ahb (ready : d.Ready) (plain : Plain r) (v : Byte) : (d.poke r v).ahb = d.ahb := by
  rw [ready.poke_eq plain]
  rfl

theorem Ready.peek_eq (ready : d.Ready) (plain : Plain r) : d.peek r = (d.ilpc r, { d with index := r }) := by
  rw [peek, ready.writeAddr_eq plain.1, readData, if_neg (by simp [ready.unlocked]), if_neg plain.2.1,
    if_neg (fun trigger => plain.2.2 trigger.2), ready.ldn]
  rfl

/-- Reading fe performs the AHB read. -/
theorem Ready.peek_trigger (ready : d.Ready) : (d.peek 0xfe).2 = { d with index := 0xfe }.ahbRead := by
  rw [peek, ready.writeAddr_eq (by decide), readData, if_neg (by simp [ready.unlocked]), if_neg (by simp),
    if_pos ⟨ready.ldn, rfl⟩]

/-- Writing 0xcf to fe performs the AHB write. -/
theorem Ready.poke_trigger (ready : d.Ready) : d.poke 0xfe 0xcf = { d with index := 0xfe }.ahbWrite := by
  rw [SuperIo.poke, ready.writeAddr_eq (by decide), writeData, if_neg (by simp [ready.unlocked]), if_neg (by simp),
    if_pos ⟨ready.ldn, rfl, rfl⟩]

theorem ahbRead_byte (width : d.ilpc 0xf8 = 0) : d.ahbRead = d.setReg 0xf7 (d.ahb d.ahbAddr.toNat) := by
  rw [ahbRead, width, if_neg (by decide)]

theorem ahbRead_word (width : d.ilpc 0xf8 = 2) : d.ahbRead =
    (((d.setReg 0xf4 (d.ahb (d.ahbAddr.toNat + 3))).setReg 0xf5 (d.ahb (d.ahbAddr.toNat + 2))).setReg 0xf6
      (d.ahb (d.ahbAddr.toNat + 1))).setReg 0xf7 (d.ahb d.ahbAddr.toNat) := by
  rw [ahbRead, if_pos width]

/-- The data registers after a word read, most significant byte first. -/
theorem Ready.ahbRead_word_ilpc (ready : d.Ready) (width : d.ilpc 0xf8 = 2) (x : Byte) : d.ahbRead.ilpc x =
    if x = 0xf7 then d.ahb d.ahbAddr.toNat else if x = 0xf6 then d.ahb (d.ahbAddr.toNat + 1) else
    if x = 0xf5 then d.ahb (d.ahbAddr.toNat + 2) else if x = 0xf4 then d.ahb (d.ahbAddr.toNat + 3) else d.ilpc x := by
  have kept {d' : SuperIo} (ready' : d'.Ready) (r v : Byte) : (d'.setReg r v).Ready := ⟨ready'.unlocked, ready'.ldn⟩
  have ready₄ := kept ready 0xf4 (d.ahb (d.ahbAddr.toNat + 3))
  have ready₅ := kept ready₄ 0xf5 (d.ahb (d.ahbAddr.toNat + 2))
  have ready₆ := kept ready₅ 0xf6 (d.ahb (d.ahbAddr.toNat + 1))
  rw [ahbRead_word width, ready₆.setReg_ilpc, ready₅.setReg_ilpc, ready₄.setReg_ilpc, ready.setReg_ilpc]

theorem ahbWrite_byte (width : d.ilpc 0xf8 = 0) :
    d.ahbWrite = { d with ahb := ByteMem.write d.ahb d.ahbAddr.toNat [d.ilpc 0xf7] } := by
  rw [ahbWrite, width, if_neg (by decide)]

theorem ahbWrite_word (width : d.ilpc 0xf8 = 2) : d.ahbWrite =
    { d with ahb := ByteMem.write d.ahb d.ahbAddr.toNat [d.ilpc 0xf7, d.ilpc 0xf6, d.ilpc 0xf5, d.ilpc 0xf4] } := by
  rw [ahbWrite, if_pos width]

theorem writeAddr_ahb (d : SuperIo) (v : Byte) : (d.writeAddr v).ahb = d.ahb := by
  simp only [writeAddr]
  grind

/-- Other than the unlock key, what is written to the address port of an unlocked SuperIO becomes its index. -/
theorem writeAddr_index (notKey : r ≠ 0xa5) (unlocked : (d.writeAddr r).unlocked = true) :
    (d.writeAddr r).index = r := by
  simp only [writeAddr, if_neg notKey] at *
  split at unlocked
  · split at unlocked
    · cases unlocked
    · rename_i was notLock
      rw [if_pos was, if_neg notLock]
  · rename_i was
    exact absurd unlocked was

theorem writeData_ahb (quiet : d.unlocked = true → d.index ≠ 0xfe) (v : Byte) : (d.writeData v).ahb = d.ahb := by
  rw [writeData]
  split
  · rfl
  · rename_i unlocked
    have plain := quiet (not_not.mp unlocked)
    split
    · rfl
    · rw [if_neg fun trigger => plain trigger.2.1]
      rfl

/-- Only the trigger changes the AHB memory. -/
theorem poke_ahb_of_ne (notTrigger : r ≠ 0xfe) (notKey : r ≠ 0xa5) (d : SuperIo) (v : Byte) :
    (d.poke r v).ahb = d.ahb := by
  have quiet : (d.writeAddr r).unlocked = true → (d.writeAddr r).index ≠ 0xfe := by
    intro unlocked
    rw [writeAddr_index notKey unlocked]
    exact notTrigger
  rw [SuperIo.poke, writeData_ahb quiet, writeAddr_ahb]

theorem ahbRead_ahb (d : SuperIo) : d.ahbRead.ahb = d.ahb := by
  rw [ahbRead]
  split <;> rfl

theorem readData_ahb (d : SuperIo) : d.readData.2.ahb = d.ahb := by
  rw [readData]
  split
  · rfl
  split
  · rfl
  split
  · exact d.ahbRead_ahb
  · rfl

end SuperIo

end Culvert
