import Culvert.Hw.SuperIo
import Culvert.Lib.Moves
import Culvert.Sio

/-! The SuperIO with a record of the logical devices whose registers were written. -/

namespace Culvert

/-- A SuperIO, with the bytes that have been written to its index port. -/
structure SioTap where
  sio : SuperIo
  written : List Byte

namespace SioTap

def writeAddr (d : SioTap) (v : Byte) : SioTap := { d with sio := d.sio.writeAddr v }

def writeData (d : SioTap) (v : Byte) : SioTap where
  sio := d.sio.writeData v
  written := if d.sio.unlocked ∧ d.sio.index ≠ 0x07 then d.sio.ldn :: d.written else d.written

def readData (d : SioTap) : Byte × SioTap := (d.sio.readData.1, { d with sio := d.sio.readData.2 })

def readPort (port p : Nat) (d : SioTap) : Byte × SioTap := if p = port + 1 then d.readData else (0xff, d)

def writePort (port p : Nat) (v : Byte) (d : SioTap) : SioTap :=
  if p = port then d.writeAddr v else if p = port + 1 then d.writeData v else d

/-- Every register write went to `dev`. -/
def Only (dev : Byte) (d : SioTap) : Prop := ∀ ldn ∈ d.written, ldn = dev

def Shut (d : SioTap) : Prop := d.sio.unlocked = false

structure Open (dev : Byte) (d : SioTap) : Prop where
  only : d.Only dev
  unlocked : d.sio.unlocked = true

/-- Once the SuperIO is unlocked, `dev` is what a register write goes to. -/
structure Tuned (dev : Byte) (d : SioTap) : Prop where
  only : d.Only dev
  selected : d.sio.unlocked = true → d.sio.ldn = dev

variable {d : SioTap} {dev v r : Byte} {port p : Nat}

theorem writePort_addr (port : Nat) (v : Byte) (d : SioTap) : d.writePort port port v = d.writeAddr v := if_pos rfl

theorem writePort_data (port : Nat) (v : Byte) (d : SioTap) : d.writePort port (port + 1) v = d.writeData v := by
  rw [writePort, if_neg (by omega), if_pos rfl]

theorem writePort_other (notAddr : p ≠ port) (notData : p ≠ port + 1) (v : Byte) (d : SioTap) :
    d.writePort port p v = d := by
  rw [writePort, if_neg notAddr, if_neg notData]

theorem readPort_other (notData : p ≠ port + 1) (d : SioTap) : d.readPort port p = (0xff, d) := if_neg notData

theorem Open.writeAddr (awake : d.Open dev) (notLock : v ≠ 0xaa) :
    (d.writeAddr v).Open dev ∧ (d.writeAddr v).sio.index = v ∧ (d.writeAddr v).sio.ldn = d.sio.ldn := by
  have eq : (d.writeAddr v).sio = { d.sio with index := v } := by
    rw [SioTap.writeAddr, SuperIo.writeAddr, if_pos awake.unlocked, if_neg notLock]
  refine ⟨⟨awake.only, ?_⟩, ?_, ?_⟩
  · rw [eq]
    exact awake.unlocked
  · rw [eq]
  · rw [eq]

/-- Nothing but the second unlock key opens the SuperIO. -/
theorem writeAddr_shut (shut : d.Shut) (notKey : v ≠ 0xa5) : (d.writeAddr v).Shut := by
  simp only [Shut, writeAddr, SuperIo.writeAddr] at *
  rw [if_neg (by simp [shut]), if_neg notKey]
  exact shut

theorem lock_shut (d : SioTap) : (d.writeAddr 0xaa).Shut := by
  cases opened : d.sio.unlocked with
  | true => simp only [Shut, writeAddr, SuperIo.writeAddr, opened, if_true]
  | false => exact writeAddr_shut opened (by decide)

theorem writeData_unlocked (d : SioTap) (v : Byte) : (d.writeData v).sio.unlocked = d.sio.unlocked := by
  simp only [writeData, SuperIo.writeData, SuperIo.ahbWrite]
  split_ifs <;> rfl

theorem writeData_shut_eq (shut : d.Shut) (v : Byte) : d.writeData v = d := by
  have closed : ¬ d.sio.unlocked = true := by simpa [Shut] using shut
  rw [writeData, SuperIo.writeData, if_pos closed, if_neg fun both => closed both.1]

theorem readData_unlocked (d : SioTap) : d.readData.2.sio.unlocked = d.sio.unlocked := by
  simp only [readData, SuperIo.readData, SuperIo.ahbRead]
  split_ifs <;> rfl

theorem readData_ldn (d : SioTap) : d.readData.2.sio.ldn = d.sio.ldn := by
  simp only [readData, SuperIo.readData, SuperIo.ahbRead]
  split_ifs <;> rfl

theorem unlock_unlocked (d : SioTap) : ((d.writeAddr 0xa5).writeAddr 0xa5).sio.unlocked = true :=
  SuperIo.unlock_unlocked d.sio

theorem Tuned.writeAddr (tuned : d.Tuned dev) (notKey : v ≠ 0xa5) : (d.writeAddr v).Tuned dev where
  only := tuned.only
  selected opened := by
    have was : d.sio.unlocked = true := by
      by_contra shut
      have still : (d.writeAddr v).Shut := writeAddr_shut (by simpa [Shut] using shut) notKey
      rw [Shut, opened] at still
      cases still
    rw [← tuned.selected was]
    simp only [SioTap.writeAddr, SuperIo.writeAddr, if_pos was]
    split <;> rfl

theorem Tuned.writeData (tuned : d.Tuned dev) (register : d.sio.unlocked = true → d.sio.index ≠ 0x07) (v : Byte) :
    (d.writeData v).Tuned dev where
  only := by
    intro ldn mem
    simp only [SioTap.writeData] at mem
    split at mem
    · rename_i opened
      rcases List.mem_cons.mp mem with rfl | mem
      · exact tuned.selected opened.1
      · exact tuned.only ldn mem
    · exact tuned.only ldn mem
  selected opened := by
    rw [writeData_unlocked] at opened
    rw [← tuned.selected opened]
    simp only [SioTap.writeData, SuperIo.writeData, SuperIo.ahbWrite, opened, not_true_eq_false, if_false,
      if_neg (register opened)]
    split_ifs <;> rfl

theorem Tuned.readData (tuned : d.Tuned dev) : d.readData.2.Tuned dev where
  only := tuned.only
  selected opened := by
    rw [readData_unlocked] at opened
    rw [readData_ldn, tuned.selected opened]

end SioTap

/-- The ports of a SuperIO decoded at `port`. Any access may fail, except the write of the lock key to its
address port. -/
def tapLpc (port : Nat) : Lpc (Faulty SioTap) where
  readb p := Faulty.access (SioTap.readPort port p)
  writeb p v :=
    if p = port ∧ v = 0xaa then Faulty.sure fun d => ((), d.writePort port p v)
    else Faulty.access fun d => ((), d.writePort port p v)

def tapSpace (port : Nat) : LpcSpace (Faulty SioTap) where
  io := tapLpc port
  init := Faulty.access fun d => ((), d)
  destroy := Faulty.access fun d => ((), d)

open Faulty

section Discipline
variable {port p : Nat} {r v dev : Byte} {I K E : SioTap → Prop}

theorem tapLpc_writeb_moves (done : ∀ d, I d → K (d.writePort port p v)) (still : ∀ d, I d → E d) :
    Moves I ((tapLpc port).writeb p v) K E := by
  by_cases lock : p = port ∧ v = 0xaa
  · simp only [tapLpc, if_pos lock]
    exact Moves.sure done
  · simp only [tapLpc, if_neg lock]
    exact Moves.access done still

/-- The lock write of every operation. -/
theorem sioLock_moves : Moves (SioTap.Only dev) (sioLock ⟨tapLpc port, port⟩) (fun d => d.Shut ∧ d.Only dev) E := by
  simp only [sioLock, tapLpc, and_self, if_true]
  refine Moves.sure fun d only => ?_
  rw [SioTap.writePort_addr]
  exact ⟨d.lock_shut, only⟩

theorem sioUnlock_eq (port : Nat) : sioUnlock ⟨tapLpc port, port⟩ =
    Prog.all [access fun d : SioTap => ((), d.writeAddr 0xa5), access fun d => ((), d.writeAddr 0xa5)] := by
  have key : ((0xa5 : Byte) = 0xaa) = False := by decide
  simp only [sioUnlock, tapLpc, SioTap.writePort_addr, key, and_false, if_false]

theorem sioUnlock_moves : Moves (SioTap.Only dev) (sioUnlock ⟨tapLpc port, port⟩)
    (SioTap.Open dev) (SioTap.Only dev) := by
  intro s only
  rw [sioUnlock_eq, pair_run]
  cases s.fails s.accesses with
  | none =>
    cases s.fails (s.accesses + 1) with
    | none => exact Or.inl ⟨(), _, rfl, only, SioTap.unlock_unlocked _⟩
    | some e => exact Or.inr ⟨_, _, rfl, only⟩
  | some e =>
    cases s.fails (s.accesses + 1) with
    | none => exact Or.inr ⟨_, _, rfl, only⟩
    | some e' => exact Or.inr ⟨_, _, rfl, only⟩

/-- Selecting writes no register of a logical device. -/
theorem sioSelect_moves (v : Byte) : Moves (SioTap.Open dev) (sioWriteb ⟨tapLpc port, port⟩ 0x07 v)
    (fun d => d.Open dev ∧ d.sio.ldn = v) (SioTap.Only dev) := by
  refine Moves.bind (J := fun d => d.Open dev ∧ d.sio.index = 0x07)
    (tapLpc_writeb_moves ?_ fun d awake => awake.only) fun _ => tapLpc_writeb_moves ?_ fun d start => start.1.only
  · intro d awake
    rw [SioTap.writePort_addr]
    exact ⟨(awake.writeAddr (by decide)).1, (awake.writeAddr (by decide)).2.1⟩
  · intro d start
    obtain ⟨awake, index⟩ := start
    rw [SioTap.writePort_data]
    refine ⟨⟨?_, ?_⟩, ?_⟩
    · intro ldn mem
      simp only [SioTap.writeData, index, ne_eq, not_true_eq_false, and_false, if_false] at mem
      exact awake.only ldn mem
    · rw [SioTap.writeData_unlocked]
      exact awake.unlocked
    · simp only [SioTap.writeData, SuperIo.writeData, awake.unlocked, index, not_true_eq_false, if_false, if_true]

theorem sioReadb_open (notLock : r ≠ 0xaa) : Moves (SioTap.Open dev) (sioReadb ⟨tapLpc port, port⟩ r)
    (SioTap.Open dev) (SioTap.Only dev) := by
  refine Moves.bind (J := SioTap.Open dev) (tapLpc_writeb_moves ?_ fun d awake => awake.only) fun _ =>
    Moves.access ?_ fun d awake => awake.only
  · intro d awake
    rw [SioTap.writePort_addr]
    exact (awake.writeAddr notLock).1
  · intro d awake
    simp only [SioTap.readPort, if_true]
    refine ⟨awake.only, ?_⟩
    rw [SioTap.readData_unlocked]
    exact awake.unlocked

theorem sioWriteb_moves (notKey : r ≠ 0xa5) (register : r ≠ 0x07) (v : Byte) : Moves (SioTap.Tuned dev)
    (sioWriteb ⟨tapLpc port, port⟩ r v) (SioTap.Tuned dev) (SioTap.Tuned dev) := by
  refine Moves.bind (J := fun d => d.Tuned dev ∧ (d.sio.unlocked = true → d.sio.index = r))
    (tapLpc_writeb_moves ?_ fun _ tuned => tuned) fun _ => tapLpc_writeb_moves ?_ fun d start => start.1
  · intro d tuned
    rw [SioTap.writePort_addr]
    exact ⟨tuned.writeAddr notKey, fun opened => SuperIo.writeAddr_index notKey opened⟩
  · intro d start
    rw [SioTap.writePort_data]
    refine start.1.writeData (fun opened => ?_) v
    rw [start.2 opened]
    exact register

theorem sioReadb_moves (notKey : r ≠ 0xa5) : Moves (SioTap.Tuned dev) (sioReadb ⟨tapLpc port, port⟩ r)
    (SioTap.Tuned dev) (SioTap.Tuned dev) := by
  refine Moves.bind (J := SioTap.Tuned dev) (tapLpc_writeb_moves ?_ fun _ tuned => tuned) fun _ =>
    Moves.access ?_ fun _ tuned => tuned
  · intro d tuned
    rw [SioTap.writePort_addr]
    exact tuned.writeAddr notKey
  · intro d tuned
    simp only [SioTap.readPort, if_true]
    exact tuned.readData

end Discipline

/-- The two ports at `base` are not those of the SuperIO. -/
def Elsewhere (port base : Nat) : Prop := base ≠ port ∧ base + 1 ≠ port ∧ base ≠ port + 1

section Elsewhere
variable {port base p : Nat} {r v : Byte} {I : SioTap → Prop} {d : SioTap}

theorem tapLpc_writeb_other (notAddr : p ≠ port) (notData : p ≠ port + 1) (v : Byte) :
    (tapLpc port).writeb p v = access fun d : SioTap => ((), d) := by
  simp only [tapLpc, notAddr, false_and, if_false, SioTap.writePort_other notAddr notData]

theorem tapLpc_readb_other (notData : p ≠ port + 1) :
    (tapLpc port).readb p = access fun d : SioTap => (0xff, d) := by
  simp only [tapLpc]
  congr
  funext d
  exact SioTap.readPort_other notData d

theorem sioWriteb_elsewhere (away : Elsewhere port base) (I : SioTap → Prop) (d : SioTap) (inside : I d) :
    Takes I d (sioWriteb ⟨tapLpc port, base⟩ r v) 2 () d := by
  obtain ⟨notAddr, notAddr', notData⟩ := away
  have notData' : base + 1 ≠ port + 1 := by omega
  simp only [sioWriteb, tapLpc_writeb_other notAddr notData, tapLpc_writeb_other notAddr' notData']
  have idle : Takes I d (access fun d : SioTap => ((), d)) 1 () d := Takes.access _ inside
  exact Takes.bind (f := fun _ => access fun d : SioTap => ((), d)) idle idle

theorem sioReadb_elsewhere (away : Elsewhere port base) (I : SioTap → Prop) (d : SioTap) (inside : I d) :
    Takes I d (sioReadb ⟨tapLpc port, base⟩ r) 2 0xff d := by
  obtain ⟨notAddr, _, notData⟩ := away
  have notData' : base + 1 ≠ port + 1 := by omega
  simp only [sioReadb, tapLpc_writeb_other notAddr notData, tapLpc_readb_other notData']
  have idle : Takes I d (access fun d : SioTap => ((), d)) 1 () d := Takes.access _ inside
  have look : Takes I d (access fun d : SioTap => ((0xff : Byte), d)) 1 0xff d := Takes.access _ inside
  exact Takes.bind (f := fun _ => access fun d : SioTap => (0xff, d)) idle look

theorem sioUnlock_elsewhere (away : Elsewhere port base) : sioUnlock ⟨tapLpc port, base⟩ =
    Prog.all [access fun d : SioTap => ((), d), access fun d => ((), d)] := by
  simp only [sioUnlock, tapLpc_writeb_other away.1 away.2.2]

theorem sioLock_elsewhere (away : Elsewhere port base) :
    sioLock ⟨tapLpc port, base⟩ = access fun d : SioTap => ((), d) := by
  simp only [sioLock, tapLpc_writeb_other away.1 away.2.2]

end Elsewhere

end Culvert
