import Culvert.Lib.Hoare
import Culvert.Lib.Takes
import Culvert.Uart.Suart

/-! The polled 16550 while its transmitter and the line keep going. -/

namespace Culvert

/-- `sent` is what was written to THR and `taken` what was read out of the receive FIFO; `overrun` records a
write to a full transmit FIFO. Before each access, numbered by `now`, the transmitter drains bytes and the
line delivers some. `status` are the bits of LSR other than DR, THRE and the errors. -/
structure Uart16550 where
  tx : Nat
  rx : List Byte
  sent : List Byte
  taken : List Byte
  overrun : Bool
  now : Nat
  drains : Nat → Nat
  arrives : Nat → List Byte
  status : Nat → Byte

def uartFifo : Nat := 16

namespace Uart16550

def elapse (u : Uart16550) : Uart16550 :=
  { u with tx := u.tx - u.drains u.now, rx := (u.rx ++ u.arrives u.now).take uartFifo, now := u.now + 1 }

def lsr (u : Uart16550) : Byte :=
  (u.status u.now &&& 0x42) ||| (if u.tx = 0 then 0x20 else 0) ||| (if u.rx = [] then 0 else 0x01)

def push (u : Uart16550) (v : Byte) : Uart16550 :=
  if u.tx < uartFifo then { u with tx := u.tx + 1, sent := u.sent ++ [v] }
  else { u with sent := u.sent ++ [v], overrun := true }

def pop (u : Uart16550) : Byte × Uart16550 :=
  match u.rx with
  | [] => (0xff, u)
  | b :: rest => (b, { u with rx := rest, taken := u.taken ++ [b] })

/-- FCR: bit 1 resets the receive FIFO, bit 2 the transmit FIFO. -/
def control (u : Uart16550) (v : Byte) : Uart16550 :=
  { u with rx := if v &&& 2 = 0 then u.rx else [], tx := if v &&& 4 = 0 then u.tx else 0 }

def readPort (base p : Nat) (u : Uart16550) : Byte × Uart16550 :=
  if p = base + uartLsr then (u.elapse.lsr, u.elapse) else if p = base + uartRbr then u.elapse.pop else (0xff, u.elapse)

def writePort (base p : Nat) (v : Byte) (u : Uart16550) : Uart16550 :=
  if p = base + uartThr then u.elapse.push v else if p = base + uartFcr then u.elapse.control v else u.elapse

end Uart16550

/-- The UART's ports at `base`, any access of which may fail. -/
def uartLpc (base : Nat) : Lpc (Faulty Uart16550) where
  readb p := Faulty.access (Uart16550.readPort base p)
  writeb p v := Faulty.access fun u => ((), u.writePort base p v)

theorem uartLpc_readb (base p : Nat) : (uartLpc base).readb p = Faulty.access (Uart16550.readPort base p) := rfl

theorem uartLpc_writeb (base p : Nat) (v : Byte) :
    (uartLpc base).writeb p v = Faulty.access fun u => ((), u.writePort base p v) := rfl

namespace Uart16550
variable {u : Uart16550} {base : Nat} {v : Byte}

/-- What has gone through the FIFOs so far, without a write to a full one. -/
structure Holds (sent taken : List Byte) (u : Uart16550) : Prop where
  sent : u.sent = sent
  taken : u.taken = taken
  room : u.tx ≤ uartFifo
  fits : u.overrun = false

variable {sent taken : List Byte}

theorem Holds.elapse (holds : u.Holds sent taken) : u.elapse.Holds sent taken where
  sent := holds.sent
  taken := holds.taken
  room := Nat.le_trans (Nat.sub_le _ _) holds.room
  fits := holds.fits

theorem Holds.push (holds : u.Holds sent taken) (room : u.tx < uartFifo) (v : Byte) :
    (u.push v).Holds (sent ++ [v]) taken where
  sent := by rw [Uart16550.push, if_pos room, ← holds.sent]
  taken := by rw [Uart16550.push, if_pos room, ← holds.taken]
  room := by
    rw [Uart16550.push, if_pos room]
    exact room
  fits := by
    rw [Uart16550.push, if_pos room]
    exact holds.fits

theorem Holds.pop (holds : u.Holds sent taken) (ready : u.rx ≠ []) :
    u.pop.2.Holds sent (taken ++ [u.pop.1]) := by
  rw [Uart16550.pop]
  split
  · rename_i empty
    exact absurd empty ready
  · exact ⟨holds.sent, congrArg (· ++ _) holds.taken, holds.room, holds.fits⟩

theorem Holds.control (holds : u.Holds sent taken) (v : Byte) : (u.control v).Holds sent taken where
  sent := holds.sent
  taken := holds.taken
  room := by
    show (if v &&& 4 = 0 then u.tx else 0) ≤ uartFifo
    split
    · exact holds.room
    · exact Nat.zero_le _
  fits := holds.fits

/-- A status bit of LSR, whatever TEMT and OE are. -/
theorem lsr_bit (u : Uart16550) (mask : Byte) (own : 0x42 &&& mask = 0) : u.lsr &&& mask =
    ((if u.tx = 0 then 0x20 else 0) ||| (if u.rx = [] then 0 else 0x01)) &&& mask := by
  have masked : u.status u.now &&& 0x42 &&& mask = 0 := by
    rw [BitVec.and_assoc, own]
    exact BitVec.and_zero
  rw [lsr, BitVec.or_assoc, BitVec.and_or_distrib_right, masked]
  exact BitVec.zero_or

theorem lsr_no_error (u : Uart16550) : u.lsr &&& 0x80 = 0 := by
  rw [lsr_bit u 0x80 (by decide)]
  split <;> split <;> decide

theorem lsr_data (u : Uart16550) : u.lsr &&& 0x01 = 0 ↔ u.rx = [] := by
  rw [lsr_bit u 0x01 (by decide)]
  by_cases empty : u.rx = [] <;> by_cases idle : u.tx = 0 <;> simp [empty, idle]

theorem lsr_thre (u : Uart16550) : u.lsr &&& 0x20 = 0 ↔ u.tx ≠ 0 := by
  rw [lsr_bit u 0x20 (by decide)]
  by_cases empty : u.rx = [] <;> by_cases idle : u.tx = 0 <;> simp [empty, idle]

end Uart16550

end Culvert
