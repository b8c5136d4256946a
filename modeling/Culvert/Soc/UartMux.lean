import Culvert.Lib.Fields
import Culvert.Lib.Run
import Culvert.Soc.Lifecycle

/-! The routes between the UARTs and the serial ports. -/

namespace Culvert
open Prog Soc

def lpcHicr9Sel6Io : Word := 0b1111 <<< 8
def lpcHicraSel5Dw : Word := 0b1111 <<< 28
def lpcHicraSel4Dw : Word := 0b111 <<< 25
def lpcHicraSel3Dw : Word := 0b111 <<< 22
def lpcHicraSel2Dw : Word := 0b111 <<< 19
def lpcHicraSel1Dw : Word := 0b111 <<< 16
def lpcHicraSel5Io : Word := 0b111 <<< 12
def lpcHicraSel4Io : Word := 0b111 <<< 9
def lpcHicraSel3Io : Word := 0b111 <<< 6
def lpcHicraSel2Io : Word := 0b111 <<< 3
def lpcHicraSel1Io : Word := 0b111 <<< 0

/-- `enum mux_io` -/
inductive MuxIo where
  | io1 | io2 | io3 | io4 | io5 | io6
  deriving DecidableEq, Repr

/-- `enum mux_uart` -/
inductive MuxUart where
  | uart1 | uart2 | uart3 | uart4 | uart5
  deriving DecidableEq, Repr

/-- `struct mux_obj` -/
inductive MuxObj where
  | io (n : MuxIo)
  | uart (n : MuxUart)
  deriving DecidableEq, Repr

/-- `struct mux_desc` -/
structure MuxDesc where
  reg : Word
  mask : Word
  val : Byte
  deriving DecidableEq, Repr

/-- An entry that the table leaves out. -/
def MuxDesc.empty : MuxDesc := ⟨0, 0, 0⟩

/-- `mux_lookup[mux_uart][mux_uart]`. -/
def muxLookupUartUart : MuxUart → MuxUart → MuxDesc
  | .uart1, .uart2 => ⟨lpcHicra, lpcHicraSel2Dw, 0b110⟩
  | .uart1, .uart3 => ⟨lpcHicra, lpcHicraSel3Dw, 0b101⟩
  | .uart1, .uart4 => ⟨lpcHicra, lpcHicraSel4Dw, 0b100⟩
  | .uart1, .uart5 => ⟨lpcHicra, lpcHicraSel5Dw, 0b0101⟩
  | .uart2, .uart1 => ⟨lpcHicra, lpcHicraSel1Dw, 0b100⟩
  | .uart2, .uart3 => ⟨lpcHicra, lpcHicraSel3Dw, 0b110⟩
  | .uart2, .uart4 => ⟨lpcHicra, lpcHicraSel4Dw, 0b101⟩
  | .uart2, .uart5 => ⟨lpcHicra, lpcHicraSel5Dw, 0b0110⟩
  | .uart3, .uart1 => ⟨lpcHicra, lpcHicraSel1Dw, 0b101⟩
  | .uart3, .uart2 => ⟨lpcHicra, lpcHicraSel2Dw, 0b100⟩
  | .uart3, .uart4 => ⟨lpcHicra, lpcHicraSel4Dw, 0b110⟩
  | .uart3, .uart5 => ⟨lpcHicra, lpcHicraSel5Dw, 0b0111⟩
  | .uart4, .uart1 => ⟨lpcHicra, lpcHicraSel1Dw, 0b110⟩
  | .uart4, .uart2 => ⟨lpcHicra, lpcHicraSel2Dw, 0b101⟩
  | .uart4, .uart3 => ⟨lpcHicra, lpcHicraSel3Dw, 0b100⟩
  | .uart4, .uart5 => ⟨lpcHicra, lpcHicraSel5Dw, 0b0111⟩
  | _, _ => .empty

/-- `mux_lookup[mux_uart][mux_io]`. -/
def muxLookupUartIo : MuxUart → MuxIo → MuxDesc
  | .uart1, .io1 => ⟨lpcHicra, lpcHicraSel1Io, 0b000⟩
  | .uart1, .io2 => ⟨lpcHicra, lpcHicraSel2Io, 0b100⟩
  | .uart1, .io3 => ⟨lpcHicra, lpcHicraSel3Io, 0b011⟩
  | .uart1, .io4 => ⟨lpcHicra, lpcHicraSel4Io, 0b010⟩
  | .uart1, .io5 => ⟨lpcHicra, lpcHicraSel5Io, 0b001⟩
  | .uart1, .io6 => ⟨lpcHicr9, lpcHicr9Sel6Io, 0b0000⟩
  | .uart2, .io1 => ⟨lpcHicra, lpcHicraSel1Io, 0b001⟩
  | .uart2, .io2 => ⟨lpcHicra, lpcHicraSel2Io, 0b000⟩
  | .uart2, .io3 => ⟨lpcHicra, lpcHicraSel3Io, 0b100⟩
  | .uart2, .io4 => ⟨lpcHicra, lpcHicraSel4Io, 0b011⟩
  | .uart2, .io5 => ⟨lpcHicra, lpcHicraSel5Io, 0b010⟩
  | .uart2, .io6 => ⟨lpcHicr9, lpcHicr9Sel6Io, 0b0001⟩
  | .uart3, .io1 => ⟨lpcHicra, lpcHicraSel1Io, 0b010⟩
  | .uart3, .io2 => ⟨lpcHicra, lpcHicraSel2Io, 0b001⟩
  | .uart3, .io3 => ⟨lpcHicra, lpcHicraSel3Io, 0b000⟩
  | .uart3, .io4 => ⟨lpcHicra, lpcHicraSel4Io, 0b100⟩
  | .uart3, .io5 => ⟨lpcHicra, lpcHicraSel5Io, 0b011⟩
  | .uart3, .io6 => ⟨lpcHicr9, lpcHicr9Sel6Io, 0b0010⟩
  | .uart4, .io1 => ⟨lpcHicra, lpcHicraSel1Io, 0b011⟩
  | .uart4, .io2 => ⟨lpcHicra, lpcHicraSel2Io, 0b010⟩
  | .uart4, .io3 => ⟨lpcHicra, lpcHicraSel3Io, 0b001⟩
  | .uart4, .io4 => ⟨lpcHicra, lpcHicraSel4Io, 0b000⟩
  | .uart4, .io5 => ⟨lpcHicra, lpcHicraSel5Io, 0b100⟩
  | .uart4, .io6 => ⟨lpcHicr9, lpcHicr9Sel6Io, 0b0011⟩
  | .uart5, .io1 => ⟨lpcHicra, lpcHicraSel1Io, 0b100⟩
  | .uart5, .io2 => ⟨lpcHicra, lpcHicraSel2Io, 0b011⟩
  | .uart5, .io3 => ⟨lpcHicra, lpcHicraSel3Io, 0b010⟩
  | .uart5, .io4 => ⟨lpcHicra, lpcHicraSel4Io, 0b001⟩
  | .uart5, .io5 => ⟨lpcHicra, lpcHicraSel5Io, 0b000⟩
  | .uart5, .io6 => ⟨lpcHicr9, lpcHicr9Sel6Io, 0b0100⟩

/-- `mux_lookup[mux_io][mux_uart]`. -/
def muxLookupIoUart : MuxIo → MuxUart → MuxDesc
  | .io1, .uart1 => ⟨lpcHicra, lpcHicraSel1Dw, 0b000⟩
  | .io1, .uart2 => ⟨lpcHicra, lpcHicraSel2Dw, 0b011⟩
  | .io1, .uart3 => ⟨lpcHicra, lpcHicraSel3Dw, 0b010⟩
  | .io1, .uart4 => ⟨lpcHicra, lpcHicraSel4Dw, 0b001⟩
  | .io1, .uart5 => ⟨lpcHicra, lpcHicraSel5Dw, 0b0001⟩
  | .io2, .uart1 => ⟨lpcHicra, lpcHicraSel1Dw, 0b001⟩
  | .io2, .uart2 => ⟨lpcHicra, lpcHicraSel2Dw, 0b000⟩
  | .io2, .uart3 => ⟨lpcHicra, lpcHicraSel3Dw, 0b011⟩
  | .io2, .uart4 => ⟨lpcHicra, lpcHicraSel4Dw, 0b010⟩
  | .io2, .uart5 => ⟨lpcHicra, lpcHicraSel5Dw, 0b0010⟩
  | .io3, .uart1 => ⟨lpcHicra, lpcHicraSel1Dw, 0b010⟩
  | .io3, .uart2 => ⟨lpcHicra, lpcHicraSel2Dw, 0b001⟩
  | .io3, .uart3 => ⟨lpcHicra, lpcHicraSel3Dw, 0b000⟩
  | .io3, .uart4 => ⟨lpcHicra, lpcHicraSel4Dw, 0b011⟩
  | .io3, .uart5 => ⟨lpcHicra, lpcHicraSel5Dw, 0b0011⟩
  | .io4, .uart1 => ⟨lpcHicra, lpcHicraSel1Dw, 0b011⟩
  | .io4, .uart2 => ⟨lpcHicra, lpcHicraSel2Dw, 0b010⟩
  | .io4, .uart3 => ⟨lpcHicra, lpcHicraSel3Dw, 0b001⟩
  | .io4, .uart4 => ⟨lpcHicra, lpcHicraSel4Dw, 0b000⟩
  | .io4, .uart5 => ⟨lpcHicra, lpcHicraSel5Dw, 0b0100⟩
  | .io5, .uart5 => ⟨lpcHicra, lpcHicraSel5Dw, 0b0000⟩
  | .io6, .uart1 => ⟨lpcHicra, lpcHicraSel1Dw, 0b111⟩
  | .io6, .uart2 => ⟨lpcHicra, lpcHicraSel2Dw, 0b111⟩
  | .io6, .uart3 => ⟨lpcHicra, lpcHicraSel3Dw, 0b111⟩
  | .io6, .uart4 => ⟨lpcHicra, lpcHicraSel4Dw, 0b111⟩
  | .io6, .uart5 => ⟨lpcHicra, lpcHicraSel5Dw, 0b1001⟩
  | _, _ => .empty

/-- `mux_lookup[mux_io][mux_io]`. -/
def muxLookupIoIo : MuxIo → MuxIo → MuxDesc
  | .io1, .io3 => ⟨lpcHicra, lpcHicraSel3Io, 0b101⟩
  | .io1, .io4 => ⟨lpcHicra, lpcHicraSel4Io, 0b101⟩
  | .io1, .io5 => ⟨lpcHicra, lpcHicraSel5Io, 0b101⟩
  | .io1, .io6 => ⟨lpcHicr9, lpcHicr9Sel6Io, 0b0101⟩
  | .io2, .io3 => ⟨lpcHicra, lpcHicraSel3Io, 0b110⟩
  | .io2, .io4 => ⟨lpcHicra, lpcHicraSel4Io, 0b110⟩
  | .io2, .io6 => ⟨lpcHicr9, lpcHicr9Sel6Io, 0b0110⟩
  | .io3, .io1 => ⟨lpcHicra, lpcHicraSel1Io, 0b101⟩
  | .io3, .io2 => ⟨lpcHicra, lpcHicraSel2Io, 0b101⟩
  | .io3, .io5 => ⟨lpcHicra, lpcHicraSel5Io, 0b110⟩
  | .io3, .io6 => ⟨lpcHicr9, lpcHicr9Sel6Io, 0b0111⟩
  | .io4, .io1 => ⟨lpcHicra, lpcHicraSel1Io, 0b110⟩
  | .io4, .io2 => ⟨lpcHicra, lpcHicraSel2Io, 0b110⟩
  | .io4, .io6 => ⟨lpcHicr9, lpcHicr9Sel6Io, 0b1000⟩
  | .io5, .io6 => ⟨lpcHicr9, lpcHicr9Sel6Io, 0b1001⟩
  | .io6, .io1 => ⟨lpcHicra, lpcHicraSel1Io, 0b111⟩
  | .io6, .io2 => ⟨lpcHicra, lpcHicraSel2Io, 0b111⟩
  | .io6, .io3 => ⟨lpcHicra, lpcHicraSel3Io, 0b111⟩
  | .io6, .io4 => ⟨lpcHicra, lpcHicraSel4Io, 0b111⟩
  | .io6, .io5 => ⟨lpcHicra, lpcHicraSel5Io, 0b111⟩
  | _, _ => .empty

def muxLookup : MuxObj → MuxObj → MuxDesc
  | .uart s, .uart d => muxLookupUartUart s d
  | .uart s, .io d => muxLookupUartIo s d
  | .io s, .uart d => muxLookupIoUart s d
  | .io s, .io d => muxLookupIoIo s d

/-- The number of the first bit that is set, from 1 on, or 0. -/
def ffs (word : Word) : Nat :=
  match (List.range 32).find? word.getLsbD with
  | some n => n + 1
  | none => 0

/-- What a route puts into the bits of its mask. -/
def MuxDesc.bits (md : MuxDesc) : Word := md.val.setWidth 32 <<< (ffs md.mask - 1)

/-- `struct uart_mux` -/
structure UartMux where
  lpc : Word
  hicr9 : Word
  hicra : Word
  deriving DecidableEq, Repr

section
variable {σ : Type} (bus : Bus σ)

def lpcReadl (lpc offset : Word) : Prog (Faulty σ) Word := socReadl bus (lpc + offset)

def lpcWritel (lpc offset val : Word) : Prog (Faulty σ) Unit := socWritel bus (lpc + offset) val

/-- `uart_mux_driver_init`, once it has its memory. -/
def uartMuxInit (lpc : Word) : Prog (Faulty σ) UartMux := do
  let hicr9 ← lpcReadl bus lpc lpcHicr9
  let hicra ← lpcReadl bus lpc lpcHicra
  return ⟨lpc, hicr9, hicra⟩

variable (ctx : UartMux)

def uartMuxRestore : Prog (Faulty σ) Unit := do
  lpcWritel bus ctx.lpc lpcHicr9 ctx.hicr9
  lpcWritel bus ctx.lpc lpcHicra ctx.hicra

def uartMuxRoute (s d : MuxObj) : Prog (Faulty σ) Unit :=
  let md := muxLookup s d
  if md.mask = 0 then Prog.fail einval
  else do
    let val ← lpcReadl bus ctx.lpc md.reg
    lpcWritel bus ctx.lpc md.reg (val &&& ~~~md.mask ||| md.bits)

def uartMuxConnect (a b : MuxObj) : Prog (Faulty σ) Unit := do
  uartMuxRoute bus ctx a b
  uartMuxRoute bus ctx b a

end

/-- What a caller can ask of the mux. -/
inductive MuxCall where
  | route (s d : MuxObj)
  | connect (a b : MuxObj)
  | restore
  deriving DecidableEq, Repr

def MuxCall.run {σ : Type} (bus : Bus σ) (ctx : UartMux) : MuxCall → Prog (Faulty σ) Unit
  | .route s d => uartMuxRoute bus ctx s d
  | .connect a b => uartMuxConnect bus ctx a b
  | .restore => uartMuxRestore bus ctx

/-- The register and the bits that select the source of a destination. -/
def MuxObj.selector : MuxObj → Word × Word
  | .uart .uart1 => (lpcHicra, lpcHicraSel1Dw)
  | .uart .uart2 => (lpcHicra, lpcHicraSel2Dw)
  | .uart .uart3 => (lpcHicra, lpcHicraSel3Dw)
  | .uart .uart4 => (lpcHicra, lpcHicraSel4Dw)
  | .uart .uart5 => (lpcHicra, lpcHicraSel5Dw)
  | .io .io1 => (lpcHicra, lpcHicraSel1Io)
  | .io .io2 => (lpcHicra, lpcHicraSel2Io)
  | .io .io3 => (lpcHicra, lpcHicraSel3Io)
  | .io .io4 => (lpcHicra, lpcHicraSel4Io)
  | .io .io5 => (lpcHicra, lpcHicraSel5Io)
  | .io .io6 => (lpcHicr9, lpcHicr9Sel6Io)

def MuxObj.all : List MuxObj :=
  [.io .io1, .io .io2, .io .io3, .io .io4, .io .io5, .io .io6, .uart .uart1, .uart .uart2, .uart .uart3, .uart .uart4,
    .uart .uart5]

theorem MuxObj.mem_all (o : MuxObj) : o ∈ MuxObj.all := by
  cases o with
  | io n => cases n <;> decide
  | uart n => cases n <;> decide

/-- The entries for a destination all have its bits, and their values fit. -/
theorem muxLookup_selector (s d : MuxObj) : (muxLookup s d).mask = 0 ∨
    (muxLookup s d).reg = d.selector.1 ∧ (muxLookup s d).mask = d.selector.2 ∧ (muxLookup s d).bits &&& ~~~d.selector.2 = 0 := by
  have all : ∀ s ∈ MuxObj.all, ∀ d ∈ MuxObj.all, (muxLookup s d).mask = 0 ∨
      (muxLookup s d).reg = d.selector.1 ∧ (muxLookup s d).mask = d.selector.2 ∧ (muxLookup s d).bits &&& ~~~d.selector.2 = 0 := by
    decide +kernel
  exact all s s.mem_all d d.mem_all

theorem selector_apart {d e : MuxObj} (ne : d ≠ e) : d.selector.1 = e.selector.1 → d.selector.2 &&& e.selector.2 = 0 := by
  have all : ∀ d ∈ MuxObj.all, ∀ e ∈ MuxObj.all, d ≠ e → d.selector.1 = e.selector.1 →
      d.selector.2 &&& e.selector.2 = 0 := by decide +kernel
  exact all d d.mem_all e e.mem_all ne

/-- No two sources of a destination have the same value, but UART3 and UART4 at UART5. -/
theorem muxLookup_unique {s s' d : MuxObj} (some : (muxLookup s d).mask ≠ 0) (some' : (muxLookup s' d).mask ≠ 0)
    (same : (muxLookup s d).bits = (muxLookup s' d).bits) :
    s = s' ∨ d = .uart .uart5 ∧ s ∈ [MuxObj.uart .uart3, .uart .uart4] ∧ s' ∈ [MuxObj.uart .uart3, .uart .uart4] := by
  have all : ∀ s ∈ MuxObj.all, ∀ s' ∈ MuxObj.all, ∀ d ∈ MuxObj.all, (muxLookup s d).mask ≠ 0 →
      (muxLookup s' d).mask ≠ 0 → (muxLookup s d).bits = (muxLookup s' d).bits →
      s = s' ∨ d = .uart .uart5 ∧ s ∈ [MuxObj.uart .uart3, .uart .uart4] ∧ s' ∈ [MuxObj.uart .uart3, .uart .uart4] := by
    decide +kernel
  exact all s s.mem_all s' s'.mem_all d d.mem_all some some' same

/-- Bit 15 of HICRA selects nothing. -/
def muxUsed (lpc reg : Word) : Word :=
  if reg = lpc + lpcHicr9 then lpcHicr9Sel6Io else if reg = lpc + lpcHicra then 0xffff7fff else 0

/-- The routes that the registers select. -/
def uartMuxBoard (lpc : Word) : Switchboard MuxObj MuxObj Word 32 where
  field d := ⟨lpc + d.selector.1, d.selector.2⟩
  code s d := if (muxLookup s d).mask = 0 then none else some (muxLookup s d).bits
  used := muxUsed lpc
  fits {s d bits} code := by
    rcases muxLookup_selector s d with none | ⟨_, _, fits⟩
    · rw [if_pos none] at code
      cases code
    · split at code
      · cases code
      · cases code
        exact fits
  apart {d e} ne same := selector_apart ne (add_left_cancel same)
  uses d := by
    have other : lpc + lpcHicra ≠ lpc + lpcHicr9 := fun same =>
      absurd (show lpcHicra = lpcHicr9 from add_left_cancel same) (by decide)
    have nine : muxUsed lpc (lpc + lpcHicr9) = lpcHicr9Sel6Io := if_pos rfl
    have ten : muxUsed lpc (lpc + lpcHicra) = 0xffff7fff := by rw [muxUsed, if_neg other, if_pos rfl]
    cases d with
    | io n => cases n <;> simp only [MuxObj.selector, nine, ten] <;> decide
    | uart n => cases n <;> simp only [MuxObj.selector, ten] <;> decide

/-- What a call does to the routes, in order. -/
def MuxCall.acts (lpc : Word) : MuxCall → List (Switchboard.Act MuxObj MuxObj Word)
  | .route s d => [.select s d]
  | .connect a b => [.select a b, .select b a]
  | .restore => [.restore (lpc + lpcHicr9), .restore (lpc + lpcHicra)]

/-- A call with what it returns. -/
def MuxStep (ctx : UartMux) (s : Faulty Regs) (e : MuxCall × Except Errno Unit) (s' : Faulty Regs) : Prop :=
  (attempt (e.1.run regBus ctx)).run s = .ok e.2 s'

/-- A call makes its routes in order up to the first that does not exist, or to an access that fails, and returns 0 if
it made them all. -/
def RouteStep (lpc : Word) (calm : Prop) (sources : MuxObj → Option MuxObj) (e : MuxCall × Except Errno Unit)
    (sources' : MuxObj → Option MuxObj) : Prop :=
  ∃ made, sources' = made.foldl (uartMuxBoard lpc).select sources ∧
    made <+: (e.1.acts lpc).takeWhile (uartMuxBoard lpc).allowed ∧
    (calm → made = (e.1.acts lpc).takeWhile (uartMuxBoard lpc).allowed) ∧ (e.2.isOk = true ↔ made = e.1.acts lpc)

section
variable {ctx : UartMux} {start : Regs} {s₀ s s' : Faulty Regs}

/-- The context holds what the registers were at the start. -/
def UartMux.Saved (ctx : UartMux) (start : Regs) : Prop :=
  ctx.hicr9 = start (ctx.lpc + lpcHicr9) ∧ ctx.hicra = start (ctx.lpc + lpcHicra)

theorem uartMuxRoute_performs (src dst : MuxObj) :
    Faulty.Performs (uartMuxBoard ctx.lpc).allowed ((uartMuxBoard ctx.lpc).effect start) (uartMuxRoute regBus ctx src dst)
      [.select src dst] := by
  by_cases none : (muxLookup src dst).mask = 0
  · rw [uartMuxRoute, if_pos none]
    refine Faulty.Performs.refuse ?_
    simp only [Switchboard.allowed, uartMuxBoard, if_pos none]
    rfl
  · obtain ⟨reg, mask, _⟩ := (muxLookup_selector src dst).resolve_left none
    rw [uartMuxRoute, if_neg none]
    refine Faulty.Performs.change ?_ ?_
    · have changes := socModify_changes (ctx.lpc + (muxLookup src dst).reg) fun val =>
        val &&& ~~~(muxLookup src dst).mask ||| (muxLookup src dst).bits
      have effect : (uartMuxBoard ctx.lpc).effect start (.select src dst) = fun regs =>
          Function.update regs (ctx.lpc + (muxLookup src dst).reg) (regs (ctx.lpc + (muxLookup src dst).reg) &&&
            ~~~(muxLookup src dst).mask ||| (muxLookup src dst).bits) := by
        funext regs
        simp only [Switchboard.effect, uartMuxBoard, if_neg none, Option.getD_some, RegField.put, ← reg, ← mask]
      rw [effect]
      exact changes
    · simp only [Switchboard.allowed, uartMuxBoard, if_neg none]
      rfl

theorem uartMuxRestore_performs (saved : ctx.Saved start) :
    Faulty.Performs (uartMuxBoard ctx.lpc).allowed ((uartMuxBoard ctx.lpc).effect start) (uartMuxRestore regBus ctx)
      (MuxCall.restore.acts ctx.lpc) := by
  have write {offset val : Word} (same : val = start (ctx.lpc + offset)) :
      Faulty.Performs (uartMuxBoard ctx.lpc).allowed ((uartMuxBoard ctx.lpc).effect start) (lpcWritel regBus ctx.lpc offset val)
        [.restore (ctx.lpc + offset)] := by
    subst same
    exact Faulty.Performs.change (socWritel_changes _ _) rfl
  exact (write saved.1).cons (write saved.2)

theorem MuxCall.performs (saved : ctx.Saved start) (call : MuxCall) :
    Faulty.Performs (uartMuxBoard ctx.lpc).allowed ((uartMuxBoard ctx.lpc).effect start) (call.run regBus ctx)
      (call.acts ctx.lpc) := by
  cases call with
  | route src dst => exact uartMuxRoute_performs src dst
  | connect a b => exact (uartMuxRoute_performs a b).cons (uartMuxRoute_performs b a)
  | restore => exact uartMuxRestore_performs saved

/-- One call, on routes that the registers show. -/
theorem MuxStep.shows {e : MuxCall × Except Errno Unit} (saved : ctx.Saved start) (step : MuxStep ctx s e s')
    {sources : MuxObj → Option MuxObj} (shows : (uartMuxBoard ctx.lpc).Shows start s.dev sources) :
    ∃ sources', RouteStep ctx.lpc s.Sound sources e sources' ∧ (uartMuxBoard ctx.lpc).Shows start s'.dev sources' ∧
      s'.fails = s.fails := by
  obtain ⟨call, answer⟩ := e
  obtain ⟨s₁, made, fails, dev, before, calm, outcome⟩ := call.performs saved s
  have may : ∀ act ∈ made, (uartMuxBoard ctx.lpc).allowed act = true := fun act mem =>
    List.mem_takeWhile_imp (before.subset mem)
  have kept := shows.steps may
  rw [← dev] at kept
  refine ⟨_, ⟨made, rfl, before, calm, ?_⟩, ?_⟩
  · rcases outcome with ⟨run, all⟩ | ⟨⟨e, run⟩, part⟩
    · have same := (attempt_ok run).symm.trans step
      cases same
      exact ⟨fun _ => all, fun _ => rfl⟩
    · have same := (attempt_rc run).symm.trans step
      cases same
      exact ⟨nofun, fun all => absurd all part⟩
  · rcases outcome with ⟨run, all⟩ | ⟨⟨e, run⟩, part⟩
    · have same := (attempt_ok run).symm.trans step
      cases same
      exact ⟨kept, fails⟩
    · have same := (attempt_rc run).symm.trans step
      cases same
      exact ⟨kept, fails⟩

/-- A call always returns. -/
theorem MuxStep.total (saved : ctx.Saved start) (s : Faulty Regs) (call : MuxCall) :
    ∃ answer s', MuxStep ctx s (call, answer) s' := by
  obtain ⟨s', _, _, _, _, _, ⟨run, _⟩ | ⟨⟨e, run⟩, _⟩⟩ := call.performs saved s
  · exact ⟨.ok (), s', attempt_ok run⟩
  · exact ⟨.error e, s', attempt_rc run⟩

theorem muxRun_shows {calls : List (MuxCall × Except Errno Unit)} (saved : ctx.Saved s.dev)
    (run : Run (MuxStep ctx) s calls s') : ∃ sources, Run (RouteStep ctx.lpc s.Sound) (fun _ => none) calls sources ∧
      (uartMuxBoard ctx.lpc).Shows s.dev s'.dev sources := by
  have shadow (t : Faulty Regs) (e : MuxCall × Except Errno Unit) (t' : Faulty Regs) (sources : MuxObj → Option MuxObj)
      (held : (uartMuxBoard ctx.lpc).Shows s.dev t.dev sources ∧ t.fails = s.fails) (step : MuxStep ctx t e t') :
      ∃ sources', RouteStep ctx.lpc s.Sound sources e sources' ∧
        (uartMuxBoard ctx.lpc).Shows s.dev t'.dev sources' ∧ t'.fails = s.fails := by
    obtain ⟨shows, fails⟩ := held
    obtain ⟨sources', routed, shows', fails'⟩ := step.shows saved shows
    rw [Faulty.Sound, fails] at routed
    exact ⟨sources', routed, shows', fails'.trans fails⟩
  obtain ⟨sources, routed, shows, _⟩ := run.refine _ shadow ⟨.refl s.dev, rfl⟩
  exact ⟨sources, routed, shows⟩

/-- Whatever is asked of the mux, the registers select for each destination the source that was routed to it last, and
what they did at the start where there is none; no other bit changes. Only UART3 and UART4 are the same at UART5. -/
theorem uart_mux_runs {lpc : Word} {calls : List (MuxCall × Except Errno Unit)}
    (init : (uartMuxInit regBus lpc).run s₀ = .ok ctx s) (run : Run (MuxStep ctx) s calls s') :
    ∃ sources, Run (RouteStep lpc s₀.Sound) (fun _ => none) calls sources ∧
      (uartMuxBoard lpc).Shows s₀.dev s'.dev sources ∧
      ∀ d a b, sources d = some a → (uartMuxBoard lpc).code b d = some (((uartMuxBoard lpc).field d).get s'.dev) →
        a = b ∨ d = .uart .uart5 ∧ a ∈ [MuxObj.uart .uart3, .uart .uart4] ∧ b ∈ [MuxObj.uart .uart3, .uart .uart4] := by
  have observes : Faulty.Observes (uartMuxInit regBus lpc) fun regs =>
      (⟨lpc, regs (lpc + lpcHicr9), regs (lpc + lpcHicra)⟩ : UartMux) :=
    (socReadl_observes _).bind fun _ => (socReadl_observes _).bind fun _ => .pure _
  obtain ⟨s₁, dev, fails, first | ⟨_, e, first⟩⟩ := observes s₀
  · have same := first.symm.trans init
    cases same
    have saved : UartMux.Saved ⟨lpc, s₀.dev (lpc + lpcHicr9), s₀.dev (lpc + lpcHicra)⟩ s.dev := by
      rw [dev]
      exact ⟨rfl, rfl⟩
    obtain ⟨sources, routed, shows⟩ := muxRun_shows saved run
    rw [dev] at shows
    rw [Faulty.Sound, fails] at routed
    refine ⟨sources, routed, shows, fun d a b shown there => ?_⟩
    have code {o : MuxObj} (found : (uartMuxBoard lpc).code o d = some (((uartMuxBoard lpc).field d).get s'.dev)) :
        (muxLookup o d).mask ≠ 0 ∧ (muxLookup o d).bits = ((uartMuxBoard lpc).field d).get s'.dev := by
      simp only [uartMuxBoard] at found
      split at found
      · cases found
      case isFalse some => exact ⟨some, Option.some.inj found⟩
    have here := code (shows.selected shown)
    exact muxLookup_unique here.1 (code there).1 (here.2.trans (code there).2.symm)
  · have same := first.symm.trans init
    cases same

/-- UART3 to UART5, and then to UART2 and back. -/
theorem uart_mux_runs_console : ∃ answer answer' s', Run (MuxStep ⟨lpcStart, 0, 0⟩) ⟨fun _ => 0, fun _ => none, 2⟩
      [(.route (.uart .uart3) (.uart .uart5), answer), (.connect (.uart .uart3) (.uart .uart2), answer')] s' ∧
    ∃ sources, Run (RouteStep lpcStart (Faulty.Sound (⟨fun _ => 0, fun _ => none, 0⟩ : Faulty Regs))) (fun _ => none)
        [(.route (.uart .uart3) (.uart .uart5), answer), (.connect (.uart .uart3) (.uart .uart2), answer')] sources ∧
      (uartMuxBoard lpcStart).Shows (fun _ => 0) s'.dev sources := by
  have saved : UartMux.Saved ⟨lpcStart, 0, 0⟩ fun _ => 0 := ⟨rfl, rfl⟩
  obtain ⟨answer, s₁, first⟩ := MuxStep.total saved ⟨fun _ => 0, fun _ => none, 2⟩ (.route (.uart .uart3) (.uart .uart5))
  obtain ⟨answer', s₂, second⟩ := MuxStep.total saved s₁ (.connect (.uart .uart3) (.uart .uart2))
  have run := Run.cons first (Run.cons second (.nil s₂))
  have init : (uartMuxInit regBus lpcStart).run ⟨fun _ => 0, fun _ => none, 0⟩ =
      .ok ⟨lpcStart, 0, 0⟩ ⟨fun _ => 0, fun _ => none, 2⟩ := rfl
  obtain ⟨sources, routed, shows, _⟩ := uart_mux_runs init run
  exact ⟨answer, answer', s₂, run, sources, routed, shows⟩

end

end Culvert
