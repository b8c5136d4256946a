import Culvert.Bridge.Siphoned
import Culvert.Cmd.Ram
import Culvert.Soc.Strap

namespace Culvert
open Prog

def coprocCachedMemSize : Nat := 16 * 1024 * 1024

def scuCoprocCtrl : Word := 0xa00
def scuCoprocCtrlResetAssert : Word := 1 <<< 1
def scuCoprocCtrlEn : Word := 1 <<< 0
def scuCoprocMemBase : Word := 0xa04
def scuCoprocImemLimit : Word := 0xa08
def scuCoprocDmemLimit : Word := 0xa0c
def scuCoprocCacheRange : Word := 0xa40
def scuCoprocCache1st16MbEn : Word := 1 <<< 0
def scuCoprocCacheFunc : Word := 0xa48
def scuCoprocCacheEn : Word := 1 <<< 0

/-- What the command meets besides the bridge and stdin: the results of `host_init`, `host_get_ahb` and
`soc_align_fdt`, whether there is memory for the two drivers, and whether the two `usleep` return 0. -/
structure CoprocHost where
  init : Except Errno Unit
  ahb : Bool
  align : Except Errno Unit
  sdmc : Bool
  scu : Bool
  preDelay : Bool
  postDelay : Bool

section
variable {σ : Type} (readl : Word → Prog σ Word)

/-- A check that ends the command. -/
def failIf (c : Prop) [Decidable c] (e : Errno) : Prog σ Unit := if c then Prog.fail e else pure ()

def sdmcGetDramThrough (gen : AstGeneration) : Prog σ SocRegion := do
  let mcrConf ← readl ((sdmc gen).iomem + mcrConfig)
  return sdmcDramRegion gen mcrConf

end

section
variable {σ : Type} (call : MemOp → Prog σ MemReply) (host : CoprocHost)

/-- `scu_readl` and `scu_writel` over the bridge. -/
def callScuReadl (reg : Word) : Prog (Siphon σ) Word := Siphon.onAhb (callReadl call (scuBase + reg))

def callScuWritel (reg val : Word) : Prog (Siphon σ) Unit := Siphon.onAhb (callWritel call (scuBase + reg) val)

/-- `host_init`, `host_get_ahb` and `soc_probe`. -/
def coprocessorProbe : Prog (Siphon σ) AstGeneration := do
  Prog.ofExcept host.init
  failIf (¬ host.ahb) enodev
  let rev ← revProbeThrough fun phys => Siphon.onAhb (callReadl call phys)
  match revGeneration rev with
  | none => Prog.fail enotsup
  | some gen =>
    Prog.ofExcept host.align
    return gen

/-- `scu_get`, which initialises the driver. The value is `was_locked`. -/
def coprocessorScuGet : Prog (Siphon σ) Bool := do
  failIf (¬ host.scu) enomem
  let value ← callScuReadl call astScuProtKey
  if value = 0 then
    callScuWritel call astScuProtKey astScuPassword
    return true
  else return false

/-- `scu_put` and `soc_destroy`. -/
def coprocessorScuPut (wasLocked : Bool) : Prog (Siphon σ) Unit := do
  if wasLocked then
    let _ ← Prog.attempt (callScuWritel call astScuProtKey (~~~astScuPassword))
  else pure ()

variable {w : UnsignedLong} (arguments : MemArgs w)

/-- Everything before the first write to the coprocessor, of which any failure ends the command. -/
def coprocessorOpen : Prog (Siphon σ) Bool := do
  let gen ← coprocessorProbe call host
  failIf (gen ≠ .g6) enotsup
  failIf (¬ host.sdmc) enomem
  let dram ← sdmcGetDramThrough (fun phys => Siphon.onAhb (callReadl call phys)) gen
  failIf (arguments.memBase > w.uint32Max) einval
  failIf ((arguments.memBase + arguments.memSize) &&& w.uint32Max < arguments.memBase) einval
  failIf (illFormed arguments dram) einval
  coprocessorScuGet call host

/-- The steps of the cache programming procedure, up to `cleanup_scu`. -/
def coprocessorBoot (fuel : Nat) : Prog (Siphon σ) Unit := do
  callScuWritel call scuCoprocCtrl 0
  callScuWritel call scuCoprocCtrl scuCoprocCtrlResetAssert
  ahbSiphonIn (callOps call) fuel (arguments.memBase.setWidth 32) arguments.memSize.toInt
  callScuWritel call scuCoprocMemBase (arguments.memBase.setWidth 32)
  callScuWritel call scuCoprocImemLimit ((arguments.memBase + BitVec.ofNat _ coprocCachedMemSize).setWidth 32)
  callScuWritel call scuCoprocDmemLimit ((arguments.memBase + arguments.memSize).setWidth 32)
  callScuWritel call scuCoprocCacheRange scuCoprocCache1st16MbEn
  callScuWritel call scuCoprocCacheFunc scuCoprocCacheEn
  failIf (¬ host.preDelay) eio
  callScuWritel call scuCoprocCtrl 0
  failIf (¬ host.postDelay) eio
  callScuWritel call scuCoprocCtrl scuCoprocCtrlEn

/-- `cmd_coprocessor_run`. The value is what the command returns. -/
def coprocessorRun (fuel : Nat) : Prog (Siphon σ) Int := do
  match ← Prog.attempt (coprocessorOpen call host arguments) with
  | .error _ => return exitFailure
  | .ok wasLocked =>
    let rc ← Prog.attempt (coprocessorBoot call host arguments fuel)
    coprocessorScuPut call wasLocked
    return if rc.isOk then 0 else exitFailure

/-- `cmd_coprocessor_stop` -/
def coprocessorStop : Prog (Siphon σ) Int := do
  let opened ← Prog.attempt do
    let gen ← coprocessorProbe call host
    failIf (gen ≠ .g6) enotsup
    coprocessorScuGet call host
  match opened with
  | .error _ => return exitFailure
  | .ok wasLocked =>
    let rc ← Prog.attempt (callScuWritel call scuCoprocCtrl 0)
    coprocessorScuPut call wasLocked
    return if rc.isOk then 0 else exitFailure

end

/-! What the command leaves in the memory behind the bridge. -/

/-- The registers of the SCU that are written. -/
inductive CoprocReg where
  | protKey
  | ctrl
  | memBase
  | imemLimit
  | dmemLimit
  | cacheRange
  | cacheFunc
  deriving DecidableEq, Repr

namespace CoprocReg

def offset : CoprocReg → Word
  | protKey => astScuProtKey
  | ctrl => scuCoprocCtrl
  | memBase => scuCoprocMemBase
  | imemLimit => scuCoprocImemLimit
  | dmemLimit => scuCoprocDmemLimit
  | cacheRange => scuCoprocCacheRange
  | cacheFunc => scuCoprocCacheFunc

def phys (reg : CoprocReg) : Nat := (scuBase + reg.offset).toNat

def get (reg : CoprocReg) (m : Mem) : Word := ByteMem.readWord m reg.phys

def set (reg : CoprocReg) (val : Word) (m : Mem) : Mem := ByteMem.writeWord m reg.phys val

theorem phys_apart {reg reg' : CoprocReg} (ne : reg ≠ reg') : reg.phys + 4 ≤ reg'.phys ∨ reg'.phys + 4 ≤ reg.phys := by
  cases reg <;> cases reg' <;> first | exact absurd rfl ne | decide

theorem phys_low (reg : CoprocReg) : reg.phys + 4 ≤ 0x80000000 := by
  cases reg <;> decide

theorem get_set (reg reg' : CoprocReg) (val : Word) (m : Mem) :
    reg'.get (reg.set val m) = if reg = reg' then val else reg'.get m := by
  split
  case isTrue same =>
    subst same
    exact ByteMem.readWord_write m reg.phys val
  case isFalse ne => exact ByteMem.readWord_write_of_disjoint (by simpa using phys_apart (Ne.symm ne))

theorem get_write (reg : CoprocReg) {m : Mem} {base : Nat} {bs : List Byte} (high : 0x80000000 ≤ base) :
    reg.get (ByteMem.write m base bs) = reg.get m :=
  ByteMem.readWord_write_of_disjoint (Or.inl (Nat.le_trans reg.phys_low high))

theorem read_set (reg : CoprocReg) (val : Word) (m : Mem) {base : Nat} (high : 0x80000000 ≤ base) (n : Nat) :
    ByteMem.read (reg.set val m) base n = ByteMem.read m base n :=
  ByteMem.read_write_of_disjoint (Or.inr (Nat.le_trans (by simpa using reg.phys_low) high))

end CoprocReg

/-- `size` bytes from `base` on. -/
structure CoprocRegion where
  base : Nat
  size : Nat

/-- Nothing is changed but the region and those of the registers. -/
def CoprocFrame (regs : CoprocReg → Prop) (region : CoprocRegion) (m m' : Mem) : Prop :=
  ∀ a, (∀ reg, regs reg → a < reg.phys ∨ reg.phys + 4 ≤ a) → a < region.base ∨ region.base + region.size ≤ a → m' a = m a

/-- Nothing is changed but the key of the SCU. -/
def CoprocAlone (m m' : Mem) : Prop := CoprocFrame (· = .protKey) ⟨0, 0⟩ m m'

/-- The coprocessor does not run, disabled or in reset. -/
structure CoprocHeld (region : CoprocRegion) (m m' : Mem) : Prop where
  ctrl : CoprocReg.ctrl.get m' = 0 ∨ CoprocReg.ctrl.get m' = scuCoprocCtrlResetAssert
  frame : CoprocFrame (fun _ => True) region m m'

/-- It has been stopped, if not left alone. -/
def CoprocPaused (region : CoprocRegion) (m m' : Mem) : Prop := CoprocAlone m m' ∨ CoprocHeld region m m'

/-- The registers describe the region, which starts with the firmware. -/
structure CoprocLoaded (region : CoprocRegion) (firmware : List Byte) (m : Mem) : Prop where
  memBase : (CoprocReg.memBase.get m).toNat = region.base
  imemLimit : CoprocReg.imemLimit.get m = BitVec.ofNat 32 (region.base + coprocCachedMemSize)
  dmemLimit : (CoprocReg.dmemLimit.get m).toNat = region.base + region.size
  cacheRange : CoprocReg.cacheRange.get m = scuCoprocCache1st16MbEn
  cacheFunc : CoprocReg.cacheFunc.get m = scuCoprocCacheEn
  fits : firmware.length ≤ region.size
  high : 0x80000000 ≤ region.base
  firmware : ByteMem.read m region.base firmware.length = firmware

/-- It runs what was loaded. -/
structure CoprocRunning (region : CoprocRegion) (firmware : List Byte) (m : Mem) : Prop extends
    CoprocLoaded region firmware m where
  ctrl : CoprocReg.ctrl.get m = scuCoprocCtrlEn

section
variable {regs : CoprocReg → Prop} {region : CoprocRegion} {m m₁ m' : Mem} {reg : CoprocReg} {val : Word} {bs : List Byte}

theorem CoprocFrame.refl (regs : CoprocReg → Prop) (region : CoprocRegion) (m : Mem) : CoprocFrame regs region m m :=
  fun _ _ _ => rfl

theorem CoprocFrame.set (frame : CoprocFrame regs region m m') (here : regs reg) (val : Word) :
    CoprocFrame regs region m (reg.set val m') := by
  intro a apart away
  rw [← frame a apart away]
  rcases apart reg here with below | above
  · exact ByteMem.write_below below
  · exact ByteMem.write_above (by simpa using above)

theorem CoprocFrame.write (frame : CoprocFrame regs region m m') (short : bs.length ≤ region.size) :
    CoprocFrame regs region m (ByteMem.write m' region.base bs) := by
  intro a apart away
  rw [← frame a apart away]
  rcases away with below | above
  · exact ByteMem.write_below below
  · exact ByteMem.write_above (by omega)

/-- Where no region is changed, none is. -/
theorem CoprocFrame.widen (frame : CoprocFrame regs ⟨0, 0⟩ m m') (region : CoprocRegion) : CoprocFrame regs region m m' :=
  fun a apart _ => frame a apart (Or.inr (Nat.zero_le a))

theorem CoprocAlone.frame (alone : CoprocAlone m m') (region : CoprocRegion) : CoprocFrame (fun _ => True) region m m' :=
  fun a apart _ => alone a (fun reg _ => apart reg trivial) (Or.inr (Nat.zero_le a))

theorem CoprocAlone.get (alone : CoprocAlone m m') (ne : reg ≠ .protKey) : reg.get m' = reg.get m := by
  have same (i : Nat) (less : i < 4) : m' (reg.phys + i) = m (reg.phys + i) := by
    refine alone _ (fun other key => ?_) (Or.inr (Nat.zero_le _))
    subst key
    rcases CoprocReg.phys_apart ne with below | above
    · exact Or.inl (by omega)
    · exact Or.inr (by omega)
  simp only [CoprocReg.get, ByteMem.readWord]
  rw [← Nat.add_zero reg.phys, same 0 (by decide), same 1 (by decide), same 2 (by decide), same 3 (by decide)]

theorem CoprocHeld.set (held : CoprocHeld region m m') (reg : CoprocReg) (ne : reg ≠ .ctrl) (val : Word) :
    CoprocHeld region m (reg.set val m') := by
  refine ⟨?_, held.frame.set trivial val⟩
  rw [CoprocReg.get_set, if_neg ne]
  exact held.ctrl

theorem CoprocFrame.held (frame : CoprocFrame (fun _ => True) region m m')
    (stops : val = 0 ∨ val = scuCoprocCtrlResetAssert) : CoprocHeld region m (CoprocReg.ctrl.set val m') := by
  refine ⟨?_, frame.set trivial val⟩
  rw [CoprocReg.get_set, if_pos rfl]
  exact stops

theorem CoprocHeld.write (held : CoprocHeld region m m') (high : 0x80000000 ≤ region.base) (short : bs.length ≤ region.size) :
    CoprocHeld region m (ByteMem.write m' region.base bs) := by
  refine ⟨?_, held.frame.write short⟩
  rw [CoprocReg.get_write _ high]
  exact held.ctrl

end

/-- The firmware runs, and nothing else is changed. -/
def CoprocRan (region : CoprocRegion) (firmware : List Byte) (m m' : Mem) : Prop :=
  CoprocRunning region firmware m' ∧ CoprocFrame (fun _ => True) region m m'

theorem CoprocPaused.relocked {region : CoprocRegion} {m m' : Mem} (paused : CoprocPaused region m m') (val : Word) :
    CoprocPaused region m (CoprocReg.protKey.set val m') := by
  rcases paused with alone | held
  · exact Or.inl (alone.set rfl val)
  · exact Or.inr (held.set .protKey (by decide) val)

theorem CoprocRunning.alone {region : CoprocRegion} {firmware : List Byte} {m m' : Mem}
    (running : CoprocRunning region firmware m) (alone : CoprocAlone m m') : CoprocRunning region firmware m' := by
  refine ⟨⟨?_, ?_, ?_, ?_, ?_, running.fits, running.high, ?_⟩, ?_⟩
  · rw [alone.get (by decide)]
    exact running.memBase
  · rw [alone.get (by decide)]
    exact running.imemLimit
  · rw [alone.get (by decide)]
    exact running.dmemLimit
  · rw [alone.get (by decide)]
    exact running.cacheRange
  · rw [alone.get (by decide)]
    exact running.cacheFunc
  · have same : ByteMem.read m' region.base firmware.length = ByteMem.read m region.base firmware.length :=
      ByteMem.read_congr fun x from_base _ => alone x (fun reg _ => Or.inr (by
        have low := reg.phys_low
        have high := running.high
        omega)) (Or.inr (Nat.zero_le x))
    rw [same]
    exact running.firmware
  · rw [alone.get (by decide)]
    exact running.ctrl

theorem CoprocRan.relocked {region : CoprocRegion} {firmware : List Byte} {m m' : Mem}
    (ran : CoprocRan region firmware m m') (val : Word) : CoprocRan region firmware m (CoprocReg.protKey.set val m') := by
  have same : CoprocAlone m' m' := .refl _ _ m'
  exact ⟨ran.1.alone (same.set rfl val), ran.2.set trivial val⟩

section
variable {σ : Type} {call : MemOp → Prog σ MemReply} {I : σ → Prop} {mem : σ → Mem} {host : CoprocHost}

/-- The bridge in order, the memory `m` behind it, and stdin in `F`. -/
def CoprocAt (I : σ → Prop) (mem : σ → Mem) (F : Fd → Prop) (m : Mem) (s : Siphon σ) : Prop :=
  (I s.ahb ∧ mem s.ahb = m) ∧ F s.fd

/-- The bridge in order, and the memory behind it in `H`. -/
def CoprocStopped (I : σ → Prop) (mem : σ → Mem) (H : Mem → Prop) (s : Siphon σ) : Prop := I s.ahb ∧ H (mem s.ahb)

variable {F : Fd → Prop} {H : Mem → Prop} {m : Mem}

theorem CoprocReg.plain_readl (reg : CoprocReg) : (MemOp.readl (scuBase + reg.offset)).Plain := by
  rw [MemOp.plain_readl_iff]
  cases reg <;> decide

theorem CoprocReg.plain_writel (reg : CoprocReg) (val : Word) : (MemOp.writel (scuBase + reg.offset) val).Plain := by
  rw [MemOp.plain_writel_iff]
  cases reg <;> decide

theorem callReadl_at (serve : CallsServe call I mem MemOp.Plain) {phys : Word} (here : (MemOp.readl phys).Plain) (stop : H m) :
    Triple (CoprocAt I mem F m) (Siphon.onAhb (callReadl call phys))
      (fun val s => CoprocAt I mem F m s ∧ val = ByteMem.readWord m phys.toNat) fun _ => CoprocStopped I mem H := by
  have op := onAhb_triple (serve.readl here (m := m)) F
  refine op.conseq (fun _ pre => pre) (fun val s post => ⟨⟨post.1.1, post.2⟩, post.1.2⟩) fun _ s stopped => ⟨stopped.1.1, ?_⟩
  rw [stopped.1.2]
  exact stop

theorem callScuReadl_at (serve : CallsServe call I mem MemOp.Plain) (reg : CoprocReg) (stop : H m) :
    Triple (CoprocAt I mem F m) (callScuReadl call reg.offset)
      (fun val s => CoprocAt I mem F m s ∧ val = reg.get m) fun _ => CoprocStopped I mem H :=
  callReadl_at serve reg.plain_readl stop

theorem callScuWritel_at (serve : CallsServe call I mem MemOp.Plain) (reg : CoprocReg) (val : Word) (stop : H m) :
    Triple (CoprocAt I mem F m) (callScuWritel call reg.offset val)
      (fun _ => CoprocAt I mem F (reg.set val m)) fun _ => CoprocStopped I mem H := by
  have op := onAhb_triple (serve.writel (reg.plain_writel val) (m := m)) F
  refine op.conseq (fun _ pre => pre) (fun _ s post => post) fun _ s stopped => ⟨stopped.1.1, ?_⟩
  rw [stopped.1.2]
  exact stop

end

section
variable {σ : Type} {call : MemOp → Prog σ MemReply} {I : σ → Prop} {mem : σ → Mem} {host : CoprocHost}
variable {F : Fd → Prop} {H : Mem → Prop} {m : Mem}

theorem coprocAt_stopped (stop : H m) (s : Siphon σ) (here : CoprocAt I mem F m s) : CoprocStopped I mem H s :=
  ⟨here.1.1, by rw [here.1.2]; exact stop⟩

theorem failIf_at {c : Prop} [Decidable c] (e : Errno) (stop : H m) :
    Triple (CoprocAt I mem F m) (failIf c e : Prog (Siphon σ) Unit) (fun _ s => CoprocAt I mem F m s ∧ ¬ c)
      fun _ => CoprocStopped I mem H := by
  rw [failIf]
  by_cases holds : c
  · rw [if_pos holds]
    exact Triple.fail (coprocAt_stopped stop)
  · rw [if_neg holds]
    exact Triple.pure fun _ pre => ⟨pre, holds⟩

theorem coprocExcept_at (r : Except Errno Unit) (stop : H m) :
    Triple (CoprocAt I mem F m) (Prog.ofExcept r : Prog (Siphon σ) Unit) (fun _ => CoprocAt I mem F m)
      fun _ => CoprocStopped I mem H := by
  cases r with
  | ok _ => exact Triple.pure fun _ pre => pre
  | error e => exact Triple.fail (coprocAt_stopped stop)

/-- A step whose result is known besides the state. -/
theorem bind_fact {α β : Type} {p : Prog (Siphon σ) α} {f : α → Prog (Siphon σ) β} {P Q : Siphon σ → Prop} {fact : α → Prop}
    {R : β → Siphon σ → Prop} {E : Stop → Siphon σ → Prop} (first : Triple P p (fun a s => Q s ∧ fact a) E)
    (next : ∀ a, fact a → Triple Q (f a) R E) : Triple P (p >>= f) R E :=
  first.bind fun a s both => next a both.2 s both.1

/-- The revision that the registers in `m` tell. -/
def memRev (m : Mem) : Prog Unit Word := revProbeThrough fun phys => pure (ByteMem.readWord m phys.toNat)

theorem revProbeThrough_at {read : Word → Prog (Siphon σ) Word}
    (reads : ∀ phys ∈ [0x1e6e2004, 0x1e6e207c, 0x1e6e2014], Triple (CoprocAt I mem F m) (read phys)
      (fun val s => CoprocAt I mem F m s ∧ val = ByteMem.readWord m phys.toNat) fun _ => CoprocStopped I mem H)
    (stop : H m) : Triple (CoprocAt I mem F m) (revProbeThrough read)
      (fun rev s => CoprocAt I mem F m s ∧ (memRev m).run () = .ok rev ()) fun _ => CoprocStopped I mem H := by
  have checked (rev : Word) (same : ((if revIsSupported rev then pure rev else Prog.fail enodev : Prog Unit Word)).run () =
      (memRev m).run ()) : Triple (CoprocAt I mem F m) (if revIsSupported rev then pure rev else Prog.fail enodev)
      (fun rev s => CoprocAt I mem F m s ∧ (memRev m).run () = .ok rev ()) fun _ => CoprocStopped I mem H := by
    by_cases supported : revIsSupported rev = true
    · rw [if_pos supported] at same ⊢
      exact Triple.pure fun _ pre => ⟨pre, same.symm⟩
    · rw [if_neg supported]
      exact Triple.fail (coprocAt_stopped stop)
  refine bind_fact (reads _ (by decide)) fun scu004 first => bind_fact (reads _ (by decide)) fun scu07c second => ?_
  subst first
  subst second
  dsimp only
  split
  case isTrue six =>
    refine bind_fact (reads _ (by decide)) fun rev third => checked rev ?_
    subst third
    simp only [memRev, revProbeThrough, pure_bind]
    rw [if_pos six]
  case isFalse other =>
    refine checked _ ?_
    simp only [memRev, revProbeThrough, pure_bind]
    rw [if_neg other]

/-- The generation of the SoC that the registers in `m` tell. -/
def MemGeneration (m : Mem) (gen : AstGeneration) : Prop :=
  ∃ rev, (memRev m).run () = .ok rev () ∧ revGeneration rev = some gen

theorem coprocessorProbe_at (serve : CallsServe call I mem MemOp.Plain) (stop : H m) :
    Triple (CoprocAt I mem F m) (coprocessorProbe call host) (fun gen s => CoprocAt I mem F m s ∧ MemGeneration m gen)
      fun _ => CoprocStopped I mem H := by
  refine (coprocExcept_at host.init stop).bind fun _ => bind_fact (failIf_at enodev stop) fun _ _ => ?_
  have reads : ∀ phys ∈ [0x1e6e2004, 0x1e6e207c, 0x1e6e2014], Triple (CoprocAt I mem F m)
      (Siphon.onAhb (callReadl call phys)) (fun val s => CoprocAt I mem F m s ∧ val = ByteMem.readWord m phys.toNat)
      fun _ => CoprocStopped I mem H := by
    intro phys here
    refine callReadl_at serve ?_ stop
    rw [MemOp.plain_readl_iff]
    simp only [List.mem_cons, List.not_mem_nil, or_false] at here
    rcases here with rfl | rfl | rfl <;> decide
  refine bind_fact (revProbeThrough_at reads stop) fun rev found => ?_
  cases known : revGeneration rev with
  | none => exact Triple.fail (coprocAt_stopped stop)
  | some gen => exact (coprocExcept_at host.align stop).bind fun _ => Triple.pure fun _ pre => ⟨pre, rev, found, known⟩

/-- The SCU is unlocked if it has to be. -/
theorem coprocessorScuGet_at (serve : CallsServe call I mem MemOp.Plain) :
    Triple (CoprocAt I mem F m) (coprocessorScuGet call host)
      (fun _ s => CoprocStopped I mem (CoprocAlone m) s ∧ F s.fd) fun _ => CoprocStopped I mem (CoprocAlone m) := by
  have same : CoprocAlone m m := .refl _ _ m
  refine bind_fact (failIf_at enomem same) fun _ _ => bind_fact (callScuReadl_at serve .protKey same) fun value _ => ?_
  refine Triple.ite ((callScuWritel_at serve .protKey astScuPassword same).bind fun _ => Triple.pure fun s here => ?_)
    (Triple.pure fun s here => ?_)
  · refine ⟨⟨here.1.1, ?_⟩, here.2⟩
    rw [here.1.2]
    exact same.set rfl astScuPassword
  · exact ⟨coprocAt_stopped same s here, here.2⟩

/-- Locking the SCU again does not matter to what is left. -/
theorem coprocessorScuPut_keeps (serve : CallsServe call I mem MemOp.Plain)
    (blind : ∀ m', H m' → H (CoprocReg.protKey.set (~~~astScuPassword) m')) (wasLocked : Bool) :
    Triple (CoprocStopped I mem H) (coprocessorScuPut call wasLocked) (fun _ => CoprocStopped I mem H)
      fun _ => CoprocStopped I mem H := by
  rw [coprocessorScuPut]
  refine Triple.ite ?_ (Triple.pure fun _ pre => pre)
  refine Triple.bind (Q := fun _ => CoprocStopped I mem H) ?_ fun _ => Triple.pure fun _ pre => pre
  intro s pre
  have write := callScuWritel_at (F := fun _ => True) serve .protKey (~~~astScuPassword) (H := H) pre.2
  refine (write.attempt.conseq (fun _ pre => pre) (fun r s post => ?_) fun _ _ post => post) s ⟨⟨pre.1, rfl⟩, trivial⟩
  cases r with
  | ok _ => exact ⟨post.1.1, by rw [post.1.2]; exact blind _ pre.2⟩
  | error _ => exact post

/-- The end of a command, from `cleanup_scu` on. -/
theorem coprocessorClose_at (serve : CallsServe call I mem MemOp.Plain)
    (blind : ∀ m', H m' → H (CoprocReg.protKey.set (~~~astScuPassword) m')) (wasLocked : Bool) {status : Int}
    {R : Int → Mem → Prop} {E : Mem → Prop} (done : ∀ m', H m' → R status m') (stop : ∀ m', H m' → E m') :
    Triple (CoprocStopped I mem H) (do coprocessorScuPut call wasLocked; pure status)
      (fun r => CoprocStopped I mem (R r)) fun _ => CoprocStopped I mem E :=
  ((coprocessorScuPut_keeps serve blind wasLocked).conseq (fun _ pre => pre) (fun _ _ post => post)
    fun _ _ stopped => ⟨stopped.1, stop _ stopped.2⟩).bind fun _ => Triple.pure fun _ post => ⟨post.1, done _ post.2⟩

variable {w : UnsignedLong} {arguments : MemArgs w}

/-- The DRAM that the register in `m` tells. -/
def memDram (gen : AstGeneration) (m : Mem) : SocRegion :=
  sdmcDramRegion gen (ByteMem.readWord m ((sdmc gen).iomem + mcrConfig).toNat)

theorem mcrConfig_plain (gen : AstGeneration) : (MemOp.readl ((sdmc gen).iomem + mcrConfig)).Plain := by
  rw [MemOp.plain_readl_iff]
  cases gen <;> decide

theorem callGetDram_at (serve : CallsServe call I mem MemOp.Plain) (gen : AstGeneration) (stop : H m) :
    Triple (CoprocAt I mem F m) (sdmcGetDramThrough (fun phys => Siphon.onAhb (callReadl call phys)) gen)
      (fun dram s => CoprocAt I mem F m s ∧ dram = memDram gen m) fun _ => CoprocStopped I mem H := by
  refine bind_fact (callReadl_at serve (mcrConfig_plain gen) stop) fun mcrConf read => Triple.pure fun s here => ⟨here, ?_⟩
  rw [read]
  rfl

/-- The region of the arguments. -/
def MemArgs.region (arguments : MemArgs w) : CoprocRegion := ⟨arguments.memBase.toNat, arguments.memSize.toNat⟩

/-- The region is in the upper half, where the DRAM is, and does not wrap around. -/
def MemArgs.Upper (arguments : MemArgs w) : Prop :=
  0x80000000 ≤ arguments.memBase.toNat ∧ arguments.memBase.toNat + arguments.memSize.toNat < 2 ^ 32

/-- The SoC is an AST2600, and the region is in its DRAM as the command has it. -/
structure MemArgs.Accepted (arguments : MemArgs w) (m : Mem) : Prop where
  generation : MemGeneration m .g6
  sum : arguments.memBase.toNat + arguments.memSize.toNat < 2 ^ 32
  formed : illFormed arguments (memDram .g6 m) = false

/-- The command takes the region for inside exactly if it is, and the DRAM ends below 4 GiB. -/
theorem MemArgs.accepted_iff : arguments.Accepted m ↔ MemGeneration m .g6 ∧
    (memDram .g6 m).start.toNat + (memDram .g6 m).length.toNat < 2 ^ 32 ∧ arguments.Inside (memDram .g6 m) := by
  obtain ⟨start, ends, _⟩ := dramOf_bounds .g6 fun _ => ByteMem.readWord m ((sdmc .g6).iomem + mcrConfig).toNat
  change 0 < (memDram .g6 m).start.toNat at start
  change (memDram .g6 m).start.toNat + (memDram .g6 m).length.toNat ≤ 2 ^ 32 at ends
  constructor
  · rintro ⟨generation, sum, formed⟩
    rw [not_illFormed_iff, memSum_mod, Nat.mod_eq_of_lt sum, ite_self] at formed
    by_cases below : (memDram .g6 m).start.toNat + (memDram .g6 m).length.toNat < 2 ^ 32
    · rw [Nat.mod_eq_of_lt below] at formed
      exact ⟨generation, below, formed⟩
    · have whole : (memDram .g6 m).start.toNat + (memDram .g6 m).length.toNat = 2 ^ 32 := by omega
      rw [whole, Nat.mod_self] at formed
      omega
  · rintro ⟨generation, below, inside⟩
    have sum : arguments.memBase.toNat + arguments.memSize.toNat < 2 ^ 32 := Nat.lt_of_le_of_lt inside.2 below
    refine ⟨generation, sum, ?_⟩
    rw [not_illFormed_iff, memSum_mod, Nat.mod_eq_of_lt sum, ite_self, Nat.mod_eq_of_lt below]
    exact inside

theorem MemArgs.Accepted.upper (accepted : arguments.Accepted m) : arguments.Upper :=
  ⟨(not_illFormed_iff.mp accepted.formed).1, accepted.sum⟩

theorem coprocessorOpen_at (serve : CallsServe call I mem MemOp.Plain) :
    Triple (CoprocAt I mem F m) (coprocessorOpen call host arguments)
      (fun _ s => (CoprocStopped I mem (CoprocAlone m) s ∧ F s.fd) ∧ arguments.Accepted m)
      fun _ => CoprocStopped I mem (CoprocAlone m) := by
  have same : CoprocAlone m m := .refl _ _ m
  refine bind_fact (coprocessorProbe_at serve same) fun gen found => bind_fact (failIf_at enotsup same) fun _ six => ?_
  have generation : gen = .g6 := not_not.mp six
  subst generation
  refine bind_fact (failIf_at enomem same) fun _ _ => bind_fact (callGetDram_at serve .g6 same) fun dram there => ?_
  refine bind_fact (failIf_at einval same) fun _ _ => bind_fact (failIf_at einval same) fun _ sum => ?_
  refine bind_fact (failIf_at einval same) fun _ formed => ?_
  rw [sum_guard_iff] at sum
  rw [there] at formed
  have accepted : arguments.Accepted m := ⟨found, by omega, Bool.eq_false_iff.mpr formed⟩
  exact (coprocessorScuGet_at serve).conseq (fun _ pre => pre) (fun _ _ post => ⟨post, accepted⟩) fun _ _ post => post

theorem MemArgs.base_word (arguments : MemArgs w) : (arguments.memBase.setWidth 32 : Word).toNat = arguments.memBase.toNat := by
  have le := arguments.base_le
  rw [BitVec.toNat_setWidth]
  exact Nat.mod_eq_of_lt (by omega)

/-- Cutting a sum to 32 bits, where it is below `2 ^ 32` the sum itself. -/
theorem MemArgs.sum_word (arguments : MemArgs w) (n : Nat) :
    ((arguments.memBase + BitVec.ofNat _ n).setWidth 32 : Word) = BitVec.ofNat 32 (arguments.memBase.toNat + n) := by
  have wide : 2 ^ 32 ∣ 2 ^ w.bits := by cases w <;> decide
  rw [← BitVec.toNat_inj, BitVec.toNat_setWidth, BitVec.toNat_add, BitVec.toNat_ofNat, BitVec.toNat_ofNat,
    Nat.add_mod_mod, Nat.mod_mod_of_dvd _ wide]

theorem MemArgs.Upper.size_int (upper : arguments.Upper) : arguments.memSize.toInt = (arguments.memSize.toNat : Int) := by
  obtain ⟨high, fits⟩ := upper
  refine BitVec.toInt_eq_toNat_of_lt ?_
  have wide : 2 ^ 32 ≤ 2 ^ w.bits := Nat.pow_le_pow_right (by decide) (by cases w <;> decide)
  omega

/-- What goes into the region, of what stdin holds. -/
def MemArgs.firmware (arguments : MemArgs w) (stream : List Byte) : List Byte := stream.take arguments.memSize.toNat

theorem MemArgs.firmware_fits (arguments : MemArgs w) (stream : List Byte) :
    (arguments.firmware stream).length ≤ arguments.region.size := List.length_take_le _ _

theorem coprocessorSiphon_at (serve : CallsServe call I mem MemOp.Plain) (upper : arguments.Upper) (stream : List Byte)
    (fuel : Nat) : Triple (CoprocAt I mem (fun fd => fd.bytes = stream) m)
      (ahbSiphonIn (callOps call) fuel (arguments.memBase.setWidth 32) arguments.memSize.toInt)
      (fun _ => CoprocAt I mem (fun _ => True) (ByteMem.write m arguments.region.base (arguments.firmware stream)))
      fun _ => CoprocStopped I mem fun m' =>
        ∃ bs : List Byte, bs.length ≤ arguments.region.size ∧ m' = ByteMem.write m arguments.region.base bs := by
  have range := upper.2
  have fits := arguments.firmware_fits stream
  have base := arguments.base_word
  have wanted : siphonWanted arguments.memSize.toInt stream = (arguments.firmware stream).length := by
    rw [siphonWanted, upper.size_int, if_neg (by omega), Int.toNat_natCast, MemArgs.firmware, List.length_take]
  have bound : -1 ≤ arguments.memSize.toInt := by
    rw [upper.size_int]
    omega
  have inRange : (arguments.memBase.setWidth 32 : Word).toNat + siphonWanted arguments.memSize.toInt stream ≤ 2 ^ 32 := by
    simp only [MemArgs.region] at fits
    omega
  have siphon : Triple (Stored I mem m (arguments.memBase.setWidth 32) stream 0 0) _ _ _ :=
    ahbSiphonIn_stores_part serve bound inRange (fun j bs some le => ⟨writeInRange_chunks inRange j bs some le, trivial⟩) fuel
  refine siphon.conseq (fun s pre => ⟨pre.1.1, ?_, pre.2⟩) (fun _ s post => ⟨⟨post.inv, ?_⟩, trivial⟩) fun _ s stopped => ?_
  · rw [List.take_zero, ByteMem.write_nil]
    exact pre.1.2
  · have whole : stream.take (arguments.firmware stream).length = arguments.firmware stream :=
      (List.prefix_iff_eq_take.mp (List.take_prefix _ stream)).symm
    rw [post.there, wanted, whole, base]
    rfl
  · obtain ⟨j, k, le, le', stored⟩ := stopped
    refine ⟨stored.inv, stream.take j, ?_, ?_⟩
    · have short := List.length_take_le j stream
      omega
    · rw [stored.there, base]
      rfl

theorem MemArgs.Upper.end_word (upper : arguments.Upper) :
    ((arguments.memBase + arguments.memSize).setWidth 32 : Word).toNat = arguments.memBase.toNat + arguments.memSize.toNat := by
  have range := upper.2
  have sum := arguments.sum_word arguments.memSize.toNat
  rw [BitVec.ofNat_toNat, BitVec.setWidth_eq] at sum
  rw [sum, BitVec.toNat_ofNat]
  exact Nat.mod_eq_of_lt range

/-- What the last steps leave runs. -/
theorem MemArgs.Upper.running (upper : arguments.Upper) {firmware : List Byte} (fits : firmware.length ≤ arguments.region.size)
    (m : Mem) : CoprocRunning arguments.region firmware
      (CoprocReg.ctrl.set scuCoprocCtrlEn (CoprocReg.ctrl.set 0 (CoprocReg.cacheFunc.set scuCoprocCacheEn
        (CoprocReg.cacheRange.set scuCoprocCache1st16MbEn
          (CoprocReg.dmemLimit.set ((arguments.memBase + arguments.memSize).setWidth 32)
            (CoprocReg.imemLimit.set ((arguments.memBase + BitVec.ofNat _ coprocCachedMemSize).setWidth 32)
              (CoprocReg.memBase.set (arguments.memBase.setWidth 32)
                (ByteMem.write m arguments.region.base firmware)))))))) := by
  have high : 0x80000000 ≤ arguments.region.base := upper.1
  refine ⟨⟨?_, ?_, ?_, ?_, ?_, fits, high, ?_⟩, ?_⟩
  · simp only [CoprocReg.get_set, reduceCtorEq, if_false, if_true]
    exact arguments.base_word
  · simp only [CoprocReg.get_set, reduceCtorEq, if_false, if_true]
    exact arguments.sum_word coprocCachedMemSize
  · simp only [CoprocReg.get_set, reduceCtorEq, if_false, if_true]
    exact upper.end_word
  · simp only [CoprocReg.get_set, reduceCtorEq, if_false, if_true]
  · simp only [CoprocReg.get_set, reduceCtorEq, if_false, if_true]
  · simp only [CoprocReg.read_set _ _ _ high]
    exact ByteMem.read_write m arguments.region.base firmware
  · simp only [CoprocReg.get_set, if_true]

/-- The firmware is loaded with the coprocessor in reset, and started once the registers describe it. -/
theorem coprocessorBoot_at (serve : CallsServe call I mem MemOp.Plain) (upper : arguments.Upper) (stream : List Byte)
    (fuel : Nat) : Triple (fun s => CoprocStopped I mem (CoprocAlone m) s ∧ s.fd.bytes = stream)
      (coprocessorBoot call host arguments fuel)
      (fun _ => CoprocStopped I mem fun m' =>
        CoprocRunning arguments.region (arguments.firmware stream) m' ∧
          CoprocFrame (fun _ => True) arguments.region m m')
      fun _ => CoprocStopped I mem (CoprocPaused arguments.region m) := by
  rintro s ⟨⟨inv, alone⟩, bytes⟩
  have high : 0x80000000 ≤ arguments.region.base := upper.1
  have disabled := (alone.frame arguments.region).held (Or.inl rfl)
  have reset := disabled.frame.held (Or.inr rfl)
  have loaded := reset.write high (arguments.firmware_fits stream)
  have based := loaded.set .memBase (by decide) (arguments.memBase.setWidth 32)
  have limited := based.set .imemLimit (by decide)
    ((arguments.memBase + BitVec.ofNat _ coprocCachedMemSize).setWidth 32)
  have sized := limited.set .dmemLimit (by decide) ((arguments.memBase + arguments.memSize).setWidth 32)
  have ranged := sized.set .cacheRange (by decide) scuCoprocCache1st16MbEn
  have cached := ranged.set .cacheFunc (by decide) scuCoprocCacheEn
  have released := cached.frame.held (Or.inl rfl)
  have siphon := (coprocessorSiphon_at (m := CoprocReg.ctrl.set scuCoprocCtrlResetAssert (CoprocReg.ctrl.set 0 (mem s.ahb)))
    serve upper stream fuel).conseq (fun _ pre => pre) (fun _ _ post => post) fun _ t (stopped : CoprocStopped I mem _ t) =>
      (⟨stopped.1, by
        obtain ⟨_, bs, short, made⟩ := stopped
        rw [made]
        exact Or.inr (reset.write high short)⟩ : CoprocStopped I mem (CoprocPaused arguments.region m) t)
  have running := upper.running (arguments.firmware_fits stream)
    (CoprocReg.ctrl.set scuCoprocCtrlResetAssert (CoprocReg.ctrl.set 0 (mem s.ahb)))
  refine ((callScuWritel_at serve .ctrl 0 (Or.inl alone)).bind fun _ =>
    (callScuWritel_at serve .ctrl scuCoprocCtrlResetAssert (Or.inr disabled)).bind fun _ =>
    siphon.bind fun _ =>
    (callScuWritel_at serve .memBase _ (Or.inr loaded)).bind fun _ =>
    (callScuWritel_at serve .imemLimit _ (Or.inr based)).bind fun _ =>
    (callScuWritel_at serve .dmemLimit _ (Or.inr limited)).bind fun _ =>
    (callScuWritel_at serve .cacheRange _ (Or.inr sized)).bind fun _ =>
    (callScuWritel_at serve .cacheFunc _ (Or.inr ranged)).bind fun _ =>
    bind_fact (failIf_at eio (Or.inr cached)) fun _ _ =>
    (callScuWritel_at serve .ctrl 0 (Or.inr cached)).bind fun _ =>
    bind_fact (failIf_at eio (Or.inr released)) fun _ _ =>
    (callScuWritel_at serve .ctrl scuCoprocCtrlEn (Or.inr released)).conseq (fun _ pre => pre) (fun _ t post => ?_)
      fun _ _ stopped => stopped) s ⟨⟨inv, rfl⟩, bytes⟩
  refine ⟨post.1.1, ?_⟩
  rw [post.1.2]
  exact ⟨running, released.frame.set trivial scuCoprocCtrlEn⟩

/-- It returns 0 once the firmware runs, and otherwise leaves the coprocessor alone or stopped. -/
theorem coprocessorRun_at (serve : CallsServe call I mem MemOp.Plain) (stream : List Byte) (fuel : Nat) :
    Triple (CoprocAt I mem (fun fd => fd.bytes = stream) m) (coprocessorRun call host arguments fuel)
      (fun status => CoprocStopped I mem fun m' =>
        status = 0 ∧ arguments.Accepted m ∧ CoprocRan arguments.region (arguments.firmware stream) m m' ∨
          status = exitFailure ∧ CoprocPaused arguments.region m m')
      fun _ => CoprocStopped I mem fun m' =>
        CoprocRan arguments.region (arguments.firmware stream) m m' ∨ CoprocPaused arguments.region m m' := by
  refine ((coprocessorOpen_at serve).attempt.conseq (fun _ pre => pre) (fun _ _ post => post)
    fun _ s stopped => ⟨stopped.1, Or.inr (Or.inl stopped.2)⟩).bind fun opened => ?_
  cases opened with
  | error e => exact Triple.pure fun s stopped => ⟨stopped.1, Or.inr ⟨rfl, Or.inl stopped.2⟩⟩
  | ok wasLocked =>
    rintro s ⟨here, accepted⟩
    revert s
    refine ((coprocessorBoot_at serve accepted.upper stream fuel).attempt.conseq (fun _ pre => pre)
      (fun _ _ post => post) fun _ s stopped => ⟨stopped.1, Or.inr stopped.2⟩).bind fun rc => ?_
    cases rc with
    | ok _ =>
      exact coprocessorClose_at (H := CoprocRan arguments.region (arguments.firmware stream) m) serve
        (fun _ ran => ran.relocked _) wasLocked (fun _ ran => Or.inl ⟨rfl, accepted, ran⟩) fun _ ran => Or.inl ran
    | error e =>
      exact coprocessorClose_at (H := CoprocPaused arguments.region m) serve
        (fun _ paused => paused.relocked _) wasLocked (fun _ paused => Or.inr ⟨rfl, paused⟩) fun _ paused => Or.inr paused

/-- It returns 0 once the coprocessor is disabled, and otherwise leaves it alone. -/
theorem coprocessorStop_at (serve : CallsServe call I mem MemOp.Plain) :
    Triple (CoprocAt I mem F m) (coprocessorStop call host)
      (fun status => CoprocStopped I mem fun m' =>
        status = 0 ∧ CoprocHeld ⟨0, 0⟩ m m' ∨ status = exitFailure ∧ CoprocAlone m m')
      fun _ => CoprocStopped I mem (CoprocPaused ⟨0, 0⟩ m) := by
  have same : CoprocAlone m m := .refl _ _ m
  have opens : Triple (CoprocAt I mem F m) (do
      let gen ← coprocessorProbe call host
      failIf (gen ≠ .g6) enotsup
      coprocessorScuGet call host) (fun _ s => CoprocStopped I mem (CoprocAlone m) s ∧ F s.fd)
      fun _ => CoprocStopped I mem (CoprocAlone m) :=
    bind_fact (coprocessorProbe_at serve same) fun gen _ => bind_fact (failIf_at enotsup same) fun _ _ =>
      coprocessorScuGet_at serve
  refine (opens.attempt.conseq (fun _ pre => pre) (fun _ _ post => post)
    fun _ s stopped => ⟨stopped.1, Or.inl stopped.2⟩).bind fun opened => ?_
  cases opened with
  | error e => exact Triple.pure fun s stopped => ⟨stopped.1, Or.inr ⟨rfl, stopped.2⟩⟩
  | ok wasLocked =>
    have writes : Triple (fun s => CoprocStopped I mem (CoprocAlone m) s ∧ F s.fd) (callScuWritel call scuCoprocCtrl 0)
        (fun _ => CoprocStopped I mem (CoprocHeld ⟨0, 0⟩ m)) fun _ => CoprocStopped I mem (CoprocAlone m) := by
      rintro s ⟨⟨inv, alone⟩, fd⟩
      have disabled := (alone.frame ⟨0, 0⟩).held (Or.inl rfl)
      refine ((callScuWritel_at serve .ctrl 0 alone).conseq (fun _ pre => pre) (fun _ t post => ⟨post.1.1, ?_⟩)
        fun _ _ stopped => stopped) s ⟨⟨inv, rfl⟩, fd⟩
      rw [post.1.2]
      exact disabled
    refine (writes.attempt.conseq (fun _ pre => pre) (fun _ _ post => post)
      fun _ s stopped => ⟨stopped.1, Or.inl stopped.2⟩).bind fun rc => ?_
    cases rc with
    | ok _ =>
      exact coprocessorClose_at (H := CoprocHeld ⟨0, 0⟩ m) serve (fun _ held => held.set .protKey (by decide) _) wasLocked
        (fun _ held => Or.inl ⟨rfl, held⟩) fun _ held => Or.inr held
    | error e =>
      exact coprocessorClose_at (H := CoprocAlone m) serve (fun _ alone => CoprocFrame.set alone rfl _) wasLocked
        (fun _ alone => Or.inr ⟨rfl, alone⟩) fun _ alone => Or.inl alone

end

end Culvert
