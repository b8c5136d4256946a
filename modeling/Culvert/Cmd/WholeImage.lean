import Culvert.Cmd.Write
import Culvert.Flash.Held

/-! How much of the image is in the flash when `cmd_write_firmware` reports that it was written. -/

namespace Culvert

open Prog

namespace Board

/-- The array starts with the bytes. -/
def Starts (bs : List Byte) (s : Faulty Board) : Prop := ByteMem.read s.dev.mem 0 bs.length = bs

theorem Starts.spared {bs : List Byte} {lo hi : Nat} {s s' : Faulty Board} (starts : Starts bs s) (below : bs.length ≤ lo)
    (spares : Spares lo hi s s') : Starts bs s' := by
  have same : ByteMem.read s'.dev.mem 0 bs.length = ByteMem.read s.dev.mem 0 bs.length :=
    ByteMem.read_congr fun x _ less => spares x (Or.inl (by omega))
  exact same.trans starts

section
variable {direct switches : Bool} {c : FlashChip (Faulty Board)} (found : Found direct switches c)
include found

/-- What a turn of the inner loop leaves, with `old` in front of the window. -/
theorem writeChunkTurn_starts {phys : Word} {old buf : List Byte} (fuel : Nat) (here : phys.toNat = old.length)
    (aligned : phys.toNat % 0x10000 = 0) (full : buf.length = 0x10000) :
    Triple (Starts old) (writeChunkTurn fuel c phys buf ())
      (fun r s => r.elim (fun _ => Starts old s) (fun _ => Starts (old ++ buf) s ∧ (old ++ buf).length ≤ c.tsize.toNat))
      fun _ _ => True := by
  intro s starts
  refine ⟨fun r s' run => ?_, fun _ _ _ => trivial⟩
  rw [writeChunkTurn, full] at run
  obtain ⟨_, s₁, erase, rest⟩ := bind_ok_iff.mp run
  obtain ⟨outcome, s₂, write, last⟩ := bind_ok_iff.mp rest
  have fits := eraseWindow_fits erase
  have bound := c.tsize.isLt
  have erased := starts.spared here.ge ((eraseWindow_spares found fuel aligned).ok erase)
  have frame : Keeps (Spares phys.toNat (phys.toNat + 0x10000)) (flashWrite c fuel phys buf true) :=
    flashWrite_spares found fuel (by omega) (by omega) le_rfl (by omega) (by omega)
  have written := erased.spared here.ge (frame.attempt.ok write)
  cases outcome with
  | ok _ =>
    have stored := flashWrite_ok found fuel (by omega) (attempt_ok_iff.mp write)
    cases last
    refine ⟨?_, by rw [List.length_append]; omega⟩
    rw [Starts, List.length_append, ByteMem.read_add, Nat.zero_add, written, ← here, stored]
  | error e =>
    dsimp only at last
    split at last
    · cases last
      exact written
    · cases last

theorem writeChunk_starts {phys : Word} {old buf : List Byte} (fuel : Nat) (here : phys.toNat = old.length)
    (aligned : phys.toNat % 0x10000 = 0) (full : buf.length = 0x10000) :
    Triple (Starts old) (writeChunk fuel c phys buf)
      (fun _ s => Starts (old ++ buf) s ∧ (old ++ buf).length ≤ c.tsize.toNat) fun _ _ => True :=
  Triple.loop (fun _ => Starts old) (fun _ => writeChunkTurn_starts found fuel here aligned full)
    (fun _ _ _ => trivial) fuel ()

end

end Board

/-- What a read returns. -/
def StdinRead.data : StdinRead → List Byte
  | .bytes buf _ _ => buf
  | .error _ => []

/-- The bytes of the whole stream. -/
def image (stdin : List StdinRead) : List Byte := stdin.flatMap StdinRead.data

theorem image_append (first second : List StdinRead) : image (first ++ second) = image first ++ image second :=
  List.flatMap_append

theorem image_length {full : List StdinRead} (all : ∀ r ∈ full, r.data.length = sfcFlashWin) :
    (image full).length = full.length * 0x10000 := by
  induction full with
  | nil => rfl
  | cons r full ih =>
    have head : r.data.length = 0x10000 := all r List.mem_cons_self
    have tail := ih fun r mem => all r (List.mem_cons_of_mem _ mem)
    have whole : image (r :: full) = r.data ++ image full := rfl
    rw [whole, List.length_append, head, tail, List.length_cons]
    omega

/-- The windows of the largest chip. -/
def maxWindows : Nat := 2048

/-- A read returns less than a window, after reads of windows that fit a chip. -/
def StopsShort (stdin : List StdinRead) : Prop := ∃ full buf some room rest,
  stdin = full ++ .bytes buf some room :: rest ∧ (∀ r ∈ full, r.data.length = sfcFlashWin) ∧
    buf.length < sfcFlashWin ∧ full.length ≤ maxWindows

namespace Board

theorem size_le {info : FlashInfo} (known : info ∈ flashInfos) : info.size.toNat ≤ maxWindows * 0x10000 := by
  revert info
  decide

section
variable {direct switches : Bool} {c : FlashChip (Faulty Board)} (found : Found direct switches c)
include found

/-- From the windows `full` on, the rest of the stream is stored as well. -/
theorem writeStdin_starts {full rest : List StdinRead} {phys : Word} (fuel : Nat)
    (windows : ∀ r ∈ full, r.data.length = sfcFlashWin) (here : phys.toNat = (image full).length)
    (fits : (image full).length ≤ c.tsize.toNat) (whole : ¬ StopsShort (full ++ rest)) {s s' : Faulty Board}
    (starts : Starts (image full) s) (run : (writeStdin fuel c phys rest).run s = .ok () s') :
    Starts (image (full ++ rest)) s' := by
  induction rest generalizing full phys s with
  | nil =>
    cases run
    rw [List.append_nil]
    exact starts
  | cons r rest ih =>
    cases r with
    | error e => cases run
    | bytes buf some room =>
      have length := image_length windows
      have size := size_le found.known
      rw [← found.tsize] at size
      rw [writeStdin] at run
      split at run
      case isTrue short =>
        exact absurd ⟨full, buf, some, room, rest, rfl, windows, short, by omega⟩ whole
      case isFalse more =>
        have window : buf.length = 0x10000 := Nat.le_antisymm room (Nat.le_of_not_lt more)
        obtain ⟨_, s₁, chunk, tail⟩ := bind_ok_iff.mp run
        obtain ⟨stored, fits'⟩ :=
          (writeChunk_starts found fuel here (by omega) window s starts).1 _ s₁ chunk
        have grown : image (full ++ [.bytes buf some room]) = image full ++ buf := by
          rw [image_append]
          exact congrArg _ (List.append_nil buf)
        have bound := c.tsize.isLt
        rw [List.length_append] at fits'
        have next : (phys + BitVec.ofNat 32 buf.length).toNat = (image full ++ buf).length := by
          rw [Word.toNat_add_ofNat (by omega), List.length_append, here]
        have shift : full ++ .bytes buf some room :: rest = (full ++ [.bytes buf some room]) ++ rest := by simp
        rw [shift] at whole ⊢
        refine ih (fun r mem => ?_) (by rw [next, grown]) (by rw [grown, List.length_append]; omega) whole
          (by rw [grown]; exact stored) tail
        rcases List.mem_append.mp mem with mem | mem
        · exact windows r mem
        · rw [List.mem_singleton.mp mem]
          exact window

end

theorem flashIdentify_found {direct switches : Bool} {fuel : Nat} {s s' : Faulty Board} {c : FlashChip (Faulty Board)}
    (run : (flashIdentify fuel (sfc direct switches none)).run s = .ok c s') : Found direct switches c := by
  obtain ⟨id, s₁, _, rest⟩ := bind_ok_iff.mp run
  split at rest
  · cases rest
  cases lookup : flashLookup (idWord id) with
  | none =>
    rw [lookup] at rest
    cases rest
  | some info =>
    have known : info ∈ flashInfos := List.mem_of_find?_eq_some lookup
    obtain ⟨mask, granule⟩ := Option.isSome_iff_exists.mp (flMinEraseMask_isSome known)
    rw [lookup] at rest
    dsimp only at rest
    rw [granule] at rest
    cases rest
    exact ⟨known, rfl, rfl⟩

theorem flashConfigure_found {direct switches : Bool} {fuel : Nat} {s s' : Faulty Board}
    {c c' : FlashChip (Faulty Board)} (found : Found direct switches c)
    (run : (flashConfigure fuel c).run s = .ok c' s') : Found direct switches c' := by
  obtain ⟨_, s₁, _, last⟩ := bind_ok_iff.mp run
  cases last
  refine ⟨found.known, found.ctrl, ?_⟩
  show cropSize c.tsize c.info.flags = c.info.size
  rw [found.tsize, cropSize_eq found.known]

/-- Where the writing of the image ends well, all of the stream is at the start of the array: for every
bridge, SoC, content of the flash, failing access, and every way for the chip to do as it is not told. -/
def WritesWhole (direct switches : Bool) (stdin : List StdinRead) : Prop :=
  ∀ (host : CmdHost Board) (initDevice : Prog (Faulty Board) Unit) (fuel : Nat) (gen : AstGeneration)
    (s s₁ s₂ : Session Board), (firmwareOpen bus host).run s = .ok gen s₁ →
    (firmwareWrite bus gen host ⟨initDevice, sfc direct switches none⟩ fuel stdin).run s₁ = .ok (.ok ()) s₂ →
    Starts (image stdin) s₂.soc

theorem starts_nil (s : Faulty Board) : Starts [] s := rfl

theorem writesWhole {direct switches : Bool} {stdin : List StdinRead} (whole : ¬ StopsShort stdin) :
    WritesWhole direct switches stdin := by
  intro host initDevice fuel gen s s₁ s₂ _ written
  obtain ⟨_, s₃, _, flash⟩ := bind_ok_iff.mp (attempt_ok_iff.mp written)
  obtain ⟨there, s₄, _, rest⟩ := bind_ok_iff.mp flash
  cases there with
  | false => cases rest
  | true =>
    obtain ⟨c, s₅, init, rest⟩ := bind_ok_iff.mp rest
    obtain ⟨_, s₆, _, write⟩ := bind_ok_iff.mp rest
    obtain ⟨_, _, _, init⟩ := bind_ok_iff.mp init
    obtain ⟨ident, _, identify, init⟩ := bind_ok_iff.mp init
    obtain ⟨_, _, _, configure⟩ := bind_ok_iff.mp init
    obtain ⟨_, identify, _⟩ := zoom_ok_iff.mp identify
    obtain ⟨_, configure, _⟩ := zoom_ok_iff.mp configure
    obtain ⟨soc, stored, rfl⟩ := zoom_ok_iff.mp write
    have found := flashConfigure_found (flashIdentify_found identify) configure
    have none : ∀ r ∈ ([] : List StdinRead), r.data.length = sfcFlashWin := fun _ never => nomatch never
    exact writeStdin_starts found fuel none rfl (Nat.zero_le _) whole (starts_nil s₆.soc) stored

/-! ## A short read -/

section
variable {mem : Mem} {direct switches : Bool} {fuel : Nat} (some : 1 < fuel)
include some

theorem writeChunk_held {phys : Word} {buf : List Byte} (aligned : phys.toNat % 0x10000 = 0)
    (full : buf.length = 0x10000) (fits : phys.toNat + 0x10000 ≤ macronix128.size.toNat)
    (there : ByteMem.read mem phys.toNat buf.length = buf) :
    Leads (Held mem) (writeChunk fuel (heldChip direct switches) phys buf) () (Held mem) := by
  obtain ⟨fuel, rfl⟩ : ∃ k, fuel = k + 1 := ⟨fuel - 1, by omega⟩
  have erase : Leads (Held mem) (flashErase (heldChip direct switches) (fuel + 1) (phys.setWidth 64)
      (BitVec.ofNat 64 buf.length)) () (Held mem) := by
    rw [full]
    exact flashErase_held (by omega) aligned fits
  have write : Leads (Held mem) (flashWrite (heldChip direct switches) (fuel + 1) phys buf true) () (Held mem) :=
    flashWrite_held (by omega) (by omega) (by omega) there
  have turn : Leads (Held mem) (writeChunkTurn (fuel + 1) (heldChip direct switches) phys buf ()) (.inr ()) (Held mem) :=
    erase.bind (write.attempt.bind (Leads.pure fun _ here => here))
  rw [writeChunk, Prog.loop]
  exact turn.bind (Leads.pure fun _ here => here)

/-- Windows that are there already are written, and the loop ends at the short read. -/
theorem writeStdin_held {full rest : List StdinRead} {buf : List Byte} (nonempty : buf ≠ []) (room : buf.length ≤ sfcFlashWin)
    (windows : ∀ r ∈ full, r.data.length = sfcFlashWin) (short : buf.length < sfcFlashWin) {phys : Word}
    (aligned : phys.toNat % 0x10000 = 0) (fits : phys.toNat + full.length * 0x10000 ≤ macronix128.size.toNat)
    (there : ByteMem.read mem phys.toNat (image full).length = image full) :
    Leads (Held mem) (writeStdin fuel (heldChip direct switches) phys (full ++ .bytes buf nonempty room :: rest)) ()
      (Held mem) := by
  induction full generalizing phys with
  | nil =>
    rw [List.nil_append, writeStdin, if_pos short]
    exact skip_held
  | cons r full ih =>
    have bound := macronix128.size.isLt
    have window := windows r List.mem_cons_self
    have others : ∀ r ∈ full, r.data.length = sfcFlashWin := fun r mem => windows r (List.mem_cons_of_mem _ mem)
    rw [List.length_cons] at fits
    cases r with
    | error e => cases window
    | bytes bs some' room' =>
      have length : bs.length = 0x10000 := window
      have whole : image (.bytes bs some' room' :: full) = bs ++ image full := rfl
      rw [whole, List.length_append] at there
      have first : ByteMem.read mem phys.toNat bs.length = bs := by
        have taken := congrArg (List.take bs.length) there
        rwa [ByteMem.read_take (by omega), List.take_left] at taken
      have next : (phys + BitVec.ofNat 32 bs.length).toNat = phys.toNat + bs.length := Word.toNat_add_ofNat (by omega)
      have second : ByteMem.read mem (phys + BitVec.ofNat 32 bs.length).toNat (image full).length = image full := by
        have dropped := congrArg (List.drop bs.length) there
        rwa [ByteMem.read_drop (by omega), Nat.add_sub_cancel_left, List.drop_left, ← next] at dropped
      rw [List.cons_append, writeStdin, if_neg (by rw [length]; decide)]
      exact (writeChunk_held some aligned length (by omega) first).bind
        (ih others (by rw [next]; omega) (by rw [next]; omega) second)

end

/-- A session on such a board in which the devices `live` are initialised. -/
def HeldIn (mem : Mem) (live : List Device) (s : Session Board) : Prop :=
  Held mem s.soc ∧ (∀ n, s.allocs n = true) ∧ s.live = live

section
variable {α : Type} {mem : Mem} {live : List Device}

open Session

theorem onSoc_heldIn {m : Prog (Faulty Board) α} {a : α} (leads : Leads (Held mem) m a (Held mem)) :
    Leads (HeldIn mem live) (onSoc m) a (HeldIn mem live) := by
  rintro s ⟨here, rest⟩
  obtain ⟨soc, run, here'⟩ := leads s.soc here
  exact ⟨{ s with soc := soc }, run_zoom_ok run, here', rest⟩

theorem malloc_heldIn : Leads (HeldIn mem live) malloc () (HeldIn mem live) := by
  rintro s ⟨here, allocs, rest⟩
  refine ⟨{ s with nallocs := s.nallocs + 1 }, ?_, here, allocs, rest⟩
  rw [EStateM.run, malloc, if_pos (allocs s.nallocs)]

theorem setDrvdata_heldIn (dev : Device) : Leads (HeldIn mem live) (setDrvdata dev) () (HeldIn mem (dev :: live)) :=
  Leads.modify fun _ here => ⟨here.1, here.2.1, congrArg _ here.2.2⟩

theorem getDrvdata_heldIn {gen : AstGeneration} {dev : Device} {init : Prog (Session Board) Unit} {live' : List Device}
    (bound : dev.bound gen = true) (fresh : dev ∉ live)
    (start : Leads (HeldIn mem live) init () (HeldIn mem live')) (there : dev ∈ live') :
    Leads (HeldIn mem live) (getDrvdata gen dev init) true (HeldIn mem live') := by
  rw [getDrvdata, if_pos bound]
  refine Leads.get fun s here => ?_
  have unset : dev ∉ s.live := by
    rw [here.2.2]
    exact fresh
  rw [if_neg unset]
  refine start.attempt.bind (Leads.get fun s' here' => ?_)
  have set : decide (dev ∈ s'.live) = true := by
    rw [here'.2.2]
    exact decide_eq_true there
  rw [set]
  exact Leads.pure fun _ here => here

theorem getDrvdata_again {gen : AstGeneration} {dev : Device} {init : Prog (Session Board) Unit}
    (bound : dev.bound gen = true) (there : dev ∈ live) :
    Leads (HeldIn mem live) (getDrvdata gen dev init) true (HeldIn mem live) := by
  rw [getDrvdata, if_pos bound]
  refine Leads.get fun s here => ?_
  have set : dev ∈ s.live := by
    rw [here.2.2]
    exact there
  rw [if_pos set]
  exact Leads.pure fun _ here => here

theorem skip_heldIn : Leads (HeldIn mem live) (Pure.pure ()) () (HeldIn mem live) := Leads.pure fun _ here => here

end

/-- A bridge on the BMC itself. -/
def localHost : CmdHost Board := ⟨.ok (), true, .ok (), true, pure (), pure ()⟩

section
variable {mem : Mem} {live : List Device}

theorem socFromRev_held : Leads (Held mem) (socFromRev bus (.ok ())) 0x04030303 (Held mem) := by
  have probe : Leads (Held mem) (revProbe bus) 0x04030303 (Held mem) := by
    refine (socReadl_held _).bind ((socReadl_held _).bind ?_)
    dsimp only
    rw [if_neg (by decide)]
    refine (Leads.pure fun _ here => here).bind (Q := Held mem) ?_
    rw [if_pos (by decide)]
    exact Leads.pure fun _ here => here
  refine probe.bind ?_
  rw [if_neg (by decide)]
  exact skip_held.bind (f := fun _ => Pure.pure 0x04030303) (Leads.pure fun _ here => here)

theorem firmwareOpen_held : Leads (HeldIn mem []) (firmwareOpen bus localHost) .g5 (HeldIn mem [.vuart, .clk, .scu]) := by
  have init : Leads (HeldIn mem []) (socOpen bus localHost) .g5 (HeldIn mem []) := by
    refine skip_heldIn.bind ?_
    have there : localHost.ahb = true := rfl
    rw [if_pos there]
    refine (onSoc_heldIn socFromRev_held).bind ?_
    exact Leads.pure fun _ here => here
  have scu : Leads (HeldIn mem []) (scuDriverStart bus) () (HeldIn mem [.scu]) := by
    refine malloc_heldIn.bind ((onSoc_heldIn (socReadl_held _)).bind ?_)
    rw [if_neg (by decide)]
    exact skip_heldIn.bind (f := fun _ => Session.setDrvdata .scu) (setDrvdata_heldIn .scu)
  have clk : Leads (HeldIn mem []) (clkGet bus .g5) true (HeldIn mem [.clk, .scu]) := by
    refine getDrvdata_heldIn rfl (by decide) (malloc_heldIn.bind ?_) (by decide)
    refine (getDrvdata_heldIn rfl (by decide) scu (by decide)).bind ?_
    rw [if_pos rfl]
    exact setDrvdata_heldIn .clk
  have vuart : Leads (HeldIn mem [.clk, .scu]) (vuartGetByName .g5) true (HeldIn mem [.vuart, .clk, .scu]) :=
    getDrvdata_heldIn rfl (by decide) (malloc_heldIn.bind (setDrvdata_heldIn .vuart)) (by decide)
  refine init.bind (clk.bind ?_)
  rw [if_pos rfl]
  refine vuart.bind ?_
  rw [if_pos rfl]
  exact Leads.pure fun _ here => here

/-- A local session with a chip that holds what is written already goes well up to the short read. -/
theorem firmwareWrite_held {direct switches : Bool} {full rest : List StdinRead} {buf : List Byte} (nonempty : buf ≠ [])
    (room : buf.length ≤ sfcFlashWin) (windows : ∀ r ∈ full, r.data.length = sfcFlashWin) (short : buf.length < sfcFlashWin)
    (fits : full.length ≤ maxWindows) (there : ByteMem.read mem 0 (image full).length = image full) :
    Leads (HeldIn mem [.vuart, .clk, .scu])
      (firmwareWrite bus .g5 localHost ⟨pure (), sfc direct switches none⟩ 2 (full ++ .bytes buf nonempty room :: rest))
      (.ok ()) (HeldIn mem [.fmc, .vuart, .clk, .scu]) := by
  have size : macronix128.size.toNat = maxWindows * 0x10000 := rfl
  have fmc : Leads (HeldIn mem [.vuart, .clk, .scu]) (sfcGetByName bus .g5 (pure ())) true
      (HeldIn mem [.fmc, .vuart, .clk, .scu]) := by
    refine getDrvdata_heldIn rfl (by decide) (malloc_heldIn.bind ?_) (by decide)
    refine (getDrvdata_again rfl (by decide)).bind ?_
    rw [if_pos rfl]
    exact (onSoc_heldIn skip_held).bind (f := fun _ => Session.setDrvdata .fmc) (setDrvdata_heldIn .fmc)
  have write : Leads (Held mem) (writeStdin 2 (heldChip direct switches) 0 (full ++ .bytes buf nonempty room :: rest)) ()
      (Held mem) := by
    refine writeStdin_held (by decide) nonempty room windows short rfl ?_ there
    rw [size]
    exact (Nat.zero_add _).le.trans (Nat.mul_le_mul_right _ fits)
  have flash : Leads (HeldIn mem [.vuart, .clk, .scu]) (firmwareFlash bus .g5 ⟨pure (), sfc direct switches none⟩ 2
      (full ++ .bytes buf nonempty room :: rest)) () (HeldIn mem [.fmc, .vuart, .clk, .scu]) := by
    refine fmc.bind ?_
    rw [if_pos rfl]
    have chip : Leads (HeldIn mem [.fmc, .vuart, .clk, .scu]) (sessionFlashInit 2 (sfc direct switches none))
        (heldChip direct switches) (HeldIn mem [.fmc, .vuart, .clk, .scu]) := by
      refine malloc_heldIn.bind ((onSoc_heldIn (flashIdentify_held 2)).bind (malloc_heldIn.bind ?_))
      exact onSoc_heldIn (flashConfigure_held 2)
    refine chip.bind (malloc_heldIn.bind ?_)
    exact onSoc_heldIn write
  exact (skip_heldIn.bind flash).attempt

end

theorem not_writesWhole {direct switches : Bool} {stdin : List StdinRead} (stops : StopsShort stdin) :
    ¬ WritesWhole direct switches stdin := by
  obtain ⟨full, buf, nonempty, room, rest, rfl, windows, short, fits⟩ := stops
  obtain ⟨b, bs, rfl⟩ := List.exists_cons_of_ne_nil nonempty
  intro whole
  obtain ⟨mem, content⟩ : ∃ mem : Mem, mem = fun x => ((image full)[x]?).getD (~~~b) := ⟨_, rfl⟩
  have there : ByteMem.read mem 0 (image full).length = image full := by
    refine List.ext_getElem (ByteMem.read_length _ _ _) fun i _ inside => ?_
    simp only [ByteMem.read, List.getElem_map, List.getElem_range, Nat.zero_add, content]
    rw [List.getElem?_eq_getElem inside, Option.getD_some]
  have beyond : mem (image full).length = ~~~b := by
    rw [content]
    dsimp only
    rw [List.getElem?_eq_none le_rfl, Option.getD_none]
  obtain ⟨s₁, opened, here₁⟩ := firmwareOpen_held ⟨⟨held mem, fun _ => none, 0⟩, fun _ => true, 0, [], []⟩
    ⟨⟨fun _ => rfl, 0, rfl⟩, fun _ => rfl, rfl⟩
  obtain ⟨s₂, written, here₂⟩ := firmwareWrite_held nonempty room windows short fits there s₁ here₁
  have starts := whole localHost (pure ()) 2 .g5 _ s₁ s₂ opened written
  obtain ⟨⟨_, turn, dev⟩, _⟩ := here₂
  have stream : image (full ++ .bytes (b :: bs) nonempty room :: rest) = image full ++ (b :: (bs ++ image rest)) := by
    rw [image_append]
    rfl
  have byte := congrArg (fun l => l[(image full).length]?) starts
  rw [stream] at byte
  rw [ByteMem.read_getElem? (by rw [List.length_append, List.length_cons]; omega), dev, Nat.zero_add,
    List.getElem?_append_right le_rfl, Nat.sub_self, List.getElem?_cons_zero] at byte
  have stored : mem (image full).length = b := Option.some.inj byte
  rw [beyond] at stored
  have flipped := congrArg (fun x => x.getLsbD 0) stored
  simp at flipped

/-- All of the stream is in the flash whenever `cmd_write_firmware` goes on to reset the SoC, unless a read
returns less than a window: that read and what follows it are dropped. -/
theorem cmd_write_firmware_whole (direct switches : Bool) (stdin : List StdinRead) :
    WritesWhole direct switches stdin ↔ ¬ StopsShort stdin :=
  ⟨fun whole stops => not_writesWhole stops whole, writesWhole⟩

/-- An image of one byte. -/
def oneByte : List StdinRead := [.bytes [0x5a] (by decide) (by decide)]

theorem oneByte_stopsShort : StopsShort oneByte := by
  refine ⟨[], [0x5a], by decide, by decide, [], rfl, ?_, by decide, by decide⟩
  intro r never
  cases never

/-- Of an image of one byte nothing is written. -/
theorem cmd_write_firmware_short : ¬ ∀ stdin, WritesWhole true true stdin := fun all =>
  not_writesWhole oneByte_stopsShort (all oneByte)

end Board

end Culvert
