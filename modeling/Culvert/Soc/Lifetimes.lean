import Culvert.Lib.Hoare
import Culvert.Soc.Lifecycle

namespace Culvert

def SocEvent.Locks (event : SocEvent) : Prop := ∃ val ≠ astScuPassword, event = .wrote (scuBase + astScuProtKey) val

namespace Driver

/-- Whether its driver data are behind one reference on the SCU. -/
def holdsScu : Driver → Bool
  | scu | clk | strap => true
  | _ => false

/-- The controllers that it registers, the last one first. -/
def bridgectls : Driver → List BridgectlOps
  | pciectl => [.xdmactl, .p2actl]
  | ilpcctl => [.ilpcctl]
  | debugctl => [.debugctl]
  | _ => []

/-- Every driver only uses drivers of lower rank. -/
def rank : Driver → Nat
  | scu | bridges | otp | sdmc | trace | uartMux | vuart => 0
  | clk | strap | jtag | debugctl | pciectl => 1
  | sioctl | wdt | sfc => 2
  | ilpcctl => 3

end Driver

namespace Soc

/-- Who has references, unless one was dropped that nobody had. -/
def ledger : List SocEvent → Option (List Holder)
  | [] => some []
  | .took holder :: past => (ledger past).map (holder :: ·)
  | .dropped holder :: past => (ledger past).bind fun owed =>
    if holder ∈ owed then some (owed.erase holder) else none
  | .wrote _ _ :: past => ledger past

/-- The SCU was only locked while nobody had a reference. -/
def LocksLate : List SocEvent → Prop
  | [] => True
  | event :: past => (event.Locks → ledger past = some []) ∧ LocksLate past

/-- The references that are out, up to their order. -/
structure Owes (owed : List Holder) (log : List SocEvent) (scu : Option Scu) : Prop where
  listed : ∃ l, ledger log = some l ∧ l.Perm owed
  late : LocksLate log
  freed : scu = none ↔ owed = []
  counted : ∀ ctx, scu = some ctx → ctx.refcnt = owed.length

namespace Owes
variable {owed owed' : List Holder} {log : List SocEvent} {scu : Option Scu} {ctx : Scu} {holder : Holder}

theorem perm (owes : Owes owed log scu) (perm : owed.Perm owed') : Owes owed' log scu := by
  obtain ⟨l, listed, same⟩ := owes.listed
  refine ⟨⟨l, listed, same.trans perm⟩, owes.late, owes.freed.trans ?_, fun ctx some => ?_⟩
  · constructor
    · rintro rfl
      exact perm.nil_eq.symm
    · rintro rfl
      exact perm.eq_nil
  · rw [owes.counted ctx some, perm.length_eq]

theorem wrote (owes : Owes owed log scu) {phys val : Word} (safe : ¬ (SocEvent.wrote phys val).Locks) :
    Owes owed (.wrote phys val :: log) scu :=
  ⟨owes.listed, ⟨fun locks => absurd locks safe, owes.late⟩, owes.freed, owes.counted⟩

theorem late_took (owes : Owes owed log scu) : LocksLate (.took holder :: log) :=
  ⟨fun ⟨_, _, same⟩ => (nomatch same), owes.late⟩

theorem late_dropped (owes : Owes owed log scu) : LocksLate (.dropped holder :: log) :=
  ⟨fun ⟨_, _, same⟩ => (nomatch same), owes.late⟩

theorem listed_took (owes : Owes owed log scu) :
    ∃ l, ledger (.took holder :: log) = some l ∧ l.Perm (holder :: owed) := by
  obtain ⟨l, listed, same⟩ := owes.listed
  exact ⟨holder :: l, by rw [ledger, listed]; rfl, same.cons holder⟩

theorem listed_dropped (owes : Owes (holder :: owed) log scu) :
    ∃ l, ledger (.dropped holder :: log) = some l ∧ l.Perm owed := by
  obtain ⟨l, listed, same⟩ := owes.listed
  have mem : holder ∈ l := same.mem_iff.mpr List.mem_cons_self
  refine ⟨l.erase holder, ?_, ?_⟩
  · rw [ledger, listed, Option.bind_some, if_pos mem]
  · have erased := same.erase holder
    rwa [List.erase_cons_head] at erased

theorem init (owes : Owes [] log scu) (holder : Holder) (wasLocked : Bool) :
    Owes [holder] (.took holder :: log) (some ⟨1, wasLocked⟩) := by
  refine ⟨owes.listed_took, owes.late_took, by simp, fun ctx some => ?_⟩
  cases some
  rfl

theorem took (owes : Owes owed log (some ctx)) (holder : Holder) :
    Owes (holder :: owed) (.took holder :: log) (some { ctx with refcnt := ctx.refcnt + 1 }) := by
  refine ⟨owes.listed_took, owes.late_took, by simp, fun ctx' some => ?_⟩
  cases some
  rw [owes.counted ctx rfl, List.length_cons, Nat.cast_succ]

theorem refcnt_sub (owes : Owes (holder :: owed) log (some ctx)) : ctx.refcnt - 1 = owed.length := by
  rw [owes.counted ctx rfl, List.length_cons, Nat.cast_succ]
  omega

/-- A reference that is not the last one. -/
theorem dropped (owes : Owes (holder :: owed) log (some ctx)) (more : owed ≠ []) :
    Owes owed (.dropped holder :: log) (some { ctx with refcnt := ctx.refcnt - 1 }) := by
  refine ⟨owes.listed_dropped, owes.late_dropped, by simp [more], fun ctx' some => ?_⟩
  cases some
  exact owes.refcnt_sub

theorem last (owes : Owes [holder] log scu) : Owes [] (.dropped holder :: log) none := by
  refine ⟨owes.listed_dropped, owes.late_dropped, by simp, fun ctx some => nomatch some⟩

theorem settled (owes : Owes [] log scu) : ledger log = some [] := by
  obtain ⟨l, listed, same⟩ := owes.listed
  rw [listed, same.eq_nil]

theorem locked (owes : Owes [] log none) (phys val : Word) : Owes [] (.wrote phys val :: log) none :=
  ⟨owes.listed, ⟨fun _ => owes.settled, owes.late⟩, owes.freed, owes.counted⟩

end Owes

/-- The references of the devices with driver data, and those of the commands. -/
def due (held : Nat) (live : List SocDev) : List Holder :=
  (live.filter (·.driver.holdsScu)).map .device ++ List.replicate held .command

section
variable {held : Nat} {live : List SocDev} {dev : SocDev}

theorem due_cons (holds : dev.driver.holdsScu) : due held (dev :: live) = .device dev :: due held live := by
  rw [due, List.filter_cons_of_pos (p := fun dev : SocDev => dev.driver.holdsScu) holds]
  rfl

theorem due_cons_of_not (holds : ¬ dev.driver.holdsScu) : due held (dev :: live) = due held live := by
  rw [due, List.filter_cons_of_neg (p := fun dev : SocDev => dev.driver.holdsScu) holds]
  rfl

theorem due_perm (held : Nat) {live' : List SocDev} (perm : live.Perm live') : (due held live).Perm (due held live') :=
  ((perm.filter _).map _).append_right _

theorem due_erase (mem : dev ∈ live) (holds : dev.driver.holdsScu) :
    (due held live).Perm (.device dev :: due held (live.erase dev)) := by
  have perm := due_perm held (List.perm_cons_erase mem)
  rwa [due_cons holds] at perm

theorem due_erase_of_not (mem : dev ∈ live) (holds : ¬ dev.driver.holdsScu) :
    (due held live).Perm (due held (live.erase dev)) := by
  have perm := due_perm held (List.perm_cons_erase mem)
  rwa [due_cons_of_not holds] at perm

end

/-- On `soc->bridges` are the controllers of the devices with driver data. -/
def Wired (live : List SocDev) (links : Links BridgeEntry) : Prop :=
  ∃ l, links.Ring l ∧ ∀ entry, entry ∈ l ↔ entry.dev ∈ live ∧ entry.ops ∈ entry.dev.driver.bridgectls

/-- The links after a device has registered the given controllers, the last one first. -/
def wire (dev : SocDev) (links : Links BridgeEntry) : List BridgectlOps → Links BridgeEntry
  | [] => links
  | ops :: rest => (wire dev links rest).add ⟨dev, ops⟩

theorem wire_ring {dev : SocDev} {links : Links BridgeEntry} {l : List BridgeEntry} (ring : links.Ring l)
    (fresh : ∀ entry ∈ l, entry.dev ≠ dev) {controllers : List BridgectlOps} (once : controllers.Nodup) :
    (wire dev links controllers).Ring (controllers.map (BridgeEntry.mk dev) ++ l) := by
  induction controllers with
  | nil => exact ring
  | cons ops rest ih =>
    obtain ⟨new, once⟩ := List.nodup_cons.mp once
    refine (ih once).add fun mem => ?_
    rcases List.mem_append.mp mem with own | old
    · obtain ⟨other, mem, same⟩ := List.mem_map.mp own
      cases same
      exact new mem
    · exact fresh _ old rfl

theorem bridgectls_nodup (driver : Driver) : driver.bridgectls.Nodup := by
  cases driver <;> decide

theorem Wired.cons {live : List SocDev} {links : Links BridgeEntry} {dev : SocDev} (wired : Wired live links)
    (fresh : dev ∉ live) : Wired (dev :: live) (wire dev links dev.driver.bridgectls) := by
  obtain ⟨l, ring, mem⟩ := wired
  have apart : ∀ entry ∈ l, entry.dev ≠ dev := fun entry inside same => fresh (same ▸ ((mem entry).mp inside).1)
  refine ⟨_, wire_ring ring apart (bridgectls_nodup dev.driver), fun entry => ?_⟩
  rw [List.mem_append, List.mem_map, mem, List.mem_cons]
  constructor
  · rintro (⟨ops, known, rfl⟩ | ⟨alive, ops⟩)
    · exact ⟨Or.inl rfl, known⟩
    · exact ⟨Or.inr alive, ops⟩
  · rintro ⟨rfl | alive, ops⟩
    · exact Or.inl ⟨entry.ops, ops, rfl⟩
    · exact Or.inr ⟨alive, ops⟩

/-- While the commands use the drivers: what is live is bound, has its references and its controllers, and
is either one of `before` or of a rank below `rank`. The references in `extra` have nobody who would
drop them. -/
structure InUse (devices before : List SocDev) (rank : Nat) (extra : List Holder) (held : Nat) (s : Soc) : Prop where
  bound : s.devices = devices
  once : s.live.Nodup
  known : ∀ dev ∈ s.live, dev ∈ devices
  owes : Owes (extra ++ due held s.live) s.log s.scu
  wired : Wired s.live s.bridges
  up : extra ++ due held s.live = [] ∨ ∃ dev ∈ s.live, dev.driver = .scu
  within : ∀ dev ∈ s.live, dev ∈ before ∨ dev.driver.rank < rank

namespace InUse
variable {devices before : List SocDev} {rank rank' : Nat} {extra extra' : List Holder} {held : Nat} {s s' : Soc}
variable {dev : SocDev}

theorem read (inUse : InUse devices before rank extra held s) (reads : Nat) :
    InUse devices before rank extra held { s with reads := reads } :=
  ⟨inUse.bound, inUse.once, inUse.known, inUse.owes, inUse.wired, inUse.up, inUse.within⟩

theorem wrote (inUse : InUse devices before rank extra held s) {phys val : Word}
    (safe : ¬ (SocEvent.wrote phys val).Locks) :
    InUse devices before rank extra held { s with log := .wrote phys val :: s.log } :=
  ⟨inUse.bound, inUse.once, inUse.known, inUse.owes.wrote safe, inUse.wired, inUse.up, inUse.within⟩

theorem here (inUse : InUse devices before rank extra held s) (rank' : Nat) :
    InUse devices s.live rank' extra held s :=
  ⟨inUse.bound, inUse.once, inUse.known, inUse.owes, inUse.wired, inUse.up, fun _ mem => Or.inl mem⟩

theorem mono (inUse : InUse devices before rank extra held s) (le : rank ≤ rank') :
    InUse devices before rank' extra held s :=
  ⟨inUse.bound, inUse.once, inUse.known, inUse.owes, inUse.wired, inUse.up, fun dev mem =>
    (inUse.within dev mem).imp_right fun lower => by omega⟩

theorem back (start : InUse devices before rank extra held s) (inUse : InUse devices s.live rank' extra' held s')
    (le : rank' ≤ rank) : InUse devices before rank extra' held s' := by
  refine ⟨inUse.bound, inUse.once, inUse.known, inUse.owes, inUse.wired, inUse.up, fun dev mem => ?_⟩
  rcases inUse.within dev mem with old | lower
  · exact start.within dev old
  · exact Or.inr (by omega)

theorem fresh (inUse : InUse devices before dev.driver.rank extra held s) (new : dev ∉ before) : dev ∉ s.live := by
  intro mem
  rcases inUse.within dev mem with old | lower
  · exact new old
  · omega

/-- The driver data are set, and the controllers are registered. -/
theorem initialised (inUse : InUse devices before dev.driver.rank extra held s) (new : dev ∉ before)
    (known : dev ∈ devices) (holds : ¬ dev.driver.holdsScu) (ctlReadVal : SocDev → Word) :
    InUse devices before (dev.driver.rank + 1) extra held
      { s with live := dev :: s.live, bridges := wire dev s.bridges dev.driver.bridgectls, ctlReadVal } := by
  have fresh := inUse.fresh new
  refine ⟨inUse.bound, List.nodup_cons.mpr ⟨fresh, inUse.once⟩, ?_, ?_, inUse.wired.cons fresh, ?_, ?_⟩
  · intro other mem
    rcases List.mem_cons.mp mem with rfl | mem
    · exact known
    · exact inUse.known other mem
  · rw [due_cons_of_not holds]
    exact inUse.owes
  · rw [due_cons_of_not holds]
    exact inUse.up.imp_right fun ⟨other, mem, scu⟩ => ⟨other, List.mem_cons_of_mem dev mem, scu⟩
  · intro other mem
    rcases List.mem_cons.mp mem with rfl | mem
    · exact Or.inr (Nat.lt_succ_self _)
    · exact (inUse.within other mem).imp_right fun lower => by omega

/-- The driver data are set of a device that has taken its reference. -/
theorem initialised_holder (inUse : InUse devices before dev.driver.rank (.device dev :: extra) held s)
    (new : dev ∉ before) (known : dev ∈ devices) (holds : dev.driver.holdsScu) :
    InUse devices before (dev.driver.rank + 1) extra held { s with live := dev :: s.live } := by
  have fresh := inUse.fresh new
  have moved : (.device dev :: extra ++ due held s.live).Perm (extra ++ due held (dev :: s.live)) := by
    rw [due_cons holds]
    exact List.perm_middle.symm
  have none : dev.driver.bridgectls = [] := by
    revert holds
    cases dev.driver <;> simp [Driver.holdsScu, Driver.bridgectls]
  have wired := inUse.wired.cons fresh
  rw [none] at wired
  refine ⟨inUse.bound, List.nodup_cons.mpr ⟨fresh, inUse.once⟩, ?_, inUse.owes.perm moved, wired, ?_, ?_⟩
  · intro other mem
    rcases List.mem_cons.mp mem with rfl | mem
    · exact known
    · exact inUse.known other mem
  · rcases inUse.up with never | ⟨other, mem, scu⟩
    · cases never
    · exact Or.inr ⟨other, List.mem_cons_of_mem dev mem, scu⟩
  · intro other mem
    rcases List.mem_cons.mp mem with rfl | mem
    · exact Or.inr (Nat.lt_succ_self _)
    · exact (inUse.within other mem).imp_right fun lower => by omega

end InUse

end Soc

end Culvert
