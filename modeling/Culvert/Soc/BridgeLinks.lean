import Culvert.Soc.ScuBalance

namespace Culvert

namespace Soc

/-- Every entry of `soc->bridges` is in the driver data of a bound device, none is there twice, and without
devices there is none. -/
def Embedded (s : Soc) : Prop := ∃ l, s.bridges.Ring l ∧ l.Nodup ∧
  (∀ entry ∈ l, entry.dev ∈ s.devices ∧ entry.dev ∈ s.live) ∧ (s.devices = [] → l = [])

variable {gen : AstGeneration} {devices live before : List SocDev} {extra : List Holder} {held : Nat}
variable {links : Links BridgeEntry} {dev : SocDev}

theorem Wired.embedded {s : Soc} (wired : Wired s.live s.bridges) (known : ∀ dev ∈ s.live, dev ∈ s.devices) :
    s.Embedded := by
  obtain ⟨l, ring, mem⟩ := wired
  have alive : ∀ entry ∈ l, entry.dev ∈ s.live := fun entry inside => ((mem entry).mp inside).1
  refine ⟨l, ring, Links.Linked.nodup ring, fun entry inside => ⟨known _ (alive entry inside), alive entry inside⟩, ?_⟩
  intro none
  rw [List.eq_nil_iff_forall_not_mem]
  intro entry inside
  have bound := known _ (alive entry inside)
  rw [none] at bound
  cases bound

theorem Wired.unlinked (wired : Wired live links) (once : live.Nodup) (alive : dev ∈ live) {ops : BridgectlOps}
    (own : dev.driver.bridgectls = [ops]) : Wired (live.erase dev) (links.del ⟨dev, ops⟩) := by
  obtain ⟨l, ring, mem⟩ := wired
  have here : (⟨dev, ops⟩ : BridgeEntry) ∈ l := (mem _).mpr ⟨alive, by rw [own]; exact List.mem_cons_self⟩
  refine ⟨l.erase ⟨dev, ops⟩, ring.del_erase here, fun entry => ?_⟩
  rw [(Links.Linked.nodup ring).mem_erase_iff, mem, once.mem_erase_iff]
  constructor
  · rintro ⟨other, alive, known⟩
    refine ⟨⟨fun same => other ?_, alive⟩, known⟩
    rw [same, own, List.mem_singleton] at known
    rw [← same, ← known]
  · rintro ⟨⟨other, alive⟩, known⟩
    exact ⟨fun same => other (congrArg _ same), alive, known⟩

theorem Wired.silent (wired : Wired live links) (once : live.Nodup) (none : dev.driver.bridgectls = []) :
    Wired (live.erase dev) links := by
  obtain ⟨l, ring, mem⟩ := wired
  refine ⟨l, ring, fun entry => ?_⟩
  rw [mem, once.mem_erase_iff]
  constructor
  · rintro ⟨alive, known⟩
    refine ⟨⟨fun same => ?_, alive⟩, known⟩
    rw [same, none] at known
    cases known
  · rintro ⟨⟨_, alive⟩, known⟩
    exact ⟨alive, known⟩

/-- The `destroy` of every driver but one takes out what its `init` has put in. -/
theorem Wired.unwire (wired : Wired live links) (once : live.Nodup) (alive : dev ∈ live) (other : dev.driver ≠ .pciectl) :
    Wired (live.erase dev) (unwire dev links) := by
  rw [Soc.unwire]
  cases driver : dev.driver with
  | pciectl => exact absurd driver other
  | ilpcctl | debugctl => exact wired.unlinked once alive (by rw [driver]; rfl)
  | _ => exact wired.silent once (by rw [driver]; rfl)

/-- The XDMA controller stays on the list when its device goes. -/
theorem Wired.stays (wired : Wired live links) (alive : dev ∈ live) (driver : dev.driver = .pciectl) :
    ∃ l, (Soc.unwire dev links).Ring l ∧ ⟨dev, .xdmactl⟩ ∈ l := by
  obtain ⟨l, ring, mem⟩ := wired
  have p2a : (⟨dev, .p2actl⟩ : BridgeEntry) ∈ l :=
    (mem _).mpr ⟨alive, by rw [driver]; exact List.mem_cons_of_mem _ List.mem_cons_self⟩
  have xdma : (⟨dev, .xdmactl⟩ : BridgeEntry) ∈ l :=
    (mem _).mpr ⟨alive, by rw [driver]; exact List.mem_cons_self⟩
  refine ⟨l.erase ⟨dev, .p2actl⟩, ?_, (List.mem_erase_of_ne ?_).mpr xdma⟩
  · rw [Soc.unwire, driver]
    exact ring.del_erase p2a
  · intro same
    cases same

theorem unwireEach_append (first rest : List SocDev) :
    unwireEach (first ++ rest) live links = unwireEach rest (live.diff first) (unwireEach first live links) := by
  induction first generalizing live links with
  | nil => rfl
  | cons dev first ih => rw [List.cons_append, unwireEach, ih, unwireEach, List.diff_cons]

/-- As long as no PCIe device controller with driver data is unbound. -/
theorem Wired.unwireEach (wired : Wired live links) (once : live.Nodup) (l : List SocDev)
    (other : ∀ dev ∈ l, dev ∈ live → dev.driver ≠ .pciectl) : Wired (live.diff l) (unwireEach l live links) := by
  induction l generalizing live links with
  | nil => exact wired
  | cons dev rest ih =>
    rw [List.diff_cons, Soc.unwireEach]
    have later : ∀ dev' ∈ rest, dev' ∈ live.erase dev → dev'.driver ≠ .pciectl := fun dev' mem alive =>
      other dev' (List.mem_cons_of_mem dev mem) (List.mem_of_mem_erase alive)
    by_cases alive : dev ∈ live
    · rw [if_pos alive]
      exact ih (wired.unwire once alive (other dev List.mem_cons_self alive)) (once.erase dev) later
    · rw [if_neg alive, List.erase_of_not_mem alive]
      rw [List.erase_of_not_mem alive] at later
      exact ih wired once later

/-- The states of `soc_unbind_drivers`, from turn to turn. -/
def unboundAfter (s : Soc) (fails : Nat → Option Errno) (first : List SocDev) : Soc :=
  ((unbindEach first).run ⟨s, fails, 0⟩).state.dev

theorem unboundAfter_at {s : Soc} (inUse : InUse devices before 4 extra held s) (fails : Nat → Option Errno)
    (first : List SocDev) : At (devices.diff first) (s.live.diff first) (unwireEach first s.live s.bridges)
      (extra ++ due held (s.live.diff first)) (∃ ctx, s.scu = some ctx ∧ ctx.wasLocked) fails
      (s.unboundAfter fails first) := by
  obtain ⟨s', run, here⟩ := unbindEach_run (s := ⟨s, fails, 0⟩) first (inUse.at fails)
  rw [unboundAfter, run]
  exact here

theorem unboundAfter_embedded {s : Soc} (inUse : InUse devices before 4 extra held s) (once : devices.Nodup)
    (fails : Nat → Option Errno) {first : List SocDev} (other : ∀ dev ∈ first, dev ∈ s.live → dev.driver ≠ .pciectl) :
    (s.unboundAfter fails first).Embedded := by
  have here := unboundAfter_at inUse fails first
  have wired := inUse.wired.unwireEach inUse.once first other
  rw [← here.alive, ← here.linked] at wired
  refine wired.embedded fun dev alive => ?_
  rw [here.alive, inUse.once.mem_sdiff_iff] at alive
  rw [here.bound, once.mem_sdiff_iff]
  exact ⟨inUse.known dev alive.1, alive.2⟩

/-- The turn of the first PCIe device controller with driver data leaves an entry without a device. -/
theorem unboundAfter_dangling {s : Soc} (inUse : InUse devices before 4 extra held s) (once : devices.Nodup)
    (fails : Nat → Option Errno) (alive : dev ∈ s.live) (driver : dev.driver = .pciectl) :
    ∃ first, first <+: devices ∧ ¬ (s.unboundAfter fails first).Embedded := by
  obtain ⟨found, here⟩ : ∃ found, devices.find? (fun dev => dev ∈ s.live ∧ dev.driver = .pciectl) = some found :=
    Option.isSome_iff_exists.mp (List.find?_isSome.mpr ⟨dev, inUse.known dev alive, decide_eq_true ⟨alive, driver⟩⟩)
  obtain ⟨holds, first, rest, split, none⟩ := List.find?_eq_some_iff_append.mp here
  obtain ⟨alive, driver⟩ := of_decide_eq_true holds
  have other : ∀ dev ∈ first, dev ∈ s.live → dev.driver ≠ .pciectl := by
    intro dev mem alive driver
    have not := none dev mem
    simp only [alive, driver, and_self, decide_true, Bool.not_true] at not
    cases not
  have apart : found ∉ first := by
    rw [split] at once
    exact fun mem => (List.nodup_append.mp once).2.2 found mem found List.mem_cons_self rfl
  have still : found ∈ s.live.diff first := inUse.once.mem_sdiff_iff.mpr ⟨alive, apart⟩
  obtain ⟨l, ring, stays⟩ := (inUse.wired.unwireEach inUse.once first other).stays still driver
  refine ⟨first ++ [found], ⟨rest, by rw [split, List.append_assoc]; rfl⟩, ?_⟩
  have now := unboundAfter_at inUse fails (first ++ [found])
  rintro ⟨l', ring', _, bound, _⟩
  rw [now.linked, unwireEach_append, Soc.unwireEach, if_pos still, Soc.unwireEach] at ring'
  obtain rfl : l = l' := Links.Linked.unique ring ring'
  have listed := (bound _ stays).1
  rw [now.bound, once.mem_sdiff_iff] at listed
  exact listed.2 (List.mem_append_right first List.mem_cons_self)

end Soc

/-- After the probe, in every state between the uses of the drivers and between the turns of
`soc_unbind_drivers`, whatever fails, the bridge controllers are embedded in the driver data of bound
devices, if and only if no PCIe device controller is among those that are unbound with driver data. -/
theorem soc_bridges_embedded_iff (gen : AstGeneration) (fails unbindFails : Nat → Option Errno) (values : Nat → Word)
    (links : Links BridgeEntry) (uses : List Use) :
    ((∀ before, before <+: uses → (runUses gen ⟨.probed gen fails values links, 0⟩ before).soc.Embedded) ∧
      ∀ first, first <+: (runUses gen ⟨.probed gen fails values links, 0⟩ uses).soc.devices →
        ((runUses gen ⟨.probed gen fails values links, 0⟩ uses).soc.unboundAfter unbindFails first).Embedded) ↔
      ∀ dev ∈ (runUses gen ⟨.probed gen fails values links, 0⟩ uses).soc.live, dev.driver ≠ .pciectl := by
  have start : Soc.InUse (socProbeDevices gen fails) [] 4 [] (Usage.mk (.probed gen fails values links) 0).held
      (Usage.mk (.probed gen fails values links) 0).soc := Soc.probed_inUse gen fails values links
  have once := (Soc.shipped gen fails).once
  obtain ⟨_, inUse, _⟩ := Soc.runUses_inUse (Soc.shipped gen fails) uses start
  constructor
  · rintro ⟨_, embedded⟩ dev alive driver
    obtain ⟨first, part, dangling⟩ := Soc.unboundAfter_dangling inUse once unbindFails alive driver
    exact dangling (embedded first (inUse.bound ▸ part))
  · intro other
    refine ⟨fun before _ => ?_, fun first _ => ?_⟩
    · obtain ⟨_, then', _⟩ := Soc.runUses_inUse (Soc.shipped gen fails) before start
      exact then'.wired.embedded fun dev alive => then'.bound ▸ then'.known dev alive
    · exact Soc.unboundAfter_embedded inUse once unbindFails fun dev _ => other dev

/-- The AST2400 after one probe of its bridges. -/
def probedBridges : Soc :=
  (runUses .g4 ⟨.probed .g4 (fun _ => none) (fun _ => 0) ⟨id, id⟩, 0⟩ [.probe fun _ => none]).soc

/-- Then all devices are unbound. -/
theorem xdmactl_left_on_bridges :
    ¬ (probedBridges.unboundAfter (fun _ => none) probedBridges.devices).Embedded := by
  rintro ⟨l, ring, _, _, last⟩
  have gone : (probedBridges.unboundAfter (fun _ => none) probedBridges.devices).devices = [] := by
    decide +kernel
  have first : (probedBridges.unboundAfter (fun _ => none) probedBridges.devices).bridges.next none ≠ none := by
    decide +kernel
  rw [last gone] at ring
  exact first ring.1

end Culvert
