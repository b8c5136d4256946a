import Culvert.Soc.Usage

namespace Culvert

namespace Soc

variable {gen : AstGeneration} {devices before : List SocDev} {extra : List Holder}

theorem probed_inUse (gen : AstGeneration) (fails : Nat → Option Errno) (values : Nat → Word) (links : Links BridgeEntry) :
    InUse (socProbeDevices gen fails) [] 4 [] 0 (probed gen fails values links) := by
  have owes : Owes [] [] none := ⟨⟨[], rfl, List.Perm.refl []⟩, trivial, by simp, fun _ some => nomatch some⟩
  refine ⟨rfl, List.nodup_nil, fun _ mem => (nomatch mem), owes, ⟨[], Links.init_ring links, fun entry => ?_⟩,
    Or.inl rfl, fun _ mem => nomatch mem⟩
  exact ⟨fun mem => (nomatch mem), fun mem => nomatch mem.1⟩

/-- Every use of the JTAG driver that takes a reference adds one that nobody will drop. -/
theorem runUses_inUse (shipped : Shipped gen devices) (uses : List Use) {usage : Usage}
    (inUse : InUse devices before 4 extra usage.held usage.soc) :
    ∃ more, InUse devices before 4 (more ++ extra) (runUses gen usage uses).held (runUses gen usage uses).soc ∧
      (more = [] ↔ ∀ first use rest, uses = first ++ use :: rest → ¬ use.TakesForJtag (runUses gen usage first)) := by
  induction uses generalizing usage extra with
  | nil =>
    refine ⟨[], inUse, fun _ first use rest same => ?_, fun _ => rfl⟩
    exact absurd same (by simp)
  | cons use uses ih =>
    by_cases takes : use.TakesForJtag usage
    · obtain ⟨dev, now⟩ := use.run_takes shipped inUse takes
      obtain ⟨more, later, _⟩ := ih now
      refine ⟨more ++ [.device dev], by rwa [List.append_assoc], fun none => ?_, fun free => ?_⟩
      · exact absurd none (by simp)
      · exact absurd takes (free [] use uses rfl)
    · obtain ⟨more, later, free⟩ := ih (use.run_spares shipped inUse takes)
      refine ⟨more, later, free.trans ⟨fun rest first other after same => ?_, fun all first other after same => ?_⟩⟩
      · cases first with
        | nil =>
          cases same
          exact takes
        | cons head first =>
          cases same
          exact rest first other after rfl
      · exact all (use :: first) other after (by rw [same]; rfl)

/-- `soc_destroy` returns, each reference on the SCU was dropped once, and the SCU is locked if it was found
so, but was not while somebody had a reference. -/
def Settles (s : Soc) : Prop := ∃ s', unbindDrivers.run ⟨s, fun _ => none, 0⟩ = .ok () s' ∧
  ledger s'.dev.log = some [] ∧ LocksLate s'.dev.log ∧
  ((∃ ctx, s.scu = some ctx ∧ ctx.wasLocked) → ∃ event ∈ s'.dev.log, event.Locks)

theorem diff_self (l : List SocDev) : l.diff l = [] := by
  induction l with
  | nil => rfl
  | cons dev rest ih => rw [List.diff_cons, List.erase_cons_head, ih]

theorem InUse.unbound {s : Soc} {held : Nat} (inUse : InUse devices before 4 extra held s) (fails : Nat → Option Errno) :
    ∃ s', unbindDrivers.run ⟨s, fails, 0⟩ = .ok () s' ∧
      At [] [] (unwireEach devices s.live s.bridges) (extra ++ List.replicate held .command)
        (∃ ctx, s.scu = some ctx ∧ ctx.wasLocked) fails s'.dev := by
  have gone : s.live.diff devices = [] := by
    rw [List.eq_nil_iff_forall_not_mem]
    intro dev mem
    obtain ⟨alive, unbound⟩ := inUse.once.mem_sdiff_iff.mp mem
    exact unbound (inUse.known dev alive)
  have start := inUse.at fails
  obtain ⟨s', run, here⟩ := unbindEach_run (s := ⟨s, fails, 0⟩) devices start
  refine ⟨s', ?_, ?_⟩
  · rw [unbindDrivers, Prog.run_bind_ok (get_run _)]
    simp only [inUse.bound]
    exact run
  · rw [gone, diff_self] at here
    exact here

theorem settles_iff {s : Soc} (inUse : InUse devices before 4 extra 0 s) : Settles s ↔ extra = [] := by
  obtain ⟨s', run, here⟩ := inUse.unbound fun _ => none
  rw [List.replicate_zero, List.append_nil] at here
  constructor
  · rintro ⟨s₁, run', settled, _⟩
    rw [run] at run'
    cases run'
    obtain ⟨l, listed, same⟩ := here.owes.listed
    rw [settled] at listed
    cases listed
    exact same.nil_eq.symm
  · rintro rfl
    refine ⟨s', run, here.owes.settled, here.owes.late, fun found => ?_⟩
    rcases here.relocks (fun _ => rfl) found with ⟨ctx, some, _⟩ | locked
    · rw [here.owes.freed.mpr rfl] at some
      cases some
    · exact locked

end Soc

/-- For every run of lookups, probes and pairs of `scu_get` and `scu_put`: at the end of `soc_destroy` the
references on the SCU are settled if and only if no JTAG master was initialised as far as its own. -/
theorem scu_references_settled_iff (gen : AstGeneration) (fails : Nat → Option Errno) (values : Nat → Word)
    (links : Links BridgeEntry) (uses : List Use)
    (paired : (runUses gen ⟨.probed gen fails values links, 0⟩ uses).held = 0) :
    (runUses gen ⟨.probed gen fails values links, 0⟩ uses).soc.Settles ↔
      ∀ first use rest, uses = first ++ use :: rest →
        ¬ use.TakesForJtag (runUses gen ⟨.probed gen fails values links, 0⟩ first) := by
  have start : Soc.InUse (socProbeDevices gen fails) [] 4 [] (Usage.mk (.probed gen fails values links) 0).held
      (Usage.mk (.probed gen fails values links) 0).soc := Soc.probed_inUse gen fails values links
  obtain ⟨more, inUse, free⟩ := Soc.runUses_inUse (Soc.shipped gen fails) uses start
  rw [List.append_nil, paired] at inUse
  rw [Soc.settles_iff inUse]
  exact free

/-- The clocks are looked up and a command has its pair. -/
theorem scu_references_settled_iff_clk :
    (runUses .g5 ⟨.probed .g5 (fun _ => none) (fun _ => 0) ⟨id, id⟩, 0⟩
      [.lookup (.driver .clk) fun _ => none, .scuGet fun _ => none, .scuPut]).held = 0 ∧
    ((runUses .g5 ⟨.probed .g5 (fun _ => none) (fun _ => 0) ⟨id, id⟩, 0⟩
      [.lookup (.driver .clk) fun _ => none, .scuGet fun _ => none, .scuPut]).soc.Settles ↔
        ∀ first use rest, [.lookup (.driver .clk) fun _ => none, .scuGet fun _ => none, .scuPut] = first ++ use :: rest →
          ¬ Use.TakesForJtag (runUses .g5 ⟨.probed .g5 (fun _ => none) (fun _ => 0) ⟨id, id⟩, 0⟩ first) use) :=
  have paired : (runUses .g5 ⟨.probed .g5 (fun _ => none) (fun _ => 0) ⟨id, id⟩, 0⟩
      [.lookup (.driver .clk) fun _ => none, .scuGet fun _ => none, .scuPut]).held = 0 := by decide +kernel
  ⟨paired, scu_references_settled_iff .g5 (fun _ => none) (fun _ => 0) ⟨id, id⟩ _ paired⟩

/-- A locked SCU, and one lookup of the JTAG master. -/
theorem jtag_leaves_scu_open :
    (runUses .g5 ⟨.probed .g5 (fun _ => none) (fun _ => 0) ⟨id, id⟩, 0⟩
      [.lookup (.name .jtag [2, 2, 5]) fun _ => none]).held = 0 ∧
    ¬ (runUses .g5 ⟨.probed .g5 (fun _ => none) (fun _ => 0) ⟨id, id⟩, 0⟩
      [.lookup (.name .jtag [2, 2, 5]) fun _ => none]).soc.Settles := by
  refine ⟨by decide +kernel, ?_⟩
  rintro ⟨s', run, settled, _⟩
  have out : Soc.ledger (Soc.unbindDrivers.run ⟨(runUses .g5 ⟨.probed .g5 (fun _ => none) (fun _ => 0) ⟨id, id⟩, 0⟩
      [.lookup (.name .jtag [2, 2, 5]) fun _ => none]).soc, fun _ => none, 0⟩).state.dev.log ≠ some [] := by
    decide +kernel
  rw [run] at out
  exact out settled

end Culvert
