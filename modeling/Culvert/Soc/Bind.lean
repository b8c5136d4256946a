import Culvert.Lib.Sound
import Culvert.Soc.Bus

/-- Of two members one stands before the other. -/
theorem List.pair_sublist_of_mem {α : Type} {l : List α} {a b : α} (left : a ∈ l) (right : b ∈ l) (ne : a ≠ b) :
    [a, b].Sublist l ∨ [b, a].Sublist l := by
  induction l with
  | nil => cases left
  | cons head rest ih =>
    rcases List.mem_cons.mp left with rfl | inside
    · rcases List.mem_cons.mp right with rfl | later
      · exact absurd rfl ne
      · exact Or.inl ((List.singleton_sublist.mpr later).cons_cons a)
    · rcases List.mem_cons.mp right with rfl | later
      · exact Or.inr ((List.singleton_sublist.mpr inside).cons_cons b)
      · rcases ih inside later with fine | back
        · exact Or.inl (fine.cons head)
        · exact Or.inr (back.cons head)

namespace Culvert

/-- A node of a well-formed devicetree, as libfdt presents it. -/
inductive FdtNode where
  | mk (compatible : List String) (subnodes : List FdtNode)

/-- A node of the tree, by the indices of the subnodes on the way from the root. -/
abbrev FdtPath := List Nat

namespace FdtNode

def compatible : FdtNode → List String
  | mk compatible _ => compatible

def subnodes : FdtNode → List FdtNode
  | mk _ subnodes => subnodes

/-- The node that a path leads to. -/
def find (node : FdtNode) : FdtPath → Option FdtNode
  | [] => some node
  | i :: path => (node.subnodes[i]?).bind fun subnode => subnode.find path

end FdtNode

/-- Whether `fdt_node_check_compatible` returns 0. -/
def fdtNodeIsCompatible (compatible : List String) (name : String) : Bool := compatible.contains name

/-- The compatibles of `matches` up to the entry that ends the table. -/
structure SocDriver where
  name : String
  matchTable : List String
  deriving DecidableEq, Repr

/-- `struct soc_device`, by the node of its parent and its own. The driver data is NULL. -/
structure BoundDevice where
  parent : Option FdtPath
  node : FdtPath
  driver : SocDriver
  deriving DecidableEq, Repr

def isBusOrMfd (compatible : List String) : Bool :=
  fdtNodeIsCompatible compatible "simple-bus" || fdtNodeIsCompatible compatible "simple-mfd"

def SocDriver.accepts (driver : SocDriver) (compatible : List String) : Bool :=
  driver.matchTable.any (fdtNodeIsCompatible compatible)

/-- `soc->devices`. The oracle is asked once for each allocation. -/
abbrev SocDevices := Faulty (List BoundDevice)

namespace SocDevices

def malloc : Prog SocDevices Unit := do
  match ← Prog.attempt (Faulty.access fun devices => ((), devices)) with
  | .ok () => pure ()
  | .error _ => Prog.fail enomem

def listAdd (dev : BoundDevice) : Prog SocDevices Unit := modify fun s => { s with dev := dev :: s.dev }

section
variable (drivers : List SocDriver)

/-- The loop over the drivers, which binds the first that matches. -/
def socBindFirst (parent : Option FdtPath) (node : FdtPath) (compatible : List String) :
    List SocDriver → Prog SocDevices Unit
  | [] => pure ()
  | driver :: rest =>
    if driver.accepts compatible then listAdd ⟨parent, node, driver⟩
    else socBindFirst parent node compatible rest

mutual

def socDeviceBindDriver (parent : Option FdtPath) (node : FdtPath) : FdtNode → Prog SocDevices Unit
  | .mk compatible subnodes => do
    malloc
    if isBusOrMfd compatible then socBusEnumerateDevices (some node) node 0 subnodes
    socBindFirst parent node compatible drivers

/-- The loop over the subnodes of `bus`, from the `i`-th on. -/
def socBusEnumerateDevices (dev : Option FdtPath) (bus : FdtPath) (i : Nat) : List FdtNode → Prog SocDevices Unit
  | [] => pure ()
  | subnode :: rest => do
    socDeviceBindDriver dev (bus ++ [i]) subnode
    socBusEnumerateDevices dev bus (i + 1) rest

end

/-- An error stays inside. -/
def socBindDrivers (root : FdtNode) : Prog SocDevices Unit :=
  if drivers.length = 0 then pure ()
  else do
    let _ ← Prog.attempt (socBusEnumerateDevices drivers none [] 0 root.subnodes)
    pure ()

end

/-! The list that a run without failing allocations builds. -/

section
variable (drivers : List SocDriver)

/-- The entry of a node itself. -/
def ownEntry (parent : Option FdtPath) (node : FdtPath) (compatible : List String) : List BoundDevice :=
  ((drivers.find? (·.accepts compatible)).map (BoundDevice.mk parent node)).toList

mutual

def entriesOf (parent : Option FdtPath) (node : FdtPath) : FdtNode → List BoundDevice
  | .mk compatible subnodes => ownEntry drivers parent node compatible ++
      if isBusOrMfd compatible then entriesOfSubnodes (some node) node 0 subnodes else []

def entriesOfSubnodes (dev : Option FdtPath) (bus : FdtPath) (i : Nat) : List FdtNode → List BoundDevice
  | [] => []
  | subnode :: rest => entriesOfSubnodes dev bus (i + 1) rest ++ entriesOf dev (bus ++ [i]) subnode

end

theorem malloc_yields (devices : List BoundDevice) : Faulty.Yields devices malloc () devices :=
  (Faulty.Yields.access fun devices => ((), devices)).attempt.bind (Faulty.Yields.pure ())

theorem listAdd_yields (devices : List BoundDevice) (dev : BoundDevice) :
    Faulty.Yields devices (listAdd dev) () (dev :: devices) := by
  rintro s sound rfl
  exact ⟨{ s with dev := dev :: s.dev }, rfl, sound, rfl⟩

theorem socBindFirst_yields (parent : Option FdtPath) (node : FdtPath) (compatible : List String)
    (devices : List BoundDevice) : Faulty.Yields devices (socBindFirst parent node compatible drivers) ()
      (ownEntry drivers parent node compatible ++ devices) := by
  induction drivers with
  | nil => exact Faulty.Yields.pure ()
  | cons driver rest ih =>
    by_cases accepted : driver.accepts compatible
    · have found : ownEntry (driver :: rest) parent node compatible = [⟨parent, node, driver⟩] := by
        simp [ownEntry, accepted]
      rw [socBindFirst, if_pos accepted, found]
      exact listAdd_yields devices _
    · have same : ownEntry (driver :: rest) parent node compatible = ownEntry rest parent node compatible := by
        simp [ownEntry, accepted]
      rw [socBindFirst, if_neg accepted, same]
      exact ih

mutual

theorem socDeviceBindDriver_yields (parent : Option FdtPath) (path : FdtPath) (devices : List BoundDevice) :
    ∀ node : FdtNode, Faulty.Yields devices (socDeviceBindDriver drivers parent path node) ()
      (entriesOf drivers parent path node ++ devices)
  | .mk compatible subnodes => by
    rw [socDeviceBindDriver, entriesOf]
    refine (malloc_yields devices).bind ?_
    by_cases bus : isBusOrMfd compatible
    · simp only [if_pos bus, List.append_assoc]
      have inside := socBusEnumerateDevices_yields (some path) path devices 0 subnodes
      exact inside.bind (socBindFirst_yields drivers parent path compatible _)
    · simp only [if_neg bus, List.append_nil]
      exact socBindFirst_yields drivers parent path compatible devices

theorem socBusEnumerateDevices_yields (dev : Option FdtPath) (bus : FdtPath) (devices : List BoundDevice) (i : Nat) :
    ∀ subnodes : List FdtNode, Faulty.Yields devices (socBusEnumerateDevices drivers dev bus i subnodes) ()
      (entriesOfSubnodes drivers dev bus i subnodes ++ devices)
  | [] => by
    rw [socBusEnumerateDevices, entriesOfSubnodes]
    exact Faulty.Yields.pure ()
  | subnode :: rest => by
    rw [socBusEnumerateDevices, entriesOfSubnodes, List.append_assoc]
    have first := socDeviceBindDriver_yields dev (bus ++ [i]) devices subnode
    exact first.bind (socBusEnumerateDevices_yields dev bus _ (i + 1) rest)

end

end

/-! Which nodes the list has, and in which order. -/

/-- The enumeration of `node` gets down `path` to `last`. -/
inductive Gets : FdtNode → FdtPath → FdtNode → Prop
  | here {node} : Gets node [] node
  | down {node subnode last i path} : isBusOrMfd node.compatible → node.subnodes[i]? = some subnode →
      Gets subnode path last → Gets node (i :: path) last

theorem gets_iff {node last : FdtNode} {path : FdtPath} : Gets node path last ↔ node.find path = some last ∧
    ∀ above, above <+: path → above ≠ path → ∃ bus, node.find above = some bus ∧ isBusOrMfd bus.compatible := by
  induction path generalizing node with
  | nil =>
    constructor
    · rintro ⟨⟩
      exact ⟨rfl, fun above before ne => absurd (List.prefix_nil.mp before) ne⟩
    · rintro ⟨found, _⟩
      cases found
      exact .here
  | cons i path ih =>
    constructor
    · intro gets
      cases gets with
      | down bus sub below =>
        obtain ⟨found, between⟩ := ih.mp below
        refine ⟨by rw [FdtNode.find, sub]; exact found, fun above before ne => ?_⟩
        rcases List.prefix_cons_iff.mp before with rfl | ⟨rest, rfl, within⟩
        · exact ⟨node, rfl, bus⟩
        · rw [FdtNode.find, sub]
          exact between rest within fun same => ne (congrArg _ same)
    · rintro ⟨found, between⟩
      obtain ⟨_, here, bus⟩ := between [] List.nil_prefix (by simp)
      cases here
      obtain ⟨subnode, sub, found⟩ := Option.bind_eq_some_iff.mp found
      refine .down bus sub (ih.mpr ⟨found, fun above before ne => ?_⟩)
      have inside := between (i :: above) (List.cons_prefix_cons.mpr ⟨rfl, before⟩) (by simpa using ne)
      rw [FdtNode.find, sub] at inside
      exact inside

section
variable (drivers : List SocDriver)

/-- The first driver in the table that matches. -/
def FirstMatch (compatible : List String) (driver : SocDriver) : Prop := ∃ before after,
  drivers = before ++ driver :: after ∧ driver.accepts compatible ∧ ∀ other ∈ before, ¬ other.accepts compatible

theorem find_eq_some_iff {compatible : List String} {driver : SocDriver} :
    drivers.find? (·.accepts compatible) = some driver ↔ FirstMatch drivers compatible driver := by
  rw [List.find?_eq_some_iff_append]
  constructor
  · rintro ⟨accepted, before, after, split, none⟩
    exact ⟨before, after, split, accepted, fun other mem => by simpa using none other mem⟩
  · rintro ⟨before, after, split, accepted, none⟩
    exact ⟨accepted, before, after, split, fun other mem => by simpa using none other mem⟩

theorem mem_ownEntry {parent : Option FdtPath} {node : FdtPath} {compatible : List String} {entry : BoundDevice} :
    entry ∈ ownEntry drivers parent node compatible ↔
      entry.parent = parent ∧ entry.node = node ∧ FirstMatch drivers compatible entry.driver := by
  obtain ⟨p, n, driver⟩ := entry
  simp only [ownEntry, Option.mem_toList, Option.map_eq_some_iff, find_eq_some_iff, BoundDevice.mk.injEq]
  constructor
  · rintro ⟨_, first, rfl, rfl, rfl⟩
    exact ⟨rfl, rfl, first⟩
  · rintro ⟨rfl, rfl, first⟩
    exact ⟨driver, first, rfl, rfl, rfl⟩

mutual

theorem node_of_mem {parent : Option FdtPath} {path : FdtPath} {entry : BoundDevice} :
    ∀ {node : FdtNode}, entry ∈ entriesOf drivers parent path node → ∃ below last, Gets node below last ∧
      entry.node = path ++ below ∧ FirstMatch drivers last.compatible entry.driver
  | .mk compatible subnodes, mem => by
    rw [entriesOf, List.mem_append] at mem
    rcases mem with own | inside
    · obtain ⟨_, node, first⟩ := (mem_ownEntry drivers).mp own
      exact ⟨[], .mk compatible subnodes, .here, by rw [node, List.append_nil], first⟩
    · by_cases bus : isBusOrMfd compatible
      · rw [if_pos bus] at inside
        obtain ⟨k, subnode, sub, below, last, gets, node, first⟩ := node_of_mem_subnodes inside
        rw [Nat.zero_add] at node
        exact ⟨k :: below, last, .down bus sub gets, node, first⟩
      · rw [if_neg bus] at inside
        cases inside

theorem node_of_mem_subnodes {dev : Option FdtPath} {bus : FdtPath} {i : Nat} {entry : BoundDevice} :
    ∀ {subnodes : List FdtNode}, entry ∈ entriesOfSubnodes drivers dev bus i subnodes →
      ∃ k subnode, subnodes[k]? = some subnode ∧ ∃ below last, Gets subnode below last ∧
        entry.node = bus ++ (i + k) :: below ∧ FirstMatch drivers last.compatible entry.driver
  | [], mem => nomatch mem
  | subnode :: rest, mem => by
    rw [entriesOfSubnodes, List.mem_append] at mem
    rcases mem with later | first
    · obtain ⟨k, found, sub, below, last, gets, node, first⟩ := node_of_mem_subnodes later
      refine ⟨k + 1, found, sub, below, last, gets, ?_, first⟩
      rw [node, Nat.add_right_comm, Nat.add_assoc]
    · obtain ⟨below, last, gets, node, first⟩ := node_of_mem first
      exact ⟨0, subnode, rfl, below, last, gets, by rw [node, List.append_assoc]; rfl, first⟩

end

mutual

theorem mem_of_gets (parent : Option FdtPath) (path : FdtPath) {below : FdtPath} {last : FdtNode} {driver : SocDriver}
    (first : FirstMatch drivers last.compatible driver) : ∀ {node : FdtNode}, Gets node below last →
      path ++ below ∈ (entriesOf drivers parent path node).map BoundDevice.node
  | .mk compatible subnodes, gets => by
    rw [entriesOf, List.map_append, List.mem_append]
    cases gets with
    | here =>
      refine Or.inl (List.mem_map.mpr ⟨⟨parent, path, driver⟩, ?_, (List.append_nil path).symm⟩)
      exact (mem_ownEntry drivers).mpr ⟨rfl, rfl, first⟩
    | @down _ subnode _ k below bus sub gets =>
      refine Or.inr ?_
      have inside := mem_of_gets_subnodes (some path) path 0 first sub gets
      rw [Nat.zero_add] at inside
      rw [if_pos (show isBusOrMfd compatible from bus)]
      exact inside

theorem mem_of_gets_subnodes (dev : Option FdtPath) (bus : FdtPath) (i : Nat) {below : FdtPath} {k : Nat}
    {subnode last : FdtNode} {driver : SocDriver} (first : FirstMatch drivers last.compatible driver) : ∀ {subnodes : List FdtNode},
      subnodes[k]? = some subnode → Gets subnode below last →
        bus ++ (i + k) :: below ∈ (entriesOfSubnodes drivers dev bus i subnodes).map BoundDevice.node
  | [], sub, _ => nomatch sub
  | head :: rest, sub, gets => by
    rw [entriesOfSubnodes, List.map_append, List.mem_append]
    cases k with
    | zero =>
      obtain rfl : head = subnode := Option.some.inj sub
      have here := mem_of_gets dev (bus ++ [i]) first gets
      rw [List.append_assoc] at here
      exact Or.inr here
    | succ k =>
      have next : rest[k]? = some subnode := sub
      have later := mem_of_gets_subnodes dev bus (i + 1) first next gets
      rw [Nat.add_right_comm, Nat.add_assoc] at later
      exact Or.inl later

end

theorem not_prefix_of_lt {bus p q : FdtPath} {i j : Nat} (lt : i < j) : ¬ bus ++ i :: p <+: bus ++ j :: q := by
  rw [List.prefix_append_right_inj, List.cons_prefix_cons]
  rintro ⟨same, _⟩
  omega

mutual

/-- No node stands behind one of its subnodes. -/
theorem entriesOf_ordered (parent : Option FdtPath) (path : FdtPath) : ∀ node : FdtNode,
    ((entriesOf drivers parent path node).map BoundDevice.node).Pairwise fun p q => ¬ q <+: p
  | .mk compatible subnodes => by
    rw [entriesOf, List.map_append, List.pairwise_append]
    refine ⟨?_, ?_, ?_⟩
    · rw [ownEntry]
      cases drivers.find? (·.accepts compatible) with
      | none => exact List.Pairwise.nil
      | some driver => exact List.pairwise_singleton _ _
    · by_cases bus : isBusOrMfd compatible
      · rw [if_pos bus]
        exact entriesOfSubnodes_ordered (some path) path 0 subnodes
      · rw [if_neg bus]
        exact List.Pairwise.nil
    · intro p own q inside before
      obtain ⟨entry, mem, rfl⟩ := List.mem_map.mp own
      have here := ((mem_ownEntry drivers).mp mem).2.1
      by_cases bus : isBusOrMfd compatible
      · rw [if_pos bus] at inside
        obtain ⟨sub, mem', rfl⟩ := List.mem_map.mp inside
        obtain ⟨k, _, _, below, _, _, node, _⟩ := node_of_mem_subnodes drivers mem'
        rw [here, node] at before
        have short := before.length_le
        simp only [List.length_append, List.length_cons] at short
        omega
      · rw [if_neg bus] at inside
        cases inside

theorem entriesOfSubnodes_ordered (dev : Option FdtPath) (bus : FdtPath) (i : Nat) : ∀ subnodes : List FdtNode,
    ((entriesOfSubnodes drivers dev bus i subnodes).map BoundDevice.node).Pairwise fun p q => ¬ q <+: p
  | [] => by
    rw [entriesOfSubnodes]
    exact List.Pairwise.nil
  | subnode :: rest => by
    rw [entriesOfSubnodes, List.map_append, List.pairwise_append]
    refine ⟨entriesOfSubnodes_ordered dev bus (i + 1) rest, entriesOf_ordered dev (bus ++ [i]) subnode, ?_⟩
    intro p later q first before
    obtain ⟨entry, mem, rfl⟩ := List.mem_map.mp later
    obtain ⟨entry', mem', rfl⟩ := List.mem_map.mp first
    obtain ⟨k, _, _, below, _, _, node, _⟩ := node_of_mem_subnodes drivers mem
    obtain ⟨below', _, _, node', _⟩ := node_of_mem drivers mem'
    rw [node, node', List.append_assoc] at before
    exact not_prefix_of_lt (by omega) before

end

/-- Every node between the root and the one at `path` is a bus or an MFD. -/
def Reachable (root : FdtNode) (path : FdtPath) : Prop := path ≠ [] ∧ ∀ above, above ≠ [] → above <+: path →
  above ≠ path → ∃ bus, root.find above = some bus ∧ isBusOrMfd bus.compatible

theorem reachable_iff {root last : FdtNode} {k : Nat} {below : FdtPath} :
    Reachable root (k :: below) ∧ root.find (k :: below) = some last ↔
      ∃ subnode, root.subnodes[k]? = some subnode ∧ Gets subnode below last := by
  constructor
  · rintro ⟨⟨_, between⟩, found⟩
    obtain ⟨subnode, sub, found⟩ := Option.bind_eq_some_iff.mp found
    refine ⟨subnode, sub, gets_iff.mpr ⟨found, fun above before ne => ?_⟩⟩
    have inside := between (k :: above) (by simp) (List.cons_prefix_cons.mpr ⟨rfl, before⟩) (by simpa using ne)
    rw [FdtNode.find, sub] at inside
    exact inside
  · rintro ⟨subnode, sub, gets⟩
    obtain ⟨found, between⟩ := gets_iff.mp gets
    refine ⟨⟨by simp, fun above some before ne => ?_⟩, by rw [FdtNode.find, sub]; exact found⟩
    rcases List.prefix_cons_iff.mp before with rfl | ⟨rest, rfl, within⟩
    · exact absurd rfl some
    · rw [FdtNode.find, sub]
      exact between rest within fun same => ne (congrArg _ same)

theorem mem_entries_iff (root : FdtNode) (path : FdtPath) :
    path ∈ (entriesOfSubnodes drivers none [] 0 root.subnodes).map BoundDevice.node ↔ Reachable root path ∧
      ∃ node, root.find path = some node ∧ ∃ driver ∈ drivers, driver.accepts node.compatible := by
  constructor
  · intro mem
    obtain ⟨entry, listed, rfl⟩ := List.mem_map.mp mem
    obtain ⟨k, subnode, sub, below, last, gets, node, before, after, split, accepted, _⟩ :=
      node_of_mem_subnodes drivers listed
    rw [List.nil_append, Nat.zero_add] at node
    obtain ⟨reachable, found⟩ := reachable_iff.mpr ⟨subnode, sub, gets⟩
    rw [node]
    exact ⟨reachable, last, found, entry.driver, by rw [split]; simp, accepted⟩
  · rintro ⟨reachable, last, found, driver, known, accepted⟩
    obtain ⟨first, matched⟩ : ∃ first, drivers.find? (·.accepts last.compatible) = some first :=
      Option.isSome_iff_exists.mp (List.find?_isSome.mpr ⟨driver, known, accepted⟩)
    cases path with
    | nil => exact absurd rfl reachable.1
    | cons k below =>
      obtain ⟨subnode, sub, gets⟩ := reachable_iff.mp ⟨reachable, found⟩
      have mem := mem_of_gets_subnodes drivers none [] 0 ((find_eq_some_iff drivers).mp matched) sub gets
      rw [List.nil_append, Nat.zero_add] at mem
      exact mem

theorem entries_firstMatch {root : FdtNode} {entry : BoundDevice}
    (mem : entry ∈ entriesOfSubnodes drivers none [] 0 root.subnodes) :
    ∃ node, root.find entry.node = some node ∧ FirstMatch drivers node.compatible entry.driver := by
  obtain ⟨k, subnode, sub, below, last, gets, node, first⟩ := node_of_mem_subnodes drivers mem
  obtain ⟨_, found⟩ := reachable_iff.mpr ⟨subnode, sub, gets⟩
  rw [List.nil_append, Nat.zero_add] at node
  exact ⟨last, by rw [node, found], first⟩

theorem entries_nodup (root : FdtNode) :
    ((entriesOfSubnodes drivers none [] 0 root.subnodes).map BoundDevice.node).Nodup := by
  refine (entriesOfSubnodes_ordered drivers none [] 0 root.subnodes).imp ?_
  rintro p _ apart rfl
  exact apart (List.prefix_refl p)

theorem entries_outer_first {root : FdtNode} {bus entry : BoundDevice}
    (outer : bus ∈ entriesOfSubnodes drivers none [] 0 root.subnodes)
    (inner : entry ∈ entriesOfSubnodes drivers none [] 0 root.subnodes)
    (before : bus.node <+: entry.node) (ne : bus.node ≠ entry.node) :
    [bus, entry].Sublist (entriesOfSubnodes drivers none [] 0 root.subnodes) := by
  rcases List.pair_sublist_of_mem outer inner (fun same => ne (congrArg _ same)) with fine | back
  · exact fine
  · have apart := List.pairwise_map.mp (entriesOfSubnodes_ordered drivers none [] 0 root.subnodes)
    exact absurd before (List.pairwise_iff_forall_sublist.mp apart back)

theorem socBindDrivers_yields (root : FdtNode) (devices : List BoundDevice) :
    Faulty.Yields devices (socBindDrivers drivers root) ()
      (entriesOfSubnodes drivers none [] 0 root.subnodes ++ devices) := by
  rw [socBindDrivers]
  by_cases none : drivers.length = 0
  · have nothing : entriesOfSubnodes drivers Option.none [] 0 root.subnodes = [] := by
      rw [List.eq_nil_iff_forall_not_mem]
      intro entry mem
      obtain ⟨_, _, _, _, _, _, _, before, after, split, _⟩ := node_of_mem_subnodes drivers mem
      rw [List.length_eq_zero_iff.mp none] at split
      simp at split
    rw [if_pos none, nothing]
    exact Faulty.Yields.pure ()
  · rw [if_neg none]
    have enumerated := socBusEnumerateDevices_yields drivers Option.none [] devices 0 root.subnodes
    exact enumerated.attempt.bind (Faulty.Yields.pure ())

end

end SocDevices

/-- From an empty list, and where no allocation fails, the drivers are bound to exactly the nodes that
can be reached and that one of them matches, to each by the first that does and only once, and a node
stands before those below it. -/
theorem soc_bind_drivers_exact (root : FdtNode) (drivers : List SocDriver) (s : SocDevices) (sound : s.Sound)
    (empty : s.dev = []) : ∃ s', (SocDevices.socBindDrivers drivers root).run s = .ok () s' ∧
      (s'.dev.map BoundDevice.node).Nodup ∧
      (∀ path, path ∈ s'.dev.map BoundDevice.node ↔ SocDevices.Reachable root path ∧
        ∃ node, root.find path = some node ∧ ∃ driver ∈ drivers, driver.accepts node.compatible) ∧
      (∀ entry ∈ s'.dev, ∃ node, root.find entry.node = some node ∧
        SocDevices.FirstMatch drivers node.compatible entry.driver) ∧
      ∀ bus ∈ s'.dev, ∀ entry ∈ s'.dev, bus.node <+: entry.node → bus.node ≠ entry.node →
        [bus, entry].Sublist s'.dev := by
  obtain ⟨s', run, _, dev⟩ := SocDevices.socBindDrivers_yields drivers root [] s sound empty
  rw [List.append_nil] at dev
  refine ⟨s', run, ?_⟩
  rw [dev]
  exact ⟨SocDevices.entries_nodup drivers root, SocDevices.mem_entries_iff drivers root,
    fun _ mem => SocDevices.entries_firstMatch drivers mem,
    fun _ outer _ inner => SocDevices.entries_outer_first drivers outer inner⟩

/-- The SCU and the clocks below it. -/
theorem soc_bind_drivers_exact_scu : ∃ s',
    (SocDevices.socBindDrivers [⟨"scu", ["aspeed,ast2500-scu"]⟩, ⟨"clk", ["clock"]⟩]
      (.mk [] [.mk ["simple-bus"] [.mk ["aspeed,ast2500-scu", "simple-mfd"] [.mk ["clock"] []]]])).run
        ⟨[], fun _ => none, 0⟩ = .ok () s' ∧ (s'.dev.map BoundDevice.node).Nodup ∧
        s'.dev.map BoundDevice.node = [[0, 0], [0, 0, 0]] := by
  obtain ⟨s', run, once, _⟩ := soc_bind_drivers_exact
    (.mk [] [.mk ["simple-bus"] [.mk ["aspeed,ast2500-scu", "simple-mfd"] [.mk ["clock"] []]]])
    [⟨"scu", ["aspeed,ast2500-scu"]⟩, ⟨"clk", ["clock"]⟩] ⟨[], fun _ => none, 0⟩ (fun _ => rfl) rfl
  refine ⟨s', run, once, ?_⟩
  cases run
  rfl

end Culvert
