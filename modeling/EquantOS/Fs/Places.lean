import EquantOS.Fs.Vfs
import Mathlib.Data.List.Find

/-!
# Places

What a path means, whatever nodes there are for it: a place is a node of the tree, or an entry of a
directory on a disk.  Resolving a path makes new nodes for the entries on a disk, but if it succeeds it ends
at a node for the place that the path means, and with enough memory it succeeds.
-/

open Function List Option

namespace Vfs

open Sys

/-- A node, or an entry of a directory on a disk. -/
inductive Place where
  | node (id : ℕ)
  | entry (driver : Driver) (e : Entry) (dir : Place)

namespace Sys

variable {δ : Type} (drv : Drivers δ)

/-- A mount point stands for what is mounted there. -/
def enterPlace (s : Sys δ) : Place → Place
  | .node id => .node (s.enter id)
  | p => p

/-- The place with a name in a directory. -/
def findPlace (s : Sys δ) : Place → Name → Option Place
  | .node id, name =>
    match s.nodes (s.enter id) with
    | none => none
    | some node =>
      if node.isDir then
        if node.driver = .ramfs then (s.findChild node.children name).map .node
        else (drv.find s.disks node.driver node.ptr name).map fun e =>
          .entry node.driver e (.node (s.enter id))
      else none
  | .entry driver e dir, name =>
    if e.isDir then
      (drv.find s.disks driver e.ptr name).map fun e' => .entry driver e' (.entry driver e dir)
    else none

/-- The place of `..`. -/
def upPlace (s : Sys δ) : Place → Place
  | .node id => .node (((s.nodes id).bind Node.parent).getD id)
  | .entry driver e dir => if driver = .ext2 then .entry driver e dir else dir

/-- The place that the components lead to. -/
def walkPlace (s : Sys δ) : Place → List Name → Option Place
  | p, [] => some p
  | p, token :: rest =>
    if token = [] ∨ token = [0x2E] then s.walkPlace p rest
    else if token = [0x2E, 0x2E] then s.walkPlace (s.upPlace p) rest
    else
      match s.findPlace drv p token with
      | none => none
      | some p' => s.walkPlace (s.enterPlace p') rest

/-! ### Sound trees -/

/-- There is a directory with the number. -/
def IsDir (s : Sys δ) (id : ℕ) : Prop := ∃ node, s.nodes id = some node ∧ node.isDir = true

/-- `"/dev/"`. -/
def devPath : List UInt8 := [0x2F, 0x64, 0x65, 0x76, 0x2F]

/-- Nodes refer to directories as their parents, a directory has its children once, and they know it; only
a path below `/dev` can be one of a device. -/
structure Sound (s : Sys δ) : Prop where
  fresh {id : ℕ} : s.nextNode ≤ id → s.nodes id = none
  root : s.IsDir s.root
  mounted {id m : ℕ} {node : Node} : s.nodes id = some node → node.mounted = some m → s.IsDir m
  parent {id p : ℕ} {node : Node} : s.nodes id = some node → node.parent = some p → s.IsDir p
  child {d c : ℕ} {dir : Node} : s.nodes d = some dir → c ∈ dir.children →
    ∃ node, s.nodes c = some node ∧ node.parent = some d
  nodup {d : ℕ} {dir : Node} : s.nodes d = some dir → dir.children.Nodup
  leaf {id : ℕ} {node : Node} : s.nodes id = some node → node.isDir = false → node.children = []
  devices {path : List UInt8} {id : ℕ} : s.devices path = some id → path.take 5 = devPath

/-- Nodes are added, and nothing else changes that a path depends on. -/
structure Extends (s s' : Sys δ) : Prop where
  nodes {id : ℕ} {node : Node} : s.nodes id = some node → s'.nodes id = some node
  new {id : ℕ} {node : Node} : s'.nodes id = some node →
    s.nodes id = some node ∨ node.children = [] ∧ node.fdata = none
  nextNode : s.nextNode ≤ s'.nextNode
  disks : s'.disks = s.disks
  root : s'.root = s.root
  devices : s'.devices = s.devices
  memory : s'.memory = s.memory
  files : s'.files = s.files
  data : s'.data = s.data

open Extends

variable {drv} {s s' s'' : Sys δ}

lemma Extends.refl (s : Sys δ) : Extends s s
  := ⟨id, .inl, le_rfl, rfl, rfl, rfl, rfl, rfl, rfl⟩

lemma Extends.trans (h : Extends s s') (h' : Extends s' s'') : Extends s s''
  := ⟨fun hn => h'.nodes (h.nodes hn), fun hn => (h'.new hn).elim h.new .inr,
    h.nextNode.trans h'.nextNode, h'.disks.trans h.disks, h'.root.trans h.root, h'.devices.trans h.devices,
    h'.memory.trans h.memory, h'.files.trans h.files,
    h'.data.trans h.data⟩

variable {d id : ℕ} {p : Place} {n node : Node}

lemma Extends.isDir (h : Extends s s') (hd : s.IsDir id) : s'.IsDir id
  := by
  obtain ⟨node, hnode, hdir⟩ := hd
  exact ⟨node, h.nodes hnode, hdir⟩

lemma Sound.enter_isSome (hs : Sound s) (hid : (s.nodes id).isSome) :
  (s.nodes (s.enter id)).isSome
  := by
  obtain ⟨node, hnode⟩ := isSome_iff_exists.mp hid
  unfold enter
  rw [hnode, bind_some]
  cases hm : node.mounted with
  | none => exact hid
  | some m =>
    obtain ⟨target, htarget, -⟩ := hs.mounted hnode hm
    rw [getD_some, htarget]
    rfl

/-- The nodes of a place are allocated. -/
def Known (s : Sys δ) : Place → Prop
  | .node id => (s.nodes id).isSome
  | .entry driver _ dir => driver ≠ .ramfs ∧ s.Known dir

lemma Sound.known_enterPlace (hs : Sound s) (hp : s.Known p) : s.Known (s.enterPlace p)
  := by
  cases p with
  | node id => exact hs.enter_isSome hp
  | entry driver e dir => exact hp

lemma Sound.known_upPlace (hs : Sound s) (hp : s.Known p) : s.Known (s.upPlace p)
  := by
  cases p with
  | node id =>
    obtain ⟨node, hnode⟩ := isSome_iff_exists.mp hp
    simp only [upPlace, hnode, bind_some]
    cases hparent : node.parent with
    | none => exact hp
    | some p =>
      obtain ⟨dir, hdir, -⟩ := hs.parent hnode hparent
      rw [getD_some]
      unfold Known
      rw [hdir]
      rfl
  | entry driver e dir =>
    simp only [upPlace]
    split
    · exact hp
    · exact hp.2

lemma Sound.findChild_isSome (hs : Sound s) {c : ℕ} {dir : Node} (hd : s.nodes d = some dir) {name : Name}
    (hc : s.findChild dir.children name = some c) :
  (s.nodes c).isSome
  := by
  obtain ⟨node, hnode, -⟩ := hs.child hd (mem_of_find?_eq_some hc)
  rw [hnode]
  rfl

lemma Sound.known_findPlace (hs : Sound s) {p' : Place} (hp : s.Known p) {name : Name}
    (h : s.findPlace drv p name = some p') :
  s.Known p'
  := by
  cases p with
  | node id =>
    simp only [findPlace] at h
    cases hnode : s.nodes (s.enter id) with
    | none =>
      rw [hnode] at h
      cases h
    | some node =>
      rw [hnode] at h
      dsimp only at h
      split at h
      · split at h
        · obtain ⟨c, hc, rfl⟩ := map_eq_some_iff.mp h
          exact hs.findChild_isSome hnode hc
        · obtain ⟨e, -, rfl⟩ := map_eq_some_iff.mp h
          exact ⟨by assumption, hs.enter_isSome hp⟩
      · cases h
  | entry driver e dir =>
    simp only [findPlace] at h
    split at h
    · obtain ⟨e', -, rfl⟩ := map_eq_some_iff.mp h
      exact ⟨hp.1, hp⟩
    · cases h

/-! ### Adding nodes -/

section

variable (h : Extends s s')

include h

lemma Extends.nodes_eq {id : ℕ} (hid : (s.nodes id).isSome) : s'.nodes id = s.nodes id
  := by
  obtain ⟨node, hnode⟩ := isSome_iff_exists.mp hid
  rw [hnode, h.nodes hnode]

variable {p : Place}

lemma Extends.known (hp : s.Known p) : s'.Known p
  := by
  induction p with
  | node id =>
    unfold Known at hp ⊢
    rwa [h.nodes_eq hp]
  | entry driver e dir ih => exact ⟨hp.1, ih hp.2⟩

lemma Extends.enter {id : ℕ} (hid : (s.nodes id).isSome) : s'.enter id = s.enter id
  := by
  rw [Sys.enter, Sys.enter, h.nodes_eq hid]

lemma Extends.findChild (hs : Sound s) {d : ℕ} {dir : Node} (hd : s.nodes d = some dir)
    (name : Name) :
  s'.findChild dir.children name = s.findChild dir.children name
  := by
  apply find?_congr
  intro c hc
  obtain ⟨node, hnode, -⟩ := hs.child hd hc
  rw [hnode, h.nodes hnode]

lemma Extends.enterPlace (hp : s.Known p) : s'.enterPlace p = s.enterPlace p
  := by
  cases p with
  | node id => rw [enterPlace, enterPlace, h.enter hp]
  | entry driver e dir => rfl

lemma Extends.upPlace (hp : s.Known p) : s'.upPlace p = s.upPlace p
  := by
  cases p with
  | node id => rw [upPlace, upPlace, h.nodes_eq hp]
  | entry driver e dir => rfl

lemma Extends.findPlace (hs : Sound s) (hp : s.Known p) (name : Name) :
  s'.findPlace drv p name = s.findPlace drv p name
  := by
  cases p with
  | node id =>
    simp only [findPlace]
    rw [h.enter hp, h.nodes_eq (hs.enter_isSome hp), h.disks]
    cases hnode : s.nodes (s.enter id) with
    | none => rfl
    | some node =>
      dsimp only
      rw [h.findChild hs hnode]
  | entry driver e dir =>
    simp only [findPlace]
    rw [h.disks]

/-- Adding nodes does not change what a path means. -/
lemma Extends.walkPlace (hs : Sound s) (hp : s.Known p) (tokens : List Name) :
  s'.walkPlace drv p tokens = s.walkPlace drv p tokens
  := by
  induction tokens generalizing p with
  | nil => rfl
  | cons token rest ih =>
    unfold walkPlace
    rw [h.findPlace hs hp, h.upPlace hp, ih hp, ih (hs.known_upPlace hp)]
    cases hfind : s.findPlace drv p token with
    | none => rfl
    | some p' =>
      have hp' := hs.known_findPlace hp hfind
      dsimp only
      rw [h.enterPlace hp', ih (hs.known_enterPlace hp')]

end

/-! ### Nodes for places -/

/-- The node is not among the children of a directory. -/
def Loose (s : Sys δ) (id : ℕ) : Prop := ∀ d dir, s.nodes d = some dir → id ∉ dir.children

/-- A node for an entry of a directory on a disk knows what the driver needs, and its directory. -/
def Rep (s : Sys δ) : ℕ → Place → Prop
  | id, .node id' => id = id'
  | id, .entry driver e dir => s.Loose id ∧ ∃ node, s.nodes id = some node ∧ node.driver = driver
      ∧ node.isDir = e.isDir ∧ node.ptr = e.ptr ∧ node.length = e.length ∧ node.mounted = none
      ∧ if driver = .ext2 then node.parent = none else ∃ d, node.parent = some d ∧ s.Rep d dir

lemma Extends.loose (h : Extends s s') (hid : s.Loose id) : s'.Loose id
  := by
  intro d dir hd
  rcases h.new hd with hd | hd
  · exact hid d dir hd
  · rw [hd.1]
    exact not_mem_nil

lemma Extends.rep (h : Extends s s') (hrep : s.Rep id p) : s'.Rep id p
  := by
  induction p generalizing id with
  | node id' => exact hrep
  | entry driver e dir ih =>
    obtain ⟨hloose, node, hnode, hdriver, hdir, hptr, hlength, hmounted, hparent⟩ := hrep
    refine ⟨h.loose hloose, node, h.nodes hnode, hdriver, hdir, hptr, hlength, hmounted, ?_⟩
    by_cases hext : driver = .ext2
    · rw [if_pos hext] at hparent ⊢
      exact hparent
    · rw [if_neg hext] at hparent ⊢
      obtain ⟨d, hd, hrep⟩ := hparent
      exact ⟨d, hd, ih hrep⟩

lemma Rep.enter (h : s.Rep id p) : s.Rep (s.enter id) (s.enterPlace p)
  := by
  cases p with
  | node id' =>
    obtain rfl : id = id' := h
    exact rfl
  | entry driver e dir =>
    have h' := h
    obtain ⟨-, node, hnode, -, -, -, -, hmounted, -⟩ := h'
    have henter : s.enter id = id := by
      rw [enter, hnode, bind_some, hmounted, getD_none]
    rw [henter]
    exact h

lemma Rep.up (h : s.Rep id p) :
  s.Rep (((s.nodes id).bind Node.parent).getD id) (s.upPlace p)
  := by
  cases p with
  | node id' =>
    obtain rfl : id = id' := h
    exact rfl
  | entry driver e dir =>
    have h' := h
    obtain ⟨-, node, hnode, -, -, -, -, -, hparent⟩ := h'
    rw [hnode, bind_some]
    simp only [upPlace]
    by_cases hext : driver = .ext2
    · rw [if_pos hext] at hparent ⊢
      rw [hparent]
      exact h
    rw [if_neg hext] at hparent ⊢
    obtain ⟨d, hd, hrep⟩ := hparent
    rw [hd]
    exact hrep

/-! ### Resolving a path -/

lemma Sound.nodes_addNode (hs : Sound s) (hn : s.nodes id = some n) :
  (s.addNode node).nodes id = some n
  := by
  have hne : id ≠ s.nextNode := by
    rintro rfl
    rw [hs.fresh le_rfl] at hn
    cases hn
  exact (update_of_ne hne ..).trans hn

lemma Sound.isDir_addNode (hs : Sound s) (hid : s.IsDir id) : (s.addNode node).IsDir id
  := by
  obtain ⟨n, hn, hdir⟩ := hid
  exact ⟨n, hs.nodes_addNode hn, hdir⟩

lemma nodes_addNode_cases (hn : (s.addNode node).nodes id = some n) :
  s.nodes id = some n ∨ id = s.nextNode ∧ n = node
  := by
  by_cases hid : id = s.nextNode
  · right
    have hnew : (s.addNode node).nodes id = some node := by rw [hid]; exact update_self ..
    exact ⟨hid, some.inj (hn.symm.trans hnew)⟩
  · left
    exact (update_of_ne hid ..).symm.trans hn

lemma Sound.extends_addNode (hs : Sound s) (hchildren : node.children = []) (hfdata : node.fdata = none) :
  Extends s (s.addNode node)
  := by
  refine ⟨hs.nodes_addNode, fun {id} {n} hn => ?_, Nat.le_succ _, rfl, rfl, rfl, rfl, rfl, rfl⟩
  rcases nodes_addNode_cases hn with hn | ⟨-, rfl⟩
  · exact .inl hn
  · exact .inr ⟨hchildren, hfdata⟩

/-- A node without children is added. -/
lemma Sound.addNode (hs : Sound s) (hmounted : ∀ m, node.mounted = some m → s.IsDir m)
    (hparent : ∀ p, node.parent = some p → s.IsDir p) (hchildren : node.children = []) :
  Sound (s.addNode node)
  := by
  constructor
  · intro id hid
    have hne : id ≠ s.nextNode := by
      rintro rfl
      exact Nat.not_succ_le_self _ hid
    exact (update_of_ne hne ..).trans (hs.fresh (Nat.le_of_succ_le hid))
  · exact hs.isDir_addNode hs.root
  · intro id m n hn hm
    rcases nodes_addNode_cases hn with hn | ⟨-, rfl⟩
    · exact hs.isDir_addNode (hs.mounted hn hm)
    · exact hs.isDir_addNode (hmounted m hm)
  · intro id p n hn hp
    rcases nodes_addNode_cases hn with hn | ⟨-, rfl⟩
    · exact hs.isDir_addNode (hs.parent hn hp)
    · exact hs.isDir_addNode (hparent p hp)
  · intro d c dir hd hc
    rcases nodes_addNode_cases hd with hd | ⟨-, rfl⟩
    · obtain ⟨n, hn, hp⟩ := hs.child hd hc
      exact ⟨n, hs.nodes_addNode hn, hp⟩
    · rw [hchildren] at hc
      cases hc
  · intro d dir hd
    rcases nodes_addNode_cases hd with hd | ⟨-, rfl⟩
    · exact hs.nodup hd
    · rw [hchildren]
      exact nodup_nil
  · intro id n hn hfile
    rcases nodes_addNode_cases hn with hn | ⟨-, rfl⟩
    · exact hs.leaf hn hfile
    · exact hchildren
  · exact hs.devices

/-- What is not about nodes may change. -/
lemma Sound.congr (hs : Sound s) (hnodes : s'.nodes = s.nodes) (hnext : s'.nextNode = s.nextNode)
    (hroot : s'.root = s.root) (hdevices : s'.devices = s.devices) :
  Sound s'
  := by
  have hdir {d : ℕ} (h : s.IsDir d) : s'.IsDir d := by
    unfold IsDir
    rwa [hnodes]
  constructor
  · rw [hnodes, hnext]
    exact hs.fresh
  · rw [hroot]
    exact hdir hs.root
  · rw [hnodes]
    exact fun h hm => hdir (hs.mounted h hm)
  · rw [hnodes]
    exact fun h hp => hdir (hs.parent h hp)
  · rw [hnodes]
    exact hs.child
  · rw [hnodes]
    exact hs.nodup
  · rw [hnodes]
    exact hs.leaf
  · rw [hdevices]
    exact hs.devices

/-- The states after a lookup, and what it returns. -/
structure Looked (s : Sys δ) (r : Result × Sys δ) (p : Option Place) : Prop where
  sound : Sound r.2
  step : Extends s r.2
  rep {id : ℕ} : r.1 = .node id → ∃ p', p = some p' ∧ r.2.Rep id p'
  found : (∀ k, s.memory k = true) → p.isSome → ∃ id, r.1 = .node id

lemma extends_allocations (s : Sys δ) (n used : ℕ) :
  Extends s { s with allocations := n, usedMemory := used }
  := ⟨id, .inl, le_rfl, rfl, rfl, rfl, rfl, rfl, rfl⟩

lemma findEntry_looked (hs : Sound s) {dir : ℕ} (hdir : s.IsDir dir) (hrep : s.Rep dir p) (name : Name) :
  Looked s (s.findEntry drv dir node name)
    ((drv.find s.disks node.driver node.ptr name).map fun e => .entry node.driver e p)
  := by
  unfold findEntry buffers
  cases hbuf : s.memory s.allocations with
  | false =>
    refine ⟨hs.congr rfl rfl rfl rfl, extends_allocations s _ _, (fun h => by cases h), fun hmem => ?_⟩
    rw [hmem] at hbuf
    cases hbuf
  | true =>
    dsimp only
    cases hfind : drv.find s.disks node.driver node.ptr name with
    | none =>
      exact ⟨hs.congr rfl rfl rfl rfl, extends_allocations s _ _, (fun h => by cases h),
        (fun _ h => by cases h)⟩
    | some e =>
      dsimp only [kmalloc]
      cases hnode : s.memory (s.allocations + 1) with
      | false =>
        refine ⟨hs.congr rfl rfl rfl rfl, extends_allocations s _ _, fun {id} h => ?_, fun hmem => ?_⟩
        · by_cases hiso : node.driver = .iso9660
          · simp [hiso] at h
          · simp [hiso] at h
        · rw [hmem] at hnode
          cases hnode
      | true =>
        rw [if_pos rfl]
        dsimp only
        obtain ⟨s₁, hs₁⟩ : ∃ s₁, s₁ = { s with
          allocations := s.allocations + 1 + 1
          usedMemory := s.usedMemory + extent nodeSize } := ⟨_, rfl⟩
        have hext : Extends s s₁ := hs₁ ▸ extends_allocations s _ _
        have hsound : Sound s₁ := hs₁ ▸ hs.congr rfl rfl rfl rfl
        have hnext : s₁.nextNode = s.nextNode := by rw [hs₁]
        rw [← hs₁]
        have hadd : Sound (s₁.addNode (entryNode node.driver dir name e)) := by
          apply hsound.addNode (fun m h => by cases h)
          · intro d hd
            unfold entryNode at hd
            split at hd
            · cases hd
            · obtain rfl := some.inj hd
              exact hext.isDir hdir
          · rfl
        have hext' : Extends s (s₁.addNode (entryNode node.driver dir name e)) :=
          hext.trans (hsound.extends_addNode rfl rfl)
        have hloose : s.Loose s.nextNode := by
          intro d dir hd hmem
          obtain ⟨n, hn, -⟩ := hs.child hd hmem
          rw [hs.fresh le_rfl] at hn
          cases hn
        refine ⟨hadd, hext', fun {id} h => ⟨_, rfl, ?_⟩, fun _ _ => ⟨_, rfl⟩⟩
        obtain rfl := Result.node.inj h
        have hnew : (s₁.addNode (entryNode node.driver dir name e)).nodes s.nextNode
            = some (entryNode node.driver dir name e) := by
          rw [← hnext]
          exact update_self ..
        refine ⟨hext'.loose hloose, _, hnew, rfl, rfl, rfl, rfl, rfl, ?_⟩
        by_cases hext2 : node.driver = .ext2
        · rw [if_pos hext2]
          exact if_pos hext2
        · rw [if_neg hext2]
          exact ⟨dir, if_neg hext2, hext'.rep hrep⟩

lemma finddir_looked (hs : Sound s) (hp : s.Known p) (hrep : s.Rep id p) (name : Name) :
  Looked s (s.finddir drv id name) (s.findPlace drv p name)
  := by
  have hnull : Looked s (.null, s) none :=
    ⟨hs, refl s, (fun h => by cases h), (fun _ h => by cases h)⟩
  unfold finddir
  cases p with
  | node id' =>
    obtain rfl : id = id' := hrep
    simp only [findPlace]
    cases hnode : s.nodes (s.enter id) with
    | none => exact hnull
    | some node =>
      dsimp only
      by_cases hdir : node.isDir
      · rw [if_pos hdir, if_pos hdir]
        by_cases hdriver : node.driver = .ramfs
        · rw [if_pos hdriver, if_pos hdriver]
          cases s.findChild node.children name with
          | none => exact hnull
          | some c =>
            refine ⟨hs, refl s, fun h => ?_, fun _ _ => ⟨c, rfl⟩⟩
            obtain rfl := Result.node.inj h
            exact ⟨_, rfl, rfl⟩
        · rw [if_neg hdriver, if_neg hdriver]
          exact findEntry_looked hs ⟨node, hnode, hdir⟩ (show s.Rep _ (.node _) from rfl) name
      · rw [if_neg hdir, if_neg hdir]
        exact hnull
  | entry driver e dir =>
    have hrep' := hrep
    obtain ⟨-, node, hnode, hdriver, hdir, hptr, -, hmounted, -⟩ := hrep'
    have henter : s.enter id = id := by
      rw [enter, hnode, bind_some, hmounted, getD_none]
    simp only [findPlace]
    rw [henter, hnode]
    dsimp only
    by_cases hisDir : node.isDir
    · rw [if_pos hisDir, if_neg (by rw [hdriver]; exact hp.1), if_pos (hdir ▸ hisDir)]
      have hlooked : Looked s (s.findEntry drv id node name)
          ((drv.find s.disks node.driver node.ptr name).map fun e' =>
            .entry node.driver e' (.entry driver e dir)) :=
        findEntry_looked hs ⟨node, hnode, hisDir⟩ hrep name
      rw [hdriver, hptr] at hlooked
      exact hlooked
    · rw [if_neg hisDir, if_neg (hdir ▸ hisDir)]
      exact hnull

/-- Walking along components ends at a node for the place that they lead to. -/
lemma walk_looked (hs : Sound s) {current : ℕ} (hp : s.Known p) (hrep : s.Rep current p)
    (tokens : List Name) :
  Looked s (s.walk drv current tokens) (s.walkPlace drv p tokens)
  := by
  induction tokens generalizing s current p with
  | nil =>
    refine ⟨hs, refl s, fun h => ?_, fun _ _ => ⟨current, rfl⟩⟩
    obtain rfl := Result.node.inj h
    exact ⟨p, rfl, hrep⟩
  | cons token rest ih =>
    unfold walk walkPlace
    by_cases hdot : token = [] ∨ token = [0x2E]
    · rw [if_pos hdot, if_pos hdot]
      exact ih hs hp hrep
    rw [if_neg hdot, if_neg hdot]
    by_cases hdots : token = [0x2E, 0x2E]
    · rw [if_pos hdots, if_pos hdots]
      exact ih hs (hs.known_upPlace hp) hrep.up
    rw [if_neg hdots, if_neg hdots]
    have hfind : Looked s (s.finddir drv current token) (s.findPlace drv p token) :=
      finddir_looked hs hp hrep token
    generalize s.finddir drv current token = r at hfind ⊢
    cases hplace : s.findPlace drv p token with
    | none =>
      rw [hplace] at hfind
      obtain ⟨_ | _ | next, s₁⟩ := r
      · exact ⟨hfind.sound, hfind.step, (fun h => by cases h), (fun _ h => by cases h)⟩
      · exact ⟨hfind.sound, hfind.step, (fun h => by cases h), (fun _ h => by cases h)⟩
      · obtain ⟨p', hp', -⟩ := hfind.rep rfl
        cases hp'
    | some p' =>
      rw [hplace] at hfind
      have hknown := hs.known_findPlace hp hplace
      obtain ⟨_ | _ | next, s₁⟩ := r
      · refine ⟨hfind.sound, hfind.step, (fun h => by cases h), fun hmem _ => ?_⟩
        obtain ⟨id, hid⟩ := hfind.found hmem rfl
        cases hid
      · refine ⟨hfind.sound, hfind.step, (fun h => by cases h), fun hmem _ => ?_⟩
        obtain ⟨id, hid⟩ := hfind.found hmem rfl
        cases hid
      · obtain ⟨p'', hp'', hrep''⟩ := hfind.rep rfl
        obtain rfl := some.inj hp''
        have hknown₁ : s₁.Known p' := hfind.step.known hknown
        have hlater := ih hfind.sound (hfind.sound.known_enterPlace hknown₁) hrep''.enter
        have hext := hfind.step
        rw [hext.enterPlace hknown, hext.walkPlace hs (hs.known_enterPlace hknown)] at hlater
        refine ⟨hlater.sound, hext.trans hlater.step, hlater.rep, fun hmem => ?_⟩
        exact hlater.found (by rw [hext.memory]; exact hmem)

/-- The place that a path means. -/
def resolvePlace (drv : Drivers δ) (s : Sys δ) (path : List UInt8) : Option Place :=
  if path.head? = some 0x2F then
    match s.devices path with
    | some id => some (.node id)
    | none => s.walkPlace drv (.node (s.enter s.root)) ((path.drop 1).splitOn 0x2F)
  else none

lemma Sound.known_root (hs : Sound s) : s.Known (.node (s.enter s.root))
  := by
  obtain ⟨root, hroot, -⟩ := hs.root
  exact hs.enter_isSome (by rw [hroot]; rfl)

lemma Extends.resolvePlace (h : Extends s s') (hs : Sound s) (path : List UInt8) :
  s'.resolvePlace drv path = s.resolvePlace drv path
  := by
  obtain ⟨root, hroot, -⟩ := hs.root
  unfold Sys.resolvePlace
  rw [h.devices, h.root, h.enter (by rw [hroot]; rfl), h.walkPlace hs hs.known_root]

/-- Resolving a path ends at a node for the place that the path means. -/
lemma resolvePath_looked (hs : Sound s) (path : List UInt8) :
  Looked s (s.resolvePath drv path) (s.resolvePlace drv path)
  := by
  have hnull : Looked s (.null, s) none :=
    ⟨hs, refl s, (fun h => by cases h), (fun _ h => by cases h)⟩
  unfold resolvePath resolvePlace
  by_cases hroot : path.head? = some 0x2F
  · rw [if_pos hroot, if_pos hroot]
    cases s.devices path with
    | some id =>
      refine ⟨hs, refl s, fun h => ?_, fun _ _ => ⟨id, rfl⟩⟩
      obtain rfl := Result.node.inj h
      exact ⟨_, rfl, rfl⟩
    | none =>
      dsimp only
      by_cases hlen : path.length < 256
      · rw [if_pos hlen]
        exact walk_looked hs hs.known_root (show s.Rep _ (.node _) from rfl) _
      rw [if_neg hlen]
      unfold kmalloc
      cases hmem : s.memory s.allocations with
      | false =>
        refine ⟨hs.congr rfl rfl rfl rfl, extends_allocations s _ _, (fun h => by cases h), fun h => ?_⟩
        rw [h] at hmem
        cases hmem
      | true =>
        rw [if_pos rfl]
        dsimp only
        obtain ⟨s₁, hs₁⟩ : ∃ s₁, s₁ = { s with
          allocations := s.allocations + 1
          usedMemory := s.usedMemory + extent (path.length + 1) } := ⟨_, rfl⟩
        have hext : Extends s s₁ := hs₁ ▸ extends_allocations s _ _
        have hsound : Sound s₁ := hs₁ ▸ hs.congr rfl rfl rfl rfl
        have hstart : s₁.enter s₁.root = s.enter s.root := by rw [hs₁]; rfl
        rw [← hs₁]
        have hwalk : Looked s₁ (s₁.walk drv (s₁.enter s₁.root) ((path.drop 1).splitOn 0x2F))
            (s₁.walkPlace drv (.node (s₁.enter s₁.root)) ((path.drop 1).splitOn 0x2F)) :=
          walk_looked hsound hsound.known_root (show s₁.Rep _ (.node _) from rfl) _
        rw [hstart, hext.walkPlace hs hs.known_root] at hwalk
        rw [show s₁.enter s.root = s.enter s.root by rw [hs₁]; rfl]
        generalize s₁.walk drv (s.enter s.root) ((path.drop 1).splitOn 0x2F) = r at hwalk ⊢
        obtain ⟨r, s₂⟩ := r
        have hfree : Extends s₂ (s₂.kfree (path.length + 1)) := ⟨id, .inl, le_rfl, rfl, rfl, rfl, rfl, rfl, rfl⟩
        refine ⟨hwalk.sound.congr rfl rfl rfl rfl, (hext.trans hwalk.step).trans hfree, fun h => ?_, fun h => ?_⟩
        · obtain ⟨p, hp, hrep⟩ := hwalk.rep h
          exact ⟨p, hp, hfree.rep hrep⟩
        · exact hwalk.found (by rw [hext.memory]; exact h)
  · rw [if_neg hroot, if_neg hroot]
    exact hnull

/-! ### Changing the tree -/

/-- What a change of a node keeps. -/
structure Keeps (s : Sys δ) (d : ℕ) (n n' : Node) : Prop where
  isDir : n'.isDir = n.isDir
  parent : n'.parent = n.parent
  mounted (m : ℕ) : n'.mounted = some m → s.IsDir m
  child (c : ℕ) : c ∈ n'.children → ∃ node, s.nodes c = some node ∧ node.parent = some d
  nodup : n'.children.Nodup
  leaf : n.isDir = false → n'.children = []

lemma Sound.modify (hs : Sound s) {f : Node → Node} (hf : ∀ n, s.nodes d = some n → Keeps s d n (f n)) :
  Sound (s.setNode d ((s.nodes d).map f))
  := by
  have hnodes (x : ℕ) (n : Node) (hx : s.nodes x = some n) :
      ∃ n', (s.setNode d ((s.nodes d).map f)).nodes x = some n' ∧ n'.isDir = n.isDir ∧ n'.parent = n.parent := by
    by_cases hxd : x = d
    · subst hxd
      refine ⟨f n, (update_self ..).trans (by rw [hx]; rfl), (hf n hx).isDir, (hf n hx).parent⟩
    · exact ⟨n, (update_of_ne hxd ..).trans hx, rfl, rfl⟩
  have hcases (x : ℕ) (n' : Node) (hx : (s.setNode d ((s.nodes d).map f)).nodes x = some n') :
      s.nodes x = some n' ∨ x = d ∧ ∃ n, s.nodes x = some n ∧ Keeps s x n n' := by
    by_cases hxd : x = d
    · subst hxd
      have hself : (s.setNode x ((s.nodes x).map f)).nodes x = (s.nodes x).map f := update_self ..
      have hx' : (s.nodes x).map f = some n' := hself.symm.trans hx
      obtain ⟨n, hn, rfl⟩ := map_eq_some_iff.mp hx'
      exact .inr ⟨rfl, n, hn, hf n hn⟩
    · exact .inl ((update_of_ne hxd ..).symm.trans hx)
  have hdir {x : ℕ} (h : s.IsDir x) : (s.setNode d ((s.nodes d).map f)).IsDir x := by
    obtain ⟨n, hn, h⟩ := h
    obtain ⟨n', hn', hisDir, -⟩ := hnodes x n hn
    exact ⟨n', hn', hisDir.trans h⟩
  have hchild {x c : ℕ} (h : ∃ n, s.nodes c = some n ∧ n.parent = some x) :
      ∃ n, (s.setNode d ((s.nodes d).map f)).nodes c = some n ∧ n.parent = some x := by
    obtain ⟨n, hn, hp⟩ := h
    obtain ⟨n', hn', -, hparent⟩ := hnodes c n hn
    exact ⟨n', hn', hparent.trans hp⟩
  constructor
  · intro x hx
    cases hn : (s.setNode d ((s.nodes d).map f)).nodes x with
    | none => rfl
    | some n =>
      have hnone := hs.fresh hx
      rcases hcases x n hn with h | ⟨-, n', h, -⟩
      · rw [hnone] at h
        cases h
      · rw [hnone] at h
        cases h
  · exact hdir hs.root
  · intro x m n hn hm
    rcases hcases x n hn with h | ⟨-, n', -, hk⟩
    · exact hdir (hs.mounted h hm)
    · exact hdir (hk.mounted m hm)
  · intro x p n hn hp
    rcases hcases x n hn with h | ⟨-, n', h, hk⟩
    · exact hdir (hs.parent h hp)
    · exact hdir (hs.parent h (hk.parent ▸ hp))
  · intro x c n hn hc
    rcases hcases x n hn with h | ⟨-, n', -, hk⟩
    · exact hchild (hs.child h hc)
    · exact hchild (hk.child c hc)
  · intro x n hn
    rcases hcases x n hn with h | ⟨-, n', -, hk⟩
    · exact hs.nodup h
    · exact hk.nodup
  · intro x n hn hfile
    rcases hcases x n hn with h | ⟨-, n', -, hk⟩
    · exact hs.leaf h hfile
    · exact hk.leaf (hk.isDir ▸ hfile)
  · exact hs.devices

lemma Sound.addChild (hs : Sound s) (hd : s.IsDir d) (hparent : node.parent = some d)
    (hmounted : ∀ m, node.mounted = some m → s.IsDir m) (hchildren : node.children = []) :
  Sound (s.addChild d node)
  := by
  have hadd : Sound (s.addNode node) := by
    refine hs.addNode hmounted (fun p hp => ?_) hchildren
    obtain rfl : d = p := some.inj (hparent.symm.trans hp)
    exact hd
  obtain ⟨dir, hdir, hisDir⟩ := hd
  have hnew : (s.addNode node).nodes s.nextNode = some node := update_self ..
  refine hadd.modify fun n hn => ?_
  rw [hs.nodes_addNode hdir] at hn
  obtain rfl := some.inj hn
  rw [hdir, map_some]
  have hfresh : s.nextNode ∉ dir.children := by
    intro hmem
    obtain ⟨n, hn, -⟩ := hs.child hdir hmem
    rw [hs.fresh le_rfl] at hn
    cases hn
  refine ⟨rfl, rfl, fun m hm => hs.isDir_addNode (hs.mounted hdir hm), fun c hc => ?_, ?_, fun h => ?_⟩
  · rcases mem_append.mp hc with hc | hc
    · obtain ⟨n, hn, hp⟩ := hs.child hdir hc
      exact ⟨n, hs.nodes_addNode hn, hp⟩
    · rw [mem_singleton.mp hc]
      exact ⟨node, hnew, hparent⟩
  · refine nodup_append.mpr ⟨hs.nodup hdir, nodup_cons.mpr ⟨not_mem_nil, nodup_nil⟩, ?_⟩
    rintro c hc c' hc' rfl
    rw [mem_singleton.mp hc'] at hc
    exact hfresh hc
  · rw [hisDir] at h
    cases h

end Sys

end Vfs
