import EquantOS.Fs.Places
import Mathlib.Tactic.IntervalCases

/-!
# Calls that add to the tree

What the calls keep that make files, directories and links: nodes stay where they are in the tree, and new
ones come.
-/

open Function List Option

namespace Vfs

/-- The node is at the same place in the tree. -/
structure Node.Same (n n' : Node) : Prop where
  name : n'.name = n.name
  isDir : n'.isDir = n.isDir
  driver : n'.driver = n.driver
  mounted : n'.mounted = n.mounted
  fdata : n'.fdata = n.fdata
  parent : n'.parent = n.parent
  children : n.children <+: n'.children

lemma Node.Same.refl (n : Node) : n.Same n
  := ⟨rfl, rfl, rfl, rfl, rfl, rfl, prefix_refl _⟩

lemma Node.Same.trans {n n' n'' : Node} (h : n.Same n') (h' : n'.Same n'') : n.Same n''
  :=
  ⟨h'.name.trans h.name, h'.isDir.trans h.isDir, h'.driver.trans h.driver, h'.mounted.trans h.mounted,
    h'.fdata.trans h.fdata, h'.parent.trans h.parent, h.children.trans h'.children⟩

namespace Sys

variable {δ : Type} {drv : Drivers δ} {s s' s'' : Sys δ} {d : ℕ} {n n' node : Node}

/-- The nodes stay where they are, and new ones come. -/
structure Grows (s s' : Sys δ) : Prop where
  nodes {x : ℕ} {n : Node} : s.nodes x = some n → ∃ n', s'.nodes x = some n' ∧ n.Same n'
  nextNode : s.nextNode ≤ s'.nextNode
  root : s'.root = s.root
  devices : s'.devices = s.devices

lemma Grows.trans (h : Grows s s') (h' : Grows s' s'') : Grows s s''
  := by
  refine ⟨fun hn => ?_, h.nextNode.trans h'.nextNode, h'.root.trans h.root, h'.devices.trans h.devices⟩
  obtain ⟨n', hn', hsame⟩ := h.nodes hn
  obtain ⟨n'', hn'', hsame'⟩ := h'.nodes hn'
  exact ⟨n'', hn'', hsame.trans hsame'⟩

/-- A sound state after which a sound state grows. -/
structure Kept (s s' : Sys δ) : Prop where
  sound : Sound s'
  grows : Grows s s'

open Kept

lemma Kept.trans (h : Kept s s') (h' : Kept s' s'') : Kept s s''
  := ⟨h'.sound, h.grows.trans h'.grows⟩

lemma Kept.of_eq (hs : Sound s) (hnodes : s'.nodes = s.nodes) (hnext : s'.nextNode = s.nextNode)
    (hroot : s'.root = s.root) (hdevices : s'.devices = s.devices) :
  Kept s s'
  := by
  refine ⟨hs.congr hnodes hnext hroot hdevices, fun hn => ⟨_, ?_, Node.Same.refl _⟩, hnext.ge, hroot, hdevices⟩
  rw [hnodes]
  exact hn

lemma Kept.refl (hs : Sound s) : Kept s s
  := of_eq hs rfl rfl rfl rfl

section

variable (hs : Sound s)

include hs

lemma Kept.addChild (hd : s.IsDir d) (hparent : node.parent = some d)
    (hmounted : ∀ m, node.mounted = some m → s.IsDir m) (hchildren : node.children = []) :
  Kept s (s.addChild d node)
  := by
  refine ⟨hs.addChild hd hparent hmounted hchildren, fun {x} {n} hn => ?_, Nat.le_succ _, rfl, rfl⟩
  by_cases hx : x = d
  · subst hx
    refine ⟨{ n with children := n.children ++ [s.nextNode] }, ?_, ?_⟩
    · refine (update_self ..).trans ?_
      rw [hs.nodes_addNode hn, hn]
      rfl
    · exact ⟨rfl, rfl, rfl, rfl, rfl, rfl, prefix_append _ _⟩
  · exact ⟨n, (update_of_ne hx ..).trans (hs.nodes_addNode hn), Node.Same.refl n⟩

lemma kmalloc_kept (size : ℕ) : Kept s (s.kmalloc size).2
  := by
  unfold kmalloc
  split
  · exact of_eq hs rfl rfl rfl rfl
  · exact of_eq hs rfl rfl rfl rfl

lemma kfree_kept (size : ℕ) : Kept s (s.kfree size)
  := of_eq hs rfl rfl rfl rfl

end

lemma Kept.isDir (h : Kept s s') (hd : s.IsDir d) : s'.IsDir d
  := by
  obtain ⟨n, hn, hdir⟩ := hd
  obtain ⟨n', hn', hsame⟩ := h.grows.nodes hn
  exact ⟨n', hn', hsame.isDir.trans hdir⟩

section

variable (hs : Sound s)

include hs

lemma createFile_kept (hd : s.IsDir d) (name : Name) : Kept s (s.createFile d name).2
  := by
  unfold createFile
  have h := kmalloc_kept hs nodeSize
  generalize s.kmalloc nodeSize = r at h ⊢
  obtain ⟨_ | _, s₁⟩ := r
  · exact h
  dsimp only
  have h₁ := kmalloc_kept h.sound 16
  generalize s₁.kmalloc 16 = r at h₁ ⊢
  obtain ⟨_ | _, s₂⟩ := r
  · exact (h.trans h₁).trans (kfree_kept h₁.sound nodeSize)
  dsimp only
  obtain ⟨data, hdata⟩ : ∃ data, data = update s₂.data s₂.nextNode ⟨0, 0, fun _ => 0⟩ := ⟨_, rfl⟩
  have h₂ : Kept s₂ { s₂ with data := data } := of_eq h₁.sound rfl rfl rfl rfl
  have hkept := (h.trans h₁).trans h₂
  rw [← hdata]
  exact hkept.trans (Kept.addChild h₂.sound (hkept.isDir hd) rfl (fun m h => by cases h) rfl)

lemma createDirectory_kept (hd : s.IsDir d) (name : Name) :
  Kept s (s.createDirectory d name).2
  := by
  unfold createDirectory
  split
  · exact refl hs
  split
  · exact refl hs
  · have h := kmalloc_kept hs nodeSize
    generalize s.kmalloc nodeSize = r at h ⊢
    obtain ⟨_ | _, s₁⟩ := r
    · exact h
    · exact h.trans (Kept.addChild h.sound (h.isDir hd) rfl (fun m h => by cases h) rfl)

lemma linkNode_kept {old : ℕ} (hold : (s.nodes old).map Node.isDir = some false)
    (hd : s.IsDir d) (name : Name) :
  Kept s (s.linkNode old d name)
  := by
  obtain ⟨node, hnode, hfile⟩ := map_eq_some_iff.mp hold
  have hd' := hd
  obtain ⟨dir, hdir, -⟩ := hd'
  unfold linkNode
  rw [hnode, hdir]
  have h := kmalloc_kept hs nodeSize
  generalize s.kmalloc nodeSize = r at h ⊢
  obtain ⟨_ | _, s₁⟩ := r
  · exact h
  · have hchildren : node.children = [] := hs.leaf hnode hfile
    exact h.trans (Kept.addChild h.sound (h.isDir hd) rfl (fun m hm => h.isDir (hs.mounted hnode hm)) hchildren)

end

end Sys

/-! ### A tree with open files -/

/-- The root directory of ramfs, in it the mount point `c` of a disk and the files `a` and `b`. -/
def homeNodes : List Node :=
  [⟨[0x2F], true, .ramfs, none, none, 0, 0, some 0, [1, 3, 4]⟩,
    ⟨[0x63], true, .ramfs, some 2, none, 0, 0, some 0, []⟩,
    ⟨[0x2F], true, .fat32, none, none, 2, 0, none, []⟩,
    ⟨[0x61], false, .ramfs, none, some 3, 0, 0, some 0, []⟩,
    ⟨[0x62], false, .ramfs, none, some 4, 0, 0, some 0, []⟩]

/-- A process has the file `a` open. -/
def home : Sys Unit where
  nodes id := homeNodes[id]?
  nextNode := 5
  root := 0
  devices _ := none
  data _ := ⟨0, 0, fun _ => 0⟩
  files slot := if slot = (1, 3) then some 3 else none
  offsets _ := 0
  append _ := false
  disks := ()
  usedMemory := 1280
  memory _ := true
  allocations := 0
  heap _ _ := 0

/-- A disk with a file `d`. -/
def homeDisk : Drivers Unit where
  find _ _ _ name := if name = [0x64] then some ⟨false, 30, 5⟩ else none
  read _ _ _ _ := ((), [])
  write _ node _ _ := ((), none, node.ptr, node.length)

lemma home_lt {id : ℕ} (h : home.nodes id = some node) : id < 5
  := by
  obtain ⟨hlt, -⟩ := List.getElem?_eq_some_iff.mp h
  exact hlt

lemma home_sound : home.Sound
  := by
  have hnodes : ∀ node ∈ homeNodes, (node.mounted = none ∨ node.mounted = some 2)
      ∧ (node.parent = none ∨ node.parent = some 0) ∧ node.children.Nodup
      ∧ (node.isDir = false → node.children = []) := by decide
  have hpoint {f : Node → Option ℕ} {node : Node} {d x : ℕ} (h : f node = none ∨ f node = some d)
      (hx : f node = some x) : x = d := by
    rcases h with h | h
    · cases h.symm.trans hx
    · exact some.inj (hx.symm.trans h)
  constructor
  · intro id hid
    exact getElem?_eq_none hid
  · exact ⟨_, rfl, rfl⟩
  · intro id m node hnode hm
    rw [hpoint (hnodes node (mem_of_getElem? hnode)).1 hm]
    exact ⟨_, rfl, rfl⟩
  · intro id p node hnode hp
    rw [hpoint (hnodes node (mem_of_getElem? hnode)).2.1 hp]
    exact ⟨_, rfl, rfl⟩
  · intro d c dir hd hc
    have hid := home_lt hd
    have hchildren : (home.nodes d).map Node.children = some dir.children := by rw [hd]; rfl
    interval_cases d
    · rw [← some.inj hchildren] at hc
      rcases mem_cons.mp hc with rfl | hc
      · exact ⟨_, rfl, rfl⟩
      rcases mem_cons.mp hc with rfl | hc
      · exact ⟨_, rfl, rfl⟩
      · rw [mem_singleton.mp hc]
        exact ⟨_, rfl, rfl⟩
    all_goals
      rw [← some.inj hchildren] at hc
      cases hc
  · intro d dir hd
    exact (hnodes dir (mem_of_getElem? hd)).2.2.1
  · intro id node hnode
    exact (hnodes node (mem_of_getElem? hnode)).2.2.2
  · intro path id h
    cases h

end Vfs
