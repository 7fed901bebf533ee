import EquantOS.Fs.Fat32
import EquantOS.Fs.Ext2

/-!
# Mounting a second volume

`fs/fat32.c` and `fs/ext2.c` keep one volume each, and every call on a node goes to the device of this
volume.  An attempt of `fat32_mount_partition` that fails changes nothing, but one that succeeds redirects
the calls on the nodes of the volume that was mounted before.  `ext2_mount_partition` redirects them even
when it fails.
-/

open Function List Option

/-! ### Drivers with one volume -/

/-- The devices, the device of the mounted volume, and what else the driver knows. -/
structure Machine (σ : Type) where
  drives : ℕ → Disk
  dev : ℕ
  driver : σ

namespace Machine

variable {σ α ρ : Type}

/-- A call works on the device of the mounted volume. -/
def call (m : Machine σ) (f : σ → Disk → ρ × σ × Disk) : ρ × Machine σ :=
  ((f m.driver (m.drives m.dev)).1,
    { m with
      driver := (f m.driver (m.drives m.dev)).2.1
      drives := Function.update m.drives m.dev (f m.driver (m.drives m.dev)).2.2 })

/-- For all contents of the devices, every call returns the same and does the same to the devices; so it
reads and writes the same sectors. -/
def Isolated (f : α → σ → Disk → ρ × σ × Disk) (m m' : Machine σ) : Prop :=
  ∀ (drives : ℕ → Disk) (a : α),
    (call { m' with drives := drives } (f a)).1 = (call { m with drives := drives } (f a)).1
      ∧ (call { m' with drives := drives } (f a)).2.drives = (call { m with drives := drives } (f a)).2.drives

lemma Isolated.refl (f : α → σ → Disk → ρ × σ × Disk) (m : Machine σ) : Isolated f m m
  := fun _ _ => ⟨rfl, rfl⟩

/-- A call that puts a byte where the other volume would have left it shows that calls are redirected. -/
lemma not_isolated {f : α → σ → Disk → ρ × σ × Disk} {m m' : Machine σ} (d : Disk) (a : α) (x : ℕ)
    (hwrite : (f a m'.driver d).2.2 x ≠ d x)
    (hkeep : m'.dev = m.dev → (f a m.driver d).2.2 x = d x) :
  ¬ Isolated f m m'
  := by
  intro h
  have hdrives := congrFun (congrFun (h (fun _ => d) a).2 m'.dev) x
  simp only [call] at hdrives
  rw [update_self] at hdrives
  by_cases hdev : m'.dev = m.dev
  · rw [hdev, update_self] at hdrives
    exact hwrite (hdrives.trans (hkeep hdev))
  · rw [update_of_ne hdev] at hdrives
    exact hwrite hdrives

end Machine

/-! ### FAT32 -/

namespace Fat32

def callOn (a : Act) (s : Sys) (d : Disk) : Reply × Sys × Disk :=
  (({ s with disk := d }.call a).1, ({ s with disk := d }.call a).2, ({ s with disk := d }.call a).2.disk)

/-- `fat32_mount_partition`, and whether it succeeds. -/
def mountOn (m : Machine Sys) (dev partitionLba partitionSectors : ℕ) : Bool × Machine Sys :=
  match mountPartition (m.drives dev) partitionLba partitionSectors with
  | none => (false, m)
  | some s => (true, { m with dev := dev, driver := { s with nodes := m.driver.nodes ++ s.nodes } })

/-- A call on a node, or an attempt to mount a partition. -/
inductive Event where
  | call (a : Act)
  | mount (dev partitionLba partitionSectors : ℕ)

/-- An event, with what a call returns. -/
def event (m : Machine Sys) : Event → Option Reply × Machine Sys
  | .call a => (some (m.call (callOn a)).1, (m.call (callOn a)).2)
  | .mount dev partitionLba partitionSectors => (none, (mountOn m dev partitionLba partitionSectors).2)

/-- What the calls return, one after the other, and the state in the end. -/
def events : Machine Sys → List Event → List Reply × Machine Sys
  | m, [] => ([], m)
  | m, e :: es => ((event m e).1.toList ++ (events (event m e).2 es).1, (events (event m e).2 es).2)

/-- The calls among the events. -/
def calls : List Event → List Event
  | [] => []
  | .call a :: es => .call a :: calls es
  | .mount _ _ _ :: es => calls es

/-- None of the attempts succeeds. -/
def AttemptsFail : Machine Sys → List Event → Prop
  | _, [] => True
  | m, .call a :: es => AttemptsFail (m.call (callOn a)).2 es
  | m, .mount dev partitionLba partitionSectors :: es =>
    (mountOn m dev partitionLba partitionSectors).1 = false
      ∧ AttemptsFail (mountOn m dev partitionLba partitionSectors).2 es

variable {m : Machine Sys} {dev partitionLba partitionSectors : ℕ}

/-- An attempt that fails changes nothing. -/
lemma mountOn_of_fail (h : (mountOn m dev partitionLba partitionSectors).1 = false) :
  (mountOn m dev partitionLba partitionSectors).2 = m
  := by
  unfold mountOn at h ⊢
  cases hmount : mountPartition (m.drives dev) partitionLba partitionSectors with
  | none => rfl
  | some s =>
    rw [hmount] at h
    cases h

/-- Without a successful attempt the calls do what they do without any attempt. -/
lemma events_eq_calls {es : List Event} (h : AttemptsFail m es) : events m es = events m (calls es)
  := by
  induction es generalizing m with
  | nil => rfl
  | cons e es ih =>
    cases e with
    | call a =>
      have hrest := ih h
      simp only [events, calls, event] at hrest ⊢
      rw [hrest]
    | mount dev partitionLba partitionSectors =>
      obtain ⟨hfail, hrest⟩ := h
      have hsame := mountOn_of_fail hfail
      rw [hsame] at hrest
      simp only [events, event, hsame]
      exact ih hrest

/-- The first node is a root directory, and the volume has clusters of a positive size. -/
structure Ready (s : Sys) : Prop where
  root : ∃ root, s.nodes[0]? = some root ∧ root.ptr ≠ 0 ∧ root.parent = none
  sectors : 0 < s.vol.sectorsPerCluster
  bytes : 0 < s.vol.bytesPerSector

variable {s : Sys}

lemma Ready.clusterSize (h : Ready s) : 0 < s.vol.clusterSize
  := Nat.mul_pos h.sectors h.bytes

/-- A new node does not change the first one. -/
lemma Ready.addNode (h : Ready s) (n : Node) : Ready (s.addNode n)
  := by
  obtain ⟨root, hroot, hptr, hparent⟩ := h.root
  refine ⟨⟨root, ?_, hptr, hparent⟩, h.sectors, h.bytes⟩
  exact List.getElem?_append_left (List.getElem?_eq_some_iff.mp hroot).1 |>.trans hroot

/-- Only the volume and the nodes matter. -/
lemma Ready.of_fat (h : Ready s) {fat : Fat} (hvol : fat.vol = s.vol) :
  Ready { s with toFat := fat }
  := ⟨h.root, hvol ▸ h.sectors, hvol ▸ h.bytes⟩

lemma vol_initialCluster (s : Fat) (parentCluster : ℕ) (isDir mem : Bool) :
  (Sys.initialCluster s parentCluster isDir mem).2.vol = s.vol
  := by
  unfold Sys.initialCluster
  split
  · have halloc := Fat.vol_allocCluster s
    generalize s.allocCluster = r at halloc ⊢
    obtain ⟨_ | cluster, s'⟩ := r
    · exact halloc
    · dsimp only at halloc ⊢
      rw [← halloc, ← Fat.vol_setNextCluster s' cluster 0x0FFFFFFF]
      split
      · exact Fat.vol_writeCluster ..
      · rfl
  · rfl

lemma vol_createNew (s : Fat) (mem : Memory) (dir parentCluster : ℕ) (name : FileName) (isDir : Bool) :
  (Sys.createNew s mem dir parentCluster name isDir).2.vol = s.vol
  := by
  unfold Sys.createNew
  split
  · dsimp only
    have hplace := Fat.vol_placeLoop s (slotsNeeded name)
      (lastStart s.vol.entriesPerCluster (slotsNeeded name)) s.fuel parentCluster
    generalize s.placeLoop (slotsNeeded name) (lastStart s.vol.entriesPerCluster (slotsNeeded name)) s.fuel
      parentCluster = r at hplace ⊢
    obtain ⟨_ | _ | ⟨cluster, buf, slot⟩, s'⟩ := r
    · exact hplace
    · exact hplace
    · dsimp only at hplace ⊢
      have hinit := vol_initialCluster s' parentCluster isDir mem.dirData
      generalize Sys.initialCluster s' parentCluster isDir mem.dirData = r at hinit ⊢
      obtain ⟨_ | first, s''⟩ := r
      · exact hinit.trans hplace
      · exact (Fat.vol_writeCluster ..).trans (hinit.trans hplace)
  · rfl

lemma Ready.create (h : Ready s) (mem : Memory) (dir : ℕ) (name : FileName) (isDir : Bool) :
  Ready (s.create mem dir name isDir).2
  := by
  unfold Sys.create
  cases s.nodes[dir]? with
  | none => exact h
  | some parent =>
    dsimp only
    cases s.finddir mem.finddir dir name with
    | overflow => exact h
    | node n => exact h.addNode n
    | null =>
      have hvol := vol_createNew s.toFat mem dir parent.ptr name isDir
      generalize Sys.createNew s.toFat mem dir parent.ptr name isDir = r at hvol ⊢
      obtain ⟨_ | _ | n, fat⟩ := r
      · exact h.of_fat hvol
      · exact h.of_fat hvol
      · exact (h.of_fat hvol).addNode n

/-- If the first node changes it still is a root directory. -/
lemma Ready.setNode (h : Ready s) (i : ℕ) (n : Node) (hn : i = 0 → n.ptr ≠ 0 ∧ n.parent = none) :
  Ready { s with nodes := s.nodes.set i n }
  := by
  obtain ⟨root, hroot, hptr, hparent⟩ := h.root
  refine ⟨?_, h.sectors, h.bytes⟩
  by_cases h0 : i = 0
  · subst h0
    exact ⟨n, List.getElem?_set_self (List.getElem?_eq_some_iff.mp hroot).1, (hn rfl).1, (hn rfl).2⟩
  · exact ⟨root, (getElem?_set_ne h0).trans hroot, hptr, hparent⟩

lemma vol_updateDirEntry (s : Fat) (mem : Bool) (parentCluster : ℕ) (filename : FileName)
    (first size : ℕ) :
  (s.updateDirEntry mem parentCluster filename first size).vol = s.vol
  := by
  unfold Fat.updateDirEntry
  split
  · exact Fat.vol_updateLoop ..
  · rfl

lemma Ready.finishWrite (h : Ready s) (mem : Bool) (i : ℕ) (node : Node)
    (cluster offset written : ℕ) (hn : i = 0 → cluster ≠ 0 ∧ node.parent = none) :
  Ready (s.finishWrite mem i node cluster offset written)
  := by
  unfold Sys.finishWrite
  split
  · exact h.setNode i _ hn
  · exact (h.of_fat (vol_updateDirEntry ..)).setNode i _ hn

/-- The first node has a cluster already. -/
lemma Ready.headCluster (h : Ready s) {i : ℕ} {node : Node} (hi : s.nodes[i]? = some node) :
  Ready (s.headCluster i node).2
    ∧ (i = 0 → (s.headCluster i node).1 = some node.ptr ∧ node.ptr ≠ 0 ∧ node.parent = none)
  := by
  have hroot : i = 0 → node.ptr ≠ 0 ∧ node.parent = none := by
    rintro rfl
    obtain ⟨root, hroot, hptr⟩ := h.root
    obtain rfl := some.inj (hi.symm.trans hroot)
    exact hptr
  unfold Sys.headCluster
  by_cases hptr : node.ptr = 0
  · have hne : i ≠ 0 := fun h0 => (hroot h0).1 hptr
    rw [if_pos hptr]
    have hvol := Fat.vol_allocCluster s.toFat
    generalize s.toFat.allocCluster = r at hvol ⊢
    obtain ⟨_ | cluster, fat⟩ := r
    · exact ⟨h.of_fat hvol, fun h0 => absurd h0 hne⟩
    · refine ⟨?_, fun h0 => absurd h0 hne⟩
      exact (h.of_fat ((Fat.vol_setNextCluster ..).trans hvol)).setNode i _ fun h0 => absurd h0 hne
  · rw [if_neg hptr]
    exact ⟨h, fun h0 => ⟨rfl, hroot h0⟩⟩

lemma Ready.write (h : Ready s) (mem update : Bool) (i offset : ℕ) (data : List UInt8) :
  Ready (s.write mem update i offset data).2
  := by
  unfold Sys.write
  cases hi : s.nodes[i]? with
  | none => exact h
  | some node =>
    dsimp only
    obtain ⟨hready, hroot⟩ := h.headCluster hi
    generalize s.headCluster i node = r at hready hroot ⊢
    obtain ⟨_ | cluster, s'⟩ := r
    · exact hready
    dsimp only at hready hroot ⊢
    split
    · have hseek := Fat.vol_seek (offset / s'.vol.clusterSize) cluster s'.toFat
      generalize Fat.seek (offset / s'.vol.clusterSize) cluster s'.toFat = r at hseek ⊢
      obtain ⟨_ | current, fat⟩ := r
      · exact hready.of_fat hseek
      · refine (hready.of_fat ((Fat.vol_writeLoop ..).trans hseek)).finishWrite _ _ _ _ _ _ fun h0 => ?_
        obtain ⟨hcluster, hptr, hparent⟩ := hroot h0
        obtain rfl := some.inj hcluster
        exact ⟨hptr, hparent⟩
    · exact hready

lemma Ready.call (h : Ready s) (a : Act) : Ready (s.call a).2
  := by
  cases a with
  | finddir mem dir name =>
    simp only [Sys.call]
    cases s.finddir mem dir name with
    | null => exact h
    | overflow => exact h
    | node n => exact h.addNode n
  | create mem dir name isDir => exact h.create mem dir name isDir
  | write mem update i offset data => exact h.write mem update i offset data
  | read mem i offset size => exact h

/-- What the mounted volume has. -/
lemma mountPartition_ready {d : Disk} {partitionLba partitionSectors : ℕ}
    (h : mountPartition d partitionLba partitionSectors = some s) :
  Ready s
  := by
  unfold mountPartition at h
  generalize d.read partitionLba = bpb at h
  by_cases hbytes : Bytes.readLE bpb 11 2 ∉ [512, 1024, 2048, 4096]
  · rw [if_pos hbytes] at h
    cases h
  rw [if_neg hbytes] at h
  by_cases hsectors : Bytes.readLE bpb 13 1 &&& (Bytes.readLE bpb 13 1 - 1) ≠ 0 ∨ Bytes.readLE bpb 13 1 = 0
  · rw [if_pos hsectors] at h
    cases h
  rw [if_neg hsectors] at h
  by_cases hfats : Bytes.readLE bpb 14 2 = 0 ∨ Bytes.readLE bpb 16 1 = 0
  · rw [if_pos hfats] at h
    cases h
  rw [if_neg hfats] at h
  by_cases hroot : (if Bytes.readLE bpb 22 2 ≠ 0 then Bytes.readLE bpb 22 2 else Bytes.readLE bpb 36 4) = 0
      ∨ Bytes.readLE bpb 44 4 < 2
  · rw [if_pos hroot] at h
    cases h
  rw [if_neg hroot] at h
  obtain rfl := some.inj h
  have hmem := not_not.mp hbytes
  refine ⟨⟨_, rfl, ?_, rfl⟩, Nat.pos_of_ne_zero (not_or.mp hsectors).2, ?_⟩
  · dsimp only
    omega
  · simp only [mem_cons, not_mem_nil, or_false] at hmem
    dsimp only
    omega

/-- A volume is mounted, and nodes are added behind those that there are. -/
lemma mountOn_ready (hm : Ready m.driver) : Ready (mountOn m dev partitionLba partitionSectors).2.driver
  := by
  unfold mountOn
  cases hmount : mountPartition (m.drives dev) partitionLba partitionSectors with
  | none => exact hm
  | some s =>
    have hs := mountPartition_ready hmount
    obtain ⟨root, hroot, hptr⟩ := hm.root
    refine ⟨⟨root, ?_, hptr⟩, hs.sectors, hs.bytes⟩
    exact List.getElem?_append_left (List.getElem?_eq_some_iff.mp hroot).1 |>.trans hroot

/-- The first volume is mounted. -/
lemma mountOn_ready_first (hnodes : m.driver.nodes = [])
    (h : (mountOn m dev partitionLba partitionSectors).1) :
  Ready (mountOn m dev partitionLba partitionSectors).2.driver
  := by
  unfold mountOn at h ⊢
  cases hmount : mountPartition (m.drives dev) partitionLba partitionSectors with
  | none =>
    rw [hmount] at h
    cases h
  | some s =>
    have hs := mountPartition_ready hmount
    dsimp only
    rw [hnodes]
    exact hs

lemma callOn_ready (h : Ready s) (a : Act) (d : Disk) : Ready (callOn a s d).2.1
  := Ready.call (s := { s with disk := d }) ⟨h.root, h.sectors, h.bytes⟩ a

lemma events_ready {es : List Event} (hm : Ready m.driver) : Ready (events m es).2.driver
  := by
  induction es generalizing m with
  | nil => exact hm
  | cons e es ih =>
    cases e with
    | call a => exact ih (callOn_ready hm a _)
    | mount dev partitionLba partitionSectors => exact ih (mountOn_ready hm)

/-- Writing one byte at the beginning of a cluster. -/
lemma writeLoop_byte {s : Fat} (hsize : 0 < s.vol.clusterSize) (cluster : ℕ) (x : UInt8) :
  Fat.writeLoop 0 1 [x] 0 cluster s = (1, s.writeCluster cluster (Bytes.write (s.readCluster cluster) 0 [x]))
  := by
  have hoff : (0 + 0) % s.vol.clusterSize = 0 := Nat.zero_mod _
  have htake : [x].take (s.vol.clusterSize - 0) = [x] :=
    take_of_length_le (by rw [length_singleton]; omega)
  rw [Fat.writeLoop, if_neg (cons_ne_nil x []), hoff]
  dsimp only
  rw [htake]
  exact if_pos rfl

lemma writeCluster_byte {s : Fat} (hsectors : 0 < s.vol.sectorsPerCluster) (cluster : ℕ) (x : UInt8) :
  (s.writeCluster cluster (Bytes.write (s.readCluster cluster) 0 [x])).disk
    = update s.disk (512 * s.vol.clusterToLba cluster) x
  := by
  rw [Fat.writeCluster, Fat.disk_setDisk]
  generalize hlba : s.vol.clusterToLba cluster = lba
  funext a
  unfold Disk.write Fat.readCluster Disk.read
  by_cases ha : a = 512 * lba
  · subst ha
    rw [if_pos (by omega), Nat.sub_self, update_self]
    rfl
  rw [update_of_ne ha]
  split
  · rw [Bytes.write_of_le (by rw [length_singleton]; omega)]
    congr 1
    omega
  · rfl

/-- Writing a byte to the root directory puts it where its cluster is on the mounted volume. -/
lemma callOn_write_root (h : Ready s) {root : Node} (hroot : s.nodes[0]? = some root)
    (d : Disk) (x : UInt8) :
  (callOn (.write true true 0 0 [x]) s d).2.2 = update d (512 * s.vol.clusterToLba root.ptr) x
  := by
  obtain ⟨root', hroot', hptr, hparent⟩ := h.root
  obtain rfl := some.inj (hroot.symm.trans hroot')
  have hloop := @writeLoop_byte (s.toFat.setDisk d) h.clusterSize root.ptr x
  have hwrite := @writeCluster_byte (s.toFat.setDisk d) h.sectors root.ptr x
  simp only [callOn, Sys.call, Sys.write, hroot, Sys.headCluster, if_neg hptr]
  rw [Nat.zero_div]
  simp only [Fat.seek, length_singleton]
  rw [Fat.setDisk] at hloop
  rw [hloop]
  simp only [Sys.finishWrite, hparent]
  exact hwrite

/-- The cluster of the root directory of the first volume is at different places on the two volumes. -/
def Apart (m m' : Machine Sys) : Prop :=
  ∃ root, m.driver.nodes[0]? = some root
    ∧ (m'.dev ≠ m.dev ∨ m'.driver.vol.clusterToLba root.ptr ≠ m.driver.vol.clusterToLba root.ptr)

/-- An attempt to mount another volume leaves the calls on the nodes of the first one as they are exactly
if it fails. -/
lemma isolated_iff (hm : Ready m.driver)
    (hapart : (mountOn m dev partitionLba partitionSectors).1 →
      Apart m (mountOn m dev partitionLba partitionSectors).2) :
  Machine.Isolated callOn m (mountOn m dev partitionLba partitionSectors).2
    ↔ (mountOn m dev partitionLba partitionSectors).1 = false
  := by
  constructor
  · intro hiso
    by_contra hmount
    obtain ⟨root, hroot, hplace⟩ := hapart (by simpa using hmount)
    have hm' : Ready (mountOn m dev partitionLba partitionSectors).2.driver := mountOn_ready hm
    have hroot' : (mountOn m dev partitionLba partitionSectors).2.driver.nodes[0]? = some root := by
      unfold mountOn
      cases mountPartition (m.drives dev) partitionLba partitionSectors with
      | none => exact hroot
      | some s =>
        exact List.getElem?_append_left (List.getElem?_eq_some_iff.mp hroot).1 |>.trans hroot
    generalize (mountOn m dev partitionLba partitionSectors).2 = m' at hiso hplace hm' hroot'
    refine Machine.not_isolated (fun _ => 0) (.write true true 0 0 [1])
      (512 * m'.driver.vol.clusterToLba root.ptr) ?_ ?_ hiso
    · rw [callOn_write_root hm' hroot', update_self]
      decide
    · intro hdev
      rw [callOn_write_root hm hroot, update_of_ne (by omega)]
  · intro h
    rw [mountOn_of_fail h]
    exact Machine.Isolated.refl callOn m

end Fat32

/-! ### ext2 -/

namespace Ext2

/-- A call on a node, and which allocations of memory succeed in it. -/
def callOn (a : Act × (ℕ → Bool)) (s : State) (d : Disk) : Reply × State × Disk :=
  let s := { s with disk := d, memory := a.2, allocations := 0 }
  ((s.call a.1).1, (s.call a.1).2, (s.call a.1).2.disk)

/-- `ext2_mount_partition`: the `ptr` of the root directory, if it succeeds. -/
def mountOn (m : Machine State) (dev partitionLba : ℕ) : Option ℕ × Machine State :=
  let s := { m.driver with disk := m.drives dev }
  ((s.mountPartition partitionLba).1, { m with dev := dev, driver := (s.mountPartition partitionLba).2 })

/-- Whether it succeeds or not, the place of the partition changes. -/
lemma mountPartition_partitionLba (s : State) (partitionLba : ℕ) :
  (s.mountPartition partitionLba).2.vol.partitionLba = partitionLba
  := by
  unfold State.mountPartition
  dsimp only
  split
  · rfl
  · rfl

/-- Without memory an empty write only writes the superblock. -/
lemma callOn_write_empty (s : State) (d : Disk) :
  (callOn (.write 2 0 [], fun _ => false) s d).2.2
    = d.write ((s.vol.partitionLba + 2) % 2 ^ 32) 2 (Bytes.copy (fun _ => 0) 0 s.vol.sb superblockSize)
  := rfl

/-- Of two different pairs of sectors, the first has a sector that is not in the second. -/
lemma exists_sector {x x' : ℕ} (h : x' ≠ x) :
  ∃ a, 512 * x' ≤ a ∧ a < 512 * (x' + 2) ∧ ¬ (512 * x ≤ a ∧ a < 512 * (x + 2))
  := by
  by_cases hnext : x' = x + 1
  · exact ⟨512 * (x' + 1), by omega, by omega, by omega⟩
  · exact ⟨512 * x', by omega, by omega, by omega⟩

/-- No attempt to mount another partition leaves the calls on the nodes of the first one as they are. -/
lemma not_isolated_mountOn {m : Machine State} {dev partitionLba : ℕ}
    (h : dev ≠ m.dev ∨ (partitionLba + 2) % 2 ^ 32 ≠ (m.driver.vol.partitionLba + 2) % 2 ^ 32) :
  ¬ Machine.Isolated callOn m (mountOn m dev partitionLba).2
  := by
  obtain ⟨m', hm'⟩ : ∃ m', m' = (mountOn m dev partitionLba).2 := ⟨_, rfl⟩
  have hdev : m'.dev = dev := by rw [hm']; rfl
  have hlba : m'.driver.vol.partitionLba = partitionLba := by
    rw [hm']
    exact mountPartition_partitionLba ..
  rw [← hm']
  obtain ⟨a, hlow, hhigh, hother⟩ : ∃ a, 512 * ((partitionLba + 2) % 2 ^ 32) ≤ a
      ∧ a < 512 * ((partitionLba + 2) % 2 ^ 32 + 2)
      ∧ (dev = m.dev → ¬ (512 * ((m.driver.vol.partitionLba + 2) % 2 ^ 32) ≤ a
        ∧ a < 512 * ((m.driver.vol.partitionLba + 2) % 2 ^ 32 + 2))) := by
    rcases h with h | h
    · exact ⟨512 * ((partitionLba + 2) % 2 ^ 32), le_rfl, by omega, fun h' => absurd h' h⟩
    · obtain ⟨a, hlow, hhigh, hother⟩ := exists_sector h
      exact ⟨a, hlow, hhigh, fun _ => hother⟩
  -- the device is full of a byte that is not the one that is written at this address
  obtain ⟨v, hv⟩ : ∃ v, v = Bytes.copy (fun _ => 0) 0 m'.driver.vol.sb superblockSize
    (a - 512 * ((partitionLba + 2) % 2 ^ 32)) := ⟨_, rfl⟩
  obtain ⟨w, hw⟩ : ∃ w : UInt8, v ≠ w := by
    by_cases h0 : v = 0
    · exact ⟨1, by rw [h0]; decide⟩
    · exact ⟨0, h0⟩
  refine Machine.not_isolated (fun _ => w) (.write 2 0 [], fun _ => false) a ?_ ?_
  · rw [callOn_write_empty, hlba, Disk.write, if_pos ⟨hlow, hhigh⟩, ← hv]
    exact hw
  · intro hsame
    rw [callOn_write_empty, Disk.write, if_neg (hother (hdev.symm.trans hsame))]

end Ext2

/-! ### Isolation -/

/-- As long as the attempts to mount another FAT32 volume fail, the calls do what they do without them, and
at any time the next attempt keeps it so exactly if it fails.  With ext2 no attempt keeps it so. -/
theorem mounts_isolated (m m' m'' : Machine Fat32.Sys) (es : List Fat32.Event) (ext : Machine Ext2.State)
    (devA lbaA sectorsA devB lbaB sectorsB : ℕ) :
  (Fat32.AttemptsFail m es → Fat32.events m es = Fat32.events m (Fat32.calls es))
    ∧ (m.driver.nodes = [] → Fat32.mountOn m devA lbaA sectorsA = (true, m') → m'' = (Fat32.events m' es).2 →
        ((Fat32.mountOn m'' devB lbaB sectorsB).1 = true →
          Fat32.Apart m'' (Fat32.mountOn m'' devB lbaB sectorsB).2) →
        (Machine.Isolated Fat32.callOn m'' (Fat32.mountOn m'' devB lbaB sectorsB).2
          ↔ (Fat32.mountOn m'' devB lbaB sectorsB).1 = false))
    ∧ (devB ≠ ext.dev ∨ (lbaB + 2) % 2 ^ 32 ≠ (ext.driver.vol.partitionLba + 2) % 2 ^ 32 →
        ¬ Machine.Isolated Ext2.callOn ext (Ext2.mountOn ext devB lbaB).2)
  := by
  refine ⟨fun h => Fat32.events_eq_calls h, ?_, fun h => Ext2.not_isolated_mountOn h⟩
  intro hnodes hmount hevents hapart
  have hready : Fat32.Ready m'.driver := by
    have := Fat32.mountOn_ready_first hnodes (congrArg Prod.fst hmount)
    rwa [hmount] at this
  have hready'' : Fat32.Ready m''.driver := by
    rw [hevents]
    exact Fat32.events_ready hready
  exact Fat32.isolated_iff hready'' hapart

/-- A device with the boot sector of a FAT32 volume and nothing else. -/
def fatDrive : Disk :=
  Bytes.write (fun _ => 0) 11
    ([0, 2, 1, 32, 0, 2] ++ List.replicate 5 0 ++ [4, 0] ++ List.replicate 20 0 ++ [2])

/-- Devices 0 and 1 have FAT32 volumes, and the others are empty. -/
def twoDrives : ℕ → Disk := fun dev => if dev < 2 then fatDrive else fun _ => 0

/-- Nothing is mounted. -/
def fatMachine : Machine Fat32.Sys where
  drives := twoDrives
  dev := 0
  driver := ⟨⟨⟨0, 0, 0, 0, 0, 0, 0, 0, 0⟩, fun _ => 0, 2⟩, []⟩

/-- The volume on device 0 is mounted. -/
def fatMounted : Machine Fat32.Sys := (Fat32.mountOn fatMachine 0 0 100).2

/-- No partition has been mounted. -/
def ext2Machine : Machine Ext2.State where
  drives := fun _ _ => 0
  dev := 0
  driver := ⟨⟨0, 1024, 2, fun _ => 0, fun _ => 0⟩, 0, fun _ => 0, fun _ => true, 0, fun _ => 0⟩

lemma fatMounted_second : (Fat32.mountOn fatMounted 1 0 100).1
  := by
  decide

lemma fatMounted_apart : Fat32.Apart fatMounted (Fat32.mountOn fatMounted 1 0 100).2
  := ⟨_, rfl, Or.inl (by decide)⟩

/-- The empty device 2 cannot be mounted, and device 1 can.  ext2 finds nothing on device 1. -/
theorem fatMounted_isolated :
  Fat32.events fatMounted [.mount 2 0 100, .call (.finddir true 0 [])]
      = Fat32.events fatMounted [.call (.finddir true 0 [])]
    ∧ (Machine.Isolated Fat32.callOn fatMounted (Fat32.mountOn fatMounted 1 0 100).2
      ↔ (Fat32.mountOn fatMounted 1 0 100).1 = false)
    ∧ ¬ Machine.Isolated Ext2.callOn ext2Machine (Ext2.mountOn ext2Machine 1 0).2
  :=
  ⟨(mounts_isolated fatMounted fatMounted fatMounted [.mount 2 0 100, .call (.finddir true 0 [])] ext2Machine
      0 0 0 0 0 0).1 ⟨by decide, trivial⟩,
    (mounts_isolated fatMachine fatMounted fatMounted [] ext2Machine 0 0 100 1 0 100).2.1 rfl
      (Prod.ext (by decide) rfl) rfl (fun _ => fatMounted_apart),
    (mounts_isolated fatMachine fatMounted fatMounted [] ext2Machine 0 0 100 1 0 100).2.2
      (Or.inl (by decide))⟩

/-- After device 1 has been mounted, calls on the root directory of device 0 go to device 1.  The attempt to
mount an ext2 partition there fails, and still redirects the calls. -/
theorem second_mount_redirects :
  (Fat32.mountOn fatMounted 1 0 100).1 = true
    ∧ ¬ Machine.Isolated Fat32.callOn fatMounted (Fat32.mountOn fatMounted 1 0 100).2
    ∧ (Ext2.mountOn ext2Machine 1 0).1 = none
    ∧ ¬ Machine.Isolated Ext2.callOn ext2Machine (Ext2.mountOn ext2Machine 1 0).2
  := by
  refine ⟨fatMounted_second, fun h => ?_, by decide, Ext2.not_isolated_mountOn (Or.inl (by decide))⟩
  have hready : Fat32.Ready fatMounted.driver := Fat32.mountOn_ready_first rfl (by decide)
  have hfail := (Fat32.isolated_iff hready fun _ => fatMounted_apart).mp h
  cases hfail
