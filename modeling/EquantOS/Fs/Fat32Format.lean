import EquantOS.Fs.Fat32

/-!
# Formatting a FAT32 volume

`mkfs_fat32` cuts a partition into 32 reserved sectors, two tables and clusters of one sector.  The size of the
tables comes of one rounded division, which for some sizes of the partition leaves no room for the last clusters.
-/

namespace Fat32

open Bytes

open List

/-- The boot record that `mkfs_fat32` writes. -/
def vbr (startLba sectorCount fatSize : ℕ) (label : Option FileName) : ℕ → UInt8 :=
  write (write (fun _ => 0) 0
    ([0xEB, 0x58, 0x90, 0x4D, 0x53, 0x57, 0x49, 0x4E, 0x34, 0x2E, 0x31] ++ leBytes 512 2
      ++ 1 :: leBytes 32 2 ++ 2 :: leBytes 0 4 ++ 0xF8 :: leBytes 0 2 ++ leBytes 32 2 ++ leBytes 64 2
      ++ leBytes startLba 4 ++ leBytes sectorCount 4 ++ leBytes fatSize 4 ++ leBytes 0 4 ++ leBytes 2 4
      ++ leBytes 1 2 ++ leBytes 6 2 ++ leBytes 0 12 ++ [0x80, 0, 0x29] ++ leBytes 0x12345678 4
      ++ pad 11 (label.getD "EFI SYSTEM ".toUTF8.toList) ++ "FAT32   ".toUTF8.toList))
    510 [0x55, 0xAA]

/-- The sectors of one table, from the offset `fatStart` on. -/
def fatSectors (fatStart fatSize : ℕ) : List (ℕ × (ℕ → UInt8)) :=
  (fatStart, write (fun _ => 0) 0 (leBytes 0x0FFFFFF8 4 ++ leBytes 0x0FFFFFFF 4 ++ leBytes 0x0FFFFFFF 4))
    :: (range' 1 (fatSize - 1)).map fun s => (fatStart + s, fun _ => 0)

/-- What is written after the boot record, with the offsets in the partition. -/
def otherSectors (fatSize : ℕ) (boot info : ℕ → UInt8) : List (ℕ × (ℕ → UInt8)) :=
  [(6, boot), (1, info), (7, info)] ++ fatSectors 32 fatSize ++ fatSectors (32 + fatSize) fatSize
    ++ [(32 + 2 * fatSize, fun _ => 0)]

/-- What `mkfs_fat32` computes, and the sectors it writes. -/
structure Format where
  fatSizeSectors : ℕ
  totalClusters : ℕ
  firstDataSec : ℕ
  writes : List (ℕ × (ℕ → UInt8))

/-- `mkfs_fat32`; `mem` tells whether there is memory for its buffer. -/
def mkfsFat32 (mem : Bool) (startLba sectorCount : ℕ) (label : Option FileName) : Option Format :=
  let fatSize := ((sectorCount - 32) * 4 % 2 ^ 32 + 511) % 2 ^ 32 / 520
  let total := (sectorCount + 2 ^ 32 - (32 + 2 * fatSize)) % 2 ^ 32
  if sectorCount < 65536 ∨ total < 65525 ∨ mem = false then none
  else
    let boot := vbr startLba sectorCount fatSize label
    let info := [(0, 0x41615252), (484, 0x61417272), (488, total - 1), (492, 3), (508, 0xAA550000)].foldl
      (fun sec p => setField sec ⟨p.1, 4⟩ p.2) fun _ => 0
    some ⟨fatSize, total, (startLba + (32 + 2 * fatSize)) % 2 ^ 32, (startLba, boot) ::
      (otherSectors fatSize boot info).map fun w => ((startLba + w.1) % 2 ^ 32, w.2)⟩

def Format.disk (g : Format) (d : Disk) : Disk := g.writes.foldl (fun d w => d.write w.1 1 w.2) d

/-- The volume is laid out soundly, the writes stay inside, and mounting finds the same. -/
structure Format.Ok (g : Format) (startLba sectorCount : ℕ) (d : Disk) : Prop where
  room : g.totalClusters + 2 ≤ 128 * g.fatSizeSectors
  fits : 32 + 2 * g.fatSizeSectors + g.totalClusters ≤ sectorCount
  inside : ∀ w ∈ g.writes, startLba ≤ w.1 ∧ w.1 < startLba + sectorCount
  mounts : ∃ s, mountPartition (g.disk d) startLba sectorCount = some s
    ∧ s.vol.fatSizeSectors = g.fatSizeSectors ∧ startLba + s.vol.firstDataSector = g.firstDataSec
    ∧ s.vol.totalClusters = g.totalClusters

variable {startLba sectorCount fatSize : ℕ} {d : Disk}

lemma mem_otherSectors {w : ℕ × (ℕ → UInt8)} {boot info : ℕ → UInt8} (hpos : 0 < fatSize)
    (h : w ∈ otherSectors fatSize boot info) :
  0 < w.1 ∧ w.1 ≤ 32 + 2 * fatSize
  := by
  simp only [otherSectors, fatSectors, mem_append, mem_cons, mem_map, mem_range'_1, not_mem_nil,
    or_false] at h
  rcases h with (((rfl | rfl | rfl) | rfl | ⟨s, hs, rfl⟩) | rfl | ⟨s, hs, rfl⟩) | rfl
  all_goals
    dsimp only
    omega

lemma Format.read_disk {g : Format} {boot : ℕ → UInt8} {rest : List (ℕ × (ℕ → UInt8))} {k : ℕ}
    (hg : g.writes = (startLba, boot) :: rest) (h : ∀ w ∈ rest, startLba < w.1) (hk : k < 512) :
  (g.disk d).read startLba k = boot k
  := by
  rw [disk, hg, foldl_cons]
  apply foldlRecOn (motive := fun d : Disk => d.read startLba k = boot k)
  · exact Disk.read_write_self (by omega)
  · intro d hd w hw
    have hlt := h w hw
    rw [Disk.read_write_of_disjoint (by omega), hd]

/-- A volume with the boot record is mounted as it was made. -/
lemma mountPartition_vbr
    (label : Option FileName) (hbuf : ∀ k < 512, d.read startLba k = vbr startLba sectorCount fatSize label k)
    (hsc : sectorCount < 2 ^ 32) (hpos : 0 < fatSize) (hend : startLba + (32 + 2 * fatSize) < 2 ^ 32)
    (hle : 32 + 2 * fatSize ≤ sectorCount) :
  ∃ s, mountPartition d startLba sectorCount = some s ∧ s.vol.fatSizeSectors = fatSize
    ∧ startLba + s.vol.firstDataSector = (startLba + (32 + 2 * fatSize)) % 2 ^ 32
    ∧ s.vol.totalClusters = (sectorCount + 2 ^ 32 - (32 + 2 * fatSize)) % 2 ^ 32
  := by
  have hword {n : ℕ} (h : n < 2 ^ 32) : readLE (write (fun _ => 0) 0 (leBytes n 4)) 0 4 = n :=
    (holds_write _ 0 _).readLE h
  have hcount := hword hsc
  have hsize := hword (n := fatSize) (by omega)
  have hne : sectorCount ≠ 0 := by omega
  simp [readLE, write, leBytes] at hcount hsize
  simp [mountPartition, hbuf, vbr, readLE, write, leBytes, hcount, hsize, hne, hpos.ne']
  omega

/-- The arithmetic of the layout: if the tables have room and the last table ends below 2^32, nothing has wrapped
and the rounding was right. -/
lemma layout_of_room (hfat : fatSize = ((sectorCount - 32) * 4 % 2 ^ 32 + 511) % 2 ^ 32 / 520)
    (hsc : sectorCount < 2 ^ 32) (hlarge : 65536 ≤ sectorCount)
    (hroom : (sectorCount + 2 ^ 32 - (32 + 2 * fatSize)) % 2 ^ 32 + 2 ≤ 128 * fatSize) :
  (sectorCount - 32) * 4 + 511 < 2 ^ 32 ∧ (sectorCount + 95) % 130 < 126 ∧ fatSize = (sectorCount + 95) / 130
  := by
  rw [Nat.mod_eq_sub_mod (by omega), Nat.mod_eq_of_lt (by omega)] at hroom
  have hwrap : (sectorCount - 32) * 4 + 511 < 2 ^ 32 := by
    rcases Nat.lt_or_ge sectorCount (2 ^ 30 + 32) with hlt | hge
    · omega
    · omega
  omega

/-- The sectors behind the boot record lie in the partition, if no number wraps. -/
lemma rest_inside {w : ℕ × (ℕ → UInt8)} {boot info : ℕ → UInt8} (hpos : 0 < fatSize)
    (hlast : startLba + (32 + 2 * fatSize) < 2 ^ 32) (hle : 32 + 2 * fatSize < sectorCount)
    (hw : w ∈ (otherSectors fatSize boot info).map fun w => ((startLba + w.1) % 2 ^ 32, w.2)) :
  startLba < w.1 ∧ w.1 < startLba + sectorCount
  := by
  obtain ⟨v, hv, rfl⟩ := mem_map.mp hw
  have := mem_otherSectors hpos hv
  dsimp only
  omega

/-- The tables have room but for four remainders of the sectors, as long as nothing wraps; and then the volume is
sound in all. -/
theorem mkfs_ok_iff
    {mem : Bool} {label : Option FileName} {g : Format} (hstart : startLba < 2 ^ 32)
    (hsc : sectorCount < 2 ^ 32) (h : mkfsFat32 mem startLba sectorCount label = some g) (d : Disk) :
  g.Ok startLba sectorCount d ↔ (sectorCount - 32) * 4 + 511 < 2 ^ 32 ∧ (sectorCount + 95) % 130 < 126
    ∧ startLba + 32 + 2 * ((sectorCount + 95) / 130) < 2 ^ 32
  := by
  simp only [mkfsFat32, Option.ite_none_left_eq_some, Option.some.injEq] at h
  obtain ⟨hlarge, rfl⟩ := h
  set fatSize := ((sectorCount - 32) * 4 % 2 ^ 32 + 511) % 2 ^ 32 / 520 with hfat
  constructor
  · intro hok
    have hlast := hok.inside _ (mem_cons_of_mem _ (mem_map_of_mem mem_concat_self))
    obtain ⟨hwrap, hrem, hsize⟩ := layout_of_room hfat hsc (by omega) hok.room
    dsimp only at hlast
    exact ⟨hwrap, hrem, by omega⟩
  · rintro ⟨hwrap, hrem, hend⟩
    have hpos : 0 < fatSize := by omega
    have hle : 32 + 2 * fatSize < sectorCount := by omega
    have hlast : startLba + (32 + 2 * fatSize) < 2 ^ 32 := by omega
    refine ⟨by dsimp only; omega, by dsimp only; omega, ?_, ?_⟩
    · refine forall_mem_cons.mpr ⟨by dsimp only; omega, fun w hw => ?_⟩
      obtain ⟨hlo, hhi⟩ := rest_inside hpos hlast hle hw
      exact ⟨hlo.le, hhi⟩
    · apply mountPartition_vbr label _ hsc hpos hlast hle.le
      intro k hk
      apply Format.read_disk rfl _ hk
      exact fun w hw => (rest_inside hpos hlast hle hw).1

theorem mkfs_ok_small :
  ∃ g, mkfsFat32 true 2048 66590 none = some g ∧ g.Ok 2048 66590 fun _ => 0
  := by
  obtain ⟨g, hg⟩ : ∃ g, mkfsFat32 true 2048 66590 none = some g := ⟨_, rfl⟩
  exact ⟨g, hg, (mkfs_ok_iff (by decide) (by decide) hg _).mpr (by decide)⟩

/-- With one sector more, the tables have 65536 entries, and the 65535 clusters need 65537. -/
theorem mkfs_no_room :
  ∃ g, mkfsFat32 true 2048 66591 none = some g ∧ g.totalClusters = 65535 ∧ g.fatSizeSectors = 512
    ∧ 128 * g.fatSizeSectors < g.totalClusters + 2
  := ⟨_, rfl, by decide, by decide, by decide⟩

end Fat32
