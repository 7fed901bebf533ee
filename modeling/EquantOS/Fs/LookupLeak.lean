import EquantOS.Fs.Vfs

/-!
# The memory that lookups take

Every entry of a directory on a disk that is found becomes a new node, and no call frees it: neither the
resolution of a path nor `sys_close_handler` does.  So a sequence of lookups leaves `used_memory` as it is
exactly if none of them finds an entry on a disk.
-/

open Option

namespace Vfs

namespace Sys

variable {δ : Type} (drv : Drivers δ)

/-! ### Calls -/

/-- A call that looks up a path: `stat`, `access`, `chmod`, `chown`, or `open`; or a `close`. -/
inductive Lookup where
  | path (path : List UInt8)
  | openat (pid : ℕ) (path : List UInt8) (trunc append : Bool)
  | close (pid fd : ℕ)

/-- A call.  There is no state after a fault. -/
def lookupStep (s : Sys δ) : Lookup → Option (Sys δ)
  | .path path =>
    match s.resolvePath drv path with
    | (.fault, _) => none
    | (_, s) => some s
  | .openat pid path trunc append =>
    match s.resolvePath drv path with
    | (.fault, _) => none
    | _ => some (s.openat drv pid path trunc append).2
  | .close pid fd => some (s.close pid fd)

def lookups (s : Sys δ) : List Lookup → Option (Sys δ)
  | [] => some s
  | c :: cs => (s.lookupStep drv c).bind fun s => s.lookups cs

/-! ### Entries that are found -/

/-- The components lead to a directory on a disk that has the next component, and there is memory to find
it. -/
def Hits (s : Sys δ) (current : ℕ) : List Name → Prop
  | [] => False
  | token :: rest =>
    if token = [] ∨ token = [0x2E] then s.Hits current rest
    else if token = [0x2E, 0x2E] then s.Hits (((s.nodes current).bind Node.parent).getD current) rest
    else
      match s.nodes (s.enter current) with
      | none => False
      | some node =>
        if node.isDir then
          if node.driver = .ramfs then
            match s.findChild node.children token with
            | none => False
            | some c => s.Hits (s.enter c) rest
          else
            (drv.find s.disks node.driver node.ptr token).isSome = true
              ∧ s.memory s.allocations = true ∧ s.memory (s.allocations + 1) = true
        else False

/-- The same for a path. -/
def HitsPath (s : Sys δ) (path : List UInt8) : Prop :=
  path.head? = some 0x2F ∧ s.devices path = none
    ∧ if path.length < 256 then s.Hits drv (s.enter s.root) ((path.drop 1).splitOn 0x2F)
      else s.memory s.allocations = true
        ∧ (s.kmalloc (path.length + 1)).2.Hits drv (s.enter s.root) ((path.drop 1).splitOn 0x2F)

/-- A call finds an entry on a disk. -/
def Lookup.Hits (s : Sys δ) : Lookup → Prop
  | .path p => s.HitsPath drv p
  | .openat _ p _ _ => s.HitsPath drv p
  | .close _ _ => False

/-- None of the calls finds an entry on a disk. -/
def Quiet (s : Sys δ) : List Lookup → Prop
  | [] => True
  | c :: cs => ¬ c.Hits drv s ∧ ∀ s', s.lookupStep drv c = some s' → s'.Quiet cs

/-! ### What a walk takes -/

/-- An entry of a directory on a disk is found, with memory for its node. -/
def FindsEntry (drv : Drivers δ) (s : Sys δ) (node : Node) (name : Name) : Prop :=
  (drv.find s.disks node.driver node.ptr name).isSome = true
    ∧ s.memory s.allocations = true ∧ s.memory (s.allocations + 1) = true

/-- Finding an entry takes a node, and nothing else does. -/
lemma findEntry_cases (s : Sys δ) (dir : ℕ) (node : Node) (name : Name) :
  (FindsEntry drv s node name
      ∧ ∃ id s', s.findEntry drv dir node name = (.node id, s') ∧ s'.usedMemory = s.usedMemory + 256)
    ∨ (¬ FindsEntry drv s node name ∧ (∀ id, (s.findEntry drv dir node name).1 ≠ .node id)
      ∧ (s.findEntry drv dir node name).2.usedMemory = s.usedMemory)
  := by
  unfold FindsEntry findEntry buffers
  rcases hbuf : s.memory s.allocations with _ | _
  · right
    exact ⟨(fun h => by cases h.2.1), (fun id h => by cases h), rfl⟩
  dsimp only
  rcases hfind : drv.find s.disks node.driver node.ptr name with _ | e
  · right
    exact ⟨(fun h => by cases h.1), (fun id h => by cases h), rfl⟩
  dsimp only [kmalloc]
  rcases hnode : s.memory (s.allocations + 1) with _ | _
  · right
    refine ⟨(fun h => by cases h.2.2), fun id h => ?_, rfl⟩
    by_cases hiso : node.driver = .iso9660
    · simp [hiso] at h
    · simp [hiso] at h
  · left
    exact ⟨⟨rfl, rfl, rfl⟩, _, _, rfl, rfl⟩

/-- A walk frees nothing. -/
lemma usedMemory_le_walk (s : Sys δ) (current : ℕ) (tokens : List Name) :
  s.usedMemory ≤ (s.walk drv current tokens).2.usedMemory
  := by
  induction tokens generalizing s current with
  | nil => exact le_rfl
  | cons token rest ih =>
    unfold walk
    split
    · exact ih s current
    split
    · exact ih s _
    have hfind : s.usedMemory ≤ (s.finddir drv current token).2.usedMemory := by
      unfold finddir
      split
      · exact le_rfl
      split
      · split
        · split
          · exact le_rfl
          · exact le_rfl
        · rcases findEntry_cases drv s (s.enter current) _ token with ⟨-, id, s', h, hused⟩ | ⟨-, -, hused⟩
          · rw [h]
            exact hused ▸ Nat.le_add_right _ _
          · exact hused.ge
      · exact le_rfl
    generalize s.finddir drv current token = r at hfind ⊢
    obtain ⟨_ | _ | next, s'⟩ := r
    · exact hfind
    · exact hfind
    · exact hfind.trans (ih s' _)

/-- A walk takes memory exactly if it comes to an entry on a disk. -/
lemma walk_usedMemory_iff (s : Sys δ) (current : ℕ) (tokens : List Name) :
  (s.walk drv current tokens).2.usedMemory = s.usedMemory ↔ ¬ s.Hits drv current tokens
  := by
  induction tokens generalizing current with
  | nil => exact iff_of_true rfl id
  | cons token rest ih =>
    unfold walk Hits
    by_cases hdot : token = [] ∨ token = [0x2E]
    · rw [if_pos hdot, if_pos hdot]
      exact ih current
    rw [if_neg hdot, if_neg hdot]
    by_cases hdots : token = [0x2E, 0x2E]
    · rw [if_pos hdots, if_pos hdots]
      exact ih _
    rw [if_neg hdots, if_neg hdots]
    unfold finddir
    cases hnode : s.nodes (s.enter current) with
    | none => exact iff_of_true rfl id
    | some node =>
      dsimp only
      by_cases hdir : node.isDir
      · rw [if_pos hdir, if_pos hdir]
        by_cases hdriver : node.driver = .ramfs
        · rw [if_pos hdriver, if_pos hdriver]
          cases s.findChild node.children token with
          | none => exact iff_of_true rfl id
          | some c => exact ih (s.enter c)
        · rw [if_neg hdriver, if_neg hdriver]
          rcases findEntry_cases drv s (s.enter current) node token
            with ⟨hfinds, id, s', h, hused⟩ | ⟨hfinds, hnull, hused⟩
          · have hle := usedMemory_le_walk drv s' (s'.enter id) rest
            rw [h]
            refine iff_of_false ?_ (not_not_intro hfinds)
            dsimp only
            omega
          · refine iff_of_true ?_ hfinds
            generalize s.findEntry drv (s.enter current) node token = r at hnull hused ⊢
            obtain ⟨_ | _ | id, s'⟩ := r
            · exact hused
            · exact hused
            · exact absurd rfl (hnull id)
      · rw [if_neg hdir, if_neg hdir]
        exact iff_of_true rfl id

lemma resolvePath_usedMemory (s : Sys δ) (path : List UInt8) :
  s.usedMemory ≤ (s.resolvePath drv path).2.usedMemory
    ∧ ((s.resolvePath drv path).2.usedMemory = s.usedMemory ↔ ¬ s.HitsPath drv path)
  := by
  unfold resolvePath HitsPath
  by_cases hroot : path.head? = some 0x2F
  · rw [if_pos hroot]
    cases hdev : s.devices path with
    | some id => exact ⟨le_rfl, iff_of_true rfl fun h => by cases h.2.1⟩
    | none =>
      by_cases hlen : path.length < 256
      · rw [if_pos hlen, if_pos hlen]
        refine ⟨usedMemory_le_walk drv s _ _, (walk_usedMemory_iff drv s _ _).trans (not_congr ?_)⟩
        exact ⟨fun h => ⟨hroot, rfl, h⟩, fun h => h.2.2⟩
      rw [if_neg hlen, if_neg hlen]
      cases hmem : s.memory s.allocations with
      | false =>
        refine ⟨?_, iff_of_true ?_ fun h => by cases h.2.2.1⟩
        · simp [kmalloc, hmem]
        · simp [kmalloc, hmem]
      | true =>
        obtain ⟨s₁, hs₁⟩ : ∃ s₁, s.kmalloc (path.length + 1) = (true, s₁) := by
          unfold kmalloc
          rw [hmem]
          exact ⟨_, rfl⟩
        have hused : s₁.usedMemory = s.usedMemory + extent (path.length + 1) := by
          have := congrArg (fun r => r.2.usedMemory) hs₁
          simp only [kmalloc, hmem] at this
          exact this.symm
        have henter : s₁.enter s₁.root = s.enter s.root := by
          have := congrArg (fun r => r.2.enter r.2.root) hs₁
          simp only [kmalloc, hmem] at this
          exact this.symm
        rw [hs₁]
        dsimp only
        have hle := usedMemory_le_walk drv s₁ (s₁.enter s₁.root) ((path.drop 1).splitOn 0x2F)
        have hiff := walk_usedMemory_iff drv s₁ (s₁.enter s₁.root) ((path.drop 1).splitOn 0x2F)
        generalize s₁.walk drv (s₁.enter s₁.root) ((path.drop 1).splitOn 0x2F) = r at hle hiff ⊢
        rw [henter] at hiff
        dsimp only [kfree]
        constructor
        · omega
        · rw [show r.2.usedMemory - extent (path.length + 1) = s.usedMemory ↔ r.2.usedMemory = s₁.usedMemory by
            omega, hiff]
          exact not_congr ⟨fun h => ⟨hroot, rfl, rfl, h⟩, fun h => h.2.2.2⟩
  · rw [if_neg hroot]
    exact ⟨le_rfl, iff_of_true rfl fun h => hroot h.1⟩

/-! ### Sequences of lookups -/

lemma usedMemory_openat (s : Sys δ) (pid : ℕ) (path : List UInt8) (trunc append : Bool) :
  (s.openat drv pid path trunc append).2.usedMemory = (s.resolvePath drv path).2.usedMemory
  := by
  unfold openat
  generalize s.resolvePath drv path = r
  obtain ⟨_ | _ | id, s'⟩ := r
  · rfl
  · rfl
  · dsimp only
    unfold allocFd
    cases trunc
    · split <;> rfl
    · split <;> rfl

lemma lookupStep_usedMemory {s s' : Sys δ} {c : Lookup} (h : s.lookupStep drv c = some s') :
  s.usedMemory ≤ s'.usedMemory ∧ (s'.usedMemory = s.usedMemory ↔ ¬ c.Hits drv s)
  := by
  cases c with
  | path path =>
    have hpath := resolvePath_usedMemory drv s path
    simp only [lookupStep] at h
    generalize s.resolvePath drv path = r at h hpath
    obtain ⟨_ | _ | id, s₁⟩ := r
    · obtain rfl := some.inj h
      exact hpath
    · cases h
    · obtain rfl := some.inj h
      exact hpath
  | openat pid path trunc append =>
    have hpath := resolvePath_usedMemory drv s path
    have hopen := usedMemory_openat drv s pid path trunc append
    simp only [lookupStep] at h
    rw [← hopen] at hpath
    generalize s.resolvePath drv path = r at h
    obtain ⟨_ | _ | id, s₁⟩ := r
    · obtain rfl := some.inj h
      exact hpath
    · cases h
    · obtain rfl := some.inj h
      exact hpath
  | close pid fd =>
    obtain rfl := some.inj h
    exact ⟨le_rfl, iff_of_true rfl id⟩

/-- Lookups free nothing. -/
lemma usedMemory_le_lookups {s s' : Sys δ} {cs : List Lookup} (h : s.lookups drv cs = some s') :
  s.usedMemory ≤ s'.usedMemory
  := by
  induction cs generalizing s with
  | nil =>
    obtain rfl := some.inj h
    exact le_rfl
  | cons c cs ih =>
    obtain ⟨s₁, hstep, hrest⟩ := bind_eq_some_iff.mp h
    exact (lookupStep_usedMemory drv hstep).1.trans (ih hrest)

/-- A sequence of lookups leaves the used memory as it is exactly if none of them finds an entry on a disk. -/
theorem lookups_usedMemory_iff {s s' : Sys δ} {cs : List Lookup} (h : s.lookups drv cs = some s') :
  s'.usedMemory = s.usedMemory ↔ s.Quiet drv cs
  := by
  induction cs generalizing s with
  | nil =>
    obtain rfl := some.inj h
    exact iff_of_true rfl trivial
  | cons c cs ih =>
    obtain ⟨s₁, hstep, hrest⟩ := bind_eq_some_iff.mp h
    obtain ⟨hle, hiff⟩ := lookupStep_usedMemory drv hstep
    have hle' := usedMemory_le_lookups drv hrest
    constructor
    · intro heq
      refine ⟨hiff.mp (by omega), fun s₂ h₂ => ?_⟩
      obtain rfl := some.inj (hstep.symm.trans h₂)
      exact (ih hrest).mp (by omega)
    · rintro ⟨hquiet, hlater⟩
      exact ((ih hrest).mpr (hlater s₁ hstep)).trans (hiff.mpr hquiet)

end Sys

/-! ### A disk that is mounted -/

/-- A disk with a file `a`. -/
def oneFile : Drivers Unit where
  find _ _ _ name := if name = [0x61] then some ⟨false, 30, 5⟩ else none
  read _ _ _ _ := ((), [])
  write _ node _ _ := ((), none, node.ptr, node.length)

/-- The root directory of ramfs, in it the mount point `c`, and the root directory of a disk. -/
def cdrom : Sys Unit where
  nodes id :=
    if id = 0 then some ⟨[0x2F], true, .ramfs, none, none, 0, 0, some 0, [1]⟩
    else if id = 1 then some ⟨[0x63], true, .ramfs, some 2, none, 0, 0, some 0, []⟩
    else if id = 2 then some ⟨[0x2F], true, .iso9660, none, none, 20, 2048, none, []⟩
    else none
  nextNode := 3
  root := 0
  devices _ := none
  data _ := ⟨0, 0, fun _ => 0⟩
  files _ := none
  offsets _ := 0
  append _ := false
  disks := ()
  usedMemory := 768
  memory _ := true
  allocations := 0
  heap _ _ := 0

/-- A lookup of `/c/b`, which is not there, takes no memory; that of `/c/a` after it finds an entry. -/
theorem cdrom_quiet :
  cdrom.Quiet oneFile [.path [0x2F, 0x63, 0x2F, 0x62]]
    ∧ ¬ cdrom.Quiet oneFile [.path [0x2F, 0x63, 0x2F, 0x62], .path [0x2F, 0x63, 0x2F, 0x61]]
  := by
  constructor
  · have hmiss : ∃ s, cdrom.lookups oneFile [.path [0x2F, 0x63, 0x2F, 0x62]] = some s
        ∧ s.usedMemory = cdrom.usedMemory := ⟨_, rfl, rfl⟩
    obtain ⟨s, hs, hused⟩ := hmiss
    exact (Sys.lookups_usedMemory_iff oneFile hs).mp hused
  · have hfound : ∃ s, cdrom.lookups oneFile [.path [0x2F, 0x63, 0x2F, 0x62], .path [0x2F, 0x63, 0x2F, 0x61]] = some s
        ∧ s.usedMemory = cdrom.usedMemory + 256 := ⟨_, rfl, rfl⟩
    obtain ⟨s, hs, hused⟩ := hfound
    intro hquiet
    have := (Sys.lookups_usedMemory_iff oneFile hs).mpr hquiet
    omega

/-- `/c/a` is opened and closed, and takes 256 bytes. -/
theorem cdrom_leak :
  ∃ s, cdrom.lookups oneFile [.openat 1 [0x2F, 0x63, 0x2F, 0x61] false false, .close 1 3] = some s
    ∧ s.files (1, 3) = none ∧ s.usedMemory = cdrom.usedMemory + 256
  := ⟨_, rfl, rfl, rfl⟩

end Vfs
