import EquantOS.Fs.FileCalls

/-!
# Removing a file

What `sys_unlinkat_handler` does to the paths of a sound tree.  It takes the node out of the list of its
directory and frees it; for a file on a disk there is no such list, and nothing happens.  After the call
no path for the file leads anywhere, every path that does not lead through the file means what it meant,
and every descriptor has its node, exactly if the file is in the list of its directory, no descriptor is open
on it, and no other file of the directory has its name.
-/

open Function List Option

namespace Vfs

open Sys

/-- The place is not the node, and not below it. -/
def Place.Avoids (id : ℕ) : Place → Prop
  | .node x => x ≠ id
  | .entry _ _ dir => dir.Avoids id

lemma find?_erase_of_ne {α : Type} [DecidableEq α] {l : List α} {q : α → Bool} {a : α}
    (h : l.find? q ≠ some a) :
  (l.erase a).find? q = l.find? q
  := by
  induction l with
  | nil => rfl
  | cons b l ih =>
    by_cases hq : q b
    · rw [find?_cons_of_pos hq] at h ⊢
      have hne : ¬ (b == a) := fun hba => h (congrArg some (beq_iff_eq.mp hba))
      rw [erase_cons_tail hne, find?_cons_of_pos hq]
    rw [find?_cons_of_neg hq] at h ⊢
    by_cases hba : b = a
    · subst hba
      rw [erase_cons_head]
    · rw [erase_cons_tail (by simpa using hba), find?_cons_of_neg hq, ih h]

lemma not_mem_of_mem_splitOn {α : Type} [DecidableEq α] {a : α} {l token : List α}
    (h : token ∈ l.splitOn a) :
  a ∉ token
  := by
  induction l generalizing token with
  | nil =>
    rw [splitOn_nil, mem_singleton] at h
    rw [h]
    exact not_mem_nil
  | cons b l ih =>
    rw [splitOn_cons_eq_if_modifyHead] at h
    split at h
    · rcases mem_cons.mp h with rfl | h
      · exact not_mem_nil
      · exact ih h
    rename_i hb
    cases hl : l.splitOn a with
    | nil => exact absurd hl (splitOn_ne_nil a l)
    | cons first rest =>
      rw [hl] at h
      rcases mem_cons.mp h with rfl | h
      · intro hmem
        rcases mem_cons.mp hmem with rfl | hmem
        · exact hb (beq_self_eq_true a)
        · exact ih (hl ▸ mem_cons_self) hmem
      · exact ih (hl ▸ mem_cons_of_mem _ h)

namespace Sys

variable {δ : Type} {drv : Drivers δ} {s : Sys δ} {p p' : Place} {d id x : ℕ} {n : Node} {tokens : List Name}
  {path : List UInt8}

/-! ### Places that avoid a file -/

section

variable {id : ℕ} (hs : Sound s) (hid : ¬ s.IsDir id)

include hs

lemma enter_eq_self_or_isDir (hx : (s.nodes x).isSome) : s.enter x = x ∨ s.IsDir (s.enter x)
  := by
  obtain ⟨n, hn⟩ := isSome_iff_exists.mp hx
  rw [enter, hn, bind_some]
  cases hm : n.mounted with
  | none => exact .inl rfl
  | some m => exact .inr (hs.mounted hn hm)

include hid

/-- What is mounted somewhere is a directory. -/
lemma enter_ne (hx : (s.nodes x).isSome) (h : s.enter id = id → x ≠ id) : s.enter x ≠ id
  := by
  intro he
  rcases enter_eq_self_or_isDir hs hx with h' | h'
  · rw [h'] at he
    subst he
    exact h h' rfl
  · exact hid (he ▸ h')

lemma avoids_enterPlace (hp : s.Known p) (ha : p.Avoids id) : (s.enterPlace p).Avoids id
  := by
  cases p with
  | node x => exact enter_ne hs hid hp fun _ => ha
  | entry driver e d => exact ha

lemma avoids_upPlace (hp : s.Known p) (ha : p.Avoids id) : (s.upPlace p).Avoids id
  := by
  cases p with
  | node x =>
    obtain ⟨n, hn⟩ := isSome_iff_exists.mp hp
    simp only [upPlace, hn, bind_some]
    cases hparent : n.parent with
    | none => exact ha
    | some d =>
      rintro rfl
      exact hid (hs.parent hn hparent)
  | entry driver e d =>
    simp only [upPlace]
    split
    · exact ha
    · exact ha

lemma avoids_findPlace (hp : s.Known p) (ha : p.Avoids id) {name : Name}
    (h : s.findPlace drv p name = some p') :
  p'.Avoids id ∨ p' = .node id
  := by
  cases p with
  | node x =>
    simp only [findPlace] at h
    cases hn : s.nodes (s.enter x) with
    | none =>
      rw [hn] at h
      cases h
    | some n =>
      rw [hn] at h
      dsimp only at h
      split at h
      · split at h
        · obtain ⟨c, -, rfl⟩ := map_eq_some_iff.mp h
          by_cases hc : c = id
          · exact .inr (congrArg _ hc)
          · exact .inl hc
        · obtain ⟨e, -, rfl⟩ := map_eq_some_iff.mp h
          exact .inl (enter_ne hs hid hp fun _ => ha)
      · cases h
  | entry driver e d =>
    simp only [findPlace] at h
    split at h
    · obtain ⟨e', -, rfl⟩ := map_eq_some_iff.mp h
      exact .inl ha
    · cases h

lemma avoids_root : (Place.node (s.enter s.root)).Avoids id
  := by
  obtain ⟨root, hroot, hdir⟩ := hs.root
  have hne : s.root ≠ id := by
    rintro rfl
    exact hid hs.root
  exact enter_ne hs hid (by rw [hroot]; rfl) fun _ => hne

/-- A path does not end at a file that is a mount point. -/
lemma enter_eq_of_walkPlace (hp : s.Known p) (ha : p.Avoids id)
    (h : s.walkPlace drv p tokens = some (.node id)) :
  s.enter id = id
  := by
  by_contra hmounted
  induction tokens generalizing p with
  | nil =>
    obtain rfl := some.inj h
    exact ha rfl
  | cons token rest ih =>
    unfold walkPlace at h
    split at h
    · exact ih hp ha h
    split at h
    · exact ih (hs.known_upPlace hp) (avoids_upPlace hs hid hp ha) h
    split at h
    · cases h
    rename_i p' hp'
    have hknown := hs.known_findPlace hp hp'
    refine ih (hs.known_enterPlace hknown) ?_ h
    rcases avoids_findPlace hs hid hp ha hp' with ha' | rfl
    · exact avoids_enterPlace hs hid hknown ha'
    · exact hmounted

end

/-! ### The tree without the file -/

/-- The file is in the list of its directory. -/
structure Listed (s : Sys δ) (id par : ℕ) (node dir : Node) : Prop where
  file : s.nodes id = some node
  isFile : node.isDir = false
  unmounted : node.mounted = none
  parent : node.parent = some par
  directory : s.nodes par = some dir
  mem : id ∈ dir.children

section

variable {id par : ℕ} {node dir : Node} (hs : Sound s) (hf : Listed s id par node dir)

include hf

lemma Listed.not_isDir : ¬ s.IsDir id
  := by
  rintro ⟨n, hn, hdir⟩
  rw [hf.file] at hn
  obtain rfl := some.inj hn
  rw [hf.isFile] at hdir
  cases hdir

include hs

lemma Listed.par_isDir : s.IsDir par
  := hs.parent hf.file hf.parent

lemma Listed.par_ne : par ≠ id
  := by
  rintro rfl
  exact hf.not_isDir (hf.par_isDir hs)

omit hs in
lemma Listed.unlinkNode_eq :
  s.unlinkNode id = ((s.setChildren par (dir.children.erase id)).setNode id none).kfree nodeSize
  := by
  unfold unlinkNode
  rw [hf.file, bind_some, hf.parent]
  dsimp only
  rw [hf.directory, map_some]
  dsimp only
  rw [if_pos hf.mem]

omit hs in
lemma Listed.nodes_self : (s.unlinkNode id).nodes id = none
  := by
  rw [hf.unlinkNode_eq]
  exact update_self ..

lemma Listed.nodes_par :
  (s.unlinkNode id).nodes par = some { dir with children := dir.children.erase id }
  := by
  rw [hf.unlinkNode_eq]
  refine (update_of_ne (hf.par_ne hs) ..).trans ?_
  refine (update_self ..).trans ?_
  rw [hf.directory]
  rfl

omit hs in
lemma Listed.nodes_other (hid : x ≠ id) (hpar : x ≠ par) :
  (s.unlinkNode id).nodes x = s.nodes x
  := by
  rw [hf.unlinkNode_eq]
  exact (update_of_ne hid ..).trans (update_of_ne hpar ..)

omit hs in
lemma Listed.fields :
  (s.unlinkNode id).root = s.root ∧ (s.unlinkNode id).disks = s.disks
    ∧ (s.unlinkNode id).devices = s.devices ∧ (s.unlinkNode id).nextNode = s.nextNode
    ∧ (s.unlinkNode id).files = s.files
  := by
  rw [hf.unlinkNode_eq]
  exact ⟨rfl, rfl, rfl, rfl, rfl⟩

/-- Only the list of the directory changes. -/
lemma Listed.nodes_unlinkNode (hid : x ≠ id) (hn : s.nodes x = some n) :
  (s.unlinkNode id).nodes x = some { n with children := n.children.erase id }
  := by
  by_cases hpar : x = par
  · subst hpar
    rw [hf.directory] at hn
    obtain rfl := some.inj hn
    exact hf.nodes_par hs
  · rw [hf.nodes_other hid hpar, hn, erase_of_not_mem]
    intro hmem
    obtain ⟨n', hn', hparent⟩ := hs.child hn hmem
    rw [hf.file] at hn'
    obtain rfl := some.inj hn'
    rw [hf.parent] at hparent
    exact hpar (some.inj hparent).symm

lemma Listed.nodes_cases (hn : (s.unlinkNode id).nodes x = some n) :
  x ≠ id ∧ ∃ n', s.nodes x = some n' ∧ n = { n' with children := n'.children.erase id }
  := by
  have hid : x ≠ id := by
    rintro rfl
    rw [hf.nodes_self] at hn
    cases hn
  refine ⟨hid, ?_⟩
  cases hx : s.nodes x with
  | none =>
    have hpar : x ≠ par := by
      rintro rfl
      rw [hf.directory] at hx
      cases hx
    rw [hf.nodes_other hid hpar, hx] at hn
    cases hn
  | some n' =>
    rw [hf.nodes_unlinkNode hs hid hx] at hn
    exact ⟨n', rfl, (some.inj hn).symm⟩

lemma Listed.isDir_unlinkNode (hd : s.IsDir d) : (s.unlinkNode id).IsDir d
  := by
  have hne : d ≠ id := by
    rintro rfl
    exact hf.not_isDir hd
  obtain ⟨n, hn, hdir⟩ := hd
  exact ⟨_, hf.nodes_unlinkNode hs hne hn, hdir⟩

lemma Listed.sound : Sound (s.unlinkNode id)
  := by
  obtain ⟨hroot, -, hdevices, hnext, -⟩ := hf.fields
  constructor
  · intro x hx
    rw [hnext] at hx
    cases hn : (s.unlinkNode id).nodes x with
    | none => rfl
    | some n =>
      obtain ⟨-, n', hn', -⟩ := hf.nodes_cases hs hn
      rw [hs.fresh hx] at hn'
      cases hn'
  · rw [hroot]
    exact hf.isDir_unlinkNode hs hs.root
  · intro x m n hn hm
    obtain ⟨-, n', hn', rfl⟩ := hf.nodes_cases hs hn
    exact hf.isDir_unlinkNode hs (hs.mounted hn' hm)
  · intro x p n hn hp
    obtain ⟨-, n', hn', rfl⟩ := hf.nodes_cases hs hn
    exact hf.isDir_unlinkNode hs (hs.parent hn' hp)
  · intro d c n hd hc
    obtain ⟨-, n', hn', rfl⟩ := hf.nodes_cases hs hd
    have hne : c ≠ id := by
      rintro rfl
      exact (hs.nodup hn').not_mem_erase hc
    obtain ⟨child, hchild, hparent⟩ := hs.child hn' (mem_of_mem_erase hc)
    exact ⟨_, hf.nodes_unlinkNode hs hne hchild, hparent⟩
  · intro d n hd
    obtain ⟨-, n', hn', rfl⟩ := hf.nodes_cases hs hd
    exact (hs.nodup hn').erase id
  · intro x n hn hfile
    obtain ⟨-, n', hn', rfl⟩ := hf.nodes_cases hs hn
    rw [hs.leaf hn' hfile]
    rfl
  · rw [hdevices]
    exact hs.devices

/-! ### Paths without the file -/

lemma Listed.enter_unlinkNode (hx : (s.nodes x).isSome) (hid : x ≠ id) :
  (s.unlinkNode id).enter x = s.enter x
  := by
  obtain ⟨n, hn⟩ := isSome_iff_exists.mp hx
  rw [enter, enter, hf.nodes_unlinkNode hs hid hn, hn]
  rfl

lemma Listed.enter_root : (s.unlinkNode id).enter (s.unlinkNode id).root = s.enter s.root
  := by
  obtain ⟨root, hroot, -⟩ := hs.root
  rw [hf.fields.1]
  refine hf.enter_unlinkNode hs (by rw [hroot]; rfl) fun h => ?_
  exact hf.not_isDir (h ▸ hs.root)

omit hs in
lemma Listed.enter_self : s.enter id = id
  := by
  rw [enter, hf.file, bind_some, hf.unmounted, getD_none]

omit hs in
lemma Listed.enterPlace_self : s.enterPlace (.node id) = .node id
  := congrArg Place.node hf.enter_self

lemma Listed.enterPlace_unlinkNode (hp : s.Known p) (ha : p.Avoids id) :
  (s.unlinkNode id).enterPlace p = s.enterPlace p
  := by
  cases p with
  | node x => exact congrArg Place.node (hf.enter_unlinkNode hs hp ha)
  | entry driver e d => rfl

lemma Listed.upPlace_unlinkNode (hp : s.Known p) (ha : p.Avoids id) :
  (s.unlinkNode id).upPlace p = s.upPlace p
  := by
  cases p with
  | node x =>
    obtain ⟨n, hn⟩ := isSome_iff_exists.mp hp
    simp only [upPlace, hf.nodes_unlinkNode hs ha hn, hn, bind_some]
  | entry driver e d => rfl

lemma Listed.findChild_unlinkNode (hn : s.nodes d = some n) (name : Name) :
  (s.unlinkNode id).findChild (n.children.erase id) name = s.findChild (n.children.erase id) name
  := by
  apply find?_congr
  intro c hc
  have hne : c ≠ id := by
    rintro rfl
    exact (hs.nodup hn).not_mem_erase hc
  obtain ⟨child, hchild, -⟩ := hs.child hn (mem_of_mem_erase hc)
  rw [hf.nodes_unlinkNode hs hne hchild, hchild]
  rfl

/-- Looking up a name finds what it found, unless it found the file. -/
lemma Listed.findPlace_unlinkNode (drv : Drivers δ) (hp : s.Known p) (ha : p.Avoids id) (name : Name) :
  (s.findPlace drv p name ≠ some (.node id)
      ∧ (s.unlinkNode id).findPlace drv p name = s.findPlace drv p name)
    ∨ (s.findPlace drv p name = some (.node id) ∧ node.name = name
      ∧ (s.unlinkNode id).findPlace drv p name = (s.findChild (dir.children.erase id) name).map .node)
  := by
  obtain ⟨-, hdisks, -⟩ := hf.fields
  cases p with
  | entry driver e d =>
    left
    simp only [findPlace, hdisks, and_true]
    intro h
    split at h
    · obtain ⟨e', -, h'⟩ := map_eq_some_iff.mp h
      cases h'
    · cases h
  | node x =>
    have hne : s.enter x ≠ id := enter_ne hs hf.not_isDir hp fun _ => ha
    obtain ⟨n, hn⟩ := isSome_iff_exists.mp (hs.enter_isSome hp)
    have hn' := hf.nodes_unlinkNode hs hne hn
    simp only [findPlace, hf.enter_unlinkNode hs hp ha, hn', hn, hdisks, hf.findChild_unlinkNode hs hn]
    by_cases hdir : n.isDir
    · rw [if_pos hdir, if_pos hdir]
      by_cases hdriver : n.driver = .ramfs
      · rw [if_pos hdriver, if_pos hdriver]
        by_cases hfind : s.findChild n.children name = some id
        · right
          obtain ⟨child, hchild, hparent⟩ := hs.child hn (mem_of_find?_eq_some hfind)
          rw [hf.file] at hchild
          obtain rfl := some.inj hchild
          rw [hf.parent] at hparent
          rw [← some.inj hparent, hf.directory] at hn
          obtain rfl := some.inj hn
          have hname := find?_some hfind
          rw [hf.file] at hname
          exact ⟨by rw [hfind]; rfl, by simpa using hname, rfl⟩
        · left
          refine ⟨fun h => ?_, congrArg _ (find?_erase_of_ne hfind)⟩
          obtain ⟨c, hc, h'⟩ := map_eq_some_iff.mp h
          exact hfind (Place.node.inj h' ▸ hc)
      · rw [if_neg hdriver, if_neg hdriver]
        left
        refine ⟨fun h => ?_, rfl⟩
        obtain ⟨e, -, h'⟩ := map_eq_some_iff.mp h
        cases h'
    · rw [if_neg hdir, if_neg hdir]
      exact .inl ⟨(fun h => by cases h), rfl⟩

end

/-- The components lead through the node. -/
def Visits (drv : Drivers δ) (s : Sys δ) (id : ℕ) : Place → List Name → Prop
  | p, [] => p = .node id
  | p, token :: rest =>
    p = .node id ∨
      if token = [] ∨ token = [0x2E] then s.Visits drv id p rest
      else if token = [0x2E, 0x2E] then s.Visits drv id (s.upPlace p) rest
      else ∃ p', s.findPlace drv p token = some p' ∧ s.Visits drv id (s.enterPlace p') rest

lemma visits_of_eq (id : ℕ) (tokens : List Name) : s.Visits drv id (.node id) tokens
  := by
  cases tokens with
  | nil => rfl
  | cons token rest => exact .inl rfl

lemma Visits.of_walkPlace
    (h : s.walkPlace drv p tokens = some (.node id)) :
  s.Visits drv id p tokens
  := by
  induction tokens generalizing p with
  | nil => exact some.inj h
  | cons token rest ih =>
    right
    unfold walkPlace at h
    split at h
    · rw [if_pos (by assumption)]
      exact ih h
    rw [if_neg (by assumption)]
    split at h
    · rw [if_pos (by assumption)]
      exact ih h
    rw [if_neg (by assumption)]
    split at h
    · cases h
    · exact ⟨_, by assumption, ih h⟩

lemma Extends.visits {s' : Sys δ} (h : Extends s s') (hs : Sound s) (hp : s.Known p)
    (tokens : List Name) :
  s'.Visits drv id p tokens ↔ s.Visits drv id p tokens
  := by
  induction tokens generalizing p with
  | nil => exact Iff.rfl
  | cons token rest ih =>
    unfold Visits
    rw [h.findPlace hs hp, h.upPlace hp, ih hp, ih (hs.known_upPlace hp)]
    have hfind (p' : Place) (hp' : s.findPlace drv p token = some p') :
        s'.Visits drv id (s'.enterPlace p') rest ↔ s.Visits drv id (s.enterPlace p') rest := by
      have hknown := hs.known_findPlace hp hp'
      rw [h.enterPlace hknown, ih (hs.known_enterPlace hknown)]
    rw [exists_congr fun p' => and_congr_right (hfind p')]

section

variable {id par : ℕ} {node dir : Node} (hs : Sound s) (hf : Listed s id par node dir)

include hs hf

omit hs in
lemma Listed.avoids_next (hs : Sound s) (hp : s.Known p) (ha : p.Avoids id) {token : Name}
    (hfind : s.findPlace drv p token = some p') (hne : s.findPlace drv p token ≠ some (.node id)) :
  p'.Avoids id ∧ (s.enterPlace p').Avoids id
  := by
  have havoid : p'.Avoids id := by
    rcases avoids_findPlace hs hf.not_isDir hp ha hfind with h | rfl
    · exact h
    · exact absurd hfind hne
  exact ⟨havoid, avoids_enterPlace hs hf.not_isDir (hs.known_findPlace hp hfind) havoid⟩

/-- What a path means that does not lead through the file. -/
lemma Listed.walkPlace_unlinkNode (hp : s.Known p) (ha : p.Avoids id)
    (hv : ¬ s.Visits drv id p tokens) :
  (s.unlinkNode id).walkPlace drv p tokens = s.walkPlace drv p tokens
  := by
  induction tokens generalizing p with
  | nil => rfl
  | cons token rest ih =>
    unfold walkPlace
    obtain ⟨-, hv⟩ := not_or.mp hv
    split
    · rw [if_pos (by assumption)] at hv
      exact ih hp ha hv
    rw [if_neg (by assumption)] at hv
    split
    · rw [if_pos (by assumption)] at hv
      rw [hf.upPlace_unlinkNode hs hp ha]
      exact ih (hs.known_upPlace hp) (avoids_upPlace hs hf.not_isDir hp ha) hv
    rw [if_neg (by assumption)] at hv
    rcases hf.findPlace_unlinkNode hs drv hp ha token with ⟨hne, hfind⟩ | ⟨hfind, -, -⟩
    · rw [hfind]
      cases hp' : s.findPlace drv p token with
      | none => rfl
      | some p' =>
        have hknown := hs.known_findPlace hp hp'
        obtain ⟨havoid, hae⟩ := hf.avoids_next hs hp ha hp' hne
        dsimp only
        rw [hf.enterPlace_unlinkNode hs hknown havoid]
        exact ih (hs.known_enterPlace hknown) hae fun h => hv ⟨p', hp', h⟩
    · refine absurd ⟨_, hfind, ?_⟩ hv
      rw [hf.enterPlace_self]
      exact visits_of_eq id rest

/-- A path through the file leads nowhere if no other file of the directory has its name. -/
lemma Listed.walkPlace_eq_none (halone : s.findChild (dir.children.erase id) node.name = none)
    (hp : s.Known p) (ha : p.Avoids id) (hv : s.Visits drv id p tokens) :
  (s.unlinkNode id).walkPlace drv p tokens = none
  := by
  have hstart : p ≠ .node id := by
    rintro rfl
    exact ha rfl
  induction tokens generalizing p with
  | nil => exact absurd hv hstart
  | cons token rest ih =>
    unfold walkPlace
    rcases hv with hv | hv
    · exact absurd hv hstart
    split at hv
    · rw [if_pos (by assumption)]
      exact ih hp ha hv hstart
    rw [if_neg (by assumption)]
    split at hv
    · rw [if_pos (by assumption), hf.upPlace_unlinkNode hs hp ha]
      have haup := avoids_upPlace hs hf.not_isDir hp ha
      exact ih (hs.known_upPlace hp) haup hv fun h => by rw [h] at haup; exact haup rfl
    rw [if_neg (by assumption)]
    obtain ⟨p', hp', hv⟩ := hv
    rcases hf.findPlace_unlinkNode hs drv hp ha token with ⟨hne, hfind⟩ | ⟨-, hname, hfind⟩
    · have hknown := hs.known_findPlace hp hp'
      obtain ⟨havoid, hae⟩ := hf.avoids_next hs hp ha hp' hne
      rw [hfind, hp']
      dsimp only
      rw [hf.enterPlace_unlinkNode hs hknown havoid]
      exact ih (hs.known_enterPlace hknown) hae hv fun h => by rw [h] at hae; exact hae rfl
    · rw [hfind, ← hname, halone]
      rfl

/-- Up to where it reaches the file, a path leads to the next file of the name. -/
lemma Listed.exists_walkPlace {c : ℕ} (hc : s.findChild (dir.children.erase id) node.name = some c) (hp : s.Known p)
    (ha : p.Avoids id)
    (h : s.walkPlace drv p tokens = some (.node id)) :
  ∃ pre, pre <+: tokens ∧ s.walkPlace drv p pre = some (.node id)
    ∧ ((s.unlinkNode id).walkPlace drv p pre).isSome
  := by
  induction tokens generalizing p with
  | nil =>
    obtain rfl := some.inj h
    exact absurd rfl ha
  | cons token rest ih =>
    unfold walkPlace at h
    split at h
    · obtain ⟨pre, hpre, hs', ht⟩ := ih hp ha h
      refine ⟨token :: pre, cons_prefix_cons.mpr ⟨rfl, hpre⟩, ?_, ?_⟩
      · unfold walkPlace
        rwa [if_pos (by assumption)]
      · unfold walkPlace
        rwa [if_pos (by assumption)]
    · split at h
      · obtain ⟨pre, hpre, hs', ht⟩ := ih (hs.known_upPlace hp) (avoids_upPlace hs hf.not_isDir hp ha) h
        refine ⟨token :: pre, cons_prefix_cons.mpr ⟨rfl, hpre⟩, ?_, ?_⟩
        · unfold walkPlace
          rwa [if_neg (by assumption), if_pos (by assumption)]
        · unfold walkPlace
          rwa [if_neg (by assumption), if_pos (by assumption), hf.upPlace_unlinkNode hs hp ha]
      · rcases hf.findPlace_unlinkNode hs drv hp ha token with ⟨hne, hfind⟩ | ⟨hsfind, hname, hfind⟩
        · cases hp' : s.findPlace drv p token with
          | none =>
            rw [hp'] at h
            cases h
          | some p' =>
            rw [hp'] at h
            have hknown := hs.known_findPlace hp hp'
            obtain ⟨havoid, hae⟩ := hf.avoids_next hs hp ha hp' hne
            obtain ⟨pre, hpre, hs', ht⟩ := ih (hs.known_enterPlace hknown) hae h
            refine ⟨token :: pre, cons_prefix_cons.mpr ⟨rfl, hpre⟩, ?_, ?_⟩
            · unfold walkPlace
              rw [if_neg (by assumption), if_neg (by assumption), hp']
              exact hs'
            · unfold walkPlace
              rw [if_neg (by assumption), if_neg (by assumption), hfind, hp']
              dsimp only
              rwa [hf.enterPlace_unlinkNode hs hknown havoid]
        · -- the path reaches the file here
          refine ⟨[token], cons_prefix_cons.mpr ⟨rfl, ⟨rest, rfl⟩⟩, ?_, ?_⟩
          · unfold walkPlace
            rw [if_neg (by assumption), if_neg (by assumption), hsfind]
            exact congrArg some hf.enterPlace_self
          · unfold walkPlace
            rw [if_neg (by assumption), if_neg (by assumption), hfind, ← hname, hc]
            rfl

end

/-! ### The law -/

variable (drv) in
/-- The path leads through the node. -/
def VisitsPath (s : Sys δ) (path : List UInt8) (id : ℕ) : Prop :=
  path.head? = some 0x2F ∧ s.Visits drv id (.node (s.enter s.root)) ((path.drop 1).splitOn 0x2F)

def IsFile (s : Sys δ) : Place → Prop
  | .node id => (s.nodes id).map Node.isDir = some false
  | .entry _ e _ => e.isDir = false

variable (drv) in
def resolveAll (s : Sys δ) (paths : List (List UInt8)) : Sys δ :=
  paths.foldl (fun s path => (s.resolvePath drv path).2) s

variable (drv) in
/-- What a call to remove the file of a path is to do, whatever memory there is afterwards.  The paths of
devices do not matter. -/
structure UnlinkLaw (s : Sys δ) (path : List UInt8) : Prop where
  gone (q : List UInt8) : s.devices q = none → s.resolvePlace drv q = s.resolvePlace drv path →
    ∀ memory later id,
      ((({ (s.unlink drv path).2 with memory := memory }).resolveAll drv later).resolvePath drv q).1 ≠ .node id
  others (q : List UInt8) : (∀ id, s.resolvePlace drv path = some (.node id) → ¬ s.VisitsPath drv q id) →
    (s.unlink drv path).2.resolvePlace drv q = s.resolvePlace drv q
  alive (slot : ℕ × ℕ) (id : ℕ) : s.files slot = some id → (s.nodes id).isSome →
    ((s.unlink drv path).2.nodes id).isSome

/-- The file is in the list of its directory, where no other file has its name, and no descriptor is open on
it. -/
def Removable (s : Sys δ) (id : ℕ) : Prop :=
  ∃ node par dir, s.nodes id = some node ∧ node.parent = some par ∧ s.nodes par = some dir
    ∧ id ∈ dir.children ∧ (∀ c ∈ dir.children, c ≠ id → (s.nodes c).map Node.name ≠ some node.name)
    ∧ ∀ slot, s.files slot ≠ some id

lemma walkPlace_memory (s : Sys δ) (memory : ℕ → Bool) (p : Place) (tokens : List Name) :
  { s with memory := memory }.walkPlace drv p tokens = s.walkPlace drv p tokens
  := by
  induction tokens generalizing p with
  | nil => rfl
  | cons token rest ih =>
    unfold walkPlace
    rw [ih p, ih (upPlace _ p)]
    have hfind : { s with memory := memory }.findPlace drv p token = s.findPlace drv p token := rfl
    rw [hfind]
    cases s.findPlace drv p token with
    | none => rfl
    | some p' =>
      dsimp only
      rw [ih]
      rfl

lemma resolvePlace_memory (s : Sys δ) (memory : ℕ → Bool) (path : List UInt8) :
  { s with memory := memory }.resolvePlace drv path = s.resolvePlace drv path
  := by
  unfold resolvePlace
  rw [walkPlace_memory]
  rfl

lemma resolvePlace_eq_walkPlace (hdev : s.devices path = none)
    (hhead : path.head? = some 0x2F) :
  s.resolvePlace drv path = s.walkPlace drv (.node (s.enter s.root)) ((path.drop 1).splitOn 0x2F)
  := by
  unfold resolvePlace
  rw [if_pos hhead, hdev]

lemma head_of_resolvePlace (h : s.resolvePlace drv path = some p) :
  path.head? = some 0x2F
  := by
  by_contra hne
  unfold resolvePlace at h
  rw [if_neg hne] at h
  cases h

lemma resolveAll_looked (hs : Sound s) (paths : List (List UInt8)) :
  Sound (s.resolveAll drv paths) ∧ Extends s (s.resolveAll drv paths)
  := by
  induction paths generalizing s with
  | nil => exact ⟨hs, Extends.refl s⟩
  | cons path rest ih =>
    have hlook : Looked s (s.resolvePath drv path) _ := resolvePath_looked hs path
    obtain ⟨hsound, hext⟩ := ih hlook.sound
    exact ⟨hsound, hlook.step.trans hext⟩

lemma resolvePath_ne (hs : Sound s) {q : List UInt8} (hq : s.resolvePlace drv q = none)
    (memory : ℕ → Bool) (later : List (List UInt8)) (id : ℕ) :
  ((({ s with memory := memory }).resolveAll drv later).resolvePath drv q).1 ≠ .node id
  := by
  intro h
  have hs' : Sound { s with memory := memory } := hs.congr rfl rfl rfl rfl
  obtain ⟨hsound, hext⟩ : _ ∧ Extends _ (resolveAll drv _ later) := resolveAll_looked hs' later
  obtain ⟨p, hp, -⟩ := (resolvePath_looked hsound q).rep h
  rw [hext.resolvePlace hs', resolvePlace_memory, hq] at hp
  cases hp

lemma exists_resolvePath_eq (hs : Sound s) {q : List UInt8} (hq : (s.resolvePlace drv q).isSome) :
  ∃ id, ((({ s with memory := fun _ => true }).resolveAll drv []).resolvePath drv q).1 = .node id
  := by
  have hs' : Sound { s with memory := fun _ => true } := hs.congr rfl rfl rfl rfl
  refine (resolvePath_looked hs' q).found (fun _ => rfl) ?_
  rwa [resolvePlace_memory]

/-- The path of the components, spelled so that it is not one of a device. -/
def spell (tokens : List Name) : List UInt8 := 0x2F :: [0x2F].intercalate ([] :: tokens)

lemma tokens_spell (h : ∀ token ∈ tokens, (0x2F : UInt8) ∉ token) :
  ((spell tokens).drop 1).splitOn 0x2F = [] :: tokens
  := by
  apply splitOn_intercalate
  · intro token htoken
    rcases mem_cons.mp htoken with rfl | htoken
    · exact not_mem_nil
    · exact h token htoken
  · exact cons_ne_nil _ _

lemma Sound.devices_spell (hs : Sound s) (tokens : List Name) : s.devices (spell tokens) = none
  := by
  cases h : s.devices (spell tokens) with
  | none => rfl
  | some id =>
    have htake := hs.devices h
    cases tokens with
    | nil => exact absurd htake (by decide)
    | cons token rest =>
      exact absurd (cons.inj (cons.inj htake).2).1 (by decide)

lemma Removable.extends {s' : Sys δ} (h : Extends s s') (hs : Sound s) (hid : s.Removable id) :
  s'.Removable id
  := by
  obtain ⟨node, par, dir, hnode, hpar, hdir, hmem, hname, hfiles⟩ := hid
  refine ⟨node, par, dir, h.nodes hnode, hpar, h.nodes hdir, hmem, fun c hc hne => ?_, ?_⟩
  · obtain ⟨child, hchild, -⟩ := hs.child hdir hc
    have hname' := hname c hc hne
    rwa [hchild, ← h.nodes hchild] at hname'
  · rw [h.files]
    exact hfiles

lemma Sound.looked {r : Result × Sys δ} (hs : Sound s) (hr : s.resolvePath drv path = r) :
  Looked s r (s.resolvePlace drv path)
  := by
  rw [← hr]
  exact resolvePath_looked hs path

/-- A file in the list of a directory is there before the path is looked up, and the path means its node. -/
lemma Looked.listed {s₁ : Sys δ} (hs : Sound s) (hdev : s.devices path = none)
    (hr : s.resolvePath drv path = (.node id, s₁)) (hplace : s.resolvePlace drv path = some p) (hfile : s.IsFile p)
    {par : ℕ} {node dir : Node}
    (hnode : s₁.nodes id = some node) (hpar : node.parent = some par) (hdir : s₁.nodes par = some dir)
    (hmem : id ∈ dir.children) :
  p = .node id ∧ s₁.Listed id par node dir ∧ s.nodes id = some node ∧ s.nodes par = some dir
  := by
  have hlook := hs.looked hr
  have hext : Extends s s₁ := hlook.step
  obtain ⟨p', hp', hrep⟩ := hlook.rep rfl
  obtain rfl : p' = p := some.inj (hp'.symm.trans hplace)
  cases p' with
  | entry driver e d => exact absurd hmem (hrep.1 par dir hdir)
  | node id' =>
    obtain rfl : id = id' := hrep
    have hdir' : s.nodes par = some dir := by
      rcases hext.new hdir with h | h
      · exact h
      · rw [h.1] at hmem
        cases hmem
    obtain ⟨node', hnode', -⟩ := hs.child hdir' hmem
    have hsame := hext.nodes hnode'
    rw [hnode] at hsame
    obtain rfl := some.inj hsame
    have hisFile : node.isDir = false := by
      have hfile' : (s.nodes id).map Node.isDir = some false := hfile
      rw [hnode'] at hfile'
      exact some.inj hfile'
    have hid : ¬ s.IsDir id := by
      rintro ⟨n, hn, h⟩
      rw [hnode'] at hn
      obtain rfl := some.inj hn
      rw [hisFile] at h
      cases h
    rw [resolvePlace_eq_walkPlace hdev (head_of_resolvePlace hplace)] at hplace
    have henter := enter_eq_of_walkPlace hs hid hs.known_root (avoids_root hs hid) hplace
    refine ⟨rfl, ⟨hnode, hisFile, ?_, hpar, hdir, hmem⟩, hnode', hdir'⟩
    cases hm : node.mounted with
    | none => rfl
    | some m =>
      rw [enter, hnode', bind_some, hm] at henter
      exact absurd (henter ▸ hs.mounted hnode' hm) hid

lemma unlinkNode_of_not_listed
    (h : ¬ ∃ node par dir, s.nodes id = some node ∧ node.parent = some par ∧ s.nodes par = some dir
      ∧ id ∈ dir.children) :
  s.unlinkNode id = s
  := by
  unfold unlinkNode
  cases hparent : (s.nodes id).bind Node.parent with
  | none => rfl
  | some par =>
    obtain ⟨node, hnode, hpar⟩ := bind_eq_some_iff.mp hparent
    dsimp only
    cases hdir : s.nodes par with
    | none => rfl
    | some dir =>
      rw [map_some]
      dsimp only
      rw [if_neg fun hmem => h ⟨node, par, dir, hnode, hpar, hdir, hmem⟩]

section

variable {path : List UInt8} {p : Place} (hs : Sound s) (hdev : s.devices path = none)
  (hplace : s.resolvePlace drv path = some p) (hfile : s.IsFile p) {id : ℕ} {s₁ : Sys δ}
  (hr : s.resolvePath drv path = (.node id, s₁))

include hs hdev hplace hfile hr

lemma unlinkLaw_of_removable (h : s.Removable id) : s.UnlinkLaw drv path
  := by
  have hunlink : (s.unlink drv path).2 = s₁.unlinkNode id := by
    unfold unlink
    rw [hr]
  have hlook := hs.looked hr
  have hs₁ : Sound s₁ := hlook.sound
  have hext : Extends s s₁ := hlook.step
  obtain ⟨node, par, dir, hnode, hpar, hdir, hmem, hname, hfiles⟩ := h.extends hext hs
  obtain ⟨rfl, hf, -, -⟩ := Looked.listed hs hdev hr hplace hfile hnode hpar hdir hmem
  have halone : s₁.findChild (dir.children.erase id) node.name = none := by
    refine find?_eq_none.mpr fun c hc => ?_
    have hne : c ≠ id := by
      rintro rfl
      exact (hs₁.nodup hdir).not_mem_erase hc
    simpa using hname c (mem_of_mem_erase hc) hne
  have hroot : (Place.node (s₁.enter s₁.root)).Avoids id := avoids_root hs₁ hf.not_isDir
  obtain ⟨-, -, htdev, -, -⟩ := hf.fields
  have hstart := hf.enter_root hs₁
  constructor
  · intro q hq hsame memory later id'
    rw [hunlink]
    apply resolvePath_ne (hf.sound hs₁)
    rw [hplace, ← hext.resolvePlace hs] at hsame
    rw [← hext.devices] at hq
    have hhead := head_of_resolvePlace hsame
    rw [resolvePlace_eq_walkPlace hq hhead] at hsame
    rw [resolvePlace_eq_walkPlace (by rw [htdev]; exact hq) hhead, hstart]
    exact hf.walkPlace_eq_none hs₁ halone hs₁.known_root hroot (Visits.of_walkPlace hsame)
  · intro q hv
    rw [hunlink, ← hext.resolvePlace hs]
    unfold resolvePlace
    rw [htdev, hstart]
    by_cases hhead : q.head? = some 0x2F
    · rw [if_pos hhead, if_pos hhead]
      cases s₁.devices q with
      | some d => rfl
      | none =>
        refine hf.walkPlace_unlinkNode hs₁ hs₁.known_root hroot fun hvisits => ?_
        obtain ⟨root, hrootNode, -⟩ := hs.root
        rw [hext.root, hext.enter (by rw [hrootNode]; rfl)] at hvisits
        exact hv id hplace ⟨hhead, (hext.visits hs hs.known_root _).mp hvisits⟩
    · rw [if_neg hhead, if_neg hhead]
  · intro slot x hslot hx
    rw [hunlink]
    have hne : x ≠ id := by
      rintro rfl
      rw [← hext.files] at hslot
      exact hfiles slot hslot
    obtain ⟨n, hn⟩ := isSome_iff_exists.mp hx
    rw [hf.nodes_unlinkNode hs₁ hne (hext.nodes hn)]
    rfl

lemma removable_of_unlinkLaw (h : s.UnlinkLaw drv path) : p = .node id ∧ s.Removable id
  := by
  have hunlink : (s.unlink drv path).2 = s₁.unlinkNode id := by
    unfold unlink
    rw [hr]
  have hlook := hs.looked hr
  have hs₁ : Sound s₁ := hlook.sound
  have hext : Extends s s₁ := hlook.step
  have hplace₁ : s₁.resolvePlace drv path = some p := (hext.resolvePlace hs path).trans hplace
  by_cases hlisted : ∃ node par dir, s₁.nodes id = some node ∧ node.parent = some par
      ∧ s₁.nodes par = some dir ∧ id ∈ dir.children
  · obtain ⟨node, par, dir, hnode, hpar, hdir, hmem⟩ := hlisted
    obtain ⟨rfl, hf, hnode', hdir'⟩ := Looked.listed hs hdev hr hplace hfile hnode hpar hdir hmem
    refine ⟨rfl, node, par, dir, hnode', hpar, hdir', hmem, fun c hc hne hname => ?_, fun slot hslot => ?_⟩
    · -- the next file of the name is found
      obtain ⟨c', hc'⟩ : ∃ c', s₁.findChild (dir.children.erase id) node.name = some c' := by
        obtain ⟨child, hchild, -⟩ := hs.child hdir' hc
        apply isSome_iff_exists.mp
        apply find?_isSome.mpr
        refine ⟨c, (mem_erase_of_ne hne).mpr hc, ?_⟩
        rw [hext.nodes hchild]
        rw [hchild] at hname
        simpa using hname
      have hhead := head_of_resolvePlace hplace
      rw [resolvePlace_eq_walkPlace (by rw [hext.devices]; exact hdev) hhead] at hplace₁
      have hroot : (Place.node (s₁.enter s₁.root)).Avoids id := avoids_root hs₁ hf.not_isDir
      obtain ⟨pre, hpre, hwalk, hfound⟩ := hf.exists_walkPlace hs₁ hc' hs₁.known_root hroot hplace₁
      have htokens : ((spell pre).drop 1).splitOn 0x2F = [] :: pre :=
        tokens_spell fun token htoken => not_mem_of_mem_splitOn (hpre.subset htoken)
      have hdevq : s.devices (spell pre) = none := hs.devices_spell pre
      obtain ⟨-, -, htdev, -, -⟩ := hf.fields
      have hstart := hf.enter_root hs₁
      have hq : s.resolvePlace drv (spell pre) = some (.node id) := by
        rw [← hext.resolvePlace hs, resolvePlace_eq_walkPlace (by rw [hext.devices]; exact hdevq) rfl, htokens]
        exact hwalk
      have htq : ((s₁.unlinkNode id).resolvePlace drv (spell pre)).isSome := by
        rw [resolvePlace_eq_walkPlace (by rw [htdev, hext.devices]; exact hdevq) rfl, htokens, hstart]
        exact hfound
      obtain ⟨id', hid'⟩ := exists_resolvePath_eq (hf.sound hs₁) htq
      rw [← hunlink] at hid'
      exact h.gone (spell pre) hdevq (hq.trans hplace.symm) _ _ id' hid'
    · have halive := h.alive slot id hslot (by rw [hnode']; rfl)
      rw [hunlink, hf.nodes_self] at halive
      cases halive
  · obtain ⟨id', hid'⟩ := exists_resolvePath_eq hs₁ (isSome_of_eq_some hplace₁)
    rw [← unlinkNode_of_not_listed hlisted, ← hunlink] at hid'
    exact absurd hid' (h.gone path hdev rfl _ _ id')

end

/-- Removing a file does what it is to do exactly if the file is in the list of its directory, alone with
its name, and no descriptor is open on it. -/
theorem unlinkLaw_iff (hs : Sound s) {path : List UInt8} (hdev : s.devices path = none) {p : Place}
    (hplace : s.resolvePlace drv path = some p) (hfile : s.IsFile p) (hunlink : (s.unlink drv path).1 = true) :
  s.UnlinkLaw drv path ↔ ∃ id, p = .node id ∧ s.Removable id
  := by
  obtain ⟨id, s₁, hr⟩ : ∃ id s₁, s.resolvePath drv path = (.node id, s₁) := by
    unfold unlink at hunlink
    generalize s.resolvePath drv path = r at hunlink ⊢
    obtain ⟨_ | _ | id, s₁⟩ := r
    · cases hunlink
    · cases hunlink
    · exact ⟨id, s₁, rfl⟩
  constructor
  · intro h
    exact ⟨id, removable_of_unlinkLaw hs hdev hplace hfile hr h⟩
  rintro ⟨id', rfl, h⟩
  have hlook := hs.looked hr
  obtain ⟨p', hp', hrep⟩ := hlook.rep rfl
  rw [hplace] at hp'
  obtain rfl := some.inj hp'
  obtain rfl : id = id' := hrep
  exact unlinkLaw_of_removable hs hdev hplace hfile hr h

end Sys

/-- A call that changes the tree, or a lookup. -/
inductive Change where
  | lookup (path : List UInt8)
  | createDirectory (dir : ℕ) (name : Name)
  | createFile (dir : ℕ) (name : Name)
  | link (old dir : ℕ) (name : Name)
  | mount (path : List UInt8) (root : ℕ)
  | unlink (path : List UInt8)

namespace Sys

variable {δ : Type} (drv : Drivers δ)

def change (s : Sys δ) : Change → Sys δ
  | .lookup path => (s.resolvePath drv path).2
  | .createDirectory dir name => (s.createDirectory dir name).2
  | .createFile dir name => (s.createFile dir name).2
  | .link old dir name => s.linkNode old dir name
  | .mount path root => s.mount drv path root
  | .unlink path => (s.unlink drv path).2

def changes (s : Sys δ) (cs : List Change) : Sys δ := cs.foldl (change drv) s

/-- `sys_link_handler` looks its two paths up and makes the link. -/
lemma link_eq_changes (s : Sys δ) (oldPath newPath : List UInt8) :
  s.link drv oldPath newPath = s.changes drv [.lookup oldPath]
    ∨ s.link drv oldPath newPath = s.changes drv [.lookup oldPath, .lookup (splitLink newPath).1]
    ∨ ∃ old dir, s.link drv oldPath newPath = s.changes drv
      [.lookup oldPath, .lookup (splitLink newPath).1, .link old dir (splitLink newPath).2]
  := by
  simp only [link, changes, foldl_cons, foldl_nil, change]
  obtain ⟨r, s₁⟩ := s.resolvePath drv oldPath
  cases r with
  | null => exact .inl rfl
  | fault => exact .inl rfl
  | node old =>
    right
    dsimp only
    obtain ⟨r, s₂⟩ := s₁.resolvePath drv (splitLink newPath).1
    cases r with
    | null => exact .inl rfl
    | fault => exact .inl rfl
    | node dir => exact .inr ⟨old, dir, rfl⟩

/-- A link in the root directory gets no name. -/
lemma splitLink_root {name : Name} (h : 0x2F ∉ name) : splitLink (0x2F :: name) = ([0x2F], [])
  := by
  have hname : ((0x2F :: name).reverse.takeWhile (· ≠ 0x2F)).reverse = name := by
    rw [reverse_cons, takeWhile_append_of_pos]
    · simp
    · intro b hb
      simp only [ne_eq, decide_not, Bool.not_eq_true', decide_eq_false_iff_not]
      rintro rfl
      exact h (mem_reverse.mp hb)
  simp only [splitLink, hname, length_cons]
  rw [if_neg (by omega), if_pos trivial]

/-- Directories are used as directories, and only files are linked and removed. -/
def Proper (s : Sys δ) : Change → Prop
  | .lookup _ => True
  | .createDirectory dir _ => s.IsDir dir
  | .createFile dir _ => s.IsDir dir
  | .link old dir _ => (s.nodes old).map Node.isDir = some false ∧ s.IsDir dir
  | .mount _ root => s.IsDir root
  | .unlink path => s.devices path = none ∧ ∃ p, s.resolvePlace drv path = some p ∧ s.IsFile p

def ProperRun (s : Sys δ) : List Change → Prop
  | [] => True
  | c :: cs => s.Proper drv c ∧ (s.change drv c).ProperRun cs

variable {drv} {s : Sys δ}

lemma Sound.mount (hs : Sound s) (path : List UInt8) {root : ℕ} (hroot : s.IsDir root) :
  Sound (s.mount drv path root)
  := by
  unfold Sys.mount
  have hlook : Looked s (s.resolvePath drv path) _ := resolvePath_looked hs path
  generalize s.resolvePath drv path = r at hlook ⊢
  obtain ⟨_ | _ | id, s'⟩ := r
  · exact hlook.sound
  · exact hlook.sound
  · have hs' : Sound s' := hlook.sound
    refine hs'.modify fun n hn => ?_
    have hleaf : n.isDir = false → n.children = [] := hs'.leaf hn
    have hnodup : n.children.Nodup := hs'.nodup hn
    refine ⟨rfl, rfl, fun m hm => ?_, fun c hc => hs'.child hn hc, hnodup, hleaf⟩
    obtain rfl : root = m := some.inj hm
    exact hlook.step.isDir hroot

lemma Sound.unlink (hs : Sound s) {path : List UInt8} (hdev : s.devices path = none) {p : Place}
    (hplace : s.resolvePlace drv path = some p) (hfile : s.IsFile p) :
  Sound (s.unlink drv path).2
  := by
  unfold Sys.unlink
  have hlook : Looked s (s.resolvePath drv path) _ := resolvePath_looked hs path
  cases hr : s.resolvePath drv path with
  | mk r s' =>
    rw [hr] at hlook
    cases r with
    | null => exact hlook.sound
    | fault => exact hlook.sound
    | node id =>
      dsimp only
      by_cases hlisted : ∃ node par dir, s'.nodes id = some node ∧ node.parent = some par
          ∧ s'.nodes par = some dir ∧ id ∈ dir.children
      · obtain ⟨node, par, dir, hnode, hpar, hdir, hmem⟩ := hlisted
        obtain ⟨-, hf, -, -⟩ := Looked.listed hs hdev hr hplace hfile hnode hpar hdir hmem
        exact hf.sound hlook.sound
      · rw [unlinkNode_of_not_listed hlisted]
        exact hlook.sound

lemma Sound.change (hs : Sound s) {c : Change} (hc : s.Proper drv c) : Sound (s.change drv c)
  := by
  cases c with
  | lookup path => exact (resolvePath_looked hs path).sound
  | createDirectory dir name => exact (createDirectory_kept hs hc name).sound
  | createFile dir name => exact (createFile_kept hs hc name).sound
  | link old dir name => exact (linkNode_kept hs hc.1 hc.2 name).sound
  | mount path root => exact hs.mount path hc
  | unlink path =>
    obtain ⟨hdev, p, hplace, hfile⟩ := hc
    exact hs.unlink hdev hplace hfile

/-- The tree is sound in every state of a run. -/
theorem Sound.changes (hs : Sound s) {cs : List Change} (hcs : s.ProperRun drv cs) :
  Sound (s.changes drv cs)
  := by
  induction cs generalizing s with
  | nil => exact hs
  | cons c cs ih => exact ih (hs.change hcs.1) hcs.2

/-- In every state of a run a node is listed in one directory at most, once, and knows it. -/
theorem one_directory (hs : Sound s) {cs : List Change} (hcs : s.ProperRun drv cs) {d e c : ℕ} {dir dir' : Node}
    (hd : (s.changes drv cs).nodes d = some dir) (hd' : (s.changes drv cs).nodes e = some dir')
    (hc : c ∈ dir.children) (hc' : c ∈ dir'.children) :
  d = e ∧ dir.isDir ∧ dir.children.count c = 1
    ∧ ((s.changes drv cs).nodes c).bind Node.parent = some d
  := by
  have h := hs.changes hcs
  obtain ⟨node, hnode, hparent⟩ := h.child hd hc
  obtain ⟨node', hnode', hparent'⟩ := h.child hd' hc'
  obtain rfl := some.inj (hnode.symm.trans hnode')
  refine ⟨some.inj (hparent.symm.trans hparent'), ?_, ?_, ?_⟩
  · -- a file has no children
    by_contra hfile
    rw [h.leaf hd (Bool.not_eq_true _ ▸ hfile)] at hc
    cases hc
  · rw [(h.nodup hd).count, if_pos hc]
  · rw [hnode]
    exact hparent

end Sys

/-- A file is made in the root directory, and `/b` is removed from it. -/
theorem home_one_directory :
  ((home.changes homeDisk [.createFile 0 [0x7A], .unlink [0x2F, 0x62]]).nodes 3).bind Node.parent = some 0
  := by
  have hrun : home.ProperRun homeDisk [.createFile 0 [0x7A], .unlink [0x2F, 0x62]] :=
    ⟨⟨_, rfl, rfl⟩, ⟨rfl, .node 4, rfl, rfl⟩, trivial⟩
  exact (one_directory home_sound hrun (e := 0) rfl rfl (by decide) (by decide)).2.2.2

/-- `/b` is removed as it is to be. -/
theorem home_unlinkLaw : home.UnlinkLaw homeDisk [0x2F, 0x62]
  := by
  have hremovable : home.Removable 4 := by
    refine ⟨_, 0, _, rfl, rfl, rfl, by decide, ?_, ?_⟩
    · decide
    · intro slot
      change (if slot = (1, 3) then some 3 else none) ≠ some 4
      split <;> decide
  have hfile : home.IsFile (.node 4) := rfl
  exact (unlinkLaw_iff home_sound rfl rfl hfile rfl).mpr ⟨4, rfl, hremovable⟩

/-- The node of `/a` is freed while it is open, and `/c/d` is still there after it has been removed. -/
theorem home_not_unlinkLaw :
  ¬ home.UnlinkLaw homeDisk [0x2F, 0x61] ∧ ¬ home.UnlinkLaw homeDisk [0x2F, 0x63, 0x2F, 0x64]
  := by
  constructor
  · intro h
    exact absurd (h.alive (1, 3) 3 rfl rfl) (by decide)
  · intro h
    exact h.gone [0x2F, 0x63, 0x2F, 0x64] rfl rfl (fun _ => true) [] 6 rfl

end Vfs
