import EquantOS.Fs.Stable

/-!
# Reference counts

The count of a node that the calls have made is the number of slots of live processes that refer
to it, and its close operation runs once, when the last of them has been emptied.  The counts are
words of 32 bits and wrap around: with `2 ^ 32` slots the first close closes the node.
-/

open Function List

namespace FileTables

open FileCall RefCount Nat

variable {W : Type} {ops : FileOps W} {k k' : FileTables W} {s : ℕ × ℕ} {p n m offset : ℕ}
  {flags : BitVec 32}

/-- How many slots referred to the node when its close operation ran, for all the times it ran. -/
def closings (k : FileTables W) (n : ℕ) : List ℕ :=
  (k.closed.filter fun e => e.1 = n).map Prod.snd

/-- The count of a node is the number of its slots. -/
def Counted (k : FileTables W) (n : ℕ) : Prop := (k.refcount n).toNat = k.refs n

/-- The count of a node is right, and its close operation has run once after its last slot has been
emptied, and not before. -/
structure Balanced (k : FileTables W) (n : ℕ) : Prop where
  count : Counted k n
  once : k.unused n = false → k.closings n = if k.refs n = 0 then [0] else []
  spare : k.unused n = true → k.closings n = [] ∨ k.closings n = [0]

/-! ### One node -/

lemma Counted.take (h : Counted k n) (hs : s ∈ k.slots) (hfree : k.files s = none)
    (hroom : k.refs n + 1 < 2 ^ 32) :
  Counted (k.take s n offset flags) n
  := by
  have hcount : (k.take s n offset flags).refcount n = k.refcount n + 1 := update_self ..
  have h' : (k.refcount n).toNat = k.refs n := h
  rw [Counted, hcount, refs_take hs hfree, if_pos rfl, BitVec.toNat_add, h']
  exact mod_eq_of_lt hroom

lemma Counted.release (h : Counted k n) (hs : s ∈ k.slots) (hn : k.files s = some n) :
  Counted (release ops k s n) n
  := by
  have h' : (k.refcount n).toNat = k.refs n := h
  have hrefs : k.refs n = (FileTables.release ops k s n).refs n + 1 := by
    rw [refs_release hs hn, if_pos rfl]
  have hcount : (FileTables.release ops k s n).refcount n
      = if 1 < k.refcount n then k.refcount n - 1 else 0 := by
    rw [FileTables.release]
    split
    · next hlt => exact (update_self ..).trans (if_pos hlt).symm
    · next hlt => exact (update_self ..).trans (if_neg hlt).symm
  rw [Counted, hcount]
  split
  · next hlt =>
    rw [BitVec.toNat_sub_of_le (BitVec.le_of_lt hlt), h', hrefs]
    rfl
  · next hlt =>
    have hlt' : ¬ 1 < (k.refcount n).toNat := hlt
    change 0 = _
    omega

lemma closings_vfsClose : (vfsClose ops k n).closings m
    = if n = m then k.refs n :: k.closings m else k.closings m
  := by
  rw [closings, vfsClose, filter_cons]
  by_cases hnm : n = m
  · rw [if_pos (decide_eq_true hnm), if_pos hnm]
    rfl
  · rw [if_neg (by simpa using hnm), if_neg hnm]
    rfl

/-- The close operation runs with the last slot. -/
lemma closings_release (h : Counted k n) (hs : s ∈ k.slots) (hn : k.files s = some n) :
  (release ops k s n).closings n
    = if (release ops k s n).refs n = 0 then 0 :: k.closings n else k.closings n
  := by
  have h' : (k.refcount n).toNat = k.refs n := h
  have hrefs : k.refs n = (release ops k s n).refs n + 1 := by
    rw [refs_release hs hn, if_pos rfl]
  by_cases hlt : 1 < k.refcount n
  · have hlt' : 1 < (k.refcount n).toNat := hlt
    have hrelease : release ops k s n = (k.clearSlot s).setRefcount n (k.refcount n - 1) :=
      if_pos hlt
    rw [if_neg (by omega), hrelease]
    rfl
  · have hlt' : ¬ 1 < (k.refcount n).toNat := hlt
    have hzero : (release ops k s n).refs n = 0 := by omega
    have hrelease : release ops k s n = vfsClose ops ((k.clearSlot s).setRefcount n 0) n :=
      if_neg hlt
    rw [if_pos hzero, hrelease, closings_vfsClose, if_pos rfl]
    rw [hrelease] at hzero
    exact congrArg (· :: k.closings n) hzero

lemma closings_release_of_ne (hne : n ≠ m) : (release ops k s n).closings m = k.closings m
  := by
  rw [release]
  split
  · rfl
  · rw [closings_vfsClose, if_neg hne]
    rfl

lemma unused_release : (release ops k s n).unused = k.unused
  := by
  rw [release]
  split <;> rfl

lemma refcount_release_of_ne (hne : n ≠ m) : (release ops k s n).refcount m = k.refcount m
  := by
  rw [release]
  split
  · exact update_of_ne hne.symm ..
  · exact update_of_ne hne.symm ..

lemma Sound.closings_eq_nil (h : Sound k) (hn : k.nodeCount ≤ n) : k.closings n = []
  := by
  rw [closings, map_eq_nil_iff, filter_eq_nil_iff]
  intro e he
  have := h.closed e he
  rw [decide_eq_true_iff]
  omega

lemma closings_of_notMem (hn : n ∉ k.closed.map Prod.fst) : k.closings n = []
  := by
  rw [closings, map_eq_nil_iff, filter_eq_nil_iff]
  intro e he heq
  exact hn (mem_map.mpr ⟨e, he, of_decide_eq_true heq⟩)

section

variable (h : Balanced k n)

include h

/-- What the calls do to other nodes does not matter. -/
lemma Balanced.congr (hrefs : k'.refs n = k.refs n)
    (hcount : k'.refcount n = k.refcount n) (hunused : k'.unused n = k.unused n)
    (hclosings : k'.closings n = k.closings n) :
  Balanced k' n
  := by
  refine ⟨?_, ?_, ?_⟩
  · rw [Counted, hcount, hrefs]
    exact h.count
  · rw [hunused, hclosings, hrefs]
    exact h.once
  · rw [hunused, hclosings]
    exact h.spare

lemma Balanced.first (hs : s ∈ k.slots) (hfree : k.files s = none)
    (hunused : k.refs n = 0) (hnew : n ∉ k.closed.map Prod.fst) :
  Balanced (k.take s n offset flags) n
  := by
  refine ⟨h.count.take hs hfree (by omega), fun _ => ?_, fun hused => ?_⟩
  · rw [refs_take hs hfree, if_pos rfl]
    exact closings_of_notMem hnew
  · exact absurd ((update_self ..).symm.trans hused) Bool.false_ne_true

lemma Balanced.take (hsound : Sound k) (hs : s ∈ k.slots)
    (hfree : k.files s = none) (hn : 0 < k.refs n) (hroom : k.refs n + 1 < 2 ^ 32) :
  Balanced (k.take s n offset flags) n
  := by
  refine ⟨h.count.take hs hfree hroom, fun _ => ?_, fun hused => ?_⟩
  · have honce := h.once (hsound.lt_of_refs hn).2
    rw [if_neg (ne_of_gt hn)] at honce
    rw [refs_take hs hfree, if_pos rfl]
    exact honce
  · exact absurd ((update_self ..).symm.trans hused) Bool.false_ne_true

lemma Balanced.take_of_ne (hs : s ∈ k.slots) (hfree : k.files s = none)
    (hne : n ≠ m) :
  Balanced (k.take s m offset flags) n
  := by
  have hrefs : (k.take s m offset flags).refs n = k.refs n := by
    rw [refs_take hs hfree, if_neg hne, add_zero]
  exact h.congr hrefs (update_of_ne hne ..) (update_of_ne hne ..) rfl

lemma Balanced.release (hsound : Sound k) (hs : s ∈ k.slots)
    (hn : k.files s = some n) :
  Balanced (release ops k s n) n
  := by
  have hpos := refs_pos hs hn
  have hused := (hsound.lt_of_refs hpos).2
  refine ⟨h.count.release hs hn, fun _ => ?_, fun hunused => ?_⟩
  · have honce := h.once hused
    rw [if_neg (ne_of_gt hpos)] at honce
    rw [closings_release h.count hs hn, honce]
  · rw [unused_release, hused] at hunused
    exact absurd hunused Bool.false_ne_true

end

/-! ### All nodes -/

lemma stable_balanced (start : ℕ) :
  Stable ops fun k : FileTables W => ∀ n, start ≤ n → n < k.nodeCount → Balanced k n
  where
  setFlags k s flags h n hstart hn := (h n hstart hn).congr rfl rfl rfl rfl
  newNode k hsound h n hstart hn := by
    by_cases hnew : n = k.nodeCount
    · subst hnew
      have hrefs : k.newNode.refs k.nodeCount = 0 := by
        rw [refs, refs_eq_zero_iff]
        exact fun s _ hs => lt_irrefl _ (hsound.slot s _ hs).2
      have hcount : k.newNode.refcount k.nodeCount = 0 := update_self ..
      refine ⟨?_, fun hused => ?_, fun _ => .inl (hsound.closings_eq_nil le_rfl)⟩
      · rw [Counted, hcount, hrefs]
        rfl
      · have hunused : k.newNode.unused k.nodeCount := update_self ..
        rw [hunused] at hused
        cases hused
    · have hold : n < k.nodeCount := lt_of_le_of_ne (le_of_lt_succ hn) hnew
      exact (h n hstart hold).congr rfl (update_of_ne hnew ..)
        (update_of_ne hnew ..) rfl
  first k s m offset flags hsound h hs hfree hunused hnew n hstart hn := by
    by_cases hnm : n = m
    · subst hnm
      exact (h n hstart hn).first hs hfree (hsound.refs_unused hunused) hnew
    · exact (h n hstart hn).take_of_ne hs hfree hnm
  take k s m offset flags hsound h hs hfree hm hroom n hstart hn := by
    by_cases hnm : n = m
    · subst hnm
      exact (h n hstart hn).take hsound hs hfree hm hroom
    · exact (h n hstart hn).take_of_ne hs hfree hnm
  waste k m hsound h hunused hnew n hstart hn := by
    by_cases hmn : m = n
    · subst hmn
      refine ⟨(h m hstart hn).count, fun hused => ?_, fun _ => .inr ?_⟩
      · exact absurd (hused.symm.trans hunused) Bool.false_ne_true
      · rw [closings_vfsClose, if_pos rfl, hsound.refs_unused hunused, closings_of_notMem hnew]
    · have hclosings : (vfsClose ops k m).closings n = k.closings n := by
        rw [closings_vfsClose, if_neg hmn]
      exact (h n hstart hn).congr rfl rfl rfl hclosings
  release k s m hsound h hs hm n hstart hn := by
    have hn' : n < k.nodeCount := by
      have hcount : (release ops k s m).nodeCount = k.nodeCount := by
        rw [release]
        split <;> rfl
      rwa [hcount] at hn
    by_cases hmn : m = n
    · subst hmn
      exact (h m hstart hn').release hsound hs hm
    · apply (h n hstart hn').congr _ (refcount_release_of_ne hmn) (congrFun unused_release n)
        (closings_release_of_ne hmn)
      rw [refs_release (m := n) hs hm, if_neg (Ne.symm hmn), add_zero]
  birth k hsound h n hstart hn := (h n hstart hn).congr hsound.refs_birth rfl rfl rfl
  death k p hsound h hp n hstart hn := (h n hstart hn).congr (refs_death hp) rfl rfl rfl

/-- In a run in which no count reaches `2 ^ 32`, the nodes that the calls have made are balanced. -/
theorem run_balanced {calls : List (ℕ × FileCall)} (h : Sound k) (hroom : RoomRun ops k calls)
    (hmade : k.nodeCount ≤ n) (hn : n < (calls.foldl (step ops) k).nodeCount) :
  Balanced (calls.foldl (step ops) k) n
  := by
  have hkeeps : Keeps (fun k' : FileTables W => ∀ n, k.nodeCount ≤ n → n < k'.nodeCount →
      Balanced k' n) k := by
    refine ⟨h, fun n hstart hlt => ?_⟩
    omega
  exact (hkeeps.run (stable_balanced k.nodeCount) calls hroom).2 n hmade hn

/-- There is room as long as there are few processes. -/
lemma FileCall.room_of_card_lt (call : FileCall) (h : k.live.card < 2 ^ 24) : call.Room k p
  := by
  have hrefs : ∀ n, k.refs n ≤ k.live.card * maxOpenFiles := by
    intro n
    apply refs_le_card.trans
    rw [slots, Finset.card_product, Finset.card_range]
  have hrow : ∀ n, k.rowRefs p n ≤ maxOpenFiles := by
    intro n
    apply refs_le_card.trans
    rw [row, Finset.card_product, Finset.card_singleton, Finset.card_range, one_mul]
  have hsmall : k.live.card * maxOpenFiles + maxOpenFiles ≤ 2 ^ 31 := by
    rw [maxOpenFiles]
    omega
  cases call with
  | dup | dup2 | dup3 | fcntlDupfd =>
    intro n _
    have := hrefs n
    omega
  | clone =>
    intro n
    have := hrefs n
    have := hrow n
    omega
  | _ => trivial

/-- One process without open files. -/
def fresh : FileTables Unit where
  live := {0}
  files _ := none
  fileOffsets _ := 0
  fileFlags _ := 0
  refcount _ := 0
  nodeCount := 0
  processCount := 1
  unused _ := false
  closed := []
  world := ()

/-- Files whose operations do nothing. -/
def plainOps : FileOps Unit where
  onOpen _ world := world
  onClose _ world := world

lemma sound_fresh : Sound fresh where
  slot _ _ h := nomatch h
  live p hp := by
    rw [Finset.mem_singleton.mp hp]
    exact one_pos
  closed _ he := nomatch he
  unused _ h := nomatch h

/-- A pipe is passed on to a child; one closes the reader and the other exits. -/
theorem run_balanced_pipe :
  Balanced ([(0, .pipe2 0), (0, .clone), (0, .close 3), (1, .exit)].foldl (step plainOps) fresh) 0
  := by
  apply run_balanced sound_fresh _ (zero_le 0) (by decide +kernel)
  exact ⟨trivial, room_of_card_lt _ (by decide +kernel), trivial, trivial, trivial⟩

/-! ### The count wraps -/

/-- Every `clone` adds the slots of the parent to the counts. -/
lemma run_clones (hs : Sound k) (hp : p ∈ k.live) (n m : ℕ) :
  ∃ k', (List.replicate m (p, clone)).foldl (step ops) k = k' ∧ Sound k'
    ∧ p ∈ k'.live ∧ (∀ i, k'.files (p, i) = k.files (p, i)) ∧ k'.closed = k.closed
    ∧ k'.refs n = k.refs n + m * k.rowRefs p n
    ∧ k'.refcount n = k.refcount n + BitVec.ofNat 32 (m * k.rowRefs p n)
  := by
  induction m with
  | zero =>
    refine ⟨k, rfl, hs, hp, fun _ => rfl, rfl, ?_, ?_⟩
    · rw [zero_mul, add_zero]
    · rw [zero_mul]
      exact (BitVec.add_zero _).symm
  | succ m ih =>
    obtain ⟨k', hrun, hs', hp', hparent, hclosed, hrefs, hcount⟩ := ih
    have hcopied := copied_sysClone hs' hp'
    have hrow : k'.rowRefs p n = k.rowRefs p n := by
      apply refs_congr
      rintro ⟨q, i⟩ hq
      rw [row, Finset.mem_product, Finset.mem_singleton] at hq
      have hqp : q = p := hq.1
      rw [hqp, hparent]
    have hmul : (m + 1) * k.rowRefs p n = m * k.rowRefs p n + k.rowRefs p n := succ_mul ..
    refine ⟨k'.sysClone p, ?_, hcopied.sound, ?_, ?_, ?_, ?_, ?_⟩
    · rw [replicate_succ', foldl_append, hrun]
      exact if_pos hp'
    · rw [hcopied.live]
      exact Finset.mem_insert_of_mem hp'
    · exact fun i => (hcopied.parent i).trans (hparent i)
    · exact hcopied.closed.trans hclosed
    · have hadd : (k'.sysClone p).refs n = k'.refs n + k'.rowRefs p n := hcopied.refs n
      rw [hadd, hrefs, hrow, hmul, add_assoc]
    · have hadd : (k'.sysClone p).refcount n
          = k'.refcount n + BitVec.ofNat 32 (k'.rowRefs p n) := hcopied.refcount n
      rw [hadd, hcount, hrow, hmul, BitVec.ofNat_add, BitVec.add_assoc]

/-- Once `clone` has brought the slots to `2 ^ 32`, the first close runs the close operation. -/
lemma closings_of_wrap {fd : ℕ} (hs : Sound k) (hp : p ∈ k.live) (hfd : k.files (p, fd) = some n)
    (hcount : Counted k n) (hfull : k.refs n + m * k.rowRefs p n = 2 ^ 32)
    (hrun : (List.replicate m (p, clone)).foldl (step ops) k = k') :
  k'.refs n = 2 ^ 32 ∧ k'.refcount n = 0
    ∧ (step ops k' (p, .close fd)).closings n = (2 ^ 32 - 1) :: k.closings n
  := by
  obtain ⟨k₁, hrun₁, hs₁, hp₁, hparent, hclosed, hrefs, hrefcount⟩ := run_clones hs hp n m
  rw [hrun] at hrun₁
  subst hrun₁
  have hzero : k'.refcount n = 0 := by
    apply BitVec.eq_of_toNat_eq
    have hcount' : (k.refcount n).toNat = k.refs n := hcount
    rw [hrefcount, BitVec.toNat_add, BitVec.toNat_ofNat, add_mod_mod, hcount', hfull]
    rfl
  rw [hfull] at hrefs
  refine ⟨hrefs, hzero, ?_⟩
  have hslot : k'.files (p, fd) = some n := by rw [hparent, hfd]
  obtain ⟨hmem, -⟩ := hs₁.slot _ n hslot
  have hstep : step ops k' (p, .close fd)
      = vfsClose ops ((k'.clearSlot (p, fd)).setRefcount n 0) n := by
    have hsmall : ¬ 1 < k'.refcount n := by
      rw [hzero]
      decide
    have hclose : (sysClose ops k' p fd).2 = release ops k' (p, fd) n := by
      simp only [sysClose, fileAt_natCast (mem_slots.mp hmem).2, hslot, Int.toNat_natCast]
    rw [step, if_pos hp₁]
    exact hclose.trans (if_neg hsmall)
  have hless : k'.refs n = ((k'.clearSlot (p, fd)).setRefcount n 0).refs n + 1 :=
    (refs_clear (n := n) hmem hslot).trans (by rw [if_pos rfl]; rfl)
  have hlast : ((k'.clearSlot (p, fd)).setRefcount n 0).refs n = 2 ^ 32 - 1 := by omega
  have hsame : ((k'.clearSlot (p, fd)).setRefcount n 0).closings n = k.closings n := by
    rw [closings, closings, ← hclosed]
    rfl
  rw [hstep, closings_vfsClose, if_pos rfl, hlast, hsame]

/-- A process with 16 descriptors for the reader of a pipe. -/
def hoarder : FileTables Unit :=
  ((0, .pipe2 0) :: List.replicate 15 (0, .dup 3)).foldl (step plainOps) fresh

lemma sound_hoarder : Sound hoarder
  := by
  have hdups : ∀ m k, k.live = {0} → RoomRun plainOps k (replicate m (0, .dup 3)) := by
    intro m
    induction m with
    | zero => exact fun _ _ => trivial
    | succ m ih =>
      intro k hk
      refine ⟨room_of_card_lt _ (by rw [hk]; decide), ih _ ?_⟩
      rw [step, effect]
      split
      · rw [sysDup]
        split
        · exact hk
        · split <;> exact hk
      · exact hk
  have hkeeps : Keeps (fun k : FileTables Unit => ∀ n, 0 ≤ n → n < k.nodeCount → Balanced k n)
      fresh := ⟨sound_fresh, fun n _ hn => absurd hn (not_lt_zero n)⟩
  have hroom : RoomRun plainOps fresh ((0, .pipe2 0) :: replicate 15 (0, .dup 3)) :=
    ⟨trivial, hdups 15 _ (by decide +kernel)⟩
  exact (hkeeps.run (stable_balanced 0) _ hroom).1

/-- The process has forked. -/
def crowd (m : ℕ) : FileTables Unit :=
  (List.replicate m (0, .clone)).foldl (step plainOps) hoarder

/-- In `2 ^ 28` processes there are `2 ^ 32` descriptors, and the first close runs the close
operation. -/
theorem crowd_closed_early :
  (crowd (2 ^ 28 - 1)).refs 0 = 2 ^ 32 ∧ (crowd (2 ^ 28 - 1)).refcount 0 = 0
    ∧ (step plainOps (crowd (2 ^ 28 - 1)) (0, .close 3)).closings 0 = [2 ^ 32 - 1]
  := by
  have hstart : 0 ∈ hoarder.live ∧ hoarder.files (0, 3) = some 0 ∧ hoarder.refs 0 = 16
      ∧ hoarder.rowRefs 0 0 = 16 ∧ hoarder.refcount 0 = 16 ∧ hoarder.closings 0 = [] := by
    decide +kernel
  obtain ⟨hlive, hslot, hrefs, hrow, hcount, hclosings⟩ := hstart
  have hrun : ∀ m, (replicate m (0, clone)).foldl (step plainOps) hoarder
      = crowd m := fun _ => rfl
  have hcounted : Counted hoarder 0 := by
    rw [Counted, hcount, hrefs]
    rfl
  have hfull : hoarder.refs 0 + (2 ^ 28 - 1) * hoarder.rowRefs 0 0 = 2 ^ 32 := by
    rw [hrefs, hrow]
    rfl
  have hwrap := closings_of_wrap sound_hoarder hlive hslot hcounted hfull (hrun _)
  rwa [hclosings] at hwrap

end FileTables
