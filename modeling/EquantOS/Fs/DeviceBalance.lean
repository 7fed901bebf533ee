import EquantOS.Fs.Devices

/-!
# Opening and closing devices

The open operation of a device runs with every look-up, its close operation with the last slot.
So the counts of the devices are right as long as a device is looked up only to be opened, with
success, while no slot refers to it.  Then the master of a terminal sees the end of the file, and
the audio engine is flushed and halted, exactly while there is no slot.
-/

open Function Option

/-- A pair with its ends open or closed. -/
def PtyPair.state (masterOpen slaveOpen : Bool) (master slave : ℕ) : PtyPair :=
  ⟨true, masterOpen, slaveOpen, if masterOpen then 1 else 0, if slaveOpen then 1 else 0,
    some master, some slave⟩

namespace Devices

open Nat

variable {w : Devices} {i j n master slave : ℕ} {masterOpen slaveOpen : Bool}

lemma pairs_setPair_self {pair : PtyPair} : (w.setPair i pair).pairs i = pair
  := update_self ..

lemma pairs_setPair_of_ne {pair : PtyPair} (h : j ≠ i) : (w.setPair i pair).pairs j = w.pairs j
  := update_of_ne h ..

lemma ptySlaveClose_eq (h : w.pairs i = .state masterOpen true master slave) :
  w.ptySlaveClose i
    = w.setPair i (if masterOpen then .state masterOpen false master slave else .zero)
  := by
  rw [ptySlaveClose, h]
  cases masterOpen <;> rfl

lemma ptyMasterClose_eq (h : w.pairs i = .state true slaveOpen master slave) :
  w.ptyMasterClose i
    = w.setPair i (if slaveOpen then .state false slaveOpen master slave else .zero)
  := by
  rw [ptyMasterClose, h]
  cases slaveOpen <;> rfl

/-- The nodes are the same; the states of the devices may differ. -/
structure SameNodes (w w' : Devices) : Prop where
  kind : w'.kind = w.kind
  dspNode : w'.dspNode = w.dspNode
  ttyNode : w'.ttyNode = w.ttyNode
  directory : w'.directory = w.directory
  controllingTty : w'.controllingTty = w.controllingTty

lemma sameNodes_onClose : SameNodes w (ops.onClose n w)
  := by
  rw [ops]
  dsimp only
  split
  · rw [ptySlaveClose]
    dsimp only
    split_ifs <;> exact ⟨rfl, rfl, rfl, rfl, rfl⟩
  · rw [ptyMasterClose]
    dsimp only
    split_ifs <;> exact ⟨rfl, rfl, rfl, rfl, rfl⟩
  · rw [ac97FopsClose]
    split_ifs <;> exact ⟨rfl, rfl, rfl, rfl, rfl⟩
  · exact ⟨rfl, rfl, rfl, rfl, rfl⟩

end Devices

namespace DeviceTables

open FileTables Devices

variable {k k' : DeviceTables} {s : ℕ × ℕ} {p n i offset : ℕ} {flags : BitVec 32}

/-! ### The invariant -/

/-- The node is one of an end of a pair, now or earlier. -/
def Belongs (k : DeviceTables) (i n : ℕ) : Prop :=
  k.world.kind n = .master i ∨ k.world.kind n = .slave i

/-- A pair is free, or its slave is open exactly if there are slots for it. -/
def PairOk (k : DeviceTables) (i : ℕ) : Prop :=
  (k.world.pairs i = .zero ∧ ∀ n, Belongs k i n → k.refs n = 0)
  ∨ ∃ masterOpen master slave, k.world.kind master = .master i ∧ k.world.kind slave = .slave i
    ∧ k.world.pairs i = .state masterOpen (decide (k.refs slave ≠ 0)) master slave
    ∧ (masterOpen = false → k.refs master = 0 ∧ k.refs slave ≠ 0)
    ∧ ∀ n, Belongs k i n → n ≠ master → n ≠ slave → k.refs n = 0

/-- The audio device is open exactly if there are slots for it, and flushed and halted otherwise. -/
structure DspOk (k : DeviceTables) : Prop where
  openCount : k.world.dsp.openCount = if k.refs k.world.dspNode = 0 then 0 else 1
  silent : k.refs k.world.dspNode = 0 → k.world.dsp.queued = 0 ∧ k.world.dsp.running = false
  halts : k.closings k.world.dspNode = List.replicate k.world.dsp.halts 0

structure DevicesOk (k : DeviceTables) : Prop where
  node (n : ℕ) : k.world.kind n ≠ .plain → n < k.nodeCount ∧ k.unused n = false ∧ Counted k n
  tty : k.world.ttyNode < k.nodeCount ∧ k.world.kind k.world.ttyNode = .plain
  controllingTty (p n : ℕ) : k.world.controllingTty p = some n → n < k.nodeCount
  dspNode (n : ℕ) : k.world.kind n = .dsp ↔ n = k.world.dspNode
  pair (i : ℕ) : PairOk k i
  dsp : DspOk k

/-- The nodes of the pair are the same, and so is which of them have slots. -/
lemma PairOk.of_kinds (h : PairOk k i)
    (hmaster : ∀ n, k'.world.kind n = .master i ↔ k.world.kind n = .master i)
    (hslave : ∀ n, k'.world.kind n = .slave i ↔ k.world.kind n = .slave i)
    (hpair : k'.world.pairs i = k.world.pairs i)
    (hrefs : ∀ n, Belongs k i n → (k'.refs n = 0 ↔ k.refs n = 0)) :
  PairOk k' i
  := by
  have hbelongs : ∀ n, Belongs k' i n → Belongs k i n := by
    intro n hn
    rwa [Belongs, hmaster, hslave] at hn
  rcases h with ⟨hzero, hnone⟩ | ⟨masterOpen, master, slave, hm, hs, hstate, hclosed, hother⟩
  · refine .inl ⟨hpair.trans hzero, fun n hn => ?_⟩
    rw [hrefs n (hbelongs n hn)]
    exact hnone n (hbelongs n hn)
  refine .inr ⟨masterOpen, master, slave, (hmaster master).mpr hm, (hslave slave).mpr hs, ?_, ?_, ?_⟩
  · rw [hpair, hstate]
    congr 1
    exact decide_eq_decide.mpr (not_congr (hrefs slave (.inr hs)).symm)
  · rw [hrefs master (.inl hm), ne_eq, hrefs slave (.inr hs)]
    exact hclosed
  · intro n hn hnm hns
    rw [hrefs n (hbelongs n hn)]
    exact hother n (hbelongs n hn) hnm hns

lemma PairOk.congr (h : PairOk k i) (hkind : k'.world.kind = k.world.kind)
    (hpair : k'.world.pairs i = k.world.pairs i)
    (hrefs : ∀ n, Belongs k i n → (k'.refs n = 0 ↔ k.refs n = 0)) :
  PairOk k' i
  := h.of_kinds (fun n => by rw [hkind]) (fun n => by rw [hkind]) hpair hrefs

lemma DspOk.congr (h : DspOk k) (hnode : k'.world.dspNode = k.world.dspNode)
    (hdsp : k'.world.dsp = k.world.dsp)
    (hrefs : k'.refs k.world.dspNode = 0 ↔ k.refs k.world.dspNode = 0)
    (hclosings : k'.closings k.world.dspNode = k.closings k.world.dspNode) :
  DspOk k'
  := by
  refine ⟨?_, ?_, ?_⟩
  · rw [hnode, hdsp, h.openCount]
    simp only [hrefs]
  · rw [hnode, hdsp, hrefs]
    exact h.silent
  · rw [hnode, hdsp, hclosings]
    exact h.halts

/-- A change that leaves the world and the slots of devices as they are, up to their number. -/
lemma DevicesOk.frame (h : DevicesOk k) (hworld : k'.world = k.world)
    (hcount : k.nodeCount ≤ k'.nodeCount)
    (hnode : ∀ n, k.world.kind n ≠ .plain →
      k'.unused n = false ∧ Counted k' n ∧ (k'.refs n = 0 ↔ k.refs n = 0))
    (hclosings : k'.closings k.world.dspNode = k.closings k.world.dspNode) :
  DevicesOk k'
  := by
  have hdsp : k.world.kind k.world.dspNode ≠ .plain := by
    rw [(h.dspNode _).mpr rfl]
    exact nofun
  refine ⟨fun n hn => ?_, ?_, fun p n hn => ?_, ?_, fun i => ?_, ?_⟩
  · rw [hworld] at hn
    exact ⟨(h.node n hn).1.trans_le hcount, (hnode n hn).1, (hnode n hn).2.1⟩
  · rw [hworld]
    exact ⟨h.tty.1.trans_le hcount, h.tty.2⟩
  · rw [hworld] at hn
    exact (h.controllingTty p n hn).trans_le hcount
  · rw [hworld]
    exact h.dspNode
  · apply (h.pair i).congr (by rw [hworld]) (by rw [hworld])
    rintro n (hn | hn)
    · exact (hnode n (by rw [hn]; exact nofun)).2.2
    · exact (hnode n (by rw [hn]; exact nofun)).2.2
  · exact h.dsp.congr (by rw [hworld]) (by rw [hworld]) (hnode _ hdsp).2.2 hclosings

/-- The pair of a slave with slots. -/
lemma PairOk.of_slave (h : PairOk k i) (hkind : k.world.kind n = .slave i) (hn : k.refs n ≠ 0) :
  ∃ masterOpen master, k.world.kind master = .master i
    ∧ k.world.pairs i = .state masterOpen true master n
    ∧ (masterOpen = false → k.refs master = 0)
    ∧ ∀ m, Belongs k i m → m ≠ master → m ≠ n → k.refs m = 0
  := by
  rcases h with ⟨-, hnone⟩ | ⟨masterOpen, master, slave, hm, hs, hstate, hclosed, hother⟩
  · exact absurd (hnone n (.inr hkind)) hn
  have hne : n ≠ master := by
    rintro rfl
    rw [hm] at hkind
    cases hkind
  have heq : n = slave := by
    by_contra hns
    exact hn (hother n (.inr hkind) hne hns)
  subst heq
  rw [decide_eq_true hn] at hstate
  exact ⟨masterOpen, master, hm, hstate, fun hopen => (hclosed hopen).1, hother⟩

/-- The pair of a master with slots. -/
lemma PairOk.of_master (h : PairOk k i) (hkind : k.world.kind n = .master i) (hn : k.refs n ≠ 0) :
  ∃ slave, k.world.kind slave = .slave i
    ∧ k.world.pairs i = .state true (decide (k.refs slave ≠ 0)) n slave
    ∧ ∀ m, Belongs k i m → m ≠ n → m ≠ slave → k.refs m = 0
  := by
  rcases h with ⟨-, hnone⟩ | ⟨masterOpen, master, slave, hm, hs, hstate, hclosed, hother⟩
  · exact absurd (hnone n (.inl hkind)) hn
  have hne : n ≠ slave := by
    rintro rfl
    rw [hs] at hkind
    cases hkind
  have heq : n = master := by
    by_contra hnm
    exact hn (hother n (.inl hkind) hnm hne)
  subst heq
  cases masterOpen with
  | false => exact absurd (hclosed rfl).1 hn
  | true => exact ⟨slave, hs, hstate, hother⟩

/-! ### Changes at one node -/

lemma master_ne_slave {master slave : ℕ} (hm : k.world.kind master = .master i)
    (hs : k.world.kind slave = .slave i) :
  master ≠ slave
  := by
  rintro rfl
  rw [hm] at hs
  cases hs

/-- A node has other slots, and maybe another state. -/
structure ChangedAt (k k' : DeviceTables) (n : ℕ) : Prop where
  nodes : SameNodes k.world k'.world
  count : k'.nodeCount = k.nodeCount
  node (m : ℕ) : k.world.kind m ≠ .plain → k'.unused m = false ∧ Counted k' m
  refs (m : ℕ) : m ≠ n → k'.refs m = k.refs m
  closings (m : ℕ) : m ≠ n → k'.closings m = k.closings m

namespace ChangedAt

variable (hc : ChangedAt k k' n) (h : DevicesOk k)
include hc h

lemma devicesOk (hpair : ∀ i, PairOk k' i) (hdsp : DspOk k') : DevicesOk k'
  := by
  refine ⟨fun m hm => ?_, ?_, fun p m hm => ?_, fun m => ?_, hpair, hdsp⟩
  · rw [hc.nodes.kind] at hm
    exact ⟨hc.count.symm ▸ (h.node m hm).1, hc.node m hm⟩
  · rw [hc.nodes.kind, hc.nodes.ttyNode, hc.count]
    exact h.tty
  · rw [hc.nodes.controllingTty] at hm
    rw [hc.count]
    exact h.controllingTty p m hm
  · rw [hc.nodes.kind, hc.nodes.dspNode]
    exact h.dspNode m

/-- The pairs that the node is none of. -/
lemma pair_of_not_belongs (hn : ¬ Belongs k i n)
    (hpair : k'.world.pairs i = k.world.pairs i) :
  PairOk k' i
  := by
  apply (h.pair i).congr hc.nodes.kind hpair
  intro m hm
  have hne : m ≠ n := by
    rintro rfl
    exact hn hm
  rw [hc.refs m hne]

/-- The node is one of a pair. -/
lemma pair {pair : PtyPair} (hn : Belongs k i n) (hworld : k'.world = k.world.setPair i pair)
    (hpair : PairOk k' i) :
  DevicesOk k'
  := by
  have hdsp : k.world.dspNode ≠ n := by
    rintro rfl
    have hkind := (h.dspNode _).mpr rfl
    rcases hn with hn | hn <;> rw [hkind] at hn <;> cases hn
  apply hc.devicesOk h
  · intro j
    by_cases hji : j = i
    · rw [hji]
      exact hpair
    apply hc.pair_of_not_belongs h
    · rintro (hj | hj) <;> rcases hn with hn | hn <;> rw [hn] at hj <;> cases hj
      · exact hji rfl
      · exact hji rfl
    · rw [hworld]
      exact pairs_setPair_of_ne hji
  · apply h.dsp.congr hc.nodes.dspNode (by rw [hworld]; rfl) _ (hc.closings _ hdsp)
    rw [hc.refs _ hdsp]

/-- The node is the audio device. -/
lemma dsp (hkind : k.world.kind n = .dsp) (hpairs : k'.world.pairs = k.world.pairs)
    (hdsp : DspOk k') :
  DevicesOk k'
  := by
  refine hc.devicesOk h (fun i => hc.pair_of_not_belongs h ?_ (by rw [hpairs])) hdsp
  rw [Belongs, hkind]
  exact nofun

end ChangedAt

/-! ### Closing -/

section Release

variable (hs : s ∈ k.slots) (hn : k.files s = some n)
include hs hn

lemma refs_release_self : k.refs n = (release ops k s n).refs n + 1
  := by
  rw [refs_release hs hn, if_pos rfl]

lemma refs_release_of_ne {m : ℕ} (hne : m ≠ n) : (release ops k s n).refs m = k.refs m
  := by
  rw [refs_release (m := m) hs hn, if_neg hne, add_zero]

omit hs hn in
lemma nodeCount_release : (release ops k s n).nodeCount = k.nodeCount
  := by
  rw [release]
  split <;> rfl

omit hs hn in
lemma world_release :
  (release ops k s n).world = if 1 < k.refcount n then k.world else ops.onClose n k.world
  := by
  by_cases hlt : 1 < k.refcount n
  · have hrelease : release ops k s n = (k.clearSlot s).setRefcount n (k.refcount n - 1) :=
      if_pos hlt
    rw [hrelease, if_pos hlt]
    rfl
  · have hrelease : release ops k s n = vfsClose ops ((k.clearSlot s).setRefcount n 0) n :=
      if_neg hlt
    rw [hrelease, if_neg hlt]
    rfl

/-- The close operation of a counted node runs with its last slot. -/
lemma world_release_of_counted (hcount : Counted k n) :
  (release ops k s n).world
    = if (release ops k s n).refs n = 0 then ops.onClose n k.world else k.world
  := by
  have hrefs := refs_release_self hs hn
  have hcount' : (k.refcount n).toNat = k.refs n := hcount
  rw [world_release]
  by_cases hlt : 1 < k.refcount n
  · have hlt' : 1 < (k.refcount n).toNat := hlt
    rw [if_pos hlt, if_neg (by omega)]
  · have hlt' : ¬ 1 < (k.refcount n).toNat := hlt
    rw [if_neg hlt, if_pos (by omega)]

lemma counted_release_of_ne {m : ℕ} (hne : m ≠ n) (hcount : Counted k m) :
  Counted (release ops k s n) m
  := by
  rw [Counted, refcount_release_of_ne hne.symm, refs_release_of_ne hs hn hne]
  exact hcount

section

variable (h : DevicesOk k)

include h

lemma DevicesOk.node_release (m : ℕ) (hm : k.world.kind m ≠ .plain) :
  (release ops k s n).unused m = false ∧ Counted (release ops k s n) m
  := by
  obtain ⟨-, hused, hcount⟩ := h.node m hm
  refine ⟨by rw [unused_release, hused], ?_⟩
  by_cases hmn : m = n
  · subst hmn
    exact hcount.release hs hn
  · exact counted_release_of_ne hs hn hmn hcount

/-- The close operation has not run, or has done nothing. -/
lemma DevicesOk.release_frame (hworld : (release ops k s n).world = k.world)
    (hrefs : k.world.kind n ≠ .plain → (release ops k s n).refs n ≠ 0) :
  DevicesOk (release ops k s n)
  := by
  have hsame : ∀ m, k.world.kind m ≠ .plain →
      ((release ops k s n).refs m = 0 ↔ k.refs m = 0) := by
    intro m hm
    by_cases hmn : m = n
    · subst hmn
      have hpos := refs_release_self hs hn
      have hne := hrefs hm
      omega
    · rw [refs_release_of_ne hs hn hmn]
  apply h.frame hworld nodeCount_release.ge
  · intro m hm
    obtain ⟨hused, hcount⟩ := h.node_release hs hn m hm
    exact ⟨hused, hcount, hsame m hm⟩
  · by_cases hdsp : n = k.world.dspNode
    · have hkind : k.world.kind n = .dsp := (h.dspNode n).mpr hdsp
      have hplain : k.world.kind n ≠ .plain := by
        rw [hkind]
        exact nofun
      rw [← hdsp, closings_release (h.node n hplain).2.2 hs hn, if_neg (hrefs hplain)]
    · exact closings_release_of_ne hdsp

/-- The nodes stay, and so do the slots of all of them but one. -/
lemma changedAt_release : ChangedAt k (release ops k s n) n where
  nodes := by
    rw [world_release]
    split
    · exact ⟨rfl, rfl, rfl, rfl, rfl⟩
    · exact sameNodes_onClose
  count := nodeCount_release
  node := h.node_release hs hn
  refs _ := refs_release_of_ne hs hn
  closings _ hne := closings_release_of_ne hne.symm

/-- The last slot of a slave. -/
lemma DevicesOk.release_slave (hkind : k.world.kind n = .slave i)
    (hlast : (release ops k s n).refs n = 0)
    (hworld : (release ops k s n).world = ops.onClose n k.world) :
  DevicesOk (release ops k s n)
  := by
  have hpos : k.refs n ≠ 0 := Nat.ne_of_gt (refs_pos hs hn)
  obtain ⟨masterOpen, master, hm, hstate, hclosed, hother⟩ := (h.pair i).of_slave hkind hpos
  have hclose : (release ops k s n).world
      = k.world.setPair i (if masterOpen then .state masterOpen false master n else .zero) := by
    rw [hworld, ← ptySlaveClose_eq hstate]
    simp only [ops, hkind]
  have hrest : ∀ m, Belongs k i m → m ≠ master → (release ops k s n).refs m = 0 := by
    intro m hb hmm
    by_cases hmn : m = n
    · rw [hmn, hlast]
    · rw [refs_release_of_ne hs hn hmn]
      exact hother m hb hmm hmn
  apply (changedAt_release hs hn h).pair h (.inr hkind) hclose
  cases masterOpen with
  | false =>
    refine .inl ⟨by rw [hclose]; exact pairs_setPair_self, fun m hb => ?_⟩
    have hb' : Belongs k i m := by rwa [Belongs, hclose] at hb
    by_cases hmm : m = master
    · rw [hmm, refs_release_of_ne hs hn (master_ne_slave hm hkind)]
      exact hclosed rfl
    · exact hrest m hb' hmm
  | true =>
    refine .inr ⟨true, master, n, by rw [hclose]; exact hm, by rw [hclose]; exact hkind, ?_,
      nofun, fun m hb hmm _ => ?_⟩
    · rw [hclose, pairs_setPair_self, hlast]
      rfl
    · have hb' : Belongs k i m := by rwa [Belongs, hclose] at hb
      exact hrest m hb' hmm

/-- The last slot of a master. -/
lemma DevicesOk.release_master (hkind : k.world.kind n = .master i)
    (hlast : (release ops k s n).refs n = 0)
    (hworld : (release ops k s n).world = ops.onClose n k.world) :
  DevicesOk (release ops k s n)
  := by
  have hpos : k.refs n ≠ 0 := Nat.ne_of_gt (refs_pos hs hn)
  obtain ⟨slave, hslave, hstate, hother⟩ := (h.pair i).of_master hkind hpos
  have hclose : (release ops k s n).world = k.world.setPair i
      (if decide (k.refs slave ≠ 0) then .state false (decide (k.refs slave ≠ 0)) n slave
      else .zero) := by
    rw [hworld, ← ptyMasterClose_eq hstate]
    simp only [ops, hkind]
  have hrefs := refs_release_of_ne hs hn (master_ne_slave hkind hslave).symm
  have hrest : ∀ m, Belongs k i m → m ≠ slave → (release ops k s n).refs m = 0 := by
    intro m hb hms
    by_cases hmn : m = n
    · rw [hmn, hlast]
    · rw [refs_release_of_ne hs hn hmn]
      exact hother m hb hmn hms
  apply (changedAt_release hs hn h).pair h (.inl hkind) hclose
  by_cases hopen : k.refs slave = 0
  · rw [if_neg (by simpa using hopen)] at hclose
    refine .inl ⟨by rw [hclose]; exact pairs_setPair_self, fun m hb => ?_⟩
    have hb' : Belongs k i m := by rwa [Belongs, hclose] at hb
    by_cases hms : m = slave
    · rw [hms, hrefs, hopen]
    · exact hrest m hb' hms
  · rw [if_pos (by simpa using hopen)] at hclose
    refine .inr ⟨false, n, slave, by rw [hclose]; exact hkind, by rw [hclose]; exact hslave, ?_,
      fun _ => ⟨hlast, hrefs ▸ hopen⟩, fun m hb _ hms => ?_⟩
    · rw [hclose, pairs_setPair_self, hrefs]
    · have hb' : Belongs k i m := by rwa [Belongs, hclose] at hb
      exact hrest m hb' hms

/-- The last slot of the audio device. -/
lemma DevicesOk.release_dsp (hkind : k.world.kind n = .dsp)
    (hlast : (release ops k s n).refs n = 0) (hcount : Counted k n)
    (hworld : (release ops k s n).world = ops.onClose n k.world) :
  DevicesOk (release ops k s n)
  := by
  have hnode : n = k.world.dspNode := (h.dspNode n).mp hkind
  have hopen : k.world.dsp.openCount = 1 := by
    rw [h.dsp.openCount, ← hnode, if_neg (Nat.ne_of_gt (refs_pos hs hn))]
  have hclose : (release ops k s n).world = { k.world with dsp := { k.world.dsp with
      openCount := 0, queued := 0, running := false, paused := false
      halts := k.world.dsp.halts + 1 } } := by
    rw [hworld]
    simp only [ops, hkind, ac97FopsClose, hopen]
    rfl
  apply (changedAt_release hs hn h).dsp h hkind (by rw [hclose])
  refine ⟨?_, fun _ => ?_, ?_⟩
  · rw [hclose]
    rw [← hnode, if_pos hlast]
  · rw [hclose]
    exact ⟨rfl, rfl⟩
  · rw [hclose]
    rw [← hnode, closings_release hcount hs hn, if_pos hlast, hnode, h.dsp.halts]
    rfl

lemma DevicesOk.release : DevicesOk (release ops k s n)
  := by
  by_cases hplain : k.world.kind n = .plain
  · apply h.release_frame hs hn _ (fun hne => absurd hplain hne)
    rw [world_release]
    split
    · rfl
    · simp only [ops, hplain]
  · have hcount := (h.node n hplain).2.2
    have hworld := world_release_of_counted hs hn hcount
    by_cases hlast : (FileTables.release ops k s n).refs n = 0
    · rw [if_pos hlast] at hworld
      cases hkind : k.world.kind n with
      | plain => exact absurd hkind hplain
      | slave i => exact h.release_slave hs hn hkind hlast hworld
      | master i => exact h.release_master hs hn hkind hlast hworld
      | dsp => exact h.release_dsp hs hn hkind hlast hcount hworld
    · rw [if_neg hlast] at hworld
      exact h.release_frame hs hn hworld fun _ => hlast

end

end Release

/-! ### Calls that are not about devices -/

/-- A slot gets a node that is no device, or one that has slots already. -/
lemma DevicesOk.take (h : DevicesOk k) (hs : s ∈ k.slots) (hfree : k.files s = none)
    (hn : k.world.kind n ≠ .plain → k.refs n ≠ 0 ∧ k.refs n + 1 < 2 ^ 32) :
  DevicesOk (k.take s n offset flags)
  := by
  refine h.frame rfl le_rfl (fun m hm => ⟨?_, ?_, ?_⟩) rfl
  · by_cases hmn : m = n
    · rw [hmn]
      exact update_self ..
    · exact (update_of_ne hmn ..).trans (h.node m hm).2.1
  · by_cases hmn : m = n
    · subst hmn
      exact (h.node m hm).2.2.take hs hfree (hn hm).2
    · rw [Counted, refs_take hs hfree, if_neg hmn, ← (h.node m hm).2.2]
      exact congrArg BitVec.toNat (update_of_ne hmn ..)
  · rw [refs_take hs hfree]
    by_cases hmn : m = n
    · subst hmn
      rw [if_pos rfl]
      exact iff_of_false (Nat.succ_ne_zero _) (hn hm).1
    · rw [if_neg hmn, add_zero]

section Open

variable (hs : s ∈ k.slots) (hfree : k.files s = none)
include hs hfree

section

variable (h : DevicesOk k) (hclosed : k.refs n = 0)

include h hclosed

end

end Open

/-! ### Calls -/

variable {kind : NodeKind} {path : DevicePath}

/-- The node may be opened now: it is no device, or a device in use that has no slots. -/
def Openable (k : DeviceTables) (n : ℕ) : Prop :=
  k.world.kind n = .plain
  ∨ k.refs n = 0
    ∧ (k.world.kind n = .dsp ∨ ∃ i, k.world.kind n = .slave i ∧ (k.world.pairs i).slaveNode = some n)

/-- The call looks up a device only to open it, with success, while no slot refers to it. -/
def DeviceCall.Fair (k : DeviceTables) (p : ℕ) : DeviceCall → Prop
  | .file call => call.Room k p
  | .openat .ptmx _ => True
  | .openat .tty _ => ∀ n, k.world.controllingTty p = some n → Openable k n
      ∧ (k.world.kind n ≠ .plain → (k.firstFree p 3).isSome)
  | .openat path flags => ∀ n, k.vfsResolvePath path = some n → k.world.kind n ≠ .plain →
      k.refs n = 0 ∧ (k.firstFree p 3).isSome ∧ ¬ (flags &&& oCreat ≠ 0 ∧ flags &&& oExcl ≠ 0)
      ∧ ¬ (flags &&& oDirectory ≠ 0 ∧ !k.world.directory n)
  | .lookup path => ∀ n, k.vfsResolvePath path = some n → k.world.kind n = .plain
  | .setTty _ | .clearTty | .play _ _ _ _ => True

def FairRun (k : DeviceTables) : List (ℕ × DeviceCall) → Prop
  | [] => True
  | c :: calls => c.2.Fair k c.1 ∧ FairRun (DeviceCall.step k c) calls

section

variable (h : Keeps DevicesOk k)

include h

end

lemma world_sysClone : (k.sysClone p).world = k.world
  := by
  have hfold : ∀ (slots : List ℕ) (k₁ : DeviceTables),
      (slots.foldl (copySlot p k.processCount) k₁).world = k₁.world := by
    intro slots
    induction slots with
    | nil => exact fun _ => rfl
    | cons i slots ih =>
      intro k₁
      rw [List.foldl_cons, ih, copySlot]
      split <;> rfl
  exact hfold _ _

/-- No terminal has been made and the audio device has not been opened. -/
structure Booted (k : DeviceTables) : Prop where
  sound : Sound k
  kind (n : ℕ) : k.world.kind n = if n = k.world.dspNode then .dsp else .plain
  dspNode : k.world.dspNode < k.nodeCount
  ttyNode : k.world.ttyNode < k.nodeCount ∧ k.world.ttyNode ≠ k.world.dspNode
  controllingTty (p n : ℕ) : k.world.controllingTty p = some n → n < k.nodeCount
  pair (i : ℕ) : k.world.pairs i = .zero
  closed : k.unused k.world.dspNode = false ∧ k.refs k.world.dspNode = 0
    ∧ k.refcount k.world.dspNode = 0 ∧ k.closings k.world.dspNode = []
  dsp : k.world.dsp.openCount = 0 ∧ k.world.dsp.queued = 0 ∧ k.world.dsp.running = false
    ∧ k.world.dsp.halts = 0

lemma Booted.keeps (h : Booted k) : Keeps DevicesOk k
  := by
  obtain ⟨hused, hrefs, hcount, hclosings⟩ := h.closed
  obtain ⟨hopen, hqueued, hrunning, hhalts⟩ := h.dsp
  have hkind : ∀ n, k.world.kind n ≠ .plain → n = k.world.dspNode := by
    intro n hn
    by_contra hne
    rw [h.kind, if_neg hne] at hn
    exact hn rfl
  refine ⟨h.sound, fun n hn => ?_, ⟨h.ttyNode.1, ?_⟩, h.controllingTty, fun n => ?_, fun i => ?_, ?_⟩
  · rw [hkind n hn]
    refine ⟨h.dspNode, hused, ?_⟩
    rw [Counted, hcount, hrefs]
    rfl
  · rw [h.kind, if_neg h.ttyNode.2]
  · rw [h.kind]
    split_ifs with hn
    · exact iff_of_true rfl hn
    · exact iff_of_false (fun heq => by cases heq) hn
  · refine .inl ⟨h.pair i, fun n hn => ?_⟩
    rw [Belongs, h.kind] at hn
    split_ifs at hn <;> rcases hn with hn | hn <;> cases hn
  · refine ⟨?_, fun _ => ⟨hqueued, hrunning⟩, ?_⟩
    · rw [hopen, if_pos hrefs]
    · rw [hclosings, hhalts]
      rfl

end DeviceTables
