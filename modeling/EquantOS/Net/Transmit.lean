import EquantOS.Lib.Bytes

/-!
# The transmit buffers of the network card

The four descriptors of the card take their frames from one page, at a distance of 512 bytes, and
are handed over in rotation.  The card may still be reading the earlier ones.
-/

open List Function

namespace Rtl8139

open Bytes

/-- The memory from `tx_phys_addr` on, the next descriptor, the address and size registers of the
descriptors, and the frame last given for each. -/
structure Tx where
  mem : ℕ → UInt8
  txCurDesc : ℕ
  tsad : ℕ → ℕ
  tsd : ℕ → ℕ
  frame : ℕ → Option (List UInt8)

/-- `rtl8139_probe` clears the page. -/
def rtl8139Probe (mem : ℕ → UInt8) : Tx :=
  ⟨write mem 0 (replicate 4096 0), 0, fun _ => 0, fun _ => 0, fun _ => none⟩

def Tx.rtl8139SendPacket (s : Tx) (data : List UInt8) : Tx :=
  let sendLen := if data.length < 60 then 60 else data.length
  let current := s.txCurDesc * 512
  let mem := write s.mem current data
  { mem :=
      if data.length < 60 then
        write mem (current + data.length) (replicate (60 - data.length) 0)
      else mem
    txCurDesc := (s.txCurDesc + 1) % 4
    tsad := update s.tsad s.txCurDesc current
    tsd := update s.tsd s.txCurDesc (sendLen % 0x2000)
    frame := update s.frame s.txCurDesc (some data) }

/-- What the card has to send for a frame. -/
def padded (data : List UInt8) : List UInt8 :=
  data ++ replicate (60 - data.length) 0

/-- The memory a descriptor names is the frame given for it. -/
def Tx.Keeps (s : Tx) (d : ℕ) (data : List UInt8) : Prop :=
  s.tsd d = (padded data).length ∧ Bytes.Holds s.mem (s.tsad d) (padded data)

variable {s : Tx} {data : List UInt8}

lemma length_padded (data : List UInt8) : (padded data).length = max data.length 60
  := by
  rw [padded, length_append, length_replicate]
  omega

lemma mem_send (s : Tx) (data : List UInt8) :
  (s.rtl8139SendPacket data).mem = write s.mem (s.txCurDesc * 512) (padded data)
  := by
  rw [padded, ← write_append]
  rcases Nat.lt_or_ge data.length 60 with h | h
  · exact if_pos h
  · rw [Nat.sub_eq_zero_of_le h, replicate_zero, write_nil]
    exact if_neg (by omega)

lemma tsd_send (s : Tx) (h : data.length ≤ 1514) :
  (s.rtl8139SendPacket data).tsd = update s.tsd s.txCurDesc (padded data).length
  := by
  rw [length_padded]
  change update _ _ _ = _
  congr 1
  split <;> omega

lemma tsad_send (s : Tx) (data : List UInt8) :
  (s.rtl8139SendPacket data).tsad = update s.tsad s.txCurDesc (s.txCurDesc * 512)
  := rfl

/-- The invariant of the rotation: every frame is short and stands at the descriptor's own place. -/
structure Tx.Ok (s : Tx) : Prop where
  cur : s.txCurDesc < 4
  own : ∀ d data, s.frame d = some data → data.length ≤ 512 ∧ s.tsad d = d * 512 ∧ s.Keeps d data

/-- A frame of at most 512 bytes stays clear of the other descriptors. -/
lemma Tx.Ok.send (h : s.Ok) (hlen : data.length ≤ 512) : (s.rtl8139SendPacket data).Ok
  := by
  refine ⟨Nat.mod_lt _ (by decide), fun d old hold => ?_⟩
  change update s.frame s.txCurDesc (some data) d = some old at hold
  have hpad := length_padded data
  rw [Tx.Keeps, tsd_send s (by omega), mem_send, tsad_send]
  by_cases hd : d = s.txCurDesc
  · subst hd
    rw [update_self] at hold
    obtain rfl := Option.some.inj hold
    rw [update_self, update_self]
    exact ⟨hlen, rfl, rfl, holds_write _ _ _⟩
  · rw [update_of_ne hd] at hold
    obtain ⟨hle, hown, hsize, hheld⟩ := h.own d old hold
    have hpad' := length_padded old
    rw [update_of_ne hd, update_of_ne hd]
    refine ⟨hle, hown, hsize, fun i hi => ?_⟩
    rw [hheld i hi, hown]
    rcases Nat.lt_or_gt_of_ne hd with hlt | hlt
    · rw [write_of_lt (by omega)]
    · rw [write_of_le (by omega)]

def sent (mem : ℕ → UInt8) (frames : List (List UInt8)) : Tx :=
  frames.foldl Tx.rtl8139SendPacket (rtl8139Probe mem)

/-- A frame that `net_send_packet` passes ends within the page, whichever descriptor it is for. -/
lemma mem_send_of_page (hcur : s.txCurDesc < 4) (hlen : data.length ≤ 1514) {x : ℕ} (hx : 4096 ≤ x) :
  (s.rtl8139SendPacket data).mem x = s.mem x
  := by
  have hpad := length_padded data
  rw [mem_send, write_of_le (by omega)]

/-- What comes behind the page is not written by any run of frames that `net_send_packet` passes. -/
lemma mem_sent_of_page {mem : ℕ → UInt8} (frames : List (List UInt8)) (h : ∀ data ∈ frames, data.length ≤ 1514)
    {x : ℕ} (hx : 4096 ≤ x) :
  (sent mem frames).mem x = mem x
  := by
  suffices hrun : (sent mem frames).txCurDesc < 4 ∧ (sent mem frames).mem x = mem x from hrun.2
  apply foldlRecOn (motive := fun s : Tx => s.txCurDesc < 4 ∧ s.mem x = mem x) frames
  · refine ⟨Nat.zero_lt_succ 3, ?_⟩
    change write mem 0 (replicate 4096 0) x = mem x
    rw [write_of_le (by rwa [length_replicate, Nat.zero_add])]
  · rintro s ⟨hcur, hmem⟩ data hd
    exact ⟨Nat.mod_lt _ (by decide), (mem_send_of_page hcur (h data hd) hx).trans hmem⟩

/-- While no frame is longer than 512 bytes, the descriptors keep what they were given; and no run of
frames that `net_send_packet` passes writes outside the page. -/
theorem sent_keeps {mem : ℕ → UInt8} :
  (∀ frames : List (List UInt8), (∀ data ∈ frames, data.length ≤ 512) →
      ∀ d data, (sent mem frames).frame d = some data → (sent mem frames).Keeps d data) ∧
    ∀ frames : List (List UInt8), (∀ data ∈ frames, data.length ≤ 1514) →
      ∀ x ≥ 4096, (sent mem frames).mem x = mem x
  := by
  refine ⟨fun frames h d data hd => ?_, fun frames h x hx => mem_sent_of_page frames h hx⟩
  have hok : (sent mem frames).Ok := by
    apply foldlRecOn frames
    · exact ⟨Nat.zero_lt_succ 3, nofun⟩
    · exact fun s hs data hd => hs.send (h data hd)
  exact (hok.own d data hd).2.2

/-- Five frames: the first descriptor comes round again. -/
theorem sent_keeps_five :
  (sent (fun _ => 0) [[1], [2], [3], [4], [5, 6]]).Keeps 0 [5, 6]
    ∧ (sent (fun _ => 0) [[1], [2], [3], [4], [5, 6]]).Keeps 1 [2]
    ∧ (sent (fun _ => 9) [replicate 1514 7, replicate 1514 7, replicate 1514 7, replicate 1514 7]).mem 4096 = 9
  := ⟨sent_keeps.1 _ (by decide) 0 [5, 6] rfl, sent_keeps.1 _ (by decide) 1 [2] rfl,
    sent_keeps.2 _ (fun data hd => by
      simp only [mem_cons, not_mem_nil, or_false, or_self] at hd
      rw [hd, length_replicate]) 4096 (Nat.le_refl _)⟩

/-- The second frame is written over the end of a first one of 600 bytes. -/
theorem not_keeps_of_long :
  (sent (fun _ => 0) [replicate 600 7, [1]]).frame 0 = some (replicate 600 7) ∧
    ¬ (sent (fun _ => 0) [replicate 600 7, [1]]).Keeps 0 (replicate 600 7)
  := by
  refine ⟨rfl, fun ⟨_, h⟩ => ?_⟩
  have hbyte := h 512 (by rw [length_padded, length_replicate]; decide)
  revert hbyte
  decide +kernel

end Rtl8139
