import EquantOS.Fs.Fat32

/-!
# Long names in FAT32 directories

The entries that `fat32_create` writes for a long name are read by `fat32_finddir` as the name.
-/

open List Nat

namespace Fat32

variable {name : FileName} {e : Slot} {a b c k n seq : ℕ}

/-! ### The numbers of the entries -/

lemma lfnOrder_spec (hpos : 0 < seq) (hseq : seq ≤ 20) :
  (lfnOrder name seq &&& 0x1F).toNat = seq ∧ lfnOrder name seq ≠ 0 ∧ lfnOrder name seq ≠ 0xE5
  := by
  have hall : ∀ seq ≤ 20, 0 < seq → (((UInt8.ofNat seq ||| 0x40) &&& 0x1F).toNat = seq
      ∧ UInt8.ofNat seq ||| 0x40 ≠ 0 ∧ UInt8.ofNat seq ||| 0x40 ≠ 0xE5)
      ∧ (UInt8.ofNat seq &&& 0x1F).toNat = seq ∧ UInt8.ofNat seq ≠ 0 ∧ UInt8.ofNat seq ≠ 0xE5 := by decide
  unfold lfnOrder
  split_ifs
  · exact (hall seq hseq hpos).1
  · exact (hall seq hseq hpos).2

lemma map_lfnEntries (name : FileName) (n : ℕ) :
  (lfnEntries name n).map (byte · 0) = (range' 1 n).reverse.map (lfnOrder name)
  := by
  induction n with
  | zero => rfl
  | succ n ih =>
    rw [lfnEntries, map_cons, ih, range'_1_concat, reverse_append, add_comm]
    rfl

/-! ### The characters of an entry -/

/-- The characters from `k` on are at the given places. -/
def Units (name : FileName) (e : Slot) : ℕ → List ℕ → Prop
  | _, [] => True
  | k, o :: places => byte e o = unitLow name k ∧ byte e (o + 1) = unitHigh name k ∧ Units name e (k + 1) places

/-- `lfn_acc` with the characters from `a` up to `b` of a name. -/
def fill (name : FileName) (a b : ℕ) (acc : ℕ → UInt8) : ℕ → UInt8 :=
  fun k => if a ≤ k ∧ k < b then name.getD k 0 else acc k

lemma fill_self (a : ℕ) (acc : ℕ → UInt8) : fill name a a acc = acc
  := by
  funext k
  apply if_neg
  omega

/-- Neighbouring parts of the name can come in either order. -/
lemma fill_fill (hab : a ≤ b) (hbc : b ≤ c) (acc : ℕ → UInt8) :
  fill name b c (fill name a b acc) = fill name a c acc ∧ fill name a b (fill name b c acc) = fill name a c acc
  := by
  constructor <;> funext k <;> simp only [fill] <;> split_ifs <;> first | rfl | omega

section

variable (hname : 0 ∉ name)

include hname

lemma getD_ne_zero (hk : k < name.length) : name.getD k 0 ≠ 0
  := by
  rw [getD_eq_getElem _ _ hk]
  exact fun hzero => hname (hzero ▸ getElem_mem hk)

/-- A loop over characters stores them up to the end of the name. -/
lemma lfnPart_units {places : List ℕ} (hplaces : Units name e k places) (acc : ℕ → UInt8) :
  lfnPart e places (acc, min k name.length)
    = (fill name (min k name.length) (min (k + places.length) name.length) acc,
        min (k + places.length) name.length)
  := by
  induction places generalizing k acc with
  | nil => rw [lfnPart, length_nil, Nat.add_zero, fill_self]
  | cons o places ih =>
    obtain ⟨hlow, hhigh, hrest⟩ := hplaces
    rw [lfnPart, hlow, hhigh, length_cons, unitLow, unitHigh]
    obtain hk | hk := Nat.lt_or_ge k name.length
    · have hchar : name[k]?.getD 0 ≠ 0 := getD_ne_zero hname hk
      have hnext := ih hrest (Function.update acc k (name.getD k 0))
      rw [Nat.min_eq_left hk, add_right_comm] at hnext
      rw [if_pos hk, if_pos hk.le, if_neg (by simp [hchar]), Nat.min_eq_left hk.le, hnext]
      congr 1
      funext i
      simp only [fill, Function.update_apply]
      split_ifs with h₁ h₂ h₃ h₄ <;> first | rfl | omega | (rw [‹i = k›])
    · rw [if_neg hk.not_gt, Nat.min_eq_right hk, Nat.min_eq_right (by omega), fill_self, if_pos]
      rcases hk.eq_or_lt with rfl | hlt
      · simp
      · simp [hlt.not_ge, hlt.ne']

/-- The three loops over the characters of an entry. -/
def lfnLoops (e : Slot) (st : (ℕ → UInt8) × ℕ) : (ℕ → UInt8) × ℕ :=
  lfnPart e [28, 30] (lfnPart e [14, 16, 18, 20, 22, 24] (lfnPart e [1, 3, 5, 7, 9] st))

/-- An entry adds its characters. -/
lemma lfnLoops_lfnEntry (hlen : n * 13 ≤ name.length) (acc : ℕ → UInt8) :
  lfnLoops (lfnEntry name (n + 1)) (acc, n * 13)
    = (fill name (n * 13) (min ((n + 1) * 13) name.length) acc, min ((n + 1) * 13) name.length)
  := by
  have h₁ : Units name (lfnEntry name (n + 1)) (n * 13) [1, 3, 5, 7, 9] :=
    ⟨rfl, rfl, rfl, rfl, rfl, rfl, rfl, rfl, rfl, rfl, trivial⟩
  have h₂ : Units name (lfnEntry name (n + 1)) (n * 13 + 5) [14, 16, 18, 20, 22, 24] :=
    ⟨rfl, rfl, rfl, rfl, rfl, rfl, rfl, rfl, rfl, rfl, rfl, rfl, trivial⟩
  have h₃ : Units name (lfnEntry name (n + 1)) (n * 13 + 11) [28, 30] := ⟨rfl, rfl, rfl, rfl, trivial⟩
  have hp₁ := lfnPart_units hname h₁ acc
  rw [Nat.min_eq_left hlen] at hp₁
  rw [lfnLoops, hp₁]
  dsimp only [length_cons, length_nil]
  rw [lfnPart_units hname h₂]
  dsimp only [length_cons, length_nil]
  rw [lfnPart_units hname h₃, (fill_fill (by omega) (by omega) _).1, succ_mul]
  dsimp only [length_cons, length_nil]
  rw [(fill_fill (by omega) (by omega) _).1]

/-! ### The entries of a name -/

/-- The entries of a long name are added one after the other. -/
lemma findSlots_lfnEntries (target : FileName) (hn : n ≤ 20)
    (hlen : (n - 1) * 13 ≤ name.length) (entries : List Slot) (i : ℕ) (acc : ℕ → UInt8) :
  findSlots target (lfnEntries name n ++ entries) i acc
    = findSlots target entries (i + n) (fill name 0 (min (n * 13) name.length) acc)
  := by
  induction n generalizing i acc with
  | zero => rw [Nat.zero_mul, Nat.zero_min, fill_self, Nat.add_zero]; rfl
  | succ n ih =>
    have hbyte : byte (lfnEntry name (n + 1)) 0 = lfnOrder name (n + 1) := rfl
    have hlong : byte (lfnEntry name (n + 1)) 11 = 0x0F := rfl
    obtain ⟨hseq, hzero, hdeleted⟩ := @lfnOrder_spec name _ (succ_pos n) hn
    have hstore : lfnStore acc (lfnEntry name (n + 1)) = fill name (n * 13) (min ((n + 1) * 13) name.length) acc := by
      have hloops := lfnLoops_lfnEntry hname hlen acc
      simp only [lfnStore, hbyte, hseq, if_pos (And.intro (succ_pos n) hn)]
      exact congrArg Prod.fst hloops
    rw [lfnEntries, cons_append, findSlots, hbyte, if_neg hzero, if_neg hdeleted, if_pos hlong, hstore,
      ih (by omega) (by omega)]
    rw [Nat.add_sub_cancel] at hlen
    rw [Nat.min_eq_left hlen, (fill_fill (Nat.zero_le _) (by omega) _).2, add_right_comm, add_assoc]

lemma cString_range (n : ℕ) :
  cString ((range (name.length + n + 1)).map (name.getD · 0)) = name
  := by
  induction name with
  | nil => simp [cString, range_succ_eq_map]
  | cons c name ih =>
    rw [mem_cons, not_or] at hname
    have hrest := ih hname.2
    rw [cString] at hrest ⊢
    rw [length_cons, add_right_comm _ 1, range_succ_eq_map, map_cons, map_map, takeWhile_cons,
      if_pos (by simpa using Ne.symm hname.1)]
    exact congrArg (c :: ·) hrest

/-- A name in `lfn_acc` is read from it. -/
lemma entryName_fill (hne : name ≠ []) (hlen : name.length < 260) (e : Slot) :
  entryName (fill name 0 name.length noName) e = name
  := by
  have hfill : fill name 0 name.length noName = (name.getD · 0) := by
    funext k
    rw [fill]
    split_ifs with hk
    · rfl
    · rw [getD_eq_default _ _ (by omega)]
      rfl
  obtain ⟨n, hn⟩ := Nat.exists_eq_add_of_lt hlen
  rw [hfill, entryName, if_pos (getD_ne_zero hname (length_pos_iff.mpr hne)), hn, cString_range hname]

end

lemma length_short11 (name : FileName) : (short11 name).length = 11
  := by
  have hpad (n : ℕ) (bytes : List UInt8) : (pad n bytes).length = n := by simp [pad]
  rw [short11, length_append]
  unfold genShortAlias
  split_ifs <;> simp only [hpad]

lemma splitExt_subset (name : FileName) : (splitExt name).1 ⊆ name
  := by
  unfold splitExt
  split
  · exact Subset.refl name
  · split_ifs
    · exact Subset.refl name
    · exact take_subset _ name

/-- The short entry of a long name does not look like the end of the directory or a deleted entry. -/
lemma short11_used (hprint : ∀ c ∈ name, 0x20 ≤ c ∧ c ≤ 0x7E) (hlong : ¬ isPureShortName name) :
  byte (short11 name) 0 ≠ 0 ∧ byte (short11 name) 0 ≠ 0xE5
  := by
  have hdots : name ≠ [dot] ∧ name ≠ [dot, dot] := by
    constructor <;> rintro rfl <;> exact hlong (by decide)
  rw [short11, genShortAlias, if_neg hdots.1, if_neg hdots.2, if_neg hlong]
  cases hchars : (splitExt name).1.filter fun c => c ≠ dot ∧ c ≠ space with
  | nil =>
    change (0x7E : UInt8) ≠ 0 ∧ (0x7E : UInt8) ≠ 0xE5
    decide
  | cons c chars =>
    have hmem : c ∈ (splitExt name).1.filter fun c => c ≠ dot ∧ c ≠ space := hchars ▸ mem_cons_self
    obtain ⟨hlow, hhigh⟩ := hprint c (splitExt_subset name (mem_filter.mp hmem).1)
    change upper c ≠ 0 ∧ upper c ≠ 0xE5
    unfold upper
    split_ifs <;> grind

/-- The entries of a long name are read as the name, which fits into `lfn_acc`, and are numbered downwards. -/
theorem long_name_decoded (hne : name ≠ []) (hlen : name.length ≤ 255)
    (hprint : ∀ c ∈ name, 0x20 ≤ c ∧ c ≤ 0x7E) (hlong : ¬ isPureShortName name) (isDir : Bool) (first : ℕ)
    (rest : List Slot) (i : ℕ) :
  findSlots name (newEntries name isDir first ++ rest) i noName = .found (i + numLfn name)
    ∧ (∀ n < numLfn name, ∀ acc, (lfnLoops (lfnEntry name (n + 1)) (acc, n * 13)).2 < 260)
    ∧ (lfnEntries name (numLfn name)).map (byte · 0) = (range' 1 (numLfn name)).reverse.map fun seq =>
      if seq = numLfn name then UInt8.ofNat seq ||| 0x40 else UInt8.ofNat seq
  := by
  have hname : 0 ∉ name := fun h => absurd (hprint 0 h).1 (by decide)
  have hpos := length_pos_iff.mpr hne
  have hnum : numLfn name = (name.length + 12) / 13 := if_neg hlong
  refine ⟨?_, fun n hn acc => ?_, map_lfnEntries ..⟩
  · have hbyte : byte (newEntry name isDir first) 0 = byte (short11 name) 0 := by
      simp [byte, newEntry, length_short11]
    have hkind : byte (newEntry name isDir first) 11 ≠ 0x0F := by
      cases isDir <;> simp [byte, newEntry, length_short11]
    obtain ⟨hzero, hdeleted⟩ := short11_used hprint hlong
    rw [newEntries, append_assoc, findSlots_lfnEntries hname name (by omega) (by omega), singleton_append,
      findSlots, hbyte, if_neg hzero, if_neg hdeleted, if_neg hkind, Nat.min_eq_right (by omega),
      if_pos (entryName_fill hname hne (by omega) _)]
  · rw [lfnLoops_lfnEntry hname (by omega)]
    exact (Nat.min_le_right ..).trans_lt (by omega)

/-- The name `a b.c d.e f.g h.txt`, of 19 characters. -/
def spacedName : List UInt8 :=
  [0x61, 0x20, 0x62, 0x2E, 0x63, 0x20, 0x64, 0x2E, 0x65, 0x20, 0x66, 0x2E, 0x67, 0x20, 0x68, 0x2E, 0x74, 0x78, 0x74]

/-- The name takes two entries before its own, after which another file follows. -/
theorem long_name_decoded_space :
  numLfn spacedName = 2
    ∧ findSlots spacedName (newEntries spacedName false 5 ++ newEntries [0x61] false 6) 3 noName = .found 5
  := by
  have hprint : spacedName.all fun c => 0x20 ≤ c ∧ c ≤ 0x7E := by decide
  exact ⟨by decide, (long_name_decoded (by decide) (by decide)
    (fun c hc => by simpa using List.all_eq_true.mp hprint c hc) (by decide) false 5 _ 3).1⟩

end Fat32
