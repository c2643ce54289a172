import Samba.Compression.Lzxpress

namespace Samba.Compression.LzxpressEncode

open Samba.Compression.Lzxpress

-- equation lemmas made once, before the proofs below use them in parallel
attribute [local simp] Samba.Compression.Lzxpress.countMatching.eq_1
  Samba.Compression.Lzxpress.putBytes.eq_1 Samba.Compression.Lzxpress.encodeLongLength.eq_1
  Samba.Compression.Lzxpress.compressLoop.eq_1
attribute [-simp] Samba.Compression.Lzxpress.countMatching.eq_1
  Samba.Compression.Lzxpress.putBytes.eq_1 Samba.Compression.Lzxpress.encodeLongLength.eq_1
  Samba.Compression.Lzxpress.compressLoop.eq_1

theorem countMatching_le (data : List UInt8) (here there n : Nat) :
    countMatching data here there n ≤ n := by
  induction n generalizing here there with
  | zero => exact Nat.le_refl 0
  | succ n ih =>
    rw [countMatching]
    split
    · exact Nat.succ_le_succ (ih _ _)
    · exact Nat.zero_le _

theorem dataAt_of_lt_countMatching {data : List UInt8} {n : Nat} :
    ∀ (here there k : Nat), k < countMatching data here there n →
      dataAt data (here + k) = dataAt data (there + k) := by
  induction n with
  | zero => intro here there k hk; exact absurd hk (Nat.not_lt_zero _)
  | succ n ih =>
    intro here there k hk
    rw [countMatching] at hk
    split at hk
    · rename_i heq
      cases k with
      | zero => exact heq
      | succ k =>
        have := ih (here + 1) (there + 1) k (Nat.lt_of_succ_lt_succ hk)
        rwa [Nat.add_right_comm here 1 k, Nat.add_right_comm there 1 k] at this
    · exact absurd hk (Nat.not_lt_zero _)

def MatchOk (data : List UInt8) (offset maxLen : Nat) (m : LzMatch) : Prop :=
  ∀ o, m.there = some o → o < offset ∧ offset - o ≤ 8192 ∧ 2 < m.length ∧ m.length ≤ maxLen ∧
    ∀ k, k < m.length → dataAt data (offset + k) = dataAt data (o + k)

theorem lookupMatchFrom_ok (table : Nat → Nat) (h : Nat) (data : List UInt8) (offset maxLen : Nat) :
    ∀ (is : List Nat) (best : LzMatch), MatchOk data offset maxLen best →
      MatchOk data offset maxLen (lookupMatchFrom table h data offset maxLen is best) := by
  intro is
  induction is with
  | nil => intro best hbest; exact hbest
  | cons i is ih =>
    intro best hbest
    rw [lookupMatchFrom]
    split
    · exact hbest
    · rename_i hempty
      split
      · exact ih best hbest
      · rename_i hfar
        split
        · exact ih best hbest
        · dsimp only
          split
          · rename_i hlonger
            apply ih
            intro o ho
            cases ho
            refine ⟨by omega, by omega, hlonger.1, countMatching_le _ _ _ _, fun k hk ↦ ?_⟩
            exact dataAt_of_lt_countMatching _ _ _ hk
          · exact ih best hbest

theorem lookupMatch_ok (table : Nat → Nat) (h : Nat) (data : List UInt8) (offset maxLen : Nat) :
    MatchOk data offset maxLen (lookupMatch table h data offset maxLen) :=
  lookupMatchFrom_ok table h data offset maxLen _ _ fun _ ho ↦ by cases ho

theorem putBytes_of_lt {buf : Nat → UInt8} {pos k : Nat} (bytes : List UInt8) (h : k < pos) :
    putBytes buf pos bytes k = buf k := by
  simp only [putBytes]
  rw [if_neg (by omega)]

theorem putBytes_of_le {buf : Nat → UInt8} {pos k : Nat} {bytes : List UInt8}
    (h : pos + bytes.length ≤ k) : putBytes buf pos bytes k = buf k := by
  simp only [putBytes]
  rw [if_neg (by omega)]

@[simp] theorem length_leBytes16 (v : Nat) : (leBytes16 v).length = 2 := rfl

@[simp] theorem length_leBytes32 (v : Nat) : (leBytes32 v).length = 4 := rfl

theorem putBytes_ne {buf : Nat → UInt8} {pos k : Nat} {b : UInt8} (h : k ≠ pos) :
    putBytes buf pos [b] k = buf k := by
  simp only [putBytes, List.length_singleton]
  rw [if_neg (by omega)]

theorem putBytes_self (buf : Nat → UInt8) (pos : Nat) (b : UInt8) : putBytes buf pos [b] pos = b := by
  simp [putBytes]

theorem toNat_leBytes16 (v : Nat) :
    (UInt8.ofNat v).toNat + (UInt8.ofNat (v / 2 ^ 8)).toNat * 2 ^ 8 = v % 2 ^ 16 := by
  rw [UInt8.toNat_ofNat', UInt8.toNat_ofNat']
  omega

theorem toNat_or_high {lo : UInt8} (hlo : lo.toNat < 16) {hi : Nat} (hhi : hi < 16) :
    (lo ||| UInt8.ofNat (hi * 16)).toNat = hi * 16 + lo.toNat := by
  rw [UInt8.toNat_or, UInt8.toNat_ofNat', Nat.mod_eq_of_lt (by omega), Nat.or_comm,
    show hi * 16 = 2 ^ 4 * hi by omega, ← Nat.two_pow_add_eq_or_of_lt hlo]

theorem lookupMatch_there {table : Nat → Nat} {h : Nat} {data : List UInt8} {offset maxLen o : Nat}
    (ho : (lookupMatch table h data offset maxLen).there = some o) :
    o < offset ∧ offset - o ≤ 8192 ∧ 2 < (lookupMatch table h data offset maxLen).length ∧
      (lookupMatch table h data offset maxLen).length ≤ maxLen ∧
      ∀ k, k < (lookupMatch table h data offset maxLen).length →
        dataAt data (offset + k) = dataAt data (o + k) :=
  lookupMatch_ok table h data offset maxLen o ho

theorem pushIndicatorBit_eq_some {wc wc' : WriteContext} {bit : Nat}
    (h : pushIndicatorBit wc bit = some wc') :
    wc'.maxCompressedSize = wc.maxCompressedSize ∧ wc'.nibbleIndex = wc.nibbleIndex ∧
      wc'.indic = u32 (wc.indic * 2 + bit) ∧
      ((wc.indicBit + 1 ≠ 32 ∧ wc'.indicBit = wc.indicBit + 1 ∧ wc'.indicPos = wc.indicPos ∧
          wc'.compressedPos = wc.compressedPos ∧ wc'.compressed = wc.compressed) ∨
        (wc.indicBit + 1 = 32 ∧ wc'.indicBit = 0 ∧ wc'.indicPos = wc.compressedPos ∧
          wc'.compressedPos = wc.compressedPos + 4 ∧
          bytesLeft wc.maxCompressedSize wc.compressedPos 4 = true ∧
          wc'.compressed = putBytes wc.compressed wc.indicPos (leBytes32 (u32 (wc.indic * 2 + bit))))) := by
  unfold pushIndicatorBit at h
  dsimp only at h
  split at h
  · rename_i hfull
    split at h
    · rename_i hroom
      cases h
      exact ⟨rfl, rfl, rfl, .inr ⟨hfull, rfl, rfl, rfl, hroom, rfl⟩⟩
    · cases h
  · rename_i hfull
    cases h
    exact ⟨rfl, rfl, rfl, .inl ⟨hfull, rfl, rfl, rfl, rfl⟩⟩

theorem putBytes_leBytes16 (buf : Nat → UInt8) (i v : Nat) :
    (putBytes buf i (leBytes16 v) i).toNat + (putBytes buf i (leBytes16 v) (i + 1)).toNat * 2 ^ 8 =
      v % 2 ^ 16 := by
  have h0 : putBytes buf i (leBytes16 v) i = UInt8.ofNat v := by simp [putBytes, leBytes16]
  have h1 : putBytes buf i (leBytes16 v) (i + 1) = UInt8.ofNat (v / 2 ^ 8) := by
    simp [putBytes, leBytes16]
  rw [h0, h1, toNat_leBytes16]

def le32 (buf : Nat → UInt8) (i : Nat) : Nat :=
  (buf i).toNat + (buf (i + 1)).toNat * 2 ^ 8 +
    ((buf (i + 2)).toNat + (buf (i + 3)).toNat * 2 ^ 8) * 2 ^ 16

attribute [local simp] le32.eq_1
attribute [-simp] le32.eq_1

theorem le32_putBytes_leBytes32 (buf : Nat → UInt8) (i v : Nat) :
    le32 (putBytes buf i (leBytes32 v)) i = v % 2 ^ 32 := by
  have h0 : putBytes buf i (leBytes32 v) i = UInt8.ofNat v := by simp [putBytes, leBytes32]
  have h1 : putBytes buf i (leBytes32 v) (i + 1) = UInt8.ofNat (v / 2 ^ 8) := by
    simp [putBytes, leBytes32]
  have h2 : putBytes buf i (leBytes32 v) (i + 2) = UInt8.ofNat (v / 2 ^ 16) := by
    simp [putBytes, leBytes32]
  have h3 : putBytes buf i (leBytes32 v) (i + 3) = UInt8.ofNat (v / 2 ^ 24) := by
    simp [putBytes, leBytes32]
  rw [le32, h0, h1, h2, h3, UInt8.toNat_ofNat', UInt8.toNat_ofNat', UInt8.toNat_ofNat',
    UInt8.toNat_ofNat']
  omega

theorem le32_congr {buf buf' : Nat → UInt8} {i : Nat} (h : ∀ k, k < 4 → buf' (i + k) = buf (i + k)) :
    le32 buf' i = le32 buf i := by
  have h0 := h 0 (by decide)
  rw [Nat.add_zero] at h0
  rw [le32, le32, h0, h 1 (by decide), h 2 (by decide), h 3 (by decide)]

theorem bytesLeft_iff {size index needed : Nat} (hn : 0 < needed) :
    bytesLeft size index needed = true ↔ index + needed ≤ size := by
  simp only [bytesLeft, Bool.and_eq_true, decide_eq_true_eq]
  omega

def extLen (x : Nat) : Nat := if x < 15 then 0 else if x - 15 < 255 then 1 else 3

def ExtAt (buf : Nat → UInt8) (c x c' : Nat) : Prop :=
  if x < 15 then c' = c
  else (buf c).toNat = min (x - 15) 255 ∧
    if x - 15 < 255 then c' = c + 1
    else (buf (c + 1)).toNat + (buf (c + 2)).toNat * 2 ^ 8 = x + 7 ∧ c' = c + 3

def LengthAt (buf : Nat → UInt8) (c nib m c' nib' : Nat) : Prop :=
  if m < 7 then c' = c ∧ nib' = nib
  else if nib = 0 then
    (buf c).toNat % 16 = min (m - 7) 15 ∧ nib' = c ∧ ExtAt buf (c + 1) (m - 7) c'
  else (buf nib).toNat / 16 = min (m - 7) 15 ∧ nib' = 0 ∧ ExtAt buf c (m - 7) c'

def MatchAt (buf : Nat → UInt8) (cp nib dist len cp' nib' : Nat) : Prop :=
  (buf cp).toNat + (buf (cp + 1)).toNat * 2 ^ 8 = (dist - 1) * 8 + min (len - 3) 7 ∧
    LengthAt buf (cp + 2) nib (len - 3) cp' nib'

attribute [local simp] extLen.eq_1
attribute [-simp] extLen.eq_1

theorem extLen_add_le (x : Nat) : extLen x + 3 ≤ x + 10 := by
  unfold extLen
  split_ifs <;> omega

theorem ExtAt.eq_add {buf : Nat → UInt8} {c x c' : Nat} (h : ExtAt buf c x c') :
    c' = c + extLen x := by
  unfold ExtAt at h
  unfold extLen
  split_ifs at h ⊢ with hx hy
  · omega
  · omega
  · omega

def encodeNibble (wc : WriteContext) (x : Nat) : Option WriteContext :=
  if wc.nibbleIndex = 0 then
    if bytesLeft wc.maxCompressedSize wc.compressedPos 1 then
      some { wc with
        nibbleIndex := wc.compressedPos
        compressed := putBytes wc.compressed wc.compressedPos [UInt8.ofNat (min x 15)]
        compressedPos := wc.compressedPos + 1 }
    else none
  else
    some { wc with
      nibbleIndex := 0
      compressed := putBytes wc.compressed wc.nibbleIndex
        [wc.compressed wc.nibbleIndex ||| UInt8.ofNat (min x 15 * 16)] }

def encodeLengthBytes (wc : WriteContext) (x : Nat) : Option WriteContext :=
  if 15 ≤ x then do
    let x := x - 15
    let wc ← if bytesLeft wc.maxCompressedSize wc.compressedPos 1 then
        some { wc with
          compressed := putBytes wc.compressed wc.compressedPos [UInt8.ofNat (min x 255)]
          compressedPos := wc.compressedPos + 1 }
      else none
    if 255 ≤ x then encodeLongLength wc (u32 (x + 7 + 15)) else some wc
  else some wc

theorem encodeExtraLength_eq (wc : WriteContext) (x : Nat) :
    encodeExtraLength wc x = (encodeNibble wc x).bind (encodeLengthBytes · x) := by
  unfold encodeExtraLength encodeNibble encodeLengthBytes
  split_ifs <;> rfl

def writeMatchWord (wc : WriteContext) (m : LzMatch) (here : Nat) : WriteContext :=
  { wc with
    compressed := putBytes wc.compressed wc.compressedPos
      (leBytes16 ((u32 (here + 2 ^ 32 - m.there.getD 0 - 1) * 8 |||
        min (u32 (m.length + 2 ^ 32 - 3)) 7) % 2 ^ 16))
    compressedPos := wc.compressedPos + 2 }

def encodeMatchItem (wc : WriteContext) (m : LzMatch) (here : Nat) : Option WriteContext :=
  if 7 ≤ u32 (m.length + 2 ^ 32 - 3) then
    encodeExtraLength (writeMatchWord wc m here) (u32 (m.length + 2 ^ 32 - 3) - 7)
  else some (writeMatchWord wc m here)

attribute [local simp] writeMatchWord.eq_1
attribute [-simp] writeMatchWord.eq_1

theorem encodeMatch_eq (wc : WriteContext) (m : LzMatch) (here : Nat) :
    encodeMatch wc m here =
      if 8191 < u32 (here + 2 ^ 32 - m.there.getD 0 - 1) ∨
          bytesLeft wc.maxCompressedSize wc.compressedPos 2 = false then none
      else (encodeMatchItem wc m here).bind (pushIndicatorBit · 1) := by
  unfold encodeMatch encodeMatchItem
  by_cases hfar : 8191 < u32 (here + 2 ^ 32 - m.there.getD 0 - 1)
  · rw [if_pos (Or.inl hfar), if_pos hfar]
    rfl
  · by_cases hroom : bytesLeft wc.maxCompressedSize wc.compressedPos 2 = true
    · simp only [hfar, hroom, Bool.not_true, Bool.false_eq_true, Bool.true_eq_false, if_false,
        false_or, writeMatchWord]
      split_ifs <;> rfl
    · rw [Bool.not_eq_true] at hroom
      rw [if_pos (Or.inr hroom), if_neg hfar, hroom]
      rfl

section Parts

variable {wc wc' : WriteContext} {x : Nat}

theorem encodeLengthBytes_eq_some (h : encodeLengthBytes wc x = some wc') (hx : x + 7 < 2 ^ 16) :
    ExtAt wc'.compressed wc.compressedPos x wc'.compressedPos ∧
      wc' = { wc with compressed := wc'.compressed, compressedPos := wc'.compressedPos } ∧
      ∀ p, p < wc.compressedPos → wc'.compressed p = wc.compressed p := by
  unfold encodeLengthBytes at h
  by_cases hshort : x < 15
  · rw [if_neg (by omega)] at h
    cases h
    refine ⟨?_, rfl, fun _ _ ↦ rfl⟩
    unfold ExtAt
    rw [if_pos hshort]
  · rw [if_pos (by omega)] at h
    dsimp only at h
    split at h
    · simp only [Option.bind_eq_bind, Option.bind_some] at h
      split at h
      · rename_i hlong
        rw [encodeLongLength, if_pos (by rw [u32]; omega)] at h
        dsimp only at h
        split at h
        · cases h
          have hv : u32 (x - 15 + 7 + 15) = x + 7 := by rw [u32]; omega
          refine ⟨?_, rfl, fun p hp ↦ ?_⟩
          · unfold ExtAt
            rw [if_neg hshort, if_neg (by omega)]
            dsimp only
            rw [putBytes_of_lt _ (by omega), putBytes_self, UInt8.toNat_ofNat',
              show wc.compressedPos + 2 = wc.compressedPos + 1 + 1 from rfl, putBytes_leBytes16, hv]
            omega
          · exact (putBytes_of_lt _ (by omega)).trans (putBytes_of_lt _ hp)
        · cases h
      · cases h
        refine ⟨?_, rfl, fun p hp ↦ putBytes_of_lt _ hp⟩
        unfold ExtAt
        rw [if_neg hshort, if_pos (by omega)]
        dsimp only
        rw [putBytes_self, UInt8.toNat_ofNat']
        omega
    · simp at h

theorem encodeLengthBytes_isSome (hroom : wc.compressedPos + extLen x ≤ wc.maxCompressedSize)
    (hx : x + 7 < 2 ^ 16) : (encodeLengthBytes wc x).isSome := by
  unfold encodeLengthBytes
  by_cases hshort : x < 15
  · rw [if_neg (by omega)]
    rfl
  · rw [extLen, if_neg hshort] at hroom
    rw [if_pos (by omega)]
    dsimp only
    rw [if_pos ((bytesLeft_iff Nat.one_pos).2 (by split_ifs at hroom <;> omega))]
    simp only [Option.bind_eq_bind, Option.bind_some]
    split
    · rename_i hlong
      rw [if_neg (by omega)] at hroom
      rw [encodeLongLength, if_pos (by rw [u32]; omega),
        if_pos ((bytesLeft_iff (by decide)).2 (by dsimp only; omega))]
      rfl
    · rfl

theorem encodeExtraLength_eq_some (h : encodeExtraLength wc x = some wc') (hx : x + 7 < 2 ^ 16)
    (hnib : wc.nibbleIndex ≠ 0 →
      wc.nibbleIndex < wc.compressedPos ∧ (wc.compressed wc.nibbleIndex).toNat < 16) :
    LengthAt wc'.compressed wc.compressedPos wc.nibbleIndex (x + 7) wc'.compressedPos
        wc'.nibbleIndex ∧
      wc' = { wc with
        compressed := wc'.compressed, compressedPos := wc'.compressedPos,
        nibbleIndex := wc'.nibbleIndex } ∧
      (∀ p, p < wc.compressedPos → (wc.nibbleIndex = 0 ∨ p ≠ wc.nibbleIndex) →
        wc'.compressed p = wc.compressed p) ∧
      (wc.nibbleIndex ≠ 0 →
        (wc'.compressed wc.nibbleIndex).toNat % 16 = (wc.compressed wc.nibbleIndex).toNat) ∧
      (wc.nibbleIndex = 0 → (wc'.compressed wc.compressedPos).toNat < 16) := by
  rw [encodeExtraLength_eq, Option.bind_eq_some_iff] at h
  obtain ⟨wc1, h1, h2⟩ := h
  obtain ⟨hext, hwc', hframe⟩ := encodeLengthBytes_eq_some h2 hx
  unfold encodeNibble at h1
  have hmin : min x 15 < 16 := by omega
  unfold LengthAt
  rw [if_neg (by omega), Nat.add_sub_cancel]
  by_cases hn : wc.nibbleIndex = 0
  · rw [if_pos hn] at h1 ⊢
    split at h1
    · cases h1
      dsimp only at hext hwc' hframe
      have hc : (wc'.compressed wc.compressedPos).toNat = min x 15 := by
        rw [hframe _ (Nat.lt_succ_self _), putBytes_self, UInt8.toNat_ofNat',
          Nat.mod_eq_of_lt (by omega)]
      refine ⟨⟨by rw [hc, Nat.mod_eq_of_lt hmin], by rw [hwc'], hext⟩, by rw [hwc'],
        fun p hp _ ↦ ?_, fun h ↦ absurd hn h, fun _ ↦ by omega⟩
      rw [hframe p (Nat.lt_succ_of_lt hp), putBytes_of_lt _ hp]
    · cases h1
  · rw [if_neg hn] at h1 ⊢
    cases h1
    dsimp only at hext hwc' hframe
    obtain ⟨hlt, hlow⟩ := hnib hn
    have hbyte : (wc'.compressed wc.nibbleIndex).toNat =
        min x 15 * 16 + (wc.compressed wc.nibbleIndex).toNat := by
      rw [hframe _ hlt, putBytes_self, toNat_or_high hlow hmin]
    refine ⟨⟨by rw [hbyte]; omega, by rw [hwc'], hext⟩, by rw [hwc'], fun p hp hpn ↦ ?_,
      fun _ ↦ by rw [hbyte]; omega, fun h ↦ absurd h hn⟩
    rw [hframe p hp, putBytes_ne (hpn.resolve_left hn)]

theorem encodeExtraLength_isSome (hx : x + 7 < 2 ^ 16)
    (hroom : wc.compressedPos + (if wc.nibbleIndex = 0 then 1 else 0) + extLen x ≤
      wc.maxCompressedSize) : (encodeExtraLength wc x).isSome := by
  rw [encodeExtraLength_eq]
  unfold encodeNibble
  by_cases hn : wc.nibbleIndex = 0
  · rw [if_pos hn] at hroom ⊢
    rw [if_pos ((bytesLeft_iff Nat.one_pos).2 (by unfold extLen at hroom; omega))]
    exact encodeLengthBytes_isSome hroom hx
  · rw [if_neg hn, Nat.add_zero] at hroom
    rw [if_neg hn]
    exact encodeLengthBytes_isSome hroom hx

end Parts

theorem LengthAt.le_add {buf : Nat → UInt8} {c nib m c' nib' : Nat}
    (h : LengthAt buf c nib m c' nib') : c ≤ c' ∧ c' ≤ c + m + 1 := by
  unfold LengthAt at h
  split_ifs at h with hm hn
  · omega
  · have := h.2.2.eq_add
    unfold extLen at this
    split_ifs at this <;> omega
  · have := h.2.2.eq_add
    unfold extLen at this
    split_ifs at this <;> omega

structure Within (wc wc' : WriteContext) : Prop where
  le : wc.compressedPos ≤ wc'.compressedPos
  room : wc.compressedPos ≤ wc.maxCompressedSize → wc'.compressedPos ≤ wc'.maxCompressedSize
  above : ∀ p, wc'.compressedPos ≤ p → wc'.compressed p = wc.compressed p

theorem Within.refl (wc : WriteContext) : Within wc wc := ⟨Nat.le_refl _, id, fun _ _ ↦ rfl⟩

theorem Within.trans {wc1 wc2 wc3 : WriteContext} (h1 : Within wc1 wc2) (h2 : Within wc2 wc3) :
    Within wc1 wc3 :=
  ⟨h1.le.trans h2.le, fun h ↦ h2.room (h1.room h),
    fun p hp ↦ (h2.above p hp).trans (h1.above p (h2.le.trans hp))⟩

section Within

variable {wc wc' : WriteContext}

theorem within_put {bytes : List UInt8}
    (hbuf : wc'.compressed = putBytes wc.compressed wc.compressedPos bytes)
    (hcp : wc'.compressedPos = wc.compressedPos + bytes.length)
    (hmax : wc'.maxCompressedSize = wc.maxCompressedSize)
    (hb : bytesLeft wc.maxCompressedSize wc.compressedPos bytes.length = true) (hne : bytes ≠ []) :
    Within wc wc' := by
  have := (bytesLeft_iff (List.length_pos_iff.2 hne)).1 hb
  refine ⟨by omega, fun _ ↦ by omega, fun p hp ↦ ?_⟩
  rw [hbuf]
  exact putBytes_of_le (by omega)

theorem within_below {q : Nat} {bytes : List UInt8}
    (hbuf : wc'.compressed = putBytes wc.compressed q bytes)
    (hcp : wc'.compressedPos = wc.compressedPos)
    (hmax : wc'.maxCompressedSize = wc.maxCompressedSize)
    (hq : q + bytes.length ≤ wc.compressedPos) : Within wc wc' := by
  refine ⟨by omega, fun _ ↦ by omega, fun p hp ↦ ?_⟩
  rw [hbuf]
  exact putBytes_of_le (by omega)

theorem encodeNibble_within {x : Nat} (h : encodeNibble wc x = some wc')
    (hnib : wc.nibbleIndex ≠ 0 → wc.nibbleIndex < wc.compressedPos) : Within wc wc' := by
  unfold encodeNibble at h
  split_ifs at h with hn hb
  · cases h
    exact within_put rfl rfl rfl hb (List.cons_ne_nil _ _)
  · cases h
    exact within_below rfl rfl rfl (hnib hn)

theorem encodeLongLength_within {v : Nat} (h : encodeLongLength wc v = some wc') :
    Within wc wc' := by
  unfold encodeLongLength at h
  split_ifs at h with hv hb hb
  · cases h
    exact within_put rfl rfl rfl hb (List.cons_ne_nil _ _)
  · cases h
    have := (bytesLeft_iff (by decide)).1 hb
    refine ⟨by dsimp only; omega, fun _ ↦ by dsimp only; omega, fun p hp ↦ ?_⟩
    dsimp only at hp ⊢
    rw [putBytes_of_le (by rw [length_leBytes32]; omega),
      putBytes_of_le (by rw [length_leBytes16]; omega)]

theorem encodeLengthBytes_within {x : Nat} (h : encodeLengthBytes wc x = some wc') :
    Within wc wc' := by
  unfold encodeLengthBytes at h
  by_cases hlong : 15 ≤ x
  · rw [if_pos hlong] at h
    dsimp only at h
    split at h
    · rename_i hb
      simp only [Option.bind_eq_bind, Option.bind_some] at h
      split at h
      · refine Within.trans ?_ (encodeLongLength_within h)
        exact within_put rfl rfl rfl hb (List.cons_ne_nil _ _)
      · cases h
        exact within_put rfl rfl rfl hb (List.cons_ne_nil _ _)
    · simp at h
  · rw [if_neg hlong] at h
    cases h
    exact Within.refl wc

theorem encodeExtraLength_within {x : Nat} (h : encodeExtraLength wc x = some wc')
    (hnib : wc.nibbleIndex ≠ 0 → wc.nibbleIndex < wc.compressedPos) : Within wc wc' := by
  rw [encodeExtraLength_eq, Option.bind_eq_some_iff] at h
  obtain ⟨wc1, h1, h2⟩ := h
  exact (encodeNibble_within h1 hnib).trans (encodeLengthBytes_within h2)

theorem pushIndicatorBit_within {bit : Nat} (h : pushIndicatorBit wc bit = some wc')
    (hword : wc.indicPos + 4 ≤ wc.compressedPos) : Within wc wc' := by
  obtain ⟨hmax, -, -, ⟨-, -, -, hcp, hbuf⟩ | ⟨-, -, -, hcp, hb, hbuf⟩⟩ := pushIndicatorBit_eq_some h
  · exact ⟨by omega, fun _ ↦ by omega, fun p _ ↦ by rw [hbuf]⟩
  · have := (bytesLeft_iff (by decide)).1 hb
    refine ⟨by omega, fun _ ↦ by omega, fun p hp ↦ ?_⟩
    rw [hbuf]
    exact putBytes_of_le (by rw [length_leBytes32]; omega)

end Within

theorem header_of_eq {wc wc2 : WriteContext} {c : Nat → UInt8} {p n : Nat}
    (h : wc2 = { wc with compressed := c, compressedPos := p, nibbleIndex := n }) :
    wc2.maxCompressedSize = wc.maxCompressedSize ∧ wc2.indic = wc.indic ∧
      wc2.indicBit = wc.indicBit ∧ wc2.indicPos = wc.indicPos := by
  subst h
  exact ⟨rfl, rfl, rfl, rfl⟩

structure ItemWritten (wc wc2 : WriteContext) : Prop where
  header : wc2.maxCompressedSize = wc.maxCompressedSize ∧ wc2.indic = wc.indic ∧
    wc2.indicBit = wc.indicBit ∧ wc2.indicPos = wc.indicPos
  lt : wc.compressedPos < wc2.compressedPos
  frame : ∀ p, p < wc.compressedPos → (wc.nibbleIndex = 0 ∨ p ≠ wc.nibbleIndex) →
    wc2.compressed p = wc.compressed p
  low : wc.nibbleIndex ≠ 0 →
    (wc2.compressed wc.nibbleIndex).toNat % 16 = (wc.compressed wc.nibbleIndex).toNat % 16
  next : wc2.nibbleIndex = 0 ∨
    (wc2.nibbleIndex = wc.nibbleIndex ∧ wc2.compressed wc.nibbleIndex = wc.compressed wc.nibbleIndex) ∨
    (wc.compressedPos ≤ wc2.nibbleIndex ∧ wc2.nibbleIndex < wc2.compressedPos ∧
      (wc2.compressed wc2.nibbleIndex).toNat < 16)
  within : Within wc wc2

inductive ItemAt (data : List UInt8) (pos : Nat) (buf : Nat → UInt8) (cp nib : Nat) :
    Nat → Nat → Nat → Nat → Prop
  | literal : buf cp = dataAt data pos → ItemAt data pos buf cp nib 0 1 (cp + 1) nib
  | reference {o len cp' nib' : Nat} : o < pos → pos - o ≤ 8192 → 3 ≤ len →
      len ≤ 0xFFFF + 3 → (∀ k, k < len → dataAt data (pos + k) = dataAt data (o + k)) →
      MatchAt buf cp nib (pos - o) len cp' nib' → ItemAt data pos buf cp nib 1 len cp' nib'

theorem writeMatchWord_word (wc : WriteContext) {m : LzMatch} {here o : Nat}
    (ho : m.there = some o) (hlt : o < here) (hfar : here - o ≤ 8192) (hlen : 3 ≤ m.length)
    (hlen' : m.length ≤ 0xFFFF + 3) :
    ((writeMatchWord wc m here).compressed wc.compressedPos).toNat +
        ((writeMatchWord wc m here).compressed (wc.compressedPos + 1)).toNat * 2 ^ 8 =
      (here - o - 1) * 8 + min (m.length - 3) 7 := by
  have hoff : u32 (here + 2 ^ 32 - m.there.getD 0 - 1) = here - o - 1 := by
    rw [ho, Option.getD_some, u32]
    omega
  have hml : min (u32 (m.length + 2 ^ 32 - 3)) 7 = min (m.length - 3) 7 := by
    rw [u32]
    omega
  have hor : (here - o - 1) * 8 ||| min (m.length - 3) 7 = (here - o - 1) * 8 + min (m.length - 3) 7 := by
    rw [Nat.mul_comm, show (8 : Nat) = 2 ^ 3 from rfl,
      Nat.two_pow_add_eq_or_of_lt (show min (m.length - 3) 7 < 2 ^ 3 by omega)]
  unfold writeMatchWord
  dsimp only
  rw [putBytes_leBytes16, hoff, hml, hor, Nat.mod_mod, Nat.mod_eq_of_lt (by omega)]

@[simp] theorem writeMatchWord_compressedPos (wc : WriteContext) (m : LzMatch) (here : Nat) :
    (writeMatchWord wc m here).compressedPos = wc.compressedPos + 2 := rfl

@[simp] theorem writeMatchWord_nibbleIndex (wc : WriteContext) (m : LzMatch) (here : Nat) :
    (writeMatchWord wc m here).nibbleIndex = wc.nibbleIndex := rfl

theorem writeMatchWord_frame (wc : WriteContext) (m : LzMatch) (here : Nat) {p : Nat}
    (hp : p < wc.compressedPos) : (writeMatchWord wc m here).compressed p = wc.compressed p :=
  putBytes_of_lt _ hp

theorem writeMatchWord_within (wc : WriteContext) (m : LzMatch) (here : Nat)
    (hb : bytesLeft wc.maxCompressedSize wc.compressedPos 2 = true) :
    Within wc (writeMatchWord wc m here) :=
  within_put rfl rfl rfl hb (List.cons_ne_nil _ _)

theorem encodeMatchItem_within {wc wc' : WriteContext} {m : LzMatch} {here : Nat}
    (h : encodeMatchItem wc m here = some wc')
    (hb : bytesLeft wc.maxCompressedSize wc.compressedPos 2 = true)
    (hnib : wc.nibbleIndex ≠ 0 → wc.nibbleIndex < wc.compressedPos) : Within wc wc' := by
  unfold encodeMatchItem at h
  split_ifs at h
  · refine (writeMatchWord_within wc m here hb).trans (encodeExtraLength_within h ?_)
    simp only [writeMatchWord_nibbleIndex, writeMatchWord_compressedPos]
    intro hn
    have := hnib hn
    omega
  · cases h
    exact writeMatchWord_within wc m here hb

section Match

variable {wc wc2 : WriteContext} {m : LzMatch} {here o : Nat}

theorem encodeMatchItem_eq_some (h : encodeMatchItem wc m here = some wc2) (ho : m.there = some o)
    (hlt : o < here) (hfar : here - o ≤ 8192) (hlen : 3 ≤ m.length)
    (hlen' : m.length ≤ 0xFFFF + 3)
    (hb : bytesLeft wc.maxCompressedSize wc.compressedPos 2 = true)
    (hnib : wc.nibbleIndex ≠ 0 →
      wc.nibbleIndex < wc.compressedPos ∧ (wc.compressed wc.nibbleIndex).toNat < 16) :
    ItemWritten wc wc2 ∧
      MatchAt wc2.compressed wc.compressedPos wc.nibbleIndex (here - o) m.length
        wc2.compressedPos wc2.nibbleIndex := by
  have hml : u32 (m.length + 2 ^ 32 - 3) = m.length - 3 := by
    rw [u32]
    omega
  have hword := writeMatchWord_word wc ho hlt hfar hlen hlen'
  have hwithin := encodeMatchItem_within h hb fun hn ↦ (hnib hn).1
  unfold encodeMatchItem at h
  rw [hml] at h
  split_ifs at h with hlong
  · have hnibw : (writeMatchWord wc m here).nibbleIndex ≠ 0 →
        (writeMatchWord wc m here).nibbleIndex < (writeMatchWord wc m here).compressedPos ∧
          ((writeMatchWord wc m here).compressed
            (writeMatchWord wc m here).nibbleIndex).toNat < 16 := by
      simp only [writeMatchWord_nibbleIndex, writeMatchWord_compressedPos]
      intro hn
      obtain ⟨hlt', hlow⟩ := hnib hn
      exact ⟨Nat.lt_add_right 2 hlt', by rw [writeMatchWord_frame wc m here hlt']; exact hlow⟩
    obtain ⟨hlength, heq, hframe, hlow, hnew⟩ := encodeExtraLength_eq_some h (by omega) hnibw
    simp only [writeMatchWord_compressedPos, writeMatchWord_nibbleIndex] at hlength hframe hlow hnew
    rw [Nat.sub_add_cancel hlong] at hlength
    have hcp := hlength.le_add
    have hkeep : ∀ p, wc.compressedPos ≤ p → p < wc.compressedPos + 2 →
        wc2.compressed p = (writeMatchWord wc m here).compressed p := by
      intro p hp hp'
      refine hframe p hp' ?_
      by_cases hn : wc.nibbleIndex = 0
      · exact .inl hn
      · exact .inr (by have := (hnib hn).1; omega)
    refine ⟨⟨header_of_eq heq, by omega, fun p hp hpn ↦ ?_, ?_, ?_, hwithin⟩, ⟨?_, hlength⟩⟩
    · rw [hframe p (by omega) hpn, writeMatchWord_frame wc m here hp]
    · intro hn
      rw [hlow hn, writeMatchWord_frame wc m here (hnib hn).1, Nat.mod_eq_of_lt (hnib hn).2]
    · unfold LengthAt at hlength
      rw [if_neg (by omega)] at hlength
      by_cases hn : wc.nibbleIndex = 0
      · rw [if_pos hn] at hlength
        obtain ⟨-, hn2, hext⟩ := hlength
        have := hext.eq_add
        rw [hn2]
        exact .inr (.inr ⟨by omega, by omega, hnew hn⟩)
      · rw [if_neg hn] at hlength
        exact .inl hlength.2.1
    · rw [hkeep _ (Nat.le_refl _) (by omega), hkeep _ (by omega) (by omega)]
      exact hword
  · cases h
    refine ⟨⟨⟨rfl, rfl, rfl, rfl⟩, by simp, fun p hp _ ↦ writeMatchWord_frame wc m here hp, ?_, ?_,
      hwithin⟩, ⟨hword, ?_⟩⟩
    · intro hn
      rw [writeMatchWord_frame wc m here (hnib hn).1]
    · by_cases hn : wc.nibbleIndex = 0
      · exact .inl hn
      · exact .inr (.inl ⟨rfl, writeMatchWord_frame wc m here (hnib hn).1⟩)
    · unfold LengthAt
      rw [if_pos (by omega)]
      exact ⟨rfl, rfl⟩

theorem encodeMatchItem_isSome (wc : WriteContext) (m : LzMatch) (here : Nat) (hlen : 3 ≤ m.length) (hlen' : m.length ≤ 0xFFFF + 3)
    (hroom : wc.compressedPos + m.length ≤ wc.maxCompressedSize) :
    (encodeMatchItem wc m here).isSome := by
  have hml : u32 (m.length + 2 ^ 32 - 3) = m.length - 3 := by
    rw [u32]
    omega
  unfold encodeMatchItem
  rw [hml]
  split_ifs with hlong
  · refine encodeExtraLength_isSome (by omega) ?_
    have hext := extLen_add_le (m.length - 3 - 7)
    show wc.compressedPos + 2 + (if wc.nibbleIndex = 0 then 1 else 0) + extLen (m.length - 3 - 7) ≤
      wc.maxCompressedSize
    split <;> omega
  · rfl

end Match

theorem ItemAt.le_add {data : List UInt8} {pos : Nat} {buf : Nat → UInt8}
    {cp nib bit len cp' nib' : Nat} (h : ItemAt data pos buf cp nib bit len cp' nib') :
    cp < cp' ∧ cp' ≤ cp + len := by
  cases h with
  | literal => omega
  | reference _ _ hlen _ _ hmatch =>
    have := hmatch.2.le_add
    omega

theorem ItemAt.bit_lt {data : List UInt8} {pos : Nat} {buf : Nat → UInt8}
    {cp nib bit len cp' nib' : Nat} (h : ItemAt data pos buf cp nib bit len cp' nib') : bit < 2 := by
  cases h <;> decide

section Congr

variable {buf out : Nat → UInt8}

theorem ExtAt.congr {c x c' : Nat} (h : ExtAt buf c x c')
    (hbytes : ∀ p, c ≤ p → p < c' → out p = buf p) : ExtAt out c x c' := by
  have hc := h.eq_add
  unfold extLen at hc
  unfold ExtAt at h ⊢
  split_ifs at h hc ⊢ with hx hy
  · exact h
  · rw [hbytes c (Nat.le_refl c) (by omega)]
    exact h
  · rw [hbytes c (Nat.le_refl c) (by omega), hbytes (c + 1) (by omega) (by omega),
      hbytes (c + 2) (by omega) (by omega)]
    exact h

theorem LengthAt.congr {c nib m c' nib' : Nat} (h : LengthAt buf c nib m c' nib') (hc : 0 < c)
    (hbytes : ∀ p, c ≤ p → p < c' → (nib' = 0 ∨ p ≠ nib') → out p = buf p)
    (hnew : nib' ≠ nib → nib = 0 → (out nib').toNat % 16 = (buf nib').toNat % 16)
    (hold : nib' ≠ nib → nib ≠ 0 → out nib = buf nib) : LengthAt out c nib m c' nib' := by
  unfold LengthAt at h ⊢
  split_ifs at h ⊢ with hm hn
  · exact h
  · obtain ⟨hlow, rfl, hext⟩ := h
    have := hext.eq_add
    refine ⟨by rw [hnew (by omega) hn]; exact hlow, rfl, ExtAt.congr hext fun p hp hp' ↦ ?_⟩
    exact hbytes p (by omega) hp' (.inr (by omega))
  · obtain ⟨hhigh, rfl, hext⟩ := h
    exact ⟨by rw [hold (Ne.symm hn) hn]; exact hhigh, rfl,
      ExtAt.congr hext fun p hp hp' ↦ hbytes p hp hp' (.inl rfl)⟩

theorem MatchAt.congr {cp nib dist len cp' nib' : Nat} (h : MatchAt buf cp nib dist len cp' nib')
    (hnib : nib ≠ 0 → nib < cp)
    (hbytes : ∀ p, cp ≤ p → p < cp' → (nib' = 0 ∨ p ≠ nib') → out p = buf p)
    (hnew : nib' ≠ nib → nib = 0 → (out nib').toNat % 16 = (buf nib').toNat % 16)
    (hold : nib' ≠ nib → nib ≠ 0 → out nib = buf nib) : MatchAt out cp nib dist len cp' nib' := by
  obtain ⟨hword, hlength⟩ := h
  have hle := hlength.le_add
  have hnib' : nib' = 0 ∨ nib' = nib ∨ nib' = cp + 2 := by
    unfold LengthAt at hlength
    split_ifs at hlength
    · exact .inr (.inl hlength.2)
    · exact .inr (.inr hlength.2.1)
    · exact .inl hlength.2.1
  have hword_at : ∀ k, k < 2 → out (cp + k) = buf (cp + k) := by
    intro k hk
    refine hbytes _ (Nat.le_add_right _ _) (by omega) ?_
    rcases hnib' with h0 | h1 | h2
    · exact .inl h0
    · by_cases hn : nib = 0
      · exact .inl (h1.trans hn)
      · exact .inr (by have := hnib hn; omega)
    · exact .inr (by omega)
  refine ⟨?_, LengthAt.congr hlength (by omega) (fun p hp hp' hpn ↦ hbytes p (by omega) hp' hpn) hnew hold⟩
  have h0 := hword_at 0 (by decide)
  rw [Nat.add_zero] at h0
  rw [h0, hword_at 1 (by decide)]
  exact hword

theorem ItemAt.congr {data : List UInt8} {pos cp nib bit len cp' nib' : Nat}
    (h : ItemAt data pos buf cp nib bit len cp' nib') (hnib : nib ≠ 0 → nib < cp)
    (hbytes : ∀ p, cp ≤ p → p < cp' → (nib' = 0 ∨ p ≠ nib') → out p = buf p)
    (hnew : nib' ≠ nib → nib = 0 → (out nib').toNat % 16 = (buf nib').toNat % 16)
    (hold : nib' ≠ nib → nib ≠ 0 → out nib = buf nib) : ItemAt data pos out cp nib bit len cp' nib' := by
  cases h with
  | literal hb =>
    refine .literal ?_
    rw [hbytes cp (Nat.le_refl cp) (Nat.lt_succ_self cp) ?_, hb]
    by_cases hn : nib = 0
    · exact .inl hn
    · exact .inr (by have := hnib hn; omega)
  | reference hlt hfar hlen hlen' hsame hmatch =>
    exact .reference hlt hfar hlen hlen' hsame (MatchAt.congr hmatch hnib hbytes hnew hold)

end Congr

theorem pushIndicatorBit_isSome (wc : WriteContext) (bit : Nat)
    (h : wc.indicBit + 1 = 32 → wc.compressedPos + 4 ≤ wc.maxCompressedSize) :
    (pushIndicatorBit wc bit).isSome := by
  unfold pushIndicatorBit
  dsimp only
  split
  · rename_i hfull
    rw [if_pos ((bytesLeft_iff (by decide)).2 (h hfull))]
    rfl
  · rfl

theorem compressTurn_eq_some {data : List UInt8} {cs cs' : CompressState}
    (h : compressTurn data cs = some cs')
    (hnib : cs.wc.nibbleIndex ≠ 0 →
      cs.wc.nibbleIndex < cs.wc.compressedPos ∧ (cs.wc.compressed cs.wc.nibbleIndex).toNat < 16) :
    ∃ wc2 bit len, ItemWritten cs.wc wc2 ∧ pushIndicatorBit wc2 bit = some cs'.wc ∧
      ItemAt data cs.uncompressedPos wc2.compressed cs.wc.compressedPos cs.wc.nibbleIndex bit len
        wc2.compressedPos wc2.nibbleIndex ∧
      cs'.uncompressedPos = cs.uncompressedPos + len ∧ cs.uncompressedPos + len ≤ data.length := by
  unfold compressTurn at h
  dsimp only at h
  split at h
  · split at h
    · simp at h
    rename_i hdata
    split at h
    · simp at h
    rename_i hroom
    rw [Option.bind_eq_bind, Option.bind_eq_some_iff] at h
    obtain ⟨wc', hpush, hcs'⟩ := h
    cases hcs'
    have hpos := (bytesLeft_iff Nat.one_pos).1 (by simpa using hdata)
    refine ⟨{ cs.wc with
        compressed := putBytes cs.wc.compressed cs.wc.compressedPos [dataAt data cs.uncompressedPos]
        compressedPos := cs.wc.compressedPos + 1 }, 0, 1,
      ⟨⟨rfl, rfl, rfl, rfl⟩, Nat.lt_succ_self _, fun p hp _ ↦ putBytes_of_lt _ hp,
      fun hn ↦ congrArg (fun b : UInt8 ↦ b.toNat % 16) (putBytes_of_lt _ (hnib hn).1), ?_,
      within_put rfl rfl rfl (by simpa using hroom) (List.cons_ne_nil _ _)⟩, hpush,
      .literal (putBytes_self _ _ _),
      rfl, by omega⟩
    by_cases hn : cs.wc.nibbleIndex = 0
    · exact .inl hn
    · exact .inr (.inl ⟨rfl, putBytes_of_lt _ (hnib hn).1⟩)
  · rename_i o ho
    by_cases hmax : 3 ≤ min (0xFFFF + 3) (data.length - cs.uncompressedPos)
    · rw [if_pos hmax] at ho h
      dsimp only at ho h
      obtain ⟨hlt, hfar, hlen, hmaxlen, hsame⟩ := lookupMatch_there ho
      rw [Option.bind_eq_bind, Option.bind_eq_some_iff] at h
      obtain ⟨wc', henc, hcs'⟩ := h
      cases hcs'
      rw [encodeMatch_eq] at henc
      split at henc
      · cases henc
      rename_i hcheck
      rw [Option.bind_eq_some_iff] at henc
      obtain ⟨wc2, hitem, hpush⟩ := henc
      obtain ⟨hwritten, hat⟩ := encodeMatchItem_eq_some hitem ho hlt hfar (by omega) (by omega)
        (by simpa using (not_or.1 hcheck).2) hnib
      exact ⟨wc2, 1, _, hwritten, hpush,
        .reference hlt hfar (by omega) (by omega) hsame hat, rfl, by omega⟩
    · rw [if_neg hmax] at ho
      cases ho

theorem pushIndicatorBit_frame {wc wc' : WriteContext} {bit p : Nat}
    (h : pushIndicatorBit wc bit = some wc') (hp : p < wc.indicPos ∨ wc.indicPos + 4 ≤ p) :
    wc'.compressed p = wc.compressed p := by
  obtain ⟨-, -, -, ⟨-, -, -, -, hbuf⟩ | ⟨-, -, -, -, -, hbuf⟩⟩ := pushIndicatorBit_eq_some h
  · rw [hbuf]
  · rw [hbuf]
    rcases hp with hp | hp
    · exact putBytes_of_lt _ hp
    · exact putBytes_of_le (by rw [length_leBytes32]; exact hp)

theorem pushIndicatorBit_compressedPos_le {wc wc' : WriteContext} {bit : Nat}
    (h : pushIndicatorBit wc bit = some wc') : wc.compressedPos ≤ wc'.compressedPos := by
  obtain ⟨-, -, -, ⟨-, -, -, hcp, -⟩ | ⟨-, -, -, hcp, -⟩⟩ := pushIndicatorBit_eq_some h <;> omega

structure WcOk (wc : WriteContext) : Prop where
  indic_lt : wc.indic < 2 ^ 32
  indicBit_lt : wc.indicBit < 32
  word : wc.indicPos + 4 ≤ wc.compressedPos
  fresh : wc.indicBit = 0 → wc.compressedPos = wc.indicPos + 4
  nibble : wc.nibbleIndex ≠ 0 → wc.nibbleIndex < wc.compressedPos ∧
    (wc.nibbleIndex < wc.indicPos ∨ wc.indicPos + 4 ≤ wc.nibbleIndex) ∧
    (wc.compressed wc.nibbleIndex).toNat < 16

theorem WcOk.pending {wc : WriteContext} (h : WcOk wc) :
    wc.nibbleIndex ≠ 0 →
      wc.nibbleIndex < wc.compressedPos ∧ (wc.compressed wc.nibbleIndex).toNat < 16 :=
  fun hn ↦ ⟨(h.nibble hn).1, (h.nibble hn).2.2⟩

theorem ItemWritten.pending {wc wc2 : WriteContext} (hitem : ItemWritten wc wc2) (hwc : WcOk wc) :
    wc2.nibbleIndex ≠ 0 → wc2.nibbleIndex < wc2.compressedPos ∧
      (wc2.nibbleIndex < wc2.indicPos ∨ wc2.indicPos + 4 ≤ wc2.nibbleIndex) ∧
      (wc2.compressed wc2.nibbleIndex).toNat < 16 := by
  intro hn
  obtain ⟨-, -, -, hpos⟩ := hitem.header
  have hlt := hitem.lt
  have hword := hwc.word
  rw [hpos]
  rcases hitem.next with h0 | ⟨hsame, hbyte⟩ | ⟨hge, hlt2, hbyte⟩
  · exact absurd h0 hn
  · rw [hsame] at hn ⊢
    obtain ⟨h1, h2, h3⟩ := hwc.nibble hn
    exact ⟨by omega, h2, by rw [hbyte]; exact h3⟩
  · exact ⟨hlt2, .inr (by omega), hbyte⟩

theorem WcOk.push {wc wc2 wc' : WriteContext} {bit : Nat} (hwc : WcOk wc)
    (hitem : ItemWritten wc wc2) (hpush : pushIndicatorBit wc2 bit = some wc') : WcOk wc' := by
  obtain ⟨hmax, hindic, hbit, hpos⟩ := hitem.header
  have hlt := hitem.lt
  have hframe := fun p (hp : p < wc2.indicPos ∨ wc2.indicPos + 4 ≤ p) ↦ pushIndicatorBit_frame hpush hp
  obtain ⟨-, hnib', hindic', hcases⟩ := pushIndicatorBit_eq_some hpush
  have hbound : wc'.indic < 2 ^ 32 := by
    rw [hindic', u32]
    exact Nat.mod_lt _ (by decide)
  have hpending : wc'.nibbleIndex ≠ 0 → wc'.nibbleIndex < wc2.compressedPos ∧
      (wc'.nibbleIndex < wc2.indicPos ∨ wc2.indicPos + 4 ≤ wc'.nibbleIndex) ∧
      (wc'.compressed wc'.nibbleIndex).toNat < 16 := by
    intro hn
    rw [hnib'] at hn ⊢
    obtain ⟨h1, h2, h3⟩ := hitem.pending hwc hn
    exact ⟨h1, h2, by rw [hframe _ h2]; exact h3⟩
  rcases hcases with ⟨hfull, hbit', hpos', hcp', -⟩ | ⟨hfull, hbit', hpos', hcp', -, -⟩
  · refine ⟨hbound, by have := hwc.indicBit_lt; omega, by have := hwc.word; omega,
      fun h ↦ by omega, fun hn ↦ ?_⟩
    rw [hpos', hcp']
    exact hpending hn
  · refine ⟨hbound, by omega, by omega, fun _ ↦ by omega, fun hn ↦ ?_⟩
    obtain ⟨h1, -, h3⟩ := hpending hn
    rw [hpos', hcp']
    exact ⟨by omega, .inl h1, h3⟩

theorem compressTurn_wcOk {data : List UInt8} {cs cs' : CompressState}
    (h : compressTurn data cs = some cs') (hwc : WcOk cs.wc) :
    WcOk cs'.wc ∧ cs'.wc.maxCompressedSize = cs.wc.maxCompressedSize ∧
      cs.uncompressedPos < cs'.uncompressedPos ∧ cs'.uncompressedPos ≤ data.length := by
  obtain ⟨wc2, bit, len, hitem, hpush, hat, hpos, hle⟩ := compressTurn_eq_some h hwc.pending
  have := hat.le_add
  exact ⟨hwc.push hitem hpush, (pushIndicatorBit_eq_some hpush).1.trans hitem.header.1,
    by omega, by omega⟩

inductive CompressRun (data : List UInt8) : CompressState → CompressState → Prop
  | done (cs : CompressState) : CompressRun data cs cs
  | step {cs cs' cs'' : CompressState} : compressTurn data cs = some cs' →
      CompressRun data cs' cs'' → CompressRun data cs cs''

theorem CompressRun.pos_le {data : List UInt8} {cs cs' : CompressState}
    (h : CompressRun data cs cs') (hwc : WcOk cs.wc) : cs.uncompressedPos ≤ cs'.uncompressedPos ∧
      (cs.uncompressedPos ≤ data.length → cs'.uncompressedPos ≤ data.length) := by
  induction h with
  | done => exact ⟨Nat.le_refl _, id⟩
  | step hturn _ ih =>
    obtain ⟨hwc1, -, hlt, hle⟩ := compressTurn_wcOk hturn hwc
    obtain ⟨h1, h2⟩ := ih hwc1
    exact ⟨by omega, fun _ ↦ h2 hle⟩

theorem CompressRun.wcOk {data : List UInt8} {cs cs' : CompressState}
    (h : CompressRun data cs cs') (hwc : WcOk cs.wc) : WcOk cs'.wc := by
  induction h with
  | done => exact hwc
  | step hturn _ ih => exact ih (compressTurn_wcOk hturn hwc).1

theorem compressTurn_compressedPos_lt {data : List UInt8} {cs cs' : CompressState}
    (h : compressTurn data cs = some cs') (hwc : WcOk cs.wc) :
    cs.wc.compressedPos < cs'.wc.compressedPos := by
  obtain ⟨wc2, bit, len, hitem, hpush, -⟩ := compressTurn_eq_some h hwc.pending
  exact hitem.lt.trans_le (pushIndicatorBit_compressedPos_le hpush)

theorem CompressRun.maxCompressedSize_eq {data : List UInt8} {cs cs' : CompressState}
    (h : CompressRun data cs cs') (hwc : WcOk cs.wc) :
    cs'.wc.maxCompressedSize = cs.wc.maxCompressedSize := by
  induction h with
  | done => rfl
  | step hturn _ ih =>
    obtain ⟨hwc1, hmax, -⟩ := compressTurn_wcOk hturn hwc
    rw [ih hwc1, hmax]

theorem compressTurn_within {data : List UInt8} {cs cs' : CompressState}
    (h : compressTurn data cs = some cs') (hwc : WcOk cs.wc) : Within cs.wc cs'.wc := by
  obtain ⟨wc2, bit, len, hitem, hpush, -⟩ := compressTurn_eq_some h hwc.pending
  obtain ⟨-, -, -, hpos⟩ := hitem.header
  exact hitem.within.trans
    (pushIndicatorBit_within hpush (by rw [hpos]; exact hwc.word.trans hitem.within.le))

theorem CompressRun.within {data : List UInt8} {cs cs' : CompressState}
    (h : CompressRun data cs cs') (hwc : WcOk cs.wc) : Within cs.wc cs'.wc := by
  induction h with
  | done => exact Within.refl _
  | step hturn _ ih => exact (compressTurn_within hturn hwc).trans (ih (compressTurn_wcOk hturn hwc).1)

theorem CompressRun.eq_or_lt {data : List UInt8} {cs cs' : CompressState}
    (h : CompressRun data cs cs') (hwc : WcOk cs.wc) :
    cs' = cs ∨ cs.wc.compressedPos < cs'.wc.compressedPos := by
  induction h with
  | done => exact .inl rfl
  | step hturn _ ih =>
    have hlt := compressTurn_compressedPos_lt hturn hwc
    rcases ih (compressTurn_wcOk hturn hwc).1 with heq | hlt'
    · rw [heq]
      exact .inr hlt
    · exact .inr (hlt.trans hlt')

theorem compressLoop_eq_some {data : List UInt8} :
    ∀ {fuel : Nat} {cs cs' : CompressState}, WcOk cs.wc → compressLoop data fuel cs = some cs' →
      CompressRun data cs cs' ∧
        (data.length - cs.uncompressedPos < fuel →
          ¬ (cs'.uncompressedPos < data.length ∧ cs'.wc.compressedPos < cs'.wc.maxCompressedSize))
  | 0, cs, cs', _, h => by
    cases h
    exact ⟨.done cs, fun h ↦ absurd h (Nat.not_lt_zero _)⟩
  | fuel + 1, cs, cs', hwc, h => by
    rw [compressLoop] at h
    split at h
    · rename_i hgo
      rw [Option.bind_eq_bind, Option.bind_eq_some_iff] at h
      obtain ⟨cs1, hturn, hloop⟩ := h
      obtain ⟨hwc1, -, hlt, -⟩ := compressTurn_wcOk hturn hwc
      obtain ⟨hrun, hstop⟩ := compressLoop_eq_some hwc1 hloop
      exact ⟨.step hturn hrun, fun _ ↦ hstop (by omega)⟩
    · rename_i hstop
      cases h
      exact ⟨.done cs, fun _ ↦ hstop⟩

def Room (cs : CompressState) : Prop :=
  ∃ k, k ≤ cs.uncompressedPos ∧ cs.wc.indicBit = k % 32 ∧
    cs.wc.compressedPos ≤ 4 + cs.uncompressedPos + 4 * (k / 32)

theorem Room.turn {data : List UInt8} {cs cs' : CompressState} (hroom : Room cs)
    (hwc : WcOk cs.wc) (h : compressTurn data cs = some cs') : Room cs' := by
  obtain ⟨wc2, bit, len, hitem, hpush, hat, hpos, -⟩ := compressTurn_eq_some h hwc.pending
  obtain ⟨k, hk, hbit, hcp⟩ := hroom
  have hlen := hat.le_add
  obtain ⟨-, -, hbit2, -⟩ := hitem.header
  obtain ⟨-, -, -, ⟨hfull, hbit', -, hcp', -⟩ | ⟨hfull, hbit', -, hcp', -, -⟩⟩ :=
    pushIndicatorBit_eq_some hpush
  · refine ⟨k + 1, by omega, by omega, by omega⟩
  · refine ⟨k + 1, by omega, by omega, by omega⟩

theorem CompressRun.room {data : List UInt8} {cs cs' : CompressState}
    (h : CompressRun data cs cs') (hwc : WcOk cs.wc) (hroom : Room cs) : Room cs' := by
  induction h with
  | done => exact hroom
  | step hturn _ ih => exact ih (compressTurn_wcOk hturn hwc).1 (hroom.turn hwc hturn)

theorem compressTurn_isSome {data : List UInt8} {cs : CompressState} (hwc : WcOk cs.wc)
    (hroom : Room cs) (hpos : cs.uncompressedPos < data.length)
    (hmax : 4 + data.length + 4 * (data.length / 32) ≤ cs.wc.maxCompressedSize) :
    (compressTurn data cs).isSome := by
  obtain ⟨k, hk, hbit, hcp⟩ := hroom
  unfold compressTurn
  dsimp only
  split
  · have h1 : bytesLeft data.length cs.uncompressedPos 1 = true := (bytesLeft_iff Nat.one_pos).2 hpos
    have h2 : bytesLeft cs.wc.maxCompressedSize cs.wc.compressedPos 1 = true :=
      (bytesLeft_iff Nat.one_pos).2 (by omega)
    rw [h1, h2, if_neg (by decide), if_neg (by decide)]
    obtain ⟨wc', hw'⟩ := Option.isSome_iff_exists.1
      (pushIndicatorBit_isSome { cs.wc with
        compressed := putBytes cs.wc.compressed cs.wc.compressedPos [dataAt data cs.uncompressedPos]
        compressedPos := cs.wc.compressedPos + 1 } 0 (fun h ↦ by dsimp only at h ⊢; omega))
    rw [Option.bind_eq_bind, hw']
    rfl
  · rename_i o ho
    by_cases hmax3 : 3 ≤ min (0xFFFF + 3) (data.length - cs.uncompressedPos)
    · rw [if_pos hmax3] at ho ⊢
      dsimp only at ho ⊢
      obtain ⟨hlt, hfar, hlen, hmaxlen, -⟩ := lookupMatch_there ho
      generalize lookupMatch cs.hashTable _ data cs.uncompressedPos _ = m at ho hlen hmaxlen ⊢
      have h2 : bytesLeft cs.wc.maxCompressedSize cs.wc.compressedPos 2 = true :=
        (bytesLeft_iff (by decide)).2 (by omega)
      rw [encodeMatch_eq, ho, Option.getD_some, h2, if_neg (by rw [u32]; simp; omega)]
      obtain ⟨wc2, hitem⟩ := Option.isSome_iff_exists.1
        (encodeMatchItem_isSome cs.wc m cs.uncompressedPos (by omega) (by omega) (by omega))
      obtain ⟨hwritten, hat⟩ := encodeMatchItem_eq_some hitem ho hlt hfar (by omega) (by omega) h2
        hwc.pending
      have hle := hat.2.le_add
      obtain ⟨hmax2, -, hbit2, -⟩ := hwritten.header
      obtain ⟨wc', hw'⟩ := Option.isSome_iff_exists.1 (pushIndicatorBit_isSome wc2 1 (fun h ↦ by omega))
      rw [hitem, Option.bind_some, hw', Option.bind_eq_bind, Option.bind_some]
      rfl
    · rw [if_neg hmax3] at ho
      cases ho

theorem compressLoop_isSome {data : List UInt8} :
    ∀ {fuel : Nat} {cs : CompressState}, WcOk cs.wc → Room cs →
      4 + data.length + 4 * (data.length / 32) ≤ cs.wc.maxCompressedSize →
      (compressLoop data fuel cs).isSome
  | 0, _, _, _, _ => rfl
  | fuel + 1, cs, hwc, hroom, hmax => by
    rw [compressLoop]
    split
    · rename_i hgo
      obtain ⟨cs1, hturn⟩ := Option.isSome_iff_exists.1 (compressTurn_isSome hwc hroom hgo.1 hmax)
      obtain ⟨hwc1, hmax1, -, -⟩ := compressTurn_wcOk hturn hwc
      rw [Option.bind_eq_bind, hturn, Option.bind_some]
      exact compressLoop_isSome hwc1 (hroom.turn hwc hturn) (by omega)
    · rfl

theorem wcOk_start (compressed : Nat → UInt8) (maxCompressedSize : Nat) :
    WcOk ⟨putBytes compressed 0 (leBytes32 0), 4, maxCompressedSize, 0, 0, 0, 0⟩ :=
  ⟨Nat.two_pow_pos 32, Nat.zero_lt_succ 31, Nat.le_refl 4, fun _ ↦ rfl, fun h ↦ absurd rfl h⟩

theorem lzxpressCompress_isSome {data : List UInt8} {compressed : Nat → UInt8}
    {maxCompressedSize : Nat}
    (hroom : 4 + data.length + 4 * (data.length / 32) ≤ maxCompressedSize) :
    (lzxpressCompress data compressed maxCompressedSize).isSome := by
  unfold lzxpressCompress
  split_ifs with h0 h4
  · rfl
  · rw [(bytesLeft_iff (by decide)).2 (by omega)] at h4
    exact absurd h4 (by decide)
  · obtain ⟨csF, hloop⟩ := Option.isSome_iff_exists.1 (@compressLoop_isSome data (data.length + 1)
      ⟨_, 0, fun _ ↦ 0xffffffff⟩ (wcOk_start compressed maxCompressedSize)
      ⟨0, Nat.le_refl 0, rfl, Nat.le_refl 4⟩ hroom)
    dsimp only
    rw [hloop]
    rfl

theorem lzxpressCompress_run {data : List UInt8} {compressed : Nat → UInt8}
    {maxCompressedSize n : Nat} {out : Nat → UInt8}
    (h : lzxpressCompress data compressed maxCompressedSize = some (n, out))
    (h0 : data.length ≠ 0) :
    4 ≤ maxCompressedSize ∧
      ∃ csF, CompressRun data ⟨⟨putBytes compressed 0 (leBytes32 0), 4, maxCompressedSize, 0, 0, 0, 0⟩,
        0, fun _ ↦ 0xffffffff⟩ csF ∧
      ¬ (csF.uncompressedPos < data.length ∧ csF.wc.compressedPos < maxCompressedSize) ∧
      n = csF.wc.compressedPos ∧
      out = putBytes csF.wc.compressed csF.wc.indicPos (leBytes32
        ((if csF.wc.indicBit ≠ 0 then u32 (csF.wc.indic <<< (32 - csF.wc.indicBit))
          else csF.wc.indic) ||| 0xffffffff >>> csF.wc.indicBit)) := by
  unfold lzxpressCompress at h
  rw [if_neg h0] at h
  split_ifs at h with h4
  rw [Option.bind_eq_bind, Option.bind_eq_some_iff] at h
  obtain ⟨csF, hloop, hres⟩ := h
  cases hres
  have hwc0 := wcOk_start compressed maxCompressedSize
  obtain ⟨hrun, hstop⟩ := compressLoop_eq_some hwc0 hloop
  have hmax := hrun.maxCompressedSize_eq hwc0
  dsimp only at hmax hstop
  have hroom := (bytesLeft_iff (show 0 < 4 by decide)).1
    (show bytesLeft maxCompressedSize 0 4 = true by simpa using h4)
  exact ⟨by omega, csF, hrun, fun h ↦ hstop (by omega) (by rw [hmax]; exact h), rfl, rfl⟩

theorem lzxpressCompress_size_le {data : List UInt8} {compressed : Nat → UInt8}
    {maxCompressedSize n : Nat} {out : Nat → UInt8}
    (h : lzxpressCompress data compressed maxCompressedSize = some (n, out)) :
    n ≤ 4 + data.length + 4 * (data.length / 32) := by
  by_cases h0 : data.length = 0
  · unfold lzxpressCompress at h
    rw [if_pos h0] at h
    cases h
    omega
  · obtain ⟨-, csF, hrun, -, rfl, -⟩ := lzxpressCompress_run h h0
    have hwc0 := wcOk_start compressed maxCompressedSize
    obtain ⟨k, hk, -, hcp⟩ := hrun.room hwc0 ⟨0, Nat.le_refl 0, rfl, Nat.le_refl 4⟩
    have hL := (hrun.pos_le hwc0).2 (Nat.zero_le _)
    have hdiv : k / 32 ≤ data.length / 32 := Nat.div_le_div_right (hk.trans hL)
    omega

theorem lzxpressCompress_size_le_ab :
    ∃ n out, lzxpressCompress [0x61, 0x62] (fun _ ↦ 0) 5 = some (n, out) ∧
      n ≤ 4 + [0x61, 0x62].length + 4 * ([0x61, 0x62].length / 32) := by
  obtain ⟨⟨n, out⟩, h⟩ := Option.isSome_iff_exists.1
    (rfl : (lzxpressCompress [0x61, 0x62] (fun _ ↦ 0) 5).isSome = true)
  exact ⟨n, out, h, lzxpressCompress_size_le h⟩

theorem lzxpressCompress_within {data : List UInt8} {compressed : Nat → UInt8}
    {maxCompressedSize n : Nat} {out : Nat → UInt8}
    (h : lzxpressCompress data compressed maxCompressedSize = some (n, out)) :
    n ≤ maxCompressedSize ∧ ∀ p, n ≤ p → out p = compressed p := by
  by_cases h0 : data.length = 0
  · unfold lzxpressCompress at h
    rw [if_pos h0] at h
    cases h
    exact ⟨Nat.zero_le _, fun _ _ ↦ rfl⟩
  · obtain ⟨h4, csF, hrun, -, rfl, rfl⟩ := lzxpressCompress_run h h0
    have hwc0 := wcOk_start compressed maxCompressedSize
    have hwithin := hrun.within hwc0
    have hword := (hrun.wcOk hwc0).word
    have hmax := hrun.maxCompressedSize_eq hwc0
    dsimp only at hwithin hmax
    refine ⟨by rw [← hmax]; exact hwithin.room h4, fun p hp ↦ ?_⟩
    have := hwithin.le
    dsimp only at this
    rw [putBytes_of_le (by rw [length_leBytes32]; omega),
      hwithin.above p hp]
    exact putBytes_of_le (by rw [length_leBytes32]; omega)

theorem lzxpressCompress_within_ab :
    ∃ n out, lzxpressCompress [0x61, 0x62] (fun _ ↦ 0) 5 = some (n, out) ∧
      n ≤ 5 ∧ ∀ p, n ≤ p → out p = 0 := by
  obtain ⟨⟨n, out⟩, h⟩ := Option.isSome_iff_exists.1
    (rfl : (lzxpressCompress [0x61, 0x62] (fun _ ↦ 0) 5).isSome = true)
  exact ⟨n, out, h, lzxpressCompress_within h⟩

end Samba.Compression.LzxpressEncode
