import Samba.Compression.LzxpressEncode
import Samba.Lib.BackRef

namespace Samba.Compression.LzxpressRoundTrip

open Samba.Lib.ReadLog Samba.Lib.BackRef Samba.Compression.Lzxpress
  Samba.Compression.LzxpressEncode

section Decoder

variable {input : Nat → UInt8} {inputSize maxOutputSize : Nat}

theorem checkBytes_eq_pure {size index needed : Nat} (h : bytesLeft size index needed = true) :
    checkBytes size index needed = pure () := by
  rw [checkBytes, if_pos h]

theorem inputByte_returns (i : Nat) : Returns (inputByte input i) (· = (input i).toNat) :=
  Returns.bind Returns.logEvent fun _ _ ↦ Returns.pure rfl

theorem pullLeU16_returns (i : Nat) :
    Returns (pullLeU16 input i) (· = (input i).toNat + (input (i + 1)).toNat * 2 ^ 8) := by
  refine Returns.bind (inputByte_returns i) fun lo hlo ↦ ?_
  refine Returns.bind (inputByte_returns (i + 1)) fun hi hhi ↦ Returns.pure ?_
  rw [hlo, hhi]

theorem pullLeU32_returns (i : Nat) : Returns (pullLeU32 input i) (· = le32 input i) := by
  refine Returns.bind (pullLeU16_returns i) fun lo hlo ↦ ?_
  refine Returns.bind (pullLeU16_returns (i + 2)) fun hi hhi ↦ Returns.pure ?_
  rw [hlo, hhi, le32]

theorem decodeLiteral_returns {st : DecompressState} (hin : st.inputIndex < inputSize)
    (hout : st.output.length < maxOutputSize) :
    Returns (decodeLiteral input inputSize maxOutputSize st) fun r ↦
      r = { st with output := st.output ++ [input st.inputIndex], inputIndex := st.inputIndex + 1 } := by
  unfold decodeLiteral
  rw [checkBytes_eq_pure ((bytesLeft_iff Nat.one_pos).2 (by omega)),
    checkBytes_eq_pure ((bytesLeft_iff Nat.one_pos).2 (by omega))]
  simp only [pure_bind]
  refine Returns.bind (inputByte_returns st.inputIndex) fun c hc ↦ ?_
  refine Returns.bind Returns.logEvent fun _ _ ↦ Returns.pure ?_
  rw [hc, UInt8.ofNat_toNat]

theorem copyMatch_returns (offset : Nat) :
    ∀ (len : Nat) (output : List UInt8), offset ≤ output.length →
      output.length + len ≤ maxOutputSize →
      Returns (copyMatch maxOutputSize offset len output) (· = copyBack 0 offset len output) := by
  intro len
  induction len with
  | zero => intro output _ _; exact Returns.pure rfl
  | succ n ih =>
    intro output hback hroom
    rw [copyMatch, if_neg (by omega), checkBytes_eq_pure ((bytesLeft_iff Nat.one_pos).2 (by omega))]
    simp only [pure_bind]
    refine Returns.bind Returns.logEvent fun _ _ ↦ ?_
    exact ih _ (by simp; omega) (by simp; omega)

theorem extendedLength_returns {c x c' : Nat} (hx : 15 ≤ x) (h : ExtAt input c x c')
    (hin : c' ≤ inputSize) : Returns (extendedLength input inputSize c) (· = (x, c')) := by
  unfold ExtAt at h
  rw [if_neg (by omega)] at h
  obtain ⟨hbyte, hrest⟩ := h
  unfold extendedLength
  split_ifs at hrest with hy
  · rw [checkBytes_eq_pure ((bytesLeft_iff Nat.one_pos).2 (by omega))]
    simp only [pure_bind]
    refine Returns.bind (inputByte_returns c) fun b hb ↦ ?_
    rw [hb, hbyte, if_neg (by omega)]
    refine Returns.pure ?_
    rw [hrest, u32, Nat.mod_eq_of_lt (by omega)]
    congr 1
    omega
  · obtain ⟨hwide, rfl⟩ := hrest
    have hlt : x + 7 < 2 ^ 16 := by
      have := (input (c + 1)).toNat_lt
      have := (input (c + 2)).toNat_lt
      omega
    rw [checkBytes_eq_pure ((bytesLeft_iff Nat.one_pos).2 (by omega))]
    simp only [pure_bind]
    refine Returns.bind (inputByte_returns c) fun b hb ↦ ?_
    rw [hb, hbyte, if_pos (by omega)]
    have hw : Returns (wideLength input inputSize (c + 1)) (· = (x + 7, c + 3)) := by
      unfold wideLength
      rw [checkBytes_eq_pure ((bytesLeft_iff (by decide)).2 (by omega))]
      simp only [pure_bind]
      refine Returns.bind (pullLeU16_returns (c + 1)) fun v hv ↦ ?_
      rw [hv, hwide, if_neg (by omega)]
      exact Returns.pure rfl
    refine Returns.bind hw fun r hr ↦ ?_
    rw [hr]
    dsimp only
    rw [if_neg (by omega)]
    refine Returns.pure ?_
    rw [u32, Nat.mod_eq_of_lt (by omega)]
    congr 1
    omega

theorem extAt_short {c x c' : Nat} (hx : x < 15) (h : ExtAt input c x c') : c' = c := by
  unfold ExtAt at h
  rwa [if_pos hx] at h

theorem afterNibble_returns {c x c' nib : Nat} (h : ExtAt input c x c') (hin : c' ≤ inputSize)
    (hx : x < 2 ^ 16) :
    Returns (match (min x 15, c, nib) with
      | (length, inputIndex, nibbleIndex) =>
        if length = 15 then do
          let r ← extendedLength input inputSize inputIndex
          pure (u32 (u32 (r.1 + 7) + 3), r.2, nibbleIndex)
        else pure (u32 (u32 (length + 7) + 3), inputIndex, nibbleIndex))
      (· = (x + 10, c', nib)) := by
  have hsum : ∀ y, y < 2 ^ 16 → u32 (u32 (y + 7) + 3) = y + 10 := by
    intro y hy
    rw [u32, u32, Nat.mod_eq_of_lt (by omega), Nat.mod_eq_of_lt (by omega)]
  dsimp only
  by_cases hlong : 15 ≤ x
  · rw [if_pos (by omega)]
    refine Returns.bind (extendedLength_returns hlong h hin) fun r hr ↦ Returns.pure ?_
    rw [hr]
    dsimp only
    rw [hsum x hx]
  · rw [if_neg (by omega), extAt_short (by omega) h, Nat.min_eq_left (by omega), hsum x hx]
    exact Returns.pure rfl

theorem matchLength_returns {q c nib m c' nib' : Nat} (h : LengthAt input c nib m c' nib')
    (hm : m < 2 ^ 16) (hin : c' ≤ inputSize) :
    Returns (matchLength input inputSize (q * 8 + min m 7) c nib) (· = (m + 3, c', nib')) := by
  unfold LengthAt at h
  unfold matchLength
  by_cases hshort : m < 7
  · rw [if_pos hshort] at h
    obtain ⟨rfl, rfl⟩ := h
    rw [if_neg (by omega)]
    refine Returns.pure ?_
    rw [Nat.min_eq_left (by omega)]
    congr 1
    omega
  · rw [if_neg hshort] at h
    rw [if_pos (by omega)]
    have hm10 : m - 7 + 10 = m + 3 := by omega
    split_ifs at h with hnib
    · obtain ⟨hlow, hnib', hext⟩ := h
      have hn : Returns (nibbleLength input inputSize c nib) (· = (min (m - 7) 15, c + 1, c)) := by
        unfold nibbleLength
        rw [if_pos hnib, checkBytes_eq_pure ((bytesLeft_iff Nat.one_pos).2
          (by have := hext.eq_add; omega))]
        simp only [pure_bind]
        refine Returns.bind (inputByte_returns c) fun b hb ↦ Returns.pure ?_
        rw [hb, hlow]
      refine Returns.bind hn fun r hr ↦ ?_
      rw [hr, ← hm10, hnib']
      exact afterNibble_returns hext hin (by omega)
    · obtain ⟨hhigh, hnib', hext⟩ := h
      have hn : Returns (nibbleLength input inputSize c nib) (· = (min (m - 7) 15, c, 0)) := by
        unfold nibbleLength
        rw [if_neg hnib]
        refine Returns.bind (inputByte_returns nib) fun b hb ↦ Returns.pure ?_
        rw [hb, hhigh]
      refine Returns.bind hn fun r hr ↦ ?_
      rw [hr, ← hm10, hnib']
      exact afterNibble_returns hext hin (by omega)

theorem decodeMatch_returns {st : DecompressState} {dist len cp' nib' : Nat}
    (h : MatchAt input st.inputIndex st.nibbleIndex dist len cp' nib') (hd : 0 < dist)
    (hd' : dist ≤ 8192) (hlen : 3 ≤ len) (hlen' : len ≤ 0xFFFF + 3) (hback : dist ≤ st.output.length)
    (hroom : st.output.length + len ≤ maxOutputSize) (hin : cp' ≤ inputSize) :
    Returns (decodeMatch input inputSize maxOutputSize st) (· = { st with
      output := copyBack 0 dist len st.output, inputIndex := cp', nibbleIndex := nib' }) := by
  obtain ⟨hword, hlength⟩ := h
  have hc := hlength.le_add
  unfold decodeMatch
  rw [checkBytes_eq_pure ((bytesLeft_iff (by decide)).2 (by omega))]
  simp only [pure_bind]
  refine Returns.bind (pullLeU16_returns st.inputIndex) fun w hw ↦ ?_
  rw [hw, hword]
  refine Returns.bind (matchLength_returns hlength (by omega) hin) fun r hr ↦ ?_
  rw [hr]
  dsimp only
  rw [if_neg (by omega)]
  have hoffset : ((dist - 1) * 8 + min (len - 3) 7) / 8 + 1 = dist := by omega
  rw [hoffset, show len - 3 + 3 = len by omega]
  refine Returns.bind (copyMatch_returns _ len st.output hback hroom) fun o ho ↦ Returns.pure ?_
  rw [ho]

end Decoder

theorem mul_two_add_mod_two_pow_succ (I k : Nat) {b : Nat} (hb : b < 2) :
    (I * 2 + b) % 2 ^ (k + 1) = I % 2 ^ k * 2 + b := by
  have hr := Nat.mod_lt I (Nat.two_pow_pos k)
  have hI : I * 2 + b = I % 2 ^ k * 2 + b + 2 ^ (k + 1) * (I / 2 ^ k) := by
    have := Nat.div_add_mod I (2 ^ k)
    rw [Nat.pow_succ, Nat.mul_comm (2 ^ k) 2, Nat.mul_assoc]
    omega
  rw [hI, Nat.add_mul_mod_self_left, Nat.mod_eq_of_lt (by rw [Nat.pow_succ]; omega)]

theorem padded_div (I : Nat) {j : Nat} (hj : j < 32) :
    (I * 2 ^ (32 - j) % 2 ^ 32 ||| (2 ^ 32 - 1) / 2 ^ j) < 2 ^ 32 ∧
      (I * 2 ^ (32 - j) % 2 ^ 32 ||| (2 ^ 32 - 1) / 2 ^ j) / 2 ^ (32 - j) = I % 2 ^ j := by
  have hsplit : (2 : Nat) ^ 32 = 2 ^ j * 2 ^ (32 - j) := by
    rw [← Nat.pow_add]
    congr 1
    omega
  have hP := Nat.two_pow_pos j
  have hQ := Nat.two_pow_pos (32 - j)
  have hr := Nat.mod_lt I hP
  have hones : (2 ^ 32 - 1) / 2 ^ j = 2 ^ (32 - j) - 1 := by
    have hmul : 2 ^ j * (2 ^ (32 - j) - 1) = 2 ^ j * 2 ^ (32 - j) - 2 ^ j := Nat.mul_sub_one _ _
    have hle : 2 ^ j ≤ 2 ^ j * 2 ^ (32 - j) := Nat.le_mul_of_pos_right _ hQ
    rw [hsplit, show 2 ^ j * 2 ^ (32 - j) - 1 = 2 ^ j * (2 ^ (32 - j) - 1) + (2 ^ j - 1) by omega,
      Nat.mul_add_div hP, Nat.div_eq_of_lt (by omega), Nat.add_zero]
  have hor : I % 2 ^ j * 2 ^ (32 - j) ||| 2 ^ (32 - j) - 1 =
      2 ^ (32 - j) * (I % 2 ^ j) + (2 ^ (32 - j) - 1) := by
    rw [Nat.mul_comm, Nat.two_pow_add_eq_or_of_lt (by omega)]
  have hlt : 2 ^ (32 - j) * (I % 2 ^ j) + (2 ^ (32 - j) - 1) < 2 ^ 32 := by
    have : 2 ^ (32 - j) * (I % 2 ^ j) ≤ 2 ^ (32 - j) * (2 ^ j - 1) := Nat.mul_le_mul_left _ (by omega)
    have hmul : 2 ^ (32 - j) * (2 ^ j - 1) = 2 ^ (32 - j) * 2 ^ j - 2 ^ (32 - j) := Nat.mul_sub_one _ _
    have hle : 2 ^ (32 - j) ≤ 2 ^ (32 - j) * 2 ^ j := Nat.le_mul_of_pos_right _ hP
    rw [hsplit, Nat.mul_comm (2 ^ j)]
    omega
  rw [hsplit, Nat.mul_mod_mul_right, ← hsplit, hones, hor]
  refine ⟨hlt, ?_⟩
  rw [Nat.mul_add_div hQ, Nat.div_eq_of_lt (by omega), Nat.add_zero]

structure Future (out : Nat → UInt8) (wc : WriteContext) : Prop where
  settled : ∀ p, p < wc.compressedPos → (p < wc.indicPos ∨ wc.indicPos + 4 ≤ p) →
    (wc.nibbleIndex = 0 ∨ p ≠ wc.nibbleIndex) → out p = wc.compressed p
  nibble : wc.nibbleIndex ≠ 0 →
    (out wc.nibbleIndex).toNat % 16 = (wc.compressed wc.nibbleIndex).toNat % 16
  bits : le32 out wc.indicPos / 2 ^ (32 - wc.indicBit) = wc.indic % 2 ^ wc.indicBit

section Future

variable {out : Nat → UInt8}

theorem future_final {wc : WriteContext} (hwc : WcOk wc) :
    Future (putBytes wc.compressed wc.indicPos (leBytes32
      ((if wc.indicBit ≠ 0 then u32 (wc.indic <<< (32 - wc.indicBit)) else wc.indic) |||
        0xffffffff >>> wc.indicBit))) wc := by
  have hout : ∀ v p, (p < wc.indicPos ∨ wc.indicPos + 4 ≤ p) →
      putBytes wc.compressed wc.indicPos (leBytes32 v) p = wc.compressed p := by
    rintro v p (hp | hp)
    · exact putBytes_of_lt _ hp
    · exact putBytes_of_le (by rw [length_leBytes32]; exact hp)
  refine ⟨fun p _ hp _ ↦ hout _ p hp, fun hn ↦ by rw [hout _ _ (hwc.nibble hn).2.1], ?_⟩
  rw [le32_putBytes_leBytes32]
  by_cases hj : wc.indicBit = 0
  · have hlt : wc.indic ||| 0xffffffff < 2 ^ 32 := Nat.or_lt_two_pow hwc.indic_lt (by decide)
    rw [if_neg (not_not.2 hj), hj, Nat.shiftRight_zero, Nat.mod_eq_of_lt hlt, Nat.sub_zero,
      Nat.div_eq_of_lt hlt, Nat.pow_zero, Nat.mod_one]
  · obtain ⟨hlt, hdiv⟩ := padded_div wc.indic hwc.indicBit_lt
    rw [if_pos hj, u32, Nat.shiftLeft_eq, Nat.shiftRight_eq_div_pow,
      show (0xffffffff : Nat) = 2 ^ 32 - 1 from rfl, Nat.mod_eq_of_lt hlt, hdiv]

theorem Future.of_push {wc2 wc' : WriteContext} {bit : Nat}
    (h : pushIndicatorBit wc2 bit = some wc') (hbit : bit < 2) (hk : wc2.indicBit < 32)
    (hword : wc2.indicPos + 4 ≤ wc2.compressedPos)
    (hnib : wc2.nibbleIndex ≠ 0 →
      wc2.nibbleIndex < wc2.indicPos ∨ wc2.indicPos + 4 ≤ wc2.nibbleIndex)
    (hf : Future out wc') :
    Future out wc2 ∧ le32 out wc2.indicPos / 2 ^ (31 - wc2.indicBit) % 2 = bit := by
  obtain ⟨-, hnib', hindic', hcases⟩ := pushIndicatorBit_eq_some h
  have hframe := fun p (hp : p < wc2.indicPos ∨ wc2.indicPos + 4 ≤ p) ↦ pushIndicatorBit_frame h hp
  have htop : le32 out wc2.indicPos / 2 ^ (31 - wc2.indicBit) =
        wc2.indic % 2 ^ wc2.indicBit * 2 + bit ∧
      ∀ p, p < wc2.compressedPos → (p < wc2.indicPos ∨ wc2.indicPos + 4 ≤ p) →
        (wc2.nibbleIndex = 0 ∨ p ≠ wc2.nibbleIndex) → out p = wc'.compressed p := by
    rcases hcases with ⟨hfull, hbit', hpos', hcp', -⟩ | ⟨hfull, hbit', hpos', hcp', -, hbuf⟩
    · have hbits := hf.bits
      rw [hbit', hpos', hindic', u32, show 32 - (wc2.indicBit + 1) = 31 - wc2.indicBit by omega,
        Nat.mod_mod_of_dvd _ (Nat.pow_dvd_pow 2 (by omega : wc2.indicBit + 1 ≤ 32)),
        mul_two_add_mod_two_pow_succ _ _ hbit] at hbits
      refine ⟨hbits, fun p hp hp' hn ↦ hf.settled p (by rw [hcp']; exact hp)
        (by rw [hpos']; exact hp') (by rw [hnib']; exact hn)⟩
    · have hsame : le32 out wc2.indicPos = le32 wc'.compressed wc2.indicPos := by
        refine le32_congr fun i hi ↦ hf.settled _ (by omega) (.inl (by omega)) ?_
        rw [hnib']
        by_cases hn : wc2.nibbleIndex = 0
        · exact .inl hn
        · exact .inr (by have := hnib hn; omega)
      refine ⟨?_, fun p hp _ hn ↦ hf.settled p (by omega) (.inl (by omega)) (by rw [hnib']; exact hn)⟩
      rw [show wc2.indicBit = 31 by omega, hsame, hbuf, le32_putBytes_leBytes32, u32,
        Nat.mod_mod, Nat.sub_self, Nat.pow_zero, Nat.div_one]
      exact mul_two_add_mod_two_pow_succ wc2.indic 31 hbit
  obtain ⟨htop, hsettled⟩ := htop
  have hlow := hf.nibble
  rw [hnib'] at hlow
  refine ⟨⟨fun p hp hp' hn ↦ (hsettled p hp hp' hn).trans (hframe p hp'), fun hn ↦ ?_, ?_⟩, ?_⟩
  · rw [hlow hn, hframe _ (hnib hn)]
  · rw [show 32 - wc2.indicBit = 31 - wc2.indicBit + 1 by omega, Nat.pow_succ,
      ← Nat.div_div_eq_div_mul, htop]
    omega
  · rw [htop]
    omega

theorem Future.of_item {wc wc2 : WriteContext} (hitem : ItemWritten wc wc2) (hwc : WcOk wc)
    (hf : Future out wc2) : Future out wc := by
  obtain ⟨-, hindic, hbit, hpos⟩ := hitem.header
  have hlt := hitem.lt
  have hnext : ∀ p, p < wc.compressedPos → (wc.nibbleIndex = 0 ∨ p ≠ wc.nibbleIndex) →
      wc2.nibbleIndex = 0 ∨ p ≠ wc2.nibbleIndex := by
    intro p hp hn
    rcases hitem.next with h0 | ⟨h1, -⟩ | ⟨h2, -⟩
    · exact .inl h0
    · rw [h1]
      exact hn
    · exact .inr (by omega)
  have hsettled : ∀ p, p < wc.compressedPos → (p < wc.indicPos ∨ wc.indicPos + 4 ≤ p) →
      (wc.nibbleIndex = 0 ∨ p ≠ wc.nibbleIndex) → out p = wc2.compressed p := by
    intro p hp hp' hn
    exact hf.settled p (by omega) (by rw [hpos]; exact hp') (hnext p hp hn)
  refine ⟨fun p hp hp' hn ↦ (hsettled p hp hp' hn).trans (hitem.frame p hp hn), fun hn ↦ ?_, ?_⟩
  · obtain ⟨hn1, hn2, -⟩ := hwc.nibble hn
    rw [← hitem.low hn]
    rcases hitem.next with h0 | ⟨h1, h1'⟩ | ⟨h2, -⟩
    · rw [hf.settled _ (by omega) (by rw [hpos]; exact hn2) (.inl h0)]
    · have := hf.nibble (by rw [h1]; exact hn)
      rw [h1] at this
      exact this
    · rw [hf.settled _ (by omega) (by rw [hpos]; exact hn2) (.inr (by omega))]
  · rw [← hpos, ← hbit, ← hindic]
    exact hf.bits

theorem Future.itemAt {wc wc2 : WriteContext} {data : List UInt8} {pos bit len : Nat}
    (hf : Future out wc2) (hwc : WcOk wc) (hitem : ItemWritten wc wc2)
    (hat : ItemAt data pos wc2.compressed wc.compressedPos wc.nibbleIndex bit len
      wc2.compressedPos wc2.nibbleIndex) :
    ItemAt data pos out wc.compressedPos wc.nibbleIndex bit len wc2.compressedPos wc2.nibbleIndex := by
  obtain ⟨-, -, -, hpos⟩ := hitem.header
  have hword := hwc.word
  have hlt := hitem.lt
  refine hat.congr (fun hn ↦ (hwc.nibble hn).1) ?_ ?_ ?_
  · intro p hp hp' hn
    exact hf.settled p hp' (.inr (by omega)) hn
  · intro hne hn
    exact hf.nibble (by omega)
  · intro hne hn
    obtain ⟨hn1, hn2, -⟩ := hwc.nibble hn
    exact hf.settled _ (by omega) (by rw [hpos]; exact hn2) (.inr (Ne.symm hne))

theorem Future.of_itemPush {wc wc2 wc' : WriteContext} {bit : Nat} (hwc : WcOk wc)
    (hitem : ItemWritten wc wc2) (hpush : pushIndicatorBit wc2 bit = some wc') (hbit : bit < 2)
    (hf : Future out wc') :
    Future out wc2 ∧ le32 out wc2.indicPos / 2 ^ (31 - wc2.indicBit) % 2 = bit := by
  obtain ⟨-, -, hbit2, hpos⟩ := hitem.header
  exact hf.of_push hpush hbit (by rw [hbit2]; exact hwc.indicBit_lt)
    (by rw [hpos]; exact hwc.word.trans hitem.lt.le) fun hn ↦ (hitem.pending hwc hn).2.1

theorem Future.of_turn {data : List UInt8} {cs cs' : CompressState}
    (h : compressTurn data cs = some cs') (hwc : WcOk cs.wc) (hf : Future out cs'.wc) :
    Future out cs.wc := by
  obtain ⟨wc2, bit, len, hitem, hpush, hat, -, -⟩ := compressTurn_eq_some h hwc.pending
  exact (hf.of_itemPush hwc hitem hpush hat.bit_lt).1.of_item hitem hwc

theorem CompressRun.future {data : List UInt8} {cs csF : CompressState}
    (h : CompressRun data cs csF) (hwc : WcOk cs.wc) (hf : Future out csF.wc) : Future out cs.wc := by
  induction h with
  | done => exact hf
  | step hturn _ ih => exact (ih (compressTurn_wcOk hturn hwc).1 hf).of_turn hturn hwc

end Future

structure Sync (data : List UInt8) (out : Nat → UInt8) (cs : CompressState)
    (st : DecompressState) : Prop where
  output : st.output = data.take cs.uncompressedPos
  nibble : st.nibbleIndex = cs.wc.nibbleIndex
  fresh : cs.wc.indicBit = 0 → st.indicatorBit = 0 ∧ st.inputIndex = cs.wc.indicPos
  inWord : cs.wc.indicBit ≠ 0 → st.indicatorBit = 32 - cs.wc.indicBit ∧
    st.inputIndex = cs.wc.compressedPos ∧ st.indicator = le32 out cs.wc.indicPos

section Step

variable {data : List UInt8} {out : Nat → UInt8} {inputSize maxOutputSize : Nat}

theorem decodeItem_returns {st : DecompressState} {pos bit len cp' nib' : Nat}
    (hat : ItemAt data pos out st.inputIndex st.nibbleIndex bit len cp' nib')
    (hbit : (st.indicator >>> (st.indicatorBit - 1)) % 2 = bit)
    (hout : st.output = data.take pos) (hin : cp' ≤ inputSize)
    (hroom : pos + len ≤ maxOutputSize) (hdata : pos + len ≤ data.length) :
    Returns (decodeItem out inputSize maxOutputSize st) (· = { st with
      output := data.take (pos + len), inputIndex := cp', nibbleIndex := nib',
      indicatorBit := st.indicatorBit - 1 }) := by
  have hlen : st.output.length = pos := by
    rw [hout, List.length_take]
    omega
  unfold decodeItem
  generalize hst1 : ({ st with indicatorBit := st.indicatorBit - 1 } : DecompressState) = st1
  have h1 : st1.output = st.output := by rw [← hst1]
  have h2 : st1.inputIndex = st.inputIndex := by rw [← hst1]
  have h3 : st1.nibbleIndex = st.nibbleIndex := by rw [← hst1]
  have h4 : (st1.indicator >>> st1.indicatorBit) % 2 = bit := by rw [← hst1]; exact hbit
  rw [← h2, ← h3] at hat
  cases hat with
  | literal hb =>
    rw [if_pos h4]
    refine (decodeLiteral_returns (by omega) (by rw [h1]; omega)).conseq fun r hr ↦ ?_
    rw [hr, ← hst1]
    dsimp only
    rw [h2] at hb
    rw [hout, hb, take_add_one_getD data 0 (by omega)]
    rfl
  | reference hlt hfar hlen3 hlen' hsame hmatch =>
    rename_i o
    rw [if_neg (by omega)]
    refine (decodeMatch_returns hmatch (by omega) hfar hlen3 hlen' (by rw [h1]; omega)
      (by rw [h1]; omega) hin).conseq fun r hr ↦ ?_
    rw [hr, ← hst1]
    dsimp only
    rw [hout, copyBack_take data 0 (by omega) (Nat.sub_le _ _) len hdata fun k hk ↦ ?_]
    rw [show pos - (pos - o) = o by omega]
    exact (hsame k hk).symm

theorem sync_push {cs' : CompressState} {wc2 : WriteContext} {bit : Nat} {st : DecompressState}
    (hpush : pushIndicatorBit wc2 bit = some cs'.wc) (hk : wc2.indicBit < 32)
    (hout : st.output = data.take cs'.uncompressedPos) (hnib : st.nibbleIndex = wc2.nibbleIndex)
    (hbit : st.indicatorBit = 31 - wc2.indicBit) (hin : st.inputIndex = wc2.compressedPos)
    (hind : st.indicator = le32 out wc2.indicPos) : Sync data out cs' st := by
  obtain ⟨-, hnib', -, hcases⟩ := pushIndicatorBit_eq_some hpush
  refine ⟨hout, by rw [hnib', hnib], ?_, ?_⟩
  · intro h0
    rcases hcases with ⟨-, hbit', -⟩ | ⟨hfull, -, hpos', -⟩
    · omega
    · exact ⟨by omega, by rw [hpos', hin]⟩
  · intro h0
    rcases hcases with ⟨-, hbit', hpos', hcp', -⟩ | ⟨-, hbit', -⟩
    · exact ⟨by omega, by rw [hcp', hin], by rw [hpos', hind]⟩
    · exact absurd hbit' h0

theorem decompressTurn_returns {cs cs' : CompressState} {st : DecompressState}
    (h : compressTurn data cs = some cs') (hwc : WcOk cs.wc) (hsync : Sync data out cs st)
    (hf : Future out cs'.wc) (hin : cs'.wc.compressedPos ≤ inputSize)
    (hM : data.length ≤ maxOutputSize) :
    Returns (decompressTurn out inputSize maxOutputSize st) fun r ↦
      r.2 = false ∧ Sync data out cs' r.1 ∧ st.inputIndex < r.1.inputIndex := by
  obtain ⟨wc2, bit, len, hitem, hpush, hat, hpos, hle⟩ := compressTurn_eq_some h hwc.pending
  obtain ⟨-, -, hbit2, hpos2⟩ := hitem.header
  have hlt := hitem.lt
  have hk := hwc.indicBit_lt
  have hcp2 := pushIndicatorBit_compressedPos_le hpush
  obtain ⟨hf2, hbitval⟩ := hf.of_itemPush hwc hitem hpush hat.bit_lt
  have hat' := hf2.itemAt hwc hitem hat
  have hitemStep : ∀ st1 : DecompressState, st1.output = data.take cs.uncompressedPos →
      st1.inputIndex = cs.wc.compressedPos → st1.nibbleIndex = cs.wc.nibbleIndex →
      st1.indicatorBit = 32 - cs.wc.indicBit → st1.indicator = le32 out cs.wc.indicPos →
      Returns (decodeItem out inputSize maxOutputSize st1) fun r ↦
        Sync data out cs' r ∧ cs.wc.compressedPos < r.inputIndex := by
    intro st1 h1 h2 h3 h4 h5
    have hread : (st1.indicator >>> (st1.indicatorBit - 1)) % 2 = bit := by
      rw [h4, h5, Nat.shiftRight_eq_div_pow, ← hpos2, ← hbit2,
        show 32 - wc2.indicBit - 1 = 31 - wc2.indicBit by omega]
      exact hbitval
    rw [← h2, ← h3] at hat'
    refine (decodeItem_returns hat' hread h1 (by omega) (by omega) hle).conseq fun r hr ↦ ?_
    subst hr
    refine ⟨sync_push hpush (by omega) (by rw [hpos]) rfl ?_ rfl ?_, hlt⟩
    · dsimp only
      omega
    · dsimp only
      rw [h5, hpos2]
  unfold decompressTurn
  by_cases hk0 : cs.wc.indicBit = 0
  · obtain ⟨hib, hii⟩ := hsync.fresh hk0
    have hword := hwc.fresh hk0
    rw [if_pos hib, checkBytes_eq_pure ((bytesLeft_iff (by decide)).2 (by omega))]
    simp only [pure_bind]
    refine Returns.bind (pullLeU32_returns _) fun v hv ↦ ?_
    rw [if_neg (by omega)]
    refine Returns.bind (hitemStep _ hsync.output (by dsimp only; omega) hsync.nibble
      (by dsimp only; omega) (by dsimp only; rw [hv, hii])) fun r hr ↦ Returns.pure ?_
    exact ⟨rfl, hr.1, by dsimp only; omega⟩
  · obtain ⟨hib, hii, hind⟩ := hsync.inWord hk0
    rw [if_neg (by omega)]
    refine Returns.bind (hitemStep _ hsync.output hii hsync.nibble hib hind) fun r hr ↦
      Returns.pure ?_
    exact ⟨rfl, hr.1, by dsimp only; omega⟩

theorem decompressTurn_last {st : DecompressState} (hib : st.indicatorBit = 0)
    (hin : st.inputIndex + 4 = inputSize) :
    Returns (decompressTurn out inputSize maxOutputSize st) fun r ↦
      r.2 = true ∧ r.1.output = st.output := by
  unfold decompressTurn
  rw [if_pos hib, checkBytes_eq_pure ((bytesLeft_iff (by decide)).2 (by omega))]
  simp only [pure_bind]
  refine Returns.bind (pullLeU32_returns _) fun v _ ↦ ?_
  rw [if_pos hin]
  exact Returns.pure ⟨rfl, rfl⟩

theorem decompressLoop_returns {cs csF : CompressState} (hrun : CompressRun data cs csF)
    (hwc : WcOk cs.wc) (hf : Future out csF.wc) (hn : inputSize = csF.wc.compressedPos)
    (hM : data.length ≤ maxOutputSize) (hL : cs.uncompressedPos ≤ data.length) :
    ∀ {fuel : Nat} {st : DecompressState}, Sync data out cs st →
      (cs.wc.indicBit = 0 ∨ st.inputIndex < inputSize) → inputSize - st.inputIndex < fuel →
      Returns (decompressLoop out inputSize maxOutputSize fuel st)
        (· = data.take csF.uncompressedPos) := by
  induction hrun with
  | done cs =>
    intro fuel st hsync hgo hfuel
    have hk : cs.wc.indicBit = 0 := by
      by_contra hk
      have := (hsync.inWord hk).2.1
      omega
    obtain ⟨hib, hii⟩ := hsync.fresh hk
    have hword := hwc.fresh hk
    obtain ⟨fuel, rfl⟩ : ∃ f, fuel = f + 1 := ⟨fuel - 1, by omega⟩
    rw [decompressLoop]
    refine Returns.bind (decompressTurn_last hib (by omega)) fun r hr ↦ ?_
    obtain ⟨st', stop⟩ := r
    obtain ⟨rfl, hout⟩ := hr
    exact Returns.pure (hout.trans hsync.output)
  | step hturn hrest ih =>
    rename_i cs cs1 csF
    intro fuel st hsync hgo hfuel
    obtain ⟨hwc1, -, -, hL1⟩ := compressTurn_wcOk hturn hwc
    have hcp1 : cs1.wc.compressedPos ≤ inputSize := by
      rcases hrest.eq_or_lt hwc1 with heq | hlt
      · rw [hn, heq]
      · omega
    obtain ⟨fuel, rfl⟩ : ∃ f, fuel = f + 1 := ⟨fuel - 1, by omega⟩
    rw [decompressLoop]
    refine Returns.bind (decompressTurn_returns hturn hwc hsync (CompressRun.future hrest hwc1 hf) hcp1 hM)
      fun r hr ↦ ?_
    obtain ⟨st', stop⟩ := r
    obtain ⟨rfl, hsync', hprog⟩ := hr
    dsimp only at hprog ⊢
    rw [if_neg Bool.false_ne_true]
    split
    · rename_i hgo'
      exact ih hwc1 hf hn hL1 hsync' (.inr hgo'.2) (by omega)
    · rename_i hstop
      refine Returns.pure ?_
      rw [hsync'.output]
      rcases hrest.eq_or_lt hwc1 with heq | hlt
      · rw [heq]
      · have hin : st'.inputIndex < inputSize := by
          by_cases hk1 : cs1.wc.indicBit = 0
          · rw [(hsync'.fresh hk1).2]
            have := hwc1.fresh hk1
            omega
          · rw [(hsync'.inWord hk1).2.1]
            omega
        have hfull : maxOutputSize ≤ st'.output.length := by
          by_contra h
          exact hstop ⟨by omega, hin⟩
        rw [hsync'.output, List.length_take] at hfull
        have := (hrest.pos_le hwc1).1
        have := (hrest.pos_le hwc1).2 hL1
        congr 1
        omega

end Step

section RoundTrip

variable {data : List UInt8} {compressed : Nat → UInt8} {maxCompressedSize : Nat}

theorem lzxpressDecompress_take {n : Nat} {out : Nat → UInt8} {maxOutputSize : Nat}
    (h : lzxpressCompress data compressed maxCompressedSize = some (n, out))
    (hM : data.length ≤ maxOutputSize) :
    ∃ k, k ≤ data.length ∧ n ≤ 4 + k + 4 * (k / 32) ∧ (k < data.length → maxCompressedSize ≤ n) ∧
      Returns (lzxpressDecompress out n maxOutputSize) (· = data.take k) := by
  by_cases h0 : data.length = 0
  · unfold lzxpressCompress at h
    rw [if_pos h0] at h
    cases h
    refine ⟨0, Nat.zero_le _, Nat.zero_le _, fun h ↦ absurd h (by omega), ?_⟩
    unfold lzxpressDecompress
    rw [if_pos rfl]
    exact Returns.pure List.take_zero.symm
  · obtain ⟨-, csF, hrun, hstop, rfl, rfl⟩ := lzxpressCompress_run h h0
    have hwc0 := wcOk_start compressed maxCompressedSize
    have hwcF := hrun.wcOk hwc0
    obtain ⟨k, hk, -, hcp⟩ := hrun.room hwc0 ⟨0, Nat.le_refl 0, rfl, Nat.le_refl 4⟩
    have hLF := (hrun.pos_le hwc0).2 (Nat.zero_le _)
    have hdiv : k / 32 ≤ csF.uncompressedPos / 32 := Nat.div_le_div_right hk
    refine ⟨csF.uncompressedPos, hLF, by omega, fun hlt ↦ ?_, ?_⟩
    · by_contra hroom
      exact hstop ⟨hlt, by omega⟩
    · unfold lzxpressDecompress
      rw [if_neg (by have := hwcF.word; omega)]
      exact decompressLoop_returns hrun hwc0 (future_final hwcF) rfl hM (Nat.zero_le _)
        ⟨List.take_zero.symm, rfl, fun _ ↦ ⟨rfl, rfl⟩, fun h ↦ absurd rfl h⟩ (.inl rfl)
        (by omega)

theorem lzxpressDecompress_lzxpressCompress {maxOutputSize : Nat}
    (hroom : 4 + data.length + 4 * (data.length / 32) ≤ maxCompressedSize)
    (hM : data.length ≤ maxOutputSize) :
    ∃ n out, lzxpressCompress data compressed maxCompressedSize = some (n, out) ∧
      (runLogged (lzxpressDecompress out n maxOutputSize)).1 = .ok data := by
  obtain ⟨⟨n, out⟩, hc⟩ := Option.isSome_iff_exists.1 (lzxpressCompress_isSome hroom)
  obtain ⟨k, hk, hn, hfull, hret⟩ := lzxpressDecompress_take hc hM
  have hkL : k = data.length := by
    by_contra hne
    have hmax := hfull (by omega)
    have : k / 32 ≤ data.length / 32 := Nat.div_le_div_right hk
    omega
  obtain ⟨v, hv, rfl⟩ := hret.runLogged
  exact ⟨n, out, hc, by rw [hv, hkL, List.take_length]⟩

theorem lzxpressDecompress_lzxpressCompress_abcabc :
    4 + [0x61, 0x62, 0x63, 0x61, 0x62, 0x63].length +
        4 * ([0x61, 0x62, 0x63, 0x61, 0x62, 0x63].length / 32) ≤ 10 ∧
      [0x61, 0x62, 0x63, 0x61, 0x62, 0x63].length ≤ 6 ∧
      ∃ n out, lzxpressCompress [0x61, 0x62, 0x63, 0x61, 0x62, 0x63] (fun _ ↦ 0) 10 = some (n, out) ∧
        (runLogged (lzxpressDecompress out n 6)).1 = .ok [0x61, 0x62, 0x63, 0x61, 0x62, 0x63] :=
  ⟨by decide, by decide, lzxpressDecompress_lzxpressCompress (by decide) (by decide)⟩

theorem lzxpressDecompress_prefix {n : Nat} {out : Nat → UInt8} {maxOutputSize : Nat}
    (h : lzxpressCompress data compressed maxCompressedSize = some (n, out))
    (hM : data.length ≤ maxOutputSize) :
    ∃ k, k ≤ data.length ∧ (k < data.length → maxCompressedSize ≤ n) ∧
      (runLogged (lzxpressDecompress out n maxOutputSize)).1 = .ok (data.take k) := by
  obtain ⟨k, hk, -, hfull, hret⟩ := lzxpressDecompress_take h hM
  obtain ⟨v, hv, rfl⟩ := hret.runLogged
  exact ⟨k, hk, hfull, hv⟩

theorem lzxpressDecompress_prefix_ab :
    ∃ n out, lzxpressCompress [0x61, 0x62] (fun _ ↦ 0) 5 = some (n, out) ∧
      [0x61, 0x62].length ≤ 2 ∧
      ∃ k, k ≤ [0x61, 0x62].length ∧ (k < [0x61, 0x62].length → 5 ≤ n) ∧
        (runLogged (lzxpressDecompress out n 2)).1 = .ok ([0x61, 0x62].take k) := by
  obtain ⟨⟨n, out⟩, h⟩ := Option.isSome_iff_exists.1
    (rfl : (lzxpressCompress [0x61, 0x62] (fun _ ↦ 0) 5).isSome = true)
  exact ⟨n, out, h, by decide, lzxpressDecompress_prefix h (by decide)⟩

end RoundTrip

end Samba.Compression.LzxpressRoundTrip
