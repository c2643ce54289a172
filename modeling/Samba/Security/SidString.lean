import Samba.Lib.Digits

namespace Samba.Security.SidString

open Samba.Lib.CString Samba.Lib.Digits

/-- `struct dom_sid`; `num_auths` is an `int8` of range `0..15`. -/
structure DomSid where
  sidRevNum : UInt8
  numAuths : Fin 16
  idAuth : Vector UInt8 6
  subAuths : Vector UInt32 15
  deriving DecidableEq, Repr

def DomSid.zero : DomSid := ⟨0, 0, Vector.replicate 6 0, Vector.replicate 15 0⟩

def sidAppendRid (sid : DomSid) (rid : UInt32) : Option DomSid :=
  if h : sid.numAuths.val < 15 then
    some { sid with
      subAuths := sid.subAuths.set sid.numAuths.val rid h
      numAuths := ⟨sid.numAuths.val + 1, by omega⟩ }
  else none

/-- `NUMERIC_CMP`. -/
def numericCmp (a b : Nat) : Int := if a < b then -1 else if a > b then 1 else 0

def firstDifference : List (Nat × Nat) → Int
  | [] => 0
  | (a, b) :: rest => if a ≠ b then numericCmp a b else firstDifference rest

def domSidCompareAuth (sid1 sid2 : DomSid) : Int :=
  if sid1.sidRevNum ≠ sid2.sidRevNum then numericCmp sid1.sidRevNum.toNat sid2.sidRevNum.toNat
  else
    firstDifference ((sid1.idAuth.toList.map UInt8.toNat).zip (sid2.idAuth.toList.map UInt8.toNat))

def domSidCompare (sid1 sid2 : DomSid) : Int :=
  if sid1.numAuths ≠ sid2.numAuths then numericCmp sid1.numAuths sid2.numAuths
  else
    let r := firstDifference
      (((sid1.subAuths.toList.map UInt32.toNat).zip
        (sid2.subAuths.toList.map UInt32.toNat)).take sid1.numAuths).reverse
    if r ≠ 0 then r else domSidCompareAuth sid1 sid2

def domSidEqual (sid1 sid2 : DomSid) : Bool := domSidCompare sid1 sid2 == 0

def idAuthValue (sid : DomSid) : Nat :=
  sid.idAuth[5].toNat + (sid.idAuth[4].toNat <<< 8) + (sid.idAuth[3].toNat <<< 16) +
    (sid.idAuth[2].toNat <<< 24) + (sid.idAuth[1].toNat <<< 32) + (sid.idAuth[0].toNat <<< 40)

/-- `"%"PRIu64` below `UINT32_MAX`, `"0x%"PRIx64` from it on. -/
def idAuthText (ia : Nat) : List UInt8 :=
  if ia ≥ 0xffffffff then [0x30, 0x78] ++ formatHex ia else formatUnsigned ia

def subAuthsText (subAuths : List UInt32) : List UInt8 :=
  subAuths.flatMap fun a ↦ 0x2d :: formatUnsigned a.toNat

def domSidStringBuf (sid : DomSid) : List UInt8 :=
  [0x53, 0x2d] ++ formatUnsigned sid.sidRevNum.toNat ++ [0x2d] ++ idAuthText (idAuthValue sid) ++
    subAuthsText (sid.subAuths.toList.take sid.numAuths)

/-- `DOM_SID_STR_BUFLEN`. -/
def domSidStrBufLen : Nat := 15 * 11 + 25

def invalidSid : List UInt8 :=
  [0x28, 0x49, 0x4e, 0x56, 0x41, 0x4c, 0x49, 0x44, 0x20, 0x53, 0x49, 0x44, 0x29]

def domSidStrBuf (sid : DomSid) : List UInt8 :=
  let s := domSidStringBuf sid
  if s.length ≥ domSidStrBufLen then invalidSid else s

/-- `AUTHORITY_MASK`. -/
def authorityMask : UInt64 := ~~~0xffffffffffff

def leadingZeros : List UInt8 → Nat
  | 0x30 :: c :: rest => if isDigit c then leadingZeros (c :: rest) + 1 else 0
  | _ => 0

def authorityBytes (conv : UInt64) : Vector UInt8 6 :=
  #v[((conv &&& 0xff0000000000) >>> 40).toUInt8, ((conv &&& 0x00ff00000000) >>> 32).toUInt8,
    ((conv &&& 0x0000ff000000) >>> 24).toUInt8, ((conv &&& 0x000000ff0000) >>> 16).toUInt8,
    ((conv &&& 0x00000000ff00) >>> 8).toUInt8, (conv &&& 0x0000000000ff).toUInt8]

def subAuthLoop (sidstr : List UInt8) : Nat → Nat → DomSid → Option (DomSid × Nat)
  | 0, _, _ => none
  | fuel + 1, q, sid =>
    if !isDigit (byteAt sidstr q) then none
    else
      let q := q + leadingZeros (sidstr.drop q)
      let (conv, len, error) := smbStrtoull (sidstr.drop q)
      if conv > 0xffffffff ∨ error ∨ len > 12 then none
      else
        match sidAppendRid sid conv.toUInt32 with
        | none => none
        | some sid =>
          let q := q + len
          if byteAt sidstr q ≠ 0x2d then some (sid, q)
          else subAuthLoop sidstr fuel (q + 1) sid

def parseIdAuth (sidstr : List UInt8) (q : Nat) (sid : DomSid) : Option (DomSid × Nat) :=
  if !isDigit (byteAt sidstr q) then none
  else
    let q := q + leadingZeros (sidstr.drop q)
    let (conv, elen, error) := smbStrtoull (sidstr.drop q)
    if conv &&& authorityMask ≠ 0 ∨ error then none
    else if conv ≥ (1 : UInt64) <<< 48 ∨ elen > 15 then none
    else
      let sid := { sid with idAuth := authorityBytes conv }
      let q := q + elen
      if byteAt sidstr q ≠ 0x2d then some (sid, q)
      else subAuthLoop sidstr 16 (q + 1) sid

/-- `dom_sid_parse_endp`: the SID and the offset `endp` is left at. -/
def domSidParseEndp (sidstr : List UInt8) : Option (DomSid × Nat) :=
  if (byteAt sidstr 0 ≠ 0x53 ∧ byteAt sidstr 0 ≠ 0x73) ∨ byteAt sidstr 1 ≠ 0x2d then none
  else if !isDigit (byteAt sidstr 2) then none
  else
    let (conv, qlen, error) := smbStrtoul 10 (sidstr.drop 2)
    if error ∨ byteAt sidstr (2 + qlen) ≠ 0x2d ∨ conv > 0xff ∨ qlen > 4 then none
    else parseIdAuth sidstr (2 + qlen + 1) { DomSid.zero with sidRevNum := conv.toUInt8 }

theorem and_byte_div (x s : Nat) : (x &&& 255 * 2 ^ s) / 2 ^ s = x / 2 ^ s % 256 := by
  apply Nat.eq_of_testBit_eq
  intro i
  rw [← Nat.shiftRight_eq_div_pow, ← Nat.shiftRight_eq_div_pow, Nat.testBit_shiftRight,
    Nat.testBit_and, show (256 : Nat) = 2 ^ 8 by rfl, Nat.testBit_mod_two_pow,
    Nat.testBit_shiftRight, ← Nat.shiftLeft_eq, Nat.testBit_shiftLeft]
  by_cases hi : i < 8
  · have : (255 : Nat).testBit i = true := by interval_cases i <;> decide
    simp [hi, this]
  · have : (255 : Nat).testBit i = false := by
      apply Nat.testBit_eq_false_of_lt
      exact lt_of_lt_of_le (by decide) (Nat.pow_le_pow_right (by decide) (Nat.not_lt.1 hi))
    simp [hi, this]

theorem toNat_authorityBytes (conv : UInt64) :
    (authorityBytes conv).toList.map UInt8.toNat =
      [conv.toNat / 2 ^ 40 % 256, conv.toNat / 2 ^ 32 % 256, conv.toNat / 2 ^ 24 % 256,
        conv.toNat / 2 ^ 16 % 256, conv.toNat / 2 ^ 8 % 256, conv.toNat % 256] := by
  have h40 := and_byte_div conv.toNat 40
  have h32 := and_byte_div conv.toNat 32
  have h24 := and_byte_div conv.toNat 24
  have h16 := and_byte_div conv.toNat 16
  have h8 := and_byte_div conv.toNat 8
  have h0 := and_byte_div conv.toNat 0
  norm_num at h40 h32 h24 h16 h8 h0
  simp only [authorityBytes, Vector.toList_mk, List.map_cons, List.map_nil, UInt64.toNat_toUInt8,
    UInt64.toNat_shiftRight, UInt64.toNat_and, UInt64.reduceToNat, Nat.reduceMod,
    Nat.shiftRight_eq_div_pow]
  norm_num
  omega

theorem toNat_getElem_authorityBytes (conv : UInt64) {i : Nat} (hi : i < 6) :
    (authorityBytes conv)[i].toNat = conv.toNat / 2 ^ (8 * (5 - i)) % 256 := by
  have h := congrArg (fun l ↦ l[i]?) (toNat_authorityBytes conv)
  simp only [List.getElem?_map, Vector.getElem?_toList, Vector.getElem?_eq_getElem hi,
    Option.map_some] at h
  interval_cases i <;> simpa using h

-- equation lemmas made once, before the proofs below use them in parallel
attribute [local simp] subAuthsText.eq_1 domSidStringBuf.eq_1 subAuthLoop.eq_1 parseIdAuth.eq_1
  domSidParseEndp.eq_1
attribute [-simp] subAuthsText.eq_1 domSidStringBuf.eq_1 subAuthLoop.eq_1 parseIdAuth.eq_1
  domSidParseEndp.eq_1

theorem idAuthValue_authorityBytes (sid : DomSid) {conv : UInt64} (h : conv.toNat < 2 ^ 48) :
    idAuthValue { sid with idAuth := authorityBytes conv } = conv.toNat := by
  have h0 := toNat_getElem_authorityBytes conv (show 0 < 6 by decide)
  have h1 := toNat_getElem_authorityBytes conv (show 1 < 6 by decide)
  have h2 := toNat_getElem_authorityBytes conv (show 2 < 6 by decide)
  have h3 := toNat_getElem_authorityBytes conv (show 3 < 6 by decide)
  have h4 := toNat_getElem_authorityBytes conv (show 4 < 6 by decide)
  have h5 := toNat_getElem_authorityBytes conv (show 5 < 6 by decide)
  simp only [Nat.reduceSub, Nat.reduceMul, Nat.reducePow, Nat.div_one] at h0 h1 h2 h3 h4 h5
  unfold idAuthValue
  simp only [Nat.shiftLeft_eq, Nat.reducePow]
  rw [h0, h1, h2, h3, h4, h5]
  omega

theorem idAuthValue_lt (sid : DomSid) : idAuthValue sid < 2 ^ 48 := by
  have h0 : sid.idAuth[0].toNat < 256 := UInt8.toNat_lt _
  have h1 : sid.idAuth[1].toNat < 256 := UInt8.toNat_lt _
  have h2 : sid.idAuth[2].toNat < 256 := UInt8.toNat_lt _
  have h3 : sid.idAuth[3].toNat < 256 := UInt8.toNat_lt _
  have h4 : sid.idAuth[4].toNat < 256 := UInt8.toNat_lt _
  have h5 : sid.idAuth[5].toNat < 256 := UInt8.toNat_lt _
  unfold idAuthValue
  simp only [Nat.shiftLeft_eq]
  omega

theorem authorityBytes_idAuthValue (sid : DomSid) :
    authorityBytes (UInt64.ofNat (idAuthValue sid)) = sid.idAuth := by
  have b0 : sid.idAuth[0].toNat < 256 := UInt8.toNat_lt _
  have b1 : sid.idAuth[1].toNat < 256 := UInt8.toNat_lt _
  have b2 : sid.idAuth[2].toNat < 256 := UInt8.toNat_lt _
  have b3 : sid.idAuth[3].toNat < 256 := UInt8.toNat_lt _
  have b4 : sid.idAuth[4].toNat < 256 := UInt8.toNat_lt _
  have b5 : sid.idAuth[5].toNat < 256 := UInt8.toNat_lt _
  have hconv : (UInt64.ofNat (idAuthValue sid)).toNat = idAuthValue sid :=
    UInt64.toNat_ofNat_of_lt' (by have := idAuthValue_lt sid; rw [UInt64.size]; omega)
  apply Vector.ext
  intro i hi
  apply UInt8.toNat_inj.1
  rw [toNat_getElem_authorityBytes _ hi, hconv]
  unfold idAuthValue
  simp only [Nat.shiftLeft_eq, Nat.reducePow]
  interval_cases i <;> simp only [Nat.reduceSub, Nat.reduceMul, Nat.reducePow] <;> omega

theorem leadingZeros_of_ne {c : UInt8} (hc : c ≠ 0x30) (l : List UInt8) :
    leadingZeros (c :: l) = 0 := by
  unfold leadingZeros
  split
  · rename_i h
    injection h with h
    exact absurd h hc
  · rfl

theorem leadingZeros_formatUnsigned (n : Nat) {rest : List UInt8}
    (hrest : ∀ c ∈ rest.head?, c = 0x2d) : leadingZeros (formatUnsigned n ++ rest) = 0 := by
  rcases Nat.eq_zero_or_pos n with rfl | hpos
  · rw [formatUnsigned_eq, formatIn_zero (by decide)]
    cases rest with
    | nil => rfl
    | cons c r =>
      rw [hrest c rfl]
      rfl
  · obtain ⟨d, t, hdt, hd0, hd⟩ := head_formatIn (Or.inl rfl) hpos
    rw [formatUnsigned_eq, hdt, List.cons_append]
    exact leadingZeros_of_ne (digitByte_ne_zero (Or.inl rfl) hd hd0) _

theorem smbStrtoull_idAuthText {ia : Nat} (hia : ia < 2 ^ 48) {rest : List UInt8}
    (hrest : ∀ c ∈ rest.head?, c = 0x2d) :
    smbStrtoull (idAuthText ia ++ rest) = (UInt64.ofNat ia, (idAuthText ia).length, false) := by
  unfold idAuthText
  split_ifs
  · rw [smbStrtoull_formatHex (by omega) hrest]
    simp
  · exact smbStrtoull_formatUnsigned (by omega) hrest

theorem leadingZeros_idAuthText (ia : Nat) {rest : List UInt8}
    (hrest : ∀ c ∈ rest.head?, c = 0x2d) : leadingZeros (idAuthText ia ++ rest) = 0 := by
  unfold idAuthText
  split_ifs
  · rfl
  · exact leadingZeros_formatUnsigned ia hrest

theorem length_formatUnsigned_le {n k : Nat} (hk : 0 < k) (h : n < 10 ^ k) :
    (formatUnsigned n).length ≤ k :=
  length_formatIn_le (by decide) hk h

theorem length_idAuthText_le {ia : Nat} (hia : ia < 2 ^ 48) : (idAuthText ia).length ≤ 14 := by
  unfold idAuthText
  split_ifs
  · have := length_formatIn_le (show 1 < 16 by decide) (show 0 < 12 by decide)
      (show ia < 16 ^ 12 by omega)
    simp only [List.length_append, List.length_cons, List.length_nil, formatHex_eq]
    omega
  · have := length_formatUnsigned_le (show 0 < 10 by decide) (show ia < 10 ^ 10 by omega)
    omega

theorem sidAppendRid_eq_some {sid sid' : DomSid} {rid : UInt32}
    (h : sidAppendRid sid rid = some sid') :
    sid'.sidRevNum = sid.sidRevNum ∧ sid'.idAuth = sid.idAuth ∧
      sid'.numAuths.val = sid.numAuths.val + 1 ∧
      sid'.subAuths.toList.take sid'.numAuths = sid.subAuths.toList.take sid.numAuths ++ [rid] := by
  unfold sidAppendRid at h
  split at h
  · rename_i hlt
    cases h
    refine ⟨rfl, rfl, rfl, ?_⟩
    have hlen : sid.numAuths.val < sid.subAuths.toList.length := by simpa using hlt
    simp only [Vector.toList_set, List.take_add_one, List.take_set_of_le (Nat.le_refl _),
      List.getElem?_set_self hlen, Option.toList_some]
  · cases h

theorem sidAppendRid_isSome {sid : DomSid} (h : sid.numAuths.val < 15) (rid : UInt32) :
    ∃ sid', sidAppendRid sid rid = some sid' := by
  unfold sidAppendRid
  rw [dif_pos h]
  exact ⟨_, rfl⟩

theorem head_subAuthsText (l : List UInt32) : ∀ c ∈ (subAuthsText l).head?, c = 0x2d := by
  cases l with
  | nil => simp [subAuthsText]
  | cons a l => simp [subAuthsText]

theorem byteAt_subAuthsText_of_ne_nil {l : List UInt32} (hl : l ≠ []) :
    byteAt (subAuthsText l) 0 = 0x2d := by
  cases l with
  | nil => exact absurd rfl hl
  | cons a l => rfl

theorem toUInt32_ofNat_toNat (a : UInt32) : (UInt64.ofNat a.toNat).toUInt32 = a := by
  apply UInt32.toNat_inj.1
  rw [UInt64.toNat_toUInt32, UInt64.toNat_ofNat_of_lt' (by have := a.toNat_lt; rw [UInt64.size]; omega)]
  exact Nat.mod_eq_of_lt a.toNat_lt

theorem toUInt8_ofNat_toNat (a : UInt8) : (UInt64.ofNat a.toNat).toUInt8 = a := by
  apply UInt8.toNat_inj.1
  rw [UInt64.toNat_toUInt8, UInt64.toNat_ofNat_of_lt' (by have := a.toNat_lt; rw [UInt64.size]; omega)]
  exact Nat.mod_eq_of_lt a.toNat_lt

theorem isDigit_formatUnsigned_head (n : Nat) (rest : List UInt8) :
    isDigit (byteAt (formatUnsigned n ++ rest) 0) = true := by
  obtain ⟨c, t, hct⟩ := List.exists_cons_of_ne_nil (formatIn_ne_nil n : formatIn 10 n ≠ [])
  rw [formatUnsigned_eq, hct, ← isDigitOf_ten_eq]
  exact isDigitOf_of_mem_formatIn (Or.inl rfl) n c (by rw [hct]; exact List.mem_cons_self)

theorem length_formatUInt32_le (a : UInt32) : (formatUnsigned a.toNat).length ≤ 10 :=
  length_formatUnsigned_le (show 0 < 10 by decide) (by have := a.toNat_lt; omega)

theorem subAuthLoop_step {s : List UInt8} {f q z len : Nat} {sid sid1 : DomSid} {conv : UInt64}
    (hd : isDigit (byteAt s q) = true) (hz : leadingZeros (s.drop q) = z)
    (hconv : smbStrtoull (s.drop (q + z)) = (conv, len, false)) (hle : conv ≤ 0xffffffff)
    (hlen : len ≤ 12) (happ : sidAppendRid sid conv.toUInt32 = some sid1) :
    subAuthLoop s (f + 1) q sid =
      if byteAt s (q + z + len) ≠ 0x2d then some (sid1, q + z + len)
      else subAuthLoop s f (q + z + len + 1) sid1 := by
  have hbad : ¬ (conv > 0xffffffff ∨ False ∨ len > 12) := by
    simp only [false_or, not_or]
    exact ⟨UInt64.not_lt.2 hle, Nat.not_lt.2 hlen⟩
  rw [subAuthLoop]
  simp only [hd, Bool.not_true, Bool.false_eq_true, ↓reduceIte, hz, hconv, happ]
  rw [if_neg hbad]

theorem subAuthLoop_subAuthsText (l : List UInt32) (hl : l ≠ []) (pre : List UInt8) (sid : DomSid)
    (fuel : Nat) (hfuel : l.length ≤ fuel) (hnum : sid.numAuths.val + l.length ≤ 15) :
    ∃ sid', subAuthLoop (pre ++ subAuthsText l) fuel (pre.length + 1) sid =
        some (sid', (pre ++ subAuthsText l).length) ∧
      sid'.sidRevNum = sid.sidRevNum ∧ sid'.idAuth = sid.idAuth ∧
      sid'.numAuths.val = sid.numAuths.val + l.length ∧
      sid'.subAuths.toList.take sid'.numAuths = sid.subAuths.toList.take sid.numAuths ++ l := by
  induction l generalizing pre sid fuel with
  | nil => exact absurd rfl hl
  | cons a l ih =>
    obtain ⟨f, rfl⟩ : ∃ f, fuel = f + 1 := ⟨fuel - 1, by simp at hfuel; omega⟩
    obtain ⟨sid1, happ⟩ := sidAppendRid_isSome (show sid.numAuths.val < 15 by simp at hnum; omega)
      a
    obtain ⟨hrev1, hauth1, hnum1, hsub1⟩ := sidAppendRid_eq_some happ
    set digits := formatUnsigned a.toNat
    have htext : pre ++ subAuthsText (a :: l) = pre ++ 0x2d :: (digits ++ subAuthsText l) := by
      simp [subAuthsText, digits]
    have hdrop : (pre ++ subAuthsText (a :: l)).drop (pre.length + 1) = digits ++ subAuthsText l := by
      rw [htext, show pre ++ 0x2d :: (digits ++ subAuthsText l) =
        (pre ++ [0x2d]) ++ (digits ++ subAuthsText l) by simp]
      exact List.drop_left' (by simp)
    have hd : isDigit (byteAt (pre ++ subAuthsText (a :: l)) (pre.length + 1)) = true := by
      rw [byteAt_eq_byteAt_drop, hdrop]
      exact isDigit_formatUnsigned_head _ _
    have hz : leadingZeros ((pre ++ subAuthsText (a :: l)).drop (pre.length + 1)) = 0 := by
      rw [hdrop]
      exact leadingZeros_formatUnsigned _ (head_subAuthsText l)
    have hconv : smbStrtoull ((pre ++ subAuthsText (a :: l)).drop (pre.length + 1 + 0)) =
        (UInt64.ofNat a.toNat, digits.length, false) := by
      rw [Nat.add_zero, hdrop]
      exact smbStrtoull_formatUnsigned (by have := a.toNat_lt; omega) (head_subAuthsText l)
    have hle : UInt64.ofNat a.toNat ≤ 0xffffffff := by
      rw [UInt64.le_iff_toNat_le, UInt64.toNat_ofNat_of_lt' (by have := a.toNat_lt; rw [UInt64.size]; omega)]
      have := a.toNat_lt
      simp
      omega
    rw [← toUInt32_ofNat_toNat a] at happ
    rw [subAuthLoop_step hd hz hconv hle ((length_formatUInt32_le a).trans (by decide)) happ]
    have hpre : pre ++ subAuthsText (a :: l) = (pre ++ 0x2d :: digits) ++ subAuthsText l := by
      rw [htext]
      simp
    have hq : pre.length + 1 + 0 + digits.length = (pre ++ 0x2d :: digits).length := by
      simp
      omega
    rw [hpre, hq, byteAt_append_length]
    by_cases hl' : l = []
    · subst hl'
      refine ⟨sid1, ?_, hrev1, hauth1, hnum1, ?_⟩
      · simp [subAuthsText, byteAt]
      · simpa using hsub1
    · rw [byteAt_subAuthsText_of_ne_nil hl', if_neg (not_not.2 rfl)]
      obtain ⟨sid', hrun, hrev, hauth, hnum', hsub⟩ :=
        ih hl' (pre ++ 0x2d :: digits) sid1 f (by simp at hfuel; omega) (by simp at hnum; omega)
      refine ⟨sid', hrun, hrev.trans hrev1, hauth.trans hauth1, ?_, ?_⟩
      · rw [hnum', hnum1, List.length_cons]
        omega
      · rw [hsub, hsub1, List.append_assoc, List.singleton_append]

theorem firstDifference_eq_zero {l : List (Nat × Nat)} (h : ∀ p ∈ l, p.1 = p.2) :
    firstDifference l = 0 := by
  induction l with
  | nil => rfl
  | cons p l ih =>
    obtain ⟨a, b⟩ := p
    have hab : a = b := h (a, b) List.mem_cons_self
    rw [firstDifference, if_neg (not_not.2 hab)]
    exact ih fun q hq ↦ h q (List.mem_cons_of_mem _ hq)

theorem fst_eq_snd_of_mem_zip_self {l : List Nat} {p : Nat × Nat} (h : p ∈ l.zip l) : p.1 = p.2 := by
  induction l with
  | nil => simp at h
  | cons a l ih =>
    rw [List.zip_cons_cons, List.mem_cons] at h
    rcases h with rfl | h
    · rfl
    · exact ih h

theorem domSidCompare_eq_zero_of {sid1 sid2 : DomSid} (hrev : sid1.sidRevNum = sid2.sidRevNum)
    (hauth : sid1.idAuth = sid2.idAuth) (hnum : sid1.numAuths = sid2.numAuths)
    (hsub : sid1.subAuths.toList.take sid1.numAuths = sid2.subAuths.toList.take sid2.numAuths) :
    domSidCompare sid1 sid2 = 0 := by
  have hpairs : ((sid1.subAuths.toList.map UInt32.toNat).zip
      (sid2.subAuths.toList.map UInt32.toNat)).take sid1.numAuths =
      ((sid1.subAuths.toList.take sid1.numAuths).map UInt32.toNat).zip
        ((sid1.subAuths.toList.take sid1.numAuths).map UInt32.toNat) := by
    rw [List.zip_eq_zipWith, List.take_zipWith, ← List.map_take, ← List.map_take, hsub, hnum,
      ← List.zip_eq_zipWith]
  have hr : firstDifference (((sid1.subAuths.toList.map UInt32.toNat).zip
      (sid2.subAuths.toList.map UInt32.toNat)).take sid1.numAuths).reverse = 0 := by
    rw [hpairs]
    exact firstDifference_eq_zero fun p hp ↦ fst_eq_snd_of_mem_zip_self (List.mem_reverse.1 hp)
  have hauthCmp : domSidCompareAuth sid1 sid2 = 0 := by
    rw [domSidCompareAuth, if_neg (not_not.2 hrev), hauth]
    exact firstDifference_eq_zero fun p hp ↦ fst_eq_snd_of_mem_zip_self hp
  rw [domSidCompare, if_neg (not_not.2 hnum)]
  simp only [hr, ne_eq, not_true_eq_false, ↓reduceIte, hauthCmp]

theorem toNat_authorityMask : authorityMask.toNat = (2 ^ 16 - 1) <<< 48 := by decide

theorem and_authorityMask_of_lt {conv : UInt64} (h : conv.toNat < 2 ^ 48) :
    conv &&& authorityMask = 0 := by
  apply UInt64.toNat_inj.1
  rw [UInt64.toNat_and, toNat_authorityMask, UInt64.toNat_zero]
  apply Nat.eq_of_testBit_eq
  intro i
  rw [Nat.testBit_and, Nat.testBit_shiftLeft, Nat.zero_testBit]
  by_cases hi : 48 ≤ i
  · rw [Nat.testBit_eq_false_of_lt (lt_of_lt_of_le h (Nat.pow_le_pow_right (by decide) hi))]
    rfl
  · simp [hi]

theorem toNat_one_shiftLeft_48 : ((1 : UInt64) <<< 48).toNat = 2 ^ 48 := by decide

theorem isDigit_idAuthText_head (ia : Nat) (rest : List UInt8) :
    isDigit (byteAt (idAuthText ia ++ rest) 0) = true := by
  unfold idAuthText
  split_ifs
  · rfl
  · exact isDigit_formatUnsigned_head ia rest

theorem parseIdAuth_step {s : List UInt8} {q z elen : Nat} (sid : DomSid) {conv : UInt64}
    (hd : isDigit (byteAt s q) = true) (hz : leadingZeros (s.drop q) = z)
    (hconv : smbStrtoull (s.drop (q + z)) = (conv, elen, false)) (hlt : conv.toNat < 2 ^ 48)
    (hlen : elen ≤ 15) :
    parseIdAuth s q sid =
      if byteAt s (q + z + elen) ≠ 0x2d then
        some ({ sid with idAuth := authorityBytes conv }, q + z + elen)
      else subAuthLoop s 16 (q + z + elen + 1) { sid with idAuth := authorityBytes conv } := by
  have hmask : ¬ (conv &&& authorityMask ≠ 0 ∨ False) := by
    simp [and_authorityMask_of_lt hlt]
  have hbig : ¬ (conv ≥ (1 : UInt64) <<< 48 ∨ elen > 15) := by
    rw [not_or, ge_iff_le, UInt64.le_iff_toNat_le, toNat_one_shiftLeft_48]
    omega
  rw [parseIdAuth]
  simp only [hd, Bool.not_true, Bool.false_eq_true, ↓reduceIte, hz, hconv]
  rw [if_neg hmask, if_neg hbig]

theorem length_subAuthsText_le (l : List UInt32) : (subAuthsText l).length ≤ 11 * l.length := by
  induction l with
  | nil => simp [subAuthsText]
  | cons a l ih =>
    have ha := length_formatUInt32_le a
    simp only [subAuthsText, List.flatMap_cons, List.length_append, List.length_cons] at ih ⊢
    omega

theorem length_take_subAuths (sid : DomSid) :
    (sid.subAuths.toList.take sid.numAuths).length = sid.numAuths := by
  have := sid.numAuths.isLt
  simp
  omega

theorem domSidStrBuf_eq (sid : DomSid) : domSidStrBuf sid = domSidStringBuf sid := by
  have hrev := length_formatUnsigned_le (show 0 < 3 by decide)
    (show sid.sidRevNum.toNat < 10 ^ 3 by have := sid.sidRevNum.toNat_lt; omega)
  have hauth := length_idAuthText_le (idAuthValue_lt sid)
  have hsubs := length_subAuthsText_le (sid.subAuths.toList.take sid.numAuths)
  have hnum := sid.numAuths.isLt
  rw [length_take_subAuths] at hsubs
  have hlen : (domSidStringBuf sid).length < domSidStrBufLen := by
    simp only [domSidStringBuf, List.length_append, List.length_cons, List.length_nil,
      domSidStrBufLen]
    omega
  rw [domSidStrBuf, if_neg (Nat.not_le.2 hlen)]

theorem domSidParseEndp_domSidStringBuf (sid : DomSid) :
    ∃ sid', domSidParseEndp (domSidStringBuf sid) = some (sid', (domSidStringBuf sid).length) ∧
      sid'.sidRevNum = sid.sidRevNum ∧ sid'.idAuth = sid.idAuth ∧ sid'.numAuths = sid.numAuths ∧
      sid'.subAuths.toList.take sid'.numAuths = sid.subAuths.toList.take sid.numAuths := by
  set rev := formatUnsigned sid.sidRevNum.toNat
  set auth := idAuthText (idAuthValue sid)
  set subs := sid.subAuths.toList.take sid.numAuths
  have hs : domSidStringBuf sid = 0x53 :: 0x2d :: (rev ++ 0x2d :: (auth ++ subAuthsText subs)) := by
    simp [domSidStringBuf, rev, auth, subs]
  have hrevlt := sid.sidRevNum.toNat_lt
  have hrevlen : rev.length ≤ 3 :=
    length_formatUnsigned_le (show 0 < 3 by decide) (show sid.sidRevNum.toNat < 10 ^ 3 by omega)
  have hia := idAuthValue_lt sid
  have hdrop2 : (domSidStringBuf sid).drop 2 = rev ++ 0x2d :: (auth ++ subAuthsText subs) := by
    rw [hs]
    rfl
  have h2 : isDigit (byteAt (domSidStringBuf sid) 2) = true := by
    rw [byteAt_eq_byteAt_drop, hdrop2]
    exact isDigit_formatUnsigned_head _ _
  have hrevconv : smbStrtoul 10 ((domSidStringBuf sid).drop 2) =
      (UInt64.ofNat sid.sidRevNum.toNat, rev.length, false) := by
    rw [hdrop2]
    exact smbStrtoul_formatUnsigned (by omega) (by simp)
  have hdash : (domSidStringBuf sid).drop (2 + rev.length) = 0x2d :: (auth ++ subAuthsText subs) := by
    rw [← List.drop_drop, hdrop2, List.drop_left]
  have hrevok : ¬ (False ∨ byteAt (domSidStringBuf sid) (2 + rev.length) ≠ 0x2d ∨
      UInt64.ofNat sid.sidRevNum.toNat > 0xff ∨ rev.length > 4) := by
    rw [byteAt_of_drop hdash, gt_iff_lt, UInt64.lt_iff_toNat_lt,
      UInt64.toNat_ofNat_of_lt' (by rw [UInt64.size]; omega)]
    simp
    omega
  set q := 2 + rev.length + 1
  have hdropq : (domSidStringBuf sid).drop q = auth ++ subAuthsText subs := by
    rw [← List.drop_drop, hdash]
    rfl
  have hiaconv : (UInt64.ofNat (idAuthValue sid)).toNat = idAuthValue sid :=
    UInt64.toNat_ofNat_of_lt' (by rw [UInt64.size]; omega)
  have hd : isDigit (byteAt (domSidStringBuf sid) q) = true := by
    rw [byteAt_eq_byteAt_drop, hdropq]
    exact isDigit_idAuthText_head _ _
  have hz : leadingZeros ((domSidStringBuf sid).drop q) = 0 := by
    rw [hdropq]
    exact leadingZeros_idAuthText _ (head_subAuthsText subs)
  have hconv : smbStrtoull ((domSidStringBuf sid).drop (q + 0)) =
      (UInt64.ofNat (idAuthValue sid), auth.length, false) := by
    rw [Nat.add_zero, hdropq]
    exact smbStrtoull_idAuthText hia (head_subAuthsText subs)
  have hstep := parseIdAuth_step
    { DomSid.zero with sidRevNum := (UInt64.ofNat sid.sidRevNum.toNat).toUInt8 } hd hz hconv
    (by rw [hiaconv]; exact hia) ((length_idAuthText_le hia).trans (by decide))
  have hparse : domSidParseEndp (domSidStringBuf sid) =
      parseIdAuth (domSidStringBuf sid) q
        { DomSid.zero with sidRevNum := (UInt64.ofNat sid.sidRevNum.toNat).toUInt8 } := by
    have hS : ¬ ((byteAt (domSidStringBuf sid) 0 ≠ 0x53 ∧ byteAt (domSidStringBuf sid) 0 ≠ 0x73) ∨
        byteAt (domSidStringBuf sid) 1 ≠ 0x2d) := by
      rw [hs]
      simp [byteAt]
    rw [domSidParseEndp, if_neg hS]
    simp only [h2, Bool.not_true, Bool.false_eq_true, ↓reduceIte, hrevconv]
    rw [if_neg hrevok]
  set pre := 0x53 :: 0x2d :: (rev ++ 0x2d :: auth)
  have hpre : domSidStringBuf sid = pre ++ subAuthsText subs := by
    rw [hs]
    simp [pre]
  have hqpre : q + 0 + auth.length = pre.length := by
    simp [q, pre]
    omega
  rw [hparse, hstep, hqpre, hpre, byteAt_append_length, toUInt8_ofNat_toNat,
    authorityBytes_idAuthValue]
  have hsubs : subs.length = sid.numAuths := length_take_subAuths sid
  have hnumlt := sid.numAuths.isLt
  by_cases hnil : subs = []
  · have hnum0 : sid.numAuths = 0 := Fin.ext (hsubs.symm.trans (congrArg List.length hnil))
    refine ⟨{ DomSid.zero with sidRevNum := sid.sidRevNum, idAuth := sid.idAuth }, ?_, rfl, rfl,
      hnum0.symm, ?_⟩
    · simp [hnil, subAuthsText, byteAt]
    · rw [hnil]
      rfl
  · rw [byteAt_subAuthsText_of_ne_nil hnil, if_neg (not_not.2 rfl)]
    obtain ⟨sid', hrun, hrev', hauth', hnum', hsub'⟩ :=
      subAuthLoop_subAuthsText subs hnil pre { DomSid.zero with
        sidRevNum := sid.sidRevNum, idAuth := sid.idAuth } 16 (by omega) (by simp [DomSid.zero]; omega)
    refine ⟨sid', hrun, hrev', hauth', Fin.ext ?_, ?_⟩
    · rw [hnum', ← hsubs]
      exact Nat.zero_add _
    · rw [hsub']
      rfl

inductive Numeral : List UInt8 → Nat → List UInt8 → Prop
  | decimal {ds r : List UInt8} (hne : ds ≠ []) (hds : ∀ c ∈ ds, isDigit c = true)
      (hr : isDigit (byteAt r 0) = false) : Numeral ds (digitsValue 10 ds 0) r
  | hex {ds r : List UInt8} (k : Nat) {x : UInt8} (hx : x = 0x78 ∨ x = 0x58) (hne : ds ≠ [])
      (hds : ∀ c ∈ ds, isDigitOf 16 c = true) (hr : isDigitOf 16 (byteAt r 0) = false) :
      Numeral (List.replicate k 0x30 ++ 0x30 :: x :: ds) (digitsValue 16 ds 0) r

inductive SubAuthsWritten : List UInt8 → List Nat → List UInt8 → Prop
  | nil (r : List UInt8) : SubAuthsWritten [] [] r
  | cons {t u r : List UInt8} {v : Nat} {vs : List Nat} (hv : Numeral t v (u ++ r))
      (hvs : SubAuthsWritten u vs r) : SubAuthsWritten (0x2d :: t ++ u) (v :: vs) r

theorem digitsValue_replicate_zero (base k : Nat) : digitsValue base (List.replicate k 0x30) 0 = 0 := by
  induction k with
  | zero => rfl
  | succ k ih =>
    have hzero : (digitIn base 0x30).getD 0 = 0 := by
      rw [show digitIn base 0x30 = if 0 < base then some 0 else none from rfl]
      split <;> rfl
    rw [List.replicate_succ', digitsValue_append, ih]
    simp only [digitsValue, List.foldl_cons, List.foldl_nil, Nat.zero_mul, Nat.zero_add, hzero]

theorem isDigitOf_byteAt_dropWhile {base : Nat} (hb : base = 10 ∨ base = 16) (l : List UInt8) :
    isDigitOf base (byteAt (l.dropWhile (isDigitOf base)) 0) = false := by
  have hhead := List.head?_dropWhile_not (isDigitOf base) l
  cases h : l.dropWhile (isDigitOf base) with
  | nil => rcases hb with rfl | rfl <;> rfl
  | cons x xs =>
    rw [h] at hhead
    exact hhead

theorem leadingZeros_spec (t : List UInt8) (ht : isDigit (byteAt t 0) = true) :
    ∃ c u, t = List.replicate (leadingZeros t) 0x30 ++ c :: u ∧ isDigit c = true ∧
      (c = 0x30 → isDigit (byteAt u 0) = false) := by
  induction t with
  | nil => exact absurd ht (by decide)
  | cons a t ih =>
    by_cases hstep : a = 0x30 ∧ isDigit (byteAt t 0) = true
    · obtain ⟨rfl, hd⟩ := hstep
      obtain ⟨c, u, hcu, hc, hc0⟩ := ih hd
      cases t with
      | nil => exact absurd hd (by decide)
      | cons b t =>
        refine ⟨c, u, ?_, hc, hc0⟩
        have hb : isDigit b = true := hd
        rw [leadingZeros, if_pos hb, List.replicate_succ, List.cons_append, ← hcu]
    · have hz : leadingZeros (a :: t) = 0 := by
        unfold leadingZeros
        split
        · rename_i c rest h
          injection h with h1 h2
          subst h1 h2
          exact if_neg (fun hc ↦ hstep ⟨rfl, hc⟩)
        · rfl
      refine ⟨a, t, by rw [hz]; rfl, ht, fun ha ↦ ?_⟩
      simpa [ha] using hstep

theorem toNat_ullongOf_of_lt {v : Nat} (h : v < 2 ^ 64) : (ullongOf v).toNat = v := by
  rw [ullongOf_of_lt h, UInt64.toNat_ofNat_of_lt' (by rw [UInt64.size]; omega)]

theorem digitsValue_replicate_append (base k : Nat) (ds : List UInt8) :
    digitsValue base (List.replicate k 0x30 ++ ds) 0 = digitsValue base ds 0 := by
  rw [digitsValue_append, digitsValue_replicate_zero]

theorem isDigit_of_mem_replicate {k : Nat} {c : UInt8} (h : c ∈ List.replicate k 0x30) :
    isDigit c = true := by
  rw [List.eq_of_mem_replicate h]
  rfl

theorem readNumber_spec {t : List UInt8} (ht : isDigit (byteAt t 0) = true) {conv : UInt64}
    {len : Nat} (hconv : smbStrtoull (t.drop (leadingZeros t)) = (conv, len, false)) :
    ∃ num r, t = num ++ r ∧ num.length = leadingZeros t + len ∧ Numeral num conv.toNat r := by
  obtain ⟨c, u, htcu, hc, hc0⟩ := leadingZeros_spec t ht
  generalize leadingZeros t = z at htcu hconv ⊢
  subst htcu
  rw [List.drop_left' List.length_replicate] at hconv
  by_cases hc0' : c = 0x30
  · subst hc0'
    have hu := hc0 rfl
    by_cases hhex : ∃ x h w, u = x :: h :: w ∧ (x = 0x78 ∨ x = 0x58) ∧ isDigitOf 16 h = true
    · obtain ⟨x, h, w, rfl, hx, hh⟩ := hhex
      rw [smbStrtoull_hex hx hh] at hconv
      simp only [Prod.mk.injEq, decide_eq_false_iff_not, Nat.not_le] at hconv
      obtain ⟨hv, hl, he⟩ := hconv
      set ds := (h :: w).takeWhile (isDigitOf 16)
      refine ⟨List.replicate z 0x30 ++ 0x30 :: x :: ds, (h :: w).dropWhile (isDigitOf 16), ?_, ?_, ?_⟩
      · simp [ds]
      · simp
        omega
      · rw [← hv, toNat_ullongOf_of_lt he]
        refine Numeral.hex z hx (by simp [ds, hh]) (fun c hc ↦ List.mem_takeWhile_imp hc) ?_
        exact isDigitOf_byteAt_dropWhile (Or.inr rfl) _
    · have hx : ∀ x h r, u = x :: h :: r → (x = 0x78 ∨ x = 0x58) → isDigitOf 16 h = false := by
        intro x h r hu hx
        apply Bool.eq_false_iff.2
        intro hh
        exact hhex ⟨x, h, r, hu, hx, hh⟩
      have hhead : ∀ c ∈ u.head?, isDigit c = false := by
        intro c hc
        cases u with
        | nil => simp at hc
        | cons d u =>
          rw [List.head?_cons, Option.mem_some_iff] at hc
          rw [← hc]
          exact hu
      rw [smbStrtoull_zero hhead hx] at hconv
      simp only [Prod.mk.injEq] at hconv
      obtain ⟨hv, hl, -⟩ := hconv
      refine ⟨List.replicate (z + 1) 0x30, u, ?_, ?_, ?_⟩
      · rw [List.replicate_succ', List.append_assoc, List.singleton_append]
      · simp
        omega
      · have hzero : conv.toNat = digitsValue 10 (List.replicate (z + 1) 0x30) 0 := by
          rw [digitsValue_replicate_zero, ← hv]
          rfl
        rw [hzero]
        exact Numeral.decimal (by simp) (fun c hc ↦ isDigit_of_mem_replicate hc) hu
  · rw [smbStrtoull_decimal hc hc0' u] at hconv
    simp only [Prod.mk.injEq, decide_eq_false_iff_not, Nat.not_le] at hconv
    obtain ⟨hv, hl, he⟩ := hconv
    set ds := (c :: u).takeWhile (isDigitOf 10)
    have hds : ∀ d ∈ ds, isDigit d = true := by
      intro d hd
      rw [← isDigitOf_ten_eq]
      exact List.mem_takeWhile_imp hd
    have hne : ds ≠ [] := by simp [ds, isDigitOf_ten_eq, hc]
    refine ⟨List.replicate z 0x30 ++ ds, (c :: u).dropWhile (isDigitOf 10), ?_, ?_, ?_⟩
    · simp [ds]
    · simp
      omega
    · rw [← hv, toNat_ullongOf_of_lt he, ← digitsValue_replicate_append 10 z]
      refine Numeral.decimal (by simp [hne]) ?_ ?_
      · intro d hd
        rcases List.mem_append.1 hd with hd | hd
        · exact isDigit_of_mem_replicate hd
        · exact hds d hd
      · rw [← isDigitOf_ten_eq]
        exact isDigitOf_byteAt_dropWhile (Or.inl rfl) _

theorem subAuthLoop_eq_some {s : List UInt8} {fuel q : Nat} {sid : DomSid} {res : DomSid × Nat}
    (h : subAuthLoop s fuel q sid = some res) :
    ∃ f conv len sid1, fuel = f + 1 ∧ isDigit (byteAt s q) = true ∧
      smbStrtoull (s.drop (q + leadingZeros (s.drop q))) = (conv, len, false) ∧
      conv ≤ 0xffffffff ∧ len ≤ 12 ∧ sidAppendRid sid conv.toUInt32 = some sid1 := by
  cases fuel with
  | zero => simp [subAuthLoop] at h
  | succ f =>
    rw [subAuthLoop] at h
    by_cases hd : isDigit (byteAt s q) = true
    · rcases hsm : smbStrtoull (s.drop (q + leadingZeros (s.drop q))) with ⟨conv, len, err⟩
      simp only [hd, Bool.not_true, Bool.false_eq_true, ↓reduceIte, hsm] at h
      split at h
      · cases h
      · rename_i hbad
        simp only [not_or, Bool.not_eq_true, Nat.not_lt] at hbad
        obtain ⟨hconv, rfl, hlen⟩ := hbad
        split at h
        · cases h
        · rename_i sid1 happ
          exact ⟨f, conv, len, sid1, rfl, hd, rfl, UInt64.not_lt.1 hconv, hlen, happ⟩
    · simp [hd] at h

theorem parseIdAuth_eq_some {s : List UInt8} {q : Nat} {sid : DomSid} {res : DomSid × Nat}
    (h : parseIdAuth s q sid = some res) :
    ∃ conv elen, isDigit (byteAt s q) = true ∧
      smbStrtoull (s.drop (q + leadingZeros (s.drop q))) = (conv, elen, false) ∧
      conv.toNat < 2 ^ 48 ∧ elen ≤ 15 := by
  rw [parseIdAuth] at h
  by_cases hd : isDigit (byteAt s q) = true
  · rcases hsm : smbStrtoull (s.drop (q + leadingZeros (s.drop q))) with ⟨conv, elen, err⟩
    simp only [hd, Bool.not_true, Bool.false_eq_true, ↓reduceIte, hsm] at h
    split at h
    · cases h
    · rename_i hmask
      simp only [not_or, Bool.not_eq_true] at hmask
      obtain ⟨-, rfl⟩ := hmask
      split at h
      · cases h
      · rename_i hbig
        simp only [not_or, ge_iff_le, UInt64.le_iff_toNat_le, toNat_one_shiftLeft_48,
          Nat.not_le, Nat.not_lt] at hbig
        exact ⟨conv, elen, hd, rfl, hbig.1, hbig.2⟩
  · simp [hd] at h

theorem toNat_toUInt32_of_le {conv : UInt64} (h : conv ≤ 0xffffffff) :
    conv.toUInt32.toNat = conv.toNat := by
  rw [UInt64.toNat_toUInt32]
  exact Nat.mod_eq_of_lt (by rw [UInt64.le_iff_toNat_le] at h; simp at h; omega)

theorem subAuthLoop_written (s : List UInt8) (fuel : Nat) :
    ∀ {p : Nat} {sid sid' : DomSid} {e : Nat}, byteAt s p = 0x2d →
      subAuthLoop s fuel (p + 1) sid = some (sid', e) →
      ∃ t r ws, s.drop p = t ++ r ∧ e = p + t.length ∧
        SubAuthsWritten t (ws.map UInt32.toNat) r ∧ byteAt r 0 ≠ 0x2d ∧
        sid'.sidRevNum = sid.sidRevNum ∧ sid'.idAuth = sid.idAuth ∧
        sid'.subAuths.toList.take sid'.numAuths = sid.subAuths.toList.take sid.numAuths ++ ws := by
  induction fuel with
  | zero => intro p sid sid' e _ h; simp [subAuthLoop] at h
  | succ f ih =>
    intro p sid sid' e hp h
    obtain ⟨f', conv, len, sid1, hf, hd, hconv, hle, hlen, happ⟩ := subAuthLoop_eq_some h
    obtain rfl : f = f' := by omega
    obtain ⟨hrev1, hauth1, -, hsub1⟩ := sidAppendRid_eq_some happ
    rw [subAuthLoop_step hd rfl hconv hle hlen happ] at h
    rw [byteAt_eq_byteAt_drop] at hd
    rw [← List.drop_drop] at hconv
    obtain ⟨num, r0, ht0, hnumlen, hnum⟩ := readNumber_spec hd hconv
    rw [toNat_toUInt32_of_le hle |>.symm] at hnum
    have hdrop : s.drop p = 0x2d :: (num ++ r0) := by
      rw [drop_eq_cons_of_byteAt hp (by decide), ht0]
    have hr0 : s.drop (p + 1 + leadingZeros (s.drop (p + 1)) + len) = r0 := by
      rw [Nat.add_assoc, ← hnumlen]
      exact drop_length_of_append ht0
    by_cases hnext : byteAt s (p + 1 + leadingZeros (s.drop (p + 1)) + len) = 0x2d
    · rw [if_neg (not_not.2 hnext)] at h
      obtain ⟨t', r, ws', ht', he, hw, hr, hrev, hauth, hsub⟩ := ih hnext h
      rw [hr0] at ht'
      refine ⟨0x2d :: num ++ t', r, conv.toUInt32 :: ws', ?_, ?_, ?_, hr, hrev.trans hrev1,
        hauth.trans hauth1, ?_⟩
      · rw [hdrop, ht']
        simp
      · rw [he]
        simp
        omega
      · rw [ht'] at hnum
        exact SubAuthsWritten.cons hnum hw
      · rw [hsub, hsub1]
        simp
    · rw [if_pos hnext] at h
      obtain ⟨rfl, rfl⟩ := Prod.mk.inj (Option.some.inj h)
      refine ⟨0x2d :: num, r0, [conv.toUInt32], ?_, ?_, ?_, ?_, hrev1, hauth1, hsub1⟩
      · rw [hdrop]
        rfl
      · simp
        omega
      · have hw := SubAuthsWritten.cons (u := []) (by simpa using hnum) (SubAuthsWritten.nil r0)
        simpa using hw
      · rw [← hr0, ← byteAt_eq_byteAt_drop]
        exact hnext

theorem idAuthValue_congr {sid1 sid2 : DomSid} (h : sid1.idAuth = sid2.idAuth) :
    idAuthValue sid1 = idAuthValue sid2 := by
  unfold idAuthValue
  rw [h]

theorem parseIdAuth_written {s : List UInt8} {q : Nat} {sid sid' : DomSid} {e : Nat}
    (h : parseIdAuth s q sid = some (sid', e)) :
    ∃ auth subs r ws, s.drop q = auth ++ subs ++ r ∧ e = q + auth.length + subs.length ∧
      Numeral auth (idAuthValue sid') (subs ++ r) ∧ SubAuthsWritten subs (ws.map UInt32.toNat) r ∧
      byteAt r 0 ≠ 0x2d ∧ sid'.sidRevNum = sid.sidRevNum ∧
      sid'.subAuths.toList.take sid'.numAuths = sid.subAuths.toList.take sid.numAuths ++ ws := by
  obtain ⟨conv, elen, hd, hconv, hlt, hlen⟩ := parseIdAuth_eq_some h
  rw [parseIdAuth_step sid hd rfl hconv hlt hlen] at h
  have hval : idAuthValue { sid with idAuth := authorityBytes conv } = conv.toNat :=
    idAuthValue_authorityBytes sid hlt
  rw [byteAt_eq_byteAt_drop] at hd
  rw [← List.drop_drop] at hconv
  obtain ⟨auth, r0, ht0, hauthlen, hnum⟩ := readNumber_spec hd hconv
  have hr0 : s.drop (q + leadingZeros (s.drop q) + elen) = r0 := by
    rw [Nat.add_assoc, ← hauthlen]
    exact drop_length_of_append ht0
  by_cases hnext : byteAt s (q + leadingZeros (s.drop q) + elen) = 0x2d
  · rw [if_neg (not_not.2 hnext)] at h
    obtain ⟨t, r, ws, ht, he, hw, hr, hrev, hauth, hsub⟩ := subAuthLoop_written s 16 hnext h
    rw [hr0] at ht
    refine ⟨auth, t, r, ws, ?_, ?_, ?_, hw, hr, hrev, hsub⟩
    · rw [ht0, ht, List.append_assoc]
    · rw [he, hauthlen]
      omega
    · rw [idAuthValue_congr hauth, hval, ← ht]
      exact hnum
  · rw [if_pos hnext] at h
    obtain ⟨rfl, rfl⟩ := Prod.mk.inj (Option.some.inj h)
    refine ⟨auth, [], r0, [], ?_, ?_, ?_, SubAuthsWritten.nil r0, ?_, rfl, ?_⟩
    · rw [ht0, List.append_nil]
    · rw [hauthlen]
      simp
      omega
    · rw [hval, List.nil_append]
      exact hnum
    · rw [← hr0, ← byteAt_eq_byteAt_drop]
      exact hnext
    · rw [List.append_nil]

theorem domSidParseEndp_eq_some {s : List UInt8} {sid : DomSid} {e : Nat}
    (h : domSidParseEndp s = some (sid, e)) :
    (byteAt s 0 = 0x53 ∨ byteAt s 0 = 0x73) ∧ byteAt s 1 = 0x2d ∧ isDigit (byteAt s 2) = true ∧
      ∃ conv qlen, smbStrtoul 10 (s.drop 2) = (conv, qlen, false) ∧ byteAt s (2 + qlen) = 0x2d ∧
        conv ≤ 0xff ∧
        parseIdAuth s (2 + qlen + 1) { DomSid.zero with sidRevNum := conv.toUInt8 } = some (sid, e) := by
  rw [domSidParseEndp] at h
  split at h
  · cases h
  · rename_i hS
    have hS' : (byteAt s 0 = 0x53 ∨ byteAt s 0 = 0x73) ∧ byteAt s 1 = 0x2d := by
      simp only [not_or, not_and_or, not_not] at hS
      exact hS
    by_cases hd : isDigit (byteAt s 2) = true
    · rcases hsm : smbStrtoul 10 (s.drop 2) with ⟨conv, qlen, err⟩
      simp only [hd, Bool.not_true, Bool.false_eq_true, ↓reduceIte, hsm] at h
      split at h
      · cases h
      · rename_i hok
        simp only [not_or, Bool.not_eq_true, not_not, Nat.not_lt] at hok
        obtain ⟨rfl, hdash, hconv, -⟩ := hok
        exact ⟨hS'.1, hS'.2, hd, conv, qlen, rfl, hdash, UInt64.not_lt.1 hconv, h⟩
    · simp [hd] at h

theorem toNat_toUInt8_of_le {conv : UInt64} (h : conv ≤ 0xff) : conv.toUInt8.toNat = conv.toNat := by
  rw [UInt64.toNat_toUInt8]
  exact Nat.mod_eq_of_lt (by rw [UInt64.le_iff_toNat_le] at h; simp at h; omega)

theorem domSidParseEndp_written {s : List UInt8} {sid : DomSid} {e : Nat}
    (h : domSidParseEndp s = some (sid, e)) :
    ∃ c rev auth subs r, s = c :: 0x2d :: rev ++ 0x2d :: auth ++ subs ++ r ∧
      e = (c :: 0x2d :: rev ++ 0x2d :: auth ++ subs).length ∧ (c = 0x53 ∨ c = 0x73) ∧
      rev ≠ [] ∧ (∀ d ∈ rev, isDigit d = true) ∧ digitsValue 10 rev 0 = sid.sidRevNum.toNat ∧
      Numeral auth (idAuthValue sid) (subs ++ r) ∧
      SubAuthsWritten subs ((sid.subAuths.toList.take sid.numAuths).map UInt32.toNat) r ∧
      byteAt r 0 ≠ 0x2d := by
  obtain ⟨hc, h1, hd, conv, qlen, hrev, hdash, hle, hauth⟩ := domSidParseEndp_eq_some h
  obtain ⟨auth, subs, r, ws, hq, he, hnum, hw, hr, hrevnum, hsub⟩ := parseIdAuth_written hauth
  have hs2 : s.drop 2 = byteAt s 2 :: s.drop 3 :=
    drop_eq_cons_of_byteAt rfl (fun h0 ↦ absurd (h0 ▸ hd) (by decide))
  rw [hs2, smbStrtoul_ten hd] at hrev
  simp only [Prod.mk.injEq, decide_eq_false_iff_not, Nat.not_le] at hrev
  obtain ⟨hv, hl, hlt⟩ := hrev
  rw [← hs2] at hv hl hlt
  set rev := (s.drop 2).takeWhile (isDigitOf 10)
  have hs : s = byteAt s 0 :: 0x2d :: s.drop 2 := by
    have h0 := drop_eq_cons_of_byteAt (p := 0) rfl
      (fun h0 ↦ by rw [h0] at hc; rcases hc with hc | hc <;> exact absurd hc (by decide))
    rw [List.drop_zero, drop_eq_cons_of_byteAt h1 (by decide)] at h0
    exact h0
  have hrest : s.drop 2 = rev ++ 0x2d :: (auth ++ subs ++ r) := by
    have hsplit := (List.takeWhile_append_dropWhile (p := isDigitOf 10) (l := s.drop 2)).symm
    have hdw : (s.drop 2).dropWhile (isDigitOf 10) = s.drop (2 + qlen) := by
      rw [← List.drop_drop, ← hl]
      exact (drop_length_takeWhile _ _).symm
    rw [hdw, drop_eq_cons_of_byteAt hdash (by decide), hq] at hsplit
    exact hsplit
  refine ⟨byteAt s 0, rev, auth, subs, r, ?_, ?_, hc, ?_, ?_, ?_, ?_, ?_, hr⟩
  · calc s = byteAt s 0 :: 0x2d :: s.drop 2 := hs
      _ = _ := by rw [hrest]; simp
  · rw [he, ← hl]
    simp
    omega
  · simp [rev, hs2, isDigitOf_ten_eq, hd]
  · intro d hd'
    rw [← isDigitOf_ten_eq]
    exact List.mem_takeWhile_imp hd'
  · rw [hrevnum, toNat_toUInt8_of_le hle, ← hv, toNat_ullongOf_of_lt hlt]
  · exact hnum
  · rw [hsub]
    simpa [DomSid.zero] using hw

theorem domSidParseEndp_hex_subAuth :
    (domSidParseEndp [0x53, 0x2d, 0x31, 0x2d, 0x35, 0x2d, 0x30, 0x78, 0x32, 0x30]).map
      (fun r ↦ ((r.1.subAuths.toList.take r.1.numAuths).map UInt32.toNat, r.2)) = some ([32], 10) := by
  decide

theorem domSid_string_round_trip_exact :
    (∀ sid : DomSid, ∃ sid', domSidParseEndp (domSidStrBuf sid) = some (sid', (domSidStrBuf sid).length) ∧
      domSidEqual sid' sid = true) ∧
    (∀ (s : List UInt8) (sid : DomSid) (e : Nat), domSidParseEndp s = some (sid, e) →
      ∃ c rev auth subs r, s = c :: 0x2d :: rev ++ 0x2d :: auth ++ subs ++ r ∧
        e = (c :: 0x2d :: rev ++ 0x2d :: auth ++ subs).length ∧ (c = 0x53 ∨ c = 0x73) ∧
        rev ≠ [] ∧ (∀ d ∈ rev, isDigit d = true) ∧ digitsValue 10 rev 0 = sid.sidRevNum.toNat ∧
        Numeral auth (idAuthValue sid) (subs ++ r) ∧
        SubAuthsWritten subs ((sid.subAuths.toList.take sid.numAuths).map UInt32.toNat) r ∧
        byteAt r 0 ≠ 0x2d) := by
  refine ⟨fun sid ↦ ?_, fun s sid e h ↦ domSidParseEndp_written h⟩
  obtain ⟨sid', hparse, hrev, hauth, hnum, hsub⟩ := domSidParseEndp_domSidStringBuf sid
  refine ⟨sid', by rw [domSidStrBuf_eq]; exact hparse, ?_⟩
  rw [domSidEqual, domSidCompare_eq_zero_of hrev hauth hnum hsub]
  rfl

theorem domSid_string_round_trip_exact_hex_zeros :
    ∃ sid e, domSidParseEndp
        [0x53, 0x2d, 0x31, 0x2d, 0x30, 0x78, 0x31, 0x30, 0x2d, 0x30, 0x30, 0x30, 0x34, 0x32] =
        some (sid, e) ∧
      ∃ c rev auth subs r,
        [0x53, 0x2d, 0x31, 0x2d, 0x30, 0x78, 0x31, 0x30, 0x2d, 0x30, 0x30, 0x30, 0x34, 0x32] =
          c :: 0x2d :: rev ++ 0x2d :: auth ++ subs ++ r ∧
        Numeral auth (idAuthValue sid) (subs ++ r) ∧
        SubAuthsWritten subs ((sid.subAuths.toList.take sid.numAuths).map UInt32.toNat) r := by
  have hsome : (domSidParseEndp
      [0x53, 0x2d, 0x31, 0x2d, 0x30, 0x78, 0x31, 0x30, 0x2d, 0x30, 0x30, 0x30, 0x34, 0x32]).isSome :=
    by decide
  obtain ⟨⟨sid, e⟩, hparse⟩ := Option.isSome_iff_exists.1 hsome
  obtain ⟨c, rev, auth, subs, r, hs, -, -, -, -, -, hauth, hsubs, -⟩ :=
    domSid_string_round_trip_exact.2 _ sid e hparse
  exact ⟨sid, e, hparse, c, rev, auth, subs, r, hs, hauth, hsubs⟩

end Samba.Security.SidString
