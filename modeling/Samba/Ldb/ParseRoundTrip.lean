import Samba.Ldb.Parse

namespace Samba.Ldb.ParseRoundTrip

open Samba.Lib.CString Samba.Ldb.Match Samba.Ldb.Parse

set_option maxRecDepth 8192 in
theorem hexCharVal_hexDigitUpper : ∀ n : UInt8, n < 16 → hexCharVal (hexDigitUpper n) = some n := by
  decide

theorem hexDigits_spec (c : UInt8) :
    c >>> 4 < 16 ∧ c &&& 0x0f < 16 ∧ ((c >>> 4) <<< 4) + (c &&& 0x0f) = c := by
  have hc := UInt8.toNat_lt c
  have hlo : (c &&& 0x0f).toNat = c.toNat % 16 := by
    rw [UInt8.toNat_and]
    exact Nat.and_two_pow_sub_one_eq_mod c.toNat 4
  have hhi : (c >>> 4).toNat = c.toNat / 16 := by
    simp [UInt8.toNat_shiftRight, Nat.shiftRight_eq_div_pow]
  refine ⟨?_, ?_, ?_⟩
  · rw [UInt8.lt_iff_toNat_lt, hhi]
    simp
    omega
  · rw [UInt8.lt_iff_toNat_lt, hlo]
    simp
    omega
  · apply UInt8.toNat_inj.1
    rw [UInt8.toNat_add, hlo, UInt8.toNat_shiftLeft, hhi]
    simp [Nat.shiftLeft_eq]
    omega

-- equation lemmas made once, before the proofs below use them in parallel
attribute [local simp] Samba.Lib.CString.isSpace.eq_1 Samba.Lib.CString.isDigit.eq_1
  Samba.Lib.CString.isAlpha.eq_1 Samba.Ldb.Parse.bytesOfString.eq_1 Samba.Ldb.Parse.hexByte.eq_1
  Samba.Ldb.Parse.wildcardDecodeChunks.eq_1 Samba.Ldb.Parse.ldbParseExtended.eq_1
  Samba.Ldb.Parse.ldbParseFilterlistLoop.eq_1 Samba.Ldb.Parse.substringChunks.eq_1
attribute [-simp] Samba.Lib.CString.isSpace.eq_1 Samba.Lib.CString.isDigit.eq_1
  Samba.Lib.CString.isAlpha.eq_1 Samba.Ldb.Parse.bytesOfString.eq_1 Samba.Ldb.Parse.hexByte.eq_1
  Samba.Ldb.Parse.wildcardDecodeChunks.eq_1 Samba.Ldb.Parse.ldbParseExtended.eq_1
  Samba.Ldb.Parse.ldbParseFilterlistLoop.eq_1 Samba.Ldb.Parse.substringChunks.eq_1

theorem hexByte_hexDigitUpper (c : UInt8) (rest : List UInt8) :
    hexByte (hexDigitUpper (c >>> 4) :: hexDigitUpper (c &&& 0x0f) :: rest) = some c := by
  obtain ⟨hhi, hlo, hc⟩ := hexDigits_spec c
  simp [hexByte, byteAt, hexCharVal_hexDigitUpper _ hhi, hexCharVal_hexDigitUpper _ hlo, hc]

def ValueByte (b : UInt8) : Prop := b ≠ 0x29 ∧ isSpace b = false ∧ b ≠ 0 ∧ b ≠ 0x2a

theorem valueByte_of_needEncode (c : UInt8) (h : needEncode c = false) : ValueByte c := by
  simp only [needEncode, Bool.or_eq_false_iff, decide_eq_false_iff_not] at h
  obtain ⟨⟨hlo, -⟩, hlist⟩ := h
  have hne : c ≠ 0x29 ∧ c ≠ 0x2a ∧ c ≠ 0x20 := by
    refine ⟨?_, ?_, ?_⟩ <;> rintro rfl <;> exact absurd hlist (by decide)
  refine ⟨hne.1, ?_, ?_, hne.2.1⟩
  · rw [UInt8.not_lt] at hlo
    simp only [isSpace, Bool.or_eq_false_iff, beq_eq_false_iff_ne, Bool.and_eq_false_iff,
      decide_eq_false_iff_not]
    exact ⟨hne.2.2, .inr fun h ↦ absurd (UInt8.le_trans hlo h) (by decide)⟩
  · rintro rfl
    exact hlo (by decide)

theorem ne_backslash_of_needEncode {c : UInt8} (h : needEncode c = false) : c ≠ 0x5c := by
  rintro rfl
  exact absurd h (by decide)

set_option maxRecDepth 8192 in
theorem valueByte_hexDigitUpper : ∀ n : UInt8, n < 16 →
    ValueByte (hexDigitUpper n) ∧ hexDigitUpper n ≠ 0x5c := by
  unfold ValueByte
  decide

theorem ldbBinaryEncode_cons (c : UInt8) (v : List UInt8) :
    ldbBinaryEncode (c :: v) = escapeByte c ++ ldbBinaryEncode v := by
  simp [ldbBinaryEncode]

@[simp]
theorem ldbBinaryEncode_nil : ldbBinaryEncode [] = [] := rfl

theorem ldbBinaryDecode_escapeByte (c : UInt8) (rest : List UInt8) :
    ldbBinaryDecode (escapeByte c ++ rest) = (ldbBinaryDecode rest).map (c :: ·) := by
  unfold escapeByte
  split_ifs with h
  · rw [List.cons_append, ldbBinaryDecode, if_pos rfl, List.cons_append, List.cons_append,
      hexByte_hexDigitUpper]
    simp
  · have hc : c ≠ 0x5c := ne_backslash_of_needEncode (by simpa using h)
    rw [List.singleton_append, ldbBinaryDecode, if_neg hc]

theorem ldbBinaryDecode_ldbBinaryEncode_append (v rest : List UInt8) :
    ldbBinaryDecode (ldbBinaryEncode v ++ rest) = (ldbBinaryDecode rest).map (v ++ ·) := by
  induction v with
  | nil => simp
  | cons c v ih =>
    rw [ldbBinaryEncode_cons, List.append_assoc, ldbBinaryDecode_escapeByte, ih, Option.map_map]
    rfl

theorem ldbBinaryDecode_ldbBinaryEncode (v : List UInt8) :
    ldbBinaryDecode (ldbBinaryEncode v) = some v := by
  simpa [ldbBinaryDecode] using ldbBinaryDecode_ldbBinaryEncode_append v []

theorem valueByte_of_mem_escapeByte {c b : UInt8} (h : b ∈ escapeByte c) : ValueByte b := by
  unfold escapeByte at h
  split_ifs at h with hc
  · obtain ⟨hhi, hlo, -⟩ := hexDigits_spec c
    simp only [List.mem_cons, List.not_mem_nil, or_false] at h
    rcases h with rfl | rfl | rfl
    · unfold ValueByte
      decide
    · exact (valueByte_hexDigitUpper _ hhi).1
    · exact (valueByte_hexDigitUpper _ hlo).1
  · rw [List.mem_singleton] at h
    subst h
    exact valueByte_of_needEncode _ (by simpa using hc)

theorem valueByte_of_mem_ldbBinaryEncode {v : List UInt8} {b : UInt8}
    (h : b ∈ ldbBinaryEncode v) : ValueByte b := by
  induction v with
  | nil => simp at h
  | cons c v ih =>
    rw [ldbBinaryEncode_cons, List.mem_append] at h
    rcases h with h | h
    · exact valueByte_of_mem_escapeByte h
    · exact ih h

theorem getLast_escapeByte (c : UInt8) :
    ∃ b, (escapeByte c).getLast? = some b ∧ b ≠ 0x5c := by
  unfold escapeByte
  split_ifs with hc
  · exact ⟨_, rfl, (valueByte_hexDigitUpper _ (hexDigits_spec c).2.1).2⟩
  · exact ⟨c, rfl, ne_backslash_of_needEncode (by simpa using hc)⟩

theorem getLastD_ldbBinaryEncode {prev : UInt8} (hprev : prev ≠ 0x5c) (v : List UInt8) :
    (ldbBinaryEncode v).getLast?.getD prev ≠ 0x5c := by
  induction v with
  | nil => exact hprev
  | cons c v ih =>
    obtain ⟨b, hb, hne⟩ := getLast_escapeByte c
    rw [ldbBinaryEncode_cons, List.getLast?_append]
    cases hlast : (ldbBinaryEncode v).getLast? with
    | none => simpa [hb] using hne
    | some b' => simpa [hlast] using ih

structure PrintedValue (value : List UInt8) : Prop where
  bytes : ∀ b ∈ value, b ≠ 0x29 ∧ isSpace b = false ∧ b ≠ 0
  last : value.getLast?.getD 0x3d ≠ 0x5c

theorem printedValue_ldbBinaryEncode (v : List UInt8) : PrintedValue (ldbBinaryEncode v) where
  bytes b hb := by
    obtain ⟨h1, h2, h3, -⟩ := valueByte_of_mem_ldbBinaryEncode hb
    exact ⟨h1, h2, h3⟩
  last := getLastD_ldbBinaryEncode (by decide) v

theorem scanValue_append {l : List UInt8} (hl : ∀ b ∈ l, b ≠ 0x29) (prev : UInt8)
    (r : List UInt8) :
    scanValue prev (l ++ r) =
      (l ++ (scanValue (l.getLast?.getD prev) r).1, (scanValue (l.getLast?.getD prev) r).2) := by
  induction l generalizing prev with
  | nil => simp
  | cons c l ih =>
    have hc : c ≠ 0x29 := hl c List.mem_cons_self
    rw [List.cons_append, scanValue, if_neg (fun h ↦ hc h.1),
      ih (fun b hb ↦ hl b (List.mem_cons_of_mem _ hb)) c]
    cases l with
    | nil => simp
    | cons c' l => simp [List.getLast?_cons]

theorem scanAttributeValue_printed {value : List UInt8} (h : PrintedValue value)
    (rest : List UInt8) :
    scanAttributeValue (value ++ 0x29 :: rest) = (value, 0x29 :: rest) := by
  have hspace : (value ++ 0x29 :: rest).takeWhile isSpace = [] ∧
      (value ++ 0x29 :: rest).dropWhile isSpace = value ++ 0x29 :: rest := by
    cases value with
    | nil => exact ⟨by simp [isSpace], by simp [isSpace]⟩
    | cons c value =>
      have hc := (h.bytes c List.mem_cons_self).2.1
      exact ⟨by simp [hc], by simp [hc]⟩
  have hscan := scanValue_append (fun b hb ↦ (h.bytes b hb).1) 0x3d (0x29 :: rest)
  have hclose : scanValue (value.getLast?.getD 0x3d) (0x29 :: rest) = ([], 0x29 :: rest) := by
    rw [scanValue, if_pos ⟨rfl, h.last⟩]
  have htrim : value.rdropWhile isSpace = value := by
    rw [List.rdropWhile_eq_self_iff]
    intro hne
    simpa using (h.bytes _ (List.getLast_mem hne)).2.1
  simp only [scanAttributeValue, hspace.1, List.getLast?_nil, Option.getD_none, hspace.2, hscan,
    hclose, List.append_nil, htrim]

theorem ldbParseFindWildcard_backslash (b : UInt8) (r : List UInt8) :
    ldbParseFindWildcard (0x5c :: b :: r) = (ldbParseFindWildcard r).map (· + 2) := by
  rw [ldbParseFindWildcard.eq_def]
  simp

theorem ldbParseFindWildcard_star (r : List UInt8) : ldbParseFindWildcard (0x2a :: r) = some 0 := by
  rw [ldbParseFindWildcard.eq_def]
  simp

theorem ldbParseFindWildcard_plain {c : UInt8} (hbs : c ≠ 0x5c) (hstar : c ≠ 0x2a)
    (r : List UInt8) :
    ldbParseFindWildcard (c :: r) = (ldbParseFindWildcard r).map (· + 1) := by
  rw [ldbParseFindWildcard.eq_def]
  simp only [if_neg hbs, if_neg hstar]

theorem ldbParseFindWildcard_escapeByte (c : UInt8) (r : List UInt8) :
    ldbParseFindWildcard (escapeByte c ++ r) =
      (ldbParseFindWildcard r).map (· + (escapeByte c).length) := by
  unfold escapeByte
  split_ifs with hc
  · obtain ⟨-, hlo, -⟩ := hexDigits_spec c
    obtain ⟨⟨-, -, -, hstar⟩, hbs⟩ := valueByte_hexDigitUpper _ hlo
    rw [List.cons_append, List.cons_append, ldbParseFindWildcard_backslash, List.cons_append,
      List.nil_append, ldbParseFindWildcard_plain hbs hstar, Option.map_map]
    rfl
  · have hbs := ne_backslash_of_needEncode (by simpa using hc)
    have hstar := (valueByte_of_needEncode c (by simpa using hc)).2.2.2
    rw [List.singleton_append, ldbParseFindWildcard_plain hbs hstar]
    rfl

theorem ldbParseFindWildcard_ldbBinaryEncode_append (v r : List UInt8) :
    ldbParseFindWildcard (ldbBinaryEncode v ++ r) =
      (ldbParseFindWildcard r).map (· + (ldbBinaryEncode v).length) := by
  induction v with
  | nil => simp
  | cons c v ih =>
    rw [ldbBinaryEncode_cons, List.append_assoc, ldbParseFindWildcard_escapeByte, ih,
      Option.map_map, List.length_append]
    congr 1
    funext n
    simp only [Function.comp_apply]
    omega

theorem ldbParseFindWildcard_ldbBinaryEncode (v : List UInt8) :
    ldbParseFindWildcard (ldbBinaryEncode v) = none := by
  simpa [ldbParseFindWildcard] using ldbParseFindWildcard_ldbBinaryEncode_append v []

theorem ldbBinaryEncode_ne_nil {v : List UInt8} (h : v ≠ []) : ldbBinaryEncode v ≠ [] := by
  cases v with
  | nil => exact absurd rfl h
  | cons c v =>
    rw [ldbBinaryEncode_cons]
    unfold escapeByte
    split_ifs <;> simp

theorem wildcardDecodeChunks_chunk {chunk : LdbVal} (hne : chunk.data ≠ []) (r : List UInt8) :
    wildcardDecodeChunks (ldbBinaryEncode chunk.data ++ 0x2a :: r) =
      (wildcardDecodeChunks r).map (chunk :: ·) := by
  have henc := ldbBinaryEncode_ne_nil hne
  have hfind : ldbParseFindWildcard (ldbBinaryEncode chunk.data ++ 0x2a :: r) =
      some (ldbBinaryEncode chunk.data).length := by
    rw [ldbParseFindWildcard_ldbBinaryEncode_append, ldbParseFindWildcard_star]
    simp
  rw [wildcardDecodeChunks, if_neg (by simp [henc]), hfind]
  dsimp only
  have hdrop : (ldbBinaryEncode chunk.data ++ 0x2a :: r).drop
      ((ldbBinaryEncode chunk.data).length + 1) = r := by
    simp
  rw [if_neg (by simpa using henc), List.take_left' rfl, ldbBinaryDecode_ldbBinaryEncode, hdrop]
  cases wildcardDecodeChunks r <;> rfl

theorem wildcardDecodeChunks_nil : wildcardDecodeChunks [] = some [] := by
  rw [wildcardDecodeChunks]
  simp

theorem wildcardDecodeChunks_star (r : List UInt8) :
    wildcardDecodeChunks (0x2a :: r) = wildcardDecodeChunks r := by
  rw [wildcardDecodeChunks, if_neg (by simp), ldbParseFindWildcard_star]
  simp

theorem wildcardDecodeChunks_last {chunk : LdbVal} (hne : chunk.data ≠ []) :
    wildcardDecodeChunks (ldbBinaryEncode chunk.data) = some [chunk] := by
  rw [wildcardDecodeChunks, if_neg (ldbBinaryEncode_ne_nil hne),
    ldbParseFindWildcard_ldbBinaryEncode]
  simp [ldbBinaryDecode_ldbBinaryEncode]

theorem wildcardDecodeChunks_substringChunks (endWithWildcard : Bool) :
    ∀ chunks : List LdbVal, (∀ c ∈ chunks, c.data ≠ []) →
      wildcardDecodeChunks (substringChunks endWithWildcard chunks) = some chunks
  | [], _ => wildcardDecodeChunks_nil
  | [chunk], h => by
    have hne := h chunk List.mem_cons_self
    cases endWithWildcard with
    | false => simpa [substringChunks] using wildcardDecodeChunks_last hne
    | true =>
      simp only [substringChunks, if_true]
      rw [wildcardDecodeChunks_chunk hne, wildcardDecodeChunks_nil]
      rfl
  | chunk :: chunk' :: chunks, h => by
    have hrest := wildcardDecodeChunks_substringChunks endWithWildcard (chunk' :: chunks)
      fun c hc ↦ h c (List.mem_cons_of_mem _ hc)
    have hprint : substringChunks endWithWildcard (chunk :: chunk' :: chunks) =
        ldbBinaryEncode chunk.data ++ 0x2a :: substringChunks endWithWildcard (chunk' :: chunks) := by
      simp [substringChunks]
    rw [hprint, wildcardDecodeChunks_chunk (h chunk List.mem_cons_self), hrest]
    rfl

theorem getLast_ldbBinaryEncode {v : List UInt8} (hne : v ≠ []) :
    ∃ b, (ldbBinaryEncode v).getLast? = some b ∧ b ≠ 0x5c ∧ ValueByte b := by
  cases hlast : (ldbBinaryEncode v).getLast? with
  | none => exact absurd (List.getLast?_eq_none_iff.1 hlast) (ldbBinaryEncode_ne_nil hne)
  | some b =>
    have hbs := getLastD_ldbBinaryEncode (by decide : (0x3d : UInt8) ≠ 0x5c) v
    rw [hlast] at hbs
    exact ⟨b, rfl, hbs, valueByte_of_mem_ldbBinaryEncode (List.mem_of_getLast? hlast)⟩

theorem head_ldbBinaryEncode {v : List UInt8} (hne : v ≠ []) :
    ∃ b rest, ldbBinaryEncode v = b :: rest ∧ ValueByte b := by
  cases henc : ldbBinaryEncode v with
  | nil => exact absurd henc (ldbBinaryEncode_ne_nil hne)
  | cons b rest =>
    exact ⟨b, rest, rfl, valueByte_of_mem_ldbBinaryEncode (by rw [henc]; exact List.mem_cons_self)⟩

theorem mem_substringChunks {endWithWildcard : Bool} {b : UInt8} :
    ∀ {chunks : List LdbVal}, b ∈ substringChunks endWithWildcard chunks →
      b = 0x2a ∨ ∃ c ∈ chunks, b ∈ ldbBinaryEncode c.data
  | [], h => by simp [substringChunks] at h
  | [c], h => by
    simp only [substringChunks, List.mem_append] at h
    rcases h with h | h
    · exact Or.inr ⟨c, List.mem_cons_self, h⟩
    · split_ifs at h <;> simp_all
  | c :: c' :: cs, h => by
    have hprint : substringChunks endWithWildcard (c :: c' :: cs) =
        ldbBinaryEncode c.data ++ 0x2a :: substringChunks endWithWildcard (c' :: cs) := by
      simp [substringChunks]
    rw [hprint, List.mem_append, List.mem_cons] at h
    rcases h with h | h | h
    · exact Or.inr ⟨c, List.mem_cons_self, h⟩
    · exact Or.inl h
    · rcases mem_substringChunks h with h | ⟨c'', hc'', h⟩
      · exact Or.inl h
      · exact Or.inr ⟨c'', List.mem_cons_of_mem _ hc'', h⟩

theorem head_substringChunks (endWithWildcard : Bool) {c : LdbVal} (cs : List LdbVal)
    (hne : c.data ≠ []) :
    ∃ b rest, substringChunks endWithWildcard (c :: cs) = b :: rest ∧ ValueByte b := by
  obtain ⟨b, rest, henc, hb⟩ := head_ldbBinaryEncode hne
  cases cs with
  | nil => exact ⟨b, rest ++ if endWithWildcard then [0x2a] else [], by simp [substringChunks, henc], hb⟩
  | cons c' cs =>
    exact ⟨b, rest ++ 0x2a :: substringChunks endWithWildcard (c' :: cs),
      by simp [substringChunks, henc], hb⟩

theorem getLast_substringChunks (endWithWildcard : Bool) :
    ∀ {chunks : List LdbVal}, chunks ≠ [] → (∀ c ∈ chunks, c.data ≠ []) →
      ∃ b, (substringChunks endWithWildcard chunks).getLast? = some b ∧ b ≠ 0x5c ∧
        (b = 0x2a ↔ endWithWildcard = true)
  | [], hne, _ => absurd rfl hne
  | [c], _, h => by
    cases endWithWildcard with
    | false =>
      obtain ⟨b, hb, hbs, hvb⟩ := getLast_ldbBinaryEncode (h c List.mem_cons_self)
      exact ⟨b, by simpa [substringChunks] using hb, hbs, by simpa using hvb.2.2.2⟩
    | true => exact ⟨0x2a, by simp [substringChunks], by decide, by simp⟩
  | c :: c' :: cs, _, h => by
    obtain ⟨b, hb, hbs, hstar⟩ := getLast_substringChunks endWithWildcard (List.cons_ne_nil c' cs)
      fun x hx ↦ h x (List.mem_cons_of_mem _ hx)
    have hprint : substringChunks endWithWildcard (c :: c' :: cs) =
        (ldbBinaryEncode c.data ++ [0x2a]) ++ substringChunks endWithWildcard (c' :: cs) := by
      simp [substringChunks]
    refine ⟨b, ?_, hbs, hstar⟩
    rw [hprint, List.getLast?_append, hb]
    rfl

def substringValue (startWithWildcard endWithWildcard : Bool) (chunks : List LdbVal) :
    List UInt8 :=
  (if startWithWildcard then [0x2a] else []) ++ substringChunks endWithWildcard chunks

section SubstringValue

variable {startWithWildcard endWithWildcard : Bool} {chunks : List LdbVal}
  (hne : chunks ≠ []) (hdata : ∀ c ∈ chunks, c.data ≠ [])
include hne hdata

attribute [local simp] substringValue.eq_1
attribute [-simp] substringValue.eq_1

theorem printedValue_substringValue :
    PrintedValue (substringValue startWithWildcard endWithWildcard chunks) where
  bytes b hb := by
    have hstar : b = 0x2a → b ≠ 0x29 ∧ isSpace b = false ∧ b ≠ 0 := by
      rintro rfl
      decide
    rw [substringValue, List.mem_append] at hb
    rcases hb with hb | hb
    · split_ifs at hb
      · exact hstar (List.mem_singleton.1 hb)
      · simp at hb
    · rcases mem_substringChunks hb with hb | ⟨c, -, hb⟩
      · exact hstar hb
      · obtain ⟨h1, h2, h3, -⟩ := valueByte_of_mem_ldbBinaryEncode hb
        exact ⟨h1, h2, h3⟩
  last := by
    obtain ⟨b, hb, hbs, -⟩ := getLast_substringChunks endWithWildcard hne hdata
    rw [substringValue, List.getLast?_append, hb]
    exact hbs

theorem substringValue_ne_star :
    substringValue startWithWildcard endWithWildcard chunks ≠ [0x2a] := by
  obtain ⟨c, cs, rfl⟩ := List.exists_cons_of_ne_nil hne
  obtain ⟨b, rest, hchunks, hb⟩ :=
    head_substringChunks endWithWildcard cs (hdata c List.mem_cons_self)
  rw [substringValue, hchunks]
  cases startWithWildcard with
  | false =>
    rw [if_neg (by decide), List.nil_append]
    exact fun h ↦ hb.2.2.2 (List.cons_eq_cons.1 h).1
  | true => simp

theorem byteAt_substringValue :
    decide (byteAt (substringValue startWithWildcard endWithWildcard chunks) 0 = 0x2a) =
      startWithWildcard := by
  obtain ⟨c, cs, rfl⟩ := List.exists_cons_of_ne_nil hne
  obtain ⟨b, rest, hchunks, hb⟩ :=
    head_substringChunks endWithWildcard cs (hdata c List.mem_cons_self)
  rw [substringValue, hchunks]
  cases startWithWildcard with
  | false => simpa [byteAt] using hb.2.2.2
  | true => simp [byteAt]

theorem getLast_substringValue :
    decide ((substringValue startWithWildcard endWithWildcard chunks).getLast? = some 0x2a) =
      endWithWildcard := by
  obtain ⟨b, hb, -, hstar⟩ := getLast_substringChunks endWithWildcard hne hdata
  rw [substringValue, List.getLast?_append, hb]
  cases endWithWildcard <;> simpa using hstar

theorem ldbWildcardDecode_substringValue :
    ldbWildcardDecode (substringValue startWithWildcard endWithWildcard chunks) = some chunks := by
  have hchunks : wildcardDecodeChunks (substringValue startWithWildcard endWithWildcard chunks) =
      some chunks := by
    rw [substringValue]
    cases startWithWildcard with
    | false => exact wildcardDecodeChunks_substringChunks endWithWildcard chunks hdata
    | true =>
      rw [if_pos rfl, List.singleton_append, wildcardDecodeChunks_star]
      exact wildcardDecodeChunks_substringChunks endWithWildcard chunks hdata
  rw [ldbWildcardDecode, hchunks]
  cases chunks with
  | nil => exact absurd rfl hne
  | cons c cs => rfl

theorem ldbParseFindWildcard_substringValue
    (hwild : startWithWildcard = true ∨ endWithWildcard = true ∨ 2 ≤ chunks.length) :
    (ldbParseFindWildcard (substringValue startWithWildcard endWithWildcard chunks)).isSome := by
  have hchunk : ∀ (c : LdbVal) r, (ldbParseFindWildcard (ldbBinaryEncode c.data ++ 0x2a :: r)).isSome := by
    intro c r
    rw [ldbParseFindWildcard_ldbBinaryEncode_append, ldbParseFindWildcard_star]
    rfl
  cases startWithWildcard with
  | true =>
    rw [substringValue, if_pos rfl, List.singleton_append, ldbParseFindWildcard_star]
    rfl
  | false =>
    rw [substringValue, if_neg (by decide), List.nil_append]
    match chunks, hwild with
    | [c], .inr (.inl hend) =>
      simpa [substringChunks, hend] using hchunk c []
    | [_], .inr (.inr h2) => simp at h2
    | c :: c' :: cs, _ =>
      simpa [substringChunks] using hchunk c (substringChunks endWithWildcard (c' :: cs))

end SubstringValue

def isAttrNameChar (c : Char) : Bool := c.isAlphanum || c == '-' || c == '.'

def attrNameOk (attr : String) : Bool :=
  match attr.toList with
  | '@' :: cs => cs.all isAttrNameChar
  | cs => cs.all isAttrNameChar

def isCChar (c : Char) : Bool := 0 < c.toNat && c.toNat < 256

theorem toNat_lt_of_isAttrNameChar {c : Char} (h : isAttrNameChar c = true) : c.toNat < 128 := by
  simp only [isAttrNameChar, Char.isAlphanum, Char.isAlpha, Char.isUpper, Char.isLower,
    Char.isDigit, Bool.or_eq_true, Bool.and_eq_true, decide_eq_true_eq, beq_iff_eq] at h
  rcases h with (((⟨-, h⟩ | ⟨-, h⟩) | ⟨-, h⟩) | rfl) | rfl
  · exact lt_of_le_of_lt (UInt32.le_iff_toNat_le.1 h) (by decide)
  · exact lt_of_le_of_lt (UInt32.le_iff_toNat_le.1 h) (by decide)
  · exact lt_of_le_of_lt (UInt32.le_iff_toNat_le.1 h) (by decide)
  · decide
  · decide

set_option maxRecDepth 8192 in
theorem isAttrNameChar_ofNat : ∀ n < 128,
    isAttrNameChar (Char.ofNat n) = (isAttrChar n.toUInt8 && n != 0x40 && n != 0) := by
  decide

attribute [local simp] isCChar.eq_1
attribute [-simp] isCChar.eq_1

theorem isAttrChar_of_isAttrNameChar {c : Char} (h : isAttrNameChar c = true) :
    isAttrChar c.toNat.toUInt8 = true ∧ isCChar c = true := by
  have hlt := toNat_lt_of_isAttrNameChar h
  rw [← Char.ofNat_toNat c, isAttrNameChar_ofNat _ hlt] at h
  obtain ⟨⟨hattr, -⟩, hzero⟩ : (isAttrChar c.toNat.toUInt8 = true ∧ c.toNat ≠ 0x40) ∧
      c.toNat ≠ 0 := by simpa using h
  refine ⟨hattr, ?_⟩
  simp only [isCChar, Bool.and_eq_true, decide_eq_true_eq]
  omega

theorem toUInt8_ne_zero {c : Char} (h : isCChar c = true) : c.toNat.toUInt8 ≠ 0 := by
  simp only [isCChar, Bool.and_eq_true, decide_eq_true_eq] at h
  rw [Ne, ← UInt8.toNat_inj, UInt8.toNat_ofNat_of_lt' h.2, UInt8.toNat_zero]
  omega

theorem bytesOfString_of_isCChar {s : String} (h : ∀ c ∈ s.toList, isCChar c = true) :
    bytesOfString s = s.toList.map fun c ↦ c.toNat.toUInt8 := by
  rw [bytesOfString, cString, List.takeWhile_eq_self_iff]
  intro b hb
  obtain ⟨c, hc, rfl⟩ := List.mem_map.1 hb
  simpa using toUInt8_ne_zero (h c hc)

theorem stringOfBytes_bytesOfString {s : String} (h : ∀ c ∈ s.toList, isCChar c = true) :
    stringOfBytes (bytesOfString s) = s := by
  rw [bytesOfString_of_isCChar h, stringOfBytes, List.map_map]
  have hid : ∀ c ∈ s.toList, ((fun b : UInt8 ↦ Char.ofNat b.toNat) ∘ fun c ↦ c.toNat.toUInt8) c = c := by
    intro c hc
    have hlt := h c hc
    simp only [isCChar, Bool.and_eq_true, decide_eq_true_eq] at hlt
    rw [Function.comp_apply, UInt8.toNat_ofNat_of_lt' hlt.2, Char.ofNat_toNat]
  rw [List.map_congr_left hid, List.map_id', String.ofList_toList]

def AttrNameBytes (nb : List UInt8) : Prop :=
  ∃ cs, (nb = cs ∨ nb = 0x40 :: cs) ∧ ∀ b ∈ cs, isAttrChar b = true

theorem attrNameBytes_of_attrNameOk {attr : String} (h : attrNameOk attr = true) :
    AttrNameBytes (bytesOfString attr) ∧ stringOfBytes (bytesOfString attr) = attr := by
  have hchars : ∀ cs : List Char, cs.all isAttrNameChar = true →
      (∀ c ∈ cs, isCChar c = true) ∧ ∀ b ∈ cs.map (fun c ↦ c.toNat.toUInt8), isAttrChar b = true := by
    intro cs hcs
    rw [List.all_eq_true] at hcs
    refine ⟨fun c hc ↦ (isAttrChar_of_isAttrNameChar (hcs c hc)).2, ?_⟩
    intro b hb
    obtain ⟨c, hc, rfl⟩ := List.mem_map.1 hb
    exact (isAttrChar_of_isAttrNameChar (hcs c hc)).1
  unfold attrNameOk at h
  split at h
  · rename_i cs heq
    obtain ⟨hc, hb⟩ := hchars cs h
    have hcc : ∀ c ∈ attr.toList, isCChar c = true := by
      rw [heq]
      intro c hc'
      rcases List.mem_cons.1 hc' with rfl | hc'
      · decide
      · exact hc c hc'
    refine ⟨⟨_, Or.inr ?_, hb⟩, stringOfBytes_bytesOfString hcc⟩
    rw [bytesOfString_of_isCChar hcc, heq]
    rfl
  · obtain ⟨hc, hb⟩ := hchars attr.toList h
    exact ⟨⟨_, Or.inl (bytesOfString_of_isCChar hc), hb⟩, stringOfBytes_bytesOfString hc⟩

theorem toNat_eq_of_toUInt8_eq {c : Char} (hc : isCChar c = true) {b : UInt8}
    (h : c.toNat.toUInt8 = b) : c = Char.ofNat b.toNat := by
  simp only [isCChar, Bool.and_eq_true, decide_eq_true_eq] at hc
  rw [← h, UInt8.toNat_ofNat_of_lt' hc.2, Char.ofNat_toNat]

theorem infix_colonEquals_of_map {cs : List Char} (hc : ∀ c ∈ cs, isCChar c = true)
    (h : [0x3a, 0x3d] <:+: cs.map fun c ↦ c.toNat.toUInt8) : [':', '='] <:+: cs := by
  induction cs with
  | nil => simp at h
  | cons c cs ih =>
    rw [List.map_cons, List.infix_cons_iff] at h
    rcases h with hpre | hinf
    · rw [List.cons_prefix_cons] at hpre
      obtain ⟨hcolon, hpre⟩ := hpre
      cases cs with
      | nil => simp at hpre
      | cons d cs =>
        rw [List.map_cons, List.cons_prefix_cons] at hpre
        have hc' := toNat_eq_of_toUInt8_eq (hc c List.mem_cons_self) hcolon.symm
        have hd' := toNat_eq_of_toUInt8_eq (hc d (by simp)) hpre.1.symm
        rw [hc', hd']
        exact (List.prefix_append [_, _] cs).isInfix
    · exact List.infix_cons (ih (fun c' hc' ↦ hc c' (List.mem_cons_of_mem _ hc')) hinf)

@[simp]
theorem byteAt_cons_zero (c : UInt8) (s : List UInt8) : byteAt (c :: s) 0 = c := rfl

theorem dropWhile_attrName {nb : List UInt8} (hnb : AttrNameBytes nb) {o : UInt8}
    (ho : isAttrChar o = false) (hat : o ≠ 0x40) (p : List UInt8) :
    (if byteAt (nb ++ o :: p) 0 = 0x40 then (nb ++ o :: p).drop 1 else nb ++ o :: p).dropWhile
      isAttrChar = o :: p := by
  obtain ⟨cs, hnb | hnb, hcs⟩ := hnb
  · rw [hnb]
    have hhead : byteAt (cs ++ o :: p) 0 ≠ 0x40 := by
      cases cs with
      | nil => exact hat
      | cons c cs =>
        have hc := hcs c List.mem_cons_self
        rintro (h : c = 0x40)
        rw [h] at hc
        exact absurd hc (by decide)
    rw [if_neg hhead, List.dropWhile_append_of_pos hcs, List.dropWhile_cons_of_neg (by simp [ho])]
  · rw [hnb, if_pos (by simp [byteAt]), List.cons_append, List.drop_one, List.tail_cons,
      List.dropWhile_append_of_pos hcs, List.dropWhile_cons_of_neg (by simp [ho])]

theorem attributeEnd_simple {nb : List UInt8} (hnb : AttrNameBytes nb) {o : UInt8}
    (ho : isAttrChar o = false) (hat : o ≠ 0x40) (hcolon : o ≠ 0x3a) (p : List UInt8) :
    attributeEnd (nb ++ o :: p) = some (o :: p) := by
  rw [attributeEnd, dropWhile_attrName hnb ho hat p, byteAt_cons_zero, if_neg hcolon]

theorem strstr_colonEquals {x : List UInt8} (hx : ¬ [0x3a, 0x3d] <:+: x) (r : List UInt8) :
    strstr (x ++ 0x3a :: 0x3d :: r) [0x3a, 0x3d] = some (0x3a :: 0x3d :: r) := by
  induction x with
  | nil => simp [strstr]
  | cons c x ih =>
    have hpre : ¬ [0x3a, 0x3d].isPrefixOf (c :: (x ++ 0x3a :: 0x3d :: r)) := by
      rw [List.isPrefixOf_iff_prefix, List.cons_prefix_cons]
      rintro ⟨rfl, hnext⟩
      cases x with
      | nil => simp at hnext
      | cons d x =>
        rw [List.cons_append, List.cons_prefix_cons] at hnext
        rw [← hnext.1] at hx
        exact hx (List.prefix_append [_, _] x).isInfix
    rw [List.cons_append, strstr.eq_def, if_neg hpre]
    exact ih fun h ↦ hx (List.infix_cons h)

theorem attributeEnd_extended {nb : List UInt8} (hnb : AttrNameBytes nb) {x : List UInt8}
    (hx : ¬ [0x3a, 0x3d] <:+: x) (hhead : x = [] ∨ x.head? = some 0x3a) (r : List UInt8) :
    attributeEnd (nb ++ (x ++ 0x3a :: 0x3d :: r)) = some (0x3a :: 0x3d :: r) := by
  obtain ⟨p, hop⟩ : ∃ p, x ++ 0x3a :: 0x3d :: r = 0x3a :: p := by
    cases x with
    | nil => exact ⟨_, rfl⟩
    | cons o x =>
      have ho : o = 0x3a := by simpa using hhead
      exact ⟨_, by rw [ho, List.cons_append]⟩
  rw [attributeEnd, hop, dropWhile_attrName hnb (by decide) (by decide) p,
    byteAt_cons_zero, if_pos rfl, ← hop, strstr_colonEquals hx r]

theorem take_length_sub_append (l₁ l₂ : List UInt8) :
    (l₁ ++ l₂).take ((l₁ ++ l₂).length - l₂.length) = l₁ := by
  simp

def SimpleFilterType (o : UInt8) : Prop :=
  isAttrChar o = false ∧ o ≠ 0x40 ∧ o ≠ 0x3a ∧ isSpace o = false ∧
    [0x3d, 0x3c, 0x3e, 0x7e, 0x3a].contains o = true

theorem ldbParseFiltertype_simple {nb : List UInt8} (hnb : AttrNameBytes nb) (o : UInt8)
    (os : List UInt8) (ho : SimpleFilterType o) {op : LdbParseOp}
    (hop : ∀ x, filterOp (o :: (os ++ x)) = some (op, x)) {value : List UInt8}
    (hv : PrintedValue value) (rest : List UInt8) :
    ldbParseFiltertype (nb ++ o :: (os ++ (value ++ 0x29 :: rest))) =
      some (op, nb, value, 0x29 :: rest) := by
  obtain ⟨hattr, hat, hcolon, hspace, hchr⟩ := ho
  rw [ldbParseFiltertype, attributeEnd_simple hnb hattr hat hcolon]
  dsimp only
  rw [take_length_sub_append, List.dropWhile_cons_of_neg (by simp [hspace]), byteAt_cons_zero,
    hchr, hop]
  simp only [Bool.or_true, Bool.not_true, Bool.false_eq_true, if_false,
    scanAttributeValue_printed hv]

theorem ldbParseFiltertype_extended {nb : List UInt8} (hnb : AttrNameBytes nb) {x : List UInt8}
    (hx : ¬ [0x3a, 0x3d] <:+: x) (hhead : x = [] ∨ x.head? = some 0x3a) {value : List UInt8}
    (hv : PrintedValue value) (rest : List UInt8) :
    ldbParseFiltertype (nb ++ (x ++ 0x3a :: 0x3d :: (value ++ 0x29 :: rest))) =
      some (.extended, nb ++ x, value, 0x29 :: rest) := by
  rw [ldbParseFiltertype, attributeEnd_extended hnb hx hhead]
  dsimp only
  rw [← List.append_assoc, take_length_sub_append, List.dropWhile_cons_of_neg (by decide),
    byteAt_cons_zero]
  simp only [filterOp, scanAttributeValue_printed hv]
  rfl

theorem ldbBinaryEncode_ne_star (v : List UInt8) : ldbBinaryEncode v ≠ [0x2a] := by
  intro h
  have hstar := valueByte_of_mem_ldbBinaryEncode (h ▸ List.mem_singleton_self (0x2a : UInt8))
  exact hstar.2.2.2 rfl

theorem ldbParseSimple_equality {attr : String} (hattr : attrNameOk attr = true) (value : LdbVal)
    (rest : List UInt8) :
    ldbParseSimple (bytesOfString attr ++ 0x3d :: (ldbBinaryEncode value.data ++ 0x29 :: rest)) =
      some (.equality attr value, 0x29 :: rest) := by
  obtain ⟨hnb, hstr⟩ := attrNameBytes_of_attrNameOk hattr
  have hft : ldbParseFiltertype (bytesOfString attr ++ 0x3d :: (ldbBinaryEncode value.data ++
      0x29 :: rest)) = some (.equality, bytesOfString attr, ldbBinaryEncode value.data, 0x29 :: rest) :=
    ldbParseFiltertype_simple hnb 0x3d [] (by unfold SimpleFilterType; decide) (fun _ ↦ rfl)
      (printedValue_ldbBinaryEncode _) rest
  rw [ldbParseSimple, hft]
  dsimp only
  rw [if_neg (ldbBinaryEncode_ne_star _), ldbParseFindWildcard_ldbBinaryEncode, hstr]
  simp [ldbBinaryDecode_ldbBinaryEncode]

theorem ldbParseSimple_compare {attr : String} (hattr : attrNameOk attr = true) (value : LdbVal)
    (rest : List UInt8) {o : UInt8} {op : LdbParseOp} {mk : String → LdbVal → LdbParseTree}
    (hcase : o = 0x3e ∧ op = .greater ∧ mk = .greater ∨ o = 0x3c ∧ op = .less ∧ mk = .less ∨
      o = 0x7e ∧ op = .approx ∧ mk = .approx) :
    ldbParseSimple (bytesOfString attr ++ o :: 0x3d :: (ldbBinaryEncode value.data ++ 0x29 :: rest)) =
      some (mk attr value, 0x29 :: rest) := by
  obtain ⟨hnb, hstr⟩ := attrNameBytes_of_attrNameOk hattr
  have hv := printedValue_ldbBinaryEncode value.data
  rcases hcase with ⟨ho, rfl, rfl⟩ | ⟨ho, rfl, rfl⟩ | ⟨ho, rfl, rfl⟩
  all_goals
    have hft := ldbParseFiltertype_simple hnb o [0x3d] (by rw [ho]; unfold SimpleFilterType; decide)
      (fun _ ↦ by rw [ho]; rfl) hv rest
    rw [List.singleton_append] at hft
    rw [ldbParseSimple, hft]
    simp [ldbBinaryDecode_ldbBinaryEncode, hstr]

theorem printedValue_star : PrintedValue [0x2a] where
  bytes b hb := by
    rw [List.mem_singleton.1 hb]
    decide
  last := by decide

theorem ldbParseSimple_present {attr : String} (hattr : attrNameOk attr = true) (rest : List UInt8) :
    ldbParseSimple (bytesOfString attr ++ 0x3d :: 0x2a :: 0x29 :: rest) =
      some (.present attr, 0x29 :: rest) := by
  obtain ⟨hnb, hstr⟩ := attrNameBytes_of_attrNameOk hattr
  have hft : ldbParseFiltertype (bytesOfString attr ++ 0x3d :: 0x2a :: 0x29 :: rest) =
      some (.equality, bytesOfString attr, [0x2a], 0x29 :: rest) :=
    ldbParseFiltertype_simple hnb 0x3d [] (by unfold SimpleFilterType; decide) (fun _ ↦ rfl)
      printedValue_star rest
  rw [ldbParseSimple, hft]
  simp [hstr]

theorem ldbParseSimple_substring {attr : String} (hattr : attrNameOk attr = true)
    {startWithWildcard endWithWildcard : Bool} {chunks : List LdbVal} (hne : chunks ≠ [])
    (hdata : ∀ c ∈ chunks, c.data ≠ [])
    (hwild : startWithWildcard = true ∨ endWithWildcard = true ∨ 2 ≤ chunks.length)
    (rest : List UInt8) :
    ldbParseSimple (bytesOfString attr ++ 0x3d ::
        (substringValue startWithWildcard endWithWildcard chunks ++ 0x29 :: rest)) =
      some (.substring attr startWithWildcard endWithWildcard chunks, 0x29 :: rest) := by
  obtain ⟨hnb, hstr⟩ := attrNameBytes_of_attrNameOk hattr
  have hft := ldbParseFiltertype_simple hnb 0x3d [] (by unfold SimpleFilterType; decide)
    (fun _ ↦ rfl) (@printedValue_substringValue startWithWildcard endWithWildcard _ hne hdata) rest
  rw [List.nil_append] at hft
  rw [ldbParseSimple, hft]
  dsimp only
  rw [if_neg (substringValue_ne_star hne hdata),
    if_pos (ldbParseFindWildcard_substringValue hne hdata hwild),
    ldbWildcardDecode_substringValue hne hdata, byteAt_substringValue hne hdata,
    getLast_substringValue hne hdata, hstr]
  rfl

def ruleBytes (dnAttributes : Bool) (ruleId : Option String) : List UInt8 :=
  (if dnAttributes then [0x3a, 0x64, 0x6e] else []) ++
    (match ruleId with
      | none => []
      | some ruleId => [0x3a] ++ bytesOfString ruleId)

def extendedRuleOk : Bool → Option String → Bool
  | true, none => true
  | true, some r => r.toList.all isCChar && !decide ([':', '='] <:+: ':' :: r.toList)
  | false, none => false
  | false, some r => !r.toList.isEmpty && r.toList.all isAttrNameChar && r != "dn"

theorem idxOf?_append_of_not_mem {a : UInt8} {l₁ : List UInt8} (h : a ∉ l₁) (l₂ : List UInt8) :
    (l₁ ++ l₂).idxOf? a = (l₂.idxOf? a).map (· + l₁.length) := by
  have hnone : l₁.idxOf? a = none := List.idxOf?_eq_none_iff.2 h
  rw [List.idxOf?, List.findIdx?_append]
  rw [List.idxOf?] at hnone
  rw [hnone, Option.none_or]

attribute [local simp] ruleBytes.eq_1
attribute [-simp] ruleBytes.eq_1

theorem ruleChars_of_extendedRuleOk {dn : Bool} {r : String}
    (h : extendedRuleOk dn (some r) = true) :
    (∀ c ∈ r.toList, isCChar c = true) ∧ ¬ [':', '='] <:+: ':' :: r.toList := by
  cases dn with
  | true =>
    simp only [extendedRuleOk, Bool.and_eq_true, List.all_eq_true, Bool.not_eq_true',
      decide_eq_false_iff_not] at h
    exact h
  | false =>
    simp only [extendedRuleOk, Bool.and_eq_true, List.all_eq_true] at h
    obtain ⟨⟨-, hchars⟩, -⟩ := h
    refine ⟨fun c hc ↦ (isAttrChar_of_isAttrNameChar (hchars c hc)).2, ?_⟩
    intro hinf
    have hmem : '=' ∈ ':' :: r.toList := hinf.subset (by simp)
    rcases List.mem_cons.1 hmem with h | h
    · exact absurd h (by decide)
    · exact absurd (hchars '=' h) (by decide)

theorem not_infix_ruleBytes {dn : Bool} {ruleId : Option String}
    (h : extendedRuleOk dn ruleId = true) : ¬ [0x3a, 0x3d] <:+: ruleBytes dn ruleId := by
  cases ruleId with
  | none =>
    cases dn with
    | true => decide
    | false => simp [extendedRuleOk] at h
  | some r =>
    obtain ⟨hcc, hinf⟩ := ruleChars_of_extendedRuleOk h
    have hrule : ¬ [0x3a, 0x3d] <:+: 0x3a :: bytesOfString r := by
      intro h'
      rw [bytesOfString_of_isCChar hcc] at h'
      refine hinf (infix_colonEquals_of_map ?_ h')
      intro c hc
      rcases List.mem_cons.1 hc with rfl | hc
      · decide
      · exact hcc c hc
    cases dn with
    | false => simpa [ruleBytes] using hrule
    | true =>
      simp only [ruleBytes, if_true, List.cons_append, List.nil_append]
      intro h'
      rw [List.infix_cons_iff, List.infix_cons_iff, List.infix_cons_iff] at h'
      rcases h' with hp | hp | hp | h'
      · rw [List.cons_prefix_cons, List.cons_prefix_cons] at hp
        exact absurd hp.2.1 (by decide)
      · rw [List.cons_prefix_cons] at hp
        exact absurd hp.1 (by decide)
      · rw [List.cons_prefix_cons] at hp
        exact absurd hp.1 (by decide)
      · exact hrule h'

theorem ldbParseExtended_ruleBytes {nb : List UInt8} (hnb : 0x3a ∉ nb) {dn : Bool}
    {ruleId : Option String} (h : extendedRuleOk dn ruleId = true) (value : LdbVal) :
    ldbParseExtended (nb ++ ruleBytes dn ruleId) (ldbBinaryEncode value.data) =
      some (.extended (some (stringOfBytes nb)) dn ruleId value) := by
  have hidx : ∀ x, (nb ++ 0x3a :: x).idxOf? 0x3a = some nb.length := by
    intro x
    rw [idxOf?_append_of_not_mem hnb, List.idxOf?_cons]
    simp
  cases ruleId with
  | none =>
    cases dn with
    | false => simp [extendedRuleOk] at h
    | true =>
      have hdn : List.idxOf? (0x3a : UInt8) [0x64, 0x6e] = none := by decide
      simp [ldbParseExtended, ldbBinaryDecode_ldbBinaryEncode, ruleBytes, hidx, hdn]
  | some r =>
    obtain ⟨hcc, -⟩ := ruleChars_of_extendedRuleOk h
    have hstr := stringOfBytes_bytesOfString hcc
    cases dn with
    | true =>
      have hdrop : (nb ++ 0x3a :: 0x64 :: 0x6e :: 0x3a :: bytesOfString r).drop (nb.length + 1 + 3) =
          bytesOfString r := by
        rw [List.drop_append, List.drop_eq_nil_of_le (by omega),
          show nb.length + 1 + 3 - nb.length = 4 by omega]
        rfl
      simp [ldbParseExtended, ldbBinaryDecode_ldbBinaryEncode, ruleBytes, hidx, hdrop, hstr,
        List.idxOf?_cons]
    | false =>
      simp only [extendedRuleOk, Bool.and_eq_true, List.all_eq_true, bne_iff_ne, ne_eq] at h
      obtain ⟨⟨-, hchars⟩, hne⟩ := h
      have hcolon : List.idxOf? (0x3a : UInt8) (bytesOfString r) = none := by
        rw [List.idxOf?_eq_none_iff, bytesOfString_of_isCChar hcc]
        intro hmem
        obtain ⟨c, hc, hbyte⟩ := List.mem_map.1 hmem
        have hattr := (isAttrChar_of_isAttrNameChar (hchars c hc)).1
        rw [hbyte] at hattr
        exact absurd hattr (by decide)
      have hfield : bytesOfString r ≠ [0x64, 0x6e] := by
        intro hdn
        rw [hdn] at hstr
        exact hne (hstr.symm.trans (by decide))
      simp [ldbParseExtended, ldbBinaryDecode_ldbBinaryEncode, ruleBytes, hidx, hstr, hcolon,
        hfield]

theorem colon_not_mem_of_attrNameBytes {nb : List UInt8} (hnb : AttrNameBytes nb) : 0x3a ∉ nb := by
  obtain ⟨cs, hcs | hcs, hall⟩ := hnb
  all_goals
    rw [hcs]
    intro hmem
  · exact absurd (hall _ hmem) (by decide)
  · rcases List.mem_cons.1 hmem with h | h
    · exact absurd h (by decide)
    · exact absurd (hall _ h) (by decide)

theorem attrNameBytes_of_all {attr : Option String} (hattr : attr.all attrNameOk = true) :
    AttrNameBytes ((attr.map bytesOfString).getD []) ∧
      stringOfBytes ((attr.map bytesOfString).getD []) = attr.getD "" := by
  cases attr with
  | none => exact ⟨⟨[], Or.inl rfl, by simp⟩, rfl⟩
  | some a => exact attrNameBytes_of_attrNameOk hattr

theorem head_ruleBytes {dn : Bool} {ruleId : Option String} (h : extendedRuleOk dn ruleId = true) :
    (ruleBytes dn ruleId).head? = some 0x3a := by
  cases dn with
  | true => rfl
  | false =>
    cases ruleId with
    | none => simp [extendedRuleOk] at h
    | some r => rfl

theorem ldbParseSimple_extended {attr : Option String} (hattr : attr.all attrNameOk = true)
    {dn : Bool} {ruleId : Option String} (h : extendedRuleOk dn ruleId = true) (value : LdbVal)
    (rest : List UInt8) :
    ldbParseSimple ((attr.map bytesOfString).getD [] ++ (ruleBytes dn ruleId ++ 0x3a :: 0x3d ::
        (ldbBinaryEncode value.data ++ 0x29 :: rest))) =
      some (.extended (some (attr.getD "")) dn ruleId value, 0x29 :: rest) := by
  obtain ⟨hnb, hstr⟩ := attrNameBytes_of_all hattr
  rw [ldbParseSimple, ldbParseFiltertype_extended hnb (not_infix_ruleBytes h)
    (Or.inr (head_ruleBytes h)) (printedValue_ldbBinaryEncode value.data) rest]
  dsimp only
  rw [ldbParseExtended_ruleBytes (colon_not_mem_of_attrNameBytes hnb) h, hstr]
  rfl

def result {α : Type} {p : List UInt8 → Prop} (res : Option (α × Subtype p)) :
    Option (α × List UInt8) :=
  res.map fun x ↦ (x.1, x.2.1)

theorem result_eq_some {α : Type} {p : List UInt8 → Prop} {res : Option (α × Subtype p)}
    {a : α} {r : List UInt8} : result res = some (a, r) ↔ ∃ h, res = some (a, ⟨r, h⟩) := by
  constructor
  · intro h
    obtain ⟨⟨a', r', hr'⟩, hres, heq⟩ := Option.map_eq_some_iff.1 h
    simp only [Prod.mk.injEq] at heq
    obtain ⟨rfl, rfl⟩ := heq
    exact ⟨hr', hres⟩
  · rintro ⟨h, rfl⟩
    rfl

def SimpleStart (c : UInt8) : Prop :=
  isSpace c = false ∧ c ≠ 0x26 ∧ c ≠ 0x7c ∧ c ≠ 0x21 ∧ c ≠ 0x28 ∧ c ≠ 0x29

theorem dropWhile_isSpace_self {s : List UInt8} (h : isSpace (byteAt s 0) = false) :
    s.dropWhile isSpace = s := by
  cases s with
  | nil => rfl
  | cons c s => exact List.dropWhile_cons_of_neg (by simp only [Bool.not_eq_true]; exact h)

theorem ldbParseFilter_step {maxDepth depth : Nat} (hd : depth ≤ maxDepth) {s r : List UInt8}
    {tree : LdbParseTree}
    (hc : result (ldbParseFiltercomp maxDepth (depth + 1) s) = some (tree, 0x29 :: r)) :
    result (ldbParseFilter maxDepth depth (0x28 :: s)) = some (tree, r.dropWhile isSpace) := by
  obtain ⟨h, hc⟩ := result_eq_some.1 hc
  rw [ldbParseFilter, dif_neg (by omega), dif_neg (by simp [byteAt])]
  split
  · rename_i hnone
    cases hc.symm.trans hnone
  · rename_i tree' p hp hsome
    obtain ⟨rfl, hsub⟩ := Prod.mk.inj (Option.some.inj (hc.symm.trans hsome))
    obtain rfl : 0x29 :: r = p := congrArg Subtype.val hsub
    rw [dif_neg (by simp [byteAt])]
    rfl

theorem ldbParseFiltercomp_simple {maxDepth depth : Nat} {s r : List UInt8} {tree : LdbParseTree}
    (hstart : SimpleStart (byteAt s 0)) (hs : ldbParseSimple s = some (tree, r)) :
    result (ldbParseFiltercomp maxDepth depth s) = some (tree, r) := by
  obtain ⟨hspace, hand, hor, hnot, hopen, hclose⟩ := hstart
  rw [ldbParseFiltercomp]
  simp only [dropWhile_isSpace_self hspace]
  rw [if_neg (by simp [hand, hor]), if_neg hnot, if_neg (by simp [hopen, hclose])]
  rw [← dropWhile_isSpace_self hspace] at hs
  split
  · rename_i hnone
    cases hs.symm.trans hnone
  · rename_i tree' r' hsome
    obtain ⟨rfl, rfl⟩ := Prod.mk.inj (Option.some.inj (hs.symm.trans hsome))
    rfl

theorem ldbParseFiltercomp_list {maxDepth depth : Nat} {c : UInt8} (hc : c = 0x26 ∨ c = 0x7c)
    {s r : List UInt8} {tree : LdbParseTree}
    (hl : result (ldbParseFilterlist maxDepth depth (c :: s)) = some (tree, r)) :
    result (ldbParseFiltercomp maxDepth depth (c :: s)) = some (tree, r) := by
  have hd : (c :: s).dropWhile isSpace = c :: s := by
    rcases hc with rfl | rfl <;> rfl
  rw [ldbParseFiltercomp, if_pos (by simpa [hd, byteAt] using hc)]
  rw [← hd] at hl
  obtain ⟨h, hl⟩ := result_eq_some.1 hl
  split
  · rename_i hnone
    cases hl.symm.trans hnone
  · rename_i tree' r' hr hsome
    obtain ⟨rfl, hsub⟩ := Prod.mk.inj (Option.some.inj (hl.symm.trans hsome))
    obtain rfl : r = r' := congrArg Subtype.val hsub
    rfl

theorem ldbParseFiltercomp_not {maxDepth depth : Nat} {s r : List UInt8} {tree : LdbParseTree}
    (hn : result (ldbParseNot maxDepth depth (0x21 :: s)) = some (tree, r)) :
    result (ldbParseFiltercomp maxDepth depth (0x21 :: s)) = some (tree, r) := by
  have hd : (0x21 :: s).dropWhile isSpace = 0x21 :: s := rfl
  rw [ldbParseFiltercomp, if_neg (by simp [hd, byteAt]), if_pos (by simp [hd, byteAt])]
  obtain ⟨h, hn⟩ := result_eq_some.1 hn
  split
  · rename_i hnone
    cases hn.symm.trans hnone
  · rename_i tree' r' hr hsome
    obtain ⟨rfl, hsub⟩ := Prod.mk.inj (Option.some.inj (hn.symm.trans hsome))
    obtain rfl : r = r' := congrArg Subtype.val hsub
    rfl

theorem ldbParseFilterlist_cons {maxDepth depth : Nat} {c : UInt8}
    {mk : List LdbParseTree → LdbParseTree} (hc : c = 0x26 ∧ mk = .and ∨ c = 0x7c ∧ mk = .or)
    {p r q : List UInt8} (hp : isSpace (byteAt p 0) = false) {first : LdbParseTree}
    {elements : List LdbParseTree}
    (hfirst : result (ldbParseFilter maxDepth depth p) = some (first, r))
    (hloop : result (ldbParseFilterlistLoop maxDepth depth (r.dropWhile isSpace)) =
      some (elements, q)) :
    result (ldbParseFilterlist maxDepth depth (c :: p)) = some (mk (first :: elements), q) := by
  rw [← dropWhile_isSpace_self hp] at hfirst
  obtain ⟨h1, hfirst⟩ := result_eq_some.1 hfirst
  obtain ⟨h2, hloop⟩ := result_eq_some.1 hloop
  rcases hc with ⟨rfl, rfl⟩ | ⟨rfl, rfl⟩
  all_goals
    rw [ldbParseFilterlist]
    split
    · rename_i hop
      simp [byteAt] at hop
    · rename_i op hop
      dsimp only
      split
      · rename_i hnone
        cases hfirst.symm.trans hnone
      · rename_i first' r' hr' hsome
        obtain ⟨rfl, hsub⟩ := Prod.mk.inj (Option.some.inj (hfirst.symm.trans hsome))
        obtain rfl : r = r' := congrArg Subtype.val hsub
        split
        · rename_i hnone
          cases hloop.symm.trans hnone
        · rename_i elements' q' hq' hsome'
          obtain ⟨rfl, hsub'⟩ := Prod.mk.inj (Option.some.inj (hloop.symm.trans hsome'))
          obtain rfl : q = q' := congrArg Subtype.val hsub'
          simp [byteAt] at hop
          subst hop
          rfl

theorem ldbParseFilterlistLoop_close (maxDepth depth : Nat) (r : List UInt8) :
    result (ldbParseFilterlistLoop maxDepth depth (0x29 :: r)) = some ([], 0x29 :: r) := by
  have hclose : byteAt (0x29 :: r) 0 = 0x29 := rfl
  rw [ldbParseFilterlistLoop, if_pos (Or.inr hclose)]
  rfl

theorem ldbParseFilterlistLoop_cons {maxDepth depth : Nat} {p r q : List UInt8}
    {next : LdbParseTree} {elements : List LdbParseTree}
    (hnext : result (ldbParseFilter maxDepth depth (0x28 :: p)) = some (next, r))
    (hloop : result (ldbParseFilterlistLoop maxDepth depth (r.dropWhile isSpace)) =
      some (elements, q)) :
    result (ldbParseFilterlistLoop maxDepth depth (0x28 :: p)) = some (next :: elements, q) := by
  obtain ⟨h1, hnext⟩ := result_eq_some.1 hnext
  obtain ⟨h2, hloop⟩ := result_eq_some.1 hloop
  rw [ldbParseFilterlistLoop, if_neg (by simp [byteAt])]
  split
  · rename_i hnone
    cases hnext.symm.trans hnone
  · rename_i next' r' hr' hsome
    obtain ⟨rfl, hsub⟩ := Prod.mk.inj (Option.some.inj (hnext.symm.trans hsome))
    obtain rfl : r = r' := congrArg Subtype.val hsub
    split
    · rename_i hnone
      cases hloop.symm.trans hnone
    · rename_i elements' q' hq' hsome'
      obtain ⟨rfl, hsub'⟩ := Prod.mk.inj (Option.some.inj (hloop.symm.trans hsome'))
      obtain rfl : q = q' := congrArg Subtype.val hsub'
      rfl

theorem ldbParseNot_cons {maxDepth depth : Nat} {p r : List UInt8} {child : LdbParseTree}
    (hchild : result (ldbParseFilter maxDepth depth p) = some (child, r)) :
    result (ldbParseNot maxDepth depth (0x21 :: p)) = some (.not child, r) := by
  obtain ⟨h, hchild⟩ := result_eq_some.1 hchild
  rw [ldbParseNot, dif_neg (by simp [byteAt])]
  split
  · rename_i hnone
    cases hchild.symm.trans hnone
  · rename_i child' r' hr' hsome
    obtain ⟨rfl, hsub⟩ := Prod.mk.inj (Option.some.inj (hchild.symm.trans hsome))
    obtain rfl : r = r' := congrArg Subtype.val hsub
    rfl

mutual

def printable : LdbParseTree → Bool
  | .and elements => !elements.isEmpty && printableList elements
  | .or elements => !elements.isEmpty && printableList elements
  | .not child => printable child
  | .equality attr _ | .greater attr _ | .less attr _ | .approx attr _ | .present attr =>
    attrNameOk attr
  | .substring attr startWithWildcard endWithWildcard chunks =>
    attrNameOk attr && !chunks.isEmpty && chunks.all (!·.data.isEmpty) &&
      (startWithWildcard || endWithWildcard || decide (2 ≤ chunks.length))
  | .extended attr dnAttributes ruleId _ =>
    attr.all attrNameOk && extendedRuleOk dnAttributes ruleId

def printableList : List LdbParseTree → Bool
  | [] => true
  | tree :: trees => printable tree && printableList trees

end

mutual

def fillExtendedAttr : LdbParseTree → LdbParseTree
  | .and elements => .and (fillExtendedAttrList elements)
  | .or elements => .or (fillExtendedAttrList elements)
  | .not child => .not (fillExtendedAttr child)
  | .extended attr dnAttributes ruleId value =>
    .extended (some (attr.getD "")) dnAttributes ruleId value
  | tree => tree

def fillExtendedAttrList : List LdbParseTree → List LdbParseTree
  | [] => []
  | tree :: trees => fillExtendedAttr tree :: fillExtendedAttrList trees

end

mutual

def filterLevels : LdbParseTree → Nat
  | .and elements => filterLevelsList elements + 1
  | .or elements => filterLevelsList elements + 1
  | .not child => filterLevels child + 1
  | _ => 1

def filterLevelsList : List LdbParseTree → Nat
  | [] => 0
  | tree :: trees => max (filterLevels tree) (filterLevelsList trees)

end

attribute [local simp] SimpleStart.eq_1
attribute [-simp] SimpleStart.eq_1

theorem simpleStart_of_isAttrChar (b : UInt8) (h : isAttrChar b = true) : SimpleStart b := by
  simp only [isAttrChar, isAscii, isAlpha, isDigit, Bool.or_eq_true, Bool.and_eq_true,
    decide_eq_true_eq, UInt8.lt_iff_toNat_lt, UInt8.le_iff_toNat_le, ← UInt8.toNat_inj] at h
  simp only [SimpleStart, isSpace, Bool.or_eq_false_iff, beq_eq_false_iff_ne,
    Bool.and_eq_false_iff, decide_eq_false_iff_not, UInt8.le_iff_toNat_le, ne_eq,
    ← UInt8.toNat_inj]
  simp only [UInt8.reduceToNat] at h ⊢
  omega

theorem simpleStart_attrName {nb : List UInt8} (hnb : AttrNameBytes nb) {o : UInt8}
    (ho : SimpleStart o) (p : List UInt8) : SimpleStart (byteAt (nb ++ o :: p) 0) := by
  obtain ⟨cs, hnb | hnb, hcs⟩ := hnb
  · rw [hnb]
    cases cs with
    | nil => exact ho
    | cons c cs => exact simpleStart_of_isAttrChar c (hcs c List.mem_cons_self)
  · rw [hnb]
    show SimpleStart 0x40
    unfold SimpleStart
    decide

theorem ldbFilterFromTree_cons (tree : LdbParseTree) :
    ∃ body, ldbFilterFromTree tree = 0x28 :: body := by
  cases tree <;> exact ⟨_, rfl⟩

theorem byteAt_ldbFilterFromTree_append (tree : LdbParseTree) (rest : List UInt8) :
    byteAt (ldbFilterFromTree tree ++ rest) 0 = 0x28 := by
  obtain ⟨body, hbody⟩ := ldbFilterFromTree_cons tree
  rw [hbody]
  rfl

theorem dropWhile_ldbFilterFromTreeList (trees : List LdbParseTree) (rest : List UInt8) :
    (ldbFilterFromTreeList trees ++ 0x29 :: rest).dropWhile isSpace =
      ldbFilterFromTreeList trees ++ 0x29 :: rest := by
  apply dropWhile_isSpace_self
  cases trees with
  | nil => rfl
  | cons tree trees =>
    rw [ldbFilterFromTreeList, List.append_assoc, byteAt_ldbFilterFromTree_append]
    rfl

theorem ldbParseFilter_leaf {maxDepth d : Nat} (hd : d ≤ maxDepth) {nb : List UInt8}
    (hnb : AttrNameBytes nb) {o : UInt8} (ho : SimpleStart o) {p rest : List UInt8}
    {tree : LdbParseTree} (hs : ldbParseSimple (nb ++ o :: p) = some (tree, 0x29 :: rest)) :
    result (ldbParseFilter maxDepth d (0x28 :: (nb ++ o :: p))) =
      some (tree, rest.dropWhile isSpace) :=
  ldbParseFilter_step hd (ldbParseFiltercomp_simple (simpleStart_attrName hnb ho p) hs)

theorem ldbParseFilter_filterlist {maxDepth d : Nat} (hd : d ≤ maxDepth) {c : UInt8}
    {mk : List LdbParseTree → LdbParseTree} (hc : c = 0x26 ∧ mk = .and ∨ c = 0x7c ∧ mk = .or)
    {tree : LdbParseTree} {trees : List LdbParseTree} {rest : List UInt8} {first : LdbParseTree}
    {elements : List LdbParseTree}
    (hfirst : result (ldbParseFilter maxDepth (d + 1)
      (ldbFilterFromTree tree ++ (ldbFilterFromTreeList trees ++ 0x29 :: rest))) =
        some (first, ldbFilterFromTreeList trees ++ 0x29 :: rest))
    (hloop : result (ldbParseFilterlistLoop maxDepth (d + 1)
      (ldbFilterFromTreeList trees ++ 0x29 :: rest)) = some (elements, 0x29 :: rest)) :
    result (ldbParseFilter maxDepth d
      (0x28 :: c :: (ldbFilterFromTree tree ++ (ldbFilterFromTreeList trees ++ 0x29 :: rest)))) =
        some (mk (first :: elements), rest.dropWhile isSpace) := by
  rw [← dropWhile_ldbFilterFromTreeList] at hloop
  have hstart : isSpace (byteAt (ldbFilterFromTree tree ++
      (ldbFilterFromTreeList trees ++ 0x29 :: rest)) 0) = false := by
    rw [byteAt_ldbFilterFromTree_append]
    rfl
  exact ldbParseFilter_step hd (ldbParseFiltercomp_list (hc.imp And.left And.left)
    (ldbParseFilterlist_cons hc hstart hfirst hloop))

mutual

theorem ldbParseFilter_ldbFilterFromTree (maxDepth : Nat) :
    ∀ (tree : LdbParseTree) (d : Nat) (rest : List UInt8), printable tree = true →
      d + filterLevels tree ≤ maxDepth + 1 →
      result (ldbParseFilter maxDepth d (ldbFilterFromTree tree ++ rest)) =
        some (fillExtendedAttr tree, rest.dropWhile isSpace)
  | .and [], _, _, hp, _ => by simp [printable] at hp
  | .and (tree :: trees), d, rest, hp, hd => by
    simp only [printable, printableList, List.isEmpty_cons, Bool.not_false, Bool.true_and,
      Bool.and_eq_true] at hp
    simp only [filterLevels, filterLevelsList] at hd
    have hfirst := ldbParseFilter_ldbFilterFromTree maxDepth tree (d + 1)
      (ldbFilterFromTreeList trees ++ 0x29 :: rest) hp.1 (by omega)
    rw [dropWhile_ldbFilterFromTreeList] at hfirst
    have hloop := ldbParseFilterlistLoop_ldbFilterFromTreeList maxDepth trees (d + 1) rest hp.2
      (by omega)
    have hs : ldbFilterFromTree (.and (tree :: trees)) ++ rest = 0x28 :: 0x26 ::
        (ldbFilterFromTree tree ++ (ldbFilterFromTreeList trees ++ 0x29 :: rest)) := by
      simp [ldbFilterFromTree, ldbFilterFromTreeList]
    rw [hs]
    exact ldbParseFilter_filterlist (by omega) (.inl ⟨rfl, rfl⟩) hfirst hloop
  | .or [], _, _, hp, _ => by simp [printable] at hp
  | .or (tree :: trees), d, rest, hp, hd => by
    simp only [printable, printableList, List.isEmpty_cons, Bool.not_false, Bool.true_and,
      Bool.and_eq_true] at hp
    simp only [filterLevels, filterLevelsList] at hd
    have hfirst := ldbParseFilter_ldbFilterFromTree maxDepth tree (d + 1)
      (ldbFilterFromTreeList trees ++ 0x29 :: rest) hp.1 (by omega)
    rw [dropWhile_ldbFilterFromTreeList] at hfirst
    have hloop := ldbParseFilterlistLoop_ldbFilterFromTreeList maxDepth trees (d + 1) rest hp.2
      (by omega)
    have hs : ldbFilterFromTree (.or (tree :: trees)) ++ rest = 0x28 :: 0x7c ::
        (ldbFilterFromTree tree ++ (ldbFilterFromTreeList trees ++ 0x29 :: rest)) := by
      simp [ldbFilterFromTree, ldbFilterFromTreeList]
    rw [hs]
    exact ldbParseFilter_filterlist (by omega) (.inr ⟨rfl, rfl⟩) hfirst hloop
  | .not child, d, rest, hp, hd => by
    simp only [printable] at hp
    simp only [filterLevels] at hd
    have hchild := ldbParseFilter_ldbFilterFromTree maxDepth child (d + 1) (0x29 :: rest) hp
      (by omega)
    rw [show (0x29 :: rest).dropWhile isSpace = 0x29 :: rest from rfl] at hchild
    have hs : ldbFilterFromTree (.not child) ++ rest =
        0x28 :: 0x21 :: (ldbFilterFromTree child ++ 0x29 :: rest) := by
      simp [ldbFilterFromTree]
    rw [hs]
    exact ldbParseFilter_step (by omega) (ldbParseFiltercomp_not (ldbParseNot_cons hchild))
  | .equality attr value, d, rest, hp, hd => by
    simp only [printable] at hp
    simp only [filterLevels] at hd
    have hs : ldbFilterFromTree (.equality attr value) ++ rest =
        0x28 :: (bytesOfString attr ++ 0x3d :: (ldbBinaryEncode value.data ++ 0x29 :: rest)) := by
      simp [ldbFilterFromTree]
    rw [hs]
    exact ldbParseFilter_leaf (by omega) (attrNameBytes_of_attrNameOk hp).1
      (by unfold SimpleStart; decide) (ldbParseSimple_equality hp value rest)
  | .substring attr startWithWildcard endWithWildcard chunks, d, rest, hp, hd => by
    simp only [printable, Bool.and_eq_true, Bool.not_eq_true', List.isEmpty_eq_false_iff,
      List.all_eq_true, Bool.or_eq_true, decide_eq_true_eq] at hp
    obtain ⟨⟨⟨hattr, hne⟩, hdata⟩, hwild⟩ := hp
    simp only [filterLevels] at hd
    have hs : ldbFilterFromTree (.substring attr startWithWildcard endWithWildcard chunks) ++ rest =
        0x28 :: (bytesOfString attr ++ 0x3d ::
          (substringValue startWithWildcard endWithWildcard chunks ++ 0x29 :: rest)) := by
      simp [ldbFilterFromTree, substringValue]
    rw [hs]
    exact ldbParseFilter_leaf (by omega) (attrNameBytes_of_attrNameOk hattr).1
      (by unfold SimpleStart; decide)
      (ldbParseSimple_substring hattr hne hdata (by simpa [or_assoc] using hwild) rest)
  | .greater attr value, d, rest, hp, hd => by
    simp only [printable] at hp
    simp only [filterLevels] at hd
    have hs : ldbFilterFromTree (.greater attr value) ++ rest = 0x28 :: (bytesOfString attr ++
        0x3e :: 0x3d :: (ldbBinaryEncode value.data ++ 0x29 :: rest)) := by
      simp [ldbFilterFromTree]
    rw [hs]
    exact ldbParseFilter_leaf (by omega) (attrNameBytes_of_attrNameOk hp).1
      (by unfold SimpleStart; decide) (ldbParseSimple_compare hp value rest (.inl ⟨rfl, rfl, rfl⟩))
  | .less attr value, d, rest, hp, hd => by
    simp only [printable] at hp
    simp only [filterLevels] at hd
    have hs : ldbFilterFromTree (.less attr value) ++ rest = 0x28 :: (bytesOfString attr ++
        0x3c :: 0x3d :: (ldbBinaryEncode value.data ++ 0x29 :: rest)) := by
      simp [ldbFilterFromTree]
    rw [hs]
    exact ldbParseFilter_leaf (by omega) (attrNameBytes_of_attrNameOk hp).1
      (by unfold SimpleStart; decide)
      (ldbParseSimple_compare hp value rest (.inr (.inl ⟨rfl, rfl, rfl⟩)))
  | .present attr, d, rest, hp, hd => by
    simp only [printable] at hp
    simp only [filterLevels] at hd
    have hs : ldbFilterFromTree (.present attr) ++ rest =
        0x28 :: (bytesOfString attr ++ 0x3d :: 0x2a :: 0x29 :: rest) := by
      simp [ldbFilterFromTree]
    rw [hs]
    exact ldbParseFilter_leaf (by omega) (attrNameBytes_of_attrNameOk hp).1
      (by unfold SimpleStart; decide) (ldbParseSimple_present hp rest)
  | .approx attr value, d, rest, hp, hd => by
    simp only [printable] at hp
    simp only [filterLevels] at hd
    have hs : ldbFilterFromTree (.approx attr value) ++ rest = 0x28 :: (bytesOfString attr ++
        0x7e :: 0x3d :: (ldbBinaryEncode value.data ++ 0x29 :: rest)) := by
      simp [ldbFilterFromTree]
    rw [hs]
    exact ldbParseFilter_leaf (by omega) (attrNameBytes_of_attrNameOk hp).1
      (by unfold SimpleStart; decide)
      (ldbParseSimple_compare hp value rest (.inr (.inr ⟨rfl, rfl, rfl⟩)))
  | .extended attr dnAttributes ruleId value, d, rest, hp, hd => by
    simp only [printable, Bool.and_eq_true] at hp
    obtain ⟨hattr, hrule⟩ := hp
    simp only [filterLevels] at hd
    obtain ⟨t, ht⟩ : ∃ t, ruleBytes dnAttributes ruleId = 0x3a :: t :=
      List.head?_eq_some_iff.1 (head_ruleBytes hrule)
    have hs : ldbFilterFromTree (.extended attr dnAttributes ruleId value) ++ rest =
        0x28 :: ((attr.map bytesOfString).getD [] ++ (ruleBytes dnAttributes ruleId ++
          0x3a :: 0x3d :: (ldbBinaryEncode value.data ++ 0x29 :: rest))) := by
      cases ruleId <;> simp [ldbFilterFromTree, ruleBytes]
    have hsimple := ldbParseSimple_extended hattr hrule value rest
    rw [ht, List.cons_append] at hsimple
    rw [hs, ht, List.cons_append]
    exact ldbParseFilter_leaf (by omega) (attrNameBytes_of_all hattr).1
      (by unfold SimpleStart; decide) hsimple

theorem ldbParseFilterlistLoop_ldbFilterFromTreeList (maxDepth : Nat) :
    ∀ (trees : List LdbParseTree) (d : Nat) (rest : List UInt8), printableList trees = true →
      d + filterLevelsList trees ≤ maxDepth + 1 →
      result (ldbParseFilterlistLoop maxDepth d (ldbFilterFromTreeList trees ++ 0x29 :: rest)) =
        some (fillExtendedAttrList trees, 0x29 :: rest)
  | [], d, rest, _, _ => ldbParseFilterlistLoop_close maxDepth d rest
  | tree :: trees, d, rest, hp, hd => by
    simp only [printableList, Bool.and_eq_true] at hp
    simp only [filterLevelsList] at hd
    have hd' : d + filterLevels tree ≤ maxDepth + 1 ∧ d + filterLevelsList trees ≤ maxDepth + 1 := by
      omega
    have hnext := ldbParseFilter_ldbFilterFromTree maxDepth tree d
      (ldbFilterFromTreeList trees ++ 0x29 :: rest) hp.1 hd'.1
    rw [dropWhile_ldbFilterFromTreeList] at hnext
    have hloop := ldbParseFilterlistLoop_ldbFilterFromTreeList maxDepth trees d rest hp.2 hd'.2
    rw [← dropWhile_ldbFilterFromTreeList] at hloop
    obtain ⟨body, hbody⟩ := ldbFilterFromTree_cons tree
    rw [hbody, List.cons_append] at hnext
    rw [ldbFilterFromTreeList, List.append_assoc, hbody, List.cons_append]
    exact ldbParseFilterlistLoop_cons hnext hloop

end

theorem all_ne_zero_bytesOfString (s : String) : (bytesOfString s).all (· != 0) = true := by
  rw [List.all_eq_true]
  intro b hb
  rw [bytesOfString, cString] at hb
  have hne := List.mem_takeWhile_imp hb
  exact hne

theorem all_ne_zero_ldbBinaryEncode (v : List UInt8) : (ldbBinaryEncode v).all (· != 0) = true := by
  rw [List.all_eq_true]
  intro b hb
  simpa using (valueByte_of_mem_ldbBinaryEncode hb).2.2.1

theorem all_ne_zero_substringChunks (endWithWildcard : Bool) (chunks : List LdbVal) :
    (substringChunks endWithWildcard chunks).all (· != 0) = true := by
  rw [List.all_eq_true]
  intro b hb
  rcases mem_substringChunks hb with rfl | ⟨c, -, hb⟩
  · decide
  · exact List.all_eq_true.1 (all_ne_zero_ldbBinaryEncode c.data) b hb

mutual

theorem all_ne_zero_ldbFilterFromTree :
    ∀ tree : LdbParseTree, (ldbFilterFromTree tree).all (· != 0) = true
  | .and elements => by
    simp [ldbFilterFromTree, all_ne_zero_ldbFilterFromTreeList elements]
  | .or elements => by
    simp [ldbFilterFromTree, all_ne_zero_ldbFilterFromTreeList elements]
  | .not child => by
    simp [ldbFilterFromTree, all_ne_zero_ldbFilterFromTree child]
  | .equality attr value => by
    simp [ldbFilterFromTree, all_ne_zero_bytesOfString, all_ne_zero_ldbBinaryEncode]
  | .substring attr startWithWildcard endWithWildcard chunks => by
    cases startWithWildcard <;>
      simp [ldbFilterFromTree, all_ne_zero_bytesOfString, all_ne_zero_substringChunks]
  | .greater attr value => by
    simp [ldbFilterFromTree, all_ne_zero_bytesOfString, all_ne_zero_ldbBinaryEncode]
  | .less attr value => by
    simp [ldbFilterFromTree, all_ne_zero_bytesOfString, all_ne_zero_ldbBinaryEncode]
  | .present attr => by
    simp [ldbFilterFromTree, all_ne_zero_bytesOfString]
  | .approx attr value => by
    simp [ldbFilterFromTree, all_ne_zero_bytesOfString, all_ne_zero_ldbBinaryEncode]
  | .extended attr dnAttributes ruleId value => by
    cases attr <;> cases dnAttributes <;> cases ruleId <;>
      simp [ldbFilterFromTree, all_ne_zero_bytesOfString, all_ne_zero_ldbBinaryEncode]

theorem all_ne_zero_ldbFilterFromTreeList :
    ∀ trees : List LdbParseTree, (ldbFilterFromTreeList trees).all (· != 0) = true
  | [] => rfl
  | tree :: trees => by
    simp [ldbFilterFromTreeList, all_ne_zero_ldbFilterFromTree tree,
      all_ne_zero_ldbFilterFromTreeList trees]

end

theorem cString_append_of_all {l : List UInt8} (h : l.all (· != 0) = true) (r : List UInt8) :
    cString (l ++ r) = l ++ cString r := by
  rw [cString, cString, List.takeWhile_append_of_pos (List.all_eq_true.1 h)]

theorem ldbParseTree_of_ldbParseFilter {s : List UInt8} (hstart : byteAt (cString s) 0 = 0x28)
    {tree : LdbParseTree} {r : List UInt8}
    (h : result (ldbParseFilter ldbMaxParseTreeDepth 0 (cString s)) = some (tree, r)) :
    ldbParseTree s = some tree := by
  obtain ⟨hr, hres⟩ := result_eq_some.1 h
  have hne : cString s ≠ [] := by
    intro hnil
    rw [hnil] at hstart
    cases hstart
  rw [ldbParseTree, dropWhile_isSpace_self (by rw [hstart]; rfl)]
  rw [if_neg hne, if_pos hstart, hres]
  rfl

theorem ldbParseTree_ldbFilterFromTree_append {tree : LdbParseTree} (hp : printable tree = true)
    (hd : filterLevels tree ≤ 129) (rest : List UInt8) :
    ldbParseTree (ldbFilterFromTree tree ++ rest) = some (fillExtendedAttr tree) := by
  have hmain := ldbParseFilter_ldbFilterFromTree ldbMaxParseTreeDepth tree 0 (cString rest) hp
    (by rw [ldbMaxParseTreeDepth]; omega)
  have hc := cString_append_of_all (all_ne_zero_ldbFilterFromTree tree) rest
  rw [← hc] at hmain
  exact ldbParseTree_of_ldbParseFilter (by rw [hc, byteAt_ldbFilterFromTree_append]) hmain

theorem ldbParseTree_drops_second_filter {first : LdbParseTree} (hp : printable first = true)
    (hd : filterLevels first ≤ 129) (second : LdbParseTree) :
    ldbParseTree (ldbFilterFromTree first ++ ldbFilterFromTree second) =
      some (fillExtendedAttr first) :=
  ldbParseTree_ldbFilterFromTree_append hp hd (ldbFilterFromTree second)

theorem ldbParseTree_drops_second_filter_ab :
    ldbParseTree (ldbFilterFromTree (.equality "a" ⟨[0x62]⟩) ++
      ldbFilterFromTree (.equality "c" ⟨[0x64]⟩)) = some (.equality "a" ⟨[0x62]⟩) :=
  ldbParseTree_drops_second_filter (by decide) (by decide) _

theorem ldbParseTree_ldbFilterFromTree {tree : LdbParseTree} (hp : printable tree = true)
    (hd : filterLevels tree ≤ 129) :
    ldbParseTree (ldbFilterFromTree tree) = some (fillExtendedAttr tree) := by
  simpa using ldbParseTree_ldbFilterFromTree_append hp hd []

theorem ldbParseTree_ldbFilterFromTree_mixed :
    ldbParseTree (ldbFilterFromTree (.and [.extended none true (some "a=b") ⟨[0x2a, 0x29, 0]⟩,
      .not (.substring "@cn" true false [⟨[0x61]⟩, ⟨[0x28, 0x5c]⟩])])) =
    some (.and [.extended (some "") true (some "a=b") ⟨[0x2a, 0x29, 0]⟩,
      .not (.substring "@cn" true false [⟨[0x61]⟩, ⟨[0x28, 0x5c]⟩])]) :=
  ldbParseTree_ldbFilterFromTree (by decide) (by decide)

theorem ldbParseTree_ruleId_colonEquals :
    ldbParseTree (ldbFilterFromTree (.extended (some "x") true (some "a:=b") ⟨[0x76]⟩)) =
        some (.extended (some "x") true (some "a") ⟨[0x62, 0x3a, 0x3d, 0x76]⟩) ∧
      ldbParseTree (ldbFilterFromTree (.extended (some "x") true (some "a:=b") ⟨[0x76]⟩)) ≠
        some (fillExtendedAttr (.extended (some "x") true (some "a:=b") ⟨[0x76]⟩)) := by
  have hprint : ldbFilterFromTree (.extended (some "x") true (some "a:=b") ⟨[0x76]⟩) =
      [0x28, 0x78, 0x3a, 0x64, 0x6e, 0x3a, 0x61, 0x3a, 0x3d, 0x62, 0x3a, 0x3d, 0x76, 0x29] := by
    decide
  have hft : ldbParseFiltertype [0x78, 0x3a, 0x64, 0x6e, 0x3a, 0x61, 0x3a, 0x3d, 0x62, 0x3a, 0x3d,
      0x76, 0x29] = some (.extended, [0x78, 0x3a, 0x64, 0x6e, 0x3a, 0x61], [0x62, 0x3a, 0x3d, 0x76],
      [0x29]) := by
    decide
  have hdecode : ldbBinaryDecode [0x62, 0x3a, 0x3d, 0x76] = some [0x62, 0x3a, 0x3d, 0x76] := by
    have h := ldbBinaryDecode_ldbBinaryEncode [0x62, 0x3a, 0x3d, 0x76]
    rwa [show ldbBinaryEncode [0x62, 0x3a, 0x3d, 0x76] = [0x62, 0x3a, 0x3d, 0x76] by decide] at h
  have hsimple : ldbParseSimple [0x78, 0x3a, 0x64, 0x6e, 0x3a, 0x61, 0x3a, 0x3d, 0x62, 0x3a, 0x3d,
      0x76, 0x29] = some (.extended (some "x") true (some "a") ⟨[0x62, 0x3a, 0x3d, 0x76]⟩, [0x29]) := by
    have hx : stringOfBytes [0x78] = "x" := by decide
    have ha : stringOfBytes [0x61] = "a" := by decide
    rw [ldbParseSimple, hft]
    simp [ldbParseExtended, hdecode, List.idxOf?_cons, hx, ha]
  have hfilter := ldbParseFilter_step (by decide : 0 ≤ ldbMaxParseTreeDepth)
    (ldbParseFiltercomp_simple (by unfold SimpleStart; decide) hsimple)
  have hc : cString (ldbFilterFromTree (.extended (some "x") true (some "a:=b") ⟨[0x76]⟩)) =
      [0x28, 0x78, 0x3a, 0x64, 0x6e, 0x3a, 0x61, 0x3a, 0x3d, 0x62, 0x3a, 0x3d, 0x76, 0x29] := by
    rw [hprint]
    decide
  have hparse := ldbParseTree_of_ldbParseFilter (by rw [hc]; rfl) (by rw [hc]; exact hfilter)
  refine ⟨hparse, ?_⟩
  rw [hparse]
  intro h
  simp [fillExtendedAttr] at h

end Samba.Ldb.ParseRoundTrip
