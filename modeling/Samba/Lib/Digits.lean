import Samba.Lib.CString

namespace Samba.Lib.Digits

open Samba.Lib.CString

def isDigitOf (base : Nat) (c : UInt8) : Bool := (digitIn base c).isSome

def digitsValue (base : Nat) (ds : List UInt8) (acc : Nat) : Nat :=
  ds.foldl (fun a c ↦ a * base + (digitIn base c).getD 0) acc

def formatIn (base n : Nat) : List UInt8 := (Nat.toDigits base n).map fun c ↦ c.toNat.toUInt8

def digitByte (d : Nat) : UInt8 := d.digitChar.toNat.toUInt8

theorem formatUnsigned_eq (n : Nat) : formatUnsigned n = formatIn 10 n := rfl

theorem formatHex_eq (n : Nat) : formatHex n = formatIn 16 n := rfl

section Value

variable {base : Nat}

theorem digitsValue_append (xs ys : List UInt8) (acc : Nat) :
    digitsValue base (xs ++ ys) acc = digitsValue base ys (digitsValue base xs acc) :=
  List.foldl_append

theorem le_digitsValue (hb : 0 < base) (ds : List UInt8) (acc : Nat) :
    acc ≤ digitsValue base ds acc := by
  induction ds generalizing acc with
  | nil => exact Nat.le_refl acc
  | cons c ds ih =>
    have hstep : acc ≤ acc * base + (digitIn base c).getD 0 :=
      Nat.le_add_right_of_le (Nat.le_mul_of_pos_right acc hb)
    exact hstep.trans (ih _)

-- equation lemmas made once, before the proofs below use them in parallel
attribute [local simp] Samba.Lib.CString.digitIn.eq_1 Samba.Lib.CString.strtoull.eq_1
  Samba.Lib.CString.strtoullErange.eq_1 isDigitOf.eq_1 digitsValue.eq_1 formatIn.eq_1
attribute [-simp] Samba.Lib.CString.digitIn.eq_1 Samba.Lib.CString.strtoull.eq_1
  Samba.Lib.CString.strtoullErange.eq_1 isDigitOf.eq_1 digitsValue.eq_1 formatIn.eq_1

theorem readDigits_eq (hb : 0 < base) (cs : List UInt8) {acc : Nat} (hacc : acc ≤ 2 ^ 64) :
    readDigits base cs acc =
      (min (digitsValue base (cs.takeWhile (isDigitOf base)) acc) (2 ^ 64),
        (cs.takeWhile (isDigitOf base)).length) := by
  induction cs generalizing acc with
  | nil =>
    simp only [readDigits, List.takeWhile_nil, digitsValue, List.foldl_nil, List.length_nil,
      Nat.min_eq_left hacc]
  | cons c cs ih =>
    unfold readDigits
    cases hd : digitIn base c with
    | none =>
      have hc : ¬ isDigitOf base c = true := by simp [isDigitOf, hd]
      simp only [List.takeWhile_cons_of_neg hc, digitsValue, List.foldl_nil, List.length_nil,
        Nat.min_eq_left hacc]
    | some d =>
      have hc : isDigitOf base c = true := by simp [isDigitOf, hd]
      dsimp only
      rw [ih (Nat.min_le_right _ _), List.takeWhile_cons_of_pos hc, List.length_cons]
      congr 1
      have hv : digitsValue base (c :: cs.takeWhile (isDigitOf base)) acc =
          digitsValue base (cs.takeWhile (isDigitOf base)) (acc * base + d) := by
        simp [digitsValue, hd]
      rw [hv]
      by_cases hle : acc * base + d ≤ 2 ^ 64
      · rw [Nat.min_eq_left hle]
      · have h1 := le_digitsValue hb (cs.takeWhile (isDigitOf base)) (2 ^ 64)
        have h2 := le_digitsValue hb (cs.takeWhile (isDigitOf base)) (acc * base + d)
        have hm : min (acc * base + d) (2 ^ 64) = 2 ^ 64 := Nat.min_eq_right (by omega)
        rw [hm, Nat.min_eq_right h1, Nat.min_eq_right (by omega)]

end Value

section Format

variable {base : Nat}

theorem digitIn_digitByte (hb : base = 10 ∨ base = 16) {d : Nat} (hd : d < base) :
    digitIn base (digitByte d) = some d := by
  rcases hb with rfl | rfl <;> revert d <;> decide

theorem formatIn_eq (hb : 1 < base) (n : Nat) :
    formatIn base n =
      (if n < base then [] else formatIn base (n / base)) ++ [digitByte (n % base)] := by
  unfold formatIn
  rw [Nat.toDigits_eq_if hb]
  split_ifs with h
  · simp [digitByte, Nat.mod_eq_of_lt h]
  · simp [digitByte]

theorem formatIn_ne_nil (n : Nat) : formatIn base n ≠ [] := by
  simp [formatIn]

theorem isDigitOf_of_mem_formatIn (hb : base = 10 ∨ base = 16) (n : Nat) :
    ∀ c ∈ formatIn base n, isDigitOf base c = true := by
  have hb1 : 1 < base := by omega
  induction n using Nat.strong_induction_on with
  | _ n ih =>
    intro c hc
    rw [formatIn_eq hb1] at hc
    rcases List.mem_append.1 hc with hc | hc
    · split_ifs at hc with hn
      · simp at hc
      · exact ih (n / base) (Nat.div_lt_self (by omega) hb1) c hc
    · rw [List.mem_singleton.1 hc, isDigitOf, digitIn_digitByte hb (Nat.mod_lt n (by omega))]
      rfl

theorem digitsValue_formatIn (hb : base = 10 ∨ base = 16) (n : Nat) :
    digitsValue base (formatIn base n) 0 = n := by
  have hb1 : 1 < base := by omega
  induction n using Nat.strong_induction_on with
  | _ n ih =>
    have hlast : ∀ acc, digitsValue base [digitByte (n % base)] acc = acc * base + n % base := by
      intro acc
      simp [digitsValue, digitIn_digitByte hb (Nat.mod_lt n (by omega))]
    rw [formatIn_eq hb1, digitsValue_append, hlast]
    split_ifs with hn
    · simp [digitsValue, Nat.mod_eq_of_lt hn]
    · rw [ih (n / base) (Nat.div_lt_self (by omega) hb1)]
      exact Nat.div_add_mod' n base

theorem length_formatIn_le (hb : 1 < base) {n k : Nat} (hk : 0 < k) (h : n < base ^ k) :
    (formatIn base n).length ≤ k := by
  rw [formatIn, List.length_map]
  exact (Nat.length_toDigits_le_iff hb hk).2 h

theorem formatIn_zero (hb : 1 < base) : formatIn base 0 = [0x30] := by
  rw [formatIn_eq hb, if_pos (by omega)]
  rfl

theorem head_formatIn (hb : base = 10 ∨ base = 16) {n : Nat} (hn : 0 < n) :
    ∃ d rest, formatIn base n = digitByte d :: rest ∧ 0 < d ∧ d < base := by
  have hb1 : 1 < base := by omega
  induction n using Nat.strong_induction_on with
  | _ n ih =>
    rw [formatIn_eq hb1]
    split_ifs with hlt
    · exact ⟨n, [], by simp [Nat.mod_eq_of_lt hlt], hn, hlt⟩
    · obtain ⟨d, rest, h, hd⟩ :=
        ih (n / base) (Nat.div_lt_self hn hb1) (Nat.div_pos (by omega) (by omega))
      exact ⟨d, rest ++ [digitByte (n % base)], by rw [h, List.cons_append], hd⟩

theorem digitByte_ne_zero (hb : base = 10 ∨ base = 16) {d : Nat} (hd : d < base) (hd0 : 0 < d) :
    digitByte d ≠ 0x30 := by
  intro h
  have hdig := digitIn_digitByte hb hd
  have h48 : digitIn base 0x30 = some 0 := by rcases hb with rfl | rfl <;> decide
  rw [h, h48] at hdig
  have := Option.some.inj hdig
  omega

end Format

section Read

def ullongOf (v : Nat) : UInt64 := if 2 ^ 64 ≤ v then UInt64.ofNat (2 ^ 64 - 1) else UInt64.ofNat v

attribute [local simp] ullongOf.eq_1
attribute [-simp] ullongOf.eq_1

theorem ullongOf_min (v : Nat) : ullongOf (min v (2 ^ 64)) = ullongOf v := by
  unfold ullongOf
  by_cases h : 2 ^ 64 ≤ v
  · rw [Nat.min_eq_right h, if_pos (Nat.le_refl _), if_pos h]
  · rw [Nat.min_eq_left (by omega)]

theorem contains_minus_eq_false {base : Nat} (hb : base ≤ 36) {ds : List UInt8}
    (hds : ∀ c ∈ ds, isDigitOf base c = true) : ds.contains 0x2d = false := by
  apply Bool.eq_false_iff.2
  intro h
  have hmem : (0x2d : UInt8) ∈ ds := List.elem_iff.1 h
  have := hds _ hmem
  simp [isDigitOf, digitIn] at this
  omega

theorem isDigit_iff {c : UInt8} : isDigit c = true ↔ 0x30 ≤ c.toNat ∧ c.toNat ≤ 0x39 := by
  simp [isDigit, UInt8.le_iff_toNat_le]

theorem isSpace_of_isDigit {c : UInt8} (hc : isDigit c = true) : isSpace c = false := by
  have := isDigit_iff.1 hc
  simp only [isSpace, Bool.or_eq_false_iff, beq_eq_false_iff_ne, ne_eq, Bool.and_eq_false_iff,
    decide_eq_false_iff_not, UInt8.le_iff_toNat_le, ← UInt8.toNat_inj]
  simp
  omega

theorem digitIn_of_isDigit {base : Nat} {c : UInt8} (hc : isDigit c = true) :
    digitIn base c = if c.toNat - 0x30 < base then some (c.toNat - 0x30) else none := by
  have h : (0x30 : UInt8) ≤ c ∧ c ≤ 0x39 := by simpa [isDigit] using hc
  unfold digitIn
  rw [if_pos h]

theorem digitIn_of_not_isDigit {base : Nat} (hb : base ≤ 10) {c : UInt8} (hc : isDigit c = false) :
    digitIn base c = none := by
  have h : ¬ ((0x30 : UInt8) ≤ c ∧ c ≤ 0x39) := by simpa [isDigit] using hc
  unfold digitIn
  rw [if_neg h]
  split_ifs <;> exact if_neg (by omega)

theorem isDigitOf_ten_eq (c : UInt8) : isDigitOf 10 c = isDigit c := by
  cases hc : isDigit c with
  | true =>
    have := isDigit_iff.1 hc
    rw [isDigitOf, digitIn_of_isDigit hc, if_pos (by omega)]
    rfl
  | false => rw [isDigitOf, digitIn_of_not_isDigit (Nat.le_refl 10) hc]; rfl

theorem decimal_lead {c : UInt8} (hc : isDigit c = true) (hc0 : c ≠ 0x30) :
    c = 0x31 ∨ c = 0x32 ∨ c = 0x33 ∨ c = 0x34 ∨ c = 0x35 ∨ c = 0x36 ∨ c = 0x37 ∨ c = 0x38 ∨
      c = 0x39 := by
  have := isDigit_iff.1 hc
  simp only [ne_eq, ← UInt8.toNat_inj, UInt8.reduceToNat] at hc0 ⊢
  omega

theorem take_length_takeWhile {α : Type} (p : α → Bool) (l : List α) :
    l.take (l.takeWhile p).length = l.takeWhile p := by
  induction l with
  | nil => rfl
  | cons a l ih => by_cases h : p a <;> simp [h, ih]

theorem drop_length_takeWhile {α : Type} (p : α → Bool) (l : List α) :
    l.drop (l.takeWhile p).length = l.dropWhile p := by
  induction l with
  | nil => rfl
  | cons a l ih => by_cases h : p a <;> simp [h, ih]

theorem readDigits_cons_pos {base : Nat} (hb : 0 < base) {c : UInt8} (hc : isDigitOf base c = true)
    (t : List UInt8) : (readDigits base (c :: t) 0).2 ≠ 0 := by
  rw [readDigits_eq hb _ (Nat.zero_le _), List.takeWhile_cons_of_pos hc]
  simp

theorem strtoull_decimal {c : UInt8} (hc : isDigit c = true) (hc0 : c ≠ 0x30) (t : List UInt8) :
    strtoull (c :: t) =
      ((if 2 ^ 64 ≤ (readDigits 10 (c :: t) 0).1 then UInt64.ofNat (2 ^ 64 - 1)
        else UInt64.ofNat (readDigits 10 (c :: t) 0).1), (readDigits 10 (c :: t) 0).2) := by
  have hk := readDigits_cons_pos (show 0 < 10 by decide) (by rw [isDigitOf_ten_eq]; exact hc) t
  rcases decimal_lead hc hc0 with rfl | rfl | rfl | rfl | rfl | rfl | rfl | rfl | rfl <;>
    simp [strtoull, hk, isSpace]

theorem strtoullErange_decimal {c : UInt8} (hc : isDigit c = true) (hc0 : c ≠ 0x30)
    (t : List UInt8) :
    strtoullErange (c :: t) = decide (2 ^ 64 ≤ (readDigits 10 (c :: t) 0).1) := by
  rcases decimal_lead hc hc0 with rfl | rfl | rfl | rfl | rfl | rfl | rfl | rfl | rfl <;>
    simp [strtoullErange, isSpace]

theorem strtoull_hex {x h : UInt8} (hx : x = 0x78 ∨ x = 0x58) (hh : isDigitOf 16 h = true)
    (t : List UInt8) :
    strtoull (0x30 :: x :: h :: t) =
      ((if 2 ^ 64 ≤ (readDigits 16 (h :: t) 0).1 then UInt64.ofNat (2 ^ 64 - 1)
        else UInt64.ofNat (readDigits 16 (h :: t) 0).1), (readDigits 16 (h :: t) 0).2 + 2) := by
  have hk := readDigits_cons_pos (show 0 < 16 by decide) hh t
  have hh' : (digitIn 16 h).isSome = true := hh
  rcases hx with rfl | rfl <;> simp [strtoull, hk, isSpace, hh'] <;> omega

theorem strtoullErange_hex {x h : UInt8} (hx : x = 0x78 ∨ x = 0x58) (hh : isDigitOf 16 h = true)
    (t : List UInt8) :
    strtoullErange (0x30 :: x :: h :: t) = decide (2 ^ 64 ≤ (readDigits 16 (h :: t) 0).1) := by
  have hh' : (digitIn 16 h).isSome = true := hh
  rcases hx with rfl | rfl <;> simp [strtoullErange, isSpace, hh']

theorem isDigitOf_eight_of_isDigit {c : UInt8} (h : isDigit c = false) : isDigitOf 8 c = false := by
  rw [isDigitOf, digitIn_of_not_isDigit (by decide) h]
  rfl

theorem strtoull_zero {t : List UInt8} (ht : ∀ c ∈ t.head?, isDigit c = false)
    (hx : ∀ x h r, t = x :: h :: r → (x = 0x78 ∨ x = 0x58) → isDigitOf 16 h = false) :
    strtoull (0x30 :: t) = (0, 1) ∧ strtoullErange (0x30 :: t) = false := by
  have h8 : readDigits 8 (0x30 :: t) 0 = (0, 1) := by
    have hrest : t.takeWhile (isDigitOf 8) = [] := by
      cases t with
      | nil => rfl
      | cons c r => simp [isDigitOf_eight_of_isDigit (ht c rfl)]
    rw [readDigits_eq (by decide) _ (by decide),
      List.takeWhile_cons_of_pos (show isDigitOf 8 0x30 = true by decide), hrest]
    decide
  match t, hx with
  | [], _ => decide
  | [c], _ => simp [strtoull, strtoullErange, isSpace, h8]
  | x :: h :: r, hx =>
    have hpre : ((x == 0x78 || x == 0x58) && (digitIn 16 h).isSome) = false := by
      by_cases hxx : x = 0x78 ∨ x = 0x58
      · have := hx x h r rfl hxx
        simp only [isDigitOf] at this
        simp [this]
      · simp only [not_or] at hxx
        simp [hxx.1, hxx.2]
    simp [strtoull, strtoullErange, isSpace, hpre, h8]

theorem smbStrtoull_decimal {c : UInt8} (hc : isDigit c = true) (hc0 : c ≠ 0x30) (t : List UInt8) :
    smbStrtoull (c :: t) =
      (ullongOf (digitsValue 10 ((c :: t).takeWhile (isDigitOf 10)) 0),
        ((c :: t).takeWhile (isDigitOf 10)).length,
        decide (2 ^ 64 ≤ digitsValue 10 ((c :: t).takeWhile (isDigitOf 10)) 0)) := by
  have hk := readDigits_cons_pos (show 0 < 10 by decide) (by rw [isDigitOf_ten_eq]; exact hc) t
  unfold smbStrtoull
  rw [strtoull_decimal hc hc0, strtoullErange_decimal hc hc0]
  rw [readDigits_eq (by decide) _ (by decide)] at hk ⊢
  simp only [take_length_takeWhile, contains_minus_eq_false (show 10 ≤ 36 by decide)
    (fun c hc ↦ List.mem_takeWhile_imp hc)]
  refine Prod.ext (ullongOf_min _) (Prod.ext rfl ?_)
  simp [hk]

theorem smbStrtoull_hex {x h : UInt8} (hx : x = 0x78 ∨ x = 0x58) (hh : isDigitOf 16 h = true)
    (t : List UInt8) :
    smbStrtoull (0x30 :: x :: h :: t) =
      (ullongOf (digitsValue 16 ((h :: t).takeWhile (isDigitOf 16)) 0),
        ((h :: t).takeWhile (isDigitOf 16)).length + 2,
        decide (2 ^ 64 ≤ digitsValue 16 ((h :: t).takeWhile (isDigitOf 16)) 0)) := by
  have hdigits : ∀ c ∈ (h :: t).takeWhile (isDigitOf 16), isDigitOf 16 c = true :=
    fun c hc ↦ List.mem_takeWhile_imp hc
  have hprefix : (0x30 :: x :: (h :: t).takeWhile (isDigitOf 16)).contains 0x2d = false := by
    have hne : ((h :: t).takeWhile (isDigitOf 16)).contains 0x2d = false :=
      contains_minus_eq_false (show 16 ≤ 36 by decide) hdigits
    rcases hx with rfl | rfl <;> simpa using hne
  unfold smbStrtoull
  rw [strtoull_hex hx hh, strtoullErange_hex hx hh, readDigits_eq (by decide) _ (by decide)]
  refine Prod.ext (ullongOf_min _) (Prod.ext rfl ?_)
  have htake : (0x30 :: x :: h :: t).take (((h :: t).takeWhile (isDigitOf 16)).length + 2) =
      0x30 :: x :: (h :: t).takeWhile (isDigitOf 16) := by
    rw [List.take_succ_cons, List.take_succ_cons, take_length_takeWhile]
  simp only [htake, hprefix]
  simp

theorem smbStrtoull_zero {t : List UInt8} (ht : ∀ c ∈ t.head?, isDigit c = false)
    (hx : ∀ x h r, t = x :: h :: r → (x = 0x78 ∨ x = 0x58) → isDigitOf 16 h = false) :
    smbStrtoull (0x30 :: t) = (0, 1, false) := by
  obtain ⟨h1, h2⟩ := strtoull_zero ht hx
  unfold smbStrtoull
  rw [h1, h2]
  rfl

theorem smbStrtoul_ten {c : UInt8} (hc : isDigit c = true) (t : List UInt8) :
    smbStrtoul 10 (c :: t) =
      (ullongOf (digitsValue 10 ((c :: t).takeWhile (isDigitOf 10)) 0),
        ((c :: t).takeWhile (isDigitOf 10)).length,
        decide (2 ^ 64 ≤ digitsValue 10 ((c :: t).takeWhile (isDigitOf 10)) 0)) := by
  have hk := readDigits_cons_pos (show 0 < 10 by decide) (by rw [isDigitOf_ten_eq]; exact hc) t
  have hneg : c ≠ 0x2d := by rintro rfl; exact absurd hc (by decide)
  have hpos : c ≠ 0x2b := by rintro rfl; exact absurd hc (by decide)
  have hstrtoul : strtoul 10 (c :: t) =
      (ullongOf (readDigits 10 (c :: t) 0).1, (readDigits 10 (c :: t) 0).2,
        decide (2 ^ 64 ≤ (readDigits 10 (c :: t) 0).1)) := by
    unfold strtoul
    simp only [List.takeWhile_cons, isSpace_of_isDigit hc, Bool.false_eq_true, ↓reduceIte,
      List.length_nil, List.drop_zero]
    split
    · rename_i h; cases h; exact absurd rfl hneg
    · rename_i h; cases h; exact absurd rfl hpos
    · simp only [List.drop_zero, Nat.zero_add, Bool.false_eq_true, ↓reduceIte]
      rw [if_neg hk]
      unfold ullongOf
      split_ifs with hv
      · exact Prod.ext rfl (Prod.ext rfl (decide_eq_true hv).symm)
      · exact Prod.ext rfl (Prod.ext rfl (decide_eq_false hv).symm)
  unfold smbStrtoul
  rw [hstrtoul]
  rw [readDigits_eq (by decide) _ (by decide)] at hk ⊢
  simp only [take_length_takeWhile, contains_minus_eq_false (show 10 ≤ 36 by decide)
    (fun c hc ↦ List.mem_takeWhile_imp hc)]
  refine Prod.ext (ullongOf_min _) (Prod.ext rfl ?_)
  simp [hk]

end Read

section Printed

theorem takeWhile_formatIn_append {base : Nat} (hb : base = 10 ∨ base = 16) (n : Nat)
    {rest : List UInt8} (hrest : ∀ c ∈ rest.head?, c = 0x2d) :
    (formatIn base n ++ rest).takeWhile (isDigitOf base) = formatIn base n := by
  rw [List.takeWhile_append_of_pos (isDigitOf_of_mem_formatIn hb n)]
  cases rest with
  | nil => simp
  | cons c rest =>
    rw [hrest c rfl]
    have : isDigitOf base 0x2d = false := by rcases hb with rfl | rfl <;> decide
    simp [this]

theorem ullongOf_of_lt {v : Nat} (h : v < 2 ^ 64) : ullongOf v = UInt64.ofNat v := by
  rw [ullongOf, if_neg (by omega)]

theorem smbStrtoul_formatUnsigned {n : Nat} (hn : n < 2 ^ 64) {rest : List UInt8}
    (hrest : ∀ c ∈ rest.head?, c = 0x2d) :
    smbStrtoul 10 (formatUnsigned n ++ rest) =
      (UInt64.ofNat n, (formatUnsigned n).length, false) := by
  obtain ⟨c, t, hct⟩ := List.exists_cons_of_ne_nil (formatIn_ne_nil n : formatIn 10 n ≠ [])
  have hc : isDigit c = true := by
    rw [← isDigitOf_ten_eq]
    exact isDigitOf_of_mem_formatIn (Or.inl rfl) n c (by rw [hct]; exact List.mem_cons_self)
  have htake := takeWhile_formatIn_append (Or.inl rfl) n hrest
  rw [formatUnsigned_eq, hct, List.cons_append, smbStrtoul_ten hc, ← List.cons_append, ← hct, htake,
    digitsValue_formatIn (Or.inl rfl), ullongOf_of_lt hn]
  exact Prod.ext rfl (Prod.ext rfl (decide_eq_false (by omega)))

theorem smbStrtoull_formatUnsigned {n : Nat} (hn : n < 2 ^ 64) {rest : List UInt8}
    (hrest : ∀ c ∈ rest.head?, c = 0x2d) :
    smbStrtoull (formatUnsigned n ++ rest) =
      (UInt64.ofNat n, (formatUnsigned n).length, false) := by
  rcases Nat.eq_zero_or_pos n with rfl | hpos
  · rw [formatUnsigned_eq, formatIn_zero (by decide), List.singleton_append]
    refine smbStrtoull_zero (fun c hc ↦ ?_) (fun x h r hr hx ↦ ?_)
    · rw [hrest c hc]
      rfl
    · rw [hrest x (by rw [hr]; rfl)] at hx
      rcases hx with hx | hx <;> exact absurd hx (by decide)
  · obtain ⟨d, t, hdt, hd0, hd⟩ := head_formatIn (Or.inl rfl) hpos
    have hc : isDigit (digitByte d) = true := by
      rw [← isDigitOf_ten_eq, isDigitOf, digitIn_digitByte (Or.inl rfl) hd]
      rfl
    have hc0 := digitByte_ne_zero (Or.inl rfl) hd hd0
    have htake := takeWhile_formatIn_append (Or.inl rfl) n hrest
    rw [formatUnsigned_eq, hdt, List.cons_append, smbStrtoull_decimal hc hc0, ← List.cons_append,
      ← hdt, htake, digitsValue_formatIn (Or.inl rfl), ullongOf_of_lt hn]
    exact Prod.ext rfl (Prod.ext rfl (decide_eq_false (by omega)))

theorem smbStrtoull_formatHex {n : Nat} (hn : n < 2 ^ 64) {rest : List UInt8}
    (hrest : ∀ c ∈ rest.head?, c = 0x2d) :
    smbStrtoull ([0x30, 0x78] ++ formatHex n ++ rest) =
      (UInt64.ofNat n, (formatHex n).length + 2, false) := by
  obtain ⟨h, t, hht⟩ := List.exists_cons_of_ne_nil (formatIn_ne_nil n : formatIn 16 n ≠ [])
  have hh : isDigitOf 16 h = true :=
    isDigitOf_of_mem_formatIn (Or.inr rfl) n h (by rw [hht]; exact List.mem_cons_self)
  have htake := takeWhile_formatIn_append (Or.inr rfl) n hrest
  simp only [formatHex_eq, hht, List.cons_append, List.nil_append]
  rw [smbStrtoull_hex (Or.inl rfl) hh, ← List.cons_append, ← hht, htake,
    digitsValue_formatIn (Or.inr rfl), ullongOf_of_lt hn]
  exact Prod.ext rfl (Prod.ext rfl (decide_eq_false (by omega)))

end Printed

end Samba.Lib.Digits
