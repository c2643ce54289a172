import Samba.Lib.Utf8

namespace Samba.Charset.Iconv

open Samba.Lib.Utf8

inductive Errno
  | eilseq | e2big | einval
  deriving DecidableEq, Repr

structure ConvResult where
  errno : Option Errno
  out : List UInt8
  inLeft : Nat
  outLeft : Nat
  deriving DecidableEq, Repr

def ConvResult.emit (bytes : List UInt8) (r : ConvResult) : ConvResult :=
  { r with out := bytes ++ r.out }

def convError (e : Errno) (c : List UInt8) (outLeft : Nat) : ConvResult :=
  ⟨some e, [], c.length, outLeft⟩

/-- `utf8_pull` from the input `c` with `outLeft` octets of room. -/
def utf8Pull : List UInt8 → Nat → ConvResult
  | [], outLeft => ⟨none, [], 0, outLeft⟩
  | c0 :: rest, outLeft =>
    if outLeft < 2 then convError .e2big (c0 :: rest) outLeft
    else if c0.toNat &&& 0x80 = 0 then (utf8Pull rest (outLeft - 2)).emit [c0, 0]
    else if c0.toNat &&& 0xe0 = 0xc0 then
      match rest with
      | c1 :: tail =>
        if c1.toNat &&& 0xc0 ≠ 0x80 then convError .eilseq (c0 :: rest) outLeft
        else
          let uc1 := ((c0.toNat >>> 2) &&& 0x7).toUInt8
          let uc0 := ((c0.toNat <<< 6) ||| (c1.toNat &&& 0x3f)).toUInt8
          if uc1 = 0 ∧ uc0 < 0x80 then convError .eilseq (c0 :: rest) outLeft
          else (utf8Pull tail (outLeft - 2)).emit [uc0, uc1]
      | [] => convError .eilseq (c0 :: rest) outLeft
    else if c0.toNat &&& 0xf0 = 0xe0 then
      match rest with
      | c1 :: c2 :: tail =>
        if c1.toNat &&& 0xc0 ≠ 0x80 ∨ c2.toNat &&& 0xc0 ≠ 0x80 then convError .eilseq (c0 :: rest) outLeft
        else
          let codepoint := (c2.toNat &&& 0x3f) ||| ((c1.toNat &&& 0x3f) <<< 6) |||
            ((c0.toNat &&& 0x0f) <<< 12)
          if codepoint < 0x800 then convError .eilseq (c0 :: rest) outLeft
          else if 0xd800 ≤ codepoint ∧ codepoint ≤ 0xdfff then convError .eilseq (c0 :: rest) outLeft
          else (utf8Pull tail (outLeft - 2)).emit [(codepoint &&& 0xff).toUInt8, (codepoint >>> 8).toUInt8]
      | _ => convError .eilseq (c0 :: rest) outLeft
    else if c0.toNat &&& 0xf8 = 0xf0 then
      match rest with
      | c1 :: c2 :: c3 :: tail =>
        if c1.toNat &&& 0xc0 ≠ 0x80 ∨ c2.toNat &&& 0xc0 ≠ 0x80 ∨ c3.toNat &&& 0xc0 ≠ 0x80 then
          convError .eilseq (c0 :: rest) outLeft
        else
          let codepoint := (c3.toNat &&& 0x3f) ||| ((c2.toNat &&& 0x3f) <<< 6) |||
            ((c1.toNat &&& 0x3f) <<< 12) ||| ((c0.toNat &&& 0x7) <<< 18)
          if codepoint < 0x10000 then convError .eilseq (c0 :: rest) outLeft
          else if codepoint > 0x10ffff then convError .eilseq (c0 :: rest) outLeft
          else
            let codepoint := codepoint - 0x10000
            if outLeft < 4 then convError .e2big (c0 :: rest) outLeft
            else
              (utf8Pull tail (outLeft - 4)).emit
                [((codepoint >>> 10) &&& 0xff).toUInt8, ((codepoint >>> 18) ||| 0xd8).toUInt8,
                  (codepoint &&& 0xff).toUInt8, (((codepoint >>> 8) &&& 0x3) ||| 0xdc).toUInt8]
      | _ => convError .eilseq (c0 :: rest) outLeft
    else convError .einval (c0 :: rest) outLeft

/-- `utf8_push` from the input `uc` with `outLeft` octets of room. A lone low
surrogate reports `EINVAL` when fewer than four octets are left, as built
without `HAVE_ICONV_ERRNO_ILLEGAL_MULTIBYTE`. -/
def utf8Push : List UInt8 → Nat → ConvResult
  | [], outLeft => ⟨none, [], 0, outLeft⟩
  | [uc0], outLeft => convError .einval [uc0] outLeft
  | uc0 :: uc1 :: rest, outLeft =>
    if outLeft < 1 then convError .e2big (uc0 :: uc1 :: rest) outLeft
    else if uc1 = 0 ∧ uc0.toNat &&& 0x80 = 0 then (utf8Push rest (outLeft - 1)).emit [uc0]
    else if uc1.toNat &&& 0xf8 = 0 then
      if outLeft < 2 then convError .e2big (uc0 :: uc1 :: rest) outLeft
      else
        (utf8Push rest (outLeft - 2)).emit
          [(0xc0 ||| (uc0.toNat >>> 6) ||| (uc1.toNat <<< 2)).toUInt8,
            (0x80 ||| (uc0.toNat &&& 0x3f)).toUInt8]
    else if uc1.toNat &&& 0xfc = 0xdc then
      convError (if (uc0 :: uc1 :: rest).length < 4 then .einval else .eilseq) (uc0 :: uc1 :: rest)
        outLeft
    else if uc1.toNat &&& 0xfc ≠ 0xd8 then
      let codepoint := uc0.toNat ||| (uc1.toNat <<< 8)
      if outLeft < 3 then convError .e2big (uc0 :: uc1 :: rest) outLeft
      else
        (utf8Push rest (outLeft - 3)).emit
          [(0xe0 ||| (codepoint >>> 12)).toUInt8, (0x80 ||| ((codepoint >>> 6) &&& 0x3f)).toUInt8,
            (0x80 ||| (codepoint &&& 0x3f)).toUInt8]
    else
      match rest with
      | uc2 :: uc3 :: tail =>
        if uc3.toNat &&& 0xfc ≠ 0xdc then convError .eilseq (uc0 :: uc1 :: rest) outLeft
        else
          let codepoint := 0x10000 + (uc2.toNat ||| ((uc3.toNat &&& 0x3) <<< 8) |||
            (uc0.toNat <<< 10) ||| ((uc1.toNat &&& 0x3) <<< 18))
          if outLeft < 4 then convError .e2big (uc0 :: uc1 :: rest) outLeft
          else
            (utf8Push tail (outLeft - 4)).emit
              [(0xf0 ||| (codepoint >>> 18)).toUInt8, (0x80 ||| ((codepoint >>> 12) &&& 0x3f)).toUInt8,
                (0x80 ||| ((codepoint >>> 6) &&& 0x3f)).toUInt8, (0x80 ||| (codepoint &&& 0x3f)).toUInt8]
      | _ => convError .einval (uc0 :: uc1 :: rest) outLeft

def sampleUtf8 : List UInt8 := [0x61, 0xc3, 0xa9, 0xe2, 0x82, 0xac, 0xf0, 0x9f, 0x98, 0x80]
def sampleUtf16le : List UInt8 := [0x61, 0, 0xe9, 0, 0xac, 0x20, 0x3d, 0xd8, 0x00, 0xde]

example : utf8Pull sampleUtf8 20 = ⟨none, sampleUtf16le, 0, 10⟩ := by decide

example : utf8Pull [0xc0, 0x80] 4 = ⟨some .eilseq, [], 2, 4⟩ := by decide

@[simp]
theorem emit_errno (bytes : List UInt8) (r : ConvResult) : (r.emit bytes).errno = r.errno := rfl

@[simp]
theorem emit_out (bytes : List UInt8) (r : ConvResult) : (r.emit bytes).out = bytes ++ r.out := rfl

@[simp]
theorem convError_errno (e : Errno) (c : List UInt8) (outLeft : Nat) :
    (convError e c outLeft).errno = some e := rfl

-- Both loops on an empty input. Naming the equations here also generates them
-- once, before the proofs below, which run in parallel, unfold the loops.
attribute [simp] utf8Pull.eq_1 utf8Push.eq_1

-- equation lemmas made once, before the proofs below use them in parallel
attribute [local simp] ConvResult.emit.eq_1
attribute [-simp] ConvResult.emit.eq_1

theorem emit_emit (b₁ b₂ : List UInt8) (r : ConvResult) : (r.emit b₂).emit b₁ = r.emit (b₁ ++ b₂) := by
  simp [ConvResult.emit]

def Converted (inEnc outEnc : Nat → List UInt8) (input output : List UInt8) : Prop :=
  ∃ cps : List Nat, (∀ cp ∈ cps, IsScalar cp) ∧ input = cps.flatMap inEnc ∧
    output = cps.flatMap outEnc

theorem Converted.cons {inEnc outEnc : Nat → List UInt8} {input output : List UInt8} {cp : Nat}
    (h : Converted inEnc outEnc input output) (hcp : IsScalar cp) :
    Converted inEnc outEnc (inEnc cp ++ input) (outEnc cp ++ output) := by
  obtain ⟨cps, hs, rfl, rfl⟩ := h
  exact ⟨cp :: cps, List.forall_mem_cons.2 ⟨hcp, hs⟩, rfl, rfl⟩

section Masks

variable {x : Nat}

theorem and_0x80 (hx : x < 256) : x &&& 0x80 = x / 0x80 * 0x80 :=
  and_high_bits (k := 7) hx (by decide)

theorem and_0xc0 (hx : x < 256) : x &&& 0xc0 = x / 0x40 * 0x40 :=
  and_high_bits (k := 6) hx (by decide)

theorem and_0xe0 (hx : x < 256) : x &&& 0xe0 = x / 0x20 * 0x20 :=
  and_high_bits (k := 5) hx (by decide)

theorem and_0xf0 (hx : x < 256) : x &&& 0xf0 = x / 0x10 * 0x10 :=
  and_high_bits (k := 4) hx (by decide)

theorem and_0xf8 (hx : x < 256) : x &&& 0xf8 = x / 8 * 8 :=
  and_high_bits (k := 3) hx (by decide)

theorem and_0xfc (hx : x < 256) : x &&& 0xfc = x / 4 * 4 :=
  and_high_bits (k := 2) hx (by decide)

theorem and_0xff (x : Nat) : x &&& 0xff = x % 256 := Nat.and_two_pow_sub_one_eq_mod x 8
theorem and_0x3f (x : Nat) : x &&& 0x3f = x % 64 := Nat.and_two_pow_sub_one_eq_mod x 6
theorem and_0x0f (x : Nat) : x &&& 0x0f = x % 16 := Nat.and_two_pow_sub_one_eq_mod x 4
theorem and_0x7 (x : Nat) : x &&& 0x7 = x % 8 := Nat.and_two_pow_sub_one_eq_mod x 3
theorem and_0x3 (x : Nat) : x &&& 0x3 = x % 4 := Nat.and_two_pow_sub_one_eq_mod x 2

theorem or_0x80 (hx : x < 64) : 0x80 ||| x = 0x80 + x := or_eq_add_of_lt 6 (by decide) hx
theorem or_0xc0 (hx : x < 64) : 0xc0 ||| x = 0xc0 + x := or_eq_add_of_lt 6 (by decide) hx
theorem or_0xe0 (hx : x < 16) : 0xe0 ||| x = 0xe0 + x := or_eq_add_of_lt 4 (by decide) hx
theorem or_0xf0 (hx : x < 8) : 0xf0 ||| x = 0xf0 + x := or_eq_add_of_lt 3 (by decide) hx

theorem or_0xd8 (hx : x < 8) : x ||| 0xd8 = x + 0xd8 := by
  rw [Nat.lor_comm, or_eq_add_of_lt 3 (by decide) hx, Nat.add_comm]

theorem or_0xdc (hx : x < 4) : x ||| 0xdc = x + 0xdc := by
  rw [Nat.lor_comm, or_eq_add_of_lt 2 (by decide) hx, Nat.add_comm]

theorem push_lead_two {y : Nat} (hx : x < 256) (hy : y < 8) :
    0xc0 ||| (x >>> 6) ||| (y <<< 2) = 0xc0 + (y * 4 + x / 64) := by
  have hx6 : x >>> 6 < 2 ^ 2 := by rw [Nat.shiftRight_eq_div_pow]; omega
  rw [Nat.lor_assoc, or_shiftLeft_eq_add 2 y hx6, or_0xc0 (by rw [Nat.shiftRight_eq_div_pow]; omega),
    Nat.shiftRight_eq_div_pow]
  omega

theorem toNat_cont (n : Nat) : (0x80 + n % 0x40).toUInt8.toNat = 0x80 + n % 0x40 := by
  rw [toNat_toUInt8]
  omega

theorem cont_and_0xc0 (n : Nat) : (0x80 + n % 0x40) &&& 0xc0 = 0x80 := by
  rw [and_0xc0 (by omega)]
  omega

theorem cont_and_0x3f (n : Nat) : (0x80 + n % 0x40) &&& 0x3f = n % 0x40 := by
  rw [and_0x3f]
  omega

theorem pull_codepoint_three {cp : Nat} (h : cp < 0x10000) :
    cp % 0x40 ||| (cp / 0x40 % 0x40) <<< 6 ||| (0xE0 + cp / 0x1000 &&& 0x0f) <<< 12 = cp := by
  rw [and_0x0f, or_shiftLeft_eq_add 6 _ (by omega), or_shiftLeft_eq_add 12 _ (by omega)]
  omega

theorem pull_codepoint_four {cp : Nat} (h : cp < 0x110000) :
    cp % 0x40 ||| (cp / 0x40 % 0x40) <<< 6 ||| (cp / 0x1000 % 0x40) <<< 12 |||
      (0xF0 + cp / 0x40000 &&& 0x7) <<< 18 = cp := by
  rw [and_0x7, or_shiftLeft_eq_add 6 _ (by omega), or_shiftLeft_eq_add 12 _ (by omega),
    or_shiftLeft_eq_add 18 _ (by omega)]
  omega

theorem cont_or (n : Nat) : 0x80 ||| (n &&& 0x3f) = 0x80 + n % 0x40 := by
  rw [and_0x3f, or_0x80 (Nat.mod_lt _ (by decide))]

theorem push_codepoint_unit (cp : Nat) : cp % 0x100 ||| (cp / 0x100) <<< 8 = cp := by
  rw [or_shiftLeft_eq_add 8 _ (by omega)]
  omega

theorem push_codepoint_four {v : Nat} (h : v < 0x100000) :
    v % 0x100 ||| (0xDC + v / 0x100 % 4 &&& 0x3) <<< 8 ||| (v / 0x400 % 0x100) <<< 10 |||
      (0xD8 + v / 0x40000 &&& 0x3) <<< 18 = v := by
  rw [and_0x3, and_0x3, or_shiftLeft_eq_add 8 _ (by omega), or_shiftLeft_eq_add 10 _ (by omega),
    or_shiftLeft_eq_add 18 _ (by omega)]
  omega

end Masks

theorem utf8Pull_encode_one {cp : Nat} (h : cp < 0x80) (rest : List UInt8) {outLeft : Nat}
    (hout : 2 ≤ outLeft) :
    utf8Pull (utf8Encode cp ++ rest) outLeft = (utf8Pull rest (outLeft - 2)).emit (utf16leEncode cp) := by
  rw [utf8Encode, if_pos h, utf16leEncode, if_pos (by omega)]
  simp only [List.cons_append, List.nil_append]
  rw [utf8Pull.eq_def]
  dsimp only
  rw [toNat_toUInt8_of_lt (by omega), if_neg (by omega), if_pos (by rw [and_0x80 (by omega)]; omega)]
  congr 1
  simp only [List.cons.injEq, ← UInt8.toNat_inj, toNat_toUInt8, UInt8.reduceToNat, and_true]
  omega

theorem utf8Pull_encode_two {cp : Nat} (h₁ : 0x80 ≤ cp) (h₂ : cp < 0x800) (rest : List UInt8)
    {outLeft : Nat} (hout : 2 ≤ outLeft) :
    utf8Pull (utf8Encode cp ++ rest) outLeft = (utf8Pull rest (outLeft - 2)).emit (utf16leEncode cp) := by
  rw [utf8Encode, if_neg (by omega), if_pos h₂, utf16leEncode, if_pos (by omega)]
  simp only [List.cons_append, List.nil_append]
  rw [utf8Pull.eq_def]
  dsimp only
  rw [toNat_toUInt8_of_lt (by omega), if_neg (by omega), if_neg (by rw [and_0x80 (by omega)]; omega),
    if_pos (by rw [and_0xe0 (by omega)]; omega)]
  simp only [toNat_cont, cont_and_0xc0, cont_and_0x3f, ne_eq, not_true_eq_false, if_false]
  have hu0 : ((0xC0 + cp / 0x40) <<< 6 ||| cp % 0x40).toUInt8 = (cp % 0x100).toUInt8 := by
    rw [shiftLeft_or_eq_add 6 _ (by omega), toUInt8_eq_iff, toNat_toUInt8]
    omega
  have hu1 : ((0xC0 + cp / 0x40) >>> 2 &&& 7).toUInt8 = (cp / 0x100).toUInt8 := by
    rw [Nat.shiftRight_eq_div_pow, and_0x7, toUInt8_eq_iff, toNat_toUInt8]
    omega
  rw [hu0, hu1, if_neg]
  simp only [toUInt8_eq_iff, UInt8.lt_iff_toNat_lt, toNat_toUInt8, UInt8.reduceToNat]
  omega

theorem utf8Pull_encode_three {cp : Nat} (h₁ : 0x800 ≤ cp) (h₂ : cp < 0x10000)
    (hs : cp < 0xD800 ∨ 0xE000 ≤ cp) (rest : List UInt8) {outLeft : Nat} (hout : 2 ≤ outLeft) :
    utf8Pull (utf8Encode cp ++ rest) outLeft = (utf8Pull rest (outLeft - 2)).emit (utf16leEncode cp) := by
  rw [utf8Encode, if_neg (by omega), if_neg (by omega), if_pos h₂, utf16leEncode, if_pos h₂]
  simp only [List.cons_append, List.nil_append]
  rw [utf8Pull.eq_def]
  dsimp only
  rw [toNat_toUInt8_of_lt (by omega), if_neg (by omega), if_neg (by rw [and_0x80 (by omega)]; omega),
    if_neg (by rw [and_0xe0 (by omega)]; omega), if_pos (by rw [and_0xf0 (by omega)]; omega)]
  simp only [toNat_cont, cont_and_0xc0, cont_and_0x3f, ne_eq, not_true_eq_false, or_self, if_false]
  rw [pull_codepoint_three h₂, if_neg (by omega), if_neg (by omega)]
  simp only [Nat.shiftRight_eq_div_pow, and_0xff]

theorem utf8Pull_encode_four {cp : Nat} (h₁ : 0x10000 ≤ cp) (h₂ : cp < 0x110000)
    (rest : List UInt8) {outLeft : Nat} (hout : 4 ≤ outLeft) :
    utf8Pull (utf8Encode cp ++ rest) outLeft = (utf8Pull rest (outLeft - 4)).emit (utf16leEncode cp) := by
  rw [utf8Encode, if_neg (by omega), if_neg (by omega), if_neg (by omega), utf16leEncode,
    if_neg (by omega)]
  simp only [List.cons_append, List.nil_append]
  rw [utf8Pull.eq_def]
  dsimp only
  rw [toNat_toUInt8_of_lt (by omega), if_neg (by omega), if_neg (by rw [and_0x80 (by omega)]; omega),
    if_neg (by rw [and_0xe0 (by omega)]; omega), if_neg (by rw [and_0xf0 (by omega)]; omega),
    if_pos (by rw [and_0xf8 (by omega)]; omega)]
  simp only [toNat_cont, cont_and_0xc0, cont_and_0x3f, ne_eq, not_true_eq_false, or_self, if_false]
  rw [pull_codepoint_four h₂, if_neg (by omega), if_neg (by omega), if_neg (by omega)]
  congr 1
  simp only [List.cons.injEq, ← UInt8.toNat_inj, toNat_toUInt8, and_true, Nat.shiftRight_eq_div_pow,
    and_0xff, and_0x3]
  rw [or_0xd8 (by omega), or_0xdc (by omega)]
  refine ⟨by omega, by omega, by omega, by omega⟩

theorem utf8Pull_utf8Encode_append {cp : Nat} (hcp : IsScalar cp) (rest : List UInt8)
    {outLeft : Nat} (hout : (utf16leEncode cp).length ≤ outLeft) :
    utf8Pull (utf8Encode cp ++ rest) outLeft =
      (utf8Pull rest (outLeft - (utf16leEncode cp).length)).emit (utf16leEncode cp) := by
  rw [length_utf16leEncode] at hout ⊢
  unfold IsScalar at hcp
  split_ifs at hout ⊢ with h
  · rcases Nat.lt_or_ge cp 0x80 with h₁ | h₁
    · exact utf8Pull_encode_one h₁ rest hout
    rcases Nat.lt_or_ge cp 0x800 with h₂ | h₂
    · exact utf8Pull_encode_two h₁ h₂ rest hout
    · exact utf8Pull_encode_three h₂ h (by omega) rest hout
  · exact utf8Pull_encode_four (by omega) (by omega) rest hout

theorem utf8Pull_flatMap_append (cps : List Nat) (hs : ∀ cp ∈ cps, IsScalar cp)
    (rest : List UInt8) (outLeft : Nat) (hout : (cps.flatMap utf16leEncode).length ≤ outLeft) :
    utf8Pull (cps.flatMap utf8Encode ++ rest) outLeft =
      (utf8Pull rest (outLeft - (cps.flatMap utf16leEncode).length)).emit
        (cps.flatMap utf16leEncode) := by
  induction cps generalizing outLeft with
  | nil => simp [ConvResult.emit]
  | cons cp cps ih =>
    rw [List.forall_mem_cons] at hs
    simp only [List.flatMap_cons, List.length_append] at hout ⊢
    rw [List.append_assoc, utf8Pull_utf8Encode_append hs.1 _ (by omega), ih hs.2 _ (by omega),
      emit_emit, Nat.sub_sub]

theorem utf8Pull_flatMap (cps : List Nat) (hs : ∀ cp ∈ cps, IsScalar cp) (outLeft : Nat)
    (hout : (cps.flatMap utf16leEncode).length ≤ outLeft) :
    utf8Pull (cps.flatMap utf8Encode) outLeft =
      ⟨none, cps.flatMap utf16leEncode, 0, outLeft - (cps.flatMap utf16leEncode).length⟩ := by
  have h := utf8Pull_flatMap_append cps hs [] outLeft hout
  rw [List.append_nil] at h
  rw [h, utf8Pull]
  simp [ConvResult.emit]

theorem utf8Pull_one_inv {c0 : UInt8} (h : c0.toNat &&& 0x80 = 0) :
    ∃ cp, IsScalar cp ∧ utf8Encode cp = [c0] ∧ utf16leEncode cp = [c0, 0] := by
  have hc0 := UInt8.toNat_lt c0
  rw [and_0x80 hc0] at h
  refine ⟨c0.toNat, by unfold IsScalar; omega, ?_, ?_⟩
  · rw [utf8Encode, if_pos (by omega)]
    simp
  · rw [utf16leEncode, if_pos (by omega)]
    simp only [List.cons.injEq, ← UInt8.toNat_inj, toNat_toUInt8, UInt8.reduceToNat, and_true]
    omega

theorem utf8Pull_two_inv {c0 c1 : UInt8} (h0 : c0.toNat &&& 0xe0 = 0xc0)
    (h1 : ¬c1.toNat &&& 0xc0 ≠ 0x80)
    (hov : ¬(((c0.toNat >>> 2) &&& 0x7).toUInt8 = 0 ∧
      ((c0.toNat <<< 6) ||| (c1.toNat &&& 0x3f)).toUInt8 < 0x80)) :
    ∃ cp, IsScalar cp ∧ utf8Encode cp = [c0, c1] ∧
      utf16leEncode cp = [((c0.toNat <<< 6) ||| (c1.toNat &&& 0x3f)).toUInt8,
        ((c0.toNat >>> 2) &&& 0x7).toUInt8] := by
  have hc0 := UInt8.toNat_lt c0
  have hc1 := UInt8.toNat_lt c1
  simp (disch := omega) only [and_0xe0, and_0xc0, and_0x3f, and_0x7, Nat.shiftRight_eq_div_pow,
    shiftLeft_or_eq_add, toUInt8_eq_iff, UInt8.lt_iff_toNat_lt, toNat_toUInt8, UInt8.reduceToNat,
    Nat.reducePow, not_not] at h0 h1 hov ⊢
  refine ⟨c0.toNat % 32 * 64 + c1.toNat % 64, by unfold IsScalar; omega, ?_, ?_⟩
  · rw [utf8Encode, if_neg (by omega), if_pos (by omega)]
    simp only [List.cons.injEq, ← UInt8.toNat_inj, toNat_toUInt8, and_true]
    omega
  · rw [utf16leEncode, if_pos (by omega)]
    simp only [List.cons.injEq, ← UInt8.toNat_inj, toNat_toUInt8, and_true]
    omega

theorem utf8Pull_three_inv {c0 c1 c2 : UInt8} (h0 : c0.toNat &&& 0xf0 = 0xe0)
    (h12 : ¬(c1.toNat &&& 0xc0 ≠ 0x80 ∨ c2.toNat &&& 0xc0 ≠ 0x80))
    (hlow : ¬((c2.toNat &&& 0x3f) ||| ((c1.toNat &&& 0x3f) <<< 6) |||
      ((c0.toNat &&& 0x0f) <<< 12)) < 0x800)
    (hsur : ¬(0xd800 ≤ (c2.toNat &&& 0x3f) ||| ((c1.toNat &&& 0x3f) <<< 6) |||
      ((c0.toNat &&& 0x0f) <<< 12) ∧ (c2.toNat &&& 0x3f) ||| ((c1.toNat &&& 0x3f) <<< 6) |||
      ((c0.toNat &&& 0x0f) <<< 12) ≤ 0xdfff)) :
    ∃ cp, IsScalar cp ∧ utf8Encode cp = [c0, c1, c2] ∧
      utf16leEncode cp = [(((c2.toNat &&& 0x3f) ||| ((c1.toNat &&& 0x3f) <<< 6) |||
        ((c0.toNat &&& 0x0f) <<< 12)) &&& 0xff).toUInt8, (((c2.toNat &&& 0x3f) |||
        ((c1.toNat &&& 0x3f) <<< 6) ||| ((c0.toNat &&& 0x0f) <<< 12)) >>> 8).toUInt8] := by
  have hc0 := UInt8.toNat_lt c0
  have hc1 := UInt8.toNat_lt c1
  have hc2 := UInt8.toNat_lt c2
  simp (disch := omega) only [and_0xf0, and_0xc0, and_0x3f, and_0x0f, and_0xff,
    Nat.shiftRight_eq_div_pow, or_shiftLeft_eq_add, Nat.reducePow, not_or, not_not,
    not_and, not_le, not_lt] at h0 h12 hlow hsur ⊢
  refine ⟨c2.toNat % 64 + c1.toNat % 64 * 64 + c0.toNat % 16 * 4096,
    by unfold IsScalar; omega, ?_, ?_⟩
  · rw [utf8Encode, if_neg (by omega), if_neg (by omega), if_pos (by omega)]
    simp only [List.cons.injEq, ← UInt8.toNat_inj, toNat_toUInt8, and_true]
    omega
  · rw [utf16leEncode, if_pos (by omega)]

theorem utf8Pull_four_inv {c0 c1 c2 c3 : UInt8} (h0 : c0.toNat &&& 0xf8 = 0xf0)
    (h123 : ¬(c1.toNat &&& 0xc0 ≠ 0x80 ∨ c2.toNat &&& 0xc0 ≠ 0x80 ∨ c3.toNat &&& 0xc0 ≠ 0x80))
    (hlow : ¬((c3.toNat &&& 0x3f) ||| ((c2.toNat &&& 0x3f) <<< 6) |||
      ((c1.toNat &&& 0x3f) <<< 12) ||| ((c0.toNat &&& 0x7) <<< 18)) < 0x10000)
    (hhigh : ¬((c3.toNat &&& 0x3f) ||| ((c2.toNat &&& 0x3f) <<< 6) |||
      ((c1.toNat &&& 0x3f) <<< 12) ||| ((c0.toNat &&& 0x7) <<< 18)) > 0x10ffff) :
    ∃ cp, IsScalar cp ∧ utf8Encode cp = [c0, c1, c2, c3] ∧
      utf16leEncode cp =
        [(((((c3.toNat &&& 0x3f) ||| ((c2.toNat &&& 0x3f) <<< 6) ||| ((c1.toNat &&& 0x3f) <<< 12) |||
            ((c0.toNat &&& 0x7) <<< 18)) - 0x10000) >>> 10) &&& 0xff).toUInt8,
          (((((c3.toNat &&& 0x3f) ||| ((c2.toNat &&& 0x3f) <<< 6) ||| ((c1.toNat &&& 0x3f) <<< 12) |||
            ((c0.toNat &&& 0x7) <<< 18)) - 0x10000) >>> 18) ||| 0xd8).toUInt8,
          ((((c3.toNat &&& 0x3f) ||| ((c2.toNat &&& 0x3f) <<< 6) ||| ((c1.toNat &&& 0x3f) <<< 12) |||
            ((c0.toNat &&& 0x7) <<< 18)) - 0x10000) &&& 0xff).toUInt8,
          (((((c3.toNat &&& 0x3f) ||| ((c2.toNat &&& 0x3f) <<< 6) ||| ((c1.toNat &&& 0x3f) <<< 12) |||
            ((c0.toNat &&& 0x7) <<< 18)) - 0x10000) >>> 8 &&& 0x3) ||| 0xdc).toUInt8] := by
  have hc0 := UInt8.toNat_lt c0
  have hc1 := UInt8.toNat_lt c1
  have hc2 := UInt8.toNat_lt c2
  have hc3 := UInt8.toNat_lt c3
  simp (disch := omega) only [and_0xf8, and_0xc0, and_0x3f, and_0x7, and_0x3, and_0xff,
    Nat.shiftRight_eq_div_pow, or_shiftLeft_eq_add, or_0xd8, or_0xdc, Nat.reducePow, not_or,
    not_not, not_lt, gt_iff_lt] at h0 h123 hlow hhigh ⊢
  refine ⟨c3.toNat % 64 + c2.toNat % 64 * 64 + c1.toNat % 64 * 4096 + c0.toNat % 8 * 262144,
    by unfold IsScalar; omega, ?_, ?_⟩
  · rw [utf8Encode, if_neg (by omega), if_neg (by omega), if_neg (by omega)]
    simp only [List.cons.injEq, ← UInt8.toNat_inj, toNat_toUInt8, and_true]
    refine ⟨by omega, by omega, by omega, by omega⟩
  · rw [utf16leEncode, if_neg (by omega)]
    simp only [List.cons.injEq, ← UInt8.toNat_inj, toNat_toUInt8, and_true]
    refine ⟨by omega, by omega, by omega, by omega⟩

theorem utf8Pull_sound (s : List UInt8) (outLeft : Nat) :
    (utf8Pull s outLeft).errno = none →
      Converted utf8Encode utf16leEncode s (utf8Pull s outLeft).out := by
  fun_induction utf8Pull s outLeft with
  | case1 => exact fun _ ↦ ⟨[], by simp, rfl, rfl⟩
  | case3 c0 rest outLeft _ h ih =>
    intro hok
    obtain ⟨cp, hcp, h8, h16⟩ := utf8Pull_one_inv h
    have hc := (ih hok).cons hcp
    rw [h8, h16] at hc
    exact hc
  | case6 c0 outLeft _ _ h0 c1 tail h1 uc1 uc0 hov ih =>
    intro hok
    obtain ⟨cp, hcp, h8, h16⟩ := utf8Pull_two_inv h0 h1 hov
    have hc := (ih hok).cons hcp
    rw [h8, h16] at hc
    exact hc
  | case11 c0 outLeft _ _ _ h0 c1 c2 tail h12 codepoint hlow hsur ih =>
    intro hok
    obtain ⟨cp, hcp, h8, h16⟩ := utf8Pull_three_inv h0 h12 hlow hsur
    have hc := (ih hok).cons hcp
    rw [h8, h16] at hc
    exact hc
  | case17 c0 outLeft _ _ _ _ h0 c1 c2 c3 tail h123 codepoint hlow hhigh _ _ ih =>
    intro hok
    obtain ⟨cp, hcp, h8, h16⟩ := utf8Pull_four_inv h0 h123 hlow hhigh
    have hc := (ih hok).cons hcp
    rw [h8, h16] at hc
    exact hc
  | _ => simp

theorem utf8Push_encode_one {cp : Nat} (h : cp < 0x80) (rest : List UInt8) {outLeft : Nat}
    (hout : 1 ≤ outLeft) :
    utf8Push (utf16leEncode cp ++ rest) outLeft = (utf8Push rest (outLeft - 1)).emit (utf8Encode cp) := by
  rw [utf16leEncode, if_pos (by omega), utf8Encode, if_pos h]
  simp only [List.cons_append, List.nil_append]
  rw [utf8Push.eq_def]
  dsimp only
  rw [toNat_toUInt8_of_lt (by omega), if_neg (by omega),
    if_pos ⟨by rw [toUInt8_eq_iff, UInt8.toNat_zero]; omega, by rw [and_0x80 (by omega)]; omega⟩]
  congr 2
  rw [toUInt8_eq_iff, toNat_toUInt8]
  omega

theorem utf8Push_encode_two {cp : Nat} (h₁ : 0x80 ≤ cp) (h₂ : cp < 0x800) (rest : List UInt8)
    {outLeft : Nat} (hout : 2 ≤ outLeft) :
    utf8Push (utf16leEncode cp ++ rest) outLeft = (utf8Push rest (outLeft - 2)).emit (utf8Encode cp) := by
  rw [utf16leEncode, if_pos (by omega), utf8Encode, if_neg (by omega), if_pos h₂]
  simp only [List.cons_append, List.nil_append]
  rw [utf8Push.eq_def]
  dsimp only
  rw [toNat_toUInt8_of_lt (Nat.mod_lt _ (by decide)), toNat_toUInt8_of_lt (by omega)]
  rw [if_neg (by omega), if_neg (by rw [toUInt8_eq_iff, UInt8.toNat_zero, and_0x80 (by omega)]; omega),
    if_pos (by rw [and_0xf8 (by omega)]; omega), if_neg (by omega),
    push_lead_two (by omega) (by omega), cont_or]
  congr 1
  simp only [List.cons.injEq, toUInt8_eq_iff, toNat_toUInt8, and_true]
  refine ⟨by omega, by omega⟩

theorem utf8Push_encode_three {cp : Nat} (h₁ : 0x800 ≤ cp) (h₂ : cp < 0x10000)
    (hs : cp < 0xD800 ∨ 0xE000 ≤ cp) (rest : List UInt8) {outLeft : Nat} (hout : 3 ≤ outLeft) :
    utf8Push (utf16leEncode cp ++ rest) outLeft = (utf8Push rest (outLeft - 3)).emit (utf8Encode cp) := by
  rw [utf16leEncode, if_pos h₂, utf8Encode, if_neg (by omega), if_neg (by omega), if_pos h₂]
  simp only [List.cons_append, List.nil_append]
  rw [utf8Push.eq_def]
  dsimp only
  rw [toNat_toUInt8_of_lt (Nat.mod_lt _ (by decide)), toNat_toUInt8_of_lt (by omega)]
  rw [if_neg (by omega), if_neg (by rw [toUInt8_eq_iff, UInt8.toNat_zero]; omega),
    if_neg (by rw [and_0xf8 (by omega)]; omega), if_neg (by rw [and_0xfc (by omega)]; omega),
    if_pos (by rw [and_0xfc (by omega)]; omega), push_codepoint_unit, if_neg (by omega)]
  simp only [Nat.shiftRight_eq_div_pow, cont_or, Nat.reducePow]
  rw [or_0xe0 (by omega)]

theorem utf8Push_encode_four {cp : Nat} (h₁ : 0x10000 ≤ cp) (h₂ : cp < 0x110000)
    (rest : List UInt8) {outLeft : Nat} (hout : 4 ≤ outLeft) :
    utf8Push (utf16leEncode cp ++ rest) outLeft = (utf8Push rest (outLeft - 4)).emit (utf8Encode cp) := by
  rw [utf16leEncode, if_neg (by omega), utf8Encode, if_neg (by omega), if_neg (by omega),
    if_neg (by omega)]
  simp only [List.cons_append, List.nil_append]
  have e0 : ((0xD800 + (cp - 0x10000) / 0x400) % 0x100).toUInt8.toNat =
      (cp - 0x10000) / 0x400 % 0x100 := by
    rw [toNat_toUInt8]
    omega
  have e1 : ((0xD800 + (cp - 0x10000) / 0x400) / 0x100).toUInt8.toNat =
      0xD8 + (cp - 0x10000) / 0x40000 := by
    rw [toNat_toUInt8]
    omega
  have e2 : ((0xDC00 + (cp - 0x10000) % 0x400) % 0x100).toUInt8.toNat = (cp - 0x10000) % 0x100 := by
    rw [toNat_toUInt8]
    omega
  have e3 : ((0xDC00 + (cp - 0x10000) % 0x400) / 0x100).toUInt8.toNat =
      0xDC + (cp - 0x10000) / 0x100 % 4 := by
    rw [toNat_toUInt8]
    omega
  rw [utf8Push.eq_def]
  dsimp only
  rw [e0, e1, e2, e3]
  rw [if_neg (by omega), if_neg (by rw [toUInt8_eq_iff, UInt8.toNat_zero]; omega),
    if_neg (by rw [and_0xf8 (by omega)]; omega), if_neg (by rw [and_0xfc (by omega)]; omega),
    if_neg (by rw [and_0xfc (by omega)]; omega), if_neg (by rw [and_0xfc (by omega)]; omega),
    push_codepoint_four (by omega), Nat.add_sub_cancel' h₁, if_neg (by omega)]
  simp only [Nat.shiftRight_eq_div_pow, cont_or, Nat.reducePow]
  rw [or_0xf0 (by omega)]

theorem utf8Push_utf16leEncode_append {cp : Nat} (hcp : IsScalar cp) (rest : List UInt8)
    {outLeft : Nat} (hout : (utf8Encode cp).length ≤ outLeft) :
    utf8Push (utf16leEncode cp ++ rest) outLeft =
      (utf8Push rest (outLeft - (utf8Encode cp).length)).emit (utf8Encode cp) := by
  unfold IsScalar at hcp
  rw [length_utf8Encode] at hout ⊢
  split_ifs at hout ⊢ with h₁ h₂ h₃
  · exact utf8Push_encode_one h₁ rest hout
  · exact utf8Push_encode_two (by omega) h₂ rest hout
  · exact utf8Push_encode_three (by omega) h₃ (by omega) rest hout
  · exact utf8Push_encode_four (by omega) (by omega) rest hout

theorem utf8Push_flatMap_append (cps : List Nat) (hs : ∀ cp ∈ cps, IsScalar cp)
    (rest : List UInt8) (outLeft : Nat) (hout : (cps.flatMap utf8Encode).length ≤ outLeft) :
    utf8Push (cps.flatMap utf16leEncode ++ rest) outLeft =
      (utf8Push rest (outLeft - (cps.flatMap utf8Encode).length)).emit (cps.flatMap utf8Encode) := by
  induction cps generalizing outLeft with
  | nil => simp [ConvResult.emit]
  | cons cp cps ih =>
    rw [List.forall_mem_cons] at hs
    simp only [List.flatMap_cons, List.length_append] at hout ⊢
    rw [List.append_assoc, utf8Push_utf16leEncode_append hs.1 _ (by omega), ih hs.2 _ (by omega),
      emit_emit, Nat.sub_sub]

theorem utf8Push_flatMap (cps : List Nat) (hs : ∀ cp ∈ cps, IsScalar cp) (outLeft : Nat)
    (hout : (cps.flatMap utf8Encode).length ≤ outLeft) :
    utf8Push (cps.flatMap utf16leEncode) outLeft =
      ⟨none, cps.flatMap utf8Encode, 0, outLeft - (cps.flatMap utf8Encode).length⟩ := by
  have h := utf8Push_flatMap_append cps hs [] outLeft hout
  rw [List.append_nil] at h
  rw [h, utf8Push]
  simp [ConvResult.emit]

theorem utf8Push_one_inv {uc0 uc1 : UInt8} (h : uc1 = 0 ∧ uc0.toNat &&& 0x80 = 0) :
    ∃ cp, IsScalar cp ∧ utf16leEncode cp = [uc0, uc1] ∧ utf8Encode cp = [uc0] := by
  obtain ⟨rfl, h⟩ := h
  rw [and_0x80 (UInt8.toNat_lt uc0)] at h
  obtain ⟨hcp, h16⟩ := @utf16leEncode_unit uc0 0 (Or.inl (by decide))
  refine ⟨_, hcp, h16, ?_⟩
  rw [utf8Encode, if_pos (by simp only [UInt8.reduceToNat]; omega)]
  simp only [List.cons.injEq, ← UInt8.toNat_inj, toNat_toUInt8, UInt8.reduceToNat, and_true]
  omega

theorem utf8Push_two_inv {uc0 uc1 : UInt8} (h1 : ¬(uc1 = 0 ∧ uc0.toNat &&& 0x80 = 0))
    (h2 : uc1.toNat &&& 0xf8 = 0) :
    ∃ cp, IsScalar cp ∧ utf16leEncode cp = [uc0, uc1] ∧
      utf8Encode cp = [(0xc0 ||| (uc0.toNat >>> 6) ||| (uc1.toNat <<< 2)).toUInt8,
        (0x80 ||| (uc0.toNat &&& 0x3f)).toUInt8] := by
  have hc0 := UInt8.toNat_lt uc0
  have hc1 := UInt8.toNat_lt uc1
  simp (disch := omega) only [← UInt8.toNat_inj, UInt8.reduceToNat, and_0x80, and_0xf8,
    and_0x3f] at h1 h2 ⊢
  obtain ⟨hcp, h16⟩ := @utf16leEncode_unit uc0 uc1 (Or.inl (by omega))
  refine ⟨_, hcp, h16, ?_⟩
  rw [utf8Encode, if_neg (by omega), if_pos (by omega), push_lead_two hc0 (by omega),
    or_0x80 (by omega)]
  simp only [List.cons.injEq, ← UInt8.toNat_inj, toNat_toUInt8, and_true]
  omega

theorem utf8Push_three_inv {uc0 uc1 : UInt8} (h2 : ¬uc1.toNat &&& 0xf8 = 0)
    (hdc : ¬uc1.toNat &&& 0xfc = 0xdc) (hd8 : uc1.toNat &&& 0xfc ≠ 0xd8) :
    ∃ cp, IsScalar cp ∧ utf16leEncode cp = [uc0, uc1] ∧
      utf8Encode cp = [(0xe0 ||| ((uc0.toNat ||| (uc1.toNat <<< 8)) >>> 12)).toUInt8,
        (0x80 ||| (((uc0.toNat ||| (uc1.toNat <<< 8)) >>> 6) &&& 0x3f)).toUInt8,
        (0x80 ||| ((uc0.toNat ||| (uc1.toNat <<< 8)) &&& 0x3f)).toUInt8] := by
  have hc0 := UInt8.toNat_lt uc0
  have hc1 := UInt8.toNat_lt uc1
  simp (disch := omega) only [and_0xf8, and_0xfc, and_0x3f, or_shiftLeft_eq_add,
    Nat.shiftRight_eq_div_pow, or_0x80, or_0xe0, Nat.reducePow] at h2 hdc hd8 ⊢
  obtain ⟨hcp, h16⟩ := @utf16leEncode_unit uc0 uc1 (by omega)
  refine ⟨_, hcp, h16, ?_⟩
  rw [utf8Encode, if_neg (by omega), if_neg (by omega), if_pos (by omega)]
  simp only [List.cons.injEq, ← UInt8.toNat_inj, toNat_toUInt8, and_true]
  omega

theorem utf8Push_four_inv {uc0 uc1 uc2 uc3 : UInt8} (hd8 : ¬uc1.toNat &&& 0xfc ≠ 0xd8) (hdc : ¬uc3.toNat &&& 0xfc ≠ 0xdc) :
    ∃ cp, IsScalar cp ∧ utf16leEncode cp = [uc0, uc1, uc2, uc3] ∧
      utf8Encode cp =
        [(0xf0 ||| ((0x10000 + (uc2.toNat ||| ((uc3.toNat &&& 0x3) <<< 8) ||| (uc0.toNat <<< 10) |||
            ((uc1.toNat &&& 0x3) <<< 18))) >>> 18)).toUInt8,
          (0x80 ||| (((0x10000 + (uc2.toNat ||| ((uc3.toNat &&& 0x3) <<< 8) ||| (uc0.toNat <<< 10) |||
            ((uc1.toNat &&& 0x3) <<< 18))) >>> 12) &&& 0x3f)).toUInt8,
          (0x80 ||| (((0x10000 + (uc2.toNat ||| ((uc3.toNat &&& 0x3) <<< 8) ||| (uc0.toNat <<< 10) |||
            ((uc1.toNat &&& 0x3) <<< 18))) >>> 6) &&& 0x3f)).toUInt8,
          (0x80 ||| ((0x10000 + (uc2.toNat ||| ((uc3.toNat &&& 0x3) <<< 8) ||| (uc0.toNat <<< 10) |||
            ((uc1.toNat &&& 0x3) <<< 18))) &&& 0x3f)).toUInt8] := by
  have hc0 := UInt8.toNat_lt uc0
  have hc1 := UInt8.toNat_lt uc1
  have hc2 := UInt8.toNat_lt uc2
  have hc3 := UInt8.toNat_lt uc3
  simp (disch := omega) only [and_0xfc, and_0x3f, and_0x3, or_shiftLeft_eq_add,
    Nat.shiftRight_eq_div_pow, or_0x80, or_0xf0, Nat.reducePow, not_not] at hdc hd8 ⊢
  obtain ⟨hcp, h16⟩ := @utf16leEncode_pair uc0 uc1 uc2 uc3 (by omega) (by omega) (by omega)
    (by omega)
  refine ⟨_, hcp, h16, ?_⟩
  rw [utf8Encode, if_neg (by omega), if_neg (by omega), if_neg (by omega)]
  simp only [List.cons.injEq, ← UInt8.toNat_inj, toNat_toUInt8, and_true]
  refine ⟨by omega, by omega, by omega, by omega⟩

theorem utf8Push_sound (u : List UInt8) (outLeft : Nat) :
    (utf8Push u outLeft).errno = none →
      Converted utf16leEncode utf8Encode u (utf8Push u outLeft).out := by
  fun_induction utf8Push u outLeft with
  | case1 => exact fun _ ↦ ⟨[], by simp, rfl, rfl⟩
  | case4 uc0 uc1 rest outLeft _ h ih =>
    intro hok
    obtain ⟨cp, hcp, h16, h8⟩ := utf8Push_one_inv h
    have hc := (ih hok).cons hcp
    rw [h16, h8] at hc
    exact hc
  | case6 uc0 uc1 rest outLeft _ h1 h2 _ ih =>
    intro hok
    obtain ⟨cp, hcp, h16, h8⟩ := utf8Push_two_inv h1 h2
    have hc := (ih hok).cons hcp
    rw [h16, h8] at hc
    exact hc
  | case9 uc0 uc1 rest outLeft _ _ h2 hdc hd8 codepoint _ ih =>
    intro hok
    obtain ⟨cp, hcp, h16, h8⟩ := utf8Push_three_inv h2 hdc hd8
    have hc := (ih hok).cons hcp
    rw [h16, h8] at hc
    exact hc
  | case12 uc0 uc1 outLeft _ _ _ _ hd8 uc2 uc3 tail hdc codepoint _ ih =>
    intro hok
    obtain ⟨cp, hcp, h16, h8⟩ := utf8Push_four_inv hd8 hdc
    have hc := (ih hok).cons hcp
    rw [h16, h8] at hc
    exact hc
  | _ => simp

theorem utf8Encoded_of_converted {s out : List UInt8}
    (h : Converted utf8Encode utf16leEncode s out) : Utf8Encoded s := by
  obtain ⟨cps, hs, rfl, -⟩ := h
  exact ⟨cps, hs, rfl⟩

theorem utf8_converters_exact (s u : List UInt8) (outLeft : Nat) :
    (2 * s.length ≤ outLeft → ((utf8Pull s outLeft).errno = none ↔ Utf8Encoded s)) ∧
      ((utf8Pull s outLeft).errno = none →
        Converted utf8Encode utf16leEncode s (utf8Pull s outLeft).out) ∧
      (2 * u.length ≤ outLeft → ((utf8Push u outLeft).errno = none ↔ Utf16leWellFormed u)) ∧
      ((utf8Push u outLeft).errno = none →
        Converted utf16leEncode utf8Encode u (utf8Push u outLeft).out) ∧
      ((utf8Pull s outLeft).errno = none → ∀ outLeft', s.length ≤ outLeft' →
        utf8Push (utf8Pull s outLeft).out outLeft' = ⟨none, s, 0, outLeft' - s.length⟩) ∧
      ((utf8Push u outLeft).errno = none → ∀ outLeft', u.length ≤ outLeft' →
        utf8Pull (utf8Push u outLeft).out outLeft' = ⟨none, u, 0, outLeft' - u.length⟩) := by
  refine ⟨fun hroom ↦ ⟨fun hok ↦ utf8Encoded_of_converted (utf8Pull_sound s outLeft hok), ?_⟩,
    utf8Pull_sound s outLeft, fun hroom ↦ ⟨fun hok ↦ ?_, ?_⟩, utf8Push_sound u outLeft, ?_, ?_⟩
  · rintro ⟨cps, hs, rfl⟩
    have hlen := length_flatMap_le 2 length_utf16leEncode_le cps
    rw [utf8Pull_flatMap cps hs outLeft (by omega)]
  · obtain ⟨cps, hs, rfl, -⟩ := utf8Push_sound u outLeft hok
    exact (utf16leWellFormed_iff _).2 ⟨cps, hs, rfl⟩
  · intro hwf
    obtain ⟨cps, hs, rfl⟩ := (utf16leWellFormed_iff u).1 hwf
    have hlen := length_flatMap_le 2 length_utf8Encode_le cps
    rw [utf8Push_flatMap cps hs outLeft (by omega)]
  · intro hok outLeft' hroom
    obtain ⟨cps, hs, rfl, hout⟩ := utf8Pull_sound s outLeft hok
    rw [hout, utf8Push_flatMap cps hs outLeft' hroom]
  · intro hok outLeft' hroom
    obtain ⟨cps, hs, rfl, hout⟩ := utf8Push_sound u outLeft hok
    rw [hout, utf8Pull_flatMap cps hs outLeft' hroom]

theorem utf8_converters_exact_sample :
    Utf8Encoded sampleUtf8 ∧ Utf16leWellFormed sampleUtf16le ∧
      utf8Push (utf8Pull sampleUtf8 20).out 10 = ⟨none, sampleUtf8, 0, 0⟩ ∧
      utf8Pull (utf8Push sampleUtf16le 20).out 10 = ⟨none, sampleUtf16le, 0, 0⟩ := by
  have h := utf8_converters_exact sampleUtf8 sampleUtf16le 20
  have hpull : (utf8Pull sampleUtf8 20).errno = none := by decide
  have hpush : (utf8Push sampleUtf16le 20).errno = none := by decide
  exact ⟨(h.1 (by decide)).1 hpull, (h.2.2.1 (by decide)).1 hpush,
    h.2.2.2.2.1 hpull 10 (by decide), h.2.2.2.2.2 hpush 10 (by decide)⟩

end Samba.Charset.Iconv
