import Mathlib

namespace Samba.Lib.Utf8

def IsScalar (cp : Nat) : Prop := cp < 0xD800 ∨ 0xE000 ≤ cp ∧ cp < 0x110000

instance : DecidablePred IsScalar := fun cp ↦
  inferInstanceAs (Decidable (cp < 0xD800 ∨ 0xE000 ≤ cp ∧ cp < 0x110000))

def utf8Encode (cp : Nat) : List UInt8 :=
  if cp < 0x80 then [cp.toUInt8]
  else if cp < 0x800 then [(0xC0 + cp / 0x40).toUInt8, (0x80 + cp % 0x40).toUInt8]
  else if cp < 0x10000 then
    [(0xE0 + cp / 0x1000).toUInt8, (0x80 + cp / 0x40 % 0x40).toUInt8, (0x80 + cp % 0x40).toUInt8]
  else
    [(0xF0 + cp / 0x40000).toUInt8, (0x80 + cp / 0x1000 % 0x40).toUInt8,
      (0x80 + cp / 0x40 % 0x40).toUInt8, (0x80 + cp % 0x40).toUInt8]

def utf16leEncode (cp : Nat) : List UInt8 :=
  if cp < 0x10000 then [(cp % 0x100).toUInt8, (cp / 0x100).toUInt8]
  else
    let high := 0xD800 + (cp - 0x10000) / 0x400
    let low := 0xDC00 + (cp - 0x10000) % 0x400
    [(high % 0x100).toUInt8, (high / 0x100).toUInt8, (low % 0x100).toUInt8, (low / 0x100).toUInt8]

def Utf8Encoded (s : List UInt8) : Prop :=
  ∃ cps : List Nat, (∀ cp ∈ cps, IsScalar cp) ∧ s = cps.flatMap utf8Encode

inductive Utf16leWellFormed : List UInt8 → Prop
  | nil : Utf16leWellFormed []
  | unit {lo hi : UInt8} {rest : List UInt8} : hi.toNat < 0xD8 ∨ 0xE0 ≤ hi.toNat →
      Utf16leWellFormed rest → Utf16leWellFormed (lo :: hi :: rest)
  | pair {lo hi lo' hi' : UInt8} {rest : List UInt8} : 0xD8 ≤ hi.toNat → hi.toNat < 0xDC →
      0xDC ≤ hi'.toNat → hi'.toNat < 0xE0 → Utf16leWellFormed rest →
      Utf16leWellFormed (lo :: hi :: lo' :: hi' :: rest)

@[simp]
theorem toNat_toUInt8 (n : Nat) : n.toUInt8.toNat = n % 256 := by
  simp

theorem toNat_toUInt8_of_lt {n : Nat} (h : n < 256) : n.toUInt8.toNat = n := by
  rw [toNat_toUInt8, Nat.mod_eq_of_lt h]

theorem toUInt8_eq_iff (n : Nat) (b : UInt8) : n.toUInt8 = b ↔ n % 256 = b.toNat := by
  rw [← UInt8.toNat_inj, toNat_toUInt8]

theorem or_shiftLeft_eq_add {b : Nat} (k a : Nat) (hb : b < 2 ^ k) :
    b ||| a <<< k = b + a * 2 ^ k := by
  rw [Nat.lor_comm, ← Nat.shiftLeft_add_eq_or_of_lt hb, Nat.shiftLeft_eq]
  omega

theorem shiftLeft_or_eq_add {b : Nat} (k a : Nat) (hb : b < 2 ^ k) :
    a <<< k ||| b = a * 2 ^ k + b := by
  rw [← Nat.shiftLeft_add_eq_or_of_lt hb, Nat.shiftLeft_eq]

theorem or_eq_add_of_lt {m b : Nat} (k : Nat) (hm : m % 2 ^ k = 0) (hb : b < 2 ^ k) :
    m ||| b = m + b := by
  obtain ⟨q, rfl⟩ := Nat.dvd_of_mod_eq_zero hm
  rw [← Nat.two_pow_add_eq_or_of_lt hb]

theorem and_high_bits {x k : Nat} (hx : x < 2 ^ 8) (hk : k ≤ 8) :
    x &&& (2 ^ 8 - 2 ^ k) = x / 2 ^ k * 2 ^ k := by
  have hm : 2 ^ 8 - 2 ^ k = (2 ^ (8 - k) - 1) * 2 ^ k := by
    rw [Nat.sub_mul, Nat.one_mul, ← Nat.pow_add, Nat.sub_add_cancel hk]
  apply Nat.eq_of_testBit_eq
  intro j
  rw [Nat.testBit_and, hm, Nat.testBit_mul_two_pow, Nat.testBit_mul_two_pow,
    Nat.testBit_two_pow_sub_one, Nat.testBit_div_two_pow]
  by_cases hkj : k ≤ j
  · rw [Nat.sub_add_cancel hkj]
    by_cases hj : j < 8
    · simp [hkj, show j - k < 8 - k by omega]
    · have hle : 2 ^ 8 ≤ 2 ^ j := Nat.pow_le_pow_right Nat.two_pos (by omega)
      have hfalse : x.testBit j = false := Nat.testBit_lt_two_pow (lt_of_lt_of_le hx hle)
      simp [hfalse]
  · simp [hkj]

-- equation lemmas made once, before the proofs below use them in parallel
attribute [local simp] utf8Encode.eq_1 utf16leEncode.eq_1
attribute [-simp] utf8Encode.eq_1 utf16leEncode.eq_1

theorem length_utf16leEncode (cp : Nat) :
    (utf16leEncode cp).length = if cp < 0x10000 then 2 else 4 := by
  unfold utf16leEncode
  split_ifs <;> rfl

theorem length_utf8Encode (cp : Nat) :
    (utf8Encode cp).length =
      if cp < 0x80 then 1 else if cp < 0x800 then 2 else if cp < 0x10000 then 3 else 4 := by
  unfold utf8Encode
  split_ifs <;> rfl

theorem length_utf16leEncode_le (cp : Nat) :
    (utf16leEncode cp).length ≤ 2 * (utf8Encode cp).length := by
  unfold utf16leEncode utf8Encode
  split_ifs <;> simp <;> omega

theorem length_utf8Encode_le (cp : Nat) :
    (utf8Encode cp).length ≤ 2 * (utf16leEncode cp).length := by
  unfold utf16leEncode utf8Encode
  split_ifs <;> simp

theorem length_flatMap_le {α β γ : Type} {f : α → List β} {g : α → List γ} (k : Nat)
    (h : ∀ x, (f x).length ≤ k * (g x).length) (l : List α) :
    (l.flatMap f).length ≤ k * (l.flatMap g).length := by
  induction l with
  | nil => simp
  | cons x l ih =>
    simp only [List.flatMap_cons, List.length_append, Nat.mul_add]
    exact Nat.add_le_add (h x) ih

theorem utf16leEncode_unit {lo hi : UInt8} (hhi : hi.toNat < 0xD8 ∨ 0xE0 ≤ hi.toNat) :
    IsScalar (lo.toNat + 256 * hi.toNat) ∧
      utf16leEncode (lo.toNat + 256 * hi.toNat) = [lo, hi] := by
  have hlo := UInt8.toNat_lt lo
  have hhi' := UInt8.toNat_lt hi
  refine ⟨by unfold IsScalar; omega, ?_⟩
  rw [utf16leEncode, if_pos (by omega)]
  simp only [List.cons.injEq, toUInt8_eq_iff, and_true]
  omega

theorem utf16leEncode_pair {lo hi lo' hi' : UInt8} (h₁ : 0xD8 ≤ hi.toNat) (h₂ : hi.toNat < 0xDC)
    (h₃ : 0xDC ≤ hi'.toNat) (h₄ : hi'.toNat < 0xE0) :
    IsScalar (0x10000 + (lo.toNat + 256 * (hi.toNat - 0xD8)) * 0x400 +
        (lo'.toNat + 256 * (hi'.toNat - 0xDC))) ∧
      utf16leEncode (0x10000 + (lo.toNat + 256 * (hi.toNat - 0xD8)) * 0x400 +
        (lo'.toNat + 256 * (hi'.toNat - 0xDC))) = [lo, hi, lo', hi'] := by
  have hlo := UInt8.toNat_lt lo
  have hlo' := UInt8.toNat_lt lo'
  refine ⟨by unfold IsScalar; omega, ?_⟩
  rw [utf16leEncode, if_neg (by omega)]
  simp only [List.cons.injEq, toUInt8_eq_iff, and_true]
  omega

theorem utf16leWellFormed_utf16leEncode {cp : Nat} (hcp : IsScalar cp) (rest : List UInt8)
    (hrest : Utf16leWellFormed rest) : Utf16leWellFormed (utf16leEncode cp ++ rest) := by
  unfold IsScalar at hcp
  unfold utf16leEncode
  split_ifs with h
  · refine .unit ?_ hrest
    simp only [toNat_toUInt8]
    omega
  · refine .pair ?_ ?_ ?_ ?_ hrest <;> simp only [toNat_toUInt8] <;> omega

theorem utf16leWellFormed_iff (u : List UInt8) :
    Utf16leWellFormed u ↔ ∃ cps : List Nat, (∀ cp ∈ cps, IsScalar cp) ∧ u = cps.flatMap utf16leEncode := by
  constructor
  · intro h
    induction h with
    | nil => exact ⟨[], by simp, rfl⟩
    | unit hhi _ ih =>
      obtain ⟨cps, hs, rfl⟩ := ih
      obtain ⟨hcp, henc⟩ := utf16leEncode_unit hhi
      refine ⟨_ :: cps, ?_, by rw [List.flatMap_cons, henc]; rfl⟩
      exact List.forall_mem_cons.2 ⟨hcp, hs⟩
    | pair h₁ h₂ h₃ h₄ _ ih =>
      obtain ⟨cps, hs, rfl⟩ := ih
      obtain ⟨hcp, henc⟩ := utf16leEncode_pair h₁ h₂ h₃ h₄
      refine ⟨_ :: cps, ?_, by rw [List.flatMap_cons, henc]; rfl⟩
      exact List.forall_mem_cons.2 ⟨hcp, hs⟩
  · rintro ⟨cps, hs, rfl⟩
    induction cps with
    | nil => exact .nil
    | cons cp cps ih =>
      rw [List.forall_mem_cons] at hs
      rw [List.flatMap_cons]
      exact utf16leWellFormed_utf16leEncode hs.1 _ (ih hs.2)

end Samba.Lib.Utf8
