import Mathlib

namespace Samba.Lib.CommonPrefix

section Lcp

variable {α : Type} [DecidableEq α]

def lcp : List α → List α → Nat
  | a :: as, b :: bs => if a = b then lcp as bs + 1 else 0
  | _, _ => 0

@[simp]
theorem lcp_nil_left (l : List α) : lcp [] l = 0 := by
  cases l <;> rfl

@[simp]
theorem lcp_nil_right (l : List α) : lcp l [] = 0 := by
  cases l <;> rfl

theorem lcp_cons_cons (a b : α) (as bs : List α) :
    lcp (a :: as) (b :: bs) = if a = b then lcp as bs + 1 else 0 := rfl

@[simp]
theorem lcp_cons_self (a : α) (as bs : List α) : lcp (a :: as) (a :: bs) = lcp as bs + 1 := by
  simp [lcp_cons_cons]

theorem lcp_self (l : List α) : lcp l l = l.length := by
  induction l with
  | nil => rfl
  | cons a l ih => rw [lcp_cons_self, ih, List.length_cons]

theorem lcp_lt_of_ne {l l' : List α} (hlen : l.length = l'.length) (hne : l ≠ l') :
    lcp l l' < l.length := by
  induction l generalizing l' with
  | nil => exact absurd (List.length_eq_zero_iff.1 hlen.symm).symm hne
  | cons a l ih =>
    cases l' with
    | nil => simp at hlen
    | cons b l' =>
      rw [lcp_cons_cons]
      split_ifs with hab
      · subst hab
        have hne' : l ≠ l' := fun h ↦ hne (h ▸ rfl)
        have := ih (Nat.succ.inj hlen) hne'
        simp only [List.length_cons]
        omega
      · simp

theorem lcp_append_of_eq (l m m' : List α) : lcp (l ++ m) (l ++ m') = l.length + lcp m m' := by
  induction l with
  | nil => simp
  | cons a l ih =>
    rw [List.cons_append, List.cons_append, lcp_cons_self, ih, List.length_cons]
    omega

theorem lcp_append_of_ne {l l' : List α} (m m' : List α) (hlen : l.length = l'.length)
    (hne : l ≠ l') : lcp (l ++ m) (l' ++ m') = lcp l l' := by
  induction l generalizing l' with
  | nil => exact absurd (List.length_eq_zero_iff.1 hlen.symm).symm hne
  | cons a l ih =>
    cases l' with
    | nil => simp at hlen
    | cons b l' =>
      rw [List.cons_append, List.cons_append, lcp_cons_cons, lcp_cons_cons]
      split_ifs with hab
      · subst hab
        rw [ih (Nat.succ.inj hlen) (fun h ↦ hne (h ▸ rfl))]
      · rfl

theorem lcp_append {l l' : List α} (m m' : List α) (hlen : l.length = l'.length) :
    lcp (l ++ m) (l' ++ m') = if l = l' then l.length + lcp m m' else lcp l l' := by
  split_ifs with h
  · subst h
    exact lcp_append_of_eq l m m'
  · exact lcp_append_of_ne m m' hlen h

end Lcp

theorem lcp_zipWith_bne {l l' : List Bool} (hlen : l.length = l'.length) :
    lcp (List.zipWith (· != ·) l l') (List.replicate l.length false) = lcp l l' := by
  induction l generalizing l' with
  | nil => simp
  | cons a l ih =>
    cases l' with
    | nil => simp at hlen
    | cons b l' =>
      rw [List.zipWith_cons_cons, List.length_cons, List.replicate_succ, lcp_cons_cons,
        lcp_cons_cons, ih (Nat.succ.inj hlen)]
      cases a <;> cases b <;> rfl

def bits : Nat → Nat → List Bool
  | 0, _ => []
  | n + 1, x => x.testBit n :: bits n x

@[simp]
theorem length_bits (n x : Nat) : (bits n x).length = n := by
  induction n with
  | zero => rfl
  | succ n ih => simp [bits, ih]

theorem bits_congr {n x y : Nat} (h : ∀ i < n, x.testBit i = y.testBit i) : bits n x = bits n y := by
  induction n with
  | zero => rfl
  | succ n ih =>
    rw [bits, bits, h n (Nat.lt_succ_self n), ih fun i hi ↦ h i (Nat.lt_succ_of_lt hi)]

theorem bits_xor (n x y : Nat) :
    bits n (x ^^^ y) = List.zipWith (· != ·) (bits n x) (bits n y) := by
  induction n with
  | zero => rfl
  | succ n ih => rw [bits, bits, bits, ih, Nat.testBit_xor, List.zipWith_cons_cons]

theorem bits_zero (n : Nat) : bits n 0 = List.replicate n false := by
  induction n with
  | zero => rfl
  | succ n ih => rw [bits, ih, Nat.zero_testBit, List.replicate_succ]

theorem testBit_eq_of_bits_eq {n x y : Nat} (h : bits n x = bits n y) :
    ∀ i < n, x.testBit i = y.testBit i := by
  induction n with
  | zero => intro i hi; omega
  | succ n ih =>
    rw [bits, bits, List.cons.injEq] at h
    intro i hi
    rcases Nat.lt_succ_iff_lt_or_eq.1 hi with hi | rfl
    · exact ih h.2 i hi
    · exact h.1

theorem bits_inj {n x y : Nat} (hx : x < 2 ^ n) (hy : y < 2 ^ n) (h : bits n x = bits n y) :
    x = y := by
  apply Nat.eq_of_testBit_eq
  intro i
  by_cases hi : i < n
  · exact testBit_eq_of_bits_eq h i hi
  · have hle : 2 ^ n ≤ 2 ^ i := Nat.pow_le_pow_right Nat.two_pos (by omega)
    rw [Nat.testBit_lt_two_pow (lt_of_lt_of_le hx hle),
      Nat.testBit_lt_two_pow (lt_of_lt_of_le hy hle)]

theorem bits_double (n x : Nat) : bits (n + 1) (x * 2 % 2 ^ (n + 1)) = bits n x ++ [false] := by
  induction n generalizing x with
  | zero => simp [bits]
  | succ n ih =>
    have htop : (x * 2 % 2 ^ (n + 2)).testBit (n + 1) = x.testBit n := by
      rw [Nat.testBit_mod_two_pow, ← Nat.pow_one 2, Nat.testBit_mul_two_pow]
      simp
    have hrest : bits (n + 1) (x * 2 % 2 ^ (n + 2)) = bits (n + 1) (x * 2 % 2 ^ (n + 1)) :=
      bits_congr fun i hi ↦ by simp [Nat.testBit_mod_two_pow, hi, show i < n + 2 by omega]
    rw [bits, htop, hrest, ih, bits, List.cons_append]

end Samba.Lib.CommonPrefix
