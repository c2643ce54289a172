import Mathlib

namespace Samba.Lib.Mask

variable (a b c d : UInt32)

theorem and_not_or : a &&& ~~~(b ||| c) = a &&& ~~~b &&& ~~~c := by
  apply UInt32.toBitVec_inj.1
  ext i
  simp
  grind

theorem and_or_and_not : a &&& (b ||| (~~~c &&& d)) = (a &&& b) ||| (a &&& ~~~c &&& d) := by
  apply UInt32.toBitVec_inj.1
  ext i
  simp
  grind

theorem and_not_or_and : (a &&& ~~~b) ||| (a &&& c) = a &&& ~~~(b &&& ~~~c) := by
  apply UInt32.toBitVec_inj.1
  ext i
  simp
  grind

theorem and_eq_zero_of_and_not {a b : UInt32} (h : a &&& b = 0) (c : UInt32) : a &&& ~~~c &&& b = 0 := by
  rw [UInt32.and_assoc, UInt32.and_comm (~~~c), ← UInt32.and_assoc, h, UInt32.zero_and]

theorem and_of_and_or_left {a b c : UInt32} (h : a &&& (b ||| c) = 0) : a &&& b = 0 := by
  apply UInt32.toBitVec_inj.1
  have h' := congrArg UInt32.toBitVec h
  ext i
  have hi := congrArg (·.getLsbD i) h'
  simp at hi ⊢
  grind

theorem and_of_and_or_right {a b c : UInt32} (h : a &&& (b ||| c) = 0) : a &&& c = 0 := by
  rw [UInt32.or_comm] at h
  exact and_of_and_or_left h

theorem or_and_self_right : (a ||| b) &&& b = b := by
  apply UInt32.toBitVec_inj.1
  ext i
  simp
  grind

theorem or_or_and_not_and_not {a b : UInt32} (h : a &&& b = 0) (c : UInt32) :
    (a ||| b ||| c) &&& ~~~b &&& ~~~c = a &&& ~~~c := by
  apply UInt32.toBitVec_inj.1
  have h' := congrArg UInt32.toBitVec h
  ext i
  have hi := congrArg (·.getLsbD i) h'
  simp at hi ⊢
  grind

theorem and_or_distrib : a &&& (b ||| c) = (a &&& b) ||| (a &&& c) := by
  apply UInt32.toBitVec_inj.1
  ext i
  simp
  grind

theorem and_or_ne_zero_iff : a &&& (b ||| c) ≠ 0 ↔ a &&& b ≠ 0 ∨ a &&& c ≠ 0 := by
  rw [and_or_distrib, ne_eq, UInt32.or_eq_zero_iff, not_and_or]

theorem or_and_ne_zero_iff : (a ||| b) &&& c ≠ 0 ↔ a &&& c ≠ 0 ∨ b &&& c ≠ 0 := by
  rw [UInt32.and_comm, and_or_ne_zero_iff, UInt32.and_comm c, UInt32.and_comm c]

theorem and_ne_zero_iff_testBit {x m : UInt32} {k : Nat} (hm : m.toNat = 2 ^ k) :
    x &&& m ≠ 0 ↔ x.toNat.testBit k := by
  rw [ne_eq, ← UInt32.toNat_inj, UInt32.toNat_and, hm, Nat.and_two_pow, UInt32.toNat_zero]
  cases x.toNat.testBit k <;> simp

theorem and_and_ne_zero_iff {m : UInt32} {k : Nat} (hm : m.toNat = 2 ^ k) :
    a &&& b &&& m ≠ 0 ↔ a &&& m ≠ 0 ∧ b &&& m ≠ 0 := by
  rw [and_ne_zero_iff_testBit hm, and_ne_zero_iff_testBit hm, and_ne_zero_iff_testBit hm,
    UInt32.toNat_and, Nat.testBit_and, Bool.and_eq_true]

section Flags

variable (f b : UInt8)

theorem flag_and_not_self : f &&& ~~~b &&& b = 0 := by
  apply UInt8.toBitVec_inj.1
  ext i
  simp

theorem flag_or_and_not_of_disjoint {b c : UInt8} (h : b &&& c = 0) (f : UInt8) :
    (f ||| b) &&& ~~~c &&& b = b := by
  apply UInt8.toBitVec_inj.1
  have h' := congrArg UInt8.toBitVec h
  ext i
  have hi := congrArg (·.getLsbD i) h'
  simp at hi ⊢
  grind

theorem flag_or_and_self : (f ||| b) &&& b = b := by
  apply UInt8.toBitVec_inj.1
  ext i
  simp
  grind

theorem flag_or_and_of_disjoint {g b : UInt8} (h : g &&& b = 0) (f : UInt8) :
    (f ||| g) &&& b = f &&& b := by
  apply UInt8.toBitVec_inj.1
  have h' := congrArg UInt8.toBitVec h
  ext i
  have hi := congrArg (·.getLsbD i) h'
  simp at hi ⊢
  grind

theorem flag_and_not_and_of_disjoint {g b : UInt8} (h : g &&& b = 0) (f : UInt8) :
    f &&& ~~~g &&& b = f &&& b := by
  apply UInt8.toBitVec_inj.1
  have h' := congrArg UInt8.toBitVec h
  ext i
  have hi := congrArg (·.getLsbD i) h'
  simp at hi ⊢
  grind

end Flags

section Control

theorem or_and_of_and_eq_zero {a m : UInt16} (h : a &&& m = 0) (c : UInt16) :
    (a ||| c) &&& m = c &&& m := by
  apply UInt16.toBitVec_inj.1
  have h' := congrArg UInt16.toBitVec h
  ext i
  have hi := congrArg (·.getLsbD i) h'
  simp at hi ⊢
  grind

theorem and_or_and_eq_zero {a b m : UInt16} (ha : a &&& m = 0) (hb : b &&& m = 0) :
    (a ||| b) &&& m = 0 := by
  apply UInt16.toBitVec_inj.1
  have ha' := congrArg UInt16.toBitVec ha
  have hb' := congrArg UInt16.toBitVec hb
  ext i
  have hai := congrArg (·.getLsbD i) ha'
  have hbi := congrArg (·.getLsbD i) hb'
  simp at hai hbi ⊢
  grind

theorem ite_and_eq_zero {b m : UInt16} (h : b &&& m = 0) (c : Prop) [Decidable c] :
    (if c then b else 0) &&& m = 0 := by
  split
  · exact h
  · exact UInt16.zero_and

theorem or_or_absorb {a t b₁ b₂ b₃ b₄ c : UInt16} (h : a ||| t = t) :
    a ||| b₁ ||| b₂ ||| b₃ ||| b₄ ||| (t ||| b₁ ||| b₂ ||| b₃ ||| b₄ ||| c) =
      t ||| b₁ ||| b₂ ||| b₃ ||| b₄ ||| c := by
  apply UInt16.toBitVec_inj.1
  have h' := congrArg UInt16.toBitVec h
  ext i
  have hi := congrArg (·.getLsbD i) h'
  simp at hi ⊢
  grind

end Control

end Samba.Lib.Mask
