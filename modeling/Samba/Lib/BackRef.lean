import Mathlib

namespace Samba.Lib.BackRef

variable {α : Type}

def copyBack (z : α) (d : Nat) : Nat → List α → List α
  | 0, acc => acc
  | n + 1, acc => copyBack z d n (acc ++ [acc.getD (acc.length - d) z])

theorem getD_take_of_lt (data : List α) (z : α) {k n : Nat} (h : k < n) :
    (data.take n).getD k z = data.getD k z := by
  rw [List.getD_eq_getElem?_getD, List.getD_eq_getElem?_getD, List.getElem?_take_of_lt h]

theorem take_add_one_getD (data : List α) (z : α) {n : Nat} (h : n < data.length) :
    data.take (n + 1) = data.take n ++ [data.getD n z] := by
  rw [List.take_add_one, List.getElem?_eq_getElem h, List.getD_eq_getElem?_getD,
    List.getElem?_eq_getElem h]
  rfl

theorem copyBack_take (data : List α) (z : α) {pos d : Nat} (hd : 0 < d) (hdp : d ≤ pos) :
    ∀ len, pos + len ≤ data.length →
      (∀ k, k < len → data.getD (pos - d + k) z = data.getD (pos + k) z) →
      copyBack z d len (data.take pos) = data.take (pos + len) := by
  intro len
  induction len with
  | zero => intro _ _; rfl
  | succ n ih =>
    intro hlen hm
    have hfirst := ih (by omega) fun k hk ↦ hm k (by omega)
    have hprefix : (data.take (pos + n)).length = pos + n := by
      rw [List.length_take]
      omega
    have hlast : (data.take (pos + n)).getD (pos + n - d) z = data.getD (pos + n) z := by
      rw [getD_take_of_lt data z (by omega), show pos + n - d = pos - d + n by omega]
      exact hm n (by omega)
    have hsplit : copyBack z d (n + 1) (data.take pos) =
        copyBack z d 1 (copyBack z d n (data.take pos)) := by
      clear hfirst hlast hprefix ih hm hlen
      generalize data.take pos = acc
      induction n generalizing acc with
      | zero => rfl
      | succ n ih => exact ih _
    rw [hsplit, hfirst, copyBack, copyBack, hprefix, hlast, ← Nat.add_assoc,
      take_add_one_getD data z (by omega)]

end Samba.Lib.BackRef
