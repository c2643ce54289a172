import Samba.Lib.BinarySearch

namespace Samba.Lib.SortedMerge

open Samba.Lib.BinarySearch

variable {β : Type} (cmp : β → β → Int)

def mergeDedup : List β → List β → List β
  | [], [] => []
  | [], y :: ys => y :: mergeDedup [] ys
  | x :: xs, [] => x :: mergeDedup xs []
  | x :: xs, y :: ys =>
    if cmp x y < 0 then x :: mergeDedup xs (y :: ys)
    else if 0 < cmp x y then y :: mergeDedup (x :: xs) ys
    else x :: mergeDedup xs ys
termination_by xs ys => xs.length + ys.length

variable {cmp} {lt : β → β → Prop}

theorem mem_mergeDedup (hc : IsComparison cmp lt) (xs ys : List β) (z : β) :
    z ∈ mergeDedup cmp xs ys ↔ z ∈ xs ∨ z ∈ ys := by
  induction xs, ys using mergeDedup.induct cmp with
  | case1 => simp [mergeDedup]
  | case2 y ys ih => simp [mergeDedup, ih]
  | case3 x xs ih => simp [mergeDedup, ih]
  | case4 x xs y ys hlt ih =>
    simp only [mergeDedup, if_pos hlt, List.mem_cons, ih]
    tauto
  | case5 x xs y ys hlt hgt ih =>
    simp only [mergeDedup, if_neg hlt, if_pos hgt, List.mem_cons, ih]
    tauto
  | case6 x xs y ys hlt hgt ih =>
    have hxy : x = y := (hc.eq_zero_iff x y).1 (by omega)
    subst hxy
    simp only [mergeDedup, if_neg hlt, if_neg hgt, List.mem_cons, ih]
    tauto

theorem lt_of_mem_of_pairwise (hc : IsComparison cmp lt) {x y : β} {ys : List β}
    (hys : (y :: ys).Pairwise lt) (hxy : lt x y) : ∀ z ∈ y :: ys, lt x z := by
  intro z hz
  rcases List.mem_cons.1 hz with rfl | hz
  · exact hxy
  · exact hc.trans x y z hxy (List.rel_of_pairwise_cons hys hz)

theorem pairwise_mergeDedup (hc : IsComparison cmp lt) {xs ys : List β}
    (hxs : xs.Pairwise lt) (hys : ys.Pairwise lt) : (mergeDedup cmp xs ys).Pairwise lt := by
  induction xs, ys using mergeDedup.induct cmp with
  | case1 => simp [mergeDedup]
  | case2 y ys ih =>
    rw [mergeDedup, List.pairwise_cons]
    refine ⟨fun z hz ↦ ?_, ih List.Pairwise.nil hys.of_cons⟩
    rw [mem_mergeDedup hc] at hz
    simp only [List.not_mem_nil, false_or] at hz
    exact List.rel_of_pairwise_cons hys hz
  | case3 x xs ih =>
    rw [mergeDedup, List.pairwise_cons]
    refine ⟨fun z hz ↦ ?_, ih hxs.of_cons List.Pairwise.nil⟩
    rw [mem_mergeDedup hc] at hz
    simp only [List.not_mem_nil, or_false] at hz
    exact List.rel_of_pairwise_cons hxs hz
  | case4 x xs y ys hlt ih =>
    rw [mergeDedup, if_pos hlt, List.pairwise_cons]
    refine ⟨fun z hz ↦ ?_, ih hxs.of_cons hys⟩
    rcases (mem_mergeDedup hc _ _ z).1 hz with hz | hz
    · exact List.rel_of_pairwise_cons hxs hz
    · exact lt_of_mem_of_pairwise hc hys ((hc.neg_iff x y).1 hlt) z hz
  | case5 x xs y ys hlt hgt ih =>
    rw [mergeDedup, if_neg hlt, if_pos hgt, List.pairwise_cons]
    refine ⟨fun z hz ↦ ?_, ih hxs hys.of_cons⟩
    rcases (mem_mergeDedup hc _ _ z).1 hz with hz | hz
    · exact lt_of_mem_of_pairwise hc hxs ((hc.pos_iff x y).1 hgt) z hz
    · exact List.rel_of_pairwise_cons hys hz
  | case6 x xs y ys hlt hgt ih =>
    have hxy : x = y := (hc.eq_zero_iff x y).1 (by omega)
    subst hxy
    rw [mergeDedup, if_neg hlt, if_neg hgt, List.pairwise_cons]
    refine ⟨fun z hz ↦ ?_, ih hxs.of_cons hys.of_cons⟩
    rcases (mem_mergeDedup hc _ _ z).1 hz with hz | hz
    · exact List.rel_of_pairwise_cons hxs hz
    · exact List.rel_of_pairwise_cons hys hz

theorem nodup_of_pairwise (hc : IsComparison cmp lt) {l : List β} (h : l.Pairwise lt) :
    l.Nodup :=
  h.imp fun hab heq ↦ by
    subst heq
    exact hc.irrefl _ hab

theorem pairwise_lt_of_le (hc : IsComparison cmp lt) {l : List β}
    (hle : l.Pairwise fun a b ↦ cmp a b ≤ 0) (hnd : l.Nodup) : l.Pairwise lt := by
  refine (hle.and hnd).imp ?_
  rintro a b ⟨hab, hne⟩
  have h0 : cmp a b ≠ 0 := fun h ↦ hne ((hc.eq_zero_iff a b).1 h)
  exact (hc.neg_iff a b).1 (by omega)

theorem le_trans_of_isComparison (hc : IsComparison cmp lt) (a b c : β) :
    decide (cmp a b ≤ 0) = true → decide (cmp b c ≤ 0) = true → decide (cmp a c ≤ 0) = true := by
  simp only [decide_eq_true_eq]
  intro hab hbc
  have step : ∀ u v, cmp u v ≤ 0 → u = v ∨ lt u v := by
    intro u v huv
    by_cases h0 : cmp u v = 0
    · exact Or.inl ((hc.eq_zero_iff u v).1 h0)
    · exact Or.inr ((hc.neg_iff u v).1 (by omega))
  rcases step a b hab with rfl | hab'
  · exact hbc
  · rcases step b c hbc with rfl | hbc'
    · exact hab
    · have hac := (hc.neg_iff a c).2 (hc.trans a b c hab' hbc')
      omega

theorem le_total_of_isComparison (hc : IsComparison cmp lt) (a b : β) :
    (decide (cmp a b ≤ 0) || decide (cmp b a ≤ 0)) = true := by
  simp only [Bool.or_eq_true, decide_eq_true_eq]
  by_cases hab : cmp a b ≤ 0
  · exact Or.inl hab
  · have hba := (hc.neg_iff b a).2 ((hc.pos_iff a b).1 (by omega))
    exact Or.inr (by omega)

theorem pairwise_lt_mergeSort (hc : IsComparison cmp lt) {l : List β} (hnd : l.Nodup) :
    (l.mergeSort fun a b ↦ decide (cmp a b ≤ 0)).Pairwise lt := by
  have hsorted := List.pairwise_mergeSort (le_trans_of_isComparison hc)
    (le_total_of_isComparison hc) l
  refine pairwise_lt_of_le hc (hsorted.imp fun h ↦ ?_) ((List.mergeSort_perm l _).nodup_iff.2 hnd)
  simpa using h

theorem not_mem_of_lt_of_pairwise_le (hc : IsComparison cmp lt) {v w : β} {ws : List β}
    (hws : (w :: ws).Pairwise fun a b ↦ cmp a b ≤ 0) (hvw : lt v w) : v ∉ w :: ws := by
  intro hv
  rcases List.mem_cons.1 hv with rfl | hv
  · exact hc.irrefl v hvw
  · have hwv := List.rel_of_pairwise_cons hws hv
    have hpos := (hc.pos_iff w v).2 hvw
    omega

theorem lt_of_pairwise_le_of_ne (hc : IsComparison cmp lt) {v w : β} {ws : List β}
    (hs : (v :: w :: ws).Pairwise fun a b ↦ cmp a b ≤ 0) (hne : v ≠ w) : lt v w := by
  have hle := List.rel_of_pairwise_cons hs List.mem_cons_self
  have h0 : cmp v w ≠ 0 := fun h ↦ hne ((hc.eq_zero_iff v w).1 h)
  exact (hc.neg_iff v w).1 (by omega)

theorem diff_filter_self [DecidableEq β] (p : β → Bool) (l : List β) :
    l.diff (l.filter p) = l.filter fun a ↦ !p a := by
  induction l with
  | nil => rfl
  | cons a l ih =>
    by_cases hp : p a
    · rw [List.filter_cons_of_pos hp, List.diff_cons, List.erase_cons_head, ih,
        List.filter_cons_of_neg (by simp [hp])]
    · have ha : a ∉ l.filter p := fun h ↦ hp (List.mem_filter.1 h).2
      rw [List.filter_cons_of_neg hp, List.cons_diff_of_not_mem ha, ih,
        List.filter_cons_of_pos (by simp [hp])]

end Samba.Lib.SortedMerge
