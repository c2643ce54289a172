import Samba.Ldb.KvIndex
import Samba.Lib.SortedMerge

namespace Samba.Ldb.KvIndexSet

open Samba.Ldb.KvIndex Samba.Lib.BinarySearch Samba.Lib.SortedMerge

structure DnList where
  dn : List LdbVal
  strict : Bool
  deriving DecidableEq, Repr

/-- `ldb_val_equal_exact_for_qsort`, the same comparison as
`ldb_val_equal_exact_ordered` with the signature `qsort` wants. -/
def ldbValEqualExactForQsort (v1 v2 : LdbVal) : Int := ldbValEqualExactOrdered v1 v2

/-- `ldb_kv_dn_list_sort`: the GUID index is kept sorted; DN lists are sorted by
`qsort`, whose result on a list without duplicates is the sorted permutation. -/
def ldbKvDnListSort (guidIndex : Bool) (list : DnList) : DnList :=
  if list.dn.length < 2 then list
  else if guidIndex then list
  else { list with dn := list.dn.mergeSort fun a b ↦ decide (ldbValEqualExactForQsort a b ≤ 0) }

/-- `list_union`: `list = list | list2`. -/
def listUnion (guidIndex : Bool) (list list2 : DnList) : DnList :=
  if list2.dn.length = 0 then list
  else if list.dn.length = 0 then { list with dn := list2.dn }
  else
    let list' := ldbKvDnListSort guidIndex list
    let list2' := ldbKvDnListSort guidIndex list2
    { list' with dn := mergeDedup ldbValEqualExactOrdered list'.dn list2'.dn }

/-- `list_intersect`: `list = list & list2`. A one-entry list against a long
inexact one is kept whole, since the full filter is checked afterwards. -/
def listIntersect (guidIndex : Bool) (list list2 : DnList) : DnList :=
  if list.dn.length = 0 then list
  else if list2.dn.length = 0 then { list with dn := [] }
  else if list.dn.length < 2 ∧ list2.dn.length > 10 ∧ list2.strict = false then list
  else if list2.dn.length < 2 ∧ list.dn.length > 10 ∧ list.strict = false then
    { list with dn := list2.dn }
  else
    let (shortList, longList) :=
      if list.dn.length > list2.dn.length then (list2, list) else (list, list2)
    { dn := shortList.dn.filter fun v ↦ ldbKvDnListFindVal guidIndex longList.dn v != -1
      strict := list.strict || list2.strict }

structure WellFormed (guidIndex : Bool) (list : DnList) : Prop where
  nodup : list.dn.Nodup
  sorted : guidIndex = true → list.dn.Pairwise fun a b ↦ ldbValEqualExactOrdered a b ≤ 0

theorem WellFormed.pairwise_lt {guidIndex : Bool} {list : DnList} (h : WellFormed guidIndex list)
    (hg : guidIndex = true) : list.dn.Pairwise ValLt :=
  pairwise_lt_of_le ldbValEqualExactOrdered_isComparison (h.sorted hg) h.nodup

theorem pairwise_of_length_lt_two {α : Type} {r : α → α → Prop} :
    ∀ {l : List α}, l.length < 2 → l.Pairwise r
  | [], _ => List.Pairwise.nil
  | [_], _ => List.pairwise_singleton r _
  | _ :: _ :: _, h => absurd h (by simp)

theorem mem_ldbKvDnListSort (guidIndex : Bool) (list : DnList) (v : LdbVal) :
    v ∈ (ldbKvDnListSort guidIndex list).dn ↔ v ∈ list.dn := by
  unfold ldbKvDnListSort
  split_ifs <;> simp

theorem ldbKvDnListSort_strict (guidIndex : Bool) (list : DnList) :
    (ldbKvDnListSort guidIndex list).strict = list.strict := by
  unfold ldbKvDnListSort
  split_ifs <;> rfl

theorem pairwise_ldbKvDnListSort {guidIndex : Bool} {list : DnList}
    (h : WellFormed guidIndex list) : (ldbKvDnListSort guidIndex list).dn.Pairwise ValLt := by
  unfold ldbKvDnListSort
  split_ifs with hlen hg
  · exact pairwise_of_length_lt_two hlen
  · exact h.pairwise_lt hg
  · exact pairwise_lt_mergeSort ldbValEqualExactOrdered_isComparison h.nodup

theorem ldbKvDnListFindVal_ne_iff {guidIndex : Bool} {list : DnList}
    (h : WellFormed guidIndex list) (hlen : list.dn.length ≤ intMax) (v : LdbVal) :
    ldbKvDnListFindVal guidIndex list.dn v ≠ -1 ↔ v ∈ list.dn := by
  cases guidIndex with
  | true =>
    obtain ⟨hfound, hmissing⟩ := ldbKvDnListFindVal_sorted (h.pairwise_lt rfl) hlen v
    constructor
    · intro hne
      by_contra hv
      exact hne (hmissing hv)
    · intro hv
      obtain ⟨i, hi, hx⟩ := List.getElem_of_mem hv
      rw [hfound i hi hx]
      omega
  | false =>
    unfold ldbKvDnListFindVal
    rw [if_neg (by omega)]
    simp only [Bool.not_false, if_true]
    cases hf : list.dn.findIdx? (· = v) with
    | none =>
      simp only [ne_eq, not_true_eq_false, false_iff]
      intro hv
      have := List.findIdx?_eq_none_iff.1 hf v hv
      simp at this
    | some i =>
      obtain ⟨hi, hx, -⟩ := List.findIdx?_eq_some_iff_getElem.1 hf
      simp only [decide_eq_true_eq] at hx
      constructor
      · intro _
        exact hx ▸ List.getElem_mem hi
      · intro _
        dsimp only
        omega

def intersectExact (list list2 : DnList) : List LdbVal :=
  if list2.dn.length < list.dn.length then list2.dn.filter (· ∈ list.dn)
  else list.dn.filter (· ∈ list2.dn)

-- equation lemmas made once, before the proofs below use them in parallel
attribute [local simp] intersectExact.eq_1
attribute [-simp] intersectExact.eq_1

theorem mem_intersectExact (list list2 : DnList) (v : LdbVal) :
    v ∈ intersectExact list list2 ↔ v ∈ list.dn ∧ v ∈ list2.dn := by
  unfold intersectExact
  split_ifs <;> simp [and_comm]

theorem nodup_intersectExact {list list2 : DnList} (h1 : list.dn.Nodup) (h2 : list2.dn.Nodup) :
    (intersectExact list list2).Nodup := by
  unfold intersectExact
  split_ifs
  · exact h2.filter _
  · exact h1.filter _

theorem listIntersect_drops_of_long {guidIndex : Bool} {list list2 : DnList}
    (htwo : 2 ≤ list.dn.length) (hle : list.dn.length ≤ list2.dn.length)
    (hlong : intMax < list2.dn.length) : (listIntersect guidIndex list list2).dn = [] := by
  have hmax : 2 ≤ intMax := by decide
  unfold listIntersect
  rw [if_neg (by omega), if_neg (by omega), if_neg (by omega), if_neg (by omega), if_neg (by omega)]
  simp only [ldbKvDnListFindVal, if_pos hlong, bne_self_eq_false, List.filter_false]

section Intersect

variable {guidIndex : Bool} {list list2 : DnList}
  (h1 : WellFormed guidIndex list) (h2 : WellFormed guidIndex list2)
  (hlen1 : list.dn.length ≤ intMax) (hlen2 : list2.dn.length ≤ intMax)
include h1 h2 hlen1 hlen2

theorem listIntersect_dn_cases :
    (listIntersect guidIndex list list2).dn = intersectExact list list2 ∨
      (list.dn.length < 2 ∧ 10 < list2.dn.length ∧ list2.strict = false) ∧
        (listIntersect guidIndex list list2).dn = list.dn ∨
      (list2.dn.length < 2 ∧ 10 < list.dn.length ∧ list.strict = false) ∧
        (listIntersect guidIndex list list2).dn = list2.dn := by
  unfold listIntersect
  split_ifs with hl1 hl2 hs1 hs2 hshort
  · left
    rw [intersectExact, List.length_eq_zero_iff.1 hl1]
    simp
  · left
    rw [intersectExact, List.length_eq_zero_iff.1 hl2]
    simp
  · exact Or.inr (Or.inl ⟨hs1, rfl⟩)
  · exact Or.inr (Or.inr ⟨hs2, rfl⟩)
  · left
    simp only [intersectExact, show list2.dn.length < list.dn.length from hshort, if_true]
    refine List.filter_congr fun v _ ↦ ?_
    rw [Bool.eq_iff_iff, bne_iff_ne, decide_eq_true_iff]
    exact ldbKvDnListFindVal_ne_iff h1 hlen1 v
  · left
    simp only [intersectExact, show ¬ list2.dn.length < list.dn.length from hshort, if_false]
    refine List.filter_congr fun v _ ↦ ?_
    rw [Bool.eq_iff_iff, bne_iff_ne, decide_eq_true_iff]
    exact ldbKvDnListFindVal_ne_iff h2 hlen2 v

end Intersect

theorem listIntersect_correct {guidIndex : Bool} {list list2 : DnList}
    (h1 : WellFormed guidIndex list) (h2 : WellFormed guidIndex list2)
    (hlen1 : list.dn.length ≤ intMax) (hlen2 : list2.dn.length ≤ intMax) :
    (∀ v, v ∈ list.dn → v ∈ list2.dn → v ∈ (listIntersect guidIndex list list2).dn) ∧
      (listIntersect guidIndex list list2).dn.Nodup ∧
      (list.strict = true → ∀ v ∈ (listIntersect guidIndex list list2).dn, v ∈ list.dn) ∧
      (list2.strict = true → ∀ v ∈ (listIntersect guidIndex list list2).dn, v ∈ list2.dn) ∧
      (¬ (list.dn.length < 2 ∧ 10 < list2.dn.length ∧ list2.strict = false) →
        ¬ (list2.dn.length < 2 ∧ 10 < list.dn.length ∧ list.strict = false) →
        (listIntersect guidIndex list list2).dn = intersectExact list list2) := by
  have hcases := listIntersect_dn_cases h1 h2 hlen1 hlen2
  refine ⟨fun v hv1 hv2 ↦ ?_, ?_, fun hs v hv ↦ ?_, fun hs v hv ↦ ?_, fun hn1 hn2 ↦ ?_⟩
  · rcases hcases with h | ⟨-, h⟩ | ⟨-, h⟩ <;> rw [h]
    · exact (mem_intersectExact list list2 v).2 ⟨hv1, hv2⟩
    · exact hv1
    · exact hv2
  · rcases hcases with h | ⟨-, h⟩ | ⟨-, h⟩ <;> rw [h]
    · exact nodup_intersectExact h1.nodup h2.nodup
    · exact h1.nodup
    · exact h2.nodup
  · rcases hcases with h | ⟨-, h⟩ | ⟨⟨-, -, hns⟩, -⟩
    · exact ((mem_intersectExact list list2 v).1 (h ▸ hv)).1
    · exact h ▸ hv
    · simp [hs] at hns
  · rcases hcases with h | ⟨⟨-, -, hns⟩, -⟩ | ⟨-, h⟩
    · exact ((mem_intersectExact list list2 v).1 (h ▸ hv)).2
    · simp [hs] at hns
    · exact h ▸ hv
  · rcases hcases with h | ⟨hs, -⟩ | ⟨hs, -⟩
    · exact h
    · exact absurd hs hn1
    · exact absurd hs hn2

theorem mem_listUnion (guidIndex : Bool) (list list2 : DnList) (v : LdbVal) :
    v ∈ (listUnion guidIndex list list2).dn ↔ v ∈ list.dn ∨ v ∈ list2.dn := by
  unfold listUnion
  split_ifs with h2 h1
  · simp [List.length_eq_zero_iff.1 h2]
  · simp [List.length_eq_zero_iff.1 h1]
  · simp only [mem_mergeDedup ldbValEqualExactOrdered_isComparison, mem_ldbKvDnListSort]

section Union

variable {guidIndex : Bool} {list list2 : DnList}
  (h1 : WellFormed guidIndex list) (h2 : WellFormed guidIndex list2)
include h1 h2

theorem nodup_listUnion : (listUnion guidIndex list list2).dn.Nodup := by
  unfold listUnion
  split_ifs
  · exact h1.nodup
  · exact h2.nodup
  · exact nodup_of_pairwise ldbValEqualExactOrdered_isComparison
      (pairwise_mergeDedup ldbValEqualExactOrdered_isComparison
        (pairwise_ldbKvDnListSort h1) (pairwise_ldbKvDnListSort h2))

theorem pairwise_listUnion (hsorted : guidIndex = true ∨ list.dn ≠ [] ∧ list2.dn ≠ []) :
    (listUnion guidIndex list list2).dn.Pairwise ValLt := by
  unfold listUnion
  split_ifs with hl2 hl1
  · rcases hsorted with hg | ⟨-, hne⟩
    · exact h1.pairwise_lt hg
    · exact absurd (List.length_eq_zero_iff.1 hl2) hne
  · rcases hsorted with hg | ⟨hne, -⟩
    · exact h2.pairwise_lt hg
    · exact absurd (List.length_eq_zero_iff.1 hl1) hne
  · exact pairwise_mergeDedup ldbValEqualExactOrdered_isComparison
      (pairwise_ldbKvDnListSort h1) (pairwise_ldbKvDnListSort h2)

end Union

theorem listUnion_correct {guidIndex : Bool} {list list2 : DnList}
    (h1 : WellFormed guidIndex list) (h2 : WellFormed guidIndex list2) :
    (listUnion guidIndex list list2).dn.Nodup ∧
      (∀ v, v ∈ (listUnion guidIndex list list2).dn ↔ v ∈ list.dn ∨ v ∈ list2.dn) ∧
      (guidIndex = true ∨ list.dn ≠ [] ∧ list2.dn ≠ [] →
        (listUnion guidIndex list list2).dn.Pairwise ValLt) :=
  ⟨nodup_listUnion h1 h2, mem_listUnion guidIndex list list2, pairwise_listUnion h1 h2⟩

theorem listUnion_listIntersect_correct {guidIndex : Bool} {list list2 : DnList}
    (h1 : WellFormed guidIndex list) (h2 : WellFormed guidIndex list2) :
    ((listUnion guidIndex list list2).dn.Nodup ∧
      (∀ v, v ∈ (listUnion guidIndex list list2).dn ↔ v ∈ list.dn ∨ v ∈ list2.dn) ∧
      (guidIndex = true ∨ list.dn ≠ [] ∧ list2.dn ≠ [] →
        (listUnion guidIndex list list2).dn.Pairwise ValLt)) ∧
    (list.dn.length ≤ intMax → list2.dn.length ≤ intMax →
      (∀ v, v ∈ list.dn → v ∈ list2.dn → v ∈ (listIntersect guidIndex list list2).dn) ∧
      (listIntersect guidIndex list list2).dn.Nodup ∧
      (list.strict = true → ∀ v ∈ (listIntersect guidIndex list list2).dn, v ∈ list.dn) ∧
      (list2.strict = true → ∀ v ∈ (listIntersect guidIndex list list2).dn, v ∈ list2.dn) ∧
      (¬ (list.dn.length < 2 ∧ 10 < list2.dn.length ∧ list2.strict = false) →
        ¬ (list2.dn.length < 2 ∧ 10 < list.dn.length ∧ list.strict = false) →
        (listIntersect guidIndex list list2).dn = intersectExact list list2)) :=
  ⟨listUnion_correct h1 h2, listIntersect_correct h1 h2⟩

def listBa : DnList := ⟨[[0x62], [0x61]], false⟩
def listCa : DnList := ⟨[[0x63], [0x61]], true⟩

theorem listUnion_listIntersect_correct_ba_ca :
    ((listUnion false listBa listCa).dn.Nodup ∧
      (∀ v, v ∈ (listUnion false listBa listCa).dn ↔ v ∈ listBa.dn ∨ v ∈ listCa.dn) ∧
      (false = true ∨ listBa.dn ≠ [] ∧ listCa.dn ≠ [] →
        (listUnion false listBa listCa).dn.Pairwise ValLt)) ∧
    (listBa.dn.length ≤ intMax → listCa.dn.length ≤ intMax →
      (∀ v, v ∈ listBa.dn → v ∈ listCa.dn → v ∈ (listIntersect false listBa listCa).dn) ∧
      (listIntersect false listBa listCa).dn.Nodup ∧
      (listBa.strict = true → ∀ v ∈ (listIntersect false listBa listCa).dn, v ∈ listBa.dn) ∧
      (listCa.strict = true → ∀ v ∈ (listIntersect false listBa listCa).dn, v ∈ listCa.dn) ∧
      (¬ (listBa.dn.length < 2 ∧ 10 < listCa.dn.length ∧ listCa.strict = false) →
        ¬ (listCa.dn.length < 2 ∧ 10 < listBa.dn.length ∧ listBa.strict = false) →
        (listIntersect false listBa listCa).dn = intersectExact listBa listCa)) :=
  listUnion_listIntersect_correct ⟨by decide, by simp⟩ ⟨by decide, by simp⟩

theorem listUnion_unsorted_listIntersect_long :
    (WellFormed false ⟨[[0x62], [0x61]], false⟩ ∧
      ¬ (listUnion false ⟨[[0x62], [0x61]], false⟩ ⟨[], false⟩).dn.Pairwise
        fun a b ↦ ldbValEqualExactOrdered a b ≤ 0) ∧
    (WellFormed false ⟨[[], [0]], false⟩ ∧
      WellFormed false ⟨(List.range (intMax + 1)).map (List.replicate · 0), false⟩ ∧
      [] ∈ ((List.range (intMax + 1)).map (List.replicate · (0 : UInt8))) ∧
      (listIntersect false ⟨[[], [0]], false⟩
        ⟨(List.range (intMax + 1)).map (List.replicate · 0), false⟩).dn = []) := by
  refine ⟨⟨⟨by decide, by simp⟩, by decide⟩, ⟨by decide, by simp⟩, ⟨?_, by simp⟩, ?_, ?_⟩
  · generalize intMax + 1 = n
    refine List.Pairwise.map _ (fun a b hab h ↦ hab ?_) List.nodup_range
    simpa using congrArg List.length h
  · exact List.mem_map.2 ⟨0, List.mem_range.2 (Nat.zero_lt_succ _), rfl⟩
  · exact listIntersect_drops_of_long (by decide) (by simp [intMax]) (by simp)

end Samba.Ldb.KvIndexSet
