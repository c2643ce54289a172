import Samba.Ldb.Match
import Samba.Ldb.DnCompare
import Samba.Ldb.KvIndex
import Samba.Lib.SortedMerge

namespace Samba.Ldb.MsgValues

open Samba.Ldb.Match Samba.Lib.BinarySearch Samba.Lib.SortedMerge
open Samba.Ldb.DnCompare (numericCmp numericCmp_ne_zero)
open Samba.Ldb.KvIndex (memcmp memcmp_swap memcmp_eq_zero_iff memcmp_neg_iff memcmp_trans)

def ldbErrOperationsError : Int := 1
def ldbErrAttributeOrValueExists : Int := 20

/-- `LDB_MSG_FIND_COMMON_REMOVE_DUPLICATES`. -/
def ldbMsgFindCommonRemoveDuplicates : UInt32 := 1

/-- `LDB_DUP_QUADRATIC_THRESHOLD`. -/
def ldbDupQuadraticThreshold : Nat := 10

/-- `ldb_val_equal_exact`. Two values with the same data pointer have the same
bytes, so the pointer test is the `memcmp` one. -/
def ldbValEqualExact (v1 v2 : LdbVal) : Bool :=
  if v1.data.length ≠ v2.data.length then false
  else if v1.data.length = 0 then true
  else memcmp v1.data v2.data = 0

/-- `ldb_val_cmp`: the shorter value first, then `memcmp`. -/
def ldbValCmp (v1 v2 : LdbVal) : Int :=
  if v1.data.length ≠ v2.data.length then numericCmp v1.data.length v2.data.length
  else memcmp v1.data v2.data

/-- `TYPESAFE_QSORT(values, n, ldb_val_cmp)` on a copy of the values. -/
def sortValues (values : List LdbVal) : List LdbVal :=
  values.mergeSort fun a b ↦ decide (ldbValCmp a b ≤ 0)

def quadraticDuplicate : List LdbVal → Nat → Option Nat
  | [], _ => none
  | val :: rest, j => if rest.any (ldbValEqualExact val) then some j else quadraticDuplicate rest (j + 1)

def adjacentDuplicate : List LdbVal → Option LdbVal
  | v :: w :: rest => if ldbValEqualExact w v then some w else adjacentDuplicate (w :: rest)
  | _ => none

def sortedDuplicate (values : List LdbVal) : Int × Option Nat :=
  match adjacentDuplicate (sortValues values) with
  | none => (ldbSuccess, none)
  | some v =>
    match values.findIdx? (ldbValEqualExact v) with
    | some j => (ldbSuccess, some j)
    | none => (ldbErrOperationsError, none)

/-- `ldb_msg_find_duplicate_val`: the status and the index `*duplicate` points
at. An unknown option returns before `*duplicate` is set. -/
def ldbMsgFindDuplicateVal (el : LdbMessageElement) (options : UInt32) : Int × Option Nat :=
  if options ≠ 0 then (ldbErrOperationsError, none)
  else if el.values.length < ldbDupQuadraticThreshold then
    (ldbSuccess, quadraticDuplicate el.values 0)
  else sortedDuplicate el.values

def quadraticRemove (removeDuplicates : Bool) (v2 : LdbVal) (values : List LdbVal) (j : Nat) :
    Option (List LdbVal) :=
  if h : j < values.length then
    if ldbValEqualExact values[j] v2 then
      if !removeDuplicates then none
      else quadraticRemove removeDuplicates v2 (values.eraseIdx j) j
    else quadraticRemove removeDuplicates v2 values (j + 1)
  else some values
termination_by values.length + (values.length - j)
decreasing_by
  · rw [List.length_eraseIdx_of_lt h]
    omega
  · omega

def quadraticCommon (removeDuplicates : Bool) : List LdbVal → List LdbVal → Option (List LdbVal)
  | [], values => some values
  | v2 :: values2, values =>
    (quadraticRemove removeDuplicates v2 values 0).bind fun values ↦
      quadraticCommon removeDuplicates values2 values

/-- `el->values` after the collision of `v` in the sorted branch: the first
value equal to `v` is shifted out; were there none, `k` would end at
`num_values` and the last value would go. -/
def removeCollision (v : LdbVal) (values : List LdbVal) : List LdbVal :=
  match values.findIdx? (ldbValEqualExact · v) with
  | some k => values.eraseIdx k
  | none => values.dropLast

def sortedCommon (removeDuplicates : Bool) :
    List LdbVal → List LdbVal → List LdbVal → Option (List LdbVal)
  | [], _, elValues => some elValues
  | _ :: _, [], elValues => some elValues
  | v :: vs, w :: ws, elValues =>
    if ldbValCmp v w < 0 then sortedCommon removeDuplicates vs (w :: ws) elValues
    else if 0 < ldbValCmp v w then sortedCommon removeDuplicates (v :: vs) ws elValues
    else if !removeDuplicates then none
    else sortedCommon removeDuplicates vs (w :: ws) (removeCollision v elValues)
termination_by values values2 => values.length + values2.length

/-- `ldb_msg_find_common_values`: the status and `el->values` after it. -/
def ldbMsgFindCommonValues (el el2 : LdbMessageElement) (options : UInt32) :
    Int × List LdbVal :=
  let removeDuplicates := options &&& ldbMsgFindCommonRemoveDuplicates ≠ 0
  if options &&& ~~~ldbMsgFindCommonRemoveDuplicates ≠ 0 then (ldbErrOperationsError, el.values)
  else if el.name ≠ el2.name then (ldbErrInappropriateMatching, el.values)
  else if el.values.length = 0 ∨ el2.values.length = 0 then (ldbSuccess, el.values)
  else
    let result :=
      if min el.values.length el2.values.length = 1 ∨
          max el.values.length el2.values.length < ldbDupQuadraticThreshold then
        quadraticCommon removeDuplicates el2.values el.values
      else sortedCommon removeDuplicates (sortValues el.values) (sortValues el2.values) el.values
    result.elim (ldbErrAttributeOrValueExists, el.values) fun values ↦ (ldbSuccess, values)

def PointsAtTwin {β : Type} [DecidableEq β] (values : List β) (j : Nat) : Prop :=
  ∃ h : j < values.length, 2 ≤ values.count values[j]

def DuplicateSpec (values : List LdbVal) (r : Int × Option Nat) : Prop :=
  r.1 = ldbSuccess ∧ (r.2 = none ↔ values.Nodup) ∧ ∀ j, r.2 = some j → PointsAtTwin values j

def commonValuesSpec (removeDuplicates : Bool) (values values2 : List LdbVal) :
    Option (List LdbVal) :=
  if removeDuplicates then some (values.filter (· ∉ values2))
  else if values.any (· ∈ values2) then none
  else some values

@[simp]
theorem ldbValEqualExact_eq (v1 v2 : LdbVal) : ldbValEqualExact v1 v2 = decide (v1 = v2) := by
  obtain ⟨a⟩ := v1
  obtain ⟨b⟩ := v2
  unfold ldbValEqualExact
  simp only [LdbVal.mk.injEq]
  split_ifs with hlen hzero
  · exact (decide_eq_false fun h ↦ hlen (congrArg List.length h)).symm
  · have ha : a = [] := List.eq_nil_of_length_eq_zero hzero
    have hb : b = [] := List.eq_nil_of_length_eq_zero (by omega)
    simp [ha, hb]
  · exact decide_eq_decide.2 (memcmp_eq_zero_iff (by omega))

def ValCmpLt (a b : LdbVal) : Prop := ldbValCmp a b < 0

-- equation lemmas made once, before the proofs below use them in parallel
attribute [local simp] commonValuesSpec.eq_1
attribute [-simp] commonValuesSpec.eq_1

theorem ldbValCmp_swap (a b : LdbVal) : ldbValCmp b a = -ldbValCmp a b := by
  unfold ldbValCmp numericCmp
  rw [memcmp_swap a.data b.data]
  split_ifs <;> omega

theorem ldbValCmp_neg_iff (a b : LdbVal) :
    ldbValCmp a b < 0 ↔
      a.data.length < b.data.length ∨ a.data.length = b.data.length ∧ memcmp a.data b.data < 0 := by
  unfold ldbValCmp numericCmp
  split_ifs <;> omega

theorem ldbValCmp_isComparison : IsComparison ldbValCmp ValCmpLt where
  eq_zero_iff a b := by
    unfold ldbValCmp
    split_ifs with hlen
    · have hne : a ≠ b := fun h ↦ hlen (by rw [h])
      exact ⟨fun h ↦ absurd h (numericCmp_ne_zero hlen), fun h ↦ absurd h hne⟩
    · rw [memcmp_eq_zero_iff (by omega)]
      obtain ⟨a⟩ := a
      obtain ⟨b⟩ := b
      simp only [LdbVal.mk.injEq]
  neg_iff _ _ := Iff.rfl
  pos_iff a b := by
    unfold ValCmpLt
    rw [ldbValCmp_swap a b]
    omega
  asymm a b h := by
    unfold ValCmpLt at h ⊢
    rw [ldbValCmp_swap a b]
    omega
  trans a b c h₁ h₂ := by
    unfold ValCmpLt at h₁ h₂ ⊢
    rw [ldbValCmp_neg_iff] at h₁ h₂ ⊢
    rcases h₁ with h₁ | ⟨h₁, h₁'⟩ <;> rcases h₂ with h₂ | ⟨h₂, h₂'⟩
    · omega
    · omega
    · omega
    · exact Or.inr ⟨by omega, memcmp_trans h₁ h₂ h₁' h₂'⟩

theorem sortValues_perm (values : List LdbVal) : (sortValues values).Perm values :=
  List.mergeSort_perm values _

theorem pairwise_sortValues (values : List LdbVal) :
    (sortValues values).Pairwise fun a b ↦ ldbValCmp a b ≤ 0 := by
  have h := List.pairwise_mergeSort (le_trans_of_isComparison ldbValCmp_isComparison)
    (le_total_of_isComparison ldbValCmp_isComparison) values
  exact h.imp fun hab ↦ by simpa using hab

@[simp]
theorem any_ldbValEqualExact (val : LdbVal) (rest : List LdbVal) :
    rest.any (ldbValEqualExact val) = decide (val ∈ rest) := by
  rw [Bool.eq_iff_iff, List.any_eq_true, decide_eq_true_iff]
  simp only [ldbValEqualExact_eq, decide_eq_true_eq, exists_eq_right']

theorem twin_of_mem_tail {v : LdbVal} {rest : List LdbVal} (h : v ∈ rest) :
    2 ≤ (v :: rest).count v := by
  rw [List.count_cons_self]
  have := List.count_pos_iff.2 h
  omega

theorem not_nodup_of_twin {values : List LdbVal} {v : LdbVal} (h : 2 ≤ values.count v) :
    ¬values.Nodup := fun hnd ↦ by
  have := List.nodup_iff_count_le_one.1 hnd v
  omega

theorem quadraticDuplicate_eq_none_iff (values : List LdbVal) (j : Nat) :
    quadraticDuplicate values j = none ↔ values.Nodup := by
  induction values generalizing j with
  | nil => simp [quadraticDuplicate]
  | cons val rest ih =>
    rw [quadraticDuplicate, List.nodup_cons]
    by_cases hmem : val ∈ rest
    · simp [hmem]
    · simp [hmem, ih]

theorem quadraticDuplicate_pointsAtTwin (values : List LdbVal) (j k : Nat)
    (h : quadraticDuplicate values j = some k) : ∃ i, k = j + i ∧ PointsAtTwin values i := by
  induction values generalizing j with
  | nil => simp [quadraticDuplicate] at h
  | cons val rest ih =>
    rw [quadraticDuplicate] at h
    by_cases hmem : val ∈ rest
    · rw [if_pos (by simpa using hmem), Option.some.injEq] at h
      exact ⟨0, by omega, by simp, twin_of_mem_tail hmem⟩
    · rw [if_neg (by simpa using hmem)] at h
      obtain ⟨i, rfl, hi, htwin⟩ := ih (j + 1) h
      refine ⟨i + 1, by omega, by simpa using hi, ?_⟩
      rw [List.getElem_cons_succ]
      exact htwin.trans ((List.sublist_cons_self val rest).count_le _)

theorem adjacentDuplicate_count (values : List LdbVal) (v : LdbVal) :
    adjacentDuplicate values = some v → 2 ≤ values.count v := by
  fun_induction adjacentDuplicate values with
  | case1 u w rest heq =>
    intro h
    have hwu : w = u := by simpa using heq
    rw [Option.some.injEq] at h
    subst hwu h
    exact twin_of_mem_tail List.mem_cons_self
  | case2 u w rest _ ih =>
    intro h
    exact (ih h).trans ((List.sublist_cons_self u (w :: rest)).count_le _)
  | case3 => simp

theorem adjacentDuplicate_eq_none_iff (values : List LdbVal) :
    values.Pairwise (fun a b ↦ ldbValCmp a b ≤ 0) →
      (adjacentDuplicate values = none ↔ values.Nodup) := by
  fun_induction adjacentDuplicate values with
  | case1 u w rest heq =>
    intro _
    have hwu : w = u := by simpa using heq
    subst hwu
    simp
  | case2 u w rest hne ih =>
    intro hs
    have huw : u ≠ w := fun h ↦ hne (by simp [h])
    have hnotin := not_mem_of_lt_of_pairwise_le ldbValCmp_isComparison hs.of_cons
      (lt_of_pairwise_le_of_ne ldbValCmp_isComparison hs huw)
    exact (ih hs.of_cons).trans (List.nodup_cons.trans (and_iff_right hnotin)).symm
  | case3 values hvalues =>
    intro _
    match values, hvalues with
    | [], _ => simp
    | [_], _ => simp
    | _ :: _ :: _, h => exact absurd rfl (h _ _ _)

theorem quadraticDuplicate_spec (values : List LdbVal) :
    DuplicateSpec values (ldbSuccess, quadraticDuplicate values 0) := by
  refine ⟨rfl, quadraticDuplicate_eq_none_iff values 0, fun k hk ↦ ?_⟩
  obtain ⟨i, rfl, hi⟩ := quadraticDuplicate_pointsAtTwin values 0 k hk
  rw [Nat.zero_add]
  exact hi

theorem sortedDuplicate_spec (values : List LdbVal) :
    DuplicateSpec values (sortedDuplicate values) := by
  have hperm := sortValues_perm values
  unfold sortedDuplicate
  cases hadj : adjacentDuplicate (sortValues values) with
  | none =>
    have hnd := (adjacentDuplicate_eq_none_iff _ (pairwise_sortValues values)).1 hadj
    exact ⟨rfl, iff_of_true rfl (hperm.nodup_iff.1 hnd), by simp⟩
  | some v =>
    have hcount : 2 ≤ values.count v := hperm.count_eq v ▸ adjacentDuplicate_count _ v hadj
    have hmem : v ∈ values := List.count_pos_iff.1 (by omega)
    obtain ⟨j, hfind⟩ : ∃ j, values.findIdx? (ldbValEqualExact v) = some j :=
      ⟨_, List.findIdx?_eq_some_of_exists ⟨v, hmem, by simp⟩⟩
    obtain ⟨hlt, hj, -⟩ := List.findIdx?_eq_some_iff_getElem.1 hfind
    have hvj : v = values[j] := by simpa using hj
    simp only [hfind]
    refine ⟨rfl, iff_of_false (by simp) (not_nodup_of_twin hcount), fun k hk ↦ ?_⟩
    rw [Option.some.injEq] at hk
    subst hk
    exact ⟨hlt, hvj ▸ hcount⟩

theorem ldbMsgFindDuplicateVal_spec (el : LdbMessageElement) :
    DuplicateSpec el.values (ldbMsgFindDuplicateVal el 0) := by
  unfold ldbMsgFindDuplicateVal
  rw [if_neg (not_not.2 rfl)]
  split
  · exact quadraticDuplicate_spec el.values
  · exact sortedDuplicate_spec el.values

theorem quadraticRemove_keep (v2 : LdbVal) (values : List LdbVal) (j : Nat) :
    quadraticRemove false v2 values j = if v2 ∈ values.drop j then none else some values := by
  fun_induction quadraticRemove false v2 values j with
  | case1 values j h heq _ =>
    have hv : values[j] = v2 := by simpa using heq
    rw [if_pos (by rw [List.drop_eq_getElem_cons h, hv]; exact List.mem_cons_self)]
  | case2 _ _ _ _ hrd _ => simp at hrd
  | case3 values j h hne ih =>
    have hv : values[j] ≠ v2 := by simpa using hne
    have hmem : v2 ∈ values.drop j ↔ v2 ∈ values.drop (j + 1) := by
      rw [List.drop_eq_getElem_cons h, List.mem_cons]
      exact or_iff_right (Ne.symm hv)
    simp only [ih, hmem]
  | case4 values j h =>
    rw [List.drop_eq_nil_of_le (by omega)]
    simp

theorem quadraticRemove_remove (v2 : LdbVal) (values : List LdbVal) (j : Nat) :
    quadraticRemove true v2 values j = some (values.take j ++ (values.drop j).filter (· ≠ v2)) := by
  fun_induction quadraticRemove true v2 values j with
  | case1 _ _ _ _ hrd => simp at hrd
  | case2 values j h heq _ ih =>
    have hv : values[j] = v2 := by simpa using heq
    have hlen : (values.take j).length = j := by simp; omega
    have htake : (values.eraseIdx j).take j = values.take j := by
      rw [List.eraseIdx_eq_take_drop_succ, List.take_left' hlen]
    have hdrop : (values.eraseIdx j).drop j = values.drop (j + 1) := by
      rw [List.eraseIdx_eq_take_drop_succ, List.drop_left' hlen]
    rw [ih, htake, hdrop, List.drop_eq_getElem_cons h, List.filter_cons_of_neg (by simp [hv])]
  | case3 values j h hne ih =>
    have hv : values[j] ≠ v2 := by simpa using hne
    rw [ih, List.take_add_one, List.getElem?_eq_getElem h, Option.toList_some,
      List.drop_eq_getElem_cons h, List.filter_cons_of_pos (by simpa using hv), List.append_assoc]
    rfl
  | case4 values j h =>
    rw [List.take_of_length_le (by omega), List.drop_eq_nil_of_le (by omega)]
    simp

theorem quadraticCommon_eq (removeDuplicates : Bool) (values2 values : List LdbVal) :
    quadraticCommon removeDuplicates values2 values =
      commonValuesSpec removeDuplicates values values2 := by
  induction values2 generalizing values with
  | nil => cases removeDuplicates <;> simp [quadraticCommon, commonValuesSpec]
  | cons v2 values2 ih =>
    cases removeDuplicates with
    | false =>
      rw [quadraticCommon, quadraticRemove_keep, List.drop_zero]
      by_cases hv2 : v2 ∈ values
      · have hany : values.any (· ∈ v2 :: values2) = true :=
          List.any_eq_true.2 ⟨v2, hv2, by simp⟩
        rw [if_pos hv2, Option.bind_none, commonValuesSpec, if_neg Bool.false_ne_true, if_pos hany]
      · have hany : values.any (· ∈ v2 :: values2) = values.any (· ∈ values2) := by
          rw [Bool.eq_iff_iff]
          simp only [List.any_eq_true, List.mem_cons, decide_eq_true_eq]
          exact ⟨fun ⟨x, hx, h⟩ ↦ ⟨x, hx, h.resolve_left fun h ↦ hv2 (h ▸ hx)⟩,
            fun ⟨x, hx, h⟩ ↦ ⟨x, hx, Or.inr h⟩⟩
        rw [if_neg hv2, Option.bind_some, ih, commonValuesSpec, commonValuesSpec,
          if_neg Bool.false_ne_true, if_neg Bool.false_ne_true, hany]
    | true =>
      rw [quadraticCommon, quadraticRemove_remove, List.take_zero, List.drop_zero, List.nil_append,
        Option.bind_some, ih]
      simp only [commonValuesSpec, if_true, List.filter_filter, List.mem_cons, not_or]
      congr 2
      funext x
      simp [Bool.and_comm]

theorem filter_mem_of_lt {v w : LdbVal} {vs ws : List LdbVal}
    (hs2 : (w :: ws).Pairwise fun a b ↦ ldbValCmp a b ≤ 0) (hlt : ldbValCmp v w < 0) :
    (v :: vs).filter (· ∈ w :: ws) = vs.filter (· ∈ w :: ws) :=
  List.filter_cons_of_neg
    (by simpa using not_mem_of_lt_of_pairwise_le ldbValCmp_isComparison hs2 hlt)

theorem filter_mem_of_gt {v w : LdbVal} {vs ws : List LdbVal}
    (hs : (v :: vs).Pairwise fun a b ↦ ldbValCmp a b ≤ 0) (hgt : 0 < ldbValCmp v w) :
    (v :: vs).filter (· ∈ w :: ws) = (v :: vs).filter (· ∈ ws) := by
  have hwv : ValCmpLt w v := (ldbValCmp_isComparison.pos_iff v w).1 hgt
  apply List.filter_congr
  intro x hx
  have hxw : x ≠ w := fun h ↦ not_mem_of_lt_of_pairwise_le ldbValCmp_isComparison hs hwv (h ▸ hx)
  simp [hxw]

theorem sortedCommon_eq (removeDuplicates : Bool) (values values2 elValues : List LdbVal) :
    values.Pairwise (fun a b ↦ ldbValCmp a b ≤ 0) →
      values2.Pairwise (fun a b ↦ ldbValCmp a b ≤ 0) →
      sortedCommon removeDuplicates values values2 elValues =
        if removeDuplicates then
          some ((values.filter (· ∈ values2)).foldl (fun el v ↦ removeCollision v el) elValues)
        else if values.filter (· ∈ values2) = [] then some elValues else none := by
  fun_induction sortedCommon removeDuplicates values values2 elValues with
  | case1 => intro _ _; cases removeDuplicates <;> simp
  | case2 => intro _ _; cases removeDuplicates <;> simp
  | case3 v vs w ws elValues hlt ih =>
    intro hs hs2
    rw [ih hs.of_cons hs2, filter_mem_of_lt hs2 hlt]
  | case4 v vs w ws elValues hlt hgt ih =>
    intro hs hs2
    rw [ih hs hs2.of_cons, filter_mem_of_gt hs hgt]
  | case5 v vs w ws elValues hlt hgt hrd =>
    intro _ _
    have hvw : v = w := (ldbValCmp_isComparison.eq_zero_iff v w).1 (by omega)
    have hrd' : removeDuplicates = false := by simpa using hrd
    subst hvw hrd'
    simp
  | case6 v vs w ws elValues hlt hgt hrd ih =>
    intro hs hs2
    have hvw : v = w := (ldbValCmp_isComparison.eq_zero_iff v w).1 (by omega)
    have hrd' : removeDuplicates = true := by simpa using hrd
    subst hvw hrd'
    rw [ih hs.of_cons hs2, List.filter_cons_of_pos (by simp)]
    simp

theorem removeCollision_of_mem {v : LdbVal} {elValues : List LdbVal} (h : v ∈ elValues) :
    removeCollision v elValues = elValues.erase v := by
  have hidx : elValues.findIdx (ldbValEqualExact · v) = elValues.idxOf v := by
    unfold List.idxOf
    congr 1
    funext x
    rw [ldbValEqualExact_eq]
    rfl
  have hfind : elValues.findIdx? (ldbValEqualExact · v) = some (elValues.idxOf v) :=
    List.findIdx?_eq_some_iff_findIdx_eq.2 ⟨List.idxOf_lt_length_of_mem h, hidx⟩
  simp only [removeCollision, hfind]
  exact (List.erase_eq_eraseIdx_of_idxOf rfl).symm

theorem foldl_removeCollision {C elValues : List LdbVal} (h : C.Subperm elValues) :
    C.foldl (fun el v ↦ removeCollision v el) elValues = elValues.diff C := by
  induction C generalizing elValues with
  | nil => rfl
  | cons v C ih =>
    have hv : v ∈ elValues := h.subset List.mem_cons_self
    have hC : C.Subperm (elValues.erase v) := by simpa using h.erase v
    rw [List.foldl_cons, removeCollision_of_mem hv, ih hC, List.diff_cons]

theorem sortedCommon_sortValues (removeDuplicates : Bool) (values values2 : List LdbVal) :
    sortedCommon removeDuplicates (sortValues values) (sortValues values2) values =
      commonValuesSpec removeDuplicates values values2 := by
  rw [sortedCommon_eq _ _ _ _ (pairwise_sortValues values) (pairwise_sortValues values2)]
  have hmem : ∀ x, x ∈ sortValues values2 ↔ x ∈ values2 := fun x ↦ (sortValues_perm values2).mem_iff
  have hcoll : ((sortValues values).filter (· ∈ sortValues values2)).Perm
      (values.filter (· ∈ values2)) := by
    have hf : (sortValues values).filter (· ∈ sortValues values2) =
        (sortValues values).filter (· ∈ values2) :=
      List.filter_congr fun x _ ↦ by simp only [hmem]
    rw [hf]
    exact (sortValues_perm values).filter _
  cases removeDuplicates with
  | true =>
    have hsub : ((sortValues values).filter (· ∈ sortValues values2)).Subperm values :=
      hcoll.subperm.trans List.filter_sublist.subperm
    rw [if_pos rfl, foldl_removeCollision hsub, hcoll.diff_left values, diff_filter_self]
    simp [commonValuesSpec]
  | false =>
    have hnil : (sortValues values).filter (· ∈ sortValues values2) = [] ↔
        values.any (· ∈ values2) = false := by
      rw [← List.length_eq_zero_iff, hcoll.length_eq, List.length_eq_zero_iff,
        List.filter_eq_nil_iff, List.any_eq_false]
    simp only [commonValuesSpec, Bool.false_eq_true, if_false, hnil]
    cases values.any (· ∈ values2) <;> simp

theorem commonValuesSpec_of_nil {removeDuplicates : Bool} {values values2 : List LdbVal}
    (h : values.length = 0 ∨ values2.length = 0) :
    commonValuesSpec removeDuplicates values values2 = some values := by
  rcases h with h | h
  · rw [List.length_eq_zero_iff.1 h]
    cases removeDuplicates <;> simp [commonValuesSpec]
  · rw [List.length_eq_zero_iff.1 h]
    cases removeDuplicates <;> simp [commonValuesSpec]

theorem ldbMsgFindCommonValues_eq (el el2 : LdbMessageElement) (removeDuplicates : Bool) :
    ldbMsgFindCommonValues el el2 (if removeDuplicates then ldbMsgFindCommonRemoveDuplicates else 0) =
      if el.name = el2.name then
        (commonValuesSpec removeDuplicates el.values el2.values).elim
          (ldbErrAttributeOrValueExists, el.values) fun values ↦ (ldbSuccess, values)
      else (ldbErrInappropriateMatching, el.values) := by
  have hopt : (if removeDuplicates then ldbMsgFindCommonRemoveDuplicates else 0) &&&
      ~~~ldbMsgFindCommonRemoveDuplicates = 0 := by
    cases removeDuplicates <;> decide
  have hrd : decide ((if removeDuplicates then ldbMsgFindCommonRemoveDuplicates else 0) &&&
      ldbMsgFindCommonRemoveDuplicates ≠ 0) = removeDuplicates := by
    cases removeDuplicates <;> decide
  unfold ldbMsgFindCommonValues
  simp only [hopt, hrd, ne_eq, not_true_eq_false, if_false]
  by_cases hname : el.name = el2.name
  · rw [if_neg (not_not.2 hname), if_pos hname]
    split_ifs with hnil hquad
    · rw [commonValuesSpec_of_nil hnil]
      rfl
    · rw [quadraticCommon_eq]
    · rw [sortedCommon_sortValues]
  · rw [if_pos hname, if_neg hname]

theorem ldbMsgValues_set_semantics (el el2 : LdbMessageElement) :
    DuplicateSpec el.values (ldbMsgFindDuplicateVal el 0) ∧
      DuplicateSpec el.values (ldbSuccess, quadraticDuplicate el.values 0) ∧
      DuplicateSpec el.values (sortedDuplicate el.values) ∧
      ldbMsgFindCommonValues el el2 0 =
        (if el.name = el2.name then
          (if ∃ v ∈ el.values, v ∈ el2.values then ldbErrAttributeOrValueExists else ldbSuccess,
            el.values)
        else (ldbErrInappropriateMatching, el.values)) ∧
      ldbMsgFindCommonValues el el2 ldbMsgFindCommonRemoveDuplicates =
        (if el.name = el2.name then (ldbSuccess, el.values.filter (· ∉ el2.values))
        else (ldbErrInappropriateMatching, el.values)) ∧
      ∀ removeDuplicates,
        quadraticCommon removeDuplicates el2.values el.values =
            commonValuesSpec removeDuplicates el.values el2.values ∧
          sortedCommon removeDuplicates (sortValues el.values) (sortValues el2.values) el.values =
            commonValuesSpec removeDuplicates el.values el2.values := by
  refine ⟨ldbMsgFindDuplicateVal_spec el, quadraticDuplicate_spec el.values,
    sortedDuplicate_spec el.values, ?_, ?_,
    fun rd ↦ ⟨quadraticCommon_eq rd _ _, sortedCommon_sortValues rd _ _⟩⟩
  · have h := ldbMsgFindCommonValues_eq el el2 false
    rw [if_neg Bool.false_ne_true] at h
    rw [h]
    have hany : el.values.any (· ∈ el2.values) = true ↔ ∃ v ∈ el.values, v ∈ el2.values := by
      simp [List.any_eq_true]
    by_cases hc : ∃ v ∈ el.values, v ∈ el2.values
    · simp [commonValuesSpec, hany.2 hc, hc]
    · simp [commonValuesSpec, mt hany.1 hc, hc]
  · have h := ldbMsgFindCommonValues_eq el el2 true
    rw [if_pos rfl] at h
    rw [h]
    rfl

end Samba.Ldb.MsgValues
