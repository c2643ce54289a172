import Samba.Lib.BinarySearch

namespace Samba.Ldb.KvIndex

open Samba.Lib.BinarySearch

abbrev LdbVal := List UInt8

instance instLawfulBEqLdbVal : LawfulBEq LdbVal := inferInstance

def ldbKvGuidSize : Nat := 16

def intMax : Nat := 2 ^ 31 - 1

def memcmp : List UInt8 → List UInt8 → Int
  | a :: as, b :: bs => if a < b then -1 else if b < a then 1 else memcmp as bs
  | _, _ => 0

/-- `ldb_val_equal_exact_ordered`: the longer value first, then `memcmp`. -/
def ldbValEqualExactOrdered (v1 v2 : LdbVal) : Int :=
  if v1.length > v2.length then -1
  else if v1.length < v2.length then 1
  else memcmp v1 v2

inductive LdbErr
  | constraintViolation | operationsError
  deriving DecidableEq, Repr

/-- `ldb_kv_dn_list_find_val`: the index of `v` in the list, or `-1`. Without the
GUID index the entries are DN strings and the search is linear. -/
def ldbKvDnListFindVal (guidIndex : Bool) (list : List LdbVal) (v : LdbVal) : Int :=
  if list.length > intMax then -1
  else if !guidIndex then
    match list.findIdx? (· = v) with
    | some i => i
    | none => -1
  else
    match binaryArraySearchGte ldbValEqualExactOrdered v list with
    | (some i, none) => i
    | _ => -1

structure IndexedMsg where
  dnStr : LdbVal
  guid : Option LdbVal
  deriving DecidableEq, Repr

/-- `ldb_kv_dn_list_find_msg`. -/
def ldbKvDnListFindMsg (guidIndex : Bool) (list : List LdbVal) (msg : IndexedMsg) : Int :=
  if !guidIndex then ldbKvDnListFindVal guidIndex list msg.dnStr
  else match msg.guid with
    | none => -1
    | some v => ldbKvDnListFindVal guidIndex list v

inductive IdxDnRecord
  | noSuchObject | sameDn | otherDn | error
  deriving DecidableEq, Repr

def idxDnDuplicateCheck (idxDnRecord : LdbVal → IdxDnRecord) : List LdbVal → Except LdbErr Unit
  | [] => .ok ()
  | v :: vs =>
    match idxDnRecord v with
    | .noSuchObject | .otherDn => idxDnDuplicateCheck idxDnRecord vs
    | .sameDn => .error .constraintViolation
    | .error => .error .operationsError

def insertEntry (guidIndex : Bool) (list : List LdbVal) (msg : IndexedMsg) :
    Except LdbErr (List LdbVal) :=
  if !guidIndex then .ok (list ++ [msg.dnStr])
  else match msg.guid with
    | none => .error .operationsError
    | some keyVal =>
      if keyVal.length ≠ ldbKvGuidSize then .error .operationsError
      else match (binaryArraySearchGte ldbValEqualExactOrdered keyVal list).2 with
        | none => .ok (list ++ [keyVal])
        | some i => .ok (list.insertIdx i keyVal)

/-- `ldb_kv_index_add1` from the loaded list on: `isIdxDn` is whether the
element is `@IDXDN`, `unique` whether its index is unique (by the schema or
forced by the element) and `truncated` whether the index key was truncated. -/
def ldbKvIndexAdd1 (guidIndex : Bool) (idxDnRecord : LdbVal → IdxDnRecord)
    (isIdxDn unique truncated : Bool) (msg : IndexedMsg) (list : List LdbVal) :
    Except LdbErr (List LdbVal) := do
  if truncated && unique then throw .constraintViolation
  if list ≠ [] && isIdxDn && !truncated then throw .constraintViolation
  else if list ≠ [] && isIdxDn then idxDnDuplicateCheck idxDnRecord list
  if list ≠ [] && unique then throw .constraintViolation
  insertEntry guidIndex list msg

/-- `ldb_kv_index_del_value` from the loaded list on: one entry of the message
goes, if the search finds it; a special DN is never indexed. -/
def ldbKvIndexDelValue (guidIndex : Bool) (dnSpecial : Bool) (msg : IndexedMsg)
    (list : List LdbVal) : List LdbVal :=
  if dnSpecial then list
  else
    let i := ldbKvDnListFindMsg guidIndex list msg
    if i = -1 then list else list.eraseIdx i.toNat

inductive IndexOp (κ : Type)
  | add1 (key : κ) (isIdxDn unique truncated : Bool) (msg : IndexedMsg)
  | delValue (key : κ) (dnSpecial : Bool) (msg : IndexedMsg)

abbrev IndexStore (κ : Type) := κ → List LdbVal

variable {κ : Type} [DecidableEq κ]

def IndexStore.store (idx : IndexStore κ) (key : κ) (list : List LdbVal) : IndexStore κ :=
  Function.update idx key list

def indexStep (guidIndex : Bool) (idxDnRecord : LdbVal → IdxDnRecord) (idx : IndexStore κ) :
    IndexOp κ → IndexStore κ
  | .add1 key isIdxDn unique truncated msg =>
    match ldbKvIndexAdd1 guidIndex idxDnRecord isIdxDn unique truncated msg (idx key) with
    | .ok list => idx.store key list
    | .error _ => idx
  | .delValue key dnSpecial msg => idx.store key (ldbKvIndexDelValue guidIndex dnSpecial msg (idx key))

def indexRun (guidIndex : Bool) (idxDnRecord : LdbVal → IdxDnRecord) (idx : IndexStore κ)
    (ops : List (IndexOp κ)) : IndexStore κ :=
  ops.foldl (indexStep guidIndex idxDnRecord) idx

def guidOne : LdbVal := List.replicate 16 1
def guidTwo : LdbVal := List.replicate 16 2

def msgX : IndexedMsg := ⟨[0x63, 0x6e, 0x3d, 0x78], some guidOne⟩
def msgY : IndexedMsg := ⟨[0x63, 0x6e, 0x3d, 0x79], some guidTwo⟩

def duplicateKeyRun : List (IndexOp Unit) :=
  [.add1 () false false false msgX, .add1 () false false false msgY,
    .add1 () false false false msgX, .delValue () false msgX, .delValue () false msgX]

theorem indexRun_duplicateGuid_unsorts :
    indexRun true (fun _ ↦ .otherDn) (fun _ ↦ []) (duplicateKeyRun.take 3) () =
      [guidOne, guidTwo, guidOne] ∧
    indexRun true (fun _ ↦ .otherDn) (fun _ ↦ []) duplicateKeyRun () = [guidTwo, guidOne] ∧
    ldbValEqualExactOrdered guidTwo guidOne = 1 ∧
    ldbKvDnListFindVal true (indexRun true (fun _ ↦ .otherDn) (fun _ ↦ []) duplicateKeyRun ())
      guidOne = -1 := by
  decide +kernel

theorem memcmp_cons (a b : UInt8) (as bs : List UInt8) :
    memcmp (a :: as) (b :: bs) = if a < b then -1 else if b < a then 1 else memcmp as bs := rfl

theorem memcmp_swap : ∀ (as bs : List UInt8), memcmp bs as = -memcmp as bs
  | [], [] => rfl
  | [], _ :: _ => rfl
  | _ :: _, [] => rfl
  | a :: as, b :: bs => by
    rw [memcmp_cons, memcmp_cons, memcmp_swap as bs]
    simp only [UInt8.lt_iff_toNat_lt]
    split_ifs <;> omega

theorem memcmp_eq_zero_iff : ∀ {as bs : List UInt8}, as.length = bs.length →
    (memcmp as bs = 0 ↔ as = bs)
  | [], [], _ => by simp [memcmp]
  | a :: as, b :: bs, h => by
    rw [memcmp_cons, List.cons.injEq, ← memcmp_eq_zero_iff (by simpa using h)]
    by_cases hab : a = b
    · subst hab
      have hlt : ¬a < a := fun h ↦ by rw [UInt8.lt_iff_toNat_lt] at h; omega
      rw [if_neg hlt, if_neg hlt]
      exact (and_iff_right rfl).symm
    · have hne : a.toNat ≠ b.toNat := fun h ↦ hab (UInt8.toNat_inj.1 h)
      simp only [hab, false_and, iff_false, UInt8.lt_iff_toNat_lt]
      split_ifs
      · exact not_false
      · decide
      · omega

theorem memcmp_neg_iff (a b : UInt8) (as bs : List UInt8) :
    memcmp (a :: as) (b :: bs) < 0 ↔ a < b ∨ a = b ∧ memcmp as bs < 0 := by
  rw [memcmp_cons]
  simp only [UInt8.lt_iff_toNat_lt, ← UInt8.toNat_inj]
  split_ifs <;> omega

theorem memcmp_trans : ∀ {as bs cs : List UInt8}, as.length = bs.length →
    bs.length = cs.length → memcmp as bs < 0 → memcmp bs cs < 0 → memcmp as cs < 0
  | [], [], [], _, _, h, _ => h
  | a :: as, b :: bs, c :: cs, hab, hbc, h₁, h₂ => by
    rw [memcmp_neg_iff] at h₁ h₂ ⊢
    simp only [UInt8.lt_iff_toNat_lt, ← UInt8.toNat_inj] at h₁ h₂ ⊢
    rcases h₁ with h₁ | ⟨h₁, h₁'⟩ <;> rcases h₂ with h₂ | ⟨h₂, h₂'⟩
    · omega
    · omega
    · omega
    · exact Or.inr ⟨by omega, memcmp_trans (by simpa using hab) (by simpa using hbc) h₁' h₂'⟩

def ValLt (a b : LdbVal) : Prop := ldbValEqualExactOrdered a b < 0

-- equation lemmas made once, before the proofs below use them in parallel
attribute [local simp] ldbKvDnListFindVal.eq_1
attribute [-simp] ldbKvDnListFindVal.eq_1

theorem ldbValEqualExactOrdered_swap (a b : LdbVal) :
    ldbValEqualExactOrdered b a = -ldbValEqualExactOrdered a b := by
  unfold ldbValEqualExactOrdered
  rw [memcmp_swap a b]
  split_ifs <;> omega

theorem ldbValEqualExactOrdered_neg_iff (a b : LdbVal) :
    ldbValEqualExactOrdered a b < 0 ↔
      b.length < a.length ∨ a.length = b.length ∧ memcmp a b < 0 := by
  unfold ldbValEqualExactOrdered
  split_ifs <;> omega

theorem ldbValEqualExactOrdered_isComparison : IsComparison ldbValEqualExactOrdered ValLt where
  eq_zero_iff a b := by
    unfold ldbValEqualExactOrdered
    split_ifs with h₁ h₂
    · exact ⟨fun h ↦ absurd h (by decide), fun h ↦ by subst h; omega⟩
    · exact ⟨fun h ↦ absurd h (by decide), fun h ↦ by subst h; omega⟩
    · exact memcmp_eq_zero_iff (by omega)
  neg_iff _ _ := Iff.rfl
  pos_iff a b := by
    unfold ValLt
    rw [ldbValEqualExactOrdered_swap a b]
    omega
  asymm a b h := by
    unfold ValLt at h ⊢
    rw [ldbValEqualExactOrdered_swap a b]
    omega
  trans a b c h₁ h₂ := by
    unfold ValLt at h₁ h₂ ⊢
    rw [ldbValEqualExactOrdered_neg_iff] at h₁ h₂ ⊢
    rcases h₁ with h₁ | ⟨h₁, h₁'⟩ <;> rcases h₂ with h₂ | ⟨h₂, h₂'⟩
    · omega
    · omega
    · omega
    · exact Or.inr ⟨by omega, memcmp_trans h₁ h₂ h₁' h₂'⟩

theorem ldbKvDnListFindVal_sorted {list : List LdbVal} (hs : list.Pairwise ValLt)
    (hlen : list.length ≤ intMax) (v : LdbVal) :
    (∀ i (hi : i < list.length), list[i] = v → ldbKvDnListFindVal true list v = i) ∧
      (v ∉ list → ldbKvDnListFindVal true list v = -1) := by
  have hc := ldbValEqualExactOrdered_isComparison
  unfold ldbKvDnListFindVal
  rw [if_neg (by omega), if_neg (by decide)]
  constructor
  · intro i hi hx
    have hfst := (binaryArraySearchGte_exact_eq_some_iff hc hs).2 ⟨hi, hx⟩
    have hsnd : (binaryArraySearchGte ldbValEqualExactOrdered v list).2 = none := by
      rcases binaryArraySearchGte_fst_or_snd ldbValEqualExactOrdered v list with h | h
      · rw [hfst] at h
        cases h
      · exact h
    rcases hr : binaryArraySearchGte ldbValEqualExactOrdered v list with ⟨x, y⟩
    rw [hr] at hfst hsnd
    dsimp only at hfst hsnd
    rw [hfst, hsnd]
  · intro hv
    have hfst : (binaryArraySearchGte ldbValEqualExactOrdered v list).1 = none := by
      cases hex : (binaryArraySearchGte ldbValEqualExactOrdered v list).1 with
      | none => rfl
      | some j =>
        obtain ⟨hj, hx⟩ := (binaryArraySearchGte_exact_eq_some_iff hc hs).1 hex
        exact (hv (hx ▸ List.getElem_mem hj)).elim
    rcases hr : binaryArraySearchGte ldbValEqualExactOrdered v list with ⟨x, y⟩
    rw [hr] at hfst
    dsimp only at hfst
    rw [hfst]

theorem insertEntry_sorted {list list' : List LdbVal} {msg : IndexedMsg}
    (hs : list.Pairwise ValLt) (hnew : ∀ v, msg.guid = some v → v ∉ list)
    (h : insertEntry true list msg = .ok list') : list'.Pairwise ValLt := by
  unfold insertEntry at h
  rw [if_neg (by decide)] at h
  cases hg : msg.guid with
  | none => rw [hg] at h; cases h
  | some keyVal =>
    rw [hg] at h
    dsimp only at h
    rw [if_neg (by rintro hlen; rw [if_pos hlen] at h; cases h)] at h
    have hsorted := pairwise_insert_at_next ldbValEqualExactOrdered_isComparison hs (hnew keyVal hg)
    generalize (binaryArraySearchGte ldbValEqualExactOrdered keyVal list).2 = next at h hsorted
    cases next <;> cases h <;> exact hsorted

theorem ldbKvIndexAdd1_ok {guidIndex isIdxDn unique truncated : Bool}
    {idxDnRecord : LdbVal → IdxDnRecord} {msg : IndexedMsg} {list list' : List LdbVal}
    (h : ldbKvIndexAdd1 guidIndex idxDnRecord isIdxDn unique truncated msg list = .ok list') :
    insertEntry guidIndex list msg = .ok list' := by
  unfold ldbKvIndexAdd1 at h
  by_cases h₁ : (truncated && unique) = true
  · simp only [h₁, if_true] at h
    cases h
  simp only [h₁, Bool.false_eq_true, if_false] at h
  by_cases h₂ : (decide (list ≠ []) && isIdxDn && !truncated) = true
  · simp only [h₂, if_true] at h
    cases h
  simp only [h₂, Bool.false_eq_true, if_false] at h
  by_cases h₃ : (decide (list ≠ []) && unique) = true
  · simp only [h₃, if_true] at h
    split at h
    · cases hd : idxDnDuplicateCheck idxDnRecord list <;> rw [hd] at h <;> cases h
    · cases h
  simp only [h₃, Bool.false_eq_true, if_false] at h
  split at h
  · cases hd : idxDnDuplicateCheck idxDnRecord list with
    | error e => rw [hd] at h; cases h
    | ok u => rw [hd] at h; exact h
  · exact h

theorem ldbKvIndexDelValue_sorted {list : List LdbVal} (guidIndex dnSpecial : Bool)
    (msg : IndexedMsg) (hs : list.Pairwise ValLt) :
    (ldbKvIndexDelValue guidIndex dnSpecial msg list).Pairwise ValLt := by
  unfold ldbKvIndexDelValue
  dsimp only
  split_ifs
  · exact hs
  · exact hs
  · exact hs.sublist (List.eraseIdx_sublist _ _)

section Runs

variable (idxDnRecord : LdbVal → IdxDnRecord)

def addsNewGuid (idx : IndexStore κ) : IndexOp κ → Bool
  | .add1 key _ _ _ msg =>
    match msg.guid with
    | none => true
    | some v => decide (v ∉ idx key)
  | .delValue _ _ _ => true

def freshAdds : IndexStore κ → List (IndexOp κ) → Bool
  | _, [] => true
  | idx, op :: ops => addsNewGuid idx op && freshAdds (indexStep true idxDnRecord idx op) ops

def IndexSorted (idx : IndexStore κ) : Prop := ∀ key, (idx key).Pairwise ValLt

theorem IndexSorted.store {idx : IndexStore κ} (h : IndexSorted idx) {key : κ} {list : List LdbVal}
    (hl : list.Pairwise ValLt) : IndexSorted (idx.store key list) := by
  intro key'
  unfold IndexStore.store
  rw [Function.update_apply]
  split_ifs
  · exact hl
  · exact h key'

theorem indexStep_sorted {idx : IndexStore κ} {op : IndexOp κ} (h : IndexSorted idx)
    (hnew : addsNewGuid idx op = true) : IndexSorted (indexStep true idxDnRecord idx op) := by
  cases op with
  | add1 key isIdxDn unique truncated msg =>
    have hfresh : ∀ v, msg.guid = some v → v ∉ idx key := by
      intro v hv
      simpa [addsNewGuid, hv] using hnew
    dsimp only [indexStep]
    split
    · rename_i list hadd
      exact h.store (insertEntry_sorted (h key) hfresh (ldbKvIndexAdd1_ok hadd))
    · exact h
  | delValue key dnSpecial msg =>
    exact h.store (ldbKvIndexDelValue_sorted true dnSpecial msg (h key))

theorem indexRun_sorted {idx : IndexStore κ} {ops : List (IndexOp κ)} (h : IndexSorted idx)
    (hfresh : freshAdds idxDnRecord idx ops = true) :
    IndexSorted (indexRun true idxDnRecord idx ops) := by
  induction ops generalizing idx with
  | nil => exact h
  | cons op ops ih =>
    simp only [freshAdds, Bool.and_eq_true] at hfresh
    exact ih (indexStep_sorted idxDnRecord h hfresh.1) hfresh.2

theorem indexRun_findVal_exact {idx : IndexStore κ} {ops : List (IndexOp κ)}
    (h₀ : IndexSorted idx) (hfresh : freshAdds idxDnRecord idx ops = true) (key : κ)
    (list : List LdbVal) (hlist : indexRun true idxDnRecord idx ops key = list) :
    list.Pairwise ValLt ∧ (list.length ≤ intMax → ∀ v,
      (∀ i (hi : i < list.length), list[i] = v → ldbKvDnListFindVal true list v = i) ∧
        (v ∉ list → ldbKvDnListFindVal true list v = -1)) := by
  have hs : list.Pairwise ValLt := hlist ▸ indexRun_sorted idxDnRecord h₀ hfresh key
  exact ⟨hs, fun hlen v ↦ ldbKvDnListFindVal_sorted hs hlen v⟩

end Runs

def freshKeyRun : List (IndexOp Unit) :=
  [.add1 () false false false msgY, .add1 () false false false msgX, .delValue () false msgY]

theorem indexRun_findVal_exact_freshKeyRun :
    IndexSorted (fun (_ : Unit) ↦ []) ∧
      freshAdds (fun _ ↦ .otherDn) (fun _ ↦ []) freshKeyRun = true ∧
      indexRun true (fun _ ↦ .otherDn) (fun _ ↦ []) freshKeyRun () = [guidOne] ∧
      [guidOne].Pairwise ValLt :=
  have h₀ : IndexSorted (fun (_ : Unit) ↦ []) := fun _ ↦ List.Pairwise.nil
  have hfresh : freshAdds (fun _ ↦ .otherDn) (fun _ ↦ []) freshKeyRun = true := by decide +kernel
  have hlist : indexRun true (fun _ ↦ .otherDn) (fun _ ↦ []) freshKeyRun () = [guidOne] := by
    decide +kernel
  ⟨h₀, hfresh, hlist, (indexRun_findVal_exact _ h₀ hfresh () _ hlist).1⟩

end Samba.Ldb.KvIndex
