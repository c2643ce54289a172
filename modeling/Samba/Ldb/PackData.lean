import Samba.Ldb.Pack
import Samba.Lib.CString
import Samba.Lib.Fallible

namespace Samba.Ldb.PackData

open Samba.Lib.CString Samba.Ldb.Pack

inductive PackErrno
  | enomem | emsgsize | einval
  deriving DecidableEq, Repr

def pushLeU8 (v : Nat) : List UInt8 := [UInt8.ofNat v]

def pushLeU16 (v : Nat) : List UInt8 := [UInt8.ofNat v, UInt8.ofNat (v % 2 ^ 16 / 2 ^ 8)]

def pushLeU32 (v : Nat) : List UInt8 := pushLeU16 (v % 2 ^ 32 % 2 ^ 16) ++ pushLeU16 (v % 2 ^ 32 / 2 ^ 16)

@[simp] theorem pushLeU16_length (v : Nat) : (pushLeU16 v).length = 2 := rfl

@[simp] theorem pushLeU32_length (v : Nat) : (pushLeU32 v).length = 4 := rfl

structure ElementData where
  name : List UInt8
  values : List (List UInt8)
  deriving DecidableEq, Repr

structure MessageData (Dn : Type) where
  dn : Dn
  elements : List ElementData

def distinguishedName : List UInt8 :=
  [0x64, 0x69, 0x73, 0x74, 0x69, 0x6e, 0x67, 0x75, 0x69, 0x73, 0x68, 0x65, 0x64, 0x4e, 0x61, 0x6d,
    0x65]

/-- `attribute_storable_values`: `0` for an element that is not stored. -/
def attributeStorableValues (el : ElementData) : Nat :=
  if el.values.length = 0 then 0
  else if strcasecmp el.name distinguishedName = 0 then 0
  else el.values.length

def storedElements (elements : List ElementData) : List ElementData :=
  elements.filter (attributeStorableValues · ≠ 0)

/-- `size += n` after the test `size + n < size`, which fails with `ENOMEM` when
the `size_t` sum wraps. -/
def growSize (size n : Nat) : Except PackErrno Nat :=
  if size + n < 2 ^ 64 then .ok (size + n) else .error .enomem

def packValuesV1 (values : List (List UInt8)) : List UInt8 :=
  values.flatMap fun v ↦ pushLeU32 v.length ++ v ++ [0]

def packElementV1 (el : ElementData) : List UInt8 :=
  cString el.name ++ [0] ++ pushLeU32 el.values.length ++ packValuesV1 el.values

def addElementSizeV1 (acc : Nat × Nat) (el : ElementData) : Except PackErrno (Nat × Nat) := do
  let (size, realElements) := acc
  if attributeStorableValues el = 0 then return (size, realElements)
  let size ← growSize size (4 + 1)
  let size ← growSize size (strlen el.name)
  let size ← el.values.foldlM (fun size v ↦ do
    let size ← growSize size (4 + 1)
    growSize size v.length) size
  return (size, realElements + 1)

section Packers

variable {Dn : Type} (ldbDnGetLinearized : Dn → Option (List UInt8))

/-- `ldb_pack_data_v1`. -/
def ldbPackDataV1 (message : MessageData Dn) : Except PackErrno (List UInt8) := do
  let some dn := ldbDnGetLinearized message.dn | throw .enomem
  let size ← growSize (4 * 2 + 1) (strlen dn)
  let (size, realElements) ← message.elements.foldlM addElementSizeV1 (size, 0)
  if !tallocArrayFits 1 size then throw .enomem
  return pushLeU32 ldbPackingFormat ++ pushLeU32 realElements ++ cString dn ++ [0] ++
    (storedElements message.elements).flatMap packElementV1

end Packers

def maxValLen (values : List (List UInt8)) : Nat := values.foldl (fun m v ↦ max m v.length) 0

/-- `val_len_width`: the bytes each value length of an element takes, as its
longest value needs; `EMSGSIZE` beyond `UINT_MAX`. -/
def valLenWidth (maxValLen : Nat) : Except PackErrno Nat :=
  if maxValLen ≤ 255 then .ok 1
  else if maxValLen ≤ 65535 then .ok 2
  else if maxValLen ≤ 4294967295 then .ok 4
  else .error .emsgsize

def pushValueLength (width len : Nat) : List UInt8 :=
  if width = 1 then pushLeU8 len
  else if width = 2 then pushLeU16 len
  else if width = 4 then pushLeU32 len
  else []

def packNameEntryV2 (el : ElementData) (width : Nat) : List UInt8 :=
  pushLeU32 (strlen el.name) ++ cString el.name ++ [0] ++ pushLeU32 el.values.length ++
    pushLeU8 width ++ el.values.flatMap fun v ↦ pushValueLength width v.length

def packValuesV2 (el : ElementData) : List UInt8 := el.values.flatMap (· ++ [0])

def nameEntryV2 (el : ElementData) : Except PackErrno (List UInt8) := do
  let width ← valLenWidth (maxValLen el.values)
  pure (packNameEntryV2 el width)

def addElementSizeV2 (acc : Nat × Nat) (el : ElementData) : Except PackErrno (Nat × Nat) := do
  let (size, realElements) := acc
  if attributeStorableValues el = 0 then return (size, realElements)
  let size ← growSize size (strlen el.name + 4 * 2 + 1)
  let size ← el.values.foldlM (fun size v ↦ growSize size (v.length + 1)) size
  let width ← valLenWidth (maxValLen el.values)
  let size ← growSize size (width * el.values.length + 1)
  return (size, realElements + 1)

section Packers

variable {Dn : Type} (ldbDnGetLinearized : Dn → Option (List UInt8))
  (ldbDnIsSpecial : Dn → Bool) (ldbDnCanonicalString : Dn → Option (List UInt8))

def packedDnCanon (size : Nat) (dn : Dn) : Except PackErrno (List UInt8) :=
  if ldbDnIsSpecial dn then pure []
  else match ldbDnCanonicalString dn with
    | none => throw .enomem
    | some dnCanon => do
      let _ ← growSize size (strlen dnCanon + 1)
      pure dnCanon

/-- `ldb_pack_data_v2`. The second pass works out the widths again, and the
record is refused if the writes did not end at its end. -/
def ldbPackDataV2 (message : MessageData Dn) : Except PackErrno (List UInt8) := do
  let some dn := ldbDnGetLinearized message.dn | throw .enomem
  let dnLen := strlen dn + 1
  let size ← growSize (4 * 5) dnLen
  let dnCanon ← packedDnCanon ldbDnIsSpecial ldbDnCanonicalString size message.dn
  let dnCanonLen := strlen dnCanon + 1
  let (size, realElements) ← message.elements.foldlM addElementSizeV2 (size + dnCanonLen, 0)
  if !tallocArrayFits 1 size then throw .enomem
  let stored := storedElements message.elements
  let names ← stored.mapM nameEntryV2
  let data := pushLeU32 ldbPackingFormatV2 ++ pushLeU32 realElements ++ pushLeU32 (dnLen - 1) ++
    cString dn ++ [0] ++ pushLeU32 (dnCanonLen - 1) ++ cString dnCanon ++ [0] ++
    pushLeU32 (4 + names.flatten.length) ++ names.flatten ++ stored.flatMap packValuesV2
  if data.length ≠ size then throw .enomem
  return data

/-- `ldb_pack_data`. -/
def ldbPackData (message : MessageData Dn) (packFormatVersion : Nat) :
    Except PackErrno (List UInt8) :=
  if packFormatVersion = ldbPackingFormat then ldbPackDataV1 ldbDnGetLinearized message
  else if packFormatVersion = ldbPackingFormatV2 then
    ldbPackDataV2 ldbDnGetLinearized ldbDnIsSpecial ldbDnCanonicalString message
  else .error .einval

end Packers

open Samba.Lib.Fallible

theorem growSize_eq_ok {size n s : Nat} (h : growSize size n = .ok s) : s = size + n := by
  unfold growSize at h
  split at h
  · exact (Except.ok.inj h).symm
  · cases h

theorem foldlM_valueSizeV1 {values : List (List UInt8)} {size s : Nat}
    (h : values.foldlM (fun size v ↦ do
      let size ← growSize size (4 + 1)
      growSize size v.length) size = .ok s) :
    s = size + (packValuesV1 values).length := by
  have hstep : ∀ a (v : List UInt8) b,
      (do let a ← growSize a (4 + 1); growSize a v.length) = Except.ok b →
        id b = id a + (pushLeU32 v.length ++ v ++ [0]).length := by
    intro a v b hb
    obtain ⟨a', ha', hb⟩ := bind_eq_ok.mp hb
    rw [id, id, growSize_eq_ok hb, growSize_eq_ok ha', List.length_append, List.length_append,
      pushLeU32_length, List.length_singleton]
    omega
  have hfold := foldlM_eq_ok_foldl id (fun s v ↦ s + (pushLeU32 v.length ++ v ++ [0]).length) hstep h
  rw [id, id, foldl_add] at hfold
  rw [hfold, packValuesV1, List.length_flatMap]

-- equation lemmas made once, before the proofs below use them in parallel
attribute [local simp] Samba.Ldb.Pack.tallocArrayFits.eq_1 storedElements.eq_1 packElementV1.eq_1
attribute [-simp] Samba.Ldb.Pack.tallocArrayFits.eq_1 storedElements.eq_1 packElementV1.eq_1

theorem addElementSizeV1_eq_ok {acc b : Nat × Nat} {el : ElementData}
    (h : addElementSizeV1 acc el = .ok b) :
    b.1 = (if attributeStorableValues el ≠ 0 then acc.1 + (packElementV1 el).length else acc.1) ∧
      b.2 = if attributeStorableValues el ≠ 0 then acc.2 + 1 else acc.2 := by
  obtain ⟨size, real⟩ := acc
  unfold addElementSizeV1 at h
  dsimp only at h
  by_cases hs : attributeStorableValues el = 0
  · rw [if_pos hs, pure_eq_ok] at h
    subst h
    simp [hs]
  · rw [if_neg hs] at h
    obtain ⟨s₁, h₁, h⟩ := bind_eq_ok.mp h
    obtain ⟨s₂, h₂, h⟩ := bind_eq_ok.mp h
    obtain ⟨s₃, h₃, h⟩ := bind_eq_ok.mp h
    rw [pure_eq_ok] at h
    subst h
    rw [if_pos hs, if_pos hs]
    refine ⟨?_, rfl⟩
    dsimp only
    rw [foldlM_valueSizeV1 h₃, growSize_eq_ok h₂, growSize_eq_ok h₁]
    simp only [packElementV1, strlen, List.length_append, pushLeU32_length, List.length_singleton]
    omega

theorem foldlM_count {f : Nat × Nat → ElementData → Except PackErrno (Nat × Nat)}
    (hf : ∀ acc el b, f acc el = .ok b →
      b.2 = if attributeStorableValues el ≠ 0 then acc.2 + 1 else acc.2)
    {elements : List ElementData} {acc b : Nat × Nat} (h : elements.foldlM f acc = .ok b) :
    b.2 = acc.2 + (storedElements elements).length := by
  have hfold := foldlM_eq_ok_foldl Prod.snd
    (fun r el ↦ if attributeStorableValues el ≠ 0 then r + 1 else r) hf h
  rw [foldl_ite_add] at hfold
  rw [hfold, storedElements, List.map_const', List.sum_replicate, smul_eq_mul, Nat.mul_one]

theorem foldlM_addElementSizeV1 {elements : List ElementData} {acc b : Nat × Nat}
    (h : elements.foldlM addElementSizeV1 acc = .ok b) :
    b = (acc.1 + ((storedElements elements).flatMap packElementV1).length,
      acc.2 + (storedElements elements).length) := by
  have h₁ := foldlM_eq_ok_foldl Prod.fst
    (fun s el ↦ if attributeStorableValues el ≠ 0 then s + (packElementV1 el).length else s)
    (fun _ _ _ hb ↦ (addElementSizeV1_eq_ok hb).1) h
  rw [foldl_ite_add] at h₁
  refine Prod.ext ?_ (foldlM_count (fun _ _ _ hb ↦ (addElementSizeV1_eq_ok hb).2) h)
  rw [h₁, storedElements, List.length_flatMap]

section Packers

variable {Dn : Type} (ldbDnGetLinearized : Dn → Option (List UInt8))

theorem ldbPackDataV1_eq_ok {message : MessageData Dn} {data : List UInt8}
    (h : ldbPackDataV1 ldbDnGetLinearized message = .ok data) :
    ∃ dn, ldbDnGetLinearized message.dn = some dn ∧ data.length < 2 ^ 28 ∧
      data = pushLeU32 ldbPackingFormat ++ pushLeU32 (storedElements message.elements).length ++
        cString dn ++ [0] ++ (storedElements message.elements).flatMap packElementV1 := by
  unfold ldbPackDataV1 at h
  cases hdn : ldbDnGetLinearized message.dn with
  | none => rw [hdn] at h; cases h
  | some dn =>
    rw [hdn] at h
    refine ⟨dn, rfl, ?_⟩
    obtain ⟨size, hsize, h⟩ := bind_eq_ok.mp h
    obtain ⟨⟨size', real⟩, hfold, h⟩ := bind_eq_ok.mp h
    obtain ⟨hsize', hreal⟩ := Prod.ext_iff.mp (foldlM_addElementSizeV1 hfold)
    dsimp only at h hsize' hreal
    by_cases hfits : tallocArrayFits 1 size' = true
    · simp only [hfits, Bool.not_true, Bool.false_eq_true, ↓reduceIte, pure_eq_ok] at h
      subst h hreal
      refine ⟨?_, by rw [Nat.zero_add]⟩
      have hlen : size' < 2 ^ 28 := by simpa [tallocArrayFits, maxTallocSize] using hfits
      rw [growSize_eq_ok hsize] at hsize'
      simp only [List.length_append, pushLeU32_length, List.length_singleton, strlen] at hsize' ⊢
      omega
    · rw [Bool.not_eq_true] at hfits
      simp only [hfits, Bool.not_false, ↓reduceIte] at h
      cases h

end Packers

theorem addElementSizeV2_count {acc b : Nat × Nat} {el : ElementData}
    (h : addElementSizeV2 acc el = .ok b) :
    b.2 = if attributeStorableValues el ≠ 0 then acc.2 + 1 else acc.2 := by
  obtain ⟨size, real⟩ := acc
  unfold addElementSizeV2 at h
  dsimp only at h
  by_cases hs : attributeStorableValues el = 0
  · rw [if_pos hs, pure_eq_ok] at h
    rw [← h, if_neg (not_not.mpr hs)]
  · rw [if_neg hs] at h
    obtain ⟨_, _, h⟩ := bind_eq_ok.mp h
    obtain ⟨_, _, h⟩ := bind_eq_ok.mp h
    obtain ⟨_, _, h⟩ := bind_eq_ok.mp h
    obtain ⟨_, _, h⟩ := bind_eq_ok.mp h
    rw [pure_eq_ok] at h
    rw [← h, if_pos hs]

section Packers

variable {Dn : Type} (ldbDnGetLinearized : Dn → Option (List UInt8))
  (ldbDnIsSpecial : Dn → Bool) (ldbDnCanonicalString : Dn → Option (List UInt8))

theorem ldbPackDataV2_eq_ok {message : MessageData Dn} {data : List UInt8}
    (h : ldbPackDataV2 ldbDnGetLinearized ldbDnIsSpecial ldbDnCanonicalString message = .ok data) :
    ∃ dn dnCanon names, ldbDnGetLinearized message.dn = some dn ∧
      (if ldbDnIsSpecial message.dn then some [] else ldbDnCanonicalString message.dn) =
        some dnCanon ∧
      List.Forall₂ (fun el entry ↦ nameEntryV2 el = .ok entry) (storedElements message.elements)
        names ∧
      data.length < 2 ^ 28 ∧
      data = pushLeU32 ldbPackingFormatV2 ++ pushLeU32 (storedElements message.elements).length ++
        pushLeU32 (strlen dn) ++ cString dn ++ [0] ++ pushLeU32 (strlen dnCanon) ++
        cString dnCanon ++ [0] ++ pushLeU32 (4 + names.flatten.length) ++ names.flatten ++
        (storedElements message.elements).flatMap packValuesV2 := by
  unfold ldbPackDataV2 at h
  cases hdn : ldbDnGetLinearized message.dn with
  | none => rw [hdn] at h; cases h
  | some dn =>
    rw [hdn] at h
    obtain ⟨size, -, h⟩ := bind_eq_ok.mp h
    obtain ⟨dnCanon, hcanon, h⟩ := bind_eq_ok.mp h
    have hcanon' : (if ldbDnIsSpecial message.dn then some [] else ldbDnCanonicalString message.dn) =
        some dnCanon := by
      unfold packedDnCanon at hcanon
      by_cases hs : ldbDnIsSpecial message.dn = true
      · rw [if_pos hs, pure_eq_ok] at hcanon
        rw [if_pos hs, hcanon]
      · rw [if_neg hs] at hcanon ⊢
        cases hc : ldbDnCanonicalString message.dn with
        | none => rw [hc] at hcanon; cases hcanon
        | some c =>
          rw [hc] at hcanon
          obtain ⟨_, _, hcanon⟩ := bind_eq_ok.mp hcanon
          rw [pure_eq_ok] at hcanon
          rw [hcanon]
    obtain ⟨⟨size', real⟩, hfold, h⟩ := bind_eq_ok.mp h
    have hreal := foldlM_count (fun _ _ _ hb ↦ addElementSizeV2_count hb) hfold
    dsimp only at h hreal
    by_cases hfits : tallocArrayFits 1 size' = true
    · simp only [hfits, Bool.not_true, Bool.false_eq_true, ↓reduceIte] at h
      obtain ⟨names, hnames, h⟩ := bind_eq_ok.mp h
      have hlen : size' < 2 ^ 28 := by simpa [tallocArrayFits, maxTallocSize] using hfits
      split at h
      · cases h
      · rename_i hend
        rw [pure_eq_ok] at h
        subst h hreal
        refine ⟨dn, dnCanon, names, rfl, hcanon', mapM_eq_ok.mp hnames, ?_, ?_⟩
        · rw [not_not] at hend
          rw [hend]
          exact hlen
        · rw [Nat.zero_add, Nat.add_sub_cancel, Nat.add_sub_cancel]
    · simp only [Bool.not_eq_true] at hfits
      simp only [hfits, Bool.not_false, ↓reduceIte] at h
      cases h

end Packers

theorem values_ne_nil_of_mem_storedElements {el : ElementData} {elements : List ElementData}
    (h : el ∈ storedElements elements) : el.values ≠ [] := by
  rw [storedElements, List.mem_filter] at h
  intro hnil
  apply of_decide_eq_true h.2
  rw [attributeStorableValues, if_pos (by rw [hnil]; rfl)]

theorem le_foldl_max (values : List (List UInt8)) :
    ∀ m, m ≤ values.foldl (fun m v ↦ max m v.length) m := by
  induction values with
  | nil => intro m; exact Nat.le_refl m
  | cons v values ih =>
    intro m
    exact Nat.le_trans (Nat.le_max_left m v.length) (ih _)

theorem length_le_maxValLen {v : List UInt8} {values : List (List UInt8)} (h : v ∈ values) :
    v.length ≤ maxValLen values := by
  unfold maxValLen
  generalize 0 = m
  induction values generalizing m with
  | nil => cases h
  | cons w values ih =>
    rw [List.foldl_cons]
    rcases List.mem_cons.mp h with rfl | h
    · exact Nat.le_trans (Nat.le_max_right m v.length) (le_foldl_max values _)
    · exact ih h _

theorem valLenWidth_eq_ok {m w : Nat} (h : valLenWidth m = .ok w) :
    (w = 1 ∧ m < 2 ^ 8) ∨ (w = 2 ∧ m < 2 ^ 16) ∨ (w = 4 ∧ m < 2 ^ 32) := by
  unfold valLenWidth at h
  split at h
  · cases h
    exact Or.inl ⟨rfl, by omega⟩
  split at h
  · cases h
    exact Or.inr (Or.inl ⟨rfl, by omega⟩)
  split at h
  · cases h
    exact Or.inr (Or.inr ⟨rfl, by omega⟩)
  · cases h

theorem nameEntryV2_eq_ok {el : ElementData} {entry : List UInt8} (h : nameEntryV2 el = .ok entry) :
    ∃ w, valLenWidth (maxValLen el.values) = .ok w ∧ entry = packNameEntryV2 el w := by
  obtain ⟨w, hw, h⟩ := bind_eq_ok.mp h
  exact ⟨w, hw, (pure_eq_ok.mp h).symm⟩

end Samba.Ldb.PackData
