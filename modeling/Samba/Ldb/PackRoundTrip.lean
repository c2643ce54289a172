import Samba.Ldb.PackData
import Samba.Ldb.DnCompare

namespace Samba.Ldb.PackRoundTrip

open Samba.Lib.CString Samba.Lib.ReadLog Samba.Lib.Fallible Samba.Ldb.Pack Samba.Ldb.PackData

def valueBytes (mem : Nat → UInt8) (v : LdbVal) : List UInt8 :=
  (List.range v.length).map fun i ↦ mem (v.data + i)

def Unpacked (mem : Nat → UInt8) (e : LdbMessageElement) (el : ElementData) : Prop :=
  e.flags = 0 ∧ StoredAt mem e.name (el.name ++ [0]) ∧ e.values.map (valueBytes mem) = el.values

structure Fits (el : ElementData) : Prop where
  name_ne_nil : el.name ≠ []
  zero_not_mem : 0 ∉ el.name
  values_ne_nil : el.values ≠ []
  values_lt : el.values.length < 2 ^ 24

section Reading

variable {mem : Nat → UInt8}

theorem pullLeU8_returns {p : Nat} {b : UInt8} (h : mem p = b) :
    Returns (pullLeU8 mem p) (· = b.toNat) := by
  unfold pullLeU8
  exact Returns.bind Returns.readByte fun c hc ↦ Returns.pure (by rw [hc, h])

theorem pullLeU16_returns {p v : Nat} (h : StoredAt mem p (pushLeU16 v)) :
    Returns (pullLeU16 mem p) (· = v % 2 ^ 16) := by
  rw [pushLeU16, StoredAt.cons, StoredAt.cons] at h
  obtain ⟨hlo, hhi, -⟩ := h
  unfold pullLeU16
  refine Returns.bind (pullLeU8_returns hlo) fun lo hlo' ↦ ?_
  refine Returns.bind (pullLeU8_returns hhi) fun hi hhi' ↦ Returns.pure ?_
  rw [hlo', hhi', UInt8.toNat_ofNat', UInt8.toNat_ofNat']
  omega

theorem pullLeU32_returns {p v : Nat} (h : StoredAt mem p (pushLeU32 v)) :
    Returns (pullLeU32 mem p) (· = v % 2 ^ 32) := by
  rw [pushLeU32, StoredAt.append, pushLeU16_length] at h
  obtain ⟨hlo, hhi⟩ := h
  unfold pullLeU32
  refine Returns.bind (pullLeU16_returns hlo) fun lo hlo' ↦ ?_
  refine Returns.bind (pullLeU16_returns hhi) fun hi hhi' ↦ Returns.pure ?_
  rw [hlo', hhi']
  omega

theorem strnlen_returns {s : List UInt8} (hs : 0 ∉ s) :
    ∀ {p maxlen : Nat}, StoredAt mem p (s ++ [0]) → s.length < maxlen →
      Returns (strnlen mem p maxlen) (· = s.length) := by
  induction s with
  | nil =>
    intro p maxlen h hlen
    obtain ⟨m, rfl⟩ : ∃ m, maxlen = m + 1 := ⟨maxlen - 1, by simp at hlen; omega⟩
    unfold strnlen
    refine Returns.bind (pullLeU8_returns (StoredAt.cons.mp h).1) fun c hc ↦ ?_
    rw [if_pos (by rw [hc]; rfl)]
    exact Returns.pure rfl
  | cons b s ih =>
    intro p maxlen h hlen
    obtain ⟨m, rfl⟩ : ∃ m, maxlen = m + 1 := ⟨maxlen - 1, by simp at hlen; omega⟩
    rw [List.cons_append, StoredAt.cons] at h
    have hb : b ≠ 0 := fun hb ↦ hs (hb ▸ List.mem_cons_self)
    unfold strnlen
    refine Returns.bind (pullLeU8_returns h.1) fun c hc ↦ ?_
    rw [if_neg (by rw [hc]; exact mt (toNat_eq_zero_iff b).mp hb)]
    refine Returns.bind (ih (fun h0 ↦ hs (List.mem_cons_of_mem b h0)) h.2
      (by simp at hlen; omega)) fun n hn ↦ Returns.pure ?_
    rw [hn, List.length_cons]

theorem readBytes_returns {s : List UInt8} :
    ∀ {p : Nat}, StoredAt mem p s → Returns (readBytes mem p s.length) (· = s) := by
  induction s with
  | nil => intro p _; exact Returns.pure rfl
  | cons b s ih =>
    intro p h
    rw [StoredAt.cons] at h
    unfold readBytes
    refine Returns.bind Returns.readByte fun c hc ↦ ?_
    exact Returns.bind (ih h.2) fun bs hbs ↦ Returns.pure (by rw [hc, h.1, hbs])

theorem valueBytes_of_storedAt {v : List UInt8} {p : Nat} (h : StoredAt mem p v) :
    valueBytes mem ⟨p, v.length⟩ = v :=
  h.map_range

end Reading

section V1

variable {mem : Nat → UInt8}

theorem packValuesV1_cons (v : List UInt8) (values : List (List UInt8)) :
    packValuesV1 (v :: values) = pushLeU32 v.length ++ v ++ [0] ++ packValuesV1 values :=
  List.flatMap_cons

theorem unpackValuesV1_returns {values : List (List UInt8)} :
    ∀ {p remaining : Nat}, StoredAt mem p (packValuesV1 values) →
      (packValuesV1 values).length ≤ remaining → remaining < 2 ^ 32 →
      Returns (unpackValuesV1 mem values.length p remaining) fun r ↦
        r.1.map (valueBytes mem) = values ∧ r.2.1 = p + (packValuesV1 values).length ∧
          r.2.2 = remaining - (packValuesV1 values).length := by
  induction values with
  | nil =>
    intro p remaining _ _ _
    exact Returns.pure ⟨rfl, rfl, rfl⟩
  | cons v values ih =>
    intro p remaining hmem hrem hbound
    rw [packValuesV1_cons, StoredAt.append, StoredAt.append, StoredAt.append] at hmem
    obtain ⟨⟨⟨hlen, hv⟩, hnul⟩, hrest⟩ := hmem
    rw [pushLeU32_length] at hv
    simp only [packValuesV1_cons, List.length_append, pushLeU32_length, List.length_singleton]
      at hrem hrest ⊢
    rw [List.length_cons]
    unfold unpackValuesV1
    rw [if_neg (by omega)]
    refine Returns.bind (pullLeU32_returns hlen) fun len hlen' ↦ ?_
    rw [Nat.mod_eq_of_lt (by omega)] at hlen'
    subst hlen'
    rw [if_neg (by omega)]
    have hnext : p + v.length + 4 + 1 = p + (4 + v.length + 1) := by omega
    refine Returns.bind (ih (by rwa [hnext]) (by omega) (by omega)) fun r hr ↦ ?_
    obtain ⟨vals, p', remaining'⟩ := r
    obtain ⟨hvals, hp', hrem'⟩ := hr
    dsimp only at hvals hp' hrem'
    refine Returns.pure ⟨?_, ?_, ?_⟩
    · rw [List.map_cons, hvals, valueBytes_of_storedAt hv]
    · dsimp only
      omega
    · dsimp only
      omega

theorem packValuesV1_length_ge {values : List (List UInt8)} (h : values ≠ []) :
    5 ≤ (packValuesV1 values).length := by
  obtain ⟨v, vs, rfl⟩ := List.exists_cons_of_ne_nil h
  rw [packValuesV1_cons]
  simp only [List.length_append, pushLeU32_length, List.length_singleton]
  omega

theorem unpackElementV1_returns {el : ElementData} (hel : Fits el) {p remaining : Nat}
    (hmem : StoredAt mem p (packElementV1 el)) (hrem : (packElementV1 el).length ≤ remaining)
    (hbound : remaining < 2 ^ 32) :
    Returns (unpackElementV1 mem 0 p remaining) fun r ↦ Unpacked mem r.1 el ∧
      r.2.1 = p + (packElementV1 el).length ∧ r.2.2 = remaining - (packElementV1 el).length := by
  have hvals := packValuesV1_length_ge hel.values_ne_nil
  have hname : el.name.length ≠ 0 := mt List.length_eq_zero_iff.mp hel.name_ne_nil
  have hfits : tallocArrayFits 16 el.values.length = true := by
    unfold tallocArrayFits maxTallocSize
    exact decide_eq_true (by have := hel.values_lt; omega)
  rw [packElementV1, cString_eq_self hel.zero_not_mem] at hmem hrem ⊢
  rw [StoredAt.append, StoredAt.append] at hmem
  obtain ⟨⟨hnameAt, hcount⟩, hvalsAt⟩ := hmem
  simp only [List.length_append, List.length_singleton, pushLeU32_length] at hrem hcount hvalsAt ⊢
  unfold unpackElementV1
  rw [if_neg (by omega)]
  refine Returns.bind (strnlen_returns hel.zero_not_mem hnameAt (by omega)) fun attrLen hattr ↦ ?_
  subst hattr
  rw [if_neg (by omega), if_neg hname, if_neg (by omega)]
  refine Returns.bind (pullLeU32_returns hcount) fun numValues hnum ↦ ?_
  rw [Nat.mod_eq_of_lt (by have := hel.values_lt; omega)] at hnum
  subst hnum
  dsimp only
  rw [if_neg (by simp [hfits]), if_neg (by omega)]
  have hvalsAt' : StoredAt mem (p + el.name.length + 1 + 4) (packValuesV1 el.values) := by
    rwa [show p + el.name.length + 1 + 4 = p + (el.name.length + 1 + 4) by omega]
  refine Returns.bind (unpackValuesV1_returns hvalsAt' (by omega) (by omega)) fun r hr ↦ ?_
  obtain ⟨values, p', remaining'⟩ := r
  obtain ⟨hvalues, hp', hrem'⟩ := hr
  dsimp only at hvalues hp' hrem'
  refine Returns.pure ⟨⟨by simp, hnameAt, hvalues⟩, ?_, ?_⟩
  · dsimp only
    omega
  · dsimp only
    omega

theorem length_flatMap_packElementV1 {els : List ElementData} (hels : ∀ el ∈ els, Fits el) :
    11 * els.length ≤ (els.flatMap packElementV1).length := by
  induction els with
  | nil => simp
  | cons el els ih =>
    have hel := hels el List.mem_cons_self
    have hvals := packValuesV1_length_ge hel.values_ne_nil
    have hname : el.name.length ≠ 0 := mt List.length_eq_zero_iff.mp hel.name_ne_nil
    have hrest := ih fun el' h ↦ hels el' (List.mem_cons_of_mem el h)
    rw [List.flatMap_cons, List.length_append, packElementV1, cString_eq_self hel.zero_not_mem]
    simp only [List.length_append, pushLeU32_length, List.length_cons]
    omega

theorem unpackElementsV1_returns {els : List ElementData} (hels : ∀ el ∈ els, Fits el) :
    ∀ {p remaining : Nat}, StoredAt mem p (els.flatMap packElementV1) →
      (els.flatMap packElementV1).length ≤ remaining → remaining < 2 ^ 32 →
      Returns (unpackElementsV1 mem 0 els.length p remaining) fun r ↦
        List.Forall₂ (Unpacked mem) r.1 els := by
  induction els with
  | nil =>
    intro p remaining _ _ _
    exact Returns.pure List.Forall₂.nil
  | cons el els ih =>
    intro p remaining hmem hrem hbound
    rw [List.flatMap_cons, StoredAt.append] at hmem
    rw [List.flatMap_cons, List.length_append] at hrem
    rw [List.length_cons]
    unfold unpackElementsV1
    refine Returns.bind (unpackElementV1_returns (hels el List.mem_cons_self) hmem.1 (by omega)
      hbound) fun r hr ↦ ?_
    obtain ⟨element, p₁, remaining₁⟩ := r
    obtain ⟨helement, hp₁, hrem₁⟩ := hr
    dsimp only at helement hp₁ hrem₁ ⊢
    subst hp₁ hrem₁
    refine Returns.bind (ih (fun el' h ↦ hels el' (List.mem_cons_of_mem el h)) hmem.2 (by omega)
      (by omega)) fun r hr ↦ ?_
    exact Returns.pure (List.Forall₂.cons helement hr)

end V1

section Dn

variable {Dn : Type} {mem : Nat → UInt8} {ldbDnFromLdbVal : List UInt8 → Option Dn}

theorem unpackDn_returns {s : List UInt8} {d : Dn} {p : Nat} (hparse : ldbDnFromLdbVal s = some d)
    (hmem : StoredAt mem p s) : Returns (unpackDn mem ldbDnFromLdbVal 0 p s.length) (· = some d) := by
  unfold unpackDn
  rw [if_neg (by decide)]
  refine Returns.bind (readBytes_returns hmem) fun bs hbs ↦ ?_
  subst hbs
  rw [hparse]
  exact Returns.pure rfl

theorem unpackDnV1_returns {s : List UInt8} {d : Dn} {p remaining : Nat} (hs : 0 ∉ s)
    (hparse : ldbDnFromLdbVal s = some d) (hmem : StoredAt mem p (s ++ [0]))
    (hrem : s.length < remaining) :
    Returns (unpackDnV1 mem ldbDnFromLdbVal 0 ldbPackingFormat p remaining)
      (· = (some d, p + s.length + 1, remaining - (s.length + 1))) := by
  unfold unpackDnV1
  rw [if_neg (by decide), if_pos rfl]
  refine Returns.bind (strnlen_returns hs hmem hrem) fun dnLen hdnLen ↦ ?_
  subst hdnLen
  rw [if_neg (by omega)]
  refine Returns.bind (unpackDn_returns hparse (StoredAt.append.mp hmem).1) fun dn hdn ↦ ?_
  subst hdn
  rw [if_neg (by omega)]
  exact Returns.pure rfl

end Dn

def recordV1 (dn : List UInt8) (els : List ElementData) : List UInt8 :=
  pushLeU32 ldbPackingFormat ++ pushLeU32 els.length ++ cString dn ++ [0] ++
    els.flatMap packElementV1

section DecoderV1

variable {Dn : Type} {mem : Nat → UInt8} {ldbDnFromLdbVal : List UInt8 → Option Dn}

-- equation lemmas made once, before the proofs below use them in parallel
attribute [local simp] Samba.Ldb.PackData.ldbPackData.eq_1 recordV1.eq_1
attribute [-simp] Samba.Ldb.PackData.ldbPackData.eq_1 recordV1.eq_1

theorem ldbUnpackDataFlags_recordV1 {dn : List UInt8} {els : List ElementData} {d : Dn}
    (hparse : ldbDnFromLdbVal (cString dn) = some d) (hels : ∀ el ∈ els, Fits el)
    (hcount : els.length < 2 ^ 23) (hmem : StoredAt mem 0 (recordV1 dn els))
    (hbound : (recordV1 dn els).length < 2 ^ 32) :
    Returns (ldbUnpackDataFlags mem ldbDnFromLdbVal (recordV1 dn els).length 0) fun msg ↦
      msg.dn = some d ∧ msg.numElements = els.length ∧
        List.Forall₂ (Unpacked mem) msg.elements els := by
  have h11 := length_flatMap_packElementV1 hels
  rw [recordV1, StoredAt.append, StoredAt.append, StoredAt.append, StoredAt.append] at hmem
  obtain ⟨⟨⟨⟨hformat, hnum⟩, hdn⟩, hnul⟩, hbody⟩ := hmem
  simp only [List.length_append, pushLeU32_length, Nat.zero_add] at hnum hdn hnul hbody
  rw [recordV1] at hbound ⊢
  simp only [List.length_append, pushLeU32_length, List.length_singleton] at hbound ⊢
  unfold ldbUnpackDataFlags
  rw [if_neg (by omega)]
  refine Returns.bind (pullLeU32_returns hformat) fun format hf ↦ ?_
  rw [show ldbPackingFormat % 2 ^ 32 = ldbPackingFormat by decide] at hf
  subst hf
  rw [if_neg (by decide)]
  unfold ldbUnpackDataFlagsV1
  rw [if_neg (by omega)]
  refine Returns.bind (pullLeU32_returns hnum) fun n hn ↦ ?_
  rw [Nat.mod_eq_of_lt (by omega)] at hn
  subst hn
  have hdnAt : StoredAt mem (4 * 2) (cString dn ++ [0]) := StoredAt.append.mpr ⟨hdn, hnul⟩
  refine Returns.bind (unpackDnV1_returns (zero_not_mem_cString dn) hparse hdnAt (by omega))
    fun r hr ↦ ?_
  subst hr
  dsimp only
  rw [if_neg (by decide)]
  by_cases hnil : els = []
  · subst hnil
    rw [if_pos List.length_nil]
    exact Returns.pure ⟨rfl, rfl, List.Forall₂.nil⟩
  have hpos : els.length ≠ 0 := mt List.length_eq_zero_iff.mp hnil
  have hfits : tallocArrayFits 32 els.length = true := by
    unfold tallocArrayFits maxTallocSize
    exact decide_eq_true (by omega)
  rw [if_neg hpos, if_neg (by omega), if_neg (by simp [hfits]), if_neg (by simp)]
  have hbody' : StoredAt mem (4 * 2 + (cString dn).length + 1) (els.flatMap packElementV1) := by
    rwa [show 4 * 2 + (cString dn).length + 1 = 4 + 4 + (cString dn).length + 1 by omega]
  refine Returns.bind (unpackElementsV1_returns hels hbody' (by omega) (by omega)) fun r hr ↦ ?_
  exact Returns.pure ⟨rfl, hr.length_eq, hr⟩

end DecoderV1

section V2

variable {mem : Nat → UInt8}

theorem sizeOfPtrdiff_sub {a b : Nat} (h : b ≤ a) (ha : a < 2 ^ 64) :
    sizeOfPtrdiff ((a : Int) - b) = a - b := by
  unfold sizeOfPtrdiff
  omega

theorem pullValueLengths_returns {pull : Nat → Unpack Nat} {push : Nat → List UInt8}
    {w bound : Nat} (hpush : ∀ len, (push len).length = w)
    (hpull : ∀ p len, len < bound → StoredAt mem p (push len) → Returns (pull p) (· = len))
    {lens : List Nat} :
    ∀ {p : Nat}, (∀ len ∈ lens, len < bound) → StoredAt mem p (lens.flatMap push) →
      Returns (pullValueLengths pull w p lens.length) (· = lens) := by
  induction lens with
  | nil => intro p _ _; exact Returns.pure rfl
  | cons len lens ih =>
    intro p hlt hmem
    rw [List.flatMap_cons, StoredAt.append, hpush] at hmem
    rw [List.length_cons]
    unfold pullValueLengths
    refine Returns.bind (hpull p len (hlt len List.mem_cons_self) hmem.1) fun l hl ↦ ?_
    subst hl
    refine Returns.bind (ih (fun l h ↦ hlt l (List.mem_cons_of_mem _ h)) hmem.2) fun ls hls ↦ ?_
    exact Returns.pure (by rw [hls])

theorem pullLeU8_returns_push {p len : Nat} (hlen : len < 2 ^ 8) (h : StoredAt mem p (pushLeU8 len)) :
    Returns (pullLeU8 mem p) (· = len) :=
  (pullLeU8_returns (StoredAt.cons.mp h).1).conseq fun v hv ↦ by
    rw [hv, UInt8.toNat_ofNat', Nat.mod_eq_of_lt hlen]

theorem pullLengths_bind_returns {β : Type} {k : List Nat → Unpack β} {R : β → Prop}
    {values : List (List UInt8)} {w p : Nat}
    (hw : (w = 1 ∧ maxValLen values < 2 ^ 8) ∨ (w = 2 ∧ maxValLen values < 2 ^ 16) ∨
      (w = 4 ∧ maxValLen values < 2 ^ 32))
    (hmem : StoredAt mem p (values.flatMap fun v ↦ pushValueLength w v.length))
    (hk : Returns (k (values.map List.length)) R) :
    Returns (if w = 1 then pullValueLengths (pullLeU8 mem) 1 p values.length >>= k
      else if w = 2 then pullValueLengths (pullLeU16 mem) 2 p values.length >>= k
      else if w = 4 then pullValueLengths (pullLeU32 mem) 4 p values.length >>= k
      else MonadExcept.throw Errno.erange >>= k) R := by
  rw [← List.flatMap_map List.length] at hmem
  have hcount : values.length = (values.map List.length).length := (List.length_map _).symm
  rw [hcount]
  have hlt : ∀ bound, maxValLen values < bound → ∀ len ∈ values.map List.length, len < bound := by
    intro bound hb len hlen
    obtain ⟨v, hv, rfl⟩ := List.mem_map.mp hlen
    exact Nat.lt_of_le_of_lt (length_le_maxValLen hv) hb
  have hthen : ∀ lens, lens = values.map List.length → Returns (k lens) R := by
    rintro _ rfl
    exact hk
  rcases hw with ⟨rfl, hm⟩ | ⟨rfl, hm⟩ | ⟨rfl, hm⟩
  · rw [if_pos rfl]
    refine Returns.bind (pullValueLengths_returns ?_ ?_ (hlt _ hm) hmem) hthen
    · exact fun _ ↦ rfl
    · exact fun _ _ hlen h ↦ pullLeU8_returns_push hlen h
  · rw [if_neg (by decide), if_pos rfl]
    refine Returns.bind (pullValueLengths_returns ?_ ?_ (hlt _ hm) hmem) hthen
    · exact fun _ ↦ rfl
    · exact fun _ _ hlen h ↦ (pullLeU16_returns h).conseq fun v hv ↦ by
        rw [hv, Nat.mod_eq_of_lt hlen]
  · rw [if_neg (by decide), if_neg (by decide), if_pos rfl]
    refine Returns.bind (pullValueLengths_returns ?_ ?_ (hlt _ hm) hmem) hthen
    · exact fun _ ↦ rfl
    · exact fun _ _ hlen h ↦ (pullLeU32_returns h).conseq fun v hv ↦ by
        rw [hv, Nat.mod_eq_of_lt hlen]

theorem placeValuesV2_returns {length : Nat} (hlength : length < 2 ^ 64) {values : List (List UInt8)} :
    ∀ {q : Nat}, StoredAt mem q (values.flatMap (· ++ [0])) →
      q + (values.flatMap (· ++ [0])).length ≤ length →
      Returns (placeValuesV2 length (values.map List.length) q) fun r ↦
        r.1.map (valueBytes mem) = values ∧ r.2 = q + (values.flatMap (· ++ [0])).length := by
  induction values with
  | nil => intro q _ _; exact Returns.pure ⟨rfl, rfl⟩
  | cons v values ih =>
    intro q hmem hq
    rw [List.flatMap_cons, StoredAt.append, StoredAt.append] at hmem
    obtain ⟨⟨hv, -⟩, hrest⟩ := hmem
    rw [List.flatMap_cons, List.length_append, List.length_append, List.length_singleton] at hq ⊢
    rw [List.length_append, List.length_singleton] at hrest
    rw [List.map_cons]
    unfold placeValuesV2
    rw [if_neg (by rw [sizeOfPtrdiff_sub (by omega) hlength]; omega)]
    refine Returns.bind (ih (by rwa [Nat.add_assoc]) (by omega)) fun r hr ↦ ?_
    obtain ⟨vals, q'⟩ := r
    obtain ⟨hvals, hq'⟩ := hr
    dsimp only at hvals hq'
    refine Returns.pure ⟨?_, ?_⟩
    · rw [List.map_cons, hvals, valueBytes_of_storedAt hv]
    · dsimp only
      omega

theorem length_flatMap_pushValueLength {w : Nat} (hw : w = 1 ∨ w = 2 ∨ w = 4)
    (values : List (List UInt8)) :
    (values.flatMap fun v ↦ pushValueLength w v.length).length = w * values.length := by
  induction values with
  | nil => simp
  | cons v values ih =>
    have hv : (pushValueLength w v.length).length = w := by
      rcases hw with rfl | rfl | rfl <;> rfl
    rw [List.flatMap_cons, List.length_append, ih, hv, List.length_cons, Nat.mul_succ]
    omega

theorem unpackElementV2_returns {el : ElementData} (hel : Fits el) {w : Nat}
    (hw : valLenWidth (maxValLen el.values) = .ok w) {length vsp p q : Nat}
    (hnames : StoredAt mem p (packNameEntryV2 el w)) (hp : p + (packNameEntryV2 el w).length ≤ vsp)
    (hvsp : vsp < 2 ^ 32) (hvals : StoredAt mem q (packValuesV2 el))
    (hq : q + (packValuesV2 el).length ≤ length) (hlength : length < 2 ^ 64) :
    Returns (unpackElementV2 mem 0 length vsp p q) fun r ↦ Unpacked mem r.1 el ∧
      r.2.1 = p + (packNameEntryV2 el w).length ∧ r.2.2 = q + (packValuesV2 el).length := by
  have hwidth := valLenWidth_eq_ok hw
  have hw' : w = 1 ∨ w = 2 ∨ w = 4 := by omega
  have hlens := length_flatMap_pushValueLength hw' el.values
  have hcount := hel.values_lt
  have hn : el.values.length ≠ 0 := mt List.length_eq_zero_iff.mp hel.values_ne_nil
  have hname : el.name.length ≠ 0 := mt List.length_eq_zero_iff.mp hel.name_ne_nil
  have hwn : w ≤ w * el.values.length := Nat.le_mul_of_pos_right w (by omega)
  have hwn4 : w * el.values.length ≤ 4 * el.values.length := Nat.mul_le_mul_right _ (by omega)
  have hfits : tallocArrayFits 16 el.values.length = true := by
    unfold tallocArrayFits maxTallocSize
    exact decide_eq_true (by omega)
  rw [packNameEntryV2, strlen, cString_eq_self hel.zero_not_mem] at hnames hp ⊢
  rw [StoredAt.append, StoredAt.append, StoredAt.append, StoredAt.append, StoredAt.append] at hnames
  obtain ⟨⟨⟨⟨⟨hlen, hnameAt⟩, hnul⟩, hnum⟩, hwidthAt⟩, hlensAt⟩ := hnames
  simp only [List.length_append, pushLeU32_length, List.length_singleton, pushLeU8, hlens,
    ← Nat.add_assoc] at hnameAt hnul hnum hwidthAt hlensAt hp ⊢
  unfold unpackElementV2
  rw [if_neg (by omega)]
  refine Returns.bind (pullLeU32_returns hlen) fun attrLen hattr ↦ ?_
  rw [Nat.mod_eq_of_lt (by omega)] at hattr
  subst hattr
  rw [if_neg hname, if_neg (by omega)]
  have hnul' : mem (p + 4 + el.name.length + 1 - 1) = 0 := by
    rw [Nat.add_sub_cancel]
    exact (StoredAt.cons.mp hnul).1
  refine Returns.bind (pullLeU8_returns hnul') fun c hc ↦ ?_
  rw [if_neg (by simp [hc])]
  refine Returns.bind (pullLeU32_returns hnum) fun numValues hnv ↦ ?_
  rw [Nat.mod_eq_of_lt (by omega)] at hnv
  subst hnv
  dsimp only
  rw [if_neg (by simp [hfits])]
  refine Returns.bind (pullLeU8_returns (StoredAt.cons.mp hwidthAt).1) fun width hwd ↦ ?_
  rw [UInt8.toNat_ofNat', Nat.mod_eq_of_lt (by omega)] at hwd
  subst hwd
  rw [if_neg (by rw [Nat.mod_eq_of_lt (by omega)]; omega)]
  refine pullLengths_bind_returns hwidth hlensAt ?_
  refine Returns.bind (placeValuesV2_returns hlength hvals hq) fun r hr ↦ ?_
  obtain ⟨values, q'⟩ := r
  obtain ⟨hvalues, hq'⟩ := hr
  dsimp only at hvalues hq'
  exact Returns.pure ⟨⟨by simp, StoredAt.append.mpr ⟨hnameAt, hnul⟩, hvalues⟩, rfl, hq'⟩

theorem unpackElementsV2_returns {length vsp : Nat} (hvsp : vsp < 2 ^ 32) (hlength : length < 2 ^ 64)
    {els : List ElementData} {names : List (List UInt8)}
    (hnames : List.Forall₂ (fun el entry ↦ nameEntryV2 el = .ok entry) els names)
    (hels : ∀ el ∈ els, Fits el) :
    ∀ {p q : Nat}, StoredAt mem p names.flatten → p + names.flatten.length ≤ vsp →
      StoredAt mem q (els.flatMap packValuesV2) → q + (els.flatMap packValuesV2).length ≤ length →
      Returns (unpackElementsV2 mem 0 length vsp els.length p q) fun r ↦
        List.Forall₂ (Unpacked mem) r.1 els ∧ r.2.1 = p + names.flatten.length ∧
          r.2.2 = q + (els.flatMap packValuesV2).length := by
  induction hnames with
  | nil =>
    intro p q _ _ _ _
    exact Returns.pure ⟨.nil, rfl, rfl⟩
  | @cons el entry els names hentry hrest ih =>
    intro p q hp hpv hq hql
    obtain ⟨w, hw, rfl⟩ := nameEntryV2_eq_ok hentry
    rw [List.flatten_cons, StoredAt.append] at hp
    rw [List.flatMap_cons, StoredAt.append] at hq
    rw [List.flatten_cons, List.length_append] at hpv ⊢
    rw [List.flatMap_cons, List.length_append] at hql ⊢
    rw [List.length_cons]
    unfold unpackElementsV2
    refine Returns.bind (unpackElementV2_returns (hels el List.mem_cons_self) hw hp.1 (by omega)
      hvsp hq.1 (by omega) hlength) fun r hr ↦ ?_
    obtain ⟨element, p₁, q₁⟩ := r
    obtain ⟨helement, hp₁, hq₁⟩ := hr
    dsimp only at helement hp₁ hq₁ ⊢
    subst hp₁ hq₁
    refine Returns.bind (ih (fun el' h ↦ hels el' (List.mem_cons_of_mem el h)) hp.2 (by omega)
      hq.2 (by omega)) fun r hr ↦ ?_
    obtain ⟨elements, p₂, q₂⟩ := r
    obtain ⟨hels', hp₂, hq₂⟩ := hr
    dsimp only at hels' hp₂ hq₂
    refine Returns.pure ⟨.cons helement hels', ?_, ?_⟩
    · dsimp only
      omega
    · dsimp only
      omega

theorem length_le_flatMap_packValuesV2 {els : List ElementData} (h : ∀ el ∈ els, el.values ≠ []) :
    els.length ≤ (els.flatMap packValuesV2).length := by
  induction els with
  | nil => simp
  | cons el els ih =>
    obtain ⟨v, vs, hvs⟩ := List.exists_cons_of_ne_nil (h el List.mem_cons_self)
    have hrest := ih fun el' h' ↦ h el' (List.mem_cons_of_mem el h')
    rw [List.flatMap_cons, List.length_append, packValuesV2, hvs, List.flatMap_cons, List.length_cons]
    simp only [List.length_append, List.length_singleton]
    omega

end V2

def recordV2 (dn dnCanon : List UInt8) (els : List ElementData) (names : List (List UInt8)) :
    List UInt8 :=
  pushLeU32 ldbPackingFormatV2 ++ pushLeU32 els.length ++ pushLeU32 (strlen dn) ++ cString dn ++
    [0] ++ pushLeU32 (strlen dnCanon) ++ cString dnCanon ++ [0] ++
    pushLeU32 (4 + names.flatten.length) ++ names.flatten ++ els.flatMap packValuesV2

section DecoderV2

variable {Dn : Type} {mem : Nat → UInt8} {ldbDnFromLdbVal : List UInt8 → Option Dn}

attribute [local simp] recordV2.eq_1
attribute [-simp] recordV2.eq_1

theorem ldbUnpackDataFlags_recordV2 {dn dnCanon : List UInt8} {els : List ElementData}
    {names : List (List UInt8)} {d : Dn} (hparse : ldbDnFromLdbVal (cString dn) = some d)
    (hnames : List.Forall₂ (fun el entry ↦ nameEntryV2 el = .ok entry) els names)
    (hvalues : ∀ el ∈ els, el.values ≠ [])
    (hmem : StoredAt mem 0 (recordV2 dn dnCanon els names))
    (hbound : (recordV2 dn dnCanon els names).length < 2 ^ 32) :
    Ends (ldbUnpackDataFlags mem ldbDnFromLdbVal (recordV2 dn dnCanon els names).length 0) fun r ↦
      (4 + names.flatten.length + (els.flatMap packValuesV2).length < 17 * els.length →
        r = .error .eio) ∧
      (17 * els.length ≤ 4 + names.flatten.length + (els.flatMap packValuesV2).length →
        (∀ el ∈ els, Fits el) → els.length < 2 ^ 23 →
        ∃ msg, r = .ok msg ∧ msg.dn = some d ∧ msg.numElements = els.length ∧
          List.Forall₂ (Unpacked mem) msg.elements els) := by
  have hn := length_le_flatMap_packValuesV2 hvalues
  rw [recordV2, StoredAt.append, StoredAt.append, StoredAt.append, StoredAt.append, StoredAt.append,
    StoredAt.append, StoredAt.append, StoredAt.append, StoredAt.append, StoredAt.append] at hmem
  obtain ⟨⟨⟨⟨⟨⟨⟨⟨⟨⟨hformat, hnum⟩, hdnLen⟩, hdn⟩, hnul⟩, hcanonLen⟩, hcanon⟩, hcanonNul⟩,
    hsection⟩, hnamesAt⟩, hvaluesAt⟩ := hmem
  rw [recordV2] at hbound ⊢
  simp only [List.length_append, pushLeU32_length, List.length_singleton, strlen, Nat.zero_add]
    at hnum hdnLen hdn hnul hcanonLen hcanon hcanonNul hsection hnamesAt hvaluesAt hbound ⊢
  unfold ldbUnpackDataFlags
  rw [if_neg (by omega)]
  refine Ends.bind (pullLeU32_returns hformat) fun format hf ↦ ?_
  rw [show ldbPackingFormatV2 % 2 ^ 32 = ldbPackingFormatV2 by decide] at hf
  subst hf
  rw [if_pos rfl]
  unfold ldbUnpackDataFlagsV2
  dsimp only
  rw [if_neg (by omega)]
  refine Ends.bind (pullLeU32_returns hnum) fun n hn' ↦ ?_
  rw [Nat.mod_eq_of_lt (by omega)] at hn'
  subst hn'
  refine Ends.bind (pullLeU32_returns hdnLen) fun len hlen ↦ ?_
  rw [Nat.mod_eq_of_lt (by omega)] at hlen
  subst hlen
  rw [if_neg (by rw [sizeOfPtrdiff_sub (by omega) (by omega)]; omega)]
  refine Ends.bind (unpackDn_returns hparse hdn) fun dn' hdn' ↦ ?_
  subst hdn'
  have hnul' : mem (4 + 4 + 4 + (cString dn).length + 1 - 1) = 0 := by
    rw [Nat.add_sub_cancel]
    exact (StoredAt.cons.mp hnul).1
  refine Ends.bind (pullLeU8_returns hnul') fun c hc ↦ ?_
  rw [if_neg (by simp [hc])]
  refine Ends.bind (pullLeU32_returns hcanonLen) fun canonLen hcl ↦ ?_
  rw [Nat.mod_eq_of_lt (by omega)] at hcl
  subst hcl
  rw [Nat.mod_eq_of_lt (show (cString dnCanon).length + 1 < 2 ^ 32 by omega)]
  simp only [← Nat.add_assoc]
  rw [if_neg (by rw [sizeOfPtrdiff_sub (by omega) (by omega)]; omega)]
  have hcanonNul' :
      mem (4 + 4 + 4 + (cString dn).length + 1 + 4 + (cString dnCanon).length + 1 - 1) = 0 := by
    rw [Nat.add_sub_cancel]
    exact (StoredAt.cons.mp hcanonNul).1
  refine Ends.bind (pullLeU8_returns hcanonNul') fun c hc ↦ ?_
  rw [if_neg (by simp [hc]), if_neg (by decide)]
  by_cases hnil : els = []
  · subst hnil
    rw [if_pos List.length_nil]
    exact fun _ ↦ ⟨fun h ↦ absurd h (by simp), fun _ _ _ ↦ ⟨_, rfl, rfl, rfl, .nil⟩⟩
  rw [if_neg (mt List.length_eq_zero_iff.mp hnil)]
  by_cases h17 : 4 + names.flatten.length + (els.flatMap packValuesV2).length < 17 * els.length
  · rw [if_pos (by rw [Int.tdiv_eq_ediv_of_nonneg (by omega)]; omega)]
    exact Ends.throw_bind ⟨fun _ ↦ rfl, fun h ↦ absurd h (by omega)⟩
  rw [if_neg (by rw [Int.tdiv_eq_ediv_of_nonneg (by omega)]; omega)]
  by_cases hok : (∀ el ∈ els, Fits el) ∧ els.length < 2 ^ 23
  swap
  · exact fun _ ↦ ⟨fun h ↦ absurd h h17, fun _ h₁ h₂ ↦ absurd ⟨h₁, h₂⟩ hok⟩
  obtain ⟨hels, hcount⟩ := hok
  refine Ends.of_returns (Q := fun msg ↦ msg.dn = some d ∧ msg.numElements = els.length ∧
    List.Forall₂ (Unpacked mem) msg.elements els) ?_
    fun msg hmsg ↦ ⟨fun h ↦ absurd h h17, fun _ _ _ ↦ ⟨msg, rfl, hmsg⟩⟩
  have hfits : tallocArrayFits 32 els.length = true := by
    unfold tallocArrayFits maxTallocSize
    exact decide_eq_true (by omega)
  rw [if_neg (by simp [hfits]), if_neg (by simp)]
  refine Returns.bind (pullLeU32_returns hsection) fun sec hsec ↦ ?_
  rw [Nat.mod_eq_of_lt (by omega)] at hsec
  subst hsec
  have hvaluesAt' : StoredAt mem (4 + 4 + 4 + (cString dn).length + 1 + 4 + (cString dnCanon).length +
      1 + (4 + names.flatten.length)) (els.flatMap packValuesV2) := by
    rwa [← Nat.add_assoc]
  refine Returns.bind (unpackElementsV2_returns (by omega) (by omega) hnames hels hnamesAt (by omega)
    hvaluesAt' (by omega)) fun r hr ↦ ?_
  obtain ⟨elements, p', q'⟩ := r
  obtain ⟨helements, hp', hq'⟩ := hr
  dsimp only at helements hp' hq' ⊢
  rw [if_neg (by omega), if_neg (by omega)]
  exact Returns.pure ⟨rfl, helements.length_eq, helements⟩

end DecoderV2

section RoundTrip

variable {Dn Dn' : Type} (ldbDnGetLinearized : Dn → Option (List UInt8))
  (ldbDnIsSpecial : Dn → Bool) (ldbDnCanonicalString : Dn → Option (List UInt8))
  (ldbDnFromLdbVal : List UInt8 → Option Dn')

theorem fits_of_mem_storedElements {elements : List ElementData}
    (hnames : ∀ el ∈ storedElements elements, el.name ≠ [] ∧ 0 ∉ el.name)
    (hvalues : ∀ el ∈ storedElements elements, el.values.length < 2 ^ 24) :
    ∀ el ∈ storedElements elements, Fits el := fun el h ↦
  ⟨(hnames el h).1, (hnames el h).2, values_ne_nil_of_mem_storedElements h, hvalues el h⟩

theorem ldbUnpackData_ldbPackData_v1 {message : MessageData Dn} {data dn : List UInt8} {d : Dn'}
    (hpack : ldbPackData ldbDnGetLinearized ldbDnIsSpecial ldbDnCanonicalString message
      ldbPackingFormat = .ok data)
    (hlin : ldbDnGetLinearized message.dn = some dn) (hparse : ldbDnFromLdbVal (cString dn) = some d)
    (hnames : ∀ el ∈ storedElements message.elements, el.name ≠ [] ∧ 0 ∉ el.name)
    (hcount : (storedElements message.elements).length < 2 ^ 23)
    (hvalues : ∀ el ∈ storedElements message.elements, el.values.length < 2 ^ 24) :
    ∃ msg, (runLogged (ldbUnpackDataFlags (data.getD · 0) ldbDnFromLdbVal data.length 0)).1 =
        .ok msg ∧ msg.dn = some d ∧ msg.numElements = (storedElements message.elements).length ∧
      List.Forall₂ (Unpacked (data.getD · 0)) msg.elements (storedElements message.elements) := by
  rw [ldbPackData, if_pos rfl] at hpack
  obtain ⟨dn', hlin', hlen, rfl⟩ := ldbPackDataV1_eq_ok ldbDnGetLinearized hpack
  rw [hlin, Option.some_inj] at hlin'
  subst hlin'
  exact (ldbUnpackDataFlags_recordV1 hparse (fits_of_mem_storedElements hnames hvalues) hcount
    (StoredAt.getD _ 0) (by unfold recordV1; omega)).runLogged

theorem ldbPackData_v2_record {message : MessageData Dn} {data dn dnCanon : List UInt8}
    (hpack : ldbPackData ldbDnGetLinearized ldbDnIsSpecial ldbDnCanonicalString message
      ldbPackingFormatV2 = .ok data)
    (hlin : ldbDnGetLinearized message.dn = some dn)
    (hcanon : (if ldbDnIsSpecial message.dn then some [] else ldbDnCanonicalString message.dn) =
      some dnCanon) :
    ∃ names, List.Forall₂ (fun el entry ↦ nameEntryV2 el = .ok entry)
        (storedElements message.elements) names ∧ data.length < 2 ^ 28 ∧
      data = recordV2 dn dnCanon (storedElements message.elements) names := by
  rw [ldbPackData, if_neg (by decide), if_pos rfl] at hpack
  obtain ⟨dn', dnCanon', names, hlin', hcanon', hnames, hlen, hdata⟩ :=
    ldbPackDataV2_eq_ok ldbDnGetLinearized ldbDnIsSpecial ldbDnCanonicalString hpack
  rw [hlin, Option.some_inj] at hlin'
  rw [hcanon, Option.some_inj] at hcanon'
  subst hlin' hcanon'
  exact ⟨names, hnames, hlen, hdata⟩

theorem ldbUnpackData_ldbPackData_v2_eio {message : MessageData Dn} {data dn dnCanon : List UInt8}
    {d : Dn'}
    (hpack : ldbPackData ldbDnGetLinearized ldbDnIsSpecial ldbDnCanonicalString message
      ldbPackingFormatV2 = .ok data)
    (hlin : ldbDnGetLinearized message.dn = some dn)
    (hcanon : (if ldbDnIsSpecial message.dn then some [] else ldbDnCanonicalString message.dn) =
      some dnCanon)
    (hparse : ldbDnFromLdbVal (cString dn) = some d)
    (hsmall : data.length < 18 + strlen dn + strlen dnCanon +
      17 * (storedElements message.elements).length) :
    (runLogged (ldbUnpackDataFlags (data.getD · 0) ldbDnFromLdbVal data.length 0)).1 =
      .error .eio := by
  obtain ⟨names, hnames, hlen, rfl⟩ := ldbPackData_v2_record _ _ _ hpack hlin hcanon
  have hends := ldbUnpackDataFlags_recordV2 hparse hnames
    (fun _ h ↦ values_ne_nil_of_mem_storedElements h) (StoredAt.getD _ 0)
    (Nat.lt_trans hlen (by norm_num))
  simp only [recordV2, List.length_append, pushLeU32_length, List.length_singleton, strlen]
    at hsmall
  exact hends.runLogged.1 (by omega)

theorem ldbUnpackData_ldbPackData_v2 {message : MessageData Dn} {data dn dnCanon : List UInt8}
    {d : Dn'}
    (hpack : ldbPackData ldbDnGetLinearized ldbDnIsSpecial ldbDnCanonicalString message
      ldbPackingFormatV2 = .ok data)
    (hlin : ldbDnGetLinearized message.dn = some dn)
    (hcanon : (if ldbDnIsSpecial message.dn then some [] else ldbDnCanonicalString message.dn) =
      some dnCanon)
    (hparse : ldbDnFromLdbVal (cString dn) = some d)
    (hnames : ∀ el ∈ storedElements message.elements, el.name ≠ [] ∧ 0 ∉ el.name)
    (hcount : (storedElements message.elements).length < 2 ^ 23)
    (hvalues : ∀ el ∈ storedElements message.elements, el.values.length < 2 ^ 24) :
    (18 + strlen dn + strlen dnCanon + 17 * (storedElements message.elements).length ≤
        data.length →
      ∃ msg, (runLogged (ldbUnpackDataFlags (data.getD · 0) ldbDnFromLdbVal data.length 0)).1 =
          .ok msg ∧ msg.dn = some d ∧ msg.numElements = (storedElements message.elements).length ∧
        List.Forall₂ (Unpacked (data.getD · 0)) msg.elements (storedElements message.elements)) ∧
    (data.length < 18 + strlen dn + strlen dnCanon + 17 * (storedElements message.elements).length →
      (runLogged (ldbUnpackDataFlags (data.getD · 0) ldbDnFromLdbVal data.length 0)).1 =
        .error .eio) := by
  refine ⟨fun hroom ↦ ?_, ldbUnpackData_ldbPackData_v2_eio _ _ _ _ hpack hlin hcanon hparse⟩
  obtain ⟨names, hentries, hlen, rfl⟩ := ldbPackData_v2_record _ _ _ hpack hlin hcanon
  have hends := ldbUnpackDataFlags_recordV2 hparse hentries
    (fun _ h ↦ values_ne_nil_of_mem_storedElements h) (StoredAt.getD _ 0)
    (Nat.lt_trans hlen (by norm_num))
  simp only [recordV2, List.length_append, pushLeU32_length, List.length_singleton, strlen]
    at hroom
  exact hends.runLogged.2 (by omega) (fits_of_mem_storedElements hnames hvalues) hcount

end RoundTrip

def cnX : DnCompare.LdbDn := ⟨false, false, false, some [0x63, 0x6e, 0x3d, 0x78], none, none⟩

def twoEmptyValues : MessageData DnCompare.LdbDn := ⟨cnX, [⟨[0x61], [[]]⟩, ⟨[0x62], [[]]⟩]⟩

/-- `twoEmptyValues` as `ldb_pack_data_v1` writes it. -/
def twoEmptyValuesV1 : List UInt8 :=
  [0x67, 0x19, 0x01, 0x26, 0x02, 0, 0, 0, 0x63, 0x6e, 0x3d, 0x78, 0, 0x61, 0, 0x01, 0, 0, 0, 0, 0,
    0, 0, 0, 0x62, 0, 0x01, 0, 0, 0, 0, 0, 0, 0, 0]

/-- `twoEmptyValues` as `ldb_pack_data_v2` writes it, with `/x` for the canonical
form of `cn=x`: 30 bytes follow the canonical DN. -/
def twoEmptyValuesV2 : List UInt8 :=
  [0x68, 0x19, 0x01, 0x26, 0x02, 0, 0, 0, 0x04, 0, 0, 0, 0x63, 0x6e, 0x3d, 0x78, 0, 0x02, 0, 0, 0,
    0x2f, 0x78, 0, 0x1c, 0, 0, 0, 0x01, 0, 0, 0, 0x61, 0, 0x01, 0, 0, 0, 0x01, 0, 0x01, 0, 0, 0,
    0x62, 0, 0x01, 0, 0, 0, 0x01, 0, 0, 0]

def oneValue : MessageData DnCompare.LdbDn := ⟨cnX, [⟨[0x61], [[0x78]]⟩]⟩

/-- `oneValue` as `ldb_pack_data_v2` writes it: 18 bytes follow the canonical DN. -/
def oneValueV2 : List UInt8 :=
  [0x68, 0x19, 0x01, 0x26, 0x01, 0, 0, 0, 0x04, 0, 0, 0, 0x63, 0x6e, 0x3d, 0x78, 0, 0x02, 0, 0, 0,
    0x2f, 0x78, 0, 0x10, 0, 0, 0, 0x01, 0, 0, 0, 0x61, 0, 0x01, 0, 0, 0, 0x01, 0x01, 0x78, 0]

theorem ldbUnpackData_ldbPackData_v1_twoEmptyValues :
    ∃ msg, (runLogged (ldbUnpackDataFlags (twoEmptyValuesV1.getD · 0) DnCompare.ldbDnFromLdbVal
        twoEmptyValuesV1.length 0)).1 = .ok msg ∧ msg.dn = some cnX ∧
      msg.numElements = (storedElements twoEmptyValues.elements).length ∧
      List.Forall₂ (Unpacked (twoEmptyValuesV1.getD · 0)) msg.elements
        (storedElements twoEmptyValues.elements) :=
  ldbUnpackData_ldbPackData_v1 DnCompare.LdbDn.linearized DnCompare.LdbDn.special
    (fun _ ↦ some [0x2f, 0x78]) DnCompare.ldbDnFromLdbVal
    (rfl : ldbPackData DnCompare.LdbDn.linearized DnCompare.LdbDn.special (fun _ ↦ some [0x2f, 0x78])
      twoEmptyValues ldbPackingFormat = .ok twoEmptyValuesV1)
    rfl rfl (by decide) (by decide) (by decide)

theorem ldbPackData_v2_twoEmptyValues_eio :
    ldbPackData DnCompare.LdbDn.linearized DnCompare.LdbDn.special (fun _ ↦ some [0x2f, 0x78])
        twoEmptyValues ldbPackingFormatV2 = .ok twoEmptyValuesV2 ∧
      (runLogged (ldbUnpackDataFlags (twoEmptyValuesV2.getD · 0) DnCompare.ldbDnFromLdbVal
        twoEmptyValuesV2.length 0)).1 = .error .eio :=
  have hpack : ldbPackData DnCompare.LdbDn.linearized DnCompare.LdbDn.special
      (fun _ ↦ some [0x2f, 0x78]) twoEmptyValues ldbPackingFormatV2 = .ok twoEmptyValuesV2 := rfl
  ⟨hpack, ldbUnpackData_ldbPackData_v2_eio _ _ _ _ hpack rfl rfl rfl (by decide)⟩

theorem ldbUnpackData_ldbPackData_v2_oneValue :
    ∃ msg, (runLogged (ldbUnpackDataFlags (oneValueV2.getD · 0) DnCompare.ldbDnFromLdbVal
        oneValueV2.length 0)).1 = .ok msg ∧ msg.dn = some cnX ∧
      msg.numElements = (storedElements oneValue.elements).length ∧
      List.Forall₂ (Unpacked (oneValueV2.getD · 0)) msg.elements (storedElements oneValue.elements) :=
  (ldbUnpackData_ldbPackData_v2 DnCompare.LdbDn.linearized DnCompare.LdbDn.special
    (fun _ ↦ some [0x2f, 0x78]) DnCompare.ldbDnFromLdbVal
    (rfl : ldbPackData DnCompare.LdbDn.linearized DnCompare.LdbDn.special (fun _ ↦ some [0x2f, 0x78])
      oneValue ldbPackingFormatV2 = .ok oneValueV2)
    rfl rfl rfl (by decide) (by decide) (by decide)).1 (by decide)

end Samba.Ldb.PackRoundTrip
