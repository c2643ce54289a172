import Samba.Ldb.Wildcard
import Samba.Lib.ReadLog

namespace Samba.Ldb.WildcardReads

open Samba.Ldb.Match Samba.Ldb.Wildcard Samba.Lib.Glob Samba.Lib.ReadLog

/-- `memcmp(mem + a, cnk, cnk.length) == 0`: the bytes of the value are read in
order up to the first one that differs. -/
def memcmpEq (mem : Nat → UInt8) : Nat → List UInt8 → Logged Nat Unit Bool
  | _, [] => pure true
  | a, c :: cs => do
    let b ← readByte mem a
    if b = c then memcmpEq mem (a + 1) cs else pure false

/-- `memmem(mem + a, len, cnk, cnk.length)`: the offset of the first start in
the `len` bytes from `a` where `cnk` is found, trying each in turn. -/
def memmemAt (mem : Nat → UInt8) (cnk : List UInt8) : Nat → Nat → Logged Nat Unit (Option Nat)
  | a, len =>
    if len < cnk.length then pure none else do
    if ← memcmpEq mem a cnk then return some 0
    match len with
    | 0 => return none
    | len + 1 => return (← memmemAt mem cnk (a + 1) len).map (· + 1)

def wildcardChunksAt (canonicalise : LdbVal → Option LdbVal) (endWithWildcard : Bool)
    (mem : Nat → UInt8) : List LdbVal → Nat → Nat → Logged Nat Unit Bool
  | [], _, _ => pure true
  | chunk :: rest, a, len =>
    match canonicalise chunk with
    | none => pure false
    | some cnk =>
      if cnk.data.length = 0 ∨ len < cnk.data.length then pure false
      else if rest = [] ∧ !endWithWildcard then memcmpEq mem (a + len - cnk.data.length) cnk.data
      else do
        match ← memmemAt mem cnk.data a len with
        | none => return false
        | some p =>
          wildcardChunksAt canonicalise endWithWildcard mem rest (a + (p + cnk.data.length))
            (len - (p + cnk.data.length))

/-- `ldb_wildcard_compare` with the reads of the canonical value `val` logged by
their offset in it. -/
def ldbWildcardCompareLogged {Dn : Type} (ldb : LdbContext Dn) (attr : String)
    (startWithWildcard endWithWildcard : Bool) (chunks : List LdbVal) (value : LdbVal) :
    Logged Nat Unit LdbResult :=
  match ldb.schemaAttributeByName attr with
  | none => pure (ldbErrInvalidAttributeSyntax, false)
  | some a =>
    if chunks = [] then pure (ldbSuccess, false) else
    let canonicalise := a.canonicaliseFn.getD some
    match canonicalise value with
    | none => pure (ldbErrInvalidAttributeSyntax, false)
    | some val =>
      let mem := fun i ↦ val.data.getD i 0
      if startWithWildcard then do
        return (ldbSuccess, ← wildcardChunksAt canonicalise endWithWildcard mem chunks 0 val.data.length)
      else match chunks with
        | [] => pure (ldbSuccess, false)
        | chunk :: rest =>
          match canonicalise chunk with
          | none => pure (ldbSuccess, false)
          | some cnk =>
            if val.data.length < cnk.data.length ∨ cnk.data.length = 0 then pure (ldbSuccess, false)
            else do
              if !(← memcmpEq mem 0 cnk.data) then return (ldbSuccess, false)
              return (ldbSuccess, ← wildcardChunksAt canonicalise endWithWildcard mem rest
                cnk.data.length (val.data.length - cnk.data.length))

section Reads

variable {n : Nat} {mem : Nat → UInt8}

theorem memcmpEq_reads : ∀ (a : Nat) (cs : List UInt8), a + cs.length ≤ n →
    Reads (· < n) (memcmpEq mem a cs) (fun _ ↦ True)
  | _, [], _ => Reads.pure trivial
  | a, c :: cs, h => by
    simp only [List.length_cons] at h
    refine Reads.bind (Reads.readByte (by omega)) fun b _ ↦ ?_
    by_cases hb : b = c
    · rw [if_pos hb]
      exact memcmpEq_reads (a + 1) cs (by omega)
    · rw [if_neg hb]
      exact Reads.pure trivial

-- equation lemmas made once, before the proofs below use them in parallel
attribute [local simp] memmemAt.eq_def wildcardChunksAt.eq_1 ldbWildcardCompareLogged.eq_1
attribute [-simp] memmemAt.eq_def wildcardChunksAt.eq_1 ldbWildcardCompareLogged.eq_1

theorem memmemAt_reads (cnk : List UInt8) :
    ∀ (a len : Nat), a + len ≤ n →
      Reads (· < n) (memmemAt mem cnk a len) (fun r ↦ ∀ p, r = some p → p + cnk.length ≤ len)
  | a, len, h => by
    unfold memmemAt
    by_cases hlen : len < cnk.length
    · rw [if_pos hlen]
      exact Reads.pure (by simp)
    rw [if_neg hlen]
    refine Reads.bind (memcmpEq_reads a cnk (by omega)) fun eq _ ↦ ?_
    by_cases heq : eq = true
    · simp only [heq, if_true]
      exact Reads.pure (by simp; omega)
    simp only [heq, Bool.false_eq_true, if_false]
    cases len with
    | zero => exact Reads.pure (by simp)
    | succ len =>
      refine Reads.bind (memmemAt_reads cnk (a + 1) len (by omega)) fun r hr ↦ Reads.pure ?_
      intro p hp
      obtain ⟨q, hq, rfl⟩ := Option.map_eq_some_iff.1 hp
      have := hr q hq
      omega

theorem wildcardChunksAt_reads (canonicalise : LdbVal → Option LdbVal) (endWithWildcard : Bool) :
    ∀ (chunks : List LdbVal) (a len : Nat), a + len ≤ n →
      Reads (· < n) (wildcardChunksAt canonicalise endWithWildcard mem chunks a len) (fun _ ↦ True)
  | [], _, _, _ => Reads.pure trivial
  | chunk :: rest, a, len, h => by
    unfold wildcardChunksAt
    split
    · exact Reads.pure trivial
    rename_i cnk _
    split_ifs with hshort hlast
    · exact Reads.pure trivial
    · exact memcmpEq_reads _ _ (by omega)
    · refine Reads.bind (memmemAt_reads cnk.data a len h) fun r hr ↦ ?_
      cases r with
      | none => exact Reads.pure trivial
      | some p =>
        have := hr p rfl
        exact wildcardChunksAt_reads canonicalise endWithWildcard rest _ _ (by omega)

theorem ldbWildcardCompareLogged_reads {Dn : Type} (ldb : LdbContext Dn) {attr : String}
    {a : LdbSchemaSyntax} (ha : ldb.schemaAttributeByName attr = some a)
    (startWithWildcard endWithWildcard : Bool) (chunks : List LdbVal) {value fv : LdbVal}
    (hv : a.canonicaliseFn.getD some value = some fv) :
    Reads (· < fv.data.length)
      (ldbWildcardCompareLogged ldb attr startWithWildcard endWithWildcard chunks value)
      (fun _ ↦ True) := by
  simp only [ldbWildcardCompareLogged, ha, hv]
  split_ifs with hnil hstart
  · exact Reads.pure trivial
  · exact Reads.bind (wildcardChunksAt_reads _ _ chunks 0 _ (by omega)) fun _ _ ↦ Reads.pure trivial
  obtain ⟨chunk, rest, rfl⟩ := List.exists_cons_of_ne_nil hnil
  cases hc : a.canonicaliseFn.getD some chunk with
  | none =>
    simp only [hc]
    exact Reads.pure trivial
  | some cnk =>
    simp only [hc]
    split_ifs with hshort
    · exact Reads.pure trivial
    refine Reads.bind (memcmpEq_reads 0 cnk.data (by omega)) fun eq _ ↦ ?_
    cases eq with
    | false => exact Reads.pure trivial
    | true =>
      exact Reads.bind (wildcardChunksAt_reads _ _ rest _ _ (by omega)) fun _ _ ↦ Reads.pure trivial

end Reads

section Returns

variable {val : List UInt8}

theorem take_succ_drop {a k : Nat} (h : a < val.length) :
    (val.drop a).take (k + 1) = val[a] :: (val.drop (a + 1)).take k := by
  rw [List.drop_eq_getElem_cons h, List.take_succ_cons]

theorem memcmpEq_returns : ∀ (a : Nat) (cs : List UInt8), a + cs.length ≤ val.length →
    Returns (memcmpEq (val.getD · 0) a cs) (· = decide ((val.drop a).take cs.length = cs))
  | _, [], _ => Returns.pure (by simp)
  | a, c :: cs, h => by
    simp only [List.length_cons] at h
    have ha : a < val.length := by omega
    refine Returns.bind Returns.readByte fun b hb ↦ ?_
    rw [hb, List.length_cons, take_succ_drop ha, List.getD_eq_getElem _ _ ha]
    by_cases hc : val[a] = c
    · rw [if_pos hc]
      refine (memcmpEq_returns (a + 1) cs (by omega)).conseq fun v hv ↦ ?_
      simp [hv, hc]
    · rw [if_neg hc]
      exact Returns.pure (by simp [hc])

theorem isPrefixOf_eq_decide_take (cs l : List UInt8) :
    cs.isPrefixOf l = decide (l.take cs.length = cs) := by
  rw [Bool.eq_iff_iff, List.isPrefixOf_iff_prefix, decide_eq_true_iff, List.prefix_iff_eq_take,
    eq_comm]

theorem memmem_of_length_lt {haystack needle : List UInt8} (h : haystack.length < needle.length) :
    memmem haystack needle = none :=
  (Option.eq_none_iff_forall_ne_some).2 fun p hp ↦
    not_prefix_drop_of_length_lt h p (memmem_eq_some hp).1

theorem memmemAt_returns {cnk : List UInt8} (hne : cnk ≠ []) :
    ∀ (a len : Nat), a + len = val.length →
      Returns (memmemAt (val.getD · 0) cnk a len) (· = memmem (val.drop a) cnk)
  | a, len, h => by
    unfold memmemAt
    by_cases hlen : len < cnk.length
    · rw [if_pos hlen]
      exact Returns.pure (memmem_of_length_lt (by simp; omega)).symm
    rw [if_neg hlen]
    have hpos := List.length_pos_of_ne_nil hne
    have hlt : a < val.length := by omega
    have hcons : val.drop a = val[a] :: val.drop (a + 1) := List.drop_eq_getElem_cons hlt
    refine Returns.bind (memcmpEq_returns a cnk (by omega)) fun eq heq ↦ ?_
    have hpre : cnk.isPrefixOf (val[a] :: val.drop (a + 1)) = eq := by
      rw [← hcons, heq, isPrefixOf_eq_decide_take]
    rw [hcons, memmem.eq_2, hpre]
    by_cases htrue : eq = true
    · simp only [htrue, if_true]
      exact Returns.pure rfl
    simp only [htrue, Bool.false_eq_true, if_false]
    cases len with
    | zero => omega
    | succ len =>
      exact Returns.bind (memmemAt_returns hne (a + 1) len (by omega)) fun r hr ↦
        Returns.pure (by rw [hr])

theorem wildcardChunksAt_returns (canonicalise : LdbVal → Option LdbVal) (endWithWildcard : Bool) :
    ∀ (chunks : List LdbVal) (a len : Nat), a + len = val.length →
      Returns (wildcardChunksAt canonicalise endWithWildcard (val.getD · 0) chunks a len)
        (· = wildcardChunks canonicalise endWithWildcard chunks (val.drop a))
  | [], _, _, _ => Returns.pure rfl
  | chunk :: rest, a, len, h => by
    have hlen : (val.drop a).length = len := by simp; omega
    cases hc : canonicalise chunk with
    | none =>
      simp only [wildcardChunksAt, wildcardChunks, hc]
      exact Returns.pure rfl
    | some cnk =>
    simp only [wildcardChunksAt, wildcardChunks, hc, hlen]
    split_ifs with hshort hlast
    · exact Returns.pure rfl
    · refine (memcmpEq_returns _ _ (by omega)).conseq fun v hv ↦ ?_
      have hidx : a + len - cnk.data.length = a + (len - cnk.data.length) := by omega
      rw [hv, List.drop_drop, hidx, List.take_of_length_le (by simp; omega)]
    · have hne : cnk.data ≠ [] := fun hnil ↦ hshort (.inl (by simp [hnil]))
      refine Returns.bind (memmemAt_returns hne a len h) fun r hr ↦ ?_
      rw [hr]
      cases hm : memmem (val.drop a) cnk.data with
      | none => exact Returns.pure rfl
      | some p =>
        have := (memmem_eq_some hm).1.length_le
        simp only [List.length_drop] at this
        refine (wildcardChunksAt_returns canonicalise endWithWildcard rest _ _ (by omega)).conseq
          fun v hv ↦ ?_
        simp only [hv, List.drop_drop]

theorem ldbWildcardCompareLogged_returns {Dn : Type} (ldb : LdbContext Dn) (attr : String)
    (startWithWildcard endWithWildcard : Bool) (chunks : List LdbVal) (value : LdbVal) :
    Returns (ldbWildcardCompareLogged ldb attr startWithWildcard endWithWildcard chunks value)
      (· = ldbWildcardCompare ldb attr startWithWildcard endWithWildcard chunks value) := by
  cases hattr : ldb.schemaAttributeByName attr with
  | none =>
    simp only [ldbWildcardCompareLogged, ldbWildcardCompare, hattr]
    exact Returns.pure rfl
  | some a =>
  by_cases hnil : chunks = []
  · simp only [ldbWildcardCompareLogged, ldbWildcardCompare, hattr, hnil, if_true]
    exact Returns.pure rfl
  cases hv : a.canonicaliseFn.getD some value with
  | none =>
    simp only [ldbWildcardCompareLogged, ldbWildcardCompare, hattr, hnil, if_false, hv]
    exact Returns.pure rfl
  | some val =>
  cases startWithWildcard with
  | true =>
    simp only [ldbWildcardCompareLogged, ldbWildcardCompare, hattr, hnil, if_false, hv, if_true]
    exact Returns.bind (wildcardChunksAt_returns _ _ chunks 0 _ (by omega)) fun v hv ↦
      Returns.pure (by rw [hv, List.drop_zero])
  | false =>
  obtain ⟨chunk, rest, rfl⟩ := List.exists_cons_of_ne_nil hnil
  cases hc : a.canonicaliseFn.getD some chunk with
  | none =>
    simp only [ldbWildcardCompareLogged, ldbWildcardCompare, hattr, hnil, if_false, hv,
      Bool.false_eq_true, hc]
    exact Returns.pure rfl
  | some cnk =>
  simp only [ldbWildcardCompareLogged, ldbWildcardCompare, hattr, hnil, if_false, hv,
    Bool.false_eq_true, hc]
  by_cases hshort : val.data.length < cnk.data.length ∨ cnk.data.length = 0
  · rw [if_pos hshort, if_pos (hshort.elim .inl fun h ↦ .inr (.inl h))]
    exact Returns.pure rfl
  rw [if_neg hshort]
  refine Returns.bind (memcmpEq_returns 0 cnk.data (by omega)) fun eq heq ↦ ?_
  rw [heq, List.drop_zero]
  by_cases hpre : val.data.take cnk.data.length = cnk.data
  · simp only [hpre, decide_true, Bool.not_true, Bool.false_eq_true, if_false]
    exact Returns.bind (wildcardChunksAt_returns _ _ rest _ _ (by omega)) fun v hv ↦
      Returns.pure (by rw [hv, if_neg (by simpa using hshort)])
  · simp only [hpre, decide_false, Bool.not_false, if_true, ne_eq, not_false_eq_true, or_true]
    exact Returns.pure rfl

end Returns

theorem ldbWildcardCompare_globMatch_within {Dn : Type} (ldb : LdbContext Dn) {attr : String}
    {a : LdbSchemaSyntax} (ha : ldb.schemaAttributeByName attr = some a)
    {startWithWildcard endWithWildcard : Bool} {chunks : List LdbVal} {cnks : List (List UInt8)}
    (hcan : CanonicalChunks (a.canonicaliseFn.getD some) chunks cnks) (hne : chunks ≠ [])
    (hstar : Token.star ∈ substringPattern startWithWildcard endWithWildcard cnks)
    {value fv : LdbVal} (hv : a.canonicaliseFn.getD some value = some fv) :
    ∃ matched, (runLogged (ldbWildcardCompareLogged ldb attr startWithWildcard endWithWildcard
        chunks value)).1 = .ok (ldbSuccess, matched) ∧
      (matched = true ↔ Matches (substringPattern startWithWildcard endWithWildcard cnks) fv.data) ∧
      ∀ i ∈ (runLogged (ldbWildcardCompareLogged ldb attr startWithWildcard endWithWildcard
        chunks value)).2, i < fv.data.length := by
  obtain ⟨r, hr, rfl⟩ := (ldbWildcardCompareLogged_returns ldb attr startWithWildcard
    endWithWildcard chunks value).runLogged
  obtain ⟨hsucc, hmatch⟩ := ldbWildcardCompare_iff_matches ldb ha hcan hne hstar hv
  refine ⟨_, ?_, hmatch, (ldbWildcardCompareLogged_reads ldb ha startWithWildcard endWithWildcard
    chunks hv).runLogged_mem⟩
  rw [hr, ← hsucc]

def binaryContext : LdbContext Unit where
  schemaAttributeByName _ := some ⟨none, fun _ _ ↦ 0, none⟩
  extendedMatchRules := []
  dnIsSpecial _ := false
  dnCompare _ _ := 0
  dnFromLdbVal _ := some ()

theorem ldbWildcardCompare_globMatch_within_ab :
    ∃ matched, (runLogged (ldbWildcardCompareLogged binaryContext "cn" false true
        [⟨[0x61]⟩, ⟨[0x62]⟩] ⟨[0x61, 0x63, 0x62]⟩)).1 = .ok (ldbSuccess, matched) ∧
      (matched = true ↔ Matches (substringPattern false true [[0x61], [0x62]]) [0x61, 0x63, 0x62]) ∧
      ∀ i ∈ (runLogged (ldbWildcardCompareLogged binaryContext "cn" false true
        [⟨[0x61]⟩, ⟨[0x62]⟩] ⟨[0x61, 0x63, 0x62]⟩)).2, i < 3 :=
  ldbWildcardCompare_globMatch_within binaryContext rfl
    (List.Forall₂.cons ⟨rfl, by simp⟩ (List.Forall₂.cons ⟨rfl, by simp⟩ List.Forall₂.nil))
    (by simp) (by simp [substringPattern]) rfl

end Samba.Ldb.WildcardReads
