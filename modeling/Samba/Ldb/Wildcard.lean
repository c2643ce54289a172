import Samba.Ldb.Match
import Samba.Lib.Glob

namespace Samba.Ldb.Wildcard

open Samba.Ldb.Match Samba.Lib.Glob

def substringPattern (startWithWildcard endWithWildcard : Bool) (chunks : List (List UInt8)) :
    List (Token UInt8) :=
  (if startWithWildcard then [.star] else []) ++ (chunks.map .lit).intersperse .star ++
    (if endWithWildcard then [.star] else [])

-- equation lemmas made once, before the proofs below use them in parallel
attribute [local simp] Samba.Ldb.Match.wildcardChunks.eq_1 Samba.Ldb.Match.ldbWildcardCompare.eq_1
  substringPattern.eq_1
attribute [-simp] Samba.Ldb.Match.wildcardChunks.eq_1 Samba.Ldb.Match.ldbWildcardCompare.eq_1
  substringPattern.eq_1

theorem substringPattern_true (endWithWildcard : Bool) (chunks : List (List UInt8)) :
    substringPattern true endWithWildcard chunks =
      .star :: substringPattern false endWithWildcard chunks := by
  simp [substringPattern]

theorem substringPattern_cons_cons (endWithWildcard : Bool) (k k' : List UInt8)
    (ks : List (List UInt8)) :
    substringPattern true endWithWildcard (k :: k' :: ks) =
      .star :: .lit k :: substringPattern true endWithWildcard (k' :: ks) := by
  simp [substringPattern, List.intersperse_cons_cons]

theorem substringPattern_single (endWithWildcard : Bool) (k : List UInt8) :
    substringPattern true endWithWildcard [k] =
      .star :: .lit k :: (if endWithWildcard then [.star] else []) := by
  simp [substringPattern]

theorem substringPattern_false_cons (endWithWildcard : Bool) (k k' : List UInt8)
    (ks : List (List UInt8)) :
    substringPattern false endWithWildcard (k :: k' :: ks) =
      .lit k :: substringPattern true endWithWildcard (k' :: ks) := by
  simp [substringPattern, List.intersperse_cons_cons]

theorem substringPattern_false_head (endWithWildcard : Bool) (k : List UInt8)
    (ks : List (List UInt8)) :
    ∃ ps, substringPattern false endWithWildcard (k :: ks) = .lit k :: ps := by
  cases ks with
  | nil => exact ⟨if endWithWildcard then [.star] else [], by simp [substringPattern]⟩
  | cons k' ks => exact ⟨_, substringPattern_false_cons endWithWildcard k k' ks⟩

theorem memmem_eq_some {haystack needle : List UInt8} {p : Nat}
    (h : memmem haystack needle = some p) :
    needle <+: haystack.drop p ∧ ∀ q < p, ¬ needle <+: haystack.drop q := by
  induction haystack generalizing p with
  | nil =>
    unfold memmem at h
    split_ifs at h with hpre
    cases h
    exact ⟨by simpa using hpre, fun q hq ↦ absurd hq (Nat.not_lt_zero q)⟩
  | cons b rest ih =>
    unfold memmem at h
    split_ifs at h with hpre
    · cases h
      exact ⟨by simpa using hpre, fun q hq ↦ absurd hq (Nat.not_lt_zero q)⟩
    · obtain ⟨p', hp', rfl⟩ := Option.map_eq_some_iff.1 h
      obtain ⟨hocc, hfirst⟩ := ih hp'
      refine ⟨by simpa using hocc, ?_⟩
      intro q hq
      cases q with
      | zero => simpa [List.isPrefixOf_iff_prefix] using hpre
      | succ q => simpa using hfirst q (by omega)

theorem memmem_eq_none {haystack needle : List UInt8} (h : memmem haystack needle = none) :
    ∀ q, ¬ needle <+: haystack.drop q := by
  induction haystack with
  | nil =>
    unfold memmem at h
    split_ifs at h with hpre
    intro q hq
    simp only [List.drop_nil, List.prefix_nil] at hq
    subst hq
    simp at hpre
  | cons b rest ih =>
    unfold memmem at h
    split_ifs at h with hpre
    have hrest : memmem rest needle = none := by simpa using h
    intro q hq
    cases q with
    | zero =>
      simp [List.isPrefixOf_iff_prefix] at hpre
      exact hpre hq
    | succ q => exact ih hrest q (by simpa using hq)

section Loop

variable {canonicalise : LdbVal → Option LdbVal} {endWithWildcard : Bool}

def CanonicalChunks (canonicalise : LdbVal → Option LdbVal) :
    List LdbVal → List (List UInt8) → Prop :=
  List.Forall₂ fun chunk k ↦ canonicalise chunk = some ⟨k⟩ ∧ k ≠ []

theorem not_prefix_drop_of_length_lt {k val : List UInt8} (h : val.length < k.length) (q : Nat) :
    ¬ k <+: val.drop q := by
  intro hpre
  have := hpre.length_le
  simp only [List.length_drop] at this
  omega

theorem wildcardChunks_cons {chunk : LdbVal} {rest : List LdbVal} {k : List UInt8}
    (hk : canonicalise chunk = some ⟨k⟩ ∧ k ≠ []) (val : List UInt8) :
    wildcardChunks canonicalise endWithWildcard (chunk :: rest) val =
      if val.length < k.length then false
      else if rest = [] ∧ !endWithWildcard then decide (val.drop (val.length - k.length) = k)
      else (memmem val k).elim false fun p ↦
        wildcardChunks canonicalise endWithWildcard rest (val.drop (p + k.length)) := by
  simp only [wildcardChunks, hk.1, List.length_eq_zero_iff, hk.2, false_or]
  cases memmem val k <;> rfl

theorem wildcardChunks_last_suffix {chunk : LdbVal} {k : List UInt8}
    (hk : canonicalise chunk = some ⟨k⟩ ∧ k ≠ []) (val : List UInt8) :
    wildcardChunks canonicalise false [chunk] val = true ↔ k <:+ val := by
  rw [wildcardChunks_cons hk]
  by_cases hlen : val.length < k.length
  · simp only [hlen, if_true, Bool.false_eq_true, false_iff]
    intro hsuf
    have := hsuf.length_le
    omega
  · simp only [hlen, if_false, Bool.not_false, and_self, if_true, decide_eq_true_eq,
      List.suffix_iff_eq_drop]
    exact eq_comm

theorem wildcardChunks_last_occurs {chunk : LdbVal} {k : List UInt8}
    (hk : canonicalise chunk = some ⟨k⟩ ∧ k ≠ []) (val : List UInt8) :
    wildcardChunks canonicalise true [chunk] val = true ↔ ∃ q, k <+: val.drop q := by
  rw [wildcardChunks_cons hk]
  by_cases hlen : val.length < k.length
  · simp only [hlen, if_true, Bool.false_eq_true, false_iff, not_exists]
    exact not_prefix_drop_of_length_lt hlen
  · simp only [hlen, if_false, Bool.not_true, Bool.false_eq_true, and_false]
    cases hm : memmem val k with
    | none => simpa using memmem_eq_none hm
    | some p =>
      simp only [Option.elim, wildcardChunks, true_iff]
      exact ⟨p, (memmem_eq_some hm).1⟩

theorem wildcardChunks_iff {chunks : List LdbVal} {cnks : List (List UInt8)}
    (hcan : CanonicalChunks canonicalise chunks cnks) (hne : chunks ≠ []) (val : List UInt8) :
    wildcardChunks canonicalise endWithWildcard chunks val = true ↔
      Matches (substringPattern true endWithWildcard cnks) val := by
  induction hcan generalizing val with
  | nil => exact absurd rfl hne
  | @cons chunk k rest ks hk hrest ih =>
    cases hrest with
    | nil =>
      cases endWithWildcard
      · rw [wildcardChunks_last_suffix hk, substringPattern_single]
        simpa using matches_star_lit_iff_suffix.symm
      · rw [wildcardChunks_last_occurs hk, substringPattern_single, if_pos rfl,
          matches_star_lit_iff]
        simp [matches_star_nil]
    | @cons chunk' k' rest' ks' hk' hrest' =>
      rw [wildcardChunks_cons hk, substringPattern_cons_cons, substringPattern_true]
      cases hm : memmem val k with
      | none => simpa using not_matches_star_lit (memmem_eq_none hm)
      | some p =>
        obtain ⟨hocc, hfirst⟩ := memmem_eq_some hm
        have hlen : ¬ val.length < k.length := by
          have := hocc.length_le
          simp only [List.length_drop] at this
          omega
        rw [matches_star_lit_star_iff_first hocc hfirst, ← substringPattern_true]
        simp only [hlen, if_false, reduceCtorEq, false_and]
        exact ih (by simp) _

end Loop

theorem firstChunk_mismatch_iff {k val : List UInt8} (hk : k ≠ []) :
    (val.length < k.length ∨ k.length = 0 ∨ val.take k.length ≠ k) ↔ ¬ k <+: val := by
  rw [List.prefix_iff_eq_take, List.length_eq_zero_iff]
  constructor
  · rintro (hlen | hnil | hne) heq
    · have := congrArg List.length heq
      simp only [List.length_take] at this
      omega
    · exact hk hnil
    · exact hne heq.symm
  · intro h
    exact Or.inr (Or.inr fun heq ↦ h heq.symm)

theorem star_not_mem_substringPattern_single (k : List UInt8) :
    Token.star ∉ substringPattern false false [k] := by
  simp [substringPattern]

theorem matches_lit_star_iff_prefixOf {k val : List UInt8} :
    Matches [.lit k, .star] val ↔ k <+: val := by
  rw [matches_lit_iff_prefixOf_drop]
  simp [matches_star_nil]

variable {Dn : Type}

theorem ldbWildcardCompare_iff_matches (ldb : LdbContext Dn) {attr : String} {a : LdbSchemaSyntax}
    (ha : ldb.schemaAttributeByName attr = some a) {startWithWildcard endWithWildcard : Bool}
    {chunks : List LdbVal} {cnks : List (List UInt8)}
    (hcan : CanonicalChunks (a.canonicaliseFn.getD some) chunks cnks) (hne : chunks ≠ [])
    (hstar : Token.star ∈ substringPattern startWithWildcard endWithWildcard cnks)
    {value fv : LdbVal} (hv : a.canonicaliseFn.getD some value = some fv) :
    (ldbWildcardCompare ldb attr startWithWildcard endWithWildcard chunks value).1 = ldbSuccess ∧
      ((ldbWildcardCompare ldb attr startWithWildcard endWithWildcard chunks value).2 = true ↔
        Matches (substringPattern startWithWildcard endWithWildcard cnks) fv.data) := by
  simp only [ldbWildcardCompare, ha, if_neg hne, hv]
  cases startWithWildcard with
  | true => exact ⟨rfl, wildcardChunks_iff hcan hne fv.data⟩
  | false =>
    obtain ⟨chunk, k, rest, ks, hk, hrest, rfl, rfl⟩ :
        ∃ chunk k rest ks, (a.canonicaliseFn.getD some chunk = some ⟨k⟩ ∧ k ≠ []) ∧
          CanonicalChunks (a.canonicaliseFn.getD some) rest ks ∧ chunks = chunk :: rest ∧
            cnks = k :: ks := by
      cases hcan with
      | nil => exact absurd rfl hne
      | cons hk hrest => exact ⟨_, _, _, _, hk, hrest, rfl, rfl⟩
    simp only [Bool.false_eq_true, if_false, hk.1]
    by_cases hpre : k <+: fv.data
    · rw [if_neg (by rwa [firstChunk_mismatch_iff hk.2, not_not])]
      refine ⟨rfl, ?_⟩
      cases hrest with
      | nil =>
        cases endWithWildcard with
        | false => exact absurd hstar (star_not_mem_substringPattern_single k)
        | true => simpa [wildcardChunks, substringPattern, matches_lit_star_iff_prefixOf] using hpre
      | @cons chunk' k' rest' ks' hk' hrest' =>
        rw [substringPattern_false_cons, matches_lit_iff_prefixOf_drop]
        simp only [hpre, true_and]
        exact wildcardChunks_iff (List.Forall₂.cons hk' hrest') (by simp) _
    · rw [if_pos ((firstChunk_mismatch_iff hk.2).2 hpre)]
      refine ⟨rfl, ?_⟩
      have hfirst : ¬ Matches (substringPattern false endWithWildcard (k :: ks)) fv.data := by
        obtain ⟨ps, hps⟩ := substringPattern_false_head endWithWildcard k ks
        rw [hps, matches_lit_iff_prefixOf_drop]
        exact fun hm ↦ hpre hm.1
      simpa using hfirst

end Samba.Ldb.Wildcard
