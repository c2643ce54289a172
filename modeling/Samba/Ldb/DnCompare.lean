import Samba.Ldb.Dn
import Samba.Ldb.Match

namespace Samba.Ldb.DnCompare

open Samba.Lib.CString Samba.Ldb.Dn Samba.Ldb.Match

structure DnComponent where
  component : LdbDnComponent
  cfName : List UInt8
  cfValue : List UInt8
  deriving DecidableEq, Repr

structure LdbDn where
  special : Bool
  invalid : Bool
  validCase : Bool
  linearized : Option (List UInt8)
  extLinearized : Option (List UInt8)
  /-- `NULL` until `ldb_dn_explode` allocates them -/
  components : Option (List DnComponent)
  deriving DecidableEq, Repr

/-- `comp_num`, set and cleared with the components. -/
def LdbDn.compNum (dn : LdbDn) : Nat := (dn.components.getD []).length

def afterExtendedComponents : List UInt8 → Option (List UInt8)
  | 0x3e :: 0x3b :: rest => some ((afterExtendedComponents rest).getD rest)
  | _ :: rest => afterExtendedComponents rest
  | [] => none

/-- `ldb_dn_from_ldb_val`: `NULL` for bytes with a NUL among them; a DN starting
with `<` keeps the whole string as `ext_linearized` and what follows its
extended components as `linearized`. -/
def ldbDnFromLdbVal (data : List UInt8) : Option LdbDn :=
  if 0 ∈ data then none
  else if data = [] then some ⟨false, false, false, some [], none, none⟩
  else
    let special := byteAt data 0 = 0x40
    if byteAt data 0 = 0x3c then
      some ⟨special, false, false, some ((afterExtendedComponents data).getD []), some data, none⟩
    else some ⟨special, false, false, some data, none, none⟩

/-- `ldb_dn_new`: the DN of the C string `strdn`. -/
def ldbDnNew (strdn : List UInt8) : Option LdbDn := ldbDnFromLdbVal (cString strdn)

section Caches

variable {α : Type} (extendedSyntaxByName : List UInt8 → Option (List UInt8 → Option α))

/-- `ldb_dn_explode` on the DN: the components of `ext_linearized`, or of
`linearized` when there is none, kept once they are there. An empty or special
DN returns before the components are allocated, and a parse that fails frees
them and may mark the DN invalid. -/
def ldbDnExplodeDn (dn : LdbDn) : Bool × LdbDn :=
  if dn.invalid then (false, dn)
  else if dn.components.isSome then (true, dn)
  else match dn.extLinearized.orElse fun _ ↦ dn.linearized with
  | none => (false, dn)
  | some parseDn =>
    if byteAt parseDn 0 = 0 ∨ dn.special then (true, dn) else
    match (ldbDnExplode parseDn extendedSyntaxByName dn.special).1 with
    | .ok comps _ => (true, { dn with components := some (comps.map fun c ↦ ⟨c, [], []⟩) })
    | .failed invalid => (false, { dn with invalid := invalid })

/-- `ldb_ascii_toupper`. -/
def ldbAsciiToupper (c : UInt8) : UInt8 := if 0x61 ≤ c ∧ c ≤ 0x7a then c ^^^ 0x20 else c

/-- `ldb_attr_casefold`. -/
def ldbAttrCasefold (s : List UInt8) : List UInt8 := (cString s).map ldbAsciiToupper

-- the schema's `canonicalise_fn` for the attribute of a casefolded name, on the
-- `data` and `length` of a value
variable (canonicalise : List UInt8 → List UInt8 → Nat → Option (List UInt8))

def casefoldComponent (c : DnComponent) : Option DnComponent :=
  let cfName := ldbAttrCasefold c.component.name
  (canonicalise cfName c.component.valueData c.component.valueLength).map fun cfValue ↦
    { c with cfName := cfName, cfValue := cfValue }

def casefoldComponents : List DnComponent → Option (List DnComponent)
  | [] => some []
  | c :: cs => do
    let c ← casefoldComponent canonicalise c
    let cs ← casefoldComponents cs
    pure (c :: cs)

/-- `ldb_dn_casefold_internal`: explode if need be, then casefold every
component. A failure frees the casefolded forms made so far, which leaves the
components as they were. -/
def ldbDnCasefoldInternal (dn : LdbDn) : Bool × LdbDn :=
  if dn.invalid then (false, dn)
  else if dn.validCase then (true, dn)
  else
    let (ok, dn) := if dn.components.isNone then ldbDnExplodeDn extendedSyntaxByName dn
      else (true, dn)
    if !ok then (false, dn)
    else match casefoldComponents canonicalise (dn.components.getD []) with
      | some comps =>
        (true, { dn with validCase := true, components := dn.components.map fun _ ↦ comps })
      | none => (false, dn)

/-- `NUMERIC_CMP`. -/
def numericCmp (a b : Nat) : Int := (if a > b then 1 else 0) - (if a < b then 1 else 0)

def compareCasefolded (c₀ c₁ : DnComponent) : Int :=
  let ret := strcmp c₀.cfName c₁.cfName
  if ret ≠ 0 then ret
  else if c₀.cfValue.length ≠ c₁.cfValue.length then
    numericCmp c₀.cfValue.length c₁.cfValue.length
  else strncmp c₀.cfValue.length c₀.cfValue c₁.cfValue

def compareComponents : List DnComponent → List DnComponent → Int
  | c₀ :: cs₀, c₁ :: cs₁ =>
    let ret := compareCasefolded c₀ c₁
    if ret ≠ 0 then ret else compareComponents cs₀ cs₁
  | _, _ => 0

def compareBaseLinearized (base dn : LdbDn) : Option Int :=
  match base.linearized, dn.linearized with
  | some lb, some ld =>
    if dn.special = base.special then
      if strlen ld < strlen lb then some (-1)
      else if strcmp lb (ld.drop (strlen ld - strlen lb)) = 0 then some 0
      else none
    else none
  | _, _ => none

def compareBaseCasefolded (base dn : LdbDn) : Int :=
  if base.compNum > dn.compNum then (dn.compNum : Int) - base.compNum
  else if dn.compNum = 0 ∨ base.compNum = 0 then
    if dn.special ∧ base.special then strcmp (base.linearized.getD []) (dn.linearized.getD [])
    else if dn.special then -1
    else if base.special then 1
    else 0
  else compareComponents (base.components.getD []).reverse (dn.components.getD []).reverse

/-- `ldb_dn_compare_base(base, dn)`: `0` when `dn` lies under `base`, with the two
DNs as the call leaves them. -/
def ldbDnCompareBase (base dn : LdbDn) : Int × LdbDn × LdbDn :=
  if base.invalid then (1, base, dn)
  else if dn.invalid then (-1, base, dn)
  else if base.validCase ∧ dn.validCase then (compareBaseCasefolded base dn, base, dn)
  else match compareBaseLinearized base dn with
    | some ret => (ret, base, dn)
    | none =>
      let (okBase, base) := ldbDnCasefoldInternal extendedSyntaxByName canonicalise base
      if !okBase then (1, base, dn) else
      let (okDn, dn) := ldbDnCasefoldInternal extendedSyntaxByName canonicalise dn
      if !okDn then (-1, base, dn) else
      (compareBaseCasefolded base dn, base, dn)

def compareCasefoldedDns (dn0 dn1 : LdbDn) : Int :=
  if dn0.compNum > dn1.compNum then -1
  else if dn0.compNum < dn1.compNum then 1
  else if dn0.compNum = 0 then
    if dn0.special ∧ dn1.special then strcmp (dn0.linearized.getD []) (dn1.linearized.getD [])
    else if dn0.special then 1
    else if dn1.special then -1
    else 0
  else compareComponents (dn0.components.getD []) (dn1.components.getD [])

def sameLinearized (dn0 dn1 : LdbDn) : Bool :=
  match dn0.linearized, dn1.linearized with
  | some l0, some l1 => strcmp l0 l1 = 0
  | _, _ => false

/-- `ldb_dn_compare` on two distinct DNs (the pointer test `dn0 == dn1` fails):
invalid DNs and those that do not casefold sort last. -/
def ldbDnCompare (dn0 dn1 : LdbDn) : Int × LdbDn × LdbDn :=
  if dn0.invalid ∧ dn1.invalid then (0, dn0, dn1)
  else if dn0.invalid then (1, dn0, dn1)
  else if dn1.invalid then (-1, dn0, dn1)
  else if dn0.validCase ∧ dn1.validCase then (compareCasefoldedDns dn0 dn1, dn0, dn1)
  else if sameLinearized dn0 dn1 then (0, dn0, dn1)
  else
    let (ok0, dn0) := ldbDnCasefoldInternal extendedSyntaxByName canonicalise dn0
    let (ok1, dn1) := ldbDnCasefoldInternal extendedSyntaxByName canonicalise dn1
    if !ok0 then (if !ok1 then 0 else 1, dn0, dn1)
    else if !ok1 then (-1, dn0, dn1)
    else (compareCasefoldedDns dn0 dn1, dn0, dn1)

/-- `ldb_dn_get_comp_num`: `-1` for a DN that does not explode. -/
def ldbDnGetCompNum (dn : LdbDn) : Int × LdbDn :=
  let (ok, dn) := ldbDnExplodeDn extendedSyntaxByName dn
  (if ok then dn.compNum else -1, dn)

/-- `ldb_match_scope`: `1` when `dn` is in the `scope` of `base`. A `NULL` DN
matches every scope, and `LDB_SCOPE_DEFAULT` is a subtree search. -/
def ldbMatchScope (base dn : Option LdbDn) (scope : LdbScope) :
    Int × Option LdbDn × Option LdbDn :=
  match base, dn with
  | some base, some dn =>
    match scope with
    | .base =>
      let (ret, base, dn) := ldbDnCompare extendedSyntaxByName canonicalise base dn
      (if ret = 0 then 1 else 0, some base, some dn)
    | .oneLevel =>
      let (nDn, dn) := ldbDnGetCompNum extendedSyntaxByName dn
      let (nBase, base) := ldbDnGetCompNum extendedSyntaxByName base
      if nDn = nBase + 1 then
        let (ret, base, dn) := ldbDnCompareBase extendedSyntaxByName canonicalise base dn
        (if ret = 0 then 1 else 0, some base, some dn)
      else (0, some base, some dn)
    | .subtree | .default =>
      let (ret, base, dn) := ldbDnCompareBase extendedSyntaxByName canonicalise base dn
      (if ret = 0 then 1 else 0, some base, some dn)
  | base, dn => (1, base, dn)

def ExplodesEmpty (dn : LdbDn) : Prop :=
  ∃ p, (dn.extLinearized.orElse fun _ ↦ dn.linearized) = some p ∧
    (byteAt p 0 = 0 ∨ dn.special = true)

def CasefoldedAs (c : DnComponent) : Prop :=
  c.cfName = ldbAttrCasefold c.component.name ∧
    canonicalise c.cfName c.component.valueData c.component.valueLength = some c.cfValue

structure CacheOk (dn : LdbDn) : Prop where
  explodesEmpty : dn.validCase = true → dn.components = none → ExplodesEmpty dn
  casefolded : dn.validCase = true → ∀ c ∈ dn.components.getD [], CasefoldedAs canonicalise c

inductive Reachable : LdbDn → Prop
  | new {strdn : List UInt8} {dn : LdbDn} : ldbDnNew strdn = some dn → Reachable dn
  | explode {dn : LdbDn} : Reachable dn → Reachable (ldbDnExplodeDn extendedSyntaxByName dn).2
  | casefold {dn : LdbDn} : Reachable dn →
      Reachable (ldbDnCasefoldInternal extendedSyntaxByName canonicalise dn).2
  | getCompNum {dn : LdbDn} : Reachable dn →
      Reachable (ldbDnGetCompNum extendedSyntaxByName dn).2
  | compareBaseBase {base dn : LdbDn} : Reachable base → Reachable dn →
      Reachable (ldbDnCompareBase extendedSyntaxByName canonicalise base dn).2.1
  | compareBaseDn {base dn : LdbDn} : Reachable base → Reachable dn →
      Reachable (ldbDnCompareBase extendedSyntaxByName canonicalise base dn).2.2
  | compareFst {dn0 dn1 : LdbDn} : Reachable dn0 → Reachable dn1 →
      Reachable (ldbDnCompare extendedSyntaxByName canonicalise dn0 dn1).2.1
  | compareSnd {dn0 dn1 : LdbDn} : Reachable dn0 → Reachable dn1 →
      Reachable (ldbDnCompare extendedSyntaxByName canonicalise dn0 dn1).2.2
  | matchScopeBase {base dn d : LdbDn} (scope : LdbScope) : Reachable base → Reachable dn →
      (ldbMatchScope extendedSyntaxByName canonicalise (some base) (some dn) scope).2.1 = some d →
      Reachable d
  | matchScopeDn {base dn d : LdbDn} (scope : LdbScope) : Reachable base → Reachable dn →
      (ldbMatchScope extendedSyntaxByName canonicalise (some base) (some dn) scope).2.2 = some d →
      Reachable d

def canonicalKey (c : DnComponent) : List UInt8 × Option (List UInt8) :=
  (ldbAttrCasefold c.component.name,
    canonicalise (ldbAttrCasefold c.component.name) c.component.valueData c.component.valueLength)

end Caches

def casefoldedKey (c : DnComponent) : List UInt8 × List UInt8 := (c.cfName, c.cfValue)

def NulFree (c : DnComponent) : Prop := 0 ∉ c.cfName ∧ 0 ∉ c.cfValue

theorem numericCmp_ne_zero {a b : Nat} (h : a ≠ b) : numericCmp a b ≠ 0 := by
  unfold numericCmp
  split_ifs <;> omega

-- equation lemmas made once, before the proofs below use them in parallel
attribute [local simp] ldbDnCompareBase.eq_1 casefoldedKey.eq_1
attribute [-simp] ldbDnCompareBase.eq_1 casefoldedKey.eq_1

theorem compareCasefolded_eq_zero_iff {c₀ c₁ : DnComponent} (h₀ : NulFree c₀) (h₁ : NulFree c₁) :
    compareCasefolded c₀ c₁ = 0 ↔ casefoldedKey c₀ = casefoldedKey c₁ := by
  have hname : strcmp c₀.cfName c₁.cfName = 0 ↔ c₀.cfName = c₁.cfName := by
    rw [strcmp_eq_zero_iff, cString_eq_self h₀.1, cString_eq_self h₁.1]
  have hvalue (hlen : c₀.cfValue.length = c₁.cfValue.length) :
      strncmp c₀.cfValue.length c₀.cfValue c₁.cfValue = 0 ↔ c₀.cfValue = c₁.cfValue := by
    rw [strncmp_eq_zero_iff, List.take_of_length_le le_rfl, List.take_of_length_le hlen.ge,
      cString_eq_self h₀.2, cString_eq_self h₁.2]
  unfold compareCasefolded casefoldedKey
  by_cases hn : c₀.cfName = c₁.cfName
  · by_cases hlen : c₀.cfValue.length = c₁.cfValue.length
    · rw [if_neg (not_not.mpr (hname.mpr hn)), if_neg (not_not.mpr hlen), hvalue hlen]
      simp [hn]
    · have hne : c₀.cfValue ≠ c₁.cfValue := fun h ↦ hlen (h ▸ rfl)
      simp [hname.mpr hn, hlen, numericCmp_ne_zero hlen, hne]
  · have hne : strcmp c₀.cfName c₁.cfName ≠ 0 := mt hname.mp hn
    simp [hne, hn]

theorem compareComponents_eq_zero_iff {cs₀ cs₁ : List DnComponent}
    (hlen : cs₀.length ≤ cs₁.length) (h₀ : ∀ c ∈ cs₀, NulFree c) (h₁ : ∀ c ∈ cs₁, NulFree c) :
    compareComponents cs₀ cs₁ = 0 ↔ cs₀.map casefoldedKey <+: cs₁.map casefoldedKey := by
  induction cs₀ generalizing cs₁ with
  | nil => simp [compareComponents]
  | cons c₀ cs₀ ih =>
    cases cs₁ with
    | nil => simp at hlen
    | cons c₁ cs₁ =>
      have hc := compareCasefolded_eq_zero_iff (h₀ c₀ List.mem_cons_self) (h₁ c₁ List.mem_cons_self)
      have hrest := ih (by simpa using hlen) (fun c hc ↦ h₀ c (List.mem_cons_of_mem _ hc))
        (fun c hc ↦ h₁ c (List.mem_cons_of_mem _ hc))
      by_cases h : compareCasefolded c₀ c₁ = 0
      · simp [compareComponents, h, hc.mp h, hrest]
      · simp [compareComponents, h, mt hc.mpr h]

theorem compareBaseCasefolded_eq_zero_iff {base dn : LdbDn} (hbs : base.special = false)
    (hds : dn.special = false) (hb : ∀ c ∈ base.components.getD [], NulFree c)
    (hd : ∀ c ∈ dn.components.getD [], NulFree c) :
    compareBaseCasefolded base dn = 0 ↔
      (base.components.getD []).map casefoldedKey <:+ (dn.components.getD []).map casefoldedKey := by
  unfold compareBaseCasefolded LdbDn.compNum
  by_cases hgt : (dn.components.getD []).length < (base.components.getD []).length
  · have hne : ((dn.components.getD []).length : Int) - (base.components.getD []).length ≠ 0 := by
      omega
    have hns : ¬ (base.components.getD []).map casefoldedKey <:+
        (dn.components.getD []).map casefoldedKey := fun h ↦ by
      have := h.length_le
      simp only [List.length_map] at this
      omega
    simp [hgt, hne, hns]
  · rw [if_neg hgt]
    by_cases hz : (dn.components.getD []).length = 0 ∨ (base.components.getD []).length = 0
    · have hnil : base.components.getD [] = [] := List.eq_nil_of_length_eq_zero (by omega)
      simp [hbs, hds, hnil]
    · rw [if_neg hz, compareComponents_eq_zero_iff (by simpa using hgt)
        (fun c hc ↦ hb c (List.mem_reverse.mp hc)) (fun c hc ↦ hd c (List.mem_reverse.mp hc)),
        List.map_reverse, List.map_reverse, List.reverse_prefix]

theorem compareBaseLinearized_eq_some_zero_iff {base dn : LdbDn} :
    compareBaseLinearized base dn = some 0 ↔
      ∃ lb ld, base.linearized = some lb ∧ dn.linearized = some ld ∧
        dn.special = base.special ∧ cString lb <:+ cString ld := by
  unfold compareBaseLinearized
  rcases hb : base.linearized with _ | lb
  · simp
  rcases hd : dn.linearized with _ | ld
  · simp
  simp only [Option.some.injEq, exists_and_left, exists_eq_left']
  by_cases hs : dn.special = base.special
  · have hsuffix : cString lb <:+ cString ld ↔
        cString lb = (cString ld).drop (strlen ld - strlen lb) := List.suffix_iff_eq_drop
    by_cases hlen : strlen ld < strlen lb
    · have : ¬ cString lb <:+ cString ld := fun h ↦ by
        have := h.length_le
        simp only [strlen] at hlen
        omega
      simp [hs, hlen, this]
    · rw [← cString_drop (by omega), ← strcmp_eq_zero_iff] at hsuffix
      rw [if_pos hs, if_neg hlen, hsuffix]
      split_ifs with hcmp <;> simp [hs, hcmp]
  · simp [hs]

section Caches

variable {α : Type} (extendedSyntaxByName : List UInt8 → Option (List UInt8 → Option α))
  (canonicalise : List UInt8 → List UInt8 → Nat → Option (List UInt8))

theorem ldbDnCompareBase_eq_zero_of_suffix {base dn : LdbDn} {lb ld : List UInt8}
    (hbi : base.invalid = false) (hdi : dn.invalid = false)
    (hcase : ¬(base.validCase = true ∧ dn.validCase = true))
    (hb : base.linearized = some lb) (hd : dn.linearized = some ld)
    (hs : dn.special = base.special) (hsuffix : cString lb <:+ cString ld) :
    (ldbDnCompareBase extendedSyntaxByName canonicalise base dn).1 = 0 := by
  have hfast : compareBaseLinearized base dn = some 0 :=
    compareBaseLinearized_eq_some_zero_iff.mpr ⟨lb, ld, hb, hd, hs, hsuffix⟩
  simp [ldbDnCompareBase, hbi, hdi, hcase, hfast]

def cEqB : List UInt8 := [0x63, 0x3d, 0x62]

def dcEqB : List UInt8 := [0x64, 0x63, 0x3d, 0x62]

def xEqYDcEqB : List UInt8 := [0x78, 0x3d, 0x79, 0x2c, 0x64, 0x63, 0x3d, 0x62]

def dcEqBSpace : List UInt8 := [0x64, 0x63, 0x3d, 0x62, 0x20]

def explodedNames (dn : LdbDn) : Option (List (List UInt8)) :=
  (ldbDnExplodeDn extendedSyntaxByName dn).2.components.map
    (·.map fun c ↦ ldbAttrCasefold c.component.name)

theorem ldbMatchScope_accepts_string_suffix :
    (ldbMatchScope noExtendedSyntax canonicalise (ldbDnNew cEqB) (ldbDnNew dcEqB)
      .subtree).1 = 1 ∧
    (ldbMatchScope noExtendedSyntax canonicalise (ldbDnNew cEqB) (ldbDnNew xEqYDcEqB)
      .oneLevel).1 = 1 ∧
    (ldbDnNew cEqB).bind (explodedNames noExtendedSyntax) = some [[0x43]] ∧
    (ldbDnNew dcEqB).bind (explodedNames noExtendedSyntax) = some [[0x44, 0x43]] ∧
    (ldbDnNew xEqYDcEqB).bind (explodedNames noExtendedSyntax) = some [[0x58], [0x44, 0x43]] ∧
    ((ldbDnNew dcEqBSpace).bind fun base ↦ (ldbDnNew dcEqB).map fun dn ↦
      (ldbDnCompareBase noExtendedSyntax canonicalise base dn).1) = some (-1) ∧
    (ldbDnNew dcEqBSpace).map (fun dn ↦ (ldbDnExplodeDn noExtendedSyntax dn).2.components) =
      (ldbDnNew dcEqB).map (fun dn ↦ (ldbDnExplodeDn noExtendedSyntax dn).2.components) := by
  refine ⟨rfl, rfl, ?_, ?_, ?_, rfl, ?_⟩ <;> decide +kernel

end Caches

section Invariant

variable {α : Type} {extendedSyntaxByName : List UInt8 → Option (List UInt8 → Option α)}
  {canonicalise : List UInt8 → List UInt8 → Nat → Option (List UInt8)}

theorem ldbDnNew_validCase {strdn : List UInt8} {dn : LdbDn} (h : ldbDnNew strdn = some dn) :
    dn.validCase = false := by
  unfold ldbDnNew ldbDnFromLdbVal at h
  dsimp only at h
  split_ifs at h <;> cases h <;> rfl

theorem CacheOk.of_validCase_false {dn : LdbDn} (h : dn.validCase = false) :
    CacheOk canonicalise dn :=
  ⟨fun hv ↦ by simp [h] at hv, fun hv ↦ by simp [h] at hv⟩

theorem CacheOk.validCase_false {dn : LdbDn} {parseDn : List UInt8} (h : CacheOk canonicalise dn)
    (hcomp : dn.components = none)
    (hparse : (dn.extLinearized.orElse fun _ ↦ dn.linearized) = some parseDn)
    (hparsed : ¬(byteAt parseDn 0 = 0 ∨ dn.special = true)) : dn.validCase = false := by
  by_contra hv
  obtain ⟨p, hp, hempty⟩ := h.explodesEmpty (by simpa using hv) hcomp
  rw [hparse, Option.some_inj] at hp
  exact hparsed (hp ▸ hempty)

theorem ldbDnExplodeDn_cacheOk {dn : LdbDn} (h : CacheOk canonicalise dn) :
    CacheOk canonicalise (ldbDnExplodeDn extendedSyntaxByName dn).2 := by
  unfold ldbDnExplodeDn
  split_ifs with hinv hcomp
  · exact h
  · exact h
  · split
    · exact h
    · rename_i parseDn hparse
      split_ifs with hempty
      · exact h
      · have hv := h.validCase_false (by simpa using hcomp) hparse (by simpa using hempty)
        split <;> exact CacheOk.of_validCase_false hv

theorem ldbDnExplodeDn_explodesEmpty {dn dn' : LdbDn}
    (h : ldbDnExplodeDn extendedSyntaxByName dn = (true, dn')) (hcomp : dn'.components = none) :
    ExplodesEmpty dn' := by
  unfold ldbDnExplodeDn at h
  split_ifs at h with hinv hsome
  · simp at h
  · obtain rfl := (Prod.mk.inj h).2
    simp [hcomp] at hsome
  · split at h
    · simp at h
    · rename_i parseDn hparse
      split_ifs at h with hempty
      · obtain rfl := (Prod.mk.inj h).2
        exact ⟨parseDn, hparse, by simpa using hempty⟩
      · split at h
        · obtain rfl := (Prod.mk.inj h).2
          simp at hcomp
        · simp at h

theorem casefoldComponent_casefoldedAs {c c' : DnComponent}
    (h : casefoldComponent canonicalise c = some c') : CasefoldedAs canonicalise c' := by
  unfold casefoldComponent at h
  obtain ⟨v, hv, rfl⟩ := Option.map_eq_some_iff.mp h
  exact ⟨rfl, hv⟩

theorem casefoldComponents_casefoldedAs {cs cs' : List DnComponent}
    (h : casefoldComponents canonicalise cs = some cs') : ∀ c ∈ cs', CasefoldedAs canonicalise c := by
  induction cs generalizing cs' with
  | nil =>
    simp only [casefoldComponents, Option.some_inj] at h
    simp [← h]
  | cons c cs ih =>
    simp only [casefoldComponents, Option.bind_eq_bind, Option.bind_eq_some_iff,
      Option.pure_def, Option.some_inj] at h
    obtain ⟨c', hc', cs'', hcs'', rfl⟩ := h
    intro d hd
    rcases List.mem_cons.mp hd with rfl | hd
    · exact casefoldComponent_casefoldedAs hc'
    · exact ih hcs'' d hd

theorem ldbDnCasefoldInternal_cacheOk {dn : LdbDn} (h : CacheOk canonicalise dn) :
    CacheOk canonicalise (ldbDnCasefoldInternal extendedSyntaxByName canonicalise dn).2 := by
  unfold ldbDnCasefoldInternal
  by_cases hinv : dn.invalid = true
  · simpa only [hinv, if_true] using h
  rw [if_neg hinv]
  by_cases hvalid : dn.validCase = true
  · simpa only [hvalid, if_true] using h
  rw [if_neg hvalid]
  generalize hx : (if dn.components.isNone = true then ldbDnExplodeDn extendedSyntaxByName dn
    else (true, dn)) = x
  obtain ⟨ok, dn'⟩ := x
  have h' : CacheOk canonicalise dn' := by
    split_ifs at hx
    · have : CacheOk canonicalise (ldbDnExplodeDn extendedSyntaxByName dn).2 :=
        ldbDnExplodeDn_cacheOk h
      rwa [hx] at this
    · exact (Prod.mk.inj hx).2 ▸ h
  dsimp only
  split_ifs with hok
  · exact h'
  split
  · rename_i comps hcomps
    refine ⟨fun _ hnone ↦ ?_, fun _ c hc ↦ ?_⟩
    · have hnone' : dn'.components = none := by simpa using hnone
      have hok' : ok = true := by simpa using hok
      split_ifs at hx with hisNone
      · have hx' : ldbDnExplodeDn extendedSyntaxByName dn = (true, dn') := hok' ▸ hx
        exact (ldbDnExplodeDn_explodesEmpty hx' hnone' : ExplodesEmpty dn')
      · obtain ⟨-, rfl⟩ := Prod.mk.inj hx
        simp [hnone'] at hisNone
    · cases hcomp : dn'.components with
      | none => simp [hcomp] at hc
      | some _ =>
        simp only [hcomp, Option.map_some, Option.getD_some] at hc
        exact casefoldComponents_casefoldedAs hcomps c hc
  · exact h'

theorem ldbDnCasefoldInternal_eq_cacheOk {dn dn' : LdbDn} {ok : Bool} (h : CacheOk canonicalise dn)
    (hx : ldbDnCasefoldInternal extendedSyntaxByName canonicalise dn = (ok, dn')) :
    CacheOk canonicalise dn' := by
  have : CacheOk canonicalise (ldbDnCasefoldInternal extendedSyntaxByName canonicalise dn).2 :=
    ldbDnCasefoldInternal_cacheOk h
  rwa [hx] at this

theorem ldbDnCompareBase_cacheOk {base dn : LdbDn} (hb : CacheOk canonicalise base)
    (hd : CacheOk canonicalise dn) :
    CacheOk canonicalise (ldbDnCompareBase extendedSyntaxByName canonicalise base dn).2.1 ∧
      CacheOk canonicalise (ldbDnCompareBase extendedSyntaxByName canonicalise base dn).2.2 := by
  unfold ldbDnCompareBase
  split_ifs
  · exact ⟨hb, hd⟩
  · exact ⟨hb, hd⟩
  · exact ⟨hb, hd⟩
  split
  · exact ⟨hb, hd⟩
  generalize hx : ldbDnCasefoldInternal extendedSyntaxByName canonicalise base = x
  obtain ⟨okBase, base'⟩ := x
  have hb' := ldbDnCasefoldInternal_eq_cacheOk hb hx
  generalize hy : ldbDnCasefoldInternal extendedSyntaxByName canonicalise dn = y
  obtain ⟨okDn, dn'⟩ := y
  have hd' := ldbDnCasefoldInternal_eq_cacheOk hd hy
  dsimp only
  split_ifs
  · exact ⟨hb', hd⟩
  · exact ⟨hb', hd'⟩
  · exact ⟨hb', hd'⟩

theorem ldbDnCompare_cacheOk {dn0 dn1 : LdbDn} (h0 : CacheOk canonicalise dn0)
    (h1 : CacheOk canonicalise dn1) :
    CacheOk canonicalise (ldbDnCompare extendedSyntaxByName canonicalise dn0 dn1).2.1 ∧
      CacheOk canonicalise (ldbDnCompare extendedSyntaxByName canonicalise dn0 dn1).2.2 := by
  unfold ldbDnCompare
  split_ifs
  · exact ⟨h0, h1⟩
  · exact ⟨h0, h1⟩
  · exact ⟨h0, h1⟩
  · exact ⟨h0, h1⟩
  · exact ⟨h0, h1⟩
  generalize hx : ldbDnCasefoldInternal extendedSyntaxByName canonicalise dn0 = x
  obtain ⟨ok0, dn0'⟩ := x
  generalize hy : ldbDnCasefoldInternal extendedSyntaxByName canonicalise dn1 = y
  obtain ⟨ok1, dn1'⟩ := y
  have h' : CacheOk canonicalise dn0' ∧ CacheOk canonicalise dn1' :=
    ⟨ldbDnCasefoldInternal_eq_cacheOk h0 hx, ldbDnCasefoldInternal_eq_cacheOk h1 hy⟩
  dsimp only
  split_ifs <;> exact h'

theorem ldbDnGetCompNum_cacheOk {dn : LdbDn} (h : CacheOk canonicalise dn) :
    CacheOk canonicalise (ldbDnGetCompNum extendedSyntaxByName dn).2 :=
  ldbDnExplodeDn_cacheOk h

theorem ldbMatchScope_cacheOk {base dn d : LdbDn} (scope : LdbScope)
    (hb : CacheOk canonicalise base) (hd : CacheOk canonicalise dn) :
    ((ldbMatchScope extendedSyntaxByName canonicalise (some base) (some dn) scope).2.1 = some d →
      CacheOk canonicalise d) ∧
    ((ldbMatchScope extendedSyntaxByName canonicalise (some base) (some dn) scope).2.2 = some d →
      CacheOk canonicalise d) := by
  have hsome {b' d' : LdbDn} (h : CacheOk canonicalise b' ∧ CacheOk canonicalise d') :
      (some b' = some d → CacheOk canonicalise d) ∧ (some d' = some d → CacheOk canonicalise d) :=
    ⟨fun hx ↦ Option.some_inj.mp hx ▸ h.1, fun hx ↦ Option.some_inj.mp hx ▸ h.2⟩
  have hsubtree {b d : LdbDn} (hb : CacheOk canonicalise b) (hd : CacheOk canonicalise d) :
      CacheOk canonicalise (ldbDnCompareBase extendedSyntaxByName canonicalise b d).2.1 ∧
        CacheOk canonicalise (ldbDnCompareBase extendedSyntaxByName canonicalise b d).2.2 :=
    ldbDnCompareBase_cacheOk hb hd
  cases scope with
  | base =>
    have h : CacheOk canonicalise (ldbDnCompare extendedSyntaxByName canonicalise base dn).2.1 ∧
        CacheOk canonicalise (ldbDnCompare extendedSyntaxByName canonicalise base dn).2.2 :=
      ldbDnCompare_cacheOk hb hd
    simp only [ldbMatchScope]
    generalize ldbDnCompare extendedSyntaxByName canonicalise base dn = x at h ⊢
    obtain ⟨r, b', d'⟩ := x
    exact hsome h
  | oneLevel =>
    have hd1 : CacheOk canonicalise (ldbDnGetCompNum extendedSyntaxByName dn).2 :=
      ldbDnGetCompNum_cacheOk hd
    have hb1 : CacheOk canonicalise (ldbDnGetCompNum extendedSyntaxByName base).2 :=
      ldbDnGetCompNum_cacheOk hb
    simp only [ldbMatchScope]
    generalize ldbDnGetCompNum extendedSyntaxByName dn = y at hd1 ⊢
    generalize ldbDnGetCompNum extendedSyntaxByName base = x at hb1 ⊢
    obtain ⟨nDn, d1⟩ := y
    obtain ⟨nBase, b1⟩ := x
    dsimp only at hb1 hd1 ⊢
    by_cases hn : nDn = nBase + 1
    · rw [if_pos hn]
      exact hsome (hsubtree hb1 hd1)
    · rw [if_neg hn]
      exact hsome ⟨hb1, hd1⟩
  | subtree | default =>
    have h := hsubtree hb hd
    simp only [ldbMatchScope]
    generalize ldbDnCompareBase extendedSyntaxByName canonicalise base dn = x at h ⊢
    obtain ⟨r, b', d'⟩ := x
    exact hsome h

theorem Reachable.cacheOk {dn : LdbDn} (h : Reachable extendedSyntaxByName canonicalise dn) :
    CacheOk canonicalise dn := by
  induction h with
  | new hnew => exact CacheOk.of_validCase_false (ldbDnNew_validCase hnew)
  | explode _ ih => exact ldbDnExplodeDn_cacheOk ih
  | casefold _ ih => exact ldbDnCasefoldInternal_cacheOk ih
  | getCompNum _ ih => exact ldbDnGetCompNum_cacheOk ih
  | compareBaseBase _ _ ihb ihd => exact (ldbDnCompareBase_cacheOk ihb ihd).1
  | compareBaseDn _ _ ihb ihd => exact (ldbDnCompareBase_cacheOk ihb ihd).2
  | compareFst _ _ ih0 ih1 => exact (ldbDnCompare_cacheOk ih0 ih1).1
  | compareSnd _ _ ih0 ih1 => exact (ldbDnCompare_cacheOk ih0 ih1).2
  | matchScopeBase scope _ _ hd ihb ihd => exact (ldbMatchScope_cacheOk scope ihb ihd).1 hd
  | matchScopeDn scope _ _ hd ihb ihd => exact (ldbMatchScope_cacheOk scope ihb ihd).2 hd

theorem ldbAsciiToupper_eq_zero {c : UInt8} (h : ldbAsciiToupper c = 0) : c = 0 := by
  unfold ldbAsciiToupper at h
  split_ifs at h with hc
  · have h20 : c = 0x20 := (UInt8.xor_left_inj 0x20).mp h
    subst h20
    exact absurd hc.1 (by decide)
  · exact h

theorem zero_not_mem_ldbAttrCasefold (s : List UInt8) : 0 ∉ ldbAttrCasefold s := by
  intro h
  obtain ⟨c, hc, h0⟩ := List.mem_map.mp h
  exact zero_not_mem_cString s (ldbAsciiToupper_eq_zero h0 ▸ hc)

theorem CasefoldedAs.nulFree (hcanon : ∀ a d l v, canonicalise a d l = some v → 0 ∉ v)
    {c : DnComponent} (h : CasefoldedAs canonicalise c) : NulFree c :=
  ⟨h.1 ▸ zero_not_mem_ldbAttrCasefold _, hcanon _ _ _ _ h.2⟩

theorem map_canonicalKey {cs : List DnComponent} (h : ∀ c ∈ cs, CasefoldedAs canonicalise c) :
    cs.map (canonicalKey canonicalise) = (cs.map casefoldedKey).map fun k ↦ (k.1, some k.2) := by
  rw [List.map_map]
  refine List.map_congr_left fun c hc ↦ ?_
  obtain ⟨hname, hvalue⟩ := h c hc
  simp only [canonicalKey, Function.comp_apply, casefoldedKey, ← hname, hvalue]

theorem ldbDnCompareBase_casefolded_iff
    (hcanon : ∀ a d l v, canonicalise a d l = some v → 0 ∉ v) {base dn : LdbDn}
    (hb : Reachable extendedSyntaxByName canonicalise base)
    (hd : Reachable extendedSyntaxByName canonicalise dn)
    (hbc : base.validCase = true) (hdc : dn.validCase = true)
    (hbi : base.invalid = false) (hdi : dn.invalid = false)
    (hbs : base.special = false) (hds : dn.special = false) :
    (ldbDnCompareBase extendedSyntaxByName canonicalise base dn).1 = 0 ↔
      (base.components.getD []).map (canonicalKey canonicalise) <:+
        (dn.components.getD []).map (canonicalKey canonicalise) := by
  have hbf := hb.cacheOk.casefolded hbc
  have hdf := hd.cacheOk.casefolded hdc
  have hcmp : (ldbDnCompareBase extendedSyntaxByName canonicalise base dn).1 =
      compareBaseCasefolded base dn := by
    simp [ldbDnCompareBase, hbi, hdi, hbc, hdc]
  have hinj : Function.Injective fun k : List UInt8 × List UInt8 ↦ (k.1, some k.2) := by
    rintro ⟨a, b⟩ ⟨a', b'⟩ h
    simpa using h
  rw [hcmp, compareBaseCasefolded_eq_zero_iff hbs hds (fun c hc ↦ (hbf c hc).nulFree hcanon)
    (fun c hc ↦ (hdf c hc).nulFree hcanon), map_canonicalKey hbf, map_canonicalKey hdf,
    List.suffix_map_iff_of_injective hinj]

def cStringValues : List UInt8 → List UInt8 → Nat → Option (List UInt8) :=
  fun _ data length ↦ some (cString (data.take length))

theorem ldbDnCompareBase_casefolded_iff_dcB :
    (ldbDnCompareBase noExtendedSyntax cStringValues
        (ldbDnCasefoldInternal noExtendedSyntax cStringValues
          ⟨false, false, false, some dcEqB, none, none⟩).2
        (ldbDnCasefoldInternal noExtendedSyntax cStringValues
          ⟨false, false, false, some xEqYDcEqB, none, none⟩).2).1 = 0 ↔
      ((ldbDnCasefoldInternal noExtendedSyntax cStringValues
          ⟨false, false, false, some dcEqB, none, none⟩).2.components.getD []).map
          (canonicalKey cStringValues) <:+
        ((ldbDnCasefoldInternal noExtendedSyntax cStringValues
          ⟨false, false, false, some xEqYDcEqB, none, none⟩).2.components.getD []).map
          (canonicalKey cStringValues) :=
  ldbDnCompareBase_casefolded_iff
    (fun _ _ _ _ h ↦ Option.some_inj.mp h ▸ zero_not_mem_cString _)
    (.casefold (.new (by decide : ldbDnNew dcEqB = some ⟨false, false, false, some dcEqB, none, none⟩)))
    (.casefold (.new (by decide :
      ldbDnNew xEqYDcEqB = some ⟨false, false, false, some xEqYDcEqB, none, none⟩)))
    (by decide +kernel) (by decide +kernel) (by decide +kernel) (by decide +kernel) rfl rfl

end Invariant

end Samba.Ldb.DnCompare
