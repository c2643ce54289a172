import Samba.Lib.CString

namespace Samba.Ldb.Match

open Samba.Lib.CString

structure LdbVal where
  data : List UInt8
  deriving DecidableEq, Repr

def ldbSuccess : Int := 0
def ldbErrInappropriateMatching : Int := 18
def ldbErrInvalidAttributeSyntax : Int := 21
def ldbErrInvalidDnSyntax : Int := 34

abbrev LdbResult := Int × Bool

inductive LdbScope
  | default | base | oneLevel | subtree
  deriving DecidableEq, Repr

inductive LdbParseOp
  | and | or | not | equality | substring | greater | less | present | approx | extended
  deriving DecidableEq, Repr

inductive LdbParseTree
  | and (elements : List LdbParseTree)
  | or (elements : List LdbParseTree)
  | not (child : LdbParseTree)
  | equality (attr : String) (value : LdbVal)
  | substring (attr : String) (startWithWildcard endWithWildcard : Bool) (chunks : List LdbVal)
  | greater (attr : String) (value : LdbVal)
  | less (attr : String) (value : LdbVal)
  | present (attr : String)
  | approx (attr : String) (value : LdbVal)
  | extended (attr : Option String) (dnAttributes : Bool) (ruleId : Option String)
      (value : LdbVal)
  deriving Repr

def LdbParseTree.operation : LdbParseTree → LdbParseOp
  | .and _ => .and
  | .or _ => .or
  | .not _ => .not
  | .equality .. => .equality
  | .substring .. => .substring
  | .greater .. => .greater
  | .less .. => .less
  | .present _ => .present
  | .approx .. => .approx
  | .extended .. => .extended

def ldbFlagInternalInaccessibleAttribute : UInt32 := 0x40

structure LdbMessageElement where
  flags : UInt32
  name : String
  values : List LdbVal
  deriving DecidableEq, Repr

structure LdbMessage (Dn : Type) where
  dn : Dn
  elements : List LdbMessageElement

structure LdbSchemaSyntax where
  operatorFn : Option (LdbParseOp → LdbVal → Option LdbVal → LdbResult)
  comparisonFn : LdbVal → LdbVal → Int
  canonicaliseFn : Option (LdbVal → Option LdbVal)

structure LdbExtendedMatchRule (Dn : Type) where
  oid : String
  callback : String → LdbMessage Dn → String → LdbVal → LdbResult

structure LdbContext (Dn : Type) where
  schemaAttributeByName : String → Option LdbSchemaSyntax
  extendedMatchRules : List (LdbExtendedMatchRule Dn)
  dnIsSpecial : Dn → Bool
  dnCompare : Dn → Dn → Int
  dnFromLdbVal : LdbVal → Option Dn

/-- `ldb_attr_cmp`, that is `strcasecmp`, as an equality test. -/
def ldbAttrCmp (a b : String) : Bool := a.toLower == b.toLower

def ldbAttrDn (attr : String) : Bool :=
  ldbAttrCmp attr "dn" || ldbAttrCmp attr "distinguishedName"

variable {Dn : Type}

/-- `ldb_msg_find_element`: the first element with the name. -/
def ldbMsgFindElement (msg : LdbMessage Dn) (attrName : String) : Option LdbMessageElement :=
  msg.elements.find? fun el ↦ ldbAttrCmp el.name attrName

def ldbMsgElementIsInaccessible (el : LdbMessageElement) : Bool :=
  el.flags &&& ldbFlagInternalInaccessibleAttribute != 0

def ldbParseTreeGetAttr : LdbParseTree → Option String
  | .and _ | .or _ | .not _ => none
  | .equality attr _ | .substring attr _ _ _ | .greater attr _ | .less attr _
  | .present attr | .approx attr _ => some attr
  | .extended attr _ _ _ => attr

def ldbMustSuppressMatch (msg : LdbMessage Dn) (tree : LdbParseTree) : Bool :=
  match ldbParseTreeGetAttr tree with
  | none => false
  | some attr =>
    match ldbMsgFindElement msg attr with
    | none => false
    | some el => ldbMsgElementIsInaccessible el

def firstMatch (f : LdbVal → LdbResult) : List LdbVal → LdbResult
  | [] => (ldbSuccess, false)
  | v :: vs =>
    let r := f v
    if r.1 ≠ ldbSuccess ∨ r.2 then r else firstMatch f vs

def ldbMatchPresent (ldb : LdbContext Dn) (msg : LdbMessage Dn) (attr : String) : LdbResult :=
  if ldbAttrDn attr then (ldbSuccess, true) else
  match ldbMsgFindElement msg attr with
  | none => (ldbSuccess, false)
  | some el =>
    match ldb.schemaAttributeByName el.name with
    | none => (ldbErrInvalidAttributeSyntax, false)
    | some a =>
      match a.operatorFn with
      | some operatorFn => firstMatch (fun v ↦ operatorFn .present v none) el.values
      | none => (ldbSuccess, true)

/-- `ldb_match_comparison` for `GREATER`, `LESS` and `APPROX`. -/
def ldbMatchComparison (ldb : LdbContext Dn) (msg : LdbMessage Dn) (attr : String)
    (value : LdbVal) (compOp : LdbParseOp) : LdbResult :=
  if compOp = .approx then (ldbErrInappropriateMatching, false) else
  match ldbMsgFindElement msg attr with
  | none => (ldbSuccess, false)
  | some el =>
    match ldb.schemaAttributeByName el.name with
    | none => (ldbErrInvalidAttributeSyntax, false)
    | some a =>
      firstMatch (fun v ↦
        match a.operatorFn with
        | some operatorFn => operatorFn compOp v (some value)
        | none =>
          let ret := a.comparisonFn v value
          (ldbSuccess, ret = 0 || (0 < ret && compOp = .greater) || (ret < 0 && compOp = .less)))
        el.values

def ldbMatchEquality (ldb : LdbContext Dn) (msg : LdbMessage Dn) (attr : String)
    (value : LdbVal) : LdbResult :=
  if ldbAttrDn attr then
    match ldb.dnFromLdbVal value with
    | none => (ldbErrInvalidDnSyntax, false)
    | some valuedn => (ldbSuccess, ldb.dnCompare msg.dn valuedn = 0)
  else
  match ldbMsgFindElement msg attr with
  | none => (ldbSuccess, false)
  | some el =>
    match ldb.schemaAttributeByName el.name with
    | none => (ldbErrInvalidAttributeSyntax, false)
    | some a =>
      firstMatch (fun v ↦
        match a.operatorFn with
        | some operatorFn => operatorFn .equality value (some v)
        | none => (ldbSuccess, a.comparisonFn value v = 0))
        el.values

/-- `memmem`: the offset of the first occurrence of `needle` in `haystack`. -/
def memmem : List UInt8 → List UInt8 → Option Nat
  | haystack, needle =>
    if needle.isPrefixOf haystack then some 0 else
    match haystack with
    | [] => none
    | _ :: rest => (memmem rest needle).map (· + 1)

def wildcardChunks (canonicalise : LdbVal → Option LdbVal) (endWithWildcard : Bool) :
    List LdbVal → List UInt8 → Bool
  | [], _ => true
  | chunk :: rest, val =>
    match canonicalise chunk with
    | none => false
    | some cnk =>
      if cnk.data.length = 0 ∨ val.length < cnk.data.length then false
      else if rest = [] ∧ !endWithWildcard then val.drop (val.length - cnk.data.length) = cnk.data
      else match memmem val cnk.data with
        | none => false
        | some p => wildcardChunks canonicalise endWithWildcard rest (val.drop (p + cnk.data.length))

/-- `ldb_wildcard_compare` on one value; a `goto mismatch` is an unmatched success. -/
def ldbWildcardCompare (ldb : LdbContext Dn) (attr : String) (startWithWildcard endWithWildcard : Bool)
    (chunks : List LdbVal) (value : LdbVal) : LdbResult :=
  match ldb.schemaAttributeByName attr with
  | none => (ldbErrInvalidAttributeSyntax, false)
  | some a =>
    if chunks = [] then (ldbSuccess, false) else
    let canonicalise := a.canonicaliseFn.getD some
    match canonicalise value with
    | none => (ldbErrInvalidAttributeSyntax, false)
    | some val =>
      if startWithWildcard then (ldbSuccess, wildcardChunks canonicalise endWithWildcard chunks val.data)
      else match chunks with
        | [] => (ldbSuccess, false)
        | chunk :: rest =>
          match canonicalise chunk with
          | none => (ldbSuccess, false)
          | some cnk =>
            if val.data.length < cnk.data.length ∨ cnk.data.length = 0 ∨
                val.data.take cnk.data.length ≠ cnk.data then (ldbSuccess, false)
            else (ldbSuccess,
              wildcardChunks canonicalise endWithWildcard rest (val.data.drop cnk.data.length))

def ldbMatchSubstring (ldb : LdbContext Dn) (msg : LdbMessage Dn) (attr : String)
    (startWithWildcard endWithWildcard : Bool) (chunks : List LdbVal) : LdbResult :=
  match ldbMsgFindElement msg attr with
  | none => (ldbSuccess, false)
  | some el => firstMatch (ldbWildcardCompare ldb attr startWithWildcard endWithWildcard chunks) el.values

def ldbOidComparatorAnd : String := "1.2.840.113556.1.4.803"
def ldbOidComparatorOr : String := "1.2.840.113556.1.4.804"
def sambaLdapMatchAlwaysFalse : String := "1.3.6.1.4.1.7165.4.5.1"

def bitmaskOperand (v : LdbVal) : Option UInt64 :=
  if 99 ≤ v.data.length then none else
  let ibuf := cString v.data
  let (i, endptr) := strtoull ibuf
  if endptr = 0 ∨ endptr ≠ ibuf.length then none else some i

def ldbComparatorBitmask (oid : String) (v1 v2 : LdbVal) : LdbResult :=
  match bitmaskOperand v1 with
  | none => (ldbErrInvalidAttributeSyntax, false)
  | some i1 =>
    match bitmaskOperand v2 with
    | none => (ldbErrInvalidAttributeSyntax, false)
    | some i2 =>
      if oid = ldbOidComparatorAnd then (ldbSuccess, i1 &&& i2 == i2)
      else if oid = ldbOidComparatorOr then (ldbSuccess, i1 &&& i2 != 0)
      else (ldbErrInappropriateMatching, false)

def ldbMatchBitmask (oid : String) (msg : LdbMessage Dn) (attributeToMatch : String)
    (valueToMatch : LdbVal) : LdbResult :=
  match ldbMsgFindElement msg attributeToMatch with
  | none => (ldbSuccess, false)
  | some el => firstMatch (fun v ↦ ldbComparatorBitmask oid v valueToMatch) el.values

def ldbComparatorFalse (_oid : String) (_msg : LdbMessage Dn) (_attributeToMatch : String)
    (_valueToMatch : LdbVal) : LdbResult :=
  (ldbSuccess, false)

def ldbBuiltinExtendedMatchRules : List (LdbExtendedMatchRule Dn) :=
  [⟨ldbOidComparatorAnd, ldbMatchBitmask⟩, ⟨ldbOidComparatorOr, ldbMatchBitmask⟩,
    ⟨sambaLdapMatchAlwaysFalse, ldbComparatorFalse⟩]

def ldbFindExtendedMatchRule (ldb : LdbContext Dn) (oid : String) :
    Option (LdbExtendedMatchRule Dn) :=
  ldb.extendedMatchRules.find? (·.oid = oid)

def ldbMatchExtended (ldb : LdbContext Dn) (msg : LdbMessage Dn) (attr : Option String)
    (ruleId : Option String) (value : LdbVal) : LdbResult :=
  match ruleId, attr with
  | none, _ => (ldbErrInappropriateMatching, false)
  | some _, none => (ldbErrInappropriateMatching, false)
  | some ruleId, some attr =>
    match ldbFindExtendedMatchRule ldb ruleId with
    | none => (ldbSuccess, false)
    | some rule => rule.callback rule.oid msg attr value

mutual

/-- `ldb_match_message`, with the short-circuit loops of `AND` and `OR`. -/
def ldbMatchMessage (ldb : LdbContext Dn) (msg : LdbMessage Dn) (scope : LdbScope)
    (tree : LdbParseTree) : LdbResult :=
  if scope ≠ .base ∧ ldb.dnIsSpecial msg.dn then (ldbSuccess, false) else
  if tree.operation ≠ .extended ∧ ldbMustSuppressMatch msg tree then (ldbSuccess, false) else
  match tree with
  | .and elements => ldbMatchAnd ldb msg scope elements
  | .or elements => ldbMatchOr ldb msg scope elements
  | .not child =>
    let r := ldbMatchMessage ldb msg scope child
    if r.1 ≠ ldbSuccess then r else (ldbSuccess, !r.2)
  | .equality attr value => ldbMatchEquality ldb msg attr value
  | .substring attr startWithWildcard endWithWildcard chunks =>
    ldbMatchSubstring ldb msg attr startWithWildcard endWithWildcard chunks
  | .greater attr value => ldbMatchComparison ldb msg attr value .greater
  | .less attr value => ldbMatchComparison ldb msg attr value .less
  | .present attr => ldbMatchPresent ldb msg attr
  | .approx attr value => ldbMatchComparison ldb msg attr value .approx
  | .extended attr _ ruleId value => ldbMatchExtended ldb msg attr ruleId value

def ldbMatchAnd (ldb : LdbContext Dn) (msg : LdbMessage Dn) (scope : LdbScope) :
    List LdbParseTree → LdbResult
  | [] => (ldbSuccess, true)
  | tree :: trees =>
    let r := ldbMatchMessage ldb msg scope tree
    if r.1 ≠ ldbSuccess ∨ !r.2 then r else ldbMatchAnd ldb msg scope trees

def ldbMatchOr (ldb : LdbContext Dn) (msg : LdbMessage Dn) (scope : LdbScope) :
    List LdbParseTree → LdbResult
  | [] => (ldbSuccess, false)
  | tree :: trees =>
    let r := ldbMatchMessage ldb msg scope tree
    if r.1 ≠ ldbSuccess ∨ r.2 then r else ldbMatchOr ldb msg scope trees

end

def ElementAgree (e1 e2 : LdbMessageElement) : Prop :=
  e1.name = e2.name ∧ e1.flags = e2.flags ∧
    (ldbMsgElementIsInaccessible e1 = false → e1.values = e2.values)

def AgreeOnAccessible (m1 m2 : LdbMessage Dn) : Prop :=
  m1.dn = m2.dn ∧ List.Forall₂ ElementAgree m1.elements m2.elements

def RespectsInaccessible (callback : String → LdbMessage Dn → String → LdbVal → LdbResult) :
    Prop :=
  ∀ oid m1 m2 attr value, AgreeOnAccessible m1 m2 → callback oid m1 attr value = callback oid m2 attr value

section Agreement

variable {m1 m2 : LdbMessage Dn}

theorem ElementAgree.eq_of_accessible {e1 e2 : LdbMessageElement} (he : ElementAgree e1 e2)
    (h : ldbMsgElementIsInaccessible e1 = false) : e1 = e2 := by
  obtain ⟨hname, hflags, hvalues⟩ := he
  cases e1
  cases e2
  simp_all

theorem find?_elementAgree {l1 l2 : List LdbMessageElement} (h : List.Forall₂ ElementAgree l1 l2)
    (attr : String) :
    Option.Rel ElementAgree (l1.find? fun el ↦ ldbAttrCmp el.name attr)
      (l2.find? fun el ↦ ldbAttrCmp el.name attr) := by
  induction h with
  | nil => exact .none
  | @cons e1 e2 l1 l2 he _ ih =>
    have hname : ldbAttrCmp e1.name attr = ldbAttrCmp e2.name attr := by rw [he.1]
    simp only [List.find?_cons, hname]
    split
    · exact .some he
    · exact ih

-- equation lemmas made once, before the proofs below use them in parallel
attribute [local simp] ldbAttrCmp.eq_1 ldbMsgFindElement.eq_1 ldbMsgElementIsInaccessible.eq_1
  ldbMustSuppressMatch.eq_1 firstMatch.eq_1 ldbMatchBitmask.eq_1 ldbMatchExtended.eq_1
  ldbMatchMessage.eq_1
attribute [-simp] ldbAttrCmp.eq_1 ldbMsgFindElement.eq_1 ldbMsgElementIsInaccessible.eq_1
  ldbMustSuppressMatch.eq_1 firstMatch.eq_1 ldbMatchBitmask.eq_1 ldbMatchExtended.eq_1
  ldbMatchMessage.eq_1

theorem ldbMustSuppressMatch_agree (hagree : AgreeOnAccessible m1 m2) (tree : LdbParseTree) :
    ldbMustSuppressMatch m1 tree = ldbMustSuppressMatch m2 tree := by
  unfold ldbMustSuppressMatch ldbMsgFindElement
  cases ldbParseTreeGetAttr tree with
  | none => rfl
  | some attr =>
    simp only
    have hrel := find?_elementAgree hagree.2 attr
    generalize m1.elements.find? _ = f1 at hrel ⊢
    generalize m2.elements.find? _ = f2 at hrel ⊢
    cases hrel with
    | none => rfl
    | some he => simp only [ldbMsgElementIsInaccessible, he.2.1]

theorem ldbMsgFindElement_eq_of_not_suppressed (hagree : AgreeOnAccessible m1 m2)
    {tree : LdbParseTree} {attr : String} (hattr : ldbParseTreeGetAttr tree = some attr)
    (hs : ldbMustSuppressMatch m1 tree = false) :
    ldbMsgFindElement m1 attr = ldbMsgFindElement m2 attr := by
  simp only [ldbMustSuppressMatch, hattr, ldbMsgFindElement] at hs ⊢
  have hrel := find?_elementAgree hagree.2 attr
  generalize m1.elements.find? _ = f1 at hrel hs ⊢
  generalize m2.elements.find? _ = f2 at hrel ⊢
  cases hrel with
  | none => rfl
  | some he => rw [he.eq_of_accessible hs]

end Agreement

section NonInterference

variable (ldb : LdbContext Dn) (scope : LdbScope) {m1 m2 : LdbMessage Dn}

theorem ldbMatchPresent_congr {attr : String}
    (hfind : ldbMsgFindElement m1 attr = ldbMsgFindElement m2 attr) :
    ldbMatchPresent ldb m1 attr = ldbMatchPresent ldb m2 attr := by
  unfold ldbMatchPresent
  rw [hfind]

theorem ldbMatchComparison_congr {attr : String}
    (hfind : ldbMsgFindElement m1 attr = ldbMsgFindElement m2 attr) (value : LdbVal)
    (compOp : LdbParseOp) :
    ldbMatchComparison ldb m1 attr value compOp = ldbMatchComparison ldb m2 attr value compOp := by
  unfold ldbMatchComparison
  rw [hfind]

theorem ldbMatchEquality_congr {attr : String} (hdn : m1.dn = m2.dn)
    (hfind : ldbMsgFindElement m1 attr = ldbMsgFindElement m2 attr) (value : LdbVal) :
    ldbMatchEquality ldb m1 attr value = ldbMatchEquality ldb m2 attr value := by
  unfold ldbMatchEquality
  rw [hdn, hfind]

theorem ldbMatchSubstring_congr {attr : String}
    (hfind : ldbMsgFindElement m1 attr = ldbMsgFindElement m2 attr)
    (startWithWildcard endWithWildcard : Bool) (chunks : List LdbVal) :
    ldbMatchSubstring ldb m1 attr startWithWildcard endWithWildcard chunks =
      ldbMatchSubstring ldb m2 attr startWithWildcard endWithWildcard chunks := by
  unfold ldbMatchSubstring
  rw [hfind]

variable {ldb}

theorem ldbMatchExtended_agree
    (hrules : ∀ rule ∈ ldb.extendedMatchRules, RespectsInaccessible rule.callback)
    (hagree : AgreeOnAccessible m1 m2) (attr ruleId : Option String) (value : LdbVal) :
    ldbMatchExtended ldb m1 attr ruleId value = ldbMatchExtended ldb m2 attr ruleId value := by
  unfold ldbMatchExtended
  rcases ruleId with _ | ruleId
  · rfl
  rcases attr with _ | attr
  · rfl
  simp only
  cases hfind : ldbFindExtendedMatchRule ldb ruleId with
  | none => rfl
  | some rule =>
    exact hrules rule (List.mem_of_find?_eq_some hfind) rule.oid m1 m2 attr value hagree

mutual

theorem ldbMatchMessage_agree
    (hrules : ∀ rule ∈ ldb.extendedMatchRules, RespectsInaccessible rule.callback)
    (hagree : AgreeOnAccessible m1 m2) (tree : LdbParseTree) :
    ldbMatchMessage ldb m1 scope tree = ldbMatchMessage ldb m2 scope tree := by
  have hs := ldbMustSuppressMatch_agree hagree tree
  rw [ldbMatchMessage.eq_def ldb m1, ldbMatchMessage.eq_def ldb m2, ← hagree.1, ← hs]
  split_ifs with hspecial hsupp
  · rfl
  · rfl
  have hfind : ∀ {attr}, ldbParseTreeGetAttr tree = some attr → tree.operation ≠ .extended →
      ldbMsgFindElement m1 attr = ldbMsgFindElement m2 attr := fun hattr hop ↦
    ldbMsgFindElement_eq_of_not_suppressed hagree hattr (by simpa [hop] using hsupp)
  cases tree with
  | and elements => exact ldbMatchAnd_agree hrules hagree elements
  | or elements => exact ldbMatchOr_agree hrules hagree elements
  | not child => simp only [ldbMatchMessage_agree hrules hagree child]
  | equality attr value =>
    exact ldbMatchEquality_congr ldb hagree.1 (hfind rfl (by simp [LdbParseTree.operation])) value
  | substring attr startWithWildcard endWithWildcard chunks =>
    exact ldbMatchSubstring_congr ldb (hfind rfl (by simp [LdbParseTree.operation])) _ _ _
  | greater attr value => exact ldbMatchComparison_congr ldb (hfind rfl (by simp [LdbParseTree.operation])) _ _
  | less attr value => exact ldbMatchComparison_congr ldb (hfind rfl (by simp [LdbParseTree.operation])) _ _
  | present attr => exact ldbMatchPresent_congr ldb (hfind rfl (by simp [LdbParseTree.operation]))
  | approx attr value => exact ldbMatchComparison_congr ldb (hfind rfl (by simp [LdbParseTree.operation])) _ _
  | extended attr _ ruleId value => exact ldbMatchExtended_agree hrules hagree attr ruleId value

theorem ldbMatchAnd_agree
    (hrules : ∀ rule ∈ ldb.extendedMatchRules, RespectsInaccessible rule.callback)
    (hagree : AgreeOnAccessible m1 m2) (trees : List LdbParseTree) :
    ldbMatchAnd ldb m1 scope trees = ldbMatchAnd ldb m2 scope trees := by
  cases trees with
  | nil => rfl
  | cons tree trees =>
    simp only [ldbMatchAnd, ldbMatchMessage_agree hrules hagree tree,
      ldbMatchAnd_agree hrules hagree trees]

theorem ldbMatchOr_agree
    (hrules : ∀ rule ∈ ldb.extendedMatchRules, RespectsInaccessible rule.callback)
    (hagree : AgreeOnAccessible m1 m2) (trees : List LdbParseTree) :
    ldbMatchOr ldb m1 scope trees = ldbMatchOr ldb m2 scope trees := by
  cases trees with
  | nil => rfl
  | cons tree trees =>
    simp only [ldbMatchOr, ldbMatchMessage_agree hrules hagree tree,
      ldbMatchOr_agree hrules hagree trees]

end

end NonInterference

def bitmaskAndFilter : LdbParseTree :=
  .extended (some "a") false (some ldbOidComparatorAnd) ⟨[0x31]⟩

def redactedMessage (dn : Dn) (v : List UInt8) : LdbMessage Dn :=
  ⟨dn, [⟨ldbFlagInternalInaccessibleAttribute, "a", [⟨v⟩]⟩]⟩

theorem redactedMessage_agree (dn : Dn) (v w : List UInt8) :
    AgreeOnAccessible (redactedMessage dn v) (redactedMessage dn w) := by
  refine ⟨rfl, List.Forall₂.cons ⟨rfl, rfl, ?_⟩ List.Forall₂.nil⟩
  intro h
  simp [ldbMsgElementIsInaccessible, ldbFlagInternalInaccessibleAttribute] at h

attribute [local simp] redactedMessage.eq_1
attribute [-simp] redactedMessage.eq_1

theorem ldbMatchMessage_bitmask_reads_inaccessible (ldb : LdbContext Dn)
    (rest : List (LdbExtendedMatchRule Dn))
    (hrules : ldb.extendedMatchRules = ldbBuiltinExtendedMatchRules ++ rest) (dn : Dn)
    (hspecial : ldb.dnIsSpecial dn = false) (scope : LdbScope) :
    ldbMatchMessage ldb (redactedMessage dn [0x31]) scope bitmaskAndFilter = (ldbSuccess, true) ∧
    ldbMatchMessage ldb (redactedMessage dn [0x30]) scope bitmaskAndFilter = (ldbSuccess, false) := by
  have hrule : ldbFindExtendedMatchRule ldb ldbOidComparatorAnd =
      some ⟨ldbOidComparatorAnd, ldbMatchBitmask⟩ := by
    simp [ldbFindExtendedMatchRule, hrules, ldbBuiltinExtendedMatchRules]
  have hone : ldbComparatorBitmask ldbOidComparatorAnd ⟨[0x31]⟩ ⟨[0x31]⟩ = (ldbSuccess, true) := by
    decide
  have hzero : ldbComparatorBitmask ldbOidComparatorAnd ⟨[0x30]⟩ ⟨[0x31]⟩ = (ldbSuccess, false) := by
    decide
  constructor
  · rw [ldbMatchMessage.eq_def]
    simp [hspecial, bitmaskAndFilter, LdbParseTree.operation, ldbMatchExtended, hrule,
      ldbMatchBitmask, ldbMsgFindElement, redactedMessage, ldbAttrCmp, firstMatch, hone]
  · rw [ldbMatchMessage.eq_def]
    simp [hspecial, bitmaskAndFilter, LdbParseTree.operation, ldbMatchExtended, hrule,
      ldbMatchBitmask, ldbMsgFindElement, redactedMessage, ldbAttrCmp, firstMatch, hzero]

def builtinRulesContext : LdbContext Unit :=
  ⟨fun _ ↦ none, ldbBuiltinExtendedMatchRules, fun _ ↦ false, fun _ _ ↦ 0, fun _ ↦ none⟩

theorem ldbMatchMessage_bitmask_reads_inaccessible_subtree :
    ldbMatchMessage builtinRulesContext (redactedMessage () [0x31]) .subtree bitmaskAndFilter =
      (ldbSuccess, true) ∧
    ldbMatchMessage builtinRulesContext (redactedMessage () [0x30]) .subtree bitmaskAndFilter =
      (ldbSuccess, false) :=
  ldbMatchMessage_bitmask_reads_inaccessible builtinRulesContext [] (by simp [builtinRulesContext])
    () rfl .subtree

theorem ldbComparatorFalse_respectsInaccessible : RespectsInaccessible (@ldbComparatorFalse Dn) :=
  fun _ _ _ _ _ _ ↦ rfl

theorem ldbMatchBitmask_not_respectsInaccessible (dn : Dn) :
    ¬ RespectsInaccessible (@ldbMatchBitmask Dn) := by
  intro hrespects
  have hsame := hrespects ldbOidComparatorAnd (redactedMessage dn [0x31]) (redactedMessage dn [0x30])
    "a" ⟨[0x31]⟩ (redactedMessage_agree dn _ _)
  have hone : ldbComparatorBitmask ldbOidComparatorAnd ⟨[0x31]⟩ ⟨[0x31]⟩ = (ldbSuccess, true) := by
    decide
  have hzero : ldbComparatorBitmask ldbOidComparatorAnd ⟨[0x30]⟩ ⟨[0x31]⟩ = (ldbSuccess, false) := by
    decide
  simp [ldbMatchBitmask, ldbMsgFindElement, redactedMessage, ldbAttrCmp, firstMatch, hone,
    hzero] at hsame

end Samba.Ldb.Match
