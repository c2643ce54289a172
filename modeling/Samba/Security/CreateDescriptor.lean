import Samba.Lib.Mask
import Samba.Security.AccessCheck

namespace Samba.Security.CreateDescriptor

open Samba.Lib.Mask Samba.Security.Descriptor

def secGenericAll : UInt32 := 0x10000000
def secGenericExecute : UInt32 := 0x20000000
def secGenericWrite : UInt32 := 0x40000000
def secGenericRead : UInt32 := 0x80000000

def secAdsCreateChild : UInt32 := 0x00000001
def secAdsDeleteChild : UInt32 := 0x00000002
def secAdsList : UInt32 := 0x00000004
def secAdsSelfWrite : UInt32 := 0x00000008
def secAdsDeleteTree : UInt32 := 0x00000040
def secAdsListObject : UInt32 := 0x00000080

def secAdsGenericAllDs : UInt32 :=
  secStdDelete ||| secStdWriteDac ||| secStdWriteOwner ||| secAdsCreateChild |||
    secAdsDeleteChild ||| secAdsDeleteTree ||| secAdsControlAccess
def secAdsGenericExecute : UInt32 := secStdReadControl ||| secAdsList
def secAdsGenericWrite : UInt32 := secStdReadControl ||| secAdsSelfWrite ||| secAdsWriteProp
def secAdsGenericRead : UInt32 :=
  secStdReadControl ||| secAdsList ||| secAdsReadProp ||| secAdsListObject
def secAdsGenericAll : UInt32 :=
  secAdsGenericExecute ||| secAdsGenericWrite ||| secAdsGenericRead ||| secAdsGenericAllDs

def secDaclAutoInherit : UInt32 := 0x00000001
def secSaclAutoInherit : UInt32 := 0x00000002
def secDefaultDescriptor : UInt32 := 0x00000004
def secOwnerFromParent : UInt32 := 0x00000008
def secGroupFromParent : UInt32 := 0x00000010

def secDescOwnerDefaulted : UInt16 := 0x0001
def secDescGroupDefaulted : UInt16 := 0x0002
def secDescSelfRelative : UInt16 := 0x8000

def mapGenericBit (generic specific accessMask : UInt32) : UInt32 :=
  if accessMask &&& generic ≠ 0 then (accessMask ||| specific) &&& ~~~generic else accessMask

def mapGenericRightsDs (accessMask : UInt32) : UInt32 :=
  let accessMask := mapGenericBit secGenericAll secAdsGenericAll accessMask
  let accessMask := mapGenericBit secGenericExecute secAdsGenericExecute accessMask
  let accessMask := mapGenericBit secGenericWrite secAdsGenericWrite accessMask
  mapGenericBit secGenericRead secAdsGenericRead accessMask

/-- `object_in_list`: a `NULL` list holds every object, and the list is read up
to its all-zero terminator. -/
def objectInList (objectList : Option (List Guid)) (object : Guid) : Bool :=
  match objectList with
  | none => true
  | some list => guidAllZero object || go list
where
  go : List Guid → Bool
    | [] => false
    | g :: gs => if guidAllZero g then false else if g = object then true else go gs

def descAceHasGeneric (ace : SecurityAce) : Bool :=
  ace.accessMask &&& secGenericAll != 0 || ace.accessMask &&& secGenericRead != 0 ||
    ace.accessMask &&& secGenericWrite != 0 || ace.accessMask &&& secGenericExecute != 0 ||
    ace.trustee == globalSidCreatorOwner || ace.trustee == globalSidCreatorGroup

def expandTrustee (owner group trustee : DomSid) : DomSid :=
  let trustee := if trustee = globalSidCreatorOwner then owner else trustee
  if trustee = globalSidCreatorGroup then group else trustee

def descExpandGeneric (owner group : DomSid) (ace : SecurityAce) : SecurityAce :=
  { ace with accessMask := mapGenericRightsDs ace.accessMask,
             trustee := expandTrustee owner group ace.trustee, flags := 0 }

def inheritableAceType : AceType → Bool
  | .systemAlarmCallback | .systemAlarmCallbackObject | .systemMandatoryLabel
  | .systemScopedPolicyId => false
  | _ => true

def downgradeObjectAceType : AceType → AceType
  | .accessAllowedObject => .accessAllowed
  | .accessDeniedObject => .accessDenied
  | .systemAlarmObject => .systemAlarm
  | .systemAuditObject => .systemAudit
  | .accessAllowedCallbackObject => .accessAllowedCallback
  | .accessDeniedCallbackObject => .accessDeniedCallback
  | .systemAuditCallbackObject => .systemAuditCallback
  | t => t

def expandedInheritedAce (owner group : DomSid) (inheritedObject inheritedProperty : Bool)
    (ace : SecurityAce) : SecurityAce :=
  let e := descExpandGeneric owner group ace
  { e with
    flags := (e.flags ||| secAceFlagInheritedAce) &&& ~~~secAceFlagContainerInherit &&&
      ~~~secAceFlagObjectInherit &&& ~~~secAceFlagNoPropagateInherit
    object := if inheritedObject then
        { e.object with flags := e.object.flags &&& ~~~secAceInheritedObjectTypePresent }
      else e.object
    type := if inheritedProperty then e.type else downgradeObjectAceType e.type }

def inheritedCopyAce (inheritedOnly : Bool) (ace : SecurityAce) : SecurityAce :=
  let flags := ace.flags ||| secAceFlagInheritedAce
  let flags := if inheritedOnly then flags ||| secAceFlagInheritOnly
    else flags &&& ~~~secAceFlagInheritOnly
  let flags := if hasFlag ace.flags secAceFlagNoPropagateInherit then
      flags &&& ~~~secAceFlagContainerInherit &&& ~~~secAceFlagObjectInherit &&&
        ~~~secAceFlagNoPropagateInherit
    else flags
  { ace with flags }

section Inheritance

variable (isContainer : Bool) (owner group : DomSid) (objectList : Option (List Guid))

def inheritAce (ace : SecurityAce) : Option (List SecurityAce) :=
  let applies := isContainer && hasFlag ace.flags secAceFlagContainerInherit ||
    !isContainer && hasFlag ace.flags secAceFlagObjectInherit
  if !applies && !hasFlag ace.flags secAceFlagObjectInherit then some [] else
  if !inheritableAceType ace.type then none else
  let inheritedProperty :=
    secAceObject ace.type && ace.object.flags &&& secAceObjectTypePresent != 0
  let inheritedObject :=
    secAceObject ace.type && ace.object.flags &&& secAceInheritedObjectTypePresent != 0
  let applies := applies && !(inheritedObject && !objectInList objectList ace.object.inheritedType)
  let expanded := expandedInheritedAce owner group inheritedObject inheritedProperty ace
  if hasFlag ace.flags secAceFlagNoPropagateInherit then
    if applies then some [expanded] else some []
  else if applies then
    if descAceHasGeneric ace then some [expanded, inheritedCopyAce true ace]
    else some [inheritedCopyAce false ace]
  else some [inheritedCopyAce true ace]

def inheritAces : List SecurityAce → Option (List SecurityAce)
  | [] => some []
  | ace :: aces => do
    let new ← inheritAce isContainer owner group objectList ace
    let rest ← inheritAces aces
    pure (new ++ rest)

/-- `calculate_inherited_from_parent`: `none` is its `NULL`, returned for a
`NULL` ACL, for an unhandled ACE type and when nothing is inherited. -/
def calculateInheritedFromParent (acl : Option SecurityAcl) : Option SecurityAcl :=
  match acl with
  | none => none
  | some acl =>
    match inheritAces isContainer owner group objectList acl.aces with
    | none | some [] => none
    | some aces => some ⟨acl.revision, aces⟩

end Inheritance

def processUserAce (owner group : DomSid) (isProtected : Bool) (ace : SecurityAce) :
    List SecurityAce :=
  if hasFlag ace.flags secAceFlagInheritedAce && !isProtected then [] else
  let ace := if hasFlag ace.flags secAceFlagInheritedAce then
    { ace with flags := ace.flags &&& ~~~secAceFlagInheritedAce } else ace
  if hasFlag ace.flags secAceFlagInheritOnly &&
      !(hasFlag ace.flags secAceFlagContainerInherit || hasFlag ace.flags secAceFlagObjectInherit)
    then [] else
  if hasFlag ace.flags secAceFlagInheritOnly || !descAceHasGeneric ace then [ace] else
  if !hasFlag ace.flags secAceFlagContainerInherit then [descExpandGeneric owner group ace]
  else [{ ace with flags := ace.flags ||| secAceFlagInheritOnly }, descExpandGeneric owner group ace]

def processUserAcl (owner group : DomSid) (acl : Option SecurityAcl) (isProtected : Bool) :
    Option SecurityAcl :=
  acl.map fun acl ↦ ⟨acl.revision, acl.aces.flatMap (processUserAce owner group isProtected)⟩

def securityAclConcatenate : Option SecurityAcl → Option SecurityAcl → Option SecurityAcl
  | none, acl2 => acl2
  | some acl1, none => some acl1
  | some acl1, some acl2 => some ⟨acl1.revision, acl1.aces ++ acl2.aces⟩

def inheritedAcl (parentAcl : SecurityDescriptor → Option SecurityAcl) (autoInherit : UInt32)
    (protectedFlag : UInt16) (parentSd creatorSd : Option SecurityDescriptor) (isContainer : Bool)
    (inheritFlags : UInt32) (owner group : DomSid) (objectList : Option (List Guid)) :
    Option SecurityAcl :=
  match parentSd with
  | none => none
  | some parent =>
    if inheritFlags &&& autoInherit = 0 then none
    else if creatorSd.any (·.type &&& protectedFlag != 0) then none
    else calculateInheritedFromParent isContainer owner group objectList (parentAcl parent)

def userAcl (creatorAcl : SecurityDescriptor → Option SecurityAcl) (protectedFlag : UInt16)
    (creatorSd : Option SecurityDescriptor) (inheritFlags : UInt32) (owner group : DomSid) :
    Option SecurityAcl :=
  match creatorSd with
  | none => none
  | some creator =>
    if inheritFlags &&& secDefaultDescriptor ≠ 0 then none
    else processUserAcl owner group (creatorAcl creator) (creator.type &&& protectedFlag != 0)

/-- `compute_acl` on a new descriptor with the given `type`, owner and group. -/
def computeAcl (parentSd creatorSd : Option SecurityDescriptor) (isContainer : Bool)
    (inheritFlags : UInt32) (objectList : Option (List Guid)) (owner group : DomSid)
    (type : UInt16) : SecurityDescriptor :=
  let inheritedDacl := inheritedAcl (·.dacl) secDaclAutoInherit secDescDaclProtected parentSd
    creatorSd isContainer inheritFlags owner group objectList
  let inheritedSacl := inheritedAcl (·.sacl) secSaclAutoInherit secDescSaclProtected parentSd
    creatorSd isContainer inheritFlags owner group objectList
  let userDacl := userAcl (·.dacl) secDescDaclProtected creatorSd inheritFlags owner group
  let userSacl := userAcl (·.sacl) secDescSaclProtected creatorSd inheritFlags owner group
  let dacl := securityAclConcatenate userDacl inheritedDacl
  let sacl := securityAclConcatenate userSacl inheritedSacl
  let type := type ||| (if dacl.isSome then secDescDaclPresent else 0) |||
    (if inheritedDacl.isSome then secDescDaclAutoInherited else 0) |||
    (if sacl.isSome then secDescSaclPresent else 0) |||
    (if inheritedSacl.isSome then secDescSaclAutoInherited else 0) |||
    (creatorSd.map (·.type)).getD 0
  ⟨type, some owner, some group, sacl, dacl⟩

def newOwnerSid (parentSd creatorSd : Option SecurityDescriptor) (inheritFlags : UInt32)
    (token : SecurityToken) (defaultOwner : Option DomSid) : Option DomSid × UInt16 :=
  match creatorSd.bind (·.ownerSid) with
  | some owner => (some owner, 0)
  | none =>
    if inheritFlags &&& secOwnerFromParent ≠ 0 ∧ parentSd.isSome then
      (parentSd.bind (·.ownerSid), 0)
    else match defaultOwner with
      | none => (token.sids[0]?, 0)
      | some owner => (some owner, secDescOwnerDefaulted)

def newGroupSid (parentSd creatorSd : Option SecurityDescriptor) (inheritFlags : UInt32)
    (token : SecurityToken) (defaultGroup : Option DomSid) : Option DomSid × UInt16 :=
  match creatorSd.bind (·.groupSid) with
  | some group => (some group, 0)
  | none =>
    if inheritFlags &&& secGroupFromParent ≠ 0 ∧ parentSd.isSome then
      (parentSd.bind (·.groupSid), 0)
    else match defaultGroup with
      | none => if 1 < token.sids.length then (token.sids[1]?, 0) else (token.sids[0]?, 0)
      | some group => (some group, secDescGroupDefaulted)

def createSecurityDescriptor (parentSd creatorSd : Option SecurityDescriptor)
    (isContainer : Bool) (objectList : Option (List Guid)) (inheritFlags : UInt32)
    (token : SecurityToken) (defaultOwner defaultGroup : Option DomSid) :
    Option SecurityDescriptor :=
  let (newOwner, ownerType) := newOwnerSid parentSd creatorSd inheritFlags token defaultOwner
  let (newGroup, groupType) := newGroupSid parentSd creatorSd inheritFlags token defaultGroup
  match newOwner, newGroup with
  | some owner, some group =>
    some (computeAcl parentSd creatorSd isContainer inheritFlags objectList owner group
      (secDescSelfRelative ||| ownerType ||| groupType))
  | _, _ => none

def AppliesTo (isContainer : Bool) (objectList : Option (List Guid)) (ace : SecurityAce) : Prop :=
  hasFlag ace.flags (if isContainer then secAceFlagContainerInherit else secAceFlagObjectInherit)
      = true ∧
    (secAceObject ace.type = true → ace.object.flags &&& secAceInheritedObjectTypePresent ≠ 0 →
      objectInList objectList ace.object.inheritedType = true)

instance (isContainer : Bool) (objectList : Option (List Guid)) (ace : SecurityAce) :
    Decidable (AppliesTo isContainer objectList ace) :=
  inferInstanceAs (Decidable (_ ∧ (_ → _ → _)))

structure InheritedEffective (owner group : DomSid) (ace ace' : SecurityAce) : Prop where
  inherited : hasFlag ace'.flags secAceFlagInheritedAce = true
  notInheritOnly : hasFlag ace'.flags secAceFlagInheritOnly = false
  type : downgradeObjectAceType ace'.type = downgradeObjectAceType ace.type
  accessMask : ace'.accessMask = mapGenericRightsDs ace.accessMask
  trustee : ace'.trustee = expandTrustee owner group ace.trustee

def InheritableAcl (acl : Option SecurityAcl) : Prop :=
  ∀ a, acl = some a → ∀ ace ∈ a.aces, inheritableAceType ace.type = true

def InheritsAfter (isContainer : Bool) (objectList : Option (List Guid)) (owner group : DomSid)
    (parentAcl user acl : Option SecurityAcl) : Prop :=
  ∃ inherited, (acl.map (·.aces)).getD [] = (user.map (·.aces)).getD [] ++ inherited ∧
    ∀ a, parentAcl = some a → ∀ ace ∈ a.aces, AppliesTo isContainer objectList ace →
      ∃ ace' ∈ inherited, InheritedEffective owner group ace ace'

-- equation lemmas made once, before the proofs below use them in parallel
attribute [local simp] Samba.Security.Descriptor.hasFlag.eq_1 mapGenericBit.eq_1
  mapGenericRightsDs.eq_1 descAceHasGeneric.eq_1 expandTrustee.eq_1 descExpandGeneric.eq_1
  expandedInheritedAce.eq_1 inheritedCopyAce.eq_1 calculateInheritedFromParent.eq_1
  inheritedAcl.eq_1 computeAcl.eq_1 createSecurityDescriptor.eq_1
attribute [-simp] Samba.Security.Descriptor.hasFlag.eq_1 mapGenericBit.eq_1 mapGenericRightsDs.eq_1
  descAceHasGeneric.eq_1 expandTrustee.eq_1 descExpandGeneric.eq_1 expandedInheritedAce.eq_1
  inheritedCopyAce.eq_1 calculateInheritedFromParent.eq_1 inheritedAcl.eq_1 computeAcl.eq_1
  createSecurityDescriptor.eq_1

theorem mapGenericBit_of_and_eq_zero {generic accessMask : UInt32}
    (h : accessMask &&& generic = 0) (specific : UInt32) :
    mapGenericBit generic specific accessMask = accessMask := by
  simp [mapGenericBit, h]

theorem mapGenericRightsDs_of_descAceHasGeneric {ace : SecurityAce}
    (h : descAceHasGeneric ace = false) : mapGenericRightsDs ace.accessMask = ace.accessMask := by
  simp only [descAceHasGeneric, Bool.or_eq_false_iff, bne_eq_false_iff_eq] at h
  obtain ⟨⟨⟨⟨⟨hall, hread⟩, hwrite⟩, hexec⟩, -⟩, -⟩ := h
  simp only [mapGenericRightsDs, mapGenericBit_of_and_eq_zero hall,
    mapGenericBit_of_and_eq_zero hexec, mapGenericBit_of_and_eq_zero hwrite,
    mapGenericBit_of_and_eq_zero hread]

theorem expandTrustee_of_descAceHasGeneric {ace : SecurityAce} (h : descAceHasGeneric ace = false)
    (owner group : DomSid) : expandTrustee owner group ace.trustee = ace.trustee := by
  simp only [descAceHasGeneric, Bool.or_eq_false_iff, beq_eq_false_iff_ne] at h
  simp [expandTrustee, h.1.2, h.2]

@[simp]
theorem downgradeObjectAceType_idem (t : AceType) :
    downgradeObjectAceType (downgradeObjectAceType t) = downgradeObjectAceType t := by
  cases t <;> rfl

theorem expandedInheritedAce_effective (owner group : DomSid) (inheritedObject inheritedProperty : Bool)
    (ace : SecurityAce) :
    InheritedEffective owner group ace
      (expandedInheritedAce owner group inheritedObject inheritedProperty ace) where
  inherited := by simp only [expandedInheritedAce, descExpandGeneric]; decide
  notInheritOnly := by simp only [expandedInheritedAce, descExpandGeneric]; decide
  type := by cases inheritedProperty <;> simp [expandedInheritedAce, descExpandGeneric]
  accessMask := rfl
  trustee := rfl

theorem inheritedCopyAce_effective {ace : SecurityAce} (hg : descAceHasGeneric ace = false)
    (hnp : hasFlag ace.flags secAceFlagNoPropagateInherit = false) (owner group : DomSid) :
    InheritedEffective owner group ace (inheritedCopyAce false ace) where
  inherited := by
    have hdisj : secAceFlagInheritedAce &&& secAceFlagInheritOnly = 0 := by decide
    simp only [inheritedCopyAce, hnp, Bool.false_eq_true, if_false]
    simp only [hasFlag, flag_or_and_not_of_disjoint hdisj]
    decide
  notInheritOnly := by
    simp only [inheritedCopyAce, hnp, Bool.false_eq_true, if_false]
    simp [hasFlag, flag_and_not_self]
  type := rfl
  accessMask := (mapGenericRightsDs_of_descAceHasGeneric hg).symm
  trustee := (expandTrustee_of_descAceHasGeneric hg owner group).symm

section InheritanceSpec

variable {isContainer : Bool} {owner group : DomSid} {objectList : Option (List Guid)}

theorem inheritAce_eq_none_iff (ace : SecurityAce) :
    inheritAce isContainer owner group objectList ace = none ↔
      (!(isContainer && hasFlag ace.flags secAceFlagContainerInherit ||
          !isContainer && hasFlag ace.flags secAceFlagObjectInherit) &&
        !hasFlag ace.flags secAceFlagObjectInherit) = false ∧
      inheritableAceType ace.type = false := by
  unfold inheritAce
  by_cases hskip : (!(isContainer && hasFlag ace.flags secAceFlagContainerInherit ||
      !isContainer && hasFlag ace.flags secAceFlagObjectInherit) &&
      !hasFlag ace.flags secAceFlagObjectInherit) = true
  · simp only [hskip, if_true]
    simp
  · cases htype : inheritableAceType ace.type
    · simp only [hskip, Bool.false_eq_true, if_false, Bool.not_false, if_true]
      simp
    · simp only [hskip, Bool.not_true, Bool.false_eq_true, if_false, reduceCtorEq, and_false,
        iff_false]
      split_ifs <;> simp

theorem inheritAce_effective {ace : SecurityAce} {new : List SecurityAce}
    (h : inheritAce isContainer owner group objectList ace = some new)
    (happ : AppliesTo isContainer objectList ace) :
    ∃ ace' ∈ new, InheritedEffective owner group ace ace' := by
  obtain ⟨hflag, hobj⟩ := happ
  have happlies : (isContainer && hasFlag ace.flags secAceFlagContainerInherit ||
      !isContainer && hasFlag ace.flags secAceFlagObjectInherit) = true := by
    cases isContainer <;> simpa using hflag
  have hlisted : (secAceObject ace.type &&
      ace.object.flags &&& secAceInheritedObjectTypePresent != 0 &&
      !objectInList objectList ace.object.inheritedType) = false := by
    cases hobject : secAceObject ace.type
    · rfl
    · by_cases hpresent : ace.object.flags &&& secAceInheritedObjectTypePresent = 0
      · simp [hpresent]
      · simp [hobj hobject hpresent]
  unfold inheritAce at h
  simp only [happlies, hlisted, Bool.not_true, Bool.not_false, Bool.false_and, Bool.and_true,
    Bool.false_eq_true, if_false, if_true] at h
  split_ifs at h with hsupp hnp hgen <;> cases h
  · exact ⟨_, List.mem_singleton_self _, expandedInheritedAce_effective _ _ _ _ _⟩
  · exact ⟨_, List.mem_cons_self, expandedInheritedAce_effective _ _ _ _ _⟩
  · refine ⟨_, List.mem_singleton_self _, inheritedCopyAce_effective ?_ ?_ owner group⟩
    · simpa using hgen
    · simpa using hnp

theorem inheritAce_ne_none {ace : SecurityAce} (h : inheritableAceType ace.type = true) :
    inheritAce isContainer owner group objectList ace ≠ none := by
  intro hnone
  have hunhandled := ((inheritAce_eq_none_iff ace).1 hnone).2
  rw [h] at hunhandled
  contradiction

theorem inheritAces_effective (aces : List SecurityAce)
    (hsupp : ∀ ace ∈ aces, inheritableAceType ace.type = true) :
    ∃ inherited, inheritAces isContainer owner group objectList aces = some inherited ∧
      ∀ ace ∈ aces, AppliesTo isContainer objectList ace →
        ∃ ace' ∈ inherited, InheritedEffective owner group ace ace' := by
  induction aces with
  | nil => exact ⟨[], rfl, by simp⟩
  | cons ace aces ih =>
    obtain ⟨rest, hrest, hmem⟩ := ih fun a ha ↦ hsupp a (List.mem_cons_of_mem _ ha)
    obtain ⟨new, hnew⟩ : ∃ new, inheritAce isContainer owner group objectList ace = some new :=
      Option.ne_none_iff_exists'.1 (inheritAce_ne_none (hsupp ace List.mem_cons_self))
    refine ⟨new ++ rest, by simp [inheritAces, hnew, hrest], ?_⟩
    intro a ha happ
    rcases List.mem_cons.1 ha with rfl | ha
    · obtain ⟨ace', hmem', heff⟩ := inheritAce_effective hnew happ
      exact ⟨ace', List.mem_append_left _ hmem', heff⟩
    · obtain ⟨ace', hmem', heff⟩ := hmem a ha happ
      exact ⟨ace', List.mem_append_right _ hmem', heff⟩

theorem inheritAces_eq_none {aces : List SecurityAce}
    (h : ∃ ace ∈ aces, inheritAce isContainer owner group objectList ace = none) :
    inheritAces isContainer owner group objectList aces = none := by
  induction aces with
  | nil => simp at h
  | cons ace aces ih =>
    obtain ⟨a, ha, hnone⟩ := h
    rcases List.mem_cons.1 ha with rfl | ha
    · simp [inheritAces, hnone]
    · cases hhead : inheritAce isContainer owner group objectList ace with
      | none => simp [inheritAces, hhead]
      | some new => simp [inheritAces, hhead, ih ⟨a, ha, hnone⟩]

theorem calculateInheritedFromParent_aces {acl : SecurityAcl} {inherited : List SecurityAce}
    (h : inheritAces isContainer owner group objectList acl.aces = some inherited) :
    ((calculateInheritedFromParent isContainer owner group objectList (some acl)).map
      (·.aces)).getD [] = inherited := by
  cases inherited with
  | nil => simp [calculateInheritedFromParent, h]
  | cons a as => simp [calculateInheritedFromParent, h]

end InheritanceSpec

@[simp]
theorem securityAclConcatenate_aces (acl1 acl2 : Option SecurityAcl) :
    ((securityAclConcatenate acl1 acl2).map (·.aces)).getD [] =
      (acl1.map (·.aces)).getD [] ++ (acl2.map (·.aces)).getD [] := by
  cases acl1 <;> cases acl2 <;> simp [securityAclConcatenate]

theorem inheritsAfter_inheritedAcl (parentAcl : SecurityDescriptor → Option SecurityAcl)
    (autoInherit : UInt32) (protectedFlag : UInt16) (parent : SecurityDescriptor)
    (creatorSd : Option SecurityDescriptor) (isContainer : Bool) (inheritFlags : UInt32)
    (owner group : DomSid) (objectList : Option (List Guid)) (user : Option SecurityAcl)
    (hauto : inheritFlags &&& autoInherit ≠ 0)
    (hprot : ∀ c, creatorSd = some c → c.type &&& protectedFlag = 0)
    (hinh : InheritableAcl (parentAcl parent)) :
    InheritsAfter isContainer objectList owner group (parentAcl parent) user
      (securityAclConcatenate user (inheritedAcl parentAcl autoInherit protectedFlag (some parent)
        creatorSd isContainer inheritFlags owner group objectList)) := by
  have hnotprot : creatorSd.any (·.type &&& protectedFlag != 0) = false := by
    cases creatorSd with
    | none => rfl
    | some c => simp [hprot c rfl]
  have hcalc : inheritedAcl parentAcl autoInherit protectedFlag (some parent) creatorSd isContainer
      inheritFlags owner group objectList =
      calculateInheritedFromParent isContainer owner group objectList (parentAcl parent) := by
    simp [inheritedAcl, hauto, hnotprot]
  rw [hcalc]
  cases hp : parentAcl parent with
  | none => exact ⟨[], by simp [calculateInheritedFromParent], by simp⟩
  | some a =>
    obtain ⟨inherited, hinhs, hmem⟩ := inheritAces_effective a.aces (hinh a hp)
    refine ⟨inherited, ?_, ?_⟩
    · rw [securityAclConcatenate_aces, calculateInheritedFromParent_aces hinhs]
    · rintro a' ha' ace hace happ
      cases ha'
      exact hmem ace hace happ

theorem createSecurityDescriptor_eq_some {parentSd creatorSd : Option SecurityDescriptor}
    {isContainer : Bool} {objectList : Option (List Guid)} {inheritFlags : UInt32}
    {token : SecurityToken} {defaultOwner defaultGroup : Option DomSid} {sd : SecurityDescriptor}
    (hsd : createSecurityDescriptor parentSd creatorSd isContainer objectList inheritFlags token
      defaultOwner defaultGroup = some sd) :
    ∃ owner group type,
      sd = computeAcl parentSd creatorSd isContainer inheritFlags objectList owner group type := by
  simp only [createSecurityDescriptor] at hsd
  split at hsd
  · cases hsd
    exact ⟨_, _, _, rfl⟩
  · cases hsd

theorem securityAclConcatenate_none (acl : Option SecurityAcl) :
    securityAclConcatenate acl none = acl := by
  cases acl <;> rfl

theorem createSecurityDescriptor_unhandledAce_drops_inherited (parent : SecurityDescriptor)
    (creatorSd : Option SecurityDescriptor) (isContainer : Bool) (objectList : Option (List Guid))
    (inheritFlags : UInt32) (token : SecurityToken) (defaultOwner defaultGroup : Option DomSid)
    (sd : SecurityDescriptor)
    (hsd : createSecurityDescriptor (some parent) creatorSd isContainer objectList inheritFlags token
      defaultOwner defaultGroup = some sd)
    (a : SecurityAcl) (hdacl : parent.dacl = some a) (ace : SecurityAce) (hace : ace ∈ a.aces)
    (hreach : (!(isContainer && hasFlag ace.flags secAceFlagContainerInherit ||
        !isContainer && hasFlag ace.flags secAceFlagObjectInherit) &&
      !hasFlag ace.flags secAceFlagObjectInherit) = false)
    (hunhandled : inheritableAceType ace.type = false) :
    ∃ owner group, sd.dacl = userAcl (·.dacl) secDescDaclProtected creatorSd inheritFlags owner group := by
  obtain ⟨owner, group, type, rfl⟩ := createSecurityDescriptor_eq_some hsd
  refine ⟨owner, group, ?_⟩
  have hloop : inheritAces isContainer owner group objectList a.aces = none :=
    inheritAces_eq_none ⟨ace, hace, (inheritAce_eq_none_iff ace).2 ⟨hreach, hunhandled⟩⟩
  have hinherited : inheritedAcl (·.dacl) secDaclAutoInherit secDescDaclProtected (some parent)
      creatorSd isContainer inheritFlags owner group objectList = none := by
    simp only [inheritedAcl]
    split_ifs
    · rfl
    · rfl
    · simp [hdacl, calculateInheritedFromParent, hloop]
  simp only [computeAcl, hinherited, securityAclConcatenate_none]

def denyWriteDacAce : SecurityAce :=
  ⟨.accessDenied, secAceFlagContainerInherit, secStdWriteDac, ⟨0, ⟨[]⟩, ⟨[]⟩⟩,
    AccessCheck.userSid, []⟩

def denyWriteDacParent : SecurityDescriptor :=
  ⟨secDescDaclPresent, some AccessCheck.userSid, some AccessCheck.userSid, none,
    some ⟨4, [denyWriteDacAce]⟩⟩

def sidSecurityMandatoryLow : DomSid := ⟨1, [0, 0, 0, 0, 0, 16], [4096]⟩

def lowLabelAce : SecurityAce :=
  ⟨.systemMandatoryLabel, secAceFlagContainerInherit, 1, ⟨0, ⟨[]⟩, ⟨[]⟩⟩,
    sidSecurityMandatoryLow, []⟩

def labelledParent : SecurityDescriptor :=
  ⟨secDescDaclPresent, some AccessCheck.userSid, some AccessCheck.userSid, none,
    some ⟨4, [denyWriteDacAce, lowLabelAce]⟩⟩

end Samba.Security.CreateDescriptor
