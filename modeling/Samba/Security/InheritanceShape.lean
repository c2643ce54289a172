import Samba.Security.CreateDescriptor

namespace Samba.Security.InheritanceShape

open Samba.Lib.Mask Samba.Security.Descriptor Samba.Security.CreateDescriptor

section Flags

variable {f g b : UInt8}

@[simp]
theorem hasFlag_zero (b : UInt8) : hasFlag 0 b = false := by
  simp [hasFlag]

theorem hasFlag_or_self (hb : b ≠ 0) (f : UInt8) : hasFlag (f ||| b) b = true := by
  simp [hasFlag, flag_or_and_self, hb]

theorem hasFlag_or_of_disjoint (h : g &&& b = 0) (f : UInt8) :
    hasFlag (f ||| g) b = hasFlag f b := by
  simp only [hasFlag, flag_or_and_of_disjoint h]

theorem hasFlag_and_not_self (f b : UInt8) : hasFlag (f &&& ~~~b) b = false := by
  simp [hasFlag, flag_and_not_self]

theorem hasFlag_and_not_of_disjoint (h : g &&& b = 0) (f : UInt8) :
    hasFlag (f &&& ~~~g) b = hasFlag f b := by
  simp only [hasFlag, flag_and_not_and_of_disjoint h]

end Flags

def NotCreatorSid (sid : DomSid) : Prop :=
  sid ≠ globalSidCreatorOwner ∧ sid ≠ globalSidCreatorGroup

instance (sid : DomSid) : Decidable (NotCreatorSid sid) :=
  inferInstanceAs (Decidable (_ ∧ _))

theorem mapGenericBit_and_self (generic specific accessMask : UInt32) :
    mapGenericBit generic specific accessMask &&& generic = 0 := by
  unfold mapGenericBit
  split_ifs with h
  · rw [UInt32.and_assoc, UInt32.and_comm (~~~generic), UInt32.and_not_self, UInt32.and_zero]
  · exact not_not.1 h

theorem mapGenericBit_and_of_and {generic specific accessMask other : UInt32}
    (hs : specific &&& other = 0) (hm : accessMask &&& other = 0) :
    mapGenericBit generic specific accessMask &&& other = 0 := by
  unfold mapGenericBit
  split_ifs
  · have hor : (accessMask ||| specific) &&& other = 0 := by
      by_contra hne
      rcases (or_and_ne_zero_iff _ _ _).1 hne with h | h
      · exact h hm
      · exact h hs
    exact and_eq_zero_of_and_not hor generic
  · exact hm

theorem mapGenericRightsDs_generic (accessMask : UInt32) :
    mapGenericRightsDs accessMask &&& secGenericAll = 0 ∧
      mapGenericRightsDs accessMask &&& secGenericRead = 0 ∧
      mapGenericRightsDs accessMask &&& secGenericWrite = 0 ∧
      mapGenericRightsDs accessMask &&& secGenericExecute = 0 := by
  simp only [mapGenericRightsDs]
  refine ⟨?_, mapGenericBit_and_self _ _ _, ?_, ?_⟩
  · refine mapGenericBit_and_of_and (by decide) (mapGenericBit_and_of_and (by decide)
      (mapGenericBit_and_of_and (by decide) (mapGenericBit_and_self _ _ _)))
  · exact mapGenericBit_and_of_and (by decide) (mapGenericBit_and_self _ _ _)
  · exact mapGenericBit_and_of_and (by decide) (mapGenericBit_and_of_and (by decide)
      (mapGenericBit_and_self _ _ _))

section Expand

variable {owner group : DomSid}

theorem notCreatorSid_expandTrustee (hown : NotCreatorSid owner) (hgrp : NotCreatorSid group)
    (trustee : DomSid) : NotCreatorSid (expandTrustee owner group trustee) := by
  unfold expandTrustee
  dsimp only
  by_cases hco : trustee = globalSidCreatorOwner
  · rw [if_pos hco, if_neg hown.2]
    exact hown
  · rw [if_neg hco]
    split_ifs with hcg
    · exact hgrp
    · exact ⟨hco, hcg⟩

theorem descAceHasGeneric_eq_false {ace : SecurityAce}
    (hmask : ace.accessMask &&& secGenericAll = 0 ∧ ace.accessMask &&& secGenericRead = 0 ∧
      ace.accessMask &&& secGenericWrite = 0 ∧ ace.accessMask &&& secGenericExecute = 0)
    (htrustee : NotCreatorSid ace.trustee) : descAceHasGeneric ace = false := by
  obtain ⟨hall, hread, hwrite, hexec⟩ := hmask
  simp [descAceHasGeneric, hall, hread, hwrite, hexec, htrustee.1, htrustee.2]

theorem descAceHasGeneric_descExpandGeneric (hown : NotCreatorSid owner)
    (hgrp : NotCreatorSid group) (ace : SecurityAce) :
    descAceHasGeneric (descExpandGeneric owner group ace) = false :=
  descAceHasGeneric_eq_false (mapGenericRightsDs_generic ace.accessMask)
    (notCreatorSid_expandTrustee hown hgrp ace.trustee)

theorem descAceHasGeneric_expandedInheritedAce (hown : NotCreatorSid owner)
    (hgrp : NotCreatorSid group) (inheritedObject inheritedProperty : Bool) (ace : SecurityAce) :
    descAceHasGeneric (expandedInheritedAce owner group inheritedObject inheritedProperty ace) =
      false :=
  descAceHasGeneric_eq_false (mapGenericRightsDs_generic ace.accessMask)
    (notCreatorSid_expandTrustee hown hgrp ace.trustee)

end Expand

structure AceWellFormed (inherited : Bool) (ace : SecurityAce) : Prop where
  inheritedAce : hasFlag ace.flags secAceFlagInheritedAce = inherited
  effective : hasFlag ace.flags secAceFlagInheritOnly = false → descAceHasGeneric ace = false
  inheritOnly : hasFlag ace.flags secAceFlagInheritOnly = true →
    hasFlag ace.flags secAceFlagContainerInherit = true ∨
      hasFlag ace.flags secAceFlagObjectInherit = true

section UserAce

variable {owner group : DomSid}

theorem aceWellFormed_descExpandGeneric (hown : NotCreatorSid owner) (hgrp : NotCreatorSid group)
    (ace : SecurityAce) : AceWellFormed false (descExpandGeneric owner group ace) where
  inheritedAce := hasFlag_zero _
  effective _ := descAceHasGeneric_descExpandGeneric hown hgrp ace
  inheritOnly h := absurd h (by simp [descExpandGeneric])

-- equation lemmas made once, before the proofs below use them in parallel
attribute [local simp] Samba.Security.CreateDescriptor.processUserAce.eq_1
  Samba.Security.CreateDescriptor.processUserAcl.eq_1 Samba.Security.CreateDescriptor.userAcl.eq_1
  Samba.Security.CreateDescriptor.newOwnerSid.eq_1 Samba.Security.CreateDescriptor.newGroupSid.eq_1
attribute [-simp] Samba.Security.CreateDescriptor.processUserAce.eq_1
  Samba.Security.CreateDescriptor.processUserAcl.eq_1 Samba.Security.CreateDescriptor.userAcl.eq_1
  Samba.Security.CreateDescriptor.newOwnerSid.eq_1 Samba.Security.CreateDescriptor.newGroupSid.eq_1

theorem processUserAce_of_inherited {ace : SecurityAce}
    (h : hasFlag ace.flags secAceFlagInheritedAce = true) :
    processUserAce owner group true ace =
      processUserAce owner group true
        { ace with flags := ace.flags &&& ~~~secAceFlagInheritedAce } := by
  conv_lhs => unfold processUserAce
  conv_rhs => unfold processUserAce
  simp only [h, hasFlag_and_not_self, Bool.not_true, Bool.and_false, Bool.false_eq_true,
    if_false, if_true]

theorem processUserAce_inherited_of_not_protected {ace : SecurityAce}
    (h : hasFlag ace.flags secAceFlagInheritedAce = true) :
    processUserAce owner group false ace = [] := by
  simp [processUserAce, h]

theorem aceWellFormed_processUserAce_of_not_inherited (hown : NotCreatorSid owner)
    (hgrp : NotCreatorSid group) {isProtected : Bool} {ace ace' : SecurityAce}
    (hinh : hasFlag ace.flags secAceFlagInheritedAce = false)
    (h : ace' ∈ processUserAce owner group isProtected ace) : AceWellFormed false ace' := by
  unfold processUserAce at h
  simp only [hinh, Bool.false_and, Bool.false_eq_true, if_false] at h
  split_ifs at h with hdrop hkeep hci
  · simp at h
  · rw [List.mem_singleton] at h
    subst h
    refine ⟨hinh, fun hio ↦ ?_, fun hio ↦ ?_⟩
    · simpa [hio] using hkeep
    · cases hci : hasFlag ace'.flags secAceFlagContainerInherit
      · simpa [hio, hci] using hdrop
      · exact Or.inl rfl
  · rw [List.mem_singleton] at h
    subst h
    exact aceWellFormed_descExpandGeneric hown hgrp ace
  · rcases List.mem_cons.1 h with rfl | h
    · refine ⟨?_, fun hio ↦ ?_, fun _ ↦ Or.inl ?_⟩
      · simp (disch := decide) only [hasFlag_or_of_disjoint, hinh]
      · simp (disch := decide) only [hasFlag_or_self, Bool.true_eq_false] at hio
      · simp (disch := decide) only [hasFlag_or_of_disjoint]
        simpa using hci
    · rw [List.mem_singleton] at h
      subst h
      exact aceWellFormed_descExpandGeneric hown hgrp ace

theorem aceWellFormed_processUserAce (hown : NotCreatorSid owner) (hgrp : NotCreatorSid group)
    {isProtected : Bool} {ace ace' : SecurityAce}
    (h : ace' ∈ processUserAce owner group isProtected ace) : AceWellFormed false ace' := by
  cases hinh : hasFlag ace.flags secAceFlagInheritedAce
  · exact aceWellFormed_processUserAce_of_not_inherited hown hgrp hinh h
  · cases isProtected
    · rw [processUserAce_inherited_of_not_protected hinh] at h
      simp at h
    · rw [processUserAce_of_inherited hinh] at h
      exact aceWellFormed_processUserAce_of_not_inherited hown hgrp
        (hasFlag_and_not_self _ _) h

theorem processUserAce_of_aceWellFormed {ace : SecurityAce} (h : AceWellFormed false ace)
    (isProtected : Bool) : processUserAce owner group isProtected ace = [ace] := by
  unfold processUserAce
  simp only [h.inheritedAce, Bool.false_and, Bool.false_eq_true, if_false]
  cases hio : hasFlag ace.flags secAceFlagInheritOnly
  · simp [h.effective hio]
  · have hinheritable := h.inheritOnly hio
    simp only [Bool.true_and, Bool.true_or, if_true, ite_eq_right_iff, Bool.not_eq_eq_eq_not,
      Bool.not_true, Bool.or_eq_false_iff]
    rintro ⟨hci, hoi⟩
    rcases hinheritable with h | h <;> simp_all

end UserAce

section ParentAce

variable {isContainer : Bool} {owner group : DomSid} {objectList : Option (List Guid)}

theorem appliesTo_iff (ace : SecurityAce) :
    AppliesTo isContainer objectList ace ↔
      ((isContainer && hasFlag ace.flags secAceFlagContainerInherit ||
          !isContainer && hasFlag ace.flags secAceFlagObjectInherit) &&
        !(secAceObject ace.type && ace.object.flags &&& secAceInheritedObjectTypePresent != 0 &&
          !objectInList objectList ace.object.inheritedType)) = true := by
  unfold AppliesTo
  by_cases hpresent : ace.object.flags &&& secAceInheritedObjectTypePresent = 0 <;>
    cases isContainer <;> cases secAceObject ace.type <;> simp [hpresent]

theorem inheritable_of_not_skipped {ace : SecurityAce}
    (h : ¬(!(isContainer && hasFlag ace.flags secAceFlagContainerInherit ||
        !isContainer && hasFlag ace.flags secAceFlagObjectInherit) &&
      !hasFlag ace.flags secAceFlagObjectInherit) = true) :
    hasFlag ace.flags secAceFlagContainerInherit = true ∨
      hasFlag ace.flags secAceFlagObjectInherit = true := by
  cases hci : hasFlag ace.flags secAceFlagContainerInherit <;>
    cases hoi : hasFlag ace.flags secAceFlagObjectInherit <;> simp_all

theorem aceWellFormed_expandedInheritedAce (hown : NotCreatorSid owner)
    (hgrp : NotCreatorSid group) (inheritedObject inheritedProperty : Bool) (ace : SecurityAce) :
    AceWellFormed true (expandedInheritedAce owner group inheritedObject inheritedProperty ace) where
  inheritedAce := by
    simp (disch := decide) only [expandedInheritedAce, descExpandGeneric,
      hasFlag_and_not_of_disjoint, hasFlag_or_self]
  effective _ := descAceHasGeneric_expandedInheritedAce hown hgrp _ _ ace
  inheritOnly h := by
    simp (disch := decide) only [expandedInheritedAce, descExpandGeneric,
      hasFlag_and_not_of_disjoint, hasFlag_or_of_disjoint, hasFlag_zero] at h
    contradiction

section Copy

variable {ace : SecurityAce} (hnp : hasFlag ace.flags secAceFlagNoPropagateInherit = false)
include hnp

theorem inheritedCopyAce_inheritOnly (inheritedOnly : Bool) :
    hasFlag (inheritedCopyAce inheritedOnly ace).flags secAceFlagInheritOnly = inheritedOnly := by
  cases inheritedOnly with
  | false =>
    simp only [inheritedCopyAce, hnp, Bool.false_eq_true, if_false, hasFlag_and_not_self]
  | true =>
    simp (disch := decide) only [inheritedCopyAce, hnp, Bool.false_eq_true, if_false, if_true,
      hasFlag_or_self]

theorem aceWellFormed_inheritedCopyAce {inheritedOnly : Bool}
    (hgen : inheritedOnly = false → descAceHasGeneric ace = false)
    (hinheritable : inheritedOnly = true → hasFlag ace.flags secAceFlagContainerInherit = true ∨
      hasFlag ace.flags secAceFlagObjectInherit = true) :
    AceWellFormed true (inheritedCopyAce inheritedOnly ace) := by
  have hio := inheritedCopyAce_inheritOnly hnp inheritedOnly
  cases inheritedOnly with
  | false =>
    refine ⟨?_, fun _ ↦ hgen rfl, fun hio' ↦ absurd (hio.symm.trans hio') (by decide)⟩
    simp (disch := decide) only [inheritedCopyAce, hnp, Bool.false_eq_true, if_false,
      hasFlag_and_not_of_disjoint, hasFlag_or_self]
  | true =>
    refine ⟨?_, fun hio' ↦ absurd (hio.symm.trans hio') (by decide), fun _ ↦ ?_⟩
    · simp (disch := decide) only [inheritedCopyAce, hnp, Bool.false_eq_true, if_false, if_true,
        hasFlag_or_of_disjoint, hasFlag_or_self]
    · simp (disch := decide) only [inheritedCopyAce, hnp, Bool.false_eq_true, if_false, if_true,
        hasFlag_or_of_disjoint]
      exact hinheritable rfl

end Copy

theorem aceWellFormed_inheritAce (hown : NotCreatorSid owner) (hgrp : NotCreatorSid group)
    {ace : SecurityAce} {new : List SecurityAce}
    (h : inheritAce isContainer owner group objectList ace = some new)
    {ace' : SecurityAce} (hmem : ace' ∈ new) :
    AceWellFormed true ace' ∧
      (hasFlag ace'.flags secAceFlagInheritOnly = false → AppliesTo isContainer objectList ace) := by
  unfold inheritAce at h
  dsimp only at h
  split_ifs at h with hskip hunsupp hnp happ happ' hgen <;> cases h
  · simp at hmem
  · rw [List.mem_singleton] at hmem
    subst hmem
    exact ⟨aceWellFormed_expandedInheritedAce hown hgrp _ _ ace,
      fun _ ↦ (appliesTo_iff ace).2 happ⟩
  · simp at hmem
  all_goals
    have hnp' : hasFlag ace.flags secAceFlagNoPropagateInherit = false := by simpa using hnp
  · rcases List.mem_cons.1 hmem with rfl | hmem
    · exact ⟨aceWellFormed_expandedInheritedAce hown hgrp _ _ ace,
        fun _ ↦ (appliesTo_iff ace).2 happ'⟩
    · rw [List.mem_singleton] at hmem
      subst hmem
      refine ⟨aceWellFormed_inheritedCopyAce hnp' (by simp)
        (fun _ ↦ inheritable_of_not_skipped hskip), fun hio ↦ ?_⟩
      rw [inheritedCopyAce_inheritOnly hnp'] at hio
      contradiction
  · rw [List.mem_singleton] at hmem
    subst hmem
    exact ⟨aceWellFormed_inheritedCopyAce hnp' (fun _ ↦ by simpa using hgen) (by simp),
      fun _ ↦ (appliesTo_iff ace).2 happ'⟩
  · rw [List.mem_singleton] at hmem
    subst hmem
    refine ⟨aceWellFormed_inheritedCopyAce hnp' (by simp)
      (fun _ ↦ inheritable_of_not_skipped hskip), fun hio ↦ ?_⟩
    rw [inheritedCopyAce_inheritOnly hnp'] at hio
    contradiction

end ParentAce

def InheritedFrom (isContainer : Bool) (objectList : Option (List Guid)) (owner group : DomSid)
    (parentAcl : Option SecurityAcl) (ace' : SecurityAce) : Prop :=
  ∃ a, parentAcl = some a ∧ ∃ ace ∈ a.aces, ∃ new,
    inheritAce isContainer owner group objectList ace = some new ∧ ace' ∈ new ∧
      (hasFlag ace'.flags secAceFlagInheritOnly = false → AppliesTo isContainer objectList ace)

def WellFormedAcl (isContainer : Bool) (objectList : Option (List Guid)) (owner group : DomSid)
    (parentAcl acl : Option SecurityAcl) : Prop :=
  ∃ user inherited, (acl.map (·.aces)).getD [] = user ++ inherited ∧
    (∀ ace ∈ user, AceWellFormed false ace) ∧
    ∀ ace ∈ inherited, AceWellFormed true ace ∧
      InheritedFrom isContainer objectList owner group parentAcl ace

section Acl

variable {isContainer : Bool} {owner group : DomSid} {objectList : Option (List Guid)}

theorem inheritAces_cons_eq_some {ace : SecurityAce} {aces inherited : List SecurityAce}
    (h : inheritAces isContainer owner group objectList (ace :: aces) = some inherited) :
    ∃ new rest, inheritAce isContainer owner group objectList ace = some new ∧
      inheritAces isContainer owner group objectList aces = some rest ∧ inherited = new ++ rest := by
  simp only [inheritAces, Option.bind_eq_bind, Option.bind_eq_some_iff, Option.pure_def,
    Option.some.injEq] at h
  obtain ⟨new, hnew, rest, hrest, rfl⟩ := h
  exact ⟨new, rest, hnew, hrest, rfl⟩

theorem aceWellFormed_inheritAces (hown : NotCreatorSid owner) (hgrp : NotCreatorSid group)
    {aces inherited : List SecurityAce}
    (h : inheritAces isContainer owner group objectList aces = some inherited)
    {ace' : SecurityAce} (hmem : ace' ∈ inherited) :
    AceWellFormed true ace' ∧ ∃ ace ∈ aces, ∃ new,
      inheritAce isContainer owner group objectList ace = some new ∧ ace' ∈ new ∧
        (hasFlag ace'.flags secAceFlagInheritOnly = false → AppliesTo isContainer objectList ace) := by
  induction aces generalizing inherited with
  | nil =>
    simp only [inheritAces, Option.some.injEq] at h
    subst h
    simp at hmem
  | cons ace aces ih =>
    obtain ⟨new, rest, hnew, hrest, rfl⟩ := inheritAces_cons_eq_some h
    rcases List.mem_append.1 hmem with hmem | hmem
    · obtain ⟨hwf, happ⟩ := aceWellFormed_inheritAce hown hgrp hnew hmem
      exact ⟨hwf, ace, List.mem_cons_self, new, hnew, hmem, happ⟩
    · obtain ⟨hwf, a, ha, n, hn, hm, happ⟩ := ih hrest hmem
      exact ⟨hwf, a, List.mem_cons_of_mem _ ha, n, hn, hm, happ⟩

theorem calculateInheritedFromParent_eq_some {acl : Option SecurityAcl} {a : SecurityAcl}
    (h : calculateInheritedFromParent isContainer owner group objectList acl = some a) :
    ∃ p, acl = some p ∧ inheritAces isContainer owner group objectList p.aces = some a.aces := by
  unfold calculateInheritedFromParent at h
  split at h
  · cases h
  · rename_i p
    split at h
    · cases h
    · cases h
    · cases h
      exact ⟨p, rfl, by assumption⟩

theorem aceWellFormed_inheritedAcl (hown : NotCreatorSid owner) (hgrp : NotCreatorSid group)
    (parentAcl : SecurityDescriptor → Option SecurityAcl) (autoInherit : UInt32)
    (protectedFlag : UInt16) (parentSd creatorSd : Option SecurityDescriptor)
    (inheritFlags : UInt32) {a : SecurityAcl}
    (h : inheritedAcl parentAcl autoInherit protectedFlag parentSd creatorSd isContainer
      inheritFlags owner group objectList = some a) :
    ∀ ace ∈ a.aces, AceWellFormed true ace ∧
      InheritedFrom isContainer objectList owner group (parentSd.bind parentAcl) ace := by
  intro ace hace
  cases parentSd with
  | none => cases h
  | some parent =>
    simp only [inheritedAcl] at h
    split_ifs at h
    obtain ⟨p, hp, hloop⟩ := calculateInheritedFromParent_eq_some h
    obtain ⟨hwf, hfrom⟩ := aceWellFormed_inheritAces hown hgrp hloop hace
    exact ⟨hwf, p, hp, hfrom⟩

theorem aceWellFormed_userAcl (hown : NotCreatorSid owner) (hgrp : NotCreatorSid group)
    (creatorAcl : SecurityDescriptor → Option SecurityAcl) (protectedFlag : UInt16)
    (creatorSd : Option SecurityDescriptor) (inheritFlags : UInt32) {a : SecurityAcl}
    (h : userAcl creatorAcl protectedFlag creatorSd inheritFlags owner group = some a) :
    ∀ ace ∈ a.aces, AceWellFormed false ace := by
  intro ace hace
  cases creatorSd with
  | none => cases h
  | some creator =>
    simp only [userAcl] at h
    split_ifs at h
    simp only [processUserAcl, Option.map_eq_some_iff] at h
    obtain ⟨acl, -, rfl⟩ := h
    obtain ⟨creatorAce, -, hmem⟩ := List.mem_flatMap.1 hace
    exact aceWellFormed_processUserAce hown hgrp hmem

theorem wellFormedAcl_securityAclConcatenate {parentAcl user inherited : Option SecurityAcl}
    (huser : ∀ a, user = some a → ∀ ace ∈ a.aces, AceWellFormed false ace)
    (hinherited : ∀ a, inherited = some a → ∀ ace ∈ a.aces, AceWellFormed true ace ∧
      InheritedFrom isContainer objectList owner group parentAcl ace) :
    WellFormedAcl isContainer objectList owner group parentAcl
      (securityAclConcatenate user inherited) := by
  refine ⟨_, _, securityAclConcatenate_aces user inherited, ?_, ?_⟩
  · cases user with
    | none => simp
    | some u => exact huser u rfl
  · cases inherited with
    | none => simp
    | some i => exact hinherited i rfl

end Acl

theorem createSecurityDescriptor_wellFormed (parentSd creatorSd : Option SecurityDescriptor)
    (isContainer : Bool) (objectList : Option (List Guid)) (inheritFlags : UInt32)
    (token : SecurityToken) (defaultOwner defaultGroup : Option DomSid) (sd : SecurityDescriptor)
    (hsd : createSecurityDescriptor parentSd creatorSd isContainer objectList inheritFlags token
      defaultOwner defaultGroup = some sd)
    (owner group : DomSid) (howner : sd.ownerSid = some owner) (hgroup : sd.groupSid = some group)
    (hown : NotCreatorSid owner) (hgrp : NotCreatorSid group) :
    WellFormedAcl isContainer objectList owner group (parentSd.bind (·.dacl)) sd.dacl ∧
      WellFormedAcl isContainer objectList owner group (parentSd.bind (·.sacl)) sd.sacl := by
  obtain ⟨owner', group', type, rfl⟩ := createSecurityDescriptor_eq_some hsd
  obtain rfl : owner' = owner := Option.some.inj howner
  obtain rfl : group' = group := Option.some.inj hgroup
  constructor
  · exact wellFormedAcl_securityAclConcatenate
      (fun _ ↦ aceWellFormed_userAcl hown hgrp _ _ creatorSd inheritFlags)
      (fun _ ↦ aceWellFormed_inheritedAcl hown hgrp _ _ _ parentSd creatorSd inheritFlags)
  · exact wellFormedAcl_securityAclConcatenate
      (fun _ ↦ aceWellFormed_userAcl hown hgrp _ _ creatorSd inheritFlags)
      (fun _ ↦ aceWellFormed_inheritedAcl hown hgrp _ _ _ parentSd creatorSd inheritFlags)

theorem createSecurityDescriptor_wellFormed_denyWriteDac :
    ∃ sd, createSecurityDescriptor (some denyWriteDacParent) none true none secDaclAutoInherit
        AccessCheck.userToken none none = some sd ∧
      WellFormedAcl true none AccessCheck.userSid AccessCheck.userSid
          ((some denyWriteDacParent).bind (·.dacl)) sd.dacl ∧
        WellFormedAcl true none AccessCheck.userSid AccessCheck.userSid
          ((some denyWriteDacParent).bind (·.sacl)) sd.sacl :=
  ⟨_, rfl, createSecurityDescriptor_wellFormed (some denyWriteDacParent) none true none
    secDaclAutoInherit AccessCheck.userToken none none _ rfl AccessCheck.userSid
    AccessCheck.userSid rfl rfl (by decide) (by decide)⟩

theorem newOwnerSid_snd (parentSd creatorSd : Option SecurityDescriptor) (inheritFlags : UInt32)
    (token : SecurityToken) (defaultOwner : Option DomSid) :
    (newOwnerSid parentSd creatorSd inheritFlags token defaultOwner).2 = 0 ∨
      (newOwnerSid parentSd creatorSd inheritFlags token defaultOwner).2 = secDescOwnerDefaulted := by
  unfold newOwnerSid
  split
  · exact Or.inl rfl
  · split_ifs
    · exact Or.inl rfl
    · split
      · exact Or.inl rfl
      · exact Or.inr rfl

theorem newGroupSid_snd (parentSd creatorSd : Option SecurityDescriptor) (inheritFlags : UInt32)
    (token : SecurityToken) (defaultGroup : Option DomSid) :
    (newGroupSid parentSd creatorSd inheritFlags token defaultGroup).2 = 0 ∨
      (newGroupSid parentSd creatorSd inheritFlags token defaultGroup).2 = secDescGroupDefaulted := by
  unfold newGroupSid
  split
  · exact Or.inl rfl
  · split_ifs
    · exact Or.inl rfl
    · split <;> simp
    · split <;> simp

theorem createSecurityDescriptor_eq_computeAcl {parentSd creatorSd : Option SecurityDescriptor}
    {isContainer : Bool} {objectList : Option (List Guid)} {inheritFlags : UInt32}
    {token : SecurityToken} {defaultOwner defaultGroup : Option DomSid} {sd : SecurityDescriptor}
    (hsd : createSecurityDescriptor parentSd creatorSd isContainer objectList inheritFlags token
      defaultOwner defaultGroup = some sd) :
    ∃ owner group type, secDescSelfRelative ||| type = type ∧
      type &&& secDescDaclProtected = 0 ∧ type &&& secDescSaclProtected = 0 ∧
      sd = computeAcl parentSd creatorSd isContainer inheritFlags objectList owner group type := by
  simp only [createSecurityDescriptor] at hsd
  split at hsd
  · cases hsd
    refine ⟨_, _, _, ?_, ?_, ?_, rfl⟩ <;>
      rcases newOwnerSid_snd parentSd creatorSd inheritFlags token defaultOwner with ho | ho <;>
      rcases newGroupSid_snd parentSd creatorSd inheritFlags token defaultGroup with hg | hg <;>
      rw [ho, hg] <;> decide
  · cases hsd

section Recompute

variable {parentSd creatorSd : Option SecurityDescriptor} {isContainer : Bool}
  {inheritFlags : UInt32} {objectList : Option (List Guid)} {owner group : DomSid}

theorem computeAcl_type_and {type protectedFlag : UInt16} (htype : type &&& protectedFlag = 0)
    (hprotected : protectedFlag = secDescDaclProtected ∨ protectedFlag = secDescSaclProtected) :
    (computeAcl parentSd creatorSd isContainer inheritFlags objectList owner group type).type &&&
        protectedFlag = (creatorSd.map (·.type)).getD 0 &&& protectedFlag := by
  have hbits : secDescDaclPresent &&& protectedFlag = 0 ∧
      secDescDaclAutoInherited &&& protectedFlag = 0 ∧ secDescSaclPresent &&& protectedFlag = 0 ∧
      secDescSaclAutoInherited &&& protectedFlag = 0 := by
    rcases hprotected with rfl | rfl <;> decide
  obtain ⟨hdp, hdi, hsp, hsi⟩ := hbits
  simp only [computeAcl]
  apply or_and_of_and_eq_zero
  apply and_or_and_eq_zero _ (ite_and_eq_zero hsi _)
  apply and_or_and_eq_zero _ (ite_and_eq_zero hsp _)
  apply and_or_and_eq_zero _ (ite_and_eq_zero hdi _)
  exact and_or_and_eq_zero htype (ite_and_eq_zero hdp _)

variable (parentAcl : SecurityDescriptor → Option SecurityAcl) (autoInherit : UInt32)
  (protectedFlag : UInt16)

theorem inheritedAcl_of_protected_eq {creatorSd' : Option SecurityDescriptor}
    (h : creatorSd.any (·.type &&& protectedFlag != 0) =
      creatorSd'.any (·.type &&& protectedFlag != 0)) :
    inheritedAcl parentAcl autoInherit protectedFlag parentSd creatorSd isContainer inheritFlags
        owner group objectList =
      inheritedAcl parentAcl autoInherit protectedFlag parentSd creatorSd' isContainer
        inheritFlags owner group objectList := by
  simp only [inheritedAcl, h]

theorem not_protected_of_inheritedAcl {a : SecurityAcl}
    (h : inheritedAcl parentAcl autoInherit protectedFlag parentSd creatorSd isContainer
      inheritFlags owner group objectList = some a) :
    creatorSd.any (·.type &&& protectedFlag != 0) = false := by
  cases parentSd with
  | none => cases h
  | some parent =>
    simp only [inheritedAcl] at h
    split_ifs at h with hauto hprotected
    simpa using hprotected

end Recompute

section UserAcl

variable {owner group : DomSid}

theorem flatMap_processUserAce_of_aceWellFormed {aces : List SecurityAce}
    (h : ∀ ace ∈ aces, AceWellFormed false ace) (isProtected : Bool) :
    aces.flatMap (processUserAce owner group isProtected) = aces := by
  induction aces with
  | nil => rfl
  | cons ace aces ih =>
    rw [List.flatMap_cons, processUserAce_of_aceWellFormed (h ace List.mem_cons_self),
      ih fun a ha ↦ h a (List.mem_cons_of_mem _ ha)]
    rfl

theorem flatMap_processUserAce_of_inherited {aces : List SecurityAce}
    (h : ∀ ace ∈ aces, hasFlag ace.flags secAceFlagInheritedAce = true) :
    aces.flatMap (processUserAce owner group false) = [] := by
  rw [List.flatMap_eq_nil_iff]
  intro ace hace
  exact processUserAce_inherited_of_not_protected (h ace hace)

theorem processUserAcl_securityAclConcatenate {user inherited : Option SecurityAcl}
    {isProtected : Bool}
    (huser : ∀ a, user = some a → ∀ ace ∈ a.aces, AceWellFormed false ace)
    (hinherited : ∀ a, inherited = some a → ∀ ace ∈ a.aces,
      hasFlag ace.flags secAceFlagInheritedAce = true)
    (hprotected : inherited.isSome → isProtected = false) :
    securityAclConcatenate
        (processUserAcl owner group (securityAclConcatenate user inherited) isProtected) inherited =
      securityAclConcatenate user inherited := by
  cases inherited with
  | none =>
    cases user with
    | none => rfl
    | some u =>
      simp only [securityAclConcatenate, processUserAcl, Option.map_some,
        flatMap_processUserAce_of_aceWellFormed (huser u rfl)]
  | some i =>
    obtain rfl : isProtected = false := hprotected rfl
    cases user with
    | none =>
      simp only [securityAclConcatenate, processUserAcl, Option.map_some,
        flatMap_processUserAce_of_inherited (hinherited i rfl), List.nil_append]
    | some u =>
      simp only [securityAclConcatenate, processUserAcl, Option.map_some, List.flatMap_append,
        flatMap_processUserAce_of_aceWellFormed (huser u rfl),
        flatMap_processUserAce_of_inherited (hinherited i rfl), List.append_nil]

end UserAcl

section Recompute

variable {parentSd creatorSd : Option SecurityDescriptor} {isContainer : Bool}
  {inheritFlags : UInt32} {objectList : Option (List Guid)} {owner group : DomSid}
  (hown : NotCreatorSid owner) (hgrp : NotCreatorSid group)
  (hdefault : inheritFlags &&& secDefaultDescriptor = 0)
include hown hgrp hdefault

theorem recomputeAcl (creatorAcl parentAcl : SecurityDescriptor → Option SecurityAcl)
    (autoInherit : UInt32) (protectedFlag : UInt16) (sd : SecurityDescriptor)
    (hprotected : sd.type &&& protectedFlag = (creatorSd.map (·.type)).getD 0 &&& protectedFlag)
    (hacl : creatorAcl sd = securityAclConcatenate
      (userAcl creatorAcl protectedFlag creatorSd inheritFlags owner group)
      (inheritedAcl parentAcl autoInherit protectedFlag parentSd creatorSd isContainer
        inheritFlags owner group objectList)) :
    inheritedAcl parentAcl autoInherit protectedFlag parentSd (some sd) isContainer inheritFlags
        owner group objectList =
      inheritedAcl parentAcl autoInherit protectedFlag parentSd creatorSd isContainer
        inheritFlags owner group objectList ∧
    securityAclConcatenate (userAcl creatorAcl protectedFlag (some sd) inheritFlags owner group)
        (inheritedAcl parentAcl autoInherit protectedFlag parentSd (some sd) isContainer
          inheritFlags owner group objectList) = creatorAcl sd := by
  have hany : (some sd).any (·.type &&& protectedFlag != 0) =
      creatorSd.any (·.type &&& protectedFlag != 0) := by
    cases creatorSd <;> simp_all
  have hinherited : inheritedAcl parentAcl autoInherit protectedFlag parentSd (some sd)
      isContainer inheritFlags owner group objectList =
      inheritedAcl parentAcl autoInherit protectedFlag parentSd creatorSd isContainer
        inheritFlags owner group objectList :=
    inheritedAcl_of_protected_eq parentAcl autoInherit protectedFlag hany
  have huser : userAcl creatorAcl protectedFlag (some sd) inheritFlags owner group =
      processUserAcl owner group (creatorAcl sd) (creatorSd.any (·.type &&& protectedFlag != 0)) := by
    simp [userAcl, hdefault, ← hany]
  refine ⟨hinherited, ?_⟩
  rw [hinherited, huser, hacl]
  apply processUserAcl_securityAclConcatenate
  · exact fun _ ↦ aceWellFormed_userAcl hown hgrp _ _ creatorSd inheritFlags
  · intro a ha ace hace
    exact (aceWellFormed_inheritedAcl hown hgrp _ _ _ parentSd creatorSd inheritFlags ha ace
      hace).1.inheritedAce
  · intro hsome
    obtain ⟨a, ha⟩ := Option.isSome_iff_exists.1 hsome
    exact not_protected_of_inheritedAcl _ _ _ ha

theorem computeAcl_recompute {type : UInt16} (hself : secDescSelfRelative ||| type = type)
    (hdacl : type &&& secDescDaclProtected = 0) (hsacl : type &&& secDescSaclProtected = 0) :
    computeAcl parentSd
        (some (computeAcl parentSd creatorSd isContainer inheritFlags objectList owner group type))
        isContainer inheritFlags objectList owner group secDescSelfRelative =
      computeAcl parentSd creatorSd isContainer inheritFlags objectList owner group type := by
  set sd := computeAcl parentSd creatorSd isContainer inheritFlags objectList owner group type
  obtain ⟨hinhD, hD⟩ := recomputeAcl hown hgrp hdefault (·.dacl) (·.dacl) secDaclAutoInherit
    secDescDaclProtected sd (computeAcl_type_and hdacl (Or.inl rfl)) rfl
  obtain ⟨hinhS, hS⟩ := recomputeAcl hown hgrp hdefault (·.sacl) (·.sacl) secSaclAutoInherit
    secDescSaclProtected sd (computeAcl_type_and hsacl (Or.inr rfl)) rfl
  have htype : sd.type = type ||| (if sd.dacl.isSome then secDescDaclPresent else 0) |||
      (if (inheritedAcl (·.dacl) secDaclAutoInherit secDescDaclProtected parentSd creatorSd
        isContainer inheritFlags owner group objectList).isSome then secDescDaclAutoInherited
        else 0) |||
      (if sd.sacl.isSome then secDescSaclPresent else 0) |||
      (if (inheritedAcl (·.sacl) secSaclAutoInherit secDescSaclProtected parentSd creatorSd
        isContainer inheritFlags owner group objectList).isSome then secDescSaclAutoInherited
        else 0) |||
      (creatorSd.map (·.type)).getD 0 := rfl
  conv_lhs => unfold computeAcl
  dsimp only
  rw [hD, hS, hinhD, hinhS, Option.map_some, Option.getD_some]
  rw [htype, or_or_absorb hself, ← htype]
  rfl

end Recompute

theorem createSecurityDescriptor_recompute (parentSd creatorSd : Option SecurityDescriptor)
    (isContainer : Bool) (objectList : Option (List Guid)) (inheritFlags : UInt32)
    (token : SecurityToken) (defaultOwner defaultGroup : Option DomSid) (sd : SecurityDescriptor)
    (hsd : createSecurityDescriptor parentSd creatorSd isContainer objectList inheritFlags token
      defaultOwner defaultGroup = some sd)
    (hdefault : inheritFlags &&& secDefaultDescriptor = 0)
    (owner group : DomSid) (howner : sd.ownerSid = some owner) (hgroup : sd.groupSid = some group)
    (hown : NotCreatorSid owner) (hgrp : NotCreatorSid group) :
    createSecurityDescriptor parentSd (some sd) isContainer objectList inheritFlags token
      defaultOwner defaultGroup = some sd := by
  obtain ⟨owner', group', type, hself, hdacl, hsacl, hsdEq⟩ :=
    createSecurityDescriptor_eq_computeAcl hsd
  have hnewOwner : newOwnerSid parentSd (some sd) inheritFlags token defaultOwner =
      (some owner, 0) := by
    simp [newOwnerSid, howner]
  have hnewGroup : newGroupSid parentSd (some sd) inheritFlags token defaultGroup =
      (some group, 0) := by
    simp [newGroupSid, hgroup]
  simp only [createSecurityDescriptor, hnewOwner, hnewGroup, UInt16.or_zero]
  subst hsdEq
  obtain rfl : owner' = owner := Option.some.inj howner
  obtain rfl : group' = group := Option.some.inj hgroup
  rw [computeAcl_recompute hown hgrp hdefault hself hdacl hsacl]

theorem createSecurityDescriptor_recompute_denyWriteDac :
    ∃ sd, createSecurityDescriptor (some denyWriteDacParent) none true none secDaclAutoInherit
        AccessCheck.userToken none none = some sd ∧
      createSecurityDescriptor (some denyWriteDacParent) (some sd) true none secDaclAutoInherit
        AccessCheck.userToken none none = some sd :=
  ⟨_, rfl, createSecurityDescriptor_recompute (some denyWriteDacParent) none true none
    secDaclAutoInherit AccessCheck.userToken none none _ rfl (by decide) AccessCheck.userSid
    AccessCheck.userSid rfl rfl (by decide) (by decide)⟩

end Samba.Security.InheritanceShape
