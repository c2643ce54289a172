import Samba.Lib.Mask
import Samba.Security.Descriptor

namespace Samba.Security.AccessCheck

open Samba.Security.Descriptor Samba.Lib.Mask

inductive AceCondition
  | conditionFalse | conditionTrue | conditionUnknown
  deriving DecidableEq, Repr

inductive AceCallbackResult
  | deny | allow | skip | invalid
  deriving DecidableEq, Repr

inductive NtStatus
  | ok | accessDenied | privilegeNotHeld | invalidAceCondition | invalidToken
  deriving DecidableEq, Repr

/-- `access_check_conditional_ace`, taken as a parameter. -/
abbrev CondEval := SecurityAce → SecurityToken → SecurityDescriptor → Option AceCondition

variable (cond : CondEval)

def checkCallbackAceAllow (ace : SecurityAce) (token : SecurityToken)
    (sd : SecurityDescriptor) : AceCallbackResult :=
  match token.evaluateClaims with
  | .invalidState => .invalid
  | .never => .skip
  | .always =>
    if ace.type ≠ .accessAllowedCallback ∧ ace.type ≠ .accessAllowedCallbackObject then .invalid
    else match cond ace token sd with
      | none => .skip
      | some .conditionTrue => .allow
      | some _ => .skip

def checkCallbackAceDeny (ace : SecurityAce) (token : SecurityToken)
    (sd : SecurityDescriptor) : AceCallbackResult :=
  match token.evaluateClaims with
  | .invalidState => .invalid
  | .never => .skip
  | .always =>
    if ace.type ≠ .accessDeniedCallback ∧ ace.type ≠ .accessDeniedCallbackObject then .invalid
    else match cond ace token sd with
      | none => .deny
      | some .conditionFalse => .skip
      | some _ => .deny

def haveOwnerRightsAce (aces : List SecurityAce) : Bool :=
  aces.any fun ace ↦ !hasFlag ace.flags secAceFlagInheritOnly && ace.trustee == globalSidOwnerRights

def aceApplies (token : SecurityToken) (amOwner : Bool) (ace : SecurityAce) : Bool :=
  !hasFlag ace.flags secAceFlagInheritOnly &&
    ((amOwner && ace.trustee == globalSidOwnerRights) || securityTokenHasSid token (some ace.trustee))

def maxAllowedAce (sd : SecurityDescriptor) (token : SecurityToken) (amOwner : Bool) :
    UInt32 × UInt32 → SecurityAce → Option (UInt32 × UInt32)
  | acc@(granted, denied), ace =>
  if !aceApplies token amOwner ace then some acc else
  match ace.type with
  | .accessAllowed => some (granted ||| ace.accessMask, denied)
  | .accessDenied | .accessDeniedObject => some (granted, denied ||| (~~~granted &&& ace.accessMask))
  | .accessAllowedCallback =>
    match checkCallbackAceAllow cond ace token sd with
    | .invalid => none
    | .allow => some (granted ||| ace.accessMask, denied)
    | _ => some acc
  | .accessDeniedCallback =>
    match checkCallbackAceDeny cond ace token sd with
    | .invalid => none
    | .deny => some (granted, denied ||| (~~~granted &&& ace.accessMask))
    | _ => some acc
  | _ => some acc

def maxAllowedAces (sd : SecurityDescriptor) (token : SecurityToken) (amOwner : Bool) :
    List SecurityAce → UInt32 × UInt32 → Option (UInt32 × UInt32)
  | [], acc => some acc
  | ace :: aces, acc =>
    match maxAllowedAce cond sd token amOwner acc ace with
    | none => none
    | some acc' => maxAllowedAces sd token amOwner aces acc'

def accessCheckMaxAllowed (sd : SecurityDescriptor) (token : SecurityToken)
    (rights : ImplicitOwnerRights) : UInt32 :=
  match sd.dacl with
  | none => if securityTokenHasSid token sd.ownerSid then rights.mask else 0
  | some dacl =>
    let amOwner := securityTokenHasSid token sd.ownerSid
    let granted := if amOwner && !haveOwnerRightsAce dacl.aces then rights.mask else 0
    match maxAllowedAces cond sd token amOwner dacl.aces (granted, 0) with
    | none => 0
    | some (granted, denied) => granted &&& ~~~denied

def seAccessAce (sd : SecurityDescriptor) (token : SecurityToken) (amOwner : Bool) :
    UInt32 × UInt32 → SecurityAce → Option (UInt32 × UInt32)
  | acc@(remaining, denied), ace =>
  if !aceApplies token amOwner ace then some acc else
  match ace.type with
  | .accessAllowed => some (remaining &&& ~~~ace.accessMask, denied)
  | .accessDenied | .accessDeniedObject => some (remaining, denied ||| (remaining &&& ace.accessMask))
  | .accessAllowedCallback =>
    match checkCallbackAceAllow cond ace token sd with
    | .invalid => none
    | .allow => some (remaining &&& ~~~ace.accessMask, denied)
    | _ => some acc
  | .accessDeniedCallback | .accessDeniedCallbackObject =>
    match checkCallbackAceDeny cond ace token sd with
    | .invalid => none
    | .deny => some (remaining, denied ||| (remaining &&& ace.accessMask))
    | _ => some acc
  | _ => some acc

def seAccessAces (sd : SecurityDescriptor) (token : SecurityToken) (amOwner : Bool) :
    List SecurityAce → UInt32 × UInt32 → Option (UInt32 × UInt32)
  | [], acc => some acc
  | ace :: aces, acc =>
    if acc.1 = 0 then some acc else
    match seAccessAce cond sd token amOwner acc ace with
    | none => none
    | some acc' => seAccessAces sd token amOwner aces acc'

def seAccessFinish (token : SecurityToken) (remaining : UInt32) : NtStatus × UInt32 :=
  if remaining &&& secFlagSystemSecurity ≠ 0 ∧ !securityTokenHasPrivilege token secPrivSecurityBit then
    (.privilegeNotHeld, remaining)
  else
    let remaining := if remaining &&& secFlagSystemSecurity ≠ 0 then
      remaining &&& ~~~secFlagSystemSecurity else remaining
    let remaining := if remaining &&& secStdWriteOwner ≠ 0 ∧
        securityTokenHasPrivilege token secPrivTakeOwnershipBit then
      remaining &&& ~~~secStdWriteOwner else remaining
    if remaining ≠ 0 then (.accessDenied, remaining) else (.ok, remaining)

/-- `se_access_check_implicit_owner`: the status and `*access_granted`, which is
left unwritten (`none`) on the `NT_STATUS_INVALID_TOKEN` return. -/
def seAccessCheckImplicitOwner (sd : SecurityDescriptor) (token : SecurityToken)
    (desired : UInt32) (rights : ImplicitOwnerRights) : NtStatus × Option UInt32 :=
  if token.evaluateClaims = .invalidState ∧ token.numClaimsAndDeviceSids > 0 then
    (.invalidToken, none)
  else
  let desired := if desired &&& secFlagMaximumAllowed ≠ 0 then
    (desired ||| accessCheckMaxAllowed cond sd token rights) &&& ~~~secFlagMaximumAllowed
    else desired
  if sd.type &&& secDescDaclPresent ≠ 0 ∧ sd.dacl = none then (.ok, some desired) else
  match sd.dacl with
  | none => if desired ≠ 0 then (.accessDenied, some desired) else (.ok, some desired)
  | some dacl =>
    let amOwner := securityTokenHasSid token sd.ownerSid
    let remaining := if amOwner && !haveOwnerRightsAce dacl.aces then
      desired &&& ~~~rights.mask else desired
    match seAccessAces cond sd token amOwner dacl.aces (remaining, 0) with
    | none => (.invalidAceCondition, some desired)
    | some (remaining, denied) =>
      let (status, bits) := seAccessFinish token (remaining ||| denied)
      (status, some (if status = .accessDenied then bits else desired))

/-- `se_access_check`. -/
def seAccessCheck (sd : SecurityDescriptor) (token : SecurityToken) (desired : UInt32) :
    NtStatus × Option UInt32 :=
  seAccessCheckImplicitOwner cond sd token desired .readControlAndWriteDacRights

section Agreement

variable (cond : CondEval) (sd : SecurityDescriptor) {token : SecurityToken} (amOwner : Bool)

theorem checkCallbackAceAllow_cases {ace : SecurityAce} (hclaims : token.evaluateClaims ≠ .invalidState)
    (htype : ace.type = .accessAllowedCallback ∨ ace.type = .accessAllowedCallbackObject) :
    checkCallbackAceAllow cond ace token sd = .allow ∨ checkCallbackAceAllow cond ace token sd = .skip := by
  unfold checkCallbackAceAllow
  cases hc : token.evaluateClaims with
  | invalidState => exact absurd hc hclaims
  | never => exact .inr rfl
  | always =>
    have hnot : ¬(ace.type ≠ .accessAllowedCallback ∧ ace.type ≠ .accessAllowedCallbackObject) := by
      rcases htype with h | h <;> simp [h]
    simp only [hnot, if_false]
    split <;> simp

-- equation lemmas made once, before the proofs below use them in parallel
attribute [local simp] checkCallbackAceDeny.eq_1 maxAllowedAces.eq_1 seAccessAce.eq_1
  seAccessCheckImplicitOwner.eq_1
attribute [-simp] checkCallbackAceDeny.eq_1 maxAllowedAces.eq_1 seAccessAce.eq_1
  seAccessCheckImplicitOwner.eq_1

theorem checkCallbackAceDeny_cases {ace : SecurityAce} (hclaims : token.evaluateClaims ≠ .invalidState)
    (htype : ace.type = .accessDeniedCallback ∨ ace.type = .accessDeniedCallbackObject) :
    checkCallbackAceDeny cond ace token sd = .deny ∨ checkCallbackAceDeny cond ace token sd = .skip := by
  unfold checkCallbackAceDeny
  cases hc : token.evaluateClaims with
  | invalidState => exact absurd hc hclaims
  | never => exact .inr rfl
  | always =>
    have hnot : ¬(ace.type ≠ .accessDeniedCallback ∧ ace.type ≠ .accessDeniedCallbackObject) := by
      rcases htype with h | h <;> simp [h]
    simp only [hnot, if_false]
    split <;> simp

theorem checkCallbackAceDeny_never {ace : SecurityAce} (hclaims : token.evaluateClaims = .never) :
    checkCallbackAceDeny cond ace token sd = .skip := by
  simp [checkCallbackAceDeny, hclaims]

def WalkAgree (desired : UInt32) (ma se : UInt32 × UInt32) : Prop :=
  se.1 = desired &&& ~~~ma.1 ∧ se.2 = desired &&& ma.2

theorem walkAgree_allow {d g dn m : UInt32} :
    WalkAgree d (g ||| m, dn) (d &&& ~~~g &&& ~~~m, d &&& dn) :=
  ⟨(and_not_or d g m).symm, rfl⟩

theorem walkAgree_deny {d g dn m : UInt32} :
    WalkAgree d (g, dn ||| (~~~g &&& m)) (d &&& ~~~g, d &&& dn ||| (d &&& ~~~g &&& m)) :=
  ⟨rfl, (and_or_and_not d dn g m).symm⟩

def DenyCallbackObjectSkipped (token : SecurityToken) (ace : SecurityAce) : Prop :=
  ace.type = .accessDeniedCallbackObject → token.evaluateClaims = .never

theorem walkAgree_step {d : UInt32} {ma se : UInt32 × UInt32} {ace : SecurityAce}
    (hclaims : token.evaluateClaims ≠ .invalidState) (hdco : DenyCallbackObjectSkipped token ace)
    (h : WalkAgree d ma se) :
    ∃ ma' se', maxAllowedAce cond sd token amOwner ma ace = some ma' ∧
      seAccessAce cond sd token amOwner se ace = some se' ∧ WalkAgree d ma' se' := by
  obtain ⟨g, dn⟩ := ma
  obtain ⟨r, e⟩ := se
  obtain ⟨hr, he⟩ := h
  simp only at hr he
  subst hr he
  unfold maxAllowedAce seAccessAce
  by_cases happ : aceApplies token amOwner ace
  case neg => exact ⟨(g, dn), (d &&& ~~~g, d &&& dn), by simp [happ], by simp [happ], rfl, rfl⟩
  simp only [happ, Bool.not_true, Bool.false_eq_true, if_false]
  cases ht : ace.type
  case accessAllowed => exact ⟨_, _, rfl, rfl, walkAgree_allow⟩
  case accessDenied | accessDeniedObject => exact ⟨_, _, rfl, rfl, walkAgree_deny⟩
  case accessAllowedCallback =>
    rcases checkCallbackAceAllow_cases cond sd hclaims (.inl ht) with hcb | hcb <;>
      simp only [hcb]
    · exact ⟨_, _, rfl, rfl, walkAgree_allow⟩
    · exact ⟨_, _, rfl, rfl, rfl, rfl⟩
  case accessDeniedCallback =>
    rcases checkCallbackAceDeny_cases cond sd hclaims (.inl ht) with hcb | hcb <;>
      simp only [hcb]
    · exact ⟨_, _, rfl, rfl, walkAgree_deny⟩
    · exact ⟨_, _, rfl, rfl, rfl, rfl⟩
  case accessDeniedCallbackObject =>
    simp only [checkCallbackAceDeny_never cond sd (hdco ht)]
    exact ⟨_, _, rfl, rfl, rfl, rfl⟩
  all_goals exact ⟨_, _, rfl, rfl, rfl, rfl⟩

theorem seAccessAce_zero {e : UInt32} {ace : SecurityAce} {se' : UInt32 × UInt32}
    (h : seAccessAce cond sd token amOwner (0, e) ace = some se') : se' = (0, e) := by
  simp only [seAccessAce] at h
  split at h
  · exact (Option.some.inj h).symm
  · split at h <;> (try split at h) <;> simp_all

theorem maxAllowedAces_of_zero {d e : UInt32} (hclaims : token.evaluateClaims ≠ .invalidState) :
    ∀ (aces : List SecurityAce), (∀ ace ∈ aces, DenyCallbackObjectSkipped token ace) →
      ∀ ma, WalkAgree d ma (0, e) →
        ∃ ma', maxAllowedAces cond sd token amOwner aces ma = some ma' ∧ WalkAgree d ma' (0, e)
  | [], _, ma, h => ⟨ma, rfl, h⟩
  | ace :: aces, hdco, ma, h => by
    obtain ⟨ma', se', hma, hse, h'⟩ :=
      walkAgree_step cond sd amOwner hclaims (hdco ace (by simp)) h
    rw [seAccessAce_zero cond sd amOwner hse] at h'
    obtain ⟨ma'', hrest, h''⟩ :=
      maxAllowedAces_of_zero hclaims aces (fun a ha ↦ hdco a (by simp [ha])) ma' h'
    exact ⟨ma'', by simp [maxAllowedAces, hma, hrest], h''⟩

theorem walkAgree_aces {d : UInt32} (hclaims : token.evaluateClaims ≠ .invalidState) :
    ∀ (aces : List SecurityAce), (∀ ace ∈ aces, DenyCallbackObjectSkipped token ace) →
      ∀ ma se, WalkAgree d ma se →
        ∃ ma' se', maxAllowedAces cond sd token amOwner aces ma = some ma' ∧
          seAccessAces cond sd token amOwner aces se = some se' ∧ WalkAgree d ma' se'
  | [], _, ma, se, h => ⟨ma, se, rfl, rfl, h⟩
  | ace :: aces, hdco, ma, se, h => by
    by_cases hr : se.1 = 0
    · obtain ⟨r, e⟩ := se
      simp only at hr
      subst hr
      obtain ⟨ma', hma, h'⟩ := maxAllowedAces_of_zero cond sd amOwner hclaims (ace :: aces) hdco ma h
      exact ⟨ma', (0, e), hma, by simp [seAccessAces], h'⟩
    · obtain ⟨ma', se', hma, hse, h'⟩ :=
        walkAgree_step cond sd amOwner hclaims (hdco ace (by simp)) h
      obtain ⟨ma'', se'', hma', hse', h''⟩ :=
        walkAgree_aces hclaims aces (fun a ha ↦ hdco a (by simp [ha])) ma' se' h'
      exact ⟨ma'', se'', by simp [maxAllowedAces, hma, hma'], by simp [seAccessAces, hr, hse, hse'], h''⟩

theorem seAccessCheckImplicitOwner_of_dacl {dacl : SecurityAcl} (hdacl : sd.dacl = some dacl)
    (hclaims : token.evaluateClaims ≠ .invalidState)
    (hdco : ∀ ace ∈ dacl.aces, DenyCallbackObjectSkipped token ace) (x : UInt32)
    (rights : ImplicitOwnerRights) :
    (seAccessCheckImplicitOwner cond sd token x rights).1 =
      (seAccessFinish token ((if x &&& secFlagMaximumAllowed ≠ 0 then
        (x ||| accessCheckMaxAllowed cond sd token rights) &&& ~~~secFlagMaximumAllowed else x) &&&
        ~~~accessCheckMaxAllowed cond sd token rights)).1 := by
  have hinv : ¬(token.evaluateClaims = .invalidState ∧ token.numClaimsAndDeviceSids > 0) :=
    fun h ↦ hclaims h.1
  generalize hy : (if x &&& secFlagMaximumAllowed ≠ 0 then
    (x ||| accessCheckMaxAllowed cond sd token rights) &&& ~~~secFlagMaximumAllowed else x) = y
  simp only [seAccessCheckImplicitOwner, hinv, if_false, hy, hdacl, reduceCtorEq, and_false]
  generalize hown : securityTokenHasSid token sd.ownerSid = amOwner
  have hagree : WalkAgree y
      (if (amOwner && !haveOwnerRightsAce dacl.aces) = true then rights.mask else 0, 0)
      (if (amOwner && !haveOwnerRightsAce dacl.aces) = true then y &&& ~~~rights.mask else y, 0) := by
    split <;> simp [WalkAgree]
  obtain ⟨⟨g, dn⟩, ⟨r, e⟩, hma, hse, hr, he⟩ :=
    walkAgree_aces cond sd amOwner hclaims dacl.aces hdco _ _ hagree
  have hmax : accessCheckMaxAllowed cond sd token rights = g &&& ~~~dn := by
    simp only [accessCheckMaxAllowed, hdacl, hown, hma]
  simp only at hr he
  rw [hse, hmax, hr, he, ← and_not_or_and]

theorem seAccessFinish_ok_iff (x : UInt32)
    (hx : x &&& (secFlagSystemSecurity ||| secStdWriteOwner) = 0) :
    (seAccessFinish token x).1 = .ok ↔ x = 0 := by
  have hsys := and_of_and_or_left hx
  have hwo := and_of_and_or_right hx
  simp only [seAccessFinish, hsys, hwo, ne_eq, not_true_eq_false, false_and, if_false]
  split <;> simp_all

def DenyCallbackObjectsSkipped (token : SecurityToken) (sd : SecurityDescriptor) : Prop :=
  ∀ dacl, sd.dacl = some dacl → ∀ ace ∈ dacl.aces, DenyCallbackObjectSkipped token ace

end Agreement

theorem seAccessCheck_maximumAllowed (cond : CondEval) (sd : SecurityDescriptor)
    (token : SecurityToken) (d : UInt32) (hpresent : sd.type &&& secDescDaclPresent ≠ 0)
    (hclaims : token.evaluateClaims = .always ∨ token.evaluateClaims = .never)
    (hdco : DenyCallbackObjectsSkipped token sd)
    (hd : d &&& (secFlagMaximumAllowed ||| (secFlagSystemSecurity ||| secStdWriteOwner)) = 0) :
    ((seAccessCheck cond sd token (d ||| secFlagMaximumAllowed)).1 = .ok ↔
      (seAccessCheck cond sd token d).1 = .ok) ∧
    (sd.dacl ≠ none → ((seAccessCheck cond sd token d).1 = .ok ↔
      d &&& ~~~accessCheckMaxAllowed cond sd token .readControlAndWriteDacRights = 0)) := by
  have hclaims' : token.evaluateClaims ≠ .invalidState := by
    rcases hclaims with h | h <;> simp [h]
  have hinv : ¬(token.evaluateClaims = .invalidState ∧ token.numClaimsAndDeviceSids > 0) :=
    fun h ↦ hclaims' h.1
  have hmax : d &&& secFlagMaximumAllowed = 0 := and_of_and_or_left hd
  have hsw : d &&& (secFlagSystemSecurity ||| secStdWriteOwner) = 0 := and_of_and_or_right hd
  cases hdacl : sd.dacl with
  | none =>
    have hnull (x : UInt32) : (seAccessCheck cond sd token x).1 = .ok := by
      simp [seAccessCheck, seAccessCheckImplicitOwner, hinv, hdacl, hpresent]
    exact ⟨by rw [hnull, hnull], fun h ↦ absurd rfl h⟩
  | some dacl =>
    have hplain : (seAccessCheck cond sd token d).1 = (seAccessFinish token
        (d &&& ~~~accessCheckMaxAllowed cond sd token .readControlAndWriteDacRights)).1 := by
      rw [seAccessCheck, seAccessCheckImplicitOwner_of_dacl cond sd hdacl hclaims' (hdco dacl hdacl)]
      simp [hmax]
    have hwith : (seAccessCheck cond sd token (d ||| secFlagMaximumAllowed)).1 = (seAccessFinish token
        (d &&& ~~~accessCheckMaxAllowed cond sd token .readControlAndWriteDacRights)).1 := by
      have hset : (d ||| secFlagMaximumAllowed) &&& secFlagMaximumAllowed ≠ 0 := by
        rw [or_and_self_right]
        decide
      rw [seAccessCheck, seAccessCheckImplicitOwner_of_dacl cond sd hdacl hclaims' (hdco dacl hdacl)]
      simp only [hset, ne_eq, not_false_eq_true, if_true]
      rw [or_or_and_not_and_not hmax]
    have hx := and_eq_zero_of_and_not hsw (accessCheckMaxAllowed cond sd token
      .readControlAndWriteDacRights)
    exact ⟨by rw [hplain, hwith], fun _ ↦ by rw [hplain, seAccessFinish_ok_iff _ hx]⟩

def userSid : DomSid := ⟨1, [0, 0, 0, 0, 0, 5], [21, 1, 2, 3, 1000]⟩

def userToken : SecurityToken := ⟨[userSid], 0, .always, 0⟩

def denyCallbackObjectAce : SecurityAce :=
  ⟨.accessDeniedCallbackObject, 0, secStdReadControl, ⟨0, ⟨[]⟩, ⟨[]⟩⟩, userSid, []⟩

def readControlAce : SecurityAce :=
  ⟨.accessAllowed, 0, secStdReadControl, ⟨0, ⟨[]⟩, ⟨[]⟩⟩, userSid, []⟩

def denyCallbackObjectDescriptor : SecurityDescriptor :=
  ⟨secDescDaclPresent, none, none, none, some ⟨2, [denyCallbackObjectAce, readControlAce]⟩⟩

theorem accessCheckMaxAllowed_skips_denyCallbackObject :
    (seAccessCheck (fun _ _ _ ↦ some .conditionTrue) denyCallbackObjectDescriptor userToken
        secStdReadControl).1 = .accessDenied ∧
      secStdReadControl &&& accessCheckMaxAllowed (fun _ _ _ ↦ some .conditionTrue)
        denyCallbackObjectDescriptor userToken .readControlAndWriteDacRights = secStdReadControl := by
  decide

end Samba.Security.AccessCheck
