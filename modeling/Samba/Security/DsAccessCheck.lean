import Samba.Security.AccessCheck

namespace Samba.Security.DsAccessCheck

open Samba.Security.Descriptor Samba.Security.AccessCheck

inductive ObjectTree
  | node (remainingAccess : UInt32) (guid : Guid) (children : List ObjectTree)
  deriving Repr

namespace ObjectTree

def remainingAccess : ObjectTree → UInt32
  | node r _ _ => r

def guid : ObjectTree → Guid
  | node _ g _ => g

end ObjectTree

/-- `insert_in_object_tree` below the node passed as `root`: a zero GUID leaves
it alone, a GUID already among its children widens that child. -/
def insertInObjectTree (guid : Guid) (initAccess : UInt32) : Option ObjectTree → Option ObjectTree
  | root =>
    if guidAllZero guid then root else
    match root with
    | none => some (.node initAccess guid [])
    | some (.node r g children) =>
      if children.any (·.guid == guid) then
        some (.node r g (children.map fun c ↦ match c with
          | .node cr cg cc => if cg == guid then .node (cr ||| initAccess) cg cc else c))
      else some (.node r g (children ++ [.node initAccess guid []]))

mutual

/-- `object_tree_modify_access`: clear `mask` in a node and all its descendants. -/
def objectTreeModifyAccess : ObjectTree → UInt32 → ObjectTree
  | .node r g children, mask => .node (r &&& ~~~mask) g (objectTreesModifyAccess children mask)

def objectTreesModifyAccess : List ObjectTree → UInt32 → List ObjectTree
  | [], _ => []
  | c :: cs, mask => objectTreeModifyAccess c mask :: objectTreesModifyAccess cs mask

end

mutual

def getObjectTreeByGuid : ObjectTree → Guid → Option ObjectTree
  | t@(.node _ g children), guid => if g = guid then some t else getObjectTreesByGuid children guid

def getObjectTreesByGuid : List ObjectTree → Guid → Option ObjectTree
  | [], _ => none
  | c :: cs, guid => (getObjectTreeByGuid c guid).or (getObjectTreesByGuid cs guid)

end

mutual

def modifyAccessByGuid : ObjectTree → Guid → UInt32 → ObjectTree
  | .node r g children, guid, mask =>
    if g = guid then objectTreeModifyAccess (.node r g children) mask else
    .node r g (modifyFirstByGuid children guid mask)

def modifyFirstByGuid : List ObjectTree → Guid → UInt32 → List ObjectTree
  | [], _, _ => []
  | c :: cs, guid, mask =>
    if (getObjectTreeByGuid c guid).isSome then modifyAccessByGuid c guid mask :: cs
    else c :: modifyFirstByGuid cs guid mask

end

def getAceObjectType (ace : SecurityAce) : Option Guid :=
  if ace.object.flags &&& secAceObjectTypePresent ≠ 0 then some ace.object.type else none

/-- `check_object_specific_access`: status, `*grant_access` and the tree after
the call. -/
def checkObjectSpecificAccess (ace : SecurityAce) :
    Option ObjectTree → NtStatus × Bool × Option ObjectTree
  | none => (.ok, false, none)
  | some tree =>
    let node := match getAceObjectType ace with
      | none => some tree
      | some type => getObjectTreeByGuid tree type
    match node with
    | none => (.ok, false, some tree)
    | some node =>
      if ace.type = .accessAllowedObject ∨ ace.type = .accessAllowedCallbackObject then
        let tree' := match getAceObjectType ace with
          | none => objectTreeModifyAccess tree ace.accessMask
          | some type => modifyAccessByGuid tree type ace.accessMask
        if node.remainingAccess &&& ~~~ace.accessMask = 0 then (.ok, true, some tree')
        else if ace.accessMask &&& secAdsControlAccess ≠ 0 then (.ok, true, some tree')
        else (.ok, false, some tree')
      else if node.remainingAccess &&& ace.accessMask ≠ 0 then (.accessDenied, false, some tree)
      else (.ok, false, some tree)

variable (cond : CondEval)

def dsAccessAce (sd : SecurityDescriptor) (token : SecurityToken) (replaceSid : Option DomSid) :
    UInt32 × Option ObjectTree → SecurityAce → Except NtStatus (UInt32 × Option ObjectTree)
  | acc@(remaining, tree), ace =>
    if hasFlag ace.flags secAceFlagInheritOnly then .ok acc else
    let trustee := if ace.trustee = globalSidSelf ∧ replaceSid.isSome then replaceSid
      else some ace.trustee
    if !securityTokenHasSid token trustee then .ok acc else
    let objectAccess : Except NtStatus (UInt32 × Option ObjectTree) :=
      match checkObjectSpecificAccess ace tree with
      | (.ok, true, _) => .error .ok
      | (.ok, false, tree') => .ok (remaining, tree')
      | (status, _, _) => .error status
    match ace.type with
    | .accessAllowed =>
      .ok (remaining &&& ~~~ace.accessMask, tree.map (objectTreeModifyAccess · ace.accessMask))
    | .accessDenied =>
      if remaining &&& ace.accessMask ≠ 0 then .error .accessDenied else .ok acc
    | .accessAllowedCallback =>
      match checkCallbackAceAllow cond ace token sd with
      | .invalid => .error .invalidAceCondition
      | .allow => .ok (remaining &&& ~~~ace.accessMask, tree)
      | _ => .ok acc
    | .accessDeniedCallback =>
      match checkCallbackAceDeny cond ace token sd with
      | .invalid => .error .invalidAceCondition
      | .deny => if remaining &&& ace.accessMask ≠ 0 then .error .accessDenied else .ok acc
      | _ => .ok acc
    | .accessDeniedObject | .accessAllowedObject => objectAccess
    | .accessAllowedCallbackObject =>
      match checkCallbackAceAllow cond ace token sd with
      | .invalid => .error .invalidAceCondition
      | .allow => objectAccess
      | _ => .ok acc
    | .accessDeniedCallbackObject =>
      match checkCallbackAceDeny cond ace token sd with
      | .invalid => .error .invalidAceCondition
      | .deny =>
        match checkObjectSpecificAccess ace tree with
        | (.ok, _, tree') => .ok (remaining, tree')
        | (status, _, _) => .error status
      | _ => .ok acc
    | _ => .ok acc

def dsAccessAces (sd : SecurityDescriptor) (token : SecurityToken) (replaceSid : Option DomSid) :
    List SecurityAce → UInt32 × Option ObjectTree → Except NtStatus (UInt32 × Option ObjectTree)
  | [], acc => .ok acc
  | ace :: aces, acc =>
    if acc.1 = 0 then .ok acc else
    match dsAccessAce cond sd token replaceSid acc ace with
    | .error status => .error status
    | .ok acc' => dsAccessAces sd token replaceSid aces acc'

/-- `sec_access_check_ds_implicit_owner`: the status and `*access_granted`. -/
def secAccessCheckDsImplicitOwner (sd : SecurityDescriptor) (token : SecurityToken)
    (desired : UInt32) (tree : Option ObjectTree) (replaceSid : Option DomSid)
    (rights : ImplicitOwnerRights) : NtStatus × UInt32 :=
  let desired := if desired &&& secFlagMaximumAllowed ≠ 0 then
    (desired ||| accessCheckMaxAllowed cond sd token rights) &&& ~~~secFlagMaximumAllowed
    else desired
  if desired &&& secFlagSystemSecurity ≠ 0 ∧ !securityTokenHasPrivilege token secPrivSecurityBit then
    (.privilegeNotHeld, desired)
  else
  let remaining := if desired &&& secFlagSystemSecurity ≠ 0 then
    desired &&& ~~~secFlagSystemSecurity else desired
  let remaining := if remaining &&& (secStdWriteDac ||| secStdReadControl) ≠ 0 ∧
      securityTokenHasSid token sd.ownerSid then remaining &&& ~~~rights.mask else remaining
  let remaining := if remaining &&& secStdWriteOwner ≠ 0 ∧
      securityTokenHasPrivilege token secPrivTakeOwnershipBit then
    remaining &&& ~~~secStdWriteOwner else remaining
  if sd.type &&& secDescDaclPresent ≠ 0 ∧ sd.dacl = none then (.ok, desired) else
  let walk : Except NtStatus (UInt32 × Option ObjectTree) := match sd.dacl with
    | none => .ok (remaining, tree)
    | some dacl => dsAccessAces cond sd token replaceSid dacl.aces (remaining, tree)
  match walk with
  | .error status => (status, desired)
  | .ok (remaining, _) => if remaining ≠ 0 then (.accessDenied, desired) else (.ok, desired)

def resolveCallbackAces (token : SecurityToken) (sd : SecurityDescriptor) : SecurityDescriptor :=
  { sd with dacl := sd.dacl.map fun dacl ↦ { dacl with aces := dacl.aces.filterMap fun ace ↦
      match ace.type with
      | .accessAllowedCallback =>
        if checkCallbackAceAllow cond ace token sd = .allow then
          some { ace with type := .accessAllowed } else none
      | .accessAllowedCallbackObject =>
        if checkCallbackAceAllow cond ace token sd = .allow then
          some { ace with type := .accessAllowedObject } else none
      | .accessDeniedCallback =>
        if checkCallbackAceDeny cond ace token sd = .deny then
          some { ace with type := .accessDenied } else none
      | .accessDeniedCallbackObject =>
        if checkCallbackAceDeny cond ace token sd = .deny then
          some { ace with type := .accessDeniedObject } else none
      | _ => some ace } }

def userClassGuid : Guid :=
  ⟨[0xba, 0x7a, 0x96, 0xbf, 0xe6, 0x0d, 0xd0, 0x11, 0xa2, 0x85, 0x00, 0xaa, 0x00, 0x30, 0x49, 0xe2]⟩

def memberOfUserCoda : List UInt8 :=
  [0x61, 0x72, 0x74, 0x78, 0x50, 38, 0, 0, 0, 0x51, 28, 0, 0, 0,
    1, 5, 0, 0, 0, 0, 0, 5, 21, 0, 0, 0, 1, 0, 0, 0, 2, 0, 0, 0, 3, 0, 0, 0, 0xe8, 3, 0, 0,
    0x89, 0]

def conditionHolds : CondEval := fun _ _ _ ↦ some .conditionTrue

def readPropertyCallbackAce : SecurityAce :=
  ⟨.accessAllowedCallback, 0, secAdsReadProp, ⟨0, ⟨[]⟩, ⟨[]⟩⟩, userSid, memberOfUserCoda⟩

def writePropertyObjectAce : SecurityAce :=
  ⟨.accessAllowedObject, 0, secAdsWriteProp, ⟨0, ⟨[]⟩, ⟨[]⟩⟩, userSid, []⟩

def propertyDescriptor : SecurityDescriptor :=
  ⟨secDescDaclPresent, none, none, none,
    some ⟨4, [readPropertyCallbackAce, writePropertyObjectAce]⟩⟩

def propertyTree : Option ObjectTree :=
  insertInObjectTree userClassGuid (secAdsReadProp ||| secAdsWriteProp) none

end Samba.Security.DsAccessCheck
