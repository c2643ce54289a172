import Mathlib

namespace Samba.Security.Descriptor

structure DomSid where
  revision : UInt8
  idAuth : List UInt8
  subAuths : List UInt32
  deriving DecidableEq, Repr

def globalSidSelf : DomSid := ⟨1, [0, 0, 0, 0, 0, 5], [10]⟩
def globalSidCreatorOwner : DomSid := ⟨1, [0, 0, 0, 0, 0, 3], [0]⟩
def globalSidCreatorGroup : DomSid := ⟨1, [0, 0, 0, 0, 0, 3], [1]⟩
def globalSidOwnerRights : DomSid := ⟨1, [0, 0, 0, 0, 0, 3], [4]⟩

structure Guid where
  bytes : List UInt8
  deriving DecidableEq, Repr

def guidAllZero (g : Guid) : Bool := g.bytes.all (· == 0)

inductive AceType
  | accessAllowed | accessDenied | systemAudit | systemAlarm | allowedCompound
  | accessAllowedObject | accessDeniedObject | systemAuditObject | systemAlarmObject
  | accessAllowedCallback | accessDeniedCallback | accessAllowedCallbackObject
  | accessDeniedCallbackObject | systemAuditCallback | systemAlarmCallback
  | systemAuditCallbackObject | systemAlarmCallbackObject | systemMandatoryLabel
  | systemResourceAttribute | systemScopedPolicyId
  deriving DecidableEq, Repr

def AceType.value : AceType → UInt32
  | .accessAllowed => 0 | .accessDenied => 1 | .systemAudit => 2 | .systemAlarm => 3
  | .allowedCompound => 4 | .accessAllowedObject => 5 | .accessDeniedObject => 6
  | .systemAuditObject => 7 | .systemAlarmObject => 8 | .accessAllowedCallback => 9
  | .accessDeniedCallback => 10 | .accessAllowedCallbackObject => 11
  | .accessDeniedCallbackObject => 12 | .systemAuditCallback => 13 | .systemAlarmCallback => 14
  | .systemAuditCallbackObject => 15 | .systemAlarmCallbackObject => 16
  | .systemMandatoryLabel => 17 | .systemResourceAttribute => 18 | .systemScopedPolicyId => 19

/-- `sec_ace_object`: the types whose ACE carries an object part. -/
def secAceObject : AceType → Bool
  | .accessAllowedObject | .accessDeniedObject | .systemAuditObject | .systemAlarmObject
  | .accessAllowedCallbackObject | .accessDeniedCallbackObject | .systemAuditCallbackObject => true
  | _ => false

structure AceObject where
  flags : UInt32
  type : Guid
  inheritedType : Guid
  deriving DecidableEq, Repr

structure SecurityAce where
  type : AceType
  flags : UInt8
  accessMask : UInt32
  object : AceObject
  trustee : DomSid
  coda : List UInt8
  deriving DecidableEq, Repr

structure SecurityAcl where
  revision : UInt16
  aces : List SecurityAce
  deriving DecidableEq, Repr

structure SecurityDescriptor where
  type : UInt16
  ownerSid : Option DomSid
  groupSid : Option DomSid
  sacl : Option SecurityAcl
  dacl : Option SecurityAcl
  deriving DecidableEq, Repr

inductive ClaimsEvaluation
  | invalidState | never | always
  deriving DecidableEq, Repr

structure SecurityToken where
  sids : List DomSid
  privilegeMask : UInt64
  evaluateClaims : ClaimsEvaluation
  numClaimsAndDeviceSids : Nat
  deriving DecidableEq, Repr

def secAceFlagObjectInherit : UInt8 := 0x01
def secAceFlagContainerInherit : UInt8 := 0x02
def secAceFlagNoPropagateInherit : UInt8 := 0x04
def secAceFlagInheritOnly : UInt8 := 0x08
def secAceFlagInheritedAce : UInt8 := 0x10

def secAceObjectTypePresent : UInt32 := 0x1
def secAceInheritedObjectTypePresent : UInt32 := 0x2

def secDescDaclPresent : UInt16 := 0x0004
def secDescSaclPresent : UInt16 := 0x0010
def secDescDaclAutoInherited : UInt16 := 0x0400
def secDescSaclAutoInherited : UInt16 := 0x0800
def secDescDaclProtected : UInt16 := 0x1000
def secDescSaclProtected : UInt16 := 0x2000

def secStdDelete : UInt32 := 0x00010000
def secStdReadControl : UInt32 := 0x00020000
def secStdWriteDac : UInt32 := 0x00040000
def secStdWriteOwner : UInt32 := 0x00080000
def secFlagSystemSecurity : UInt32 := 0x01000000
def secFlagMaximumAllowed : UInt32 := 0x02000000
def secAdsReadProp : UInt32 := 0x00000010
def secAdsWriteProp : UInt32 := 0x00000020
def secAdsControlAccess : UInt32 := 0x00000100

def secPrivTakeOwnershipBit : UInt64 := 0x00000800
def secPrivSecurityBit : UInt64 := 0x00002000

/-- `security_token_has_sid`; a `NULL` SID is in no token. -/
def securityTokenHasSid (token : SecurityToken) : Option DomSid → Bool
  | none => false
  | some sid => token.sids.contains sid

def securityTokenHasPrivilege (token : SecurityToken) (mask : UInt64) : Bool :=
  token.privilegeMask &&& mask != 0

def hasFlag (flags bit : UInt8) : Bool := flags &&& bit != 0

inductive ImplicitOwnerRights
  | readControlRights | readControlAndWriteDacRights
  deriving DecidableEq, Repr

def ImplicitOwnerRights.mask : ImplicitOwnerRights → UInt32
  | .readControlRights => secStdReadControl
  | .readControlAndWriteDacRights => secStdReadControl ||| secStdWriteDac

end Samba.Security.Descriptor
