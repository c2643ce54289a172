import Samba.Security.Descriptor

namespace Samba.Security.Sddl

open Samba.Security.Descriptor

def secDescSelfRelative : UInt16 := 0x8000
def secDescDaclAutoInheritReq : UInt16 := 0x0100

/-- `security_descriptor_initialise`: marked self-relative, with nothing in it. -/
def securityDescriptorInitialise : SecurityDescriptor := ⟨secDescSelfRelative, none, none, none, none⟩

/-- `acl_flags`: the SDDL codes of the DACL flags, the SACL's one bit higher. -/
def aclFlags : List (List UInt8 × UInt32) :=
  [([0x50], secDescDaclProtected.toUInt32), ([0x41, 0x52], secDescDaclAutoInheritReq.toUInt32),
    ([0x41, 0x49], secDescDaclAutoInherited.toUInt32)]

/-- `sddl_flags_to_string`: the code of an exact match, else the codes of the bits
of `flags` that the map has, in its order; with `checkAll` a bit it lacks fails. -/
def sddlFlagsToString (map : List (List UInt8 × UInt32)) (flags : UInt32) (checkAll : Bool) :
    Option (List UInt8) :=
  match map.find? (·.2 == flags) with
  | some (name, _) => some name
  | none =>
    let (s, rest) := map.foldl (fun (s, flags) (name, flag) ↦
      if flags &&& flag ≠ 0 then (s ++ name, flags &&& ~~~flag) else (s, flags)) ([], flags)
    if checkAll ∧ rest ≠ 0 then none else some s

section Encode

-- `sddl_transition_encode_sid` and `sddl_transition_encode_ace` for the domain SID
variable (encodeSid : DomSid → Option (List UInt8)) (encodeAce : SecurityAce → Option (List UInt8))

/-- `sddl_encode_acl`: the ACL flags among `flags`, then each ACE in parentheses. -/
def sddlEncodeAcl (acl : SecurityAcl) (flags : UInt32) : Option (List UInt8) := do
  let s ← sddlFlagsToString aclFlags flags false
  let aces ← acl.aces.mapM encodeAce
  pure (s ++ aces.flatMap fun ace ↦ [0x28] ++ ace ++ [0x29])

def encodeSidSection (tag : UInt8) : Option DomSid → Option (List UInt8)
  | none => some []
  | some sid => (encodeSid sid).map fun s ↦ [tag, 0x3a] ++ s

def encodeAclSection (tag : UInt8) (present : Bool) (acl : Option SecurityAcl) (flags : UInt32) :
    Option (List UInt8) :=
  match present, acl with
  | true, some acl => (sddlEncodeAcl encodeAce acl flags).map fun s ↦ [tag, 0x3a] ++ s
  | _, _ => some []

/-- `sddl_encode`. The SACL flags are one bit above the DACL's, so the SACL is
given the type shifted down. -/
def sddlEncode (sd : SecurityDescriptor) : Option (List UInt8) := do
  let owner ← encodeSidSection encodeSid 0x4f sd.ownerSid
  let group ← encodeSidSection encodeSid 0x47 sd.groupSid
  let dacl ← encodeAclSection encodeAce 0x44 (sd.type &&& secDescDaclPresent ≠ 0) sd.dacl
    sd.type.toUInt32
  let sacl ← encodeAclSection encodeAce 0x53 (sd.type &&& secDescSaclPresent ≠ 0) sd.sacl
    (sd.type.toUInt32 >>> 1)
  pure (owner ++ group ++ dacl ++ sacl)

end Encode

section Decode

-- `sddl_decode_acl` on what follows `D:` or `S:`: the ACL, its flags and the rest
-- of the string, or the message and offset it leaves on failure
variable (decodeAcl : List UInt8 → Except (Option String × Nat) (SecurityAcl × UInt32 × List UInt8))
-- `sddl_transition_decode_sid_talloc`: the SID and the rest of the string
variable (decodeSid : List UInt8 → Option (DomSid × List UInt8))

structure SddlFailure where
  msg : Option String
  offset : Nat
  rest : List UInt8

def sddlDecodeLoop : Nat → SecurityDescriptor → List UInt8 → Except SddlFailure SecurityDescriptor
  | 0, sd, _ => .ok sd
  | fuel + 1, sd, sddl =>
    if sddl.headD 0 = 0 then .ok sd
    else if sddl.getD 1 0 ≠ 0x3a then
      .error ⟨some "expected '[OGDS]:' section start (or the previous section ended prematurely)",
        0, sddl⟩
    else
      let c := sddl.headD 0
      let sddl := sddl.drop 2
      if c = 0x44 then
        if sd.dacl.isSome then .error ⟨none, 0, sddl⟩ else
        match decodeAcl sddl with
        | .error (msg, offset) => .error ⟨msg, offset, sddl⟩
        | .ok (acl, flags, rest) =>
          sddlDecodeLoop fuel
            { sd with dacl := some acl, type := sd.type ||| (flags.toUInt16 ||| secDescDaclPresent) }
            rest
      else if c = 0x53 then
        if sd.sacl.isSome then .error ⟨none, 0, sddl⟩ else
        match decodeAcl sddl with
        | .error (msg, offset) => .error ⟨msg, offset, sddl⟩
        | .ok (acl, flags, rest) =>
          sddlDecodeLoop fuel
            { sd with
              sacl := some acl
              type := sd.type ||| ((flags <<< 1).toUInt16 ||| secDescSaclPresent) }
            rest
      else if c = 0x4f then
        if sd.ownerSid.isSome then .error ⟨none, 0, sddl⟩ else
        match decodeSid sddl with
        | none => .error ⟨none, 0, sddl⟩
        | some (sid, rest) => sddlDecodeLoop fuel { sd with ownerSid := some sid } rest
      else if c = 0x47 then
        if sd.groupSid.isSome then .error ⟨none, 0, sddl⟩ else
        match decodeSid sddl with
        | none => .error ⟨none, 0, sddl⟩
        | some (sid, rest) => sddlDecodeLoop fuel { sd with groupSid := some sid } rest
      else .error ⟨some "unexpected character (expected [OGDS])", 0, sddl⟩

/-- `sddl_decode_err_msg`: the descriptor, or the message and the offset of the
failure in the string, which is cut to `0` where it is past the end of what is
left. -/
def sddlDecodeErrMsg (sddl : List UInt8) : Except (Option String × Nat) SecurityDescriptor :=
  match sddlDecodeLoop decodeAcl decodeSid sddl.length securityDescriptorInitialise sddl with
  | .ok sd => .ok sd
  | .error f =>
    let offset := f.offset + (sddl.length - f.rest.length)
    .error (f.msg, if offset > f.rest.length then 0 else offset)

end Decode

/-- `sec_ace_callback`; the alarm callback types are reserved, not callbacks. -/
def secAceCallback : AceType → Bool
  | .accessAllowedCallback | .accessDeniedCallback | .accessAllowedCallbackObject
  | .accessDeniedCallbackObject | .systemAuditCallback | .systemAuditCallbackObject => true
  | _ => false

/-- `sec_ace_resource`. -/
def secAceResource (type : AceType) : Bool := type == .systemResourceAttribute

/-- `ace_types`: the SDDL code of each ACE type that has one, in the order they are
matched. `SEC_ACE_TYPE_ACCESS_DENIED_CALLBACK_OBJECT` has none. -/
def aceTypes : List (List UInt8 × AceType) :=
  [([0x41, 0x55], .systemAudit), ([0x41, 0x4c], .systemAlarm),
    ([0x4f, 0x41], .accessAllowedObject), ([0x4f, 0x44], .accessDeniedObject),
    ([0x4f, 0x55], .systemAuditObject), ([0x4f, 0x4c], .systemAlarmObject),
    ([0x41], .accessAllowed), ([0x44], .accessDenied),
    ([0x58, 0x41], .accessAllowedCallback), ([0x58, 0x44], .accessDeniedCallback),
    ([0x5a, 0x41], .accessAllowedCallbackObject), ([0x58, 0x55], .systemAuditCallback),
    ([0x52, 0x41], .systemResourceAttribute)]

/-- `ace_types` as the `flag_map` that `sddl_flags_to_string` reads. -/
def aceTypeFlags : List (List UInt8 × UInt32) := aceTypes.map fun e ↦ (e.1, e.2.value)

/-- `ace_flags`. -/
def aceFlags : List (List UInt8 × UInt32) :=
  [([0x4f, 0x49], 0x01), ([0x43, 0x49], 0x02), ([0x4e, 0x50], 0x04), ([0x49, 0x4f], 0x08),
    ([0x49, 0x44], 0x10), ([0x53, 0x41], 0x40), ([0x46, 0x41], 0x80)]

def bytesText (s : List UInt8) : String := String.ofList (s.map fun b ↦ Char.ofNat b.toNat)

/-- `isupper` in the C locale. -/
def isUpper (c : UInt8) : Bool := 0x41 ≤ c && c ≤ 0x5a

section AceEncode

-- the access mask (`sddl_flags_to_string`, `sddl_match_file_rights` or `0x%x`), the
-- text of a GUID, and the conditions of a callback ACE and the claim of a resource
-- ACE in SDDL
variable (encodeMask : UInt32 → List UInt8) (guidString : Guid → List UInt8)
  (encodeSid : DomSid → Option (List UInt8)) (encodeConditions : List UInt8 → Option (List UInt8))
  (encodeClaim : List UInt8 → Option (List UInt8))

/-- `sddl_transition_encode_ace`: type, flags, access mask, object GUIDs and trustee
joined by `;`, then the conditions of a callback ACE or the claim of a resource ACE.
The type is written by `sddl_flags_to_string`, as if it were a set of flags. -/
def sddlTransitionEncodeAce (ace : SecurityAce) : Option (List UInt8) := do
  let type ← sddlFlagsToString aceTypeFlags ace.type.value true
  let flags ← sddlFlagsToString aceFlags ace.flags.toUInt32 true
  let object := if secAceObject ace.type && ace.object.flags &&& secAceObjectTypePresent != 0
    then guidString ace.object.type else []
  let iobject := if secAceObject ace.type && ace.object.flags &&& secAceInheritedObjectTypePresent != 0
    then guidString ace.object.inheritedType else []
  let trustee ← encodeSid ace.trustee
  let fields := [type, flags, encodeMask ace.accessMask, object, iobject, trustee]
  if secAceCallback ace.type then
    let conditions ← encodeConditions ace.coda
    pure (List.intercalate [0x3b] (fields ++ [conditions]))
  else if secAceResource ace.type then
    let coda ← encodeClaim ace.coda
    pure (List.intercalate [0x3b] (fields ++ [coda]))
  else pure (List.intercalate [0x3b] fields)

end AceEncode

/-- `sddl_map_flag`: the first entry of the map whose code starts `str`, with the
code's length. -/
def sddlMapFlag {α : Type} (map : List (List UInt8 × α)) (str : List UInt8) : Option (Nat × α) :=
  (map.find? fun e ↦ e.1.isPrefixOf str).map fun e ↦ (e.1.length, e.2)

def sddlMapFlagsLoop (map : List (List UInt8 × UInt32)) :
    Nat → UInt32 → Nat → List UInt8 → UInt32 × Nat × List UInt8
  | 0, flags, len, str => (flags, len, str)
  | fuel + 1, flags, len, str =>
    if isUpper (str.headD 0) then
      match sddlMapFlag map str with
      | none => (flags, len, str)
      | some (l, flag) => sddlMapFlagsLoop map fuel (flags ||| flag) (len + l) (str.drop l)
    else (flags, len, str)

/-- `sddl_map_flags`: the flags and the length of their codes. What follows them
must be the end of the string unless it is taken to start the next part. -/
def sddlMapFlags (map : List (List UInt8 × UInt32)) (str : List UInt8)
    (unknownFlagIsPartOfNextThing : Bool) : Option (UInt32 × Nat) :=
  let (flags, len, rest) := sddlMapFlagsLoop map str.length 0 0 str
  if rest = [] ∨ unknownFlagIsPartOfNextThing then some (flags, len) else none

structure AceTokens where
  toks : List (List UInt8)
  count : Nat
  extra : Bool
  rest : List UInt8

def aceTokenize (toks : List (List UInt8)) (cur : List UInt8) : List UInt8 → AceTokens
  | [] => ⟨toks ++ [cur], toks.length, false, []⟩
  | c :: s =>
    if c = 0x3b then
      if toks.length + 1 = 6 then ⟨toks ++ [cur, s], 6, true, s⟩
      else aceTokenize (toks ++ [cur]) [] s
    else if c = 0x29 then ⟨toks ++ [cur], toks.length + 1, false, s⟩
    else aceTokenize toks (cur ++ [c]) s

def securityAclRevisionAds : UInt16 := 4

section AceDecode

-- the rest of `sddl_decode_ace` once the type is read: the flags, access mask,
-- object GUIDs, trustee and trailing data from the tokens, and the string after the
-- ACE, or a message and its offset from the ACE's `(`
variable (decodeFields : AceType → AceTokens → Except (String × Nat) (SecurityAce × List UInt8))

/-- `sddl_decode_ace` up to its ACE type and trailing data checks. -/
def sddlDecodeAce (str : List UInt8) : Except (String × Nat) (SecurityAce × List UInt8) :=
  if str.headD 0 ≠ 0x28 then .error ("Not an ACE", 1) else
  let t := aceTokenize [] [] (str.drop 1)
  if t.count ≠ 6 then .error ("malformed ACE with only " ++ toString (t.count - 1) ++ " ';'", 1)
  else
    let tok := t.toks.headD []
    match sddlMapFlag aceTypes tok with
    | none => .error ("Unknown ACE type - " ++ bytesText tok, 1)
    | some (len, type) =>
      if tok.length ≠ len then .error ("Garbage after ACE type - " ++ bytesText tok, 1)
      else
        let offset := str.length - t.rest.length
        if secAceCallback type then
          if t.extra then decodeFields type t else .error ("callback ACE has no trailing data", offset)
        else if secAceResource type then
          if t.extra then decodeFields type t
          else .error ("resource attribute ACE has no trailing data", offset)
        else if t.extra then
          .error ("ACE has trailing section but is not a callback or resource ACE", offset)
        else decodeFields type t

def sddlDecodeAces (start : Nat) :
    Nat → List SecurityAce → List UInt8 → Except (Option String × Nat) (List SecurityAce × List UInt8)
  | 0, aces, str => .ok (aces, str)
  | fuel + 1, aces, str =>
    if str.headD 0 ≠ 0x28 then .ok (aces, str)
    else if aces.length > 65535 / 16 then .error (none, 1)
    else match sddlDecodeAce decodeFields str with
      | .error (msg, offset) => .error (some msg, offset + (start - str.length))
      | .ok (ace, rest) => sddlDecodeAces start fuel (aces ++ [ace]) rest

/-- `sddl_decode_acl` on what follows `D:` or `S:`: the ACL, its flags and the rest
of the string. -/
def sddlDecodeAcl (str : List UInt8) :
    Except (Option String × Nat) (SecurityAcl × UInt32 × List UInt8) :=
  if isUpper (str.headD 0) ∧ str.getD 1 0 = 0x3a then .ok (⟨securityAclRevisionAds, []⟩, 0, str)
  else
    let str := str.dropWhile (· == 0x20)
    match sddlMapFlags aclFlags str true with
    | none => .error (some "bad ACL flags", 0)
    | some (flags, len) =>
      let str := str.drop len
      if str.headD 0 ≠ 0x28 then .ok (⟨securityAclRevisionAds, []⟩, flags, str)
      else match sddlDecodeAces decodeFields str.length str.length [] str with
        | .error e => .error e
        | .ok (aces, rest) => .ok (⟨securityAclRevisionAds, aces⟩, flags, rest)

end AceDecode

theorem sddlMapFlag_aceTypes_code_iff (type : AceType) :
    ∃ s, sddlFlagsToString aceTypeFlags type.value true = some s ∧
      (sddlMapFlag aceTypes s = some (s.length, type) ↔ type ∈ aceTypes.map Prod.snd) := by
  cases type <;> exact ⟨_, rfl, by decide⟩

def aclFlagCodes (p ar ai : Bool) : List UInt8 :=
  (if p then [0x50] else []) ++ (if ar then [0x41, 0x52] else []) ++ (if ai then [0x41, 0x49] else [])

def aclFlagBits (p ar ai : Bool) : UInt32 :=
  (if p then secDescDaclProtected.toUInt32 else 0) |||
    (if ar then secDescDaclAutoInheritReq.toUInt32 else 0) |||
    (if ai then secDescDaclAutoInherited.toUInt32 else 0)

-- equation lemmas made once, before the proofs below use them in parallel
attribute [local simp] isUpper.eq_1 aceTokenize.eq_1 aclFlagCodes.eq_1
attribute [-simp] isUpper.eq_1 aceTokenize.eq_1 aclFlagCodes.eq_1

theorem find?_aclFlags_eq_none {x : UInt16} (hx : x &&& secDescDaclPresent ≠ 0) :
    aclFlags.find? (·.2 == x.toUInt32) = none := by
  rw [List.find?_eq_none]
  intro e he hbeq
  simp only [aclFlags, List.mem_cons, List.not_mem_nil, or_false] at he
  rw [beq_iff_eq] at hbeq
  rcases he with rfl | rfl | rfl <;> rw [UInt16.toUInt32_inj] at hbeq <;> subst hbeq <;>
    exact hx (by decide)

theorem and_not_and {f a b : UInt32} (h : ~~~a &&& b = b) : f &&& ~~~a &&& b = f &&& b := by
  rw [UInt32.and_assoc, h]

theorem sddlFlagsToString_aclFlags {x : UInt16} (hx : x &&& secDescDaclPresent ≠ 0) :
    sddlFlagsToString aclFlags x.toUInt32 false =
      some (aclFlagCodes (x.toUInt32 &&& secDescDaclProtected.toUInt32 != 0)
        (x.toUInt32 &&& secDescDaclAutoInheritReq.toUInt32 != 0)
        (x.toUInt32 &&& secDescDaclAutoInherited.toUInt32 != 0)) := by
  simp only [sddlFlagsToString, find?_aclFlags_eq_none hx]
  simp only [aclFlags, List.foldl_cons, List.foldl_nil]
  by_cases hp : x.toUInt32 &&& secDescDaclProtected.toUInt32 = 0 <;>
  by_cases har : x.toUInt32 &&& secDescDaclAutoInheritReq.toUInt32 = 0 <;>
  by_cases hai : x.toUInt32 &&& secDescDaclAutoInherited.toUInt32 = 0 <;>
  simp (disch := decide) [aclFlagCodes, hp, har, hai, and_not_and]

theorem sddlMapFlags_aclFlagCodes (p ar ai : Bool) (r : List UInt8) :
    sddlMapFlags aclFlags (aclFlagCodes p ar ai ++ 0x28 :: r) true =
      some (aclFlagBits p ar ai, (aclFlagCodes p ar ai).length) := by
  cases p <;> cases ar <;> cases ai <;>
    simp [sddlMapFlags, aclFlagCodes, aclFlagBits, sddlMapFlagsLoop, sddlMapFlag, aclFlags, isUpper]

theorem aceTokenize_append (toks : List (List UInt8)) (cur tok s : List UInt8)
    (htok : ∀ c ∈ tok, c ≠ 0x3b ∧ c ≠ 0x29) :
    aceTokenize toks cur (tok ++ s) = aceTokenize toks (cur ++ tok) s := by
  induction tok generalizing cur with
  | nil => simp
  | cons c tok ih =>
    obtain ⟨hsemi, hparen⟩ := htok c List.mem_cons_self
    rw [List.cons_append, aceTokenize, if_neg hsemi, if_neg hparen,
      ih _ fun c hc ↦ htok c (List.mem_cons_of_mem _ hc), List.append_assoc, List.singleton_append]

theorem aceTokenize_toks_headD (t0 : List UInt8) (toks : List (List UInt8)) (cur s : List UInt8) :
    (aceTokenize (t0 :: toks) cur s).toks.headD [] = t0 := by
  induction s generalizing toks cur with
  | nil => rfl
  | cons c s ih =>
    unfold aceTokenize
    split_ifs
    · rfl
    · exact ih _ _
    · rfl
    · exact ih _ _

theorem intercalate_semicolon (a b : List UInt8) (l : List (List UInt8)) :
    List.intercalate [0x3b] (a :: b :: l) = a ++ 0x3b :: List.intercalate [0x3b] (b :: l) := by
  simp [List.intercalate_cons_cons]

section Codecs

variable (encodeMask : UInt32 → List UInt8) (guidString : Guid → List UInt8)
  (encodeSid : DomSid → Option (List UInt8)) (encodeConditions : List UInt8 → Option (List UInt8))
  (encodeClaim : List UInt8 → Option (List UInt8)) (encodeAce : SecurityAce → Option (List UInt8))
  (decodeFields : AceType → AceTokens → Except (String × Nat) (SecurityAce × List UInt8))
  (decodeSid : List UInt8 → Option (DomSid × List UInt8))

theorem sddlTransitionEncodeAce_type {ace : SecurityAce} {s : List UInt8}
    (h : sddlTransitionEncodeAce encodeMask guidString encodeSid encodeConditions encodeClaim ace =
      some s) :
    ∃ type r, sddlFlagsToString aceTypeFlags ace.type.value true = some type ∧ s = type ++ 0x3b :: r := by
  simp only [sddlTransitionEncodeAce, Option.bind_eq_bind, Option.bind_eq_some_iff] at h
  obtain ⟨type, htype, flags, -, trustee, -, h⟩ := h
  simp only [List.cons_append, intercalate_semicolon] at h
  by_cases hcb : secAceCallback ace.type
  · rw [if_pos hcb] at h
    obtain ⟨c, -, hc⟩ := Option.bind_eq_some_iff.1 h
    exact ⟨type, _, htype, (Option.some.inj hc).symm⟩
  by_cases hres : secAceResource ace.type
  · rw [if_neg hcb, if_pos hres] at h
    obtain ⟨c, -, hc⟩ := Option.bind_eq_some_iff.1 h
    exact ⟨type, _, htype, (Option.some.inj hc).symm⟩
  · rw [if_neg hcb, if_neg hres] at h
    exact ⟨type, _, htype, (Option.some.inj h).symm⟩

theorem sddlEncode_firstDaclAce (type : UInt16) (sacl : Option SecurityAcl) (rev : UInt16)
    (ace : SecurityAce) (aces : List SecurityAce) (hpres : type &&& secDescDaclPresent ≠ 0)
    {t : List UInt8}
    (ht : sddlEncode encodeSid encodeAce ⟨type, none, none, sacl, some ⟨rev, ace :: aces⟩⟩ = some t) :
    ∃ a r, encodeAce ace = some a ∧
      t = 0x44 :: 0x3a :: (aclFlagCodes (type.toUInt32 &&& secDescDaclProtected.toUInt32 != 0)
        (type.toUInt32 &&& secDescDaclAutoInheritReq.toUInt32 != 0)
        (type.toUInt32 &&& secDescDaclAutoInherited.toUInt32 != 0) ++ 0x28 :: (a ++ r)) := by
  have hd : decide (type &&& secDescDaclPresent ≠ 0) = true := decide_eq_true hpres
  simp only [sddlEncode, encodeSidSection, encodeAclSection, hd, sddlEncodeAcl,
    sddlFlagsToString_aclFlags hpres, List.mapM_cons, Option.bind_eq_bind,
    Option.bind_eq_some_iff, Option.map_eq_some_iff, Option.pure_def, Option.some.injEq] at ht
  obtain ⟨_, rfl, _, rfl, _, ⟨_, ⟨_, rfl, _, ⟨a, ha, rest, -, rfl⟩, rfl⟩, rfl⟩, sa, -, rfl⟩ := ht
  refine ⟨a, 0x29 :: (rest.flatMap (fun ace ↦ [0x28] ++ ace ++ [0x29]) ++ sa), ha, ?_⟩
  simp only [List.flatMap_cons, List.nil_append, List.append_assoc, List.cons_append]

theorem sddlDecodeAce_typeCode_garbage (r : List UInt8) :
    ∃ e, sddlDecodeAce decodeFields (0x28 :: 0x4f :: 0x41 :: 0x4f :: 0x4c :: 0x3b :: r) = .error e := by
  have htok : (aceTokenize [] [] (0x4f :: 0x41 :: 0x4f :: 0x4c :: 0x3b :: r)).toks.headD [] =
      [0x4f, 0x41, 0x4f, 0x4c] := by
    rw [show 0x4f :: 0x41 :: 0x4f :: 0x4c :: 0x3b :: r = [0x4f, 0x41, 0x4f, 0x4c] ++ 0x3b :: r from rfl,
      aceTokenize_append _ _ _ _ (by simp), List.nil_append, aceTokenize, if_pos rfl, if_neg (by simp)]
    exact aceTokenize_toks_headD _ _ _ _
  have hmap : sddlMapFlag aceTypes [0x4f, 0x41, 0x4f, 0x4c] = some (2, .accessAllowedObject) := by
    decide
  rw [sddlDecodeAce, if_neg (by simp)]
  simp only [List.drop_one, List.tail_cons]
  by_cases hcount : (aceTokenize [] [] (0x4f :: 0x41 :: 0x4f :: 0x4c :: 0x3b :: r)).count ≠ 6
  · exact ⟨_, if_pos hcount⟩
  · rw [if_neg hcount, htok, hmap]
    exact ⟨_, if_pos (by decide)⟩

theorem sddlDecodeAcl_aclFlagCodes_start (p ar ai : Bool) (r : List UInt8) :
    ¬(isUpper ((aclFlagCodes p ar ai ++ 0x28 :: r).headD 0) = true ∧
      (aclFlagCodes p ar ai ++ 0x28 :: r).getD 1 0 = 0x3a) ∧
    (aclFlagCodes p ar ai ++ 0x28 :: r).dropWhile (· == 0x20) = aclFlagCodes p ar ai ++ 0x28 :: r := by
  cases p <;> cases ar <;> cases ai <;> simp [aclFlagCodes, isUpper]

theorem sddlDecodeAcl_typeCode_garbage (p ar ai : Bool) (r : List UInt8) :
    ∃ e, sddlDecodeAcl decodeFields
      (aclFlagCodes p ar ai ++ 0x28 :: 0x4f :: 0x41 :: 0x4f :: 0x4c :: 0x3b :: r) = .error e := by
  obtain ⟨hstart, hspace⟩ :=
    sddlDecodeAcl_aclFlagCodes_start p ar ai (0x4f :: 0x41 :: 0x4f :: 0x4c :: 0x3b :: r)
  obtain ⟨e, he⟩ := sddlDecodeAce_typeCode_garbage decodeFields r
  rw [sddlDecodeAcl, if_neg hstart]
  simp only [hspace, sddlMapFlags_aclFlagCodes, List.drop_left]
  rw [if_neg (by simp), List.length_cons, sddlDecodeAces, if_neg (by simp), if_neg (by simp), he]
  exact ⟨_, rfl⟩

end Codecs

def worldSid : DomSid := ⟨1, [0, 0, 0, 0, 0, 1], [0]⟩

def deniedCallbackObjectAce : SecurityAce :=
  ⟨.accessDeniedCallbackObject, 0, secStdReadControl, ⟨0, ⟨[]⟩, ⟨[]⟩⟩, worldSid, []⟩

def deniedCallbackObjectDacl : SecurityDescriptor :=
  ⟨secDescSelfRelative ||| secDescDaclPresent, none, none, none, some ⟨2, [deniedCallbackObjectAce]⟩⟩

example : (sddlEncode (fun _ ↦ some [0x57, 0x44])
    (sddlTransitionEncodeAce (fun _ ↦ [0x52, 0x43]) (fun _ ↦ []) (fun _ ↦ some [0x57, 0x44])
      (fun _ ↦ some [0x28, 0x29]) (fun _ ↦ none)) deniedCallbackObjectDacl).map
    (sddlDecodeErrMsg (sddlDecodeAcl fun _ _ ↦ .error ("", 0)) (fun _ ↦ none)) =
    some (.error (some "Garbage after ACE type - OAOL", 3)) := by
  decide

end Samba.Security.Sddl
