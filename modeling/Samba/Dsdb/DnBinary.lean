import Samba.Ldb.Dn
import Samba.Ldb.ParseRoundTrip

namespace Samba.Dsdb.DnBinary

open Samba.Lib.CString Samba.Ldb.Dn Samba.Ldb.Parse

/-- `enum dsdb_dn_format`, as `dsdb_dn_oid_to_format` picks it from the syntax. -/
inductive DsdbDnFormat
  | normalDn | binaryDn | stringDn | invalidDn
  deriving DecidableEq, Repr

structure DsdbDn where
  dnFormat : DsdbDnFormat
  extraPart : List UInt8
  dnString : List UInt8
  deriving DecidableEq, Repr

/-- `data_blob_hex_string_upper`. -/
def dataBlobHexStringUpper (blob : List UInt8) : List UInt8 :=
  blob.flatMap fun (b : UInt8) ↦ [hexDigitUpper (b >>> 4), hexDigitUpper (b &&& 0x0f)]

/-- `%*.*s` with width and precision `len`: at most `len` bytes of the C string,
right-justified in `len` columns. -/
def printPadded (len : Nat) (s : List UInt8) : List UInt8 :=
  let shown := (cString s).take len
  List.replicate (len - shown.length) 0x20 ++ shown

/-- `dsdb_dn_get_with_postfix`. -/
def dsdbDnGetWithPostfix (dsdbDn : DsdbDn) (dnStr : List UInt8) : Option (List UInt8) :=
  match dsdbDn.dnFormat with
  | .normalDn => some dnStr
  | .binaryDn =>
    some ([0x42, 0x3a] ++ formatUnsigned (dsdbDn.extraPart.length * 2 % 2 ^ 32) ++ [0x3a] ++
      dataBlobHexStringUpper dsdbDn.extraPart ++ [0x3a] ++ dnStr)
  | .stringDn =>
    some ([0x53, 0x3a] ++ formatUnsigned (dsdbDn.extraPart.length % 2 ^ 32) ++ [0x3a] ++
      printPadded dsdbDn.extraPart.length dsdbDn.extraPart ++ [0x3a] ++ dnStr)
  | .invalidDn => none

def afterExtendedComponents : List UInt8 → Option (List UInt8)
  | [] => none
  | 0x3e :: 0x3b :: rest => some ((afterExtendedComponents rest).getD rest)
  | _ :: rest => afterExtendedComponents rest

def ldbDnLinearizedOf (s : List UInt8) : List UInt8 :=
  if byteAt s 0 = 0x3c then (afterExtendedComponents s).getD [] else s

/-- `dsdb_dn_get_linearized`. -/
def dsdbDnGetLinearized (dsdbDn : DsdbDn) : Option (List UInt8) :=
  dsdbDnGetWithPostfix dsdbDn (ldbDnLinearizedOf dsdbDn.dnString)

def strhexToStrLoop : Nat → Nat → List UInt8 → List UInt8
  | 0, _, _ => []
  | _, 0, _ => []
  | pLen + 1, remaining + 1, s =>
    match hexByte s with
    | none => []
    | some b => b :: strhexToStrLoop pLen (remaining - 1) (s.drop 2)

/-- `strhex_to_str(p, p_len, strhex, strhex_len)`: the bytes it writes to `p`
and counts, after a leading `0x` is skipped. -/
def strhexToStr (pLen : Nat) (strhex : List UInt8) (strhexLen : Nat) : List UInt8 :=
  let skip := if byteAt strhex 0 = 0x30 ∧ (byteAt strhex 1 = 0x78 ∨ byteAt strhex 1 = 0x58)
    then 2 else 0
  strhexToStrLoop pLen (strhexLen - skip) (strhex.drop skip)

def extraPartOf (dnFormat : DsdbDnFormat) (blen : Nat) (p1 : List UInt8) : Option (List UInt8) :=
  if dnFormat = .binaryDn then
    if blen % 2 ≠ 0 then none
    else if 2 ≤ blen then
      let bval := strhexToStr (blen / 2 + 1) p1 blen
      if bval.length ≠ blen / 2 then none else some bval
    else some []
  else some (p1.take blen)

/-- `dsdb_dn_parse_trusted`. -/
def dsdbDnParseTrusted (dnFormat : DsdbDnFormat) (dnBlob : List UInt8) : Option DsdbDn :=
  if dnBlob.length = 0 then none else
  match dnFormat with
  | .invalidDn => none
  | .normalDn => if 0 ∈ dnBlob then none else some ⟨.normalDn, [], dnBlob⟩
  | .binaryDn | .stringDn =>
    let tag : UInt8 := if dnFormat = .binaryDn then 0x42 else 0x53
    if dnBlob.length < 2 ∨ byteAt dnBlob 0 ≠ tag ∨ byteAt dnBlob 1 ≠ 0x3a then none
    else if 0 ∈ dnBlob then none
    else
      let p1 := dnBlob.drop 2
      let (blen, endptr, error) := smbStrtoul 10 p1
      if error then none
      else if byteAt p1 endptr ≠ 0x3a then none else
      let len := dnBlob.length - 2 - endptr - 1
      let p1 := p1.drop (endptr + 1)
      let blen := blen.toNat % 2 ^ 32
      if len ≤ blen then none
      else if byteAt p1 blen ≠ 0x3a then none
      else (extraPartOf dnFormat blen p1).map fun bval ↦ ⟨dnFormat, bval, p1.drop (blen + 1)⟩

variable {α : Type} (extendedSyntaxByName : List UInt8 → Option (List UInt8 → Option α))

/-- `ldb_dn_validate` of a DN fresh from `ldb_dn_from_ldb_val`: whether it
explodes; a DN starting with `@` is special. -/
def ldbDnValidate (s : List UInt8) : Bool :=
  match (ldbDnExplode s extendedSyntaxByName (byteAt s 0 = 0x40)).1 with
  | .ok _ _ => true
  | .failed _ => false

/-- `dsdb_dn_parse`. -/
def dsdbDnParse (dnFormat : DsdbDnFormat) (dnBlob : List UInt8) : Option DsdbDn :=
  match dsdbDnParseTrusted dnFormat dnBlob with
  | none => none
  | some dsdbDn => if ldbDnValidate extendedSyntaxByName dsdbDn.dnString then some dsdbDn else none

def spaceCommasValue : DsdbDn :=
  ⟨.stringDn, [0x61], ldbDnGetLinearized [⟨[0x78], [0x61, 0x20, 0x2c, 0x2c, 0x2c, 0x2c], 6⟩]⟩

def plainValue : List UInt8 := [0x53, 0x3a, 0x31, 0x3a, 0x61, 0x3a, 0x44, 0x43, 0x3d, 0x78]
def plusValue : List UInt8 := [0x53, 0x3a, 0x2b, 0x31, 0x3a, 0x61, 0x3a, 0x44, 0x43, 0x3d, 0x78]
def wrappedValue : List UInt8 :=
  [0x53, 0x3a] ++ formatUnsigned (2 ^ 32 + 1) ++ [0x3a, 0x61, 0x3a, 0x44, 0x43, 0x3d, 0x78]
def colonValue : List UInt8 :=
  [0x53, 0x3a, 0x33, 0x3a, 0x61, 0x3a, 0x62, 0x3a, 0x44, 0x43, 0x3d, 0x78]

theorem dsdbDnParse_rejects_linearized :
    dsdbDnGetLinearized spaceCommasValue =
        some ([0x53, 0x3a, 0x31, 0x3a, 0x61, 0x3a] ++ spaceThenEscapedCommas) ∧
      dsdbDnParse noExtendedSyntax .stringDn
        ([0x53, 0x3a, 0x31, 0x3a, 0x61, 0x3a] ++ spaceThenEscapedCommas) = none ∧
      dsdbDnParse noExtendedSyntax .stringDn plusValue =
        some ⟨.stringDn, [0x61], [0x44, 0x43, 0x3d, 0x78]⟩ ∧
      dsdbDnParse noExtendedSyntax .stringDn wrappedValue =
        some ⟨.stringDn, [0x61], [0x44, 0x43, 0x3d, 0x78]⟩ ∧
      dsdbDnParse noExtendedSyntax .stringDn plainValue =
        some ⟨.stringDn, [0x61], [0x44, 0x43, 0x3d, 0x78]⟩ ∧
      dsdbDnParse noExtendedSyntax .stringDn colonValue =
        some ⟨.stringDn, [0x61, 0x3a, 0x62], [0x44, 0x43, 0x3d, 0x78]⟩ := by
  decide +kernel

end Samba.Dsdb.DnBinary
