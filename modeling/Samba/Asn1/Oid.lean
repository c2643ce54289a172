import Samba.Lib.CString

namespace Samba.Asn1.Oid

open Samba.Lib.CString

def base128Groups (n : Nat) : List Nat :=
  if n < 128 then [n] else base128Groups (n / 128) ++ [n % 128]
decreasing_by omega

def encodeSubidentifier (n : Nat) : List UInt8 :=
  let groups := base128Groups n
  (groups.dropLast.map fun (g : Nat) ↦ (g + 0x80).toUInt8) ++ [(groups.getLast?.getD 0).toUInt8]

def x690Encoding : List Nat → List UInt8
  | a0 :: a1 :: arcs => ((40 * a0 + a1) :: arcs).flatMap fun (n : Nat) ↦ encodeSubidentifier n
  | _ => []

def oidString : List Nat → List UInt8
  | [] => []
  | a :: arcs => formatUnsigned a ++ arcs.flatMap fun (a : Nat) ↦ 0x2e :: formatUnsigned a

def arcBytes (v : UInt64) : List UInt8 :=
  (if ((1 : UInt64) <<< 28) ≤ v then [(0x80 : UInt8) ||| ((v >>> 28) &&& 0x7f).toUInt8] else []) ++
  (if ((1 : UInt64) <<< 21) ≤ v then [(0x80 : UInt8) ||| ((v >>> 21) &&& 0x7f).toUInt8] else []) ++
  (if ((1 : UInt64) <<< 14) ≤ v then [(0x80 : UInt8) ||| ((v >>> 14) &&& 0x7f).toUInt8] else []) ++
  (if ((1 : UInt64) <<< 7) ≤ v then [(0x80 : UInt8) ||| ((v >>> 7) &&& 0x7f).toUInt8] else []) ++
  [(v &&& 0x7f).toUInt8]

def writeArcs (oid : List UInt8) : Nat → Nat → Option (List UInt8)
  | 0, _ => some []
  | fuel + 1, p =>
    if byteAt oid p = 0 then some []
    else if !isDigit (byteAt oid p) then none
    else
      let (v, n, error) := smbStrtoul 10 (oid.drop p)
      let newp := p + n
      let next : Option Nat :=
        if byteAt oid newp = 0x2e ∨ error then
          if byteAt oid (newp + 1) = 0 then none else some (newp + 1)
        else if byteAt oid newp = 0 then some newp
        else none
      match next with
      | none => none
      | some p => (arcBytes v ++ ·) <$> writeArcs oid fuel p

/-- `ber_write_OID_String`: the content octets, or `none` where it returns
`false`. The first byte is `40 * v + v2` stored in a `uint8_t`. -/
def berWriteOidString (oid : List UInt8) : Option (List UInt8) :=
  if !isDigit (byteAt oid 0) then none else
  let (v, n, error) := smbStrtoul 10 oid
  if byteAt oid n ≠ 0x2e ∨ error then none else
  let p := n + 1
  if !isDigit (byteAt oid p) then none else
  let (v2, n2, error2) := smbStrtoul 10 (oid.drop p)
  if byteAt oid (p + n2) ≠ 0x2e ∨ error2 then none else
  (((40 * v + v2).toUInt8) :: ·) <$> writeArcs oid (oid.length + 1) (p + n2 + 1)

def readSubidentifiers : List UInt8 → UInt32 → Nat → Nat → List UInt8 × Nat
  | [], _, _, eaten => ([], eaten)
  | b :: bs, v, i, eaten =>
    let v := (v <<< 7) ||| (b &&& 0x7f).toUInt32
    if b &&& 0x80 = 0 then
      let (s, eaten) := readSubidentifiers bs 0 (i + 1) (i + 1)
      (0x2e :: formatUnsigned v.toNat ++ s, eaten)
    else readSubidentifiers bs v (i + 1) eaten

/-- `_ber_read_OID_String_impl`: the string and `bytes_eaten`. -/
def berReadOidStringImpl (blob : List UInt8) : Option (List UInt8 × Nat) :=
  match blob with
  | b0 :: rest@(_ :: _) =>
    let (arcs, eaten) := readSubidentifiers rest 0 1 0
    some (formatUnsigned (b0.toNat / 40) ++ 0x2e :: formatUnsigned (b0.toNat % 40) ++ arcs, eaten)
  | _ => none

def berReadOidString (blob : List UInt8) : Option (List UInt8) :=
  match berReadOidStringImpl blob with
  | none => none
  | some (oid, eaten) => if eaten = blob.length then some oid else none

def oid2481 : List UInt8 := oidString [2, 48, 1]

theorem berWriteOidString_truncates_first :
    berWriteOidString oid2481 = some [0x80, 0x01] ∧
      x690Encoding [2, 48, 1] = [0x81, 0x00, 0x01] ∧
      berReadOidString [0x80, 0x01] = some (oidString [3, 8, 1]) ∧
      berReadOidString [0x2a, 0x80, 0x01] = some (oidString [1, 2, 1]) ∧
      berReadOidString [0x2a, 0x01] = some (oidString [1, 2, 1]) := by
  decide +kernel

end Samba.Asn1.Oid
