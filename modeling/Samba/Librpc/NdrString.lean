import Samba.Librpc.NdrBasic
import Samba.Lib.CString

namespace Samba.Librpc.NdrString

open Samba.Librpc.NdrBasic Samba.Lib.CString

inductive Charset
  | unix | dos | utf8 | utf16 | utf16be
  deriving DecidableEq, Repr

def libndrStringFlags : UInt64 :=
  libndrFlagStrAscii ||| libndrFlagStrLen4 ||| libndrFlagStrSize4 ||| libndrFlagStrNoterm |||
    libndrFlagStrNullterm ||| libndrFlagStrSize2 ||| libndrFlagStrBytesize |||
    libndrFlagStrNoEmbeddedNul ||| libndrFlagStrConformant ||| libndrFlagStrCharlen |||
    libndrFlagStrUtf8 ||| libndrFlagStrRaw8

def libndrEncodingFlags : UInt64 := libndrFlagStrAscii ||| libndrFlagStrUtf8 ||| libndrFlagStrRaw8

def ndrStringEncoding (flags : UInt64) (be : Bool) : Except NdrErrCode (Charset × Nat × Bool) :=
  let chset := if be then Charset.utf16be else .utf16
  let enc := flags &&& libndrEncodingFlags
  if enc = 0 then .ok (chset, 2, true)
  else if enc = libndrFlagStrAscii then .ok (.dos, 1, true)
  else if enc = libndrFlagStrUtf8 then .ok (.utf8, 1, true)
  else if enc = libndrFlagStrRaw8 then .ok (chset, 1, false)
  else .error .string

/-- `ascii_len_n`: the bytes up to and including the first NUL among the first `n`. -/
def asciiLenN (src : List UInt8) (n : Nat) : Nat :=
  let len := strlen (src.take n)
  if len + 1 ≤ n then len + 1 else len

/-- `utf16_len_n`: the bytes before the first zero code unit among the first `n`. -/
def utf16LenN : List UInt8 → Nat → Nat
  | b0 :: b1 :: rest, n + 2 => if b0 = 0 ∧ b1 = 0 then 0 else utf16LenN rest n + 2
  | _, _ => 0

def utf16NullTerminatedLenN (src : List UInt8) (n : Nat) : Nat :=
  let len := utf16LenN src n
  if len + 2 ≤ n then len + 2 else len

/-- `ssize_t` to an unsigned `w`-bit integer. -/
def toUnsigned (w : Nat) (x : Int) : Nat := (x % 2 ^ w).toNat

section Convert

variable (convert : Charset → Charset → List UInt8 → Option (List UInt8))

def ndrPullStringLength (ndr : NdrPull) (flags : UInt64) (byteMul cLenTerm : Nat) :
    Except NdrErrCode (Nat × Nat × NdrPull) := do
  let layout := flags &&& libndrStringFlags
  if layout = libndrFlagStrLen4 ||| libndrFlagStrSize4 ∨
      layout = libndrFlagStrLen4 ||| libndrFlagStrSize4 ||| libndrFlagStrNoterm then
    let (len1, ndr) ← ndrPullUint32 ndr
    let (ofs, ndr) ← ndrPullUint32 ndr
    if ofs ≠ 0 then throw .string
    let (len2, ndr) ← ndrPullUint32 ndr
    if len2 > len1 then throw .string
    return ((len2 + cLenTerm) % 2 ^ 32, byteMul, ndr)
  else if layout = libndrFlagStrSize4 ∨ layout = libndrFlagStrSize4 ||| libndrFlagStrNoterm then
    let (len1, ndr) ← ndrPullUint32 ndr
    return ((len1 + cLenTerm) % 2 ^ 32, byteMul, ndr)
  else if layout = libndrFlagStrSize4 ||| libndrFlagStrNoterm ||| libndrFlagStrBytesize then
    let (len1, ndr) ← ndrPullUint32 ndr
    return (len1, 1, ndr)
  else if layout = libndrFlagStrLen4 ∨ layout = libndrFlagStrLen4 ||| libndrFlagStrNoterm then
    let (ofs, ndr) ← ndrPullUint32 ndr
    if ofs ≠ 0 then throw .string
    let (len1, ndr) ← ndrPullUint32 ndr
    return ((len1 + cLenTerm) % 2 ^ 32, byteMul, ndr)
  else if layout = libndrFlagStrSize2 ∨ layout = libndrFlagStrSize2 ||| libndrFlagStrNoterm then
    let (len3, ndr) ← ndrPullUint16 ndr
    return (len3 + cLenTerm, byteMul, ndr)
  else if layout = libndrFlagStrSize2 ||| libndrFlagStrNoterm ||| libndrFlagStrBytesize then
    let (len3, ndr) ← ndrPullUint16 ndr
    return (len3, 1, ndr)
  else if layout = libndrFlagStrNullterm then
    let rest := ndr.data.drop ndr.offset
    if byteMul = 1 then
      ndrPullNeedBytes ndr 1
      return (asciiLenN rest (ndr.data.length - ndr.offset), 1, ndr)
    else
      ndrPullNeedBytes ndr 2
      return (utf16NullTerminatedLenN rest (ndr.data.length - ndr.offset), 1, ndr)
  else if layout = libndrFlagStrNoterm then
    if ndr.flags &&& libndrFlagRemaining = 0 then throw .string
    return (ndr.data.length - ndr.offset, 1, ndr)
  else throw .string

def ndrPullString (ndr : NdrPull) : Except NdrErrCode (List UInt8 × NdrPull) := do
  let flags := ndr.flags &&& ~~~libndrFlagStrNoEmbeddedNul
  let (chset, byteMul, doConvert) ← ndrStringEncoding flags (ndrBe ndr.flags)
  let flags := flags &&& ~~~libndrEncodingFlags &&& ~~~libndrFlagStrConformant
  let (cLenTerm, flags) :=
    if flags &&& libndrFlagStrCharlen ≠ 0 then (1, flags &&& ~~~libndrFlagStrCharlen)
    else (0, flags)
  let (convSrcLen, byteMul, ndr) ← ndrPullStringLength ndr flags byteMul cLenTerm
  ndrPullNeedBytes ndr (convSrcLen * byteMul)
  let src := ndr.data.drop ndr.offset
  let (as, convertedSize) ←
    if convSrcLen = 0 then pure ([], 0)
    else if !doConvert then
      let as := cString (src.take convSrcLen)
      pure (as, min (strlen as + 1) convSrcLen)
    else
      match convert chset .unix (src.take (convSrcLen * byteMul)) with
      | none => throw .charcnv
      | some as => pure (as, as.length)
  if ndr.flags &&& libndrFlagStrNoterm ≠ 0 then
    if ndr.flags &&& libndrFlagStrNoEmbeddedNul ≠ 0 ∧ strlen as ≠ convertedSize then
      throw .charcnv
  else
    if ndr.flags &&& libndrFlagStrNoEmbeddedNul ≠ 0 ∧ convertedSize > 0 ∧
        strlen as ≠ convertedSize - 1 then
      throw .charcnv
  let ndr ← ndrPullAdvance ndr (convSrcLen * byteMul)
  return (cString as, ndr)

def ndrPushString (ndr : NdrPush) (s : List UInt8) : Except NdrErrCode NdrPush := do
  let flags := ndr.flags &&& ~~~libndrFlagStrNoEmbeddedNul
  let (chset, byteMul, doConvert) ← ndrStringEncoding flags (ndrBe ndr.flags)
  let flags := flags &&& ~~~libndrEncodingFlags &&& ~~~libndrFlagStrConformant
  let sLen := if flags &&& libndrFlagStrNoterm = 0 then strlen s + 1 else strlen s
  let src := (cString s ++ [0]).take sLen
  let dest ←
    if sLen = 0 then pure []
    else if !doConvert then pure src
    else
      match convert .unix chset src with
      | none => throw .charcnv
      | some d => pure d
  let (cLen, flags) : Int × UInt64 :=
    if flags &&& libndrFlagStrBytesize ≠ 0 then (dest.length, flags &&& ~~~libndrFlagStrBytesize)
    else if flags &&& libndrFlagStrCharlen ≠ 0 then
      ((dest.length / byteMul : Nat) - 1, flags &&& ~~~libndrFlagStrCharlen)
    else ((dest.length / byteMul : Nat), flags)
  let layout := flags &&& libndrStringFlags
  if layout = libndrFlagStrLen4 ||| libndrFlagStrSize4 ∨
      layout = libndrFlagStrLen4 ||| libndrFlagStrSize4 ||| libndrFlagStrNoterm then
    let ndr := ndrPushUint32 ndr (toUnsigned 32 cLen)
    let ndr := ndrPushUint32 ndr 0
    let ndr := ndrPushUint32 ndr (toUnsigned 32 cLen)
    return ndrPushBytes ndr dest
  else if layout = libndrFlagStrLen4 ∨ layout = libndrFlagStrLen4 ||| libndrFlagStrNoterm then
    let ndr := ndrPushUint32 ndr 0
    let ndr := ndrPushUint32 ndr (toUnsigned 32 cLen)
    return ndrPushBytes ndr dest
  else if layout = libndrFlagStrSize4 ∨ layout = libndrFlagStrSize4 ||| libndrFlagStrNoterm then
    return ndrPushBytes (ndrPushUint32 ndr (toUnsigned 32 cLen)) dest
  else if layout = libndrFlagStrSize2 ∨ layout = libndrFlagStrSize2 ||| libndrFlagStrNoterm then
    return ndrPushBytes (ndrPushUint16 ndr (toUnsigned 16 cLen)) dest
  else if layout = libndrFlagStrNullterm then
    return ndrPushBytes ndr dest
  else if ndr.flags &&& libndrFlagRemaining ≠ 0 then
    return ndrPushBytes ndr dest
  else throw .string

theorem ndrPullString_empty_charlen_size2 :
    ndrPushString convert
        ⟨[], libndrFlagStrSize2 ||| libndrFlagStrNoterm ||| libndrFlagStrCharlen⟩ [] =
      .ok ⟨[0xff, 0xff], libndrFlagStrSize2 ||| libndrFlagStrNoterm ||| libndrFlagStrCharlen⟩ ∧
    ndrPullString convert
        ⟨[0xff, 0xff], 0, libndrFlagStrSize2 ||| libndrFlagStrNoterm ||| libndrFlagStrCharlen⟩ =
      .error .bufsize :=
  ⟨rfl, rfl⟩

end Convert

end Samba.Librpc.NdrString
