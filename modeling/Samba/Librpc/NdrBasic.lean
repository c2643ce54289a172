import Mathlib

namespace Samba.Librpc.NdrBasic

def libndrFlagBigendian : UInt64 := 0x1
def libndrFlagNoalign : UInt64 := 0x2
def libndrFlagStrAscii : UInt64 := 0x4
def libndrFlagStrLen4 : UInt64 := 0x8
def libndrFlagStrSize4 : UInt64 := 0x10
def libndrFlagStrNoterm : UInt64 := 0x20
def libndrFlagStrNullterm : UInt64 := 0x40
def libndrFlagStrSize2 : UInt64 := 0x80
def libndrFlagStrBytesize : UInt64 := 0x100
def libndrFlagStrNoEmbeddedNul : UInt64 := 0x200
def libndrFlagStrConformant : UInt64 := 0x400
def libndrFlagStrCharlen : UInt64 := 0x800
def libndrFlagStrUtf8 : UInt64 := 0x1000
def libndrFlagStrRaw8 : UInt64 := 0x2000
def libndrFlagRemaining : UInt64 := 0x200000
def libndrFlagLittleEndian : UInt64 := 0x8000000

/-- `NDR_BE`: big-endian only where `BIGENDIAN` is set and `LITTLE_ENDIAN` is not. -/
def ndrBe (flags : UInt64) : Bool :=
  flags &&& (libndrFlagBigendian ||| libndrFlagLittleEndian) == libndrFlagBigendian

inductive NdrErrCode
  | charcnv | string | bufsize
  deriving DecidableEq, Repr

structure NdrPull where
  data : List UInt8
  offset : Nat
  flags : UInt64
  deriving DecidableEq, Repr

def alignUp (ofs n : Nat) : Nat := (ofs + (n - 1)) / n * n

/-- `NDR_PULL_ALIGN`; the padding check only logs, and is left out. -/
def ndrPullAlign (ndr : NdrPull) (n : Nat) : NdrPull :=
  if ndr.flags &&& libndrFlagNoalign = 0 then { ndr with offset := alignUp ndr.offset n } else ndr

/-- `NDR_PULL_NEED_BYTES`. -/
def ndrPullNeedBytes (ndr : NdrPull) (n : Nat) : Except NdrErrCode Unit :=
  if n > ndr.data.length ∨ ndr.offset + n > ndr.data.length then .error .bufsize else .ok ()

def pullU8 (ndr : NdrPull) (ofs : Nat) : Nat := (ndr.data.getD ofs 0).toNat

/-- `NDR_PULL_U16`. -/
def ndrPullU16 (ndr : NdrPull) (ofs : Nat) : Nat :=
  if ndrBe ndr.flags then pullU8 ndr ofs * 2 ^ 8 + pullU8 ndr (ofs + 1)
  else pullU8 ndr ofs + pullU8 ndr (ofs + 1) * 2 ^ 8

/-- `NDR_PULL_U32`. -/
def ndrPullU32 (ndr : NdrPull) (ofs : Nat) : Nat :=
  if ndrBe ndr.flags then ndrPullU16 ndr ofs * 2 ^ 16 + ndrPullU16 ndr (ofs + 2)
  else ndrPullU16 ndr ofs + ndrPullU16 ndr (ofs + 2) * 2 ^ 16

def ndrPullUint16 (ndr : NdrPull) : Except NdrErrCode (Nat × NdrPull) := do
  let ndr := ndrPullAlign ndr 2
  ndrPullNeedBytes ndr 2
  return (ndrPullU16 ndr ndr.offset, { ndr with offset := ndr.offset + 2 })

def ndrPullUint32 (ndr : NdrPull) : Except NdrErrCode (Nat × NdrPull) := do
  let ndr := ndrPullAlign ndr 4
  ndrPullNeedBytes ndr 4
  return (ndrPullU32 ndr ndr.offset, { ndr with offset := ndr.offset + 4 })

def ndrPullAdvance (ndr : NdrPull) (size : Nat) : Except NdrErrCode NdrPull := do
  ndrPullNeedBytes ndr size
  return { ndr with offset := ndr.offset + size }

structure NdrPush where
  data : List UInt8
  flags : UInt64
  deriving DecidableEq, Repr

/-- `NDR_PUSH_ALIGN`: zero bytes up to the next multiple of `n`. -/
def ndrPushAlign (ndr : NdrPush) (n : Nat) : NdrPush :=
  if ndr.flags &&& libndrFlagNoalign = 0 then
    { ndr with data := ndr.data ++ List.replicate (alignUp ndr.data.length n - ndr.data.length) 0 }
  else ndr

/-- `NDR_PUSH_U16` of `v`, taken as a `uint16_t`. -/
def ndrPushU16 (be : Bool) (v : Nat) : List UInt8 :=
  if be then [UInt8.ofNat (v % 2 ^ 16 / 2 ^ 8), UInt8.ofNat v]
  else [UInt8.ofNat v, UInt8.ofNat (v % 2 ^ 16 / 2 ^ 8)]

/-- `NDR_PUSH_U32` of `v`, taken as a `uint32_t`. -/
def ndrPushU32 (be : Bool) (v : Nat) : List UInt8 :=
  if be then ndrPushU16 be (v % 2 ^ 32 / 2 ^ 16) ++ ndrPushU16 be (v % 2 ^ 32 % 2 ^ 16)
  else ndrPushU16 be (v % 2 ^ 32 % 2 ^ 16) ++ ndrPushU16 be (v % 2 ^ 32 / 2 ^ 16)

def ndrPushUint16 (ndr : NdrPush) (v : Nat) : NdrPush :=
  let ndr := ndrPushAlign ndr 2
  { ndr with data := ndr.data ++ ndrPushU16 (ndrBe ndr.flags) v }

def ndrPushUint32 (ndr : NdrPush) (v : Nat) : NdrPush :=
  let ndr := ndrPushAlign ndr 4
  { ndr with data := ndr.data ++ ndrPushU32 (ndrBe ndr.flags) v }

def ndrPushBytes (ndr : NdrPush) (bytes : List UInt8) : NdrPush :=
  { ndr with data := ndr.data ++ bytes }

end Samba.Librpc.NdrBasic
