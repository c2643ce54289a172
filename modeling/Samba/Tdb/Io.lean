import Mathlib

namespace Samba.Tdb.Io

structure TdbFile where
  bytes : Nat → UInt8
  mapSize : Nat
  hashSize : Nat
  mapSize_lt : mapSize < 2 ^ 32

inductive TdbError
  | io | corrupt
  deriving DecidableEq, Repr

abbrev TdbM := ExceptT TdbError (StateM TdbFile)

/-- `struct tdb_record`. -/
structure TdbRecord where
  next : Nat
  recLen : Nat
  keyLen : Nat
  dataLen : Nat
  fullHash : Nat
  magic : Nat
  deriving DecidableEq, Repr

def tdbMagic : Nat := 0x26011999
def tdbFreeMagic : Nat := 0xffffffff - tdbMagic
def tdbPadU32 : Nat := 0x42424242

def recordSize : Nat := 24

def offSize : Nat := 4

/-- `FREELIST_TOP`, `sizeof(struct tdb_header)`. -/
def freelistTop : Nat := 168

def tdbHashTop (hashSize hash : Nat) : Nat := freelistTop + (hash % hashSize + 1) * offSize

def tdbDataStart (hashSize : Nat) : Nat := tdbHashTop hashSize (hashSize - 1) + offSize

def u32 (n : Nat) : Nat := n % 2 ^ 32

def u32Bytes (v : Nat) : List UInt8 :=
  [UInt8.ofNat v, UInt8.ofNat (v / 2 ^ 8), UInt8.ofNat (v / 2 ^ 16), UInt8.ofNat (v / 2 ^ 24)]

def getU32 (bytes : Nat → UInt8) (off : Nat) : Nat :=
  (bytes off).toNat + (bytes (off + 1)).toNat * 2 ^ 8 + (bytes (off + 2)).toNat * 2 ^ 16 +
    (bytes (off + 3)).toNat * 2 ^ 24

def recordBytes (rec : TdbRecord) : List UInt8 :=
  u32Bytes rec.next ++ u32Bytes rec.recLen ++ u32Bytes rec.keyLen ++ u32Bytes rec.dataLen ++
    u32Bytes rec.fullHash ++ u32Bytes rec.magic

def getRecord (bytes : Nat → UInt8) (off : Nat) : TdbRecord :=
  ⟨getU32 bytes off, getU32 bytes (off + 4), getU32 bytes (off + 8), getU32 bytes (off + 12),
    getU32 bytes (off + 16), getU32 bytes (off + 20)⟩

def setBytes (bytes : Nat → UInt8) (off : Nat) (data : List UInt8) : Nat → UInt8 :=
  fun i ↦ if off ≤ i ∧ i < off + data.length then data.getD (i - off) 0 else bytes i

/-- `tdb_oob(tdb, off, len)` for a file that no other process has grown. -/
def inBounds (f : TdbFile) (off len : Nat) : Bool := off + len ≤ f.mapSize

/-- `tdb_ofs_read`, which changes nothing, as a lookup. -/
def peekU32 (f : TdbFile) (off : Nat) : Option Nat :=
  if inBounds f off offSize then some (getU32 f.bytes off) else none

def peekRecord (f : TdbFile) (off : Nat) : Option TdbRecord :=
  if inBounds f off recordSize then some (getRecord f.bytes off) else none

def tdbOfsRead (off : Nat) : TdbM Nat := do
  match peekU32 (← get) off with
  | some v => return v
  | none => throw .io

def tdbRecReadRaw (off : Nat) : TdbM TdbRecord := do
  match peekRecord (← get) off with
  | some rec => return rec
  | none => throw .io

def tdbOfsWrite (off v : Nat) : TdbM Unit := do
  let f ← get
  if inBounds f off offSize then set { f with bytes := setBytes f.bytes off (u32Bytes v) }
  else throw .io

def tdbRecWrite (off : Nat) (rec : TdbRecord) : TdbM Unit := do
  let f ← get
  if inBounds f off recordSize then set { f with bytes := setBytes f.bytes off (recordBytes rec) }
  else throw .io

theorem run_bind_ok {α β : Type} {x : TdbM α} {g : α → TdbM β} {f f' : TdbFile} {a : α}
    (hx : x.run.run f = (.ok a, f')) : (x >>= g).run.run f = (g a).run.run f' := by
  simp only [ExceptT.run_bind, StateT.run_bind, hx]
  rfl

theorem run_tryCatch_ok {α : Type} {x : TdbM α} {h : TdbError → TdbM α} {f f' : TdbFile}
    {a : α} (hx : x.run.run f = (.ok a, f')) : (tryCatch x h).run.run f = (.ok a, f') := by
  show (ExceptT.tryCatch x h).run.run f = _
  simp only [ExceptT.tryCatch, ExceptT.run_mk, StateT.run_bind]
  rw [show StateT.run x f = (Except.ok a, f') from hx]
  rfl

end Samba.Tdb.Io
