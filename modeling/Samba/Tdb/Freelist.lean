import Samba.Tdb.Io

namespace Samba.Tdb.Freelist

open Samba.Tdb.Io

/-- `update_tailer`: the total size of the record in its last four bytes. -/
def updateTailer (offset : Nat) (rec : TdbRecord) : TdbM Unit :=
  let totalsize := u32 (recordSize + rec.recLen)
  tdbOfsWrite (u32 (offset + totalsize + 2 ^ 32 - offSize)) totalsize

/-- `read_record_on_left`: the record whose tailer is just before `recPtr`, if
the tailer is plausible; it changes nothing, and every failure is "no record". -/
def readRecordOnLeft (f : TdbFile) (recPtr : Nat) : Option (Nat × TdbRecord) :=
  let leftPtr := u32 (recPtr + 2 ^ 32 - offSize)
  if leftPtr ≤ tdbDataStart f.hashSize then none
  else match peekU32 f leftPtr with
    | none => none
    | some leftSize =>
      if leftSize = 0 ∨ leftSize = tdbPadU32 then none
      else if leftSize > recPtr then none
      else
        let leftPtr := recPtr - leftSize
        if leftPtr < tdbDataStart f.hashSize then none
        else (peekRecord f leftPtr).map (leftPtr, ·)

/-- `merge_with_left_record`: the left record grows over the right one. -/
def mergeWithLeftRecord (leftPtr : Nat) (leftRec rightRec : TdbRecord) : TdbM TdbRecord := do
  let leftRec := { leftRec with recLen := u32 (leftRec.recLen + recordSize + rightRec.recLen) }
  tdbRecWrite leftPtr leftRec
  updateTailer leftPtr leftRec
  return leftRec

/-- `check_merge_with_left_record`: `some` of the grown left record when it was
free and `rec` at `recPtr` went into it. -/
def checkMergeWithLeftRecord (recPtr : Nat) (rec : TdbRecord) :
    TdbM (Option (Nat × TdbRecord)) := do
  match readRecordOnLeft (← get) recPtr with
  | none => return none
  | some (leftPtr, leftRec) =>
    if leftRec.magic ≠ tdbFreeMagic then return none
    let leftRec ← mergeWithLeftRecord leftPtr leftRec rec
    return some (leftPtr, leftRec)

/-- `check_merge_ptr_with_left_record`: `some` of the `next` of the record at
`recPtr` when it went into a free left neighbour. -/
def checkMergePtrWithLeftRecord (recPtr : Nat) : TdbM (Option Nat) := do
  match readRecordOnLeft (← get) recPtr with
  | none => return none
  | some (leftPtr, leftRec) =>
    if leftRec.magic ≠ tdbFreeMagic then return none
    let rec ← tdbRecReadRaw recPtr
    let _ ← mergeWithLeftRecord leftPtr leftRec rec
    return some rec.next

/-- `tdb_free(offset, rec)`: merged into a free left neighbour, or else marked
free and put at the head of the list. -/
def tdbFree (offset : Nat) (rec : TdbRecord) : TdbM Unit := do
  updateTailer offset rec
  match ← checkMergeWithLeftRecord offset rec with
  | some _ => return
  | none =>
    let top ← tdbOfsRead freelistTop
    tdbRecWrite offset { rec with magic := tdbFreeMagic, next := top }
    tdbOfsWrite freelistTop offset

def mergeAdjacentLoop : Nat → Nat → Nat → Nat → TdbM (Nat × Nat)
  | 0, _, count, merged => return (count, merged)
  | fuel + 1, cur, count, merged => do
    match peekU32 (← get) cur with
    | none => return (count, merged)
    | some 0 => return (count, merged)
    | some next =>
      match ← checkMergePtrWithLeftRecord next with
      | none => mergeAdjacentLoop fuel next (count + 1) merged
      | some next2 =>
        tdbOfsWrite cur next2
        mergeAdjacentLoop fuel next2 (count + 1) (merged + 1)

/-- `tdb_freelist_merge_adjacent`: the counts of records and merges. The walk is
bounded by `2 ^ 32` turns; the C loop runs as long as the links lead on. -/
def tdbFreelistMergeAdjacent : TdbM (Nat × Nat) :=
  mergeAdjacentLoop (2 ^ 32) freelistTop 0 0

def tiling (f : TdbFile) : Nat → Nat → Option (List (Nat × TdbRecord))
  | 0, _ => none
  | fuel + 1, off =>
    if off = f.mapSize then some []
    else match peekRecord f off with
      | none => none
      | some rec => (tiling f fuel (off + recordSize + rec.recLen)).map ((off, rec) :: ·)

def tailerHolds (f : TdbFile) (tile : Nat × TdbRecord) : Bool :=
  offSize ≤ tile.2.recLen &&
    peekU32 f (tile.1 + recordSize + tile.2.recLen - offSize) == some (recordSize + tile.2.recLen)

def freelist (f : TdbFile) : Nat → Nat → Option (List Nat)
  | 0, _ => none
  | fuel + 1, ptr =>
    if ptr = 0 then some []
    else match peekRecord f ptr with
      | none => none
      | some rec => (freelist f fuel rec.next).map (ptr :: ·)

def freeSpaceInvariant (f : TdbFile) : Bool :=
  match tiling f (f.mapSize + 1) (tdbDataStart f.hashSize) with
  | none => false
  | some tiles =>
    tiles.all (tailerHolds f) &&
    match peekU32 f freelistTop with
    | none => false
    | some top =>
      match freelist f (tiles.length + 1) top with
      | none => false
      | some free => free.isPerm ((tiles.filter (·.2.magic == tdbFreeMagic)).map (·.1))

def withRecord (bytes : Nat → UInt8) (tile : Nat × TdbRecord) : Nat → UInt8 :=
  setBytes (setBytes bytes (tile.1 + recordSize + tile.2.recLen - offSize)
    (u32Bytes (recordSize + tile.2.recLen))) tile.1 (recordBytes tile.2)

def freeRecord (next recLen : Nat) : TdbRecord := ⟨next, recLen, 0, 0, 0, tdbFreeMagic⟩
def usedRecord (recLen : Nat) : TdbRecord := ⟨0, recLen, 0, 0, 0, tdbMagic⟩

/-- `TDB_MAGIC_FOOD`, at the start of the header. -/
def tdbMagicFood : List UInt8 := [0x54, 0x44, 0x42, 0x20, 0x66, 0x69, 0x6c, 0x65, 0x0a]

def offsetTdbSpace : Nat := 0x20424454

def adjacentFreeTiles : List (Nat × TdbRecord) :=
  [(176, freeRecord 240 40), (240, freeRecord offsetTdbSpace 40), (304, usedRecord 40),
    (368, freeRecord 176 40), (432, freeRecord 0 40),
    (496, usedRecord (offsetTdbSpace - 64 - 496 - recordSize)),
    (offsetTdbSpace - 64, freeRecord 368 40), (offsetTdbSpace, freeRecord 432 40)]

def adjacentFreeFile : TdbFile :=
  ⟨adjacentFreeTiles.foldl withRecord
      (setBytes (setBytes (fun _ ↦ 0) 0 tdbMagicFood) freelistTop (u32Bytes (offsetTdbSpace - 64))),
    offsetTdbSpace + 64, 1, by decide⟩

theorem tdbFreelistMergeAdjacent_walks_from_header :
    freeSpaceInvariant adjacentFreeFile = true ∧
    getU32 adjacentFreeFile.bytes 0 = offsetTdbSpace ∧
    ((tdbFreelistMergeAdjacent.run adjacentFreeFile).run.1).toOption = some (6, 3) ∧
    freelist (tdbFreelistMergeAdjacent.run adjacentFreeFile).run.2 10 (offsetTdbSpace - 64) =
      some [offsetTdbSpace - 64, 368, 176, offsetTdbSpace] ∧
    (tiling (tdbFreelistMergeAdjacent.run adjacentFreeFile).run.2 (offsetTdbSpace + 65) 176).map
      (·.map (·.1)) = some [176, 304, 368, 496, offsetTdbSpace - 64] ∧
    freeSpaceInvariant (tdbFreelistMergeAdjacent.run adjacentFreeFile).run.2 = false ∧
    getU32 (tdbFreelistMergeAdjacent.run adjacentFreeFile).run.2.bytes 0 = 0 := by
  decide +kernel

end Samba.Tdb.Freelist
