import Samba.Tdb.Freelist

namespace Samba.Tdb.Allocate

open Samba.Tdb.Io Samba.Tdb.Freelist

/-- `tdb_rec_free_read`: a record of the free list. One still marked in use is marked
free, as an interrupted delete leaves it; its `next` must be in the file. -/
def tdbRecFreeRead (off : Nat) : TdbM TdbRecord := do
  let record ← tdbRecReadRaw off
  let record ← if record.magic = tdbMagic then do
      let record := { record with magic := tdbFreeMagic }
      tdbRecWrite off record
      pure record
    else pure record
  if record.magic ≠ tdbFreeMagic then throw .corrupt
  if !inBounds (← get) record.next recordSize then throw .io
  return record

/-- `struct tdb_chainwalk_ctx`: a second pointer down the list, which moves on at every
other check. -/
structure ChainWalk where
  slowPtr : Nat
  slowChase : Bool

def tdbChainwalkInit (ptr : Nat) : ChainWalk := ⟨ptr, false⟩

/-- `tdb_chainwalk_check`: `none` for `false`, a failed read or a circular chain. -/
def tdbChainwalkCheck (f : TdbFile) (ctx : ChainWalk) (nextPtr : Nat) : Option ChainWalk := do
  let slowPtr ← if ctx.slowChase then peekU32 f ctx.slowPtr else some ctx.slowPtr
  if nextPtr = slowPtr then none else some ⟨slowPtr, !ctx.slowChase⟩

/-- `TDB_ALIGN(x, TDB_ALIGNMENT)` on a `tdb_len_t`. -/
def tdbAlign (x : Nat) : Nat := u32 (x + 3) &&& (2 ^ 32 - 4)

/-- `MIN_REC_SIZE`. -/
def minRecSize : Nat := recordSize + offSize + 8

/-- `tdb_allocate_ofs`: the whole record when what is left would be too small, unlinked
and marked in use, or else a new record of `length` cut from its end. -/
def tdbAllocateOfs (length recPtr : Nat) (record : TdbRecord) (lastPtr : Nat) : TdbM Nat := do
  if record.recLen < length + minRecSize then
    tdbOfsWrite lastPtr record.next
    tdbRecWrite recPtr { record with magic := tdbMagic }
    return recPtr
  else
    let record := { record with recLen := record.recLen - (length + recordSize) }
    tdbRecWrite recPtr record
    updateTailer recPtr record
    let recPtr := u32 (recPtr + recordSize + record.recLen)
    let record : TdbRecord := ⟨0, length, 0, 0, 0, tdbMagic⟩
    tdbRecWrite recPtr record
    updateTailer recPtr record
    return recPtr

structure Bestfit where
  recPtr : Nat
  lastPtr : Nat
  recLen : Nat

structure Walk where
  recPtr : Nat
  lastPtr : Nat
  chainwalk : ChainWalk
  modified : Bool
  bestfit : Bestfit
  multiplier : Float32
  mergeCreatedCandidate : Bool

def walkTurn (length : Nat) (w : Walk) : TdbM (Walk × Bool) := do
  let record ← tdbRecFreeRead w.recPtr
  match ← checkMergeWithLeftRecord w.recPtr record with
  | some (leftPtr, leftRec) =>
    tdbOfsWrite w.lastPtr record.next
    let bestfit :=
      if w.bestfit.recPtr = leftPtr then { w.bestfit with recLen := leftRec.recLen } else w.bestfit
    return ({ w with recPtr := record.next, bestfit, modified := true,
                     mergeCreatedCandidate := w.mergeCreatedCandidate || decide (leftRec.recLen > length) },
      false)
  | none =>
    let bestfit :=
      if record.recLen ≥ length ∧ (w.bestfit.recPtr = 0 ∨ record.recLen < w.bestfit.recLen) then
        ⟨w.recPtr, w.lastPtr, record.recLen⟩
      else w.bestfit
    let chainwalk ← if w.modified then pure w.chainwalk else
      match tdbChainwalkCheck (← get) w.chainwalk record.next with
      | some chainwalk => pure chainwalk
      | none => throw .corrupt
    if bestfit.recLen > 0 ∧ Float32.ofNat bestfit.recLen < Float32.ofNat length * w.multiplier then
      return ({ w with recPtr := record.next, lastPtr := w.recPtr, chainwalk, bestfit }, true)
    else
      return ({ w with recPtr := record.next, lastPtr := w.recPtr, chainwalk, bestfit,
                       multiplier := (w.multiplier.toFloat * 1.05).toFloat32 }, false)

def walk (length : Nat) : Nat → Walk → TdbM (Option Walk)
  | 0, _ => return none
  | fuel + 1, w =>
    if w.recPtr = 0 then return some w
    else do
      let (w, broke) ← walkTurn length w
      if broke then return some w else walk length fuel w

def walkInit (top : Nat) : Walk := ⟨top, freelistTop, tdbChainwalkInit top, false, ⟨0, 0, 0⟩, 1.0, false⟩

def allocateLoop (expand : Nat → TdbM Bool) (length : Nat) : Nat → TdbM (Option Nat)
  | 0 => return none
  | fuel + 1 => do
    let top ← tdbOfsRead freelistTop
    match ← walk length fuel (walkInit top) with
    | none => return none
    | some w =>
      if w.bestfit.recPtr ≠ 0 then do
        let record ← tdbRecFreeRead w.bestfit.recPtr
        let off ← tdbAllocateOfs length w.bestfit.recPtr record w.bestfit.lastPtr
        return some off
      else if w.mergeCreatedCandidate then allocateLoop expand length fuel
      else if ← expand (u32 (length + recordSize)) then allocateLoop expand length fuel
      else return some 0

def allocLength (length : Nat) : Nat :=
  tdbAlign (u32 ((Float.ofNat length * 1.25).toUInt32.toNat + offSize))

/-- `tdb_allocate_from_freelist(tdb, length, rec)`: the offset of the new record, `0` when
it fails, and `none` when `fuel` is not enough. `tdb_expand` is the parameter `expand`. -/
def tdbAllocateFromFreelist (expand : Nat → TdbM Bool) (length fuel : Nat) : TdbM (Option Nat) :=
  tryCatch (allocateLoop expand (allocLength length) fuel) fun _ ↦ pure (some 0)

def loopingFile : TdbFile :=
  ⟨withRecord (withRecord (setBytes (setBytes (fun _ ↦ 0) freelistTop (u32Bytes 240)) 400
      (recordBytes (freeRecord 400 0))) (176, freeRecord 0 40)) (240, freeRecord 400 40),
    512, 1, by decide⟩

def mergedFile : TdbFile := ((checkMergeWithLeftRecord 240 (freeRecord 400 40)).run.run loopingFile).2

def loopedFile : TdbFile := ((tdbOfsWrite freelistTop 400).run.run mergedFile).2

structure Looping (w : Walk) : Prop where
  recPtr : w.recPtr = 400
  modified : w.modified = true
  bestfit : w.bestfit.recLen = 0

-- equation lemmas made once, before the proofs below use them in parallel
attribute [local simp] walk.eq_1
attribute [-simp] walk.eq_1

theorem walkTurn_merges (length : Nat) :
    ∃ w, Looping w ∧
      (walkTurn length (walkInit 240)).run.run loopingFile = (.ok (w, false), loopedFile) := by
  have hread : (tdbRecFreeRead (walkInit 240).recPtr).run.run loopingFile =
      (.ok (freeRecord 400 40), loopingFile) := rfl
  have hmerge : (checkMergeWithLeftRecord (walkInit 240).recPtr (freeRecord 400 40)).run.run
      loopingFile = (.ok (some (176, freeRecord 0 104)), mergedFile) := Prod.ext rfl rfl
  have hunlink : (tdbOfsWrite (walkInit 240).lastPtr (freeRecord 400 40).next).run.run mergedFile =
      (.ok (), loopedFile) := Prod.ext rfl rfl
  unfold walkTurn
  rw [run_bind_ok hread, run_bind_ok hmerge]
  exact ⟨_, ⟨rfl, rfl, rfl⟩, run_bind_ok hunlink⟩

theorem walkTurn_looping (length : Nat) {w : Walk} (hw : Looping w) :
    ∃ w', Looping w' ∧ (walkTurn length w).run.run loopedFile = (.ok (w', false), loopedFile) := by
  have hread : (tdbRecFreeRead w.recPtr).run.run loopedFile = (.ok (freeRecord 400 0), loopedFile) := by
    rw [hw.recPtr]
    rfl
  have hmerge : (checkMergeWithLeftRecord w.recPtr (freeRecord 400 0)).run.run loopedFile =
      (.ok none, loopedFile) := by
    rw [hw.recPtr]
    rfl
  have hfit : (if (freeRecord 400 0).recLen ≥ length ∧
      (w.bestfit.recPtr = 0 ∨ (freeRecord 400 0).recLen < w.bestfit.recLen) then
        (⟨w.recPtr, w.lastPtr, (freeRecord 400 0).recLen⟩ : Bestfit) else w.bestfit).recLen = 0 := by
    split
    · rfl
    · exact hw.bestfit
  unfold walkTurn
  rw [run_bind_ok hread, run_bind_ok hmerge]
  simp only [hw.modified, if_true, pure_bind, hfit, Nat.lt_irrefl, false_and, if_false]
  refine ⟨_, ?_, rfl⟩
  exact ⟨rfl, rfl, hfit⟩

theorem walk_looping (length : Nat) :
    ∀ (fuel : Nat) (w : Walk), Looping w →
      (walk length fuel w).run.run loopedFile = (.ok none, loopedFile)
  | 0, _, _ => rfl
  | fuel + 1, w, hw => by
    obtain ⟨w', hw', hturn⟩ := walkTurn_looping length hw
    rw [walk, if_neg (by rw [hw.recPtr]; decide), run_bind_ok hturn]
    exact walk_looping length fuel w' hw'

theorem allocateLoop_looping (expand : Nat → TdbM Bool) (length : Nat) :
    ∀ fuel : Nat, ((allocateLoop expand length fuel).run.run loopingFile).1 = .ok none
  | 0 => rfl
  | fuel + 1 => by
    have htop : (tdbOfsRead freelistTop).run.run loopingFile = (.ok 240, loopingFile) := rfl
    have hwalk : ∃ f, (walk length fuel (walkInit 240)).run.run loopingFile = (.ok none, f) := by
      cases fuel with
      | zero => exact ⟨_, rfl⟩
      | succ fuel =>
        obtain ⟨w, hw, hturn⟩ := walkTurn_merges length
        refine ⟨loopedFile, ?_⟩
        rw [walk, if_neg (by decide), run_bind_ok hturn]
        exact walk_looping length fuel w hw
    obtain ⟨f, hf⟩ := hwalk
    rw [allocateLoop, run_bind_ok htop, run_bind_ok hf]
    rfl

theorem tdbAllocateFromFreelist_loops (expand : Nat → TdbM Bool) (length fuel : Nat) :
    ((tdbAllocateFromFreelist expand length fuel).run.run loopingFile).1 = .ok none := by
  obtain ⟨f, hf⟩ : ∃ f, (allocateLoop expand (allocLength length) fuel).run.run loopingFile =
      (.ok none, f) := ⟨_, Prod.ext (allocateLoop_looping expand _ fuel) rfl⟩
  rw [tdbAllocateFromFreelist, run_tryCatch_ok hf]

end Samba.Tdb.Allocate
