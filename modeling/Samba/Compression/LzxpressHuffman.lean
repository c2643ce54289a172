import Samba.Lib.ReadLog
import Samba.Lib.PrefixCode

namespace Samba.Compression.LzxpressHuffman

open Samba.Lib.ReadLog Samba.Lib.PrefixCode Samba.Lib.PrefixCode.Node

inductive Access
  | input (i : Nat)
  | write (i : Nat)
  | copy (src : Int) (dst : Nat)
  | fill
  | setTable (i : Nat)
  | getTable (i : Nat)
  deriving DecidableEq, Repr

inductive Failure
  | error
  | fuel
  deriving DecidableEq, Repr

abbrev Huff := Logged Access Failure

/-- `struct bitstream` without `bytes` and `byte_size`, which do not change; `table` is
the `uint16_t table[65536]` of `lzxpress_huffman_decompress`. -/
structure Bitstream where
  bytePos : Nat
  bits : Nat
  remainingBits : Nat
  table : Nat → Nat

structure BlockState where
  output : List UInt8
  index : Nat
  distanceBitsWanted : Nat
  distance : Nat
  length : Nat

structure CodeState where
  code : Int
  prevLen : Nat
  len : Nat
  table : Nat → Nat

section Decompress

variable (input : Nat → UInt8) (byteSize : Nat)

def inputByte (i : Nat) : Huff Nat := do
  logEvent (.input i)
  return (input i).toNat

/-- `PULL_LE_U8`, `PULL_LE_U16` and `PULL_LE_U32`: `width` bytes from `pos`, the lowest
first. -/
def pullLe (pos : Nat) : Nat → Huff Nat
  | 0 => pure 0
  | width + 1 => do
    let lo ← inputByte input pos
    let hi ← pullLe (pos + 1) width
    return lo + hi * 2 ^ 8

/-- `CHECK_READ_8`, `CHECK_READ_16` and `CHECK_READ_32`: `width` bytes at `byte_pos`
when the input has them. -/
def checkRead (width : Nat) (bs : Bitstream) : Huff (Nat × Bitstream) :=
  if bs.bytePos + width > byteSize then throw .error
  else do
    let v ← pullLe input bs.bytePos width
    return (v, { bs with bytePos := bs.bytePos + width })

def checkRead8 (bs : Bitstream) : Huff (Nat × Bitstream) := checkRead input byteSize 1 bs

def checkRead16 (bs : Bitstream) : Huff (Nat × Bitstream) := checkRead input byteSize 2 bs

def checkRead32 (bs : Bitstream) : Huff (Nat × Bitstream) := checkRead input byteSize 4 bs

/-- `pull_bits`: 16 more bits, or the 8 of the last byte. -/
def pullBits (bs : Bitstream) : Huff Bitstream :=
  if bs.bytePos + 1 < byteSize then do
    let (tmp, bs) ← checkRead16 input byteSize bs
    return { bs with remainingBits := bs.remainingBits + 16, bits := (bs.bits <<< 16) % 2 ^ 32 ||| tmp }
  else if bs.bytePos < byteSize then do
    let (tmp, bs) ← checkRead8 input byteSize bs
    return { bs with remainingBits := bs.remainingBits + 8, bits := (bs.bits <<< 8) % 2 ^ 32 ||| tmp }
  else throw .error

def refill (bs : Bitstream) : Huff Bitstream :=
  if bs.remainingBits = 16 then pullBits input byteSize bs else pure bs

def nextBit (bs : Bitstream) : Huff (Nat × Bitstream) := do
  let bs ← refill input byteSize bs
  let bs := { bs with remainingBits := bs.remainingBits - 1 }
  return ((bs.bits >>> bs.remainingBits) &&& 1, bs)

def readTable (bs : Bitstream) (i : Nat) : Huff Nat := do
  logEvent (.getTable i)
  return bs.table i

def writeTable (table : Nat → Nat) (i v : Nat) : Huff (Nat → Nat) := do
  logEvent (.setTable i)
  return fun j ↦ if j = i then v else table j

def tableSymbols (tableBytes : List Nat) : List Nat :=
  tableBytes.zipIdx.flatMap fun (b, i) ↦
    (if b &&& 15 ≠ 0 then [((b &&& 15) <<< 9) + i * 2] else []) ++
      (if b >>> 4 ≠ 0 then [((b >>> 4) <<< 9) + i * 2 + 1] else [])

def lengthen : Nat → Int → Int
  | 0, code => code
  | n + 1, code => lengthen n (code * 2 + 1)

def markPrefixes (table : Nat → Nat) (pfx : Nat) : Huff (Nat → Nat) :=
  if 31 < pfx then do
    let table ← writeTable table pfx 0xffff
    markPrefixes table ((pfx - 1) / 2)
  else pure table
termination_by pfx
decreasing_by omega

def assignCode (st : CodeState) (s : Nat) : Huff CodeState := do
  let len := (s >>> 9) &&& 15
  let code := lengthen (len - st.prevLen) (st.code + 1)
  if code ≥ 65535 then throw .error
  else do
    let table ← writeTable st.table code.toNat (s &&& 511)
    let table ← markPrefixes table ((code.toNat - 1) / 2)
    return ⟨code, len, len, table⟩

/-- `fill_decomp_table`: the canonical code of the block's lengths, as a table in heap
order (the children of `i` are `2 * i + 1` and `2 * i + 2`), with its symbol at a code
and `0xffff` at a proper prefix of one and in the first 32 entries. -/
def fillDecompTable (bs : Bitstream) : Huff Bitstream := do
  logEvent .fill
  if bs.bytePos + 260 > byteSize then throw .error
  else do
    let tableBytes ← (List.range 256).mapM fun i ↦ inputByte input (bs.bytePos + i)
    let symbols := tableSymbols tableBytes
    if symbols = [] then throw .error
    else do
      let table ← (List.range 32).foldlM (fun t i ↦ writeTable t i 0xffff) bs.table
      let st ← (symbols.mergeSort fun a b ↦ decide (a ≤ b)).foldlM assignCode ⟨-1, 0, 0, table⟩
      if st.code ≠ 2 ^ (st.len + 1) - 2 then throw .error
      else return { bs with bytePos := bs.bytePos + 256, table := st.table }

def matchLength (bs : Bitstream) (length : Nat) : Huff (Nat × Bitstream) :=
  if length = 15 then do
    let (tmp, bs) ← checkRead8 input byteSize bs
    if length + tmp = 255 + 15 then do
      let (length, bs) ← checkRead16 input byteSize bs
      if length = 0 then checkRead32 input byteSize bs else return (length, bs)
    else return (length + tmp, bs)
  else return (length, bs)

def copyMatch (distance : Nat) : Nat → List UInt8 → Huff (List UInt8)
  | 0, output => pure output
  | length + 1, output => do
    logEvent (.copy ((output.length : Int) - distance) output.length)
    copyMatch distance length (output ++ [output.getD (output.length - distance) 0])

variable (outputSize previousSize : Nat)

def completeMatch (bs : Bitstream) (blk : BlockState) : Huff (Bitstream × BlockState) :=
  if blk.distanceBitsWanted = 0 then
    if (blk.output.length - previousSize) + blk.length > outputSize ∨
        previousSize + (blk.output.length - previousSize) < blk.distance then throw .error
    else do
      let output ← copyMatch blk.distance blk.length blk.output
      return (bs, { blk with output, distance := 0, length := 0 })
  else return (bs, blk)

def decodeTurn (bs : Bitstream) (blk : BlockState) : Huff (Bitstream × BlockState) := do
  let (b, bs) ← nextBit input byteSize bs
  if blk.length = 0 then
    let index := (blk.index <<< 1) + b + 1
    let entry ← readTable bs index
    if entry = 0xffff then return (bs, { blk with index })
    else
      let symbol := entry &&& 511
      if symbol < 256 then do
        logEvent (.write blk.output.length)
        return (bs, { blk with index := 0, output := blk.output ++ [UInt8.ofNat symbol] })
      else do
        let distanceBitsWanted := (symbol >>> 4) &&& 15
        let (length, bs) ← matchLength input byteSize bs (symbol &&& 15)
        completeMatch outputSize previousSize bs
          { blk with index := 0, distanceBitsWanted := distanceBitsWanted,
                     distance := 1 <<< distanceBitsWanted, length := length + 3 }
  else
    let distanceBitsWanted := blk.distanceBitsWanted - 1
    completeMatch outputSize previousSize bs
      { blk with distanceBitsWanted := distanceBitsWanted,
                 distance := blk.distance ||| (b <<< distanceBitsWanted) }

def decodeLoop (blockSize : Nat) : Nat → Bitstream → BlockState → Huff (Bitstream × BlockState)
  | 0, _, _ => throw .fuel
  | fuel + 1, bs, blk =>
    if blk.output.length - previousSize < blockSize then do
      let (bs, blk) ← decodeTurn input byteSize outputSize previousSize bs blk
      decodeLoop blockSize fuel bs blk
    else return (bs, blk)

def eofTurn (bs : Bitstream) (index : Nat) (seenEofMarker : Bool) :
    Huff (Option (Bitstream × Nat × Bool)) :=
  if bs.remainingBits = 16 ∧ bs.bytePos = byteSize then return none
  else do
    let (b, bs) ← nextBit input byteSize bs
    if seenEofMarker then
      if b ≠ 0 then throw .error else return some (bs, index, true)
    else
      let index := (index <<< 1) + b + 1
      let entry ← readTable bs index
      if entry = 0xffff then return some (bs, index, false)
      else if entry &&& 511 ≠ 256 then throw .error
      else return some (bs, index, true)

def eofLoop : Nat → Bitstream → Nat → Bool → Huff (Bitstream × Bool)
  | 0, _, _, _ => throw .fuel
  | fuel + 1, bs, index, seen => do
    match ← eofTurn input byteSize bs index seen with
    | none => return (bs, seen)
    | some (bs, index, seen) => eofLoop fuel bs index seen

def maxTurns : Nat := 8 * byteSize + 33

/-- `lzx_huffman_decompress_block(input, output + output_pos, block_size, output_size,
previous_size)`: the bytes of the message once the block is written. -/
def decompressBlock (bs : Bitstream) (output : List UInt8) (blockSize : Nat) :
    Huff (Bitstream × List UInt8) := do
  let bs ← fillDecompTable input byteSize bs
  let (tmp, bs) ← checkRead16 input byteSize bs
  let (bits, bs) ← checkRead16 input byteSize bs
  let bs := { bs with bits := bits ||| (tmp <<< 16), remainingBits := 32 }
  let (bs, blk) ← decodeLoop input byteSize outputSize previousSize blockSize
    (maxTurns byteSize) bs ⟨output, 0, 0, 0, 0⟩
  if blk.length ≠ 0 ∨ blk.index ≠ 0 then throw .error
  else if bs.bytePos + 256 < byteSize then return (bs, blk.output)
  else do
    let (bs, seen) ← eofLoop input byteSize (maxTurns byteSize) bs 0 false
    if seen then return (bs, blk.output) else throw .error

end Decompress

section Message

variable (input : Nat → UInt8) (byteSize : Nat)

def blocksLoop (outputSize : Nat) : Nat → Bitstream → List UInt8 → Huff (Bitstream × List UInt8)
  | 0, _, _ => throw .fuel
  | fuel + 1, bs, output =>
    if bs.bytePos < byteSize then do
      let remainingOutputSize := outputSize - output.length
      let blockOutputSize := min 65536 remainingOutputSize
      let (bs, output') ← decompressBlock input byteSize remainingOutputSize output.length bs output
        blockOutputSize
      if output'.length - output.length < blockOutputSize then throw .error
      else if output'.length > outputSize then throw .error
      else blocksLoop outputSize fuel bs output'
    else return (bs, output)

/-- `lzxpress_huffman_decompress_internal`; a block takes at least 260 bytes, so
`byte_size + 1` turns are enough. -/
def lzxpressHuffmanDecompressInternal (outputSize : Nat) (table : Nat → Nat) :
    Huff (List UInt8) :=
  if byteSize < 260 then throw .error
  else do
    let (bs, output) ← blocksLoop input byteSize outputSize (byteSize + 1) ⟨0, 0, 0, table⟩ []
    if bs.bytePos ≠ byteSize then throw .error else return output

/-- `lzxpress_huffman_decompress(input, input_size, output, output_size)`, its table's
first contents being `table`: the bytes it writes, whose number it returns. The tests of
`input` and `output` against `NULL` are left out. -/
def lzxpressHuffmanDecompress (outputSize : Nat) (table : Nat → Nat) : Huff (List UInt8) :=
  if byteSize > 2 ^ 63 - 1 ∨ byteSize > 2 ^ 32 - 1 ∨ outputSize > 2 ^ 63 - 1 ∨
      outputSize > 2 ^ 32 - 1 ∨ byteSize = 0 ∨ outputSize = 0 then throw .error
  else lzxpressHuffmanDecompressInternal input byteSize outputSize table

end Message

section Safety

variable (byteSize outputSize : Nat)

def AccessOk : Access → Prop
  | .input i => i < byteSize
  | .write i => i < outputSize
  | .copy src dst => 0 ≤ src ∧ src < dst ∧ dst < outputSize
  | .fill => True
  | .setTable i => i < 65536
  | .getTable i => i < 65536

def Access.dest? : Access → Option Nat
  | .write i => some i
  | .copy _ dst => some dst
  | _ => none

/-- `table[i]` was set after the last `fill_decomp_table` began. -/
def SetSince (log : List Access) (i : Nat) : Prop :=
  ∃ j : Nat, log[j]? = some (Access.setTable i) ∧ ∀ m : Nat, j < m → log[m]? ≠ some Access.fill

structure Written (output : List UInt8) (log : List Access) : Prop where
  ok : ∀ a ∈ log, AccessOk byteSize outputSize a
  dests : log.filterMap Access.dest? = List.range output.length
  reads : ∀ k i, log[k]? = some (Access.getTable i) → SetSince (log.take k) i

def SafeLog (log : List Access) : Prop := ∃ output, Written byteSize outputSize output log

def Failed (e : Failure) (log : List Access) : Prop := e = .error ∧ SafeLog byteSize outputSize log

structure LogInv (J : List Access → Prop) : Prop where
  input : ∀ l i, i < byteSize → J l → J (l ++ [.input i])
  safe : ∀ l, J l → SafeLog byteSize outputSize l

def bitsLeft (bs : Bitstream) : Nat := 8 * (byteSize - bs.bytePos) + bs.remainingBits

structure BitsOk (bs : Bitstream) : Prop where
  bytePos_le : bs.bytePos ≤ byteSize
  remaining_ge : 16 ≤ bs.remainingBits
  remaining_le : bs.remainingBits ≤ 32

variable {byteSize outputSize}

theorem SetSince.append {log : List Access} {i : Nat} {e : Access} (h : SetSince log i)
    (he : e ≠ .fill) : SetSince (log ++ [e]) i := by
  obtain ⟨j, hj, hafter⟩ := h
  have hjlt : j < log.length := (List.getElem?_eq_some_iff.1 hj).1
  refine ⟨j, by rw [List.getElem?_append_left hjlt, hj], fun m hm ↦ ?_⟩
  rcases Nat.lt_or_ge m log.length with hlt | hge
  · rw [List.getElem?_append_left hlt]
    exact hafter m hm
  · rw [List.getElem?_append_right hge, List.getElem?_singleton]
    split_ifs
    · exact fun h ↦ he (Option.some.inj h)
    · exact (Option.some_ne_none _).symm

theorem SetSince.append_set (log : List Access) (i : Nat) : SetSince (log ++ [.setTable i]) i := by
  refine ⟨log.length, by simp, fun m hm ↦ ?_⟩
  rw [List.getElem?_eq_none (by simp only [List.length_append, List.length_singleton]; omega)]
  exact (Option.some_ne_none _).symm

theorem Written.safeLog {output : List UInt8} {log : List Access}
    (h : Written byteSize outputSize output log) : SafeLog byteSize outputSize log :=
  ⟨output, h⟩

theorem reads_append {log : List Access} {e : Access}
    (h : ∀ k i, log[k]? = some (Access.getTable i) → SetSince (log.take k) i)
    (he : ∀ i, e = .getTable i → SetSince log i) :
    ∀ k i, (log ++ [e])[k]? = some (Access.getTable i) → SetSince ((log ++ [e]).take k) i := by
  intro k i hk
  rcases Nat.lt_or_ge k log.length with hlt | hge
  · rw [List.getElem?_append_left hlt] at hk
    rw [List.take_append_of_le_length hlt.le]
    exact h k i hk
  · rw [List.getElem?_append_right hge, List.getElem?_singleton] at hk
    split_ifs at hk with hzero
    · rw [List.take_left' (by omega)]
      exact he i (Option.some.inj hk)

theorem Written.append {output : List UInt8} {log : List Access} {e : Access}
    (h : Written byteSize outputSize output log) (hok : AccessOk byteSize outputSize e)
    (hdest : e.dest? = none) (hread : ∀ i, e = .getTable i → SetSince log i) :
    Written byteSize outputSize output (log ++ [e]) := by
  refine ⟨fun a ha ↦ ?_, ?_, reads_append h.reads hread⟩
  · rcases List.mem_append.1 ha with ha | ha
    · exact h.ok a ha
    · rw [List.mem_singleton.1 ha]
      exact hok
  · rw [List.filterMap_append, h.dests, List.filterMap_cons, hdest, List.filterMap_nil,
      List.append_nil]

theorem Written.append_dest {output : List UInt8} {log : List Access} {e : Access} {b : UInt8}
    (h : Written byteSize outputSize output log) (hok : AccessOk byteSize outputSize e)
    (hdest : e.dest? = some output.length) :
    Written byteSize outputSize (output ++ [b]) (log ++ [e]) := by
  have hread : ∀ i, e = .getTable i → SetSince log i := by
    rintro i rfl
    exact absurd hdest (by simp [Access.dest?])
  refine ⟨fun a ha ↦ ?_, ?_, reads_append h.reads hread⟩
  · rcases List.mem_append.1 ha with ha | ha
    · exact h.ok a ha
    · rw [List.mem_singleton.1 ha]
      exact hok
  · rw [List.filterMap_append, h.dests, List.filterMap_cons, hdest, List.filterMap_nil,
      List.length_append, List.length_singleton, List.range_succ]

theorem Written.logInv (output : List UInt8) :
    LogInv byteSize outputSize (Written byteSize outputSize output) where
  input _ _ hi h := h.append hi rfl fun _ h ↦ Access.noConfusion h
  safe _ h := h.safeLog

variable (input : Nat → UInt8) {J : List Access → Prop} {R : Prop}

theorem inputByte_triple (hJ : LogInv byteSize outputSize J) {i : Nat} (hi : i < byteSize) :
    TripleE (fun l ↦ R ∧ J l) (inputByte input i) (fun v l ↦ (R ∧ v < 256) ∧ J l)
      (Failed byteSize outputSize) :=
  TripleE.bind (TripleE.conseq (TripleE.logEvent (Q := fun _ l ↦ R ∧ J l))
    (fun l hl ↦ ⟨hl.1, hJ.input l i hi hl.2⟩) (fun _ _ h ↦ h) (fun _ _ h ↦ h)) fun _ ↦
      TripleE.pure_of fun _ hl ↦ ⟨⟨hl.1, UInt8.toNat_lt _⟩, hl.2⟩

theorem pullLe_triple (hJ : LogInv byteSize outputSize J) :
    ∀ (width pos : Nat), pos + width ≤ byteSize →
      TripleE (fun l ↦ R ∧ J l) (pullLe input pos width) (fun _ l ↦ R ∧ J l)
        (Failed byteSize outputSize)
  | 0, _, _ => TripleE.pure_of fun _ hl ↦ hl
  | width + 1, pos, hle => by
    refine TripleE.bind (inputByte_triple input hJ (by omega)) fun _ ↦ ?_
    refine TripleE.bind (TripleE.conseq (pullLe_triple hJ width (pos + 1) (by omega))
      (fun _ hl ↦ ⟨hl.1.1, hl.2⟩) (fun _ _ h ↦ h) (fun _ _ h ↦ h)) fun _ ↦ ?_
    exact TripleE.pure_of fun _ hl ↦ hl

theorem checkRead_triple (hJ : LogInv byteSize outputSize J) {width : Nat} {bs : Bitstream} :
    TripleE (fun l ↦ R ∧ J l) (checkRead input byteSize width bs)
      (fun r l ↦ (R ∧ r.2 = { bs with bytePos := bs.bytePos + width } ∧
        bs.bytePos + width ≤ byteSize) ∧ J l) (Failed byteSize outputSize) := by
  unfold checkRead
  refine TripleE.ite (fun _ ↦ TripleE.throw fun l hl ↦ ⟨rfl, hJ.safe l hl.2⟩) fun hle ↦ ?_
  refine TripleE.bind (pullLe_triple input hJ width bs.bytePos (by omega)) fun _ ↦ ?_
  exact TripleE.pure_of fun _ hl ↦ ⟨⟨hl.1, rfl, by omega⟩, hl.2⟩

-- equation lemmas made once, before the proofs below use them in parallel
attribute [local simp] bitsLeft.eq_1
attribute [-simp] bitsLeft.eq_1

theorem pullBits_triple (hJ : LogInv byteSize outputSize J) {bs : Bitstream} :
    TripleE (fun l ↦ R ∧ J l) (pullBits input byteSize bs)
      (fun r l ↦ (R ∧ r.bytePos ≤ byteSize ∧ bitsLeft byteSize r = bitsLeft byteSize bs ∧
        bs.remainingBits + 8 ≤ r.remainingBits ∧ r.remainingBits ≤ bs.remainingBits + 16 ∧
        r.table = bs.table ∧ bs.bytePos ≤ r.bytePos) ∧ J l) (Failed byteSize outputSize) := by
  unfold pullBits
  refine TripleE.ite (fun hlt ↦ ?_) fun _ ↦ TripleE.ite (fun hlt ↦ ?_) fun _ ↦
    TripleE.throw fun l hl ↦ ⟨rfl, hJ.safe l hl.2⟩
  · refine TripleE.bind (checkRead_triple input hJ) fun ⟨tmp, bs'⟩ ↦ ?_
    refine TripleE.pure_of fun l ⟨⟨hR, hbs', hle⟩, hl⟩ ↦ ⟨⟨hR, ?_⟩, hl⟩
    simp only at hbs'
    subst hbs'
    refine ⟨by dsimp only; omega, ?_, by dsimp only; omega, by dsimp only; omega, rfl,
      by dsimp only; omega⟩
    simp only [bitsLeft]
    omega
  · refine TripleE.bind (checkRead_triple input hJ) fun ⟨tmp, bs'⟩ ↦ ?_
    refine TripleE.pure_of fun l ⟨⟨hR, hbs', hle⟩, hl⟩ ↦ ⟨⟨hR, ?_⟩, hl⟩
    simp only at hbs'
    subst hbs'
    refine ⟨by dsimp only; omega, ?_, by dsimp only; omega, by dsimp only; omega, rfl,
      by dsimp only; omega⟩
    simp only [bitsLeft]
    omega

theorem refill_triple (hJ : LogInv byteSize outputSize J) {bs : Bitstream} (hbs : BitsOk byteSize bs) :
    TripleE (fun l ↦ R ∧ J l) (refill input byteSize bs)
      (fun r l ↦ (R ∧ r.bytePos ≤ byteSize ∧ 17 ≤ r.remainingBits ∧ r.remainingBits ≤ 32 ∧
        bitsLeft byteSize r = bitsLeft byteSize bs ∧ r.table = bs.table ∧ bs.bytePos ≤ r.bytePos) ∧
        J l) (Failed byteSize outputSize) := by
  unfold refill
  refine TripleE.ite (fun h16 ↦ ?_) fun h16 ↦
    TripleE.pure_of fun _ hl ↦ ⟨⟨hl.1, hbs.bytePos_le, by have := hbs.remaining_ge; omega,
      hbs.remaining_le, rfl, rfl, Nat.le_refl _⟩, hl.2⟩
  refine TripleE.conseq (pullBits_triple input hJ) (fun _ hl ↦ hl) (fun r l h ↦ ?_) (fun _ _ h ↦ h)
  obtain ⟨⟨hR, hle, hleft, h8, h16', htable, hpos⟩, hl⟩ := h
  exact ⟨⟨hR, hle, by omega, by omega, hleft, htable, hpos⟩, hl⟩

theorem nextBit_triple (hJ : LogInv byteSize outputSize J) {bs : Bitstream} (hbs : BitsOk byteSize bs) :
    TripleE (fun l ↦ R ∧ J l) (nextBit input byteSize bs)
      (fun r l ↦ (R ∧ r.1 < 2 ∧ BitsOk byteSize r.2 ∧ bitsLeft byteSize r.2 < bitsLeft byteSize bs ∧
        r.2.table = bs.table ∧ bs.bytePos ≤ r.2.bytePos) ∧ J l) (Failed byteSize outputSize) := by
  unfold nextBit
  refine TripleE.bind (refill_triple input hJ hbs) fun bs' ↦ ?_
  refine TripleE.pure_of fun l ⟨⟨hR, hle, h17, h32, hleft, htable, hpos⟩, hl⟩ ↦
    ⟨⟨hR, ?_, ?_, ?_, htable, hpos⟩, hl⟩
  · rw [Nat.and_one_is_mod]
    exact Nat.mod_lt _ Nat.zero_lt_two
  · exact ⟨hle, by dsimp only; omega, by dsimp only; omega⟩
  · simp only [bitsLeft] at hleft ⊢
    omega

theorem matchLength_triple (hJ : LogInv byteSize outputSize J) {bs : Bitstream} {length : Nat}
    (hle : bs.bytePos ≤ byteSize) :
    TripleE (fun l ↦ R ∧ J l) (matchLength input byteSize bs length)
      (fun r l ↦ (R ∧ r.2.bytePos ≤ byteSize ∧ bs.bytePos ≤ r.2.bytePos ∧
        r.2.remainingBits = bs.remainingBits ∧ r.2.table = bs.table) ∧ J l)
      (Failed byteSize outputSize) := by
  unfold matchLength
  refine TripleE.ite (fun _ ↦ ?_) fun _ ↦
    TripleE.pure_of fun _ hl ↦ ⟨⟨hl.1, hle, Nat.le_refl _, rfl, rfl⟩, hl.2⟩
  refine TripleE.bind (checkRead_triple input hJ) fun ⟨tmp, bs1⟩ ↦ ?_
  refine TripleE.of_pure fun ⟨_, hbs1, hle1⟩ ↦ ?_
  simp only at hbs1
  subst hbs1
  refine TripleE.ite (fun _ ↦ ?_) fun _ ↦
    TripleE.pure_of fun _ hl ↦ ⟨⟨hl.1.1, hle1, Nat.le_add_right _ _, rfl, rfl⟩, hl.2⟩
  refine TripleE.bind (checkRead_triple input hJ) fun ⟨length', bs2⟩ ↦ ?_
  refine TripleE.of_pure fun ⟨_, hbs2, hle2⟩ ↦ ?_
  simp only at hbs2
  subst hbs2
  refine TripleE.ite (fun _ ↦ ?_) fun _ ↦
    TripleE.pure_of fun _ hl ↦ ⟨⟨hl.1.1.1, hle2, by dsimp only; omega, rfl, rfl⟩, hl.2⟩
  refine TripleE.conseq (checkRead_triple input hJ) (fun _ hl ↦ hl) (fun r l h ↦ ?_) (fun _ _ h ↦ h)
  obtain ⟨⟨hR, hr, hle4⟩, hl⟩ := h
  rw [hr]
  exact ⟨⟨hR.1.1, hle4, by dsimp only; omega, rfl, rfl⟩, hl⟩

def Needed (cs : List Node) (j : Nat) : Prop :=
  j < 32 ∨ (∃ c ∈ cs, c.index = j) ∨ ∃ a : Node, ∃ c ∈ cs, a.IsPrefix c ∧ a.index = j

structure TableShape (t : Nat → Nat) (cs : List Node) : Prop where
  code : ∀ c ∈ cs, t c.index < 512
  head : ∀ j < 32, (∀ c ∈ cs, c.index ≠ j) → t j = 0xffff
  inner : ∀ a : Node, ∀ c ∈ cs, a.IsPrefix c → 31 < a.index → t a.index = 0xffff

structure CodeShape (t : Nat → Nat) (cs : List Node) : Prop where
  tiles : Tiles 15 cs 0 (2 ^ 15)
  depth_pos : ∀ c ∈ cs, 0 < c.depth
  shape : TableShape t cs

def Inner (cs : List Node) (i : Nat) : Prop := ∃ a : Node, ∃ c ∈ cs, a.IsPrefix c ∧ a.index = i

variable (byteSize outputSize) in
def Run (cs : List Node) (output : List UInt8) (log : List Access) : Prop :=
  Written byteSize outputSize output log ∧ ∀ j, Needed cs j → SetSince log j

theorem Run.append {cs : List Node} {output : List UInt8} {log : List Access} {e : Access}
    (h : Run byteSize outputSize cs output log) (hok : AccessOk byteSize outputSize e)
    (hdest : e.dest? = none) (hread : ∀ i, e = .getTable i → SetSince log i) (he : e ≠ .fill) :
    Run byteSize outputSize cs output (log ++ [e]) :=
  ⟨h.1.append hok hdest hread, fun j hj ↦ (h.2 j hj).append he⟩

theorem Run.append_dest {cs : List Node} {output : List UInt8} {log : List Access} {e : Access}
    {b : UInt8} (h : Run byteSize outputSize cs output log) (hok : AccessOk byteSize outputSize e)
    (hdest : e.dest? = some output.length) (he : e ≠ .fill) :
    Run byteSize outputSize cs (output ++ [b]) (log ++ [e]) :=
  ⟨h.1.append_dest hok hdest, fun j hj ↦ (h.2 j hj).append he⟩

theorem Run.logInv {cs : List Node} {output : List UInt8} :
    LogInv byteSize outputSize (Run byteSize outputSize cs output) where
  input _ _ hi h := h.append hi rfl (fun _ h ↦ Access.noConfusion h) Access.noConfusion
  safe _ h := h.1.safeLog

variable {t : Nat → Nat} {cs : List Node}

theorem CodeShape.valid (h : CodeShape t cs) {c : Node} (hc : c ∈ cs) : c.Valid ∧ c.depth ≤ 15 :=
  h.tiles.valid (Nat.le_refl _) hc

theorem CodeShape.inner_zero (h : CodeShape t cs) : Inner cs 0 := by
  obtain ⟨c, hc, -⟩ := h.tiles.exists_mem (Nat.le_refl 0) (Nat.two_pow_pos 15)
  exact ⟨Node.root, c, hc, root_isPrefix (h.valid hc).1 (h.depth_pos c hc), index_root⟩

theorem index_lt_of_depth {n : Node} (hv : n.Valid) (hd : n.depth ≤ 15) : n.index < 65535 := by
  have hlt := hv.index_lt
  have hpow : 2 ^ (n.depth + 1) ≤ 2 ^ 16 := Nat.pow_le_pow_right Nat.zero_lt_two (by omega)
  have h16 : (2 : Nat) ^ 16 = 65536 := rfl
  omega

theorem CodeShape.walk (h : CodeShape t cs) {i b : Nat} (hi : Inner cs i) (hb : b < 2) :
    2 * i + 1 + b < 65535 ∧ Needed cs (2 * i + 1 + b) ∧
      (t (2 * i + 1 + b) = 0xffff → Inner cs (2 * i + 1 + b)) := by
  obtain ⟨a, c, hc, hac, rfl⟩ := hi
  rw [← index_child a b]
  rcases h.tiles.complete hc hac hb with hcode | ⟨c', hc', hpre⟩
  · obtain ⟨hv, hd⟩ := h.valid hcode
    refine ⟨index_lt_of_depth hv hd, Or.inr (Or.inl ⟨_, hcode, rfl⟩), fun hff ↦ ?_⟩
    have := h.shape.code _ hcode
    omega
  · obtain ⟨hv', hd'⟩ := h.valid hc'
    have := hpre.index_lt
    have := index_lt_of_depth hv' hd'
    exact ⟨by omega, Or.inr (Or.inr ⟨_, c', hc', hpre, rfl⟩), fun _ ↦ ⟨_, c', hc', hpre, rfl⟩⟩

theorem readTable_triple {E : Failure → List Access → Prop} {output : List UInt8} {bs : Bitstream}
    {i : Nat} (hi : i < 65536) (hneeded : Needed cs i) :
    TripleE (fun l ↦ R ∧ Run byteSize outputSize cs output l) (readTable bs i)
      (fun v l ↦ (R ∧ v = bs.table i) ∧ Run byteSize outputSize cs output l) E := by
  refine TripleE.bind (TripleE.conseq (TripleE.logEvent
    (Q := fun _ l ↦ R ∧ Run byteSize outputSize cs output l)) (fun l hl ↦ ⟨hl.1, ?_⟩)
    (fun _ _ h ↦ h) (fun _ _ h ↦ h)) fun _ ↦ TripleE.pure_of fun _ hl ↦ ⟨⟨hl.1, rfl⟩, hl.2⟩
  refine hl.2.append hi rfl (fun i' he ↦ ?_) Access.noConfusion
  cases he
  exact hl.2.2 i hneeded

variable {previousSize : Nat}

theorem copyMatch_triple {distance : Nat} :
    ∀ (length : Nat) (output : List UInt8), (length ≠ 0 → 0 < distance) →
      distance ≤ output.length → output.length + length ≤ outputSize →
      TripleE (fun l ↦ R ∧ Run byteSize outputSize cs output l) (copyMatch distance length output)
        (fun out l ↦ (R ∧ out.length = output.length + length) ∧ Run byteSize outputSize cs out l)
        (Failed byteSize outputSize)
  | 0, _, _, _, _ => TripleE.pure_of fun _ hl ↦ ⟨⟨hl.1, rfl⟩, hl.2⟩
  | length + 1, output, hd, hback, hle => by
    rw [copyMatch]
    have hpos := hd (Nat.succ_ne_zero _)
    refine TripleE.bind (TripleE.conseq (TripleE.logEvent (Q := fun _ l ↦ R ∧
      Run byteSize outputSize cs (output ++ [output.getD (output.length - distance) 0]) l))
      (fun l hl ↦ ⟨hl.1, hl.2.append_dest ⟨by omega, by omega, by omega⟩ rfl Access.noConfusion⟩)
      (fun _ _ h ↦ h) (fun _ _ h ↦ h)) fun _ ↦ ?_
    refine TripleE.conseq (copyMatch_triple length _ (fun _ ↦ hpos) (by simp; omega) (by simp; omega))
      (fun _ hl ↦ hl) (fun out l h ↦ ⟨⟨h.1.1, ?_⟩, h.2⟩) (fun _ _ h ↦ h)
    rw [h.1.2, List.length_append, List.length_singleton]
    omega

variable (byteSize outputSize previousSize) in
structure TurnOk (t : Nat → Nat) (cs : List Node) (bs : Bitstream) (blk : BlockState) : Prop where
  bits : BitsOk byteSize bs
  table : bs.table = t
  index : Inner cs blk.index
  previous_le : previousSize ≤ blk.output.length
  output_le : blk.output.length ≤ previousSize + outputSize
  distance_pos : blk.length ≠ 0 → 0 < blk.distance

theorem completeMatch_triple {bs : Bitstream} {blk : BlockState}
    (hturn : TurnOk byteSize outputSize previousSize t cs bs blk) :
    TripleE (fun l ↦ R ∧ Run byteSize (previousSize + outputSize) cs blk.output l)
      (completeMatch outputSize previousSize bs blk)
      (fun r l ↦ (R ∧ TurnOk byteSize outputSize previousSize t cs r.1 r.2 ∧ r.1 = bs) ∧
        Run byteSize (previousSize + outputSize) cs r.2.output l)
      (Failed byteSize (previousSize + outputSize)) := by
  unfold completeMatch
  refine TripleE.ite (fun _ ↦ ?_) fun _ ↦ TripleE.pure_of fun _ hl ↦ ⟨⟨hl.1, hturn, rfl⟩, hl.2⟩
  refine TripleE.ite (fun _ ↦ TripleE.throw fun l hl ↦ ⟨rfl, hl.2.1.safeLog⟩) fun hcheck ↦ ?_
  have hprev := hturn.previous_le
  refine TripleE.bind (copyMatch_triple blk.length blk.output hturn.distance_pos (by omega)
    (by omega)) fun out ↦ ?_
  refine TripleE.pure_of fun _ ⟨⟨hR, hlen⟩, hl⟩ ↦
    ⟨⟨hR, ⟨hturn.bits, hturn.table, hturn.index, ?_, ?_, fun h ↦ absurd rfl h⟩, rfl⟩, hl⟩
  · show previousSize ≤ out.length
    omega
  · show out.length ≤ previousSize + outputSize
    omega

theorem decodeTurn_triple (hshape : CodeShape t cs) {bs : Bitstream} {blk : BlockState}
    (hturn : TurnOk byteSize outputSize previousSize t cs bs blk)
    (hroom : blk.output.length < previousSize + outputSize) :
    TripleE (fun l ↦ R ∧ Run byteSize (previousSize + outputSize) cs blk.output l)
      (decodeTurn input byteSize outputSize previousSize bs blk)
      (fun r l ↦ (R ∧ TurnOk byteSize outputSize previousSize t cs r.1 r.2 ∧
        bitsLeft byteSize r.1 < bitsLeft byteSize bs ∧ bs.bytePos ≤ r.1.bytePos) ∧
        Run byteSize (previousSize + outputSize) cs r.2.output l)
      (Failed byteSize (previousSize + outputSize)) := by
  unfold decodeTurn
  refine TripleE.bind (nextBit_triple input Run.logInv hturn.bits) fun ⟨b, bs1⟩ ↦ ?_
  dsimp only
  refine TripleE.of_frame fun ⟨hb, hbits1, hleft1, htable1, hpos1⟩ ↦ ?_
  have htable : bs1.table = t := htable1.trans hturn.table
  refine TripleE.ite (fun hlen ↦ ?_) fun hlen ↦ ?_
  · have hidx : (blk.index <<< 1) + b + 1 = 2 * blk.index + 1 + b := by
      rw [Nat.shiftLeft_eq, Nat.pow_one]
      omega
    obtain ⟨hlt, hneeded, hnext⟩ := hshape.walk hturn.index hb
    rw [hidx]
    refine TripleE.bind (readTable_triple (by omega) hneeded) fun entry ↦ ?_
    refine TripleE.of_frame fun hentry ↦ ?_
    refine TripleE.ite (fun hff ↦ ?_) fun _ ↦ TripleE.ite (fun _ ↦ ?_) fun _ ↦ ?_
    · have hinner : Inner cs (2 * blk.index + 1 + b) := hnext (by rw [← htable, ← hentry, hff])
      exact TripleE.pure_of fun _ hl ↦ ⟨⟨hl.1, ⟨hbits1, htable, hinner, hturn.previous_le,
        hturn.output_le, hturn.distance_pos⟩, hleft1, hpos1⟩, hl.2⟩
    · refine TripleE.bind (TripleE.conseq (TripleE.logEvent (Q := fun _ l ↦ R ∧
        Run byteSize (previousSize + outputSize) cs (blk.output ++ [UInt8.ofNat (entry &&& 511)]) l))
        (fun l hl ↦ ⟨hl.1, hl.2.append_dest hroom rfl Access.noConfusion⟩)
        (fun _ _ h ↦ h) (fun _ _ h ↦ h)) fun _ ↦ TripleE.pure_of fun _ hl ↦ ⟨⟨hl.1, ⟨hbits1,
          htable, hshape.inner_zero, ?_, ?_, fun h ↦ absurd hlen h⟩, hleft1, hpos1⟩, hl.2⟩
      · have := hturn.previous_le
        simp only [List.length_append, List.length_singleton]
        omega
      · simp only [List.length_append, List.length_singleton]
        omega
    · refine TripleE.bind (matchLength_triple input Run.logInv hbits1.bytePos_le) fun ⟨length, bs2⟩ ↦ ?_
      dsimp only
      refine TripleE.of_frame fun ⟨hle2, hpos2, hrem2, htable2⟩ ↦ ?_
      have hturn2 : TurnOk byteSize outputSize previousSize t cs bs2
          { blk with index := 0, distanceBitsWanted := (entry &&& 511) >>> 4 &&& 15,
                     distance := 1 <<< ((entry &&& 511) >>> 4 &&& 15), length := length + 3 } := by
        refine ⟨⟨hle2, ?_, ?_⟩, htable2.trans htable, hshape.inner_zero, hturn.previous_le,
          hturn.output_le, fun _ ↦ ?_⟩
        · rw [hrem2]
          exact hbits1.remaining_ge
        · rw [hrem2]
          exact hbits1.remaining_le
        · show 0 < 1 <<< ((entry &&& 511) >>> 4 &&& 15)
          rw [Nat.shiftLeft_eq, Nat.one_mul]
          exact Nat.two_pow_pos _
      refine TripleE.conseq (completeMatch_triple hturn2) (fun _ hl ↦ hl)
        (fun r l h ↦ ⟨⟨h.1.1, h.1.2.1, ?_, ?_⟩, h.2⟩) (fun _ _ h ↦ h)
      · rw [h.1.2.2]
        simp only [bitsLeft] at hleft1 ⊢
        omega
      · rw [h.1.2.2]
        omega
  · have hturn1 : TurnOk byteSize outputSize previousSize t cs bs1
        { blk with distanceBitsWanted := blk.distanceBitsWanted - 1,
                   distance := blk.distance ||| (b <<< (blk.distanceBitsWanted - 1)) } :=
      ⟨hbits1, htable, hturn.index, hturn.previous_le, hturn.output_le,
        fun _ ↦ Nat.lt_of_lt_of_le (hturn.distance_pos hlen) Nat.left_le_or⟩
    refine TripleE.conseq (completeMatch_triple hturn1) (fun _ hl ↦ hl)
      (fun r l h ↦ ⟨⟨h.1.1, h.1.2.1, ?_, ?_⟩, h.2⟩) (fun _ _ h ↦ h)
    · rw [h.1.2.2]
      exact hleft1
    · rw [h.1.2.2]
      exact hpos1

theorem decodeLoop_triple (hshape : CodeShape t cs) {blockSize : Nat}
    (hblock : blockSize ≤ outputSize) :
    ∀ (fuel : Nat) (bs : Bitstream) (blk : BlockState),
      TurnOk byteSize outputSize previousSize t cs bs blk → bitsLeft byteSize bs < fuel →
      TripleE (fun l ↦ R ∧ Run byteSize (previousSize + outputSize) cs blk.output l)
        (decodeLoop input byteSize outputSize previousSize blockSize fuel bs blk)
        (fun r l ↦ (R ∧ TurnOk byteSize outputSize previousSize t cs r.1 r.2 ∧
          bs.bytePos ≤ r.1.bytePos) ∧ Run byteSize (previousSize + outputSize) cs r.2.output l)
        (Failed byteSize (previousSize + outputSize))
  | 0, _, _, _, hfuel => absurd hfuel (Nat.not_lt_zero _)
  | fuel + 1, bs, blk, hturn, hfuel => by
    rw [decodeLoop]
    refine TripleE.ite (fun hlt ↦ ?_) fun _ ↦
      TripleE.pure_of fun _ hl ↦ ⟨⟨hl.1, hturn, Nat.le_refl _⟩, hl.2⟩
    have := hturn.previous_le
    refine TripleE.bind (decodeTurn_triple input hshape hturn (by omega)) fun ⟨bs', blk'⟩ ↦ ?_
    dsimp only
    refine TripleE.of_frame fun ⟨hturn', hleft, hpos⟩ ↦ ?_
    exact TripleE.conseq (decodeLoop_triple hshape hblock fuel bs' blk' hturn' (by omega))
      (fun _ hl ↦ hl) (fun _ _ h ↦ ⟨⟨h.1.1, h.1.2.1, Nat.le_trans hpos h.1.2.2⟩, h.2⟩)
      (fun _ _ h ↦ h)

theorem eofTurn_triple (hshape : CodeShape t cs) {output : List UInt8} {bs : Bitstream}
    {index : Nat} {seen : Bool} (hbs : BitsOk byteSize bs) (htable : bs.table = t)
    (hidx : seen = false → Inner cs index) :
    TripleE (fun l ↦ R ∧ Run byteSize outputSize cs output l) (eofTurn input byteSize bs index seen)
      (fun r l ↦ (R ∧ ∀ st, r = some st → BitsOk byteSize st.1 ∧ st.1.table = t ∧
        (st.2.2 = false → Inner cs st.2.1) ∧ bitsLeft byteSize st.1 < bitsLeft byteSize bs ∧
        bs.bytePos ≤ st.1.bytePos) ∧ Run byteSize outputSize cs output l)
      (Failed byteSize outputSize) := by
  unfold eofTurn
  refine TripleE.ite (fun _ ↦ TripleE.pure_of fun _ hl ↦ ⟨⟨hl.1, fun _ h ↦ by cases h⟩, hl.2⟩)
    fun _ ↦ ?_
  refine TripleE.bind (nextBit_triple input Run.logInv hbs) fun ⟨b, bs1⟩ ↦ ?_
  dsimp only
  refine TripleE.of_frame fun ⟨hb, hbits1, hleft1, htable1, hpos1⟩ ↦ ?_
  have htable' : bs1.table = t := htable1.trans htable
  have hsome : ∀ (index' : Nat) (seen' : Bool), (seen' = false → Inner cs index') → ∀ l,
      R ∧ Run byteSize outputSize cs output l →
      (R ∧ ∀ st, some (bs1, index', seen') = some st → BitsOk byteSize st.1 ∧ st.1.table = t ∧
        (st.2.2 = false → Inner cs st.2.1) ∧ bitsLeft byteSize st.1 < bitsLeft byteSize bs ∧
        bs.bytePos ≤ st.1.bytePos) ∧ Run byteSize outputSize cs output l := by
    rintro index' seen' hidx' l hl
    refine ⟨⟨hl.1, fun st hst ↦ ?_⟩, hl.2⟩
    cases hst
    exact ⟨hbits1, htable', hidx', hleft1, hpos1⟩
  cases seen with
  | true =>
    rw [if_pos rfl]
    exact TripleE.ite (fun _ ↦ TripleE.throw fun l hl ↦ ⟨rfl, hl.2.1.safeLog⟩)
      fun _ ↦ TripleE.pure_of (hsome index true Bool.noConfusion)
  | false =>
    have hidx' : (index <<< 1) + b + 1 = 2 * index + 1 + b := by
      rw [Nat.shiftLeft_eq, Nat.pow_one]
      omega
    obtain ⟨hlt, hneeded, hnext⟩ := hshape.walk (hidx rfl) hb
    simp only [Bool.false_eq_true, ↓reduceIte]
    rw [hidx']
    refine TripleE.bind (readTable_triple (by omega) hneeded) fun entry ↦ ?_
    refine TripleE.of_frame fun hentry ↦ ?_
    refine TripleE.ite (fun hff ↦ TripleE.pure_of (hsome _ false fun _ ↦ hnext ?_)) fun _ ↦
      TripleE.ite (fun _ ↦ TripleE.throw fun l hl ↦ ⟨rfl, hl.2.1.safeLog⟩) fun _ ↦
        TripleE.pure_of (hsome _ true Bool.noConfusion)
    rw [← htable', ← hentry, hff]

theorem eofLoop_triple (hshape : CodeShape t cs) {output : List UInt8} :
    ∀ (fuel : Nat) (bs : Bitstream) (index : Nat) (seen : Bool), BitsOk byteSize bs →
      bs.table = t → (seen = false → Inner cs index) → bitsLeft byteSize bs < fuel →
      TripleE (fun l ↦ R ∧ Run byteSize outputSize cs output l) (eofLoop input byteSize fuel bs index seen)
        (fun r l ↦ (R ∧ r.1.bytePos ≤ byteSize ∧ bs.bytePos ≤ r.1.bytePos) ∧
          Run byteSize outputSize cs output l) (Failed byteSize outputSize)
  | 0, _, _, _, _, _, _, hfuel => absurd hfuel (Nat.not_lt_zero _)
  | fuel + 1, bs, index, seen, hbs, htable, hidx, hfuel => by
    rw [eofLoop]
    refine TripleE.bind (eofTurn_triple input hshape hbs htable hidx) fun r ↦ ?_
    rcases r with _ | ⟨bs', index', seen'⟩
    · exact TripleE.pure_of fun _ hl ↦ ⟨⟨hl.1.1, hbs.bytePos_le, Nat.le_refl _⟩, hl.2⟩
    · refine TripleE.of_frame fun hnext ↦ ?_
      obtain ⟨hbs', htable', hidx', hleft, hpos⟩ := hnext _ rfl
      have hleft' : bitsLeft byteSize bs' < bitsLeft byteSize bs := hleft
      exact TripleE.conseq (eofLoop_triple hshape fuel bs' index' seen' hbs' htable' hidx'
        (by omega)) (fun _ hl ↦ hl) (fun _ _ h ↦ ⟨⟨h.1.1, h.1.2.1, Nat.le_trans hpos h.1.2.2⟩, h.2⟩)
        (fun _ _ h ↦ h)

theorem lengthen_add_one : ∀ (n : Nat) (code : Int), lengthen n code + 1 = 2 ^ n * (code + 1)
  | 0, code => by rw [lengthen, Int.pow_zero, Int.one_mul]
  | n + 1, code => by
    rw [lengthen, lengthen_add_one n, Int.pow_succ, Int.mul_assoc]
    congr 1
    omega

def kraft (ys : List Nat) : Nat := (ys.map fun s ↦ 2 ^ (15 - s / 512)).sum

theorem kraft_append (ys : List Nat) (s : Nat) :
    kraft (ys ++ [s]) = kraft ys + 2 ^ (15 - s / 512) := by
  simp [kraft]

theorem length_symbol {s : Nat} (hs : s < 8192) : (s >>> 9) &&& 15 = s / 512 := by
  rw [Nat.shiftRight_eq_div_pow, show (15 : Nat) = 2 ^ 4 - 1 from rfl,
    Nat.and_two_pow_sub_one_eq_mod]
  omega

theorem mem_tableSymbols {bytes : List Nat} (hlen : bytes.length ≤ 256)
    (hbytes : ∀ b ∈ bytes, b < 256) {s : Nat} (hs : s ∈ tableSymbols bytes) :
    s < 8192 ∧ 1 ≤ s / 512 := by
  obtain ⟨⟨b, i⟩, hbi, hs⟩ := List.mem_flatMap.1 hs
  obtain ⟨-, hi, hb⟩ := List.mem_zipIdx hbi
  have hb256 : b < 256 := hbytes b (hb ▸ List.getElem_mem _)
  have hlo : b &&& 15 ≤ 15 := Nat.and_le_right
  have hhi : b >>> 4 < 16 := by
    rw [Nat.shiftRight_eq_div_pow]
    omega
  simp only [List.mem_append] at hs
  rcases hs with hs | hs
  · split_ifs at hs with hne
    · rw [List.mem_singleton.1 hs, Nat.shiftLeft_eq]
      omega
    · exact absurd hs List.not_mem_nil
  · split_ifs at hs with hne
    · rw [List.mem_singleton.1 hs, Nat.shiftLeft_eq]
      omega
    · exact absurd hs List.not_mem_nil

inductive Marks : Nat → Nat → Prop
  | here {p : Nat} : 31 < p → Marks p p
  | up {p j : Nat} : 31 < p → Marks ((p - 1) / 2) j → Marks p j

theorem marks_iff {p j : Nat} : Marks p j ↔ 31 < p ∧ (j = p ∨ Marks ((p - 1) / 2) j) := by
  constructor
  · rintro (h | ⟨h, hup⟩)
    · exact ⟨h, Or.inl rfl⟩
    · exact ⟨h, Or.inr hup⟩
  · rintro ⟨h, rfl | hup⟩
    · exact .here h
    · exact .up h hup

theorem Marks.bounds {p j : Nat} (h : Marks p j) : 31 < j ∧ j ≤ p := by
  induction h with
  | here h => exact ⟨h, Nat.le_refl _⟩
  | up h _ ih => exact ⟨ih.1, by omega⟩

theorem marks_index_iff {j : Nat} :
    ∀ (d : Nat) (m : Node), m.depth = d → m.Valid →
      (Marks m.index j ↔ ∃ a : Node, (a = m ∨ a.IsPrefix m) ∧ 31 < a.index ∧ a.index = j) := by
  intro d
  induction d with
  | zero =>
    intro m hd hv
    have hroot : m.index = 0 := by
      unfold Valid at hv
      simp only [index, hd, Nat.pow_zero] at hv ⊢
      omega
    refine ⟨fun h ↦ by have := h.bounds; omega, ?_⟩
    rintro ⟨a, rfl | ha, h31, -⟩
    · omega
    · exact absurd ha.1 (by omega)
  | succ d ih =>
    intro m hd hv
    have hpos : 0 < m.depth := by omega
    have hparent : m.parent.IsPrefix m := (isPrefix_iff_parent hpos).2 (Or.inl rfl)
    have ih' := ih m.parent (by simp only [parent, hd, Nat.add_sub_cancel]) (hparent.valid hv)
    rw [marks_iff, index_parent hpos, ih']
    constructor
    · rintro ⟨h31, rfl | ⟨a, ha, h31', rfl⟩⟩
      · exact ⟨m, Or.inl rfl, h31, rfl⟩
      · refine ⟨a, Or.inr ?_, h31', rfl⟩
        rcases ha with rfl | ha
        · exact hparent
        · exact ha.trans hparent
    · rintro ⟨a, rfl | ha, h31, rfl⟩
      · exact ⟨h31, Or.inl rfl⟩
      · have hlt := ha.index_lt
        refine ⟨by omega, Or.inr ⟨a, ?_, h31, rfl⟩⟩
        exact (isPrefix_iff_parent hpos).1 ha

theorem marks_iff_isPrefix {n : Node} (hv : n.Valid) (hd : 0 < n.depth) {j : Nat} :
    Marks ((n.index - 1) / 2) j ↔ ∃ a : Node, a.IsPrefix n ∧ 31 < a.index ∧ a.index = j := by
  have hparent : n.parent.IsPrefix n := (isPrefix_iff_parent hd).2 (Or.inl rfl)
  rw [index_parent hd, marks_index_iff _ n.parent rfl (hparent.valid hv)]
  simp only [← isPrefix_iff_parent hd]

theorem TableShape.addCode {t t' : Nat → Nat} {n : Node} {K v : Nat} (h : TableShape t cs)
    (htiles : Tiles 15 (cs ++ [n]) 0 K) (hK : K ≤ 2 ^ 15) (hd : 0 < n.depth) (hsym : v < 512)
    (hmark : ∀ j, Marks ((n.index - 1) / 2) j → t' j = 0xffff)
    (hkeep : ∀ j, ¬ Marks ((n.index - 1) / 2) j → t' j = if j = n.index then v else t j) :
    TableShape t' (cs ++ [n]) := by
  have hvalid : ∀ c ∈ cs ++ [n], c.Valid := fun c hc ↦ (htiles.valid hK hc).1
  have hn : n ∈ cs ++ [n] := List.mem_append_right _ (List.mem_singleton.2 rfl)
  have hnv := hvalid n hn
  have hunmarked : ∀ c ∈ cs ++ [n], ¬ Marks ((n.index - 1) / 2) c.index := by
    intro c hc hm
    obtain ⟨a, ha, -, heq⟩ := (marks_iff_isPrefix hnv hd).1 hm
    have hac : a = c := index_inj (ha.valid hnv) (hvalid c hc) heq
    exact htiles.not_isPrefix hc hn (hac ▸ ha)
  refine ⟨fun c hc ↦ ?_, fun j hj hnot ↦ ?_, fun a c hc hac h31 ↦ ?_⟩
  · rw [hkeep _ (hunmarked c hc)]
    rcases List.mem_append.1 hc with hc' | hc'
    · have hne : c.index ≠ n.index := fun heq ↦
        htiles.ne_last hc' (index_inj (hvalid c hc) hnv heq)
      rw [if_neg hne]
      exact h.code c hc'
    · rw [List.mem_singleton.1 hc', if_pos rfl]
      exact hsym
  · have hj' : ¬ Marks ((n.index - 1) / 2) j := fun hm ↦ by have := hm.bounds; omega
    rw [hkeep _ hj', if_neg fun heq ↦ hnot n hn heq.symm]
    exact h.head j hj fun c hc ↦ hnot c (List.mem_append_left _ hc)
  · rcases List.mem_append.1 hc with hc' | hc'
    · by_cases hm : Marks ((n.index - 1) / 2) a.index
      · exact hmark _ hm
      · have hne : a.index ≠ n.index := fun heq ↦
          htiles.not_isPrefix hn hc (index_inj (hac.valid (hvalid c hc)) hnv heq ▸ hac)
        rw [hkeep _ hm, if_neg hne]
        exact h.inner a c hc' hac h31
    · rw [List.mem_singleton.1 hc'] at hac
      exact hmark _ ((marks_iff_isPrefix hnv hd).2 ⟨a, hac, h31, rfl⟩)

theorem needed_append {n : Node} (hv : n.Valid) (hd : 0 < n.depth) {j : Nat}
    (h : Needed (cs ++ [n]) j) : Needed cs j ∨ j = n.index ∨ Marks ((n.index - 1) / 2) j := by
  rcases h with hj | ⟨c, hc, rfl⟩ | ⟨a, c, hc, hac, rfl⟩
  · exact Or.inl (Or.inl hj)
  · rcases List.mem_append.1 hc with hc | hc
    · exact Or.inl (Or.inr (Or.inl ⟨c, hc, rfl⟩))
    · rw [List.mem_singleton.1 hc]
      exact Or.inr (Or.inl rfl)
  · rcases List.mem_append.1 hc with hc | hc
    · exact Or.inl (Or.inr (Or.inr ⟨a, c, hc, hac, rfl⟩))
    · rw [List.mem_singleton.1 hc] at hac
      by_cases h31 : 31 < a.index
      · exact Or.inr (Or.inr ((marks_iff_isPrefix hv hd).2 ⟨a, hac, h31, rfl⟩))
      · exact Or.inl (Or.inl (by omega))

variable (byteSize outputSize) in
def Filled (output : List UInt8) (S : Nat → Prop) (log : List Access) : Prop :=
  Written byteSize outputSize output log ∧ ∀ j, S j → SetSince log j

theorem Filled.mono {output : List UInt8} {S S' : Nat → Prop} {log : List Access}
    (h : Filled byteSize outputSize output S log) (hS : ∀ j, S' j → S j) :
    Filled byteSize outputSize output S' log :=
  ⟨h.1, fun j hj ↦ h.2 j (hS j hj)⟩

theorem Filled.append_set {output : List UInt8} {S : Nat → Prop} {log : List Access} {i : Nat}
    (h : Filled byteSize outputSize output S log) (hi : i < 65536) :
    Filled byteSize outputSize output (fun j ↦ S j ∨ j = i) (log ++ [.setTable i]) := by
  refine ⟨h.1.append hi rfl fun _ he ↦ Access.noConfusion he, fun j hj ↦ ?_⟩
  rcases hj with hj | rfl
  · exact (h.2 j hj).append Access.noConfusion
  · exact SetSince.append_set log j

theorem writeTable_triple {E : Failure → List Access → Prop} {output : List UInt8}
    {S : Nat → Prop} {table : Nat → Nat} {i v : Nat} (hi : i < 65536) :
    TripleE (fun l ↦ R ∧ Filled byteSize outputSize output S l) (writeTable table i v)
      (fun t' l ↦ (R ∧ t' = fun j ↦ if j = i then v else table j) ∧
        Filled byteSize outputSize output (fun j ↦ S j ∨ j = i) l) E :=
  TripleE.bind (TripleE.conseq (TripleE.logEvent (Q := fun _ l ↦ R ∧
    Filled byteSize outputSize output (fun j ↦ S j ∨ j = i) l))
    (fun _ hl ↦ ⟨hl.1, hl.2.append_set hi⟩) (fun _ _ h ↦ h) (fun _ _ h ↦ h)) fun _ ↦
      TripleE.pure_of fun _ hl ↦ ⟨⟨hl.1, rfl⟩, hl.2⟩

theorem markPrefixes_triple {E : Failure → List Access → Prop} {output : List UInt8} (p : Nat) :
    ∀ {S : Nat → Prop} (table : Nat → Nat), p < 65536 →
      TripleE (fun l ↦ R ∧ Filled byteSize outputSize output S l) (markPrefixes table p)
        (fun t' l ↦ (R ∧ (∀ j, Marks p j → t' j = 0xffff) ∧ ∀ j, ¬ Marks p j → t' j = table j) ∧
          Filled byteSize outputSize output (fun j ↦ S j ∨ Marks p j) l) E := by
  induction p using Nat.strong_induction_on with
  | _ p ih =>
  intro S table hp
  rw [markPrefixes]
  refine TripleE.ite (fun h31 ↦ ?_) fun h31 ↦ TripleE.pure_of fun _ hl ↦
    ⟨⟨hl.1, fun j hj ↦ absurd (marks_iff.1 hj).1 h31, fun _ _ ↦ rfl⟩,
      hl.2.mono fun _ hj ↦ hj.resolve_right fun hm ↦ h31 (marks_iff.1 hm).1⟩
  refine TripleE.bind (writeTable_triple hp) fun t1 ↦ ?_
  refine TripleE.of_frame fun ht1 ↦ ?_
  refine TripleE.conseq (ih ((p - 1) / 2) (by omega) t1 (by omega)) (fun _ hl ↦ hl)
    (fun t' l h ↦ ?_) (fun _ _ h ↦ h)
  obtain ⟨⟨hR, hmarked, hkept⟩, hfilled⟩ := h
  refine ⟨⟨hR, fun j hj ↦ ?_, fun j hj ↦ ?_⟩, hfilled.mono fun j hj ↦ ?_⟩
  · rcases (marks_iff.1 hj).2 with heq | hj'
    · have hnot : ¬ Marks ((p - 1) / 2) j := fun hm ↦ by have := hm.bounds; omega
      rw [hkept _ hnot, ht1]
      exact if_pos heq
    · exact hmarked j hj'
  · have hnot : ¬ Marks ((p - 1) / 2) j := fun hm ↦ hj (Marks.up h31 hm)
    have hne : j ≠ p := fun heq ↦ hj (by rw [heq]; exact Marks.here h31)
    rw [hkept _ hnot, ht1]
    exact if_neg hne
  · rcases hj with hj | hj
    · exact Or.inl (Or.inl hj)
    · rcases (marks_iff.1 hj).2 with heq | hj'
      · exact Or.inl (Or.inr heq)
      · exact Or.inr hj'

structure CodeLoop (ys zs : List Nat) (st : CodeState) : Prop where
  len_eq : st.len = st.prevLen
  prevLen_le : st.prevLen ≤ 15
  code : st.code + 1 = (startingAt 15 st.prevLen (kraft ys)).index
  dvd : 2 ^ (15 - st.prevLen) ∣ kraft ys
  sorted : zs.Pairwise (· ≤ ·)
  rest : ∀ z ∈ zs, z < 8192 ∧ 1 ≤ z / 512 ∧ st.prevLen ≤ z / 512

namespace CodeLoop

variable {ys zs : List Nat} {x : Nat} {st : CodeState}

theorem next (h : CodeLoop ys (x :: zs) st) :
    lengthen (x / 512 - st.prevLen) (st.code + 1) = (startingAt 15 (x / 512) (kraft ys)).index := by
  obtain ⟨hx, -, hprev⟩ := h.rest x List.mem_cons_self
  have hidx := index_startingAt_add (m := x / 512 - st.prevLen) h.dvd (by omega)
  rw [Nat.add_sub_cancel' hprev] at hidx
  have hidx' : ((startingAt 15 (x / 512) (kraft ys)).index : Int) + 1 =
      2 ^ (x / 512 - st.prevLen) * ((startingAt 15 st.prevLen (kraft ys)).index + 1) := by
    exact_mod_cast hidx
  have hlen := lengthen_add_one (x / 512 - st.prevLen) (st.code + 1)
  rw [h.code] at hlen ⊢
  omega

theorem step (h : CodeLoop ys (x :: zs) st) (table : Nat → Nat) :
    CodeLoop (ys ++ [x]) zs ⟨(startingAt 15 (x / 512) (kraft ys)).index, x / 512, x / 512, table⟩ := by
  obtain ⟨hx, hx1, hprev⟩ := h.rest x List.mem_cons_self
  refine ⟨rfl, show x / 512 ≤ 15 by omega, ?_, ?_, h.sorted.of_cons, fun z hz ↦ ?_⟩
  · show ((startingAt 15 (x / 512) (kraft ys)).index : Int) + 1 = _
    rw [kraft_append, index_startingAt_next]
    push_cast
    rfl
  · show 2 ^ (15 - x / 512) ∣ kraft (ys ++ [x])
    rw [kraft_append]
    refine Nat.dvd_add (Nat.dvd_trans ?_ h.dvd) (Nat.dvd_refl _)
    exact Nat.pow_dvd_pow 2 (by omega)
  · obtain ⟨hz8192, hz1, -⟩ := h.rest z (List.mem_cons_of_mem x hz)
    exact ⟨hz8192, hz1, Nat.div_le_div_right (List.rel_of_pairwise_cons h.sorted hz)⟩

theorem kraft_eq (h : CodeLoop ys zs st) (hfinal : st.code = 2 ^ (st.len + 1) - 2) :
    kraft ys = 2 ^ 15 := by
  have hcode := h.code
  rw [h.len_eq] at hfinal
  have hlast : (startingAt 15 st.prevLen (kraft ys)).index + 1 = 2 ^ (st.prevLen + 1) := by
    have : ((startingAt 15 st.prevLen (kraft ys)).index : Int) + 1 = 2 ^ (st.prevLen + 1) := by
      omega
    exact_mod_cast this
  have hoffset : kraft ys / 2 ^ (15 - st.prevLen) = 2 ^ st.prevLen := by
    rw [index_add_one, Nat.pow_succ] at hlast
    simp only [startingAt] at hlast
    omega
  calc kraft ys = kraft ys / 2 ^ (15 - st.prevLen) * 2 ^ (15 - st.prevLen) :=
        (Nat.div_mul_cancel h.dvd).symm
    _ = 2 ^ 15 := by rw [hoffset, ← Nat.pow_add, Nat.add_sub_cancel' h.prevLen_le]

end CodeLoop

structure CodesSoFar (ys : List Nat) (t : Nat → Nat) (cs : List Node) : Prop where
  tiles : Tiles 15 cs 0 (kraft ys)
  depth_pos : ∀ c ∈ cs, 0 < c.depth
  shape : kraft ys ≤ 2 ^ 15 → TableShape t cs

theorem CodesSoFar.addCode {ys zs : List Nat} {x : Nat} {st : CodeState} {t' : Nat → Nat}
    (h : CodesSoFar ys st.table cs) (hloop : CodeLoop ys (x :: zs) st)
    (hmark : ∀ j, Marks (((startingAt 15 (x / 512) (kraft ys)).index - 1) / 2) j → t' j = 0xffff)
    (hkeep : ∀ j, ¬ Marks (((startingAt 15 (x / 512) (kraft ys)).index - 1) / 2) j →
      t' j = if j = (startingAt 15 (x / 512) (kraft ys)).index then x &&& 511 else st.table j) :
    CodesSoFar (ys ++ [x]) t' (cs ++ [startingAt 15 (x / 512) (kraft ys)]) := by
  obtain ⟨hx, hx1, hprev⟩ := hloop.rest x List.mem_cons_self
  have hdvd : 2 ^ (15 - x / 512) ∣ kraft ys :=
    Nat.dvd_trans (Nat.pow_dvd_pow 2 (by omega)) hloop.dvd
  have htiles : Tiles 15 (cs ++ [startingAt 15 (x / 512) (kraft ys)]) 0 (kraft (ys ++ [x])) := by
    rw [kraft_append, ← hi_startingAt hdvd]
    exact h.tiles.append_single (by show x / 512 ≤ 15; omega) (lo_startingAt hdvd)
  refine ⟨htiles, fun c hc ↦ ?_, fun hK ↦ ?_⟩
  · rcases List.mem_append.1 hc with hc | hc
    · exact h.depth_pos c hc
    · rw [List.mem_singleton.1 hc]
      exact hx1
  · have hK' : kraft ys ≤ 2 ^ 15 := by
      rw [kraft_append] at hK
      omega
    exact (h.shape hK').addCode htiles hK hx1 (Nat.lt_succ_of_le Nat.and_le_right) hmark hkeep

variable (byteSize outputSize) in
def CodeInv (R : Prop) (output : List UInt8) (ys zs : List Nat) (st : CodeState)
    (log : List Access) : Prop :=
  ∃ cs, (R ∧ CodeLoop ys zs st ∧ CodesSoFar ys st.table cs) ∧
    Filled byteSize outputSize output (fun j ↦ kraft ys ≤ 2 ^ 15 ∧ Needed cs j) log

theorem assignCode_triple {output : List UInt8} (ys : List Nat) (x : Nat) (zs : List Nat)
    (st : CodeState) :
    TripleE (CodeInv byteSize outputSize R output ys (x :: zs) st) (assignCode st x)
      (CodeInv byteSize outputSize R output (ys ++ [x]) zs) (Failed byteSize outputSize) := by
  unfold CodeInv
  refine TripleE.of_exists fun cs ↦ TripleE.of_frame fun ⟨hloop, hcodes⟩ ↦ ?_
  obtain ⟨hx, hx1, -⟩ := hloop.rest x List.mem_cons_self
  unfold assignCode
  simp only [length_symbol hx, hloop.next]
  refine TripleE.ite (fun _ ↦ TripleE.throw fun _ hl ↦ ⟨rfl, hl.2.1.safeLog⟩) fun hlt ↦ ?_
  rw [Int.toNat_natCast]
  refine TripleE.bind (writeTable_triple (by omega)) fun t1 ↦ TripleE.of_frame fun ht1 ↦ ?_
  refine TripleE.bind (markPrefixes_triple _ t1 (by omega)) fun t' ↦
    TripleE.of_frame fun ⟨hmark, hkeep⟩ ↦ ?_
  have hcodes' := hcodes.addCode hloop hmark fun j hj ↦ (hkeep j hj).trans (congrFun ht1 j)
  refine TripleE.pure_of fun _ hl ↦ ⟨_, ⟨hl.1, hloop.step t', hcodes'⟩, hl.2.mono ?_⟩
  rintro j ⟨hK, hj⟩
  have hn := (hcodes'.tiles.valid hK (List.mem_append_right _ (List.mem_singleton.2 rfl))).1
  have hK' : kraft ys ≤ 2 ^ 15 := by
    rw [kraft_append] at hK
    exact Nat.le_trans (Nat.le_add_right _ _) hK
  rcases needed_append hn hx1 hj with hj | hj | hj
  · exact Or.inl (Or.inl ⟨hK', hj⟩)
  · exact Or.inl (Or.inr hj)
  · exact Or.inr hj

theorem prefill_triple {output : List UInt8} {table : Nat → Nat} :
    TripleE (fun l ↦ R ∧ Written byteSize outputSize output l)
      ((List.range 32).foldlM (fun t i ↦ writeTable t i 0xffff) table)
      (fun t l ↦ (R ∧ ∀ j < 32, t j = 0xffff) ∧ Filled byteSize outputSize output (· < 32) l)
      (Failed byteSize outputSize) := by
  have hloop := TripleE.foldlM (E := Failed byteSize outputSize)
    (f := fun t i ↦ writeTable t i 0xffff) (I := fun ys zs t l ↦ ((R ∧ ∀ z ∈ zs, z < 32) ∧ ∀ j ∈ ys, t j = 0xffff) ∧
      Filled byteSize outputSize output (· ∈ ys) l) ?_ (List.range 32) [] table
  · refine TripleE.conseq hloop (fun _ hl ↦ ⟨⟨⟨hl.1, fun z hz ↦ List.mem_range.1 hz⟩,
      fun j hj ↦ absurd hj List.not_mem_nil⟩, hl.2, fun j hj ↦ absurd hj List.not_mem_nil⟩)
      (fun t l h ↦ ?_) (fun _ _ h ↦ h)
    obtain ⟨⟨⟨hR, -⟩, ht⟩, hfilled⟩ := h
    rw [List.nil_append] at ht hfilled
    exact ⟨⟨hR, fun j hj ↦ ht j (List.mem_range.2 hj)⟩,
      hfilled.mono fun j hj ↦ List.mem_range.2 hj⟩
  · intro ys x zs t
    refine TripleE.of_frame fun hys ↦ TripleE.of_pure fun ⟨_, hzs⟩ ↦ ?_
    have hx := hzs x List.mem_cons_self
    refine TripleE.conseq (writeTable_triple (by omega)) (fun _ hl ↦ hl) (fun t' l h ↦ ?_)
      (fun _ _ h ↦ h)
    obtain ⟨⟨⟨hR, -⟩, rfl⟩, hfilled⟩ := h
    refine ⟨⟨⟨hR, fun z hz ↦ hzs z (List.mem_cons_of_mem x hz)⟩, fun j hj ↦ ?_⟩,
      hfilled.mono fun j hj ↦ ?_⟩
    · rcases List.mem_append.1 hj with hj | hj
      · show (if j = x then 0xffff else t j) = 0xffff
        split_ifs
        · rfl
        · exact hys j hj
      · rw [List.mem_singleton.1 hj]
        exact if_pos rfl
    · rcases List.mem_append.1 hj with hj | hj
      · exact Or.inl hj
      · exact Or.inr (List.mem_singleton.1 hj)

theorem fillDecompTable_triple {output : List UInt8} {bs : Bitstream} :
    TripleE (fun l ↦ R ∧ Written byteSize outputSize output l) (fillDecompTable input byteSize bs)
      (fun r l ↦ ∃ cs, (R ∧ r.bytePos = bs.bytePos + 256 ∧ r.bytePos + 4 ≤ byteSize ∧
        CodeShape r.table cs) ∧ Run byteSize outputSize cs output l)
      (Failed byteSize outputSize) := by
  unfold fillDecompTable
  refine TripleE.bind (TripleE.conseq (TripleE.logEvent
    (Q := fun _ l ↦ R ∧ Written byteSize outputSize output l))
    (fun _ hl ↦ ⟨hl.1, hl.2.append trivial rfl fun _ h ↦ Access.noConfusion h⟩)
    (fun _ _ h ↦ h) (fun _ _ h ↦ h)) fun _ ↦ ?_
  refine TripleE.ite (fun _ ↦ TripleE.throw fun _ hl ↦ ⟨rfl, hl.2.safeLog⟩) fun hroom ↦ ?_
  generalize hr : List.range 256 = r
  have hr256 : ∀ i ∈ r, i < 256 := by
    intro i hi
    rw [← hr] at hi
    exact List.mem_range.1 hi
  have hbyte : ∀ i ∈ r, TripleE (fun l ↦ R ∧ Written byteSize outputSize output l)
      (inputByte input (bs.bytePos + i))
      (fun v l ↦ v < 256 ∧ R ∧ Written byteSize outputSize output l) (Failed byteSize outputSize) :=
    fun i hi ↦ TripleE.conseq (inputByte_triple input (Written.logInv output)
      (by have := hr256 i hi; omega)) (fun _ hl ↦ hl) (fun _ _ h ↦ ⟨h.1.2, h.1.1, h.2⟩)
      (fun _ _ h ↦ h)
  have hbytes : TripleE (fun l ↦ R ∧ Written byteSize outputSize output l)
      (r.mapM fun i ↦ inputByte input (bs.bytePos + i))
      (fun bytes l ↦ (R ∧ bytes.length = r.length ∧ ∀ b ∈ bytes, b < 256) ∧
        Written byteSize outputSize output l) (Failed byteSize outputSize) :=
    TripleE.conseq (TripleE.mapM hbyte) (fun _ hl ↦ hl) (fun _ _ h ↦ ⟨⟨h.2.1, h.1⟩, h.2.2⟩)
      (fun _ _ h ↦ h)
  refine TripleE.bind hbytes fun bytes ↦ TripleE.of_frame fun ⟨hlen, hlt⟩ ↦ ?_
  have hsymbols : ∀ s ∈ tableSymbols bytes, s < 8192 ∧ 1 ≤ s / 512 := fun s hs ↦
    mem_tableSymbols (by rw [hlen, ← hr, List.length_range]) hlt hs
  dsimp only
  refine TripleE.ite (fun _ ↦ TripleE.throw fun _ hl ↦ ⟨rfl, hl.2.safeLog⟩) fun _ ↦ ?_
  refine TripleE.bind prefill_triple fun table ↦ TripleE.of_frame fun hhead ↦ ?_
  have hsorted : ((tableSymbols bytes).mergeSort fun a b ↦ decide (a ≤ b)).Pairwise (· ≤ ·) := by
    have h := List.pairwise_mergeSort
      (fun (a b c : Nat) (hab : decide (a ≤ b) = true) (hbc : decide (b ≤ c) = true) ↦
        decide_eq_true (Nat.le_trans (of_decide_eq_true hab) (of_decide_eq_true hbc)))
      (fun (a b : Nat) ↦ show (decide (a ≤ b) || decide (b ≤ a)) = true by
        simp only [Bool.or_eq_true, decide_eq_true_eq]
        omega) (tableSymbols bytes)
    exact h.imp of_decide_eq_true
  have hloop := TripleE.foldlM (E := Failed byteSize outputSize)
    (I := CodeInv byteSize outputSize R output) assignCode_triple
    ((tableSymbols bytes).mergeSort fun a b ↦ decide (a ≤ b)) [] ⟨-1, 0, 0, table⟩
  refine TripleE.bind (TripleE.conseq hloop (fun l hl ↦ ⟨[], ⟨hl.1, ?_, ?_⟩, ?_⟩) (fun _ _ h ↦ h)
    (fun _ _ h ↦ h)) fun st ↦ ?_
  · refine ⟨rfl, Nat.zero_le _, show (-1 : Int) + 1 = (startingAt 15 0 (kraft [])).index by decide,
      Nat.dvd_zero _, hsorted, fun z hz ↦ ?_⟩
    obtain ⟨h1, h2⟩ := hsymbols z (List.mem_mergeSort.1 hz)
    exact ⟨h1, h2, Nat.zero_le _⟩
  · exact ⟨Tiles.nil 0, fun c hc ↦ absurd hc List.not_mem_nil,
      fun _ ↦ ⟨fun c hc ↦ absurd hc List.not_mem_nil, fun j hj _ ↦ hhead j hj,
        fun _ c hc ↦ absurd hc List.not_mem_nil⟩⟩
  · refine hl.2.mono fun j ⟨_, hj⟩ ↦ ?_
    rcases hj with hj | ⟨c, hc, -⟩ | ⟨_, c, hc, -⟩
    · exact hj
    · exact absurd hc List.not_mem_nil
    · exact absurd hc List.not_mem_nil
  refine TripleE.of_exists fun cs ↦ TripleE.of_frame fun ⟨hcodeLoop, hcodes⟩ ↦ ?_
  refine TripleE.ite (fun _ ↦ TripleE.throw fun _ hl ↦ ⟨rfl, hl.2.1.safeLog⟩) fun hfinal ↦ ?_
  have hK := hcodeLoop.kraft_eq (not_not.1 hfinal)
  refine TripleE.pure_of fun _ hl ↦ ⟨cs, ⟨hl.1, rfl, show bs.bytePos + 256 + 4 ≤ byteSize by omega,
    ⟨hK ▸ hcodes.tiles, hcodes.depth_pos, hcodes.shape hK.le⟩⟩, hl.2.1, fun j hj ↦ hl.2.2 j ⟨hK.le, hj⟩⟩

theorem decompressBlock_triple {output : List UInt8} {bs : Bitstream} {blockSize total : Nat}
    (hprev : output.length = previousSize) (hblock : blockSize ≤ outputSize)
    (htotal : previousSize + outputSize = total) :
    TripleE (fun l ↦ R ∧ Written byteSize total output l)
      (decompressBlock input byteSize outputSize previousSize bs output blockSize)
      (fun r l ↦ (R ∧ bs.bytePos + 260 ≤ r.1.bytePos ∧ r.1.bytePos ≤ byteSize ∧
        r.2.length ≤ total) ∧ Written byteSize total r.2 l)
      (Failed byteSize total) := by
  subst htotal
  unfold decompressBlock
  refine TripleE.bind (fillDecompTable_triple input) fun bs1 ↦ TripleE.of_exists fun cs ↦ ?_
  refine TripleE.of_frame fun ⟨hpos1, _, hshape⟩ ↦ ?_
  refine TripleE.bind (checkRead_triple input Run.logInv) fun ⟨tmp, bs2⟩ ↦ ?_
  refine TripleE.of_frame fun ⟨hbs2, _⟩ ↦ ?_
  refine TripleE.bind (checkRead_triple input Run.logInv) fun ⟨bits, bs3⟩ ↦ ?_
  refine TripleE.of_frame fun ⟨hbs3, hle3⟩ ↦ ?_
  simp only at hbs2 hbs3
  subst hbs2 hbs3
  refine TripleE.bind (decodeLoop_triple input hshape hblock (maxTurns byteSize) _ ⟨output, 0, 0, 0, 0⟩
    ⟨⟨hle3, Nat.le_add_left _ _, Nat.le_refl _⟩, rfl, hshape.inner_zero, Nat.le_of_eq hprev.symm,
      by dsimp only; omega, fun h ↦ absurd rfl h⟩ ?_) fun ⟨bs4, blk⟩ ↦ ?_
  · simp only [bitsLeft, maxTurns]
    omega
  refine TripleE.of_frame fun ⟨hturn4, hpos4⟩ ↦ ?_
  dsimp only at hturn4 hpos4
  have hpos : bs.bytePos + 260 ≤ bs4.bytePos := by omega
  refine TripleE.ite (fun _ ↦ TripleE.throw fun _ hl ↦ ⟨rfl, hl.2.1.safeLog⟩) fun _ ↦ ?_
  refine TripleE.ite (fun _ ↦ TripleE.pure_of fun _ hl ↦
    ⟨⟨hl.1, hpos, hturn4.bits.bytePos_le, hturn4.output_le⟩, hl.2.1⟩) fun _ ↦ ?_
  refine TripleE.bind (eofLoop_triple input hshape (maxTurns byteSize) bs4 0 false hturn4.bits hturn4.table
    (fun _ ↦ hshape.inner_zero) ?_) fun ⟨bs5, seen⟩ ↦ ?_
  · have := hturn4.bits.remaining_le
    simp only [bitsLeft, maxTurns]
    omega
  refine TripleE.of_frame fun ⟨hle5, hpos5⟩ ↦ ?_
  exact TripleE.ite (fun _ ↦ TripleE.pure_of fun _ hl ↦
      ⟨⟨hl.1, Nat.le_trans hpos hpos5, hle5, hturn4.output_le⟩, hl.2.1⟩)
    fun _ ↦ TripleE.throw fun _ hl ↦ ⟨rfl, hl.2.1.safeLog⟩

theorem blocksLoop_triple :
    ∀ (fuel : Nat) (bs : Bitstream) (output : List UInt8), byteSize - bs.bytePos < fuel →
      output.length ≤ outputSize →
      TripleE (fun l ↦ R ∧ Written byteSize outputSize output l)
        (blocksLoop input byteSize outputSize fuel bs output)
        (fun r l ↦ (R ∧ r.2.length ≤ outputSize) ∧ Written byteSize outputSize r.2 l)
        (Failed byteSize outputSize)
  | 0, _, _, hfuel, _ => absurd hfuel (Nat.not_lt_zero _)
  | fuel + 1, bs, output, hfuel, hout => by
    rw [blocksLoop]
    refine TripleE.ite (fun hlt ↦ ?_) fun _ ↦ TripleE.pure_of fun _ hl ↦ ⟨⟨hl.1, hout⟩, hl.2⟩
    dsimp only
    refine TripleE.bind (decompressBlock_triple input rfl (Nat.min_le_right _ _) (by omega))
      fun ⟨bs', output'⟩ ↦ ?_
    refine TripleE.of_frame fun ⟨hpos, hle, _⟩ ↦ ?_
    dsimp only at hpos hle
    refine TripleE.ite (fun _ ↦ TripleE.throw fun _ hl ↦ ⟨rfl, hl.2.safeLog⟩) fun _ ↦
      TripleE.ite (fun _ ↦ TripleE.throw fun _ hl ↦ ⟨rfl, hl.2.safeLog⟩) fun hout' ↦ ?_
    exact blocksLoop_triple fuel bs' output' (by omega) (by omega)

theorem Written.nil : Written byteSize outputSize [] [] :=
  ⟨fun _ h ↦ absurd h List.not_mem_nil, rfl, fun _ _ h ↦ by simp at h⟩

variable (byteSize outputSize) in
theorem lzxpressHuffmanDecompress_triple (table : Nat → Nat) :
    TripleE (fun l ↦ R ∧ Written byteSize outputSize [] l)
      (lzxpressHuffmanDecompress input byteSize outputSize table)
      (fun out l ↦ (R ∧ out.length ≤ outputSize) ∧ Written byteSize outputSize out l)
      (Failed byteSize outputSize) := by
  unfold lzxpressHuffmanDecompress lzxpressHuffmanDecompressInternal
  refine TripleE.ite (fun _ ↦ TripleE.throw fun _ hl ↦ ⟨rfl, hl.2.safeLog⟩) fun _ ↦ ?_
  refine TripleE.ite (fun _ ↦ TripleE.throw fun _ hl ↦ ⟨rfl, hl.2.safeLog⟩) fun _ ↦ ?_
  refine TripleE.bind (blocksLoop_triple input _ _ _ (Nat.lt_succ_of_le (Nat.sub_le _ _))
    (Nat.zero_le _)) fun ⟨bs, out⟩ ↦ ?_
  exact TripleE.ite (fun _ ↦ TripleE.throw fun _ hl ↦ ⟨rfl, hl.2.safeLog⟩) fun _ ↦
    TripleE.pure_of fun _ hl ↦ hl

variable (byteSize outputSize) in
structure SafeRun (r : Except Failure (List UInt8) × List Access) : Prop where
  ends : r.1 ≠ .error .fuel
  ok : ∀ a ∈ r.2, AccessOk byteSize outputSize a
  reads : ∀ k i, r.2[k]? = some (Access.getTable i) → SetSince (r.2.take k) i
  length_le : ∀ output, r.1 = .ok output → output.length ≤ outputSize
  dests : ∀ output, r.1 = .ok output → r.2.filterMap Access.dest? = List.range output.length

theorem lzxpressHuffmanDecompress_safe (input : Nat → UInt8) (byteSize outputSize : Nat)
    (table : Nat → Nat) :
    SafeRun byteSize outputSize (runLogged (lzxpressHuffmanDecompress input byteSize outputSize table)) := by
  have h := (lzxpressHuffmanDecompress_triple byteSize outputSize input (R := True) table).runLogged
    ⟨trivial, Written.nil⟩
  rcases hr : runLogged (lzxpressHuffmanDecompress input byteSize outputSize table) with
    ⟨e | out, log⟩
  · rw [hr] at h
    obtain ⟨rfl, output, hw⟩ := h
    exact ⟨by simp, hw.ok, hw.reads, fun _ h ↦ by simp at h, fun _ h ↦ by simp at h⟩
  · rw [hr] at h
    obtain ⟨⟨-, hlen⟩, hw⟩ := h
    refine ⟨by simp, hw.ok, hw.reads, fun o ho ↦ ?_, fun o ho ↦ ?_⟩
    · rw [← Except.ok.inj ho]
      exact hlen
    · rw [← Except.ok.inj ho]
      exact hw.dests

end Safety

end Samba.Compression.LzxpressHuffman
