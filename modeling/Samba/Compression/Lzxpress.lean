import Samba.Lib.ReadLog

namespace Samba.Compression.Lzxpress

open Samba.Lib.ReadLog

inductive Access
  | input (i : Nat)
  | write (i : Nat)
  | copy (src dst : Nat)
  deriving DecidableEq, Repr

abbrev Lzx := Logged Access Unit

/-- `__CHECK_BYTES(size, index, needed)` lets the code go on: `index < size`, and
`needed` bytes are left from `index`. -/
def bytesLeft (size index needed : Nat) : Bool := index < size && needed ≤ size - index

def u32 (n : Nat) : Nat := n % 2 ^ 32

def checkBytes (size index needed : Nat) : Lzx Unit :=
  if bytesLeft size index needed then pure () else throw ()

section Decompress

variable (input : Nat → UInt8) (inputSize maxOutputSize : Nat)

def inputByte (i : Nat) : Lzx Nat := do
  logEvent (.input i)
  return (input i).toNat

def pullLeU16 (i : Nat) : Lzx Nat := do
  let lo ← inputByte input i
  let hi ← inputByte input (i + 1)
  return lo + hi * 2 ^ 8

def pullLeU32 (i : Nat) : Lzx Nat := do
  let lo ← pullLeU16 input i
  let hi ← pullLeU16 input (i + 2)
  return lo + hi * 2 ^ 16

structure DecompressState where
  output : List UInt8
  inputIndex : Nat
  indicator : Nat
  indicatorBit : Nat
  nibbleIndex : Nat
  deriving DecidableEq, Repr

def decodeLiteral (st : DecompressState) : Lzx DecompressState := do
  checkBytes inputSize st.inputIndex 1
  checkBytes maxOutputSize st.output.length 1
  let c ← inputByte input st.inputIndex
  logEvent (.write st.output.length)
  return { st with output := st.output ++ [UInt8.ofNat c], inputIndex := st.inputIndex + 1 }

def nibbleLength (inputIndex nibbleIndex : Nat) : Lzx (Nat × Nat × Nat) :=
  if nibbleIndex = 0 then do
    checkBytes inputSize inputIndex 1
    let b ← inputByte input inputIndex
    return (b % 16, inputIndex + 1, inputIndex)
  else do
    let b ← inputByte input nibbleIndex
    return (b / 16, inputIndex, 0)

def wideLength (inputIndex : Nat) : Lzx (Nat × Nat) := do
  checkBytes inputSize inputIndex 2
  let length ← pullLeU16 input inputIndex
  if length = 0 then
    checkBytes inputSize (inputIndex + 2) 4
    return (← pullLeU32 input (inputIndex + 2), inputIndex + 2 + 4)
  else return (length, inputIndex + 2)

def extendedLength (inputIndex : Nat) : Lzx (Nat × Nat) := do
  checkBytes inputSize inputIndex 1
  let length ← inputByte input inputIndex
  if length = 255 then
    let (length, inputIndex) ← wideLength input inputSize (inputIndex + 1)
    if length < 15 + 7 then throw ()
    return (u32 (length - (15 + 7) + 15), inputIndex)
  else return (u32 (length + 15), inputIndex + 1)

def matchLength (word inputIndex nibbleIndex : Nat) : Lzx (Nat × Nat × Nat) := do
  if word % 8 = 7 then
    let (length, inputIndex, nibbleIndex) ← nibbleLength input inputSize inputIndex nibbleIndex
    let (length, inputIndex) ← if length = 15 then extendedLength input inputSize inputIndex
      else pure (length, inputIndex)
    return (u32 (u32 (length + 7) + 3), inputIndex, nibbleIndex)
  else return (word % 8 + 3, inputIndex, nibbleIndex)

def copyMatch (offset : Nat) : Nat → List UInt8 → Lzx (List UInt8)
  | 0, output => pure output
  | length + 1, output => do
    if output.length < offset then throw ()
    checkBytes maxOutputSize output.length 1
    logEvent (.copy (output.length - offset) output.length)
    copyMatch offset length (output ++ [output.getD (output.length - offset) 0])

def decodeMatch (st : DecompressState) : Lzx DecompressState := do
  checkBytes inputSize st.inputIndex 2
  let word ← pullLeU16 input st.inputIndex
  let (length, inputIndex, nibbleIndex) ←
    matchLength input inputSize word (st.inputIndex + 2) st.nibbleIndex
  if length = 0 then throw ()
  let output ← copyMatch maxOutputSize (word / 8 + 1) length st.output
  return { st with output, inputIndex, nibbleIndex }

def decodeItem (st : DecompressState) : Lzx DecompressState :=
  let st := { st with indicatorBit := st.indicatorBit - 1 }
  if (st.indicator >>> st.indicatorBit) % 2 = 0 then decodeLiteral input inputSize maxOutputSize st
  else decodeMatch input inputSize maxOutputSize st

def decompressTurn (st : DecompressState) : Lzx (DecompressState × Bool) :=
  if st.indicatorBit = 0 then do
    checkBytes inputSize st.inputIndex 4
    let indicator ← pullLeU32 input st.inputIndex
    let st := { st with indicator, inputIndex := st.inputIndex + 4 }
    if st.inputIndex = inputSize then return (st, true)
    return (← decodeItem input inputSize maxOutputSize { st with indicatorBit := 32 }, false)
  else return (← decodeItem input inputSize maxOutputSize st, false)

def decompressLoop : Nat → DecompressState → Lzx (List UInt8)
  | 0, st => pure st.output
  | fuel + 1, st => do
    let (st, stop) ← decompressTurn input inputSize maxOutputSize st
    if stop then return st.output
    if st.output.length < maxOutputSize ∧ st.inputIndex < inputSize then
      decompressLoop fuel st
    else return st.output

/-- `lzxpress_decompress(input, input_size, output, max_output_size)`: the bytes it
writes, whose number it returns. Every turn reads input, so `input_size + 1` turns are
enough. -/
def lzxpressDecompress : Lzx (List UInt8) :=
  if inputSize = 0 then pure []
  else decompressLoop input inputSize maxOutputSize (inputSize + 1) ⟨[], 0, 0, 0, 0⟩

end Decompress

section Safety

variable (input : Nat → UInt8) (inputSize maxOutputSize : Nat)

def AccessOk : Access → Prop
  | .input i => i < inputSize
  | .write i => i < maxOutputSize
  | .copy src dst => src < dst ∧ dst < maxOutputSize

def Access.dest? : Access → Option Nat
  | .input _ => none
  | .write i => some i
  | .copy _ dst => some dst

def Written (output : List UInt8) (log : List Access) : Prop :=
  (∀ a ∈ log, AccessOk inputSize maxOutputSize a) ∧ log.filterMap Access.dest? = List.range output.length

def SafeLog (log : List Access) : Prop := ∃ output, Written inputSize maxOutputSize output log

structure StateOk (st : DecompressState) : Prop where
  output_le : st.output.length ≤ maxOutputSize
  inputIndex_le : st.inputIndex ≤ inputSize
  nibble : st.nibbleIndex = 0 ∨ st.nibbleIndex < inputSize

variable {inputSize maxOutputSize}

theorem Written.safeLog {output : List UInt8} {log : List Access}
    (h : Written inputSize maxOutputSize output log) : SafeLog inputSize maxOutputSize log :=
  ⟨output, h⟩

theorem Written.append_input {output : List UInt8} {log : List Access} {i : Nat}
    (h : Written inputSize maxOutputSize output log) (hi : i < inputSize) :
    Written inputSize maxOutputSize output (log ++ [.input i]) := by
  refine ⟨fun a ha ↦ ?_, ?_⟩
  · rcases List.mem_append.1 ha with ha | ha
    · exact h.1 a ha
    · rw [List.mem_singleton.1 ha]
      exact hi
  · rw [List.filterMap_append, h.2]
    simp [Access.dest?]

theorem Written.append_write {output : List UInt8} {log : List Access} {b : UInt8}
    (h : Written inputSize maxOutputSize output log) (hlt : output.length < maxOutputSize) :
    Written inputSize maxOutputSize (output ++ [b]) (log ++ [.write output.length]) := by
  refine ⟨fun a ha ↦ ?_, ?_⟩
  · rcases List.mem_append.1 ha with ha | ha
    · exact h.1 a ha
    · rw [List.mem_singleton.1 ha]
      exact hlt
  · rw [List.filterMap_append, h.2, List.length_append, List.length_singleton, List.range_succ]
    simp [Access.dest?]

theorem Written.append_copy {output : List UInt8} {log : List Access} {b : UInt8} {src : Nat}
    (h : Written inputSize maxOutputSize output log) (hsrc : src < output.length)
    (hlt : output.length < maxOutputSize) :
    Written inputSize maxOutputSize (output ++ [b]) (log ++ [.copy src output.length]) := by
  refine ⟨fun a ha ↦ ?_, ?_⟩
  · rcases List.mem_append.1 ha with ha | ha
    · exact h.1 a ha
    · rw [List.mem_singleton.1 ha]
      exact ⟨hsrc, hlt⟩
  · rw [List.filterMap_append, h.2, List.length_append, List.length_singleton, List.range_succ]
    simp [Access.dest?]

variable {R : Prop} {output : List UInt8}

-- equation lemmas made once, before the proofs below use them in parallel
attribute [local simp] bytesLeft.eq_1 checkBytes.eq_1
attribute [-simp] bytesLeft.eq_1 checkBytes.eq_1

theorem checkBytes_triple {size index needed : Nat} :
    Triple (fun l ↦ R ∧ Written inputSize maxOutputSize output l) (checkBytes size index needed)
      (fun _ l ↦ (R ∧ index < size ∧ index + needed ≤ size) ∧
        Written inputSize maxOutputSize output l) (SafeLog inputSize maxOutputSize) := by
  unfold checkBytes
  refine Triple.ite (fun h ↦ Triple.conseq Triple.pure (fun l hl ↦ ?_) (fun _ _ h ↦ h)
    (fun _ h ↦ h)) (fun _ ↦ Triple.conseq Triple.throw (fun l hl ↦ hl.2.safeLog) (fun _ _ h ↦ h)
    (fun _ h ↦ h))
  simp only [bytesLeft, Bool.and_eq_true, decide_eq_true_eq] at h
  exact ⟨⟨hl.1, h.1, by omega⟩, hl.2⟩

theorem inputByte_triple {i : Nat} (hi : i < inputSize) :
    Triple (fun l ↦ R ∧ Written inputSize maxOutputSize output l) (inputByte input i)
      (fun _ l ↦ R ∧ Written inputSize maxOutputSize output l) (SafeLog inputSize maxOutputSize) :=
  Triple.bind (Triple.conseq Triple.logEvent (fun _ hl ↦ ⟨hl.1, hl.2.append_input hi⟩)
    (fun _ _ h ↦ h) (fun _ h ↦ h)) fun _ ↦ Triple.pure

theorem pullLeU16_triple {i : Nat} (hi : i + 2 ≤ inputSize) :
    Triple (fun l ↦ R ∧ Written inputSize maxOutputSize output l) (pullLeU16 input i)
      (fun _ l ↦ R ∧ Written inputSize maxOutputSize output l) (SafeLog inputSize maxOutputSize) :=
  Triple.bind (inputByte_triple input (by omega)) fun _ ↦
    Triple.bind (inputByte_triple input (by omega)) fun _ ↦ Triple.pure_of fun _ h ↦ h

theorem pullLeU32_triple {i : Nat} (hi : i + 4 ≤ inputSize) :
    Triple (fun l ↦ R ∧ Written inputSize maxOutputSize output l) (pullLeU32 input i)
      (fun _ l ↦ R ∧ Written inputSize maxOutputSize output l) (SafeLog inputSize maxOutputSize) :=
  Triple.bind (pullLeU16_triple input (by omega)) fun _ ↦
    Triple.bind (pullLeU16_triple input (by omega)) fun _ ↦ Triple.pure_of fun _ h ↦ h

theorem decodeLiteral_triple {st : DecompressState} (hst : StateOk inputSize maxOutputSize st) :
    Triple (fun l ↦ R ∧ Written inputSize maxOutputSize st.output l)
      (decodeLiteral input inputSize maxOutputSize st)
      (fun st' l ↦ (R ∧ StateOk inputSize maxOutputSize st' ∧ st.inputIndex < st'.inputIndex) ∧
        Written inputSize maxOutputSize st'.output l) (SafeLog inputSize maxOutputSize) := by
  unfold decodeLiteral
  refine Triple.bind checkBytes_triple fun _ ↦ Triple.bind checkBytes_triple fun _ ↦ ?_
  refine Triple.of_pure fun ⟨⟨_, hin, hin'⟩, hout, hout'⟩ ↦ ?_
  refine Triple.bind (inputByte_triple input hin) fun c ↦ ?_
  refine Triple.bind (Triple.conseq Triple.logEvent (fun l hl ↦ ?_) (fun _ _ h ↦ h) (fun _ h ↦ h))
    fun _ ↦ Triple.pure
  refine ⟨⟨hl.1.1.1, ⟨?_, hin', hst.nibble⟩, Nat.lt_succ_self _⟩, hl.2.append_write hout⟩
  simp only [List.length_append, List.length_singleton]
  omega

theorem nibbleLength_triple {inputIndex nibbleIndex : Nat} (hin : inputIndex ≤ inputSize)
    (hnib : nibbleIndex = 0 ∨ nibbleIndex < inputSize) :
    Triple (fun l ↦ R ∧ Written inputSize maxOutputSize output l)
      (nibbleLength input inputSize inputIndex nibbleIndex)
      (fun r l ↦ (R ∧ inputIndex ≤ r.2.1 ∧ r.2.1 ≤ inputSize ∧ (r.2.2 = 0 ∨ r.2.2 < inputSize)) ∧
        Written inputSize maxOutputSize output l) (SafeLog inputSize maxOutputSize) := by
  unfold nibbleLength
  refine Triple.ite (fun _ ↦ ?_) (fun hne ↦ ?_)
  · refine Triple.bind checkBytes_triple fun _ ↦ Triple.of_pure fun ⟨_, hlt, hle⟩ ↦ ?_
    refine Triple.bind (inputByte_triple input hlt) fun _ ↦
      Triple.pure_of fun l hl ↦ ⟨⟨hl.1.1, Nat.le_succ _, hle, Or.inr hlt⟩, hl.2⟩
  · refine Triple.bind (inputByte_triple input (hnib.resolve_left hne)) fun _ ↦
      Triple.pure_of fun l hl ↦ ⟨⟨hl.1, Nat.le_refl _, hin, Or.inl rfl⟩, hl.2⟩

theorem wideLength_triple {inputIndex : Nat} :
    Triple (fun l ↦ R ∧ Written inputSize maxOutputSize output l)
      (wideLength input inputSize inputIndex)
      (fun r l ↦ (R ∧ inputIndex ≤ r.2 ∧ r.2 ≤ inputSize) ∧
        Written inputSize maxOutputSize output l) (SafeLog inputSize maxOutputSize) := by
  unfold wideLength
  refine Triple.bind checkBytes_triple fun _ ↦ Triple.of_pure fun ⟨_, _, hle⟩ ↦ ?_
  refine Triple.bind (pullLeU16_triple input hle) fun _ ↦ Triple.ite (fun _ ↦ ?_)
    (fun _ ↦ Triple.pure_of fun l hl ↦ ⟨⟨hl.1.1, Nat.le_add_right _ _, hle⟩, hl.2⟩)
  refine Triple.bind checkBytes_triple fun _ ↦ Triple.of_pure fun ⟨_, _, hle4⟩ ↦ ?_
  refine Triple.bind (pullLeU32_triple input hle4) fun _ ↦
    Triple.pure_of fun l hl ↦ ⟨⟨hl.1.1.1, by omega, hle4⟩, hl.2⟩

theorem extendedLength_triple {inputIndex : Nat} :
    Triple (fun l ↦ R ∧ Written inputSize maxOutputSize output l)
      (extendedLength input inputSize inputIndex)
      (fun r l ↦ (R ∧ inputIndex ≤ r.2 ∧ r.2 ≤ inputSize) ∧
        Written inputSize maxOutputSize output l) (SafeLog inputSize maxOutputSize) := by
  unfold extendedLength
  refine Triple.bind checkBytes_triple fun _ ↦ Triple.of_pure fun ⟨_, hlt, hle⟩ ↦ ?_
  refine Triple.bind (inputByte_triple input hlt) fun _ ↦ Triple.ite (fun _ ↦ ?_)
    (fun _ ↦ Triple.pure_of fun l hl ↦ ⟨⟨hl.1.1, Nat.le_succ _, hle⟩, hl.2⟩)
  refine Triple.bind (wideLength_triple input) fun ⟨length, inputIndex'⟩ ↦ ?_
  dsimp only
  refine Triple.ite (fun _ ↦ Triple.conseq Triple.throw_bind (fun l hl ↦ hl.2.safeLog)
    (fun _ _ h ↦ h) (fun _ h ↦ h)) (fun _ ↦ Triple.pure_of fun l hl ↦ ?_)
  exact ⟨⟨hl.1.1.1, by have := hl.1.2.1; omega, hl.1.2.2⟩, hl.2⟩

theorem matchLength_triple {word inputIndex nibbleIndex : Nat} (hin : inputIndex ≤ inputSize)
    (hnib : nibbleIndex = 0 ∨ nibbleIndex < inputSize) :
    Triple (fun l ↦ R ∧ Written inputSize maxOutputSize output l)
      (matchLength input inputSize word inputIndex nibbleIndex)
      (fun r l ↦ (R ∧ inputIndex ≤ r.2.1 ∧ r.2.1 ≤ inputSize ∧ (r.2.2 = 0 ∨ r.2.2 < inputSize)) ∧
        Written inputSize maxOutputSize output l) (SafeLog inputSize maxOutputSize) := by
  unfold matchLength
  refine Triple.ite (fun _ ↦ ?_)
    (fun _ ↦ Triple.pure_of fun l hl ↦ ⟨⟨hl.1, Nat.le_refl _, hin, hnib⟩, hl.2⟩)
  refine Triple.bind (nibbleLength_triple input hin hnib) fun ⟨length, inputIndex', nibbleIndex'⟩ ↦ ?_
  dsimp only
  refine Triple.of_pure fun ⟨_, h1, h2, h3⟩ ↦ ?_
  refine Triple.ite (fun _ ↦ Triple.bind (extendedLength_triple input) fun _ ↦
    Triple.pure_of fun l hl ↦ ⟨⟨hl.1.1.1, Nat.le_trans h1 hl.1.2.1, hl.1.2.2, h3⟩, hl.2⟩)
    (fun _ ↦ Triple.pure_of fun l hl ↦ ⟨⟨hl.1.1, h1, h2, h3⟩, hl.2⟩)

theorem copyMatch_triple {offset : Nat} (hoff : 0 < offset) :
    ∀ (length : Nat) (output : List UInt8), output.length ≤ maxOutputSize →
      Triple (fun l ↦ R ∧ Written inputSize maxOutputSize output l)
        (copyMatch maxOutputSize offset length output)
        (fun out l ↦ (R ∧ out.length ≤ maxOutputSize) ∧ Written inputSize maxOutputSize out l)
        (SafeLog inputSize maxOutputSize)
  | 0, output, hle => Triple.pure_of fun l hl ↦ ⟨⟨hl.1, hle⟩, hl.2⟩
  | length + 1, output, _ => by
    unfold copyMatch
    refine Triple.ite (fun _ ↦ Triple.conseq Triple.throw_bind (fun l hl ↦ hl.2.safeLog)
      (fun _ _ h ↦ h) (fun _ h ↦ h)) (fun hback ↦ ?_)
    refine Triple.bind checkBytes_triple fun _ ↦ Triple.of_pure fun ⟨_, hlt, hle⟩ ↦ ?_
    refine Triple.bind (Triple.conseq Triple.logEvent (fun l hl ↦ ⟨hl.1.1, ?_⟩) (fun _ _ h ↦ h)
      (fun _ h ↦ h)) fun _ ↦ copyMatch_triple hoff length _ ?_
    · rw [List.length_append, List.length_singleton]
      exact hle
    · exact hl.2.append_copy (by omega) hlt

theorem decodeMatch_triple {st : DecompressState} (hst : StateOk inputSize maxOutputSize st) :
    Triple (fun l ↦ R ∧ Written inputSize maxOutputSize st.output l)
      (decodeMatch input inputSize maxOutputSize st)
      (fun st' l ↦ (R ∧ StateOk inputSize maxOutputSize st' ∧ st.inputIndex < st'.inputIndex) ∧
        Written inputSize maxOutputSize st'.output l) (SafeLog inputSize maxOutputSize) := by
  unfold decodeMatch
  refine Triple.bind checkBytes_triple fun _ ↦ Triple.of_pure fun ⟨_, _, hle⟩ ↦ ?_
  refine Triple.bind (pullLeU16_triple input hle) fun word ↦ ?_
  refine Triple.bind (matchLength_triple input hle hst.nibble) fun ⟨length, inputIndex, nibbleIndex⟩ ↦ ?_
  dsimp only
  refine Triple.of_pure fun ⟨_, h1, h2, h3⟩ ↦ ?_
  refine Triple.ite (fun _ ↦ Triple.conseq Triple.throw_bind (fun l hl ↦ hl.2.safeLog)
    (fun _ _ h ↦ h) (fun _ h ↦ h)) (fun _ ↦ ?_)
  refine Triple.bind (copyMatch_triple (Nat.succ_pos _) length st.output hst.output_le)
    fun output ↦ Triple.pure_of fun l hl ↦ ⟨⟨hl.1.1.1.1, ⟨hl.1.2, h2, h3⟩, ?_⟩, hl.2⟩
  show st.inputIndex < inputIndex
  omega

theorem decodeItem_triple {st : DecompressState} (hst : StateOk inputSize maxOutputSize st) :
    Triple (fun l ↦ R ∧ Written inputSize maxOutputSize st.output l)
      (decodeItem input inputSize maxOutputSize st)
      (fun st' l ↦ (R ∧ StateOk inputSize maxOutputSize st' ∧ st.inputIndex < st'.inputIndex) ∧
        Written inputSize maxOutputSize st'.output l) (SafeLog inputSize maxOutputSize) := by
  unfold decodeItem
  have hst' : StateOk inputSize maxOutputSize { st with indicatorBit := st.indicatorBit - 1 } :=
    ⟨hst.output_le, hst.inputIndex_le, hst.nibble⟩
  exact Triple.ite (fun _ ↦ decodeLiteral_triple input hst') (fun _ ↦ decodeMatch_triple input hst')

theorem decompressTurn_triple {st : DecompressState} (hst : StateOk inputSize maxOutputSize st) :
    Triple (fun l ↦ R ∧ Written inputSize maxOutputSize st.output l)
      (decompressTurn input inputSize maxOutputSize st)
      (fun r l ↦ (R ∧ StateOk inputSize maxOutputSize r.1 ∧ st.inputIndex < r.1.inputIndex) ∧
        Written inputSize maxOutputSize r.1.output l) (SafeLog inputSize maxOutputSize) := by
  unfold decompressTurn
  refine Triple.ite (fun _ ↦ ?_) (fun _ ↦ Triple.bind (decodeItem_triple input hst) fun _ ↦
    Triple.pure_of fun _ h ↦ h)
  refine Triple.bind checkBytes_triple fun _ ↦ Triple.of_pure fun ⟨_, _, hle⟩ ↦ ?_
  refine Triple.bind (pullLeU32_triple input hle) fun indicator ↦ Triple.ite (fun _ ↦ ?_) (fun _ ↦ ?_)
  · refine Triple.pure_of fun l hl ↦ ⟨⟨hl.1.1, ⟨hst.output_le, hle, hst.nibble⟩, ?_⟩, hl.2⟩
    show st.inputIndex < st.inputIndex + 4
    omega
  · have hst' : StateOk inputSize maxOutputSize
        { { st with indicator, inputIndex := st.inputIndex + 4 } with indicatorBit := 32 } :=
      ⟨hst.output_le, hle, hst.nibble⟩
    refine Triple.bind (decodeItem_triple input hst') fun st' ↦
      Triple.pure_of fun l hl ↦ ⟨⟨hl.1.1.1, hl.1.2.1, ?_⟩, hl.2⟩
    have h := hl.1.2.2
    show st.inputIndex < st'.inputIndex
    dsimp only at h
    omega

theorem decompressLoop_triple (fuel : Nat) (st : DecompressState)
    (hst : StateOk inputSize maxOutputSize st) :
    Triple (fun l ↦ R ∧ Written inputSize maxOutputSize st.output l)
      (decompressLoop input inputSize maxOutputSize fuel st)
      (fun out l ↦ (R ∧ out.length ≤ maxOutputSize) ∧ Written inputSize maxOutputSize out l)
      (SafeLog inputSize maxOutputSize) := by
  induction fuel generalizing st R with
  | zero => exact Triple.pure_of fun _ hl ↦ ⟨⟨hl.1, hst.output_le⟩, hl.2⟩
  | succ fuel ih =>
    rw [decompressLoop]
    refine Triple.bind (decompressTurn_triple input hst) fun ⟨st', stop⟩ ↦ ?_
    dsimp only
    refine Triple.of_pure fun ⟨_, hst', _⟩ ↦ ?_
    refine Triple.ite (fun _ ↦ Triple.pure_of fun _ hl ↦ ⟨⟨hl.1.1, hst'.output_le⟩, hl.2⟩)
      (fun _ ↦ Triple.ite (fun _ ↦ ?_) (fun _ ↦ Triple.pure_of fun _ hl ↦ ⟨⟨hl.1.1, hst'.output_le⟩, hl.2⟩))
    exact Triple.conseq (ih st' hst') (fun _ hl ↦ hl) (fun _ _ h ↦ ⟨⟨h.1.1.1, h.1.2⟩, h.2⟩)
      (fun _ h ↦ h)

theorem lzxpressDecompress_triple :
    Triple (fun l ↦ R ∧ Written inputSize maxOutputSize [] l)
      (lzxpressDecompress input inputSize maxOutputSize)
      (fun out l ↦ (R ∧ out.length ≤ maxOutputSize) ∧ Written inputSize maxOutputSize out l)
      (SafeLog inputSize maxOutputSize) := by
  unfold lzxpressDecompress
  exact Triple.ite (fun _ ↦ Triple.pure_of fun _ hl ↦ ⟨⟨hl.1, Nat.zero_le _⟩, hl.2⟩)
    (fun _ ↦ decompressLoop_triple input (inputSize + 1) ⟨[], 0, 0, 0, 0⟩
      ⟨Nat.zero_le _, Nat.zero_le _, Or.inl rfl⟩)

theorem decompressLoop_fuel : ∀ (n m : Nat) (st : DecompressState) (log : List Access),
    StateOk inputSize maxOutputSize st → Written inputSize maxOutputSize st.output log →
    inputSize - st.inputIndex < n → inputSize - st.inputIndex < m →
    (decompressLoop input inputSize maxOutputSize n st).run.run log =
      (decompressLoop input inputSize maxOutputSize m st).run.run log
  | 0, _, _, _, _, _, hn, _ => absurd hn (Nat.not_lt_zero _)
  | _, 0, _, _, _, _, _, hm => absurd hm (Nat.not_lt_zero _)
  | n + 1, m + 1, st, log, hst, hw, hn, hm => by
    have hturn := (decompressTurn_triple input hst :
      Triple (fun l ↦ True ∧ Written inputSize maxOutputSize st.output l) _ _ _) log ⟨trivial, hw⟩
    simp only [decompressLoop]
    rw [run_bind, run_bind]
    rcases hr : (decompressTurn input inputSize maxOutputSize st).run.run log with
      ⟨_ | ⟨st', stop⟩, l⟩
    · rfl
    · rw [hr] at hturn
      obtain ⟨⟨_, hst', hlt⟩, hw'⟩ := hturn
      change st.inputIndex < st'.inputIndex at hlt
      dsimp only
      split_ifs with hstop hgo
      · rfl
      · have hin := hgo.2
        exact decompressLoop_fuel n m st' l hst' hw' (by omega) (by omega)
      · rfl

theorem exists_write_before {log : List Access} {n k src dst : Nat}
    (hrange : log.filterMap Access.dest? = List.range n)
    (hk : log[k]? = some (.copy src dst)) (hlt : src < dst) :
    ∃ j < k, (log[j]?).bind Access.dest? = some src := by
  have hklt : k < log.length := (List.getElem?_eq_some_iff.1 hk).1
  have hsplit : log = log.take k ++ Access.copy src dst :: log.drop (k + 1) := by
    have hget : log[k] = .copy src dst := (List.getElem?_eq_some_iff.1 hk).2
    rw [← hget, ← List.drop_eq_getElem_cons hklt, List.take_append_drop]
  set A := (log.take k).filterMap Access.dest?
  have happ : A ++ dst :: (log.drop (k + 1)).filterMap Access.dest? = List.range n := by
    rw [← hrange]
    conv_rhs => rw [hsplit]
    simp [A, List.filterMap_append, Access.dest?]
  have hlen : A.length < n := by
    have := congrArg List.length happ
    simp only [List.length_append, List.length_cons, List.length_range] at this
    omega
  have hdst : dst = A.length := by
    have h := congrArg (·[A.length]?) happ
    simp only [List.getElem?_append_right (Nat.le_refl _), Nat.sub_self, List.getElem?_cons_zero,
      List.getElem?_range hlen] at h
    exact Option.some.inj h
  have hA : A = List.range dst := by
    have h := congrArg (List.take A.length) happ
    rw [List.take_append_of_le_length (Nat.le_refl _), List.take_length, List.take_range,
      Nat.min_eq_left (Nat.le_of_lt hlen)] at h
    rw [h, hdst]
  have hsrc : src ∈ A := by
    rw [hA, List.mem_range]
    exact hlt
  obtain ⟨a, ha, hda⟩ := List.mem_filterMap.1 hsrc
  obtain ⟨j, hj, rfl⟩ := List.getElem_of_mem ha
  refine ⟨j, ?_, ?_⟩
  · rw [List.length_take] at hj
    omega
  · rw [List.length_take] at hj
    rw [List.getElem?_eq_getElem (by omega), Option.bind_some, ← hda, List.getElem_take]

theorem lzxpressDecompress_safe (input : Nat → UInt8) (inputSize maxOutputSize : Nat) :
    (0 < inputSize → ∀ fuel, inputSize < fuel →
      runLogged (decompressLoop input inputSize maxOutputSize fuel ⟨[], 0, 0, 0, 0⟩) =
        runLogged (lzxpressDecompress input inputSize maxOutputSize)) ∧
    (∀ a ∈ (runLogged (lzxpressDecompress input inputSize maxOutputSize)).2,
      AccessOk inputSize maxOutputSize a) ∧
    (∀ k src dst : Nat, (runLogged (lzxpressDecompress input inputSize maxOutputSize)).2[k]? =
        some (Access.copy src dst) →
      ∃ j < k, ((runLogged (lzxpressDecompress input inputSize maxOutputSize)).2[j]?).bind
        Access.dest? = some src) ∧
    (∀ output, (runLogged (lzxpressDecompress input inputSize maxOutputSize)).1 = .ok output →
      output.length ≤ maxOutputSize) := by
  have hinit : Written inputSize maxOutputSize [] [] := ⟨fun _ h ↦ absurd h List.not_mem_nil, rfl⟩
  have ht := (lzxpressDecompress_triple input :
    Triple (fun l ↦ True ∧ Written inputSize maxOutputSize [] l) _ _ _) [] ⟨trivial, hinit⟩
  have hsafe : SafeLog inputSize maxOutputSize
      (runLogged (lzxpressDecompress input inputSize maxOutputSize)).2 := by
    unfold runLogged
    split at ht <;> rename_i heq <;> rw [heq]
    · exact ht.2.safeLog
    · exact ht
  obtain ⟨out, hall, hrange⟩ := hsafe
  refine ⟨fun hpos fuel hfuel ↦ ?_, hall, fun k src dst hk ↦ ?_, fun output hok ↦ ?_⟩
  · have hne : inputSize ≠ 0 := Nat.pos_iff_ne_zero.1 hpos
    simp only [runLogged, lzxpressDecompress, hne, if_false]
    exact decompressLoop_fuel input fuel (inputSize + 1) _ [] ⟨Nat.zero_le _, Nat.zero_le _,
      Or.inl rfl⟩ hinit (by omega) (by omega)
  · have hcopy := hall _ (List.mem_of_getElem? hk)
    exact exists_write_before hrange hk hcopy.1
  · unfold runLogged at hok
    split at ht <;> rename_i heq <;> rw [heq] at hok
    · cases hok
      exact ht.1.2
    · cases hok

theorem lzxpressDecompress_safe_indicatorOnly :
    0 < 4 ∧ 4 < 5 ∧
    runLogged (decompressLoop (fun _ ↦ 0xff) 4 0 5 ⟨[], 0, 0, 0, 0⟩) =
      runLogged (lzxpressDecompress (fun _ ↦ 0xff) 4 0) :=
  ⟨by decide, by decide, (lzxpressDecompress_safe (fun _ ↦ 0xff) 4 0).1 (by decide) 5 (by decide)⟩

end Safety

def hashMask : Nat := 2 ^ 12 - 1

/-- `three_byte_hash`. The source computes in `int` and keeps the low twelve bits of
the `uint16_t` result; on `UInt16` the low twelve bits are the same. -/
def threeByteHash (b0 b1 b2 : UInt8) : Nat :=
  let a : UInt16 := b0.toUInt16
  let b : UInt16 := b1.toUInt16 ^^^ 0x2e
  let c : UInt16 := b2.toUInt16 ^^^ 0x55
  let ca : UInt16 := c - a
  let d : UInt16 := ((a + b) <<< 8) ^^^ (ca <<< 5) ^^^ (c + b) ^^^ (0xcab + a)
  (d &&& 0xfff).toNat

def dataAt (data : List UInt8) (i : Nat) : UInt8 := data.getD i 0

def toInt32 (n : Nat) : Int := if n < 2 ^ 31 then n else (n : Int) - 2 ^ 32

/-- `hash_table[h] = v`. -/
def setSlot (table : Nat → Nat) (h v : Nat) : Nat → Nat := fun k ↦ if k = h then v else table k

/-- `store_match`: the first slot from `h` that holds nothing before `offset`, or else
the slot among the five whose entry is the farthest back. -/
def storeMatch (table : Nat → Nat) (h offset : Nat) : Nat → Nat :=
  let o := table h
  if offset ≤ o then setSlot table h offset
  else match (List.range' 1 4).find? (fun i ↦ offset ≤ table ((h + i) &&& hashMask)) with
    | some i => setSlot table ((h + i) &&& hashMask) offset
    | none =>
      let worst := (List.range' 1 4).foldl (fun (w : Nat × Int) i ↦
          let h2 := (h + i) &&& hashMask
          let score := toInt32 (u32 (offset + 2 ^ 32 - table h2))
          if w.2 < score then (h2, score) else w) (h, toInt32 (u32 (offset + 2 ^ 32 - o)))
      setSlot table worst.1 offset

/-- `struct match`: `there` is the offset of the earlier data, `NULL` when none. -/
structure LzMatch where
  there : Option Nat
  length : Nat
  deriving DecidableEq, Repr

def countMatching (data : List UInt8) (here there : Nat) : Nat → Nat
  | 0 => 0
  | n + 1 =>
    if dataAt data here = dataAt data there then countMatching data (here + 1) (there + 1) n + 1
    else 0

def lookupMatchFrom (table : Nat → Nat) (h : Nat) (data : List UInt8) (offset maxLen : Nat) :
    List Nat → LzMatch → LzMatch
  | [], best => best
  | i :: is, best =>
    let o := table ((h + i) &&& hashMask)
    if offset ≤ o then best
    else if 8192 < offset - o then lookupMatchFrom table h data offset maxLen is best
    else if 1000 < best.length ∧
        dataAt data (o + best.length - 1) ≠ dataAt data (best.there.getD 0 + best.length - 1) then
      lookupMatchFrom table h data offset maxLen is best
    else
      let len := countMatching data offset o maxLen
      if 2 < len ∧ best.length < len then lookupMatchFrom table h data offset maxLen is ⟨some o, len⟩
      else lookupMatchFrom table h data offset maxLen is best

def lookupMatch (table : Nat → Nat) (h : Nat) (data : List UInt8) (offset maxLen : Nat) : LzMatch :=
  lookupMatchFrom table h data offset maxLen (List.range 5) ⟨none, 0⟩

def putBytes (buf : Nat → UInt8) (pos : Nat) (bytes : List UInt8) : Nat → UInt8 :=
  fun k ↦ if pos ≤ k ∧ k < pos + bytes.length then bytes.getD (k - pos) 0 else buf k

def leBytes16 (v : Nat) : List UInt8 := [UInt8.ofNat v, UInt8.ofNat (v / 2 ^ 8)]

def leBytes32 (v : Nat) : List UInt8 :=
  [UInt8.ofNat v, UInt8.ofNat (v / 2 ^ 8), UInt8.ofNat (v / 2 ^ 16), UInt8.ofNat (v / 2 ^ 24)]

/-- `struct write_context`. -/
structure WriteContext where
  compressed : Nat → UInt8
  compressedPos : Nat
  maxCompressedSize : Nat
  indic : Nat
  indicBit : Nat
  indicPos : Nat
  nibbleIndex : Nat

/-- `push_indicator_bit`; `none` is its `-1`. A full indicator word is written to its
place and room is made for the next one. -/
def pushIndicatorBit (wc : WriteContext) (bit : Nat) : Option WriteContext :=
  let wc := { wc with indic := u32 (wc.indic * 2 + bit), indicBit := wc.indicBit + 1 }
  if wc.indicBit = 32 then
    let wc := { wc with
      compressed := putBytes wc.compressed wc.indicPos (leBytes32 wc.indic)
      indicBit := 0 }
    if bytesLeft wc.maxCompressedSize wc.compressedPos 4 then
      some { wc with indicPos := wc.compressedPos, compressedPos := wc.compressedPos + 4 }
    else none
  else some wc

def encodeLongLength (wc : WriteContext) (matchLen : Nat) : Option WriteContext :=
  if matchLen < 2 ^ 16 then
    if bytesLeft wc.maxCompressedSize wc.compressedPos 2 then
      some { wc with
        compressed := putBytes wc.compressed wc.compressedPos (leBytes16 matchLen)
        compressedPos := wc.compressedPos + 2 }
    else none
  else if bytesLeft wc.maxCompressedSize wc.compressedPos (2 + 4) then
    some { wc with
      compressed := putBytes (putBytes wc.compressed wc.compressedPos (leBytes16 0))
        (wc.compressedPos + 2) (leBytes32 matchLen)
      compressedPos := wc.compressedPos + 2 + 4 }
  else none

def encodeExtraLength (wc : WriteContext) (matchLen : Nat) : Option WriteContext := do
  let wc ← if wc.nibbleIndex = 0 then
      if bytesLeft wc.maxCompressedSize wc.compressedPos 1 then
        some { wc with
          nibbleIndex := wc.compressedPos
          compressed := putBytes wc.compressed wc.compressedPos [UInt8.ofNat (min matchLen 15)]
          compressedPos := wc.compressedPos + 1 }
      else none
    else
      some { wc with
        nibbleIndex := 0
        compressed := putBytes wc.compressed wc.nibbleIndex
          [wc.compressed wc.nibbleIndex ||| UInt8.ofNat (min matchLen 15 * 16)] }
  if 15 ≤ matchLen then
    let matchLen := matchLen - 15
    let wc ← if bytesLeft wc.maxCompressedSize wc.compressedPos 1 then
        some { wc with
          compressed := putBytes wc.compressed wc.compressedPos [UInt8.ofNat (min matchLen 255)]
          compressedPos := wc.compressedPos + 1 }
      else none
    if 255 ≤ matchLen then encodeLongLength wc (u32 (matchLen + 7 + 15)) else some wc
  else some wc

/-- `encode_match` of `m` found for the data at `here`. -/
def encodeMatch (wc : WriteContext) (m : LzMatch) (here : Nat) : Option WriteContext := do
  let matchLen := u32 (m.length + 2 ^ 32 - 3)
  let bestOffset := u32 (here + 2 ^ 32 - m.there.getD 0 - 1)
  if 8191 < bestOffset then none
  if !bytesLeft wc.maxCompressedSize wc.compressedPos 2 then none
  let metadata := (bestOffset * 8 ||| min matchLen 7) % 2 ^ 16
  let wc := { wc with
    compressed := putBytes wc.compressed wc.compressedPos (leBytes16 metadata)
    compressedPos := wc.compressedPos + 2 }
  let wc ← if 7 ≤ matchLen then encodeExtraLength wc (matchLen - 7) else some wc
  pushIndicatorBit wc 1

structure CompressState where
  wc : WriteContext
  uncompressedPos : Nat
  hashTable : Nat → Nat

def compressTurn (data : List UInt8) (cs : CompressState) : Option CompressState := do
  let pos := cs.uncompressedPos
  let maxLen := min (0xFFFF + 3) (data.length - pos)
  let (m, hashTable) :=
    if 3 ≤ maxLen then
      let h := threeByteHash (dataAt data pos) (dataAt data (pos + 1)) (dataAt data (pos + 2))
      (lookupMatch cs.hashTable h data pos maxLen, storeMatch cs.hashTable h pos)
    else (⟨none, 0⟩, cs.hashTable)
  match m.there with
  | none =>
    if !bytesLeft data.length pos 1 then none
    if !bytesLeft cs.wc.maxCompressedSize cs.wc.compressedPos 1 then none
    let wc := { cs.wc with
      compressed := putBytes cs.wc.compressed cs.wc.compressedPos [dataAt data pos]
      compressedPos := cs.wc.compressedPos + 1 }
    let wc ← pushIndicatorBit wc 0
    return ⟨wc, pos + 1, hashTable⟩
  | some _ =>
    let wc ← encodeMatch cs.wc m pos
    return ⟨wc, pos + m.length, hashTable⟩

def compressLoop (data : List UInt8) : Nat → CompressState → Option CompressState
  | 0, cs => some cs
  | fuel + 1, cs =>
    if cs.uncompressedPos < data.length ∧ cs.wc.compressedPos < cs.wc.maxCompressedSize then do
      compressLoop data fuel (← compressTurn data cs)
    else some cs

/-- `lzxpress_compress(data, |data|, compressed, max_compressed_size)`: the size it returns
and the buffer it wrote, or `none` for `-1`. Every turn consumes data, so `|data| + 1`
turns are enough. -/
def lzxpressCompress (data : List UInt8) (compressed : Nat → UInt8) (maxCompressedSize : Nat) :
    Option (Nat × (Nat → UInt8)) :=
  if data.length = 0 then some (0, compressed)
  else if !bytesLeft maxCompressedSize 0 4 then none
  else do
    let wc : WriteContext := ⟨putBytes compressed 0 (leBytes32 0), 4, maxCompressedSize, 0, 0, 0, 0⟩
    let cs ← compressLoop data (data.length + 1) ⟨wc, 0, fun _ ↦ 0xffffffff⟩
    let wc := cs.wc
    let indic := if wc.indicBit ≠ 0 then u32 (wc.indic <<< (32 - wc.indicBit)) else wc.indic
    let indic := indic ||| (0xffffffff >>> wc.indicBit)
    return (wc.compressedPos, putBytes wc.compressed wc.indicPos (leBytes32 indic))

theorem lzxpressCompress_reports_prefix :
    (lzxpressCompress [0x61, 0x62] (fun _ ↦ 0) 5).map
        (fun r ↦ (r.1, (runLogged (lzxpressDecompress r.2 r.1 2)).1)) =
      some (5, .ok [0x61]) := by
  decide +kernel

end Samba.Compression.Lzxpress
