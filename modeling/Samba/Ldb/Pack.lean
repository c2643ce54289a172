import Samba.Lib.ReadLog

namespace Samba.Ldb.Pack

open Samba.Lib.ReadLog

inductive Errno
  | eio | einval | enomem | erange
  deriving DecidableEq, Repr

structure LdbVal where
  data : Nat
  length : Nat
  deriving DecidableEq, Repr

structure LdbMessageElement where
  flags : Nat
  name : Nat
  values : List LdbVal
  deriving DecidableEq, Repr

structure LdbMessage (Dn : Type) where
  dn : Option Dn
  numElements : Nat
  elements : List LdbMessageElement
  deriving DecidableEq, Repr

def ldbPackingFormatNodn : Nat := 0x26011966
def ldbPackingFormat : Nat := 0x26011967
def ldbPackingFormatV2 : Nat := 0x26011968

def ldbUnpackDataFlagNoDn : UInt32 := 0x0002
def ldbUnpackDataFlagNoValuesAlloc : UInt32 := 0x0004
def ldbUnpackDataFlagNoAttrs : UInt32 := 0x0008
def ldbFlagInternalSharedValues : Nat := 0x200

def maxTallocSize : Nat := 0x10000000

def tallocArrayFits (elSize count : Nat) : Bool := count < maxTallocSize / elSize

def sizeOfPtrdiff (d : Int) : Nat := (d % 2 ^ 64).toNat

abbrev Unpack := Logged Nat Errno

section Decoder

variable {Dn : Type} (mem : Nat → UInt8)

def pullLeU8 (p : Nat) : Unpack Nat := do
  return (← readByte mem p).toNat

def pullLeU16 (p : Nat) : Unpack Nat := do
  let lo ← pullLeU8 mem p
  let hi ← pullLeU8 mem (p + 1)
  return lo + hi * 2 ^ 8

def pullLeU32 (p : Nat) : Unpack Nat := do
  let lo ← pullLeU16 mem p
  let hi ← pullLeU16 mem (p + 2)
  return lo + hi * 2 ^ 16

def leU32 (p : Nat) : Nat :=
  (mem p).toNat + (mem (p + 1)).toNat * 2 ^ 8 +
    ((mem (p + 2)).toNat + (mem (p + 3)).toNat * 2 ^ 8) * 2 ^ 16

def strnlen (p : Nat) : Nat → Unpack Nat
  | 0 => pure 0
  | maxlen + 1 => do
    if (← pullLeU8 mem p) = 0 then pure 0
    else return (← strnlen (p + 1) maxlen) + 1

def readBytes (p : Nat) : Nat → Unpack (List UInt8)
  | 0 => pure []
  | n + 1 => do
    let b ← readByte mem p
    return b :: (← readBytes (p + 1) n)

-- `ldb_dn_from_ldb_val`, which refuses a blob with a NUL inside and otherwise
-- parses it; its failure is the decoder's `ENOMEM`
variable (ldbDnFromLdbVal : List UInt8 → Option Dn)

def unpackDn (flags : UInt32) (p len : Nat) : Unpack (Option Dn) := do
  if flags &&& ldbUnpackDataFlagNoDn ≠ 0 then return none
  match ldbDnFromLdbVal (← readBytes mem p len) with
  | none => throw .enomem
  | some dn => return some dn

def unpackValuesV1 : Nat → Nat → Nat → Unpack (List LdbVal × Nat × Nat)
  | 0, p, remaining => pure ([], p, remaining)
  | n + 1, p, remaining => do
    if remaining < 4 + 1 then throw .eio
    let remaining := remaining - (4 + 1)
    let len ← pullLeU32 mem p
    if remaining < len then throw .eio
    let (values, p', remaining') ← unpackValuesV1 n (p + len + 4 + 1) (remaining - len)
    return (⟨p + 4, len⟩ :: values, p', remaining')

def unpackElementV1 (flags : UInt32) (p remaining : Nat) :
    Unpack (LdbMessageElement × Nat × Nat) := do
  if remaining < 4 * 2 + 1 * 2 then throw .eio
  let attrLen ← strnlen mem p (remaining - 6)
  if attrLen = remaining - 6 then throw .eio
  if attrLen = 0 then throw .eio
  let attr := p
  if remaining < attrLen + 1 then throw .eio
  let remaining := remaining - (attrLen + 1)
  let p := p + attrLen + 1
  let numValues ← pullLeU32 mem p
  let shared := flags &&& ldbUnpackDataFlagNoValuesAlloc ≠ 0 && numValues = 1
  if !shared && numValues ≠ 0 && !tallocArrayFits 16 numValues then throw .enomem
  let p := p + 4
  if remaining < 4 then throw .eio
  let (values, p, remaining) ← unpackValuesV1 mem numValues p (remaining - 4)
  return (⟨if shared then ldbFlagInternalSharedValues else 0, attr, values⟩, p, remaining)

def unpackElementsV1 (flags : UInt32) : Nat → Nat → Nat →
    Unpack (List LdbMessageElement × Nat × Nat)
  | 0, p, remaining => pure ([], p, remaining)
  | n + 1, p, remaining => do
    let (element, p, remaining) ← unpackElementV1 mem flags p remaining
    let (elements, p, remaining) ← unpackElementsV1 flags n p remaining
    return (element :: elements, p, remaining)

def unpackDnV1 (flags : UInt32) (format p remaining : Nat) : Unpack (Option Dn × Nat × Nat) := do
  if format = ldbPackingFormatNodn then pure (none, p, remaining)
  else if format = ldbPackingFormat then
    let dnLen ← strnlen mem p remaining
    if dnLen = remaining then throw .eio
    let dn ← unpackDn mem ldbDnFromLdbVal flags p dnLen
    if remaining < dnLen + 1 then throw .eio
    pure (dn, p + dnLen + 1, remaining - (dnLen + 1))
  else throw .eio

/-- `ldb_unpack_data_flags_v1`, for the format word `format` already read. -/
def ldbUnpackDataFlagsV1 (length : Nat) (flags : UInt32) (format : Nat) :
    Unpack (LdbMessage Dn) := do
  if length < 4 * 2 then throw .eio
  let numElements ← pullLeU32 mem 4
  let (dn, p, remaining) ← unpackDnV1 mem ldbDnFromLdbVal flags format (4 * 2) (length - 4 * 2)
  if flags &&& ldbUnpackDataFlagNoAttrs ≠ 0 then return ⟨dn, 0, []⟩
  if numElements = 0 then return ⟨dn, numElements, []⟩
  if numElements > remaining / 6 then throw .eio
  if !tallocArrayFits 32 numElements then throw .enomem
  if flags &&& ldbUnpackDataFlagNoValuesAlloc ≠ 0 && !tallocArrayFits 16 numElements then
    throw .enomem
  let (elements, _, _) ← unpackElementsV1 mem flags numElements p remaining
  return ⟨dn, elements.length, elements⟩

def pullValueLengths (pull : Nat → Unpack Nat) (width p : Nat) : Nat → Unpack (List Nat)
  | 0 => pure []
  | count + 1 => do
    let len ← pull p
    return len :: (← pullValueLengths pull width (p + width) count)

def placeValuesV2 (length : Nat) : List Nat → Nat → Unpack (List LdbVal × Nat)
  | [], q => pure ([], q)
  | len :: lens, q => do
    if len + 1 > sizeOfPtrdiff ((length : Int) - q) then throw .eio
    let (values, q') ← placeValuesV2 length lens (q + len + 1)
    return (⟨q, len⟩ :: values, q')

def unpackElementV2 (flags : UInt32) (length valueSectionP p q : Nat) :
    Unpack (LdbMessageElement × Nat × Nat) := do
  if ((4 * 2 + 1 * 2 + 1 * 2 : Nat) : Int) > valueSectionP - p then throw .eio
  let attrLen ← pullLeU32 mem p
  let p := p + 4
  if attrLen = 0 then throw .eio
  let attr := p
  let p := p + attrLen + 1
  if ((4 + 1 : Nat) : Int) > valueSectionP - p then throw .eio
  if (← pullLeU8 mem (p - 1)) ≠ 0 then throw .einval
  let numValues ← pullLeU32 mem p
  let shared := flags &&& ldbUnpackDataFlagNoValuesAlloc ≠ 0 && numValues = 1
  if !shared && numValues ≠ 0 && !tallocArrayFits 16 numValues then throw .enomem
  let p := p + 4
  let valLenWidth ← pullLeU8 mem p
  let p := p + 1
  if ((valLenWidth * numValues % 2 ^ 32 : Nat) : Int) > valueSectionP - p then throw .eio
  let lengths ←
    if valLenWidth = 1 then pullValueLengths (pullLeU8 mem) 1 p numValues
    else if valLenWidth = 2 then pullValueLengths (pullLeU16 mem) 2 p numValues
    else if valLenWidth = 4 then pullValueLengths (pullLeU32 mem) 4 p numValues
    else throw .erange
  let (values, q) ← placeValuesV2 length lengths q
  return (⟨if shared then ldbFlagInternalSharedValues else 0, attr, values⟩,
    p + valLenWidth * numValues, q)

def unpackElementsV2 (flags : UInt32) (length valueSectionP : Nat) : Nat → Nat → Nat →
    Unpack (List LdbMessageElement × Nat × Nat)
  | 0, p, q => pure ([], p, q)
  | n + 1, p, q => do
    let (element, p, q) ← unpackElementV2 mem flags length valueSectionP p q
    let (elements, p, q) ← unpackElementsV2 flags length valueSectionP n p q
    return (element :: elements, p, q)

/-- `ldb_unpack_data_flags_v2`. -/
def ldbUnpackDataFlagsV2 (length : Nat) (flags : UInt32) : Unpack (LdbMessage Dn) := do
  let endP : Int := length
  let p : Nat := 4
  if ((4 * 2 : Nat) : Int) > endP - p then throw .eio
  let numElements ← pullLeU32 mem p
  let p := p + 4
  let len ← pullLeU32 mem p
  let p := p + 4
  if len + 1 > sizeOfPtrdiff (endP - p) then throw .eio
  let dn ← unpackDn mem ldbDnFromLdbVal flags p len
  let p := p + len + 1
  if (← pullLeU8 mem (p - 1)) ≠ 0 then throw .einval
  let len := ((← pullLeU32 mem p) + 1) % 2 ^ 32
  let p := p + 4
  if len > sizeOfPtrdiff (endP - p) then throw .eio
  let p := p + len
  if (← pullLeU8 mem (p - 1)) ≠ 0 then throw .einval
  if flags &&& ldbUnpackDataFlagNoAttrs ≠ 0 then return ⟨dn, 0, []⟩
  if numElements = 0 then return ⟨dn, numElements, []⟩
  if (numElements : Int) > (endP - p).tdiv 17 then throw .eio
  if !tallocArrayFits 32 numElements then throw .enomem
  if flags &&& ldbUnpackDataFlagNoValuesAlloc ≠ 0 && !tallocArrayFits 16 numElements then
    throw .enomem
  let valueSectionP := p + (← pullLeU32 mem p)
  let (elements, p, q) ←
    unpackElementsV2 mem flags length valueSectionP numElements (p + 4) valueSectionP
  if p ≠ valueSectionP then throw .eio
  if q ≠ length then throw .eio
  return ⟨dn, elements.length, elements⟩

/-- `ldb_unpack_data_flags` on the `length` bytes at `mem`. -/
def ldbUnpackDataFlags (length : Nat) (flags : UInt32) : Unpack (LdbMessage Dn) := do
  if length < 4 then throw .eio
  let format ← pullLeU32 mem 0
  if format = ldbPackingFormatV2 then ldbUnpackDataFlagsV2 mem ldbDnFromLdbVal length flags
  else ldbUnpackDataFlagsV1 mem ldbDnFromLdbVal length flags format

end Decoder

section Bounds

variable {Dn : Type} (mem : Nat → UInt8) (ldbDnFromLdbVal : List UInt8 → Option Dn)

theorem pullLeU8_reads {S : Nat → Prop} {p : Nat} (hp : S p) :
    Reads S (pullLeU8 mem p) (· = (mem p).toNat) :=
  Reads.bind (Reads.readByte hp) fun _ hb ↦ Reads.pure (by rw [hb])

theorem pullLeU16_reads {S : Nat → Prop} {p : Nat} (hp : ∀ i < 2, S (p + i)) :
    Reads S (pullLeU16 mem p) (· = (mem p).toNat + (mem (p + 1)).toNat * 2 ^ 8) :=
  Reads.bind (pullLeU8_reads mem (hp 0 (by omega))) fun _ hlo ↦
    Reads.bind (pullLeU8_reads mem (hp 1 (by omega))) fun _ hhi ↦
      Reads.pure (by rw [hlo, hhi])

theorem pullLeU32_reads {S : Nat → Prop} {p : Nat} (hp : ∀ i < 4, S (p + i)) :
    Reads S (pullLeU32 mem p) (· = leU32 mem p) :=
  Reads.bind (pullLeU16_reads mem fun i hi ↦ hp i (by omega)) fun _ hlo ↦
    Reads.bind (pullLeU16_reads mem fun i hi ↦ by simpa [Nat.add_assoc] using hp (2 + i) (by omega))
      fun _ hhi ↦ Reads.pure (by rw [hlo, hhi, leU32, Nat.add_assoc p 2 1])

-- equation lemmas made once, before the proofs below use them in parallel
attribute [local simp] strnlen.eq_def readBytes.eq_def unpackElementsV1.eq_def
attribute [-simp] strnlen.eq_def readBytes.eq_def unpackElementsV1.eq_def

theorem strnlen_reads (p maxlen : Nat) :
    Reads (ReadRange p maxlen) (strnlen mem p maxlen) (· ≤ maxlen) := by
  induction maxlen generalizing p with
  | zero => exact Reads.pure (Nat.le_refl 0)
  | succ n ih =>
    unfold strnlen
    refine Reads.bind (pullLeU8_reads mem ⟨Nat.le_refl p, by omega⟩) fun c _ ↦ ?_
    by_cases hc : c = 0
    · rw [if_pos hc]
      exact Reads.pure (Nat.zero_le _)
    · rw [if_neg hc]
      refine Reads.bind ((ih (p + 1)).conseq (fun _ ↦ ReadRange.shift) fun _ h ↦ h) fun m hm ↦ ?_
      exact Reads.pure (by omega)

theorem readBytes_reads (p n : Nat) :
    Reads (ReadRange p n) (readBytes mem p n) (fun _ ↦ True) := by
  induction n generalizing p with
  | zero => exact Reads.pure trivial
  | succ n ih =>
    unfold readBytes
    refine Reads.bind (Reads.readByte ⟨Nat.le_refl p, by omega⟩) fun b _ ↦ ?_
    exact Reads.bind ((ih (p + 1)).conseq (fun _ ↦ ReadRange.shift) fun _ h ↦ h)
      fun _ _ ↦ Reads.pure trivial

theorem unpackDn_reads (flags : UInt32) (p len : Nat) :
    Reads (ReadRange p len) (unpackDn mem ldbDnFromLdbVal flags p len) (fun _ ↦ True) := by
  unfold unpackDn
  by_cases hflag : flags &&& ldbUnpackDataFlagNoDn ≠ 0
  · rw [if_pos hflag]
    exact Reads.pure trivial
  · rw [if_neg hflag]
    refine Reads.bind (readBytes_reads mem p len) fun bs _ ↦ ?_
    split
    · exact Reads.throw
    · exact Reads.pure trivial

def Advanced (p remaining : Nat) {α : Type} (r : α × Nat × Nat) : Prop :=
  p ≤ r.2.1 ∧ r.2.1 + r.2.2 = p + remaining

theorem unpackDnV1_reads (flags : UInt32) (format p remaining : Nat) :
    Reads (ReadRange p remaining) (unpackDnV1 mem ldbDnFromLdbVal flags format p remaining)
      (Advanced p remaining) := by
  unfold unpackDnV1
  by_cases hnodn : format = ldbPackingFormatNodn
  · rw [if_pos hnodn]
    exact Reads.pure ⟨Nat.le_refl p, rfl⟩
  rw [if_neg hnodn]
  by_cases hv1 : format = ldbPackingFormat
  · rw [if_pos hv1]
    refine Reads.bind (strnlen_reads mem p remaining) fun dnLen hdnLen ↦ ?_
    by_cases hend : dnLen = remaining
    · rw [if_pos hend]
      exact Reads.throw_bind
    rw [if_neg hend]
    refine Reads.bind ((unpackDn_reads mem ldbDnFromLdbVal flags p dnLen).conseq
      (fun _ ↦ ReadRange.mono (Nat.le_refl p) (by omega)) fun _ h ↦ h) fun dn _ ↦ ?_
    by_cases hfit : remaining < dnLen + 1
    · rw [if_pos hfit]
      exact Reads.throw_bind
    rw [if_neg hfit]
    exact Reads.pure ⟨by dsimp only; omega, by dsimp only; omega⟩
  · rw [if_neg hv1]
    exact Reads.throw

theorem unpackValuesV1_reads (n p remaining : Nat) :
    Reads (ReadRange p remaining) (unpackValuesV1 mem n p remaining) (Advanced p remaining) := by
  induction n generalizing p remaining with
  | zero => exact Reads.pure ⟨Nat.le_refl p, rfl⟩
  | succ n ih =>
    unfold unpackValuesV1
    by_cases hrem : remaining < 4 + 1
    · rw [if_pos hrem]
      exact Reads.throw_bind
    rw [if_neg hrem]
    refine Reads.bind (pullLeU32_reads mem fun i hi ↦ ⟨by omega, by omega⟩) fun len _ ↦ ?_
    by_cases hlen : remaining - (4 + 1) < len
    · rw [if_pos hlen]
      exact Reads.throw_bind
    rw [if_neg hlen]
    refine Reads.bind ((ih _ _).conseq (fun _ ↦ ReadRange.mono (by omega) (by omega)) fun _ h ↦ h)
      fun r hr ↦ ?_
    obtain ⟨values, p', remaining'⟩ := r
    obtain ⟨hp', hsum⟩ := hr
    exact Reads.pure ⟨by dsimp only at hp' ⊢; omega, by dsimp only at hsum ⊢; omega⟩

theorem unpackElementV1_reads (flags : UInt32) (p remaining : Nat) :
    Reads (ReadRange p remaining) (unpackElementV1 mem flags p remaining)
      (Advanced p remaining) := by
  unfold unpackElementV1
  by_cases hrem : remaining < 4 * 2 + 1 * 2
  · rw [if_pos hrem]
    exact Reads.throw_bind
  rw [if_neg hrem]
  refine Reads.bind ((strnlen_reads mem p _).conseq
    (fun _ ↦ ReadRange.mono (Nat.le_refl p) (by omega)) fun _ h ↦ h) fun attrLen hattr ↦ ?_
  by_cases hend : attrLen = remaining - 6
  · rw [if_pos hend]
    exact Reads.throw_bind
  rw [if_neg hend]
  by_cases hzero : attrLen = 0
  · rw [if_pos hzero]
    exact Reads.throw_bind
  rw [if_neg hzero]
  by_cases hfit : remaining < attrLen + 1
  · rw [if_pos hfit]
    exact Reads.throw_bind
  rw [if_neg hfit]
  refine Reads.bind (pullLeU32_reads mem fun i hi ↦ ⟨by omega, by omega⟩) fun numValues _ ↦ ?_
  dsimp only
  split
  · exact Reads.throw_bind
  by_cases hfour : remaining - (attrLen + 1) < 4
  · rw [if_pos hfour]
    exact Reads.throw_bind
  rw [if_neg hfour]
  refine Reads.bind ((unpackValuesV1_reads mem _ _ _).conseq
    (fun _ ↦ ReadRange.mono (by omega) (by omega)) fun _ h ↦ h) fun r hr ↦ ?_
  obtain ⟨values, p', remaining'⟩ := r
  obtain ⟨hp', hsum⟩ := hr
  exact Reads.pure ⟨by dsimp only at hp' ⊢; omega, by dsimp only at hsum ⊢; omega⟩

theorem unpackElementsV1_reads (flags : UInt32) (n p remaining : Nat) :
    Reads (ReadRange p remaining) (unpackElementsV1 mem flags n p remaining)
      (Advanced p remaining) := by
  induction n generalizing p remaining with
  | zero => exact Reads.pure ⟨Nat.le_refl p, rfl⟩
  | succ n ih =>
    unfold unpackElementsV1
    refine Reads.bind (unpackElementV1_reads mem flags p remaining) fun r hr ↦ ?_
    obtain ⟨element, p₁, remaining₁⟩ := r
    obtain ⟨hp₁, hsum₁⟩ := hr
    dsimp only at hp₁ hsum₁
    refine Reads.bind ((ih p₁ remaining₁).conseq
      (fun _ ↦ ReadRange.mono hp₁ (by omega)) fun _ h ↦ h) fun r hr ↦ ?_
    obtain ⟨elements, p₂, remaining₂⟩ := r
    obtain ⟨hp₂, hsum₂⟩ := hr
    exact Reads.pure ⟨by dsimp only at hp₂ ⊢; omega, by dsimp only at hsum₂ ⊢; omega⟩

theorem ldbUnpackDataFlagsV1_reads (length : Nat) (flags : UInt32) (format : Nat) :
    Reads (ReadRange 0 length) (ldbUnpackDataFlagsV1 mem ldbDnFromLdbVal length flags format)
      (fun _ ↦ True) := by
  unfold ldbUnpackDataFlagsV1
  by_cases hlen : length < 4 * 2
  · rw [if_pos hlen]
    exact Reads.throw_bind
  rw [if_neg hlen]
  refine Reads.bind (pullLeU32_reads mem fun i hi ↦ ⟨by omega, by omega⟩) fun numElements _ ↦ ?_
  refine Reads.bind ((unpackDnV1_reads mem ldbDnFromLdbVal flags format _ _).conseq
    (fun _ ↦ ReadRange.mono (Nat.zero_le _) (by omega)) fun _ h ↦ h) fun r hr ↦ ?_
  obtain ⟨dn, p, remaining⟩ := r
  obtain ⟨hp, hsum⟩ := hr
  dsimp only at hp hsum ⊢
  split
  · exact Reads.pure trivial
  split
  · exact Reads.pure trivial
  split
  · exact Reads.throw_bind
  split
  · exact Reads.throw_bind
  split
  · exact Reads.throw_bind
  exact Reads.bind ((unpackElementsV1_reads mem flags numElements p remaining).conseq
    (fun _ ↦ ReadRange.mono (Nat.zero_le _) (by omega)) fun _ _ ↦ trivial) fun _ _ ↦ Reads.pure trivial

theorem ldbUnpackDataFlags_reads_within (length : Nat) (flags : UInt32)
    (hformat : leU32 mem 0 ≠ ldbPackingFormatV2) :
    ∀ a ∈ (runLogged (ldbUnpackDataFlags mem ldbDnFromLdbVal length flags)).2, a < length := by
  have h : Reads (ReadRange 0 length) (ldbUnpackDataFlags mem ldbDnFromLdbVal length flags)
      (fun _ ↦ True) := by
    unfold ldbUnpackDataFlags
    by_cases hlen : length < 4
    · rw [if_pos hlen]
      exact Reads.throw_bind
    rw [if_neg hlen]
    refine Reads.bind (pullLeU32_reads mem fun i hi ↦ ⟨by omega, by omega⟩) fun format hfmt ↦ ?_
    rw [if_neg (hfmt ▸ hformat)]
    exact ldbUnpackDataFlagsV1_reads mem ldbDnFromLdbVal length flags format
  intro a ha
  have := (h.runLogged_mem a ha).2
  omega

end Bounds

def v1Record : List UInt8 :=
  [0x67, 0x19, 0x01, 0x26, 1, 0, 0, 0, 0x78, 0x3d, 0x31, 0, 0x61, 0, 1, 0, 0, 0, 1, 0, 0, 0,
    0x62, 0]

theorem ldbUnpackDataFlags_reads_within_v1Record :
    leU32 (v1Record.getD · 0) 0 ≠ ldbPackingFormatV2 ∧
    ∀ a ∈ (runLogged (ldbUnpackDataFlags (v1Record.getD · 0) (fun _ ↦ some ()) v1Record.length 0)).2,
      a < v1Record.length :=
  have hformat : leU32 (v1Record.getD · 0) 0 ≠ ldbPackingFormatV2 := by decide +kernel
  ⟨hformat, ldbUnpackDataFlags_reads_within _ _ _ _ hformat⟩

example : (runLogged (ldbUnpackDataFlags (v1Record.getD · 0) (fun _ ↦ some ()) v1Record.length
    0)).1.toOption = some ⟨some (), 1, [⟨0, 12, [⟨22, 1⟩]⟩]⟩ := by
  decide +kernel

def truncatedV2Record : List UInt8 := [0x68, 0x19, 0x01, 0x26, 0, 0, 0, 0, 0, 0, 0, 0, 0]

theorem ldbUnpackDataFlags_reads_past_truncatedV2 :
    truncatedV2Record.length = 13 ∧
    (runLogged (ldbUnpackDataFlags (truncatedV2Record.getD · 0) (fun _ ↦ some ()) 13
        ldbUnpackDataFlagNoDn)).2 = [0, 1, 2, 3, 4, 5, 6, 7, 8, 9, 10, 11, 12, 13, 14, 15, 16, 17] ∧
    (runLogged (ldbUnpackDataFlags (truncatedV2Record.getD · 0) (fun _ ↦ some ()) 13
        ldbUnpackDataFlagNoDn)).1.toOption = some ⟨none, 0, []⟩ := by
  decide +kernel

end Samba.Ldb.Pack
