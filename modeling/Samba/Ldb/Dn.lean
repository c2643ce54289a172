import Samba.Lib.CString

namespace Samba.Ldb.Dn

open Samba.Lib.CString

def maxTallocSize : Nat := 0x10000000

structure LdbDnComponent where
  name : List UInt8
  valueData : List UInt8
  valueLength : Nat
  deriving DecidableEq, Repr

structure ExplodeState (α : Type) where
  p : Nat
  d : Int
  dt : Int
  t : Option Nat
  exName : Int
  exValue : Int
  trim : Bool
  inExtended : Bool
  inExName : Bool
  inExValue : Bool
  inAttr : Bool
  inValue : Bool
  inQuote : Bool
  isOid : Bool
  escape : Bool
  l : Nat
  data : List (Int × UInt8)
  compName : List UInt8
  components : List LdbDnComponent
  extComponents : List (List UInt8 × α)

inductive ExplodeOutcome (α : Type)
  | ok (components : List LdbDnComponent) (extComponents : List (List UInt8 × α))
  | failed (invalid : Bool)
  deriving DecidableEq, Repr

inductive ExplodeStep (α : Type)
  | next (st : ExplodeState α)
  | done (outcome : ExplodeOutcome α) (data : List (Int × UInt8))

def bufferAt (data : List (Int × UInt8)) (i : Int) : UInt8 :=
  ((data.find? (·.1 = i)).map (·.2)).getD 0

def bufferBytes (data : List (Int × UInt8)) (i : Int) : Nat → List UInt8
  | 0 => []
  | n + 1 => bufferAt data i :: bufferBytes data (i + 1) n

def bufferString (data : List (Int × UInt8)) (i : Int) : Nat → List UInt8
  | 0 => []
  | fuel + 1 =>
    let c := bufferAt data i
    if c = 0 then [] else c :: bufferString data (i + 1) fuel

/-- `l -= n` on a `size_t`. -/
def sizeSub (l n : Nat) : Nat := (((l : Int) - n) % 2 ^ 64).toNat

section Loop

variable {α : Type} (s : List UInt8)

def ExplodeState.put (st : ExplodeState α) (c : UInt8) : ExplodeState α :=
  { st with data := (st.d, c) :: st.data, d := st.d + 1 }

def ExplodeState.trimBack (st : ExplodeState α) : ExplodeState α :=
  match st.t with
  | none => st
  | some t => { st with d := st.d - (st.p - t : Nat), l := sizeSub st.l (st.p - t) }

def ExplodeState.fail (st : ExplodeState α) (invalid : Bool) : ExplodeStep α :=
  .done (.failed invalid) st.data

/-- `talloc_memdup(dt, l + 1)` after the value's NUL is written, the size computed
in `size_t`: the state with the component added, or `none` when the allocation
fails. -/
def ExplodeState.addComponent (st : ExplodeState α) : Option (ExplodeState α) :=
  let size := (st.l + 1) % 2 ^ 64
  if maxTallocSize ≤ size then none
  else some { st with
    components := st.components ++ [⟨st.compName, bufferBytes st.data st.dt size, st.l⟩] }

-- `ldb_dn_extended_syntax_by_name` with the `read_fn` of the syntax it finds
variable (extendedSyntaxByName : List UInt8 → Option (List UInt8 → Option α))

def extendedStep (st : ExplodeState α) : ExplodeStep α :=
  let c := byteAt s st.p
  if !st.inExName && !st.inExValue then
    if c = 0x3c then .next { st with p := st.p + 1, exName := st.d, inExName := true }
    else .next { st with inExtended := false, inAttr := true, dt := st.d }
  else if st.inExName && c = 0x3d then
    let st := st.put 0
    .next { st with p := st.p + 1, exValue := st.d, inExName := false, inExValue := true }
  else if st.inExValue && c = 0x3e then
    let exVal := bufferBytes st.data st.exValue (st.d - st.exValue).toNat
    let st := st.put 0
    let st := { st with p := st.p + 1, inExValue := false }
    let name := bufferString st.data st.exName (s.length + 1)
    match extendedSyntaxByName name with
    | none => st.fail false
    | some readFn =>
      match readFn exVal with
      | none => st.fail true
      | some value =>
        let st := { st with extComponents := st.extComponents ++ [(name, value)] }
        if byteAt s st.p = 0 then .done (.ok st.components st.extComponents) st.data
        else if byteAt s st.p = 0x3b then .next { st with p := st.p + 1 }
        else st.fail true
  else .next { st.put c with p := st.p + 1 }

def attrStep (st : ExplodeState α) : ExplodeStep α :=
  let c := byteAt s st.p
  if st.trim then
    if c = 0x20 then .next { st with p := st.p + 1 }
    else if !isAscii c then st.fail true
    else if isDigit c then .next { st.put c with p := st.p + 1, trim := false, isOid := true }
    else if !isAlpha c then st.fail true
    else .next { st.put c with p := st.p + 1, trim := false }
  else if c = 0x20 then .next { st with p := st.p + 1, trim := true }
  else if c = 0x3d then
    let st := st.put 0
    .next { st with
      p := st.p + 1, inAttr := false, inValue := true, trim := true, l := 0, dt := st.d
      compName := bufferString st.data st.dt (s.length + 1) }
  else if !isAscii c then st.fail true
  else if st.isOid && !(isDigit c || c = 0x2e) then st.fail true
  else if !(isAlpha c || isDigit c || c = 0x2d) then st.fail true
  else .next { st.put c with p := st.p + 1 }

def ExplodeState.copyValueChar (st : ExplodeState α) (c : UInt8) : ExplodeState α :=
  { st.put c with p := st.p + 1, l := st.l + 1 }

def valueSwitch (isIndex : Bool) (st : ExplodeState α) : ExplodeStep α :=
  let c := byteAt s st.p
  if c = 0x2c then
    if st.escape then .next { st.copyValueChar c with escape := false }
    else
      let st := { st.trimBack with
        t := none, inAttr := true, inValue := false, trim := true, p := st.p + 1 }
      let st := st.put 0
      match st.addComponent with
      | none => st.fail false
      | some st => .next { st with dt := st.d }
  else if isIndex && (c = 0x2b || c = 0x3d) then
    .next { st.copyValueChar c with t := none }
  else if c = 0x2b || c = 0x3d || c = 0x22 || c = 0x3c || c = 0x3e || c = 0x3b then
    if !st.escape then st.fail true
    else .next { st.copyValueChar c with escape := false, t := none }
  else if c = 0x5c then
    if !st.escape then .next { st with p := st.p + 1, escape := true }
    else .next { st.copyValueChar c with escape := false, t := none }
  else if st.escape then
    let c1 := byteAt s (st.p + 1)
    match digitIn 16 c, digitIn 16 c1 with
    | some hi, some lo =>
      .next { st.put (UInt8.ofNat (hi * 16 + lo)) with
        p := st.p + 2, escape := false, l := st.l + 1, t := none }
    | _, _ => .next { st.copyValueChar c with escape := false, t := none }
  else
    let t := if c = 0x20 then (if st.t = none then some st.p else st.t) else none
    .next { st.copyValueChar c with t := t }

def valueStep (isIndex : Bool) (st : ExplodeState α) : ExplodeStep α :=
  let c := byteAt s st.p
  if st.inQuote then
    if c = 0x22 && byteAt s (st.p - 1) != 0x5c then
      .next { st with p := st.p + 1, inQuote := false }
    else .next (st.copyValueChar c)
  else if st.trim && c = 0x20 then .next { st with p := st.p + 1 }
  else if st.trim && c = 0x22 then .next { st with p := st.p + 1, trim := false, inQuote := true }
  else valueSwitch s isIndex { st with trim := false }

def explodeStep (isIndex : Bool) (st : ExplodeState α) : ExplodeStep α :=
  if st.inExtended then extendedStep s extendedSyntaxByName st
  else if st.inAttr then attrStep s st
  else if st.inValue then valueStep s isIndex st
  else .next st

def explodeFinish (st : ExplodeState α) : ExplodeStep α :=
  if st.inAttr || st.inQuote then st.fail true
  else if st.inValue then
    let st := st.trimBack.put 0
    match st.addComponent with
    | none => st.fail false
    | some st => .done (.ok st.components st.extComponents) st.data
  else .done (.ok st.components st.extComponents) st.data

def explodeLoop (isIndex : Bool) : Nat → ExplodeState α → ExplodeStep α
  | 0, st => .next st
  | fuel + 1, st =>
    if byteAt s st.p = 0 then explodeFinish st
    else match explodeStep s extendedSyntaxByName isIndex st with
      | .next st => explodeLoop isIndex fuel st
      | .done outcome data => .done outcome data

def indexPrefix : List UInt8 := [0x44, 0x4e, 0x3d, 0x40, 0x49, 0x4e, 0x44, 0x45, 0x58, 0x3a]

/-- `ldb_dn_explode` on a DN whose string `parse_dn` has the bytes `s` before its
NUL: the outcome and the writes to the working buffer. Every turn but the one
that leaves the extended part consumes a byte, so `strlen + 2` turns are enough. -/
def ldbDnExplode (special : Bool) : ExplodeOutcome α × List (Int × UInt8) :=
  if byteAt s 0 = 0 then (.ok [] [], [])
  else if special then (.ok [] [], [])
  else if maxTallocSize ≤ s.length + 1 then (.failed false, [])
  else
    let st : ExplodeState α :=
      { p := 0, d := 0, dt := 0, t := none, exName := 0, exValue := 0, trim := true,
        inExtended := true, inExName := false, inExValue := false, inAttr := false,
        inValue := false, inQuote := false, isOid := false, escape := false, l := 0,
        data := [], compName := [], components := [], extComponents := [] }
    match explodeLoop s extendedSyntaxByName (indexPrefix.isPrefixOf s) (s.length + 2) st with
    | .done outcome data => (outcome, data)
    | .next st => (.ok st.components st.extComponents, st.data)

end Loop

def spaceThenEscapedCommas : List UInt8 :=
  [0x78, 0x3d, 0x61, 0x20, 0x5c, 0x2c, 0x5c, 0x2c, 0x5c, 0x2c, 0x5c, 0x2c]

def spaceThenTwoEscapedCommas : List UInt8 := [0x78, 0x3d, 0x61, 0x20, 0x5c, 0x2c, 0x5c, 0x2c]

def noExtendedSyntax : List UInt8 → Option (List UInt8 → Option Unit) := fun _ ↦ none

theorem ldbDnExplode_escapedComma_trims_past_value :
    ldbDnExplode spaceThenEscapedCommas noExtendedSyntax false =
      (.failed false,
        [(-1, 0), (7, 0x2c), (6, 0x2c), (5, 0x2c), (4, 0x2c), (3, 0x20), (2, 0x61), (1, 0),
          (0, 0x78)]) ∧
    (ldbDnExplode spaceThenTwoEscapedCommas noExtendedSyntax false).1 =
      .ok [⟨[0x78], [], 2 ^ 64 - 1⟩] [] := by
  decide +kernel

def hexbytes : List UInt8 :=
  [0x30, 0x31, 0x32, 0x33, 0x34, 0x35, 0x36, 0x37, 0x38, 0x39, 0x41, 0x42, 0x43, 0x44, 0x45, 0x46]

def escapeChar (len i : Nat) (c : UInt8) : List UInt8 :=
  if c = 0x20 then (if i = 0 ∨ i = len - 1 then [0x5c, c] else [c])
  else if c ∈ [0x23, 0x2c, 0x2b, 0x22, 0x5c, 0x3c, 0x3e, 0x3f] then [0x5c, c]
  else if c ∈ [0x3b, 0x0d, 0x0a, 0x3d, 0x00] then
    [0x5c, hexbytes.getD (c >>> 4).toNat 0, hexbytes.getD (c &&& 0xf).toNat 0]
  else [c]

def escapeFrom (len : Nat) : Nat → List UInt8 → List UInt8
  | _, [] => []
  | i, c :: cs => escapeChar len i c ++ escapeFrom len (i + 1) cs

/-- `ldb_dn_escape_internal(dst, src, len)`: the bytes it writes. -/
def ldbDnEscapeInternal (src : List UInt8) : List UInt8 := escapeFrom src.length 0 src

/-- `ldb_dn_get_linearized` of a DN with its components and no cached string: each
name, `=`, the escaped value and `,`, the last `,` then taken back. -/
def ldbDnGetLinearized (components : List LdbDnComponent) : List UInt8 :=
  if components = [] then []
  else (components.flatMap fun c ↦
    cString c.name ++ [0x3d] ++ ldbDnEscapeInternal (c.valueData.take c.valueLength) ++ [0x2c]).dropLast

theorem ldbDnGetLinearized_explode_empties_value :
    ldbDnGetLinearized [⟨[0x78], [0x61, 0x20, 0x2c], 3⟩] = [0x78, 0x3d, 0x61, 0x20, 0x5c, 0x2c] ∧
    (ldbDnExplode (ldbDnGetLinearized [⟨[0x78], [0x61, 0x20, 0x2c], 3⟩]) noExtendedSyntax false).1 =
      .ok [⟨[0x78], [0], 0⟩] [] := by
  decide +kernel

end Samba.Ldb.Dn
