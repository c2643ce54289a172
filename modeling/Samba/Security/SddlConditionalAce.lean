import Samba.Ldb.Parse

namespace Samba.Security.SddlConditionalAce

open Samba.Lib.CString Samba.Ldb.Parse

/-- `CONDITIONAL_ACE_TOKEN_OCTET_STRING`. -/
def conditionalAceTokenOctetString : UInt8 := 0x18

/-- `CONDITIONAL_ACE_SAMBA_SDDL_PAREN`, which is never the last token type. -/
def conditionalAceSambaSddlParen : UInt8 := 0xf1

/-- `CONDITIONAL_ACE_MAX_TOKENS`. -/
def conditionalAceMaxTokens : Nat := 2000

structure AceConditionToken where
  type : UInt8
  bytes : List UInt8
  deriving DecidableEq, Repr

structure SddlCompilerContext where
  sddl : List UInt8
  length : Nat
  offset : Nat
  approxSize : Nat
  target : List AceConditionToken
  message : Option String
  messageOffset : Nat
  lastTokenType : UInt8
  deriving DecidableEq, Repr

/-- `comp_error`: the first message is kept with the offset it was raised at;
later ones are appended to it. -/
def compError (comp : SddlCompilerContext) (msg : String) : SddlCompilerContext :=
  match comp.message with
  | none => { comp with message := some msg, messageOffset := comp.offset }
  | some m => { comp with message := some (m ++ " AND THEN " ++ msg) }

/-- `write_sddl_token`. -/
def writeSddlToken (comp : SddlCompilerContext) (token : AceConditionToken) :
    Bool × SddlCompilerContext :=
  let comp := { comp with approxSize := comp.approxSize + 1 }
  if comp.approxSize > conditionalAceMaxTokens then
    (false, compError comp s!"program is too long (over {conditionalAceMaxTokens} tokens)")
  else
    let comp := if token.type ≠ conditionalAceSambaSddlParen then
      { comp with lastTokenType := token.type } else comp
    (true, { comp with target := comp.target ++ [token] })

def isRaOctetChar (c : UInt8) : Bool :=
  c == 0x23 || (0x30 ≤ c && c ≤ 0x39) || (0x61 ≤ c && c ≤ 0x66) || (0x41 ≤ c && c ≤ 0x46)

def zeroIfHash (c : UInt8) : UInt8 := if c = 0x23 then 0x30 else c

def readPairs (comp : SddlCompilerContext) : Nat → Nat → Option (List UInt8 × Nat)
  | 0, j => some ([], j)
  | count + 1, j =>
    if comp.length - j < 2 then none
    else
      match hexByte [zeroIfHash (byteAt comp.sddl j), zeroIfHash (byteAt comp.sddl (j + 1))] with
      | none => none
      | some b => (readPairs comp count (j + 2)).map fun (bs, j') ↦ (b :: bs, j')

/-- `parse_ra_octet_string`. For an odd count of characters the first byte is
made of the pair `{0, c}`, whose high nibble is a `NUL` and whose `c` is read at
the start of the whole string, not at the offset. -/
def parseRaOctetString (comp : SddlCompilerContext) : Bool × SddlCompilerContext :=
  let stringLength := ((comp.sddl.drop comp.offset).takeWhile isRaOctetChar).length
  let bytesLength := (stringLength + 1) / 2
  if bytesLength = 0 then (false, compError comp "zero length octet bytes")
  else
    let lead : Option (List UInt8 × Nat) :=
      if stringLength % 2 = 1 then
        (hexByte [0, zeroIfHash (byteAt comp.sddl 0)]).map fun b ↦ ([b], comp.offset + 1)
      else some ([], comp.offset)
    match lead with
    | none => (false, compError comp "inexplicable error in octet string")
    | some (first, j) =>
      match readPairs comp (bytesLength - first.length) j with
      | none => (false, compError comp "inexplicable error in octet string")
      | some (rest, j) =>
        writeSddlToken { comp with offset := j } ⟨conditionalAceTokenOctetString, first ++ rest⟩

def raNibble (c : UInt8) : Nat := if c = 0x23 then 0 else (digitIn 16 c).getD 0

def nibblePairs : List UInt8 → List UInt8
  | a :: b :: rest => (16 * raNibble a + raNibble b).toUInt8 :: nibblePairs rest
  | _ => []

def raOctetBytes (r : List UInt8) : List UInt8 :=
  nibblePairs (if r.length % 2 = 1 then 0x30 :: r else r)

def oddRunContext : SddlCompilerContext :=
  ⟨[0x61, 0x62, 0x63, 0x29], 4, 0, 0, [], none, 0, 0⟩

example : raOctetBytes [0x61, 0x62, 0x63] = [0x0a, 0xbc] := by decide

example : raOctetBytes [0x66, 0x23, 0x23] = [0x0f, 0x00] := by decide

theorem digitIn_lt {base : Nat} {c : UInt8} {d : Nat} (h : digitIn base c = some d) : d < base := by
  simp only [digitIn, Option.ite_none_right_eq_some] at h
  obtain ⟨hlt, heq⟩ := h
  rw [← Option.some.inj heq]
  exact hlt

theorem raNibble_lt (c : UInt8) : raNibble c < 16 := by
  unfold raNibble
  split_ifs
  · decide
  · cases h : digitIn 16 c with
    | none => decide
    | some d => exact digitIn_lt h

theorem hexCharVal_zeroIfHash {c : UInt8} (hc : isRaOctetChar c = true) :
    hexCharVal (zeroIfHash c) = some (raNibble c).toUInt8 := by
  revert c
  decide +kernel

theorem hexByte_zeroIfHash {a b : UInt8} (ha : isRaOctetChar a = true) (hb : isRaOctetChar b = true) :
    hexByte [zeroIfHash a, zeroIfHash b] = some (16 * raNibble a + raNibble b).toUInt8 := by
  have hna : raNibble a < 16 := raNibble_lt a
  have hnb : raNibble b < 16 := raNibble_lt b
  simp only [hexByte, byteAt, List.getD_cons_zero, List.getD_cons_succ, hexCharVal_zeroIfHash ha,
    hexCharVal_zeroIfHash hb, Option.bind_eq_bind, Option.bind_some]
  show some _ = some _
  congr 1
  rw [← UInt8.toNat_inj]
  simp only [Nat.toUInt8_eq, UInt8.toNat_add, UInt8.toNat_shiftLeft, UInt8.toNat_ofNat',
    Nat.reducePow, UInt8.reduceToNat, Nat.reduceMod, Nat.add_mod_mod, Nat.mod_add_mod]
  rw [Nat.shiftLeft_eq]
  omega

theorem hexCharVal_zero : hexCharVal 0 = none := by decide

theorem readPairs_run (comp : SddlCompilerContext) (n : Nat) {r rest : List UInt8} {j : Nat}
    (hdrop : comp.sddl.drop j = r ++ rest) (hr : ∀ c ∈ r, isRaOctetChar c = true)
    (hn : r.length = 2 * n) (hlen : j + r.length ≤ comp.length) :
    readPairs comp n j = some (nibblePairs r, j + r.length) := by
  induction n generalizing r j with
  | zero =>
    have hr0 : r = [] := List.length_eq_zero_iff.1 (by omega)
    subst hr0
    rfl
  | succ n ih =>
    match r, hn with
    | a :: b :: r', hn =>
      have ha := hr a (by simp)
      have hb := hr b (by simp)
      have hdrop' : comp.sddl.drop (j + 2) = r' ++ rest := by
        rw [← List.drop_drop, hdrop]
        rfl
      have hlen' : (a :: b :: r').length = r'.length + 2 := rfl
      rw [readPairs, if_neg (by omega), byteAt_of_drop hdrop,
        byteAt_of_drop (t := r' ++ rest) (by rw [← List.drop_drop, hdrop]; rfl),
        hexByte_zeroIfHash ha hb]
      dsimp only
      rw [ih hdrop' (fun c hc ↦ hr c (by simp [hc])) (by simp at hn; omega) (by omega)]
      simp only [Option.map_some, nibblePairs, hlen']
      congr 2
      omega

theorem octetString_ne_paren : conditionalAceTokenOctetString ≠ conditionalAceSambaSddlParen := by
  decide

theorem takeWhile_run {r rest : List UInt8} (hr : ∀ c ∈ r, isRaOctetChar c = true)
    (hstop : ∀ c ∈ rest.head?, isRaOctetChar c = false) :
    (r ++ rest).takeWhile isRaOctetChar = r := by
  rw [List.takeWhile_append_of_pos hr]
  cases rest with
  | nil => simp
  | cons c rest => simp [hstop c rfl]

-- equation lemmas made once, before the proofs below use them in parallel
attribute [local simp] parseRaOctetString.eq_1
attribute [-simp] parseRaOctetString.eq_1

theorem parseRaOctetString_even (comp : SddlCompilerContext) {r rest : List UInt8}
    (hdrop : comp.sddl.drop comp.offset = r ++ rest) (hr : ∀ c ∈ r, isRaOctetChar c = true)
    (hstop : ∀ c ∈ rest.head?, isRaOctetChar c = false) (hne : r ≠ [])
    (heven : r.length % 2 = 0) (hlen : comp.sddl.length ≤ comp.length)
    (hsize : comp.approxSize < conditionalAceMaxTokens) :
    (parseRaOctetString comp).1 = true ∧
      (parseRaOctetString comp).2.offset = comp.offset + r.length ∧
      (parseRaOctetString comp).2.target =
        comp.target ++ [⟨conditionalAceTokenOctetString, raOctetBytes r⟩] := by
  have hpos : 0 < r.length := List.length_pos_iff.2 hne
  have hin : comp.offset + r.length ≤ comp.length := by
    have := congrArg List.length hdrop
    simp only [List.length_drop, List.length_append] at this
    omega
  rw [parseRaOctetString]
  dsimp only
  rw [hdrop, takeWhile_run hr hstop, if_neg (by omega), if_neg (by omega)]
  dsimp only
  have hcount : (r.length + 1) / 2 - ([] : List UInt8).length = r.length / 2 := by
    rw [List.length_nil]
    omega
  rw [hcount, readPairs_run comp (r.length / 2) hdrop hr (by omega) hin]
  dsimp only
  have hbytes : raOctetBytes r = nibblePairs r := by
    rw [raOctetBytes, if_neg (by omega)]
  rw [writeSddlToken, if_neg (show ¬comp.approxSize + 1 > conditionalAceMaxTokens by omega),
    if_pos octetString_ne_paren, hbytes]
  exact ⟨rfl, rfl, rfl⟩

theorem parseRaOctetString_odd (comp : SddlCompilerContext)
    (hodd : ((comp.sddl.drop comp.offset).takeWhile isRaOctetChar).length % 2 = 1) :
    parseRaOctetString comp = (false, compError comp "inexplicable error in octet string") := by
  rw [parseRaOctetString]
  dsimp only
  rw [if_neg (by omega), if_pos hodd]
  simp [hexByte, byteAt, hexCharVal_zero]

theorem parseRaOctetString_rejects_odd_run :
    ((oddRunContext.sddl.drop oddRunContext.offset).takeWhile isRaOctetChar).length % 2 = 1 ∧
      (parseRaOctetString oddRunContext).1 = false ∧
      raOctetBytes ((oddRunContext.sddl.drop oddRunContext.offset).takeWhile isRaOctetChar) =
        [0x0a, 0xbc] :=
  ⟨by decide, by rw [parseRaOctetString_odd oddRunContext (by decide)], by decide⟩

end Samba.Security.SddlConditionalAce
