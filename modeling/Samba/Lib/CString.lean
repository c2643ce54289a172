import Mathlib

namespace Samba.Lib.CString

def cString (bytes : List UInt8) : List UInt8 := bytes.takeWhile (· != 0)

def byteAt (s : List UInt8) (i : Nat) : UInt8 := s.getD i 0

/-- `isspace` in the C locale. -/
def isSpace (c : UInt8) : Bool := c == 0x20 || (0x09 ≤ c && c ≤ 0x0d)

def digitIn (base : Nat) (c : UInt8) : Option Nat :=
  let d := if 0x30 ≤ c ∧ c ≤ 0x39 then c.toNat - 0x30
    else if 0x61 ≤ c ∧ c ≤ 0x7a then c.toNat - 0x61 + 10
    else if 0x41 ≤ c ∧ c ≤ 0x5a then c.toNat - 0x41 + 10
    else 36
  if d < base then some d else none

def isAscii (c : UInt8) : Bool := c < 0x80
def isDigit (c : UInt8) : Bool := 0x30 ≤ c && c ≤ 0x39
def isAlpha (c : UInt8) : Bool := (0x41 ≤ c && c ≤ 0x5a) || (0x61 ≤ c && c ≤ 0x7a)
def isXDigit (c : UInt8) : Bool := (digitIn 16 c).isSome

def readDigits (base : Nat) : List UInt8 → Nat → Nat × Nat
  | [], acc => (acc, 0)
  | c :: cs, acc =>
    match digitIn base c with
    | none => (acc, 0)
    | some d =>
      let r := readDigits base cs (min (acc * base + d) (2 ^ 64))
      (r.1, r.2 + 1)

/-- `strtoull(s, &endptr, 0)`: the value and the offset `endptr` is left at, `0`
when no digit was read. Leading white space and a sign are skipped, `0x`
before a hexadecimal digit selects base 16 and a leading `0` base 8; an
overflowing value is `ULLONG_MAX`, and a `-` negates modulo `2 ^ 64`. -/
def strtoull (s : List UInt8) : UInt64 × Nat :=
  let spaces := (s.takeWhile isSpace).length
  let rest := s.drop spaces
  let (neg, signLen) : Bool × Nat := match rest with
    | 0x2d :: _ => (true, 1)
    | 0x2b :: _ => (false, 1)
    | _ => (false, 0)
  let rest := rest.drop signLen
  let (base, prefixLen) : Nat × Nat := match rest with
    | 0x30 :: x :: h :: _ =>
      if (x == 0x78 || x == 0x58) && (digitIn 16 h).isSome then (16, 2) else (8, 0)
    | 0x30 :: _ => (8, 0)
    | _ => (10, 0)
  let (value, count) := readDigits base (rest.drop prefixLen) 0
  if count = 0 then (0, 0) else
  let result : UInt64 :=
    if 2 ^ 64 ≤ value then UInt64.ofNat (2 ^ 64 - 1)
    else if neg then 0 - UInt64.ofNat value else UInt64.ofNat value
  (result, spaces + signLen + prefixLen + count)

example : strtoull [0x20, 0x30, 0x78, 0x31, 0x66] = (31, 5) := by decide
example : strtoull [0x30, 0x78] = (0, 1) := by decide
example : strtoull [0x2d, 0x31] = (UInt64.ofNat (2 ^ 64 - 1), 2) := by decide

def formatUnsigned (n : Nat) : List UInt8 := (Nat.toDigits 10 n).map fun c ↦ c.toNat.toUInt8

/-- `strtoul(s, &endptr, base)` for a base that takes no prefix, as `10`: the
value, the offset `endptr` is left at (`0` when no digit was read), and whether
`errno` was set to `ERANGE` for a value above `ULONG_MAX`. -/
def strtoul (base : Nat) (s : List UInt8) : UInt64 × Nat × Bool :=
  let spaces := (s.takeWhile isSpace).length
  let rest := s.drop spaces
  let (neg, signLen) : Bool × Nat := match rest with
    | 0x2d :: _ => (true, 1)
    | 0x2b :: _ => (false, 1)
    | _ => (false, 0)
  let (value, count) := readDigits base (rest.drop signLen) 0
  if count = 0 then (0, 0, false)
  else if 2 ^ 64 ≤ value then (UInt64.ofNat (2 ^ 64 - 1), spaces + signLen + count, true)
  else ((if neg then 0 - UInt64.ofNat value else UInt64.ofNat value), spaces + signLen + count, false)

/-- `smb_strtoul(s, &endptr, base, &error, SMB_STR_STANDARD)` (`lib/util/smb_strtox.c`):
the value, `endptr`, and whether `error` is set, for `ERANGE`, for no
conversion, or for a `-` before `endptr`. -/
def smbStrtoul (base : Nat) (s : List UInt8) : UInt64 × Nat × Bool :=
  let (value, endptr, erange) := strtoul base s
  (value, endptr, erange || endptr = 0 || (s.take endptr).contains 0x2d)

example : smbStrtoul 10 [0x20, 0x2b, 0x31, 0x3a] = (1, 3, false) := by decide
example : (smbStrtoul 10 [0x2d, 0x31]).2.2 = true := by decide

def formatHex (n : Nat) : List UInt8 := (Nat.toDigits 16 n).map fun c ↦ c.toNat.toUInt8

def strtoullErange (s : List UInt8) : Bool :=
  let rest := s.drop (s.takeWhile isSpace).length
  let rest := match rest with
    | 0x2d :: r => r
    | 0x2b :: r => r
    | r => r
  let (base, digits) : Nat × List UInt8 := match rest with
    | 0x30 :: x :: h :: r =>
      if (x == 0x78 || x == 0x58) && (digitIn 16 h).isSome then (16, h :: r) else (8, rest)
    | 0x30 :: _ => (8, rest)
    | _ => (10, rest)
  decide (2 ^ 64 ≤ (readDigits base digits 0).1)

/-- `smb_strtoull(s, &endptr, 0, &error, SMB_STR_STANDARD)`: the value and
`endptr` of `strtoull`, and whether `error` is set, for `ERANGE`, for no
conversion, or for a `-` before `endptr`. -/
def smbStrtoull (s : List UInt8) : UInt64 × Nat × Bool :=
  let (value, endptr) := strtoull s
  (value, endptr, strtoullErange s || endptr = 0 || (s.take endptr).contains 0x2d)

example : smbStrtoull [0x30, 0x78, 0x31, 0x30, 0x2d] = (16, 4, false) := by decide

def strlen (s : List UInt8) : Nat := (cString s).length

/-- `strncmp(a, b, n)`, the end of a list read as its NUL: the difference of the
first bytes that differ within `n`, and `0` when the strings agree up to a shared
NUL or for `n` bytes. -/
def strncmp : Nat → List UInt8 → List UInt8 → Int
  | 0, _, _ => 0
  | n + 1, a :: as, b :: bs =>
    if a ≠ b then (a.toNat : Int) - b.toNat else if a = 0 then 0 else strncmp n as bs
  | _ + 1, a :: _, [] => a.toNat
  | _ + 1, [], b :: _ => -(b.toNat : Int)
  | _ + 1, [], [] => 0

/-- `strcmp`: `strncmp` with a bound past both terminators. -/
def strcmp (a b : List UInt8) : Int := strncmp (max a.length b.length + 1) a b

-- equation lemmas made once, before the proofs below use them in parallel
attribute [local simp] cString.eq_1 strlen.eq_1
attribute [-simp] cString.eq_1 strlen.eq_1

theorem cString_cons (c : UInt8) (s : List UInt8) :
    cString (c :: s) = if c = 0 then [] else c :: cString s := by
  by_cases hc : c = 0 <;> simp [cString, hc]

theorem cString_eq_self {s : List UInt8} (h : 0 ∉ s) : cString s = s :=
  List.takeWhile_eq_self_iff.mpr fun c hc ↦ by
    have : c ≠ 0 := fun h0 ↦ h (h0 ▸ hc)
    simpa using this

theorem zero_not_mem_cString (s : List UInt8) : 0 ∉ cString s := by
  intro h
  simpa using List.mem_takeWhile_imp h

theorem cString_drop {s : List UInt8} {k : Nat} (hk : k ≤ strlen s) :
    cString (s.drop k) = (cString s).drop k := by
  induction s generalizing k with
  | nil => simp [cString]
  | cons c s ih =>
    cases k with
    | zero => rfl
    | succ k =>
      by_cases hc : c = 0
      · simp [strlen, cString_cons, hc] at hk
      · have hk' : k ≤ strlen s := by simpa [strlen, cString_cons, hc] using hk
        simp [cString_cons, hc, ih hk']

theorem byteAt_of_drop {s t : List UInt8} {j : Nat} {c : UInt8} (h : s.drop j = c :: t) :
    byteAt s j = c := by
  have hget : s[j]? = some c := by
    have h0 : (s.drop j)[0]? = some c := by rw [h]; rfl
    rwa [List.getElem?_drop, Nat.add_zero] at h0
  rw [byteAt, List.getD_eq_getElem?_getD, hget]
  rfl

theorem byteAt_append_length (pre rest : List UInt8) :
    byteAt (pre ++ rest) pre.length = byteAt rest 0 := by
  simp [byteAt, List.getD_eq_getElem?_getD, List.getElem?_append_right]

theorem byteAt_eq_byteAt_drop (s : List UInt8) (q : Nat) : byteAt s q = byteAt (s.drop q) 0 := by
  simp [byteAt, List.getD_eq_getElem?_getD]

theorem drop_eq_cons_of_byteAt {s : List UInt8} {p : Nat} {c : UInt8} (h : byteAt s p = c)
    (hc : c ≠ 0) : s.drop p = c :: s.drop (p + 1) := by
  by_cases hp : p < s.length
  · have hget : s[p] = c := by
      rw [byteAt, List.getD_eq_getElem?_getD, List.getElem?_eq_getElem hp] at h
      exact h
    rw [List.drop_eq_getElem_cons hp, hget]
  · rw [byteAt, List.getD_eq_getElem?_getD, List.getElem?_eq_none (Nat.not_lt.1 hp)] at h
    exact absurd h.symm hc

theorem drop_length_of_append {s t r : List UInt8} {p : Nat} (h : s.drop p = t ++ r) :
    s.drop (p + t.length) = r := by
  rw [← List.drop_drop, h, List.drop_left]

theorem toNat_eq_zero_iff (x : UInt8) : x.toNat = 0 ↔ x = 0 := by
  rw [← UInt8.toNat_zero, UInt8.toNat_inj]

theorem strncmp_eq_zero_iff (n : Nat) (a b : List UInt8) :
    strncmp n a b = 0 ↔ cString (a.take n) = cString (b.take n) := by
  induction n generalizing a b with
  | zero => simp [strncmp, cString]
  | succ n ih =>
    match a, b with
    | [], [] => simp [strncmp]
    | x :: _, [] => simp [strncmp, cString, toNat_eq_zero_iff]
    | [], y :: _ =>
      by_cases hy : y = 0
      · simp [strncmp, cString, hy]
      · have : y.toNat ≠ 0 := fun h ↦ hy ((toNat_eq_zero_iff y).mp h)
        simp [strncmp, cString, hy, this]
    | x :: as, y :: bs =>
      by_cases hxy : x = y
      · subst hxy
        by_cases hx : x = 0
        · simp [strncmp, cString_cons, hx]
        · simp [strncmp, cString_cons, hx, ih]
      · have hne : (x.toNat : Int) - y.toNat ≠ 0 := by
          intro h
          exact hxy (UInt8.toNat_inj.mp (by omega))
        by_cases hx : x = 0 <;> by_cases hy : y = 0 <;>
          simp_all [strncmp, cString_cons]

theorem strcmp_eq_zero_iff (a b : List UInt8) : strcmp a b = 0 ↔ cString a = cString b := by
  rw [strcmp, strncmp_eq_zero_iff,
    List.take_of_length_le (by omega), List.take_of_length_le (by omega)]

/-- `tolower` in the C locale. -/
def toLower (c : UInt8) : UInt8 := if 0x41 ≤ c ∧ c ≤ 0x5a then c + 0x20 else c

/-- `strcasecmp` in the C locale: `strcmp` of the two strings in lower case, the
NULs staying where they are. -/
def strcasecmp (a b : List UInt8) : Int := strcmp (a.map toLower) (b.map toLower)

end Samba.Lib.CString
