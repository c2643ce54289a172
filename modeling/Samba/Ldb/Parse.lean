import Samba.Ldb.Match

namespace Samba.Ldb.Parse

open Samba.Lib.CString Samba.Ldb.Match

def stringOfBytes (b : List UInt8) : String := String.ofList (b.map fun c ↦ Char.ofNat c.toNat)

def bytesOfString (s : String) : List UInt8 := cString (s.toList.map fun c ↦ c.toNat.toUInt8)

/-- `_hexcharval`: a hexadecimal digit of either case. -/
def hexCharVal (c : UInt8) : Option UInt8 :=
  if 0x30 ≤ c ∧ c ≤ 0x39 then some (c - 0x30)
  else
    let c := c &&& 0xdf
    if 0x41 ≤ c ∧ c ≤ 0x46 then some (c - 0x41 + 10) else none

/-- `hex_byte` on the bytes after a backslash; the terminator is no digit, and the
second byte is not read when the first is not one. -/
def hexByte (s : List UInt8) : Option UInt8 := do
  let hi ← hexCharVal (byteAt s 0)
  let lo ← hexCharVal (byteAt s 1)
  pure ((hi <<< 4) + lo)

/-- `ldb_binary_decode`: `\XX` escapes become their byte; `none` is the result
with `NULL` data, for an escape without two hexadecimal digits. -/
def ldbBinaryDecode : List UInt8 → Option (List UInt8)
  | [] => some []
  | c :: rest =>
    if c = 0x5c then
      match hexByte rest with
      | none => none
      | some b => (ldbBinaryDecode (rest.drop 2)).map (b :: ·)
    else (ldbBinaryDecode rest).map (c :: ·)
termination_by s => s.length
decreasing_by all_goals simp only [List.length_drop, List.length_cons]; omega

/-- `need_encode`: control and non-ASCII bytes and the filter's own punctuation
` *()\&|!"` (whose `strchr` also matches `NUL`, a control byte already). -/
def needEncode (c : UInt8) : Bool :=
  c < 0x20 || c > 0x7e || [0x20, 0x2a, 0x28, 0x29, 0x5c, 0x26, 0x7c, 0x21, 0x22].contains c

def hexDigitUpper (n : UInt8) : UInt8 := if n < 10 then 0x30 + n else 0x41 + (n - 10)

def escapeByte (c : UInt8) : List UInt8 :=
  if needEncode c then [0x5c, hexDigitUpper (c >>> 4), hexDigitUpper (c &&& 0x0f)] else [c]

def ldbBinaryEncode (val : List UInt8) : List UInt8 := val.flatMap escapeByte

/-- `ldb_parse_find_wildcard`: the offset of the first `*` no backslash escapes;
a backslash hides the byte after it, and one at the end ends the search. -/
def ldbParseFindWildcard : List UInt8 → Option Nat
  | [] => none
  | c :: rest =>
    if c = 0x5c then
      match rest with
      | [] => none
      | _ :: rest => (ldbParseFindWildcard rest).map (· + 2)
    else if c = 0x2a then some 0
    else (ldbParseFindWildcard rest).map (· + 1)

def wildcardDecodeChunks (s : List UInt8) : Option (List LdbVal) :=
  if s = [] then some [] else
  match ldbParseFindWildcard s with
  | none => (ldbBinaryDecode s).map fun v ↦ [⟨v⟩]
  | some i =>
    if i = 0 then wildcardDecodeChunks (s.drop 1)
    else do
      let v ← ldbBinaryDecode (s.take i)
      let chunks ← wildcardDecodeChunks (s.drop (i + 1))
      pure (⟨v⟩ :: chunks)
termination_by s.length
decreasing_by
  all_goals
    simp only [List.length_drop]
    have : s.length ≠ 0 := fun h ↦ by simp_all
    omega

/-- `ldb_wildcard_decode`, which returns `NULL` when it finds no chunk. -/
def ldbWildcardDecode (s : List UInt8) : Option (List LdbVal) :=
  match wildcardDecodeChunks s with
  | some [] => none
  | chunks => chunks

def isAttrChar (c : UInt8) : Bool := isAscii c && (isAlpha c || isDigit c) || c = 0x2d || c = 0x2e

/-- `strstr`: the input from the first occurrence of `needle` on. -/
def strstr (hay needle : List UInt8) : Option (List UInt8) :=
  if needle.isPrefixOf hay then some hay
  else match hay with
    | [] => none
    | _ :: rest => strstr rest needle

def scanValue (prev : UInt8) : List UInt8 → List UInt8 × List UInt8
  | [] => ([], [])
  | c :: rest =>
    if c = 0x29 ∧ prev ≠ 0x5c then ([], c :: rest)
    else
      let r := scanValue c rest
      (c :: r.1, r.2)

def filterOp : List UInt8 → Option (LdbParseOp × List UInt8)
  | 0x3d :: p => some (.equality, p)
  | 0x3c :: 0x3d :: p => some (.less, p)
  | 0x3e :: 0x3d :: p => some (.greater, p)
  | 0x7e :: 0x3d :: p => some (.approx, p)
  | 0x3a :: 0x3d :: p => some (.extended, p)
  | _ => none

def attributeEnd (s : List UInt8) : Option (List UInt8) :=
  let p := if byteAt s 0 = 0x40 then s.drop 1 else s
  let p := p.dropWhile isAttrChar
  if byteAt p 0 = 0x3a then strstr p [0x3a, 0x3d] else some p

def scanAttributeValue (p : List UInt8) : List UInt8 × List UInt8 :=
  let r := scanValue ((p.takeWhile isSpace).getLast?.getD 0x3d) (p.dropWhile isSpace)
  (r.1.rdropWhile isSpace, r.2)

/-- `ldb_parse_filtertype`: the filter type (its `0` is `none`), the attribute
name, the value, and the input left at the value's end. -/
def ldbParseFiltertype (s : List UInt8) :
    Option (LdbParseOp × List UInt8 × List UInt8 × List UInt8) :=
  match attributeEnd s with
  | none => none
  | some p =>
    let name := s.take (s.length - p.length)
    let p := p.dropWhile isSpace
    if !(p.isEmpty || [0x3d, 0x3c, 0x3e, 0x7e, 0x3a].contains (byteAt p 0)) then none else
    match filterOp p with
    | none => none
    | some (filter, p) =>
      let r := scanAttributeValue p
      some (filter, name, r.1, r.2)

/-- `ldb_parse_extended` on the name `attr:dn:oid` (or a part of it) and the
value; `goto failed` is `none`. -/
def ldbParseExtended (attr value : List UInt8) : Option LdbParseTree := do
  let value ← ldbBinaryDecode value
  let p1 ← attr.idxOf? 0x3a
  let rest := attr.drop (p1 + 1)
  let p2 := rest.idxOf? 0x3a
  let field := match p2 with
    | none => rest
    | some p2 => rest.take p2
  if field = [0x64, 0x6e] then
    pure (.extended (some (stringOfBytes (attr.take p1))) true
      (p2.map fun p2 ↦ stringOfBytes (rest.drop (p2 + 1))) ⟨value⟩)
  else
    pure (.extended (some (stringOfBytes (attr.take p1))) false (some (stringOfBytes field))
      ⟨value⟩)

/-- `ldb_parse_simple`, with the input `ldb_parse_filtertype` left. -/
def ldbParseSimple (s : List UInt8) : Option (LdbParseTree × List UInt8) :=
  match ldbParseFiltertype s with
  | none => none
  | some (filter, name, value, rest) =>
    let attr := stringOfBytes name
    let tree : Option LdbParseTree := match filter with
      | .equality =>
        if value = [0x2a] then some (.present attr)
        else if (ldbParseFindWildcard value).isSome then
          (ldbWildcardDecode value).map fun chunks ↦
            .substring attr (byteAt value 0 = 0x2a) (value.getLast? = some 0x2a) chunks
        else (ldbBinaryDecode value).map fun v ↦ .equality attr ⟨v⟩
      | .greater => (ldbBinaryDecode value).map fun v ↦ .greater attr ⟨v⟩
      | .less => (ldbBinaryDecode value).map fun v ↦ .less attr ⟨v⟩
      | .approx => (ldbBinaryDecode value).map fun v ↦ .approx attr ⟨v⟩
      | .extended => ldbParseExtended name value
      | _ => none
    tree.map (·, rest)

-- equation lemmas made once, before the proofs below use them in parallel
attribute [local simp] strstr.eq_1 scanValue.eq_1 attributeEnd.eq_1 ldbParseFiltertype.eq_1
  ldbParseSimple.eq_1
attribute [-simp] strstr.eq_1 scanValue.eq_1 attributeEnd.eq_1 ldbParseFiltertype.eq_1
  ldbParseSimple.eq_1

theorem scanValue_snd_length_le (prev : UInt8) (s : List UInt8) :
    (scanValue prev s).2.length ≤ s.length := by
  induction s generalizing prev with
  | nil => simp [scanValue]
  | cons c rest ih =>
    unfold scanValue
    split_ifs
    · exact le_refl _
    · exact (ih c).trans (Nat.le_succ _)

theorem strstr_length_le {hay needle r : List UInt8} (h : strstr hay needle = some r) :
    r.length ≤ hay.length := by
  induction hay with
  | nil =>
    unfold strstr at h
    split_ifs at h
    simp_all
  | cons c rest ih =>
    unfold strstr at h
    split_ifs at h
    · cases h
      exact le_refl _
    · exact (ih h).trans (Nat.le_succ _)

theorem filterOp_length_lt {s p : List UInt8} {op : LdbParseOp} (h : filterOp s = some (op, p)) :
    p.length < s.length := by
  unfold filterOp at h
  split at h <;> simp_all

theorem attributeEnd_length_le {s p : List UInt8} (h : attributeEnd s = some p) :
    p.length ≤ s.length := by
  unfold attributeEnd at h
  dsimp only at h
  have hname : (List.dropWhile isAttrChar
      (if byteAt s 0 = 0x40 then s.drop 1 else s)).length ≤ s.length := by
    refine (List.length_dropWhile_le _ _).trans ?_
    split <;> simp
  generalize List.dropWhile isAttrChar (if byteAt s 0 = 0x40 then s.drop 1 else s) = q at h hname
  split at h
  · exact (strstr_length_le h).trans hname
  · cases h
    exact hname

theorem scanAttributeValue_length_le (p : List UInt8) :
    (scanAttributeValue p).2.length ≤ p.length :=
  (scanValue_snd_length_le _ _).trans (List.length_dropWhile_le _ _)

theorem ldbParseFiltertype_rest_length {s : List UInt8}
    {r : LdbParseOp × List UInt8 × List UInt8 × List UInt8} (h : ldbParseFiltertype s = some r) :
    r.2.2.2.length < s.length := by
  unfold ldbParseFiltertype at h
  split at h
  · cases h
  · rename_i p hp
    dsimp only at h
    split_ifs at h
    split at h
    · cases h
    · rename_i op q hq
      cases h
      have hend := attributeEnd_length_le hp
      have hop := filterOp_length_lt hq
      have hscan := scanAttributeValue_length_le q
      have hspace := List.length_dropWhile_le isSpace p
      dsimp only
      omega

theorem ldbParseSimple_rest_length {s r : List UInt8} {tree : LdbParseTree}
    (h : ldbParseSimple s = some (tree, r)) : r.length < s.length := by
  unfold ldbParseSimple at h
  split at h
  · cases h
  · rename_i filter name value rest hft
    obtain ⟨t, -, ht⟩ := Option.map_eq_some_iff.1 h
    cases ht
    exact ldbParseFiltertype_rest_length hft

abbrev Rest (s : List UInt8) := {r : List UInt8 // r.length ≤ s.length}

abbrev StrictRest (s : List UInt8) := {r : List UInt8 // r.length < s.length}

theorem length_tail_lt {s : List UInt8} (hs : s ≠ []) : s.tail.length < s.length := by
  cases s with
  | nil => exact absurd rfl hs
  | cons c s => simp

theorem length_dropWhile_tail_lt {s : List UInt8} (hs : s ≠ []) (p : UInt8 → Bool) :
    (s.tail.dropWhile p).length < s.length :=
  (List.length_dropWhile_le p s.tail).trans_lt (length_tail_lt hs)

mutual

/-- `ldb_parse_filter`: `(`, a filter component at one level deeper, `)` and the
spaces after it; past `max_depth` nothing is parsed. -/
def ldbParseFilter (maxDepth depth : Nat) (s : List UInt8) :
    Option (LdbParseTree × StrictRest s) :=
  if hdepth : depth > maxDepth then none
  else if hopen : byteAt s 0 ≠ 0x28 then none
  else
    match ldbParseFiltercomp maxDepth (depth + 1) s.tail with
    | none => none
    | some (tree, ⟨p, hp⟩) =>
      if hclose : byteAt p 0 ≠ 0x29 then none
      else
        have hs : s ≠ [] := fun h ↦ hopen (by simp [h, byteAt])
        have hp' : p ≠ [] := fun h ↦ hclose (by simp [h, byteAt])
        some (tree, ⟨p.tail.dropWhile isSpace,
          ((length_dropWhile_tail_lt hp' isSpace).trans_le hp).trans (length_tail_lt hs)⟩)
termination_by (maxDepth + 1 - depth, 4 * s.length)
decreasing_by exact Prod.Lex.left _ _ (by omega)

/-- `ldb_parse_filtercomp`: after leading spaces, `&` or `|` starts a list, `!` a
negation, a parenthesis nothing, and anything else a simple filter. -/
def ldbParseFiltercomp (maxDepth depth : Nat) (s : List UInt8) :
    Option (LdbParseTree × Rest s) :=
  let p := s.dropWhile isSpace
  have hp : p.length ≤ s.length := List.length_dropWhile_le _ _
  if byteAt p 0 = 0x26 ∨ byteAt p 0 = 0x7c then
    match ldbParseFilterlist maxDepth depth p with
    | none => none
    | some (tree, ⟨r, hr⟩) => some (tree, ⟨r, hr.trans hp⟩)
  else if byteAt p 0 = 0x21 then
    match ldbParseNot maxDepth depth p with
    | none => none
    | some (tree, ⟨r, hr⟩) => some (tree, ⟨r, hr.trans hp⟩)
  else if byteAt p 0 = 0x28 ∨ byteAt p 0 = 0x29 then none
  else
    match hsimple : ldbParseSimple p with
    | none => none
    | some (tree, r) => some (tree, ⟨r, (ldbParseSimple_rest_length hsimple).le.trans hp⟩)
termination_by (maxDepth + 1 - depth, 4 * s.length + 3)
decreasing_by
  all_goals
    refine Prod.Lex.right _ ?_
    have := List.length_dropWhile_le isSpace s
    omega

/-- `ldb_parse_filterlist`: `&` or `|`, spaces, a first filter, then the loop
over the others. -/
def ldbParseFilterlist (maxDepth depth : Nat) (s : List UInt8) :
    Option (LdbParseTree × Rest s) :=
  let op? : Option LdbParseOp :=
    if byteAt s 0 = 0x26 then some .and else if byteAt s 0 = 0x7c then some .or else none
  match hop : op? with
  | none => none
  | some op =>
    have hs : s ≠ [] := fun h ↦ by simp [op?, h, byteAt] at hop
    let p := s.tail.dropWhile isSpace
    have hp : p.length < s.length := length_dropWhile_tail_lt hs isSpace
    match ldbParseFilter maxDepth depth p with
    | none => none
    | some (first, ⟨r, hr⟩) =>
      match ldbParseFilterlistLoop maxDepth depth (r.dropWhile isSpace) with
      | none => none
      | some (elements, ⟨q, hq⟩) =>
        have hq' : q.length ≤ s.length := by
          have := List.length_dropWhile_le isSpace r
          omega
        some (if op = .and then .and (first :: elements) else .or (first :: elements), ⟨q, hq'⟩)
termination_by (maxDepth + 1 - depth, 4 * s.length + 2)
decreasing_by
  · refine Prod.Lex.right _ ?_
    have := length_dropWhile_tail_lt hs isSpace
    omega
  · refine Prod.Lex.right _ ?_
    have := List.length_dropWhile_le isSpace r
    have := length_dropWhile_tail_lt hs isSpace
    omega

def ldbParseFilterlistLoop (maxDepth depth : Nat) (p : List UInt8) :
    Option (List LdbParseTree × Rest p) :=
  if p = [] ∨ byteAt p 0 = 0x29 then some ([], ⟨p, le_refl _⟩)
  else
    match ldbParseFilter maxDepth depth p with
    | none => none
    | some (next, ⟨r, hr⟩) =>
      match ldbParseFilterlistLoop maxDepth depth (r.dropWhile isSpace) with
      | none => none
      | some (elements, ⟨q, hq⟩) =>
        have hq' : q.length ≤ p.length := by
          have := List.length_dropWhile_le isSpace r
          omega
        some (next :: elements, ⟨q, hq'⟩)
termination_by (maxDepth + 1 - depth, 4 * p.length + 1)
decreasing_by
  · exact Prod.Lex.right _ (by omega)
  · refine Prod.Lex.right _ ?_
    have := List.length_dropWhile_le isSpace r
    omega

/-- `ldb_parse_not`: `!` and a filter. -/
def ldbParseNot (maxDepth depth : Nat) (s : List UInt8) : Option (LdbParseTree × Rest s) :=
  if hnot : byteAt s 0 ≠ 0x21 then none
  else
    have hs : s ≠ [] := fun h ↦ hnot (by simp [h, byteAt])
    match ldbParseFilter maxDepth depth s.tail with
    | none => none
    | some (child, ⟨r, hr⟩) =>
      some (.not child, ⟨r, hr.le.trans (length_tail_lt hs).le⟩)
termination_by (maxDepth + 1 - depth, 4 * s.length + 2)
decreasing_by
  refine Prod.Lex.right _ ?_
  have := length_tail_lt hs
  omega

end

section
attribute [local simp] ldbParseFilter.eq_1 ldbParseFiltercomp.eq_1
end

def ldbMaxParseTreeDepth : Nat := 128

def defaultFilter : List UInt8 :=
  [0x28, 0x7c, 0x28] ++ [0x6f, 0x62, 0x6a, 0x65, 0x63, 0x74, 0x43, 0x6c, 0x61, 0x73, 0x73] ++
    [0x3d, 0x2a, 0x29, 0x28] ++
    [0x64, 0x69, 0x73, 0x74, 0x69, 0x6e, 0x67, 0x75, 0x69, 0x73, 0x68, 0x65, 0x64, 0x4e, 0x61,
      0x6d, 0x65] ++ [0x3d, 0x2a, 0x29, 0x29]

/-- `ldb_parse_tree`: a parenthesised filter, or else a simple one; what follows
it is not looked at. -/
def ldbParseTree (s : List UInt8) : Option LdbParseTree :=
  let s := (cString s).dropWhile isSpace
  let s := if s = [] then defaultFilter else s
  if byteAt s 0 = 0x28 then (ldbParseFilter ldbMaxParseTreeDepth 0 s).map (·.1)
  else (ldbParseSimple s).map (·.1)

def substringChunks (endWithWildcard : Bool) : List LdbVal → List UInt8
  | [] => []
  | [chunk] => ldbBinaryEncode chunk.data ++ (if endWithWildcard then [0x2a] else [])
  | chunk :: chunks => ldbBinaryEncode chunk.data ++ [0x2a] ++ substringChunks endWithWildcard chunks

mutual

/-- `ldb_filter_from_tree`. -/
def ldbFilterFromTree : LdbParseTree → List UInt8
  | .and elements => [0x28, 0x26] ++ ldbFilterFromTreeList elements ++ [0x29]
  | .or elements => [0x28, 0x7c] ++ ldbFilterFromTreeList elements ++ [0x29]
  | .not child => [0x28, 0x21] ++ ldbFilterFromTree child ++ [0x29]
  | .equality attr value =>
    [0x28] ++ bytesOfString attr ++ [0x3d] ++ ldbBinaryEncode value.data ++ [0x29]
  | .substring attr startWithWildcard endWithWildcard chunks =>
    [0x28] ++ bytesOfString attr ++ [0x3d] ++ (if startWithWildcard then [0x2a] else []) ++
      substringChunks endWithWildcard chunks ++ [0x29]
  | .greater attr value =>
    [0x28] ++ bytesOfString attr ++ [0x3e, 0x3d] ++ ldbBinaryEncode value.data ++ [0x29]
  | .less attr value =>
    [0x28] ++ bytesOfString attr ++ [0x3c, 0x3d] ++ ldbBinaryEncode value.data ++ [0x29]
  | .present attr => [0x28] ++ bytesOfString attr ++ [0x3d, 0x2a, 0x29]
  | .approx attr value =>
    [0x28] ++ bytesOfString attr ++ [0x7e, 0x3d] ++ ldbBinaryEncode value.data ++ [0x29]
  | .extended attr dnAttributes ruleId value =>
    [0x28] ++ (attr.map bytesOfString).getD [] ++
      (if dnAttributes then [0x3a, 0x64, 0x6e] else []) ++
      (match ruleId with
        | none => []
        | some ruleId => [0x3a] ++ bytesOfString ruleId) ++
      [0x3a, 0x3d] ++ ldbBinaryEncode value.data ++ [0x29]

def ldbFilterFromTreeList : List LdbParseTree → List UInt8
  | [] => []
  | tree :: trees => ldbFilterFromTree tree ++ ldbFilterFromTreeList trees

end

end Samba.Ldb.Parse
