import Mathlib

namespace Samba.Smbd.CheckPath

inductive PathStatus
  | ok | objectNameInvalid | objectPathSyntaxBad | invalidParameter
  deriving DecidableEq, Repr

def byteAt (s : List UInt8) (i : Nat) : UInt8 := s.getD i 0

/-- `IS_PATH_SEP(c, posix_only)`. -/
def isPathSep (c : UInt8) (posixOnly : Bool) : Bool := c == 0x2f || (!posixOnly && c == 0x5c)

structure PathState where
  d : List UInt8
  startOfNameComponent : Bool
  streamStarted : Bool
  lastComponentContainsWcard : Bool
  posixPath : Bool
  deriving DecidableEq, Repr

inductive PathStep
  | next (st : PathState) (s : List UInt8)
  | done (status : PathStatus) (d : List UInt8)
  deriving DecidableEq, Repr

def lastSeparatorAtOrBelow (d : List UInt8) : Nat → Nat
  | 0 => 0
  | j + 1 => if byteAt d (j + 1) = 0x2f then j + 1 else lastSeparatorAtOrBelow d j

def smbdTmpnamePrefix : List UInt8 := [0x2e, 0x3a, 0x3a, 0x54, 0x4d, 0x50, 0x4e, 0x41, 0x4d, 0x45, 0x3a]

section Loop

-- `smbd_is_tmpname`, which parses a server id after the prefix, and the byte
-- length `next_codepoint` reports for the multibyte character at the head
variable (smbdIsTmpname : List UInt8 → Bool) (nextCodepointSize : List UInt8 → Nat)

/-- `IS_SMBD_TMPNAME(s, NULL)`: the prefix test comes first. -/
def isSmbdTmpname (s : List UInt8) : Bool :=
  byteAt s 0 == 0x2e && byteAt s 1 == 0x3a && smbdTmpnamePrefix.isPrefixOf s && smbdIsTmpname s

def copyCharacter (st : PathState) (s : List UInt8) : PathStep :=
  let c := byteAt s 0
  if c &&& 0x80 = 0 then
    if !st.posixPath && (c ≤ 0x1f || c == 0x7c) then .done .objectNameInvalid st.d else
    let wcard := !st.posixPath && [0x2a, 0x3f, 0x3c, 0x3e, 0x22].contains c
    .next { st with
      d := st.d ++ [c]
      startOfNameComponent := false
      lastComponentContainsWcard := st.lastComponentContainsWcard || wcard } (s.drop 1)
  else
    let chSize := nextCodepointSize s
    if chSize = 0 ∨ 5 < chSize then .done .invalidParameter st.d
    else .next { st with d := st.d ++ s.take chSize, startOfNameComponent := false } (s.drop chSize)

def streamPrologue (st : PathState) (s : List UInt8) : Option PathState :=
  let c := byteAt s 0
  if st.streamStarted && (c == 0x2f || c == 0x5c) then none
  else if st.streamStarted && c == 0x3a && (byteAt s 1 == 0 || (s.drop 1).contains 0x3a) then none
  else if c == 0x3a && !st.posixPath && !st.streamStarted then
    if st.lastComponentContainsWcard || byteAt s 1 == 0 then none
    else some { st with streamStarted := true, startOfNameComponent := false, posixPath := true }
  else some st

def eatSeparators (st : PathState) (s : List UInt8) : PathStep :=
  let s := s.dropWhile (isPathSep · st.posixPath)
  let d := if st.d ≠ [] ∧ s ≠ [] then st.d ++ [0x2f] else st.d
  .next { st with d, startOfNameComponent := true, lastComponentContainsWcard := false } s

def parentComponent (st : PathState) (s : List UInt8) : PathStep :=
  let d := if st.d.getLast? = some 0x2f then st.d.dropLast else st.d
  if d = [] then .done .objectPathSyntaxBad d
  else .next { st with d := d.take (lastSeparatorAtOrBelow d (d.length - 1)) } (s.drop 2)

def nameComponentStart (st : PathState) (s : List UInt8) : PathStep :=
  let c := byteAt s 0
  if c == 0x2e && byteAt s 1 == 0x2e && (isPathSep (byteAt s 2) st.posixPath || byteAt s 2 == 0)
    then parentComponent st s
  else if c == 0x2e && (byteAt s 1 == 0 || isPathSep (byteAt s 1) st.posixPath) then
    if st.posixPath then .next st (s.drop 1) else copyCharacter nextCodepointSize st s
  else if isSmbdTmpname smbdIsTmpname s then .done .objectNameInvalid st.d
  else copyCharacter nextCodepointSize st s

def checkPathStep (st : PathState) (s : List UInt8) : PathStep :=
  match streamPrologue st s with
  | none => .done .objectNameInvalid st.d
  | some st =>
    if !st.streamStarted && isPathSep (byteAt s 0) st.posixPath then eatSeparators st s
    else if st.startOfNameComponent then nameComponentStart smbdIsTmpname nextCodepointSize st s
    else copyCharacter nextCodepointSize st s

def checkPathSyntaxLoop : Nat → PathState → List UInt8 → PathStatus × List UInt8
  | 0, st, _ => (.ok, st.d)
  | fuel + 1, st, s =>
    if s = [] then (.ok, st.d) else
    match checkPathStep smbdIsTmpname nextCodepointSize st s with
    | .next st' s' => checkPathSyntaxLoop fuel st' s'
    | .done status d => (status, d)

/-- `check_path_syntax` on the bytes of `path` before its NUL: the status and the
rewritten path. -/
def checkPathSyntax (path : List UInt8) (posixPath : Bool) : PathStatus × List UInt8 :=
  checkPathSyntaxLoop smbdIsTmpname nextCodepointSize (path.length + 1)
    ⟨[], true, false, false, posixPath⟩ path

-- equation lemmas made once, before the proofs below use them in parallel
attribute [local simp] isPathSep.eq_1 eatSeparators.eq_1
attribute [-simp] isPathSep.eq_1 eatSeparators.eq_1

theorem copyCharacter_next_length {st st' : PathState} {s s' : List UInt8}
    (h : copyCharacter nextCodepointSize st s = .next st' s') (hs : s ≠ []) :
    s'.length < s.length := by
  unfold copyCharacter at h
  dsimp only at h
  have hpos : 0 < s.length := List.length_pos_of_ne_nil hs
  split_ifs at h with hascii hctl hsize <;> cases h
  · simp only [List.length_drop]
    omega
  · simp only [List.length_drop]
    omega

theorem eatSeparators_next_length {st st' : PathState} {s s' : List UInt8}
    (h : eatSeparators st s = .next st' s') (hsep : isPathSep (byteAt s 0) st.posixPath = true)
    (hs : s ≠ []) : s'.length < s.length := by
  obtain ⟨c, rest, rfl⟩ := List.exists_cons_of_ne_nil hs
  simp only [eatSeparators, PathStep.next.injEq] at h
  have hc : isPathSep c st.posixPath = true := hsep
  rw [← h.2]
  simp only [List.dropWhile_cons, hc, if_true, List.length_cons]
  exact Nat.lt_succ_of_le (List.length_dropWhile_le _ _)

theorem nameComponentStart_next_length {st st' : PathState} {s s' : List UInt8}
    (h : nameComponentStart smbdIsTmpname nextCodepointSize st s = .next st' s') (hs : s ≠ []) :
    s'.length < s.length := by
  have hpos : 0 < s.length := List.length_pos_of_ne_nil hs
  unfold nameComponentStart parentComponent at h
  dsimp only at h
  split_ifs at h <;>
    first
    | exact copyCharacter_next_length nextCodepointSize h hs
    | (simp only [PathStep.next.injEq] at h
       simp only [← h.2, List.length_drop]
       omega)

theorem checkPathStep_next_length {st st' : PathState} {s s' : List UInt8}
    (h : checkPathStep smbdIsTmpname nextCodepointSize st s = .next st' s') (hs : s ≠ []) :
    s'.length < s.length := by
  unfold checkPathStep at h
  split at h
  · cases h
  · split_ifs at h with hsep hstart
    · exact eatSeparators_next_length h (Bool.and_eq_true_iff.1 hsep).2 hs
    · exact nameComponentStart_next_length smbdIsTmpname nextCodepointSize h hs
    · exact copyCharacter_next_length nextCodepointSize h hs

theorem checkPathSyntaxLoop_fuel (n m : Nat) (st : PathState) (s : List UInt8)
    (hn : s.length < n) (hm : s.length < m) :
    checkPathSyntaxLoop smbdIsTmpname nextCodepointSize n st s =
      checkPathSyntaxLoop smbdIsTmpname nextCodepointSize m st s := by
  induction n generalizing m st s with
  | zero => omega
  | succ n ih =>
    obtain ⟨m, rfl⟩ : ∃ m', m = m' + 1 := ⟨m - 1, by omega⟩
    simp only [checkPathSyntaxLoop]
    split_ifs with hs
    · rfl
    · split
      · rename_i st' s' hstep
        have hlt := checkPathStep_next_length smbdIsTmpname nextCodepointSize hstep hs
        exact ih m st' s' (by omega) (by omega)
      · rfl

theorem checkPathSyntax_dot_component_slips :
    checkPathSyntax smbdIsTmpname nextCodepointSize [0x61, 0x2f, 0x2e, 0x2f, 0x62] true =
      (.ok, [0x61, 0x2f, 0x2f, 0x62]) ∧
    checkPathSyntax smbdIsTmpname nextCodepointSize [0x61, 0x2f, 0x2e] true = (.ok, [0x61, 0x2f]) ∧
    checkPathSyntax smbdIsTmpname nextCodepointSize [0x2e, 0x2e, 0x3a, 0x78] false =
      (.ok, [0x2e, 0x2e, 0x3a, 0x78]) :=
  ⟨rfl, rfl, rfl⟩

theorem byteAt_drop (s : List UInt8) (n i : Nat) : byteAt (s.drop n) i = byteAt s (n + i) := by
  simp [byteAt, List.getD_eq_getElem?_getD, List.getElem?_drop]

theorem ne_slash_of_isPathSep_eq_false {c : UInt8} {posixOnly : Bool}
    (h : isPathSep c posixOnly = false) : c ≠ 0x2f := by
  rintro rfl
  simp [isPathSep] at h

def lastComponent (d : List UInt8) : List UInt8 := (d.splitOn 0x2f).getLastD []

@[simp] theorem lastComponent_nil : lastComponent [] = [] := rfl

theorem splitOn_append_sep (d : List UInt8) :
    (d ++ [0x2f]).splitOn 0x2f = d.splitOn 0x2f ++ [[]] := by
  rw [List.splitOn_append_cons_self, List.splitOn_nil]

attribute [local simp] lastComponent.eq_1
attribute [-simp] lastComponent.eq_1

theorem splitOn_append_of_not_mem (d : List UInt8) {bs : List UInt8} (h : (0x2f : UInt8) ∉ bs) :
    (d ++ bs).splitOn 0x2f = (d.splitOn 0x2f).dropLast ++ [lastComponent d ++ bs] := by
  induction d with
  | nil => simp [List.splitOn_eq_singleton h]
  | cons x d ih =>
    obtain ⟨L, l, hL⟩ : ∃ L l, d.splitOn 0x2f = L ++ [l] :=
      ⟨_, _, (List.dropLast_append_getLast (List.splitOn_ne_nil _ d)).symm⟩
    rw [lastComponent] at ih ⊢
    rw [List.cons_append, List.splitOn_cons_eq_if_modifyHead, List.splitOn_cons_eq_if_modifyHead, ih,
      hL, List.dropLast_concat, List.getLastD_concat]
    split_ifs
    · simp only [← List.cons_append, List.dropLast_concat, List.getLastD_concat]
    · cases L with
      | nil => rfl
      | cons m L =>
        simp only [List.cons_append, List.modifyHead_cons]
        rw [← @List.cons_append _ (x :: m) L [l], List.dropLast_concat, List.getLastD_concat]
        rfl

theorem splitOn_eq_dropLast_append (d : List UInt8) :
    d.splitOn 0x2f = (d.splitOn 0x2f).dropLast ++ [lastComponent d] := by
  simpa using splitOn_append_of_not_mem d (List.not_mem_nil : (0x2f : UInt8) ∉ [])

theorem mem_splitOn_iff {d x : List UInt8} :
    x ∈ d.splitOn 0x2f ↔ x ∈ (d.splitOn 0x2f).dropLast ∨ x = lastComponent d := by
  conv_lhs => rw [splitOn_eq_dropLast_append]
  simp

theorem lastComponent_mem (d : List UInt8) : lastComponent d ∈ d.splitOn 0x2f :=
  mem_splitOn_iff.2 (Or.inr rfl)

@[simp] theorem lastComponent_append_sep (d : List UInt8) : lastComponent (d ++ [0x2f]) = [] := by
  simp [lastComponent, splitOn_append_sep]

theorem lastComponent_append {d bs : List UInt8} (h : (0x2f : UInt8) ∉ bs) :
    lastComponent (d ++ bs) = lastComponent d ++ bs := by
  simp [lastComponent.eq_1 (d ++ bs), splitOn_append_of_not_mem d h]

theorem dropLast_splitOn_append {d bs : List UInt8} (h : (0x2f : UInt8) ∉ bs) :
    ((d ++ bs).splitOn 0x2f).dropLast = (d.splitOn 0x2f).dropLast := by
  rw [splitOn_append_of_not_mem d h, List.dropLast_concat]

theorem eq_append_sep_of_lastComponent {d : List UInt8} (hd : d ≠ []) (h : lastComponent d = []) :
    d = d.dropLast ++ [0x2f] := by
  obtain ⟨d', x, rfl⟩ : ∃ d' x, d = d' ++ [x] := ⟨_, _, (List.dropLast_append_getLast hd).symm⟩
  by_cases hx : x = 0x2f
  · rw [hx, List.dropLast_concat]
  · rw [lastComponent_append (by simpa [eq_comm] using hx)] at h
    simp at h

theorem lastSeparatorAtOrBelow_spec (d : List UInt8) (j : Nat) :
    lastSeparatorAtOrBelow d j = 0 ∨
      (lastSeparatorAtOrBelow d j ≤ j ∧ byteAt d (lastSeparatorAtOrBelow d j) = 0x2f) := by
  induction j with
  | zero => exact Or.inl rfl
  | succ j ih =>
    rw [lastSeparatorAtOrBelow]
    split_ifs with h
    · exact Or.inr ⟨Nat.le_refl _, h⟩
    · rcases ih with h0 | ⟨hle, hsep⟩
      · exact Or.inl h0
      · exact Or.inr ⟨Nat.le_succ_of_le hle, hsep⟩

theorem mem_splitOn_take_lastSeparator {d x : List UInt8} {j : Nat} (hj : j < d.length)
    (hx : x ∈ (d.take (lastSeparatorAtOrBelow d j)).splitOn 0x2f) :
    x = [] ∨ x ∈ d.splitOn 0x2f := by
  rcases lastSeparatorAtOrBelow_spec d j with h0 | ⟨hle, hsep⟩
  · rw [h0] at hx
    simp at hx
    exact Or.inl hx
  · set k := lastSeparatorAtOrBelow d j
    have hk : k < d.length := by omega
    have hdk : d[k] = 0x2f := by simpa [byteAt, List.getD_eq_getElem?_getD, hk] using hsep
    have hd : d = d.take k ++ 0x2f :: d.drop (k + 1) := by
      rw [← hdk, ← List.drop_eq_getElem_cons hk, List.take_append_drop]
    right
    rw [hd, List.splitOn_append_cons_self]
    exact List.mem_append_left _ hx

structure NoParentInv (st : PathState) (s : List UInt8) : Prop where
  final : [0x2e, 0x2e] ∉ (st.d.splitOn 0x2f).dropLast
  last_continues : lastComponent st.d = [0x2e, 0x2e] →
    isPathSep (byteAt s 0) st.posixPath = false ∧ byteAt s 0 ≠ 0
  dot_continues : lastComponent st.d = [0x2e] → st.startOfNameComponent = false →
    ¬(byteAt s 0 = 0x2e ∧ (isPathSep (byteAt s 1) st.posixPath = true ∨ byteAt s 1 = 0))
  start_fresh : st.startOfNameComponent = true →
    lastComponent st.d = [] ∨ isPathSep (byteAt s 0) st.posixPath = true ∨ byteAt s 0 = 0
  empty_no_dot : st.startOfNameComponent = false → lastComponent st.d = [] → byteAt s 0 ≠ 0x2e

theorem NoParentInv.not_mem_of_end {st : PathState} {s : List UInt8} (hinv : NoParentInv st s)
    (hend : byteAt s 0 = 0) : [0x2e, 0x2e] ∉ st.d.splitOn 0x2f := by
  rw [mem_splitOn_iff, not_or]
  exact ⟨hinv.final, fun h ↦ (hinv.last_continues h.symm).2 hend⟩

theorem noParentInv_init (posixPath : Bool) (s : List UInt8) :
    NoParentInv ⟨[], true, false, false, posixPath⟩ s where
  final := by simp
  last_continues h := by simp at h
  dot_continues h := by simp at h
  start_fresh _ := Or.inl rfl
  empty_no_dot h := by simp at h

theorem streamPrologue_noParentInv {st st₁ : PathState} {s : List UInt8} (hinv : NoParentInv st s)
    (h : streamPrologue st s = some st₁) : NoParentInv st₁ s := by
  unfold streamPrologue at h
  dsimp only at h
  split_ifs at h with h1 h2 h3 h4 <;> cases h
  · have hc : byteAt s 0 = 0x3a := by
      simp at h3
      exact h3.1.1
    refine ⟨hinv.final, fun _ ↦ ?_, fun _ _ ↦ ?_, fun h ↦ (by cases h), fun _ _ ↦ ?_⟩ <;>
      simp [hc, isPathSep]
  · exact hinv

theorem streamPrologue_isPathSep {st st₁ : PathState} {s : List UInt8}
    (h : streamPrologue st s = some st₁)
    (hsep : ¬(!st₁.streamStarted && isPathSep (byteAt s 0) st₁.posixPath) = true) :
    isPathSep (byteAt s 0) st₁.posixPath = false := by
  unfold streamPrologue at h
  dsimp only at h
  split_ifs at h with h1 h2 h3 h4 <;> cases h
  · have hc : byteAt s 0 = 0x3a := by
      simp at h3
      exact h3.1.1
    simp [hc, isPathSep]
  · cases hstream : st.streamStarted
    · simpa [hstream] using hsep
    · simp only [hstream, Bool.true_and, Bool.or_eq_true, beq_iff_eq, not_or] at h1
      simp [isPathSep, h1.1, h1.2]

theorem eatSeparators_noParentInv {st st' : PathState} {s s' : List UInt8} (hinv : NoParentInv st s)
    (hsep : isPathSep (byteAt s 0) st.posixPath = true) (h : eatSeparators st s = .next st' s') :
    NoParentInv st' s' := by
  have hlast : lastComponent st.d ≠ [0x2e, 0x2e] := by
    intro hl
    rw [(hinv.last_continues hl).1] at hsep
    cases hsep
  simp only [eatSeparators, PathStep.next.injEq] at h
  obtain ⟨rfl, rfl⟩ := h
  split_ifs with hd
  · refine ⟨?_, ?_, fun _ h ↦ (by cases h), fun _ ↦ Or.inl (lastComponent_append_sep _), fun h ↦ (by cases h)⟩
    · rw [splitOn_append_sep, List.dropLast_concat, mem_splitOn_iff, not_or]
      exact ⟨hinv.final, Ne.symm hlast⟩
    · simp
  · refine ⟨hinv.final, fun h ↦ absurd h hlast, fun _ h ↦ (by cases h), fun _ ↦ ?_, fun h ↦ (by cases h)⟩
    rw [not_and_or, not_not, not_not] at hd
    rcases hd with hd | hd
    · left
      rw [hd, lastComponent_nil]
    · right
      right
      rw [hd]
      rfl

theorem parentComponent_noParentInv {st st' : PathState} {s s' : List UInt8}
    (hfinal : [0x2e, 0x2e] ∉ (st.d.splitOn 0x2f).dropLast) (hlc : lastComponent st.d = [])
    (hstart : st.startOfNameComponent = true)
    (hs2 : isPathSep (byteAt s 2) st.posixPath = true ∨ byteAt s 2 = 0)
    (h : parentComponent st s = .next st' s') : NoParentInv st' s' := by
  unfold parentComponent at h
  by_cases hd : st.d = []
  · simp [hd] at h
  have hsplit := eq_append_sep_of_lastComponent hd hlc
  have hlastSep : st.d.getLast? = some 0x2f := by
    rw [hsplit]
    simp
  have hfinal' : [0x2e, 0x2e] ∉ st.d.dropLast.splitOn 0x2f := by
    rwa [hsplit, splitOn_append_sep, List.dropLast_concat] at hfinal
  simp only [hlastSep, if_true] at h
  split_ifs at h with hnil
  cases h
  have hj : st.d.dropLast.length - 1 < st.d.dropLast.length :=
    Nat.sub_lt (List.length_pos_of_ne_nil hnil) Nat.one_pos
  have hkeep : ∀ x ∈ (st.d.dropLast.take (lastSeparatorAtOrBelow st.d.dropLast
      (st.d.dropLast.length - 1))).splitOn 0x2f, x ≠ [0x2e, 0x2e] := by
    intro x hx
    rcases mem_splitOn_take_lastSeparator hj hx with rfl | hmem
    · simp
    · rintro rfl
      exact hfinal' hmem
  refine ⟨fun hm ↦ hkeep _ (List.dropLast_subset _ hm) rfl,
    fun h ↦ absurd h (hkeep _ (lastComponent_mem _)), fun _ h ↦ (nomatch hstart.symm.trans h),
    fun _ ↦ ?_, fun h ↦ (nomatch hstart.symm.trans h)⟩
  simpa [byteAt_drop] using Or.inr hs2

section Steps

-- `'/'` is not part of any multibyte character, as the source assumes
variable (hmb : ∀ s : List UInt8, byteAt s 0 &&& 0x80 ≠ 0 → (0x2f : UInt8) ∉ s.take (nextCodepointSize s))
include hmb

theorem copyCharacter_noParentInv {st st' : PathState} {s s' : List UInt8}
    (hc : byteAt s 0 ≠ 0x2f) (hfinal : [0x2e, 0x2e] ∉ (st.d.splitOn 0x2f).dropLast)
    (hdotdot : lastComponent st.d = [0x2e] → byteAt s 0 = 0x2e →
      isPathSep (byteAt s 1) st.posixPath = false ∧ byteAt s 1 ≠ 0)
    (hdot : lastComponent st.d = [] → byteAt s 0 = 0x2e →
      ¬(byteAt s 1 = 0x2e ∧ (isPathSep (byteAt s 2) st.posixPath = true ∨ byteAt s 2 = 0)))
    (h : copyCharacter nextCodepointSize st s = .next st' s') : NoParentInv st' s' := by
  unfold copyCharacter at h
  dsimp only at h
  split_ifs at h with hascii hctl hsize <;> cases h
  · have hcs : (0x2f : UInt8) ∉ [byteAt s 0] := by simpa [eq_comm] using hc
    refine ⟨?_, ?_, ?_, ?_, ?_⟩ <;> dsimp only
    · rwa [dropLast_splitOn_append hcs]
    · simp only [lastComponent_append hcs, byteAt_drop]
      intro h
      obtain ⟨h1, h2⟩ := List.append_inj' (h.trans rfl : lastComponent st.d ++ [byteAt s 0] = [0x2e] ++ [0x2e]) rfl
      exact hdotdot h1 (List.singleton_inj.1 h2)
    · simp only [lastComponent_append hcs, byteAt_drop]
      intro h _
      obtain ⟨h1, h2⟩ := List.append_inj' (h.trans rfl : lastComponent st.d ++ [byteAt s 0] = [] ++ [0x2e]) rfl
      exact hdot h1 (List.singleton_inj.1 h2)
    · intro h
      cases h
    · rw [lastComponent_append hcs]
      intro _ h
      simp at h
  · have hs : s ≠ [] := by
      rintro rfl
      exact hascii rfl
    have hlead : byteAt s 0 ∈ s.take (nextCodepointSize s) := by
      obtain ⟨c, t, rfl⟩ := List.exists_cons_of_ne_nil hs
      obtain ⟨n, hn⟩ : ∃ n, nextCodepointSize (c :: t) = n + 1 :=
        ⟨nextCodepointSize (c :: t) - 1, by omega⟩
      simp [hn, byteAt]
    have hdot' : byteAt s 0 ≠ 0x2e := by
      intro h
      rw [h] at hascii
      exact hascii rfl
    have hmem : byteAt s 0 ∈ lastComponent st.d ++ s.take (nextCodepointSize s) :=
      List.mem_append_right _ hlead
    have hns := hmb s hascii
    refine ⟨?_, ?_, ?_, ?_, ?_⟩ <;> dsimp only <;> try rw [lastComponent_append hns]
    · rwa [dropLast_splitOn_append hns]
    · intro h
      rw [h] at hmem
      simp [hdot'] at hmem
    · intro h _
      rw [h] at hmem
      simp [hdot'] at hmem
    · intro h
      cases h
    · intro _ h
      rw [h] at hmem
      simp at hmem

theorem nameComponentStart_noParentInv {st st' : PathState} {s s' : List UInt8}
    (hinv : NoParentInv st s) (hstart : st.startOfNameComponent = true)
    (hc : isPathSep (byteAt s 0) st.posixPath = false)
    (h : nameComponentStart smbdIsTmpname nextCodepointSize st s = .next st' s') :
    NoParentInv st' s' := by
  have hempty : byteAt s 0 = 0x2e → lastComponent st.d = [] := by
    intro hdot
    rcases hinv.start_fresh hstart with hlc | hsep | hend
    · exact hlc
    · rw [hc] at hsep
      cases hsep
    · rw [hdot] at hend
      cases hend
  have hslash : byteAt s 0 ≠ 0x2f := ne_slash_of_isPathSep_eq_false hc
  unfold nameComponentStart at h
  dsimp only at h
  split_ifs at h with hparent hdot hposix
  · simp only [Bool.and_eq_true, beq_iff_eq, Bool.or_eq_true] at hparent
    exact parentComponent_noParentInv hinv.final (hempty hparent.1.1) hstart hparent.2 h
  · simp only [Bool.and_eq_true, beq_iff_eq, Bool.or_eq_true] at hdot
    cases h
    have hlc := hempty hdot.1
    refine ⟨hinv.final, fun h ↦ ?_, fun h ↦ ?_, fun _ ↦ Or.inl hlc, fun h ↦ (nomatch hstart.symm.trans h)⟩ <;>
      simp [hlc] at h
  · simp only [Bool.and_eq_true, beq_iff_eq, Bool.or_eq_true] at hdot
    refine copyCharacter_noParentInv nextCodepointSize hmb hslash hinv.final
      (fun hlc hd ↦ by simp [hempty hd] at hlc) (fun _ _ ⟨hd1, _⟩ ↦ ?_) h
    rcases hdot.2 with h0 | hsep
    · rw [hd1] at h0
      cases h0
    · rw [hd1] at hsep
      simp [isPathSep] at hsep
  · simp only [Bool.and_eq_true, beq_iff_eq, Bool.or_eq_true, not_and] at hparent
    exact copyCharacter_noParentInv nextCodepointSize hmb hslash hinv.final
      (fun hlc hd ↦ by simp [hempty hd] at hlc) (fun _ hd ⟨hd1, hd2⟩ ↦ hparent ⟨hd, hd1⟩ hd2) h

theorem checkPathStep_noParentInv {st st' : PathState} {s s' : List UInt8}
    (hinv : NoParentInv st s)
    (h : checkPathStep smbdIsTmpname nextCodepointSize st s = .next st' s') : NoParentInv st' s' := by
  unfold checkPathStep at h
  split at h
  · cases h
  · rename_i st₁ hpro
    have hinv₁ := streamPrologue_noParentInv hinv hpro
    split_ifs at h with hsep hstart
    · exact eatSeparators_noParentInv hinv₁ (Bool.and_eq_true_iff.1 hsep).2 h
    · exact nameComponentStart_noParentInv smbdIsTmpname nextCodepointSize hmb hinv₁ hstart
        (streamPrologue_isPathSep hpro hsep) h
    · have hc := streamPrologue_isPathSep hpro hsep
      have hstart' : st₁.startOfNameComponent = false := by simpa using hstart
      refine copyCharacter_noParentInv nextCodepointSize hmb (ne_slash_of_isPathSep_eq_false hc)
        hinv₁.final (fun hlc hd ↦ ?_) (fun hlc hd ↦ absurd hd (hinv₁.empty_no_dot hstart' hlc)) h
      have hnot := hinv₁.dot_continues hlc hstart'
      rw [not_and, not_or] at hnot
      obtain ⟨hsep1, hend1⟩ := hnot hd
      exact ⟨by simpa using hsep1, hend1⟩

end Steps

theorem copyCharacter_done_ne_ok {st : PathState} {s d : List UInt8} {status : PathStatus}
    (h : copyCharacter nextCodepointSize st s = .done status d) : status ≠ .ok := by
  unfold copyCharacter at h
  dsimp only at h
  split_ifs at h <;> cases h <;> decide

theorem checkPathStep_done_ne_ok {st : PathState} {s d : List UInt8} {status : PathStatus}
    (h : checkPathStep smbdIsTmpname nextCodepointSize st s = .done status d) : status ≠ .ok := by
  unfold checkPathStep at h
  split at h
  · cases h
    decide
  · split_ifs at h
    · cases h
    · unfold nameComponentStart parentComponent at h
      dsimp only at h
      split_ifs at h <;> first | cases h; decide | exact copyCharacter_done_ne_ok nextCodepointSize h
    · exact copyCharacter_done_ne_ok nextCodepointSize h

theorem checkPathSyntaxLoop_noParent
    (hmb : ∀ s : List UInt8, byteAt s 0 &&& 0x80 ≠ 0 → (0x2f : UInt8) ∉ s.take (nextCodepointSize s))
    (fuel : Nat) (st : PathState) (s : List UInt8) (hlen : s.length < fuel) (hinv : NoParentInv st s)
    (hok : (checkPathSyntaxLoop smbdIsTmpname nextCodepointSize fuel st s).1 = .ok) :
    [0x2e, 0x2e] ∉ (checkPathSyntaxLoop smbdIsTmpname nextCodepointSize fuel st s).2.splitOn 0x2f := by
  induction fuel generalizing st s with
  | zero => omega
  | succ fuel ih =>
    rw [checkPathSyntaxLoop] at hok ⊢
    split_ifs at hok ⊢ with hs
    · exact hinv.not_mem_of_end (by rw [hs]; rfl)
    · rcases hstep : checkPathStep smbdIsTmpname nextCodepointSize st s with ⟨st', s'⟩ | ⟨status, d⟩
      · rw [hstep] at hok
        have hlt := checkPathStep_next_length smbdIsTmpname nextCodepointSize hstep hs
        exact ih st' s' (by omega) (checkPathStep_noParentInv smbdIsTmpname nextCodepointSize hmb hinv hstep) hok
      · rw [hstep] at hok
        exact absurd hok (checkPathStep_done_ne_ok smbdIsTmpname nextCodepointSize hstep)

theorem checkPathSyntax_no_parent_component
    (hmb : ∀ s : List UInt8, byteAt s 0 &&& 0x80 ≠ 0 → (0x2f : UInt8) ∉ s.take (nextCodepointSize s))
    (path : List UInt8) (posixPath : Bool)
    (hok : (checkPathSyntax smbdIsTmpname nextCodepointSize path posixPath).1 = .ok) :
    [0x2e, 0x2e] ∉ (checkPathSyntax smbdIsTmpname nextCodepointSize path posixPath).2.splitOn 0x2f :=
  checkPathSyntaxLoop_noParent smbdIsTmpname nextCodepointSize hmb _ _ path (Nat.lt_succ_self _)
    (noParentInv_init posixPath path) hok

end Loop

theorem checkPathSyntax_no_parent_component_backslashes :
    (∀ s : List UInt8, byteAt s 0 &&& 0x80 ≠ 0 → (0x2f : UInt8) ∉ s.take 1) ∧
    checkPathSyntax (fun _ ↦ false) (fun _ ↦ 1) [0x61, 0x5c, 0x62, 0x5c, 0x2e, 0x2e, 0x5c, 0x63] false =
      (.ok, [0x61, 0x2f, 0x63]) ∧
    [0x2e, 0x2e] ∉ (checkPathSyntax (fun _ ↦ false) (fun _ ↦ 1)
      [0x61, 0x5c, 0x62, 0x5c, 0x2e, 0x2e, 0x5c, 0x63] false).2.splitOn 0x2f := by
  have hmb : ∀ s : List UInt8, byteAt s 0 &&& 0x80 ≠ 0 → (0x2f : UInt8) ∉ s.take 1 := by
    intro s hs
    cases s with
    | nil => exact absurd rfl hs
    | cons c t =>
      simp only [List.take_succ_cons, List.take_zero, List.mem_singleton]
      rintro rfl
      exact hs (show (0x2f : UInt8) &&& 0x80 = 0 by decide)
  exact ⟨hmb, rfl, checkPathSyntax_no_parent_component (fun _ ↦ false) (fun _ ↦ 1) hmb _ false rfl⟩

end Samba.Smbd.CheckPath
