import Mathlib

namespace Samba.Lib.PrefixCode

structure Node where
  depth : Nat
  offset : Nat
  deriving DecidableEq, Repr

namespace Node

def index (n : Node) : Nat := 2 ^ n.depth - 1 + n.offset

def Valid (n : Node) : Prop := n.offset < 2 ^ n.depth

def root : Node := ⟨0, 0⟩

def child (n : Node) (b : Nat) : Node := ⟨n.depth + 1, 2 * n.offset + b⟩

def parent (n : Node) : Node := ⟨n.depth - 1, n.offset / 2⟩

def IsPrefix (a c : Node) : Prop :=
  a.depth < c.depth ∧ c.offset / 2 ^ (c.depth - a.depth) = a.offset

instance (a c : Node) : Decidable (a.IsPrefix c) := inferInstanceAs (Decidable (_ ∧ _))

def lo (D : Nat) (n : Node) : Nat := n.offset * 2 ^ (D - n.depth)

def hi (D : Nat) (n : Node) : Nat := (n.offset + 1) * 2 ^ (D - n.depth)

def startingAt (D len K : Nat) : Node := ⟨len, K / 2 ^ (D - len)⟩

-- equation lemmas made once, before the proofs below use them in parallel
attribute [local simp] index.eq_1 child.eq_1 parent.eq_1 lo.eq_1 hi.eq_1 startingAt.eq_1
attribute [-simp] index.eq_1 child.eq_1 parent.eq_1 lo.eq_1 hi.eq_1 startingAt.eq_1

theorem index_add_one (n : Node) : n.index + 1 = 2 ^ n.depth + n.offset := by
  have := Nat.one_le_two_pow (n := n.depth)
  unfold index
  omega

@[simp] theorem index_root : root.index = 0 := rfl

theorem index_child (n : Node) (b : Nat) : (n.child b).index = 2 * n.index + 1 + b := by
  have := Nat.one_le_two_pow (n := n.depth)
  simp only [index, child, Nat.pow_succ]
  omega

theorem index_parent {n : Node} (h : 0 < n.depth) : (n.index - 1) / 2 = n.parent.index := by
  obtain ⟨d, offset⟩ := n
  obtain ⟨d, rfl⟩ : ∃ e, d = e + 1 := ⟨d - 1, by simp only at h; omega⟩
  have := Nat.one_le_two_pow (n := d)
  simp only [index, parent, Nat.pow_succ, Nat.add_sub_cancel]
  omega

theorem index_leftmost (n : Node) (m : Nat) :
    (⟨n.depth + m, n.offset * 2 ^ m⟩ : Node).index + 1 = 2 ^ m * (n.index + 1) := by
  rw [index_add_one, index_add_one]
  simp only [Nat.pow_add, Nat.mul_add, Nat.mul_comm]

theorem Valid.index_lt {n : Node} (h : n.Valid) : n.index + 1 < 2 ^ (n.depth + 1) := by
  rw [index_add_one, Nat.pow_succ]
  unfold Valid at h
  omega

theorem index_inj {a c : Node} (ha : a.Valid) (hc : c.Valid) (h : a.index = c.index) : a = c := by
  have hdepth : a.depth = c.depth := by
    have hac := index_add_one a
    have hcc := index_add_one c
    rcases Nat.lt_trichotomy a.depth c.depth with hlt | heq | hgt
    · have : 2 ^ (a.depth + 1) ≤ 2 ^ c.depth := Nat.pow_le_pow_right Nat.zero_lt_two hlt
      have := ha.index_lt
      omega
    · exact heq
    · have : 2 ^ (c.depth + 1) ≤ 2 ^ a.depth := Nat.pow_le_pow_right Nat.zero_lt_two hgt
      have := hc.index_lt
      omega
  have hoffset : a.offset = c.offset := by
    have hac := index_add_one a
    have hcc := index_add_one c
    rw [hdepth] at hac
    omega
  cases a
  cases c
  simp only at hdepth hoffset
  rw [hdepth, hoffset]

theorem isPrefix_iff_parent {a c : Node} (h : 0 < c.depth) :
    a.IsPrefix c ↔ a = c.parent ∨ a.IsPrefix c.parent := by
  obtain ⟨e, q⟩ := c
  obtain ⟨e, rfl⟩ : ∃ e', e = e' + 1 := ⟨e - 1, by simp only at h; omega⟩
  obtain ⟨d, p⟩ := a
  simp only [IsPrefix, parent, Nat.add_sub_cancel, Node.mk.injEq]
  constructor
  · rintro ⟨hd, hq⟩
    rcases Nat.lt_or_ge d e with hlt | hge
    · right
      refine ⟨hlt, ?_⟩
      rw [Nat.div_div_eq_div_mul, ← Nat.pow_succ', ← hq]
      congr 2
      omega
    · left
      have hde : d = e := by omega
      subst hde
      rw [show d + 1 - d = 1 by omega, Nat.pow_one] at hq
      exact ⟨rfl, hq.symm⟩
  · rintro (⟨rfl, rfl⟩ | ⟨hlt, hq⟩)
    · refine ⟨Nat.lt_succ_self _, ?_⟩
      rw [show d + 1 - d = 1 by omega, Nat.pow_one]
    · refine ⟨Nat.lt_succ_of_lt hlt, ?_⟩
      rw [← hq, Nat.div_div_eq_div_mul, ← Nat.pow_succ']
      congr 2
      omega

theorem parent_child (n : Node) {b : Nat} (hb : b < 2) : (n.child b).parent = n := by
  simp only [parent, child, Nat.add_sub_cancel]
  congr 1
  omega

theorem isPrefix_child_iff {a x : Node} {b : Nat} (hb : b < 2) :
    x.IsPrefix (a.child b) ↔ x = a ∨ x.IsPrefix a := by
  rw [isPrefix_iff_parent (Nat.succ_pos _), parent_child a hb]

theorem IsPrefix.trans {a b c : Node} (hab : a.IsPrefix b) (hbc : b.IsPrefix c) : a.IsPrefix c := by
  refine ⟨Nat.lt_trans hab.1 hbc.1, ?_⟩
  have hsplit : c.depth - a.depth = (c.depth - b.depth) + (b.depth - a.depth) := by
    have := hab.1
    have := hbc.1
    omega
  rw [hsplit, Nat.pow_add, ← Nat.div_div_eq_div_mul, hbc.2, hab.2]

theorem IsPrefix.valid {a c : Node} (h : a.IsPrefix c) (hc : c.Valid) : a.Valid := by
  unfold Valid
  rw [← h.2, Nat.div_lt_iff_lt_mul (Nat.two_pow_pos _), ← Nat.pow_add]
  rw [show a.depth + (c.depth - a.depth) = c.depth by have := h.1; omega]
  exact hc

theorem IsPrefix.index_lt {a c : Node} (h : a.IsPrefix c) : a.index < c.index := by
  have hpow : 2 ^ a.depth < 2 ^ c.depth := Nat.pow_lt_pow_right Nat.one_lt_two h.1
  have hoff : a.offset ≤ c.offset := h.2 ▸ Nat.div_le_self _ _
  have ha := index_add_one a
  have hc := index_add_one c
  omega

theorem root_isPrefix {c : Node} (hc : c.Valid) (h : 0 < c.depth) : root.IsPrefix c :=
  ⟨h, by simpa [root] using Nat.div_eq_of_lt hc⟩

theorem lo_lt_hi (D : Nat) (n : Node) : n.lo D < n.hi D :=
  Nat.mul_lt_mul_of_pos_right (Nat.lt_succ_self _) (Nat.two_pow_pos _)

theorem div_eq_iff_lo {D : Nat} {a c : Node} (hac : a.depth ≤ c.depth) (hcD : c.depth ≤ D) :
    c.offset / 2 ^ (c.depth - a.depth) = a.offset ↔ a.lo D ≤ c.lo D ∧ c.lo D < a.hi D := by
  obtain ⟨k, hk⟩ : ∃ k, c.depth - a.depth = k := ⟨_, rfl⟩
  obtain ⟨m, hm⟩ : ∃ m, D - c.depth = m := ⟨_, rfl⟩
  have hD : D - a.depth = k + m := by omega
  simp only [lo, hi, hk, hm, hD, Nat.pow_add, ← Nat.mul_assoc]
  rw [Nat.mul_le_mul_right_iff (Nat.two_pow_pos m), Nat.mul_lt_mul_right (Nat.two_pow_pos m),
    ← Nat.le_div_iff_mul_le (Nat.two_pow_pos k), ← Nat.div_lt_iff_lt_mul (Nat.two_pow_pos k)]
  omega

theorem lo_eq_of_lo_mem {D : Nat} {u c : Node} (huc : u.depth ≤ c.depth) (hcD : c.depth ≤ D)
    (h1 : c.lo D ≤ u.lo D) (h2 : u.lo D < c.hi D) : c.lo D = u.lo D := by
  obtain ⟨k, hk⟩ : ∃ k, c.depth - u.depth = k := ⟨_, rfl⟩
  obtain ⟨m, hm⟩ : ∃ m, D - c.depth = m := ⟨_, rfl⟩
  have hD : D - u.depth = k + m := by omega
  simp only [lo, hi, hm, hD, Nat.pow_add, ← Nat.mul_assoc] at h1 h2 ⊢
  have hle := Nat.le_of_mul_le_mul_right h1 (Nat.two_pow_pos m)
  have hlt := Nat.lt_of_mul_lt_mul_right h2
  rw [show c.offset = u.offset * 2 ^ k by omega]

theorem lo_startingAt {D len K : Nat} (h : 2 ^ (D - len) ∣ K) : (startingAt D len K).lo D = K :=
  Nat.div_mul_cancel h

theorem hi_startingAt {D len K : Nat} (h : 2 ^ (D - len) ∣ K) :
    (startingAt D len K).hi D = K + 2 ^ (D - len) := by
  simp only [hi, startingAt, Nat.add_mul, Nat.one_mul, Nat.div_mul_cancel h]

theorem index_startingAt_add {D d m K : Nat} (h : 2 ^ (D - d) ∣ K) (hm : d + m ≤ D) :
    (startingAt D (d + m) K).index + 1 = 2 ^ m * ((startingAt D d K).index + 1) := by
  obtain ⟨q, rfl⟩ := h
  have hsplit : 2 ^ (D - d) = 2 ^ (D - (d + m)) * 2 ^ m := by
    rw [← Nat.pow_add]
    congr 1
    omega
  have hdeep : startingAt D (d + m) (2 ^ (D - d) * q) = ⟨d + m, q * 2 ^ m⟩ := by
    simp only [startingAt, Node.mk.injEq, true_and]
    rw [hsplit, Nat.mul_assoc, Nat.mul_div_cancel_left _ (Nat.two_pow_pos _), Nat.mul_comm]
  have hshallow : startingAt D d (2 ^ (D - d) * q) = ⟨d, q⟩ := by
    simp only [startingAt, Node.mk.injEq, true_and]
    exact Nat.mul_div_cancel_left _ (Nat.two_pow_pos _)
  rw [hdeep, hshallow]
  exact index_leftmost ⟨d, q⟩ m

theorem index_startingAt_next (D d K : Nat) :
    (startingAt D d (K + 2 ^ (D - d))).index = (startingAt D d K).index + 1 := by
  simp only [startingAt, index]
  rw [Nat.add_div_right _ (Nat.two_pow_pos _)]
  have := Nat.one_le_two_pow (n := d)
  omega

end Node

open Node

inductive Tiles (D : Nat) : List Node → Nat → Nat → Prop
  | nil (s : Nat) : Tiles D [] s s
  | cons {c : Node} {cs : List Node} {t : Nat} (hc : c.depth ≤ D) (h : Tiles D cs (c.hi D) t) :
      Tiles D (c :: cs) (c.lo D) t

namespace Tiles

variable {D : Nat} {cs : List Node} {s t : Nat}

theorem bounds (h : Tiles D cs s t) :
    s ≤ t ∧ ∀ c ∈ cs, s ≤ c.lo D ∧ c.hi D ≤ t ∧ c.depth ≤ D := by
  induction h with
  | nil s => exact ⟨Nat.le_refl s, fun c hc ↦ absurd hc List.not_mem_nil⟩
  | @cons c cs t hc h ih =>
    have hlt := lo_lt_hi D c
    refine ⟨by omega, fun c' hc' ↦ ?_⟩
    rcases List.mem_cons.1 hc' with rfl | hc'
    · exact ⟨Nat.le_refl _, ih.1, hc⟩
    · obtain ⟨h1, h2, h3⟩ := ih.2 c' hc'
      exact ⟨by omega, h2, h3⟩

theorem append_single (h : Tiles D cs s t) {c : Node} (hc : c.depth ≤ D) (hct : c.lo D = t) :
    Tiles D (cs ++ [c]) s (c.hi D) := by
  induction h with
  | nil s =>
    rw [← hct]
    exact cons hc (nil _)
  | cons hc' _ ih => exact cons hc' (ih hct)

theorem exists_mem (h : Tiles D cs s t) {x : Nat} (hs : s ≤ x) (ht : x < t) :
    ∃ c ∈ cs, c.lo D ≤ x ∧ x < c.hi D := by
  induction h with
  | nil s => omega
  | @cons c cs t hc h ih =>
    by_cases hx : x < c.hi D
    · exact ⟨c, List.mem_cons_self, hs, hx⟩
    · obtain ⟨c', hc', h'⟩ := ih (by omega) ht
      exact ⟨c', List.mem_cons_of_mem _ hc', h'⟩

theorem pairwise (h : Tiles D cs s t) : cs.Pairwise fun a c ↦ a.hi D ≤ c.lo D := by
  induction h with
  | nil => exact List.Pairwise.nil
  | cons _ h ih => exact List.Pairwise.cons (fun c' hc' ↦ (h.bounds.2 c' hc').1) ih

theorem disjoint (h : Tiles D cs s t) {a c : Node} (ha : a ∈ cs) (hc : c ∈ cs) (hne : a ≠ c) :
    a.hi D ≤ c.lo D ∨ c.hi D ≤ a.lo D := by
  have hpw : cs.Pairwise fun x y : Node ↦ x.hi D ≤ y.lo D ∨ y.hi D ≤ x.lo D := h.pairwise.imp Or.inl
  have : Std.Symm fun x y : Node ↦ x.hi D ≤ y.lo D ∨ y.hi D ≤ x.lo D := ⟨fun _ _ h ↦ h.symm⟩
  exact hpw.forall ha hc hne

theorem ne_last {c n : Node} (h : Tiles D (cs ++ [n]) s t) (hc : c ∈ cs) : c ≠ n := by
  rintro rfl
  have hle := (List.pairwise_append.1 h.pairwise).2.2 c hc c (List.mem_singleton.2 rfl)
  have := lo_lt_hi D c
  omega

theorem not_isPrefix (h : Tiles D cs s t) {a c : Node} (ha : a ∈ cs) (hc : c ∈ cs) :
    ¬ a.IsPrefix c := by
  intro hac
  have hcD := (h.bounds.2 c hc).2.2
  obtain ⟨h1, h2⟩ := (div_eq_iff_lo hac.1.le hcD).1 hac.2
  have hne : a ≠ c := fun he ↦ by rw [he] at hac; exact Nat.lt_irrefl _ hac.1
  have := lo_lt_hi D c
  rcases h.disjoint ha hc hne with h' | h' <;> omega

theorem valid (h : Tiles D cs s t) (ht : t ≤ 2 ^ D) {c : Node} (hc : c ∈ cs) :
    c.Valid ∧ c.depth ≤ D := by
  obtain ⟨-, hhi', hcD⟩ := h.bounds.2 c hc
  have hhi : c.hi D ≤ 2 ^ D := Nat.le_trans hhi' ht
  refine ⟨?_, hcD⟩
  have hsplit : 2 ^ D = 2 ^ c.depth * 2 ^ (D - c.depth) := by
    rw [← Nat.pow_add, Nat.add_sub_cancel' hcD]
  unfold hi at hhi
  rw [hsplit] at hhi
  exact Nat.le_of_mul_le_mul_right hhi (Nat.two_pow_pos _)

theorem complete (h : Tiles D cs 0 (2 ^ D)) {a c : Node} (hc : c ∈ cs) (hac : a.IsPrefix c)
    {b : Nat} (hb : b < 2) : a.child b ∈ cs ∨ ∃ c' ∈ cs, (a.child b).IsPrefix c' := by
  obtain ⟨hcv, hcD⟩ := h.valid (Nat.le_refl _) hc
  have hav : a.Valid := hac.valid hcv
  have huD : a.depth + 1 ≤ D := Nat.le_trans (Nat.succ_le_of_lt hac.1) hcD
  have hu : (a.child b).lo D < 2 ^ D := by
    have hsplit : 2 ^ D = 2 ^ (a.depth + 1) * 2 ^ (D - (a.depth + 1)) := by
      rw [← Nat.pow_add, Nat.add_sub_cancel' huD]
    have hoff : 2 * a.offset + b < 2 ^ (a.depth + 1) := by
      unfold Valid at hav
      rw [Nat.pow_succ]
      omega
    rw [hsplit]
    exact Nat.mul_lt_mul_of_pos_right hoff (Nat.two_pow_pos _)
  obtain ⟨c', hc', h1, h2⟩ := h.exists_mem (Nat.zero_le _) hu
  have hc'D := (h.valid (Nat.le_refl _) hc').2
  rcases Nat.lt_or_ge c'.depth (a.child b).depth with hlt | hge
  · exfalso
    have hc'u : c'.IsPrefix (a.child b) := ⟨hlt, (div_eq_iff_lo hlt.le huD).2 ⟨h1, h2⟩⟩
    rcases (isPrefix_child_iff hb).1 hc'u with rfl | hc'a
    · exact h.not_isPrefix hc' hc hac
    · exact h.not_isPrefix hc' hc (hc'a.trans hac)
  · have heq := lo_eq_of_lo_mem hge hc'D h1 h2
    have hdiv := (div_eq_iff_lo hge hc'D).2 ⟨heq.ge, heq ▸ lo_lt_hi D (a.child b)⟩
    rcases Nat.eq_or_lt_of_le hge with hd | hd
    · left
      have hoff : c'.offset = (a.child b).offset := by
        rw [← hdiv, ← hd, Nat.sub_self, Nat.pow_zero, Nat.div_one]
      have : a.child b = c' := by
        obtain ⟨d', o'⟩ := c'
        simp only at hd hoff
        subst hd hoff
        rfl
      rwa [this]
    · exact Or.inr ⟨c', hc', hd, hdiv⟩

end Tiles

end Samba.Lib.PrefixCode
