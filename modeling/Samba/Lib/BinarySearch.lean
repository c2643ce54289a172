import Mathlib

namespace Samba.Lib.BinarySearch

variable {α β : Type} (cmp : α → β → Int)

def searchGteLoop (target : α) (array : List β) : Nat → Int → Int → Option Nat → Int × Option Nat
  | 0, b, _, exact => (b, exact)
  | fuel + 1, b, e, exact =>
    if b ≤ e then
      let i := (b + e) / 2
      match array[i.toNat]? with
      | none => (b, exact)
      | some x =>
        let r := cmp target x
        if r = 0 then searchGteLoop target array fuel b (i - 1) (some i.toNat)
        else if r < 0 then searchGteLoop target array fuel b (i - 1) exact
        else searchGteLoop target array fuel (i + 1) e exact
    else (b, exact)

/-- `BINARY_ARRAY_SEARCH_GTE(array, size, target, cmp, exact, next)`: the indices
`exact` and `next` point at. -/
def binaryArraySearchGte (target : α) (array : List β) : Option Nat × Option Nat :=
  if 0 < array.length then
    let (b, exact) := searchGteLoop cmp target array (array.length + 1) 0 (array.length - 1) none
    if exact = none ∧ b < array.length then (none, some b.toNat) else (exact, none)
  else (none, none)

structure IsComparison (cmp : β → β → Int) (lt : β → β → Prop) : Prop where
  eq_zero_iff : ∀ t x, cmp t x = 0 ↔ t = x
  neg_iff : ∀ t x, cmp t x < 0 ↔ lt t x
  pos_iff : ∀ t x, 0 < cmp t x ↔ lt x t
  asymm : ∀ x y, lt x y → ¬lt y x
  trans : ∀ x y z, lt x y → lt y z → lt x z

section Sorted

variable {cmp : β → β → Int} {lt : β → β → Prop} {target : β} {array : List β}

structure SearchInv (lt : β → β → Prop) (target : β) (array : List β) (b e : Int)
    (exact : Option Nat) : Prop where
  b_nonneg : 0 ≤ b
  b_le : b ≤ e + 1
  e_lt : e < array.length
  below : ∀ i (h : i < array.length), (i : Int) < b → lt array[i] target
  above : ∀ i (h : i < array.length), e < i → exact = none → lt target array[i]
  exact_eq : ∀ j, exact = some j → (j : Int) = e + 1 ∧ ∃ h : j < array.length, array[j] = target

namespace SearchInv

variable {b e i : Int} {exact : Option Nat}

theorem step_eq (h : SearchInv lt target array b e exact) (hb : b ≤ i) (he : i ≤ e)
    (hx : ∃ hi : i.toNat < array.length, array[i.toNat] = target) :
    SearchInv lt target array b (i - 1) (some i.toNat) := by
  obtain ⟨hi, hx⟩ := hx
  refine ⟨h.b_nonneg, by omega, by have := h.e_lt; omega, h.below, ?_, ?_⟩
  · intro k hk hik hnone
    cases hnone
  · intro j hj
    cases hj
    exact ⟨by have := h.b_nonneg; omega, hi, hx⟩

theorem step_lt (hc : IsComparison cmp lt) (hs : array.Pairwise lt)
    (h : SearchInv lt target array b e exact) (hb : b ≤ i) (he : i ≤ e)
    (hi : i.toNat < array.length) (hlt : lt target array[i.toNat]) :
    SearchInv lt target array b (i - 1) exact := by
  have hbi : i = (i.toNat : Int) := by have := h.b_nonneg; omega
  refine ⟨h.b_nonneg, by omega, by have := h.e_lt; omega, h.below, ?_, ?_⟩
  · intro k hk hik hnone
    rcases Nat.lt_or_ge i.toNat k with hik' | hik'
    · exact hc.trans _ _ _ hlt (List.pairwise_iff_getElem.1 hs _ _ hi hk hik')
    · have hki : k = i.toNat := by omega
      subst hki
      exact hlt
  · intro j hj
    obtain ⟨hje, hj', hx⟩ := h.exact_eq j hj
    have hmid := List.pairwise_iff_getElem.1 hs _ _ hi hj' (by omega)
    rw [hx] at hmid
    exact (hc.asymm _ _ hlt hmid).elim

theorem step_gt (hc : IsComparison cmp lt) (hs : array.Pairwise lt)
    (h : SearchInv lt target array b e exact) (hb : b ≤ i) (he : i ≤ e)
    (hi : i.toNat < array.length) (hgt : lt array[i.toNat] target) :
    SearchInv lt target array (i + 1) e exact := by
  refine ⟨by have := h.b_nonneg; omega, by omega, h.e_lt, ?_, h.above, h.exact_eq⟩
  intro k hk hki
  rcases Nat.lt_or_ge k i.toNat with hki' | hki'
  · exact hc.trans _ _ _ (List.pairwise_iff_getElem.1 hs _ _ hk hi hki') hgt
  · have hk' : k = i.toNat := by have := h.b_nonneg; omega
    subst hk'
    exact hgt

end SearchInv

theorem searchGteLoop_inv (hc : IsComparison cmp lt) (hs : array.Pairwise lt) (fuel : Nat)
    {b e : Int} {exact : Option Nat} (h : SearchInv lt target array b e exact)
    (hfuel : e + 1 - b < fuel) :
    SearchInv lt target array (searchGteLoop cmp target array fuel b e exact).1
      ((searchGteLoop cmp target array fuel b e exact).1 - 1)
      (searchGteLoop cmp target array fuel b e exact).2 := by
  induction fuel generalizing b e exact with
  | zero => have := h.b_le; omega
  | succ fuel ih =>
    unfold searchGteLoop
    by_cases hbe : b ≤ e
    swap
    · rw [if_neg hbe]
      have hb : b - 1 = e := by have := h.b_le; omega
      simpa only [hb] using h
    rw [if_pos hbe]
    dsimp only
    have hb : b ≤ (b + e) / 2 := by omega
    have he : (b + e) / 2 ≤ e := by omega
    have hi : ((b + e) / 2).toNat < array.length := by
      have := h.e_lt
      have := h.b_nonneg
      omega
    rw [List.getElem?_eq_getElem hi]
    dsimp only
    by_cases h0 : cmp target array[((b + e) / 2).toNat] = 0
    · rw [if_pos h0]
      exact ih (h.step_eq hb he ⟨hi, ((hc.eq_zero_iff _ _).1 h0).symm⟩) (by omega)
    rw [if_neg h0]
    by_cases hneg : cmp target array[((b + e) / 2).toNat] < 0
    · rw [if_pos hneg]
      exact ih (h.step_lt hc hs hb he hi ((hc.neg_iff _ _).1 hneg)) (by omega)
    rw [if_neg hneg]
    exact ih (h.step_gt hc hs hb he hi ((hc.pos_iff _ _).1 (by omega))) (by omega)

theorem IsComparison.irrefl (hc : IsComparison cmp lt) (x : β) : ¬lt x x := fun h ↦
  hc.asymm x x h h

theorem index_unique (hc : IsComparison cmp lt) (hs : array.Pairwise lt) {j k : Nat}
    (hj : j < array.length) (hk : k < array.length) (hxj : array[j] = target)
    (hxk : array[k] = target) : j = k := by
  rcases Nat.lt_trichotomy j k with hjk | hjk | hjk
  · have := List.pairwise_iff_getElem.1 hs _ _ hj hk hjk
    rw [hxj, hxk] at this
    exact (hc.irrefl _ this).elim
  · exact hjk
  · have := List.pairwise_iff_getElem.1 hs _ _ hk hj hjk
    rw [hxj, hxk] at this
    exact (hc.irrefl _ this).elim

theorem searchInv_init (hn : 0 < array.length) :
    SearchInv lt target array 0 ((array.length : Int) - 1) none :=
  ⟨Int.le_refl 0, by omega, by omega, fun _ _ hi ↦ by omega, fun _ _ hi ↦ by omega,
    fun _ h ↦ by cases h⟩

theorem searchGteLoop_final (hc : IsComparison cmp lt) (hs : array.Pairwise lt) (target : β)
    (hn : 0 < array.length) :
    SearchInv lt target array
      (searchGteLoop cmp target array (array.length + 1) 0 ((array.length : Int) - 1) none).1
      ((searchGteLoop cmp target array (array.length + 1) 0 ((array.length : Int) - 1) none).1 - 1)
      (searchGteLoop cmp target array (array.length + 1) 0 ((array.length : Int) - 1) none).2 :=
  searchGteLoop_inv hc hs _ (searchInv_init hn) (by omega)

theorem binaryArraySearchGte_eq (hc : IsComparison cmp lt) (hs : array.Pairwise lt) (target : β) :
    ∃ b : Int, ∃ exact : Option Nat, SearchInv lt target array b (b - 1) exact ∧
      binaryArraySearchGte cmp target array =
        if exact = none ∧ b < array.length then (none, some b.toNat) else (exact, none) := by
  unfold binaryArraySearchGte
  by_cases hn : 0 < array.length
  · rw [if_pos hn]
    have hinv := searchGteLoop_final hc hs target hn
    generalize searchGteLoop cmp target array _ _ _ _ = r at hinv ⊢
    obtain ⟨b, exact⟩ := r
    exact ⟨b, exact, hinv, rfl⟩
  · rw [if_neg hn]
    refine ⟨0, none, ⟨Int.le_refl 0, by omega, by omega, fun i hi ↦ by omega, fun i hi ↦ by omega,
      fun _ h ↦ by cases h⟩, ?_⟩
    rw [if_neg (by omega)]

theorem binaryArraySearchGte_exact_eq_some_iff (hc : IsComparison cmp lt)
    (hs : array.Pairwise lt) {j : Nat} :
    (binaryArraySearchGte cmp target array).1 = some j ↔
      ∃ hj : j < array.length, array[j] = target := by
  obtain ⟨b, exact, hinv, heq⟩ := binaryArraySearchGte_eq hc hs target
  rw [heq]
  have hnone : exact = none → ∀ i (hi : i < array.length), array[i] ≠ target := by
    intro hex i hi hx
    rcases Int.lt_or_le (i : Int) b with hib | hib
    · have := hinv.below i hi hib
      rw [hx] at this
      exact hc.irrefl _ this
    · have := hinv.above i hi (by omega) hex
      rw [hx] at this
      exact hc.irrefl _ this
  split_ifs with hcase
  · refine ⟨fun h ↦ (by cases h), ?_⟩
    rintro ⟨hj, hx⟩
    exact (hnone hcase.1 j hj hx).elim
  · dsimp only
    constructor
    · intro hex
      exact (hinv.exact_eq j hex).2
    · rintro ⟨hj, hx⟩
      cases hex : exact with
      | none =>
        have hb : (array.length : Int) ≤ b := by
          by_contra hlt
          exact hcase ⟨hex, by omega⟩
        have := hinv.below j hj (by omega)
        rw [hx] at this
        exact (hc.irrefl _ this).elim
      | some j' =>
        obtain ⟨-, hj', hx'⟩ := hinv.exact_eq j' hex
        rw [index_unique hc hs hj hj' hx hx']

theorem binaryArraySearchGte_next (hc : IsComparison cmp lt) (hs : array.Pairwise lt) {k : Nat}
    (hk : (binaryArraySearchGte cmp target array).2 = some k) :
    ∃ _ : k < array.length, ∀ i (hi : i < array.length),
      (i < k → lt array[i] target) ∧ (k ≤ i → lt target array[i]) := by
  obtain ⟨b, exact, hinv, heq⟩ := binaryArraySearchGte_eq hc hs target
  rw [heq] at hk
  split_ifs at hk with hcase
  cases hk
  refine ⟨by have := hinv.b_nonneg; omega, fun i hi ↦ ⟨fun hik ↦ ?_, fun hki ↦ ?_⟩⟩
  · exact hinv.below i hi (by omega)
  · exact hinv.above i hi (by omega) hcase.1

theorem binaryArraySearchGte_none (hc : IsComparison cmp lt) (hs : array.Pairwise lt)
    (h : binaryArraySearchGte cmp target array = (none, none)) :
    ∀ i (hi : i < array.length), lt array[i] target := by
  obtain ⟨b, exact, hinv, heq⟩ := binaryArraySearchGte_eq hc hs target
  rw [heq] at h
  split_ifs at h with hcase
  · cases h
  simp only [Prod.mk.injEq, and_true] at h
  intro i hi
  have hb : (array.length : Int) ≤ b := by
    by_contra hlt
    exact hcase ⟨h, by omega⟩
  exact hinv.below i hi (by omega)

theorem binaryArraySearchGte_fst_or_snd (cmp : α → β → Int) (target : α) (array : List β) :
    (binaryArraySearchGte cmp target array).1 = none ∨
      (binaryArraySearchGte cmp target array).2 = none := by
  unfold binaryArraySearchGte
  split_ifs
  · generalize searchGteLoop cmp target array _ _ _ _ = r
    obtain ⟨b, exact⟩ := r
    dsimp only
    split_ifs <;> simp
  · simp

theorem pairwise_insertIdx {l : List β} {k : Nat} {x : β} (hk : k ≤ l.length)
    (hs : l.Pairwise lt) (hbelow : ∀ i (hi : i < l.length), i < k → lt l[i] x)
    (habove : ∀ i (hi : i < l.length), k ≤ i → lt x l[i]) : (l.insertIdx k x).Pairwise lt := by
  induction l generalizing k with
  | nil =>
    have hk0 : k = 0 := by simpa using hk
    subst hk0
    simp
  | cons a l ih =>
    cases k with
    | zero =>
      rw [List.insertIdx_zero, List.pairwise_cons]
      refine ⟨fun b hb ↦ ?_, hs⟩
      obtain ⟨i, hi, rfl⟩ := List.mem_iff_getElem.1 hb
      exact habove i hi (Nat.zero_le _)
    | succ k =>
      rw [List.insertIdx_succ_cons, List.pairwise_cons]
      obtain ⟨ha, hl⟩ := List.pairwise_cons.1 hs
      refine ⟨fun b hb ↦ ?_, ih (by simpa using hk) hl (fun i hi hik ↦ ?_) fun i hi hki ↦ ?_⟩
      · rcases (List.mem_insertIdx (by simpa using hk)).1 hb with rfl | hb
        · exact hbelow 0 (by simp) (Nat.succ_pos k)
        · exact ha b hb
      · exact hbelow (i + 1) (by simpa using hi) (by omega)
      · exact habove (i + 1) (by simpa using hi) (by omega)

theorem pairwise_insert_at_next (hc : IsComparison cmp lt) (hs : array.Pairwise lt)
    (hnot : target ∉ array) :
    (match (binaryArraySearchGte cmp target array).2 with
      | none => array ++ [target]
      | some k => array.insertIdx k target).Pairwise lt := by
  have hfst : (binaryArraySearchGte cmp target array).1 = none := by
    cases hex : (binaryArraySearchGte cmp target array).1 with
    | none => rfl
    | some j =>
      obtain ⟨hj, hx⟩ := (binaryArraySearchGte_exact_eq_some_iff hc hs).1 hex
      exact (hnot (hx ▸ List.getElem_mem hj)).elim
  cases hnext : (binaryArraySearchGte cmp target array).2 with
  | none =>
    have hall := binaryArraySearchGte_none hc hs (Prod.ext hfst hnext)
    refine List.pairwise_append.2 ⟨hs, List.pairwise_singleton _ _, fun a ha b hb ↦ ?_⟩
    obtain ⟨i, hi, rfl⟩ := List.mem_iff_getElem.1 ha
    rw [List.mem_singleton.1 hb]
    exact hall i hi
  | some k =>
    obtain ⟨hk, hspec⟩ := binaryArraySearchGte_next hc hs hnext
    exact pairwise_insertIdx (Nat.le_of_lt hk) hs (fun i hi ↦ (hspec i hi).1)
      fun i hi ↦ (hspec i hi).2

end Sorted

end Samba.Lib.BinarySearch
