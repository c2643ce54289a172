import Mathlib

namespace Samba.Lib.SeqWindow

def InWindow (low range x : Nat) : Prop := low ≤ x ∧ x < low + range

instance (low range x : Nat) : Decidable (InWindow low range x) :=
  inferInstanceAs (Decidable (_ ∧ _))

def windowIds (used : List Nat) (low range : Nat) : List Nat :=
  used.filter (fun x ↦ decide (InWindow low range x))

def windowBits (m : Nat) (used : List Nat) (low range : Nat) : Finset Nat :=
  ((windowIds used low range).map (· % m)).toFinset

section

variable {m low range : Nat} {used : List Nat}

theorem eq_of_mod_eq_of_inWindow {x y : Nat} (hrange : range ≤ m) (hx : InWindow low range x)
    (hy : InWindow low range y) (hmod : x % m = y % m) : x = y := by
  obtain ⟨hx1, hx2⟩ := hx
  obtain ⟨hy1, hy2⟩ := hy
  rcases Nat.le_total x y with hle | hle
  · have hdvd : (y - x) % m = 0 := Nat.sub_mod_eq_zero_of_mod_eq hmod.symm
    have hlt : y - x < m := by omega
    rw [Nat.mod_eq_of_lt hlt] at hdvd
    omega
  · have hdvd : (x - y) % m = 0 := Nat.sub_mod_eq_zero_of_mod_eq hmod
    have hlt : x - y < m := by omega
    rw [Nat.mod_eq_of_lt hlt] at hdvd
    omega

-- equation lemmas made once, before the proofs below use them in parallel
attribute [local simp] windowIds.eq_1 windowBits.eq_1
attribute [-simp] windowIds.eq_1 windowBits.eq_1

@[simp] theorem mem_windowIds {x : Nat} : x ∈ windowIds used low range ↔ x ∈ used ∧ InWindow low range x := by
  simp [windowIds]

theorem mem_windowBits {b : Nat} :
    b ∈ windowBits m used low range ↔ ∃ x ∈ used, InWindow low range x ∧ x % m = b := by
  simp [windowBits, and_assoc]

theorem mod_mem_windowBits_iff {x : Nat} (hrange : range ≤ m) (hx : InWindow low range x) :
    x % m ∈ windowBits m used low range ↔ x ∈ used := by
  rw [mem_windowBits]
  constructor
  · rintro ⟨y, hy, hyw, hmod⟩
    rwa [eq_of_mod_eq_of_inWindow hrange hyw hx hmod] at hy
  · intro hx'
    exact ⟨x, hx', hx, rfl⟩

theorem windowBits_append_of_inWindow {x : Nat} (hx : InWindow low range x) :
    windowBits m (used ++ [x]) low range = insert (x % m) (windowBits m used low range) := by
  ext b
  simp only [mem_windowBits, Finset.mem_insert, List.mem_append, List.mem_singleton]
  constructor
  · rintro ⟨y, hy | rfl, hyw, rfl⟩
    · exact Or.inr ⟨y, hy, hyw, rfl⟩
    · exact Or.inl rfl
  · rintro (rfl | ⟨y, hy, hyw, rfl⟩)
    · exact ⟨x, Or.inr rfl, hx, rfl⟩
    · exact ⟨y, Or.inl hy, hyw, rfl⟩

theorem windowBits_succ_low (hrange : range ≤ m) (hlow : InWindow low range low) :
    windowBits m used (low + 1) (range - 1) = (windowBits m used low range).erase (low % m) := by
  ext b
  simp only [mem_windowBits, Finset.mem_erase]
  constructor
  · rintro ⟨y, hy, ⟨hy1, hy2⟩, rfl⟩
    have hyw : InWindow low range y := ⟨by omega, by omega⟩
    refine ⟨fun hmod ↦ ?_, y, hy, hyw, rfl⟩
    have := eq_of_mod_eq_of_inWindow hrange hyw hlow hmod
    omega
  · rintro ⟨hne, y, hy, ⟨hy1, hy2⟩, rfl⟩
    have hyl : y ≠ low := fun h ↦ hne (by rw [h])
    exact ⟨y, hy, ⟨by omega, by omega⟩, rfl⟩

theorem windowBits_grow {range' : Nat} (hle : range ≤ range')
    (hbelow : ∀ x ∈ used, x < low + range) :
    windowBits m used low range' = windowBits m used low range := by
  ext b
  simp only [mem_windowBits]
  constructor
  · rintro ⟨y, hy, ⟨hy1, -⟩, rfl⟩
    exact ⟨y, hy, ⟨hy1, hbelow y hy⟩, rfl⟩
  · rintro ⟨y, hy, ⟨hy1, hy2⟩, rfl⟩
    exact ⟨y, hy, ⟨hy1, by omega⟩, rfl⟩

end

end Samba.Lib.SeqWindow
