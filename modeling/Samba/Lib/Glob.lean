import Mathlib

namespace Samba.Lib.Glob

inductive Token (α : Type) where
  | star
  | lit (chunk : List α)

inductive Matches {α : Type} : List (Token α) → List α → Prop where
  | nil : Matches [] []
  | lit {c w : List α} {ps : List (Token α)} : Matches ps w → Matches (.lit c :: ps) (c ++ w)
  | star (u : List α) {w : List α} {ps : List (Token α)} :
      Matches ps w → Matches (.star :: ps) (u ++ w)

variable {α : Type} {ps : List (Token α)} {c u v w : List α}

@[simp]
theorem matches_nil_iff : Matches ([] : List (Token α)) v ↔ v = [] := by
  constructor
  · rintro ⟨⟩
    rfl
  · rintro rfl
    exact .nil

theorem matches_lit_iff : Matches (.lit c :: ps) v ↔ ∃ w, v = c ++ w ∧ Matches ps w := by
  constructor
  · rintro (_ | @⟨_, w, _, h⟩)
    exact ⟨w, rfl, h⟩
  · rintro ⟨w, rfl, h⟩
    exact .lit h

theorem matches_star_iff : Matches (.star :: ps) v ↔ ∃ u w, v = u ++ w ∧ Matches ps w := by
  constructor
  · rintro (_ | _ | @⟨u, w, _, h⟩)
    exact ⟨u, w, rfl, h⟩
  · rintro ⟨u, w, rfl, h⟩
    exact .star u h

theorem matches_star_nil (v : List α) : Matches [.star] v := by
  simpa using Matches.star v (Matches.nil (α := α))

theorem Matches.star_append (h : Matches (.star :: ps) w) (u : List α) :
    Matches (.star :: ps) (u ++ w) := by
  obtain ⟨u', w', rfl, h'⟩ := matches_star_iff.1 h
  rw [← List.append_assoc]
  exact .star _ h'

theorem matches_lit_iff_prefixOf_drop :
    Matches (.lit c :: ps) v ↔ c <+: v ∧ Matches ps (v.drop c.length) := by
  rw [matches_lit_iff]
  constructor
  · rintro ⟨w, rfl, h⟩
    exact ⟨List.prefix_append c w, by simpa using h⟩
  · rintro ⟨⟨w, rfl⟩, h⟩
    exact ⟨w, rfl, by simpa using h⟩

theorem matches_star_lit_iff_suffix : Matches [.star, .lit c] v ↔ c <:+ v := by
  rw [matches_star_iff]
  constructor
  · rintro ⟨u, w, rfl, h⟩
    obtain ⟨w', rfl, hw'⟩ := matches_lit_iff.1 h
    rw [matches_nil_iff] at hw'
    subst hw'
    exact ⟨u, by simp⟩
  · rintro ⟨u, rfl⟩
    exact ⟨u, c, rfl, by simpa using Matches.lit (c := c) (Matches.nil (α := α))⟩

theorem matches_star_lit_iff :
    Matches (.star :: .lit c :: ps) v ↔
      ∃ p, c <+: v.drop p ∧ Matches ps (v.drop (p + c.length)) := by
  rw [matches_star_iff]
  constructor
  · rintro ⟨u, w, rfl, h⟩
    obtain ⟨w', rfl, hw'⟩ := matches_lit_iff.1 h
    refine ⟨u.length, ?_, ?_⟩
    · simp
    · rw [← List.drop_drop, List.drop_left, List.drop_left]
      exact hw'
  · rintro ⟨p, ⟨w, hw⟩, h⟩
    refine ⟨v.take p, c ++ v.drop (p + c.length), ?_, .lit h⟩
    have hdrop : v.drop (p + c.length) = w := by
      rw [← List.drop_drop, ← hw, List.drop_left]
    rw [hdrop, hw, List.take_append_drop]

theorem matches_star_lit_star_iff_first {p : Nat} (hp : c <+: v.drop p)
    (hfirst : ∀ q < p, ¬ c <+: v.drop q) :
    Matches (.star :: .lit c :: .star :: ps) v ↔ Matches (.star :: ps) (v.drop (p + c.length)) := by
  rw [matches_star_lit_iff]
  constructor
  · rintro ⟨q, hq, h⟩
    have hpq : p ≤ q := Nat.le_of_not_lt fun hlt ↦ hfirst q hlt hq
    have hsuffix : v.drop (p + c.length) =
        (v.drop (p + c.length)).take (q - p) ++ v.drop (q + c.length) := by
      conv_lhs => rw [← List.take_append_drop (q - p) (v.drop (p + c.length))]
      rw [List.drop_drop]
      congr 2
      omega
    rw [hsuffix]
    exact h.star_append _
  · intro h
    exact ⟨p, hp, h⟩

theorem not_matches_star_lit (h : ∀ q, ¬ c <+: v.drop q) :
    ¬ Matches (.star :: .lit c :: ps) v := by
  rw [matches_star_lit_iff]
  rintro ⟨q, hq, -⟩
  exact h q hq

end Samba.Lib.Glob
