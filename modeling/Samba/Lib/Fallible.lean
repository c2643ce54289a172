import Mathlib

namespace Samba.Lib.Fallible

variable {ε α β : Type}

@[simp] theorem bind_eq_ok {x : Except ε α} {f : α → Except ε β} {b : β} :
    (x >>= f) = .ok b ↔ ∃ a, x = .ok a ∧ f a = .ok b := by
  cases x <;> simp [bind, Except.bind]

@[simp] theorem pure_eq_ok {a b : α} : (pure a : Except ε α) = .ok b ↔ a = b := by
  simp [pure, Except.pure]

theorem foldlM_eq_ok_foldl {γ : Type} {f : α → β → Except ε α} (π : α → γ) (step : γ → β → γ)
    (h : ∀ a x b, f a x = .ok b → π b = step (π a) x) :
    ∀ {xs : List β} {a b : α}, xs.foldlM f a = .ok b → π b = xs.foldl step (π a)
  | [], a, b, hf => by
    rw [List.foldlM_nil, pure_eq_ok] at hf
    rw [hf, List.foldl_nil]
  | x :: xs, a, b, hf => by
    rw [List.foldlM_cons, bind_eq_ok] at hf
    obtain ⟨a', hx, hrest⟩ := hf
    rw [List.foldl_cons, ← h a x a' hx]
    exact foldlM_eq_ok_foldl π step h hrest

theorem mapM_eq_ok {f : α → Except ε β} :
    ∀ {xs : List α} {ys : List β}, xs.mapM f = .ok ys ↔ List.Forall₂ (fun x y ↦ f x = .ok y) xs ys
  | [], ys => by
    rw [List.mapM_nil, pure_eq_ok, List.forall₂_nil_left_iff, eq_comm]
  | x :: xs, ys => by
    rw [List.mapM_cons]
    simp only [bind_eq_ok, pure_eq_ok]
    constructor
    · rintro ⟨y, hy, ys', hys', rfl⟩
      exact List.Forall₂.cons hy (mapM_eq_ok.mp hys')
    · intro h
      cases h with
      | cons hy hys => exact ⟨_, hy, _, mapM_eq_ok.mpr hys, rfl⟩

theorem foldl_add (g : β → Nat) : ∀ (xs : List β) (a : Nat),
    xs.foldl (fun s x ↦ s + g x) a = a + (xs.map g).sum
  | [], a => rfl
  | x :: xs, a => by
    rw [List.foldl_cons, foldl_add g xs, List.map_cons, List.sum_cons, Nat.add_assoc]

theorem foldl_ite_add (p : β → Prop) [DecidablePred p] (g : β → Nat) : ∀ (xs : List β) (a : Nat),
    xs.foldl (fun s x ↦ if p x then s + g x else s) a = a + ((xs.filter fun x ↦ p x).map g).sum
  | [], a => rfl
  | x :: xs, a => by
    rw [List.foldl_cons, foldl_ite_add p g xs, List.filter_cons]
    by_cases hx : p x
    · rw [if_pos hx, if_pos (decide_eq_true hx), List.map_cons, List.sum_cons, Nat.add_assoc]
    · rw [if_neg hx, if_neg (by simpa using hx)]

end Samba.Lib.Fallible
