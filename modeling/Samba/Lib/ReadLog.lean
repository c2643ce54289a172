import Mathlib

namespace Samba.Lib.ReadLog

abbrev Logged (ι ε α : Type) := ExceptT ε (StateM (List ι)) α

variable {ι ε α β : Type}

def readByte (mem : ι → β) (a : ι) : Logged ι ε β := do
  modify (· ++ [a])
  return mem a

def runLogged (x : Logged ι ε α) : Except ε α × List ι := x.run.run []

theorem readByte_run (mem : ι → β) (a : ι) (log : List ι) :
    (readByte mem a : Logged ι ε β).run.run log = (.ok (mem a), log ++ [a]) := rfl

theorem run_bind (x : Logged ι ε α) (f : α → Logged ι ε β) (log : List ι) :
    (x >>= f).run.run log =
      match x.run.run log with
      | (.ok v, l) => (f v).run.run l
      | (.error e, l) => (.error e, l) := by
  simp only [ExceptT.run_bind, StateT.run_bind]
  rcases x.run.run log with ⟨_ | v, l⟩ <;> rfl

def Reads (S : ι → Prop) (x : Logged ι ε α) (Q : α → Prop) : Prop :=
  ∀ log, (∀ a ∈ (x.run.run log).2, a ∈ log ∨ S a) ∧ ∀ v, (x.run.run log).1 = .ok v → Q v

namespace Reads

variable {S S' : ι → Prop} {Q Q' : α → Prop} {x : Logged ι ε α}

theorem conseq (h : Reads S x Q) (hS : ∀ a, S a → S' a) (hQ : ∀ v, Q v → Q' v) :
    Reads S' x Q' := by
  intro log
  obtain ⟨hlog, hret⟩ := h log
  exact ⟨fun a ha ↦ (hlog a ha).imp_right (hS a), fun v hv ↦ hQ v (hret v hv)⟩

theorem pure {v : α} (h : Q v) : Reads S (Pure.pure v : Logged ι ε α) Q := by
  intro log
  refine ⟨fun a ha ↦ Or.inl ha, ?_⟩
  rintro w ⟨⟩
  exact h

theorem throw {e : ε} : Reads S (MonadExcept.throw e : Logged ι ε α) Q := by
  intro log
  refine ⟨fun a ha ↦ Or.inl ha, ?_⟩
  rintro w ⟨⟩

theorem readByte {mem : ι → β} {a : ι} (ha : S a) :
    Reads S (ReadLog.readByte mem a : Logged ι ε β) (fun b ↦ b = mem a) := by
  intro log
  rw [readByte_run]
  refine ⟨fun b hb ↦ ?_, ?_⟩
  · rcases List.mem_append.1 hb with hb | hb
    · exact Or.inl hb
    · rw [List.mem_singleton.1 hb]
      exact Or.inr ha
  · rintro w ⟨⟩
    rfl

theorem bind {R : β → Prop} {f : α → Logged ι ε β} (hx : Reads S x Q)
    (hf : ∀ v, Q v → Reads S (f v) R) : Reads S (x >>= f) R := by
  intro log
  obtain ⟨hlog, hret⟩ := hx log
  rw [run_bind]
  rcases hr : x.run.run log with ⟨_ | v, l⟩
  · rw [hr] at hlog
    refine ⟨hlog, ?_⟩
    rintro w ⟨⟩
  · rw [hr] at hlog hret
    obtain ⟨hlog', hret'⟩ := hf v (hret v rfl) l
    exact ⟨fun a ha ↦ (hlog' a ha).elim (hlog a) Or.inr, hret'⟩

theorem throw_bind {R : β → Prop} {f : α → Logged ι ε β} {e : ε} :
    Reads S (MonadExcept.throw e >>= f) R :=
  have hthrow : Reads S (MonadExcept.throw e : Logged ι ε α) (fun _ ↦ False) := throw
  bind hthrow fun _ h ↦ h.elim

theorem runLogged_mem (h : Reads S x Q) : ∀ a ∈ (runLogged x).2, S a := fun a ha ↦
  ((h []).1 a ha).resolve_left List.not_mem_nil

end Reads

def logEvent (a : ι) : Logged ι ε Unit := modify (· ++ [a])

def Triple (P : List ι → Prop) (x : Logged ι ε α) (Q : α → List ι → Prop)
    (E : List ι → Prop) : Prop :=
  ∀ log, P log → match x.run.run log with
    | (.ok v, l) => Q v l
    | (.error _, l) => E l

namespace Triple

variable {P P' : List ι → Prop} {Q Q' : α → List ι → Prop} {E E' : List ι → Prop}
  {x : Logged ι ε α}

theorem pure {v : α} : Triple (Q v) (Pure.pure v : Logged ι ε α) Q E := fun _ h ↦ h

theorem pure_of {v : α} (h : ∀ l, P l → Q v l) : Triple P (Pure.pure v : Logged ι ε α) Q E :=
  fun l hl ↦ h l hl

theorem throw {e : ε} : Triple E (MonadExcept.throw e : Logged ι ε α) Q E := fun _ h ↦ h

theorem throw_bind {R : β → List ι → Prop} {f : α → Logged ι ε β} {e : ε} :
    Triple E (MonadExcept.throw e >>= f) R E := fun _ h ↦ h

theorem logEvent {a : ι} {Q : Unit → List ι → Prop} :
    Triple (fun l ↦ Q () (l ++ [a])) (ReadLog.logEvent a : Logged ι ε Unit) Q E := fun _ h ↦ h

theorem conseq (h : Triple P x Q E) (hP : ∀ l, P' l → P l) (hQ : ∀ v l, Q v l → Q' v l)
    (hE : ∀ l, E l → E' l) : Triple P' x Q' E' := by
  intro log hlog
  have hx := h log (hP log hlog)
  rcases hr : x.run.run log with ⟨_ | v, l⟩ <;> rw [hr] at hx
  · exact hE l hx
  · exact hQ v l hx

theorem bind {R : β → List ι → Prop} {f : α → Logged ι ε β} (hx : Triple P x Q E)
    (hf : ∀ v, Triple (Q v) (f v) R E) : Triple P (x >>= f) R E := by
  intro log hlog
  rw [run_bind]
  have h := hx log hlog
  rcases hr : x.run.run log with ⟨_ | v, l⟩
  · rw [hr] at h
    exact h
  · rw [hr] at h
    exact hf v l h

theorem of_pure {R : Prop} (h : R → Triple (fun l ↦ R ∧ P l) x Q E) :
    Triple (fun l ↦ R ∧ P l) x Q E :=
  fun l hl ↦ h hl.1 l hl

theorem ite {c : Prop} [Decidable c] {y : Logged ι ε α} (hx : c → Triple P x Q E)
    (hy : ¬c → Triple P y Q E) : Triple P (if c then x else y) Q E := by
  by_cases hc : c
  · rw [if_pos hc]
    exact hx hc
  · rw [if_neg hc]
    exact hy hc

end Triple

def TripleE (P : List ι → Prop) (x : Logged ι ε α) (Q : α → List ι → Prop)
    (E : ε → List ι → Prop) : Prop :=
  ∀ log, P log → match x.run.run log with
    | (.ok v, l) => Q v l
    | (.error e, l) => E e l

namespace TripleE

variable {P P' : List ι → Prop} {Q Q' : α → List ι → Prop} {E E' : ε → List ι → Prop}
  {x : Logged ι ε α}

theorem pure {v : α} : TripleE (Q v) (Pure.pure v : Logged ι ε α) Q E := fun _ h ↦ h

theorem pure_of {v : α} (h : ∀ l, P l → Q v l) : TripleE P (Pure.pure v : Logged ι ε α) Q E :=
  fun l hl ↦ h l hl

theorem throw {e : ε} (h : ∀ l, P l → E e l) : TripleE P (MonadExcept.throw e : Logged ι ε α) Q E :=
  fun l hl ↦ h l hl

theorem logEvent {a : ι} {Q : Unit → List ι → Prop} :
    TripleE (fun l ↦ Q () (l ++ [a])) (ReadLog.logEvent a : Logged ι ε Unit) Q E := fun _ h ↦ h

theorem conseq (h : TripleE P x Q E) (hP : ∀ l, P' l → P l) (hQ : ∀ v l, Q v l → Q' v l)
    (hE : ∀ e l, E e l → E' e l) : TripleE P' x Q' E' := by
  intro log hlog
  have hx := h log (hP log hlog)
  rcases hr : x.run.run log with ⟨_ | v, l⟩ <;> rw [hr] at hx
  · exact hE _ l hx
  · exact hQ v l hx

theorem bind {R : β → List ι → Prop} {f : α → Logged ι ε β} (hx : TripleE P x Q E)
    (hf : ∀ v, TripleE (Q v) (f v) R E) : TripleE P (x >>= f) R E := by
  intro log hlog
  rw [run_bind]
  have h := hx log hlog
  rcases hr : x.run.run log with ⟨_ | v, l⟩
  · rw [hr] at h
    exact h
  · rw [hr] at h
    exact hf v l h

theorem throw_bind {R : β → List ι → Prop} {f : α → Logged ι ε β} {e : ε}
    (h : ∀ l, P l → E e l) : TripleE P (MonadExcept.throw e >>= f) R E :=
  bind (Q := fun _ _ ↦ False) (throw h) fun _ _ h ↦ h.elim

theorem of_pure {R : Prop} (h : R → TripleE (fun l ↦ R ∧ P l) x Q E) :
    TripleE (fun l ↦ R ∧ P l) x Q E :=
  fun l hl ↦ h hl.1 l hl

theorem of_frame {R S : Prop} (h : S → TripleE (fun l ↦ R ∧ P l) x Q E) :
    TripleE (fun l ↦ (R ∧ S) ∧ P l) x Q E :=
  fun l hl ↦ h hl.1.2 l ⟨hl.1.1, hl.2⟩

theorem ite {c : Prop} [Decidable c] {y : Logged ι ε α} (hx : c → TripleE P x Q E)
    (hy : ¬c → TripleE P y Q E) : TripleE P (if c then x else y) Q E := by
  by_cases hc : c
  · rw [if_pos hc]
    exact hx hc
  · rw [if_neg hc]
    exact hy hc

theorem foldlM {f : β → α → Logged ι ε β} {I : List α → List α → β → List ι → Prop}
    (hf : ∀ ys x zs b, TripleE (I ys (x :: zs) b) (f b x) (I (ys ++ [x]) zs) E) :
    ∀ (xs ys : List α) (b : β), TripleE (I ys xs b) (xs.foldlM f b) (I (ys ++ xs) []) E
  | [], ys, b => by
    rw [List.foldlM_nil, List.append_nil]
    exact pure
  | x :: xs, ys, b => by
    rw [List.foldlM_cons]
    refine bind (hf ys x xs b) fun b' ↦ ?_
    have h := foldlM hf xs (ys ++ [x]) b'
    rwa [List.append_assoc, List.singleton_append] at h

theorem mapM {f : α → Logged ι ε β} {S : β → Prop} :
    ∀ {xs : List α}, (∀ x ∈ xs, TripleE P (f x) (fun y l ↦ S y ∧ P l) E) →
      TripleE P (xs.mapM f) (fun ys l ↦ (ys.length = xs.length ∧ ∀ y ∈ ys, S y) ∧ P l) E
  | [], _ => by
    rw [List.mapM_nil]
    exact pure_of fun _ hl ↦ ⟨⟨rfl, fun _ h ↦ absurd h List.not_mem_nil⟩, hl⟩
  | x :: xs, hf => by
    rw [List.mapM_cons]
    refine bind (hf x List.mem_cons_self) fun y ↦ ?_
    have hrest : TripleE (fun l ↦ S y ∧ P l) (xs.mapM f)
        (fun ys l ↦ S y ∧ (ys.length = xs.length ∧ ∀ z ∈ ys, S z) ∧ P l) E :=
      of_pure fun hy ↦ conseq (mapM fun x' hx' ↦ hf x' (List.mem_cons_of_mem x hx'))
        (fun _ hl ↦ hl.2) (fun _ _ h ↦ ⟨hy, h⟩) (fun _ _ h ↦ h)
    refine bind hrest fun ys ↦ pure_of fun l hl ↦ ⟨⟨?_, fun z hz ↦ ?_⟩, hl.2.2⟩
    · rw [List.length_cons, List.length_cons, hl.2.1.1]
    · rcases List.mem_cons.1 hz with rfl | hz
      · exact hl.1
      · exact hl.2.1.2 z hz

theorem of_exists {γ : Type} {P : γ → List ι → Prop} (h : ∀ a, TripleE (P a) x Q E) :
    TripleE (fun l ↦ ∃ a, P a l) x Q E :=
  fun l ⟨a, hl⟩ ↦ h a l hl

theorem runLogged (h : TripleE P x Q E) (hP : P []) :
    match ReadLog.runLogged x with
    | (.ok v, l) => Q v l
    | (.error e, l) => E e l :=
  h [] hP

end TripleE

def Returns (x : Logged ι ε α) (Q : α → Prop) : Prop :=
  ∀ log, ∃ v, (x.run.run log).1 = .ok v ∧ Q v

def Ends (x : Logged ι ε α) (R : Except ε α → Prop) : Prop :=
  ∀ log, R (x.run.run log).1

namespace Returns

variable {Q Q' : α → Prop} {x : Logged ι ε α}

theorem pure {v : α} (h : Q v) : Returns (Pure.pure v : Logged ι ε α) Q :=
  fun _ ↦ ⟨v, rfl, h⟩

theorem readByte {mem : ι → β} {a : ι} :
    Returns (ReadLog.readByte mem a : Logged ι ε β) (· = mem a) :=
  fun log ↦ ⟨mem a, by rw [readByte_run], rfl⟩

theorem logEvent {a : ι} : Returns (ReadLog.logEvent a : Logged ι ε Unit) fun _ ↦ True :=
  fun _ ↦ ⟨(), rfl, trivial⟩

theorem conseq (h : Returns x Q) (hQ : ∀ v, Q v → Q' v) : Returns x Q' := by
  intro log
  obtain ⟨v, hv, hq⟩ := h log
  exact ⟨v, hv, hQ v hq⟩

theorem run_bind_eq {f : α → Logged ι ε β} (hx : Returns x Q) (log : List ι) :
    ∃ v l, Q v ∧ ((x >>= f).run.run log) = (f v).run.run l := by
  obtain ⟨v, hv, hq⟩ := hx log
  rw [run_bind]
  rcases hr : x.run.run log with ⟨_ | w, l⟩
  · rw [hr] at hv
    cases hv
  · rw [hr] at hv
    cases hv
    exact ⟨v, l, hq, rfl⟩

theorem bind {R : β → Prop} {f : α → Logged ι ε β} (hx : Returns x Q)
    (hf : ∀ v, Q v → Returns (f v) R) : Returns (x >>= f) R := by
  intro log
  obtain ⟨v, l, hq, hrun⟩ := hx.run_bind_eq (f := f) log
  rw [hrun]
  exact hf v hq l

theorem runLogged (h : Returns x Q) : ∃ v, (ReadLog.runLogged x).1 = .ok v ∧ Q v := h []

end Returns

namespace Ends

variable {R : Except ε α → Prop} {x : Logged ι ε α}

theorem of_returns {Q : α → Prop} (h : Returns x Q) (hR : ∀ v, Q v → R (.ok v)) : Ends x R := by
  intro log
  obtain ⟨v, hv, hq⟩ := h log
  rw [hv]
  exact hR v hq

theorem throw {e : ε} (h : R (.error e)) : Ends (MonadExcept.throw e : Logged ι ε α) R :=
  fun _ ↦ h

theorem throw_bind {R : Except ε β → Prop} {f : α → Logged ι ε β} {e : ε} (h : R (.error e)) :
    Ends (MonadExcept.throw e >>= f) R :=
  fun _ ↦ h

theorem bind {Q : α → Prop} {R : Except ε β → Prop} {f : α → Logged ι ε β} (hx : Returns x Q)
    (hf : ∀ v, Q v → Ends (f v) R) : Ends (x >>= f) R := by
  intro log
  obtain ⟨v, l, hq, hrun⟩ := hx.run_bind_eq (f := f) log
  rw [hrun]
  exact hf v hq l

theorem runLogged (h : Ends x R) : R (ReadLog.runLogged x).1 := h []

end Ends

def StoredAt (mem : Nat → β) (p : Nat) (bs : List β) : Prop :=
  ∀ i (h : i < bs.length), mem (p + i) = bs[i]

namespace StoredAt

variable {mem : Nat → β} {p : Nat}

@[simp] theorem nil : StoredAt mem p [] := fun _ h ↦ absurd h (Nat.not_lt_zero _)

theorem cons {b : β} {bs : List β} : StoredAt mem p (b :: bs) ↔ mem p = b ∧ StoredAt mem (p + 1) bs := by
  constructor
  · intro h
    refine ⟨h 0 (Nat.succ_pos _), fun i hi ↦ ?_⟩
    rw [Nat.add_assoc, Nat.add_comm 1 i]
    exact h (i + 1) (Nat.succ_lt_succ hi)
  · rintro ⟨hb, hbs⟩ i hi
    cases i with
    | zero => exact hb
    | succ i =>
      rw [List.getElem_cons_succ, ← hbs i (Nat.lt_of_succ_lt_succ hi)]
      congr 1
      omega

theorem append {as bs : List β} :
    StoredAt mem p (as ++ bs) ↔ StoredAt mem p as ∧ StoredAt mem (p + as.length) bs := by
  induction as generalizing p with
  | nil => simp
  | cons a as ih => rw [List.cons_append, cons, cons, ih, List.length_cons, Nat.add_assoc,
      Nat.add_comm 1, and_assoc]

theorem getD (bs : List β) (d : β) : StoredAt (bs.getD · d) 0 bs := fun i h ↦ by
  dsimp only
  rw [Nat.zero_add, List.getD_eq_getElem?_getD, List.getElem?_eq_getElem h, Option.getD_some]

theorem map_range {bs : List β} (h : StoredAt mem p bs) :
    (List.range bs.length).map (fun i ↦ mem (p + i)) = bs :=
  List.ext_getElem (by simp) fun i h₁ h₂ ↦ by
    rw [List.getElem_map, List.getElem_range]
    exact h i h₂

end StoredAt

def ReadRange (p n a : Nat) : Prop := p ≤ a ∧ a < p + n

theorem ReadRange.mono {p n q m a : Nat} (hp : p ≤ q) (hn : q + m ≤ p + n)
    (ha : ReadRange q m a) : ReadRange p n a :=
  ⟨Nat.le_trans hp ha.1, Nat.lt_of_lt_of_le ha.2 hn⟩

theorem ReadRange.shift {p n a : Nat} (ha : ReadRange (p + 1) n a) : ReadRange p (n + 1) a :=
  ha.mono (Nat.le_succ p) (by omega)

end Samba.Lib.ReadLog
