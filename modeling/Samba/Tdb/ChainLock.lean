import Samba.Tdb.Lock

namespace Samba.Tdb.ChainLock

open Samba.Tdb.Lock

inductive ChainCall
  | lock (list : Int) (ltype : LockType)
  | lockNonblock (list : Int) (ltype : LockType)
  | unlock (list : Int) (ltype : LockType)

def ChainCall.run (kernel : List KernelLock) (ctx : TdbContext) : ChainCall → LockResult
  | .lock list ltype => tdbLock kernel ctx list ltype
  | .lockNonblock list ltype => tdbLockNonblock kernel ctx list ltype
  | .unlock list ltype =>
    let r := tdbUnlock kernel ctx list ltype
    .done r.1 r.2.1 r.2.2

structure ChainSystem where
  kernel : List KernelLock
  ctxs : List TdbContext

inductive ChainStep : ChainSystem → ChainSystem → Prop
  | call {s : ChainSystem} {i : Nat} {ctx ctx' : TdbContext} (c : ChainCall) {ret : Int}
      {kernel : List KernelLock} :
      s.ctxs[i]? = some ctx → c.run s.kernel ctx = .done ret kernel ctx' →
      ChainStep s ⟨kernel, s.ctxs.set i ctx'⟩

def heldLock (ctx : TdbContext) (off : Nat) : Option LockType :=
  (ctx.lockrecs.find? (·.off = off)).map (·.ltype)

theorem find?_off_split {recs : List TdbLockType} {off : Nat} {lck : TdbLockType}
    (hnd : (recs.map (·.off)).Nodup) (h : recs.find? (·.off = off) = some lck) :
    ∃ as bs, recs = as ++ lck :: bs ∧ lck.off = off ∧ (∀ a ∈ as, a.off ≠ off) ∧
      ∀ b ∈ bs, b.off ≠ off := by
  obtain ⟨hlck, as, bs, rfl, has⟩ := List.find?_eq_some_iff_append.1 h
  have hoff : lck.off = off := by simpa using hlck
  refine ⟨as, bs, rfl, hoff, fun a ha ↦ by simpa using has a ha, fun b hb hb' ↦ ?_⟩
  simp only [List.map_append, List.map_cons, List.nodup_append, List.nodup_cons] at hnd
  exact hnd.2.1.1 (List.mem_map.2 ⟨b, hb, hb'.trans hoff.symm⟩)

theorem updateNestlock_append {f : TdbLockType → TdbLockType} {off : Nat}
    {as bs : List TdbLockType} {b : TdbLockType} (has : ∀ a ∈ as, a.off ≠ off)
    (hb : b.off = off) : updateNestlock f off (as ++ b :: bs) = as ++ f b :: bs := by
  induction as with
  | nil => simp [updateNestlock, hb]
  | cons a as ih =>
    have ha : a.off ≠ off := has a List.mem_cons_self
    simp only [List.cons_append, updateNestlock, if_neg ha,
      ih fun a' ha' ↦ has a' (List.mem_cons_of_mem _ ha')]

theorem dropNestlock_append_perm {off : Nat} {as bs : List TdbLockType} {b : TdbLockType}
    (has : ∀ a ∈ as, a.off ≠ off) (hb : b.off = off) :
    (dropNestlock (as ++ b :: bs) off).Perm (as ++ bs) := by
  have hidx : (as ++ b :: bs).findIdx? (·.off = off) = some as.length := by
    rw [List.findIdx?_append, List.findIdx?_eq_none_iff.2 (by simpa using has),
      List.findIdx?_cons]
    simp [hb]
  unfold dropNestlock
  rw [hidx]
  dsimp only
  rw [List.set_append_right _ _ (Nat.le_refl _), Nat.sub_self]
  rcases List.eq_nil_or_concat bs with rfl | ⟨bs', z, rfl⟩
  · rw [← List.concat_eq_append]
    simp
  · have hsnoc : ∀ y : TdbLockType, as ++ y :: bs'.concat z = (as ++ y :: bs') ++ [z] := by simp
    rw [hsnoc, List.getLastD_concat, List.set_cons_zero, hsnoc, List.dropLast_concat,
      List.concat_eq_append]
    exact (List.perm_append_singleton z bs').symm.append_left as

theorem mem_split_of_off_ne {as bs : List TdbLockType} {b b' r : TdbLockType} {off : Nat}
    (hb : b.off = off) (hb' : b'.off = off) (hr : r.off ≠ off) :
    r ∈ as ++ b' :: bs ↔ r ∈ as ++ b :: bs := by
  have hne : ∀ y : TdbLockType, y.off = off → r ≠ y := fun y hy h ↦ hr (h ▸ hy)
  simp [hne b hb, hne b' hb']

theorem nodup_split_update {as bs : List TdbLockType} {b b' : TdbLockType}
    (hnd : ((as ++ b :: bs).map (·.off)).Nodup) (hoff : b'.off = b.off) :
    ((as ++ b' :: bs).map (·.off)).Nodup := by
  simpa [hoff] using hnd

structure Agrees (kernel : List KernelLock) (ctx : TdbContext) : Prop where
  nodup : (ctx.lockrecs.map (·.off)).Nodup
  count_pos : ∀ r ∈ ctx.lockrecs, 0 < r.count
  held : ∀ r ∈ ctx.lockrecs, ⟨ctx.pid, r.ltype, r.off, false⟩ ∈ kernel
  only : ∀ l ∈ kernel, l.pid = ctx.pid → ∃ r ∈ ctx.lockrecs, l = ⟨ctx.pid, r.ltype, r.off, false⟩

theorem Agrees.congr {kernel kernel' : List KernelLock} {ctx : TdbContext}
    (h : Agrees kernel ctx) (hk : ∀ l, l.pid = ctx.pid → (l ∈ kernel' ↔ l ∈ kernel)) :
    Agrees kernel' ctx where
  nodup := h.nodup
  count_pos := h.count_pos
  held r hr := (hk _ rfl).2 (h.held r hr)
  only l hl hpid := h.only l ((hk l hpid).1 hl) hpid

theorem Agrees.update {kernel kernel' : List KernelLock} {ctx : TdbContext}
    {recs : List TdbLockType} {off : Nat} (h : Agrees kernel ctx)
    (hnodup : (recs.map (·.off)).Nodup) (hpos : ∀ r ∈ recs, 0 < r.count)
    (hrecs : ∀ r, r.off ≠ off → (r ∈ recs ↔ r ∈ ctx.lockrecs))
    (hkernel : ∀ l, l.pid = ctx.pid → l.off ≠ off → (l ∈ kernel' ↔ l ∈ kernel))
    (hat : ∀ l, l.pid = ctx.pid → l.off = off →
      (l ∈ kernel' ↔ ∃ r ∈ recs, l = ⟨ctx.pid, r.ltype, r.off, false⟩)) :
    Agrees kernel' { ctx with lockrecs := recs } where
  nodup := hnodup
  count_pos := hpos
  held r hr := by
    by_cases hoff : r.off = off
    · exact (hat _ rfl hoff).2 ⟨r, hr, rfl⟩
    · exact (hkernel _ rfl hoff).2 (h.held r ((hrecs r hoff).1 hr))
  only l hl hpid := by
    by_cases hoff : l.off = off
    · exact (hat l hpid hoff).1 hl
    · obtain ⟨r, hr, rfl⟩ := h.only l ((hkernel l hpid hoff).1 hl) hpid
      exact ⟨r, (hrecs r hoff).2 hr, rfl⟩

theorem exists_rec_at_iff {recs : List TdbLockType} {b : TdbLockType} {pid off : Nat}
    {l : KernelLock} (hnodup : (recs.map (·.off)).Nodup) (hb : b ∈ recs) (hboff : b.off = off)
    (hoff : l.off = off) :
    (∃ r ∈ recs, l = ⟨pid, r.ltype, r.off, false⟩) ↔ l = ⟨pid, b.ltype, off, false⟩ := by
  constructor
  · rintro ⟨r, hr, rfl⟩
    have hrb : r = b := List.inj_on_of_nodup_map hnodup hr hb (hoff.trans hboff.symm)
    rw [hrb, hboff]
  · rintro rfl
    exact ⟨b, hb, by rw [hboff]⟩

theorem Agrees.mem_at {kernel : List KernelLock} {ctx : TdbContext} (h : Agrees kernel ctx)
    {lck : TdbLockType} {off : Nat} (hlck : lck ∈ ctx.lockrecs) (hoff : lck.off = off)
    {l : KernelLock} (hpid : l.pid = ctx.pid) (hloff : l.off = off) :
    l ∈ kernel ↔ l = ⟨ctx.pid, lck.ltype, off, false⟩ := by
  rw [← exists_rec_at_iff h.nodup hlck hoff hloff]
  constructor
  · exact fun hl ↦ h.only l hl hpid
  · rintro ⟨r, hr, rfl⟩
    exact h.held r hr

theorem Agrees.set {kernel kernel' : List KernelLock} {ctx : TdbContext}
    {as bs : List TdbLockType} {b : TdbLockType} {off : Nat} (h : Agrees kernel ctx)
    (hnodup : ((as ++ b :: bs).map (·.off)).Nodup) (hpos : ∀ r ∈ as ++ b :: bs, 0 < r.count)
    (hb : b.off = off) (hrecs : ∀ r, r.off ≠ off → (r ∈ as ++ b :: bs ↔ r ∈ ctx.lockrecs))
    (hkernel : ∀ l, l.pid = ctx.pid → l.off ≠ off → (l ∈ kernel' ↔ l ∈ kernel))
    (hat : ∀ l, l.pid = ctx.pid → l.off = off → (l ∈ kernel' ↔ l = ⟨ctx.pid, b.ltype, off, false⟩)) :
    Agrees kernel' { ctx with lockrecs := as ++ b :: bs } :=
  h.update hnodup hpos hrecs hkernel fun l hpid hoff ↦ by
    rw [hat l hpid hoff, exists_rec_at_iff hnodup (by simp) hb hoff]

theorem Agrees.perm {kernel : List KernelLock} {ctx : TdbContext} {recs : List TdbLockType}
    (h : Agrees kernel ctx) (hperm : recs.Perm ctx.lockrecs) :
    Agrees kernel { ctx with lockrecs := recs } where
  nodup := (hperm.map _).nodup_iff.2 h.nodup
  count_pos r hr := h.count_pos r (hperm.mem_iff.1 hr)
  held r hr := h.held r (hperm.mem_iff.1 hr)
  only l hl hpid := by
    obtain ⟨r, hr, rfl⟩ := h.only l hl hpid
    exact ⟨r, hperm.mem_iff.2 hr, rfl⟩

theorem Agrees.mem_fcntlUnlock {kernel : List KernelLock} {ctx : TdbContext}
    (h : Agrees kernel ctx) {off : Nat} {l : KernelLock} (hpid : l.pid = ctx.pid) :
    l ∈ fcntlUnlock kernel ctx.pid off false ↔ l ∈ kernel ∧ l.off ≠ off := by
  rw [Samba.Tdb.Lock.mem_fcntlUnlock]
  constructor
  · rintro ⟨hl, hkey⟩
    obtain ⟨r, -, rfl⟩ := h.only l hl hpid
    exact ⟨hl, fun hoff ↦ hkey ⟨rfl, hoff, rfl⟩⟩
  · rintro ⟨hl, hoff⟩
    exact ⟨hl, fun hkey ↦ hoff hkey.2.1⟩

theorem Agrees.mem_fcntlLock {kernel kernel' : List KernelLock} {ctx : TdbContext}
    (h : Agrees kernel ctx) {off : Nat} {ltype : LockType}
    (hgrant : fcntlLock kernel ctx.pid ltype off false = some kernel') {l : KernelLock}
    (hpid : l.pid = ctx.pid) :
    l ∈ kernel' ↔ (l ∈ kernel ∧ l.off ≠ off) ∨ l = ⟨ctx.pid, ltype, off, false⟩ := by
  rw [Samba.Tdb.Lock.mem_fcntlLock hgrant, h.mem_fcntlUnlock hpid]

theorem Agrees.mem_fcntlLock_of_off_ne {kernel kernel' : List KernelLock} {ctx : TdbContext}
    (h : Agrees kernel ctx) {off : Nat} {ltype : LockType}
    (hgrant : fcntlLock kernel ctx.pid ltype off false = some kernel') {l : KernelLock}
    (hpid : l.pid = ctx.pid) (hloff : l.off ≠ off) : l ∈ kernel' ↔ l ∈ kernel := by
  rw [h.mem_fcntlLock hgrant hpid]
  exact ⟨fun h ↦ h.elim And.left fun hl ↦ absurd (hl ▸ rfl) hloff, fun hl ↦ .inl ⟨hl, hloff⟩⟩

theorem Agrees.mem_fcntlLock_at {kernel kernel' : List KernelLock} {ctx : TdbContext}
    (h : Agrees kernel ctx) {off : Nat} {ltype : LockType}
    (hgrant : fcntlLock kernel ctx.pid ltype off false = some kernel') {l : KernelLock}
    (hpid : l.pid = ctx.pid) (hloff : l.off = off) :
    l ∈ kernel' ↔ l = ⟨ctx.pid, ltype, off, false⟩ := by
  rw [h.mem_fcntlLock hgrant hpid]
  exact ⟨fun h ↦ h.elim (fun h ↦ absurd hloff h.2) id, .inr⟩

theorem mem_fcntlLock_of_ne {kernel kernel' : List KernelLock} {pid off : Nat}
    {ltype : LockType} {toEnd : Bool} (hgrant : fcntlLock kernel pid ltype off toEnd = some kernel')
    {l : KernelLock} (hpid : l.pid ≠ pid) : l ∈ kernel' ↔ l ∈ kernel := by
  rw [Samba.Tdb.Lock.mem_fcntlLock hgrant, Samba.Tdb.Lock.mem_fcntlUnlock]
  constructor
  · rintro (⟨hl, -⟩ | rfl)
    · exact hl
    · exact absurd rfl hpid
  · exact fun hl ↦ .inl ⟨hl, fun hkey ↦ hpid hkey.1⟩

theorem mem_fcntlUnlock_of_ne {kernel : List KernelLock} {pid off : Nat} {toEnd : Bool}
    {l : KernelLock} (hpid : l.pid ≠ pid) : l ∈ fcntlUnlock kernel pid off toEnd ↔ l ∈ kernel := by
  rw [Samba.Tdb.Lock.mem_fcntlUnlock]
  exact ⟨And.left, fun hl ↦ ⟨hl, fun hkey ↦ hpid hkey.1⟩⟩

theorem Agrees.bump {kernel kernel' : List KernelLock} {ctx : TdbContext} {lck : TdbLockType}
    {off : Nat} {f : TdbLockType → TdbLockType} (h : Agrees kernel ctx)
    (hfind : ctx.lockrecs.find? (·.off = off) = some lck) (hf : (f lck).off = lck.off)
    (hpos : 0 < (f lck).count)
    (hkernel : ∀ l, l.pid = ctx.pid → l.off ≠ off → (l ∈ kernel' ↔ l ∈ kernel))
    (hat : ∀ l, l.pid = ctx.pid → l.off = off →
      (l ∈ kernel' ↔ l = ⟨ctx.pid, (f lck).ltype, off, false⟩)) :
    Agrees kernel' { ctx with lockrecs := updateNestlock f off ctx.lockrecs } := by
  obtain ⟨as, bs, hsplit, hoff, has, -⟩ := find?_off_split h.nodup hfind
  have hnodup := h.nodup
  have hcount := h.count_pos
  rw [hsplit] at hnodup hcount ⊢
  rw [updateNestlock_append has hoff]
  refine h.set (nodup_split_update hnodup hf) ?_ (hf.trans hoff) ?_ hkernel hat
  · intro r hr
    simp only [List.mem_append, List.mem_cons] at hr
    rcases hr with hr | rfl | hr
    · exact hcount r (by simp [hr])
    · exact hpos
    · exact hcount r (by simp [hr])
  · intro r hr
    rw [hsplit]
    exact mem_split_of_off_ne hoff (hf.trans hoff) hr

theorem tdbBrlock_done {kernel kernel' : List KernelLock} {ctx ctx' : TdbContext}
    {rwType : LockType} {off : Nat} {toEnd wait : Bool} {ret : Int} (hnolock : ctx.noLock = false)
    (h : tdbBrlock kernel ctx rwType off toEnd wait = .done ret kernel' ctx') :
    ctx' = ctx ∧ ((ret = 0 ∧ fcntlLock kernel ctx.pid rwType off toEnd = some kernel') ∨
      (ret ≠ 0 ∧ kernel' = kernel)) := by
  unfold tdbBrlock at h
  rw [if_neg (by simp [hnolock])] at h
  by_cases hro : rwType = .wrlck ∧ ctx.readOnly = true
  · rw [if_pos hro, LockResult.done.injEq] at h
    obtain ⟨rfl, rfl, rfl⟩ := h
    exact ⟨rfl, .inr ⟨by decide, rfl⟩⟩
  rw [if_neg hro] at h
  cases hgrant : fcntlLock kernel ctx.pid rwType off toEnd with
  | some kernel'' =>
    simp only [hgrant, LockResult.done.injEq] at h
    obtain ⟨rfl, rfl, rfl⟩ := h
    exact ⟨rfl, .inl ⟨rfl, rfl⟩⟩
  | none =>
    cases wait <;> simp only [hgrant, if_true, if_false, Bool.false_eq_true, reduceCtorEq,
      LockResult.done.injEq] at h
    obtain ⟨rfl, rfl, rfl⟩ := h
    exact ⟨rfl, .inr ⟨by decide, rfl⟩⟩

theorem tdbBrlock_blocked_iff {kernel : List KernelLock} {ctx : TdbContext}
    {rwType : LockType} {off : Nat} {toEnd wait : Bool} (hnolock : ctx.noLock = false) :
    tdbBrlock kernel ctx rwType off toEnd wait = .blocked ↔
      ¬(rwType = .wrlck ∧ ctx.readOnly = true) ∧
        fcntlLock kernel ctx.pid rwType off toEnd = none ∧ wait = true := by
  unfold tdbBrlock
  rw [if_neg (by simp [hnolock])]
  by_cases hro : rwType = .wrlck ∧ ctx.readOnly = true
  · simp [hro]
  rw [if_neg hro]
  cases fcntlLock kernel ctx.pid rwType off toEnd <;> cases wait <;> simp [hro]

theorem tdbBrlock_then {kernel kernel' k : List KernelLock} {ctx ctx' c : TdbContext}
    {t : LockType} {off : Nat} {wait : Bool} {r e ret : Int} {g : TdbContext → TdbContext}
    (hnolock : ctx.noLock = false) (hb : tdbBrlock kernel ctx t off false wait = .done r k c)
    (h : (if r ≠ 0 then LockResult.done e k c else .done 0 k (g c)) = .done ret kernel' ctx') :
    (kernel' = kernel ∧ ctx' = ctx) ∨
      (fcntlLock kernel ctx.pid t off false = some kernel' ∧ ctx' = g ctx) := by
  obtain ⟨rfl, hr⟩ := tdbBrlock_done hnolock hb
  by_cases hr0 : r = 0
  · rw [if_neg (not_not.2 hr0), LockResult.done.injEq] at h
    obtain ⟨-, rfl, rfl⟩ := h
    rcases hr with ⟨-, hgrant⟩ | ⟨hne, -⟩
    · exact .inr ⟨hgrant, rfl⟩
    · exact absurd hr0 hne
  · rw [if_pos hr0, LockResult.done.injEq] at h
    obtain ⟨-, rfl, rfl⟩ := h
    rcases hr with ⟨h0, -⟩ | ⟨-, rfl⟩
    · exact absurd h0 hr0
    · exact .inl ⟨rfl, rfl⟩

theorem tdbNestLock_cases {kernel kernel' : List KernelLock} {ctx ctx' : TdbContext} {off : Nat}
    {ltype : LockType} {wait : Bool} {ret : Int} (hnolock : ctx.noLock = false)
    (h : tdbNestLock kernel ctx off ltype wait = .done ret kernel' ctx') :
    (kernel' = kernel ∧ ctx' = ctx) ∨
    (∃ lck, ctx.lockrecs.find? (·.off = off) = some lck ∧ ¬(lck.ltype = .rdlck ∧ ltype = .wrlck) ∧
      kernel' = kernel ∧ ctx' = { ctx with
        lockrecs := updateNestlock (fun l ↦ { l with count := l.count + 1 }) off ctx.lockrecs }) ∨
    (∃ lck, ctx.lockrecs.find? (·.off = off) = some lck ∧ lck.ltype = .rdlck ∧ ltype = .wrlck ∧
      fcntlLock kernel ctx.pid .wrlck off false = some kernel' ∧ ctx' = { ctx with
        lockrecs := updateNestlock (fun l ↦ { l with ltype := .wrlck, count := l.count + 1 })
          off ctx.lockrecs }) ∨
    (ctx.lockrecs.find? (·.off = off) = none ∧ fcntlLock kernel ctx.pid ltype off false = some kernel' ∧
      ctx' = { ctx with lockrecs := ctx.lockrecs ++ [⟨off, 1, ltype⟩] }) := by
  unfold tdbNestLock at h
  by_cases hoff : off ≥ lockOffset ctx.hashSize
  · rw [if_pos hoff, LockResult.done.injEq] at h
    exact .inl ⟨h.2.1.symm, h.2.2.symm⟩
  rw [if_neg hoff, if_neg (by simp [hnolock])] at h
  cases hfind : ctx.lockrecs.find? (·.off = off) with
  | some lck =>
    simp only [hfind] at h
    by_cases hup : lck.ltype = .rdlck ∧ ltype = .wrlck
    · simp only [if_pos hup] at h
      cases hb : tdbBrlock kernel ctx .wrlck off false wait with
      | blocked => simp only [hb, reduceCtorEq] at h
      | done r k c =>
        simp only [hb] at h
        rcases tdbBrlock_then
            (g := fun c ↦ { c with lockrecs := (updateNestlock
              (fun l ↦ { l with ltype := .wrlck, count := l.count + 1 }) off c.lockrecs) })
            hnolock hb h with hsame | ⟨hgrant, rfl⟩
        · exact .inl hsame
        · exact .inr (.inr (.inl ⟨lck, rfl, hup.1, hup.2, hgrant, rfl⟩))
    · simp only [if_neg hup, ne_eq, not_true_eq_false, if_false, LockResult.done.injEq] at h
      obtain ⟨-, rfl, rfl⟩ := h
      exact .inr (.inl ⟨lck, rfl, hup, rfl, rfl⟩)
  | none =>
    simp only [hfind] at h
    cases hb : tdbBrlock kernel ctx ltype off false wait with
    | blocked => simp only [hb, reduceCtorEq] at h
    | done r k c =>
      simp only [hb] at h
      rcases tdbBrlock_then (g := fun c ↦ { c with lockrecs := c.lockrecs ++ [⟨off, 1, ltype⟩] })
          hnolock hb h with hsame | ⟨hgrant, rfl⟩
      · exact .inl hsame
      · exact .inr (.inr (.inr ⟨rfl, hgrant, rfl⟩))

theorem tdbNestUnlock_cases {kernel kernel' : List KernelLock} {ctx ctx' : TdbContext} {off : Nat}
    {ret : Int} (hnolock : ctx.noLock = false)
    (h : tdbNestUnlock kernel ctx off = (ret, kernel', ctx')) :
    (kernel' = kernel ∧ ctx' = ctx) ∨
    (∃ lck, ctx.lockrecs.find? (·.off = off) = some lck ∧ 1 < lck.count ∧ kernel' = kernel ∧
      ctx' = { ctx with
        lockrecs := updateNestlock (fun l ↦ { l with count := l.count - 1 }) off ctx.lockrecs }) ∨
    (∃ lck, ctx.lockrecs.find? (·.off = off) = some lck ∧ lck.count = 1 ∧
      kernel' = fcntlUnlock kernel ctx.pid off false ∧
      ctx' = { ctx with lockrecs := dropNestlock ctx.lockrecs off }) := by
  unfold tdbNestUnlock at h
  rw [if_neg (by simp [hnolock])] at h
  by_cases hoff : off ≥ lockOffset ctx.hashSize
  · rw [if_pos hoff, Prod.mk.injEq, Prod.mk.injEq] at h
    exact .inl ⟨h.2.1.symm, h.2.2.symm⟩
  rw [if_neg hoff] at h
  cases hfind : ctx.lockrecs.find? (·.off = off) with
  | none =>
    simp only [hfind, Prod.mk.injEq] at h
    exact .inl ⟨h.2.1.symm, h.2.2.symm⟩
  | some lck =>
    simp only [hfind] at h
    by_cases h0 : lck.count = 0
    · rw [if_pos h0, Prod.mk.injEq, Prod.mk.injEq] at h
      exact .inl ⟨h.2.1.symm, h.2.2.symm⟩
    rw [if_neg h0] at h
    by_cases h1 : lck.count > 1
    · rw [if_pos h1, Prod.mk.injEq, Prod.mk.injEq] at h
      exact .inr (.inl ⟨lck, rfl, h1, h.2.1.symm, h.2.2.symm⟩)
    · rw [if_neg h1, Prod.mk.injEq, Prod.mk.injEq] at h
      exact .inr (.inr ⟨lck, rfl, by omega, h.2.1.symm, h.2.2.symm⟩)

structure CallEffect (kernel kernel' : List KernelLock) (ctx ctx' : TdbContext) : Prop where
  ctx_eq : ctx' = { ctx with lockrecs := ctx'.lockrecs }
  agrees : Agrees kernel' ctx'
  others : ∀ l, l.pid ≠ ctx.pid → (l ∈ kernel' ↔ l ∈ kernel)
  compatible : Compatible kernel'

theorem CallEffect.refl {kernel : List KernelLock} {ctx : TdbContext} (ha : Agrees kernel ctx)
    (hc : Compatible kernel) : CallEffect kernel kernel ctx ctx :=
  ⟨rfl, ha, fun _ _ ↦ Iff.rfl, hc⟩

theorem tdbNestLock_effect {kernel kernel' : List KernelLock} {ctx ctx' : TdbContext} {off : Nat}
    {ltype : LockType} {wait : Bool} {ret : Int} (hnolock : ctx.noLock = false)
    (ha : Agrees kernel ctx) (hc : Compatible kernel)
    (h : tdbNestLock kernel ctx off ltype wait = .done ret kernel' ctx') :
    CallEffect kernel kernel' ctx ctx' := by
  rcases tdbNestLock_cases hnolock h with
    ⟨rfl, rfl⟩ | ⟨lck, hfind, -, rfl, rfl⟩ | ⟨lck, hfind, -, -, hgrant, rfl⟩ | ⟨hnone, hgrant, rfl⟩
  · exact .refl ha hc
  · have hlck := List.mem_of_find?_eq_some hfind
    have hoff : lck.off = off := by simpa using List.find?_some hfind
    refine ⟨rfl, ha.bump hfind rfl (Nat.succ_pos _) (fun _ _ _ ↦ Iff.rfl) fun l hpid hloff ↦ ?_,
      fun _ _ ↦ Iff.rfl, hc⟩
    exact ha.mem_at hlck hoff hpid hloff
  · exact ⟨rfl, ha.bump hfind rfl (Nat.succ_pos _)
      (fun _ hpid hloff ↦ ha.mem_fcntlLock_of_off_ne hgrant hpid hloff)
      (fun _ hpid hloff ↦ ha.mem_fcntlLock_at hgrant hpid hloff),
      fun _ hpid ↦ mem_fcntlLock_of_ne hgrant hpid, fcntlLock_compatible hc hgrant⟩
  · have hfree : ∀ r ∈ ctx.lockrecs, r.off ≠ off := fun r hr hoff ↦
      List.find?_eq_none.1 hnone r hr (by simpa using hoff)
    refine ⟨rfl, ha.set ?_ ?_ rfl ?_
      (fun _ hpid hloff ↦ ha.mem_fcntlLock_of_off_ne hgrant hpid hloff)
      (fun _ hpid hloff ↦ ha.mem_fcntlLock_at hgrant hpid hloff),
      fun _ hpid ↦ mem_fcntlLock_of_ne hgrant hpid, fcntlLock_compatible hc hgrant⟩
    · simpa [List.nodup_append] using ⟨ha.nodup, fun r hr hoff ↦ hfree r hr hoff⟩
    · intro r hr
      simp only [List.mem_append, List.mem_singleton] at hr
      rcases hr with hr | rfl
      · exact ha.count_pos r hr
      · exact Nat.one_pos
    · intro r hr
      simp only [List.mem_append, List.mem_singleton]
      exact ⟨fun h ↦ h.elim id fun h ↦ absurd (h ▸ rfl) hr, .inl⟩

theorem tdbNestUnlock_effect {kernel kernel' : List KernelLock} {ctx ctx' : TdbContext} {off : Nat}
    {ret : Int} (hnolock : ctx.noLock = false) (ha : Agrees kernel ctx) (hc : Compatible kernel)
    (h : tdbNestUnlock kernel ctx off = (ret, kernel', ctx')) :
    CallEffect kernel kernel' ctx ctx' := by
  rcases tdbNestUnlock_cases hnolock h with
    ⟨rfl, rfl⟩ | ⟨lck, hfind, hcount, rfl, rfl⟩ | ⟨lck, hfind, -, rfl, rfl⟩
  · exact .refl ha hc
  · have hlck := List.mem_of_find?_eq_some hfind
    have hoff : lck.off = off := by simpa using List.find?_some hfind
    refine ⟨rfl, ha.bump hfind rfl (by dsimp only; omega) (fun _ _ _ ↦ Iff.rfl)
      fun l hpid hloff ↦ ?_, fun _ _ ↦ Iff.rfl, hc⟩
    exact ha.mem_at hlck hoff hpid hloff
  · obtain ⟨as, bs, hsplit, hoff, has, hbs⟩ := find?_off_split ha.nodup hfind
    have hnodup := ha.nodup
    rw [hsplit] at hnodup
    have hrest : ((as ++ bs).map (·.off)).Nodup := by
      simp only [List.map_append, List.map_cons] at hnodup ⊢
      exact (List.nodup_middle.1 hnodup).of_cons
    have hagrees : Agrees (fcntlUnlock kernel ctx.pid off false) { ctx with lockrecs := as ++ bs } := by
      refine ha.update hrest (fun r hr ↦ ?_) (fun r (hr : r.off ≠ off) ↦ ?_) (fun l hpid hloff ↦ ?_)
        fun l hpid hloff ↦ ?_
      · exact ha.count_pos r (by rw [hsplit]; simp at hr ⊢; tauto)
      · rw [hsplit]
        simp only [List.mem_append, List.mem_cons]
        exact ⟨fun h ↦ h.elim .inl (.inr ∘ .inr), fun h ↦ h.elim .inl fun h ↦
          h.elim (fun h ↦ absurd (h ▸ hoff) hr) .inr⟩
      · rw [ha.mem_fcntlUnlock hpid]
        exact ⟨And.left, fun hl ↦ ⟨hl, hloff⟩⟩
      · rw [ha.mem_fcntlUnlock hpid]
        refine ⟨fun h ↦ absurd hloff h.2, ?_⟩
        rintro ⟨r, hr, rfl⟩
        simp only [List.mem_append] at hr
        exact hr.elim (fun hr ↦ absurd hloff (has r hr)) fun hr ↦ absurd hloff (hbs r hr)
    refine ⟨rfl, ?_, fun l hpid ↦ mem_fcntlUnlock_of_ne hpid, fcntlUnlock_compatible hc⟩
    rw [hsplit]
    exact hagrees.perm (dropNestlock_append_perm has hoff)

theorem ChainCall.run_effect {kernel kernel' : List KernelLock} {ctx ctx' : TdbContext}
    {ret : Int} (c : ChainCall) (hall : ctx.allrecordLock.count = 0) (hnolock : ctx.noLock = false)
    (ha : Agrees kernel ctx) (hc : Compatible kernel) (h : c.run kernel ctx = .done ret kernel' ctx') :
    CallEffect kernel kernel' ctx ctx' := by
  cases c with
  | lock list ltype =>
    simp only [ChainCall.run, tdbLock, tdbLockList, hall, ne_eq, not_true_eq_false, if_false] at h
    exact tdbNestLock_effect hnolock ha hc h
  | lockNonblock list ltype =>
    simp only [ChainCall.run, tdbLockNonblock, tdbLockList, hall, ne_eq, not_true_eq_false,
      if_false] at h
    exact tdbNestLock_effect hnolock ha hc h
  | unlock list ltype =>
    simp only [ChainCall.run, tdbUnlock, hall, ne_eq, not_true_eq_false, if_false,
      LockResult.done.injEq] at h
    obtain ⟨hret, hkernel, hctx⟩ := h
    have hunlock : tdbNestUnlock kernel ctx (lockOffset list) = (ret, kernel', ctx') := by
      rw [← hret, ← hkernel, ← hctx]
    exact tdbNestUnlock_effect hnolock ha hc hunlock

structure ChainInv (s : ChainSystem) : Prop where
  pids : ∀ (i j : Nat) (ctx ctx' : TdbContext), s.ctxs[i]? = some ctx → s.ctxs[j]? = some ctx' →
    ctx.pid = ctx'.pid → i = j
  plain : ∀ (i : Nat) (ctx : TdbContext), s.ctxs[i]? = some ctx →
    ctx.allrecordLock.count = 0 ∧ ctx.noLock = false
  agrees : ∀ (i : Nat) (ctx : TdbContext), s.ctxs[i]? = some ctx → Agrees s.kernel ctx
  owned : ∀ l ∈ s.kernel, ∃ (i : Nat) (ctx : TdbContext), s.ctxs[i]? = some ctx ∧ ctx.pid = l.pid
  compatible : Compatible s.kernel

structure ChainInitial (s : ChainSystem) : Prop where
  kernel : s.kernel = []
  pids : ∀ (i j : Nat) (ctx ctx' : TdbContext), s.ctxs[i]? = some ctx → s.ctxs[j]? = some ctx' →
    ctx.pid = ctx'.pid → i = j
  ctxs : ∀ (i : Nat) (ctx : TdbContext), s.ctxs[i]? = some ctx →
    ctx.lockrecs = [] ∧ ctx.allrecordLock.count = 0 ∧ ctx.noLock = false

theorem ChainInitial.inv {s : ChainSystem} (h : ChainInitial s) : ChainInv s where
  pids := h.pids
  plain i ctx hctx := (h.ctxs i ctx hctx).2
  agrees i ctx hctx := by
    have hrecs := (h.ctxs i ctx hctx).1
    exact ⟨by simp [hrecs], by simp [hrecs], by simp [hrecs], by simp [h.kernel]⟩
  owned := by simp [h.kernel]
  compatible := by simp [Compatible, h.kernel]

theorem ChainStep.inv {s s' : ChainSystem} (h : ChainStep s s') (hs : ChainInv s) : ChainInv s' := by
  cases h with
  | @call i ctx ctx' c ret kernel hctx hrun =>
    obtain ⟨hall, hnolock⟩ := hs.plain i ctx hctx
    have he := c.run_effect hall hnolock (hs.agrees i ctx hctx) hs.compatible hrun
    have hpid : ctx'.pid = ctx.pid := congrArg (·.pid) he.ctx_eq
    have hlen : i < s.ctxs.length := (List.getElem?_eq_some_iff.1 hctx).1
    have hother : ∀ j q, j ≠ i → s.ctxs[j]? = some q → q.pid ≠ ctx.pid :=
      fun j q hj hq hqp ↦ hj (hs.pids j i q ctx hq hctx hqp)
    have hwas : ∀ (j : Nat) (q : TdbContext), (s.ctxs.set i ctx')[j]? = some q →
        ∃ q₀, s.ctxs[j]? = some q₀ ∧ q₀.pid = q.pid := by
      intro j q hq
      rcases getElem?_set_cases hctx hq with ⟨rfl, rfl⟩ | ⟨-, hq⟩
      · exact ⟨ctx, hctx, hpid.symm⟩
      · exact ⟨q, hq, rfl⟩
    refine ⟨fun j k q r hq hr hqr ↦ ?_, fun j q hq ↦ ?_, fun j q hq ↦ ?_, fun l hl ↦ ?_,
      he.compatible⟩
    · obtain ⟨q₀, hq₀, hqq⟩ := hwas j q hq
      obtain ⟨r₀, hr₀, hrr⟩ := hwas k r hr
      exact hs.pids j k q₀ r₀ hq₀ hr₀ (by rw [hqq, hrr, hqr])
    · rcases getElem?_set_cases hctx hq with ⟨-, rfl⟩ | ⟨-, hq⟩
      · rw [he.ctx_eq]
        exact ⟨hall, hnolock⟩
      · exact hs.plain j q hq
    · rcases getElem?_set_cases hctx hq with ⟨-, rfl⟩ | ⟨hj, hq⟩
      · exact he.agrees
      · exact (hs.agrees j q hq).congr fun l hl ↦ he.others l (hl ▸ hother j q hj hq)
    · by_cases hlp : l.pid = ctx.pid
      · exact ⟨i, ctx', List.getElem?_set_self hlen, hpid.trans hlp.symm⟩
      · obtain ⟨j, q, hq, hqp⟩ := hs.owned l ((he.others l hlp).1 hl)
        have hj : j ≠ i := by
          rintro rfl
          rw [hctx, Option.some_inj] at hq
          exact hlp (by rw [← hqp, ← hq])
        exact ⟨j, q, by rw [List.getElem?_set_ne (Ne.symm hj)]; exact hq, hqp⟩

theorem ChainInv.of_run {s₀ s : ChainSystem} (h₀ : ChainInitial s₀)
    (h : Relation.ReflTransGen ChainStep s₀ s) : ChainInv s := by
  induction h with
  | refl => exact h₀.inv
  | tail _ hstep ih => exact hstep.inv ih

theorem find?_off_of_mem {recs : List TdbLockType} {r : TdbLockType} {off : Nat}
    (hnodup : (recs.map (·.off)).Nodup) (hr : r ∈ recs) (hoff : r.off = off) :
    recs.find? (·.off = off) = some r := by
  cases hfind : recs.find? (·.off = off) with
  | none => exact absurd (by simpa using hoff) (List.find?_eq_none.1 hfind r hr)
  | some r' =>
    have hr' := List.mem_of_find?_eq_some hfind
    have hoff' : r'.off = off := by simpa using List.find?_some hfind
    rw [List.inj_on_of_nodup_map hnodup hr' hr (hoff'.trans hoff.symm)]

theorem Agrees.heldLock_eq_some {kernel : List KernelLock} {ctx : TdbContext}
    (h : Agrees kernel ctx) {off : Nat} {t : LockType} :
    heldLock ctx off = some t ↔ ⟨ctx.pid, t, off, false⟩ ∈ kernel := by
  unfold heldLock
  constructor
  · intro ht
    obtain ⟨lck, hfind, rfl⟩ := Option.map_eq_some_iff.1 ht
    have hoff : lck.off = off := by simpa using List.find?_some hfind
    exact hoff ▸ h.held lck (List.mem_of_find?_eq_some hfind)
  · intro hl
    obtain ⟨r, hr, hrl⟩ := h.only _ hl rfl
    simp only [KernelLock.mk.injEq, true_and, and_true] at hrl
    rw [find?_off_of_mem h.nodup hr hrl.2.symm, Option.map_some, hrl.1]

theorem fcntlLock_eq_none_iff {table : List KernelLock} {pid off : Nat} {ltype : LockType}
    {toEnd : Bool} :
    fcntlLock table pid ltype off toEnd = none ↔
      ∃ l ∈ table, l.pid ≠ pid ∧ l.overlaps off toEnd = true ∧ conflicting l.ltype ltype = true := by
  unfold fcntlLock
  split_ifs with hany <;> simpa [and_assoc] using hany

theorem tdbNestLock_blocked_iff {kernel : List KernelLock} {ctx : TdbContext} {off : Nat}
    {ltype : LockType} {wait : Bool} (hnolock : ctx.noLock = false) :
    tdbNestLock kernel ctx off ltype wait = .blocked ↔
      off < lockOffset ctx.hashSize ∧
      (heldLock ctx off = none ∨ (heldLock ctx off = some .rdlck ∧ ltype = .wrlck)) ∧
      tdbBrlock kernel ctx ltype off false wait = .blocked := by
  unfold tdbNestLock heldLock
  by_cases hoff : off ≥ lockOffset ctx.hashSize
  · simp only [if_pos hoff, reduceCtorEq, false_iff]
    omega
  rw [if_neg hoff, if_neg (by simp [hnolock])]
  cases hfind : ctx.lockrecs.find? (·.off = off) with
  | none =>
    simp only [Option.map_none, true_or, true_and]
    cases tdbBrlock kernel ctx ltype off false wait with
    | blocked =>
      dsimp only
      simp only [true_iff, and_true]
      omega
    | done ret kernel' ctx' =>
      simp only [reduceCtorEq, and_false, iff_false]
      split_ifs <;> simp
  | some lck =>
    simp only [Option.map_some, reduceCtorEq, false_or, Option.some_inj]
    by_cases hup : lck.ltype = .rdlck ∧ ltype = .wrlck
    · obtain ⟨h1, rfl⟩ := hup
      simp only [h1, and_self, if_true, true_and]
      cases tdbBrlock kernel ctx .wrlck off false wait with
      | blocked =>
        dsimp only
        simp only [true_iff, and_true]
        omega
      | done ret kernel' ctx' =>
        simp only [reduceCtorEq, and_false, iff_false]
        split_ifs <;> simp
    · simp only [if_neg hup, ne_eq, not_true_eq_false, if_false, reduceCtorEq, false_iff]
      exact fun h ↦ hup h.2.1

theorem ChainInv.conflict_iff {s : ChainSystem} (hs : ChainInv s) {i : Nat} {ctx : TdbContext}
    (hi : s.ctxs[i]? = some ctx) (off : Nat) (ltype : LockType) :
    (∃ l ∈ s.kernel, l.pid ≠ ctx.pid ∧ l.overlaps off false = true ∧
      conflicting l.ltype ltype = true) ↔
    ∃ j ctx', j ≠ i ∧ s.ctxs[j]? = some ctx' ∧
      ∃ t, heldLock ctx' off = some t ∧ conflicting t ltype = true := by
  constructor
  · rintro ⟨l, hl, hpid, hov, hconf⟩
    obtain ⟨j, q, hq, hqp⟩ := hs.owned l hl
    have hj : j ≠ i := by
      rintro rfl
      rw [hi, Option.some_inj] at hq
      exact hpid (by rw [← hqp, ← hq])
    obtain ⟨r, -, rfl⟩ := (hs.agrees j q hq).only l hl hqp.symm
    have hoff : r.off = off := by simpa [KernelLock.overlaps] using hov
    exact ⟨j, q, hj, hq, r.ltype, (hs.agrees j q hq).heldLock_eq_some.2 (hoff ▸ hl), hconf⟩
  · rintro ⟨j, q, hj, hq, t, ht, hconf⟩
    exact ⟨⟨q.pid, t, off, false⟩, (hs.agrees j q hq).heldLock_eq_some.1 ht,
      fun hp ↦ hj (hs.pids j i q ctx hq hi hp), by simp [KernelLock.overlaps], hconf⟩

theorem chainLock_exclusive {s₀ s : ChainSystem} (h₀ : ChainInitial s₀)
    (h : Relation.ReflTransGen ChainStep s₀ s) :
    (∀ (k : Nat) (ctx : TdbContext), s.ctxs[k]? = some ctx → Agrees s.kernel ctx) ∧
    ∀ (i j : Nat) (ctx ctx' : TdbContext), s.ctxs[i]? = some ctx → s.ctxs[j]? = some ctx' →
      i ≠ j → ∀ (list : Int) (t t' : LockType), heldLock ctx (lockOffset list) = some t →
        heldLock ctx' (lockOffset list) = some t' → t = .rdlck ∧ t' = .rdlck := by
  have hs := ChainInv.of_run h₀ h
  refine ⟨hs.agrees, fun i j ctx ctx' hi hj hij list t t' ht ht' ↦ ?_⟩
  have hk := (hs.agrees i ctx hi).heldLock_eq_some.1 ht
  have hk' := (hs.agrees j ctx' hj).heldLock_eq_some.1 ht'
  have hpid : ctx.pid ≠ ctx'.pid := fun hp ↦ hij (hs.pids i j ctx ctx' hi hj hp)
  have hcompat := hs.compatible _ hk _ hk' hpid (by simp [KernelLock.overlaps])
  cases t <;> cases t' <;> simp_all [conflicting]

def twoChains : ChainSystem := ⟨[], [freshContext 1, freshContext 2]⟩

theorem chainInitial_twoChains : ChainInitial twoChains where
  kernel := rfl
  pids i j p q hp hq hpq := by
    rcases i with _ | _ | i <;> rcases j with _ | _ | j <;>
      simp [twoChains] at hp hq <;> subst hp hq <;> simp_all [freshContext]
  ctxs i p hp := by
    rcases i with _ | _ | i <;> simp [twoChains] at hp <;> subst hp <;> exact ⟨rfl, rfl, rfl⟩

def lockedOnce (pid : Nat) (t : LockType) : TdbContext :=
  { freshContext pid with lockrecs := [⟨lockOffset 0, 1, t⟩] }

def twoReaders : ChainSystem :=
  ⟨[⟨1, .rdlck, lockOffset 0, false⟩, ⟨2, .rdlck, lockOffset 0, false⟩],
    [lockedOnce 1 .rdlck, lockedOnce 2 .rdlck]⟩

theorem chainLock_exclusive_twoReaders :
    ChainInitial twoChains ∧ Relation.ReflTransGen ChainStep twoChains twoReaders ∧
      (∀ (k : Nat) (ctx : TdbContext), twoReaders.ctxs[k]? = some ctx → Agrees twoReaders.kernel ctx) ∧
      ∀ (i j : Nat) (ctx ctx' : TdbContext), twoReaders.ctxs[i]? = some ctx →
        twoReaders.ctxs[j]? = some ctx' → i ≠ j → ∀ (list : Int) (t t' : LockType),
          heldLock ctx (lockOffset list) = some t → heldLock ctx' (lockOffset list) = some t' →
            t = .rdlck ∧ t' = .rdlck := by
  have hrun : Relation.ReflTransGen ChainStep twoChains twoReaders :=
    (Relation.ReflTransGen.single (.call (i := 0) (.lock 0 .rdlck) rfl rfl)).tail
      (.call (i := 1) (.lock 0 .rdlck) rfl rfl)
  exact ⟨chainInitial_twoChains, hrun, chainLock_exclusive chainInitial_twoChains hrun⟩

theorem tdbLock_blocked_iff {s₀ s : ChainSystem} (h₀ : ChainInitial s₀)
    (h : Relation.ReflTransGen ChainStep s₀ s) {i : Nat} {ctx : TdbContext}
    (hi : s.ctxs[i]? = some ctx) (list : Int) (ltype : LockType) :
    tdbLock s.kernel ctx list ltype = .blocked ↔
      lockOffset list < lockOffset ctx.hashSize ∧ ¬(ltype = .wrlck ∧ ctx.readOnly = true) ∧
      (heldLock ctx (lockOffset list) = none ∨
        (heldLock ctx (lockOffset list) = some .rdlck ∧ ltype = .wrlck)) ∧
      ∃ j ctx', j ≠ i ∧ s.ctxs[j]? = some ctx' ∧
        ∃ t, heldLock ctx' (lockOffset list) = some t ∧ conflicting t ltype = true := by
  have hs := ChainInv.of_run h₀ h
  obtain ⟨hall, hnolock⟩ := hs.plain i ctx hi
  simp only [tdbLock, tdbLockList, hall, ne_eq, not_true_eq_false, if_false]
  rw [tdbNestLock_blocked_iff hnolock, tdbBrlock_blocked_iff hnolock, fcntlLock_eq_none_iff,
    hs.conflict_iff hi]
  exact ⟨fun ⟨h1, h2, h3, h4, _⟩ ↦ ⟨h1, h3, h2, h4⟩, fun ⟨h1, h3, h2, h4⟩ ↦ ⟨h1, h2, h3, h4, rfl⟩⟩

def oneWriter : ChainSystem :=
  ⟨[⟨1, .wrlck, lockOffset 0, false⟩], [lockedOnce 1 .wrlck, freshContext 2]⟩

theorem tdbLock_blocked_iff_oneWriter :
    ChainInitial twoChains ∧ Relation.ReflTransGen ChainStep twoChains oneWriter ∧
      (tdbLock oneWriter.kernel (freshContext 2) 0 .rdlck = .blocked ↔
        lockOffset 0 < lockOffset (freshContext 2).hashSize ∧
        ¬(LockType.rdlck = .wrlck ∧ (freshContext 2).readOnly = true) ∧
        (heldLock (freshContext 2) (lockOffset 0) = none ∨
          (heldLock (freshContext 2) (lockOffset 0) = some .rdlck ∧ LockType.rdlck = .wrlck)) ∧
        ∃ j ctx', j ≠ 1 ∧ oneWriter.ctxs[j]? = some ctx' ∧
          ∃ t, heldLock ctx' (lockOffset 0) = some t ∧ conflicting t .rdlck = true) := by
  have hrun : Relation.ReflTransGen ChainStep twoChains oneWriter :=
    .single (.call (i := 0) (.lock 0 .wrlck) rfl rfl)
  exact ⟨chainInitial_twoChains, hrun,
    tdbLock_blocked_iff chainInitial_twoChains hrun (i := 1) rfl 0 .rdlck⟩

example : tdbLock oneWriter.kernel (freshContext 2) 0 .rdlck = .blocked := by decide

example : tdbLock oneWriter.kernel (lockedOnce 1 .wrlck) 0 .rdlck ≠ .blocked := by decide

end Samba.Tdb.ChainLock
