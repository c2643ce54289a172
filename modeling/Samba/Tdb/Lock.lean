import Samba.Tdb.Freelist

namespace Samba.Tdb.Lock

open Samba.Tdb.Io Samba.Tdb.Freelist

/-- `F_RDLCK` and `F_WRLCK`. -/
inductive LockType
  | rdlck | wrlck
  deriving DecidableEq, Repr

structure KernelLock where
  pid : Nat
  ltype : LockType
  off : Nat
  toEnd : Bool
  deriving DecidableEq, Repr

def KernelLock.overlaps (l : KernelLock) (off : Nat) (toEnd : Bool) : Bool :=
  match l.toEnd, toEnd with
  | true, true => true
  | true, false => decide (l.off ≤ off)
  | false, true => decide (off ≤ l.off)
  | false, false => l.off == off

def conflicting (a b : LockType) : Bool := a == .wrlck || b == .wrlck

def fcntlUnlock (table : List KernelLock) (pid off : Nat) (toEnd : Bool) : List KernelLock :=
  table.filter fun l ↦ !(l.pid == pid && l.off == off && l.toEnd == toEnd)

def fcntlLock (table : List KernelLock) (pid : Nat) (ltype : LockType) (off : Nat)
    (toEnd : Bool) : Option (List KernelLock) :=
  if table.any fun l ↦ l.pid != pid && l.overlaps off toEnd && conflicting l.ltype ltype then none
  else some (fcntlUnlock table pid off toEnd ++ [⟨pid, ltype, off, toEnd⟩])

/-- `struct tdb_lock_type`. -/
structure TdbLockType where
  off : Nat
  count : Nat
  ltype : LockType
  deriving DecidableEq, Repr

structure AllrecordLock where
  count : Nat
  ltype : LockType
  off : Nat
  deriving DecidableEq, Repr

structure TdbContext where
  pid : Nat
  hashSize : Nat
  noLock : Bool
  readOnly : Bool
  lockrecs : List TdbLockType
  allrecordLock : AllrecordLock
  deriving DecidableEq, Repr

/-- `lock_offset(list)`: the sum is taken in `size_t` and returned as a
`tdb_off_t`, which is a `uint32_t`. -/
def lockOffset (list : Int) : Nat := ((freelistTop + 4 * list) % 2 ^ 32).toNat

inductive LockResult
  | blocked
  | done (ret : Int) (kernel : List KernelLock) (ctx : TdbContext)
  deriving DecidableEq, Repr

/-- `tdb_brlock` of one byte, or from `offset` to the end with `toEnd`; `wait`
is `TDB_LOCK_WAIT`. -/
def tdbBrlock (kernel : List KernelLock) (ctx : TdbContext) (rwType : LockType) (offset : Nat)
    (toEnd wait : Bool) : LockResult :=
  if ctx.noLock then .done 0 kernel ctx
  else if rwType = .wrlck ∧ ctx.readOnly then .done (-1) kernel ctx
  else match fcntlLock kernel ctx.pid rwType offset toEnd with
    | some kernel => .done 0 kernel ctx
    | none => if wait then .blocked else .done (-1) kernel ctx

def updateNestlock (f : TdbLockType → TdbLockType) (offset : Nat) :
    List TdbLockType → List TdbLockType
  | [] => []
  | l :: ls => if l.off = offset then f l :: ls else l :: updateNestlock f offset ls

def dropNestlock (recs : List TdbLockType) (offset : Nat) : List TdbLockType :=
  match recs.findIdx? (·.off = offset) with
  | none => recs
  | some i => (recs.set i (recs.getLastD ⟨0, 0, .rdlck⟩)).dropLast

/-- `tdb_nest_lock`: the kernel lock is taken for the first use of an offset
and for the upgrade of a read lock; later uses only count. -/
def tdbNestLock (kernel : List KernelLock) (ctx : TdbContext) (offset : Nat) (ltype : LockType)
    (wait : Bool) : LockResult :=
  if offset ≥ lockOffset ctx.hashSize then .done (-1) kernel ctx
  else if ctx.noLock then .done 0 kernel ctx
  else match ctx.lockrecs.find? (·.off = offset) with
  | some lck =>
    let upgrade := lck.ltype = .rdlck ∧ ltype = .wrlck
    match if upgrade then tdbBrlock kernel ctx .wrlck offset false wait else .done 0 kernel ctx with
    | .blocked => .blocked
    | .done ret kernel ctx =>
      if ret ≠ 0 then .done ret kernel ctx
      else .done 0 kernel { ctx with
        lockrecs := updateNestlock
          (fun l ↦ { l with ltype := if upgrade then .wrlck else l.ltype, count := l.count + 1 })
          offset ctx.lockrecs }
  | none =>
    match tdbBrlock kernel ctx ltype offset false wait with
    | .blocked => .blocked
    | .done ret kernel ctx =>
      if ret ≠ 0 then .done (-1) kernel ctx
      else .done 0 kernel { ctx with lockrecs := ctx.lockrecs ++ [⟨offset, 1, ltype⟩] }

/-- `tdb_lock_covered_by_allrecord_lock`. -/
def tdbLockCoveredByAllrecordLock (ctx : TdbContext) (ltype : LockType) : Int :=
  if ltype = .rdlck then 0 else if ctx.allrecordLock.ltype = .rdlck then -1 else 0

/-- `tdb_lock_list`, for a file that needs no transaction recovery: an allrecord
lock stands for every list lock without a lock of its own. -/
def tdbLockList (kernel : List KernelLock) (ctx : TdbContext) (list : Int) (ltype : LockType)
    (wait : Bool) : LockResult :=
  if ctx.allrecordLock.count ≠ 0 then .done (tdbLockCoveredByAllrecordLock ctx ltype) kernel ctx
  else tdbNestLock kernel ctx (lockOffset list) ltype wait

def tdbLock (kernel : List KernelLock) (ctx : TdbContext) (list : Int) (ltype : LockType) :
    LockResult :=
  tdbLockList kernel ctx list ltype true

def tdbLockNonblock (kernel : List KernelLock) (ctx : TdbContext) (list : Int)
    (ltype : LockType) : LockResult :=
  tdbLockList kernel ctx list ltype false

/-- `tdb_nest_unlock(tdb, offset, ltype, false)`: the kernel lock goes with the
last use. -/
def tdbNestUnlock (kernel : List KernelLock) (ctx : TdbContext) (offset : Nat) :
    Int × List KernelLock × TdbContext :=
  if ctx.noLock then (0, kernel, ctx)
  else if offset ≥ lockOffset ctx.hashSize then (-1, kernel, ctx)
  else match ctx.lockrecs.find? (·.off = offset) with
  | none => (-1, kernel, ctx)
  | some lck =>
    if lck.count = 0 then (-1, kernel, ctx)
    else if lck.count > 1 then
      (0, kernel, { ctx with
        lockrecs := updateNestlock (fun l ↦ { l with count := l.count - 1 }) offset ctx.lockrecs })
    else
      (0, fcntlUnlock kernel ctx.pid offset false,
        { ctx with lockrecs := dropNestlock ctx.lockrecs offset })

def tdbUnlock (kernel : List KernelLock) (ctx : TdbContext) (list : Int) (ltype : LockType) :
    Int × List KernelLock × TdbContext :=
  if ctx.allrecordLock.count ≠ 0 then (tdbLockCoveredByAllrecordLock ctx ltype, kernel, ctx)
  else tdbNestUnlock kernel ctx (lockOffset list)

def sizeNoMergeLoop : Nat → Nat → Nat → TdbM Nat
  | 0, _, count => return count
  | fuel + 1, ptr, count => do
    match peekU32 (← get) ptr with
    | none => return count
    | some 0 => return count
    | some next => sizeNoMergeLoop fuel next (count + 1)

inductive FreelistOp
  | free (offset : Nat) (rec : TdbRecord)
  | freelistSize
  deriving DecidableEq

def FreelistOp.ltype : FreelistOp → LockType
  | .free _ _ => .wrlck
  | .freelistSize => .rdlck

def FreelistOp.body (readOnly : Bool) : FreelistOp → TdbM Unit
  | .free offset rec => tdbFree offset rec
  | .freelistSize =>
    if readOnly then do let _ ← sizeNoMergeLoop (2 ^ 32) freelistTop 0
    else do let _ ← tdbFreelistMergeAdjacent

inductive Pc
  | idle
  | inside (op : FreelistOp)
  deriving DecidableEq

structure Process where
  ctx : TdbContext
  pc : Pc

structure TdbSystem where
  file : TdbFile
  kernel : List KernelLock
  procs : List Process

inductive Step : TdbSystem → TdbSystem → Prop
  | enter {s : TdbSystem} {i : Nat} {p : Process} (op : FreelistOp) {kernel : List KernelLock}
      {ctx : TdbContext} :
      s.procs[i]? = some p → p.pc = .idle →
      tdbLock s.kernel p.ctx (-1) op.ltype = .done 0 kernel ctx →
      Step s { s with kernel := kernel, procs := s.procs.set i ⟨ctx, .inside op⟩ }
  | refuse {s : TdbSystem} {i : Nat} {p : Process} (op : FreelistOp) {ret : Int}
      {kernel : List KernelLock} {ctx : TdbContext} :
      s.procs[i]? = some p → p.pc = .idle →
      tdbLock s.kernel p.ctx (-1) op.ltype = .done ret kernel ctx → ret ≠ 0 →
      Step s { s with kernel := kernel, procs := s.procs.set i ⟨ctx, .idle⟩ }
  | leave {s : TdbSystem} {i : Nat} {p : Process} {op : FreelistOp} :
      s.procs[i]? = some p → p.pc = .inside op →
      Step s
        { file := ((op.body p.ctx.readOnly).run s.file).run.2
          kernel := (tdbUnlock s.kernel p.ctx (-1) op.ltype).2.1
          procs := s.procs.set i ⟨(tdbUnlock s.kernel p.ctx (-1) op.ltype).2.2, .idle⟩ }

def twoFreeFile : TdbFile :=
  ⟨[(176, freeRecord 240 40), (240, freeRecord 0 40)].foldl withRecord
      (setBytes (fun _ ↦ 0) freelistTop (u32Bytes 176)), 304, 1, by decide⟩

def freshContext (pid : Nat) : TdbContext := ⟨pid, 1, false, false, [], ⟨0, .rdlck, 0⟩⟩

def twoProcesses : TdbSystem := ⟨twoFreeFile, [], [⟨freshContext 1, .idle⟩, ⟨freshContext 2, .idle⟩]⟩

theorem tdbFreelistSize_writes_under_shared_lock :
    ∃ s₁ s₂ s₃, Step twoProcesses s₁ ∧ Step s₁ s₂ ∧ Step s₂ s₃ ∧
      s₂.procs.map (·.pc) = [.inside .freelistSize, .inside .freelistSize] ∧
      s₂.kernel = [⟨1, .rdlck, lockOffset (-1), false⟩, ⟨2, .rdlck, lockOffset (-1), false⟩] ∧
      s₃.procs.map (·.pc) = [.idle, .inside .freelistSize] ∧
      freelist s₂.file 10 176 = some [176, 240] ∧ freelist s₃.file 10 176 = some [176] := by
  refine ⟨_, _, _, .enter (i := 0) .freelistSize rfl rfl rfl, .enter (i := 1) .freelistSize rfl rfl rfl,
    .leave (i := 0) rfl rfl, rfl, rfl, rfl, ?_, ?_⟩ <;> decide +kernel

def Process.HoldsAs (p : Process) (kernel : List KernelLock) : Prop :=
  match p.pc with
  | .idle => p.ctx.lockrecs = [] ∧ ∀ l ∈ kernel, l.pid ≠ p.ctx.pid
  | .inside op =>
    p.ctx.lockrecs = [⟨lockOffset (-1), 1, op.ltype⟩] ∧
      ⟨p.ctx.pid, op.ltype, lockOffset (-1), false⟩ ∈ kernel ∧
      ∀ l ∈ kernel, l.pid = p.ctx.pid → l = ⟨p.ctx.pid, op.ltype, lockOffset (-1), false⟩

def Compatible (kernel : List KernelLock) : Prop :=
  ∀ l₁ ∈ kernel, ∀ l₂ ∈ kernel, l₁.pid ≠ l₂.pid → l₁.overlaps l₂.off l₂.toEnd = true →
    conflicting l₁.ltype l₂.ltype = false

def TdbContext.Plain (ctx : TdbContext) : Prop :=
  ctx.allrecordLock.count = 0 ∧ ctx.noLock = false ∧ 0 < ctx.hashSize ∧
    freelistTop + 4 * ctx.hashSize < 2 ^ 32

structure LockInv (s : TdbSystem) : Prop where
  pids : ∀ (i j : Nat) (p q : Process), s.procs[i]? = some p → s.procs[j]? = some q → p.ctx.pid = q.ctx.pid → i = j
  plain : ∀ (i : Nat) (p : Process), s.procs[i]? = some p → p.ctx.Plain
  holds : ∀ (i : Nat) (p : Process), s.procs[i]? = some p → p.HoldsAs s.kernel
  compatible : Compatible s.kernel

structure Initial (s : TdbSystem) : Prop where
  kernel : s.kernel = []
  pids : ∀ (i j : Nat) (p q : Process), s.procs[i]? = some p → s.procs[j]? = some q → p.ctx.pid = q.ctx.pid → i = j
  procs : ∀ (i : Nat) (p : Process), s.procs[i]? = some p → p.pc = .idle ∧ p.ctx.lockrecs = [] ∧ p.ctx.Plain

-- equation lemmas made once, before the proofs below use them in parallel
attribute [local simp] KernelLock.overlaps.eq_1 conflicting.eq_1 dropNestlock.eq_1 tdbLockList.eq_1
  tdbLock.eq_1 tdbNestUnlock.eq_1 tdbUnlock.eq_1 freshContext.eq_1 Process.HoldsAs.eq_1
  Compatible.eq_1
attribute [-simp] KernelLock.overlaps.eq_1 conflicting.eq_1 dropNestlock.eq_1 tdbLockList.eq_1
  tdbLock.eq_1 tdbNestUnlock.eq_1 tdbUnlock.eq_1 freshContext.eq_1 Process.HoldsAs.eq_1
  Compatible.eq_1

theorem Initial.lockInv {s : TdbSystem} (h : Initial s) : LockInv s where
  pids := h.pids
  plain i p hp := (h.procs i p hp).2.2
  holds i p hp := by
    obtain ⟨hpc, hrecs, -⟩ := h.procs i p hp
    simp [Process.HoldsAs, hpc, hrecs, h.kernel]
  compatible := by simp [Compatible, h.kernel]

theorem KernelLock.overlaps_comm (l₁ l₂ : KernelLock) :
    l₁.overlaps l₂.off l₂.toEnd = l₂.overlaps l₁.off l₁.toEnd := by
  unfold KernelLock.overlaps
  cases l₁.toEnd <;> cases l₂.toEnd <;> simp [eq_comm]

theorem conflicting_comm (a b : LockType) : conflicting a b = conflicting b a := by
  cases a <;> cases b <;> rfl

theorem mem_fcntlUnlock {table : List KernelLock} {pid off : Nat} {toEnd : Bool} {l : KernelLock} :
    l ∈ fcntlUnlock table pid off toEnd ↔ l ∈ table ∧ ¬(l.pid = pid ∧ l.off = off ∧ l.toEnd = toEnd) := by
  simp only [fcntlUnlock, List.mem_filter]
  grind

theorem mem_fcntlLock {table table' : List KernelLock} {pid off : Nat} {ltype : LockType}
    {toEnd : Bool} (h : fcntlLock table pid ltype off toEnd = some table') {l : KernelLock} :
    l ∈ table' ↔ l ∈ fcntlUnlock table pid off toEnd ∨ l = ⟨pid, ltype, off, toEnd⟩ := by
  unfold fcntlLock at h
  split_ifs at h
  cases h
  simp

theorem fcntlLock_compatible {table table' : List KernelLock} {pid off : Nat} {ltype : LockType}
    {toEnd : Bool} (hc : Compatible table) (h : fcntlLock table pid ltype off toEnd = some table') :
    Compatible table' := by
  have hfree : ∀ l ∈ table, l.pid ≠ pid → l.overlaps off toEnd = true →
      conflicting l.ltype ltype = false := by
    unfold fcntlLock at h
    split_ifs at h with hany
    simpa using hany
  intro l₁ h₁ l₂ h₂ hpid hov
  rcases (mem_fcntlLock h).mp h₁ with h₁ | rfl <;> rcases (mem_fcntlLock h).mp h₂ with h₂ | rfl
  · exact hc l₁ (mem_fcntlUnlock.mp h₁).1 l₂ (mem_fcntlUnlock.mp h₂).1 hpid hov
  · exact hfree l₁ (mem_fcntlUnlock.mp h₁).1 hpid hov
  · rw [conflicting_comm]
    have hov' := KernelLock.overlaps_comm ⟨pid, ltype, off, toEnd⟩ l₂
    rw [hov'] at hov
    exact hfree l₂ (mem_fcntlUnlock.mp h₂).1 (Ne.symm hpid) hov
  · exact absurd rfl hpid

theorem fcntlUnlock_compatible {table : List KernelLock} {pid off : Nat} {toEnd : Bool}
    (hc : Compatible table) : Compatible (fcntlUnlock table pid off toEnd) :=
  fun l₁ h₁ l₂ h₂ ↦ hc l₁ (mem_fcntlUnlock.mp h₁).1 l₂ (mem_fcntlUnlock.mp h₂).1

theorem Process.HoldsAs.congr {p : Process} {kernel kernel' : List KernelLock}
    (h : ∀ l, l.pid = p.ctx.pid → (l ∈ kernel' ↔ l ∈ kernel)) (hp : p.HoldsAs kernel) :
    p.HoldsAs kernel' := by
  unfold Process.HoldsAs at hp ⊢
  split at hp
  · exact ⟨hp.1, fun l hl hpid ↦ hp.2 l ((h l hpid).mp hl) hpid⟩
  · exact ⟨hp.1, (h _ rfl).mpr hp.2.1, fun l hl hpid ↦ hp.2.2 l ((h l hpid).mp hl) hpid⟩

theorem lockOffset_freelist_lt {hashSize : Nat} (h : 0 < hashSize)
    (h' : freelistTop + 4 * hashSize < 2 ^ 32) : lockOffset (-1) < lockOffset hashSize := by
  simp only [lockOffset, freelistTop] at h' ⊢
  omega

theorem tdbLock_fresh {kernel kernel' : List KernelLock} {ctx ctx' : TdbContext}
    {ltype : LockType} {ret : Int} (hp : ctx.Plain) (hrecs : ctx.lockrecs = [])
    (h : tdbLock kernel ctx (-1) ltype = .done ret kernel' ctx') :
    (ret = 0 ∧ fcntlLock kernel ctx.pid ltype (lockOffset (-1)) false = some kernel' ∧
      ctx' = { ctx with lockrecs := [⟨lockOffset (-1), 1, ltype⟩] }) ∨
    (ret = -1 ∧ kernel' = kernel ∧ ctx' = ctx) := by
  obtain ⟨hall, hnolock, hsize, hfit⟩ := hp
  unfold tdbLock tdbLockList tdbNestLock tdbBrlock at h
  simp only [hall, ne_eq, not_true_eq_false, if_false, hnolock, Bool.false_eq_true, hrecs,
    List.find?_nil, if_neg (Nat.not_le.mpr (lockOffset_freelist_lt hsize hfit))] at h
  by_cases hro : ltype = .wrlck ∧ ctx.readOnly = true
  · rw [if_pos hro] at h
    simp at h
    exact .inr ⟨h.1.symm, h.2.1.symm, h.2.2.symm⟩
  · rw [if_neg hro] at h
    cases hgrant : fcntlLock kernel ctx.pid ltype (lockOffset (-1)) false with
    | none => simp [hgrant] at h
    | some kernel'' =>
      simp only [hgrant] at h
      simp at h
      obtain ⟨rfl, rfl, rfl⟩ := h
      exact .inl ⟨rfl, rfl, by simp [hrecs]⟩

theorem tdbUnlock_held {kernel : List KernelLock} {ctx : TdbContext} {ltype : LockType}
    (hp : ctx.Plain) (hrecs : ctx.lockrecs = [⟨lockOffset (-1), 1, ltype⟩]) :
    tdbUnlock kernel ctx (-1) ltype =
      (0, fcntlUnlock kernel ctx.pid (lockOffset (-1)) false, { ctx with lockrecs := [] }) := by
  obtain ⟨hall, hnolock, hsize, hfit⟩ := hp
  simp [tdbUnlock, tdbNestUnlock, hall, hnolock, hrecs,
    Nat.not_le.mpr (lockOffset_freelist_lt hsize hfit), dropNestlock]

theorem getElem?_set_cases {α : Type} {procs : List α} {i k : Nat} {p p' q : α}
    (hp : procs[i]? = some p) (hq : (procs.set i p')[k]? = some q) :
    (k = i ∧ q = p') ∨ (k ≠ i ∧ procs[k]? = some q) := by
  by_cases hk : k = i
  · subst hk
    have hlen : k < procs.length := (List.getElem?_eq_some_iff.mp hp).1
    rw [List.getElem?_set_self hlen, Option.some_inj] at hq
    exact .inl ⟨rfl, hq.symm⟩
  · rw [List.getElem?_set_ne (Ne.symm hk)] at hq
    exact .inr ⟨hk, hq⟩

theorem LockInv.set {s : TdbSystem} (hs : LockInv s) {i : Nat} {p p' : Process}
    (file : TdbFile) {kernel' : List KernelLock} (hp : s.procs[i]? = some p)
    (hpid : p'.ctx.pid = p.ctx.pid) (hplain : p'.ctx.Plain) (hholds : p'.HoldsAs kernel')
    (hothers : ∀ l, l.pid ≠ p.ctx.pid → (l ∈ kernel' ↔ l ∈ s.kernel))
    (hcompat : Compatible kernel') :
    LockInv ⟨file, kernel', s.procs.set i p'⟩ where
  pids k j q r hq hr hqr := by
    have hwas : ∀ (k : Nat) (q : Process), (s.procs.set i p')[k]? = some q →
        ∃ q₀, s.procs[k]? = some q₀ ∧ q₀.ctx.pid = q.ctx.pid := by
      intro k q hq
      rcases getElem?_set_cases hp hq with ⟨rfl, rfl⟩ | ⟨-, hq⟩
      · exact ⟨p, hp, hpid.symm⟩
      · exact ⟨q, hq, rfl⟩
    obtain ⟨q₀, hq₀, hqq⟩ := hwas k q hq
    obtain ⟨r₀, hr₀, hrr⟩ := hwas j r hr
    exact hs.pids k j q₀ r₀ hq₀ hr₀ (by rw [hqq, hrr, hqr])
  plain k q hq := by
    rcases getElem?_set_cases hp hq with ⟨-, rfl⟩ | ⟨-, hq⟩
    · exact hplain
    · exact hs.plain k q hq
  holds k q hq := by
    rcases getElem?_set_cases hp hq with ⟨-, rfl⟩ | ⟨hk, hq⟩
    · exact hholds
    · have hne : q.ctx.pid ≠ p.ctx.pid := fun h ↦ hk (hs.pids _ _ _ _ hq hp h)
      exact (hs.holds k q hq).congr fun l hl ↦ hothers l (hl ▸ hne)
  compatible := hcompat

theorem Step.lockInv {s s' : TdbSystem} (h : Step s s') (hs : LockInv s) : LockInv s' := by
  cases h with
  | @enter i p op kernel ctx hp hidle hlock =>
    have hplain := hs.plain i p hp
    have hheld := hs.holds i p hp
    simp only [Process.HoldsAs, hidle] at hheld
    rcases tdbLock_fresh hplain hheld.1 hlock with ⟨-, hgrant, rfl⟩ | ⟨h0, -⟩
    · refine hs.set s.file hp rfl hplain ⟨rfl, (mem_fcntlLock hgrant).mpr (.inr rfl), ?_⟩
        (fun l hl ↦ ?_) (fcntlLock_compatible hs.compatible hgrant)
      · intro l hl hpid
        rcases (mem_fcntlLock hgrant).mp hl with hl | rfl
        · exact absurd hpid (hheld.2 l (mem_fcntlUnlock.mp hl).1)
        · rfl
      · rw [mem_fcntlLock hgrant, mem_fcntlUnlock]
        constructor
        · rintro (⟨hl', -⟩ | rfl)
          · exact hl'
          · exact absurd rfl hl
        · intro hl'
          exact .inl ⟨hl', fun h ↦ hl h.1⟩
    · exact absurd h0 (by decide)
  | @refuse i p op ret kernel ctx hp hidle hlock hret =>
    have hplain := hs.plain i p hp
    have hheld := hs.holds i p hp
    simp only [Process.HoldsAs, hidle] at hheld
    rcases tdbLock_fresh hplain hheld.1 hlock with ⟨h0, -⟩ | ⟨-, rfl, rfl⟩
    · exact absurd h0 hret
    · refine hs.set s.file hp rfl hplain ?_ (fun _ _ ↦ Iff.rfl) hs.compatible
      simpa [Process.HoldsAs] using hheld
  | @leave i p op hp hinside =>
    have hplain := hs.plain i p hp
    have hheld := hs.holds i p hp
    simp only [Process.HoldsAs, hinside] at hheld
    rw [tdbUnlock_held hplain hheld.1]
    refine hs.set _ hp rfl hplain ⟨rfl, fun l hl hpid ↦ ?_⟩ (fun l hl ↦ ?_)
      (fcntlUnlock_compatible hs.compatible)
    · obtain ⟨hl, hkey⟩ := mem_fcntlUnlock.mp hl
      exact hkey (by simp [hheld.2.2 l hl hpid])
    · rw [mem_fcntlUnlock]
      exact ⟨And.left, fun hl' ↦ ⟨hl', fun h ↦ hl h.1⟩⟩

theorem LockInv.of_run {s₀ s : TdbSystem} (h₀ : Initial s₀)
    (h : Relation.ReflTransGen Step s₀ s) : LockInv s := by
  induction h with
  | refl => exact h₀.lockInv
  | tail _ hstep ih => exact hstep.lockInv ih

theorem tdbFree_exclusive {s₀ s : TdbSystem} (h₀ : Initial s₀)
    (h : Relation.ReflTransGen Step s₀ s) {i j : Nat} {p q : Process}
    (hp : s.procs[i]? = some p) (hq : s.procs[j]? = some q) (hij : i ≠ j) {offset : Nat}
    {rec : TdbRecord} (hfree : p.pc = .inside (.free offset rec)) : q.pc = .idle := by
  have hs := LockInv.of_run h₀ h
  have hpheld := hs.holds i p hp
  simp only [Process.HoldsAs, hfree] at hpheld
  cases hqpc : q.pc with
  | idle => rfl
  | inside op =>
    exfalso
    have hqheld := hs.holds j q hq
    simp only [Process.HoldsAs, hqpc] at hqheld
    have hpid : p.ctx.pid ≠ q.ctx.pid := fun h ↦ hij (hs.pids i j p q hp hq h)
    have := hs.compatible _ hpheld.2.1 _ hqheld.2.1 hpid (by simp [KernelLock.overlaps])
    simp [FreelistOp.ltype, conflicting] at this

theorem initial_twoProcesses : Initial twoProcesses where
  kernel := rfl
  pids i j p q hp hq hpq := by
    rcases i with _ | _ | i <;> rcases j with _ | _ | j <;>
      simp [twoProcesses] at hp hq <;> subst hp hq <;> simp_all [freshContext]
  procs i p hp := by
    rcases i with _ | _ | i <;> simp [twoProcesses] at hp <;> subst hp <;>
      exact ⟨rfl, rfl, rfl, rfl, by decide⟩

def freeingSystem : TdbSystem :=
  ⟨twoFreeFile, [⟨1, .wrlck, lockOffset (-1), false⟩],
    [⟨{ freshContext 1 with lockrecs := [⟨lockOffset (-1), 1, .wrlck⟩] },
      .inside (.free 240 (freeRecord 0 40))⟩, ⟨freshContext 2, .idle⟩]⟩

theorem tdbFree_exclusive_twoProcesses :
    Initial twoProcesses ∧ Relation.ReflTransGen Step twoProcesses freeingSystem ∧
      ∀ q, freeingSystem.procs[1]? = some q → q.pc = .idle := by
  have hstep : Step twoProcesses freeingSystem :=
    .enter (i := 0) (.free 240 (freeRecord 0 40)) rfl rfl rfl
  exact ⟨initial_twoProcesses, .single hstep, fun q hq ↦
    tdbFree_exclusive initial_twoProcesses (.single hstep) (i := 0) (j := 1) rfl hq (by decide) rfl⟩

end Samba.Tdb.Lock
