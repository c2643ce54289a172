import Samba.Lib.Mask

namespace Samba.Smbd.OpenMode

open Samba.Lib.Mask

def fileReadData : UInt32 := 0x00000001
def fileWriteData : UInt32 := 0x00000002
def fileAppendData : UInt32 := 0x00000004
def fileExecute : UInt32 := 0x00000020
def fileReadAttributes : UInt32 := 0x00000080
def fileWriteAttributes : UInt32 := 0x00000100
def deleteAccess : UInt32 := 0x00010000
def synchronizeAccess : UInt32 := 0x00100000

def fileShareRead : UInt32 := 1
def fileShareWrite : UInt32 := 2
def fileShareDelete : UInt32 := 4

def smb2LeaseRead : UInt32 := 0x01
def smb2LeaseHandle : UInt32 := 0x02
def smb2LeaseWrite : UInt32 := 0x04

inductive NtStatus
  | ok | sharingViolation
  deriving DecidableEq, Repr

/-- `mask_conflict`: the new open wants an access the existing one does not share, or the
existing one has an access the new one does not share. -/
def maskConflict (newAccess existingAccess accessMask newSharemode existingSharemode
    sharemodeMask : UInt32) : Bool :=
  let wantAccess := newAccess &&& accessMask != 0
  let allowExisting := existingSharemode &&& sharemodeMask != 0
  let haveAccess := existingAccess &&& accessMask != 0
  let allowNew := newSharemode &&& sharemodeMask != 0
  if wantAccess && !allowExisting then true
  else if haveAccess && !allowNew then true
  else false

def conflictingAccess : UInt32 :=
  fileWriteData ||| fileAppendData ||| fileReadData ||| fileExecute ||| deleteAccess

/-- `share_conflict`. -/
def shareConflict (eAccessMask eShareAccess accessMask shareAccess : UInt32) : Bool :=
  if eAccessMask &&& conflictingAccess = 0 then false
  else if accessMask &&& conflictingAccess = 0 then false
  else
    maskConflict accessMask eAccessMask (fileWriteData ||| fileAppendData) shareAccess
        eShareAccess fileShareWrite ||
      maskConflict accessMask eAccessMask (fileReadData ||| fileExecute) shareAccess
        eShareAccess fileShareRead ||
      maskConflict accessMask eAccessMask deleteAccess shareAccess eShareAccess fileShareDelete

/-- `is_oplock_stat_open`. -/
def isOplockStatOpen (accessMask : UInt32) : Bool :=
  let statOpenBits := synchronizeAccess ||| fileReadAttributes ||| fileWriteAttributes
  accessMask &&& statOpenBits != 0 && accessMask &&& ~~~statOpenBits == 0

/-- `share_mode_flags` (`open_files.idl`), the bitmap `d->flags`, one field per bit. -/
structure ShareModeFlags where
  shareDelete : Bool
  shareWrite : Bool
  shareRead : Bool
  accessDelete : Bool
  accessWrite : Bool
  accessRead : Bool
  leaseHandle : Bool
  leaseWrite : Bool
  leaseRead : Bool
  deriving DecidableEq, Repr

structure FlagMasks where
  accessMask : UInt32
  shareMode : UInt32
  leaseType : UInt32
  deriving DecidableEq, Repr

/-- `share_mode_flags_get`: each access class comes back as one bit of it. -/
def shareModeFlagsGet (flags : ShareModeFlags) : FlagMasks :=
  ⟨(if flags.accessRead then fileReadData else 0) |||
      (if flags.accessWrite then fileWriteData else 0) |||
      (if flags.accessDelete then deleteAccess else 0),
    (if flags.shareRead then fileShareRead else 0) |||
      (if flags.shareWrite then fileShareWrite else 0) |||
      (if flags.shareDelete then fileShareDelete else 0),
    (if flags.leaseRead then smb2LeaseRead else 0) |||
      (if flags.leaseWrite then smb2LeaseWrite else 0) |||
      (if flags.leaseHandle then smb2LeaseHandle else 0)⟩

def shareModeFlagsOf (accessMask shareMode leaseType : UInt32) : ShareModeFlags :=
  ⟨shareMode &&& fileShareDelete != 0, shareMode &&& fileShareWrite != 0,
    shareMode &&& fileShareRead != 0, accessMask &&& deleteAccess != 0,
    accessMask &&& (fileWriteData ||| fileAppendData) != 0,
    accessMask &&& (fileReadData ||| fileExecute) != 0,
    leaseType &&& smb2LeaseHandle != 0, leaseType &&& smb2LeaseWrite != 0,
    leaseType &&& smb2LeaseRead != 0⟩

/-- `share_mode_flags_set`: the new bitmap, and `*modified` (set when it changed). -/
def shareModeFlagsSet (flags : ShareModeFlags) (accessMask shareMode leaseType : UInt32) :
    ShareModeFlags × Bool :=
  let newFlags := shareModeFlagsOf accessMask shareMode leaseType
  if flags = newFlags then (flags, false) else (newFlags, true)

structure ShareModeEntry where
  accessMask : UInt32
  shareAccess : UInt32
  leaseType : UInt32
  disconnected : Bool
  stale : Bool
  deriving DecidableEq, Repr

def ShareModeEntry.live (e : ShareModeEntry) : Bool := !e.disconnected && !e.stale

structure ShareModeLock where
  flags : ShareModeFlags
  entries : List ShareModeEntry
  deriving DecidableEq, Repr

/-- `struct open_mode_check_state` without the file id. -/
structure OpenModeCheckState where
  accessMask : UInt32
  shareAccess : UInt32
  leaseType : UInt32
  deriving DecidableEq, Repr

def joinEntry (state : OpenModeCheckState) (e : ShareModeEntry) : OpenModeCheckState :=
  ⟨state.accessMask ||| e.accessMask,
    if e.accessMask &&& conflictingAccess != 0 then state.shareAccess &&& e.shareAccess
    else state.shareAccess,
    state.leaseType ||| e.leaseType⟩

/-- `open_mode_check_fn`: the new state, and whether the entry was found stale (the walk
then removes it). The staleness test runs only for an entry that would change the state. -/
def openModeCheckFn (state : OpenModeCheckState) (e : ShareModeEntry) :
    OpenModeCheckState × Bool :=
  if e.disconnected then (state, false)
  else if joinEntry state e = state then (state, false)
  else if e.stale then (state, true)
  else (joinEntry state e, false)

/-- `share_mode_forall_entries` with `open_mode_check_fn`: the final state and the
entries that are kept. -/
def openModeCheckWalk : OpenModeCheckState → List ShareModeEntry →
    OpenModeCheckState × List ShareModeEntry
  | state, [] => (state, [])
  | state, e :: es =>
    let (state', staleFound) := openModeCheckFn state e
    let (final, rest) := openModeCheckWalk state' es
    (final, if staleFound then rest else e :: rest)

def walkStart : OpenModeCheckState := ⟨0, fileShareRead ||| fileShareWrite ||| fileShareDelete, 0⟩

/-- `open_mode_check`: the status and the lock it leaves. -/
def openModeCheck (lck : ShareModeLock) (accessMask shareAccess : UInt32) :
    NtStatus × ShareModeLock :=
  if isOplockStatOpen accessMask then (.ok, lck)
  else
    let stored := shareModeFlagsGet lck.flags
    if !shareConflict stored.accessMask stored.shareMode accessMask shareAccess then (.ok, lck)
    else
      let (state, entries) := openModeCheckWalk walkStart lck.entries
      let (flags, modified) :=
        shareModeFlagsSet lck.flags state.accessMask state.shareAccess state.leaseType
      if !modified then (.sharingViolation, ⟨flags, entries⟩)
      else if !shareConflict state.accessMask state.shareAccess accessMask shareAccess then
        (.ok, ⟨flags, entries⟩)
      else (.sharingViolation, ⟨flags, entries⟩)

inductive ShareClass
  | read | write | delete
  deriving DecidableEq, Repr

def accessBits : ShareClass → UInt32
  | .read => fileReadData ||| fileExecute
  | .write => fileWriteData ||| fileAppendData
  | .delete => deleteAccess

def shareBit : ShareClass → UInt32
  | .read => fileShareRead
  | .write => fileShareWrite
  | .delete => fileShareDelete

def HasClass (m : UInt32) (c : ShareClass) : Prop := m &&& accessBits c ≠ 0

def Shares (s : UInt32) (c : ShareClass) : Prop := s &&& shareBit c ≠ 0

instance (m : UInt32) (c : ShareClass) : Decidable (HasClass m c) :=
  inferInstanceAs (Decidable (_ ≠ _))

instance (s : UInt32) (c : ShareClass) : Decidable (Shares s c) :=
  inferInstanceAs (Decidable (_ ≠ _))

theorem conflictingAccess_ne_zero_iff (m : UInt32) :
    m &&& conflictingAccess ≠ 0 ↔ ∃ c, HasClass m c := by
  have hbits : conflictingAccess =
      accessBits .write ||| accessBits .read ||| accessBits .delete := by decide
  rw [hbits, and_or_ne_zero_iff, and_or_ne_zero_iff]
  constructor
  · rintro ((h | h) | h)
    · exact ⟨.write, h⟩
    · exact ⟨.read, h⟩
    · exact ⟨.delete, h⟩
  · rintro ⟨c, h⟩
    cases c
    · exact .inl (.inr h)
    · exact .inl (.inl h)
    · exact .inr h

theorem hasClass_or {a b : UInt32} {c : ShareClass} :
    HasClass (a ||| b) c ↔ HasClass a c ∨ HasClass b c :=
  or_and_ne_zero_iff a b _

theorem shares_and {a b : UInt32} {c : ShareClass} :
    Shares (a &&& b) c ↔ Shares a c ∧ Shares b c := by
  have hbit : (shareBit c).toNat = 2 ^ (match c with | .read => 0 | .write => 1 | .delete => 2) := by
    cases c <;> rfl
  exact and_and_ne_zero_iff a b hbit

-- equation lemmas made once, before the proofs below use them in parallel
attribute [local simp] shareModeFlagsGet.eq_1 shareModeFlagsOf.eq_1 ShareModeEntry.live.eq_1
  HasClass.eq_1 Shares.eq_1
attribute [-simp] shareModeFlagsGet.eq_1 shareModeFlagsOf.eq_1 ShareModeEntry.live.eq_1
  HasClass.eq_1 Shares.eq_1

theorem maskConflict_iff (newAccess existingAccess newSharemode existingSharemode : UInt32)
    (c : ShareClass) :
    maskConflict newAccess existingAccess (accessBits c) newSharemode existingSharemode
        (shareBit c) = true ↔
      (HasClass newAccess c ∧ ¬Shares existingSharemode c) ∨
        (HasClass existingAccess c ∧ ¬Shares newSharemode c) := by
  unfold maskConflict HasClass Shares
  by_cases hw : newAccess &&& accessBits c ≠ 0 <;> by_cases he : existingSharemode &&& shareBit c ≠ 0 <;>
    by_cases hh : existingAccess &&& accessBits c ≠ 0 <;>
    by_cases hn : newSharemode &&& shareBit c ≠ 0 <;> simp_all

theorem shareConflict_iff {eAccessMask eShareAccess accessMask shareAccess : UInt32} :
    shareConflict eAccessMask eShareAccess accessMask shareAccess = true ↔
      (∃ c, HasClass eAccessMask c) ∧ (∃ c, HasClass accessMask c) ∧
        ∃ c, (HasClass accessMask c ∧ ¬Shares eShareAccess c) ∨
          (HasClass eAccessMask c ∧ ¬Shares shareAccess c) := by
  have hwrite := maskConflict_iff accessMask eAccessMask shareAccess eShareAccess .write
  have hread := maskConflict_iff accessMask eAccessMask shareAccess eShareAccess .read
  have hdelete := maskConflict_iff accessMask eAccessMask shareAccess eShareAccess .delete
  simp only [accessBits, shareBit] at hwrite hread hdelete
  unfold shareConflict
  rw [← conflictingAccess_ne_zero_iff, ← conflictingAccess_ne_zero_iff]
  by_cases he : eAccessMask &&& conflictingAccess = 0
  · simp [he]
  by_cases ha : accessMask &&& conflictingAccess = 0
  · simp [ha]
  simp only [he, ha, if_false, Bool.or_eq_true, hwrite, hread, hdelete, ne_eq,
    not_false_eq_true, true_and]
  constructor
  · rintro ((h | h) | h)
    · exact ⟨.write, h⟩
    · exact ⟨.read, h⟩
    · exact ⟨.delete, h⟩
  · rintro ⟨c, h⟩
    cases c
    · exact .inl (.inr h)
    · exact .inl (.inl h)
    · exact .inr h

theorem shareConflict_congr {a a' s s' : UInt32} (hacc : ∀ c, HasClass a c ↔ HasClass a' c)
    (hshare : ∀ c, Shares s c ↔ Shares s' c) (accessMask shareAccess : UInt32) :
    shareConflict a s accessMask shareAccess = shareConflict a' s' accessMask shareAccess := by
  apply Bool.eq_iff_iff.mpr
  simp only [shareConflict_iff, hacc, hshare]

def ShareModeFlags.access (flags : ShareModeFlags) : ShareClass → Bool
  | .read => flags.accessRead
  | .write => flags.accessWrite
  | .delete => flags.accessDelete

def ShareModeFlags.share (flags : ShareModeFlags) : ShareClass → Bool
  | .read => flags.shareRead
  | .write => flags.shareWrite
  | .delete => flags.shareDelete

attribute [local simp] ShareModeFlags.access.eq_1 ShareModeFlags.share.eq_1
attribute [-simp] ShareModeFlags.access.eq_1 ShareModeFlags.share.eq_1

theorem hasClass_shareModeFlagsGet (flags : ShareModeFlags) (c : ShareClass) :
    HasClass (shareModeFlagsGet flags).accessMask c ↔ flags.access c = true := by
  obtain ⟨_, _, _, d, w, r, _, _, _⟩ := flags
  cases c <;> cases d <;> cases w <;> cases r <;>
    simp only [shareModeFlagsGet, ShareModeFlags.access] <;> decide +revert

theorem shares_shareModeFlagsGet (flags : ShareModeFlags) (c : ShareClass) :
    Shares (shareModeFlagsGet flags).shareMode c ↔ flags.share c = true := by
  obtain ⟨d, w, r, _, _, _, _, _, _⟩ := flags
  cases c <;> cases d <;> cases w <;> cases r <;>
    simp only [shareModeFlagsGet, ShareModeFlags.share] <;> decide +revert

theorem access_shareModeFlagsOf (accessMask shareMode leaseType : UInt32) (c : ShareClass) :
    (shareModeFlagsOf accessMask shareMode leaseType).access c = true ↔ HasClass accessMask c := by
  cases c <;> simp [shareModeFlagsOf, ShareModeFlags.access, HasClass, accessBits]

theorem share_shareModeFlagsOf (accessMask shareMode leaseType : UInt32) (c : ShareClass) :
    (shareModeFlagsOf accessMask shareMode leaseType).share c = true ↔ Shares shareMode c := by
  cases c <;> simp [shareModeFlagsOf, ShareModeFlags.share, Shares, shareBit]

theorem shareConflict_shareModeFlagsOf (a s l accessMask shareAccess : UInt32) :
    shareConflict (shareModeFlagsGet (shareModeFlagsOf a s l)).accessMask
        (shareModeFlagsGet (shareModeFlagsOf a s l)).shareMode accessMask shareAccess =
      shareConflict a s accessMask shareAccess :=
  shareConflict_congr (fun c ↦ by rw [hasClass_shareModeFlagsGet, access_shareModeFlagsOf])
    (fun c ↦ by rw [shares_shareModeFlagsGet, share_shareModeFlagsOf]) accessMask shareAccess

theorem openModeCheckFn_fst (state : OpenModeCheckState) (e : ShareModeEntry) :
    (openModeCheckFn state e).1 = if e.live then joinEntry state e else state := by
  unfold openModeCheckFn ShareModeEntry.live
  by_cases hd : e.disconnected <;> by_cases hj : joinEntry state e = state <;>
    by_cases hs : e.stale <;> simp [hd, hj, hs]

theorem live_of_openModeCheckFn_snd {state : OpenModeCheckState} {e : ShareModeEntry}
    (h : (openModeCheckFn state e).2 = true) : e.live = false := by
  unfold openModeCheckFn at h
  split_ifs at h with hd hj hs
  simp [ShareModeEntry.live, hs]

theorem openModeCheckWalk_fst (state : OpenModeCheckState) (es : List ShareModeEntry) :
    (openModeCheckWalk state es).1 = (es.filter ShareModeEntry.live).foldl joinEntry state := by
  induction es generalizing state with
  | nil => rfl
  | cons e es ih =>
    simp only [openModeCheckWalk, ih, openModeCheckFn_fst, List.filter_cons]
    by_cases hl : e.live <;> simp [hl]

theorem openModeCheckWalk_snd_sublist (state : OpenModeCheckState) (es : List ShareModeEntry) :
    (openModeCheckWalk state es).2.Sublist es := by
  induction es generalizing state with
  | nil => exact List.Sublist.refl _
  | cons e es ih =>
    simp only [openModeCheckWalk]
    split
    · exact (ih _).cons e
    · exact (ih _).cons_cons e

theorem filter_live_openModeCheckWalk (state : OpenModeCheckState) (es : List ShareModeEntry) :
    (openModeCheckWalk state es).2.filter ShareModeEntry.live = es.filter ShareModeEntry.live := by
  induction es generalizing state with
  | nil => rfl
  | cons e es ih =>
    simp only [openModeCheckWalk]
    split
    · rename_i hstale
      rw [ih, List.filter_cons, live_of_openModeCheckFn_snd hstale]
      rfl
    · rw [List.filter_cons, List.filter_cons, ih]

structure Covers (accessMask shareMode : UInt32) (es : List ShareModeEntry) : Prop where
  access : ∀ e ∈ es, e.live = true → ∀ c, HasClass e.accessMask c → HasClass accessMask c
  share : ∀ e ∈ es, e.live = true → e.accessMask &&& conflictingAccess ≠ 0 →
    ∀ c, Shares shareMode c → Shares e.shareAccess c

structure Summarizes (accessMask shareMode : UInt32) (es : List ShareModeEntry) : Prop where
  access : ∀ c, HasClass accessMask c ↔ ∃ e ∈ es, e.live = true ∧ HasClass e.accessMask c
  share : ∀ c, Shares shareMode c ↔
    ∀ e ∈ es, e.live = true → e.accessMask &&& conflictingAccess ≠ 0 → Shares e.shareAccess c

theorem Summarizes.covers {a s : UInt32} {es : List ShareModeEntry} (h : Summarizes a s es) :
    Covers a s es :=
  ⟨fun e he hl c hc ↦ (h.access c).mpr ⟨e, he, hl, hc⟩,
    fun e he hl hconf c hs ↦ (h.share c).mp hs e he hl hconf⟩

theorem Covers.sublist {a s : UInt32} {es es' : List ShareModeEntry} (h : Covers a s es)
    (hsub : es'.Sublist es) : Covers a s es' :=
  ⟨fun e he ↦ h.access e (hsub.subset he), fun e he ↦ h.share e (hsub.subset he)⟩

theorem Summarizes.congr {a a' s s' : UInt32} {es : List ShareModeEntry} (h : Summarizes a s es)
    (hacc : ∀ c, HasClass a c ↔ HasClass a' c) (hshare : ∀ c, Shares s c ↔ Shares s' c) :
    Summarizes a' s' es :=
  ⟨fun c ↦ (hacc c).symm.trans (h.access c), fun c ↦ (hshare c).symm.trans (h.share c)⟩

theorem shareConflict_of_covers {a s : UInt32} {es : List ShareModeEntry} (hcov : Covers a s es)
    {e : ShareModeEntry} (he : e ∈ es) (hl : e.live = true) {accessMask shareAccess : UInt32}
    (h : shareConflict e.accessMask e.shareAccess accessMask shareAccess = true) :
    shareConflict a s accessMask shareAccess = true := by
  rw [shareConflict_iff] at h ⊢
  obtain ⟨⟨c₀, hc₀⟩, hwant, c, hc⟩ := h
  have hconf : e.accessMask &&& conflictingAccess ≠ 0 :=
    (conflictingAccess_ne_zero_iff _).mpr ⟨c₀, hc₀⟩
  refine ⟨⟨c₀, hcov.access e he hl c₀ hc₀⟩, hwant, c, ?_⟩
  rcases hc with ⟨hA, hnot⟩ | ⟨hE, hnot⟩
  · exact .inl ⟨hA, fun hs ↦ hnot (hcov.share e he hl hconf c hs)⟩
  · exact .inr ⟨hcov.access e he hl c hE, hnot⟩

theorem exists_shareConflict_of_summarizes {a s : UInt32} {es : List ShareModeEntry}
    (hsum : Summarizes a s es) {accessMask shareAccess : UInt32}
    (h : shareConflict a s accessMask shareAccess = true) :
    ∃ e ∈ es, e.live = true ∧ shareConflict e.accessMask e.shareAccess accessMask shareAccess = true := by
  rw [shareConflict_iff] at h
  obtain ⟨-, hwant, c, hc⟩ := h
  rcases hc with ⟨hA, hnot⟩ | ⟨hE, hnot⟩
  · have : ¬∀ e ∈ es, e.live = true → e.accessMask &&& conflictingAccess ≠ 0 →
        Shares e.shareAccess c := fun hall ↦ hnot ((hsum.share c).mpr hall)
    push Not at this
    obtain ⟨e, he, hl, hconf, hns⟩ := this
    refine ⟨e, he, hl, shareConflict_iff.mpr ⟨(conflictingAccess_ne_zero_iff _).mp hconf, hwant, c,
      .inl ⟨hA, hns⟩⟩⟩
  · obtain ⟨e, he, hl, hec⟩ := (hsum.access c).mp hE
    exact ⟨e, he, hl, shareConflict_iff.mpr ⟨⟨c, hec⟩, hwant, c, .inr ⟨hec, hnot⟩⟩⟩

theorem hasClass_joinEntry (state : OpenModeCheckState) (e : ShareModeEntry) (c : ShareClass) :
    HasClass (joinEntry state e).accessMask c ↔ HasClass state.accessMask c ∨ HasClass e.accessMask c :=
  hasClass_or

theorem shares_joinEntry (state : OpenModeCheckState) (e : ShareModeEntry) (c : ShareClass) :
    Shares (joinEntry state e).shareAccess c ↔
      Shares state.shareAccess c ∧ (e.accessMask &&& conflictingAccess ≠ 0 → Shares e.shareAccess c) := by
  unfold joinEntry
  by_cases hconf : e.accessMask &&& conflictingAccess = 0
  · simp [hconf]
  · simp only [hconf, bne_iff_ne, ne_eq, not_false_eq_true, if_true, shares_and, forall_const]

theorem hasClass_foldl_joinEntry (es : List ShareModeEntry) (state : OpenModeCheckState)
    (c : ShareClass) :
    HasClass (es.foldl joinEntry state).accessMask c ↔
      HasClass state.accessMask c ∨ ∃ e ∈ es, HasClass e.accessMask c := by
  induction es generalizing state with
  | nil => simp
  | cons e es ih =>
    rw [List.foldl_cons, ih, hasClass_joinEntry]
    simp only [List.mem_cons, exists_eq_or_imp]
    tauto

theorem shares_foldl_joinEntry (es : List ShareModeEntry) (state : OpenModeCheckState)
    (c : ShareClass) :
    Shares (es.foldl joinEntry state).shareAccess c ↔
      Shares state.shareAccess c ∧
        ∀ e ∈ es, e.accessMask &&& conflictingAccess ≠ 0 → Shares e.shareAccess c := by
  induction es generalizing state with
  | nil => simp
  | cons e es ih =>
    rw [List.foldl_cons, ih, shares_joinEntry]
    simp only [List.mem_cons, forall_eq_or_imp]
    tauto

theorem openModeCheckWalk_summarizes (es : List ShareModeEntry) :
    Summarizes (openModeCheckWalk walkStart es).1.accessMask
      (openModeCheckWalk walkStart es).1.shareAccess es := by
  rw [openModeCheckWalk_fst]
  have hnone : ∀ c, ¬HasClass walkStart.accessMask c := by
    intro c
    cases c <;> decide
  have hall : ∀ c, Shares walkStart.shareAccess c := by
    intro c
    cases c <;> decide
  refine ⟨fun c ↦ ?_, fun c ↦ ?_⟩
  · rw [hasClass_foldl_joinEntry]
    simp [hnone c, List.mem_filter, and_assoc]
  · rw [shares_foldl_joinEntry]
    simp [hall c, List.mem_filter]

theorem flagsSummarize_openModeCheckWalk (es : List ShareModeEntry) :
    Summarizes
      (shareModeFlagsGet (shareModeFlagsOf (openModeCheckWalk walkStart es).1.accessMask
        (openModeCheckWalk walkStart es).1.shareAccess (openModeCheckWalk walkStart es).1.leaseType)).accessMask
      (shareModeFlagsGet (shareModeFlagsOf (openModeCheckWalk walkStart es).1.accessMask
        (openModeCheckWalk walkStart es).1.shareAccess (openModeCheckWalk walkStart es).1.leaseType)).shareMode
      es :=
  (openModeCheckWalk_summarizes es).congr
    (fun c ↦ by rw [hasClass_shareModeFlagsGet, access_shareModeFlagsOf])
    (fun c ↦ by rw [shares_shareModeFlagsGet, share_shareModeFlagsOf])

def FlagsCover (lck : ShareModeLock) : Prop :=
  Covers (shareModeFlagsGet lck.flags).accessMask (shareModeFlagsGet lck.flags).shareMode lck.entries

theorem openModeCheck_exact (lck : ShareModeLock) (hcover : FlagsCover lck)
    (accessMask shareAccess : UInt32) :
    ((openModeCheck lck accessMask shareAccess).1 = .sharingViolation ↔
      isOplockStatOpen accessMask = false ∧
        ∃ e ∈ lck.entries, e.live = true ∧
          shareConflict e.accessMask e.shareAccess accessMask shareAccess = true) ∧
    FlagsCover (openModeCheck lck accessMask shareAccess).2 ∧
    (openModeCheck lck accessMask shareAccess).2.entries.filter ShareModeEntry.live =
      lck.entries.filter ShareModeEntry.live := by
  unfold openModeCheck
  by_cases hstat : isOplockStatOpen accessMask = true
  · simp [hstat, hcover]
  rw [if_neg hstat]
  dsimp only
  by_cases hfast : shareConflict (shareModeFlagsGet lck.flags).accessMask
      (shareModeFlagsGet lck.flags).shareMode accessMask shareAccess = true
  swap
  · rw [if_pos (by simpa using hfast)]
    refine ⟨⟨fun h ↦ NtStatus.noConfusion h, ?_⟩, hcover, rfl⟩
    rintro ⟨-, e, he, hl, hconf⟩
    exact (hfast (shareConflict_of_covers hcover he hl hconf)).elim
  rw [if_neg (by simpa using hfast)]
  have hsum := flagsSummarize_openModeCheckWalk lck.entries
  have hsub := openModeCheckWalk_snd_sublist walkStart lck.entries
  have hkeep := filter_live_openModeCheckWalk walkStart lck.entries
  generalize openModeCheckWalk walkStart lck.entries = w at hsum hsub hkeep ⊢
  have hrecheck := shareConflict_shareModeFlagsOf w.1.accessMask w.1.shareAccess w.1.leaseType
    accessMask shareAccess
  have hcov : Covers (shareModeFlagsGet (shareModeFlagsOf w.1.accessMask w.1.shareAccess
      w.1.leaseType)).accessMask (shareModeFlagsGet (shareModeFlagsOf w.1.accessMask
      w.1.shareAccess w.1.leaseType)).shareMode w.2 := hsum.covers.sublist hsub
  by_cases hmod : lck.flags = shareModeFlagsOf w.1.accessMask w.1.shareAccess w.1.leaseType
  · have hset : shareModeFlagsSet lck.flags w.1.accessMask w.1.shareAccess w.1.leaseType =
        (lck.flags, false) := by
      unfold shareModeFlagsSet
      rw [if_pos hmod]
    rw [hset]
    dsimp only
    rw [if_pos (Bool.not_false ▸ rfl)]
    rw [← hmod] at hsum hcov
    exact ⟨⟨fun _ ↦ ⟨Bool.not_eq_true _ ▸ hstat, exists_shareConflict_of_summarizes hsum hfast⟩,
      fun _ ↦ rfl⟩, hcov, hkeep⟩
  have hset : shareModeFlagsSet lck.flags w.1.accessMask w.1.shareAccess w.1.leaseType =
      (shareModeFlagsOf w.1.accessMask w.1.shareAccess w.1.leaseType, true) := by
    unfold shareModeFlagsSet
    rw [if_neg hmod]
  rw [hset]
  dsimp only
  rw [if_neg (by decide)]
  by_cases hconf : shareConflict w.1.accessMask w.1.shareAccess accessMask shareAccess = true
  · rw [if_neg (by simpa using hconf)]
    refine ⟨⟨fun _ ↦ ⟨Bool.not_eq_true _ ▸ hstat, ?_⟩, fun _ ↦ rfl⟩, hcov, hkeep⟩
    apply exists_shareConflict_of_summarizes hsum
    rw [hrecheck]
    exact hconf
  · rw [if_pos (by simpa using hconf)]
    refine ⟨⟨fun h ↦ NtStatus.noConfusion h, ?_⟩, hcov, hkeep⟩
    rintro ⟨-, e, he, hl, he_conf⟩
    have := shareConflict_of_covers hsum.covers he hl he_conf
    rw [hrecheck] at this
    exact (hconf this).elim

def reader : ShareModeEntry := ⟨fileReadData, fileShareRead, 0, false, false⟩

def readerLock : ShareModeLock := ⟨shareModeFlagsOf fileReadData fileShareRead 0, [reader]⟩

theorem readerLock_flagsCover : FlagsCover readerLock :=
  ⟨fun e he _ c hc ↦ by
      rw [readerLock, List.mem_singleton] at he
      subst he
      cases c <;> revert hc <;> decide,
    fun e he _ _ c hs ↦ by
      rw [readerLock, List.mem_singleton] at he
      subst he
      cases c <;> revert hs <;> decide⟩

theorem openModeCheck_exact_writer :
    ((openModeCheck readerLock fileWriteData (fileShareRead ||| fileShareWrite)).1 =
        .sharingViolation ↔
      isOplockStatOpen fileWriteData = false ∧
        ∃ e ∈ readerLock.entries, e.live = true ∧
          shareConflict e.accessMask e.shareAccess fileWriteData
            (fileShareRead ||| fileShareWrite) = true) ∧
    FlagsCover (openModeCheck readerLock fileWriteData (fileShareRead ||| fileShareWrite)).2 ∧
    (openModeCheck readerLock fileWriteData (fileShareRead ||| fileShareWrite)).2.entries.filter
        ShareModeEntry.live = readerLock.entries.filter ShareModeEntry.live :=
  openModeCheck_exact readerLock readerLock_flagsCover fileWriteData (fileShareRead ||| fileShareWrite)

end Samba.Smbd.OpenMode
