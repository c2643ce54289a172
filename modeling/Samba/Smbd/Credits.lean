import Samba.Lib.SeqWindow

namespace Samba.Smbd.Credits

open Samba.Lib.SeqWindow

/-- `xconn->smb2.credits`: `seq_low` is a `uint64_t`, `seq_range`, `granted` and
`max` are `uint16_t`, and `bitmap` holds the set bits. -/
structure Smb2Credits where
  seqLow : Nat
  seqRange : Nat
  granted : Nat
  max : Nat
  multicredit : Bool
  bitmap : Finset Nat
  deriving DecidableEq

structure Smb2Header where
  messageId : Nat
  opcode : Nat
  creditCharge : Nat
  credit : Nat
  deriving DecidableEq, Repr

def smb2OpNegprot : Nat := 0x00
def smb2OpSesssetup : Nat := 0x01
def smb2OpCreate : Nat := 0x05
def smb2OpCancel : Nat := 0x0c
def smb2HdrFlagAsync : Nat := 0x02

/-- `smbd_initialize_smb2`: one credit, for the id the client is expected to
send first, and `max` from `smb2 max credits`. -/
def smbdInitializeSmb2 (expectedSeqLow max : Nat) (multicredit : Bool) : Smb2Credits :=
  ⟨expectedSeqLow, 1, 1, max, multicredit, ∅⟩

def advanceWindow : Nat → Smb2Credits → Smb2Credits
  | 0, c => c
  | fuel + 1, c =>
    if c.seqLow % c.max ∈ c.bitmap then
      advanceWindow fuel { c with
        bitmap := c.bitmap.erase (c.seqLow % c.max)
        seqLow := (c.seqLow + 1) % 2 ^ 64
        seqRange := (c.seqRange + 2 ^ 16 - 1) % 2 ^ 16 }
    else c

/-- `smb2_validate_sequence_number(xconn, message_id, seq_id)`: `none` is
`false`. -/
def smb2ValidateSequenceNumber (c : Smb2Credits) (seqId : Nat) : Option Smb2Credits :=
  if seqId < c.seqLow then none
  else if (c.seqLow + c.seqRange) % 2 ^ 64 ≤ seqId then none
  else
    let offset := seqId % c.max
    if offset ∈ c.bitmap then none
    else
      let c' := { c with bitmap := insert offset c.bitmap }
      if seqId ≠ c.seqLow then some c'
      else some (advanceWindow c'.bitmap.card c')

def smb2ValidateSequenceNumbers (c : Smb2Credits) : List Nat → Option Smb2Credits
  | [] => some c
  | id :: ids => (smb2ValidateSequenceNumber c id).bind (smb2ValidateSequenceNumbers · ids)

def creditCharge (c : Smb2Credits) (hdr : Smb2Header) : Nat :=
  if c.multicredit then Nat.max hdr.creditCharge 1 else 1

def chargedIds (c : Smb2Credits) (hdr : Smb2Header) : List Nat :=
  (List.range (creditCharge c hdr)).map (fun i ↦ (hdr.messageId + i) % 2 ^ 64)

/-- `smb2_validate_message_id`: `none` is `false`. A cancel resends an id. -/
def smb2ValidateMessageId (c : Smb2Credits) (hdr : Smb2Header) : Option Smb2Credits :=
  if hdr.opcode = smb2OpCancel then some c
  else if c.granted < creditCharge c hdr then none
  else (smb2ValidateSequenceNumbers c (chargedIds c hdr)).map
    fun c' ↦ { c' with granted := c'.granted - creditCharge c hdr }

def creditsWanted (c : Smb2Credits) (inhdr : Smb2Header) (outFlags : Nat) (outStatusOk : Bool) :
    Nat :=
  if outFlags &&& smb2HdrFlagAsync ≠ 0 then 0
  else
    let charge := creditCharge c inhdr
    let additionalPossible := (c.max - charge) % 2 ^ 16
    let additionalCredits := Nat.max inhdr.credit 1 - 1
    let additionalMax :=
      if inhdr.opcode = smb2OpNegprot then 0
      else if inhdr.opcode = smb2OpSesssetup then (if outStatusOk then c.max else 0)
      else c.max
    let additionalMax := min additionalMax additionalPossible
    (charge + min additionalCredits additionalMax) % 2 ^ 16

/-- `credits_possible`: the ids left before `UINT64_MAX`, which is kept for
break notifications, at most `max`, less the window already granted, all in
`uint64_t`. -/
def creditsPossible (c : Smb2Credits) : Nat :=
  let possible := 2 ^ 64 - 1 - c.seqLow
  let possible := if possible > 0 then possible - 1 else possible
  let possible := min possible (Nat.max c.max 1)
  (possible + 2 ^ 64 - c.seqRange) % 2 ^ 64

inductive CreditOutcome
  | granted (c : Smb2Credits) (credits : Nat)
  /-- `SMB_ASSERT(max >= granted)` failed: `smb_panic` -/
  | panic
  | terminate
  deriving DecidableEq

/-- `smb2_set_operation_credit` on the response to `inhdr`. -/
def smb2SetOperationCredit (c : Smb2Credits) (inhdr : Smb2Header) (outFlags : Nat)
    (outStatusOk : Bool) : CreditOutcome :=
  if c.max < c.granted then .panic
  else if c.max < creditCharge c inhdr then .terminate
  else
    let credits := min (creditsWanted c inhdr outFlags outStatusOk) (creditsPossible c)
    .granted { c with
      granted := (c.granted + credits) % 2 ^ 16
      seqRange := (c.seqRange + credits) % 2 ^ 16 } credits

inductive CreditEvent
  | request (hdr : Smb2Header)
  | response (inhdr : Smb2Header) (outFlags : Nat) (outStatusOk : Bool)
  | multicreditOn

structure CreditRun where
  credits : Smb2Credits
  accepted : List Nat
  totalGranted : Nat
  deriving DecidableEq

def requestIds (c : Smb2Credits) (hdr : Smb2Header) : List Nat :=
  if hdr.opcode = smb2OpCancel then [] else chargedIds c hdr

def creditStep (r : CreditRun) : CreditEvent → Option CreditRun
  | .request hdr =>
    (smb2ValidateMessageId r.credits hdr).map
      fun c ↦ ⟨c, r.accepted ++ requestIds r.credits hdr, r.totalGranted⟩
  | .response inhdr outFlags outStatusOk =>
    if r.accepted = [] then none else
    match smb2SetOperationCredit r.credits inhdr outFlags outStatusOk with
    | .granted c credits => some ⟨c, r.accepted, r.totalGranted + credits⟩
    | _ => none
  | .multicreditOn => some { r with credits := { r.credits with multicredit := true } }

def creditRun (r : CreditRun) : List CreditEvent → Option CreditRun
  | [] => some r
  | ev :: evs => (creditStep r ev).bind (creditRun · evs)

def initialRun (expectedSeqLow max : Nat) (multicredit : Bool) : CreditRun :=
  ⟨smbdInitializeSmb2 expectedSeqLow max multicredit, [], 0⟩

structure WindowInv (c : Smb2Credits) (used : List Nat) : Prop where
  max_pos : 0 < c.max
  max_lt : c.max < 2 ^ 16
  range_le : c.seqRange ≤ c.max
  no_wrap : c.seqLow + c.seqRange ≤ 2 ^ 64 - 2
  bitmap_eq : c.bitmap = windowBits c.max used c.seqLow c.seqRange
  below : ∀ id ∈ used, id < c.seqLow + c.seqRange
  nodup : used.Nodup

structure WindowStep (used : List Nat) (c c' : Smb2Credits) (n : Nat) : Prop where
  inv : WindowInv c' used
  end_eq : c'.seqLow + c'.seqRange = c.seqLow + c.seqRange
  range_le : c'.seqRange ≤ c.seqRange
  card_eq : c'.bitmap.card + (c.seqRange - c'.seqRange) = c.bitmap.card + n
  granted : c'.granted = c.granted
  max : c'.max = c.max
  multicredit : c'.multicredit = c.multicredit

theorem WindowStep.trans {used used' : List Nat} {c c₁ c₂ : Smb2Credits} {n₁ n₂ : Nat}
    (h₁ : WindowStep used c c₁ n₁) (h₂ : WindowStep used' c₁ c₂ n₂) :
    WindowStep used' c c₂ (n₁ + n₂) where
  inv := h₂.inv
  end_eq := h₂.end_eq.trans h₁.end_eq
  range_le := h₂.range_le.trans h₁.range_le
  card_eq := by have := h₁.card_eq; have := h₂.card_eq; have := h₁.range_le; have := h₂.range_le; omega
  granted := h₂.granted.trans h₁.granted
  max := h₂.max.trans h₁.max
  multicredit := h₂.multicredit.trans h₁.multicredit

namespace WindowInv

variable {c : Smb2Credits} {used : List Nat}

-- equation lemmas made once, before the proofs below use them in parallel
attribute [local simp] Samba.Lib.SeqWindow.InWindow.eq_1 smbdInitializeSmb2.eq_1 chargedIds.eq_1
  creditsPossible.eq_1 requestIds.eq_1 initialRun.eq_1
attribute [-simp] Samba.Lib.SeqWindow.InWindow.eq_1 smbdInitializeSmb2.eq_1 chargedIds.eq_1
  creditsPossible.eq_1 requestIds.eq_1 initialRun.eq_1

theorem low_mem_bitmap_iff (h : WindowInv c used) :
    c.seqLow % c.max ∈ c.bitmap ↔ c.seqLow ∈ used := by
  by_cases hR : 0 < c.seqRange
  · rw [h.bitmap_eq]
    exact mod_mem_windowBits_iff h.range_le ⟨le_rfl, by omega⟩
  · have hnot : c.seqLow ∉ used := fun hmem ↦ by have := h.below _ hmem; omega
    rw [h.bitmap_eq, mem_windowBits]
    simp only [hnot, iff_false, not_exists, not_and]
    intro x _ hx
    exact absurd hx (by unfold InWindow; omega)

end WindowInv

theorem advanceWindow_step (fuel : Nat) {c : Smb2Credits} {used : List Nat}
    (h : WindowInv c used) (hfuel : c.bitmap.card ≤ fuel) :
    WindowStep used c (advanceWindow fuel c) 0 ∧ (advanceWindow fuel c).seqLow ∉ used := by
  induction fuel generalizing c with
  | zero =>
    have hempty : c.bitmap = ∅ := Finset.card_eq_zero.1 (Nat.le_zero.1 hfuel)
    show WindowStep used c c 0 ∧ c.seqLow ∉ used
    refine ⟨⟨h, rfl, le_rfl, by simp, rfl, rfl, rfl⟩, fun hmem ↦ ?_⟩
    have := h.low_mem_bitmap_iff.2 hmem
    simp [hempty] at this
  | succ fuel ih =>
    by_cases hmark : c.seqLow % c.max ∈ c.bitmap
    · have hlow : c.seqLow ∈ used := h.low_mem_bitmap_iff.1 hmark
      have hR : 0 < c.seqRange := by have := h.below _ hlow; omega
      have hmax := h.max_lt
      have hrange := h.range_le
      have hwrap := h.no_wrap
      have hlow1 : (c.seqLow + 1) % 2 ^ 64 = c.seqLow + 1 := Nat.mod_eq_of_lt (by omega)
      have hrange1 : (c.seqRange + 2 ^ 16 - 1) % 2 ^ 16 = c.seqRange - 1 := by omega
      let c₁ : Smb2Credits := { c with
        bitmap := c.bitmap.erase (c.seqLow % c.max)
        seqLow := (c.seqLow + 1) % 2 ^ 64
        seqRange := (c.seqRange + 2 ^ 16 - 1) % 2 ^ 16 }
      have h₁ : WindowInv c₁ used :=
        { max_pos := h.max_pos
          max_lt := h.max_lt
          range_le := by simp only [c₁, hrange1]; omega
          no_wrap := by simp only [c₁, hlow1, hrange1]; omega
          bitmap_eq := by
            simp only [c₁, hlow1, hrange1, h.bitmap_eq]
            exact (windowBits_succ_low h.range_le ⟨le_rfl, by omega⟩).symm
          below := by
            simp only [c₁, hlow1, hrange1]
            intro id hid
            have := h.below id hid
            omega
          nodup := h.nodup }
      have hcard : (c.bitmap.erase (c.seqLow % c.max)).card + 1 = c.bitmap.card :=
        Finset.card_erase_add_one hmark
      obtain ⟨hstep, hfresh⟩ := ih h₁ (by simp only [c₁]; omega)
      have hadv : advanceWindow (fuel + 1) c = advanceWindow fuel c₁ := by
        rw [advanceWindow, if_pos hmark]
      rw [hadv]
      have hfirst : WindowStep used c c₁ 0 :=
        ⟨h₁, by simp only [c₁, hlow1, hrange1]; omega, by simp only [c₁, hrange1]; omega,
          by simp only [c₁, hrange1]; omega, rfl, rfl, rfl⟩
      exact ⟨hfirst.trans hstep, hfresh⟩
    · have hadv : advanceWindow (fuel + 1) c = c := by simp only [advanceWindow, hmark, if_false]
      rw [hadv]
      exact ⟨⟨h, rfl, le_rfl, by simp, rfl, rfl, rfl⟩,
        fun hmem ↦ hmark (h.low_mem_bitmap_iff.2 hmem)⟩

theorem smb2ValidateSequenceNumber_step {c c' : Smb2Credits} {used : List Nat} {id : Nat}
    (h : WindowInv c used) (hlow : c.seqLow ∉ used)
    (hv : smb2ValidateSequenceNumber c id = some c') :
    InWindow c.seqLow c.seqRange id ∧ id ∉ used ∧ WindowStep (used ++ [id]) c c' 1 ∧
      c'.seqLow ∉ used ++ [id] := by
  have hwrap := h.no_wrap
  have hend : (c.seqLow + c.seqRange) % 2 ^ 64 = c.seqLow + c.seqRange :=
    Nat.mod_eq_of_lt (by omega)
  unfold smb2ValidateSequenceNumber at hv
  rw [hend] at hv
  dsimp only at hv
  split_ifs at hv with hlt hge hmarked hne
  all_goals
    have hwin : InWindow c.seqLow c.seqRange id := ⟨Nat.not_lt.1 hlt, Nat.not_le.1 hge⟩
    have hfresh : id ∉ used := fun hmem ↦ hmarked (by
      rw [h.bitmap_eq]
      exact (mod_mem_windowBits_iff h.range_le hwin).2 hmem)
    let c₀ : Smb2Credits := { c with bitmap := insert (id % c.max) c.bitmap }
    have h₀ : WindowInv c₀ (used ++ [id]) :=
      { max_pos := h.max_pos
        max_lt := h.max_lt
        range_le := h.range_le
        no_wrap := h.no_wrap
        bitmap_eq := by
          simp only [c₀, h.bitmap_eq]
          exact (windowBits_append_of_inWindow hwin).symm
        below := by
          intro x hx
          rcases List.mem_append.1 hx with hx | hx
          · exact h.below x hx
          · rw [List.mem_singleton.1 hx]
            exact hwin.2
        nodup := by
          rw [← List.concat_eq_append]
          exact List.Nodup.concat hfresh h.nodup }
    have hcard : c₀.bitmap.card + (c.seqRange - c₀.seqRange) = c.bitmap.card + 1 := by
      simp only [c₀, Nat.sub_self, Nat.add_zero]
      exact Finset.card_insert_of_notMem hmarked
    have hmark : WindowStep (used ++ [id]) c c₀ 1 := ⟨h₀, rfl, le_rfl, hcard, rfl, rfl, rfl⟩
    refine ⟨hwin, hfresh, ?_⟩
  · cases hv
    refine ⟨hmark, ?_⟩
    simp only [List.mem_append, List.mem_singleton, not_or]
    exact ⟨hlow, fun heq ↦ hne heq.symm⟩
  · cases hv
    obtain ⟨hadv, hfresh'⟩ := advanceWindow_step c₀.bitmap.card h₀ le_rfl
    exact ⟨hmark.trans hadv, hfresh'⟩

theorem smb2ValidateSequenceNumbers_step {ids : List Nat} {c c' : Smb2Credits} {used : List Nat}
    (h : WindowInv c used) (hlow : c.seqLow ∉ used)
    (hv : smb2ValidateSequenceNumbers c ids = some c') :
    (∀ id ∈ ids, InWindow c.seqLow c.seqRange id) ∧ WindowStep (used ++ ids) c c' ids.length ∧
      c'.seqLow ∉ used ++ ids := by
  induction ids generalizing c used with
  | nil =>
    cases hv
    simp only [List.append_nil, List.not_mem_nil, false_imp_iff, implies_true, true_and,
      List.length_nil]
    exact ⟨⟨h, rfl, le_rfl, by simp, rfl, rfl, rfl⟩, hlow⟩
  | cons id ids ih =>
    obtain ⟨c₁, hv₁, hv⟩ := Option.bind_eq_some_iff.1 hv
    obtain ⟨hwin, -, hstep₁, hlow₁⟩ := smb2ValidateSequenceNumber_step h hlow hv₁
    obtain ⟨hwins, hstep, hlow'⟩ := ih hstep₁.inv hlow₁ hv
    have hcomp := hstep₁.trans hstep
    simp only [List.append_assoc, List.singleton_append] at hcomp hlow'
    refine ⟨?_, ?_, hlow'⟩
    · intro x hx
      rcases List.mem_cons.1 hx with rfl | hx
      · exact hwin
      · obtain ⟨hx1, hx2⟩ := hwins x hx
        have := hstep₁.end_eq
        have := hstep₁.range_le
        exact ⟨by omega, by omega⟩
    · rw [List.length_cons, Nat.add_comm]
      exact hcomp

theorem WindowInv.setGranted {c : Smb2Credits} {used : List Nat} (h : WindowInv c used)
    (g : Nat) : WindowInv { c with granted := g } used :=
  ⟨h.max_pos, h.max_lt, h.range_le, h.no_wrap, h.bitmap_eq, h.below, h.nodup⟩

@[simp] theorem chargedIds_length (c : Smb2Credits) (hdr : Smb2Header) :
    (chargedIds c hdr).length = creditCharge c hdr := by
  simp [chargedIds]

structure CreditInv (r : CreditRun) : Prop where
  window : WindowInv r.credits r.accepted
  low_fresh : r.credits.seqLow ∉ r.accepted
  granted_add : r.credits.granted + r.credits.bitmap.card = r.credits.seqRange
  spent : r.accepted.length + r.credits.granted = 1 + r.totalGranted

theorem smb2ValidateMessageId_inv {r : CreditRun} {hdr : Smb2Header} {c' : Smb2Credits}
    (h : CreditInv r) (hv : smb2ValidateMessageId r.credits hdr = some c') :
    CreditInv ⟨c', r.accepted ++ requestIds r.credits hdr, r.totalGranted⟩ ∧
      (∀ id ∈ requestIds r.credits hdr, InWindow r.credits.seqLow r.credits.seqRange id) ∧
      c'.max = r.credits.max := by
  unfold smb2ValidateMessageId at hv
  split_ifs at hv with hcancel hlt
  · cases hv
    have hids : requestIds r.credits hdr = [] := by simp [requestIds, hcancel]
    rw [hids, List.append_nil]
    exact ⟨h, by simp, rfl⟩
  · obtain ⟨c₂, hv₂, rfl⟩ := Option.map_eq_some_iff.1 hv
    have hids : requestIds r.credits hdr = chargedIds r.credits hdr := by
      simp [requestIds, hcancel]
    rw [hids]
    obtain ⟨hwins, hstep, hlow⟩ := smb2ValidateSequenceNumbers_step h.window h.low_fresh hv₂
    refine ⟨⟨hstep.inv.setGranted _, hlow, ?_, ?_⟩, hwins, hstep.max⟩
    · have := hstep.card_eq
      have := hstep.range_le
      have := hstep.granted
      have := h.granted_add
      simp only [chargedIds_length] at *
      omega
    · have := h.spent
      have := hstep.granted
      simp only [List.length_append, chargedIds_length]
      omega

theorem creditsPossible_eq {c : Smb2Credits} (hmax : 0 < c.max) (hrange : c.seqRange ≤ c.max)
    (hwrap : c.seqLow + c.seqRange ≤ 2 ^ 64 - 2) :
    creditsPossible c = min (2 ^ 64 - 2 - c.seqLow) c.max - c.seqRange := by
  have hmax1 : Nat.max c.max 1 = c.max := Nat.max_eq_left hmax
  have hpos : 2 ^ 64 - 1 - c.seqLow > 0 := by omega
  simp only [creditsPossible, hpos, if_true, hmax1]
  have hle : c.seqRange ≤ min (2 ^ 64 - 1 - c.seqLow - 1) c.max := by omega
  have hsub : 2 ^ 64 - 1 - c.seqLow - 1 = 2 ^ 64 - 2 - c.seqLow := by omega
  rw [hsub] at hle ⊢
  omega

theorem smb2SetOperationCredit_ne_panic {c : Smb2Credits} (hle : c.granted ≤ c.max)
    (inhdr : Smb2Header) (outFlags : Nat) (outStatusOk : Bool) :
    smb2SetOperationCredit c inhdr outFlags outStatusOk ≠ .panic := by
  unfold smb2SetOperationCredit
  rw [if_neg (Nat.not_lt.2 hle)]
  split <;> simp

theorem smb2SetOperationCredit_inv {r : CreditRun} {inhdr : Smb2Header} {outFlags : Nat}
    {outStatusOk : Bool} {c' : Smb2Credits} {credits : Nat} (h : CreditInv r)
    (hs : smb2SetOperationCredit r.credits inhdr outFlags outStatusOk = .granted c' credits) :
    CreditInv ⟨c', r.accepted, r.totalGranted + credits⟩ := by
  have hw := h.window
  have hposs := creditsPossible_eq hw.max_pos hw.range_le hw.no_wrap
  unfold smb2SetOperationCredit at hs
  split_ifs at hs with hpanic hterm
  simp only [CreditOutcome.granted.injEq] at hs
  obtain ⟨rfl, rfl⟩ := hs
  have hle : min (creditsWanted r.credits inhdr outFlags outStatusOk) (creditsPossible r.credits) ≤
      min (2 ^ 64 - 2 - r.credits.seqLow) r.credits.max - r.credits.seqRange :=
    hposs ▸ min_le_right _ _
  have hga := h.granted_add
  have hmax := hw.max_lt
  have hrange := hw.range_le
  have hwrap := hw.no_wrap
  generalize min (creditsWanted r.credits inhdr outFlags outStatusOk) (creditsPossible r.credits) = g
    at hle ⊢
  have hg : (r.credits.granted + g) % 2 ^ 16 = r.credits.granted + g := Nat.mod_eq_of_lt (by omega)
  have hr : (r.credits.seqRange + g) % 2 ^ 16 = r.credits.seqRange + g := Nat.mod_eq_of_lt (by omega)
  refine ⟨⟨hw.max_pos, hw.max_lt, ?_, ?_, ?_, ?_, hw.nodup⟩, h.low_fresh, ?_, ?_⟩
  · simp only [hr]; omega
  · simp only [hr]; omega
  · simp only [hr, hw.bitmap_eq]
    exact (windowBits_grow (Nat.le_add_right _ _) hw.below).symm
  · simp only [hr]
    intro id hid
    have := hw.below id hid
    omega
  · simp only [hg, hr]; omega
  · have := h.spent
    simp only [hg]
    omega

theorem creditStep_response {r r' : CreditRun} {inhdr : Smb2Header} {outFlags : Nat}
    {outStatusOk : Bool} (hs : creditStep r (.response inhdr outFlags outStatusOk) = some r') :
    r.accepted ≠ [] ∧ ∃ c credits,
      smb2SetOperationCredit r.credits inhdr outFlags outStatusOk = .granted c credits ∧
        r' = ⟨c, r.accepted, r.totalGranted + credits⟩ := by
  simp only [creditStep] at hs
  split_ifs at hs with hacc
  refine ⟨hacc, ?_⟩
  split at hs
  · rename_i c credits hgrant
    cases hs
    exact ⟨c, credits, hgrant, rfl⟩
  · cases hs

theorem creditStep_inv {r r' : CreditRun} {ev : CreditEvent} (h : CreditInv r)
    (hs : creditStep r ev = some r') : CreditInv r' := by
  cases ev with
  | request hdr =>
    obtain ⟨c', hv, rfl⟩ := Option.map_eq_some_iff.1 hs
    exact (smb2ValidateMessageId_inv h hv).1
  | response inhdr outFlags outStatusOk =>
    obtain ⟨-, c', credits, hgrant, rfl⟩ := creditStep_response hs
    exact smb2SetOperationCredit_inv h hgrant
  | multicreditOn =>
    cases hs
    exact ⟨⟨h.window.max_pos, h.window.max_lt, h.window.range_le, h.window.no_wrap,
      h.window.bitmap_eq, h.window.below, h.window.nodup⟩, h.low_fresh, h.granted_add, h.spent⟩

theorem creditRun_preserves {P : CreditRun → Prop}
    (hstep : ∀ {r r' : CreditRun} {ev : CreditEvent}, P r → creditStep r ev = some r' → P r')
    {evs : List CreditEvent} {r r' : CreditRun} (h : P r) (hrun : creditRun r evs = some r') :
    P r' := by
  induction evs generalizing r with
  | nil => cases hrun; exact h
  | cons ev evs ih =>
    obtain ⟨r₁, hs, hrun⟩ := Option.bind_eq_some_iff.1 hrun
    exact ih (hstep h hs) hrun

theorem creditRun_inv {evs : List CreditEvent} {r r' : CreditRun} (h : CreditInv r)
    (hrun : creditRun r evs = some r') : CreditInv r' :=
  creditRun_preserves creditStep_inv h hrun

theorem creditStep_max {r r' : CreditRun} {ev : CreditEvent} (h : CreditInv r)
    (hs : creditStep r ev = some r') : r'.credits.max = r.credits.max := by
  cases ev with
  | request hdr =>
    obtain ⟨c', hv, rfl⟩ := Option.map_eq_some_iff.1 hs
    exact (smb2ValidateMessageId_inv h hv).2.2
  | response inhdr outFlags outStatusOk =>
    obtain ⟨-, c', credits, hgrant, rfl⟩ := creditStep_response hs
    unfold smb2SetOperationCredit at hgrant
    split_ifs at hgrant
    cases hgrant
    rfl
  | multicreditOn => cases hs; rfl

theorem creditRun_max {evs : List CreditEvent} {r r' : CreditRun} (h : CreditInv r)
    (hrun : creditRun r evs = some r') : r'.credits.max = r.credits.max :=
  (creditRun_preserves (P := fun r₁ ↦ CreditInv r₁ ∧ r₁.credits.max = r.credits.max)
    (fun ⟨hi, hm⟩ hs ↦ ⟨creditStep_inv hi hs, (creditStep_max hi hs).trans hm⟩) ⟨h, rfl⟩ hrun).2

theorem initialRun_inv {expectedSeqLow max : Nat} (multicredit : Bool)
    (hlow : expectedSeqLow ≤ 2 ^ 64 - 3) (hmax : 0 < max) (hmax' : max < 2 ^ 16) :
    CreditInv (initialRun expectedSeqLow max multicredit) :=
  ⟨⟨hmax, hmax', hmax, by simp only [initialRun, smbdInitializeSmb2]; omega,
      by simp [initialRun, smbdInitializeSmb2, windowBits, windowIds], by simp [initialRun],
      List.nodup_nil⟩,
    by simp [initialRun], rfl, rfl⟩

theorem creditStep_request_fresh {r r' : CreditRun} {hdr : Smb2Header} (h : CreditInv r)
    (hs : creditStep r (.request hdr) = some r') :
    (requestIds r.credits hdr).Nodup ∧ ∀ id ∈ requestIds r.credits hdr,
      InWindow r.credits.seqLow r.credits.seqRange id ∧ id ∉ r.accepted := by
  obtain ⟨c', hv, -⟩ := Option.map_eq_some_iff.1 hs
  obtain ⟨h', hwin, -⟩ := smb2ValidateMessageId_inv h hv
  have hnodup := h'.window.nodup
  refine ⟨hnodup.of_append_right, fun id hid ↦ ⟨hwin id hid, fun hmem ↦ ?_⟩⟩
  exact List.disjoint_of_nodup_append hnodup hmem hid

structure CreditFacts (max : Nat) (r : CreditRun) : Prop where
  max_eq : r.credits.max = max
  range_le : r.credits.seqRange ≤ max
  granted_le : r.credits.granted ≤ max
  granted_add : r.credits.granted + r.credits.bitmap.card = r.credits.seqRange
  bitmap_eq : r.credits.bitmap =
    ((r.accepted.filter fun id ↦ decide (InWindow r.credits.seqLow r.credits.seqRange id)).map
      (· % max)).toFinset
  low_fresh : r.credits.seqLow ∉ r.accepted
  request_fresh : ∀ hdr r', creditStep r (.request hdr) = some r' →
    (requestIds r.credits hdr).Nodup ∧ ∀ id ∈ requestIds r.credits hdr,
      InWindow r.credits.seqLow r.credits.seqRange id ∧ id ∉ r.accepted
  accepted_le : r.accepted.length ≤ r.totalGranted + 1
  no_panic : ∀ inhdr outFlags outStatusOk,
    smb2SetOperationCredit r.credits inhdr outFlags outStatusOk ≠ .panic

theorem CreditInv.facts {r : CreditRun} {max : Nat} (h : CreditInv r)
    (hmax : r.credits.max = max) : CreditFacts max r := by
  have hga := h.granted_add
  have hrange := h.window.range_le
  have hspent := h.spent
  have hle : r.credits.granted ≤ r.credits.max := by omega
  rw [hmax] at hrange
  refine ⟨hmax, hrange, by omega, hga, ?_, h.low_fresh, fun hdr r' hs ↦ creditStep_request_fresh h hs,
    by omega, smb2SetOperationCredit_ne_panic hle⟩
  rw [h.window.bitmap_eq, hmax]
  rfl

def topStuck (max : Nat) (multicredit : Bool) : CreditRun :=
  ⟨⟨2 ^ 64 - 1, 0, 0, max, multicredit, ∅⟩, [2 ^ 64 - 2], 0⟩

inductive TopRun (max : Nat) : CreditRun → Prop
  | nearTop (multicredit : Bool) : TopRun max (initialRun (2 ^ 64 - 2) max multicredit)
  | top (multicredit : Bool) : TopRun max (initialRun (2 ^ 64 - 1) max multicredit)
  | stuck (multicredit : Bool) : TopRun max (topStuck max multicredit)

theorem one_le_creditCharge (c : Smb2Credits) (hdr : Smb2Header) : 1 ≤ creditCharge c hdr := by
  unfold creditCharge
  split
  · exact Nat.le_max_right _ _
  · exact le_rfl

theorem smb2ValidateMessageId_one_credit {c c' : Smb2Credits} {hdr : Smb2Header}
    (hgranted : c.granted = 1) (hcancel : hdr.opcode ≠ smb2OpCancel)
    (hv : smb2ValidateMessageId c hdr = some c') :
    chargedIds c hdr = [hdr.messageId % 2 ^ 64] ∧ ∃ c₁,
      smb2ValidateSequenceNumber c (hdr.messageId % 2 ^ 64) = some c₁ ∧
        c' = { c₁ with granted := c₁.granted - 1 } := by
  unfold smb2ValidateMessageId at hv
  have hcharge : creditCharge c hdr = 1 := by
    have := one_le_creditCharge c hdr
    by_contra hne
    rw [if_neg hcancel, if_pos (by omega)] at hv
    cases hv
  have hids : chargedIds c hdr = [hdr.messageId % 2 ^ 64] := by simp [chargedIds, hcharge]
  rw [if_neg hcancel, if_neg (by omega), hids] at hv
  obtain ⟨c₂, hv₂, rfl⟩ := Option.map_eq_some_iff.1 hv
  rw [smb2ValidateSequenceNumbers] at hv₂
  obtain ⟨c₁, hv₁, hv₂⟩ := Option.bind_eq_some_iff.1 hv₂
  simp only [smb2ValidateSequenceNumbers, Option.some.injEq] at hv₂
  subst hv₂
  exact ⟨hids, c₁, hv₁, by rw [hcharge]⟩

theorem smb2ValidateSequenceNumber_nearTop {max : Nat} {multicredit : Bool} {id : Nat}
    {c₁ : Smb2Credits} (hid : id < 2 ^ 64)
    (hv : smb2ValidateSequenceNumber ⟨2 ^ 64 - 2, 1, 1, max, multicredit, ∅⟩ id = some c₁) :
    id = 2 ^ 64 - 2 ∧ c₁ = ⟨2 ^ 64 - 1, 0, 1, max, multicredit, ∅⟩ := by
  unfold smb2ValidateSequenceNumber at hv
  dsimp only at hv
  have hid' : id = 2 ^ 64 - 2 := by
    by_contra hne
    rcases Nat.lt_or_gt_of_ne hne with hlt | hgt
    · rw [if_pos hlt] at hv
      cases hv
    · rw [if_neg (by omega), if_pos (by omega)] at hv
      cases hv
  subst hid'
  refine ⟨rfl, ?_⟩
  simp [advanceWindow] at hv
  exact hv.symm

theorem smb2ValidateSequenceNumber_top {c : Smb2Credits} {id : Nat} (hlow : c.seqLow = 2 ^ 64 - 1)
    (hrange : c.seqRange = 1) (hid : id < 2 ^ 64) : smb2ValidateSequenceNumber c id = none := by
  unfold smb2ValidateSequenceNumber
  rw [hlow, hrange]
  split_ifs <;> first | rfl | omega

theorem TopRun.request {max : Nat} {r r' : CreditRun} {hdr : Smb2Header} (h : TopRun max r)
    (hs : creditStep r (.request hdr) = some r') :
    (requestIds r.credits hdr = [] ∧ r' = r) ∨
      ∃ multicredit, r = initialRun (2 ^ 64 - 2) max multicredit ∧
        requestIds r.credits hdr = [2 ^ 64 - 2] ∧ r' = topStuck max multicredit := by
  obtain ⟨c', hv, rfl⟩ := Option.map_eq_some_iff.1 hs
  by_cases hcancel : hdr.opcode = smb2OpCancel
  · have hids : requestIds r.credits hdr = [] := by simp [requestIds, hcancel]
    simp only [smb2ValidateMessageId, hcancel, if_true, Option.some.injEq] at hv
    subst hv
    exact .inl ⟨hids, by rw [hids, List.append_nil]⟩
  have hid : hdr.messageId % 2 ^ 64 < 2 ^ 64 := Nat.mod_lt _ (by decide)
  cases h with
  | nearTop multicredit =>
    obtain ⟨hids, c₁, hv₁, rfl⟩ := smb2ValidateMessageId_one_credit rfl hcancel hv
    obtain ⟨hid', rfl⟩ := smb2ValidateSequenceNumber_nearTop hid hv₁
    have hreq : requestIds (initialRun (2 ^ 64 - 2) max multicredit).credits hdr = [2 ^ 64 - 2] := by
      simp only [requestIds, hcancel, if_false, hids, hid']
    refine .inr ⟨multicredit, rfl, hreq, ?_⟩
    rw [hreq]
    rfl
  | top multicredit =>
    obtain ⟨-, c₁, hv₁, -⟩ := smb2ValidateMessageId_one_credit rfl hcancel hv
    rw [smb2ValidateSequenceNumber_top rfl rfl hid] at hv₁
    cases hv₁
  | stuck multicredit =>
    have := one_le_creditCharge (topStuck max multicredit).credits hdr
    unfold smb2ValidateMessageId at hv
    rw [if_neg hcancel,
      if_pos (show (topStuck max multicredit).credits.granted < creditCharge _ hdr from this)] at hv
    cases hv

attribute [local simp] topStuck.eq_1
attribute [-simp] topStuck.eq_1

theorem TopRun.step {max : Nat} {r r' : CreditRun} {ev : CreditEvent} (h : TopRun max r)
    (hs : creditStep r ev = some r') : TopRun max r' := by
  cases ev with
  | request hdr =>
    rcases h.request hs with ⟨-, rfl⟩ | ⟨multicredit, -, -, rfl⟩
    · exact h
    · exact .stuck multicredit
  | response inhdr outFlags outStatusOk =>
    obtain ⟨hacc, c, credits, hgrant, rfl⟩ := creditStep_response hs
    cases h with
    | nearTop => exact absurd rfl hacc
    | top => exact absurd rfl hacc
    | stuck multicredit =>
      have hposs : creditsPossible (topStuck max multicredit).credits = 0 := by
        simp [creditsPossible, topStuck]
      unfold smb2SetOperationCredit at hgrant
      split_ifs at hgrant
      cases hgrant
      simp only [hposs, Nat.min_zero, Nat.add_zero]
      exact .stuck multicredit
  | multicreditOn =>
    cases hs
    cases h with
    | nearTop => exact .nearTop true
    | top => exact .top true
    | stuck => exact .stuck true

theorem TopRun.of_run {max : Nat} {evs : List CreditEvent} {r r' : CreditRun} (h : TopRun max r)
    (hrun : creditRun r evs = some r') : TopRun max r' :=
  creditRun_preserves TopRun.step h hrun

theorem TopRun.facts {max : Nat} {r : CreditRun} (hmax : 0 < max) (h : TopRun max r) :
    CreditFacts max r where
  max_eq := by cases h <;> rfl
  range_le := by cases h <;> simp [initialRun, smbdInitializeSmb2, topStuck] <;> omega
  granted_le := by cases h <;> simp [initialRun, smbdInitializeSmb2, topStuck] <;> omega
  granted_add := by cases h <;> rfl
  bitmap_eq := by cases h <;> simp [initialRun, smbdInitializeSmb2, topStuck, InWindow]
  low_fresh := by cases h <;> simp [initialRun, topStuck]
  request_fresh hdr r' hs := by
    rcases h.request hs with ⟨hids, -⟩ | ⟨multicredit, rfl, hids, -⟩
    · simp [hids]
    · rw [hids]
      simp [initialRun, smbdInitializeSmb2, InWindow]
  accepted_le := by cases h <;> simp [initialRun, topStuck]
  no_panic := smb2SetOperationCredit_ne_panic (by
    cases h <;> simp [initialRun, smbdInitializeSmb2, topStuck] <;> omega)

theorem creditRun_credit_window (expectedSeqLow max : Nat) (multicredit : Bool)
    (hlow : expectedSeqLow < 2 ^ 64) (hmax : 0 < max) (hmax' : max < 2 ^ 16)
    (evs : List CreditEvent) (r : CreditRun)
    (hrun : creditRun (initialRun expectedSeqLow max multicredit) evs = some r) :
    CreditFacts max r := by
  by_cases hmid : expectedSeqLow ≤ 2 ^ 64 - 3
  · have h₀ := initialRun_inv multicredit hmid hmax hmax'
    exact (creditRun_inv h₀ hrun).facts (creditRun_max h₀ hrun)
  · have h₀ : TopRun max (initialRun expectedSeqLow max multicredit) := by
      rcases (by omega : expectedSeqLow = 2 ^ 64 - 2 ∨ expectedSeqLow = 2 ^ 64 - 1) with rfl | rfl
      · exact .nearTop multicredit
      · exact .top multicredit
    exact (h₀.of_run hrun).facts hmax

def negprotExchange : List CreditEvent :=
  [.request ⟨0, smb2OpNegprot, 0, 1⟩, .response ⟨0, smb2OpNegprot, 0, 1⟩ 0 true]

def negprotRun : CreditRun := ⟨⟨1, 1, 1, 8192, false, ∅⟩, [0], 1⟩

theorem creditRun_credit_window_negprot :
    creditRun (initialRun 0 8192 false) negprotExchange = some negprotRun ∧
      negprotRun.accepted.length ≤ negprotRun.totalGranted + 1 := by
  have hrun : creditRun (initialRun 0 8192 false) negprotExchange = some negprotRun := rfl
  exact ⟨hrun, (creditRun_credit_window 0 8192 false (by decide) (by decide) (by decide) _ _ hrun).accepted_le⟩

end Samba.Smbd.Credits
