import Samba.Security.Descriptor

namespace Samba.Winbindd.Autorid

open Samba.Security.Descriptor

inductive NtStatus
  | ok | invalidParameter | unsuccessful | internalError | noMemory | internalDbCorruption
  | notFound | noneMapped | someNotMapped
  deriving DecidableEq, Repr

/-- `enum id_type`. -/
inductive IdType
  | notSpecified | uid | gid | both
  deriving DecidableEq, Repr

/-- `enum id_mapping`, the `status` of an `id_map`. -/
inductive IdMapping
  | unknown | mapped | unmapped | expired | requireType
  deriving DecidableEq, Repr

/-- `struct id_map`: the SID, the unix id `xid` and how far the mapping got. -/
structure IdMap where
  sid : DomSid
  xidId : UInt32
  xidType : IdType
  status : IdMapping
  deriving DecidableEq, Repr

/-- `struct autorid_global_config`. -/
structure AutoridGlobalConfig where
  minvalue : UInt32
  rangesize : UInt32
  maxranges : UInt32
  deriving DecidableEq, Repr

structure IdmapDomain where
  name : String
  lowId : UInt32
  highId : UInt32
  readOnly : Bool
  lowId_le : lowId ≤ highId

/-- `sid_split_rid`: the domain part and the last sub-authority. -/
def sidSplitRid (sid : DomSid) : Option (DomSid × UInt32) :=
  sid.subAuths.getLast?.map fun rid ↦ ({ sid with subAuths := sid.subAuths.dropLast }, rid)

/-- `sid_compose`: `sid_append_rid` leaves a SID that has all fifteen sub-authorities
unchanged (and its failure is not looked at). -/
def sidCompose (domsid : DomSid) (rid : UInt32) : DomSid :=
  if domsid.subAuths.length < 15 then { domsid with subAuths := domsid.subAuths ++ [rid] }
  else domsid

def globalSidWorldDomain : DomSid := ⟨1, [0, 0, 0, 0, 0, 1], []⟩
def globalSidLocalAuthority : DomSid := ⟨1, [0, 0, 0, 0, 0, 2], []⟩
def globalSidCreatorOwnerDomain : DomSid := ⟨1, [0, 0, 0, 0, 0, 3], []⟩
def globalSidNtAuthority : DomSid := ⟨1, [0, 0, 0, 0, 0, 5], []⟩
def globalSidBuiltin : DomSid := ⟨1, [0, 0, 0, 0, 0, 5], [32]⟩

/-- `sid_check_is_wellknown_domain`: the domains of `special_domains`. -/
def sidCheckIsWellknownDomain (sid : DomSid) : Bool :=
  [globalSidWorldDomain, globalSidLocalAuthority, globalSidCreatorOwnerDomain,
    globalSidNtAuthority].contains sid

inductive RangeDomain
  | alloc
  | sid (domsid : DomSid)
  deriving DecidableEq, Repr

structure RangeKey where
  domsid : RangeDomain
  domainRangeIndex : UInt32
  deriving DecidableEq, Repr

/-- `struct autorid_range_config`. -/
structure AutoridRangeConfig where
  domsid : RangeDomain
  rangenum : UInt32
  domainRangeIndex : UInt32
  lowId : UInt32
  highId : UInt32
  deriving DecidableEq, Repr

def AutoridRangeConfig.key (range : AutoridRangeConfig) : RangeKey :=
  ⟨range.domsid, range.domainRangeIndex⟩

structure AutoridDb where
  ranges : RangeKey → Option UInt32
  owners : UInt32 → Option RangeKey
  hwm : Option UInt32
  config : Option AutoridGlobalConfig

def emptyDb : AutoridDb := ⟨fun _ ↦ none, fun _ ↦ none, none, none⟩

def rangeLowId (cfg : AutoridGlobalConfig) (rangenum : UInt32) : UInt32 :=
  cfg.minvalue + rangenum * cfg.rangesize

def withRangenum (range : AutoridRangeConfig) (cfg : AutoridGlobalConfig) (rangenum : UInt32) :
    AutoridRangeConfig :=
  { range with rangenum, lowId := rangeLowId cfg rangenum,
               highId := rangeLowId cfg rangenum + cfg.rangesize - 1 }

/-- `idmap_autorid_loadconfig`: a database without `CONFIG` gives `NT_STATUS_NOT_FOUND`. -/
def idmapAutoridLoadconfig (db : AutoridDb) : Except NtStatus AutoridGlobalConfig :=
  match db.config with
  | some cfg => .ok cfg
  | none => .error .notFound

/-- `idmap_autorid_addrange_action`, run by `idmap_autorid_addrange` in a transaction, so
that a failure leaves the database as it was: the range of `range`'s key, or a new one
(the high-water mark when acquiring, the requested number when setting). -/
def idmapAutoridAddrange (db : AutoridDb) (range : AutoridRangeConfig) (acquire : Bool) :
    Except NtStatus (AutoridRangeConfig × AutoridDb) :=
  match db.ranges range.key with
  | some stored =>
    if acquire then
      (idmapAutoridLoadconfig db).map fun globalcfg ↦ (withRangenum range globalcfg stored, db)
    else if stored ≠ range.rangenum then .error .unsuccessful
    else .ok (range, db)
  | none =>
    match db.hwm with
    | none => .error .internalError
    | some hwm =>
      match idmapAutoridLoadconfig db with
      | .error e => .error e
      | .ok globalcfg =>
        let requested := if acquire then hwm else range.rangenum
        if requested ≥ globalcfg.maxranges then .error .noMemory
        else if (db.owners requested).isSome then
          .error (if requested < hwm then .invalidParameter else .internalDbCorruption)
        else
          let hwm := if requested ≥ hwm then hwm + (requested + 1 - hwm) else hwm
          .ok (withRangenum range globalcfg requested,
            { db with hwm := some hwm,
                      ranges := Function.update db.ranges range.key (some requested),
                      owners := Function.update db.owners requested (some range.key) })

/-- `idmap_autorid_getrange_int`. -/
def idmapAutoridGetrangeInt (db : AutoridDb) (range : AutoridRangeConfig) :
    Except NtStatus AutoridRangeConfig :=
  match db.ranges range.key with
  | none => .error .notFound
  | some rangenum => (idmapAutoridLoadconfig db).map fun globalcfg ↦ withRangenum range globalcfg rangenum

/-- `idmap_autorid_getrange`: the range number and first id of a domain's range. -/
def idmapAutoridGetrange (db : AutoridDb) (domsid : RangeDomain) (domainRangeIndex : UInt32) :
    Except NtStatus (UInt32 × UInt32) :=
  (idmapAutoridGetrangeInt db ⟨domsid, 0, domainRangeIndex, 0, 0⟩).map fun range ↦
    (range.rangenum, range.lowId)

/-- `idmap_autorid_get_domainrange`: the stored range, or a new one unless read-only. -/
def idmapAutoridGetDomainrange (db : AutoridDb) (range : AutoridRangeConfig) (readOnly : Bool) :
    Except NtStatus (AutoridRangeConfig × AutoridDb) :=
  match idmapAutoridGetrangeInt db range with
  | .ok range => .ok (range, db)
  | .error _ => if readOnly then .error .notFound else idmapAutoridAddrange db range true

/-- `idmap_autorid_get_alloc_range`: the range of the allocation pool. -/
def idmapAutoridGetAllocRange (db : AutoridDb) (readOnly : Bool) :
    Except NtStatus (AutoridRangeConfig × AutoridDb) :=
  idmapAutoridGetDomainrange db ⟨.alloc, 0, 0, 0, 0⟩ readOnly

/-- `idmap_autorid_init_hwm` for `NEXT RANGE`: a fresh database starts at range 0. -/
def idmapAutoridInitHwm (db : AutoridDb) : AutoridDb :=
  match db.hwm with
  | some _ => db
  | none => { db with hwm := some 0 }

/-- `idmap_autorid_saveconfig`: the first configuration is stored; a later one must keep
`minvalue` and `rangesize` and leave room for the ranges handed out. -/
def idmapAutoridSaveconfig (db : AutoridDb) (cfg : AutoridGlobalConfig) :
    Except NtStatus AutoridDb :=
  if cfg.rangesize < 2000 then .error .invalidParameter
  else if cfg.maxranges = 0 then .error .invalidParameter
  else
    let storedconfig := db.config.getD cfg
    if storedconfig.minvalue ≠ cfg.minvalue ∨ storedconfig.rangesize ≠ cfg.rangesize then
      .error .invalidParameter
    else
      match db.hwm with
      | none => .error .internalError
      | some hwm =>
        if hwm > cfg.maxranges then .error .invalidParameter
        else .ok { db with config := some cfg }

def idmapAutoridPreallocateWellknown (db : AutoridDb) (readOnly : Bool) :
    Except NtStatus AutoridDb :=
  if readOnly then .ok db
  else
    match idmapAutoridGetAllocRange db readOnly with
    | .ok (_, db) => .ok db
    | .error _ => .error .unsuccessful

/-- `idmap_autorid_initialize` with `idmap config * : rangesize`: the global
configuration, and the database after `idmap_autorid_initialize_action`. -/
def idmapAutoridInitialize (dom : IdmapDomain) (rangesize : UInt32) (db : AutoridDb) :
    Except NtStatus (AutoridGlobalConfig × AutoridDb) :=
  if dom.name ≠ "*" then .error .invalidParameter
  else
    let config : AutoridGlobalConfig :=
      ⟨dom.lowId, rangesize, (dom.highId - dom.lowId + 1) / rangesize⟩
    if config.maxranges < 2 then .error .invalidParameter
    else
      match idmapAutoridSaveconfig (idmapAutoridInitHwm db) config with
      | .error e => .error e
      | .ok db =>
        (idmapAutoridPreallocateWellknown db dom.readOnly).map fun db ↦ (config, db)

structure AutoridEnv where
  ignoreBuiltin : Bool
  globalSamSid : DomSid
  ourDomain : Option DomSid
  netsamlogonCacheHave : DomSid → Bool
  sidToIdAlloc : IdMap → AutoridDb → NtStatus × IdMap × AutoridDb
  idToSidAlloc : IdMap → NtStatus × IdMap

/-- `idmap_autorid_sid_to_id_rid`. -/
def idmapAutoridSidToIdRid (rangesize lowId : UInt32) (map : IdMap) (rid : UInt32) : IdMap :=
  { map with xidId := rid % rangesize + lowId, xidType := .both, status := .mapped }

def mayAllocate (env : AutoridEnv) (db : AutoridDb) (domainsid : DomSid)
    (domainRangeIndex : UInt32) (xidType : IdType) : Bool :=
  domainsid == globalSidBuiltin || domainsid == env.globalSamSid ||
    env.ourDomain == some domainsid ||
    (domainRangeIndex != 0 && (idmapAutoridGetrange db (.sid domainsid) 0).isOk) ||
    xidType != .notSpecified || env.netsamlogonCacheHave domainsid

/-- `idmap_autorid_sid_to_id`: the status, the `id_map` it fills in and the database. -/
def idmapAutoridSidToId (env : AutoridEnv) (dom : IdmapDomain) (global : AutoridGlobalConfig)
    (db : AutoridDb) (map : IdMap) : NtStatus × IdMap × AutoridDb :=
  let map := { map with status := .unknown }
  match sidSplitRid map.sid with
  | none => (.noneMapped, { map with status := .unmapped }, db)
  | some (domainsid, rid) =>
    if sidCheckIsWellknownDomain domainsid then env.sidToIdAlloc map db
    else if domainsid = globalSidBuiltin ∧ env.ignoreBuiltin then
      (.noneMapped, { map with status := .unmapped }, db)
    else
      let range : AutoridRangeConfig := ⟨.sid domainsid, 0, rid / global.rangesize, 0, 0⟩
      match idmapAutoridGetrange db range.domsid range.domainRangeIndex with
      | .ok (_, lowId) => (.ok, idmapAutoridSidToIdRid global.rangesize lowId map rid, db)
      | .error _ =>
        if dom.readOnly then (.noneMapped, { map with status := .unmapped }, db)
        else if mayAllocate env db domainsid range.domainRangeIndex map.xidType then
          match idmapAutoridAddrange db range true with
          | .ok (range, db) => (.ok, idmapAutoridSidToIdRid global.rangesize range.lowId map rid, db)
          | .error e => (e, map, db)
        else (.someNotMapped, { map with status := .requireType }, db)

/-- `idmap_autorid_id_to_sid`: the status and the `id_map` it fills in. -/
def idmapAutoridIdToSid (env : AutoridEnv) (cfg : AutoridGlobalConfig) (db : AutoridDb)
    (map : IdMap) : NtStatus × IdMap :=
  if map.xidId < cfg.minvalue then (.ok, { map with status := .unknown })
  else if map.xidId > cfg.minvalue + cfg.rangesize * cfg.maxranges then
    (.ok, { map with status := .unknown })
  else
    let normalizedId := map.xidId - cfg.minvalue
    let rangeNumber := normalizedId / cfg.rangesize
    match db.owners rangeNumber with
    | none => (.ok, { map with status := .unknown })
    | some ⟨.alloc, _⟩ => env.idToSidAlloc map
    | some ⟨.sid domsid, domainRangeIndex⟩ =>
      let reducedRid := normalizedId % cfg.rangesize
      let rid := reducedRid + domainRangeIndex * cfg.rangesize
      (.ok, { map with sid := sidCompose domsid rid, status := .mapped, xidType := .both })

-- equation lemmas made once, before the proofs below use them in parallel
attribute [local simp] AutoridRangeConfig.key.eq_1 idmapAutoridLoadconfig.eq_1
attribute [-simp] AutoridRangeConfig.key.eq_1 idmapAutoridLoadconfig.eq_1

theorem idmapAutoridLoadconfig_eq_ok {db : AutoridDb} {cfg : AutoridGlobalConfig} :
    idmapAutoridLoadconfig db = .ok cfg ↔ db.config = some cfg := by
  unfold idmapAutoridLoadconfig
  split <;> simp_all

theorem idmapAutoridSaveconfig_eq_ok {db db' : AutoridDb} {cfg : AutoridGlobalConfig}
    (h : idmapAutoridSaveconfig db cfg = .ok db') :
    2000 ≤ cfg.rangesize.toNat ∧ db' = { db with config := some cfg } := by
  unfold idmapAutoridSaveconfig at h
  dsimp only at h
  split_ifs at h with hsize hmax hstored
  split at h
  · cases h
  · split_ifs at h with hhwm
    cases h
    exact ⟨by simpa [UInt32.lt_iff_toNat_lt] using hsize, rfl⟩

theorem idmapAutoridInitialize_eq_ok {dom : IdmapDomain} {rangesize : UInt32}
    {db db' : AutoridDb} {cfg : AutoridGlobalConfig}
    (h : idmapAutoridInitialize dom rangesize db = .ok (cfg, db')) :
    cfg = ⟨dom.lowId, rangesize, (dom.highId - dom.lowId + 1) / rangesize⟩ ∧
      2 ≤ cfg.maxranges.toNat ∧
      ∃ db₁, idmapAutoridSaveconfig (idmapAutoridInitHwm db) cfg = .ok db₁ ∧
        idmapAutoridPreallocateWellknown db₁ dom.readOnly = .ok db' := by
  unfold idmapAutoridInitialize at h
  dsimp only at h
  split_ifs at h with hname hmax
  split at h
  · cases h
  rename_i db₁ hsave
  cases hpre : idmapAutoridPreallocateWellknown db₁ dom.readOnly with
  | error e => simp [hpre, Except.map] at h
  | ok db₂ =>
    simp only [hpre, Except.map, Except.ok.injEq, Prod.mk.injEq] at h
    obtain ⟨rfl, rfl⟩ := h
    refine ⟨rfl, ?_, db₁, hsave, hpre⟩
    exact Nat.le_of_not_lt fun hlt ↦ hmax (UInt32.lt_iff_toNat_lt.mpr hlt)

structure AcceptedConfig (dom : IdmapDomain) (cfg : AutoridGlobalConfig) : Prop where
  minvalue_eq : cfg.minvalue = dom.lowId
  rangesize_ge : 2000 ≤ cfg.rangesize.toNat
  maxranges_ge : 2 ≤ cfg.maxranges.toNat
  ranges_le : cfg.maxranges.toNat * cfg.rangesize.toNat ≤ dom.highId.toNat - dom.lowId.toNat + 1
  ranges_lt : cfg.maxranges.toNat * cfg.rangesize.toNat < 2 ^ 32

theorem toNat_rangeWidth (dom : IdmapDomain) :
    (dom.highId - dom.lowId + 1).toNat = (dom.highId.toNat - dom.lowId.toNat + 1) % 2 ^ 32 := by
  rw [UInt32.toNat_add, UInt32.toNat_sub_of_le _ _ dom.lowId_le, UInt32.toNat_one]

theorem idmapAutoridInitialize_accepted {dom : IdmapDomain} {rangesize : UInt32}
    {db db' : AutoridDb} {cfg : AutoridGlobalConfig}
    (h : idmapAutoridInitialize dom rangesize db = .ok (cfg, db')) : AcceptedConfig dom cfg := by
  obtain ⟨rfl, hmax, db₁, hsave, -⟩ := idmapAutoridInitialize_eq_ok h
  have hsize := (idmapAutoridSaveconfig_eq_ok hsave).1
  have hle : dom.lowId.toNat ≤ dom.highId.toNat := UInt32.le_iff_toNat_le.mp dom.lowId_le
  have hhigh := dom.highId.toNat_lt
  have hwidth : (dom.highId - dom.lowId + 1).toNat = dom.highId.toNat - dom.lowId.toNat + 1 := by
    rw [toNat_rangeWidth]
    by_contra hne
    have hzero : (dom.highId.toNat - dom.lowId.toNat + 1) % 2 ^ 32 = 0 := by omega
    simp only [UInt32.toNat_div, toNat_rangeWidth, hzero, Nat.zero_div] at hmax
    omega
  have hdiv := Nat.div_mul_le_self (dom.highId - dom.lowId + 1).toNat rangesize.toNat
  have hlt := (dom.highId - dom.lowId + 1).toNat_lt
  refine ⟨rfl, hsize, hmax, ?_, ?_⟩ <;> simp only [UInt32.toNat_div] <;> omega

theorem AcceptedConfig.span_le {dom : IdmapDomain} {cfg : AutoridGlobalConfig}
    (hacc : AcceptedConfig dom cfg) :
    cfg.minvalue.toNat + cfg.maxranges.toNat * cfg.rangesize.toNat ≤ dom.highId.toNat + 1 := by
  have hle : dom.lowId.toNat ≤ dom.highId.toNat := UInt32.le_iff_toNat_le.mp dom.lowId_le
  have := hacc.ranges_le
  rw [hacc.minvalue_eq]
  omega

theorem AcceptedConfig.toNat_add_rangeLowId {dom : IdmapDomain} {cfg : AutoridGlobalConfig}
    (hacc : AcceptedConfig dom cfg) {k x : UInt32} (hk : k < cfg.maxranges)
    (hx : x < cfg.rangesize) :
    (x + rangeLowId cfg k).toNat = cfg.minvalue.toNat + k.toNat * cfg.rangesize.toNat + x.toNat := by
  rw [UInt32.lt_iff_toNat_lt] at hk hx
  have hend : (k.toNat + 1) * cfg.rangesize.toNat ≤ cfg.maxranges.toNat * cfg.rangesize.toNat :=
    Nat.mul_le_mul_right _ hk
  have hspan := hacc.span_le
  have hhigh := dom.highId.toNat_lt
  rw [Nat.succ_mul] at hend
  simp only [rangeLowId, UInt32.toNat_add, UInt32.toNat_mul]
  rw [Nat.mod_eq_of_lt (a := k.toNat * cfg.rangesize.toNat) (by omega)]
  rw [Nat.mod_eq_of_lt (by omega), Nat.mod_eq_of_lt (by omega)]
  omega

theorem idmapAutoridAddrange_cases {db db' : AutoridDb} {range range' : AutoridRangeConfig}
    {acquire : Bool} (h : idmapAutoridAddrange db range acquire = .ok (range', db')) :
    (∃ stored, db.ranges range.key = some stored ∧ db' = db ∧
      (acquire = true → ∃ globalcfg, db.config = some globalcfg ∧
        range' = withRangenum range globalcfg stored)) ∨
    (db.ranges range.key = none ∧ ∃ hwm globalcfg n, db.config = some globalcfg ∧
      n < globalcfg.maxranges ∧ db.owners n = none ∧ range' = withRangenum range globalcfg n ∧
      db' = { db with hwm := some hwm,
                      ranges := Function.update db.ranges range.key (some n),
                      owners := Function.update db.owners n (some range.key) }) := by
  unfold idmapAutoridAddrange at h
  split at h
  · rename_i stored hstored
    left
    refine ⟨stored, hstored, ?_⟩
    split at h
    · rename_i hacq
      cases hcfg : idmapAutoridLoadconfig db with
      | error e => simp [hcfg, Except.map] at h
      | ok globalcfg =>
        simp only [hcfg, Except.map, Except.ok.injEq, Prod.mk.injEq] at h
        exact ⟨h.2.symm, fun _ ↦ ⟨globalcfg, idmapAutoridLoadconfig_eq_ok.mp hcfg, h.1.symm⟩⟩
    · rename_i hacq
      split at h
      · cases h
      · cases h
        exact ⟨rfl, fun h ↦ absurd h hacq⟩
  · rename_i hnone
    right
    refine ⟨hnone, ?_⟩
    split at h
    · cases h
    split at h
    · cases h
    rename_i hwm _ _ globalcfg hcfg
    dsimp only at h
    generalize (if acquire = true then hwm else range.rangenum) = requested at h
    split at h
    · cases h
    rename_i hmax
    split at h
    · cases h
    rename_i howned
    cases h
    refine ⟨_, globalcfg, requested, idmapAutoridLoadconfig_eq_ok.mp hcfg, ?_, ?_, rfl, rfl⟩
    · exact UInt32.not_le.mp hmax
    · simpa using howned

structure RangeInv (cfg : AutoridGlobalConfig) (db : AutoridDb) : Prop where
  config_eq : db.config = some cfg
  owners_ranges : ∀ key n, db.ranges key = some n → db.owners n = some key
  owners_lt : ∀ n key, db.owners n = some key → n < cfg.maxranges

structure Extends (db db' : AutoridDb) : Prop where
  config_eq : db'.config = db.config
  ranges : ∀ key n, db.ranges key = some n → db'.ranges key = some n
  owners : ∀ n key, db.owners n = some key → db'.owners n = some key

theorem Extends.refl (db : AutoridDb) : Extends db db := ⟨rfl, fun _ _ h ↦ h, fun _ _ h ↦ h⟩

theorem Extends.trans {db₁ db₂ db₃ : AutoridDb} (h₁ : Extends db₁ db₂) (h₂ : Extends db₂ db₃) :
    Extends db₁ db₃ :=
  ⟨h₂.config_eq.trans h₁.config_eq, fun key n h ↦ h₂.ranges key n (h₁.ranges key n h),
    fun n key h ↦ h₂.owners n key (h₁.owners n key h)⟩

theorem RangeInv.store {cfg : AutoridGlobalConfig} {db : AutoridDb} (hinv : RangeInv cfg db)
    {key : RangeKey} {n hwm : UInt32} (hkey : db.ranges key = none) (hfree : db.owners n = none)
    (hn : n < cfg.maxranges) :
    RangeInv cfg { db with hwm := some hwm, ranges := Function.update db.ranges key (some n),
                           owners := Function.update db.owners n (some key) } ∧
    Extends db { db with hwm := some hwm, ranges := Function.update db.ranges key (some n),
                         owners := Function.update db.owners n (some key) } := by
  have hold : ∀ key' n', db.ranges key' = some n' → n' ≠ n := by
    intro key' n' hk' hn'
    have := hinv.owners_ranges key' n' hk'
    rw [hn', hfree] at this
    cases this
  refine ⟨⟨hinv.config_eq, ?_, ?_⟩, ⟨rfl, ?_, ?_⟩⟩ <;> dsimp only
  · intro key' n' hk'
    by_cases hkk : key' = key
    · subst hkk
      simp only [Function.update_self, Option.some.injEq] at hk'
      subst hk'
      simp
    · rw [Function.update_of_ne hkk] at hk'
      rw [Function.update_of_ne (hold key' n' hk')]
      exact hinv.owners_ranges key' n' hk'
  · intro n' key' hk'
    by_cases hnn : n' = n
    · rw [hnn]
      exact hn
    · rw [Function.update_of_ne hnn] at hk'
      exact hinv.owners_lt n' key' hk'
  · intro key' n' hk'
    have hne : key' ≠ key := by
      rintro rfl
      rw [hkey] at hk'
      cases hk'
    rw [Function.update_of_ne hne]
    exact hk'
  · intro n' key' hk'
    have hne : n' ≠ n := by
      rintro rfl
      rw [hfree] at hk'
      cases hk'
    rw [Function.update_of_ne hne]
    exact hk'

theorem RangeInv.addrange {cfg : AutoridGlobalConfig} {db db' : AutoridDb}
    {range range' : AutoridRangeConfig} {acquire : Bool} (hinv : RangeInv cfg db)
    (h : idmapAutoridAddrange db range acquire = .ok (range', db')) :
    RangeInv cfg db' ∧ Extends db db' := by
  rcases idmapAutoridAddrange_cases h with ⟨_, _, rfl, _⟩ | ⟨hkey, hwm, globalcfg, n, hcfg, hn, hfree, -, rfl⟩
  · exact ⟨hinv, .refl _⟩
  · rw [hinv.config_eq, Option.some.injEq] at hcfg
    subst hcfg
    exact hinv.store hkey hfree hn

theorem RangeInv.getDomainrange {cfg : AutoridGlobalConfig} {db db' : AutoridDb}
    {range range' : AutoridRangeConfig} {readOnly : Bool} (hinv : RangeInv cfg db)
    (h : idmapAutoridGetDomainrange db range readOnly = .ok (range', db')) :
    RangeInv cfg db' ∧ Extends db db' := by
  unfold idmapAutoridGetDomainrange at h
  split at h
  · cases h
    exact ⟨hinv, .refl db⟩
  · split at h
    · cases h
    · exact hinv.addrange h

inductive Reachable (dom : IdmapDomain) (rangesize : UInt32) (cfg : AutoridGlobalConfig) :
    AutoridDb → Prop
  | init {db : AutoridDb} :
      idmapAutoridInitialize dom rangesize emptyDb = .ok (cfg, db) → Reachable dom rangesize cfg db
  | addrange {db db' : AutoridDb} {range range' : AutoridRangeConfig} {acquire : Bool} :
      Reachable dom rangesize cfg db → idmapAutoridAddrange db range acquire = .ok (range', db') →
      Reachable dom rangesize cfg db'

theorem rangeInv_of_init {dom : IdmapDomain} {rangesize : UInt32} {db : AutoridDb}
    {cfg : AutoridGlobalConfig} (h : idmapAutoridInitialize dom rangesize emptyDb = .ok (cfg, db)) :
    RangeInv cfg db := by
  obtain ⟨-, -, db₁, hsave, hpre⟩ := idmapAutoridInitialize_eq_ok h
  obtain ⟨-, rfl⟩ := idmapAutoridSaveconfig_eq_ok hsave
  have hinv₁ : RangeInv cfg { idmapAutoridInitHwm emptyDb with config := some cfg } :=
    ⟨rfl, fun _ _ h ↦ by simp [idmapAutoridInitHwm, emptyDb] at h,
      fun _ _ h ↦ by simp [idmapAutoridInitHwm, emptyDb] at h⟩
  unfold idmapAutoridPreallocateWellknown at hpre
  split at hpre
  · cases hpre
    exact hinv₁
  · split at hpre
    · cases hpre
      exact (hinv₁.getDomainrange ‹_›).1
    · cases hpre

theorem Reachable.accepted {dom : IdmapDomain} {rangesize : UInt32} {cfg : AutoridGlobalConfig}
    {db : AutoridDb} (h : Reachable dom rangesize cfg db) : AcceptedConfig dom cfg := by
  induction h with
  | init hinit => exact idmapAutoridInitialize_accepted hinit
  | addrange _ _ ih => exact ih

theorem Reachable.rangeInv {dom : IdmapDomain} {rangesize : UInt32} {cfg : AutoridGlobalConfig}
    {db : AutoridDb} (h : Reachable dom rangesize cfg db) : RangeInv cfg db := by
  induction h with
  | init hinit => exact rangeInv_of_init hinit
  | addrange _ hadd ih => exact (ih.addrange hadd).1

theorem idmapAutoridGetrange_of_config {db : AutoridDb} {cfg : AutoridGlobalConfig}
    (hcfg : db.config = some cfg) (domsid : RangeDomain) (domainRangeIndex : UInt32) :
    idmapAutoridGetrange db domsid domainRangeIndex =
      match db.ranges ⟨domsid, domainRangeIndex⟩ with
      | none => .error .notFound
      | some n => .ok (n, rangeLowId cfg n) := by
  unfold idmapAutoridGetrange idmapAutoridGetrangeInt
  simp only [AutoridRangeConfig.key]
  split <;> simp [idmapAutoridLoadconfig, hcfg, Except.map, withRangenum]

theorem sidSplitRid_sidCompose {sid d : DomSid} {r : UInt32} (hsplit : sidSplitRid sid = some (d, r))
    (hlen : sid.subAuths.length ≤ 15) : sidCompose d r = sid := by
  unfold sidSplitRid at hsplit
  cases hlast : sid.subAuths.getLast? with
  | none => simp [hlast] at hsplit
  | some rid =>
    simp only [hlast, Option.map_some, Option.some.injEq, Prod.mk.injEq] at hsplit
    obtain ⟨rfl, rfl⟩ := hsplit
    have happ : sid.subAuths.dropLast ++ [rid] = sid.subAuths :=
      List.dropLast_append_getLast? rid hlast
    have hdrop : sid.subAuths.dropLast.length < 15 := by
      have := congrArg List.length happ
      simp only [List.length_append, List.length_singleton] at this
      omega
    simp only [sidCompose, hdrop, if_true, happ]

theorem idmapAutoridSidToId_of_range {env : AutoridEnv} {dom : IdmapDomain}
    {cfg : AutoridGlobalConfig} {db : AutoridDb} {map : IdMap} {d : DomSid} {r k : UInt32}
    (hcfg : db.config = some cfg) (hsplit : sidSplitRid map.sid = some (d, r))
    (hwell : sidCheckIsWellknownDomain d = false)
    (hbuiltin : ¬(d = globalSidBuiltin ∧ env.ignoreBuiltin))
    (hk : db.ranges ⟨.sid d, r / cfg.rangesize⟩ = some k) :
    idmapAutoridSidToId env dom cfg db map =
      (.ok, idmapAutoridSidToIdRid cfg.rangesize (rangeLowId cfg k) { map with status := .unknown } r,
        db) := by
  unfold idmapAutoridSidToId
  simp only [hsplit, hwell, hbuiltin, idmapAutoridGetrange_of_config hcfg, hk, Bool.false_eq_true,
    if_false]

theorem idmapAutoridSidToId_mapped {env : AutoridEnv} {dom : IdmapDomain}
    {cfg : AutoridGlobalConfig} {db db' : AutoridDb} {map map' : IdMap} {status : NtStatus}
    {d : DomSid} {r : UInt32} (hinv : RangeInv cfg db) (hsplit : sidSplitRid map.sid = some (d, r))
    (hwell : sidCheckIsWellknownDomain d = false)
    (h : idmapAutoridSidToId env dom cfg db map = (status, map', db'))
    (hmapped : map'.status = .mapped) :
    ∃ k, db'.ranges ⟨.sid d, r / cfg.rangesize⟩ = some k ∧
      map' = idmapAutoridSidToIdRid cfg.rangesize (rangeLowId cfg k)
        { map with status := .unknown } r ∧
      status = .ok ∧ RangeInv cfg db' ∧ Extends db db' := by
  unfold idmapAutoridSidToId at h
  simp only [hsplit, hwell, Bool.false_eq_true, if_false,
    idmapAutoridGetrange_of_config hinv.config_eq] at h
  by_cases hbuiltin : d = globalSidBuiltin ∧ env.ignoreBuiltin = true
  · rw [if_pos hbuiltin] at h
    cases h
    cases hmapped
  rw [if_neg hbuiltin] at h
  cases hk : db.ranges ⟨.sid d, r / cfg.rangesize⟩ with
  | some k =>
    simp only [hk] at h
    cases h
    exact ⟨k, hk, rfl, rfl, hinv, .refl db⟩
  | none =>
    simp only [hk] at h
    split_ifs at h with hro halloc
    · cases h
      cases hmapped
    · split at h
      · rename_i range' db'' hadd
        cases h
        obtain ⟨hinv', hext⟩ := hinv.addrange hadd
        rcases idmapAutoridAddrange_cases hadd with
          ⟨stored, hstored, -, -⟩ | ⟨-, hwm, globalcfg, n, hcfg, -, -, hrange, rfl⟩
        · exact absurd (hstored.symm.trans hk) (Option.some_ne_none stored)
        · rw [hinv.config_eq, Option.some.injEq] at hcfg
          subst hcfg
          refine ⟨n, by simp [AutoridRangeConfig.key], by rw [hrange]; rfl, rfl, hinv', hext⟩
      · cases h
        cases hmapped
    · cases h
      cases hmapped

theorem AcceptedConfig.toNat_bound {dom : IdmapDomain} {cfg : AutoridGlobalConfig}
    (hacc : AcceptedConfig dom cfg) :
    (cfg.minvalue + cfg.rangesize * cfg.maxranges).toNat =
      (cfg.minvalue.toNat + cfg.maxranges.toNat * cfg.rangesize.toNat) % 2 ^ 32 := by
  rw [UInt32.toNat_add, UInt32.toNat_mul, Nat.mul_comm cfg.rangesize.toNat,
    Nat.mod_eq_of_lt hacc.ranges_lt]

theorem AcceptedConfig.span_le_two_pow {dom : IdmapDomain} {cfg : AutoridGlobalConfig}
    (hacc : AcceptedConfig dom cfg) :
    cfg.minvalue.toNat + cfg.maxranges.toNat * cfg.rangesize.toNat ≤ 2 ^ 32 := by
  have := hacc.span_le
  have := dom.highId.toNat_lt
  omega

theorem idmapAutoridIdToSid_of_span_eq {dom : IdmapDomain} {cfg : AutoridGlobalConfig}
    (hacc : AcceptedConfig dom cfg)
    (hwrap : cfg.minvalue.toNat + cfg.maxranges.toNat * cfg.rangesize.toNat = 2 ^ 32)
    (env : AutoridEnv) (db : AutoridDb) (map : IdMap) :
    idmapAutoridIdToSid env cfg db map = (.ok, { map with status := .unknown }) := by
  have hbound : (cfg.minvalue + cfg.rangesize * cfg.maxranges).toNat = 0 := by
    rw [hacc.toNat_bound, hwrap, Nat.mod_self]
  have hmin : 0 < cfg.minvalue.toNat := by
    have := hacc.ranges_lt
    omega
  unfold idmapAutoridIdToSid
  by_cases hlow : map.xidId < cfg.minvalue
  · rw [if_pos hlow]
  · have hhigh : map.xidId > cfg.minvalue + cfg.rangesize * cfg.maxranges := by
      rw [GT.gt, UInt32.lt_iff_toNat_lt, hbound]
      rw [UInt32.lt_iff_toNat_lt] at hlow
      omega
    rw [if_neg hlow, if_pos hhigh]

theorem idmapAutoridIdToSid_outside {dom : IdmapDomain} {rangesize : UInt32}
    {cfg : AutoridGlobalConfig} {db : AutoridDb} (hdb : Reachable dom rangesize cfg db)
    (env : AutoridEnv) (map : IdMap) (hout : map.xidId < cfg.minvalue ∨
      cfg.minvalue.toNat + cfg.maxranges.toNat * cfg.rangesize.toNat ≤ map.xidId.toNat) :
    idmapAutoridIdToSid env cfg db map = (.ok, { map with status := .unknown }) := by
  have hacc := hdb.accepted
  have hinv := hdb.rangeInv
  rcases Nat.lt_or_eq_of_le hacc.span_le_two_pow with hlt | hwrap
  swap
  · exact idmapAutoridIdToSid_of_span_eq hacc hwrap env db map
  unfold idmapAutoridIdToSid
  by_cases hlow : map.xidId < cfg.minvalue
  · rw [if_pos hlow]
  rw [if_neg hlow]
  have hge := hout.resolve_left hlow
  have hbound : (cfg.minvalue + cfg.rangesize * cfg.maxranges).toNat =
      cfg.minvalue.toNat + cfg.maxranges.toNat * cfg.rangesize.toNat := by
    rw [hacc.toNat_bound, Nat.mod_eq_of_lt hlt]
  by_cases hhigh : map.xidId > cfg.minvalue + cfg.rangesize * cfg.maxranges
  · rw [if_pos hhigh]
  rw [if_neg hhigh]
  have hid : map.xidId.toNat = cfg.minvalue.toNat + cfg.maxranges.toNat * cfg.rangesize.toNat := by
    rw [GT.gt, UInt32.lt_iff_toNat_lt, hbound] at hhigh
    omega
  have hsize : 0 < cfg.rangesize.toNat := by
    have := hacc.rangesize_ge
    omega
  have hnum : (map.xidId - cfg.minvalue) / cfg.rangesize = cfg.maxranges := by
    apply UInt32.toNat_inj.mp
    rw [UInt32.toNat_div, UInt32.toNat_sub_of_le _ _ (UInt32.not_lt.mp hlow), hid,
      Nat.add_sub_cancel_left, Nat.mul_div_cancel _ hsize]
  have hnone : db.owners cfg.maxranges = none := by
    cases h : db.owners cfg.maxranges with
    | none => rfl
    | some key => exact absurd (hinv.owners_lt _ _ h) (UInt32.lt_irrefl _)
  dsimp only
  rw [hnum, hnone]

theorem idmapAutoridIdToSid_rangeLowId {dom : IdmapDomain} {cfg : AutoridGlobalConfig}
    {db : AutoridDb} (hacc : AcceptedConfig dom cfg) (hinv : RangeInv cfg db)
    (hlt : cfg.minvalue.toNat + cfg.maxranges.toNat * cfg.rangesize.toNat < 2 ^ 32)
    {k x domainRangeIndex : UInt32} {d : DomSid}
    (howner : db.owners k = some ⟨.sid d, domainRangeIndex⟩) (hx : x < cfg.rangesize)
    (env : AutoridEnv) (map : IdMap) :
    idmapAutoridIdToSid env cfg db { map with xidId := x + rangeLowId cfg k } =
      (.ok, { map with xidId := x + rangeLowId cfg k,
                       sid := sidCompose d (x + domainRangeIndex * cfg.rangesize),
                       status := .mapped, xidType := .both }) := by
  have hk := hinv.owners_lt _ _ howner
  have hid := hacc.toNat_add_rangeLowId hk hx
  have hbound : (cfg.minvalue + cfg.rangesize * cfg.maxranges).toNat =
      cfg.minvalue.toNat + cfg.maxranges.toNat * cfg.rangesize.toNat := by
    rw [hacc.toNat_bound, Nat.mod_eq_of_lt hlt]
  rw [UInt32.lt_iff_toNat_lt] at hk hx
  have hend : (k.toNat + 1) * cfg.rangesize.toNat ≤ cfg.maxranges.toNat * cfg.rangesize.toNat :=
    Nat.mul_le_mul_right _ hk
  rw [Nat.succ_mul] at hend
  have hlow : ¬ x + rangeLowId cfg k < cfg.minvalue := by
    rw [UInt32.lt_iff_toNat_lt, hid]
    omega
  have hhigh : ¬ x + rangeLowId cfg k > cfg.minvalue + cfg.rangesize * cfg.maxranges := by
    rw [GT.gt, UInt32.lt_iff_toNat_lt, hbound, hid]
    omega
  have hnorm : (x + rangeLowId cfg k - cfg.minvalue).toNat = x.toNat + cfg.rangesize.toNat * k.toNat := by
    rw [UInt32.toNat_sub_of_le _ _ (UInt32.not_lt.mp hlow), hid]
    rw [Nat.mul_comm]
    omega
  have hnum : (x + rangeLowId cfg k - cfg.minvalue) / cfg.rangesize = k := by
    apply UInt32.toNat_inj.mp
    rw [UInt32.toNat_div, hnorm, Nat.add_mul_div_left _ _ (by omega), Nat.div_eq_of_lt hx,
      Nat.zero_add]
  have hred : (x + rangeLowId cfg k - cfg.minvalue) % cfg.rangesize = x := by
    apply UInt32.toNat_inj.mp
    rw [UInt32.toNat_mod, hnorm, Nat.add_mul_mod_self_left, Nat.mod_eq_of_lt hx]
  unfold idmapAutoridIdToSid
  dsimp only
  rw [if_neg hlow, if_neg hhigh, hnum, howner, hred]

theorem mod_add_div_mul (r n : UInt32) : r % n + r / n * n = r := by
  apply UInt32.toNat_inj.mp
  have hsplit := Nat.mod_add_div' r.toNat n.toNat
  have hr := r.toNat_lt
  rw [UInt32.toNat_add, UInt32.toNat_mul, UInt32.toNat_mod, UInt32.toNat_div,
    Nat.mod_eq_of_lt (a := r.toNat / n.toNat * n.toNat) (by omega), Nat.mod_eq_of_lt (by omega),
    hsplit]

theorem AcceptedConfig.rangeLowId_mem {dom : IdmapDomain} {cfg : AutoridGlobalConfig}
    (hacc : AcceptedConfig dom cfg) {k x : UInt32} (hk : k < cfg.maxranges)
    (hx : x < cfg.rangesize) :
    dom.lowId ≤ x + rangeLowId cfg k ∧ x + rangeLowId cfg k ≤ dom.highId := by
  have hid := hacc.toNat_add_rangeLowId hk hx
  have hspan := hacc.span_le
  rw [UInt32.lt_iff_toNat_lt] at hk hx
  have hend : (k.toNat + 1) * cfg.rangesize.toNat ≤ cfg.maxranges.toNat * cfg.rangesize.toNat :=
    Nat.mul_le_mul_right _ hk
  rw [Nat.succ_mul] at hend
  rw [UInt32.le_iff_toNat_le, UInt32.le_iff_toNat_le, hid, ← hacc.minvalue_eq]
  omega

theorem AcceptedConfig.rangeLowId_inj {dom : IdmapDomain} {cfg : AutoridGlobalConfig}
    (hacc : AcceptedConfig dom cfg) {k₁ k₂ x₁ x₂ : UInt32} (hk₁ : k₁ < cfg.maxranges)
    (hk₂ : k₂ < cfg.maxranges) (hx₁ : x₁ < cfg.rangesize) (hx₂ : x₂ < cfg.rangesize)
    (h : x₁ + rangeLowId cfg k₁ = x₂ + rangeLowId cfg k₂) : k₁ = k₂ ∧ x₁ = x₂ := by
  have hnat := congrArg UInt32.toNat h
  rw [hacc.toNat_add_rangeLowId hk₁ hx₁, hacc.toNat_add_rangeLowId hk₂ hx₂] at hnat
  rw [UInt32.lt_iff_toNat_lt] at hx₁ hx₂
  have hsize : 0 < cfg.rangesize.toNat := by omega
  have hoff : x₁.toNat + cfg.rangesize.toNat * k₁.toNat = x₂.toNat + cfg.rangesize.toNat * k₂.toNat := by
    rw [Nat.mul_comm cfg.rangesize.toNat, Nat.mul_comm cfg.rangesize.toNat]
    omega
  have hdiv := congrArg (· / cfg.rangesize.toNat) hoff
  have hmod := congrArg (· % cfg.rangesize.toNat) hoff
  simp only [Nat.add_mul_div_left _ _ hsize, Nat.div_eq_of_lt hx₁, Nat.div_eq_of_lt hx₂,
    Nat.zero_add] at hdiv
  simp only [Nat.add_mul_mod_self_left, Nat.mod_eq_of_lt hx₁, Nat.mod_eq_of_lt hx₂] at hmod
  exact ⟨UInt32.toNat_inj.mp hdiv, UInt32.toNat_inj.mp hmod⟩

theorem idmapAutoridSidToId_owner {env : AutoridEnv} {dom : IdmapDomain}
    {cfg : AutoridGlobalConfig} {db db' : AutoridDb} {map map' : IdMap} {status : NtStatus}
    {d : DomSid} {r : UInt32} (hacc : AcceptedConfig dom cfg) (hinv : RangeInv cfg db)
    (hlen : map.sid.subAuths.length ≤ 15) (hsplit : sidSplitRid map.sid = some (d, r))
    (hwell : sidCheckIsWellknownDomain d = false)
    (h : idmapAutoridSidToId env dom cfg db map = (status, map', db'))
    (hmapped : map'.status = .mapped) :
    ∃ k, db'.ranges ⟨.sid d, r / cfg.rangesize⟩ = some k ∧
      db'.owners k = some ⟨.sid d, r / cfg.rangesize⟩ ∧ k < cfg.maxranges ∧
      map'.xidId = r % cfg.rangesize + rangeLowId cfg k ∧ r % cfg.rangesize < cfg.rangesize ∧
      map' = { map with xidId := r % cfg.rangesize + rangeLowId cfg k, xidType := .both,
                        status := .mapped } ∧
      sidCompose d (r % cfg.rangesize + r / cfg.rangesize * cfg.rangesize) = map.sid ∧
      RangeInv cfg db' ∧ Extends db db' := by
  obtain ⟨k, hk, rfl, -, hinv', hext⟩ := idmapAutoridSidToId_mapped hinv hsplit hwell h hmapped
  have howner := hinv'.owners_ranges _ _ hk
  have hsize : 0 < cfg.rangesize.toNat := by
    have := hacc.rangesize_ge
    omega
  refine ⟨k, hk, howner, hinv'.owners_lt _ _ howner, rfl, ?_, rfl, ?_, hinv', hext⟩
  · rw [UInt32.lt_iff_toNat_lt, UInt32.toNat_mod]
    exact Nat.mod_lt _ hsize
  · rw [mod_add_div_mul]
    exact sidSplitRid_sidCompose hsplit hlen

theorem idmapAutorid_wrappedSpan_unmapped {env : AutoridEnv} {dom : IdmapDomain}
    {rangesize : UInt32} {cfg : AutoridGlobalConfig} {db : AutoridDb} {map : IdMap} {d : DomSid}
    {r k : UInt32} (hdb : Reachable dom rangesize cfg db)
    (hwrap : cfg.minvalue.toNat + cfg.maxranges.toNat * cfg.rangesize.toNat = 2 ^ 32)
    (hsplit : sidSplitRid map.sid = some (d, r)) (hwell : sidCheckIsWellknownDomain d = false)
    (hbuiltin : ¬(d = globalSidBuiltin ∧ env.ignoreBuiltin = true))
    (hk : db.ranges ⟨.sid d, r / cfg.rangesize⟩ = some k) :
    idmapAutoridSidToId env dom cfg db map =
        (.ok, { map with xidId := r % cfg.rangesize + rangeLowId cfg k, xidType := .both,
                         status := .mapped }, db) ∧
      dom.lowId ≤ r % cfg.rangesize + rangeLowId cfg k ∧
      r % cfg.rangesize + rangeLowId cfg k ≤ dom.highId ∧
      idmapAutoridIdToSid env cfg db
          { map with xidId := r % cfg.rangesize + rangeLowId cfg k, xidType := .both,
                     status := .mapped } =
        (.ok, { map with xidId := r % cfg.rangesize + rangeLowId cfg k, xidType := .both,
                         status := .unknown }) := by
  have hacc := hdb.accepted
  have hinv := hdb.rangeInv
  have hsize : 0 < cfg.rangesize.toNat := by
    have := hacc.rangesize_ge
    omega
  have hx : r % cfg.rangesize < cfg.rangesize := by
    rw [UInt32.lt_iff_toNat_lt, UInt32.toNat_mod]
    exact Nat.mod_lt _ hsize
  have hlt : k < cfg.maxranges := hinv.owners_lt _ _ (hinv.owners_ranges _ _ hk)
  obtain ⟨hlow, hhigh⟩ := hacc.rangeLowId_mem hlt hx
  refine ⟨idmapAutoridSidToId_of_range hinv.config_eq hsplit hwell hbuiltin hk, hlow, hhigh, ?_⟩
  exact idmapAutoridIdToSid_of_span_eq hacc hwrap env db _

def wrappedDomain : IdmapDomain := ⟨"*", 2 ^ 31, 2 ^ 32 - 1, false, by decide⟩

def wrappedConfig : AutoridGlobalConfig := ⟨2 ^ 31, 2 ^ 20, 2048⟩

def exampleDomainSid : DomSid := ⟨1, [0, 0, 0, 0, 0, 5], [21, 1, 2, 3]⟩

def exampleUser : IdMap := ⟨⟨1, [0, 0, 0, 0, 0, 5], [21, 1, 2, 3, 1000]⟩, 0, .uid, .unknown⟩

def exampleEnv : AutoridEnv :=
  ⟨false, ⟨1, [0, 0, 0, 0, 0, 5], [21, 7, 8, 9]⟩, none, fun _ ↦ false,
    fun map db ↦ (.noneMapped, map, db), fun map ↦ (.noneMapped, map)⟩

def exampleRanges (cfg : AutoridGlobalConfig) : AutoridDb :=
  ⟨Function.update (Function.update (fun _ ↦ none) ⟨.alloc, 0⟩ (some 0))
      ⟨.sid exampleDomainSid, 0⟩ (some 1),
    Function.update (Function.update (fun _ ↦ none) 0 (some ⟨.alloc, 0⟩)) 1
      (some ⟨.sid exampleDomainSid, 0⟩),
    some 2, some cfg⟩

theorem reachable_wrappedDomain :
    Reachable wrappedDomain (2 ^ 20) wrappedConfig (exampleRanges wrappedConfig) :=
  .addrange (.init rfl)
    (show idmapAutoridAddrange _ ⟨.sid exampleDomainSid, 0, 0, 0, 0⟩ true =
      .ok (_, exampleRanges wrappedConfig) from rfl)

theorem idmapAutorid_wrappedSpan_unmapped_exampleUser :
    idmapAutoridSidToId exampleEnv wrappedDomain wrappedConfig (exampleRanges wrappedConfig)
        exampleUser =
        (.ok, { exampleUser with xidId := 1000 % 2 ^ 20 + rangeLowId wrappedConfig 1,
                                 xidType := .both, status := .mapped },
          exampleRanges wrappedConfig) ∧
      wrappedDomain.lowId ≤ 1000 % 2 ^ 20 + rangeLowId wrappedConfig 1 ∧
      1000 % 2 ^ 20 + rangeLowId wrappedConfig 1 ≤ wrappedDomain.highId ∧
      idmapAutoridIdToSid exampleEnv wrappedConfig (exampleRanges wrappedConfig)
          { exampleUser with xidId := 1000 % 2 ^ 20 + rangeLowId wrappedConfig 1,
                             xidType := .both, status := .mapped } =
        (.ok, { exampleUser with xidId := 1000 % 2 ^ 20 + rangeLowId wrappedConfig 1,
                                 xidType := .both, status := .unknown }) :=
  idmapAutorid_wrappedSpan_unmapped (d := exampleDomainSid) (r := 1000) reachable_wrappedDomain
    (by decide) rfl (by decide) (by decide) rfl

theorem idmapAutoridIdToSid_sidToId {env : AutoridEnv} {dom : IdmapDomain} {rangesize : UInt32}
    {cfg : AutoridGlobalConfig} {db db' : AutoridDb} {map map' : IdMap} {status : NtStatus}
    {d : DomSid} {r : UInt32} (hdb : Reachable dom rangesize cfg db)
    (hlt : cfg.minvalue.toNat + cfg.maxranges.toNat * cfg.rangesize.toNat < 2 ^ 32)
    (hlen : map.sid.subAuths.length ≤ 15) (hsplit : sidSplitRid map.sid = some (d, r))
    (hwell : sidCheckIsWellknownDomain d = false)
    (h : idmapAutoridSidToId env dom cfg db map = (status, map', db'))
    (hmapped : map'.status = .mapped) :
    ∃ k, db'.ranges ⟨.sid d, r / cfg.rangesize⟩ = some k ∧
      map'.xidId = r % cfg.rangesize + rangeLowId cfg k ∧
      dom.lowId ≤ map'.xidId ∧ map'.xidId ≤ dom.highId ∧
      idmapAutoridIdToSid env cfg db' map' = (.ok, { map' with sid := map.sid }) := by
  have hacc := hdb.accepted
  obtain ⟨k, hk, howner, hklt, hid, hx, rfl, hsid, hinv', -⟩ :=
    idmapAutoridSidToId_owner hacc hdb.rangeInv hlen hsplit hwell h hmapped
  obtain ⟨hlow, hhigh⟩ := hacc.rangeLowId_mem hklt hx
  refine ⟨k, hk, rfl, hlow, hhigh, ?_⟩
  rw [idmapAutoridIdToSid_rangeLowId hacc hinv' hlt howner hx env
    { map with xidType := .both, status := .mapped }, hsid]

def plainDomain : IdmapDomain := ⟨"*", 10000, 99999, false, by decide⟩

def plainConfig : AutoridGlobalConfig := ⟨10000, 10000, 9⟩

theorem exampleUser_sidToId :
    idmapAutoridSidToId exampleEnv plainDomain plainConfig (exampleRanges plainConfig) exampleUser =
      (.ok, { exampleUser with xidId := 21000, xidType := .both, status := .mapped },
        exampleRanges plainConfig) := rfl

theorem reachable_plainDomain :
    Reachable plainDomain 10000 plainConfig (exampleRanges plainConfig) :=
  .addrange (.init rfl)
    (show idmapAutoridAddrange _ ⟨.sid exampleDomainSid, 0, 0, 0, 0⟩ true =
      .ok (_, exampleRanges plainConfig) from rfl)

theorem idmapAutoridIdToSid_sidToId_exampleUser :
    ∃ k, (exampleRanges plainConfig).ranges ⟨.sid exampleDomainSid, 1000 / 10000⟩ = some k ∧
      (21000 : UInt32) = 1000 % 10000 + rangeLowId plainConfig k ∧
      plainDomain.lowId ≤ 21000 ∧ (21000 : UInt32) ≤ plainDomain.highId ∧
      idmapAutoridIdToSid exampleEnv plainConfig (exampleRanges plainConfig)
          { exampleUser with xidId := 21000, xidType := .both, status := .mapped } =
        (.ok, { exampleUser with xidId := 21000, xidType := .both, status := .mapped }) :=
  idmapAutoridIdToSid_sidToId reachable_plainDomain (by decide) (by decide) rfl (by decide)
    exampleUser_sidToId rfl

theorem idmapAutoridSidToId_injective {env : AutoridEnv} {dom : IdmapDomain}
    {rangesize : UInt32} {cfg : AutoridGlobalConfig} {db db₁ db₂ : AutoridDb}
    {map₁ map₂ m₁ m₂ : IdMap} {s₁ s₂ : NtStatus} {d₁ d₂ : DomSid} {r₁ r₂ : UInt32}
    (hdb : Reachable dom rangesize cfg db)
    (hlen₁ : map₁.sid.subAuths.length ≤ 15) (hlen₂ : map₂.sid.subAuths.length ≤ 15)
    (hsplit₁ : sidSplitRid map₁.sid = some (d₁, r₁))
    (hsplit₂ : sidSplitRid map₂.sid = some (d₂, r₂))
    (hwell₁ : sidCheckIsWellknownDomain d₁ = false)
    (hwell₂ : sidCheckIsWellknownDomain d₂ = false)
    (h₁ : idmapAutoridSidToId env dom cfg db map₁ = (s₁, m₁, db₁))
    (h₂ : idmapAutoridSidToId env dom cfg db₁ map₂ = (s₂, m₂, db₂))
    (hm₁ : m₁.status = .mapped) (hm₂ : m₂.status = .mapped) (hid : m₁.xidId = m₂.xidId) :
    map₁.sid = map₂.sid := by
  have hacc := hdb.accepted
  obtain ⟨k₁, -, howner₁, hk₁, hid₁, hx₁, -, hsid₁, hinv₁, -⟩ :=
    idmapAutoridSidToId_owner hacc hdb.rangeInv hlen₁ hsplit₁ hwell₁ h₁ hm₁
  obtain ⟨k₂, -, howner₂, hk₂, hid₂, hx₂, -, hsid₂, -, hext⟩ :=
    idmapAutoridSidToId_owner hacc hinv₁ hlen₂ hsplit₂ hwell₂ h₂ hm₂
  obtain ⟨rfl, hxeq⟩ := hacc.rangeLowId_inj hk₁ hk₂ hx₁ hx₂ (hid₁.symm.trans (hid.trans hid₂))
  have hkey := (hext.owners _ _ howner₁).symm.trans howner₂
  simp only [Option.some.injEq, RangeKey.mk.injEq, RangeDomain.sid.injEq] at hkey
  obtain ⟨rfl, hidx⟩ := hkey
  rw [← hsid₁, ← hsid₂, hxeq, hidx]

theorem idmapAutoridSidToId_injective_exampleUser :
    exampleUser.sid = exampleUser.sid :=
  idmapAutoridSidToId_injective reachable_plainDomain (by decide) (by decide) rfl rfl
    (by decide) (by decide) exampleUser_sidToId exampleUser_sidToId rfl rfl rfl

theorem idmapAutoridIdToSid_outside_rangesEnd :
    idmapAutoridIdToSid exampleEnv plainConfig (exampleRanges plainConfig)
        { exampleUser with xidId := 100000 } =
      (.ok, { exampleUser with xidId := 100000, status := .unknown }) :=
  idmapAutoridIdToSid_outside reachable_plainDomain exampleEnv _ (.inr (by decide))

end Samba.Winbindd.Autorid
