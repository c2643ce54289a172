import Mathlib

namespace Samba.Util.Time

/-- `TIME_T_MAX` of the 64-bit build: `source3/wscript` defines it as
`67768036191676799ll`, the largest `time_t` that `gmtime` takes, ahead of the
`#ifndef` fallback `MIN(INT32_MAX, _TYPE_MAXIMUM(time_t))` of `time.h`. -/
def timeTMax : Int := 67768036191676799

/-- `NTTIME_MAX` is `INT64_MAX`. -/
def nttimeMax : UInt64 := 0x7fffffffffffffff

def nttimeMin : UInt64 := 1

def nttimeOmit : UInt64 := 0

def nttimeFreeze : UInt64 := 0xffffffffffffffff

def nttimeThaw : UInt64 := 0xfffffffffffffffe

def timeFixupConstantInt : Int := 11644473600

/-- `SAMBA_UTIME_OMIT` is `UTIME_OMIT`, `(1l << 30) - 2l`. -/
def sambaUtimeOmit : Int := 2 ^ 30 - 2

structure Timespec where
  tvSec : Int
  tvNsec : Int
deriving DecidableEq, Repr

def makeOmitTimespec : Timespec := { tvSec := 0, tvNsec := sambaUtimeOmit }

def isOmitTimespec (ts : Timespec) : Bool := ts.tvNsec == sambaUtimeOmit

def timespecCompare (ts1 ts2 : Timespec) : Int :=
  if ts1.tvSec > ts2.tvSec then 1
  else if ts1.tvSec < ts2.tvSec then -1
  else if ts1.tvNsec > ts2.tvNsec then 1
  else if ts1.tvNsec < ts2.tvNsec then -1
  else 0

def int64OfNttime (nt : UInt64) : Int :=
  if nt.toNat < 2 ^ 63 then nt.toNat else (nt.toNat : Int) - 2 ^ 64

def ntTimeToUnixTimespecRaw (nt : UInt64) : Timespec :=
  let d := int64OfNttime nt
  let tvNsec := d.tmod (1000 * 1000 * 10) * 100
  let d := d.tdiv (1000 * 1000 * 10)
  let d := d - timeFixupConstantInt
  { tvSec := d, tvNsec := tvNsec }

def ntTimeToFullTimespec (nt : UInt64) : Timespec :=
  if nt = nttimeOmit then makeOmitTimespec
  else if nt = nttimeFreeze ∨ nt = nttimeThaw then makeOmitTimespec
  else
    let nt := if nt > nttimeMax then nttimeMax else nt
    let ret := ntTimeToUnixTimespecRaw nt
    if ret.tvSec ≥ timeTMax then { tvSec := timeTMax, tvNsec := 0 } else ret

def normalizeNsec (tvSec tvNsec : Int) : Option Timespec :=
  if tvNsec > 1000000000 then
    if tvSec > timeTMax then none
    else normalizeNsec (tvSec + 1) (tvNsec - 1000000000)
  else some { tvSec := tvSec, tvNsec := tvNsec }
termination_by tvNsec.toNat
decreasing_by omega

def fullTimespecToNtTime (ts : Timespec) : UInt64 :=
  if isOmitTimespec ts then nttimeOmit
  else
    match normalizeNsec ts.tvSec ts.tvNsec with
    | none => nttimeMax
    | some ts =>
      if ts.tvSec ≥ timeTMax then nttimeMax
      else if ts.tvSec + timeFixupConstantInt ≤ 0 then nttimeMin
      else
        UInt64.ofInt ((timeFixupConstantInt + ts.tvSec) * (1000 * 1000 * 10) + ts.tvNsec.tdiv 100)

theorem normalizeNsec_of_le {tvSec tvNsec : Int} (h : tvNsec ≤ 1000000000) :
    normalizeNsec tvSec tvNsec = some { tvSec := tvSec, tvNsec := tvNsec } := by
  rw [normalizeNsec, if_neg (by omega)]

theorem isOmitTimespec_of_le {ts : Timespec} (h : ts.tvNsec ≤ 1000000000) :
    isOmitTimespec ts = false := by
  unfold isOmitTimespec sambaUtimeOmit
  simp only [beq_eq_false_iff_ne, ne_eq]
  omega

theorem toNat_ofInt (x : Int) : ((UInt64.ofInt x).toNat : Int) = x % 2 ^ 64 := by
  have hnonneg : 0 ≤ x % 2 ^ 64 := Int.emod_nonneg _ (by decide)
  have hlt : (x % 2 ^ 64).toNat < 2 ^ 64 := by omega
  rw [UInt64.ofInt, UInt64.toNat_ofNat', Nat.mod_eq_of_lt hlt, Int.toNat_of_nonneg hnonneg]

theorem toNat_fullTimespecToNtTime {ts : Timespec} (h0 : 0 ≤ ts.tvNsec)
    (h1 : ts.tvNsec ≤ 1000000000) :
    ((fullTimespecToNtTime ts).toNat : Int) =
      if timeTMax ≤ ts.tvSec then 2 ^ 63 - 1
      else if ts.tvSec + timeFixupConstantInt ≤ 0 then 1
      else ((timeFixupConstantInt + ts.tvSec) * 10000000 + ts.tvNsec / 100) % 2 ^ 64 := by
  rw [fullTimespecToNtTime, if_neg (by rw [isOmitTimespec_of_le h1]; decide),
    normalizeNsec_of_le h1]
  dsimp only
  split_ifs with hmax hmin
  · rfl
  · rfl
  · rw [Int.tdiv_eq_ediv_of_nonneg h0, toNat_ofInt]
    rfl

theorem fullTimespecToNtTime_wraps :
    fullTimespecToNtTime { tvSec := 1833029933770, tvNsec := 0 } = 18446744073700000000 ∧
      fullTimespecToNtTime { tvSec := 1833029933771, tvNsec := 0 } = 448384 ∧
      timespecCompare { tvSec := 1833029933770, tvNsec := 0 }
        { tvSec := 1833029933771, tvNsec := 0 } = -1 ∧
      ntTimeToFullTimespec (fullTimespecToNtTime { tvSec := 1833029933771, tvNsec := 0 }) ≠
        { tvSec := 1833029933771, tvNsec := 0 } ∧
      fullTimespecToNtTime (ntTimeToFullTimespec 0x8000000000000000) = nttimeMax := by
  have hbefore : fullTimespecToNtTime { tvSec := 1833029933770, tvNsec := 0 } =
      18446744073700000000 := by
    rw [← UInt64.toNat_inj, ← Int.natCast_inj, toNat_fullTimespecToNtTime (by decide) (by decide)]
    decide
  have hafter : fullTimespecToNtTime { tvSec := 1833029933771, tvNsec := 0 } = 448384 := by
    rw [← UInt64.toNat_inj, ← Int.natCast_inj, toNat_fullTimespecToNtTime (by decide) (by decide)]
    decide
  have hclamp : ntTimeToFullTimespec 0x8000000000000000 =
      { tvSec := 910692730085, tvNsec := 477580700 } := by decide
  refine ⟨hbefore, hafter, by decide, by rw [hafter]; decide, ?_⟩
  rw [hclamp, ← UInt64.toNat_inj, ← Int.natCast_inj,
    toNat_fullTimespecToNtTime (by decide) (by decide)]
  decide

end Samba.Util.Time
