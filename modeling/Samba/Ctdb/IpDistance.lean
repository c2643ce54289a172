import Samba.Lib.CommonPrefix

namespace Samba.Ctdb.IpDistance

open Samba.Lib.CommonPrefix

/-- `IP_KEYLEN`: the 32-bit words of a key. -/
def ipKeylen : Nat := 4

inductive CtdbSockAddr
  | inet (sAddr : UInt32)
  | inet6 (a0 a1 a2 a3 : UInt32)
  | other (family : UInt16)
  deriving DecidableEq, Repr

/-- `ip_key`: an IPv4 address in the last word, an IPv6 address in all four,
and a zeroed key for any other family. -/
def ipKey : CtdbSockAddr → List UInt32
  | .inet a => [0, 0, 0, a]
  | .inet6 a0 a1 a2 a3 => [a0, a1, a2, a3]
  | .other _ => [0, 0, 0, 0]

def clzLoop : Nat → UInt32 → Nat → Nat
  | 0, _, distance => distance
  | fuel + 1, x, distance =>
    if x &&& ((1 : UInt32) <<< 31) = 0 then clzLoop fuel (x <<< 1) (distance + 1) else distance

/-- `ip_distance(ip1, ip2)`. -/
def ipDistance (ip1 ip2 : CtdbSockAddr) : Nat :=
  ((ipKey ip1).zip (ipKey ip2)).foldl
    (fun distance (a, t) ↦
      let x := a ^^^ t
      if x = 0 then distance + 32 else clzLoop 32 x distance) 0

def wordBits (w : UInt32) : List Bool := bits 32 w.toNat

def keyBits (ip : CtdbSockAddr) : List Bool := (ipKey ip).flatMap wordBits

def wordDistance (a t : UInt32) : Nat := lcp (wordBits a) (wordBits t)

def trailingDistance : List UInt32 → List UInt32 → Nat
  | w :: ws, w' :: ws' =>
    if w = w' then trailingDistance ws ws' else (List.zipWith wordDistance ws ws').sum
  | _, _ => 0

@[simp]
theorem length_wordBits (w : UInt32) : (wordBits w).length = 32 :=
  length_bits 32 w.toNat

theorem wordBits_inj {a t : UInt32} (h : wordBits a = wordBits t) : a = t :=
  UInt32.toNat_inj.1 (bits_inj a.toNat_lt t.toNat_lt h)

-- equation lemmas made once, before the proofs below use them in parallel
attribute [local simp] wordBits.eq_1 wordDistance.eq_1
attribute [-simp] wordBits.eq_1 wordDistance.eq_1

theorem wordBits_eq_zeros_iff (x : UInt32) : wordBits x = List.replicate 32 false ↔ x = 0 := by
  constructor
  · intro h
    apply wordBits_inj
    rw [h, wordBits, UInt32.toNat_zero, bits_zero]
  · rintro rfl
    exact bits_zero 32

theorem wordDistance_self (a : UInt32) : wordDistance a a = 32 := by
  rw [wordDistance, lcp_self, length_wordBits]

theorem wordDistance_lt {a t : UInt32} (h : a ≠ t) : wordDistance a t < 32 := by
  have hlt := lcp_lt_of_ne (by simp) (fun hb ↦ h (wordBits_inj hb))
  rwa [length_wordBits] at hlt

theorem lcp_wordBits_xor (a t : UInt32) :
    lcp (wordBits (a ^^^ t)) (List.replicate 32 false) = wordDistance a t := by
  rw [wordBits, UInt32.toNat_xor, bits_xor, wordDistance]
  exact lcp_zipWith_bne (by simp)

theorem wordBits_eq_cons (x : UInt32) : wordBits x = x.toNat.testBit 31 :: bits 31 x.toNat := rfl

theorem and_top_eq_zero_iff (x : UInt32) :
    x &&& ((1 : UInt32) <<< 31) = 0 ↔ x.toNat.testBit 31 = false := by
  have htop : ((1 : UInt32) <<< 31).toNat = 2 ^ 31 := by decide
  rw [← UInt32.toNat_inj, UInt32.toNat_and, htop, UInt32.toNat_zero]
  constructor
  · intro h
    have hbit := congrArg (·.testBit 31) h
    rwa [Nat.testBit_and, Nat.testBit_two_pow_self, Nat.zero_testBit, Bool.and_true] at hbit
  · intro h
    apply Nat.eq_of_testBit_eq
    intro i
    rw [Nat.testBit_and, Nat.testBit_two_pow, Nat.zero_testBit]
    by_cases hi : i = 31
    · subst hi
      simp [h]
    · simp [Ne.symm hi]

theorem wordBits_shiftLeft_one (x : UInt32) : wordBits (x <<< 1) = bits 31 x.toNat ++ [false] := by
  have hshift : (x <<< 1).toNat = x.toNat * 2 % 2 ^ 32 := by
    rw [UInt32.toNat_shiftLeft, Nat.shiftLeft_eq]
    rfl
  rw [wordBits, hshift]
  exact bits_double 31 x.toNat

theorem clzLoop_eq {x : UInt32} (hx : x ≠ 0) {fuel : Nat}
    (hfuel : lcp (wordBits x) (List.replicate 32 false) < fuel) (distance : Nat) :
    clzLoop fuel x distance = distance + lcp (wordBits x) (List.replicate 32 false) := by
  induction fuel generalizing x distance with
  | zero => omega
  | succ fuel ih =>
    rw [clzLoop]
    cases htop : x.toNat.testBit 31
    · rw [if_pos ((and_top_eq_zero_iff x).2 htop)]
      have hrest : bits 31 x.toNat ≠ List.replicate 31 false := by
        intro h
        apply hx
        rw [← wordBits_eq_zeros_iff, wordBits_eq_cons, htop, h]
        rfl
      have hlcp : lcp (wordBits (x <<< 1)) (List.replicate 32 false) =
          lcp (bits 31 x.toNat) (List.replicate 31 false) := by
        rw [wordBits_shiftLeft_one, List.replicate_succ']
        exact lcp_append_of_ne _ _ (by simp) hrest
      have hx' : x <<< 1 ≠ 0 := by
        intro h
        have hzeros := (wordBits_eq_zeros_iff _).2 h
        rw [wordBits_shiftLeft_one, List.replicate_succ'] at hzeros
        exact hrest (List.append_inj_left' hzeros rfl)
      have hcount : lcp (wordBits x) (List.replicate 32 false) =
          lcp (bits 31 x.toNat) (List.replicate 31 false) + 1 := by
        rw [wordBits_eq_cons, htop, List.replicate_succ, lcp_cons_self]
      rw [ih hx' (by omega), hlcp, hcount]
      omega
    · rw [if_neg (fun h ↦ by simp [(and_top_eq_zero_iff x).1 h] at htop), wordBits_eq_cons, htop,
        List.replicate_succ, lcp_cons_cons, if_neg Bool.noConfusion]
      rfl

theorem ipDistance_turn (a t : UInt32) (distance : Nat) :
    (if a ^^^ t = 0 then distance + 32 else clzLoop 32 (a ^^^ t) distance) =
      distance + wordDistance a t := by
  split_ifs with hx
  · rw [UInt32.xor_eq_zero_iff.1 hx, wordDistance_self]
  · have hne : a ≠ t := fun h ↦ hx (by rw [h, UInt32.xor_self])
    rw [clzLoop_eq hx (by rw [lcp_wordBits_xor]; exact wordDistance_lt hne), lcp_wordBits_xor]

theorem foldl_turns (ws ws' : List UInt32) (distance : Nat) :
    (ws.zip ws').foldl
        (fun distance (a, t) ↦
          let x := a ^^^ t
          if x = 0 then distance + 32 else clzLoop 32 x distance) distance =
      distance + (List.zipWith wordDistance ws ws').sum := by
  induction ws generalizing ws' distance with
  | nil => simp
  | cons w ws ih =>
    cases ws' with
    | nil => simp
    | cons w' ws' =>
      rw [List.zip_cons_cons, List.foldl_cons, List.zipWith_cons_cons, List.sum_cons]
      dsimp only
      rw [ipDistance_turn, ih]
      omega

theorem ipDistance_eq_sum (ip1 ip2 : CtdbSockAddr) :
    ipDistance ip1 ip2 = (List.zipWith wordDistance (ipKey ip1) (ipKey ip2)).sum := by
  rw [ipDistance, foldl_turns, Nat.zero_add]

theorem sum_wordDistance_eq {ws ws' : List UInt32} (hlen : ws.length = ws'.length) :
    (List.zipWith wordDistance ws ws').sum =
      lcp (ws.flatMap wordBits) (ws'.flatMap wordBits) + trailingDistance ws ws' := by
  induction ws generalizing ws' with
  | nil => simp [trailingDistance]
  | cons w ws ih =>
    cases ws' with
    | nil => simp at hlen
    | cons w' ws' =>
      rw [List.zipWith_cons_cons, List.sum_cons, List.flatMap_cons, List.flatMap_cons,
        lcp_append _ _ (by simp), trailingDistance]
      by_cases hw : w = w'
      · subst hw
        rw [if_pos rfl, if_pos rfl, wordDistance_self, ih (Nat.succ.inj hlen), length_wordBits]
        omega
      · rw [if_neg (fun h ↦ hw (wordBits_inj h)), if_neg hw]
        rfl

theorem length_ipKey (ip : CtdbSockAddr) : (ipKey ip).length = ipKeylen := by
  cases ip <;> rfl

theorem ipDistance_eq_lcp_add (ip1 ip2 : CtdbSockAddr) :
    ipDistance ip1 ip2 =
      lcp (keyBits ip1) (keyBits ip2) + trailingDistance (ipKey ip1) (ipKey ip2) := by
  rw [ipDistance_eq_sum, sum_wordDistance_eq (by rw [length_ipKey, length_ipKey])]
  rfl

theorem trailingDistance_append_single (p : List UInt32) (w w' : UInt32) :
    trailingDistance (p ++ [w]) (p ++ [w']) = 0 := by
  induction p with
  | nil => rw [List.nil_append, List.nil_append, trailingDistance]; split_ifs <;> rfl
  | cons a p ih => rw [List.cons_append, List.cons_append, trailingDistance, if_pos rfl, ih]

theorem ipDistance_eq_lcp_of_last {ip1 ip2 : CtdbSockAddr} {p : List UInt32} {w w' : UInt32}
    (h₁ : ipKey ip1 = p ++ [w]) (h₂ : ipKey ip2 = p ++ [w']) :
    ipDistance ip1 ip2 = lcp (keyBits ip1) (keyBits ip2) := by
  rw [ipDistance_eq_lcp_add, h₁, h₂, trailingDistance_append_single, Nat.add_zero]

theorem ipDistance_counts_past_first_difference :
    ipDistance (.inet6 0 0 0 0) (.inet6 0x80000000 0 0 0) = 96 ∧
      lcp (keyBits (.inet6 0 0 0 0)) (keyBits (.inet6 0x80000000 0 0 0)) = 0 :=
  ⟨by decide, by decide⟩

end Samba.Ctdb.IpDistance
