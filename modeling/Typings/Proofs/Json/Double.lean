import Mathlib
import Typings.Json.Reader

/-!
# `Double` — products of doubles that stay finite

A number with an exponent is read as a product of two doubles, its digits and a power of ten.  Both
factors are rounded and so is the product, so a decimal just below the largest double may overflow.
This module follows the rounding exactly, in whole numbers, and shows which decimals do not.

* `halfEven`, `wholeRounded`: rounding to the nearest, of two the even one, and to 53 bits.
* `wholeRounded_mono`: rounding keeps the order.
* `unpack_round`: below the overflow threshold a double is stored as the rounded number.
* `isInf_mul`: a product below the threshold is finite.
* `isInf_nearestDouble_mul`: digits times a power of ten, below what rounds to the largest double.
* `scale?_of_le`, `scale?_of_neg`: scaling succeeds.
-/

namespace Typings.Json

open Float.Model Float.Model.UnpackedFloat

/-! ## Rounding whole numbers -/

/-- The whole number nearest to `n / 2 ^ s`, of two the even one. -/
def halfEven (n s : Nat) : Nat :=
  if 2 ^ s < 2 * (n % 2 ^ s) then n / 2 ^ s + 1
  else if 2 * (n % 2 ^ s) = 2 ^ s then n / 2 ^ s + n / 2 ^ s % 2
  else n / 2 ^ s

/-- The number nearest to `n` with at most 53 significant bits. -/
def wholeRounded (n : Nat) : Nat := halfEven n (n.log2 - 52) * 2 ^ (n.log2 - 52)

theorem halfEven_le {n s b : Nat} (h : 2 * n < (2 * b + 1) * 2 ^ s) : halfEven n s ≤ b := by
  have hn : 2 ^ s * (n / 2 ^ s) + n % 2 ^ s = n := Nat.div_add_mod n (2 ^ s)
  unfold halfEven
  generalize n / 2 ^ s = q at *
  generalize n % 2 ^ s = r at *
  generalize 2 ^ s = p at *
  by_cases hb : b ≤ q
  · -- Then the bound is the quotient itself, and the remainder lies below a half.
    have hle : p * b ≤ p * q := Nat.mul_le_mul_left p hb
    have hexp : (2 * b + 1) * p = 2 * (p * b) + p := by ring
    have hr : 2 * r < p := by omega
    have hqb : q ≤ b := by
      by_contra hlt
      have hmul : p * (b + 1) ≤ p * q := Nat.mul_le_mul_left p (by omega)
      rw [Nat.mul_add] at hmul
      omega
    rw [if_neg (by omega), if_neg (by omega)]
    exact hqb
  · split
    · omega
    · split <;> omega

theorem le_halfEven (n s : Nat) : 2 * n ≤ (2 * halfEven n s + 1) * 2 ^ s := by
  have hn : 2 ^ s * (n / 2 ^ s) + n % 2 ^ s = n := Nat.div_add_mod n (2 ^ s)
  have hr : n % 2 ^ s < 2 ^ s := Nat.mod_lt _ (Nat.two_pow_pos s)
  unfold halfEven
  generalize n / 2 ^ s = q at *
  generalize n % 2 ^ s = r at *
  generalize 2 ^ s = p at *
  have hexp : ∀ k, (2 * (q + k) + 1) * p = 2 * (p * q) + 2 * (k * p) + p := fun k => by ring
  split
  · rw [hexp 1]
    omega
  · split
    · rw [hexp]
      omega
    · have hexp := hexp 0
      simp only [Nat.add_zero, Nat.zero_mul] at hexp
      omega

/-- Rounding keeps the order. -/
theorem halfEven_mono {n k : Nat} (h : n ≤ k) (s : Nat) : halfEven n s ≤ halfEven k s := by
  rcases Nat.eq_or_lt_of_le h with rfl | hlt
  · exact Nat.le_refl _
  · apply halfEven_le
    have := le_halfEven k s
    omega

theorem halfEven_zero (n : Nat) : halfEven n 0 = n := by
  simp [halfEven, Nat.mod_one]

theorem two_pow_le_halfEven {n s t : Nat} (h : 2 ^ (t + s) ≤ n) : 2 ^ t ≤ halfEven n s := by
  have hq : 2 ^ t ≤ n / 2 ^ s := by
    rw [Nat.le_div_iff_mul_le (Nat.two_pow_pos s), ← Nat.pow_add]
    exact h
  unfold halfEven
  split
  · omega
  · split <;> omega

theorem halfEven_le_two_pow {n s t : Nat} (h : n < 2 ^ (t + s)) : halfEven n s ≤ 2 ^ t := by
  apply halfEven_le
  rw [Nat.pow_add] at h
  have hpos : 0 < 2 ^ s := Nat.two_pow_pos s
  have hexp : (2 * 2 ^ t + 1) * 2 ^ s = 2 * (2 ^ t * 2 ^ s) + 2 ^ s := by ring
  omega

/-- Rounding to 53 bits keeps the order. -/
theorem wholeRounded_mono {n k : Nat} (h : n ≤ k) : wholeRounded n ≤ wholeRounded k := by
  unfold wholeRounded
  have hlog : n.log2 ≤ k.log2 := by
    by_cases hn : n = 0
    · subst hn
      simp
    · exact (Nat.le_log2 (by omega)).2 ((Nat.log2_self_le hn).trans h)
  by_cases hs : k.log2 - 52 = n.log2 - 52
  · rw [hs]
    exact Nat.mul_le_mul_right _ (halfEven_mono h _)
  · -- The larger number has more bits, so a power of two separates the two roundings.
    have hk : k ≠ 0 := by
      rintro rfl
      simp at hs hlog
      omega
    have hup : halfEven n (n.log2 - 52) * 2 ^ (n.log2 - 52) ≤ 2 ^ (53 + (n.log2 - 52)) := by
      rw [Nat.pow_add]
      apply Nat.mul_le_mul_right
      apply halfEven_le_two_pow
      exact Nat.lt_of_lt_of_le Nat.lt_log2_self (Nat.pow_le_pow_right (by omega) (by omega))
    have hdown : 2 ^ (52 + (k.log2 - 52)) ≤ halfEven k (k.log2 - 52) * 2 ^ (k.log2 - 52) := by
      rw [Nat.pow_add]
      apply Nat.mul_le_mul_right
      apply two_pow_le_halfEven
      rw [show 52 + (k.log2 - 52) = k.log2 by omega]
      exact Nat.log2_self_le hk
    have hmid : 2 ^ (53 + (n.log2 - 52)) ≤ 2 ^ (52 + (k.log2 - 52)) :=
      Nat.pow_le_pow_right (by omega) (by omega)
    exact hup.trans (hmid.trans hdown)


/-! ## Rounding of significands -/

/-- Each shift halves the significand; the two bits below it say how the rest compares with a half. -/
theorem shiftRight_exact (n s : Nat) :
    ExtendedMantissa.ofMantissaAndAccuracy n .exact >>> s =
      ⟨n / 2 ^ s, decide (2 ^ s ≤ 2 * (n % 2 ^ s)), decide (2 * (n % 2 ^ s) % 2 ^ s ≠ 0)⟩ := by
  induction s with
  | zero =>
    simp [HShiftRight.hShiftRight, Nat.repeat, ExtendedMantissa.ofMantissaAndAccuracy, Nat.mod_one]
  | succ s ih =>
    show (ExtendedMantissa.ofMantissaAndAccuracy n .exact >>> s).shiftRightOne = _
    rw [ih]
    -- The bit that leaves the significand goes on top of the rest.
    have hmod : n % 2 ^ (s + 1) = n % 2 ^ s + 2 ^ s * (n / 2 ^ s % 2) := by
      rw [Nat.pow_succ, Nat.mod_mul]
    have hlt : n % 2 ^ s < 2 ^ s := Nat.mod_lt _ (Nat.two_pow_pos s)
    have hpow : 2 ^ (s + 1) = 2 * 2 ^ s := by rw [Nat.pow_succ, Nat.mul_comm]
    have hbit : n / 2 ^ s % 2 = 0 ∨ n / 2 ^ s % 2 = 1 := Nat.mod_two_eq_zero_or_one _
    have hround : (n / 2 ^ s % 2 != 0) = decide (2 ^ (s + 1) ≤ 2 * (n % 2 ^ (s + 1))) := by
      rw [hmod, hpow]
      rcases hbit with hbit | hbit
      · simp [hbit]
        omega
      · simp [hbit]
    have hsticky : (decide (2 ^ s ≤ 2 * (n % 2 ^ s)) || decide (2 * (n % 2 ^ s) % 2 ^ s ≠ 0)) =
        decide (2 * (n % 2 ^ (s + 1)) % 2 ^ (s + 1) ≠ 0) := by
      rw [hmod, hpow, Nat.mul_mod_mul_left, Nat.add_mul_mod_self_left, Nat.mod_eq_of_lt hlt]
      by_cases hhalf : 2 ^ s ≤ 2 * (n % 2 ^ s)
      · simp [hhalf]
        omega
      · rw [Nat.mod_eq_of_lt (Nat.lt_of_not_le hhalf)]
        simp [hhalf]
    simp only [ExtendedMantissa.shiftRightOne, hround, hsticky, Nat.div_div_eq_div_mul, Nat.pow_succ]

theorem roundedMantissa_shiftRight (n s : Nat) :
    (ExtendedMantissa.ofMantissaAndAccuracy n .exact >>> s).roundedMantissa = halfEven n s := by
  have hlt : n % 2 ^ s < 2 ^ s := Nat.mod_lt _ (Nat.two_pow_pos s)
  rw [shiftRight_exact]
  unfold halfEven ExtendedMantissa.roundedMantissa
  by_cases hhalf : 2 ^ s ≤ 2 * (n % 2 ^ s)
  · have hrest : 2 * (n % 2 ^ s) % 2 ^ s = 2 * (n % 2 ^ s) - 2 ^ s := by
      rw [Nat.mod_eq_sub_mod hhalf, Nat.mod_eq_of_lt (by omega)]
    by_cases htie : 2 * (n % 2 ^ s) = 2 ^ s
    · simp [htie, ExtendedMantissa.accuracy, Accuracy.roundToNearestEven]
    · have hgt : 2 ^ s < 2 * (n % 2 ^ s) := by omega
      have hne : 2 * (n % 2 ^ s) - 2 ^ s ≠ 0 := by omega
      simp [hrest, hhalf, hgt, hne, ExtendedMantissa.accuracy, Accuracy.roundToNearestEven]
  · have hgt : ¬ 2 ^ s < 2 * (n % 2 ^ s) := by omega
    have htie : ¬ 2 * (n % 2 ^ s) = 2 ^ s := by omega
    simp only [hhalf, hgt, htie, decide_false, if_false]
    -- Below a half nothing hangs on the bits that were lost.
    cases decide (2 * (n % 2 ^ s) % 2 ^ s ≠ 0) <;> rfl

/-! ## Doubles as their parts -/

/-- A significand of 53 bits is left as it is. -/
theorem shiftToTargetExponent_of_lt {m : Nat} {e : Int} (hm : m < 2 ^ 53) (he : -1074 ≤ e) :
    shiftToTargetExponent .binary64 m e .exact = (⟨m, false, false⟩, e) := by
  have hlog : m.log2 ≤ 52 := by
    by_cases hz : m = 0
    · simp [hz]
    · exact Nat.le_of_lt_succ ((Nat.log2_lt hz).2 hm)
  have ht : Format.binary64.targetExponent (totalExponent m e) ≤ e := by
    simp only [Format.targetExponent, totalExponent, Format.mantissaBits, Format.minExponent]
    omega
  have hs : (Format.binary64.targetExponent (totalExponent m e) - e).toNat = 0 := by omega
  simp [shiftToTargetExponent, shiftToExponent, hs, HShiftRight.hShiftRight, Nat.repeat,
    ExtendedMantissa.ofMantissaAndAccuracy]

theorem shiftToTargetExponent_carry {e : Int} (he : -1074 ≤ e) :
    shiftToTargetExponent .binary64 (2 ^ 53) e .exact = (⟨2 ^ 52, false, false⟩, e + 1) := by
  have ht : Format.binary64.targetExponent (totalExponent (2 ^ 53) e) = e + 1 := by
    simp only [Format.targetExponent, totalExponent, Format.mantissaBits, Format.minExponent,
      Nat.log2_two_pow]
    omega
  have hs : (e + 1 - e).toNat = 1 := by omega
  simp only [shiftToTargetExponent, ht, shiftToExponent, hs]
  rfl

/-- Rounding a number of at least 53 bits, in the range of normal doubles, gives the nearest number
    with 53 significant bits. -/
theorem roundWithAccuracy_normal {n : Nat} {e : Int} (hn : 52 ≤ n.log2)
    (he : -1074 ≤ e + (n.log2 - 52 : Nat)) :
    ∃ (m : Nat) (x : Int) (hm : 0 < m),
      roundWithAccuracy .binary64 .positive n e .exact = .finite .positive m x hm ∧ m.log2 = 52 ∧
        -1074 ≤ x ∧ e ≤ x ∧ m * 2 ^ (x - e).toNat = wholeRounded n := by
  have hne : n ≠ 0 := by
    rintro rfl
    simp at hn
  have htarget : (Format.binary64.targetExponent (totalExponent n e) - e).toNat = n.log2 - 52 := by
    simp only [Format.targetExponent, totalExponent, Format.mantissaBits, Format.minExponent]
    omega
  have hlow : 2 ^ 52 ≤ halfEven n (n.log2 - 52) := by
    apply two_pow_le_halfEven
    rw [show 52 + (n.log2 - 52) = n.log2 by omega]
    exact Nat.log2_self_le hne
  have hhigh : halfEven n (n.log2 - 52) ≤ 2 ^ 53 := by
    apply halfEven_le_two_pow
    rw [show 53 + (n.log2 - 52) = n.log2 + 1 by omega]
    exact Nat.lt_log2_self
  have hfirst : shiftToTargetExponent .binary64 n e .exact =
      (ExtendedMantissa.ofMantissaAndAccuracy n .exact >>> (n.log2 - 52),
        e + (n.log2 - 52 : Nat)) := by
    simp only [shiftToTargetExponent, shiftToExponent, htarget]
  unfold roundWithAccuracy wholeRounded
  simp only [hfirst, roundedMantissa_shiftRight]
  rcases Nat.lt_or_eq_of_le hhigh with hlt | hcarry
  · refine ⟨halfEven n (n.log2 - 52), e + (n.log2 - 52 : Nat), by omega, ?_, ?_, he, by omega, ?_⟩
    · simp only [shiftToTargetExponent_of_lt hlt he]
      rw [dif_neg (by omega)]
    · exact (Nat.log2_eq_iff (by omega)).2 ⟨hlow, hlt⟩
    · rw [show (e + (n.log2 - 52 : Nat) - e).toNat = n.log2 - 52 by omega]
  · -- The significand carried over into one more bit.
    refine ⟨2 ^ 52, e + (n.log2 - 52 : Nat) + 1, by decide, ?_, by decide, by omega, by omega, ?_⟩
    · simp only [hcarry, shiftToTargetExponent_carry he]
      rw [dif_neg (by decide)]
    · rw [hcarry, show (e + (n.log2 - 52 : Nat) + 1 - e).toNat = n.log2 - 52 + 1 by omega]
      ring

/-- Below the middle between the largest double and the next power of two, rounding stays below that
    power. -/
theorem wholeRounded_lt {n j : Nat} (h : n < (2 ^ 54 - 1) * 2 ^ j) :
    wholeRounded n < 2 ^ (j + 54) := by
  by_cases hn : n = 0
  · subst hn
    rw [show wholeRounded 0 = 0 from by decide]
    exact Nat.two_pow_pos _
  have hlog : n.log2 < j + 54 := by
    apply (Nat.log2_lt hn).2
    apply h.trans
    rw [Nat.add_comm, Nat.pow_add]
    exact Nat.mul_lt_mul_of_pos_right (by decide) (Nat.two_pow_pos j)
  unfold wholeRounded
  rcases Nat.lt_or_ge j (n.log2 - 52) with hs | hs
  · have hsj : n.log2 - 52 = j + 1 := by omega
    have hle : halfEven n (j + 1) ≤ 2 ^ 53 - 1 := by
      apply halfEven_le
      rw [Nat.pow_succ]
      omega
    rw [hsj]
    calc halfEven n (j + 1) * 2 ^ (j + 1) ≤ (2 ^ 53 - 1) * 2 ^ (j + 1) :=
          Nat.mul_le_mul_right _ hle
      _ < 2 ^ 53 * 2 ^ (j + 1) := Nat.mul_lt_mul_of_pos_right (by decide) (Nat.two_pow_pos _)
      _ = 2 ^ (j + 54) := by rw [← Nat.pow_add]; congr 1; omega
  · have hle : halfEven n (n.log2 - 52) ≤ 2 ^ 53 := by
      apply halfEven_le_two_pow
      exact Nat.lt_of_lt_of_le Nat.lt_log2_self (Nat.pow_le_pow_right (by omega) (by omega))
    calc halfEven n (n.log2 - 52) * 2 ^ (n.log2 - 52) ≤ 2 ^ 53 * 2 ^ (n.log2 - 52) :=
          Nat.mul_le_mul_right _ hle
      _ = 2 ^ (53 + (n.log2 - 52)) := (Nat.pow_add 2 53 _).symm
      _ < 2 ^ (j + 54) := Nat.pow_lt_pow_right (by omega) (by omega)

theorem unpackSign_packComponents {spec : Format} (sign : Sign)
    (exponent : BitVec spec.exponentBits) (mantissa : BitVec spec.mantissaBitsWithoutImplicit) :
    unpackSign (packComponents spec sign exponent mantissa) = sign.toBitVec := by
  ext i hi
  have hi0 : i = 0 := by omega
  subst hi0
  simp [unpackSign, packComponents, BitVec.getLsbD_append, BitVec.getLsbD_eq_getElem,
    BitVec.getElem_append]

/-- A normal double is stored as its parts. -/
theorem unpack_pack_normal {m : Nat} {x : Int} (hm : 0 < m) (hlog : m.log2 = 52) (hlow : -1074 ≤ x)
    (hhigh : x ≤ 971) :
    (Float.Model.pack (.finite .positive m x hm)).unpack = .finite .positive m x hm := by
  have hbits : 2 ^ 52 ≤ m ∧ m < 2 ^ 53 := (Nat.log2_eq_iff (by omega)).1 hlog
  have hbias : (x + Format.binary64.exponentBias + (52 : Nat)).toNat = (x + 1075).toNat := by
    simp only [Format.exponentBias]
    congr 1
    omega
  have hpack : UnpackedFloat.pack .binary64 (.finite .positive m x hm) =
      packComponents .binary64 .positive (BitVec.ofNat 11 (x + 1075).toNat) (BitVec.ofNat 52 m) := by
    simp only [UnpackedFloat.pack, hbias, hlog]
    rw [if_neg (by omega), if_pos (by decide)]
  have hexp : (BitVec.ofNat 11 (x + 1075).toNat).toNat = (x + 1075).toNat := by
    rw [BitVec.toNat_ofNat, Nat.mod_eq_of_lt (by omega)]
  have hinf : BitVec.ofNat 11 (x + 1075).toNat ≠ -1#11 := by
    intro h
    have h := congrArg BitVec.toNat h
    rw [hexp] at h
    simp at h
    omega
  have hzero : BitVec.ofNat 11 (x + 1075).toNat ≠ 0#11 := by
    intro h
    have h := congrArg BitVec.toNat h
    rw [hexp] at h
    simp at h
    omega
  have hmant : (1#1 ++ BitVec.ofNat 52 m).toNat = m := by
    rw [BitVec.toNat_append, ← Nat.shiftLeft_add_eq_or_of_lt (BitVec.isLt _)]
    simp [Nat.shiftLeft_eq]
    omega
  show UnpackedFloat.unpack .binary64 (UnpackedFloat.pack .binary64 (.finite .positive m x hm)) = _
  rw [hpack]
  unfold UnpackedFloat.unpack
  simp only [unpackMantissa_packComponents, unpackExponent_packComponents,
    unpackSign_packComponents, hinf, hzero, if_false, hexp, hmant]
  congr 1
  simp only [Format.exponentBias]
  omega

/-- **Rounding below the overflow threshold.**  A number `n · 2 ^ e` below the middle between the
    largest double and `2 ^ 1024` is stored as the nearest number with 53 significant bits. -/
theorem unpack_round {n : Nat} {e : Int} (hn : 52 ≤ n.log2) (hlow : -1074 ≤ e) (hhigh : e ≤ 970)
    (hlt : n < (2 ^ 54 - 1) * 2 ^ (970 - e).toNat) :
    ∃ (m : Nat) (x : Int) (hm : 0 < m),
      (Float.Model.pack (roundWithAccuracy .binary64 .positive n e .exact)).unpack =
        .finite .positive m x hm ∧ m.log2 = 52 ∧ e ≤ x ∧ m * 2 ^ (x - e).toNat = wholeRounded n := by
  obtain ⟨m, x, hm, hround, hlog, hxlow, hex, hval⟩ :=
    roundWithAccuracy_normal hn (show -1074 ≤ e + (n.log2 - 52 : Nat) by omega)
  refine ⟨m, x, hm, ?_, hlog, hex, hval⟩
  have hbits : 2 ^ 52 ≤ m := ((Nat.log2_eq_iff (by omega)).1 hlog).1
  have hpow : 2 ^ (52 + (x - e).toNat) < 2 ^ ((970 - e).toNat + 54) := by
    rw [Nat.pow_add]
    apply Nat.lt_of_le_of_lt (Nat.mul_le_mul_right _ hbits)
    rw [hval]
    exact wholeRounded_lt hlt
  have hexp : 52 + (x - e).toNat < (970 - e).toNat + 54 :=
    (Nat.pow_lt_pow_iff_right (by omega)).1 hpow
  rw [hround, unpack_pack_normal hm hlog hxlow (by omega)]

/-! ## Finite products -/

/-- A double is the positive number `v / 2 ^ 53`, with all its bits in use. -/
def holds (f : Float) (v : Nat) : Bool :=
  match f.toModel.unpack with
  | .finite .positive m x _ => m.log2 == 52 && decide (-53 ≤ x) && m * 2 ^ (x + 53).toNat == v
  | _ => false

theorem holds_iff {f : Float} {v : Nat} :
    holds f v = true ↔ ∃ (m : Nat) (x : Int) (hm : 0 < m),
      f.toModel.unpack = .finite .positive m x hm ∧ m.log2 = 52 ∧ -53 ≤ x ∧
        m * 2 ^ (x + 53).toNat = v := by
  unfold holds
  split
  · rename_i m x hm hunpack
    simp only [hunpack, Bool.and_eq_true, beq_iff_eq, decide_eq_true_eq, UnpackedFloat.finite.injEq]
    constructor
    · rintro ⟨⟨hlog, hx⟩, hval⟩
      exact ⟨m, x, hm, ⟨trivial, rfl, rfl⟩, hlog, hx, hval⟩
    · rintro ⟨m', x', hm', ⟨-, rfl, rfl⟩, hlog, hx, hval⟩
      exact ⟨⟨hlog, hx⟩, hval⟩
  · rename_i hother
    constructor
    · intro h
      cases h
    · rintro ⟨m, x, hm, hunpack, -⟩
      exact absurd hunpack (hother m x hm)

/-- A stored rounding holds the rounded number. -/
theorem holds_of_round {f : Float} {n j : Nat} (hn : 52 ≤ n.log2) (hj : j ≤ 53)
    (hlt : n < (2 ^ 54 - 1) * 2 ^ (970 + j))
    (hf : f.toModel =
      Float.Model.pack (roundWithAccuracy .binary64 .positive n (-(j : Int)) .exact)) :
    holds f (wholeRounded n * 2 ^ (53 - j)) = true := by
  rw [show 970 + j = (970 - -(j : Int)).toNat by omega] at hlt
  obtain ⟨m, x, hm, hunpack, hlog, hx, hval⟩ := unpack_round hn (by omega) (by omega) hlt
  refine holds_iff.2 ⟨m, x, hm, hf ▸ hunpack, hlog, by omega, ?_⟩
  rw [← hval, Nat.mul_assoc, ← pow_add]
  congr 2
  omega

theorem wholeRounded_of_log2_le {n : Nat} (h : n.log2 ≤ 52) : wholeRounded n = n := by
  unfold wholeRounded
  rw [Nat.sub_eq_zero_of_le h, halfEven_zero, Nat.pow_zero, Nat.mul_one]

theorem log2_mul_two_pow {n : Nat} (h : n ≠ 0) (j : Nat) : (n * 2 ^ j).log2 = n.log2 + j := by
  have hpos : 0 < 2 ^ j := Nat.two_pow_pos j
  have hne : n * 2 ^ j ≠ 0 := Nat.mul_ne_zero h (by omega)
  refine (Nat.log2_eq_iff hne).2 ⟨?_, ?_⟩
  · rw [pow_add]
    exact Nat.mul_le_mul_right _ (Nat.log2_self_le h)
  · rw [show n.log2 + j + 1 = n.log2 + 1 + j by omega, pow_add]
    exact Nat.mul_lt_mul_of_pos_right Nat.lt_log2_self hpos

theorem holds_nearestDouble {n : Nat} (hpos : 0 < n) (hlt : n < 2 ^ 64) :
    holds (nearestDouble n) (wholeRounded n * 2 ^ 53) = true := by
  have hmodel : (nearestDouble n).toModel =
      Float.Model.pack (UnpackedFloat.round .binary64 .positive n 0) := by
    show Float.Model.pack (UnpackedFloat.ofUInt64 .binary64 n.toUInt64) = _
    have hnat : n.toUInt64.toNat = n := by
      rw [Nat.toUInt64_eq, UInt64.toNat_ofNat_of_lt' hlt]
    have hcmp : compare (n : Int) 0 = .gt := Int.compare_eq_gt.2 (by omega)
    simp only [UnpackedFloat.ofUInt64, UnpackedFloat.ofNat, UnpackedFloat.ofInt, hnat,
      UnpackedFloat.normalize, hcmp, Int.toNat_natCast]
  have hlog64 : n.log2 < 64 := (Nat.log2_lt (by omega)).2 hlt
  have htarget : (-Format.binary64.targetExponent (totalExponent n 0)).toNat = 52 - n.log2 := by
    simp only [Format.targetExponent, totalExponent, Format.mantissaBits, Format.minExponent]
    omega
  have hround : UnpackedFloat.round .binary64 .positive n 0 =
      roundWithAccuracy .binary64 .positive (n * 2 ^ (52 - n.log2)) (-((52 - n.log2 : Nat) : Int))
        .exact := by
    simp only [UnpackedFloat.round, decreaseExponent, Nat.shiftLeft_eq, Int.zero_sub, htarget]
  have hlog : (n * 2 ^ (52 - n.log2)).log2 = n.log2 + (52 - n.log2) :=
    log2_mul_two_pow (Nat.ne_of_gt hpos) _
  have hfits : n * 2 ^ (52 - n.log2) < (2 ^ 54 - 1) * 2 ^ (970 + (52 - n.log2)) := by
    calc n * 2 ^ (52 - n.log2) < 2 ^ 64 * 2 ^ (52 - n.log2) :=
          Nat.mul_lt_mul_of_pos_right hlt (Nat.two_pow_pos _)
      _ = 2 ^ (64 + (52 - n.log2)) := (pow_add 2 64 _).symm
      _ ≤ 2 ^ (970 + (52 - n.log2)) := Nat.pow_le_pow_right (by decide) (by omega)
      _ ≤ (2 ^ 54 - 1) * 2 ^ (970 + (52 - n.log2)) := Nat.le_mul_of_pos_left _ (by decide)
  have hholds := holds_of_round (by omega) (by omega) hfits (hmodel.trans (congrArg _ hround))
  -- A short number is shifted up to 53 bits and back down.
  rcases Nat.lt_or_ge n.log2 52 with hshort | hlong
  · rw [wholeRounded_of_log2_le (by omega), Nat.mul_assoc, ← pow_add,
      show 52 - n.log2 + (53 - (52 - n.log2)) = 53 by omega] at hholds
    rw [wholeRounded_of_log2_le (by omega)]
    exact hholds
  · rw [Nat.sub_eq_zero_of_le hlong, pow_zero, Nat.mul_one] at hholds
    exact hholds

/-- The exponent of two of a power of ten up to `10 ^ 308`: `485 / 146` is near enough to the
    logarithm. -/
def binaryExponent (k : Nat) : Nat := k * 485 / 146

theorem log2_powerOfTen {k : Nat} (hk : k ≤ 308) : (10 ^ k).log2 = binaryExponent k := by
  have hbetween : ∀ k < 309, 2 ^ binaryExponent k ≤ 10 ^ k ∧ 10 ^ k < 2 ^ (binaryExponent k + 1) := by
    decide +kernel
  exact (Nat.log2_eq_iff (Nat.ne_of_gt (Nat.pow_pos (by decide)))).2 (hbetween k (by omega))

theorem wholeRounded_powerOfTen {k : Nat} (hk : k ≤ 308) :
    wholeRounded (10 ^ k * 2 ^ 53) =
      halfEven (10 ^ k * 2 ^ 53) (binaryExponent k + 1) * 2 ^ (binaryExponent k + 1) := by
  have hlog : (10 ^ k * 2 ^ 53).log2 - 52 = binaryExponent k + 1 := by
    rw [log2_mul_two_pow (Nat.ne_of_gt (Nat.pow_pos (by decide))), log2_powerOfTen hk]
    omega
  rw [wholeRounded, hlog]

theorem holds_powerOfTen {k : Nat} (hk : k ≤ 308) :
    holds (powerOfTen k) (wholeRounded (10 ^ k * 2 ^ 53)) = true := by
  rcases Nat.lt_or_ge k 23 with hsmall | hlarge
  · -- These powers are exact and given by their bits.
    have htable : ∀ k < 23, holds (powerOfTen k) (wholeRounded (10 ^ k * 2 ^ 53)) = true := by
      decide +kernel
    exact htable k hsmall
  · have hmodel : (powerOfTen k).toModel =
        Float.Model.pack
          (roundWithAccuracy .binary64 .positive (10 ^ k * 2 ^ 53) (-(53 : Nat)) .exact) := by
      unfold powerOfTen Float.ofScientific
      rw [dif_neg (by omega)]
      show Float.Model.pack (UnpackedFloat.ofScientific .binary64 1 k) = _
      unfold UnpackedFloat.ofScientific
      rw [dif_neg (by decide), if_neg (by simp; omega), if_neg (by simp; omega), if_pos (by omega)]
      show Float.Model.pack (roundWithAccuracy .binary64 .positive
        (1 <<< 53 * 10 ^ (k : Int).toNat) (-53 + 0) .exact) = _
      rw [Nat.mul_comm, Int.toNat_natCast]
      rfl
    have hlog : (10 ^ k * 2 ^ 53).log2 = (10 ^ k).log2 + 53 :=
      log2_mul_two_pow (Nat.ne_of_gt (Nat.pow_pos (by decide))) _
    have hfits : ∀ k < 309, 10 ^ k * 2 ^ 53 < (2 ^ 54 - 1) * 2 ^ (970 + 53) := by decide +kernel
    have hholds := holds_of_round (by omega) (by omega) (hfits k (by omega)) hmodel
    rw [Nat.sub_self, pow_zero, Nat.mul_one] at hholds
    exact hholds

theorem isInf_mul {f g : Float} {v w : Nat} (hf : holds f v = true) (hg : holds g w = true)
    (h : v * w < (2 ^ 54 - 1) * 2 ^ 1076) : (f * g).isInf = false := by
  obtain ⟨m, x, hm, hfu, hml, hx, rfl⟩ := holds_iff.1 hf
  obtain ⟨k, y, hk, hgu, hkl, hy, rfl⟩ := holds_iff.1 hg
  have hmb : 2 ^ 52 ≤ m := ((Nat.log2_eq_iff (by omega)).1 hml).1
  have hkb : 2 ^ 52 ≤ k := ((Nat.log2_eq_iff (by omega)).1 hkl).1
  -- The exponent stays a variable, so that no power is worked out.
  obtain ⟨j, hj⟩ : ∃ j, j = 1076 := ⟨1076, rfl⟩
  rw [← hj] at h
  have hprod : 2 ^ 104 ≤ m * k := by
    rw [show 104 = 52 + 52 from rfl, Nat.pow_add]
    exact Nat.mul_le_mul hmb hkb
  have hscale : m * k * 2 ^ (x + y + 106).toNat < (2 ^ 54 - 1) * 2 ^ j := by
    rw [show (x + y + 106).toNat = (x + 53).toNat + (y + 53).toNat by omega, Nat.pow_add]
    calc m * k * (2 ^ (x + 53).toNat * 2 ^ (y + 53).toNat)
        = m * 2 ^ (x + 53).toNat * (k * 2 ^ (y + 53).toNat) := by ring
      _ < _ := h
  have hxy : x + y ≤ 970 := by
    by_contra hgt
    have hbig : 2 ^ 54 * 2 ^ j ≤ m * k * 2 ^ (x + y + 106).toNat :=
      Nat.mul_le_mul (Nat.le_trans (by decide) hprod) (Nat.pow_le_pow_right (by omega) (by omega))
    have hsmall : (2 ^ 54 - 1) * 2 ^ j ≤ 2 ^ 54 * 2 ^ j := Nat.mul_le_mul_right _ (by decide)
    exact Nat.lt_irrefl _ (Nat.lt_of_lt_of_le hscale (hsmall.trans hbig))
  have hlt : m * k < (2 ^ 54 - 1) * 2 ^ (970 - (x + y)).toNat := by
    apply Nat.lt_of_mul_lt_mul_right (a := 2 ^ (x + y + 106).toNat)
    rw [Nat.mul_assoc (2 ^ 54 - 1), ← pow_add,
      show (970 - (x + y)).toNat + (x + y + 106).toNat = j by omega]
    exact hscale
  have hlog : 52 ≤ (m * k).log2 := (Nat.le_log2 (by omega)).2 (by omega)
  obtain ⟨p, z, hp, hunpack, -, -, -⟩ := unpack_round hlog (by omega) hxy hlt
  show UnpackedFloat.isInf (Float.Model.pack
    (UnpackedFloat.mul .binary64 f.toModel.unpack g.toModel.unpack)).unpack = false
  rw [hfu, hgu]
  show UnpackedFloat.isInf (Float.Model.pack
    (roundWithAccuracy .binary64 .positive (m * k) (x + y) .exact)).unpack = false
  rw [hunpack]
  rfl

/-! ## Scaling by a power of ten -/

/-- The middle between the largest double and the one before it. -/
def belowLargest : Nat := (2 ^ 54 - 3) * 2 ^ 970

theorem belowLargest_lt : belowLargest < 10 ^ 309 := by decide +kernel

/-- **No overflow below the largest double.**  A whole number of 64 bits times a power of ten, below
    all that rounds to the largest double, is read without overflow, although each of the two factors
    and their product are rounded. -/
theorem isInf_nearestDouble_mul {n k : Nat} (hpos : 0 < n) (hn : n < 2 ^ 64) (hk : k ≤ 308)
    (h : n * 10 ^ k ≤ belowLargest) : (nearestDouble n * powerOfTen k).isInf = false := by
  -- Rounding keeps the order, so the largest number below the bound decides.
  have hlargest : ∀ k < 309,
      wholeRounded (min (2 ^ 64 - 1) (belowLargest / 10 ^ k)) * 2 ^ 53 *
        (halfEven (10 ^ k * 2 ^ 53) (binaryExponent k + 1) * 2 ^ (binaryExponent k + 1)) <
          (2 ^ 54 - 1) * 2 ^ 1076 := by decide +kernel
  have hle : n ≤ min (2 ^ 64 - 1) (belowLargest / 10 ^ k) :=
    Nat.le_min.2 ⟨by omega, (Nat.le_div_iff_mul_le (Nat.pow_pos (by decide))).2 h⟩
  apply isInf_mul (holds_nearestDouble hpos hn) (holds_powerOfTen hk)
  rw [wholeRounded_powerOfTen hk]
  apply Nat.lt_of_le_of_lt _ (hlargest k (by omega))
  apply Nat.mul_le_mul_right
  apply Nat.mul_le_mul_right
  exact wholeRounded_mono hle

theorem scale?_of_le {n k : Nat} (hpos : 0 < n) (hn : n < 2 ^ 64) (hk : k ≤ 308)
    (h : n * 10 ^ k ≤ belowLargest) : (scale? (nearestDouble n) k).isSome = true := by
  unfold scale?
  rw [if_pos (by omega), if_pos (by omega)]
  simp only [Int.toNat_natCast, isInf_nearestDouble_mul hpos hn hk h]
  rfl

theorem isSome_shrink (fuel : Nat) (f : Float) (k : Nat) : (scale?.shrink fuel f k).isSome = true := by
  induction fuel generalizing f k with
  | zero => rfl
  | succ fuel ih =>
    unfold scale?.shrink
    split
    · rfl
    · split
      · rfl
      · exact ih _ _

/-- Dividing by a power of ten never overflows. -/
theorem scale?_of_neg (f : Float) {e : Int} (h : e < 0) : (scale? f e).isSome = true := by
  unfold scale?
  rw [if_neg (by omega)]
  exact isSome_shrink _ _ _

end Typings.Json
