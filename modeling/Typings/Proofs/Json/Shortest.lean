import Typings.Proofs.Json.Number

/-!
# `Shortest` — printed doubles are read

The decimal of a double lies in the interval of numbers that round to the double.  For every double
but the largest that interval ends below `belowLargest`, so its decimal is read without overflow in
whichever of the four forms it is written; the largest double is checked by itself.

* `Binary.belowLargest_or_eq`: the doubles but the largest, and the largest.
* `Binary.BelowLargest.shortest`: how large the shortest decimal can be.
* `Decimal.readable_render`: such a decimal is read in each form.
* `renderDouble_cases`: a double is written as `null` or as a number that is read.
-/

namespace Typings.Json

/-! ## Bounds on decimals -/

/-- Dropping a zero at the end keeps the value. -/
theorem atMost_div_ten {digits b : Nat} {e : Int} (hten : digits % 10 = 0) (h : AtMost digits e b) :
    AtMost (digits / 10) (e + 1) b := by
  unfold AtMost at *
  obtain ⟨q, rfl⟩ : ∃ q, digits = 10 * q := ⟨digits / 10, by omega⟩
  rw [Nat.mul_div_cancel_left q (by decide)]
  by_cases he : 0 ≤ e
  · rw [show (e + 1).toNat = e.toNat + 1 by omega, show (-(e + 1)).toNat = (-e).toNat by omega]
    calc q * 10 ^ (e.toNat + 1) = 10 * q * 10 ^ e.toNat := by ring
      _ ≤ _ := h
  · rw [show (e + 1).toNat = e.toNat by omega]
    rw [show (-e).toNat = (-(e + 1)).toNat + 1 by omega, pow_succ] at h
    apply Nat.le_of_mul_le_mul_right (c := 10) _ (by decide)
    calc q * 10 ^ e.toNat * 10 = 10 * q * 10 ^ e.toNat := by ring
      _ ≤ b * (10 ^ (-(e + 1)).toNat * 10) := h
      _ = b * 10 ^ (-(e + 1)).toNat * 10 := by ring

namespace Decimal

/-- A decimal with a value to write: not zero, or zero without an exponent. -/
def Plain (d : Decimal) : Prop := d.digits ≠ 0 ∨ d.exponent = 0

theorem trimmed_go (fuel : Nat) (d : Decimal) {b : Nat} (hplain : d.Plain)
    (h : AtMost d.digits d.exponent b) :
    (trimmed.go fuel d).Plain ∧ AtMost (trimmed.go fuel d).digits (trimmed.go fuel d).exponent b := by
  induction fuel generalizing d with
  | zero => exact ⟨hplain, h⟩
  | succ fuel ih =>
      unfold trimmed.go
      split
      · next hzero =>
          obtain ⟨hne, hten⟩ : d.digits ≠ 0 ∧ d.digits % 10 = 0 := by simpa using hzero
          apply ih
          · exact Or.inl (show d.digits / 10 ≠ 0 by omega)
          · exact atMost_div_ten hten h
      · exact ⟨hplain, h⟩

end Decimal

namespace Binary

/-- The largest double. -/
def largest : Binary := ⟨2 ^ 53 - 1, 971, false⟩

/-- A double other than the largest. -/
structure BelowLargest (b : Binary) : Prop where
  mantissa : b.mantissa < 2 ^ 53
  exponent : b.exponent ≤ 971
  ne_largest : b.exponent = 971 → b.mantissa ≠ 2 ^ 53 - 1

theorem belowLargest_or_eq {bits : UInt64} {b : Binary} (h : ofBits? bits = some b) :
    b.BelowLargest ∨ b = largest := by
  have hfraction : bits.toNat % Nat.pow 2 52 < 2 ^ 52 := Nat.mod_lt _ (by decide)
  have hbiased : bits.toNat / Nat.pow 2 52 % 2048 < 2048 := Nat.mod_lt _ (by decide)
  unfold ofBits? at h
  generalize bits.toNat % Nat.pow 2 52 = fraction at h hfraction
  generalize bits.toNat / Nat.pow 2 52 % 2048 = biased at h hbiased
  simp only [beq_iff_eq] at h
  split at h
  · cases h
  · split at h
    · split at h
      · cases h
      · cases h
        exact Or.inl ⟨by simp only; omega, by simp only; omega, by simp⟩
    · cases h
      have hpow : Nat.pow 2 52 = 2 ^ 52 := rfl
      by_cases hlast : fraction = 2 ^ 52 - 1 ∧ biased = 2046
      · obtain ⟨rfl, rfl⟩ := hlast
        exact Or.inr rfl
      · refine Or.inl ⟨by simp only; omega, by simp only; omega, ?_⟩
        simp only
        omega

theorem scaled_eq (b : Binary) :
    ∃ low, b.scaled = ⟨low, 4 * b.mantissa * 2 ^ (b.exponent - 2).toNat,
      (4 * b.mantissa + 2) * 2 ^ (b.exponent - 2).toNat, 2 ^ (2 - b.exponent).toNat⟩ := by
  unfold scaled
  by_cases he : b.exponent ≥ 2
  · simp only [he, if_true, Nat.pow_eq, show (2 - b.exponent).toNat = 0 by omega, pow_zero]
    exact ⟨_, rfl⟩
  · simp only [he, if_false, Nat.pow_eq, show (b.exponent - 2).toNat = 0 by omega, pow_zero,
      Nat.mul_one]
    exact ⟨_, rfl⟩

/-- All that rounds to a double other than the largest lies below the middle of the last two. -/
theorem BelowLargest.high_le {b : Binary} (h : b.BelowLargest) :
    b.scaled.high ≤ belowLargest * b.scaled.denominator := by
  obtain ⟨hm, he, hne⟩ := h
  obtain ⟨low, hscaled⟩ := scaled_eq b
  rw [hscaled]
  show (4 * b.mantissa + 2) * 2 ^ (b.exponent - 2).toNat ≤
    belowLargest * 2 ^ (2 - b.exponent).toNat
  calc (4 * b.mantissa + 2) * 2 ^ (b.exponent - 2).toNat ≤ belowLargest := ?_
    _ ≤ belowLargest * 2 ^ (2 - b.exponent).toNat :=
        Nat.le_mul_of_pos_right _ (Nat.two_pow_pos _)
  by_cases htop : b.exponent = 971
  · have hm' : 4 * b.mantissa + 2 ≤ 2 * (2 ^ 54 - 3) := by
      have := hne htop
      omega
    rw [htop, show ((971 : Int) - 2).toNat = 969 from rfl]
    calc (4 * b.mantissa + 2) * 2 ^ 969 ≤ 2 * (2 ^ 54 - 3) * 2 ^ 969 := Nat.mul_le_mul_right _ hm'
      _ = belowLargest := by decide +kernel
  · calc (4 * b.mantissa + 2) * 2 ^ (b.exponent - 2).toNat ≤ 2 ^ 55 * 2 ^ 968 :=
          Nat.mul_le_mul (by omega) (Nat.pow_le_pow_right (by decide) (by omega))
      _ ≤ belowLargest := by decide +kernel

/-- A covered decimal is at most the upper end. -/
theorem Scaled.covers_le {s : Scaled} {ends : Bool} {c : Nat} {e : Int}
    (h : s.covers ends c e = true) :
    c * 10 ^ e.toNat * s.denominator ≤ s.high * 10 ^ (-e).toNat := by
  unfold covers at h
  by_cases he : e ≥ 0
  · simp only [he, if_true, Nat.pow_eq, Nat.mul_one] at h
    rw [show (-e).toNat = 0 by omega, pow_zero, Nat.mul_one]
    split at h <;> simp only [Bool.and_eq_true, decide_eq_true_eq] at h <;> omega
  · simp only [he, if_false, Nat.pow_eq] at h
    rw [show e.toNat = 0 by omega, pow_zero, Nat.mul_one]
    split at h <;> simp only [Bool.and_eq_true, decide_eq_true_eq] at h <;> omega

theorem candidate?_spec {b : Binary} {s : Scaled} {magnitude : Int} {count : Nat} {d : Decimal}
    (h : candidate? b s magnitude count = some d) :
    d.digits ≠ 0 ∧ ∃ ends, s.covers ends d.digits d.exponent = true := by
  unfold candidate? at h
  simp only at h
  -- Only the two neighbours on the grid matter, not how they are found.
  generalize (if magnitude - (count : Int) + 1 ≥ 0 then
    (s.value, s.denominator * Nat.pow 10 (magnitude - (count : Int) + 1).toNat)
    else (s.value * Nat.pow 10 (-(magnitude - (count : Int) + 1)).toNat, s.denominator)) = point at h
  split at h
  · next hboth =>
      obtain ⟨hlow, hhigh⟩ := Bool.and_eq_true_iff.1 hboth
      obtain ⟨hcovers, hne⟩ := Bool.and_eq_true_iff.1 hlow
      split at h
      · cases h
        exact ⟨bne_iff_ne.1 hne, _, hcovers⟩
      · cases h
        exact ⟨Nat.succ_ne_zero _, _, hhigh⟩
  · split at h
    · next hlow =>
        obtain ⟨hcovers, hne⟩ := Bool.and_eq_true_iff.1 hlow
        cases h
        exact ⟨bne_iff_ne.1 hne, _, hcovers⟩
    · split at h
      · next hhigh =>
          cases h
          exact ⟨Nat.succ_ne_zero _, _, hhigh⟩
      · cases h

/-- The shortest decimal of a double other than the largest lies below the largest. -/
theorem BelowLargest.shortest {b : Binary} (h : b.BelowLargest) :
    b.shortest.Plain ∧ AtMost b.shortest.digits b.shortest.exponent belowLargest := by
  have hhigh := h.high_le
  obtain ⟨low, hscaled⟩ := scaled_eq b
  have hpos : 0 < b.scaled.denominator := by
    rw [hscaled]
    exact Nat.two_pow_pos _
  unfold Binary.shortest
  simp only
  cases hfound : (List.range 17).findSome? fun i => candidate? b b.scaled b.scaled.magnitude (i + 1) with
  | some d =>
      obtain ⟨i, -, hcandidate⟩ := List.exists_of_findSome?_eq_some hfound
      obtain ⟨hne, ends, hcovers⟩ := candidate?_spec hcandidate
      refine ⟨Or.inl hne, ?_⟩
      apply Nat.le_of_mul_le_mul_right (c := b.scaled.denominator) _ hpos
      calc d.digits * 10 ^ d.exponent.toNat * b.scaled.denominator
          ≤ b.scaled.high * 10 ^ (-d.exponent).toNat := Scaled.covers_le hcovers
        _ ≤ belowLargest * b.scaled.denominator * 10 ^ (-d.exponent).toNat :=
            Nat.mul_le_mul_right _ hhigh
        _ = belowLargest * 10 ^ (-d.exponent).toNat * b.scaled.denominator := by ring
  | none =>
      refine ⟨Or.inr rfl, ?_⟩
      show b.scaled.value / b.scaled.denominator * 1 ≤ belowLargest * 1
      rw [Nat.mul_one, Nat.mul_one]
      apply Nat.div_le_of_le_mul
      rw [Nat.mul_comm]
      refine Nat.le_trans ?_ hhigh
      rw [hscaled]
      exact Nat.mul_le_mul_right _ (by omega)

end Binary

/-! ## Decimals as text -/

namespace Decimal

/-- A number in parts that is read, with the given text. -/
def Readable (negative : Bool) (t : Text) : Prop :=
  ∃ p : NumberParts, p.negative = negative ∧ p.WellFormed ∧ p.text = t ∧ p.value?.isSome = true

theorem readable_fraction {negative : Bool} {whole : Text} {c : Char} {fs : Text}
    (hwhole : Digits whole) (hzero : whole.head? = some '0' → whole = ['0'])
    (hlen : whole.length ≤ 16) (hc : c.isDigit = true) (hfs : ∀ d ∈ fs, d.isDigit = true) :
    Readable negative (whole ++ '.' :: c :: fs) := by
  refine ⟨⟨negative, whole, some (c :: fs), none⟩, rfl, ⟨hwhole, hzero, ?_, ?_⟩, ?_, ?_⟩
  · intro ds hds
    cases hds
    exact ⟨List.cons_ne_nil _ _, List.forall_mem_cons.2 ⟨hc, hfs⟩⟩
  · intro e he
    cases he
  · simp [NumberParts.text, fractionText, exponentText]
  · exact value?_fraction hwhole.2 hlen hc

theorem readable_scientific {negative : Bool} {c : Char} {fs : Text} {e : Exponent}
    (hc : c.isDigit = true) (hfs : ∀ d ∈ fs, d.isDigit = true) (he : Digits e.digits)
    (hvalue : (scientificParts negative c fs e).value?.isSome = true) :
    Readable negative (scientificParts negative c fs e).text := by
  refine ⟨scientificParts negative c fs e, rfl, ⟨?_, ?_, ?_, ?_⟩, rfl, hvalue⟩
  · exact ⟨List.cons_ne_nil _ _, by simpa [scientificParts] using hc⟩
  · intro hhead
    have hhead : c = '0' := by simpa [scientificParts] using hhead
    rw [hhead]
    rfl
  · intro ds hds
    cases fs with
    | nil => cases hds
    | cons d fs =>
        cases hds
        exact ⟨List.cons_ne_nil _ _, hfs⟩
  · intro e' he'
    cases he'
    exact he

/-- Digits with zeros after them. -/
theorem readable_padded {negative : Bool} {c : Char} {fs : Text} {k : Nat} (h : Digits (c :: fs))
    (hzero : c = '0' → k = 0 ∧ fs = []) (hlen : fs.length + 1 + k ≤ 16) :
    Readable negative (c :: fs ++ List.replicate k '0' ++ ['.', '0']) := by
  apply readable_fraction
  · refine ⟨List.cons_ne_nil _ _, ?_⟩
    intro d hd
    rcases List.mem_append.1 hd with hd | hd
    · exact h.2 d hd
    · rw [List.eq_of_mem_replicate hd]
      decide
  · intro hhead
    obtain ⟨rfl, rfl⟩ := hzero (Option.some.inj hhead)
    rw [Option.some.inj hhead]
    rfl
  · rw [List.length_append, List.length_cons, List.length_replicate]
    exact hlen
  · decide
  · exact fun d hd => nomatch hd

/-- Digits with the point among them. -/
theorem readable_split {negative : Bool} {c : Char} {fs : Text} {n : Nat} (h : Digits (c :: fs))
    (hne : c ≠ '0') (hn : n < fs.length) (hlen : n + 1 ≤ 16) :
    Readable negative ((c :: fs).take (n + 1) ++ ['.'] ++ (c :: fs).drop (n + 1)) := by
  obtain ⟨d, ds, hdrop⟩ := List.exists_cons_of_ne_nil
    (show fs.drop n ≠ [] from fun hnil => by
      have := congrArg List.length hnil
      rw [List.length_drop, List.length_nil] at this
      omega)
  have hmem : ∀ x ∈ d :: ds, x.isDigit = true := by
    intro x hx
    rw [← hdrop] at hx
    exact h.2 x (List.mem_cons_of_mem _ (List.mem_of_mem_drop hx))
  obtain ⟨hd, hds⟩ := List.forall_mem_cons.1 hmem
  rw [List.drop_succ_cons, List.take_succ_cons, hdrop, List.append_assoc]
  apply readable_fraction
  · refine ⟨List.cons_ne_nil _ _, ?_⟩
    intro x hx
    rw [← List.take_succ_cons] at hx
    exact h.2 x (List.mem_of_mem_take hx)
  · intro hhead
    exact absurd (Option.some.inj hhead) hne
  · rw [List.length_cons, List.length_take]
    omega
  · exact hd
  · exact hds

/-- Digits behind a zero and a point. -/
theorem readable_small {negative : Bool} {c : Char} {fs : Text} (k : Nat) (h : Digits (c :: fs)) :
    Readable negative (['0', '.'] ++ List.replicate k '0' ++ c :: fs) := by
  have hread : ∀ d ds, (∀ x ∈ d :: ds, x.isDigit = true) →
      Readable negative (['0'] ++ '.' :: d :: ds) := by
    intro d ds hall
    obtain ⟨hd, hds⟩ := List.forall_mem_cons.1 hall
    exact readable_fraction ⟨List.cons_ne_nil _ _, by decide⟩ (fun _ => rfl) (by decide) hd hds
  cases k with
  | zero => exact hread c fs h.2
  | succ k =>
      refine hread '0' (List.replicate k '0' ++ c :: fs) ?_
      intro x hx
      rcases List.mem_cons.1 hx with rfl | hx
      · decide
      rcases List.mem_append.1 hx with hx | hx
      · rw [List.eq_of_mem_replicate hx]
        decide
      · exact h.2 x hx

theorem text_scientific (negative : Bool) (c : Char) (fs : Text) (lead : Int) (k : Nat) :
    (c :: fs).take 1 ++ (if ((c :: fs).drop 1).isEmpty then [] else '.' :: (c :: fs).drop 1) ++
        ("e" : Text) ++ ((if lead < 0 then "-" else "+" : String) : Text) ++ Text.ofNat k =
      (scientificParts negative c fs ⟨decide (lead < 0), Text.ofNat k⟩).text := by
  by_cases hlead : lead < 0 <;> cases fs <;>
    simp [scientificParts, NumberParts.text, fractionText, exponentText, hlead]

/-- **Printed decimals are read.**  A decimal below the largest double is written so that reading it
    gives a number. -/
theorem readable_render {d : Decimal} (hplain : d.Plain)
    (h : AtMost d.digits d.exponent belowLargest) (negative : Bool) :
    Readable negative (d.render .json) := by
  obtain ⟨hplain, h⟩ := trimmed_go 20 d hplain h
  unfold render trimmed
  generalize trimmed.go 20 d = d at hplain h
  have hdigits := digits_ofNat d.digits
  have hvalue := ofDigitChars_ofNat d.digits
  obtain ⟨c, fs, hcons⟩ := List.exists_cons_of_ne_nil hdigits.1
  -- Only zero itself begins with a zero, and then nothing else is written.
  have hzero : c = '0' → d.exponent = 0 ∧ fs = [] := by
    rintro rfl
    have hz : d.digits = 0 := ofNat_noLeadingZero d.digits (by rw [hcons]; rfl)
    refine ⟨hplain.resolve_left (fun hne => hne hz), ?_⟩
    rw [hz] at hcons
    exact (List.cons.inj hcons).2.symm
  rw [hcons] at hdigits hvalue
  obtain ⟨hc, hfs⟩ := List.forall_mem_cons.1 hdigits.2
  simp only [hcons, FloatFormat.json, List.length_cons]
  split
  · next hpositional =>
      simp only [Bool.and_eq_true, decide_eq_true_eq] at hpositional
      split
      · next hwhole =>
          refine readable_padded hdigits (fun hz => ?_) (by omega)
          obtain ⟨he, hnil⟩ := hzero hz
          exact ⟨by omega, hnil⟩
      · next hwhole =>
          have hne : c ≠ '0' := fun hz => hwhole (by rw [(hzero hz).1])
          split
          · exact readable_split hdigits hne (by omega) (by omega)
          · exact readable_small _ hdigits
  · next hscientific =>
      simp only [Bool.and_eq_true, decide_eq_true_eq] at hscientific
      have hne : c ≠ '0' := by
        intro hz
        obtain ⟨he, rfl⟩ := hzero hz
        rw [he, List.length_nil] at hscientific
        omega
      rw [text_scientific negative]
      refine readable_scientific hc hfs (digits_ofNat _) ?_
      by_cases hlead : ((fs.length + 1 : Nat) : Int) - 1 + d.exponent < 0
      · rw [decide_eq_true hlead]
        exact value?_negative hc fs (by omega)
      · rw [decide_eq_false hlead]
        apply value?_positive hc hne (show _ = (fs.length : Int) + d.exponent by omega)
        rw [hvalue]
        exact h

end Decimal

/-! ## Doubles as text -/

/-- The largest double is written with seventeen digits, and they are read. -/
theorem readable_largest (negative : Bool) :
    Decimal.Readable negative (Binary.largest.shortest.render .json) := by
  have htext : Binary.largest.shortest.render .json =
      (scientificParts negative '1' ("7976931348623157" : Text) ⟨false, Text.ofNat 308⟩).text := by
    cases negative <;> decide +kernel
  rw [htext]
  refine Decimal.readable_scientific (by decide) (by decide +kernel) (digits_ofNat 308) ?_
  cases negative <;> decide +kernel

/-- **Printed doubles are read.**  A double is written as `null` or as a number that can be read. -/
theorem renderDouble_cases (bits : UInt64) :
    renderDouble bits = "null" ∨ ∃ negative t, Decimal.Readable negative t ∧
      renderDouble bits = if negative then '-' :: t else t := by
  have hsign : ∀ t : Text, Decimal.Readable true t → Decimal.Readable false t →
      ∃ negative u, Decimal.Readable negative u ∧
        (if bits.toNat ≥ Nat.pow 2 63 then ("-" : Text) else ("" : Text)) ++ t =
          if negative then '-' :: u else u := by
    intro t htrue hfalse
    by_cases hbits : bits.toNat ≥ Nat.pow 2 63
    · exact ⟨true, t, htrue, by rw [if_pos hbits]; rfl⟩
    · exact ⟨false, t, hfalse, by rw [if_neg hbits]; rfl⟩
  unfold renderDouble
  simp only
  split
  · right
    have hzero : ∀ negative, Decimal.Readable negative ("0.0" : Text) := fun negative =>
      Decimal.readable_padded (k := 0) (digits_ofNat 0) (fun _ => ⟨rfl, rfl⟩) (by decide)
    exact hsign _ (hzero true) (hzero false)
  · split
    · next b hb =>
        right
        have hread : ∀ negative, Decimal.Readable negative (b.shortest.render .json) := by
          intro negative
          rcases Binary.belowLargest_or_eq hb with hbelow | rfl
          · exact Decimal.readable_render hbelow.shortest.1 hbelow.shortest.2 negative
          · exact readable_largest negative
        exact hsign _ (hread true) (hread false)
    · exact Or.inl rfl

end Typings.Json
