import Mathlib.Data.List.TakeDrop
import Typings.Json.Printer
import Typings.Proofs.Json.Double

/-!
# `Number` — numbers as they are written and read

A number is read as its parts, whole, fraction and exponent, and then given a value.  The parts of a
written number are found again, and what is read as a number has such parts; the rest of the module
says which parts have a value.

* `NumberParts.text`, `NumberParts.WellFormed`: the text with given parts, and the parts that a text
  can have.
* `Numeral`, `Numeral.text`: parts with the ways their exponent may be written.
* `Numeral.readNumber?_magnitude`, `exists_numeral`: numerals are read, and nothing else.
* `absorb_of_lt`, `absorb_spec`: how digits are taken up within 64 bits.
* `value?_wholeParts_false`, `value?_wholeParts_true`: a whole number within 64 bits is read as it was.
* `value?_fraction`, `value?_negative`, `value?_positive`: numbers that are never too large, the last
  when they lie below the largest double.
-/

namespace Typings.Json

/-! ## Digits -/

/-- A text of decimal digits, with at least one. -/
def Digits (t : Text) : Prop := t ≠ [] ∧ ∀ c ∈ t, c.isDigit = true

theorem digits_ofNat (n : Nat) : Digits (Text.ofNat n) :=
  ⟨Nat.toDigits_ne_nil, fun _ hc => Nat.isDigit_of_mem_toDigits (by decide) (by decide) hc⟩

/-- What may follow a value: the end, or what closes or separates. -/
def Ends (rest : Text) : Prop := ∀ c ∈ rest.head?, c = ',' ∨ c = ']' ∨ c = '\x7d'

theorem spanDigits_append {ds rest : Text} (hds : ∀ c ∈ ds, c.isDigit = true)
    (hrest : ∀ c ∈ rest.head?, c.isDigit = false) : spanDigits (ds ++ rest) = (ds, rest) := by
  unfold spanDigits
  rw [List.span_eq_takeWhile_dropWhile]
  rw [List.takeWhile_append_of_pos hds, List.dropWhile_append_of_pos hds]
  cases rest with
  | nil => simp
  | cons c rest =>
      have hc : c.isDigit = false := hrest c rfl
      simp [hc]

/-- Digits only add to a number. -/
theorem le_ofDigitChars (t : Text) (n : Nat) : n ≤ Nat.ofDigitChars 10 t n := by
  rw [Nat.ofDigitChars_eq_ofDigitChars_zero]
  have : 0 < 10 ^ t.length := Nat.pow_pos (by decide)
  exact Nat.le_add_right_of_le (Nat.le_mul_of_pos_left n this)

theorem absorb_cons (n : Nat) (c : Char) (t : Text) :
    absorb n (c :: t) =
      if Nat.ofDigitChars 10 [c] n < 2 ^ 64 then absorb (Nat.ofDigitChars 10 [c] n) t
      else (n, c :: t) := by
  rw [absorb, Nat.ofDigitChars_cons, Nat.ofDigitChars_nil, Nat.mul_comm]
  rfl

/-- A number that fits is taken up whole. -/
theorem absorb_of_lt {t : Text} {n : Nat} (h : Nat.ofDigitChars 10 t n < 2 ^ 64) :
    absorb n t = (Nat.ofDigitChars 10 t n, []) := by
  induction t generalizing n with
  | nil => rfl
  | cons c t ih =>
      have hsplit : Nat.ofDigitChars 10 (c :: t) n =
          Nat.ofDigitChars 10 t (Nat.ofDigitChars 10 [c] n) := Nat.ofDigitChars_append (l := [c]) n
      rw [hsplit] at h
      rw [absorb_cons, if_pos (Nat.lt_of_le_of_lt (le_ofDigitChars t _) h), ih h, hsplit]

/-- Digits are taken up from the front, and the number stays within 64 bits. -/
theorem absorb_spec (t : Text) {n : Nat} (hn : n < 2 ^ 64) :
    ∃ taken, t = taken ++ (absorb n t).2 ∧ (absorb n t).1 = Nat.ofDigitChars 10 taken n ∧
      (absorb n t).1 < 2 ^ 64 := by
  induction t generalizing n with
  | nil => exact ⟨[], rfl, rfl, hn⟩
  | cons c t ih =>
      rw [absorb_cons]
      split
      · next hfits =>
          obtain ⟨taken, ht, hval, hlt⟩ := ih hfits
          refine ⟨c :: taken, ?_, ?_, hlt⟩
          · rw [List.cons_append, ← ht]
          · exact hval.trans (Nat.ofDigitChars_append (l := [c]) n).symm
      · exact ⟨[], rfl, rfl, hn⟩

/-! ## Numbers as they are written -/

/-- A fraction as it is written. -/
def fractionText : Option Text → Text
  | none => []
  | some ds => '.' :: ds

/-- An exponent as it may be written: its mark may be a capital, and a plus in front of its digits may
    be left out. -/
def exponentTextAs (capital plus : Bool) : Option Exponent → Text
  | none => []
  | some e =>
    (if capital then 'E' else 'e') ::
      ((if e.negative then ['-'] else if plus then ['+'] else []) ++ e.digits)

/-- An exponent as it is written, always with its sign. -/
def exponentText : Option Exponent → Text
  | none => []
  | some e => 'e' :: (if e.negative then '-' else '+') :: e.digits

theorem exponentText_eq (e : Option Exponent) : exponentText e = exponentTextAs false true e := by
  cases e with
  | none => rfl
  | some e =>
      obtain ⟨negative, digits⟩ := e
      cases negative <;> rfl

/-- A number as it is written, without its sign. -/
def NumberParts.text (p : NumberParts) : Text :=
  p.whole ++ (fractionText p.fraction ++ exponentText p.exponent)

/-- The parts that a text can have: digits in each, and no zero in front of another digit. -/
structure NumberParts.WellFormed (p : NumberParts) : Prop where
  whole : Digits p.whole
  noLeadingZero : p.whole.head? = some '0' → p.whole = ['0']
  fraction : ∀ ds ∈ p.fraction, Digits ds
  exponent : ∀ e ∈ p.exponent, Digits e.digits

/-- A number as it may be written: its parts, and how its exponent is marked. -/
structure Numeral where
  parts : NumberParts
  wellFormed : parts.WellFormed
  capital : Bool
  plus : Bool

/-- A number as it may be written, without its sign. -/
def Numeral.magnitude (n : Numeral) : Text :=
  n.parts.whole ++
    (fractionText n.parts.fraction ++ exponentTextAs n.capital n.plus n.parts.exponent)

/-- A number as it may be written. -/
def Numeral.text (n : Numeral) : Text :=
  if n.parts.negative then '-' :: n.magnitude else n.magnitude

/-- But for its sign a number begins with a digit. -/
theorem Numeral.exists_magnitude (n : Numeral) :
    ∃ c u, n.magnitude = c :: u ∧ c.isDigit = true := by
  obtain ⟨c, ds, hcons⟩ := List.exists_cons_of_ne_nil n.wellFormed.whole.1
  have hc : c.isDigit = true := n.wellFormed.whole.2 c (by rw [hcons]; exact List.mem_cons_self ..)
  exact ⟨c, _, by rw [magnitude, hcons, List.cons_append], hc⟩

/-- A number is written with digits, signs, a point and the mark of its exponent. -/
theorem Numeral.mem_text {n : Numeral} {c : Char} (h : c ∈ n.text) :
    c.isDigit = true ∨ c ∈ ['-', '+', '.', 'e', 'E'] := by
  have hmagnitude : c ∈ n.magnitude → c.isDigit = true ∨ c ∈ ['-', '+', '.', 'e', 'E'] := by
    intro h
    rcases List.mem_append.1 h with hwhole | h
    · exact Or.inl (n.wellFormed.whole.2 c hwhole)
    rcases List.mem_append.1 h with hfraction | hexponent
    · cases hf : n.parts.fraction with
      | none =>
          rw [hf] at hfraction
          cases hfraction
      | some ds =>
          rw [hf] at hfraction
          rcases List.mem_cons.1 hfraction with rfl | hds
          · exact Or.inr (by decide)
          · exact Or.inl ((n.wellFormed.fraction ds hf).2 c hds)
    · cases he : n.parts.exponent with
      | none =>
          rw [he] at hexponent
          cases hexponent
      | some e =>
          rw [he] at hexponent
          rcases List.mem_cons.1 hexponent with rfl | hexponent
          · exact Or.inr (by cases n.capital <;> decide)
          rcases List.mem_append.1 hexponent with hsign | hds
          · refine Or.inr ?_
            split at hsign
            · rw [List.mem_singleton.1 hsign]
              decide
            split at hsign
            · rw [List.mem_singleton.1 hsign]
              decide
            · cases hsign
          · exact Or.inl ((n.wellFormed.exponent e he).2 c hds)
  rw [text] at h
  split at h
  · rcases List.mem_cons.1 h with rfl | h
    · exact Or.inr (by decide)
    · exact hmagnitude h
  · exact hmagnitude h

/-- The parts with the exponent's sign always written. -/
def NumberParts.WellFormed.numeral {p : NumberParts} (h : p.WellFormed) : Numeral :=
  ⟨p, h, false, true⟩

theorem NumberParts.WellFormed.magnitude_numeral {p : NumberParts} (h : p.WellFormed) :
    h.numeral.magnitude = p.text := by
  rw [NumberParts.text, exponentText_eq]
  rfl

/-- What cannot go on with a number. -/
def EndsNumber (rest : Text) : Prop :=
  ∀ c ∈ rest.head?, c.isDigit = false ∧ c ≠ '.' ∧ c ≠ 'e' ∧ c ≠ 'E'

theorem Ends.endsNumber {rest : Text} (h : Ends rest) : EndsNumber rest := by
  intro c hc
  rcases h c hc with rfl | rfl | rfl <;> decide

/-! ## Numbers are found again -/

theorem readExponent?_text {e : Option Exponent} (he : ∀ x ∈ e, Digits x.digits)
    (capital plus : Bool) {rest : Text} (hrest : EndsNumber rest) :
    readExponent? (exponentTextAs capital plus e ++ rest) = some (e, rest) := by
  cases e with
  | none =>
      cases rest with
      | nil => rfl
      | cons c rest =>
          obtain ⟨-, -, hsmall, hcapital⟩ := hrest c rfl
          show readExponent? (c :: rest) = _
          simp [readExponent?, hsmall, hcapital]
  | some e =>
      obtain ⟨hne, hds⟩ := he e rfl
      have hspan := spanDigits_append hds fun c hc => (hrest c hc).1
      obtain ⟨c, ds, hcons⟩ := List.exists_cons_of_ne_nil hne
      obtain ⟨negative, digits⟩ := e
      simp only at hcons hspan
      subst hcons
      rw [List.cons_append] at hspan
      have hc : c.isDigit = true := hds c (List.mem_cons_self ..)
      have hplus : c ≠ '+' := by
        rintro rfl
        cases hc
      have hminus : c ≠ '-' := by
        rintro rfl
        cases hc
      cases capital <;> cases negative <;> cases plus <;>
        simp [exponentTextAs, readExponent?, hspan, hplus, hminus]

theorem readFraction?_text {f : Option Text} (hf : ∀ ds ∈ f, Digits ds) {rest : Text}
    (hrest : ∀ c ∈ rest.head?, c.isDigit = false ∧ c ≠ '.') :
    readFraction? (fractionText f ++ rest) = some (f, rest) := by
  cases f with
  | none =>
      cases rest with
      | nil => rfl
      | cons c rest =>
          have hc : c ≠ '.' := (hrest c rfl).2
          show readFraction? (c :: rest) = _
          unfold readFraction?
          split
          · next h => exact absurd (List.cons.inj h).1 hc
          · rfl
  | some ds =>
      obtain ⟨hne, hds⟩ := hf ds rfl
      have hspan := spanDigits_append hds (fun c hc => (hrest c hc).1)
      obtain ⟨c, ds, rfl⟩ := List.exists_cons_of_ne_nil hne
      show readFraction? ('.' :: (c :: ds ++ rest)) = _
      simp only [readFraction?, hspan]

/-- The parts of a number are found again in its text. -/
theorem Numeral.readNumber?_magnitude (n : Numeral) {rest : Text} (hrest : EndsNumber rest) :
    readNumber? n.parts.negative (n.magnitude ++ rest) = some (n.parts.value?, rest) := by
  obtain ⟨⟨negative, whole, fraction, exponent⟩, ⟨⟨hne, hds⟩, hzero, hfraction, hexponent⟩, capital,
    plus⟩ := n
  simp only at hne hds hzero hfraction hexponent
  -- No part goes on with the one before it.
  have hexp : ∀ c ∈ (exponentTextAs capital plus exponent ++ rest).head?,
      c.isDigit = false ∧ c ≠ '.' := by
    cases exponent with
    | none => exact fun c hc => ⟨(hrest c hc).1, (hrest c hc).2.1⟩
    | some e =>
        intro c hc
        cases hc
        cases capital <;> decide
  have hfrac : ∀ c ∈ (fractionText fraction ++ (exponentTextAs capital plus exponent ++ rest)).head?,
      c.isDigit = false := by
    cases fraction with
    | none => exact fun c hc => (hexp c hc).1
    | some ds =>
        intro c hc
        cases hc
        decide
  show readNumber? negative
    (whole ++ (fractionText fraction ++ exponentTextAs capital plus exponent) ++ rest) = _
  rw [List.append_assoc, List.append_assoc]
  unfold readNumber?
  rw [spanDigits_append hds hfrac]
  obtain ⟨c, whole, rfl⟩ := List.exists_cons_of_ne_nil hne
  split
  · next heq => cases heq
  · next heq =>
      obtain ⟨rfl, rfl⟩ := List.cons.inj (Prod.mk.inj heq).1
      cases hzero rfl
  · next heq =>
      obtain ⟨rfl, rfl⟩ := Prod.mk.inj heq
      rw [readFraction?_text hfraction hexp]
      show (readExponent? (exponentTextAs capital plus exponent ++ rest)).bind _ = _
      rw [readExponent?_text hexponent capital plus hrest]
      rfl

theorem spanDigits_spec {t ds rest : Text} (h : spanDigits t = (ds, rest)) :
    t = ds ++ rest ∧ ∀ c ∈ ds, c.isDigit = true := by
  rw [spanDigits, List.span_eq_takeWhile_dropWhile] at h
  obtain ⟨rfl, rfl⟩ := Prod.mk.inj h
  exact ⟨List.takeWhile_append_dropWhile.symm, fun c hc => List.mem_takeWhile_imp hc⟩

theorem readFraction?_spec {t rest : Text} {f : Option Text} (h : readFraction? t = some (f, rest)) :
    t = fractionText f ++ rest ∧ ∀ ds ∈ f, Digits ds := by
  unfold readFraction? at h
  split at h
  · split at h
    · cases h
    · next digits _ hne heq =>
        cases h
        obtain ⟨rfl, hds⟩ := spanDigits_spec heq
        refine ⟨rfl, fun ds hds' => ?_⟩
        cases hds'
        exact ⟨hne, hds⟩
  · cases h
    exact ⟨rfl, fun _ hds => nomatch hds⟩

/-- After its mark an exponent is read as a sign that may be left out, and digits. -/
theorem readExponent?_mark (capital : Bool) (t : Text) :
    ∃ (negative plus : Bool) (digits : Text),
      t = (if negative then ['-'] else if plus then ['+'] else []) ++ digits ∧
        readExponent? ((if capital then 'E' else 'e') :: t) =
          match spanDigits digits with
          | ([], _) => none
          | (ds, rest) => some (some ⟨negative, ds⟩, rest) := by
  by_cases hplus : ∃ r, t = '+' :: r
  · obtain ⟨r, rfl⟩ := hplus
    exact ⟨false, true, r, rfl, by cases capital <;> rfl⟩
  by_cases hminus : ∃ r, t = '-' :: r
  · obtain ⟨r, rfl⟩ := hminus
    exact ⟨true, false, r, rfl, by cases capital <;> rfl⟩
  · refine ⟨false, false, t, rfl, ?_⟩
    rewrite [readExponent?, if_pos (by cases capital <;> rfl)]
    · cases spanDigits t with
      | mk ds rest => cases ds <;> rfl
    · exact fun r hr => hplus ⟨r, hr⟩
    · exact fun r hr => hminus ⟨r, hr⟩

theorem readExponent?_spec {t rest : Text} {e : Option Exponent}
    (h : readExponent? t = some (e, rest)) :
    ∃ capital plus, t = exponentTextAs capital plus e ++ rest ∧ ∀ x ∈ e, Digits x.digits := by
  cases t with
  | nil =>
      cases h
      exact ⟨false, false, rfl, fun _ hx => nomatch hx⟩
  | cons c t =>
      by_cases hc : ∃ capital : Bool, c = if capital then 'E' else 'e'
      · obtain ⟨capital, rfl⟩ := hc
        obtain ⟨negative, plus, digits, rfl, hread⟩ := readExponent?_mark capital t
        rw [hread] at h
        split at h
        · cases h
        · next hne hspan =>
            cases h
            obtain ⟨rfl, hds⟩ := spanDigits_spec hspan
            refine ⟨capital, plus, ?_, fun x hx => ?_⟩
            · rw [exponentTextAs, List.cons_append, List.append_assoc]
            · cases hx
              exact ⟨hne, hds⟩
      · have hsmall : c ≠ 'e' := fun h => hc ⟨false, h⟩
        have hcapital : c ≠ 'E' := fun h => hc ⟨true, h⟩
        simp [readExponent?, hsmall, hcapital] at h
        obtain ⟨rfl, rfl⟩ := h
        exact ⟨false, false, rfl, fun _ hx => nomatch hx⟩

/-- What is read as a number is one. -/
theorem exists_numeral {negative : Bool} {t rest : Text} {v : Option Number}
    (h : readNumber? negative t = some (v, rest)) :
    ∃ n : Numeral, n.parts.negative = negative ∧ n.parts.value? = v ∧ t = n.magnitude ++ rest := by
  unfold readNumber? at h
  split at h
  · cases h
  · cases h
  · next whole r hne hzero hspan =>
      obtain ⟨⟨fraction, u⟩, hf, h⟩ := Option.bind_eq_some_iff.1 h
      obtain ⟨⟨exponent, u'⟩, he, h⟩ := Option.bind_eq_some_iff.1 h
      cases h
      obtain ⟨rfl, hwhole⟩ := spanDigits_spec hspan
      obtain ⟨rfl, hfraction⟩ := readFraction?_spec hf
      obtain ⟨capital, plus, rfl, hexponent⟩ := readExponent?_spec he
      have hlead : whole.head? = some '0' → whole = ['0'] := by
        intro hhead
        obtain ⟨ds, rfl⟩ := List.head?_eq_some_iff.1 hhead
        cases ds with
        | nil => rfl
        | cons d ds => exact absurd rfl (hzero d ds)
      refine ⟨⟨⟨negative, whole, fraction, exponent⟩, ⟨⟨hne, hwhole⟩, hlead, hfraction, hexponent⟩,
        capital, plus⟩, rfl, rfl, ?_⟩
      simp [Numeral.magnitude]

/-! ## Whole numbers -/

/-- No zero stands in front of a number but zero itself. -/
theorem ofNat_noLeadingZero (n : Nat) (h : (Text.ofNat n).head? = some '0') : n = 0 := by
  induction n using Nat.strongRecOn with
  | ind n ih =>
      unfold Text.ofNat at h ih
      rcases Nat.lt_or_ge n 10 with hlt | hge
      · rw [Nat.toDigits_of_lt_base hlt, List.head?_cons, Option.some.injEq] at h
        have hvals : ∀ m < 10, Nat.digitChar m = '0' → m = 0 := by decide
        exact hvals n hlt h
      · obtain ⟨c, ds, hcons⟩ := List.exists_cons_of_ne_nil
          (Nat.toDigits_ne_nil : Nat.toDigits 10 (n / 10) ≠ [])
        rw [Nat.toDigits_of_base_le (by decide) hge, hcons] at h
        have := ih (n / 10) (Nat.div_lt_self (by omega) (by decide)) (by rw [hcons]; exact h)
        omega

theorem ofDigitChars_ofNat (n : Nat) : Nat.ofDigitChars 10 (Text.ofNat n) 0 = n :=
  Nat.ofDigitChars_ten_toDigits

theorem absorb_ofNat {n : Nat} (h : n < 2 ^ 64) : absorb 0 (Text.ofNat n) = (n, []) := by
  rw [absorb_of_lt (by rw [ofDigitChars_ofNat]; exact h), ofDigitChars_ofNat]

/-- The parts of a whole number. -/
def wholeParts (negative : Bool) (n : Nat) : NumberParts := ⟨negative, Text.ofNat n, none, none⟩

theorem wellFormed_wholeParts (negative : Bool) (n : Nat) : (wholeParts negative n).WellFormed where
  whole := digits_ofNat n
  noLeadingZero h := by
    rw [wholeParts, ofNat_noLeadingZero n h]
    rfl
  fraction := fun _ h => nomatch h
  exponent := fun _ h => nomatch h

/-- A whole number within 64 bits is read as it was. -/
theorem value?_wholeParts_false {n : Nat} (h : n < 2 ^ 64) :
    (wholeParts false n).value? = some (.int n) := by
  unfold NumberParts.value? wholeParts
  simp only [absorb_ofNat h]
  rfl

theorem value?_wholeParts_true {n : Nat} (hpos : 0 < n) (h : n ≤ 2 ^ 63) :
    (wholeParts true n).value? = some (.int (-(n : Int))) := by
  unfold NumberParts.value? wholeParts
  simp only [absorb_ofNat (show n < 2 ^ 64 by omega)]
  have hrange : (decide (0 < n) && decide (n ≤ Nat.pow 2 63)) = true := by
    simp [hpos]
    exact h
  simp [hrange]

/-! ## Fractions and exponents -/

theorem ofDigitChars_lt {t : Text} (ht : ∀ c ∈ t, c.isDigit = true) (n : Nat) :
    Nat.ofDigitChars 10 t n < (n + 1) * 10 ^ t.length := by
  induction t generalizing n with
  | nil => simp
  | cons c t ih =>
      have hc : c.toNat ≤ 57 := (Char.isDigit_iff_toNat.1 (ht c (List.mem_cons_self ..))).2
      rw [Nat.ofDigitChars_cons]
      refine Nat.lt_of_lt_of_le (ih (fun d hd => ht d (List.mem_cons_of_mem _ hd)) _) ?_
      have hzero : '0'.toNat = 48 := rfl
      rw [List.length_cons, pow_succ,
        show (n + 1) * (10 ^ t.length * 10) = (10 * n + 10) * 10 ^ t.length by ring]
      apply Nat.mul_le_mul_right
      omega

/-- A number with a fraction and no exponent is never too large, when its whole part is short. -/
theorem value?_fraction {negative : Bool} {whole : Text} {c : Char} {fs : Text}
    (hwhole : ∀ d ∈ whole, d.isDigit = true) (hlen : whole.length ≤ 16) (hc : c.isDigit = true) :
    (NumberParts.value? ⟨negative, whole, some (c :: fs), none⟩).isSome = true := by
  have hlt : Nat.ofDigitChars 10 whole 0 < 10 ^ 16 := by
    have h := ofDigitChars_lt hwhole 0
    have hpow : 10 ^ whole.length ≤ 10 ^ 16 := Nat.pow_le_pow_right (by decide) hlen
    omega
  have hfirst : Nat.ofDigitChars 10 [c] (Nat.ofDigitChars 10 whole 0) < 2 ^ 64 := by
    have h := ofDigitChars_lt (t := [c]) (by simpa using hc) (Nat.ofDigitChars 10 whole 0)
    simp only [List.length_singleton, pow_one] at h
    omega
  obtain ⟨taken, htaken, -, -⟩ := absorb_spec fs hfirst
  have hshorter : (absorb (Nat.ofDigitChars 10 whole 0) (c :: fs)).2.length < (c :: fs).length := by
    rw [absorb_cons, if_pos hfirst]
    have := congrArg List.length htaken
    simp only [List.length_append] at this
    rw [List.length_cons]
    omega
  unfold NumberParts.value?
  rw [absorb_of_lt (Nat.lt_trans hlt (by decide))]
  simp only [Option.getD_some, Option.isSome_map]
  apply scale?_of_neg
  simp only [List.length_nil]
  omega

theorem digitValue_pos {c : Char} (hc : c.isDigit = true) (hne : c ≠ '0') :
    0 < Nat.ofDigitChars 10 [c] 0 := by
  obtain ⟨hlow, -⟩ := Char.isDigit_iff_toNat.1 hc
  have hzero : '0'.toNat = 48 := rfl
  have hne' : c.toNat ≠ 48 := fun h => hne (Char.toNat_inj.1 h)
  rw [Nat.ofDigitChars_cons, Nat.ofDigitChars_nil]
  omega

/-- The parts of a number in front of whose digits but the first the point stands. -/
def scientificParts (negative : Bool) (c : Char) (fs : Text) (e : Exponent) : NumberParts :=
  ⟨negative, [c], if fs.isEmpty then none else some fs, some e⟩

theorem value?_scientificParts (negative : Bool) {c : Char} (hc : c.isDigit = true) (fs : Text)
    (e : Exponent) :
    (scientificParts negative c fs e).value? =
      let (significand, dropped) := absorb (Nat.ofDigitChars 10 [c] 0) fs
      let (n, rest) := absorb 0 e.digits
      let shift : Int := -(fs.length - dropped.length : Nat)
      if !rest.isEmpty || n ≥ Nat.pow 2 31 then
        if significand != 0 && !e.negative then none else some (signed negative 0)
      else
        (scale? (nearestDouble significand) (if e.negative then shift - n else shift + n)).map
          (signed negative) := by
  have hwhole : absorb 0 [c] = (Nat.ofDigitChars 10 [c] 0, []) := by
    apply absorb_of_lt
    have h := ofDigitChars_lt (t := [c]) (by simpa using hc) 0
    simp only [List.length_singleton, pow_one] at h
    omega
  have hfs : (if fs.isEmpty then none else some fs : Option Text).getD [] = fs := by
    cases fs <;> rfl
  unfold NumberParts.value? scientificParts
  simp only [hwhole, hfs, List.length_nil]
  simp

/-- A number with a negative exponent is never too large. -/
theorem value?_negative {negative : Bool} {c : Char} (hc : c.isDigit = true) (fs : Text) {k : Nat}
    (hk : 0 < k) :
    (scientificParts negative c fs ⟨true, Text.ofNat k⟩).value?.isSome = true := by
  rw [value?_scientificParts negative hc]
  obtain ⟨taken, htaken, hval, -⟩ := absorb_spec (Text.ofNat k) (show 0 < 2 ^ 64 by decide)
  generalize absorb 0 (Text.ofNat k) = r at htaken hval
  obtain ⟨n, rest⟩ := r
  simp only at htaken hval
  simp only [Bool.not_true, Bool.and_false, Bool.false_eq_true, if_false, if_true]
  split
  · rfl
  · next hshort =>
      have hnil : rest = [] := by
        cases rest with
        | nil => rfl
        | cons d rest => simp at hshort
      rw [hnil, List.append_nil] at htaken
      rw [← htaken, ofDigitChars_ofNat] at hval
      rw [Option.isSome_map]
      apply scale?_of_neg
      omega

/-- A decimal number `digits · 10 ^ exponent` is at most `b`. -/
def AtMost (digits : Nat) (exponent : Int) (b : Nat) : Prop :=
  digits * 10 ^ exponent.toNat ≤ b * 10 ^ (-exponent).toNat

/-- A number below the largest double is read, with its point after the first digit. -/
theorem value?_positive {negative : Bool} {c : Char} {fs : Text} (hc : c.isDigit = true)
    (hne : c ≠ '0') {k : Nat} {e : Int} (hk : (k : Int) = fs.length + e)
    (h : AtMost (Nat.ofDigitChars 10 (c :: fs) 0) e belowLargest) :
    (scientificParts negative c fs ⟨false, Text.ofNat k⟩).value?.isSome = true := by
  have hfirst : 0 < Nat.ofDigitChars 10 [c] 0 := digitValue_pos hc hne
  have hfirstLt : Nat.ofDigitChars 10 [c] 0 < 2 ^ 64 := by
    have hlt := ofDigitChars_lt (t := [c]) (by simpa using hc) 0
    simp only [List.length_singleton, pow_one] at hlt
    omega
  have hsplit : Nat.ofDigitChars 10 (c :: fs) 0 =
      Nat.ofDigitChars 10 fs (Nat.ofDigitChars 10 [c] 0) := Nat.ofDigitChars_append (l := [c]) 0
  unfold AtMost at h
  rw [hsplit] at h
  -- The leading digit alone bounds the exponent.
  have hk308 : k ≤ 308 := by
    have hlead : 10 ^ fs.length ≤ Nat.ofDigitChars 10 fs (Nat.ofDigitChars 10 [c] 0) := by
      rw [Nat.ofDigitChars_eq_ofDigitChars_zero]
      exact Nat.le_add_right_of_le (Nat.le_mul_of_pos_right _ hfirst)
    have hpow : 10 ^ (fs.length + e.toNat) < 10 ^ (309 + (-e).toNat) := by
      rw [pow_add, pow_add]
      calc 10 ^ fs.length * 10 ^ e.toNat
          ≤ Nat.ofDigitChars 10 fs (Nat.ofDigitChars 10 [c] 0) * 10 ^ e.toNat :=
            Nat.mul_le_mul_right _ hlead
        _ ≤ belowLargest * 10 ^ (-e).toNat := h
        _ < 10 ^ 309 * 10 ^ (-e).toNat :=
            Nat.mul_lt_mul_of_pos_right belowLargest_lt (Nat.pow_pos (by decide))
    have := (Nat.pow_lt_pow_iff_right (by decide)).1 hpow
    omega
  obtain ⟨taken, htaken, hval, hlt⟩ := absorb_spec fs hfirstLt
  rw [value?_scientificParts negative hc, absorb_ofNat (show k < 2 ^ 64 by omega)]
  generalize absorb (Nat.ofDigitChars 10 [c] 0) fs = r at htaken hval hlt
  obtain ⟨significand, dropped⟩ := r
  simp only at htaken hval hlt
  have hsmall : ¬ k ≥ Nat.pow 2 31 := by
    have : Nat.pow 2 31 = 2147483648 := rfl
    omega
  simp only [List.isEmpty_nil, Bool.not_true, Bool.false_or, decide_eq_true_eq, hsmall, if_false,
    Option.isSome_map, Bool.false_eq_true]
  have hlength : fs.length = taken.length + dropped.length := by
    rw [htaken, List.length_append]
  have hpos : 0 < significand := by
    rw [hval]
    exact Nat.lt_of_lt_of_le hfirst (le_ofDigitChars _ _)
  by_cases hneg : -((fs.length - dropped.length : Nat) : Int) + k < 0
  · exact scale?_of_neg _ hneg
  · -- What was dropped only makes the number smaller.
    obtain ⟨t, ht⟩ : ∃ t : Nat, -((fs.length - dropped.length : Nat) : Int) + k = t :=
      ⟨_, (Int.toNat_of_nonneg (by omega)).symm⟩
    rw [ht]
    apply scale?_of_le hpos hlt (by omega)
    have hkeep : significand * 10 ^ dropped.length ≤
        Nat.ofDigitChars 10 fs (Nat.ofDigitChars 10 [c] 0) := by
      rw [htaken, Nat.ofDigitChars_append, ← hval, Nat.ofDigitChars_eq_ofDigitChars_zero,
        Nat.mul_comm]
      exact Nat.le_add_right _ _
    apply Nat.le_of_mul_le_mul_right (c := 10 ^ (-e).toNat) _ (Nat.pow_pos (by decide))
    calc significand * 10 ^ t * 10 ^ (-e).toNat
        = significand * 10 ^ dropped.length * 10 ^ e.toNat := by
          rw [Nat.mul_assoc, Nat.mul_assoc, ← pow_add, ← pow_add]
          congr 2
          omega
      _ ≤ Nat.ofDigitChars 10 fs (Nat.ofDigitChars 10 [c] 0) * 10 ^ e.toNat :=
          Nat.mul_le_mul_right _ hkeep
      _ ≤ belowLargest * 10 ^ (-e).toNat := h

end Typings.Json
