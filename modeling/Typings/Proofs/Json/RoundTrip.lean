import Mathlib.Data.List.DropRight
import Mathlib.Tactic.IntervalCases
import Typings.Proofs.Json.Shortest
import Typings.Proofs.Json.Value

/-!
# `RoundTrip` — reading undoes writing

What `compact` writes, `readWritten?` reads.  Strings and whole numbers come back as they were; a
double comes back as a number, though not always the same one, so the value that is read is the value
that was written with its doubles read anew.

* `Spells`, `spells_escapeChar`: an escaped character is read as the character.
* `readString?_quote`: a string comes back.
* `Number.again`, `again`: the value that is read.
* `ReadsBack.array`, `ReadsBack.object`: what is made of values that are read back is read back.
* `Lawful.readsBack`: every lawful value is read back, whatever follows it.
* `Lawful.again`: what is read is lawful again.
* `Number.isWhole`, `Written.isWhole`, `wholeNumbers`: documents whose numbers are integers of 64 bits.
* `Written.again_of_isWhole`: the values of such a document come back as they were.
-/

namespace Typings.Json

/-! ## Strings -/

/-- A written unit of a string: reading it gives one unit, which makes one character. -/
def Spells (written : Text) (c : Char) : Prop :=
  ∃ u : StringUnit,
    (∀ t, readUnits? (written ++ t) = (readUnits? t).map fun (units, rest) => (u :: units, rest)) ∧
      ∀ us, joinUnits? (u :: us) = (joinUnits? us).map (c :: ·)

/-- A simple escape is read as its character. -/
theorem spells_simple {e c : Char} (he : e ≠ 'u') (h : simpleEscape? e = some c) :
    Spells ['\\', e] c := by
  refine ⟨.char c, fun t => ?_, fun us => rfl⟩
  show readUnits? ('\\' :: e :: t) = _
  rw [readUnits?, h]
  · cases readUnits? t <;> rfl
  · intro _ _ _ _ _ heq
    exact absurd heq he

/-- A control character is read from the digits of its code. -/
theorem spells_control {c : Char} (h : c.toNat < 0x20) :
    Spells ['\\', 'u', '0', '0', hexDigit (c.toNat / 16), hexDigit (c.toNat % 16)] c := by
  have hhex : ∀ n < 0x20, hexUnit? '0' '0' (hexDigit (n / 16)) (hexDigit (n % 16)) = some n := by
    decide +kernel
  refine ⟨.unit c.toNat, fun t => ?_, fun us => ?_⟩
  · show readUnits? ('\\' :: 'u' :: '0' :: '0' :: _ :: _ :: t) = _
    rw [readUnits?, hhex c.toNat h]
    cases readUnits? t <;> rfl
  · conv_lhs => unfold joinUnits?
    simp only [Bool.and_eq_true, decide_eq_true_eq]
    rw [if_neg (by omega), if_neg (by omega), Char.ofNat_toNat]

/-- A character that needs no escape is read as itself. -/
theorem spells_plain {c : Char} (hquote : c ≠ '"') (hslash : c ≠ '\\') (h : ¬ c.toNat < 0x20) :
    Spells [c] c := by
  refine ⟨.char c, fun t => ?_, fun us => rfl⟩
  show readUnits? (c :: t) = _
  rw [readUnits?]
  · simp [h, hslash]
  · exact hquote
  · intro _ _ _ _ _ heq
    exact absurd heq hslash
  · intro _ _ heq
    exact absurd heq hslash

/-- However a character is written, it is read back. -/
theorem spells_escapeChar (c : Char) : Spells (escapeChar c) c := by
  unfold escapeChar
  simp only [beq_iff_eq]
  split
  · next hc => exact hc ▸ spells_simple (by decide) rfl
  split
  · next hc => exact hc ▸ spells_simple (by decide) rfl
  split
  · next hc => exact hc ▸ spells_simple (by decide) rfl
  split
  · next hc => exact hc ▸ spells_simple (by decide) rfl
  split
  · next hc => exact hc ▸ spells_simple (by decide) rfl
  split
  · next hc => exact hc ▸ spells_simple (by decide) rfl
  split
  · next hc => exact hc ▸ spells_simple (by decide) rfl
  split
  · next hcontrol => exact spells_control hcontrol
  · next hquote hslash _ _ _ _ _ hcontrol => exact spells_plain hquote hslash hcontrol

/-- A string is read as it was written. -/
theorem readString?_quote (t rest : Text) :
    readString? (t.flatMap escapeChar ++ '"' :: rest) = some (some t, rest) := by
  have hunits : ∃ units, readUnits? (t.flatMap escapeChar ++ '"' :: rest) = some (units, rest) ∧
      joinUnits? units = some t := by
    induction t with
    | nil => exact ⟨[], by rw [List.flatMap_nil, List.nil_append, readUnits?], rfl⟩
    | cons c t ih =>
        obtain ⟨units, hread, hjoin⟩ := ih
        obtain ⟨u, hu, hju⟩ := spells_escapeChar c
        refine ⟨u :: units, ?_, ?_⟩
        · rw [List.flatMap_cons, List.append_assoc, hu, hread]
          rfl
        · rw [hju, hjoin]
          rfl
  obtain ⟨units, hread, hjoin⟩ := hunits
  rw [readString?, hread, ← hjoin]
  rfl

/-! ## Numbers -/

/-- Every digit is the one of a number below ten. -/
theorem exists_digitChar {c : Char} (hc : c.isDigit = true) : ∃ n < 10, c = Nat.digitChar n := by
  have hcodes : ∀ m < 58, 48 ≤ m → Char.ofNat m = Nat.digitChar (m - 48) := by decide
  obtain ⟨hlow, hhigh⟩ : 48 ≤ c.toNat ∧ c.toNat ≤ 57 := Char.isDigit_iff_toNat.1 hc
  refine ⟨c.toNat - 48, by omega, ?_⟩
  rw [← hcodes c.toNat (by omega) hlow, Char.ofNat_toNat]

/-- A digit in front of a text starts a number. -/
theorem readNode?_digit (fuel : Nat) {c : Char} (hc : c.isDigit = true) (t : Text) :
    readNode? (fuel + 1) (c :: t) =
      (readNumber? false (c :: t)).map fun (n, rest) => (.number n, rest) := by
  obtain ⟨n, hn, rfl⟩ := exists_digitChar hc
  interval_cases n <;> rfl

/-- A number is read with its sign, and what cannot go on with it is left. -/
theorem readNode?_numeral (n : Numeral) {rest : Text} (hrest : EndsNumber rest) (fuel : Nat) :
    readNode? (fuel + 1) (n.text ++ rest) = some (.number n.parts.value?, rest) := by
  have hread := n.readNumber?_magnitude hrest
  rw [Numeral.text]
  cases hneg : n.parts.negative with
  | true =>
      rw [hneg] at hread
      show (readNumber? true (n.magnitude ++ rest)).map _ = _
      rw [hread]
      rfl
  | false =>
      rw [hneg] at hread
      obtain ⟨c, u, hcons, hc⟩ := n.exists_magnitude
      rw [hcons, List.cons_append] at hread
      rw [if_neg Bool.false_ne_true, hcons, List.cons_append, readNode?_digit fuel hc, hread]
      rfl

/-- A number is read from its parts, sign included. -/
theorem readNode?_number {p : NumberParts} (h : p.WellFormed) {rest : Text} (hrest : Ends rest)
    (fuel : Nat) :
    readNode? (fuel + 1) ((if p.negative then '-' :: p.text else p.text) ++ rest) =
      some (.number p.value?, rest) := by
  have hread := readNode?_numeral h.numeral hrest.endsNumber fuel
  rw [Numeral.text, h.magnitude_numeral] at hread
  exact hread

/-- The value read from a written number: whole numbers stay, doubles are read anew. -/
def Number.again : Number → Json
  | .int i => .number (.int i)
  | .float bits => ((readWritten? (renderDouble bits)).bind (Written.value? 0)).getD .null

/-- A whole number is written as its digits. -/
theorem text_wholeParts (negative : Bool) (n : Nat) :
    (wholeParts negative n).text = Text.ofNat n := by
  simp [wholeParts, NumberParts.text, fractionText, exponentText]

theorem ends_nil : Ends [] := fun _ h => nomatch h

/-- A double is written as a number that is read, though not always as the same double. -/
theorem Number.again_float (bits : UInt64) :
    (∀ d, Lawful d (Number.float bits).again) ∧ ∀ fuel {rest : Text}, Ends rest →
      readNode? (fuel + 1) (renderDouble bits ++ rest) =
        some ((Number.float bits).again.toWritten, rest) := by
  rcases renderDouble_cases bits with hnull | ⟨negative, t, ⟨p, rfl, hwf, rfl, hsome⟩, htext⟩
  · have hagain : (Number.float bits).again = .null := by
      rw [Number.again, hnull]
      rfl
    rw [hagain]
    refine ⟨fun _ => .null, ?_⟩
    intro fuel rest _
    rw [hnull]
    rfl
  · obtain ⟨n, hn⟩ := Option.isSome_iff_exists.1 hsome
    have hread : ∀ fuel {rest : Text}, Ends rest →
        readNode? (fuel + 1) (renderDouble bits ++ rest) = some (.number (some n), rest) := by
      intro fuel rest hrest
      rw [htext, readNode?_number hwf hrest, hn]
    have hagain : (Number.float bits).again = .number n := by
      have hwhole := hread (renderDouble bits).length ends_nil
      rw [List.append_nil] at hwhole
      rw [Number.again, readWritten?, hwhole]
      rfl
    rw [hagain]
    exact ⟨fun _ => .number (NumberParts.inRange_value? hn), hread⟩

/-- A number in range is read as one in range. -/
theorem Number.InRange.lawful_again {n : Number} (h : n.InRange) (d : Nat) : Lawful d n.again := by
  cases n with
  | int i => exact .number h
  | float bits => exact (Number.again_float bits).1 d

/-- A number in range is read as it was written. -/
theorem readNode?_render {n : Number} (h : n.InRange) {rest : Text} (hrest : Ends rest)
    (fuel : Nat) : readNode? (fuel + 1) (n.render ++ rest) = some (n.again.toWritten, rest) := by
  cases n with
  | float bits => exact (Number.again_float bits).2 fuel hrest
  | int i =>
      obtain ⟨hlow, hhigh⟩ := h
      cases i with
      | ofNat n =>
          have hread := readNode?_number (wellFormed_wholeParts false n) hrest fuel
          have hn : n < 2 ^ 64 := by
            rw [Int.ofNat_eq_natCast] at hhigh
            omega
          rw [value?_wholeParts_false hn, text_wholeParts] at hread
          exact hread
      | negSucc n =>
          have hread := readNode?_number (wellFormed_wholeParts true (n + 1)) hrest fuel
          rw [value?_wholeParts_true (Nat.succ_pos n) (by omega), text_wholeParts] at hread
          exact hread

/-! ## Documents -/

mutual

/-- The value read from a written value. -/
def again : Json → Json
  | .null => .null
  | .bool b => .bool b
  | .number n => n.again
  | .string s => .string s
  | .array items => .array (againItems items)
  | .object fields => .object (againFields fields)

/-- The items read from a written array. -/
def againItems : List Json → List Json
  | [] => []
  | v :: rest => again v :: againItems rest

/-- The fields read from a written object. -/
def againFields : List (Text × Json) → List (Text × Json)
  | [] => []
  | (k, v) :: rest => (k, again v) :: againFields rest

end

theorem againItems_eq (items : List Json) : againItems items = items.map again := by
  induction items with
  | nil => rfl
  | cons v items ih => rw [againItems, ih, List.map_cons]

theorem againFields_eq (fields : List (Text × Json)) :
    againFields fields = fields.map fun f => (f.1, f.2.again) := by
  induction fields with
  | nil => rfl
  | cons f fields ih => rw [againFields, ih, List.map_cons]

/-- Reading anew changes no key, so the fields stay in order. -/
theorem Ordered.againFields {fields : List (Text × Json)} (h : Ordered fields) :
    Ordered (againFields fields) := by
  rw [againFields_eq]
  exact List.pairwise_map.2 h

/-- What is read from a lawful value is lawful. -/
theorem Lawful.again {depth : Nat} {v : Json} (h : Lawful depth v) : Lawful depth v.again := by
  induction h with
  | null => exact .null
  | bool b => exact .bool b
  | number h => exact h.lawful_again _
  | string s => exact .string s
  | @array d items _ ih =>
      rw [Json.again, againItems_eq]
      refine .array fun v hv => ?_
      obtain ⟨u, hu, rfl⟩ := List.mem_map.1 hv
      exact ih u hu
  | @object d fields _ hord ih =>
      rw [Json.again]
      refine .object (fun f hf => ?_) hord.againFields
      rw [againFields_eq] at hf
      obtain ⟨g, hg, rfl⟩ := List.mem_map.1 hf
      exact ih g hg

/-- Blanks are skipped all at once. -/
theorem skipSpace_skipSpace (t : Text) : skipSpace (skipSpace t) = skipSpace t :=
  List.dropWhile_idempotent ..

/-- Blanks in front of a value are skipped. -/
theorem readNode?_skipSpace (fuel : Nat) (t : Text) :
    readNode? fuel (skipSpace t) = readNode? fuel t := by
  cases fuel with
  | zero => rfl
  | succ fuel => rw [readNode?, readNode?, skipSpace_skipSpace]

/-- Blanks in front of an item are skipped. -/
theorem readItems?_skipSpace (fuel : Nat) (t : Text) :
    readItems? fuel (skipSpace t) = readItems? fuel t := by
  cases fuel with
  | zero => rfl
  | succ fuel => rw [readItems?, readItems?, readNode?_skipSpace]

/-- No item begins with a closing bracket. -/
theorem readItems?_bracket (fuel : Nat) (t : Text) : readItems? fuel (']' :: t) = none := by
  cases fuel with
  | zero => rfl
  | succ fuel =>
      cases fuel with
      | zero => rfl
      | succ fuel => rfl

/-- Behind an opening bracket there are items, or the closing one at once. -/
theorem readNode?_bracket (fuel : Nat) (t : Text) :
    readNode? (fuel + 1) ('[' :: t) =
      match skipSpace t with
      | ']' :: rest => some (.array [], rest)
      | rest => (readItems? fuel rest).map fun (items, rest) => (.array items, rest) := rfl

/-- Items that are read are the array. -/
theorem readNode?_items {fuel : Nat} {t rest : Text} {items : List Written}
    (h : readItems? fuel t = some (items, rest)) :
    readNode? (fuel + 1) ('[' :: t) = some (.array items, rest) := by
  rw [readNode?_bracket]
  split
  · next heq =>
      rw [← readItems?_skipSpace, heq, readItems?_bracket] at h
      cases h
  · rw [readItems?_skipSpace, h]
    rfl

/-- A closing bracket behind an item ends the items. -/
theorem readItems?_last {fuel : Nat} {t u rest : Text} {w : Written}
    (h : readNode? fuel t = some (w, u)) (hu : skipSpace u = ']' :: rest) :
    readItems? (fuel + 1) t = some ([w], rest) := by
  rw [readItems?, h]
  simp only [hu]

/-- Behind a comma the items go on. -/
theorem readItems?_more {fuel : Nat} {t u v rest : Text} {w : Written} {ws : List Written}
    (h : readNode? fuel t = some (w, u)) (hu : skipSpace u = ',' :: v)
    (hmore : readItems? fuel v = some (ws, rest)) :
    readItems? (fuel + 1) t = some (w :: ws, rest) := by
  rw [readItems?, h]
  simp only [hu, hmore]
  rfl

/-- Blanks in front of a field are skipped. -/
theorem readFields?_skipSpace (fuel : Nat) (t : Text) :
    readFields? fuel (skipSpace t) = readFields? fuel t := by
  cases fuel with
  | zero => rfl
  | succ fuel => rw [readFields?, readFields?, skipSpace_skipSpace]

/-- No field begins with a closing brace. -/
theorem readFields?_brace (fuel : Nat) (t : Text) : readFields? fuel ('\x7d' :: t) = none := by
  cases fuel with
  | zero => rfl
  | succ fuel => rfl

/-- Behind an opening brace there are fields, or the closing one at once. -/
theorem readNode?_brace (fuel : Nat) (t : Text) :
    readNode? (fuel + 1) ('\x7b' :: t) =
      match skipSpace t with
      | '\x7d' :: rest => some (.object [], rest)
      | rest => (readFields? fuel rest).map fun (fields, rest) => (.object fields, rest) := rfl

/-- Fields that are read are the object. -/
theorem readNode?_fields {fuel : Nat} {t rest : Text} {fields : List (Option Text × Written)}
    (h : readFields? fuel t = some (fields, rest)) :
    readNode? (fuel + 1) ('\x7b' :: t) = some (.object fields, rest) := by
  rw [readNode?_brace]
  split
  · next heq =>
      rw [← readFields?_skipSpace, heq, readFields?_brace] at h
      cases h
  · rw [readFields?_skipSpace, h]
    rfl

theorem quote_append (k u : Text) : quote k ++ u = '"' :: (k.flatMap escapeChar ++ '"' :: u) := by
  simp [quote]

/-- A key in quotes starts a field. -/
theorem skipSpace_quote (k t : Text) :
    skipSpace (quote k ++ t) = '"' :: (k.flatMap escapeChar ++ '"' :: t) := by
  rw [quote_append]
  rfl

section

variable {fuel : Nat} {t s u v x rest : Text} {key : Option Text} {w : Written}
  (hquote : skipSpace t = '"' :: s) (hkey : readString? s = some (key, u))
  (hcolon : skipSpace u = ':' :: v) (h : readNode? fuel v = some (w, x))

include hquote hkey hcolon h

/-- A key, a colon and a value are a field; a closing brace behind it ends the fields. -/
theorem readFields?_last (hclose : skipSpace x = '\x7d' :: rest) :
    readFields? (fuel + 1) t = some ([(key, w)], rest) := by
  simp only [readFields?, hquote, hkey, hcolon, h, hclose]

/-- Behind a comma the fields go on. -/
theorem readFields?_more {y : Text} {fields : List (Option Text × Written)} (hcomma : skipSpace x = ',' :: y)
    (hmore : readFields? fuel y = some (fields, rest)) :
    readFields? (fuel + 1) t = some ((key, w) :: fields, rest) := by
  simp only [readFields?, hquote, hkey, hcolon, h, hcomma, hmore, Option.map_some]

end

theorem ends_comma (t : Text) : Ends (',' :: t) := by
  intro c hc
  cases hc
  exact Or.inl rfl

theorem ends_bracket (t : Text) : Ends (']' :: t) := by
  intro c hc
  cases hc
  exact Or.inr (Or.inl rfl)

theorem ends_brace (t : Text) : Ends ('\x7d' :: t) := by
  intro c hc
  cases hc
  exact Or.inr (Or.inr rfl)

/-- A value is read as it was written, with enough fuel and something after it that ends it. -/
def ReadsBack (v : Json) : Prop :=
  ∀ fuel (rest : Text), (compact v).length < fuel → Ends rest →
    readNode? fuel (compact v ++ rest) = some (v.again.toWritten, rest)

/-- Written items are read back, if each of them is. -/
theorem readItems?_compact {items : List Json} (hne : items ≠ []) (h : ∀ v ∈ items, ReadsBack v)
    {fuel : Nat} (hfuel : (compactItems items).length + 1 < fuel) (rest : Text) :
    readItems? fuel (compactItems items ++ ']' :: rest) =
      some (itemsToWritten (againItems items), rest) := by
  induction items generalizing fuel with
  | nil => exact absurd rfl hne
  | cons v items ih =>
      obtain ⟨fuel, rfl⟩ : ∃ f, fuel = f + 1 := ⟨fuel - 1, by omega⟩
      have hv := h v (List.mem_cons_self ..)
      cases items with
      | nil =>
          rw [compactItems] at hfuel ⊢
          exact readItems?_last (hv fuel _ (by omega) (ends_bracket rest)) rfl
      | cons w items =>
          rw [compactItems, List.length_append, List.length_cons] at hfuel
          have hmore := ih (List.cons_ne_nil _ _) (fun u hu => h u (List.mem_cons_of_mem _ hu))
            (show (compactItems (w :: items)).length + 1 < fuel by omega)
          rw [compactItems, List.append_assoc, List.cons_append]
          exact readItems?_more (hv fuel _ (by omega) (ends_comma _)) rfl hmore

/-- Written fields are read back, if each of their values is. -/
theorem readFields?_compact {fields : List (Text × Json)} (hne : fields ≠ [])
    (h : ∀ f ∈ fields, ReadsBack f.2) {fuel : Nat}
    (hfuel : (compactFields fields).length + 1 < fuel) (rest : Text) :
    readFields? fuel (compactFields fields ++ '\x7d' :: rest) =
      some (fieldsToWritten (againFields fields), rest) := by
  induction fields generalizing fuel with
  | nil => exact absurd rfl hne
  | cons f fields ih =>
      obtain ⟨k, v⟩ := f
      obtain ⟨fuel, rfl⟩ : ∃ f, fuel = f + 1 := ⟨fuel - 1, by omega⟩
      have hv : ReadsBack v := h (k, v) (List.mem_cons_self ..)
      cases fields with
      | nil =>
          rw [compactFields, List.length_append, List.length_cons] at hfuel
          rw [compactFields, List.append_assoc, List.cons_append]
          exact readFields?_last (skipSpace_quote k _) (readString?_quote k _) rfl
            (hv fuel _ (by omega) (ends_brace rest)) rfl
      | cons g fields =>
          rw [compactFields, List.append_assoc, List.length_append, List.length_append,
            List.length_cons, List.length_cons] at hfuel
          have hmore := ih (List.cons_ne_nil _ _) (fun u hu => h u (List.mem_cons_of_mem _ hu))
            (show (compactFields (g :: fields)).length + 1 < fuel by omega)
          rw [compactFields, List.append_assoc, List.append_assoc, List.cons_append,
            List.cons_append]
          exact readFields?_more (skipSpace_quote k _) (readString?_quote k _) rfl
            (hv fuel _ (by omega) (ends_comma _)) rfl hmore

/-- An array is read back if its items are. -/
theorem ReadsBack.array {items : List Json} (h : ∀ v ∈ items, ReadsBack v) :
    ReadsBack (.array items) := by
  intro fuel rest hfuel _
  obtain ⟨fuel, rfl⟩ : ∃ f, fuel = f + 1 := ⟨fuel - 1, by omega⟩
  have hlength : (compact (.array items)).length = (compactItems items).length + 2 := by
    simp [compact]
  have htext : compact (.array items) ++ rest = '[' :: (compactItems items ++ ']' :: rest) := by
    simp [compact]
  rw [htext]
  cases items with
  | nil => rfl
  | cons v items =>
      exact readNode?_items (readItems?_compact (List.cons_ne_nil _ _) h (by omega) rest)

/-- The fields of an object need not be in order to be read back. -/
theorem ReadsBack.object {fields : List (Text × Json)} (h : ∀ f ∈ fields, ReadsBack f.2) :
    ReadsBack (.object fields) := by
  intro fuel rest hfuel _
  obtain ⟨fuel, rfl⟩ : ∃ f, fuel = f + 1 := ⟨fuel - 1, by omega⟩
  have hlength : (compact (.object fields)).length = (compactFields fields).length + 2 := by
    simp [compact]
  have htext : compact (.object fields) ++ rest =
      '\x7b' :: (compactFields fields ++ '\x7d' :: rest) := by
    simp [compact]
  rw [htext]
  cases fields with
  | nil => rfl
  | cons f fields =>
      exact readNode?_fields (readFields?_compact (List.cons_ne_nil _ _) h (by omega) rest)

/-- **Reading undoes writing.**  A lawful value is read back from its text, with whatever may follow
    it, except that doubles are read anew. -/
theorem Lawful.readsBack {depth : Nat} {v : Json} (h : Lawful depth v) : ReadsBack v := by
  induction h with
  | null =>
      intro fuel rest hfuel _
      obtain ⟨fuel, rfl⟩ : ∃ f, fuel = f + 1 := ⟨fuel - 1, by omega⟩
      rfl
  | bool b =>
      intro fuel rest hfuel _
      obtain ⟨fuel, rfl⟩ : ∃ f, fuel = f + 1 := ⟨fuel - 1, by omega⟩
      cases b <;> rfl
  | number h =>
      intro fuel rest hfuel hrest
      obtain ⟨fuel, rfl⟩ : ∃ f, fuel = f + 1 := ⟨fuel - 1, by omega⟩
      exact readNode?_render h hrest fuel
  | string s =>
      intro fuel rest hfuel _
      obtain ⟨fuel, rfl⟩ : ∃ f, fuel = f + 1 := ⟨fuel - 1, by omega⟩
      rw [compact, quote_append]
      show (readString? (s.flatMap escapeChar ++ '"' :: rest)).map _ = _
      rw [readString?_quote]
      rfl
  | array _ ih => exact .array ih
  | object _ _ ih => exact .object ih

/-- The document of a value that is read back, from the whole text. -/
theorem ReadsBack.readWritten? {v : Json} (h : ReadsBack v) :
    readWritten? (compact v) = some v.again.toWritten := by
  have hread := h _ [] (Nat.lt_succ_self _) ends_nil
  rw [List.append_nil] at hread
  rw [Json.readWritten?, hread]
  rfl

/-! ## Whole numbers -/

/-- A number that is written as an integer of 64 bits.  One of these is a double, the zero of `-0`. -/
def Number.isWhole : Number → Bool
  | .int _ => true
  | .float bits => bits == 0x8000000000000000

/-- A whole number comes back as it was. -/
theorem Number.again_of_isWhole {n : Number} (h : n.isWhole = true) : n.again = .number n := by
  cases n with
  | int i => rfl
  | float bits =>
      obtain rfl : bits = 0x8000000000000000 := beq_iff_eq.1 h
      rfl

namespace Written

mutual

/-- All numbers of a document are integers of 64 bits. -/
def isWhole : Written → Bool
  | .null => true
  | .bool _ => true
  | .number n => n.any Number.isWhole
  | .string _ => true
  | .array items => itemsWhole items
  | .object fields => fieldsWhole fields

/-- All numbers of the items of an array are integers of 64 bits. -/
def itemsWhole : List Written → Bool
  | [] => true
  | w :: rest => isWhole w && itemsWhole rest

/-- All numbers of the fields of an object are integers of 64 bits. -/
def fieldsWhole : List (Option Text × Written) → Bool
  | [] => true
  | (_, w) :: rest => isWhole w && fieldsWhole rest

end

mutual

/-- A value whose numbers are whole is read back as itself. -/
theorem again_of_isWhole (w : Written) {depth : Nat} {v : Json} (hw : w.isWhole = true)
    (hv : value? depth w = some v) : v.again = v := by
  cases w with
  | null =>
      cases hv
      rfl
  | bool b =>
      cases hv
      rfl
  | number n =>
      obtain ⟨m, rfl, rfl⟩ := Option.map_eq_some_iff.1 hv
      exact Number.again_of_isWhole hw
  | string s =>
      obtain ⟨t, rfl, rfl⟩ := Option.map_eq_some_iff.1 hv
      rfl
  | array items =>
      cases depth with
      | zero => cases hv
      | succ d =>
          obtain ⟨vs, hvs, rfl⟩ := Option.map_eq_some_iff.1 hv
          rw [again, againItems_eq, List.map_congr_left (again_of_itemsWhole items hw hvs),
            List.map_id']
  | object fields =>
      cases depth with
      | zero => cases hv
      | succ d =>
          obtain ⟨vs, hvs, rfl⟩ := Option.map_eq_some_iff.1 hv
          have hsorted : ∀ f ∈ sortFields vs, (f.1, f.2.again) = f := by
            intro f hf
            rw [again_of_fieldsWhole fields hw hvs f (mem_sortFields hf)]
          rw [ofFields, again, againFields_eq, List.map_congr_left hsorted, List.map_id']

theorem again_of_itemsWhole (items : List Written) {depth : Nat} {vs : List Json}
    (hw : itemsWhole items = true) (hvs : values? depth items = some vs) : ∀ v ∈ vs, v.again = v := by
  cases items with
  | nil =>
      cases hvs
      simp
  | cons w items =>
      obtain ⟨hw, hitems⟩ := Bool.and_eq_true_iff.1 hw
      obtain ⟨v, hv, hvs⟩ := Option.bind_eq_some_iff.1 hvs
      obtain ⟨us, hus, hvs⟩ := Option.bind_eq_some_iff.1 hvs
      cases hvs
      exact List.forall_mem_cons.2 ⟨again_of_isWhole w hw hv, again_of_itemsWhole items hitems hus⟩

theorem again_of_fieldsWhole (fields : List (Option Text × Written)) {depth : Nat}
    {vs : List (Text × Json)} (hw : fieldsWhole fields = true) (hvs : fields? depth fields = some vs) :
    ∀ f ∈ vs, f.2.again = f.2 := by
  cases fields with
  | nil =>
      cases hvs
      simp
  | cons f fields =>
      obtain ⟨hw, hfields⟩ := Bool.and_eq_true_iff.1 hw
      obtain ⟨k, -, hvs⟩ := Option.bind_eq_some_iff.1 hvs
      obtain ⟨v, hv, hvs⟩ := Option.bind_eq_some_iff.1 hvs
      obtain ⟨us, hus, hvs⟩ := Option.bind_eq_some_iff.1 hvs
      cases hvs
      exact List.forall_mem_cons.2
        ⟨again_of_isWhole f.2 hw hv, again_of_fieldsWhole fields hfields hus⟩

end

theorem fieldsWhole_eq_all (fields : List (Option Text × Written)) :
    fieldsWhole fields = fields.all fun f => f.2.isWhole := by
  induction fields with
  | nil => rfl
  | cons f fields ih => rw [fieldsWhole, ih, List.all_cons]

end Written

/-- All numbers of the text are integers of 64 bits. -/
def wholeNumbers (t : Text) : Bool := (readWritten? t).any Written.isWhole

end Typings.Json
