import Typings.Proofs.Json.RoundTrip

/-!
# `Grammar` — documents as they may be written

A document is written as tokens in a row with blanks between them.  Its literals can be spelled in
many ways, and a writer who is allowed to may leave a comma in front of a closing bracket or brace.
The reader reads all these spellings and no such comma.

* `StringPart`, `Literal`, `Token`: what a document is made of, as it is written.
* `Node`: a document with the spelling of its literals and with its trailing commas; `Node.tokens`,
  `Node.plain`, `Node.written`: its tokens, itself without trailing commas, and what it says.
* `Spaced`: the texts of a row of tokens.
* `Node.readWritten?_of_spaced`: a node without trailing commas is read as what it says.
* `ReadAt`, `readAt`: whatever is read is a node.
* `readWritten?_eq_some_iff`: both together, the documents that are read and their texts.
-/

namespace Typings.Json

/-! ## Literals -/

/-- A text that is read as a number is made of digits. -/
theorem isSome_digitValue?_of_foldlM {base : Nat} {t : Text} {n m : Nat}
    (h : t.foldlM (fun n c => (Text.digitValue? base c).map (n * base + ·)) n = some m) :
    ∀ c ∈ t, (Text.digitValue? base c).isSome = true := by
  induction t generalizing n with
  | nil => exact fun _ hc => nomatch hc
  | cons c t ih =>
      rw [List.foldlM_cons] at h
      obtain ⟨k, hk, h⟩ := Option.bind_eq_some_iff.1 h
      obtain ⟨d, hd, -⟩ := Option.map_eq_some_iff.1 hk
      exact List.forall_mem_cons.2 ⟨Option.isSome_of_eq_some hd, ih h⟩

/-- Neither a quote nor a backslash is a hexadecimal digit. -/
theorem ne_of_hexUnit? {a b c d : Char} {n : Nat} (h : hexUnit? a b c d = some n) :
    ∀ x ∈ [a, b, c, d], x ≠ '"' ∧ x ≠ '\\' := by
  intro x hx
  have hsome := isSome_digitValue?_of_foldlM h x hx
  constructor
  · rintro rfl
    cases hsome
  · rintro rfl
    cases hsome

/-- A part of a string as it is written: a character that stands for itself, an escape of one letter
    and the character it stands for, or four hexadecimal digits and the unit they stand for. -/
inductive StringPart where
  | char (c : Char) (h : c ≠ '"' ∧ c ≠ '\\' ∧ 0x20 ≤ c.toNat)
  | escape (e c : Char) (h : simpleEscape? e = some c)
  | code (a b c d : Char) (n : Nat) (h : hexUnit? a b c d = some n)

namespace StringPart

/-- The part as it is written. -/
def text : StringPart → Text
  | char c _ => [c]
  | escape e _ _ => ['\\', e]
  | code a b c d _ _ => ['\\', 'u', a, b, c, d]

/-- What the part stands for. -/
def unit : StringPart → StringUnit
  | char c _ => .char c
  | escape _ c _ => .char c
  | code _ _ _ _ n _ => .unit n

/-- A part of a string is read as its unit, whatever follows it. -/
theorem readUnits?_text (p : StringPart) (t : Text) :
    readUnits? (p.text ++ t) = (readUnits? t).map fun (units, rest) => (p.unit :: units, rest) := by
  cases p with
  | char c h =>
      obtain ⟨hquote, hslash, hlow⟩ := h
      show readUnits? (c :: t) = _
      rw [readUnits?]
      · simp [Nat.not_lt.2 hlow, hslash, unit]
      · exact hquote
      · intro _ _ _ _ _ heq
        exact absurd heq hslash
      · intro _ _ heq
        exact absurd heq hslash
  | escape e c h =>
      show readUnits? ('\\' :: e :: t) = _
      rw [readUnits?, h]
      · cases readUnits? t <;> rfl
      · rintro _ _ _ _ _ rfl
        cases h
  | code a b c d n h =>
      show readUnits? ('\\' :: 'u' :: a :: b :: c :: d :: t) = _
      rw [readUnits?, h]
      cases readUnits? t <;> rfl

/-- Parts up to a quote are read as their units. -/
theorem readUnits?_parts (s : List StringPart) (rest : Text) :
    readUnits? (s.flatMap text ++ '"' :: rest) = some (s.map unit, rest) := by
  induction s with
  | nil =>
      show readUnits? ('"' :: rest) = _
      rw [readUnits?]
      rfl
  | cons p s ih =>
      rw [List.flatMap_cons, List.append_assoc, readUnits?_text, ih]
      rfl

end StringPart

/-- What is read as a string is parts and a quote. -/
theorem exists_parts {t rest : Text} {units : List StringUnit}
    (h : readUnits? t = some (units, rest)) :
    ∃ s : List StringPart, t = s.flatMap StringPart.text ++ '"' :: rest ∧
      s.map StringPart.unit = units := by
  fun_induction readUnits? t generalizing units rest with
  | case1 =>
      cases h
      exact ⟨[], rfl, rfl⟩
  | case2 a b c d t n us u hread hunit ih =>
      cases h
      obtain ⟨s, rfl, rfl⟩ := ih hread
      exact ⟨.code a b c d n hunit :: s, rfl, rfl⟩
  | case4 e t _ c us u hread hescape ih =>
      cases h
      obtain ⟨s, rfl, rfl⟩ := ih hread
      exact ⟨.escape e c hescape :: s, rfl, rfl⟩
  | case7 c t hquote _ _ hplain ih =>
      obtain ⟨⟨us, u⟩, hread, hr⟩ := Option.map_eq_some_iff.1 h
      cases hr
      obtain ⟨s, rfl, rfl⟩ := ih hread
      obtain ⟨hlow, hslash⟩ : 0x20 ≤ c.toNat ∧ c ≠ '\\' := by simpa using hplain
      exact ⟨.char c ⟨hquote, hslash, hlow⟩ :: s, rfl, rfl⟩
  | case3 => cases h
  | case5 => cases h
  | case6 => cases h
  | case8 => cases h

/-- A value without other values in it, as it is written. -/
inductive Literal where
  | null
  | bool (b : Bool)
  | number (n : Numeral)
  | string (s : List StringPart)

namespace Literal

/-- The literal as it is written. -/
def text : Literal → Text
  | null => "null"
  | bool b => if b then "true" else "false"
  | number n => n.text
  | string s => '"' :: s.flatMap StringPart.text ++ ['"']

/-- What the literal says. -/
def written : Literal → Written
  | null => .null
  | bool b => .bool b
  | number n => .number n.parts.value?
  | string s => .string (joinUnits? (s.map StringPart.unit))

end Literal

/-- Parts up to a quote are read as the characters that their units make. -/
theorem readString?_parts (s : List StringPart) (rest : Text) :
    readString? (s.flatMap StringPart.text ++ '"' :: rest) =
      some (joinUnits? (s.map StringPart.unit), rest) := by
  rw [readString?, StringPart.readUnits?_parts]
  rfl

theorem Literal.text_string (s : List StringPart) (rest : Text) :
    (Literal.string s).text ++ rest = '"' :: (s.flatMap StringPart.text ++ '"' :: rest) := by
  simp [Literal.text]

/-- A literal is read as what it says. -/
theorem Literal.readNode?_text (l : Literal) {rest : Text} (hrest : EndsNumber rest) (fuel : Nat) :
    readNode? (fuel + 1) (l.text ++ rest) = some (l.written, rest) := by
  cases l with
  | null => rfl
  | bool b => cases b <;> rfl
  | number n => exact readNode?_numeral n hrest fuel
  | string s =>
      rw [text_string]
      show (readString? _).map _ = _
      rw [readString?_parts]
      rfl

/-! ## Tokens -/

/-- The marks and literals that a document is made of. -/
inductive Token where
  | openBracket
  | closeBracket
  | openBrace
  | closeBrace
  | colon
  | comma
  | literal (l : Literal)

namespace Token

/-- The token as it is written. -/
def text : Token → Text
  | openBracket => ['[']
  | closeBracket => [']']
  | openBrace => ['\x7b']
  | closeBrace => ['\x7d']
  | colon => [':']
  | comma => [',']
  | literal l => l.text

/-- A closing bracket or brace. -/
def closes : Token → Bool
  | closeBracket => true
  | closeBrace => true
  | _ => false

/-- What may stand behind a value. -/
def ends : Token → Bool
  | comma => true
  | t => t.closes

end Token

/-- A token begins with what is neither blank nor a slash, and only a closing one with what closes. -/
structure Token.Begins (t : Token) (c : Char) : Prop where
  blank : Text.isBlank c = false
  slash : c ≠ '/'
  closes : (c == '\x7d' || c == ']') = t.closes

/-- A number starts with a digit or with its sign. -/
theorem Numeral.exists_text (n : Numeral) :
    ∃ c u, n.text = c :: u ∧ (c.isDigit = true ∨ c = '-') := by
  rw [text]
  split
  · exact ⟨_, _, rfl, Or.inr rfl⟩
  · obtain ⟨c, u, hcons, hc⟩ := n.exists_magnitude
    exact ⟨c, u, hcons, Or.inl hc⟩

/-- Every token has a character that it begins with. -/
theorem Token.exists_text (t : Token) : ∃ c u, t.text = c :: u ∧ t.Begins c := by
  have begins : ∀ {t : Token} {c u}, t.text = c :: u → Text.isBlank c = false → c ≠ '/' →
      (c == '\x7d' || c == ']') = t.closes → ∃ c u, t.text = c :: u ∧ t.Begins c :=
    fun htext hblank hslash hcloses => ⟨_, _, htext, hblank, hslash, hcloses⟩
  cases t with
  | openBracket => exact begins rfl (by decide) (by decide) rfl
  | closeBracket => exact begins rfl (by decide) (by decide) rfl
  | openBrace => exact begins rfl (by decide) (by decide) rfl
  | closeBrace => exact begins rfl (by decide) (by decide) rfl
  | colon => exact begins rfl (by decide) (by decide) rfl
  | comma => exact begins rfl (by decide) (by decide) rfl
  | literal l =>
      cases l with
      | null => exact begins rfl (by decide) (by decide) rfl
      | bool b => cases b <;> exact begins rfl (by decide) (by decide) rfl
      | string s => exact begins rfl (by decide) (by decide) rfl
      | number n =>
          obtain ⟨c, u, htext, hc⟩ := n.exists_text
          rcases hc with hdigit | rfl
          · obtain ⟨m, hm, rfl⟩ := exists_digitChar hdigit
            refine ⟨_, u, htext, ?_⟩
            interval_cases m <;> exact ⟨by decide, by decide, rfl⟩
          · exact ⟨_, u, htext, by decide, by decide, rfl⟩

/-- A document with the way its literals are written, and with a comma or none in front of each
    closing bracket and brace. -/
inductive Node where
  | leaf (l : Literal)
  | array (items : List Node) (trailing : Bool)
  | object (fields : List (List StringPart × Node)) (trailing : Bool)

/-- A comma that may stand behind the last item or field. -/
def trailingComma (trailing : Bool) : List Token := if trailing then [.comma] else []

mutual

/-- The tokens of a document. -/
def Node.tokens : Node → List Token
  | .leaf l => [.literal l]
  | .array items trailing =>
    .openBracket :: (itemTokens items ++ (trailingComma trailing ++ [.closeBracket]))
  | .object fields trailing =>
    .openBrace :: (fieldTokens fields ++ (trailingComma trailing ++ [.closeBrace]))

/-- The tokens of items, with commas between them. -/
def itemTokens : List Node → List Token
  | [] => []
  | [n] => n.tokens
  | n :: m :: rest => n.tokens ++ .comma :: itemTokens (m :: rest)

/-- The tokens of fields, with commas between them. -/
def fieldTokens : List (List StringPart × Node) → List Token
  | [] => []
  | [(k, n)] => .literal (.string k) :: .colon :: n.tokens
  | (k, n) :: f :: rest =>
    .literal (.string k) :: .colon :: (n.tokens ++ .comma :: fieldTokens (f :: rest))

end

mutual

/-- The document without trailing commas. -/
def Node.plain : Node → Node
  | .leaf l => .leaf l
  | .array items _ => .array (plainItems items) false
  | .object fields _ => .object (plainFields fields) false

/-- The items without trailing commas in them. -/
def plainItems : List Node → List Node
  | [] => []
  | n :: rest => n.plain :: plainItems rest

/-- The fields without trailing commas in them. -/
def plainFields : List (List StringPart × Node) → List (List StringPart × Node)
  | [] => []
  | (k, n) :: rest => (k, n.plain) :: plainFields rest

end

mutual

/-- What the document says. -/
def Node.written : Node → Written
  | .leaf l => l.written
  | .array items _ => .array (writtenItems items)
  | .object fields _ => .object (writtenFields fields)

/-- What the items say. -/
def writtenItems : List Node → List Written
  | [] => []
  | n :: rest => n.written :: writtenItems rest

/-- What the fields say. -/
def writtenFields : List (List StringPart × Node) → List (Option Text × Written)
  | [] => []
  | (k, n) :: rest => (joinUnits? (k.map StringPart.unit), n.written) :: writtenFields rest

end

mutual

/-- Making a document plain twice changes no more than once. -/
theorem Node.plain_plain (n : Node) : n.plain.plain = n.plain := by
  cases n with
  | leaf l => rfl
  | array items trailing => rw [Node.plain, Node.plain, plainItems_plainItems items]
  | object fields trailing => rw [Node.plain, Node.plain, plainFields_plainFields fields]

theorem plainItems_plainItems (items : List Node) :
    plainItems (plainItems items) = plainItems items := by
  cases items with
  | nil => rfl
  | cons n rest => rw [plainItems, plainItems, n.plain_plain, plainItems_plainItems rest]

theorem plainFields_plainFields (fields : List (List StringPart × Node)) :
    plainFields (plainFields fields) = plainFields fields := by
  cases fields with
  | nil => rfl
  | cons f rest =>
      obtain ⟨k, n⟩ := f
      rw [plainFields, plainFields, n.plain_plain, plainFields_plainFields rest]

end

theorem itemTokens_plain (n m : Node) (rest : List Node) :
    itemTokens (plainItems (n :: m :: rest)) =
      n.plain.tokens ++ .comma :: itemTokens (plainItems (m :: rest)) := rfl

theorem fieldTokens_plain (k : List StringPart) (n : Node) (f : List StringPart × Node)
    (rest : List (List StringPart × Node)) :
    fieldTokens (plainFields ((k, n) :: f :: rest)) =
      .literal (.string k) :: .colon ::
        (n.plain.tokens ++ .comma :: fieldTokens (plainFields (f :: rest))) := rfl

/-! ## Texts -/

/-- The text is the tokens with blanks only between them. -/
inductive Spaced : List Token → Text → Prop
  | nil : Spaced [] []
  | blank {ts : List Token} {u : Text} {c : Char} (hc : isSpace c = true) (h : Spaced ts u) :
      Spaced ts (c :: u)
  | token {ts : List Token} {u : Text} (t : Token) (h : Spaced ts u) :
      Spaced (t :: ts) (t.text ++ u)

/-- Tokens with blanks between them, behind others, are tokens with blanks between them. -/
theorem Spaced.append {ts us : List Token} {t u : Text} (ht : Spaced ts t) (hu : Spaced us u) :
    Spaced (ts ++ us) (t ++ u) := by
  induction ht with
  | nil => exact hu
  | blank hc _ ih => exact .blank hc ih
  | token t _ ih =>
      rw [List.append_assoc]
      exact .token t ih

/-- The space between tokens is blank. -/
theorem isBlank_of_isSpace {c : Char} (h : isSpace c = true) : Text.isBlank c = true := by
  simp only [isSpace, Bool.or_eq_true, beq_iff_eq] at h
  rcases h with ((rfl | rfl) | rfl) | rfl <;> decide

/-- No token begins with a blank. -/
theorem Token.Begins.not_isSpace {t : Token} {c : Char} (h : t.Begins c) : ¬ isSpace c = true := by
  intro hc
  have hblank := h.blank
  rw [isBlank_of_isSpace hc] at hblank
  cases hblank

/-- Behind its blanks a text is its first token and a text of the others. -/
theorem Spaced.exists_of_cons {t : Token} {ts : List Token} {u : Text} (h : Spaced (t :: ts) u) :
    ∃ v, Spaced ts v ∧ skipSpace u = t.text ++ v := by
  generalize hall : t :: ts = all at h
  induction h with
  | nil => cases hall
  | blank hc _ ih =>
      obtain ⟨v, hv, hskip⟩ := ih hall
      exact ⟨v, hv, (List.dropWhile_cons_of_pos hc).trans hskip⟩
  | @token _ v _ h =>
      cases hall
      obtain ⟨c, w, htext, hbegins⟩ := t.exists_text
      refine ⟨v, h, ?_⟩
      rw [htext]
      exact List.dropWhile_cons_of_neg hbegins.not_isSpace

/-- A text without tokens is skipped as a whole. -/
theorem Spaced.skipSpace_of_nil {u : Text} (h : Spaced [] u) : skipSpace u = [] := by
  generalize hall : ([] : List Token) = all at h
  induction h with
  | nil => rfl
  | blank hc _ ih => exact (List.dropWhile_cons_of_pos hc).trans (ih hall)
  | token t _ => cases hall

/-- A text has no more tokens than characters, so the fuel for its characters is enough. -/
theorem Spaced.length_le {ts : List Token} {u : Text} (h : Spaced ts u) : ts.length ≤ u.length := by
  induction h with
  | nil => exact Nat.le_refl 0
  | blank _ _ ih => exact Nat.le_succ_of_le ih
  | token t _ ih =>
      obtain ⟨c, w, htext, -⟩ := t.exists_text
      rw [htext, List.length_append, List.length_cons, List.length_cons]
      omega

/-- What may stand behind a value cannot go on with a number. -/
theorem Spaced.endsNumber {ts : List Token} {u : Text} (h : Spaced ts u)
    (hts : ∀ t ∈ ts.head?, t.ends = true) : EndsNumber u := by
  intro d hd
  cases h with
  | nil => cases hd
  | blank hc _ =>
      cases hd
      simp only [isSpace, Bool.or_eq_true, beq_iff_eq] at hc
      rcases hc with ((rfl | rfl) | rfl) | rfl <;> decide
  | token t _ =>
      have hends : t.ends = true := hts t rfl
      cases t with
      | comma => cases hd; decide
      | closeBracket => cases hd; decide
      | closeBrace => cases hd; decide
      | openBracket => cases hends
      | openBrace => cases hends
      | colon => cases hends
      | literal l => cases hends

/-! ## Nodes are read -/

mutual

/-- A document is read from its tokens, whatever blanks stand between them. -/
theorem Node.readNode?_tokens (n : Node) {ts : List Token} {t : Text} {fuel : Nat}
    (h : Spaced (n.plain.tokens ++ ts) t) (hts : ∀ t ∈ ts.head?, t.ends = true)
    (hfuel : n.plain.tokens.length ≤ fuel) :
    ∃ u, Spaced ts u ∧ readNode? fuel t = some (n.written, u) := by
  cases n with
  | leaf l =>
      obtain ⟨fuel, rfl⟩ : ∃ f, fuel = f + 1 := ⟨fuel - 1, by have : 1 ≤ fuel := hfuel; omega⟩
      obtain ⟨u, hu, hskip⟩ := h.exists_of_cons
      refine ⟨u, hu, ?_⟩
      rw [← readNode?_skipSpace, hskip]
      exact l.readNode?_text (hu.endsNumber hts) fuel
  | array items trailing =>
      rw [Node.plain, Node.tokens, List.cons_append, List.append_assoc] at h
      rw [Node.plain, Node.tokens, List.length_cons, List.length_append] at hfuel
      obtain ⟨fuel, rfl⟩ : ∃ f, fuel = f + 1 := ⟨fuel - 1, by omega⟩
      have hitems : (itemTokens (plainItems items)).length + 1 ≤ fuel := Nat.le_of_succ_le_succ hfuel
      obtain ⟨u, hu, hskip⟩ := h.exists_of_cons
      rw [← readNode?_skipSpace, hskip]
      cases items with
      | nil =>
          obtain ⟨v, hv, hclose⟩ := hu.exists_of_cons
          refine ⟨v, hv, ?_⟩
          show readNode? (fuel + 1) ('[' :: u) = _
          rw [readNode?_bracket, hclose]
          rfl
      | cons n rest =>
          obtain ⟨v, hv, hread⟩ := readItems?_tokens (n :: rest) (List.cons_ne_nil _ _) hu hitems
          exact ⟨v, hv, readNode?_items hread⟩
  | object fields trailing =>
      rw [Node.plain, Node.tokens, List.cons_append, List.append_assoc] at h
      rw [Node.plain, Node.tokens, List.length_cons, List.length_append] at hfuel
      obtain ⟨fuel, rfl⟩ : ∃ f, fuel = f + 1 := ⟨fuel - 1, by omega⟩
      have hfields : (fieldTokens (plainFields fields)).length + 1 ≤ fuel :=
        Nat.le_of_succ_le_succ hfuel
      obtain ⟨u, hu, hskip⟩ := h.exists_of_cons
      rw [← readNode?_skipSpace, hskip]
      cases fields with
      | nil =>
          obtain ⟨v, hv, hclose⟩ := hu.exists_of_cons
          refine ⟨v, hv, ?_⟩
          show readNode? (fuel + 1) ('\x7b' :: u) = _
          rw [readNode?_brace, hclose]
          rfl
      | cons f rest =>
          obtain ⟨v, hv, hread⟩ := readFields?_tokens (f :: rest) (List.cons_ne_nil _ _) hu hfields
          exact ⟨v, hv, readNode?_fields hread⟩

/-- Items are read from their tokens, however these are spaced. -/
theorem readItems?_tokens (items : List Node) (hne : items ≠ []) {ts : List Token} {t : Text}
    {fuel : Nat} (h : Spaced (itemTokens (plainItems items) ++ .closeBracket :: ts) t)
    (hfuel : (itemTokens (plainItems items)).length + 1 ≤ fuel) :
    ∃ u, Spaced ts u ∧ readItems? fuel t = some (writtenItems items, u) := by
  obtain ⟨fuel, rfl⟩ : ∃ f, fuel = f + 1 := ⟨fuel - 1, by omega⟩
  replace hfuel := Nat.le_of_succ_le_succ hfuel
  match items with
  | [] => exact absurd rfl hne
  | [n] =>
      obtain ⟨u, hu, hread⟩ := n.readNode?_tokens h (by rintro _ ⟨⟩; rfl) hfuel
      obtain ⟨v, hv, hclose⟩ := hu.exists_of_cons
      exact ⟨v, hv, readItems?_last hread hclose⟩
  | n :: m :: rest =>
      -- The comma counts for the fuel that the item takes.
      rw [itemTokens_plain, List.append_assoc] at h
      rw [itemTokens_plain, List.length_append, List.length_cons] at hfuel
      have hnode : n.plain.tokens.length ≤ fuel := by omega
      have hrest : (itemTokens (plainItems (m :: rest))).length + 1 ≤ fuel := by omega
      obtain ⟨u, hu, hread⟩ := n.readNode?_tokens h (by rintro _ ⟨⟩; rfl) hnode
      obtain ⟨v, hv, hcomma⟩ := hu.exists_of_cons
      obtain ⟨w, hw, hmore⟩ := readItems?_tokens (m :: rest) (List.cons_ne_nil _ _) hv hrest
      exact ⟨w, hw, readItems?_more hread hcomma hmore⟩

/-- Fields are read from their tokens, however these are spaced. -/
theorem readFields?_tokens (fields : List (List StringPart × Node)) (hne : fields ≠ [])
    {ts : List Token} {t : Text} {fuel : Nat}
    (h : Spaced (fieldTokens (plainFields fields) ++ .closeBrace :: ts) t)
    (hfuel : (fieldTokens (plainFields fields)).length + 1 ≤ fuel) :
    ∃ u, Spaced ts u ∧ readFields? fuel t = some (writtenFields fields, u) := by
  obtain ⟨fuel, rfl⟩ : ∃ f, fuel = f + 1 := ⟨fuel - 1, by omega⟩
  replace hfuel := Nat.le_of_succ_le_succ hfuel
  match fields with
  | [] => exact absurd rfl hne
  | [(k, n)] =>
      rw [plainFields, plainFields, fieldTokens, List.length_cons, List.length_cons] at hfuel
      obtain ⟨u, hu, hquote⟩ := h.exists_of_cons
      obtain ⟨v, hv, hcolon⟩ := hu.exists_of_cons
      obtain ⟨w, hw, hread⟩ := n.readNode?_tokens hv (by rintro _ ⟨⟩; rfl)
        (show n.plain.tokens.length ≤ fuel by omega)
      obtain ⟨x, hx, hclose⟩ := hw.exists_of_cons
      rw [Token.text, Literal.text_string] at hquote
      exact ⟨x, hx, readFields?_last hquote (readString?_parts k u) hcolon hread hclose⟩
  | (k, n) :: f :: rest =>
      rw [fieldTokens_plain, List.cons_append, List.cons_append, List.append_assoc] at h
      rw [fieldTokens_plain, List.length_cons, List.length_cons, List.length_append,
        List.length_cons] at hfuel
      have hnode : n.plain.tokens.length ≤ fuel := by omega
      have hrest : (fieldTokens (plainFields (f :: rest))).length + 1 ≤ fuel := by omega
      obtain ⟨u, hu, hquote⟩ := h.exists_of_cons
      obtain ⟨v, hv, hcolon⟩ := hu.exists_of_cons
      obtain ⟨w, hw, hread⟩ := n.readNode?_tokens hv (by rintro _ ⟨⟩; rfl) hnode
      obtain ⟨x, hx, hcomma⟩ := hw.exists_of_cons
      obtain ⟨y, hy, hmore⟩ := readFields?_tokens (f :: rest) (List.cons_ne_nil _ _) hx hrest
      rw [Token.text, Literal.text_string] at hquote
      exact ⟨y, hy, readFields?_more hquote (readString?_parts k u) hcolon hread hcomma hmore⟩

end

/-- A document is read from its whole text. -/
theorem Node.readWritten?_of_spaced (n : Node) {t : Text} (h : Spaced n.plain.tokens t) :
    readWritten? t = some n.written := by
  have hfuel : n.plain.tokens.length ≤ t.length + 1 := Nat.le_succ_of_le h.length_le
  rw [← List.append_nil n.plain.tokens] at h
  obtain ⟨u, hu, hread⟩ := n.readNode?_tokens h (fun _ h => nomatch h) hfuel
  rw [readWritten?, hread]
  simp [hu.skipSpace_of_nil]

/-! ## What is read is a node -/

/-- The text is the tokens, with blanks only in front of them and between them, and the rest. -/
def Leads (ts : List Token) (t rest : Text) : Prop := ∃ u, Spaced ts u ∧ t = u ++ rest

/-- Tokens that lead a text, and tokens that lead the rest, lead it together. -/
theorem Leads.append {ts us : List Token} {t u rest : Text} (ht : Leads ts t u)
    (hu : Leads us u rest) : Leads (ts ++ us) t rest := by
  obtain ⟨v, hv, rfl⟩ := ht
  obtain ⟨w, hw, rfl⟩ := hu
  exact ⟨v ++ w, hv.append hw, (List.append_assoc ..).symm⟩

/-- Blanks in front of the tokens do not matter. -/
theorem Leads.of_skipSpace {ts : List Token} {t rest : Text} (h : Leads ts (skipSpace t) rest) :
    Leads ts t rest := by
  induction t with
  | nil => exact h
  | cons c t ih =>
      by_cases hc : isSpace c = true
      · rw [skipSpace, List.dropWhile_cons_of_pos hc] at h
        obtain ⟨u, hu, htext⟩ := ih h
        exact ⟨c :: u, .blank hc hu, by rw [htext, List.cons_append]⟩
      · rwa [skipSpace, List.dropWhile_cons_of_neg hc] at h

/-- The token behind the blanks leads. -/
theorem leads_token {t rest : Text} (x : Token) (h : skipSpace t = x.text ++ rest) :
    Leads [x] t rest :=
  .of_skipSpace ⟨x.text ++ [], .token x .nil, by rw [h, List.append_nil]⟩

/-- All that is read with the given fuel are nodes. -/
structure ReadAt (fuel : Nat) : Prop where
  node : ∀ {t w rest}, readNode? fuel t = some (w, rest) →
    ∃ n : Node, Leads n.plain.tokens t rest ∧ n.written = w
  items : ∀ {t ws rest}, readItems? fuel t = some (ws, rest) →
    ∃ items, Leads (itemTokens (plainItems items) ++ [.closeBracket]) t rest ∧
      items ≠ [] ∧ writtenItems items = ws
  fields : ∀ {t ws rest}, readFields? fuel t = some (ws, rest) →
    ∃ fields, Leads (fieldTokens (plainFields fields) ++ [.closeBrace]) t rest ∧
      fields ≠ [] ∧ writtenFields fields = ws

/-- A value that is read with more fuel is a node, if less fuel reads nodes. -/
theorem ReadAt.node_succ {fuel : Nat} (h : ReadAt fuel) {t rest : Text} {w : Written}
    (hread : readNode? (fuel + 1) t = some (w, rest)) :
    ∃ n : Node, Leads n.plain.tokens t rest ∧ n.written = w := by
  have leaf : ∀ {l : Literal}, skipSpace t = l.text ++ rest → l.written = w →
      ∃ n : Node, Leads n.plain.tokens t rest ∧ n.written = w :=
    fun {l} htext hwritten => ⟨.leaf l, leads_token (.literal l) htext, hwritten⟩
  -- The cases are the reader's, by what stands behind the blanks.
  rw [readNode?] at hread
  split at hread
  · next u heq =>
      obtain ⟨⟨s, v⟩, hs, hr⟩ := Option.map_eq_some_iff.1 hread
      cases hr
      obtain ⟨⟨units, v⟩, hunits, hr⟩ := Option.map_eq_some_iff.1 hs
      cases hr
      obtain ⟨parts, rfl, rfl⟩ := exists_parts hunits
      exact leaf (l := .string parts) (by rw [heq, Literal.text_string]) rfl
  · next u heq =>
      have hopen : Leads [.openBracket] t u := leads_token .openBracket heq
      split at hread
      · next v hclose =>
          cases hread
          exact ⟨.array [] false, hopen.append (leads_token .closeBracket hclose), rfl⟩
      · obtain ⟨⟨ws, v⟩, hitems, hr⟩ := Option.map_eq_some_iff.1 hread
        cases hr
        rw [readItems?_skipSpace] at hitems
        obtain ⟨items, hlead, -, rfl⟩ := h.items hitems
        exact ⟨.array items false, hopen.append hlead, rfl⟩
  · next u heq =>
      have hopen : Leads [.openBrace] t u := leads_token .openBrace heq
      split at hread
      · next v hclose =>
          cases hread
          exact ⟨.object [] false, hopen.append (leads_token .closeBrace hclose), rfl⟩
      · obtain ⟨⟨ws, v⟩, hfields, hr⟩ := Option.map_eq_some_iff.1 hread
        cases hr
        rw [readFields?_skipSpace] at hfields
        obtain ⟨fields, hlead, -, rfl⟩ := h.fields hfields
        exact ⟨.object fields false, hopen.append hlead, rfl⟩
  · next u heq =>
      obtain ⟨⟨v, r⟩, hnumber, hr⟩ := Option.map_eq_some_iff.1 hread
      cases hr
      obtain ⟨n, hneg, rfl, rfl⟩ := exists_numeral hnumber
      exact leaf (l := .number n) (by rw [heq, Literal.text, Numeral.text, hneg]; rfl) rfl
  · next u heq =>
      cases hread
      exact leaf (l := .null) heq rfl
  · next u heq =>
      cases hread
      exact leaf (l := .bool true) heq rfl
  · next u heq =>
      cases hread
      exact leaf (l := .bool false) heq rfl
  · obtain ⟨⟨v, r⟩, hnumber, hr⟩ := Option.map_eq_some_iff.1 hread
    cases hr
    obtain ⟨n, hneg, rfl, heq⟩ := exists_numeral hnumber
    exact leaf (l := .number n) (by rw [heq, Literal.text, Numeral.text, hneg]; rfl) rfl

/-- Items that are read with more fuel are nodes, if less fuel reads nodes. -/
theorem ReadAt.items_succ {fuel : Nat} (h : ReadAt fuel) {t rest : Text} {ws : List Written}
    (hread : readItems? (fuel + 1) t = some (ws, rest)) :
    ∃ items, Leads (itemTokens (plainItems items) ++ [.closeBracket]) t rest ∧
      items ≠ [] ∧ writtenItems items = ws := by
  rw [readItems?] at hread
  split at hread
  · cases hread
  · next hnode =>
      obtain ⟨n, hlead, rfl⟩ := h.node hnode
      split at hread
      · next heq =>
          obtain ⟨⟨vs, v⟩, hmore, hr⟩ := Option.map_eq_some_iff.1 hread
          cases hr
          obtain ⟨items, hrest, hne, rfl⟩ := h.items hmore
          obtain ⟨m, items, rfl⟩ := List.exists_cons_of_ne_nil hne
          refine ⟨n :: m :: items, ?_, List.cons_ne_nil _ _, rfl⟩
          rw [itemTokens_plain, List.append_assoc]
          exact hlead.append ((leads_token .comma heq).append hrest)
      · next heq =>
          cases hread
          exact ⟨[n], hlead.append (leads_token .closeBracket heq), List.cons_ne_nil _ _, rfl⟩
      · cases hread

/-- Fields that are read with more fuel are nodes, if less fuel reads nodes. -/
theorem ReadAt.fields_succ {fuel : Nat} (h : ReadAt fuel) {t rest : Text}
    {ws : List (Option Text × Written)} (hread : readFields? (fuel + 1) t = some (ws, rest)) :
    ∃ fields, Leads (fieldTokens (plainFields fields) ++ [.closeBrace]) t rest ∧
      fields ≠ [] ∧ writtenFields fields = ws := by
  rw [readFields?] at hread
  split at hread
  · next u hquote =>
      split at hread
      · cases hread
      · next key u hkey =>
          obtain ⟨⟨units, v⟩, hunits, hr⟩ := Option.map_eq_some_iff.1 hkey
          cases hr
          obtain ⟨k, rfl, rfl⟩ := exists_parts hunits
          have hname : Leads [.literal (.string k)] t u :=
            leads_token (.literal (.string k)) (by rw [hquote, Token.text, Literal.text_string])
          split at hread
          · next hcolon =>
              split at hread
              · cases hread
              · next hnode =>
                  obtain ⟨n, hlead, rfl⟩ := h.node hnode
                  have hfield := (hname.append (leads_token .colon hcolon)).append hlead
                  split at hread
                  · next heq =>
                      obtain ⟨⟨vs, v⟩, hmore, hr⟩ := Option.map_eq_some_iff.1 hread
                      cases hr
                      obtain ⟨fields, hrest, hne, rfl⟩ := h.fields hmore
                      obtain ⟨f, fields, rfl⟩ := List.exists_cons_of_ne_nil hne
                      refine ⟨(k, n) :: f :: fields, ?_, List.cons_ne_nil _ _, rfl⟩
                      rw [fieldTokens_plain, List.cons_append, List.cons_append, List.append_assoc]
                      exact hfield.append ((leads_token .comma heq).append hrest)
                  · next heq =>
                      cases hread
                      exact ⟨[(k, n)], hfield.append (leads_token .closeBrace heq),
                        List.cons_ne_nil _ _, rfl⟩
                  · cases hread
          · cases hread
  · cases hread

/-- With any fuel, what is read are nodes. -/
theorem readAt (fuel : Nat) : ReadAt fuel := by
  induction fuel with
  | zero => exact ⟨fun h => (nomatch h), fun h => (nomatch h), fun h => (nomatch h)⟩
  | succ fuel ih => exact ⟨ih.node_succ, ih.items_succ, ih.fields_succ⟩

/-- **What is read is what is written.**  A text is read as a document if and only if it is a node
    that says this document, without trailing commas and with blanks only between its tokens. -/
theorem readWritten?_eq_some_iff {t : Text} {w : Written} :
    readWritten? t = some w ↔ ∃ n : Node, Spaced n.plain.tokens t ∧ n.written = w := by
  constructor
  · intro h
    unfold readWritten? at h
    split at h
    · next w' rest hread =>
        split at h
        · next hempty =>
            cases h
            obtain ⟨n, hlead, rfl⟩ := (readAt _).node hread
            have hrest : Leads [] rest [] :=
              .of_skipSpace ⟨[], .nil, List.isEmpty_iff.1 hempty⟩
            obtain ⟨u, hu, rfl⟩ := hlead.append hrest
            rw [List.append_nil] at hu ⊢
            exact ⟨n, hu, rfl⟩
        · cases h
    · cases h
  · rintro ⟨n, h, rfl⟩
    exact n.readWritten?_of_spaced h

end Typings.Json
