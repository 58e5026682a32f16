import Typings.LibraryName
import Typings.Proofs.Library.Defaults

/-!
# `Names` — which library names are identifiers

A library name has the word characters of the configured one, capitalized at its beginning and behind hyphens
and blanks (`capitalize_eq`).  So it has word characters only, but nothing says that there is one, that the
first is no digit, and that they do not spell a reserved word where the name begins with something else, as in
`@class`.  In these three cases, and in no others, the name is no identifier, and then the lines of a root file
that rebind the default are no statements (`isIdentifier_libraryName_iff`).

* `capitals`, `Capitalizes`: the word characters of a text, and whether one of them is capitalized.
* `lead`: the letters that the upper case of a first character brings.
* `capitalize_eq`: a name is its lead and its capitals.
* `reserved`, `IsIdentifier`: the names that can be bound; `Identifiable`: the texts that give one.
* `Rebinds`, `tokens_indexContent`: the statements of a root file with a default.
-/

namespace Typings.LibraryName

/-! ## Capitals -/

/-- A word begins behind a hyphen and behind a blank. -/
def isGap (c : Char) : Bool := c == '-' || Text.isBlank c

/-- The word characters of a text, capitalized behind gaps and, if `start`, at the beginning. -/
def capitals (start : Bool) : Text → Text
  | [] => []
  | c :: t =>
    (if isWord c then [if start then c.toUpper else c] else []) ++ capitals (isGap c) t

/-- A word character stands behind a gap or, if `start`, at the beginning. -/
def Capitalizes (start : Bool) (t : Text) : Prop :=
  (start = true ∧ ∃ c ∈ t.head?, isWord c = true) ∨
    ∃ d c, isGap d = true ∧ isWord c = true ∧ [d, c] <:+: t

/-- The first character that is not blank. -/
def first? (t : Text) : Option Char := t.find? fun c => !Text.isBlank c

/-- The letters that the upper case of the first character brings where that is no word character. -/
def lead (t : Text) : Text := ((first? t).bind fun c => expandingUpper.lookup c.toNat).getD []

/-- Word characters are among the first code points, so what holds of all of them can be checked. -/
theorem toNat_le_of_isWord {c : Char} (h : isWord c = true) : c.toNat ≤ 122 := by
  rcases Bool.or_eq_true_iff.1 (show (c.isAlphanum || c == '_') = true from h) with h | h
  · rcases Bool.or_eq_true_iff.1 (show (c.isAlpha || c.isDigit) = true from h) with h | h
    · rcases Bool.or_eq_true_iff.1 (show (c.isUpper || c.isLower) = true from h) with h | h
      · have hupper : 'A'.val ≤ c.val ∧ c.val ≤ 'Z'.val := of_decide_eq_true h
        exact (UInt32.le_iff_toNat_le.1 hupper.2).trans (by decide)
      · exact UInt32.le_iff_toNat_le.1 (of_decide_eq_true (Bool.and_eq_true_iff.1 h).2)
    · exact (Char.isDigit_iff_toNat.1 h).2.trans (by decide)
  · rw [beq_iff_eq.1 h]
    decide

/-- What holds of the characters up to `z` holds of the word characters. -/
theorem forall_isWord {p : Char → Prop} (h : ∀ n ≤ 122, isWord (Char.ofNat n) = true → p (Char.ofNat n))
    {c : Char} (hc : isWord c = true) : p c := by
  have hn := h c.toNat (toNat_le_of_isWord hc)
  rw [Char.ofNat_toNat] at hn
  exact hn hc

/-- A word character is no gap. -/
theorem isGap_of_isWord {c : Char} (h : isWord c = true) : isGap c = false :=
  forall_isWord (p := fun c => isGap c = false) (by decide) h

/-- A gap is no word character. -/
theorem not_isWord_of_isGap {c : Char} (h : isGap c = true) : isWord c = false := by
  rw [← Bool.not_eq_true]
  intro hc
  rw [isGap_of_isWord hc] at h
  cases h

/-- The upper case of a word character is a word character. -/
theorem isWord_toUpper {c : Char} (h : isWord c = true) : isWord c.toUpper = true :=
  forall_isWord (p := fun c => isWord c.toUpper = true) (by decide) h

/-- Taking the upper case twice changes no more than once. -/
theorem toUpper_toUpper {c : Char} (h : isWord c = true) : c.toUpper.toUpper = c.toUpper :=
  forall_isWord (p := fun c => c.toUpper.toUpper = c.toUpper) (by decide) h

/-- The upper case is not a lower case letter, even where it is no letter. -/
theorem isLower_toUpper {c : Char} (h : isWord c = true) : c.toUpper.isLower = false :=
  forall_isWord (p := fun c => c.toUpper.isLower = false) (by decide) h

/-- The upper case of a word character is a digit just if that is one. -/
theorem isDigit_toUpper {c : Char} (h : isWord c = true) : c.toUpper.isDigit = c.isDigit :=
  forall_isWord (p := fun c => c.toUpper.isDigit = c.isDigit) (by decide) h

/-- No word character is in the table of the characters that expand. -/
theorem lookup_of_isWord {c : Char} (h : isWord c = true) : expandingUpper.lookup c.toNat = none :=
  forall_isWord (p := fun c => expandingUpper.lookup c.toNat = none) (by decide) h

/-- A word character in upper case is one character. -/
theorem upperWord_of_isWord {c : Char} (h : isWord c = true) : upperWord c = [c.toUpper] := if_pos h

/-- Any other character becomes the letters that the table has for it, or nothing. -/
theorem upperWord_of_not_isWord {c : Char} (h : isWord c = false) :
    upperWord c = (expandingUpper.lookup c.toNat).getD [] := if_neg (by rw [h]; exact Bool.false_ne_true)

/-- A word character is kept, in upper case where a word begins. -/
theorem capitals_cons_word {start : Bool} {c : Char} (h : isWord c = true) (t : Text) :
    capitals start (c :: t) = (if start then c.toUpper else c) :: capitals false t := by
  rw [capitals, if_pos h, isGap_of_isWord h, List.singleton_append]

/-- Any other character is left out, and begins a word if it is a gap. -/
theorem capitals_cons_other {c : Char} (h : isWord c = false) (start : Bool) (t : Text) :
    capitals start (c :: t) = capitals (isGap c) t := by
  rw [capitals, h, if_neg Bool.false_ne_true, List.nil_append]

/-- What stands behind a gap is capitalized whatever stands before the gap. -/
theorem capitals_append_gap {c : Char} (hgap : isGap c = true) (hc : isWord c = false) (start : Bool) (s t : Text) :
    capitals start (s ++ c :: t) = capitals start s ++ capitals true t := by
  induction s generalizing start with
  | nil => rw [List.nil_append, capitals_cons_other hc, hgap]; rfl
  | cons d s ih => rw [List.cons_append, capitals, ih, capitals, List.append_assoc]

/-! ## The conversion -/

/-- Blanks are gaps, so a text is capitalized piece by piece. -/
theorem capitals_splitOnP (start : Bool) (t : Text) :
    ∃ piece rest, List.splitOnP Text.isBlank t = piece :: rest ∧
      capitals start t = capitals start piece ++ rest.flatMap (capitals true) := by
  induction t generalizing start with
  | nil => exact ⟨[], [], rfl, rfl⟩
  | cons c t ih =>
      obtain ⟨piece, rest, hsplit, hcapitals⟩ := ih (isGap c)
      by_cases hblank : Text.isBlank c = true
      · have hgap : isGap c = true := by rw [isGap, hblank, Bool.or_true]
        refine ⟨[], piece :: rest, by rw [List.splitOnP_cons_eq_if_modifyHead, if_pos hblank, hsplit], ?_⟩
        rw [capitals_cons_other (not_isWord_of_isGap hgap), hcapitals, hgap]
        rfl
      · refine ⟨c :: piece, rest, by rw [List.splitOnP_cons_eq_if_modifyHead, if_neg hblank, hsplit]; rfl, ?_⟩
        rw [capitals, capitals, hcapitals, List.append_assoc]

/-- The capitals of a text are those of its words. -/
theorem capitals_words (t : Text) : t.words.flatMap (capitals true) = capitals true t := by
  have hempty (ps : List Text) :
      (ps.filter fun w => !w.isEmpty).flatMap (capitals true) = ps.flatMap (capitals true) := by
    induction ps with
    | nil => rfl
    | cons p ps ih =>
        rw [List.filter_cons, List.flatMap_cons, ← ih]
        cases p <;> rfl
  obtain ⟨piece, rest, hsplit, hcapitals⟩ := capitals_splitOnP true t
  rw [Text.words, hempty, hsplit, hcapitals, List.flatMap_cons]

/-- Words with hyphens between them are capitalized one by one. -/
theorem capitals_intercalate (ws : List Text) :
    capitals true (List.intercalate "-" ws) = ws.flatMap (capitals true) := by
  induction ws with
  | nil => rfl
  | cons w ws ih =>
      cases ws with
      | nil => rw [List.intercalate_singleton, List.flatMap_singleton]
      | cons v ws =>
          rw [List.intercalate_cons_of_ne_nil (by simp), List.append_assoc, List.flatMap_cons, ← ih]
          exact capitals_append_gap (by decide) (by decide) true w _

/-- Neither a blank nor a hyphen: no gap. -/
theorem isGap_of_ne {c : Char} (hblank : Text.isBlank c = false) (hne : c ≠ '-') : isGap c = false := by
  rw [isGap, hblank, Bool.or_false, beq_eq_false_iff_ne]
  exact hne

/-- A hyphen is left out, and what follows it is capitalized. -/
theorem capitals_hyphen (start : Bool) (t : Text) : capitals start ('-' :: t) = capitals true t := rfl

/-- Where hyphens are folded the word characters are the capitals. -/
theorem filter_foldHyphens {t : Text} (ht : ∀ c ∈ t, Text.isBlank c = false) :
    (foldHyphens t).filter isWord = capitals false t := by
  fun_induction foldHyphens t with
  | case1 => rfl
  | case2 => rfl
  | case3 t ih =>
      rw [ih (List.forall_mem_cons.mp ht).2]
      rfl
  | case4 c t hne hc ih =>
      have hrest := (List.forall_mem_cons.mp (List.forall_mem_cons.mp ht).2).2
      rw [List.filter_cons_of_pos (isWord_toUpper hc), ih hrest, capitals_hyphen, capitals_cons_word hc]
      rfl
  | case5 c t hne hc ih =>
      obtain ⟨hblank, hrest⟩ := List.forall_mem_cons.mp (List.forall_mem_cons.mp ht).2
      have hword : isWord c = false := Bool.not_eq_true _ ▸ hc
      rw [capitals_hyphen, capitals_cons_other hword, isGap_of_ne hblank hne, ← ih hrest,
        List.filter_cons_of_neg (by decide), List.filter_cons_of_neg hc]
  | case6 c t hend hrun hfold ih =>
      obtain ⟨hblank, hrest⟩ := List.forall_mem_cons.mp ht
      -- The cases before this one are those of a hyphen.
      have hne : c ≠ '-' := by
        rintro rfl
        cases t with
        | nil => exact hend rfl rfl
        | cons d t => exact hfold d t rfl rfl
      rw [capitals, isGap_of_ne hblank hne, ← ih hrest, List.filter_cons]
      split <;> rfl

/-- Folding leaves everything but hyphens as it is. -/
theorem foldHyphens_of_ne {c : Char} (h : c ≠ '-') (t : Text) : foldHyphens (c :: t) = c :: foldHyphens t := by
  rw [foldHyphens]
  · exact fun hc _ => h hc
  · exact fun _ hc _ => h hc
  · exact fun _ _ hc _ => h hc

/-- Behind hyphens nothing is left to put in upper case. -/
theorem upperWord_foldHyphens (t : Text) : ∃ c rest, foldHyphens ('-' :: t) = c :: rest ∧
    upperWord c ++ rest.filter isWord = (foldHyphens ('-' :: t)).filter isWord := by
  induction t with
  | nil => exact ⟨'-', [], rfl, rfl⟩
  | cons d t ih =>
      by_cases hd : d = '-'
      · rw [hd, foldHyphens]
        exact ih
      · rw [foldHyphens]
        · split
          · next hword =>
              refine ⟨_, _, rfl, ?_⟩
              rw [upperWord_of_isWord (isWord_toUpper hword), toUpper_toUpper hword,
                List.filter_cons_of_pos (isWord_toUpper hword)]
              rfl
          · exact ⟨_, _, rfl, rfl⟩
        · exact hd

/-- A character that is not blank is the first one. -/
theorem first?_cons {c : Char} (h : Text.isBlank c = false) (t : Text) : first? (c :: t) = some c :=
  List.find?_cons_of_pos (by rw [h]; rfl)

/-- A text without blanks, with its hyphens folded and its first character in upper case. -/
theorem upperWord_filter {t : Text} (ht : ∀ c ∈ t, Text.isBlank c = false) :
    (match foldHyphens t with
      | [] => []
      | c :: rest => upperWord c ++ rest.filter isWord) = lead t ++ capitals true t := by
  have hfold := filter_foldHyphens ht
  cases t with
  | nil => rfl
  | cons c t =>
      obtain ⟨hblank, hrest⟩ := List.forall_mem_cons.mp ht
      have hlead : lead (c :: t) = (expandingUpper.lookup c.toNat).getD [] := by
        rw [lead, first?_cons hblank, Option.bind_some]
      by_cases hc : c = '-'
      · subst hc
        obtain ⟨d, rest, hcons, hupper⟩ := upperWord_foldHyphens t
        rw [hcons, hlead]
        show upperWord d ++ rest.filter isWord = _
        rw [hupper, hfold]
        rfl
      · rw [foldHyphens_of_ne hc, hlead]
        show upperWord c ++ (foldHyphens t).filter isWord = _
        rw [filter_foldHyphens hrest]
        cases hword : isWord c with
        | true => rw [upperWord_of_isWord hword, lookup_of_isWord hword, capitals_cons_word hword]; rfl
        | false => rw [upperWord_of_not_isWord hword, capitals_cons_other hword, isGap_of_ne hblank hc]

/-- The words of a text, put together with hyphens, begin with the same character as the text. -/
theorem first?_intercalate_words (t : Text) : first? (List.intercalate "-" t.words) = first? t := by
  induction t with
  | nil => rfl
  | cons c t ih =>
      by_cases hblank : Text.isBlank c = true
      · rw [Text.words_cons_blank hblank, ih, first?, first?, List.find?_cons_of_neg (by rw [hblank]; decide)]
      · obtain ⟨piece, rest, hsplit, -⟩ := capitals_splitOnP true t
        have hwords : Text.words (c :: t) = (c :: piece) :: rest.filter fun w => !w.isEmpty := by
          rw [Text.words, List.splitOnP_cons_eq_if_modifyHead, if_neg hblank, hsplit]
          rfl
        rw [Bool.not_eq_true] at hblank
        rw [hwords, first?_cons hblank]
        cases rest.filter fun w => !w.isEmpty with
        | nil => rw [List.intercalate_singleton, first?_cons hblank]
        | cons w ws => rw [List.intercalate_cons_cons_left, first?_cons hblank]

/-- **A name is the word characters of the configured one**, capitalized at the beginning and behind hyphens and
    blanks, behind the letters that the upper case of the first character brings. -/
theorem capitalize_eq (name : Text) : capitalize name = lead name ++ capitals true name := by
  have hsolid : ∀ c ∈ List.intercalate "-" name.words, Text.isBlank c = false := by
    intro c hc
    rcases Text.mem_intercalate hc with hc | ⟨w, hw, hc⟩
    · rw [List.mem_singleton.mp hc]
      rfl
    · exact (Text.solid_of_mem_words hw).2 c hc
  rw [← capitals_words, ← capitals_intercalate, lead, ← first?_intercalate_words]
  exact upperWord_filter hsolid

/-! ## What capitals are -/

/-- Nothing but word characters is left. -/
theorem isWord_capitals (start : Bool) (t : Text) : ∀ c ∈ capitals start t, isWord c = true := by
  induction t generalizing start with
  | nil => exact fun _ h => nomatch h
  | cons c t ih =>
      cases hc : isWord c with
      | false =>
          rw [capitals_cons_other hc]
          exact ih _
      | true =>
          rw [capitals_cons_word hc]
          refine List.forall_mem_cons.mpr ⟨?_, ih _⟩
          split
          · exact isWord_toUpper hc
          · exact hc

/-- Nothing is left just of a text without word characters. -/
theorem capitals_eq_nil_iff {start : Bool} {t : Text} : capitals start t = [] ↔ ∀ c ∈ t, isWord c = false := by
  induction t generalizing start with
  | nil => exact iff_of_true rfl fun _ h => nomatch h
  | cons c t ih =>
      rw [List.forall_mem_cons]
      cases hc : isWord c with
      | false => rw [capitals_cons_other hc, ih, eq_self, true_and]
      | true => rw [capitals_cons_word hc]; simp

/-- The first capital is a digit if the first word character is one. -/
theorem isDigit_head?_capitals (start : Bool) (t : Text) :
    (capitals start t).head?.any Char.isDigit = (t.find? isWord).any Char.isDigit := by
  induction t generalizing start with
  | nil => rfl
  | cons c t ih =>
      cases hc : isWord c with
      | false => rw [capitals_cons_other hc, ih, List.find?_cons_of_neg (by rw [hc]; exact Bool.false_ne_true)]
      | true =>
          rw [capitals_cons_word hc, List.find?_cons_of_pos hc]
          cases start with
          | false => rfl
          | true => exact isDigit_toUpper hc

/-- A text capitalizes a character at its beginning or further on. -/
theorem capitalizes_cons {start : Bool} {c : Char} {t : Text} :
    Capitalizes start (c :: t) ↔ (start = true ∧ isWord c = true) ∨ Capitalizes (isGap c) t := by
  have hpair {d e : Char} : [d, e] <:+: c :: t ↔ (d = c ∧ e ∈ t.head?) ∨ [d, e] <:+: t := by
    have hhead : [e] <+: t ↔ e ∈ t.head? := by cases t <;> simp [eq_comm]
    rw [List.infix_cons_iff, List.cons_prefix_cons, hhead]
  simp only [Capitalizes, hpair, List.head?_cons, Option.mem_some_iff, exists_eq_left']
  grind

/-- Capitals are lower case where nothing is capitalized, and then they are the word characters. -/
theorem capitals_of_not_capitalizes {start : Bool} {t : Text} (h : ¬ Capitalizes start t) :
    capitals start t = t.filter isWord := by
  induction t generalizing start with
  | nil => rfl
  | cons c t ih =>
      rw [capitalizes_cons, not_or] at h
      rw [capitals, ih h.2, List.filter_cons]
      split
      · next hc =>
          rw [if_neg fun hstart => h.1 ⟨hstart, hc⟩]
          rfl
      · rfl

/-- A character that is capitalized is left as one that is no lower case letter. -/
theorem not_isLower_capitals {start : Bool} {t : Text} (h : Capitalizes start t) :
    ∃ c ∈ capitals start t, c.isLower = false := by
  induction t generalizing start with
  | nil => simp [Capitalizes] at h
  | cons c t ih =>
      rcases capitalizes_cons.mp h with ⟨rfl, hc⟩ | h
      · exact ⟨c.toUpper, by rw [capitals_cons_word hc]; exact List.mem_cons_self .., isLower_toUpper hc⟩
      · obtain ⟨d, hd, hlower⟩ := ih h
        exact ⟨d, List.mem_append_right _ hd, hlower⟩

/-! ## Identifiers -/

/-- The words that a script cannot bind. -/
def reserved : List Text :=
  (["await", "break", "case", "catch", "class", "const", "continue", "debugger", "default", "delete", "do",
    "else", "enum", "export", "extends", "false", "finally", "for", "function", "if", "implements", "import",
    "in", "instanceof", "interface", "let", "new", "null", "package", "private", "protected", "public",
    "return", "static", "super", "switch", "this", "throw", "true", "try", "typeof", "var", "void", "while",
    "with", "yield"] : List String).map String.toList

/-- A name of word characters that can be bound. -/
structure IsIdentifier (name : Text) : Prop where
  nonempty : name ≠ []
  word : ∀ c ∈ name, isWord c = true
  start : name.head?.any Char.isDigit = false
  free : name ∉ reserved

/-- The reserved words are written in lower case letters only. -/
theorem isLower_reserved : ∀ w ∈ reserved, ∀ c ∈ w, c.isLower = true := by decide +kernel

/-- Of word characters an identifier is made, unless there are none, a digit is first, or they spell a reserved
    word. -/
theorem isIdentifier_iff {name : Text} (hword : ∀ c ∈ name, isWord c = true) :
    IsIdentifier name ↔ name ≠ [] ∧ name.head?.any Char.isDigit = false ∧ name ∉ reserved :=
  ⟨fun h => ⟨h.nonempty, h.start, h.free⟩, fun ⟨hne, hstart, hfree⟩ => ⟨hne, hword, hstart, hfree⟩⟩

/-- The text gives a library name that can be bound: it is blank, or its first character brings letters, or its
    first word character is no digit and its word characters spell no reserved word, unless one of them is
    capitalized. -/
def Identifiable (raw : Text) : Prop :=
  (∀ c ∈ raw, Text.isBlank c = true) ∨ lead raw ≠ [] ∨
    ((∃ c ∈ raw.find? isWord, c.isDigit = false) ∧
      (raw.filter isWord ∈ reserved → Capitalizes true raw))

/-- The letters that the first character brings are capitals. -/
theorem isWord_lead (raw : Text) :
    ∀ c ∈ lead raw, isWord c = true ∧ c.isLower = false ∧ c.isDigit = false := by
  have htable : ∀ e ∈ expandingUpper, ∀ c ∈ e.2, isWord c = true ∧ c.isLower = false ∧ c.isDigit = false := by
    decide
  unfold lead
  cases hlookup : (first? raw).bind fun c => expandingUpper.lookup c.toNat with
  | none => exact fun _ h => nomatch h
  | some letters =>
      obtain ⟨d, -, hd⟩ := Option.bind_eq_some_iff.mp hlookup
      obtain ⟨before, after, htext, -⟩ := List.lookup_eq_some_iff.mp hd
      exact htable (d.toNat, letters) (by rw [htext]; simp)

/-- A name is made of word characters. -/
theorem isWord_capitalize (name : Text) : ∀ c ∈ capitalize name, isWord c = true := by
  intro c hc
  rw [capitalize_eq] at hc
  rcases List.mem_append.mp hc with hc | hc
  · exact (isWord_lead name c hc).1
  · exact isWord_capitals true name c hc

/-- What is capitalized is an identifier if no digit comes first and no reserved word is left as it is. -/
theorem isIdentifier_capitals_iff (raw : Text) : IsIdentifier (capitals true raw) ↔
    (∃ c ∈ raw.find? isWord, c.isDigit = false) ∧ (raw.filter isWord ∈ reserved → Capitalizes true raw) := by
  have hstart : (capitals true raw ≠ [] ∧ (capitals true raw).head?.any Char.isDigit = false) ↔
      ∃ c ∈ raw.find? isWord, c.isDigit = false := by
    rw [isDigit_head?_capitals, Ne, capitals_eq_nil_iff]
    cases hfind : raw.find? isWord with
    | none => simpa using hfind
    | some c =>
        have hc : ∃ c ∈ raw, isWord c = true := List.find?_isSome.mp (by rw [hfind]; rfl)
        simpa using fun _ => hc
  have hfree : capitals true raw ∉ reserved ↔ (raw.filter isWord ∈ reserved → Capitalizes true raw) := by
    by_cases hcapital : Capitalizes true raw
    · refine iff_of_true (fun hmem => ?_) fun _ => hcapital
      obtain ⟨c, hc, hlower⟩ := not_isLower_capitals hcapital
      rw [isLower_reserved _ hmem c hc] at hlower
      cases hlower
    · rw [capitals_of_not_capitalizes hcapital]
      exact ⟨fun h hmem => absurd hmem h, fun h hmem => hcapital (h hmem)⟩
  rw [isIdentifier_iff (isWord_capitals true raw), ← and_assoc, hstart, hfree]

/-- The name is an identifier under the same conditions, or if the first character brings letters. -/
theorem isIdentifier_capitalize_iff (raw : Text) : IsIdentifier (capitalize raw) ↔ lead raw ≠ [] ∨
    ((∃ c ∈ raw.find? isWord, c.isDigit = false) ∧ (raw.filter isWord ∈ reserved → Capitalizes true raw)) := by
  have hword := isWord_capitalize raw
  rw [capitalize_eq] at hword ⊢
  cases hlead : lead raw with
  | nil => rw [List.nil_append, isIdentifier_capitals_iff, Ne, eq_self, not_true, false_or]
  | cons c letters =>
      obtain ⟨-, hlower, hdigit⟩ := isWord_lead raw c (by rw [hlead]; exact List.mem_cons_self ..)
      rw [hlead] at hword
      refine iff_of_true ⟨List.cons_ne_nil _ _, hword, hdigit, fun hmem => ?_⟩ (.inl (List.cons_ne_nil _ _))
      rw [isLower_reserved _ hmem c (List.mem_cons_self ..)] at hlower
      cases hlower

/-- The name that is used instead of a blank one is an identifier. -/
theorem isIdentifier_fallback : IsIdentifier (capitalize fallback) :=
  (isIdentifier_iff (isWord_capitalize fallback)).mpr (by decide +kernel)

/-- **The name is an identifier** just if the configured one can be made one. -/
theorem isIdentifier_iff_identifiable (raw : Text) : IsIdentifier (libraryName raw) ↔ Identifiable raw := by
  unfold libraryName
  split
  · next hblank => exact iff_of_true isIdentifier_fallback (.inl ((Text.trim_isEmpty_iff raw).mp hblank))
  · next hblank =>
      rw [Text.trim_isEmpty_iff] at hblank
      rw [isIdentifier_capitalize_iff, Identifiable, or_iff_right hblank]

/-! ## Root files -/

/-- The tokens are the statements that pass everything on from `path` and rebind its default under an
    identifier. -/
def Rebinds (path : Text) (tokens : List Text) : Prop :=
  ∃ name, IsIdentifier name ∧ tokens = ["export".toList, ['*'], "from".toList, '\'' :: path ++ ['\''],
    "import".toList, name, "from".toList, '\'' :: path ++ ['\''], "export".toList, "default".toList, name]

/-- A run of identifier characters is one lexeme, if it is there. -/
def single (w : Text) : List Text := if w = [] then [] else [w]

open Import (lexemes tokens isIdent)

/-- Word characters can stand in an identifier. -/
theorem isIdent_of_isWord {c : Char} (h : isWord c = true) : isIdent c = true :=
  forall_isWord (p := fun c => isIdent c = true) (by decide) h

/-- A run of word characters is one lexeme. -/
theorem lexemes_single {w t : Text} (hw : ∀ c ∈ w, isWord c = true) (ht : Import.Breaks t) :
    lexemes (w ++ t) = single w ++ lexemes t := by
  unfold single
  split
  · next hnil => rw [hnil]; rfl
  · next hne => exact Import.lexemes_word hne (fun c hc => isIdent_of_isWord (hw c hc)) ht

/-- No comment starts with a word character. -/
theorem not_isComment_of_isWord {c : Char} (h : isWord c = true) (t : Text) : Import.isComment (c :: t) = false := by
  have hne : c ≠ '/' := forall_isWord (p := fun c => c ≠ '/') (by decide) h
  unfold Import.isComment
  split
  · next heq => exact absurd (List.cons.inj heq).1 hne
  · rfl

/-- No blank is a word character. -/
theorem not_isSpace_of_isWord {c : Char} (h : isWord c = true) (t : Text) : Import.isSpace (c :: t) = false := by
  cases t with
  | nil => exact forall_isWord (p := fun c => Text.isAsciiBlank c = false) (by decide) h
  | cons d t => rfl

/-- A run of word characters is one token. -/
theorem tokens_single {w : Text} (hw : ∀ c ∈ w, isWord c = true) : tokens (single w) = single w := by
  unfold single
  split
  · rfl
  · next hne =>
      obtain ⟨c, u, rfl⟩ := List.exists_cons_of_ne_nil hne
      have hc : isWord c = true := hw c (List.mem_cons_self ..)
      rw [tokens, List.filter_cons_of_pos (by rw [not_isComment_of_isWord hc, not_isSpace_of_isWord hc]; rfl)]
      rfl

section

variable {path : Text} (hpath : ∀ c ∈ path, Import.Quote.single.admits c)

include hpath

/-- The tokens of a root file with a default. -/
theorem tokens_indexContent {name : Text} (hname : ∀ c ∈ name, isWord c = true) :
    tokens (lexemes (indexContent path (some name))) =
      ["export".toList, ['*'], "from".toList, '\'' :: path ++ ['\''], "import".toList] ++ single name ++
        ["from".toList, '\'' :: path ++ ['\''], "export".toList, "default".toList] ++ single name := by
  have htext : indexContent path (some name) = "export * from '" ++ path ++ "'\n" ++
      (Import.Keyword.importing.text ++ ' ' :: (name ++ (" from '" ++ path ++ "'\n" ++
        (Import.Keyword.exporting.text ++ ' ' :: (Import.defaultWord.text ++ ' ' :: (name ++ ['\n'])))))) := by
    have hsplit : ("'\nexport default " : Text) = "'\n" ++
        (Import.Keyword.exporting.text ++ ' ' :: (Import.defaultWord.text ++ [' '])) := rfl
    unfold indexContent
    rw [hsplit]
    simp only [List.append_assoc, List.cons_append, List.nil_append]
    rfl
  have hline (t : Text) : Import.Breaks (" from '" ++ path ++ "'\n" ++ t) := by
    show Import.Breaks (' ' :: ("from '" ++ path ++ "'\n" ++ t))
    exact Import.breaks_cons.mpr (by decide)
  have hspace (t : Text) : Import.Breaks (' ' :: t) := Import.breaks_cons.mpr (by decide)
  rw [htext, Import.lexemes_all hpath, Import.lexemes_keyword .importing (hspace _), Import.lexemes_mark (by decide),
    lexemes_single hname (hline _), Import.lexemes_source hpath, Import.lexemes_keyword .exporting (hspace _),
    Import.lexemes_mark (by decide), Import.lexemes_word Import.defaultWord.nonempty Import.defaultWord.ident (hspace _),
    Import.lexemes_mark (by decide), lexemes_single hname (Import.breaks_cons.mpr (by decide)),
    Import.lexemes_mark (by decide), Import.lexemes_nil]
  have hall : tokens [Import.Keyword.exporting.text, [' '], ['*'], [' '], Import.fromWord.text, [' ']]
      = ["export".toList, ['*'], "from".toList] := rfl
  have hfrom : tokens [[' '], Import.fromWord.text, [' ']] = ["from".toList] := rfl
  have himport : tokens [Import.Keyword.importing.text, [' ']] = ["import".toList] := rfl
  have hdefault : tokens [Import.Keyword.exporting.text, [' '], Import.defaultWord.text, [' ']]
      = ["export".toList, "default".toList] := rfl
  have hend : tokens [['\n']] = [] := rfl
  show tokens (_ ++ ([Import.Keyword.importing.text, [' ']] ++ (single name ++ (_ ++
    ([Import.Keyword.exporting.text, [' '], Import.defaultWord.text, [' ']] ++ (single name ++ [['\n']])))))) = _
  simp only [Import.tokens_append, Import.tokens_source, tokens_single hname, hall, hfrom, himport, hdefault, hend]
  simp only [Import.text_singleQuoted, List.append_assoc, List.cons_append, List.nil_append, List.append_nil]

end

/-- The written index rebinds the default just if the name is an identifier. -/
theorem rebinds_iff {path name : Text} (hpath : ∀ c ∈ path, Import.Quote.single.admits c)
    (hname : ∀ c ∈ name, isWord c = true) :
    Rebinds path (tokens (lexemes (indexContent path (some name)))) ↔ IsIdentifier name := by
  rw [tokens_indexContent hpath hname]
  constructor
  · rintro ⟨n, hn, htokens⟩
    -- Without a name two tokens are missing.
    have hne : name ≠ [] := by
      rintro rfl
      exact absurd (congrArg List.length htokens) (by simp [single])
    rw [single, if_neg hne] at htokens
    simp only [List.cons_append, List.nil_append, List.cons.injEq] at htokens
    exact htokens.2.2.2.2.2.1 ▸ hn
  · intro hn
    rw [single, if_neg hn.nonempty]
    exact ⟨name, hn, rfl⟩

/-- **Which library names are identifiers.** A library name has word characters only.  It is an identifier, and
    the root file that rebinds a default under it is made of statements, exactly for the texts that are blank,
    that begin with a letter whose upper case has letters of ASCII, or whose first word character is no digit
    and whose word characters spell no reserved word in lower case. -/
theorem isIdentifier_libraryName_iff (raw : Text) :
    (∀ c ∈ libraryName raw, isWord c = true) ∧
      (IsIdentifier (libraryName raw) ↔ Identifiable raw) ∧
      ∀ path : Text, (∀ c ∈ path, Import.Quote.single.admits c) →
        (Rebinds path (tokens (lexemes (indexContent path (some (libraryName raw))))) ↔ Identifiable raw) := by
  have hword : ∀ c ∈ libraryName raw, isWord c = true := isWord_capitalize _
  have hname := isIdentifier_iff_identifiable raw
  exact ⟨hword, hname, fun path hpath => (rebinds_iff hpath hword).trans hname⟩

/-- The mark in front keeps the first word character as it is, but the hyphen does not. -/
theorem isIdentifier_libraryName_behind_mark :
    (∀ c ∈ ("./index" : Text), Import.Quote.single.admits c) ∧ Identifiable "@-class" ∧
      (∀ c ∈ libraryName "@-class", isWord c = true) ∧
      (IsIdentifier (libraryName "@-class") ↔ Identifiable "@-class") ∧
      (Rebinds "./index" (tokens (lexemes (indexContent "./index" (some (libraryName "@-class"))))) ↔
        Identifiable "@-class") := by
  have hpath : ∀ c ∈ ("./index" : Text), Import.Quote.single.admits c := by decide
  obtain ⟨hword, hname, hlines⟩ := isIdentifier_libraryName_iff "@-class"
  have hcapital : Capitalizes true "@-class" := .inr ⟨'-', 'c', rfl, rfl, "@", "lass", rfl⟩
  exact ⟨hpath, .inr (.inr ⟨⟨'c', rfl, rfl⟩, fun _ => hcapital⟩), hword, hname, hlines "./index" hpath⟩

/-- Names that are no identifiers: nothing but marks, a digit in front, and a reserved word behind a mark. -/
theorem libraryName_not_identifier :
    (libraryName "@" = [] ∧ ¬ IsIdentifier (libraryName "@")) ∧
      (libraryName "3d-force" = "3dForce" ∧ ¬ IsIdentifier (libraryName "3d-force")) ∧
      libraryName "@class" = "class" ∧ ¬ IsIdentifier (libraryName "@class") := by
  have hempty : libraryName "@" = [] := by decide
  have hdigit : libraryName "3d-force" = "3dForce" := by decide
  have hreserved : libraryName "@class" = "class" := by decide
  refine ⟨⟨hempty, fun h => h.nonempty hempty⟩, ⟨hdigit, fun h => ?_⟩, hreserved, fun h => ?_⟩
  · have hstart := h.start
    rw [hdigit] at hstart
    exact absurd hstart (by decide)
  · have hfree := h.free
    rw [hreserved] at hfree
    exact hfree (by decide)

end Typings.LibraryName
