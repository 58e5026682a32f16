import Typings.Proofs.Import.StaticSite

/-!
# `Completeness` — every written site is found

Scanning takes the items of a text one by one, whatever follows them: an item with a site becomes that
site with the texts around it, and any other item is passed over (`scanFrom_line`).  So a scanned text
is cut exactly at the sites of its items (`scan_render`), and the byte ranges follow by counting.

* `Skips a`: scanning passes over the text `a`.
* `Item.pieces?`, `Item.onto`: the cut that an item makes.
* `located_scan_render`: the sites that are found are those of the items, in order.
-/

namespace Typings.Import

/-! ## Texts without sites -/

/-- Scanning passes over the text. -/
def Skips (a : Text) : Prop :=
  ∀ (property : Bool) (t : Text), Breaks t →
    scanFrom property (a ++ t) = (scanFrom false t).prepend a

/-- Two texts that are passed over are passed over together, if no word of the first runs on into the second. -/
theorem Skips.append {a b : Text} (ha : Skips a) (hb : Skips b) (hne : b ≠ []) (hbr : Breaks b) :
    Skips (a ++ b) := by
  intro property t ht
  rw [List.append_assoc, ha property _ (breaks_append hne hbr), hb false t ht,
    Segments.prepend_prepend]

/-- A word that is no keyword is passed over. -/
theorem skips_word (w : Word) : Skips w.text := fun _ _ ht => scanFrom_word w ht

/-- A mark but the dot is passed over and leaves no property behind it. -/
theorem skips_mark {c : Char} (h : isMark c = true) (hd : c ≠ '.') : Skips [c] := by
  intro property t _
  rw [List.singleton_append, scanFrom_mark h, beq_eq_false_iff_ne.mpr hd]

/-- A mark in front; nothing runs into it. -/
theorem Skips.cons {c : Char} {a : Text} (ha : Skips a) (h : isMark c = true) (hd : c ≠ '.') :
    Skips (c :: a) := by
  intro property t ht
  rw [List.cons_append, scanFrom_mark h, beq_eq_false_iff_ne.mpr hd, ha false t ht,
    Segments.prepend_prepend]
  rfl

/-- Two texts with a blank between them are passed over. -/
theorem Skips.spaced {a b : Text} (ha : Skips a) (hb : Skips b) : Skips (a ++ ' ' :: b) :=
  ha.append (hb.cons (by decide) (by decide)) (by simp) (breaks_cons.mpr (by decide))

/-- The word `type`. -/
def typeWord : Word := ⟨"type", by decide, List.all_eq_true.mp (by decide), by decide, by decide⟩

/-- The word `as`. -/
def asWord : Word := ⟨"as", by decide, List.all_eq_true.mp (by decide), by decide, by decide⟩

/-- Bindings are passed over: outside a clause they are only words. -/
theorem skips_binding (b : Binding) : Skips b.text := by
  obtain ⟨typed, n, renamed⟩ := b
  have hname : Skips (modifier typed ++ n.text) := by
    cases typed with
    | false => exact skips_word n.toWord
    | true => exact (skips_word typeWord).spaced (skips_word n.toWord)
  cases renamed with
  | none => simpa [Binding.text_kept] using hname
  | some m =>
      have h := (hname.spaced (skips_word asWord)).spaced (skips_word m.toWord)
      simpa [Binding.text_renamed, asWord] using h

/-- Bindings with commas between them are passed over, up to the closing brace. -/
theorem skips_bindings (bs : List Binding) :
    Skips (List.intercalate ", " (bs.map Binding.text) ++ [' ', '\x7d']) := by
  have hend : Skips [' ', '\x7d'] :=
    (skips_mark (by decide) (by decide)).cons (by decide) (by decide)
  induction bs with
  | nil => exact hend
  | cons b bs ih =>
      cases bs with
      | nil =>
          rw [List.map_singleton, List.intercalate_singleton]
          exact (skips_binding b).append hend (by simp) (breaks_cons.mpr (by decide))
      | cons b' bs =>
          have hcomma : Skips (',' :: ' ' :: _) :=
            (ih.cons (c := ' ') (by decide) (by decide)).cons (by decide) (by decide)
          have h := (skips_binding b).append hcomma (by simp) (breaks_cons.mpr (by decide))
          simpa using h

/-- A list of bindings between braces is passed over. -/
theorem skips_braces (bs : List Binding) : Skips (braces bs) := by
  have h := ((skips_bindings bs).cons (c := ' ') (by decide) (by decide)).cons (c := '\x7b')
    (by decide) (by decide)
  simpa [braces] using h

/-! ## Tokens -/

/-- The end of a line is passed over. -/
theorem scanFrom_ending (property : Bool) (t : Text) :
    scanFrom property (';' :: '\n' :: t) = (scanFrom false t).prepend [';', '\n'] := by
  rw [scanFrom_mark (by decide), scanFrom_mark (by decide), Segments.prepend_prepend]
  rfl

/-- Tokens that stand apart still do without the first one. -/
theorem apart_tail {a : Token} {ts : List Token} (h : apart (a :: ts) = true) : apart ts = true := by
  cases a with
  | word w =>
      cases ts with
      | nil => rfl
      | cons b ts =>
          cases b with
          | word v => exact absurd h Bool.false_ne_true
          | mark c hc => exact h
          | literal l => exact h
  | mark c hc => exact h
  | literal l => exact h

theorem tokensText_cons (a : Token) (ts : List Token) : tokensText (a :: ts) = a.text ++ tokensText ts := rfl

/-- No mark can stand in an identifier. -/
theorem isIdent_of_isMark {c : Char} (h : isMark c = true) : isIdent c = false := by
  simp only [isMark, Bool.and_eq_true, Bool.not_eq_true'] at h
  exact h.1.2

/-- Behind a word comes what ends it. -/
theorem breaks_tokens {w : Word} {ts : List Token} (h : apart (.word w :: ts) = true) {t : Text} (ht : Breaks t) :
    Breaks (tokensText ts ++ t) := by
  cases ts with
  | nil => exact ht
  | cons a ts =>
      cases a with
      | word v => exact absurd h Bool.false_ne_true
      | mark c hc => exact breaks_cons.mpr (isIdent_of_isMark hc)
      | literal l => exact breaks_cons.mpr (isIdent_quote l.quote)

/-- Tokens are passed over one by one.  A dot among them makes the word behind it a property, but that is no
    keyword either way. -/
theorem scanFrom_tokens {ts : List Token} (h : apart ts = true) (property : Bool) (t : Text) :
    scanFrom property (tokensText ts ++ ';' :: '\n' :: t)
      = (scanFrom false t).prepend (tokensText ts ++ [';', '\n']) := by
  induction ts generalizing property with
  | nil => exact scanFrom_ending property t
  | cons a ts ih =>
      have hrest (property : Bool) := ih (apart_tail h) property
      rw [tokensText_cons, List.append_assoc, List.append_assoc, ← Segments.prepend_prepend]
      cases a with
      | word w =>
          rw [Token.text, scanFrom_word w (breaks_tokens h (breaks_cons.mpr (by decide))), hrest]
      | mark c hc =>
          rw [Token.text, List.singleton_append, scanFrom_mark hc, hrest]
      | literal l => rw [Token.text, scanFrom_literal, hrest]

/-! ## Exports without a site -/

/-- Behind `export` there is a site only in front of a clause. -/
theorem exportSite?_of_not_reexports {t : Text} (h : reexports (trivia t).2 = false) :
    exportSite? t = none := by
  simp [exportSite?, h]

/-- An exported declaration is no re-export, nor is one that is named `type`. -/
theorem exportSite?_word (w : Word) {t : Text} (ht : Breaks t) (hn : w.text = "type" → NoClause t) :
    exportSite? (' ' :: (w.text ++ t)) = none := by
  obtain ⟨c, u, hw⟩ := List.exists_cons_of_ne_nil w.nonempty
  have hc : isIdent c = true := w.ident c (by rw [hw]; simp)
  have htr : (trivia (' ' :: (w.text ++ t))).2 = w.text ++ t := by
    rw [trivia_blank (by decide), hw, List.cons_append, trivia_of_isIdent hc]
  refine exportSite?_of_not_reexports ?_
  rw [htr, reexports, word_append_of_breaks w.ident ht]
  by_cases hty : w.text = "type"
  · -- `export type`: what follows the blanks decides.
    rw [if_pos (by rw [beq_iff_eq]; exact hty)]
    have hn := hn hty
    unfold NoClause at hn
    cases hd : t.dropWhile Text.isAsciiBlank with
    | nil => rfl
    | cons d u =>
        rw [hd] at hn
        exact hn d rfl
  · have h1 : (c == '\x7b') = false := beq_eq_false_iff_ne.mpr (ne_of_isIdent hc (by decide))
    have h2 : (c == '*') = false := beq_eq_false_iff_ne.mpr (ne_of_isIdent hc (by decide))
    rw [if_neg (by rw [beq_iff_eq]; exact hty), hw, List.cons_append]
    simp [h1, h2]

/-- No clause starts behind a text that starts none itself. -/
theorem NoClause.append {a t : Text} (ha : NoClause a) (ht : NoClause t) : NoClause (a ++ t) := by
  unfold NoClause at ha ht ⊢
  rw [List.dropWhile_append]
  split
  · exact ht
  · next hne =>
      intro c hc
      obtain ⟨d, u, hd⟩ := List.exists_cons_of_ne_nil (fun h => hne (List.isEmpty_iff.mpr h))
      rw [hd] at ha hc
      exact ha c hc

/-- The declaration without its `export` and without the end of its line. -/
def PlainDeclaration.text (d : PlainDeclaration) : Text := d.first.text ++ tokensText d.tokens

theorem PlainDeclaration.text_eq (d : PlainDeclaration) :
    d.text = tokensText (.word d.first :: d.tokens) := rfl

/-- An exported declaration has no site behind its `export`. -/
theorem exportSite?_declared {d : PlainDeclaration} (hd : d.exported = true) (t : Text) :
    exportSite? (' ' :: (d.text ++ ';' :: t)) = none := by
  rw [PlainDeclaration.text, List.append_assoc]
  refine exportSite?_word d.first (breaks_tokens d.words_apart (breaks_cons.mpr (by decide))) fun htype => ?_
  refine (d.named hd htype).append ?_
  rintro c hc
  obtain rfl : ';' = c := by simpa [Text.isAsciiBlank] using hc
  rfl

/-- Exported names without a `from`: the semicolon is no part of a clause. -/
theorem exportSite?_names (bs : List Binding) (t : Text) :
    exportSite? (' ' :: (braces bs ++ ';' :: t)) = none := by
  have hb : Breaks (';' :: t) := breaks_cons.mpr (by decide)
  have htr := (ClauseStart.brace _).trivia_modified (a := braces bs) false (';' :: t)
  have hm := typeModifier_modifier (a := braces bs) false (.brace _) hb
  have hsemi : readClause? 0 true (';' :: t) = none := by
    rw [readClause?_of_trivia (trivia_of_token (by decide) (by decide))]
    rfl
  have hr : readClause? 0 false (braces bs ++ ';' :: t) = none := by
    rw [reads_braces false bs 0 _ hb, hsemi]
    rfl
  rw [show modifier false = [] from rfl, List.nil_append] at htr hm
  simp only [exportSite?, htr, staticSite?, hm]
  simp [hr]

/-! ## The cut that an item makes -/

/-- The site of an import for its effects alone, with the end of its line. -/
def sideEffectSite (q : Literal) : Site where
  kind := .sideEffect
  keyword := .importing
  typeOnly := false
  head := "import " ++ [q.quote.char]
  clause := []
  link := []
  specifier := q.body
  tail := q.quote.char :: ";\n"

/-- The site of an import in place. -/
def dynamicSite (q : Literal) : Site where
  kind := .dynamic
  keyword := .importing
  typeOnly := false
  head := "import(" ++ [q.quote.char]
  clause := []
  link := []
  specifier := q.body
  tail := [q.quote.char, ')']

/-- The site in the line of an item, with the texts before and after it. -/
def Item.pieces? : Item → Option (Text × Site × Text)
  | .importFrom ty c q => some ([], clauseSite .importing ty c.text q, ";\n")
  | .exportFrom ty c q => some ([], clauseSite .exporting ty c.text q, ";\n")
  | .sideEffect q => some ([], sideEffectSite q, [])
  | .reference n q m => some (referenceHead n, dynamicSite q, "." ++ m.text ++ ";\n")
  | _ => none

/-- Segments with the line of an item in front. -/
def Item.onto (i : Item) (s : Segments) : Segments :=
  match i.pieces? with
  | some (before, site, after) => ((s.prepend after).consSite site).prepend before
  | none => s.prepend i.line

/-- An item with a site puts it in front of the segments, with the texts around it. -/
theorem Item.onto_of_some {i : Item} {before after : Text} {site : Site}
    (h : i.pieces? = some (before, site, after)) (s : Segments) :
    i.onto s = ((s.prepend after).consSite site).prepend before := by
  rw [Item.onto, h]

/-- An item without a site puts its line in front of the segments. -/
theorem Item.onto_of_none {i : Item} (h : i.pieces? = none) (s : Segments) :
    i.onto s = s.prepend i.line := by
  rw [Item.onto, h]

/-- A line without a site is passed over. -/
theorem Skips.scanFrom_line {a : Text} (ha : Skips a) (t : Text) :
    scanFrom false (a ++ ';' :: '\n' :: t) = (scanFrom false t).prepend (a ++ [';', '\n']) := by
  rw [ha false _ (breaks_cons.mpr (by decide)), scanFrom_ending, Segments.prepend_prepend]

/-- After an `export` without a site, the rest of the line is passed over as well. -/
theorem scanFrom_export_line {a t : Text}
    (ha : scanFrom false (a ++ ';' :: '\n' :: t) = (scanFrom false t).prepend (a ++ [';', '\n']))
    (h : exportSite? (' ' :: (a ++ ';' :: '\n' :: t)) = none) :
    scanFrom false ("export " ++ (a ++ ';' :: '\n' :: t))
      = (scanFrom false t).prepend ("export " ++ (a ++ [';', '\n'])) := by
  have hk := scanFrom_keyword_of_none .exporting (breaks_cons.mpr (by decide)) h
  rw [show ("export " ++ (a ++ ';' :: '\n' :: t) : Text)
      = Keyword.exporting.text ++ ' ' :: (a ++ ';' :: '\n' :: t) from rfl,
    hk, scanFrom_mark (by decide), show (' ' == '.') = false from rfl, ha,
    Segments.prepend_prepend, Segments.prepend_prepend]
  rfl

/-- Behind `import` a string alone is an import for its effects, with the end of its line. -/
theorem importSite?_sideEffect (q : Literal) (t : Text) :
    importSite? (' ' :: (q.text ++ ';' :: '\n' :: t)) = some (sideEffectSite q, t) := by
  have htr : trivia (' ' :: (q.text ++ ';' :: '\n' :: t)) = ([' '], q.text ++ ';' :: '\n' :: t) := by
    rw [trivia_blank (by decide), trivia_literal]
  have hq := quoted?_literal q (';' :: '\n' :: t)
  have hparen : (q.quote.char == '(') = false := by cases q.quote <;> rfl
  have hside : sideEffectSite? ("import ") (q.text ++ ';' :: '\n' :: t)
      = some (sideEffectSite q, t) := by
    simp [sideEffectSite?, hq, statementEnd, semicolon, lineBreak, sideEffectSite]
  rw [Literal.text, List.cons_append, List.cons_append] at htr hside ⊢
  simp only [importSite?, htr, hparen, isQuote_char]
  exact hside

/-- Behind `import` a string in parentheses is a dynamic import. -/
theorem importSite?_dynamic (q : Literal) (t : Text) :
    importSite? ('(' :: (q.text ++ ')' :: t)) = some (dynamicSite q, t) := by
  have htr : trivia ('(' :: (q.text ++ ')' :: t)) = ([], '(' :: (q.text ++ ')' :: t)) :=
    trivia_of_token (by decide) (by decide)
  have hend : trivia (')' :: t) = ([], ')' :: t) := trivia_of_token (by decide) (by decide)
  have hdyn : dynamicSite? "import(" (q.text ++ ')' :: t) = some (dynamicSite q, t) := by
    simp [dynamicSite?, trivia_literal, quoted?_literal, hend, dynamicSite]
  simp only [importSite?, htr, beq_self_eq_true]
  exact hdyn

/-- The word `declare`. -/
def declareWord : Word :=
  ⟨"declare", by decide, List.all_eq_true.mp (by decide), by decide, by decide⟩

/-- The word `const`. -/
def constWord : Word :=
  ⟨"const", by decide, List.all_eq_true.mp (by decide), by decide, by decide⟩

theorem referenceHead_words (n : Name) :
    Item.referenceHead n
      = Keyword.exporting.text ++ ' ' :: (declareWord.text ++ ' ' :: (constWord.text ++ ' ' :: n.text)
          ++ [':', ' ']) := by
  rw [Item.referenceHead_eq]
  rfl

/-- Scanning passes over all that a reference has in front of its `import`. -/
theorem scanFrom_referenceHead (n : Name) (t : Text) :
    scanFrom false (Item.referenceHead n ++ t) = (scanFrom false t).prepend (Item.referenceHead n) := by
  have hsite : siteAfter? .exporting
      (' ' :: (declareWord.text ++ ' ' :: (constWord.text ++ ' ' :: n.text) ++ ':' :: ' ' :: t)) = none := by
    have hbreaks : Breaks (' ' :: (constWord.text ++ ' ' :: n.text) ++ ':' :: ' ' :: t) :=
      breaks_cons.mpr (by decide)
    rw [List.append_assoc]
    exact exportSite?_word declareWord hbreaks fun h => absurd h (by decide)
  have hwords := (skips_word declareWord).spaced ((skips_word constWord).spaced (skips_word n.toWord))
  rw [referenceHead_words, List.append_assoc, List.cons_append, List.append_assoc, List.cons_append,
    List.cons_append, List.nil_append, scanFrom_keyword_of_none .exporting (breaks_cons.mpr (by decide)) hsite,
    scanFrom_mark (by decide), hwords _ _ (breaks_cons.mpr (by decide)), scanFrom_mark (by decide),
    scanFrom_mark (by decide)]
  simp only [show (' ' == '.') = false from rfl, Segments.prepend_prepend, List.append_assoc, List.cons_append,
    List.nil_append]

/-- **An import** is found by scanning, whatever follows its line. -/
theorem scanFrom_importFrom (ty : Bool) (c : ImportClause) (q : Literal) (t : Text) :
    scanFrom false ((Item.importFrom ty c q).line ++ t)
      = (Item.importFrom ty c q).onto (scanFrom false t) := by
  have hsite : siteAfter? .importing
      (' ' :: (modifier ty ++ (c.text ++ (" from " ++ (q.text ++ (';' :: '\n' :: t))))))
      = some (clauseSite .importing ty c.text q, ';' :: '\n' :: t) :=
    importSite?_clause ty q _ c.start c.reads
  have h := scanFrom_keyword_of_some .importing (breaks_cons.mpr (by decide)) hsite
  rw [scanFrom_ending] at h
  rw [Item.onto_of_some rfl, Segments.prepend_nil, Item.line_importFrom]
  simp only [List.append_assoc, import_append]
  exact h

/-- **A re-export** is found by scanning, whatever follows its line. -/
theorem scanFrom_exportFrom (ty : Bool) (c : ExportClause) (q : Literal) (t : Text) :
    scanFrom false ((Item.exportFrom ty c q).line ++ t)
      = (Item.exportFrom ty c q).onto (scanFrom false t) := by
  have hsite : siteAfter? .exporting
      (' ' :: (modifier ty ++ (c.text ++ (" from " ++ (q.text ++ (';' :: '\n' :: t))))))
      = some (clauseSite .exporting ty c.text q, ';' :: '\n' :: t) :=
    exportSite?_clause ty c q _
  have h := scanFrom_keyword_of_some .exporting (breaks_cons.mpr (by decide)) hsite
  rw [scanFrom_ending] at h
  rw [Item.onto_of_some rfl, Segments.prepend_nil, Item.line_exportFrom]
  simp only [List.append_assoc, export_append]
  exact h

/-- **An import for its effects** is found by scanning, whatever follows its line. -/
theorem scanFrom_sideEffect (q : Literal) (t : Text) :
    scanFrom false ((Item.sideEffect q).line ++ t)
      = (Item.sideEffect q).onto (scanFrom false t) := by
  have hsite : siteAfter? .importing (' ' :: (q.text ++ ';' :: '\n' :: t))
      = some (sideEffectSite q, t) := importSite?_sideEffect q t
  have h := scanFrom_keyword_of_some .importing (breaks_cons.mpr (by decide)) hsite
  rw [Item.onto_of_some rfl, Segments.prepend_nil, Segments.prepend_nil, Item.line_sideEffect]
  simp only [List.append_assoc, import_append]
  exact h

/-- **A reference** is found by scanning, with what stands in front of its `import` passed over. -/
theorem scanFrom_reference (n : Name) (q : Literal) (m : Name) (t : Text) :
    scanFrom false ((Item.reference n q m).line ++ t)
      = (Item.reference n q m).onto (scanFrom false t) := by
  have hsite : siteAfter? .importing
      ('(' :: (q.text ++ ')' :: ('.' :: (m.text ++ ';' :: '\n' :: t))))
      = some (dynamicSite q, '.' :: (m.text ++ ';' :: '\n' :: t)) := importSite?_dynamic q _
  have h := scanFrom_keyword_of_some .importing (breaks_cons.mpr (by decide)) hsite
  -- The member is a property: it is passed over although a dot stands before it.
  have hm : scanFrom false ('.' :: (m.text ++ ';' :: '\n' :: t))
      = (scanFrom false t).prepend ('.' :: (m.text ++ [';', '\n'])) := by
    rw [scanFrom_mark (by decide), scanFrom_word m.toWord (breaks_cons.mpr (by decide)),
      scanFrom_ending, Segments.prepend_prepend, Segments.prepend_prepend]
    rfl
  rw [hm] at h
  rw [Item.onto_of_some rfl, Item.line_reference]
  simp only [List.append_assoc, scanFrom_referenceHead]
  exact congrArg _ h

/-- **One item at a time.** Scanning a text that starts with the line of an item makes the item's cut and
    goes on with the rest, whatever it is. -/
theorem scanFrom_line (i : Item) (t : Text) :
    scanFrom false (i.line ++ t) = i.onto (scanFrom false t) := by
  cases i with
  | importFrom ty c q => exact scanFrom_importFrom ty c q t
  | exportFrom ty c q => exact scanFrom_exportFrom ty c q t
  | sideEffect q => exact scanFrom_sideEffect q t
  | reference n q m => exact scanFrom_reference n q m t
  | exportNames bs =>
      have h := scanFrom_export_line ((skips_braces bs).scanFrom_line t) (exportSite?_names bs _)
      rw [Item.onto_of_none rfl, Item.line_exportNames]
      simpa using h
  | declaration d =>
      have hd := scanFrom_tokens d.words_apart false t
      rw [← d.text_eq] at hd
      rw [Item.onto_of_none rfl, Item.line_declaration, ← PlainDeclaration.text]
      cases hex : d.exported with
      | false => simpa using hd
      | true => simpa using scanFrom_export_line hd (exportSite?_declared hex _)
  | lineComment c hc =>
      have h := scanFrom_comment false (lexeme_lineComment (t := t) hc)
      rw [scanFrom_mark (by decide), Segments.prepend_prepend] at h
      rw [Item.onto_of_none rfl, Item.line_lineComment]
      simpa using h
  | blockComment c hc =>
      have h := scanFrom_comment false (a := c ++ ['*', '/'])
        (by simpa using lexeme_blockComment (t := '\n' :: t) hc)
      rw [scanFrom_mark (by decide), Segments.prepend_prepend] at h
      rw [Item.onto_of_none rfl, Item.line_blockComment]
      simpa using h

/-- The text of a list of items is cut exactly at the sites of the items. -/
theorem scan_render (items : List Item) : scan (render items) = items.foldr Item.onto ⟨[], []⟩ := by
  unfold scan
  induction items with
  | nil => rw [show render [] = [] from rfl, scanFrom, dif_pos rfl]; rfl
  | cons i items ih =>
      rw [render, List.flatMap_cons, scanFrom_line, ← render, ih]
      rfl

/-! ## Where the sites are -/

namespace Segments

/-- A text in front moves the places of all sites by its size. -/
theorem go_prepend (offset : Nat) (t : Text) (s : Segments) :
    located.go offset (s.prepend t).sites = located.go (offset + t.byteSize) s.sites := by
  obtain ⟨sites, rest⟩ := s
  cases sites with
  | nil => rfl
  | cons p sites => simp [prepend, located.go, Nat.add_assoc]

/-- A site in front is at the offset, and moves the others by its size. -/
theorem go_consSite (offset : Nat) (site : Site) (s : Segments) :
    located.go offset (s.consSite site).sites
      = site.locate offset :: located.go (offset + site.text.byteSize) s.sites := rfl

end Segments

theorem text_clauseSite_import (ty : Bool) (c : ImportClause) (q : Literal) :
    (clauseSite .importing ty c.text q).text = (Item.importFrom ty c q).text := by
  have ht : (Item.importFrom ty c q).text
      = Keyword.importing.text ++ ' ' :: (modifier ty ++ c.text ++ " from " ++ q.text) := by
    rw [← import_append]
    simp [Item.text_importFrom]
  rw [ht]
  simp [clauseSite, Site.text, Literal.text]

theorem text_clauseSite_export (ty : Bool) (c : ExportClause) (q : Literal) :
    (clauseSite .exporting ty c.text q).text = (Item.exportFrom ty c q).text := by
  have ht : (Item.exportFrom ty c q).text
      = Keyword.exporting.text ++ ' ' :: (modifier ty ++ c.text ++ " from " ++ q.text) := by
    rw [← export_append]
    simp [Item.text_exportFrom]
  rw [ht]
  simp [clauseSite, Site.text, Literal.text]

theorem text_sideEffectSite (q : Literal) : (sideEffectSite q).text = (Item.sideEffect q).line := by
  simp [sideEffectSite, Site.text, Item.line_sideEffect, Literal.text]

theorem text_dynamicSite (q : Literal) : (dynamicSite q).text = "import(" ++ q.text ++ ")" := by
  simp [dynamicSite, Site.text, Literal.text]

/-- The pieces of an item make up its line. -/
theorem Item.line_of_pieces {i : Item} {before after : Text} {site : Site}
    (h : i.pieces? = some (before, site, after)) : i.line = before ++ site.text ++ after := by
  cases i with
  | importFrom ty c q =>
      cases Option.some.inj h
      rw [text_clauseSite_import]
      rfl
  | exportFrom ty c q =>
      cases Option.some.inj h
      rw [text_clauseSite_export]
      rfl
  | sideEffect q =>
      cases Option.some.inj h
      rw [text_sideEffectSite, List.nil_append, List.append_nil]
  | reference n q m =>
      cases Option.some.inj h
      rw [text_dynamicSite, Item.line_reference]
      simp
  | exportNames bs => exact absurd h (by simp [Item.pieces?])
  | declaration d => exact absurd h (by simp [Item.pieces?])
  | lineComment t ht => exact absurd h (by simp [Item.pieces?])
  | blockComment t ht => exact absurd h (by simp [Item.pieces?])

/-- What is to be found in an item is the site of its pieces. -/
theorem Item.found?_eq (i : Item) (offset : Nat) :
    i.found? offset
      = i.pieces?.map fun p => (p.2.1.locate (offset + Text.byteSize p.1)).found := by
  cases i with
  | importFrom ty c q =>
      exact congrArg (fun t => some (Found.mk .static .importing ty c.text q.body (.at offset t)))
        (text_clauseSite_import ty c q).symm
  | exportFrom ty c q =>
      exact congrArg (fun t => some (Found.mk .static .exporting ty c.text q.body (.at offset t)))
        (text_clauseSite_export ty c q).symm
  | sideEffect q =>
      exact congrArg (fun t => some (Found.mk .sideEffect .importing false [] q.body (.at offset t)))
        (text_sideEffectSite q).symm
  | reference n q m =>
      exact congrArg (fun t => some (Found.mk .dynamic .importing false [] q.body
        (.at (offset + (referenceHead n).byteSize) t))) (text_dynamicSite q).symm
  | exportNames bs => rfl
  | declaration d => rfl
  | lineComment t ht => rfl
  | blockComment t ht => rfl

/-- The sites of segments with an item in front: the item's own, and the others behind its line. -/
theorem found_onto (i : Item) (offset : Nat) (s : Segments) :
    (Segments.located.go offset (i.onto s).sites).map Located.found
      = (i.found? offset).toList
        ++ (Segments.located.go (offset + i.line.byteSize) s.sites).map Located.found := by
  rw [Item.found?_eq]
  cases h : i.pieces? with
  | none => rw [Item.onto_of_none h, Segments.go_prepend]; rfl
  | some p =>
      obtain ⟨before, site, after⟩ := p
      rw [Item.onto_of_some h, Segments.go_prepend, Segments.go_consSite, Segments.go_prepend,
        Item.line_of_pieces h, Text.byteSize_append, Text.byteSize_append, ← Nat.add_assoc,
        ← Nat.add_assoc]
      rfl

/-- **Every site is found, and nothing else.** The sites of a text made of items are those of its items:
    one for each import, re-export and reference, in order, each with its kind, keyword, `type`
    modifier, clause, specifier and bytes. -/
theorem located_scan_render (items : List Item) :
    (scan (render items)).located.map Located.found = foundFrom 0 items := by
  have h (offset : Nat) :
      (Segments.located.go offset (items.foldr Item.onto ⟨[], []⟩).sites).map Located.found
        = foundFrom offset items := by
    induction items generalizing offset with
    | nil => rfl
    | cons i items ih =>
        rw [List.foldr_cons, found_onto, ih]
        rfl
  rw [scan_render]
  exact h 0

end Typings.Import
