import Typings.Library.RootFiles
import Typings.Proofs.Import.Lexed
import Typings.Proofs.Library.Imports
import Typings.Resolver.BuiltIn

/-!
# `Defaults` — what root files take for a default

A text exports a default in several ways, with blanks and comments between the words, and `exportsDefault` reads
them off its tokens.  Root files are told of a default by the words `export default` alone, wherever they stand
in the text.  Behind the last character of a comment or a literal, and beside an identifier, the words cannot go
on, so they stand in one lexeme or in three (`infix_iff_lexemes`): either they are the export, or they have
gone astray.  A root file exports a default in just these two cases, and it is right where no words have gone
astray and no default is written in another way (`RootFiles.exportsDefault_insertPlans`).

* `lexemes`, `tokens`, `exportsDefault`: what a text exports.
* `LexemeKind`, `lexeme_kind`: how lexemes end.
* `SpelledOut`, `Astray`: the words as an export, and elsewhere; `hasDefaultExport_iff`.
* `exportsDefault_of_spelledOut`: the words that are one export the default.
-/

namespace Typings

namespace Import

/-! ## The tokens of a text -/

/-- The lexemes of a text, in order. -/
def lexemes (t : Text) : List Text :=
  if _h : t = [] then [] else (lexeme t).1 :: lexemes (lexeme t).2
termination_by t.length
decreasing_by exact lexeme_rest_lt _h

/-- A comment, closed or not. -/
def isComment : Text → Bool
  | '/' :: c :: _ => c == '/' || c == '*'
  | _ => false

/-- A quoted string or a template literal, closed or not. -/
def isLiteral : Text → Bool
  | c :: _ => isQuote c || c == templateMark
  | [] => false

/-- A blank between two words. -/
def isSpace : Text → Bool
  | [c] => Text.isAsciiBlank c
  | _ => false

/-- The lexemes that count: all but blanks and comments. -/
def tokens (ls : List Text) : List Text := ls.filter fun l => !(isComment l || isSpace l)

/-! ## Exports of the default -/

/-- A binding that exports the name `default`: `x as default`, or `default` as another module has it. -/
def bindsDefault (foreign : Bool) (binding : List Text) : Bool :=
  let plain : List Text := ["default"]
  let typed : List Text := ["type", "default"]
  let renamed : List Text := ["as", "default"]
  (foreign && (binding == plain || binding == typed)) || (2 < binding.length && renamed.isSuffixOf binding)

/-- The bindings between braces export the name `default`. -/
def bracesBindDefault : List Text → Bool
  | mark :: rest => mark == "\x7b" &&
    match rest.span fun token => token != ("\x7d" : Text) with
    | (inner, _ :: behind) => (inner.splitOn (",".toList)).any (bindsDefault (behind.head? == some "from"))
    | _ => false
  | [] => false

/-- The tokens behind an `export` export the name `default`. -/
def startsDefault : List Text → Bool
  | token :: rest =>
    token == "default" || bracesBindDefault (if token == "type" then rest else token :: rest)
  | [] => false

/-- Among the tokens is an export of the name `default`; `property` tells that a dot stands before them. -/
def exportsAmong (property : Bool) : List Text → Bool
  | token :: rest =>
    (!property && token == "export" && startsDefault rest) || exportsAmong (token == ".") rest
  | [] => false

/-- The text exports the name `default`, outside comments and literals. -/
def exportsDefault (t : Text) : Bool := exportsAmong false (tokens (lexemes t))

/-! ## How lexemes end -/

theorem lexemes_nil : lexemes [] = [] := by rw [lexemes, dif_pos rfl]

theorem lexemes_cons {a t : Text} (hne : a ≠ []) (h : lexeme (a ++ t) = (a, t)) :
    lexemes (a ++ t) = a :: lexemes t := by
  rw [lexemes, dif_neg (by simp [hne]), h]

theorem flatten_lexemes (t : Text) : (lexemes t).flatten = t := by
  fun_induction lexemes t with
  | case1 => rfl
  | case2 t hne ih => rw [List.flatten_cons, ih, lexeme_append]

/-- A lexeme and the text behind it: a word that ends before the text, a single mark, or a comment or literal that
    goes up to its closing mark, a line feed or the end. -/
inductive LexemeKind (l rest : Text) : Prop where
  | word (hl : ∀ c ∈ l, isIdent c = true) (hrest : Breaks rest)
  | mark (c : Char) (hl : l = [c]) (hc : isIdent c = false)
  | verbatim (hl : (isComment l || isLiteral l) = true)
      (hend : ∀ d ∈ rest.head?, d = '\n' ∨ ∃ front c, l = front ++ [c] ∧ c ∈ ['/', '\'', '"', templateMark])

theorem stringRest_last (q : Char) (t : Text) :
    (∀ d ∈ (stringRest q t).2.head?, d = '\n') ∨ ∃ a, (stringRest q t).1 = a ++ [q] := by
  rcases stringRest_cases q t with ⟨body, rest, -, hclosed⟩ | ⟨hopen, hline⟩
  · exact .inr ⟨body, congrArg Prod.fst hclosed⟩
  · exact .inl (by rwa [hopen])

/-- **How a lexeme ends.** -/
theorem lexeme_kind {t : Text} (hne : t ≠ []) : LexemeKind (lexeme t).1 (lexeme t).2 := by
  fun_cases lexeme t with
  | case1 => exact absurd rfl hne
  | case2 t a b heq =>
      have hhead := List.head?_dropWhile_not (· != '\n') t
      rw [show t.dropWhile (· != '\n') = b from congrArg Prod.snd heq] at hhead
      refine .verbatim rfl fun d hd => .inl ?_
      rw [Option.mem_def.mp hd] at hhead
      simpa using hhead
  | case3 t a b heq =>
      have hlast := blockComment_last t
      rw [heq] at hlast
      rcases hlast with rfl | ⟨front, rfl⟩
      · exact .verbatim rfl (by simp)
      · exact .verbatim rfl fun d _ => .inr ⟨'/' :: '*' :: front, '/', rfl, by simp⟩
  | case4 c t _ _ hq a b heq =>
      have hliteral : (isComment (c :: a) || isLiteral (c :: a)) = true := by simp [isLiteral, hq]
      have hlast := stringRest_last c t
      rw [heq] at hlast
      rcases hlast with hend | ⟨front, rfl⟩
      · exact .verbatim hliteral fun d hd => .inl (hend d hd)
      · have hcases : c = '\'' ∨ c = '"' := by simpa [isQuote] using hq
        refine .verbatim hliteral fun d _ => .inr ⟨c :: front, c, rfl, ?_⟩
        rcases hcases with rfl | rfl <;> simp
  | case5 c t _ _ _ ht a b heq =>
      have hliteral : (isComment (c :: a) || isLiteral (c :: a)) = true := by simp [isLiteral, ht]
      have hlast := templateBody_last t
      rw [heq] at hlast
      rcases hlast with rfl | ⟨front, rfl⟩
      · exact .verbatim hliteral (by simp)
      · exact .verbatim hliteral fun d _ => .inr ⟨c :: front, templateMark, rfl, by simp⟩
  | case6 c t _ _ _ _ hi a b heq =>
      have hbreaks := breaks_word t
      have hword : ∀ d ∈ (word t).1, isIdent d = true := fun d => isIdent_of_mem_word
      rw [heq] at hbreaks hword
      exact .word (List.forall_mem_cons.mpr ⟨hi, hword⟩) hbreaks
  | case7 c t _ _ _ _ hi => exact .mark c rfl (by simpa using hi)

/-! ## Where the words stand -/

/-- The words that root files look for. -/
def defaultWords : Text := "export default"

theorem hasDefaultExport_iff_words (t : Text) : hasDefaultExport t = true ↔ defaultWords <:+: t :=
  Text.hasInfix_iff

theorem prefix_lexeme {w u : Text} (hne : w ≠ []) (hw : ∀ c ∈ w, isIdent c = true) :
    w <+: (lexeme (w ++ u)).1 := by
  obtain ⟨c, v, rfl⟩ := List.exists_cons_of_ne_nil hne
  rw [List.cons_append, lexeme_of_isIdent (hw c (by simp)), List.cons_prefix_cons]
  refine ⟨rfl, ?_⟩
  rw [word, List.takeWhile_append_of_pos fun d hd => hw d (by simp [hd])]
  exact List.prefix_append _ _

/-- The words stand in the first lexeme, which is a comment or a literal then, or between two lexemes at their
    blank, or further on. -/
theorem infix_lexeme {t : Text} (hne : t ≠ []) (h : defaultWords <:+: t) :
    ((isComment (lexeme t).1 || isLiteral (lexeme t).1) = true ∧ defaultWords <:+: (lexeme t).1) ∨
      (Keyword.exporting.text <:+ (lexeme t).1 ∧ ' ' :: defaultWord.text <+: (lexeme t).2) ∨
      defaultWords <:+: (lexeme t).2 := by
  have hkind := lexeme_kind hne
  rw [← lexeme_append t] at h
  generalize (lexeme t).1 = l at h hkind ⊢
  generalize (lexeme t).2 = rest at h hkind ⊢
  have hinside (h : defaultWords <:+: l) : (isComment l || isLiteral l) = true := by
    cases hkind with
    | word hl => exact absurd (hl ' ' (h.subset (by decide))) (by decide)
    | mark c hl =>
        have hlen := h.length_le
        rw [hl] at hlen
        exact absurd (show 14 ≤ 1 from hlen) (by decide)
    | verbatim hl => exact hl
  rcases List.infix_append_iff_ne_nil.mp h with h | h | ⟨a, b, ha, hb, hwords, hla, hrb⟩
  · exact .inl ⟨hinside h, h⟩
  · exact .inr (.inr h)
  · -- The words are parted by the end of the lexeme, so it is that of a word and they are parted at their blank.
    have hmem {c : Char} (hc : c ∈ a ++ b) : c ∈ defaultWords := hwords ▸ hc
    obtain ⟨d, b, rfl⟩ := List.exists_cons_of_ne_nil hb
    have hhead : rest.head? = some d := by
      obtain ⟨u, rfl⟩ := hrb
      rfl
    refine .inr (.inl ?_)
    cases hkind with
    | word hl hrest =>
        have hbreaks : Breaks (d :: b) := breaks_cons.mpr (hrest d hhead)
        have hparted := word_append_of_breaks (fun c hc => hl c (hla.subset hc)) hbreaks
        rw [← hwords] at hparted
        have hcut : word defaultWords = (Keyword.exporting.text, ' ' :: defaultWord.text) := by decide
        obtain ⟨hfront, hback⟩ := Prod.mk.inj (hparted.symm.trans hcut)
        exact ⟨hfront ▸ hla, hback ▸ hrb⟩
    | mark c hl hc =>
        subst hl
        obtain rfl : a = [c] := (List.suffix_cons_iff.mp hla).resolve_right
          fun h => ha (List.suffix_nil.mp h)
        obtain rfl : c = 'e' := (List.cons.inj hwords).1.symm
        exact absurd hc (by decide)
    | verbatim _ hend =>
        have hplain : ∀ c ∈ defaultWords, c ∉ ['\n', '/', '\'', '"', templateMark] := by decide
        rcases hend d hhead with rfl | ⟨front, c, rfl, hc⟩
        · exact absurd (List.mem_cons_self) (hplain '\n' (hmem (by simp)))
        · have hlast : c ∈ a := by
            obtain ⟨u, hu⟩ := hla
            rcases List.eq_nil_or_concat a with rfl | ⟨v, e, rfl⟩
            · exact absurd rfl ha
            · rw [List.concat_eq_append, ← List.append_assoc] at hu
              obtain rfl : e = c := by simpa using (List.append_inj' hu rfl).2
              simp
          exact absurd (List.mem_cons_of_mem _ hc) (hplain c (hmem (List.mem_append_left _ hlast)))

/-- **Where the words stand**: in a comment or a literal, or in three lexemes, the blank and what is beside it. -/
theorem infix_iff_lexemes (t : Text) : defaultWords <:+: t ↔
    (∃ l ∈ lexemes t, (isComment l || isLiteral l) = true ∧ defaultWords <:+: l) ∨
      ∃ front w w' back, lexemes t = front ++ w :: [' '] :: w' :: back ∧
        Keyword.exporting.text <:+ w ∧ defaultWord.text <+: w' := by
  constructor
  · intro h
    fun_induction lexemes t with
    | case1 => exact absurd (List.infix_nil.mp h) (by decide)
    | case2 t hne ih =>
        rcases infix_lexeme hne h with ⟨hverbatim, hl⟩ | ⟨hl, hrest⟩ | hrest
        · exact .inl ⟨_, List.mem_cons_self, hverbatim, hl⟩
        · -- Behind the lexeme that the first word ends, the blank is one and the second word starts the next.
          obtain ⟨u, hu⟩ := hrest
          have hblank : lexemes (lexeme t).2 = [' '] :: lexemes (defaultWord.text ++ u) := by
            rw [← hu]
            exact lexemes_cons (a := [' ']) (List.cons_ne_nil _ _) (lexeme_mark (by decide))
          have hword : lexemes (defaultWord.text ++ u) = (lexeme (defaultWord.text ++ u)).1 ::
              lexemes (lexeme (defaultWord.text ++ u)).2 := by
            rw [lexemes, dif_neg (List.append_ne_nil_of_left_ne_nil defaultWord.nonempty u)]
          refine .inr ⟨[], (lexeme t).1, (lexeme (defaultWord.text ++ u)).1,
            lexemes (lexeme (defaultWord.text ++ u)).2, ?_, hl,
            prefix_lexeme defaultWord.nonempty defaultWord.ident⟩
          rw [hblank, hword]
          rfl
        · rcases ih hrest with ⟨l, hl, hin⟩ | ⟨front, w, w', back, hsplit, hw⟩
          · exact .inl ⟨l, List.mem_cons_of_mem _ hl, hin⟩
          · exact .inr ⟨_ :: front, w, w', back, congrArg _ hsplit, hw⟩
  · intro h
    rw [← flatten_lexemes t]
    rcases h with ⟨l, hl, -, hin⟩ | ⟨front, w, w', back, hsplit, ⟨u, rfl⟩, ⟨v, rfl⟩⟩
    · exact hin.trans (List.infix_of_mem_flatten hl)
    · refine ⟨front.flatten ++ u, v ++ back.flatten, ?_⟩
      have hwords : defaultWords = Keyword.exporting.text ++ ' ' :: defaultWord.text := by decide
      rw [hsplit, hwords]
      simp only [List.flatten_append, List.flatten_cons, List.append_assoc, List.cons_append,
        List.nil_append]

/-- The words stand in code as an export: two whole words and a blank, and no dot before them. -/
def SpelledOut (t : Text) : Prop :=
  ∃ front back, lexemes t = front ++ Keyword.exporting.text :: [' '] :: defaultWord.text :: back ∧
    (tokens front).getLast? ≠ some "."

/-- The words stand where they export nothing: in a comment or a literal, at the ends of longer names, or behind a
    dot. -/
def Astray (t : Text) : Prop :=
  (∃ l ∈ lexemes t, (isComment l || isLiteral l) = true ∧ defaultWords <:+: l) ∨
    ∃ front w w' back, lexemes t = front ++ w :: [' '] :: w' :: back ∧
      Keyword.exporting.text <:+ w ∧ defaultWord.text <+: w' ∧
      (w = Keyword.exporting.text → w' = defaultWord.text → (tokens front).getLast? = some ".")

/-- **What root files are told**: that the words are an export, or that they have gone astray. -/
theorem hasDefaultExport_iff (t : Text) : hasDefaultExport t = true ↔ SpelledOut t ∨ Astray t := by
  rw [hasDefaultExport_iff_words, infix_iff_lexemes]
  constructor
  · rintro (h | ⟨front, w, w', back, hsplit, hw, hw'⟩)
    · exact .inr (.inl h)
    · by_cases hexport : w = Keyword.exporting.text ∧ w' = defaultWord.text ∧ (tokens front).getLast? ≠ some "."
      · obtain ⟨rfl, rfl, hdot⟩ := hexport
        exact .inl ⟨front, back, hsplit, hdot⟩
      · refine .inr (.inr ⟨front, w, w', back, hsplit, hw, hw', fun h h' => ?_⟩)
        by_contra hdot
        exact hexport ⟨h, h', hdot⟩
  · rintro (⟨front, back, hsplit, -⟩ | h | ⟨front, w, w', back, hsplit, hw, hw', -⟩)
    · exact .inr ⟨front, _, _, back, hsplit, List.suffix_refl _, List.prefix_refl _⟩
    · exact .inl h
    · exact .inr ⟨front, w, w', back, hsplit, hw, hw'⟩

/-! ## The words that are an export -/

/-- Tokens in front matter by whether the last of them is a dot. -/
theorem exportsAmong_append {ts rest : List Text} {property : Bool}
    (h : exportsAmong ((ts.getLast?.map (· == (".".toList))).getD property) rest = true) :
    exportsAmong property (ts ++ rest) = true := by
  induction ts generalizing property with
  | nil => exact h
  | cons token ts ih =>
      -- Whatever this token starts, the tokens behind it are looked through as well.
      rw [List.getLast?_cons] at h
      rw [List.cons_append, exportsAmong, Bool.or_eq_true]
      refine .inr (ih ?_)
      cases hlast : ts.getLast? <;> simpa [hlast] using h

theorem tokens_append (a b : List Text) : tokens (a ++ b) = tokens a ++ tokens b := List.filter_append _ _

/-- **Words that stand as an export export the default.** -/
theorem exportsDefault_of_spelledOut {t : Text} (h : SpelledOut t) : exportsDefault t = true := by
  obtain ⟨front, back, hsplit, hdot⟩ := h
  have htokens : tokens (Keyword.exporting.text :: [' '] :: defaultWord.text :: back)
      = Keyword.exporting.text :: defaultWord.text :: tokens back := rfl
  rw [exportsDefault, hsplit, tokens_append, htokens]
  refine exportsAmong_append ?_
  have hproperty : (((tokens front).getLast?.map (· == (".".toList))).getD false) = false := by
    cases hlast : (tokens front).getLast? with
    | none => rfl
    | some l =>
        rw [hlast] at hdot
        exact beq_eq_false_iff_ne.mpr fun h => hdot (congrArg some h)
  rw [hproperty]
  rfl

/-! ## The text of a root file -/

theorem lexemes_word {w t : Text} (hne : w ≠ []) (hw : ∀ c ∈ w, isIdent c = true) (ht : Breaks t) :
    lexemes (w ++ t) = w :: lexemes t := lexemes_cons hne (lexeme_word hne hw ht)

theorem lexemes_keyword (k : Keyword) {t : Text} (ht : Breaks t) :
    lexemes (k.text ++ t) = k.text :: lexemes t :=
  lexemes_cons (by cases k <;> decide) (lexeme_keyword k ht)

theorem lexemes_mark {c : Char} (h : isMark c = true) (t : Text) : lexemes (c :: t) = [c] :: lexemes t :=
  lexemes_cons (a := [c]) (List.cons_ne_nil _ _) (lexeme_mark h)

theorem lexemes_literal (l : Literal) (t : Text) : lexemes (l.text ++ t) = l.text :: lexemes t :=
  lexemes_cons (List.cons_ne_nil _ _) (lexeme_literal l t)

/-- The word `from`. -/
def fromWord : Word := ⟨"from", by decide, List.all_eq_true.mp (by decide), by decide, by decide⟩

section

variable {path : Text} (hpath : ∀ c ∈ path, Quote.single.admits c)

/-- The lexemes at the end of a line, where its source stands. -/
theorem lexemes_source (t : Text) :
    lexemes (" from '" ++ path ++ "'\n" ++ t)
      = [[' '], fromWord.text, [' ']] ++ [(singleQuoted path hpath).text, ['\n']] ++ lexemes t := by
  have htext : (" from '" ++ path ++ "'\n" ++ t : Text)
      = ' ' :: (fromWord.text ++ ' ' :: ((singleQuoted path hpath).text ++ '\n' :: t)) := by
    rw [text_singleQuoted]
    simp only [List.append_assoc, List.cons_append]
    rfl
  rw [htext, lexemes_mark (by decide),
    lexemes_word fromWord.nonempty fromWord.ident (breaks_cons.mpr (by decide)),
    lexemes_mark (by decide), lexemes_literal, lexemes_mark (by decide)]
  rfl

/-- The lexemes of the first line of a root file. -/
theorem lexemes_all (t : Text) :
    lexemes ("export * from '" ++ path ++ "'\n" ++ t)
      = [Keyword.exporting.text, [' '], ['*'], [' '], fromWord.text, [' ']] ++
        [(singleQuoted path hpath).text, ['\n']] ++ lexemes t := by
  have htext : ("export * from '" ++ path ++ "'\n" ++ t : Text)
      = Keyword.exporting.text ++ ' ' :: '*' :: (" from '" ++ path ++ "'\n" ++ t) := rfl
  rw [htext, lexemes_keyword .exporting (breaks_cons.mpr (by decide)),
    lexemes_mark (by decide), lexemes_mark (by decide), lexemes_source hpath]
  rfl

/-- The lexemes of the line that binds the default. -/
theorem lexemes_default {d : Text} (hd : IsDefault d) (t : Text) :
    lexemes ("import " ++ d ++ (" from '" ++ path ++ "'\n" ++ t))
      = [Keyword.importing.text, [' '], d, [' '], fromWord.text, [' ']] ++
        [(singleQuoted path hpath).text, ['\n']] ++ lexemes t := by
  have htext : ("import " ++ d ++ (" from '" ++ path ++ "'\n" ++ t) : Text)
      = Keyword.importing.text ++ ' ' :: (d ++ (" from '" ++ path ++ "'\n" ++ t)) := rfl
  have hbreak : Breaks (" from '" ++ path ++ "'\n" ++ t) := by
    show Breaks (' ' :: ("from '" ++ path ++ "'\n" ++ t))
    exact breaks_cons.mpr (by decide)
  rw [htext, lexemes_keyword .importing (breaks_cons.mpr (by decide)), lexemes_mark (by decide),
    lexemes_word hd.nonempty hd.ident hbreak, lexemes_source hpath]
  rfl

/-- A source in quotes is a token. -/
theorem tokens_source :
    tokens [(singleQuoted path hpath).text, ['\n']] = [(singleQuoted path hpath).text] := by
  have hspace : isSpace (singleQuoted path hpath).text = false := by
    rw [text_singleQuoted]
    cases path <;> rfl
  rw [tokens, List.filter_cons_of_pos (by rw [hspace]; rfl)]
  rfl

include hpath

/-- **A root file without a default exports none.** -/
theorem exportsDefault_indexContent_none : exportsDefault (indexContent path none) = false := by
  have hlexemes := lexemes_all hpath []
  rw [List.append_nil, lexemes_nil, List.append_nil] at hlexemes
  have hfront : tokens [Keyword.exporting.text, [' '], ['*'], [' '], fromWord.text, [' ']]
      = [Keyword.exporting.text, ['*'], fromWord.text] := rfl
  have hsource : exportsAmong false [(singleQuoted path hpath).text] = false := by
    rw [text_singleQuoted]
    rfl
  show exportsDefault ("export * from '" ++ path ++ "'\n") = false
  rw [exportsDefault, hlexemes, tokens_append, tokens_source, hfront]
  exact hsource

/-- **A root file with a default exports it**, in words. -/
theorem spelledOut_indexContent_some {d : Text} (hd : IsDefault d) :
    SpelledOut (indexContent path (some d)) := by
  have htext : indexContent path (some d) = "export * from '" ++ path ++ "'\n" ++ ("import " ++ d ++
      (" from '" ++ path ++ "'\n" ++ (Keyword.exporting.text ++ ' ' :: (defaultWord.text ++ ' ' :: (d ++ ['\n']))))) := by
    have hsplit : ("'\nexport default " : Text)
        = "'\n" ++ (Keyword.exporting.text ++ ' ' :: (defaultWord.text ++ [' '])) := rfl
    unfold indexContent
    rw [hsplit]
    simp only [List.append_assoc, List.cons_append, List.nil_append]
    rfl
  have hwords : lexemes (Keyword.exporting.text ++ ' ' :: (defaultWord.text ++ ' ' :: (d ++ ['\n'])))
      = Keyword.exporting.text :: [' '] :: defaultWord.text :: lexemes (' ' :: (d ++ ['\n'])) := by
    rw [lexemes_keyword .exporting (breaks_cons.mpr (by decide)), lexemes_mark (by decide),
      lexemes_word defaultWord.nonempty defaultWord.ident (breaks_cons.mpr (by decide))]
  refine ⟨[Keyword.exporting.text, [' '], ['*'], [' '], fromWord.text, [' '],
      (singleQuoted path hpath).text, ['\n'], Keyword.importing.text, [' '], d, [' '], fromWord.text, [' ']] ++
      [(singleQuoted path hpath).text, ['\n']], lexemes (' ' :: (d ++ ['\n'])), ?_, ?_⟩
  · rw [htext, lexemes_all hpath, lexemes_default hpath hd, hwords]
    rfl
  · have hquote : '\'' ≠ '.' := by decide
    rw [tokens_append, tokens_source, List.getLast?_append, List.getLast?_singleton, Option.some_or]
    exact fun h => hquote (List.cons.inj (Option.some.inj h)).1

end

end Import

/-! ## What root files export -/

theorem Writer.write_of_keep {σ : Type} {w : Writer σ} {f : OutputFile} (hkeep : w.hooks.beforeWrite f = .keep)
    (hallowed : w.allows f.path.normalize = true) : w.write f = do
      w.put ⟨f.path.normalize, f.content⟩
      return some ⟨f.path.normalize, f.content⟩ := by
  unfold write
  rw [hkeep]
  exact if_pos hallowed

namespace RootFiles

open Import (exportsDefault SpelledOut Astray)

variable {σ : Type} {r : RootFiles} {w : Writer σ} {b : Workbench σ} {plan : IndexPlan}

/-- The text that a root file is written with. -/
def content (r : RootFiles) (w : Writer σ) (world : σ) (plan : IndexPlan) : Text :=
  indexContent plan.importPath (r.defaultName w world plan.declaration)

/-- A missing root file is written before the others are seen to. -/
theorem insertPlans_of_missing (hmissing : w.files.isThere b.world plan.target = false)
    (hkeep : w.hooks.beforeWrite ⟨plan.target, r.content w b.world plan⟩ = .keep)
    (hallowed : w.allows plan.target.normalize = true) (emitted : PathMap Text) (plans : List IndexPlan) :
    r.insertPlans w emitted (plan :: plans) b = (do
      w.put ⟨plan.target.normalize, r.content w b.world plan⟩
      r.insertPlans w (emitted.insert plan.target.normalize (r.content w b.world plan)) plans) b := by
  have hworld {k : σ → WorkM σ (PathMap Text)} : (do k (← WorkM.world)) b = k b.world b := rfl
  unfold content at hkeep ⊢
  rw [insertPlans, hworld, if_neg (by rw [hmissing]; exact Bool.false_ne_true),
    Writer.write_of_keep hkeep hallowed, bind_assoc]
  simp only [pure_bind]

/-- **When root files export a default.** A missing root file is written; it exports a default if the words
    `export default` stand in the declaration, as an export or astray, and then it binds the declaration's.  So it
    exports one just if the declaration does, unless the declaration has no default but the words, or has a
    default but not in these words. -/
theorem exportsDefault_insertPlans {t : Text} (hmissing : w.files.isThere b.world plan.target = false)
    (hkeep : ∀ content, w.hooks.beforeWrite ⟨plan.target, content⟩ = .keep)
    (hallowed : w.allows plan.target.normalize = true)
    (hread : w.files.read b.world plan.declaration = .ok t) (hname : Import.IsDefault r.libraryName)
    (hpath : ∀ c ∈ plan.importPath, Import.Quote.single.admits c) :
    let content := r.content w b.world plan
    (∀ emitted plans, r.insertPlans w emitted (plan :: plans) b = (do
        w.put ⟨plan.target.normalize, content⟩
        r.insertPlans w (emitted.insert plan.target.normalize content) plans) b) ∧
      (hasDefaultExport t = true ↔ SpelledOut t ∨ Astray t) ∧
      (exportsDefault content = true ↔ SpelledOut t ∨ Astray t) ∧
      (exportsDefault content = exportsDefault t ↔
        if exportsDefault t then SpelledOut t ∨ Astray t else ¬ Astray t) := by
  intro content
  -- Root files are read back without fail, so what they export is what they were told.
  have hcontent : exportsDefault content = hasDefaultExport t := by
    have hdefault : r.defaultName w b.world plan.declaration
        = if hasDefaultExport t then some r.libraryName else none := by
      rw [defaultName, hread]
    show exportsDefault (indexContent _ _) = _
    rw [hdefault]
    cases hasDefaultExport t with
    | false => exact Import.exportsDefault_indexContent_none hpath
    | true => exact Import.exportsDefault_of_spelledOut (Import.spelledOut_indexContent_some hpath hname)
  have hwords := Import.hasDefaultExport_iff t
  have hspelled : SpelledOut t → exportsDefault t = true := Import.exportsDefault_of_spelledOut
  refine ⟨insertPlans_of_missing hmissing (hkeep content) hallowed, hwords, hcontent ▸ hwords, ?_⟩
  rw [hcontent]
  split
  · rename_i hexports
    rw [hexports, hwords]
  · rename_i hexports
    have hnot : ¬ SpelledOut t := fun h => hexports (hspelled h)
    rw [Bool.not_eq_true] at hexports
    rw [hexports, ← Bool.not_eq_true, hwords]
    exact ⟨fun h hastray => h (.inr hastray), fun h => (·.elim hnot h)⟩

end RootFiles

/-- The root file of a library whose entry is a component. -/
def componentRoot : RootFiles := ⟨"/p", "/p/src", [⟨"index.ts", "/p/src/index.ts"⟩], "index.d.ts", "MyLib"⟩

/-- A writer to files in memory that are below an output directory. -/
def memoryWriter : Writer Files.Memory := ⟨Files.Memory.store, {}, "/p/dist", true, false⟩

/-- Files in memory with the declaration of a component. -/
def componentFiles : Files.Memory := .ofFiles [("/p/dist/index.d.ts", svelteDeclaration)]

theorem exportsDefault_componentRoot :
    let plan : IndexPlan := ⟨"/p/dist/types.d.ts", "/p/dist/index.d.ts", "./index"⟩
    let content := componentRoot.content memoryWriter componentFiles plan
    (plan ∈ planIndexFiles componentRoot.entries plan.target "/p/dist" "/p/src" ∧
        memoryWriter.files.isThere componentFiles plan.target = false ∧
        memoryWriter.files.read componentFiles plan.declaration = .ok svelteDeclaration) ∧
      (∀ emitted plans, componentRoot.insertPlans memoryWriter emitted (plan :: plans) ⟨componentFiles, {}, []⟩
        = (do
          memoryWriter.put ⟨plan.target.normalize, content⟩
          componentRoot.insertPlans memoryWriter (emitted.insert plan.target.normalize content) plans)
            ⟨componentFiles, {}, []⟩) ∧
      (hasDefaultExport svelteDeclaration = true ↔
        Import.SpelledOut svelteDeclaration ∨ Import.Astray svelteDeclaration) ∧
      (Import.exportsDefault content = true ↔
        Import.SpelledOut svelteDeclaration ∨ Import.Astray svelteDeclaration) ∧
      (Import.exportsDefault content = Import.exportsDefault svelteDeclaration ↔
        if Import.exportsDefault svelteDeclaration then
          Import.SpelledOut svelteDeclaration ∨ Import.Astray svelteDeclaration
        else ¬ Import.Astray svelteDeclaration) := by
  intro plan content
  have hmissing : memoryWriter.files.isThere componentFiles plan.target = false := by decide +kernel
  have hread : memoryWriter.files.read componentFiles plan.declaration = .ok svelteDeclaration := by
    decide +kernel
  have hallowed : memoryWriter.allows plan.target.normalize = true := by decide +kernel
  have hname : Import.IsDefault componentRoot.libraryName := ⟨by decide, by decide, by decide⟩
  refine ⟨⟨by decide +kernel, hmissing, hread⟩, ?_⟩
  exact RootFiles.exportsDefault_insertPlans (b := ⟨componentFiles, {}, []⟩) hmissing (fun _ => rfl) hallowed
    hread hname (by decide)

/-- The declaration of a component exports a default, but not in the words that root files look for, and neither
    does an export with a comment between the words; a comment with the words exports nothing. -/
theorem defaults_missed_and_mistaken :
    (Import.exportsDefault svelteDeclaration = true ∧ hasDefaultExport svelteDeclaration = false) ∧
      (Import.exportsDefault "export /* main */ default main;\n" = true ∧
        hasDefaultExport "export /* main */ default main;\n" = false) ∧
      Import.exportsDefault "// no export default here\nexport declare const a: 1;\n" = false ∧
        hasDefaultExport "// no export default here\nexport declare const a: 1;\n" = true := by
  unfold svelteDeclaration
  repeat rw [Text.toList_literal rfl]
  decide +kernel

end Typings
