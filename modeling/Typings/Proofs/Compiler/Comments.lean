import Typings.Compiler.TsConfig
import Typings.Proofs.Json.Grammar

/-!
# `Comments` — configuration files without their comments

A configuration file is stripped by two scanners.  One copies the text and leaves out comments; the
other looks ahead from a comma, past blanks and comments, for what closes.  Both pass a comment at the
same place, so that a comma is judged by the token behind it, and no token but a comma is changed.

* `Commented`: the texts of a row of tokens with blanks and comments between them.
* `pass_line`, `pass_block`: where a comment ends, for both scanners.
* `Commented.closes_eq`: looking ahead finds the next token.
* `stripFrom_token`: a token stays, whatever is written in it.
* `Commented.spaced_stripFrom`: the tokens are left, without the commas in front of closing ones.
* `withoutTrailing_tokens`: of a document these are the trailing commas.
* `stripComments_of_commented`: a document loses its comments and trailing commas, and nothing else.
-/

namespace Typings

open Json (Token Node Spaced)

/-! ## Texts with comments -/

/-- The text is the tokens with blanks and comments between them: comments up to the end of their
    line, and comments up to the first mark that ends them.  The last line need not end. -/
inductive Commented : List Token → Text → Prop
  | nil : Commented [] []
  | blank {ts : List Token} {u : Text} {c : Char} (hc : Json.isSpace c = true)
      (h : Commented ts u) : Commented ts (c :: u)
  | token {ts : List Token} {u : Text} (t : Token) (h : Commented ts u) :
      Commented (t :: ts) (t.text ++ u)
  | line {ts : List Token} {u : Text} {body : Text} (hbody : '\n' ∉ body) (h : Commented ts u) :
      Commented ts ('/' :: '/' :: (body ++ '\n' :: u))
  | block {ts : List Token} {u : Text} {body : Text} (hbody : ¬ ['*', '/'] <:+: body)
      (h : Commented ts u) : Commented ts ('/' :: '*' :: (body ++ '*' :: '/' :: u))
  | lastLine {body : Text} (hbody : '\n' ∉ body) : Commented [] ('/' :: '/' :: body)

/-- Tokens with blanks between them are a special case of tokens with comments between them. -/
theorem Commented.of_spaced {ts : List Token} {t : Text} (h : Spaced ts t) : Commented ts t := by
  induction h with
  | nil => exact .nil
  | blank hc _ ih => exact .blank hc ih
  | token t _ ih => exact .token t ih

/-! ## Comments are passed -/

section

variable {f : Text → Text} {body : Text}

/-- What passes every character but a line feed passes a line. -/
theorem pass_line (hf : ∀ c t, c ≠ '\n' → f (c :: t) = f t) (hbody : '\n' ∉ body) (u : Text) :
    f (body ++ u) = f u := by
  induction body with
  | nil => rfl
  | cons c body ih =>
      obtain ⟨hc, hbody⟩ := not_or.1 (List.mem_cons.not.1 hbody)
      rw [List.cons_append, hf c _ fun h => hc h.symm, ih hbody]

/-- A character that is no star in front of a slash. -/
def Inside (c : Char) (t : Text) : Prop := ∀ v, c = '*' → t = '/' :: v → False

/-- What passes every character but a star in front of a slash passes a text without such a star, even
    where a star ends the text. -/
theorem pass_block (hf : ∀ c t, Inside c t → f (c :: t) = f t) (hbody : ¬ ['*', '/'] <:+: body)
    (u : Text) : f (body ++ '*' :: '/' :: u) = f ('*' :: '/' :: u) := by
  induction body with
  | nil => rfl
  | cons c body ih =>
      have hinside : Inside c (body ++ '*' :: '/' :: u) := by
        rintro v rfl h
        cases body with
        | nil => cases (List.cons.inj h).1
        | cons d body =>
            obtain ⟨rfl, -⟩ := List.cons.inj h
            exact hbody ⟨[], body, rfl⟩
      rw [List.cons_append, hf c _ hinside, ih fun h => hbody (List.infix_cons h)]

end

/-- Inside a line comment every character but the line feed is dropped. -/
theorem stripFrom_line_cons (c : Char) (t : Text) (hc : c ≠ '\n') :
    stripFrom .line (c :: t) = stripFrom .line t := by
  rw [stripFrom]
  exact hc

/-- Inside a block comment every character that does not close it is dropped. -/
theorem stripFrom_block_cons (c : Char) (t : Text) (h : Inside c t) :
    stripFrom .block (c :: t) = stripFrom .block t := by
  rw [stripFrom]
  exact h

/-- A line comment is passed up to its line feed. -/
theorem afterTrivia_line_cons (c : Char) (t : Text) (hc : c ≠ '\n') :
    afterTrivia .line (c :: t) = afterTrivia .line t := by
  conv_lhs => unfold afterTrivia
  split <;> simp_all

/-- A block comment is passed up to its closing mark. -/
theorem afterTrivia_block_cons (c : Char) (t : Text) (h : Inside c t) :
    afterTrivia .block (c :: t) = afterTrivia .block t := by
  conv_lhs => unfold afterTrivia
  split <;> simp_all [Inside]

/-- In code a blank is passed, and any other character but a slash ends the trivia. -/
theorem afterTrivia_code {c : Char} (hslash : c ≠ '/') (t : Text) :
    afterTrivia .code (c :: t) = if Text.isBlank c then afterTrivia .code t else c :: t := by
  conv_lhs => unfold afterTrivia
  split <;> simp_all

/-- Whether a bracket closes next depends only on what stands behind the trivia. -/
theorem closes_congr {t u : Text} (h : afterTrivia .code t = afterTrivia .code u) :
    closes t = closes u := by
  rw [closes, closes, h]

/-- The first token closes. -/
def closesNext : List Token → Bool
  | [] => false
  | t :: _ => t.closes

/-- Looking past blanks and comments finds the next token. -/
theorem Commented.closes_eq {ts : List Token} {t : Text} (h : Commented ts t) :
    closes t = closesNext ts := by
  induction h with
  | nil => rfl
  | @blank ts u c hc _ ih =>
      have hslash : c ≠ '/' := by
        rintro rfl
        cases hc
      rw [closes, afterTrivia_code hslash, if_pos (Json.isBlank_of_isSpace hc)]
      exact ih
  | @token ts u t _ _ =>
      obtain ⟨c, v, htext, hbegins⟩ := t.exists_text
      rw [htext, List.cons_append, closes, afterTrivia_code hbegins.slash,
        if_neg (by rw [hbegins.blank]; exact Bool.false_ne_true)]
      exact hbegins.closes
  | @line ts u body hbody _ ih =>
      have hpass : afterTrivia .code ('/' :: '/' :: (body ++ '\n' :: u)) = afterTrivia .code u :=
        pass_line afterTrivia_line_cons hbody _
      exact (closes_congr hpass).trans ih
  | @block ts u body hbody _ ih =>
      have hpass : afterTrivia .code ('/' :: '*' :: (body ++ '*' :: '/' :: u)) = afterTrivia .code u :=
        pass_block afterTrivia_block_cons hbody _
      exact (closes_congr hpass).trans ih
  | @lastLine body hbody =>
      have hpass : afterTrivia .code ('/' :: '/' :: (body ++ [])) = afterTrivia .code [] :=
        pass_line afterTrivia_line_cons hbody _
      rw [List.append_nil] at hpass
      exact closes_congr hpass

/-! ## Tokens stay -/

/-- In code a character with no meaning to the stripper is kept. -/
theorem stripFrom_code {c : Char} (hquote : c ≠ '"') (hslash : c ≠ '/') (hcomma : c ≠ ',')
    (t : Text) : stripFrom .code (c :: t) = c :: stripFrom .code t := by
  rw [stripFrom]
  · exact hquote
  · exact fun _ h => absurd h hslash
  · exact fun _ h => absurd h hslash
  · exact hcomma

/-- Blanks between the tokens are kept as they are. -/
theorem stripFrom_blank {c : Char} (hc : Json.isSpace c = true) (t : Text) :
    stripFrom .code (c :: t) = c :: stripFrom .code t := by
  apply stripFrom_code <;> rintro rfl <;> cases hc

/-- Outside of strings only quotes, slashes and commas are looked at. -/
theorem stripFrom_append {v : Text} (hv : ∀ c ∈ v, c ≠ '"' ∧ c ≠ '/' ∧ c ≠ ',') (t : Text) :
    stripFrom .code (v ++ t) = v ++ stripFrom .code t := by
  induction v with
  | nil => rfl
  | cons c v ih =>
      obtain ⟨⟨hquote, hslash, hcomma⟩, hv⟩ := List.forall_mem_cons.1 hv
      rw [List.cons_append, stripFrom_code hquote hslash hcomma, ih hv, List.cons_append]

/-- Inside a string an ordinary character is kept. -/
theorem stripString_cons {c : Char} (hquote : c ≠ '"') (hslash : c ≠ '\\') (t : Text) :
    stripString (c :: t) = c :: stripString t := by
  rw [stripString]
  · exact fun _ _ h => absurd h hslash
  · exact hquote

/-- A part of a string is kept whole, escapes included. -/
theorem stripString_part (p : Json.StringPart) (t : Text) :
    stripString (p.text ++ t) = p.text ++ stripString t := by
  cases p with
  | char c h => exact stripString_cons h.1 h.2.1 t
  | escape e c h =>
      show stripString ('\\' :: e :: t) = _
      rw [stripString]
      rfl
  | code a b c d n h =>
      obtain ⟨ha, hb, hc, hd, -⟩ : _ ∧ _ ∧ _ ∧ _ ∧ _ := by
        simpa only [List.forall_mem_cons] using Json.ne_of_hexUnit? h
      show stripString ('\\' :: 'u' :: a :: b :: c :: d :: t) = _
      rw [stripString, stripString_cons ha.1 ha.2, stripString_cons hb.1 hb.2,
        stripString_cons hc.1 hc.2, stripString_cons hd.1 hd.2]
      rfl

/-- A string stays as it is, whatever is written in it. -/
theorem stripString_parts (s : List Json.StringPart) (t : Text) :
    stripString (s.flatMap Json.StringPart.text ++ '"' :: t) =
      s.flatMap Json.StringPart.text ++ '"' :: stripFrom .code t := by
  induction s with
  | nil => rw [List.flatMap_nil, List.nil_append, stripString, List.nil_append]
  | cons p s ih =>
      rw [List.flatMap_cons, List.append_assoc, stripString_part, ih, List.append_assoc]

/-- A number or a word is kept whole. -/
theorem stripFrom_literal (l : Json.Literal) (t : Text) :
    stripFrom .code (l.text ++ t) = l.text ++ stripFrom .code t := by
  cases l with
  | null => exact stripFrom_append (v := "null") (by decide) t
  | bool b => cases b <;> exact stripFrom_append (by decide) t
  | number n =>
      refine stripFrom_append (fun c hc => ?_) t
      rcases Json.Numeral.mem_text hc with hdigit | hmark
      · refine ⟨?_, ?_, ?_⟩ <;> rintro rfl <;> cases hdigit
      · refine ⟨?_, ?_, ?_⟩ <;> rintro rfl <;> revert hmark <;> decide
  | string s =>
      rw [Json.Literal.text_string, Json.Literal.text_string, stripFrom, stripString_parts]

/-- Every token but a comma is kept whole, the string among them with what it holds. -/
theorem stripFrom_token {x : Token} (hcomma : x ≠ .comma) (t : Text) :
    stripFrom .code (x.text ++ t) = x.text ++ stripFrom .code t := by
  cases x with
  | comma => exact absurd rfl hcomma
  | literal l => exact stripFrom_literal l t
  | openBracket => exact stripFrom_append (by decide) t
  | closeBracket => exact stripFrom_append (by decide) t
  | openBrace => exact stripFrom_append (by decide) t
  | closeBrace => exact stripFrom_append (by decide) t
  | colon => exact stripFrom_append (by decide) t

/-- The tokens without the commas in front of closing ones. -/
def withoutTrailing : List Token → List Token
  | [] => []
  | .comma :: ts => if closesNext ts then withoutTrailing ts else .comma :: withoutTrailing ts
  | t :: ts => t :: withoutTrailing ts

/-- A token other than a comma is never trailing. -/
theorem withoutTrailing_cons {x : Token} (hcomma : x ≠ .comma) (ts : List Token) :
    withoutTrailing (x :: ts) = x :: withoutTrailing ts := by
  rw [withoutTrailing]
  exact hcomma

/-- Comments go, and of the tokens only the commas in front of closing ones. -/
theorem Commented.spaced_stripFrom {ts : List Token} {t : Text} (h : Commented ts t) :
    Spaced (withoutTrailing ts) (stripFrom .code t) := by
  induction h with
  | nil => exact .nil
  | blank hc _ ih =>
      rw [stripFrom_blank hc]
      exact .blank hc ih
  | @token ts u x h ih =>
      by_cases hcomma : x = .comma
      · subst hcomma
        show Spaced _ (stripFrom .code (',' :: u))
        -- Both ask the token behind the comma, the scanner past all that stands between.
        rw [stripFrom, withoutTrailing, h.closes_eq]
        split
        · exact ih
        · exact .token .comma ih
      · rw [stripFrom_token hcomma, withoutTrailing_cons hcomma]
        exact .token x ih
  | line hbody _ ih =>
      rw [stripFrom, pass_line stripFrom_line_cons hbody, stripFrom]
      exact .blank rfl ih
  | block hbody _ ih =>
      rw [stripFrom, pass_block stripFrom_block_cons hbody, stripFrom]
      exact ih
  | @lastLine body hbody =>
      rw [stripFrom, ← List.append_nil body, pass_line stripFrom_line_cons hbody, stripFrom]
      exact .nil

/-- Taking trailing commas out makes no row of tokens longer. -/
theorem length_withoutTrailing_le (ts : List Token) : (withoutTrailing ts).length ≤ ts.length := by
  fun_induction withoutTrailing ts with
  | case1 => exact Nat.le_refl 0
  | case2 ts _ ih => exact Nat.le_succ_of_le ih
  | case3 ts _ ih => exact Nat.succ_le_succ ih
  | case4 t ts _ ih => exact Nat.succ_le_succ ih

/-- A text without comments and without commas in front of closing tokens stays as it is. -/
theorem stripFrom_of_spaced {ts : List Token} {t : Text} (h : Spaced ts t)
    (hts : withoutTrailing ts = ts) : stripFrom .code t = t := by
  induction h with
  | nil => rfl
  | blank hc _ ih => rw [stripFrom_blank hc, ih hts]
  | @token ts u x h ih =>
      by_cases hcomma : x = .comma
      · subst hcomma
        rw [withoutTrailing] at hts
        show stripFrom .code (',' :: u) = ',' :: u
        rw [stripFrom, (Commented.of_spaced h).closes_eq]
        split at hts
        · -- The row would be shorter without its comma.
          have hle := length_withoutTrailing_le ts
          rw [hts, List.length_cons] at hle
          omega
        · next hnext => rw [if_neg hnext, ih (List.cons.inj hts).2]
      · rw [withoutTrailing_cons hcomma] at hts
        rw [stripFrom_token hcomma, ih (List.cons.inj hts).2]

/-! ## Documents -/

/-- A value never begins with a closing bracket. -/
theorem closesNext_tokens (n : Node) (ts : List Token) : closesNext (n.tokens ++ ts) = false := by
  cases n <;> rfl

/-- Items never begin with a closing bracket. -/
theorem closesNext_itemTokens (n : Node) (rest : List Node) (ts : List Token) :
    closesNext (Json.itemTokens (n :: rest) ++ ts) = false := by
  cases rest with
  | nil => exact closesNext_tokens n ts
  | cons m rest =>
      rw [Json.itemTokens, List.append_assoc]
      exact closesNext_tokens n _

/-- Fields never begin with a closing bracket. -/
theorem closesNext_fieldTokens (f : List Json.StringPart × Node)
    (rest : List (List Json.StringPart × Node)) (ts : List Token) :
    closesNext (Json.fieldTokens (f :: rest) ++ ts) = false := by
  cases rest <;> rfl

/-- In front of a closing bracket a trailing comma, if any, is taken out. -/
theorem withoutTrailing_trailingComma (trailing : Bool) {x : Token} (hx : x.closes = true)
    (ts : List Token) :
    withoutTrailing (Json.trailingComma trailing ++ x :: ts) = x :: withoutTrailing ts := by
  have hcomma : x ≠ .comma := by
    rintro rfl
    cases hx
  have hrest := withoutTrailing_cons hcomma ts
  cases trailing with
  | false => exact hrest
  | true =>
      show withoutTrailing (.comma :: x :: ts) = _
      rw [withoutTrailing, closesNext, if_pos hx, hrest]

mutual

/-- Of a document's tokens only its trailing commas go. -/
theorem withoutTrailing_tokens (n : Node) (ts : List Token) :
    withoutTrailing (n.tokens ++ ts) = n.plain.tokens ++ withoutTrailing ts := by
  cases n with
  | leaf l => rfl
  | array items trailing =>
      have hitems := withoutTrailing_itemTokens items
        (Json.trailingComma trailing ++ .closeBracket :: ts)
      rw [withoutTrailing_trailingComma trailing rfl] at hitems
      rw [Node.tokens, List.cons_append, List.append_assoc, List.append_assoc]
      show .openBracket :: withoutTrailing (Json.itemTokens items ++ _) = _
      rw [List.cons_append, List.nil_append, hitems, Node.plain, Node.tokens, List.cons_append,
        List.append_assoc]
      rfl
  | object fields trailing =>
      have hfields := withoutTrailing_fieldTokens fields
        (Json.trailingComma trailing ++ .closeBrace :: ts)
      rw [withoutTrailing_trailingComma trailing rfl] at hfields
      rw [Node.tokens, List.cons_append, List.append_assoc, List.append_assoc]
      show .openBrace :: withoutTrailing (Json.fieldTokens fields ++ _) = _
      rw [List.cons_append, List.nil_append, hfields, Node.plain, Node.tokens, List.cons_append,
        List.append_assoc]
      rfl

/-- The commas between the items of a list stay. -/
theorem withoutTrailing_itemTokens (items : List Node) (ts : List Token) :
    withoutTrailing (Json.itemTokens items ++ ts) =
      Json.itemTokens (Json.plainItems items) ++ withoutTrailing ts := by
  match items with
  | [] => rfl
  | [n] => exact withoutTrailing_tokens n ts
  | n :: m :: rest =>
      -- The comma stays, since no item begins with what closes.
      have hnext := closesNext_itemTokens m rest ts
      rw [Json.itemTokens_plain, Json.itemTokens, List.append_assoc, withoutTrailing_tokens n,
        List.cons_append, withoutTrailing, if_neg (by rw [hnext]; exact Bool.false_ne_true),
        withoutTrailing_itemTokens (m :: rest), List.append_assoc, List.cons_append]

/-- The commas between the fields of an object stay. -/
theorem withoutTrailing_fieldTokens (fields : List (List Json.StringPart × Node))
    (ts : List Token) :
    withoutTrailing (Json.fieldTokens fields ++ ts) =
      Json.fieldTokens (Json.plainFields fields) ++ withoutTrailing ts := by
  match fields with
  | [] => rfl
  | [(k, n)] =>
      show .literal (.string k) :: .colon :: withoutTrailing (n.tokens ++ ts) = _
      rw [withoutTrailing_tokens n]
      rfl
  | (k, n) :: f :: rest =>
      have hnext := closesNext_fieldTokens f rest ts
      rw [Json.fieldTokens, List.cons_append, List.cons_append, List.append_assoc]
      show .literal (.string k) :: .colon :: withoutTrailing (n.tokens ++ _) = _
      rw [withoutTrailing_tokens n, List.cons_append, withoutTrailing,
        if_neg (by rw [hnext]; exact Bool.false_ne_true), withoutTrailing_fieldTokens (f :: rest),
        Json.fieldTokens_plain, List.cons_append, List.cons_append, List.append_assoc,
        List.cons_append]

end

/-- A value without trailing commas has none to take out. -/
theorem withoutTrailing_plain (n : Node) : withoutTrailing n.plain.tokens = n.plain.tokens := by
  have h := withoutTrailing_tokens n.plain []
  rwa [List.append_nil, n.plain_plain, withoutTrailing, List.append_nil] at h

/-- **A commented document loses its comments and trailing commas, and nothing else.**  Its text is
    then the same tokens but for these commas, with blanks only between them, so it is read as the
    document; and a text that is read as a document has nothing to lose. -/
theorem stripComments_of_commented :
    (∀ (n : Node) (t : Text), Commented n.tokens t →
      Spaced n.plain.tokens (stripComments t) ∧
        Json.readWritten? (stripComments t) = some n.written) ∧
    ∀ (t : Text) (w : Json.Written), Json.readWritten? t = some w → stripComments t = t := by
  constructor
  · intro n t h
    have hspaced : Spaced n.plain.tokens (stripComments t) := by
      have hstrip := h.spaced_stripFrom
      have htokens := withoutTrailing_tokens n []
      rw [List.append_nil] at htokens
      rwa [htokens, withoutTrailing, List.append_nil] at hstrip
    exact ⟨hspaced, n.readWritten?_of_spaced hspaced⟩
  · intro t w h
    obtain ⟨n, hspaced, -⟩ := Json.readWritten?_eq_some_iff.1 h
    exact stripFrom_of_spaced hspaced (withoutTrailing_plain n)

/-- An object with a list under the name `a//"`, and a comma too many in both. -/
def sampleNode : Node :=
  .object
    [([.char 'a' (by decide), .char '/' (by decide), .char '/' (by decide),
        .escape '"' '"' (by decide)],
      .array [.leaf (.number (Json.wellFormed_wholeParts false 1).numeral)] true)] true

/-- The object with comments that look like brackets, commas and ends of comments. -/
def sampleText : Text := "\x7b\"a//\\\"\": [1, /*/,*/ ], // ]\n\x7d // end"

theorem stripComments_of_commented_sample :
    (Commented sampleNode.tokens sampleText ∧
      Spaced sampleNode.plain.tokens (stripComments sampleText) ∧
      Json.readWritten? (stripComments sampleText) = some sampleNode.written) ∧
    stripComments (stripComments sampleText) = stripComments sampleText := by
  have hsample : Commented sampleNode.tokens sampleText :=
    .token .openBrace <| .token _ <| .token .colon <| .blank rfl <| .token .openBracket <|
    .token _ <| .token .comma <| .blank rfl <| @Commented.block _ _ "/," (by decide) <| .blank rfl <|
    .token .closeBracket <| .token .comma <| .blank rfl <| @Commented.line _ _ " ]" (by decide) <|
    .token .closeBrace <| .blank rfl <| @Commented.lastLine " end" (by decide)
  have hstrip := stripComments_of_commented.1 _ _ hsample
  exact ⟨⟨hsample, hstrip⟩, stripComments_of_commented.2 _ _ hstrip.2⟩

example : stripComments sampleText = "\x7b\"a//\\\"\": [1  ] \n\x7d " := by decide

end Typings
