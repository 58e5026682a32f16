import Typings.Proofs.Import.Lexed
import Typings.Proofs.Offset.Scanner

/-!
# `Lexeme` — lexemes by byte offsets

Where a text is ahead at an offset, what is passed over byte by byte is what the lexer takes from that
text.  A backslash may lead into the middle of a character, but the bytes there are no bytes of ASCII, so
they are passed over, one after the other, to the end of the character.

* `tests_isIdentByte`, `tests_isBlankByte`, `tests_isQuoteByte`: the tests of bytes and of characters.
* `skipLine_eq`, `skipBlock_eq`, `skipString_over`, `skipTemplate_eq`, `skipTrivia_eq`: what is passed over.
* `wordAt_eq`, `parseQuoted_of_some`, `parseQuoted_of_none`: what is read.
-/

namespace Typings.Offset

open Import (isIdent isQuote templateMark word lineComment blockComment stringBody templateBody trivia
  quoted? lexeme)

variable {t u : Text} {offset : Nat}

/-! ## Tests of bytes -/

theorem tests_isIdentByte : Tests isIdentByte isIdent := by
  refine tests_of (v := true) (by decide +kernel) (fun b hb => ?_) fun c hc => ?_
  · have hhigh : (0x80 : UInt8) ≤ b := UInt8.le_iff_toNat_le.mpr hb
    simp [isIdentByte, hhigh]
  · simp [isIdent, hc]

theorem tests_isBlankByte : Tests isBlankByte Text.isAsciiBlank := by
  intro c b hb
  rw [isBlankByte, Text.isAsciiBlank, beq_byteOf (by decide) hb, beq_byteOf (by decide) hb,
    beq_byteOf (by decide) hb, beq_byteOf (by decide) hb, beq_byteOf (by decide) hb]

theorem tests_isQuoteByte : Tests isQuoteByte isQuote := by
  intro c b hb
  rw [isQuoteByte, isQuote, beq_byteOf (by decide) hb, beq_byteOf (by decide) hb]

/-- No byte of a character beyond ASCII is the byte of an ASCII character. -/
theorem high_ne {b : UInt8} (hb : 0x80 ≤ b.toNat) {d : Char} (hd : d.toNat < 0x80) :
    (b == byteOf d) = false := by
  rw [beq_eq_false_iff_ne]
  rintro rfl
  rw [toNat_byteOf hd] at hb
  omega

/-- The one byte of an ASCII character is the byte it is compared with. -/
theorem eq_byteOf {c : Char} (hc : c.toNat < 0x80) {b : UInt8} (hb : b ∈ String.utf8EncodeChar c) :
    b = byteOf c := by
  rw [← beq_iff_eq, beq_byteOf hc hb, beq_self_eq_true]

theorem toNat_lt_of_isQuote {c : Char} (h : isQuote c = true) : c.toNat < 0x80 := by
  simp only [isQuote, Bool.or_eq_true, beq_iff_eq] at h
  rcases h with rfl | rfl <;> decide

/-- What is taken while a test holds is the same in bytes. -/
theorem takeWhile_bytes {p : UInt8 → Bool} {q : Char → Bool} (h : Tests p q) (u : Text) :
    u.bytes.takeWhile p = Text.bytes (u.takeWhile q) := by
  induction u with
  | nil => rfl
  | cons c u ih =>
      rw [bytes_cons, List.takeWhile_cons]
      cases hc : q c with
      | true =>
          rw [List.takeWhile_append_of_pos fun b hb => (h c b hb).trans hc, ih, if_pos rfl, bytes_cons]
      | false =>
          obtain ⟨b, bs, hbs⟩ : ∃ b bs, String.utf8EncodeChar c = b :: bs := by
            refine List.exists_cons_of_length_pos ?_
            rw [String.length_utf8EncodeChar]
            exact c.utf8Size_pos
          have hb : p b = false := (h c b (by simp [hbs])).trans hc
          rw [hbs, List.cons_append, List.takeWhile_cons, hb]
          rfl

/-! ## Comments -/

/-- Over the bytes a line comment is as long as over the characters. -/
theorem skipLine_eq (h : At t offset u) :
    skipLine t offset = some (offset + (lineComment u).1.byteSize) := by
  induction u generalizing offset with
  | nil => exact loop_stop (by rw [h.byte?_nil]; rfl)
  | cons c u ih =>
      by_cases hc : c = '\n'
      · obtain ⟨b, hb, hbyte⟩ := h.byte?_first
        refine loop_stop ?_
        simp [hbyte, beq_byteOf (d := '\n') (by decide) hb, hc, lineComment]
      · have hover := h.over (f := skipLine t) fun i b hb hbyte => by
          refine loop_again ?_ (Nat.lt_succ_self i) (lt_of_byte? hbyte)
          simp [hbyte, beq_byteOf (d := '\n') (by decide) hb, hc]
        rw [hover, ih h.next]
        simp [lineComment, hc, Nat.add_assoc]

/-- Over the bytes a block comment is as long as over the characters. -/
theorem skipBlock_eq (h : At t offset u) :
    skipBlock t offset = some (offset + (blockComment u).1.byteSize) := by
  fun_induction blockComment u generalizing offset with
  | case1 v =>
      obtain ⟨b, hb, hbyte⟩ := h.byte?_first
      have hslash := (h.next_ascii (by decide)).byte?_beq (d := '/') (by decide)
      refine loop_stop ?_
      simp only [hbyte, beq_byteOf (d := '*') (by decide) hb, isAt, hslash]
      rfl
  | case2 c v hclose x y heq ih =>
      rw [heq] at ih
      have hstep : skipBlock t offset = skipBlock t (offset + c.utf8Size) := by
        by_cases hc : c = '*'
        · -- A star that does not close the comment.
          obtain ⟨b, hb, hbyte⟩ := h.byte?_first
          have hslash : v.head? ≠ some '/' := by
            intro hv
            obtain ⟨w, rfl⟩ := List.head?_eq_some_iff.mp hv
            exact hclose w hc rfl
          subst hc
          have hslash' := (h.next_ascii (by decide)).byte?_beq (d := '/') (by decide)
          refine loop_again ?_ (Nat.lt_succ_self offset) (lt_of_byte? hbyte)
          simp only [hbyte, beq_byteOf (d := '*') (by decide) hb, isAt, hslash',
            beq_eq_false_iff_ne.mpr hslash]
          rfl
        · refine h.over fun i b hb hbyte => loop_again ?_ (Nat.lt_succ_self i) (lt_of_byte? hbyte)
          simp [hbyte, beq_byteOf (d := '*') (by decide) hb, hc]
      rw [hstep, ih h.next, Text.byteSize_cons, Nat.add_assoc]
  | case3 => exact loop_stop (by rw [h.byte?_nil]; rfl)

/-! ## Literals -/

/-- A string that meets the end of the text is cut off there, with no value. -/
theorem skipString_of_none {quote : UInt8} {start : Nat} (h : byte? t offset = none) :
    skipString t quote start offset = some (min offset t.byteSize, none) := loop_stop (by rw [h])

/-- A template that meets the end of the text is cut off there. -/
theorem skipTemplate_of_none (h : byte? t offset = none) :
    skipTemplate t offset = some (min offset t.byteSize) := loop_stop (by rw [h])

/-- A backslash at the end of the text steps past it. -/
theorem next_of_backslash (h : At t offset ['\\']) :
    byte? t (offset + 1) = none ∧ byte? t (offset + 2) = none ∧ offset + 1 = t.byteSize :=
  ⟨h.byte? 1, h.byte? 2, h.next.size⟩

/-- The body of a string is passed over, wherever the body started. -/
theorem skipString_over {q : Char} (hq : isQuote q = true) (start : Nat) (h : At t offset u) :
    skipString t (byteOf q) start offset
      = skipString t (byteOf q) start (offset + (stringBody q u).1.byteSize) := by
  have hascii := toNat_lt_of_isQuote hq
  fun_induction stringBody q u generalizing offset with
  | case1 c v x y heq ih =>
      rw [heq] at ih
      obtain ⟨b, hb, hbyte⟩ := h.byte?_first
      -- The backslash takes two bytes, the second of which may be the first of several.
      have hpair : skipString t (byteOf q) start offset
          = skipString t (byteOf q) start (offset + ('\\' : Char).utf8Size + 1) := by
        refine loop_again ?_ (Nat.lt_add_of_pos_right Nat.two_pos) (lt_of_byte? hbyte)
        simp only [hbyte, beq_byteOf (d := '\\') (by decide) hb, beq_self_eq_true, if_true]
        rfl
      have hrest := h.next.over_rest (f := skipString t (byteOf q) start) fun i b hb hbyte => by
        refine loop_again ?_ (Nat.lt_succ_self i) (lt_of_byte? hbyte)
        simp [hbyte, high_ne hb (d := '\\') (by decide), high_ne hb (d := '\n') (by decide), high_ne hb hascii]
      rw [hpair, hrest, ih h.next.next]
      simp only [Text.byteSize_cons, Nat.add_assoc]
  | case2 => rfl
  | case3 c v hpair hgo x y heq ih =>
      rw [heq] at ih
      rw [Bool.or_eq_true, not_or, Bool.not_eq_true, Bool.not_eq_true] at hgo
      by_cases hc : c = '\\'
      · obtain rfl : v = [] := by
          cases v with
          | nil => rfl
          | cons d v => exact absurd rfl (hpair d v hc)
        obtain ⟨rfl, rfl⟩ := Prod.mk.inj heq
        subst hc
        obtain ⟨b, hb, hbyte⟩ := h.byte?_first
        obtain ⟨hnext, hpast, hend⟩ := next_of_backslash h
        have hstep : skipString t (byteOf q) start offset = skipString t (byteOf q) start (offset + 2) := by
          refine loop_again ?_ (Nat.lt_add_of_pos_right Nat.two_pos) (lt_of_byte? hbyte)
          simp [hbyte, beq_byteOf (d := '\\') (by decide) hb]
        rw [hstep, skipString_of_none hpast]
        refine Eq.trans ?_ (skipString_of_none hnext).symm
        rw [← hend, Nat.min_eq_right (Nat.le_succ _), Nat.min_self]
      · have hover := h.over (f := skipString t (byteOf q) start) fun i b hb hbyte => by
          refine loop_again ?_ (Nat.lt_succ_self i) (lt_of_byte? hbyte)
          simp [hbyte, beq_byteOf (d := '\\') (by decide) hb, beq_byteOf (d := '\n') (by decide) hb,
            beq_byteOf hascii hb, hc, hgo]
        rw [hover, ih h.next, Text.byteSize_cons, Nat.add_assoc]
  | case4 => rfl

/-- A template literal is passed over, with the mark that closes it. -/
theorem skipTemplate_eq (h : At t offset u) :
    skipTemplate t offset = some (offset + (templateBody u).1.byteSize) := by
  fun_induction templateBody u generalizing offset with
  | case1 c v x y heq ih =>
      rw [heq] at ih
      obtain ⟨b, hb, hbyte⟩ := h.byte?_first
      have hpair : skipTemplate t offset = skipTemplate t (offset + ('\\' : Char).utf8Size + 1) := by
        refine loop_again ?_ (Nat.lt_add_of_pos_right Nat.two_pos) (lt_of_byte? hbyte)
        simp only [hbyte, beq_byteOf (d := '\\') (by decide) hb, beq_self_eq_true, if_true]
        rfl
      have hrest := h.next.over_rest (f := skipTemplate t) fun i b hb hbyte => by
        refine loop_again ?_ (Nat.lt_succ_self i) (lt_of_byte? hbyte)
        simp [hbyte, high_ne hb (d := '\\') (by decide), high_ne hb (d := templateMark) (by decide)]
      rw [hpair, hrest, ih h.next.next]
      simp only [Text.byteSize_cons, Nat.add_assoc]
  | case2 c v hpair hmark =>
      rw [beq_iff_eq] at hmark
      subst hmark
      obtain ⟨b, hb, hbyte⟩ := h.byte?_first
      refine loop_stop ?_
      simp only [hbyte, beq_byteOf (d := '\\') (by decide) hb, beq_byteOf (d := templateMark) (by decide) hb]
      rfl
  | case3 c v hpair hgo x y heq ih =>
      rw [heq] at ih
      by_cases hc : c = '\\'
      · obtain rfl : v = [] := by
          cases v with
          | nil => rfl
          | cons d v => exact absurd rfl (hpair d v hc)
        obtain ⟨rfl, rfl⟩ := Prod.mk.inj heq
        subst hc
        obtain ⟨b, hb, hbyte⟩ := h.byte?_first
        obtain ⟨-, hpast, hend⟩ := next_of_backslash h
        have hstep : skipTemplate t offset = skipTemplate t (offset + 2) := by
          refine loop_again ?_ (Nat.lt_add_of_pos_right Nat.two_pos) (lt_of_byte? hbyte)
          simp [hbyte, beq_byteOf (d := '\\') (by decide) hb]
        rw [hstep, skipTemplate_of_none hpast, ← hend, Nat.min_eq_right (Nat.le_succ _)]
        rfl
      · have hover := h.over (f := skipTemplate t) fun i b hb hbyte => by
          refine loop_again ?_ (Nat.lt_succ_self i) (lt_of_byte? hbyte)
          simp [hbyte, beq_byteOf (d := '\\') (by decide) hb, beq_byteOf (d := templateMark) (by decide) hb,
            hc, hgo]
        rw [hover, ih h.next, Text.byteSize_cons, Nat.add_assoc]
  | case4 =>
      rw [skipTemplate_of_none h.byte?_nil, Nat.min_eq_left h.le]
      rfl

/-! ## Strings -/

/-- A string that is closed behind its body. -/
theorem skipString_of_closed {q : Char} (hq : isQuote q = true) {rest : Text} (start : Nat)
    (h : At t offset u) (hrest : (stringBody q u).2 = q :: rest) :
    skipString t (byteOf q) start offset
      = some (offset + (stringBody q u).1.byteSize + 1, some ⟨start, offset + (stringBody q u).1.byteSize⟩) := by
  have hend : At t (offset + (stringBody q u).1.byteSize) (q :: rest) := by
    rw [← hrest]
    exact At.pass (by rwa [Import.stringBody_append])
  obtain ⟨b, hb, hbyte⟩ := hend.byte?_first
  obtain ⟨hback, hline, -⟩ := Import.quote_ne hq
  rw [skipString_over hq start h]
  refine loop_stop ?_
  simp [hbyte, beq_byteOf (d := '\\') (by decide) hb, beq_byteOf (d := '\n') (by decide) hb,
    beq_byteOf (toNat_lt_of_isQuote hq) hb, hback, hline]

/-- A string that is not closed on its line. -/
theorem skipString_of_open {q : Char} (hq : isQuote q = true) (start : Nat) (h : At t offset u)
    (hrest : ∀ rest, (stringBody q u).2 ≠ q :: rest) :
    skipString t (byteOf q) start offset = some (offset + (stringBody q u).1.byteSize, none) := by
  have hend : At t (offset + (stringBody q u).1.byteSize) (stringBody q u).2 :=
    At.pass (by rwa [Import.stringBody_append])
  rw [skipString_over hq start h]
  cases hstop : (stringBody q u).2 with
  | nil =>
      rw [hstop] at hend
      rw [skipString_of_none hend.byte?_nil, Nat.min_eq_left hend.le]
  | cons c rest =>
      obtain rfl | rfl := Import.stringBody_rest hstop
      · exact absurd hstop (hrest rest)
      · rw [hstop] at hend
        obtain ⟨b, hb, hbyte⟩ := hend.byte?_first
        refine loop_stop ?_
        simp [hbyte, beq_byteOf (d := '\\') (by decide) hb, beq_byteOf (d := '\n') (by decide) hb]

/-- At a quote of either kind the scanner reads a string closed by the same quote. -/
theorem parseQuoted_of_isQuote {q : Char} (hq : isQuote q = true) (h : At t offset (q :: u)) :
    parseQuoted t offset = skipString t (byteOf q) (offset + 1) (offset + 1) := by
  obtain ⟨b, hb, hbyte⟩ := h.byte?_first
  obtain rfl := eq_byteOf (toNat_lt_of_isQuote hq) hb
  rw [parseQuoted, hbyte]
  simp [tests_isQuoteByte q _ hb, hq]

/-- A closed string at the offset is read, with the range of its body. -/
theorem parseQuoted_of_some {q : Char} {body rest : Text} (h : At t offset u)
    (hquoted : quoted? u = some (q, body, rest)) :
    isQuote q = true ∧
      parseQuoted t offset = some (offset + 1 + body.byteSize + 1, some (.at (offset + 1) body)) := by
  cases u with
  | nil => cases hquoted
  | cons c u =>
      rw [quoted?] at hquoted
      by_cases hq : isQuote c = true
      · rw [if_pos hq] at hquoted
        have hnext := h.next_ascii (toNat_lt_of_isQuote hq)
        split at hquoted
        · next b d r heq =>
            by_cases hd : (d == c) = true
            · rw [if_pos hd] at hquoted
              obtain ⟨rfl, rfl, rfl⟩ : c = q ∧ b = body ∧ r = rest := by simpa using hquoted
              rw [beq_iff_eq] at hd
              subst hd
              refine ⟨hq, ?_⟩
              rw [parseQuoted_of_isQuote hq h, skipString_of_closed hq _ hnext (by rw [heq]), heq]
              rfl
            · rw [if_neg hd] at hquoted
              cases hquoted
        · cases hquoted
      · rw [if_neg hq] at hquoted
        cases hquoted

/-- Behind a whole string the byte scanner stands where the character scanner does. -/
theorem At.quoted {q : Char} {body rest : Text} (h : At t offset u)
    (hquoted : quoted? u = some (q, body, rest)) : At t (offset + 1 + body.byteSize + 1) rest := by
  obtain ⟨hq, -⟩ := parseQuoted_of_some h hquoted
  have hascii := toNat_lt_of_isQuote hq
  rw [Import.quoted?_append hquoted] at h
  exact At.next_ascii (At.pass (At.next_ascii h hascii)) hascii

/-- Where no closed string is at the offset, nothing goes wrong either. -/
theorem parseQuoted_of_none (h : At t offset u) (hquoted : quoted? u = none) :
    ∃ stop, parseQuoted t offset = some (stop, none) := by
  cases u with
  | nil => exact ⟨offset, by rw [parseQuoted, h.byte?_nil]⟩
  | cons c u =>
      by_cases hq : isQuote c = true
      · refine ⟨_, (parseQuoted_of_isQuote hq h).trans
          (skipString_of_open hq _ (h.next_ascii (toNat_lt_of_isQuote hq)) fun rest hrest => ?_)⟩
        rw [quoted?, if_pos hq, show stringBody c u = ((stringBody c u).1, c :: rest) from
          Prod.ext rfl hrest] at hquoted
        simp at hquoted
      · obtain ⟨b, hb, hbyte⟩ := h.byte?_first
        refine ⟨offset, ?_⟩
        rw [parseQuoted, hbyte]
        simp [tests_isQuoteByte c b hb, hq]

/-! ## Trivia and words -/

/-- Over the bytes a run of blanks is as long as over the characters. -/
theorem skipBlanks_eq (h : At t offset u) :
    skipBlanks t offset = some (offset + Text.byteSize (u.takeWhile Text.isAsciiBlank)) := by
  induction u generalizing offset with
  | nil => exact loop_stop (by rw [h.byte?_nil]; rfl)
  | cons c u ih =>
      by_cases hc : Text.isAsciiBlank c = true
      · have hover := h.over (f := skipBlanks t) fun i b hb hbyte => by
          refine loop_again ?_ (Nat.lt_succ_self i) (lt_of_byte? hbyte)
          simp [hbyte, tests_isBlankByte c b hb, hc]
        rw [hover, ih h.next]
        simp [hc, Nat.add_assoc]
      · obtain ⟨b, hb, hbyte⟩ := h.byte?_first
        refine loop_stop ?_
        simp [hbyte, tests_isBlankByte c b hb, hc]

/-- To look for an ASCII character at an offset is to compare the head of what is left. -/
theorem isAt_eq (h : At t offset u) {d : Char} (hd : d.toNat < 0x80) :
    isAt t offset d = (u.head? == some d) := h.byte?_beq hd

/-- The two characters that open a comment are told from their bytes. -/
theorem opens_eq {c : Char} {b : UInt8} (h : At t offset (c :: u)) (hb : b ∈ String.utf8EncodeChar c)
    {d : Char} (hd : d.toNat < 0x80) :
    (b == byteOf '/' && isAt t (offset + 1) d) = (c == '/' && u.head? == some d) := by
  rw [beq_byteOf (by decide) hb]
  by_cases hc : c = '/'
  · subst hc
    rw [isAt_eq (h.next_ascii (by decide)) hd]
  · rw [beq_eq_false_iff_ne.mpr hc, Bool.false_and, Bool.false_and]

/-- Behind a line comment both scanners stand at the same place. -/
theorem skipLine_lexeme (h : At t offset ('/' :: '/' :: u)) :
    skipLine t offset = some (offset + (lexeme ('/' :: '/' :: u)).1.byteSize) := skipLine_eq h

/-- Behind a block comment both scanners stand at the same place. -/
theorem skipBlock_lexeme (h : At t offset ('/' :: '*' :: u)) :
    skipBlock t (offset + 2) = some (offset + (lexeme ('/' :: '*' :: u)).1.byteSize) := by
  rw [skipBlock_eq ((h.next_ascii (by decide)).next_ascii (by decide))]
  show some (offset + 2 + _) = some (offset + (1 + (1 + _)))
  rw [← Nat.add_assoc 1 1, ← Nat.add_assoc]

theorem toNat_lt_of_isAsciiBlank {c : Char} (h : Text.isAsciiBlank c = true) : c.toNat < 0x80 := by
  simp only [Text.isAsciiBlank, Bool.or_eq_true, beq_iff_eq] at h
  rcases h with (((rfl | rfl) | rfl) | rfl) | rfl <;> decide

/-- A lexeme moves on. -/
theorem lt_lexeme (offset : Nat) (hne : u ≠ []) : offset < offset + (lexeme u).1.byteSize :=
  Nat.lt_add_of_pos_right (Text.byteSize_pos (Import.lexeme_ne_nil hne))

/-- Where a blank or a comment starts, the scanner passes it and goes on. -/
theorem skipTrivia_of_startsTrivia (h : At t offset u) (hs : Import.startsTrivia u = true) :
    skipTrivia t offset = skipTrivia t (offset + (lexeme u).1.byteSize) := by
  cases u with
  | nil => exact absurd hs (by decide)
  | cons c v =>
      obtain ⟨b, hb, hbyte⟩ := h.byte?_first
      refine loop_again ?_ (lt_lexeme offset (List.cons_ne_nil c v)) (lt_of_byte? hbyte)
      simp only [hbyte, tests_isBlankByte c b hb, opens_eq h hb (d := '/') (by decide),
        opens_eq h hb (d := '*') (by decide)]
      by_cases hblank : Text.isAsciiBlank c = true
      · rw [if_pos hblank, Import.lexeme_blank hblank, Text.byteSize_cons,
          utf8Size_ascii (toNat_lt_of_isAsciiBlank hblank)]
        rfl
      rw [if_neg hblank]
      simp only [Import.startsTrivia, hblank, Bool.false_or, Bool.and_eq_true, beq_iff_eq, Bool.or_eq_true] at hs
      obtain ⟨rfl, hline | hblock⟩ := hs
      · obtain ⟨w, rfl⟩ := List.head?_eq_some_iff.mp hline
        rw [if_pos (by simp), skipLine_lexeme h]
        rfl
      · obtain ⟨w, rfl⟩ := List.head?_eq_some_iff.mp hblock
        rw [if_neg (by simp), if_pos (by simp), skipBlock_lexeme h]
        rfl

/-- Where neither a blank nor a comment starts, the scanner stays. -/
theorem skipTrivia_of_not_startsTrivia (h : At t offset u) (hs : Import.startsTrivia u = false) :
    skipTrivia t offset = some offset := by
  cases u with
  | nil => exact loop_stop (by rw [h.byte?_nil])
  | cons c v =>
      obtain ⟨b, hb, hbyte⟩ := h.byte?_first
      simp only [Import.startsTrivia, Bool.or_eq_false_iff, Bool.and_eq_false_iff] at hs
      refine loop_stop ?_
      simp only [hbyte, tests_isBlankByte c b hb, opens_eq h hb (d := '/') (by decide),
        opens_eq h hb (d := '*') (by decide)]
      rw [if_neg (by simp [hs.1])]
      rcases hs.2 with hc | hv
      · simp [hc]
      · simp [hv]

/-- Trivia are passed over, lexeme by lexeme. -/
theorem skipTrivia_eq (h : At t offset u) :
    skipTrivia t offset = some (offset + (trivia u).1.byteSize) := by
  induction hn : u.length using Nat.strongRecOn generalizing u offset with
  | ind n ih =>
      rw [Import.trivia_eq]
      cases hs : Import.startsTrivia u with
      | false =>
          rw [skipTrivia_of_not_startsTrivia h hs]
          rfl
      | true =>
          have hne : u ≠ [] := by
            rintro rfl
            exact absurd hs (by decide)
          have hlexeme : At t (offset + (lexeme u).1.byteSize) (lexeme u).2 :=
            At.pass (by rwa [Import.lexeme_append])
          rw [skipTrivia_of_startsTrivia h hs, ih _ (hn ▸ Import.lexeme_rest_lt hne) hlexeme rfl, if_pos rfl,
            Text.byteSize_append, Nat.add_assoc]

/-- Behind the blanks and comments the byte scanner stands where the character scanner does. -/
theorem At.trivia (h : At t offset u) : At t (offset + (trivia u).1.byteSize) (trivia u).2 :=
  At.pass (by rwa [Import.trivia_append])

/-- Behind a word the byte scanner stands where the character scanner does. -/
theorem At.word (h : At t offset u) : At t (offset + (word u).1.byteSize) (word u).2 :=
  At.pass (by rwa [Import.word_append])

/-- The size of the word at an offset is that of the word at the head of what is left. -/
theorem identSize?_eq (h : At t offset u) : identSize? t offset = some (word u).1.byteSize := by
  rw [identSize?, if_pos h.le, h.bytes, takeWhile_bytes tests_isIdentByte, Text.length_bytes]
  rfl

/-- The word that is cut out by its bytes is the word at the head of what is left. -/
theorem wordAt_eq (h : At t offset u) : wordAt t offset = some (word u).1 := by
  have hslice : slice? t ⟨offset, offset + (word u).1.byteSize⟩ = some (word u).1 :=
    At.slice (by rwa [Import.word_append])
  rw [wordAt, Nat.min_eq_left h.le, identSize?_eq h]
  exact hslice

end Typings.Offset
