import Typings.Proofs.Import.Soundness
import Typings.Proofs.Offset.Order
import Typings.Proofs.Offset.Site

/-!
# `Scan` — scanning by byte offsets

Scanning byte by byte never goes wrong, ends, and finds the sites and the references that a text is cut
at, with their ranges.

* `keywordRound_eq`: one lexeme.
* `scanRound_of_keyword`, `loop_scanRound`, `scanImports_eq`: one site, and all sites.
* `scanTypeReferences_eq`: all references.

A lexeme is passed over or is the next keyword, and both scanners agree on which. Whether a dot stands
in front is known to one of them as a flag and to the other as the byte before the offset, so the
invariant says that the two tell the same of an identifier that comes next (`Dotted`). The induction
is on the text that is ahead.
-/

namespace Typings.Offset

open Import (Range Keyword Site Located Segments Reference isIdent isQuote templateMark word lexeme keyword? stringBody
  stringRest InStep Parts)

variable {t u front : Text} {offset : Nat}

/-! ## One lexeme -/

/-- The byte before an offset tells whether a dot is there. -/
theorem afterDot_eq (front u : Text) :
    afterDot (front ++ u) front.byteSize = some (front.getLast? == some '.') := by
  obtain rfl | ⟨f, c, rfl⟩ := List.eq_nil_or_concat front
  · rfl
  · rw [List.concat_eq_append]
    have hpos := c.utf8Size_pos
    have hsize : Text.byteSize (f ++ [c]) = Text.byteSize f + (c.utf8Size - 1) + 1 := by
      rw [Text.byteSize_append, Text.byteSize_cons, Text.byteSize_nil]
      omega
    have hat : At (f ++ [c] ++ u) (Text.byteSize f) (c :: u) :=
      ⟨f, by rw [List.append_assoc, List.singleton_append], rfl⟩
    obtain ⟨b, hb, hbyte⟩ := hat.byte?_cons (i := c.utf8Size - 1) (by omega)
    rw [hsize, afterDot, hbyte, Option.map_some, beq_byteOf (by decide) hb, List.getLast?_append]
    simp

/-- What is before an identifier tells whether it is a property. -/
def Dotted (front u : Text) (property : Bool) : Prop :=
  ∀ c ∈ u.head?, isIdent c = true → (front.getLast? == some '.') = property

/-- A string is passed over, be it closed or not. -/
theorem skipString_stringRest {q : Char} (hq : isQuote q = true) (start : Nat) (h : At t offset u) :
    ∃ r, skipString t (byteOf q) start offset = some (offset + (stringRest q u).1.byteSize, r) := by
  rcases Import.stringRest_cases q u with ⟨body, rest, hbody, hclosed⟩ | ⟨hopen, hline⟩
  · refine ⟨some ⟨start, offset + Text.byteSize body⟩, ?_⟩
    rw [skipString_of_closed hq start h (congrArg Prod.snd hbody), hbody, hclosed]
    simp [utf8Size_of_isQuote hq, Nat.add_assoc]
  · refine ⟨none, ?_⟩
    rw [hopen]
    refine skipString_of_open hq start h fun rest heq => ?_
    obtain rfl : q = '\n' := hline q (by rw [heq]; rfl)
    exact absurd hq (by decide)

/-- Where something is ahead, the text goes on. -/
theorem lt_size (front : Text) (hne : u ≠ []) : front.byteSize < (front ++ u).byteSize := by
  rw [Text.byteSize_append]
  exact Nat.lt_add_of_pos_right (Text.byteSize_pos hne)

/-- Where no comment opens, the lexeme can be told from its first character. -/
theorem lexeme_cons {c : Char} {v : Text}
    (hc : c = '/' → v.head? ≠ some '/' ∧ v.head? ≠ some '*') :
    lexeme (c :: v) =
      if isQuote c then (c :: (stringRest c v).1, (stringRest c v).2)
      else if c == templateMark then (c :: (Import.templateBody v).1, (Import.templateBody v).2)
      else if isIdent c then (c :: (word v).1, (word v).2)
      else ([c], v) := by
  by_cases hslash : c = '/'
  · obtain ⟨hline, hblock⟩ := hc hslash
    subst hslash
    exact Import.lexeme_slash hline hblock
  · exact Import.lexeme_of_ne_slash hslash

theorem mem_lexeme (c : Char) (v : Text) : c ∈ (lexeme (c :: v)).1 := by
  obtain ⟨d, w, hw⟩ := List.exists_cons_of_ne_nil (Import.lexeme_ne_nil (t := c :: v) (by simp))
  have happend := Import.lexeme_append (c :: v)
  rw [hw] at happend
  rw [hw, (List.cons.inj happend).1]
  exact List.mem_cons_self

/-- **One lexeme** is passed over, or it is the next keyword. -/
theorem keywordRound_eq {property : Bool} (hd : Dotted front u property) (hne : u ≠ []) :
    keywordRound (front ++ u) front.byteSize =
      match if property then none else keyword? (lexeme u).1 with
      | some k => some (.stop (some (k, front.byteSize)))
      | none => some (.again (front.byteSize + (lexeme u).1.byteSize)) := by
  obtain ⟨c, v, rfl⟩ := List.exists_cons_of_ne_nil hne
  have h : At (front ++ c :: v) front.byteSize (c :: v) := ⟨front, rfl, rfl⟩
  obtain ⟨b, hb, hbyte⟩ := h.byte?_first
  -- What does not begin as an identifier is no keyword.
  have hnone (hident : isIdent c = false) :
      (if property then none else keyword? (lexeme (c :: v)).1) = none := by
    cases property with
    | true => rfl
    | false =>
        rw [if_neg Bool.false_ne_true]
        exact Import.keyword?_eq_none_of_mem (mem_lexeme c v) hident
  rw [keywordRound, hbyte]
  simp only [opens_eq h hb (d := '/') (by decide), opens_eq h hb (d := '*') (by decide),
    tests_isQuoteByte c b hb, beq_byteOf (d := templateMark) (by decide) hb, tests_isIdentByte c b hb]
  by_cases hline : c = '/' ∧ v.head? = some '/'
  · obtain ⟨rfl, hv⟩ := hline
    obtain ⟨w, rfl⟩ := List.head?_eq_some_iff.mp hv
    rw [hnone (by decide), if_pos (by simp), skipLine_lexeme h]
    rfl
  by_cases hblock : c = '/' ∧ v.head? = some '*'
  · obtain ⟨rfl, hv⟩ := hblock
    obtain ⟨w, rfl⟩ := List.head?_eq_some_iff.mp hv
    rw [hnone (by decide), if_neg (by simp), if_pos (by simp), skipBlock_lexeme h]
    rfl
  rw [if_neg (by simpa using hline), if_neg (by simpa using hblock)]
  have hlexeme := lexeme_cons (c := c) (v := v) fun hc => ⟨fun hv => hline ⟨hc, hv⟩, fun hv => hblock ⟨hc, hv⟩⟩
  by_cases hq : isQuote c = true
  · rw [if_pos hq] at hlexeme ⊢
    have hascii := toNat_lt_of_isQuote hq
    obtain rfl := eq_byteOf hascii hb
    obtain ⟨r, hr⟩ := skipString_stringRest hq (front.byteSize + 1) (h.next_ascii hascii)
    rw [hnone (Import.quote_ne hq).2.2.2, hlexeme, hr]
    simp [utf8Size_ascii hascii, Nat.add_assoc]
  rw [if_neg hq] at hlexeme ⊢
  by_cases ht : (c == templateMark) = true
  · rw [if_pos ht] at hlexeme ⊢
    rw [beq_iff_eq] at ht
    subst ht
    rw [hnone (by decide), hlexeme, skipTemplate_eq (h.next_ascii (by decide))]
    simp [utf8Size_ascii (c := templateMark) (by decide), Nat.add_assoc]
  rw [if_neg ht] at hlexeme ⊢
  by_cases hident : isIdent c = true
  · rw [if_pos hident] at hlexeme ⊢
    have hword : (lexeme (c :: v)).1 = (word (c :: v)).1 := by
      rw [hlexeme]
      simp [word, hident]
    have hslice : slice? (front ++ c :: v) ⟨front.byteSize, front.byteSize + (word (c :: v)).1.byteSize⟩
        = some (word (c :: v)).1 := At.slice (by rwa [Import.word_append])
    rw [identSize?_eq h, hword]
    simp only [Option.bind_eq_bind, Option.bind_some, afterDot_eq, hd c rfl hident, hslice]
    cases property with
    | true => rfl
    | false => cases keyword? (word (c :: v)).1 <;> rfl
  · rw [if_neg hident] at hlexeme ⊢
    have hascii : c.toNat < 0x80 := by
      rw [← Nat.not_le]
      exact fun hhigh => hident (by simp [isIdent, hhigh])
    rw [hnone (by simpa using hident), hlexeme, Text.byteSize_cons, utf8Size_ascii hascii]
    rfl

theorem nextKeyword_of_some {k : Keyword} (hd : Dotted front u false) (hne : u ≠ [])
    (hk : keyword? (lexeme u).1 = some k) :
    nextKeyword (front ++ u) front.byteSize = some (some (k, front.byteSize)) := by
  refine loop_stop ?_
  rw [keywordRound_eq hd hne, if_neg Bool.false_ne_true, hk]

theorem nextKeyword_of_none {property : Bool} (hd : Dotted front u property) (hne : u ≠ [])
    (hk : (if property then none else keyword? (lexeme u).1) = none) :
    nextKeyword (front ++ u) front.byteSize
      = nextKeyword (front ++ u) (front.byteSize + (lexeme u).1.byteSize) := by
  refine loop_again ?_ (lt_lexeme _ hne) (lt_size front hne)
  rw [keywordRound_eq hd hne, hk]

/-! ## All sites -/

/-- What scanning knows of what is before it tells whether an identifier is a property. -/
theorem dotted_of_inStep {property : Bool} (h : InStep front u property)
    (hdot : property = true → front.getLast? = some '.') : Dotted front u property := by
  intro c hc hident
  cases property with
  | true => rw [hdot rfl, beq_self_eq_true]
  | false =>
      rw [beq_eq_false_iff_ne]
      intro hlast
      exact (h.parts rfl c hc hident '.' hlast).2 rfl

/-- What is behind a keyword is ahead there. -/
theorem at_keyword {k : Keyword} (front : Text) (hk : keyword? (lexeme u).1 = some k) :
    At (front ++ u) (front.byteSize + k.text.byteSize) (lexeme u).2 := by
  rw [Import.text_of_keyword? hk]
  exact ⟨front ++ (lexeme u).1, by rw [List.append_assoc, Import.lexeme_append], Text.byteSize_append _ _⟩

/-- One round, where the next lexeme is a keyword: its site is found, or it is passed over. -/
theorem scanRound_of_keyword {k : Keyword} (marks : List Mark) (hd : Dotted front u false) (hne : u ≠ [])
    (hk : keyword? (lexeme u).1 = some k) :
    scanRound (front ++ u) (marks, front.byteSize) = some (.again
      (match Import.siteAfter? k (lexeme u).2 with
        | some (site, _) => (marks ++ [.of (site.locate front.byteSize)], front.byteSize + site.text.byteSize)
        | none => (marks, front.byteSize + (lexeme u).1.byteSize))) := by
  rw [scanRound]
  simp only [nextKeyword_of_some hd hne hk, Option.bind_eq_bind, Option.bind_some, parseAfter_eq (at_keyword front hk)]
  cases Import.siteAfter? k (lexeme u).2 with
  | some r => rfl
  | none => rw [← Import.text_of_keyword? hk]; rfl

/-- **Scanning from an offset on** finds the sites of the text that is ahead. -/
theorem loop_scanRound {property : Bool} (marks : List Mark) (h : InStep front u property)
    (hdot : property = true → front.getLast? = some '.') :
    loop (front ++ u).byteSize Prod.snd (scanRound (front ++ u)) (marks, front.byteSize)
      = some (marks ++ (Segments.located.go front.byteSize (Import.scanFrom property u).sites).map .of) := by
  fun_induction Import.scanFrom property u generalizing front marks with
  | case1 property =>
      have hend : At (front ++ []) front.byteSize [] := ⟨front, rfl, rfl⟩
      have hnext : nextKeyword (front ++ []) front.byteSize = some none :=
        loop_stop (by rw [keywordRound, hend.byte?_nil])
      refine loop_stop ?_
      rw [scanRound, hnext, Segments.located.go, List.map_nil, List.append_nil marks]
      rfl
  | case2 property u hne site rest hs hlt ih =>
      cases property with
      | true => exact absurd hs (by simp [Import.siteAt?])
      | false =>
          obtain ⟨hnext, -⟩ := h.site hs
          have hrest := @ih (front ++ site.text) (marks ++ [Mark.of (site.locate front.byteSize)]) hnext
            fun h => absurd h Bool.false_ne_true
          rw [List.append_assoc front, ← Import.siteAt?_append hs, Text.byteSize_append front site.text] at hrest
          obtain ⟨k, hk, hsite⟩ := Option.bind_eq_some_iff.mp hs
          have hround : scanRound (front ++ u) (marks, front.byteSize) = some (.again
              (marks ++ [.of (site.locate front.byteSize)], front.byteSize + site.text.byteSize)) := by
            rw [scanRound_of_keyword marks (dotted_of_inStep h hdot) hne hk, hsite]
          have hnested := (Import.spaced_of_siteAt? hs).nested front.byteSize
          have hforward : front.byteSize < front.byteSize + site.text.byteSize :=
            hnested.start_lt.trans (hnested.specifier.trans_lt hnested.stop_lt)
          rw [loop_again hround hforward (lt_size front hne), hrest, Segments.go_consSite, List.append_assoc]
          rfl
  | case3 property u hne hs hlt ih =>
      have hpass : loop (front ++ u).byteSize Prod.snd (scanRound (front ++ u))
          (marks, front.byteSize + (lexeme u).1.byteSize)
          = some (marks ++ (Segments.located.go (front.byteSize + (lexeme u).1.byteSize)
              (Import.scanFrom ((lexeme u).1 == ".") (lexeme u).2).sites).map .of) := by
        have hrest := ih marks (h.pass hne) fun hdot => by
          rw [beq_iff_eq.mp hdot, List.getLast?_append]
          rfl
        rwa [List.append_assoc, Import.lexeme_append, Text.byteSize_append front (lexeme u).1] at hrest
      rw [Segments.go_prepend]
      cases hk : (if property then none else keyword? (lexeme u).1) with
      | none =>
          -- The round is the one behind the lexeme.
          refine loop_back hpass ?_ (Nat.le_add_right _ _)
          rw [scanRound, scanRound, nextKeyword_of_none (dotted_of_inStep h hdot) hne hk]
      | some k =>
          -- A keyword without a site: scanning goes on behind it.
          cases property with
          | true => cases hk
          | false =>
              rw [if_neg Bool.false_ne_true] at hk
              have hsite : Import.siteAfter? k (lexeme u).2 = none := by
                rw [Import.siteAt?, if_neg Bool.false_ne_true, hk, Option.bind_some] at hs
                exact hs
              have hround : scanRound (front ++ u) (marks, front.byteSize)
                  = some (.again (marks, front.byteSize + (lexeme u).1.byteSize)) := by
                rw [scanRound_of_keyword marks (dotted_of_inStep h hdot) hne hk, hsite]
              exact (loop_again hround (lt_lexeme _ hne) (lt_size front hne)).trans hpass

/-- **Scanning byte by byte** never goes wrong, ends, and finds the sites of the text. -/
theorem scanImports_eq (t : Text) : scanImports t = some ((Import.scan t).located.map .of) :=
  loop_scanRound [] (Import.inStep_nil t) (fun h => absurd h Bool.false_ne_true)

/-! ## All references -/

/-- A reference as the ranges of its parts. -/
def TypeMark.of (r : Reference) : TypeMark where
  span := r.span
  specifier := r.specifier
  member := r.member

theorem member?_cons (v : Text) :
    Import.member? ('.' :: v)
      = if (word v).1.byteSize == 0 then none else some ((word v).1, (word v).2) := by
  rw [Import.member?]
  cases hword : word v with
  | mk name rest =>
      cases name with
      | nil => rfl
      | cons c name =>
          have hsize : (Text.byteSize (c :: name) == 0) = false :=
            beq_eq_false_iff_ne.mpr (Text.byteSize_pos (List.cons_ne_nil c name)).ne'
          rw [hsize]
          rfl

/-- The type that is named behind a site. -/
theorem typeReference_eq {l : Located} (h : At t l.span.stop u) :
    typeReference t (.of l) = some ((l.reference? u).map .of) := by
  rw [typeReference, Located.reference?]
  show (if (l.site.kind == .dynamic && isAt t l.span.stop '.') = true then _ else _) = _
  rw [isAt_eq h (by decide)]
  cases hkind : l.site.kind == .dynamic with
  | false => rfl
  | true =>
      by_cases hdot : u.head? = some '.'
      · obtain ⟨v, rfl⟩ := List.head?_eq_some_iff.mp hdot
        rw [if_pos (by simp), if_pos rfl, member?_cons]
        show ((identSize? t (l.span.stop + 1)).bind _ : Option (Option TypeMark)) = _
        rw [identSize?_eq (h.next_ascii (by decide)), Option.bind_some]
        cases hsize : (word v).1.byteSize == 0 with
        | true => rfl
        | false => rfl
      · rw [if_neg (by simpa using hdot), if_pos rfl, Import.member?]
        · rfl
        · exact fun v hv => hdot (hv ▸ rfl)

/-- Of the text behind a site only the member counts. -/
theorem reference?_congr (l : Located) {a b : Text}
    (h : (Import.member? a).map Prod.fst = (Import.member? b).map Prod.fst) : l.reference? a = l.reference? b := by
  rw [Located.reference?, Located.reference?]
  cases l.site.kind == .dynamic with
  | false => rfl
  | true =>
      cases ha : Import.member? a with
      | none =>
          rw [ha, eq_comm, Option.map_none, Option.map_eq_none_iff] at h
          rw [h]
      | some p =>
          rw [ha, eq_comm, Option.map_some, Option.map_eq_some_iff] at h
          obtain ⟨⟨name, rest⟩, hb, rfl⟩ := h
          rw [hb]
          rfl

/-- A word ends where something that is no identifier stands. -/
theorem word_append_of_last {v : Text} {d : Char} (hd : d ∈ v.getLast?) (hident : isIdent d = false)
    (tail : Text) : (word (v ++ tail)).1 = (word v).1 := by
  show (v ++ tail).takeWhile isIdent = v.takeWhile isIdent
  rw [List.takeWhile_append, if_neg]
  intro hlength
  have hall : v.takeWhile isIdent = v := (List.takeWhile_prefix isIdent).eq_of_length hlength
  have hmem : d ∈ v.takeWhile isIdent := hall.symm ▸ List.mem_of_getLast? hd
  rw [List.mem_takeWhile_imp hmem] at hident
  cases hident

/-- What stands behind the text after a site makes no difference to the type that is named. -/
theorem reference?_append (l : Located) {after tail : Text} (hparts : Parts after tail)
    (htail : ∀ c ∈ tail.head?, isIdent c = true) : l.reference? (after ++ tail) = l.reference? after := by
  cases tail with
  | nil => rw [List.append_nil]
  | cons d tail =>
      have hd : isIdent d = true := htail d rfl
      have hlast := hparts d rfl hd
      refine reference?_congr l ?_
      cases after with
      | nil =>
          have hdot : d ≠ '.' := by
            rintro rfl
            exact absurd hd (by decide)
          rw [List.nil_append, Import.member?]
          · rfl
          · exact fun v hv => hdot (List.cons.inj hv).1
      | cons c v =>
          by_cases hc : c = '.'
          · subst hc
            have hne : v ≠ [] := by
              rintro rfl
              exact (hlast '.' rfl).2 rfl
            have he := List.getLast?_eq_some_getLast hne
            have hident := (hlast (v.getLast hne) (by rw [List.getLast?_cons, he]; rfl)).1
            rw [List.cons_append, member?_cons, member?_cons, word_append_of_last he hident]
            split <;> rfl
          · rw [List.cons_append, Import.member?, Import.member?]
            · exact fun v hv => hc (List.cons.inj hv).1
            · exact fun v hv => hc (List.cons.inj hv).1

theorem reference?_text (l : Located) {sites : List (Text × Site)}
    (hspaced : ∀ p ∈ sites, Import.Spaced p.1 p.2) (rest : Text) :
    l.reference? (Segments.text ⟨sites, rest⟩) = l.reference? (Declaration.afterSite sites rest) := by
  cases sites with
  | nil => rfl
  | cons p more =>
      obtain ⟨gap, site⟩ := p
      have hsite : Import.Spaced gap site := hspaced _ List.mem_cons_self
      obtain ⟨c, v, hv, hident⟩ := hsite.head
      have hfirst : (site.text ++ Segments.text ⟨more, rest⟩).head? = some c := by
        rw [Site.text, hv]
        rfl
      rw [Import.text_cons]
      refine reference?_append l (fun d hd hdident => hsite.gap) fun d hd => ?_
      rwa [← Option.some.inj (hfirst.symm.trans hd)]

theorem typeReferences_go {sites : List (Text × Site)} (hspaced : ∀ p ∈ sites, Import.Spaced p.1 p.2) {rest : Text}
    (h : At t offset (Segments.text ⟨sites, rest⟩)) :
    typeReferences t ((Segments.located.go offset sites).map .of)
      = some ((Import.referencesFrom offset sites rest).map .of) := by
  induction sites generalizing offset with
  | nil => rfl
  | cons p more ih =>
      obtain ⟨gap, site⟩ := p
      rw [Import.text_cons] at h
      have hmore := ih (fun p hp => hspaced p (List.mem_cons_of_mem _ hp)) h.pass.pass
      rw [Segments.located.go, List.map_cons, typeReferences, Import.referencesFrom_cons]
      have hreference : typeReference t (.of (site.locate (offset + gap.byteSize)))
          = some (((site.locate (offset + gap.byteSize)).reference? (Declaration.afterSite more rest)).map .of) := by
        rw [typeReference_eq (u := Segments.text ⟨more, rest⟩) h.pass.pass,
          reference?_text _ fun p hp => hspaced p (List.mem_cons_of_mem _ hp)]
      rw [hreference]
      simp only [Option.bind_eq_bind, Option.bind_some, hmore, List.map_append]
      cases (site.locate (offset + gap.byteSize)).reference? (Declaration.afterSite more rest) <;> rfl

/-- All of a text, cut at its sites, is ahead at its start. -/
theorem at_scan (t : Text) : At t 0 (Segments.text ⟨(Import.scan t).sites, (Import.scan t).rest⟩) := by
  show At t 0 (Import.scan t).text
  rw [Import.text_scan]
  exact at_zero t

/-- **Reading references byte by byte** never goes wrong, ends, and finds the references of the text. -/
theorem scanTypeReferences_eq (t : Text) :
    scanTypeReferences t = some ((Import.scan t).references.map .of) := by
  rw [scanTypeReferences, scanImports_eq]
  exact typeReferences_go (Import.spaced_scan t) (at_scan t)

end Typings.Offset
