import Typings.Proofs.Import.Forward

/-!
# `StaticSite` — reading a written clause

A clause is read token by token, and each token is read without regard to what follows it, except that
no identifier may run into it.  So the clauses of the grammar are read as a whole, up to the `from`
behind them.

* `Reads seen a`: the text `a` joins the clause as it is, at every depth and in front of every rest.
* `Closes seen a`: the same up to and with a closing brace.
* `staticSite?_clause`: the site of a written clause, with or without the `type` modifier.

The depth counts the braces that are open, for only outside of them does `from` end a clause.
-/

namespace Typings.Import

/-! ## One token -/

/-- There is no clause where only trivia are left. -/
theorem readClause?_of_nil {depth : Nat} {seen : Bool} {t : Text} (h : (trivia t).2 = []) :
    readClause? depth seen t = none := by
  rw [readClause?]
  split
  · rfl
  · next heq => exact absurd (h.symm.trans heq) (by simp)

/-- The clause reader at its first token. -/
theorem readClause?_of_trivia {depth : Nat} {seen : Bool} {t blanks rest : Text} {c : Char}
    (h : trivia t = (blanks, c :: rest)) :
    readClause? depth seen t =
      if c == '\x7b' then (readClause? (depth + 1) seen rest).map (.hold (blanks ++ [c]))
      else if c == '\x7d' then
        match depth with
        | 0 => none
        | d + 1 => (readClause? d true rest).map (.join (blanks ++ [c]))
      else if c == ',' || c == '*' then
        (readClause? depth (seen || c == '*') rest).map (.join (blanks ++ [c]))
      else if isIdent c then
        if c :: (word rest).1 == "from" && depth == 0 && seen then
          some ⟨[], blanks ++ c :: (word rest).1, (word rest).2⟩
        else (readClause? depth true (word rest).2).map (.join (blanks ++ c :: (word rest).1))
      else none := by
  rw [readClause?]
  split
  · rename_i heq
    rw [h] at heq
    exact absurd heq (by simp)
  · rename_i d u heq
    rw [h] at heq
    obtain ⟨rfl, rfl⟩ := List.cons.inj heq
    generalize trivia t = read at h
    subst h
    rfl

/-- Texts that are held back one after the other are held back together. -/
theorem ClauseRead.hold_hold (a b : Text) (r : ClauseRead) :
    (r.hold b).hold a = r.hold (a ++ b) := by
  unfold hold join
  by_cases h : r.clause.isEmpty = true
  · simp [h]
  · have hr : r.clause ≠ [] := by simpa using h
    simp [hr]

/-- A text in front of one that joins the clause joins it as well. -/
theorem ClauseRead.hold_join {b : Text} (a : Text) (hb : b ≠ []) (r : ClauseRead) :
    (r.join b).hold a = r.join (a ++ b) := by
  unfold hold join
  simp [hb]

theorem map_hold_map_join {b : Text} (a : Text) (hb : b ≠ []) (o : Option ClauseRead) :
    (o.map (ClauseRead.join b)).map (ClauseRead.hold a) = o.map (ClauseRead.join (a ++ b)) := by
  rw [Option.map_map]
  congr 1
  funext r
  exact ClauseRead.hold_join a hb r

theorem map_join_map_join (a b : Text) (o : Option ClauseRead) :
    (o.map (ClauseRead.join b)).map (ClauseRead.join a) = o.map (ClauseRead.join (a ++ b)) := by
  rw [Option.map_map]
  congr 1
  funext r
  simp [ClauseRead.join]

/-- A blank belongs to the clause when something after it does. -/
theorem readClause?_blank {depth : Nat} {seen : Bool} {b : Char} {t : Text}
    (hb : Text.isAsciiBlank b = true) :
    readClause? depth seen (b :: t) = (readClause? depth seen t).map (.hold [b]) := by
  have ht := trivia_blank (t := t) hb
  rcases htr : trivia t with ⟨blanks, rest⟩
  rw [htr] at ht
  cases rest with
  | nil =>
      rw [readClause?_of_nil (by rw [ht]), readClause?_of_nil (by rw [htr])]
      rfl
  | cons c rest =>
      rw [readClause?_of_trivia ht, readClause?_of_trivia htr]
      split
      · rw [Option.map_map]
        congr 1
        funext r
        exact (ClauseRead.hold_hold [b] (blanks ++ [c]) r).symm
      · split
        · cases depth with
          | zero => rfl
          | succ d => exact (map_hold_map_join [b] (by simp) _).symm
        · split
          · exact (map_hold_map_join [b] (by simp) _).symm
          · split
            · split
              · rfl
              · exact (map_hold_map_join [b] (by simp) _).symm
            · rfl

/-! ## Texts that join the clause -/

/-- The text joins the clause as it is, and leaves a binding seen. -/
def Reads (seen : Bool) (a : Text) : Prop :=
  ∀ (depth : Nat) (t : Text), Breaks t →
    readClause? depth seen (a ++ t) = (readClause? depth true t).map (.join a)

/-- The text joins the clause as it is, and closes one brace. -/
def Closes (seen : Bool) (a : Text) : Prop :=
  ∀ (depth : Nat) (t : Text),
    readClause? (depth + 1) seen (a ++ t) = (readClause? depth true t).map (.join a)

/-- Whether a word runs on is decided by the first character. -/
theorem breaks_append {a t : Text} (hne : a ≠ []) (ha : Breaks a) : Breaks (a ++ t) := by
  obtain ⟨c, a, rfl⟩ := List.exists_cons_of_ne_nil hne
  rw [List.cons_append, breaks_cons]
  exact breaks_cons.mp ha

/-- Two texts that join a clause do so together, if no word of the first runs on into the second. -/
theorem Reads.append {seen : Bool} {a b : Text} (ha : Reads seen a) (hb : Reads true b)
    (hne : b ≠ []) (hbr : Breaks b) : Reads seen (a ++ b) := by
  intro depth t ht
  rw [List.append_assoc, ha depth _ (breaks_append hne hbr), hb depth t ht, map_join_map_join]

/-- A text in front of one that closes a brace closes it as well. -/
theorem Reads.close {seen : Bool} {a b : Text} (ha : Reads seen a) (hb : Closes true b)
    (hne : b ≠ []) (hbr : Breaks b) : Closes seen (a ++ b) := by
  intro depth t
  rw [List.append_assoc, ha (depth + 1) _ (breaks_append hne hbr), hb depth t, map_join_map_join]

/-- A blank in front changes nothing of what is read. -/
theorem Reads.blank {seen : Bool} {a : Text} (ha : Reads seen a) (hne : a ≠ []) :
    Reads seen (' ' :: a) := by
  intro depth t ht
  rw [List.cons_append, readClause?_blank (by decide), ha depth t ht, map_hold_map_join _ hne]
  rfl

/-- A blank in front changes nothing of what is closed. -/
theorem Closes.blank {seen : Bool} {a : Text} (ha : Closes seen a) (hne : a ≠ []) :
    Closes seen (' ' :: a) := by
  intro depth t
  rw [List.cons_append, readClause?_blank (by decide), ha depth t, map_hold_map_join _ hne]
  rfl

/-- A star joins the clause, and leaves a binding seen. -/
theorem reads_star (seen : Bool) : Reads seen ['*'] := by
  intro depth t ht
  have h := trivia_of_token (c := '*') (t := t) (by decide) (by decide)
  rw [List.singleton_append, readClause?_of_trivia h]
  simp

/-- A comma joins the clause and leaves everything else as it was. -/
theorem readClause?_comma (depth : Nat) (seen : Bool) (t : Text) :
    readClause? depth seen (',' :: t) = (readClause? depth seen t).map (.join [',']) := by
  have h := trivia_of_token (c := ',') (t := t) (by decide) (by decide)
  rw [readClause?_of_trivia h]
  simp

/-- Behind a binding a comma joins the clause. -/
theorem reads_comma : Reads true [','] := fun depth t _ => readClause?_comma depth true t

/-- A closing brace closes one. -/
theorem closes_brace (seen : Bool) : Closes seen ['\x7d'] := by
  intro depth t
  have h := trivia_of_token (c := '\x7d') (t := t) (by decide) (by decide)
  rw [List.singleton_append, readClause?_of_trivia h]
  simp

/-- Every word joins the clause, but for a `from` behind a binding. -/
theorem reads_word {w : Text} {seen : Bool} (hne : w ≠ []) (hw : ∀ c ∈ w, isIdent c = true)
    (hf : seen = true → w ≠ "from") : Reads seen w := by
  intro depth t ht
  obtain ⟨c, w, rfl⟩ := List.exists_cons_of_ne_nil hne
  have hc : isIdent c = true := hw c (by simp)
  have h1 : (c == '\x7b') = false := beq_eq_false_iff_ne.mpr (ne_of_isIdent hc (by decide))
  have h2 : (c == '\x7d') = false := beq_eq_false_iff_ne.mpr (ne_of_isIdent hc (by decide))
  have h3 : (c == ',') = false := beq_eq_false_iff_ne.mpr (ne_of_isIdent hc (by decide))
  have h4 : (c == '*') = false := beq_eq_false_iff_ne.mpr (ne_of_isIdent hc (by decide))
  have h5 : (c :: w == "from" && depth == 0 && seen) = false := by
    cases seen with
    | false => rw [Bool.and_false]
    | true => rw [beq_eq_false_iff_ne.mpr (hf rfl), Bool.false_and, Bool.false_and]
  have hword : word (w ++ t) = (w, t) := word_append_of_breaks (fun d hd => hw d (by simp [hd])) ht
  rw [List.cons_append, readClause?_of_trivia (trivia_of_isIdent hc), h1, h2, h3, h4, hc, hword, h5]
  rfl

/-- A name joins the clause: it is not the `from` that ends it. -/
theorem reads_name (seen : Bool) (n : Name) : Reads seen n.text :=
  reads_word n.nonempty n.ident fun _ => n.not_from

/-- An opening brace, and what closes it. -/
theorem Closes.opened {seen : Bool} {a : Text} (ha : Closes seen a) (hne : a ≠ []) (depth : Nat) (t : Text) :
    readClause? depth seen ('\x7b' :: a ++ t) = (readClause? depth true t).map (.join ('\x7b' :: a)) := by
  have h := trivia_of_token (c := '\x7b') (t := a ++ t) (by decide) (by decide)
  rw [List.cons_append, readClause?_of_trivia h, if_pos (by decide), ha depth t,
    map_hold_map_join _ hne]
  rfl

/-- A brace that is opened and closed joins the clause. -/
theorem Closes.reads {seen : Bool} {a : Text} (ha : Closes seen a) (hne : a ≠ []) :
    Reads seen ('\x7b' :: a) := fun depth t _ => ha.opened hne depth t

/-! ## The clauses of the grammar -/

/-- Two texts with a blank between them join the clause. -/
theorem Reads.spaced {seen : Bool} {a b : Text} (ha : Reads seen a) (hb : Reads true b)
    (hne : b ≠ []) : Reads seen (a ++ ' ' :: b) :=
  ha.append (hb.blank hne) (by simp) (breaks_cons.mpr (by decide))

/-- The word `type` joins the clause where it stands in it. -/
theorem reads_type (seen : Bool) : Reads seen "type" :=
  reads_word (by decide) (List.all_eq_true.mp (by decide)) fun _ => by decide

/-- The word `as` joins the clause. -/
theorem reads_as (seen : Bool) : Reads seen "as" :=
  reads_word (by decide) (List.all_eq_true.mp (by decide)) fun _ => by decide

/-- What is read may be followed by the name that it is bound to. -/
theorem reads_renamed {seen : Bool} {a : Text} (ha : Reads seen a) (n : Name) :
    Reads seen (a ++ " as " ++ n.text) := by
  have h := (ha.spaced (reads_as true) (by decide)).spaced (reads_name true n) n.nonempty
  simpa using h

/-- Every binding joins the clause, renamed or not and with a modifier or without. -/
theorem reads_binding (seen : Bool) (b : Binding) : Reads seen b.text := by
  obtain ⟨typed, n, renamed⟩ := b
  have hname : Reads seen (modifier typed ++ n.text) := by
    cases typed with
    | false => exact reads_name seen n
    | true =>
        have h := (reads_type seen).spaced (reads_name true n) n.nonempty
        simpa [modifier] using h
  cases renamed with
  | none => simpa [Binding.text_kept] using hname
  | some m => simpa [Binding.text_renamed] using reads_renamed hname m

/-- Bindings with commas between them, up to the closing brace. -/
theorem closes_bindings (seen : Bool) (bs : List Binding) :
    Closes seen (List.intercalate ", " (bs.map Binding.text) ++ [' ', '\x7d']) := by
  have hend (seen : Bool) : Closes seen [' ', '\x7d'] := (closes_brace seen).blank (by simp)
  have hbreak (u : Text) : Breaks (' ' :: u) := breaks_cons.mpr (by decide)
  induction bs generalizing seen with
  | nil => exact hend seen
  | cons b bs ih =>
      cases bs with
      | nil =>
          rw [List.map_singleton, List.intercalate_singleton]
          exact (reads_binding seen b).close (hend true) (by simp) (hbreak _)
      | cons b' bs =>
          have hcomma := reads_comma.close ((ih true).blank (by simp)) (by simp) (hbreak _)
          have h := (reads_binding seen b).close hcomma (by simp) (breaks_cons.mpr (by decide))
          simpa using h

/-- A list of bindings between braces joins the clause. -/
theorem reads_braces (seen : Bool) (bs : List Binding) : Reads seen (braces bs) := by
  have h := ((closes_bindings seen bs).blank (by simp)).reads (by simp)
  simpa [braces] using h

/-- A binding of everything under one name joins the clause. -/
theorem reads_allAs (seen : Bool) (n : Name) : Reads seen ("* as " ++ n.text) := by
  simpa using reads_renamed (reads_star seen) n

/-- Every clause of an import is read as it was written. -/
theorem ImportClause.reads (c : ImportClause) : Reads false c.text := by
  cases c with
  | default n => exact reads_name false n
  | all n => exact reads_allAs false n
  | named bs => exact reads_braces false bs
  | both n bs =>
      have hcomma := (reads_name false n).append reads_comma (by simp) (breaks_cons.mpr (by decide))
      have h := hcomma.spaced (reads_braces true bs) (by simp [braces])
      simpa [ImportClause.text_both] using h

/-- Every clause of a re-export is read as it was written. -/
theorem ExportClause.reads (c : ExportClause) : Reads false c.text := by
  cases c with
  | all => exact reads_star false
  | allAs n => exact reads_allAs false n
  | named bs => exact reads_braces false bs

/-- A clause is read up to the `from` behind it. -/
theorem readClause?_of_reads {a t : Text} (ha : Reads false a) (ht : Breaks t) :
    readClause? 0 false (a ++ ' ' :: 'f' :: 'r' :: 'o' :: 'm' :: t) = some ⟨a, " from", t⟩ := by
  have hw : word ('r' :: 'o' :: 'm' :: t) = (['r', 'o', 'm'], t) :=
    word_append_of_breaks (w := ['r', 'o', 'm']) (List.all_eq_true.mp (by decide)) ht
  have hf : readClause? 0 true ('f' :: 'r' :: 'o' :: 'm' :: t) = some ⟨[], "from", t⟩ := by
    rw [readClause?_of_trivia (trivia_of_isIdent (by decide)), hw]
    rfl
  rw [ha 0 _ (breaks_cons.mpr (by decide)), readClause?_blank (by decide), hf]
  simp [ClauseRead.join, ClauseRead.hold]

/-! ## How a clause starts -/

/-- The text starts as clauses do: with a name, a star or an opening brace. -/
inductive ClauseStart : Text → Prop where
  | ident {w : Text} (hne : w ≠ []) (hw : ∀ c ∈ w, isIdent c = true) (htype : w ≠ "type")
      (hfrom : w ≠ "from") (u : Text) (h : ∀ t, Breaks t → Breaks (u ++ t)) : ClauseStart (w ++ u)
  | star (u : Text) : ClauseStart ('*' :: u)
  | brace (u : Text) : ClauseStart ('\x7b' :: u)

/-- A word alone starts a clause, if it has no meaning of its own there. -/
theorem clauseStart_word {w : Text} (hne : w ≠ []) (hw : ∀ c ∈ w, isIdent c = true)
    (htype : w ≠ "type") (hfrom : w ≠ "from") : ClauseStart w := by
  have h := ClauseStart.ident hne hw htype hfrom [] fun _ ht => ht
  rwa [List.append_nil] at h

/-- The clause of an import starts as clauses do. -/
theorem ImportClause.start (c : ImportClause) : ClauseStart c.text := by
  cases c with
  | default n => exact clauseStart_word n.nonempty n.ident n.not_type n.not_from
  | all n => exact .star _
  | named bs => exact .brace _
  | both n bs =>
      have h := ClauseStart.ident n.nonempty n.ident n.not_type n.not_from (", " ++ braces bs)
        fun t _ => breaks_cons.mpr (by decide)
      rwa [← List.append_assoc] at h

/-- The clause of a re-export starts as clauses do. -/
theorem ExportClause.start (c : ExportClause) : ClauseStart c.text := by
  cases c with
  | all => exact .star _
  | allAs n => exact .star _
  | named bs => exact .brace _

/-- The first word of a clause is neither `type` nor `from`. -/
theorem ClauseStart.word_ne {a t : Text} (ha : ClauseStart a) (ht : Breaks t) :
    (word (a ++ t)).1 ≠ "type" ∧ (word (a ++ t)).1 ≠ "from" := by
  cases ha with
  | ident hne hw htype hfrom u h =>
      rw [List.append_assoc, word_append_of_breaks hw (h t ht)]
      exact ⟨htype, hfrom⟩
  | star u =>
      rw [List.cons_append, word_of_breaks (breaks_cons.mpr (by decide))]
      exact ⟨by simp, by simp⟩
  | brace u =>
      rw [List.cons_append, word_of_breaks (breaks_cons.mpr (by decide))]
      exact ⟨by simp, by simp⟩

/-- The first character of a clause: no trivia, and one that starts a static site. -/
theorem ClauseStart.exists_cons {a : Text} (ha : ClauseStart a) :
    ∃ c u, a = c :: u ∧ (isIdent c || c == '\x7b' || c == '*') = true ∧
      Text.isAsciiBlank c = false ∧ c ≠ '/' := by
  cases ha with
  | ident hne hw htype hfrom u h =>
      obtain ⟨c, v, rfl⟩ := List.exists_cons_of_ne_nil hne
      have hc : isIdent c = true := hw c (by simp)
      exact ⟨c, v ++ u, rfl, by rw [hc]; rfl, isAsciiBlank_of_isIdent hc,
        ne_of_isIdent hc (by decide)⟩
  | star u => exact ⟨'*', u, rfl, by decide, by decide, by decide⟩
  | brace u => exact ⟨'\x7b', u, rfl, by decide, by decide, by decide⟩

/-- In front of a clause there is nothing to pass over. -/
theorem ClauseStart.trivia {a : Text} (ha : ClauseStart a) (t : Text) :
    trivia (a ++ t) = ([], a ++ t) := by
  obtain ⟨c, u, rfl, -, hb, hs⟩ := ha.exists_cons
  exact trivia_of_token hb hs

/-- With the modifier in front of it or without, a clause starts with a character that can start one. -/
theorem ClauseStart.modified {a : Text} (ha : ClauseStart a) (typed : Bool) (t : Text) :
    ∃ c u, modifier typed ++ (a ++ t) = c :: u ∧ (isIdent c || c == '\x7b' || c == '*') = true ∧
      Text.isAsciiBlank c = false ∧ c ≠ '/' := by
  cases typed with
  | false =>
      obtain ⟨c, u, rfl, h⟩ := ha.exists_cons
      exact ⟨c, u ++ t, rfl, h⟩
  | true => exact ⟨'t', "ype " ++ (a ++ t), rfl, by decide, by decide, by decide⟩

/-- Behind a keyword just one blank is passed over. -/
theorem ClauseStart.trivia_modified {a : Text} (ha : ClauseStart a) (typed : Bool) (t : Text) :
    Import.trivia (' ' :: (modifier typed ++ (a ++ t))) = ([' '], modifier typed ++ (a ++ t)) := by
  obtain ⟨c, u, hcu, -, hb, hs⟩ := ha.modified typed t
  rw [hcu, trivia_blank (by decide), trivia_of_token hb hs]

/-! ## The sites of the grammar -/

/-- The modifier is told from the clause behind it, and missed where it is not written. -/
theorem typeModifier_modifier {a t : Text} (typed : Bool) (ha : ClauseStart a) (ht : Breaks t) :
    typeModifier (modifier typed ++ (a ++ t))
      = (if typed then some (modifier true) else none, a ++ t) := by
  obtain ⟨htype, hfrom⟩ := ha.word_ne ht
  cases typed with
  | false =>
      rw [show modifier false = [] from rfl, List.nil_append, typeModifier,
        if_neg (by rw [beq_iff_eq]; exact htype)]
      rfl
  | true =>
      have hw : word (modifier true ++ (a ++ t)) = ("type".toList, ' ' :: (a ++ t)) :=
        word_append_of_breaks (w := "type") (List.all_eq_true.mp (by decide))
          (breaks_cons.mpr (by decide))
      have htr : trivia (' ' :: (a ++ t)) = ([' '], a ++ t) := by
        rw [trivia_blank (by decide), ha.trivia]
      have hb : bindsType (a ++ t) = false := by
        rw [bindsType, beq_eq_false_iff_ne.mpr hfrom, Bool.false_and]
      rw [typeModifier, hw, if_pos (beq_self_eq_true _), htr]
      simp [hb, modifier]

/-- The site of a written clause and its source. -/
def clauseSite (k : Keyword) (typed : Bool) (a : Text) (q : Literal) : Site where
  kind := .static
  keyword := k
  typeOnly := typed
  head := k.text ++ [' '] ++ modifier typed
  clause := a
  link := " from " ++ [q.quote.char]
  specifier := q.body
  tail := [q.quote.char]

/-- **A written clause is read as a site**, with its modifier, its clause and its source. -/
theorem staticSite?_clause {k : Keyword} {a : Text} (typed : Bool) (q : Literal) (t : Text)
    (hs : ClauseStart a) (hr : Reads false a) :
    staticSite? k (k.text ++ [' ']) (modifier typed ++ (a ++ (" from " ++ (q.text ++ t))))
      = some (clauseSite k typed a q, t) := by
  have hm := typeModifier_modifier (t := " from " ++ (q.text ++ t)) typed hs
    (breaks_cons.mpr (by decide))
  have hc := readClause?_of_reads (t := ' ' :: (q.text ++ t)) hr (breaks_cons.mpr (by decide))
  have htr : trivia (' ' :: (q.text ++ t)) = ([' '], q.text ++ t) := by
    rw [trivia_blank (by decide), trivia_literal]
  have hc' : readClause? 0 false (a ++ (" from " ++ (q.text ++ t)))
      = some ⟨a, " from", ' ' :: (q.text ++ t)⟩ := hc
  simp only [staticSite?, hm, hc', Option.bind_eq_bind, Option.bind_some, htr, quoted?_literal,
    Option.pure_def]
  cases typed with
  | false => simp [clauseSite, modifier]
  | true => simp [clauseSite]

/-- Behind `import` a clause and its source are a static site. -/
theorem importSite?_clause {a : Text} (typed : Bool) (q : Literal) (t : Text)
    (hs : ClauseStart a) (hr : Reads false a) :
    importSite? (' ' :: (modifier typed ++ (a ++ (" from " ++ (q.text ++ t)))))
      = some (clauseSite .importing typed a q, t) := by
  obtain ⟨c, u, hcu, hstart, -, -⟩ := hs.modified typed (" from " ++ (q.text ++ t))
  have hparen : (c == '(') = false := by
    rw [beq_eq_false_iff_ne]; rintro rfl; exact absurd hstart (by decide)
  have hquote : isQuote c = false := by
    have h1 : c ≠ '\'' := by rintro rfl; exact absurd hstart (by decide)
    have h2 : c ≠ '"' := by rintro rfl; exact absurd hstart (by decide)
    simp [isQuote, h1, h2]
  have hsite := staticSite?_clause (k := .importing) typed q t hs hr
  have htr := hs.trivia_modified typed (" from " ++ (q.text ++ t))
  rw [hcu] at hsite htr ⊢
  simp only [importSite?, htr, hparen, hquote, hstart]
  exact hsite

/-- The clause of a re-export starts with a brace or a star, which no declaration does. -/
theorem ExportClause.exists_cons (c : ExportClause) :
    ∃ d u, c.text = d :: u ∧ (d == '\x7b' || d == '*') = true := by
  cases c with
  | all => exact ⟨'*', _, rfl, rfl⟩
  | allAs n => exact ⟨'*', _, rfl, rfl⟩
  | named bs => exact ⟨'\x7b', _, rfl, rfl⟩

/-- Behind `export` such a clause is taken for one of a re-export. -/
theorem reexports_clause {t : Text} (typed : Bool) (c : ExportClause) (ht : Breaks t) :
    reexports (modifier typed ++ (c.text ++ t)) = true := by
  obtain ⟨d, u, hd, hstart⟩ := c.exists_cons
  have hblank : Text.isAsciiBlank d = false := by
    rcases Bool.or_eq_true_iff.mp hstart with h | h <;> · rw [beq_iff_eq.mp h]; decide
  cases typed with
  | false =>
      have hw := (c.start.word_ne ht).1
      rw [show modifier false = [] from rfl, List.nil_append, reexports,
        if_neg (by rw [beq_iff_eq]; exact hw), hd, List.cons_append]
      exact hstart
  | true =>
      have hw : word (modifier true ++ (c.text ++ t)) = ("type".toList, ' ' :: (c.text ++ t)) :=
        word_append_of_breaks (w := "type") (List.all_eq_true.mp (by decide))
          (breaks_cons.mpr (by decide))
      rw [reexports, hw, if_pos (beq_self_eq_true _), hd, List.cons_append,
        List.dropWhile_cons_of_pos (by decide), List.dropWhile_cons_of_neg (by simp [hblank])]
      exact hstart

/-- Behind `export` a clause and its source are a static site. -/
theorem exportSite?_clause (typed : Bool) (c : ExportClause) (q : Literal) (t : Text) :
    exportSite? (' ' :: (modifier typed ++ (c.text ++ (" from " ++ (q.text ++ t)))))
      = some (clauseSite .exporting typed c.text q, t) := by
  have hre := reexports_clause (t := " from " ++ (q.text ++ t)) typed c (breaks_cons.mpr (by decide))
  have htr := c.start.trivia_modified typed (" from " ++ (q.text ++ t))
  simp only [exportSite?, htr, hre]
  exact staticSite?_clause typed q t c.start c.reads

end Typings.Import
