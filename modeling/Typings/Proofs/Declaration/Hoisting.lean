import Typings.Proofs.Declaration.Parts

/-!
# `Hoisting` — what a consolidated text binds

For each module that is referred to, the bindings that its types need are merged into an import of it, or
come in by an import of their own, below the directives at the top.  Either way the text binds what it
did before and the local names of the types, each to its type, and nothing else.

* `exists_merged`: an import that takes more bindings.
* `splitDirectives_spec`, `bound_hoisted`: imports can be put below the directives at the top of a text.
* `exists_bringIn`: the bindings for one module.
* `mem_bound_consolidate`: what a consolidated text binds.
-/

namespace Typings.Declaration

open Import

/-! ## Merging -/

/-- Cut texts whose first suitable import of the module binds more names. -/
def merged? (module : Text) (new : List Text) (s : Segments) : Option Segments :=
  (mergeSites? module new s.sites).map fun sites => { s with sites := sites }

section

variable {module : Text} {new : List Text}

theorem mergeImport?_eq (content : Text) :
    mergeImport? module new content = (merged? module new (scan content)).map Segments.text := by
  rw [mergeImport?, merged?, Option.map_map]
  rfl

/-- Text in front of the sites has no part in the merging. -/
theorem merged?_prepend (t : Text) (s : Segments) :
    merged? module new (s.prepend t) = (merged? module new s).map (·.prepend t) := by
  obtain ⟨sites, rest⟩ := s
  cases sites with
  | nil => rfl
  | cons p more =>
      simp only [merged?, Segments.prepend, mergeSites?]
      cases suitable? module p.2 with
      | some b => rfl
      | none => cases mergeSites? module new more <;> rfl

/-- A site that does not suit is passed over. -/
theorem merged?_consSite_of_none {site : Site} (h : suitable? module site = none) (s : Segments) :
    merged? module new (s.consSite site) = (merged? module new s).map (·.consSite site) := by
  simp only [merged?, Segments.consSite, mergeSites?, h]
  cases mergeSites? module new s.sites <;> rfl

/-- The first site that suits takes the new bindings. -/
theorem merged?_consSite_of_some {site : Site} {b : Bindings} (h : suitable? module site = some b)
    (s : Segments) :
    merged? module new (s.consSite site) = some (s.consSite { site with clause := extendClause b new }) := by
  simp only [merged?, Segments.consSite, mergeSites?, h]
  rfl

/-- Only an import of the module takes bindings. -/
theorem suitable?_eq_some {site : Site} {b : Bindings} (h : suitable? module site = some b) :
    site.kind = .static ∧ site.keyword = .importing ∧ site.specifier = module ∧ site.bindings? = some b := by
  unfold suitable? at h
  split at h
  · next hsite =>
      simp only [Bool.and_eq_true, beq_iff_eq] at hsite
      obtain ⟨⟨hkind, hkeyword⟩, hmodule⟩ := hsite
      refine ⟨hkind, hkeyword, hmodule, ?_⟩
      cases hb : site.bindings? with
      | none =>
          rw [hb] at h
          cases h
      | some b' =>
          rw [hb] at h
          dsimp only at h
          split at h
          · cases h
          · exact h
  · cases h

variable (hnew : ∀ t ∈ new, ∃ b : Binding, b.Solid ∧ b.text = t)

include hnew

/-- The bindings of an import that has taken more. -/
theorem bindings?_extended {site : Site} {b : Bindings} (h : suitable? module site = some b)
    (takes : Takes site b) :
    Site.bindings? { site with clause := extendClause b new }
      = some { b with named := some (addBindings (b.named.getD []) new) } := by
  obtain ⟨hkind, hkeyword, -, -⟩ := suitable?_eq_some h
  obtain ⟨c, solid, hc⟩ := takes.written
  obtain ⟨c', solid', htext, hbindings⟩ := exists_extended solid hc hnew
  rw [Site.bindings?, if_pos (by rw [hkind, hkeyword]; rfl), ← htext, clauseBindings?_text solid', hbindings]

/-- A part whose site takes bindings is such a part again when it has taken them. -/
theorem exists_part_extended {p : Part} {site : Site} (hsite : p.site? = some site) {b : Bindings}
    (h : suitable? module site = some b) :
    ∃ p' : Part, p'.site? = some { site with clause := extendClause b new } ∧ p'.after = p.after ∧
      ∀ x, x ∈ p'.bound ↔ x ∈ p.bound ∨ x ∈ new.filterMap (namedBound? module) := by
  obtain ⟨hkind, -, hmodule, hb⟩ := suitable?_eq_some h
  cases p with
  | plain => cases hsite
  | reference _ _ dynamic =>
      cases hsite
      exact absurd (dynamic.symm.trans hkind) (by decide)
  | site _ _ takes after passes unnamed =>
      cases hsite
      obtain ⟨⟨c, solid, hc⟩, hstands⟩ := takes b hb
      obtain ⟨c', solid', htext, hbindings⟩ := exists_extended solid hc hnew
      have hextended := bindings?_extended hnew h (takes b hb)
      refine ⟨.site { site with clause := extendClause b new } (htext ▸ hstands c' _ solid' hbindings)
        (fun b' hb' => ?_) after passes unnamed, rfl, rfl, fun x => ?_⟩
      · cases hextended.symm.trans hb'
        exact ⟨⟨c', solid', hbindings⟩, hstands⟩
      · show x ∈ Site.bound _ ↔ x ∈ site.bound ∨ _
        rw [bound_of_bindings? hextended, bound_of_bindings? hb, hmodule, mem_bound_addBindings]

/-- **Merging bindings into a text of parts** gives a text of parts, which binds what they bind as well. -/
theorem exists_merged {ps : List Part} {s : Segments} (h : merged? module new (segmentsOf ps) = some s) :
    ∃ ps' : List Part, s = segmentsOf ps' ∧ ∀ x, x ∈ ps'.flatMap Part.bound ↔
      x ∈ ps.flatMap Part.bound ∨ x ∈ new.filterMap (namedBound? module) := by
  induction ps generalizing s with
  | nil => cases h
  | cons p ps ih =>
      rw [segmentsOf, List.foldr_cons, ← segmentsOf] at h
      -- A part that takes no bindings stays in front of what takes them.
      have hrest {s₁ : Segments} (hmerged : merged? module new (segmentsOf ps) = some s₁)
          (hs : p.onto s₁ = s) : ∃ ps' : List Part, s = segmentsOf ps' ∧ ∀ x, x ∈ ps'.flatMap Part.bound ↔
            x ∈ (p :: ps).flatMap Part.bound ∨ x ∈ new.filterMap (namedBound? module) := by
        obtain ⟨ps', rfl, hbound⟩ := ih hmerged
        refine ⟨p :: ps', hs.symm, fun x => ?_⟩
        rw [List.flatMap_cons, List.flatMap_cons, List.mem_append, List.mem_append, hbound, or_assoc]
      cases hsite : p.site? with
      | none =>
          rw [Part.onto_of_none hsite, merged?_prepend] at h
          obtain ⟨s₁, hs₁, rfl⟩ := Option.map_eq_some_iff.mp h
          exact hrest hs₁ (Part.onto_of_none hsite s₁)
      | some site =>
          rw [Part.onto_of_some hsite] at h
          cases hsuitable : suitable? module site with
          | none =>
              rw [merged?_consSite_of_none hsuitable, merged?_prepend, Option.map_map] at h
              obtain ⟨s₁, hs₁, rfl⟩ := Option.map_eq_some_iff.mp h
              exact hrest hs₁ (Part.onto_of_some hsite s₁)
          | some b =>
              rw [merged?_consSite_of_some hsuitable] at h
              cases h
              obtain ⟨p', hsite', hafter, hbound⟩ := exists_part_extended hnew hsite hsuitable
              refine ⟨p' :: ps, ?_, fun x => ?_⟩
              · rw [← hafter]
                exact (Part.onto_of_some hsite' _).symm
              · rw [List.flatMap_cons, List.flatMap_cons, List.mem_append, List.mem_append, hbound,
                  or_right_comm]

end

/-! ## Below the directives -/

theorem isMark_of_isBlank {c : Char} (h : Text.isBlank c = true) (hi : isIdent c = false) :
    isMark c = true ∧ c ≠ '.' := by
  have hne {d : Char} (hd : Text.isBlank d = false) : c ≠ d := by
    rintro rfl
    rw [hd] at h
    cases h
  refine ⟨?_, hne (by decide)⟩
  simp only [isMark, isQuote, hi, Bool.and_eq_true, bne_iff_ne, Bool.not_eq_true', Bool.or_eq_false_iff,
    beq_eq_false_iff_ne, and_true]
  exact ⟨⟨⟨hne (by decide), hne (by decide)⟩, hne (by decide)⟩, hne (by decide)⟩

/-- Blanks that are identifier characters make up a word. -/
theorem exists_blank_word {c : Char} {rest : Text} (h : ∀ d ∈ c :: rest, Text.isBlank d = true)
    (hi : isIdent c = true) (t : Text) :
    ∃ (word : Word) (r : Text), c :: rest = word.text ++ r ∧ Breaks (r ++ '/' :: t) := by
  have hword : c :: rest.takeWhile isIdent ++ rest.dropWhile isIdent = c :: rest :=
    congrArg (c :: ·) List.takeWhile_append_dropWhile
  have hletter {d : Char} (hd : Text.isBlank d = false) : d ∉ c :: rest.takeWhile isIdent := by
    intro hm
    rw [h d (hword ▸ List.mem_append_left _ hm)] at hd
    cases hd
  refine ⟨{ text := c :: rest.takeWhile isIdent
            nonempty := List.cons_ne_nil _ _
            ident := List.forall_mem_cons.mpr ⟨hi, fun d hd => List.mem_takeWhile_imp hd⟩
            not_import := fun he => hletter (d := 'i') (by decide) (he ▸ by decide)
            not_export := fun he => hletter (d := 'e') (by decide) (he ▸ by decide) },
    rest.dropWhile isIdent, hword.symm, ?_⟩
  cases hd : rest.dropWhile isIdent with
  | nil => exact breaks_cons.mpr (by decide)
  | cons d r =>
      have hhead := List.head_dropWhile_not isIdent (l := rest) (by rw [hd]; simp)
      simp only [hd, List.head_cons] at hhead
      exact breaks_cons.mpr hhead

/-- Blanks in front of a slash are passed over.  Beyond ASCII they make up words. -/
theorem scanFrom_blanks {blanks : Text} (h : ∀ c ∈ blanks, Text.isBlank c = true) (t : Text) :
    scanFrom false (blanks ++ '/' :: t) = (scanFrom false ('/' :: t)).prepend blanks := by
  induction hn : blanks.length using Nat.strongRecOn generalizing blanks with
  | ind n ih =>
      cases blanks with
      | nil => exact (Segments.prepend_nil _).symm
      | cons c rest =>
          cases hi : isIdent c with
          | true =>
              obtain ⟨word, r, hsplit, hr⟩ := exists_blank_word h hi t
              have hshorter : r.length < n := by
                rw [← hn, hsplit, List.length_append]
                exact Nat.lt_add_of_pos_left (List.length_pos_iff.mpr word.nonempty)
              have hrest := ih r.length hshorter (fun d hd => h d (hsplit ▸ by simp [hd])) rfl
              rw [hsplit, List.append_assoc, scanFrom_word word hr, hrest, Segments.prepend_prepend]
          | false =>
              obtain ⟨hmark, hdot⟩ := isMark_of_isBlank (h c (by simp)) hi
              have hrest := ih rest.length (by rw [← hn]; simp) (fun d hd => h d (by simp [hd])) rfl
              rw [List.cons_append, scanFrom_mark hmark, beq_eq_false_iff_ne.mpr hdot, hrest,
                Segments.prepend_prepend]
              rfl

/-- Text that ends in a comment: no site is found in it, nor after it on the same line. -/
def Unfinished (a : Text) : Prop := ∀ t, '\n' ∉ t → (scanFrom false (a ++ t)).sites = []

/-- A line comment without its line feed is unfinished. -/
theorem unfinished_lineComment {body : Text} (h : '\n' ∉ body) : Unfinished ('/' :: '/' :: body) := by
  intro t ht
  have hline : ∀ c ∈ body ++ t, (c != '\n') = true := by
    intro c hc
    rw [bne_iff_ne]
    rintro rfl
    exact (List.mem_append.mp hc).elim h ht
  have hlexeme : lexeme ('/' :: '/' :: (body ++ t) ++ []) = ('/' :: '/' :: (body ++ t), []) := by
    rw [List.append_nil, lexeme, lineComment, List.takeWhile_eq_self_iff.mpr hline,
      List.dropWhile_eq_nil_iff.mpr hline]
  have hscan := scanFrom_comment false hlexeme
  rw [List.append_nil, scanFrom_nil] at hscan
  exact congrArg Segments.sites hscan

theorem sites_prepend_of_nil {s : Segments} (h : s.sites = []) (t : Text) : (s.prepend t).sites = [] := by
  rw [Segments.prepend, h]

/-- What passes in front of something unfinished is unfinished with it. -/
theorem Passes.unfinished {a b : Text} (ha : Passes a) (hb : Unfinished b) : Unfinished (a ++ b) := by
  intro t ht
  rw [List.append_assoc, ha]
  exact sites_prepend_of_nil (hb t ht) a

section

variable {blanks a : Text} (hblanks : ∀ c ∈ blanks, Text.isBlank c = true)

include hblanks

theorem Passes.afterBlanks (ha : Passes ('/' :: a)) : Passes (blanks ++ '/' :: a) := by
  intro t
  rw [List.append_assoc, List.cons_append, scanFrom_blanks hblanks, ← List.cons_append, ha,
    Segments.prepend_prepend]

theorem Unfinished.afterBlanks (ha : Unfinished ('/' :: a)) : Unfinished (blanks ++ '/' :: a) := by
  intro t ht
  rw [List.append_assoc, List.cons_append, scanFrom_blanks hblanks]
  exact sites_prepend_of_nil (ha t ht) blanks

end

/-- A line comment with its line feed passes. -/
theorem passes_lineComment {body : Text} (h : '\n' ∉ body) : Passes ('/' :: '/' :: body ++ ['\n']) := by
  intro t
  have hscan := scanFrom_comment false (lexeme_lineComment (t := t) h)
  rw [scanFrom_mark (by decide), Segments.prepend_prepend] at hscan
  rw [List.append_assoc]
  exact hscan

/-- The first line of a text, with its line break if it has one. -/
theorem firstLine_cases (t : Text) :
    (∃ line rest, '\n' ∉ line ∧ t = line ++ '\n' :: rest ∧ firstLine t = (line ++ ['\n'], rest)) ∨
      '\n' ∉ t ∧ firstLine t = (t, []) := by
  have hbefore : '\n' ∉ t.takeWhile (· != '\n') := fun hm => by simpa using List.mem_takeWhile_imp hm
  have hjoin := List.takeWhile_append_dropWhile (p := (· != '\n')) (l := t)
  unfold firstLine
  rw [List.span_eq_takeWhile_dropWhile]
  cases hd : t.dropWhile (· != '\n') with
  | nil =>
      rw [hd, List.append_nil] at hjoin
      exact .inr ⟨hjoin ▸ hbefore, by rw [hjoin]⟩
  | cons c rest =>
      have hc : c = '\n' := by
        have hhead := List.head_dropWhile_not (· != '\n') (l := t) (by rw [hd]; simp)
        simpa [hd] using hhead
      subst hc
      rw [hd] at hjoin
      exact .inl ⟨_, rest, hbefore, hjoin.symm, rfl⟩

theorem firstLine_append (t : Text) : (firstLine t).1 ++ (firstLine t).2 = t := by
  rcases firstLine_cases t with ⟨line, rest, -, rfl, hfirst⟩ | ⟨-, hfirst⟩
  · rw [hfirst]
    simp
  · rw [hfirst]
    exact List.append_nil t

/-- A directive is a comment, with blanks in front of it. -/
theorem exists_blanks {line : Text} (h : (Text.trimStart line).startsWith "///" = true) :
    ∃ blanks body, (∀ c ∈ blanks, Text.isBlank c = true) ∧ line = blanks ++ '/' :: '/' :: '/' :: body := by
  obtain ⟨body, hbody⟩ := Text.startsWith_iff.mp h
  refine ⟨line.takeWhile Text.isBlank, body, fun c hc => List.mem_takeWhile_imp hc, ?_⟩
  have hstart : line.dropWhile Text.isBlank = '/' :: '/' :: '/' :: body := hbody.symm
  rw [← hstart, List.takeWhile_append_dropWhile]

/-- A directive is passed over with its line break, and unfinished without one. -/
theorem passes_directive {t line rest : Text} (hfirst : firstLine t = (line, rest))
    (h : (Text.trimStart line).startsWith "///" = true) :
    Passes line ∨ rest = [] ∧ Unfinished line := by
  obtain ⟨blanks, body, hblanks, hline⟩ := exists_blanks h
  rcases firstLine_cases t with ⟨front, rest', hbreak, -, hcase⟩ | ⟨hbreak, hcase⟩
  · left
    obtain ⟨rfl, rfl⟩ := Prod.mk.inj (hfirst.symm.trans hcase)
    -- The line break ends the body of the comment.
    obtain ⟨body, rfl, rfl⟩ : ∃ u, body = u ++ ['\n'] ∧ front = blanks ++ '/' :: '/' :: '/' :: u := by
      rcases body.eq_nil_or_concat with rfl | ⟨u, c, rfl⟩
      · have hlast := congrArg List.getLast? hline
        simp at hlast
      · have hsplit : front ++ ['\n'] = (blanks ++ '/' :: '/' :: '/' :: u) ++ [c] := by
          rw [hline, List.concat_eq_append]
          simp
        obtain ⟨hfront, hc⟩ := List.append_inj' hsplit rfl
        exact ⟨u, by rw [List.concat_eq_append, ← hc], hfront⟩
    have hbody : '\n' ∉ '/' :: body := fun hm =>
      hbreak (List.mem_append_right _ (List.mem_cons_of_mem _ (List.mem_cons_of_mem _ hm)))
    rw [hline]
    exact (passes_lineComment hbody).afterBlanks hblanks
  · right
    obtain ⟨rfl, rfl⟩ := Prod.mk.inj (hfirst.symm.trans hcase)
    rw [hline] at hbreak ⊢
    have hbody : '\n' ∉ '/' :: body := fun hm =>
      hbreak (List.mem_append_right _ (List.mem_cons_of_mem _ (List.mem_cons_of_mem _ hm)))
    exact ⟨rfl, (unfinished_lineComment hbody).afterBlanks hblanks⟩

theorem splitDirectives_nil (fuel : Nat) : splitDirectives fuel [] = ([], []) := by
  cases fuel <;> rfl

theorem splitDirectives_succ (fuel : Nat) {t line rest : Text} (hfirst : firstLine t = (line, rest)) :
    splitDirectives (fuel + 1) t =
      if (Text.trimStart line).startsWith "///" = true then
        (line ++ (splitDirectives fuel rest).1, (splitDirectives fuel rest).2)
      else ([], t) := by
  rw [splitDirectives, hfirst]

/-- Directives and the rest make up the text; the directives are passed over, unless there is no rest. -/
theorem splitDirectives_spec (fuel : Nat) (t : Text) :
    (splitDirectives fuel t).1 ++ (splitDirectives fuel t).2 = t ∧
      (Passes (splitDirectives fuel t).1 ∨
        (splitDirectives fuel t).2 = [] ∧ Unfinished (splitDirectives fuel t).1) := by
  induction fuel generalizing t with
  | zero => exact ⟨rfl, .inl passes_nil⟩
  | succ fuel ih =>
      cases hfirst : firstLine t with
      | mk line rest =>
          rw [splitDirectives_succ fuel hfirst]
          split
          · next hdirective =>
              obtain ⟨happend, hrest⟩ := ih rest
              have hline := firstLine_append t
              rw [hfirst] at hline
              refine ⟨by rw [List.append_assoc, happend]; exact hline, ?_⟩
              -- Only the last line can be without a line break, and then nothing comes after it.
              rcases passes_directive hfirst hdirective with hpasses | ⟨rfl, hunfinished⟩
              · exact hrest.imp hpasses.append fun h => ⟨h.1, hpasses.unfinished h.2⟩
              · rw [splitDirectives_nil, List.append_nil]
                exact .inr ⟨rfl, hunfinished⟩
          · exact ⟨rfl, .inl passes_nil⟩

/-- A site after a text of parts is found, so the text does not end in a comment. -/
theorem not_unfinished (ps : List Part) : ¬ Unfinished (textOf ps) := by
  have hstart : (scanFrom false "import('a')").sites ≠ [] := by decide +kernel
  have honto (p : Part) {s : Segments} (hs : s.sites ≠ []) : (p.onto s).sites ≠ [] := by
    rw [Part.onto]
    split
    · exact List.cons_ne_nil _ _
    · obtain ⟨sites, rest⟩ := s
      cases sites with
      | nil => exact absurd rfl hs
      | cons q more => exact List.cons_ne_nil _ _
  have hall : (ps.foldr Part.onto (scanFrom false "import('a')")).sites ≠ [] := by
    induction ps with
    | nil => exact hstart
    | cons p ps ih => exact honto p ih
  intro h
  rw [← scanFrom_textOf] at hall
  exact hall (h _ (by decide))

/-- **Imports below the directives** of a text of parts come to what both bind. -/
theorem bound_hoisted (ps hs : List Part) (fuel : Nat) :
    bound ((splitDirectives fuel (textOf ps)).1 ++ textOf hs ++ (splitDirectives fuel (textOf ps)).2)
      = hs.flatMap Part.bound ++ ps.flatMap Part.bound := by
  have hbound := bound_textOf ps
  obtain ⟨happend, hcases⟩ := splitDirectives_spec fuel (textOf ps)
  cases hsplit : splitDirectives fuel (textOf ps) with
  | mk directives rest =>
      rw [hsplit] at happend hcases
      dsimp only at happend hcases ⊢
      -- If the directives were the whole text, it would end in a comment.
      have hpasses : Passes directives := by
        refine hcases.resolve_right ?_
        rintro ⟨rfl, hunfinished⟩
        rw [List.append_nil] at happend
        exact not_unfinished ps (happend ▸ hunfinished)
      rw [← happend, bound, scan, hpasses, Segments.bound_prepend] at hbound
      rw [bound, scan, List.append_assoc, hpasses, Segments.bound_prepend, scanFrom_textOf, bound_foldr,
        hbound]

/-! ## Bringing the bindings in -/

theorem mem_firstSeenFrom {α : Type} [BEq α] [LawfulBEq α] {a : α} (xs acc : List α) :
    a ∈ xs.foldl (fun acc x => if acc.contains x then acc else acc ++ [x]) acc ↔ a ∈ acc ∨ a ∈ xs := by
  induction xs generalizing acc with
  | nil => simp
  | cons x xs ih =>
      rw [List.foldl_cons, ih, List.mem_cons]
      by_cases hx : x ∈ acc
      · rw [if_pos (List.contains_iff_mem.mpr hx)]
        constructor
        · exact fun h => h.imp_right .inr
        · rintro (h | rfl | h)
          · exact .inl h
          · exact .inl hx
          · exact .inr h
      · rw [if_neg (fun h => hx (List.contains_iff_mem.mp h)), List.mem_append, List.mem_singleton,
          or_assoc]

/-- Dropping repeats drops no member. -/
theorem mem_firstSeen {α : Type} [BEq α] [LawfulBEq α] {a : α} {xs : List α} :
    a ∈ firstSeen xs ↔ a ∈ xs := by
  rw [firstSeen, mem_firstSeenFrom]
  simp

section

variable {refs : List Reference} {module : Text}

/-- A binding is needed for a module when some reference into it is named by it. -/
theorem mem_neededBindings {b : Text} :
    b ∈ neededBindings refs module ↔ ∃ r ∈ refs, r.module = module ∧ binding refs r = b := by
  rw [neededBindings, mem_firstSeen, List.mem_map]
  simp only [List.mem_filter, beq_iff_eq, and_assoc]

/-- A module is referenced when some reference names it. -/
theorem mem_referencedModules :
    module ∈ referencedModules refs ↔ ∃ r ∈ refs, r.module = module := by
  rw [referencedModules, mem_firstSeen, List.mem_map]

theorem textOf_concat (ps : List Part) (p : Part) : textOf (ps ++ [p]) = textOf ps ++ p.text := by
  rw [textOf, List.flatMap_append, List.flatMap_singleton]
  rfl

/-- A new import is the line of a written one. -/
theorem text_importLine {bs : List Binding} (hbs : ∀ b ∈ bs, b.Solid)
    (hquoted : ∀ c ∈ module, Quote.single.admits c) :
    (importPart false (.named bs) hbs ⟨.single, module, hquoted⟩).text
      = importLine module (bs.map Binding.text) := by
  have himport : importLine module (bs.map Binding.text)
      = "import " ++ braces bs ++ " from '" ++ module ++ "';\n" := rfl
  have hclause : (ImportClause.named bs).text = braces bs := rfl
  refine (text_importPart false (c := .named bs) hbs _).trans ?_
  rw [Item.line_importFrom, himport, hclause]
  simp [modifier, Literal.text, Quote.char]

variable (hplain : ∀ r ∈ refs, Plain r)

include hplain

/-- The bindings needed of a module are ones that can be written. -/
theorem written_neededBindings (module : Text) :
    ∀ t ∈ neededBindings refs module, ∃ b : Binding, b.Solid ∧ b.text = t := by
  intro t ht
  obtain ⟨r, hr, -, rfl⟩ := mem_neededBindings.mp ht
  exact exists_binding (hplain r hr) refs

/-- The bindings needed of a module bind the local names of its types. -/
theorem mem_bound_neededBindings {x : Bound} :
    x ∈ (neededBindings refs module).filterMap (namedBound? module) ↔
      ∃ r ∈ refs, r.module = module ∧ x = referenceBound refs r := by
  rw [List.mem_filterMap]
  constructor
  · rintro ⟨b, hb, hx⟩
    obtain ⟨r, hr, rfl, rfl⟩ := mem_neededBindings.mp hb
    rw [namedBound?_binding (hplain r hr)] at hx
    exact ⟨r, hr, rfl, (Option.some.inj hx).symm⟩
  · rintro ⟨r, hr, rfl, rfl⟩
    exact ⟨binding refs r, mem_neededBindings.mpr ⟨r, hr, rfl, rfl⟩, namedBound?_binding (hplain r hr) refs⟩

/-- **The bindings of one module** are brought into texts of parts. -/
theorem exists_bringIn (hmodule : module ∈ referencedModules refs) (ps hs : List Part) :
    ∃ ps' hs' : List Part, bringIn refs (textOf ps, textOf hs) module = (textOf ps', textOf hs') ∧
      ∀ x, x ∈ (hs' ++ ps').flatMap Part.bound ↔ x ∈ (hs ++ ps).flatMap Part.bound ∨
        ∃ r ∈ refs, r.module = module ∧ x = referenceBound refs r := by
  have hnew := written_neededBindings hplain module
  have hmerge := @mergeImport?_eq module (neededBindings refs module) (textOf ps)
  rw [scan_textOf] at hmerge
  rw [bringIn]
  cases hs' : merged? module (neededBindings refs module) (segmentsOf ps) with
  | some s =>
      obtain ⟨ps', rfl, hbound⟩ := exists_merged hnew hs'
      refine ⟨ps', hs, ?_, fun x => ?_⟩
      · rw [hmerge, hs']
        exact congrArg (·, textOf hs) (text_segmentsOf ps')
      · rw [List.flatMap_append, List.flatMap_append, List.mem_append, List.mem_append, hbound,
          mem_bound_neededBindings hplain, or_assoc]
  | none =>
      -- No import takes them, so a new one is put in front of the text.
      obtain ⟨r, hr, hrm⟩ := mem_referencedModules.mp hmodule
      obtain ⟨bs, hbs, htexts⟩ := exists_bindings hnew
      have hquoted : ∀ c ∈ module, Quote.single.admits c := hrm ▸ (hplain r hr).module
      let q : Literal := ⟨.single, module, hquoted⟩
      let p : Part := importPart false (.named bs) hbs q
      refine ⟨ps, hs ++ [p], ?_, fun x => ?_⟩
      · have hline : importLine module (neededBindings refs module) = p.text := by
          rw [← htexts]
          exact (text_importLine hbs hquoted).symm
        rw [hmerge, hs', textOf_concat, ← hline]
        rfl
      · have hbound : p.bound = (neededBindings refs module).filterMap (namedBound? module) := by
          have hbindings : (clauseSite .importing false (ImportClause.named bs).text q).bindings?
              = some ⟨none, some (bs.map Binding.text)⟩ := clauseBindings?_text (c := .named bs) hbs
          rw [← htexts]
          exact bound_of_bindings? hbindings
        simp only [List.flatMap_append, List.flatMap_singleton, List.mem_append, hbound,
          mem_bound_neededBindings hplain]
        exact or_right_comm

/-- The bindings of several modules are brought in one after the other. -/
theorem exists_bringInAll {modules : List Text} (hmodules : ∀ m ∈ modules, m ∈ referencedModules refs)
    (ps hs : List Part) :
    ∃ ps' hs' : List Part,
      modules.foldl (bringIn refs) (textOf ps, textOf hs) = (textOf ps', textOf hs') ∧
        ∀ x, x ∈ (hs' ++ ps').flatMap Part.bound ↔ x ∈ (hs ++ ps).flatMap Part.bound ∨
          ∃ r ∈ refs, r.module ∈ modules ∧ x = referenceBound refs r := by
  induction modules generalizing ps hs with
  | nil => exact ⟨ps, hs, rfl, by simp⟩
  | cons m modules ih =>
      obtain ⟨ps₁, hs₁, hbring, hbound₁⟩ := exists_bringIn hplain (hmodules m (by simp)) ps hs
      obtain ⟨ps₂, hs₂, hfold, hbound₂⟩ := ih (fun m' hm' => hmodules m' (by simp [hm'])) ps₁ hs₁
      refine ⟨ps₂, hs₂, by rw [List.foldl_cons, hbring, hfold], fun x => ?_⟩
      rw [hbound₂, hbound₁]
      constructor
      · rintro ((h | ⟨r, hr, hm, hx⟩) | ⟨r, hr, hm, hx⟩)
        · exact .inl h
        · exact .inr ⟨r, hr, by simp [hm], hx⟩
        · exact .inr ⟨r, hr, by simp [hm], hx⟩
      · rintro (h | ⟨r, hr, hm, hx⟩)
        · exact .inl (.inl h)
        · rcases List.mem_cons.mp hm with hm | hm
          · exact .inl (.inr ⟨r, hr, hm, hx⟩)
          · exact .inr ⟨r, hr, hm, hx⟩

end

/-- **What a consolidated text binds**: what it did before, and the local name of each type it refers to. -/
theorem mem_bound_consolidate (ps : List Part) {x : Bound} :
    x ∈ bound (consolidate (textOf ps)) ↔ x ∈ bound (textOf ps) ∨
      ∃ r ∈ (scan (textOf ps)).references, x = referenceBound (scan (textOf ps)).references r := by
  let refs := (scan (textOf ps)).references
  have hplain : ∀ r ∈ refs, Plain r := fun r hr => plain_of_mem_references hr
  show x ∈ bound (consolidate (textOf ps)) ↔ x ∈ bound (textOf ps) ∨ ∃ r ∈ refs, x = referenceBound refs r
  by_cases hempty : refs.isEmpty = true
  · have hsame : consolidate (textOf ps) = textOf ps := if_pos hempty
    rw [hsame, List.isEmpty_iff.mp hempty]
    simp
  · obtain ⟨ps₂, hs, hfold, hbound₂⟩ := @exists_bringInAll refs hplain (referencedModules refs)
      (fun _ hm => hm) (ps.map (Part.inline refs)) []
    have hboth : x ∈ (hs ++ ps₂).flatMap Part.bound ↔
        x ∈ bound (textOf ps) ∨ ∃ r ∈ refs, x = referenceBound refs r := by
      rw [hbound₂, List.nil_append, bound_map_inline, bound_textOf]
      refine or_congr_right (exists_congr fun r => and_congr_right fun hr => ?_)
      exact and_iff_right (mem_referencedModules.mpr ⟨r, hr, rfl⟩)
    have hfold : (referencedModules refs).foldl (bringIn refs) (inlineReferences refs (scan (textOf ps)), [])
        = (textOf ps₂, textOf hs) := by
      rw [inlineReferences_textOf]
      exact hfold
    rw [← hboth, consolidate, if_neg hempty, hfold]
    dsimp only
    split
    · next hnone =>
        -- Nothing is hoisted, so nothing is bound by it.
        have hnothing := bound_textOf hs
        rw [List.isEmpty_iff.mp hnone, bound, scan, scanFrom_nil] at hnothing
        rw [bound_textOf, List.flatMap_append, ← hnothing]
        exact Iff.rfl
    · rw [bound_hoisted, List.flatMap_append]

end Typings.Declaration
