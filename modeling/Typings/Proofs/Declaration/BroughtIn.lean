import Typings.Proofs.Declaration.Merging

/-!
# `BroughtIn` — consolidating the lines of a compiler

In a text of written lines every type that is named in place is replaced by its name, and each module
that a type is named of has an import that binds all of them: the first one of the text that accepts
bindings, with those added that were missing, or a new one below the directives at the top.  All other
sites stay as they are.

* `isDirective`, `splitDirectives_render`: the lines that new imports are put below.
* `exists_settled`: lines as parts, in which each dynamic import names a type.
* `BindsAll`, `BroughtIn`: an import that binds what is referenced, and the whole of a consolidated text.
* `consolidate_render`: consolidating written lines brings everything in.
-/

namespace Typings.Declaration

open Import

/-! ## Below the directives -/

/-- The text starts with a directive, apart from blanks. -/
def directed (t : Text) : Bool := (Text.trimStart t).startsWith "///"

/-- Whatever follows the text, it does not start with a directive. -/
def Undirected (u : Text) : Prop := ∀ t, directed (u ++ t) = false

/-- The line is a directive: a comment with a third slash. -/
def isDirective : Item → Bool
  | .lineComment t _ => t.head? == some '/'
  | _ => false

theorem directed_append {line : Text} (hd : directed line = true) (rest : Text) :
    directed (line ++ rest) = true := by
  obtain ⟨blanks, body, hblanks, rfl⟩ := exists_blanks hd
  have hstart : Text.trimStart (blanks ++ '/' :: '/' :: '/' :: body ++ rest)
      = '/' :: '/' :: '/' :: (body ++ rest) := by
    rw [List.append_assoc, Text.trimStart, Text.trimStartBy, List.dropWhile_append_of_pos hblanks]
    rfl
  rw [directed, hstart]
  rfl

theorem splitDirectives_of_not_directed (fuel : Nat) {t : Text} (h : directed t = false) :
    splitDirectives fuel t = ([], t) := by
  cases fuel with
  | zero => rfl
  | succ fuel =>
      cases hfirst : firstLine t with
      | mk line rest =>
          have hline := firstLine_append t
          rw [hfirst] at hline
          have hnot : ¬ (Text.trimStart line).startsWith "///" = true := fun hd => by
            rw [← hline, directed_append hd] at h
            cases h
          rw [splitDirectives_succ fuel hfirst, if_neg hnot]

theorem firstLine_line {line : Text} (h : '\n' ∉ line) (t : Text) :
    firstLine (line ++ '\n' :: t) = (line ++ ['\n'], t) := by
  have hline : ∀ c ∈ line, (c != '\n') = true := fun c hc => bne_iff_ne.mpr (ne_of_mem_of_not_mem hc h)
  rw [firstLine, List.span_eq_takeWhile_dropWhile, List.takeWhile_append_of_pos hline,
    List.dropWhile_append_of_pos hline]
  simp

theorem exists_of_isDirective {i : Item} (h : isDirective i = true) :
    ∃ body, '\n' ∉ body ∧ i.line = '/' :: '/' :: '/' :: body ++ ['\n'] := by
  cases i with
  | lineComment t oneLine =>
      obtain ⟨c, body, rfl⟩ : ∃ c body, t = c :: body := by
        cases t with
        | nil => cases h
        | cons c body => exact ⟨c, body, rfl⟩
      obtain rfl : c = '/' := Option.some.inj (beq_iff_eq.mp h)
      exact ⟨body, fun hm => oneLine (List.mem_cons_of_mem _ hm), rfl⟩
  | _ => cases h

section

variable {directives : List Item} (h : ∀ i ∈ directives, isDirective i = true)

include h

theorem passes_directives : Passes (render directives) := by
  induction directives with
  | nil => exact passes_nil
  | cons i directives ih =>
      obtain ⟨body, hbody, hline⟩ := exists_of_isDirective (h i (by simp))
      have hfirst : Passes i.line := hline ▸ passes_lineComment (by simpa using hbody)
      exact hfirst.append (ih fun j hj => h j (by simp [hj]))

/-- Written directives are split off in front of what is not one. -/
theorem splitDirectives_render {fuel : Nat} (hfuel : directives.length ≤ fuel) {t : Text}
    (ht : directed t = false) : splitDirectives fuel (render directives ++ t) = (render directives, t) := by
  induction directives generalizing fuel with
  | nil => exact splitDirectives_of_not_directed fuel ht
  | cons i directives ih =>
      obtain ⟨fuel, rfl⟩ : ∃ n, fuel = n + 1 := Nat.exists_eq_succ_of_ne_zero (by rintro rfl; cases hfuel)
      obtain ⟨body, hbody, hline⟩ := exists_of_isDirective (h i (by simp))
      have hrender : render (i :: directives) = '/' :: '/' :: '/' :: body ++ '\n' :: render directives := by
        show i.line ++ render directives = _
        rw [hline]
        simp
      have hslashes : '\n' ∉ '/' :: '/' :: '/' :: body := by simpa using hbody
      have hfirst := firstLine_line hslashes (render directives ++ t)
      have hdirective : (Text.trimStart ('/' :: '/' :: '/' :: body ++ ['\n'])).startsWith "///" = true := rfl
      have hsplit : render (i :: directives) ++ t
          = '/' :: '/' :: '/' :: body ++ '\n' :: (render directives ++ t) := by
        rw [hrender]
        simp
      rw [hsplit, splitDirectives_succ fuel hfirst, if_pos hdirective,
        ih (fun j hj => h j (by simp [hj])) (by simpa using hfuel), hrender]
      simp

theorem length_le_render : directives.length ≤ (render directives).length := by
  induction directives with
  | nil => exact Nat.le_refl 0
  | cons i directives ih =>
      obtain ⟨body, -, hline⟩ := exists_of_isDirective (h i (by simp))
      have hrest := ih fun j hj => h j (by simp [hj])
      show _ ≤ (i.line ++ render directives).length
      rw [hline]
      simp
      omega

end

/-! ## How a line starts -/

theorem Undirected.append {u : Text} (h : Undirected u) (v : Text) : Undirected (u ++ v) := by
  intro t
  rw [List.append_assoc]
  exact h _

/-- A text whose first character other than a blank is no slash. -/
theorem undirected_of_not_mem {u : Text} (hs : '/' ∉ u) {c : Char} (hc : c ∈ u) (hb : Text.isBlank c = false) :
    Undirected u := by
  intro t
  rw [← Bool.not_eq_true]
  intro hd
  obtain ⟨blanks, body, hblanks, hsplit⟩ := exists_blanks hd
  rcases List.append_eq_append_iff.mp hsplit with ⟨v, rfl, -⟩ | ⟨v, rfl, hv⟩
  · rw [hblanks c (List.mem_append_left _ hc)] at hb
    cases hb
  · cases v with
    | nil =>
        rw [List.append_nil] at hc
        rw [hblanks c hc] at hb
        cases hb
    | cons d v =>
        obtain ⟨rfl, -⟩ := List.cons.inj hv
        exact hs (by simp)

/-- Behind its first slash a directive has two more. -/
theorem directed_slash (t : Text) : directed ('/' :: t) = Text.startsWith t "//" := rfl

theorem not_mem_of_ident {w : Word} {c : Char} (hi : isIdent c = false) : c ∉ w.text := fun hc => by
  rw [w.ident c hc] at hi
  cases hi

/-- Up to its first literal, or up to its end if it has none, a line of tokens has no slash but some character
    that is not blank. -/
theorem exists_front_of_tokens (ts : List Token) :
    ∃ u c, u <+: tokensText ts ++ [';', '\n'] ∧ '/' ∉ u ∧ c ∈ u ∧ Text.isBlank c = false := by
  induction ts with
  | nil => exact ⟨[';'], ';', ⟨['\n'], rfl⟩, by decide, by decide, by decide⟩
  | cons a ts ih =>
      obtain ⟨u, c, hu, hs, hc, hb⟩ := ih
      have hfront {w : Text} (hw : '/' ∉ w) :
          ∃ u c, u <+: w ++ (tokensText ts ++ [';', '\n']) ∧ '/' ∉ u ∧ c ∈ u ∧ Text.isBlank c = false :=
        ⟨w ++ u, c, (List.prefix_append_right_inj w).mpr hu,
          fun h => (List.mem_append.mp h).elim hw hs, List.mem_append_right _ hc, hb⟩
      rw [tokensText_cons, List.append_assoc]
      cases a with
      | word w => exact hfront (not_mem_of_ident (by decide))
      | mark d hd => exact hfront fun h => by cases List.mem_singleton.mp h; exact absurd hd (by decide)
      | literal l =>
          have hquote : Text.isBlank l.quote.char = false ∧ l.quote.char ≠ '/' := by
            cases l.quote <;> decide
          refine ⟨[l.quote.char], l.quote.char, ?_, ?_, List.mem_singleton_self _, hquote.1⟩
          · exact ⟨_, rfl⟩
          · exact fun h => hquote.2 (List.mem_singleton.mp h).symm

theorem undirected_keyword (k : Keyword) : Undirected k.text := by
  cases k with
  | importing => exact undirected_of_not_mem (c := 'i') (by decide) (by decide) (by decide)
  | exporting => exact undirected_of_not_mem (c := 'e') (by decide) (by decide) (by decide)

/-- No line without a site starts like a directive, unless it is one. -/
theorem undirected_line {i : Item} (hnone : i.pieces? = none) (h : isDirective i = false) :
    Undirected i.line := by
  cases i with
  | importFrom => cases hnone
  | exportFrom => cases hnone
  | sideEffect => cases hnone
  | reference => cases hnone
  | exportNames bs => exact (undirected_keyword .exporting).append _
  | declaration d =>
      rw [Item.line_declaration, ← PlainDeclaration.text]
      cases d.exported with
      | true => exact (undirected_keyword .exporting).append _
      | false =>
          obtain ⟨u, c, ⟨rest, hrest⟩, hs, hc, hb⟩ := exists_front_of_tokens (.word d.first :: d.tokens)
          rw [← d.text_eq] at hrest
          show Undirected (d.text ++ [';', '\n'])
          rw [← hrest]
          exact (undirected_of_not_mem hs hc hb).append rest
  | lineComment t oneLine =>
      intro u
      have hline : (Item.lineComment t oneLine).line ++ u = '/' :: '/' :: (t ++ '\n' :: u) := by
        simp [Item.line_lineComment]
      rw [hline, directed_slash]
      cases t with
      | nil => rfl
      | cons c t =>
          have hc : c ≠ '/' := by
            rintro rfl
            cases h
          simp [Text.startsWith, List.isPrefixOf, hc.symm]
  | blockComment t unclosed => exact fun u => rfl

/-! ## Written lines as parts -/

/-- A dynamic import in the part names a type. -/
def Part.Settled (p : Part) : Prop := ∀ s, p.site? = some s → s.kind = .dynamic → p.named?.isSome = true

variable (refs : List Reference)

/-- The start of a line that is no directive stays when references become names. -/
theorem exists_opening {i : Item} (h : Item.Plain i) (hd : isDirective i = false) (ps : List Part) :
    ∃ u, Undirected u ∧ u <+: opening (segmentsOf ((Item.parts i h ++ ps).map (Part.inline refs))) := by
  have hplain (hnone : i.pieces? = none) (s : Segments) :
      ∃ u, Undirected u ∧ u <+: opening (s.prepend i.line) :=
    ⟨i.line, undirected_line hnone hd, by rw [opening_prepend]; exact List.prefix_append _ _⟩
  cases i with
  | importFrom typed c q => exact ⟨_, undirected_keyword .importing, [' '] ++ modifier typed, rfl⟩
  | exportFrom typed c q => exact ⟨_, undirected_keyword .exporting, [' '] ++ modifier typed, rfl⟩
  | sideEffect q => exact ⟨_, undirected_keyword .importing, ' ' :: [q.quote.char], rfl⟩
  | reference n q m =>
      have hhead : Keyword.exporting.text <+: Item.referenceHead n := ⟨" declare const " ++ n.text ++ ": ", rfl⟩
      refine ⟨_, undirected_keyword .exporting, ?_⟩
      show Keyword.exporting.text <+: opening (Segments.prepend (Item.referenceHead n) _)
      rw [opening_prepend]
      exact hhead.trans (List.prefix_append _ _)
  | exportNames => exact hplain rfl _
  | declaration => exact hplain rfl _
  | lineComment => exact hplain rfl _
  | blockComment => exact hplain rfl _

theorem settled_parts {i : Item} (h : Item.Plain i) : ∀ p ∈ Item.parts i h, p.Settled := by
  cases i with
  | reference n q m =>
      intro p hp s hs hdynamic
      rcases List.mem_cons.mp hp with rfl | hp
      · cases hs
      · cases List.mem_singleton.mp hp
        rfl
  | _ =>
      intro p hp s hs hdynamic
      cases List.mem_singleton.mp hp
      cases hs <;> cases hdynamic

/-- **Written lines as parts**: each dynamic import names a type, and if the first line is no directive,
    the text with names in the places of references does not start like one either. -/
theorem exists_settled {items : List Item} (h : ∀ i ∈ items, Item.Plain i) :
    ∃ ps : List Part, textOf ps = render items ∧ (∀ p ∈ ps, p.Settled) ∧
      (∀ i ∈ items.head?, isDirective i = false →
        ∃ u, Undirected u ∧ u <+: opening (segmentsOf (ps.map (Part.inline refs)))) ∧
      (items = [] → ps = []) := by
  induction items with
  | nil => exact ⟨[], rfl, by simp, by simp, fun _ => rfl⟩
  | cons i items ih =>
      obtain ⟨ps, htext, hsettled, -, -⟩ := ih fun j hj => h j (by simp [hj])
      have hi := h i (by simp)
      refine ⟨Item.parts i hi ++ ps, ?_, ?_, ?_, nofun⟩
      · rw [textOf_append, textOf_parts, htext]
        rfl
      · exact List.forall_mem_append.mpr ⟨settled_parts hi, hsettled⟩
      · rintro _ ⟨⟩ hd
        exact exists_opening refs hi hd ps

/-! ## Names in the places of references -/

theorem Part.inline_of_unnamed {p : Part} (h : p.named? = none) : p.inline refs = p := by
  cases p with
  | reference => cases h
  | _ => rfl

theorem Part.named?_inline (p : Part) : (p.inline refs).named? = none := by
  cases p <;> rfl

/-- Names take the places of dynamic imports, and of no other site. -/
theorem Part.site?_inline {p : Part} (h : p.Settled) :
    (p.inline refs).site? = p.site?.filter fun s => s.kind != .dynamic := by
  cases p with
  | plain => rfl
  | site s stands takes after passes unnamed =>
      have hkind : s.kind ≠ .dynamic := fun hd => by cases h s rfl hd
      exact (Option.filter_some_pos (p := fun s : Site => s.kind != .dynamic) (bne_iff_ne.mpr hkind)).symm
  | reference s _ dynamic =>
      exact (Option.filter_some_neg (p := fun s : Site => s.kind != .dynamic) (by simp [dynamic])).symm

theorem filterMap_site?_inline {ps : List Part} (h : ∀ p ∈ ps, p.Settled) :
    (ps.map (Part.inline refs)).filterMap Part.site?
      = (ps.filterMap Part.site?).filter fun s => s.kind != .dynamic := by
  induction ps with
  | nil => rfl
  | cons p ps ih =>
      have hp := Part.site?_inline refs (h p (by simp))
      rw [List.map_cons, List.filterMap_cons, List.filterMap_cons, hp, ih fun q hq => h q (by simp [hq])]
      cases p.site? with
      | none => rfl
      | some s => cases hk : (s.kind != .dynamic) <;> simp [Option.filter, hk]

theorem filterMap_named?_inline (ps : List Part) : (ps.map (Part.inline refs)).filterMap Part.named? = [] := by
  rw [List.filterMap_map]
  exact List.filterMap_eq_nil_iff.mpr fun p _ => Part.named?_inline refs p

theorem references_eq_nil_iff {s : Segments} : s.references = [] ↔ named s = [] := List.map_eq_nil_iff.symm

/-- Without references a text of parts stays as it is. -/
theorem map_inline_of_references {ps : List Part} (h : (scan (textOf ps)).references = []) :
    ps.map (Part.inline refs) = ps := by
  rw [references_eq_nil_iff, scan_textOf, named_segmentsOf] at h
  refine (List.map_congr_left fun p hp => ?_).trans (List.map_id ps)
  exact Part.inline_of_unnamed refs (List.filterMap_eq_nil_iff.mp h p hp)

/-- **Consolidation** puts the new imports below the directives of the text that bindings were merged
    into, also when there is nothing to do. -/
theorem consolidate_textOf {refs : List Reference} {ps : List Part}
    (hrefs : (scan (textOf ps)).references = refs) {content hoisted : Text}
    (h : (referencedModules refs).foldl (bringIn refs) (textOf (ps.map (Part.inline refs)), [])
      = (content, hoisted)) :
    consolidate (textOf ps) = (splitDirectives content.length content).1 ++ hoisted
      ++ (splitDirectives content.length content).2 := by
  have hjoin := (splitDirectives_spec content.length content).1
  rw [consolidate, hrefs]
  split
  · next hempty =>
      obtain rfl := List.isEmpty_iff.mp hempty
      rw [map_inline_of_references _ hrefs] at h
      obtain ⟨rfl, rfl⟩ := Prod.mk.inj h
      rw [List.append_nil, hjoin]
  · rw [inlineReferences_textOf, h]
    dsimp only
    split
    · next hnone => rw [List.isEmpty_iff.mp hnone, List.append_nil, hjoin]
    · rfl

/-! ## A consolidated text -/

/-- The import that brings in what is needed of a module. -/
def newImport (module : Text) : Site where
  kind := .static
  keyword := .importing
  typeOnly := false
  head := "import "
  clause := braced (neededBindings refs module)
  link := " from '"
  specifier := module
  tail := "'"

/-- The binding of a referenced member, given a number for each module whose default is referenced. -/
def memberBinding (rank : Text → Nat) (r : Reference) : Text :=
  if r.name == defaultMember then "default as " ++ madeUpText (rank r.module) else r.name

/-- The site is an import of the module that binds all its members that are referenced, perhaps some of
    them as types. -/
structure BindsAll (rank : Text → Nat) (module : Text) (s : Site) : Prop where
  static : s.kind = .static ∧ s.keyword = .importing
  specifier : s.specifier = module
  bound : ∃ b named, s.bindings? = some b ∧ b.named = some named ∧
    ∀ r ∈ refs, r.module = module → ∃ x ∈ named, bindingKey x = memberBinding rank r

/-- What becomes of a text with directives at its top, given its references and its other sites. -/
structure BroughtIn (directives : Text) (old kept : List Site) (out : Text) : Prop where
  /-- No type is named in place. -/
  resolved : (scan out).references = []
  /-- The new imports stand below the directives, and all else behind them. -/
  placed : ∃ body, out = directives ++ ((unaccepted (referencedModules refs) old).flatMap fun m =>
    importLine m (neededBindings refs m)) ++ body ∧ (scan body).all = kept
  /-- The sites are a new import for each module that no import accepts bindings of, in the order in
      which the modules were first referenced, and the old ones. -/
  sites : (scan out).all = (unaccepted (referencedModules refs) old).map (newImport refs) ++ kept
  /-- No module gets two of them. -/
  once : (referencedModules refs).Nodup
  /-- The first import that accepts bindings of a module has the missing ones behind its own. -/
  extended : ∀ m ∈ referencedModules refs, ∀ i, old.findIdx? (accepts m) = some i →
    ∃ s b clause, old[i]? = some s ∧ s.bindings? = some b ∧ kept[i]? = some { s with clause := clause } ∧
      Site.bindings? { s with clause := clause }
        = some { b with named := some (b.named.getD [] ++ missing (b.named.getD []) (neededBindings refs m)) }
  /-- All other sites are the same. -/
  same : ∀ i, (∀ m ∈ referencedModules refs, old.findIdx? (accepts m) ≠ some i) → kept[i]? = old[i]?
  /-- Each module has an import that binds its members. -/
  members : ∃ rank : Text → Nat,
    (∀ m ∈ defaultModules refs, ∀ m' ∈ defaultModules refs, rank m = rank m' → m = m') ∧
      ∀ m ∈ referencedModules refs, ∃ s ∈ (scan out).all, BindsAll refs rank m s

/-- The rank of a module among those whose default export is referenced. -/
def rankIn (module : Text) : Nat := (defaultModules refs).idxOf module + 1

theorem memberBinding_rankIn (r : Reference) : memberBinding (rankIn refs) r = binding refs r := by
  rw [memberBinding, binding, localName]
  split <;> rfl

section

variable {refs} (hplain : ∀ r ∈ refs, Plain r)

include hplain

/-- New imports are parts. -/
theorem exists_newParts {modules : List Text} (h : ∀ m ∈ modules, m ∈ referencedModules refs) :
    ∃ hs : List Part, textOf hs = (modules.flatMap fun m => importLine m (neededBindings refs m)) ∧
      hs.filterMap Part.site? = modules.map (newImport refs) ∧ hs.filterMap Part.named? = [] := by
  induction modules with
  | nil => exact ⟨[], rfl, rfl, rfl⟩
  | cons m modules ih =>
      obtain ⟨hs, htext, hsites, hnamed⟩ := ih fun m' hm' => h m' (by simp [hm'])
      obtain ⟨r, hr, hm⟩ := mem_referencedModules.mp (h m (by simp))
      have hquoted : ∀ c ∈ m, Quote.single.admits c := hm ▸ (hplain r hr).module
      obtain ⟨bs, hbs, htexts⟩ := exists_bindings (written_neededBindings hplain m)
      let p : Part := importPart false (.named bs) hbs ⟨.single, m, hquoted⟩
      have hline : p.text = importLine m (neededBindings refs m) := htexts ▸ text_importLine hbs hquoted
      have hsite : p.site? = some (newImport refs m) := by
        rw [newImport, ← htexts]
        rfl
      refine ⟨p :: hs, ?_, ?_, hnamed⟩
      · rw [textOf, List.flatMap_cons, ← textOf, htext, hline]
        rfl
      · rw [List.filterMap_cons_some hsite, hsites]
        rfl

theorem bindsAll_newImport {module : Text} : BindsAll refs (rankIn refs) module (newImport refs module) := by
  obtain ⟨bs, hbs, htexts⟩ := exists_bindings (written_neededBindings hplain module)
  have hbindings : (newImport refs module).bindings? = some ⟨none, some (neededBindings refs module)⟩ := by
    have hnamed : clauseBindings? (braces bs) = some ⟨none, some (bs.map Binding.text)⟩ :=
      clauseBindings?_text (c := .named bs) hbs
    rw [← htexts, ← hnamed, braces_eq_braced htexts]
    rfl
  refine ⟨⟨rfl, rfl⟩, rfl, _, _, hbindings, rfl, fun r hr hm => ?_⟩
  refine ⟨binding refs r, mem_neededBindings.mpr ⟨r, hr, hm, rfl⟩, ?_⟩
  rw [memberBinding_rankIn, bindingKey_binding (hplain r hr)]

/-- An import that takes what is needed of its module. -/
theorem bindings?_extendSite {module : Text} {s : Site} {b : Bindings} (h : suitable? module s = some b)
    (takes : Takes s b) :
    (extendSite (neededBindings refs module) s).bindings?
      = some { b with
          named := some (b.named.getD [] ++ missing (b.named.getD []) (neededBindings refs module)) } := by
  rw [extendSite_of_suitable? h, bindings?_extended (written_neededBindings hplain module) h takes,
    addBindings_eq (nodup_neededBindings hplain module)]

theorem bindsAll_extendSite {module : Text} {s : Site} {b : Bindings} (h : suitable? module s = some b)
    (takes : Takes s b) : BindsAll refs (rankIn refs) module (extendSite (neededBindings refs module) s) := by
  obtain ⟨hkind, hkeyword, hmodule, -⟩ := suitable?_eq_some h
  have hbindings := bindings?_extendSite hplain h takes
  rw [← addBindings_eq (nodup_neededBindings hplain module)] at hbindings
  have hextend : extendSite (neededBindings refs module) s = _ := extendSite_of_suitable? h
  refine ⟨?_, specifier_extendSite.trans hmodule, _, _, hbindings, rfl, fun r hr hm => ?_⟩
  · rw [hextend]
    exact ⟨hkind, hkeyword⟩
  · rw [memberBinding_rankIn, ← bindingKey_binding (hplain r hr)]
    exact exists_key_addBindings (mem_neededBindings.mpr ⟨r, hr, hm, rfl⟩)

end

theorem Part.takes {p : Part} {s : Site} (h : p.site? = some s) {b : Bindings} (hb : s.bindings? = some b) :
    Takes s b := by
  cases p with
  | plain => cases h
  | site _ _ takes =>
      cases h
      exact takes b hb
  | reference _ _ dynamic =>
      cases h
      rw [Site.bindings?, dynamic] at hb
      cases hb

/-- The first site that accepts bindings, in a text of parts. -/
theorem exists_accepting {ps : List Part} {module : Text} {i : Nat}
    (h : (segmentsOf ps).all.findIdx? (accepts module) = some i) :
    ∃ s b, (segmentsOf ps).all[i]? = some s ∧ suitable? module s = some b ∧ Takes s b := by
  obtain ⟨s, hs, haccepts⟩ := exists_of_findIdx? h
  obtain ⟨b, hb⟩ := Option.isSome_iff_exists.mp haccepts
  have hmem := List.mem_of_getElem? hs
  rw [all_segmentsOf] at hmem
  obtain ⟨p, -, hp⟩ := List.mem_filterMap.mp hmem
  exact ⟨s, b, hs, hb, Part.takes hp (suitable?_eq_some hb).2.2.2⟩

section

variable {refs : List Reference} {qs : List Part} {merged : Segments} {m : Text}
  (hm : m ∈ referencedModules refs)
  (hmerges : MergesTo (neededBindings refs) (referencedModules refs) (segmentsOf qs) merged)

include hm hmerges

/-- The first import that accepts the bindings of a module has taken them. -/
theorem getElem?_merged {i : Nat} (hi : (segmentsOf qs).all.findIdx? (accepts m) = some i) :
    merged.all[i]? = (segmentsOf qs).all[i]?.map (extendSite (neededBindings refs m)) := by
  rw [hmerges.all]
  exact getElem?_extendAll_of_first (nodup_firstSeen _) hm hi

/-- Each module has an import that binds its members: the first one that accepts them, or a new one. -/
theorem exists_bindsAll (hplain : ∀ r ∈ refs, Plain r) :
    ∃ s ∈ (unaccepted (referencedModules refs) (segmentsOf qs).all).map (newImport refs) ++ merged.all,
      BindsAll refs (rankIn refs) m s := by
  cases hfind : (segmentsOf qs).all.findIdx? (accepts m) with
  | some i =>
      obtain ⟨s, b, hs, hsuitable, htakes⟩ := exists_accepting hfind
      have hplace : merged.all[i]? = some (extendSite (neededBindings refs m) s) := by
        rw [getElem?_merged hm hmerges hfind, hs, Option.map_some]
      exact ⟨_, List.mem_append_right _ (List.mem_of_getElem? hplace),
        bindsAll_extendSite hplain hsuitable htakes⟩
  | none =>
      rw [List.findIdx?_eq_none_iff] at hfind
      have hunaccepted : m ∈ unaccepted (referencedModules refs) (segmentsOf qs).all :=
        List.mem_filter.mpr ⟨hm, by simpa using hfind⟩
      exact ⟨_, List.mem_append_left _ (List.mem_map_of_mem hunaccepted), bindsAll_newImport hplain⟩

end

/-- The text behind the directives does not start with another one, whatever imports in it took. -/
theorem exists_body {d : Text} {ps ps' : List Part} {needed : Text → List Text} {modules : List Text}
    (hmerges : MergesTo needed modules ((segmentsOf ps).prepend d) (segmentsOf ps'))
    (hstart : ps = [] ∨ ∃ u, Undirected u ∧ u <+: opening (segmentsOf ps)) :
    ∃ body, textOf ps' = d ++ body ∧ directed body = false := by
  have hopening := hmerges.opening
  rw [opening_prepend] at hopening
  rcases hstart with rfl | ⟨u, hu, v, hv⟩
  · have hnil (modules : List Text) : extendAll needed modules [] = [] := by
      induction modules with
      | nil => rfl
      | cons m modules ih => exact ih
    have hall : (segmentsOf ps').all = [] := hmerges.all.trans (hnil modules)
    exact ⟨[], by rw [← text_segmentsOf, text_of_all_nil hall, hopening]; rfl, rfl⟩
  · obtain ⟨w, hw⟩ := opening_prefix (segmentsOf ps')
    refine ⟨u ++ (v ++ w), ?_, hu _⟩
    rw [← text_segmentsOf, ← hw, hopening, ← hv]
    simp

section

variable {refs : List Reference} {directives : List Item} (hd : ∀ i ∈ directives, isDirective i = true)
  {ps : List Part}

/-- Parts with directives in front. -/
def below (ps : List Part) : List Part := .plain (render directives) (passes_directives hd) :: ps

/-- **Directives, and parts behind them**: what the text becomes, part by part. -/
theorem exists_layout (hrefs : (scan (textOf (below hd ps))).references = refs)
    (hstart : ps = [] ∨ ∃ u, Undirected u ∧ u <+: opening (segmentsOf (ps.map (Part.inline refs)))) :
    ∃ (ps' : List Part) (body : Text), textOf ps' = render directives ++ body ∧
      consolidate (textOf (below hd ps)) = render directives
        ++ ((unaccepted (referencedModules refs)
          (segmentsOf ((below hd ps).map (Part.inline refs))).all).flatMap
            fun m => importLine m (neededBindings refs m)) ++ body ∧
      MergesTo (neededBindings refs) (referencedModules refs)
        (segmentsOf ((below hd ps).map (Part.inline refs))) (segmentsOf ps') := by
  have hplain : ∀ r ∈ refs, Plain r := fun r hr => plain_of_mem_references (hrefs ▸ hr)
  obtain ⟨ps', hfold, hmerges⟩ :=
    exists_mergedAll hplain (nodup_firstSeen _) ((below hd ps).map (Part.inline refs)) []
  obtain ⟨body, hbody, hundirected⟩ := @exists_body (render directives) (ps.map (Part.inline refs)) _ _ _
    hmerges (hstart.imp_left (congrArg _))
  refine ⟨ps', body, hbody, ?_, hmerges⟩
  have hlength : directives.length ≤ (render directives ++ body).length := by
    rw [List.length_append]
    exact Nat.le_add_right_of_le (length_le_render hd)
  rw [consolidate_textOf hrefs hfold, hbody, splitDirectives_render hd hlength hundirected]
  rfl

/-- **What directives and settled parts behind them become**: the merged sites stand below the new
    imports, and no type is named in place. -/
theorem exists_broughtIn (hsettled : ∀ p ∈ ps, p.Settled)
    (hrefs : (scan (textOf (below hd ps))).references = refs)
    (hstart : ps = [] ∨ ∃ u, Undirected u ∧ u <+: opening (segmentsOf (ps.map (Part.inline refs)))) :
    ∃ kept, BroughtIn refs (render directives)
      ((scan (textOf (below hd ps))).all.filter fun s => s.kind != .dynamic) kept
      (consolidate (textOf (below hd ps))) := by
  have hplain : ∀ r ∈ refs, Plain r := fun r hr => plain_of_mem_references (hrefs ▸ hr)
  -- The sites that are left when names have taken the places of references.
  have hold : (segmentsOf ((below hd ps).map (Part.inline refs))).all
      = (scan (textOf (below hd ps))).all.filter fun s => s.kind != .dynamic := by
    have hall : ∀ p ∈ below hd ps, p.Settled := List.forall_mem_cons.mpr ⟨nofun, hsettled⟩
    rw [all_segmentsOf, filterMap_site?_inline refs hall, scan_textOf, all_segmentsOf]
  obtain ⟨ps', body, hbody, hout, hmerges⟩ := exists_layout hd hrefs hstart
  rw [← hold]
  generalize hq : (below hd ps).map (Part.inline refs) = qs at hout hmerges
  have hreferenced : ∀ m ∈ unaccepted (referencedModules refs) (segmentsOf qs).all,
      m ∈ referencedModules refs := fun m hm => List.mem_of_mem_filter hm
  obtain ⟨hs, hlines, hnew, hunnamed⟩ := exists_newParts hplain hreferenced
  -- Scanning the text below the directives finds the sites of the merged text.
  have hscan : segmentsOf ps' = (scan body).prepend (render directives) := by
    rw [← scan_textOf, hbody, scan, passes_directives hd, ← scan]
  have hkept : (scan body).all = (segmentsOf ps').all := by rw [hscan, Segments.all_prepend]
  have hnamed : named (scan body) = [] := by
    rw [← named_prepend, ← hscan, hmerges.named, named_segmentsOf, ← hq, filterMap_named?_inline]
  have hfinal : scan (consolidate (textOf (below hd ps)))
      = (hs.foldr Part.onto (scan body)).prepend (render directives) := by
    rw [hout, ← hlines, List.append_assoc, scan, passes_directives hd, scanFrom_textOf, ← scan]
  have hsites : (scan (consolidate (textOf (below hd ps)))).all
      = (unaccepted (referencedModules refs) (segmentsOf qs).all).map (newImport refs)
        ++ (segmentsOf ps').all := by
    rw [hfinal, Segments.all_prepend, all_foldr, hnew, hkept]
  have honce : (referencedModules refs).Nodup := nodup_firstSeen _
  refine ⟨(segmentsOf ps').all, ?_, ⟨body, hout, hkept⟩, hsites, honce, fun m hm i hi => ?_, fun i hi => ?_,
    rankIn refs, fun m hm m' hm' he => (List.idxOf_inj hm).mp (Nat.succ.inj he), fun m hm => ?_⟩
  · rw [references_eq_nil_iff, hfinal, named_prepend, named_foldr, hunnamed, hnamed]
    rfl
  · obtain ⟨s, b, hs, hsuitable, htakes⟩ := exists_accepting hi
    refine ⟨s, b, extendClause b (neededBindings refs m), hs, (suitable?_eq_some hsuitable).2.2.2, ?_, ?_⟩
    · rw [getElem?_merged hm hmerges hi, hs, Option.map_some, extendSite_of_suitable? hsuitable]
    · rw [← extendSite_of_suitable? hsuitable, bindings?_extendSite hplain hsuitable htakes]
  · rw [hmerges.all]
    exact getElem?_extendAll_of_other honce hi
  · rw [hsites]
    exact exists_bindsAll hm hmerges hplain

end

/-- **Consolidation is complete** on written lines: no type is named in place any more, and each module
    has an import that binds its members, which stands where it stood and is extended, or is new. -/
theorem consolidate_render {items : List Item} (h : ∀ i ∈ items, Item.Plain i) :
    ∃ kept, BroughtIn (scan (render items)).references (render (items.takeWhile isDirective))
      ((scan (render items)).all.filter fun s => s.kind != .dynamic) kept (consolidate (render items)) := by
  have hd : ∀ i ∈ items.takeWhile isDirective, isDirective i = true := fun i hi => List.mem_takeWhile_imp hi
  have hrest : ∀ i ∈ items.dropWhile isDirective, Item.Plain i := fun i hi =>
    h i (List.dropWhile_subset _ hi)
  obtain ⟨ps, htext, hsettled, hopening, hnil⟩ := exists_settled (scan (render items)).references hrest
  have hcontent : textOf (below hd ps) = render items := by
    have hjoin := congrArg render (List.takeWhile_append_dropWhile (p := isDirective) (l := items))
    rw [render, List.flatMap_append] at hjoin
    rw [below, textOf, List.flatMap_cons, ← textOf, htext]
    exact hjoin
  have hrefs : (scan (textOf (below hd ps))).references = (scan (render items)).references := by
    rw [hcontent]
  have hbroughtIn := exists_broughtIn hd hsettled hrefs
  rw [hcontent] at hbroughtIn
  refine hbroughtIn ?_
  cases hrest : items.dropWhile isDirective with
  | nil => exact .inl (hnil hrest)
  | cons i rest =>
      have hfirst := List.head_dropWhile_not isDirective (l := items) (by rw [hrest]; simp)
      simp only [hrest, List.head_cons] at hfirst
      exact .inr (hopening i (by rw [hrest]; rfl) hfirst)

/-- A directive, imports of `geometry` of which the second one accepts bindings, and types of two modules. -/
def libraryItems : List Item :=
  let size : Name := ⟨⟨"size", by decide, by decide, by decide, by decide⟩, by decide, by decide⟩
  let shape : Name := ⟨⟨"Shape", by decide, by decide, by decide, by decide⟩, by decide, by decide⟩
  let geometry : Literal := ⟨.double, "geometry", by decide⟩
  [.lineComment "/ <reference types='node' />" (by decide),
   .importFrom true (.default size) geometry,
   .importFrom false (.both size [⟨true, shape, none⟩]) geometry,
   .exportFrom false .all geometry,
   .reference size geometry shape,
   .reference shape geometry defaultName,
   .reference size ⟨.single, "units", by decide⟩ shape]

theorem consolidate_render_libraryItems :
    (∀ i ∈ libraryItems, Item.Plain i) ∧
      (∃ kept, BroughtIn (scan (render libraryItems)).references
        (render (libraryItems.takeWhile isDirective))
        ((scan (render libraryItems)).all.filter fun s => s.kind != .dynamic) kept
        (consolidate (render libraryItems))) ∧
      consolidate (render libraryItems)
        = ("/// <reference types='node' />\nimport \x7b Shape \x7d from 'units';\n" ++
            "import type size from \"geometry\";\n" ++
            "import size, \x7b type Shape, default as __DTS_1__ \x7d from \"geometry\";\n" ++
            "export * from \"geometry\";\nexport declare const size: Shape;\n" ++
            "export declare const Shape: __DTS_1__;\nexport declare const size: Shape;\n" : Text) := by
  have hplain : ∀ i ∈ libraryItems, Item.Plain i := by
    unfold libraryItems
    simp only [List.forall_mem_cons, Item.Plain, ImportClause.Solid, Binding.Solid, Word.Solid,
      Option.mem_def, reduceCtorEq, List.not_mem_nil, IsEmpty.forall_iff, implies_true, and_true, true_and]
    decide
  refine ⟨hplain, consolidate_render hplain, ?_⟩
  repeat rw [Text.toList_literal rfl]
  decide +kernel

end Typings.Declaration
