import Typings.Proofs.Declaration.Hoisting
import Typings.Proofs.Offset.Order
import Typings.Proofs.Offset.Splice

/-!
# `Consolidation` — consolidating by byte offsets

The names that are put in the places of inline type references are brought in by imports, which are read,
extended and added by offsets too.

* `bindings_eq`: what a site binds.
* `spliced_inline`: references replaced by names.
* `mergeInto_eq`: an import that takes more names.
* `consolidate_eq`: all of it.
* `never_out_of_range`: scanning and rewriting by byte offsets.

An import that takes more names changes the text, so the offsets are read anew for each module; what
is in step is the text after each module, not the offsets in it.
-/

namespace Typings.Offset

open Import (Range Site SiteKind Keyword Located Segments Bindings Reference namedBindings? isDefaultName)
open Declaration (localName afterSite inlineFrom inlineReferences suitable? extendClause mergeSites?
  mergeImport? neededBindings referencedModules importLine bringIn firstLine splitDirectives)

/-! ## Bindings -/

/-- The offset of the first such character. -/
def offsetOf (c : Char) : Text → Option Nat
  | [] => none
  | d :: t => if d == c then some 0 else (offsetOf c t).map (d.utf8Size + ·)

/-- The bindings of a clause, by byte offsets. -/
def clauseBindings (clause : Text) : Option (Option Bindings) := do
  let clause := clause.trim
  if clause.isEmpty || clause.contains '*' then return none
  else
    match offsetOf '\x7b' clause with
    | none => return if isDefaultName clause then some ⟨some clause, none⟩ else none
    | some 0 => return (namedBindings? clause).map fun named => ⟨none, some named⟩
    | some opening =>
      match List.isSuffixOf? "," (← slice? clause ⟨0, opening⟩).trim with
      | none => return none
      | some default =>
        let braces ← slice? clause ⟨opening, clause.byteSize⟩
        let default := Text.trim default
        if isDefaultName default then
          return (namedBindings? braces).map fun named => ⟨some default, some named⟩
        else return none

/-- The bindings of a site; only static imports have any. -/
def bindings (t : Text) (m : Mark) : Option (Option Bindings) := do
  if m.kind == .static && m.keyword == .importing then clauseBindings (← slice? t m.clause)
  else return none

variable {t u : Text} {offset : Nat} {edits : List (Range × Text)} {out : Text}

/-- The offset of a character is the size of what stands before it. -/
theorem offsetOf_eq (c : Char) (t : Text) :
    offsetOf c t = match t.span (· != c) with
      | (_, []) => none
      | (before, _ :: _) => some (Text.byteSize before) := by
  rw [List.span_eq_takeWhile_dropWhile]
  induction t with
  | nil => rfl
  | cons d t ih =>
      rw [offsetOf, ih]
      by_cases hd : d = c
      · simp [hd]
      · rw [if_neg (by simpa using hd), List.takeWhile_cons_of_pos (by simpa using hd),
          List.dropWhile_cons_of_pos (by simpa using hd)]
        cases t.dropWhile (· != c) <;> rfl

theorem clauseBindings_eq (clause : Text) : clauseBindings clause = some (Import.clauseBindings? clause) := by
  rw [clauseBindings, Import.clauseBindings?]
  dsimp only
  generalize clause.trim = v
  split
  · rfl
  rw [offsetOf_eq]
  cases hspan : v.span (· != '\x7b') with
  | mk before braces =>
      have happend : before ++ braces = v := by
        rw [List.span_eq_takeWhile_dropWhile] at hspan
        obtain ⟨rfl, rfl⟩ := Prod.mk.inj hspan
        exact List.takeWhile_append_dropWhile
      subst happend
      cases braces with
      | nil => rfl
      | cons d braces =>
          cases before with
          | nil => rfl
          | cons c before =>
              have hbefore : slice? (c :: before ++ d :: braces) ⟨0, Text.byteSize (c :: before)⟩
                  = some (c :: before) := by
                have hslice := At.slice (at_zero (c :: before ++ d :: braces))
                rwa [Nat.zero_add] at hslice
              have hbraces := slice_append (c :: before) (d :: braces)
              obtain ⟨n, hn⟩ : ∃ n, Text.byteSize (c :: before) = n + 1 :=
                Nat.exists_eq_add_one.mpr (Text.byteSize_pos (List.cons_ne_nil c before))
              dsimp only
              rw [hn] at hbefore hbraces ⊢
              simp only [hbefore, hbraces, Option.bind_eq_bind, Option.bind_some]
              cases List.isSuffixOf? "," (Text.trim (c :: before)) with
              | none => rfl
              | some default =>
                  dsimp only [Option.bind_some]
                  split <;> rfl

/-- What a site binds can be read by offsets. -/
theorem bindings_eq {l : Located} (h : slice? t l.clause = some l.site.clause) :
    bindings t (.of l) = some l.site.bindings? := by
  have hslice : slice? t (Mark.of l).clause = some l.site.clause := h
  rw [bindings, Site.bindings?, hslice, Option.bind_eq_bind, Option.bind_some, clauseBindings_eq]
  show (if (l.site.kind == .static && l.site.keyword == .importing) = true then _ else _) = _
  split <;> rfl

theorem slice_clause {site : Site} (h : At t offset (site.text ++ u)) :
    slice? t (site.locate offset).clause = some site.clause := by
  have hclause : At t (offset + site.head.byteSize)
      (site.clause ++ (site.link ++ (site.specifier ++ (site.tail ++ u)))) := by
    refine At.pass ?_
    simpa [Site.text] using h
  exact hclause.slice

/-- The sites of a text stand where they are located. -/
theorem at_located {sites : List (Text × Site)} {rest : Text} (h : At t offset (Segments.text ⟨sites, rest⟩)) :
    ∀ l ∈ Segments.located.go offset sites, ∃ (site : Site) (start : Nat) (u : Text),
      l = site.locate start ∧ At t start (site.text ++ u) := by
  induction sites generalizing offset with
  | nil => exact fun l hl => absurd hl List.not_mem_nil
  | cons p more ih =>
      obtain ⟨gap, site⟩ := p
      rw [Import.text_cons] at h
      intro l hl
      rcases List.mem_cons.mp hl with rfl | hl
      · exact ⟨site, _, _, rfl, h.pass⟩
      · exact ih h.pass.pass l hl

/-! ## References -/

/-- A reference with its module and its name. -/
def readReference (t : Text) (m : TypeMark) : Option Reference := do
  let module ← slice? t m.specifier
  let name ← slice? t m.member
  return { span := m.span, specifier := m.specifier, member := m.member, module := module, name := name }

/-- The references to types in a text. -/
def readReferences (t : Text) : List TypeMark → Option (List Reference)
  | [] => return []
  | m :: ms => do
    let reference ← readReference t m
    let more ← readReferences t ms
    return reference :: more

/-- The text behind a site starts with what stands up to the next site. -/
theorem exists_text_eq (sites : List (Text × Site)) (rest : Text) :
    ∃ v, Segments.text ⟨sites, rest⟩ = afterSite sites rest ++ v := by
  cases sites with
  | nil => exact ⟨[], (List.append_nil _).symm⟩
  | cons p more => exact ⟨_, Import.text_cons p.1 p.2 more rest⟩

theorem readReference_eq {site : Site} {after v : Text} {r : Reference}
    (h : At t offset (site.text ++ (after ++ v))) (hr : (site.locate offset).reference? after = some r) :
    readReference t (.of r) = some r := by
  rw [Located.reference?] at hr
  split at hr
  · obtain ⟨⟨name, rest⟩, hmember, rfl⟩ := Option.map_eq_some_iff.mp hr
    obtain rfl := Import.append_of_member? hmember
    have hname : slice? t (Range.at ((site.locate offset).span.stop + 1) name) = some name := by
      have hdot := h.pass.next_ascii (by decide)
      rw [List.append_eq, List.append_assoc] at hdot
      exact hdot.slice
    simp only [readReference, TypeMark.of, slice_specifier h, hname, Option.bind_eq_bind, Option.bind_some]
    rfl
  · cases hr

theorem readReferences_go {sites : List (Text × Site)} {rest : Text}
    (h : At t offset (Segments.text ⟨sites, rest⟩)) :
    readReferences t ((Import.referencesFrom offset sites rest).map .of)
      = some (Import.referencesFrom offset sites rest) := by
  induction sites generalizing offset with
  | nil => rfl
  | cons p more ih =>
      obtain ⟨gap, site⟩ := p
      rw [Import.text_cons] at h
      have hmore := ih h.pass.pass
      obtain ⟨v, hv⟩ := exists_text_eq more rest
      rw [hv] at h
      rw [Import.referencesFrom_cons]
      cases hr : (site.locate (offset + gap.byteSize)).reference? (afterSite more rest) with
      | none => exact hmore
      | some r =>
          rw [Option.toList_some, List.singleton_append, List.map_cons, readReferences,
            readReference_eq h.pass hr, hmore]
          rfl

/-- A reference replaced by its name. -/
def inlineEdit (refs : List Reference) (r : Reference) : Range × Text := (r.span, localName refs r.module r.name)

/-- **References are replaced by their names.**  What was copied up to an offset may be the member of the
    site before, which is left out. -/
theorem spliced_inline (refs : List Reference) (offset : Nat) {sites : List (Text × Site)} {rest a b : Text}
    (hskip : afterSite sites rest = a ++ b) (htext : Segments.text ⟨sites, rest⟩ = a ++ u) :
    Spliced t (offset + a.byteSize) u ((Import.referencesFrom offset sites rest).map (inlineEdit refs))
      (inlineFrom refs a.length sites rest) := by
  induction sites generalizing offset a b u with
  | nil =>
      obtain rfl : rest = a ++ u := by simpa [Segments.text] using htext
      rw [inlineFrom, List.drop_left]
      exact spliced_nil t _ u
  | cons p more ih =>
      obtain ⟨gap, site⟩ := p
      obtain rfl : gap = a ++ b := hskip
      obtain rfl : u = b ++ (site.text ++ Segments.text ⟨more, rest⟩) := by
        rw [Import.text_cons, List.append_assoc] at htext
        exact (List.append_cancel_left htext).symm
      rw [Import.referencesFrom_cons, inlineFrom, List.drop_left, List.map_append, Text.byteSize_append,
        ← Nat.add_assoc]
      have hstays : Spliced t (offset + a.byteSize) (b ++ (site.text ++ Segments.text ⟨more, rest⟩))
          ((Import.referencesFrom (offset + a.byteSize + b.byteSize + site.text.byteSize) more rest).map
            (inlineEdit refs)) (b ++ (site.text ++ inlineFrom refs 0 more rest)) :=
        .pass (.pass (ih _ (a := []) rfl rfl))
      by_cases hdynamic : (site.kind == .dynamic) = true
      · cases hmember : Import.member? (afterSite more rest) with
        | none => simpa [Located.reference?, Site.locate, hdynamic, hmember] using hstays
        | some p =>
            obtain ⟨name, v⟩ := p
            have hafter := Import.append_of_member? hmember
            obtain ⟨w, hw⟩ := exists_text_eq more rest
            rw [hafter] at hw
            -- The member is copied no more: it is part of what is replaced.
            have hmore := ih (offset + a.byteSize + b.byteSize + site.text.byteSize)
              (a := '.' :: name) (b := v) (u := v ++ w) hafter (hw.trans (by simp))
            rw [Nat.add_assoc _ site.text.byteSize, ← Text.byteSize_append] at hmore
            have hedit := (hmore.edit (localName refs site.specifier name)).pass
            have hdot : ('.' : Char).utf8Size = 1 := rfl
            rw [hw]
            simpa [Located.reference?, Site.locate, Range.at, inlineEdit, hdynamic, hmember, hdot,
              Nat.add_assoc] using hedit
      · simpa [Located.reference?, Site.locate, hdynamic] using hstays

/-! ## Imports -/

/-- A site with its clause replaced. -/
theorem Spliced.reclause (site : Site) (new : Text)
    (h : Spliced t (offset + site.text.byteSize) u edits out) :
    Spliced t offset (site.text ++ u) (((site.locate offset).clause, new) :: edits)
      ({ site with clause := new }.text ++ out) := by
  have hedit := Spliced.between site.head site.clause (site.link ++ (site.specifier ++ site.tail)) new
    (h := by simpa [Site.text] using h)
  simpa [Site.text, Site.locate, Range.at] using hedit

/-- The bindings of an import of the module that can take named ones. -/
def suitable (t : Text) (module : Text) (m : Mark) : Option (Option Bindings) := do
  if m.kind == .static && m.keyword == .importing then
    if (← slice? t m.specifier) == module then
      match ← bindings t m with
      | some b => return if b.named.isNone && m.typeOnly then none else some b
      | none => return none
    else return none
  else return none

/-- The first import that is suitable, with its bindings. -/
def firstSuitable (t : Text) (module : Text) : List Mark → Option (Option (Mark × Bindings))
  | [] => return none
  | m :: ms => do
    match ← suitable t module m with
    | some b => return some (m, b)
    | none => firstSuitable t module ms

/-- The text whose first suitable import of the module binds more names, by byte offsets. -/
def mergeInto (module : Text) (new : List Text) (t : Text) : Option (Option Text) := do
  match ← firstSuitable t module (← scanImports t) with
  | some (m, b) => return some (← splice t 0 [(m.clause, extendClause b new)])
  | none => return none

theorem suitable_eq {site : Site} (h : At t offset (site.text ++ u)) (module : Text) :
    suitable t module (.of (site.locate offset)) = some (suitable? module site) := by
  have hspecifier : slice? t (Mark.of (site.locate offset)).specifier = some site.specifier := slice_specifier h
  have hbindings : bindings t (.of (site.locate offset)) = some site.bindings? := bindings_eq (slice_clause h)
  rw [suitable, hspecifier, hbindings, suitable?]
  simp only [Option.bind_eq_bind, Option.bind_some]
  show (if (site.kind == .static && site.keyword == .importing) = true then _ else _) = _
  cases (site.kind == .static && site.keyword == .importing) with
  | false => rfl
  | true =>
      rw [Bool.true_and, if_pos rfl]
      split
      · cases site.bindings? <;> rfl
      · rfl

theorem firstSuitable_spec (module : Text) (new : List Text) {sites : List (Text × Site)} {rest : Text}
    (h : At t offset (Segments.text ⟨sites, rest⟩)) :
    (firstSuitable t module ((Segments.located.go offset sites).map .of) = some none ∧
        mergeSites? module new sites = none) ∨
      ∃ m b merged, firstSuitable t module ((Segments.located.go offset sites).map .of) = some (some (m, b)) ∧
        mergeSites? module new sites = some merged ∧
        Spliced t offset (Segments.text ⟨sites, rest⟩) [(m.clause, extendClause b new)]
          (Segments.text ⟨merged, rest⟩) := by
  induction sites generalizing offset with
  | nil => exact .inl ⟨rfl, rfl⟩
  | cons p more ih =>
      obtain ⟨gap, site⟩ := p
      rw [Import.text_cons] at h ⊢
      rw [Segments.located.go, List.map_cons, firstSuitable, suitable_eq h.pass, mergeSites?]
      simp only [Option.bind_eq_bind, Option.bind_some]
      cases hsuitable : suitable? module site with
      | some b =>
          refine .inr ⟨_, b, _, rfl, rfl, ?_⟩
          rw [Import.text_cons]
          exact ((spliced_nil t _ _).reclause site _).pass
      | none =>
          rcases ih h.pass.pass with ⟨hfirst, hmerge⟩ | ⟨m, b, merged, hfirst, hmerge, hspliced⟩
          · exact .inl ⟨hfirst, by rw [hmerge]; rfl⟩
          · refine .inr ⟨m, b, _, hfirst, congrArg (Option.map _) hmerge, ?_⟩
            rw [Import.text_cons]
            exact hspliced.pass.pass

theorem mergeInto_eq (module : Text) (new : List Text) (t : Text) :
    mergeInto module new t = some (mergeImport? module new t) := by
  rw [mergeInto, scanImports_eq, mergeImport?]
  simp only [Option.bind_eq_bind, Option.bind_some]
  rcases firstSuitable_spec module new (at_scan t) with ⟨hfirst, hmerge⟩ | ⟨m, b, merged, hfirst, hmerge, hspliced⟩
  · rw [Segments.located, hfirst, hmerge]
    rfl
  · rw [Segments.located, hfirst, hmerge]
    simp only [Option.bind_some, splice_of_spliced hspliced]
    rfl

/-- Brings the bindings of a module in, by byte offsets. -/
def bring (refs : List Reference) (state : Text × Text) (module : Text) : Option (Text × Text) := do
  let (content, hoisted) := state
  let new := neededBindings refs module
  match ← mergeInto module new content with
  | some merged => return (merged, hoisted)
  | none => return (content, hoisted ++ importLine module new)

theorem bring_eq (refs : List Reference) (state : Text × Text) (module : Text) :
    bring refs state module = some (bringIn refs state module) := by
  rw [bring, mergeInto_eq, bringIn]
  simp only [Option.bind_eq_bind, Option.bind_some]
  cases mergeImport? module (neededBindings refs module) state.1 <;> rfl

/-! ## All of it -/

/-- The offset just behind the directive lines at the front.  Each line takes up fuel, so the length of the
    text is enough. -/
def afterDirectives : Nat → Text → Nat
  | 0, _ => 0
  | fuel + 1, t =>
    let (line, rest) := firstLine t
    if (Text.trimStart line).startsWith "///" then line.byteSize + afterDirectives fuel rest else 0

/-- A text whose inline type references are plain names, by byte offsets. -/
def consolidate (t : Text) : Option Text := do
  let refs ← readReferences t (← scanTypeReferences t)
  if refs.isEmpty then return t
  else
    let inlined ← splice t 0 (refs.map (inlineEdit refs))
    let (content, hoisted) ← (referencedModules refs).foldlM (bring refs) (inlined, [])
    if hoisted.isEmpty then return content
    else
      let (directives, rest) ← cut? content (afterDirectives content.length content)
      return directives ++ hoisted ++ rest

theorem cut?_afterDirectives (fuel : Nat) (t : Text) :
    cut? t (afterDirectives fuel t) = some (splitDirectives fuel t) := by
  rw [← Prod.mk.eta (p := splitDirectives fuel t), cut?_eq_some_iff]
  induction fuel generalizing t with
  | zero => exact ⟨rfl, rfl⟩
  | succ fuel ih =>
      obtain ⟨happend, hsize⟩ := ih (firstLine t).2
      rw [afterDirectives, splitDirectives]
      dsimp only
      split
      · refine ⟨?_, ?_⟩
        · rw [List.append_assoc, ← happend, Declaration.firstLine_append]
        · rw [Text.byteSize_append, hsize]
      · exact ⟨rfl, rfl⟩

theorem consolidate_eq (t : Text) : consolidate t = some (Declaration.consolidate t) := by
  have hreferences : readReferences t ((Import.scan t).references.map .of) = some (Import.scan t).references :=
    readReferences_go (at_scan t)
  have hinlined : splice t 0 ((Import.scan t).references.map (inlineEdit (Import.scan t).references))
      = some (inlineReferences (Import.scan t).references (Import.scan t)) :=
    splice_of_spliced (spliced_inline _ 0 (a := []) rfl rfl)
  have hbring : bring (Import.scan t).references
      = fun state module => pure (bringIn (Import.scan t).references state module) :=
    funext fun state => funext fun module => bring_eq _ state module
  rw [consolidate, scanTypeReferences_eq, Declaration.consolidate]
  simp only [Option.bind_eq_bind, Option.bind_some, hreferences, hinlined, hbring, List.foldlM_pure,
    cut?_afterDirectives]
  split
  · rfl
  · rw [Option.pure_def, Option.bind_some]
    exact (apply_ite some _ _ _).symm

/-! ## Scanning and rewriting -/

/-- **Nothing goes out of range.**  Scanning and rewriting byte by byte have results, so every loop moves on
    until it ends and every text is cut between characters; and the results are what the parts of the text
    say.  The sites come in order and so do their parts, and so do the references, though they reach over
    their sites. -/
theorem never_out_of_range (t : Text) :
    (scanImports t = some ((Import.scan t).located.map .of) ∧
        (∀ l ∈ (Import.scan t).located, l.Nested t.byteSize) ∧
        (Import.scan t).located.Pairwise (fun a b => a.span.stop ≤ b.span.start) ∧
        ∀ l ∈ (Import.scan t).located, slice? t l.specifier = some l.site.specifier ∧
          slice? t l.clause = some l.site.clause ∧ bindings t (.of l) = some l.site.bindings?) ∧
      (scanTypeReferences t = some ((Import.scan t).references.map .of) ∧
        (∀ r ∈ (Import.scan t).references, r.span.start < r.span.stop ∧ r.span.stop ≤ t.byteSize) ∧
        (Import.scan t).references.Pairwise fun a b => a.span.stop ≤ b.span.start) ∧
      removePureImports t = some (Declaration.removeSideEffects t) ∧
      (∀ file aliases, rewriteAliases file aliases t = some (Declaration.resolveAliases file aliases t)) ∧
      consolidate t = some (Declaration.consolidate t) := by
  refine ⟨⟨scanImports_eq t, Import.nested_located t, Import.pairwise_located t, fun l hl => ?_⟩,
    ⟨scanTypeReferences_eq t, Import.references_within t, Import.pairwise_references t⟩,
    removePureImports_eq t, fun file aliases => rewriteAliases_eq file aliases t, consolidate_eq t⟩
  obtain ⟨site, start, u, rfl, hat⟩ := at_located (at_scan t) l hl
  exact ⟨slice_specifier hat, slice_clause hat, bindings_eq (slice_clause hat)⟩

end Typings.Offset
