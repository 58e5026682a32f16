import Typings.Proofs.Declaration.Bindings

/-!
# `Parts` — texts with references to types in them

A text is taken apart into sites, references to types and what scanning passes over.  A part is any text
that scanning deals with in the same way whatever follows it, however it is laid out.  So references may
stand anywhere in a text, several on a line, and putting names in their places gives such a text again.

* `Passes`, `Stands`, `Takes`: what scanning passes over, sites that it finds, and imports that it finds
  with other bindings as well.
* `Part`, `textOf`: the parts and the text that they make up; `scan_textOf` says that scanning finds them.
* `named_segmentsOf`: the types that a text refers to, part by part.
* `inlineReferences_textOf`: the text with its references replaced by their names.
-/

namespace Typings.Declaration

open Import

/-- Scanning passes over the text, whatever follows it. -/
def Passes (a : Text) : Prop := ∀ t, scanFrom false (a ++ t) = (scanFrom false t).prepend a

/-- Scanning finds the site, whatever follows it. -/
def Stands (site : Site) : Prop :=
  ∀ t, scanFrom false (site.text ++ t) = (scanFrom false t).consSite site

/-- An import that can take more bindings: those that it has are written ones, and it is found with any
    written names between its braces. -/
structure Takes (site : Site) (b : Bindings) : Prop where
  written : ∃ c : ImportClause, c.Solid ∧ c.bindings? = some b
  stands : ∀ (c : ImportClause) (named : List Text), c.Solid →
    c.bindings? = some { b with named := some named } → Stands { site with clause := c.text }

/-- The type that a site names with the text after it, by its module and its name. -/
def naming? (site : Site) (after : Text) : Option (Text × Text) :=
  if site.kind == .dynamic then (member? after).map fun (name, _) => (site.specifier, name) else none

/-- A part of a text. -/
inductive Part where
  /-- What scanning passes over. -/
  | plain (text : Text) (passes : Passes text)
  /-- A site that names no type, with what follows it. -/
  | site (site : Site) (stands : Stands site) (takes : ∀ b, site.bindings? = some b → Takes site b)
      (after : Text) (passes : Passes after) (unnamed : ∀ t, naming? site (after ++ t) = none)
  /-- A type named in place, `import('…').m`, with what follows its name. -/
  | reference (site : Site) (stands : Stands site) (dynamic : site.kind = .dynamic)
      (quotable : ∀ c ∈ site.specifier, Quote.single.admits c) (member : Name) (solid : member.Solid)
      (mark : Char) (ends : isIdent mark = false) (rest : Text) (passes : Passes (mark :: rest))

/-- Nothing is passed over. -/
theorem passes_nil : Passes [] := fun _ => (Segments.prepend_nil _).symm

/-- Texts that are passed over one by one are passed over together. -/
theorem Passes.append {a b : Text} (ha : Passes a) (hb : Passes b) : Passes (a ++ b) := by
  intro t
  rw [List.append_assoc, ha, hb, Segments.prepend_prepend]

section

variable (w : Word) {mark : Char} {rest : Text} (ends : isIdent mark = false) (h : Passes (mark :: rest))

include ends h

/-- A word is passed over together with what ends it. -/
theorem passes_word : Passes (w.text ++ mark :: rest) := by
  intro t
  have hword := @scanFrom_word false w (mark :: rest ++ t) (breaks_cons.mpr ends)
  rw [List.append_assoc, hword, h, Segments.prepend_prepend]

/-- A property is passed over, whatever word it is. -/
theorem passes_property : Passes ('.' :: (w.text ++ mark :: rest)) := by
  intro t
  have hword := @scanFrom_word true w (mark :: rest ++ t) (breaks_cons.mpr ends)
  rw [List.cons_append, scanFrom_mark (by decide), List.append_assoc]
  show (scanFrom true (w.text ++ (mark :: rest ++ t))).prepend ['.'] = _
  rw [hword, h, Segments.prepend_prepend, Segments.prepend_prepend]
  rfl

end

namespace Part

/-- The site at the front of a part. -/
def site? : Part → Option Site
  | .plain _ _ => none
  | .site s .. => some s
  | .reference s .. => some s

/-- What stands in a part after its site. -/
def after : Part → Text
  | .plain t _ => t
  | .site _ _ _ t _ _ => t
  | .reference _ _ _ _ m _ mark _ rest _ => '.' :: (m.text ++ mark :: rest)

/-- The text of a part. -/
def text (p : Part) : Text := (p.site?.map Site.text).getD [] ++ p.after

/-- The cut that a part makes in front of what follows it. -/
def onto (p : Part) (s : Segments) : Segments :=
  match p.site? with
  | some found => (s.prepend p.after).consSite found
  | none => s.prepend p.after

/-- A part with a site puts the site in front, and what follows it. -/
theorem onto_of_some {p : Part} {site : Site} (h : p.site? = some site) (s : Segments) :
    p.onto s = (s.prepend p.after).consSite site := by
  rw [onto, h]

/-- A part without a site is put in front as it is. -/
theorem onto_of_none {p : Part} (h : p.site? = none) (s : Segments) : p.onto s = s.prepend p.after := by
  rw [onto, h]

/-- Putting a part in front puts its text in front. -/
theorem text_onto (p : Part) (s : Segments) : (p.onto s).text = p.text ++ s.text := by
  cases h : p.site? with
  | none => simp [onto_of_none h, text, h]
  | some site => simp [onto_of_some h, text, h]

/-- What a part binds. -/
def bound (p : Part) : List Bound := (p.site?.map Site.bound).getD []

/-- Putting a part in front puts in front what it binds. -/
theorem bound_onto (p : Part) (s : Segments) : (p.onto s).bound = p.bound ++ s.bound := by
  cases h : p.site? with
  | none => simp [onto_of_none h, bound, h]
  | some site => simp [onto_of_some h, bound, h]

/-- The site of a part is found by scanning. -/
theorem stands {p : Part} {site : Site} (h : p.site? = some site) : Stands site := by
  cases p with
  | plain => cases h
  | site s stands =>
      cases h
      exact stands
  | reference s stands =>
      cases h
      exact stands

/-- What follows the site of a part is passed over. -/
theorem passes_after (p : Part) : Passes p.after := by
  cases p with
  | plain t passes => exact passes
  | site _ _ _ t passes _ => exact passes
  | reference _ _ _ _ m _ mark ends rest passes => exact passes_property m.toWord ends passes

end Part

/-- **One part at a time.** Scanning a text that starts with a part makes the part's cut and goes on with
    the rest, whatever it is. -/
theorem scanFrom_part (p : Part) (t : Text) : scanFrom false (p.text ++ t) = p.onto (scanFrom false t) := by
  cases h : p.site? with
  | none =>
      have htext : p.text = p.after := by rw [Part.text, h]; rfl
      rw [htext, Part.onto_of_none h, p.passes_after]
  | some site =>
      have htext : p.text = site.text ++ p.after := by rw [Part.text, h]; rfl
      rw [htext, Part.onto_of_some h, List.append_assoc, Part.stands h, p.passes_after]

/-- The text that parts make up. -/
def textOf (ps : List Part) : Text := ps.flatMap Part.text

/-- The cuts that parts make. -/
def segmentsOf (ps : List Part) : Segments := ps.foldr Part.onto ⟨[], []⟩

/-- Scanning takes a text part by part, whatever follows it. -/
theorem scanFrom_textOf (ps : List Part) (t : Text) :
    scanFrom false (textOf ps ++ t) = ps.foldr Part.onto (scanFrom false t) := by
  induction ps with
  | nil => rfl
  | cons p ps ih => rw [textOf, List.flatMap_cons, List.append_assoc, scanFrom_part, ← textOf, ih]; rfl

/-- The text of parts is cut exactly at the sites of the parts. -/
theorem scan_textOf (ps : List Part) : scan (textOf ps) = segmentsOf ps := by
  have h := scanFrom_textOf ps []
  rwa [List.append_nil, scanFrom_nil] at h

/-- The segments of some parts are cut from their text. -/
theorem text_segmentsOf (ps : List Part) : (segmentsOf ps).text = textOf ps := by
  induction ps with
  | nil => rfl
  | cons p ps ih =>
      rw [segmentsOf, List.foldr_cons, Part.text_onto, ← segmentsOf, ih]
      rfl

/-- Parts bind what they bind one by one. -/
theorem bound_foldr (ps : List Part) (s : Segments) :
    (ps.foldr Part.onto s).bound = ps.flatMap Part.bound ++ s.bound := by
  induction ps with
  | nil => rfl
  | cons p ps ih => rw [List.foldr_cons, Part.bound_onto, ih, List.flatMap_cons, List.append_assoc]

/-- What a text binds, part by part. -/
theorem bound_textOf (ps : List Part) : bound (textOf ps) = ps.flatMap Part.bound := by
  rw [bound, scan_textOf, segmentsOf, bound_foldr]
  exact List.append_nil _

/-! ## The types that are referred to -/

/-- The text up to the first site. -/
def lead (s : Segments) : Text := afterSite s.sites s.rest

/-- A text in front leads the segments. -/
theorem lead_prepend (t : Text) (s : Segments) : lead (s.prepend t) = t ++ lead s := by
  obtain ⟨sites, rest⟩ := s
  cases sites with
  | nil => rfl
  | cons p sites => rfl

/-- The types that are referred to, without their places. -/
def named (s : Segments) : List (Text × Text) := s.references.map fun r => (r.module, r.name)

/-- A site names a type just if it makes a reference, and the same one. -/
theorem reference?_naming? (l : Located) (after : Text) :
    (l.reference? after).map (fun r => (r.module, r.name)) = naming? l.site after := by
  rw [Located.reference?, naming?]
  split
  · cases member? after <;> rfl
  · rfl

theorem gapsAfter_cons (p : Text × Site) (more : List (Text × Site)) (rest : Text) :
    gapsAfter (p :: more) rest = afterSite more rest :: gapsAfter more rest := by
  cases more <;> rfl

/-- The types that the sites of a cut text name, given the text after the last. -/
def namedFrom : List (Text × Site) → Text → List (Text × Text)
  | [], _ => []
  | (_, site) :: more, rest => (naming? site (afterSite more rest)).toList ++ namedFrom more rest

/-- Where a site stands makes no difference to what it names. -/
theorem named_eq (s : Segments) : named s = namedFrom s.sites s.rest := by
  have hfrom (offset : Nat) (sites : List (Text × Site)) :
      ((Segments.located.go offset sites).zip (gapsAfter sites s.rest)).filterMap
        (fun p => naming? p.1.site p.2) = namedFrom sites s.rest := by
    induction sites generalizing offset with
    | nil => rfl
    | cons p more ih =>
        rw [gapsAfter_cons, Segments.located.go, List.zip_cons_cons, namedFrom, ← ih]
        cases hn : naming? p.2 (afterSite more s.rest) with
        | none => exact List.filterMap_cons_none hn
        | some x => exact List.filterMap_cons_some hn
  rw [named, Segments.references, List.map_filterMap, ← hfrom 0]
  exact congrArg (List.filterMap · _) (funext fun p => reference?_naming? p.1 p.2)

/-- A text in front names no type. -/
theorem named_prepend (t : Text) (s : Segments) : named (s.prepend t) = named s := by
  rw [named_eq, named_eq]
  obtain ⟨sites, rest⟩ := s
  cases sites with
  | nil => rfl
  | cons p sites => rfl

/-- A site in front may name a type with the text behind it. -/
theorem named_consSite (site : Site) (s : Segments) :
    named (s.consSite site) = (naming? site (lead s)).toList ++ named s := by
  rw [named_eq, named_eq]
  rfl

/-- The type that a part refers to. -/
def Part.named? : Part → Option (Text × Text)
  | .reference s _ _ _ m .. => some (s.specifier, m.text)
  | _ => none

/-- A member is read up to what ends it. -/
theorem member?_text (m : Name) {mark : Char} (ends : isIdent mark = false) (t : Text) :
    member? ('.' :: (m.text ++ mark :: t)) = some (m.text, mark :: t) := by
  have hword := word_append_of_breaks (t := mark :: t) m.ident (breaks_cons.mpr ends)
  rw [member?, hword]
  obtain ⟨d, u, hm⟩ := List.exists_cons_of_ne_nil m.nonempty
  rw [hm]

/-- A dynamic import names the type that is written behind it. -/
theorem naming?_reference {site : Site} (dynamic : site.kind = .dynamic) (m : Name) {mark : Char}
    (ends : isIdent mark = false) (t : Text) :
    naming? site ('.' :: (m.text ++ mark :: t)) = some (site.specifier, m.text) := by
  rw [naming?, dynamic, member?_text m ends]
  rfl

/-- Putting a part in front puts in front what it names. -/
theorem named_onto (p : Part) (s : Segments) : named (p.onto s) = p.named?.toList ++ named s := by
  cases p with
  | plain t _ => exact named_prepend t s
  | site site _ _ after _ unnamed =>
      rw [Part.onto_of_some rfl, named_consSite, lead_prepend, Part.after, unnamed, named_prepend]
      rfl
  | reference site _ dynamic _ m _ mark ends rest _ =>
      have hnaming : naming? site ('.' :: (m.text ++ mark :: rest) ++ lead s) = some (site.specifier, m.text) := by
        rw [List.cons_append, List.append_assoc]
        exact naming?_reference dynamic m ends _
      rw [Part.onto_of_some rfl, named_consSite, lead_prepend, Part.after, hnaming, named_prepend]
      rfl

/-- Parts name what they name one by one. -/
theorem named_foldr (ps : List Part) (s : Segments) :
    named (ps.foldr Part.onto s) = ps.filterMap Part.named? ++ named s := by
  induction ps with
  | nil => rfl
  | cons p ps ih =>
      rw [List.foldr_cons, named_onto, ih]
      cases hn : p.named? with
      | none => rw [List.filterMap_cons_none hn]; rfl
      | some x => rw [List.filterMap_cons_some hn]; rfl

/-- The types that a text refers to are those of its parts. -/
theorem named_segmentsOf (ps : List Part) : named (segmentsOf ps) = ps.filterMap Part.named? :=
  (named_foldr ps ⟨[], []⟩).trans (List.append_nil _)

/-- All types that a text of parts refers to have plain names and modules. -/
theorem plain_of_mem_references {ps : List Part} {r : Reference}
    (hr : r ∈ (scan (textOf ps)).references) : Plain r := by
  have hmem : (r.module, r.name) ∈ named (segmentsOf ps) := by
    rw [← scan_textOf]
    exact List.mem_map_of_mem (f := fun r : Reference => (r.module, r.name)) hr
  rw [named_segmentsOf] at hmem
  obtain ⟨p, -, hp⟩ := List.mem_filterMap.mp hmem
  cases p with
  | reference site _ _ quotable m solid =>
      obtain ⟨hmodule, hname⟩ := Prod.mk.inj (Option.some.inj hp)
      exact ⟨⟨m, solid, hname⟩, hmodule ▸ quotable⟩
  | _ => cases hp

/-! ## The lines of a compiler -/

/-- The site of a written import is found, whatever follows it. -/
theorem stands_import (typed : Bool) (c : ImportClause) (q : Literal) :
    Stands (clauseSite .importing typed c.text q) := by
  intro t
  have hsite : siteAfter? .importing (' ' :: (modifier typed ++ (c.text ++ (" from " ++ (q.text ++ t)))))
      = some (clauseSite .importing typed c.text q, t) := importSite?_clause typed q t c.start c.reads
  have hscan := scanFrom_keyword_of_some .importing (breaks_cons.mpr (by decide)) hsite
  rw [text_clauseSite_import, Item.text_importFrom]
  simp only [List.append_assoc, import_append]
  exact hscan

/-- The site of a written re-export is found, whatever follows it. -/
theorem stands_export (typed : Bool) (c : ExportClause) (q : Literal) :
    Stands (clauseSite .exporting typed c.text q) := by
  intro t
  have hsite : siteAfter? .exporting (' ' :: (modifier typed ++ (c.text ++ (" from " ++ (q.text ++ t)))))
      = some (clauseSite .exporting typed c.text q, t) := exportSite?_clause typed c q t
  have hscan := scanFrom_keyword_of_some .exporting (breaks_cons.mpr (by decide)) hsite
  rw [text_clauseSite_export, Item.text_exportFrom]
  simp only [List.append_assoc, export_append]
  exact hscan

/-- The site of an import for its effects is found, whatever follows it. -/
theorem stands_sideEffect (q : Literal) : Stands (sideEffectSite q) := by
  intro t
  rw [text_sideEffectSite, scanFrom_sideEffect, Item.onto_of_some rfl, Segments.prepend_nil,
    Segments.prepend_nil]

/-- The site of a dynamic import is found, whatever follows it. -/
theorem stands_dynamic (q : Literal) : Stands (dynamicSite q) := by
  intro t
  have hsite : siteAfter? .importing ('(' :: (q.text ++ ')' :: t)) = some (dynamicSite q, t) :=
    importSite?_dynamic q t
  have hscan := scanFrom_keyword_of_some .importing (breaks_cons.mpr (by decide)) hsite
  have hopen : ("import(" : Text) = Keyword.importing.text ++ ['('] := rfl
  rw [text_dynamicSite, hopen]
  refine Eq.trans (congrArg (scanFrom false) ?_) hscan
  simp

/-- A written import can take bindings. -/
theorem takes_import (typed : Bool) {c : ImportClause} (h : c.Solid) (q : Literal) {b : Bindings}
    (hb : (clauseSite .importing typed c.text q).bindings? = some b) :
    Takes (clauseSite .importing typed c.text q) b where
  written := ⟨c, h, (clauseBindings?_text h).symm.trans hb⟩
  stands c' _ _ _ := stands_import typed c' q

/-- The line of a written import. -/
def importPart (typed : Bool) (c : ImportClause) (h : c.Solid) (q : Literal) : Part :=
  .site (clauseSite .importing typed c.text q) (stands_import typed c q) (fun _ => takes_import typed h q)
    ";\n" (scanFrom_ending false) fun _ => rfl

/-- An import with room for more bindings is written as any import. -/
theorem text_importPart (typed : Bool) {c : ImportClause} (h : c.Solid) (q : Literal) :
    (importPart typed c h q).text = (Item.importFrom typed c q).line := by
  show (clauseSite .importing typed c.text q).text ++ _ = _
  rw [text_clauseSite_import]
  rfl

/-- No blank stands in the names of an item, and no quote in the module that it refers to. -/
def Item.Plain : Item → Prop
  | .importFrom _ c _ => c.Solid
  | .reference _ q m => '\'' ∉ q.body ∧ m.Solid
  | _ => True

/-- The line is passed over. -/
theorem passes_line {i : Item} (h : i.pieces? = none) : Passes i.line := by
  intro t
  rw [scanFrom_line, Item.onto_of_none h]

/-- An import for its effects takes no bindings. -/
theorem bindings?_sideEffectSite (q : Literal) : (sideEffectSite q).bindings? = none := rfl

/-- A re-export takes no bindings. -/
theorem bindings?_exportSite (typed : Bool) (c : ExportClause) (q : Literal) :
    (clauseSite .exporting typed c.text q).bindings? = none := rfl

/-- The parts of a line. -/
def Item.parts : (i : Item) → Item.Plain i → List Part
  | .importFrom typed c q, h => [importPart typed c h q]
  | .exportFrom typed c q, _ =>
    [.site _ (stands_export typed c q) (fun b hb => absurd ((bindings?_exportSite typed c q).symm.trans hb) nofun)
      ";\n" (scanFrom_ending false) fun _ => rfl]
  | .sideEffect q, _ =>
    [.site _ (stands_sideEffect q) (fun b hb => absurd ((bindings?_sideEffectSite q).symm.trans hb) nofun)
      [] passes_nil fun _ => rfl]
  | .reference n q m, h =>
    [.plain (Item.referenceHead n) (scanFrom_referenceHead n),
      .reference (dynamicSite q) (stands_dynamic q) rfl
        (fun c hc => ⟨ne_of_mem_of_not_mem hc h.1, (q.plain c hc).2⟩) m h.2 ';' (by decide) "\n"
        (scanFrom_ending false)]
  | .exportNames bs, _ => [.plain (Item.exportNames bs).line (passes_line rfl)]
  | .declaration d, _ => [.plain (Item.declaration d).line (passes_line rfl)]
  | .lineComment t one, _ => [.plain (Item.lineComment t one).line (passes_line rfl)]
  | .blockComment t unclosed, _ => [.plain (Item.blockComment t unclosed).line (passes_line rfl)]

theorem textOf_singleton (p : Part) : textOf [p] = p.text := List.append_nil _

theorem textOf_append (ps qs : List Part) : textOf (ps ++ qs) = textOf ps ++ textOf qs :=
  List.flatMap_append

/-- The parts of an item make up its line. -/
theorem textOf_parts (i : Item) (h : Item.Plain i) : textOf (Item.parts i h) = i.line := by
  cases i with
  | importFrom typed c q => exact (textOf_singleton _).trans (text_importPart typed h q)
  | exportFrom typed c q =>
      rw [Item.line_exportFrom, ← Item.text_exportFrom, ← text_clauseSite_export]
      exact textOf_singleton _
  | sideEffect q =>
      rw [← text_sideEffectSite]
      simp [Item.parts, textOf, Part.text, Part.site?, Part.after]
  | reference n q m =>
      rw [Item.line_reference]
      simp [Item.parts, textOf, Part.text, Part.site?, Part.after, text_dynamicSite]
  | _ => exact textOf_singleton _

/-! ## Names in place of references -/

variable (refs : List Reference)

/-- What is left of cut texts when references become names, given how much of the front is left out. -/
def inlined (skip : Nat) (s : Segments) : Text := inlineFrom refs skip s.sites s.rest

theorem inlined_prepend {skip : Nat} {t : Text} (h : skip ≤ t.length) (s : Segments) :
    inlined refs skip (s.prepend t) = t.drop skip ++ inlined refs 0 s := by
  obtain ⟨sites, rest⟩ := s
  cases sites with
  | nil => exact List.drop_append_of_le_length h
  | cons p more =>
      have hfront : (t ++ p.1).drop skip = t.drop skip ++ p.1 := List.drop_append_of_le_length h
      simp only [inlined, Segments.prepend, inlineFrom, hfront, List.drop_zero]
      split <;> simp

/-- A site that names no type is left as it is. -/
theorem inlined_consSite_of_unnamed {site : Site} {s : Segments} (h : naming? site (lead s) = none) :
    inlined refs 0 (s.consSite site) = site.text ++ inlined refs 0 s := by
  have hmember : site.kind = .dynamic → member? (afterSite s.sites s.rest) = none := by
    intro hdynamic
    rw [naming?, hdynamic] at h
    exact Option.map_eq_none_iff.mp h
  by_cases hdynamic : site.kind = .dynamic
  · simp [inlined, Segments.consSite, inlineFrom, hdynamic, hmember hdynamic]
  · simp [inlined, Segments.consSite, inlineFrom, hdynamic]

/-- A site that names a type becomes the local name, and the type behind it is left out. -/
theorem inlined_consSite_of_named {site : Site} (h : site.kind = .dynamic) {s : Segments} {name rest : Text}
    (hm : member? (lead s) = some (name, rest)) :
    inlined refs 0 (s.consSite site)
      = localName refs site.specifier name ++ inlined refs (name.length + 1) s := by
  have hm' : member? (afterSite s.sites s.rest) = some (name, rest) := hm
  simp [inlined, Segments.consSite, inlineFrom, h, hm']

/-- A dynamic import binds nothing. -/
theorem bound_of_dynamic {site : Site} (h : site.kind = .dynamic) : site.bound = [] := by
  rw [Site.bound, h]
  rfl

/-- A local name is passed over together with what ended the member. -/
theorem passes_localName (module : Text) {m : Name} (solid : m.Solid) {mark : Char} {rest : Text}
    (ends : isIdent mark = false) (h : Passes (mark :: rest)) :
    Passes (localName refs module m.text ++ mark :: rest) := by
  obtain ⟨w, -, hw⟩ := exists_localName refs module solid
  rw [← hw]
  exact passes_word w ends h

/-- A part with its reference replaced by the name: the other parts stay. -/
def Part.inline : Part → Part
  | .reference s _ _ _ m solid mark ends rest passes =>
    .plain (localName refs s.specifier m.text ++ mark :: rest)
      (passes_localName refs s.specifier solid ends passes)
  | p => p

/-- Putting a name in place of a reference changes nothing of what is bound. -/
theorem bound_inline (p : Part) : (p.inline refs).bound = p.bound := by
  cases p with
  | reference site _ dynamic => exact (bound_of_dynamic dynamic).symm
  | _ => rfl

/-- Putting names in place of references goes part by part. -/
theorem inlined_onto (p : Part) (s : Segments) :
    inlined refs 0 (p.onto s) = (p.inline refs).text ++ inlined refs 0 s := by
  cases p with
  | plain t passes => exact inlined_prepend refs (Nat.zero_le _) s
  | site site stands takes after passes unnamed =>
      have hnaming : naming? site (lead (s.prepend after)) = none := by
        rw [lead_prepend]
        exact unnamed _
      rw [Part.onto_of_some rfl, Part.after, inlined_consSite_of_unnamed refs hnaming,
        inlined_prepend refs (Nat.zero_le _)]
      simp [Part.inline, Part.text, Part.site?, Part.after]
  | reference site stands dynamic quotable m solid mark ends rest passes =>
      have hmember : member? (lead (s.prepend ('.' :: (m.text ++ mark :: rest))))
          = some (m.text, mark :: rest ++ lead s) := by
        rw [lead_prepend, List.cons_append, List.append_assoc]
        exact member?_text m ends _
      have hrest : ('.' :: (m.text ++ mark :: rest)).drop (m.text.length + 1) = mark :: rest := by simp
      rw [Part.onto_of_some rfl, Part.after, inlined_consSite_of_named refs dynamic hmember,
        inlined_prepend refs (by simp), hrest]
      simp [Part.inline, Part.text, Part.site?, Part.after]

/-- **A text with its references replaced by their names** is the text of its parts with names in them. -/
theorem inlineReferences_textOf (ps : List Part) :
    inlineReferences refs (scan (textOf ps)) = textOf (ps.map (Part.inline refs)) := by
  rw [scan_textOf]
  show inlined refs 0 (segmentsOf ps) = _
  induction ps with
  | nil => rfl
  | cons p ps ih =>
      rw [segmentsOf, List.foldr_cons, inlined_onto, ← segmentsOf, ih]
      rfl

theorem bound_map_inline (ps : List Part) :
    (ps.map (Part.inline refs)).flatMap Part.bound = ps.flatMap Part.bound := by
  rw [List.flatMap_map]
  exact List.flatMap_congr fun p _ => bound_inline refs p

end Typings.Declaration
