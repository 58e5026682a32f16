import Typings.Text

/-!
# Import sites

A site is a statement or expression that names another module.  It is kept as the texts of its parts,
so that a part can be replaced without counting offsets, and a scanned text is its sites with the
texts between them.

* `Site`: one site; `Site.text` puts its parts together.
* `Segments`: a text cut at its sites; `Segments.text` puts it together again.
* `Segments.located`: the sites with the byte ranges of their parts.

Offsets are counted in bytes and made only when they are asked for: a site that was changed and the
sites behind it are then located in the new text.  Dropping a site leaves what stands around it.
-/

namespace Typings.Import

/-- How a module is named. -/
inductive SiteKind where
  /-- `import … from '…'` or `export … from '…'`. -/
  | static
  /-- `import '…'`. -/
  | sideEffect
  /-- `import('…')`. -/
  | dynamic
deriving DecidableEq, Repr

/-- The keyword a site starts with. -/
inductive Keyword where
  | importing
  | exporting
deriving DecidableEq, Repr

/-- The spelling of a keyword. -/
def Keyword.text : Keyword → Text
  | .importing => "import"
  | .exporting => "export"

/-- One site, as the texts of its parts in order. -/
structure Site where
  kind : SiteKind
  keyword : Keyword
  /-- Written with the `type` modifier. -/
  typeOnly : Bool
  /-- From the keyword up to the clause, or to the specifier where there is no clause. -/
  head : Text
  /-- The bindings of a static site, without the blanks around them. -/
  clause : Text
  /-- From the clause up to the specifier, with the opening quote. -/
  link : Text
  /-- The module named, without quotes. -/
  specifier : Text
  /-- From the closing quote to the end of the site. -/
  tail : Text
deriving DecidableEq, Repr

/-- The text of a site. -/
def Site.text (s : Site) : Text := s.head ++ s.clause ++ s.link ++ s.specifier ++ s.tail

/-- A range of byte offsets, its end excluded. -/
structure Range where
  start : Nat
  stop : Nat
deriving DecidableEq, Repr

/-- The range of a text that starts at an offset. -/
def Range.at (start : Nat) (t : Text) : Range := ⟨start, start + t.byteSize⟩

/-- A site with the byte ranges of its parts. -/
structure Located where
  site : Site
  span : Range
  clause : Range
  specifier : Range
deriving DecidableEq, Repr

/-- A site that starts at an offset. -/
def Site.locate (offset : Nat) (s : Site) : Located :=
  let clause := Range.at (offset + s.head.byteSize) s.clause
  { site := s
    span := Range.at offset s.text
    clause := clause
    specifier := Range.at (clause.stop + s.link.byteSize) s.specifier }

/-- A text cut at its sites: each site with the text before it, and the text after the last. -/
structure Segments where
  sites : List (Text × Site)
  rest : Text
deriving DecidableEq, Repr

namespace Segments

/-- The text that was cut. -/
def text (s : Segments) : Text := (s.sites.flatMap fun (gap, site) => gap ++ site.text) ++ s.rest

/-- More text in front. -/
def prepend (t : Text) (s : Segments) : Segments :=
  match s.sites with
  | [] => { s with rest := t ++ s.rest }
  | (gap, site) :: more => { s with sites := (t ++ gap, site) :: more }

/-- A site in front. -/
def consSite (site : Site) (s : Segments) : Segments := { s with sites := ([], site) :: s.sites }

/-- The sites with their ranges. -/
def located (s : Segments) : List Located := go 0 s.sites
where
  /-- The sites of a text that starts at an offset. -/
  go (offset : Nat) : List (Text × Site) → List Located
    | [] => []
    | (gap, site) :: more =>
      let start := offset + gap.byteSize
      site.locate start :: go (start + site.text.byteSize) more

/-- Each site changed in place. -/
def mapSites (f : Site → Site) (s : Segments) : Segments :=
  { s with sites := s.sites.map fun (gap, site) => (gap, f site) }

/-- The text without the sites that satisfy `p`. -/
def dropSites (p : Site → Bool) (s : Segments) : Text :=
  (s.sites.flatMap fun (gap, site) => if p site then gap else gap ++ site.text) ++ s.rest

@[simp] theorem text_prepend (t : Text) (s : Segments) : (s.prepend t).text = t ++ s.text := by
  unfold prepend text
  split <;> simp_all

@[simp] theorem text_consSite (site : Site) (s : Segments) :
    (s.consSite site).text = site.text ++ s.text := by
  simp [consSite, text]

end Segments

end Typings.Import
