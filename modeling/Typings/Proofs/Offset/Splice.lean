import Typings.Declaration
import Typings.Proofs.Declaration.Targets
import Typings.Proofs.Offset.Scan

/-!
# `Splice` — replacing ranges of a text

The rewriters go over a text from one range to the next: they copy what is between the last range and the
next, and put something in the place of the range.  Each copy is a slice, which has a result only if the
ranges come one after the other and lie between characters.

* `splice`: a text with some ranges replaced.
* `Spliced`: what comes of it, from an offset on; `Spliced.pass` and `Spliced.edit` put it together.
* `removePureImports_eq`, `rewriteAliases_eq`: two rewriters by byte offsets.
-/

namespace Typings.Offset

open Import (Range Site SiteKind Located Segments)
open Alias (Rule)
open Declaration (removeSideEffects resolveAliases resolveSpecifier seenFrom aliasTarget)

/-! ## Splicing -/

/-- The text from `last` on, with some ranges replaced. -/
def splice (t : Text) (last : Nat) : List (Range × Text) → Option Text
  | [] => slice? t ⟨last, t.byteSize⟩
  | (range, new) :: more => do
    let kept ← slice? t ⟨last, range.start⟩
    let rest ← splice t range.stop more
    return kept ++ new ++ rest

variable {t u a out : Text} {offset : Nat} {edits more : List (Range × Text)}

/-- From where `u` is ahead on, replacing the ranges gives `out`, whatever was copied up to there. -/
def Spliced (t : Text) (offset : Nat) (u : Text) (edits : List (Range × Text)) (out : Text) : Prop :=
  ∀ last gap, At t last (gap ++ u) → last + gap.byteSize = offset → splice t last edits = some (gap ++ out)

theorem spliced_nil (t : Text) (offset : Nat) (u : Text) : Spliced t offset u [] u :=
  fun _ _ h _ => h.slice_rest

theorem Spliced.pass (h : Spliced t (offset + a.byteSize) u edits out) :
    Spliced t offset (a ++ u) edits (a ++ out) := by
  intro last gap hat hlast
  rw [← List.append_assoc] at hat ⊢
  exact h last (gap ++ a) hat (by rw [Text.byteSize_append, ← Nat.add_assoc, hlast])

theorem Spliced.edit {old : Text} (new : Text) (h : Spliced t (offset + old.byteSize) u edits out) :
    Spliced t offset (old ++ u) ((⟨offset, offset + old.byteSize⟩, new) :: edits) (new ++ out) := by
  intro last gap hat hlast
  have hkept : slice? t ⟨last, offset⟩ = some gap := hlast ▸ hat.slice
  have hrest : splice t (offset + old.byteSize) edits = some out :=
    h _ [] (hlast ▸ hat.pass.pass) rfl
  rw [splice, hkept]
  simp only [Option.bind_eq_bind, Option.bind_some, hrest]
  rw [List.append_assoc]
  rfl

/-- What stands between two other texts is replaced. -/
theorem Spliced.between (front old tail new : Text)
    (h : Spliced t (offset + (front ++ (old ++ tail)).byteSize) u edits out) :
    Spliced t offset (front ++ (old ++ (tail ++ u))) ((.at (offset + front.byteSize) old, new) :: edits)
      (front ++ (new ++ (tail ++ out))) := by
  rw [Text.byteSize_append, Text.byteSize_append, ← Nat.add_assoc, ← Nat.add_assoc] at h
  exact (h.pass.edit new).pass

theorem Spliced.eq (h : Spliced t 0 t edits out) : splice t 0 edits = some out := h 0 [] (at_zero t) rfl

/-! ## Imports for their effects alone -/

/-- A text without its imports for effects alone, by byte offsets. -/
def removePureImports (t : Text) : Option Text := do
  let sites := (← scanImports t).filter (·.kind == .sideEffect)
  if sites.isEmpty then return t
  else splice t 0 (sites.map fun m => (m.span, []))

theorem dropSites_cons (p : Site → Bool) (gap : Text) (site : Site) (more : List (Text × Site)) (rest : Text) :
    Segments.dropSites p ⟨(gap, site) :: more, rest⟩
      = gap ++ ((if p site then [] else site.text) ++ Segments.dropSites p ⟨more, rest⟩) := by
  rw [Segments.dropSites, Segments.dropSites, List.flatMap_cons]
  by_cases hp : p site = true <;> simp [hp]

theorem spliced_dropSites (sites : List (Text × Site)) (rest : Text) (offset : Nat) :
    Spliced t offset (Segments.text ⟨sites, rest⟩)
      ((((Segments.located.go offset sites).map Mark.of).filter (·.kind == .sideEffect)).map fun m => (m.span, []))
      (Segments.dropSites (·.kind == .sideEffect) ⟨sites, rest⟩) := by
  induction sites generalizing offset with
  | nil => exact spliced_nil t offset rest
  | cons p more ih =>
      obtain ⟨gap, site⟩ := p
      have hmore := ih (offset + gap.byteSize + site.text.byteSize)
      rw [Import.text_cons, dropSites_cons, Segments.located.go, List.map_cons]
      by_cases hkind : (site.kind == .sideEffect) = true
      · rw [List.filter_cons_of_pos (by exact hkind), if_pos hkind]
        exact (hmore.edit []).pass
      · rw [List.filter_cons_of_neg (by exact hkind), if_neg hkind]
        exact hmore.pass.pass

/-- The whole text is gone over from its start. -/
theorem splice_of_spliced
    (h : Spliced t 0 (Segments.text ⟨(Import.scan t).sites, (Import.scan t).rest⟩) edits out) :
    splice t 0 edits = some out := by
  rw [show Segments.text ⟨(Import.scan t).sites, (Import.scan t).rest⟩ = t from Import.text_scan t] at h
  exact h.eq

theorem removePureImports_eq (t : Text) : removePureImports t = some (removeSideEffects t) := by
  have hsplice : splice t 0 ((((Import.scan t).located.map Mark.of).filter (·.kind == .sideEffect)).map
      fun m => (m.span, [])) = some (removeSideEffects t) := splice_of_spliced (spliced_dropSites _ _ 0)
  rw [removePureImports, scanImports_eq]
  simp only [Option.bind_eq_bind, Option.bind_some]
  generalize ((Import.scan t).located.map Mark.of).filter (·.kind == .sideEffect) = sites at hsplice ⊢
  cases sites with
  | nil => exact (spliced_nil t 0 t).eq.symm.trans hsplice
  | cons m sites => exact hsplice

/-! ## Aliases -/

/-- A literal recognizes a specifier, by byte offsets. -/
def literalMatches? (literal specifier : Text) : Option Bool :=
  if specifier.byteSize < literal.byteSize then some false
  else if specifier == literal then some true
  else if specifier.startsWith literal then
    if literal.endsWith "/" then some true
    else (slice? specifier ⟨literal.byteSize, specifier.byteSize⟩).map (·.startsWith "/")
  else some false

/-- The rule is for the specifier. -/
def applies? (r : Rule) (specifier : Text) : Option Bool :=
  match r.find with
  | .literal u => literalMatches? u specifier
  | .pattern p => some (p.isMatch specifier)

/-- The specifier with the matched part turned into `target`. -/
def applyTo? (r : Rule) (specifier target : Text) : Option Text :=
  match r.find with
  | .literal u => do
    let rest ← slice? specifier ⟨u.byteSize, specifier.byteSize⟩
    return if u.endsWith "/" then target ++ "/" ++ rest else target ++ rest
  | .pattern p => some (p.replaceFirst specifier target)

/-- The first of some rules that is for the specifier. -/
def firstRule (specifier : Text) : List Rule → Option (Option Rule)
  | [] => some none
  | r :: rs => do if ← applies? r specifier then return some r else firstRule specifier rs

/-- The rule of a set for the specifier, unless an exclusion protects it. -/
def resolve (s : Alias.Set) (specifier : Text) : Option (Option Rule) := do
  match ← firstRule specifier s.rules with
  | some r => return if s.exclusions.any (·.covers specifier) then none else some r
  | none => return none

/-- The specifier that a rule gives in the directory `dir`. -/
def aliasTarget? (dir : Path) (rule : Rule) (specifier : Text) : Option Text :=
  match rule.find with
  | .pattern _ => (applyTo? rule specifier rule.replacement).map (seenFrom dir)
  | .literal _ => applyTo? rule specifier (seenFrom dir rule.replacement)

/-- The specifiers of some sites that are to be replaced, with what comes in their places. -/
def aliasEdits (t : Text) (dir : Path) (aliases : Alias.Set) : List Mark → Option (List (Range × Text))
  | [] => return []
  | m :: ms => do
    let specifier ← slice? t m.specifier
    match ← resolve aliases specifier with
    | some rule =>
      let new ← aliasTarget? dir rule specifier
      let more ← aliasEdits t dir aliases ms
      return (m.specifier, new) :: more
    | none => aliasEdits t dir aliases ms

/-- The text of `file` with every aliased specifier resolved, by byte offsets. -/
def rewriteAliases (file : Path) (aliases : Alias.Set) (t : Text) : Option Text := do
  if aliases.rules.isEmpty then return t
  else splice t 0 (← aliasEdits t file.parentDir aliases (← scanImports t))

/-- What stands behind a beginning of a text can be cut out. -/
theorem slice_append (a b : Text) : slice? (a ++ b) ⟨a.byteSize, (a ++ b).byteSize⟩ = some b := by
  have h : At (a ++ b) (0 + a.byteSize) b := (at_zero (a ++ b)).pass
  rw [Nat.zero_add] at h
  exact h.slice_rest

theorem literalMatches?_eq (literal specifier : Text) :
    literalMatches? literal specifier = some (Alias.literalMatches literal specifier) := by
  rw [literalMatches?, Alias.literalMatches, Text.startsWith, ← List.isSome_isPrefixOf?_eq_isPrefixOf]
  cases hstrip : List.isPrefixOf? literal specifier with
  | none =>
      have hne : (specifier == literal) = false := by
        rw [beq_eq_false_iff_ne]
        rintro rfl
        rw [List.isPrefixOf?_eq_some_iff_append_eq.mpr (List.append_nil specifier)] at hstrip
        cases hstrip
      simp [hne]
  | some rest =>
      obtain rfl := List.isPrefixOf?_eq_some_iff_append_eq.mp hstrip
      have hsize : ¬ (literal ++ rest).byteSize < literal.byteSize := by
        rw [Text.byteSize_append]
        omega
      rw [if_neg hsize, slice_append]
      cases rest with
      | nil => simp
      | cons c rest => cases literal.endsWith "/" <;> simp

theorem applies?_eq (r : Rule) (specifier : Text) : applies? r specifier = some (r.applies specifier) := by
  rw [applies?, Rule.applies]
  cases r.find with
  | literal u => exact literalMatches?_eq u specifier
  | pattern p => rfl

theorem firstRule_eq (specifier : Text) (rules : List Rule) :
    firstRule specifier rules = some (rules.find? (·.applies specifier)) := by
  induction rules with
  | nil => rfl
  | cons r rules ih =>
      rw [firstRule, applies?_eq, List.find?_cons]
      simp only [Option.bind_eq_bind, Option.bind_some, ih]
      cases r.applies specifier <;> rfl

theorem resolve_eq (s : Alias.Set) (specifier : Text) : resolve s specifier = some (s.resolve? specifier) := by
  rw [resolve, firstRule_eq, Alias.Set.resolve?]
  simp only [Option.bind_eq_bind, Option.bind_some]
  cases s.rules.find? (·.applies specifier) <;> rfl

/-- A rule that is for the specifier can be applied to it. -/
theorem applyTo?_eq {r : Rule} {specifier : Text} (h : r.applies specifier = true) (target : Text) :
    applyTo? r specifier target = some (r.apply specifier target) := by
  rw [applyTo?, Rule.apply]
  rw [Rule.applies] at h
  cases hfind : r.find with
  | literal u =>
      rw [hfind] at h
      dsimp only [Alias.literalMatches] at h
      split at h
      next rest hstrip =>
        obtain rfl := List.isPrefixOf?_eq_some_iff_append_eq.mp hstrip
        simp only [slice_append, Option.bind_eq_bind, Option.bind_some, List.drop_left]
        rfl
      · cases h
  | pattern p => rfl

theorem aliasTarget?_eq {rule : Rule} {specifier : Text} (h : rule.applies specifier = true) (dir : Path) :
    aliasTarget? dir rule specifier = some (aliasTarget dir rule specifier) := by
  rw [aliasTarget?, aliasTarget]
  cases rule.find with
  | literal _ => exact applyTo?_eq h _
  | pattern _ => exact congrArg (Option.map (seenFrom dir)) (applyTo?_eq h _)

/-- A site with its specifier replaced. -/
theorem Spliced.respecify (site : Site) (new : Text)
    (h : Spliced t (offset + site.text.byteSize) u edits out) :
    Spliced t offset (site.text ++ u) (((site.locate offset).specifier, new) :: edits)
      ({ site with specifier := new }.text ++ out) := by
  have hedit := Spliced.between (site.head ++ (site.clause ++ site.link)) site.specifier site.tail new
    (h := by simpa [Site.text] using h)
  simpa [Site.text, Site.locate, Range.at, Nat.add_assoc] using hedit

theorem slice_specifier {site : Site} (h : At t offset (site.text ++ u)) :
    slice? t (site.locate offset).specifier = some site.specifier := by
  have hspecifier : At t (offset + (site.head ++ (site.clause ++ site.link)).byteSize)
      (site.specifier ++ (site.tail ++ u)) := by
    refine At.pass ?_
    simpa [Site.text] using h
  simpa [Site.locate, Range.at, Nat.add_assoc] using hspecifier.slice

theorem aliasEdits_spec (dir : Path) (aliases : Alias.Set) {sites : List (Text × Site)} {rest : Text}
    (h : At t offset (Segments.text ⟨sites, rest⟩)) :
    ∃ edits, aliasEdits t dir aliases ((Segments.located.go offset sites).map .of) = some edits ∧
      Spliced t offset (Segments.text ⟨sites, rest⟩) edits
        (Segments.text ⟨sites.map fun (gap, s) =>
          (gap, { s with specifier := resolveSpecifier dir aliases s.specifier }), rest⟩) := by
  induction sites generalizing offset with
  | nil => exact ⟨[], rfl, spliced_nil t offset rest⟩
  | cons p more ih =>
      obtain ⟨gap, site⟩ := p
      rw [Import.text_cons] at h ⊢
      obtain ⟨edits, hedits, hspliced⟩ := ih h.pass.pass
      have hslice : slice? t (Mark.of (site.locate (offset + gap.byteSize))).specifier = some site.specifier :=
        slice_specifier h.pass
      rw [Segments.located.go, List.map_cons, List.map_cons, Import.text_cons, aliasEdits, hslice]
      simp only [Option.bind_eq_bind, Option.bind_some, resolve_eq, hedits]
      rw [resolveSpecifier]
      cases hrule : aliases.resolve? site.specifier with
      | some rule =>
          simp only [aliasTarget?_eq (Declaration.applies_of_resolve? hrule)]
          exact ⟨_, rfl, (hspliced.respecify site _).pass⟩
      | none => exact ⟨edits, rfl, hspliced.pass.pass⟩

theorem rewriteAliases_eq (file : Path) (aliases : Alias.Set) (t : Text) :
    rewriteAliases file aliases t = some (resolveAliases file aliases t) := by
  obtain ⟨edits, hedits, hspliced⟩ := aliasEdits_spec file.parentDir aliases (at_scan t)
  rw [rewriteAliases]
  split
  next hnil =>
    -- Without rules every specifier stays as it is.
    have hstays : (Import.scan t).mapSites (fun s =>
        { s with specifier := resolveSpecifier file.parentDir aliases s.specifier }) = Import.scan t := by
      simp [Segments.mapSites, resolveSpecifier, Alias.Set.resolve?, List.isEmpty_iff.mp hnil]
    rw [resolveAliases, hstays, Import.text_scan]
    rfl
  next =>
    rw [scanImports_eq]
    simp only [Option.bind_eq_bind, Option.bind_some]
    show (aliasEdits t file.parentDir aliases ((Segments.located.go 0 _).map .of)).bind _ = _
    rw [hedits]
    exact splice_of_spliced hspliced

end Typings.Offset
