import Typings.Declaration.Consolidation
import Typings.Proofs.Import.Clause
import Typings.Proofs.Json.Number

/-!
# `Bindings` — the names that imports bind

An import binds local names, each to an export of its module.  A written clause that takes more bindings
binds what it did before and what is added to it; and the binding that a referenced type needs binds its
local name to it.

* `Bound`, `Site.bound`, `bound`: a local name with what it stands for; those of a site and of a text.
* `mem_namedBound_addBindings`, `exists_extended`: bindings and clauses with more added.
* `Plain`, `namedBound?_binding`: what the binding for a referenced type binds.

Names are compared as they are written, so two exports under one local name are told apart by what
they stand for.
-/

namespace Typings

namespace Declaration

open Import

/-- A local name with the module and the export that it stands for. -/
structure Bound where
  name : Text
  module : Text
  exported : Text
deriving DecidableEq, Repr

/-- What a binding between braces binds: `a` or `a as b`, perhaps after `type`. -/
def namedBound? (module b : Text) : Option Bound :=
  match (bindingKey b).words with
  | [x] => some ⟨x, module, x⟩
  | [x, mid, y] => if mid == "as" then some ⟨y, module, x⟩ else none
  | _ => none

/-- The name in `* as n`. -/
def namespaceName? (clause : Text) : Option Text :=
  match clause.words with
  | [star, mid, n] => if star == "*" && mid == "as" then some n else none
  | _ => none

end Declaration

namespace Import

open Declaration (Bound namedBound? namespaceName? defaultMember)

/-- What the bindings of an import bind. -/
def Bindings.bound (module : Text) (b : Bindings) : List Bound :=
  b.default.toList.map (⟨·, module, defaultMember⟩) ++ (b.named.getD []).filterMap (namedBound? module)

/-- What a site binds; only a static import binds anything. -/
def Site.bound (s : Site) : List Bound :=
  if s.kind == .static && s.keyword == .importing then
    match clauseBindings? s.clause with
    | some b => b.bound s.specifier
    | none => (namespaceName? s.clause).toList.map (⟨·, s.specifier, "*"⟩)
  else []

/-- What the sites of a cut text bind. -/
def Segments.bound (s : Segments) : List Bound := s.sites.flatMap fun (_, site) => site.bound

@[simp] theorem Segments.bound_prepend (t : Text) (s : Segments) : (s.prepend t).bound = s.bound := by
  obtain ⟨sites, rest⟩ := s
  cases sites with
  | nil => rfl
  | cons p sites => rfl

@[simp] theorem Segments.bound_consSite (site : Site) (s : Segments) :
    (s.consSite site).bound = site.bound ++ s.bound := rfl

end Import

namespace Declaration

open Import

/-- What the static imports of a text bind. -/
def bound (content : Text) : List Bound := (scan content).bound

/-! ## Adding bindings -/

theorem mem_addBindings_of_old {old : List Text} (new : List Text) {b : Text} (h : b ∈ old) :
    b ∈ addBindings old new := by
  induction new generalizing old with
  | nil => exact h
  | cons c new ih =>
      rw [addBindings, List.foldl_cons]
      split
      · exact ih h
      · exact ih (List.mem_append_left _ h)

theorem mem_addBindings {old new : List Text} {b : Text} (h : b ∈ addBindings old new) :
    b ∈ old ∨ b ∈ new := by
  induction new generalizing old with
  | nil => exact .inl h
  | cons c new ih =>
      rw [addBindings, List.foldl_cons] at h
      rcases ih h with h | h
      · split at h
        · exact .inl h
        · rcases List.mem_append.mp h with h | h
          · exact .inl h
          · exact .inr (List.mem_singleton.mp h ▸ List.mem_cons_self)
      · exact .inr (List.mem_cons_of_mem _ h)

/-- Each new binding is there, but perhaps as one that differs by its `type` modifier. -/
theorem exists_key_addBindings {old new : List Text} {b : Text} (h : b ∈ new) :
    ∃ c ∈ addBindings old new, bindingKey c = bindingKey b := by
  induction new generalizing old with
  | nil => cases h
  | cons c new ih =>
      rw [addBindings, List.foldl_cons]
      rcases List.mem_cons.mp h with rfl | h
      · split
        · next hany =>
            obtain ⟨c, hc, hkey⟩ := List.any_eq_true.mp hany
            exact ⟨c, mem_addBindings_of_old new hc, beq_iff_eq.mp hkey⟩
        · exact ⟨b, mem_addBindings_of_old new (by simp), rfl⟩
      · exact ih h

/-- Bindings with more added bind what both bind. -/
theorem mem_namedBound_addBindings {module : Text} {old new : List Text} {x : Bound} :
    x ∈ (addBindings old new).filterMap (namedBound? module) ↔
      x ∈ old.filterMap (namedBound? module) ∨ x ∈ new.filterMap (namedBound? module) := by
  simp only [List.mem_filterMap]
  constructor
  · rintro ⟨b, hb, hx⟩
    exact (mem_addBindings hb).imp (⟨b, ·, hx⟩) (⟨b, ·, hx⟩)
  · rintro (⟨b, hb, hx⟩ | ⟨b, hb, hx⟩)
    · exact ⟨b, mem_addBindings_of_old new hb, hx⟩
    · -- One that was left out has its key there already, and what is bound depends on the key only.
      obtain ⟨c, hc, hkey⟩ := @exists_key_addBindings old _ _ hb
      refine ⟨c, hc, ?_⟩
      rw [namedBound?, hkey]
      exact hx

/-! ## Clauses that take more bindings -/

/-- Texts that are written bindings one by one are a list of written bindings. -/
theorem exists_bindings {ts : List Text} (h : ∀ t ∈ ts, ∃ b : Binding, b.Solid ∧ b.text = t) :
    ∃ bs : List Binding, (∀ b ∈ bs, b.Solid) ∧ bs.map Binding.text = ts := by
  induction ts with
  | nil => exact ⟨[], by simp, rfl⟩
  | cons t ts ih =>
      obtain ⟨b, hb, rfl⟩ := h t (by simp)
      obtain ⟨bs, hbs, rfl⟩ := ih fun u hu => h u (by simp [hu])
      exact ⟨b :: bs, List.forall_mem_cons.mpr ⟨hb, hbs⟩, rfl⟩

theorem exists_addBindings {old : List Binding} {new : List Text} (hold : ∀ b ∈ old, b.Solid)
    (hnew : ∀ t ∈ new, ∃ b : Binding, b.Solid ∧ b.text = t) :
    ∃ bs : List Binding, (∀ b ∈ bs, b.Solid) ∧
      bs.map Binding.text = addBindings (old.map Binding.text) new := by
  refine exists_bindings fun t ht => ?_
  rcases mem_addBindings ht with ht | ht
  · obtain ⟨b, hb, rfl⟩ := List.mem_map.mp ht
    exact ⟨b, hold b hb, rfl⟩
  · exact hnew t ht

theorem braces_eq_braced {bs : List Binding} {ts : List Text} (h : bs.map Binding.text = ts) :
    braces bs = braced ts := by
  subst h
  rfl

/-- **A written clause that takes more bindings** is a written clause. -/
theorem exists_extended {c : ImportClause} (h : c.Solid) {b : Bindings} (hb : c.bindings? = some b)
    {new : List Text} (hnew : ∀ t ∈ new, ∃ b : Binding, b.Solid ∧ b.text = t) :
    ∃ c' : ImportClause, c'.Solid ∧ c'.text = extendClause b new ∧
      c'.bindings? = some { b with named := some (addBindings (b.named.getD []) new) } := by
  cases c with
  | default n =>
      cases hb
      obtain ⟨bs, hbs, htexts⟩ := @exists_addBindings [] _ (by simp) hnew
      refine ⟨.both n bs, ⟨h, hbs⟩, ?_, ?_⟩
      · rw [ImportClause.text_both, braces_eq_braced htexts]
        rfl
      · rw [ImportClause.bindings?, htexts]
        rfl
  | all n => cases hb
  | named old =>
      cases hb
      obtain ⟨bs, hbs, htexts⟩ := exists_addBindings h hnew
      refine ⟨.named bs, hbs, ?_, ?_⟩
      · exact braces_eq_braced htexts
      · rw [ImportClause.bindings?, htexts]
        rfl
  | both n old =>
      cases hb
      obtain ⟨bs, hbs, htexts⟩ := exists_addBindings h.2 hnew
      refine ⟨.both n bs, ⟨h.1, hbs⟩, ?_, ?_⟩
      · rw [ImportClause.text_both, braces_eq_braced htexts]
        rfl
      · rw [ImportClause.bindings?, htexts]
        rfl

/-- What an import binds that has bindings. -/
theorem bound_of_bindings? {site : Site} {b : Bindings} (h : site.bindings? = some b) :
    site.bound = b.bound site.specifier := by
  rw [Site.bindings?] at h
  rw [Site.bound]
  split at h
  · next hstatic => rw [if_pos hstatic, h]
  · cases h

theorem mem_bound_addBindings {module : Text} {b : Bindings} {new : List Text} {x : Bound} :
    x ∈ Bindings.bound module { b with named := some (addBindings (b.named.getD []) new) } ↔
      x ∈ b.bound module ∨ x ∈ new.filterMap (namedBound? module) := by
  rw [Bindings.bound, Bindings.bound, Option.getD_some, List.mem_append, List.mem_append,
    mem_namedBound_addBindings, or_assoc]

/-! ## Referenced types -/

/-- What the local name of a referenced type stands for. -/
def referenceBound (refs : List Reference) (r : Reference) : Bound :=
  ⟨localName refs r.module r.name, r.module, r.name⟩

/-- The type has a name that can be bound, and its module can stand between single quotes. -/
structure Plain (r : Reference) : Prop where
  name : ∃ n : Name, n.Solid ∧ n.text = r.name
  module : ∀ c ∈ r.module, Quote.single.admits c

/-- The name that is made up for the default export of a module. -/
def madeUpText (rank : Nat) : Text := "__DTS_" ++ Text.ofNat rank ++ "__"

theorem mem_madeUpText {rank : Nat} {c : Char} (h : c ∈ madeUpText rank) :
    isIdent c = true ∧ Text.isBlank c = false := by
  have hfixed {t : Text} (ht : ∀ d ∈ t, isIdent d = true ∧ Text.isBlank d = false) (hc : c ∈ t) :
      isIdent c = true ∧ Text.isBlank c = false := ht c hc
  rcases List.mem_append.mp h with h | h
  rcases List.mem_append.mp h with h | h
  · exact hfixed (by decide) h
  · have hdigit : c.isDigit = true := (Json.digits_ofNat rank).2 c h
    refine ⟨?_, ?_⟩
    · simp [isIdent, Char.isAlphanum, hdigit]
    · have hlow : 48 ≤ c.toNat ∧ c.toNat ≤ 57 := by
        simpa [Char.isDigit, UInt32.le_iff_toNat_le] using hdigit
      simp [Text.isBlank]
      omega
  · exact hfixed (by decide) h

theorem madeUpText_ne {t : Text} (h : t.head? ≠ some '_') (rank : Nat) : madeUpText rank ≠ t := by
  rintro rfl
  exact h rfl

/-- A made-up name, as a name that can be bound. -/
def madeUpName (rank : Nat) : Name where
  text := madeUpText rank
  nonempty := List.cons_ne_nil _ _
  ident _ hc := (mem_madeUpText hc).1
  not_import := madeUpText_ne (by decide) rank
  not_export := madeUpText_ne (by decide) rank
  not_from := madeUpText_ne (by decide) rank
  not_type := madeUpText_ne (by decide) rank

/-- The word `default`, as the name of an export. -/
def defaultName : Name :=
  ⟨⟨defaultMember, by decide, List.all_eq_true.mp (by decide), by decide, by decide⟩, by decide, by decide⟩

/-- A local name is a word. -/
theorem exists_localName (refs : List Reference) (module : Text) {n : Name} (hn : n.Solid) :
    ∃ w : Word, w.Solid ∧ w.text = localName refs module n.text := by
  rw [localName]
  split
  · exact ⟨(madeUpName _).toWord, fun _ hc => (mem_madeUpText hc).2, rfl⟩
  · exact ⟨n.toWord, hn, rfl⟩

/-- A name has no blank in it, so it does not start with the modifier `type`. -/
theorem bindingKey_name (n : Name) : bindingKey n.text = n.text := by
  have hnone : List.isPrefixOf? "type " n.text = none := by
    rw [Option.eq_none_iff_forall_ne_some]
    intro rest hrest
    have hblank : ' ' ∈ n.text := by
      rw [← List.isPrefixOf?_eq_some_iff_append_eq.mp hrest]
      simp
    exact n.not_mem_text (by decide) hblank
  rw [bindingKey, hnone]
  rfl

section

variable {r : Reference} (h : Plain r) (refs : List Reference)

include h

/-- The binding is one that can be written. -/
theorem exists_binding : ∃ b : Binding, b.Solid ∧ b.text = binding refs r := by
  obtain ⟨n, hn, hname⟩ := h.name
  rw [binding, localName]
  split
  · have hdefault : defaultName.Solid := by
      unfold Word.Solid
      decide
    refine ⟨⟨false, defaultName, some (madeUpName _)⟩, ⟨hdefault, ?_⟩, rfl⟩
    rintro _ ⟨⟩ _ hc
    exact (mem_madeUpText hc).2
  · refine ⟨⟨false, n, none⟩, ⟨hn, by simp⟩, ?_⟩
    rw [Binding.text_kept, modifier, ← hname]
    simp

/-- The binding for a referenced type has no modifier. -/
theorem bindingKey_binding : bindingKey (binding refs r) = binding refs r := by
  obtain ⟨n, -, hname⟩ := h.name
  rw [binding]
  split
  · rfl
  · rw [← hname, bindingKey_name]

/-- **The binding binds the local name** to the type. -/
theorem namedBound?_binding : namedBound? r.module (binding refs r) = some (referenceBound refs r) := by
  have hkey := bindingKey_binding h refs
  obtain ⟨n, hn, hname⟩ := h.name
  obtain ⟨w, hw, hlocal⟩ := exists_localName refs r.module hn
  rw [hname] at hlocal
  rw [namedBound?, hkey, binding, referenceBound]
  by_cases hd : (r.name == defaultMember) = true
  · have hwords : Text.words ("default as " ++ w.text) = [defaultMember, "as", w.text] := by
      have hsolid : ∀ v ∈ [defaultMember, "as", w.text], v ≠ [] ∧ ∀ c ∈ v, Text.isBlank c = false := by
        simp only [List.forall_mem_cons, List.not_mem_nil, false_imp_iff, implies_true, and_true]
        exact ⟨⟨by decide, by decide⟩, ⟨by decide, by decide⟩, w.nonempty, hw⟩
      have hall := Text.words_intercalate hsolid (t := []) (by simp)
      rw [List.append_nil, List.intercalate_cons_cons, List.intercalate_cons_cons,
        List.intercalate_singleton] at hall
      exact hall
    rw [if_pos hd, ← hlocal, hwords, beq_iff_eq.mp hd]
    rfl
  · have hwords : Text.words n.text = [n.text] := by
      have hone := Text.words_append n.nonempty hn (t := []) (by simp)
      rwa [List.append_nil] at hone
    rw [if_neg hd, ← hname, hwords, localName, if_neg (hname ▸ hd)]

end

end Declaration

end Typings
