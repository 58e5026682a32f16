import Typings.Proofs.Declaration.Consolidation
import Typings.Proofs.Declaration.Redirection

/-!
# `Merging` — which imports take the bindings, and what becomes of the others

The bindings for a module go to the first import that accepts them.  Over the sites of a text this is a
replacement at one place, and replacements for different modules do not get in each other's way, since
an import accepts bindings for its own module only.

* `missing`, `addBindings_eq`: the bindings that are added behind the old ones.
* `accepts`, `extendFirst`, `extendAll`: the first import of a module extended, and so for each module.
* `getElem?_extendAll_of_first`, `getElem?_extendAll_of_other`: the sites after that, one by one.
* `MergesTo`, `exists_mergedAll`: bringing bindings into a text does this to its sites, keeps its start
  and the types that it names, and makes a new import for each module that no import accepts.
-/

namespace Typings.Declaration

open Import

/-! ## Missing bindings -/

/-- The new bindings that are not among the old ones, modifiers aside. -/
def missing (old new : List Text) : List Text :=
  new.filter fun b => !old.any (bindingKey · == bindingKey b)

/-- Different bindings are added behind the old ones, as far as they are missing. -/
theorem addBindings_eq {old new : List Text} (h : (new.map bindingKey).Nodup) :
    addBindings old new = old ++ missing old new := by
  induction new generalizing old with
  | nil => exact (List.append_nil _).symm
  | cons b new ih =>
      rw [List.map_cons, List.nodup_cons] at h
      obtain ⟨hfirst, hrest⟩ := h
      by_cases hany : old.any (bindingKey · == bindingKey b) = true
      · rw [addBindings, List.foldl_cons, if_pos hany, ← addBindings, ih hrest, missing, missing,
          List.filter_cons_of_neg (by simp [hany])]
      · -- The bindings behind the first one are not among the old ones because of it.
        have hsame : missing (old ++ [b]) new = missing old new := by
          refine List.filter_congr fun c hc => ?_
          have hne : bindingKey b ≠ bindingKey c := fun he => hfirst (he ▸ List.mem_map_of_mem hc)
          simp [hne]
        rw [addBindings, List.foldl_cons, if_neg hany, ← addBindings, ih hrest, hsame, List.append_assoc,
          missing, missing, List.filter_cons_of_pos (by simp [hany])]
        rfl

theorem nodup_firstSeenFrom {α : Type} [BEq α] [LawfulBEq α] (xs : List α) {acc : List α} (h : acc.Nodup) :
    (xs.foldl (fun acc x => if acc.contains x then acc else acc ++ [x]) acc).Nodup := by
  induction xs generalizing acc with
  | nil => exact h
  | cons x xs ih =>
      rw [List.foldl_cons]
      split
      · exact ih h
      · next hx =>
          have hx : x ∉ acc := fun hm => hx (List.contains_iff_mem.mpr hm)
          exact ih (List.nodup_append.mpr ⟨h, by simp, by rintro a ha _ (_ | ⟨_, ⟨⟩⟩) rfl; exact hx ha⟩)

theorem nodup_firstSeen {α : Type} [BEq α] [LawfulBEq α] (xs : List α) : (firstSeen xs).Nodup :=
  nodup_firstSeenFrom xs List.nodup_nil

/-- The bindings needed of a module are told apart without their modifiers: they have none. -/
theorem nodup_neededBindings {refs : List Reference} (hplain : ∀ r ∈ refs, Plain r) (module : Text) :
    ((neededBindings refs module).map bindingKey).Nodup := by
  have hkey : ∀ b ∈ neededBindings refs module, bindingKey b = b := by
    intro b hb
    obtain ⟨r, hr, -, rfl⟩ := mem_neededBindings.mp hb
    exact bindingKey_binding (hplain r hr) refs
  rw [List.map_congr_left hkey, List.map_id']
  exact nodup_firstSeen _

/-! ## The first import that accepts bindings -/

/-- The site is an import that can take bindings of the module. -/
def accepts (module : Text) (s : Site) : Bool := (suitable? module s).isSome

/-- An import with more bindings. -/
def extendSite (new : List Text) (s : Site) : Site :=
  match s.bindings? with
  | some b => { s with clause := extendClause b new }
  | none => s

/-- The sites with the first one extended that accepts the bindings. -/
def extendFirst (module : Text) (new : List Text) : List Site → List Site
  | [] => []
  | s :: more => if accepts module s then extendSite new s :: more else s :: extendFirst module new more

section

variable {module other : Text} {new : List Text} {s : Site}

theorem accepts_eq_false_of_ne (h : s.specifier ≠ module) : accepts module s = false := by
  rw [accepts, Option.isSome_eq_false_iff, Option.isNone_iff_eq_none, Option.eq_none_iff_forall_ne_some]
  intro b hb
  exact h (suitable?_eq_some hb).2.2.1

theorem specifier_of_accepts (h : accepts module s = true) : s.specifier = module := by
  by_contra hne
  rw [accepts_eq_false_of_ne hne] at h
  cases h

theorem specifier_extendSite : (extendSite new s).specifier = s.specifier := by
  rw [extendSite]
  split <;> rfl

theorem extendSite_of_suitable? {b : Bindings} (h : suitable? module s = some b) :
    extendSite new s = { s with clause := extendClause b new } := by
  rw [extendSite, (suitable?_eq_some h).2.2.2]

/-- An import that is extended accepted bindings of its own module only, and still does. -/
theorem accepts_extendSite (h : accepts module s = true) (hne : other ≠ module) :
    accepts other (extendSite new s) = accepts other s := by
  have hs : s.specifier ≠ other := fun he => hne (he.symm.trans (specifier_of_accepts h))
  rw [accepts_eq_false_of_ne hs, accepts_eq_false_of_ne (specifier_extendSite.trans_ne hs)]

/-- Only the first import that accepts the bindings becomes another. -/
theorem getElem?_extendFirst (sites : List Site) (i : Nat) :
    (extendFirst module new sites)[i]?
      = if sites.findIdx? (accepts module) = some i then sites[i]?.map (extendSite new) else sites[i]? := by
  induction sites generalizing i with
  | nil => rfl
  | cons s more ih =>
      rw [extendFirst, List.findIdx?_cons]
      split
      · cases i <;> simp
      · cases i with
        | zero => simp
        | succ i =>
            rw [List.getElem?_cons_succ, List.getElem?_cons_succ, ih]
            simp

theorem map_accepts_extendFirst (hne : other ≠ module) (sites : List Site) :
    (extendFirst module new sites).map (accepts other) = sites.map (accepts other) := by
  induction sites with
  | nil => rfl
  | cons s more ih =>
      rw [extendFirst]
      split
      · next haccepts => rw [List.map_cons, List.map_cons, accepts_extendSite haccepts hne]
      · rw [List.map_cons, List.map_cons, ih]

/-- Other modules find their imports where they were. -/
theorem findIdx?_extendFirst (hne : other ≠ module) (sites : List Site) :
    (extendFirst module new sites).findIdx? (accepts other) = sites.findIdx? (accepts other) := by
  have hmap (l : List Site) : l.findIdx? (accepts other) = (l.map (accepts other)).findIdx? id := by
    rw [List.findIdx?_map]
    rfl
  rw [hmap, map_accepts_extendFirst hne, ← hmap]

theorem any_extendFirst (hne : other ≠ module) (sites : List Site) :
    (extendFirst module new sites).any (accepts other) = sites.any (accepts other) := by
  have hmap (l : List Site) : l.any (accepts other) = (l.map (accepts other)).any id := by
    rw [List.any_map]
    rfl
  rw [hmap, map_accepts_extendFirst hne, ← hmap]

theorem exists_of_findIdx? {sites : List Site} {i : Nat}
    (h : sites.findIdx? (accepts module) = some i) : ∃ s, sites[i]? = some s ∧ accepts module s = true := by
  obtain ⟨hi, haccepts, -⟩ := List.findIdx?_eq_some_iff_getElem.mp h
  exact ⟨sites[i], List.getElem?_eq_getElem hi, haccepts⟩

/-- Different modules have different imports. -/
theorem findIdx?_ne (hne : other ≠ module) {sites : List Site} {i : Nat}
    (h : sites.findIdx? (accepts module) = some i) : sites.findIdx? (accepts other) ≠ some i := by
  intro hother
  obtain ⟨s, hs, haccepts⟩ := exists_of_findIdx? h
  obtain ⟨s', hs', haccepts'⟩ := exists_of_findIdx? hother
  obtain rfl : s = s' := Option.some.inj (hs.symm.trans hs')
  exact hne ((specifier_of_accepts haccepts').symm.trans (specifier_of_accepts haccepts))

end

/-! ## Several modules -/

section

variable {needed : Text → List Text}

/-- The sites with the first import of each module extended that accepts what is needed of it. -/
def extendAll (needed : Text → List Text) (modules : List Text) (sites : List Site) : List Site :=
  modules.foldl (fun sites module => extendFirst module (needed module) sites) sites

theorem extendAll_cons (module : Text) (modules : List Text) (sites : List Site) :
    extendAll needed (module :: modules) sites
      = extendAll needed modules (extendFirst module (needed module) sites) := rfl

/-- A site that is not the first to accept bindings of one of the modules stays as it is. -/
theorem getElem?_extendAll_of_other {modules : List Text} (hnodup : modules.Nodup) {sites : List Site} {i : Nat}
    (h : ∀ m ∈ modules, sites.findIdx? (accepts m) ≠ some i) :
    (extendAll needed modules sites)[i]? = sites[i]? := by
  induction modules generalizing sites with
  | nil => rfl
  | cons m modules ih =>
      obtain ⟨hm, hnodup⟩ := List.nodup_cons.mp hnodup
      rw [extendAll_cons, ih hnodup, getElem?_extendFirst, if_neg (h m (by simp))]
      intro m' hm'
      rw [findIdx?_extendFirst (ne_of_mem_of_not_mem hm' hm)]
      exact h m' (by simp [hm'])

/-- The first import that accepts bindings of one of the modules takes those that are needed of it. -/
theorem getElem?_extendAll_of_first {modules : List Text} (hnodup : modules.Nodup) {sites : List Site} {i : Nat}
    {module : Text} (hmem : module ∈ modules) (h : sites.findIdx? (accepts module) = some i) :
    (extendAll needed modules sites)[i]? = sites[i]?.map (extendSite (needed module)) := by
  induction modules generalizing sites with
  | nil => cases hmem
  | cons m modules ih =>
      obtain ⟨hm, hrest⟩ := List.nodup_cons.mp hnodup
      rw [extendAll_cons]
      rcases List.mem_cons.mp hmem with rfl | hmem
      · -- The others are for other modules, which have other imports.
        rw [getElem?_extendAll_of_other hrest, getElem?_extendFirst, if_pos h]
        intro m' hm'
        have hne : m' ≠ module := ne_of_mem_of_not_mem hm' hm
        rw [findIdx?_extendFirst hne]
        exact findIdx?_ne hne h
      · have hne : module ≠ m := ne_of_mem_of_not_mem hmem hm
        rw [ih hrest hmem (by rw [findIdx?_extendFirst hne, h]), getElem?_extendFirst,
          if_neg (findIdx?_ne hne.symm h)]

end

/-! ## Cut texts -/

/-- The text up to the clause of the first site: no import in the text that takes bindings changes it. -/
def opening (s : Segments) : Text :=
  match s.sites with
  | [] => s.rest
  | (gap, site) :: _ => gap ++ site.head

theorem opening_prepend (t : Text) (s : Segments) : opening (s.prepend t) = t ++ opening s := by
  obtain ⟨sites, rest⟩ := s
  cases sites with
  | nil => rfl
  | cons p sites => exact List.append_assoc _ _ _

theorem opening_prefix (s : Segments) : opening s <+: s.text := by
  obtain ⟨sites, rest⟩ := s
  cases sites with
  | nil => exact List.prefix_refl _
  | cons p sites =>
      refine ⟨p.2.clause ++ p.2.link ++ p.2.specifier ++ p.2.tail ++ Segments.text ⟨sites, rest⟩, ?_⟩
      simp [opening, Segments.text, Site.text]

theorem text_of_all_nil {s : Segments} (h : s.all = []) : s.text = opening s := by
  obtain ⟨sites, rest⟩ := s
  obtain rfl : sites = [] := List.map_eq_nil_iff.mp h
  rfl

theorem all_foldr (ps : List Part) (s : Segments) :
    (ps.foldr Part.onto s).all = ps.filterMap Part.site? ++ s.all := by
  induction ps with
  | nil => rfl
  | cons p ps ih =>
      rw [List.foldr_cons]
      cases h : p.site? with
      | none => rw [Part.onto_of_none h, Segments.all_prepend, ih, List.filterMap_cons_none h]
      | some site =>
          rw [Part.onto_of_some h, Segments.all_consSite, Segments.all_prepend, ih, List.filterMap_cons_some h]
          rfl

/-- The sites of parts. -/
theorem all_segmentsOf (ps : List Part) : (segmentsOf ps).all = ps.filterMap Part.site? :=
  (all_foldr ps ⟨[], []⟩).trans (List.append_nil _)

/-- What merging bindings does to a cut text: the first import of each module is extended, and the start
    of the text and the types that it names stay. -/
structure MergesTo (needed : Text → List Text) (modules : List Text) (s s' : Segments) : Prop where
  all : s'.all = extendAll needed modules s.all
  opening : opening s' = opening s
  named : named s' = named s

section

variable {module : Text} {new : List Text}

/-- Bindings are merged into a text unless no import accepts them. -/
theorem merged?_eq_none {s : Segments} (h : merged? module new s = none) :
    s.all.any (accepts module) = false := by
  obtain ⟨sites, rest⟩ := s
  have hnone : mergeSites? module new sites = none := Option.map_eq_none_iff.mp h
  clear h
  rw [Segments.all]
  induction sites with
  | nil => rfl
  | cons p more ih =>
      rw [mergeSites?] at hnone
      split at hnone
      · cases hnone
      · next hsuitable =>
          rw [List.map_cons, List.any_cons, ih (Option.map_eq_none_iff.mp hnone), accepts, hsuitable]
          rfl

theorem naming?_of_suitable? {site : Site} {b : Bindings} (h : suitable? module site = some b)
    (clause after : Text) : naming? { site with clause := clause } after = none := by
  rw [naming?, (suitable?_eq_some h).1]
  rfl

/-- What merging does site by site. -/
theorem mergeSites?_eq_some {sites sites' : List (Text × Site)} (h : mergeSites? module new sites = some sites')
    (rest : Text) :
    sites'.map Prod.snd = extendFirst module new (sites.map Prod.snd) ∧
      (sites.map Prod.snd).any (accepts module) = true ∧
      opening ⟨sites', rest⟩ = opening ⟨sites, rest⟩ ∧ afterSite sites' rest = afterSite sites rest ∧
      namedFrom sites' rest = namedFrom sites rest := by
  induction sites generalizing sites' with
  | nil => cases h
  | cons p more ih =>
      obtain ⟨gap, site⟩ := p
      rw [mergeSites?] at h
      cases hsuitable : suitable? module site with
      | some b =>
          rw [hsuitable] at h
          cases h
          have haccepts : accepts module site = true := by rw [accepts, hsuitable]; rfl
          have hnaming := naming?_of_suitable? hsuitable
          refine ⟨?_, ?_, rfl, rfl, ?_⟩
          · rw [List.map_cons, List.map_cons, extendFirst, if_pos haccepts, extendSite_of_suitable? hsuitable]
          · rw [List.map_cons, List.any_cons, haccepts, Bool.true_or]
          · rw [namedFrom, namedFrom, hnaming, hnaming site.clause]
      | none =>
          rw [hsuitable] at h
          obtain ⟨more', hmore, rfl⟩ := Option.map_eq_some_iff.mp h
          obtain ⟨hall, hany, -, hafter, hnamed⟩ := ih hmore
          have haccepts : accepts module site = false := by rw [accepts, hsuitable]; rfl
          refine ⟨?_, ?_, rfl, rfl, ?_⟩
          · rw [List.map_cons, List.map_cons, extendFirst, if_neg (by simp [haccepts]), hall]
          · rw [List.map_cons, List.any_cons, hany, Bool.or_true]
          · rw [namedFrom, namedFrom, hafter, hnamed]

theorem mergesTo_of_merged? {needed : Text → List Text} {s s' : Segments}
    (h : merged? module (needed module) s = some s') :
    MergesTo needed [module] s s' ∧ s.all.any (accepts module) = true := by
  obtain ⟨sites', hsites, rfl⟩ := Option.map_eq_some_iff.mp h
  obtain ⟨hall, hany, hopening, -, hnamed⟩ := mergeSites?_eq_some hsites s.rest
  exact ⟨⟨hall, hopening, by rw [named_eq, named_eq]; exact hnamed⟩, hany⟩

theorem extendFirst_of_any {sites : List Site} (h : sites.any (accepts module) = false) :
    extendFirst module new sites = sites := by
  induction sites with
  | nil => rfl
  | cons s more ih =>
      rw [List.any_cons, Bool.or_eq_false_iff] at h
      rw [extendFirst, if_neg (by simp [h.1]), ih h.2]

/-- Nothing happens for a module that no import accepts. -/
theorem mergesTo_self {needed : Text → List Text} {s : Segments} (h : s.all.any (accepts module) = false) :
    MergesTo needed [module] s s :=
  ⟨(extendFirst_of_any h).symm, rfl, rfl⟩

theorem MergesTo.trans {needed : Text → List Text} {ms : List Text} {s₁ s₂ s₃ : Segments}
    (h₁ : MergesTo needed [module] s₁ s₂) (h₂ : MergesTo needed ms s₂ s₃) :
    MergesTo needed (module :: ms) s₁ s₃ where
  all := h₂.all.trans (congrArg (extendAll needed ms) h₁.all)
  opening := h₂.opening.trans h₁.opening
  named := h₂.named.trans h₁.named

end

/-! ## Texts of parts -/

/-- The modules, in order, that no import of the sites accepts bindings of. -/
def unaccepted (modules : List Text) (sites : List Site) : List Text :=
  modules.filter fun m => !sites.any (accepts m)

section

variable {refs : List Reference} (hplain : ∀ r ∈ refs, Plain r)

include hplain

/-- **The bindings of one module** are merged into the text, or come in by a new import. -/
theorem exists_mergedOne (module : Text) (ps : List Part) (hoisted : Text) :
    ∃ ps' : List Part, bringIn refs (textOf ps, hoisted) module
        = (textOf ps', hoisted ++ (unaccepted [module] (segmentsOf ps).all).flatMap
            fun m => importLine m (neededBindings refs m)) ∧
      MergesTo (neededBindings refs) [module] (segmentsOf ps) (segmentsOf ps') := by
  have hnew := written_neededBindings hplain module
  have hmerge := @mergeImport?_eq module (neededBindings refs module) (textOf ps)
  rw [scan_textOf] at hmerge
  cases hs : merged? module (neededBindings refs module) (segmentsOf ps) with
  | some s =>
      obtain ⟨ps', rfl, -⟩ := exists_merged hnew hs
      obtain ⟨hmerges, hany⟩ := mergesTo_of_merged? hs
      refine ⟨ps', ?_, hmerges⟩
      rw [bringIn, hmerge, hs, unaccepted, List.filter_cons_of_neg (by simp [hany])]
      simp [text_segmentsOf]
  | none =>
      have hany := merged?_eq_none hs
      refine ⟨ps, ?_, mergesTo_self hany⟩
      rw [bringIn, hmerge, hs, unaccepted, List.filter_cons_of_pos (by simp [hany])]
      simp

/-- **The bindings of several modules**, one after the other. -/
theorem exists_mergedAll {modules : List Text} (hnodup : modules.Nodup) (ps : List Part) (hoisted : Text) :
    ∃ ps' : List Part, modules.foldl (bringIn refs) (textOf ps, hoisted)
        = (textOf ps', hoisted ++ (unaccepted modules (segmentsOf ps).all).flatMap
            fun m => importLine m (neededBindings refs m)) ∧
      MergesTo (neededBindings refs) modules (segmentsOf ps) (segmentsOf ps') := by
  induction modules generalizing ps hoisted with
  | nil => exact ⟨ps, by rw [unaccepted, List.filter_nil, List.flatMap_nil, List.append_nil]; rfl, rfl, rfl, rfl⟩
  | cons m modules ih =>
      obtain ⟨hm, hnodup⟩ := List.nodup_cons.mp hnodup
      obtain ⟨ps₁, hone, hmerges₁⟩ := exists_mergedOne hplain m ps hoisted
      obtain ⟨ps₂, hall, hmerges₂⟩ := ih hnodup ps₁ _
      refine ⟨ps₂, ?_, hmerges₁.trans hmerges₂⟩
      -- A module behind the first finds its imports as they were.
      have hsame : unaccepted modules (segmentsOf ps₁).all = unaccepted modules (segmentsOf ps).all := by
        refine List.filter_congr fun m' hm' => ?_
        have hany := @any_extendFirst m m' (neededBindings refs m) (ne_of_mem_of_not_mem hm' hm)
          (segmentsOf ps).all
        rw [hmerges₁.all]
        exact congrArg (!·) hany
      have hcons : unaccepted (m :: modules) (segmentsOf ps).all
          = unaccepted [m] (segmentsOf ps).all ++ unaccepted modules (segmentsOf ps).all := by
        rw [unaccepted, unaccepted, unaccepted, ← List.filter_append]
        rfl
      rw [List.foldl_cons, hone, hall, hsame, hcons, List.flatMap_append, List.append_assoc]

end

end Typings.Declaration
