import Mathlib.Data.List.Find
import Mathlib.Data.List.Induction
import Mathlib.Data.List.Nodup
import Typings.Proofs.Outcome
import Typings.Proofs.Path.Components
import Typings.Resolver
import Typings.ScriptName
import Typings.Session

/-!
# `Resolver` — which resolver a source goes to

The name of a script is read off its text and the name of a resolver's source off its components, but
they agree on extensions: none of the resolvers that are always there is for a script.

A resolver that is registered under a known name takes the place of the one before it.  So the order in
which names are asked comes from the first registrations, and what is asked under a name from the last
one.

* `exists_fileName?_of_isScript`, `extension?_of_isScript`: the name of a script and its extension.
* `dispatch?_builtIns`: no built-in resolver takes a script.
* `program_of_builtIn`: what a built-in resolver does to the program.
* `Registry.held?`, `Registry.lastNamed?`: what a registry holds under a name, and what was registered last
  under it.
* `Registry.find?_place`, `Registry.names_place`: what putting a resolver in its place does to both.
* `Registry.held?_ofResolvers`, `Registry.names_ofResolvers`: both after any row of registrations.
* `Registry.dispatch?_eq`: dispatching asks the held resolvers in the order of their names.
* `Registry.ofResolvers_exact`: a registry is determined by its history, and so is its dispatch.
-/

namespace Typings

open ScriptName (typeScriptExtensions javaScriptExtensions isScript lastSegment)

theorem ScriptName.slash_not_mem_lastSegment (t : Text) : '/' ∉ lastSegment t := by
  intro h
  have hc := List.mem_takeWhile_imp (List.mem_reverse.mp h)
  exact absurd hc (by decide)

theorem ScriptName.lastSegment_suffix (t : Text) : lastSegment t <:+ t := by
  have h := List.takeWhile_prefix (l := t.reverse) fun c => !(c == '/' || c == '\\')
  rw [← List.reverse_suffix, List.reverse_reverse] at h
  exact h

/-- The last piece of a text ends as its last segment does. -/
theorem exists_last_piece (t : Text) : ∃ piece, '/' ∉ piece ∧ lastSegment t <:+ piece ∧
    (t = piece ∨ ∃ front, t = front ++ '/' :: piece) := by
  have hsuffix := ScriptName.lastSegment_suffix t
  by_cases hmem : '/' ∈ t
  · obtain ⟨piece, front, hrev, hp⟩ := List.eq_append_cons_of_mem (List.mem_reverse.mpr hmem)
    have ht : t = front.reverse ++ '/' :: piece.reverse := by
      rw [← List.reverse_reverse t, hrev]
      simp
    refine ⟨piece.reverse, fun h => hp (List.mem_reverse.mp h), ?_, .inr ⟨front.reverse, ht⟩⟩
    have hcons : '/' :: piece.reverse <:+ t := ⟨front.reverse, ht.symm⟩
    -- A longer segment would have a slash in it.
    rcases List.suffix_or_suffix_of_suffix hsuffix hcons with h | h
    · rcases List.suffix_cons_iff.mp h with h | h
      · have hslash := ScriptName.slash_not_mem_lastSegment t
        rw [h] at hslash
        exact absurd List.mem_cons_self hslash
      · exact h
    · exact absurd (h.subset List.mem_cons_self) (ScriptName.slash_not_mem_lastSegment t)
  · exact ⟨t, hmem, hsuffix, .inl rfl⟩

/-- A name with something behind a dot is no dot segment. -/
theorem validName_of_dot {stem ext : Text} (he : ext ≠ []) (hd : '.' ∉ ext)
    (hs : '/' ∉ stem ++ '.' :: ext) : Path.ValidName (stem ++ '.' :: ext) := by
  refine ⟨by simp, ?_, ?_, hs⟩
  · intro h
    cases stem with
    | nil => exact he (List.cons.inj h).2
    | cons c stem => exact absurd (List.cons.inj h).2 (by simp)
  · intro h
    cases stem with
    | nil => exact hd (by rw [(List.cons.inj h).2]; exact List.mem_cons_self)
    | cons c stem =>
        cases stem with
        | nil => exact he (List.cons.inj (List.cons.inj h).2).2
        | cons d stem => exact absurd (List.cons.inj (List.cons.inj h).2).2 (by simp)

/-- A script is a file whose name ends in one of the listed extensions. -/
theorem exists_fileName?_of_isScript {p : Path} (h : isScript p.text = true) :
    ∃ stem ext, ext ∈ typeScriptExtensions ++ javaScriptExtensions ∧ '.' ∉ ext ∧
      p.fileName? = some (stem ++ '.' :: ext) := by
  obtain ⟨ext, hext, hlisted⟩ : ∃ ext, ScriptName.extension? p.text = some ext ∧
      ext ∈ typeScriptExtensions ++ javaScriptExtensions := by
    rw [isScript, Bool.or_eq_true, ScriptName.isTypeScript, ScriptName.isJavaScript,
      ScriptName.hasExtension, ScriptName.hasExtension] at h
    cases hx : ScriptName.extension? p.text with
    | none => simp [hx] at h
    | some ext => exact ⟨ext, rfl, by simpa [hx] using h⟩
  obtain ⟨⟨stem, ext⟩, hcut, rfl⟩ := Option.map_eq_some_iff.mp hext
  obtain ⟨hseg, hdot⟩ := Text.cutLast?_eq_some_iff.mp hcut
  obtain ⟨piece, hslash, ⟨more, hmore⟩, ht⟩ := exists_last_piece p.text
  rw [hseg, ← List.append_assoc] at hmore
  have hne : ext ≠ [] := by
    intro hnil
    have hmem : [] ∈ typeScriptExtensions ++ javaScriptExtensions := hnil ▸ hlisted
    exact absurd hmem (by decide)
  have hname : Path.ValidName piece := by
    rw [← hmore] at hslash ⊢
    exact validName_of_dot hne hdot hslash
  exact ⟨more ++ stem, ext, hlisted, hdot, hmore ▸ Path.fileName?_of_last hname ht⟩

/-- The extension of a script is one of those listed. -/
theorem extension?_of_isScript {p : Path} (h : isScript p.text = true) {ext : Text}
    (he : p.extension? = some ext) : ext ∈ typeScriptExtensions ++ javaScriptExtensions := by
  obtain ⟨stem, ext', hlisted, hdot, hname⟩ := exists_fileName?_of_isScript h
  have hcut : Text.cutLast? '.' (stem ++ '.' :: ext') = some (stem, ext') :=
    Text.cutLast?_eq_some_iff.mpr ⟨rfl, hdot⟩
  rw [Path.extension?, hname, Option.bind_some, hcut] at he
  cases hstem : stem.isEmpty with
  | true => simp [hstem] at he
  | false =>
      have hsame : ext' = ext := by simpa [hstem] using he
      exact hsame ▸ hlisted

/-- **No built-in resolver is for a script.** -/
theorem dispatch?_builtIns {σ π : Type} {p : Path} (h : isScript p.text = true) :
    (Registry.withBuiltIns [] : Registry σ π).dispatch? p = none := by
  have hother (ext : Text) (hext : ext ∉ typeScriptExtensions ++ javaScriptExtensions) :
      hasExtension ext p = false := by
    rw [hasExtension, beq_eq_false_iff_ne]
    exact fun he => hext (extension?_of_isScript h he)
  have hresolvers : (Registry.withBuiltIns [] : Registry σ π).resolvers = builtInResolvers := rfl
  rw [Registry.dispatch?, hresolvers, List.find?_eq_none]
  intro r hr
  rw [Bool.not_eq_true]
  simp only [builtInResolvers, List.mem_cons, List.not_mem_nil, or_false] at hr
  rcases hr with rfl | rfl | rfl
  · exact hother _ (by decide)
  · exact hother _ (by decide)
  · exact hother _ (by decide)

/-- A built-in resolver leaves the program alone, or asks it for the declarations of one source. -/
theorem program_of_builtIn {σ π : Type} {r : Resolver σ π}
    (hr : r ∈ (Registry.withBuiltIns [] : Registry σ π).resolvers) (c : Compiler σ π) (w : σ)
    (source : Loaded) (p : π) :
    (outcome (r.outputs c w source p)).2 = p ∨
      ∃ path, (outcome (r.outputs c w source p)).2 = (c.emit w path p).2 := by
  rw [show (Registry.withBuiltIns [] : Registry σ π).resolvers = builtInResolvers from rfl] at hr
  simp only [builtInResolvers, List.mem_cons, List.not_mem_nil, or_false] at hr
  rcases hr with rfl | rfl | rfl
  · left
    have hget (k : π → EStateM BuildError π (List OutputFile)) : (get >>= k) p = k p p := rfl
    simp only [jsonResolver, hget]
    cases c.source? p source.path <;> rfl
  · unfold Component.resolver
    dsimp only
    split
    · exact .inl rfl
    next file _ =>
      right
      refine ⟨file.path, ?_⟩
      split
      next hemitted =>
        rw [hemitted]
        split <;> rfl
  · exact .inl rfl

end Typings

namespace Typings.Registry

variable {σ π : Type}

/-- The resolver that the registry holds under a name. -/
def held? (g : Registry σ π) (n : Text) : Option (Resolver σ π) := g.resolvers.find? (·.name == n)

/-- The resolver that was registered last under a name. -/
def lastNamed? (rs : List (Resolver σ π)) (n : Text) : Option (Resolver σ π) :=
  rs.reverse.find? (·.name == n)

/-- The names of some registrations, each once, in the order in which they came first; what has no name
    is left out. -/
def registeredNames (rs : List (Resolver σ π)) : List Text :=
  ((rs.map (·.name)).filter fun n => !n.isEmpty).eraseDups

/-- The first name whose last resolver is for the source. -/
def firstFor? (rs : List (Resolver σ π)) (p : Path) : Option Text :=
  (registeredNames rs).find? fun n => (lastNamed? rs n).any (·.supports p)

/-! ## One registration -/

/-- A known name keeps its place, a new one comes last. -/
theorem names_place (r : Resolver σ π) (l : List (Resolver σ π)) :
    (place r l).map (·.name) =
      if r.name ∈ l.map (·.name) then l.map (·.name) else l.map (·.name) ++ [r.name] := by
  induction l with
  | nil => rfl
  | cons q l ih =>
      rw [place, List.map_cons]
      by_cases hq : q.name = r.name
      · rw [if_pos (beq_iff_eq.mpr hq), List.map_cons, hq, if_pos List.mem_cons_self]
      · have hmem : r.name ∈ q.name :: l.map (·.name) ↔ r.name ∈ l.map (·.name) :=
          List.mem_cons.trans (or_iff_right (Ne.symm hq))
        rw [if_neg (by simpa using hq), List.map_cons, ih, ite_congr (propext hmem) (fun _ => rfl) fun _ => rfl]
        split <;> rfl

theorem find?_named_cons (q : Resolver σ π) (l : List (Resolver σ π)) (n : Text) :
    (q :: l).find? (·.name == n) = if q.name = n then some q else l.find? (·.name == n) := by
  rw [List.find?_cons]
  by_cases hq : q.name = n
  · rw [if_pos hq, beq_iff_eq.mpr hq]
  · rw [if_neg hq, beq_eq_false_iff_ne.mpr hq]

/-- Under its name the new resolver is found, under the others what was found before. -/
theorem find?_place (r : Resolver σ π) (l : List (Resolver σ π)) (n : Text) :
    (place r l).find? (·.name == n) = if r.name = n then some r else l.find? (·.name == n) := by
  induction l with
  | nil => rw [place, find?_named_cons]
  | cons q l ih =>
      rw [place]
      by_cases hq : q.name = r.name
      · rw [if_pos (beq_iff_eq.mpr hq), find?_named_cons, find?_named_cons, hq]
        split <;> rfl
      · rw [if_neg (by simpa using hq), find?_named_cons, find?_named_cons, ih]
        by_cases hn : q.name = n
        · -- The name that is looked for is not the new one.
          rw [if_pos hn, if_neg fun hr => hq (hn.trans hr.symm), if_pos hn]
        · rw [if_neg hn, if_neg hn]

/-- A registration adds its name at the end, if it is a new one and is taken. -/
theorem names_register (g : Registry σ π) (r : Resolver σ π) :
    (g.register r).names =
      if takes r = true ∧ r.name ∉ g.names then g.names ++ [r.name] else g.names := by
  unfold register
  by_cases ht : takes r = true
  · rw [if_pos ht, names, names_place, ← names]
    by_cases hmem : r.name ∈ g.names <;> simp [ht, hmem]
  · rw [if_neg ht, if_neg fun h => ht h.1]

/-- A registration holds its own name and leaves the others. -/
theorem held?_register (g : Registry σ π) (r : Resolver σ π) (n : Text) :
    (g.register r).held? n = if takes r = true ∧ r.name = n then some r else g.held? n := by
  unfold register
  by_cases ht : takes r = true
  · rw [if_pos ht, held?, find?_place, ← held?]
    by_cases hr : r.name = n <;> simp [ht, hr]
  · rw [if_neg ht, if_neg fun h => ht h.1]

/-! ## Histories -/

theorem ofResolvers_concat (rs : List (Resolver σ π)) (r : Resolver σ π) :
    ofResolvers (rs ++ [r]) = (ofResolvers rs).register r := by
  rw [ofResolvers, List.foldl_append]
  rfl

/-- A later repetition is dropped. -/
theorem eraseDups_concat (ns : List Text) (n : Text) :
    (ns ++ [n]).eraseDups = if n ∈ ns then ns.eraseDups else ns.eraseDups ++ [n] := by
  have hone : [n].eraseDups = [n] := rfl
  rw [List.eraseDups_append, List.removeAll, List.filter_singleton]
  by_cases hn : n ∈ ns
  · simp [hn]
  · simp [hn, hone]

/-- A name is registered where it first stands. -/
theorem registeredNames_concat (rs : List (Resolver σ π)) (r : Resolver σ π) :
    registeredNames (rs ++ [r]) =
      if takes r = true ∧ r.name ∉ registeredNames rs then registeredNames rs ++ [r.name]
      else registeredNames rs := by
  rw [registeredNames, List.map_append, List.filter_append]
  cases ht : takes r with
  | false =>
      have hnone : ([r].map (·.name)).filter (fun n => !n.isEmpty) = [] := by simpa [takes] using ht
      rw [hnone, List.append_nil, if_neg fun h => Bool.false_ne_true h.1, registeredNames]
  | true =>
      have hone : ([r].map (·.name)).filter (fun n => !n.isEmpty) = [r.name] := by simpa [takes] using ht
      rw [hone, eraseDups_concat, ← registeredNames]
      by_cases hold : r.name ∈ (rs.map (·.name)).filter fun n => !n.isEmpty
      · rw [if_pos hold, if_neg fun h => h.2 (List.mem_eraseDups.mpr hold)]
      · rw [if_neg hold, if_pos ⟨rfl, fun h => hold (List.mem_eraseDups.mp h)⟩]

/-- Of the resolvers with one name the last has precedence. -/
theorem lastNamed?_concat (rs : List (Resolver σ π)) (r : Resolver σ π) (n : Text) :
    lastNamed? (rs ++ [r]) n = if r.name = n then some r else lastNamed? rs n := by
  rw [lastNamed?, List.reverse_concat, find?_named_cons, lastNamed?]

/-- The names of a registry are those of its registrations, in order. -/
theorem names_ofResolvers (rs : List (Resolver σ π)) : (ofResolvers rs).names = registeredNames rs := by
  induction rs using List.reverseRecOn with
  | nil => rfl
  | append_singleton rs r ih => rw [ofResolvers_concat, names_register, registeredNames_concat, ih]

/-- Under a name the registry holds what was registered last under it. -/
theorem held?_ofResolvers (rs : List (Resolver σ π)) (n : Text) :
    (ofResolvers rs).held? n = if n.isEmpty then none else lastNamed? rs n := by
  induction rs using List.reverseRecOn with
  | nil => exact (ite_self none).symm
  | append_singleton rs r ih =>
      rw [ofResolvers_concat, held?_register, lastNamed?_concat, ih]
      by_cases hr : r.name = n
      · subst hr
        cases hempty : r.name.isEmpty <;> simp [takes, hempty]
      · simp [hr]

/-- No name is held twice. -/
theorem nodup_names_ofResolvers (rs : List (Resolver σ π)) : (ofResolvers rs).names.Nodup := by
  induction rs using List.reverseRecOn with
  | nil => exact List.nodup_nil
  | append_singleton rs r ih =>
      rw [ofResolvers_concat, names_register]
      split
      · next h =>
          refine List.nodup_append.mpr ⟨ih, List.nodup_singleton _, fun n hn m hm he => h.2 ?_⟩
          rwa [← List.mem_singleton.mp hm, ← he]
      · exact ih

/-! ## Dispatch -/

/-- A resolver in the registry is held under its name. -/
theorem held?_of_mem {g : Registry σ π} (hnames : g.names.Nodup) {r : Resolver σ π}
    (hr : r ∈ g.resolvers) : g.held? r.name = some r := by
  cases hheld : g.held? r.name with
  | none => exact absurd (List.find?_eq_none.mp hheld r hr) (by simp)
  | some q =>
      have hq := List.mem_of_find?_eq_some hheld
      have hsame : q.name = r.name := by simpa using List.find?_some hheld
      rw [List.inj_on_of_nodup_map hnames hq hr hsame]

/-- Dispatching goes through the names, and asks what is held under each. -/
theorem dispatch?_eq {g : Registry σ π} (hnames : g.names.Nodup) (p : Path) :
    g.dispatch? p = (g.names.find? fun n => (g.held? n).any (·.supports p)).bind g.held? := by
  have hasked : g.resolvers.find? (fun r => (g.held? r.name).any (·.supports p)) = g.dispatch? p := by
    refine List.find?_congr fun r hr => ?_
    rw [held?_of_mem hnames hr, Option.any_some]
  rw [names, List.find?_map]
  show _ = ((g.resolvers.find? fun r => (g.held? r.name).any (·.supports p)).map (·.name)).bind g.held?
  rw [hasked]
  cases hfound : g.dispatch? p with
  | none => rfl
  | some r => exact (held?_of_mem hnames (List.mem_of_find?_eq_some hfound)).symm

/-- The first name for a source is the name of a resolver for it. -/
theorem exists_of_firstFor? {rs : List (Resolver σ π)} {p : Path} {n : Text}
    (h : firstFor? rs p = some n) :
    ∃ r, lastNamed? rs n = some r ∧ r.name = n ∧ r.supports p = true := by
  rw [firstFor?] at h
  have hany := List.find?_some h
  obtain ⟨r, hr, hsupports⟩ := (Option.any_eq_true _ _).mp hany
  exact ⟨r, hr, by simpa using List.find?_some hr, hsupports⟩

/-- A source goes to what was registered last under the first name that is for it. -/
theorem dispatch?_ofResolvers (rs : List (Resolver σ π)) (p : Path) :
    (ofResolvers rs).dispatch? p = (firstFor? rs p).bind (lastNamed? rs) := by
  have hheld : ∀ n ∈ registeredNames rs, (ofResolvers rs).held? n = lastNamed? rs n := by
    intro n hn
    have hne : n.isEmpty = false := by simpa using (List.mem_filter.mp (List.mem_eraseDups.mp hn)).2
    rw [held?_ofResolvers, hne]
    rfl
  rw [dispatch?_eq (nodup_names_ofResolvers rs), names_ofResolvers, firstFor?,
    List.find?_congr fun n hn => by rw [hheld n hn]]
  cases hfirst : (registeredNames rs).find? fun n => (lastNamed? rs n).any (·.supports p) with
  | none => rfl
  | some n => exact hheld n (List.mem_of_find?_eq_some hfirst)

theorem name_dispatch?_ofResolvers (rs : List (Resolver σ π)) (p : Path) :
    ((ofResolvers rs).dispatch? p).map (·.name) = firstFor? rs p := by
  rw [dispatch?_ofResolvers]
  cases hfirst : firstFor? rs p with
  | none => rfl
  | some n =>
      obtain ⟨r, hr, hn, -⟩ := exists_of_firstFor? hfirst
      rw [Option.bind_some, hr, Option.map_some, hn]

/-- **A registry is determined by the history of its registrations.** Its names are the names that were
    registered, each once, in the order in which they came first.  Under each of them it holds what was
    registered last under it.  A source goes to the first name whose last resolver is for it, and is
    supported just if there is one. -/
theorem ofResolvers_exact (rs : List (Resolver σ π)) :
    (ofResolvers rs).names = registeredNames rs ∧
      (∀ n, (ofResolvers rs).held? n = if n.isEmpty then none else lastNamed? rs n) ∧
      (∀ p, (ofResolvers rs).dispatch? p = (firstFor? rs p).bind (lastNamed? rs)) ∧
      (∀ p, ((ofResolvers rs).dispatch? p).map (·.name) = firstFor? rs p) ∧
      ∀ p, (ofResolvers rs).supports p = (firstFor? rs p).isSome := by
  refine ⟨names_ofResolvers rs, held?_ofResolvers rs, dispatch?_ofResolvers rs,
    name_dispatch?_ofResolvers rs, fun p => ?_⟩
  rw [supports, ← name_dispatch?_ofResolvers, Option.isSome_map]

/-- A resolver takes the place of the one of its name, and with it the paths that are asked there. -/
example :
    let named (n ext : Text) : Resolver Unit Unit := ⟨n, hasExtension ext, fun _ _ _ => pure []⟩
    let rs := [named "json" "json", named "" "md", named "vue" "vue", named "json" "vue"]
    (ofResolvers rs).names = ["json", "vue"] ∧ firstFor? rs "/p/a.json" = none ∧
      firstFor? rs "/p/App.vue" = some "json".toList ∧ firstFor? rs "/p/a.md" = none := by
  decide +kernel

end Typings.Registry
