import Typings.Library.Index
import Typings.Proofs.Resolver
import Typings.Proofs.Session.FlushActs

/-!
# `Targets` — where root files are, and where their rollups go

A root file is planned at the place of the package's types or under the name of its entry, and the tool
that rolls it up is told the output directory and the last name of that place.  The two agree exactly
for declarations that lie directly in the output directory (`resultOf_same_iff`).

* `isDeclaration_declarationName`: the name of a result is always that of a declaration.
* `Path.DeclaredIn`: the places of declarations directly in a directory.
* `target_planIndexFiles`, `resultOf_same_iff`: what is planned, and what is asked for.
* `resultOf_same_self`: a target at which any result is put has its own there.
* `Rollup.Owned`, `owned_targets_iff`: when every entry has a root file of its own that is filled.
-/

namespace Typings

/-! ## Names of declarations -/

namespace ScriptName

/-- An extension belongs to the last segment of a name. -/
theorem lastSegment_append {stem ext : Text} (h : ∀ c ∈ ext, c ≠ '/' ∧ c ≠ '\\') :
    lastSegment (stem ++ ext) = lastSegment stem ++ ext := by
  unfold lastSegment
  rw [List.reverse_append, List.takeWhile_append_of_pos, List.reverse_append, List.reverse_reverse]
  intro c hc
  obtain ⟨h1, h2⟩ := h c (List.mem_reverse.mp hc)
  simp [h1, h2]

/-- The extension is what stands behind the last dot. -/
theorem extension?_append {stem ext : Text} (h : ∀ c ∈ ext, c ≠ '.' ∧ c ≠ '/' ∧ c ≠ '\\') :
    extension? (stem ++ '.' :: ext) = some ext := by
  have hseg : lastSegment (stem ++ '.' :: ext) = lastSegment stem ++ '.' :: ext :=
    lastSegment_append (List.forall_mem_cons.mpr ⟨by decide, fun c hc => (h c hc).2⟩)
  have hdot : '.' ∉ ext := fun hmem => (h '.' hmem).1 rfl
  rw [extension?, hseg, Text.cutLast?_eq_some_iff.mpr ⟨rfl, hdot⟩]
  rfl

/-- No known extension holds a dot or a slash. -/
theorem mark_not_mem_extension {ext : Text} (h : ext ∈ typeScriptExtensions ++ javaScriptExtensions) :
    ∀ c ∈ ext, c ≠ '.' ∧ c ≠ '/' ∧ c ≠ '\\' := by
  revert ext
  decide

theorem stripExtension_append {allowed : List Text} {stem ext : Text} (h : ext ∈ allowed)
    (hmark : ∀ c ∈ ext, c ≠ '.' ∧ c ≠ '/' ∧ c ≠ '\\') : stripExtension allowed (stem ++ '.' :: ext) = stem := by
  have hlen : (stem ++ '.' :: ext).length - ext.length - 1 = stem.length := by
    simp only [List.length_append, List.length_cons]
    omega
  rw [stripExtension, extension?_append hmark]
  dsimp only
  rw [if_pos (List.contains_iff_mem.mpr h), hlen, List.take_left]

/-- A TypeScript extension is taken off once. -/
theorem stripTypeScript_append {stem ext : Text} (h : ext ∈ typeScriptExtensions) :
    stripTypeScript (stem ++ '.' :: ext) = stem :=
  stripExtension_append h (mark_not_mem_extension (List.mem_append_left _ h))

theorem isDeclaration_append (stem : Text) {ext : Text} (h : ext ∈ typeScriptExtensions) :
    isDeclaration (stem ++ ['.', 'd'] ++ '.' :: ext) = true := by
  have htyped : isTypeScript (stem ++ ['.', 'd'] ++ '.' :: ext) = true := by
    rw [isTypeScript, hasExtension, extension?_append (mark_not_mem_extension (List.mem_append_left _ h))]
    simpa using h
  have hends : Text.endsWith (stem ++ ['.', 'd']) ".d" = true := Text.endsWith_iff.mpr ⟨stem, rfl⟩
  rw [isDeclaration, htyped, stripTypeScript_append h, hends]
  rfl

/-- The module letter of a name makes one of the TypeScript extensions. -/
theorem modulePrefix_cases (n : Text) : modulePrefix n ++ "ts".toList ∈ typeScriptExtensions := by
  unfold modulePrefix
  split
  · split <;> decide
  · split <;> decide
  · decide

/-- The name of a result is that of a declaration. -/
theorem isDeclaration_declarationName (n : Text) : isDeclaration (declarationName n) = true := by
  unfold declarationName
  split
  · assumption
  · have h := isDeclaration_append (stripScript n) (modulePrefix_cases n)
    simpa using h

/-- A name is its own declaration name exactly when it is a declaration's. -/
theorem declarationName_eq_self {n : Text} : declarationName n = n ↔ isDeclaration n = true := by
  constructor
  · intro h
    rw [← h]
    exact isDeclaration_declarationName n
  · intro h
    rw [declarationName, if_pos h]

theorem isPrefix_stripExtension (allowed : List Text) (n : Text) : stripExtension allowed n <+: n := by
  unfold stripExtension
  split
  · split
    · exact List.take_prefix _ _
    · exact List.prefix_refl n
  · exact List.prefix_refl n

/-- A stem without slashes, in front of the ending of a declaration. -/
theorem validName_append {stem ext : Text} (hs : '/' ∉ stem) (h : ext ∈ typeScriptExtensions) :
    Path.ValidName (stem ++ ['.', 'd'] ++ '.' :: ext) := by
  have hmark := mark_not_mem_extension (List.mem_append_left javaScriptExtensions h)
  refine validName_of_dot ?_ (fun hmem => (hmark '.' hmem).1 rfl) ?_
  · rintro rfl
    exact absurd h (by decide)
  · simp only [List.mem_append, List.mem_cons, not_or]
    exact ⟨⟨hs, by decide⟩, by decide, fun hmem => (hmark '/' hmem).2.1 rfl⟩

/-- The declaration name of a valid file name is one. -/
theorem validName_declarationName {n : Text} (h : Path.ValidName n) :
    Path.ValidName (declarationName n) := by
  unfold declarationName
  split
  · exact h
  · have hstem : '/' ∉ stripScript n := fun hmem =>
      h.2.2.2 ((isPrefix_stripExtension _ n).subset hmem)
    have hname := validName_append hstem (modulePrefix_cases n)
    simpa using hname

end ScriptName

open ScriptName (isDeclaration declarationName)

/-! ## Directly in a directory -/

namespace Path

/-- The path is that of a declaration directly in the directory. -/
def DeclaredIn (dir p : Path) : Prop :=
  ∃ n, isDeclaration n = true ∧ ValidName n ∧ p.components = dir.components ++ [.name n]

theorem components_join_nil {dir : Path} (hd : dir.isAbsolute = true) :
    (dir.join ⟨[]⟩).components = dir.components := by
  have hrel : (⟨[]⟩ : Path).isAbsolute = false := rfl
  have hsteps : (⟨[]⟩ : Path).steps = [] := rfl
  rw [components_of_isAbsolute ((isAbsolute_join hrel).trans hd), steps_join hrel, hsteps,
    components_of_isAbsolute hd, List.append_nil]

/-- A joined path ends in the file name of what was joined. -/
theorem fileName?_join {q : Path} {n : Text} (h : q.fileName? = some n) (p : Path) :
    (p.join q).fileName? = some n := by
  by_cases ha : q.isAbsolute = true
  · rw [join, if_pos ha]
    exact h
  · obtain ⟨front, hfront⟩ := fileName?_eq_some_iff.mp h
    refine fileName?_eq_some_iff.mpr ⟨p.steps ++ front, ?_⟩
    rw [steps_join (by simpa using ha), hfront, List.append_assoc]

/-- A file name is a valid name for a component. -/
theorem validName_of_fileName? {p : Path} {n : Text} (h : p.fileName? = some n) : ValidName n := by
  obtain ⟨front, hsteps⟩ := fileName?_eq_some_iff.mp h
  exact step_of_mem_steps (p := p) (c := .name n) (by rw [hsteps]; simp)

theorem components_of_fileName? {p : Path} {n : Text} (h : p.fileName? = some n) :
    ∃ front, p.components = front ++ [.name n] := by
  obtain ⟨front, hsteps⟩ := fileName?_eq_some_iff.mp h
  by_cases ha : p.isAbsolute = true
  · exact ⟨.root :: front, by rw [components_of_isAbsolute ha, hsteps]; rfl⟩
  · rcases components_of_relative (by simpa using ha) with hc | hc
    · exact ⟨front, hc.trans hsteps⟩
    · exact ⟨.current :: front, by rw [hc, hsteps]; rfl⟩

/-- A declaration directly in a directory has a name. -/
theorem DeclaredIn.fileName? {dir p : Path} (h : dir.DeclaredIn p) (hd : dir.isAbsolute = true) :
    ∃ n, p.fileName? = some n := by
  obtain ⟨n, -, -, hp⟩ := h
  have ha : p.isAbsolute = true := by
    rw [isAbsolute_iff_root_mem, hp, components_of_isAbsolute hd]
    simp
  rw [components_of_isAbsolute ha, components_of_isAbsolute hd, List.cons_append] at hp
  exact ⟨n, fileName?_eq_some_iff.mpr ⟨dir.steps, (List.cons.inj hp).2⟩⟩

end Path

/-! ## Targets and results -/

namespace Rollup

variable {σ : Type} {r : Rollup σ} {entries : List Entry} {types : Path}

/-- Root files are planned where the tool is asked to roll up. -/
theorem target_planIndexFiles (r : Rollup σ) (types entryRoot : Path) (hne : entries ≠ []) :
    (planIndexFiles entries types r.outDir entryRoot).map (·.target) = r.targets entries types := by
  rw [planIndexFiles, List.map_map, targets]
  by_cases hmore : entries.length > 1
  · rw [if_pos hmore]
    refine List.map_congr_left fun e _ => ?_
    show indexTarget (decide (entries.length > 1)) types r.outDir e = _
    rw [decide_eq_true hmore]
    rfl
  · obtain ⟨e, rfl⟩ : ∃ e, entries = [e] := by
      refine List.length_eq_one_iff.mp ?_
      have hpos := List.length_pos_iff.mpr hne
      omega
    rw [if_neg hmore]
    rfl

/-- The result for a target stands in the output directory under the declaration name. -/
theorem resultOf_eq {target : Path} {n : Text} (h : target.fileName? = some n) :
    r.resultOf target = r.outDir.join ⟨declarationName n⟩ := by
  rw [resultOf, RollupRequest.outputPath, request, h]

/-- The result replaces its target exactly when the target is declared right in the output directory. -/
theorem resultOf_same_iff_of_name {target : Path} {n : Text} (h : target.fileName? = some n) :
    (r.resultOf target).same target = true ↔ r.outDir.DeclaredIn target := by
  have hn := Path.validName_of_fileName? h
  obtain ⟨front, hfront⟩ := Path.components_of_fileName? h
  rw [resultOf_eq h, Path.same_iff,
    Path.components_join_name _ (ScriptName.validName_declarationName hn)]
  constructor
  · intro hsame
    -- Both end in their names, so the name is left as it is.
    have hlast := List.append_inj' (hsame.trans hfront) rfl
    obtain hname : declarationName n = n := by simpa using hlast.2
    rw [hname] at hsame
    exact ⟨n, ScriptName.declarationName_eq_self.mp hname, hn, hsame.symm⟩
  · rintro ⟨m, hm, -, hcomp⟩
    have hlast := List.append_inj' (hfront.symm.trans hcomp) rfl
    obtain rfl : n = m := by simpa using hlast.2
    rw [ScriptName.declarationName_eq_self.mpr hm, hcomp]

/-- **What is asked for is the target itself** if and only if the target is a declaration directly in the
    output directory, or that directory when it has no name. -/
theorem resultOf_same_iff (hd : r.outDir.isAbsolute = true) (target : Path) :
    (r.resultOf target).same target = true ↔
      r.outDir.DeclaredIn target ∨ target.fileName? = none ∧ r.outDir.same target = true := by
  cases h : target.fileName? with
  | some n => simp [resultOf_same_iff_of_name h]
  | none =>
      have hnot : ¬ r.outDir.DeclaredIn target := by
        intro hin
        obtain ⟨n, hn⟩ := hin.fileName? hd
        exact nomatch h.symm.trans hn
      have hresult : r.resultOf target = r.outDir.join ⟨[]⟩ := by
        rw [resultOf, RollupRequest.outputPath, request, h]
      rw [hresult, Path.same_iff, Path.components_join_nil hd, ← Path.same_iff]
      simp [hnot]

/-! ## Several entries -/

/-- With several entries each of them has a target of its own. -/
theorem targets_several (h : 1 < entries.length) :
    r.targets entries types = entries.map fun e => r.outDir.join ⟨e.declarationFileName⟩ := if_pos h

/-- The root file of an entry whose name has no slash is a declaration with a name of its own. -/
theorem declarationFileName_spec {e : Entry} (hs : '/' ∉ e.name) :
    isDeclaration e.declarationFileName = true ∧ Path.ValidName e.declarationFileName := by
  have hname : e.declarationFileName
      = ScriptName.stripTypeScript e.name ++ ['.', 'd'] ++ '.' :: "ts".toList := by
    simp [Entry.declarationFileName]
  have hstem : '/' ∉ ScriptName.stripTypeScript e.name := fun hmem =>
    hs ((ScriptName.isPrefix_stripExtension _ e.name).subset hmem)
  rw [hname]
  exact ⟨ScriptName.isDeclaration_append _ (by decide), ScriptName.validName_append hstem (by decide)⟩

/-- The root file of one of several entries has a name. -/
theorem fileName?_target (dir : Path) (e : Entry) :
    ∃ n, (dir.join ⟨e.declarationFileName⟩).fileName? = some n := by
  obtain ⟨piece, hslash, -, ht⟩ := exists_last_piece (ScriptName.stripTypeScript e.name)
  have hts : "ts".toList ∈ ScriptName.typeScriptExtensions := by decide
  have hname := ScriptName.validName_append hslash hts
  refine ⟨_, Path.fileName?_join (Path.fileName?_of_last hname ?_) dir⟩
  rcases ht with ht | ⟨front, ht⟩
  · exact .inl (by simp [Entry.declarationFileName, ht])
  · exact .inr ⟨front, by simp [Entry.declarationFileName, ht]⟩

/-- If any result is put at a target, its own is. -/
theorem resultOf_same_self (hd : r.outDir.isAbsolute = true) {t u : Path}
    (ht : t ∈ r.targets entries types) (hu : u ∈ r.targets entries types)
    (h : (r.resultOf u).same t = true) : (r.resultOf t).same t = true := by
  by_cases hmore : 1 < entries.length
  · rw [targets_several hmore] at hu
    obtain ⟨e, -, rfl⟩ := List.mem_map.mp hu
    obtain ⟨n, hn⟩ := fileName?_target r.outDir e
    have hvalid := ScriptName.validName_declarationName (Path.validName_of_fileName? hn)
    rw [resultOf_eq hn, Path.same_iff, Path.components_join_name _ hvalid] at h
    have hin : r.outDir.DeclaredIn t := ⟨_, ScriptName.isDeclaration_declarationName n, hvalid, h.symm⟩
    exact (resultOf_same_iff hd t).mpr (.inl hin)
  · have htargets : r.targets entries types = [types] := if_neg hmore
    rw [htargets, List.mem_singleton] at ht hu
    rw [ht]
    rw [ht, hu] at h
    exact h

/-- The target of an entry without a slash in its name lies right in the output directory. -/
theorem declaredIn_target {e : Entry} (hs : '/' ∉ e.name) :
    r.outDir.DeclaredIn (r.outDir.join ⟨e.declarationFileName⟩) := by
  obtain ⟨hdecl, hname⟩ := declarationFileName_spec hs
  exact ⟨_, hdecl, hname, Path.components_join_name _ hname⟩

/-- Two entries share a target exactly when their declarations share a name. -/
theorem same_target_iff {e e' : Entry} (hs : '/' ∉ e.name) (hs' : '/' ∉ e'.name) :
    (r.outDir.join ⟨e.declarationFileName⟩).same (r.outDir.join ⟨e'.declarationFileName⟩) = true ↔
      e.declarationFileName = e'.declarationFileName := by
  rw [Path.same_iff, Path.components_join_name _ (declarationFileName_spec hs).2,
    Path.components_join_name _ (declarationFileName_spec hs').2]
  simp

/-- **Several entries** whose names have no slash have root files directly in the output directory; these
    are different files if and only if their names are different. -/
theorem targets_of_plain_names (hmore : 1 < entries.length) (hs : ∀ e ∈ entries, '/' ∉ e.name) :
    (∀ target ∈ r.targets entries types, r.outDir.DeclaredIn target) ∧
      ((r.targets entries types).Pairwise (fun t u => t.same u = false) ↔
        (entries.map (·.declarationFileName)).Nodup) := by
  rw [targets_several hmore]
  constructor
  · intro target htarget
    obtain ⟨e, he, rfl⟩ := List.mem_map.mp htarget
    exact declaredIn_target (hs e he)
  · rw [List.Nodup, List.pairwise_map, List.pairwise_map]
    refine List.Pairwise.iff_of_mem fun {e e'} he he' => ?_
    rw [← Bool.not_eq_true, same_target_iff (hs e he) (hs e' he')]

/-! ## Root files of one's own -/

/-- Every target is a file of its own, and the tool is asked to put its result there. -/
def Owned (r : Rollup σ) (targets : List Path) : Prop :=
  targets.Pairwise (fun t u => t.same u = false) ∧ ∀ t ∈ targets, (r.resultOf t).same t = true

theorem Owned.any_same {targets : List Path} (h : r.Owned targets) (p : Path) :
    targets.any (fun t => (r.resultOf t).same p) = targets.any (·.same p) := by
  rw [Bool.eq_iff_iff, List.any_eq_true, List.any_eq_true]
  refine exists_congr fun t => and_congr_right fun ht => ?_
  rw [Path.same_congr (h.2 t ht)]

/-- **Which targets are owned**, for entries whose names have no slash: those of several entries if their
    root files have different names, and that of a single entry if it lies directly in the output
    directory. -/
theorem owned_targets_iff (hd : r.outDir.isAbsolute = true) (hs : ∀ e ∈ entries, '/' ∉ e.name) :
    r.Owned (r.targets entries types) ↔
      if 1 < entries.length then (entries.map (·.declarationFileName)).Nodup
      else r.outDir.DeclaredIn types ∨ types.fileName? = none ∧ r.outDir.same types = true := by
  by_cases hmore : 1 < entries.length
  · rw [if_pos hmore]
    obtain ⟨hin, hdistinct⟩ : (∀ t ∈ r.targets entries types, r.outDir.DeclaredIn t) ∧ _ :=
      targets_of_plain_names hmore hs
    rw [Owned, hdistinct, and_iff_left]
    exact fun t ht => (resultOf_same_iff hd t).mpr (.inl (hin t ht))
  · have htargets : r.targets entries types = [types] := if_neg hmore
    rw [if_neg hmore, Owned, htargets, ← resultOf_same_iff hd types]
    simp

end Rollup

end Typings
