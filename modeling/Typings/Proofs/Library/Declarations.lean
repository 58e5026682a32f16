import Typings.Compiler.Staged
import Typings.Library.Index
import Typings.Proofs.Declaration.Cleaned
import Typings.Proofs.Rollup.Targets

/-!
# `Declarations` — where the declaration of an entry is expected

Root files re-export the declaration of an entry from the place where it is expected.  That place is
computed from the name of the entry alone, while the declaration itself is named by the compiler, recorded
below the public root and moved by the layout.  The two ways agree for plain TypeScript sources and for
sources that are no scripts, as long as nothing is cleaned (`declaration_eq_finalPath_iff`); the name of any
other declaration is missed (`declaration_missed`).

* `ScriptName.expectedName`, `emittedName`: the last names on the two ways; `expectedName_eq_iff`.
* `Entry.emittedDeclaration_eq`: the expected place.
* `StagedProgram.declaration?_eq`, `Host.emittedKey_ofNames`: the record of the declaration.
* `Layout.finalPath_eq_iff`: when the record is written to the expected place.
-/

namespace Typings

open Typings.Path (ofNames names ValidName)

/-! ## The last name of a spelling -/

namespace ScriptName

section

variable {stem n : Text} (hstem : lastSegment stem = []) (hn : ∀ c ∈ n, c ≠ '/' ∧ c ≠ '\\')

include hstem hn

theorem extension?_behind : extension? (stem ++ n) = extension? n := by
  have hlast : lastSegment ([] ++ n) = n := lastSegment_append hn
  rw [List.nil_append] at hlast
  rw [extension?, extension?, lastSegment_append hn, hstem, hlast]
  rfl

theorem modulePrefix_behind : modulePrefix (stem ++ n) = modulePrefix n := by
  unfold modulePrefix isScript isTypeScript isJavaScript hasExtension
  rw [extension?_behind hstem hn]

theorem isJavaScript_behind : isJavaScript (stem ++ n) = isJavaScript n := by
  unfold isJavaScript hasExtension
  rw [extension?_behind hstem hn]

end

/-- An extension stands behind a dot. -/
theorem length_lt_of_extension? {n ext : Text} (h : extension? n = some ext) :
    ext.length < n.length := by
  obtain ⟨⟨before, after⟩, hcut, rfl⟩ := Option.map_eq_some_iff.mp h
  have hseg := (Text.cutLast?_eq_some_iff.mp hcut).1
  have hshort : (lastSegment n).length ≤ n.length := by
    have hle := (List.takeWhile_prefix (l := n.reverse) fun c => !(c == '/' || c == '\\')).length_le
    rwa [List.length_reverse, ← List.length_reverse] at hle
  rw [hseg, List.length_append, List.length_cons] at hshort
  show after.length < n.length
  omega

theorem stripExtension_of_extension? {n ext : Text} (h : extension? n = some ext) (allowed : List Text) :
    stripExtension allowed n = if allowed.contains ext then n.take (n.length - ext.length - 1) else n := by
  rw [stripExtension, h]

theorem stripExtension_behind {stem n : Text} (hstem : lastSegment stem = [])
    (hn : ∀ c ∈ n, c ≠ '/' ∧ c ≠ '\\') (allowed : List Text) :
    stripExtension allowed (stem ++ n) = stem ++ stripExtension allowed n := by
  cases h : extension? n with
  | none => rw [stripExtension, stripExtension, extension?_behind hstem hn, h]
  | some ext =>
      have hlong := (extension?_behind hstem hn).trans h
      rw [stripExtension_of_extension? hlong, stripExtension_of_extension? h]
      split
      · have hlt := length_lt_of_extension? h
        have hlen : (stem ++ n).length - ext.length - 1
            = stem.length + (n.length - ext.length - 1) := by
          rw [List.length_append]
          omega
        rw [hlen, List.take_length_add_append]
      · rfl

/-! ## Two names for one declaration -/

/-- The name that the declaration of an entry is expected under. -/
def expectedName (n : Text) : Text := stripTypeScript n ++ ".d.ts"

/-- The name that the compiler gives to the declaration of a source. -/
def emittedName (n : Text) : Text := stripScript n ++ ".d." ++ modulePrefix n ++ "ts"

theorem expectedName_behind {stem n : Text} (hstem : lastSegment stem = [])
    (hn : ∀ c ∈ n, c ≠ '/' ∧ c ≠ '\\') : expectedName (stem ++ n) = stem ++ expectedName n := by
  rw [expectedName, expectedName, stripTypeScript, stripExtension_behind hstem hn, List.append_assoc]
  rfl

theorem emittedName_behind {stem n : Text} (hstem : lastSegment stem = [])
    (hn : ∀ c ∈ n, c ≠ '/' ∧ c ≠ '\\') : emittedName (stem ++ n) = stem ++ emittedName n := by
  rw [emittedName, emittedName, stripScript, stripExtension_behind hstem hn, modulePrefix_behind hstem hn]
  simp only [List.append_assoc]
  rfl

theorem validName_expectedName {n : Text} (h : ValidName n) : ValidName (expectedName n) := by
  have hstem : '/' ∉ stripTypeScript n := fun hmem =>
    h.2.2.2 ((isPrefix_stripExtension _ n).subset hmem)
  have hext : (['t', 's'] : Text) ∈ typeScriptExtensions := by decide
  have hname := validName_append hstem hext
  simpa [expectedName] using hname

theorem validName_emittedName {n : Text} (h : ValidName n) : ValidName (emittedName n) := by
  have hstem : '/' ∉ stripScript n := fun hmem =>
    h.2.2.2 ((isPrefix_stripExtension _ n).subset hmem)
  have hname := validName_append hstem (modulePrefix_cases n)
  simpa [emittedName] using hname

theorem length_modulePrefix_le (n : Text) : (modulePrefix n).length ≤ 1 := by
  unfold modulePrefix
  split
  · split <;> decide
  · split <;> decide
  · decide

theorem length_expectedName (n : Text) :
    (expectedName n).length = (stripTypeScript n).length + 5 := by
  have hend : ".d.ts".toList.length = 5 := by decide
  rw [expectedName, List.length_append, hend]

theorem length_emittedName (n : Text) :
    (emittedName n).length = (stripScript n).length + (modulePrefix n).length + 5 := by
  have hd : ".d.".toList.length = 3 := by decide
  have hts : "ts".toList.length = 2 := by decide
  simp only [emittedName, List.length_append, hd, hts]
  omega

theorem javaScriptExtensions_spec :
    ∀ ext ∈ javaScriptExtensions, ext ∉ typeScriptExtensions ∧ 2 ≤ ext.length := by decide

/-- The extension of a JavaScript source is taken off on one way only. -/
theorem stripScript_cases (n : Text) :
    (isJavaScript n = false ∧ stripScript n = stripTypeScript n) ∨
      (isJavaScript n = true ∧ (stripScript n).length + 3 ≤ (stripTypeScript n).length) := by
  unfold isJavaScript hasExtension
  cases h : extension? n with
  | none =>
      left
      rw [stripScript, stripTypeScript, stripExtension, stripExtension, h]
      exact ⟨rfl, rfl⟩
  | some ext =>
      rw [stripScript, stripTypeScript, stripExtension_of_extension? h, stripExtension_of_extension? h]
      by_cases hjs : ext ∈ javaScriptExtensions
      · right
        obtain ⟨hnot, hlong⟩ := javaScriptExtensions_spec ext hjs
        have hlt := length_lt_of_extension? h
        rw [if_pos (by simp [hjs]), if_neg (by simpa using hnot), List.length_take]
        refine ⟨by simpa using hjs, ?_⟩
        omega
      · left
        refine ⟨by simpa using hjs, ?_⟩
        have hsame : (typeScriptExtensions ++ javaScriptExtensions).contains ext
            = typeScriptExtensions.contains ext := by
          simp [hjs]
        rw [hsame]

/-- **The names are the same** for a source that is no JavaScript and whose extension carries no module
    kind. -/
theorem expectedName_eq_iff (n : Text) :
    expectedName n = emittedName n ↔ isJavaScript n = false ∧ modulePrefix n = [] := by
  rcases stripScript_cases n with ⟨hjs, hstem⟩ | ⟨hjs, hshort⟩
  · constructor
    · intro h
      have hlen := congrArg List.length h
      rw [length_expectedName, length_emittedName, hstem] at hlen
      exact ⟨hjs, List.eq_nil_of_length_eq_zero (by omega)⟩
    · rintro ⟨-, hprefix⟩
      rw [expectedName, emittedName, hstem, hprefix, List.append_nil, List.append_assoc]
      rfl
  · -- The extension of a JavaScript source is longer than a module kind.
    have hlong := length_modulePrefix_le n
    have hne : expectedName n ≠ emittedName n := by
      intro h
      have hlen := congrArg List.length h
      rw [length_expectedName, length_emittedName] at hlen
      omega
    simp [hne, hjs]

/-- The name from the compiler is at most a module kind longer. -/
theorem length_emittedName_le (n : Text) : (emittedName n).length ≤ (expectedName n).length + 1 := by
  have hlong := length_modulePrefix_le n
  rw [length_expectedName, length_emittedName]
  rcases stripScript_cases n with ⟨-, hstem⟩ | ⟨-, hshort⟩
  · rw [hstem]
    omega
  · omega

end ScriptName

open ScriptName (expectedName emittedName isJavaScript modulePrefix lastSegment)

/-! ## Places -/

namespace Path

/-- A spelling of names ends in its last name, whatever that is. -/
theorem exists_stem (front : List Text) :
    ∃ stem, lastSegment stem = [] ∧ ∀ m, List.intercalate ['/'] (front ++ [m]) = stem ++ m := by
  by_cases h : front = []
  · subst h
    exact ⟨[], rfl, fun m => List.intercalate_singleton⟩
  · refine ⟨List.intercalate ['/'] front ++ ['/'], ?_, fun m => intercalate_concat h⟩
    rw [lastSegment, List.reverse_append]
    rfl

theorem text_ofComponents_names {ns : List Text} (h : ∀ n ∈ ns, ValidName n) :
    (ofComponents (names ns)).text = List.intercalate ['/'] ns := by
  have hmap : (names ns).map Component.text = ns := by
    rw [names, List.map_map]
    exact List.map_id _
  rw [(text_ofComponents (text_ne_nil_of_step (step_of_mem_names h))).1, hmap]

theorem exists_stem_ofNames (front : List Text) :
    ∃ stem, lastSegment stem = [] ∧
      ∀ {m}, (∀ k ∈ front ++ [m], ValidName k) → (ofNames (front ++ [m])).text = stem ++ m := by
  obtain ⟨stem, hstem, hspell⟩ := exists_stem ([] :: front)
  refine ⟨stem, hstem, fun {m} hvalid => ?_⟩
  rw [text_ofNames hvalid, ← hspell, List.cons_append, List.intercalate_cons_of_ne_nil (by simp)]
  rfl

/-- The last name of a spelling without backslashes has no separators in it. -/
theorem separator_not_mem {stem n : Text} (hn : ValidName n) (h : '\\' ∉ stem ++ n) :
    ∀ c ∈ n, c ≠ '/' ∧ c ≠ '\\' := by
  intro c hc
  constructor
  · rintro rfl
    exact hn.2.2.2 hc
  · rintro rfl
    exact h (List.mem_append_right _ hc)

end Path

section

variable {front : List Text} {n : Text} (hvalid : ∀ m ∈ front ++ [n], ValidName m)

include hvalid

theorem validName_replace {m : Text} (hm : ValidName m) : ∀ k ∈ front ++ [m], ValidName k :=
  List.forall_mem_append.mpr
    ⟨(List.forall_mem_append.mp hvalid).1, fun _ hk => (List.mem_singleton.mp hk).symm ▸ hm⟩

/-- **Where the declaration of an entry is expected.** -/
theorem Entry.emittedDeclaration_eq {e : Entry} (hsource : e.source = ofNames (front ++ [n]))
    (hplain : e.source.Plain) (entryRoot outDir : Path) :
    e.emittedDeclaration entryRoot outDir
      = outDir.resolve (entryRoot.relative (ofNames (front ++ [expectedName n]))) := by
  have hname := ScriptName.validName_expectedName (hvalid n (by simp))
  obtain ⟨stem, hstem, hspell⟩ := Path.exists_stem_ofNames front
  have hclean : '\\' ∉ stem ++ n := by
    rwa [← hspell hvalid, ← hsource]
  have hmark := Path.separator_not_mem (hvalid n (by simp)) hclean
  have hfrom : e.source.toSlash = stem ++ n := by
    rw [hplain.toSlash, hsource, hspell hvalid]
  have hto : ofNames (front ++ [expectedName n]) = ⟨expectedName (stem ++ n)⟩ := by
    rw [ScriptName.expectedName_behind hstem hmark, ← hspell (validName_replace hvalid hname)]
  rw [hto, expectedName, ← hfrom]
  rfl

end

/-- **What the compiler calls the declaration of a source** inside the emit root. -/
theorem StagedProgram.declaration?_eq {p : StagedProgram} {source : Path} {rs front : List Text} {n : Text}
    (hvalid : ∀ m ∈ rs ++ (front ++ [n]), ValidName m) (hroot : p.emitRoot.normalize = ofNames rs)
    (hsource : source.normalize = ofNames (rs ++ (front ++ [n])))
    (hplain : (p.emitRoot.relative source).Plain) :
    p.declaration? source = some (Path.ofComponents (names (front ++ [emittedName n]))) := by
  have hbelow := (List.forall_mem_append.mp hvalid).2
  have hname := ScriptName.validName_emittedName (hbelow n (by simp))
  have hrelative := Path.relative_below hvalid hroot hsource
  have hcomponents := (Path.components_ofComponents (Path.step_of_mem_names hbelow)).1
  have hhead : (Path.ofComponents (names (front ++ [n]))).components.head? ≠ some .parent := by
    rw [hcomponents]
    cases front <;> simp [names]
  obtain ⟨stem, hstem, hspell⟩ := Path.exists_stem front
  have hslash := hplain.toSlash
  rw [hrelative, Path.text_ofComponents_names hbelow, hspell] at hslash
  have hclean : '\\' ∉ stem ++ n := by
    rw [← hspell, ← Path.text_ofComponents_names hbelow, ← hrelative]
    exact hplain
  have hmark := Path.separator_not_mem (hbelow n (by simp)) hclean
  have hto := Path.text_ofComponents_names (validName_replace hbelow hname)
  rw [hspell, ← ScriptName.emittedName_behind hstem hmark] at hto
  rw [declaration?, hrelative, if_neg (by simpa using hhead), hslash]
  show some (⟨emittedName (stem ++ n)⟩ : Path) = _
  rw [← hto]

/-- A file that the compiler gives below its directory is recorded below the public root. -/
theorem Host.emittedKey_ofNames {σ π : Type} {h : Host σ π} {p : π} {root : Path} {rs down : List Text}
    (hdir : (h.compiler.currentDir p).isAbsolute = true) (hroot : root.normalize = ofNames rs)
    (hvalid : ∀ m ∈ rs ++ down, ValidName m) :
    h.emittedKey p root (Path.ofComponents (names down)) = ofNames (rs ++ down) := by
  obtain ⟨hrs, hdown⟩ := List.forall_mem_append.mp hvalid
  obtain ⟨ds, hds, hdn⟩ := Path.exists_ofNames hdir
  have hplace := Path.resolve_climb hds hdown hdn 0
  rw [Nat.sub_zero, List.take_length] at hplace
  have hplaceValid : ∀ m ∈ ds ++ down, ValidName m := List.forall_mem_append.mpr ⟨hds, hdown⟩
  refine Path.resolve_relative_below hds hrs hdown hdn hroot ?_
  have hname : Path.climb 0 down = names down := rfl
  rw [← hname, hplace, Path.normalize_ofNames hplaceValid]

namespace Layout

variable {l : Layout}

/-- Cleaning shortens a name by more than the two names of a declaration can differ. -/
theorem cleaned_concat_eq_iff (l : Layout) {front : List Text} {n m : Text}
    (hlen : n.length ≤ m.length + 1) :
    l.cleaned (front ++ [n]) = front ++ [m] ↔
      m = n ∧ l.cleaned (front ++ [n]) = front ++ [n] := by
  refine ⟨fun h => ?_, fun ⟨hm, h⟩ => by rw [h, hm]⟩
  suffices hm : m = n by exact ⟨hm, by rw [h, hm]⟩
  rw [cleaned_append] at h
  by_cases hfront : l.cleaned front = front
  · rw [if_pos hfront, List.append_cancel_left_eq] at h
    rcases l.cleaned_singleton n with hn | ⟨k, hk, hshort⟩
    · rw [hn] at h
      exact (List.cons.inj h).1.symm
    · rw [hk] at h
      rw [(List.cons.inj h).1] at hshort
      omega
  · rw [if_neg hfront] at h
    have hsame := List.append_inj h (l.length_cleaned front)
    exact absurd hsame.1 hfront

section

variable {es os : List Text} (hes : ∀ k ∈ es, ValidName k) (hos : ∀ k ∈ os, ValidName k)
  (hentry : l.entryRoot.normalize = ofNames es) (hout : l.outDir.normalize = ofNames os)

include hes hos hentry hout

/-- Where the entry root keeps its name, the record is moved by what is cleaned below it. -/
theorem finalPath_of_root_kept (hroot : l.cleaned es = es) {rest : List Text}
    (hrest : ∀ k ∈ rest, ValidName k) :
    l.finalPath (ofNames (es ++ rest)) = ofNames (os ++ l.cleaned rest) := by
  have hvalid : ∀ k ∈ es ++ rest, ValidName k := List.forall_mem_append.mpr ⟨hes, hrest⟩
  have hcleaned := validName_cleaned (l := l) hvalid
  rw [cleaned_append, if_pos hroot] at hcleaned
  rw [finalPath, sourcePath_ofNames hvalid, cleaned_append, if_pos hroot]
  exact Path.resolve_relative_below hes hos (validName_cleaned hrest) hentry hout
    (Path.normalize_ofNames hcleaned)

/-- Where cleaning changes the name of the entry root, everything below it is moved to one other place. -/
theorem exists_finalPath_of_root_changed (hroot : l.cleaned es ≠ es) :
    ∃ ts, (∀ k ∈ ts, ValidName k) ∧ ∀ rest, (∀ k ∈ rest, ValidName k) →
      l.finalPath (ofNames (es ++ rest)) = ofNames (ts ++ rest) := by
  obtain ⟨common, down, up, hchanged, rfl, hparted⟩ := Path.exists_parted (l.cleaned es) es
  have hvalid := validName_cleaned (l := l) hes
  have hlength := l.length_cleaned (common ++ up)
  rw [hchanged] at hvalid hlength
  rw [List.length_append, List.length_append, Nat.add_left_cancel_iff] at hlength
  have hne : down ≠ up := fun he => hroot (by rw [hchanged, he])
  refine ⟨os.take (os.length - up.length) ++ down, ?_, fun rest hrest => ?_⟩
  · exact List.forall_mem_append.mpr
      ⟨fun k hk => hos k (List.mem_of_mem_take hk), (List.forall_mem_append.mp hvalid).2⟩
  · -- The record parts from the entry root at the changed name, wherever it lies below.
    have hfar : Path.Parted (down ++ rest) up := (hparted.append hlength rest).resolve_left hne
    have hrecord : ∀ k ∈ common ++ up ++ rest, ValidName k :=
      List.forall_mem_append.mpr ⟨hes, hrest⟩
    have hmoved : ∀ k ∈ common ++ (down ++ rest), ValidName k := by
      rw [← List.append_assoc]
      exact List.forall_mem_append.mpr ⟨hvalid, hrest⟩
    rw [finalPath, sourcePath_ofNames hrecord, cleaned_append, if_neg hroot, hchanged,
      List.append_assoc common down, List.append_assoc (os.take _)]
    exact Path.resolve_relative_parted hos hes hmoved hout hentry (Path.normalize_ofNames hmoved) hfar

/-- **When a record is written to a place below the output directory** that differs in the last name at
    most: if the name is the same and cleaning leaves the record alone, or if cleaning changes the name of
    the entry root itself and that is still written to the output directory. -/
theorem finalPath_eq_iff {front : List Text} {n m : Text} (hvalid : ∀ k ∈ front ++ [n], ValidName k)
    (hm : ValidName m) (hlen : n.length ≤ m.length + 1) :
    ofNames (os ++ (front ++ [m])) = l.finalPath (ofNames (es ++ (front ++ [n]))) ↔
      m = n ∧ (l.sourcePath (ofNames (es ++ (front ++ [n]))) = ofNames (es ++ (front ++ [n])) ∨
        l.sourcePath (ofNames es) ≠ ofNames es ∧ l.finalPath (ofNames es) = ofNames os) := by
  have hexpected := List.forall_mem_append.mpr ⟨hos, validName_replace hvalid hm⟩
  have hrecord := List.forall_mem_append.mpr ⟨hes, hvalid⟩
  rw [sourcePath_ofNames hrecord, sourcePath_ofNames hes, Path.ofNames_inj (validName_cleaned hrecord)
    hrecord, Ne, Path.ofNames_inj (validName_cleaned hes) hes, cleaned_append]
  by_cases hroot : l.cleaned es = es
  · rw [finalPath_of_root_kept hes hos hentry hout hroot hvalid,
      Path.ofNames_inj hexpected (List.forall_mem_append.mpr ⟨hos, validName_cleaned hvalid⟩), if_pos hroot,
      List.append_cancel_left_eq, List.append_cancel_left_eq, eq_comm, l.cleaned_concat_eq_iff hlen]
    simp [hroot]
  · obtain ⟨ts, hts, hmoved⟩ := exists_finalPath_of_root_changed hes hos hentry hout hroot
    have hself := hmoved [] (by simp)
    rw [List.append_nil, List.append_nil] at hself
    rw [hmoved _ hvalid, hself, Path.ofNames_inj hexpected (List.forall_mem_append.mpr ⟨hts, hvalid⟩),
      Path.ofNames_inj hts hos, if_neg hroot, List.append_cancel_right_eq]
    simp only [hroot, not_false_eq_true, false_or, true_and]
    rw [← List.append_assoc, ← List.append_assoc]
    constructor
    · intro h
      obtain ⟨hdirs, hnames⟩ := List.append_inj' h rfl
      exact ⟨(List.cons.inj hnames).1, (List.append_cancel_right hdirs).symm⟩
    · rintro ⟨rfl, rfl⟩
      rfl

end

end Layout

/-! ## Expected and written -/

/-- What lies strictly inside two directories has one list of names, with those of either in front. -/
theorem Path.exists_common_names {a b p : Path} (ha : a.isAbsolute = true) (hb : b.isAbsolute = true)
    (hpa : p.StrictlyWithin a) (hpb : p.StrictlyWithin b) :
    ∃ rs inner es front n, (∀ k ∈ es ++ (front ++ [n]), ValidName k) ∧ rs ++ inner = es ++ front ∧
      a.normalize = ofNames rs ∧ b.normalize = ofNames es ∧
      p.normalize = ofNames (es ++ (front ++ [n])) := by
  obtain ⟨rs, inner, n, hrs, hrn, hp⟩ := exists_strictlyWithin ha hpa
  obtain ⟨es, front, n', hes, hen, hp'⟩ := exists_strictlyWithin hb hpb
  have hnames := (ofNames_inj hrs hes).mp (hp.symm.trans hp')
  rw [← List.append_assoc, ← List.append_assoc] at hnames
  exact ⟨rs, inner, es, front, n', hes, (List.append_inj' hnames rfl).1, hrn, hen, hp'⟩

/-- Every plan expects a declaration where its entry says. -/
theorem declaration_of_mem_plans {entries : List Entry} {types outDir entryRoot : Path} {e : Entry}
    {plan : IndexPlan} (h : (e, plan) ∈ entries.zip (planIndexFiles entries types outDir entryRoot)) :
    plan.declaration = e.emittedDeclaration entryRoot outDir := by
  rw [planIndexFiles, ← List.map_prod_left_eq_zip] at h
  obtain ⟨e', -, heq⟩ := List.mem_map.mp h
  obtain ⟨rfl, rfl⟩ := Prod.mk.inj heq
  rfl

/-- **Declarations of entries are where root files expect them** if and only if the source is no JavaScript,
    its extension carries no module kind, and cleaning leaves the record alone — or renames the entry root
    itself, which is still written to the output directory. -/
theorem declaration_eq_finalPath_iff {σ : Type} {c : StagedCompiler σ} {h : Host σ StagedProgram}
    (hcompiler : h.compiler = c.compiler) {p : StagedProgram} {l : Layout}
    (hpublic : l.publicRoot = p.emitRoot) (hstaging : p.staging.isAbsolute = true)
    (hemit : p.emitRoot.isAbsolute = true) (hentry : l.entryRoot.isAbsolute = true)
    (hout : l.outDir.isAbsolute = true) {entries : List Entry} {types : Path} {e : Entry} {plan : IndexPlan}
    (hplan : (e, plan) ∈ entries.zip (planIndexFiles entries types l.outDir l.entryRoot))
    (hfolded : e.source.normalize = e.source) (hplain : e.source.Plain)
    (hin : e.source.StrictlyWithin p.emitRoot) (hbelow : e.source.StrictlyWithin l.entryRoot) :
    ∃ name, p.declaration? e.source = some name ∧
      let key := h.emittedKey p l.publicRoot name
      let root := l.entryRoot.normalize
      ∀ text, plan.declaration = (l.prepare key text).1.path ↔
        (isJavaScript e.source.text = false ∧ modulePrefix e.source.text = []) ∧
          (l.sourcePath key = key ∨
            l.sourcePath root ≠ root ∧ l.finalPath root = l.outDir.normalize) := by
  obtain ⟨os, hos, hon⟩ := Path.exists_ofNames hout
  obtain ⟨rs, inner, es, front, n, hes, hdirs, hrn, hen, hsource⟩ :=
    Path.exists_common_names hemit hentry hin hbelow
  obtain ⟨hroot, hfile⟩ := List.forall_mem_append.mp hes
  have hn : ValidName n := hfile n (by simp)
  have hemitted := ScriptName.validName_emittedName hn
  have hvalid : ∀ k ∈ es ++ front ++ [n], ValidName k := by rwa [List.append_assoc]
  have hplace : e.source = ofNames (es ++ front ++ [n]) := by rw [← hfolded, hsource, List.append_assoc]
  have hexpected : plan.declaration = ofNames (os ++ (front ++ [expectedName n])) := by
    have hnew := validName_replace hfile (ScriptName.validName_expectedName hn)
    rw [declaration_of_mem_plans hplan, Entry.emittedDeclaration_eq hvalid hplace hplain, List.append_assoc]
    exact Path.resolve_relative_below hroot hos hnew hen hon
      (Path.normalize_ofNames (List.forall_mem_append.mpr ⟨hroot, hnew⟩))
  -- The compiler looks at the names below its own root.
  have hname : p.declaration? e.source = some (Path.ofComponents (names (inner ++ [emittedName n]))) := by
    rw [← List.append_assoc, ← hdirs, List.append_assoc] at hes hsource
    exact StagedProgram.declaration?_eq hes hrn hsource (hplain.relative p.emitRoot)
  have hkey : h.emittedKey p l.publicRoot (Path.ofComponents (names (inner ++ [emittedName n])))
      = ofNames (es ++ (front ++ [emittedName n])) := by
    have hdir : (h.compiler.currentDir p).isAbsolute = true := by rwa [hcompiler]
    have hrecord : ∀ k ∈ rs ++ (inner ++ [emittedName n]), ValidName k := by
      rw [← List.append_assoc, hdirs]
      exact validName_replace hvalid hemitted
    rw [hpublic, Host.emittedKey_ofNames hdir hrn hrecord, ← List.append_assoc, hdirs, List.append_assoc]
  refine ⟨_, hname, fun text => ?_⟩
  obtain ⟨stem, hstem, hspell⟩ := Path.exists_stem_ofNames (es ++ front)
  have hclean : '\\' ∉ stem ++ n := by
    rwa [← hspell hvalid, ← hplace]
  have hmark := Path.separator_not_mem hn hclean
  rw [hkey, hexpected, Layout.path_prepare, hen, hon,
    Layout.finalPath_eq_iff hroot hos hen hon (validName_replace hfile hemitted)
      (ScriptName.validName_expectedName hn) (ScriptName.length_emittedName_le n),
    ScriptName.expectedName_eq_iff, hplace, hspell hvalid, ScriptName.isJavaScript_behind hstem hmark,
    ScriptName.modulePrefix_behind hstem hmark]

/-- A program whose sources are all below one directory. -/
def stagedProgram : StagedProgram where
  setup := { command := ["tsc"], root := "/p", filter := ⟨"/p", [], []⟩ }
  options := {}
  files := {}
  emitRoot := "/p/src"
  staging := "/tmp/declpack-XXXXXX"

/-- A compiler that is run as a tool. -/
def stagedCompiler : StagedCompiler Files.Memory where
  files := Files.Memory.store
  tools := ⟨fun _ _ _ w => (.ok (0, []), w)⟩
  temporaryDir := "/tmp"

/-- A host for such programs. -/
def stagedHost : Host Files.Memory StagedProgram where
  options := .ofRoot "/p"
  files := Files.Memory.store
  compiler := stagedCompiler.compiler
  registry := .withBuiltIns []

/-- Declarations of components drop the component's extension. -/
def cleaningLayout : Layout where
  steps := {}
  cleanComponents := true
  currentDir := "/tmp/declpack-XXXXXX"
  publicRoot := "/p/src"
  entryRoot := "/p/src"
  outDir := "/p/dist"

theorem declaration_eq_finalPath_iff_button :
    let e : Entry := .ofPath "/p" "src/ui/Button.ts"
    let plan : IndexPlan := ⟨"/p/dist/index.d.ts", "/p/dist/ui/Button.d.ts", "./ui/Button".toList⟩
    ((e, plan) ∈ [e].zip (planIndexFiles [e] "/p/dist/index.d.ts" "/p/dist" "/p/src") ∧
      e.source.normalize = e.source ∧ e.source.Plain ∧ e.source.StrictlyWithin "/p/src") ∧
    ∃ name, stagedProgram.declaration? e.source = some name ∧
      let key := stagedHost.emittedKey stagedProgram "/p/src" name
      let root := Path.normalize "/p/src"
      ∀ text, plan.declaration = (cleaningLayout.prepare key text).1.path ↔
        (isJavaScript e.source.text = false ∧ modulePrefix e.source.text = []) ∧
          (cleaningLayout.sourcePath key = key ∨
            cleaningLayout.sourcePath root ≠ root ∧
              cleaningLayout.finalPath root = Path.normalize "/p/dist") := by
  intro e plan
  have hplan : (e, plan) ∈ [e].zip (planIndexFiles [e] "/p/dist/index.d.ts" "/p/dist" "/p/src") := by
    decide +kernel
  have hfolded : e.source.normalize = e.source := by decide +kernel
  have hplain : e.source.Plain := by decide +kernel
  have hin : e.source.StrictlyWithin "/p/src" := by decide +kernel
  refine ⟨⟨hplan, hfolded, hplain, hin⟩, ?_⟩
  exact declaration_eq_finalPath_iff (c := stagedCompiler) (h := stagedHost) (p := stagedProgram)
    (l := cleaningLayout) rfl rfl (by decide +kernel) (by decide +kernel) (by decide +kernel)
    (by decide +kernel) hplan hfolded hplain hin hin

/-- The declarations of an ES module, of a script and of a component are written under other names than
    they are expected under. -/
theorem declaration_missed :
    let sources : List (Path × Path × Path) :=
      [("src/main.mts", "/p/dist/main.d.ts", "/p/dist/main.d.mts"),
        ("src/util.js", "/p/dist/util.js.d.ts", "/p/dist/util.d.ts"),
        ("src/ui/App.vue", "/p/dist/ui/App.vue.d.ts", "/p/dist/ui/App.d.ts")]
    let entries := sources.map fun (source, _) => Entry.ofPath "/p" source
    let written (e : Entry) : Option Path := (stagedProgram.declaration? e.source).map fun name =>
      (cleaningLayout.prepare (stagedHost.emittedKey stagedProgram "/p/src" name) []).1.path
    (planIndexFiles entries "/p/dist/index.d.ts" "/p/dist" "/p/src").map (·.declaration)
        = sources.map (fun (_, expected, _) => expected) ∧
      entries.map written = sources.map fun (_, _, place) => some place := by
  decide +kernel

end Typings
