import Typings.Proofs.Library.Declarations
import Typings.Proofs.Path.Parents
import Typings.Resolver.BuiltIn

/-!
# `Mirror` — records lie as the sources do

The compiler lays declarations out below its own root, a directory for temporary files, and a session records
them below the public root.  The two roots are found from the same options and the same sources, so they are
one place (`normalize_emitRoot`), and the detour over the temporary directory leaves no trace: what is a way of
names below one root is the same way below the other.  So the record of a declaration lies beside its source.

Names are written with slashes on that way, so a backslash in a name below the root becomes one; only a source
without it is mirrored.

* `CompilerSetup.Configured`, `StagedProgram.Fresh`: the programs that a compiler starts out with.
* `StagedProgram.normalize_emitRoot`: the two roots.
* `Host.emittedKey_names`, `Host.resolvedKey_names`: the detours.
* `StagedProgram.records_mirror`: both roots, and the records of scripts, documents and components.
-/

namespace Typings

open Typings.Path (ofNames names ValidName)
open ScriptName (emittedName)

variable {σ π : Type}

/-! ## The two roots -/

theorem TsConfig.options_of_parse {path : Path} {content : Text} {config : TsConfig}
    (h : TsConfig.parse path content = .ok config) :
    config.options.configFile = some path ∧
      ∀ dir, config.options.rootDir = some dir → ∃ given, dir = path.parentDir.resolve given := by
  rw [parse] at h
  cases hread : (Json.readWritten? (stripComments content)).bind (ofWritten? path) with
  | none =>
      rw [hread] at h
      exact nomatch h
  | some c =>
      rw [hread] at h
      obtain rfl := Except.ok.inj h
      obtain ⟨w, -, hw⟩ := Option.bind_eq_some_iff.mp hread
      simp only [ofWritten?, Option.bind_eq_bind, Option.bind_eq_some_iff] at hw
      obtain ⟨fields, -, raw, -, included, -, excluded, -, files, -, options, -, hc⟩ := hw
      obtain rfl := Option.some.inj hc
      refine ⟨rfl, fun dir hdir => ?_⟩
      obtain ⟨given, -, rfl⟩ := Option.map_eq_some_iff.mp hdir
      exact ⟨given, rfl⟩

/-- There is no configuration, or it is the one of a file that is given by an absolute path. -/
inductive CompilerSetup.Configured (c : CompilerSetup) : Prop where
  | plain (hconfig : c.config = none)
  | parsed {path up : Path} {content : Text} {config : TsConfig} (hpath : path.isAbsolute = true)
    (hup : path.parent? = some up) (hparse : TsConfig.parse path content = .ok config)
    (hconfig : c.config = some config)

namespace StagedProgram

/-- The program works with the options it was set up with, and with the emit root of its sources. -/
structure Fresh (p : StagedProgram) : Prop where
  options : p.options = p.setup.options
  emitRoot : p.emitRoot = Typings.emitRoot p.options p.files

/-- **The two roots are one place.** -/
theorem normalize_emitRoot {c : StagedCompiler σ} {h : Host σ StagedProgram} (hcompiler : h.compiler = c.compiler)
    {p : StagedProgram} (hp : p.Fresh) (hsetup : p.setup.Configured) :
    p.emitRoot.normalize = h.publicRoot p := by
  have hoptions : h.compiler.options p = p.setup.options := by
    rw [hcompiler]
    exact hp.options
  have hfound : ((h.compiler.sources p).filter (h.compiler.isEmitted p)).map (·.path)
      = (p.files.values.filter fun f =>
          ScriptName.isEmitted f.path.text p.setup.options.skipJavaScript && !isInstalled f.path).map
            (·.path) := by
    rw [hcompiler, ← hp.options]
    rfl
  rw [hp.emitRoot, hp.options, Host.publicRoot, hoptions, hfound, Typings.emitRoot]
  cases hsetup with
  | plain hconfig =>
      have hnone : p.setup.options = {} := by rw [CompilerSetup.options, hconfig]
      rw [hnone]
  | @parsed path up content config hpath hup hparse hconfig =>
      have hsome : p.setup.options = config.options := by rw [CompilerSetup.options, hconfig]
      obtain ⟨hfile, hdir⟩ := TsConfig.options_of_parse hparse
      rw [hsome, hfile]
      cases hroot : config.options.rootDir with
      | none => rfl
      | some dir =>
          -- The configuration gives its directories as they are seen from its own.
          obtain ⟨given, rfl⟩ := hdir dir hroot
          have hparent : path.parentDir.isAbsolute = true := by
            rw [Path.parentDir, hup]
            exact (Path.isAbsolute_of_parent? hup).trans hpath
          dsimp only
          rw [Path.resolve_of_isAbsolute (Path.isAbsolute_resolve hparent given), Path.normalize_normalize]

end StagedProgram

/-! ## The detours -/

section

variable {h : Host σ π} {root : Path} {rs down : List Text} (hroot : root.normalize = ofNames rs)
  (hvalid : ∀ m ∈ rs ++ down, ValidName m)

include hroot hvalid

/-- A way of names, gone from one directory and seen from there, leads on from another. -/
theorem Path.resolve_way_names (dir : Path) :
    root.resolve (dir.relative (dir.resolve (Path.ofComponents (names down)))) = ofNames (rs ++ down) := by
  obtain ⟨hrs, hdown⟩ := List.forall_mem_append.mp hvalid
  have hplace := Path.resolve_climb hrs hdown hroot 0
  rw [Nat.sub_zero, List.take_length] at hplace
  rw [Path.relative_resolve_names dir hdown]
  exact hplace

theorem Host.emittedKey_names (p : π) :
    h.emittedKey p root (Path.ofComponents (names down)) = ofNames (rs ++ down) :=
  Path.resolve_way_names hroot hvalid _

theorem Host.resolvedKey_names :
    h.resolvedKey root (Path.ofComponents (names down)) = ofNames (rs ++ down) :=
  Path.resolve_way_names hroot hvalid _

end

/-! ## Longer names -/

/-- A name with an ending of three characters or more is a name. -/
theorem Path.ValidName.append {n t : Text} (hn : ValidName n) (ht : '/' ∉ t) (hlong : 3 ≤ t.length) :
    ValidName (n ++ t) := by
  have hlength : 3 ≤ (n ++ t).length := by
    rw [List.length_append]
    omega
  refine ⟨?_, ?_, ?_, fun hmem => (List.mem_append.mp hmem).elim hn.2.2.2 ht⟩ <;>
    · intro heq
      rw [heq] at hlength
      exact absurd hlength (by decide)

section

variable {front : List Text} {n t : Text} (hn : ∀ m ∈ front ++ [n], ValidName m)
  (hnt : ValidName (n ++ t))

include hn hnt

/-- An ending goes to the last name. -/
theorem Path.append_names :
    (Path.ofComponents (names (front ++ [n]))).append t = Path.ofComponents (names (front ++ [n ++ t])) := by
  obtain ⟨stem, -, hspell⟩ := Path.exists_stem front
  have htext : (Path.ofComponents (names (front ++ [n]))).text ++ t
      = (Path.ofComponents (names (front ++ [n ++ t]))).text := by
    rw [Path.text_ofComponents_names hn, Path.text_ofComponents_names (validName_replace hn hnt), hspell,
      hspell, List.append_assoc]
  exact congrArg Path.mk htext

theorem Path.append_ofNames : (ofNames (front ++ [n])).append t = ofNames (front ++ [n ++ t]) := by
  obtain ⟨stem, -, hspell⟩ := Path.exists_stem_ofNames front
  have htext : (ofNames (front ++ [n])).text ++ t = (ofNames (front ++ [n ++ t])).text := by
    rw [hspell hn, hspell (validName_replace hn hnt), List.append_assoc]
  exact congrArg Path.mk htext

end

/-! ## Records -/

section

variable {h : Host σ StagedProgram} {p : StagedProgram} {root : Path}

/-- The declaration of a source inside the emit root is recorded beside the source, and so is its map. -/
theorem StagedProgram.emittedKey_declaration (hroots : p.emitRoot.normalize = root)
    (habs : root.isAbsolute = true) {source : Path} (hin : source.StrictlyWithin root)
    (hplain : (root.relative source).Plain) :
    ∃ name, p.declaration? source = some name ∧
      let place : Path := ⟨emittedName source.normalize.text⟩
      h.emittedKey p root name = place ∧ h.emittedKey p root (name.append ".map") = place.append ".map" := by
  have hfolded : root.normalize = p.emitRoot.normalize := by rw [← hroots, Path.normalize_normalize]
  obtain ⟨rs, front, n, hvalid, hrn, hsource⟩ := Path.exists_strictlyWithin habs hin
  have hbelow := (List.forall_mem_append.mp hvalid).2
  have hn : ValidName n := hbelow n (by simp)
  have hemitted := ScriptName.validName_emittedName hn
  have hmapped : ValidName (emittedName n ++ ".map") := hemitted.append (by decide) (by decide)
  -- The last name has no separator in it, since the way to the source has none but slashes.
  have hmark : ∀ c ∈ n, c ≠ '/' ∧ c ≠ '\\' := by
    obtain ⟨stem, -, hspell⟩ := Path.exists_stem front
    rw [Path.relative_below hvalid hrn hsource, Path.Plain, Path.text_ofComponents_names hbelow,
      hspell] at hplain
    exact Path.separator_not_mem hn hplain
  have hname := StagedProgram.declaration?_eq hvalid (hfolded ▸ hrn) hsource
    (Path.relative_congr hfolded source ▸ hplain)
  rw [← List.append_assoc] at hvalid hsource
  have hrecord := validName_replace hvalid hemitted
  have hplace : (⟨emittedName source.normalize.text⟩ : Path) = ofNames (rs ++ front ++ [emittedName n]) := by
    obtain ⟨stem, hstem, hspell⟩ := Path.exists_stem_ofNames (rs ++ front)
    have htext : emittedName source.normalize.text = (ofNames (rs ++ front ++ [emittedName n])).text := by
      rw [hsource, hspell hvalid, ScriptName.emittedName_behind hstem hmark, hspell hrecord]
    exact congrArg Path.mk htext
  refine ⟨_, hname, ?_, ?_⟩
  · rw [List.append_assoc] at hrecord hplace
    rw [hplace]
    exact Host.emittedKey_names hrn hrecord p
  · have hrecordMap := validName_replace hvalid hmapped
    rw [hplace, Path.append_ofNames hrecord hmapped, Path.append_names (validName_replace hbelow hemitted) hmapped,
      List.append_assoc]
    rw [List.append_assoc] at hrecordMap
    exact Host.emittedKey_names hrn hrecordMap p

end

section

variable {h : Host σ π} {root : Path}

/-- An output that lies beside its source, seen from the root, is recorded there. -/
theorem Host.resolvedKey_besideIt (habs : root.isAbsolute = true) {id : Path} (hid : id.normalize = id)
    (hin : id.StrictlyWithin root) (code : Text) (outDir : Path) :
    h.resolvedKey root (Loaded.besideIt ⟨id, code, root, outDir⟩) = id.append ".d.ts" := by
  obtain ⟨rs, front, n, hvalid, hrn, hplace⟩ := Path.exists_strictlyWithin habs hin
  have hn : ValidName n := hvalid n (by simp)
  have hlonger : ValidName (n ++ ".d.ts") := hn.append (by decide) (by decide)
  rw [hid, ← List.append_assoc] at hplace
  rw [← List.append_assoc] at hvalid
  have hbeside := validName_replace hvalid hlonger
  have hplaces : id.append ".d.ts" = ofNames (rs ++ (front ++ [n ++ ".d.ts"])) := by
    rw [hplace, Path.append_ofNames hvalid hlonger, List.append_assoc]
  rw [List.append_assoc] at hbeside
  have hway : Loaded.besideIt ⟨id, code, root, outDir⟩ = Path.ofComponents (names (front ++ [n ++ ".d.ts"])) := by
    rw [Loaded.besideIt, hplaces]
    exact Path.relative_below hbeside hrn (Path.normalize_ofNames hbeside)
  rw [hway, hplaces]
  exact Host.resolvedKey_names hrn hbeside

/-- The resolvers of documents and of components with one declaration for all put it beside the source. -/
theorem besideIt_of_mem_outputs {r : Resolver σ π} (hr : r ∈ [jsonResolver, svelteResolver])
    (c : Compiler σ π) (w : σ) (source : Loaded) (p : π) :
    ∃ outputs, r.outputs c w source p = .ok outputs p ∧ ∀ o ∈ outputs, o.path = source.besideIt := by
  simp only [List.mem_cons, List.not_mem_nil, or_false] at hr
  rcases hr with rfl | rfl
  · have hget (k : π → EStateM BuildError π (List OutputFile)) : (get >>= k) p = k p p := rfl
    simp only [jsonResolver, hget]
    cases c.source? p source.path with
    | none => exact ⟨[], rfl, by simp⟩
    | some file => exact ⟨_, rfl, by simp⟩
  · exact ⟨_, rfl, by simp⟩

end

/-- **Records lie as the sources do.**  A program works with its options as they were read, be it none or those
    of a configuration file, and with the emit root of its sources.  Then the emit root is the public root that
    a session finds for it.  If that is absolute, then a source strictly inside it, to which no backslash leads,
    has a declaration, and this is recorded under the place of the source with the ending of its declaration,
    and its map behind that; and whatever the resolvers of documents and components make is recorded under the
    place of the source with `.d.ts` behind it, whichever the temporary directory and the output directory
    are. -/
theorem StagedProgram.records_mirror {c : StagedCompiler σ} {h : Host σ StagedProgram}
    (hcompiler : h.compiler = c.compiler) {p : StagedProgram} (hp : p.Fresh) (hsetup : p.setup.Configured) :
    let root := h.publicRoot p
    p.emitRoot.normalize = root ∧ (root.isAbsolute = true →
      (∀ source : Path, source.StrictlyWithin root → (root.relative source).Plain →
        ∃ name, p.declaration? source = some name ∧
          let place : Path := ⟨emittedName source.normalize.text⟩
          h.emittedKey p root name = place ∧ h.emittedKey p root (name.append ".map") = place.append ".map") ∧
      ∀ r ∈ [jsonResolver, svelteResolver], ∀ path code w, (sourceId path).StrictlyWithin root →
        ∃ outputs, r.outputs h.compiler w ⟨sourceId path, code, root, h.options.outDir⟩ p = .ok outputs p ∧
          ∀ o ∈ outputs, h.resolvedKey root o.path = (sourceId path).append ".d.ts") := by
  intro root
  have hroots : p.emitRoot.normalize = root := StagedProgram.normalize_emitRoot hcompiler hp hsetup
  refine ⟨hroots, fun habs => ⟨fun source hin hplain => ?_, fun r hr path code w hin => ?_⟩⟩
  · exact StagedProgram.emittedKey_declaration hroots habs hin hplain
  · obtain ⟨outputs, hrun, hbeside⟩ := besideIt_of_mem_outputs hr h.compiler w
      ⟨sourceId path, code, root, h.options.outDir⟩ p
    refine ⟨outputs, hrun, fun o ho => ?_⟩
    rw [hbeside o ho]
    exact Host.resolvedKey_besideIt habs (Path.normalize_normalize _) hin code h.options.outDir

/-- The program that a compiler starts out with for some sources. -/
def freshProgram (setup : CompilerSetup) (sources : List SourceFile) : StagedProgram :=
  let files := PathMap.ofList (sources.map fun f => (f.path, f))
  { setup
    options := setup.options
    files
    emitRoot := emitRoot setup.options files
    staging := "/tmp/declpack-XXXXXX" }

theorem fresh_freshProgram (setup : CompilerSetup) (sources : List SourceFile) :
    (freshProgram setup sources).Fresh := ⟨rfl, rfl⟩

/-- A setup with the configuration in a file, if it is one. -/
def configuredSetup (path : Path) (content : Text) : CompilerSetup :=
  { stagedProgram.setup with config := (TsConfig.parse path content).toOption }

/-- A configuration that names the root of the sources. -/
def sourceRootConfig : Text := "\x7b\"compilerOptions\":\x7b\"rootDir\":\"src\"\x7d\x7d"

/-- A project with a script, an ES module and a document. -/
def configuredProgram : StagedProgram :=
  freshProgram (configuredSetup "/p/tsconfig.json" sourceRootConfig)
    [⟨"/p/src/main.ts", ""⟩, ⟨"/p/src/utils/b.mts", ""⟩, ⟨"/p/src/data.json", "1"⟩]

theorem records_mirror_configuredProgram :
    let root := stagedHost.publicRoot configuredProgram
    root = "/p/src" ∧ configuredProgram.emitRoot.normalize = root ∧ (root.isAbsolute = true →
      (∀ source : Path, source.StrictlyWithin root → (root.relative source).Plain →
        ∃ name, configuredProgram.declaration? source = some name ∧
          let place : Path := ⟨emittedName source.normalize.text⟩
          stagedHost.emittedKey configuredProgram root name = place ∧
            stagedHost.emittedKey configuredProgram root (name.append ".map") = place.append ".map") ∧
      ∀ r ∈ [jsonResolver, svelteResolver], ∀ path code w, (sourceId path).StrictlyWithin root →
        ∃ outputs, r.outputs stagedHost.compiler w
            ⟨sourceId path, code, root, stagedHost.options.outDir⟩ configuredProgram
              = .ok outputs configuredProgram ∧
          ∀ o ∈ outputs, stagedHost.resolvedKey root o.path = (sourceId path).append ".d.ts") := by
  have hsetup : configuredProgram.setup.Configured := by
    have hsome : (TsConfig.parse "/p/tsconfig.json" sourceRootConfig).toOption.isSome = true := by
      decide +kernel
    cases hparse : TsConfig.parse "/p/tsconfig.json" sourceRootConfig with
    | error e =>
        rw [hparse] at hsome
        exact nomatch hsome
    | ok config =>
        have hconfig : configuredProgram.setup.config = some config := by
          rw [configuredProgram, freshProgram, configuredSetup, hparse]
          rfl
        exact .parsed (by decide) (show Path.parent? "/p/tsconfig.json" = some "/p" by decide +kernel) hparse
          hconfig
  exact ⟨by decide +kernel, StagedProgram.records_mirror (c := stagedCompiler) (h := stagedHost) rfl
    (fresh_freshProgram _ _) hsetup⟩

/-- A script with a backslash in its name is not mirrored: its declaration is recorded in another directory.
    And a configuration at the root of the file tree, which has no directory, names another emit root than
    public root. -/
theorem not_mirrored :
    let backslashed := freshProgram stagedProgram.setup [⟨"/p/src/a\\b.ts", ""⟩, ⟨"/p/src/main.ts", ""⟩]
    let source : Path := "/p/src/a\\b.ts"
    let root := stagedHost.publicRoot backslashed
    let rootless := freshProgram (configuredSetup "/" sourceRootConfig) [⟨"/p/src/main.ts", ""⟩]
    (root = "/p/src" ∧ source.StrictlyWithin root ∧ ScriptName.isScript source.text = true ∧
        emittedName source.normalize.text = "/p/src/a\\b.d.ts" ∧
        (backslashed.declaration? source).map (stagedHost.emittedKey backslashed root)
          = some ("/p/src/a/b.d.ts" : Path)) ∧
      (TsConfig.parse "/" sourceRootConfig).toOption.isSome = true ∧
        rootless.emitRoot.normalize = "src" ∧ stagedHost.publicRoot rootless = "/p/src" := by
  decide +kernel

end Typings
