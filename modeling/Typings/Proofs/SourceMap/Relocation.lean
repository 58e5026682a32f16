import Typings.DryRun.Program
import Typings.Files.Memory
import Typings.Output.Layout
import Typings.Proofs.Path.Below
import Typings.Proofs.SourceMap.RoundTrip
import Typings.Session

/-!
# `Relocation` — source maps that move

An emitted map is recorded below the public root and written below the output directory, and its sources
are rewritten so that they name the same files from there.  Two inverse pairs carry this.  The directory of
the record leads back to the directory that the map was emitted into (`emittedDir_emittedKey`), and a
source that is seen from another directory resolves to the same place there (`resolve_moveSource`).

* `parse?_rebaseSources?`, `rebaseSources?_eq_some`: the written map, with every source moved.
* `prepare_of_isSourceMap`, `prepare_of_unreadable`: what a recorded map becomes.
* `only_sources_change`: nothing else in a map changes, and what is no map does not move.
* `prepare_emittedKey`: an emitted map that is written names its old sources.
-/

namespace Typings

/-! ## One source -/

namespace SourceMap

/-- A moved source leads to the place that it led to before. -/
theorem resolve_moveSource {base : Path} {source : Text} (habs : base.isAbsolute = true)
    (hbase : base.Plain) (hsource : Path.Plain ⟨source⟩) (dir : Path) :
    dir.resolve ⟨moveSource base dir source⟩ = base.resolve ⟨source⟩ := by
  have hway : (dir.relative (base.resolve ⟨source⟩)).Plain := (hbase.resolve hsource).relative dir
  calc dir.resolve ⟨moveSource base dir source⟩
      = dir.resolve (dir.relative (base.resolve ⟨source⟩)) := by rw [moveSource, hway.toSlash]
    _ = (base.resolve ⟨source⟩).normalize := Path.resolve_relative (Path.isAbsolute_resolve habs _) dir
    _ = base.resolve ⟨source⟩ := Path.normalize_resolve base _

end SourceMap

/-! ## One map -/

/-- A map that moves is written, and is read again with every source moved and its doubles read anew. -/
theorem parse?_rebaseSources? {content : Text} {m : SourceMap} (h : SourceMap.parse? content = some m)
    (base dir : Path) :
    ∃ moved, rebaseSources? content base dir = some moved ∧
      SourceMap.parse? moved = some (m.again.mapSources (SourceMap.moveSource base dir)) := by
  have hlawful := (SourceMap.lawful_of_parse? h).mapSources (SourceMap.moveSource base dir)
  refine ⟨_, ?_, hlawful.parse?_render⟩
  rw [rebaseSources?, h]
  rfl

/-- A map that moves is written with every source moved. -/
theorem rebaseSources?_eq_some {content : Text} {m : SourceMap} (h : SourceMap.parse? content = some m)
    (base dir : Path) :
    ∃ moved m', rebaseSources? content base dir = some moved ∧ SourceMap.parse? moved = some m' ∧
      m'.sources = m.sources.map (SourceMap.moveSource base dir) := by
  obtain ⟨moved, hmoved, hread⟩ := parse?_rebaseSources? h base dir
  exact ⟨moved, _, hmoved, hread, rfl⟩

/-- A map with whole numbers is read again with other sources and else as it was. -/
theorem rebaseSources?_of_wholeNumbers {content : Text} {m : SourceMap}
    (h : SourceMap.parse? content = some m) (hwhole : Json.wholeNumbers content = true)
    (base dir : Path) :
    ∃ moved, rebaseSources? content base dir = some moved ∧ SourceMap.parse? moved =
      some { m with sources := m.sources.map (SourceMap.moveSource base dir) } := by
  obtain ⟨moved, hmoved, hread⟩ := parse?_rebaseSources? h base dir
  rw [SourceMap.again_of_parse? h hwhole] at hread
  exact ⟨moved, hmoved, hread⟩

theorem rebaseSources?_eq_none {content : Text} (h : SourceMap.parse? content = none)
    (base dir : Path) : rebaseSources? content base dir = none := by
  rw [rebaseSources?, h, Option.map_none]

/-! ## Records -/

section

variable {σ π : Type} {h : Host σ π} {p : π} {dir root name : Path}
  (hcurrent : h.compiler.currentDir p = dir) (hdir : dir.isAbsolute = true)
  (hroot : root.isAbsolute = true) (hin : (dir.resolve name).isWithin dir = true)
  (hne : dir.resolve name ≠ dir.normalize)

include hcurrent hdir hroot hin hne

/-- A recorded map is a map. -/
theorem Host.isSourceMap_emittedKey (hmap : name.isSourceMap = true) :
    (h.emittedKey p root name).isSourceMap = true := by
  obtain ⟨n, hn⟩ := Path.fileName?_of_isSourceMap hmap
  have hfile := (Path.below_parentDir hdir hroot hin (by rwa [Path.normalize_resolve])).1
  rw [Path.normalize_resolve, Path.fileName?_resolve hn, ← hn] at hfile
  rw [Host.emittedKey, hcurrent, Path.isSourceMap_congr hfile, hmap]

/-- **The directory of the record leads back** to the directory that the map was emitted into. -/
theorem Relocation.emittedDir_emittedKey (finalDir : Path) :
    Relocation.emittedDir ⟨dir, root, (h.emittedKey p root name).parentDir, finalDir⟩ =
      (dir.resolve name).parentDir := by
  have hback := (Path.below_parentDir hdir hroot hin (by rwa [Path.normalize_resolve])).2
  rw [Path.normalize_resolve] at hback
  rw [Relocation.emittedDir, Host.emittedKey, hcurrent, hback]

end

namespace Layout

/-- A recorded map is written where every record is, with its sources moved, and without a warning. -/
theorem prepare_of_isSourceMap {l : Layout} {recorded : Path} {content : Text} {m : SourceMap}
    (hmap : recorded.isSourceMap = true) (h : SourceMap.parse? content = some m) :
    ∃ moved m', l.prepare recorded content = (⟨l.finalPath recorded, moved⟩, []) ∧
      SourceMap.parse? moved = some m' ∧
      m'.sources = m.sources.map (SourceMap.moveSource (l.relocation recorded).emittedDir
        (l.finalPath recorded).parentDir) := by
  obtain ⟨moved, m', hmoved, hread, hsources⟩ :=
    rebaseSources?_eq_some h (l.relocation recorded).emittedDir (l.finalPath recorded).parentDir
  refine ⟨moved, m', ?_, hread, hsources⟩
  have hrelocate : relocateSources? content (l.relocation recorded) = some moved := hmoved
  rw [prepare, if_pos hmap, hrelocate]

/-- A record that is no map is written as it is, with a warning. -/
theorem prepare_of_unreadable {l : Layout} {recorded : Path} {content : Text}
    (hmap : recorded.isSourceMap = true) (h : SourceMap.parse? content = none) :
    l.prepare recorded content =
      (⟨l.finalPath recorded, content⟩, [.sourceMapFailed (l.finalPath recorded) unreadableMap]) := by
  have hrelocate : relocateSources? content (l.relocation recorded) = none :=
    rebaseSources?_eq_none h _ _
  rw [prepare, if_pos hmap, hrelocate]

/-- **A map that moves changes in its sources only.**  A text that is a map, and whose numbers are
    integers of 64 bits, is written with each source moved and is read again with all else as it was.  A text
    that is no map does not move: a record with such a text is written as it is, with one warning. -/
theorem only_sources_change (content : Text) :
    (∀ m, SourceMap.parse? content = some m → Json.wholeNumbers content = true →
        (∀ base dir : Path, ∃ moved, rebaseSources? content base dir = some moved ∧
          SourceMap.parse? moved =
            some { m with sources := m.sources.map (SourceMap.moveSource base dir) }) ∧
        ∀ r : Relocation, ∃ moved, relocateSources? content r = some moved ∧
          SourceMap.parse? moved =
            some { m with sources := m.sources.map (SourceMap.moveSource r.emittedDir r.finalDir) }) ∧
      (SourceMap.parse? content = none →
        (∀ base dir : Path, rebaseSources? content base dir = none) ∧
        (∀ r : Relocation, relocateSources? content r = none) ∧
        ∀ (l : Layout) (recorded : Path), recorded.isSourceMap = true →
          l.prepare recorded content = (⟨l.finalPath recorded, content⟩,
            [.sourceMapFailed (l.finalPath recorded) unreadableMap])) := by
  constructor
  · intro m h hwhole
    exact ⟨rebaseSources?_of_wholeNumbers h hwhole,
      fun r => rebaseSources?_of_wholeNumbers h hwhole r.emittedDir r.finalDir⟩
  · intro h
    exact ⟨rebaseSources?_eq_none h, fun r => rebaseSources?_eq_none h r.emittedDir r.finalDir,
      fun l recorded hmap => prepare_of_unreadable hmap h⟩

/-- A map with escapes, a field that is `null`, keys out of order and twice, and the outermost numbers. -/
def richMap : Text :=
  "\x7b\"x_b\":[18446744073709551615,-9223372036854775808,-0,\x7b\"b\":1,\"a\":[]\x7d],\"file\":null," ++
    "\"mappings\":\"AA;\\u0001\\n\",\"sources\":[\"a.ts\",\"\\u002e./\\ud83d\\ude00.ts\"]," ++
    "\"version\":3,\"x_a\":0,\"names\":[\"\\\"\\/\"],\"x_a\":true\x7d"

/-- The map as it is written. -/
def richMapWritten : Text :=
  "\x7b\"version\":3,\"sources\":[\"a.ts\",\"../😀.ts\"],\"mappings\":\"AA;\\u0001\\n\"," ++
    "\"names\":[\"\\\"/\"],\"x_a\":true," ++
    "\"x_b\":[18446744073709551615,-9223372036854775808,-0.0,\x7b\"a\":[],\"b\":1\x7d]\x7d"

theorem only_sources_change_richMap :
    ∃ m moved, SourceMap.parse? richMap = some m ∧ m.render = richMapWritten ∧
      Json.wholeNumbers richMap = true ∧ rebaseSources? richMap "/p/src" "/p/dist" = some moved ∧
      SourceMap.parse? moved =
        some { m with sources := ["../src/a.ts".toList, "../😀.ts".toList] } := by
  have hread : (SourceMap.parse? richMap).map (fun m => (m.render, m.sources)) =
      some (richMapWritten, ["a.ts".toList, "../😀.ts".toList]) := by
    unfold richMap richMapWritten
    repeat rw [Text.toList_literal rfl]
    decide +kernel
  have hwhole : Json.wholeNumbers richMap = true := by
    unfold richMap
    repeat rw [Text.toList_literal rfl]
    decide +kernel
  obtain ⟨m, hparse, hm⟩ := Option.map_eq_some_iff.1 hread
  obtain ⟨hwritten, hsources⟩ := Prod.mk.injEq .. ▸ hm
  obtain ⟨moved, hmoved, hagain⟩ :=
    ((only_sources_change richMap).1 m hparse hwhole).1 "/p/src" "/p/dist"
  have hplaces : ["a.ts".toList, "../😀.ts".toList].map (SourceMap.moveSource "/p/src" "/p/dist") =
      ["../src/a.ts".toList, "../😀.ts".toList] := by decide +kernel
  rw [hsources, hplaces] at hagain
  exact ⟨m, moved, hparse, hwritten, hwhole, hmoved, hagain⟩

/-- **An emitted map that is written names its old sources.**  It is recorded at the key of its name and
    written as the layout says; it is read again with as many sources, and each of them leads from the
    directory of the written file where the old one led from the directory of the emitted file. -/
theorem prepare_emittedKey {σ π : Type} {h : Host σ π} {p : π} {l : Layout} {name : Path}
    {content : Text} {m : SourceMap} (hcurrent : h.compiler.currentDir p = l.currentDir)
    (hdir : l.currentDir.isAbsolute = true) (hroot : l.publicRoot.isAbsolute = true)
    (hmap : name.isSourceMap = true)
    (hin : (l.currentDir.resolve name).isWithin l.currentDir = true)
    (hne : l.currentDir.resolve name ≠ l.currentDir.normalize)
    (hparse : SourceMap.parse? content = some m) (hplain : l.currentDir.Plain)
    (hname : name.Plain) (hsources : ∀ s ∈ m.sources, Path.Plain ⟨s⟩) :
    let key := h.emittedKey p l.publicRoot name
    ∃ moved m', l.prepare key content = (⟨l.finalPath key, moved⟩, []) ∧
      SourceMap.parse? moved = some m' ∧ m'.sources.length = m.sources.length ∧
      ∀ (i : Nat) (hi : i < m.sources.length) (hi' : i < m'.sources.length),
        (l.finalPath key).parentDir.resolve ⟨m'.sources[i]⟩ =
          (l.currentDir.resolve name).parentDir.resolve ⟨m.sources[i]⟩ := by
  intro key
  have hkey : key.isSourceMap = true := Host.isSourceMap_emittedKey hcurrent hdir hroot hin hne hmap
  have hemitted : (l.relocation key).emittedDir = (l.currentDir.resolve name).parentDir :=
    Relocation.emittedDir_emittedKey hcurrent hdir hroot hin hne _
  have hbase : (l.currentDir.resolve name).parentDir.isAbsolute = true := by
    rw [← hemitted]
    exact Path.isAbsolute_resolve hdir _
  have hbasePlain : (l.currentDir.resolve name).parentDir.Plain := (hplain.resolve hname).parentDir
  obtain ⟨moved, m', hprepare, hread, hmoved⟩ := prepare_of_isSourceMap (l := l) hkey hparse
  refine ⟨moved, m', hprepare, hread, by rw [hmoved, List.length_map], ?_⟩
  intro i hi hi'
  rw [hemitted] at hmoved
  have hsource : m'.sources[i] = SourceMap.moveSource (l.currentDir.resolve name).parentDir
      (l.finalPath key).parentDir m.sources[i] := by
    simp only [hmoved, List.getElem_map]
  rw [hsource, SourceMap.resolve_moveSource hbase hbasePlain (hsources _ (List.getElem_mem hi))]

/-- Declarations that are emitted in one directory, recorded in another and written in a third. -/
def typesLayout : Layout where
  steps := {}
  cleanComponents := true
  currentDir := "/p/types"
  publicRoot := "/p/src"
  entryRoot := "/p"
  outDir := "/p/dist/es"

/-- A map of a component's declaration. -/
def buttonMap : Text :=
  "\x7b\"version\":3,\"sources\":[\"../../src/ui/Button.vue\",\"/lib/h.ts\"],\"mappings\":\"AAAA\"\x7d"

/-- A program that emits into the directory of the layout. -/
def typesProgram : DryRun.TableProgram := { currentDir := "/p/types" }

/-- A host for such programs. -/
def typesHost : Host Files.Memory DryRun.TableProgram where
  options := .ofRoot "/p"
  files := Files.Memory.store
  compiler := DryRun.TableProgram.compiler
  registry := .withBuiltIns []

theorem prepare_emittedKey_button :
    let key := typesHost.emittedKey typesProgram "/p/src" "./ui/Button.vue.d.ts.map"
    key = "/p/src/ui/Button.vue.d.ts.map" ∧
      typesLayout.finalPath key = "/p/dist/es/src/ui/Button.d.ts.map" ∧
      ∃ m moved m', SourceMap.parse? buttonMap = some m ∧
        m.sources = ["../../src/ui/Button.vue".toList, "/lib/h.ts".toList] ∧
        typesLayout.prepare key buttonMap = (⟨typesLayout.finalPath key, moved⟩, []) ∧
        SourceMap.parse? moved = some m' ∧ m'.sources.length = m.sources.length ∧
        ∀ (i : Nat) (hi : i < m.sources.length) (hi' : i < m'.sources.length),
          (typesLayout.finalPath key).parentDir.resolve ⟨m'.sources[i]⟩ =
            (Path.resolve "/p/types" "./ui/Button.vue.d.ts.map").parentDir.resolve ⟨m.sources[i]⟩ := by
  have hsources : (SourceMap.parse? buttonMap).map SourceMap.sources =
      some ["../../src/ui/Button.vue".toList, "/lib/h.ts".toList] := by
    unfold buttonMap
    repeat rw [Text.toList_literal rfl]
    decide +kernel
  obtain ⟨m, hparse, hm⟩ := Option.map_eq_some_iff.1 hsources
  obtain ⟨moved, m', hwritten⟩ := @prepare_emittedKey _ _ typesHost typesProgram typesLayout
    "./ui/Button.vue.d.ts.map" buttonMap m rfl
    (by decide +kernel) (by decide +kernel) (by decide +kernel) (by decide +kernel)
    (by decide +kernel) hparse (by decide +kernel) (by decide +kernel)
    (by rw [hm]; decide +kernel)
  exact ⟨by decide +kernel, by decide +kernel, m, moved, m', hparse, hm, hwritten⟩

end Layout

end Typings
