import Mathlib.Data.List.Basic
import Typings.Files.Memory
import Typings.Proofs.Declaration.Cleaned
import Typings.Proofs.Output.Writes

/-!
# `Collisions` — records that are written to one file

Where a record is written depends on its place relative to the entry root.  A writer that keeps to the
output directory takes a record only from inside one directory, its origin, and moves it from there to the
output directory by the way that leads to it (`Layout.written_below`).  Records inside the entry root have
the entry root for their origin.  A record beside it has another one, if the way to it climbs up from the
output directory and comes back there.

So two records are written to one file if they are the same place after cleaning, or if they have different
origins and lie in them alike (`Layout.finalPath_eq_finalPath_iff`).  A flush writes every file once if and
only if no two of its records meet in this way (`Writer.writes_distinct_iff`).

* `Layout.place`, `Layout.origin`: where a record lies, and the directory that it is taken from.
* `Layout.Meets`: records that are written to one file.
* `Writer.output?_path`: which records are written.
-/

namespace Typings

open Typings.Path (ofNames names ValidName climb count_parent_climb)

namespace Layout

variable {l : Layout}

/-- The place a record is written for. -/
def place (l : Layout) (recorded : Path) : Path := (l.sourcePath recorded).normalize

/-- How far the way from the entry root to the record goes up. -/
def ascent (l : Layout) (recorded : Path) : Nat :=
  (l.entryRoot.relative (l.sourcePath recorded)).components.count .parent

/-- The directory whose contents are moved to the output directory along with the record: as far up from
    the entry root as the record is, and from there down as the output directory goes. -/
def origin (l : Layout) (recorded : Path) : Path :=
  let up := Path.ofComponents (climb (l.ascent recorded) [])
  (l.entryRoot.resolve up).resolve ((l.outDir.resolve up).relative l.outDir)

/-- The two records are the same place, or lie alike in different origins. -/
def Meets (l : Layout) (p q : Path) : Prop :=
  l.place p = l.place q ∨ l.origin p ≠ l.origin q ∧
    (l.origin p).relative (l.place p) = (l.origin q).relative (l.place q)

instance (l : Layout) (p q : Path) : Decidable (l.Meets p q) := inferInstanceAs (Decidable (_ ∨ _))

theorem isAbsolute_sourcePath {p : Path} (h : p.isAbsolute = true) :
    (l.sourcePath p).isAbsolute = true := by
  unfold sourcePath
  by_cases hc : l.cleanComponents = true
  · obtain ⟨t, ht⟩ := List.head?_eq_some_iff.mp (beq_iff_eq.mp h)
    have hroot := Declaration.cleanPath_slash [] t
    rw [if_neg (by decide), List.nil_append, List.nil_append] at hroot
    rw [if_pos hc, ht, hroot]
    rfl
  · rw [if_neg hc]
    exact h

theorem isAbsolute_place {p : Path} (h : p.isAbsolute = true) : (l.place p).isAbsolute = true := by
  rw [place, Path.isAbsolute_normalize]
  exact isAbsolute_sourcePath h

theorem normalize_place (l : Layout) (p : Path) : (l.place p).normalize = l.place p :=
  Path.normalize_normalize _

theorem normalize_finalPath (l : Layout) (p : Path) : (l.finalPath p).normalize = l.finalPath p :=
  Path.normalize_resolve _ _

theorem isAbsolute_finalPath (h : l.outDir.isAbsolute = true) (p : Path) :
    (l.finalPath p).isAbsolute = true := Path.isAbsolute_resolve h _

/-- Where a record is written depends on its place alone. -/
theorem finalPath_eq_place (l : Layout) (p : Path) :
    l.finalPath p = l.outDir.resolve (l.entryRoot.relative (l.place p)) := by
  rw [finalPath, place, Path.relative, Path.relative, Path.normalize_normalize]

/-- The origin, by the names on the way to the record. -/
theorem origin_eq {p : Path} {common down up os : List Text} (hes : ∀ n ∈ common ++ up, ValidName n)
    (hos : ∀ n ∈ os, ValidName n) (hts : ∀ n ∈ common ++ down, ValidName n)
    (hen : l.entryRoot.normalize = ofNames (common ++ up)) (hon : l.outDir.normalize = ofNames os)
    (htn : (l.sourcePath p).normalize = ofNames (common ++ down)) (h : Path.Parted down up) :
    l.origin p = ofNames (common ++ os.drop (os.length - up.length)) := by
  obtain ⟨hcommon, hdown⟩ := List.forall_mem_append.mp hts
  have hascent : l.ascent p = up.length := by
    rw [ascent, Path.relative_of_parted hes hts hen htn h,
      (Path.components_ofComponents (Path.step_of_mem_climb hdown)).1, count_parent_climb]
  have hnone : ∀ n ∈ ([] : List Text), ValidName n := by simp
  have hroot := Path.resolve_climb hes hnone hen up.length
  rw [List.length_append, Nat.add_sub_cancel, List.take_left, List.append_nil] at hroot
  have hdir := Path.resolve_climb hos hnone hon up.length
  rw [List.append_nil] at hdir
  -- What is left of the output directory leads down to the origin.
  have hhead : ∀ n ∈ os.take (os.length - up.length), ValidName n :=
    fun n hn => hos n (List.mem_of_mem_take hn)
  have htail : ∀ n ∈ os.drop (os.length - up.length), ValidName n :=
    fun n hn => hos n (List.mem_of_mem_drop hn)
  have hboth : ∀ n ∈ os.take (os.length - up.length) ++ os.drop (os.length - up.length), ValidName n := by
    rw [List.take_append_drop]
    exact hos
  have hway := Path.relative_below hboth (Path.normalize_ofNames hhead)
    (by rw [List.take_append_drop]; exact hon)
  have hdescend := Path.resolve_climb hcommon htail (Path.normalize_ofNames hcommon) 0
  rw [Nat.sub_zero, List.take_length] at hdescend
  rw [origin, hascent, hroot, hdir, hway]
  exact hdescend

section

variable (hentry : l.entryRoot.isAbsolute = true) (hout : l.outDir.isAbsolute = true) {p : Path}

include hentry hout

/-- Records inside the entry root are taken from there. -/
theorem origin_of_isWithin (hin : (l.place p).isWithin l.entryRoot = true) :
    l.origin p = l.entryRoot.normalize := by
  obtain ⟨es, hes, hen⟩ := Path.exists_ofNames hentry
  obtain ⟨os, hos, hon⟩ := Path.exists_ofNames hout
  obtain ⟨ts, hts, htn⟩ := Path.exists_ofNames (Path.isAbsolute_of_isWithin hentry hin)
  obtain ⟨below, rfl⟩ := (Path.isWithin_iff hts hes htn hen).mp hin
  have hes' : ∀ n ∈ es ++ [], ValidName n := by rwa [List.append_nil]
  have hen' : l.entryRoot.normalize = ofNames (es ++ []) := by rwa [List.append_nil]
  rw [place, Path.normalize_normalize] at htn
  rw [origin_eq hes' hos hts hen' hon htn (.below below), hen, List.length_nil, Nat.sub_zero,
    List.drop_length, List.append_nil]

/-- **A record that is written below the output directory is taken from its origin**, by the way that leads
    to the file. -/
theorem written_below (hp : p.isAbsolute = true) (hin : (l.finalPath p).StrictlyWithin l.outDir) :
    (l.place p).StrictlyWithin (l.origin p) ∧
      l.outDir.relative (l.finalPath p) = (l.origin p).relative (l.place p) := by
  obtain ⟨es, hes, hen⟩ := Path.exists_ofNames hentry
  obtain ⟨os, hos, hon⟩ := Path.exists_ofNames hout
  obtain ⟨ts, hts, htn⟩ := Path.exists_ofNames (isAbsolute_sourcePath (l := l) hp)
  obtain ⟨common, down, up, rfl, rfl, hparted⟩ := Path.exists_parted ts es
  have hfinal := Path.resolve_relative_parted hos hes hts hon hen htn hparted
  have horigin := origin_eq hes hos hts hen hon htn hparted
  have hmoved : ∀ n ∈ os.take (os.length - up.length) ++ down, ValidName n :=
    List.forall_mem_append.mpr
      ⟨fun n hn => hos n (List.mem_of_mem_take hn), (List.forall_mem_append.mp hts).2⟩
  have hfinalNormal : (l.finalPath p).normalize = ofNames (os.take (os.length - up.length) ++ down) := by
    rw [finalPath, hfinal, Path.normalize_ofNames hmoved]
  obtain ⟨hwithin, hne⟩ := hin
  obtain ⟨rest, hrest⟩ := (Path.isWithin_iff hmoved hos hfinalNormal hon).mp hwithin
  -- The names of the output directory that the way comes down by are those of the origin.
  have hdown : down = os.drop (os.length - up.length) ++ rest := by
    have hsplit : os.take (os.length - up.length) ++ down
        = os.take (os.length - up.length) ++ (os.drop (os.length - up.length) ++ rest) := by
      rw [← List.append_assoc, List.take_append_drop]
      exact hrest
    exact List.append_cancel_left hsplit
  have hplace : (l.place p).normalize
      = ofNames (common ++ os.drop (os.length - up.length) ++ rest) := by
    rw [place, Path.normalize_normalize, htn, hdown, List.append_assoc]
  rw [hrest] at hmoved hfinalNormal
  rw [hdown, ← List.append_assoc] at hts
  have hin := (List.forall_mem_append.mp hts).1
  have hnormal := Path.normalize_ofNames hin
  rw [horigin, Path.relative_below hts hnormal hplace, Path.relative_below hmoved hon hfinalNormal]
  refine ⟨⟨(Path.isWithin_iff hts hin hplace hnormal).mpr ⟨rest, rfl⟩, fun hsame => hne ?_⟩, rfl⟩
  rw [hplace, hnormal, Path.ofNames_inj hts hin, List.append_right_eq_self] at hsame
  rw [hfinalNormal, hon, hsame, List.append_nil]

/-- **Records that are written to one file** are those that meet. -/
theorem finalPath_eq_finalPath_iff {q : Path} (hp : p.isAbsolute = true) (hq : q.isAbsolute = true)
    (hpin : (l.finalPath p).StrictlyWithin l.outDir) (hqin : (l.finalPath q).StrictlyWithin l.outDir) :
    l.finalPath p = l.finalPath q ↔ l.Meets p q := by
  obtain ⟨-, hway⟩ := written_below hentry hout hp hpin
  obtain ⟨-, hway'⟩ := written_below hentry hout hq hqin
  constructor
  · intro hsame
    rw [hsame, hway'] at hway
    by_cases horigin : l.origin p = l.origin q
    · -- From one origin, the same way leads to the same place.
      left
      have hlead := congrArg (l.origin p).resolve hway
      rwa [← horigin, Path.resolve_relative (isAbsolute_place hq),
        Path.resolve_relative (isAbsolute_place hp), normalize_place, normalize_place, eq_comm] at hlead
    · exact .inr ⟨horigin, hway.symm⟩
  · rintro (hsame | ⟨-, hsame⟩)
    · rw [finalPath_eq_place, finalPath_eq_place, hsame]
    · have hlead := congrArg l.outDir.resolve (hway.trans (hsame.trans hway'.symm))
      rwa [Path.resolve_relative (isAbsolute_finalPath hout p), normalize_finalPath,
        Path.resolve_relative (isAbsolute_finalPath hout q), normalize_finalPath] at hlead

end

end Layout

namespace Writer

variable {σ : Type} {log : σ → List OutputFile} {w : Writer σ} {l : Layout}

/-- A writer that keeps to the output directory writes a record where the layout says, below that
    directory. -/
theorem output?_path (hstrict : w.strict = true) (hkeep : ∀ f, w.hooks.beforeWrite f = .keep)
    (hdir : w.outDir = l.outDir) (hout : l.outDir.isAbsolute = true) {o f : OutputFile}
    (h : w.output? l o = some f) :
    f.path = l.finalPath o.path ∧ (l.finalPath o.path).StrictlyWithin l.outDir := by
  have hpath : (l.prepare o.path o.content).1.path.normalize = l.finalPath o.path := by
    rw [Layout.path_prepare, Layout.normalize_finalPath]
  rw [output?, written?, hkeep] at h
  simp only [WriteDecision.apply, hpath] at h
  by_cases hallow : w.allows (l.finalPath o.path) = true
  · rw [if_pos hallow] at h
    rw [← Option.some.inj h]
    refine ⟨rfl, Path.strictlyWithin_of_parentDir hout ?_⟩
    rw [Layout.normalize_finalPath, ← hdir]
    simpa [allows, hstrict] using hallow
  · rw [if_neg hallow] at h
    exact nomatch h

/-- **A flush writes every file once if and only if no two of its records meet.**  Two records that are
    written go to one file exactly if they meet; inside the entry root only records that are the same place
    after cleaning do. -/
theorem writes_distinct_iff (hlog : Files.Keeps w.files log) (hstrict : w.strict = true)
    (hkeep : ∀ f, w.hooks.beforeWrite f = .keep) (hdir : w.outDir = l.outDir)
    (hentry : l.entryRoot.isAbsolute = true) (hout : l.outDir.isAbsolute = true) {a : Accumulator}
    (hkeys : ∀ p ∈ a.files.keys, p.isAbsolute = true) :
    ∃ written, Writes log (w.writeOutputs l a.snapshot) (byPlace (a.snapshot.map (w.output? l))) written ∧
      ((written.map (·.path)).Nodup ↔ a.snapshot.Pairwise fun o o' =>
        (w.output? l o).isSome = true → (w.output? l o').isSome = true → ¬ l.Meets o.path o'.path) ∧
      ∀ o ∈ a.snapshot, ∀ o' ∈ a.snapshot,
        (∀ f f', w.output? l o = some f → w.output? l o' = some f' →
          (f.path = f'.path ↔ l.Meets o.path o'.path)) ∧
        ((l.place o.path).isWithin l.entryRoot = true → (l.place o'.path).isWithin l.entryRoot = true →
          (l.Meets o.path o'.path ↔ l.place o.path = l.place o'.path)) := by
  have habs : ∀ o ∈ a.snapshot, o.path.isAbsolute = true := by
    intro o ho
    obtain ⟨e, he, rfl⟩ := List.mem_map.mp ho
    exact hkeys e.1 (List.mem_map_of_mem he)
  have hmeets : ∀ o ∈ a.snapshot, ∀ o' ∈ a.snapshot, ∀ f f', w.output? l o = some f →
      w.output? l o' = some f' → (f.path = f'.path ↔ l.Meets o.path o'.path) := by
    intro o ho o' ho' f f' hf hf'
    obtain ⟨hpath, hin⟩ := output?_path hstrict hkeep hdir hout hf
    obtain ⟨hpath', hin'⟩ := output?_path hstrict hkeep hdir hout hf'
    rw [hpath, hpath']
    exact Layout.finalPath_eq_finalPath_iff hentry hout (habs o ho) (habs o' ho') hin hin'
  refine ⟨_, writes_writeOutputs hlog l a.snapshot, ?_, fun o ho o' ho' => ⟨hmeets o ho o' ho', ?_⟩⟩
  · rw [← List.filterMap_eq_flatMap_toList, List.Nodup, List.pairwise_map, List.pairwise_filterMap]
    refine List.Pairwise.iff_of_mem fun {o o'} ho ho' => ?_
    constructor
    · intro h hsome hsome'
      obtain ⟨f, hf⟩ := Option.isSome_iff_exists.mp hsome
      obtain ⟨f', hf'⟩ := Option.isSome_iff_exists.mp hsome'
      rw [← hmeets o ho o' ho' f f' hf hf']
      exact h f hf f' hf'
    · intro h f hf f' hf'
      rw [Ne, hmeets o ho o' ho' f f' hf hf']
      exact h (Option.isSome_of_eq_some hf) (Option.isSome_of_eq_some hf')
  · intro hin hin'
    rw [Layout.Meets, Layout.origin_of_isWithin hentry hout hin,
      Layout.origin_of_isWithin hentry hout hin']
    simp

/-- A writer to files in memory that keeps a log. -/
def loggedWriter : Writer (Files.Memory × List OutputFile) where
  files := Files.Memory.store.logged
  hooks := {}
  outDir := "/p/dist"
  strict := true
  detailed := false

/-- Records below the sources of a project, of components or of scripts. -/
def sourceLayout (clean : Bool) : Layout where
  steps := {}
  cleanComponents := clean
  currentDir := "/p/src"
  publicRoot := "/p/src"
  entryRoot := "/p/src"
  outDir := "/p/dist"

/-- A script and a component of one name, and a file that is already where it is written. -/
def namesakeRecords : Accumulator where
  files := .ofList [("/p/src/Button.d.ts", "export declare const a: 1;\n"),
    ("/p/src/Button.vue.d.ts", "export declare const b: 2;\n"),
    ("/p/dist/Button.d.ts", "export declare const c: 3;\n")]

theorem writes_distinct_iff_namesakes :
    let w := loggedWriter
    let l := sourceLayout false
    (w.strict = true ∧ w.outDir = l.outDir ∧ l.entryRoot.isAbsolute = true ∧
      l.outDir.isAbsolute = true ∧ ∀ p ∈ namesakeRecords.files.keys, p.isAbsolute = true) ∧
    ∃ written, Writes Prod.snd (w.writeOutputs l namesakeRecords.snapshot)
        (byPlace (namesakeRecords.snapshot.map (w.output? l))) written ∧
      ((written.map (·.path)).Nodup ↔ namesakeRecords.snapshot.Pairwise fun o o' =>
        (w.output? l o).isSome = true → (w.output? l o').isSome = true → ¬ l.Meets o.path o'.path) ∧
      ∀ o ∈ namesakeRecords.snapshot, ∀ o' ∈ namesakeRecords.snapshot,
        (∀ f f', w.output? l o = some f → w.output? l o' = some f' →
          (f.path = f'.path ↔ l.Meets o.path o'.path)) ∧
        ((l.place o.path).isWithin l.entryRoot = true → (l.place o'.path).isWithin l.entryRoot = true →
          (l.Meets o.path o'.path ↔ l.place o.path = l.place o'.path)) := by
  intro w l
  have hlog : Files.Keeps w.files Prod.snd :=
    Files.keeps_logged (fun _ _ _ => ⟨_, rfl⟩) (fun _ _ => ⟨_, rfl⟩)
  have hentry : l.entryRoot.isAbsolute = true := by decide +kernel
  have hout : l.outDir.isAbsolute = true := by decide +kernel
  have hkeys : ∀ p ∈ namesakeRecords.files.keys, p.isAbsolute = true := by decide +kernel
  exact ⟨⟨rfl, rfl, hentry, hout, hkeys⟩,
    writes_distinct_iff hlog rfl (fun _ => rfl) rfl hentry hout hkeys⟩

/-- Different records with different contents are written to one file: a script and a component of one
    name, if the names of components are cleaned, and a record in the output directory as one below the
    entry root. -/
theorem namesakes_written_together :
    let script : OutputFile := ⟨"/p/src/Button.d.ts", "export declare const a: 1;\n"⟩
    let component : OutputFile := ⟨"/p/src/Button.vue.d.ts", "export declare const b: 2;\n"⟩
    let built : OutputFile := ⟨"/p/dist/Button.d.ts", "export declare const c: 3;\n"⟩
    let file (content : Text) : OutputFile := ⟨"/p/dist/Button.d.ts", content⟩
    [script, component, built].all (namesakeRecords.snapshot.contains ·) = true ∧
      loggedWriter.output? (sourceLayout true) script = some (file script.content) ∧
      loggedWriter.output? (sourceLayout true) component = some (file component.content) ∧
      loggedWriter.output? (sourceLayout false) script = some (file script.content) ∧
      loggedWriter.output? (sourceLayout false) built = some (file built.content) := by
  decide +kernel

end Writer

end Typings
