import Typings.Import.Bindings
import Typings.Library.Index
import Typings.Proofs.Declaration.Targets
import Typings.Proofs.Import.Clause
import Typings.Proofs.Library.Declarations
import Typings.Proofs.Path.Parting

/-!
# `Imports` — what a root file imports

The specifier of a root file is the way to the declaration, shortened as text and made explicitly relative.
Only the last name of a way is shortened, and the last name of the way is the last name of the declaration, so
the specifier leads to where the shortened declaration is, even where nothing or only dots are left of the name
(`resolve_importPath`).  A way that only climbs has no name to shorten: it leads to the declaration itself.

The text of a root file is read back by the scanner: the sites it was written with, and nothing else
(`scan_indexContent`), whatever identifier the default is bound to, `import` and `export` included.

* `ScriptName.stripDeclaration_behind`, `Path.steps_behind`: a text is shortened, and folded, at its last name.
* `IndexPlan.module`, `resolve_importPath`: where the specifier leads.
* `admits_importPath`: the specifier can stand between single quotes.
* `Import.scan_indexContent`: the sites of a root file.
* `importPath_planIndexFiles`: the three for every plan.
-/

namespace Typings

open Typings.Path (ofNames names climb ValidName)
open Declaration (DotRelative)

/-! ## The last name of a way -/

namespace ScriptName

/-- A text that ends in no name is empty, or ends in a separator. -/
theorem eq_nil_or_separator {stem : Text} (h : lastSegment stem = []) :
    stem = [] ∨ ∃ front c, stem = front ++ [c] ∧ (c = '/' ∨ c = '\\') := by
  rcases List.eq_nil_or_concat stem with rfl | ⟨front, c, rfl⟩
  · exact .inl rfl
  · refine .inr ⟨front, c, List.concat_eq_append, ?_⟩
    by_contra hc
    have hkept : lastSegment (front ++ [c]) = lastSegment front ++ [c] := lastSegment_append (by simpa using hc)
    rw [← List.concat_eq_append, h] at hkept
    simp at hkept

section

variable {stem n : Text} (hstem : lastSegment stem = []) (hn : ∀ c ∈ n, c ≠ '/' ∧ c ≠ '\\')

include hstem

/-- The mark of a declaration does not reach over a separator. -/
theorem endsWith_behind (s : Text) : Text.endsWith (stem ++ s) ".d" = Text.endsWith s ".d" := by
  rw [Bool.eq_iff_iff, Text.endsWith_iff, Text.endsWith_iff]
  refine ⟨fun h => ?_, fun h => h.trans (List.suffix_append _ _)⟩
  rcases List.suffix_or_suffix_of_suffix h (List.suffix_append stem s) with hs | ⟨u, hu⟩
  · exact hs
  · rcases List.eq_nil_or_concat u with rfl | ⟨u, c, rfl⟩
    · exact ⟨[], hu.symm⟩
    · -- The mark would end the stem, which ends in a separator if at all.
      have hc : c ∈ (".d" : Text) := by rw [← hu]; simp
      obtain ⟨r, hr⟩ := h
      rw [← hu, ← List.append_assoc, List.append_left_inj] at hr
      rcases eq_nil_or_separator hstem with rfl | ⟨front, d, rfl, hd⟩
      · simp at hr
      · rw [List.concat_eq_append, ← List.append_assoc] at hr
        obtain rfl := (List.append_inj' hr rfl).2 |> List.singleton_inj.mp
        rcases hd with rfl | rfl <;> exact absurd hc (by decide)

include hn

/-- Only the last name is shortened. -/
theorem stripDeclaration_behind : stripDeclaration (stem ++ n) = stem ++ stripDeclaration n := by
  have hstrip : stripTypeScript (stem ++ n) = stem ++ stripTypeScript n := stripExtension_behind hstem hn _
  have hclass : isDeclaration (stem ++ n) = isDeclaration n := by
    rw [isDeclaration, isDeclaration, isTypeScript, isTypeScript, hasExtension, hasExtension,
      extension?_behind hstem hn, hstrip, endsWith_behind hstem]
  unfold stripDeclaration
  rw [hclass, hstrip]
  split
  · rename_i h
    obtain ⟨-, hends⟩ := Bool.and_eq_true_iff.mp h
    obtain ⟨r, hr⟩ := Text.endsWith_iff.mp hends
    have hlen : (stem ++ stripTypeScript n).length - 2
        = stem.length + ((stripTypeScript n).length - 2) := by
      rw [← hr, List.length_append, List.length_append]
      show _ + (_ + 2) - 2 = _ + (_ + 2 - 2)
      omega
    show (stem ++ stripTypeScript n).take ((stem ++ stripTypeScript n).length - 2) = _
    rw [hlen, List.take_length_add_append]
  · rfl

end

end ScriptName

namespace Path

/-- The steps of a text whose last name stands behind a slash. -/
theorem steps_behind {stem : Text} (hstem : ScriptName.lastSegment stem = []) (hplain : '\\' ∉ stem)
    (m : Text) : (⟨stem ++ m⟩ : Path).steps = (⟨stem⟩ : Path).steps ++ (⟨m⟩ : Path).steps := by
  rcases ScriptName.eq_nil_or_separator hstem with rfl | ⟨front, c, rfl, rfl | rfl⟩
  · rfl
  · have hslash (t : Text) :
        (⟨front ++ '/' :: t⟩ : Path).steps = (⟨front⟩ : Path).steps ++ (⟨t⟩ : Path).steps := by
      rw [steps, List.splitOn_append_cons_self, List.filterMap_append]
      rfl
    have hend : (⟨[]⟩ : Path).steps = [] := rfl
    rw [List.append_assoc, List.singleton_append, hslash, hslash, hend, List.append_nil]
  · exact absurd hplain (by simp)

/-! ## Where a shortened way leads -/

/-- A text is shortened at its last step, whatever is left of that. -/
theorem steps_shortened {stem : Text} {cs : List Component} {c : Component}
    (hstem : ScriptName.lastSegment stem = []) (hplain : '\\' ∉ stem ++ c.text) (hc : c.Step)
    (hsteps : (⟨stem ++ c.text⟩ : Path).steps = cs ++ [c]) :
    (⟨ScriptName.stripDeclaration (stem ++ c.text)⟩ : Path).steps
      = cs ++ (⟨ScriptName.stripDeclaration c.text⟩ : Path).steps := by
  obtain ⟨hfront, hname⟩ : '\\' ∉ stem ∧ '\\' ∉ c.text := by simpa using hplain
  have hmark : ∀ d ∈ c.text, d ≠ '/' ∧ d ≠ '\\' := fun d hd =>
    ⟨ne_of_mem_of_not_mem hd hc.slash_not_mem, ne_of_mem_of_not_mem hd hname⟩
  rw [steps_behind hstem hfront, steps_text hc, List.append_left_inj] at hsteps
  rw [ScriptName.stripDeclaration_behind hstem hmark, steps_behind hstem hfront, hsteps]

/-- A way of steps is shortened at the last of them. -/
theorem steps_shortened_way {cs : List Component} {c : Component} (hcs : ∀ d ∈ cs ++ [c], d.Step)
    (hplain : (ofComponents (cs ++ [c])).Plain) :
    (⟨ScriptName.stripDeclaration (ofComponents (cs ++ [c])).text⟩ : Path).steps
      = cs ++ (⟨ScriptName.stripDeclaration c.text⟩ : Path).steps := by
  obtain ⟨stem, hstem, hspell⟩ := exists_stem (cs.map Component.text)
  have htext : (ofComponents (cs ++ [c])).text = stem ++ c.text := by
    rw [(text_ofComponents (text_ne_nil_of_step hcs)).1, List.map_append]
    exact hspell c.text
  have hsteps : (⟨(ofComponents (cs ++ [c])).text⟩ : Path).steps = cs ++ [c] := steps_ofComponents hcs
  rw [Plain, htext] at hplain
  rw [htext] at hsteps ⊢
  exact steps_shortened hstem hplain (hcs c (by simp)) hsteps

/-- A place is shortened at its last name. -/
theorem stack_shortened {ns : List Text} {n : Text} (h : ∀ m ∈ ns ++ [n], ValidName m)
    (hplain : (ofNames (ns ++ [n])).Plain) :
    (⟨ScriptName.stripDeclaration (ofNames (ns ++ [n])).text⟩ : Path).stack
      = (⟨ScriptName.stripDeclaration n⟩ : Path).steps.foldl foldComponent (ofNames ns).stack := by
  obtain ⟨hns, hlast⟩ := List.forall_mem_append.mp h
  have hn : ValidName n := hlast n (by simp)
  obtain ⟨stem, hstem, hspell⟩ := exists_stem_ofNames ns
  have htext := hspell h
  rw [Plain, htext] at hplain
  have hmark := separator_not_mem hn hplain
  -- The slash in front stays: there is none in the last name.
  have habs : (⟨stem ++ n⟩ : Path).isAbsolute = true := by
    rw [← htext]
    exact isAbsolute_ofNames h
  have hne : stem ≠ [] := by
    rintro rfl
    exact absurd habs (by simp [isAbsolute_of_slash_not_mem hn.2.2.2])
  have hsteps : (⟨stem ++ n⟩ : Path).steps = names ns ++ [.name n] := by
    have hcomponents := components_of_isAbsolute (isAbsolute_ofNames h)
    rw [components_ofNames h, List.cons_inj_right] at hcomponents
    rw [← htext, ← hcomponents, names, List.map_append]
    rfl
  have hshort : (⟨ScriptName.stripDeclaration (stem ++ n)⟩ : Path).steps
      = names ns ++ (⟨ScriptName.stripDeclaration n⟩ : Path).steps :=
    steps_shortened (c := .name n) hstem hplain hn hsteps
  have hkept : (⟨ScriptName.stripDeclaration (stem ++ n)⟩ : Path).isAbsolute = true := by
    rw [ScriptName.stripDeclaration_behind hstem hmark, isAbsolute_glue hne, ← isAbsolute_glue hne n, habs]
  rw [htext, stack_of_isAbsolute hkept, hshort, List.foldl_append, foldl_names, stack_ofNames hns]

/-- A way that only climbs has nothing to shorten. -/
theorem steps_shortened_climb (k : Nat) :
    (⟨ScriptName.stripDeclaration (ofComponents (climb k [])).text⟩ : Path).steps = climb k [] := by
  cases k with
  | zero => rfl
  | succ k =>
      have hclimb : climb (k + 1) [] = List.replicate k .parent ++ [.parent] := by
        rw [climb, List.replicate_succ']
        exact List.append_nil _
      have hplain : (ofComponents (climb (k + 1) [])).Plain := by
        intro hmem
        rcases mem_text_ofComponents hmem with h | ⟨c, hc, hcm⟩
        · exact absurd h (by decide)
        · rw [hclimb, ← List.replicate_succ'] at hc
          rw [List.eq_of_mem_replicate hc] at hcm
          exact absurd hcm (by decide)
      have hstep : ∀ c ∈ climb (k + 1) [], c.Step :=
        step_of_mem_climb fun _ h => absurd h List.not_mem_nil
      rw [hclimb] at hplain hstep ⊢
      rw [steps_shortened_way hstep hplain]
      rfl

/-- Steps up from a place to what it shares with another, and down from there. -/
theorem foldl_climb {p : Path} {common up : List Text} (h : ∀ n ∈ common ++ up, ValidName n)
    (hp : p.normalize = ofNames (common ++ up)) (down : List Text) :
    (climb up.length down).foldl foldComponent p.stack
      = (names down).reverse ++ ((names common).reverse ++ [.root]) := by
  have hstack : p.stack = (names up).reverse ++ ((names common).reverse ++ [.root]) := by
    rw [← stack_normalize, hp, stack_ofNames h]
    simp [names]
  rw [hstack, climb, List.foldl_append, foldl_parents, foldl_names]

end Path

/-- Where the specifier of a root file leads: to the declaration without its ending.  A root file below the
    declaration's own path only climbs to it. -/
def IndexPlan.module (plan : IndexPlan) : Path :=
  if plan.target.parentDir.isWithin plan.declaration then plan.declaration
  else (⟨ScriptName.stripDeclaration plan.declaration.text⟩ : Path).normalize

theorem dotRelative_importPath (target declaration : Path) : DotRelative (importPath target declaration) :=
  Declaration.dotRelative_dotRelative _

section

variable {target declaration : Path} (hplain : declaration.Plain)

include hplain

/-- The specifier is followed as the shortened way is. -/
theorem stack_resolve_importPath : (target.parentDir.resolve ⟨importPath target declaration⟩).stack
    = (⟨ScriptName.stripDeclaration (target.parentDir.relative declaration).text⟩ : Path).steps.foldl
      Path.foldComponent target.parentDir.stack := by
  rw [Path.stack_resolve_of_relative (dotRelative_importPath target declaration).isAbsolute, importPath,
    (hplain.relative _).toSlash, Declaration.steps_dotRelative]

/-- **Where the specifier leads**: to the declaration without its ending, unless the way only climbs. -/
theorem resolve_importPath (hdir : target.parentDir.isAbsolute = true)
    (habs : declaration.isAbsolute = true) (hnormal : declaration.normalize = declaration) :
    target.parentDir.resolve ⟨importPath target declaration⟩
      = (⟨target, declaration, importPath target declaration⟩ : IndexPlan).module := by
  obtain ⟨bs, hbs, hbase⟩ := Path.exists_ofNames hdir
  obtain ⟨ns, hns, hnames⟩ := Path.exists_ofNames habs
  have hwithin := Path.isWithin_iff hbs hns hbase hnames
  obtain ⟨common, down, up, rfl, rfl, hparted⟩ := Path.exists_parted ns bs
  have hway := Path.relative_of_parted hbs hns hbase hnames hparted
  have hstack : (target.parentDir.resolve ⟨importPath target declaration⟩).stack = _ :=
    stack_resolve_importPath hplain
  rw [hway] at hstack
  rcases List.eq_nil_or_concat down with rfl | ⟨front, n, rfl⟩
  · have habove : target.parentDir.isWithin declaration = true := hwithin.mpr ⟨up, by simp⟩
    rw [IndexPlan.module, if_pos habove]
    refine Path.eq_of_stack_eq (Path.normalize_resolve _ _) hnormal ?_
    rw [hstack, Path.steps_shortened_climb, Path.foldl_climb hbs hbase, ← Path.stack_normalize declaration,
      hnames, Path.stack_ofNames hns]
    simp [names]
  · rw [List.concat_eq_append, ← List.append_assoc] at hns hnames
    rw [List.concat_eq_append] at hway hstack hparted hwithin
    have hbelow : ¬ target.parentDir.isWithin declaration = true := by
      rw [hwithin]
      rintro ⟨below, hsame⟩
      rw [List.append_assoc, List.append_cancel_left_eq] at hsame
      have hnil := hparted.eq_nil_of_prefix ⟨below, hsame.symm⟩
      simp at hnil
    have hfront : ∀ m ∈ common ++ front, ValidName m := (List.forall_mem_append.mp hns).1
    have hdown : ∀ m ∈ front ++ [n], ValidName m :=
      (List.forall_mem_append.mp (List.append_assoc common front [n] ▸ hns)).2
    have hclimb : climb up.length (front ++ [n]) = climb up.length front ++ [.name n] := by
      simp [climb, names]
    have hstep := Path.step_of_mem_climb (k := up.length) hdown
    have hwayPlain := hplain.relative target.parentDir
    rw [hway] at hwayPlain
    rw [hclimb] at hstep hwayPlain hstack
    have hspelled : declaration = ofNames (common ++ front ++ [n]) := hnormal.symm.trans hnames
    rw [IndexPlan.module, if_neg hbelow]
    refine Path.eq_of_stack_eq (Path.normalize_resolve _ _) (Path.normalize_normalize _) ?_
    -- Both go to the directory of the declaration, and on from there by what is left of its name.
    rw [hstack, Path.steps_shortened_way hstep hwayPlain, List.foldl_append, Path.foldl_climb hbs hbase,
      Path.stack_normalize, hspelled, Path.stack_shortened hns (hspelled ▸ hplain),
      Path.stack_ofNames hfront]
    simp [names, Component.text]

end

/-! ## The text of a root file -/

namespace Import

/-- A re-export of everything that a module exports. -/
structure Site.ReexportsAll (s : Site) (module : Text) : Prop where
  kind : s.kind = .static
  keyword : s.keyword = .exporting
  typeOnly : s.typeOnly = false
  clause : s.clause = "*"
  specifier : s.specifier = module

/-- A static import that binds the default of a module to a name, and nothing else. -/
structure Site.ImportsDefault (s : Site) (name module : Text) : Prop where
  kind : s.kind = .static
  typeOnly : s.typeOnly = false
  bindings : s.bindings? = some ⟨some name, none⟩
  specifier : s.specifier = module

/-- A literal between single quotes. -/
def singleQuoted (path : Text) (h : ∀ c ∈ path, Quote.single.admits c) : Literal := ⟨.single, path, h⟩

theorem text_singleQuoted {path : Text} (h : ∀ c ∈ path, Quote.single.admits c) :
    (singleQuoted path h).text = '\'' :: (path ++ ['\'']) := rfl

/-- The word `default`. -/
def defaultWord : Word := ⟨"default", by decide, List.all_eq_true.mp (by decide), by decide, by decide⟩

/-- An identifier at the end of a line starts no site, not even a keyword. -/
theorem scanFrom_lastWord {d : Text} (h : IsDefault d) :
    scanFrom false (d ++ ['\n']) = ⟨[], d ++ ['\n']⟩ := by
  have hend : scanFrom false ['\n'] = ⟨[], ['\n']⟩ := by
    rw [scanFrom_mark (by decide)]
    exact congrArg (Segments.prepend ['\n']) scanFrom_nil
  have hbreak : Breaks ['\n'] := breaks_cons.mpr (by decide)
  have hword : scanFrom false (d ++ ['\n']) = (scanFrom false ['\n']).prepend d := by
    by_cases himport : d = "import"
    · subst himport
      exact scanFrom_keyword_of_none .importing hbreak (by decide)
    · by_cases hexport : d = "export"
      · subst hexport
        exact scanFrom_keyword_of_none .exporting hbreak (by decide)
      · exact scanFrom_word ⟨d, h.nonempty, h.ident, himport, hexport⟩ hbreak
  rw [hword, hend]
  rfl

/-- The line that passes the default on holds no site. -/
theorem scanFrom_exportDefault {d : Text} (h : IsDefault d) :
    scanFrom false ("export default " ++ d ++ "\n") = ⟨[], "export default " ++ d ++ "\n"⟩ := by
  have htext : ("export default " ++ d ++ "\n" : Text)
      = Keyword.exporting.text ++ ' ' :: (defaultWord.text ++ ' ' :: (d ++ ['\n'])) := by
    rw [List.append_assoc]
    rfl
  have hbreaks : Breaks (' ' :: (d ++ ['\n'])) := breaks_cons.mpr (by decide)
  have hnone : siteAfter? .exporting (' ' :: (defaultWord.text ++ ' ' :: (d ++ ['\n']))) = none :=
    exportSite?_word defaultWord hbreaks fun htype => absurd htype (by decide)
  have hblank (t : Text) : scanFrom false (' ' :: t) = (scanFrom false t).prepend [' '] :=
    scanFrom_mark (by decide)
  rw [htext, scanFrom_keyword_of_none .exporting (breaks_cons.mpr (by decide)) hnone, hblank,
    scanFrom_word defaultWord (breaks_cons.mpr (by decide)), hblank, scanFrom_lastWord h]
  rfl

/-- A keyword that starts a site up to the end of its line. -/
theorem scanFrom_siteLine {k : Keyword} {a t : Text} {s : Site}
    (h : siteAfter? k (' ' :: a) = some (s, '\n' :: t)) :
    scanFrom false (k.text ++ ' ' :: a) = ((scanFrom false t).prepend ['\n']).consSite s := by
  rw [scanFrom_keyword_of_some k (breaks_cons.mpr (by decide)) h, scanFrom_mark (by decide)]
  rfl

section

variable {path : Text} (hpath : ∀ c ∈ path, Quote.single.admits c)

/-- The first line of a root file. -/
theorem scanFrom_all (t : Text) :
    scanFrom false ("export * from '" ++ path ++ "'\n" ++ t)
      = ((scanFrom false t).prepend ['\n']).consSite
        (clauseSite .exporting false "*" (singleQuoted path hpath)) := by
  have htext : ("export * from '" ++ path ++ "'\n" ++ t : Text) = Keyword.exporting.text ++ ' ' ::
      (modifier false ++ (ExportClause.all.text ++ (" from " ++ ((singleQuoted path hpath).text ++ '\n' :: t)))) := by
    rw [text_singleQuoted]
    simp only [List.append_assoc, List.cons_append]
    rfl
  rw [htext]
  exact scanFrom_siteLine (exportSite?_clause false .all (singleQuoted path hpath) ('\n' :: t))

/-- The line that binds the default, whatever identifier but `from` and `type` it is bound to. -/
theorem scanFrom_default {d : Text} (hd : IsDefault d) (hfrom : d ≠ "from") (htype : d ≠ "type") (t : Text) :
    scanFrom false ("import " ++ d ++ " from '" ++ path ++ "'\n" ++ t)
      = ((scanFrom false t).prepend ['\n']).consSite
        (clauseSite .importing false d (singleQuoted path hpath)) := by
  have htext : ("import " ++ d ++ " from '" ++ path ++ "'\n" ++ t : Text) = Keyword.importing.text ++ ' ' ::
      (modifier false ++ (d ++ (" from " ++ ((singleQuoted path hpath).text ++ '\n' :: t)))) := by
    rw [text_singleQuoted]
    simp only [List.append_assoc, List.cons_append]
    rfl
  rw [htext]
  exact scanFrom_siteLine (importSite?_clause false (singleQuoted path hpath) ('\n' :: t)
    (clauseStart_word hd.nonempty hd.ident htype hfrom) (reads_word hd.nonempty hd.ident nofun))

/-- **A root file without a default** holds the re-export of everything. -/
theorem scan_indexContent_none : scan (indexContent path none)
    = ⟨[([], clauseSite .exporting false "*" (singleQuoted path hpath))], "\n"⟩ := by
  have hscan := scanFrom_all hpath []
  rw [List.append_nil, scanFrom_nil] at hscan
  exact hscan

/-- **A root file with a default** holds the re-export of everything and the import of the default. -/
theorem scan_indexContent_some {d : Text} (hd : IsDefault d) (hfrom : d ≠ "from") (htype : d ≠ "type") :
    scan (indexContent path (some d))
      = ⟨[([], clauseSite .exporting false "*" (singleQuoted path hpath)),
          (['\n'], clauseSite .importing false d (singleQuoted path hpath))],
        '\n' :: ("export default " ++ d ++ "\n")⟩ := by
  have hscan := scanFrom_all hpath
    ("import " ++ d ++ " from '" ++ path ++ "'\n" ++ ("export default " ++ d ++ "\n"))
  rw [scanFrom_default hpath hd hfrom htype, scanFrom_exportDefault hd] at hscan
  have htext : indexContent path (some d) = "export * from '" ++ path ++ "'\n" ++
      ("import " ++ d ++ " from '" ++ path ++ "'\n" ++ ("export default " ++ d ++ "\n")) := by
    have hsplit : ("'\nexport default " : Text) = "'\n" ++ "export default " := rfl
    unfold indexContent
    rw [hsplit]
    simp only [List.append_assoc]
  rw [htext, scan, hscan]
  rfl

include hpath

/-- **The sites of a root file**, without a default and with one. -/
theorem sites_indexContent :
    (∃ all : Site, (scan (indexContent path none)).sites.map Prod.snd = [all] ∧ all.ReexportsAll path) ∧
      ∀ name, IsDefault name → name ≠ "from" → name ≠ "type" → ∃ all default : Site,
        (scan (indexContent path (some name))).sites.map Prod.snd = [all, default] ∧
          all.ReexportsAll path ∧ default.ImportsDefault name path := by
  refine ⟨⟨_, congrArg (·.sites.map Prod.snd) (scan_indexContent_none hpath), ⟨rfl, rfl, rfl, rfl, rfl⟩⟩,
    fun name hd hfrom htype => ⟨_, _, congrArg (·.sites.map Prod.snd)
      (scan_indexContent_some hpath hd hfrom htype), ⟨rfl, rfl, rfl, rfl, rfl⟩, ?_⟩⟩
  exact ⟨rfl, rfl, clauseBindings?_isDefault hd, rfl⟩

end

end Import

/-! ## The characters of a specifier -/

theorem isPrefix_stripDeclaration (n : Text) : ScriptName.stripDeclaration n <+: n := by
  unfold ScriptName.stripDeclaration
  split
  · exact (List.take_prefix _ _).trans (ScriptName.isPrefix_stripExtension _ n)
  · exact List.prefix_refl n

theorem mem_dotRelative {t : Text} {c : Char} (h : c ∈ dotRelative t) : c ∈ t ∨ c = '/' ∨ c = '.' := by
  unfold dotRelative at h
  split at h
  · exact .inr (.inr (List.mem_singleton.mp h))
  · split at h
    · exact .inl h
    · rcases List.mem_append.mp h with h | h
      · have hcases : c = '.' ∨ c = '/' := by simpa using h
        exact .inr hcases.symm
      · exact .inl h

open Import (Quote)

theorem admits_of_mark {c : Char} (h : c = '/' ∨ c = '.') : Quote.single.admits c := by
  rcases h with rfl | rfl <;> decide

/-- What can stand between quotes has no backslash. -/
theorem plain_of_admits {p : Path} (h : ∀ c ∈ p.text, Quote.single.admits c) : p.Plain :=
  fun hmem => (h _ hmem).2.1 rfl

/-- The specifier can stand between single quotes if the declaration can. -/
theorem admits_importPath (target : Path) {declaration : Path}
    (h : ∀ c ∈ declaration.text, Quote.single.admits c) :
    ∀ c ∈ importPath target declaration, Quote.single.admits c := by
  intro c hc
  rw [importPath, ((plain_of_admits h).relative _).toSlash] at hc
  rcases mem_dotRelative hc with hc | hc
  · rcases Path.mem_text_relative ((isPrefix_stripDeclaration _).subset hc) with hc | hc
    · exact h c hc
    · exact admits_of_mark hc
  · exact admits_of_mark hc

/-- The expected place of a declaration can stand between single quotes if the source and the output
    directory can. -/
theorem admits_emittedDeclaration {e : Entry} {outDir : Path} (entryRoot : Path)
    (hsource : ∀ c ∈ e.source.text, Quote.single.admits c)
    (hout : ∀ c ∈ outDir.text, Quote.single.admits c) :
    ∀ c ∈ (e.emittedDeclaration entryRoot outDir).text, Quote.single.admits c := by
  intro c hc
  rcases Path.mem_text_resolve hc with hc | hc | hc
  · exact hout c hc
  · rcases Path.mem_text_relative hc with hc | hc
    · rw [(plain_of_admits hsource).toSlash] at hc
      rcases List.mem_append.mp hc with hc | hc
      · exact hsource c ((ScriptName.isPrefix_stripExtension _ _).subset hc)
      · have hend : ∀ d ∈ (".d.ts" : Text), Quote.single.admits d := by decide
        exact hend c hc
    · exact admits_of_mark hc
  · exact admits_of_mark hc

/-! ## The plans -/

theorem isAbsolute_indexTarget {several : Bool} {typesPath outDir : Path} {e : Entry}
    (htypes : typesPath.isAbsolute = true) (hout : outDir.isAbsolute = true) :
    (indexTarget several typesPath outDir e).isAbsolute = true := by
  unfold indexTarget
  split
  · cases hname : (⟨e.declarationFileName⟩ : Path).isAbsolute with
    | true => rwa [Path.join, hname, if_pos rfl]
    | false => rwa [Path.isAbsolute_join hname]
  · exact htypes

/-- **Root files import what was planned.** The specifier of every planned root file starts with a dot segment
    and leads to the declaration without its ending, or, from below the declaration's own path, to that path.
    The text of the root file holds the re-export of everything from there, and for a default under any
    identifier but `from` and `type` the import that binds it, and no other site. -/
theorem importPath_planIndexFiles {entries : List Entry} {typesPath outDir entryRoot : Path}
    {plan : IndexPlan} (hplan : plan ∈ planIndexFiles entries typesPath outDir entryRoot)
    (htypes : typesPath.isAbsolute = true) (hout : outDir.isAbsolute = true)
    (houtClean : ∀ c ∈ outDir.text, Quote.single.admits c)
    (hsources : ∀ e ∈ entries, ∀ c ∈ e.source.text, Quote.single.admits c)
    (htarget : plan.target.fileName?.isSome = true) :
    DotRelative plan.importPath ∧ plan.target.parentDir.resolve ⟨plan.importPath⟩ = plan.module ∧
      (∃ all : Import.Site, (Import.scan (indexContent plan.importPath none)).sites.map Prod.snd = [all] ∧
        all.ReexportsAll plan.importPath) ∧
      ∀ name, Import.IsDefault name → name ≠ "from" → name ≠ "type" → ∃ all default : Import.Site,
        (Import.scan (indexContent plan.importPath (some name))).sites.map Prod.snd = [all, default] ∧
          all.ReexportsAll plan.importPath ∧ default.ImportsDefault name plan.importPath := by
  obtain ⟨e, he, rfl⟩ := List.mem_map.mp hplan
  dsimp only at htarget ⊢
  generalize hplace : indexTarget (entries.length > 1) typesPath outDir e = target at htarget ⊢
  obtain ⟨n, hname⟩ := Option.isSome_iff_exists.mp htarget
  have habs : target.isAbsolute = true := hplace ▸ isAbsolute_indexTarget htypes hout
  have hclean := admits_emittedDeclaration entryRoot (hsources e he) houtClean
  refine ⟨dotRelative_importPath _ _, ?_, Import.sites_indexContent (admits_importPath target hclean)⟩
  exact resolve_importPath (plain_of_admits hclean) (Path.isAbsolute_parentDir_of_fileName? habs hname)
    (Path.isAbsolute_resolve hout _) (Path.normalize_resolve _ _)

/-- An entry whose name is a dot and an extension: its specifier ends in the dot and leads to the directory. -/
theorem importPath_planIndexFiles_dot :
    let entries : List Entry := [⟨"main", "/p/src/main.ts"⟩, ⟨"cli.ts", "/p/src/cli/..ts"⟩]
    let plan : IndexPlan := ⟨"/p/dist/cli.d.ts", "/p/dist/cli/..d.ts", "./cli/."⟩
    (plan ∈ planIndexFiles entries "/p/dist/index.d.ts" "/p/dist" "/p/src" ∧
        plan.target.fileName?.isSome = true ∧ plan.module = "/p/dist/cli") ∧
      DotRelative plan.importPath ∧ plan.target.parentDir.resolve ⟨plan.importPath⟩ = plan.module ∧
        (∃ all : Import.Site, (Import.scan (indexContent plan.importPath none)).sites.map Prod.snd = [all] ∧
          all.ReexportsAll plan.importPath) ∧
        ∀ name, Import.IsDefault name → name ≠ "from" → name ≠ "type" → ∃ all default : Import.Site,
          (Import.scan (indexContent plan.importPath (some name))).sites.map Prod.snd = [all, default] ∧
            all.ReexportsAll plan.importPath ∧ default.ImportsDefault name plan.importPath := by
  intro entries plan
  have hplan : plan ∈ planIndexFiles entries "/p/dist/index.d.ts" "/p/dist" "/p/src" := by decide +kernel
  have htarget : plan.target.fileName?.isSome = true := by decide +kernel
  refine ⟨⟨hplan, htarget, by decide +kernel⟩, ?_⟩
  exact importPath_planIndexFiles hplan (by decide) (by decide) (by decide) (by decide) htarget

/-- A root file below the path of the declaration names that path, with its ending. -/
theorem importPath_below_declaration :
    let plan : IndexPlan := ⟨"/p/dist/index.d.ts/index.d.ts", "/p/dist/index.d.ts", "."⟩
    plan ∈ planIndexFiles [⟨"index.ts", "/p/src/index.ts"⟩] plan.target "/p/dist" "/p/src" ∧
      plan.target.fileName?.isSome = true ∧
      plan.target.parentDir.resolve ⟨plan.importPath⟩ = plan.declaration ∧
      plan.declaration ≠ (⟨ScriptName.stripDeclaration plan.declaration.text⟩ : Path).normalize := by
  decide +kernel

end Typings
