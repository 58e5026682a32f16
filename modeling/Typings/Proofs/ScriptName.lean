import Typings.Proofs.Library.Declarations

/-!
# `ScriptName` — names of scripts and of their declarations

Names of root files, of rollups and of staged sources are made from other names, and are read by the same few
functions again.  What these functions say fits together for every name (`declarationName_consistent`): the name of a
declaration is read as that of a declaration, with the module kind and the stem of the name that it was made from.

All of them look at what follows the last dot of the last segment, so what they say is stated for a stem and an
ending, and carried over to names that come without a stem by `extension?_eq_some_iff`.

* `extension?_eq_some_iff`: the names with an ending; `stripScript_spec`: what they are without it.
* `stripDeclaration_append`: the stem of the name of a declaration.
* `modulePrefix_append`: the module kind as a part of the ending.
-/

namespace Typings.ScriptName

variable {n ext : Text}

/-! ## Endings -/

/-- What follows the last dot of the last segment has no dot and no separator in it. -/
theorem extension?_eq_some_iff :
    extension? n = some ext ↔
      (∃ stem, n = stem ++ '.' :: ext) ∧ ∀ c ∈ ext, c ≠ '.' ∧ c ≠ '/' ∧ c ≠ '\\' := by
  constructor
  · intro h
    obtain ⟨⟨before, after⟩, hcut, rfl⟩ := Option.map_eq_some_iff.mp h
    obtain ⟨hseg, hdot⟩ := Text.cutLast?_eq_some_iff.mp hcut
    obtain ⟨front, hfront⟩ := lastSegment_suffix n
    refine ⟨⟨front ++ before, by rw [← hfront, hseg, List.append_assoc]⟩, fun c hc => ⟨?_, ?_⟩⟩
    · exact ne_of_mem_of_not_mem hc hdot
    · have hmem : c ∈ lastSegment n := hseg ▸ List.mem_append_right _ (List.mem_cons_of_mem _ hc)
      have hmark := List.mem_takeWhile_imp (List.mem_reverse.mp hmem)
      simpa using hmark
  · rintro ⟨⟨stem, rfl⟩, hext⟩
    exact extension?_append hext

theorem isScript_eq (n : Text) : isScript n = hasExtension (typeScriptExtensions ++ javaScriptExtensions) n := by
  unfold isScript isTypeScript isJavaScript hasExtension
  cases extension? n with
  | none => rfl
  | some ext => exact List.contains_append.symm

/-- A name without one ending is what it was before the ending; a name without any of them is left as it is. -/
theorem stripScript_spec (n : Text) :
    isScript n = false ∧ stripScript n = n ∨
      isScript n = true ∧
        ∃ ext ∈ typeScriptExtensions ++ javaScriptExtensions, n = stripScript n ++ '.' :: ext := by
  rw [isScript_eq, hasExtension]
  cases h : extension? n with
  | none => exact .inl ⟨rfl, by rw [stripScript, stripExtension, h]⟩
  | some ext =>
      dsimp only
      by_cases hext : ext ∈ typeScriptExtensions ++ javaScriptExtensions
      · obtain ⟨⟨stem, rfl⟩, hmark⟩ := extension?_eq_some_iff.mp h
        rw [stripScript, stripExtension_append hext hmark]
        exact .inr ⟨List.contains_iff_mem.mpr hext, ext, hext, rfl⟩
      · have hnot := Bool.eq_false_iff.mpr (mt List.contains_iff_mem.mp hext)
        rw [stripScript, stripExtension_of_extension? h, hnot]
        exact .inl ⟨rfl, rfl⟩

/-! ## Declarations -/

theorem stripDeclaration_append (stem : Text) (h : ext ∈ typeScriptExtensions) :
    stripDeclaration (stem ++ ['.', 'd'] ++ '.' :: ext) = stem := by
  have hlen : (stem ++ ['.', 'd']).length - 2 = stem.length := by simp
  rw [stripDeclaration, if_pos (isDeclaration_append stem h), stripTypeScript_append h]
  show (stem ++ ['.', 'd']).take ((stem ++ ['.', 'd']).length - 2) = stem
  rw [hlen, List.take_left]

/-- The module kind of a script is the first character of its ending, if that is `m` or `c`. -/
theorem modulePrefix_append (stem : Text) (h : ext ∈ typeScriptExtensions ++ javaScriptExtensions) :
    modulePrefix (stem ++ '.' :: ext)
      = (ext.take 1).filter fun c => c == 'm' || c == 'c' := by
  have hext : extension? (stem ++ '.' :: ext) = some ext := extension?_append (mark_not_mem_extension h)
  have hscript : isScript (stem ++ '.' :: ext) = true := by
    rw [isScript_eq, hasExtension, hext]
    exact List.contains_iff_mem.mpr h
  rw [modulePrefix, hext, hscript]
  -- The stem is gone, and what is left is looked at ending by ending.
  clear hext hscript
  revert ext
  decide

theorem modulePrefix_eq (n : Text) : modulePrefix n = [] ∨ modulePrefix n = ['m'] ∨ modulePrefix n = ['c'] := by
  unfold modulePrefix
  split
  · split
    · exact .inr (.inl rfl)
    · exact .inl rfl
  · split
    · exact .inr (.inr rfl)
    · exact .inl rfl
  · exact .inl rfl

theorem declarationName_of_not (h : isDeclaration n = false) :
    declarationName n = stripScript n ++ ['.', 'd'] ++ '.' :: (modulePrefix n ++ "ts".toList) := by
  rw [declarationName, if_neg (by simp [h])]
  simp

/-- A declaration carries the module kind of what it is the declaration of. -/
theorem modulePrefix_declarationName (n : Text) : modulePrefix (declarationName n) = modulePrefix n := by
  cases h : isDeclaration n with
  | true => rw [declarationName_eq_self.mpr h]
  | false =>
      have hts := List.mem_append_left javaScriptExtensions (modulePrefix_cases n)
      rw [declarationName_of_not h, modulePrefix_append _ hts]
      rcases modulePrefix_eq n with hk | hk | hk <;> rw [hk] <;> rfl

/-- **Names of declarations agree** with all that is read off names: they are declarations, name themselves, and
    carry the module kind and the stem of what they are for.  The stem of a name is the name, or the name without one
    ending of a script. -/
theorem declarationName_consistent (n : Text) :
    isDeclaration (declarationName n) = true ∧
      declarationName (declarationName n) = declarationName n ∧
      modulePrefix (declarationName n) = modulePrefix n ∧
      (isDeclaration n = false → stripDeclaration (declarationName n) = stripScript n) ∧
      (isScript n = false ∧ stripScript n = n ∨
        isScript n = true ∧
          ∃ ext ∈ typeScriptExtensions ++ javaScriptExtensions, n = stripScript n ++ '.' :: ext) := by
  refine ⟨isDeclaration_declarationName n, declarationName_eq_self.mpr (isDeclaration_declarationName n),
    modulePrefix_declarationName n, fun h => ?_, stripScript_spec n⟩
  rw [declarationName_of_not h, stripDeclaration_append _ (modulePrefix_cases n)]

theorem declarationName_consistent_dotted : isDeclaration "src.ts\\d.mjsx" = false ∧
    stripDeclaration (declarationName "src.ts\\d.mjsx") = stripScript "src.ts\\d.mjsx" := by
  have h : isDeclaration "src.ts\\d.mjsx" = false := by decide
  exact ⟨h, (declarationName_consistent _).2.2.2.1 h⟩

end Typings.ScriptName
