import Mathlib.Data.List.Basic
import Typings.Proofs.Declaration.Hoisting

/-!
# `Consolidation` — when types share a local name

A referenced type is called by its own name, whatever module it is of, and a default export by a name
that is made up from the rank of its module.  So defaults of different modules are kept apart, and a
default is never taken for another member of the same spelling; but members of one name are not told
apart by their modules, nor is a member told apart from a made-up name that it happens to be spelled
like.  What the imports of the text bind already is not looked at either.  These are the three ways in
which a local name comes to stand for more than its type (`keepsTypesApart_iff`).

* `localName_default_inj`: made-up names tell modules apart.
* `KeptApart`, `keptApart_iff`: different types of a text have different local names, and when.
* `KeepsTypesApart`: moreover each local name is bound to its type, and to nothing else.
* `keepsTypesApart_iff`: the texts for which that holds.
-/

namespace Typings.Declaration

open Import

variable {refs : List Reference} {module name : Text}

theorem mem_defaultModules :
    module ∈ defaultModules refs ↔ ∃ r ∈ refs, r.name = defaultMember ∧ r.module = module := by
  rw [defaultModules, mem_firstSeen, List.mem_map]
  simp only [List.mem_filter, beq_iff_eq, and_assoc]

/-! ## Local names -/

theorem localName_of_ne (h : name ≠ defaultMember) : localName refs module name = name := by
  rw [localName, if_neg (by simpa using h)]

/-- The name that is made up for the default export of a module. -/
theorem localName_default :
    localName refs module defaultMember
      = "__DTS_" ++ Text.ofNat ((defaultModules refs).idxOf module + 1) ++ "__" := by
  rw [localName, if_pos (beq_self_eq_true _)]

/-- No made-up name is spelled like the default export itself. -/
theorem localName_default_ne : localName refs module defaultMember ≠ defaultMember := by
  rw [localName_default]
  intro h
  have hhead : some '_' = some 'd' := congrArg List.head? h
  exact absurd hhead (by decide)

/-- **Made-up names tell modules apart.** -/
theorem localName_default_inj {m n : Text} (hm : m ∈ defaultModules refs)
    (h : localName refs m defaultMember = localName refs n defaultMember) : m = n := by
  rw [localName_default, localName_default, List.append_cancel_right_eq, List.append_cancel_left_eq] at h
  have hrank := congrArg (fun t => Nat.ofDigitChars 10 t 0) h
  simp only [Json.ofDigitChars_ofNat, Nat.add_right_cancel_iff] at hrank
  exact (List.idxOf_inj hm).mp hrank

/-! ## Types that are kept apart -/

/-- Types of different modules or different names that the text refers to have different local names. -/
def KeptApart (content : Text) : Prop :=
  ∀ r ∈ (scan content).references, ∀ r' ∈ (scan content).references,
    localName (scan content).references r.module r.name
        = localName (scan content).references r'.module r'.name →
      (r.module, r.name) = (r'.module, r'.name)

instance (content : Text) : Decidable (KeptApart content) :=
  inferInstanceAs (Decidable (∀ r ∈ _, ∀ r' ∈ _, _ → _))

/-- **Consolidation keeps types apart** if and only if no member of one name is taken from two modules,
    and none is spelled like the name that is made up for a default export. -/
theorem keptApart_iff (content : Text) :
    KeptApart content ↔
      (∀ r ∈ (scan content).references, ∀ r' ∈ (scan content).references,
        r.name = r'.name → r.name ≠ defaultMember → r.module = r'.module) ∧
      ∀ r ∈ (scan content).references, ∀ r' ∈ (scan content).references,
        r'.name = defaultMember →
          r.name ≠ localName (scan content).references r'.module defaultMember := by
  constructor
  · intro hapart
    refine ⟨fun r hr r' hr' hname hmember => ?_, fun r hr r' hr' hdefault hname => ?_⟩
    · have hlocal := hapart r hr r' hr' <| by
        rw [localName_of_ne hmember, localName_of_ne (hname ▸ hmember), hname]
      exact (Prod.mk.inj hlocal).1
    · have hmember : r.name ≠ defaultMember := fun h => localName_default_ne (hname.symm.trans h)
      have hlocal := hapart r hr r' hr' <| by
        rw [localName_of_ne hmember, hdefault]
        exact hname
      exact hmember ((Prod.mk.inj hlocal).2.trans hdefault)
  · rintro ⟨hsame, hmade⟩ r hr r' hr' hlocal
    -- A local name is made up or the member's own, so there are four ways for two to coincide.
    by_cases hd : r.name = defaultMember
    · by_cases hd' : r'.name = defaultMember
      · rw [hd, hd'] at hlocal
        rw [localName_default_inj (mem_defaultModules.mpr ⟨r, hr, hd, rfl⟩) hlocal, hd, hd']
      · rw [hd, localName_of_ne hd'] at hlocal
        exact absurd hlocal.symm (hmade r' hr' r hr hd)
    · by_cases hd' : r'.name = defaultMember
      · rw [hd', localName_of_ne hd] at hlocal
        exact absurd hlocal (hmade r hr r' hr' hd')
      · rw [localName_of_ne hd, localName_of_ne hd'] at hlocal
        rw [hsame r hr r' hr' hlocal hd, hlocal]

/-- Members of one name are not told apart. -/
example : ¬ KeptApart "declare const a: import('a').A;\ndeclare const b: import('b').A;\n" := by
  rw [Text.toList_literal rfl]
  decide +kernel

/-! ## Local names that stand for their types -/

/-- Types that a text refers to have local names of their own, and among the static imports of the
    consolidated text each local name is bound to its type, and to nothing else. -/
structure KeepsTypesApart (content : Text) : Prop where
  apart : KeptApart content
  bound : ∀ r ∈ (scan content).references,
    referenceBound (scan content).references r ∈ bound (consolidate content)
  only : ∀ r ∈ (scan content).references, ∀ b ∈ Declaration.bound (consolidate content),
    b.name = localName (scan content).references r.module r.name →
      (b.module, b.exported) = (r.module, r.name)

instance (content : Text) : Decidable (KeepsTypesApart content) :=
  decidable_of_iff (KeptApart content ∧
      (∀ r ∈ (scan content).references,
        referenceBound (scan content).references r ∈ bound (consolidate content)) ∧
      ∀ r ∈ (scan content).references, ∀ b ∈ bound (consolidate content),
        b.name = localName (scan content).references r.module r.name →
          (b.module, b.exported) = (r.module, r.name))
    ⟨fun h => ⟨h.1, h.2.1, h.2.2⟩, fun h => ⟨h.apart, h.bound, h.only⟩⟩

/-- **Consolidation keeps the types of a text apart** if and only if no member of one name is taken from
    two modules, none is spelled like the name that is made up for a default export, and no import of the
    text binds a local name to something else. -/
theorem keepsTypesApart_iff (ps : List Part) :
    KeepsTypesApart (textOf ps) ↔
      (∀ r ∈ (scan (textOf ps)).references, ∀ r' ∈ (scan (textOf ps)).references,
        r.name = r'.name → r.name ≠ defaultMember → r.module = r'.module) ∧
      (∀ r ∈ (scan (textOf ps)).references, ∀ r' ∈ (scan (textOf ps)).references,
        r'.name = defaultMember →
          r.name ≠ localName (scan (textOf ps)).references r'.module defaultMember) ∧
      ∀ r ∈ (scan (textOf ps)).references, ∀ b ∈ bound (textOf ps),
        b.name = localName (scan (textOf ps)).references r.module r.name →
          (b.module, b.exported) = (r.module, r.name) := by
  rw [← and_assoc, ← keptApart_iff]
  constructor
  · rintro ⟨hapart, -, honly⟩
    exact ⟨hapart, fun r hr b hb => honly r hr b ((mem_bound_consolidate ps).mpr (.inl hb))⟩
  · rintro ⟨hapart, hfree⟩
    refine ⟨hapart, fun r hr => ?_, fun r hr b hb hname => ?_⟩
    · exact (mem_bound_consolidate ps).mpr (.inr ⟨r, hr, rfl⟩)
    · rcases (mem_bound_consolidate ps).mp hb with hb | ⟨r', hr', rfl⟩
      · exact hfree r hr b hb hname
      · exact hapart r' hr' r hr hname

/-- A text that binds a made-up name already. -/
def madeUpNameTaken : Text :=
  "import \x7b default as __DTS_1__ \x7d from 'x';\nexport declare const a: import('y').default;\n"

/-- The consolidated text binds the name twice, to the default exports of two modules. -/
theorem madeUpNameTaken_not_keepsTypesApart :
    consolidate madeUpNameTaken
        = ("import \x7b default as __DTS_1__ \x7d from 'y';\n" ++
            "import \x7b default as __DTS_1__ \x7d from 'x';\nexport declare const a: __DTS_1__;\n" : Text) ∧
      ¬ KeepsTypesApart madeUpNameTaken := by
  unfold madeUpNameTaken
  repeat rw [Text.toList_literal rfl]
  decide +kernel

end Typings.Declaration
