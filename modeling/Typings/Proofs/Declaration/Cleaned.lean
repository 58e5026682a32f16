import Typings.Output.Layout
import Typings.Proofs.Path.Parting
import Typings.Proofs.Resolver

/-!
# `Cleaned` — records whose component extension is dropped

A record may drop the extension of a component before it is moved to the output directory.  The rule is
applied to the whole spelling, but what it looks for has no slash in it, so it changes one name: the first
one that has the ending of a component's declaration in it, be it that of the file or that of a directory
(`Layout.sourcePath_ofNames`).

* `Text.replaceFirst_append_sep`: a replacement of what has no separator in it.
* `Declaration.cleanNames`: the rule, name by name; `cleanPath_intercalate`.
* `Layout.cleaned`: the names a record is written for; `cleaned_append`, `cleaned_singleton`.
-/

namespace Typings

namespace Text

/-! ## Separators -/

theorem isPrefixOf?_append_sep {p : Text} {c : Char} (hc : c ∉ p) (s t : Text) :
    List.isPrefixOf? p (s ++ c :: t) = (List.isPrefixOf? p s).map (· ++ c :: t) := by
  induction p generalizing s with
  | nil => rfl
  | cons d p ih =>
      obtain ⟨hd, hp⟩ : c ≠ d ∧ c ∉ p := by simpa using hc
      cases s with
      | nil =>
          have hne : ¬ (d == c) = true := by simpa using fun h => hd h.symm
          show (if d == c then List.isPrefixOf? p t else none) = none
          rw [if_neg hne]
      | cons e s =>
          rw [List.cons_append, List.isPrefixOf?, List.isPrefixOf?]
          by_cases hde : (d == e) = true
          · rw [if_pos hde, if_pos hde, ih hp]
          · rw [if_neg hde, if_neg hde]
            rfl

/-- What has no separator in it occurs in front of one, or behind it. -/
theorem cutAt?_append_sep {p : Text} {c : Char} (hne : p ≠ []) (hc : c ∉ p) (s t : Text) :
    cutAt? p (s ++ c :: t) =
      match cutAt? p s with
      | some (before, rest) => some (before, rest ++ c :: t)
      | none => (cutAt? p t).map fun (before, rest) => (s ++ c :: before, rest) := by
  induction s with
  | nil =>
      have hstrip : List.isPrefixOf? p (c :: t) = none := by
        have h := isPrefixOf?_append_sep hc [] t
        cases p with
        | nil => exact absurd rfl hne
        | cons d p => exact h
      have hnil : cutAt? p [] = none := if_neg (by simpa using hne)
      have hcons : cutAt? p (c :: t)
          = (cutAt? p t).map fun (before, rest) => (c :: before, rest) := by
        rw [cutAt?, hstrip]
      rw [List.nil_append, hcons, hnil]
      rfl
  | cons d s ih =>
      rw [List.cons_append, cutAt?, cutAt?, ← List.cons_append, isPrefixOf?_append_sep hc]
      cases List.isPrefixOf? p (d :: s) with
      | some rest => rfl
      | none =>
          rw [Option.map_none]
          dsimp only
          rw [ih]
          cases cutAt? p s with
          | some _ => rfl
          | none =>
              rw [Option.map_none]
              cases cutAt? p t <;> rfl

/-- The first occurrence of what has no separator in it is replaced in front of a separator if there is one
    there, and behind it otherwise. -/
theorem replaceFirst_append_sep {p : Text} {c : Char} (hne : p ≠ []) (hc : c ∉ p) (r s t : Text) :
    replaceFirst p r (s ++ c :: t) =
      if s.hasInfix p then replaceFirst p r s ++ c :: t else s ++ c :: replaceFirst p r t := by
  unfold replaceFirst hasInfix
  rw [cutAt?_append_sep hne hc]
  cases cutAt? p s with
  | some _ => simp
  | none => cases cutAt? p t <;> simp

theorem cutAt?_eq_some {p t before rest : Text} (h : cutAt? p t = some (before, rest)) :
    t = before ++ p ++ rest := by
  induction t generalizing before with
  | nil =>
      rw [cutAt?] at h
      split at h
      · rename_i hp
        obtain ⟨rfl, rfl⟩ := Prod.mk.inj (Option.some.inj h)
        rw [List.isEmpty_iff.mp hp]
        rfl
      · exact nomatch h
  | cons c t ih =>
      rw [cutAt?] at h
      split at h
      · rename_i hstrip
        obtain ⟨rfl, rfl⟩ := Prod.mk.inj (Option.some.inj h)
        exact (List.isPrefixOf?_eq_some_iff_append_eq.mp hstrip).symm
      · obtain ⟨⟨b, r⟩, hcut, heq⟩ := Option.map_eq_some_iff.mp h
        obtain ⟨rfl, rfl⟩ := Prod.mk.inj heq
        rw [ih hcut]
        rfl

theorem hasInfix_iff {p t : Text} : t.hasInfix p = true ↔ p <:+: t := by
  induction t with
  | nil => cases p <;> simp [hasInfix, cutAt?]
  | cons c t ih =>
      rw [List.infix_cons_iff, ← ih, hasInfix, hasInfix, cutAt?]
      cases hstrip : List.isPrefixOf? p (c :: t) with
      | some rest =>
          have hstarts : p <+: c :: t := ⟨rest, List.isPrefixOf?_eq_some_iff_append_eq.mp hstrip⟩
          simp [hstarts]
      | none =>
          have hstarts : ¬ p <+: c :: t := fun ⟨rest, h⟩ => by
            rw [List.isPrefixOf?_eq_some_iff_append_eq.mpr h] at hstrip
            cases hstrip
          simp [hstarts]

end Text

namespace Declaration

/-! ## Name by name -/

/-- The name has the ending of a component's declaration in it. -/
def isComponentName (n : Text) : Bool := n.hasInfix ".vue.d.ts"

/-- The first name of a component's declaration is called without the component's extension. -/
def cleanNames : List Text → List Text
  | [] => []
  | n :: ns => if isComponentName n then cleanPath n :: ns else n :: cleanNames ns

theorem cleanPath_of_not {n : Text} (h : isComponentName n = false) : cleanPath n = n := by
  have hcut : Text.cutAt? ".vue.d.ts" n = none := by simpa [isComponentName, Text.hasInfix] using h
  rw [cleanPath, Text.replaceFirst, hcut]

theorem cleanPath_of_isComponentName {n : Text} (h : isComponentName n = true) :
    ∃ before rest, n = before ++ ".vue.d.ts" ++ rest ∧ cleanPath n = before ++ ".d.ts" ++ rest := by
  obtain ⟨⟨before, rest⟩, hcut⟩ := Option.isSome_iff_exists.mp h
  exact ⟨before, rest, Text.cutAt?_eq_some hcut, by rw [cleanPath, Text.replaceFirst, hcut]⟩

/-- The extension of a component is four characters long. -/
theorem length_cleanPath {n : Text} (h : isComponentName n = true) :
    (cleanPath n).length + 4 = n.length := by
  obtain ⟨before, rest, hn, hclean⟩ := cleanPath_of_isComponentName h
  have hlong : ".vue.d.ts".toList.length = 9 := by decide
  have hshort : ".d.ts".toList.length = 5 := by decide
  rw [hclean, hn]
  simp only [List.length_append, hlong, hshort]
  omega

theorem cleanPath_slash (s t : Text) :
    cleanPath (s ++ '/' :: t) =
      if isComponentName s then cleanPath s ++ '/' :: t else s ++ '/' :: cleanPath t :=
  Text.replaceFirst_append_sep (by decide) (by decide) _ s t

theorem cleanNames_of_isComponentName {n : Text} (h : isComponentName n = true) (ns : List Text) :
    cleanNames (n :: ns) = cleanPath n :: ns := if_pos h

theorem cleanNames_of_not {n : Text} (h : isComponentName n = false) (ns : List Text) :
    cleanNames (n :: ns) = n :: cleanNames ns := if_neg (by rw [h]; decide)

theorem length_cleanNames (ns : List Text) : (cleanNames ns).length = ns.length := by
  induction ns with
  | nil => rfl
  | cons n ns ih =>
      cases h : isComponentName n with
      | true => rw [cleanNames_of_isComponentName h, List.length_cons, List.length_cons]
      | false => rw [cleanNames_of_not h, List.length_cons, List.length_cons, ih]

theorem intercalate_slash {n : Text} {ns : List Text} (h : 0 < ns.length) :
    List.intercalate ['/'] (n :: ns) = n ++ '/' :: List.intercalate ['/'] ns := by
  rw [List.intercalate_cons_of_ne_nil (List.ne_nil_of_length_pos h), List.append_assoc]
  rfl

/-- The rule changes one name of a spelling. -/
theorem cleanPath_intercalate (ns : List Text) :
    cleanPath (List.intercalate ['/'] ns) = List.intercalate ['/'] (cleanNames ns) := by
  induction ns with
  | nil => rfl
  | cons n ns ih =>
      cases h : isComponentName n with
      | true =>
          rw [cleanNames_of_isComponentName h]
          cases ns with
          | nil => rw [List.intercalate_singleton, List.intercalate_singleton]
          | cons m ns =>
              rw [intercalate_slash (n := n) (by simp), cleanPath_slash, if_pos h,
                intercalate_slash (n := cleanPath n) (by simp)]
      | false =>
          rw [cleanNames_of_not h]
          cases ns with
          | nil => exact List.intercalate_singleton.symm ▸ cleanPath_of_not h
          | cons m ns =>
              have hlen : 0 < (cleanNames (m :: ns)).length := by
                rw [length_cleanNames]
                exact Nat.succ_pos _
              rw [intercalate_slash (n := n) (by simp), cleanPath_slash, if_neg (by rw [h]; decide), ih,
                intercalate_slash hlen]

theorem validName_cleanPath {n : Text} (h : Path.ValidName n) : Path.ValidName (cleanPath n) := by
  cases hcomp : isComponentName n with
  | false => rwa [cleanPath_of_not hcomp]
  | true =>
      obtain ⟨before, rest, hn, hclean⟩ := cleanPath_of_isComponentName hcomp
      have hslash : '/' ∉ cleanPath n := by
        intro hmem
        refine h.2.2.2 ?_
        rw [hclean] at hmem
        rw [hn]
        have hend : '/' ∉ ".d.ts".toList := by decide
        simp only [List.mem_append] at hmem ⊢
        tauto
      have hlen : 4 < (cleanPath n).length := by
        have hshort : ".d.ts".toList.length = 5 := by decide
        rw [hclean]
        simp only [List.length_append, hshort]
        omega
      refine ⟨?_, ?_, ?_, hslash⟩
      · rintro he
        rw [he] at hlen
        exact absurd hlen (by decide)
      · rintro he
        rw [he] at hlen
        exact absurd hlen (by decide)
      · rintro he
        rw [he] at hlen
        exact absurd hlen (by decide)

theorem validName_cleanNames {ns : List Text} (h : ∀ n ∈ ns, Path.ValidName n) :
    ∀ n ∈ cleanNames ns, Path.ValidName n := by
  induction ns with
  | nil => exact h
  | cons m ns ih =>
      obtain ⟨hm, hns⟩ := List.forall_mem_cons.mp h
      cases hcomp : isComponentName m with
      | true =>
          rw [cleanNames_of_isComponentName hcomp]
          exact List.forall_mem_cons.mpr ⟨validName_cleanPath hm, hns⟩
      | false =>
          rw [cleanNames_of_not hcomp]
          exact List.forall_mem_cons.mpr ⟨hm, ih hns⟩

/-- The names behind a changed one stay as they are. -/
theorem cleanNames_append (ns ms : List Text) :
    cleanNames (ns ++ ms) = if cleanNames ns = ns then ns ++ cleanNames ms else cleanNames ns ++ ms := by
  induction ns with
  | nil => rfl
  | cons n ns ih =>
      cases h : isComponentName n with
      | true =>
          have hne : cleanPath n ≠ n := by
            intro he
            have hlen := length_cleanPath h
            rw [he] at hlen
            omega
          rw [List.cons_append, cleanNames_of_isComponentName h, cleanNames_of_isComponentName h,
            if_neg fun he => hne (List.cons.inj he).1]
          rfl
      | false =>
          rw [List.cons_append, cleanNames_of_not h, cleanNames_of_not h, ih]
          by_cases hns : cleanNames ns = ns
          · rw [if_pos hns, if_pos (by rw [hns])]
            rfl
          · rw [if_neg hns, if_neg fun he => hns (List.cons.inj he).2]
            rfl

end Declaration

/-! ## Records -/

namespace Layout

open Declaration (cleanNames)

variable {l : Layout}

/-- A record is written where the layout says, whatever its text. -/
theorem path_prepare (l : Layout) (recorded : Path) (content : Text) :
    (l.prepare recorded content).1.path = l.finalPath recorded := by
  unfold prepare
  split
  · split <;> rfl
  · rfl

/-- The names that a record with some names is written for. -/
def cleaned (l : Layout) (ns : List Text) : List Text := if l.cleanComponents then cleanNames ns else ns

theorem validName_cleaned {ns : List Text} (h : ∀ n ∈ ns, Path.ValidName n) :
    ∀ n ∈ l.cleaned ns, Path.ValidName n := by
  unfold cleaned
  split
  · exact Declaration.validName_cleanNames h
  · exact h

theorem length_cleaned (l : Layout) (ns : List Text) : (l.cleaned ns).length = ns.length := by
  unfold cleaned
  split
  · exact Declaration.length_cleanNames ns
  · rfl

theorem cleaned_append (l : Layout) (ns ms : List Text) :
    l.cleaned (ns ++ ms) = if l.cleaned ns = ns then ns ++ l.cleaned ms else l.cleaned ns ++ ms := by
  unfold cleaned
  by_cases hc : l.cleanComponents = true
  · simp only [if_pos hc]
    exact Declaration.cleanNames_append ns ms
  · simp only [if_neg hc, if_true]

/-- A name that changes loses four characters. -/
theorem cleaned_singleton (l : Layout) (n : Text) :
    l.cleaned [n] = [n] ∨ ∃ m : Text, l.cleaned [n] = [m] ∧ m.length + 4 = n.length := by
  unfold cleaned
  split
  · rw [cleanNames]
    split
    · exact .inr ⟨_, rfl, Declaration.length_cleanPath (by assumption)⟩
    · exact .inl rfl
  · exact .inl rfl

/-- **A record is written for its cleaned names.** -/
theorem sourcePath_ofNames {ns : List Text} (h : ∀ n ∈ ns, Path.ValidName n) :
    l.sourcePath (Path.ofNames ns) = Path.ofNames (l.cleaned ns) := by
  unfold sourcePath cleaned
  by_cases hc : l.cleanComponents = true
  · rw [if_pos hc, if_pos hc]
    -- The root has no name, so the rule looks behind the first slash.
    have hroot := Declaration.cleanPath_slash [] (List.intercalate ['/'] ns)
    rw [if_neg (by decide), List.nil_append, List.nil_append, Declaration.cleanPath_intercalate] at hroot
    have htext := Path.text_ofNames (Declaration.validName_cleanNames h)
    rw [Path.text_ofNames h, hroot, ← htext]
  · rw [if_neg hc, if_neg hc]

end Layout

end Typings
