import Mathlib.Data.List.Induction
import Typings.DryRun.Program
import Typings.Files.Memory
import Typings.Session.Start

/-!
# `Alias` — which rules are kept, and which one counts

A set of aliases is made of the configured rules and of rules that are pushed behind them, as those of
the compiler's `paths` are.  Exclusions keep rules out on either way and protect specifiers besides; a
pushed literal that was there before stays out.  So a rule that is in force stays in force: what is
pushed counts only for specifiers that no rule before it is for.

* `Spared`, `Repeats`, `First`: what lets a rule in, what keeps it out, and which rule counts.
* `Set.build`: the set of some rules after some more were pushed.
* `Set.accepts_build_iff`: who may join, said by what was given before.
* `Set.exists_rules_build`: the rules in force, in order, and no pushed literal among them twice.
* `Set.resolve?_eq_some_iff`, `Set.resolve?_foldl_push`: the rule that counts, and that it stays.
* `Set.build_precedence`: all of it, and what it means for the aliases of a session.
-/

namespace Typings.Alias

/-- No exclusion removes the rule. -/
def Spared (exclusions : List Exclusion) (r : Rule) : Prop := ∀ e ∈ exclusions, e.removes r = false

/-- The rule is for a literal that one of the rules is for. -/
def Repeats (rules : List Rule) (r : Rule) : Prop :=
  ∃ t, r.find = .literal t ∧ ∃ q ∈ rules, q.find = .literal t

/-- The rule is the first one for the specifier. -/
def First (rules : List Rule) (specifier : Text) (r : Rule) : Prop :=
  r.applies specifier = true ∧ ∃ front back, rules = front ++ r :: back ∧
    ∀ q ∈ front, q.applies specifier = false

/-- What removes a rule removes all rules that recognize the same. -/
theorem Exclusion.removes_congr {q r : Rule} (h : q.find = r.find) (e : Exclusion) :
    e.removes q = e.removes r := by
  unfold removes
  rw [h]

/-- Whether a rule is spared depends on what it finds alone. -/
theorem Spared.congr {q r : Rule} {exclusions : List Exclusion} (h : q.find = r.find)
    (hr : Spared exclusions r) : Spared exclusions q :=
  fun e he => (e.removes_congr h).trans (hr e he)

/-- A rule repeats one of two rows when it repeats one of either. -/
theorem repeats_append {rules more : List Rule} {r : Rule} :
    Repeats (rules ++ more) r ↔ Repeats rules r ∨ Repeats more r := by
  unfold Repeats
  simp only [List.mem_append, or_and_right, exists_or, and_or_left]

namespace Set

/-- The set of some rules after some more were pushed. -/
def build (rules : List Rule) (exclusions : List Exclusion) (pushed : List Rule) : Set :=
  pushed.foldl push (ofRules rules exclusions)

/-! ## One rule -/

/-- A rule is not removed exactly when it is spared by every exclusion. -/
theorem removed_eq_false_iff {exclusions : List Exclusion} {r : Rule} :
    removed exclusions r = false ↔ Spared exclusions r := by
  rw [removed, List.any_eq_false]
  simp only [Bool.not_eq_true]
  rfl

theorem hasLiteral_iff {s : Set} {t : Text} :
    s.hasLiteral t = true ↔ ∃ q ∈ s.rules, q.find = .literal t := by
  rw [hasLiteral, List.any_eq_true]
  refine exists_congr fun q => and_congr_right fun _ => ?_
  cases q.find with
  | literal u => simp
  | pattern p => simp

/-- A rule is taken when it repeats none and is spared. -/
theorem accepts_iff {s : Set} {r : Rule} :
    s.accepts r = true ↔ ¬ Repeats s.rules r ∧ Spared s.exclusions r := by
  rw [accepts, Bool.and_eq_true, Bool.not_eq_true', removed_eq_false_iff]
  refine and_congr_left fun _ => ?_
  unfold Repeats
  cases r.find with
  | literal t => simp [← hasLiteral_iff]
  | pattern p => simp

theorem push_of_accepts {s : Set} {r : Rule} (h : s.accepts r = true) :
    s.push r = { s with rules := s.rules ++ [r] } := if_pos h

theorem push_of_not_accepts {s : Set} {r : Rule} (h : ¬ s.accepts r = true) : s.push r = s := if_neg h

/-- A pushed rule leaves the exclusions as they were. -/
theorem exclusions_push (s : Set) (r : Rule) : (s.push r).exclusions = s.exclusions := by
  unfold push
  split <;> rfl

/-! ## What is kept -/

section

variable {rules : List Rule} {exclusions : List Exclusion} {pushed : List Rule}

theorem build_concat (rules : List Rule) (exclusions : List Exclusion) (pushed : List Rule) (r : Rule) :
    build rules exclusions (pushed ++ [r]) = (build rules exclusions pushed).push r := by
  rw [build, List.foldl_append]
  rfl

theorem exclusions_build : (build rules exclusions pushed).exclusions = exclusions := by
  induction pushed using List.reverseRecOn with
  | nil => rfl
  | append_singleton pushed r ih => rw [build_concat, exclusions_push, ih]

/-- No kept rule is one that an exclusion removes. -/
theorem spared_of_mem_build {r : Rule} (h : r ∈ (build rules exclusions pushed).rules) :
    Spared exclusions r := by
  induction pushed using List.reverseRecOn with
  | nil =>
      obtain ⟨-, hr⟩ := List.mem_filter.mp h
      exact removed_eq_false_iff.mp (by simpa using hr)
  | append_singleton pushed q ih =>
      rw [build_concat] at h
      by_cases ha : (build rules exclusions pushed).accepts q = true
      · rw [push_of_accepts ha, List.mem_append, List.mem_singleton] at h
        rcases h with h | rfl
        · exact ih h
        · rw [accepts_iff, exclusions_build] at ha
          exact ha.2
      · rw [push_of_not_accepts ha] at h
        exact ih h

/-- A rule that no exclusion removes repeats what is kept just if it repeats what was given: a literal
    stays out only for an exclusion, or for its like. -/
theorem repeats_build_iff {r : Rule} (hr : Spared exclusions r) :
    Repeats (build rules exclusions pushed).rules r ↔ Repeats (rules ++ pushed) r := by
  induction pushed using List.reverseRecOn with
  | nil =>
      rw [List.append_nil]
      refine exists_congr fun t => and_congr_right fun ht => exists_congr fun q => ?_
      constructor
      · rintro ⟨hq, hqt⟩
        exact ⟨(List.mem_filter.mp hq).1, hqt⟩
      · rintro ⟨hq, hqt⟩
        have hspared := removed_eq_false_iff.mpr (hr.congr (hqt.trans ht.symm))
        exact ⟨List.mem_filter.mpr ⟨hq, by simpa using hspared⟩, hqt⟩
  | append_singleton pushed q ih =>
      rw [build_concat, ← List.append_assoc, repeats_append, ← ih]
      by_cases ha : (build rules exclusions pushed).accepts q = true
      · rw [push_of_accepts ha]
        exact repeats_append
      · rw [push_of_not_accepts ha]
        refine (or_iff_left_of_imp ?_).symm
        rintro ⟨t, ht, q', hq', hqt⟩
        obtain rfl := List.mem_singleton.mp hq'
        -- It was not kept out by an exclusion, so its literal is there already.
        rw [accepts_iff, exclusions_build, not_and_or, not_not] at ha
        obtain ⟨u, hu, kept⟩ := ha.resolve_right fun h => h (hr.congr (hqt.trans ht.symm))
        obtain rfl := Find.literal.inj (hu.symm.trans hqt)
        exact ⟨u, ht, kept⟩

/-- A rule joins if no exclusion removes it and its literal has not been given before. -/
theorem accepts_build_iff {r : Rule} :
    (build rules exclusions pushed).accepts r = true ↔
      ¬ Repeats (rules ++ pushed) r ∧ Spared exclusions r := by
  rw [accepts_iff, exclusions_build]
  exact and_congr_left fun hr => not_congr (repeats_build_iff hr)

/-- The rules in force are the configured ones and then some of the pushed ones, in order.  No literal
    is pushed that was there before, or was pushed before. -/
theorem exists_rules_build : ∃ added : List Rule, added.Sublist pushed ∧
    (build rules exclusions pushed).rules = (ofRules rules exclusions).rules ++ added ∧
    (∀ r ∈ added, ¬ Repeats (ofRules rules exclusions).rules r) ∧
    added.Pairwise fun q r => ¬ Repeats [q] r := by
  induction pushed using List.reverseRecOn with
  | nil =>
      refine ⟨[], List.Sublist.refl _, (List.append_nil _).symm, ?_, List.Pairwise.nil⟩
      exact fun r hr => absurd hr List.not_mem_nil
  | append_singleton pushed r ih =>
      obtain ⟨added, hsub, hrules, hfresh, hapart⟩ := ih
      rw [build_concat]
      by_cases ha : (build rules exclusions pushed).accepts r = true
      · have hnew := (accepts_iff.mp ha).1
        rw [hrules, repeats_append, not_or] at hnew
        refine ⟨added ++ [r], hsub.append (List.Sublist.refl _), ?_, fun q hq => ?_, ?_⟩
        · rw [push_of_accepts ha, hrules, List.append_assoc]
        · rcases List.mem_append.mp hq with hq | hq
          · exact hfresh q hq
          · exact List.mem_singleton.mp hq ▸ hnew.1
        · refine List.pairwise_append.mpr ⟨hapart, List.pairwise_singleton _ _, fun q hq q' hq' => ?_⟩
          rintro ⟨t, ht, u, hu, hut⟩
          rw [List.mem_singleton.mp hq'] at ht
          exact hnew.2 ⟨t, ht, q, hq, List.mem_singleton.mp hu ▸ hut⟩
      · rw [push_of_not_accepts ha]
        exact ⟨added, hsub.trans (List.sublist_append_left _ _), hrules, hfresh, hapart⟩

end

/-! ## Which rule counts -/

/-- The first rule for a specifier counts, unless an exclusion protects the specifier. -/
theorem resolve?_eq_some_iff {s : Set} {specifier : Text} {r : Rule} :
    s.resolve? specifier = some r ↔
      (∀ e ∈ s.exclusions, e.covers specifier = false) ∧ First s.rules specifier r := by
  have hcovered : s.exclusions.any (·.covers specifier) = false ↔
      ∀ e ∈ s.exclusions, e.covers specifier = false := by
    rw [List.any_eq_false]
    simp only [Bool.not_eq_true]
  have hfirst : s.rules.find? (·.applies specifier) = some r ↔ First s.rules specifier r := by
    rw [List.find?_eq_some_iff_append]
    simp only [Bool.not_eq_true']
    rfl
  rw [← hcovered, ← hfirst, resolve?]
  cases s.rules.find? (·.applies specifier) with
  | none => simp
  | some q => cases s.exclusions.any (·.covers specifier) <;> simp

/-- A specifier is left alone when it is excluded or no rule applies to it. -/
theorem resolve?_eq_none_iff {s : Set} {specifier : Text} :
    s.resolve? specifier = none ↔
      (∃ e ∈ s.exclusions, e.covers specifier = true) ∨ ∀ r ∈ s.rules, r.applies specifier = false := by
  have hnone : s.rules.find? (·.applies specifier) = none ↔ ∀ r ∈ s.rules, r.applies specifier = false := by
    rw [List.find?_eq_none]
    simp only [Bool.not_eq_true]
  rw [← List.any_eq_true, ← hnone, resolve?]
  cases s.rules.find? (·.applies specifier) with
  | none => simp
  | some q => cases s.exclusions.any (·.covers specifier) <;> simp

/-- A rule pushed behind one that applies changes nothing. -/
theorem resolve?_push {s : Set} {specifier : Text} (h : ∃ r ∈ s.rules, r.applies specifier = true)
    (r : Rule) : (s.push r).resolve? specifier = s.resolve? specifier := by
  unfold push
  split
  · have hfound : (s.rules.find? (·.applies specifier)).isSome = true := List.find?_isSome.mpr h
    rw [resolve?, List.find?_append, Option.or_of_isSome hfound, resolve?]
  · rfl

/-- What a rule is for already is not changed by rules that are pushed behind it. -/
theorem resolve?_foldl_push {s : Set} {specifier : Text} (h : ∃ r ∈ s.rules, r.applies specifier = true)
    (more : List Rule) : (more.foldl push s).resolve? specifier = s.resolve? specifier := by
  induction more generalizing s with
  | nil => rfl
  | cons r more ih =>
      have hkept : ∃ q ∈ (s.push r).rules, q.applies specifier = true := by
        obtain ⟨q, hq, hq'⟩ := h
        refine ⟨q, ?_, hq'⟩
        unfold push
        split
        · exact List.mem_append_left _ hq
        · exact hq
      rw [List.foldl_cons, ih hkept, resolve?_push h]

/-- The rules that a session pushes: the aliases of the compiler's `paths`, if they count. -/
def pushedBy {σ π : Type} (host : Host σ π) (p : π) : List Rule :=
  if host.options.pathsToAliases then
    Host.pathAliases host.options.root (host.compiler.options p)
  else []

theorem aliases_eq_build {σ π : Type} (host : Host σ π) (p : π) :
    host.aliases p = build host.options.aliases host.options.aliasExclusions (pushedBy host p) := by
  unfold Host.aliases pushedBy
  split <;> rfl

/-- **Rules that are in force stay in force.** However a set of aliases was made: no exclusion removes
    any of its rules.  The first rule that is for a specifier counts for it, and none does if an exclusion
    protects the specifier.  A rule joins, behind all others, if no exclusion removes it and its literal
    has not been given before; so the configured rules come first, and then those of the pushed ones whose
    literals are new.  Whatever is pushed, a specifier that a rule was for resolves as before: so what the
    compiler's `paths` say never changes what the configured aliases mean. -/
theorem build_precedence (rules : List Rule) (exclusions : List Exclusion) (pushed : List Rule) :
    let s := build rules exclusions pushed
    (∀ r ∈ s.rules, ∀ e ∈ exclusions, e.removes r = false) ∧
      (∀ specifier r, s.resolve? specifier = some r ↔
        (∀ e ∈ exclusions, e.covers specifier = false) ∧ First s.rules specifier r) ∧
      (∀ specifier, s.resolve? specifier = none ↔
        (∃ e ∈ exclusions, e.covers specifier = true) ∨ ∀ r ∈ s.rules, r.applies specifier = false) ∧
      (∃ added : List Rule, added.Sublist pushed ∧ s.rules = (ofRules rules exclusions).rules ++ added ∧
        (∀ r ∈ added, ¬ Repeats (ofRules rules exclusions).rules r) ∧
        added.Pairwise fun q r => ¬ Repeats [q] r) ∧
      (∀ r, (¬ Repeats (rules ++ pushed) r ∧ Spared exclusions r →
          (s.push r).rules = s.rules ++ [r]) ∧
        (Repeats (rules ++ pushed) r ∨ ¬ Spared exclusions r → s.push r = s)) ∧
      (∀ more specifier, (∃ r ∈ s.rules, r.applies specifier = true) →
        (build rules exclusions (pushed ++ more)).resolve? specifier = s.resolve? specifier) ∧
      ∀ {σ π : Type} (host : Host σ π) (p : π) (specifier : Text),
        (∃ r ∈ (ofRules host.options.aliases host.options.aliasExclusions).rules,
          r.applies specifier = true) →
        (host.aliases p).resolve? specifier =
          (ofRules host.options.aliases host.options.aliasExclusions).resolve? specifier := by
  intro s
  have hexclusions : s.exclusions = exclusions := exclusions_build
  refine ⟨fun r => spared_of_mem_build, fun specifier r => ?_, fun specifier => ?_, exists_rules_build,
    fun r => ⟨?_, ?_⟩, fun more specifier h => ?_, fun host p specifier h => ?_⟩
  · rw [resolve?_eq_some_iff, hexclusions]
  · rw [resolve?_eq_none_iff, hexclusions]
  · intro h
    rw [push_of_accepts (accepts_build_iff.mpr h)]
  · intro h
    refine push_of_not_accepts fun ha => ?_
    obtain ⟨hnew, hspared⟩ := accepts_build_iff.mp ha
    exact h.elim hnew fun hremoved => hremoved hspared
  · rw [build, List.foldl_append]
    exact resolve?_foldl_push h more
  · rw [aliases_eq_build]
    exact resolve?_foldl_push h _

/-- A project with an alias, whose compiler knows other paths for it and for what is below it. -/
def sharedHost : Host Files.Memory DryRun.TableProgram where
  options :=
    { BuildOptions.ofRoot "/p" with
      aliases := [⟨.literal "@", "/p/src"⟩, ⟨.literal "#internal", "/p/internal"⟩]
      aliasExclusions := [.literal "#internal", .literal "@/keep"] }
  files := Files.Memory.store
  compiler := DryRun.TableProgram.compiler
  registry := {}

/-- The paths of the compiler. -/
def sharedPaths : DryRun.TableProgram where
  currentDir := "/p"
  options :=
    { baseUrl := some "."
      paths := [("#lib/*", ["./lib/*"]), ("@/*", ["./other/*"]), ("@/x", ["./x"])] }

theorem build_precedence_sharedHost :
    (∃ r ∈ (ofRules sharedHost.options.aliases sharedHost.options.aliasExclusions).rules,
      r.applies "@/x" = true) ∧
    (sharedHost.aliases sharedPaths).resolve? "@/x" =
      (ofRules sharedHost.options.aliases sharedHost.options.aliasExclusions).resolve? "@/x" := by
  have happlies : ∃ r ∈ (ofRules sharedHost.options.aliases sharedHost.options.aliasExclusions).rules,
      r.applies "@/x" = true := ⟨⟨.literal "@", "/p/src"⟩, List.mem_cons_self, by decide⟩
  exact ⟨happlies, (build_precedence [] [] []).2.2.2.2.2.2 sharedHost sharedPaths "@/x" happlies⟩

/-- The new alias and the narrower one join, the narrower one without effect. -/
example :
    (sharedHost.aliases sharedPaths).rules.map (·.replacement) = [("/p/src" : Text), "/p/lib", "/p/x"] ∧
      ((sharedHost.aliases sharedPaths).resolve? "@/x").map (·.replacement) = some "/p/src".toList ∧
      ((sharedHost.aliases sharedPaths).resolve? "#lib/y").map (·.replacement) = some "/p/lib".toList ∧
      ((sharedHost.aliases sharedPaths).resolve? "@/keep").map (·.replacement) = none := by
  decide +kernel

end Set

end Typings.Alias
