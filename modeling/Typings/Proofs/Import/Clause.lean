import Typings.Declaration.Consolidation
import Typings.Proofs.Import.Completeness
import Typings.Proofs.Text

/-!
# `Clause` — the bindings of a written clause

The text of a clause is cut into its bindings at braces, commas and blanks.  A clause that was put
together from bindings is cut into those bindings again, provided that no blank stands in a name: beyond
ASCII a character may be a blank and belong to an identifier at once.

* `Word.Solid`, `ImportClause.Solid`: no blank stands in a word, and in the names of a clause.
* `Neat`: a binding that stays as it is when it is tidied; `Binding.neat` for those of the grammar.
* `namedBindings?_braced`: the bindings between braces.
* `clauseBindings?_braced`, `clauseBindings?_both`: the bindings of a clause with braces.
* `clauseBindings?_text`: the bindings of a written clause.
* `Binds`, `binds_of_clauseBindings?`: how a clause with bindings looks, and `of_mem_bindings`,
  `exists_mem_bindings`: which of its characters the bindings have.
-/

namespace Typings.Import

open Declaration (braced)

/-! ## Words without blanks -/

/-- No blank stands in the word. -/
def Word.Solid (w : Word) : Prop := ∀ c ∈ w.text, Text.isBlank c = false

theorem solid_typeWord : typeWord.Solid := by
  unfold Word.Solid
  decide

theorem solid_asWord : asWord.Solid := by
  unfold Word.Solid
  decide

/-- No blank stands in the names of the binding. -/
def Binding.Solid (b : Binding) : Prop := b.name.Solid ∧ ∀ n ∈ b.renamed, n.Solid

/-- No blank stands in the names of the clause that are read one by one. -/
def ImportClause.Solid : ImportClause → Prop
  | .default n => n.Solid
  | .all _ => True
  | .named bs => ∀ b ∈ bs, b.Solid
  | .both n bs => n.Solid ∧ ∀ b ∈ bs, b.Solid

/-! ## Bindings -/

namespace Binding

/-- The words of a binding. -/
def words (b : Binding) : List Word :=
  (if b.typed then [typeWord] else []) ++ b.name.toWord :: match b.renamed with
    | some n => [asWord, n.toWord]
    | none => []

theorem text_eq (b : Binding) : b.text = List.intercalate " " (b.words.map Word.text) := by
  obtain ⟨typed, n, renamed⟩ := b
  cases typed <;> cases renamed <;>
    simp [text, words, modifier, typeWord, asWord]

theorem Solid.words {b : Binding} (h : b.Solid) : ∀ w ∈ b.words, w.Solid := by
  obtain ⟨typed, n, renamed⟩ := b
  obtain ⟨hname, hrenamed⟩ := h
  cases typed <;> cases renamed <;>
    simp_all [Binding.words, solid_typeWord, solid_asWord]

theorem mem_text {b : Binding} {c : Char} (h : c ∈ b.text) : isIdent c = true ∨ c = ' ' := by
  rw [text_eq] at h
  rcases Text.mem_intercalate h with h | ⟨t, ht, hc⟩
  · exact .inr (List.mem_singleton.mp h)
  · obtain ⟨w, -, rfl⟩ := List.mem_map.mp ht
    exact .inl (w.ident c hc)

theorem text_ne_nil (b : Binding) : b.text ≠ [] := by
  obtain ⟨typed, n, renamed⟩ := b
  obtain ⟨c, t, hn⟩ := List.exists_cons_of_ne_nil n.nonempty
  cases typed <;> simp [text, modifier, hn]

end Binding

/-- A binding that stays as it is when it is tidied: names, with single blanks between them. -/
structure Neat (t : Text) : Prop where
  nonempty : t ≠ []
  tidy : tidyBinding t = t
  chars : ∀ c ∈ t, isIdent c = true ∨ c = ' '

theorem Binding.neat {b : Binding} (h : b.Solid) : Neat b.text where
  nonempty := b.text_ne_nil
  chars _ := Binding.mem_text
  tidy := by
    have hwords : Text.words (List.intercalate " " (b.words.map Word.text) ++ []) = b.words.map Word.text := by
      refine Text.words_intercalate (fun t ht => ?_) (by simp)
      obtain ⟨w, hw, rfl⟩ := List.mem_map.mp ht
      exact ⟨w.nonempty, h.words w hw⟩
    rw [List.append_nil, ← b.text_eq] at hwords
    rw [tidyBinding, hwords, ← b.text_eq]

theorem forall_neat {bs : List Binding} (h : ∀ b ∈ bs, b.Solid) : ∀ t ∈ bs.map Binding.text, Neat t :=
  List.forall_mem_map.mpr fun b hb => b.neat (h b hb)

section

variable {t : Text} (h : Neat t)

include h

/-- A neat binding is tidied to itself also with blanks around it. -/
theorem Neat.padded {pad : Text} (hpad : ∀ c ∈ pad, Text.isBlank c = true) :
    tidyBinding (' ' :: (t ++ pad)) = t := by
  have hwords : Text.words (t ++ pad) = Text.words t := by
    have hjoined := Text.words_intercalate (fun w hw => Text.solid_of_mem_words (t := t) hw) hpad
    rwa [show List.intercalate " " (Text.words t) = t from h.tidy] at hjoined
  rw [tidyBinding, Text.words_cons_blank (by decide), hwords]
  exact h.tidy

theorem Neat.not_mem {c : Char} (hi : isIdent c = false) (hc : c ≠ ' ') : c ∉ t := fun hm =>
  (h.chars c hm).elim (fun hident => by rw [hident] at hi; cases hi) hc

end

/-! ## Braces -/

theorem braced_eq (ts : List Text) :
    braced ts = '\x7b' :: ' ' :: (List.intercalate ", " ts ++ [' ', '\x7d']) := rfl

theorem braced_ne_nil (ts : List Text) : braced ts ≠ [] := List.cons_ne_nil _ _

section

variable {ts : List Text} (h : ∀ t ∈ ts, Neat t)

include h

theorem mem_joined {c : Char} (hc : c ∈ List.intercalate ", " ts) : isIdent c = true ∨ c = ' ' ∨ c = ',' := by
  rcases Text.mem_intercalate hc with hc | ⟨t, ht, hc⟩
  · have hcases : c = ',' ∨ c = ' ' := by simpa using hc
    exact .inr hcases.symm
  · exact ((h t ht).chars c hc).imp_right .inl

/-- A character that is neither part of a name nor one of the marks does not stand in braces. -/
theorem not_mem_braced {c : Char} (hi : isIdent c = false) (hc : c ∉ [' ', ',', '\x7b', '\x7d']) :
    c ∉ braced ts := by
  have hlist : c ∉ List.intercalate ", " ts := by
    intro hm
    rcases mem_joined h hm with hm | rfl | rfl
    · rw [hi] at hm
      cases hm
    · exact hc (by simp)
    · exact hc (by simp)
  simp only [List.mem_cons, List.not_mem_nil, or_false, not_or] at hc
  simp only [braced_eq, List.mem_cons, List.mem_append, List.not_mem_nil, or_false, not_or]
  exact ⟨hc.2.2.1, hc.1, hlist, hc.1, hc.2.2.2⟩

/-- The inside of braces is cut at its commas into the bindings. -/
theorem tidied_joined :
    (((List.splitOn ',' (' ' :: (List.intercalate ", " ts ++ [' ']))).map tidyBinding).filter
      fun b => !b.isEmpty) = ts := by
  have hkept {t : Text} (ht : Neat t) : [t].filter (fun b => !b.isEmpty) = [t] :=
    List.filter_eq_self.mpr (by simp [ht.nonempty])
  induction ts with
  | nil => decide
  | cons t ts ih =>
      have ht := h t (by simp)
      have hcomma : ',' ∉ t := ht.not_mem (by decide) (by decide)
      -- The last binding has the blank before the closing brace with it; the others end at a comma.
      cases ts with
      | nil =>
          rw [List.intercalate_singleton, List.splitOn_eq_singleton (by simp [hcomma]), List.map_singleton,
            ht.padded (by decide), hkept ht]
      | cons t' ts =>
          have hrest := ih fun u hu => h u (by simp [hu])
          have htidy : tidyBinding (' ' :: (t ++ [])) = t := ht.padded (by simp)
          have hjoin : ' ' :: (List.intercalate ", " (t :: t' :: ts) ++ [' '])
              = (' ' :: t) ++ ',' :: (' ' :: (List.intercalate ", " (t' :: ts) ++ [' '])) := by
            rw [List.intercalate_cons_of_ne_nil (by simp)]
            simp
          rw [List.append_nil] at htidy
          rw [hjoin, List.splitOn_append_cons_self, List.splitOn_eq_singleton (by simp [hcomma]), List.map_append,
            List.filter_append, hrest, List.map_singleton, htidy, hkept ht]
          rfl

/-- The bindings between braces. -/
theorem namedBindings?_braced : namedBindings? (braced ts) = some ts := by
  have hopen : List.isPrefixOf? "\x7b" (braced ts)
      = some (' ' :: (List.intercalate ", " ts ++ [' ']) ++ ['\x7d']) := by
    rw [List.isPrefixOf?_eq_some_iff_append_eq, braced_eq]
    simp
  have hclose : List.isSuffixOf? "\x7d" (' ' :: (List.intercalate ", " ts ++ [' ']) ++ ['\x7d'])
      = some (' ' :: (List.intercalate ", " ts ++ [' '])) := List.isSuffixOf?_eq_some_iff_append_eq.mpr rfl
  have hbraces : ((' ' :: (List.intercalate ", " ts ++ [' '])).any fun c => c == '\x7b' || c == '\x7d')
      = false := by
    have hlist : ∀ c ∈ List.intercalate ", " ts, c ≠ '\x7b' ∧ c ≠ '\x7d' := by
      intro c hc
      rcases mem_joined h hc with hi | rfl | rfl
      · exact ⟨ne_of_isIdent hi (by decide), ne_of_isIdent hi (by decide)⟩
      · decide
      · decide
    rw [List.any_eq_false]
    intro c hc
    have hcases : c = ' ' ∨ c ∈ List.intercalate ", " ts := by simpa [or_comm, or_assoc] using hc
    rcases hcases with rfl | hc
    · decide
    · simp [hlist c hc]
  simp only [namedBindings?, hopen, hclose, hbraces, Option.bind_eq_bind, Option.bind_some]
  exact congrArg some (tidied_joined h)

end

/-! ## Clauses -/

/-- The bindings of a clause; none for `* as n`. -/
def ImportClause.bindings? : ImportClause → Option Bindings
  | .default n => some ⟨some n.text, none⟩
  | .all _ => none
  | .named bs => some ⟨none, some (bs.map Binding.text)⟩
  | .both n bs => some ⟨some n.text, some (bs.map Binding.text)⟩

theorem Name.not_mem_text (n : Name) {c : Char} (hi : isIdent c = false) : c ∉ n.text := fun h => by
  rw [n.ident c h] at hi
  cases hi

/-- A default binding: a word without blanks. -/
structure IsDefault (d : Text) : Prop where
  nonempty : d ≠ []
  ident : ∀ c ∈ d, isIdent c = true
  solid : ∀ c ∈ d, Text.isBlank c = false

theorem Word.Solid.isDefault {n : Name} (h : n.Solid) : IsDefault n.text := ⟨n.nonempty, n.ident, h⟩

section

variable {d : Text} (h : IsDefault d)

include h

theorem IsDefault.trim : Text.trim d = d :=
  Text.trim_of_ends (fun c hc => h.solid c (List.mem_of_mem_head? hc))
    fun c hc => h.solid c (List.mem_of_getLast? hc)

theorem IsDefault.not_mem {c : Char} (hi : isIdent c = false) : c ∉ d := fun hc => by
  rw [h.ident c hc] at hi
  cases hi

theorem IsDefault.isDefaultName : isDefaultName d = true := by
  have hne : d.isEmpty = false := List.isEmpty_eq_false_iff.mpr h.nonempty
  have hany : (d.any fun c => c == ',' || c == ' ') = false := by
    rw [List.any_eq_false]
    intro c hc
    have hi := h.ident c hc
    simp [ne_of_isIdent hi (d := ',') (by decide), ne_of_isIdent hi (d := ' ') (by decide)]
  rw [Import.isDefaultName, hne, hany]
  rfl

/-- A default binding alone is a clause. -/
theorem clauseBindings?_isDefault : clauseBindings? d = some ⟨some d, none⟩ := by
  have hspan : d.span (· != '\x7b') = (d, []) := by
    have hbrace : ∀ c ∈ d, (c != '\x7b') = true := fun c hc =>
      bne_iff_ne.mpr (ne_of_mem_of_not_mem hc (h.not_mem (by decide)))
    rw [List.span_eq_takeWhile_dropWhile, List.takeWhile_eq_self_iff.mpr hbrace,
      List.dropWhile_eq_nil_iff.mpr hbrace]
  rw [clauseBindings?, h.trim, if_neg (by simp [h.nonempty, h.not_mem (c := '*') (by decide)]), hspan]
  exact if_pos h.isDefaultName

end

section

variable {ts : List Text}

theorem trim_braced (front : Text) (hfront : ∀ c ∈ front.head?, Text.isBlank c = false) (ts : List Text) :
    Text.trim (front ++ braced ts) = front ++ braced ts := by
  refine Text.trim_of_ends (fun c hc => ?_) fun c hc => ?_
  · cases front with
    | nil =>
        cases hc
        decide
    | cons d front => exact hfront c hc
  · have hsplit : front ++ braced ts
        = (front ++ '\x7b' :: ' ' :: (List.intercalate ", " ts ++ [' '])) ++ ['\x7d'] := by
      simp [braced_eq]
    rw [hsplit, List.getLast?_concat] at hc
    cases hc
    decide

/-- The part of a text that stands before its opening brace. -/
theorem span_brace {front : Text} (hf : '\x7b' ∉ front) (ts : List Text) :
    (front ++ braced ts).span (· != '\x7b') = (front, braced ts) := by
  have hf' : ∀ d ∈ front, (d != '\x7b') = true := fun d hd => bne_iff_ne.mpr (ne_of_mem_of_not_mem hd hf)
  simp [List.span_eq_takeWhile_dropWhile, List.takeWhile_append_of_pos hf',
    List.dropWhile_append_of_pos hf', braced_eq]

variable (hts : ∀ t ∈ ts, Neat t)

include hts

/-- The bindings of a clause that is braces. -/
theorem clauseBindings?_braced : clauseBindings? (braced ts) = some ⟨none, some ts⟩ := by
  have hstar : '*' ∉ braced ts := not_mem_braced hts (by decide) (by decide)
  have htrim := trim_braced [] (by simp) ts
  have hspan := @span_brace [] (by simp) ts
  rw [List.nil_append] at htrim hspan
  rw [clauseBindings?, htrim, if_neg (by simp [braced_ne_nil, hstar]), hspan]
  show (namedBindings? (braced ts)).map _ = _
  rw [namedBindings?_braced hts]
  rfl

/-- The bindings of a clause with a default binding in front of its braces. -/
theorem clauseBindings?_both {d : Text} (hd : IsDefault d) :
    clauseBindings? (d ++ ", " ++ braced ts) = some ⟨some d, some ts⟩ := by
  have hstar : '*' ∉ d ++ ", " ++ braced ts := by
    simp only [List.mem_append, not_or]
    exact ⟨⟨hd.not_mem (by decide), by decide⟩, not_mem_braced hts (by decide) (by decide)⟩
  have hbrace : '\x7b' ∉ d := hd.not_mem (by decide)
  obtain ⟨c, t, rfl⟩ := List.exists_cons_of_ne_nil hd.nonempty
  have hblank : Text.isBlank c = false := hd.solid c (by simp)
  have htrim := trim_braced (c :: t ++ ", ") (by simp [hblank]) ts
  have hspan : (c :: t ++ ", " ++ braced ts).span (· != '\x7b') = (c :: (t ++ ", "), braced ts) := by
    refine span_brace (fun hm => ?_) ts
    exact (List.mem_append.mp hm).elim hbrace (by decide)
  have hbefore : Text.trim (c :: (t ++ ", ")) = c :: t ++ "," := by
    rw [Text.trim, Text.trimStart, Text.trimStartBy, List.dropWhile_cons_of_neg (by simp [hblank])]
    simp [Text.trimEnd, Text.trimEndBy, Text.isBlank]
  have hstrip : List.isSuffixOf? ("," : Text) (c :: t ++ ",") = some (c :: t) :=
    List.isSuffixOf?_eq_some_iff_append_eq.mpr rfl
  rw [clauseBindings?, htrim, if_neg (by simpa using hstar), hspan]
  show ((List.isSuffixOf? "," (Text.trim (c :: (t ++ ", ")))).bind fun default => _) = _
  rw [hbefore, hstrip]
  show (if isDefaultName (Text.trim (c :: t)) then _ else _) = _
  rw [hd.trim, if_pos hd.isDefaultName, namedBindings?_braced hts]
  rfl

end

/-- **A written clause has the bindings that it was written with.** -/
theorem clauseBindings?_text {c : ImportClause} (h : c.Solid) : clauseBindings? c.text = c.bindings? := by
  cases c with
  | default n => exact clauseBindings?_isDefault (Word.Solid.isDefault h)
  | all n =>
      have htrim : '*' ∈ Text.trim ("* as " ++ n.text) := Text.mem_trim (by simp) (by decide)
      show clauseBindings? ("* as " ++ n.text) = _
      rw [clauseBindings?, if_pos (by rw [List.contains_iff_mem.mpr htrim, Bool.or_true])]
      rfl
  | named bs => exact clauseBindings?_braced (forall_neat h)
  | both n bs => exact clauseBindings?_both (forall_neat h.2) (Word.Solid.isDefault h.1)

/-! ## Clauses that were read -/

/-- Tidying a binding leaves single blanks between its words. -/
theorem tidyBinding_tidyBinding (t : Text) : tidyBinding (tidyBinding t) = tidyBinding t := by
  have hwords := @Text.words_intercalate (Text.words t) (fun w hw => Text.solid_of_mem_words hw) [] nofun
  rw [List.append_nil] at hwords
  rw [tidyBinding, tidyBinding, hwords]

theorem mem_tidyBinding {t : Text} {c : Char} (h : c ∈ tidyBinding t) :
    c = ' ' ∨ c ∈ t ∧ Text.isBlank c = false := by
  rcases Text.mem_intercalate h with h | ⟨w, hw, hc⟩
  · exact .inl (List.mem_singleton.mp h)
  · exact .inr (Text.mem_words_iff.mp ⟨w, hw, hc⟩)

theorem mem_tidyBinding_of_mem {t : Text} {c : Char} (h : c ∈ t) (hc : Text.isBlank c = false) :
    c ∈ tidyBinding t := by
  obtain ⟨w, hw, hcw⟩ := Text.mem_words_iff.mpr ⟨h, hc⟩
  exact Text.mem_intercalate_of_mem " " hw hcw

section

variable {braces : Text} {ts : List Text} (h : namedBindings? braces = some ts)

include h

/-- The bindings between braces are what stands between commas. -/
theorem exists_inner : ∃ inner : Text,
    braces = '\x7b' :: (inner ++ ['\x7d']) ∧ '\x7b' ∉ inner ∧ '\x7d' ∉ inner ∧
      ts = ((List.splitOn ',' inner).map tidyBinding).filter fun b => !b.isEmpty := by
  obtain ⟨opened, hopened, h⟩ := Option.bind_eq_some_iff.mp h
  obtain ⟨inner, hinner, h⟩ := Option.bind_eq_some_iff.mp h
  split at h
  · cases h
  · next hbraces =>
      obtain rfl := Option.some.inj h
      have hmarks : ∀ c ∈ inner, c ≠ '\x7b' ∧ c ≠ '\x7d' := by simpa using hbraces
      refine ⟨inner, ?_, fun hc => (hmarks _ hc).1 rfl, fun hc => (hmarks _ hc).2 rfl, rfl⟩
      rw [← List.isPrefixOf?_eq_some_iff_append_eq.mp hopened, ← List.isSuffixOf?_eq_some_iff_append_eq.mp hinner]
      rfl

/-- A binding between braces is tidy, and made of what stands there. -/
theorem of_mem_named {t : Text} (ht : t ∈ ts) :
    t ≠ [] ∧ tidyBinding t = t ∧ ∀ c ∈ t, c = ' ' ∨
      c ∈ braces ∧ Text.isBlank c = false ∧ c ≠ ',' ∧ c ≠ '\x7b' ∧ c ≠ '\x7d' := by
  obtain ⟨inner, rfl, hopen, hclose, rfl⟩ := exists_inner h
  obtain ⟨hmem, hne⟩ := List.mem_filter.mp ht
  obtain ⟨piece, hpiece, rfl⟩ := List.mem_map.mp hmem
  refine ⟨by simpa using hne, tidyBinding_tidyBinding piece, fun c hc => ?_⟩
  rcases mem_tidyBinding hc with rfl | ⟨hc, hblank⟩
  · exact .inl rfl
  · have hinner := Text.mem_of_mem_splitOn hpiece hc
    exact .inr ⟨by simp [hinner], hblank, ne_of_mem_of_not_mem hc (Text.not_mem_of_mem_splitOn hpiece),
      ne_of_mem_of_not_mem hinner hopen, ne_of_mem_of_not_mem hinner hclose⟩

/-- What stands between braces is in the bindings, but for blanks and commas. -/
theorem exists_mem_named {c : Char} (hc : c ∈ braces) (hblank : Text.isBlank c = false) (hcomma : c ≠ ',')
    (hopen : c ≠ '\x7b') (hclose : c ≠ '\x7d') : ∃ t ∈ ts, c ∈ t := by
  obtain ⟨inner, rfl, -, -, rfl⟩ := exists_inner h
  have hinner : c ∈ inner := by simpa [hopen, hclose] using hc
  obtain ⟨piece, hpiece, hmem⟩ := (Text.mem_splitOnP_iff (p := (· == ','))).mpr ⟨hinner, by simpa using hcomma⟩
  have htidy := mem_tidyBinding_of_mem hmem hblank
  refine ⟨_, List.mem_filter.mpr ⟨List.mem_map_of_mem hpiece, ?_⟩, htidy⟩
  simpa using List.ne_nil_of_mem htidy

end

/-- What the parts of a clause bind. -/
inductive Binds : Text → Bindings → Prop where
  | default {d : Text} (hd : '\x7b' ∉ d) : Binds d ⟨some d, none⟩
  | named {braces : Text} {ts : List Text} (h : namedBindings? braces = some ts) : Binds braces ⟨none, some ts⟩
  | both {d pad braces : Text} {ts : List Text} (hpad : ∀ c ∈ pad, Text.isBlank c = true ∨ c = ',')
      (hne : pad ≠ []) (h : namedBindings? braces = some ts) : Binds (d ++ pad ++ braces) ⟨some d, some ts⟩

/-- A default binding is what stands in front of a comma. -/
theorem of_stripComma {front stripped : Text}
    (hfront : List.isSuffixOf? "," (Text.trim front) = some stripped)
    (hhead : ∀ c ∈ front.head?, Text.isBlank c = false) :
    ∃ pad : Text, front = Text.trim stripped ++ pad ∧ pad ≠ [] ∧
      ∀ c ∈ pad, Text.isBlank c = true ∨ c = ',' := by
  have htrim : Text.trim front = stripped ++ [','] := (List.isSuffixOf?_eq_some_iff_append_eq.mp hfront).symm
  -- There are no blanks in front of either text.
  have hstart {t : Text} (ht : ∀ c ∈ t.head?, Text.isBlank c = false) :
      ∃ back : Text, t = Text.trim t ++ back ∧ ∀ c ∈ back, Text.isBlank c = true := by
    obtain ⟨lead, back, hsplit, hlead, hback⟩ := Text.exists_trim t
    cases lead with
    | nil => exact ⟨back, hsplit, hback⟩
    | cons c lead =>
        have hc := ht c (by rw [hsplit]; rfl)
        rw [hlead c (by simp)] at hc
        cases hc
  obtain ⟨back, hback, hbacks⟩ := hstart hhead
  obtain ⟨last, hlast, hlasts⟩ := hstart (t := stripped) fun c hc => by
    refine Text.not_isBlank_of_head?_trim (t := front) ?_
    rw [htrim, List.head?_append, hc, Option.some_or]
  refine ⟨last ++ ',' :: back, ?_, by simp, fun c hc => ?_⟩
  · rw [htrim] at hback
    rw [hback]
    conv_lhs => rw [hlast]
    simp
  · rcases List.mem_append.mp hc with hc | hc
    · exact .inl (hlasts c hc)
    · exact (List.mem_cons.mp hc).symm.imp_left (hbacks c)

theorem binds_of_clauseBindings? {clause : Text} {b : Bindings} (h : clauseBindings? clause = some b) :
    '*' ∉ clause ∧ Binds (Text.trim clause) b := by
  rw [clauseBindings?] at h
  split at h
  · cases h
  next hstar =>
  simp only [Bool.or_eq_true, not_or] at hstar
  refine ⟨fun hm => hstar.2 (List.contains_iff_mem.mpr (Text.mem_trim hm (by decide))), ?_⟩
  have happend := List.takeWhile_append_dropWhile (p := (· != '\x7b')) (l := Text.trim clause)
  have hfront : '\x7b' ∉ (Text.trim clause).takeWhile (· != '\x7b') := fun hm => by
    simpa using List.mem_takeWhile_imp hm
  rw [List.span_eq_takeWhile_dropWhile] at h
  generalize (Text.trim clause).takeWhile (· != '\x7b') = front at h happend hfront
  generalize (Text.trim clause).dropWhile (· != '\x7b') = braces at h happend
  -- The default in front of a brace starts where the trimmed clause does, so it has no blank there.
  have hhead : ∀ c ∈ front.head?, Text.isBlank c = false := fun c hc =>
    Text.not_isBlank_of_head?_trim (t := clause) (by rw [← happend, List.head?_append, hc, Option.some_or])
  rw [← happend]
  split at h
  · next heq =>
      obtain ⟨rfl, rfl⟩ := Prod.mk.inj heq
      rw [List.append_nil] at happend ⊢
      rw [← happend] at h
      split at h
      · obtain rfl := Option.some.inj h
        exact .default hfront
      · cases h
  · next heq =>
      obtain ⟨rfl, rfl⟩ := Prod.mk.inj heq
      obtain ⟨ts, hts, rfl⟩ := Option.map_eq_some_iff.mp h
      exact .named hts
  · next heq =>
      obtain ⟨rfl, rfl⟩ := Prod.mk.inj heq
      obtain ⟨stripped, hstripped, h⟩ := Option.bind_eq_some_iff.mp h
      dsimp only at h
      split at h
      · obtain ⟨ts, hts, rfl⟩ := Option.map_eq_some_iff.mp h
        obtain ⟨pad, rfl, hne, hpad⟩ := of_stripComma hstripped hhead
        exact .both hpad hne hts
      · cases h

section

variable {clause : Text} {b : Bindings} (h : clauseBindings? clause = some b)

include h

/-- A clause that starts with no blank starts with its default binding, or with a brace where there is
    none. -/
theorem default_or_brace {c : Char} (hc : clause.head? = some c) (hblank : Text.isBlank c = false) :
    b.default = none ∧ c = '\x7b' ∨ ∃ d pad, b.default = some d ∧ clause = d ++ pad ∧
      ∀ e ∈ pad.head?, Text.isBlank e = true ∨ e = ',' := by
  obtain ⟨-, hbinds⟩ := binds_of_clauseBindings? h
  obtain ⟨lead, back, hsplit, hlead, hback⟩ := Text.exists_trim clause
  have hnil : lead = [] := by
    cases lead with
    | nil => rfl
    | cons e lead =>
        rw [hsplit] at hc
        obtain rfl := Option.some.inj hc
        rw [hlead e (by simp)] at hblank
        cases hblank
  generalize Text.trim clause = body at hbinds hsplit
  rw [hnil, List.nil_append] at hsplit
  cases hbinds with
  | default => exact .inr ⟨body, back, rfl, hsplit, fun e he => .inl (hback e (List.mem_of_mem_head? he))⟩
  | named hnames =>
      obtain ⟨inner, rfl, -⟩ := exists_inner hnames
      rw [hsplit] at hc
      exact .inl ⟨rfl, (Option.some.inj hc).symm⟩
  | @both d pad braces ts hpad hne _ =>
      obtain ⟨q, u, rfl⟩ := List.exists_cons_of_ne_nil hne
      refine .inr ⟨d, q :: u ++ braces ++ back, rfl, by simp [hsplit], fun e he => ?_⟩
      obtain rfl := Option.some.inj he
      exact hpad q (by simp)

/-- A named binding of a clause is tidy, and made of what stands there. -/
theorem of_mem_bindings {ts : List Text} (hb : b.named = some ts) {t : Text} (ht : t ∈ ts) :
    t ≠ [] ∧ tidyBinding t = t ∧ ∀ c ∈ t, c = ' ' ∨ c ∈ clause ∧ Text.isBlank c = false ∧ c ≠ ',' ∧
      c ≠ '\x7b' ∧ c ≠ '\x7d' ∧ c ≠ '*' := by
  obtain ⟨hstar, hbinds⟩ := binds_of_clauseBindings? h
  have hnamed {front braces : Text} (hsplit : front ++ braces = Text.trim clause)
      (h : namedBindings? braces = some ts) : t ≠ [] ∧ tidyBinding t = t ∧ ∀ c ∈ t, c = ' ' ∨
        c ∈ clause ∧ Text.isBlank c = false ∧ c ≠ ',' ∧ c ≠ '\x7b' ∧ c ≠ '\x7d' ∧ c ≠ '*' := by
    obtain ⟨hne, htidy, hchars⟩ := of_mem_named h ht
    refine ⟨hne, htidy, fun c hc => (hchars c hc).imp_right fun ⟨hmem, hblank, hcomma, hopen, hclose⟩ => ?_⟩
    have hclause : c ∈ clause := Text.mem_of_mem_trim (hsplit ▸ List.mem_append_right front hmem)
    exact ⟨hclause, hblank, hcomma, hopen, hclose, ne_of_mem_of_not_mem hclause hstar⟩
  generalize Text.trim clause = body at hbinds hnamed
  cases hbinds with
  | default => cases hb
  | named hnames =>
      obtain rfl := Option.some.inj hb
      exact hnamed (List.nil_append _) hnames
  | both _ _ hnames =>
      obtain rfl := Option.some.inj hb
      exact hnamed rfl hnames

variable (hdefault : ∀ d ∈ b.default, IsDefault d)

include hdefault

/-- What stands in a clause and is no part of a name is in its named bindings, but for blanks and marks. -/
theorem exists_mem_bindings {c : Char} (hc : c ∈ clause) (hident : isIdent c = false)
    (hblank : Text.isBlank c = false) (hcomma : c ≠ ',') (hopen : c ≠ '\x7b') (hclose : c ≠ '\x7d') :
    ∃ ts ∈ b.named, ∃ t ∈ ts, c ∈ t := by
  have htrim := Text.mem_trim hc hblank
  obtain ⟨-, hbinds⟩ := binds_of_clauseBindings? h
  generalize Text.trim clause = body at hbinds htrim
  have hname {d : Text} (hd : IsDefault d) : c ∉ d := hd.not_mem hident
  cases hbinds with
  | default => exact absurd htrim (hname (hdefault _ rfl))
  | named hnames => exact ⟨_, rfl, exists_mem_named hnames htrim hblank hcomma hopen hclose⟩
  | both hpad _ hnames =>
      rcases List.mem_append.mp htrim with hm | hm
      · rcases List.mem_append.mp hm with hm | hm
        · exact absurd hm (hname (hdefault _ rfl))
        · rcases hpad c hm with hb | hb
          · rw [hblank] at hb
            cases hb
          · exact absurd hb hcomma
      · exact ⟨_, rfl, exists_mem_named hnames hm hblank hcomma hopen hclose⟩

/-- Behind the closing brace of a clause there are only blanks. -/
theorem exists_closing (hb : b.named ≠ none) : ∃ front back : Text, clause = front ++ '\x7d' :: back ∧
    '\x7d' ∉ front ∧ ∀ c ∈ back, Text.isBlank c = true := by
  obtain ⟨-, hbinds⟩ := binds_of_clauseBindings? h
  obtain ⟨front, back, hsplit, hfront, hback⟩ := Text.exists_trim clause
  have hnot : '\x7d' ∉ front := fun hm => absurd (hfront _ hm) (by decide)
  generalize Text.trim clause = body at hbinds hsplit
  cases hbinds with
  | default => exact absurd rfl hb
  | named hnames =>
      obtain ⟨inner, rfl, -, hclose, -⟩ := exists_inner hnames
      refine ⟨front ++ '\x7b' :: inner, back, by simp [hsplit], ?_, hback⟩
      simp [hnot, hclose]
  | @both d pad braces ts hpad _ hnames =>
      obtain ⟨inner, rfl, -, hclose, -⟩ := exists_inner hnames
      have hname : '\x7d' ∉ d := (hdefault d rfl).not_mem (by decide)
      have hmark : '\x7d' ∉ pad := fun hm => (hpad _ hm).elim (by decide) (by decide)
      refine ⟨front ++ d ++ pad ++ '\x7b' :: inner, back, by simp [hsplit], ?_, hback⟩
      simp [hnot, hname, hmark, hclose]

end

end Typings.Import
