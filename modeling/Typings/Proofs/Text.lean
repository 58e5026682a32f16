import Mathlib.Data.List.Basic
import Mathlib.Data.List.TakeDrop
import Mathlib.Data.List.TakeWhile
import Typings.Text

/-!
# `Text` — cutting, joining, trimming and measuring

What the other modules know of a text beyond the library's own laws of lists.  Specifiers, clauses, path
spellings and mappings are all cut at single characters and put together again, so the proofs about them
rest on two kinds of facts: which characters the pieces have, and that what was put together is found again.

* `mem_splitOnP_iff`, `not_mem_of_mem_splitOn`, `length_splitOn_le`: cutting leaves out the separators and
  nothing else, and gives no more pieces than characters and one.
* `mem_intercalate`, `mem_intercalate_of_mem`: the characters of what was joined.
* `replaceChar_of_not_mem`: replacing a character that does not occur.
* `cutLast?_eq_some_iff`: what stands before and after the last occurrence of a character.
* `words_intercalate`, `mem_words_iff`: the words of a text that was put together from words, and their
  characters.
* `exists_trim`, `trim_isEmpty_iff`: what is trimmed are blanks at the ends, all of a text of blanks.
* `lines_intercalate`: lines that were put together are found again.
* `byteSize_pos`, `length_le_byteSize`, `drop_bytes`, `take_bytes`: the size in bytes, and cutting bytes
  where a text ends; `append_inj_byteSize` is why an offset in bytes determines a place.
* `toList_literal`, `map_toList_literals`: literals by their characters.
-/

namespace Typings.Text

/-! ## Cutting

The laws of `List.splitOn` and `List.intercalate` themselves are the library's; these are the ones that the
paths and the import clauses need besides. -/

/-- A separator in front ends an empty piece. -/
theorem splitOn_cons_sep (c : Char) (t : Text) : List.splitOn c (c :: t) = [] :: List.splitOn c t := by
  rw [List.splitOn_cons_eq_if_modifyHead, if_pos (by simp)]

/-- Any other character in front belongs to the first piece. -/
theorem splitOn_cons_of_ne {c d : Char} (h : d ≠ c) (t : Text) :
    ∃ piece rest, List.splitOn c t = piece :: rest ∧ List.splitOn c (d :: t) = (d :: piece) :: rest := by
  obtain ⟨piece, rest, hs⟩ := List.exists_cons_of_ne_nil (List.splitOn_ne_nil c t)
  refine ⟨piece, rest, hs, ?_⟩
  rw [List.splitOn_cons_eq_if_modifyHead, if_neg (by simpa using h), hs, List.modifyHead_cons]

/-- Cutting leaves out the characters that separate, and no others. -/
theorem flatten_splitOnP (p : Char → Bool) (t : Text) :
    (List.splitOnP p t).flatten = t.filter fun c => !p c := by
  induction t with
  | nil => rfl
  | cons c t ih =>
      rw [List.splitOnP_cons_eq_if_modifyHead]
      split
      · next hc => rw [List.flatten_cons, ih, List.filter_cons_of_neg (by simp [hc]), List.nil_append]
      · next hc =>
          obtain ⟨piece, rest, hs⟩ := List.exists_cons_of_ne_nil (List.splitOnP_ne_nil p t)
          rw [List.filter_cons_of_pos (by simp [hc]), ← ih, hs]
          rfl

/-- The pieces have exactly the characters that do not separate. -/
theorem mem_splitOnP_iff {p : Char → Bool} {t : Text} {c : Char} :
    (∃ piece ∈ List.splitOnP p t, c ∈ piece) ↔ c ∈ t ∧ p c = false := by
  rw [← List.mem_flatten, flatten_splitOnP, List.mem_filter, Bool.not_eq_true']

/-- No piece has the separator. -/
theorem not_mem_of_mem_splitOn {c : Char} {t piece : Text} (h : piece ∈ List.splitOn c t) : c ∉ piece := by
  intro hm
  simpa using (mem_splitOnP_iff.mp ⟨piece, h, hm⟩).2

/-- A piece has no character that the text does not have. -/
theorem mem_of_mem_splitOn {c d : Char} {t piece : Text} (h : piece ∈ List.splitOn c t) (hd : d ∈ piece) :
    d ∈ t := (mem_splitOnP_iff.mp ⟨piece, h, hd⟩).1

/-- There are no more pieces than characters and one. -/
theorem length_splitOn_le (c : Char) (t : Text) : (List.splitOn c t).length ≤ t.length + 1 := by
  induction t with
  | nil => exact Nat.le_refl _
  | cons d t ih =>
      by_cases hd : d = c
      · rw [hd, splitOn_cons_sep, List.length_cons, List.length_cons]
        omega
      · obtain ⟨piece, rest, hs, hs'⟩ := splitOn_cons_of_ne hd t
        rw [hs, List.length_cons] at ih
        rw [hs', List.length_cons, List.length_cons]
        omega

/-! ## Joining -/

/-- What was joined has the characters of the separator and of the pieces, and no others. -/
theorem mem_intercalate {d : Char} {sep : Text} {ts : List Text} (h : d ∈ List.intercalate sep ts) :
    d ∈ sep ∨ ∃ t ∈ ts, d ∈ t := by
  induction ts with
  | nil => cases h
  | cons t ts ih =>
      cases ts with
      | nil => exact .inr ⟨t, by simp, by rwa [List.intercalate_singleton] at h⟩
      | cons u ts =>
          rw [List.intercalate_cons_of_ne_nil (by simp), List.mem_append, List.mem_append] at h
          rcases h with (h | h) | h
          · exact .inr ⟨t, by simp, h⟩
          · exact .inl h
          · rcases ih h with h | ⟨v, hv, h⟩
            · exact .inl h
            · exact .inr ⟨v, by simp [hv], h⟩

/-- The pieces keep their characters when they are joined. -/
theorem mem_intercalate_of_mem {d : Char} (sep : Text) {ts : List Text} {t : Text} (h : t ∈ ts) (hd : d ∈ t) :
    d ∈ List.intercalate sep ts := by
  induction ts with
  | nil => cases h
  | cons u ts ih =>
      cases ts with
      | nil =>
          rw [List.intercalate_singleton]
          exact List.mem_singleton.mp h ▸ hd
      | cons v ts =>
          rw [List.intercalate_cons_of_ne_nil (by simp), List.append_assoc, List.mem_append, List.mem_append]
          rcases List.mem_cons.mp h with rfl | h
          · exact .inl hd
          · exact .inr (.inr (ih h))

/-! ## Replacing -/

/-- Nothing changes where the character does not occur. -/
theorem replaceChar_of_not_mem {c d : Char} {t : Text} (h : c ∉ t) : replaceChar c d t = t := by
  unfold replaceChar
  rw [List.map_congr_left (g := id)]
  · simp
  · intro x hx
    have hxc : x ≠ c := by rintro rfl; exact h hx
    simp [hxc]

/-! ## Cutting at the last place -/

/-- Cutting at the last `c`: what follows it is the part without a `c`. -/
theorem cutLast?_eq_some_iff {c : Char} {t before after : Text} :
    cutLast? c t = some (before, after) ↔ t = before ++ c :: after ∧ c ∉ after := by
  have hjoin := List.takeWhile_append_dropWhile (p := (· != c)) (l := t.reverse)
  unfold cutLast?
  rw [List.span_eq_takeWhile_dropWhile]
  constructor
  · intro h
    cases hd : t.reverse.dropWhile (· != c) with
    | nil =>
        rw [hd] at h
        exact absurd h (by simp)
    | cons d rest =>
        rw [hd] at h hjoin
        obtain ⟨rfl, rfl⟩ : rest.reverse = before ∧ (t.reverse.takeWhile (· != c)).reverse = after := by
          simpa using h
        have hdc : d = c := by
          have hhead := List.head_dropWhile_not (· != c) (l := t.reverse) (by rw [hd]; simp)
          simpa [hd] using hhead
        constructor
        · have hrev := congrArg List.reverse hjoin
          rw [List.reverse_reverse, hdc] at hrev
          simpa using hrev.symm
        · intro hc
          have hne := List.mem_takeWhile_imp (List.mem_reverse.mp hc)
          simp at hne
  · rintro ⟨rfl, hc⟩
    have hafter : ∀ d ∈ after.reverse, (d != c) = true := by
      intro d hd
      rw [bne_iff_ne]
      rintro rfl
      exact hc (List.mem_reverse.mp hd)
    have hrev : (before ++ c :: after).reverse = after.reverse ++ c :: before.reverse := by simp
    rw [hrev, List.takeWhile_append_of_pos hafter, List.dropWhile_append_of_pos hafter]
    simp

/-- A text that ends in a piece has it as its last piece. -/
theorem splitOn_last {c : Char} {t piece : Text} (hc : c ∉ piece)
    (ht : t = piece ∨ ∃ front, t = front ++ c :: piece) :
    ∃ pieces, List.splitOn c t = pieces ++ [piece] := by
  rcases ht with rfl | ⟨front, rfl⟩
  · exact ⟨[], List.splitOn_eq_singleton hc⟩
  · exact ⟨List.splitOn c front, by rw [List.splitOn_append_cons_self, List.splitOn_eq_singleton hc]⟩

/-! ## Beginnings and ends -/

/-- A text begins with the texts that it continues. -/
theorem startsWith_iff {t p : Text} : t.startsWith p = true ↔ p <+: t := List.isPrefixOf_iff_prefix

/-- A text ends with the texts that it has at its end. -/
theorem endsWith_iff {t p : Text} : t.endsWith p = true ↔ p <:+ t := List.isSuffixOf_iff_suffix

/-! ## Words -/

/-- A blank in front adds no word. -/
theorem words_cons_blank {c : Char} (h : isBlank c = true) (t : Text) : words (c :: t) = words t := by
  simp [words, List.splitOnP_cons_eq_if_modifyHead, h]

/-- A word in front of a blank, or at the end. -/
theorem words_append {w t : Text} (hne : w ≠ []) (hw : ∀ c ∈ w, isBlank c = false)
    (ht : ∀ c ∈ t.head?, isBlank c = true) : words (w ++ t) = w :: words t := by
  cases t with
  | nil => simp [words, List.splitOnP_eq_singleton hw, hne]
  | cons c t =>
      have hc : isBlank c = true := ht c rfl
      rw [words_cons_blank hc, words, List.splitOnP_append_cons_of_forall_mem hw c hc,
        List.filter_cons_of_pos (by simpa using hne), words]

/-- There is no word among blanks. -/
theorem words_of_blank {t : Text} (h : ∀ c ∈ t, isBlank c = true) : words t = [] := by
  induction t with
  | nil => rfl
  | cons c t ih => rw [words_cons_blank (h c (by simp)), ih fun d hd => h d (by simp [hd])]

/-- Words that were joined with blanks are found again, with blanks behind them or without. -/
theorem words_intercalate {ws : List Text} (hws : ∀ w ∈ ws, w ≠ [] ∧ ∀ c ∈ w, isBlank c = false)
    {t : Text} (ht : ∀ c ∈ t, isBlank c = true) : words (List.intercalate " " ws ++ t) = ws := by
  have hhead : ∀ c ∈ t.head?, isBlank c = true := fun c hc => ht c (List.mem_of_mem_head? hc)
  induction ws with
  | nil => exact words_of_blank ht
  | cons w ws ih =>
      obtain ⟨hne, hw⟩ := hws w (by simp)
      cases ws with
      | nil => rw [List.intercalate_singleton, words_append hne hw hhead, words_of_blank ht]
      | cons v ws =>
          have hrest := ih fun u hu => hws u (by simp [hu])
          rw [List.intercalate_cons_of_ne_nil (by simp), List.append_assoc, List.append_assoc,
            words_append hne hw fun c hc => by cases hc; rfl]
          exact congrArg (w :: ·) ((words_cons_blank (by decide) _).trans hrest)

/-- The words have exactly the characters that are not blank. -/
theorem mem_words_iff {t : Text} {c : Char} : (∃ w ∈ words t, c ∈ w) ↔ c ∈ t ∧ isBlank c = false := by
  rw [← mem_splitOnP_iff]
  constructor
  · rintro ⟨w, hw, hc⟩
    exact ⟨w, (List.mem_filter.mp hw).1, hc⟩
  · rintro ⟨w, hw, hc⟩
    refine ⟨w, List.mem_filter.mpr ⟨hw, ?_⟩, hc⟩
    simpa using List.ne_nil_of_mem hc

/-- A word is not empty and has no blank. -/
theorem solid_of_mem_words {t w : Text} (h : w ∈ words t) : w ≠ [] ∧ ∀ c ∈ w, isBlank c = false :=
  ⟨by simpa using (List.mem_filter.mp h).2, fun _ hc => (mem_words_iff.mp ⟨w, h, hc⟩).2⟩

/-- Trimming the end only cuts something off there. -/
theorem trimEnd_isPrefix (t : Text) : trimEnd t <+: t := by
  have hsuffix := List.reverse_prefix.mpr (List.dropWhile_suffix (l := t.reverse) isBlank)
  rwa [List.reverse_reverse] at hsuffix

/-- A text that ends with no blank is trimmed at its end already. -/
theorem trimEnd_of_last {t : Text} (h : ∀ c ∈ t.getLast?, isBlank c = false) : trimEnd t = t := by
  rw [trimEnd, trimEndBy]
  cases hr : t.reverse with
  | nil => rw [List.reverse_eq_nil_iff.mp hr]; rfl
  | cons c r =>
      have hc : isBlank c = false := h c (by rw [List.getLast?_eq_head?_reverse, hr]; rfl)
      rw [List.dropWhile_cons_of_neg (by simp [hc]), ← hr, List.reverse_reverse]

/-- A text that is trimmed at its end ends with no blank. -/
theorem not_isBlank_of_getLast?_trimEnd {t : Text} {c : Char} (h : (trimEnd t).getLast? = some c) :
    isBlank c = false := by
  have hnot := List.head?_dropWhile_not isBlank t.reverse
  rw [trimEnd, trimEndBy, List.getLast?_reverse] at h
  rwa [h] at hnot

/-- A text with no blank at either end is trimmed already. -/
theorem trim_of_ends {t : Text} (hhead : ∀ c ∈ t.head?, isBlank c = false)
    (hlast : ∀ c ∈ t.getLast?, isBlank c = false) : trim t = t := by
  have hstart : trimStart t = t := by
    cases t with
    | nil => rfl
    | cons c t => exact List.dropWhile_cons_of_neg (by simp [hhead c (by simp)])
  rw [trim, hstart, trimEnd_of_last hlast]

/-- Only blanks are trimmed. -/
theorem mem_trim {c : Char} {t : Text} (hc : c ∈ t) (h : isBlank c = false) : c ∈ trim t := by
  have hdrop {u : Text} (hu : c ∈ u) : c ∈ u.dropWhile isBlank := by
    rw [← List.takeWhile_append_dropWhile (p := isBlank) (l := u)] at hu
    refine (List.mem_append.mp hu).resolve_left fun hm => ?_
    rw [List.mem_takeWhile_imp hm] at h
    cases h
  exact List.mem_reverse.mpr (hdrop (List.mem_reverse.mpr (hdrop hc)))

/-- A text is trimmed by leaving out the blanks at its ends. -/
theorem exists_trim (t : Text) :
    ∃ front back : Text, t = front ++ trim t ++ back ∧ (∀ c ∈ front, isBlank c = true) ∧
      ∀ c ∈ back, isBlank c = true := by
  have hblank {u : Text} {c : Char} (hc : c ∈ u.takeWhile isBlank) : isBlank c = true := List.mem_takeWhile_imp hc
  refine ⟨t.takeWhile isBlank, ((trimStart t).reverse.takeWhile isBlank).reverse, ?_, fun c hc => hblank hc,
    fun c hc => hblank (List.mem_reverse.mp hc)⟩
  rw [List.append_assoc, trim, trimEnd, trimEndBy, ← List.reverse_append, List.takeWhile_append_dropWhile,
    List.reverse_reverse, trimStart, trimStartBy, List.takeWhile_append_dropWhile]

/-- Trimming adds no character. -/
theorem mem_of_mem_trim {c : Char} {t : Text} (h : c ∈ trim t) : c ∈ t := by
  obtain ⟨front, back, hsplit, -⟩ := exists_trim t
  rw [hsplit]
  simp [h]

/-- A trimmed text starts with no blank. -/
theorem not_isBlank_of_head?_trim {t : Text} {c : Char} (h : (trim t).head? = some c) : isBlank c = false := by
  obtain ⟨u, hu⟩ := trimEnd_isPrefix (trimStart t)
  have hhead : (trimStart t).head? = some c := by
    rw [← hu, List.head?_append]
    exact congrArg (Option.or · u.head?) h
  have hnot := List.head?_dropWhile_not isBlank t
  rw [trimStart, trimStartBy] at hhead
  rwa [hhead] at hnot

/-- Nothing is left exactly of blanks. -/
theorem trim_isEmpty_iff (t : Text) : (trim t).isEmpty = true ↔ ∀ c ∈ t, isBlank c = true := by
  rw [List.isEmpty_iff]
  constructor
  · intro h c hc
    by_contra hblank
    rw [Bool.not_eq_true] at hblank
    have hmem := mem_trim hc hblank
    rw [h] at hmem
    cases hmem
  · intro h
    cases htrim : trim t with
    | nil => rfl
    | cons c rest =>
        have hblank := h c (mem_of_mem_trim (by rw [htrim]; exact List.mem_cons_self ..))
        rw [not_isBlank_of_head?_trim (by rw [htrim]; rfl)] at hblank
        cases hblank

/-! ## Lines -/

/-- Only a character at the end can be chomped. -/
theorem chomp_isPrefix (t : Text) : chomp t <+: t := by
  unfold chomp
  cases h : List.isSuffixOf? ['\r'] t with
  | none => exact List.prefix_rfl
  | some u => exact ⟨['\r'], List.isSuffixOf?_eq_some_iff_append_eq.mp h⟩

/-- Without a carriage return at the end nothing is chomped. -/
theorem chomp_of_last {t : Text} (h : t.getLast? ≠ some '\r') : chomp t = t := by
  unfold chomp
  cases hs : List.isSuffixOf? ['\r'] t with
  | none => rfl
  | some u => exact absurd (by rw [← List.isSuffixOf?_eq_some_iff_append_eq.mp hs, List.getLast?_concat]) h

/-- No line has a line feed. -/
theorem not_mem_of_mem_lines {t line : Text} (h : line ∈ lines t) : '\n' ∉ line := by
  have hpieces {piece : Text} (hp : piece ∈ (List.splitOn '\n' t).reverse) : '\n' ∉ piece :=
    not_mem_of_mem_splitOn (List.mem_reverse.mp hp)
  unfold lines at h
  split at h
  · cases h
  · next last front hrev =>
      rw [hrev] at hpieces
      rcases List.mem_append.mp h with h | h
      · obtain ⟨piece, hp, rfl⟩ := List.mem_map.mp h
        exact fun hm => hpieces (List.mem_cons_of_mem _ (List.mem_reverse.mp hp)) ((chomp_isPrefix piece).mem hm)
      · split at h
        · cases h
        · rw [List.mem_singleton.mp h]
          exact hpieces (List.mem_cons_self ..)

/-- Lines that were put together are the lines of the text. -/
theorem lines_intercalate {ts : List Text} (h : ∀ t ∈ ts, t ≠ [] ∧ '\n' ∉ t ∧ t.getLast? ≠ some '\r') :
    lines (List.intercalate "\n" ts) = ts := by
  rcases List.eq_nil_or_concat ts with rfl | ⟨front, last, rfl⟩
  · rfl
  · rw [List.concat_eq_append] at h ⊢
    have hsplit : List.splitOn '\n' (List.intercalate "\n" (front ++ [last])) = front ++ [last] :=
      List.splitOn_intercalate '\n' (fun t ht => (h t ht).2.1) (by simp)
    have hfront : front.map chomp = front :=
      (List.map_congr_left (g := id) fun t ht => chomp_of_last (h t (List.mem_append_left _ ht)).2.2).trans
        (List.map_id front)
    have hlast : last.isEmpty = false := by simpa using (h last (by simp)).1
    rw [lines, hsplit, List.reverse_append, List.reverse_singleton, List.singleton_append]
    simp only [List.reverse_reverse, hfront, hlast, Bool.false_eq_true, if_false]

/-! ## Bytes -/

/-- Every character takes a byte at least. -/
theorem length_le_byteSize (t : Text) : t.length ≤ t.byteSize := by
  induction t with
  | nil => exact Nat.le_refl _
  | cons c t ih =>
      have hpos := c.utf8Size_pos
      rw [List.length_cons, byteSize_cons]
      omega

/-- Only the empty text has no bytes. -/
theorem byteSize_pos {t : Text} (h : t ≠ []) : 0 < t.byteSize := by
  obtain ⟨c, v, rfl⟩ := List.exists_cons_of_ne_nil h
  have hpos := c.utf8Size_pos
  rw [byteSize_cons]
  omega

/-- A text is cut in one way at an offset. -/
theorem append_inj_byteSize {a b u v : Text} (h : a ++ u = b ++ v) (hsize : a.byteSize = b.byteSize) :
    a = b ∧ u = v := by
  have hnil {w : Text} (hw : w.byteSize = 0) : w = [] := by
    by_contra hne
    exact absurd hw (byteSize_pos hne).ne'
  rcases List.append_eq_append_iff.mp h with ⟨w, rfl, rfl⟩ | ⟨w, rfl, rfl⟩
  · obtain rfl : w = [] := hnil (by rw [byteSize_append] at hsize; omega)
    exact ⟨(List.append_nil a).symm, rfl⟩
  · obtain rfl : w = [] := hnil (by rw [byteSize_append] at hsize; omega)
    exact ⟨List.append_nil b, rfl⟩

/-- The bytes of two texts in a row. -/
theorem bytes_append (s t : Text) : bytes (s ++ t) = bytes s ++ bytes t := List.flatMap_append

/-- Behind the bytes of the first text stand those of the second. -/
theorem drop_bytes (s t : Text) : (bytes (s ++ t)).drop s.byteSize = bytes t := by
  rw [bytes_append, ← length_bytes, List.drop_left]

/-- The first text is read back from its bytes in front. -/
theorem take_bytes (s t : Text) : (bytes (s ++ t)).take s.byteSize = bytes s := by
  rw [bytes_append, ← length_bytes, List.take_left]

/-! ## Literals

A literal stands for the bytes of its encoding, and to evaluate a text that is written as one they are decoded
again, which takes long for a long literal.  Its characters are known without that. -/

/-- The characters of a literal, once it is known as the string of a text. -/
theorem toList_literal {s : String} {t : Text} (h : s = String.ofList t) : s.toList = t := by
  rw [h, String.toList_ofList]

/-- The same for a table of literals. -/
theorem map_toList_literals {rows : List String} {ts : List Text} (h : rows = ts.map String.ofList) :
    rows.map String.toList = ts := by
  rw [h, List.map_map]
  exact (List.map_congr_left fun _ _ => String.toList_ofList).trans (List.map_id ts)

end Typings.Text
