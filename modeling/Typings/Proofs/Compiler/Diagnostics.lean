import Typings.Compiler.Diagnostic
import Typings.Proofs.Json.Number
import Typings.Proofs.Path.Below

/-!
# `Diagnostics` — complaints printed and read again

On a line with a file the file goes up to the last place where a position with a report can be read.
A file may have such places in it, and so may a message have brackets: what is to be kept is that the
place is the last one.  Behind the bracket of a position the digits and the words of the report open no
other, so whether it is the last is a matter of the message alone, and the message is printed as it was
read.  The file and the digits can then be replaced by others.

* `isDecimal_of_ascii`: the digits that are printed, and the marks around them, which are none.
* `reportPart?_eq_some_iff`, `positionPart?_eq_some_iff`: the readers and the texts they read.
* `Quiet`: no position can be read in a text.
* `filePart?_nil_eq_some_iff`, `filePart?_eq_none_and_reportPart?_iff`: the lines with a file, and
  those without.
* `Diagnostic.OnLine`, `parseDiagnostic?_eq_some_iff`: the diagnostic that is read from a line.
* `Diagnostic.OnLine.render`: it is also read from the line it is printed as.
* `parseDiagnostics_formatDiagnostics`: what was read from an output is printed and read again.
-/

namespace Typings

/-! ## Digits -/

theorem lookup_map {α β γ : Type} [BEq α] (f : β → γ) (a : α) (rows : List (α × β)) :
    (rows.map fun (k, v) => (k, f v)).lookup a = (rows.lookup a).map f := by
  induction rows with
  | nil => rfl
  | cons row rows ih =>
      rw [List.map_cons, List.lookup_cons, List.lookup_cons, ih]
      cases a == row.1 <;> rfl

namespace Unicode

/-- The code points of the decimal digits, as they stand in the table. -/
def decimalRanges : List CodeRange :=
  ((categoryRows.lookup .nd).getD []).flatMap fun row => (List.splitOn ' ' row.toList).flatMap CodeSet.decodeEntry

/-- The test for a decimal digit is membership in a table of ranges. -/
theorem isDecimal_eq (c : Char) : isDecimal c = CodeSet.anyContains decimalRanges c.toNat := by
  have hset : Category.nd.set = ((categoryRows.lookup .nd).map CodeSet.ofRows).getD .none :=
    congrArg (Option.getD · .none) (lookup_map CodeSet.ofRows Category.nd categoryRows)
  rw [isDecimal, hset, decimalRanges]
  cases categoryRows.lookup .nd with
  | none => rfl
  | some rows => exact CodeSet.contains_ofRanges _ c.toNat

/-- The digits of ASCII stand first in the table, and behind them is no more of ASCII. -/
theorem decimalRanges_ascii :
    decimalRanges.head? = some ⟨48, 57⟩ ∧ ∀ r ∈ decimalRanges.tail, 128 ≤ r.first := by
  obtain ⟨rows, hrows, hranges⟩ : ∃ rows, ((categoryRows.lookup .nd).getD []).map String.toList = rows ∧
      let ranges := rows.flatMap fun row => (List.splitOn ' ' row).flatMap CodeSet.decodeEntry
      ranges.head? = some ⟨48, 57⟩ ∧ ∀ r ∈ ranges.tail, 128 ≤ r.first :=
    -- The rows of the table are long, so each is taken by its characters.
    ⟨[_, _, _, _, _, _, _, _, _], Text.map_toList_literals rfl, by decide +kernel⟩
  have hall : decimalRanges = rows.flatMap fun row => (List.splitOn ' ' row).flatMap CodeSet.decodeEntry := by
    rw [decimalRanges, ← hrows, List.flatMap_map]
  rw [hall]
  exact hranges

/-- Of the characters of ASCII the digits are decimal, and no others. -/
theorem isDecimal_of_ascii {c : Char} (h : c.toNat < 128) : isDecimal c = c.isDigit := by
  obtain ⟨hhead, hrest⟩ := decimalRanges_ascii
  obtain ⟨rest, hsplit⟩ := List.head?_eq_some_iff.mp hhead
  rw [hsplit, List.tail_cons] at hrest
  have hbehind : CodeSet.anyContains rest c.toNat = false := by
    rw [CodeSet.anyContains, List.any_eq_false]
    intro r hr
    have hfirst := hrest r hr
    simp only [CodeRange.contains, Bool.and_eq_true, decide_eq_true_eq]
    omega
  rw [isDecimal_eq, hsplit, CodeSet.anyContains_cons, hbehind, Bool.or_false, Bool.eq_iff_iff,
    Char.isDigit_iff_toNat]
  simp [CodeRange.contains]

/-- The ASCII digits are decimal digits. -/
theorem isDecimal_of_isDigit {c : Char} (h : c.isDigit = true) : isDecimal c = true := by
  obtain ⟨-, hhigh⟩ : 48 ≤ c.toNat ∧ c.toNat ≤ 57 := Char.isDigit_iff_toNat.1 h
  rw [isDecimal_of_ascii (by omega), h]

end Unicode

/-- A text of decimal digits of any script, with at least one. -/
def DigitRun (t : Text) : Prop := t ≠ [] ∧ ∀ c ∈ t, Unicode.isDecimal c = true

theorem DigitRun.of_digits {t : Text} (h : Json.Digits t) : DigitRun t :=
  ⟨h.1, fun c hc => Unicode.isDecimal_of_isDigit (h.2 c hc)⟩

/-- A run of digits holds nothing but digits. -/
theorem DigitRun.not_mem {t : Text} (h : DigitRun t) {c : Char} (hc : Unicode.isDecimal c = false) : c ∉ t := by
  intro hm
  rw [h.2 c hm] at hc
  cases hc

/-- The reader takes the longest run of digits, and at least one. -/
theorem digitRun?_eq_some_iff {t ds rest : Text} : digitRun? t = some (ds, rest) ↔
    DigitRun ds ∧ t = ds ++ rest ∧ ∀ c ∈ rest.head?, Unicode.isDecimal c = false := by
  unfold digitRun?
  rw [List.span_eq_takeWhile_dropWhile]
  constructor
  · intro h
    split at h
    · cases h
    · next r hr =>
        obtain ⟨rfl, rfl⟩ := Prod.mk.inj (Option.some.inj h)
        refine ⟨⟨fun hnil => hr _ (by rw [hnil]), fun c hc => List.mem_takeWhile_imp hc⟩,
          List.takeWhile_append_dropWhile.symm, fun c hc => ?_⟩
        have hnot := List.head?_dropWhile_not Unicode.isDecimal t
        rwa [hc] at hnot
  · rintro ⟨⟨hne, hds⟩, rfl, hrest⟩
    have hnone : rest.takeWhile Unicode.isDecimal = [] ∧ rest.dropWhile Unicode.isDecimal = rest := by
      cases rest with
      | nil => exact ⟨rfl, rfl⟩
      | cons c rest => simp [hrest c rfl]
    rw [List.takeWhile_append_of_pos hds, List.dropWhile_append_of_pos hds, hnone.1, hnone.2, List.append_nil]
    cases ds with
    | nil => exact absurd rfl hne
    | cons d ds => rfl

/-- The number of a row of digits is the one that is written with them. -/
theorem foldl_digits (t : Text) (n : Nat) :
    t.foldl (fun n c => n * 10 + (c.toNat - '0'.toNat)) n = Nat.ofDigitChars 10 t n := by
  induction t generalizing n with
  | nil => rfl
  | cons c t ih => rw [List.foldl_cons, ih, Nat.ofDigitChars_cons, Nat.mul_comm]

/-- A number is read when all of its text is digits and it is below the bound. -/
theorem boundedNumber?_eq_some_iff {bound n : Nat} {digits : Text} : boundedNumber? bound digits = some n ↔
    Json.Digits digits ∧ Nat.ofDigitChars 10 digits 0 = n ∧ n < bound := by
  unfold boundedNumber? Json.Digits
  rw [foldl_digits]
  constructor
  · intro h
    split at h
    · cases h
    · next hdigits =>
        obtain ⟨hlt, hn⟩ := Option.ite_none_right_eq_some.mp h
        exact ⟨by simpa using hdigits, Option.some.inj hn, Option.some.inj hn ▸ hlt⟩
  · rintro ⟨⟨hne, hds⟩, rfl, hlt⟩
    have hdigits : (digits.isEmpty || !digits.all Char.isDigit) = false := by simpa using ⟨hne, hds⟩
    simp only [hdigits, Bool.false_eq_true, if_false, hlt, if_true]

/-- The digits of a number within the bound are read as the number. -/
theorem boundedNumber?_ofNat {bound n : Nat} (h : n < bound) : boundedNumber? bound (Text.ofNat n) = some n :=
  boundedNumber?_eq_some_iff.mpr ⟨Json.digits_ofNat n, Json.ofDigitChars_ofNat n, h⟩

theorem digitRun_of_boundedNumber? {bound n : Nat} {digits : Text} (h : boundedNumber? bound digits = some n) :
    DigitRun digits := .of_digits (boundedNumber?_eq_some_iff.mp h).1

theorem boundedNumber?_lt {bound n : Nat} {digits : Text} (h : boundedNumber? bound digits = some n) : n < bound :=
  (boundedNumber?_eq_some_iff.mp h).2.2

/-! ## The parts of a line -/

/-- The words for the severities are letters alone. -/
theorem Severity.isAlpha_text (severity : Severity) : ∀ c ∈ severity.text, c.isAlpha = true := by
  cases severity <;> decide

/-- The end of a diagnostic line as it is written. -/
def reportText (severity : Severity) (code message : Text) : Text :=
  severity.text ++ " TS" ++ code ++ ": " ++ message

/-- What follows the file on a diagnostic line as it is written. -/
def positionText (line column : Text) (severity : Severity) (code message : Text) : Text :=
  "(" ++ line ++ "," ++ column ++ "): " ++ reportText severity code message

theorem Diagnostic.render_placed (file : Path) (line column : Nat) (severity : Severity) (code : Nat)
    (message : Text) :
    render ⟨some file, some (line, column), severity, code, message⟩ =
      file.text ++ positionText (Text.ofNat line) (Text.ofNat column) severity (Text.ofNat code) message := by
  simp [render, renderPosition, positionText, reportText]

section

variable {t : Text} {line column code message : Text} {severity : Severity}

/-- A severity is read off exactly in front of what its word leaves. -/
theorem severityWord?_eq_some_iff {rest : Text} :
    severityWord? t = some (severity, rest) ↔ t = severity.text ++ rest := by
  constructor
  · intro h
    obtain ⟨s, -, hs⟩ := List.exists_of_findSome?_eq_some h
    obtain ⟨u, hu, heq⟩ := Option.map_eq_some_iff.mp hs
    obtain ⟨rfl, rfl⟩ := Prod.mk.inj heq
    exact (List.isPrefixOf?_eq_some_iff_append_eq.mp hu).symm
  · rintro rfl
    -- The words differ in their first letters, so each is found behind those that are tried before it.
    cases severity <;> rfl

/-- A report is read exactly off a text of its form. -/
theorem reportPart?_eq_some_iff : reportPart? t = some (severity, code, message) ↔
    DigitRun code ∧ t = reportText severity code message := by
  unfold reportPart? reportText
  simp only [Option.bind_eq_bind, Option.bind_eq_some_iff, Option.pure_def, Option.some.injEq, Prod.mk.injEq,
    Prod.exists, severityWord?_eq_some_iff, List.isPrefixOf?_eq_some_iff_append_eq, digitRun?_eq_some_iff]
  constructor
  · rintro ⟨s, u, rfl, v, rfl, ds, w, ⟨hds, rfl, -⟩, m, rfl, rfl, rfl, rfl⟩
    exact ⟨hds, by simp⟩
  · rintro ⟨hcode, rfl⟩
    refine ⟨severity, _, by simp only [List.append_assoc], _, rfl, code, _, ⟨hcode, rfl, ?_⟩, message, rfl, rfl,
      rfl, rfl⟩
    rintro c ⟨⟩
    exact Unicode.isDecimal_of_ascii (by decide)

/-- A position with its report is read exactly off a text of its form. -/
theorem positionPart?_eq_some_iff : positionPart? t = some (line, column, severity, code, message) ↔
    DigitRun line ∧ DigitRun column ∧ DigitRun code ∧
      t = positionText line column severity code message := by
  unfold positionPart? positionText
  simp only [Option.bind_eq_bind, Option.bind_eq_some_iff, Option.pure_def, Option.some.injEq, Prod.mk.injEq,
    Prod.exists, reportPart?_eq_some_iff, List.isPrefixOf?_eq_some_iff_append_eq, digitRun?_eq_some_iff]
  constructor
  · rintro ⟨u, rfl, ls, v, ⟨hls, rfl, -⟩, w, rfl, hrest⟩
    obtain ⟨cs, x, ⟨hcs, rfl, -⟩, y, rfl, s, ds, m, ⟨hds, rfl⟩, rfl, rfl, rfl, rfl, rfl⟩ := hrest
    exact ⟨hls, hcs, hds, by simp⟩
  · rintro ⟨hline, hcolumn, hcode, rfl⟩
    refine ⟨_, by simp only [List.append_assoc], line, _, ⟨hline, rfl, ?_⟩, _, rfl, column, _,
      ⟨hcolumn, rfl, ?_⟩, _, rfl, severity, code, message, ⟨hcode, rfl⟩, rfl, rfl, rfl, rfl, rfl⟩
    · rintro c ⟨⟩
      exact Unicode.isDecimal_of_ascii (by decide)
    · rintro c ⟨⟩
      exact Unicode.isDecimal_of_ascii (by decide)

/-- A position begins with its bracket. -/
theorem head?_of_positionPart? {r : Text × Text × Severity × Text × Text} (h : positionPart? t = some r) :
    t.head? = some '(' := by
  obtain ⟨line, column, severity, code, message⟩ := r
  obtain ⟨-, -, -, rfl⟩ := positionPart?_eq_some_iff.mp h
  rfl

end

/-! ## The last place -/

/-- No position can be read anywhere in the text. -/
def Quiet (t : Text) : Prop := ∀ u, u <:+ t → positionPart? u = none

theorem quiet_nil : Quiet [] := by
  intro u hu
  rw [List.suffix_nil.mp hu]
  rfl

/-- A text is quiet when no position is read at its head and the rest is quiet. -/
theorem quiet_cons_iff {c : Char} {t : Text} : Quiet (c :: t) ↔ positionPart? (c :: t) = none ∧ Quiet t := by
  constructor
  · exact fun h => ⟨h _ List.suffix_rfl, fun u hu => h u (List.suffix_cons_iff.mpr (.inr hu))⟩
  · rintro ⟨hfront, ht⟩ u hu
    rcases List.suffix_cons_iff.mp hu with rfl | hu
    · exact hfront
    · exact ht u hu

/-- Characters that open no position in front of a text add no place for one. -/
theorem quiet_append_iff {h t : Text} (hh : '(' ∉ h) : Quiet (h ++ t) ↔ Quiet t := by
  induction h with
  | nil => rfl
  | cons c h ih =>
      obtain ⟨hc, hh⟩ := not_or.1 (List.mem_cons.not.1 hh)
      have hfront : positionPart? (c :: (h ++ t)) = none := by
        refine Option.eq_none_iff_forall_ne_some.mpr fun r hr => hc ?_
        exact (Option.some.inj (head?_of_positionPart? hr)).symm
      rw [List.cons_append, quiet_cons_iff, ih hh, and_iff_right hfront]

theorem quiet_of_not_mem {t : Text} (h : '(' ∉ t) : Quiet t := by
  rw [← List.append_nil t]
  exact (quiet_append_iff h).mpr quiet_nil

section

variable {line column code message : Text} {severity : Severity}

theorem bracket_not_mem_header (hcode : DigitRun code) : '(' ∉ severity.text ++ " TS" ++ code ++ ": " := by
  have hdigits := hcode.not_mem (Unicode.isDecimal_of_ascii (c := '(') (by decide))
  have hword : '(' ∉ severity.text := fun hm => absurd (severity.isAlpha_text '(' hm) (by decide)
  simp [hword, hdigits]

/-- Of a report only the message has places for a position. -/
theorem quiet_reportText_iff (hcode : DigitRun code) :
    Quiet (reportText severity code message) ↔ Quiet message :=
  quiet_append_iff (bracket_not_mem_header hcode)

/-- The first character of a report opens no position. -/
theorem quiet_tail_reportText_iff (hcode : DigitRun code) :
    Quiet (reportText severity code message).tail ↔ Quiet message := by
  have hreport : Quiet (reportText severity code message) ↔ Quiet message := quiet_reportText_iff hcode
  rw [← hreport]
  cases severity with
  | error => exact (quiet_append_iff (h := ['e']) (by decide)).symm
  | warning => exact (quiet_append_iff (h := ['w']) (by decide)).symm
  | message => exact (quiet_append_iff (h := ['m']) (by decide)).symm

/-- Behind its own bracket a position has places for another in the message only. -/
theorem quiet_positionText_iff (hline : DigitRun line) (hcolumn : DigitRun column) (hcode : DigitRun code) :
    Quiet (positionText line column severity code message).tail ↔ Quiet message := by
  have hbracket : Unicode.isDecimal '(' = false := Unicode.isDecimal_of_ascii (by decide)
  have hheader : '(' ∉ line ++ "," ++ column ++ "): " := by
    simp [hline.not_mem hbracket, hcolumn.not_mem hbracket]
  exact (quiet_append_iff hheader).trans (quiet_reportText_iff hcode)

end

/-- No file is read in front of a text exactly when no position stands in it. -/
theorem filePart?_eq_none_iff {front : Text} (hfront : front ≠ []) (t : Text) :
    filePart? front t = none ↔ Quiet t := by
  induction t generalizing front with
  | nil => exact iff_of_true rfl quiet_nil
  | cons c t ih =>
      have hrest := ih (List.cons_ne_nil c front)
      rw [filePart?, quiet_cons_iff, ← hrest]
      cases hf : filePart? (c :: front) t with
      | some r => simp
      | none => simp [hfront]

/-- A line has no file if no position can be read behind its first character. -/
theorem filePart?_nil_eq_none_iff (t : Text) : filePart? [] t = none ↔ Quiet t.tail := by
  cases t with
  | nil => exact iff_of_true rfl quiet_nil
  | cons c t =>
      rw [List.tail_cons, ← filePart?_eq_none_iff (List.cons_ne_nil c []), filePart?]
      cases hf : filePart? [c] t with
      | some r => simp
      | none => simp

section

variable {front t a b : Text} {r : Text × Text × Severity × Text × Text}

/-- A position with no other behind its bracket ends the file, if any character stands in front. -/
theorem filePart?_append (hne : front.reverse ++ a ≠ []) (hb : positionPart? b = some r)
    (hquiet : Quiet b.tail) :
    filePart? front (a ++ b) = some (front.reverse ++ a, r) := by
  induction a generalizing front with
  | nil =>
      cases b with
      | nil => cases hb
      | cons c t =>
          have hlater : filePart? (c :: front) t = none :=
            (filePart?_eq_none_iff (List.cons_ne_nil c front) t).mpr hquiet
          have hfront : front.isEmpty = false := by simpa using hne
          simp [filePart?, hlater, hfront, hb]
  | cons c a ih =>
      have hlater : filePart? (c :: front) (a ++ b) = some ((c :: front).reverse ++ a, r) := ih (by simp)
      rw [List.cons_append, filePart?, hlater]
      simp

/-- The file ends at such a position. -/
theorem filePart?_spec {file : Text} (h : filePart? front t = some (file, r)) :
    ∃ a b, t = a ++ b ∧ file = front.reverse ++ a ∧ file ≠ [] ∧ positionPart? b = some r ∧
      Quiet b.tail := by
  induction t generalizing front with
  | nil => cases h
  | cons c t ih =>
      rw [filePart?] at h
      cases hlater : filePart? (c :: front) t with
      | some later =>
          rw [hlater] at h
          obtain ⟨a, b, rfl, rfl, hrest⟩ := ih (hlater.trans h)
          exact ⟨c :: a, b, rfl, by simp, hrest⟩
      | none =>
          rw [hlater] at h
          obtain ⟨hfront, h⟩ := Option.ite_none_left_eq_some.mp h
          obtain ⟨r', hr, heq⟩ := Option.map_eq_some_iff.mp h
          obtain ⟨rfl, rfl⟩ := Prod.mk.inj heq
          have hquiet := (filePart?_eq_none_iff (List.cons_ne_nil c front) t).mp hlater
          exact ⟨[], c :: t, rfl, by simp, by simpa using hfront, hr, hquiet⟩

end

section

variable {t file line column code message : Text} {severity : Severity}

/-- The lines with a file. -/
theorem filePart?_nil_eq_some_iff :
    filePart? [] t = some (file, line, column, severity, code, message) ↔
      file ≠ [] ∧ DigitRun line ∧ DigitRun column ∧ DigitRun code ∧ Quiet message ∧
        t = file ++ positionText line column severity code message := by
  constructor
  · intro h
    obtain ⟨a, b, rfl, rfl, hne, hb, hquiet⟩ := filePart?_spec h
    obtain ⟨hline, hcolumn, hcode, rfl⟩ := positionPart?_eq_some_iff.mp hb
    exact ⟨hne, hline, hcolumn, hcode, (quiet_positionText_iff hline hcolumn hcode).mp hquiet, rfl⟩
  · rintro ⟨hne, hline, hcolumn, hcode, hquiet, rfl⟩
    exact filePart?_append hne (positionPart?_eq_some_iff.mpr ⟨hline, hcolumn, hcode, rfl⟩)
      ((quiet_positionText_iff hline hcolumn hcode).mpr hquiet)

/-- The lines without a file. -/
theorem filePart?_eq_none_and_reportPart?_iff :
    filePart? [] t = none ∧ reportPart? t = some (severity, code, message) ↔
      DigitRun code ∧ Quiet message ∧ t = reportText severity code message := by
  rw [filePart?_nil_eq_none_iff, reportPart?_eq_some_iff]
  constructor
  · rintro ⟨hquiet, hcode, rfl⟩
    exact ⟨hcode, (quiet_tail_reportText_iff hcode).mp hquiet, rfl⟩
  · rintro ⟨hcode, hquiet, rfl⟩
    exact ⟨(quiet_tail_reportText_iff hcode).mpr hquiet, hcode, rfl⟩

end

/-! ## Reading a line -/

/-- The diagnostic is on the line: the parts of the line have its values, and no position can be read in
    its message. -/
inductive Diagnostic.OnLine (root : Path) : Text → Diagnostic → Prop
  | placed {file line column code message : Text} {severity : Severity} {l c n : Nat} (hfile : file ≠ [])
      (hline : boundedNumber? (2 ^ 64) line = some l) (hcolumn : boundedNumber? (2 ^ 64) column = some c)
      (hcode : boundedNumber? (2 ^ 32) code = some n) (hquiet : Quiet message) :
      OnLine root (file ++ positionText line column severity code message)
        ⟨some (root.resolve ⟨file⟩), some (l, c), severity, n, message⟩
  | plain {code message : Text} {severity : Severity} {n : Nat} (hcode : boundedNumber? (2 ^ 32) code = some n)
      (hquiet : Quiet message) :
      OnLine root (reportText severity code message) ⟨none, none, severity, n, message⟩

/-- What is read off a line is exactly what stands on it. -/
theorem parseDiagnostic?_eq_some_iff {root : Path} {line : Text} {d : Diagnostic} :
    parseDiagnostic? root line = some d ↔ Diagnostic.OnLine root line d := by
  constructor
  · intro h
    unfold parseDiagnostic? at h
    split at h
    · next hfile =>
        simp only [Option.bind_eq_bind, Option.bind_eq_some_iff, Option.pure_def, Option.some.injEq] at h
        obtain ⟨l, hl, c, hc, n, hn, rfl⟩ := h
        obtain ⟨hne, -, -, -, hquiet, rfl⟩ := filePart?_nil_eq_some_iff.mp hfile
        exact .placed hne hl hc hn hquiet
    · next hfile =>
        simp only [Option.bind_eq_bind, Option.bind_eq_some_iff, Option.pure_def, Option.some.injEq,
          Prod.exists] at h
        obtain ⟨severity, code, message, hreport, n, hn, rfl⟩ := h
        obtain ⟨-, hquiet, rfl⟩ := filePart?_eq_none_and_reportPart?_iff.mp ⟨hfile, hreport⟩
        exact .plain hn hquiet
  · intro h
    unfold parseDiagnostic?
    cases h with
    | @placed file line column code message severity l c n hne hline hcolumn hcode hquiet =>
        have hfile : filePart? [] (file ++ positionText line column severity code message) =
            some (file, line, column, severity, code, message) :=
          filePart?_nil_eq_some_iff.mpr ⟨hne, digitRun_of_boundedNumber? hline,
            digitRun_of_boundedNumber? hcolumn, digitRun_of_boundedNumber? hcode, hquiet, rfl⟩
        simp only [hfile, Option.bind_eq_bind, Option.bind_eq_some_iff, Option.pure_def]
        exact ⟨l, hline, c, hcolumn, n, hcode, rfl⟩
    | @plain code message severity n hcode hquiet =>
        obtain ⟨hfile, hreport⟩ : filePart? [] (reportText severity code message) = none ∧
            reportPart? (reportText severity code message) = some (severity, code, message) :=
          filePart?_eq_none_and_reportPart?_iff.mpr ⟨digitRun_of_boundedNumber? hcode, hquiet, rfl⟩
        simp only [hfile, Option.bind_eq_bind, Option.bind_eq_some_iff, Option.pure_def]
        exact ⟨_, hreport, n, hcode, rfl⟩

namespace Diagnostic.OnLine

variable {root : Path} {line : Text} {d : Diagnostic}

/-- A diagnostic that was read is on the line it is printed as. -/
theorem render (h : OnLine root line d) (hroot : root.isAbsolute = true) : OnLine root d.render d := by
  cases h with
  | @placed file line column code message severity l c n hfile hline hcolumn hcode hquiet =>
      have hl := boundedNumber?_ofNat (boundedNumber?_lt hline)
      have hc := boundedNumber?_ofNat (boundedNumber?_lt hcolumn)
      have hn := boundedNumber?_ofNat (boundedNumber?_lt hcode)
      -- The printed file is absolute and normal, so the root is no part of it when it is read again.
      have habs : (root.resolve ⟨file⟩).isAbsolute = true := Path.isAbsolute_resolve hroot _
      have hagain : root.resolve (root.resolve ⟨file⟩) = root.resolve ⟨file⟩ := by
        rw [Path.resolve_of_isAbsolute habs, Path.normalize_resolve]
      have hne : (root.resolve ⟨file⟩).text ≠ [] := by
        intro hnil
        rw [Path.isAbsolute, hnil] at habs
        cases habs
      rw [Diagnostic.render_placed]
      nth_rewrite 2 [← hagain]
      exact placed hne hl hc hn hquiet
  | @plain code message severity n hcode hquiet =>
      exact plain (boundedNumber?_ofNat (boundedNumber?_lt hcode)) hquiet

/-- A line ends in the message. -/
theorem getLast?_eq (h : OnLine root line d) : line.getLast? = (' ' :: d.message).getLast? := by
  have hreport (severity : Severity) (code message : Text) :
      (reportText severity code message).getLast? = (' ' :: message).getLast? := by
    have hsplit : reportText severity code message =
        severity.text ++ " TS" ++ code ++ [':'] ++ ' ' :: message := by simp [reportText]
    rw [hsplit, List.getLast?_append_of_ne_nil _ (List.cons_ne_nil _ _)]
  cases h with
  | @placed file line column code message severity l c n _ _ _ _ _ =>
      rw [positionText, ← List.append_assoc, List.getLast?_append_of_ne_nil _ (by simp [reportText]), hreport]
  | @plain code message severity n _ _ => exact hreport severity code message

/-- A diagnostic of one line is printed on one line. -/
theorem not_mem_render (h : OnLine root line d) (hroot : '\n' ∉ root.text) (hline : '\n' ∉ line) :
    '\n' ∉ d.render := by
  have hdigits (n : Nat) : '\n' ∉ Text.ofNat n := by
    intro hm
    have hdigit := (Json.digits_ofNat n).2 _ hm
    cases hdigit
  have hreport (severity : Severity) (n : Nat) {message : Text} (hm : '\n' ∉ message) :
      '\n' ∉ reportText severity (Text.ofNat n) message := by
    have hword : '\n' ∉ severity.text := fun hm => absurd (severity.isAlpha_text '\n' hm) (by decide)
    simp [reportText, hword, hdigits, hm]
  cases h with
  | @placed file line column code message severity l c n _ _ _ _ _ =>
      have hfile : '\n' ∉ (root.resolve ⟨file⟩).text := by
        intro hm
        rcases Path.mem_text_resolve hm with hm | hm | hm | hm
        · exact hroot hm
        · exact hline (List.mem_append_left _ hm)
        · cases hm
        · cases hm
      have hmessage : '\n' ∉ message := fun hm => hline (by simp [positionText, reportText, hm])
      rw [Diagnostic.render_placed]
      simp [positionText, hfile, hdigits, hreport severity n hmessage]
  | @plain code message severity n _ _ =>
      exact hreport severity n fun hm => hline (by simp [reportText, hm])

end Diagnostic.OnLine

/-! ## Printing and reading again -/

namespace Diagnostic

variable {root : Path}

/-- What was read from an output can be read from the lines it is printed as, and these end as lines of
    the output do. -/
theorem onLine_render_of_mem (habs : root.isAbsolute = true) (hroot : '\n' ∉ root.text) {output : Text}
    {d : Diagnostic} (h : d ∈ parseDiagnostics root output) :
    OnLine root d.render d ∧ '\n' ∉ d.render ∧ ∀ c ∈ d.render.getLast?, Text.isBlank c = false := by
  obtain ⟨line, hline, hd⟩ := List.mem_filterMap.mp h
  have hon := parseDiagnostic?_eq_some_iff.mp hd
  have hagain := hon.render habs
  refine ⟨hagain, hon.not_mem_render hroot fun hm => ?_, fun c hc => ?_⟩
  · exact Text.not_mem_of_mem_lines hline ((Text.trimEnd_isPrefix line).mem hm)
  · rw [hagain.getLast?_eq, ← hon.getLast?_eq] at hc
    exact Text.not_isBlank_of_getLast?_trimEnd hc

/-- Diagnostics are printed one on a line. -/
theorem lines_formatDiagnostics (habs : root.isAbsolute = true) (hroot : '\n' ∉ root.text) (output : Text) :
    (formatDiagnostics (parseDiagnostics root output)).lines =
      (parseDiagnostics root output).map (·.render) := by
  refine Text.lines_intercalate fun t ht => ?_
  obtain ⟨d, hd, rfl⟩ := List.mem_map.mp ht
  obtain ⟨hon, hline, hlast⟩ := onLine_render_of_mem habs hroot hd
  refine ⟨fun hnil => ?_, hline, fun hreturn => ?_⟩
  · have hend := hon.getLast?_eq
    rw [hnil, List.getLast?_cons] at hend
    cases hend
  · exact absurd (hlast '\r' hreturn) (by decide)

/-- Each line is read as the diagnostic that was printed. -/
theorem parseDiagnostic?_render (habs : root.isAbsolute = true) (hroot : '\n' ∉ root.text) {output : Text}
    {d : Diagnostic} (h : d ∈ parseDiagnostics root output) :
    parseDiagnostic? root d.render.trimEnd = some d := by
  obtain ⟨hon, -, hlast⟩ := onLine_render_of_mem habs hroot h
  rw [Text.trimEnd_of_last hlast]
  exact parseDiagnostic?_eq_some_iff.mpr hon

end Diagnostic

/-- The diagnostics of an output are printed one on a line, each line is read as its diagnostic, and from
    all of them the same diagnostics are read. -/
theorem parseDiagnostics_formatDiagnostics {root : Path} (habs : root.isAbsolute = true)
    (hroot : '\n' ∉ root.text) (output : Text) :
    (formatDiagnostics (parseDiagnostics root output)).lines = (parseDiagnostics root output).map (·.render) ∧
      (∀ d ∈ parseDiagnostics root output, parseDiagnostic? root d.render.trimEnd = some d) ∧
      parseDiagnostics root (formatDiagnostics (parseDiagnostics root output)) =
        parseDiagnostics root output := by
  have hlines := Diagnostic.lines_formatDiagnostics habs hroot output
  have hread : ∀ d ∈ parseDiagnostics root output, parseDiagnostic? root d.render.trimEnd = some d :=
    fun d hd => Diagnostic.parseDiagnostic?_render habs hroot hd
  refine ⟨hlines, hread, ?_⟩
  calc parseDiagnostics root (formatDiagnostics (parseDiagnostics root output))
    _ = ((parseDiagnostics root output).map (·.render)).filterMap
          fun l => parseDiagnostic? root l.trimEnd := by rw [parseDiagnostics, hlines]
    _ = (parseDiagnostics root output).filterMap fun d => parseDiagnostic? root d.render.trimEnd :=
          List.filterMap_map
    _ = (parseDiagnostics root output).filterMap some := List.filterMap_congr hread
    _ = parseDiagnostics root output := List.filterMap_some

/-- The output names a file like a diagnostic, has a message that begins like one, puts a zero in front
    of a column, and ends in a line that is none. -/
def misleadingOutput : Text :=
  "src/a(1,2): error TS1: b.ts(3,04): warning TS0007: error TS2: 'a: b' is gone. \r\nFound 1 error.\n"

/-- The diagnostic among its lines. -/
def misleading : Diagnostic :=
  ⟨some ⟨"/p (old)/src/a(1,2): error TS1: b.ts"⟩, some (3, 4), .warning, 7, "error TS2: 'a: b' is gone."⟩

theorem parseDiagnostics_misleadingOutput :
    parseDiagnostics ⟨"/p (old)"⟩ misleadingOutput = [misleading] := by
  have hfirst : parseDiagnostic? ⟨"/p (old)"⟩
      ("src/a(1,2): error TS1: b.ts" ++
        positionText "3" "04" .warning "0007" "error TS2: 'a: b' is gone.") = some misleading :=
    parseDiagnostic?_eq_some_iff.mpr (.placed (by decide) rfl rfl rfl (quiet_of_not_mem (by decide)))
  have hsecond : parseDiagnostic? ⟨"/p (old)"⟩ "Found 1 error." = none := by
    have hfile : filePart? [] "Found 1 error." = none :=
      (filePart?_nil_eq_none_iff _).mpr (quiet_of_not_mem (by decide))
    rw [parseDiagnostic?, hfile]
    rfl
  have hlines : misleadingOutput.lines.map Text.trimEnd =
      ["src/a(1,2): error TS1: b.ts" ++
        positionText "3" "04" .warning "0007" "error TS2: 'a: b' is gone.", "Found 1 error."] := by
    rw [show misleadingOutput = _ from Text.toList_literal rfl]
    decide +kernel
  have hmap : parseDiagnostics ⟨"/p (old)"⟩ misleadingOutput =
      (misleadingOutput.lines.map Text.trimEnd).filterMap (parseDiagnostic? ⟨"/p (old)"⟩) := by
    rw [parseDiagnostics, List.filterMap_map]
    rfl
  rw [hmap, hlines, List.filterMap_cons_some hfirst, List.filterMap_cons_none hsecond, List.filterMap_nil]

theorem parseDiagnostics_formatDiagnostics_misleading :
    parseDiagnostics ⟨"/p (old)"⟩ misleadingOutput = [misleading] ∧
      parseDiagnostics ⟨"/p (old)"⟩ (formatDiagnostics [misleading]) = [misleading] := by
  have habs : Path.isAbsolute ⟨"/p (old)"⟩ = true := by decide
  have hagain := (parseDiagnostics_formatDiagnostics habs (by decide) misleadingOutput).2.2
  rw [parseDiagnostics_misleadingOutput] at hagain
  exact ⟨parseDiagnostics_misleadingOutput, hagain⟩

end Typings
