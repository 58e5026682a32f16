import Mathlib.Data.Set.Function
import Mathlib.Tactic.Ring
import Typings.Proofs.SourceMap.RoundTrip
import Typings.Proofs.Text
import Typings.Resolver.BuiltIn
import Typings.SourceMap

/-!
# `Mappings` — segments are read back, and what a shift does to mappings

The fields of a segment stand in a row with nothing between them, and each ends where its last digit says so.
A reader that takes five bits of each digit, from the lowest up, gets the number of each field, whose lowest
bit is the sign (`readFrom?_digits`).  The least 64-bit value has no bits left beside its sign, so it is read
as zero; every other value is read as itself (`unzigzag_zigzag`).

The mappings of a map are lines of segments, and each field of a segment counts from the same field of the one
before it; only the generated column starts anew on each line.  So what is put in front of mappings moves
everything behind it: a first line whose one segment names an original line moves every original line by as
many, and nothing else (`mappings?_shift`).

* `Vlq.readFrom?`, `Vlq.fields?`: the reader of segments, as it is defined for source maps.
* `Vlq.kept`: the value that is read for a field.
* `Vlq.fields?_segment`: the fields of a segment are read, and different lists make different segments.
* `Mapping`, `Origin`: a segment with what its fields amount to.
* `Cursor`: what the fields of the next segment count from; `Cursor.segment?`, `Cursor.line?`, `Cursor.lines?`.
* `mappings?`: the mappings of a text, by these steps; none where a segment has another number of fields than
  one, four or five.
* `Cursor.lines?_down`: counting from another original line moves all original lines.
* `Component.remap_shifts`: the map of a component.
-/

namespace Typings.SourceMap.Vlq

/-! ## The reader -/

/-- The six bits of a digit. -/
def digitValue? (c : Char) : Option Nat := alphabet.idxOf? c

/-- The value of a number whose lowest bit is the sign. -/
def unzigzag (n : Nat) : Int := if n % 2 = 0 then (n / 2 : Nat) else -(n / 2 : Nat)

/-- The fields of a text, of which `shift` bits with the value `value` have been read of the first; none for a
    text that ends inside of a field, or has something else than digits. -/
def readFrom? (value shift : Nat) : Text → Option (List Int)
  | [] => if shift = 0 then some [] else none
  | c :: t => (digitValue? c).bind fun d =>
    let value := value + d % 32 * 2 ^ shift
    if d < 32 then (readFrom? 0 0 t).map (unzigzag value :: ·) else readFrom? value (shift + 5) t

/-- The fields of a segment. -/
def fields? (t : Text) : Option (List Int) := readFrom? 0 0 t

theorem digitValue?_digit : ∀ n < 64, digitValue? (digit n) = some n := by
  unfold digitValue? digit
  rw [show alphabet = _ from Text.toList_literal rfl]
  decide +kernel

theorem readFrom?_cons {n : Nat} (h : n < 64) (value shift : Nat) (t : Text) :
    readFrom? value shift (digit n :: t) =
      if n < 32 then (readFrom? 0 0 t).map (unzigzag (value + n % 32 * 2 ^ shift) :: ·)
      else readFrom? (value + n % 32 * 2 ^ shift) (shift + 5) t := by
  rw [readFrom?, digitValue?_digit n h]
  rfl

/-- **A number is read up to its last digit**, and behind it the next field begins. -/
theorem readFrom?_digits (n value shift : Nat) (t : Text) : readFrom? value shift (digits n ++ t) =
    (readFrom? 0 0 t).map (unzigzag (value + n * 2 ^ shift) :: ·) := by
  fun_induction digits n generalizing value shift with
  | case1 n h =>
      rw [List.singleton_append, readFrom?_cons (by omega), if_pos h, Nat.mod_eq_of_lt h]
  | case2 n h ih =>
      have hsum : value + (n % 32 + 32) % 32 * 2 ^ shift + n / 32 * 2 ^ (shift + 5) = value + n * 2 ^ shift := by
        have hn : n = n % 32 + 32 * (n / 32) := (Nat.mod_add_div n 32).symm
        calc value + (n % 32 + 32) % 32 * 2 ^ shift + n / 32 * 2 ^ (shift + 5)
            = value + (n % 32 + 32 * (n / 32)) * 2 ^ shift := by
              rw [Nat.add_mod_right, Nat.mod_mod, Nat.pow_add]
              ring
          _ = value + n * 2 ^ shift := by rw [← hn]
      rw [List.cons_append, readFrom?_cons (by omega), if_neg (by omega), ih, hsum]

/-! ## Signs -/

/-- The value that is read for a field: the least value loses its only bit. -/
def kept (v : Int64) : Int := if v = Int64.minValue then 0 else v.toInt

theorem lt_zero_iff {v : Int64} : v < 0 ↔ v.toInt < 0 := by rw [Int64.lt_iff_toInt_lt, Int64.toInt_zero]

/-- A word is its value, or 2 ^ 64 more than a negative value. -/
theorem toInt_eq (v : Int64) : v.toInt =
    if 2 * v.toUInt64.toNat < 2 ^ 64 then (v.toUInt64.toNat : Int) else v.toUInt64.toNat - (2 ^ 64 : Nat) :=
  BitVec.toInt_eq_toNat_cond v.toBitVec

theorem zigzag_of_nonneg {v : Int64} {n : Nat} (h : v.toInt = n) : (zigzag v).toNat = 2 * n := by
  have hword := toInt_eq v
  have hlt := v.toUInt64.toNat_lt
  have hsign : ¬ v < 0 := by rw [lt_zero_iff]; omega
  rw [zigzag, if_neg hsign, UInt64.toNat_shiftLeft]
  show v.toUInt64.toNat <<< 1 % 2 ^ 64 = _
  rw [Nat.shiftLeft_eq]
  split at hword <;> omega

theorem zigzag_of_neg {v : Int64} {n : Nat} (h : v.toInt = -n) (hn : 0 < n) :
    (zigzag v).toNat = 2 * n % 2 ^ 64 + 1 := by
  have hword := toInt_eq v
  have hlt := v.toUInt64.toNat_lt
  have hsign : v < 0 := by rw [lt_zero_iff]; omega
  have hneg : (0 - v.toUInt64).toNat = n := by
    rw [UInt64.toNat_sub, UInt64.toNat_zero]
    split at hword <;> omega
  have hshift : n <<< 1 % 2 ^ 64 = 2 ^ 1 * (n % 2 ^ 63) := by
    rw [Nat.shiftLeft_eq]
    omega
  rw [zigzag, if_pos hsign, UInt64.toNat_or, UInt64.toNat_shiftLeft, hneg]
  show n <<< 1 % 2 ^ 64 ||| 1 = _
  rw [hshift, ← Nat.two_pow_add_eq_or_of_lt (by decide)]
  omega

/-- **A field is read as its value**, but the least value as zero. -/
theorem unzigzag_zigzag (v : Int64) : unzigzag (zigzag v).toNat = kept v := by
  have hlow := v.le_toInt
  have hhigh := v.toInt_lt
  have hkept : kept v = if v.toInt = -2 ^ 63 then 0 else v.toInt := by
    simp only [kept, ← Int64.toInt_inj, Int64.toInt_minValue]
  rw [hkept, unzigzag]
  rcases lt_or_ge v.toInt 0 with h | h
  · obtain ⟨n, hn⟩ := Int.exists_eq_neg_ofNat h.le
    rw [zigzag_of_neg hn (by omega)]
    split <;> split <;> omega
  · obtain ⟨n, hn⟩ := Int.eq_ofNat_of_zero_le h
    rw [zigzag_of_nonneg hn]
    split <;> split <;> omega

/-! ## Segments -/

/-- Without the least value nothing is lost. -/
theorem map_ofInt_kept {values : List Int64} (h : Int64.minValue ∉ values) :
    (values.map kept).map Int64.ofInt = values := by
  have hback : ∀ v ∈ values, Int64.ofInt (kept v) = v := by
    intro v hv
    have hmin : v ≠ Int64.minValue := by
      rintro rfl
      exact h hv
    rw [kept, if_neg hmin, Int64.ofInt_toInt]
  rw [List.map_map]
  exact (List.map_congr_left hback).trans (List.map_id' values)

theorem fields?_field_append (v : Int64) (t : Text) : fields? (field v ++ t) = (fields? t).map (kept v :: ·) := by
  rw [fields?, field, readFrom?_digits, Nat.pow_zero, Nat.mul_one, Nat.zero_add, unzigzag_zigzag]
  rfl

/-- **The fields of a segment are read back**, but zero for the least value, and so no two lists of fields
    without it make the same segment. -/
theorem fields?_segment (values : List Int64) :
    fields? (segment values) = some (values.map kept) ∧
      Set.InjOn segment { values | Int64.minValue ∉ values } := by
  have hread : ∀ vs : List Int64, fields? (segment vs) = some (vs.map kept) := by
    intro vs
    induction vs with
    | nil => rfl
    | cons v vs ih =>
        show fields? (field v ++ segment vs) = _
        rw [fields?_field_append, ih]
        rfl
  refine ⟨hread values, fun vs hvs ws hws h => ?_⟩
  have hkept : vs.map kept = ws.map kept := by rw [← Option.some_inj, ← hread vs, ← hread ws, h]
  rw [← map_ofInt_kept hvs, hkept, map_ofInt_kept hws]

/-! ## The characters of a segment -/

theorem digit_mem_alphabet (n : Nat) : digit n ∈ alphabet := by
  rw [digit, List.getD_eq_getElem?_getD]
  cases h : alphabet[n]? with
  | none =>
      rw [show alphabet = _ from Text.toList_literal rfl]
      decide
  | some c => exact List.mem_of_getElem? h

theorem separators_not_mem_alphabet : ',' ∉ alphabet ∧ ';' ∉ alphabet := by
  rw [show alphabet = _ from Text.toList_literal rfl]
  decide

theorem mem_alphabet_of_mem_digits {n : Nat} {c : Char} (h : c ∈ digits n) : c ∈ alphabet := by
  fun_induction digits n with
  | case1 n hn => exact List.mem_singleton.mp h ▸ digit_mem_alphabet n
  | case2 n hn ih =>
      rcases List.mem_cons.mp h with rfl | h
      · exact digit_mem_alphabet _
      · exact ih h

/-- Segments have nothing but digits in them. -/
theorem mem_alphabet_of_mem_segment {values : List Int64} {c : Char} (h : c ∈ segment values) : c ∈ alphabet := by
  obtain ⟨v, -, hc⟩ := List.mem_flatMap.mp h
  exact mem_alphabet_of_mem_digits hc

/-- What separates segments and lines is no digit. -/
theorem not_mem_segment {c : Char} (hc : c ∉ alphabet) (values : List Int64) : c ∉ segment values :=
  fun h => hc (mem_alphabet_of_mem_segment h)

theorem segment_cons_ne_nil (v : Int64) (values : List Int64) : segment (v :: values) ≠ [] := by
  intro h
  have hdigits := (List.append_eq_nil_iff.mp h).1
  unfold field digits at hdigits
  split at hdigits <;> exact List.cons_ne_nil _ _ hdigits

end Typings.SourceMap.Vlq

namespace Typings

namespace SourceMap

/-! ## Mappings -/

/-- Where a piece of text comes from. -/
structure Origin where
  source : Int
  line : Int
  column : Int
  name : Option Int
deriving DecidableEq, Repr

/-- A piece of generated text, from a column on, and its origin if it has one. -/
structure Mapping where
  column : Int
  origin : Option Origin
deriving DecidableEq, Repr

/-- What the fields of the next segment count from, but for the generated column. -/
structure Cursor where
  source : Int := 0
  line : Int := 0
  column : Int := 0
  name : Int := 0
deriving DecidableEq, Repr

namespace Cursor

/-- The cursor behind a segment with an origin. -/
def advance (k : Cursor) (source line column name : Int) : Cursor :=
  ⟨k.source + source, k.line + line, k.column + column, k.name + name⟩

/-- The mapping of a segment on a line where `generated` is the column of the segment before it. -/
def segment? (k : Cursor) (generated : Int) : List Int → Option (Mapping × Cursor)
  | [g] => some (⟨generated + g, none⟩, k)
  | [g, s, l, c] =>
    let k := k.advance s l c 0
    some (⟨generated + g, some ⟨k.source, k.line, k.column, none⟩⟩, k)
  | [g, s, l, c, n] =>
    let k := k.advance s l c n
    some (⟨generated + g, some ⟨k.source, k.line, k.column, some k.name⟩⟩, k)
  | _ => none

/-- The mappings of the rest of a line. -/
def line? (k : Cursor) (generated : Int) : List (List Int) → Option (List Mapping × Cursor)
  | [] => some ([], k)
  | fields :: rest => do
    let (m, k) ← k.segment? generated fields
    let (ms, k) ← k.line? m.column rest
    some (m :: ms, k)

/-- The mappings of lines; each line starts at its first column. -/
def lines? (k : Cursor) : List (List (List Int)) → Option (List (List Mapping))
  | [] => some []
  | line :: rest => do
    let (ms, k) ← k.line? 0 line
    let mss ← k.lines? rest
    some (ms :: mss)

end Cursor

/-- The fields of the segments of a line. -/
def lineFields? (line : Text) : Option (List (List Int)) :=
  if line.isEmpty then some [] else (List.splitOn ',' line).mapM Vlq.fields?

/-- What mappings say, line by line; none if they are not well-formed. -/
def mappings? (t : Text) : Option (List (List Mapping)) :=
  ((List.splitOn ';' t).mapM lineFields?).bind (Cursor.lines? {})

example : mappings? "AAgBC;;IAAAD,E" = some
    [[⟨0, some ⟨0, 16, 1, none⟩⟩], [], [⟨4, some ⟨0, 16, 1, some (-1)⟩⟩, ⟨6, none⟩]] := by
  decide +kernel

/-! ## Counting from another line -/

/-- The mapping with its original line moved. -/
def Mapping.down (n : Int) (m : Mapping) : Mapping :=
  { m with origin := m.origin.map fun o => { o with line := o.line + n } }

/-- The cursor with its original line moved. -/
def Cursor.down (n : Int) (k : Cursor) : Cursor := { k with line := k.line + n }

namespace Cursor

theorem advance_down (k : Cursor) (n source line column name : Int) :
    (k.down n).advance source line column name = (k.advance source line column name).down n := by
  simp only [advance, down, Int.add_right_comm]

theorem segment?_down (k : Cursor) (n generated : Int) (fields : List Int) :
    (k.down n).segment? generated fields =
      (k.segment? generated fields).map fun (m, k) => (m.down n, k.down n) := by
  unfold segment?
  split
  · rfl
  · rw [advance_down]; rfl
  · rw [advance_down]; rfl
  · rfl

theorem line?_down (k : Cursor) (n generated : Int) (line : List (List Int)) :
    (k.down n).line? generated line =
      (k.line? generated line).map fun (ms, k) => (ms.map (Mapping.down n), k.down n) := by
  induction line generalizing k generated with
  | nil => rfl
  | cons fields rest ih =>
      rw [line?, line?, segment?_down]
      cases k.segment? generated fields with
      | none => rfl
      | some r =>
          obtain ⟨m, k⟩ := r
          show ((k.down n).line? m.column rest).bind _ = Option.map _ ((k.line? m.column rest).bind _)
          rw [ih]
          cases k.line? m.column rest <;> rfl

/-- **Counting from another original line moves all original lines**, however many lines and segments without
    an origin stand between. -/
theorem lines?_down (k : Cursor) (n : Int) (lines : List (List (List Int))) :
    (k.down n).lines? lines = (k.lines? lines).map fun mss => mss.map (·.map (Mapping.down n)) := by
  induction lines generalizing k with
  | nil => rfl
  | cons line rest ih =>
      rw [lines?, lines?, line?_down]
      cases k.line? 0 line with
      | none => rfl
      | some r =>
          obtain ⟨ms, k⟩ := r
          show ((k.down n).lines? rest).bind _ = Option.map _ ((k.lines? rest).bind _)
          rw [ih]
          cases k.lines? rest <;> rfl

end Cursor

end SourceMap

/-! ## The map of a component -/

namespace Component

open SourceMap (Mapping Cursor mappings? lineFields?)

/-- The line that a first segment names for a number of lines, which it holds in 64 bits. -/
def firstLine (lines : Nat) : Int := SourceMap.Vlq.kept (Int64.ofNat lines)

theorem lineFields?_segment (lines : Nat) :
    lineFields? (SourceMap.Vlq.segment [0, 0, Int64.ofNat lines, 0]) = some [[0, 0, firstLine lines, 0]] := by
  have hcomma := SourceMap.Vlq.not_mem_segment SourceMap.Vlq.separators_not_mem_alphabet.1
    [0, 0, Int64.ofNat lines, 0]
  have hne := SourceMap.Vlq.segment_cons_ne_nil 0 [0, Int64.ofNat lines, 0]
  rw [lineFields?, if_neg (by rwa [List.isEmpty_iff]), List.splitOn_eq_singleton hcomma, List.mapM_cons,
    (SourceMap.Vlq.fields?_segment _).1]
  rfl

/-- **A shift moves every original line**, behind a first line that says by how many. -/
theorem mappings?_shift (lines : Nat) (t : Text) : mappings? (shift lines t) =
    (mappings? t).map fun mss =>
      [⟨0, some ⟨0, firstLine lines, 0, none⟩⟩] :: mss.map (·.map (Mapping.down (firstLine lines))) := by
  have hsemicolon := SourceMap.Vlq.not_mem_segment SourceMap.Vlq.separators_not_mem_alphabet.2
    [0, 0, Int64.ofNat lines, 0]
  have hsplit : List.splitOn ';' (shift lines t) =
      SourceMap.Vlq.segment [0, 0, Int64.ofNat lines, 0] :: List.splitOn ';' t := by
    rw [shift, List.append_assoc]
    show List.splitOn ';' (_ ++ ';' :: t) = _
    rw [List.splitOn_append_cons_self, List.splitOn_eq_singleton hsemicolon]
    rfl
  rw [mappings?, mappings?, hsplit, List.mapM_cons, lineFields?_segment]
  cases (List.splitOn ';' t).mapM lineFields? with
  | none => rfl
  | some rest =>
      have hfirst : Cursor.line? {} 0 [[0, 0, firstLine lines, 0]] =
          some ([⟨0, some ⟨0, firstLine lines, 0, none⟩⟩], Cursor.down (firstLine lines) {}) := by
        simp [Cursor.line?, Cursor.segment?, Cursor.advance, Cursor.down]
      show Cursor.lines? {} ([[0, 0, firstLine lines, 0]] :: rest) = Option.map _ (Cursor.lines? {} rest)
      rw [Cursor.lines?, hfirst]
      show ((Cursor.down (firstLine lines) {}).lines? rest).bind _ = _
      rw [Cursor.lines?_down]
      cases Cursor.lines? {} rest <;> rfl

theorem firstLine_of_lt {lines : Nat} (h : lines < 2 ^ 63) : firstLine lines = lines := by
  have hint := Int64.toInt_ofNat_of_lt h
  have hne : Int64.ofNat lines ≠ Int64.minValue := by
    intro hmin
    rw [hmin, Int64.toInt_minValue] at hint
    omega
  rw [firstLine, SourceMap.Vlq.kept, if_neg hne, hint]

/-! ### How many lines there are -/

theorem length_lt_of_beforeScript? {code before : Text} (h : beforeScript? code = some before) :
    before.length < code.length := by
  induction code generalizing before with
  | nil => cases h
  | cons c rest ih =>
      have hrest : (beforeScript? rest).map (c :: ·) = some before → before.length < (c :: rest).length := by
        intro h
        obtain ⟨front, hfront, rfl⟩ := Option.map_eq_some_iff.mp h
        exact Nat.succ_lt_succ (ih hfront)
      unfold beforeScript? at h
      split at h
      · split at h
        · cases h
          exact Nat.succ_pos _
        · exact hrest h
      · exact hrest h

/-- A component has no more lines in front of its script than it has bytes. -/
theorem linesBeforeScript?_le {code : Text} {lines : Nat} (h : linesBeforeScript? code = some lines) :
    lines ≤ code.byteSize := by
  unfold linesBeforeScript? at h
  obtain ⟨before, hbefore, h⟩ := Option.bind_eq_some_iff.mp h
  have hlength := length_lt_of_beforeScript? hbefore
  have htrim : (Text.trimEnd before).length ≤ before.length := (Text.trimEnd_isPrefix before).length_le
  have hcount : lines ≤ (Text.trimEnd before).length + 1 := by
    replace h : (if (Text.trimEnd before).isEmpty then none
      else some (List.splitOn '\n' (Text.trimEnd before)).length) = some lines := h
    split at h
    · cases h
    · cases h
      exact Text.length_splitOn_le '\n' _
  have hbytes := Text.length_le_byteSize code
  omega

/-! ### The whole map -/

/-- A source that is named as the component when it is the stand-in, and stays else. -/
def Renamed (source renamed : Text) : Prop :=
  (∃ stem, source = stem ++ ".vue.ts" ∧ renamed = stem ++ ".vue") ∨
    (¬ (".vue.ts" : Text) <:+ source ∧ renamed = source)

theorem renamed_componentSource (source : Text) : Renamed source (componentSource source) := by
  unfold componentSource
  split
  · next stem h => exact .inl ⟨stem, (List.isSuffixOf?_eq_some_iff_append_eq.mp h).symm, rfl⟩
  · next h =>
      refine .inr ⟨?_, rfl⟩
      rintro ⟨stem, hstem⟩
      rw [List.isSuffixOf?_eq_some_iff_append_eq.mpr hstem] at h
      cases h

/-- A map that is shifted is written, and is read again with its sources renamed, its mappings shifted and its
    doubles read anew. -/
theorem parse?_remap? {content : Text} {m : SourceMap} (h : SourceMap.parse? content = some m) (lines : Nat) :
    ∃ moved, remap? (some lines) content = some moved ∧ SourceMap.parse? moved = some
      { m.again with sources := m.sources.map componentSource, mappings := shift lines m.mappings } := by
  have hlawful := SourceMap.lawful_of_parse? h
  have hshifted : SourceMap.Lawful { m.mapSources componentSource with mappings := shift lines m.mappings } :=
    ⟨hlawful.version, hlawful.extra, hlawful.ordered, hlawful.undeclared⟩
  refine ⟨_, ?_, hshifted.parse?_render⟩
  rw [remap?, h]
  rfl

/-- **A component's map moves every original line by the lines in front of the script.** The map of the stand-in
    becomes one that is read again with a first line that names that line of the component, and then with all
    its mappings as they were but for the original lines, which are as many further down.  The stand-in's name
    becomes the component's in the sources, and nothing else changes.  The number of lines is held in 64 bits,
    which is enough for every text of fewer than 2 ^ 63 bytes. -/
theorem remap_shifts {content : Text} {m : SourceMap} (h : SourceMap.parse? content = some m) (lines : Nat) :
    (∃ moved m', remap? (some lines) content = some moved ∧ SourceMap.parse? moved = some m' ∧
      mappings? m'.mappings = (mappings? m.mappings).map (fun mss =>
        [⟨0, some ⟨0, firstLine lines, 0, none⟩⟩] :: mss.map (·.map (Mapping.down (firstLine lines)))) ∧
      List.Forall₂ Renamed m.sources m'.sources ∧
      m' = { m.again with sources := m'.sources, mappings := m'.mappings }) ∧
    (lines < 2 ^ 63 → firstLine lines = lines) ∧
    ∀ code : Text, code.byteSize < 2 ^ 63 → linesBeforeScript? code = some lines → lines < 2 ^ 63 := by
  obtain ⟨moved, hmoved, hread⟩ := parse?_remap? h lines
  refine ⟨⟨moved, _, hmoved, hread, mappings?_shift lines m.mappings, ?_, rfl⟩, firstLine_of_lt,
    fun code hsize hlines => (linesBeforeScript?_le hlines).trans_lt hsize⟩
  rw [List.forall₂_map_right_iff]
  exact List.forall₂_same.mpr fun source _ => renamed_componentSource source

/-- A component with a template in front of its script. -/
def cardComponent : Text := "<template>\n  <p />\n</template>\n\n<script lang=\"ts\">\nexport default {}\n</script>\n"

/-- The map of the component's stand-in, with an empty line and a segment without an origin. -/
def cardMap : Text :=
  "\x7b\"version\":3,\"sources\":[\"Card.vue.ts\",\"shared.ts\"],\"mappings\":\"AAAA,E;;ACCAA\"\x7d"

theorem remap_shifts_card : linesBeforeScript? cardComponent = some 3 ∧ cardComponent.byteSize < 2 ^ 63 ∧
    ∃ m moved m', SourceMap.parse? cardMap = some m ∧ m.sources = ["Card.vue.ts".toList, "shared.ts".toList] ∧
      remap? (some 3) cardMap = some moved ∧ SourceMap.parse? moved = some m' ∧
      List.Forall₂ Renamed m.sources m'.sources ∧
      mappings? m.mappings =
        some [[⟨0, some ⟨0, 0, 0, none⟩⟩, ⟨2, none⟩], [], [⟨0, some ⟨1, 1, 0, some 0⟩⟩]] ∧
      mappings? m'.mappings = some [[⟨0, some ⟨0, 3, 0, none⟩⟩],
        [⟨0, some ⟨0, 3, 0, none⟩⟩, ⟨2, none⟩], [], [⟨0, some ⟨1, 4, 0, some 0⟩⟩]] ∧
      (3 : Nat) < 2 ^ 63 := by
  have hcode : linesBeforeScript? cardComponent = some 3 := by
    rw [show cardComponent = _ from Text.toList_literal rfl]
    decide +kernel
  have hsize : cardComponent.byteSize < 2 ^ 63 := by
    rw [show cardComponent = _ from Text.toList_literal rfl]
    decide +kernel
  have hparse : (SourceMap.parse? cardMap).map (fun m => (m.sources, mappings? m.mappings)) =
      some (["Card.vue.ts".toList, "shared.ts".toList],
        some [[⟨0, some ⟨0, 0, 0, none⟩⟩, ⟨2, none⟩], [], [⟨0, some ⟨1, 1, 0, some 0⟩⟩]]) := by
    rw [show cardMap = _ from Text.toList_literal rfl]
    decide +kernel
  obtain ⟨m, hm, hpair⟩ := Option.map_eq_some_iff.mp hparse
  obtain ⟨hsources, hmappings⟩ := Prod.mk.injEq .. ▸ hpair
  obtain ⟨⟨moved, m', hmoved, hread, hshifted, hrenamed, -⟩, hfirst, hcount⟩ := remap_shifts hm 3
  have hlt : (3 : Nat) < 2 ^ 63 := hcount cardComponent hsize hcode
  rw [hmappings, hfirst hlt] at hshifted
  exact ⟨hcode, hsize, m, moved, m', hm, hsources, hmoved, hread, hrenamed, hmappings, hshifted, hlt⟩

end Component

end Typings
