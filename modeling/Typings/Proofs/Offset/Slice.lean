import Typings.Import.Lexeme
import Typings.Import.Site
import Typings.Proofs.Text

/-!
# `Slice` — texts at byte offsets

An offset counts bytes.  A byte may be asked for at any offset, but a text can be cut only where a
character begins; what asks for more has no result.

* `cut?`, `slice?`, `byte?`: a text cut at an offset, the text of a range, and the byte at an offset.
* `At`: a text that is ahead at an offset.
* `Tests`: a test of bytes that tells of each byte of a character what a test tells of the character.
* `At.over`: what is done byte by byte is done to whole characters.
-/

namespace Typings.Offset

open Import (Range isIdent isQuote)

/-! ## Cutting and looking -/

/-- The text up to an offset, and the text from there; there is none past the end and inside a
    character. -/
def cut? : Text → Nat → Option (Text × Text)
  | t, 0 => some ([], t)
  | [], _ + 1 => none
  | c :: t, n + 1 =>
    if c.utf8Size ≤ n + 1 then (cut? t (n + 1 - c.utf8Size)).map fun (a, b) => (c :: a, b) else none

/-- The text of a range. -/
def slice? (t : Text) (r : Range) : Option Text := do
  if r.stop < r.start then none
  else
    let (before, _) ← cut? t r.stop
    let (_, part) ← cut? before r.start
    return part

/-- The byte at an offset. -/
def byte? (t : Text) (offset : Nat) : Option UInt8 := t.bytes[offset]?

/-- The byte of a character of ASCII. -/
def byteOf (c : Char) : UInt8 := c.toUInt8

/-- A text can be cut at an offset exactly where some beginning of it ends. -/
theorem cut?_eq_some_iff {t a b : Text} {n : Nat} :
    cut? t n = some (a, b) ↔ t = a ++ b ∧ a.byteSize = n := by
  fun_induction cut? t n generalizing a with
  | case1 t =>
      constructor
      · rintro h
        obtain ⟨rfl, rfl⟩ := Prod.mk.inj (Option.some.inj h)
        exact ⟨rfl, rfl⟩
      · rintro ⟨rfl, hsize⟩
        cases a with
        | nil => rfl
        | cons c a =>
            have hpos := c.utf8Size_pos
            rw [Text.byteSize_cons] at hsize
            omega
  | case2 n =>
      refine iff_of_false nofun ?_
      rintro ⟨h, hsize⟩
      obtain ⟨rfl, -⟩ := List.append_eq_nil_iff.mp h.symm
      exact absurd hsize (by simp)
  | case3 c t n hle ih =>
      rw [Option.map_eq_some_iff]
      constructor
      · rintro ⟨⟨a', b'⟩, h, heq⟩
        obtain ⟨rfl, rfl⟩ := Prod.mk.inj heq
        obtain ⟨rfl, hsize⟩ := ih.mp h
        exact ⟨rfl, by rw [Text.byteSize_cons, hsize]; omega⟩
      · rintro ⟨h, hsize⟩
        cases a with
        | nil => exact absurd hsize (by simp)
        | cons d a =>
            obtain ⟨rfl, rfl⟩ := List.cons.inj h
            rw [Text.byteSize_cons] at hsize
            exact ⟨(a, b), ih.mpr ⟨rfl, by omega⟩, rfl⟩
  | case4 c t n hlt =>
      refine iff_of_false nofun ?_
      rintro ⟨h, hsize⟩
      cases a with
      | nil => exact absurd hsize (by simp)
      | cons d a =>
          obtain ⟨rfl, -⟩ := List.cons.inj h
          rw [Text.byteSize_cons] at hsize
          omega

/-- The text `u` is ahead at an offset. -/
def At (t : Text) (offset : Nat) (u : Text) : Prop := ∃ front, t = front ++ u ∧ front.byteSize = offset

variable {t u a b : Text} {c : Char} {offset : Nat}

theorem at_zero (t : Text) : At t 0 t := ⟨[], rfl, rfl⟩

theorem At.pass (h : At t offset (a ++ u)) : At t (offset + a.byteSize) u := by
  obtain ⟨front, rfl, rfl⟩ := h
  exact ⟨front ++ a, (List.append_assoc front a u).symm, Text.byteSize_append front a⟩

theorem At.next (h : At t offset (c :: u)) : At t (offset + c.utf8Size) u := by
  have hpass := At.pass (a := [c]) h
  rwa [Text.byteSize_cons, Text.byteSize_nil, Nat.add_zero] at hpass

theorem At.size (h : At t offset u) : offset + u.byteSize = t.byteSize := by
  obtain ⟨front, rfl, rfl⟩ := h
  exact (Text.byteSize_append front u).symm

theorem At.le (h : At t offset u) : offset ≤ t.byteSize := Nat.le.intro h.size

/-- What is ahead can be cut out. -/
theorem At.slice (h : At t offset (a ++ u)) : slice? t ⟨offset, offset + a.byteSize⟩ = some a := by
  obtain ⟨front, rfl, rfl⟩ := h
  have hstop : cut? (front ++ (a ++ u)) (front.byteSize + a.byteSize) = some (front ++ a, u) :=
    cut?_eq_some_iff.mpr ⟨(List.append_assoc front a u).symm, Text.byteSize_append front a⟩
  have hstart : cut? (front ++ a) front.byteSize = some (front, a) := cut?_eq_some_iff.mpr ⟨rfl, rfl⟩
  rw [slice?, if_neg (Nat.not_lt.mpr (Nat.le_add_right _ _)), hstop]
  simp only [Option.bind_eq_bind, Option.bind_some, hstart]
  rfl

/-- The rest of a text can be cut out. -/
theorem At.slice_rest (h : At t offset u) : slice? t ⟨offset, t.byteSize⟩ = some u := by
  have hslice := At.slice (a := u) (u := []) (by rwa [List.append_nil])
  rwa [h.size] at hslice

/-! ## Looking at what is ahead -/

theorem At.bytes (h : At t offset u) : t.bytes.drop offset = u.bytes := by
  obtain ⟨front, rfl, rfl⟩ := h
  exact Text.drop_bytes front u

theorem At.byte? (h : At t offset u) (i : Nat) : byte? t (offset + i) = u.bytes[i]? := by
  rw [Offset.byte?, ← h.bytes, List.getElem?_drop]

theorem At.byte?_nil (h : At t offset []) : Offset.byte? t offset = none := h.byte? 0

/-- Where there is a byte, the text goes on. -/
theorem lt_of_byte? {b : UInt8} (h : Offset.byte? t offset = some b) : offset < t.byteSize := by
  rw [← Text.length_bytes]
  exact (List.getElem?_eq_some_iff.mp h).1

theorem bytes_cons (c : Char) (u : Text) : Text.bytes (c :: u) = String.utf8EncodeChar c ++ Text.bytes u := rfl

/-- The bytes of the character that is ahead. -/
theorem At.byte?_cons (h : At t offset (c :: u)) {i : Nat} (hi : i < c.utf8Size) :
    ∃ b ∈ String.utf8EncodeChar c, Offset.byte? t (offset + i) = some b := by
  have hi : i < (String.utf8EncodeChar c).length := by rwa [String.length_utf8EncodeChar]
  refine ⟨_, List.getElem_mem hi, ?_⟩
  rw [h.byte?, bytes_cons, List.getElem?_append_left hi, List.getElem?_eq_getElem]

theorem At.byte?_first (h : At t offset (c :: u)) :
    ∃ b ∈ String.utf8EncodeChar c, Offset.byte? t offset = some b := h.byte?_cons c.utf8Size_pos

/-! ## Tests of bytes -/

theorem encode_ascii {c : Char} (h : c.toNat < 0x80) : String.utf8EncodeChar c = [UInt8.ofNat c.toNat] := by
  rw [String.utf8EncodeChar, if_pos]
  · rfl
  · exact Nat.le_of_lt_succ h

theorem utf8Size_ascii {c : Char} (h : c.toNat < 0x80) : c.utf8Size = 1 := by
  rw [← String.length_utf8EncodeChar, encode_ascii h]
  rfl

theorem At.next_ascii (h : At t offset (c :: u)) (hc : c.toNat < 0x80) : At t (offset + 1) u := by
  rw [← utf8Size_ascii hc]
  exact h.next

/-- The bytes of the other characters are no bytes of ASCII. -/
theorem high_of_mem_encode {c : Char} (h : 0x80 ≤ c.toNat) {b : UInt8} (hb : b ∈ String.utf8EncodeChar c) :
    0x80 ≤ b.toNat := by
  have hlow : ¬ c.val.toNat ≤ 127 := Nat.not_le.mpr h
  rw [String.utf8EncodeChar, if_neg hlow] at hb
  split at hb
  · simp only [List.mem_cons, List.not_mem_nil, or_false] at hb
    rcases hb with rfl | rfl <;> rw [UInt8.toNat_ofNat'] <;> omega
  split at hb
  · simp only [List.mem_cons, List.not_mem_nil, or_false] at hb
    rcases hb with rfl | rfl | rfl <;> rw [UInt8.toNat_ofNat'] <;> omega
  · simp only [List.mem_cons, List.not_mem_nil, or_false] at hb
    rcases hb with rfl | rfl | rfl | rfl <;> rw [UInt8.toNat_ofNat'] <;> omega

/-- The test of bytes tells of each byte of a character what the test of characters tells of it. -/
def Tests (p : UInt8 → Bool) (q : Char → Bool) : Prop :=
  ∀ c, ∀ b ∈ String.utf8EncodeChar c, p b = q c

/-- It is enough that the tests agree on ASCII, and are constant beyond it. -/
theorem tests_of {p : UInt8 → Bool} {q : Char → Bool} {v : Bool}
    (hascii : ∀ n : Fin 0x80, p (UInt8.ofNat n) = q (Char.ofNat n))
    (hbytes : ∀ b : UInt8, 0x80 ≤ b.toNat → p b = v) (hchars : ∀ c : Char, 0x80 ≤ c.toNat → q c = v) :
    Tests p q := by
  intro c b hb
  by_cases hc : c.toNat < 0x80
  · rw [encode_ascii hc, List.mem_singleton] at hb
    rw [hb, hascii ⟨c.toNat, hc⟩, Char.ofNat_toNat]
  · rw [hbytes b (high_of_mem_encode (Nat.not_lt.mp hc) hb), hchars c (Nat.not_lt.mp hc)]

theorem toNat_byteOf {d : Char} (hd : d.toNat < 0x80) : (byteOf d).toNat = d.toNat := by
  show (UInt8.ofNat d.toNat).toNat = d.toNat
  rw [UInt8.toNat_ofNat']
  omega

/-- A character of ASCII is told by its byte. -/
theorem beq_byteOf {c d : Char} (hd : d.toNat < 0x80) {b : UInt8} (hb : b ∈ String.utf8EncodeChar c) :
    (b == byteOf d) = (c == d) := by
  rw [Bool.eq_iff_iff, beq_iff_eq, beq_iff_eq, ← UInt8.toNat_inj, toNat_byteOf hd, ← Char.toNat_inj]
  by_cases hc : c.toNat < 0x80
  · rw [encode_ascii hc, List.mem_singleton] at hb
    rw [hb, UInt8.toNat_ofNat', Nat.mod_eq_of_lt (by omega)]
  · have hhigh := high_of_mem_encode (Nat.not_lt.mp hc) hb
    exact iff_of_false (by omega) (by omega)

/-- Whether a character of ASCII is ahead can be told from its byte. -/
theorem At.byte?_beq (h : At t offset u) {d : Char} (hd : d.toNat < 0x80) :
    (Offset.byte? t offset == some (byteOf d)) = (u.head? == some d) := by
  cases u with
  | nil =>
      rw [h.byte?_nil]
      rfl
  | cons c u =>
      obtain ⟨b, hb, hbyte⟩ := h.byte?_first
      rw [hbyte]
      exact beq_byteOf hd hb

/-! ## Byte by byte -/

/-- What passes over each byte of a character passes over the character. -/
theorem At.over {α : Type} {f : Nat → α} (h : At t offset (c :: u))
    (hf : ∀ i, ∀ b ∈ String.utf8EncodeChar c, Offset.byte? t i = some b → f i = f (i + 1)) :
    f offset = f (offset + c.utf8Size) := by
  have hsteps : ∀ n ≤ c.utf8Size, f offset = f (offset + n) := by
    intro n hn
    induction n with
    | zero => rfl
    | succ n ih =>
        obtain ⟨b, hb, hbyte⟩ := h.byte?_cons hn
        rw [ih (Nat.le_of_succ_le hn), hf _ b hb hbyte]
        rfl
  exact hsteps _ (Nat.le_refl _)

/-- What passes over bytes beyond ASCII, and is past the first byte of a character, passes over the
    character. -/
theorem At.over_rest {α : Type} {f : Nat → α} (h : At t offset (c :: u))
    (hf : ∀ i b, 0x80 ≤ b.toNat → Offset.byte? t i = some b → f i = f (i + 1)) :
    f (offset + 1) = f (offset + c.utf8Size) := by
  by_cases hc : c.toNat < 0x80
  · rw [utf8Size_ascii hc]
  · have hover := h.over fun i b hb => hf i b (high_of_mem_encode (Nat.not_lt.mp hc) hb)
    obtain ⟨b, hb, hbyte⟩ := h.byte?_first
    rw [← hover, ← hf offset b (high_of_mem_encode (Nat.not_lt.mp hc) hb) hbyte]

end Typings.Offset
