import Typings.Proofs.Json.RoundTrip
import Typings.SourceMap

/-!
# `RoundTrip` — maps as text

A map that is read from a text has a version of 32 bits and its other fields in order, none of them
declared.  Such a map is read again from what is written of it, with only the doubles among its other
fields read anew.

* `Lawful`: the maps that a text can have.
* `parse?_of_fields`: a lawful map is decoded from its fields.
* `Lawful.parse?_render`: reading undoes writing.
* `fields_of_parse?`, `lawful_of_parse?`: how a map is read, and that it is lawful.
* `again_of_parse?`: a map whose numbers are integers of 64 bits comes back as it was.
-/

namespace Typings.SourceMap

open Json (fieldOr?)
open Json.Written

/-- The maps that a text can have. -/
structure Lawful (m : SourceMap) : Prop where
  version : ∀ n ∈ m.version, n < 2 ^ 32
  extra : ∀ f ∈ m.extra, Json.Lawful (maxDepth - 1) f.2
  ordered : Json.Ordered m.extra
  undeclared : ∀ f ∈ m.extra, f.1 ∉ declared

/-- The map that is read from a written map. -/
def again (m : SourceMap) : SourceMap := { m with extra := Json.againFields m.extra }

theorem fields_again (m : SourceMap) : Json.againFields m.fields = m.again.fields := by
  have hstrings : ∀ ts : List Text, (ts.map Json.string).map Json.again = ts.map Json.string := by
    intro ts
    rw [List.map_map]
    rfl
  rw [Json.againFields_eq, fields, fields]
  simp only [List.map_append, List.map_map, List.map_cons, List.map_nil, again, Json.againFields_eq,
    Json.again, Json.againItems_eq, hstrings]
  rfl

/-! ## The fields of a written map -/

/-- A field that may be absent. -/
def segment (key : Text) (w : Option Json.Written) : List (Text × Json.Written) :=
  w.toList.map (key, ·)

theorem lookup_segment (key name : Text) (w : Option Json.Written) :
    (segment key w).lookup name = if name = key then w else none := by
  cases w with
  | none => simp [segment]
  | some w =>
      by_cases h : name = key
      · simp [segment, h]
      · have hne : (name == key) = false := beq_eq_false_iff_ne.2 h
        simp [segment, List.lookup_cons, h, hne]

theorem filter_segment (key : Text) (w : Option Json.Written) (p : Text → Bool) :
    (segment key w).filter (fun f => p f.1) = if p key then segment key w else [] := by
  cases w with
  | none => simp [segment]
  | some w => cases hp : p key <;> simp [segment, hp]

theorem length_segment_le (key : Text) (w : Option Json.Written) : (segment key w).length ≤ 1 := by
  cases w <;> simp [segment]

/-- The declared fields of a map as documents. -/
def head (m : SourceMap) : List (Text × Json.Written) :=
  segment "version" (m.version.map fun n => .number (some (.int n))) ++
    segment "file" (m.file.map fun s => .string (some s)) ++
    segment "sourceRoot" (m.sourceRoot.map fun s => .string (some s)) ++
    segment "sources" (some (.array (m.sources.map fun s => .string (some s)))) ++
    segment "mappings" (some (.string (some m.mappings)))

/-- The other fields of a map as documents. -/
def tail (m : SourceMap) : List (Text × Json.Written) := m.extra.map fun f => (f.1, f.2.toWritten)

theorem keyed?_fields (m : SourceMap) :
    keyed? (.object (Json.fieldsToWritten m.fields)) = some (m.head ++ m.tail) := by
  have hkeyed : ∀ fs : List (Text × Json), keyed? (.object (Json.fieldsToWritten fs)) =
      some (fs.map fun f => (f.1, f.2.toWritten)) := by
    intro fs
    induction fs with
    | nil => rfl
    | cons f fs ih =>
        show (Json.fieldsToWritten (f :: fs)).mapM (fun f => f.1.map (·, f.2)) = _
        rw [Json.fieldsToWritten, List.mapM_cons]
        show (keyed? (.object (Json.fieldsToWritten fs))).bind _ = _
        rw [ih]
        rfl
  have hstrings : ∀ ts : List Text, Json.itemsToWritten (ts.map Json.string) =
      ts.map fun s => Json.Written.string (some s) := by
    intro ts
    induction ts with
    | nil => rfl
    | cons t ts ih => rw [List.map_cons, Json.itemsToWritten, ih, List.map_cons, Json.toWritten]
  rw [hkeyed]
  obtain ⟨version, file, sourceRoot, sources, mappings, extra⟩ := m
  cases version <;> cases file <;> cases sourceRoot <;>
    simp [fields, head, tail, segment, Json.toWritten, hstrings, Json.ofNat]

section

variable {m : SourceMap} (h : m.Lawful) {name : Text} (hname : name ∈ declared)

include h hname

theorem lookup_fields : (m.head ++ m.tail).lookup name = m.head.lookup name := by
  have htail : m.tail.lookup name = none := by
    rw [List.lookup_eq_none_iff]
    intro f hf
    obtain ⟨g, hg, rfl⟩ := List.mem_map.1 hf
    rw [bne_iff_ne]
    rintro rfl
    exact h.undeclared g hg hname
  rw [List.lookup_append, htail, Option.or_none]

theorem filter_fields :
    (m.head ++ m.tail).filter (·.1 == name) = m.head.filter (·.1 == name) := by
  have htail : m.tail.filter (·.1 == name) = [] := by
    rw [List.filter_eq_nil_iff]
    intro f hf
    obtain ⟨g, hg, rfl⟩ := List.mem_map.1 hf
    rw [beq_iff_eq]
    rintro rfl
    exact h.undeclared g hg hname
  rw [List.filter_append, htail, List.append_nil]

end

theorem declaredOnce_fields {m : SourceMap} (h : m.Lawful) :
    declaredOnce declared (m.head ++ m.tail) = true := by
  unfold declaredOnce
  rw [List.all_eq_true]
  intro name hname
  rw [filter_fields h hname, decide_eq_true_eq]
  -- The declared names differ, so at most one segment is left.
  simp only [head, List.filter_append, filter_segment _ _ (· == name)]
  simp only [declared, List.mem_cons, List.not_mem_nil, or_false] at hname
  rcases hname with rfl | rfl | rfl | rfl | rfl <;> simp [length_segment_le]

theorem others_fields {m : SourceMap} (h : m.Lawful) :
    (m.head ++ m.tail).filter (fun f => !declared.contains f.1) = m.tail := by
  have htail : m.tail.filter (fun f => !declared.contains f.1) = m.tail := by
    rw [List.filter_eq_self]
    intro f hf
    obtain ⟨g, hg, rfl⟩ := List.mem_map.1 hf
    simpa using h.undeclared g hg
  have hhead : m.head.filter (fun f => !declared.contains f.1) = [] := by
    simp only [head, List.filter_append, filter_segment _ _ fun k => !declared.contains k]
    simp [declared]
  rw [List.filter_append, hhead, htail, List.nil_append]

theorem values_fields {m : SourceMap} (h : m.Lawful) :
    (m.tail.mapM fun (k, v) => (v.value? (maxDepth - 1)).map (k, ·)) = some m.extra := by
  have hvalues : ∀ fs : List (Text × Json), (∀ f ∈ fs, Json.Lawful (maxDepth - 1) f.2) →
      ((fs.map fun f => (f.1, f.2.toWritten)).mapM fun (k, v) =>
        (v.value? (maxDepth - 1)).map (k, ·)) = some fs := by
    intro fs hfs
    induction fs with
    | nil => rfl
    | cons f fs ih =>
        have hvalue := (hfs f (List.mem_cons_self ..)).value?_toWritten
        rw [List.map_cons, List.mapM_cons, ih fun g hg => hfs g (List.mem_cons_of_mem _ hg)]
        simp only [hvalue]
        rfl
  exact hvalues m.extra h.extra

theorem texts_list? (ts : List Text) :
    list? text? (.array (ts.map fun s => .string (some s))) = some ts := by
  show (ts.map fun s => Json.Written.string (some s)).mapM text? = _
  induction ts with
  | nil => rfl
  | cons t ts ih =>
      rw [List.map_cons, List.mapM_cons, ih]
      rfl

theorem version_fields {m : SourceMap} (h : m.Lawful) :
    fieldOr? (m.head ++ m.tail) "version" none (nullable? (natBelow? (Nat.pow 2 32))) =
      some m.version := by
  unfold fieldOr?
  rw [lookup_fields h (by decide)]
  have hlookup : m.head.lookup "version".toList = m.version.map fun n => .number (some (.int n)) := by
    unfold head
    cases m.version <;> simp [List.lookup_append, lookup_segment]
  rw [hlookup]
  cases hv : m.version with
  | none => rfl
  | some n =>
      have hn : n < 2 ^ 32 := h.version n hv
      have hbelow : natBelow? (Nat.pow 2 32) (.number (some (.int n))) = some n := by
        have hrange : (decide (0 ≤ (n : Int)) &&
            decide ((n : Int) < (Nat.pow 2 32 : Nat))) = true := by
          simp only [Bool.and_eq_true, decide_eq_true_eq]
          exact ⟨Int.natCast_nonneg n, Int.ofNat_lt.2 hn⟩
        show (if decide (0 ≤ (n : Int)) && decide ((n : Int) < (Nat.pow 2 32 : Nat)) then
          some (n : Int).toNat else none) = _
        rw [if_pos hrange, Int.toNat_natCast]
      show (natBelow? (Nat.pow 2 32) (.number (some (.int n)))).map some = _
      rw [hbelow]
      rfl

theorem text_fields {m : SourceMap} (h : m.Lawful) {name : Text} (hname : name ∈ declared)
    {t : Option Text} (hlookup : m.head.lookup name = t.map fun s => .string (some s)) :
    fieldOr? (m.head ++ m.tail) name none (nullable? text?) = some t := by
  unfold fieldOr?
  rw [lookup_fields h hname, hlookup]
  cases t <;> rfl

/-- A lawful map is decoded from its fields. -/
theorem parse?_of_fields {m : SourceMap} (h : m.Lawful) {content : Text}
    (hread : Json.readWritten? content = some (.object (Json.fieldsToWritten m.fields))) :
    parse? content = some m := by
  have hfile : fieldOr? (m.head ++ m.tail) "file" none (nullable? text?) = some m.file :=
    text_fields h (by decide) (by simp [head, List.lookup_append, lookup_segment])
  have hroot : fieldOr? (m.head ++ m.tail) "sourceRoot" none (nullable? text?) = some m.sourceRoot :=
    text_fields h (by decide) (by simp [head, List.lookup_append, lookup_segment])
  have hsources : ((m.head ++ m.tail).lookup "sources".toList).bind (list? text?) =
      some m.sources := by
    have hlookup : m.head.lookup "sources".toList =
        some (.array (m.sources.map fun s => .string (some s))) := by
      simp [head, List.lookup_append, lookup_segment]
    rw [lookup_fields h (by decide), hlookup]
    exact texts_list? m.sources
  have hmappings : fieldOr? (m.head ++ m.tail) "mappings" [] text? = some m.mappings := by
    have hlookup : m.head.lookup "mappings".toList = some (.string (some m.mappings)) := by
      simp [head, List.lookup_append, lookup_segment]
    unfold fieldOr?
    rw [lookup_fields h (by decide), hlookup]
    rfl
  unfold parse?
  rw [hread]
  simp only [Option.bind_eq_bind, Option.bind_some, Option.pure_def, guard_true, keyed?_fields,
    declaredOnce_fields h, version_fields h, hfile, hroot, hsources, hmappings, others_fields h,
    values_fields h, Json.sortFields_of_ordered h.ordered]

/-! ## Reading and writing maps -/

theorem Lawful.again {m : SourceMap} (h : m.Lawful) : m.again.Lawful where
  version := h.version
  ordered := h.ordered.againFields
  extra f hf := by
    rw [SourceMap.again, Json.againFields_eq] at hf
    obtain ⟨g, hg, rfl⟩ := List.mem_map.1 hf
    exact (h.extra g hg).again
  undeclared f hf := by
    rw [SourceMap.again, Json.againFields_eq] at hf
    obtain ⟨g, hg, rfl⟩ := List.mem_map.1 hf
    exact h.undeclared g hg

theorem Lawful.mapSources {m : SourceMap} (h : m.Lawful) (f : Text → Text) :
    (m.mapSources f).Lawful := ⟨h.version, h.extra, h.ordered, h.undeclared⟩

/-- The field values of a lawful map are read back. -/
theorem Lawful.readsBack {m : SourceMap} (h : m.Lawful) : Json.ReadsBack (.object m.fields) := by
  apply Json.ReadsBack.object
  intro f hf
  simp only [fields, List.mem_append, List.mem_map, Option.mem_toList, List.mem_cons,
    List.not_mem_nil, or_false] at hf
  rcases hf with (((⟨n, hn, rfl⟩ | ⟨t, -, rfl⟩) | ⟨t, -, rfl⟩) | (rfl | rfl)) | hf
  · have hlt : n < 2 ^ 32 := h.version n hn
    have hrange : Json.Number.InRange (.int n) := ⟨by omega, by omega⟩
    exact (Json.Lawful.number (d := 0) hrange).readsBack
  · exact (Json.Lawful.string (d := 0) t).readsBack
  · exact (Json.Lawful.string (d := 0) t).readsBack
  · refine Json.ReadsBack.array fun v hv => ?_
    obtain ⟨t, -, rfl⟩ := List.mem_map.1 hv
    exact (Json.Lawful.string (d := 0) t).readsBack
  · exact (Json.Lawful.string (d := 0) m.mappings).readsBack
  · exact (h.extra f hf).readsBack

/-- **Reading undoes writing.**  A lawful map is read from its text, with the doubles among its other
    fields read anew. -/
theorem Lawful.parse?_render {m : SourceMap} (h : m.Lawful) : parse? m.render = some m.again := by
  apply parse?_of_fields h.again
  rw [render, h.readsBack.readWritten?, Json.again, fields_again]
  rfl

/-- Each member of a list that is read item by item comes from an item. -/
theorem exists_of_mem_mapM {α β : Type} {read? : α → Option β} {xs : List α} {ys : List β}
    (h : xs.mapM read? = some ys) {y : β} (hy : y ∈ ys) : ∃ x ∈ xs, read? x = some y := by
  induction xs generalizing ys with
  | nil =>
      cases h
      cases hy
  | cons x xs ih =>
      rw [List.mapM_cons] at h
      obtain ⟨z, hz, h⟩ := Option.bind_eq_some_iff.1 h
      obtain ⟨zs, hzs, h⟩ := Option.bind_eq_some_iff.1 h
      cases h
      rcases List.mem_cons.1 hy with rfl | hy
      · exact ⟨x, List.mem_cons_self .., hz⟩
      · obtain ⟨x', hx', hread⟩ := ih hzs hy
        exact ⟨x', List.mem_cons_of_mem _ hx', hread⟩

theorem version_lt {fields : List (Text × Json.Written)} {name : Text} {bound : Nat}
    {version : Option Nat}
    (h : fieldOr? fields name none (nullable? (natBelow? bound)) = some version) :
    ∀ n ∈ version, n < bound := by
  intro n hn
  cases hn
  unfold fieldOr? at h
  split at h
  · next w _ =>
      unfold nullable? at h
      split at h
      · cases h
      · obtain ⟨k, hk, hkn⟩ := Option.map_eq_some_iff.1 h
        cases hkn
        unfold natBelow? at hk
        split at hk
        · split at hk
          · next hrange =>
              obtain ⟨hlow, hhigh⟩ := Bool.and_eq_true_iff.1 hrange
              have hlow := of_decide_eq_true hlow
              have hhigh := of_decide_eq_true hhigh
              cases hk
              omega
          · cases hk
        · cases hk
  · cases h

theorem sound_keyed? {w : Json.Written} {fields : List (Text × Json.Written)}
    (h : w.keyed? = some fields) (hsound : w.Sound) : ∀ f ∈ fields, f.2.Sound := by
  intro f hf
  cases hsound with
  | object hfields =>
      obtain ⟨g, hg, hkey⟩ := exists_of_mem_mapM h hf
      obtain ⟨k, -, rfl⟩ := Option.map_eq_some_iff.1 hkey
      exact hfields g hg
  | null => cases h
  | bool b => cases h
  | number hn => cases h
  | string s => cases h
  | array hitems => cases h

/-- How a map is read: from the fields of a document, with those that have no meaning in order. -/
theorem fields_of_parse? {content : Text} {m : SourceMap} (h : parse? content = some m) :
    ∃ w fields extra, Json.readWritten? content = some w ∧ w.keyed? = some fields ∧
      fieldOr? fields "version" none (nullable? (natBelow? (Nat.pow 2 32))) = some m.version ∧
      ((fields.filter fun f => !declared.contains f.1).mapM fun (k, v) =>
        (v.value? (maxDepth - 1)).map (k, ·)) = some extra ∧
      m.extra = Json.sortFields extra := by
  unfold parse? at h
  obtain ⟨w, hw, h⟩ := Option.bind_eq_some_iff.1 h
  obtain ⟨fields, hfields, h⟩ := Option.bind_eq_some_iff.1 h
  obtain ⟨-, -, h⟩ := Option.bind_eq_some_iff.1 h
  obtain ⟨version, hversion, h⟩ := Option.bind_eq_some_iff.1 h
  obtain ⟨file, -, h⟩ := Option.bind_eq_some_iff.1 h
  obtain ⟨sourceRoot, -, h⟩ := Option.bind_eq_some_iff.1 h
  obtain ⟨sources, -, h⟩ := Option.bind_eq_some_iff.1 h
  obtain ⟨mappings, -, h⟩ := Option.bind_eq_some_iff.1 h
  obtain ⟨extra, hextra, h⟩ := Option.bind_eq_some_iff.1 h
  cases h
  exact ⟨w, fields, extra, hw, hfields, hversion, hextra, rfl⟩

/-- Each of the fields without a meaning is one of the fields that were read. -/
theorem exists_of_mem_extra {fields : List (Text × Json.Written)} {extra : List (Text × Json)}
    (h : ((fields.filter fun f => !declared.contains f.1).mapM fun (k, v) =>
      (v.value? (maxDepth - 1)).map (k, ·)) = some extra)
    {f : Text × Json} (hf : f ∈ Json.sortFields extra) :
    ∃ g ∈ fields, g.2.value? (maxDepth - 1) = some f.2 ∧ f.1 ∉ declared := by
  obtain ⟨g, hg, hvalue⟩ := exists_of_mem_mapM h (Json.mem_sortFields hf)
  obtain ⟨v, hv, rfl⟩ := Option.map_eq_some_iff.1 hvalue
  obtain ⟨hmem, hundeclared⟩ := List.mem_filter.1 hg
  exact ⟨g, hmem, hv, by simpa using hundeclared⟩

/-- What is read from a text is lawful. -/
theorem lawful_of_parse? {content : Text} {m : SourceMap} (h : parse? content = some m) :
    m.Lawful := by
  obtain ⟨w, fields, extra, hw, hfields, hversion, hextra, hm⟩ := fields_of_parse? h
  have hothers : ∀ f ∈ m.extra, Json.Lawful (maxDepth - 1) f.2 ∧ f.1 ∉ declared := by
    intro f hf
    obtain ⟨g, hg, hvalue, hundeclared⟩ := exists_of_mem_extra hextra (hm ▸ hf)
    exact ⟨(sound_keyed? hfields (Json.sound_readWritten? hw) g hg).lawful hvalue, hundeclared⟩
  exact ⟨version_lt hversion, fun f hf => (hothers f hf).1, hm ▸ Json.ordered_sortFields extra,
    fun f hf => (hothers f hf).2⟩

theorem isWhole_keyed? {w : Json.Written} {fields : List (Text × Json.Written)}
    (h : w.keyed? = some fields) (hw : w.isWhole = true) : ∀ f ∈ fields, f.2.isWhole = true := by
  intro f hf
  cases w with
  | object written =>
      obtain ⟨g, hg, hkey⟩ := exists_of_mem_mapM h hf
      obtain ⟨k, -, rfl⟩ := Option.map_eq_some_iff.1 hkey
      rw [isWhole, fieldsWhole_eq_all] at hw
      exact List.all_eq_true.1 hw g hg
  | null => cases h
  | bool b => cases h
  | number n => cases h
  | string s => cases h
  | array items => cases h

/-- **A map with whole numbers is read back as itself.** -/
theorem again_of_parse? {content : Text} {m : SourceMap} (h : parse? content = some m)
    (hwhole : Json.wholeNumbers content = true) : m.again = m := by
  obtain ⟨w, fields, extra, hw, hfields, -, hextra, hm⟩ := fields_of_parse? h
  rw [Json.wholeNumbers, hw, Option.any_some] at hwhole
  have hvalues : ∀ f ∈ m.extra, (f.1, f.2.again) = f := by
    intro f hf
    obtain ⟨g, hg, hvalue, -⟩ := exists_of_mem_extra hextra (hm ▸ hf)
    rw [again_of_isWhole g.2 (isWhole_keyed? hfields hwhole g hg) hvalue]
  have hextra : Json.againFields m.extra = m.extra := by
    rw [Json.againFields_eq, List.map_congr_left hvalues, List.map_id']
  rw [again, hextra]

end Typings.SourceMap
