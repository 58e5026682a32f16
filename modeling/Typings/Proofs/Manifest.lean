import Mathlib.Data.List.Forall2
import Typings.Manifest
import Typings.Proofs.Files.Spelling

/-!
# `Manifest` — a memory that does not show

A search for a manifest climbs from a directory to the first one that has a manifest, and ends sooner at a
directory that is known.  What it found is then known for every directory on its way, also that there is
nothing to find.  So each directory is known with the manifest that is nearest to it, whatever searches were
made before, and an answer out of memory is the answer that a search without memory gives, but for its
spelling.

* `Nearest`: the manifest of the nearest directory at or above a place, or that there is none.
* `Placed`: the spelling of a directory does not matter; `placed_memory`, `placed_disk`.
* `uncached`: the search without memory; `nearest_uncached`, `Nearest.unique`.
* `nearest_here`, `Nearest.of_climb?`, `nearest_top`: one step of a search.
* `Sound`: all that is known is nearest; `search_nearest`, `find_nearest`: a search finds this and keeps it so.
* `answers_transparent`: any row of searches, also with the memory wiped between them.
-/

namespace Typings.ManifestCache

variable {isThere : Path → Bool} {start dir up d : Path} {found : Option Path} {c : ManifestCache}

/-- Where the manifest of a directory is. -/
def manifestIn (dir : Path) : Path := dir.join ⟨Manifest.fileName⟩

/-- The manifest of a directory is there or not, however the directory is spelled. -/
def Placed (isThere : Path → Bool) : Prop :=
  ∀ a b : Path, a.same b = true → isThere (manifestIn a) = isThere (manifestIn b)

/-- The directory is the place itself or is above it. -/
def AtOrAbove (dir start : Path) : Prop := dir.same start = true ∨ dir.Above start

/-- What is found is the manifest of the nearest directory that has one, or nothing if none has one. -/
def Nearest (isThere : Path → Bool) (start : Path) : Option Path → Prop
  | some m => ∃ dir, AtOrAbove dir start ∧ isThere (manifestIn dir) = true ∧
      m.same (manifestIn dir) = true ∧ ∀ d, AtOrAbove d start → dir.Above d → isThere (manifestIn d) = false
  | none => ∀ d, AtOrAbove d start → isThere (manifestIn d) = false

/-- The directories on the way up, from a directory on; the empty path is none above another. -/
def wayUp (start : Path) : List Path := start :: start.ancestors.tail.filter fun d => !d.text.isEmpty

/-- The search without memory: the manifest of the first directory on the way up that has one. -/
def uncached (isThere : Path → Bool) (start : Path) : Option Path :=
  ((wayUp start).find? fun d => isThere (manifestIn d)).map manifestIn

/-! ## Places -/

/-- The manifest of a directory is the file of that name right in it. -/
theorem components_manifestIn (dir : Path) :
    (manifestIn dir).components = dir.components ++ [.name Manifest.fileName] :=
  Path.components_join_name dir ⟨by decide, by decide, by decide, by decide⟩

/-- Whether a file stands in a store does not depend on how its path is spelled. -/
theorem placed_memory (m : Files.Memory) : Placed m.isThere := by
  intro a b h
  refine Files.Memory.isThere_congr (Path.same_iff.mpr ?_) m
  rw [components_manifestIn, components_manifestIn, Path.same_iff.mp h]

theorem placed_disk (d : Files.Disk) : Placed d.isThere :=
  fun _ _ h => d.isThere_join_congr h ⟨by decide, by decide, by decide, by decide⟩

theorem AtOrAbove.begins (h : AtOrAbove dir start) : dir.components <+: start.components := by
  rcases h with h | h
  · exact Path.same_iff.mp h ▸ List.prefix_rfl
  · exact h.2.1

/-- Nothing is above what is at or above it. -/
theorem AtOrAbove.not_above (h : AtOrAbove d dir) : ¬ dir.Above d := by
  rintro ⟨-, hpre, hne⟩
  exact hne (hpre.eq_of_length_le h.begins.length_le)

/-- What is above a directory does not depend on how it is spelled. -/
theorem AtOrAbove.congr {a b : Path} (h : a.same b = true) : AtOrAbove d a ↔ AtOrAbove d b := by
  rw [AtOrAbove, AtOrAbove, Path.above_congr h, Path.same_comm d a, Path.same_comm d b, Path.same_congr h]

/-- Of two directories on one way one is above the other, or they are the same. -/
theorem AtOrAbove.trichotomy {a b : Path} (ha : AtOrAbove a start) (hb : AtOrAbove b start) :
    a.same b = true ∨ a.Above b ∨ b.Above a := by
  have hlower {a b : Path} (ha : AtOrAbove a start) (hb : AtOrAbove b start)
      (hpre : a.components <+: b.components) : a.same b = true ∨ a.Above b := by
    rw [Path.same_iff]
    by_cases heq : a.components = b.components
    · exact .inl heq
    · refine .inr ⟨fun hnil => ?_, hpre, heq⟩
      -- The empty path is above nothing, so it is the start and there is nothing else.
      rcases ha with hs | hs
      · have hle := hb.begins.length_le
        rw [← Path.same_iff.mp hs, hnil] at hle
        exact heq (hnil.trans (List.length_eq_zero_iff.mp (Nat.le_zero.mp hle)).symm)
      · exact hs.1 hnil
  rcases List.prefix_or_prefix_of_prefix ha.begins hb.begins with hpre | hpre
  · exact (hlower ha hb hpre).imp_right .inl
  · rcases hlower hb ha hpre with h | h
    · exact .inl ((Path.same_comm a b).trans h)
    · exact .inr (.inr h)

/-- The next directory up is the parent, which is not the empty path. -/
theorem parent?_of_climb? (h : climb? dir = some up) : dir.parent? = some up ∧ up.components ≠ [] := by
  obtain ⟨hparent, hne⟩ := Option.filter_eq_some_iff.mp h
  refine ⟨hparent, fun hnil => ?_⟩
  rw [Path.text_eq_nil_iff.mpr hnil] at hne
  exact absurd hne (by decide)

/-- A climb goes one component up. -/
theorem length_of_climb? (h : climb? dir = some up) :
    dir.components.length = up.components.length + 1 := by
  obtain ⟨last, -, hlast⟩ := Path.components_of_parent? (parent?_of_climb? h).1
  rw [hlast, List.length_append, List.length_singleton]

/-- What is at or above a directory is the directory, or at or above the next one. -/
theorem atOrAbove_of_climb? (h : climb? dir = some up) :
    AtOrAbove d dir ↔ d.same dir = true ∨ AtOrAbove d up := by
  obtain ⟨hparent, hup⟩ := parent?_of_climb? h
  unfold AtOrAbove
  rw [Path.above_iff_of_parent? hparent, Path.same_comm up d]
  refine or_congr_right ⟨fun h => h.2, fun h => ⟨?_, h⟩⟩
  rcases h with hs | ha
  · rwa [Path.same_iff.mp hs]
  · exact ha.1

/-- Where the climb ends, nothing is above but the directory itself. -/
theorem atOrAbove_of_top (h : climb? dir = none) : AtOrAbove d dir ↔ d.same dir = true := by
  refine or_iff_left fun habove => ?_
  cases hparent : dir.parent? with
  | none => exact Path.not_above_of_parent? hparent d habove
  | some up =>
      obtain ⟨hne, hup⟩ := (Path.above_iff_of_parent? hparent d).mp habove
      have hempty : up.components = [] := by
        rw [climb?, hparent] at h
        exact Path.text_eq_nil_iff.mp (by simpa using h)
      rcases hup with hs | ha
      · exact hne ((Path.same_iff.mp hs).symm.trans hempty)
      · exact ha.1 (List.prefix_nil.mp (hempty ▸ ha.2.1))

/-! ## The nearest manifest -/

/-- The nearest manifest does not depend on how the start is spelled. -/
theorem Nearest.congr {a b : Path} (hs : a.same b = true) (h : Nearest isThere a found) :
    Nearest isThere b found := by
  cases found with
  | none => exact fun d hd => h d ((AtOrAbove.congr hs).mpr hd)
  | some m =>
      obtain ⟨near, hnear, hthere, hm, hmin⟩ := h
      exact ⟨near, (AtOrAbove.congr hs).mp hnear, hthere, hm,
        fun d hd => hmin d ((AtOrAbove.congr hs).mpr hd)⟩

/-- There is one nearest manifest, but for its spelling. -/
theorem Nearest.unique {other : Option Path} (h : Nearest isThere start found)
    (h' : Nearest isThere start other) : found.map (·.components) = other.map (·.components) := by
  cases found with
  | none =>
      cases other with
      | none => rfl
      | some m =>
          obtain ⟨near, hnear, hthere, -⟩ := h'
          exact absurd (hthere.symm.trans (h near hnear)) (by decide)
  | some m =>
      obtain ⟨near, hnear, hthere, hm, hmin⟩ := h
      cases other with
      | none => exact absurd (hthere.symm.trans (h' near hnear)) (by decide)
      | some m' =>
          obtain ⟨near', hnear', hthere', hm', hmin'⟩ := h'
          rcases hnear.trichotomy hnear' with hs | ha | ha
          · rw [Option.map_some, Option.map_some, Path.same_iff.mp hm, Path.same_iff.mp hm',
              components_manifestIn, components_manifestIn, Path.same_iff.mp hs]
          · exact absurd (hthere'.symm.trans (hmin near' hnear' ha)) (by decide)
          · exact absurd (hthere.symm.trans (hmin' near hnear ha)) (by decide)

/-! ## One step of a search -/

/-- A manifest in the directory itself is the nearest. -/
theorem nearest_here (h : isThere (manifestIn dir) = true) : Nearest isThere dir (some (manifestIn dir)) :=
  ⟨dir, .inl (Path.same_self dir), h, Path.same_self _, fun _ hd habove => absurd habove hd.not_above⟩

section

variable (hplaced : Placed isThere)

include hplaced

/-- Without one in the directory itself, the nearest is that of the directory above. -/
theorem Nearest.of_climb? (hup : climb? dir = some up) (hnot : isThere (manifestIn dir) = false)
    (h : Nearest isThere up found) : Nearest isThere dir found := by
  have hmissing {d : Path} (hd : AtOrAbove d dir) (hrest : AtOrAbove d up → isThere (manifestIn d) = false) :
      isThere (manifestIn d) = false := by
    rcases (atOrAbove_of_climb? hup).mp hd with hs | hd
    · rw [hplaced d dir hs, hnot]
    · exact hrest hd
  cases found with
  | none => exact fun d hd => hmissing hd (h d)
  | some m =>
      obtain ⟨near, hnear, hthere, hm, hmin⟩ := h
      exact ⟨near, (atOrAbove_of_climb? hup).mpr (.inr hnear), hthere, hm,
        fun d hd ha => hmissing hd fun hd => hmin d hd ha⟩

/-- At the top without a manifest there is none. -/
theorem nearest_top (htop : climb? dir = none) (hnot : isThere (manifestIn dir) = false) :
    Nearest isThere dir none := by
  intro d hd
  rw [hplaced d dir ((atOrAbove_of_top htop).mp hd), hnot]

end

/-! ## Without memory -/

/-- The way up goes on at the next directory. -/
theorem wayUp_eq (dir : Path) :
    wayUp dir = dir :: match climb? dir with
      | some up => wayUp up
      | none => [] := by
  rw [wayUp, Path.ancestors_eq, List.tail_cons, climb?]
  cases hparent : dir.parent? with
  | none => rfl
  | some up =>
      refine congrArg (dir :: ·) ?_
      dsimp only
      rw [Option.filter_some, Path.ancestors_eq up]
      by_cases hempty : up.text = []
      · -- Nothing is above the empty path.
        have htop : up.parent? = none := Path.parent?_eq_none_iff.mpr (.inl (Path.text_eq_nil_iff.mp hempty))
        simp [htop, hempty]
      · have hspelled : (!up.text.isEmpty) = true := by simpa using hempty
        rw [if_pos hspelled, List.filter_cons, if_pos hspelled]
        dsimp only
        rw [wayUp, Path.ancestors_eq up, List.tail_cons]

theorem uncached_eq (isThere : Path → Bool) (dir : Path) :
    uncached isThere dir = if isThere (manifestIn dir) then some (manifestIn dir)
      else match climb? dir with
        | some up => uncached isThere up
        | none => none := by
  unfold uncached
  rw [wayUp_eq, List.find?_cons]
  cases isThere (manifestIn dir) with
  | true => rfl
  | false => cases climb? dir <;> rfl

/-- The search without a cache finds the nearest manifest. -/
theorem nearest_uncached (hplaced : Placed isThere) (start : Path) :
    Nearest isThere start (uncached isThere start) := by
  induction hlength : start.components.length using Nat.strongRecOn generalizing start with
  | _ n ih =>
      rw [uncached_eq]
      split
      · next hthere => exact nearest_here hthere
      · next hthere =>
          have hnot : isThere (manifestIn start) = false := by simpa using hthere
          cases hup : climb? start with
          | none => exact nearest_top hplaced hup hnot
          | some up =>
              exact (ih _ (hlength ▸ length_of_climb? hup ▸ Nat.lt_succ_self _) up rfl).of_climb? hplaced hup hnot

/-! ## With memory -/

/-- All that is known is what is nearest. -/
def Sound (isThere : Path → Bool) (c : ManifestCache) : Prop :=
  ∀ d found, c.found.get? d = some found → Nearest isThere d found

theorem sound_empty : Sound isThere {} := fun _ _ h => nomatch h

/-- A search finds the nearest manifest, for all directories that it comes through. -/
theorem search_nearest (hplaced : Placed isThere) (hc : c.Sound isThere) {fuel : Nat}
    (hpos : 0 < fuel) (h : dir.components.length ≤ fuel) :
    Nearest isThere dir (c.search isThere fuel dir).1 ∧
      ∀ d ∈ (c.search isThere fuel dir).2, Nearest isThere d (c.search isThere fuel dir).1 := by
  induction fuel generalizing dir with
  | zero => exact absurd hpos (Nat.lt_irrefl 0)
  | succ fuel ih =>
      rw [search]
      cases hget : c.found.get? dir with
      | some known => exact ⟨hc dir known hget, fun d hd => absurd hd List.not_mem_nil⟩
      | none =>
          have halone {found : Option Path} (hnear : Nearest isThere dir found) :
              Nearest isThere dir found ∧ ∀ d ∈ [dir], Nearest isThere d found :=
            ⟨hnear, fun d hd => List.mem_singleton.mp hd ▸ hnear⟩
          dsimp only
          split
          · next hthere => exact halone (nearest_here hthere)
          · next hthere =>
              have hnot : isThere (manifestIn dir) = false := by simpa [manifestIn] using hthere
              cases hup : climb? dir with
              | none => exact halone (nearest_top hplaced hup hnot)
              | some up =>
                  have hpos := List.length_pos_iff.mpr (parent?_of_climb? hup).2
                  rw [length_of_climb? hup] at h
                  have hfuel : up.components.length ≤ fuel := by omega
                  obtain ⟨hnear, hvisited⟩ := ih (by omega) hfuel
                  have hdir := hnear.of_climb? hplaced hup hnot
                  refine ⟨hdir, fun d hd => ?_⟩
                  rcases List.mem_cons.mp hd with rfl | hd
                  · exact hdir
                  · exact hvisited d hd

/-- What a search has found may be known. -/
theorem Sound.insert (hc : c.Sound isThere) (h : Nearest isThere dir found) :
    Sound isThere ⟨c.found.insert dir found⟩ := by
  intro d known hget
  rw [PathMap.get?_insert] at hget
  split at hget
  · next hs => exact Option.some.inj hget ▸ h.congr hs
  · exact hc d known hget

/-- One search through the cache finds the nearest manifest and keeps the cache sound. -/
theorem find_nearest (hplaced : Placed isThere) (hc : c.Sound isThere) (start : Path) :
    Nearest isThere start (c.find isThere start).1 ∧ (c.find isThere start).2.Sound isThere := by
  obtain ⟨hnear, hvisited⟩ :=
    search_nearest hplaced hc (Nat.succ_pos start.text.length) (Path.length_components_le start)
  refine ⟨hnear, ?_⟩
  exact List.foldlRecOn (motive := fun m => Sound isThere ⟨m⟩) _ _ hc
    fun m hm d hd => Sound.insert hm (hvisited d hd)

/-! ## Rows of searches -/

/-- What is asked of a memory: a search, or to forget everything. -/
inductive Call where
  | find (start : Path)
  | clear
deriving DecidableEq, Repr

/-- Where the searches of some calls start. -/
def starts : List Call → List Path
  | [] => []
  | .find start :: calls => start :: starts calls
  | .clear :: calls => starts calls

/-- The answers to the searches of some calls, made one after the other. -/
def answers (isThere : Path → Bool) (c : ManifestCache) : List Call → List (Option Path)
  | [] => []
  | .find start :: calls =>
    let (found, c) := c.find isThere start
    found :: answers isThere c calls
  | .clear :: calls => answers isThere {} calls

/-- Any row of searches through a sound cache finds the nearest manifests. -/
theorem Sound.answers (hplaced : Placed isThere) (hc : c.Sound isThere) (calls : List Call) :
    List.Forall₂ (Nearest isThere) (starts calls) (answers isThere c calls) := by
  induction calls generalizing c with
  | nil => exact .nil
  | cons call calls ih =>
      cases call with
      | find start =>
          obtain ⟨hnear, hkept⟩ := find_nearest hplaced hc start
          exact .cons hnear (ih hkept)
      | clear => exact ih sound_empty

/-- Every search of the calls finds the nearest manifest or that there is none, which is what a search
    without memory finds, but for its spelling. -/
def Transparent (isThere : Path → Bool) (calls : List Call) : Prop :=
  List.Forall₂ (fun start found => Nearest isThere start found ∧
      found.map (·.components) = (uncached isThere start).map (·.components))
    (starts calls) (answers isThere {} calls)

/-- **The memory does not show.** While the files stay as they are, every search finds the manifest of the
    nearest directory at or above its start, or nothing if there is none: what a search without memory
    finds, but for its spelling.  This is so of all searches from any starts in any order, however often
    the memory is wiped between them. -/
theorem answers_transparent (hplaced : Placed isThere) (calls : List Call) : Transparent isThere calls :=
  (sound_empty.answers hplaced calls).imp fun start _ h =>
    ⟨h, h.unique (nearest_uncached hplaced start)⟩

/-- A package in another one, with a directory beside it. -/
def nestedPackages : List (Path × Text) :=
  [("/repo/package.json", "\x7b\x7d"), ("/repo/lib/package.json", "\x7b\x7d"), ("/repo/app/src/main.ts", [])]

/-- Searches that meet one another from above and below, on both sides of a wipe. -/
def nestedCalls : List Call :=
  [.find "/repo//", .find "/repo/app/src", .find "/repo/lib/src", .find "/repo", .find "app", .clear,
    .find "/repo/app", .find "/"]

theorem answers_transparent_nestedPackages :
    let memory := Files.Memory.ofFiles nestedPackages
    let disk := Files.Disk.seed {} [] nestedPackages
    (Placed memory.isThere ∧ Transparent memory.isThere nestedCalls) ∧
      Placed disk.isThere ∧ Transparent disk.isThere nestedCalls :=
  ⟨⟨placed_memory _, answers_transparent (placed_memory _) nestedCalls⟩,
    placed_disk _, answers_transparent (placed_disk _) nestedCalls⟩

/-- What is known of one spelling is the answer for another. -/
example : answers (Files.Memory.ofFiles nestedPackages).isThere {} nestedCalls =
    ([some "/repo//package.json", some "/repo//package.json", some "/repo/lib/package.json",
      some "/repo//package.json", none, some "/repo/package.json", none] : List (Option Path)) := by
  decide +kernel

end Typings.ManifestCache
