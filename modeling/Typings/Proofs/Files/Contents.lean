import Typings.Files.Memory
import Typings.Proofs.Output.Journal

/-!
# `Contents` — stores by what can be read from them

A store is looked at place by place: the text of the file there, if there is one.  In a lawful store the
operations do to these texts what their names say, and directories do not show.

* `FileStore.text?`, `FileStore.Lawful`: the text at a place, and the laws; `Memory.lawful_store`.
* `Lawful.prune`: clearing directories leaves all texts as they are.
* `Lawful.removeAll`: files that are removed by independent tasks.

The laws speak of the operations that succeed; what one that fails leaves is not known, so only an
operation on directories has a law for every end.  What is shown from the laws holds in memory as well
as of any other store that has them.
-/

namespace Typings.Files

variable {σ τ α : Type}

namespace FileStore

/-- The text of the file at a place, if there is one. -/
def text? (s : FileStore σ) (w : σ) (p : Path) : Option Text := (s.read w p).toOption

/-- Files are known by their places; an operation that succeeds does what it is for, and nothing that is
    done to directories shows. -/
structure Lawful (s : FileStore σ) : Prop where
  place : ∀ {w p q}, p.same q = true → s.text? w p = s.text? w q
  write : ∀ {p t w w'}, outcome (s.write p t w) = (.ok (), w') →
    ∀ q, s.text? w' q = if p.same q then some t else s.text? w q
  remove : ∀ {p w w'}, outcome (s.remove p w) = (.ok (), w') →
    ∀ q, s.text? w' q = if p.same q then none else s.text? w q
  createDirs : ∀ p w q, s.text? (outcome (s.createDirs p w)).2 q = s.text? w q
  removeDir : ∀ p w q, s.text? (outcome (s.removeDir p w)).2 q = s.text? w q

theorem outcome_files (op : StoreM σ α) (b : Workbench σ) :
    outcome (WorkM.files op b)
      = ((outcome (op b.world)).1.mapError .files, { b with world := (outcome (op b.world)).2 }) := by
  rw [WorkM.files]
  cases op b.world <;> rfl

namespace Lawful

variable {s : FileStore σ} (h : s.Lawful)

include h

/-- Clearing directories leaves all texts as they are. -/
theorem prune (dir : Path) (w : σ) (q : Path) :
    s.text? (outcome (s.prune dir w)).2 q = s.text? w q := by
  have hdir (p : Path) : Adds.Nothing (fun w => (s.text? w q).toList) (s.removeDir p) := by
    intro w'
    exact congrArg Option.toList (h.removeDir p w' q)
  simpa using congrArg List.head? (nothing_prune hdir dir w)

theorem files_remove {p : Path} {b b' : Workbench σ}
    (hrun : outcome (WorkM.files (s.remove p) b) = (.ok (), b')) (q : Path) :
    s.text? b'.world q = if p.same q then none else s.text? b.world q := by
  rw [outcome_files] at hrun
  obtain ⟨hdone, rfl⟩ := Prod.mk.inj hrun
  cases hend : (outcome (s.remove p b.world)).1 with
  | ok _ => exact h.remove (Prod.ext hend rfl) q
  | error e =>
      rw [hend] at hdone
      exact nomatch hdone

/-- Files that are removed by independent tasks, all of which succeed. -/
theorem removeAll {ps : List Path} {b b' : Workbench σ} {done : List Unit}
    (hrun : outcome (WorkM.runAll (fun p => WorkM.files (s.remove p)) ps b) = (.ok done, b')) (q : Path) :
    s.text? b'.world q = if ps.any (·.same q) then none else s.text? b.world q := by
  induction ps generalizing b done with
  | nil =>
      obtain ⟨-, rfl⟩ := Prod.mk.inj hrun
      rfl
  | cons p ps ih =>
      rw [Adds.outcome_runAll_cons] at hrun
      cases hfirst : outcome (WorkM.files (s.remove p) b) with
      | mk r b₁ =>
          rw [hfirst] at hrun
          dsimp only at hrun
          cases hrest : outcome (WorkM.runAll (fun p => WorkM.files (s.remove p)) ps b₁) with
          | mk rs b₂ =>
              rw [hrest] at hrun
              obtain ⟨hok, rfl⟩ := Prod.mk.inj hrun
              cases r with
              | error e => exact nomatch hok
              | ok _ =>
                  cases rs with
                  | error e => exact nomatch hok
                  | ok _ =>
                      rw [ih hrest, h.files_remove hfirst, List.any_cons]
                      cases p.same q <;> simp

end Lawful

theorem outcome_inFirst (op : StoreM σ α) (w : σ × τ) :
    outcome (zoom.inFirst op w) = ((outcome (op w.1)).1, ((outcome (op w.1)).2, w.2)) := by
  obtain ⟨w, t⟩ := w
  rw [zoom.inFirst]
  cases op w <;> rfl

/-- A lawful store is lawful inside of a larger state. -/
theorem Lawful.zoom {s : FileStore σ} (h : s.Lawful) : (s.zoom : FileStore (σ × τ)).Lawful where
  place hpq := h.place hpq
  write {p t w w'} hrun q := by
    rw [show (s.zoom : FileStore (σ × τ)).write p t = zoom.inFirst (s.write p t) from rfl,
      outcome_inFirst] at hrun
    obtain ⟨hok, rfl⟩ := Prod.mk.inj hrun
    exact h.write (Prod.ext hok rfl) q
  remove {p w w'} hrun q := by
    rw [show (s.zoom : FileStore (σ × τ)).remove p = zoom.inFirst (s.remove p) from rfl,
      outcome_inFirst] at hrun
    obtain ⟨hok, rfl⟩ := Prod.mk.inj hrun
    exact h.remove (Prod.ext hok rfl) q
  createDirs p w q := by
    rw [show (s.zoom : FileStore (σ × τ)).createDirs p = zoom.inFirst (s.createDirs p) from rfl,
      outcome_inFirst]
    exact h.createDirs p w.1 q
  removeDir p w q := by
    rw [show (s.zoom : FileStore (σ × τ)).removeDir p = zoom.inFirst (s.removeDir p) from rfl,
      outcome_inFirst]
    exact h.removeDir p w.1 q

end FileStore

/-! ## Files in memory -/

namespace Memory

theorem text?_store (m : Memory) (p : Path) : store.text? m p = m.files.get? p := by
  show (m.read p).toOption = _
  rw [read]
  cases m.files.get? p <;> rfl

/-- Files in memory are a lawful store. -/
theorem lawful_store : store.Lawful where
  place hpq := by
    rw [text?_store, text?_store]
    exact PathMap.get?_congr hpq _
  write {p t m m'} hrun q := by
    obtain ⟨-, rfl⟩ := Prod.mk.inj hrun
    rw [text?_store, text?_store]
    exact PathMap.get?_insert _ _ _ _
  remove {p m m'} hrun q := by
    have hupdate : outcome (update (fun m => m.removeFile p) m) = (.ok (), m') := hrun
    rw [update, removeFile] at hupdate
    by_cases hp : m.files.contains p = true
    · rw [if_pos hp] at hupdate
      obtain ⟨-, rfl⟩ := Prod.mk.inj hupdate
      rw [text?_store, text?_store]
      exact PathMap.get?_erase _ _ _
    · rw [if_neg hp] at hupdate
      exact nomatch hupdate
  createDirs p m q := by
    rw [text?_store, text?_store]
    rfl
  removeDir p m q := by
    show store.text? (outcome (update (fun m => m.removeDir p) m)).2 q = _
    rw [update, removeDir, text?_store, text?_store]
    by_cases ho : m.isOccupied p = true
    · rw [if_pos ho]
      rfl
    · rw [if_neg ho]
      by_cases hd : m.dirs.contains p = true
      · rw [if_pos hd]
        rfl
      · rw [if_neg hd]
        rfl

end Memory

end Typings.Files
