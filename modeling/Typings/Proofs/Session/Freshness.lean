import Typings.Proofs.Session.FlushActs

/-!
# `Freshness` — what the rollup starts from

The tool that rolls up puts its result where it may find its entry the next time.  An entry is fresh if
it was written in the same flush, or if there is nothing of the build's own at its place.  Recorded
outputs are written in every flush, so an entry that is one of them is fresh in each; a root file is
written only where there is no file yet, so an entry that is a root file is fresh only until it has been
rolled up (`entry_fresh`, `second_rollUp_stale`).

* `lastAct?`: the last entry of a journal that changes what is at a place.
* `Fresh`: whether what is rolled up was written in the same flush, or is nothing of the build's own.
* `Host.entry_fresh`: when it is.
-/

namespace Typings

variable {σ π : Type} {journal : σ → List FileAct}

/-! ## The last entry about a place -/

namespace FileAct

/-- The entry tells that something has changed at the place. -/
def touches (p : Path) : FileAct → Bool
  | .write f done => done && f.path.same p
  | .remove q done => done && q.same p
  | .rollUp _ result => result.same p

/-- The entry tells a write. -/
def isWrite : FileAct → Bool
  | .write _ _ => true
  | _ => false

/-- The entry tells a removal. -/
def isRemoval : FileAct → Bool
  | .remove _ _ => true
  | _ => false

end FileAct

/-- The last entry that changes what is at a place. -/
def lastAct? (p : Path) (l : List FileAct) : Option FileAct := l.reverse.find? (·.touches p)

theorem lastAct?_append (p : Path) (l l' : List FileAct) :
    lastAct? p (l ++ l') = (lastAct? p l').or (lastAct? p l) := by
  rw [lastAct?, List.reverse_append, List.find?_append]
  rfl

theorem lastAct?_eq_none_iff {p : Path} {l : List FileAct} :
    lastAct? p l = none ↔ ∀ a ∈ l, a.touches p = false := by
  simp [lastAct?]

theorem mem_of_lastAct? {p : Path} {l : List FileAct} {a : FileAct} (h : lastAct? p l = some a) :
    a ∈ l := List.mem_reverse.mp (List.mem_of_find?_eq_some h)

/-- The place was written last, by entries of these. -/
def Rewritten (l : List FileAct) (p : Path) : Prop := (lastAct? p l).any (·.isWrite) = true

/-- There is nothing of the build's own at the place: it was not touched, or removed last. -/
def Foreign (l : List FileAct) (p : Path) : Prop := (lastAct? p l).all (·.isRemoval) = true

/-- After `before` and what the present flush has done so far, what is at the place was written in this
    flush or is not the build's own. -/
def Fresh (before during : List FileAct) (p : Path) : Prop :=
  Rewritten during p ∨ Foreign (before ++ during) p

instance (l : List FileAct) (p : Path) : Decidable (Foreign l p) := inferInstanceAs (Decidable (_ = true))

instance (before during : List FileAct) (p : Path) : Decidable (Fresh before during p) :=
  inferInstanceAs (Decidable (_ = true ∨ _ = true))

/-- Among writes alone, what touches a place rewrites it. -/
theorem rewritten_of_writes {l : List FileAct} {p : Path} (hl : ∀ a ∈ l, a.isWrite = true)
    {a : FileAct} (ha : a ∈ l) (ht : a.touches p = true) : Rewritten l p := by
  rw [Rewritten]
  cases hlast : lastAct? p l with
  | none =>
      rw [lastAct?_eq_none_iff.mp hlast a ha] at ht
      exact absurd ht Bool.false_ne_true
  | some b => exact hl b (mem_of_lastAct? hlast)

/-- After writes alone, what was foreign is fresh. -/
theorem fresh_of_writes {before during : List FileAct} {p : Path}
    (hl : ∀ a ∈ during, a.isWrite = true) (hf : Foreign before p) : Fresh before during p := by
  cases hlast : lastAct? p during with
  | none =>
      refine .inr ?_
      rw [Foreign, lastAct?_append, hlast]
      exact hf
  | some a =>
      refine .inl ?_
      rw [Rewritten, hlast]
      exact hl a (mem_of_lastAct? hlast)

/-- Entries that do not touch the place make no difference. -/
theorem Fresh.append {before during l : List FileAct} {p : Path} (h : Fresh before during p)
    (hl : ∀ a ∈ l, a.touches p = false) : Fresh before (during ++ l) p := by
  have hnone := lastAct?_eq_none_iff.mpr hl
  rw [Fresh, Rewritten, Foreign, ← List.append_assoc, lastAct?_append, hnone,
    lastAct?_append p (before ++ during), hnone]
  exact h

/-! ## Entries that are rolled up -/

/-- An element with a property that only the middle of a list has stands in the middle. -/
theorem split_middle {α : Type} {P : α → Prop} {front middle back during after : List α} {x : α}
    (hx : P x) (hfront : ∀ y ∈ front, ¬ P y) (hmiddle : ∀ y ∈ middle, P y) (hback : ∀ y ∈ back, ¬ P y)
    (hsplit : front ++ (middle ++ back) = during ++ x :: after) :
    ∃ l, during = front ++ l ∧ (∀ y ∈ l, P y) ∧ middle ≠ [] := by
  -- It is not in front, so the front is passed.
  obtain ⟨l, rfl, h⟩ : ∃ l, during = front ++ l ∧ middle ++ back = l ++ x :: after := by
    rcases List.append_eq_append_iff.mp hsplit with ⟨l, hl, hr⟩ | ⟨l, hl, hr⟩
    · exact ⟨l, hl, hr⟩
    · cases l with
      | nil => exact ⟨[], by simpa using hl.symm, hr.symm⟩
      | cons y l =>
          obtain ⟨rfl, -⟩ := List.cons.inj hr
          exact absurd hx (hfront x (by simp [hl]))
  -- Nor is it in the back, so what is passed behind the front is in the middle.
  refine ⟨l, rfl, ?_⟩
  rcases List.append_eq_append_iff.mp h with ⟨m, -, hr⟩ | ⟨m, hl, hr⟩
  · exact absurd hx (hback x (by simp [hr]))
  · cases m with
    | nil => exact absurd hx (hback x (by simp [← show x :: after = back from hr]))
    | cons y m =>
        refine ⟨fun z hz => hmiddle z (by simp [hl, hz]), ?_⟩
        rw [hl]
        simp

namespace Host

variable {h : Host σ π}

/-- A rollup in the entries of a flush comes after all that is written but for the copies, and after
    other rollups. -/
theorem FlushActs.split {outputs : List OutputFile} {a : Acts} (ha : h.FlushActs outputs a)
    {x : FileAct} (hx : x.IsRollUp) {during after : List FileAct} (hall : a.all = during ++ x :: after) :
    ∃ rolled, during = a.primary ++ rolled ∧ (∀ y ∈ rolled, y.IsRollUp) ∧ a.rolled ≠ [] := by
  have hsplit : a.primary ++ (a.rolled ++ (a.removed ++ a.copies)) = during ++ x :: after := by
    rw [← hall, Acts.all, List.append_assoc, List.append_assoc]
  refine split_middle hx ?_ ha.rolled ?_ hsplit
  · rintro y hy ⟨entry, result, rfl⟩
    obtain ⟨f, done, heq, -⟩ := ha.primary _ hy
    cases heq
  · rintro y hy ⟨entry, result, rfl⟩
    rcases List.mem_append.mp hy with hy | hy
    · obtain ⟨p, t, done, heq, -⟩ := ha.removed _ hy
      cases heq
    · have hwrite : ∀ y ∈ a.copies, ∃ f done, y = .write f done :=
        ha.copies.forall_mem fun dir l hl y hy => by
          obtain ⟨f, done, heq, -⟩ := hl.1 y hy
          exact ⟨f, done, heq⟩
      obtain ⟨f, done, heq⟩ := hwrite _ hy
      cases heq

/-- **An entry is fresh when it is rolled up**, if it is one of the recorded outputs of the flush, or if
    there was nothing of the build's own at its place before; unless an earlier rollup of the same flush
    has put its result there. -/
theorem entry_fresh (hj : h.Journaled journal) (s : Session σ π) {during after : List FileAct}
    {entry result : Path}
    (hflush : journal (outcome (h.writeBundle s)).2.bench.world
      = journal s.bench.world ++ (during ++ .rollUp entry result :: after))
    (hfirst : ∀ e r, .rollUp e r ∈ during → r.same entry = false)
    (hown : (∃ f ∈ h.flushFiles s, f.path.same entry = true) ∨
      Foreign (journal s.bench.world) entry) :
    Fresh (journal s.bench.world) during entry := by
  obtain ⟨a, hl, ha⟩ := (h.flushes s).acts hj
  have hall := List.append_cancel_left (hl.symm.trans hflush)
  obtain ⟨rolled, rfl, hrolled, hne⟩ := ha.split ⟨entry, result, rfl⟩ hall
  have hwrites : ∀ x ∈ a.primary, x.isWrite = true := by
    intro x hx
    obtain ⟨f, done, rfl, -⟩ := ha.primary x hx
    rfl
  refine Fresh.append ?_ fun x hx => ?_
  · rcases hown with ⟨f, hf, hsame⟩ | hforeign
    · refine .inl (rewritten_of_writes hwrites (ha.outputs hne f hf) ?_)
      exact hsame
    · exact fresh_of_writes hwrites hforeign
  · obtain ⟨e, r, rfl⟩ := hrolled x hx
    exact hfirst e r (List.mem_append_right _ hx)

end Host

/-! ## A root file that is rolled up twice -/

/-- One entry, whose root file is rolled up. -/
def oneEntry : Host ScriptedWorld DryRun.TableProgram :=
  scriptedHost
    { BuildOptions.ofRoot "/p" with
      library := some { name := "n", entries := [⟨"main", "/p/src/main.ts"⟩] }
      rollupTypes := true }
    {}

theorem journaled_oneEntry : oneEntry.Journaled Prod.snd := journaled_scriptedHost _ _

/-- The session before its first flush. -/
def oneEntryStarted : Session ScriptedWorld DryRun.TableProgram :=
  (outcome (oneEntry.start (.create (({}, []), [])
    { currentDir := "/p/src"
      sources := [⟨"/p/src/main.ts", "main"⟩]
      emits := [("/p/src/main.ts", ⟨"main.d.ts", "main"⟩)] }))).2

/-- The session between its first flush and its second. -/
def oneEntryChanged : Session ScriptedWorld DryRun.TableProgram :=
  (outcome (oneEntry.invalidate "/p/src/main.ts" (outcome (oneEntry.writeBundle oneEntryStarted)).2)).2

/-- The root file that is rolled up. -/
def rootFile : Path := "/p/dist/index.d.ts"

/-- The declaration of the entry is written, and the root file after it. -/
def firstWrites : List FileAct :=
  [.write ⟨"/p/dist/main.d.ts", "main"⟩ true, .write ⟨rootFile, "export * from './main'\n"⟩ true]

theorem entry_fresh_first :
    (outcome (oneEntry.writeBundle oneEntryStarted)).2.bench.world.2
        = oneEntryStarted.bench.world.2 ++
          (firstWrites ++ .rollUp rootFile rootFile :: [.remove "/p/dist/main.d.ts" true]) ∧
      Fresh oneEntryStarted.bench.world.2 firstWrites rootFile := by
  have hflush : (outcome (oneEntry.writeBundle oneEntryStarted)).2.bench.world.2
      = oneEntryStarted.bench.world.2 ++
        (firstWrites ++ .rollUp rootFile rootFile :: [.remove "/p/dist/main.d.ts" true]) := by
    decide +kernel
  have hforeign : Foreign oneEntryStarted.bench.world.2 rootFile := by decide +kernel
  exact ⟨hflush, Host.entry_fresh journaled_oneEntry oneEntryStarted hflush
    (by simp [firstWrites]) (.inr hforeign)⟩

/-- In the second flush the root file is not written, since there is one: what is rolled up is the result
    of the first. -/
theorem second_rollUp_stale :
    (outcome (oneEntry.writeBundle oneEntryChanged)).2.bench.world.2
        = oneEntryChanged.bench.world.2 ++
          ([.write ⟨"/p/dist/main.d.ts", "main"⟩ true] ++
            .rollUp rootFile rootFile :: [.remove "/p/dist/main.d.ts" true]) ∧
      ¬ Fresh oneEntryChanged.bench.world.2 [.write ⟨"/p/dist/main.d.ts", "main"⟩ true] rootFile := by
  decide +kernel

end Typings
