import Typings.DryRun.Program
import Typings.Files.Memory
import Typings.Proofs.Session.Effects

/-!
# `History` — calls of a session and their replies

The owner of a session calls its steps in any order, and between two calls the program and the world
may change.  A `Run` lists the calls with their replies.  Whether a flush is skipped is a matter of the
replies alone: it is, once a flush has been begun and no change has been taken since.  A flush counts as
begun before it has written anything, so one that fails is not made up for by the next call
(`skips_iff`).

* `Call`, `Exchange`, `Host.Run`: calls, calls with their replies, and runs.
* `Exchange.flagAfter`, `flag_call`: what a call does to the flag of the session, by its reply.
* `FlushDone`, `FlushFailed`: the last flush that was not skipped, by its reply.
* `Tells`: what the replies so far tell of the flag.
* `Host.Run.skips_iff`: which flushes are skipped.
-/

namespace Typings

variable {σ π : Type}

/-- A call of the owner of a session. -/
inductive Call where
  | start
  | transform (path : Path) (code : Text)
  | transformSources
  | transformSource (path : Path)
  | invalidate (path : Path)
  | writeBundle
deriving DecidableEq, Repr

/-- What a call gives back when it succeeds. -/
abbrev Call.Answer : Call → Type
  | .start => Unit
  | .transform .. | .transformSource _ | .invalidate _ => Bool
  | .transformSources => Nat
  | .writeBundle => Option Report

/-- A call with what came back. -/
structure Exchange where
  call : Call
  reply : Except BuildError call.Answer

/-- The step that a call runs. -/
def Host.call (h : Host σ π) : (c : Call) → SessionM σ π c.Answer
  | .start => h.start
  | .transform path code => h.transform path code
  | .transformSources => h.transformSources
  | .transformSource path => h.transformSource path
  | .invalidate path => h.invalidate path
  | .writeBundle => h.writeBundle

/-- A call with what came back, from a session. -/
def Host.exchange (h : Host σ π) (c : Call) (s : Session σ π) : Exchange := ⟨c, (outcome (h.call c s)).1⟩

/-- The flag after an exchange. -/
def Exchange.flagAfter : Exchange → Option Bool → Option Bool
  | ⟨.start, reply⟩, flag => Host.startFlag reply flag
  | ⟨.invalidate _, .ok true⟩, flag => flag.map fun _ => false
  | ⟨.writeBundle, _⟩, flag => flag.map fun _ => true
  | _, flag => flag

/-- The reply of a flush fits the flag of the session: a flush is skipped if and only if one has been
    begun and no change has been taken since, and reports only if it is due. -/
def Exchange.Fits (flag : Option Bool) : Exchange → Prop
  | ⟨.writeBundle, .ok none⟩ => flag = some true
  | ⟨.writeBundle, .ok (some _)⟩ => flag = some false
  | ⟨.writeBundle, .error _⟩ => flag ≠ some true
  | _ => True

namespace Host

/-- A flush answers as the flag in front of it tells. -/
theorem Flushes.fits {h : Host σ π} {s s' : Session σ π} {r : Except BuildError (Option Report)}
    (hf : h.Flushes s r s') : Exchange.Fits s.flag ⟨.writeBundle, r⟩ := by
  cases hf with
  | notStarted hb =>
      show s.build.map _ ≠ some true
      rw [hb]
      exact nofun
  | skipped hb hf => exact (Session.flag_of_build hb).trans (congrArg some hf)
  | failed hb hf _ =>
      show s.flag ≠ some true
      rw [Session.flag_of_build hb, hf]
      exact nofun
  | @written b b' s' r bench hb hf _ _ =>
      have hflag : s.flag = some false := (Session.flag_of_build hb).trans (congrArg some hf)
      cases r with
      | ok report => exact hflag
      | error e =>
          show s.flag ≠ some true
          rw [hflag]
          exact nofun

/-- Every exchange answers as the flag in front of it tells. -/
theorem fits_exchange (h : Host σ π) (c : Call) (s : Session σ π) : (h.exchange c s).Fits s.flag := by
  cases c with
  | writeBundle => exact (h.flushes s).fits
  | _ => exact trivial

/-- **One call** moves the flag as its reply says. -/
theorem flag_call (h : Host σ π) (c : Call) (s : Session σ π) :
    (outcome (h.call c s)).2.flag = (h.exchange c s).flagAfter s.flag := by
  rw [exchange]
  cases c with
  | start => exact (h.start_spec s).2
  | transform path code => exact (h.quiet_transform path code).2
  | transformSources => exact h.quiet_transformSources.2
  | transformSource path => exact (h.quiet_transformSource path).2
  | invalidate path =>
      have hflag := h.flag_invalidate path s
      rw [call, hflag]
      match (outcome (h.invalidate path s)).1 with
      | .ok true => rfl
      | .ok false => rfl
      | .error _ => rfl
  | writeBundle => exact (h.flushes s).flag

/-- The runs from a session, with the calls and what came back.  Between two calls the program may be
    replaced, and the world may drift. -/
inductive Run (h : Host σ π) (drift : σ → σ → Prop) (s₀ : Session σ π) :
    List Exchange → Session σ π → Prop where
  | nil : Run h drift s₀ [] s₀
  | call {hist : List Exchange} {s : Session σ π} (hr : Run h drift s₀ hist s) (c : Call) :
      Run h drift s₀ (hist ++ [h.exchange c s]) (outcome (h.call c s)).2
  | drift {hist : List Exchange} {s : Session σ π} (hr : Run h drift s₀ hist s) {c : σ × π}
      (hd : drift s.bench.world c.1) : Run h drift s₀ hist (s.drifted c)

end Host

/-! ## The last of its kind -/

section

variable {α : Type} {P : List α → α → Prop} {Q : α → Prop}

/-- Some element is as `P` says, given those before it, and all that follow it are as `Q` says. -/
def LastOf (P : List α → α → Prop) (Q : α → Prop) (l : List α) : Prop :=
  ∃ before e after, l = before ++ e :: after ∧ P before e ∧ ∀ x ∈ after, Q x

theorem not_lastOf_nil : ¬ LastOf P Q [] := by
  rintro ⟨before, e, after, h, -⟩
  exact absurd h.symm (by simp)

/-- The last entry that counts is the new one, or that of the list before if the new one may follow it. -/
theorem lastOf_append {l : List α} {e : α} : LastOf P Q (l ++ [e]) ↔ P l e ∨ LastOf P Q l ∧ Q e := by
  constructor
  · rintro ⟨before, x, after, h, hx, hafter⟩
    -- The new element is the one that `P` speaks of, or it is the last of those behind it.
    obtain rfl | ⟨after', y, rfl⟩ := after.eq_nil_or_concat
    · obtain ⟨rfl, hy⟩ := List.append_inj' h rfl
      obtain rfl : e = x := by simpa using hy
      exact .inl hx
    · rw [List.concat_eq_append, ← List.cons_append, ← List.append_assoc] at h
      obtain ⟨rfl, hy⟩ := List.append_inj' h rfl
      obtain rfl : e = y := by simpa using hy
      refine .inr ⟨⟨before, x, after', rfl, hx, fun z hz => hafter z (by simp [hz])⟩, hafter e (by simp)⟩
  · rintro (hx | ⟨⟨before, x, after, rfl, hx, hafter⟩, he⟩)
    · exact ⟨l, e, [], rfl, hx, by simp⟩
    · refine ⟨before, x, after ++ [e], by simp, hx, fun z hz => ?_⟩
      rcases List.mem_append.mp hz with hz | hz
      · exact hafter z hz
      · rw [List.mem_singleton.mp hz]
        exact he

end

/-! ## The last flush that was not skipped -/

/-- Neither is a change taken nor a flush begun. -/
def Exchange.Idle : Exchange → Prop
  | ⟨.invalidate _, .ok true⟩ => False
  | ⟨.writeBundle, reply⟩ => reply = .ok none
  | _ => True

/-- The last exchange that is not idle is as `P` says, given those before it. -/
def LastActive (P : List Exchange → Exchange → Prop) (hist : List Exchange) : Prop :=
  ∃ before e after, hist = before ++ e :: after ∧ P before e ∧ ∀ x ∈ after, Exchange.Idle x

theorem lastActive_nil {P : List Exchange → Exchange → Prop} : ¬ LastActive P [] := not_lastOf_nil

theorem lastActive_append {P : List Exchange → Exchange → Prop} {hist : List Exchange} {e : Exchange} :
    LastActive P (hist ++ [e]) ↔ P hist e ∨ LastActive P hist ∧ e.Idle := lastOf_append

/-- The session has been started. -/
def Started (hist : List Exchange) : Prop := ⟨.start, .ok ()⟩ ∈ hist

/-- The last flush that was not skipped has given a report, and no change has been taken since. -/
def FlushDone (hist : List Exchange) : Prop :=
  LastActive (fun _ e => ∃ report, e = ⟨.writeBundle, .ok (some report)⟩) hist

/-- The last flush of the started session that was not skipped has failed, and no change has been taken
    since. -/
def FlushFailed (hist : List Exchange) : Prop :=
  LastActive (fun before e => Started before ∧ ∃ error, e = ⟨.writeBundle, .error error⟩) hist

/-- A longer history has started in front of its last exchange or by it. -/
theorem started_append {hist : List Exchange} {e : Exchange} :
    Started (hist ++ [e]) ↔ Started hist ∨ ⟨.start, .ok ()⟩ = e := by
  rw [Started, List.mem_append, List.mem_singleton, Started]

/-- A flush is done by the last exchange, or was done and the last exchange is idle. -/
theorem flushDone_append {hist : List Exchange} {e : Exchange} :
    FlushDone (hist ++ [e]) ↔
      (∃ report, e = ⟨.writeBundle, .ok (some report)⟩) ∨ FlushDone hist ∧ e.Idle := lastActive_append

/-- A flush has failed by the last exchange, or had failed and the last exchange is idle. -/
theorem flushFailed_append {hist : List Exchange} {e : Exchange} :
    FlushFailed (hist ++ [e]) ↔
      (Started hist ∧ ∃ error, e = ⟨.writeBundle, .error error⟩) ∨ FlushFailed hist ∧ e.Idle :=
  lastActive_append

/-- Only one exchange is the last that is not idle, so only one flush is the last. -/
theorem FlushDone.not_failed {hist : List Exchange} (h : FlushDone hist) : ¬ FlushFailed hist := by
  induction hist using List.reverseRecOn with
  | nil => exact absurd h lastActive_nil
  | append_singleton hist e ih =>
      -- The new exchange cannot both report and fail; if it is idle, the last flush stands before it.
      rw [flushFailed_append]
      rcases flushDone_append.mp h with ⟨report, rfl⟩ | ⟨hdone, hidle⟩
      · rintro (⟨-, error, he⟩ | ⟨-, hidle⟩)
        · cases he
        · cases hidle
      · rintro (⟨-, error, rfl⟩ | ⟨hfailed, -⟩)
        · cases hidle
        · exact ih hdone hfailed

/-- What the exchanges of a session tell of its flag. -/
structure Tells (hist : List Exchange) (flag : Option Bool) : Prop where
  started : flag.isSome = true ↔ Started hist
  begun : flag = some true ↔ FlushDone hist ∨ FlushFailed hist

theorem tells_nil : Tells [] none where
  started := ⟨nofun, nofun⟩
  begun := ⟨nofun, fun h => h.elim (absurd · lastActive_nil) (absurd · lastActive_nil)⟩

/-- **One exchange** tells what it does to the flag. -/
theorem Tells.append {hist : List Exchange} {flag : Option Bool} (h : Tells hist flag) {e : Exchange}
    (hfits : e.Fits flag) : Tells (hist ++ [e]) (e.flagAfter flag) := by
  obtain ⟨hstarted, hbegun⟩ := h
  constructor
  · rw [started_append, ← hstarted]
    match e with
    | ⟨.start, .ok ()⟩ => cases flag <;> simp [Exchange.flagAfter, Host.startFlag]
    | ⟨.start, .error _⟩ => simp [Exchange.flagAfter, Host.startFlag]
    | ⟨.transform .., _⟩ => simp [Exchange.flagAfter]
    | ⟨.transformSources, _⟩ => simp [Exchange.flagAfter]
    | ⟨.transformSource _, _⟩ => simp [Exchange.flagAfter]
    | ⟨.invalidate _, .ok true⟩ => simp [Exchange.flagAfter]
    | ⟨.invalidate _, .ok false⟩ => simp [Exchange.flagAfter]
    | ⟨.invalidate _, .error _⟩ => simp [Exchange.flagAfter]
    | ⟨.writeBundle, _⟩ => simp [Exchange.flagAfter]
  · rw [flushDone_append, flushFailed_append, ← hstarted]
    match e with
    | ⟨.start, .ok ()⟩ =>
        have hflag : Host.startFlag (.ok ()) flag = some true ↔ flag = some true := by
          cases flag <;> simp [Host.startFlag]
        simp [Exchange.flagAfter, Exchange.Idle, hflag, hbegun]
    | ⟨.start, .error _⟩ => simp [Exchange.flagAfter, Host.startFlag, Exchange.Idle, hbegun]
    | ⟨.transform .., _⟩ => simp [Exchange.flagAfter, Exchange.Idle, hbegun]
    | ⟨.transformSources, _⟩ => simp [Exchange.flagAfter, Exchange.Idle, hbegun]
    | ⟨.transformSource _, _⟩ => simp [Exchange.flagAfter, Exchange.Idle, hbegun]
    | ⟨.invalidate _, .ok true⟩ => simp [Exchange.flagAfter, Exchange.Idle]
    | ⟨.invalidate _, .ok false⟩ => simp [Exchange.flagAfter, Exchange.Idle, hbegun]
    | ⟨.invalidate _, .error _⟩ => simp [Exchange.flagAfter, Exchange.Idle, hbegun]
    | ⟨.writeBundle, .ok none⟩ =>
        have hflag : flag = some true := hfits
        simp [Exchange.flagAfter, Exchange.Idle, hflag, ← hbegun]
    | ⟨.writeBundle, .ok (some _)⟩ =>
        have hflag : flag = some false := hfits
        simp [Exchange.flagAfter, hflag]
    | ⟨.writeBundle, .error _⟩ =>
        -- A flush that fails begins one if and only if the session has started.
        cases flag <;> simp [Exchange.flagAfter, Exchange.Idle]

/-! ## The guard of a flush -/

namespace Host.Run

variable {h : Host σ π} {drift : σ → σ → Prop} {s s₀ : Session σ π} {hist : List Exchange}

theorem tells (hr : h.Run drift s₀ hist s) (h₀ : s₀.build = none) : Tells hist s.flag := by
  induction hr with
  | nil =>
      rw [Session.flag, h₀]
      exact tells_nil
  | @call hist s _ c ih =>
      rw [h.flag_call c s]
      exact ih.append (h.fits_exchange c s)
  | drift _ _ ih => exact ih

/-- **A flush is skipped** if and only if the last one that was not skipped has been begun by a started
    session, whether it gave a report or failed, and no change has been taken since. -/
theorem skips_iff (hr : h.Run drift s₀ hist s) (h₀ : s₀.build = none) :
    (outcome (h.writeBundle s)).1 = .ok none ↔ FlushDone hist ∨ FlushFailed hist := by
  rw [← (hr.tells h₀).begun]
  have hfits := (h.flushes s).fits
  match hreply : (outcome (h.writeBundle s)).1 with
  | .ok none =>
      rw [hreply] at hfits
      exact ⟨fun _ => hfits, fun _ => rfl⟩
  | .ok (some report) =>
      rw [hreply] at hfits
      have hflag : s.flag = some false := hfits
      rw [hflag]
      exact ⟨nofun, nofun⟩
  | .error e =>
      rw [hreply] at hfits
      exact ⟨nofun, fun hflag => absurd hflag hfits⟩

end Host.Run

/-! ## A flush that is not retried -/

/-- Rolls up, but has no engine for it. -/
def engineless : Host Files.Memory DryRun.TableProgram where
  options := { BuildOptions.ofRoot "/p" with rollupTypes := true }
  files := Files.Memory.store
  compiler := DryRun.TableProgram.compiler
  registry := .withBuiltIns []

/-- A session of no sources, before its start. -/
def enginelessNew : Session Files.Memory DryRun.TableProgram := .create {} { currentDir := "/p/src" }

/-- The session after its start. -/
def enginelessStarted : Session Files.Memory DryRun.TableProgram :=
  (outcome (engineless.call .start enginelessNew)).2

/-- The session after its first flush. -/
def enginelessFlushed : Session Files.Memory DryRun.TableProgram :=
  (outcome (engineless.call .writeBundle enginelessStarted)).2

/-- A start and a flush. -/
def enginelessHistory : List Exchange :=
  [] ++ [engineless.exchange .start enginelessNew]
    ++ [engineless.exchange .writeBundle enginelessStarted]

theorem run_engineless :
    engineless.Run (fun _ _ => True) enginelessNew enginelessHistory enginelessFlushed :=
  .call (.call .nil _) _

theorem reply_engineless_start : (outcome (engineless.start enginelessNew)).1 = .ok () := by
  decide +kernel

theorem reply_engineless_flush :
    (outcome (engineless.writeBundle enginelessStarted)).1
      = .error (.rollupPrepare "/p/dist/index.d.ts" "no rollup engine configured") := by
  decide +kernel

theorem started_engineless : Started [engineless.exchange .start enginelessNew] :=
  List.mem_singleton.mpr (congrArg (Exchange.mk .start) reply_engineless_start).symm

theorem failed_engineless : FlushFailed enginelessHistory :=
  ⟨_, _, [], rfl, ⟨started_engineless, _, congrArg (Exchange.mk .writeBundle) reply_engineless_flush⟩,
    by simp⟩

theorem skips_iff_engineless :
    engineless.Run (fun _ _ => True) enginelessNew enginelessHistory enginelessFlushed ∧
      enginelessNew.build = none ∧
      ((outcome (engineless.writeBundle enginelessFlushed)).1 = .ok none ↔
        FlushDone enginelessHistory ∨ FlushFailed enginelessHistory) :=
  ⟨run_engineless, rfl, run_engineless.skips_iff rfl⟩

/-- The flush of a started session fails, and the next call is skipped all the same. -/
theorem failed_flush_not_retried :
    engineless.Run (fun _ _ => True) enginelessNew enginelessHistory enginelessFlushed ∧
      Started enginelessHistory ∧ ¬ FlushDone enginelessHistory ∧
      (outcome (engineless.writeBundle enginelessFlushed)).1 = .ok none :=
  ⟨run_engineless, started_append.mpr (.inl started_engineless),
    fun hdone => hdone.not_failed failed_engineless, by decide +kernel⟩

end Typings
