import Typings.Session.State

/-!
# `Outcome` — operations that can fail

What an operation did before it failed stays done, so a law about all runs has to say what holds after
a failure too.  The form of such a law below speaks of success and failure alike and is closed under
sequencing.

* `outcome`: how an operation ends, and the state it leaves; `outcome_bind`, `exists_of_outcome_bind`.
* `Adds`: an operation adds entries to a log that is read off the state.
* `Adds.Nothing`: an operation leaves the log as it is.

The entries that an operation adds are known only up to a property of them and of how it ended, so
that an operation that stops halfway has a law of the same form as one that does not.
-/

namespace Typings

variable {ε σ π α β : Type}

/-- How an operation ends, and the state that it leaves. -/
def outcome : EStateM.Result ε σ α → Except ε α × σ
  | .ok a s => (.ok a, s)
  | .error e s => (.error e, s)

theorem eq_ok_of_outcome {r : EStateM.Result ε σ α} {a : α} {s : σ} (h : outcome r = (.ok a, s)) :
    r = .ok a s := by
  cases r with
  | ok a' s' =>
      obtain ⟨ha, rfl⟩ := Prod.mk.inj h
      rw [Except.ok.inj ha]
  | error e s' => exact nomatch (Prod.mk.inj h).1

/-- A sequence ends as its second part does, unless the first part fails. -/
theorem outcome_bind (op : EStateM ε σ α) (k : α → EStateM ε σ β) (s : σ) :
    outcome ((op >>= k) s) =
      match outcome (op s) with
      | (.ok a, s') => outcome (k a s')
      | (.error e, s') => (.error e, s') := by
  show outcome (EStateM.bind op k s) = _
  rw [EStateM.bind]
  cases op s <;> rfl

theorem outcome_bind_ok {op : EStateM ε σ α} {k : α → EStateM ε σ β} {s s' : σ} {a : α}
    (h : outcome (op s) = (.ok a, s')) : outcome ((op >>= k) s) = outcome (k a s') := by
  rw [outcome_bind, h]

theorem outcome_bind_error {op : EStateM ε σ α} {k : α → EStateM ε σ β} {s s' : σ} {e : ε}
    (h : outcome (op s) = (.error e, s')) : outcome ((op >>= k) s) = (.error e, s') := by
  rw [outcome_bind, h]

/-- What both parts of a sequence preserve, the sequence does, whether it succeeds or not. -/
theorem outcome_bind_preserves {P : σ → Prop} {op : EStateM ε σ α} {k : α → EStateM ε σ β} {s : σ}
    (hop : P (outcome (op s)).2) (hk : ∀ a s', P s' → P (outcome (k a s')).2) :
    P (outcome ((op >>= k) s)).2 := by
  rw [outcome_bind]
  cases h : outcome (op s) with
  | mk r s' =>
      rw [h] at hop
      cases r with
      | ok a => exact hk a s' hop
      | error e => exact hop

/-- If a sequence succeeds, its parts have succeeded. -/
theorem exists_of_outcome_bind {op : EStateM ε σ α} {k : α → EStateM ε σ β} {s s' : σ} {b : β}
    (h : outcome ((op >>= k) s) = (.ok b, s')) :
    ∃ a s₁, outcome (op s) = (.ok a, s₁) ∧ outcome (k a s₁) = (.ok b, s') := by
  rw [outcome_bind] at h
  cases hop : outcome (op s) with
  | mk r s₁ =>
      rw [hop] at h
      cases r with
      | ok a => exact ⟨a, s₁, rfl, h⟩
      | error e => exact nomatch h

theorem exists_of_isSome {x : Except ε α × σ} (h : x.1.toOption.isSome = true) :
    ∃ a s, x = (.ok a, s) := by
  obtain ⟨r, s⟩ := x
  cases r with
  | ok a => exact ⟨a, s, rfl⟩
  | error e => exact nomatch h

/-! ## Additions to a log -/

/-- The operation adds entries to the log; `post` says which, given how it ends. -/
def Adds {entry : Type} (log : σ → List entry) (op : EStateM ε σ α)
    (post : Except ε α → List entry → Prop) : Prop :=
  ∀ s, ∃ l, log (outcome (op s)).2 = log s ++ l ∧ post (outcome (op s)).1 l

namespace Adds

variable {entry : Type} {log : σ → List entry} {op : EStateM ε σ α} {k : α → EStateM ε σ β}
  {post mid : Except ε α → List entry → Prop} {last : Except ε β → List entry → Prop}

theorem mono (h : Adds log op mid) (hp : ∀ r l, mid r l → post r l) : Adds log op post := by
  intro s
  obtain ⟨l, hl, hm⟩ := h s
  exact ⟨l, hl, hp _ _ hm⟩

theorem bind (h : Adds log op mid)
    (hk : ∀ a l, mid (.ok a) l → Adds log (k a) fun r l' => last r (l ++ l'))
    (he : ∀ e l, mid (.error e) l → last (.error e) l) : Adds log (op >>= k) last := by
  intro s
  obtain ⟨l, hl, hm⟩ := h s
  rw [outcome_bind]
  cases hop : outcome (op s) with
  | mk r s' =>
      rw [hop] at hl hm
      cases r with
      | ok a =>
          obtain ⟨l', hl', hm'⟩ := hk a l hm s'
          refine ⟨l ++ l', ?_, hm'⟩
          rw [hl', hl, List.append_assoc]
      | error e => exact ⟨l, hl, he e l hm⟩

/-- An operation that leaves the log as it is. -/
def Nothing (log : σ → List entry) (op : EStateM ε σ α) : Prop :=
  ∀ s, log (outcome (op s)).2 = log s

theorem pure (a : α) : Adds log (Pure.pure a : EStateM ε σ α) fun r l => r = .ok a ∧ l = [] :=
  fun _ => ⟨[], (List.append_nil _).symm, rfl, rfl⟩

/-- A log that an operation leaves alone gets no entries. -/
theorem nothing (h : Nothing log op) : Adds log op fun _ l => l = [] :=
  fun s => ⟨[], by rw [h s, List.append_nil], rfl⟩

end Adds

namespace Adds.Nothing

variable {entry : Type} {log : σ → List entry} {op : EStateM ε σ α} {k : α → EStateM ε σ β}

theorem pure (a : α) : Nothing log (Pure.pure a : EStateM ε σ α) := fun _ => rfl

theorem throw (e : ε) : Nothing log (MonadExcept.throw e : EStateM ε σ α) := fun _ => rfl

theorem get : Nothing log (MonadState.get : EStateM ε σ σ) := fun _ => rfl

theorem bind (h : Nothing log op) (hk : ∀ a, Nothing log (k a)) : Nothing log (op >>= k) := fun s =>
  outcome_bind_preserves (P := fun s' => log s' = log s) (h s) fun a s' hs => (hk a s').trans hs

end Adds.Nothing

end Typings
