import AgeCypher.State
/-!
# Reasoning about runs of transform functions

A transform function either raises an error, which aborts the whole compilation
(`ereport(ERROR, ...)`), or returns a value and a new state; only the second kind
of run is ever continued. Proofs therefore take a successful run apart along
`bind` (`run_bind_ok`) and state what each function does to the state:

* `ReadOnly m`: `m` leaves the state as it found it;
* `Moves o m`: every run of `m` relates its two states by the order `o`, so that
  invariants over whole runs compose along `bind` and across the recursion of
  the clause chain.

These rules are the only place a proof looks inside `StateT` and `Except`.
-/

namespace AgeCypher

/-- A successful run of a bind is a successful run of each part. -/
theorem run_bind_ok {α β : Type} {m : TransformM α} {f : α → TransformM β} {s s' : CypherParseState}
    {b : β} (h : (m >>= f).run s = .ok (b, s')) :
    ∃ a s₁, m.run s = .ok (a, s₁) ∧ (f a).run s₁ = .ok (b, s') := by
  rw [StateT.run_bind] at h
  cases hm : m.run s with
  | error e => rw [hm] at h; cases h
  | ok p => rw [hm] at h; exact ⟨p.1, p.2, rfl, h⟩

theorem run_pure_ok {α : Type} {a b : α} {s s' : CypherParseState}
    (h : (pure a : TransformM α).run s = .ok (b, s')) : b = a ∧ s' = s := by
  cases h
  exact ⟨rfl, rfl⟩

theorem run_get_ok {a s s' : CypherParseState}
    (h : (MonadState.get : TransformM CypherParseState).run s = .ok (a, s')) : a = s ∧ s' = s := by
  cases h
  exact ⟨rfl, rfl⟩

/-- `m` reads the parse state and changes nothing. -/
def ReadOnly {α : Type} (m : TransformM α) : Prop :=
  ∀ s a s', m.run s = .ok (a, s') → s' = s

namespace ReadOnly

variable {α β : Type}

theorem bind {m : TransformM α} {f : α → TransformM β} (hm : ReadOnly m)
    (hf : ∀ a, ReadOnly (f a)) : ReadOnly (m >>= f) := by
  intro s b s' h
  obtain ⟨a, s₁, h₁, h₂⟩ := run_bind_ok h
  rw [hf a s₁ b s' h₂, hm s a s₁ h₁]

theorem pure {a : α} : ReadOnly (Pure.pure a : TransformM α) :=
  fun _ _ _ h => (run_pure_ok h).2

theorem get : ReadOnly (MonadState.get : TransformM CypherParseState) := by
  intro s a s' h
  cases h
  rfl

theorem throw {e : CypherError} : ReadOnly (MonadExcept.throw e : TransformM α) := by
  intro s a s' h
  cases h

theorem ite {c : Prop} [Decidable c] {m₁ m₂ : TransformM α} (h₁ : ReadOnly m₁)
    (h₂ : ReadOnly m₂) : ReadOnly (if c then m₁ else m₂) := by
  by_cases hc : c
  · rwa [if_pos hc]
  · rwa [if_neg hc]

theorem forM {γ : Type} {f : γ → TransformM PUnit} :
    ∀ {xs : List γ}, (∀ x ∈ xs, ReadOnly (f x)) → ReadOnly (xs.forM f)
  | [], _ => pure
  | x :: xs, h => (h x (List.mem_cons_self x xs)).bind fun _ =>
      forM fun y hy => h y (List.mem_cons_of_mem x hy)

theorem mapM {γ δ : Type} {f : γ → TransformM δ} :
    ∀ {xs : List γ}, (∀ x ∈ xs, ReadOnly (f x)) → ReadOnly (xs.mapM f)
  | [], _ => by rw [List.mapM_nil]; exact pure
  | x :: xs, h => by
    rw [List.mapM_cons]
    exact (h x (List.mem_cons_self x xs)).bind fun _ =>
      (mapM fun y hy => h y (List.mem_cons_of_mem x hy)).bind fun _ => pure

end ReadOnly

/-- A reflexive, transitive relation between parse states: what a transform may do
to the state, closed under doing nothing and under doing it twice. -/
structure StateOrder where
  rel : CypherParseState → CypherParseState → Prop
  refl : ∀ s, rel s s
  trans : ∀ {s₁ s₂ s₃}, rel s₁ s₂ → rel s₂ s₃ → rel s₁ s₃

/-- Every run of `m` takes its state to one `o`-related to it. -/
def Moves (o : StateOrder) {α : Type} (m : TransformM α) : Prop :=
  ∀ s a s', m.run s = .ok (a, s') → o.rel s s'

namespace Moves

variable {o : StateOrder} {α β : Type}

theorem bind {m : TransformM α} {f : α → TransformM β} (hm : Moves o m)
    (hf : ∀ a, Moves o (f a)) : Moves o (m >>= f) := by
  intro s b s' h
  obtain ⟨a, s₁, h₁, h₂⟩ := run_bind_ok h
  exact o.trans (hm s a s₁ h₁) (hf a s₁ b s' h₂)

theorem of_readOnly {m : TransformM α} (h : ReadOnly m) : Moves o m := by
  intro s a s' hrun
  rw [h s a s' hrun]
  exact o.refl s

theorem pure {a : α} : Moves o (Pure.pure a : TransformM α) := of_readOnly .pure

theorem get : Moves o (MonadState.get : TransformM CypherParseState) := of_readOnly .get

theorem throw {e : CypherError} : Moves o (MonadExcept.throw e : TransformM α) :=
  of_readOnly .throw

theorem ite {c : Prop} [Decidable c] {m₁ m₂ : TransformM α} (h₁ : Moves o m₁) (h₂ : Moves o m₂) :
    Moves o (if c then m₁ else m₂) := by
  by_cases hc : c
  · rwa [if_pos hc]
  · rwa [if_neg hc]

theorem mono {o' : StateOrder} {m : TransformM α} (h : Moves o m)
    (hle : ∀ s s', o.rel s s' → o'.rel s s') : Moves o' m :=
  fun s a s' hrun => hle s s' (h s a s' hrun)

end Moves

end AgeCypher
