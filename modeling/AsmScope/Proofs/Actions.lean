import AsmScope.Engine.State
import Mathlib.Order.Defs.Unbundled
/-! # What actions answer and leave behind

An action takes an engine to an answer and an engine. `Engine.result` and `Engine.after` name the
two parts, with an equation for each way in which actions are put together.

`Yields action answer P` says what an action answers, and what holds of the engine that it leaves
where it succeeds.

`Respects R action` says that the engine an action leaves is always `R`-related to the one it found.
For a reflexive and transitive `R` this is compositional, so a fact about a whole request follows
from the changes that it is made of (`Respects.bind`, `Respects.ensuring`, …). -/

namespace AsmScope

instance decidableEqExcept {ε β : Type} [DecidableEq ε] [DecidableEq β] :
    DecidableEq (Except ε β)
  | .ok first, .ok second => decidable_of_iff (first = second) (by rw [Except.ok.injEq])
  | .error first, .error second => decidable_of_iff (first = second) (by rw [Except.error.injEq])
  | .ok _, .error _ => isFalse nofun
  | .error _, .ok _ => isFalse nofun

namespace Engine

variable {α β γ : Type}

/-- The answer of an action. -/
def result (engine : Engine α) (action : Action α β) : Except Failure β := (action.run.run engine).1

/-- The engine that an action leaves behind. -/
def after (engine : Engine α) (action : Action α β) : Engine α := (action.run.run engine).2

variable (engine : Engine α)

/-- Giving a value answers it. -/
@[simp] theorem result_pure (value : β) : engine.result (pure value) = .ok value := rfl

/-- Giving a value leaves the engine as it is. -/
@[simp] theorem after_pure (value : β) : engine.after (pure value : Action α β) = engine := rfl

/-- Failing answers the failure. -/
@[simp] theorem result_throw (failure : Failure) :
    engine.result (throw failure : Action α β) = .error failure := rfl

/-- Failing leaves the engine as it is. -/
@[simp] theorem after_throw (failure : Failure) :
    engine.after (throw failure : Action α β) = engine := rfl

/-- Looking at the engine answers it. -/
@[simp] theorem result_get : engine.result get = .ok engine := rfl

/-- Looking at the engine leaves it as it is. -/
@[simp] theorem after_get : engine.after get = engine := rfl

/-- Putting another engine in its place goes well. -/
@[simp] theorem result_set (next : Engine α) : engine.result (set next) = .ok ⟨⟩ := rfl

/-- The engine that is put in its place is left behind. -/
@[simp] theorem after_set (next : Engine α) : engine.after (set next) = next := rfl

/-- A change of the engine goes well. -/
@[simp] theorem result_modify (f : Engine α → Engine α) : engine.result (modify f) = .ok ⟨⟩ := rfl

/-- The changed engine is left behind. -/
@[simp] theorem after_modify (f : Engine α → Engine α) : engine.after (modify f) = f engine := rfl

/-- The answer of two actions in a row: the first failure ends them. -/
theorem result_bind (action : Action α β) (next : β → Action α γ) :
    engine.result (action >>= next) =
      match engine.result action with
      | .ok value => (engine.after action).result (next value)
      | .error failure => .error failure := by
  unfold result after
  simp only [bind, ExceptT.bind, ExceptT.mk, ExceptT.run, StateT.bind, StateT.run]
  obtain ⟨answer, later⟩ := action engine
  cases answer <;> rfl

/-- What two actions in a row leave behind. -/
theorem after_bind (action : Action α β) (next : β → Action α γ) :
    engine.after (action >>= next) =
      match engine.result action with
      | .ok value => (engine.after action).after (next value)
      | .error _ => engine.after action := by
  unfold result after
  simp only [bind, ExceptT.bind, ExceptT.mk, ExceptT.run, StateT.bind, StateT.run]
  obtain ⟨answer, later⟩ := action engine
  cases answer <;> rfl

/-- What is made of a value changes the answer, unless it is a failure. -/
theorem result_bind_pure (action : Action α β) (f : β → γ) :
    engine.result (action >>= fun value => pure (f value)) = (engine.result action).map f := by
  rw [result_bind]
  cases engine.result action <;> rfl

/-- What is made of a value does not show in the engine. -/
theorem after_bind_pure (action : Action α β) (f : β → γ) :
    engine.after (action >>= fun value => pure (f value)) = engine.after action := by
  rw [after_bind]
  cases engine.result action <;> rfl

/-- An action that looks at the engine leaves what it leaves with this engine before it. -/
@[simp] theorem after_get_bind (next : Engine α → Action α γ) :
    engine.after (get >>= next) = engine.after (next engine) := after_bind engine get next

/-- After an engine is put in its place the rest starts from that one. -/
@[simp] theorem after_set_bind (changed : Engine α) (next : PUnit → Action α γ) :
    engine.after (set changed >>= next) = changed.after (next ⟨⟩) :=
  after_bind engine (set changed) next

/-- After a change the rest starts from the changed engine. -/
@[simp] theorem after_modify_bind (f : Engine α → Engine α) (next : PUnit → Action α γ) :
    engine.after (modify f >>= next) = (f engine).after (next ⟨⟩) :=
  after_bind engine (modify f) next

/-- An action that looks at the engine answers as it does with this engine before it. -/
@[simp] theorem result_get_bind (next : Engine α → Action α γ) :
    engine.result (get >>= next) = engine.result (next engine) := result_bind engine get next

/-- After an engine is put in its place the rest answers as from that one. -/
@[simp] theorem result_set_bind (changed : Engine α) (next : PUnit → Action α γ) :
    engine.result (set changed >>= next) = changed.result (next ⟨⟩) :=
  result_bind engine (set changed) next

/-- After a change the rest answers as from the changed engine. -/
@[simp] theorem result_modify_bind (f : Engine α → Engine α) (next : PUnit → Action α γ) :
    engine.result (modify f >>= next) = (f engine).result (next ⟨⟩) :=
  result_bind engine (modify f) next

/-- Observing an action goes well and answers what it answers, failures included. -/
@[simp] theorem result_observe (action : Action α β) :
    engine.result (observe action) = .ok (engine.result action) := rfl

/-- Observing an action leaves what it leaves. -/
@[simp] theorem after_observe (action : Action α β) :
    engine.after (observe action) = engine.after action := rfl

/-- What is done at the end does not show in the answer. -/
@[simp] theorem result_ensuring (action : Action α β) (cleanup : StateM (Engine α) Unit) :
    engine.result (ensuring action cleanup) = engine.result action := rfl

/-- What is done at the end is done to the engine that the action leaves, however it ended. -/
@[simp] theorem after_ensuring (action : Action α β) (cleanup : StateM (Engine α) Unit) :
    engine.after (ensuring action cleanup) = (cleanup.run (engine.after action)).2 := rfl

/-! ### What actions answer -/

/-- An action answers like this, and where it succeeds it leaves an engine of which `P` holds. -/
structure Yields (engine : Engine α) (action : Action α β) (answer : Except Failure β)
    (P : Engine α → Prop) : Prop where
  result : engine.result action = answer
  after : (∃ value, answer = .ok value) → P (engine.after action)

namespace Yields

variable {engine} {P Q : Engine α → Prop}

/-- An action yields the value that it answers with what holds of the engine it leaves. -/
theorem of_ok {action : Action α β} {value : β} (result : engine.result action = .ok value)
    (after : P (engine.after action)) : engine.Yields action (.ok value) P :=
  ⟨result, fun _ => after⟩

/-- An action that fails yields the failure, and nothing has to hold of the engine. -/
theorem of_error {action : Action α β} {failure : Failure}
    (result : engine.result action = .error failure) :
    engine.Yields action (.error failure) P := by
  refine ⟨result, ?_⟩
  rintro ⟨value, hvalue⟩
  cases hvalue

/-- What is yielded may be said more weakly. -/
theorem mono {action : Action α β} {answer : Except Failure β} (h : engine.Yields action answer P)
    (weaken : ∀ later, P later → Q later) : engine.Yields action answer Q :=
  ⟨h.result, fun hok => weaken _ (h.after hok)⟩

/-- What comes after an action that succeeds starts from what it leaves. -/
theorem bind_ok {action : Action α β} {next : β → Action α γ} {value : β}
    {answer : Except Failure γ} (first : engine.Yields action (.ok value) P)
    (second : ∀ later, P later → later.Yields (next value) answer Q) :
    engine.Yields (action >>= next) answer Q := by
  have hsecond := second _ (first.after ⟨value, rfl⟩)
  refine ⟨?_, fun hok => ?_⟩
  · rw [result_bind, first.result]
    exact hsecond.result
  · rw [after_bind, first.result]
    exact hsecond.after hok

/-- Nothing comes after an action that fails. -/
theorem bind_error {action : Action α β} {next : β → Action α γ} {failure : Failure}
    (result : engine.result action = .error failure) :
    engine.Yields (action >>= next) (.error failure) Q :=
  of_error (by rw [result_bind, result])

/-- What comes after an action of which it is known what it answers and leaves. -/
theorem bind_of {later : Engine α} {action : Action α β} {next : β → Action α γ} {value : β}
    {answer : Except Failure γ} (result : engine.result action = .ok value)
    (after : engine.after action = later) (rest : later.Yields (next value) answer Q) :
    engine.Yields (action >>= next) answer Q :=
  bind_ok (P := fun found => found = later) (of_ok result after) fun _ hfound => hfound ▸ rest

/-- An action that looks at the engine yields what it does with this engine before it. -/
theorem get_bind {next : Engine α → Action α β} {answer : Except Failure β}
    (h : engine.Yields (next engine) answer Q) : engine.Yields (get >>= next) answer Q :=
  bind_of rfl rfl h

/-- After a change, what is yielded from the changed engine is yielded by the whole. -/
theorem modify_bind {f : Engine α → Engine α} {next : PUnit → Action α β}
    {answer : Except Failure β} (h : (f engine).Yields (next ⟨⟩) answer Q) :
    engine.Yields (modify f >>= next) answer Q :=
  bind_of rfl rfl h

/-- Making something of the value changes the answer, and the engine is as it was left. -/
theorem map {action : Action α β} {answer : Except Failure β} (h : engine.Yields action answer P)
    (f : β → γ) : engine.Yields (action >>= fun value => pure (f value)) (answer.map f) P := by
  refine ⟨by rw [result_bind_pure, h.result], fun hok => ?_⟩
  rw [after_bind_pure]
  cases answer with
  | ok value => exact h.after ⟨value, rfl⟩
  | error failure =>
    obtain ⟨value, hvalue⟩ := hok
    cases hvalue

/-- A cleanup does not change the answer. -/
theorem ensuring {action : Action α β} {cleanup : StateM (Engine α) Unit}
    {answer : Except Failure β} (inner : engine.Yields action answer P)
    (last : ∀ later, P later → Q (cleanup.run later).2) :
    engine.Yields (ensuring action cleanup) answer Q :=
  ⟨inner.result, fun hok => last _ (inner.after hok)⟩

end Yields

end Engine

/-! ### Relations that actions respect -/

/-- Whatever engine an action finds, the one that it leaves is related to it. -/
def Respects {α β : Type} (R : Engine α → Engine α → Prop) (action : Action α β) : Prop :=
  ∀ engine, R engine (engine.after action)

/-- What holds before holds after. -/
def Maintains {α : Type} (P : Engine α → Prop) (before after : Engine α) : Prop :=
  P before → P after

instance {α : Type} (P : Engine α → Prop) : IsPreorder (Engine α) (Maintains P) where
  refl _ := id
  trans _ _ _ hab hbc h := hbc (hab h)

namespace Respects

open Engine

variable {α β γ δ : Type} {R : Engine α → Engine α → Prop}

/-- An action that is one change of the engine. -/
theorem modify_of {f : Engine α → Engine α} (change : ∀ engine, R engine (f engine)) :
    Respects R (modify f : Action α PUnit) :=
  change

variable [IsPreorder (Engine α) R]

/-- An action that does nothing to the engine. -/
theorem of_after_eq {action : Action α β}
    (still : ∀ engine : Engine α, engine.after action = engine) : Respects R action := by
  intro engine
  rw [still]
  exact Std.Refl.refl engine

/-- Giving a value respects every reflexive relation. -/
theorem pure_of (value : β) : Respects R (pure value : Action α β) :=
  of_after_eq fun _ => rfl

/-- Two actions in a row, where the second one starts from what the first one leaves. -/
theorem after_bind_of {engine : Engine α} {action : Action α β} {next : β → Action α γ}
    (first : R engine (engine.after action))
    (second : ∀ value, engine.result action = .ok value →
      R (engine.after action) ((engine.after action).after (next value))) :
    R engine (engine.after (action >>= next)) := by
  rw [after_bind]
  cases hresult : engine.result action with
  | ok value => exact IsTrans.trans _ _ _ first (second value hresult)
  | error failure => exact first

/-- Two actions in a row respect a transitive relation that each of them respects. -/
theorem bind {action : Action α β} {next : β → Action α γ} (first : Respects R action)
    (second : ∀ value, Respects R (next value)) : Respects R (action >>= next) :=
  fun engine => after_bind_of (first engine) fun value _ => second value (engine.after action)

/-- An action for every member of a list. -/
theorem forM_of {items : List δ} {action : δ → Action α PUnit}
    (each : ∀ item ∈ items, Respects R (action item)) : Respects R (items.forM action) := by
  induction items with
  | nil => exact pure_of _
  | cons item items ih =>
    have hrest := ih fun other hother => each other (List.mem_cons_of_mem _ hother)
    exact bind (each item List.mem_cons_self) fun _ => hrest

end Respects

end AsmScope
