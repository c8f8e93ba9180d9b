/-! # Cancellation

A token says whether a request has been cancelled and holds what is to be done at that moment. The
first cancellation hands out the registered callbacks, in the order of registration, and forgets
them; a callback that is registered later is to be run at once. What a callback does is up to the
caller, so the token only decides which callbacks run. -/

namespace AsmScope

universe u

/-- The state of one cancellable request. -/
structure CancellationToken (β : Type u) where
  /-- Whether cancellation was requested; once set, it stays. -/
  cancelled : Bool := false
  /-- The callbacks that wait for cancellation, in order of registration. -/
  callbacks : List β := []
  deriving DecidableEq, Repr

namespace CancellationToken

variable {β : Type u}

/-- A token that was not cancelled and waits for nothing. -/
def fresh : CancellationToken β := ⟨false, []⟩

/-- Registers a callback, and says whether it is to be run at once. -/
def register (token : CancellationToken β) (callback : β) : CancellationToken β × Bool :=
  if token.cancelled then (token, true)
  else ({ token with callbacks := token.callbacks ++ [callback] }, false)

/-- Takes the first registration of a callback back, if there is one. -/
def unregister [BEq β] (token : CancellationToken β) (callback : β) : CancellationToken β :=
  { token with callbacks := token.callbacks.erase callback }

/-- Requests cancellation, and hands out the callbacks that are to be run. -/
def cancel (token : CancellationToken β) : CancellationToken β × List β :=
  if token.cancelled then (token, []) else ({ cancelled := true, callbacks := [] }, token.callbacks)

/-- Forgets the callbacks without running them. -/
def dispose (token : CancellationToken β) : CancellationToken β := { token with callbacks := [] }

/-- A token that is cancelled stays so. -/
@[simp] theorem cancelled_cancel (token : CancellationToken β) :
    token.cancel.1.cancelled = true := by
  unfold cancel
  split <;> simp_all

/-- A second cancellation hands out nothing. -/
@[simp] theorem cancel_cancel (token : CancellationToken β) :
    token.cancel.1.cancel = (token.cancel.1, []) := by
  simp [cancel]
  split <;> simp_all

/-- Registering a callback does not cancel a token, nor undo that it is cancelled. -/
@[simp] theorem cancelled_register (token : CancellationToken β) (callback : β) :
    (token.register callback).1.cancelled = token.cancelled := by
  unfold register
  split <;> simp_all

/-- Taking a callback back leaves it open whether the token is cancelled. -/
@[simp] theorem cancelled_unregister [BEq β] (token : CancellationToken β) (callback : β) :
    (token.unregister callback).cancelled = token.cancelled := rfl

/-- Dropping all callbacks does so too. -/
@[simp] theorem cancelled_dispose (token : CancellationToken β) :
    token.dispose.cancelled = token.cancelled := rfl

end CancellationToken

end AsmScope
