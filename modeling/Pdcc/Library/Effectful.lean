/-!
# Calls with effects

A call that changes a state and returns or fails; the changes it made stay when it
fails. What it ensures is stated for both ends and composed along the call.
-/

set_option autoImplicit false

namespace Pdcc.Library

variable {σ ε α β : Type}

def Effectful (σ ε α : Type) : Type := σ → Except ε α × σ

namespace Effectful

protected def bind (call : Effectful σ ε α) (next : α → Effectful σ ε β) : Effectful σ ε β :=
  fun state =>
    match call state with
    | (.ok value, state) => next value state
    | (.error cause, state) => (.error cause, state)

instance : Monad (Effectful σ ε) where
  pure value := fun state => (.ok value, state)
  bind := Effectful.bind

def fail (cause : ε) : Effectful σ ε α := fun state => (.error cause, state)

def step (value : Except ε α) : Effectful σ ε α := fun state => (value, state)

def update (change : σ → σ) : Effectful σ ε Unit := fun state => (.ok (), change state)

def current : Effectful σ ε σ := fun state => (.ok state, state)

def within {τ δ : Type} (get : σ → τ) (set : τ → σ → σ) (wrap : δ → ε) (call : Effectful τ δ α) :
    Effectful σ ε α :=
  fun state => ((call (get state)).1.mapError wrap, set (call (get state)).2 state)

def deferred (call : Effectful σ ε α) (after : Except ε α → Effectful σ ε β) : Effectful σ ε β :=
  fun state => after (call state).1 (call state).2

theorem current_bind (next : σ → Effectful σ ε β) (state : σ) : (current >>= next) state = next state state := rfl

variable {state : σ} {call : Effectful σ ε α} {state' : σ}

theorem bind_of_ok {value : α} (returned : call state = (.ok value, state')) (next : α → Effectful σ ε β) :
    (call >>= next) state = next value state' := by
  have unfolded : (call >>= next) state = Effectful.bind call next state := rfl
  rw [unfolded, Effectful.bind, returned]

theorem bind_of_error {cause : ε} (failed : call state = (.error cause, state')) (next : α → Effectful σ ε β) :
    (call >>= next) state = (.error cause, state') := by
  have unfolded : (call >>= next) state = Effectful.bind call next state := rfl
  rw [unfolded, Effectful.bind, failed]

theorem bind_pure_apply (call : Effectful σ ε α) (f : α → β) (state : σ) :
    (call >>= fun value => pure (f value)) state = ((call state).1.map f, (call state).2) := by
  cases ran : call state with
  | mk result state' =>
    cases result with
    | ok value => exact bind_of_ok ran _
    | error cause => exact bind_of_error ran _

theorem bind_of_same {call' : Effectful σ ε α} (same : call state = call' state)
    (next : α → Effectful σ ε β) : (call >>= next) state = (call' >>= next) state := by
  have unfolded : ∀ call : Effectful σ ε α, (call >>= next) state = Effectful.bind call next state := fun _ => rfl
  rw [unfolded, unfolded, Effectful.bind, Effectful.bind, same]

/-- A triple with one postcondition for a result and one for an error. -/
def Ensures (pre : σ → Prop) (call : Effectful σ ε α) (post : α → σ → Prop)
    (failed : σ → Prop) : Prop :=
  ∀ state, pre state →
    (∀ value state', call state = (.ok value, state') → post value state') ∧
      ∀ cause state', call state = (.error cause, state') → failed state'

section Rules

variable {pre : σ → Prop} {call : Effectful σ ε α} {post : α → σ → Prop} {failed : σ → Prop}

theorem ensures_pure {value : α} (holds : ∀ state, pre state → post value state) :
    Ensures pre (pure value : Effectful σ ε α) post failed := by
  intro state start
  refine ⟨?_, fun _ _ ended => (by cases ended)⟩
  intro value' state' ended
  cases ended
  exact holds state start

theorem ensures_true : Ensures pre call (fun _ _ => True) fun _ => True :=
  fun _ _ => ⟨fun _ _ _ => trivial, fun _ _ _ => trivial⟩

theorem ensures_fail {cause : ε} (holds : ∀ state, pre state → failed state) : Ensures pre (fail cause : Effectful σ ε α) post failed := by
  intro state start
  refine ⟨fun _ _ ended => (by cases ended), ?_⟩
  intro cause' state' ended
  cases ended
  exact holds state start

theorem ensures_update {change : σ → σ} {post : Unit → σ → Prop} (holds : ∀ state, pre state → post () (change state)) :
    Ensures pre (update change : Effectful σ ε Unit) post failed := by
  intro state start
  refine ⟨?_, fun _ _ ended => (by cases ended)⟩
  intro value state' ended
  cases ended
  exact holds state start

variable {next : α → Effectful σ ε β}

theorem ensures_bind {middle : α → σ → Prop} {post : β → σ → Prop} (first : Ensures pre call middle failed)
    (second : ∀ value, Ensures (middle value) (next value) post failed) :
    Ensures pre (call >>= next) post failed := by
  intro state start
  obtain ⟨returns, fails⟩ := first state start
  have unfolded : (call >>= next) state = Effectful.bind call next state := rfl
  rw [unfolded, Effectful.bind]
  split
  · next value state' ended => exact second value state' (returns value state' ended)
  · next cause state' ended =>
    refine ⟨fun _ _ ended' => (by cases ended'), ?_⟩
    intro cause' state'' ended'
    cases ended'
    exact fails cause state' ended

theorem ensures_step {value : Except ε α} {post : β → σ → Prop} (fails : ∀ state, pre state → failed state)
    (rest : ∀ result, value = .ok result → Ensures pre (next result) post failed) :
    Ensures pre (step value >>= next) post failed := by
  cases value with
  | error cause =>
    intro state start
    refine ⟨fun _ _ ended => (by cases ended), ?_⟩
    intro cause' state' ended
    cases ended
    exact fails state start
  | ok result =>
    intro state start
    exact rest result rfl state start

theorem ensures_current {next : σ → Effectful σ ε β} {post : β → σ → Prop}
    (rest : ∀ now, pre now → Ensures (· = now) (next now) post failed) :
    Ensures pre (current >>= next) post failed :=
  fun state start => rest state start state rfl

theorem Ensures.mono {pre' : σ → Prop} {post' : α → σ → Prop} {failed' : σ → Prop}
    (ensures : Ensures pre call post failed) (starts : ∀ state, pre' state → pre state)
    (returns : ∀ value state, post value state → post' value state)
    (fails : ∀ state, failed state → failed' state) : Ensures pre' call post' failed' := by
  intro state start
  obtain ⟨onReturn, onFailure⟩ := ensures state (starts state start)
  exact ⟨fun value state' ended => returns value state' (onReturn value state' ended),
    fun cause state' ended => fails state' (onFailure cause state' ended)⟩

end Rules

end Effectful

end Pdcc.Library
