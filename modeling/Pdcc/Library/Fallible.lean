/-!
# Calls and loops that can fail

When a loop over a list ends without an error, and with what. A call may also panic,
which no caller can handle.
-/

set_option autoImplicit false

namespace Pdcc.Library

variable {α β σ ε : Type}

theorem bind_eq_ok {x : Except ε α} {f : α → Except ε β} {b : β} : (x >>= f) = .ok b ↔ ∃ a, x = .ok a ∧ f a = .ok b := by
  cases x with
  | error error => simp [bind, Except.bind]
  | ok a => simp [bind, Except.bind]

theorem mapError_eq_ok {ε' : Type} {f : ε → ε'} {call : Except ε α} {value : α} : call.mapError f = .ok value ↔ call = .ok value := by
  cases call with
  | error cause => exact ⟨fun same => (by cases same), fun same => (by cases same)⟩
  | ok result => exact ⟨fun same => (by cases same; rfl), fun same => (by cases same; rfl)⟩

theorem forM_eq_ok {f : α → Except ε Unit} {items : List α} : forM items f = .ok () ↔ ∀ item ∈ items, f item = .ok () := by
  induction items with
  | nil => simp [pure, Except.pure]
  | cons item rest ih =>
    rw [List.forM_cons, bind_eq_ok, List.forall_mem_cons, ← ih]
    exact ⟨fun ⟨_, here, later⟩ => ⟨here, later⟩, fun ⟨here, later⟩ => ⟨(), here, later⟩⟩

theorem mapM_eq_ok {f : α → Except ε β} {items : List α} {results : List β} : items.mapM f = .ok results ↔
      (∀ item ∈ items, ∃ result, f item = .ok result) ∧ items.filterMap (fun item => (f item).toOption) = results := by
  induction items generalizing results with
  | nil => simp [pure, Except.pure]
  | cons item rest ih =>
    rw [List.mapM_cons, bind_eq_ok]
    simp only [bind_eq_ok, ih, List.mem_cons, forall_eq_or_imp, List.filterMap_cons]
    constructor
    · rintro ⟨result, read, later, ⟨readable, rfl⟩, same⟩
      cases same
      exact ⟨⟨⟨result, read⟩, readable⟩, by simp [read, Except.toOption]⟩
    · rintro ⟨⟨⟨result, read⟩, readable⟩, same⟩
      refine ⟨result, read, _, ⟨readable, rfl⟩, ?_⟩
      simp only [read, Except.toOption] at same
      rw [← same]
      rfl

theorem map_eq_of_mapM {γ : Type} {f : α → Except ε β} {itemKey : α → γ} {resultKey : β → γ}
    (each : ∀ item result, f item = .ok result → resultKey result = itemKey item)
    {items : List α} {results : List β} (ran : items.mapM f = .ok results) :
    results.map resultKey = items.map itemKey := by
  induction items generalizing results with
  | nil =>
    cases ran
    rfl
  | cons item rest ih =>
    rw [List.mapM_cons, bind_eq_ok] at ran
    obtain ⟨result, here, ran⟩ := ran
    obtain ⟨later, ranLater, same⟩ := bind_eq_ok.mp ran
    cases same
    rw [List.map_cons, List.map_cons, each item result here, ih ranLater]

theorem foldlM_eq_ok {f : σ → α → Except ε σ} {Good : α → Prop} {next : σ → α → σ}
    (step : ∀ state item state', f state item = .ok state' ↔ Good item ∧ next state item = state')
    {items : List α} {state state' : σ} :
    items.foldlM f state = .ok state' ↔ (∀ item ∈ items, Good item) ∧ items.foldl next state = state' := by
  induction items generalizing state with
  | nil => simp [pure, Except.pure]
  | cons item rest ih =>
    rw [List.foldlM_cons, bind_eq_ok]
    simp only [step, ih, List.mem_cons, forall_eq_or_imp, List.foldl_cons]
    constructor
    · rintro ⟨_, ⟨good, rfl⟩, readable, same⟩
      exact ⟨⟨good, readable⟩, same⟩
    · rintro ⟨⟨good, readable⟩, same⟩
      exact ⟨_, ⟨good, rfl⟩, readable, same⟩

theorem foldlM_invariant {f : σ → α → Except ε σ} {Inv : List α → σ → Prop}
    (step : ∀ done item state state', Inv done state → f state item = .ok state' → Inv (done ++ [item]) state')
    {items : List α} {state state' : σ} (before : Inv [] state)
    (ran : items.foldlM f state = .ok state') : Inv items state' := by
  induction items generalizing Inv state with
  | nil =>
    cases ran
    exact before
  | cons item rest ih =>
    rw [List.foldlM_cons, bind_eq_ok] at ran
    obtain ⟨next, stepped, ran⟩ := ran
    -- what is done grows from the first item on
    exact ih (fun done => step (item :: done)) (step [] item state next before stepped) ran

theorem foldlM_returns {f : σ → α → Except ε σ} {Inv : σ → Prop} {items : List α}
    (step : ∀ item ∈ items, ∀ state, Inv state → ∃ state', f state item = .ok state' ∧ Inv state')
    {state : σ} (before : Inv state) : ∃ state', items.foldlM f state = .ok state' ∧ Inv state' := by
  induction items generalizing state with
  | nil => exact ⟨state, rfl, before⟩
  | cons item rest ih =>
    obtain ⟨here, later⟩ := List.forall_mem_cons.mp step
    obtain ⟨next, stepped, kept⟩ := here state before
    obtain ⟨last, ran, after⟩ := ih later kept
    exact ⟨last, by rw [List.foldlM_cons, bind_eq_ok]; exact ⟨next, stepped, ran⟩, after⟩

@[elab_as_elim]
theorem foldlM_some_invariant {f : σ → α → Option σ} {motive : List α → σ → Prop}
    {items : List α} {state state' : σ} (ran : items.foldlM f state = some state')
    (before : motive [] state)
    (step : ∀ done item state state', motive done state → f state item = some state' →
      motive (done ++ [item]) state') : motive items state' := by
  induction items generalizing motive state with
  | nil =>
    cases ran
    exact before
  | cons item rest ih =>
    rw [List.foldlM_cons, Option.bind_eq_bind, Option.bind_eq_some_iff] at ran
    obtain ⟨next, stepped, ran⟩ := ran
    exact ih ran (step [] item state next before stepped) fun done => step (item :: done)

theorem foldlM_some_total {f : σ → α → Option σ} {items : List α}
    (step : ∀ item ∈ items, ∀ state, ∃ state', f state item = some state') (state : σ) :
    ∃ state', items.foldlM f state = some state' := by
  induction items generalizing state with
  | nil => exact ⟨state, rfl⟩
  | cons item rest ih =>
    obtain ⟨here, later⟩ := List.forall_mem_cons.mp step
    obtain ⟨next, stepped⟩ := here state
    rw [List.foldlM_cons, stepped]
    exact ih later next

section MapSome

variable {f : α → Option β} {items : List α} {results : List β}

theorem map_of_mapM (ran : items.mapM f = some results) : items.map f = results.map some := by
  induction items generalizing results with
  | nil =>
    cases ran
    rfl
  | cons first items ih =>
    rw [List.mapM_cons] at ran
    obtain ⟨result, here, ran⟩ := Option.bind_eq_some_iff.mp ran
    obtain ⟨later, ranLater, same⟩ := Option.bind_eq_some_iff.mp ran
    cases same
    rw [List.map_cons, List.map_cons, here, ih ranLater]

theorem exists_of_map (mapped : items.map f = results.map some) {item : α} (member : item ∈ items) :
    ∃ result ∈ results, f item = some result := by
  have inside : f item ∈ results.map some := mapped ▸ List.mem_map_of_mem member
  obtain ⟨result, listed, same⟩ := List.mem_map.mp inside
  exact ⟨result, listed, same.symm⟩

theorem filterMap_of_map (mapped : items.map f = results.map some) : items.filterMap f = results := by
  have collected := congrArg (List.filterMap id) mapped
  rwa [List.filterMap_map, List.filterMap_map, Function.id_comp, Function.id_comp, List.filterMap_some] at collected

theorem mem_of_mapM (ran : items.mapM f = some results) {result : β} (member : result ∈ results) :
    ∃ item ∈ items, f item = some result := by
  have inside : some result ∈ items.map f := map_of_mapM ran ▸ List.mem_map_of_mem member
  exact List.mem_map.mp inside

end MapSome

section Panics

inductive Panic where
  | indexOutOfRange
  | nilDereference
  deriving DecidableEq, Repr

inductive Failure (ε : Type) where
  | panic (cause : Panic)
  | error (cause : ε)
  deriving DecidableEq, Repr

/-- The call ends in a runtime panic, not in an error. -/
def Panics (call : Except (Failure ε) α) : Prop := ∃ cause, call = .error (.panic cause)

@[simp] theorem not_panics_ok (value : α) : ¬ Panics (.ok value : Except (Failure ε) α) := by
  simp [Panics]

@[simp] theorem not_panics_error (cause : ε) : ¬ Panics (.error (.error cause) : Except (Failure ε) α) := by
  simp [Panics]

@[simp] theorem panics_panic (cause : Panic) : Panics (.error (.panic cause) : Except (Failure ε) α) := ⟨cause, rfl⟩

theorem panics_bind {call : Except (Failure ε) α} {next : α → Except (Failure ε) β} :
    Panics (call >>= next) ↔ Panics call ∨ ∃ value, call = .ok value ∧ Panics (next value) := by
  cases call with
  | error failure => simp [Panics, bind, Except.bind]
  | ok value => simp [Panics, bind, Except.bind]

theorem not_panics_of_eq_ok {call : Except (Failure ε) α} {value : α} (returned : call = .ok value) : ¬ Panics call := by
  simp [returned]

theorem panics_mapM {f : α → Except (Failure ε) β} {items : List α} (body : ∀ item ∈ items, Panics (f item) ∨ ∃ result, f item = .ok result) :
    Panics (items.mapM f) ↔ ∃ item ∈ items, Panics (f item) := by
  induction items with
  | nil => simp [pure, Except.pure]
  | cons item rest ih =>
    obtain ⟨here, later⟩ := List.forall_mem_cons.mp body
    rw [List.mapM_cons, panics_bind]
    simp only [List.mem_cons, exists_eq_or_imp]
    rcases here with panics | ⟨result, returned⟩
    · exact ⟨fun _ => .inl panics, fun _ => .inl panics⟩
    · have single : Panics ((rest.mapM f) >>= fun results => pure (result :: results)) ↔ ∃ item ∈ rest, Panics (f item) := by
        rw [panics_bind, ih later]
        simp [pure, Except.pure]
      rw [returned, ← single]
      simp only [not_panics_ok, false_or, Except.ok.injEq, exists_eq_left']

def index (items : List α) (position : Nat) : Except (Failure ε) α :=
  match items[position]? with
  | none => .error (.panic .indexOutOfRange)
  | some item => .ok item

theorem index_eq_ok {items : List α} {position : Nat} {item : α} :
    (index items position : Except (Failure ε) α) = .ok item ↔ items[position]? = some item := by
  unfold index
  split <;> simp_all

theorem panics_index {items : List α} {position : Nat} : Panics (index items position : Except (Failure ε) α) ↔ items.length ≤ position := by
  rw [← List.getElem?_eq_none_iff]
  unfold index
  split <;> simp_all

theorem index_cases (items : List α) (position : Nat) : Panics (index items position : Except (Failure ε) α) ∨
      ∃ item, (index items position : Except (Failure ε) α) = .ok item := by
  unfold index
  split <;> simp

end Panics

end Pdcc.Library
