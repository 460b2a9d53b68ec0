import Pdcc.Library.Interleaving
import Mathlib.Data.List.Range
import Mathlib.Order.Bounds.Basic

/-!
# Concurrent reservations

Numbered owners race to reserve keys; the smallest number wins each key. An
owner first makes sure the key has an entry and then, under the entry's lock,
compares itself with the holder. Whatever the interleaving, every key ends up
with its smallest claimant, and exactly the owners that share a key with a
smaller one are told that they lost.
-/

set_option autoImplicit false

namespace Pdcc.Library

inductive Claim (Key : Type) where
  | loadOrStore (owner : Nat) (key : Key)
  | compare (owner : Nat) (key : Key)
  | conclude (owner : Nat)

structure Reservations (Key : Type) where
  holder : Key → Option Nat
  lost : Nat → Bool
  failed : Nat → Bool

variable {Key : Type} [DecidableEq Key]

namespace Reservations

def init : Reservations Key where
  holder := fun _ => none
  lost := fun _ => false
  failed := fun _ => false

def act (state : Reservations Key) : Claim Key → Reservations Key
  | .loadOrStore owner key =>
    match state.holder key with
    | some _ => state
    | none => { state with holder := Function.update state.holder key (some owner) }
  | .compare owner key =>
    match state.holder key with
    | none => state
    | some current =>
      if current = owner then state
      else if owner < current then
        { state with
          holder := Function.update state.holder key (some owner)
          lost := Function.update state.lost current true }
      else { state with failed := Function.update state.failed owner true }
  | .conclude owner =>
    if state.failed owner then { state with lost := Function.update state.lost owner true }
    else state

def claimThread (owner : Nat) (keys : List Key) : List (Claim Key) :=
  keys.flatMap fun key => [.loadOrStore owner key, .compare owner key]

def Blocked (keys : Nat → List Key) (owner : Nat) : Prop :=
  ∃ key ∈ keys owner, ∃ rival < owner, key ∈ keys rival

structure Reserved (keys : Nat → List Key) (holder : Key → Option Nat) : Prop where
  claimed : ∀ key owner, holder key = some owner → key ∈ keys owner
  least : ∀ key owner, key ∈ keys owner → ∃ current, holder key = some current ∧ current ≤ owner

variable {holder : Key → Option Nat}

omit [DecidableEq Key] in
theorem Reserved.holder_iff {keys : Nat → List Key} (reserved : Reserved keys holder) (key : Key) (owner : Nat) :
    holder key = some owner ↔ IsLeast {claimant | key ∈ keys claimant} owner := by
  constructor
  · intro held
    refine ⟨reserved.claimed key owner held, ?_⟩
    intro claimant claims
    obtain ⟨current, holds, bound⟩ := reserved.least key claimant claims
    rw [held] at holds
    exact Option.some.inj holds ▸ bound
  · intro least
    obtain ⟨current, holds, bound⟩ := reserved.least key owner least.1
    have other := least.2 (reserved.claimed key current holds)
    rw [holds, Nat.le_antisymm bound other]

omit [DecidableEq Key] in
theorem Reserved.any_below {keys : Nat → List Key} (reserved : Reserved keys holder) (key : Key) (bound : Nat) :
    ((holder key).any fun current => current < bound) = true ↔ ∃ earlier < bound, key ∈ keys earlier := by
  constructor
  · intro below
    cases held : holder key with
    | none =>
      rw [held] at below
      cases below
    | some current =>
      rw [held, Option.any_some, decide_eq_true_eq] at below
      exact ⟨current, below, reserved.claimed key current held⟩
  · intro claimed
    obtain ⟨earlier, below, claims⟩ := claimed
    obtain ⟨current, held, bound⟩ := reserved.least key earlier claims
    rw [held]
    exact decide_eq_true (Nat.lt_of_le_of_lt bound below)

inductive Effect (state : Reservations Key) : Claim Key → Reservations Key → Prop where
  | present {owner key} : state.holder key ≠ none → Effect state (.loadOrStore owner key) state
  | stored {owner key} : state.holder key = none →
      Effect state (.loadOrStore owner key)
        { state with holder := Function.update state.holder key (some owner) }
  | missing {owner key} : state.holder key = none → Effect state (.compare owner key) state
  | own {owner key} : state.holder key = some owner → Effect state (.compare owner key) state
  | taken {owner key current} : state.holder key = some current → owner < current →
      Effect state (.compare owner key)
        { state with
          holder := Function.update state.holder key (some owner)
          lost := Function.update state.lost current true }
  | yielded {owner key current} : state.holder key = some current → current < owner →
      Effect state (.compare owner key)
        { state with failed := Function.update state.failed owner true }
  | stands {owner} : state.failed owner = false → Effect state (.conclude owner) state
  | loses {owner} : state.failed owner = true →
      Effect state (.conclude owner) { state with lost := Function.update state.lost owner true }

theorem act_effect (state : Reservations Key) (action : Claim Key) : Effect state action (state.act action) := by
  cases action with
  | loadOrStore owner key =>
    simp only [act]
    split
    · next held => exact .present (by simp [held])
    · next absent => exact .stored absent
  | compare owner key =>
    simp only [act]
    split
    · next absent => exact .missing absent
    · next current held =>
      split
      · next same => exact .own (same ▸ held)
      · next different =>
        split
        · next smaller => exact .taken held smaller
        · next notSmaller => exact .yielded held (by omega)
  | conclude owner =>
    simp only [act]
    split
    · next failed => exact .loses failed
    · next failed => exact .stands (by simpa using failed)

section Effect

variable {state next : Reservations Key} {action : Claim Key}

theorem Effect.holder_ne_none (effect : Effect state action next) {key : Key} (held : state.holder key ≠ none) : next.holder key ≠ none := by
  cases effect with
  | present | missing | own | yielded | stands | loses => exact held
  | @stored owner other absent =>
    by_cases same : key = other
    · simp [same]
    · simpa [Function.update_of_ne same] using held
  | @taken owner other current =>
    by_cases same : key = other
    · simp [same]
    · simpa [Function.update_of_ne same] using held

theorem Effect.holder_some (effect : Effect state action next) {key : Key} {current : Nat} (held : state.holder key = some current) :
    next.holder key = some current ∨ ∃ owner < current, next.holder key = some owner ∧ next.lost current = true := by
  cases effect with
  | present | missing | own | yielded | stands | loses => exact .inl held
  | @stored owner other absent =>
    have different : key ≠ other := by
      rintro rfl
      simp [held] at absent
    exact .inl (by simpa [Function.update_of_ne different] using held)
  | @taken owner other rival otherHeld smaller =>
    by_cases same : key = other
    · subst same
      rw [held] at otherHeld
      cases otherHeld
      exact .inr ⟨owner, smaller, by simp, by simp⟩
    · exact .inl (by simpa [Function.update_of_ne same] using held)

theorem Effect.lost_mono (effect : Effect state action next) {owner : Nat} (lost : state.lost owner = true) : next.lost owner = true := by
  cases effect with
  | present | stored | missing | own | yielded | stands => exact lost
  | taken | loses =>
    simp only [Function.update_apply]
    split
    · rfl
    · exact lost

theorem Effect.failed_mono (effect : Effect state action next) {owner : Nat}
    (failed : state.failed owner = true) : next.failed owner = true := by
  cases effect with
  | present | stored | missing | own | taken | stands | loses => exact failed
  | yielded =>
    simp only [Function.update_apply]
    split
    · rfl
    · exact failed

end Effect

structure Inv (keys : Nat → List Key) (threads : List (List (Claim Key)))
    (state : Reservations Key) : Prop where
  claims : ∀ thread ∈ threads, ∀ owner key,
    (.loadOrStore owner key ∈ thread ∨ .compare owner key ∈ thread) → key ∈ keys owner
  entered : ∀ thread ∈ threads, ∀ before owner key after,
    thread = before ++ .compare owner key :: after →
    .loadOrStore owner key ∈ before ∨ state.holder key ≠ none
  held : ∀ key owner, state.holder key = some owner → key ∈ keys owner
  settled : ∀ owner, ∀ key ∈ keys owner, (∀ thread ∈ threads, .compare owner key ∉ thread) →
    ∃ current, state.holder key = some current ∧ current ≤ owner ∧
      (current < owner → state.lost owner = true ∨ state.failed owner = true)
  marked : ∀ owner, state.lost owner = true ∨ state.failed owner = true → Blocked keys owner

section Step

variable {keys : Nat → List Key} {before after : List (List (Claim Key))}
  {thread : List (Claim Key)} {action : Claim Key} {state : Reservations Key}

omit [DecidableEq Key] in
private theorem mem_threads {other : List (Claim Key)} (member : other ∈ before ++ thread :: after) :
    other ∈ before ++ (action :: thread) :: after ∨ other = thread := by
  rcases List.mem_append.mp member with early | late
  · exact .inl (List.mem_append_left _ early)
  · rcases List.mem_cons.mp late with same | late
    · exact .inr same
    · exact .inl (List.mem_append_right _ (.tail _ late))

omit [DecidableEq Key] in
private theorem acting_mem : action :: thread ∈ before ++ (action :: thread) :: after :=
  List.mem_append_right _ (.head _)

variable {owner : Nat} {key : Key} {next : Reservations Key}

omit [DecidableEq Key] in
private theorem Inv.claim (inv : Inv keys (before ++ (action :: thread) :: after) state)
    (claiming : action = .loadOrStore owner key ∨ action = .compare owner key) :
    key ∈ keys owner := by
  refine inv.claims _ acting_mem owner key ?_
  rcases claiming with rfl | rfl
  · exact .inl (.head _)
  · exact .inr (.head _)

private theorem Inv.step_held (inv : Inv keys (before ++ (action :: thread) :: after) state)
    (effect : Effect state action next) (key : Key) (owner : Nat)
    (holds : next.holder key = some owner) : key ∈ keys owner := by
  cases effect with
  | present | missing | own | yielded | stands | loses => exact inv.held key owner holds
  | @stored claimant other _ =>
    simp only [Function.update_apply] at holds
    split at holds
    · next same =>
      cases holds
      exact same ▸ inv.claim (.inl rfl)
    · exact inv.held key owner holds
  | @taken claimant other _ _ _ =>
    simp only [Function.update_apply] at holds
    split at holds
    · next same =>
      cases holds
      exact same ▸ inv.claim (.inr rfl)
    · exact inv.held key owner holds

private theorem Inv.step_marked (inv : Inv keys (before ++ (action :: thread) :: after) state)
    (effect : Effect state action next) (owner : Nat)
    (marked : next.lost owner = true ∨ next.failed owner = true) : Blocked keys owner := by
  cases effect with
  | present | stored | missing | own | stands => exact inv.marked owner marked
  | @taken claimant key current holds smaller =>
    by_cases same : owner = current
    · subst same
      exact ⟨key, inv.held key owner holds, claimant, smaller, inv.claim (.inr rfl)⟩
    · exact inv.marked owner (by simpa [Function.update_of_ne same] using marked)
  | @yielded claimant key current holds larger =>
    by_cases same : owner = claimant
    · subst same
      exact ⟨key, inv.claim (.inr rfl), current, larger, inv.held key current holds⟩
    · exact inv.marked owner (by simpa [Function.update_of_ne same] using marked)
  | @loses claimant failed =>
    by_cases same : owner = claimant
    · subst same
      exact inv.marked owner (.inr failed)
    · exact inv.marked owner (by simpa [Function.update_of_ne same] using marked)

private theorem Inv.step_settles (inv : Inv keys (before ++ (.compare owner key :: thread) :: after) state) :
    ∃ current, (state.act (.compare owner key)).holder key = some current ∧ current ≤ owner ∧
      (current < owner → (state.act (.compare owner key)).lost owner = true ∨ (state.act (.compare owner key)).failed owner = true) := by
  have present : state.holder key ≠ none := by
    rcases inv.entered _ acting_mem [] owner key thread rfl with impossible | present
    · cases impossible
    · exact present
  generalize nextEq : state.act (.compare owner key) = next
  have effect := state.act_effect (.compare owner key)
  rw [nextEq] at effect
  cases effect with
  | missing absent => exact absurd absent present
  | own holds => exact ⟨owner, holds, Nat.le_refl _, fun less => absurd less (Nat.lt_irrefl _)⟩
  | taken holds smaller =>
    exact ⟨owner, by simp, Nat.le_refl _, fun less => absurd less (Nat.lt_irrefl _)⟩
  | @yielded _ _ current holds larger =>
    exact ⟨current, holds, Nat.le_of_lt larger, fun _ => .inr (by simp)⟩

private theorem settled_kept (effect : Effect state action next) (settled : ∃ current, state.holder key = some current ∧ current ≤ owner ∧
      (current < owner → state.lost owner = true ∨ state.failed owner = true)) :
    ∃ current, next.holder key = some current ∧ current ≤ owner ∧ (current < owner → next.lost owner = true ∨ next.failed owner = true) := by
  obtain ⟨current, holds, bound, marked⟩ := settled
  have kept : current < owner → next.lost owner = true ∨ next.failed owner = true := by
    intro less
    rcases marked less with lost | failed
    · exact .inl (effect.lost_mono lost)
    · exact .inr (effect.failed_mono failed)
  rcases effect.holder_some holds with same | ⟨rival, smaller, taken, lost⟩
  · exact ⟨current, same, bound, kept⟩
  · refine ⟨rival, taken, by omega, ?_⟩
    intro _
    rcases Nat.lt_or_eq_of_le bound with less | same
    · exact kept less
    · exact .inl (same ▸ lost)

theorem Inv.step (inv : Inv keys (before ++ (action :: thread) :: after) state) :
    Inv keys (before ++ thread :: after) (state.act action) where
  claims := by
    intro other member owner key claim
    rcases mem_threads member with old | rfl
    · exact inv.claims other old owner key claim
    · refine inv.claims _ acting_mem owner key ?_
      exact claim.imp (.tail _) (.tail _)
  entered := by
    intro other member early owner key late shape
    have kept : state.holder key ≠ none → (state.act action).holder key ≠ none :=
      (state.act_effect action).holder_ne_none
    rcases mem_threads member with old | rfl
    · exact (inv.entered other old early owner key late shape).imp id kept
    · rcases inv.entered _ acting_mem (action :: early) owner key late (by rw [shape]; rfl) with
        entered | present
      · rcases List.mem_cons.mp entered with now | entered
        · subst now
          refine .inr ?_
          have effect := state.act_effect (.loadOrStore owner key)
          generalize state.act (.loadOrStore owner key) = next at effect
          cases effect with
          | present held => exact held
          | stored _ => simp
        · exact .inl entered
      · exact .inr (kept present)
  held := inv.step_held (state.act_effect action)
  settled := by
    intro owner key claimed settled
    by_cases now : action = .compare owner key
    · subst now
      exact inv.step_settles
    · refine settled_kept (state.act_effect action) (inv.settled owner key claimed ?_)
      intro other member compared
      rcases List.mem_append.mp member with early | late
      · exact settled other (List.mem_append_left _ early) compared
      · rcases List.mem_cons.mp late with rfl | late
        · rcases List.mem_cons.mp compared with same | compared
          · exact now same.symm
          · exact settled thread (List.mem_append_right _ (.head _)) compared
        · exact settled other (List.mem_append_right _ (.tail _ late)) compared
  marked := inv.step_marked (state.act_effect action)

structure Concluding (threads : List (List (Claim Key))) (state : Reservations Key) : Prop where
  pending : ∀ thread ∈ threads, ∀ early owner key late,
    thread = early ++ .compare owner key :: late → .conclude owner ∈ late
  failed : ∀ owner, state.failed owner = true →
    state.lost owner = true ∨ ∃ thread ∈ threads, .conclude owner ∈ thread

theorem Concluding.step (concluding : Concluding (before ++ (action :: thread) :: after) state) :
    Concluding (before ++ thread :: after) (state.act action) where
  pending := by
    intro other member early owner key late shape
    rcases mem_threads member with old | rfl
    · exact concluding.pending other old early owner key late shape
    · exact concluding.pending _ acting_mem (action :: early) owner key late (by rw [shape]; rfl)
  failed := by
    intro owner failed
    have resting : thread ∈ before ++ thread :: after := List.mem_append_right _ (.head _)
    have kept : (state.lost owner = true ∨ ∃ other ∈ before ++ (action :: thread) :: after, .conclude owner ∈ other) →
        action ≠ .conclude owner → (state.act action).lost owner = true ∨ ∃ other ∈ before ++ thread :: after, .conclude owner ∈ other := by
      intro old different
      rcases old with lost | ⟨other, member, concludes⟩
      · exact .inl ((state.act_effect action).lost_mono lost)
      · rcases List.mem_append.mp member with early | late
        · exact .inr ⟨other, List.mem_append_left _ early, concludes⟩
        · rcases List.mem_cons.mp late with rfl | late
          · rcases List.mem_cons.mp concludes with same | concludes
            · exact absurd same.symm different
            · exact .inr ⟨thread, resting, concludes⟩
          · exact .inr ⟨other, List.mem_append_right _ (.tail _ late), concludes⟩
    have effect := state.act_effect action
    generalize nextEq : state.act action = next at *
    cases effect with
    | present | stored | missing | own | taken =>
      exact kept (concluding.failed owner failed) (by simp)
    | @yielded claimant key current =>
      by_cases same : owner = claimant
      · subst same
        exact .inr ⟨thread, resting, concluding.pending _ acting_mem [] owner key thread rfl⟩
      · refine kept (concluding.failed owner ?_) (by simp)
        simpa [Function.update_of_ne same] using failed
    | @stands claimant standing =>
      have different : claimant ≠ owner := by
        rintro rfl
        rw [standing] at failed
        cases failed
      exact kept (concluding.failed owner failed) (by simpa using different)
    | @loses claimant _ =>
      by_cases same : owner = claimant
      · exact .inl (by simp [same])
      · exact kept (concluding.failed owner failed) (by simpa using Ne.symm same)

end Step

section Runs

def observe (holder : Key → Option Nat) : Claim Key → Key → Option Nat
  | .loadOrStore owner key =>
    match holder key with
    | some _ => holder
    | none => Function.update holder key (some owner)
  | .compare owner key =>
    match holder key with
    | none => holder
    | some current =>
      if current = owner then holder
      else if owner < current then Function.update holder key (some owner)
      else holder
  | .conclude _ => holder

theorem act_holder (state : Reservations Key) (action : Claim Key) : (state.act action).holder = observe state.holder action := by
  cases action with
  | loadOrStore owner key =>
    simp only [act, observe]
    split
    · rfl
    · rfl
  | compare owner key =>
    simp only [act, observe]
    split
    · rfl
    · split
      · rfl
      · split
        · rfl
        · rfl
  | conclude owner =>
    simp only [act, observe]
    split
    · rfl
    · rfl

theorem foldl_act_holder (word : List (Claim Key)) (state : Reservations Key) :
    (word.foldl act state).holder = word.foldl observe state.holder := by
  induction word generalizing state with
  | nil => rfl
  | cons action word ih => rw [List.foldl_cons, List.foldl_cons, ih, act_holder]

omit [DecidableEq Key] in
private theorem claimThread_cons (owner : Nat) (key : Key) (keys : List Key) : claimThread owner (key :: keys) =
      .loadOrStore owner key :: .compare owner key :: claimThread owner keys := rfl

omit [DecidableEq Key] in
private theorem claimThread_split {owner claimant : Nat} {keys : List Key} {key : Key}
    {tail early late : List (Claim Key)} (noCompare : ∀ o k, .compare o k ∉ tail)
    (shape : claimThread owner keys ++ tail = early ++ .compare claimant key :: late) :
    .loadOrStore claimant key ∈ early ∧ claimant = owner ∧ key ∈ keys ∧ ∃ rest, late = rest ++ tail := by
  induction keys generalizing early with
  | nil =>
    have member : .compare claimant key ∈ tail := by
      have inShape : .compare claimant key ∈ claimThread owner [] ++ tail := by
        rw [shape]
        simp
      exact inShape
    exact absurd member (noCompare claimant key)
  | cons first rest ih =>
    rw [claimThread_cons] at shape
    match early, shape with
    | [_], shape =>
      simp only [List.cons_append, List.nil_append, List.cons.injEq, Claim.compare.injEq] at shape
      obtain ⟨rfl, ⟨rfl, rfl⟩, rfl⟩ := shape
      exact ⟨.head _, rfl, .head _, _, rfl⟩
    | _ :: _ :: early, shape =>
      simp only [List.cons_append, List.cons.injEq] at shape
      obtain ⟨entered, sameOwner, member, tailed⟩ := ih shape.2.2
      exact ⟨.tail _ (.tail _ entered), sameOwner, .tail _ member, tailed⟩

omit [DecidableEq Key] in
private theorem mem_claimThread {owner claimant : Nat} {keys : List Key} {key : Key} :
    (.loadOrStore claimant key ∈ claimThread owner keys ↔ claimant = owner ∧ key ∈ keys) ∧
      (.compare claimant key ∈ claimThread owner keys ↔ claimant = owner ∧ key ∈ keys) := by
  simp only [claimThread, List.mem_flatMap, List.mem_cons, List.not_mem_nil, or_false,
    Claim.loadOrStore.injEq, Claim.compare.injEq, reduceCtorEq, false_or]
  constructor
  · constructor
    · rintro ⟨_, member, rfl, rfl⟩
      exact ⟨rfl, member⟩
    · rintro ⟨rfl, member⟩
      exact ⟨key, member, rfl, rfl⟩
  · constructor
    · rintro ⟨_, member, rfl, rfl⟩
      exact ⟨rfl, member⟩
    · rintro ⟨rfl, member⟩
      exact ⟨key, member, rfl, rfl⟩

variable {keys : Nat → List Key} {count : Nat}

omit [DecidableEq Key] in
private theorem inv_init (tail : Nat → List (Claim Key)) (noClaim : ∀ owner o k, .loadOrStore o k ∉ tail owner ∧ .compare o k ∉ tail owner)
    (beyond : ∀ owner, count ≤ owner → keys owner = []) :
    Inv keys ((List.range count).map fun owner => claimThread owner (keys owner) ++ tail owner) init where
  claims := by
    intro thread member owner key claim
    obtain ⟨claimant, _, rfl⟩ := List.mem_map.mp member
    simp only [List.mem_append, noClaim, or_false, mem_claimThread] at claim
    rcases claim with ⟨rfl, claimed⟩ | ⟨rfl, claimed⟩
    · exact claimed
    · exact claimed
  entered := by
    intro thread member early owner key late shape
    obtain ⟨claimant, _, rfl⟩ := List.mem_map.mp member
    exact .inl (claimThread_split (fun o k => (noClaim claimant o k).2) shape).1
  held := by
    intro key owner holds
    cases holds
  settled := by
    intro owner key claimed absent
    have inside : owner < count := by
      by_contra outside
      rw [beyond owner (by omega)] at claimed
      cases claimed
    refine absurd ?_ (absent _ (List.mem_map.mpr ⟨owner, List.mem_range.mpr inside, rfl⟩))
    exact List.mem_append_left _ (mem_claimThread.2.mpr ⟨rfl, claimed⟩)
  marked := by
    rintro owner (lost | failed)
    · cases lost
    · cases failed

omit [DecidableEq Key] in
private theorem reserved_of_inv {threads : List (List (Claim Key))} {state : Reservations Key}
    (finished : ∀ thread ∈ threads, thread = []) (inv : Inv keys threads state) :
    Reserved keys state.holder where
  claimed := inv.held
  least := by
    intro key owner claimed
    obtain ⟨current, holds, bound, _⟩ := inv.settled owner key claimed (by
      intro thread member compared
      rw [finished thread member] at compared
      cases compared)
    exact ⟨current, holds, bound⟩

theorem observe_run (beyond : ∀ owner, count ≤ owner → keys owner = []) {word : List (Claim Key)}
    (interleaves : Interleaves ((List.range count).map fun owner => claimThread owner (keys owner)) word) :
    Reserved keys (word.foldl observe fun _ => none) := by
  have start : Inv keys ((List.range count).map fun owner => claimThread owner (keys owner)) (init : Reservations Key) := by
    have plain := inv_init (fun _ => []) (by simp) beyond
    simpa only [List.append_nil] using plain
  obtain ⟨threads, _, finished, inv⟩ := interleaves.invariant act (Inv keys) (fun _ _ _ _ _ => Inv.step) start
  have reserved := reserved_of_inv finished inv
  rw [foldl_act_holder] at reserved
  exact reserved

theorem reserve_run (beyond : ∀ owner, count ≤ owner → keys owner = []) {word : List (Claim Key)}
    (interleaves : Interleaves ((List.range count).map fun owner =>
      claimThread owner (keys owner) ++ [.conclude owner]) word) :
    Reserved keys (word.foldl act init).holder ∧ ∀ owner, (word.foldl act init).lost owner = true ↔ Blocked keys owner := by
  have start : Inv keys ((List.range count).map fun owner =>
      claimThread owner (keys owner) ++ [.conclude owner]) init :=
    inv_init (fun owner => [.conclude owner]) (by simp) beyond
  have startConcluding : Concluding ((List.range count).map fun owner =>
      claimThread owner (keys owner) ++ [.conclude owner]) (init : Reservations Key) := by
    constructor
    · intro thread member early owner key late shape
      obtain ⟨claimant, _, rfl⟩ := List.mem_map.mp member
      obtain ⟨_, rfl, _, rest, rfl⟩ := claimThread_split (by simp) shape
      simp
    · intro owner failed
      cases failed
  obtain ⟨threads, _, finished, inv, concluding⟩ := interleaves.invariant act
    (fun threads state => Inv keys threads state ∧ Concluding threads state)
    (fun _ _ _ _ _ both => ⟨both.1.step, both.2.step⟩) ⟨start, startConcluding⟩
  refine ⟨reserved_of_inv finished inv, fun owner => ⟨fun lost => inv.marked owner (.inl lost), ?_⟩⟩
  rintro ⟨key, claimed, rival, smaller, rivalClaimed⟩
  have idle : ∀ thread ∈ threads, ∀ action : Claim Key, action ∉ thread := by
    intro thread member action present
    rw [finished thread member] at present
    cases present
  obtain ⟨holder, holds, _, marked⟩ := inv.settled owner key claimed fun thread member => idle thread member _
  obtain ⟨holder', holds', bound', _⟩ := inv.settled rival key rivalClaimed fun thread member => idle thread member _
  have same : holder' = holder := Option.some.inj (holds'.symm.trans holds)
  rcases marked (by omega) with lost | failed
  · exact lost
  · rcases concluding.failed owner failed with lost | ⟨thread, member, concludes⟩
    · exact lost
    · exact absurd concludes (idle thread member _)

end Runs

end Reservations

end Pdcc.Library
