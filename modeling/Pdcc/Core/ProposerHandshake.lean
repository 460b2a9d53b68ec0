import Mathlib.Logic.Function.Basic
import Pdcc.Library.Runs

/-!
# The handshake of the deterministic proposer

A call of `proposeBlock` marks the proposer as busy, starts a proposing run and waits on
the unbuffered channel `finishProposeC`. The end of a run and a yield signal are told
through the same function `yieldProposing`, which sends on the channel while it holds
`idleMu`. The sections under the mutex that do not block are one step each.
-/

set_option autoImplicit false

namespace Pdcc.Core.Proposer

open Library

inductive Yielder where
  | run (call : Nat)
  | signal (number : Nat)
  deriving DecidableEq, Repr

inductive CallPhase where
  | absent
  | shouldPropose
  | isIdle
  | setNotIdle
  | starting
  | started
  | waiting
  | setIdle (finishedBy : Yielder)
  | returned (finishedBy : Option Yielder)
  deriving DecidableEq, Repr

inductive YieldPhase where
  | absent
  | proposing
  | locking
  | sending
  | sent
  | left
  deriving DecidableEq, Repr

structure State where
  idle : Bool
  idleMu : Option Yielder
  calls : Nat → CallPhase
  yielders : Yielder → YieldPhase

def init : State := ⟨true, none, fun _ => .absent, fun _ => .absent⟩

inductive Action where
  | proposeBlock (call : Nat)
  | shouldProposeByBFT (call : Nat) (heightFits : Bool)
  | isIdle (call : Nat)
  | setNotIdle (call : Nat)
  | goProposing (call : Nat)
  | waitFinish (call : Nat)
  | setIdle (call : Nat)
  | proposed (call : Nat)
  | onReceiveYieldProposeSignal (number : Nat)
  | lock (yielder : Yielder)
  | finish (yielder : Yielder) (call : Nat)
  | unlock (yielder : Yielder)
  deriving DecidableEq, Repr

namespace State

variable (s : State)

def setCall (call : Nat) (phase : CallPhase) : State :=
  { s with calls := Function.update s.calls call phase }

def setYielder (yielder : Yielder) (phase : YieldPhase) : State :=
  { s with yielders := Function.update s.yielders yielder phase }

@[simp] theorem setCall_calls (call : Nat) (phase : CallPhase) (other : Nat) :
    (s.setCall call phase).calls other = if other = call then phase else s.calls other :=
  Function.update_apply s.calls call phase other

@[simp] theorem setCall_yielders (call : Nat) (phase : CallPhase) : (s.setCall call phase).yielders = s.yielders := rfl

@[simp] theorem setYielder_yielders (yielder : Yielder) (phase : YieldPhase) (other : Yielder) :
    (s.setYielder yielder phase).yielders other = if other = yielder then phase else s.yielders other :=
  Function.update_apply s.yielders yielder phase other

def locked (call : Nat) (phase : CallPhase) (section_ : State) : Option State :=
  if s.calls call = phase ∧ s.idleMu = none then some section_ else none

def whenIdle (call : Nat) (next : State) : State :=
  if s.idle then next else s.setCall call (.returned none)

def step (s : State) : Action → Option State
  | .proposeBlock call =>
    if s.calls call = .absent then some (s.setCall call .shouldPropose) else none
  | .shouldProposeByBFT call heightFits =>
    s.locked call .shouldPropose (s.whenIdle call
      (s.setCall call (if heightFits then .isIdle else .returned none)))
  | .isIdle call => s.locked call .isIdle (s.whenIdle call (s.setCall call .setNotIdle))
  | .setNotIdle call =>
    s.locked call .setNotIdle (s.whenIdle call ({ s with idle := false }.setCall call .starting))
  | .goProposing call =>
    if s.calls call = .starting then
      some ((s.setCall call .started).setYielder (.run call) .proposing)
    else none
  | .waitFinish call =>
    if s.calls call = .started then some (s.setCall call .waiting) else none
  | .setIdle call =>
    match s.calls call with
    | .setIdle finishedBy =>
      if s.idleMu = none then
        some ({ s with idle := true }.setCall call (.returned (some finishedBy)))
      else none
    | _ => none
  | .proposed call =>
    if s.yielders (.run call) = .proposing then some (s.setYielder (.run call) .locking)
    else none
  | .onReceiveYieldProposeSignal number =>
    if s.yielders (.signal number) = .absent then
      some (s.setYielder (.signal number) .locking)
    else none
  | .lock yielder =>
    if s.yielders yielder = .locking ∧ s.idleMu = none then
      some (if s.idle then s.setYielder yielder .left
        else { s with idleMu := some yielder }.setYielder yielder .sending)
    else none
  | .finish yielder call =>
    if s.yielders yielder = .sending ∧ s.calls call = .waiting then
      some ((s.setYielder yielder .sent).setCall call (.setIdle yielder))
    else none
  | .unlock yielder =>
    if s.yielders yielder = .sent then
      some ({ s with idleMu := none }.setYielder yielder .left)
    else none

end State

/-- A run is active until its deferred `yieldProposing` is over. -/
def Active (s : State) (call : Nat) : Prop :=
  s.yielders (.run call) ≠ .absent ∧ s.yielders (.run call) ≠ .left

/-- No two runs propose at the same time. -/
def AtMostOneActive (s : State) : Prop :=
  ∀ call other, Active s call → Active s other → call = other

def CallPhase.finishedBy : CallPhase → Option Yielder
  | .setIdle finishedBy => some finishedBy
  | .returned finishedBy => finishedBy
  | _ => none

/-- A call that waits for its run goes on because of this run or of a yield signal. -/
def FinishedDuly (s : State) : Prop :=
  ∀ call yielder, (s.calls call).finishedBy = some yielder →
    yielder = .run call ∨ ∃ number, yielder = .signal number

def CallPhase.receives : CallPhase → Bool
  | .starting | .started | .waiting => true
  | _ => false

/-- Somebody sends with the mutex held, and nobody will receive. -/
def Deadlocked (s : State) : Prop :=
  ∃ yielder, s.yielders yielder = .sending ∧ s.idleMu = some yielder ∧
    ∀ call, (s.calls call).receives = false

/-- A yield signal finds the proposer idle, so that it sends nothing. -/
def Quiet (s : State) : Action → Prop
  | .lock (.signal _) => s.idle = true
  | _ => True

instance (s : State) (action : Action) : Decidable (Quiet s action) := by
  unfold Quiet
  split <;> infer_instance

/-! Without signals that send, the call that has made the proposer busy and its run go
through their phases together, and everything else is at rest. -/

inductive AtRest (call : Nat) : CallPhase → YieldPhase → Prop where
  | absent : AtRest call .absent .absent
  | shouldPropose : AtRest call .shouldPropose .absent
  | isIdle : AtRest call .isIdle .absent
  | setNotIdle : AtRest call .setNotIdle .absent
  | refused : AtRest call (.returned none) .absent
  | returned : AtRest call (.returned (some (.run call))) .left

inductive Engaged (call : Nat) : CallPhase → YieldPhase → Option Yielder → Prop where
  | starting : Engaged call .starting .absent none
  | proposing {phase run} : phase = .started ∨ phase = .waiting →
      run = .proposing ∨ run = .locking → Engaged call phase run none
  | sending {phase} : phase = .started ∨ phase = .waiting →
      Engaged call phase .sending (some (.run call))
  | sent : Engaged call (.setIdle (.run call)) .sent (some (.run call))
  | left : Engaged call (.setIdle (.run call)) .left none

variable {call : Nat}

theorem AtRest.absent_of_early {phase : CallPhase} {run : YieldPhase} (early : phase = .shouldPropose ∨ phase = .isIdle ∨ phase = .setNotIdle)
    (rest : AtRest call phase run) : run = .absent := by
  cases rest with
  | returned => simp at early
  | _ => rfl

theorem AtRest.inactive {phase : CallPhase} {run : YieldPhase} (rest : AtRest call phase run) : run = .absent ∨ run = .left := by
  cases rest with
  | returned => exact .inr rfl
  | _ => exact .inl rfl

namespace Engaged

variable {call : Nat} {phase : CallPhase} {run : YieldPhase} {holder : Option Yielder}

theorem goProposing (engaged : Engaged call .starting run holder) : Engaged call .started .proposing holder := by
  cases engaged with
  | starting => exact .proposing (.inl rfl) (.inl rfl)
  | proposing waits _ => simp at waits
  | sending waits => simp at waits

theorem waitFinish (engaged : Engaged call .started run holder) : Engaged call .waiting run holder := by
  cases engaged with
  | proposing _ run => exact .proposing (.inr rfl) run
  | sending _ => exact .sending (.inr rfl)

theorem proposed (engaged : Engaged call phase .proposing holder) : Engaged call phase .locking holder := by
  cases engaged with
  | proposing waits _ => exact .proposing waits (.inr rfl)

theorem lock (engaged : Engaged call phase .locking holder) : Engaged call phase .sending (some (.run call)) := by
  cases engaged with
  | proposing waits _ => exact .sending waits

theorem finish (engaged : Engaged call phase .sending holder) : Engaged call (.setIdle (.run call)) .sent holder := by
  cases engaged with
  | proposing _ run => simp at run
  | sending _ => exact .sent

theorem unlock (engaged : Engaged call phase .sent holder) : Engaged call phase .left none := by
  cases engaged with
  | proposing _ run => simp at run
  | sent => exact .left

theorem setIdle {finishedBy : Yielder} (engaged : Engaged call (.setIdle finishedBy) run none) :
    AtRest call (.returned (some finishedBy)) run := by
  cases engaged with
  | proposing waits _ => simp at waits
  | left => exact .returned

end Engaged

structure SignalsAtRest (s : State) : Prop where
  phase : ∀ number, s.yielders (.signal number) = .absent ∨
    s.yielders (.signal number) = .locking ∨ s.yielders (.signal number) = .left

structure Free (s : State) : Prop extends SignalsAtRest s where
  idle : s.idle = true
  unlocked : s.idleMu = none
  calls : ∀ call, AtRest call (s.calls call) (s.yielders (.run call))

structure Busy (s : State) (call : Nat) : Prop extends SignalsAtRest s where
  busy : s.idle = false
  engaged : Engaged call (s.calls call) (s.yielders (.run call)) s.idleMu
  others : ∀ other, other ≠ call → AtRest other (s.calls other) (s.yielders (.run other))

def Coherent (s : State) : Prop := Free s ∨ ∃ call, Busy s call

theorem coherent_init : Coherent init :=
  .inl ⟨⟨fun _ => .inl rfl⟩, rfl, rfl, fun _ => .absent⟩

namespace Coherent

variable {s : State} {call : Nat}

theorem busy_of_moving (coherent : Coherent s) (moving : ¬ AtRest call (s.calls call) (s.yielders (.run call))) : Busy s call := by
  rcases coherent with free | ⟨owner, busy⟩
  · exact absurd (free.calls call) moving
  · by_cases same : call = owner
    · exact same ▸ busy
    · exact absurd (busy.others call same) moving

theorem free_of_idle (coherent : Coherent s) (idle : s.idle = true) : Free s := by
  rcases coherent with free | ⟨owner, busy⟩
  · exact free
  · rw [busy.busy] at idle
    cases idle

theorem setCall (coherent : Coherent s) {phase : CallPhase} (rests : ∀ run holder, ¬ Engaged call (s.calls call) run holder)
    (moves : ∀ run, AtRest call (s.calls call) run → AtRest call phase run) :
    Coherent (s.setCall call phase) := by
  have kept (other : Nat) (rest : AtRest other (s.calls other) (s.yielders (.run other))) :
      AtRest other ((s.setCall call phase).calls other) (s.yielders (.run other)) := by
    by_cases same : other = call
    · subst same
      rw [State.setCall_calls, if_pos rfl]
      exact moves _ rest
    · rw [State.setCall_calls, if_neg same]
      exact rest
  rcases coherent with free | ⟨owner, busy⟩
  · exact .inl ⟨⟨free.phase⟩, free.idle, free.unlocked, fun other => kept other (free.calls other)⟩
  · have different : owner ≠ call := by
      intro same
      exact rests _ _ (same ▸ busy.engaged)
    refine .inr ⟨owner, ⟨busy.phase⟩, busy.busy, ?_, fun other apart => kept other (busy.others other apart)⟩
    rw [State.setCall_calls, if_neg different]
    exact busy.engaged

theorem setSignal (coherent : Coherent s) (number : Nat) {phase : YieldPhase} (rests : phase = .locking ∨ phase = .left) :
    Coherent (s.setYielder (.signal number) phase) := by
  have runs (other : Nat) : (s.setYielder (.signal number) phase).yielders (.run other) = s.yielders (.run other) := by simp
  have signals (before : SignalsAtRest s) : SignalsAtRest (s.setYielder (.signal number) phase) := by
    refine ⟨fun other => ?_⟩
    by_cases same : other = number
    · subst same
      rw [State.setYielder_yielders, if_pos rfl]
      exact .inr rests
    · rw [State.setYielder_yielders, if_neg (by simpa using same)]
      exact before.phase other
  rcases coherent with free | ⟨owner, busy⟩
  · exact .inl ⟨signals free.toSignalsAtRest, free.idle, free.unlocked, fun other => by rw [runs]; exact free.calls other⟩
  · exact .inr ⟨owner, signals busy.toSignalsAtRest, busy.busy, by rw [runs]; exact busy.engaged,
      fun other apart => by rw [runs]; exact busy.others other apart⟩

end Coherent

theorem Busy.move {s after : State} {phase : CallPhase} {run : YieldPhase} (signals : SignalsAtRest s)
    (others : ∀ other, other ≠ call → AtRest other (s.calls other) (s.yielders (.run other)))
    (idle : after.idle = false) (engaged : Engaged call phase run after.idleMu)
    (calls : after.calls = Function.update s.calls call phase)
    (yielders : after.yielders = Function.update s.yielders (.run call) run) :
    Busy after call where
  phase := fun number => by
    rw [yielders, Function.update_of_ne (by simp)]
    exact signals.phase number
  busy := idle
  engaged := by
    rw [calls, yielders, Function.update_self, Function.update_self]
    exact engaged
  others := fun other apart => by
    rw [calls, yielders, Function.update_of_ne apart, Function.update_of_ne (by simpa using apart)]
    exact others other apart

namespace Coherent

variable {s after : State} {action : Action} {call : Nat}

theorem whenIdle (coherent : Coherent s) {next : CallPhase}
    (early : s.calls call = .shouldPropose ∨ s.calls call = .isIdle ∨ s.calls call = .setNotIdle)
    (rests : next = .isIdle ∨ next = .setNotIdle ∨ next = .returned none) :
    Coherent (s.whenIdle call (s.setCall call next)) := by
  have moves (phase : CallPhase) (outside : phase = .isIdle ∨ phase = .setNotIdle ∨ phase = .returned none) :
      Coherent (s.setCall call phase) := by
    refine coherent.setCall ?_ ?_
    · intro run holder engaged
      rcases early with early | early | early <;> (rw [early] at engaged; cases engaged <;> simp_all)
    · intro run rest
      obtain rfl := rest.absent_of_early early
      rcases outside with rfl | rfl | rfl
      · exact .isIdle
      · exact .setNotIdle
      · exact .refused
  rw [State.whenIdle]
  split
  · exact moves next rests
  · exact moves _ (.inr (.inr rfl))

theorem setNotIdle (coherent : Coherent s) (phase : s.calls call = .setNotIdle)
    (idle : s.idle = true) : Coherent ({ s with idle := false }.setCall call .starting) := by
  have free := coherent.free_of_idle idle
  have absent := (free.calls call).absent_of_early (.inr (.inr phase))
  have engaged : Engaged call .starting (s.yielders (.run call)) s.idleMu := by
    rw [absent, free.unlocked]
    exact .starting
  exact .inr ⟨call, .move free.toSignalsAtRest (fun other _ => free.calls other) rfl engaged rfl (Function.update_eq_self _ _).symm⟩

theorem goProposing (coherent : Coherent s) (phase : s.calls call = .starting) :
    Coherent ((s.setCall call .started).setYielder (.run call) .proposing) := by
  have busy : Busy s call := coherent.busy_of_moving (by rw [phase]; rintro ⟨⟩)
  have engaged := busy.engaged
  rw [phase] at engaged
  exact .inr ⟨call, .move busy.toSignalsAtRest busy.others busy.busy engaged.goProposing rfl rfl⟩

theorem waitFinish (coherent : Coherent s) (phase : s.calls call = .started) : Coherent (s.setCall call .waiting) := by
  have busy : Busy s call := coherent.busy_of_moving (by rw [phase]; rintro ⟨⟩)
  have engaged := busy.engaged
  rw [phase] at engaged
  exact .inr ⟨call, .move busy.toSignalsAtRest busy.others busy.busy engaged.waitFinish rfl (Function.update_eq_self _ _).symm⟩

theorem setIdle (coherent : Coherent s) {finishedBy : Yielder} (phase : s.calls call = .setIdle finishedBy) (unlocked : s.idleMu = none) :
    Coherent ({ s with idle := true }.setCall call (.returned (some finishedBy))) := by
  have busy : Busy s call := coherent.busy_of_moving (by rw [phase]; rintro ⟨⟩)
  have engaged := busy.engaged
  rw [phase, unlocked] at engaged
  refine .inl ⟨⟨busy.phase⟩, rfl, unlocked, fun other => ?_⟩
  by_cases same : other = call
  · subst same
    simpa using engaged.setIdle
  · simpa [same] using busy.others other same

theorem proposed (coherent : Coherent s) (phase : s.yielders (.run call) = .proposing) : Coherent (s.setYielder (.run call) .locking) := by
  have busy : Busy s call :=
    coherent.busy_of_moving fun rest => by simpa [phase] using rest.inactive
  have engaged := busy.engaged
  rw [phase] at engaged
  exact .inr ⟨call, .move busy.toSignalsAtRest busy.others busy.busy engaged.proposed (Function.update_eq_self _ _).symm rfl⟩

theorem lockRun (coherent : Coherent s) (phase : s.yielders (.run call) = .locking) : Coherent (if s.idle then s.setYielder (.run call) .left
      else { s with idleMu := some (.run call) }.setYielder (.run call) .sending) := by
  have busy : Busy s call :=
    coherent.busy_of_moving fun rest => by simpa [phase] using rest.inactive
  have engaged := busy.engaged
  rw [phase] at engaged
  rw [if_neg (by simp [busy.busy])]
  exact .inr ⟨call, .move busy.toSignalsAtRest busy.others busy.busy engaged.lock (Function.update_eq_self _ _).symm rfl⟩

variable {yielder : Yielder}

theorem run_of_sending (coherent : Coherent s) (sends : s.yielders yielder = .sending ∨ s.yielders yielder = .sent) :
    ∃ call, yielder = .run call ∧ Busy s call := by
  cases yielder with
  | run call =>
    refine ⟨call, rfl, coherent.busy_of_moving fun rest => ?_⟩
    rcases rest.inactive with rest | rest <;> simp [rest] at sends
  | signal number =>
    have rests : SignalsAtRest s := by
      rcases coherent with free | ⟨_, busy⟩
      · exact free.toSignalsAtRest
      · exact busy.toSignalsAtRest
    rcases rests.phase number with rest | rest | rest <;> simp [rest] at sends

theorem finish (coherent : Coherent s) (sending : s.yielders yielder = .sending) (waiting : s.calls call = .waiting) :
    Coherent ((s.setYielder yielder .sent).setCall call (.setIdle yielder)) := by
  obtain ⟨owner, rfl, busy⟩ := coherent.run_of_sending (.inl sending)
  have same : call = owner := by
    by_contra apart
    have rest := busy.others call apart
    rw [waiting] at rest
    cases rest
  subst same
  have engaged := busy.engaged
  rw [sending] at engaged
  exact .inr ⟨call, .move busy.toSignalsAtRest busy.others busy.busy engaged.finish rfl rfl⟩

theorem unlock (coherent : Coherent s) (sent : s.yielders yielder = .sent) :
    Coherent ({ s with idleMu := none }.setYielder yielder .left) := by
  obtain ⟨call, rfl, busy⟩ := coherent.run_of_sending (.inr sent)
  have engaged := busy.engaged
  rw [sent] at engaged
  exact .inr ⟨call, .move busy.toSignalsAtRest busy.others busy.busy engaged.unlock (Function.update_eq_self _ _).symm rfl⟩

theorem of_guarded {condition : Prop} [Decidable condition] {next : State}
    (moved : (if condition then some next else none) = some after) : condition ∧ next = after := by
  simpa only [Option.ite_none_right_eq_some, Option.some.injEq] using moved

theorem step (coherent : Coherent s) (quiet : Quiet s action) (moved : s.step action = some after) : Coherent after := by
  cases action with
  | proposeBlock call =>
    obtain ⟨phase, rfl⟩ := of_guarded moved
    refine coherent.setCall ?_ ?_
    · rw [phase]
      intro run holder engaged
      cases engaged <;> simp_all
    · rw [phase]
      intro run rest
      cases rest
      exact .shouldPropose
  | shouldProposeByBFT call heightFits =>
    obtain ⟨⟨phase, _⟩, rfl⟩ := of_guarded moved
    refine coherent.whenIdle (.inl phase) ?_
    cases heightFits <;> simp
  | isIdle call =>
    obtain ⟨⟨phase, _⟩, rfl⟩ := of_guarded moved
    exact coherent.whenIdle (.inr (.inl phase)) (.inr (.inl rfl))
  | setNotIdle call =>
    obtain ⟨⟨phase, _⟩, rfl⟩ := of_guarded moved
    cases idle : s.idle with
    | true =>
      rw [State.whenIdle, if_pos idle]
      exact coherent.setNotIdle phase idle
    | false =>
      have refused := coherent.whenIdle (.inr (.inr phase)) (.inr (.inr rfl))
      rw [State.whenIdle, if_neg (by simp [idle])] at refused ⊢
      exact refused
  | goProposing call =>
    obtain ⟨phase, rfl⟩ := of_guarded moved
    exact coherent.goProposing phase
  | waitFinish call =>
    obtain ⟨phase, rfl⟩ := of_guarded moved
    exact coherent.waitFinish phase
  | setIdle call =>
    simp only [State.step] at moved
    cases phase : s.calls call with
    | setIdle finishedBy =>
      simp only [phase, Option.ite_none_right_eq_some, Option.some.injEq] at moved
      obtain ⟨unlocked, rfl⟩ := moved
      exact coherent.setIdle phase unlocked
    | _ => simp [phase] at moved
  | proposed call =>
    obtain ⟨phase, rfl⟩ := of_guarded moved
    exact coherent.proposed phase
  | onReceiveYieldProposeSignal number =>
    obtain ⟨_, rfl⟩ := of_guarded moved
    exact coherent.setSignal number (.inl rfl)
  | lock yielder =>
    obtain ⟨⟨phase, _⟩, rfl⟩ := of_guarded moved
    cases yielder with
    | run call => exact coherent.lockRun phase
    | signal number =>
      rw [if_pos (show s.idle = true from quiet)]
      exact coherent.setSignal number (.inr rfl)
  | finish yielder call =>
    obtain ⟨⟨sending, waiting⟩, rfl⟩ := of_guarded moved
    exact coherent.finish sending waiting
  | unlock yielder =>
    obtain ⟨sent, rfl⟩ := of_guarded moved
    exact coherent.unlock sent

theorem of_run (run : Run State.step Quiet init s) : Coherent s :=
  run.invariant Coherent coherent_init fun _ _ _ coherent quiet moved => coherent.step quiet moved

theorem busy_of_active (coherent : Coherent s) (active : Active s call) : Busy s call :=
  coherent.busy_of_moving fun rest => rest.inactive.elim active.1 active.2

theorem atMostOneActive (coherent : Coherent s) : AtMostOneActive s := by
  intro call other active otherActive
  have busy := coherent.busy_of_active active
  by_contra apart
  exact (busy.others other (Ne.symm apart)).inactive.elim otherActive.1 otherActive.2

theorem finishedDuly (coherent : Coherent s) : FinishedDuly s := by
  have rested {call : Nat} {phase : CallPhase} {run : YieldPhase} {yielder : Yielder}
      (rest : AtRest call phase run) (finished : phase.finishedBy = some yielder) :
      yielder = .run call := by
    cases rest <;> cases finished
    rfl
  have moved {call : Nat} {phase : CallPhase} {run : YieldPhase} {holder : Option Yielder}
      {yielder : Yielder} (engaged : Engaged call phase run holder)
      (finished : phase.finishedBy = some yielder) : yielder = .run call := by
    cases engaged with
    | starting => cases finished
    | proposing waits _ => rcases waits with rfl | rfl <;> cases finished
    | sending waits => rcases waits with rfl | rfl <;> cases finished
    | sent | left =>
      cases finished
      rfl
  intro call yielder finished
  refine .inl ?_
  rcases coherent with free | ⟨owner, busy⟩
  · exact rested (free.calls call) finished
  · by_cases same : call = owner
    · subst same
      exact moved busy.engaged finished
    · exact rested (busy.others call same) finished

theorem not_deadlocked (coherent : Coherent s) : ¬ Deadlocked s := by
  rintro ⟨yielder, sending, _, nobody⟩
  obtain ⟨call, rfl, busy⟩ := coherent.run_of_sending (.inl sending)
  have engaged := busy.engaged
  rw [sending] at engaged
  have deaf := nobody call
  generalize s.calls call = phase, s.idleMu = holder at engaged deaf
  cases engaged with
  | proposing _ run => simp at run
  | sending waits => rcases waits with rfl | rfl <;> cases deaf

end Coherent

/-- As long as no yield signal meets a busy proposer there is at most one active run, and a
call returns because of its own run. -/
theorem proposing_exclusive {s : State} (run : Run State.step Quiet init s) :
    AtMostOneActive s ∧ FinishedDuly s :=
  ⟨(Coherent.of_run run).atMostOneActive, (Coherent.of_run run).finishedDuly⟩

def proposeUntilWait (call : Nat) : List Action :=
  [.proposeBlock call, .shouldProposeByBFT call true, .isIdle call, .setNotIdle call,
    .goProposing call, .waitFinish call]

def yieldTo (yielder : Yielder) (call : Nat) : List Action :=
  [.lock yielder, .finish yielder call, .unlock yielder, .setIdle call]

theorem proposing_exclusive_two : ∃ s, Run State.step Quiet init s ∧ s.calls 0 = .returned (some (.run 0)) ∧
      s.calls 1 = .waiting ∧ AtMostOneActive s ∧ FinishedDuly s := by
  have run : Run State.step Quiet init _ := Run.of_foldlM
    (proposeUntilWait 0 ++ .proposed 0 :: yieldTo (.run 0) 0 ++ proposeUntilWait 1) rfl
  exact ⟨_, run, rfl, rfl, proposing_exclusive run⟩

/-- A run that was yielded goes on beside the run of the next call, and its end makes that
call return although nobody has signalled since. -/
theorem yielded_run_interferes : (∃ s, Reach State.step init s ∧ ¬ AtMostOneActive s) ∧
      ∃ s, Reach State.step init s ∧ s.yielders (.run 1) = .proposing ∧ ¬ FinishedDuly s := by
  constructor
  · have run : Reach State.step init _ := Run.of_foldlM
      (proposeUntilWait 0 ++ .onReceiveYieldProposeSignal 0 :: yieldTo (.signal 0) 0 ++ proposeUntilWait 1) rfl
    refine ⟨_, run, fun exclusive => ?_⟩
    exact absurd (exclusive 0 1 ⟨by decide, by decide⟩ ⟨by decide, by decide⟩) (by decide)
  · have run : Reach State.step init _ := Run.of_foldlM
      (proposeUntilWait 0 ++ .onReceiveYieldProposeSignal 0 :: yieldTo (.signal 0) 0 ++
        proposeUntilWait 1 ++ .proposed 0 :: yieldTo (.run 0) 1) rfl
    refine ⟨_, run, rfl, fun duly => ?_⟩
    rcases duly 1 (.run 0) rfl with own | ⟨_, signal⟩
    · exact absurd own (by decide)
    · cases signal

/-- As long as no yield signal meets a busy proposer, whoever sends on the channel finds a
call that receives. -/
theorem handshake_deadlockFree {s : State} (run : Run State.step Quiet init s) : ¬ Deadlocked s :=
  (Coherent.of_run run).not_deadlocked

theorem handshake_deadlockFree_sending :
    ∃ s, Run State.step Quiet init s ∧ s.yielders (.run 0) = .sending ∧ ¬ Deadlocked s := by
  have run : Run State.step Quiet init _ := Run.of_foldlM
    (proposeUntilWait 0 ++ [.proposed 0, .lock (.run 0)]) rfl
  exact ⟨_, run, rfl, handshake_deadlockFree run⟩

/-- The run of a yielded call takes the mutex before the call has reset the flag. -/
theorem yielded_run_deadlocks : ∃ s, Reach State.step init s ∧ Deadlocked s := by
  have run : Reach State.step init _ := Run.of_foldlM
    (proposeUntilWait 0 ++ [.onReceiveYieldProposeSignal 0, .lock (.signal 0),
      .finish (.signal 0) 0, .unlock (.signal 0), .proposed 0, .lock (.run 0)]) rfl
  refine ⟨_, run, .run 0, rfl, rfl, fun call => ?_⟩
  cases call with
  | zero => rfl
  | succ call => rfl

end Pdcc.Core.Proposer
