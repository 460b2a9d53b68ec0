import Mathlib.Data.List.Perm.Basic

/-!
# Interleavings of threads

A thread is the list of its atomic actions. An interleaving takes the next
action of some unfinished thread until every thread has finished.
-/

set_option autoImplicit false

namespace Pdcc.Library

/-- The words that running threads, one action at a time, can produce. -/
inductive Interleaves {Action : Type} : List (List Action) → List Action → Prop where
  | done {threads} : (∀ thread ∈ threads, thread = []) → Interleaves threads []
  | step {before thread after action word} :
      Interleaves (before ++ thread :: after) word →
      Interleaves (before ++ (action :: thread) :: after) (action :: word)

variable {Action State : Type} {threads : List (List Action)} {word : List Action}

theorem Interleaves.perm (interleaves : Interleaves threads word) : word.Perm threads.flatten := by
  induction interleaves with
  | @done threads finished =>
    have empty : threads.flatten = [] := List.flatten_eq_nil_iff.mpr finished
    rw [empty]
  | @step before thread after action word _ ih =>
    have moved : (before ++ (action :: thread) :: after).flatten.Perm (action :: (before ++ thread :: after).flatten) := by
      simp only [List.flatten_append, List.flatten_cons, List.cons_append]
      exact List.perm_middle
    exact (ih.cons action).trans moved.symm

theorem Interleaves.sequential (threads : List (List Action)) : Interleaves threads threads.flatten := by
  induction threads with
  | nil => exact .done (by simp)
  | cons thread threads ih =>
    induction thread with
    | nil =>
      have extend : ∀ {others : List (List Action)} {word : List Action}, Interleaves others word → Interleaves ([] :: others) word := by
        intro others word interleaves
        induction interleaves with
        | done finished => exact .done (by simpa using finished)
        | @step before thread after action word _ ih =>
          exact @Interleaves.step _ ([] :: before) thread after action word ih
      simpa using extend ih
    | cons action thread threadIH =>
      exact @Interleaves.step _ [] thread threads action _ threadIH

theorem Interleaves.filterMap {Action' : Type} (f : Action → Option Action') (interleaves : Interleaves threads word) :
    Interleaves (threads.map (·.filterMap f)) (word.filterMap f) := by
  induction interleaves with
  | done finished =>
    refine .done ?_
    intro thread member
    obtain ⟨original, originalMember, rfl⟩ := List.mem_map.mp member
    rw [finished original originalMember, List.filterMap_nil]
  | @step before thread after action word _ ih =>
    simp only [List.map_append, List.map_cons] at ih ⊢
    cases kept : f action with
    | none =>
      rw [List.filterMap_cons_none kept, List.filterMap_cons_none kept]
      exact ih
    | some action' =>
      rw [List.filterMap_cons_some kept, List.filterMap_cons_some kept]
      exact .step ih

theorem Interleaves.map {Action' : Type} (f : Action → Action') (interleaves : Interleaves threads word) :
    Interleaves (threads.map (·.map f)) (word.map f) := by
  simpa only [List.filterMap_eq_map'] using interleaves.filterMap fun action => some (f action)

theorem Interleaves.filter (keep : Action → Bool) (interleaves : Interleaves threads word) :
    Interleaves (threads.map (·.filter keep)) (word.filter keep) := by
  simpa only [List.filterMap_eq_filter] using interleaves.filterMap (Option.guard keep)

theorem Interleaves.eq_of_others_idle {before after : List (List Action)} {thread : List Action}
    (interleaves : Interleaves (before ++ thread :: after) word)
    (idleBefore : ∀ other ∈ before, other = []) (idleAfter : ∀ other ∈ after, other = []) :
    word = thread := by
  generalize shape : before ++ thread :: after = threads at interleaves
  induction interleaves generalizing before thread after with
  | done finished =>
    subst shape
    exact (finished thread (by simp)).symm
  | @step left acting right action word _ ih =>
    have actingMember : action :: acting ∈ before ++ thread :: after := by
      rw [shape]
      simp
    have same : action :: acting = thread := by
      rcases List.mem_append.mp actingMember with early | late
      · cases idleBefore _ early
      · rcases List.mem_cons.mp late with same | late
        · exact same
        · cases idleAfter _ late
    subst same
    have leftLength : left.length = before.length := by
      by_contra different
      rcases Nat.lt_or_gt_of_ne different with shorter | longer
      · have present : (left ++ (action :: acting) :: right)[left.length]? = some (action :: acting) := by simp
        rw [← shape, List.getElem?_append_left shorter] at present
        cases idleBefore _ (List.mem_of_getElem? present)
      · have present : (before ++ (action :: acting) :: after)[left.length]? = some (action :: acting) := by simp [shape]
        rw [List.getElem?_append_right (by omega), List.getElem?_cons] at present
        split at present
        · omega
        · cases idleAfter _ (List.mem_of_getElem? present)
    obtain ⟨sameLeft, sameRest⟩ := List.append_inj shape leftLength.symm
    simp only [List.cons.injEq, true_and] at sameRest
    subst sameLeft sameRest
    rw [ih idleBefore idleAfter rfl]

theorem Interleaves.dropIdle {entries : List (Bool × List Action)} (interleaves : Interleaves (entries.map Prod.snd) word)
    (idle : ∀ entry ∈ entries, entry.1 = false → entry.2 = []) :
    Interleaves ((entries.filter Prod.fst).map Prod.snd) word := by
  generalize shape : entries.map Prod.snd = threads at interleaves
  induction interleaves generalizing entries with
  | done finished =>
    refine .done ?_
    intro thread member
    refine finished thread ?_
    rw [← shape]
    exact (List.filter_sublist.map Prod.snd).subset member
  | @step before thread after action word _ ih =>
    obtain ⟨early, rest, rfl, rfl, restShape⟩ := List.map_eq_append_iff.mp shape
    obtain ⟨acting, late, rfl, actingShape, rfl⟩ := List.map_eq_cons_iff.mp restShape
    have kept : acting.1 = true := by
      by_contra dropped
      have none := idle acting (by simp) (Bool.not_eq_true _ ▸ dropped)
      rw [actingShape] at none
      cases none
    have rest := @ih (early ++ (true, thread) :: late) ?_ (by simp)
    · rw [List.filter_append, List.filter_cons_of_pos rfl, List.map_append, List.map_cons] at rest
      rw [List.filter_append, List.filter_cons_of_pos kept, List.map_append, List.map_cons, actingShape]
      exact .step rest
    · intro entry member unkept
      cases List.mem_append.mp member with
      | inl inEarly => exact idle entry (List.mem_append_left _ inEarly) unkept
      | inr inRest =>
        cases List.mem_cons.mp inRest with
        | inl now =>
          rw [now] at unkept
          cases unkept
        | inr inLate => exact idle entry (List.mem_append_right _ (.tail _ inLate)) unkept

theorem Interleaves.invariant (interleaves : Interleaves threads word)
    (act : State → Action → State) (inv : List (List Action) → State → Prop)
    (preserved : ∀ before thread after action state, inv (before ++ (action :: thread) :: after) state →
      inv (before ++ thread :: after) (act state action)) {state : State}
    (start : inv threads state) :
    ∃ finished, finished.length = threads.length ∧ (∀ thread ∈ finished, thread = []) ∧ inv finished (word.foldl act state) := by
  induction interleaves generalizing state with
  | @done threads finished => exact ⟨threads, rfl, finished, start⟩
  | @step before thread after action word _ ih =>
    obtain ⟨ended, length, finished, holds⟩ :=
      ih (preserved before thread after action state start)
    exact ⟨ended, by simpa using length, finished, holds⟩

section Owned

variable {Local : Type} (owner : Action → Nat) (step : Local → Action → Local)

def actOwned (state : Nat → Local) (action : Action) : Nat → Local :=
  Function.update state (owner action) (step (state (owner action)) action)

theorem foldl_actOwned (word : List Action) (state : Nat → Local) (who : Nat) : word.foldl (actOwned owner step) state who =
      (word.filter fun action => owner action = who).foldl step (state who) := by
  induction word generalizing state with
  | nil => rfl
  | cons action word ih =>
    rw [List.foldl_cons, ih, List.filter_cons, actOwned, Function.update_apply]
    by_cases own : owner action = who
    · simp [own]
    · simp [own, Ne.symm own]

variable {owner}

theorem Interleaves.filter_owner {thread : Nat → List Action} {count : Nat} {word : List Action}
    (interleaves : Interleaves ((List.range count).map thread) word)
    (owned : ∀ who, ∀ action ∈ thread who, owner action = who) {who : Nat} (inside : who < count) :
    (word.filter fun action => owner action = who) = thread who := by
  obtain ⟨before, after, split⟩ := List.append_of_mem (List.mem_range.mpr inside)
  have distinct : (List.range count).Nodup := List.nodup_range
  rw [split, List.nodup_append, List.nodup_cons] at distinct
  obtain ⟨_, ⟨notAfter, _⟩, apart⟩ := distinct
  have alone := interleaves.filter fun action => owner action = who
  rw [split, List.map_append, List.map_cons, List.map_append, List.map_cons] at alone
  have idle : ∀ others : List Nat, who ∉ others →
      ∀ kept ∈ (others.map thread).map (·.filter fun action => owner action = who), kept = [] := by
    intro others absent kept keptMember
    obtain ⟨_, threadMember, rfl⟩ := List.mem_map.mp keptMember
    obtain ⟨other, otherMember, rfl⟩ := List.mem_map.mp threadMember
    rw [List.filter_eq_nil_iff]
    intro action member same
    rw [owned other action member, decide_eq_true_eq] at same
    exact absent (same ▸ otherMember)
  have whole := alone.eq_of_others_idle (idle before fun member => apart who member who (.head _) rfl) (idle after notAfter)
  rw [whole, List.filter_eq_self]
  intro action member
  exact decide_eq_true (owned who action member)

end Owned

end Pdcc.Library
