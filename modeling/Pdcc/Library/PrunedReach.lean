import Pdcc.Library.Bitmap
import Mathlib.Logic.Relation

/-!
# Pruned reachability

Vertices are numbered and list candidate targets with smaller numbers. Going
through the candidates in order, one that is reached already is dropped, any
other becomes a direct target and its reachable set is added. Pruning changes
the edges, not what they reach.
-/

set_option autoImplicit false

namespace Pdcc.Library

namespace PrunedReach

def link (reach : Nat → Bitmap) (state : Bitmap × Bitmap) (target : Nat) : Bitmap × Bitmap :=
  if state.2.has target then state else (state.1.set target, state.2.or (reach target))

def prune (reach : Nat → Bitmap) (vertex : Nat) (targets : List Nat) : Bitmap × Bitmap :=
  targets.foldl (link reach) (.empty, Bitmap.empty.set vertex)

variable {target : Nat}

theorem link_has (reach : Nat → Bitmap) {state : Bitmap × Bitmap} {vertex : Nat}
    (present : state.2.has vertex = true) : (link reach state target).2.has vertex = true := by
  unfold link
  split
  · exact present
  · rw [Bitmap.has_or, present, Bool.true_or]

theorem prune_congr {reach reach' : Nat → Bitmap} {vertex : Nat} {targets : List Nat}
    (same : ∀ target ∈ targets, target ≠ vertex → reach target = reach' target) :
    prune reach vertex targets = prune reach' vertex targets := by
  have rest : ∀ (targets : List Nat) (state : Bitmap × Bitmap), state.2.has vertex = true →
      (∀ target ∈ targets, target ≠ vertex → reach target = reach' target) →
      targets.foldl (link reach) state = targets.foldl (link reach') state := by
    intro targets
    induction targets with
    | nil => exact fun _ _ _ => rfl
    | cons target targets ih =>
      intro state present same
      have step : link reach state target = link reach' state target := by
        unfold link
        split
        · rfl
        · next absent =>
          have different : target ≠ vertex := by
            rintro rfl
            exact absent present
          rw [same target (.head _) different]
      rw [List.foldl_cons, List.foldl_cons, ← step]
      exact ih _ (link_has reach present) fun other member => same other (.tail _ member)
  exact rest targets _ (by simp [Bitmap.has_set]) same

def Candidate (targets : Nat → List Nat) (vertex target : Nat) : Prop :=
  target ∈ targets vertex ∧ target ≠ vertex

variable {targets : Nat → List Nat} {reach : Nat → Bitmap} {vertex : Nat}

structure Inv (targets : Nat → List Nat) (vertex : Nat) (processed : List Nat)
    (state : Bitmap × Bitmap) : Prop where
  reached : ∀ other, state.2.has other = true ↔ other = vertex ∨
    ∃ target, state.1.has target = true ∧ Relation.ReflTransGen (Candidate targets) target other
  direct : ∀ target, state.1.has target = true → target ∈ processed ∧ target ≠ vertex
  covered : ∀ target ∈ processed, state.2.has target = true

theorem Inv.start : Inv targets vertex [] (.empty, Bitmap.empty.set vertex) where
  reached other := by simp [Bitmap.has_set]
  direct target present := by simp at present
  covered target member := by cases member

theorem Inv.link {processed : List Nat} {state : Bitmap × Bitmap} (inv : Inv targets vertex processed state)
    (known : target ≠ vertex → ∀ other, (reach target).has other = true ↔ Relation.ReflTransGen (Candidate targets) target other) :
    Inv targets vertex (processed ++ [target]) (link reach state target) := by
  unfold PrunedReach.link
  split
  · next present =>
    refine ⟨inv.reached, fun other set => ?_, fun other member => ?_⟩
    · exact ⟨List.mem_append_left _ (inv.direct other set).1, (inv.direct other set).2⟩
    · rcases List.mem_append.mp member with earlier | last
      · exact inv.covered other earlier
      · rwa [List.mem_singleton.mp last]
  · next absent =>
    have different : target ≠ vertex := by
      intro same
      exact absent ((inv.reached target).mpr (.inl same))
    have added : ∀ other, (state.2.or (reach target)).has other = true ↔
        state.2.has other = true ∨ Relation.ReflTransGen (Candidate targets) target other := by
      intro other
      rw [Bitmap.has_or, Bool.or_eq_true, known different]
    refine ⟨fun other => ?_, fun other set => ?_, fun other member => ?_⟩
    · simp only [added, inv.reached, Bitmap.has_set, Bool.or_eq_true, decide_eq_true_eq]
      constructor
      · rintro ((same | ⟨through, set, path⟩) | path)
        · exact .inl same
        · exact .inr ⟨through, .inl set, path⟩
        · exact .inr ⟨target, .inr rfl, path⟩
      · rintro (same | ⟨through, set | rfl, path⟩)
        · exact .inl (.inl same)
        · exact .inl (.inr ⟨through, set, path⟩)
        · exact .inr path
    · simp only [Bitmap.has_set, Bool.or_eq_true, decide_eq_true_eq] at set
      rcases set with old | rfl
      · exact ⟨List.mem_append_left _ (inv.direct other old).1, (inv.direct other old).2⟩
      · exact ⟨List.mem_append_right _ (List.mem_singleton_self _), different⟩
    · rw [added]
      rcases List.mem_append.mp member with earlier | last
      · exact .inl (inv.covered other earlier)
      · rw [List.mem_singleton.mp last]
        exact .inr .refl

theorem Inv.prune (known : ∀ target ∈ targets vertex, target ≠ vertex → ∀ other,
      (reach target).has other = true ↔ Relation.ReflTransGen (Candidate targets) target other) :
    Inv targets vertex (targets vertex) (prune reach vertex (targets vertex)) := by
  have progress : ∀ rest processed state, processed ++ rest = targets vertex → Inv targets vertex processed state →
      Inv targets vertex (targets vertex) (rest.foldl (PrunedReach.link reach) state) := by
    intro rest
    induction rest with
    | nil =>
      intro processed state split inv
      rw [List.append_nil] at split
      rwa [← split]
    | cons target rest ih =>
      intro processed state split inv
      have member : target ∈ targets vertex := by
        rw [← split]
        simp
      exact ih (processed ++ [target]) _ (by simpa using split) (inv.link (known target member))
  exact progress (targets vertex) [] _ rfl Inv.start

/-- Each vertex was pruned with the reach sets of those below it. -/
structure Pruned (targets : Nat → List Nat) (count : Nat) (direct reach : Nat → Bitmap) :
    Prop where
  below : ∀ vertex, ∀ target ∈ targets vertex, target ≤ vertex
  beyond : ∀ vertex, count ≤ vertex → targets vertex = []
  processed : ∀ vertex, vertex < count →
    (direct vertex, reach vertex) = prune reach vertex (targets vertex)

variable {count : Nat} {direct : Nat → Bitmap}

theorem Pruned.candidate_lt (pruned : Pruned targets count direct reach)
    (candidate : Candidate targets vertex target) : target < vertex ∧ vertex < count := by
  have bound := pruned.below vertex target candidate.1
  refine ⟨Nat.lt_of_le_of_ne bound candidate.2, ?_⟩
  by_contra outside
  have listed := candidate.1
  rw [pruned.beyond vertex (by omega)] at listed
  cases listed

theorem Pruned.reach_iff (pruned : Pruned targets count direct reach) (inside : vertex < count) (other : Nat) :
    (reach vertex).has other = true ↔ Relation.ReflTransGen (Candidate targets) vertex other := by
  induction vertex using Nat.strongRecOn generalizing other with
  | _ vertex ih =>
    have inv : Inv targets vertex (targets vertex) (direct vertex, reach vertex) := by
      rw [pruned.processed vertex inside]
      refine Inv.prune ?_
      intro target member different
      have smaller := pruned.candidate_lt ⟨member, different⟩
      exact ih target smaller.1 (by omega)
    rw [inv.reached]
    constructor
    · rintro (rfl | ⟨target, set, path⟩)
      · exact .refl
      · exact .head (inv.direct target set) path
    · intro path
      rcases Relation.ReflTransGen.cases_head path with rfl | ⟨target, candidate, rest⟩
      · exact .inl rfl
      · rcases (inv.reached target).mp (inv.covered target candidate.1) with same | through
        · exact absurd same candidate.2
        · obtain ⟨first, set, toTarget⟩ := through
          exact .inr ⟨first, set, toTarget.trans rest⟩

theorem Pruned.inv (pruned : Pruned targets count direct reach) (inside : vertex < count) :
    Inv targets vertex (targets vertex) (direct vertex, reach vertex) := by
  rw [pruned.processed vertex inside]
  refine Inv.prune ?_
  intro target member different
  have smaller := pruned.candidate_lt ⟨member, different⟩
  exact pruned.reach_iff (by omega)

theorem Pruned.transGen_iff (pruned : Pruned targets count direct reach) (vertex other : Nat) :
    Relation.TransGen (fun vertex target => vertex < count ∧ (direct vertex).has target = true) vertex other ↔
      Relation.TransGen (Candidate targets) vertex other := by
  constructor
  · refine Relation.TransGen.mono ?_ _ _
    rintro source target ⟨inside, set⟩
    exact (pruned.inv inside).direct target set
  · intro path
    induction vertex using Nat.strongRecOn with
    | _ vertex ih =>
      have decreasing : ∀ {source target}, Relation.TransGen (Candidate targets) source target → target < source ∧ source < count := by
        intro source target path
        induction path with
        | single candidate => exact pruned.candidate_lt candidate
        | tail _ candidate ih =>
          have next := pruned.candidate_lt candidate
          omega
      have bounds := decreasing path
      have inv := pruned.inv bounds.2
      rcases (inv.reached other).mp ((pruned.reach_iff bounds.2 other).mpr path.to_reflTransGen) with same | through
      · omega
      · obtain ⟨target, set, rest⟩ := through
        rcases Relation.reflTransGen_iff_eq_or_transGen.mp rest with same | further
        · rw [same]
          exact .single ⟨bounds.2, set⟩
        · have smaller := pruned.candidate_lt (inv.direct target set)
          exact .head ⟨bounds.2, set⟩ (ih target smaller.1 further)

end PrunedReach

end Pdcc.Library
