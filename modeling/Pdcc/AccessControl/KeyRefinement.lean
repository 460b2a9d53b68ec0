import Pdcc.Library.Admission
import Pdcc.AccessControl.Member

/-!
# The refinement of endorsements by keys

The two modes without certificates refine a list of endorsements alike: each signer is
made a member, its signature is verified, and one endorsement is returned for each
text. They differ in how a signer becomes a member.
-/

set_option autoImplicit false

namespace Pdcc.AccessControl

open Ledger Library

structure KeyLibrary where
  publicKeyFromPEM : Bytes → Option Bytes
  createLibp2pPeerIdWithPublicKey : Bytes → Option Bytes

structure TrustRootConfig where
  orgId : Bytes
  root : List Bytes

structure OrgConfig where
  orgId : Bytes
  nodeId : List Bytes

section Refinement

variable (newMember : MemberCache → PbMember → Option Member × MemberCache)
  (verifier : Verifier) (msg : Bytes)

def verifyKeySigner (cache : MemberCache) (_ : Bytes) (endorsement : EndorsementEntry) :
    Bool × MemberCache :=
  match newMember cache endorsement.signer with
  | (none, cache) => (false, cache)
  | (some remoteMember, cache) => (remoteMember.verify verifier msg endorsement.signature, cache)

def keyed (endorsements : List EndorsementEntry) : List (Bytes × EndorsementEntry) :=
  endorsements.map fun endorsement => (endorsement.signer.memberInfo, endorsement)

def refineKeyEndorsements (cache : MemberCache) (endorsements : List EndorsementEntry) :
    List EndorsementEntry × MemberCache :=
  let (refined, cache) := admitOnce (verifyKeySigner newMember verifier msg) [] cache
    (keyed endorsements)
  (refined.map Prod.snd, cache)

theorem map_snd_keyed (endorsements : List EndorsementEntry) : (keyed endorsements).map Prod.snd = endorsements := by
  rw [keyed, List.map_map]
  exact List.map_id _

end Refinement

/-- What a mode has to say about its members: which cache entries making a member adds, and
which members a signer can become, all of them if its text is cached. -/
structure MemberSource (newMember : MemberCache → PbMember → Option Member × MemberCache)
    (Entry : Bytes → MemberCached → Prop) (Admits : PbMember → Member → Prop) : Prop where
  step : ∀ cache signer, (newMember cache signer).2 = cache ∨
    ∃ info, Entry signer.memberInfo info ∧
      (newMember cache signer).2 = cache.add signer.memberInfo info
  sound : ∀ cache signer member, cache.Holds Entry → (newMember cache signer).1 = some member →
    Admits signer member
  complete : ∀ cache signer member info, cache.Holds Entry →
    cache.get signer.memberInfo = some info → Admits signer member →
      (newMember cache signer).1 = some member
  entry : ∀ signer member, Admits signer member → ∃ info, Entry signer.memberInfo info

namespace MemberSource

variable {newMember : MemberCache → PbMember → Option Member × MemberCache}
  {Entry : Bytes → MemberCached → Prop} {Admits : PbMember → Member → Prop}
  (source : MemberSource newMember Entry Admits)
  {verifier : Verifier} {msg : Bytes} {cache : MemberCache} {memInfo : Bytes}
  {endorsement : EndorsementEntry}

theorem verifyKeySigner_cache (cache : MemberCache) (memInfo : Bytes) (endorsement : EndorsementEntry) :
    (verifyKeySigner newMember verifier msg cache memInfo endorsement).2 = (newMember cache endorsement.signer).2 := by
  unfold verifyKeySigner
  split
  · next made => rw [made]
  · next made => rw [made]

include source

theorem verifyKeySigner_holds (holds : cache.Holds Entry) :
    (verifyKeySigner newMember verifier msg cache memInfo endorsement).2.Holds Entry := by
  rw [verifyKeySigner_cache]
  rcases source.step cache endorsement.signer with same | ⟨info, recorded, added⟩
  · rwa [same]
  · rw [added]
    exact holds.add recorded

theorem verifyKeySigner_warm {texts : List Bytes} {budget : Nat} (warm : cache.Warm Entry texts (budget + 1)) :
    (verifyKeySigner newMember verifier msg cache memInfo endorsement).2.Warm Entry texts budget := by
  rw [verifyKeySigner_cache]
  rcases source.step cache endorsement.signer with same | ⟨info, recorded, added⟩
  · rw [same]
    exact warm.less
  · rw [added]
    exact warm.add recorded

theorem verifyKeySigner_admits (holds : cache.Holds Entry)
    (verified : (verifyKeySigner newMember verifier msg cache memInfo endorsement).1 = true) :
    ∃ member, Admits endorsement.signer member ∧ member.verify verifier msg endorsement.signature = true := by
  unfold verifyKeySigner at verified
  split at verified
  · cases verified
  · next member _ made =>
    exact ⟨member, source.sound cache _ member holds (by rw [made]), verified⟩

theorem verifyKeySigner_signed {member : Member} {texts : List Bytes} {budget : Nat}
    (warm : cache.Warm Entry texts budget) (inside : endorsement.signer.memberInfo ∈ texts)
    (admits : Admits endorsement.signer member)
    (signed : member.verify verifier msg endorsement.signature = true) :
    (verifyKeySigner newMember verifier msg cache memInfo endorsement).1 = true := by
  obtain ⟨info, present⟩ := warm.present _ inside
  have made := source.complete cache _ member info warm.holds present admits
  unfold verifyKeySigner
  split
  · next failed =>
    rw [failed] at made
    cases made
  · next found =>
    rw [found] at made
    cases made
    exact signed

theorem refine_spec (verifier : Verifier) (msg : Bytes) (holds : cache.Holds Entry) (entries : List EndorsementEntry) :
    (refineKeyEndorsements newMember verifier msg cache entries).2.Holds Entry ∧
    ∃ kept : List (Bytes × EndorsementEntry), (refineKeyEndorsements newMember verifier msg cache entries).1 = kept.map Prod.snd ∧
      kept.Sublist (keyed entries) ∧ (kept.map Prod.fst).Nodup ∧
      ∀ pair ∈ kept, ∃ member, Admits pair.2.signer member ∧ member.verify verifier msg pair.2.signature = true := by
  have keeps : ∀ state key item, state.Holds Entry → (verifyKeySigner newMember verifier msg state key item).2.Holds Entry :=
    fun _ _ _ => source.verifyKeySigner_holds
  obtain ⟨sublist, distinct, _, checked, final⟩ :=
    admitOnce_spec keeps [] cache holds (keyed entries)
  refine ⟨final, _, rfl, sublist, distinct, ?_⟩
  intro pair member
  obtain ⟨reached, reachedHolds, verified⟩ := checked pair member
  exact source.verifyKeySigner_admits reachedHolds verified

theorem admits_of_refined (holds : cache.Holds Entry) (returned : (refineKeyEndorsements newMember verifier msg cache [endorsement]).1 ≠ []) :
    ∃ member, Admits endorsement.signer member ∧ member.verify verifier msg endorsement.signature = true := by
  obtain ⟨_, kept, result, sublist, _, admitted⟩ :=
    source.refine_spec verifier msg holds [endorsement]
  obtain ⟨pair, inside⟩ := List.exists_mem_of_ne_nil kept (by
    intro empty
    rw [empty] at result
    exact returned result)
  have same : pair = (endorsement.signer.memberInfo, endorsement) :=
    List.mem_singleton.mp (sublist.subset inside)
  have admits := admitted pair inside
  rwa [same] at admits

theorem refine_complete {texts : List Bytes} {entries : List EndorsementEntry}
    (warm : cache.Warm Entry texts entries.length) (inside : endorsement ∈ entries)
    (known : endorsement.signer.memberInfo ∈ texts) {member : Member}
    (admits : Admits endorsement.signer member)
    (signed : member.verify verifier msg endorsement.signature = true) :
    endorsement.signer.memberInfo ∈
      (refineKeyEndorsements newMember verifier msg cache entries).1.map (·.signer.memberInfo) := by
  have start : cache.Warm Entry texts (keyed entries).length := by rwa [keyed, List.length_map]
  have kept : endorsement.signer.memberInfo ∈ ([] : List Bytes) ∨ endorsement.signer.memberInfo ∈
      (admitOnce (verifyKeySigner newMember verifier msg) [] cache (keyed entries)).1.map Prod.fst := by
    refine admitOnce_complete (J := fun budget state => state.Warm Entry texts budget) ?_
      (List.mem_map_of_mem inside : (endorsement.signer.memberInfo, endorsement) ∈ keyed entries) ?_ start
    · exact fun _ _ _ _ warm => source.verifyKeySigner_warm warm
    · exact fun _ _ warm => source.verifyKeySigner_signed warm known admits signed
  obtain ⟨pair, pairIn, same⟩ := List.mem_map.mp (kept.resolve_left List.not_mem_nil)
  have keeps : ∀ state key item, state.Holds Entry → (verifyKeySigner newMember verifier msg state key item).2.Holds Entry :=
    fun _ _ _ => source.verifyKeySigner_holds
  have sublist := (admitOnce_spec keeps [] cache warm.holds (keyed entries)).1
  obtain ⟨entry, _, rfl⟩ := List.mem_map.mp (sublist.subset pairIn)
  exact List.mem_map.mpr ⟨entry, List.mem_map_of_mem pairIn, same⟩

end MemberSource

end Pdcc.AccessControl
