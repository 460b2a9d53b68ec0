import Pdcc.AccessControl.ShardCache

/-!
# Members and the member cache

Signers as they appear in a transaction, the members a provider makes of them,
and the lookup that policies use to learn the role of a signer.
-/

set_option autoImplicit false

namespace Pdcc.AccessControl

open Ledger

inductive AuthType where
  | permissionedWithCert
  | permissionedWithKey
  | publicKey
  deriving DecidableEq, Repr

inductive MemberType where
  | cert
  | certHash
  | publicKey
  | did
  | alias
  | addr
  | unknown (value : Int)
  deriving DecidableEq, Repr

structure PbMember where
  orgId : Bytes
  memberInfo : Bytes
  memberType : MemberType
  deriving DecidableEq, Repr

structure EndorsementEntry where
  signer : PbMember
  signature : Bytes
  deriving DecidableEq, Repr

abbrev Role := Bytes

def roleAdmin : Role := ascii "ADMIN"

def roleClient : Role := ascii "CLIENT"

def roleConsensusNode : Role := ascii "CONSENSUS"

-- outside ASCII, only the dotless i and the long s become ASCII letters; other characters are kept
def toUpper : Bytes → Bytes
  | 0xC4 :: 0xB1 :: rest => 73 :: toUpper rest
  | 0xC5 :: 0xBF :: rest => 83 :: toUpper rest
  | char :: rest => (if 97 ≤ char ∧ char ≤ 122 then char - 32 else char) :: toUpper rest
  | [] => []

structure Certificate where
  raw : Bytes
  organization : List Bytes
  organizationalUnit : List Bytes
  authorityKeyId : Bytes
  serialNumber : Int
  deriving DecidableEq, Repr

inductive Credential where
  | certificate (cert : Certificate)
  | publicKey (pkBytes : Bytes)
  deriving DecidableEq, Repr

structure Member where
  orgId : Bytes
  role : Role
  credential : Credential
  deriving DecidableEq, Repr

abbrev Verifier := Credential → Bytes → Bytes → Bool

def Member.verify (member : Member) (verifier : Verifier) (msg sig : Bytes) : Bool :=
  verifier member.credential msg sig

structure MemberCached where
  member : Member
  certChain : List Certificate
  deriving DecidableEq, Repr

abbrev MemberCache := ShardCache MemberCached

inductive Panic where
  | nilDereference
  deriving DecidableEq, Repr

section Lookup

variable (rebuild : PbMember → Except Panic (Option MemberCached))

/-- The member of a signer. A cached member counts only for the organization the
signer claims; a member that is not cached is built again and put into the cache. -/
def getMemberFromCache (cache : MemberCache) (signer : PbMember) :
    Except Panic (Option Member × MemberCache) :=
  match cache.get signer.memberInfo with
  | some cached =>
    if cached.member.orgId = signer.orgId then .ok (some cached.member, cache)
    else .ok (none, cache)
  | none =>
    match rebuild signer with
    | .error panic => .error panic
    | .ok none => .ok (none, cache)
    | .ok (some cached) => .ok (some cached.member, cache.add signer.memberInfo cached)

variable {rebuild} {cache cache' : MemberCache} {signer : PbMember}

theorem getMemberFromCache_found {member : Member} (found : getMemberFromCache rebuild cache signer = .ok (some member, cache')) :
    (∃ cached, cache.get signer.memberInfo = some cached ∧ cached.member = member ∧ member.orgId = signer.orgId ∧ cache' = cache) ∨
    (∃ cached, cache.get signer.memberInfo = none ∧ rebuild signer = .ok (some cached) ∧
      cached.member = member ∧ cache' = cache.add signer.memberInfo cached) := by
  unfold getMemberFromCache at found
  cases present : cache.get signer.memberInfo with
  | some cached =>
    rw [present] at found
    by_cases belongs : cached.member.orgId = signer.orgId
    · simp only [if_pos belongs] at found
      cases found
      exact .inl ⟨cached, rfl, rfl, belongs, rfl⟩
    · simp only [if_neg belongs] at found
      cases found
  | none =>
    rw [present] at found
    cases built : rebuild signer with
    | error panic =>
      rw [built] at found
      cases found
    | ok result =>
      rw [built] at found
      cases result with
      | none => cases found
      | some cached =>
        cases found
        exact .inr ⟨cached, rfl, rfl, rfl, rfl⟩

theorem getMemberFromCache_absent (absent : getMemberFromCache rebuild cache signer = .ok (none, cache')) : cache' = cache := by
  unfold getMemberFromCache at absent
  split at absent
  · split at absent <;> cases absent
    rfl
  · split at absent <;> cases absent
    rfl

theorem getMemberFromCache_cache {member : Option Member} (done : getMemberFromCache rebuild cache signer = .ok (member, cache')) :
    cache' = cache ∨ ∃ cached, rebuild signer = .ok (some cached) ∧ cache' = cache.add signer.memberInfo cached := by
  cases member with
  | some member =>
    rcases getMemberFromCache_found done with ⟨_, _, _, _, same⟩ | ⟨cached, _, built, _, added⟩
    · exact .inl same
    · exact .inr ⟨cached, built, added⟩
  | none => exact .inl (getMemberFromCache_absent done)

variable {Entry : Bytes → MemberCached → Prop}

variable (rebuild Entry) in
def Records : Prop :=
  ∀ signer cached, rebuild signer = .ok (some cached) → Entry signer.memberInfo cached

theorem getMemberFromCache_holds (builds : Records rebuild Entry)
    {member : Option Member} (done : getMemberFromCache rebuild cache signer = .ok (member, cache'))
    (holds : cache.Holds Entry) : cache'.Holds Entry := by
  rcases getMemberFromCache_cache done with rfl | ⟨cached, built, rfl⟩
  · exact holds
  · exact holds.add (builds signer cached built)

variable (rebuild Entry) in
/-- With some content of the cache the signer is taken for a member of this role. -/
def CountsFor (signer : PbMember) (role : Role) : Prop :=
  (∃ cached, Entry signer.memberInfo cached ∧ cached.member.orgId = signer.orgId ∧
    cached.member.role = role) ∨
  (∃ cached, rebuild signer = .ok (some cached) ∧ cached.member.role = role)

theorem getMemberFromCache_countsFor {member : Member} (holds : cache.Holds Entry)
    (found : getMemberFromCache rebuild cache signer = .ok (some member, cache')) :
    CountsFor rebuild Entry signer member.role := by
  rcases getMemberFromCache_found found with ⟨cached, present, rfl, belongs, _⟩ | ⟨cached, _, built, rfl, _⟩
  · exact .inl ⟨cached, holds _ _ present, belongs, rfl⟩
  · exact .inr ⟨cached, built, rfl⟩

theorem CountsFor.getMemberFromCache {role : Role} (counts : CountsFor rebuild Entry signer role) :
    ∃ (cache cache' : MemberCache) (member : Member), cache.Holds Entry ∧
      AccessControl.getMemberFromCache rebuild cache signer = .ok (some member, cache') ∧
      member.role = role := by
  rcases counts with ⟨cached, recorded, belongs, rfl⟩ | ⟨cached, built, rfl⟩
  · have present : ((ShardCache.newShardCache 0).add signer.memberInfo cached).get
        signer.memberInfo = some cached := ShardCache.get_add_self _ _ _
    refine ⟨(ShardCache.newShardCache 0).add signer.memberInfo cached,
      (ShardCache.newShardCache 0).add signer.memberInfo cached, cached.member,
      (ShardCache.Holds.newShardCache Entry 0).add recorded, ?_, rfl⟩
    rw [AccessControl.getMemberFromCache, present]
    exact if_pos belongs
  · refine ⟨ShardCache.newShardCache 0, (ShardCache.newShardCache 0).add signer.memberInfo cached,
      cached.member, ShardCache.Holds.newShardCache Entry 0, ?_, rfl⟩
    rw [AccessControl.getMemberFromCache, ShardCache.get_newShardCache, built]

end Lookup

/-- A list of endorsements by given signers of which a refinement returns those of the chosen
ones, since nobody else has signed. -/
structure Realized (refine : MemberCache → List EndorsementEntry → List EndorsementEntry × MemberCache)
    (presented : List EndorsementEntry → List (Bytes × EndorsementEntry))
    (Entry : Bytes → MemberCached → Prop) (signers : List PbMember) (signature : Bytes)
    (chosen : List PbMember) (cache : MemberCache) (entries : List EndorsementEntry) : Prop where
  holds : cache.Holds Entry
  signers : entries.map (·.signer) = signers
  refined : (refine cache entries).1 = chosen.map (⟨·, signature⟩)
  only : ∀ item ∈ presented entries,
    item.2.signature = [] ∨ ∃ signer ∈ chosen, item.2 = ⟨signer, signature⟩

def signedBy (credential : Credential) : Verifier :=
  fun signer _ signature => decide (signer = credential ∧ signature = [1])

def signedByAll : Verifier := fun _ _ signature => decide (signature = [1])

end Pdcc.AccessControl
