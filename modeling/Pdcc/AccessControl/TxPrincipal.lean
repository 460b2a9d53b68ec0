import Pdcc.AccessControl.OrgQuorum
import Pdcc.AccessControl.PublicKey

/-!
# The authentication of transactions

The three checks of a transaction: its type, its sender and its endorsements. When a
contract calls another one, the checks are made again for the called resource and no
signature is verified, on the strength of the checks for the transaction's own resource.
-/

set_option autoImplicit false

namespace Pdcc.AccessControl

open Ledger Library

inductive TxType where
  | invokeContract
  | queryContract
  | subscribe
  | archive
  | unknown (value : Int)
  deriving DecidableEq, Repr

def TxType.name : TxType → Bytes
  | .invokeContract => ascii "INVOKE_CONTRACT"
  | .queryContract => ascii "QUERY_CONTRACT"
  | .subscribe => ascii "SUBSCRIBE"
  | .archive => ascii "ARCHIVE"
  | .unknown value => formatInt value

structure TxPayload where
  txType : TxType
  contractName : Bytes
  method : Bytes
  parameters : List (Bytes × Bytes)
  unsignedTxBytes : Bytes
  deriving DecidableEq, Repr

structure Transaction where
  payload : TxPayload
  sender : Option EndorsementEntry
  endorsers : List EndorsementEntry
  deriving DecidableEq, Repr

def resourceNameOf (contractName method : Bytes) : Bytes := contractName ++ ascii "-" ++ method

def getTxResourceName (tx : Transaction) : Bytes :=
  resourceNameOf tx.payload.contractName tx.payload.method

def configNameOrgId : Bytes := ascii "org_id"

inductive Members where
  | org (p : OrgProvider)
  | pk (p : PkACProvider)

namespace Members

def getTotalVoterNum : Members → Nat
  | .org p => p.orgNum
  | .pk p => p.adminNum

def refineEndorsements : Members → Verifier → Bytes → MemberCache → List EndorsementEntry →
    List EndorsementEntry × MemberCache
  | .org p => p.refineEndorsements
  | .pk p => p.refineEndorsements

def verifyPrincipalPolicy : Members → Bytes → Bytes → Policy → List EndorsementEntry →
    MemberCache → Except Panic (Verdict × MemberCache)
  | .org p, targetOrg, resourceName, pol, endorsements, cache =>
    AccessControl.verifyPrincipalPolicy p.rebuildMember p.orgNum targetOrg resourceName pol
      endorsements cache
  | .pk p, _, resourceName, pol, endorsements, cache =>
    .ok (p.verifyPrincipalPolicy resourceName pol endorsements cache)

def Recorded : Members → Bytes → MemberCached → Prop
  | .org p => p.Recorded
  | .pk p => p.Recorded

def record : Members → Bytes → Option Member
  | .org p => p.record
  | .pk p => p.memberOfText

variable (m : Members) (verifier : Verifier) (msg : Bytes)

def refinePrincipal (endorsements : List EndorsementEntry) (cache : MemberCache) :
    Except AuthError (List EndorsementEntry) × MemberCache :=
  let (refined, cache) := m.refineEndorsements verifier msg cache endorsements
  (if refined.isEmpty then .error .allEndorsersFailed else .ok refined, cache)

def refinePrincipalForCertOptimization (endorsements : List EndorsementEntry)
    (cache : MemberCache) : Except AuthError (List EndorsementEntry) × MemberCache :=
  match m with
  | .org (.cert cp) =>
    let (refined, cache) := cp.refineEndorsementsForCertOptimization cache endorsements
    (if refined.isEmpty then .error .allEndorsersFailed else .ok refined, cache)
  | _ => (.error .methodNotAvailable, cache)

def principalError (targeted : Bool) (endorsements : List EndorsementEntry) : Option AuthError :=
  match m, targeted with
  | .pk _, true => some .targetOrgNotSupported
  | _, _ => if endorsements.isEmpty then some .noSigner else none

def principalEndorsements (bypass : Bool) (sender : Option EndorsementEntry)
    (endorsements : List EndorsementEntry) (cache : MemberCache) :
    Except AuthError (List EndorsementEntry) × MemberCache :=
  if !bypass then m.refinePrincipal verifier msg endorsements cache
  else if sender.any fun entry => isCompressed entry.signer.memberType then
    m.refinePrincipalForCertOptimization endorsements cache
  else (.ok endorsements, cache)

section Caches

variable {m} {cache cache' : MemberCache} {endorsements : List EndorsementEntry}

theorem verifyPrincipalPolicy_holds {targetOrg resourceName : Bytes} {pol : Policy} {verdict : Verdict} (holds : cache.Holds m.Recorded)
    (done : m.verifyPrincipalPolicy targetOrg resourceName pol endorsements cache = .ok (verdict, cache')) : cache'.Holds m.Recorded := by
  cases m with
  | org p =>
    exact AccessControl.verifyPrincipalPolicy_holds OrgProvider.recorded_of_rebuildMember holds done
  | pk p =>
    injection done with same
    have keeps : (p.verifyPrincipalPolicy resourceName pol endorsements cache).2.Holds
        p.Recorded := PkACProvider.verifyPrincipalPolicy_holds holds endorsements
    rw [same] at keeps
    exact keeps

theorem refineEndorsements_holds (m : Members) (verifier : Verifier) (msg : Bytes)
    (holds : cache.Holds m.Recorded) (entries : List EndorsementEntry) :
    (m.refineEndorsements verifier msg cache entries).2.Holds m.Recorded := by
  cases m with
  | org p => exact (p.refineEndorsements_spec verifier msg holds entries).1
  | pk p => exact (p.memberSource.refine_spec verifier msg holds entries).1

end Caches

end Members

structure AcProvider where
  members : Members
  latestPolicyMap : AList fun _ : Bytes => Policy
  txTypePolicyMap : AList fun _ : Bytes => Policy
  senderPolicyMap : AList fun _ : Bytes => Policy
  resourceNamePolicyMap : AList fun _ : Bytes => Policy

inductive TxAuthError where
  | txTypePrincipal (error : AuthError)
  | senderPrincipal (error : AuthError)
  | endorsementsPrincipal (resourceId : Bytes) (error : AuthError)
  deriving DecidableEq, Repr

namespace AcProvider

variable (p : AcProvider) (verifier : Verifier)

def lookUpPolicyByTxType (txType : Bytes) : Option Policy :=
  (p.latestPolicyMap.lookup txType).or (p.txTypePolicyMap.lookup txType)

def findFromSenderPolicies (resourceName : Bytes) : Option Policy :=
  p.senderPolicyMap.lookup resourceName

def findFromEndorsementsPolicies (resourceName : Bytes) : Option Policy :=
  (p.latestPolicyMap.lookup resourceName).or (p.resourceNamePolicyMap.lookup resourceName)

def verifyTxTypePrincipal (tx : Transaction) (txBytes : Bytes) (bypassSignVerify : Bool)
    (cache : MemberCache) : Except Panic (Verdict × MemberCache) :=
  if p.members.getTotalVoterNum = 0 then .ok (.error .emptyVoterList, cache)
  else
    match tx.sender with
    | none => .ok (.error .noSigner, cache)
    | some sender =>
      match p.members.principalEndorsements verifier txBytes bypassSignVerify tx.sender
        [sender] cache with
      | (.error error, cache) => .ok (.error error, cache)
      | (.ok refined, cache) =>
        match p.lookUpPolicyByTxType tx.payload.txType.name with
        | none => .ok (.error (.policyNotConfigured tx.payload.txType.name), cache)
        | some pol =>
          p.members.verifyPrincipalPolicy [] tx.payload.txType.name pol refined cache

def verifySenderPrincipal (tx : Transaction) (txBytes : Bytes) (bypassVerifySign : Bool)
    (currentResourceName : Bytes) (cache : MemberCache) : Except Panic (Verdict × MemberCache) :=
  if p.members.getTotalVoterNum = 0 then .ok (.error .emptyVoterList, cache)
  else
    let resourceName := if bypassVerifySign then currentResourceName else getTxResourceName tx
    match tx.sender with
    | none => .ok (.error .noSigner, cache)
    | some sender =>
      match p.members.principalEndorsements verifier txBytes bypassVerifySign tx.sender
        [sender] cache with
      | (.error error, cache) => .ok (.error error, cache)
      | (.ok refined, cache) =>
        match p.findFromSenderPolicies resourceName with
        | none => .ok (.ok (), cache)
        | some pol => p.members.verifyPrincipalPolicy [] resourceName pol refined cache

def targetOrgOf (tx : Transaction) (pol : Policy) : Bytes :=
  if pol.rule = ruleSelf then
    ((tx.payload.parameters.find? fun parameter => parameter.1 = configNameOrgId).map
      (·.2)).getD []
  else []

def verifyEndorsementsPrincipalCommon (tx : Transaction) (txBytes resourceName : Bytes)
    (bypassVerifySign : Bool) (cache : MemberCache) : Except Panic (Verdict × MemberCache) :=
  if p.members.getTotalVoterNum = 0 then .ok (.error .emptyVoterList, cache)
  else
    match p.findFromEndorsementsPolicies resourceName with
    | none => .ok (.ok (), cache)
    | some pol =>
      let endorsements := tx.endorsers ++ tx.sender.toList
      if pol.rule = ruleSelf ∧ targetOrgOf tx pol = [] then .ok (.error .orgIdNotSet, cache)
      else
        match p.members.principalError (pol.rule = ruleSelf) endorsements with
        | some error => .ok (.error error, cache)
        | none =>
          match p.members.principalEndorsements verifier txBytes bypassVerifySign tx.sender
            endorsements cache with
          | (.error error, cache) => .ok (.error error, cache)
          | (.ok refined, cache) =>
            p.members.verifyPrincipalPolicy (targetOrgOf tx pol) resourceName pol refined
              cache

def verifyEndorsementsPrincipal (tx : Transaction) (txBytes : Bytes) (bypassVerifySign : Bool)
    (currentResourceName : Bytes) (cache : MemberCache) : Except Panic (Verdict × MemberCache) :=
  let resourceName := if bypassVerifySign then currentResourceName else getTxResourceName tx
  p.verifyEndorsementsPrincipalCommon verifier tx txBytes resourceName bypassVerifySign cache

def verifyTxPrincipal (tx : Transaction) (resourceId : Bytes) (cache : MemberCache) :
    Except Panic (Except TxAuthError Unit × MemberCache) := do
  let crossCall : Bool := getTxResourceName tx ≠ resourceId
  let txBytes := if crossCall then [] else tx.payload.unsignedTxBytes
  match ← p.verifyTxTypePrincipal verifier tx txBytes crossCall cache with
  | (.error error, cache) => return (.error (.txTypePrincipal error), cache)
  | (.ok (), cache) =>
    if tx.payload.txType ≠ .invokeContract then return (.ok (), cache)
    else
      match ← p.verifySenderPrincipal verifier tx txBytes true resourceId cache with
      | (.error error, cache) => return (.error (.senderPrincipal error), cache)
      | (.ok (), cache) =>
        match ← p.verifyEndorsementsPrincipal verifier tx txBytes crossCall resourceId cache with
        | (.error error, cache) =>
          return (.error (.endorsementsPrincipal resourceId error), cache)
        | (.ok (), cache) => return (.ok (), cache)

section Accepted

variable {p verifier} {tx : Transaction} {txBytes resourceName : Bytes} {bypass : Bool}
  {cache cache' : MemberCache}

theorem verifyTxTypePrincipal_accepted (accepted : p.verifyTxTypePrincipal verifier tx txBytes bypass cache = .ok (.ok (), cache')) :
    ∃ sender refined between pol, tx.sender = some sender ∧
      p.members.principalEndorsements verifier txBytes bypass tx.sender [sender] cache = (.ok refined, between) ∧
      p.members.verifyPrincipalPolicy [] tx.payload.txType.name pol refined between = .ok (.ok (), cache') := by
  unfold verifyTxTypePrincipal at accepted
  split at accepted
  · cases accepted
  · split at accepted
    · cases accepted
    · next sender isSender =>
      split at accepted
      · cases accepted
      · next refined between done =>
        split at accepted
        · cases accepted
        · next pol _ => exact ⟨sender, refined, between, pol, isSender, done, accepted⟩

theorem verifySenderPrincipal_accepted
    (accepted : p.verifySenderPrincipal verifier tx txBytes bypass resourceName cache = .ok (.ok (), cache')) :
    ∃ sender refined between, tx.sender = some sender ∧ p.members.principalEndorsements verifier txBytes bypass tx.sender [sender] cache =
        (.ok refined, between) ∧
      (cache' = between ∨ ∃ resource pol, p.members.verifyPrincipalPolicy [] resource pol refined between = .ok (.ok (), cache')) := by
  simp only [verifySenderPrincipal] at accepted
  generalize (if bypass = true then resourceName else getTxResourceName tx) = resource at accepted
  split at accepted
  · cases accepted
  · split at accepted
    · cases accepted
    · next sender isSender =>
      split at accepted
      · cases accepted
      · next refined between done =>
        refine ⟨sender, refined, between, isSender, done, ?_⟩
        split at accepted
        · cases accepted
          exact .inl rfl
        · next pol _ => exact .inr ⟨_, pol, accepted⟩

theorem verifyEndorsementsPrincipalCommon_accepted {pol : Policy} (configured : p.findFromEndorsementsPolicies resourceName = some pol)
    (accepted : p.verifyEndorsementsPrincipalCommon verifier tx txBytes resourceName bypass cache = .ok (.ok (), cache')) :
    ∃ refined between, p.members.principalEndorsements verifier txBytes bypass tx.sender
        (tx.endorsers ++ tx.sender.toList) cache = (.ok refined, between) ∧
      p.members.verifyPrincipalPolicy (targetOrgOf tx pol) resourceName pol refined between = .ok (.ok (), cache') := by
  unfold verifyEndorsementsPrincipalCommon at accepted
  split at accepted
  · cases accepted
  · rw [configured] at accepted
    simp only at accepted
    split at accepted
    · cases accepted
    · split at accepted
      · cases accepted
      · split at accepted
        · cases accepted
        · next refined between done => exact ⟨refined, between, done, accepted⟩

theorem verifyTxPrincipal_accepted {resourceId : Bytes} (invocation : tx.payload.txType = .invokeContract) (crossCall : Bool)
    (isCrossCall : crossCall = decide (getTxResourceName tx ≠ resourceId))
    (isTxBytes : txBytes = if crossCall then [] else tx.payload.unsignedTxBytes) :
    p.verifyTxPrincipal verifier tx resourceId cache = .ok (.ok (), cache') ↔ ∃ first second,
        p.verifyTxTypePrincipal verifier tx txBytes crossCall cache = .ok (.ok (), first) ∧
        p.verifySenderPrincipal verifier tx txBytes true resourceId first = .ok (.ok (), second) ∧
        p.verifyEndorsementsPrincipal verifier tx txBytes crossCall resourceId second = .ok (.ok (), cache') := by
  subst isTxBytes
  subst isCrossCall
  constructor
  · intro accepted
    obtain ⟨⟨typeVerdict, first⟩, typeChecked, rest⟩ := bind_eq_ok.mp accepted
    cases typeVerdict with
    | error error => cases rest
    | ok _ =>
      simp only [invocation, ne_eq, not_true_eq_false, if_false] at rest
      obtain ⟨⟨senderVerdict, second⟩, senderChecked, rest⟩ := bind_eq_ok.mp rest
      cases senderVerdict with
      | error error => cases rest
      | ok _ =>
        obtain ⟨⟨verdict, last⟩, checked, result⟩ := bind_eq_ok.mp rest
        cases verdict with
        | error error => cases result
        | ok _ =>
          cases result
          exact ⟨first, second, typeChecked, senderChecked, checked⟩
  · intro checks
    obtain ⟨first, second, typeChecked, senderChecked, checked⟩ := checks
    refine bind_eq_ok.mpr ⟨_, typeChecked, ?_⟩
    simp only [invocation, ne_eq, not_true_eq_false, if_false]
    exact bind_eq_ok.mpr ⟨_, senderChecked, bind_eq_ok.mpr ⟨_, checked, rfl⟩⟩

end Accepted

end AcProvider

end Pdcc.AccessControl
