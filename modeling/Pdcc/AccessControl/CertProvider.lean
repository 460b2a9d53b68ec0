import Pdcc.Library.Admission
import Pdcc.AccessControl.Policy

/-!
# The certificate provider

Members of a chain with certificates: how they are built from a certificate or
from the list of trusted members, how a certificate is verified against its
organization, and the refinement of an endorsement list to the endorsements
whose signatures are valid.
-/

set_option autoImplicit false

namespace Pdcc.AccessControl

open Ledger Library

structure VerifyOptions where
  roots : List Certificate
  intermediates : List Certificate

/-- The certificate library: reading a certificate from a text, in general and from
a PEM block only, and building its chains to the roots. No certificate is read
from the empty text. -/
structure X509 where
  parse : Bytes → Option Certificate
  parsePem : Bytes → Option Certificate
  verify : VerifyOptions → Certificate → Option (List (List Certificate))
  parse_empty : parse [] = none

structure Organization where
  trustedRootCerts : List Bytes

structure TrustMemberConfig where
  memberInfo : Bytes
  orgId : Bytes
  role : Bytes

structure TrustMembers where
  table : AList fun _ : Bytes => TrustMemberConfig
  keyed : ∀ text trusted, table.lookup text = some trusted → trusted.memberInfo = text

def TrustMembers.empty : TrustMembers where
  table := ∅
  keyed := fun text trusted found => by
    rw [AList.lookup_empty] at found
    cases found

def TrustMembers.store (members : TrustMembers) (member : TrustMemberConfig) : TrustMembers where
  table := members.table.insert member.memberInfo member
  keyed := fun text trusted found => by
    by_cases same : text = member.memberInfo
    · subst same
      rw [AList.lookup_insert] at found
      cases found
      rfl
    · rw [AList.lookup_insert_ne same] at found
      exact members.keyed text trusted found

def initTrustMembers (x509 : X509) (members : List TrustMemberConfig) : Option TrustMembers :=
  members.foldlM (fun stored member =>
    (x509.parsePem member.memberInfo).map fun _ => stored.store member) TrustMembers.empty

structure CertACProvider where
  x509 : X509
  orgNum : Nat
  orgList : AList fun _ : Bytes => Organization
  opts : VerifyOptions
  trustMembers : TrustMembers
  certs : AList fun _ : Bytes => Bytes
  certs_ids : ∀ certId text, certs.lookup certId = some text → x509.parse certId = none
  crl : AList fun _ : Bytes => List Int
  frozenList : List Bytes

def Certificate.orgId (cert : Certificate) : Bytes := cert.organization.head?.getD []

def Certificate.role (cert : Certificate) : Role :=
  toUpper (cert.organizationalUnit.head?.getD [])

def Certificate.member (cert : Certificate) : Member :=
  ⟨cert.orgId, cert.role, .certificate cert⟩

def isCompressed (memberType : MemberType) : Bool :=
  memberType = .certHash || memberType = .alias

namespace CertACProvider

variable (cp : CertACProvider)

def loadTrustMembers (memberInfo : Bytes) : Option TrustMemberConfig :=
  cp.trustMembers.table.lookup memberInfo

def lookUpCertCache (certId : Bytes) : Option Bytes := cp.certs.lookup certId

def checkCRL (certChain : List Certificate) : Bool :=
  !certChain.isEmpty && certChain.all fun cert =>
    !((cp.crl.lookup cert.authorityKeyId).getD []).contains cert.serialNumber

def checkCertFrozenList : List Certificate → Bool
  | [] => false
  | cert :: _ => !cp.frozenList.contains cert.raw

def newCertMemberFromParam (orgId role certPEM : Bytes) : Option Member :=
  (cp.x509.parse certPEM).map fun cert => ⟨orgId, toUpper role, .certificate cert⟩

def newMemberFromCertPem (orgId certPEM : Bytes) : Option Member :=
  (cp.x509.parse certPEM).bind fun cert =>
    let orgId := if orgId = [] then cert.orgId else orgId
    if cert.orgId = orgId then some ⟨orgId, cert.role, .certificate cert⟩ else none

def newCertMember (pbMember : PbMember) : Option Member :=
  if pbMember.memberType = .cert || isCompressed pbMember.memberType then
    cp.newMemberFromCertPem pbMember.orgId pbMember.memberInfo
  else none

def newNoCacheMember (pbMember : PbMember) : Option (Member × Bool) :=
  match cp.loadTrustMembers pbMember.memberInfo with
  | some trusted =>
    (cp.newCertMemberFromParam trusted.orgId trusted.role trusted.memberInfo).map (·, true)
  | none => (cp.newCertMember pbMember).map (·, false)

def findCertChain (org : Organization) (certChains : List (List Certificate)) :
    Option (List Certificate) :=
  certChains.find? fun chain =>
    (chain.getLast?.any fun root => org.trustedRootCerts.contains root.raw) &&
      cp.checkCRL chain && cp.checkCertFrozenList chain

def verifyMember (mem : Member) : Option (List Certificate) :=
  match mem.credential with
  | .publicKey _ => none
  | .certificate cert =>
    match cert.organization with
    | [] => none
    | orgIdFromCert :: _ =>
      if orgIdFromCert = [] then none
      else if mem.orgId ≠ orgIdFromCert then none
      else
        match cp.orgList.lookup orgIdFromCert, cp.x509.verify cp.opts cert with
        | some org, some certChains =>
          if org.trustedRootCerts.isEmpty then none else cp.findCertChain org certChains
        | _, _ => none

def authenticate (signer : PbMember) : Option MemberCached :=
  match cp.newNoCacheMember signer with
  | none => none
  | some (member, true) => some ⟨member, []⟩
  | some (member, false) => (cp.verifyMember member).map (⟨member, ·⟩)

def recognizes (signerInfo : MemberCached) (signer : PbMember) (memInfo : Bytes) : Bool :=
  (cp.loadTrustMembers memInfo).isSome ||
    (cp.checkCRL signerInfo.certChain && cp.checkCertFrozenList signerInfo.certChain &&
      signer.orgId = signerInfo.member.orgId)

/-- A member whose cache entry is gone. An error of the constructor is not looked at
before the certificate is used, so it ends in a panic; revocation, freezing and the
organization's own roots are not checked again. -/
def rebuildMember (signer : PbMember) : Except Panic (Option MemberCached) :=
  match cp.newCertMember signer with
  | none => .error .nilDereference
  | some member =>
    match member.credential with
    | .publicKey _ => .ok none
    | .certificate cert =>
      match cp.x509.verify cp.opts cert with
      | some (certChain :: _) => .ok (some ⟨member, certChain⟩)
      | _ => .ok none

section Refinement

variable (verifier : Verifier) (msg : Bytes)

def verifyPrincipalSignerNotInCache (endorsement : EndorsementEntry) : Option MemberCached :=
  (cp.authenticate endorsement.signer).filter
    (·.member.verify verifier msg endorsement.signature)

def verifyPrincipalSignerInCache (signerInfo : MemberCached) (endorsement : EndorsementEntry)
    (memInfo : Bytes) : Bool :=
  cp.recognizes signerInfo endorsement.signer memInfo &&
    signerInfo.member.verify verifier msg endorsement.signature

/-- The verification of one endorsement: by the member that is cached under the
current certificate text, or else by a new member that then is put into the cache. -/
def verifySigner (cache : MemberCache) (memInfo : Bytes) (endorsement : EndorsementEntry) :
    Bool × MemberCache :=
  match cache.get memInfo with
  | none =>
    match cp.verifyPrincipalSignerNotInCache verifier msg endorsement with
    | none => (false, cache)
    | some signerInfo => (true, cache.add endorsement.signer.memberInfo signerInfo)
  | some signerInfo =>
    (cp.verifyPrincipalSignerInCache verifier msg signerInfo endorsement memInfo, cache)

/-- The certificate text under which a signer is handled, and the signer with its hash or
alias resolved. Only the three certificate types set the text: for any other type the
text of an earlier signer stays. A hash or alias that is not registered skips the
endorsement. -/
def present (memInfo : Bytes) (signer : PbMember) : Option (Bytes × PbMember) :=
  if signer.memberType = .cert then some (signer.memberInfo, signer)
  else if isCompressed signer.memberType then
    (cp.lookUpCertCache signer.memberInfo).map fun text =>
      (text, { signer with memberInfo := text })
  else some (memInfo, signer)

def refineWith (check : MemberCache → Bytes → EndorsementEntry → Bool × MemberCache)
    (memInfo : Bytes) (refinedSigners : List Bytes) (cache : MemberCache) :
    List EndorsementEntry → List EndorsementEntry × MemberCache
  | [] => ([], cache)
  | entry :: rest =>
    match cp.present memInfo entry.signer with
    | none => refineWith check memInfo refinedSigners cache rest
    | some (memInfo, signer) =>
      let endorsement := { entry with signer := signer }
      let (verified, cache) := check cache memInfo endorsement
      if verified && !refinedSigners.contains memInfo then
        let (refined, cache) :=
          refineWith check memInfo (memInfo :: refinedSigners) cache rest
        (endorsement :: refined, cache)
      else refineWith check memInfo refinedSigners cache rest

def refineEndorsements (cache : MemberCache) (endorsements : List EndorsementEntry) :
    List EndorsementEntry × MemberCache :=
  cp.refineWith (cp.verifySigner verifier msg) [] [] cache endorsements

def acceptSigner (cache : MemberCache) (_ : Bytes) (_ : EndorsementEntry) : Bool × MemberCache :=
  (true, cache)

def refineEndorsementsForCertOptimization (cache : MemberCache)
    (endorsements : List EndorsementEntry) : List EndorsementEntry × MemberCache :=
  cp.refineWith acceptSigner [] [] cache endorsements

end Refinement

end CertACProvider

end Pdcc.AccessControl
