import Pdcc.AccessControl.OrgQuorum

/-!
# The member cache and what it changes

The refinement of endorsements, the check of policies and the construction of members
share one cache. They put members into it after different checks, and a member that is
found there is checked less than a new one. A refinement comes out the same from every
cache exactly if these two checks agree on each of its signers.
-/

set_option autoImplicit false

namespace Pdcc.AccessControl

open Ledger Library

namespace CertACProvider

variable (cp : CertACProvider)

def resolveMember (pbMember : PbMember) : Option PbMember :=
  if isCompressed pbMember.memberType then
    (cp.lookUpCertCache pbMember.memberInfo).map fun text => { pbMember with memberInfo := text }
  else some pbMember

def newMember (cache : MemberCache) (pbMember : PbMember) : Option Member × MemberCache :=
  if !isNamed pbMember then (none, cache)
  else
    match cp.resolveMember pbMember with
    | none => (none, cache)
    | some memberTmp =>
      match cache.get memberTmp.memberInfo with
      | some memberCache => (some memberCache.member, cache)
      | none =>
        match cp.authenticate memberTmp with
        | none => (none, cache)
        | some info => (some info.member, cache.add memberTmp.memberInfo info)

/-- The caches after any calls, from an empty one. -/
inductive CacheReached (verifier : Verifier) : MemberCache → Prop where
  | start (totalCap : Nat) : CacheReached verifier (ShardCache.newShardCache totalCap)
  | refined {cache : MemberCache} (msg : Bytes) (endorsements : List EndorsementEntry) :
      CacheReached verifier cache →
        CacheReached verifier (cp.refineEndorsements verifier msg cache endorsements).2
  | evaluated {cache cache' : MemberCache} {verdict : Verdict} (targetOrg resourceName : Bytes)
      (pol : Policy) (endorsements : List EndorsementEntry) :
      CacheReached verifier cache →
        verifyPrincipalPolicy cp.rebuildMember cp.orgNum targetOrg resourceName pol endorsements
          cache = .ok (verdict, cache') → CacheReached verifier cache'
  | made {cache : MemberCache} (pbMember : PbMember) :
      CacheReached verifier cache → CacheReached verifier (cp.newMember cache pbMember).2
  | cleared {cache : MemberCache} (index : Fin Snapshot.shardCount) :
      CacheReached verifier cache → CacheReached verifier (cache.clearShard index)

/-- Endorsements of these signers are refined as with an empty cache. -/
def CacheTransparent (signers : List PbMember) : Prop :=
  ∀ (verifier : Verifier) (cache : MemberCache) (totalCap : Nat) (msg : Bytes)
    (endorsements : List EndorsementEntry),
    cp.CacheReached verifier cache → endorsements.map (·.signer) = signers →
      (cp.refineEndorsements verifier msg cache endorsements).1 =
        (cp.refineEndorsements verifier msg (ShardCache.newShardCache totalCap) endorsements).1

def chainValid (certChain : List Certificate) : Bool :=
  cp.checkCRL certChain && cp.checkCertFrozenList certChain

def firstChain (cert : Certificate) : Option (List Certificate) :=
  (cp.x509.verify cp.opts cert).bind List.head?

def cachedCredential (info : MemberCached) (text : Bytes) (signer : PbMember) : Option Credential :=
  if cp.recognizes info signer text then some info.member.credential else none

def newCredential (signer : PbMember) : Option Credential :=
  (cp.authenticate signer).map (·.member.credential)

/-- Whatever the cache holds for a text, its signer is verified with the same credential. -/
def Agrees (text : Bytes) (signer : PbMember) : Prop :=
  ∀ info, cp.Recorded text info → cp.cachedCredential info text signer = cp.newCredential signer

/-- When it makes no difference for a signer what the cache holds for the text it is handled
under. Trusted members apart, its certificate passes verification exactly if the first of its
chains is valid, and it claims an organization. -/
structure Steady (text : Bytes) (signer : PbMember) : Prop where
  claims : isNamed signer = true → ∀ cert, cp.x509.parse text = some cert →
    cp.loadTrustMembers text = none → (cp.verifyMember cert.member).isSome = true →
      signer.orgId ≠ []
  chain : isNamed signer = true → ∀ cert, cp.x509.parse text = some cert →
    cp.loadTrustMembers text = none → signer.orgId = cert.orgId →
      ∀ chain, cp.firstChain cert = some chain →
        cp.chainValid chain = (cp.verifyMember cert.member).isSome
  carried : isNamed signer = false → cp.Agrees text signer

section Reached

variable {cp} {verifier : Verifier} {cache : MemberCache}

theorem newMember_holds (holds : cache.Holds cp.Recorded) (pbMember : PbMember) : (cp.newMember cache pbMember).2.Holds cp.Recorded := by
  unfold newMember
  split
  · exact holds
  · split
    · exact holds
    · split
      · exact holds
      · split
        · exact holds
        · next info authenticated => exact holds.add (recorded_of_authenticate authenticated)

theorem CacheReached.holds (reached : cp.CacheReached verifier cache) : cache.Holds cp.Recorded := by
  induction reached with
  | start totalCap => exact ShardCache.Holds.newShardCache _ _
  | refined msg endorsements _ ih =>
    exact (refineEndorsements_spec (fun _ _ => recorded_of_authenticate) verifier msg ih endorsements).1
  | evaluated targetOrg resourceName pol endorsements _ done ih =>
    exact verifyPrincipalPolicy_holds (fun _ _ => recorded_of_rebuildMember) ih done
  | made pbMember _ ih => exact newMember_holds ih pbMember
  | cleared index _ ih => exact ih.clearShard index

end Reached

section Authentication

@[simp] theorem orgId_member (cert : Certificate) : cert.member.orgId = cert.orgId := rfl

@[simp] theorem credential_member (cert : Certificate) : cert.member.credential = .certificate cert := rfl

variable {cp} {signer : PbMember} {cert : Certificate} {trusted : TrustMemberConfig}

theorem authenticate_trusted (loaded : cp.loadTrustMembers signer.memberInfo = some trusted)
    (parsed : cp.x509.parse signer.memberInfo = some cert) :
    cp.authenticate signer = some ⟨⟨trusted.orgId, toUpper trusted.role, .certificate cert⟩, []⟩ := by
  rw [authenticate_eq, parsed, loaded]
  rfl

theorem authenticate_untrusted (named : isNamed signer = true) (untrusted : cp.loadTrustMembers signer.memberInfo = none)
    (parsed : cp.x509.parse signer.memberInfo = some cert) :
    cp.authenticate signer = if signer.orgId = [] ∨ signer.orgId = cert.orgId then
        (cp.verifyMember cert.member).map (⟨cert.member, ·⟩)
      else none := by
  rw [authenticate_eq, parsed, untrusted, Option.bind_some, Option.elim_none]
  simp only [named, true_and]

theorem newCredential_trusted (loaded : cp.loadTrustMembers signer.memberInfo = some trusted)
    (parsed : cp.x509.parse signer.memberInfo = some cert) :
    cp.newCredential signer = some (.certificate cert) := by
  rw [newCredential, authenticate_trusted loaded parsed]
  rfl

theorem newCredential_untrusted (named : isNamed signer = true) (untrusted : cp.loadTrustMembers signer.memberInfo = none)
    (parsed : cp.x509.parse signer.memberInfo = some cert) :
    cp.newCredential signer = if (signer.orgId = [] ∨ signer.orgId = cert.orgId) ∧ (cp.verifyMember cert.member).isSome then
        some (.certificate cert)
      else none := by
  rw [newCredential, authenticate_untrusted named untrusted parsed]
  cases cp.verifyMember cert.member with
  | none => simp
  | some chain =>
    by_cases claimed : signer.orgId = [] ∨ signer.orgId = cert.orgId
    · simp [claimed, Certificate.member]
    · simp [claimed]

variable {text : Bytes} {chain : List Certificate}

theorem cachedCredential_untrusted (untrusted : cp.loadTrustMembers text = none) : cp.cachedCredential ⟨cert.member, chain⟩ text signer =
      if cp.chainValid chain = true ∧ signer.orgId = cert.orgId then some (.certificate cert)
      else none := by
  have recognized : cp.recognizes ⟨cert.member, chain⟩ signer text = true ↔ cp.chainValid chain = true ∧ signer.orgId = cert.orgId := by
    rw [recognizes, untrusted, chainValid, Option.isSome_none, Bool.false_or, Bool.and_eq_true,
      decide_eq_true_eq, orgId_member]
  rw [cachedCredential]
  by_cases known : cp.recognizes ⟨cert.member, chain⟩ signer text = true
  · rw [if_pos known, if_pos (recognized.mp known)]
    rfl
  · rw [if_neg known, if_neg (mt recognized.mpr known)]

theorem verifyMember_eq_some (verified : cp.verifyMember cert.member = some chain) : cert.orgId ≠ [] ∧ cp.chainValid chain = true := by
  simp only [verifyMember, credential_member] at verified
  split at verified
  · cases verified
  · next orgId rest organization =>
    split at verified
    · cases verified
    · next named =>
      have own : cert.orgId = orgId := by simp [Certificate.orgId, organization]
      refine ⟨fun empty => named (own.symm.trans empty), ?_⟩
      split at verified
      · cases verified
      · split at verified
        · split at verified
          · cases verified
          · have found := List.find?_some verified
            simp only [Bool.and_eq_true] at found
            simp [chainValid, found]
        · cases verified

theorem firstChain_eq_some : cp.firstChain cert = some chain ↔ ∃ others, cp.x509.verify cp.opts cert = some (chain :: others) := by
  simp only [firstChain, Option.bind_eq_some_iff, List.head?_eq_some_iff]
  constructor
  · intro ⟨chains, verified, others, same⟩
    exact ⟨others, same ▸ verified⟩
  · intro ⟨others, verified⟩
    exact ⟨_, verified, others, rfl⟩

theorem recorded_untrusted_iff {info : MemberCached} (untrusted : cp.loadTrustMembers text = none) (parsed : cp.x509.parse text = some cert) :
    cp.Recorded text info ↔ ∃ chain, info = ⟨cert.member, chain⟩ ∧
      (cp.verifyMember cert.member = some chain ∨ cp.firstChain cert = some chain) := by
  constructor
  · intro ⟨other, again, kind⟩
    cases parsed.symm.trans again
    rcases kind with ⟨trusted, loaded, _⟩ | ⟨_, same, verified⟩ | ⟨same, built⟩
    · rw [untrusted] at loaded
      cases loaded
    · exact ⟨info.certChain, by rw [← same], .inl verified⟩
    · exact ⟨info.certChain, by rw [← same], .inr (firstChain_eq_some.mpr built)⟩
  · intro ⟨chain, same, kind⟩
    subst same
    refine ⟨cert, parsed, .inr ?_⟩
    exact kind.imp (fun verified => ⟨untrusted, rfl, verified⟩) fun built => ⟨rfl, firstChain_eq_some.mp built⟩

theorem agrees_of_trusted (loaded : cp.loadTrustMembers signer.memberInfo = some trusted) : cp.Agrees signer.memberInfo signer := by
  intro info ⟨cert, parsed, kind⟩
  have recognized : cp.recognizes info signer signer.memberInfo = true := by
    rw [recognizes, loaded]
    rfl
  rw [newCredential_trusted loaded parsed, cachedCredential, if_pos recognized]
  rcases kind with ⟨_, _, same⟩ | ⟨untrusted, _⟩ | ⟨same, _⟩
  · rw [same]
  · rw [loaded] at untrusted
    cases untrusted
  · rw [same]
    rfl

theorem Steady.agrees_of_untrusted (steady : cp.Steady signer.memberInfo signer)
    (named : isNamed signer = true) (untrusted : cp.loadTrustMembers signer.memberInfo = none) :
    cp.Agrees signer.memberInfo signer := by
  intro info recorded
  have ⟨cert, parsed, _⟩ := recorded
  obtain ⟨chain, rfl, kind⟩ := (recorded_untrusted_iff untrusted parsed).mp recorded
  rw [cachedCredential_untrusted untrusted, newCredential_untrusted named untrusted parsed]
  have claims := steady.claims named cert parsed untrusted
  have chains := steady.chain named cert parsed untrusted
  have valid (own : signer.orgId = cert.orgId) : cp.chainValid chain = (cp.verifyMember cert.member).isSome := by
    rcases kind with verified | built
    · rw [verified, (verifyMember_eq_some verified).2]
      rfl
    · exact chains own chain built
  by_cases own : signer.orgId = cert.orgId
  · simp [own, valid own]
  · by_cases verified : (cp.verifyMember cert.member).isSome = true
    · simp [own, claims verified]
    · simp [own, verified]

theorem Agrees.steady_of_named (agrees : cp.Agrees signer.memberInfo signer)
    (named : isNamed signer = true) : cp.Steady signer.memberInfo signer := by
  have same {cert : Certificate} {chain : List Certificate} (parsed : cp.x509.parse signer.memberInfo = some cert)
      (untrusted : cp.loadTrustMembers signer.memberInfo = none)
      (kind : cp.verifyMember cert.member = some chain ∨ cp.firstChain cert = some chain) :
      (cp.chainValid chain = true ∧ signer.orgId = cert.orgId) ↔
        ((signer.orgId = [] ∨ signer.orgId = cert.orgId) ∧ (cp.verifyMember cert.member).isSome = true) := by
    have alike := agrees _ ((recorded_untrusted_iff untrusted parsed).mpr ⟨chain, rfl, kind⟩)
    rw [cachedCredential_untrusted untrusted, newCredential_untrusted named untrusted parsed] at alike
    split at alike
    · next cached =>
      split at alike
      · next fresh => exact ⟨fun _ => fresh, fun _ => cached⟩
      · cases alike
    · next uncached =>
      split at alike
      · cases alike
      · next stale =>
        exact ⟨fun cached => absurd cached uncached, fun fresh => absurd fresh stale⟩
  refine ⟨?_, ?_, fun unnamed => ?_⟩
  · intro _ cert parsed untrusted verified empty
    obtain ⟨chain, found⟩ := Option.isSome_iff_exists.mp verified
    have own := ((same parsed untrusted (.inl found)).mpr ⟨.inl empty, verified⟩).2
    exact (verifyMember_eq_some found).1 (own.symm.trans empty)
  · intro _ cert parsed untrusted own chain built
    have alike := same parsed untrusted (.inr built)
    rw [Bool.eq_iff_iff]
    simpa [own] using alike
  · rw [named] at unnamed
    cases unnamed

theorem steady_iff_agrees (own : isNamed signer = true → text = signer.memberInfo) : cp.Steady text signer ↔ cp.Agrees text signer := by
  cases named : isNamed signer with
  | false =>
    refine ⟨fun steady => steady.carried named, fun agrees => ⟨?_, ?_, fun _ => agrees⟩⟩
    · intro other
      rw [named] at other
      cases other
    · intro other
      rw [named] at other
      cases other
  | true =>
    cases own named
    refine ⟨fun steady => ?_, fun agrees => agrees.steady_of_named named⟩
    cases loaded : cp.loadTrustMembers signer.memberInfo with
    | some trusted => exact agrees_of_trusted loaded
    | none => exact steady.agrees_of_untrusted named loaded

end Authentication

section Transparency

variable {cp} {verifier : Verifier} {cache : MemberCache} {msg text : Bytes}

theorem verifySigner_absent (absent : cache.get text = none) (endorsement : EndorsementEntry) :
    (cp.verifySigner verifier msg cache text endorsement).1 =
      (cp.newCredential endorsement.signer).any (verifier · msg endorsement.signature) := by
  simp only [verifySigner, absent, verifyPrincipalSignerNotInCache, newCredential]
  cases cp.authenticate endorsement.signer with
  | none => rfl
  | some info =>
    cases signed : verifier info.member.credential msg endorsement.signature with
    | false => simp [Option.filter, Member.verify, signed]
    | true => simp [Option.filter, Member.verify, signed]

variable {info : MemberCached}

theorem verifySigner_present (present : cache.get text = some info) (endorsement : EndorsementEntry) :
    (cp.verifySigner verifier msg cache text endorsement).1 =
      (cp.cachedCredential info text endorsement.signer).any (verifier · msg endorsement.signature) := by
  simp only [verifySigner, present, verifyPrincipalSignerInCache, cachedCredential]
  cases cp.recognizes info endorsement.signer text with
  | false => rfl
  | true => simp [Member.verify]

theorem Agrees.verifySigner {endorsement : EndorsementEntry} (agrees : cp.Agrees text endorsement.signer) (holds : cache.Holds cp.Recorded) :
    (cp.verifySigner verifier msg cache text endorsement).1 =
      (cp.newCredential endorsement.signer).any (verifier · msg endorsement.signature) := by
  cases present : cache.get text with
  | none => exact verifySigner_absent present endorsement
  | some info => rw [verifySigner_present present, agrees info (holds _ _ present)]

theorem refineEndorsements_eq_of_agrees {cache' : MemberCache} {endorsements : List EndorsementEntry}
    (agrees : ∀ item ∈ cp.presentedSigners [] (endorsements.map (·.signer)), cp.Agrees item.1 item.2)
    (holds : cache.Holds cp.Recorded) (holds' : cache'.Holds cp.Recorded) :
    (cp.refineEndorsements verifier msg cache endorsements).1 = (cp.refineEndorsements verifier msg cache' endorsements).1 := by
  rw [← cp.presented_signers] at agrees
  have keeps (state : MemberCache) (key : Bytes) (item : EndorsementEntry) (before : state.Holds cp.Recorded) :
      (cp.verifySigner verifier msg state key item).2.Holds cp.Recorded :=
    verifySigner_holds (fun _ _ => recorded_of_authenticate) before
  have decided (pair : Bytes × EndorsementEntry) (inside : pair ∈ cp.presented [] endorsements)
      (state : MemberCache) (before : state.Holds cp.Recorded) :
      (cp.verifySigner verifier msg state pair.1 pair.2).1 = (cp.newCredential pair.2.signer).any (verifier · msg pair.2.signature) :=
    (agrees (pair.1, pair.2.signer) (List.mem_map.mpr ⟨pair, inside, rfl⟩)).verifySigner before
  simp only [refineEndorsements, refineWith_eq_admit]
  rw [admitOnce_fst_eq keeps decided [] holds, admitOnce_fst_eq keeps decided [] holds']

theorem exists_refined_alone {signers : List PbMember} {signer : PbMember} (inside : (text, signer) ∈ cp.presentedSigners [] signers)
    (invalid : ∀ credential, verifier credential msg [] = false) {signature : Bytes}
    (nonempty : signature ≠ []) :
    ∃ endorsements : List EndorsementEntry, endorsements.map (·.signer) = signers ∧
      ∀ cache, (cp.refineEndorsements verifier msg cache endorsements).1 =
        if (cp.verifySigner verifier msg cache text ⟨signer, signature⟩).1 then
          [⟨signer, signature⟩]
        else [] := by
  obtain ⟨endorsements, same, refined, _⟩ :=
    exists_refined_chosen (List.singleton_sublist.mpr inside) nonempty invalid
  refine ⟨endorsements, same, fun cache => ?_⟩
  rw [refined, List.map_singleton, withSignature]
  cases checked : cp.verifySigner verifier msg cache text ⟨signer, signature⟩ with
  | mk verified cache' =>
    cases verified with
    | true =>
      rw [admitOnce_cons_kept checked List.not_mem_nil]
      rfl
    | false =>
      rw [admitOnce_cons_dropped checked (.inl rfl)]
      rfl

variable {pbMember : PbMember}

theorem rebuildMember_eq_ok {cert : Certificate} {chain : List Certificate}
    {others : List (List Certificate)} (built : cp.newCertMember pbMember = some cert.member)
    (verified : cp.x509.verify cp.opts cert = some (chain :: others)) :
    cp.rebuildMember pbMember = .ok (some ⟨cert.member, chain⟩) := by
  simp only [rebuildMember, built, credential_member, verified]

theorem reached_of_rebuildMember (built : cp.rebuildMember pbMember = .ok (some info)) (verifier : Verifier) :
    cp.CacheReached verifier ((ShardCache.newShardCache 0).add pbMember.memberInfo info) := by
  have looked : getMemberFromCache cp.rebuildMember (ShardCache.newShardCache 0) pbMember =
      .ok (some info.member, (ShardCache.newShardCache 0).add pbMember.memberInfo info) := by
    rw [getMemberFromCache, ShardCache.get_newShardCache, built]
  have met : meets cp.rebuildMember [] [roleAdmin] (ShardCache.newShardCache 0) ⟨pbMember, []⟩ = .ok ([roleAdmin].contains info.member.role,
        (ShardCache.newShardCache 0).add pbMember.memberInfo info) := by
    simp only [meets, List.isEmpty_nil, Bool.true_or, if_true, List.isEmpty_cons, Bool.false_eq_true, if_false, looked]
  have searched : ∃ found, anyMeets cp.rebuildMember [] [roleAdmin] [⟨pbMember, []⟩] (ShardCache.newShardCache 0) =
        .ok (found, (ShardCache.newShardCache 0).add pbMember.memberInfo info) := by
    simp only [anyMeets, met, bind, Except.bind]
    split
    · exact ⟨true, rfl⟩
    · exact ⟨false, rfl⟩
  obtain ⟨found, searched⟩ := searched
  have evaluated : ∃ verdict, verifyPrincipalPolicy cp.rebuildMember cp.orgNum [] []
      ⟨ruleAny, [], [roleAdmin]⟩ [⟨pbMember, []⟩] (ShardCache.newShardCache 0) =
        .ok (verdict, (ShardCache.newShardCache 0).add pbMember.memberInfo info) := by
    rw [verifyPrincipalPolicy_any rfl, verifyPrincipalPolicyRuleAnyCase, searched]
    exact ⟨_, rfl⟩
  obtain ⟨verdict, evaluated⟩ := evaluated
  exact .evaluated [] [] _ _ (.start 0) evaluated

theorem reached_of_authenticate (isCert : pbMember.memberType = .cert)
    (authenticated : cp.authenticate pbMember = some info) (verifier : Verifier) :
    cp.CacheReached verifier ((ShardCache.newShardCache 0).add pbMember.memberInfo info) := by
  have made : (cp.newMember (ShardCache.newShardCache 0) pbMember).2 = (ShardCache.newShardCache 0).add pbMember.memberInfo info := by
    simp [newMember, isNamed, isCompressed, resolveMember, isCert, authenticated]
  rw [← made]
  exact .made pbMember (.start 0)

theorem exists_reached_of_recorded (recorded : cp.Recorded text info) (verifier : Verifier) :
    ∃ cache, cp.CacheReached verifier cache ∧ cache.get text = some info := by
  obtain ⟨cert, parsed, kind⟩ := recorded
  refine ⟨(ShardCache.newShardCache 0).add text info, ?_, ShardCache.get_add_self _ _ _⟩
  let pbMember : PbMember := ⟨[], text, .cert⟩
  rcases kind with ⟨trusted, loaded, rfl⟩ | ⟨untrusted, same, verified⟩ | ⟨same, others, verified⟩
  · have authenticated : cp.authenticate pbMember = _ := authenticate_trusted loaded parsed
    exact reached_of_authenticate rfl authenticated verifier
  · have authenticated : cp.authenticate pbMember = some info := by
      rw [authenticate_untrusted rfl untrusted parsed, if_pos (.inl rfl), verified, Option.map_some, ← same]
    exact reached_of_authenticate rfl authenticated verifier
  · have built : cp.newCertMember pbMember = some cert.member := by
      simp [newCertMember, newMemberFromCertPem, pbMember, parsed, Certificate.member]
    have rebuilt := rebuildMember_eq_ok built verified
    rw [← same] at rebuilt
    exact reached_of_rebuildMember rebuilt verifier

theorem any_signedBy {found : Option Credential} {credential : Credential} :
    found.any (signedBy credential · [] [1]) = true ↔ found = some credential := by
  cases found with
  | none => simp
  | some other => simp [signedBy]

theorem CacheTransparent.agrees {signers : List PbMember} (transparent : cp.CacheTransparent signers) {item : Bytes × PbMember}
    (inside : item ∈ cp.presentedSigners [] signers) :
    cp.Agrees item.1 item.2 := by
  intro info recorded
  apply Option.ext
  intro credential
  obtain ⟨cache, reached, present⟩ := exists_reached_of_recorded recorded (signedBy credential)
  have invalid : ∀ other, signedBy credential other [] [] = false := by simp [signedBy]
  obtain ⟨endorsements, same, alone⟩ := exists_refined_alone inside invalid (List.cons_ne_nil 1 [])
  have alike := transparent (signedBy credential) cache 0 [] endorsements reached same
  rw [alone, alone, verifySigner_present present, verifySigner_absent (ShardCache.get_newShardCache 0 item.1)] at alike
  rw [← any_signedBy, ← any_signedBy]
  constructor
  · intro cached
    by_contra fresh
    rw [if_pos cached, if_neg fresh] at alike
    cases alike
  · intro fresh
    by_contra cached
    rw [if_neg cached, if_pos fresh] at alike
    cases alike

/-- A refinement is the same with every cache exactly if each signer it comes to is steady. -/
theorem cacheTransparent_iff (cp : CertACProvider) (signers : List PbMember) : cp.CacheTransparent signers ↔
      ∀ item ∈ cp.presentedSigners [] signers, cp.Steady item.1 item.2 := by
  have steady_iff (item : Bytes × PbMember) (inside : item ∈ cp.presentedSigners [] signers) :
      cp.Steady item.1 item.2 ↔ cp.Agrees item.1 item.2 :=
    steady_iff_agrees fun named => cp.presentedSigners_text inside named
  constructor
  · intro transparent item inside
    rw [steady_iff item inside]
    exact transparent.agrees inside
  · intro steady verifier cache totalCap msg endorsements reached same
    subst same
    exact refineEndorsements_eq_of_agrees
      (fun item inside => (steady_iff item inside).mp (steady item inside)) reached.holds
      (ShardCache.Holds.newShardCache _ _)

private def foreignCert : Certificate := ⟨[1], [ascii "org1"], [ascii "client"], [], 1⟩

private def secondRoot : Certificate := ⟨[3], [ascii "org2"], [ascii "ca"], [], 2⟩

private def twoRoots : CertACProvider where
  x509 :=
    { parse := fun text => if text = [1] then some foreignCert else none
      parsePem := fun text => if text = [1] then some foreignCert else none
      verify := fun _ cert => some [[cert, secondRoot]]
      parse_empty := rfl }
  orgNum := 2
  orgList := (AList.singleton (ascii "org1") ⟨[[2]]⟩).insert (ascii "org2") ⟨[[3]]⟩
  opts := ⟨[secondRoot], []⟩
  trustMembers := TrustMembers.empty
  certs := ∅
  certs_ids := fun _ _ found => by cases found
  crl := ∅
  frozenList := []

private def foreignEntry : EndorsementEntry := ⟨⟨ascii "org1", [1], .cert⟩, [1]⟩

/-- A certificate that fails verification is accepted after a policy was checked with it. -/
theorem accepted_because_seen : twoRoots.verifyMember foreignCert.member = none ∧
      ∃ cache, twoRoots.CacheReached signedByAll cache ∧
        (twoRoots.refineEndorsements signedByAll [] cache [foreignEntry]).1 = [foreignEntry] ∧
        (twoRoots.refineEndorsements signedByAll [] (ShardCache.newShardCache 0) [foreignEntry]).1 = [] := by
  refine ⟨by decide, (ShardCache.newShardCache 0).add [1]
    ⟨foreignCert.member, [foreignCert, secondRoot]⟩, ?_, by decide, by decide⟩
  have rebuilt : twoRoots.rebuildMember foreignEntry.signer =
      .ok (some ⟨foreignCert.member, [foreignCert, secondRoot]⟩) := rfl
  exact reached_of_rebuildMember rebuilt signedByAll

end Transparency

end CertACProvider

end Pdcc.AccessControl
