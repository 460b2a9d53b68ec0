import Mathlib.Data.Fintype.EquivFin
import Pdcc.AccessControl.CertProvider

/-!
# Soundness of the certificate refinement

The refinement handles an endorsement under the certificate text of the last
signer that named one. Endorsements of other member types are therefore checked
against a text that is carried over, and the refinement is sound exactly for
the lists in which carried texts do no harm.
-/

set_option autoImplicit false

namespace Pdcc.AccessControl

open Ledger Library

namespace CertACProvider

variable (cp : CertACProvider)

def isNamed (signer : PbMember) : Bool :=
  signer.memberType = .cert || isCompressed signer.memberType

def presentedSigners (memInfo : Bytes) : List PbMember → List (Bytes × PbMember)
  | [] => []
  | signer :: rest =>
    match cp.present memInfo signer with
    | none => presentedSigners memInfo rest
    | some (memInfo, signer) => (memInfo, signer) :: presentedSigners memInfo rest

def presented (memInfo : Bytes) : List EndorsementEntry → List (Bytes × EndorsementEntry)
  | [] => []
  | entry :: rest =>
    match cp.present memInfo entry.signer with
    | none => presented memInfo rest
    | some (memInfo, signer) =>
      (memInfo, { entry with signer := signer }) :: presented memInfo rest

theorem refineWith_eq_admit (check : MemberCache → Bytes → EndorsementEntry → Bool × MemberCache) (memInfo : Bytes)
    (refinedSigners : List Bytes) (cache : MemberCache) (entries : List EndorsementEntry) :
    cp.refineWith check memInfo refinedSigners cache entries =
      ((admitOnce check refinedSigners cache (cp.presented memInfo entries)).1.map Prod.snd,
        (admitOnce check refinedSigners cache (cp.presented memInfo entries)).2) := by
  induction entries generalizing memInfo refinedSigners cache with
  | nil => rfl
  | cons entry rest ih =>
    rw [refineWith, presented]
    cases cp.present memInfo entry.signer with
    | none => exact ih memInfo refinedSigners cache
    | some found =>
      obtain ⟨text, signer⟩ := found
      simp only [admitOnce]
      generalize check cache text ⟨signer, entry.signature⟩ = outcome
      obtain ⟨verified, next⟩ := outcome
      cases kept : verified && !refinedSigners.contains text with
      | true => simp only [if_true, ih, List.map_cons]
      | false => simp only [Bool.false_eq_true, if_false, ih]

theorem refineEndorsementsForCertOptimization_spec (cache : MemberCache) (entries : List EndorsementEntry) :
    (cp.refineEndorsementsForCertOptimization cache entries).1.Sublist ((cp.presented [] entries).map Prod.snd) ∧
      (cp.refineEndorsementsForCertOptimization cache entries).2 = cache := by
  rw [refineEndorsementsForCertOptimization, refineWith_eq_admit]
  have unchanged : ∀ state memInfo endorsement, state = cache → (acceptSigner state memInfo endorsement).2 = cache := fun _ _ _ same => same
  obtain ⟨sublist, _, _, _, final⟩ :=
    admitOnce_spec unchanged [] cache rfl (cp.presented [] entries)
  exact ⟨sublist.map Prod.snd, final⟩

theorem presented_signers (memInfo : Bytes) (entries : List EndorsementEntry) :
    (cp.presented memInfo entries).map (fun item => (item.1, item.2.signer)) = cp.presentedSigners memInfo (entries.map (·.signer)) := by
  induction entries generalizing memInfo with
  | nil => rfl
  | cons entry rest ih =>
    rw [List.map_cons, presented, presentedSigners]
    cases cp.present memInfo entry.signer with
    | none => exact ih memInfo
    | some found =>
      rw [List.map_cons, ih]

theorem exists_presented (memInfo : Bytes) (signers : List PbMember) {items : List (Bytes × EndorsementEntry)}
    (matching : items.map (fun item => (item.1, item.2.signer)) = cp.presentedSigners memInfo signers) :
    ∃ entries : List EndorsementEntry, entries.map (·.signer) = signers ∧ cp.presented memInfo entries = items := by
  induction signers generalizing memInfo items with
  | nil =>
    rw [presentedSigners, List.map_eq_nil_iff] at matching
    exact ⟨[], rfl, matching.symm⟩
  | cons signer rest ih =>
    rw [presentedSigners] at matching
    cases found : cp.present memInfo signer with
    | none =>
      rw [found] at matching
      obtain ⟨entries, same, result⟩ := ih memInfo matching
      refine ⟨⟨signer, []⟩ :: entries, by rw [List.map_cons, same], ?_⟩
      rw [presented, found, result]
    | some pair =>
      obtain ⟨text, resolved⟩ := pair
      rw [found] at matching
      obtain ⟨item, later, rfl, here, following⟩ := List.map_eq_cons_iff.mp matching
      obtain ⟨entries, same, result⟩ := ih text following
      obtain ⟨rfl, rfl⟩ := Prod.ext_iff.mp here
      refine ⟨⟨signer, item.2.signature⟩ :: entries, by rw [List.map_cons, same], ?_⟩
      simp only [presented, found, result]

variable {memInfo : Bytes} {signer resolved : PbMember} {text : Bytes}

theorem present_cases (found : cp.present memInfo signer = some (text, resolved)) : resolved = signer ∨
      cp.certs.lookup signer.memberInfo = some text ∧ resolved = { signer with memberInfo := text } := by
  unfold present at found
  split at found
  · cases found
    exact .inl rfl
  · split at found
    · obtain ⟨registered, looked, same⟩ := Option.map_eq_some_iff.mp found
      cases same
      exact .inr ⟨looked, rfl⟩
    · cases found
      exact .inl rfl

theorem present_text (found : cp.present memInfo signer = some (text, resolved)) :
    text = if isNamed resolved then resolved.memberInfo else memInfo := by
  unfold present at found
  split at found
  · next isCert =>
    cases found
    simp [isNamed, isCert]
  · split at found
    · next compressed =>
      obtain ⟨registered, _, same⟩ := Option.map_eq_some_iff.mp found
      cases same
      simp [isNamed, compressed]
    · next notCert notCompressed =>
      cases found
      simp [isNamed, notCert, notCompressed]

theorem presentedSigners_text {signers : List PbMember} (inside : (text, signer) ∈ cp.presentedSigners memInfo signers)
    (named : isNamed signer = true) : text = signer.memberInfo := by
  induction signers generalizing memInfo with
  | nil => cases inside
  | cons first rest ih =>
    rw [presentedSigners] at inside
    cases found : cp.present memInfo first with
    | none =>
      rw [found] at inside
      exact ih inside
    | some pair =>
      obtain ⟨other, resolved⟩ := pair
      rw [found] at inside
      rcases List.mem_cons.mp inside with here | later
      · cases here
        exact (cp.present_text found).trans (if_pos named)
      · exact ih later

theorem newCertMember_eq (signer : PbMember) : cp.newCertMember signer = (cp.x509.parse signer.memberInfo).bind fun cert =>
      if isNamed signer = true ∧ (signer.orgId = [] ∨ signer.orgId = cert.orgId) then
        some cert.member
      else none := by
  change (if isNamed signer then cp.newMemberFromCertPem signer.orgId signer.memberInfo else none) = _
  rw [newMemberFromCertPem]
  by_cases named : isNamed signer = true
  · rw [if_pos named]
    refine congrArg (Option.bind _) (funext fun cert => ?_)
    by_cases unclaimed : signer.orgId = []
    · simp [named, unclaimed, Certificate.member]
    · by_cases own : signer.orgId = cert.orgId
      · simp [named, own, Certificate.member]
      · simp [unclaimed, own, Ne.symm own]
  · rw [if_neg named]
    simp [named]

theorem authenticate_eq (signer : PbMember) : cp.authenticate signer = (cp.x509.parse signer.memberInfo).bind fun cert =>
      (cp.loadTrustMembers signer.memberInfo).elim (if isNamed signer = true ∧ (signer.orgId = [] ∨ signer.orgId = cert.orgId) then
          (cp.verifyMember cert.member).map (⟨cert.member, ·⟩)
        else none)
        fun trusted => some ⟨⟨trusted.orgId, toUpper trusted.role, .certificate cert⟩, []⟩ := by
  rw [authenticate, newNoCacheMember]
  cases loaded : cp.loadTrustMembers signer.memberInfo with
  | some trusted =>
    have text := cp.trustMembers.keyed _ _ loaded
    cases parsed : cp.x509.parse signer.memberInfo <;>
      simp [newCertMemberFromParam, text, parsed]
  | none =>
    rw [newCertMember_eq]
    cases cp.x509.parse signer.memberInfo with
    | none => rfl
    | some cert =>
      simp only [Option.bind_some, Option.elim_none]
      by_cases claimed : isNamed signer = true ∧ (signer.orgId = [] ∨ signer.orgId = cert.orgId)
      · simp only [if_pos claimed, Option.map_some]
      · simp only [if_neg claimed, Option.map_none]

theorem authenticate_cases {info : MemberCached} (authenticated : cp.authenticate signer = some info) :
    ∃ cert, cp.x509.parse signer.memberInfo = some cert ∧ ((∃ trusted, cp.loadTrustMembers signer.memberInfo = some trusted ∧
          info = ⟨⟨trusted.orgId, toUpper trusted.role, .certificate cert⟩, []⟩) ∨
        (cp.loadTrustMembers signer.memberInfo = none ∧ isNamed signer = true ∧
          (signer.orgId = [] ∨ signer.orgId = cert.orgId) ∧ info.member = cert.member ∧
          cp.verifyMember cert.member = some info.certChain)) := by
  rw [authenticate_eq] at authenticated
  obtain ⟨cert, parsed, made⟩ := Option.bind_eq_some_iff.mp authenticated
  refine ⟨cert, parsed, ?_⟩
  cases loaded : cp.loadTrustMembers signer.memberInfo with
  | some trusted =>
    rw [loaded] at made
    exact .inl ⟨trusted, rfl, (Option.some.inj made).symm⟩
  | none =>
    rw [loaded, Option.elim_none] at made
    split at made
    · next claimed =>
      obtain ⟨chain, verified, rfl⟩ := Option.map_eq_some_iff.mp made
      exact .inr ⟨rfl, claimed.1, claimed.2, rfl, verified⟩
    · cases made

section Verification

variable {cp} {verifier : Verifier} {msg : Bytes} {cache : MemberCache} {memInfo : Bytes}
  {endorsement : EndorsementEntry} {Entry : Bytes → MemberCached → Prop}

variable (cp Entry) in
def Admits (memInfo : Bytes) (signer : PbMember) (info : MemberCached) : Prop :=
  (Entry memInfo info ∧ cp.recognizes info signer memInfo = true) ∨
    cp.authenticate signer = some info

theorem verifySigner_admits (holds : cache.Holds Entry) (verified : (cp.verifySigner verifier msg cache memInfo endorsement).1 = true) :
    ∃ info, cp.Admits Entry memInfo endorsement.signer info ∧ info.member.verify verifier msg endorsement.signature = true := by
  unfold verifySigner at verified
  split at verified
  · split at verified
    · cases verified
    · next info accepted =>
      obtain ⟨authenticated, signed⟩ := Option.filter_eq_some_iff.mp accepted
      exact ⟨info, .inr authenticated, signed⟩
  · next info cached =>
    obtain ⟨recognized, signed⟩ := Bool.and_eq_true_iff.mp verified
    exact ⟨info, .inl ⟨holds _ _ cached, recognized⟩, signed⟩

theorem verifySigner_holds (authenticates : ∀ signer info, cp.authenticate signer = some info → Entry signer.memberInfo info)
    (holds : cache.Holds Entry) :
    (cp.verifySigner verifier msg cache memInfo endorsement).2.Holds Entry := by
  unfold verifySigner
  split
  · split
    · exact holds
    · next info accepted =>
      exact holds.add (authenticates _ _ (Option.filter_eq_some_iff.mp accepted).1)
  · exact holds

theorem refineEndorsements_spec (authenticates : ∀ signer info, cp.authenticate signer = some info → Entry signer.memberInfo info)
    (verifier : Verifier) (msg : Bytes) (holds : cache.Holds Entry)
    (entries : List EndorsementEntry) :
    (cp.refineEndorsements verifier msg cache entries).2.Holds Entry ∧
    ∃ kept : List (Bytes × EndorsementEntry), (cp.refineEndorsements verifier msg cache entries).1 = kept.map Prod.snd ∧
      kept.Sublist (cp.presented [] entries) ∧ (kept.map Prod.fst).Nodup ∧
      ∀ pair ∈ kept, ∃ info, cp.Admits Entry pair.1 pair.2.signer info ∧ info.member.verify verifier msg pair.2.signature = true := by
  have keeps : ∀ state key item, state.Holds Entry → (cp.verifySigner verifier msg state key item).2.Holds Entry :=
    fun _ _ _ => verifySigner_holds authenticates
  obtain ⟨sublist, distinct, _, checked, final⟩ :=
    admitOnce_spec keeps [] cache holds (cp.presented [] entries)
  rw [refineEndorsements, refineWith_eq_admit]
  refine ⟨final, _, rfl, sublist, distinct, ?_⟩
  intro pair member
  obtain ⟨reached, reachedHolds, verified⟩ := checked pair member
  exact verifySigner_admits reachedHolds verified

theorem verifySigner_unsigned (unsigned : ∀ credential, verifier credential msg endorsement.signature = false) :
    cp.verifySigner verifier msg cache memInfo endorsement = (false, cache) := by
  unfold verifySigner
  split
  · have refused : cp.verifyPrincipalSignerNotInCache verifier msg endorsement = none := by
      refine Option.filter_eq_none_iff.mpr ?_
      intro info _
      simp [Member.verify, unsigned]
    rw [refused]
  · simp [verifyPrincipalSignerInCache, Member.verify, unsigned]

theorem verifySigner_cached {info : MemberCached} (cached : cache.get memInfo = some info)
    (recognized : cp.recognizes info endorsement.signer memInfo = true)
    (signed : info.member.verify verifier msg endorsement.signature = true) :
    cp.verifySigner verifier msg cache memInfo endorsement = (true, cache) := by
  simp [verifySigner, cached, verifyPrincipalSignerInCache, recognized, signed]

theorem verifySigner_new {info : MemberCached} (absent : cache.get memInfo = none)
    (authenticated : cp.authenticate endorsement.signer = some info)
    (signed : info.member.verify verifier msg endorsement.signature = true) :
    cp.verifySigner verifier msg cache memInfo endorsement = (true, cache.add endorsement.signer.memberInfo info) := by
  have accepted : cp.verifyPrincipalSignerNotInCache verifier msg endorsement = some info :=
    Option.filter_eq_some_iff.mpr ⟨authenticated, signed⟩
  simp [verifySigner, absent, accepted]

end Verification

section Realization

variable {cp} {verifier : Verifier} {msg signature : Bytes} {signers : List PbMember}
  {Entry : Bytes → MemberCached → Prop}

def unsigned (presented : Bytes × PbMember) : Bytes × EndorsementEntry :=
  (presented.1, ⟨presented.2, []⟩)

def withSignature (signature : Bytes) (presented : Bytes × PbMember) : Bytes × EndorsementEntry :=
  (presented.1, ⟨presented.2, signature⟩)

theorem exists_signed_items {chosen presented : List (Bytes × PbMember)} (sublist : chosen.Sublist presented) (nonempty : signature ≠ []) :
    ∃ items : List (Bytes × EndorsementEntry), items.map (fun item => (item.1, item.2.signer)) = presented ∧
      items.filter (!·.2.signature.isEmpty) = chosen.map (withSignature signature) := by
  induction sublist with
  | slnil => exact ⟨[], rfl, rfl⟩
  | cons other _ ih =>
    obtain ⟨items, same, kept⟩ := ih
    exact ⟨unsigned other :: items, by simp [unsigned, same], kept⟩
  | cons_cons picked _ ih =>
    obtain ⟨items, same, kept⟩ := ih
    refine ⟨withSignature signature picked :: items, by simp [withSignature, same], ?_⟩
    rw [List.filter_cons_of_pos (by simpa [withSignature] using nonempty), kept, List.map_cons]

theorem exists_refined_chosen {chosen : List (Bytes × PbMember)}
    (sublist : chosen.Sublist (cp.presentedSigners [] signers)) (nonempty : signature ≠ [])
    (invalid : ∀ credential, verifier credential msg [] = false) :
    ∃ entries : List EndorsementEntry, entries.map (·.signer) = signers ∧ (∀ cache, (cp.refineEndorsements verifier msg cache entries).1 =
        (admitOnce (cp.verifySigner verifier msg) [] cache (chosen.map (withSignature signature))).1.map Prod.snd) ∧
      ∀ item ∈ cp.presented [] entries, item.2.signature = [] ∨ ∃ signer ∈ chosen.map Prod.snd, item.2 = ⟨signer, signature⟩ := by
  obtain ⟨items, matching, kept⟩ := exists_signed_items sublist nonempty
  obtain ⟨entries, same, rfl⟩ := cp.exists_presented [] signers matching
  refine ⟨entries, same, fun cache => ?_, fun item member => ?_⟩
  · rw [refineEndorsements, refineWith_eq_admit, admitOnce_filter, kept]
    intro item _ full state
    have empty : item.2.signature = [] := by simpa using full
    exact verifySigner_unsigned fun credential => empty ▸ invalid credential
  · by_cases empty : item.2.signature = []
    · exact .inl empty
    · have found : item ∈ (cp.presented [] entries).filter (!·.2.signature.isEmpty) :=
        List.mem_filter.mpr ⟨member, by simpa using empty⟩
      rw [kept] at found
      obtain ⟨picked, inside, rfl⟩ := List.mem_map.mp found
      exact .inr ⟨picked.2, List.mem_map_of_mem inside, rfl⟩

variable {memInfo : Bytes} {signer : PbMember} {cache : MemberCache} {info : MemberCached}

theorem exists_cache_of_admits (admits : cp.Admits Entry memInfo signer info)
    (signed : verifier info.member.credential msg signature = true) :
    ∃ cache cache' : MemberCache, cache.Holds Entry ∧ cp.verifySigner verifier msg cache memInfo ⟨signer, signature⟩ = (true, cache') := by
  rcases admits with ⟨recorded, recognized⟩ | authenticated
  · exact ⟨_, _, (ShardCache.Holds.newShardCache Entry 0).add recorded, verifySigner_cached (ShardCache.get_add_self _ _ _) recognized signed⟩
  · exact ⟨_, _, ShardCache.Holds.newShardCache Entry 0, verifySigner_new (ShardCache.get_newShardCache 0 memInfo) authenticated signed⟩

theorem exists_refined_single (inside : (memInfo, signer) ∈ cp.presentedSigners [] signers) (admits : cp.Admits Entry memInfo signer info)
    (signed : verifier info.member.credential msg signature = true) (nonempty : signature ≠ [])
    (invalid : ∀ credential, verifier credential msg [] = false) :
    ∃ cache entries, Realized (cp.refineEndorsements verifier msg) (cp.presented []) Entry signers signature [signer] cache entries := by
  obtain ⟨cache, cache', holds, passed⟩ := exists_cache_of_admits admits signed
  obtain ⟨entries, same, refined, only⟩ :=
    exists_refined_chosen (List.singleton_sublist.mpr inside) nonempty invalid
  refine ⟨cache, entries, holds, same, ?_, only⟩
  rw [refined, List.map_singleton, withSignature, admitOnce_cons_kept passed List.not_mem_nil]
  rfl

variable (cp) in
def Ready (cache : MemberCache) (memInfo : Bytes) (signer : PbMember) : Prop :=
  (∃ info, cache.get memInfo = some info ∧ cp.recognizes info signer memInfo = true) ∨
    (cache.get memInfo = none ∧ ∃ info, cp.authenticate signer = some info)

theorem Ready.of_get_eq {cache' : MemberCache} (ready : cp.Ready cache memInfo signer) (same : cache'.get memInfo = cache.get memInfo) :
    cp.Ready cache' memInfo signer := by
  unfold Ready at ready ⊢
  rwa [same]

theorem Ready.verifySigner (ready : cp.Ready cache memInfo signer) (signed : ∀ credential, verifier credential msg signature = true) :
    ∃ cache', cp.verifySigner verifier msg cache memInfo ⟨signer, signature⟩ = (true, cache') ∧
      (cache' = cache ∨ ∃ info, cp.authenticate signer = some info ∧ cache' = cache.add signer.memberInfo info) := by
  rcases ready with ⟨info, cached, recognized⟩ | ⟨absent, info, authenticated⟩
  · exact ⟨cache, verifySigner_cached cached recognized (signed _), .inl rfl⟩
  · exact ⟨_, verifySigner_new absent authenticated (signed _), .inr ⟨info, authenticated, rfl⟩⟩

theorem Admits.exists_ready {count : Nat} (room : cache.Room (count + 1)) (holds : cache.Holds Entry) (absent : cache.get memInfo = none)
    (admits : cp.Admits Entry memInfo signer info) :
    ∃ cache' : MemberCache, cache'.Room count ∧ cache'.Holds Entry ∧ cp.Ready cache' memInfo signer ∧
      ∀ other, other ≠ memInfo → cache'.get other = cache.get other := by
  rcases admits with ⟨recorded, recognized⟩ | authenticated
  · exact ⟨cache.add memInfo info, room.add _ _, holds.add recorded, .inl ⟨info, ShardCache.get_add_self _ _ _, recognized⟩,
      fun other different => ShardCache.get_add_of_room room different _⟩
  · refine ⟨cache, ?_, holds, .inr ⟨absent, info, authenticated⟩, fun _ _ => rfl⟩
    intro k
    have bound := room k
    omega

theorem Ready.after {cache' : MemberCache} {count : Nat} (room : cache.Room (count + 1)) {other : Bytes} {second : PbMember}
    (inside : (memInfo, signer) ∈ cp.presentedSigners [] signers) (different : memInfo ≠ other)
    (step : cache' = cache ∨ ∃ info, cp.authenticate signer = some info ∧
      cache' = cache.add signer.memberInfo info) (ready : cp.Ready cache other second) :
    cp.Ready cache' other second := by
  rcases step with rfl | ⟨info, authenticated, rfl⟩
  · exact ready
  · by_cases same : other = signer.memberInfo
    · refine .inl ⟨info, same ▸ ShardCache.get_add_self _ _ _, ?_⟩
      obtain ⟨cert, _, kind⟩ := cp.authenticate_cases authenticated
      rcases kind with ⟨trusted, loaded, _⟩ | ⟨_, named, _⟩
      · rw [recognizes, same, loaded]
        rfl
      · exact absurd ((cp.presentedSigners_text inside named).trans same.symm) different
    · exact ready.of_get_eq (ShardCache.get_add_of_room room same _)

theorem exists_refined_pair {first second : Bytes × PbMember} {info' : MemberCached}
    (ordered : [first, second].Sublist (cp.presentedSigners [] signers))
    (different : first.1 ≠ second.1) (admits : cp.Admits Entry first.1 first.2 info)
    (admits' : cp.Admits Entry second.1 second.2 info')
    (signed : ∀ credential, verifier credential msg signature = true) (nonempty : signature ≠ [])
    (invalid : ∀ credential, verifier credential msg [] = false) :
    ∃ cache entries, Realized (cp.refineEndorsements verifier msg) (cp.presented []) Entry signers
      signature [first.2, second.2] cache entries := by
  have inside : first ∈ cp.presentedSigners [] signers :=
    ordered.subset List.mem_cons_self
  obtain ⟨cache₁, room₁, holds₁, ready₁, others₁⟩ :=
    admits.exists_ready (ShardCache.Room.newShardCache 3) (ShardCache.Holds.newShardCache Entry _) (ShardCache.get_newShardCache _ first.1)
  have absent : cache₁.get second.1 = none := by
    rw [others₁ _ different.symm, ShardCache.get_newShardCache]
  obtain ⟨cache, room, holds, ready₂, others⟩ := admits'.exists_ready room₁ holds₁ absent
  obtain ⟨cache', passed, step⟩ := (ready₁.of_get_eq (others _ different)).verifySigner signed
  obtain ⟨cache'', passed', _⟩ :=
    (Ready.after room inside different step ready₂).verifySigner signed
  obtain ⟨entries, same, refined, only⟩ := exists_refined_chosen ordered nonempty invalid
  refine ⟨cache, entries, holds, same, ?_, only⟩
  have fresh : second.1 ∉ [first.1] := by simpa using different.symm
  rw [refined, List.map_cons, List.map_singleton, withSignature, withSignature,
    admitOnce_cons_kept passed List.not_mem_nil, admitOnce_cons_kept passed' fresh]
  rfl

end Realization

section Soundness

/-- A cached member has the certificate of the text it is cached under. -/
def KeyedByText (text : Bytes) (info : MemberCached) : Prop :=
  ∃ cert, cp.x509.parse text = some cert ∧ info.member.credential = .certificate cert

/-- Each endorsement is signed under the certificate of its own text, no text occurs twice. -/
def SoundRefinement (verifier : Verifier) (msg : Bytes) (refined : List EndorsementEntry) : Prop :=
  (∀ endorsement ∈ refined, ∃ cert, cp.x509.parse endorsement.signer.memberInfo = some cert ∧
    verifier (.certificate cert) msg endorsement.signature = true) ∧
  (refined.map (·.signer.memberInfo)).Nodup

def Admissible (presented : Bytes × PbMember) : Prop :=
  (∃ cert, cp.x509.parse presented.1 = some cert) ∨
    ((∃ trusted, cp.loadTrustMembers presented.2.memberInfo = some trusted) ∧
      ∃ cert, cp.x509.parse presented.2.memberInfo = some cert)

/-- The texts under which signers are handled do no harm: a text that is a certificate is
the certificate of the signer itself, and signers under different texts that can be
let through have different texts of their own. -/
structure CarriedTextsAgree (signers : List PbMember) : Prop where
  own : ∀ presented ∈ cp.presentedSigners [] signers, ∀ cert,
    cp.x509.parse presented.1 = some cert → cp.x509.parse presented.2.memberInfo = some cert
  once : (cp.presentedSigners [] signers).Pairwise fun first second =>
    first.1 ≠ second.1 → cp.Admissible first → cp.Admissible second →
      first.2.memberInfo ≠ second.2.memberInfo

variable {cp} {info : MemberCached}

theorem keyedByText_of_authenticate {signer : PbMember} (authenticated : cp.authenticate signer = some info) :
    cp.KeyedByText signer.memberInfo info := by
  obtain ⟨cert, parsed, kind⟩ := cp.authenticate_cases authenticated
  refine ⟨cert, parsed, ?_⟩
  rcases kind with ⟨trusted, _, rfl⟩ | ⟨_, _, _, same, _⟩
  · rfl
  · rw [same]
    rfl

variable {signers : List PbMember}

theorem Admits.admissible {presented : Bytes × PbMember} (inside : presented ∈ cp.presentedSigners [] signers)
    (admits : cp.Admits cp.KeyedByText presented.1 presented.2 info) :
    cp.Admissible presented := by
  rcases admits with ⟨⟨cert, parsed, _⟩, _⟩ | authenticated
  · exact .inl ⟨cert, parsed⟩
  · obtain ⟨cert, parsed, kind⟩ := cp.authenticate_cases authenticated
    rcases kind with ⟨trusted, loaded, _⟩ | ⟨_, named, _⟩
    · exact .inr ⟨⟨trusted, loaded⟩, cert, parsed⟩
    · refine .inl ⟨cert, ?_⟩
      rw [cp.presentedSigners_text inside named, parsed]

theorem exists_unrevoked (cp : CertACProvider) : ∃ cert, cp.checkCRL [cert] = true ∧ cp.checkCertFrozenList [cert] = true := by
  obtain ⟨raw, unfrozen⟩ := Infinite.exists_notMem_finset cp.frozenList.toFinset
  obtain ⟨serialNumber, unrevoked⟩ :=
    Infinite.exists_notMem_finset ((cp.crl.lookup []).getD []).toFinset
  refine ⟨⟨raw, [], [], [], serialNumber⟩, ?_, ?_⟩
  · rw [List.mem_toFinset] at unrevoked
    simpa [checkCRL] using unrevoked
  · rw [List.mem_toFinset] at unfrozen
    simpa [checkCertFrozenList] using unfrozen

theorem Admissible.admits {presented : Bytes × PbMember} (admissible : cp.Admissible presented) :
    ∃ info, cp.Admits cp.KeyedByText presented.1 presented.2 info ∧
      ∀ cert, cp.x509.parse presented.1 = some cert → info.member.credential = .certificate cert := by
  by_cases text : ∃ cert, cp.x509.parse presented.1 = some cert
  · obtain ⟨cert, parsed⟩ := text
    obtain ⟨root, unrevoked, unfrozen⟩ := cp.exists_unrevoked
    refine ⟨⟨⟨presented.2.orgId, [], .certificate cert⟩, [root]⟩, .inl ⟨⟨cert, parsed, rfl⟩, ?_⟩, ?_⟩
    · simp [recognizes, unrevoked, unfrozen]
    · intro other parsed'
      rw [parsed] at parsed'
      cases parsed'
      rfl
  · rcases admissible with parsed | ⟨⟨trusted, loaded⟩, cert, parsed⟩
    · exact absurd parsed text
    · refine ⟨⟨⟨trusted.orgId, toUpper trusted.role, .certificate cert⟩, []⟩, .inr ?_, ?_⟩
      · simp [authenticate, newNoCacheMember, newCertMemberFromParam, loaded, cp.trustMembers.keyed _ _ loaded, parsed]
      · intro other parsed'
        exact absurd ⟨other, parsed'⟩ text

theorem CarriedTextsAgree.keyedByText (agree : cp.CarriedTextsAgree signers) {memInfo : Bytes}
    {signer : PbMember} (inside : (memInfo, signer) ∈ cp.presentedSigners [] signers)
    (admits : cp.Admits cp.KeyedByText memInfo signer info) :
    cp.KeyedByText signer.memberInfo info := by
  rcases admits with ⟨⟨cert, parsed, credential⟩, _⟩ | authenticated
  · exact ⟨cert, agree.own _ inside cert parsed, credential⟩
  · exact keyedByText_of_authenticate authenticated

theorem CarriedTextsAgree.sound (agree : cp.CarriedTextsAgree signers) (verifier : Verifier)
    (msg : Bytes) {cache : MemberCache} (keyed : cache.Holds cp.KeyedByText)
    {entries : List EndorsementEntry} (same : entries.map (·.signer) = signers) :
    cp.SoundRefinement verifier msg (cp.refineEndorsements verifier msg cache entries).1 := by
  have signersOf := cp.presented_signers [] entries
  rw [same] at signersOf
  obtain ⟨_, kept, result, sublist, distinct, admitted⟩ :=
    refineEndorsements_spec (fun _ _ => keyedByText_of_authenticate) verifier msg keyed entries
  rw [result]
  have inside : ∀ pair ∈ kept, (pair.1, pair.2.signer) ∈ cp.presentedSigners [] signers := by
    intro pair member
    rw [← signersOf]
    exact List.mem_map_of_mem (sublist.subset member)
  refine ⟨?_, ?_⟩
  · intro endorsement member
    obtain ⟨pair, pairIn, rfl⟩ := List.mem_map.mp member
    obtain ⟨info, admits, signed⟩ := admitted pair pairIn
    obtain ⟨cert, parsed, credential⟩ := agree.keyedByText (inside pair pairIn) admits
    refine ⟨cert, parsed, ?_⟩
    rw [← credential]
    exact signed
  · have once : (cp.presented [] entries).Pairwise fun first second => first.1 ≠ second.1 →
        cp.Admissible (first.1, first.2.signer) → cp.Admissible (second.1, second.2.signer) →
          first.2.signer.memberInfo ≠ second.2.signer.memberInfo := by
      have pairs := agree.once
      rw [← signersOf, List.pairwise_map] at pairs
      exact pairs
    rw [List.map_map]
    refine List.pairwise_map.mpr (((List.pairwise_map.mp distinct).and (once.sublist sublist)).imp_of_mem ?_)
    intro first second firstIn secondIn apart
    obtain ⟨_, admits, _⟩ := admitted first firstIn
    obtain ⟨_, admits', _⟩ := admitted second secondIn
    exact apart.2 apart.1 (admits.admissible (inside first firstIn)) (admits'.admissible (inside second secondIn))

/-- The refinement is sound whatever is signed and cached, exactly for the lists of signers
whose carried texts do no harm. -/
theorem refineEndorsements_sound_iff (cp : CertACProvider) (signers : List PbMember) :
    (∀ (verifier : Verifier) (msg : Bytes) (cache : MemberCache) (entries : List EndorsementEntry),
      cache.Holds cp.KeyedByText → entries.map (·.signer) = signers →
        cp.SoundRefinement verifier msg (cp.refineEndorsements verifier msg cache entries).1) ↔
      cp.CarriedTextsAgree signers := by
  constructor
  · intro sound
    refine ⟨?_, List.pairwise_of_forall_sublist ?_⟩
    · intro presented inside cert parsed
      have admissible : cp.Admissible presented := .inl ⟨cert, parsed⟩
      obtain ⟨info, admits, credential⟩ := admissible.admits
      have signed : signedBy (.certificate cert) info.member.credential [] [1] = true := by
        simp [signedBy, credential cert parsed]
      obtain ⟨cache, entries, keyed, same, refined, _⟩ :=
        exists_refined_single inside admits signed (by decide) fun _ => by simp [signedBy]
      obtain ⟨own, parsed', valid⟩ := (sound _ [] cache entries keyed same).1
        ⟨presented.2, [1]⟩ (by rw [refined]; exact List.mem_singleton_self _)
      have sameCert : own = cert := by simpa [signedBy] using valid
      rw [← sameCert]
      exact parsed'
    · intro first second ordered different admissible admissible' sameText
      obtain ⟨info, admits, _⟩ := admissible.admits
      obtain ⟨info', admits', _⟩ := admissible'.admits
      have signed : ∀ credential, signedByAll credential [] [1] = true := fun _ => rfl
      obtain ⟨cache, entries, keyed, same, refined, _⟩ :=
        exists_refined_pair ordered different admits admits' signed (by decide) fun _ => rfl
      have distinct := (sound signedByAll [] cache entries keyed same).2
      rw [refined] at distinct
      simp [sameText] at distinct
  · intro agree verifier msg cache entries keyed same
    exact agree.sound verifier msg keyed same

private def knownCert : Certificate := ⟨[1], [ascii "org1"], [ascii "client"], [], 1⟩

private def knownProvider : CertACProvider where
  x509 :=
    { parse := fun text => if text = [1] then some knownCert else none
      parsePem := fun text => if text = [1] then some knownCert else none
      verify := fun _ cert => some [[cert]]
      parse_empty := rfl }
  orgNum := 1
  orgList := AList.singleton (ascii "org1") ⟨[[1]]⟩
  opts := ⟨[knownCert], []⟩
  trustMembers := TrustMembers.empty
  certs := ∅
  certs_ids := fun _ _ found => by cases found
  crl := ∅
  frozenList := []

private def knownCache : MemberCache :=
  (ShardCache.newShardCache 0).add [1] ⟨knownCert.member, [knownCert]⟩

private def carriedEntries : List EndorsementEntry :=
  [⟨⟨ascii "org1", [1], .cert⟩, []⟩, ⟨⟨ascii "org1", [2], .publicKey⟩, [1]⟩]

theorem refineEndorsements_returns_foreign_signer : knownCache.Holds knownProvider.KeyedByText ∧
      ¬ knownProvider.SoundRefinement (signedBy (.certificate knownCert)) []
        (knownProvider.refineEndorsements (signedBy (.certificate knownCert)) [] knownCache
          carriedEntries).1 := by
  refine ⟨(ShardCache.Holds.newShardCache _ 0).add ⟨knownCert, rfl, rfl⟩, ?_⟩
  have returned : (knownProvider.refineEndorsements (signedBy (.certificate knownCert)) []
      knownCache carriedEntries).1 = [⟨⟨ascii "org1", [2], .publicKey⟩, [1]⟩] := by decide
  intro sound
  rw [returned] at sound
  obtain ⟨cert, parsed, _⟩ := sound.1 _ (List.mem_singleton_self _)
  cases parsed

end Soundness

end CertACProvider

end Pdcc.AccessControl
