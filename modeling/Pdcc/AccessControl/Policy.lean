import Mathlib.Data.List.Dedup
import Pdcc.Library.Decimal
import Pdcc.Library.Fallible
import Pdcc.AccessControl.Member

/-!
# Policies over organizations

The check of a policy against a list of endorsements, as the modes with
organizations make it: endorsements that meet the lists of the policy are
counted by the organization they claim.
-/

set_option autoImplicit false

namespace Pdcc.AccessControl

open Ledger Library

def ruleMajority : Bytes := ascii "MAJORITY"

def ruleAll : Bytes := ascii "ALL"

def ruleAny : Bytes := ascii "ANY"

def ruleSelf : Bytes := ascii "SELF"

def ruleForbidden : Bytes := ascii "FORBIDDEN"

def limitDelimiter : UInt8 := 47

structure Policy where
  rule : Bytes
  orgList : List Bytes
  roleList : List Role
  deriving DecidableEq, Repr

inductive AuthError where
  | forbidden (resourceName : Bytes)
  | notEnough (required : Int) (received : Nat)
  | portionNotReached (total numerator denominator : Int) (received : Nat)
  | targetOrgRequired
  | targetNotOwned (targetOrg : Bytes)
  | requirementNotMet (resourceName : Bytes)
  | anyNotMet (rule : Bytes) (roleList : List Bytes)
  | notAllConsent
  | unrecognizedRule
  | unrecognizedPrinciple
  | emptyVoterList
  | noSigner
  | allEndorsersFailed
  | methodNotAvailable
  | targetOrgNotSupported
  | policyNotConfigured (resourceName : Bytes)
  | orgIdNotSet
  deriving DecidableEq, Repr

abbrev Verdict := Except AuthError Unit

def countOrgsFromEndorsements (endorsements : List EndorsementEntry) : Nat :=
  (endorsements.map (·.signer.orgId)).dedup.length

section Check

variable (rebuild : PbMember → Except Panic (Option MemberCached)) (orgNum : Nat)

/-- Whether an endorsement meets the organization and role lists of a policy, where
an empty list allows everything. The member is looked up only for a role list. -/
def meets (orgList : List Bytes) (roleList : List Role) (cache : MemberCache)
    (endorsement : EndorsementEntry) : Except Panic (Bool × MemberCache) :=
  if orgList.isEmpty || orgList.contains endorsement.signer.orgId then
    if roleList.isEmpty then .ok (true, cache)
    else
      match getMemberFromCache rebuild cache endorsement.signer with
      | .error panic => .error panic
      | .ok (none, cache) => .ok (false, cache)
      | .ok (some member, cache) => .ok (roleList.contains member.role, cache)
  else .ok (false, cache)

def getValidEndorsements (orgList : List Bytes) (roleList : List Role) :
    List EndorsementEntry → MemberCache → Except Panic (List EndorsementEntry × MemberCache)
  | [], cache => .ok ([], cache)
  | endorsement :: rest, cache => do
    let (met, cache) ← meets rebuild orgList roleList cache endorsement
    let (valid, cache) ← getValidEndorsements orgList roleList rest cache
    return (if met then endorsement :: valid else valid, cache)

def countValidEndorsements (orgList : List Bytes) (roleList : List Role)
    (endorsements : List EndorsementEntry) (cache : MemberCache) :
    Except Panic (Nat × MemberCache) := do
  let (valid, cache) ← getValidEndorsements rebuild orgList roleList endorsements cache
  return (countOrgsFromEndorsements valid, cache)

def anyMeets (orgList : List Bytes) (roleList : List Role) :
    List EndorsementEntry → MemberCache → Except Panic (Bool × MemberCache)
  | [], cache => .ok (false, cache)
  | endorsement :: rest, cache => do
    let (met, cache) ← meets rebuild orgList roleList cache endorsement
    if met then return (true, cache) else anyMeets orgList roleList rest cache

def verifyPrincipalPolicyRuleMajorityCase (endorsements : List EndorsementEntry)
    (cache : MemberCache) : Except Panic (Verdict × MemberCache) := do
  let (numOfValid, cache) ← countValidEndorsements rebuild [] [roleAdmin] endorsements cache
  return (if orgNum < 2 * numOfValid then .ok ()
    else .error (.notEnough (orgNum / 2 + 1) numOfValid), cache)

def verifyPrincipalPolicyRuleSelfCase (targetOrg : Bytes) (endorsements : List EndorsementEntry)
    (cache : MemberCache) : Except Panic (Verdict × MemberCache) :=
  if targetOrg = [] then .ok (.error .targetOrgRequired, cache)
  else do
    let (met, cache) ← anyMeets rebuild [targetOrg] [roleAdmin] endorsements cache
    return (if met then .ok () else .error (.targetNotOwned targetOrg), cache)

def verifyPrincipalPolicyRuleAnyCase (p : Policy) (endorsements : List EndorsementEntry)
    (resourceName : Bytes) (cache : MemberCache) : Except Panic (Verdict × MemberCache) := do
  let (met, cache) ← anyMeets rebuild p.orgList p.roleList endorsements cache
  return (if met then .ok () else .error (.requirementNotMet resourceName), cache)

def verifyPrincipalPolicyRuleAllCase (p : Policy) (endorsements : List EndorsementEntry)
    (cache : MemberCache) : Except Panic (Verdict × MemberCache) := do
  let (numOfValid, cache) ← countValidEndorsements rebuild p.orgList p.roleList endorsements cache
  let required := if p.orgList.isEmpty then orgNum else p.orgList.dedup.length
  return (if numOfValid = required then .ok () else .error .notAllConsent, cache)

def numRequired (total numerator denominator : Int) : Float :=
  Float.ofInt total * Float.ofInt numerator / Float.ofInt denominator

def verifyPrincipalPolicyRuleDefaultCase (p : Policy) (endorsements : List EndorsementEntry)
    (cache : MemberCache) : Except Panic (Verdict × MemberCache) :=
  match p.rule.splitOn limitDelimiter with
  | [num] =>
    match parseInt num with
    | .error _ => .ok (.error .unrecognizedRule, cache)
    | .ok threshold => do
      let (numOfValid, cache) ←
        countValidEndorsements rebuild p.orgList p.roleList endorsements cache
      return (if threshold ≤ numOfValid then .ok ()
        else .error (.notEnough threshold numOfValid), cache)
  | [num, den] =>
    match parseInt num, parseInt den with
    | .ok numerator, .ok denominator => do
      let denominator : Int := if denominator ≤ 0 then orgNum else denominator
      let total : Int := if p.orgList.isEmpty then orgNum else p.orgList.dedup.length
      let (numOfValid, cache) ←
        countValidEndorsements rebuild p.orgList p.roleList endorsements cache
      return (if numRequired total numerator denominator ≤ Float.ofNat numOfValid then .ok ()
        else .error (.portionNotReached total numerator denominator numOfValid), cache)
    | _, _ => .ok (.error .unrecognizedRule, cache)
  | _ => .ok (.error .unrecognizedPrinciple, cache)

def verifyPrincipalPolicy (targetOrg resourceName : Bytes) (p : Policy)
    (endorsements : List EndorsementEntry) (cache : MemberCache) :
    Except Panic (Verdict × MemberCache) :=
  if p.rule = ruleForbidden then .ok (.error (.forbidden resourceName), cache)
  else if p.rule = ruleMajority then
    verifyPrincipalPolicyRuleMajorityCase rebuild orgNum endorsements cache
  else if p.rule = ruleSelf then
    verifyPrincipalPolicyRuleSelfCase rebuild targetOrg endorsements cache
  else if p.rule = ruleAny then
    verifyPrincipalPolicyRuleAnyCase rebuild p endorsements resourceName cache
  else if p.rule = ruleAll then
    verifyPrincipalPolicyRuleAllCase rebuild orgNum p endorsements cache
  else verifyPrincipalPolicyRuleDefaultCase rebuild orgNum p endorsements cache

end Check

section Shape

variable (rebuild : PbMember → Except Panic (Option MemberCached)) (orgNum : Nat)

inductive CheckShape
    (check : List EndorsementEntry → MemberCache → Except Panic (Verdict × MemberCache)) : Prop where
  | refuses (error : AuthError)
      (same : ∀ endorsements cache, check endorsements cache = .ok (.error error, cache))
  | counts (orgList : List Bytes) (roleList : List Role) (verdict : Nat → Verdict)
      (same : ∀ endorsements cache, check endorsements cache = do
        let (numOfValid, cache) ←
          countValidEndorsements rebuild orgList roleList endorsements cache
        return (verdict numOfValid, cache))
  | searches (orgList : List Bytes) (roleList : List Role) (verdict : Bool → Verdict)
      (same : ∀ endorsements cache, check endorsements cache = do
        let (met, cache) ← anyMeets rebuild orgList roleList endorsements cache
        return (verdict met, cache))

/-- What a rule asks of the endorsements: nothing, since it refuses them all, a number of
organizations, or one endorsement. -/
inductive RuleCheck where
  | refuses (error : AuthError)
  | counts (orgList : List Bytes) (roleList : List Role) (verdict : Nat → Verdict)
  | searches (orgList : List Bytes) (roleList : List Role) (verdict : Bool → Verdict)

def Policy.defaultCheck (p : Policy) : RuleCheck :=
  match p.rule.splitOn limitDelimiter with
  | [num] =>
    match parseInt num with
    | .error _ => .refuses .unrecognizedRule
    | .ok threshold => .counts p.orgList p.roleList fun count =>
        if threshold ≤ count then .ok () else .error (.notEnough threshold count)
  | [num, den] =>
    match parseInt num, parseInt den with
    | .ok numerator, .ok denominator =>
      let denominator : Int := if denominator ≤ 0 then orgNum else denominator
      let total : Int := if p.orgList.isEmpty then orgNum else p.orgList.dedup.length
      .counts p.orgList p.roleList fun count =>
        if numRequired total numerator denominator ≤ Float.ofNat count then .ok ()
        else .error (.portionNotReached total numerator denominator count)
    | _, _ => .refuses .unrecognizedRule
  | _ => .refuses .unrecognizedPrinciple

def Policy.ruleCheck (targetOrg resourceName : Bytes) (p : Policy) : RuleCheck :=
  if p.rule = ruleForbidden then .refuses (.forbidden resourceName)
  else if p.rule = ruleMajority then .counts [] [roleAdmin] fun count =>
    if orgNum < 2 * count then .ok () else .error (.notEnough (orgNum / 2 + 1) count)
  else if p.rule = ruleSelf then
    if targetOrg = [] then .refuses .targetOrgRequired
    else .searches [targetOrg] [roleAdmin] fun met =>
      if met then .ok () else .error (.targetNotOwned targetOrg)
  else if p.rule = ruleAny then .searches p.orgList p.roleList fun met =>
    if met then .ok () else .error (.requirementNotMet resourceName)
  else if p.rule = ruleAll then .counts p.orgList p.roleList fun count =>
    if count = if p.orgList.isEmpty then orgNum else p.orgList.dedup.length then .ok ()
    else .error .notAllConsent
  else p.defaultCheck orgNum

def RuleCheck.run (endorsements : List EndorsementEntry) (cache : MemberCache) :
    RuleCheck → Except Panic (Verdict × MemberCache)
  | .refuses error => .ok (.error error, cache)
  | .counts orgList roleList verdict => do
    let (numOfValid, cache) ← countValidEndorsements rebuild orgList roleList endorsements cache
    return (verdict numOfValid, cache)
  | .searches orgList roleList verdict => do
    let (met, cache) ← anyMeets rebuild orgList roleList endorsements cache
    return (verdict met, cache)

theorem defaultCheck_run (p : Policy) (endorsements : List EndorsementEntry) (cache : MemberCache) :
    verifyPrincipalPolicyRuleDefaultCase rebuild orgNum p endorsements cache = (p.defaultCheck orgNum).run rebuild endorsements cache := by
  unfold verifyPrincipalPolicyRuleDefaultCase Policy.defaultCheck
  split
  · split <;> rfl
  · split <;> rfl
  · rfl

theorem ruleCheck_run (targetOrg resourceName : Bytes) (p : Policy) (endorsements : List EndorsementEntry) (cache : MemberCache) :
    verifyPrincipalPolicy rebuild orgNum targetOrg resourceName p endorsements cache =
      (p.ruleCheck orgNum targetOrg resourceName).run rebuild endorsements cache := by
  unfold verifyPrincipalPolicy Policy.ruleCheck verifyPrincipalPolicyRuleSelfCase
  split
  · rfl
  split
  · rfl
  split
  · split <;> rfl
  split
  · rfl
  split
  · rfl
  · exact defaultCheck_run rebuild orgNum p endorsements cache

theorem checkShape (targetOrg resourceName : Bytes) (p : Policy) :
    CheckShape rebuild (verifyPrincipalPolicy rebuild orgNum targetOrg resourceName p) := by
  have same := ruleCheck_run rebuild orgNum targetOrg resourceName p
  cases check : p.ruleCheck orgNum targetOrg resourceName with
  | refuses error => exact .refuses error fun endorsements cache => by rw [same, check]; rfl
  | counts orgList roleList verdict =>
    exact .counts orgList roleList verdict fun endorsements cache => by rw [same, check]; rfl
  | searches orgList roleList verdict =>
    exact .searches orgList roleList verdict fun endorsements cache => by rw [same, check]; rfl

end Shape

section Threshold

variable {rule : Bytes} {threshold : Int}

theorem rule_ne (parsed : parseInt rule = .ok threshold) {keyword : Bytes}
    (unparsed : parseInt keyword = .error .invalidSyntax) : rule ≠ keyword := by
  intro same
  rw [same, unparsed] at parsed
  cases parsed

theorem rule_splitOn (parsed : parseInt rule = .ok threshold) : rule.splitOn limitDelimiter = [rule] :=
  List.splitOn_eq_singleton (notMem_of_parseInt parsed (by decide) (by decide) (by decide))

end Threshold

section Accepted

variable {rebuild : PbMember → Except Panic (Option MemberCached)} {orgNum : Nat}
  {targetOrg resourceName : Bytes} {p : Policy} {endorsements : List EndorsementEntry}
  {cache cache' : MemberCache}

theorem verifyPrincipalPolicy_majority (rule : p.rule = ruleMajority) :
    verifyPrincipalPolicy rebuild orgNum targetOrg resourceName p endorsements cache =
      verifyPrincipalPolicyRuleMajorityCase rebuild orgNum endorsements cache := by
  rw [verifyPrincipalPolicy, rule, if_neg (by decide), if_pos rfl]

theorem verifyPrincipalPolicy_self (rule : p.rule = ruleSelf) :
    verifyPrincipalPolicy rebuild orgNum targetOrg resourceName p endorsements cache =
      verifyPrincipalPolicyRuleSelfCase rebuild targetOrg endorsements cache := by
  rw [verifyPrincipalPolicy, rule, if_neg (by decide), if_neg (by decide), if_pos rfl]

theorem verifyPrincipalPolicy_any (rule : p.rule = ruleAny) :
    verifyPrincipalPolicy rebuild orgNum targetOrg resourceName p endorsements cache =
      verifyPrincipalPolicyRuleAnyCase rebuild p endorsements resourceName cache := by
  rw [verifyPrincipalPolicy, rule, if_neg (by decide), if_neg (by decide), if_neg (by decide), if_pos rfl]

theorem verifyPrincipalPolicy_all (rule : p.rule = ruleAll) :
    verifyPrincipalPolicy rebuild orgNum targetOrg resourceName p endorsements cache =
      verifyPrincipalPolicyRuleAllCase rebuild orgNum p endorsements cache := by
  rw [verifyPrincipalPolicy, rule, if_neg (by decide), if_neg (by decide), if_neg (by decide), if_neg (by decide), if_pos rfl]

variable {threshold : Int} {count : Nat}

theorem verifyPrincipalPolicy_threshold (parsed : parseInt p.rule = .ok threshold) :
    verifyPrincipalPolicy rebuild orgNum targetOrg resourceName p endorsements cache = do
      let (numOfValid, cache) ←
        countValidEndorsements rebuild p.orgList p.roleList endorsements cache
      return (if threshold ≤ numOfValid then .ok () else .error (.notEnough threshold numOfValid), cache) := by
  rw [verifyPrincipalPolicy, if_neg (rule_ne parsed (by decide)), if_neg (rule_ne parsed (by decide)), if_neg (rule_ne parsed (by decide)),
    if_neg (rule_ne parsed (by decide)), if_neg (rule_ne parsed (by decide)),
    verifyPrincipalPolicyRuleDefaultCase, rule_splitOn parsed]
  simp only [parsed]

def Policy.CountsOrgs (p : Policy) : Prop :=
  p.rule = ruleMajority ∨ (p.rule = ruleAll ∧ p.orgList = []) ∨
    ∃ threshold, parseInt p.rule = .ok threshold

/-- The count is as large as the rule of the policy demands. -/
structure Policy.Reached (p : Policy) (orgNum count : Nat) : Prop where
  majority : p.rule = ruleMajority → orgNum < 2 * count
  all : p.rule = ruleAll → orgNum ≤ count
  threshold : ∀ threshold, parseInt p.rule = .ok threshold → threshold ≤ count

def Policy.allowedRoles (p : Policy) : List Role :=
  if p.rule = ruleMajority then [roleAdmin] else p.roleList

theorem Policy.Reached.of_majority (rule : p.rule = ruleMajority) (enough : orgNum < 2 * count) : p.Reached orgNum count := by
  refine ⟨fun _ => enough, ?_, ?_⟩
  · intro all
    rw [rule] at all
    cases all
  · intro threshold parsed
    exact absurd rule (rule_ne parsed (by decide))

theorem Policy.Reached.of_all (rule : p.rule = ruleAll) (enough : orgNum ≤ count) : p.Reached orgNum count := by
  refine ⟨?_, fun _ => enough, ?_⟩
  · intro majority
    rw [rule] at majority
    cases majority
  · intro threshold parsed
    exact absurd rule (rule_ne parsed (by decide))

theorem Policy.Reached.of_threshold (parsed : parseInt p.rule = .ok threshold) (enough : threshold ≤ count) : p.Reached orgNum count := by
  refine ⟨fun rule => absurd rule (rule_ne parsed (by decide)), fun rule => absurd rule (rule_ne parsed (by decide)), ?_⟩
  intro other again
  rw [parsed] at again
  cases again
  exact enough

theorem Policy.Reached.mono {count' : Nat} (reached : p.Reached orgNum count) (more : count ≤ count') : p.Reached orgNum count' := by
  refine ⟨?_, ?_, ?_⟩
  · intro rule
    have bound := reached.majority rule
    omega
  · intro rule
    exact (reached.all rule).trans more
  · intro threshold parsed
    have bound := reached.threshold threshold parsed
    omega

theorem countValidEndorsements_eq_ok {orgList : List Bytes} {roleList : List Role}
    (counted : countValidEndorsements rebuild orgList roleList endorsements cache = .ok (count, cache')) :
    ∃ valid, getValidEndorsements rebuild orgList roleList endorsements cache =
      .ok (valid, cache') ∧ count = countOrgsFromEndorsements valid := by
  obtain ⟨⟨valid, last⟩, found, result⟩ := bind_eq_ok.mp counted
  cases result
  exact ⟨valid, found, rfl⟩

theorem ok_of_ite {condition : Prop} [Decidable condition] {error : AuthError}
    (accepted : (if condition then .ok () else .error error : Verdict) = .ok ()) : condition := by
  by_contra failed
  rw [if_neg failed] at accepted
  cases accepted

theorem exists_valid_of_accepted (counts : p.CountsOrgs)
    (accepted : verifyPrincipalPolicy rebuild orgNum targetOrg resourceName p endorsements cache = .ok (.ok (), cache')) :
    ∃ orgList valid last, getValidEndorsements rebuild orgList p.allowedRoles endorsements cache =
        .ok (valid, last) ∧ p.Reached orgNum (countOrgsFromEndorsements valid) := by
  rcases counts with rule | ⟨rule, unlisted⟩ | ⟨threshold, parsed⟩
  · rw [verifyPrincipalPolicy_majority rule] at accepted
    obtain ⟨⟨count, last⟩, counted, result⟩ := bind_eq_ok.mp accepted
    obtain ⟨valid, found, rfl⟩ := countValidEndorsements_eq_ok counted
    injection result with same
    refine ⟨[], valid, last, by rwa [Policy.allowedRoles, if_pos rule], ?_⟩
    exact .of_majority rule (ok_of_ite (congrArg Prod.fst same))
  · have other : p.rule ≠ ruleMajority := by
      rw [rule]
      decide
    rw [verifyPrincipalPolicy_all rule] at accepted
    obtain ⟨⟨count, last⟩, counted, result⟩ := bind_eq_ok.mp accepted
    obtain ⟨valid, found, rfl⟩ := countValidEndorsements_eq_ok counted
    injection result with same
    have exactly := ok_of_ite (congrArg Prod.fst same)
    refine ⟨p.orgList, valid, last, by rwa [Policy.allowedRoles, if_neg other], ?_⟩
    exact .of_all rule (by simpa [unlisted] using exactly.ge)
  · have other : p.rule ≠ ruleMajority := rule_ne parsed (by decide)
    rw [verifyPrincipalPolicy_threshold parsed] at accepted
    obtain ⟨⟨count, last⟩, counted, result⟩ := bind_eq_ok.mp accepted
    obtain ⟨valid, found, rfl⟩ := countValidEndorsements_eq_ok counted
    injection result with same
    refine ⟨p.orgList, valid, last, by rwa [Policy.allowedRoles, if_neg other], ?_⟩
    exact .of_threshold parsed (ok_of_ite (congrArg Prod.fst same))

theorem accepted_of_threshold {valid : List EndorsementEntry} (parsed : parseInt p.rule = .ok threshold)
    (found : getValidEndorsements rebuild p.orgList p.roleList endorsements cache =
      .ok (valid, cache')) (enough : threshold ≤ countOrgsFromEndorsements valid) :
    verifyPrincipalPolicy rebuild orgNum targetOrg resourceName p endorsements cache = .ok (.ok (), cache') := by
  have counted : countValidEndorsements rebuild p.orgList p.roleList endorsements cache =
      .ok (countOrgsFromEndorsements valid, cache') := bind_eq_ok.mpr ⟨_, found, rfl⟩
  rw [verifyPrincipalPolicy_threshold parsed]
  refine bind_eq_ok.mpr ⟨_, counted, ?_⟩
  simp only [if_pos enough]
  rfl

end Accepted

section Counted

variable {rebuild : PbMember → Except Panic (Option MemberCached)}
  {Entry : Bytes → MemberCached → Prop} {orgList : List Bytes} {roleList : List Role}

variable (rebuild Entry orgList roleList) in
def Allows (signer : PbMember) : Prop :=
  (orgList = [] ∨ signer.orgId ∈ orgList) ∧
    (roleList = [] ∨ ∃ role ∈ roleList, CountsFor rebuild Entry signer role)

variable {cache cache' : MemberCache} {endorsement : EndorsementEntry} {met : Bool}
  {endorsements : List EndorsementEntry}

theorem meets_cases (done : meets rebuild orgList roleList cache endorsement = .ok (met, cache')) :
    cache' = cache ∨ ∃ member, getMemberFromCache rebuild cache endorsement.signer = .ok (member, cache') := by
  unfold meets at done
  split at done
  · split at done
    · cases done
      exact .inl rfl
    · split at done
      · cases done
      · next found =>
        cases done
        exact .inr ⟨none, found⟩
      · next member _ found =>
        cases done
        exact .inr ⟨some member, found⟩
  · cases done
    exact .inl rfl

theorem meets_holds (builds : Records rebuild Entry) (done : meets rebuild orgList roleList cache endorsement = .ok (met, cache'))
    (holds : cache.Holds Entry) : cache'.Holds Entry := by
  rcases meets_cases done with rfl | ⟨member, found⟩
  · exact holds
  · exact getMemberFromCache_holds builds found holds

theorem allows_of_meets (holds : cache.Holds Entry) (done : meets rebuild orgList roleList cache endorsement = .ok (true, cache')) :
    Allows rebuild Entry orgList roleList endorsement.signer := by
  unfold meets at done
  split at done
  · next listed =>
    refine ⟨by simpa using listed, ?_⟩
    split at done
    · next empty => exact .inl (by simpa using empty)
    · split at done
      · cases done
      · cases done
      · next member _ found =>
        injection done with same
        have permitted : roleList.contains member.role = true := congrArg Prod.fst same
        exact .inr ⟨member.role, by simpa using permitted, getMemberFromCache_countsFor holds found⟩
  · cases done

theorem getValidEndorsements_spec (builds : Records rebuild Entry) {valid : List EndorsementEntry} (holds : cache.Holds Entry)
    (done : getValidEndorsements rebuild orgList roleList endorsements cache = .ok (valid, cache')) :
    valid.Sublist endorsements ∧ cache'.Holds Entry ∧ ∀ endorsement ∈ valid, Allows rebuild Entry orgList roleList endorsement.signer := by
  induction endorsements generalizing valid cache cache' with
  | nil =>
    cases done
    exact ⟨List.Sublist.refl _, holds, fun _ member => absurd member List.not_mem_nil⟩
  | cons endorsement rest ih =>
    obtain ⟨⟨met, between⟩, first, later⟩ := bind_eq_ok.mp done
    obtain ⟨⟨others, last⟩, following, result⟩ := bind_eq_ok.mp later
    obtain ⟨sublist, keeps, allowed⟩ := ih (meets_holds builds first holds) following
    injection result with same
    obtain ⟨rfl, rfl⟩ := Prod.ext_iff.mp same
    cases met with
    | false => exact ⟨sublist.cons _, keeps, allowed⟩
    | true =>
      refine ⟨sublist.cons_cons _, keeps, ?_⟩
      intro counted member
      rcases List.mem_cons.mp member with rfl | inside
      · exact allows_of_meets holds first
      · exact allowed counted inside

theorem anyMeets_holds (builds : Records rebuild Entry) (holds : cache.Holds Entry)
    (done : anyMeets rebuild orgList roleList endorsements cache = .ok (met, cache')) :
    cache'.Holds Entry := by
  induction endorsements generalizing cache with
  | nil =>
    cases done
    exact holds
  | cons endorsement rest ih =>
    obtain ⟨⟨first, between⟩, looked, later⟩ := bind_eq_ok.mp done
    have keeps := meets_holds builds looked holds
    cases first with
    | true =>
      cases later
      exact keeps
    | false => exact ih keeps later

theorem exists_allows_of_anyMeets (builds : Records rebuild Entry) (holds : cache.Holds Entry)
    (done : anyMeets rebuild orgList roleList endorsements cache = .ok (true, cache')) :
    ∃ endorsement ∈ endorsements, Allows rebuild Entry orgList roleList endorsement.signer := by
  induction endorsements generalizing cache with
  | nil => cases done
  | cons endorsement rest ih =>
    obtain ⟨⟨first, between⟩, looked, later⟩ := bind_eq_ok.mp done
    cases first with
    | true => exact ⟨endorsement, List.mem_cons_self, allows_of_meets holds looked⟩
    | false =>
      obtain ⟨found, inside, allowed⟩ := ih (meets_holds builds looked holds) later
      exact ⟨found, List.mem_cons_of_mem _ inside, allowed⟩

theorem verifyPrincipalPolicy_holds (builds : Records rebuild Entry)
    {orgNum : Nat} {targetOrg resourceName : Bytes} {p : Policy} {verdict : Verdict}
    (holds : cache.Holds Entry)
    (done : verifyPrincipalPolicy rebuild orgNum targetOrg resourceName p endorsements cache =
      .ok (verdict, cache')) : cache'.Holds Entry := by
  cases checkShape rebuild orgNum targetOrg resourceName p with
  | refuses error same =>
    rw [same] at done
    cases done
    exact holds
  | counts orgs roles decision same =>
    rw [same] at done
    obtain ⟨⟨count, last⟩, counted, result⟩ := bind_eq_ok.mp done
    obtain ⟨valid, found, _⟩ := countValidEndorsements_eq_ok counted
    cases result
    exact (getValidEndorsements_spec builds holds found).2.1
  | searches orgs roles decision same =>
    rw [same] at done
    obtain ⟨⟨met, last⟩, searched, result⟩ := bind_eq_ok.mp done
    cases result
    exact anyMeets_holds builds holds searched

theorem getValidEndorsements_unrestricted (endorsements : List EndorsementEntry) (cache : MemberCache) :
    getValidEndorsements rebuild [] [] endorsements cache = .ok (endorsements, cache) := by
  induction endorsements with
  | nil => rfl
  | cons endorsement rest ih =>
    have first : meets rebuild [] [] cache endorsement = .ok (true, cache) := rfl
    rw [getValidEndorsements, first]
    change (getValidEndorsements rebuild [] [] rest cache >>= _) = _
    rw [ih]
    rfl

end Counted

section Transfer

variable {rebuild : PbMember → Except Panic (Option MemberCached)}
  {Entry : Bytes → MemberCached → Prop}

variable (rebuild Entry) in
structure StandsFor (first second : EndorsementEntry) : Prop where
  orgId : second.signer.orgId = first.signer.orgId
  meets : ∀ orgList roleList cache result, cache.Holds Entry →
    AccessControl.meets rebuild orgList roleList cache first = .ok result →
      AccessControl.meets rebuild orgList roleList cache second = .ok result

variable (builds : Records rebuild Entry)

include builds

variable {endorsements' : List EndorsementEntry} {cache : MemberCache}
  {endorsements : List EndorsementEntry}

theorem getValidEndorsements_standsFor (stand : List.Forall₂ (StandsFor rebuild Entry) endorsements endorsements')
    {orgList : List Bytes} {roleList : List Role} {cache' : MemberCache} (holds : cache.Holds Entry)
    {valid : List EndorsementEntry}
    (done : getValidEndorsements rebuild orgList roleList endorsements cache = .ok (valid, cache')) :
    ∃ valid', getValidEndorsements rebuild orgList roleList endorsements' cache =
      .ok (valid', cache') ∧ valid'.map (·.signer.orgId) = valid.map (·.signer.orgId) := by
  induction stand generalizing cache cache' valid with
  | nil =>
    cases done
    exact ⟨[], rfl, rfl⟩
  | cons here _ ih =>
    obtain ⟨⟨met, between⟩, first, later⟩ := bind_eq_ok.mp done
    obtain ⟨⟨others, last⟩, following, result⟩ := bind_eq_ok.mp later
    obtain ⟨others', following', same⟩ := ih (meets_holds builds first holds) following
    injection result with result
    obtain ⟨rfl, rfl⟩ := Prod.ext_iff.mp result
    refine ⟨_, bind_eq_ok.mpr ⟨_, here.meets _ _ _ _ holds first, bind_eq_ok.mpr ⟨_, following', rfl⟩⟩, ?_⟩
    cases met with
    | false => exact same
    | true => simp only [if_true, List.map_cons, here.orgId, same]

theorem anyMeets_standsFor (stand : List.Forall₂ (StandsFor rebuild Entry) endorsements endorsements')
    {orgList : List Bytes} {roleList : List Role} (holds : cache.Holds Entry)
    {result : Bool × MemberCache}
    (done : anyMeets rebuild orgList roleList endorsements cache = .ok result) :
    anyMeets rebuild orgList roleList endorsements' cache = .ok result := by
  induction stand generalizing cache with
  | nil => exact done
  | cons here _ ih =>
    obtain ⟨⟨met, between⟩, first, later⟩ := bind_eq_ok.mp done
    refine bind_eq_ok.mpr ⟨_, here.meets _ _ _ _ holds first, ?_⟩
    cases met with
    | true => exact later
    | false => exact ih (meets_holds builds first holds) later

theorem verifyPrincipalPolicy_standsFor (stand : List.Forall₂ (StandsFor rebuild Entry) endorsements endorsements') {orgNum : Nat}
    {targetOrg resourceName : Bytes} {p : Policy} (holds : cache.Holds Entry)
    {result : Verdict × MemberCache}
    (done : verifyPrincipalPolicy rebuild orgNum targetOrg resourceName p endorsements cache = .ok result) :
    verifyPrincipalPolicy rebuild orgNum targetOrg resourceName p endorsements' cache = .ok result := by
  cases checkShape rebuild orgNum targetOrg resourceName p with
  | refuses error same => rwa [same] at done ⊢
  | counts orgs roles decision same =>
    rw [same] at done ⊢
    obtain ⟨⟨count, last⟩, counted, final⟩ := bind_eq_ok.mp done
    obtain ⟨valid, found, rfl⟩ := countValidEndorsements_eq_ok counted
    obtain ⟨valid', found', sameOrgs⟩ := getValidEndorsements_standsFor builds stand holds found
    refine bind_eq_ok.mpr ⟨_, bind_eq_ok.mpr ⟨_, found', rfl⟩, ?_⟩
    simp only [countOrgsFromEndorsements, sameOrgs]
    exact final
  | searches orgs roles decision same =>
    rw [same] at done ⊢
    obtain ⟨_, searched, final⟩ := bind_eq_ok.mp done
    exact bind_eq_ok.mpr ⟨_, anyMeets_standsFor builds stand holds searched, final⟩

end Transfer

section Identified

variable {rebuild : PbMember → Except Panic (Option MemberCached)}
  {Entry : Bytes → MemberCached → Prop}

variable (rebuild Entry) in
structure Identified (signer : PbMember) (role : Role) : Prop where
  cached : ∀ cached, Entry signer.memberInfo cached →
    cached.member.orgId = signer.orgId ∧ cached.member.role = role
  rebuilt : ∃ cached, rebuild signer = .ok (some cached) ∧ cached.member.role = role

variable {cache : MemberCache} {roleList : List Role}

theorem Identified.getMemberFromCache {signer : PbMember} {role : Role}
    (identified : Identified rebuild Entry signer role) (holds : cache.Holds Entry) :
    ∃ member cache', AccessControl.getMemberFromCache rebuild cache signer = .ok (some member, cache') ∧ member.role = role := by
  cases present : cache.get signer.memberInfo with
  | some cached =>
    obtain ⟨belongs, sameRole⟩ := identified.cached cached (holds _ _ present)
    refine ⟨cached.member, cache, ?_, sameRole⟩
    rw [AccessControl.getMemberFromCache, present]
    exact if_pos belongs
  | none =>
    obtain ⟨cached, built, sameRole⟩ := identified.rebuilt
    refine ⟨cached.member, cache.add signer.memberInfo cached, ?_, sameRole⟩
    rw [AccessControl.getMemberFromCache, present, built]

variable (builds : Records rebuild Entry)

include builds

theorem Identified.meets {endorsement : EndorsementEntry} {role : Role}
    (identified : Identified rebuild Entry endorsement.signer role) (restricted : roleList ≠ [])
    (holds : cache.Holds Entry) :
    ∃ cache', AccessControl.meets rebuild [] roleList cache endorsement = .ok (roleList.contains role, cache') ∧ cache'.Holds Entry := by
  obtain ⟨member, cache', found, rfl⟩ := identified.getMemberFromCache holds
  refine ⟨cache', ?_, getMemberFromCache_holds builds found holds⟩
  have nonempty : roleList.isEmpty = false := by simpa using restricted
  simp [AccessControl.meets, nonempty, found]

variable {endorsements : List EndorsementEntry}

variable (role : PbMember → Role) (restricted : roleList ≠ [])
  (identified : ∀ endorsement ∈ endorsements,
    Identified rebuild Entry endorsement.signer (role endorsement.signer))

include restricted identified

theorem getValidEndorsements_identified (holds : cache.Holds Entry) : ∃ cache', getValidEndorsements rebuild [] roleList endorsements cache =
      .ok (endorsements.filter fun endorsement => roleList.contains (role endorsement.signer), cache') ∧ cache'.Holds Entry := by
  induction endorsements generalizing cache with
  | nil => exact ⟨cache, rfl, holds⟩
  | cons endorsement rest ih =>
    obtain ⟨between, first, keeps⟩ :=
      (identified endorsement List.mem_cons_self).meets builds restricted holds
    obtain ⟨cache', following, final⟩ :=
      ih (fun other member => identified other (List.mem_cons_of_mem _ member)) keeps
    refine ⟨cache', ?_, final⟩
    rw [getValidEndorsements, first]
    change (getValidEndorsements rebuild [] roleList rest between >>= _) = _
    rw [following, List.filter_cons]
    rfl

theorem anyMeets_identified (holds : cache.Holds Entry) : ∃ cache', anyMeets rebuild [] roleList endorsements cache =
      .ok (endorsements.any fun endorsement => roleList.contains (role endorsement.signer), cache') ∧ cache'.Holds Entry := by
  induction endorsements generalizing cache with
  | nil => exact ⟨cache, rfl, holds⟩
  | cons endorsement rest ih =>
    obtain ⟨between, first, keeps⟩ :=
      (identified endorsement List.mem_cons_self).meets builds restricted holds
    obtain ⟨cache', following, final⟩ :=
      ih (fun other member => identified other (List.mem_cons_of_mem _ member)) keeps
    rw [anyMeets, first, List.any_cons]
    cases roleList.contains (role endorsement.signer) with
    | true => exact ⟨between, rfl, keeps⟩
    | false => exact ⟨cache', following, final⟩

end Identified

end Pdcc.AccessControl
