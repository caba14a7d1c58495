import Paymaster.Backend.Escalation

/-!
# Pinned credentials

The policy that a key is pinned to goes with its sessions, and wins over the
policy that a request names. A key that is created with a pinned credential has
the policy that its request names, if any; where that is another one, and the
new key can sponsor or create who can, the pin is lost.
-/

namespace Paymaster

/-- Within what the other may do, and bound by its pin: the one has it too, or
can neither sponsor nor create a key that can. -/
structure Principal.Keeps (p q : Principal) : Prop extends p.Within q where
  pin : ∀ policyId, q.policyId = some policyId →
    p.policyId = some policyId ∨ (.sponsorCreate ∉ p.permissions ∧ .keyWrite ∉ p.permissions)

theorem keeps_refl (p : Principal) : p.Keeps p := ⟨within_refl p, fun _ h => .inl h⟩

theorem keeps_trans {p q r : Principal} (h : p.Keeps q) (h' : q.Keeps r) : p.Keeps r := by
  refine ⟨within_trans h.toWithin h'.toWithin, fun policyId hr => ?_⟩
  rcases h'.pin policyId hr with hq | ⟨hsponsor, hkeys⟩
  · exact h.pin policyId hq
  · refine .inr ⟨fun hp => ?_, fun hp => ?_⟩
    · rcases h.permissions _ hp with hq | ⟨-, hq⟩
      · exact hsponsor hq
      · exact hkeys hq
    · rcases h.permissions _ hp with hq | ⟨-, hq⟩
      · exact hkeys hq
      · exact hkeys hq

/-! ## What a call is evaluated under -/

structure Resolution where
  tenantId : String
  policyId : String
  policy : Policy

structure Resolution.Under (r : Resolution) (tenantId policyId : String) : Prop where
  tenant : r.tenantId = tenantId
  named : r.policyId = policyId
  policy : keyOf r.policy.tenantId r.policy.id = keyOf tenantId policyId

theorem under_owner {r : Resolution} {tenantId policyId : String} (h : r.Under tenantId policyId)
    (howner : tenantIdPattern r.policy.tenantId = true) (htenant : tenantIdPattern tenantId = true) :
    r.policy.tenantId = tenantId ∧ r.policy.id = policyId := keyOf_inj howner htenant h.policy

namespace SponsorCall

def resolution (c : SponsorCall) : Resolution := ⟨c.caller.tenantId, c.policyId, c.policy⟩

theorem resolution_enter (c : SponsorCall) (kind : PaymasterKind) (subscription : Option SubscriptionStatus)
    (balance : Option Nat) (now : Nat) : (c.enter kind subscription balance now).resolution = c.resolution := by
  unfold enter
  split <;> rfl

end SponsorCall

theorem sponsorStep_resolutions {deps : SponsorServiceDeps} {s s' : Service} {l : SponsorLabel}
    (h : SponsorStep deps s l s') :
    s'.calls.map SponsorCall.resolution = s.calls.map SponsorCall.resolution ∨
      ∃ replica request caller policy, l = .sponsor replica request caller ∧
        (s.policies replica).get caller.tenantId (request.policyId.getD deps.defaultPolicyId) = some policy ∧
        s'.calls.map SponsorCall.resolution = s.calls.map SponsorCall.resolution ++
          [⟨caller.tenantId, request.policyId.getD deps.defaultPolicyId, policy⟩] := by
  cases h with
  | reload => exact .inl rfl
  | unknown => exact .inl rfl
  | sponsor replica request caller hpolicy =>
    exact .inr ⟨replica, request, caller, _, rfl, hpolicy, List.map_append⟩
  | enter kind subscription balance now hc =>
    exact .inl (Pool.map_set_eq hc (SponsorCall.resolution_enter _ kind subscription balance now))
  | abandon hc => exact .inl (Pool.map_set_eq hc rfl)
  | evaluate verdict hc => exact .inl (Pool.map_set_eq hc rfl)
  | refuse hc => exact .inl (Pool.map_set_eq hc rfl)
  | compensate hc => exact .inl (Pool.map_set_eq hc rfl)
  | attest signed hc => exact .inl (Pool.map_set_eq hc rfl)
  | record outcome hc => cases outcome <;> exact .inl (Pool.map_set_eq hc rfl)

theorem get_key {source : PolicySource} {tenantId id : String} {policy : Policy} (h : source.get tenantId id = some policy) :
    keyOf policy.tenantId policy.id = keyOf tenantId id := by
  unfold PolicySource.get at h
  simpa using List.find?_some h

variable {Text : Type}

/-! ## Who presented what -/

structure Attributed (Text : Type) where
  accounts : Accounts Text
  presenters : List (Presented Text)

def Accounts.resolutions (s : Accounts Text) : List Resolution := s.service.calls.map SponsorCall.resolution

/-- A pinned caller that creates a key gives it its own pin, or roles that can
neither sponsor nor create keys. -/
def Accounts.keepsPin (deps : AccountDeps Text) (s : Accounts Text) : AccountLabel Text → Bool
  | .admin presented _ (.createKey request) _ =>
    match deps.auth.guard s.db [.keyWrite] presented s.time with
    | .ok principal =>
      !(escalations request.roles principal.permissions).isEmpty ||
        principal.policyId.all fun policyId => request.policyId = some policyId ||
          (permissionsFor request.roles).all fun permission => permission ≠ .sponsorCreate ∧ permission ≠ .keyWrite
    | .error _ => true
  | _ => true

def AccountLabel.presenter : AccountLabel Text → Option (Presented Text)
  | .sponsor _ presented _ _ => some presented
  | _ => none

namespace Attributed

def db (s : Attributed Text) : Database := s.accounts.db

def step [DecidableEq Text] (deps : AccountDeps Text) (s : Attributed Text) (l : AccountLabel Text) :
    Option (Attributed Text) :=
  (s.accounts.step deps l).map fun accounts =>
    { accounts := accounts
      presenters := s.presenters ++
        if accounts.service.calls.length = s.accounts.service.calls.length then [] else l.presenter.toList }

structure Fresh (s : Attributed Text) : Prop where
  accounts : s.accounts.Fresh
  presenters : s.presenters = []

def Scoped (deps : AccountDeps Text) (db : Database) (presented : Presented Text) (r : Resolution) : Prop :=
  ∃ p, deps.StandsFor db presented p ∧ .sponsorCreate ∈ p.permissions ∧
    ∀ policyId, p.policyId = some policyId → r.Under p.tenantId policyId

/-- The invariant: what was handed out keeps the pin of what was presented for
it, and every call is scoped to what was presented for it. -/
structure Pinned (deps : AccountDeps Text) (s : Attributed Text) : Prop where
  credentials : s.accounts.Related deps Principal.Keeps
  attributed : s.presenters.length = s.accounts.resolutions.length
  calls : ∀ (i : Nat) (presented : Presented Text) (r : Resolution), s.presenters[i]? = some presented →
    s.accounts.resolutions[i]? = some r → Scoped deps s.db presented r

end Attributed

section
variable {deps : AccountDeps Text} {s s' : Attributed Text}

open Attributed

theorem keeps_createKey {p : Principal} {presented : Presented Text} {clientIp : Option String}
    {request : CreateKeyRequest} {generated : Generated} (hl : s.accounts.keepsPin deps
      (.admin presented clientIp (.createKey request) generated) = true)
    (hguard : deps.auth.guard s.accounts.db [.keyWrite] presented s.accounts.time = .ok p)
    (hescalations : escalations request.roles p.permissions = []) :
    Principal.Keeps ⟨p.tenantId, generated.keyId, request.name, request.roles, request.policyId⟩ p := by
  have hkeys : .keyWrite ∈ p.permissions := (guard_ok hguard).2 .keyWrite (List.mem_singleton_self _)
  refine ⟨within_createKey rfl hkeys hescalations, fun policyId hpin => ?_⟩
  simp only [Accounts.keepsPin, hguard, hescalations, hpin, Option.all_some, List.isEmpty_nil, Bool.not_true,
    Bool.false_or, Bool.or_eq_true, decide_eq_true_eq, List.all_eq_true] at hl
  refine hl.imp_right fun hgrants => ⟨fun h => ?_, fun h => ?_⟩
  · exact (hgrants _ h).1 rfl
  · exact (hgrants _ h).2 rfl

variable [DecidableEq Text]

/-- What one step does to the calls: it keeps what they are evaluated under, or
starts one for whom the guard lets through, with the pin in place of what was asked for. -/
theorem accountStep_resolutions {s s' : Accounts Text} {l : AccountLabel Text} (h : AccountStep deps s l s') :
    s'.resolutions = s.resolutions ∨
      ∃ presented p r, l.presenter = some presented ∧
        deps.auth.guard s.db [.sponsorCreate] presented s.time = .ok p ∧
        (∀ policyId, p.policyId = some policyId → r.Under p.tenantId policyId) ∧
        s'.resolutions = s.resolutions ++ [r] := by
  cases h with
  | @sponsor presented p service replica request clientIp hguard hservice =>
    rcases sponsorStep_resolutions hservice with hsame | ⟨_, _, _, policy, heq, hpolicy, hcalls⟩
    · exact .inl hsame
    · cases heq
      refine .inr ⟨presented, p, _, rfl, hguard, fun policyId hpin => ?_, hcalls⟩
      have hnamed : ((Accounts.scopedRequest p request).policyId.getD deps.sponsor.defaultPolicyId) = policyId := by
        simp [Accounts.scopedRequest, hpin]
      rw [hnamed] at hpolicy ⊢
      exact ⟨rfl, rfl, get_key hpolicy⟩
  | service hne hservice =>
    rcases sponsorStep_resolutions hservice with hsame | ⟨_, _, _, _, heq, -⟩
    · exact .inl hsame
    · exact absurd heq (hne _ _ _)
  | _ => exact .inl rfl

theorem pinned_step {l : AccountLabel Text} (hs : s.Pinned deps) (hl : s.accounts.keepsPin deps l = true)
    (h : s.step deps l = some s') : s'.Pinned deps := by
  obtain ⟨accounts, hstep, rfl⟩ := Option.map_eq_some_iff.mp h
  have hcases := accountStep_cases hstep
  have hkeys := accountStep_keys hcases
  have hcredentials : accounts.Related deps Principal.Keeps := by
    refine related_step keeps_refl hs.credentials hcases ?_
    intro presented clientIp request generated p heq hguard hescalations
    subst heq
    exact keeps_createKey hl hguard hescalations
  have hscoped : ∀ {presented : Presented Text} {r : Resolution}, Scoped deps s.db presented r →
      Scoped deps accounts.db presented r := by
    rintro presented r ⟨p, hstands, hsponsor, hunder⟩
    exact ⟨p, standsFor_kept hkeys hstands, hsponsor, hunder⟩
  have hattributed := hs.attributed
  rcases accountStep_resolutions hcases with hsame | ⟨presented, p, r, hpresenter, hguard, hunder, hcalls⟩
  · have hlength : accounts.service.calls.length = s.accounts.service.calls.length := by
      simpa [Accounts.resolutions] using congrArg List.length hsame
    rw [if_pos hlength, List.append_nil]
    refine ⟨hcredentials, ?_, ?_⟩
    · rw [hsame]
      exact hattributed
    · intro i presented r hpresented hr
      rw [hsame] at hr
      exact hscoped (hs.calls i presented r hpresented hr)
  · have hlength : accounts.service.calls.length ≠ s.accounts.service.calls.length := by
      have hone : accounts.service.calls.length = s.accounts.service.calls.length + 1 := by
        simpa [Accounts.resolutions] using congrArg List.length hcalls
      omega
    rw [if_neg hlength, hpresenter, Option.toList_some]
    refine ⟨hcredentials, ?_, ?_⟩
    · rw [hcalls, List.length_append, List.length_append, hattributed]
      rfl
    · intro i presented' r' hpresented hr
      rw [hcalls] at hr
      rcases Pool.getElem?_append_cases hpresented with ⟨rfl, rfl⟩ | hold
      · rw [hattributed, List.getElem?_concat_length, Option.some.injEq] at hr
        subst hr
        exact ⟨p, standsFor_kept hkeys (standsFor_guard hguard), (guard_ok hguard).2 _ (List.mem_singleton_self _), hunder⟩
      · have hlt : i < s.accounts.resolutions.length := hattributed ▸ Pool.lt_of_getElem? hold
        rw [List.getElem?_append_left hlt] at hr
        exact hscoped (hs.calls i presented' r' hold hr)

/-- In every run in which pinned callers that create keys pass on their pin or
nothing to sponsor by, every call that is made by a credential reached from a
pinned one is evaluated under its tenant's policy of that id. -/
theorem pin_kept {ls : List (AccountLabel Text)} (hstart : s.Fresh)
    (hls : Runs.Meets (Attributed.step deps) (fun s l => s.accounts.keepsPin deps l = true) s ls)
    (hrun : Runs.run (Attributed.step deps) s ls = some s') {start presented : Presented Text} {p₀ : Principal}
    {policyId : String} {i : Nat} {r : Resolution} (hstands : deps.StandsFor s'.db start p₀)
    (hpin : p₀.policyId = some policyId) (hreach : Reaches s'.accounts.issues start presented)
    (hpresented : s'.presenters[i]? = some presented) (hcall : s'.accounts.resolutions[i]? = some r) :
    r.Under p₀.tenantId policyId := by
  have hfresh : s.Pinned deps := by
    refine ⟨related_fresh hstart.accounts, ?_, ?_⟩
    · simp [hstart.presenters, Accounts.resolutions, hstart.accounts.calls]
    · simp [hstart.presenters]
  have hs' : s'.Pinned deps := Runs.invariant_of_meets pinned_step hfresh hls hrun
  obtain ⟨p, hp, hsponsor, hunder⟩ := hs'.calls i presented r hpresented hcall
  have hkeeps : p.Keeps p₀ := reaches_related keeps_refl keeps_trans hs'.credentials hstands hreach hp
  rcases hkeeps.pin policyId hpin with hsame | ⟨hnone, -⟩
  · rw [← hkeeps.tenant]
    exact hunder policyId hsame
  · exact absurd hsponsor hnone

end

/-! ## A key pinned to the standard policy -/

theorem acmePolicies_distinct : (([⟨"acme", "standard", []⟩, ⟨"acme", "generous", []⟩] : List Policy).map
    fun p => keyOf p.tenantId p.id).Nodup := by
  decide +kernel

def pinnedAccounts : Attributed String where
  accounts :=
    { acmeAccounts with
      admin := { acmeAndGlobex [⟨"acme", "standard", "Standard", none, true, 0, 0⟩,
          ⟨"acme", "generous", "Generous", none, true, 0, 0⟩] with
        db := { (acmeAndGlobex [⟨"acme", "standard", "Standard", none, true, 0, 0⟩,
            ⟨"acme", "generous", "Generous", none, true, 0, 0⟩]).db with
          apiKeys := [{ acmeKey with roles := ["tenant_admin"], policyId := some "standard" }] } }
      service := .start (fun _ => ⟨[⟨"acme", "standard", []⟩, ⟨"acme", "generous", []⟩], acmePolicies_distinct⟩) fun _ => none }
  presenters := []

def dAppSecret : String := "pm_live_9876543210987654321098765432109876543210987"

def createAndSponsor (policyId : Option String) : List (AccountLabel String) :=
  [.admin (.text acmeSecret) none (.createKey ⟨"dApp", [.sponsor], policyId, .live, none⟩)
      { sampleGenerated with random := "9876543210987654321098765432109876543210987" },
    .sponsor 0 (.text dAppSecret) { sampleRequest 0 1 with policyId := some "generous" } none]

theorem pinnedAccounts_fresh : pinnedAccounts.Fresh := ⟨⟨rfl, rfl, rfl, rfl⟩, rfl⟩

def pinView (s : Attributed String) : Option (String × Option String) × Bool × Bool × Option (String × String) :=
  ((s.db.findByHash acmeSecret).map fun row => (row.principal.tenantId, row.principal.policyId),
    s.accounts.issues.any fun issue =>
      issue.presented = some (.text acmeSecret) ∧ issue.issued = .text dAppSecret,
    s.presenters[0]? = some (.text dAppSecret),
    s.accounts.resolutions[0]?.map fun r => (r.policy.tenantId, r.policy.id))

theorem pinView_eq {s : Attributed String} {tenantId owner used : String} {policyId : Option String}
    (h : pinView s = (some (tenantId, policyId), true, true, some (owner, used))) :
    (∃ p, acmeDeps.StandsFor s.db (.text acmeSecret) p ∧ p.tenantId = tenantId ∧ p.policyId = policyId) ∧
      Reaches s.accounts.issues (.text acmeSecret) (.text dAppSecret) ∧
      s.presenters[0]? = some (.text dAppSecret) ∧
      ∃ r, s.accounts.resolutions[0]? = some r ∧ r.policy.tenantId = owner ∧ r.policy.id = used := by
  simp only [pinView, Prod.mk.injEq] at h
  obtain ⟨hpin, hissued, hpresented, hused⟩ := h
  refine ⟨?_, ?_, of_decide_eq_true hpresented, ?_⟩
  · obtain ⟨row, hrow, heq⟩ := Option.map_eq_some_iff.mp hpin
    obtain ⟨htenant, hpolicy⟩ := Prod.mk.inj heq
    exact ⟨row.principal, ⟨row, hrow, rfl⟩, htenant, hpolicy⟩
  · obtain ⟨issue, hissue, heq⟩ := List.any_eq_true.mp hissued
    exact .single ⟨issue, hissue, of_decide_eq_true heq⟩
  · obtain ⟨r, hr, heq⟩ := Option.map_eq_some_iff.mp hused
    obtain ⟨howner, hid⟩ := Prod.mk.inj heq
    exact ⟨r, hr, howner, hid⟩

theorem acme_pattern : tenantIdPattern "acme" = true := by decide +kernel

/-- A key with the same pin does not get the policy that it asks for. -/
theorem pin_kept_acme : ∃ s r,
    Runs.run (Attributed.step acmeDeps) pinnedAccounts (createAndSponsor (some "standard")) = some s ∧
      s.accounts.resolutions[0]? = some r ∧ r.policy.tenantId = "acme" ∧ r.policy.id = "standard" := by
  have hrun : (Runs.run (Attributed.step acmeDeps) pinnedAccounts (createAndSponsor (some "standard"))).map pinView =
      some (some ("acme", some "standard"), true, true, some ("acme", "standard")) := by
    decide +kernel
  obtain ⟨s, hs, hview⟩ := Option.map_eq_some_iff.mp hrun
  obtain ⟨⟨p, hp, htenant, hpin⟩, hreach, hpresented, r, hr, howner, -⟩ := pinView_eq hview
  have hunder : r.Under p.tenantId "standard" :=
    pin_kept pinnedAccounts_fresh (by decide +kernel) hs hp hpin hreach hpresented hr
  rw [htenant] at hunder
  exact ⟨s, r, hs, hr, under_owner hunder (howner ▸ acme_pattern) acme_pattern⟩

/-- A key without a pin does, though a pinned one created it. -/
theorem pin_escaped : ¬ ∀ (deps : AccountDeps String) (s s' : Attributed String) (ls : List (AccountLabel String))
    (start presented : Presented String) (p₀ : Principal) (policyId : String) (i : Nat) (r : Resolution),
    s.Fresh → Runs.run (Attributed.step deps) s ls = some s' → deps.StandsFor s'.db start p₀ →
    p₀.policyId = some policyId → Reaches s'.accounts.issues start presented → s'.presenters[i]? = some presented →
    s'.accounts.resolutions[i]? = some r → r.Under p₀.tenantId policyId := by
  intro hall
  have hrun : (Runs.run (Attributed.step acmeDeps) pinnedAccounts (createAndSponsor none)).map pinView =
      some (some ("acme", some "standard"), true, true, some ("acme", "generous")) := by
    decide +kernel
  obtain ⟨s, hs, hview⟩ := Option.map_eq_some_iff.mp hrun
  obtain ⟨⟨p, hp, htenant, hpin⟩, hreach, hpresented, r, hr, howner, hused⟩ := pinView_eq hview
  have hunder := hall acmeDeps pinnedAccounts s _ _ _ p _ 0 r pinnedAccounts_fresh hs hp hpin hreach hpresented hr
  rw [htenant] at hunder
  have hid : r.policy.id = "standard" := (under_owner hunder (howner ▸ acme_pattern) acme_pattern).2
  rw [hused] at hid
  revert hid
  decide

end Paymaster
