import Paymaster.Contracts.Control
import Paymaster.Contracts.Solvency

/-!
# Who may move a tenant's money

A withdrawal needs the owner or the tenant's controller, and a controller that
derives from a claim has to have waited out the claim delay, whoever holds the
control by then. Signer keys alone never replace a controller, and spend a
balance only through an operation they attested.
-/

namespace Paymaster

open CallStack Function

section
variable {dep : Deployment} {s : State} {e : Entry} {older : List Entry} {t : Bytes32}

theorem assigned_of_controllerIn_ne (h : controllerIn t (e :: older) ≠ controllerIn t older) :
    ∃ controller, e.assigned? = some (t, controller) := by
  cases he : e.assigned? with
  | none => exact absurd (controllerIn_other he) h
  | some p =>
    obtain ⟨t', controller⟩ := p
    rw [controllerIn_assigned he] at h
    by_cases ht : t' = t
    · exact ⟨controller, by rw [ht]⟩
    · rw [if_neg ht] at h
      exact absurd rfl h

theorem replaced_by {controller : Address} (ha : e.Authorised dep s older) (h0 : controllerIn t older ≠ 0)
    (he : e.assigned? = some (t, controller)) :
    ∃ sender timestamp,
      (e = .call sender timestamp (.setController t controller) ∧ sender = ownerIn s.owner older) ∨
      (e = .call sender timestamp (.transferController t controller) ∧ sender = controllerIn t older) := by
  cases e with
  | call sender timestamp c =>
    cases c with
    | setController t' a =>
      cases he
      exact ⟨sender, timestamp, .inl ⟨rfl, ha.1⟩⟩
    | transferController t' a =>
      cases he
      exact ⟨sender, timestamp, .inr ⟨rfl, ha.1⟩⟩
    | claimController t' a deadline signature =>
      cases he
      exact absurd ha.2.1 h0
    | _ => cases he
  | _ => cases he

/-- A balance decreases by a debit or by the reservation of an operation that
names the tenant and that an authorised signer attested. -/
theorem spent_by (ha : e.Authorised dep s older) (h : balanceIn t (e :: older) < balanceIn t older) :
    (∃ sender timestamp amount, e = .debit sender timestamp t amount) ∨
    ∃ op signer amount, e = .reserve op signer amount ∧ tenantOf op = t ∧
      signersIn s.isSigner older signer = true ∧
      dep.tryRecover (sponsorshipDigest dep op) (attestationOf op) = some signer := by
  cases e with
  | call sender timestamp c => cases c <;> simp only [balanceIn] at h <;> omega
  | event ev => cases ev <;> simp only [balanceIn] at h <;> omega
  | debit sender timestamp tenant amount =>
    by_cases ht : tenant = t
    · exact .inl ⟨sender, timestamp, amount, by rw [ht]⟩
    · simp [balanceIn, ht] at h
  | reserve op signer amount =>
    by_cases ht : tenantOf op = t
    · exact .inr ⟨op, signer, amount, rfl, ht, ha.2, ha.1⟩
    · simp [balanceIn, ht] at h
  | forfeit op amount => simp [balanceIn] at h

end

/-- **Withdrawal authority.** In every run the storage is what the history
says, and for every entry of the history and every tenant: a withdrawal by
anyone but the owner was by the tenant's controller, and no earlier than the
delay after the claim that its control derives from; a controller was replaced
only by the owner or by itself; and the balance decreased only by a withdrawal,
or by an operation that names the tenant and that a signer authorised at the
time signed. -/
theorem withdrawal_authority {dep : Deployment} {s : State} {deposit : Nat} {ls : List Label} {c : Config}
    (signed : Address → Bytes32 → Prop)
    (unforgeable : ∀ digest signature signer,
      dep.tryRecover digest signature = some signer → signed signer digest)
    (hs : Deployed s) (h : Runs.run (step dep) (launch s deposit) ls = some c) (t : Bytes32) :
    (c.world.paymaster.owner = ownerIn s.owner c.world.journal ∧
      c.world.paymaster.isSigner = signersIn s.isSigner c.world.journal ∧
      c.world.paymaster.controllerOf t = controllerIn t c.world.journal ∧
      c.world.paymaster.balances t = balanceIn t c.world.journal) ∧
    ∀ newer e older, c.world.journal = newer ++ e :: older →
      (∀ sender timestamp amount, e = .debit sender timestamp t amount → sender ≠ ownerIn s.owner older →
        sender = controllerIn t older ∧
          ∀ claimed, claimedIn t older = some claimed → claimed + controllerClaimDelay ≤ timestamp) ∧
      (controllerIn t older ≠ 0 → controllerIn t (e :: older) ≠ controllerIn t older →
        ∃ sender timestamp controller,
          (e = .call sender timestamp (.setController t controller) ∧ sender = ownerIn s.owner older) ∨
          (e = .call sender timestamp (.transferController t controller) ∧ sender = controllerIn t older)) ∧
      (balanceIn t (e :: older) < balanceIn t older →
        (∃ sender timestamp amount, e = .debit sender timestamp t amount) ∨
        ∃ op signer amount, e = .reserve op signer amount ∧ tenantOf op = t ∧
          signersIn s.isSigner older signer = true ∧ signed signer (sponsorshipDigest dep op)) := by
  have hr := recorded_of_run hs h
  refine ⟨⟨hr.owner, hr.signers, hr.controller t, hr.balance t⟩, fun newer e older hj => ?_⟩
  have ha : e.Authorised dep s older := AllAuthorised.split (hj ▸ hr.authorised)
  refine ⟨fun sender timestamp amount he ho => ?_, fun h0 hne => ?_, fun hlt => ?_⟩
  · subst he
    exact ha ho
  · obtain ⟨controller, he⟩ := assigned_of_controllerIn_ne hne
    obtain ⟨sender, timestamp, hby⟩ := replaced_by ha h0 he
    exact ⟨sender, timestamp, controller, hby⟩
  · rcases spent_by ha hlt with hd | ⟨op, signer, amount, he, ht, hauth, hrec⟩
    · exact .inl hd
    · exact .inr ⟨op, signer, amount, he, ht, hauth, unforgeable _ _ _ hrec⟩

/-- A claim for tenant 7 at time 1000 whose control is handed over at once; the
new controller withdraws a day later. -/
def handedOverRun : List Label :=
  [.transaction 1000, .call 9 (.depositFor 7 100), .call 9 (.claimController 7 5 2000 []),
    .call 5 (.transferController 7 6), .withdrawFor 6 7 8 10, .returned,
    .transaction 87400, .withdrawFor 6 7 8 10, .returned, .returned]

def handedOverHistory : List Entry :=
  [.event (.controllerSet 7 6), .call 5 1000 (.transferController 7 6),
    .event (.controllerClaimed 7 5 87400), .call 9 1000 (.claimController 7 5 2000 []),
    .event (.tenantDeposited 7 9 100 100), .call 9 1000 (.depositFor 7 100)]

/-- Only the second withdrawal of the run succeeds. -/
theorem withdrawal_authority_handedOver :
    ∃ c, Runs.run (step sampleDeployment) (launch sampleState 0) handedOverRun = some c ∧
      c.world.journal =
        .event (.tenantWithdrawn 7 8 10 90) :: .debit 6 87400 7 10 :: handedOverHistory ∧
      6 = controllerIn 7 handedOverHistory ∧ claimedIn 7 handedOverHistory = some 1000 ∧
      1000 + controllerClaimDelay ≤ 87400 := by
  have hrun : (Runs.run (step sampleDeployment) (launch sampleState 0) handedOverRun).map
      (fun c => c.world.journal) =
        some (.event (.tenantWithdrawn 7 8 10 90) :: .debit 6 87400 7 10 :: handedOverHistory) := by
    decide +kernel
  obtain ⟨c, hc, hj⟩ := Option.map_eq_some_iff.mp hrun
  have hauth := withdrawal_authority (fun signer _ => signer = 2)
    (fun _ _ _ h => (Option.some.inj h).symm) sampleState_deployed hc 7
  obtain ⟨hwithdraw, -, -⟩ := hauth.2 [_] _ _ hj
  obtain ⟨hcontroller, hdelay⟩ := hwithdraw 6 87400 10 rfl (by decide)
  exact ⟨c, hc, hj, hcontroller, by decide, hdelay 1000 (by decide)⟩

end Paymaster
