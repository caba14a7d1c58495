import Paymaster.Contracts.Ledger
import Paymaster.Lib.Tally

/-!
# Solvency

The tenants are never owed more than the EntryPoint holds. Every transition
moves the total of the balances and the deposit together: what goes out of the
deposit goes out of a balance, and what settlement returns to the tenant is no
more than what the EntryPoint returns to the deposit, since the charge is the
most that the EntryPoint may keep. The statement holds wherever outside code
runs, with any number of reservations and withdrawals in flight.
-/

namespace Paymaster

open CallStack Tally Function

/-- The running total is the sum of the balances, and the deposit covers it. -/
structure Solvent (w : World) : Prop where
  total : SumsTo w.paymaster.balances w.paymaster.totalTenantBalance
  covered : w.paymaster.totalTenantBalance ≤ w.deposit

section
variable {dep : Deployment} {w w' : World} {sender : Address}

theorem Solvent.call {c : Call} (hs : Solvent w) (h : w.call dep sender c = .ok w') : Solvent w' := by
  obtain ⟨s, events, hcall, rfl⟩ := World.call_ok h
  by_cases hc : ∃ tenant value, c = .depositFor tenant value
  · obtain ⟨tenant, value, rfl⟩ := hc
    obtain ⟨-, rfl, -⟩ := depositFor_ok hcall
    exact ⟨hs.total.credit tenant value, Nat.add_le_add_right hs.covered value⟩
  · obtain ⟨hbal, htot, hv, -⟩ := call_money hcall fun tenant value e => hc ⟨tenant, value, e⟩
    refine ⟨?_, ?_⟩
    · simp only [hbal, htot]; exact hs.total
    · simp only [htot, hv]; exact hs.covered

theorem Solvent.debit {tenant : Bytes32} {amount : Nat} (hs : Solvent w)
    (hle : amount ≤ w.paymaster.balances tenant) (j : List Entry) :
    Solvent { w with
      paymaster := w.paymaster.withBalance tenant (w.paymaster.balances tenant - amount)
        (uncheckedSub w.paymaster.totalTenantBalance amount)
      deposit := w.deposit - amount
      journal := j } := by
  have htot := Nat.le_trans hle (hs.total.le tenant)
  simp only [uncheckedSub_of_le htot]
  exact ⟨hs.total.debit tenant hle, Nat.sub_le_sub_right hs.covered amount⟩

theorem Solvent.withdrawFor {tenant : Bytes32} {receiver : Address} {amount : Nat} (hs : Solvent w)
    (h : w.withdrawFor sender tenant receiver amount = .ok w') : Solvent w' := by
  obtain ⟨s, hd, -, rfl⟩ := World.withdrawFor_ok h
  obtain ⟨-, hle, rfl⟩ := withdrawForDebit_ok hd
  exact hs.debit hle _

theorem Solvent.validate {op : PackedUserOperation} {maxCost : Nat} {info : OpInfo} (hs : Solvent w)
    (h : w.validate dep op maxCost = some (w', info)) : Solvent w' := by
  rcases World.validate_some h with ⟨-, rfl⟩ | ⟨s, context, signer, vu, va, hv, -, -, -, -, rfl⟩
  · exact hs
  · obtain ⟨-, -, hle, rfl⟩ := validatePaymasterUserOp_ok hv
    exact hs.debit hle _

theorem Solvent.charge {info : OpInfo} {cost fee kept : Nat} (hs : Solvent w)
    (h : w.charge info cost fee kept = some w') : Solvent w' := by
  rcases World.charge_some h with ⟨-, rfl⟩ | ⟨context, s, events, hctx, hp, hk, rfl⟩
  · exact hs
  · obtain ⟨charge, hcharge, rfl, -⟩ := postOp_ok hp
    have hcar := info.carried context hctx
    -- The context carries the prefund and the gas limit, so the charge is the EntryPoint's bound.
    have hle : info.prefund - charge ≤ info.prefund - kept := by
      rw [hcharge, hcar]
      exact Nat.sub_le_sub_left hk _
    have hres : context.reserved = info.prefund := by rw [hcar]
    refine ⟨hs.total.credit context.tenant _, ?_⟩
    simp only [State.withBalance, hres]
    exact Nat.add_le_add hs.covered hle

theorem Solvent.forfeit {info : OpInfo} {kept : Nat} (hs : Solvent w) (h : w.forfeit info kept = some w') :
    Solvent w' := by
  rcases World.forfeit_some h with ⟨-, rfl⟩ | ⟨context, -, -, rfl⟩
  · exact hs
  · exact ⟨hs.total, Nat.le_trans hs.covered (Nat.le_add_right _ _)⟩

def Label.isWithdrawTo : Label → Bool
  | .withdrawTo .. => true
  | _ => false

theorem solvent_step {c c' : Config} {l : Label} (h : Step dep c l c') (hl : l.isWithdrawTo = false)
    (hs : Everywhere Solvent c.world c.stack) : Everywhere Solvent c'.world c'.stack := by
  cases h with
  | transaction w t =>
    have hw : Solvent { w with timestamp := t } := ⟨hs.1.total, hs.1.covered⟩
    exact ⟨hw, by simpa using hw⟩
  | enter w fs => exact hs.push hs.1
  | refused => exact hs
  | call fs hc => exact hs.stay (hs.1.call hc)
  | depositTo fs hd =>
    rw [World.depositTo_ok hd]
    exact hs.stay ⟨hs.1.total, Nat.le_trans hs.1.covered (Nat.le_add_right _ _)⟩
  | withdrawFor fs hw => exact hs.push (hs.1.withdrawFor hw)
  | withdrawTo fs hw => cases hl
  | handleOps w fs => exact hs.push hs.1
  | validate fs hv => exact hs.switch (hs.1.validate hv)
  | execute w saved fs infos => exact hs.switch hs.1
  | start w saved fs info queue => exact hs.push hs.1
  | @charge w w' began saved fs info queue reverted cost fee kept hc =>
    refine (hs.pop (Solvent.charge ?_ hc)).switch (Solvent.charge ?_ hc) <;>
      cases reverted with
      | true => exact hs.saved
      | false => exact hs.1
  | forfeit fs hf => exact (hs.pop (hs.saved.forfeit hf)).switch (hs.saved.forfeit hf)
  | returned w saved fs hk => exact hs.pop hs.1
  | withdrawn w saved fs tenant receiver amount => exact hs.pop ⟨hs.1.total, hs.1.covered⟩
  | reverted w f fs => exact hs.pop hs.saved
  | aborted w began f fs => exact (hs.pop hs.saved).pop (hs.pop hs.saved).saved

end

theorem solvent_deployed {s : State} (h : Deployed s) (deposit : Nat) :
    Everywhere Solvent (launch s deposit).world (launch s deposit).stack := by
  have hf := fresh_of_deployed h
  refine ⟨⟨?_, ?_⟩, by simp [launch]⟩
  · simp only [launch, hf.balances, hf.totalTenantBalance]; exact sumsTo_zero
  · simp only [launch, hf.totalTenantBalance]; exact Nat.zero_le _

/-- **Solvency.** In every run without the owner's `withdrawTo`, at every point
where outside code runs and between transactions: the running total is the sum
of all balances, the deposit covers it, and no tenant holds more than its
events say was deposited for it less what was withdrawn. -/
theorem solvent_of_run {dep : Deployment} {s : State} {deposit : Nat} {ls : List Label} {c : Config}
    (hs : Deployed s) (hls : ∀ l ∈ ls, l.isWithdrawTo = false)
    (h : Runs.run (step dep) (launch s deposit) ls = some c) :
    SumsTo c.world.paymaster.balances c.world.paymaster.totalTenantBalance ∧
      c.world.paymaster.totalTenantBalance ≤ c.world.deposit ∧
      ∀ t, (c.world.paymaster.balances t : Int) ≤
        movedBy .deposit t c.world.journal + movedBy .withdrawal t c.world.journal := by
  have hsol : Everywhere Solvent c.world c.stack :=
    Runs.invariant_on (P := fun c => Everywhere Solvent c.world c.stack) (C := fun l => l.isWithdrawTo = false)
      (fun hs hl hstep => solvent_step (step_cases hstep) hl hs) (solvent_deployed hs deposit) hls h
  refine ⟨hsol.1.total, hsol.1.covered, fun t => ?_⟩
  have hb : Balanced t c.world (c.stack.map Frame.kind) := (books_of_run hs h t).1.top
  have hle := replayed_le t c.world.journal
  unfold Balanced at hb
  omega

/-! ## A concrete deployment -/

def sampleDeployment : Deployment where
  keccak256 _ := 0
  tryRecover _ _ := some 2
  chainId := 1
  self := 1

def sampleState : State := { addSigner' (blank 3) 2 with owner := 3, pendingOwner := 0 }

def sampleOp : PackedUserOperation where
  sender := 4
  nonce := 0
  initCode := []
  callData := []
  accountGasLimits := 0
  preVerificationGas := 0
  gasFees := 0
  paymasterAndData := Bytes.beBytes 20 1 ++ Bytes.beBytes 16 0 ++ Bytes.beBytes 16 5 ++ Bytes.beBytes 12 0 ++
    Bytes.beBytes 32 7 ++ List.replicate 65 0
  signature := []

theorem sampleState_deployed : Deployed sampleState := ⟨3, 3, 2, rfl⟩

/-- A deposit; then a bundle of two operations of one tenant, whose executions
withdraw and fail; the first is settled, the second's post-op reverts. -/
def sampleRun : List Label :=
  [.transaction 0, .call 9 (.depositFor 7 100), .returned,
    .transaction 1, .handleOps, .validate sampleOp 20, .validate sampleOp 30, .execute,
    .start, .withdrawFor 3 7 6 10, .call 6 (.depositFor 7 1), .returned, .settle false (.ran 3 1 7),
    .start, .settle true (.postOpReverted 30), .returned, .returned]

theorem solvent_sampleRun : ∃ c, Runs.run (step sampleDeployment) (launch sampleState 0) sampleRun = some c ∧
    SumsTo c.world.paymaster.balances c.world.paymaster.totalTenantBalance ∧
      c.world.paymaster.totalTenantBalance ≤ c.world.deposit ∧
      ∀ t, (c.world.paymaster.balances t : Int) ≤
        movedBy .deposit t c.world.journal + movedBy .withdrawal t c.world.journal := by
  have hrun : (Runs.run (step sampleDeployment) (launch sampleState 0) sampleRun).isSome = true := by
    decide +kernel
  obtain ⟨c, hc⟩ := Option.isSome_iff_exists.mp hrun
  exact ⟨c, hc, solvent_of_run sampleState_deployed (by decide) hc⟩

end Paymaster
