import Paymaster.Contracts.Solvency

/-!
# Settlement under EntryPoint v0.7.0

What the pinned EntryPoint takes for one operation, against what the contract
charges the tenant for it. The EntryPoint measures the post-op only after it
ran, and adds a tenth of the unused part of the call and post-op gas limits.
The charge stands in for both with the whole post-op gas limit, and covers the
settlement exactly when post-op gas and penalty fit into that limit.
-/

namespace Paymaster

/-! ## The operation's gas fields -/

def verificationGasLimitOf (op : PackedUserOperation) : Nat := (op.accountGasLimits >>> 128).toNat

def callGasLimitOf (op : PackedUserOperation) : Nat := (op.accountGasLimits.truncate 128).toNat

def maxPriorityFeePerGasOf (op : PackedUserOperation) : Nat := (op.gasFees >>> 128).toNat

def maxFeePerGasOf (op : PackedUserOperation) : Nat := (op.gasFees.truncate 128).toNat

def paymasterVerificationGasLimitOf (op : PackedUserOperation) : Nat := Bytes.wordAt op.paymasterAndData 20 36

/-- `_getRequiredPrefund`. The EntryPoint bounds every field below `2^120`
(`AA94`), so neither this nor the arithmetic of settlement wraps. -/
def requiredPrefund (op : PackedUserOperation) : Nat :=
  (verificationGasLimitOf op + callGasLimitOf op + paymasterVerificationGasLimitOf op + postOpGasLimitOf op +
    op.preVerificationGas.toNat) * maxFeePerGasOf op

def gasPrice (op : PackedUserOperation) (basefee : Nat) : Nat :=
  if maxFeePerGasOf op = maxPriorityFeePerGasOf op then maxFeePerGasOf op
  else min (maxFeePerGasOf op) (maxPriorityFeePerGasOf op + basefee)

/-! ## Settlement -/

/-- What the EntryPoint measures while it runs an operation: the gas of
verification, of `innerHandleOp` up to the post-op, and of the post-op. -/
structure Measured where
  verificationGas : Nat
  executionGas : Nat
  postOpGas : Nat
  basefee : Nat
deriving DecidableEq

def Measured.gasBeforePostOp (m : Measured) (op : PackedUserOperation) : Nat :=
  m.verificationGas + op.preVerificationGas.toNat + m.executionGas

def Measured.reportedCost (m : Measured) (op : PackedUserOperation) : Nat :=
  m.gasBeforePostOp op * gasPrice op m.basefee

/-- Ten per cent of the part of the execution gas limits that was not used. -/
def Measured.unusedGasPenalty (m : Measured) (op : PackedUserOperation) : Nat :=
  let executionGasLimit := callGasLimitOf op + postOpGasLimitOf op
  let executionGasUsed := m.executionGas + m.postOpGas
  if executionGasUsed < executionGasLimit then (executionGasLimit - executionGasUsed) * 10 / 100 else 0

/-- What leaves the paymaster's deposit for the operation. -/
def Measured.settlement (m : Measured) (op : PackedUserOperation) : Nat :=
  min (requiredPrefund op)
    ((m.gasBeforePostOp op + m.postOpGas + m.unusedGasPenalty op) * gasPrice op m.basefee)

/-- Capped charge against capped settlement, cleared of the reported cost. -/
theorem min_le_min_iff {prefund cost limit used price : Nat} :
    min prefund (cost + used * price) ≤ min prefund (cost + limit * price) ↔
      prefund ≤ cost + limit * price ∨ price = 0 ∨ used ≤ limit := by
  constructor
  · intro h
    by_cases hp : prefund ≤ cost + limit * price
    · exact .inl hp
    · have hle : used * price ≤ limit * price := by omega
      rcases Nat.eq_zero_or_pos price with h0 | h0
      · exact .inr (.inl h0)
      · exact .inr (.inr (Nat.le_of_mul_le_mul_right hle h0))
  · rintro (h | rfl | h)
    · omega
    · simp
    · have := Nat.mul_le_mul_right price h
      omega

section
variable {dep : Deployment} {s s₁ s₂ s₃ : State} {op : PackedUserOperation} {context : Context}
  {signer : Address} {validUntil validAfter : Uint48} {m : Measured} {events : List Event}

/-- An operation is validated in storage `s` and its post-op runs in storage
`s₂`, whatever happened in between. Its tenant's balance falls by at least
what leaves the deposit if and only if the charge is the whole prefund, or gas
is free, or the post-op's gas and the penalty together fit into the post-op
gas limit. -/
theorem charge_covers_settlement_iff
    (hv : validatePaymasterUserOp dep s op (requiredPrefund op) =
      .ok (.accepted s₁ context signer validUntil validAfter))
    (hp : postOp s₂ context (m.reportedCost op) (gasPrice op m.basefee) = .ok (s₃, events)) :
    ((m.settlement op : Int) ≤
        (s.balances (tenantOf op) - s₁.balances (tenantOf op)) -
          (s₃.balances (tenantOf op) - s₂.balances (tenantOf op))) ↔
      requiredPrefund op ≤ m.reportedCost op + postOpGasLimitOf op * gasPrice op m.basefee ∨
        gasPrice op m.basefee = 0 ∨ m.postOpGas + m.unusedGasPenalty op ≤ postOpGasLimitOf op := by
  have hctx := World.carried_of_accepted hv
  obtain ⟨-, -, hle, rfl⟩ := validatePaymasterUserOp_ok hv
  obtain ⟨charge, hcharge, rfl, -⟩ := postOp_ok hp
  subst hctx
  simp only at hcharge
  have hfall : (s.balances (tenantOf op) : Int) - (s.balances (tenantOf op) - requiredPrefund op : Nat) -
      ((s₂.balances (tenantOf op) + (requiredPrefund op - charge) : Nat) - s₂.balances (tenantOf op)) = charge := by
    omega
  have hset : m.settlement op =
      min (requiredPrefund op) (m.reportedCost op +
        (m.postOpGas + m.unusedGasPenalty op) * gasPrice op m.basefee) := by
    rw [Measured.settlement, Measured.reportedCost, Nat.add_assoc, Nat.add_mul]
  simp only [State.withBalance, Function.update_self, hfall, Int.ofNat_le]
  rw [hset, hcharge]
  exact min_le_min_iff

end

/-- An operation at 1 gwei whose call may use two million gas. -/
def meteredOp : PackedUserOperation :=
  { sampleOp with
    accountGasLimits := BitVec.ofNat 256 (300000 * 2 ^ 128 + 2000000)
    preVerificationGas := 50000
    gasFees := BitVec.ofNat 256 (1000000000 * 2 ^ 128 + 1000000000)
    paymasterAndData := Bytes.beBytes 20 1 ++ Bytes.beBytes 16 200000 ++ Bytes.beBytes 16 40000 ++
      Bytes.beBytes 12 0 ++ Bytes.beBytes 32 7 ++ List.replicate 65 0 }

def meteredGas : Measured := ⟨100000, 30000, 15000, 0⟩

def fundedState : State := sampleState.withBalance 7 (10 ^ 18) (10 ^ 18)

theorem meteredOp_accepted : validatePaymasterUserOp sampleDeployment fundedState meteredOp
    (requiredPrefund meteredOp) = .ok (.accepted
      (fundedState.withBalance (tenantOf meteredOp)
        (fundedState.balances (tenantOf meteredOp) - requiredPrefund meteredOp)
        (uncheckedSub fundedState.totalTenantBalance (requiredPrefund meteredOp)))
      ⟨tenantOf meteredOp, requiredPrefund meteredOp, postOpGasLimitOf meteredOp⟩ 2
      (BitVec.ofNat 48 (Bytes.wordAt meteredOp.paymasterAndData 52 58))
      (BitVec.ofNat 48 (Bytes.wordAt meteredOp.paymasterAndData 58 64))) :=
  validatePaymasterUserOp_accepts rfl (by decide +kernel) (by decide +kernel) rfl (by decide +kernel)

theorem meteredOp_settled (s : State) (hb : s.balances (tenantOf meteredOp) + 10 ^ 18 < uint256Size)
    (ht : s.totalTenantBalance + 10 ^ 18 < uint256Size) :
    postOp s ⟨tenantOf meteredOp, requiredPrefund meteredOp, postOpGasLimitOf meteredOp⟩
      (meteredGas.reportedCost meteredOp) (gasPrice meteredOp meteredGas.basefee) =
      .ok (s.withBalance (tenantOf meteredOp) (s.balances (tenantOf meteredOp) + 2370000 * 10 ^ 9)
        (s.totalTenantBalance + 2370000 * 10 ^ 9),
      [.tenantCharged (tenantOf meteredOp) (requiredPrefund meteredOp) (220000 * 10 ^ 9)
        (s.balances (tenantOf meteredOp) + 2370000 * 10 ^ 9)]) := by
  have hp : requiredPrefund meteredOp - 220000 * 10 ^ 9 = 2370000 * 10 ^ 9 := by decide +kernel
  rw [← hp]
  refine postOp_settles ?_ ?_ ?_ ?_
  · decide +kernel
  · decide +kernel
  · simp only [hp]; omega
  · simp only [hp]; omega

/-- The penalty for the unused call gas is five times the post-op gas limit:
the tenant is charged 220,000 gwei, the EntryPoint takes 394,500. -/
theorem meteredOp_undercharged : ∃ s₁ context vu va s₂ events,
    validatePaymasterUserOp sampleDeployment fundedState meteredOp (requiredPrefund meteredOp) =
      .ok (.accepted s₁ context 2 vu va) ∧
    postOp s₁ context (meteredGas.reportedCost meteredOp) (gasPrice meteredOp meteredGas.basefee) =
      .ok (s₂, events) ∧
    meteredGas.postOpGas ≤ postOpGasLimitOf meteredOp ∧
    fundedState.balances (tenantOf meteredOp) - s₂.balances (tenantOf meteredOp) = 220000 * 10 ^ 9 ∧
    meteredGas.settlement meteredOp = 394500 * 10 ^ 9 := by
  refine ⟨_, _, _, _, _, _, meteredOp_accepted, meteredOp_settled _ ?_ ?_, ?_, ?_, ?_⟩ <;> decide +kernel

theorem charge_covers_settlement_meteredOp : ∃ s₁ context vu va s₂ events,
    validatePaymasterUserOp sampleDeployment fundedState meteredOp (requiredPrefund meteredOp) =
      .ok (.accepted s₁ context 2 vu va) ∧
    postOp s₁ context (meteredGas.reportedCost meteredOp) (gasPrice meteredOp meteredGas.basefee) =
      .ok (s₂, events) ∧
    (((meteredGas.settlement meteredOp : Int) ≤
        (fundedState.balances (tenantOf meteredOp) - s₁.balances (tenantOf meteredOp)) -
          (s₂.balances (tenantOf meteredOp) - s₁.balances (tenantOf meteredOp))) ↔
      requiredPrefund meteredOp ≤ meteredGas.reportedCost meteredOp +
          postOpGasLimitOf meteredOp * gasPrice meteredOp meteredGas.basefee ∨
        gasPrice meteredOp meteredGas.basefee = 0 ∨
        meteredGas.postOpGas + meteredGas.unusedGasPenalty meteredOp ≤ postOpGasLimitOf meteredOp) := by
  have hp := meteredOp_settled (fundedState.withBalance (tenantOf meteredOp)
    (fundedState.balances (tenantOf meteredOp) - requiredPrefund meteredOp)
    (uncheckedSub fundedState.totalTenantBalance (requiredPrefund meteredOp)))
    (by decide +kernel) (by decide +kernel)
  exact ⟨_, _, _, _, _, _, meteredOp_accepted, hp, charge_covers_settlement_iff meteredOp_accepted hp⟩

end Paymaster
