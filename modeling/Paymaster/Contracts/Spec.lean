import Paymaster.Contracts.EntryPoint

/-!
# What a successful call does

One inversion lemma for each function of the contract and each transition of
the world, and `step_cases`, which says once what a step of the machine can
do. Everything later is proved from these; no definition is unfolded again.
-/

namespace Paymaster

open Function CallStack

variable {dep : Deployment} {s s' : State} {sender : Address} {tenant : Bytes32} {events : List Event}

/-! ## The contract's functions -/

structure Fresh (s : State) : Prop where
  balances : s.balances = fun _ => 0
  totalTenantBalance : s.totalTenantBalance = 0
  controllerOf : s.controllerOf = fun _ => 0
  controllerNonce : s.controllerNonce = fun _ => 0
  controllerActiveAt : s.controllerActiveAt = fun _ => 0

theorem fresh_of_deployed (h : Deployed s) : Fresh s := by
  obtain ⟨deployer, owner, signer, h⟩ := h
  unfold constructor at h
  split at h
  · cases h
  split at h
  · cases h
  cases h
  exact ⟨rfl, rfl, rfl, rfl, rfl⟩

def State.withBalance (s : State) (tenant : Bytes32) (balance total : Nat) : State :=
  { s with balances := update s.balances tenant balance, totalTenantBalance := total }

theorem withBalance_self (s : State) (tenant : Bytes32) :
    s.withBalance tenant (s.balances tenant) s.totalTenantBalance = s := by
  simp only [State.withBalance, update_eq_self]

theorem depositFor_ok {value : Nat} (h : depositFor s sender tenant value = .ok (s', events)) :
    tenant ≠ 0 ∧ s' = s.withBalance tenant (s.balances tenant + value) (s.totalTenantBalance + value) ∧
      events = [.tenantDeposited tenant sender value (s.balances tenant + value)] := by
  unfold depositFor at h
  split at h
  · cases h
  · rename_i ht
    obtain ⟨balance, hb, h⟩ := bind_ok h
    obtain ⟨total, htot, h⟩ := bind_ok h
    cases checkedAdd_ok hb
    cases checkedAdd_ok htot
    cases h
    exact ⟨ht, rfl, by simp only [update_self]⟩

theorem setController_ok {controller : Address}
    (h : setController s sender tenant controller = .ok (s', events)) :
    sender = s.owner ∧ tenant ≠ 0 ∧ s' = assignController s tenant controller 0 ∧
      events = [.controllerSet tenant controller] := by
  unfold setController at h
  split at h
  · cases h
  split at h
  · cases h
  · rename_i ho ht
    cases h
    exact ⟨not_not.mp ho, ht, rfl, rfl⟩

theorem transferController_ok {controller : Address}
    (h : transferController s sender tenant controller = .ok (s', events)) :
    sender = s.controllerOf tenant ∧ sender ≠ 0 ∧ controller ≠ 0 ∧
      s' = assignController s tenant controller (s.controllerActiveAt tenant) ∧
      events = [.controllerSet tenant controller] := by
  unfold transferController at h
  split at h
  · cases h
  split at h
  · cases h
  · rename_i hs hc
    cases h
    obtain ⟨h1, h2⟩ := not_or.mp hs
    exact ⟨not_not.mp h1, h2, hc, rfl, rfl⟩

theorem claimController_ok {timestamp : Nat} {controller : Address} {deadline : Uint48} {signature : Data}
    (h : claimController dep s timestamp tenant controller deadline signature = .ok (s', events)) :
    tenant ≠ 0 ∧ controller ≠ 0 ∧ s.controllerOf tenant = 0 ∧ timestamp ≤ deadline.toNat ∧
      (∃ signer, recoverSigner dep s
        (controllerAssignmentHash dep tenant controller (s.controllerNonce tenant) deadline) signature =
          some signer) ∧
      s' = assignController s tenant controller (timestamp + controllerClaimDelay) ∧
      events = [.controllerClaimed tenant controller (timestamp + controllerClaimDelay)] := by
  unfold claimController at h
  split at h
  · cases h
  split at h
  · cases h
  split at h
  · cases h
  split at h
  · cases h
  split at h
  · cases h
  · rename_i ht hc h0 hd _ signer hr
    obtain ⟨activeAt, ha, h⟩ := bind_ok h
    cases checkedAdd_ok ha
    cases h
    exact ⟨ht, hc, not_not.mp h0, Nat.le_of_not_lt hd, ⟨signer, hr⟩, rfl, rfl⟩

theorem withdrawForDebit_ok {timestamp amount : Nat} {receiver : Address}
    (h : withdrawForDebit s timestamp sender tenant receiver amount = .ok s') :
    (sender ≠ s.owner → sender = s.controllerOf tenant ∧ s.controllerActiveAt tenant ≤ timestamp) ∧
      amount ≤ s.balances tenant ∧
      s' = s.withBalance tenant (s.balances tenant - amount) (uncheckedSub s.totalTenantBalance amount) := by
  unfold withdrawForDebit at h
  split at h
  · cases h
  split at h
  · cases h
  split at h
  · cases h
  split at h
  · cases h
  split at h
  · cases h
  · rename_i hc ha _ _ hb
    cases h
    refine ⟨fun ho => ⟨?_, ?_⟩, Nat.le_of_not_lt hb, rfl⟩
    · exact not_not.mp fun hne => hc ⟨ho, hne⟩
    · exact Nat.le_of_not_lt fun hlt => ha ⟨ho, hlt⟩

def sponsorshipDigest (dep : Deployment) (op : PackedUserOperation) : Bytes32 :=
  getHash dep op (tenantOf op) (BitVec.ofNat 48 (Bytes.wordAt op.paymasterAndData 52 58))
    (BitVec.ofNat 48 (Bytes.wordAt op.paymasterAndData 58 64))

def attestationOf (op : PackedUserOperation) : Data := op.paymasterAndData.drop 96

/-- Everything that an accepting validation has checked and returns. -/
theorem validatePaymasterUserOp_accepted {op : PackedUserOperation} {maxCost : Nat} {context : Context}
    {signer : Address} {validUntil validAfter : Uint48}
    (h : validatePaymasterUserOp dep s op maxCost = .ok (.accepted s' context signer validUntil validAfter)) :
    s.paused = false ∧ 96 ≤ op.paymasterAndData.length ∧
      ((attestationOf op).length = 64 ∨ (attestationOf op).length = 65) ∧
      recoverSigner dep s (sponsorshipDigest dep op) (attestationOf op) = some signer ∧
      maxCost ≤ s.balances (tenantOf op) ∧
      s' = s.withBalance (tenantOf op) (s.balances (tenantOf op) - maxCost)
        (uncheckedSub s.totalTenantBalance maxCost) ∧
      context = ⟨tenantOf op, maxCost, postOpGasLimitOf op⟩ ∧
      validUntil = BitVec.ofNat 48 (Bytes.wordAt op.paymasterAndData 52 58) ∧
      validAfter = BitVec.ofNat 48 (Bytes.wordAt op.paymasterAndData 58 64) := by
  unfold validatePaymasterUserOp at h
  split at h
  · cases h
  rename_i hp
  obtain ⟨⟨vu, va, t, sig⟩, hparse, h⟩ := bind_ok h
  unfold parsePaymasterAndData at hparse
  split at hparse
  · cases hparse
  rename_i hlength
  cases hparse
  simp only at h
  split at h
  · cases h
  rename_i hsig
  split at h
  · cases h
  rename_i hr
  split at h
  · cases h
  rename_i hb
  cases h
  have hsig' : (attestationOf op).length = 64 ∨ (attestationOf op).length = 65 := by
    unfold attestationOf
    omega
  exact ⟨by simpa using hp, Nat.le_of_not_lt hlength, hsig', hr, Nat.le_of_not_lt hb, rfl, rfl, rfl, rfl⟩

theorem validatePaymasterUserOp_ok {op : PackedUserOperation} {maxCost : Nat} {context : Context}
    {signer : Address} {validUntil validAfter : Uint48}
    (h : validatePaymasterUserOp dep s op maxCost = .ok (.accepted s' context signer validUntil validAfter)) :
    s.paused = false ∧ recoverSigner dep s (sponsorshipDigest dep op) (attestationOf op) = some signer ∧
      maxCost ≤ s.balances (tenantOf op) ∧
      s' = s.withBalance (tenantOf op) (s.balances (tenantOf op) - maxCost)
        (uncheckedSub s.totalTenantBalance maxCost) := by
  obtain ⟨hp, -, -, hr, hb, hs, -⟩ := validatePaymasterUserOp_accepted h
  exact ⟨hp, hr, hb, hs⟩

theorem validatePaymasterUserOp_window {op : PackedUserOperation} {maxCost : Nat} {context : Context}
    {signer : Address} {validUntil validAfter : Uint48}
    (h : validatePaymasterUserOp dep s op maxCost = .ok (.accepted s' context signer validUntil validAfter)) :
    96 ≤ op.paymasterAndData.length ∧ validUntil = BitVec.ofNat 48 (Bytes.wordAt op.paymasterAndData 52 58) ∧
      validAfter = BitVec.ofNat 48 (Bytes.wordAt op.paymasterAndData 58 64) := by
  obtain ⟨-, hlength, -, -, -, -, -, huntil, hafter⟩ := validatePaymasterUserOp_accepted h
  exact ⟨hlength, huntil, hafter⟩

/-- The conditions under which validation reserves. -/
theorem validatePaymasterUserOp_accepts {op : PackedUserOperation} {maxCost : Nat} {signer : Address}
    (hp : s.paused = false) (hl : 96 ≤ op.paymasterAndData.length)
    (hsig : (attestationOf op).length = 64 ∨ (attestationOf op).length = 65)
    (hr : recoverSigner dep s (sponsorshipDigest dep op) (attestationOf op) = some signer)
    (hb : maxCost ≤ s.balances (tenantOf op)) :
    validatePaymasterUserOp dep s op maxCost = .ok (.accepted
      (s.withBalance (tenantOf op) (s.balances (tenantOf op) - maxCost)
        (uncheckedSub s.totalTenantBalance maxCost))
      ⟨tenantOf op, maxCost, postOpGasLimitOf op⟩ signer
      (BitVec.ofNat 48 (Bytes.wordAt op.paymasterAndData 52 58))
      (BitVec.ofNat 48 (Bytes.wordAt op.paymasterAndData 58 64))) := by
  have hparse : parsePaymasterAndData op.paymasterAndData =
      .ok (BitVec.ofNat 48 (Bytes.wordAt op.paymasterAndData 52 58),
        BitVec.ofNat 48 (Bytes.wordAt op.paymasterAndData 58 64), tenantOf op, attestationOf op) :=
    if_neg (Nat.not_lt.mpr hl)
  have hlen : ¬ ((attestationOf op).length ≠ 64 ∧ (attestationOf op).length ≠ 65) := by omega
  have hr' : recoverSigner dep s (getHash dep op (tenantOf op)
      (BitVec.ofNat 48 (Bytes.wordAt op.paymasterAndData 52 58))
      (BitVec.ofNat 48 (Bytes.wordAt op.paymasterAndData 58 64))) (attestationOf op) = some signer := hr
  simp only [validatePaymasterUserOp, hp, Bool.false_eq_true, ite_false, hparse, bind, Except.bind, hlen, hr',
    Nat.not_lt.mpr hb, State.withBalance]

theorem recoverSigner_some {digest : Bytes32} {signature : Data} {signer : Address}
    (h : recoverSigner dep s digest signature = some signer) :
    dep.tryRecover digest signature = some signer ∧ s.isSigner signer = true :=
  Option.filter_eq_some_iff.mp h

theorem chargeFor_ok {context : Context} {cost fee charge : Nat} (h : chargeFor context cost fee = .ok charge) :
    charge = min context.reserved (cost + context.postOpGasLimit * fee) := by
  obtain ⟨p, hp, h⟩ := bind_ok h
  obtain ⟨c, hc, h⟩ := bind_ok h
  cases checkedMul_ok hp
  cases checkedAdd_ok hc
  cases h
  split <;> omega

theorem postOp_ok {context : Context} {cost fee : Nat} (h : postOp s context cost fee = .ok (s', events)) :
    ∃ charge, charge = min context.reserved (cost + context.postOpGasLimit * fee) ∧
      s' = s.withBalance context.tenant (s.balances context.tenant + (context.reserved - charge))
        (s.totalTenantBalance + (context.reserved - charge)) ∧
      events = [.tenantCharged context.tenant context.reserved charge
        (s.balances context.tenant + (context.reserved - charge))] := by
  obtain ⟨charge, hc, h⟩ := bind_ok h
  refine ⟨charge, chargeFor_ok hc, ?_⟩
  simp only at h
  split at h
  · obtain ⟨balance, hb, h⟩ := bind_ok h
    obtain ⟨total, ht, h⟩ := bind_ok h
    cases checkedAdd_ok hb
    cases checkedAdd_ok ht
    cases h
    exact ⟨rfl, by simp only [update_self]⟩
  · rename_i hr
    cases h
    have h0 : context.reserved - charge = 0 := by omega
    simp only [h0, Nat.add_zero, withBalance_self, and_self]

theorem postOp_settles {context : Context} {cost fee charge : Nat}
    (hcharge : charge = min context.reserved (cost + context.postOpGasLimit * fee))
    (hc : cost + context.postOpGasLimit * fee < uint256Size)
    (hb : s.balances context.tenant + (context.reserved - charge) < uint256Size)
    (ht : s.totalTenantBalance + (context.reserved - charge) < uint256Size) :
    postOp s context cost fee =
      .ok (s.withBalance context.tenant (s.balances context.tenant + (context.reserved - charge))
        (s.totalTenantBalance + (context.reserved - charge)),
      [.tenantCharged context.tenant context.reserved charge
        (s.balances context.tenant + (context.reserved - charge))]) := by
  have hm : context.postOpGasLimit * fee < uint256Size := Nat.lt_of_le_of_lt (Nat.le_add_left _ _) hc
  have hch : chargeFor context cost fee = .ok charge := by
    simp only [chargeFor, checkedMul, checkedAdd, hm, hc, ite_true, bind, Except.bind]
    congr 1
    split <;> omega
  simp only [postOp, hch, bind, Except.bind]
  split
  · simp only [checkedAdd, hb, ht, ite_true, State.withBalance, update_self]
  · have h0 : context.reserved - charge = 0 := by omega
    simp only [h0, Nat.add_zero, withBalance_self]

def Event.report? : Event → Option (Bytes32 × Nat)
  | .tenantDeposited tenant _ _ balance => some (tenant, balance)
  | .tenantWithdrawn tenant _ _ balance => some (tenant, balance)
  | .tenantCharged tenant _ _ balance => some (tenant, balance)
  | _ => none

/-- Every call but a deposit leaves the money alone and emits no event about it. -/
theorem call_money {timestamp : Nat} {c : Call} (h : s.call dep timestamp sender c = .ok (s', events))
    (hc : ∀ t v, c ≠ .depositFor t v) :
    s'.balances = s.balances ∧ s'.totalTenantBalance = s.totalTenantBalance ∧ c.value = 0 ∧
      ∀ e ∈ events, e.report? = none := by
  cases c with
  | depositFor t v => exact absurd rfl (hc t v)
  | setController t a =>
    obtain ⟨-, -, rfl, rfl⟩ := setController_ok h
    simp [assignController, Call.value, Event.report?]
  | claimController t a d sig =>
    obtain ⟨-, -, -, -, -, rfl, rfl⟩ := claimController_ok h
    simp [assignController, Call.value, Event.report?]
  | transferController t a =>
    obtain ⟨-, -, -, rfl, rfl⟩ := transferController_ok h
    simp [assignController, Call.value, Event.report?]
  | addSigner a =>
    simp only [State.call, addSigner] at h
    split_ifs at h
    cases h
    simp [addSigner', Call.value, Event.report?]
  | removeSigner a =>
    simp only [State.call, removeSigner] at h
    split_ifs at h
    cases h
    simp [Call.value, Event.report?]
  | pause =>
    simp only [State.call, pause] at h
    split_ifs at h
    cases h
    simp [Call.value]
  | unpause =>
    simp only [State.call, unpause] at h
    split_ifs at h
    cases h
    simp [Call.value]
  | transferOwnership a =>
    simp only [State.call, transferOwnership] at h
    split_ifs at h
    cases h
    simp [Call.value]
  | acceptOwnership =>
    simp only [State.call, acceptOwnership] at h
    split_ifs at h
    cases h
    simp [Call.value]
  | renounceOwnership =>
    simp only [State.call, renounceOwnership] at h
    split_ifs at h
    cases h
    simp [Call.value]

/-! ## The world's transitions -/

variable {w w' : World}

theorem World.call_ok {c : Call} (h : w.call dep sender c = .ok w') :
    ∃ s events, w.paymaster.call dep w.timestamp sender c = .ok (s, events) ∧
      w' = { w with
        paymaster := s
        deposit := w.deposit + c.value
        journal := events.map Entry.event ++ .call sender w.timestamp c :: w.journal } := by
  obtain ⟨⟨s, events⟩, hs, h⟩ := bind_ok h
  obtain ⟨d, hd, h⟩ := bind_ok h
  cases checkedAdd_ok hd
  cases h
  exact ⟨s, events, hs, rfl⟩

theorem World.depositTo_ok {value : Nat} (h : w.depositTo value = .ok w') :
    w' = { w with deposit := w.deposit + value } := by
  obtain ⟨d, hd, h⟩ := bind_ok h
  cases checkedAdd_ok hd
  cases h
  rfl

theorem World.withdrawFor_ok {receiver : Address} {amount : Nat}
    (h : w.withdrawFor sender tenant receiver amount = .ok w') :
    ∃ s, withdrawForDebit w.paymaster w.timestamp sender tenant receiver amount = .ok s ∧
      amount ≤ w.deposit ∧
      w' = { w with
        paymaster := s
        deposit := w.deposit - amount
        journal := .debit sender w.timestamp tenant amount :: w.journal } := by
  obtain ⟨s, hs, h⟩ := bind_ok h
  split at h
  · cases h
  · rename_i hd
    cases h
    exact ⟨s, hs, Nat.le_of_not_lt hd, rfl⟩

theorem World.withdrawTo_ok {amount : Nat} (h : w.withdrawTo sender amount = .ok w') :
    sender = w.paymaster.owner ∧ w' = { w with deposit := w.deposit - amount } := by
  unfold World.withdrawTo at h
  split at h
  · cases h
  split at h
  · cases h
  · rename_i ho _
    cases h
    exact ⟨not_not.mp ho, rfl⟩

/-- Validation either has nothing to do with this paymaster, or reserves. -/
theorem World.validate_some {op : PackedUserOperation} {maxCost : Nat} {info : OpInfo}
    (h : w.validate dep op maxCost = some (w', info)) :
    (info.context = none ∧ w' = w) ∨
    ∃ s context signer vu va,
      validatePaymasterUserOp dep w.paymaster op maxCost = .ok (.accepted s context signer vu va) ∧
      info.op = op ∧ info.prefund = maxCost ∧ info.context = some context ∧ maxCost ≤ w.deposit ∧
      w' = { w with
        paymaster := s
        deposit := w.deposit - maxCost
        journal := .reserve op signer maxCost :: w.journal } := by
  unfold World.validate at h
  split at h
  · cases h
    exact .inl ⟨rfl, rfl⟩
  split at h
  · cases h
  rename_i hd
  split at h
  · rename_i s context signer vu va hv
    cases h
    exact .inr ⟨s, context, signer, vu, va, hv, rfl, rfl, rfl, Nat.le_of_not_lt hd, rfl⟩
  · cases h

theorem World.charge_some {info : OpInfo} {cost fee kept : Nat} (h : w.charge info cost fee kept = some w') :
    (info.context = none ∧ w' = w) ∨
    ∃ context s events, info.context = some context ∧
      postOp w.paymaster context cost fee = .ok (s, events) ∧
      kept ≤ min info.prefund (cost + postOpGasLimitOf info.op * fee) ∧
      w' = { w with
        paymaster := s
        deposit := w.deposit + (info.prefund - kept)
        journal := events.map Entry.event ++ w.journal } := by
  unfold World.charge at h
  split at h
  · rename_i hc
    cases h
    exact .inl ⟨hc, rfl⟩
  rename_i context hc
  split at h
  · cases h
  rename_i s events hp
  split at h
  · rename_i hk
    cases h
    exact .inr ⟨context, s, events, hc, hp, hk.1, rfl⟩
  · cases h

theorem World.forfeit_some {info : OpInfo} {kept : Nat} (h : w.forfeit info kept = some w') :
    (info.context = none ∧ w' = w) ∨
    ∃ context, info.context = some context ∧ kept ≤ info.prefund ∧
      w' = { w with
        deposit := w.deposit + (info.prefund - kept)
        journal := .forfeit info.op info.prefund :: w.journal } := by
  unfold World.forfeit at h
  split at h
  · rename_i hc
    cases h
    exact .inl ⟨hc, rfl⟩
  rename_i context hc
  split at h
  · rename_i hk
    cases h
    exact .inr ⟨context, hc, hk.1, rfl⟩
  · cases h

/-! ## The machine -/

inductive Step (dep : Deployment) : Config → Label → Config → Prop
  | transaction (w : World) (t : Nat) :
    Step dep ⟨w, []⟩ (.transaction t) ⟨{ w with timestamp := t }, [⟨.code, { w with timestamp := t }⟩]⟩
  | enter (w : World) (fs : List (Frame Kind World)) : Step dep ⟨w, fs⟩ .enter ⟨w, ⟨.code, w⟩ :: fs⟩
  /-- A call that reverted, or `handleOps` while it is being run. -/
  | refused (c : Config) (l : Label) : Step dep c l c
  | call {w w' : World} (fs : List (Frame Kind World)) {sender : Address} {c : Call} :
    w.call dep sender c = .ok w' → Step dep ⟨w, fs⟩ (.call sender c) ⟨w', fs⟩
  | depositTo {w w' : World} (fs : List (Frame Kind World)) {value : Nat} :
    w.depositTo value = .ok w' → Step dep ⟨w, fs⟩ (.depositTo value) ⟨w', fs⟩
  | withdrawFor {w w' : World} (fs : List (Frame Kind World)) {sender : Address} {tenant : Bytes32}
    {receiver : Address} {amount : Nat} :
    w.withdrawFor sender tenant receiver amount = .ok w' →
    Step dep ⟨w, fs⟩ (.withdrawFor sender tenant receiver amount)
      ⟨w', ⟨.withdrawFor tenant receiver amount, w⟩ :: fs⟩
  | withdrawTo {w w' : World} (fs : List (Frame Kind World)) {sender : Address} {amount : Nat} :
    w.withdrawTo sender amount = .ok w' →
    Step dep ⟨w, fs⟩ (.withdrawTo sender amount) ⟨w', ⟨.withdrawTo, w⟩ :: fs⟩
  | handleOps (w : World) (fs : List (Frame Kind World)) :
    Step dep ⟨w, fs⟩ .handleOps ⟨w, ⟨.validating [], w⟩ :: fs⟩
  | validate {w w' saved : World} (fs : List (Frame Kind World)) {validated : List OpInfo}
    {op : PackedUserOperation} {maxCost : Nat} {info : OpInfo} :
    w.validate dep op maxCost = some (w', info) →
    Step dep ⟨w, ⟨.validating validated, saved⟩ :: fs⟩ (.validate op maxCost)
      ⟨w', ⟨.validating (validated ++ [info]), saved⟩ :: fs⟩
  | execute (w saved : World) (fs : List (Frame Kind World)) (validated : List OpInfo) :
    Step dep ⟨w, ⟨.validating validated, saved⟩ :: fs⟩ .execute
      ⟨w, ⟨.executing validated, saved⟩ :: fs⟩
  | start (w saved : World) (fs : List (Frame Kind World)) (info : OpInfo) (queue : List OpInfo) :
    Step dep ⟨w, ⟨.executing (info :: queue), saved⟩ :: fs⟩ .start
      ⟨w, ⟨.inner, w⟩ :: ⟨.executing (info :: queue), saved⟩ :: fs⟩
  | charge {w w' began saved : World} (fs : List (Frame Kind World)) {info : OpInfo} {queue : List OpInfo}
    {reverted : Bool} {cost fee kept : Nat} :
    World.charge (if reverted then began else w) info cost fee kept = some w' →
    Step dep ⟨w, ⟨.inner, began⟩ :: ⟨.executing (info :: queue), saved⟩ :: fs⟩
      (.settle reverted (.ran cost fee kept)) ⟨w', ⟨.executing queue, saved⟩ :: fs⟩
  | forfeit {w w' began saved : World} (fs : List (Frame Kind World)) {info : OpInfo} {queue : List OpInfo}
    {reverted : Bool} {kept : Nat} :
    began.forfeit info kept = some w' →
    Step dep ⟨w, ⟨.inner, began⟩ :: ⟨.executing (info :: queue), saved⟩ :: fs⟩
      (.settle reverted (.postOpReverted kept)) ⟨w', ⟨.executing queue, saved⟩ :: fs⟩
  /-- A frame that does nothing on its way out returns. -/
  | returned (w saved : World) (fs : List (Frame Kind World)) {k : Kind} :
    k = .code ∨ k = .withdrawTo ∨ k = .executing [] → Step dep ⟨w, ⟨k, saved⟩ :: fs⟩ .returned ⟨w, fs⟩
  | withdrawn (w saved : World) (fs : List (Frame Kind World)) (tenant : Bytes32) (receiver : Address)
    (amount : Nat) :
    Step dep ⟨w, ⟨.withdrawFor tenant receiver amount, saved⟩ :: fs⟩ .returned
      ⟨w.withdrawn tenant receiver amount, fs⟩
  /-- The top frame reverts; a bundle also does when one of its validations fails. -/
  | reverted (w : World) (f : Frame Kind World) (fs : List (Frame Kind World)) (l : Label) :
    Step dep ⟨w, f :: fs⟩ l ⟨f.saved, fs⟩
  /-- A whole bundle reverts while one of its operations is executed. -/
  | aborted (w began : World) (f : Frame Kind World) (fs : List (Frame Kind World)) :
    Step dep ⟨w, ⟨.inner, began⟩ :: f :: fs⟩ .reverted ⟨f.saved, fs⟩

theorem step_cases {c c' : Config} {l : Label} (h : step dep c l = some c') : Step dep c l c' := by
  obtain ⟨w, fs⟩ := c
  cases l with
  | transaction t =>
    simp only [step] at h
    split at h
    · rename_i hs
      cases h
      exact .transaction w t
    · cases h
  | enter =>
    simp only [step] at h
    split at h
    · cases h; exact .enter w fs
    · cases h
  | call sender call =>
    simp only [step] at h
    split at h
    · cases hc : w.call dep sender call with
      | ok w' => rw [hc] at h; cases h; exact .call fs hc
      | error e => rw [hc] at h; cases h; exact .refused _ _
    · cases h
  | depositTo value =>
    simp only [step] at h
    split at h
    · cases hc : w.depositTo value with
      | ok w' => rw [hc] at h; cases h; exact .depositTo fs hc
      | error e => rw [hc] at h; cases h; exact .refused _ _
    · cases h
  | withdrawFor sender tenant receiver amount =>
    simp only [step] at h
    split at h
    · cases hc : w.withdrawFor sender tenant receiver amount with
      | ok w' => rw [hc] at h; cases h; exact .withdrawFor fs hc
      | error e => rw [hc] at h; cases h; exact .refused _ _
    · cases h
  | withdrawTo sender amount =>
    simp only [step] at h
    split at h
    · cases hc : w.withdrawTo sender amount with
      | ok w' => rw [hc] at h; cases h; exact .withdrawTo fs hc
      | error e => rw [hc] at h; cases h; exact .refused _ _
    · cases h
  | handleOps =>
    simp only [step] at h
    split at h
    · split at h
      · cases h; exact .refused _ _
      · cases h; exact .handleOps w fs
    · cases h
  | validate op maxCost =>
    simp only [step] at h
    split at h
    · rename_i _ validated saved rest
      split at h
      · rename_i hv
        cases h; exact .validate rest hv
      · cases h; exact .reverted w ⟨.validating validated, saved⟩ rest _
    · cases h
  | execute =>
    simp only [step] at h
    split at h
    · rename_i _ validated saved rest
      cases h; exact .execute w saved rest validated
    · cases h
  | start =>
    simp only [step] at h
    split at h
    · rename_i _ info queue saved rest
      cases h; exact .start w saved rest info queue
    · cases h
  | settle reverted outcome =>
    simp only [step] at h
    split at h
    · rename_i _ began info queue saved rest
      cases outcome with
      | ran cost fee kept =>
        obtain ⟨w', hw, rfl⟩ := Option.map_eq_some_iff.mp h
        exact .charge rest hw
      | postOpReverted kept =>
        obtain ⟨w', hw, rfl⟩ := Option.map_eq_some_iff.mp h
        exact .forfeit rest hw
    · cases h
  | returned =>
    simp only [step] at h
    split at h
    · rename_i _ saved rest
      cases h; exact .returned w saved rest (.inl rfl)
    · rename_i _ tenant receiver amount saved rest
      cases h; exact .withdrawn w saved rest tenant receiver amount
    · rename_i _ saved rest
      cases h; exact .returned w saved rest (.inr (.inl rfl))
    · rename_i _ saved rest
      cases h; exact .returned w saved rest (.inr (.inr rfl))
    · cases h
  | reverted =>
    simp only [step] at h
    split at h
    · cases h
    · rename_i _ began f rest
      cases h; exact .aborted w began f rest
    · rename_i _ f rest _
      cases h; exact .reverted w f rest _

end Paymaster
