import Paymaster.Contracts.Spec

/-!
# Authority as recorded in the history

Who owned the contract, who could sign, who controlled a tenant and since
which claim, and what a tenant held, each read off the journal alone. The
storage agrees with the history at every point of every run, and every entry
of the history was authorised by what came before it.
-/

namespace Paymaster

open CallStack Function

/-! ## The history -/

def ownerIn (first : Address) : List Entry → Address
  | [] => first
  | .call sender _ .acceptOwnership :: _ => sender
  | .call _ _ .renounceOwnership :: _ => 0
  | _ :: older => ownerIn first older

def signersIn (first : Address → Bool) : List Entry → Address → Bool
  | [] => first
  | .call _ _ (.addSigner signer) :: older => update (signersIn first older) signer true
  | .call _ _ (.removeSigner signer) :: older => update (signersIn first older) signer false
  | _ :: older => signersIn first older

def Entry.assigned? : Entry → Option (Bytes32 × Address)
  | .call _ _ (.setController tenant controller) => some (tenant, controller)
  | .call _ _ (.claimController tenant controller _ _) => some (tenant, controller)
  | .call _ _ (.transferController tenant controller) => some (tenant, controller)
  | _ => none

def controllerIn (tenant : Bytes32) : List Entry → Address
  | [] => 0
  | e :: older =>
    match e.assigned? with
    | some (t, controller) => if t = tenant then controller else controllerIn tenant older
    | none => controllerIn tenant older

/-- The time of the claim from which control of the tenant derives, if it
derives from one: a claim is passed on by `transferController` and ended by
the owner's `setController`. -/
def claimedIn (tenant : Bytes32) : List Entry → Option Nat
  | [] => none
  | .call _ _ (.setController t _) :: older => if t = tenant then none else claimedIn tenant older
  | .call _ timestamp (.claimController t _ _ _) :: older =>
    if t = tenant then some timestamp else claimedIn tenant older
  | _ :: older => claimedIn tenant older

def changesIn (tenant : Bytes32) : List Entry → Nat
  | [] => 0
  | e :: older =>
    match e.assigned? with
    | some (t, _) => if t = tenant then changesIn tenant older + 1 else changesIn tenant older
    | none => changesIn tenant older

/-- What the tenant holds: deposits and refunds less debits and reservations. -/
def balanceIn (tenant : Bytes32) : List Entry → Nat
  | [] => 0
  | .call _ _ (.depositFor t value) :: older => balanceIn tenant older + if t = tenant then value else 0
  | .event (.tenantCharged t reserved charged _) :: older =>
    balanceIn tenant older + if t = tenant then reserved - charged else 0
  | .debit _ _ t amount :: older => balanceIn tenant older - if t = tenant then amount else 0
  | .reserve op _ amount :: older => balanceIn tenant older - if tenantOf op = tenant then amount else 0
  | _ :: older => balanceIn tenant older

section
variable (dep : Deployment) (s : State)

/-- What authorises an entry, given the history before it. -/
def Entry.Authorised : Entry → List Entry → Prop
  | .call sender _ (.setController tenant _), older => sender = ownerIn s.owner older ∧ tenant ≠ 0
  | .call sender _ (.transferController tenant _), older => sender = controllerIn tenant older ∧ sender ≠ 0
  | .call _ _ (.claimController tenant controller deadline signature), older =>
    tenant ≠ 0 ∧ controllerIn tenant older = 0 ∧ ∃ signer,
      dep.tryRecover (controllerAssignmentHash dep tenant controller
        (BitVec.ofNat 256 (changesIn tenant older)) deadline) signature = some signer ∧
      signersIn s.isSigner older signer = true
  | .debit sender timestamp tenant _, older => sender ≠ ownerIn s.owner older →
    sender = controllerIn tenant older ∧
      ∀ claimed, claimedIn tenant older = some claimed → claimed + controllerClaimDelay ≤ timestamp
  | .reserve op signer _, older =>
    dep.tryRecover (sponsorshipDigest dep op) (attestationOf op) = some signer ∧
      signersIn s.isSigner older signer = true
  | _, _ => True

def AllAuthorised : List Entry → Prop
  | [] => True
  | e :: older => e.Authorised dep s older ∧ AllAuthorised older

variable {dep s}

theorem AllAuthorised.split {newer : List Entry} {e : Entry} {older : List Entry}
    (h : AllAuthorised dep s (newer ++ e :: older)) : e.Authorised dep s older := by
  induction newer with
  | nil => exact h.1
  | cons _ newer ih => exact ih h.2

end

section
variable {e : Entry} {t tenant : Bytes32} {controller : Address} {older : List Entry}

theorem controllerIn_assigned (h : e.assigned? = some (t, controller)) :
    controllerIn tenant (e :: older) = if t = tenant then controller else controllerIn tenant older := by
  simp only [controllerIn, h]

theorem controllerIn_other (h : e.assigned? = none) :
    controllerIn tenant (e :: older) = controllerIn tenant older := by
  simp only [controllerIn, h]

theorem changesIn_assigned (h : e.assigned? = some (t, controller)) :
    changesIn tenant (e :: older) = if t = tenant then changesIn tenant older + 1 else changesIn tenant older := by
  simp only [changesIn, h]

theorem changesIn_other (h : e.assigned? = none) : changesIn tenant (e :: older) = changesIn tenant older := by
  simp only [changesIn, h]

end

/-! ## The storage agrees with the history -/

/-- The storage is what the history says, and the history is authorised. -/
structure Recorded (dep : Deployment) (s : State) (w : World) : Prop where
  owner : w.paymaster.owner = ownerIn s.owner w.journal
  signers : w.paymaster.isSigner = signersIn s.isSigner w.journal
  controller : ∀ t, w.paymaster.controllerOf t = controllerIn t w.journal
  activeAt : ∀ t, w.paymaster.controllerActiveAt t = (claimedIn t w.journal).elim 0 (· + controllerClaimDelay)
  nonce : ∀ t, w.paymaster.controllerNonce t = BitVec.ofNat 256 (changesIn t w.journal)
  balance : ∀ t, w.paymaster.balances t = balanceIn t w.journal
  authorised : AllAuthorised dep s w.journal

theorem update_ite {α β : Type} [DecidableEq α] (f : α → β) (a : α) (b : β) (t : α) :
    update f a b t = if a = t then b else f t := by
  rw [update_apply]
  exact if_congr eq_comm rfl rfl

section
variable {dep : Deployment} {s : State} {w w' : World} {sender : Address}

/-- A controller change, of whichever kind, with the event that goes with it. -/
theorem Recorded.assign {e : Entry} {ev : Event} {tenant : Bytes32} {controller : Address} {activeAt : Nat}
    (hr : Recorded dep s w) (he : e.assigned? = some (tenant, controller)) (hev : ev.report? = none)
    (ha : e.Authorised dep s w.journal)
    (hclaim : (claimedIn tenant (e :: w.journal)).elim 0 (· + controllerClaimDelay) = activeAt) :
    Recorded dep s { w with
      paymaster := assignController w.paymaster tenant controller activeAt
      journal := .event ev :: e :: w.journal } := by
  -- Only a call assigns, and the three that do touch nothing but the tenant's control.
  obtain ⟨x, timestamp, c, rfl⟩ : ∃ x timestamp c, e = .call x timestamp c := by
    cases e <;> simp [Entry.assigned?] at he ⊢
  have hbal : ∀ t, balanceIn t (.event ev :: .call x timestamp c :: w.journal) = balanceIn t w.journal := by
    intro t
    cases ev <;> cases c <;> simp_all [balanceIn, Event.report?, Entry.assigned?]
  have hother : ∀ t, tenant ≠ t → claimedIn t (.call x timestamp c :: w.journal) = claimedIn t w.journal := by
    intro t ht
    cases c <;> simp_all [claimedIn, Entry.assigned?]
  refine ⟨?_, ?_, fun t => ?_, fun t => ?_, fun t => ?_, fun t => ?_, trivial, ha, hr.authorised⟩
  · cases c <;> simp_all [Entry.assigned?, ownerIn, assignController, hr.owner]
  · cases c <;> simp_all [Entry.assigned?, signersIn, assignController, hr.signers]
  · rw [controllerIn_other rfl, controllerIn_assigned he, ← hr.controller t]
    exact update_ite ..
  · simp only [assignController, update_ite, claimedIn]
    split
    · rename_i ht
      exact ht ▸ hclaim.symm
    · rename_i ht
      rw [hother t ht]
      exact hr.activeAt t
  · rw [changesIn_other rfl, changesIn_assigned he]
    simp only [assignController, update_ite]
    split
    · rename_i ht
      rw [ht, hr.nonce t, BitVec.ofNat_add]
      rfl
    · exact hr.nonce t
  · exact (hr.balance t).trans (hbal t).symm

theorem Recorded.call {c : Call} (hr : Recorded dep s w) (h : w.call dep sender c = .ok w') :
    Recorded dep s w' := by
  obtain ⟨s', events, hs, rfl⟩ := World.call_ok h
  cases c with
  | depositFor tenant value =>
    obtain ⟨-, rfl, rfl⟩ := depositFor_ok hs
    refine ⟨hr.owner, hr.signers, hr.controller, hr.activeAt, hr.nonce, fun t => ?_, trivial, trivial, hr.authorised⟩
    simp only [State.withBalance, update_ite, List.map_cons, List.map_nil, List.cons_append, List.nil_append,
      balanceIn, ← hr.balance]
    split
    · rename_i ht
      rw [ht]
    · rfl
  | setController tenant controller =>
    obtain ⟨ho, ht, rfl, rfl⟩ := setController_ok hs
    exact hr.assign rfl rfl ⟨ho.trans hr.owner, ht⟩ (by simp [claimedIn])
  | claimController tenant controller deadline signature =>
    obtain ⟨ht, -, h0, -, ⟨signer, hsig⟩, rfl, rfl⟩ := claimController_ok hs
    obtain ⟨hrec, hauth⟩ := recoverSigner_some hsig
    refine hr.assign rfl rfl ⟨ht, (hr.controller tenant).symm.trans h0, signer, ?_, ?_⟩ (by simp [claimedIn])
    · rw [← hr.nonce tenant]
      exact hrec
    · rw [← hr.signers]
      exact hauth
  | transferController tenant controller =>
    obtain ⟨hc, h0, -, rfl, rfl⟩ := transferController_ok hs
    refine hr.assign rfl rfl ⟨hc.trans (hr.controller tenant), h0⟩ ?_
    rw [hr.activeAt tenant]
    rfl
  | addSigner signer =>
    simp only [State.call, addSigner] at hs
    split_ifs at hs
    cases hs
    exact ⟨hr.owner, by simp [addSigner', signersIn, hr.signers], hr.controller, hr.activeAt, hr.nonce, hr.balance,
      trivial, trivial, hr.authorised⟩
  | removeSigner signer =>
    simp only [State.call, removeSigner] at hs
    split_ifs at hs
    cases hs
    exact ⟨hr.owner, by simp [signersIn, hr.signers], hr.controller, hr.activeAt, hr.nonce, hr.balance,
      trivial, trivial, hr.authorised⟩
  | pause =>
    simp only [State.call, pause] at hs
    split_ifs at hs
    cases hs
    exact ⟨hr.owner, hr.signers, hr.controller, hr.activeAt, hr.nonce, hr.balance, trivial, hr.authorised⟩
  | unpause =>
    simp only [State.call, unpause] at hs
    split_ifs at hs
    cases hs
    exact ⟨hr.owner, hr.signers, hr.controller, hr.activeAt, hr.nonce, hr.balance, trivial, hr.authorised⟩
  | transferOwnership newOwner =>
    simp only [State.call, transferOwnership] at hs
    split_ifs at hs
    cases hs
    exact ⟨hr.owner, hr.signers, hr.controller, hr.activeAt, hr.nonce, hr.balance, trivial, hr.authorised⟩
  | acceptOwnership =>
    simp only [State.call, acceptOwnership] at hs
    split_ifs at hs
    cases hs
    exact ⟨rfl, hr.signers, hr.controller, hr.activeAt, hr.nonce, hr.balance, trivial, hr.authorised⟩
  | renounceOwnership =>
    simp only [State.call, renounceOwnership] at hs
    split_ifs at hs
    cases hs
    exact ⟨rfl, hr.signers, hr.controller, hr.activeAt, hr.nonce, hr.balance, trivial, hr.authorised⟩

theorem Recorded.keep (hr : Recorded dep s w) (hp : w'.paymaster = w.paymaster) (hj : w'.journal = w.journal) :
    Recorded dep s w' := by
  obtain ⟨h1, h2, h3, h4, h5, h6, h7⟩ := hr
  constructor <;> simpa only [hp, hj]

theorem Recorded.withdrawFor {tenant : Bytes32} {receiver : Address} {amount : Nat} (hr : Recorded dep s w)
    (h : w.withdrawFor sender tenant receiver amount = .ok w') : Recorded dep s w' := by
  obtain ⟨s', hs, -, rfl⟩ := World.withdrawFor_ok h
  obtain ⟨hauth, -, rfl⟩ := withdrawForDebit_ok hs
  refine ⟨hr.owner, hr.signers, hr.controller, hr.activeAt, hr.nonce, fun t => ?_, fun ho => ?_, hr.authorised⟩
  · simp only [State.withBalance, update_ite, balanceIn, ← hr.balance]
    split
    · rename_i ht
      rw [ht]
    · rfl
  · obtain ⟨hc, hact⟩ := hauth fun e => ho (e.trans hr.owner)
    refine ⟨hc.trans (hr.controller tenant), fun claimed hclaim => ?_⟩
    rwa [hr.activeAt tenant, hclaim] at hact

theorem Recorded.withdrawn {tenant : Bytes32} {receiver : Address} {amount : Nat} (hr : Recorded dep s w) :
    Recorded dep s (w.withdrawn tenant receiver amount) :=
  ⟨hr.owner, hr.signers, hr.controller, hr.activeAt, hr.nonce, hr.balance, trivial, hr.authorised⟩

theorem Recorded.validate {op : PackedUserOperation} {maxCost : Nat} {info : OpInfo} (hr : Recorded dep s w)
    (h : w.validate dep op maxCost = some (w', info)) : Recorded dep s w' := by
  rcases World.validate_some h with ⟨-, rfl⟩ | ⟨s', context, signer, vu, va, hv, -, -, -, -, rfl⟩
  · exact hr
  obtain ⟨-, hsig, -, rfl⟩ := validatePaymasterUserOp_ok hv
  obtain ⟨hrec, hauth⟩ := recoverSigner_some hsig
  refine ⟨hr.owner, hr.signers, hr.controller, hr.activeAt, hr.nonce, fun t => ?_, ⟨hrec, ?_⟩, hr.authorised⟩
  · simp only [State.withBalance, update_ite, balanceIn, ← hr.balance]
    split
    · rename_i ht
      rw [ht]
    · rfl
  · rw [← hr.signers]
    exact hauth

theorem Recorded.charge {info : OpInfo} {cost fee kept : Nat} (hr : Recorded dep s w)
    (h : w.charge info cost fee kept = some w') : Recorded dep s w' := by
  rcases World.charge_some h with ⟨-, rfl⟩ | ⟨context, s', events, -, hp, -, rfl⟩
  · exact hr
  obtain ⟨charge, -, rfl, rfl⟩ := postOp_ok hp
  refine ⟨hr.owner, hr.signers, hr.controller, hr.activeAt, hr.nonce, fun t => ?_, trivial, hr.authorised⟩
  simp only [State.withBalance, update_ite, List.map_cons, List.map_nil, List.cons_append, List.nil_append,
    balanceIn, ← hr.balance]
  split
  · rename_i ht
    rw [ht]
  · rfl

theorem Recorded.forfeit {info : OpInfo} {kept : Nat} (hr : Recorded dep s w)
    (h : w.forfeit info kept = some w') : Recorded dep s w' := by
  rcases World.forfeit_some h with ⟨-, rfl⟩ | ⟨context, -, -, rfl⟩
  · exact hr
  · exact ⟨hr.owner, hr.signers, hr.controller, hr.activeAt, hr.nonce, hr.balance, trivial, hr.authorised⟩

theorem recorded_step {c c' : Config} {l : Label} (h : Step dep c l c')
    (hr : Everywhere (Recorded dep s) c.world c.stack) : Everywhere (Recorded dep s) c'.world c'.stack := by
  cases h with
  | transaction w u =>
    have hk : Recorded dep s { w with timestamp := u } := hr.1.keep rfl rfl
    exact Everywhere.push (Q := Recorded dep s) ⟨hk, by simp⟩ hk
  | enter w fs => exact hr.push hr.1
  | refused => exact hr
  | call fs hc => exact hr.stay (hr.1.call hc)
  | depositTo fs hd =>
    rw [World.depositTo_ok hd]
    exact hr.stay (hr.1.keep rfl rfl)
  | withdrawFor fs hw => exact hr.push (hr.1.withdrawFor hw)
  | withdrawTo fs hw =>
    rw [(World.withdrawTo_ok hw).2]
    exact hr.push (hr.1.keep rfl rfl)
  | handleOps w fs => exact hr.push hr.1
  | validate fs hv => exact hr.switch (hr.1.validate hv)
  | execute w saved fs infos => exact hr.switch hr.1
  | start w saved fs info queue => exact hr.push hr.1
  | @charge w w' began saved fs info queue reverted cost fee kept hc =>
    have hk : Recorded dep s w' := by
      cases reverted with
      | true => exact hr.saved.charge hc
      | false => exact hr.1.charge hc
    exact (hr.pop hk).switch hk
  | forfeit fs hf => exact (hr.pop (hr.saved.forfeit hf)).switch (hr.saved.forfeit hf)
  | returned w saved fs hk => exact hr.pop hr.1
  | withdrawn w saved fs tenant receiver amount => exact hr.pop hr.1.withdrawn
  | reverted w f fs => exact hr.pop hr.saved
  | aborted w began f fs => exact (hr.pop hr.saved).pop (hr.pop hr.saved).saved

/-- In every run, the storage is what the history says and the history is authorised. -/
theorem recorded_of_run {deposit : Nat} {ls : List Label} {c : Config} (hs : Deployed s)
    (h : Runs.run (step dep) (launch s deposit) ls = some c) : Recorded dep s c.world := by
  have hf := fresh_of_deployed hs
  have hr : Everywhere (Recorded dep s) (launch s deposit).world (launch s deposit).stack := by
    refine ⟨⟨rfl, rfl, fun t => ?_, fun t => ?_, fun t => ?_, fun t => ?_, trivial⟩, by simp [launch]⟩
    · exact congrFun hf.controllerOf t
    · exact congrFun hf.controllerActiveAt t
    · exact congrFun hf.controllerNonce t
    · exact congrFun hf.balances t
  exact (Runs.invariant (P := fun c => Everywhere (Recorded dep s) c.world c.stack)
    (fun hr hstep => recorded_step (step_cases hstep) hr) hr h).1

end

end Paymaster
