import Mathlib
import Paymaster.Contracts.Control

/-!
# Attestations are used once

A claim is accepted against the digest of one attestation: the tenant, the
controller and the deadline it was called with, and the tenant's nonce at that
moment. Every controller change raises the nonce, so no digest is accepted
twice, and none after a change that came once its nonce had been reached.
-/

namespace Paymaster

open Bytes CallStack Function

structure ControllerAttestation where
  tenant : Bytes32
  controller : Address
  nonce : Uint256
  deadline : Uint48
deriving DecidableEq

section
variable (dep : Deployment) (a : ControllerAttestation)

def ControllerAttestation.digest : Bytes32 := controllerAssignmentHash dep a.tenant a.controller a.nonce a.deadline

def ControllerAttestation.encodings : List Data :=
  [controllerAssignmentEncoding dep a.tenant a.controller a.nonce a.deadline,
    typedData dep (dep.keccak256 (controllerAssignmentEncoding dep a.tenant a.controller a.nonce a.deadline))]

def Entry.checked? : Entry → List Entry → Option ControllerAttestation
  | .call _ _ (.claimController tenant controller deadline _), older =>
    some ⟨tenant, controller, BitVec.ofNat 256 (changesIn tenant older), deadline⟩
  | _, _ => none

/-- A successful claim accepts an attestation if it was checked against its digest. -/
def Entry.Accepts (e : Entry) (older : List Entry) : Prop :=
  ∃ b, e.checked? older = some b ∧ b.digest dep = a.digest dep

def checkedIn : List Entry → List ControllerAttestation
  | [] => []
  | e :: older => (e.checked? older).toList ++ checkedIn older

def acceptances (journal : List Entry) : Nat := (checkedIn journal).countP fun b => b.digest dep = a.digest dep

end

/-! ## Digests bind attestations -/

theorem word_append_inj {w : Nat} (hw : w ≤ 256) {x y : BitVec w} {b c : Data}
    (h : word x ++ b = word y ++ c) : x = y ∧ b = c := by
  have hlt : ∀ z : BitVec w, z.toNat < 256 ^ 32 := fun z =>
    Nat.lt_of_lt_of_le z.isLt (Nat.pow_le_pow_right (by decide) hw)
  obtain ⟨hn, hbc⟩ := append_beBytes_inj (hlt x) (hlt y) h
  exact ⟨BitVec.eq_of_toNat_eq hn, hbc⟩

theorem word_inj {w : Nat} (hw : w ≤ 256) {x y : BitVec w} (h : word x = word y) : x = y :=
  (word_append_inj (b := []) (c := []) hw (by rw [h])).1

section
variable {dep : Deployment} {a b : ControllerAttestation}

theorem controllerAssignmentEncoding_inj
    (h : controllerAssignmentEncoding dep a.tenant a.controller a.nonce a.deadline =
      controllerAssignmentEncoding dep b.tenant b.controller b.nonce b.deadline) : a = b := by
  simp only [controllerAssignmentEncoding, List.append_assoc] at h
  obtain ⟨ht, h⟩ := word_append_inj (by decide) (List.append_cancel_left h)
  obtain ⟨hc, h⟩ := word_append_inj (by decide) h
  obtain ⟨hn, h⟩ := word_append_inj (by decide) h
  have hd := word_inj (by decide) h
  cases a
  cases b
  simp only [ControllerAttestation.mk.injEq]
  exact ⟨ht, hc, hn, hd⟩

theorem typedData_inj {x y : Bytes32} (h : typedData dep x = typedData dep y) : x = y :=
  word_inj (by decide) (List.append_cancel_left h)

theorem digest_inj {S : Set Data} (hinj : Set.InjOn dep.keccak256 S) (ha : ∀ d ∈ a.encodings dep, d ∈ S)
    (hb : ∀ d ∈ b.encodings dep, d ∈ S) (h : a.digest dep = b.digest dep) : a = b := by
  have htyped := hinj (ha _ (by simp [ControllerAttestation.encodings]))
    (hb _ (by simp [ControllerAttestation.encodings])) h
  exact controllerAssignmentEncoding_inj (hinj (ha _ (by simp [ControllerAttestation.encodings]))
    (hb _ (by simp [ControllerAttestation.encodings])) (typedData_inj htyped))

end

/-! ## Nonces only grow -/

section
variable {t : Bytes32} {e : Entry} {older newer early before : List Entry} {a : ControllerAttestation}

theorem changesIn_cons_le (t : Bytes32) (e : Entry) (older : List Entry) :
    changesIn t older ≤ changesIn t (e :: older) := by
  cases he : e.assigned? with
  | none => exact Nat.le_of_eq (changesIn_other he).symm
  | some p =>
    rw [changesIn_assigned he]
    split <;> omega

theorem changesIn_suffix (h : early <:+ before) : changesIn t early ≤ changesIn t before := by
  obtain ⟨es, rfl⟩ := h
  induction es with
  | nil => exact Nat.le_refl _
  | cons e es ih => exact Nat.le_trans ih (changesIn_cons_le t e _)

/-- A claim is a controller change, checked against the number of changes before it. -/
theorem checked_some (h : e.checked? older = some a) :
    e.assigned? = some (a.tenant, a.controller) ∧ a.nonce = BitVec.ofNat 256 (changesIn a.tenant older) := by
  cases e with
  | call sender timestamp c =>
    cases c with
    | claimController tenant controller deadline signature =>
      cases h
      exact ⟨rfl, rfl⟩
    | _ => cases h
  | _ => cases h

/-- An authorised claim was for a tenant and on an authorised signature over
the digest it was checked against. -/
theorem checked_authorised {dep : Deployment} {s : State} (ha : e.Authorised dep s older)
    (h : e.checked? older = some a) :
    a.tenant ≠ 0 ∧ ∃ signature signer, dep.tryRecover (a.digest dep) signature = some signer ∧
      signersIn s.isSigner older signer = true := by
  cases e with
  | call sender timestamp c =>
    cases c with
    | claimController tenant controller deadline signature =>
      cases h
      obtain ⟨ht, -, signer, hrec, hauth⟩ := ha
      exact ⟨ht, signature, signer, hrec, hauth⟩
    | _ => cases h
  | _ => cases h

theorem checkedIn_append (h : e.checked? older = some a) : a ∈ checkedIn (newer ++ e :: older) := by
  induction newer with
  | nil => simp [checkedIn, h]
  | cons e' newer ih => exact List.mem_append_right _ ih

/-- While the nonces do not wrap, an attestation is checked against at most
once, and only below the current nonce. -/
theorem checkedIn_count (a : ControllerAttestation) :
    ∀ journal : List Entry, changesIn a.tenant journal < uint256Size →
      (checkedIn journal).count a ≤ 1 ∧ (a ∈ checkedIn journal → a.nonce.toNat < changesIn a.tenant journal)
  | [], _ => by simp [checkedIn]
  | e :: older, hfew => by
    have hle := changesIn_cons_le a.tenant e older
    obtain ⟨hcount, hlt⟩ := checkedIn_count a older (by omega)
    cases he : e.checked? older with
    | none =>
      simp only [checkedIn, he, Option.toList_none, List.nil_append]
      exact ⟨hcount, fun hm => Nat.lt_of_lt_of_le (hlt hm) hle⟩
    | some b =>
      simp only [checkedIn, he, Option.toList_some, List.singleton_append]
      by_cases hab : b = a
      · subst hab
        obtain ⟨hassign, hnonce⟩ := checked_some he
        rw [changesIn_assigned hassign, if_pos rfl] at hfew ⊢
        have hval : b.nonce.toNat = changesIn b.tenant older := by
          rw [hnonce, BitVec.toNat_ofNat]
          exact Nat.mod_eq_of_lt (Nat.lt_of_succ_lt hfew)
        have hnew : b ∉ checkedIn older := fun hm => by
          have := hlt hm
          omega
        rw [List.count_cons_self, List.count_eq_zero_of_not_mem hnew]
        exact ⟨Nat.le_refl 1, fun _ => by omega⟩
      · rw [List.count_cons_of_ne hab, List.mem_cons]
        exact ⟨hcount, fun hm => Nat.lt_of_lt_of_le (hlt (hm.resolve_left (Ne.symm hab))) hle⟩

end

/-- **Single use.** In every run, for every attestation, if the hash has no
collision among the strings hashed for it and for the claims of the run and the
tenant's controller changed fewer than 2^256 times: at most one claim accepts
the attestation; whoever accepts it does so on the signature of a signer
authorised at that time, never for the zero tenant, and with no controller
change of the tenant behind it that came when or after the attested nonce had
been reached. -/
theorem attestation_single_use {dep : Deployment} {s : State} {deposit : Nat} {ls : List Label} {c : Config}
    (signed : Address → Bytes32 → Prop)
    (unforgeable : ∀ digest signature signer,
      dep.tryRecover digest signature = some signer → signed signer digest)
    (hs : Deployed s) (h : Runs.run (step dep) (launch s deposit) ls = some c) (a : ControllerAttestation)
    (hinj : Set.InjOn dep.keccak256 {d | ∃ b ∈ a :: checkedIn c.world.journal, d ∈ b.encodings dep})
    (hfew : changesIn a.tenant c.world.journal < uint256Size) :
    c.world.paymaster.controllerNonce a.tenant = BitVec.ofNat 256 (changesIn a.tenant c.world.journal) ∧
    acceptances dep a c.world.journal ≤ 1 ∧
    ∀ newer e older, c.world.journal = newer ++ e :: older → e.Accepts dep a older →
      a.tenant ≠ 0 ∧ (∃ signer, signersIn s.isSigner older signer = true ∧ signed signer (a.digest dep)) ∧
      ∀ between change before controller early, older = between ++ change :: before →
        change.assigned? = some (a.tenant, controller) → early <:+ before →
        BitVec.ofNat 256 (changesIn a.tenant early) ≠ a.nonce := by
  have hr := recorded_of_run hs h
  have hbind : ∀ b ∈ checkedIn c.world.journal, b.digest dep = a.digest dep → b = a := fun b hb =>
    digest_inj hinj (fun d hd => ⟨b, List.mem_cons_of_mem _ hb, hd⟩) (fun d hd => ⟨a, List.mem_cons_self, hd⟩)
  refine ⟨hr.nonce a.tenant, ?_, fun newer e older hj ⟨b, hb, hdigest⟩ => ?_⟩
  · have heq : acceptances dep a c.world.journal = (checkedIn c.world.journal).count a :=
      List.countP_congr fun b hb => by
        rw [decide_eq_true_iff, beq_iff_eq]
        exact ⟨hbind b hb, fun e => e ▸ rfl⟩
    rw [heq]
    exact (checkedIn_count a c.world.journal hfew).1
  · have hab : b = a := hbind b (hj ▸ checkedIn_append hb) hdigest
    subst hab
    obtain ⟨hassign, hnonce⟩ := checked_some hb
    have ha : e.Authorised dep s older := AllAuthorised.split (hj ▸ hr.authorised)
    obtain ⟨ht, signature, signer, hrec, hauth⟩ := checked_authorised ha hb
    refine ⟨ht, ⟨signer, hauth, unforgeable _ _ _ hrec⟩,
      fun between change before controller early hold hchange hearly hreached => ?_⟩
    -- The change itself raised the nonce past the one the claim was checked against.
    have h1 : changesIn b.tenant early ≤ changesIn b.tenant before := changesIn_suffix hearly
    have h2 : changesIn b.tenant (change :: before) = changesIn b.tenant before + 1 := by
      rw [changesIn_assigned hchange, if_pos rfl]
    have h3 : changesIn b.tenant (change :: before) ≤ changesIn b.tenant older :=
      changesIn_suffix ⟨between, hold.symm⟩
    have h4 : changesIn b.tenant older ≤ changesIn b.tenant c.world.journal :=
      changesIn_suffix ⟨newer ++ [e], by rw [hj, List.append_assoc, List.singleton_append]⟩
    have hmod := congrArg BitVec.toNat (hreached.trans hnonce)
    rw [BitVec.toNat_ofNat, BitVec.toNat_ofNat, Nat.mod_eq_of_lt, Nat.mod_eq_of_lt] at hmod
    · omega
    · exact Nat.lt_of_le_of_lt h4 hfew
    · exact Nat.lt_of_le_of_lt (by omega) hfew

/-! ## A claim, cancelled and resubmitted -/

def acmeAttestation : ControllerAttestation where
  tenant := 0x095c0839536616ff65a16bc9cfa11b8bfedab004ee2a892bd4d1c7f1454c59bb
  controller := 0x70997970c51812dc3a010c7d01b50e0d17dc79c8
  nonce := 0
  deadline := 1900000000

def acmeSignature : Data :=
  beBytes 65 0x6b56c01b73cc606b2ac658729ca915c6b3252113f2af421c3b45f9b501dba5866ce730ab6997a47ed7aae6756c7417aae365be6e06a18ccd6c73c35d631ab9fd1b

/-- keccak256 on the strings that the run below hashes. -/
def acmeKeccak (data : Data) : Bytes32 :=
  if data = ascii "EIP712Domain(string name,string version,uint256 chainId,address verifyingContract)" then
    0x8b73c3c69bb8fe3d512ecc4cf759cc79239f7b179b0ffacaa9a75d522b39400f
  else if data = ascii "TenantPaymaster" then
    0xcbd778bd0ff46ae0698b61e191c39313334e0a1cce09709a83c60045224bc03a
  else if data = ascii "1" then
    0xc89efdaa54c0f20c7adf612882df0950f5a951637e0307cdcb4c672f298b8bc6
  else if data = ascii "ControllerAssignment(bytes32 tenant,address controller,uint256 nonce,uint48 deadline)" then
    0x658f6a0109636dbcb8f4be8c7fd28e8b5c204752169fcfd59de199ddda9456f6
  else if data.length = 160 then
    -- Struct hashes, by the nonce they are for; the domain has a word of one at the same place.
    match ofBytes (data.take 32), wordAt data 96 128 with
    | 0x658f6a0109636dbcb8f4be8c7fd28e8b5c204752169fcfd59de199ddda9456f6, 0 =>
      0x363780ca5d2819c0c3f5c4ab9f134f4159f93a09296668d15c79195636f90308
    | 0x658f6a0109636dbcb8f4be8c7fd28e8b5c204752169fcfd59de199ddda9456f6, 2 =>
      0xe6b97e1327940d6dc21786352deed42eb5529362de8a4c2d8cb8dd3470301c56
    | _, _ => 0x1258fa614d63d22fb5234a773d2488126f48add79912d3bccbb4dae1b9f3ca6b
  else if wordAt data 34 66 = 0x363780ca5d2819c0c3f5c4ab9f134f4159f93a09296668d15c79195636f90308 then
    0xb8979570d3c1b8691a09380e5f3b8f83c913f07bd96eb5448df24c9737ec05ad
  else 0xdf71896f5e171aa9ae0942905f80e7d907db39efe4c0ef9399066fbb236ae187

def acmeDeployment : Deployment where
  keccak256 := acmeKeccak
  tryRecover digest signature :=
    if signature ≠ acmeSignature then none
    else if digest = 0xb8979570d3c1b8691a09380e5f3b8f83c913f07bd96eb5448df24c9737ec05ad then
      some 0x2b5ad5c4795c026514f8317c7a215e218dccd6cf
    else some 0x1dbd2f606490a0fc69d03adfca0688d81ddd7024
  chainId := 1
  self := 0x5fbdb2315678afecb367f032d93f642f64180aa3

def acmeState : State :=
  { addSigner' (blank 3) 0x2b5ad5c4795c026514f8317c7a215e218dccd6cf with owner := 3, pendingOwner := 0 }

def acmeClaim : Call :=
  .claimController acmeAttestation.tenant acmeAttestation.controller acmeAttestation.deadline acmeSignature

def acmeRun : List Label :=
  [.transaction 1800000000, .call 9 acmeClaim, .returned,
    .transaction 1800000100, .call 3 (.setController acmeAttestation.tenant 0), .call 9 acmeClaim, .returned]

def acmeHistory : List Entry :=
  [.event (.controllerSet acmeAttestation.tenant 0),
    .call 3 1800000100 (.setController acmeAttestation.tenant 0),
    .event (.controllerClaimed acmeAttestation.tenant acmeAttestation.controller 1800086400),
    .call 9 1800000000 acmeClaim]

/-- The second submission is refused. -/
theorem attestation_single_use_acme :
    ∃ c, Runs.run (step acmeDeployment) (launch acmeState 0) acmeRun = some c ∧
      c.world.journal = acmeHistory ∧ checkedIn acmeHistory = [acmeAttestation] ∧
      acceptances acmeDeployment acmeAttestation acmeHistory ≤ 1 ∧
      ∃ signer, signersIn acmeState.isSigner [] signer = true := by
  have hrun : (Runs.run (step acmeDeployment) (launch acmeState 0) acmeRun).map (fun c => c.world.journal) =
      some acmeHistory := by decide +kernel
  obtain ⟨c, hc, hj⟩ := Option.map_eq_some_iff.mp hrun
  have hchecked : checkedIn acmeHistory = [acmeAttestation] := by decide +kernel
  have hcollision : ∀ x ∈ acmeAttestation.encodings acmeDeployment, ∀ y ∈ acmeAttestation.encodings acmeDeployment,
      acmeKeccak x = acmeKeccak y → x = y := by decide +kernel
  have hinj : Set.InjOn acmeDeployment.keccak256
      {d | ∃ b ∈ acmeAttestation :: checkedIn c.world.journal, d ∈ b.encodings acmeDeployment} := by
    rw [hj, hchecked]
    rintro x ⟨b, hb, hx⟩ y ⟨b', hb', hy⟩ hxy
    simp only [List.mem_cons, List.not_mem_nil, or_false, or_self] at hb hb'
    subst hb hb'
    exact hcollision x hx y hy hxy
  obtain ⟨-, hone, hall⟩ := attestation_single_use (fun _ _ => True) (fun _ _ _ _ => trivial)
    ⟨3, 3, 0x2b5ad5c4795c026514f8317c7a215e218dccd6cf, rfl⟩ hc acmeAttestation hinj (by rw [hj]; decide)
  rw [hj] at hone
  obtain ⟨-, ⟨signer, hsigner, -⟩, -⟩ :=
    hall (acmeHistory.take 3) (.call 9 1800000000 acmeClaim) [] hj ⟨acmeAttestation, rfl, rfl⟩
  exact ⟨c, hc, hj, hchecked, hone, signer, hsigner⟩

end Paymaster
