import Paymaster.Sdk.Submission

/-!
# How the SDK waits, and where it stops

A receipt is asked for until it is there or the deadline has come, with a pause
after each time. An answer that is a failure ends the whole pipeline.
-/

namespace Paymaster.Sdk

open Bytes Signature Dialogue SponsoredBundlerClient

/-! ## The receipt -/

/-- When a receipt was asked for, by the clock as it was read last, and of which operation. -/
def pollsOf : Nat → Log → List (Nat × Data)
  | _, [] => []
  | _, ⟨.now, now⟩ :: log => pollsOf now log
  | time, ⟨.receipt _ userOpHash, _⟩ :: log => (time, userOpHash) :: pollsOf time log
  | time, _ :: log => pollsOf time log

def Spaced (interval : Nat) (polls : List (Nat × Data)) : Prop := polls.Pairwise fun p q => p.1 + interval ≤ q.1

structure Waiting (client : BundlerClient) (userOpHash : Data) (timeoutMs pollIntervalMs deadline last time : Nat)
    (log : Log) (d : Client UserOperationReceipt) : Prop where
  polls : ∀ p ∈ pollsOf last log, p.2 = userOpHash ∧ time ≤ p.1 ∧ p.1 < deadline
  spaced : Spaced pollIntervalMs (pollsOf last log)
  answered : ∀ receipt, d = .answer receipt → ∃ raw,
    log.getLast? = some ⟨.receipt client.endpoint userOpHash, .result (some raw)⟩ ∧
      BundlerClient.receiptOf raw = some receipt
  notMined : ∀ userOpHash' ms, d = .throw (.notMined userOpHash' ms) → userOpHash' = userOpHash ∧ ms = timeoutMs ∧
    (∃ now, log.getLast? = some ⟨.now, now⟩ ∧ deadline ≤ now) ∧
      ∀ (endpoint : String) (userOpHash : Data) reply, ⟨.receipt endpoint userOpHash, reply⟩ ∈ log → reply = .result none

section
variable {client : BundlerClient} {userOpHash : Data} {timeoutMs pollIntervalMs deadline time fuel : Nat} {log : Log}
  {d : Client UserOperationReceipt}

/-- A round without a receipt, before what a wait did from the end of its pause. -/
theorem Waiting.round {last now : Nat} {u : Unit}
    (h : Waiting client userOpHash timeoutMs pollIntervalMs deadline now (now + pollIntervalMs) log d) (htime : time ≤ now)
    (hnow : now < deadline) :
    Waiting client userOpHash timeoutMs pollIntervalMs deadline last time
      (⟨.now, now⟩ :: ⟨.receipt client.endpoint userOpHash, RpcReply.result none⟩ :: ⟨.sleep pollIntervalMs, u⟩ :: log) d := by
  constructor
  case polls =>
    intro p hp
    obtain rfl | hp := List.mem_cons.mp hp
    · exact ⟨rfl, htime, hnow⟩
    · obtain ⟨hhash, hafter, hbefore⟩ := h.polls p hp
      exact ⟨hhash, by omega, hbefore⟩
  case spaced => exact List.pairwise_cons.mpr ⟨fun p hp => (h.polls p hp).2.1, h.spaced⟩
  case answered =>
    intro receipt hd
    obtain ⟨raw, hlast, hread⟩ := h.answered receipt hd
    exact ⟨raw, by simp [List.getLast?_cons, hlast], hread⟩
  case notMined =>
    intro userOpHash' ms hd
    obtain ⟨hhash, hms, ⟨now', hlast, hlate⟩, hnull⟩ := h.notMined userOpHash' ms hd
    refine ⟨hhash, hms, ⟨now', by simp [List.getLast?_cons, hlast], hlate⟩, ?_⟩
    intro endpoint userOpHash reply hmem
    simp only [List.mem_cons, Sigma.mk.injEq, reduceCtorEq, false_and, false_or] at hmem
    obtain ⟨heq, hreply⟩ | hmem := hmem
    · cases heq
      exact eq_of_heq hreply
    · exact hnull endpoint userOpHash reply hmem

end

/-! ## Failures -/

def Failed : Exchange Question Answer → Prop
  | ⟨.sponsor .., reply⟩ => ∀ response, reply = .ok response → sponsorshipOf response = none
  | ⟨.estimate .., reply⟩ => ∀ result, reply = .result result → BundlerClient.gasEstimate result = none
  | ⟨.sign _, signature⟩ => signature = none
  | ⟨.send .., reply⟩ => ∀ userOpHash, reply ≠ .result userOpHash
  | ⟨.receipt .., reply⟩ => reply ≠ .result none ∧ ∀ raw, reply = .result (some raw) → BundlerClient.receiptOf raw = none
  | ⟨.now, _⟩ => False
  | ⟨.sleep _, _⟩ => False

section
variable {viem : Viem} {config : SponsoredBundlerConfig} {request : UserOperationRequest} {options : SendOptions}
  {client : BundlerClient} {op : UserOperation} {fuel : Nat}

theorem stopsAt_applySponsorshipTo {paymaster : PaymasterConfig} :
    StopsAt Failed (PaymasterClient.applySponsorshipTo viem paymaster op) := by
  refine stopsAt_bind (fun reply => ⟨?_, fun hfailed => ?_⟩) fun _ => trivial
  · exact stopsAt_bind (stopsAt_ofExcept _) fun _ => stopsAt_ofOption _ _
  · refine ofExcept_bind_throws fun response hresponse => ?_
    rw [hfailed response (httpApi_ok hresponse)]
    exact ⟨_, rfl⟩

theorem stopsAt_estimate {rpc : RpcUserOperation} {entryPoint : Data} :
    StopsAt Failed (client.estimateUserOperationGas rpc entryPoint) := by
  refine fun reply => ⟨stopsAt_bind (stopsAt_ofExcept _) fun _ => stopsAt_ofOption _ _, fun hfailed => ?_⟩
  refine ofExcept_bind_throws fun result hresult => ?_
  rw [hfailed result (jsonRpc_ok hresult)]
  exact ⟨_, rfl⟩

theorem stopsAt_prepareUserOperation : StopsAt Failed (prepareUserOperation viem config request options) := by
  unfold prepareUserOperation
  split
  · refine stopsAt_bind stopsAt_applySponsorshipTo fun stubbed => ?_
    refine stopsAt_bind stopsAt_estimate fun estimate => ?_
    refine stopsAt_bind stopsAt_applySponsorshipTo fun sponsored => ?_
    refine stopsAt_bind (stopsAt_ofExcept _) fun userOpHash => ?_
    refine stopsAt_bind (fun signature => ⟨stopsAt_ofOption _ _, fun hfailed => ?_⟩) fun _ => trivial
    cases signature with
    | none => exact ⟨_, rfl⟩
    | some signature => cases hfailed
  · trivial

theorem stopsAt_getUserOperationReceipt {userOpHash : Data} :
    StopsAt Failed (client.getUserOperationReceipt userOpHash) := by
  refine fun reply => ⟨stopsAt_bind (stopsAt_ofExcept _) fun raw => ?_, fun hfailed => ?_⟩
  · cases raw with
    | none => trivial
    | some raw => exact stopsAt_bind (stopsAt_ofOption _ _) fun _ => trivial
  · refine ofExcept_bind_throws fun raw hraw => ?_
    obtain rfl := jsonRpc_ok hraw
    cases raw with
    | none => exact absurd rfl hfailed.1
    | some raw => exact ⟨_, ofOption_bind_throws (hfailed.2 raw rfl)⟩

theorem stopsAt_poll {userOpHash : Data} {timeoutMs pollIntervalMs deadline : Nat} :
    StopsAt Failed (client.poll userOpHash timeoutMs pollIntervalMs deadline fuel) := by
  induction fuel with
  | zero => trivial
  | succ fuel ih =>
    refine fun now => ⟨?_, nofun⟩
    show StopsAt Failed (if now < deadline then _ else _)
    by_cases hnow : now < deadline
    · rw [if_pos hnow]
      refine stopsAt_bind stopsAt_getUserOperationReceipt fun receipt => ?_
      cases receipt with
      | none => exact fun _ => ⟨ih, nofun⟩
      | some receipt => trivial
    · rw [if_neg hnow]
      trivial

/-- After an answer that the source throws on, nothing is asked of anyone, and the call throws. -/
theorem nothing_after_failure {log before rest : Log} {d : Client UserOperationReceipt} {x : Exchange Question Answer}
    (h : After (sendUserOperation viem config request options fuel) log d) (hlog : log = before ++ x :: rest)
    (hfailed : Failed x) : rest = [] ∧ ∃ e, d = .throw e := by
  apply StopsAt.at_end _ h hlog hfailed
  refine stopsAt_bind stopsAt_prepareUserOperation fun op => ?_
  refine stopsAt_bind (fun reply => ⟨stopsAt_ofExcept _, fun hsend => ?_⟩) fun userOpHash => ?_
  · exact ofExcept_throws fun userOpHash hresult => hsend userOpHash (jsonRpc_ok hresult)
  · exact fun now => ⟨stopsAt_poll, nofun⟩

theorem nothing_after_failure_refused :
    ∃ (log : Log) (d : Client UserOperationReceipt),
      After (sendUserOperation (viemOf sponsoredKeccak) clientConfig clientRequest clientOptions 5) log d ∧
        log.length = 1 ∧ ∃ e, d = .throw e := by
  have hafter : After (sendUserOperation (viemOf sponsoredKeccak) clientConfig clientRequest clientOptions 5)
      [⟨.sponsor (paymaster clientConfig).url (some "Bearer key") (sponsorBody (viemOf sponsoredKeccak)
        (paymaster clientConfig).client (draftOf clientRequest 2000000000 1000000000)), .refused 402 none⟩] _ :=
    .told (.here _)
  exact ⟨_, _, hafter, rfl, (nothing_after_failure hafter (List.nil_append _).symm nofun).2⟩

end

end Paymaster.Sdk
