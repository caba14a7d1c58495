import Mathlib
import Paymaster.Backend.Reconciler
import Paymaster.Lib.Pool

/-!
# Which sponsorship a settled operation is booked on

Several attestations for one operation are normal, and its event says which
operation settled but not which of them it carried. `claim` takes the row that
was created last, so the cost is booked on the sponsorship that paid for it
exactly when that one is the newest that is still free.
-/

namespace Paymaster

section
variable {rows : List Sponsorship} {locked : List Nat} {chainId : Nat} {sender : Address} {nonce : Uint256}

theorem chosen_exists (rows : List Sponsorship) (locked : List Nat) (chainId : Nat) (sender : Address)
    (nonce : Uint256) : ∃ r, Chosen rows locked chainId sender nonce r := by
  by_cases h : (candidates rows locked chainId sender nonce).toFinset.Nonempty
  · obtain ⟨r, hr, hmax⟩ := Finset.exists_max_image _ (fun r => (rows[r]?).elim 0 Sponsorship.createdAt) h
    exact ⟨some r, List.mem_toFinset.mp hr, fun r' hr' => hmax r' (List.mem_toFinset.mpr hr')⟩
  · rw [List.toFinset_nonempty_iff, ne_eq, not_not] at h
    exact ⟨none, h⟩

/-- The claim has to return a given candidate exactly when it is the newest by far. -/
theorem chosen_only_iff {u : Nat} (hu : u ∈ candidates rows [] chainId sender nonce) :
    (∀ r, Chosen rows locked chainId sender nonce r → r = some u) ↔
      u ∉ locked ∧ ∀ r ∈ candidates rows locked chainId sender nonce, r ≠ u →
        (rows[r]?).elim 0 Sponsorship.createdAt < (rows[u]?).elim 0 Sponsorship.createdAt := by
  obtain ⟨row, hrow, hmatch, -⟩ := mem_candidates.mp hu
  constructor
  · intro h
    obtain ⟨r, hr⟩ := chosen_exists rows locked chainId sender nonce
    obtain rfl := h r hr
    obtain ⟨-, -, -, hlocked⟩ := mem_candidates.mp hr.1
    refine ⟨hlocked, fun r' hr' hne => ?_⟩
    -- A candidate no older would be a possible choice too.
    by_contra hlt
    have hother : Chosen rows locked chainId sender nonce (some r') :=
      ⟨hr', fun r'' hr'' => Nat.le_trans (hr.2 r'' hr'') (Nat.le_of_not_lt hlt)⟩
    exact hne (Option.some.inj (h (some r') hother))
  · rintro ⟨hlocked, hnewest⟩ r hr
    have hmem : u ∈ candidates rows locked chainId sender nonce := mem_candidates.mpr ⟨row, hrow, hmatch, hlocked⟩
    cases r with
    | none =>
      rw [Chosen] at hr
      rw [hr] at hmem
      cases hmem
    | some r =>
      by_contra hne
      have hlt := hnewest r hr.1 fun e => hne (congrArg some e)
      have hle := hr.2 u hmem
      omega

end

/-- **Correlation.** Each row was inserted for an attestation of its own. Of the
unreconciled rows of an operation, let `u` be the row of the attestation that the
settled operation carried. Whatever claim the store makes for its event returns
`u` exactly when no other claim holds `u` and every other free row of the
operation was created before it. -/
theorem claim_books_carried_iff (rows : List Sponsorship) (locked : List Nat) (event : UserOperationEvent) (u : Nat)
    (row : Sponsorship) (hrow : rows[u]? = some row) (hcarried : row.issuedBy = event.carried)
    (hmatch : row.matches event.chainId event.sender event.nonce = true)
    (hissued : (rows.map Sponsorship.issuedBy).Nodup) :
    (∀ r, Chosen rows locked event.chainId event.sender event.nonce r →
      ∃ booked row', r = some booked ∧ rows[booked]? = some row' ∧ row'.issuedBy = event.carried) ↔
      u ∉ locked ∧ ∀ r row', rows[r]? = some row' → row'.matches event.chainId event.sender event.nonce = true →
        r ∉ locked → r ≠ u → row'.createdAt < row.createdAt := by
  have hu : u ∈ candidates rows [] event.chainId event.sender event.nonce :=
    mem_candidates.mpr ⟨row, hrow, hmatch, List.not_mem_nil⟩
  have hbooked : ∀ r, (∃ booked row', r = some booked ∧ rows[booked]? = some row' ∧ row'.issuedBy = event.carried) ↔
      r = some u := by
    intro r
    constructor
    · rintro ⟨booked, row', rfl, hr, hi⟩
      rw [Pool.eq_of_nodup_map hissued hr hrow (hi.trans hcarried.symm)]
    · rintro rfl
      exact ⟨u, row, rfl, hrow, hcarried⟩
  simp only [hbooked, chosen_only_iff hu, mem_candidates, hrow, Option.elim_some]
  refine and_congr_right fun _ => ⟨fun h r row' hr hm hl hne => ?_, fun h r hr hne => ?_⟩
  · have := h r ⟨row', hr, hm, hl⟩ hne
    rwa [hr, Option.elim_some] at this
  · obtain ⟨row', hr, hm, hl⟩ := hr
    rw [hr, Option.elim_some]
    exact h r row' hr hm hl hne

/-- Two tenants sponsored one operation, the second a second later; the first's attestation landed. -/
def twiceSponsored : List Sponsorship :=
  [⟨0, "acme", 1, 4, 0, "key-a", "standard", 5000000000, 1700000000000000, none⟩,
    ⟨1, "globex", 1, 4, 0, "key-g", "standard", 9000000000, 1700000001000000, none⟩]

def firstLanded : UserOperationEvent := ⟨1, 100, 4, 0, 4000000000, true, 0⟩

/-- The only claim possible books the cost on the other tenant. -/
theorem twiceSponsored_misbooked :
    (∀ r, Chosen twiceSponsored [] firstLanded.chainId firstLanded.sender firstLanded.nonce r → r = some 1) ∧
      (twiceSponsored[1]?).map Sponsorship.issuedBy = some 1 ∧ firstLanded.carried = 0 ∧
      (twiceSponsored[0]?).map Sponsorship.tenantId = some "acme" ∧
      (twiceSponsored[1]?).map Sponsorship.tenantId = some "globex" := by
  refine ⟨fun r hr => ?_, by decide, rfl, by decide, by decide⟩
  have hc : candidates twiceSponsored [] firstLanded.chainId firstLanded.sender firstLanded.nonce = [0, 1] := by
    decide
  cases r with
  | none =>
    rw [Chosen, hc] at hr
    cases hr
  | some r =>
    obtain ⟨hmem, hmax⟩ := hr
    rw [hc] at hmem hmax
    rcases List.mem_cons.mp hmem with rfl | hmem
    · have := hmax 1 (by simp)
      revert this
      decide
    · rw [List.mem_singleton.mp hmem]

/-- Had the second attestation landed, the claim would have been right. -/
theorem claim_books_carried_second :
    (∃ r, Chosen twiceSponsored [] 1 4 0 r) ∧ ∀ r, Chosen twiceSponsored [] 1 4 0 r →
      ∃ booked row', r = some booked ∧ twiceSponsored[booked]? = some row' ∧ row'.issuedBy = 1 := by
  refine ⟨chosen_exists .., ?_⟩
  refine (claim_books_carried_iff twiceSponsored [] ⟨1, 100, 4, 0, 4000000000, true, 1⟩ 1 _ rfl rfl (by decide)
    (by decide)).mpr ⟨by simp, fun r row' hr hm _ hne => ?_⟩
  match r, hr with
  | 0, hr => cases hr; decide
  | 1, _ => exact absurd rfl hne

end Paymaster
