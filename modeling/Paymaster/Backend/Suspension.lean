import Paymaster.Backend.Accounts
import Paymaster.Backend.Conservation
import Paymaster.Backend.Noninterference

/-!
# Suspended tenants

`issue` refuses a tenant that is suspended when its membership is read; the
guard, which everything else goes through, does not look at the tenant. What
keeps a suspended tenant out of everything is therefore that none of its
requests gets past the guard.
-/

namespace Paymaster

namespace Database

variable {db : Database}

end Database

variable {Text : Type}

namespace Accounts

structure Fresh (s : Accounts Text) : Prop where
  pending : s.pending = []
  issues : s.issues = []
  started : s.started = []
  calls : s.service.calls = []

variable [DecidableEq Text] (deps : AccountDeps Text) (s : Accounts Text)

end Accounts

/-! ## Steps -/

section
variable {deps : AccountDeps Text} {s s' : Accounts Text}

open Accounts

section
variable [DecidableEq Text]

end

end

/-! ## A key of a suspended tenant -/

def acmeSecret : String := "pm_live_0123456789012345678901234567890123456789012"

theorem acmeKey_consistent : (none : Option Nat).isNone = true := rfl

def acmeKey : ApiKeyRow where
  tenantId := "acme"
  id := "key-1"
  name := "dApp"
  keyHash := acmeSecret
  displayPrefix := "pm_live_01234567"
  roles := ["sponsor"]
  policyId := none
  enabled := true
  createdAt := 0
  expiresAt := none
  lastUsedAt := none
  revokedAt := none
  consistent := acmeKey_consistent

theorem acmePolicy_distinct :
    (([⟨"acme", "standard", []⟩] : List Policy).map fun p => keyOf p.tenantId p.id).Nodup := List.nodup_singleton _

def acmeAccounts : Accounts String where
  time := 1700000000
  admin := { acmeAndGlobex [] with db := { (acmeAndGlobex []).db with apiKeys := [acmeKey] } }
  service := .start (fun _ => ⟨[⟨"acme", "standard", []⟩], acmePolicy_distinct⟩) fun _ => none
  pending := []
  issues := []
  started := []

def acmeDeps : AccountDeps String := ⟨sampleAdmin, none, sampleDeps, false⟩

end Paymaster
