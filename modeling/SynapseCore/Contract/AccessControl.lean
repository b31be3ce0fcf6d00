import SynapseCore.Contract.Types

/-! The access-control helpers of `admin.rs`. The caller is authenticated first, and compared
with the stored identities after that. -/

namespace Synapse
variable {Address : Type} [DecidableEq Address]

/-- The shape of a check: the caller authorised the call and is one of these. -/
def requireOneOf (auth : Address → Bool) (caller : Address) (identities : List Address) :
    Outcome ContractError Unit :=
  if !auth caller then none -- `require_auth` traps
  else if caller ∉ identities then some (.error .notAuthorized)
  else some (.ok ())

def requireAdmin (auth : Address → Bool) (caller admin : Address) : Outcome ContractError Unit :=
  requireOneOf auth caller [admin]

def requireRelayOrAdmin (auth : Address → Bool) (caller admin relaySigner : Address) :
    Outcome ContractError Unit := requireOneOf auth caller [admin, relaySigner]

def requirePendingAdmin (auth : Address → Bool) (caller pendingAdmin : Address) :
    Outcome ContractError Unit := requireOneOf auth caller [pendingAdmin]

section Checks
variable {auth : Address → Bool} {caller : Address} {identities : List Address}

theorem requireOneOf_of_mem (hauth : auth caller = true) (h : caller ∈ identities) :
    requireOneOf auth caller identities = some (.ok ()) := by
  simp [requireOneOf, hauth, h]

theorem requireOneOf_of_not_mem (hauth : auth caller = true) (h : caller ∉ identities) :
    requireOneOf auth caller identities = some (.error .notAuthorized) := by
  simp [requireOneOf, hauth, h]

end Checks
end Synapse
