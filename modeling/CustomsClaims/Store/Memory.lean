import CustomsClaims.Number.Layout
import CustomsClaims.Store.Basic

/-!
# Stores in memory

A store whose state is the list of its claims; it never fails.
-/

namespace CustomsClaims.MemoryStore

def appending (c : Claim) : Event :=
  ⟨.debug, "Appending claim in memory", [("claim_id", signedText c.claimID.toInt)]⟩

/-- A store in memory. -/
def store : ClaimStore (List Claim) where
  list cs := ⟨.ok cs, [], cs⟩
  append c cs := ⟨.ok (), [appending c], cs ++ [c]⟩

end CustomsClaims.MemoryStore
