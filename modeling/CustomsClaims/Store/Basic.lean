import CustomsClaims.Claim.Basic
import CustomsClaims.Log.Event
import CustomsClaims.Store.Error

/-!
# Stores of claims

A store lists its claims in the order in which they were appended, and appends claims. Stores differ
in their state. An operation may fail, or end without any answer (`Answer.panicked`).
-/

namespace CustomsClaims

/-- What a panic carries: a text, or something else. -/
inductive Payload where
  | text (s : String)
  | other
deriving DecidableEq, Repr

/-- How an operation of a store ends. -/
inductive Answer (α : Type) where
  | ok (a : α)
  | failed (e : StoreError)
  | panicked (p : Payload)
deriving DecidableEq, Repr

/-- An operation's end, what it logged, and the state after it. -/
structure Reply (σ α : Type) where
  answer : Answer α
  log : List Event
  state : σ

/-- A store of claims with states `σ`. -/
structure ClaimStore (σ : Type) where
  list : σ → Reply σ (List Claim)
  append : Claim → σ → Reply σ Unit

namespace BrokenStore

/-- A store whose operations all fail. -/
def failing (e : StoreError) : ClaimStore Unit where
  list _ := ⟨.failed e, [], ()⟩
  append _ _ := ⟨.failed e, [], ()⟩

/-- A store whose operations all panic. -/
def panicking (p : Payload) : ClaimStore Unit where
  list _ := ⟨.panicked p, [], ()⟩
  append _ _ := ⟨.panicked p, [], ()⟩

end BrokenStore
end CustomsClaims
