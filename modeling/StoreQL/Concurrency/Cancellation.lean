/-
# Cancellation tokens

A token is a handle to a flag. Copies of a token share its flag, so that cancelling one cancels them
all, from whichever thread it is done; and a flag that is set stays set.
-/
namespace StoreQL.Concurrency

/-- Flags, and for each token the number of its flag. -/
structure Tokens where
  flags : List Bool
  owners : List Nat
deriving DecidableEq, Repr

namespace Tokens

/-- One token, which is not cancelled. -/
def single : Tokens := ⟨[false], [0]⟩

/-- A new token with a flag of its own. -/
def fresh (t : Tokens) : Tokens := ⟨t.flags ++ [false], t.owners ++ [t.flags.length]⟩

/-- The flag of a token. -/
def flagOf (t : Tokens) (token : Nat) : Nat := t.owners[token]?.getD 0

/-- A new token that shares the flag of another. -/
def copy (t : Tokens) (token : Nat) : Tokens := { t with owners := t.owners ++ [t.flagOf token] }

/-- Cancel a token. -/
def cancel (t : Tokens) (token : Nat) : Tokens :=
  { t with flags := t.flags.set (t.flagOf token) true }

/-- Whether a token is cancelled. -/
def isCancelled (t : Tokens) (token : Nat) : Bool := t.flags[t.flagOf token]?.getD false

/-- For each token, whether it is cancelled. -/
def states (t : Tokens) : List Bool := t.owners.map (fun flag => t.flags[flag]?.getD false)

end Tokens
end StoreQL.Concurrency
