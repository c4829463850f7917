import CallerGraph.Error

/-!
# Cancellation tokens

A token is a handle on a flag. A new token has a flag of its own, and a
copy of a token shares the flag of the token it copies, so whoever holds
any of them can ask for cancellation and all of them see it. The flag
itself can be handed out and set or reset directly.
-/

namespace CallerGraph

/-- Tokens, each the number of its flag, and the flags. -/
structure TokenTable where
  tokens : List Nat
  flags : List Bool
deriving DecidableEq, Repr

namespace TokenTable

/-- A single new token. -/
def single : TokenTable := ⟨[0], [false]⟩

/-- Adds a token with a flag of its own. -/
def create (table : TokenTable) : TokenTable :=
  ⟨table.tokens ++ [table.flags.length], table.flags ++ [false]⟩

/-- Adds a copy of a token. -/
def copy (table : TokenTable) (token : Nat) : TokenTable :=
  match table.tokens[token]? with
  | some flag => { table with tokens := table.tokens ++ [flag] }
  | none => table

/-- Sets the flag of a token. -/
def store (table : TokenTable) (token : Nat) (value : Bool) : TokenTable :=
  match table.tokens[token]? with
  | some flag => { table with flags := table.flags.set flag value }
  | none => table

/-- Asks for cancellation. -/
def cancel (table : TokenTable) (token : Nat) : TokenTable :=
  table.store token true

/-- Does the token see that cancellation was asked for? -/
def isCancelled (table : TokenTable) (token : Nat) : Bool :=
  ((table.tokens[token]?).bind fun flag => table.flags[flag]?).getD false

/-- Fails if the token sees that cancellation was asked for. -/
def check (table : TokenTable) (token : Nat) : Except GraphError Unit :=
  if table.isCancelled token then .error .cancelled else .ok ()

/-- The number of tokens. -/
def size (table : TokenTable) : Nat :=
  table.tokens.length

end TokenTable

end CallerGraph
