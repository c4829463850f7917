/-!
# Splitting the command line

The arguments of a run start with the name of the program. Behind it
stand, in front of the command, the flags for the settings. They are read
on their own, so the arguments are split in two: the settings flags, as
far as they go without a gap, and the rest. Each half starts with the name
of the program again.

A settings flag is one argument `--flag=value`, or the argument `--flag`
and the next one, whatever it is.
-/

namespace CallerGraph

/-- The arguments for the settings and those for the command. -/
structure ArgumentSplit where
  settings : List String
  command : List String
deriving DecidableEq, Repr

namespace ArgumentSplit

/-- The flags that belong to the settings. -/
def settingsFlags : List String :=
  ["--config-path", "--log-filter", "--log-format", "--output-dir", "--indent-width"]

/-- Is the argument a settings flag with its value behind an equals
sign? -/
def isInline (argument : String) : Bool :=
  let cs := argument.toList
  cs.contains '=' && settingsFlags.contains (String.ofList (cs.takeWhile (· != '=')))

/-- Splits the arguments behind the name of the program. -/
def splitTokens : List String → List String × List String
  | [] => ([], [])
  | token :: tokens =>
      if isInline token then
        let (taken, left) := splitTokens tokens
        (token :: taken, left)
      else if settingsFlags.contains token then
        match tokens with
        | [] => ([token], [])
        | value :: tokens =>
            let (taken, left) := splitTokens tokens
            (token :: value :: taken, left)
      else ([], token :: tokens)

/-- Splits the arguments of a run. -/
def ofArguments : List String → ArgumentSplit
  | [] => ⟨[], []⟩
  | program :: tokens =>
      let (taken, left) := splitTokens tokens
      ⟨program :: taken, program :: left⟩

/-- Splitting loses nothing and keeps the order. -/
theorem splitTokens_append (tokens : List String) :
    (splitTokens tokens).1 ++ (splitTokens tokens).2 = tokens := by
  fun_induction splitTokens tokens <;> simp_all

end ArgumentSplit

end CallerGraph
