import CallerGraph.CommandLine.Scan
import CallerGraph.Proofs.LabelGrammar

/-!
# Where the settings end

`Items` are settings flags with their values, said without any reading: a flag
and its value in one argument, or in two, and then the value may be anything.
Of the arguments behind the name of the program the settings get the longest
start that consists of items.  A flag whose value is missing can only be the
last argument of all, and then it belongs to the settings too.

The pass with a count and a waiting flag cuts at the same place.
-/

namespace CallerGraph

namespace ArgumentSplit

variable {tokens front rest : List String} {token flag value : String}

/-- Settings flags with their values, one after the other. -/
inductive Items : List String → Prop
  | nil : Items []
  | inline {flag value : String} {rest : List String} (hflag : flag ∈ settingsFlags)
      (hrest : Items rest) : Items ((flag ++ "=" ++ value) :: rest)
  | spaced {flag value : String} {rest : List String} (hflag : flag ∈ settingsFlags)
      (hrest : Items rest) : Items (flag :: value :: rest)

/-- Items, and behind them a flag whose value is missing. -/
def Unfinished (tokens : List String) : Prop :=
  ∃ items flag, Items items ∧ flag ∈ settingsFlags ∧ tokens = items ++ [flag]

/-- A start of the arguments that the settings may have: items, or all the
arguments when only the value of the last flag is missing. -/
def SettingsStart (tokens start : List String) : Prop :=
  start <+: tokens ∧ (Items start ∨ start = tokens ∧ Unfinished start)

/-- A settings flag, with or without its value. -/
def NamesSetting (token : String) : Prop :=
  token ∈ settingsFlags ∨ ∃ flag ∈ settingsFlags, ∃ value, token = flag ++ "=" ++ value

/-! ### One argument -/

/-- The flags start with two dashes and hold no equals sign. -/
theorem lead_of_mem_settingsFlags (h : flag ∈ settingsFlags) :
    "--".toList <+: flag.toList ∧ ∀ c ∈ flag.toList, (c != '=') = true := by
  have hflags : ∀ flag ∈ settingsFlags, "--".toList.isPrefixOf flag.toList = true ∧
      flag.toList.all (· != '=') = true := by decide
  obtain ⟨hlead, hplain⟩ := hflags flag h
  exact ⟨List.isPrefixOf_iff_prefix.1 hlead, List.all_eq_true.1 hplain⟩

/-- What stands before the first equals sign of a flag with its value. -/
theorem takeWhile_inline (h : flag ∈ settingsFlags) (value : String) :
    (flag ++ "=" ++ value).toList.takeWhile (· != '=') = flag.toList := by
  rw [String.toList_append, String.toList_append, List.append_assoc]
  exact Text.takeWhile_run (lead_of_mem_settingsFlags h).2 rfl

theorem takeWhile_flag (h : flag ∈ settingsFlags) :
    flag.toList.takeWhile (· != '=') = flag.toList :=
  List.takeWhile_eq_self_iff.2 (lead_of_mem_settingsFlags h).2

theorem isInline_iff :
    isInline token = true ↔ ∃ flag ∈ settingsFlags, ∃ value, token = flag ++ "=" ++ value := by
  rw [isInline, Bool.and_eq_true, List.contains_iff_mem, List.contains_iff_mem]
  constructor
  · rintro ⟨hequals, hflag⟩
    refine ⟨_, hflag, ?_⟩
    cases hbehind : token.toList.dropWhile (· != '=') with
    | nil =>
        have hall := List.dropWhile_eq_nil_iff.1 hbehind '=' hequals
        simp at hall
    | cons c cs =>
        obtain ⟨htoken, -, hc⟩ := Text.run_of_dropWhile_eq_cons hbehind
        obtain rfl : c = '=' := by simpa using hc
        refine ⟨String.ofList cs, String.toList_inj.1 ?_⟩
        simpa using htoken
  · rintro ⟨flag, hflag, value, rfl⟩
    refine ⟨by simp, ?_⟩
    rw [takeWhile_inline hflag, String.ofList_toList]
    exact hflag

theorem namesSetting_iff :
    NamesSetting token ↔ isInline token = true ∨ settingsFlags.contains token = true := by
  rw [isInline_iff, List.contains_iff_mem, or_comm]
  rfl

/-- A flag alone is not a flag with its value. -/
theorem isInline_of_mem (h : flag ∈ settingsFlags) : isInline flag = false := by
  rw [← Bool.not_eq_true, isInline, Bool.and_eq_true, List.contains_iff_mem]
  rintro ⟨hequals, -⟩
  exact absurd ((lead_of_mem_settingsFlags h).2 '=' hequals) (by decide)

/-! ### All arguments -/

theorem splitTokens_inline (h : isInline token = true) (tokens : List String) :
    splitTokens (token :: tokens) = (token :: (splitTokens tokens).1, (splitTokens tokens).2) := by
  rw [splitTokens.eq_def]
  exact if_pos h

theorem splitTokens_spaced (h : flag ∈ settingsFlags) (value : String) (tokens : List String) :
    splitTokens (flag :: value :: tokens) =
      (flag :: value :: (splitTokens tokens).1, (splitTokens tokens).2) := by
  rw [splitTokens, if_neg (by simp [isInline_of_mem h]), if_pos (List.contains_iff_mem.2 h)]

theorem splitTokens_flag (h : flag ∈ settingsFlags) : splitTokens [flag] = ([flag], []) := by
  rw [splitTokens, if_neg (by simp [isInline_of_mem h]), if_pos (List.contains_iff_mem.2 h)]

theorem splitTokens_other (h : ¬ NamesSetting token) (tokens : List String) :
    splitTokens (token :: tokens) = ([], token :: tokens) := by
  obtain ⟨hinline, hflag⟩ := not_or.1 (mt namesSetting_iff.2 h)
  rw [splitTokens.eq_def]
  exact (if_neg hinline).trans (if_neg hflag)

/-- **Items at the start are taken,** whatever follows. -/
theorem Items.splitTokens_append (h : Items front) (rest : List String) :
    splitTokens (front ++ rest) = (front ++ (splitTokens rest).1, (splitTokens rest).2) := by
  induction h with
  | nil => rfl
  | @inline flag value _ hflag _ ih =>
      have hinline : isInline (flag ++ "=" ++ value) = true :=
        isInline_iff.2 ⟨flag, hflag, value, rfl⟩
      rw [List.cons_append, splitTokens_inline hinline, ih]
      rfl
  | spaced hflag _ ih =>
      rw [List.cons_append, List.cons_append, splitTokens_spaced hflag, ih]
      rfl

/-- What is taken are items, but for a last flag with nothing behind it; and
what is left does not start with a setting. -/
theorem splitTokens_spec (tokens : List String) :
    (Items (splitTokens tokens).1 ∨
        (splitTokens tokens).2 = [] ∧ Unfinished (splitTokens tokens).1) ∧
      ∀ first ∈ (splitTokens tokens).2.head?, ¬ NamesSetting first := by
  fun_induction splitTokens tokens with
  | case1 => exact ⟨Or.inl .nil, fun first hfirst => by cases hfirst⟩
  | case2 token tokens hinline taken left hsplit ih =>
      rw [hsplit] at ih
      obtain ⟨flag, hflag, value, rfl⟩ := isInline_iff.1 hinline
      refine ⟨?_, ih.2⟩
      rcases ih.1 with hitems | ⟨hleft, items, last, hitems, hlast, htaken⟩
      · exact Or.inl (.inline hflag hitems)
      · exact Or.inr ⟨hleft, _, last, .inline hflag hitems, hlast, congrArg (_ :: ·) htaken⟩
  | case3 token hinline hflag =>
      rw [List.contains_iff_mem] at hflag
      exact ⟨Or.inr ⟨rfl, [], token, .nil, hflag, rfl⟩, fun first hfirst => by cases hfirst⟩
  | case4 token hinline hflag value tokens taken left hsplit ih =>
      rw [hsplit] at ih
      rw [List.contains_iff_mem] at hflag
      refine ⟨?_, ih.2⟩
      rcases ih.1 with hitems | ⟨hleft, items, last, hitems, hlast, htaken⟩
      · exact Or.inl (.spaced hflag hitems)
      · exact Or.inr ⟨hleft, _, last, .spaced hflag hitems, hlast,
          congrArg (token :: value :: ·) htaken⟩
  | case5 token tokens hinline hflag =>
      refine ⟨Or.inl .nil, ?_⟩
      rintro first ⟨⟩
      exact mt namesSetting_iff.1 (not_or.2 ⟨hinline, hflag⟩)

/-- **No start that the settings may have goes beyond what is taken.** -/
theorem SettingsStart.prefix_taken (h : SettingsStart tokens front) :
    front <+: (splitTokens tokens).1 := by
  obtain ⟨⟨rest, rfl⟩, hitems | ⟨hall, items, flag, hitems, hflag, rfl⟩⟩ := h
  · rw [hitems.splitTokens_append]
    exact List.prefix_append _ _
  · refine ⟨[], ?_⟩
    rw [← hall, hitems.splitTokens_append, splitTokens_flag hflag, List.append_nil]

theorem settingsStart_taken (tokens : List String) :
    SettingsStart tokens (splitTokens tokens).1 := by
  have hparts := splitTokens_append tokens
  refine ⟨⟨_, hparts⟩, ?_⟩
  rcases (splitTokens_spec tokens).1 with hitems | ⟨hleft, hunfinished⟩
  · exact Or.inl hitems
  · rw [hleft, List.append_nil] at hparts
    exact Or.inr ⟨hparts, hunfinished⟩

/-- What is left is not split again. -/
theorem splitTokens_left (tokens : List String) :
    splitTokens (splitTokens tokens).2 = ([], (splitTokens tokens).2) := by
  have hfirst := (splitTokens_spec tokens).2
  cases hleft : (splitTokens tokens).2 with
  | nil => rfl
  | cons first left =>
      rw [hleft] at hfirst
      exact splitTokens_other (hfirst first rfl) left

end ArgumentSplit

namespace ArgumentScan

open ArgumentSplit

variable {α : Type} {text : α → String} {settings arguments : List α} {count : Nat}

/-- The pass looks at one argument as the split does. -/
theorem valueFollows?_eq (argument : String) :
    valueFollows? argument =
      if isInline argument then some false
      else if settingsFlags.contains argument then some true else none := by
  by_cases hinline : isInline argument = true
  · obtain ⟨flag, hflag, value, rfl⟩ := isInline_iff.1 hinline
    have hlead : "--".toList.isPrefixOf (flag ++ "=" ++ value).toList = true := by
      rw [List.isPrefixOf_iff_prefix, String.toList_append, String.toList_append,
        List.append_assoc]
      exact (lead_of_mem_settingsFlags hflag).1.trans (List.prefix_append _ _)
    rw [if_pos hinline, valueFollows?, takeWhile_inline hflag, String.ofList_toList,
      if_pos ⟨hlead, List.contains_iff_mem.2 hflag⟩]
    simp
  · rw [if_neg hinline]
    by_cases hflag : argument ∈ settingsFlags
    · obtain ⟨hlead, hplain⟩ := lead_of_mem_settingsFlags hflag
      have hequals : argument.toList.contains '=' = false := by
        rw [← Bool.not_eq_true, List.contains_iff_mem]
        exact fun hmem => absurd (hplain '=' hmem) (by decide)
      rw [if_pos (List.contains_iff_mem.2 hflag), valueFollows?, takeWhile_flag hflag,
        String.ofList_toList,
        if_pos ⟨List.isPrefixOf_iff_prefix.2 hlead, List.contains_iff_mem.2 hflag⟩, hequals]
      rfl
    · rw [if_neg (mt List.contains_iff_mem.1 hflag), valueFollows?, if_neg]
      -- without an equals sign the argument would be the flag itself
      rintro ⟨-, hname⟩
      by_cases hequals : '=' ∈ argument.toList
      · exact hinline (by rw [isInline, List.contains_iff_mem.2 hequals, hname]; rfl)
      · have hplain : ∀ c ∈ argument.toList, (c != '=') = true := by
          intro c hc
          simpa using fun heq : c = '=' => hequals (heq ▸ hc)
        rw [List.takeWhile_eq_self_iff.2 hplain, String.ofList_toList, List.contains_iff_mem] at hname
        exact hflag hname

/-- A flag with its value is taken at once. -/
theorem step?_of_isInline {argument : α} (h : isInline (text argument) = true) :
    step? text ⟨settings, count, false⟩ argument =
      some ⟨settings ++ [argument], count + 1, false⟩ := by
  simp [step?, valueFollows?_eq, h]

/-- A flag without a value is taken, and waits. -/
theorem step?_of_mem {argument : α} (h : text argument ∈ settingsFlags) :
    step? text ⟨settings, count, false⟩ argument =
      some ⟨settings ++ [argument], count + 1, true⟩ := by
  simp [step?, valueFollows?_eq, isInline_of_mem h, h]

/-- Behind a flag that waits, any argument is taken. -/
theorem step?_pending (argument : α) :
    step? text ⟨settings, count, true⟩ argument =
      some ⟨settings ++ [argument], count + 1, false⟩ :=
  rfl

/-- Any other argument stops the pass. -/
theorem step?_of_not_namesSetting {argument : α} (h : ¬ NamesSetting (text argument)) :
    step? text ⟨settings, count, false⟩ argument = none := by
  obtain ⟨hinline, hflag⟩ := not_or.1 (mt namesSetting_iff.2 h)
  simp only [step?, valueFollows?_eq, if_neg hinline, if_neg hflag]
  rfl

/-- **The pass takes as many arguments as the split,** behind those that it
has. -/
theorem run_eq (settings : List α) (count : Nat) (arguments : List α) :
    let scan := run text ⟨settings, count, false⟩ arguments
    let taken := (splitTokens (arguments.map text)).1.length
    scan.settings = settings ++ arguments.take taken ∧ scan.count = count + taken := by
  generalize htokens : arguments.map text = tokens
  fun_induction splitTokens tokens generalizing settings count arguments with
  | case1 =>
      obtain rfl := List.map_eq_nil_iff.1 htokens
      simp [run]
  | case2 token tokens hinline taken left hsplit ih =>
      obtain ⟨argument, arguments, rfl, rfl, htail⟩ := List.map_eq_cons_iff.1 htokens
      have hrest := ih (settings ++ [argument]) (count + 1) arguments htail
      rw [hsplit] at hrest
      simp only [run, step?_of_isInline hinline, hrest, List.length_cons]
      exact ⟨by simp, by omega⟩
  | case3 token hinline hflag =>
      obtain ⟨argument, arguments, rfl, rfl, htail⟩ := List.map_eq_cons_iff.1 htokens
      obtain rfl := List.map_eq_nil_iff.1 htail
      simp [run, step?_of_mem (List.contains_iff_mem.1 hflag)]
  | case4 token hinline hflag value tokens taken left hsplit ih =>
      obtain ⟨argument, arguments, rfl, rfl, htail⟩ := List.map_eq_cons_iff.1 htokens
      obtain ⟨behind, arguments, rfl, rfl, hbehind⟩ := List.map_eq_cons_iff.1 htail
      have hrest := ih (settings ++ [argument] ++ [behind]) (count + 1 + 1) arguments hbehind
      rw [hsplit] at hrest
      simp only [run, step?_of_mem (List.contains_iff_mem.1 hflag), step?_pending, hrest,
        List.length_cons]
      exact ⟨by simp, by omega⟩
  | case5 token tokens hinline hflag =>
      obtain ⟨argument, arguments, rfl, rfl, htail⟩ := List.map_eq_cons_iff.1 htokens
      have hother : ¬ NamesSetting (text argument) :=
        mt namesSetting_iff.1 (not_or.2 ⟨hinline, hflag⟩)
      simp [run, step?_of_not_namesSetting hother]

/-- The pass splits where the texts of the arguments are split. -/
theorem split_cons (program : α) (arguments : List α) :
    split text (program :: arguments) =
      let taken := (splitTokens (arguments.map text)).1.length
      (program :: arguments.take taken, program :: arguments.drop taken) := by
  obtain ⟨hsettings, hcount⟩ := @run_eq α text [program] 0 arguments
  simp only [split, hsettings, hcount, Nat.zero_add]
  rfl

end ArgumentScan

open ArgumentSplit

/-- **The settings get the longest start of the arguments that they may have.**
Both halves start with the name of the program, and what follows it in the one
and in the other are the arguments, in order.  The settings have flags with
their values, but for a last flag of all arguments whose value is missing, and
no longer start of the arguments is of that form.  The command does not start
with a settings flag, and splitting it again gives it all back.  A pass that
counts cuts at the same place, whatever the arguments are besides text. -/
theorem settings_are_longest_start (program : String) (tokens : List String) :
    ∃ taken left, ofArguments (program :: tokens) = ⟨program :: taken, program :: left⟩ ∧
      taken ++ left = tokens ∧
      SettingsStart tokens taken ∧
      (∀ start, SettingsStart tokens start → start <+: taken) ∧
      (∀ first ∈ left.head?, ¬ NamesSetting first) ∧
      ofArguments (program :: left) = ⟨[program], program :: left⟩ ∧
      ∀ {α : Type} (text : α → String) (name : α) (arguments : List α),
        arguments.map text = tokens →
          ArgumentScan.split text (name :: arguments) =
            (name :: arguments.take taken.length, name :: arguments.drop taken.length) := by
  refine ⟨(splitTokens tokens).1, (splitTokens tokens).2, rfl, splitTokens_append tokens,
    settingsStart_taken tokens, fun start hstart => hstart.prefix_taken,
    (splitTokens_spec tokens).2, ?_, ?_⟩
  · rw [ofArguments, splitTokens_left]
  · rintro α text name arguments rfl
    exact ArgumentScan.split_cons name arguments

/-- Two settings, a command, and a settings flag that belongs to the command;
and the same arguments as lists of characters. -/
theorem settings_are_longest_start_import :
    let tokens := ["--log-format", "--indent-width", "--output-dir=", "import", "--log-filter"]
    let arguments := tokens.map String.toList
    SettingsStart tokens ["--log-format", "--indent-width"] ∧
      arguments.map String.ofList = tokens ∧
      ∃ taken left, ofArguments ("callchain" :: tokens) =
          ⟨"callchain" :: taken, "callchain" :: left⟩ ∧
        ["--log-format", "--indent-width"] <+: taken ∧ left.head? = some "import" ∧
        ¬ NamesSetting "import" ∧
        ArgumentScan.split String.ofList ([] :: arguments) =
          ([] :: arguments.take taken.length, [] :: arguments.drop taken.length) := by
  intro tokens arguments
  have hstart : SettingsStart tokens ["--log-format", "--indent-width"] :=
    ⟨⟨_, rfl⟩, Or.inl (.spaced (by decide) .nil)⟩
  have htexts : arguments.map String.ofList = tokens := by
    simp [arguments]
  obtain ⟨taken, left, hsplit, -, -, hlongest, hother, -, hscan⟩ :=
    settings_are_longest_start "callchain" tokens
  have hleft : left.head? = some "import" := by
    have hcommand := congrArg (fun split => split.command.tail.head?) hsplit
    exact hcommand.symm.trans (by decide)
  exact ⟨hstart, htexts, taken, left, hsplit, hlongest _ hstart, hleft, hother _ hleft,
    hscan String.ofList [] arguments htexts⟩

end CallerGraph
