import CallerGraph.Proofs.Jobs

/-!
# How a run ends

A run ends in one of four ways: a graph was written and a line says so, help was
given, an analysis was given up without a word, or there is a message on the
standard error output.  Which of them it is, is decided by what the run has come
to: `Run.reach` is a job with the machine that it starts on, or what stands in
the way of one, and `Run.reported` is what became of the job.

Loading settings is a parameter.  All that is asked of it is that it is quiet, as
a function of the arguments is, and as the usual way to load settings is by
`Settings.quiet_load`.
-/

namespace CallerGraph

namespace Command

variable {settings : Settings} {machine left : Machine} {command : Command} {events : List Event}

end Command

namespace Run

/-- The ways in which a run can end. -/
inductive Ending where
  | wrote
  | helped
  | interrupted
  | failed
deriving DecidableEq, Repr

/-- The command in the arguments of a run. -/
def commandOf (arguments : List String) : Except UsageError Command :=
  Command.parse (ArgumentSplit.ofArguments arguments).command.tail

/-- What comes of loading the settings of a run, and the machine afterwards. -/
def loading (load : Loader (StateM Machine)) (arguments : List String) (machine : Machine) :
    Except SettingsError Settings × Machine :=
  (load (ArgumentSplit.ofArguments arguments).settings.tail).run machine

/-- Is there a log, or can one be set up? -/
def logs (settings : Settings) (machine : Machine) : Bool :=
  (LogFilter.parse? settings.logFilter).isSome || machine.isLogging

/-- The ending that belongs to a report or an error. -/
def Ending.of : Except CommandError Report → Ending
  | .ok _ => .wrote
  | .error (.usage .help) => .helped
  | .error (.analysis .cancelled) => .interrupted
  | .error _ => .failed

/-- What a run comes to before it builds a graph: a job, and the machine after
everything that it needs was read, or what stands in the way. -/
def reach (load : Loader (StateM Machine)) (arguments : List String) (machine : Machine) :
    Except CommandError (Job × Machine) := do
  let command ← (commandOf arguments).mapError .usage
  let settings ← (loading load arguments machine).1.mapError .settings
  let loaded := (loading load arguments machine).2
  if logs settings loaded then do
    let job ← command.job settings loaded
    pure (job, loaded.afterReading command.input)
  else .error (.logFilter settings.logFilter)

/-- What a run has to report. -/
def reported (load : Loader (StateM Machine)) (arguments : List String) (machine : Machine) :
    Except CommandError Report :=
  (reach load arguments machine).bind fun reached => (reached.1.carriedOut.run reached.2).1

/-- How a run ends, by what it has come to, and what it leaves behind. -/
inductive Ends (load : Loader (StateM Machine)) (arguments : List String) (machine : Machine)
    (finish : Finish) (left : Machine) : Ending → Prop
  /-- The graph of the job is in its file, which is the only one to have
  changed, and a line tells so. -/
  | wrote {job : Job} {reached : Machine} {report : Report} {place : List String}
      (reaches : reach load arguments machine = .ok (job, reached))
      (reports : (job.carriedOut.run reached).1 = .ok report)
      (path : report.written = job.sink.path "json")
      (status : finish.status = 0)
      (output : left.output = machine.output ++ report.summary.line)
      (errorOutput : left.errorOutput = machine.errorOutput)
      (content : left.files.readFile report.written = .ok report.graph.payload.toUTF8)
      (located : left.files.locate report.written = .ok place)
      (others : ∀ other, other ≠ place →
        left.files.content? other = machine.files.content? other) :
      Ends load arguments machine finish left .wrote
  /-- Help was asked for and given, and nothing else was done. -/
  | helped
      (asked : commandOf arguments = .error .help)
      (status : finish.status = 0)
      (leaves : left = { machine with output := machine.output ++ Command.helpText }) :
      Ends load arguments machine finish left .helped
  /-- The analysis was given up. -/
  | interrupted {given : MapAnalysis} {reached : Machine}
      (reaches : reach load arguments machine = .ok (.analysis given, reached))
      (cancelled : ((given.analyse (.jsonFile Machine.host)).run reached).1.1 = .error .cancelled)
      (status : finish.status = 130)
      (output : left.output = machine.output)
      (errorOutput : left.errorOutput = machine.errorOutput)
      (files : left.files = machine.files) :
      Ends load arguments machine finish left .interrupted
  /-- Something went wrong, of which there is a message. -/
  | failed {error : CommandError}
      (reports : reported load arguments machine = .error error)
      (help : error ≠ .usage .help)
      (cancelled : error ≠ .analysis .cancelled)
      (status : finish.status = 1)
      (output : left.output = machine.output)
      (errorOutput : left.errorOutput = machine.errorOutput ++ (error.message ++ "\n"))
      (contents : left.files.content? = machine.files.content?) :
      Ends load arguments machine finish left .failed

section

variable {load : Loader (StateM Machine)} {arguments : List String} {machine loaded left : Machine}
  {command : Command} {settings : Settings}

/-! ## Stages of a run -/

end

end Run

end CallerGraph
