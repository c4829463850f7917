import CallerGraph.Proofs.FileWrites
import CallerGraph.Rendering

/-!
# A graph in a file

Writing a graph to a file either gets it there, which is then all that has
changed, or fails and changes no file.  Directories may have been made in
either case.

Nothing is needed of the host but that it treats files as it should, so that
whatever stands in the way, and at whichever step, is covered.  The steps come
one after the other: what is kept by the first and replaced by the second is
replaced by both.
-/

namespace CallerGraph

namespace Target

section Run

variable {τ : Type} {host : Host (StateM τ)} {encode : Graph → Except RenderError String}
  {graph : Graph} {sink : Sink} {payload : String} {state middle after : τ} {fault : Fault}

/-- A graph that cannot be put into words leaves no trace. -/
theorem run_writing_of_error {error : RenderError} (hencode : encode graph = .error error) :
    (writing host encode graph sink).run state = (.error error, state) := by
  unfold writing
  rw [hencode]
  rfl

theorem run_writing_of_unmade (hencode : encode graph = .ok payload)
    (hmade : (host.makeDirectories sink.directory).run state = (.error fault, middle)) :
    (writing host encode graph sink).run state = (.error (.io sink.directory fault), middle) := by
  unfold writing
  rw [hencode]
  dsimp only
  rw [StateT.run_bind, hmade]
  rfl

theorem run_writing_of_made (hencode : encode graph = .ok payload)
    (hmade : (host.makeDirectories sink.directory).run state = (.ok (), middle)) :
    (writing host encode graph sink).run state =
      match (host.writeFile (sink.path "json") payload.toUTF8).run middle with
      | (.error fault, after) => (.error (.io (sink.path "json") fault), after)
      | (.ok _, after) => (.ok (sink.path "json"), after) := by
  unfold writing
  rw [hencode]
  dsimp only
  rw [StateT.run_bind, hmade]
  change (host.writeFile (sink.path "json") payload.toUTF8 >>= _).run middle = _
  rw [StateT.run_bind]
  cases hwrite : (host.writeFile (sink.path "json") payload.toUTF8).run middle with
  | mk written after =>
      cases written with
      | error fault => rfl
      | ok _ => rfl

end Run

/-- On a host that treats files as it should, words that there are for a graph get
to its file, or nothing is taken away. -/
theorem writing_replaces_or_keeps {τ : Type} {host : Host (StateM τ)} {files : τ → FileSystem}
    (hkeeps : host.KeepsFiles files) {encode : Graph → Except RenderError String} {graph : Graph}
    {payload : String} (hencode : encode graph = .ok payload) (sink : Sink) (state : τ) :
    let run := (writing host encode graph sink).run state
    (run.1 = .ok (sink.path "json") ∧
        (files state).Replaces (sink.path "json") payload.toUTF8 (files run.2)) ∨
      ∃ fault, (run.1 = .error (.io sink.directory fault) ∨
          run.1 = .error (.io (sink.path "json") fault)) ∧
        ∀ place, (files state).KeptAt (files run.2) place := by
  intro run
  have hkept := hkeeps.makes sink.directory state
  cases hmade : (host.makeDirectories sink.directory).run state with
  | mk made middle =>
      rw [hmade] at hkept
      cases made with
      | error fault =>
          have hrun : run = (.error (.io sink.directory fault), middle) :=
            run_writing_of_unmade hencode hmade
          rw [hrun]
          exact .inr ⟨fault, .inl rfl, hkept⟩
      | ok _ =>
          have hrun : run = _ := run_writing_of_made hencode hmade
          cases hwrite : (host.writeFile (sink.path "json") payload.toUTF8).run middle with
          | mk written after =>
              rw [hwrite] at hrun
              rw [hrun]
              cases written with
              | error fault =>
                  have hsame := hkeeps.refuses _ _ _ _ _ hwrite
                  refine .inr ⟨fault, .inr rfl, fun place => ?_⟩
                  rw [hsame]
                  exact hkept place
              | ok _ => exact .inl ⟨rfl, (hkeeps.writes _ _ _ _ hwrite).of_keptAt hkept⟩

/-- **Writing a graph touches one file.**  A machine treats its files as it should,
and on every host that does, whatever its files are, and whatever the directory and
the name of the sink:

* either the path of the sink is answered, the file there has the words of the graph
  for its whole content, and everything else is kept, or the answer is an error that
  names the directory or the path, and everything is kept;
* the path is answered whenever the directory can be made and the file be written
  then;
* a graph that cannot be put into words leaves everything as it was, also the
  directory. -/
theorem jsonFile_touches_one_file :
    Machine.host.KeepsFiles Machine.files ∧
      ∀ {τ : Type} (host : Host (StateM τ)) (files : τ → FileSystem), host.KeepsFiles files →
        ∀ (graph : Graph) (sink : Sink) (state : τ),
          let path := sink.path "json"
          let run := (jsonFile host graph sink).run state
          ((run.1 = .ok path ∧
              (files state).Replaces path graph.payload.toUTF8 (files run.2)) ∨
            ∃ fault, (run.1 = .error (.io sink.directory fault) ∨
                run.1 = .error (.io path fault)) ∧
              ∀ place, (files state).KeptAt (files run.2) place) ∧
          (∀ middle after,
            (host.makeDirectories sink.directory).run state = (.ok (), middle) →
            (host.writeFile path graph.payload.toUTF8).run middle = (.ok (), after) →
            run = (.ok path, after)) ∧
          ∀ (encode : Graph → Except RenderError String) (error : RenderError),
            encode graph = .error error →
              (writing host encode graph sink).run state = (.error error, state) := by
  refine ⟨Machine.keepsFiles_host, ?_⟩
  intro τ host files hkeeps graph sink state path run
  refine ⟨writing_replaces_or_keeps hkeeps rfl sink state, ?_,
    fun encode error hencode => run_writing_of_error hencode⟩
  intro middle after hmade hwrite
  have hrun : run = _ := run_writing_of_made rfl hmade
  rw [hrun, hwrite]

/-- A directory with one file in it, from which relative paths start. -/
def notesMachine : Machine where
  files := ⟨[(["home"], .directory), (["home", "notes"], .file "keep".toUTF8)], ["home"]⟩
  environment := []
  output := ""
  outputFault := none
  errorOutput := ""
  seed := 0
  isLogging := false
  interruptOnRead := none
  interruptOnQuestion _ := false
  interrupted := false

/-- A graph gets to a new directory; under a file there is no directory for it. -/
theorem jsonFile_touches_one_file_notesMachine :
    let graph : Graph := ⟨[], []⟩
    let deep := (jsonFile Machine.host graph ⟨"out/deep", "graph"⟩).run notesMachine
    let under := (jsonFile Machine.host graph ⟨"out", "/home/notes/graph"⟩).run notesMachine
    Machine.host.KeepsFiles Machine.files ∧
      deep.1 = .ok "out/deep/graph.json" ∧
      notesMachine.files.Replaces "out/deep/graph.json" graph.payload.toUTF8 deep.2.files ∧
      under.1 = .error (.io "/home/notes/graph.json" .notDirectory) ∧
      ∀ place, notesMachine.files.KeptAt under.2.files place := by
  intro graph deep under
  have hdeep : deep.1 = .ok "out/deep/graph.json" := by decide +kernel
  have hunder : under.1 = .error (.io "/home/notes/graph.json" .notDirectory) := by decide +kernel
  have hwritten := fun sink => (jsonFile_touches_one_file.2 Machine.host Machine.files
    Machine.keepsFiles_host graph sink notesMachine).1
  refine ⟨Machine.keepsFiles_host, hdeep, ?_, hunder, ?_⟩
  · obtain ⟨-, hreplaces⟩ | ⟨fault, hnamed | hnamed, -⟩ := hwritten ⟨"out/deep", "graph"⟩
    · exact hreplaces
    · cases hdeep.symm.trans hnamed
    · cases hdeep.symm.trans hnamed
  · obtain ⟨hpath, -⟩ | ⟨fault, -, hkept⟩ := hwritten ⟨"out", "/home/notes/graph"⟩
    · cases hunder.symm.trans hpath
    · exact hkept

end Target

end CallerGraph
