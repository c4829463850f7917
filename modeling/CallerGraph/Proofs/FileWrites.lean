import CallerGraph.Files.Host
import Mathlib.Data.List.Basic

/-!
# What happens to files

Making directories changes no file: a directory is only put where nothing was,
and there is no content to be seen in it.  Writing a file changes that file and
no other, and the path that was written leads to it afterwards, since no
directory on the way has become anything else.

`FileSystem.KeptAt` says of a place that nothing was lost there: its file is the
same, and what was there is there still.  Only a directory can have come, where
nothing was.  A machine does to its files what can be done to them, and to nothing
else.
-/

namespace CallerGraph

namespace FileSystem

/-- A sequence of two steps succeeds when both do. -/
theorem exists_of_bind_eq_ok {α β : Type} {first : Except Fault α} {next : α → Except Fault β}
    {value : β} (h : first >>= next = .ok value) :
    ∃ found, first = .ok found ∧ next found = .ok value := by
  cases first with
  | error fault => cases h
  | ok found => exact ⟨found, rfl, h⟩

variable {files after : FileSystem} {start place dir parts : List String} {path : String}
  {content : ByteArray} {name : String}

/-! ## One entry -/

theorem lookup_cons (key other : List String) (found : Entry)
    (entries : List (List String × Entry)) :
    ((key, found) :: entries).lookup other =
      if other = key then some found else entries.lookup other := by
  by_cases heq : other = key
  · rw [heq, List.lookup_cons_self, if_pos rfl]
  · rw [List.lookup_cons, beq_false_of_ne heq, if_neg heq]

/-- Putting something else at a known place shows there and nowhere else. -/
theorem lookup_replace (entries : List (List String × Entry)) (place : List String)
    (entry : Entry) (other : List String) :
    (entries.map fun known => if known.1 = place then (place, entry) else known).lookup other =
      if other = place then (entries.lookup place).map fun _ => entry
      else entries.lookup other := by
  induction entries with
  | nil => simp
  | cons known entries ih =>
      obtain ⟨key, found⟩ := known
      rw [List.map_cons]
      by_cases hkey : key = place
      · rw [if_pos hkey, lookup_cons, lookup_cons, lookup_cons, ih]
        grind
      · rw [if_neg hkey, lookup_cons, lookup_cons, lookup_cons, ih]
        grind

/-- What is put at a place is there, and everything else stays. -/
theorem lookup_put (files : FileSystem) (place : List String) (entry : Entry)
    (other : List String) :
    (files.put place entry).entries.lookup other =
      if other = place then some entry else files.entries.lookup other := by
  unfold put
  cases hknown : files.entries.lookup place with
  | some known =>
      rw [Option.isSome_some, if_pos rfl]
      simp only
      rw [lookup_replace, hknown, Option.map_some]
  | none =>
      rw [Option.isSome_none, if_neg Bool.false_ne_true]
      simp only [List.lookup_append, lookup_cons, List.lookup_nil]
      by_cases heq : other = place
      · rw [if_pos heq, if_pos heq, heq, hknown, Option.none_or]
      · rw [if_neg heq, if_neg heq, Option.or_none]

theorem entry?_put (files : FileSystem) (hplace : place ≠ []) (entry : Entry)
    (other : List String) :
    entry? (files.put place entry) other =
      if other = place then some entry else files.entry? other := by
  unfold entry?
  by_cases hroot : other = []
  · have hother : other ≠ place := hroot ▸ hplace.symm
    rw [if_pos hroot, if_neg hother, if_pos hroot]
  · rw [if_neg hroot, if_neg hroot, lookup_put]

/-- Relative paths start from where they did. -/
theorem startOf_put (files : FileSystem) (place : List String) (entry : Entry) (path : String) :
    (files.put place entry).startOf path = files.startOf path := by
  have hcurrent : (files.put place entry).current = files.current := by
    unfold put
    split <;> rfl
  unfold startOf
  rw [hcurrent]

/-- Is the file at a place as it was, and everything else that was there still
there? -/
structure KeptAt (files after : FileSystem) (place : List String) : Prop where
  content : after.content? place = files.content? place
  entry : ∀ entry, files.entry? place = some entry → after.entry? place = some entry

theorem KeptAt.refl (files : FileSystem) (place : List String) : files.KeptAt files place :=
  ⟨rfl, fun _ h => h⟩

theorem KeptAt.trans {between : FileSystem} (hfirst : files.KeptAt between place)
    (hthen : between.KeptAt after place) : files.KeptAt after place :=
  ⟨hthen.content.trans hfirst.content, fun entry h => hthen.entry entry (hfirst.entry entry h)⟩

theorem KeptAt.of_entry?_eq (h : after.entry? place = files.entry? place) :
    files.KeptAt after place := by
  constructor
  · unfold content?
    rw [h]
  · intro entry hentry
    rw [h, hentry]

/-- A directory where nothing was takes nothing away. -/
theorem keptAt_put_directory (hplace : place ≠ []) (hnone : files.entry? place = none)
    (other : List String) : files.KeptAt (files.put place .directory) other := by
  have hput := entry?_put files hplace .directory other
  by_cases heq : other = place
  · subst heq
    rw [if_pos rfl] at hput
    constructor
    · unfold content?
      rw [hput, hnone]
    · intro entry hentry
      rw [hnone] at hentry
      cases hentry
  · rw [if_neg heq] at hput
    exact .of_entry?_eq hput

/-! ## Walking -/

theorem walk_directory (hdot : name ≠ ".") (hdots : name ≠ "..")
    (hname : name.utf8ByteSize ≤ maxNameBytes)
    (hdir : files.entry? (place ++ [name]) = some .directory) (parts : List String) :
    files.walk place (name :: parts) = files.walk (place ++ [name]) parts := by
  rw [walk]
  · rw [if_neg (Nat.not_lt.2 hname), hdir]
  · exact hdot
  · exact hdots

theorem walk_file (hdot : name ≠ ".") (hdots : name ≠ "..")
    (hname : name.utf8ByteSize ≤ maxNameBytes)
    (hfile : files.entry? (place ++ [name]) = some (.file content)) :
    files.walk place [name] = .ok (place ++ [name]) := by
  rw [walk]
  · rw [if_neg (Nat.not_lt.2 hname), hfile]
    rfl
  · exact hdot
  · exact hdots

/-- A walk to a directory can be gone on with wherever the directories still
are. -/
theorem walk_append
    (hkeeps : ∀ place, files.entry? place = some .directory → after.entry? place = some .directory)
    (hwalk : files.walk start parts = .ok dir) (hdir : files.entry? dir = some .directory)
    (rest : List String) : after.walk start (parts ++ rest) = after.walk dir rest := by
  fun_induction walk files start parts with
  | case1 place =>
      cases hwalk
      rfl
  | case2 place parts ih => exact ih hwalk
  | case3 place parts ih => exact ih hwalk
  | case4 place name parts hdot hdots hlong => cases hwalk
  | case5 place name parts hdot hdots hshort hnone => cases hwalk
  | case6 place name parts hdot hdots hshort hentry ih =>
      rw [List.cons_append, walk_directory hdot hdots (Nat.not_lt.1 hshort) (hkeeps _ hentry)]
      exact ih hwalk
  | case7 place name hdot hdots hshort content hentry =>
      -- The walk ends at a file, not at a directory.
      cases hwalk
      rw [hdir] at hentry
      cases hentry
  | case8 place name parts hdot hdots hshort content hentry hrest => cases hwalk

/-- A target lies in a directory that its parts but the last lead to. -/
theorem exists_of_target (h : files.target start parts = .ok (some place)) :
    ∃ dir name, parts = parts.dropLast ++ [name] ∧ name ≠ "." ∧ name ≠ ".." ∧
      files.walk start parts.dropLast = .ok dir ∧ files.entry? dir = some .directory ∧
      name.utf8ByteSize ≤ maxNameBytes ∧ place = dir ++ [name] := by
  unfold target at h
  split at h
  case h_4 name hdot hdots hlast =>
    obtain ⟨dir, hwalk, h⟩ := exists_of_bind_eq_ok h
    split at h
    case h_1 hdir =>
      by_cases hlong : maxNameBytes < name.utf8ByteSize
      · rw [if_pos hlong] at h
        cases h
      · rw [if_neg hlong] at h
        cases h
        refine ⟨dir, name, ?_, hdot, hdots, hwalk, hdir, Nat.not_lt.1 hlong, rfl⟩
        exact (List.dropLast_append_getLast? name hlast).symm
    case h_2 => cases h
  -- Parts that end in dots have no target.
  all_goals
    obtain ⟨_, -, hnone⟩ := exists_of_bind_eq_ok h
    cases hnone

theorem ne_nil_of_target (h : files.target start parts = .ok (some place)) : place ≠ [] := by
  obtain ⟨dir, name, -, -, -, -, -, -, rfl⟩ := exists_of_target h
  exact List.append_ne_nil_of_right_ne_nil dir (List.cons_ne_nil name [])

/-! ## Making directories -/

theorem keptAt_makeDirectory (h : files.makeDirectory start parts = .ok after)
    (other : List String) : files.KeptAt after other := by
  unfold makeDirectory at h
  obtain ⟨found, htarget, h⟩ := exists_of_bind_eq_ok h
  cases found with
  | none => cases h
  | some place =>
      dsimp only at h
      split at h
      case h_1 => cases h
      case h_2 hnone =>
        cases h
        exact keptAt_put_directory (ne_nil_of_target htarget) hnone other

/-- However far it gets, making the missing directories takes nothing away. -/
theorem keptAt_makeParts (start : List String) (levels : Nat) (files : FileSystem)
    (parts other : List String) :
    files.KeptAt (makeParts start levels files parts).2 other := by
  fun_induction makeParts start levels files parts with
  | case1 => exact .refl _ other
  | case2 => exact .refl _ other
  | case3 levels files parts hparts after hmade => exact keptAt_makeDirectory hmade other
  | case4 levels files parts hparts hmissing fault after hrec ih =>
      rw [hrec] at ih
      exact ih
  | case5 levels files parts hparts hmissing made middle hrec after hmade ih =>
      rw [hrec] at ih
      exact ih.trans (keptAt_makeDirectory hmade other)
  | case6 levels files parts hparts hmissing made middle hrec fault hmade ih =>
      rw [hrec] at ih
      exact ih
  | case7 => exact .refl _ other

theorem keptAt_makeDirectories (files : FileSystem) (path : String) (other : List String) :
    files.KeptAt (files.makeDirectories path).2 other := by
  unfold makeDirectories
  split
  · exact .refl files other
  · split
    · exact .refl files other
    · exact keptAt_makeParts _ _ _ _ other

/-! ## Writing a file -/

/-- A file is written by putting it at the target of the path, which is no
directory and bears the name that the path ends in. -/
theorem exists_of_writeFile (h : files.writeFile path content = .ok after) :
    ∃ place, checkPath path = .ok () ∧ Path.endsInSlash path = false ∧
      files.target (files.startOf path) (Path.parts path) = .ok (some place) ∧
      files.entry? place ≠ some .directory ∧ after = files.put place (.file content) := by
  unfold writeFile at h
  obtain ⟨_, hcheck, h⟩ := exists_of_bind_eq_ok h
  obtain ⟨found, htarget, h⟩ := exists_of_bind_eq_ok h
  cases found with
  | none => cases h
  | some place =>
      dsimp only at h
      split at h
      case h_1 => cases h
      case h_2 => cases h
      case h_3 => cases h
      case h_4 hslash hentry =>
        cases h
        exact ⟨place, hcheck, hslash, htarget, hentry, rfl⟩

/-- Is the content the whole of the file that a path leads to now, where no
directory was before, and is everything kept at all other places? -/
structure Replaces (files : FileSystem) (path : String) (content : ByteArray)
    (after : FileSystem) : Prop where
  read : after.readFile path = .ok content
  kept : ∃ place, after.locate path = .ok place ∧ files.entry? place ≠ some .directory ∧
    ∀ other, other ≠ place → files.KeptAt after other

/-- What nothing was taken from before a file is written has that file replaced. -/
theorem Replaces.of_keptAt {between : FileSystem} (hkept : ∀ place, files.KeptAt between place)
    (h : between.Replaces path content after) : files.Replaces path content after := by
  obtain ⟨place, hlocate, hentry, hothers⟩ := h.kept
  exact ⟨h.read, place, hlocate, fun hbefore => hentry ((hkept place).entry _ hbefore),
    fun other hother => (hkept other).trans (hothers other hother)⟩

/-- A file that was written can be read by the same path, and no other file
has changed. -/
theorem replaces_writeFile (h : files.writeFile path content = .ok after) :
    files.Replaces path content after := by
  obtain ⟨place, hcheck, hslash, htarget, hentry, rfl⟩ := exists_of_writeFile h
  obtain ⟨dir, name, hparts, hdot, hdots, hwalk, hdir, hname, hplace⟩ := exists_of_target htarget
  have hput := entry?_put files (ne_nil_of_target htarget) (.file content)
  have hkeeps : ∀ known, files.entry? known = some .directory →
      entry? (files.put place (.file content)) known = some .directory := by
    intro known hknown
    have hne : known ≠ place := fun heq => hentry (heq ▸ hknown)
    rw [hput, if_neg hne, hknown]
  have hfound : entry? (files.put place (.file content)) place = some (.file content) := by
    rw [hput, if_pos rfl]
  have hlocate : (files.put place (.file content)).locate path = .ok place := by
    unfold locate
    rw [startOf_put, hcheck, hparts, walk_append hkeeps hwalk hdir]
    subst hplace
    rw [walk_file hdot hdots hname hfound]
    simp only [bind, Except.bind, hfound, hslash]
  refine ⟨?_, place, hlocate, hentry, ?_⟩
  · unfold readFile content?
    rw [hlocate]
    simp only [bind, Except.bind, hfound]
  · intro other hother
    apply KeptAt.of_entry?_eq
    rw [hput, if_neg hother]

end FileSystem

/-- How a host treats the files that are seen in its state.  Making directories
takes nothing away, however far it gets; writing a file replaces that one, or
changes no file when it fails. -/
structure Host.KeepsFiles {τ : Type} (host : Host (StateM τ)) (files : τ → FileSystem) : Prop where
  makes : ∀ path state place,
    (files state).KeptAt (files ((host.makeDirectories path).run state).2) place
  writes : ∀ path content state after,
    (host.writeFile path content).run state = (.ok (), after) →
      (files state).Replaces path content (files after)
  refuses : ∀ path content state fault after,
    (host.writeFile path content).run state = (.error fault, after) → files after = files state

namespace Machine

variable {α β : Type} {path : String} {content : ByteArray}

/-! ## On a machine -/

theorem run_bind (action : StateM Machine α) (next : α → StateM Machine β) (machine : Machine) :
    (action >>= next).run machine = (next (action.run machine).1).run (action.run machine).2 :=
  rfl

theorem run_writeFile_of_ok (machine : Machine) {files : FileSystem}
    (h : machine.files.writeFile path content = .ok files) :
    (host.writeFile path content).run machine = (.ok (), { machine with files }) := by
  change StateT.run (writeFile path content) machine = _
  unfold writeFile
  rw [StateT.run_modifyGet]
  simp only [h]
  rfl

theorem run_writeFile_of_error (machine : Machine) {fault : Fault}
    (h : machine.files.writeFile path content = .error fault) :
    (host.writeFile path content).run machine = (.error fault, machine) := by
  change StateT.run (writeFile path content) machine = _
  unfold writeFile
  rw [StateT.run_modifyGet]
  simp only [h]
  rfl

/-- **A machine treats its files as it should.** -/
theorem keepsFiles_host : host.KeepsFiles Machine.files where
  makes path machine place := FileSystem.keptAt_makeDirectories machine.files path place
  writes path content machine after h := by
    cases hwrite : machine.files.writeFile path content with
    | error fault =>
        rw [run_writeFile_of_error machine hwrite] at h
        cases h
    | ok files =>
        rw [run_writeFile_of_ok machine hwrite] at h
        cases h
        exact FileSystem.replaces_writeFile hwrite
  refuses path content machine fault after h := by
    cases hwrite : machine.files.writeFile path content with
    | error fault =>
        rw [run_writeFile_of_error machine hwrite] at h
        cases h
        rfl
    | ok files =>
        rw [run_writeFile_of_ok machine hwrite] at h
        cases h

end Machine

end CallerGraph
