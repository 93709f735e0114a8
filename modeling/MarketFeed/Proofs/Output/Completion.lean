import MarketFeed.Output.Csv
import MarketFeed.Output.EventLog

/-!
# What Outputs Leave Behind

The folder after its outputs were begun or completed, and after a failure.

Outputs are begun one after the other, and completed in the same order. The
first that is refused ends the steps. No step takes back what an earlier one
did, so after a failure the outputs before the refused one are as a success
would have left them: begun ones are open under their staging names, and
completed ones have their final names. The refused output and those behind it
have lost nothing that was written, but they stay under their staging names.
Everything else in the folder is as it was.

If all outputs could be completed, then each of them stands under its final
name with its whole content, and no staging name is left.

Tables and logs differ in their files alone, so this is shown once for any
list of files.

## Main definitions

* `Folder.Unstageable`, `Folder.Uncommittable`: The system refuses a step.
* `Folder.stageAll`, `Folder.finishAll`: The steps of an output with any
  files.
* `Folder.Stops`: Steps end at the first file that is refused.
* `Folder.Begins`, `Folder.Completes`: What the steps leave behind.

## Theorems

* `begins_stageAll`, `completes_finishAll`: For any list of files.
* `Completes.of_ok`: After a success everything is in place.
* `outputs_leave`: For the tables and for the log.
* `finish_leaves_updates`: After a failure one of the tables may be in place.
-/

namespace MarketFeed

namespace Folder

variable {path name other : String} {content : Bytes} {f f' : Folder}

/-! ## Names -/

theorem length_staging (name : String) : (staging name).length = name.length + 8 := by
  rw [staging, String.length_append]
  rfl

/-- No name is its own staging name. -/
theorem staging_ne (name : String) : name ≠ staging name := fun h => by
  have hlength := congrArg String.length h
  rw [length_staging] at hlength
  omega

/-- Two names have two staging names. -/
theorem staging_inj (h : staging name = staging other) : name = other := by
  have hlist := congrArg String.toList h
  simp only [staging, String.toList_append, List.append_cancel_right_eq] at hlist
  exact String.toList_inj.mp hlist

/-! ## One file -/

/-- The system refuses to begin the file. -/
def Unstageable (path : String) (f : Folder) (name : String) : Prop :=
  Path.isTooLong (stagedPath path name) = true ∨ f.lookup? (staging name) = some .folder

/-- The system refuses to give a file its final name. -/
def Uncommittable (path : String) (f : Folder) (name : String) : Prop :=
  Path.isTooLong (Path.join path name) = true ∨ f.lookup? name = some .folder

/-- A file that cannot be staged is an error, and nothing has changed. -/
theorem stage_of_unstageable (h : Unstageable path f name) :
    ∃ e, stage path name f = (.error e, f) := by
  unfold stage
  by_cases hlong : Path.isTooLong (stagedPath path name) = true
  · exact ⟨_, if_pos hlong⟩
  · have hfolder := h.resolve_left hlong
    simp only [if_neg hlong, hfolder]
    exact ⟨_, rfl⟩

/-- Otherwise there is an empty file under its staging name. -/
theorem stage_of_not_unstageable (h : ¬ Unstageable path f name) :
    stage path name f = (.ok (), f.put (staging name) (.file [])) := by
  unfold stage
  simp only [if_neg fun hlong => h (Or.inl hlong)]
  split
  · next hfolder => exact absurd (Or.inr hfolder) h
  · rfl

/-- A file that cannot take its final name is an error, and nothing has
    changed. -/
theorem commit_of_uncommittable (hstaged : f.lookup? (staging name) = some (.file content))
    (h : Uncommittable path f name) : ∃ e, commit path name f = (.error e, f) := by
  unfold commit
  by_cases hlong : Path.isTooLong (Path.join path name) = true
  · exact ⟨_, if_pos hlong⟩
  · have hfolder := h.resolve_left hlong
    simp only [if_neg hlong, hstaged, hfolder]
    exact ⟨_, rfl⟩

/-- Otherwise it has its final name and no longer its staging name. -/
theorem commit_of_not_uncommittable (hstaged : f.lookup? (staging name) = some (.file content))
    (h : ¬ Uncommittable path f name) :
    commit path name f = (.ok (), (f.erase (staging name)).put name (.file content)) := by
  unfold commit
  simp only [if_neg fun hlong => h (Or.inl hlong), hstaged]
  cases hfinal : f.lookup? name with
  | none => rfl
  | some entry =>
      cases entry with
      | file replaced => rfl
      | folder => exact absurd (Or.inr hfinal) h

/-! ## Files one after the other -/

/-- Begin files one after the other. -/
def stageAll (path : String) : List String → Storing Unit
  | [] => .done ()
  | name :: rest => (stage path name).andThen fun _ => stageAll path rest

/-- Let files take their final names one after the other. -/
def commitAll (path : String) : List String → Storing Unit
  | [] => .done ()
  | name :: rest => (commit path name).andThen fun _ => commitAll path rest

/-- Write the content of files that have been begun. -/
def fillAll (files : List (String × Bytes)) (f : Folder) : Folder :=
  files.foldl (fun f file => f.fill file.1 file.2) f

/-- Write the content of files, and let them take their final names. -/
def finishAll (path : String) (files : List (String × Bytes)) : Storing Unit := fun f =>
  commitAll path (files.map Prod.fst) (fillAll files f)

/-- Steps over names have gone through the first of them and ended at the next,
    which is the first that is refused, or with success behind the last. -/
structure Stops {α : Type} (Refused : String → Prop) (done left : List String)
    (result : Except OutputError α) : Prop where
  accepted : ∀ name ∈ done, ¬ Refused name
  ended :
    match left, result with
    | [], .ok _ => True
    | name :: _, .error _ => Refused name
    | _, _ => False

variable {α β : Type} {Refused Refused' : String → Prop} {passed left : List String}
  {result : Except OutputError α}

/-- Where the same names are refused, steps stop at the same place. -/
theorem Stops.congr (h : Stops Refused passed left result)
    (hiff : ∀ name ∈ passed ++ left, Refused name ↔ Refused' name) :
    Stops Refused' passed left result := by
  refine ⟨fun name hname hrefused => h.accepted name hname
    ((hiff name (List.mem_append_left left hname)).mpr hrefused), ?_⟩
  have hended := h.ended
  cases left with
  | nil => cases result <;> exact hended
  | cons name rest =>
      cases result with
      | ok a => exact hended
      | error e =>
          exact (hiff name (List.mem_append_right passed List.mem_cons_self)).mp hended

theorem Stops.map (h : Stops Refused passed left result) (g : α → β) :
    Stops Refused passed left (result.map g) := by
  refine ⟨h.accepted, ?_⟩
  have hended := h.ended
  cases left <;> cases result <;> exact hended

theorem Stops.cons (hname : ¬ Refused name) (h : Stops Refused passed left result) :
    Stops Refused (name :: passed) left result :=
  ⟨List.forall_mem_cons.mpr ⟨hname, h.accepted⟩, h.ended⟩

theorem stops_at_first {e : OutputError} (h : Refused name) (rest : List String) :
    Stops Refused [] (name :: rest) (.error e : Except OutputError α) :=
  ⟨fun _ h => (List.not_mem_nil h).elim, h⟩

theorem stops_nil (a : α) : Stops Refused [] [] (.ok a) :=
  ⟨fun _ h => (List.not_mem_nil h).elim, trivial⟩

/-! ## Beginning -/

/-- What beginning files leaves behind: those in front of the first that is
    refused are open and empty, and nothing else has changed. -/
structure Begun (f f' : Folder) (names : List String) : Prop where
  staged : ∀ name ∈ names, f'.lookup? (staging name) = some (.file [])
  others : ∀ other, (∀ name ∈ names, other ≠ staging name) → f'.lookup? other = f.lookup? other

/-- The steps that begin files, from start to end. -/
def Begins (path : String) (names : List String) (f : Folder)
    (outcome : Except OutputError α × Folder) : Prop :=
  ∃ begun left, names = begun ++ left ∧ Begun f outcome.2 begun ∧
    Stops (Unstageable path f) begun left outcome.1

theorem begun_nil (f : Folder) : Begun f f [] :=
  ⟨fun _ h => (List.not_mem_nil h).elim, fun _ _ => rfl⟩

/-- A file that is staged first has begun with those behind it. -/
theorem Begun.cons {begun : List String} (h : Begun (f.put (staging name) (.file [])) f' begun) :
    Begun f f' (name :: begun) := by
  refine ⟨?_, ?_⟩
  · intro one hone
    by_cases hagain : one ∈ begun
    · exact h.staged one hagain
    · obtain rfl : one = name := (List.mem_cons.mp hone).resolve_right hagain
      -- No later file has this staging name, so it is as the first step left it.
      rw [h.others (staging one) fun name hname heq => hagain (staging_inj heq ▸ hname),
        lookup?_put_self]
  · intro other hother
    have hne := hother name List.mem_cons_self
    rw [h.others other fun one hone => hother one (List.mem_cons_of_mem _ hone),
      lookup?_put_of_ne hne.symm]

/-- A file that was begun changes nothing about whether another can be. -/
theorem unstageable_put_iff (hname : ¬ Unstageable path f name) :
    Unstageable path (f.put (staging name) (.file [])) other ↔ Unstageable path f other := by
  by_cases hsame : staging name = staging other
  · obtain rfl := staging_inj hsame
    refine iff_of_false (fun h => ?_) hname
    rcases h with hlong | hfolder
    · exact hname (Or.inl hlong)
    · rw [lookup?_put_self] at hfolder
      cases hfolder
  · rw [Unstageable, Unstageable, lookup?_put_of_ne hsame]

/-- Staging goes through the names up to the first that cannot be staged. -/
theorem begins_stageAll (path : String) (names : List String) (f : Folder) :
    Begins path names f (stageAll path names f) := by
  induction names generalizing f with
  | nil => exact ⟨[], [], rfl, begun_nil f, stops_nil ()⟩
  | cons name rest ih =>
      rw [stageAll, Storing.andThen]
      by_cases hrefused : Unstageable path f name
      · obtain ⟨e, he⟩ := stage_of_unstageable hrefused
        rw [he]
        exact ⟨[], name :: rest, rfl, begun_nil f, stops_at_first hrefused rest⟩
      · rw [stage_of_not_unstageable hrefused]
        obtain ⟨begun, left, rfl, hbegun, hstops⟩ := ih (f.put (staging name) (.file []))
        exact ⟨name :: begun, left, rfl, hbegun.cons,
          (hstops.congr fun _ _ => unstageable_put_iff hrefused).cons hrefused⟩

/-! ## Completing -/

/-- No two files have one name, and no name is the staging name of a file. -/
structure Apart (files : List (String × Bytes)) : Prop where
  names : files.Pairwise fun file other => file.1 ≠ other.1
  staging : ∀ file ∈ files, ∀ other ∈ files, file.1 ≠ staging other.1

/-- What completing files leaves behind: those in front of the first that is
    refused have their final names and no staging names any more, those behind
    it still have their staging names, and nothing else has changed. -/
structure Completed (f f' : Folder) (done left : List (String × Bytes)) : Prop where
  placed : ∀ file ∈ done, f'.lookup? file.1 = some (.file file.2)
  unstaged : ∀ file ∈ done, f'.lookup? (staging file.1) = none
  staged : ∀ file ∈ left, f'.lookup? (staging file.1) = some (.file file.2)
  kept : ∀ file ∈ left, f'.lookup? file.1 = f.lookup? file.1
  others : ∀ other, (∀ file ∈ done ++ left, other ≠ file.1 ∧ other ≠ staging file.1) →
    f'.lookup? other = f.lookup? other

/-- The steps that complete files, from start to end. -/
def Completes (path : String) (files : List (String × Bytes)) (f : Folder)
    (outcome : Except OutputError α × Folder) : Prop :=
  ∃ done left, files = done ++ left ∧ Completed f outcome.2 done left ∧
    Stops (Uncommittable path f) (done.map Prod.fst) (left.map Prod.fst) outcome.1

variable {files done left : List (String × Bytes)} {file : String × Bytes}

theorem Apart.tail (h : Apart (file :: files)) : Apart files :=
  ⟨h.names.of_cons, fun one hone other hother =>
    h.staging one (List.mem_cons_of_mem _ hone) other (List.mem_cons_of_mem _ hother)⟩

theorem Apart.ne (h : Apart (file :: files)) {other : String × Bytes} (hother : other ∈ files) :
    file.1 ≠ other.1 :=
  List.rel_of_pairwise_cons h.names hother

/-- Before the first file has taken its name all are still staged. -/
theorem completed_nil
    (hstaged : ∀ file ∈ files, f.lookup? (staging file.1) = some (.file file.2)) :
    Completed f f [] files :=
  ⟨fun _ h => (List.not_mem_nil h).elim, fun _ h => (List.not_mem_nil h).elim, hstaged,
    fun _ _ => rfl, fun _ _ => rfl⟩

/-- A file that takes its final name concerns its two names alone. -/
theorem lookup?_committed_of_ne (hname : other ≠ name) (hstaging : other ≠ staging name)
    (entry : Entry) :
    ((f.erase (staging name)).put name entry).lookup? other = f.lookup? other := by
  rw [lookup?_put_of_ne hname.symm, lookup?_erase_of_ne hstaging.symm]

/-- The first of several files has taken its final name, and then the others
    were completed. -/
theorem Completed.cons (hapart : Apart (file :: (done ++ left)))
    (h : Completed ((f.erase (staging file.1)).put file.1 (.file file.2)) f' done left) :
    Completed f f' (file :: done) left := by
  -- No other file has this name or this staging name, so placing the others
  -- leaves both alone.
  have hself : ∀ other ∈ done ++ left, file.1 ≠ other.1 ∧ file.1 ≠ staging other.1 :=
    fun other hother => ⟨hapart.ne hother,
      hapart.staging file List.mem_cons_self other (List.mem_cons_of_mem _ hother)⟩
  have hstaging : ∀ other ∈ done ++ left,
      staging file.1 ≠ other.1 ∧ staging file.1 ≠ staging other.1 :=
    fun other hother => ⟨fun heq => hapart.staging other (List.mem_cons_of_mem _ hother) file
      List.mem_cons_self heq.symm, fun heq => hapart.ne hother (staging_inj heq)⟩
  refine ⟨?_, ?_, h.staged, ?_, ?_⟩
  · refine List.forall_mem_cons.mpr ⟨?_, h.placed⟩
    rw [h.others file.1 hself, lookup?_put_self]
  · refine List.forall_mem_cons.mpr ⟨?_, h.unstaged⟩
    rw [h.others (staging file.1) hstaging, lookup?_put_of_ne (staging_ne file.1),
      lookup?_erase_self]
  · intro other hother
    have hmem := List.mem_append_right done hother
    rw [h.kept other hother,
      lookup?_committed_of_ne (hself other hmem).1.symm (hstaging other hmem).1.symm]
  · intro other hother
    have hfile := hother file List.mem_cons_self
    rw [h.others other fun one hone => hother one (List.mem_cons_of_mem _ hone),
      lookup?_committed_of_ne hfile.1 hfile.2]

/-- Files take their final names up to the first that cannot. -/
theorem completes_commitAll (path : String) (hapart : Apart files)
    (hstaged : ∀ file ∈ files, f.lookup? (staging file.1) = some (.file file.2)) :
    Completes path files f (commitAll path (files.map Prod.fst) f) := by
  induction files generalizing f with
  | nil => exact ⟨[], [], rfl, completed_nil hstaged, stops_nil ()⟩
  | cons file files ih =>
      have hfile := hstaged file List.mem_cons_self
      rw [List.map_cons, commitAll, Storing.andThen]
      by_cases hrefused : Uncommittable path f file.1
      · obtain ⟨e, he⟩ := commit_of_uncommittable hfile hrefused
        rw [he]
        exact ⟨[], file :: files, rfl, completed_nil hstaged, stops_at_first hrefused _⟩
      · rw [commit_of_not_uncommittable hfile hrefused]
        -- The other files are still there under their staging names, and what
        -- stands under their final names is what stood there.
        have hsame : ∀ other ∈ files,
            other.1 ≠ file.1 ∧ other.1 ≠ staging file.1 :=
          fun other hother => ⟨(hapart.ne hother).symm,
            hapart.staging other (List.mem_cons_of_mem _ hother) file List.mem_cons_self⟩
        have hrest : ∀ other ∈ files,
            ((f.erase (staging file.1)).put file.1 (.file file.2)).lookup? (staging other.1)
              = some (.file other.2) := fun other hother => by
          rw [lookup?_committed_of_ne _ fun heq => (hsame other hother).1 (staging_inj heq),
            hstaged other (List.mem_cons_of_mem _ hother)]
          exact fun heq => hapart.staging file List.mem_cons_self other
            (List.mem_cons_of_mem _ hother) heq.symm
        obtain ⟨done, left, rfl, hcompleted, hstops⟩ := ih hapart.tail hrest
        refine ⟨file :: done, left, rfl, hcompleted.cons hapart,
          (hstops.congr fun name hname => ?_).cons hrefused⟩
        rw [← List.map_append] at hname
        obtain ⟨other, hother, rfl⟩ := List.mem_map.mp hname
        rw [Uncommittable, Uncommittable,
          lookup?_committed_of_ne (hsame other hother).1 (hsame other hother).2]

/-! ## Writing and completing -/

/-- Filling touches the staging names alone. -/
theorem lookup?_fillAll_of_ne (hother : ∀ file ∈ files, other ≠ staging file.1) :
    (fillAll files f).lookup? other = f.lookup? other := by
  induction files generalizing f with
  | nil => rfl
  | cons file files ih =>
      rw [fillAll, List.foldl_cons, ← fillAll,
        ih fun one hone => hother one (List.mem_cons_of_mem _ hone), fill,
        lookup?_put_of_ne (hother file List.mem_cons_self).symm]

/-- A staged file is filled with its own content. -/
theorem lookup?_fillAll_staging (hapart : Apart files) (hfile : file ∈ files) :
    (fillAll files f).lookup? (staging file.1) = some (.file file.2) := by
  induction files generalizing f with
  | nil => cases hfile
  | cons head files ih =>
      rw [fillAll, List.foldl_cons, ← fillAll]
      rcases List.mem_cons.mp hfile with rfl | hrest
      · rw [lookup?_fillAll_of_ne fun other hother heq => hapart.ne hother (staging_inj heq), fill,
          lookup?_put_self]
      · exact ih hapart.tail hrest

/-- Files that are written and then completed. What is left unfinished has its
    whole content under its staging name. -/
theorem completes_finishAll (path : String) (hapart : Apart files) (f : Folder) :
    Completes path files f (finishAll path files f) := by
  have hfinal : ∀ file ∈ files, (fillAll files f).lookup? file.1 = f.lookup? file.1 :=
    fun file hfile => lookup?_fillAll_of_ne (hapart.staging file hfile)
  obtain ⟨done, left, hfiles, hcompleted, hstops⟩ := completes_commitAll path hapart
    (f := fillAll files f) fun file hfile => lookup?_fillAll_staging hapart hfile
  refine ⟨done, left, hfiles, ⟨hcompleted.placed, hcompleted.unstaged, hcompleted.staged, ?_, ?_⟩,
    hstops.congr fun name hname => ?_⟩
  · intro file hfile
    have hmem : file ∈ files := hfiles ▸ List.mem_append_right done hfile
    exact (hcompleted.kept file hfile).trans (hfinal file hmem)
  · intro other hother
    exact (hcompleted.others other hother).trans
      (lookup?_fillAll_of_ne fun file hfile => (hother file (hfiles ▸ hfile)).2)
  · rw [← List.map_append, ← hfiles] at hname
    obtain ⟨file, hfile, rfl⟩ := List.mem_map.mp hname
    rw [Uncommittable, Uncommittable, hfinal file hfile]

/-- After a success each file stands under its final name, and no staging name
    is left. -/
theorem Completes.of_ok {a : α} (h : Completes path files f (.ok a, f')) :
    Completed f f' files [] := by
  obtain ⟨done, left, rfl, hcompleted, hstops⟩ := h
  cases left with
  | nil =>
      rw [List.append_nil]
      exact hcompleted
  | cons file left => exact hstops.ended.elim

end Folder

/-! ## Tables and logs -/

namespace Storing

variable {α β γ : Type}

/-- Of three steps it does not matter which two are taken together. -/
theorem andThen_assoc (first : Storing α) (second : α → Storing β) (third : β → Storing γ) :
    (first.andThen second).andThen third = first.andThen fun a => (second a).andThen third := by
  funext f
  unfold andThen
  split <;> split <;> simp_all

theorem andThen_done (step : Storing α) (b : β) (f : Folder) :
    (step.andThen fun _ => done b) f = ((step f).1.map fun _ => b, (step f).2) := by
  unfold andThen
  cases step f with
  | mk result f => cases result <;> rfl

end Storing

namespace CsvTables

open Folder

/-- The names of the tables' files. -/
def names : List String := CsvTable.all.map CsvTable.fileName

/-- The tables' files with their contents. -/
def files (t : CsvTables) : List (String × Bytes) :=
  CsvTable.all.map fun table => (table.fileName, Utf8.encode (t.text table).toList)

theorem apart_files (t : CsvTables) : Apart t.files where
  names := by
    simp only [files, CsvTable.all, List.map_cons, List.map_nil]
    refine .cons ?_ (.cons ?_ (.cons ?_ .nil)) <;> simp <;> decide
  staging := by
    have hall : ∀ table other : CsvTable, table.fileName ≠ Folder.staging other.fileName := by
      intro table other
      cases table <;> cases other <;> decide
    intro file hfile other hother
    obtain ⟨table, -, rfl⟩ := List.mem_map.mp hfile
    obtain ⟨table', -, rfl⟩ := List.mem_map.mp hother
    exact hall table table'

theorem create_eq (path : String) :
    create path = (stageAll path names).andThen fun _ => .done {} := by
  simp only [names, CsvTable.all, List.map_cons, List.map_nil, stageAll, Storing.andThen_assoc]
  rfl

/-- Finishing the tables is finishing their files, and tells the rows. -/
theorem finish_eq (path : String) (t : CsvTables) :
    t.finish path = (finishAll path t.files).andThen fun _ => .done t.rows := by
  have hcommit : ((commitAll path names).andThen fun _ => .done t.rows)
      = (commit path CsvTable.updates.fileName).andThen fun _ =>
        (commit path CsvTable.executions.fileName).andThen fun _ =>
          (commit path CsvTable.snapshots.fileName).andThen fun _ => .done t.rows := by
    simp only [names, CsvTable.all, List.map_cons, List.map_nil, commitAll, Storing.andThen_assoc]
    rfl
  funext f
  exact congrFun hcommit.symm (t.flush f)

end CsvTables

namespace EventLog

open Folder

/-- The log's file with its content. -/
def files (log : EventLog) : List (String × Bytes) := [(log.name, log.octets)]

theorem apart_files (log : EventLog) : Apart log.files where
  names := List.pairwise_singleton _ _
  staging := by
    intro file hfile other hother
    rw [List.mem_singleton.mp hfile, List.mem_singleton.mp hother]
    exact staging_ne log.name

theorem create_eq (path name source : String) (linkType : UInt32) (created : Nat) :
    create path name source linkType created
      = (stageAll path [name]).andThen fun _ =>
          .done
            { name
              header :=
                { version := LogHeader.currentVersion
                  created := BitVec.ofNat 128 created
                  source
                  linkType } } := by
  simp only [stageAll, Storing.andThen_assoc]
  rfl

theorem finish_eq (path : String) (log : EventLog) :
    log.finish path = (finishAll path log.files).andThen fun _ => .done log.records.size := by
  have hcommit : ((commitAll path [log.name]).andThen fun _ => .done log.records.size)
      = (commit path log.name).andThen fun _ => .done log.records.size := by
    simp only [commitAll, Storing.andThen_assoc]
    rfl
  funext f
  exact congrFun hcommit.symm (f.fill log.name log.octets)

end EventLog

namespace Folder

variable {α β : Type} {path : String} {f : Folder}

theorem Begins.andThen_done {names : List String} {step : Storing α} (b : β)
    (h : Begins path names f (step f)) :
    Begins path names f ((step.andThen fun _ => .done b) f) := by
  obtain ⟨begun, left, hnames, hbegun, hstops⟩ := h
  rw [Storing.andThen_done]
  exact ⟨begun, left, hnames, hbegun, hstops.map _⟩

theorem Completes.andThen_done {files : List (String × Bytes)} {step : Storing α} (b : β)
    (h : Completes path files f (step f)) :
    Completes path files f ((step.andThen fun _ => .done b) f) := by
  obtain ⟨done, left, hfiles, hcompleted, hstops⟩ := h
  rw [Storing.andThen_done]
  exact ⟨done, left, hfiles, hcompleted, hstops.map _⟩

/-- What the outputs leave behind, whatever the folder holds. A failure does
    not take back what was begun or completed before it. -/
theorem outputs_leave (path : String) (f : Folder) :
    Begins path CsvTables.names f (CsvTables.create path f) ∧
      (∀ tables : CsvTables, Completes path tables.files f (tables.finish path f)) ∧
      (∀ name source linkType created,
        Begins path [name] f (EventLog.create path name source linkType created f)) ∧
      ∀ log : EventLog, Completes path log.files f (log.finish path f) := by
  refine ⟨?_, fun tables => ?_, fun name source linkType created => ?_, fun log => ?_⟩
  · rw [CsvTables.create_eq]
    exact (begins_stageAll path _ f).andThen_done _
  · rw [CsvTables.finish_eq]
    exact (completes_finishAll path tables.apart_files f).andThen_done _
  · rw [EventLog.create_eq]
    exact (begins_stageAll path _ f).andThen_done _
  · rw [EventLog.finish_eq]
    exact (completes_finishAll path log.apart_files f).andThen_done _

/-- Where a folder stands in the way of the second table, the first has its
    final name already when the tables fail. -/
theorem finish_of_folder_at_executions (path : String)
    (hfirst : ¬ Uncommittable path f CsvTable.updates.fileName)
    (hsecond : f.lookup? CsvTable.executions.fileName = some .folder) (tables : CsvTables) :
    ∃ e, tables.finish path f
      = (.error e, ((tables.flush f).erase (staging CsvTable.updates.fileName)).put
          CsvTable.updates.fileName (.file (Utf8.encode (tables.text .updates).toList))) := by
  have hstaged : ∀ table : CsvTable, (tables.flush f).lookup? (staging table.fileName)
      = some (.file (Utf8.encode (tables.text table).toList)) := fun table =>
    lookup?_fillAll_staging tables.apart_files
      (List.mem_map.mpr ⟨table, by cases table <;> decide, rfl⟩)
  have hfinal : ∀ table : CsvTable,
      (tables.flush f).lookup? table.fileName = f.lookup? table.fileName := fun table =>
    lookup?_fillAll_of_ne (tables.apart_files.staging
      (table.fileName, Utf8.encode (tables.text table).toList)
      (List.mem_map.mpr ⟨table, by cases table <;> decide, rfl⟩))
  rw [Uncommittable, ← hfinal] at hfirst
  have hone := commit_of_not_uncommittable (hstaged .updates) hfirst
  -- Placing the first table has not touched the folder that is in the way of
  -- the second.
  have hrefused : Uncommittable path (((tables.flush f).erase
      (staging CsvTable.updates.fileName)).put CsvTable.updates.fileName
      (.file (Utf8.encode (tables.text .updates).toList))) CsvTable.executions.fileName := by
    refine Or.inr ?_
    rw [lookup?_committed_of_ne (by decide) (by decide), hfinal, hsecond]
  obtain ⟨e, he⟩ := commit_of_uncommittable
    ((lookup?_committed_of_ne (by decide) (by decide) _).trans (hstaged .executions)) hrefused
  refine ⟨e, ?_⟩
  simp only [CsvTables.finish, Storing.andThen, hone, he]

/-- A folder in which a folder has the name of the second table. -/
def obstructed : Folder := Folder.put CsvTable.executions.fileName .folder {}

/-- Tables that fail in such a folder leave the first table in place, and the
    others under their staging names. -/
theorem finish_leaves_updates :
    (CsvTables.create "out" obstructed).1.isOk = true ∧
      obstructed.lookup? CsvTable.updates.fileName = none ∧
      ∃ e f', ({} : CsvTables).finish "out" (CsvTables.create "out" obstructed).2 = (.error e, f') ∧
        f'.lookup? CsvTable.updates.fileName
          = some (.file (Utf8.encode (({} : CsvTables).text .updates).toList)) ∧
        f'.lookup? (staging CsvTable.executions.fileName) ≠ none := by
  obtain ⟨e, he⟩ := finish_of_folder_at_executions "out"
    (f := (CsvTables.create "out" obstructed).2) (by unfold Uncommittable; decide +kernel)
    (by decide +kernel) {}
  refine ⟨by decide +kernel, by decide, e, _, he, lookup?_put_self _ _ _, ?_⟩
  rw [lookup?_committed_of_ne (by decide) (by decide)]
  decide +kernel

end Folder

end MarketFeed
