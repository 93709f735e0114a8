import MarketFeed.Command.Analyze
import MarketFeed.Proofs.Datagram.Padding
import MarketFeed.Proofs.Output.Completion
import MarketFeed.Proofs.Session.Rounds

/-!
# Outputs That Are Given Up

The folder after outputs were begun, written, and never completed.

Until it is complete, an output has a hold on its staging names and on nothing
else. Beginning it opens a file under each of them, writing fills these files,
and giving it up removes them. So whatever stood in the folder under any other
name still stands there, a file with the final name of an output included, and
under the staging names stands nothing.

This needs no more than that the outputs keep their names, which is what
carries through a run: hearing a message adds a row or a record and renames
nothing, a datagram is a number of messages, a batch a number of datagrams, and
a schedule a number of batches. A run that fails, whenever its capture turns
out to be unreadable and however much was told before, therefore leaves the
folder as if it had not been.

Any outputs may be open at once, also several with the same files.

## Main definitions

* `Sink`: An output of either kind that has been begun.
* `Folder.Written`, `Folder.Restored`: A folder with staged files, and a folder
  without them that is otherwise the same.
* `Sink.InUse`: Outputs that were begun in a folder, and the folder as it is
  while they are open.
* `Run.owning`: A run that is given outputs, along a schedule.

## Theorems

* `restored_discardAll`: Giving up what was staged restores the folder.
* `InUse.written`: Outputs have a hold on their staging names alone.
* `play_keeps`: A session keeps what every message keeps.
* `exists_owning_eq_execute`: Letting the two sides alternate is one schedule.
* `abandoned_leave_nothing`: For outputs that are dropped, for runs, and for
  the command.
-/

namespace MarketFeed

/-! ## Staging names -/

namespace Folder

variable {name other : String} {names more : List String} {f g h : Folder}

/-- Files stand under the staging names, and nothing else has changed. -/
structure Written (names : List String) (f g : Folder) : Prop where
  staged : ∀ name ∈ names, ∃ content, g.lookup? (staging name) = some (.file content)
  others : ∀ other, (∀ name ∈ names, other ≠ staging name) → g.lookup? other = f.lookup? other

/-- Nothing stands under the staging names, and nothing else has changed. -/
structure Restored (names : List String) (f g : Folder) : Prop where
  unstaged : ∀ name ∈ names, g.lookup? (staging name) = none
  others : ∀ other, (∀ name ∈ names, other ≠ staging name) → g.lookup? other = f.lookup? other

theorem written_nil (f : Folder) : Written [] f f :=
  ⟨fun _ hname => (List.not_mem_nil hname).elim, fun _ _ => rfl⟩

theorem Written.trans (hfg : Written names f g) (hgh : Written names g h) : Written names f h :=
  ⟨hgh.staged, fun other hother => (hgh.others other hother).trans (hfg.others other hother)⟩

theorem Written.fill (hfg : Written names f g) (hname : name ∈ names) (content : Bytes) :
    Written names f (g.fill name content) := by
  refine ⟨fun one hone => ?_, fun other hother => ?_⟩
  · by_cases hsame : staging name = staging one
    · exact ⟨content, hsame ▸ lookup?_put_self _ _ _⟩
    · rcases hfg.staged one hone with ⟨before, hbefore⟩
      exact ⟨before, (lookup?_put_of_ne hsame _ _).trans hbefore⟩
  · exact (lookup?_put_of_ne (hother name hname).symm _ _).trans (hfg.others other hother)

/-- Beginning more files leaves those that have been begun where they are, or
    empties them. -/
theorem Written.begun (hfg : Written names f g) (hgh : Begun g h more) :
    Written (names ++ more) f h := by
  refine ⟨fun name hname => ?_, fun other hother => ?_⟩
  · by_cases hmore : name ∈ more
    · exact ⟨[], hgh.staged name hmore⟩
    · rcases hfg.staged name ((List.mem_append.mp hname).resolve_right hmore) with
        ⟨content, hcontent⟩
      refine ⟨content, (hgh.others _ fun one hone heq => ?_).trans hcontent⟩
      exact hmore (staging_inj heq ▸ hone)
  · rw [hgh.others other fun name hname => hother name (List.mem_append_right names hname),
      hfg.others other fun name hname => hother name (List.mem_append_left more hname)]

/-- What has begun without an error has begun in full. -/
theorem Begins.of_ok {α : Type} {path : String} {a : α} (hbegins : Begins path names f (.ok a, g)) :
    Begun f g names := by
  rcases hbegins with ⟨begun, left, rfl, hbegun, hstops⟩
  cases left with
  | nil =>
      rw [List.append_nil]
      exact hbegun
  | cons name left => exact hstops.ended.elim

/-- Give up files that have been begun. -/
def discardAll (names : List String) (f : Folder) : Folder :=
  names.foldl (fun f name => f.discard name) f

/-- Giving files up touches their staging names alone. -/
theorem lookup?_discardAll_of_ne (hother : ∀ name ∈ names, other ≠ staging name) :
    (discardAll names f).lookup? other = f.lookup? other := by
  induction names generalizing f with
  | nil => rfl
  | cons name rest ih =>
      rcases List.forall_mem_cons.mp hother with ⟨hname, hrest⟩
      rw [discardAll, List.foldl_cons, ← discardAll, ih hrest,
        lookup?_discard_of_ne hname.symm]

/-- A name under which nothing stands is not taken by giving up others. -/
theorem lookup?_discardAll_eq_none (hnone : f.lookup? other = none) :
    (discardAll names f).lookup? other = none := by
  induction names generalizing f with
  | nil => exact hnone
  | cons name rest ih =>
      rw [discardAll, List.foldl_cons, ← discardAll]
      refine ih ?_
      by_cases hsame : staging name = other
      · subst hsame
        unfold discard
        rw [hnone]
        exact hnone
      · rw [lookup?_discard_of_ne hsame, hnone]

/-- Nothing is left of a staged file that was given up. -/
theorem lookup?_discardAll_self {content : Bytes} (hname : name ∈ names)
    (hstaged : f.lookup? (staging name) = some (.file content)) :
    (discardAll names f).lookup? (staging name) = none := by
  induction names generalizing f with
  | nil => exact (List.not_mem_nil hname).elim
  | cons first rest ih =>
      rw [discardAll, List.foldl_cons, ← discardAll]
      by_cases hsame : first = name
      · subst hsame
        exact lookup?_discardAll_eq_none (lookup?_discard_self hstaged)
      · -- The file is still there when its turn comes.
        refine ih ((List.mem_cons.mp hname).resolve_left (Ne.symm hsame)) ?_
        rw [lookup?_discard_of_ne fun heq => hsame (staging_inj heq), hstaged]

/-- Giving up what was staged restores the folder. -/
theorem restored_discardAll (hwritten : Written names f g) :
    Restored names f (discardAll names g) := by
  refine ⟨fun name hname => ?_, fun other hother => ?_⟩
  · rcases hwritten.staged name hname with ⟨content, hcontent⟩
    exact lookup?_discardAll_self hname hcontent
  · rw [lookup?_discardAll_of_ne hother, hwritten.others other hother]

end Folder

/-! ## Outputs of either kind -/

/-- An output that has been begun. -/
inductive Sink
  /-- The three tables. -/
  | tables (tables : CsvTables)
  /-- A log. -/
  | log (log : EventLog)

namespace Sink

open Folder

variable {path : String} {before f g : Folder} {sinks : List Sink}

/-- The final names of the output's files. -/
def names : Sink → List String
  | .tables _ => CsvTables.names
  | .log l => [l.name]

/-- The output after a message. -/
def hear (e : Envelope) (m : Message) : Sink → Sink
  | .tables t => .tables (CsvTables.listener e m t)
  | .log l => .log (EventLog.listener e m l)

/-- Give up the output. -/
def abandon : Sink → Folder → Folder
  | .tables _ => CsvTables.abandon
  | .log l => l.abandon

/-- The final names of the files of several outputs. -/
def allNames (sinks : List Sink) : List String := sinks.flatMap names

/-- Tell several outputs a message. -/
def listener : Listener (List Sink) := fun e m sinks => sinks.map (hear e m)

/-- Give up several outputs. -/
def abandonAll (sinks : List Sink) (f : Folder) : Folder :=
  sinks.foldl (fun f sink => sink.abandon f) f

/-- Dropping sinks gives up the files that they have staged. -/
theorem abandonAll_eq (sinks : List Sink) (f : Folder) :
    abandonAll sinks f = discardAll (allNames sinks) f := by
  rw [abandonAll, discardAll, allNames, List.foldl_flatMap]
  congr 1
  funext f sink
  cases sink <;> rfl

theorem allNames_listener (e : Envelope) (m : Message) (sinks : List Sink) :
    allNames (listener e m sinks) = allNames sinks := by
  rw [allNames, allNames, listener, List.flatMap_map]
  congr 1
  funext sink
  cases sink <;> rfl

/-- Outputs that were begun in a folder one after the other, and the folder as
    it is while they are open. They hear messages, and they write to their
    files at any time whatever they please. -/
inductive InUse (path : String) (before : Folder) : List Sink → Folder → Prop
  | none : InUse path before [] before
  | tables {sinks : List Sink} {f g : Folder} {tables : CsvTables} (h : InUse path before sinks f)
      (hcreate : CsvTables.create path f = (.ok tables, g)) :
      InUse path before (sinks ++ [.tables tables]) g
  | log {sinks : List Sink} {f g : Folder} {name source : String} {linkType : UInt32}
      {created : Nat} {log : EventLog} (h : InUse path before sinks f)
      (hcreate : EventLog.create path name source linkType created f = (.ok log, g)) :
      InUse path before (sinks ++ [.log log]) g
  | heard {sinks : List Sink} {f : Folder} (h : InUse path before sinks f) (e : Envelope)
      (m : Message) : InUse path before (listener e m sinks) f
  | wrote {sinks : List Sink} {f g : Folder} (h : InUse path before sinks f)
      (hwritten : Written (allNames sinks) f g) : InUse path before sinks g

/-- The tables that were created have their files staged. -/
theorem begun_of_createTables {tables : CsvTables}
    (hcreate : CsvTables.create path f = (.ok tables, g)) : Begun f g CsvTables.names := by
  have hbegins : Begins path CsvTables.names f (CsvTables.create path f) := by
    rw [CsvTables.create_eq]
    exact (begins_stageAll path _ f).andThen_done _
  rw [hcreate] at hbegins
  exact hbegins.of_ok

theorem begun_of_createLog {name source : String} {linkType : UInt32} {created : Nat}
    {log : EventLog}
    (hcreate : EventLog.create path name source linkType created f = (.ok log, g)) :
    Begun f g [log.name] := by
  have hname : log.name = name := by
    rw [EventLog.create_eq, Storing.andThen_done] at hcreate
    cases hstage : (stageAll path [name] f).1 with
    | error e => rw [hstage] at hcreate; cases hcreate
    | ok u => rw [hstage] at hcreate; cases hcreate; rfl
  have hbegins : Begins path [name] f (EventLog.create path name source linkType created f) := by
    rw [EventLog.create_eq]
    exact (begins_stageAll path _ f).andThen_done _
  rw [hcreate] at hbegins
  rw [hname]
  exact hbegins.of_ok

/-- While outputs are open, there are files under their staging names, and the
    rest of the folder is as it was. -/
theorem InUse.written (h : InUse path before sinks f) : Written (allNames sinks) before f := by
  induction h with
  | none => exact written_nil before
  | tables _ hcreate ih =>
      rw [allNames, List.flatMap_append, List.flatMap_singleton]
      exact ih.begun (begun_of_createTables hcreate)
  | log _ hcreate ih =>
      rw [allNames, List.flatMap_append, List.flatMap_singleton]
      exact ih.begun (begun_of_createLog hcreate)
  | heard _ e m ih =>
      rw [allNames_listener]
      exact ih
  | wrote _ hwritten ih => exact ih.trans hwritten

/-- Outputs that are given up leave nothing behind. -/
theorem InUse.restored (h : InUse path before sinks f) :
    Restored (allNames sinks) before (abandonAll sinks f) := by
  rw [abandonAll_eq]
  exact restored_discardAll h.written

end Sink

/-! ## Through a run -/

/-- What every message keeps, a batch keeps. -/
theorem Consumer.feed_keeps {σ : Type} {listen : Listener σ} {I : σ → Prop}
    (hI : ∀ e (m : Framed) s, m.WellFormed → I s → I (listen e m.message s)) (batch : Batch)
    (c : Consumer σ) (h : I c.heard) : I (c.feed listen batch).heard := by
  have hall : ∀ (packets : List Bytes) (state : FilterStats × Decoder × σ), I state.2.2 →
      I (Filter.passAll (handle listen) packets state).2.2 := by
    intro packets
    induction packets with
    | nil => exact fun _ hstate => hstate
    | cons packet rest ih =>
        intro state hstate
        have hpass : I (Filter.pass (handle listen) packet state).2.2 := by
          unfold Filter.pass
          cases Packet.payload packet with
          | error skip => exact hstate
          | ok payload => exact Decoder.decode_keeps hI payload state.2.1 hstate
        exact ih _ hpass
  exact hall _ (c.filter, c.decoder, c.heard) h

/-- What every batch keeps, any order of turns keeps. -/
theorem Session.play_keeps {τ : Type} {feed : Batch → τ → τ} {J : τ → Prop}
    (hJ : ∀ batch t, J t → J (feed batch t)) (schedule : List Turn) (s : Session τ)
    (h : J s.state) : J (s.play feed schedule).state := by
  -- Only a consumer that takes a batch feeds anything.
  have htake : ∀ (s : Session τ) (otherwise : Stage), J s.state →
      J (s.take feed otherwise).state := by
    intro s otherwise hs
    unfold take
    split
    · exact hJ _ _ hs
    · exact hs
  induction schedule generalizing s with
  | nil => exact h
  | cons t rest ih =>
      refine ih (s.turn feed t) ?_
      cases t with
      | producer => exact h
      | expiry => exact h
      | stop => exact h
      | consumer =>
          rw [turn, consume]
          cases s.stage with
          | polling => exact htake s _ h
          | checking => exact h
          | draining => exact htake s _ h
          | exited => exact h

namespace Run

open Sink

/-- A run that is given outputs, along a schedule of its two sides. The outputs
    are given up if it fails, such as they are then, in the folder that their
    writing has made. -/
def owning (config : Config) (buffer : Buffer) (sinks : List Sink) (schedule : List Turn)
    (written : Folder) : Except CaptureError (List Sink × RunReport) × Folder :=
  match begin config buffer sinks with
  | .error e => (.error e, abandonAll sinks written)
  | .ok session =>
    let ended := session.play (Consumer.feed listener) schedule
    match collect ended with
    | .error e => (.error e, abandonAll ended.state.heard written)
    | .ok result => (.ok result, written)

/-- One of the schedules is that in which the two sides alternate. -/
theorem exists_owning_eq_execute (config : Config) (buffer : Buffer) (sinks : List Sink)
    (written : Folder) : ∃ schedule, Turn.stop ∉ schedule ∧
      (owning config buffer sinks schedule written).1 = execute config listener buffer sinks := by
  unfold owning execute
  cases begin config buffer sinks with
  | error e => exact ⟨[], List.not_mem_nil, rfl⟩
  | ok session =>
      rcases Session.exists_play_drive (Consumer.feed listener) session with
        ⟨schedule, hstop, hplay⟩
      refine ⟨schedule, hstop, ?_⟩
      simp only [hplay]
      cases collect (session.play (Consumer.feed listener) schedule) <;> rfl

variable {path : String} {before begun written after : Folder} {sinks : List Sink}
variable {config : Config} {buffer : Buffer} {session : Session (Consumer (List Sink))}

/-- Whatever was told, outputs that are open stay so along a run. -/
theorem inUse_play (h : InUse path before sinks begun)
    (hbegin : begin config buffer sinks = .ok session) (schedule : List Turn) :
    InUse path before (session.play (Consumer.feed listener) schedule).state.heard begun ∧
      allNames (session.play (Consumer.feed listener) schedule).state.heard = allNames sinks := by
  have hfirst : session.state.heard = sinks := by
    rw [begin] at hbegin
    cases hstart : buffer.start with
    | error e => rw [hstart] at hbegin; cases hbegin
    | ok started => rw [hstart] at hbegin; cases hbegin; rfl
  let Kept (heard : List Sink) : Prop :=
    InUse path before heard begun ∧ allNames heard = allNames sinks
  have hone : ∀ e (m : Framed) heard, m.WellFormed → Kept heard →
      Kept (listener e m.message heard) := by
    intro e m heard _ hkept
    exact ⟨hkept.1.heard e m.message, (allNames_listener e m.message heard).trans hkept.2⟩
  exact Session.play_keeps (J := fun c => Kept c.heard)
    (fun batch c hc => Consumer.feed_keeps (I := Kept) hone batch c hc) schedule session
    (by rw [hfirst]; exact ⟨h, rfl⟩)

/-- A run that fails leaves the folder as it was before its sinks. -/
theorem restored_of_owning (h : InUse path before sinks begun)
    (hwritten : Folder.Written (allNames sinks) begun written) {schedule : List Turn}
    {e : CaptureError} (hfailed : owning config buffer sinks schedule written = (.error e, after)) :
    Folder.Restored (allNames sinks) before after := by
  unfold owning at hfailed
  cases hbegin : begin config buffer sinks with
  | error e' =>
      rw [hbegin] at hfailed
      cases hfailed
      exact (h.wrote hwritten).restored
  | ok session =>
      rw [hbegin] at hfailed
      rcases inUse_play h hbegin schedule with ⟨hinUse, hnames⟩
      rw [← hnames] at hwritten ⊢
      simp only at hfailed
      split at hfailed
      · cases hfailed
        exact (hinUse.wrote hwritten).restored
      · cases hfailed

end Run

/-! ## The outputs of the command -/

namespace Outputs

open Sink

variable {o : Outputs} {plan : OutputPlan} {before begun : Folder}

/-- The outputs that the command has begun. -/
def sinks (o : Outputs) : List Sink := o.csv.toList.map .tables ++ o.log.toList.map .log

theorem abandon_eq (o : Outputs) (f : Folder) : o.abandon f = abandonAll o.sinks f := by
  rcases o with ⟨_ | tables, _ | log⟩ <;> rfl

/-- Outputs that were created have all their files in use. -/
theorem inUse_of_create (hcreate : create plan before = (.ok o, begun)) :
    InUse plan.path before o.sinks begun := by
  have htables : ∀ {csv f}, createCsv plan before = (.ok csv, f) →
      InUse plan.path before (sinks { csv }) f := by
    intro csv f hcsv
    unfold createCsv at hcsv
    split at hcsv
    · split at hcsv
      · next hcreated =>
        cases hcsv
        exact InUse.none.tables hcreated
      · cases hcsv
    · cases hcsv
      exact .none
  -- The log comes second, beside tables that are in use or were not asked for.
  unfold create at hcreate
  split at hcreate
  · cases hcreate
  · next csv f hcsv =>
    have hfirst := htables hcsv
    split at hcreate
    · cases hcreate
    · next log g hlog =>
      cases hcreate
      unfold createLog at hlog
      split at hlog
      · split at hlog
        · next hcreated =>
          cases hlog
          rcases csv with _ | tables <;> exact hfirst.log hcreated
        · cases hlog
      · cases hlog
        exact hfirst

end Outputs

namespace Sink

open Folder

/-- Outputs that are given up leave a folder as they found it, whatever they
    have heard and written. So does a run that fails, with any outputs and at
    any moment of any schedule, and so does the command. -/
theorem abandoned_leave_nothing :
    (∀ path before sinks f, InUse path before sinks f →
      Restored (allNames sinks) before (abandonAll sinks f)) ∧
    (∀ path before sinks begun written, InUse path before sinks begun →
      Written (allNames sinks) begun written → ∀ config buffer schedule e after,
        Run.owning config buffer sinks schedule written = (.error e, after) →
          Restored (allNames sinks) before after) ∧
    ∀ (o : AnalyzeOptions) buffer plan before outputs begun e,
      Outputs.create plan before = (.ok outputs, begun) →
      Run.execute o.config (.pair Outputs.listener Books.listener) buffer (outputs, Books.empty)
        = .error e →
      (Analyze.decodeInto o buffer plan before).1.isOk = false ∧
        Restored (allNames outputs.sinks) before (Analyze.decodeInto o buffer plan before).2 := by
  refine ⟨fun path before sinks f h => h.restored, ?_, ?_⟩
  · intro path before sinks begun written h hwritten config buffer schedule e after hfailed
    exact Run.restored_of_owning h hwritten hfailed
  · intro o buffer plan before outputs begun e hcreate hfailed
    unfold Analyze.decodeInto Analyze.decode
    simp only [hcreate, hfailed, Outputs.abandon_eq]
    exact ⟨rfl, (Outputs.inUse_of_create hcreate).restored⟩

/-- A capture of one update, and of a record behind it that is longer than the
    chunks that are read. -/
def brokenContent : Bytes :=
  [0xd4, 0xc3, 0xb2, 0xa1, 2, 0, 4, 0, 0, 0, 0, 0, 0, 0, 0, 0, 0xff, 0xff, 0, 0, 1, 0, 0, 0] ++
    [7, 0, 0, 0, 9, 0, 0, 0, 116, 0, 0, 0, 116, 0, 0, 0] ++ updatePacket ++
    [8, 0, 0, 0, 9, 0, 0, 0, 200, 0, 0, 0, 200, 0, 0, 0] ++ List.replicate 200 0

/-- A chunk that just holds the record of the update. -/
def smallChunk : Config := { chunkSize := 132 }

/-- Eight turns for either side. -/
def alternating : List Turn := (List.replicate 8 [Turn.producer, Turn.consumer]).flatten

/-- A folder with a table of an earlier run. -/
def earlier : Folder := .put CsvTable.updates.fileName (.file [1, 2]) {}

/-- A command that is told to write tables and a log. -/
def bothOptions : AnalyzeOptions := { file := "day.pcap", csv := true, eventLog := true }

/-- The outputs of this command before the first datagram. -/
def bothOutputs : Outputs where
  csv := some {}
  log := some
    { name := EventLog.fileName
      header :=
        { version := LogHeader.currentVersion
          created := 0
          source := "day.pcap"
          linkType := 1 } }

theorem exists_of_any {ε α : Type} {found : Except ε α} {p : α → Bool}
    (h : found.toOption.any p = true) : ∃ a, found = .ok a ∧ p a = true := by
  cases found with
  | error e => cases h
  | ok a => exact ⟨a, rfl, h⟩

/-- The update is told, and then the run fails. -/
theorem exists_brokenRun :
    ∃ buffer session e e',
      Run.open? "day.pcap" (.ok (.file brokenContent)) smallChunk = .ok buffer ∧
      Run.begin smallChunk buffer [Sink.tables {}] = .ok session ∧
      (session.play (Consumer.feed listener) alternating).state.decoder.stats.orderUpdates = 1 ∧
      Run.collect (session.play (Consumer.feed listener) alternating) = .error e ∧
      Run.execute bothOptions.config (.pair Outputs.listener Books.listener) buffer
        (bothOutputs, Books.empty) = .error e' := by
  have hrun : (Run.open? "day.pcap" (.ok (.file brokenContent)) smallChunk).toOption.any
      (fun buffer => (Run.begin smallChunk buffer [Sink.tables {}]).toOption.any (fun session =>
        let ended := session.play (Consumer.feed listener) alternating
        ended.state.decoder.stats.orderUpdates == 1 && !(Run.collect ended).isOk) &&
        !(Run.execute bothOptions.config (.pair Outputs.listener Books.listener) buffer
          (bothOutputs, Books.empty)).isOk) = true := by
    decide +kernel
  rcases exists_of_any hrun with ⟨buffer, hopen, hboth⟩
  rw [Bool.and_eq_true] at hboth
  rcases exists_of_any hboth.1 with ⟨session, hbegin, hsession⟩
  rw [Bool.and_eq_true, beq_iff_eq] at hsession
  cases hcollect : Run.collect (session.play (Consumer.feed listener) alternating) with
  | ok result => rw [hcollect] at hsession; cases hsession.2
  | error e =>
      cases hexecute : Run.execute bothOptions.config (.pair Outputs.listener Books.listener) buffer
          (bothOutputs, Books.empty) with
      | ok result => rw [hexecute] at hboth; cases hboth.2
      | error e' => exact ⟨buffer, session, e, e', hopen, hbegin, hsession.1, hcollect, hexecute⟩

/-- The table of the earlier run is still there, and of the later ones nothing. -/
theorem abandoned_leave_nothing_brokenContent :
    ∃ buffer session begun e after,
      Run.open? "day.pcap" (.ok (.file brokenContent)) smallChunk = .ok buffer ∧
      Run.begin smallChunk buffer [Sink.tables {}] = .ok session ∧
      (session.play (Consumer.feed listener) alternating).state.decoder.stats.orderUpdates = 1 ∧
      InUse "out" earlier [.tables {}] begun ∧
      Run.owning smallChunk buffer [.tables {}] alternating
        (begun.fill CsvTable.updates.fileName [3]) = (.error e, after) ∧
      after.lookup? CsvTable.updates.fileName = some (.file [1, 2]) ∧
      after.lookup? (staging CsvTable.updates.fileName) = none ∧
      (abandonAll [.tables {}] begun).lookup? CsvTable.updates.fileName = some (.file [1, 2]) ∧
      (Analyze.decodeInto bothOptions buffer (Analyze.plan bothOptions 1 0) earlier).2.lookup?
        (staging EventLog.fileName) = none := by
  rcases exists_brokenRun with ⟨buffer, session, e, e', hopen, hbegin, htold, hcollect, hexecute⟩
  have hcreate : CsvTables.create "out" earlier = (.ok {}, (CsvTables.create "out" earlier).2) := by
    decide +kernel
  have hinUse : InUse "out" earlier [.tables {}] (CsvTables.create "out" earlier).2 :=
    InUse.none.tables hcreate
  have hwritten : Written (allNames [.tables {}]) (CsvTables.create "out" earlier).2
      ((CsvTables.create "out" earlier).2.fill CsvTable.updates.fileName [3]) :=
    Written.fill ⟨hinUse.written.staged, fun _ _ => rfl⟩ (by decide) [3]
  have hfailed : Run.owning smallChunk buffer [.tables {}] alternating
      ((CsvTables.create "out" earlier).2.fill CsvTable.updates.fileName [3])
        = (.error e, abandonAll (session.play (Consumer.feed listener) alternating).state.heard
            ((CsvTables.create "out" earlier).2.fill CsvTable.updates.fileName [3])) := by
    simp only [Run.owning, hbegin, hcollect]
  have hdropped := abandoned_leave_nothing.1 _ _ _ _ hinUse
  have hrun := abandoned_leave_nothing.2.1 _ _ _ _ _ hinUse hwritten _ _ _ _ _ hfailed
  have hcommand := abandoned_leave_nothing.2.2 bothOptions buffer (Analyze.plan bothOptions 1 0)
    earlier bothOutputs (Outputs.create (Analyze.plan bothOptions 1 0) earlier).2 e'
    (by decide +kernel) hexecute
  have hkept : ∀ name ∈ allNames [.tables {}], CsvTable.updates.fileName ≠ staging name := by decide
  refine ⟨buffer, session, _, e, _, hopen, hbegin, htold, hinUse, hfailed, ?_,
    hrun.unstaged _ (by decide), ?_, hcommand.2.unstaged _ (by decide)⟩
  · exact (hrun.others _ hkept).trans (by decide)
  · exact (hdropped.others _ hkept).trans (by decide)

end Sink

end MarketFeed
