import FlatQuery.CommandLine.Basic
import FlatQuery.Proofs.Prompts
import FlatQuery.Proofs.Scripts
import FlatQuery.Proofs.Supply

/-!
# Three ways to run a text

Statements on the argument line, in a script and at a terminal are run in the same way. The
three sessions are side by side (`Session.parallel_start`), so they come to the same database
and to one transcript, and what is written of it differs in the prompts alone: they are shown
at the terminal, one for each line that is asked for (`CommandLine.front_ends_agree`).

The terminal shows what a statement has to say before it asks for the next line. Behind the
turn of a statement with its semicolon the transcript has gone as far as that semicolon's line
(`Session.length_requests_of_turn`), and what is shown later comes behind.

One text cannot be given on the argument line. Two dashes are dropped there like the mark they
look like, the option is left without its value, and the shell asks for statements at the
terminal instead (`CommandLine.run_dashes`). In a script they are a comment.
-/

set_option autoImplicit false

namespace FlatQuery

/-! ## 1. Transcripts grow -/

namespace Session

/-- What is shown at the end of a run begins with what was shown before it. -/
theorem isPrefix_transcript_run (s : Session) : s.transcript <+: s.run.1.transcript := by
  -- A log is kept with the latest item first, so what is added to it comes last.
  have hstep : ∀ t : Session, s.transcript <+: t.transcript →
      s.transcript <+: t.turn.session.transcript := by
    intro t ht
    obtain ⟨more, hmore⟩ := log_of_turn t
    apply ht.trans
    rw [transcript, transcript, hmore, List.reverse_append]
    exact List.prefix_append ..
  refine run_induction (I := fun t => s.transcript <+: t.transcript)
    (F := fun r => s.transcript <+: r.1.transcript) (fun t u ht hu => ?_) (fun t u how ht hu => ?_)
    List.prefix_rfl
  · have hturn := hstep t ht
    rwa [hu] at hturn
  · have hturn := hstep t ht
    rwa [hu] at hturn

/-- At the end of the input there is nothing to come to. -/
theorem deeds_of_nil {s : Session} (h : s.stream.queue = []) : s.deeds = [] := by
  obtain ⟨u, hnext⟩ := next?_of_nil h
  rw [deeds, turn_of_end hnext, deed?, hnext]
  rfl

/-- A statement that fails and has no semicolon but its own is all that its session comes
to. -/
theorem deeds_of_failure {s u : Session} (hs : ∀ x ∈ s.stream.queue, x.IsRegular) {e : Error}
    (h : s.statement = (.error e, u)) (hq : behindFirst s.stream.queue = []) :
    s.deeds = [.failed e] := by
  obtain ⟨t, ht, hqueue, -⟩ := going_of_failure hs h
  rw [deeds, ht, deed?_of_failure h, if_pos (isStatementError_of_failure hs h),
    Option.toList_some]
  dsimp only
  rw [deeds_of_nil (hqueue.trans hq), List.append_nil]

/-- Over a text with nothing in it a run shows nothing but its requests. -/
theorem transcript_of_nil {db : Database} {text : String} (h : arrivalsOf text.toList = []) :
    (runText db text).1.transcript =
      (requestsFor text.toList (Text.lines text.toList).length true).map .request := by
  obtain ⟨u, hturn⟩ := turn_of_nil ((queue_start db text).trans h)
  have hrun : runText db text = ((start (.ofString text) db).readTo u, .inputEnded) :=
    run_of_ended hturn
  obtain ⟨k, -, ⟨hleft, -⟩ | ⟨-, hall, hrequests⟩⟩ := requests_of_run db text
  · rw [hrun] at hleft
    cases hleft
  · rw [hrun] at hrequests ⊢
    rw [transcript_readTo, transcript_start, List.nil_append]
    rw [requests, transcript_readTo, transcript_start, List.nil_append,
      Transcript.requests_map, hall] at hrequests
    rw [hrequests]

end Session

/-! ## 2. Argument lines -/

namespace CommandLine

/-- Whether a word is taken for a value wherever it stands. -/
def Word.IsValue (s : String) : Prop := classify? s.toList = some (.value s.toList)

instance (s : String) : Decidable (Word.IsValue s) :=
  inferInstanceAs (Decidable (Word.classify? s.toList = some (.value s.toList)))

theorem Word.classifyAll?_cons {s : String} {w : Word} (h : classify? s.toList = some w)
    (ss : List String) : classifyAll? (s :: ss) = (classifyAll? ss).map (w :: ·) := by
  have hne : s ≠ "--" := by
    rintro rfl
    have hnone : classify? "--".toList = none := by decide
    rw [hnone] at h
    cases h
  rw [classifyAll?, if_neg hne, h]
  rcases classifyAll? ss with _ | ws
  · rfl
  · rfl

theorem Word.classify?_command (text : String) :
    classify? ("--command=" ++ text).toList = some (.assigned .command text.toList) := by
  rw [String.toList_append]
  rfl

/-- A directory, if one is given, and then other words. -/
theorem Arguments.read_directory {d? : Option String} (hd : ∀ d ∈ d?, Word.IsValue d)
    {ss : List String} {ws : List Word} (hss : Word.classifyAll? ss = some ws)
    (hseparator : ws.head? ≠ some .separator) :
    ∃ taken, read (d?.toList ++ ss) =
      takeWords { arguments := { directory? := d? }, directoryTaken := taken } ws := by
  rcases d? with _ | d
  · refine ⟨false, ?_⟩
    rw [Option.toList_none, List.nil_append, read, hss]
  · refine ⟨true, ?_⟩
    rw [Option.toList_some, List.singleton_append, read, Word.classifyAll?_cons (hd d rfl), hss]
    have htake : ({} : Progress).take d.toList =
        { arguments := { directory? := some d }, directoryTaken := true } := by
      rw [Progress.take, String.ofList_toList]
    change takeWords {} (.value d.toList :: ws) = _
    rw [← htake]
    rw [takeWords, if_neg Bool.false_ne_true]
    intro rest hrest
    exact hseparator (by rw [hrest]; rfl)

theorem Arguments.read_command {d? : Option String} (hd : ∀ d ∈ d?, Word.IsValue d)
    {text : String} (htext : text ≠ "--") :
    read (d?.toList ++ ["--command=" ++ text]) =
      .start { directory? := d?, command? := some text } := by
  have hss : Word.classifyAll? ["--command=" ++ text] = some [.assigned .command text.toList] := by
    rw [Word.classifyAll?_cons (Word.classify?_command text)]
    rfl
  have hgiven : given? text.toList = some text := by
    have hne : text.toList ≠ ['-', '-'] := fun h => htext (String.ext_iff.2 h)
    rw [given?, if_neg hne, String.ofList_toList]
  obtain ⟨taken, hread⟩ := read_directory hd hss (by simp)
  rw [hread, takeWords, takeWords, if_neg Bool.false_ne_true, set, hgiven]
  exact fun h => by cases h

theorem Arguments.read_script {d? : Option String} (hd : ∀ d ∈ d?, Word.IsValue d)
    {script : String} (hscript : Word.IsValue script) :
    read (d?.toList ++ ["-f", script]) =
      .start { directory? := d?, script? := some script } := by
  have hflag : Word.classify? "-f".toList = some (.option .script) := by decide
  have hss : Word.classifyAll? ["-f", script] =
      some [.option .script, .value script.toList] := by
    rw [Word.classifyAll?_cons hflag, Word.classifyAll?_cons hscript]
    rfl
  have hgiven : given? script.toList = some script := by
    have hne : script.toList ≠ ['-', '-'] := by
      intro h
      have hnone : Word.classify? ['-', '-'] = none := by decide
      rw [Word.IsValue, h, hnone] at hscript
      cases hscript
    rw [given?, if_neg hne, String.ofList_toList]
  obtain ⟨taken, hread⟩ := read_directory hd hss (by simp)
  rw [hread, takeWords, takeWords, if_neg Bool.false_ne_true, set, hgiven]
  exact fun h => by cases h

theorem Arguments.read_interactive {d? : Option String} (hd : ∀ d ∈ d?, Word.IsValue d) :
    read d?.toList = .start { directory? := d? } := by
  have hss : Word.classifyAll? [] = some [] := rfl
  obtain ⟨taken, hread⟩ := read_directory hd hss (by simp)
  rw [List.append_nil] at hread
  rw [hread, takeWords, if_neg Bool.false_ne_true]

/-! ## 3. Runs -/

section Runs

variable {directory : Directory} {files : FileSystem} {text : String}

/-- A run over a text ends with status 0. -/
theorem ofSession_runText (db : Database) (text : String) :
    Ending.ofSession (Session.runText db text).2 = .status 0 := by
  rcases Session.ending_of_run (Session.isRegular_start db text) with hleft | hended
  · rw [Session.runText, hleft]
    rfl
  · rw [Session.runText, hended]
    rfl

/-- Whether the session of a task comes to what a run over a text comes to. -/
def Task.RunsText (t : Task) (typed : List Bytes) (directory : Directory) (files : FileSystem)
    (text : String) : Prop :=
  ∃ s, t.session typed directory files =
      .ok (s, (Session.runText (.fresh directory files) text).2) ∧
    s.database = (Session.runText (.fresh directory files) text).1.database ∧
    s.transcript = (Session.runText (.fresh directory files) text).1.transcript

/-- A directory that is there is so for all tasks. -/
theorem Arguments.directory_of_ok {a b : Arguments} (ha : a.directory files = .ok directory)
    (h : a.directory? = b.directory?) : b.directory files = .ok directory := by
  unfold Arguments.directory at ha ⊢
  rw [h] at ha
  rcases hd : b.directory?.map Path.ofString with _ | p <;> rw [hd] at ha
  · dsimp only at ha ⊢
    rcases hw : files.workingDirectory? with _ | d <;> rw [hw] at ha
    · cases ha
    · exact ha
  · exact ha

/-- Where the arguments make sense and the directory is there, a run is its session. -/
theorem run_of_runsText {line : List String} {typed : List Bytes} {a : Arguments}
    (hread : Arguments.read line = .start a) (hdirectory : a.directory files = .ok directory)
    (hsession : a.task.RunsText typed directory files text) :
    run line typed files = .ran {
      output := a.task.view (Session.runText (.fresh directory files) text).1.transcript
      files := (Session.runText (.fresh directory files) text).1.database.files
      ending := .status 0 } := by
  obtain ⟨s, hsession, hdatabase, htranscript⟩ := hsession
  rw [run, hread]
  dsimp only
  rw [runArguments, hdirectory]
  dsimp only
  rw [hsession]
  dsimp only
  rw [hdatabase, htranscript, ofSession_runText]

/-- Statements on the argument line are run as a text. -/
theorem runsText_command (typed : List Bytes) (directory : Directory) (files : FileSystem)
    (text : String) : (Task.command text).RunsText typed directory files text :=
  ⟨_, rfl, rfl, rfl⟩

/-- What is typed is run as a text is: to the same database, with the same to show. -/
theorem runsText_interactive (directory : Directory) (files : FileSystem) {pieces : List Bytes}
    (hpieces : pieces.flatten = Text.Utf8.encode text.toList) :
    Task.interactive.RunsText pieces directory files text := by
  obtain ⟨lines, hgives, hsame⟩ := Source.gives_typed hpieces
  have hstart := Session.parallel_start (.fresh directory files) hgives hsame
  obtain ⟨hending, hrun⟩ := hstart.run TokenStream.simulation_besides
  refine ⟨(Session.start (.typed pieces) (.fresh directory files)).run.1, ?_,
    hrun.database.symm, ?_⟩
  · rw [Task.session, Session.runText, hending]
  · exact congrArg List.reverse hrun.log.symm

theorem Script.open_of_probe {p : Path} {place : List String} {content : Bytes}
    (h : files.probe p = .ok (some (place, .file content))) :
    Script.open p files = .ok ⟨place, content⟩ := by
  rw [Script.open, h]

/-- A script that was opened stands where it was found. -/
theorem node?_of_open {p : Path} {place : List String} {content : Bytes}
    (h : Script.open p files = .ok ⟨place, content⟩) :
    files.node? place = some (.file content) := by
  unfold Script.open FileSystem.probe at h
  rcases hlocate : files.locate p with e | place' <;> rw [hlocate] at h
  -- Where the way to it breaks off there is no script.
  · rcases e with _ | _ | _ | _ <;> cases h
  · dsimp only at h
    rcases hnode : files.node? place' with _ | ⟨content'⟩ | _ <;> rw [hnode] at h
    · cases h
    · injection h with h
      injection h with hplace hcontent
      rw [← hplace, ← hcontent]
      exact hnode
    · cases h

/-- Whether no table that a run over a text stores goes into the file at a place. -/
def StoresElsewhere (directory : Directory) (files : FileSystem) (text : String)
    (place : List String) : Prop :=
  ∀ name, .done (.store name) ∈
      (Session.start (.ofString text) (.fresh directory files)).deeds →
    files.locate (directory.path.join (name ++ ".db")) ≠ .ok place

/-- A script of a text without carriage returns is run as the text is, if no table is stored
into it. -/
theorem runsText_script (typed : List Bytes) {p : Path} {place : List String}
    (hreturn : '\r' ∉ text.toList)
    (hopen : Script.open p files = .ok ⟨place, Text.Utf8.encode text.toList⟩)
    (hstores : StoresElsewhere directory files text place) :
    (Task.script p).RunsText typed directory files text := by
  have hstart := Session.parallel_start (.fresh directory files) (Source.gives_ofBytes hreturn)
    (.refl _)
  obtain ⟨hending, hrun⟩ := hstart.run TokenStream.simulation_besides
  have hdeeds := hstart.deeds TokenStream.simulation_besides
  have hleaves : (Session.start (.ofBytes (Text.Utf8.encode text.toList))
      (.fresh directory files)).Leaves place (Text.Utf8.encode text.toList) :=
    ⟨node?_of_open hopen, rfl, fun name hname => hstores name (hdeeds ▸ hname)⟩
  refine ⟨(Session.start (.ofBytes (Text.Utf8.encode text.toList))
    (.fresh directory files)).run.1, ?_, hrun.database.symm, ?_⟩
  · rw [Task.session, hopen]
    dsimp only
    rw [Session.runScript_of_leaves hleaves, Session.runText, hending]
  · exact congrArg List.reverse hrun.log.symm

/-- At the terminal a statement with its semicolon has shown all it has to show when as many
lines were asked for as it takes to get to that semicolon. -/
theorem shown_of_afterTurns {n : Nat} {s : Session} {e : Event} {pieces : List Bytes}
    (hpieces : pieces.flatten = Text.Utf8.encode text.toList)
    (hs : (Session.start (.typed pieces) (.fresh directory files)).afterTurns (n + 1) = some s)
    (he : ((Scanner.feed {} text.toList).events.1.filter Event.endsStatement)[n]? = some e) :
    s.requests.length = e.line ∧
      s.transcript <+: (Session.runText (.fresh directory files) text).1.transcript := by
  obtain ⟨lines, hgives, hsame⟩ := Source.gives_typed hpieces
  have hstart := Session.parallel_start (.fresh directory files) hgives hsame
  obtain ⟨t, ht, hbesides⟩ := hstart.afterTurns TokenStream.simulation_besides hs
  have htranscript : t.transcript = s.transcript := congrArg List.reverse hbesides.log
  obtain ⟨u, hu, hturn⟩ := Session.afterTurns_succ ht
  obtain ⟨hlength, -⟩ := Session.length_requests_of_turn hu (.inl hturn) he
  rw [Session.requests, ← htranscript]
  refine ⟨hlength, ?_⟩
  rw [Session.runText, Session.run_of_afterTurns ht]
  exact t.isPrefix_transcript_run

end Runs

/-! ## 4. The three ways -/

/-- **Three ways to run one text.** Take any text that is not empty, is not two dashes and
holds no carriage return, any directory that is there, and a script that holds the bytes of
the text and that no table of the run is stored into, and let the bytes of the text come in on
standard input in any pieces. On the argument line, in the script and at the terminal the text
leaves the same files and ends with status 0. The first two write the same. The terminal writes
that too, behind the banner and with the prompts between: one for each of the first so many
lines, and unless the text was left by one more that meets the end. What a statement shows comes
before the prompt for the first line behind its semicolon's. -/
theorem front_ends_agree {d? : Option String} {script text : String} (typed : List Bytes)
    {pieces : List Bytes} {files : FileSystem} {directory : Directory} {place : List String}
    (hd : ∀ d ∈ d?, Word.IsValue d) (hscript : Word.IsValue script) (hempty : text ≠ "")
    (hdashes : text ≠ "--") (hreturn : '\r' ∉ text.toList)
    (hpieces : pieces.flatten = Text.Utf8.encode text.toList)
    (hdirectory : Arguments.directory { directory? := d? } files = .ok directory)
    (hopen : Script.open (.ofString script) files =
      .ok ⟨place, Text.Utf8.encode text.toList⟩)
    (hstores : StoresElsewhere directory files text place) :
    let db := Database.fresh directory files
    let shown := (Session.runText db text).1.transcript
    let after := (Session.runText db text).1.database.files
    let semicolons := (Scanner.feed {} text.toList).events.1.filter Event.endsStatement
    run (d?.toList ++ ["--command=" ++ text]) typed files =
        .ran { output := shown.plain, files := after, ending := .status 0 } ∧
      run (d?.toList ++ ["-f", script]) typed files =
        .ran { output := shown.plain, files := after, ending := .status 0 } ∧
      run d?.toList pieces files =
        .ran { output := banner ++ shown.prompted, files := after, ending := .status 0 } ∧
      (∃ k ≤ (Text.lines text.toList).length,
        ((Session.runText db text).2 = .left ∧
            shown.requests = requestsFor text.toList k false) ∨
          ((Session.runText db text).2 = .inputEnded ∧ k = (Text.lines text.toList).length ∧
            shown.requests = requestsFor text.toList k true)) ∧
      ∀ n s e, (Session.start (.typed pieces) db).afterTurns (n + 1) = some s →
        semicolons[n]? = some e → s.requests.length = e.line ∧ s.transcript <+: shown := by
  intro db shown after semicolons
  -- An empty text would count as no text, and two dashes are dropped before that.
  have hcommand : Arguments.task { directory? := d?, command? := some text } = .command text :=
    if_neg hempty
  have hruns := runsText_command typed directory files text
  rw [← hcommand] at hruns
  have hview := run_of_runsText (Arguments.read_command hd hdashes)
    (Arguments.directory_of_ok hdirectory rfl) hruns
  rw [hcommand] at hview
  refine ⟨hview, ?_, ?_, Session.requests_of_run db text, fun n s e hs he =>
    shown_of_afterTurns hpieces hs he⟩
  · exact run_of_runsText (Arguments.read_script hd hscript)
      (Arguments.directory_of_ok hdirectory rfl) (runsText_script typed hreturn hopen hstores)
  · exact run_of_runsText (Arguments.read_interactive hd) hdirectory
      (runsText_interactive directory files hpieces)

section Dropped

/-- A directory, and a script with a word that opens no statement. -/
def withDropScript : FileSystem where
  nodes := [(["d"], .directory), (["s"], .file (Text.Utf8.encode "drop;".toList))]
  workingDirectory := []

theorem deeds_drop (db : Database) :
    (Session.start (.ofString "drop;") db).deeds = [.failed (.unrecognizedCommand "drop")] := by
  have hq : (Session.start (.ofString "drop;") db).stream.queue =
      [.ok ⟨.identifier, "drop"⟩, .ok .terminator] :=
    TokenStream.queue_ofSource.trans (by decide +kernel)
  obtain ⟨u, hu⟩ := Session.statement_of_unrecognized hq rfl
  exact Session.deeds_of_failure (Session.isRegular_start db "drop;") hu (by rw [hq]; rfl)

/-- The word is reported in all three ways. -/
theorem front_ends_agree_drop :
    run ["d", "--command=drop;"] [] withDropScript = run ["d", "-f", "s"] [] withDropScript ∧
      ∃ o, run ["d"] [Text.Utf8.encode "drop;".toList] withDropScript = .ran o ∧
        o.ending = .status 0 := by
  have hd : ∀ d ∈ some "d", Word.IsValue d := by
    intro d hd
    rw [← Option.some.inj hd]
    decide
  have hopen : Script.open (.ofString "s") withDropScript =
      .ok ⟨["s"], Text.Utf8.encode "drop;".toList⟩ := Script.open_of_probe (by decide +kernel)
  have hstores : StoresElsewhere ⟨.ofString "d", by decide⟩ withDropScript "drop;" ["s"] := by
    intro name hname
    rw [deeds_drop, List.mem_singleton] at hname
    cases hname
  obtain ⟨hcommand, hscript, hinteractive, -⟩ :=
    @front_ends_agree (some "d") "s" "drop;" [] [Text.Utf8.encode "drop;".toList] withDropScript
      ⟨.ofString "d", by decide⟩ ["s"] hd (by decide) (by decide) (by decide) (by decide)
      (List.append_nil _) (by decide +kernel) hopen hstores
  exact ⟨hcommand.trans hscript.symm, _, hinteractive, rfl⟩

end Dropped

/-! ## 5. Two dashes -/

/-- **Two dashes are dropped.** Given as the statements on the argument line they are as good
as not given, and the shell asks for statements at the terminal. -/
theorem run_dashes {d? : Option String} (hd : ∀ d ∈ d?, Word.IsValue d) (typed : List Bytes)
    (files : FileSystem) :
    run (d?.toList ++ ["--command=--"]) typed files = run d?.toList typed files := by
  have hss : Word.classifyAll? ["--command=--"] = some [.assigned .command ['-', '-']] := by
    decide
  obtain ⟨taken, hread⟩ := Arguments.read_directory hd hss (by simp)
  rw [run, run, hread, Arguments.read_interactive hd, Arguments.takeWords, Arguments.takeWords,
    if_neg Bool.false_ne_true]
  · rfl
  · exact fun h => by cases h

/-- A script of two dashes. -/
def withDashesScript : FileSystem where
  nodes := [(["s"], .file (Text.Utf8.encode "--".toList))]
  workingDirectory := []

/-- **Two dashes on the argument line are not run.** Where the script of two dashes shows
nothing, the same text on the argument line starts a session at the terminal, with the banner
and a prompt. -/
theorem dashes_not_run :
    (∃ o, run ["--command=--"] [] withDashesScript = .ran o ∧ o.output = banner ++ "> \n") ∧
      ∃ o, run ["-f", "s"] [] withDashesScript = .ran o ∧ o.output = "" := by
  have hd : ∀ d ∈ (none : Option String), Word.IsValue d := fun d h => by cases h
  have hdirectory (a : Arguments) (ha : a.directory? = none) :
      a.directory withDashesScript = .ok .root := by
    rw [Arguments.directory, ha]
    rfl
  -- Neither text has any tokens.
  have hempty : arrivalsOf "".toList = [] := by decide +kernel
  have hcomment : arrivalsOf "--".toList = [] := by decide +kernel
  have hopen : Script.open (.ofString "s") withDashesScript =
      .ok ⟨["s"], Text.Utf8.encode "--".toList⟩ := Script.open_of_probe (by decide +kernel)
  have hstores : StoresElsewhere .root withDashesScript "--" ["s"] := by
    intro name hname
    rw [Session.deeds_of_nil ((Session.queue_start _ _).trans hcomment)] at hname
    exact absurd hname List.not_mem_nil
  have hterminal := run_of_runsText (Arguments.read_interactive hd) (hdirectory _ rfl)
    (@runsText_interactive "" .root withDashesScript [] rfl)
  have hscript := run_of_runsText (Arguments.read_script hd (show Word.IsValue "s" by decide))
    (hdirectory _ rfl) (runsText_script [] (by decide) hopen hstores)
  refine ⟨⟨_, (run_dashes hd [] withDashesScript).trans hterminal, ?_⟩, ⟨_, hscript, ?_⟩⟩
  · rw [Session.transcript_of_nil hempty]
    decide +kernel
  · rw [Session.transcript_of_nil hcomment]
    decide +kernel

end CommandLine

end FlatQuery
