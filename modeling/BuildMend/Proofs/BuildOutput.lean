import BuildMend.Proofs.BuildTool
import BuildMend.Proofs.Text.Decoding

/-!
The output of the build tool, which comes in pieces and is read as a whole.

* `wholeLines`: the lines of an output whose octets are decoded all at once.
* `LineReader.all_ofPieces`: the reader of the pieces gives the same lines.
* `BuildTool.run_exits`: an operation whose process exits, with all that it logs; of the pieces only
  what they make together matters.
-/

namespace BuildMend

open Act Number Text

namespace Text

/-! ### Lines of an output -/

/-- The lines of an output whose octets are decoded all at once: the pieces between line feeds, but not
an empty one at the end, without the carriage returns at their ends. -/
def wholeLines (s : Utf8.Octets) : List String :=
  let pieces := (Utf8.decodeLossy s).splitOn '\n'
  let pieces := if pieces.getLast? = some [] then pieces.dropLast else pieces
  pieces.map fun piece => String.ofList (dropWhileEnd (· == '\r') piece)

/-- The output with all its lines ended. -/
def wholeOutput (s : Utf8.Octets) : String := outputText (wholeLines s)

/-- The reader of the pieces gives the lines of the whole, however the output comes in pieces. -/
theorem LineReader.all_ofPieces (pieces : List Utf8.Octets) :
    (ofPieces pieces).all.map lineText = wholeLines pieces.flatten := by
  generalize hs : pieces.flatten = s
  have hcut : s.splitOn lineFeed = (cut s).1 ++ [(cut s).2] := splitOn_eq_cut s
  have hdecoded : (Utf8.decodeLossy s).splitOn '\n' =
      (cut s).1.map Utf8.decodeLossy ++ [Utf8.decodeLossy (cut s).2] := by
    have hlines := Utf8.splitOn_decodeLossy s
    rw [show s.splitOn 10 = (cut s).1 ++ [(cut s).2] from hcut] at hlines
    rw [hlines, List.map_append, List.map_singleton]
  rw [ofPieces_eq, hs, wholeLines, hdecoded, all, complete, List.reverse_reverse]
  simp only [List.getLast?_concat, List.dropLast_concat, Option.some.injEq,
    Utf8.decodeLossy_eq_nil_iff, List.isEmpty_iff]
  have hline : lineText = fun line =>
      String.ofList (dropWhileEnd (· == '\r') (Utf8.decodeLossy line)) := rfl
  by_cases hlast : (cut s).2 = []
  · rw [if_pos hlast, if_pos hlast, List.map_map, hline]
    rfl
  · rw [if_neg hlast, if_neg hlast, List.map_append, List.map_append, List.map_map, hline]
    rfl

end Text

/-! ### What is logged -/

namespace BuildTool

/-- The records of the lines of an output. -/
def lineRecords (lines : List String) : List Event := lines.map fun l => .log .debug .buildTool l

/-- The records of the reports whose position cannot be read. -/
def unreadableRecords (reports : List String) : List Event :=
  reports.map fun r =>
    .log .debug .diagnostics s!"Skipping diagnostic with unreadable position: {quoted r}"

/-- The record of a success that reports errors. -/
def contradictionRecords (mode : BuildMode) (b : Build) : List Event :=
  if b.isContradictory then
    [.log .warning .buildTool
      s!"[{mode.name}] Build exited with code 0 but reported {b.errorCount} error(s)"]
  else []

lemma noteLines_apply (lines : List String) (w : World) :
    noteLines lines w = (.ok (), w.told (lineRecords lines).reverse) := by
  induction lines generalizing w with
  | nil => rfl
  | cons l lines ih =>
    have htail := ih (w.told [.log .debug .buildTool l])
    rw [noteLines, bind_apply]
    refine htail.trans ?_
    simp [lineRecords, World.told]

lemma noteUnreadable_apply (reports : List String) (w : World) :
    noteUnreadable reports w = (.ok (), w.told (unreadableRecords reports).reverse) := by
  induction reports generalizing w with
  | nil => rfl
  | cons r reports ih =>
    have htail := ih (w.told [.log .debug .diagnostics
      s!"Skipping diagnostic with unreadable position: {quoted r}"])
    rw [noteUnreadable, bind_apply]
    refine htail.trans ?_
    simp [unreadableRecords, World.told]

/-! ### An operation whose process exits -/

section Exits

variable {tool : BuildTool} {mode : BuildMode} {project : Path} {pieces : List Utf8.Octets}
  {code : Int} {leavings : Leavings} {w : World}

lemma attend_exits :
    tool.attend mode pieces (.exits code) leavings w =
      (.ok (code, wholeLines pieces.flatten),
        { w.told (lineRecords (wholeLines pieces.flatten)).reverse with
          tree := w.tree.leave leavings }) := by
  have hlines := LineReader.all_ofPieces pieces
  simp only [attend, hlines]
  rw [bind_apply, noteLines_apply]
  rfl

/-- A process that exits in time is started, and its lines are logged. -/
lemma execute_exits (command : List String) (directory : String)
    (hlimit : givesTime tool.limit = true)
    (hprocess : w.process 0 = .runs pieces (.exits code) leavings) :
    tool.execute mode command directory w =
      (.ok (code, wholeLines pieces.flatten),
        { w.told ((lineRecords (wholeLines pieces.flatten)).reverse ++
            [.start mode command directory]) with
          processes := w.processes.drop 1
          tree := w.tree.leave leavings }) := by
  let v : World := { w.told [.start mode command directory] with processes := w.processes.drop 1 }
  have hattend : tool.attend mode pieces (.exits code) leavings v =
      (.ok (code, wholeLines pieces.flatten),
        { w.told ((lineRecords (wholeLines pieces.flatten)).reverse ++
            [.start mode command directory]) with
          processes := w.processes.drop 1
          tree := w.tree.leave leavings }) := by
    rw [attend_exits]
    simp [v, World.told]
  have hnext : nextProcess (w.told [.start mode command directory]) =
      (.ok (.runs pieces (.exits code) leavings), v) := by
    rw [nextProcess_apply, ← hprocess]
    rfl
  rw [execute]
  refine (bind_of_ok (Action.record_apply _ _)).trans ((bind_of_ok hnext).trans ?_)
  simp only
  cases hl : tool.limit with
  | none => exact hattend
  | some limit =>
    have htime : limit.isNonPositive = false ∧ limit.isTooLarge = false := by
      simpa [givesTime, hl] using hlimit
    simp only [htime.1, htime.2, Bool.false_eq_true, if_false]
    exact hattend

/-- Where an operation runs, once its directory has been looked for. -/
lemma directoryFor_apply
    (hplace : mode.worksInSources = true → w.tree.isTooLong (project ++ ["src"]) = false) :
    directoryFor project mode w = (.ok (buildDirectory w.tree project mode), w) := by
  rw [directoryFor]
  cases hm : mode.worksInSources with
  | false => rfl
  | true =>
    have hfound : Action.lookFor (project ++ ["src"]) w = (.ok (), w) := by
      rw [Action.lookFor]
      refine (bind_of_ok (get_apply w)).trans ?_
      rw [hplace hm]
      rfl
    simp only [if_true]
    exact (bind_of_ok hfound).trans rfl

lemma contradiction_apply (mode : BuildMode) (b : Build) (w : World) :
    (do
      if b.isContradictory then
        note .warning
          s!"[{mode.name}] Build exited with code 0 but reported {b.errorCount} error(s)"
      return b : Action Build) w = (.ok b, w.told (contradictionRecords mode b).reverse) := by
  rw [contradictionRecords]
  cases b.isContradictory <;> rfl

/-- What an operation logs whose process exits. -/
def exitRecords (mode : BuildMode) (command : List String) (place : String) (lines : List String)
    (b : Build) : List Event :=
  let line := " ".intercalate command
  .log .debug .buildTool s!"[{mode.name}] Running {line} in {place}" ::
    .start mode command place ::
      (lineRecords lines ++ unreadableRecords (Findings.ofOutput b.output).unreadable ++
        contradictionRecords mode b)

lemma run_apply {command : List String} {place : Path} {b : Build}
    (hplace : directoryFor project mode w = (.ok place, w))
    (hcommand : tool.command? mode = some command) (hlimit : givesTime tool.limit = true)
    (hprocess : w.process 0 = .runs pieces (.exits code) leavings)
    (hb : Build.ofOutput mode code (wholeOutput pieces.flatten) = b) :
    tool.run mode project w =
      (.ok b,
        { w.told (exitRecords mode command place.fullText (wholeLines pieces.flatten) b).reverse with
          processes := w.processes.drop 1
          tree := w.tree.leave leavings }) := by
  let line := " ".intercalate command
  let running : Event := .log .debug .buildTool s!"[{mode.name}] Running {line} in {place.fullText}"
  -- the world in which the process has exited
  let exited : World :=
    { (w.told [running]).told ((lineRecords (wholeLines pieces.flatten)).reverse ++
        [.start mode command place.fullText]) with
      processes := w.processes.drop 1
      tree := w.tree.leave leavings }
  have hexecute : tool.execute mode command place.fullText (w.told [running]) =
      (.ok (code, wholeLines pieces.flatten), exited) :=
    execute_exits command place.fullText hlimit hprocess
  have houtput : outputText (wholeLines pieces.flatten) = b.output := by
    rw [← hb]
    rfl
  have hbuild : Build.ofOutput mode code b.output = b := by
    rw [← houtput]
    exact hb
  rw [run]
  refine (bind_of_ok hplace).trans ?_
  simp only [hcommand]
  refine (bind_of_ok (Action.record_apply _ _)).trans ?_
  refine (bind_of_ok hexecute).trans ?_
  simp only [houtput, hbuild]
  refine (bind_of_ok (noteUnreadable_apply _ _)).trans ?_
  refine (contradiction_apply mode b _).trans ?_
  simp [exited, running, line, World.told, exitRecords]

/-- An operation whose process exits in time returns what its output as a whole says, and logs the lines
of the whole in their order, whatever pieces make up the output. -/
theorem run_exits {command : List String} {output : Utf8.Octets}
    (hplace : mode.worksInSources = true → w.tree.isTooLong (project ++ ["src"]) = false)
    (hcommand : tool.command? mode = some command) (hlimit : givesTime tool.limit = true)
    (hprocess : w.process 0 = .runs pieces (.exits code) leavings)
    (hpieces : pieces.flatten = output) :
    let build := Build.ofOutput mode code (wholeOutput output)
    (tool.run mode project w).1 = .ok build ∧
      (tool.run mode project w).2.trace = w.trace ++
        exitRecords mode command (buildDirectory w.tree project mode).fullText (wholeLines output)
          build ∧
      (tool.run mode project w).2.tree = w.tree.leave leavings ∧
      (tool.run mode project w).2.processes = w.processes.drop 1 := by
  subst hpieces
  intro build
  rw [run_apply (directoryFor_apply hplace) hcommand hlimit hprocess rfl]
  refine ⟨rfl, ?_, rfl, rfl⟩
  simp [World.told, World.trace, build]

end Exits

/-- A tool that prints a character cut in two, a line end cut in two, and an octet that is none. -/
def splitWorld : World :=
  { tree := ⟨[], []⟩
    processes := [.runs [[0xC3], [0xA9, 13], [10, 0xFF]] (.exits 0) {}] }

theorem run_exits_split :
    (run ⟨[(.solution, ["tool"])], none⟩ .solution ["project"] splitWorld).1 =
      .ok (Build.ofOutput .solution 0 "é\n\uFFFD\n") := by
  have hwhole : wholeOutput [0xC3, 0xA9, 13, 10, 0xFF] = "é\n\uFFFD\n" := by decide +kernel
  have hrun := @run_exits ⟨[(.solution, ["tool"])], none⟩ .solution ["project"]
    [[0xC3], [0xA9, 13], [10, 0xFF]] 0 {} splitWorld ["tool"] [0xC3, 0xA9, 13, 10, 0xFF]
    (by decide) rfl rfl rfl rfl
  rw [hwhole] at hrun
  exact hrun.1

end BuildTool

end BuildMend
