import LoxGraph.Proofs.Files.Frame
import LoxGraph.Proofs.Run.Logging
import LoxGraph.Run.Requests

/-!
Every record is written once.

A setup leaves the log with one handler for the console and, if it has opened a file, with one for
this file, whatever handlers there were before (`Surroundings.setupNamed_setsUp`). So what a record
writes depends on the last setup alone: one line on each of the two that it reaches
(`Surroundings.Settled.record`). Over a history of requests the console and the files receive the
lines of the records that reach them, in order, and nothing else (`Surroundings.setup_receives`).
That is so in every file system whose files hold what is written to them.
-/

namespace LoxGraph

variable {σ φ : Type}

/-- What the last setup has settled: from which severity on there is logging, and the file that
was opened for it, if one was. -/
structure LogSetting (φ : Type) where
  level : Severity
  file : Option φ

namespace LogSetting

variable [DecidableEq φ]

/-- Whether a record is to be written to a sink: to the console if it reaches the level, and then
also to the file that was opened. -/
def wants (setting : LogSetting φ) : Sink φ → LogRecord → Bool
  | .console, r => r.severity.reaches setting.level
  | .file file, r => r.severity.reaches setting.level && setting.file == some file

/-- The lines that a sink is to receive of some records, each of which has a setting. -/
def lines (time : String) (sink : Sink φ) (reported : List (LogSetting φ × LogRecord)) :
    List String :=
  (reported.filter fun entry => entry.1.wants sink entry.2).map fun entry => entry.2.line time

theorem lines_singleton (time : String) (sink : Sink φ) (setting : LogSetting φ) (r : LogRecord) :
    lines time sink [(setting, r)] = if setting.wants sink r then [r.line time] else [] := by
  by_cases h : setting.wants sink r <;> simp [lines, h]

end LogSetting

/-- Whether a request sets a positive level, or reports a record to a logger of the program. -/
def LogRequest.Proper : LogRequest → Prop
  | .setup level _ => 0 < level.rank
  | .record r => Logging.covers r.logger = true

/-- Whether a file is asked for by a name. -/
def AsksForFile (name : Option String) : Prop := name ≠ none ∧ name ≠ some ""

/-- The file that a name opens, if it asks for one and this can be opened. -/
def FileSystem.opened? [FileSystem σ φ] (files : σ) : Option String → Option φ
  | none => none
  | some name =>
    if name = "" then none
    else (Path.ofString? name).bind fun path => (openAtEnd files path).toOption.map (·.1)

theorem FileSystem.opened?_of_path [FileSystem σ φ] {name : String} {path : Path}
    (hname : name ≠ "") (hpath : Path.ofString? name = some path) (files : σ) :
    opened? files (some name) = (openAtEnd files path).toOption.map (·.1) := by
  rw [opened?, if_neg hname, hpath, Option.bind_some]

namespace Logging

/-- Whatever the file, a record is written once to each handler if it reaches their level, and
not at all otherwise. -/
theorem deliveries_atLevel {level : Severity} (hlevel : 0 < level.rank)
    (file : Option φ) (time : String) {r : LogRecord} (hlogger : covers r.logger) :
    (atLevel level file).deliveries time r =
      if r.severity.reaches level then
        (.console, r.line time) :: (file.map fun file => (.file file, r.line time)).toList
      else [] := by
  have hset : level ≠ .notSet := by
    rintro rfl
    exact absurd hlevel (by decide)
  have hthreshold : (atLevel level file).thresholdOf r.logger = level := by
    rw [thresholdOf, if_pos ⟨hlogger, hset⟩]
    rfl
  rw [deliveries, hthreshold]
  by_cases hreaches : r.severity.reaches level
  · -- What reaches a positive level is not among what is never logged.
    have henabled : r.severity.isEnabled := by
      have hle : level.rank ≤ r.severity.rank := of_decide_eq_true hreaches
      exact decide_eq_true (Int.lt_of_lt_of_le hlevel hle)
    rw [if_pos ⟨henabled, hreaches⟩, if_pos hreaches, handlersOf, if_pos hlogger]
    cases file <;> simp [atLevel, hreaches]
  · rw [if_neg (fun h => hreaches h.2), if_neg hreaches]

end Logging

namespace Surroundings

variable {s s' s'' : Surroundings σ φ} {level : Severity} {name : Option String}
  {setting : LogSetting φ} {isOpen : σ → φ → Prop} {content : σ → φ → ByteArray}

section Receives

variable [DecidableEq φ]

/-- Whether the console and the files receive, from one state of the surroundings to another, the
lines of some records that are for them, and nothing else. -/
structure Receives (content : σ → φ → ByteArray) (s s' : Surroundings σ φ)
    (reported : List (LogSetting φ × LogRecord)) : Prop where
  written : s'.written.toList =
    s.written.toList ++ (LogSetting.lines s.time .console reported).map (⟨.log, ·⟩)
  content : ∀ file, content s'.files file = content s.files file ++
    (String.join (LogSetting.lines s.time (.file file) reported)).toUTF8
  time : s'.time = s.time

theorem Receives.of_same (hwritten : s'.written = s.written) (htime : s'.time = s.time)
    (hcontent : ∀ file, content s'.files file = content s.files file) :
    s.Receives content s' [] where
  written := by rw [hwritten]; exact (List.append_nil _).symm
  content file := by rw [hcontent]; exact ByteArray.append_empty.symm
  time := htime

theorem Receives.trans {reported reported' : List (LogSetting φ × LogRecord)}
    (h : s.Receives content s' reported) (h' : s'.Receives content s'' reported') :
    s.Receives content s'' (reported ++ reported') where
  written := by
    rw [h'.written, h.written, h.time]
    simp [LogSetting.lines]
  content file := by
    rw [h'.content, h.content, h.time]
    simp [LogSetting.lines, ByteArray.append_assoc]
  time := h'.time.trans h.time

theorem Receives.of_unwanted {r : LogRecord} (hreaches : ¬ r.severity.reaches setting.level)
    (s : Surroundings σ φ) : s.Receives content s [(setting, r)] := by
  have hlines (sink : Sink φ) : LogSetting.lines s.time sink [(setting, r)] = [] := by
    cases sink <;> simp [LogSetting.lines_singleton, LogSetting.wants, hreaches]
  refine ⟨?_, fun file => ?_, rfl⟩
  · rw [hlines]
    exact (List.append_nil _).symm
  · rw [hlines]
    exact ByteArray.append_empty.symm

end Receives

variable [FileSystem σ φ]

/-- How the log is set up: with a file, or for the console alone, either because no file is asked
for or because this cannot be opened. -/
inductive SetsUp (s : Surroundings σ φ) (level : Severity) (name : Option String) :
    Surroundings σ φ × Option LogFault → Prop
  | console (hname : ¬ AsksForFile name) (hfile : FileSystem.opened? s.files name = none) :
      SetsUp s level name ({ s with logging := .atLevel level none }, none)
  | file {path : Path} {file : φ} {files : σ} (hname : AsksForFile name)
      (hfile : FileSystem.opened? s.files name = some file)
      (hopen : FileSystem.openAtEnd s.files path = .ok (file, files)) :
      SetsUp s level name ({ s with logging := .atLevel level (some file), files := files }, none)
  | fault {fault : LogFault} (hname : AsksForFile name)
      (hfile : FileSystem.opened? s.files name = none) :
      SetsUp s level name ({ s with logging := .atLevel level none }, some fault)

theorem setupNamed_setsUp (s : Surroundings σ φ) (level : Severity) (name : Option String) :
    s.SetsUp level name (s.setupNamed level name) := by
  cases name with
  | none => exact .console (fun h => h.1 rfl) rfl
  | some name =>
    by_cases hempty : name = ""
    · rw [setupNamed, if_pos hempty]
      exact .console (fun h => h.2 (congrArg some hempty)) (if_pos hempty)
    have hname : AsksForFile (some name) := ⟨by simp, by simpa using hempty⟩
    rw [setupNamed, if_neg hempty]
    cases hpath : Path.ofString? name with
    | none =>
      have hfile : FileSystem.opened? s.files (some name) = none := by
        rw [FileSystem.opened?, if_neg hempty, hpath]
        rfl
      exact .fault hname hfile
    | some path =>
      have hfile := FileSystem.opened?_of_path hempty hpath s.files
      cases hopen : FileSystem.openAtEnd s.files path with
      | error fault =>
        rw [hopen] at hfile
        simp only [setupLog, Logging.setup, hopen]
        exact .fault hname hfile
      | ok opened =>
        rw [hopen] at hfile
        simp only [setupLog, Logging.setup, hopen]
        exact .file hname hfile hopen

/-- The records among some requests, each with what the last setup before it has settled. -/
def reported : Surroundings σ φ → LogSetting φ → List LogRequest → List (LogSetting φ × LogRecord)
  | _, _, [] => []
  | s, _, .setup level name :: requests =>
    (s.request (.setup level name)).1.reported ⟨level, FileSystem.opened? s.files name⟩ requests
  | s, setting, .record r :: requests =>
    (setting, r) :: (s.request (.record r)).1.reported setting requests

/-- Whether the log is set up as it was settled, with a file that is open if one was opened. -/
structure Settled (isOpen : σ → φ → Prop) (s : Surroundings σ φ) (setting : LogSetting φ) :
    Prop where
  logging : s.logging = .atLevel setting.level setting.file
  level_pos : 0 < setting.level.rank
  isOpen : ∀ file ∈ setting.file, isOpen s.files file

theorem SetsUp.settled (hfs : FileSystem.Stores isOpen content)
    {result : Surroundings σ φ × Option LogFault} (h : s.SetsUp level name result)
    (hlevel : 0 < level.rank) :
    result.1.Settled isOpen ⟨level, FileSystem.opened? s.files name⟩ := by
  cases h with
  | console hname hfile | fault hname hfile =>
    rw [hfile]
    exact ⟨rfl, hlevel, nofun⟩
  | file hname hfile hopen =>
    rw [hfile]
    refine ⟨rfl, hlevel, ?_⟩
    rintro _ ⟨⟩
    exact (hfs.opened hopen).1

variable [DecidableEq φ]

/-- A setup writes nothing. -/
theorem SetsUp.receives (hfs : FileSystem.Stores isOpen content)
    {result : Surroundings σ φ × Option LogFault} (h : s.SetsUp level name result) :
    s.Receives content result.1 [] := by
  cases h with
  | console | fault => exact .of_same rfl rfl fun _ => rfl
  | file hname hfile hopen => exact .of_same rfl rfl (hfs.opened hopen).2

/-- A record that is wanted is written on the console. -/
theorem Receives.of_console {r : LogRecord} (hreaches : r.severity.reaches setting.level)
    (hfile : setting.file = none) (s : Surroundings σ φ) :
    s.Receives content (s.deliver (.console, r.line s.time)) [(setting, r)] where
  written := by
    simp [LogSetting.lines_singleton, LogSetting.wants, hreaches, deliver, write]
  content file := by
    rw [LogSetting.lines_singleton, LogSetting.wants, hfile]
    simp [deliver, write]
  time := rfl

/-- When there is a file for the log, the record is written there as well. -/
theorem Receives.of_file (hfs : FileSystem.Stores isOpen content) {r : LogRecord} {file : φ}
    (hreaches : r.severity.reaches setting.level) (hfile : setting.file = some file)
    (hopen : isOpen s.files file) :
    let s' := (s.deliver (.console, r.line s.time)).deliver (.file file, r.line s.time)
    s'.logging = s.logging ∧ isOpen s'.files file ∧ s.Receives content s' [(setting, r)] := by
  obtain ⟨files, happend, hstill, hown, hothers⟩ := hfs.written (r.line s.time) hopen
  have hdeliver : (s.deliver (.console, r.line s.time)).deliver (.file file, r.line s.time) =
      { s.write .log (r.line s.time) with files := files } := by
    rw [deliver, deliver]
    dsimp only [write]
    rw [happend]
  rw [hdeliver]
  refine ⟨rfl, hstill, ?_, fun other => ?_, rfl⟩
  · simp [LogSetting.lines_singleton, LogSetting.wants, hreaches, write]
  · rw [LogSetting.lines_singleton, LogSetting.wants, hfile]
    -- Only this file has another line; the setting wants none in the others.
    by_cases hsame : other = file
    · rw [hsame, hown]
      simp [hreaches]
    · rw [hothers other hsame]
      simp [Ne.symm hsame]

/-- A record is written as the last setup has settled it, and the log goes on alike. -/
theorem Settled.record (hfs : FileSystem.Stores isOpen content) (h : s.Settled isOpen setting)
    {r : LogRecord} (hlogger : Logging.covers r.logger) :
    (s.perform (.log r)).Settled isOpen setting ∧
      s.Receives content (s.perform (.log r)) [(setting, r)] := by
  have hdeliveries := Logging.deliveries_atLevel h.level_pos setting.file s.time hlogger
  rw [← h.logging] at hdeliveries
  rw [perform, hdeliveries]
  by_cases hreaches : r.severity.reaches setting.level
  · rw [if_pos hreaches]
    cases hfile : setting.file with
    | none =>
      refine ⟨⟨h.logging, h.level_pos, ?_⟩, .of_console hreaches hfile s⟩
      rw [hfile]
      exact nofun
    | some file =>
      obtain ⟨hlogging, hopen, hreceives⟩ :=
        Receives.of_file hfs hreaches hfile (h.isOpen file hfile)
      refine ⟨⟨hlogging.trans h.logging, h.level_pos, ?_⟩, hreceives⟩
      rw [hfile]
      rintro _ ⟨⟩
      exact hopen
  · rw [if_neg hreaches]
    exact ⟨h, .of_unwanted hreaches s⟩

/-- From a log that is set up, all requests are written as the setup before each has settled. -/
theorem Settled.requestAll_receives (hfs : FileSystem.Stores isOpen content)
    (h : s.Settled isOpen setting) {requests : List LogRequest}
    (hproper : ∀ request ∈ requests, request.Proper) :
    s.Receives content (s.requestAll requests) (s.reported setting requests) := by
  -- Every request leaves a log that is set up, under the same setting or under a new one.
  induction requests generalizing s setting with
  | nil => exact .of_same rfl rfl fun _ => rfl
  | cons request requests ih =>
    obtain ⟨hfirst, hothers⟩ := List.forall_mem_cons.mp hproper
    cases request with
    | setup level name =>
      have hsetsUp := s.setupNamed_setsUp level name
      exact (hsetsUp.receives hfs).trans (ih (hsetsUp.settled hfs hfirst) hothers)
    | record r =>
      obtain ⟨hsettled, hreceives⟩ := h.record hfs hfirst
      exact hreceives.trans (ih hsettled hothers)

/-- In a file system whose files hold what is written to them: after a setup of the log with a
positive level, every record is written to the console and the file that the last setup before it
has settled, once if it reaches the level and not at all otherwise, and nothing else is written.
The setup raises a fault exactly when it asks for a file that cannot be opened; then it leaves the
console alone at the new level. -/
theorem setup_receives (hfs : FileSystem.Stores isOpen content) {s s' : Surroundings σ φ}
    {level : Severity} {name : Option String} {fault : Option LogFault}
    {requests : List LogRequest} (hlevel : 0 < level.rank)
    (hsetup : s.request (.setup level name) = (s', fault))
    (hproper : ∀ request ∈ requests, request.Proper) :
    s.Receives content (s'.requestAll requests)
      (s'.reported ⟨level, FileSystem.opened? s.files name⟩ requests) ∧
    s'.logging = .atLevel level (FileSystem.opened? s.files name) ∧
    (fault ≠ none ↔ AsksForFile name ∧ FileSystem.opened? s.files name = none) ∧
    (fault ≠ none → s' = { s with logging := ⟨level, [⟨.console, level⟩]⟩ }) := by
  have hsetsUp : s.SetsUp level name (s', fault) := by
    rw [← hsetup]
    exact s.setupNamed_setsUp level name
  have hsettled := hsetsUp.settled hfs hlevel
  refine ⟨(hsetsUp.receives hfs).trans (hsettled.requestAll_receives hfs hproper),
    hsettled.logging, ?_⟩
  cases hsetsUp with
  | console hname hfile => simp [hname]
  | file hname hfile hopen => simp [hfile]
  | fault hname hfile => exact ⟨by simp [hname, hfile], fun _ => rfl⟩

/-- A log that goes to the console and to a file in the directory above. -/
def loggedFile : Surroundings Files (List String) :=
  ⟨⟨[(["home"], .directory), (["a"], .file .empty)], ["home"]⟩, .atLevel .info (some ["a"]), #[],
    "T"⟩

/-- Requests among which are records that do not reach the level, also one that no level lets
pass. -/
def mixedRequests : List LogRequest :=
  [.record ⟨.error, "loxc", "one"⟩, .record ⟨.info, "loxc.cli", "two"⟩, .setup .debug (some ""),
    .record ⟨.debug, "loxc.cli", "three"⟩, .record ⟨⟨-5⟩, "loxc", "four"⟩]

/-- A log file is made next to the one of the setup before, which receives nothing any more, and
one in a directory that is not there is not opened. -/
theorem loggedFile_setup_receives :
    (∃ s', loggedFile.request (.setup .error (some "/b")) = (s', none) ∧
      (s'.requestAll mixedRequests).written.toList =
        [⟨.log, "T ERROR   loxc: one\n"⟩, ⟨.log, "T DEBUG   loxc.cli: three\n"⟩] ∧
      (s'.requestAll mixedRequests).files.bytesAt ["b"] = "T ERROR   loxc: one\n".toUTF8 ∧
      (s'.requestAll mixedRequests).files.bytesAt ["a"] = .empty) ∧
    ∃ s' fault, loggedFile.request (.setup .error (some "logs/b")) = (s', some fault) ∧
      s'.logging.handlers = [⟨.console, .error⟩] ∧
      (s'.requestAll mixedRequests).written.toList =
        [⟨.log, "T ERROR   loxc: one\n"⟩, ⟨.log, "T DEBUG   loxc.cli: three\n"⟩] ∧
      (s'.requestAll mixedRequests).files.bytesAt ["a"] = .empty := by
  have hproper : ∀ request ∈ mixedRequests, request.Proper := by
    have hcovers : Logging.covers "loxc" = true ∧ Logging.covers "loxc.cli" = true := by
      decide +kernel
    simp [mixedRequests, LogRequest.Proper, hcovers, Severity.debug]
  have hlevel : 0 < Severity.error.rank := by decide
  have hreported (s' : Surroundings Files (List String)) (file : Option (List String)) :
      s'.reported ⟨.error, file⟩ mixedRequests =
        [(⟨.error, file⟩, ⟨.error, "loxc", "one"⟩), (⟨.error, file⟩, ⟨.info, "loxc.cli", "two"⟩),
          (⟨.debug, none⟩, ⟨.debug, "loxc.cli", "three"⟩),
          (⟨.debug, none⟩, ⟨⟨-5⟩, "loxc", "four"⟩)] := rfl
  constructor
  · have hplace : loggedFile.files.plainPlace ⟨"/b", by decide⟩ = [] ++ ["b"] := by
      rw [Files.plainPlace, Path.names_eq, Files.origin_of_absolute (by decide +kernel)]
      rfl
    have hopen := Files.openAtEnd_of_missing hplace rfl rfl (by decide) (by decide) rfl
    have hfile : FileSystem.opened? loggedFile.files (some "/b") = some ["b"] := by
      rw [FileSystem.opened?_of_path (by decide) rfl]
      exact congrArg (fun result => result.toOption.map (·.1)) hopen
    obtain ⟨s', fault, hsetup⟩ : ∃ s' fault,
        loggedFile.request (.setup .error (some "/b")) = (s', fault) := ⟨_, _, rfl⟩
    obtain ⟨hreceives, -, hfault, -⟩ := setup_receives Files.stores hlevel hsetup hproper
    rw [hfile, hreported] at hreceives
    obtain rfl : fault = none := by simpa [hfile] using hfault
    refine ⟨s', hsetup, hreceives.written.trans ?_, (hreceives.content ["b"]).trans ?_,
      (hreceives.content ["a"]).trans ?_⟩ <;> decide +kernel
  · have hplace : loggedFile.files.plainPlace ⟨"logs/b", by decide⟩ = ["home", "logs", "b"] := by
      rw [Files.plainPlace, Path.names_eq, Files.origin_of_relative (by decide +kernel)]
      rfl
    have hopen : FileSystem.openAtEnd loggedFile.files ⟨"logs/b", by decide⟩ = .error .missing := by
      change Files.openAtEnd _ _ = _
      rw [Files.openAtEnd, hplace]
      rfl
    have hfile : FileSystem.opened? loggedFile.files (some "logs/b") = none := by
      rw [FileSystem.opened?_of_path (by decide) rfl, hopen]
      rfl
    obtain ⟨s', fault, hsetup⟩ : ∃ s' fault,
        loggedFile.request (.setup .error (some "logs/b")) = (s', fault) := ⟨_, _, rfl⟩
    obtain ⟨hreceives, hlogging, hfault, -⟩ := setup_receives Files.stores hlevel hsetup hproper
    rw [hfile, hreported] at hreceives
    rw [hfile] at hlogging hfault
    obtain ⟨fault, rfl⟩ := Option.ne_none_iff_exists'.mp (hfault.mpr ⟨⟨by simp, by simp⟩, rfl⟩)
    refine ⟨s', fault, hsetup, by rw [hlogging]; rfl, hreceives.written.trans ?_,
      (hreceives.content ["a"]).trans ?_⟩ <;> decide +kernel

end Surroundings

end LoxGraph
