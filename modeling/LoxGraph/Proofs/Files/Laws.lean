import LoxGraph.Files.System

/-!
What may be known of a file system.

A theorem that has to know what comes of opening a file and writing to it says so. A file may take
whatever is written to it (`FileSystem.Takes`). Opened files may hold what was written to them, and
others what they held before (`FileSystem.Stores`). And a change to one file may be unseen along
the paths that do not come by it (`FileSystem.Separates`).
-/

namespace LoxGraph

namespace FileSystem

variable {σ φ : Type} [FileSystem σ φ] {files files' files'' opened : σ} {file : φ} {log : Path}

/-- Whether a state of the files comes from another by writing to one file, if there is one, and
to no other. -/
inductive WrittenTo (file : Option φ) (files : σ) : σ → Prop where
  | nothing : WrittenTo file files files
  | append {files' : σ} {f : φ} (h : WrittenTo file files files') (hf : f ∈ file) (text : String) :
    WrittenTo file files (FileSystem.append files' f text).1

theorem WrittenTo.trans {file : Option φ} (h : WrittenTo file files files')
    (h' : WrittenTo file files' files'') : WrittenTo file files files'' := by
  induction h' with
  | nothing => exact h
  | append _ hf text ih => exact .append ih hf text

/-- Whether a file, if there is one, takes whatever is written to it from now on. -/
def Takes (file : Option φ) (files : σ) : Prop :=
  ∀ files', WrittenTo file files files' →
    ∀ f ∈ file, ∀ text, (FileSystem.append files' f text).2 = none

theorem Takes.of_writtenTo {file : Option φ} (h : Takes file files)
    (hwritten : WrittenTo file files files') : Takes file files' :=
  fun files'' hlater => h files'' (hwritten.trans hlater)

/-- What opened files hold: opening a file changes the content of none, and an opened file takes
text behind its content, while the other files keep theirs. -/
structure Stores (isOpen : σ → φ → Prop) (content : σ → φ → ByteArray) : Prop where
  opened : ∀ {files files' : σ} {path : Path} {file : φ},
    openAtEnd files path = .ok (file, files') →
    isOpen files' file ∧ ∀ other, content files' other = content files other
  written : ∀ {files : σ} {file : φ} (text : String), isOpen files file →
    ∃ files', append files file text = (files', none) ∧ isOpen files' file ∧
      content files' file = content files file ++ text.toUTF8 ∧
      ∀ other, other ≠ file → content files' other = content files other

/-- A file that was opened stays open as long as nothing is written to another. -/
theorem Stores.takes {isOpen : σ → φ → Prop} {content : σ → φ → ByteArray}
    (h : Stores isOpen content) (hopen : openAtEnd files log = .ok (file, opened)) :
    Takes (some file) opened := by
  have hstays : ∀ files', WrittenTo (some file) opened files' → isOpen files' file := by
    intro files' hwritten
    induction hwritten with
    | nothing => exact (h.opened hopen).1
    | append _ hf text ih =>
      obtain rfl := Option.some.inj hf
      obtain ⟨files'', happend, hstill, -⟩ := h.written text ih
      rw [happend]
      exact hstill
  rintro files' hwritten _ ⟨⟩ text
  obtain ⟨files'', happend, -⟩ := h.written text (hstays files' hwritten)
  rw [happend]

/-- Which paths come by a file that may be opened, at their end or on their way: along the others
nothing is seen of it, whether it is made when it is opened or written to later. -/
structure Separates (comesBy : σ → Path → Path → Prop) : Prop where
  readBytes_eq : ∀ {files opened files' : σ} {log path : Path} {file : φ},
    openAtEnd files log = .ok (file, opened) → WrittenTo (some file) opened files' →
    ¬ comesBy files path log → readBytes files' path = readBytes files path

theorem Separates.readText_eq {comesBy : σ → Path → Path → Prop} (h : Separates comesBy)
    (hopen : openAtEnd files log = .ok (file, opened))
    (hwritten : WrittenTo (some file) opened files') {path : Path}
    (hpath : ¬ comesBy files path log) : readText files' path = readText files path := by
  rw [readText, readText, h.readBytes_eq hopen hwritten hpath]

end FileSystem

end LoxGraph
