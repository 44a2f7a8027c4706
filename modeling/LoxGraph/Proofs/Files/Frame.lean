import LoxGraph.Files.Tree
import LoxGraph.Proofs.Files.Laws
import LoxGraph.Proofs.Text.Split

/-!
What a change at one place of a tree leaves alone.

A file that is opened or written to changes no other entry. So what a path leads to stays the same
as long as the path does not come by the place of the change (`Files.separates`), and the files
hold what was written to each of them (`Files.stores`).
-/

namespace LoxGraph

theorem Path.names_eq (path : Path) :
    path.names = (path.text.toList.splitOn '/').map String.ofList :=
  splitOn_slash path.text

namespace Files

/-- Whether two trees have the same entries, but for one place, if there is one. -/
structure SameBut (place : Option (List String)) (files files' : Files) : Prop where
  workingDirectory : files'.workingDirectory = files.workingDirectory
  entry_eq : ∀ other, place ≠ some other → files'.entry? other = files.entry? other

variable {place : Option (List String)} {files files' files'' : Files} {path : Path}
  {names : List String}

theorem SameBut.refl (place : Option (List String)) (files : Files) :
    SameBut place files files := ⟨rfl, fun _ _ => rfl⟩

theorem SameBut.symm (h : SameBut place files files') : SameBut place files' files :=
  ⟨h.workingDirectory.symm, fun other hother => (h.entry_eq other hother).symm⟩

theorem SameBut.trans (h : SameBut place files files') (h' : SameBut place files' files'') :
    SameBut place files files'' where
  workingDirectory := h'.workingDirectory.trans h.workingDirectory
  entry_eq other hother := (h'.entry_eq other hother).trans (h.entry_eq other hother)

theorem lookup_filter_ne {entries : List (List String × Entry)} {names names' : List String}
    (h : names ≠ names') :
    (entries.filter (·.1 != names)).lookup names' = entries.lookup names' := by
  induction entries with
  | nil => rfl
  | cons entry entries ih =>
    obtain ⟨key, value⟩ := entry
    by_cases hkey : key = names
    · have hother : (names' == key) = false := by simpa [hkey] using h.symm
      rw [List.filter_cons_of_neg (by simp [hkey]), ih, List.lookup_cons, hother]
    · rw [List.filter_cons_of_pos (by simp [hkey]), List.lookup_cons, List.lookup_cons, ih]

theorem put_sameBut (files : Files) (names : List String) (entry : Entry) :
    SameBut (some names) files (files.put names entry) where
  workingDirectory := rfl
  entry_eq other hnames := by
    have hne : names ≠ other := fun heq => hnames (congrArg some heq)
    have hother : (other == names) = false := by simpa using hne.symm
    unfold entry? put
    rw [List.lookup_append, lookup_filter_ne hne, List.lookup_cons, hother]
    simp

theorem put_entry?_self (files : Files) (hnames : names ≠ []) (entry : Entry) :
    Files.entry? (files.put names entry) names = some entry := by
  have hnone : (files.entries.filter (·.1 != names)).lookup names = none := by
    rw [List.lookup_eq_none_iff]
    intro other hother
    have hne := (List.mem_filter.mp hother).2
    rw [bne_comm] at hne
    simpa using hne
  unfold entry? put
  rw [if_neg hnames, List.lookup_append, hnone, List.lookup_cons, beq_self_eq_true]
  rfl

/-- Whether there is a file at a place. -/
def IsFile (files : Files) (names : List String) : Prop :=
  ∃ content, files.entry? names = some (.file content)

theorem IsFile.ne_nil (h : files.IsFile names) : names ≠ [] := by
  rintro rfl
  obtain ⟨content, hentry⟩ := h
  cases hentry

/-- The bytes of the file at a place. There are none where no file is. -/
def bytesAt (files : Files) (names : List String) : ByteArray :=
  match files.entry? names with
  | some (.file content) => content
  | _ => .empty

theorem bytesAt_of_file {content : ByteArray}
    (h : files.entry? names = some (.file content)) : files.bytesAt names = content := by
  rw [bytesAt, h]

theorem SameBut.bytesAt_eq (h : SameBut place files files') (hnames : place ≠ some names) :
    files'.bytesAt names = files.bytesAt names := by
  rw [bytesAt, bytesAt, h.entry_eq names hnames]

/-- Text that is written at the end of a file comes behind the bytes that it has. -/
theorem append_of_file {content : ByteArray} (h : files.entry? names = some (.file content))
    (text : String) :
    files.append names text = (files.put names (.file (content ++ text.toUTF8)), none) := by
  rw [append, h]

/-- A file that is opened is there already, or it is made with nothing in it. -/
theorem openAtEnd_cases (h : files.openAtEnd path = .ok (names, files')) : names ≠ [] ∧
    ((∃ content, files.entry? names = some (.file content) ∧ files' = files) ∨
      files.entry? names = none ∧ files' = files.put names (.file .empty)) := by
  unfold openAtEnd at h
  dsimp only at h
  generalize files.plainPlace path = place at h
  split at h
  · cases h
  split at h
  · cases h
  rename_i hlength hne
  cases hparent : place.dropLast.foldlM files.step [] with
  | error fault =>
    rw [hparent] at h
    cases h
  | ok parent =>
    rw [hparent] at h
    dsimp only [bind, Except.bind] at h
    split at h
    · cases h
    split at h
    · cases h
    split at h
    · cases h
    · rename_i content hentry
      cases h
      exact ⟨hne, .inl ⟨content, hentry, rfl⟩⟩
    · rename_i hentry
      cases h
      exact ⟨hne, .inr ⟨hentry, rfl⟩⟩

/-- A file that is opened is there then, and no other one is made. -/
theorem openAtEnd_sameBut (h : files.openAtEnd path = .ok (names, files')) :
    SameBut (some names) files files' ∧ files'.IsFile names := by
  obtain ⟨hnames, ⟨content, hentry, rfl⟩ | ⟨-, rfl⟩⟩ := openAtEnd_cases h
  · exact ⟨.refl _ _, content, hentry⟩
  · exact ⟨put_sameBut files names _, .empty, put_entry?_self files hnames _⟩

/-- Opening a file changes the bytes of none. -/
theorem openAtEnd_bytesAt (h : files.openAtEnd path = .ok (names, files')) (other : List String) :
    files'.bytesAt other = files.bytesAt other := by
  obtain ⟨hnames, ⟨content, hentry, rfl⟩ | ⟨hnone, rfl⟩⟩ := openAtEnd_cases h
  · rfl
  · by_cases hsame : names = other
    · have hentry := files.put_entry?_self hnames (.file .empty)
      rw [← hsame, bytesAt_of_file hentry, bytesAt, hnone]
    · exact (put_sameBut files names _).bytesAt_eq (by simpa using hsame)

/-- The files of a tree hold what is written to each of them. -/
theorem stores : FileSystem.Stores IsFile bytesAt where
  opened h := ⟨(openAtEnd_sameBut h).2, openAtEnd_bytesAt h⟩
  written {files names} text hfile := by
    obtain ⟨content, hentry⟩ := hfile
    have hafter := files.put_entry?_self (IsFile.ne_nil ⟨content, hentry⟩)
      (.file (content ++ text.toUTF8))
    refine ⟨_, append_of_file hentry text, ⟨_, hafter⟩, ?_, ?_⟩
    · rw [bytesAt_of_file hafter, bytesAt_of_file hentry]
    · intro other hother
      exact (put_sameBut files names _).bytesAt_eq (by simpa using hother.symm)

theorem origin_of_absolute (h : path.text.startsWith "/" = true) (files : Files) :
    files.origin path = [] := if_pos h

theorem origin_of_relative (h : path.text.startsWith "/" = false) (files : Files) :
    files.origin path = files.workingDirectory := if_neg (by simp [Path.isAbsolute, h])

/-- A file that is not there is made where its directory is. -/
theorem openAtEnd_of_missing {parent : List String} {name : String}
    (hplace : files.plainPlace path = parent ++ [name])
    (hparent : parent.foldlM files.step [] = .ok parent) (hdirectory : files.isDirectory parent)
    (hlength : (absoluteText (parent ++ [name])).utf8ByteSize ≤ Path.maxBytes)
    (hshort : name.utf8ByteSize ≤ Path.maxNameBytes)
    (hmissing : files.entry? (parent ++ [name]) = none) :
    files.openAtEnd path =
      .ok (parent ++ [name], files.put (parent ++ [name]) (.file .empty)) := by
  have hlast : (parent ++ [name]).getLastD "" = name := by simp
  rw [openAtEnd, hplace, if_neg (Nat.not_lt.mpr hlength), if_neg (by simp),
    List.dropLast_concat, hparent]
  dsimp only [bind, Except.bind]
  rw [hdirectory, hmissing, hlast, if_neg (Nat.not_lt.mpr hshort)]
  rfl

/-- Whether a path comes by a place on its way, at its end or before. -/
def LeadsThrough (files : Files) (path : Path) (names : List String) : Prop :=
  ∃ front, front <+: path.names ∧ front.foldlM files.step (files.origin path) = .ok names

namespace SameBut

theorem isDirectory_eq (h : SameBut place files files') {start : List String}
    (hstart : start ∉ place) : files.isDirectory start = files'.isDirectory start := by
  rw [isDirectory, isDirectory, h.entry_eq start hstart]

theorem origin_eq (h : SameBut place files files') (path : Path) :
    files.origin path = files'.origin path := by
  rw [origin, origin, h.workingDirectory]

/-- A step from another place, and to another place, is the same one. -/
theorem step_eq (h : SameBut place files files') {start : List String} {name : String}
    (hstart : start ∉ place)
    (hnext : ∀ names ∈ place, files'.entry? names ≠ none ∧ files'.step start name ≠ .ok names) :
    files.step start name = files'.step start name := by
  unfold step
  rw [h.isDirectory_eq hstart]
  split
  · rfl
  split
  · rfl
  split
  · rfl
  split
  · rfl
  rename_i hdirectory hstay hup hshort
  have hentry : files'.entry? (start ++ [name]) = files.entry? (start ++ [name]) := by
    apply h.entry_eq
    intro hplace
    obtain ⟨hthere, hto⟩ := hnext _ hplace
    apply hto
    unfold step
    rw [if_neg hdirectory, if_neg hstay, if_neg hup, if_neg hshort]
    cases hfound : files'.entry? (start ++ [name]) with
    | none => exact absurd hfound hthere
    | some entry => rfl
  rw [hentry]

/-- So is a way that does not come by the place. -/
theorem foldlM_step_eq (h : SameBut place files files') (names start : List String)
    (hthere : ∀ changed ∈ place, files'.entry? changed ≠ none)
    (hway : ∀ changed ∈ place, ∀ front, front <+: names →
      front.foldlM files'.step start ≠ .ok changed) :
    names.foldlM files.step start = names.foldlM files'.step start := by
  induction names generalizing start with
  | nil => rfl
  | cons name names ih =>
    have hstep : files.step start name = files'.step start name := by
      apply h.step_eq
      · intro hchanged
        exact hway start hchanged [] List.nil_prefix rfl
      · intro changed hchanged
        refine ⟨hthere changed hchanged, fun hto => ?_⟩
        apply hway changed hchanged [name] (by simp)
        simpa using hto
    rw [List.foldlM_cons, List.foldlM_cons, hstep]
    cases hto : files'.step start name with
    | error fault => rfl
    | ok next =>
      apply ih
      intro changed hchanged front hfront hlater
      apply hway changed hchanged (name :: front) (List.cons_prefix_cons.mpr ⟨rfl, hfront⟩)
      rw [List.foldlM_cons, hto]
      exact hlater

theorem readBytes_eq (h : SameBut place files files')
    (hthere : ∀ changed ∈ place, files'.entry? changed ≠ none)
    (hway : ∀ changed ∈ place, ¬ files'.LeadsThrough path changed) :
    files.readBytes path = files'.readBytes path := by
  have hfronts : ∀ changed ∈ place, ∀ front, front <+: path.names →
      front.foldlM files'.step (files'.origin path) ≠ .ok changed :=
    fun changed hchanged front hfront hto => hway changed hchanged ⟨front, hfront, hto⟩
  have hresolve : files.resolve path = files'.resolve path := by
    rw [resolve, resolve, h.origin_eq, h.foldlM_step_eq path.names _ hthere hfronts]
  rw [readBytes, readBytes, hresolve]
  cases hto : files'.resolve path with
  | error fault => rfl
  | ok last =>
    have hentry : files'.entry? last = files.entry? last := by
      apply h.entry_eq
      intro hplace
      apply hfronts last hplace path.names (List.prefix_refl _)
      unfold resolve at hto
      split at hto
      · cases hto
      split at hto
      · cases hto
      · exact hto
    dsimp only [bind, Except.bind]
    rw [hentry]

end SameBut

end Files

end LoxGraph
