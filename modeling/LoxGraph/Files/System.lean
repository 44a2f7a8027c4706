import LoxGraph.Files.Failure
import LoxGraph.Text.Lines

/-!
File systems, as far as the program needs one.

What a file system does is left open. Any kind of states will do that tells what is read from the
file at a path, opens a file to write at its end, and takes what is written to it. Each of these
may fail in whatever way. Text that is read is in UTF-8, and its line ends are unified.

What is written to a file that stands for a stream of the program, such as the standard output,
belongs to the states as well. The text of a file has no lone surrogates, as UTF-8 has none.
-/

namespace LoxGraph

/-- The text of a path, which never holds the character U+0000. -/
structure Path where
  text : String
  no_nul : '\x00' ∉ text.toList

namespace Path

/-- What is said of a text that is no path. -/
def refusal : String := "embedded null byte"

/-- The path of a text, if it is one. -/
def ofString? (text : String) : Option Path :=
  if h : '\x00' ∉ text.toList then some ⟨text, h⟩ else none

end Path

/-- A file system with states `σ`, in which a file that was opened is known as a `φ`. -/
class FileSystem (σ : Type) (φ : outParam Type) where
  /-- The bytes of the file that a path leads to. -/
  readBytes (files : σ) (path : Path) : Except FileFault ByteArray
  /-- Opens the file that a path leads to, to write at its end, and makes it if it is not there. -/
  openAtEnd (files : σ) (path : Path) : Except FileFault (φ × σ)
  /-- Writes text at the end of a file that was opened. If this fails, there is something to say
  about it. -/
  append (files : σ) (file : φ) (text : String) : σ × Option String

namespace FileSystem

/-- The text of bytes in UTF-8, with its line ends unified. -/
def decode (content : ByteArray) : Except FileFault String :=
  match String.fromUTF8? content with
  | some text => .ok (String.ofList (unifyLineEnds text.toList))
  | none => .error .undecodable

/-- The text of the file that a path leads to. -/
def readText {σ φ : Type} [FileSystem σ φ] (files : σ) (path : Path) : Except FileFault String := do
  decode (← readBytes files path)

end FileSystem

end LoxGraph
