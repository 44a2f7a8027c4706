import LoxGraph.Run.Source

/-!
Source files: the tokens and the tree of the text in a file.

A file may be unreadable, and a text that was read may have a lexical fault;
mistakes in the syntax are part of the result.
-/

namespace LoxGraph

/-- Why a source file has no tokens. -/
inductive SourceFailure where
  | unreadable (failure : IoFailure)
  | lexical (error : LexicalError)
deriving DecidableEq

/-- The line of text that shows why a source file has no tokens. -/
def SourceFailure.text : SourceFailure → String
  | unreadable failure => failure.text
  | lexical error => error.report.text

namespace FileSystem

variable {σ φ : Type} [FileSystem σ φ]

/-- The tokens of the file that a path leads to. -/
def tokenize (files : σ) (path : Path) : Except SourceFailure TokenStream :=
  match readText files path with
  | .error fault => .error (.unreadable ⟨fault.kind, path.text⟩)
  | .ok text => (LoxGraph.tokenize text).mapError .lexical

/-- The tree of the file that a path leads to, and the mistakes in it. -/
def parse (files : σ) (path : Path) : Except SourceFailure ParseResult :=
  (tokenize files path).map TokenStream.parse

end FileSystem

end LoxGraph
