import TypeLang.Fault
import TypeLang.Registry.Undeclared
import TypeLang.Text.Escape

/-! # Errors

Everything that can end a compilation. `message` is the text for a person, `inspect` the one that
lays every part of the error open. -/

namespace TypeLang

open Text

/-- Why a file or directory could not be used. -/
inductive FileFault where
  | missing
  | occupied
  | notDirectory
  | isDirectory
  /-- A name or the whole path has too many bytes. -/
  | nameTooLong
  /-- The path holds the character that ends a path. -/
  | nulInPath
  /-- The bytes of the file are no text. -/
  | notText
deriving DecidableEq, Repr

namespace FileFault

/-- The fault in words. -/
def description : FileFault → String
  | missing => "No such file or directory"
  | occupied => "File exists"
  | notDirectory => "Not a directory"
  | isDirectory => "Is a directory"
  | nameTooLong => "File name too long"
  | nulInPath => "file name contained an unexpected NUL byte"
  | notText => "stream did not contain valid UTF-8"

/-- The kind of the fault. -/
def kind : FileFault → String
  | missing => "NotFound"
  | occupied => "AlreadyExists"
  | notDirectory => "NotADirectory"
  | isDirectory => "IsADirectory"
  | nameTooLong => "InvalidFilename"
  | nulInPath => "InvalidInput"
  | notText => "InvalidData"

/-- The number under which the system reports the fault. A fault that is found without asking the
system has none. -/
def code? : FileFault → Option Nat
  | missing => some 2
  | occupied => some 17
  | notDirectory => some 20
  | isDirectory => some 21
  | nameTooLong => some 36
  | nulInPath | notText => none

/-- The message. -/
def message (f : FileFault) : String :=
  match f.code? with
  | some code => f.description ++ " (os error " ++ toString code ++ ")"
  | none => f.description

/-- The parts of the fault. -/
def inspect (f : FileFault) : String :=
  let parts := "kind: " ++ f.kind ++ ", message: " ++ visible f.description ++ " \x7d"
  match f.code? with
  | some code => "Os \x7b code: " ++ toString code ++ ", " ++ parts
  | none => "Error \x7b " ++ parts

end FileFault

/-- Why a compilation ended. -/
inductive CompileError where
  /-- A line that is no declaration. -/
  | line (source : String) (number : Nat) (fault : Fault)
  /-- An item that the registry refuses. -/
  | item (source : String) (number : Nat) (cause : RegistryError)
  /-- A type that is never declared. -/
  | undeclared (u : Undeclared)
  | file (path : String) (fault : FileFault)
deriving DecidableEq, Repr

namespace CompileError

/-- The message. -/
def message : CompileError → String
  | line source number fault =>
    "Parse error in " ++ source ++ " at line " ++ toString number ++ ", column " ++
      toString fault.column ++ ": " ++ fault.issue.message
  | item source number cause =>
    "Declaration error in " ++ source ++ " at line " ++ toString number ++ ": " ++ cause.message
  | undeclared u => "Verifier error: " ++ u.message
  | file path fault => path ++ ": " ++ fault.message

/-- The parts of the error. -/
def inspect : CompileError → String
  | line source number fault =>
    "ParseError \x7b file: " ++ visible source ++ ", msg: " ++ visible fault.issue.message ++
      ", line: " ++ toString number ++ ", column: " ++ toString fault.column ++ " \x7d"
  | item source number cause =>
    "DeclarationError \x7b file: " ++ visible source ++ ", msg: " ++ visible cause.message ++
      ", line: " ++ toString number ++ " \x7d"
  | undeclared u => "VerifierError(" ++ visible u.message ++ ")"
  | file path fault =>
    "File \x7b path: " ++ visible path ++ ", source: " ++ fault.inspect ++ " \x7d"

end CompileError

end TypeLang
