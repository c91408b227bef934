import TypeLang.Error
import TypeLang.Text.Escape

/-! # Notices

What a compilation tells about its course. -/

namespace TypeLang

open Text

/-- How much a notice matters. -/
inductive Level where
  | debug
  | info
  | warn
deriving DecidableEq, Repr

/-- The name of a level. -/
def Level.text : Level → String
  | debug => "DEBUG"
  | info => "INFO"
  | warn => "WARN"

/-- Something worth telling. -/
inductive Notice where
  /-- A block of comments that documents no union. -/
  | commentBlock (file : String) (line : Nat)
  /-- The declaration of a scalar. -/
  | scalarLine (file : String) (line : Nat) (text : String)
  /-- A block that could not be read and is left out. -/
  | malformedBlock (error : CompileError)
  /-- A constructor of a scalar. -/
  | scalarConstructor (name : String)
  /-- An item that the registry refused and that is left out. -/
  | refusedItem (file : String) (line : Nat) (cause : RegistryError)
  | undeclared (u : Undeclared)
  /-- A schema is done. -/
  | added (file : String) (blocks declared skipped : Nat)
  | generated (units : Nat)
  | written (files : Nat) (directory : String)
deriving DecidableEq, Repr

namespace Notice

/-- The level. -/
def level : Notice → Level
  | commentBlock .. | scalarLine .. | scalarConstructor .. => .debug
  | added .. | generated .. | written .. => .info
  | malformedBlock .. | refusedItem .. | undeclared .. => .warn

/-- The text. -/
def text : Notice → String
  | commentBlock file line => file ++ ":" ++ toString line ++ ": skipping comment-only block"
  | scalarLine file line text =>
    file ++ ":" ++ toString line ++ ": skipping builtin declaration " ++ quoted text
  | malformedBlock error => "skipping malformed block: " ++ error.message
  | scalarConstructor name => "skipping builtin constructor " ++ quoted name
  | refusedItem file line cause =>
    file ++ ":" ++ toString line ++ ": skipping declaration: " ++ cause.message
  | undeclared u => u.message
  | added file blocks declared skipped =>
    file ++ ": " ++ toString blocks ++ " blocks parsed, " ++ toString declared ++ " declared, " ++
      toString skipped ++ " skipped"
  | generated units => toString units ++ " units generated"
  | written files directory => toString files ++ " files written to " ++ directory

end Notice

end TypeLang
