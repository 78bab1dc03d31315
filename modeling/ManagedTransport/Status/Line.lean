import ManagedTransport.Address.Printer
import ManagedTransport.Error
import ManagedTransport.Text.Escape

/-!
# Status lines

A managed transport tells tor on its standard output how far it has come, one
line a message: a keyword as it stands, and escaped arguments, each behind one
space.
-/

namespace ManagedTransport

/-- A keyword with its arguments. -/
structure StatusLine where
  keyword : String
  args : List String
deriving DecidableEq

namespace StatusLine

/-- The line as it is written, without its newline. -/
def text (l : StatusLine) : String :=
  l.args.foldl (fun line arg => line ++ " " ++ Text.escape arg) l.keyword

/-- The version agreed on. -/
def version (v : String) : StatusLine := ⟨"VERSION", [v]⟩

/-- The environment is unfit. -/
def envError (words : String) : StatusLine := ⟨"ENV-ERROR", [words]⟩

/-- No version can be agreed on. -/
def versionError (words : String) : StatusLine := ⟨"VERSION-ERROR", [words]⟩

/-- A client transport listens at an address, speaking a version of SOCKS. -/
def clientMethod (name socks : String) (place : Address) : StatusLine :=
  ⟨"CMETHOD", [name, socks, place.text]⟩

/-- A client transport could not be started. -/
def clientMethodError (name words : String) : StatusLine := ⟨"CMETHOD-ERROR", [name, words]⟩

/-- All client transports have been told of. -/
def clientMethodsDone : StatusLine := ⟨"CMETHODS", ["DONE"]⟩

/-- A server transport listens at an address. -/
def serverMethod (name : String) (place : Address) : StatusLine := ⟨"SMETHOD", [name, place.text]⟩

/-- A server transport could not be started. -/
def serverMethodError (name words : String) : StatusLine := ⟨"SMETHOD-ERROR", [name, words]⟩

/-- All server transports have been told of. -/
def serverMethodsDone : StatusLine := ⟨"SMETHODS", ["DONE"]⟩

/-- The line that tor expects for a configuration error. -/
def ofConfigError : ConfigError → StatusLine
  | .unsupportedVersion _ => versionError "no-version"
  | e => envError e.message

end StatusLine

end ManagedTransport
