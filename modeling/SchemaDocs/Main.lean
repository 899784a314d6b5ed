import SchemaDocs.Project.Command
import SchemaDocs.Storage.Archive

/-!
# The command line

`init` scaffolds a project and `build` builds its site. The project comes as an archive on the
standard input, and goes as an archive with all changes to the standard output.
-/

namespace SchemaDocs.CommandLine

open Json (Value)

structure Request where
  configPath : String := Command.defaultConfig
  name : Option String := none
  overwrite : Bool := false
  output : Option String := none
  module : Option String := none
deriving Repr

def Request.read : List String → Request → Option Request
  | [], request => some request
  | "--yes" :: rest, request | "-y" :: rest, request => read rest { request with overwrite := true }
  | "--config" :: path :: rest, request | "-c" :: path :: rest, request => read rest { request with configPath := path }
  | "--output" :: path :: rest, request | "-o" :: path :: rest, request => read rest { request with output := some path }
  | "--module" :: path :: rest, request | "-m" :: path :: rest, request => read rest { request with module := some path }
  | argument :: rest, request =>
    if request.name.isNone then read rest { request with name := some argument } else none

def Request.command? (request : Request) : Option Command :=
  match request.name with
  | some "init" => some (.init request.overwrite)
  | some "build" => some (.build request.output request.module)
  | _ => none

def usage : String :=
  "Usage: protodoc [--config FILE] init [--yes] | build [--output DIRECTORY] [--module FILE]"

/-- The place of a project among all files. -/
def projectPlace : List String := ["project"]

def project? (archive : String) : Option FileSystem :=
  match Value.parse archive with
  | .ok (.object members) =>
    some ⟨(Tree.directory []).put projectPlace (Archive.unpack (.directory []) members), projectPlace⟩
  | _ => none

def archiveOf (files : FileSystem) : String :=
  (Value.object (Archive.pack ((files.root.get? projectPlace).getD (.directory [])))).compact

end SchemaDocs.CommandLine

open SchemaDocs SchemaDocs.CommandLine in
/-- Runs the command that the arguments name on the archive on the standard input. -/
def main (arguments : List String) : IO UInt32 := do
  let stderr ← IO.getStderr
  match Request.read arguments {} with
  | none => stderr.putStrLn usage; return 2
  | some request =>
    match request.command? with
    | none => stderr.putStrLn usage; return 2
    | some command =>
      let archive ← (← IO.getStdin).getLine
      match project? archive with
      | none => stderr.putStrLn "Error: the standard input holds no archive"; return 1
      | some files =>
        let (result, files) := command.run request.configPath files
        (← IO.getStdout).putStrLn (archiveOf files)
        match result with
        | .ok () => return 0
        | .error error => stderr.putStrLn ("Error: " ++ error.message); return 1
