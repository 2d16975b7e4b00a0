/-
What the program does, as a tree of what it asks the host for and how it goes on.

Printing, files and the exit are the host's: the tree says when they are asked
for. `Program.ofInvocation` gives the tree of each command.
-/
import ControlPlane.CommandLine.Invocation
import ControlPlane.Config.Document
import ControlPlane.Config.Validation
import ControlPlane.Datagram.Server

namespace ControlPlane

inductive Program where
  /-- Everything is done. -/
  | finish
  /-- The program gives up, with a text for the error output. -/
  | abort (exit : Nat) (text : String)
  /-- A text for the output. -/
  | say (text : String) (rest : Program)
  /-- The text of a file is wanted. -/
  | load (path : String) (next : Except HostFault String → Program)
  /-- A text is to be written to a file. -/
  | store (path content : String) (next : Except HostFault Unit → Program)
  /-- A server takes over until it is told to end. -/
  | serve (server : Server)

namespace Program

/-- The lines that the program prints, by what they are. -/
def info (text : String) : String := "[INFO] " ++ text ++ "\n"

def warning (text : String) : String := "[WARN] " ++ text ++ "\n"

def error (text : String) : String := "[ERROR] " ++ text ++ "\n"

/-- A command that went wrong. -/
def fail (text : String) : Program := abort 1 (error text)

def usage : String := "usage: run [-c PATH] | config validate [-c PATH] | config generate [-o PATH]\n"

/-- Everything that is said of a configuration, warnings first. -/
def diagnosis (d : Config.Diagnosis) : String :=
  String.join (d.warnings.map (warning ·.message) ++ d.errors.map (error ·.message))

/-- Goes on with the configuration in a file. -/
def withConfig (path : String) (next : Except Error Config → Program) : Program :=
  load path fun text =>
    match text with
    | .ok text => next (Config.parse .standard text)
    | .error fault => next (.error (.host fault))

def validate (path : String) : Program :=
  say (info ("Validating " ++ path ++ "...")) <| withConfig path fun
    | .error e => fail ("Failed to parse config: " ++ e.message)
    | .ok c =>
      say (diagnosis c.validate) <|
        if c.validate.hasErrors then fail "Validation failed" else say (info "Configuration is valid") finish

def generate (output : Option String) : Program :=
  match Config.standard.render .standard, output with
  | .error e, _ => fail ("Failed to render config: " ++ e.message)
  | .ok text, none => say text finish
  | .ok text, some path => store path text fun
    | .ok () => say (info ("Generated " ++ path)) finish
    | .error fault => fail ("Failed to write config file: " ++ fault.message)

/-- Starts a server for an engine with a configuration. -/
def start (network : Network) (c : Config) : Program :=
  match Engine.ofConfig c with
  | .error e => fail ("Failed to initialize engine: " ++ e.message)
  | .ok engine =>
    match Server.ofEngine network c.engine.listen engine with
    | .error e => fail ("Failed to bind " ++ c.engine.listen.render ++ ": " ++ e.message)
    | .ok server => serve server

def run (network : Network) (path : String) : Program :=
  withConfig path fun
    | .error e => fail ("Failed to load config: " ++ e.message)
    | .ok c =>
      say (diagnosis c.validate) <|
        if c.validate.hasErrors then fail "Validation failed with errors" else start network c

/-- What the program does when it is called on a host. -/
def ofInvocation (network : Network) : Invocation → Program
  | .generate output => generate output
  | .validate path => validate path
  | .run path => run network path

/-- What the program does with its arguments. -/
def ofArguments (network : Network) (args : List String) : Program :=
  match Invocation.ofArguments? args with
  | some i => ofInvocation network i
  | none => abort 2 usage

end Program

end ControlPlane
