/-
The program on a real host. The host's files are read and written; it lends no
sockets, so a server is not started.
-/
import ControlPlane.CommandLine.Program

namespace ControlPlane

/-- The fault behind a failure of the host by its number, which some of the host's
calls give below zero. -/
def HostFault.ofNumber (code : UInt32) (details : String) : HostFault :=
  match min code.toNat (-code).toNat with
  | 2 => .notFound
  | 13 => .permissionDenied
  | 20 => .notDirectory
  | 21 => .isDirectory
  | 36 => .nameTooLong
  | n => .other (details ++ " (os error " ++ toString n ++ ")")

/-- The fault behind a failure of the host's files. -/
def HostFault.ofFailure : IO.Error → HostFault
  | .noFileOrDirectory _ code details | .noSuchThing _ code details | .permissionDenied _ code details
  | .inappropriateType _ code details | .invalidArgument _ code details | .resourceExhausted _ code details
  | .otherError code details => ofNumber code details
  | e => .other (toString e)

/-- The text of a file of the host. -/
def loadText (path : String) : IO (Except HostFault String) := do
  match ← (IO.FS.readBinFile path).toBaseIO with
  | .error e => return .error (.ofFailure e)
  | .ok octets =>
    match String.fromUTF8? octets with
    | some text => return .ok text
    | none => return .error .notText

/-- Writes a text to a file of the host. -/
def storeText (path content : String) : IO (Except HostFault Unit) := do
  match ← (IO.FS.writeFile path content).toBaseIO with
  | .error e => return .error (.ofFailure e)
  | .ok () => return .ok ()

/-- Carries a program out, and gives its exit code. -/
def Program.carryOut : Program → IO UInt32
  | finish | serve _ => return 0
  | abort exit text => do
    (← IO.getStderr).putStr text
    return exit.toUInt32
  | say text rest => do
    (← IO.getStdout).putStr text
    rest.carryOut
  | load path next => do (next (← loadText path)).carryOut
  | store path content next => do (next (← storeText path content)).carryOut

end ControlPlane

def main (args : List String) : IO UInt32 := (ControlPlane.Program.ofArguments .offline args).carryOut
