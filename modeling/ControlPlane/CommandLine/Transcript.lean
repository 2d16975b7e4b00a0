/-
What a program prints among the files of a host, and how it ends.
-/
import ControlPlane.CommandLine.FileTree
import ControlPlane.CommandLine.Program

namespace ControlPlane

structure Transcript where
  output : String
  errors : String
  exit : Nat
  deriving DecidableEq, Repr

/-- The transcript of a program, and the files after it. A server prints nothing
and ends well. -/
def Program.transcript : Program → FileTree → Transcript × FileTree
  | finish, t | serve _, t => (⟨"", "", 0⟩, t)
  | abort exit text, t => (⟨"", text, exit⟩, t)
  | say text rest, t =>
    let (script, t) := rest.transcript t
    ({ script with output := text ++ script.output }, t)
  | load path next, t => (next (t.read path)).transcript t
  | store path text next, t =>
    match t.write path text with
    | .ok t => (next (.ok ())).transcript t
    | .error fault => (next (.error fault)).transcript t

end ControlPlane
