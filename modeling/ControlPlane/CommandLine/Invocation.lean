/-
What the arguments of the program ask for.

    (no argument)                       run with config.toml
    run [-c PATH | --config PATH]       run
    config validate [-c PATH | ...]     tell what is wrong with a configuration
    config generate [-o PATH | ...]     write the standard configuration

An option's value may be attached to it, as in -cPATH, -c=PATH and --config=PATH.
A last argument -- ends the options, and says nothing more.
-/
namespace ControlPlane

inductive Invocation where
  /-- Write the standard configuration to a file, or print it. -/
  | generate (output : Option String)
  | validate (path : String)
  | run (path : String)
  deriving DecidableEq, Repr

/-- An option with a value, by its letter and its word. -/
structure ValueOption where
  letter : Char
  word : String

namespace ValueOption

/-- Where the configuration is. -/
def config : ValueOption := ⟨'c', "config"⟩

/-- Where to write. -/
def output : ValueOption := ⟨'o', "output"⟩

/-- What is left of a text that starts in a certain way. -/
def after? (start text : List Char) : Option (List Char) :=
  if start.isPrefixOf text then some (text.drop start.length) else none

def short (o : ValueOption) : List Char := ['-', o.letter]

def long (o : ValueOption) : List Char := '-' :: '-' :: o.word.toList

/-- The value that is attached to the option, which is never empty. -/
def attached? (o : ValueOption) (arg : List Char) : Option String :=
  let value := match after? (o.long ++ ['=']) arg, after? o.short arg with
    | some value, _ | none, some ('=' :: value) | none, some value => value
    | none, none => []
  if value.isEmpty then none else some (String.ofList value)

/-- A value that stands on its own: neither empty nor another option. -/
def standsAlone : List Char → Bool
  | [] => false
  | '-' :: rest => rest.isEmpty
  | _ => true

/-- The value in arguments that hold the option or nothing. -/
def value? (o : ValueOption) : List String → Option (Option String)
  | [] => some none
  | [arg] => (o.attached? arg.toList).map some
  | [arg, value] =>
    if (arg.toList = o.short ∨ arg.toList = o.long) ∧ standsAlone value.toList then some (some value) else none
  | _ => none

end ValueOption

namespace Invocation

/-- The file of a configuration when none is named. -/
def standardPath : String := "config.toml"

/-- The arguments before the one that ends the options. -/
def options (args : List String) : List String := if args.getLast? = some "--" then args.dropLast else args

/-- What options ask for. -/
def ofOptions? : List String → Option Invocation
  | [] => some (run standardPath)
  | "run" :: args => (ValueOption.config.value? args).map fun path => run (path.getD standardPath)
  | "config" :: "validate" :: args =>
    (ValueOption.config.value? args).map fun path => validate (path.getD standardPath)
  | "config" :: "generate" :: args => (ValueOption.output.value? args).map generate
  | _ => none

/-- What arguments ask for. -/
def ofArguments? (args : List String) : Option Invocation := ofOptions? (options args)

end Invocation

end ControlPlane
