/-! The arguments of the command. They are read from left to right, and the
first that cannot stand where it does, or that asks for something else than a
report, settles the matter. -/
namespace Variability

structure Options where
  path : String
  json : Bool := false
  includeLibraryDefs : Bool := false
  excludeUnknown : Bool := false
  verbose : Bool := false
  config : Option String := none
  deriving DecidableEq, Repr

/-- Why there is nothing to analyze. -/
inductive Stop where
  | version
  | help
  | refused (message : String)
  deriving DecidableEq, Repr

structure Arguments where
  path : Option String := none
  json : Bool := false
  includeLibraryDefs : Bool := false
  excludeUnknown : Bool := false
  verbose : Bool := false
  config : Option String := none
  /-- The next argument is the value of the config option. -/
  awaitsConfig : Bool := false
  /-- After `--` nothing is an option. -/
  onlyPaths : Bool := false

namespace Arguments

def refuse (message : String) : Except Stop α := .error (.refused message)

def missingValue : Except Stop α :=
  refuse "a value is required for '--config <CONFIG>' but none was supplied"

def setPath (a : Arguments) (value : String) : Except Stop Arguments :=
  if a.path.isSome then refuse ("unexpected argument '" ++ value ++ "' found")
  else if value == "" then refuse "a value is required for '<PATH>' but none was supplied"
  else .ok { a with path := some value }

def setConfig (a : Arguments) (value : String) : Except Stop Arguments :=
  if a.config.isSome then
    refuse "the argument '--config <CONFIG>' cannot be used multiple times"
  else if value == "" then missingValue
  else .ok { a with config := some value, awaitsConfig := false }

/-- A flag may be given once. -/
def setFlag (name : String) (given : Bool) (a : Arguments) : Except Stop Arguments :=
  if given then refuse ("the argument '--" ++ name ++ "' cannot be used multiple times") else .ok a

def unexpected (arg : String) : Except Stop α :=
  refuse ("unexpected argument '" ++ arg ++ "' found")

def long (a : Arguments) (name : String) : Except Stop Arguments :=
  match name with
  | "json" => setFlag name a.json { a with json := true }
  | "include-library-defs" => setFlag name a.includeLibraryDefs { a with includeLibraryDefs := true }
  | "exclude-unknown" => setFlag name a.excludeUnknown { a with excludeUnknown := true }
  | "verbose" => setFlag name a.verbose { a with verbose := true }
  | "config" => .ok { a with awaitsConfig := true }
  | "version" => .error .version
  | "help" => .error .help
  | _ => unexpected ("--" ++ name)

def short (a : Arguments) : List Char → Except Stop Arguments
  | 'c' :: [] => .ok { a with awaitsConfig := true }
  | 'c' :: '=' :: value => a.setConfig (String.ofList value)
  | 'c' :: value => a.setConfig (String.ofList value)
  | 'V' :: _ => .error .version
  | 'h' :: _ => .error .help
  | letters => unexpected (String.ofList ('-' :: letters))

/-- A lone dash is a path. -/
def isOption (arg : String) : Bool := arg.startsWith "-" && arg != "-"

def step (a : Arguments) (arg : String) : Except Stop Arguments :=
  if a.onlyPaths then a.setPath arg
  else if a.awaitsConfig then
    if isOption arg then missingValue else a.setConfig arg
  else
    match arg.toList with
    | ['-', '-'] => .ok { a with onlyPaths := true }
    | '-' :: '-' :: rest =>
      let name := rest.takeWhile (· != '=')
      match rest.dropWhile (· != '=') with
      | [] => a.long (String.ofList name)
      | _ :: value =>
        if String.ofList name == "config" then a.setConfig (String.ofList value)
        else refuse ("unexpected value for '--" ++ String.ofList name ++ "' found")
    | '-' :: c :: letters => a.short (c :: letters)
    | _ => a.setPath arg

def finish (a : Arguments) : Except Stop Options :=
  if a.awaitsConfig then missingValue
  else
    match a.path with
    | none => refuse "the following required arguments were not provided: <PATH>"
    | some path =>
      .ok ⟨path, a.json, a.includeLibraryDefs, a.excludeUnknown, a.verbose, a.config⟩

end Arguments

def Options.parse (args : List String) : Except Stop Options := do
  let a ← args.foldlM Arguments.step {}
  a.finish

end Variability
