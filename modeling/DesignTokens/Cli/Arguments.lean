/-! # Arguments of a command

Options may stand before, between and after the other arguments. A long name may be followed by an
equals sign and a value, and several letters may share a hyphen; otherwise the value of an option
is the next argument, whatever it is. -/

namespace DesignTokens.Cli

/-- An option that a command knows. -/
structure Opt where
  /-- The long name, without its hyphens. -/
  name : String
  letter : Option Char
  takesValue : Bool
  deriving DecidableEq, Repr

inductive UsageFault
  | noSuchOption (name : String)
  | valueExpected (name : String)
  | noValueExpected (name : String)
  | commandExpected
  | noSuchCommand (name : String)
  | unexpectedArgument (argument : String)
  | noSuchFormat (format : String)
  deriving DecidableEq, Repr

def UsageFault.message : UsageFault → String
  | noSuchOption n => "No such option: " ++ n
  | valueExpected n => "Option '" ++ n ++ "' requires an argument."
  | noValueExpected n => "Option '" ++ n ++ "' does not take a value."
  | commandExpected => "Missing command."
  | noSuchCommand n => "No such command '" ++ n ++ "'."
  | unexpectedArgument a => "Got unexpected extra argument (" ++ a ++ ")"
  | noSuchFormat f => "Invalid value for '--format' / '-f': '" ++ f ++ "'"

/-- The names of options with their values, in the order in which they were given. -/
abbrev Settings := List (String × String)

namespace Settings

def has (s : Settings) (name : String) : Bool := s.any (·.1 == name)

/-- The values that an option was given. -/
def all (s : Settings) (name : String) : List String :=
  (s.filter (·.1 == name)).map (·.2)

/-- The value that an option was given last. -/
def last? (s : Settings) (name : String) : Option String := (s.all name).getLast?

end Settings

/-- What one argument sets, and the option whose value the next argument is. -/
structure Setting where
  settings : Settings
  pending : Option Opt

/-- Reads a long name, perhaps with a value. -/
def readName (opts : List Opt) (s : List Char) : Except UsageFault Setting :=
  let name := String.ofList (s.takeWhile (· != '='))
  match opts.find? (·.name == name), s.dropWhile (· != '=') with
  | none, _ => .error (.noSuchOption ("--" ++ name))
  | some o, [] => .ok (if o.takesValue then ⟨[], some o⟩ else ⟨[(name, "")], none⟩)
  | some o, _ :: v =>
    if o.takesValue then .ok ⟨[(name, String.ofList v)], none⟩
    else .error (.noValueExpected ("--" ++ name))

/-- Reads letters; what follows one whose option takes a value is that value. -/
def readLetters (opts : List Opt) : List Char → Except UsageFault Setting
  | [] => .ok ⟨[], none⟩
  | c :: r =>
    match opts.find? (·.letter == some c) with
    | none => .error (.noSuchOption ("-" ++ String.singleton c))
    | some o =>
      if !o.takesValue then do
        let s ← readLetters opts r
        return ⟨(o.name, "") :: s.settings, s.pending⟩
      else if r.isEmpty then .ok ⟨[], some o⟩
      else .ok ⟨[(o.name, String.ofList r)], none⟩

/-- What an argument sets if it begins with a hyphen and is more than that. -/
def readOption? (opts : List Opt) (argument : String) : Option (Except UsageFault Setting) :=
  match argument.toList with
  | '-' :: '-' :: r => some (readName opts r)
  | '-' :: c :: r => some (readLetters opts (c :: r))
  | _ => none

/-- The settings among the arguments, and the other arguments. All that follows two hyphens counts
as an argument, and so does all from the first argument on if options may only stand before it. -/
def readArguments (opts : List Opt) (anywhere : Bool) (args : List String) :
    Except UsageFault (Settings × List String) :=
  match args with
  | [] => .ok ([], [])
  | a :: r =>
    if a = "--" then .ok ([], r)
    else match readOption? opts a with
      | none =>
        if anywhere then do
          let (settings, others) ← readArguments opts anywhere r
          return (settings, a :: others)
        else .ok ([], a :: r)
      | some (.error f) => .error f
      | some (.ok s) =>
        match s.pending, r with
        | none, r => do
          let (settings, others) ← readArguments opts anywhere r
          return (s.settings ++ settings, others)
        | some o, v :: r => do
          let (settings, others) ← readArguments opts anywhere r
          return (s.settings ++ (o.name, v) :: settings, others)
        | some o, [] => .error (.valueExpected ("--" ++ o.name))
termination_by args.length

end DesignTokens.Cli
