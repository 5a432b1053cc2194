import DesignTokens.Cli.Arguments
import DesignTokens.Path.Basic

/-! # Invocations

What the program is asked to do: commands with their options, which must be given before the name
of a command if they are common to all. -/

namespace DesignTokens.Cli

/-- The form in which diagnostics are printed. -/
inductive Format
  | human
  | json
  deriving DecidableEq, Repr

inductive Command
  | help
  | version
  /-- Makes a plan and its style sheet in the project at a path. -/
  | init (path : Option String)
  /-- Makes the style sheet, perhaps at a path of its own. -/
  | build (path : Option String) (out : Option Path)
  | lint (paths : List Path) (ignored : List String) (allowSection : Bool) (format : Format)
  deriving DecidableEq, Repr

structure Invocation where
  isVerbose : Bool
  command : Command
  deriving DecidableEq, Repr

def helpOption : Opt := ⟨"help", none, false⟩

def commonOptions : List Opt := [⟨"version", some 'V', false⟩, ⟨"verbose", none, false⟩, helpOption]

def initOptions : List Opt := [⟨"path", some 'p', true⟩, helpOption]

def buildOptions : List Opt := [⟨"path", some 'p', true⟩, ⟨"out", some 'o', true⟩, helpOption]

def lintOptions : List Opt :=
  [⟨"ignore-path", none, true⟩, ⟨"allow-section", none, false⟩, ⟨"format", some 'f', true⟩,
    helpOption]

def readFormat (s : String) : Except UsageFault Format :=
  match s with
  | "human" => .ok .human
  | "json" => .ok .json
  | _ => .error (.noSuchFormat s)

/-- A command that takes options only. Help is given whatever else is asked. -/
def optionsOnly (opts : List Opt) (args : List String) (command : Settings → Command) :
    Except UsageFault Command := do
  let (settings, others) ← readArguments opts true args
  if settings.has "help" then return .help
  match others with
  | [] => return command settings
  | a :: _ => throw (.unexpectedArgument a)

def readLint (args : List String) : Except UsageFault Command := do
  let (settings, paths) ← readArguments lintOptions true args
  if settings.has "help" then return .help
  let format ← ((settings.last? "format").map readFormat).getD (.ok .human)
  return .lint (paths.map Path.ofString) (settings.all "ignore-path")
    (settings.has "allow-section") format

def readCommand (name : String) (args : List String) : Except UsageFault Command :=
  match name with
  | "init" => optionsOnly initOptions args fun s => .init (s.last? "path")
  | "build" =>
    optionsOnly buildOptions args fun s =>
      .build (s.last? "path") ((s.last? "out").map Path.ofString)
  | "lint" => readLint args
  | _ => .error (.noSuchCommand name)

/-- Of the version and the help the one is given that is asked for first. -/
def readInvocation (args : List String) : Except UsageFault Invocation := do
  let (settings, others) ← readArguments commonOptions false args
  let isVerbose := settings.has "verbose"
  match (settings.map (·.1)).filter (· ≠ "verbose") with
  | "version" :: _ => return ⟨isVerbose, .version⟩
  | _ :: _ => return ⟨isVerbose, .help⟩
  | [] =>
    match others with
    | [] => throw .commandExpected
    | name :: args => return ⟨isVerbose, ← readCommand name args⟩

end DesignTokens.Cli
