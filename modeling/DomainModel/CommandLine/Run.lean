import DomainModel.Analysis
import DomainModel.CommandLine.FileSystem
import DomainModel.CommandLine.Options
import DomainModel.CommandLine.Report
import DomainModel.Model.Load
import DomainModel.Settings.Manifest

/-! # A run of the program

A run loads the model, then the settings, then analyses the model and reports. The settings come
from the manifest that the options name, or else from the nearest one around the model, or else are
the default; the options have the last word. -/

namespace DomainModel.CommandLine

/-- What a run leaves behind. -/
structure Outcome where
  status : UInt32
  output : String
  errors : String
deriving DecidableEq

/-- The file name of a manifest. -/
def manifestName : String := "Cml.toml"

/-- Why a run cannot start the analysis. -/
inductive Failure where
  | unreadableModel (path : String) (error : ReadError)
  | refusedModel (path : String) (error : LoadError)
  | unreadableManifest (error : ReadError)
  | malformedManifest

def Failure.message : Failure → String
  | unreadableModel path error =>
    s!"could not load '{path}': failed to read model: {error.message}"
  | refusedModel path .malformed =>
    s!"could not load '{path}': invalid model JSON: the text describes no model"
  | refusedModel path (.dangling link) => s!"could not load '{path}': {link.message}"
  | unreadableManifest error => s!"failed to read {manifestName}: {error.message}"
  | malformedManifest => s!"invalid {manifestName}: the text describes no settings"

variable {m : Type → Type} [Monad m] (files : FileSystem m)

/-- Load the model at a path. -/
def loadModel (path : String) : ExceptT Failure m Model := do
  match ← files.read path with
  | .error error => throw (.unreadableModel path error)
  | .ok text =>
    match Model.ofText text with
    | .error error => throw (.refusedModel path error)
    | .ok model => return model

/-- The settings of the text of a manifest. -/
def readManifest (text : String) : ExceptT Failure m Settings :=
  match Settings.ofManifest? text with
  | some settings => return settings
  | none => throw .malformedManifest

/-- The settings of the first directory that has a manifest. -/
def nearestSettings : List String → ExceptT Failure m Settings
  | [] => return .default
  | directory :: rest => do
    match ← files.read s!"{directory}/{manifestName}" with
    | .ok text => readManifest text
    | .error error =>
      if error.isAbsence then nearestSettings rest else throw (.unreadableManifest error)

/-- Load the settings of a run, without regard to the options that replace parts of them. -/
def loadSettings (options : Options) : ExceptT Failure m Settings := do
  match options.config with
  | none => nearestSettings files (← files.directories options.model)
  | some path =>
    match ← files.read path with
    | .ok text => readManifest text
    | .error error => throw (.unreadableManifest error)

/-- The settings, parts of them replaced by the options. -/
def Options.override (options : Options) (settings : Settings) : Settings :=
  { settings with
    policy := options.policy.getD settings.policy
    parallel := options.parallel || settings.parallel }

/-- Report the diagnostics of a model. -/
def reportOutcome (options : Options) (model : Model) (bag : Bag) : Outcome :=
  let shown := bag.diagnostics.filter fun d => d.isError || !options.quiet
  let closing := if bag.hasErrors then "" else "No errors found.\n"
  let output := match options.format with
    | .json => reportJson shown
    | .text => reportText model shown ++ closing
  ⟨if bag.hasErrors then 1 else 0, output, ""⟩

/-- Load and analyse a model, and report. -/
def analyzeFile (options : Options) : ExceptT Failure m Outcome := do
  let model ← loadModel files options.model
  let settings ← loadSettings files options
  return reportOutcome options model (model.analyze (options.override settings)).value

/-- The program's name and version. -/
def version : String := "cmlc 0.1.0"

/-- How the program is called, line by line. -/
def usageLines : List String := [
  "Usage: cmlc [OPTIONS] MODEL",
  "",
  "Reads a linked model graph as JSON and reports errors and warnings.",
  "",
  "Options:",
  "  -c, --config FILE      Settings to use instead of the nearest Cml.toml",
  "      --ternary POLICY   Ternary branch rule: boolean or matching",
  "      --parallel         Check in parallel",
  "      --format FORMAT    Output format: text or json",
  "  -q, --quiet            Show no warnings",
  "  -v, --verbose          Show progress",
  "  -h, --help             Show this text",
  "  -V, --version          Show the version"]

def usage : String := String.join (usageLines.map (· ++ "\n"))

/-- The outcome when the arguments ask for no analysis. -/
def Stop.outcome : Stop → Outcome
  | version => ⟨0, CommandLine.version ++ "\n", ""⟩
  | help => ⟨0, CommandLine.usage, ""⟩
  | usage error => ⟨2, "", s!"error: {error.message}\n\n{CommandLine.usage}"⟩

/-- **A run of the program on a file system.** -/
def run (arguments : List String) : m Outcome := do
  match Options.ofArguments arguments with
  | .error stop => return stop.outcome
  | .ok options =>
    match ← (analyzeFile files options).run with
    | .ok outcome => return outcome
    | .error failure => return ⟨1, "", s!"error: {failure.message}\n"⟩

end DomainModel.CommandLine
