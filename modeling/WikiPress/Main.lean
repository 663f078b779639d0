import WikiPress.CommandLine.Disk
import WikiPress.CommandLine.Execute
import WikiPress.CommandLine.PageId

/-!
# WikiPress.Main

The program on a real disk: copies the files a command line is about, has the command
carried out on the copy, writes the changes back and prints the answer.
-/

namespace WikiPress.CommandLine

open WikiPress.Files (FileSystem ancestors join)

/-- How deep links to links are followed while files are copied. -/
def linkDepth : Nat := 8

/-- The values of the variables the configuration refers to. -/
def environmentOf (fs : FileSystem) (path : Option String) :
    IO (String → Option String) := do
  let text := (path.orElse fun _ => Config.discover fs).bind fun path =>
    (fs.readText path).toOption
  let settings := (text.bind Config.readSettings).getD Config.noSettings
  let names := [settings.rootTitle, settings.rootPageId].flatMap fun setting =>
    (setting.map Config.variablesOf).getD []
  let values ← names.filterMapM fun name => do
    return (← IO.getEnv name).map (name, ·)
  return (values.lookup ·)

/-- The paths a command works on under a configuration. -/
def pathsOf (config : Config) : Command → List String
  | .render file _ _ => [file]
  | .status _ => [config.sourceDirectory, config.stateFile]
  | .sync _ => [config.sourceDirectory, config.stateFile, config.outDirectory]

/-- A copy of the files an invocation is about, and the values of its variables. -/
def copyFor (invocation : Invocation) : IO (FileSystem × (String → Option String)) := do
  let here := toString (← IO.currentDir)
  let start : FileSystem :=
    { root := .directory [], workingDirectory := namesOf here }
  let mut fs := (start.makeDirectories here).2
  let candidates := (ancestors here).map (join · Config.defaultName)
  for path in invocation.configPath.toList ++ candidates do
    fs ← copyPath 0 fs path
  let env ← environmentOf fs invocation.configPath
  match Config.load fs env invocation.configPath invocation.overrides with
  | .error _ => return (fs, env)
  | .ok config =>
      for path in pathsOf config invocation.command do
        fs ← copyPath linkDepth fs path
      return (fs, env)

/-- Prints an answer and gives its exit code. -/
def answer (response : Response) : IO UInt32 := do
  IO.print response.output
  IO.eprint response.errors
  return response.exitCode.toUInt32

/-- Carries out a command line on the disk. -/
def run (arguments : List String) : IO UInt32 := do
  match parse arguments with
  | .error stop => answer stop.response
  | .ok invocation =>
      let (fs, env) ← copyFor invocation
      let seed ← IO.getRandomBytes 16
      let (response, state) := program ⟨env, pageId seed⟩ arguments ⟨fs, 0⟩
      writeChanges "/" (some fs.root) state.files.root
      answer response

end WikiPress.CommandLine

/-- The program. -/
def main (arguments : List String) : IO UInt32 :=
  WikiPress.CommandLine.run arguments
