import CortexCall.CommandLine.Basic

/-!
# The program

The program reads the environment and the file `.env`, runs the command, and
prints what it says.
-/

namespace CortexCall

/-- The names under which the environment is asked for variables: those of
the settings in small letters and in capitals, those of the threshold and of
the width, and those that a file of variables refers to. -/
def environmentNames (file : Option Text) : List Text :=
  CommandLine.thresholdVariable :: CommandLine.widthVariable
    :: (file.map Dotenv.referredNames).getD []
    ++ (Setting.all.flatMap Setting.names).flatMap fun name =>
      [Text.lower name, Text.upper name]

/-- The variables that are set, beside a file of variables. -/
def readEnvironment (file : Option Text) : IO Variables := do
  let mut found : Variables := []
  for name in environmentNames file do
    if let some value ← IO.getEnv name.asString then
      found := found ++ [(name, value.toText)]
  return found

/-- The file of variables in the working directory, if there is one. -/
def readFile : IO (Option Text) := do
  try
    let t ← IO.FS.readFile ".env"
    return some t.toText
  catch _ => return none

end CortexCall

open CortexCall in
/-- Runs the command on the program's own command line. -/
def main (argv : List String) : IO UInt32 := do
  let file ← readFile
  let env ← readEnvironment file
  match CommandLine.run (argv.map String.toText) env file with
  | .ok outcome =>
    let stamp := Text.ofNat (← IO.monoMsNow)
    (← IO.getStderr).putStr (Text.asString (outcome.errorText stamp))
    (← IO.getStdout).putStr (Text.asString outcome.printed)
    return outcome.exit.toUInt32
  | .error failure =>
    (← IO.getStderr).putStrLn (Text.asString failure.message)
    return 1
