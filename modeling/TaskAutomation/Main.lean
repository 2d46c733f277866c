import TaskAutomation.Calendar.Iso
import TaskAutomation.Engine.Scan
import TaskAutomation.World

/-!
# The command line

The command runs one scan on a new store, at the moment that its argument names, with the settings
of the environment, and prints the report.
-/

open TaskAutomation

/-- The names of the settings as the environment has them. -/
def settingNames : List String := ({} : Settings).fields.map fun (name, _) => name.toUpper

/-- The settings that the environment gives. -/
def environment : IO (List (String × String)) :=
  settingNames.filterMapM fun name => do return (← IO.getEnv name).map fun text => (name, text)

/-- One scan on a new store, and its report. -/
def scanOnce (moment : Moment) (env : List (String × String)) : Except Failure Scan.Report := do
  let settings ← Failure.ofChecked "Settings" (Settings.ofEnvironment moment env)
  (Program.run (Scan.all { settings } moment) { clock := moment }).1

/-- Scans once and prints the report. -/
def main (args : List String) : IO UInt32 := do
  match (args.head?.bind Iso.read?).bind Moment.toUtc? with
  | none =>
    IO.eprintln "usage: scan MOMENT"
    return 2
  | some moment =>
    match scanOnce moment (← environment) with
    | .ok report =>
      IO.println report.text
      return 0
    | .error f =>
      IO.eprintln f.described
      return 1
