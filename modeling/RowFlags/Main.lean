import RowFlags.Walkthrough
import Std.Time.DateTime.Timestamp

/-!
# The program

Reads the command line, looks at the clock once, and prints what the walkthrough tells. The exit
code is 0 on success, 1 when the walkthrough fails and 2 when the command line is not understood.
-/

set_option autoImplicit false

namespace RowFlags

open CommandLine (Settings UsageError)

/-- How the program is to be called. -/
def helpText : String :=
  "Publish and unpublish articles through a flag derived from a column\n\n" ++
  "Usage: rowflags [OPTIONS]\n\n" ++
  "Options:\n" ++
  "  -a, --articles <ARTICLES>            Number of articles to seed [default: 10]\n" ++
  "  -k, --publish-every <PUBLISH_EVERY>  Publish every K-th seeded article [default: 3]\n" ++
  "      --on-demand                      Resolve attribute names on every access\n" ++
  "  -d, --debug                          Enable debug logging\n" ++
  "  -h, --help                           Print help\n" ++
  "  -V, --version                        Print version"

/-- The name and number of this release. -/
def versionText : String := "rowflags 0.1.0"

/-- The present instant. -/
def now : IO Instant := do
  let count := (← Std.Time.Timestamp.now).toNanosecondsSinceUnixEpoch.val
  if h : Instant.Storable count then return Instant.ofNanoseconds count h
  else throw (IO.userError "The clock is out of range")

/-- Prints the walkthrough. There are no debug messages, so the switch for them changes nothing. -/
def printWalkthrough (settings : Settings) : IO UInt32 := do
  let time ← now
  let (lines, failure) := Walkthrough.run settings fun _ => time
  for line in lines do
    IO.println line.text
  if let some e := failure then
    IO.eprintln ("Error: " ++ e.message)
  return Walkthrough.exitCode failure

end RowFlags

def main (arguments : List String) : IO UInt32 :=
  match RowFlags.CommandLine.read arguments with
  | .ok (.walkthrough settings) => RowFlags.printWalkthrough settings
  | .ok .help => do
    IO.println RowFlags.helpText
    return 0
  | .ok .version => do
    IO.println RowFlags.versionText
    return 0
  | .error e => do
    IO.eprintln ("error: " ++ e.message)
    return 2
