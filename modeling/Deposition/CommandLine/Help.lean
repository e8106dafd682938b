import Deposition.Text.Blank

/-!
# Help

What the program says about its own command line.
-/

namespace Deposition

namespace Help

/-- The version of the program, as it is shown. -/
def version : String := "depoview 0.1.0\n"

/-- The line that describes the option for the server, with its name in a column of this width. -/
def serverLine (width : Nat) : String :=
  "      " ++ Text.padded width "--server <SERVER>" ++
    "  Server page URL; the socket is derived from it\n"

/-- The line that describes the option for the credential. -/
def tokenLine (width : Nat) : String :=
  "      " ++ Text.padded width "--token <TOKEN>" ++
    "  Credential sent as the `id` cookie\n"

/-- The line that describes the option for help. -/
def helpLine (width : Nat) : String :=
  "  -h, " ++ Text.padded width "--help" ++ "  Print help\n"

/-- What is said about the program. -/
def program : String :=
  "Molecular deposition trajectory client\n\n" ++
  "Usage: depoview [OPTIONS] <COMMAND>\n\n" ++
  "Commands:\n" ++
  "  run        Submit a job and download its trajectory\n" ++
  "  molecules  List the components the server offers\n" ++
  "  analyze    Compute the height map of the last frame in an archive\n" ++
  "  paths      Show where settings, archives and reports live\n" ++
  "  help       Print this message or the help of the given subcommand(s)\n\n" ++
  "Options:\n" ++ serverLine 17 ++ tokenLine 17 ++ helpLine 17 ++
  "  -V, --version          Print version\n"

/-- What is said about running a job. -/
def run : String :=
  "Submit a job and download its trajectory\n\n" ++
  "Usage: depoview run [OPTIONS] --mix <RES=RATIO>\n\n" ++
  "Options:\n" ++
  "      --mix <RES=RATIO>   Mixture component, RES=RATIO. Repeatable\n" ++ serverLine 18 ++
  "      --set <NAME=VALUE>  Protocol setting, NAME=VALUE. Repeatable\n" ++ tokenLine 18 ++
  "      --bins <BINS>       Height-map bins per axis\n" ++
  "      --xyz <PATH>        Also export the trajectory as XYZ text\n" ++
  "      --no-archive        Do not keep a trajectory archive\n" ++ helpLine 18

/-- What is said about listing components. -/
def molecules : String :=
  "List the components the server offers\n\n" ++
  "Usage: depoview molecules [OPTIONS]\n\n" ++
  "Options:\n" ++ serverLine 17 ++ tokenLine 17 ++ helpLine 17

/-- What is said about analysing an archive. -/
def analyze : String :=
  "Compute the height map of the last frame in an archive\n\n" ++
  "Usage: depoview analyze [OPTIONS] <ARCHIVE>\n\n" ++
  "Arguments:\n  <ARCHIVE>  \n\n" ++
  "Options:\n" ++
  "      --bins <BINS>      \n" ++ serverLine 17 ++
  "      --json             Print the full report as JSON\n" ++ tokenLine 17 ++ helpLine 17

/-- What is said about showing paths. -/
def paths : String :=
  "Show where settings, archives and reports live\n\n" ++
  "Usage: depoview paths [OPTIONS]\n\n" ++
  "Options:\n" ++ serverLine 17 ++ tokenLine 17 ++ helpLine 17

/-- What is said about a command, or about the program. -/
def text : (command : Option String) → String
  | some "run" => run
  | some "molecules" => molecules
  | some "analyze" => analyze
  | some "paths" => paths
  | _ => program

end Help

end Deposition
