import DemandPaging.Cli.Arguments

/-!
# Help texts

The help on a topic: what it is for, how it is written on a command line, and a table of its names
or options. A table has two columns, the first as wide as its widest entry.
-/

namespace DemandPaging.Cli

/-- The name of the program. -/
def programName : String := "vm-sim"

/-- The program's version. -/
def versionLine : String := programName ++ " 0.1.0"

/-- What a topic is for; the program says nothing about itself. -/
def Topic.purpose : Topic → String
  | program => ""
  | anon => "Anonymous pages churned through swap"
  | fork => "Fork followed by copy-on-write in the child"
  | mmap => "A host file rewritten through a mapping"
  | help => "Print this message or the help of the given subcommand(s)"

/-- How a topic is written on a command line. -/
def Topic.usage : Topic → String
  | program => "[OPTIONS] <COMMAND>"
  | anon => "anon [OPTIONS]"
  | fork => "fork [OPTIONS]"
  | mmap => "mmap --file <FILE>"
  | help => "help [COMMAND]..."

/-- What an option is for. -/
def Key.purpose : Key → String
  | frames => "Frames in the user pool"
  | swap => "Swap image, created or truncated on start"
  | swapPages => "Pages the swap image can hold"
  | seed => "Seed of the random data patterns"
  | pages | rounds | file => ""

/-- The word that stands for the value of an option. -/
def Key.valueName : Key → String
  | frames => "FRAMES"
  | swap => "SWAP"
  | swapPages => "SWAP_PAGES"
  | seed => "SEED"
  | pages => "PAGES"
  | rounds => "ROUNDS"
  | file => "FILE"

/-- A table of two columns. -/
abbrev Rows := List (String × String)

/-- The lines of a table under a title. -/
def Rows.lines (title : String) (rows : Rows) : List String :=
  let width := rows.foldl (fun width row => max width row.1.length) 0
  title :: rows.map fun (entry, text) =>
    "  " ++ entry ++ String.join (List.replicate (width - entry.length + 2) " ") ++ text

/-- An option of a topic, with its default. -/
def optionRow (topic : Topic) (key : Key) : String × String :=
  let letter := match key.short? with
    | some c => "-" ++ String.singleton c ++ ", "
    | none => "    "
  let default := match topic.default? key with
    | some text => ["[default: " ++ text ++ "]"]
    | none => []
  (letter ++ "--" ++ key.long ++ " <" ++ key.valueName ++ ">",
    " ".intercalate ([key.purpose].filter (· ≠ "") ++ default))

/-- The tables of a topic. -/
def Topic.tables (topic : Topic) : List (List String) :=
  let asked : Rows := [("-h, --help", "Print help")]
  let options := topic.keys.map (optionRow topic)
  match topic with
  | program =>
    [ Rows.lines "Commands:"
        [("anon", anon.purpose), ("fork", fork.purpose), ("mmap", mmap.purpose),
          ("help", help.purpose)],
      Rows.lines "Options:" (options ++ asked ++ [("-V, --version", "Print version")]) ]
  | help => [Rows.lines "Arguments:" [("[COMMAND]...", "Print help for the subcommand(s)")]]
  | _ => [Rows.lines "Options:" (options ++ asked)]

/-- The help on a topic; its parts stand apart by blank lines. -/
def Topic.helpLines (topic : Topic) : List String :=
  let usage := "Usage: " ++ programName ++ " " ++ topic.usage
  let parts := [[topic.purpose].filter (· ≠ ""), [usage]] ++ topic.tables
  [""].intercalate (parts.filter (!·.isEmpty))

end DemandPaging.Cli
