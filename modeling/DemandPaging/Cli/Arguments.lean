/-!
# Command lines

A command line is a list of options, the name of a workload, and the options of that workload. A
long option is `--name value` or `--name=value`, a short one `-x value`, `-xvalue` or `-x=value`.
Each may be given once; a value that stands alone does not start with a dash, unless it is a dash.
After `--` nothing is an option, and nothing may stand there.

`Arguments.parse` reads a command line in order and stops at the first thing that is wrong, or where
help or the version is asked for. A value that stands alone is looked at only when the next option
is read: the last one before a workload's name therefore waits until the workload's own options were
read.
-/

namespace DemandPaging.Cli

/-- The options there are. -/
inductive Key where
  | frames | swap | swapPages | seed | pages | rounds | file
deriving DecidableEq

namespace Key

/-- The long name of an option. -/
def long : Key → String
  | frames => "frames"
  | swap => "swap"
  | swapPages => "swap-pages"
  | seed => "seed"
  | pages => "pages"
  | rounds => "rounds"
  | file => "file"

/-- The letter of an option that has one. -/
def short? : Key → Option Char
  | frames => some 'f'
  | swap => some 's'
  | pages => some 'p'
  | rounds => some 'r'
  | swapPages | seed | file => none

/-- Whether the value of an option is a path; otherwise it is a number. -/
def isPath : Key → Bool
  | swap | file => true
  | _ => false

end Key

/-- What has options, and what help can be asked about: the program, a workload, or help itself. -/
inductive Topic where
  | program | anon | fork | mmap | help
deriving DecidableEq

namespace Topic

/-- The name that stands on a command line. -/
def ofName? : String → Option Topic
  | "anon" => some anon
  | "fork" => some fork
  | "mmap" => some mmap
  | "help" => some help
  | _ => none

/-- The options of a topic, in the order in which help lists them. -/
def keys : Topic → List Key
  | program => [.frames, .swap, .swapPages, .seed]
  | anon => [.pages, .rounds]
  | fork => [.pages]
  | mmap => [.file]
  | help => []

/-- The value of an option that is not given; there is none for one that has to be. -/
def default? : Topic → Key → Option String
  | _, .frames => some "16"
  | _, .swap => some "swap.img"
  | _, .swapPages => some "256"
  | _, .seed => some "0"
  | fork, .pages => some "32"
  | _, .pages => some "64"
  | _, .rounds => some "4"
  | _, .file => none

end Topic

/-- Why a command line is refused. -/
inductive UsageError where
  | unknownOption (arg : String)
  | missingValue (key : Key)
  | badValue (key : Key) (value : String)
  | repeated (key : Key)
  | unexpected (arg : String)
  | unknownWorkload (name : String)
  | missingWorkload
  | missingFile
deriving DecidableEq

/-- The wording of a refused command line. -/
def UsageError.message : UsageError → String
  | unknownOption arg => "unexpected option " ++ arg
  | missingValue key => "a value is required for --" ++ key.long
  | badValue key value => "invalid value " ++ value ++ " for --" ++ key.long
  | repeated key => "--" ++ key.long ++ " is given more than once"
  | unexpected arg => "unexpected argument " ++ arg
  | unknownWorkload name => "unknown workload " ++ name
  | missingWorkload => "a workload is required"
  | missingFile => "--file is required"

/-- Why reading a command line stops before it gives options. -/
inductive Halt where
  | help (topic : Topic)
  | version
  | usage (error : UsageError)
deriving DecidableEq

/-- An unsigned number below 2^64 in base ten, perhaps after a plus sign. -/
def parseNumber? (text : String) : Option Nat :=
  let digits := match text.toList with
    | '+' :: rest => rest
    | digits => digits
  if digits.isEmpty || !digits.all Char.isDigit then none
  else
    let n := digits.foldl (fun n c => 10 * n + (c.toNat - '0'.toNat)) 0
    if n < UInt64.size then some n else none

/-- What an argument is by its form. -/
inductive Token where
  /-- Two dashes. -/
  | escape
  /-- Two dashes and a name, with the text after an equals sign if there is one. -/
  | long (name : String) (value : Option String)
  /-- A dash and a letter, with the text after it. -/
  | short (letter : Char) (rest : List Char)
  /-- Anything else; one dash alone is an ordinary word. -/
  | word
deriving DecidableEq

/-- The form of an argument. -/
def Token.of (arg : String) : Token :=
  match arg.toList with
  | ['-', '-'] => escape
  | '-' :: '-' :: text =>
    let name := text.takeWhile (· ≠ '=')
    let value := match text.dropWhile (· ≠ '=') with
      | _ :: value => some (String.ofList value)
      | [] => none
    long (String.ofList name) value
  | '-' :: letter :: rest => short letter rest
  | _ => word

/-- The options that were given, with their values. -/
abbrev Settings := List (Key × String)

namespace Settings

/-- Add the value of an option that has none yet. -/
def store (given : Settings) (key : Key) (value : String) : Except Halt Settings :=
  if (given.lookup key).isSome then .error (.usage (.repeated key))
  else if if key.isPath then value.isEmpty else (parseNumber? value).isNone then
    .error (.usage (.badValue key value))
  else .ok ((key, value) :: given)

/-- The text given for an option of a topic, or its default. -/
def text? (given : Settings) (topic : Topic) (key : Key) : Option String :=
  given.lookup key <|> topic.default? key

/-- The number given for an option of a topic, or its default. -/
def number (given : Settings) (topic : Topic) (key : Key) : Nat :=
  ((given.text? topic key).bind parseNumber?).getD 0

end Settings

/-- The options read so far, and the last one if its value stands alone and was not looked at. -/
structure Progress where
  given : Settings := []
  waiting : Option (Key × String) := none

/-- Look at the value that waits. -/
def Progress.settle (progress : Progress) : Except Halt Settings :=
  match progress.waiting with
  | some (key, value) => progress.given.store key value
  | none => .ok progress.given

/-- The option of a topic that an argument names, with its value if that is part of the argument. -/
def readOption (topic : Topic) (arg : String) : Except Halt (Key × Option String) :=
  match Token.of arg with
  | .long name value =>
    match topic.keys.find? (·.long == name), value with
    | some key, value => .ok (key, value)
    | none, none =>
      .error (if name == "help" then .help topic
        else if name == "version" && topic == .program then .version
        else .usage (.unknownOption arg))
    | none, some _ => .error (.usage (.unknownOption arg))
  | .short letter rest =>
    match topic.keys.find? (·.short? == some letter), rest with
    | some key, [] => .ok (key, none)
    | some key, '=' :: value => .ok (key, some (String.ofList value))
    | some key, value => .ok (key, some (String.ofList value))
    | none, _ =>
      .error (if letter == 'h' then .help topic
        else if letter == 'V' && topic == .program then .version
        else .usage (.unknownOption arg))
  | .escape | .word => .error (.usage (.unexpected arg))

/-- Read options of a topic up to the first argument that is none. The rest starts with that
argument. -/
def scan (topic : Topic) (progress : Progress) :
    List String → Except Halt (Progress × List String)
  | [] => .ok (progress, [])
  | arg :: rest =>
    if Token.of arg = .escape ∨ Token.of arg = .word then .ok (progress, arg :: rest)
    else do
      let given ← progress.settle
      match ← readOption topic arg with
      | (key, some value) => scan topic { given := ← given.store key value } rest
      | (key, none) =>
        match rest with
        | [] => throw (.usage (.missingValue key))
        | value :: rest =>
          if Token.of value = .word then scan topic { given, waiting := some (key, value) } rest
          else throw (.usage (.missingValue key))

/-- A workload with what it needs to know. -/
inductive Workload where
  | anon (pages rounds : Nat)
  | fork (pages : Nat)
  | mmap (file : String)
deriving DecidableEq

/-- What a command line asks for. -/
structure Options where
  frames : Nat
  swap : String
  swapPages : Nat
  seed : Nat
  workload : Workload
deriving DecidableEq

/-- The options of a workload, which are the last thing on a command line. -/
def scanLast (topic : Topic) (args : List String) : Except Halt Settings := do
  let (progress, rest) ← scan topic {} args
  let given ← progress.settle
  match rest with
  | [] | ["--"] => return given
  | arg :: rest =>
    throw (.usage (.unexpected (if arg == "--" then rest.head?.getD arg else arg)))

/-- What is asked for by the arguments after the word that asks for help: at most one name. -/
def helpOn : List String → Halt
  | [] => .help .program
  | name :: rest =>
    match Topic.ofName? name, rest with
    | some topic, [] => .help topic
    | some _, extra :: _ => .usage (.unknownWorkload extra)
    | none, _ => .usage (.unknownWorkload name)

/-- The workload with this name, read from the arguments after it. -/
def parseWorkload (name : String) (args : List String) : Except Halt Workload :=
  match Topic.ofName? name with
  | some .anon => do
    let given ← scanLast .anon args
    return .anon (given.number .anon .pages) (given.number .anon .rounds)
  | some .fork => do
    let given ← scanLast .fork args
    return .fork (given.number .fork .pages)
  | some .mmap => do
    let given ← scanLast .mmap args
    match given.text? .mmap .file with
    | some file => return .mmap file
    | none => throw (.usage .missingFile)
  | some .help => throw (helpOn args)
  | _ => throw (.usage (.unknownWorkload name))

/-- Read a command line. -/
def parse (args : List String) : Except Halt Options := do
  let (progress, rest) ← scan .program {} args
  match rest with
  | [] => throw (.usage .missingWorkload)
  | "--" :: rest =>
    throw (.usage (match rest with
      | [] => .missingWorkload
      | arg :: _ => .unexpected arg))
  | name :: args =>
    let workload ← parseWorkload name args
    let given ← progress.settle
    return {
      frames := given.number .program .frames
      swap := (given.text? .program .swap).getD ""
      swapPages := given.number .program .swapPages
      seed := given.number .program .seed
      workload }

end DemandPaging.Cli
