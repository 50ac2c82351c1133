import Chip8.Command.Options
import Chip8.Path

/-!
# Chip8 — the command

The command runs a program image headless, prints the final screen, and says so when the machine
waits for a key. Its log goes to the error output. It ends with code 0, with 1 when the run fails,
or with 2 when the command line makes no sense.
-/

namespace Chip8.Command

/-- What is printed for the version. -/
def versionLine : String := "kiwi 0.1.0"

/-- What is printed for help. -/
def helpText : List String :=
  ["Run a CHIP-8 ROM headless and print the final screen",
    "",
    "Usage: kiwi [OPTIONS] <ROM>",
    "",
    "Arguments:",
    "  <ROM>  ROM file to run",
    "",
    "Options:",
    "  -r, --rate <RATE>                Instructions per second [default: 1000]",
    "  -d, --duration-ms <DURATION_MS>  How long to run, in milliseconds [default: 1000]",
    "      --seed <SEED>                Seed for CXNN random numbers [default: 0]",
    "      --timer-mode <TIMER_MODE>    [default: per-instruction] "
      ++ "[possible values: per-instruction, fixed60hz]",
    "      --fix-exa1                   Make EXA1 skip when the key is not pressed",
    "  -p, --press <KEY@MS>             Press KEY (hex digit) MS milliseconds into the run, "
      ++ "e.g. `A@250`",
    "  -s, --scale <SCALE>              Characters per pixel in the printed screen [default: 1]",
    "      --log-level <LOG_LEVEL>      [default: INFO]",
    "  -h, --help                       Print help",
    "  -V, --version                    Print version"]

/-- What is printed for a command line that makes no sense. -/
def Refusal.message : Refusal → String
  | .help => "help is asked for"
  | .version => "the version is asked for"
  | .unknown => "unexpected argument found"
  | .noValue => "a value is required but none was supplied"
  | .surplusValue => "unexpected value found"
  | .malformed => "invalid value"
  | .notAChoice => "invalid choice"
  | .repeated => "an argument cannot be used multiple times"
  | .noRom => "the following required arguments were not provided: <ROM>"

/-- What the options say about the run. -/
def Options.plan (o : Options) : RunPlan where
  rate := o.rate
  durationMs := o.durationMs
  seed := o.seed
  variant := { timerMode := o.timerMode, skipsOnKeyDown := !o.fixSkipByKey }
  keys := o.press

/-- The image in a file, from what reading the file gave. -/
def Options.image (o : Options) (content : Except String (List UInt8)) : Except String Rom :=
  content.map (Rom.ofFile (Path.name o.rom))

/-- What the command prints at the end of a run. -/
def summaryText (summary : Summary) : String :=
  summary.screen ++ if summary.waiting then summary.name ++ ": waiting for a key\n" else ""

/-- What is told about a run that failed. -/
def failureEvents (o : Options) (e : RunFailure) : List Event :=
  [.runFailed o.rom e.message]

/-- What the command leaves behind: its exit code, its output and its error output. -/
structure Ended where
  code : UInt8
  out : String := ""
  err : String := ""
  deriving DecidableEq

/-- The lines of a text, each with a line break behind it. -/
def unlines (texts : List String) : String :=
  String.join (texts.map (· ++ "\n"))

/-- The end of a command line that is not run. -/
def refused : Refusal → Ended
  | .help => { code := 0, out := unlines helpText }
  | .version => { code := 0, out := unlines [versionLine] }
  | refusal => { code := 2, err := unlines ["error: " ++ refusal.message] }

/-- Runs the command on an even clock. -/
def run (words : List String) (readFile : String → Except String (List UInt8)) : Ended :=
  match Options.parse words with
  | .error refusal => refused refusal
  | .ok o =>
    let result := Headless.run o.plan o.scale (o.image (readFile o.rom))
    let log (events : List Event) := unlines ((logged o.logLevel events).map LogRecord.line)
    match result.outcome with
    | .ok summary => { code := 0, out := summaryText summary, err := log result.events.toList }
    | .error e => { code := 1, err := log (result.events.toList ++ failureEvents o e) }

end Chip8.Command
