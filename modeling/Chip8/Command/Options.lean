import Chip8.Headless
import Chip8.Log

/-!
# Chip8 — command line options

The words of a command line are the path of a program image, options with their values, and flags.
An option is written long, with its value behind an equals sign or in the next word, or short, with
its value behind it, with or without an equals sign, or in the next word. A word that starts with a
dash is no value, unless it is a single dash; two dashes end the options. Every option but `--press`
may be given once.
-/

namespace Chip8.Command

/-- What a command line asks for. -/
structure Options where
  rom : String
  rate : Nat := usualRate
  durationMs : Nat := 1000
  seed : Nat := 0
  timerMode : TimerMode := .perInstruction
  -- `Instruction.skipByKey` skips when the key is up
  fixSkipByKey : Bool := false
  press : List Keystroke := []
  scale : Nat := 1
  -- no level shows no log
  logLevel : Option LogLevel := some .info
  deriving DecidableEq

/-- Why a command line is not run. -/
inductive Refusal where
  -- the help text is asked for
  | help
  -- the version is asked for
  | version
  -- an option or a second path that there is no use for
  | unknown
  -- an option without its value
  | noValue
  -- a flag with a value
  | surplusValue
  -- a text that does not describe a value of the option
  | malformed
  -- a text that is none of the choices of the option
  | notAChoice
  -- an option given twice
  | repeated
  -- no path
  | noRom
  deriving DecidableEq

/-- What a word that starts with a dash can name. -/
inductive Flag where
  | rate
  | durationMs
  | seed
  | timerMode
  | fixSkipByKey
  | press
  | scale
  | logLevel
  | help
  | version
  deriving DecidableEq

namespace Flag

/-- The flag with a long name. -/
def ofLong? : String → Option Flag
  | "rate" => some rate
  | "duration-ms" => some durationMs
  | "seed" => some seed
  | "timer-mode" => some timerMode
  | "fix-exa1" => some fixSkipByKey
  | "press" => some press
  | "scale" => some scale
  | "log-level" => some logLevel
  | "help" => some help
  | "version" => some version
  | _ => none

/-- The flag with a short name. -/
def ofShort? : Char → Option Flag
  | 'r' => some rate
  | 'd' => some durationMs
  | 'p' => some press
  | 's' => some scale
  | 'h' => some help
  | 'V' => some version
  | _ => none

/-- The flag is an option that takes a value. -/
def takesValue : Flag → Bool
  | fixSkipByKey | help | version => false
  | _ => true

end Flag

/-! ## Words -/

/-- What a word of the command line is by its form. -/
inductive Word where
  -- a path, or the value of the option before it
  | plain
  -- the end of the options
  | terminator
  -- a flag, and the value in the same word
  | flag (flag : Flag) (attached : Option String)
  -- a flag that does not exist
  | stray
  deriving DecidableEq

namespace Word

/-- A long flag and what stands behind its equals sign. -/
def ofLong (body : List Char) : Word :=
  let attached := match body.dropWhile (· != '=') with
    | [] => none
    | _ :: value => some (String.ofList value)
  match Flag.ofLong? (String.ofList (body.takeWhile (· != '='))) with
  | some named => .flag named attached
  | none => .stray

/-- A short flag and what stands behind it, less one equals sign. -/
def ofShort (letter : Char) (body : List Char) : Word :=
  match Flag.ofShort? letter with
  | none => .stray
  | some named =>
    match named.takesValue, body with
    | false, _ => .flag named none
    | true, [] => .flag named none
    | true, '=' :: value => .flag named (some (String.ofList value))
    | true, value => .flag named (some (String.ofList value))

/-- The form of a word. -/
def ofText (text : String) : Word :=
  match text.toList with
  | ['-', '-'] => .terminator
  | '-' :: '-' :: body => ofLong body
  | '-' :: letter :: body => ofShort letter body
  | _ => .plain

end Word

/-! ## Reading the command line -/

/-- A command line read so far. -/
structure Draft where
  rom : Option String := none
  options : Options := { rom := "" }
  given : List Flag := []
  deriving DecidableEq

namespace Draft

/-- A value that some texts describe; the others are malformed. -/
def required {α : Type} (value : Option α) (refusal : Refusal := .malformed) : Except Refusal α :=
  match value with
  | some value => .ok value
  | none => .error refusal

/-- A natural number below a power of two. -/
def number (bits : Nat) (text : String) : Except Refusal Nat :=
  required (Numeral.readBelow? 10 (1 <<< bits) text.toList)

/-- The keystroke that a text describes. -/
def keystroke (text : String) : Except Refusal Keystroke :=
  (Keystroke.parse text).mapError fun _ => .malformed

/-- The level of a log, or none, named in letters of either case. -/
def logLevel (text : String) : Except Refusal (Option LogLevel) :=
  if text.toUpper == "OFF" then .ok none
  else (required (LogLevel.ofName? text)).map some

/-- The options after one of them takes a value. -/
def update (o : Options) (flag : Flag) (text : String) : Except Refusal Options :=
  match flag with
  | .rate => (number 64 text).map fun rate => { o with rate }
  | .durationMs => (number 64 text).map fun durationMs => { o with durationMs }
  | .seed => (number 128 text).map fun seed => { o with seed }
  | .timerMode =>
    (required (TimerMode.ofName? text) .notAChoice).map fun timerMode => { o with timerMode }
  | .fixSkipByKey => .ok { o with fixSkipByKey := true }
  | .press => (keystroke text).map fun stroke => { o with press := o.press ++ [stroke] }
  | .scale => (number 64 text).map fun scale => { o with scale }
  | .logLevel => (logLevel text).map fun logLevel => { o with logLevel }
  | .help => .error .help
  | .version => .error .version

/-- A flag is given, with its value if it takes one. -/
def give (d : Draft) (flag : Flag) (text : String) : Except Refusal Draft :=
  if flag != .press && d.given.contains flag then .error .repeated
  else (update d.options flag text).map fun options =>
    { d with options, given := flag :: d.given }

/-- The path is given. -/
def path (d : Draft) (text : String) : Except Refusal Draft :=
  match d.rom with
  | some _ => .error .unknown
  | none => if text.isEmpty then .error .noValue else .ok { d with rom := some text }

/-- Reads the words behind the end of the options. -/
def readPaths (d : Draft) : List String → Except Refusal Draft
  | [] => .ok d
  | text :: rest => (d.path text).bind fun d => d.readPaths rest

/-- Reads the words of a command line. -/
def read (d : Draft) : List String → Except Refusal Draft
  | [] => .ok d
  | text :: rest =>
    match Word.ofText text with
    | .plain => (d.path text).bind fun d => d.read rest
    | .terminator => d.readPaths rest
    | .stray => .error .unknown
    | .flag flag attached =>
      match flag.takesValue, attached with
      | false, some _ => .error .surplusValue
      | false, none => (d.give flag "").bind fun d => d.read rest
      | true, some value => (d.give flag value).bind fun d => d.read rest
      | true, none =>
        match rest with
        | [] => .error .noValue
        | value :: rest =>
          -- a word with a dash in front is no value, even where one is wanted
          match Word.ofText value with
          | .plain => (d.give flag value).bind fun d => d.read rest
          | .stray => .error .unknown
          | _ => .error .noValue

end Draft

/-- The options that a command line asks for. -/
def Options.parse (words : List String) : Except Refusal Options :=
  (Draft.read {} words).bind fun d =>
    match d.rom with
    | some rom => .ok { d.options with rom }
    | none => .error .noRom

end Chip8.Command
