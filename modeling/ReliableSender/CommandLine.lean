/-
  ReliableSender.CommandLine
  ──────────────────────────
  **STARTING THE PROGRAM FROM ITS ARGUMENTS.**

  Arguments are taken from left to right, and the first one at fault decides;
  a later argument overrides an earlier one of its kind.  A request for help
  ends the reading where it stands.  Without a peer among the arguments the
  environment names it.  Only then is the configuration file read.
-/
import ReliableSender.Config.Document
import ReliableSender.SocketAddress

namespace ReliableSender

/-! ## §1. Options. -/

/-- What an argument announces. -/
inductive Flag where
  | peer
  | bind
  | config
  | silence
  | help
  deriving DecidableEq, Repr

namespace Flag

/-- The long form of a flag. -/
def name : Flag → String
  | peer => "--peer"
  | bind => "--bind"
  | config => "--config"
  | silence => "--exp-ms"
  | help => "--help"

/-- The flag that an argument is. -/
def ofText? : String → Option Flag
  | "--peer" | "-p" => some peer
  | "--bind" | "-b" => some bind
  | "--config" | "-c" => some config
  | "--exp-ms" => some silence
  | "--help" | "-h" => some help
  | _ => none

@[simp] theorem ofText?_name (f : Flag) : ofText? f.name = some f := by
  cases f <;> rfl

end Flag

/-- Why a text is no 64-bit number. -/
inductive NumeralFault where
  | empty
  | invalidDigit
  | tooLarge
  deriving DecidableEq, Repr

/-- The wording of such a fault. -/
def NumeralFault.message : NumeralFault → String
  | empty => "cannot parse integer from empty string"
  | invalidDigit => "invalid digit found in string"
  | tooLarge => "number too large to fit in target type"

/-- Read a decimal number below 2⁶⁴ with an optional plus sign.  The first
character at fault decides: one that is no digit, or the digit with which the
number grows too large. -/
def wholeNumber (text : String) : Except NumeralFault Nat :=
  match text.toList with
  | [] => .error .empty
  | ['+'] => .error .invalidDigit
  | '+' :: digits => go 0 digits
  | digits => go 0 digits
where
  go (read : Nat) : List Char → Except NumeralFault Nat
    | [] => .ok read
    | c :: rest =>
      if !c.isDigit then .error .invalidDigit
      else
        let read := read * 10 + (c.toNat - 48)
        if Nat.pow 2 64 ≤ read then .error .tooLarge else go read rest

/-- Options as far as arguments have given them. -/
structure PartialOptions where
  peer : Option SocketAddress := none
  bind : SocketAddress := .v4 ⟨0, 0, 0, 0⟩ 0
  configPath : Option String := none
  /-- Silence of the peer, in milliseconds, after which data is sent again. -/
  silence : Nat := 1000
  deriving DecidableEq, Repr

/-- What the program was asked to do. -/
structure Options where
  peer : SocketAddress
  bind : SocketAddress
  configPath : Option String
  silence : Nat
  deriving DecidableEq, Repr

/-! ## §2. Faults. -/

/-- Why the arguments ask for nothing the program can do. -/
inductive ArgumentFault where
  | missingValue (flag : Flag)
  | invalidPeer (text : String)
  | invalidBind (text : String)
  | invalidSilence (text : String) (fault : NumeralFault)
  | unknown (argument : String)
  /-- The environment names a peer that is no address. -/
  | invalidDefaultPeer
  | noPeer
  deriving DecidableEq, Repr

namespace ArgumentFault

/-- The wording of a text that is no address. -/
def notAnAddress : String := "invalid socket address syntax"

/-- The line that points to the help. -/
def helpHint : String := "Run with --help for usage."

/-- The wording of a fault. -/
def message : ArgumentFault → String
  | missingValue flag => s!"{flag.name} requires a value"
  | invalidPeer text => s!"invalid peer address '{text}': {notAnAddress}"
  | invalidBind text => s!"invalid bind address '{text}': {notAnAddress}"
  | invalidSilence text fault => s!"invalid EXP interval '{text}': {fault.message}"
  | unknown argument => s!"unknown argument: {argument}\n{helpHint}"
  | invalidDefaultPeer => notAnAddress
  | noPeer => s!"no peer specified. Use --peer or UDT_PEER env var.\n{helpHint}"

end ArgumentFault

/-! ## §3. Reading arguments. -/

namespace PartialOptions

/-- Take the value of a flag. -/
def set (o : PartialOptions) (flag : Flag) (value : String) :
    Except ArgumentFault PartialOptions :=
  match flag with
  | .peer =>
    match SocketAddress.ofText? value with
    | some address => .ok { o with peer := some address }
    | none => .error (.invalidPeer value)
  | .bind =>
    match SocketAddress.ofText? value with
    | some address => .ok { o with bind := address }
    | none => .error (.invalidBind value)
  | .config => .ok { o with configPath := some value }
  | .silence =>
    match wholeNumber value with
    | .ok n => .ok { o with silence := n }
    | .error fault => .error (.invalidSilence value fault)
  | .help => .ok o

/-- Read arguments; nothing comes back if they ask for help. -/
def read (o : PartialOptions) : List String → Except ArgumentFault (Option PartialOptions)
  | [] => .ok (some o)
  | [argument] =>
    match Flag.ofText? argument with
    | none => .error (.unknown argument)
    | some .help => .ok none
    | some flag => .error (.missingValue flag)
  | argument :: value :: rest =>
    match Flag.ofText? argument with
    | none => .error (.unknown argument)
    | some .help => .ok none
    | some flag =>
      match o.set flag value with
      | .error fault => .error fault
      | .ok o => read o rest

/-- Settle the peer, which the environment may have to name; a silence of no time
counts as one millisecond. -/
def complete (o : PartialOptions) (defaultPeer : Option String) :
    Except ArgumentFault Options :=
  let finish (peer : SocketAddress) : Options :=
    { peer, bind := o.bind, configPath := o.configPath, silence := max o.silence 1 }
  match o.peer, defaultPeer with
  | some peer, _ => .ok (finish peer)
  | none, some text =>
    match SocketAddress.ofText? (Text.trim text) with
    | some peer => .ok (finish peer)
    | none => .error .invalidDefaultPeer
  | none, none => .error .noPeer

end PartialOptions

/-! ## §4. Starting. -/

/-- The lines of the help. -/
def helpLines : List String :=
  ["udt-send: stream stdin to a UDT peer",
   "",
   "USAGE:",
   "  udt-send --peer <ADDR> [OPTIONS]",
   "",
   "OPTIONS:",
   "  --peer, -p <addr>     Peer UDP address (required)",
   "  --bind, -b <addr>     Local bind address (default: 0.0.0.0:0)",
   "  --config, -c <path>   TOML sender configuration",
   "  --exp-ms <ms>         Peer silence before unacknowledged data is resent (default: 1000)",
   "  --help, -h            Show this help",
   "",
   "ENVIRONMENT VARIABLES:",
   "  UDT_PEER   Peer address (fallback for --peer)",
   "  RUST_LOG   Log level filter (e.g. info, udt_transport=trace)",
   ""]

/-- The help, as it is written out. -/
def helpText : String := String.join (helpLines.map (· ++ "\n"))

/-- How the program leaves. -/
structure Exit where
  code : UInt32 := 0
  /-- What it writes to standard error. -/
  report : String := ""
  deriving DecidableEq, Repr

/-- Leave because of a fault. -/
def Exit.failure (message : String) (cause : Option String) : Exit where
  code := 1
  report :=
    s!"Error: {message}\n" ++ cause.elim "" fun text => s!"\nCaused by:\n    {text}\n"

/-- What the program does with its arguments. -/
inductive StartUp where
  | leave (exit : Exit)
  /-- Send, with these options and this configuration. -/
  | transfer (options : Options) (config : Config)
  deriving DecidableEq, Repr

namespace StartUp

/-- Start with the given options, whose configuration file `file` looks up. -/
def withOptions (options : Options) (file : String → Except FileFault Bytes) : StartUp :=
  let config : Except ConfigError Config := match options.configPath with
    | none => .ok {}
    | some path => Config.ofFile (file path)
  match config with
  | .ok config => transfer options config
  | .error fault => leave (.failure fault.message fault.cause?)

/-- The options that arguments and the environment's peer give, unless they make the
program leave. -/
def options (arguments : List String) (defaultPeer : Option String) : Except Exit Options :=
  match PartialOptions.read {} arguments with
  | .error fault => .error (.failure fault.message none)
  | .ok none => .error { report := helpText }
  | .ok (some o) =>
    match o.complete defaultPeer with
    | .error fault => .error (.failure fault.message none)
    | .ok options => .ok options

/-- Start from arguments, the peer that the environment names, and files. -/
def ofArguments (arguments : List String) (defaultPeer : Option String)
    (file : String → Except FileFault Bytes) : StartUp :=
  match options arguments defaultPeer with
  | .error exit => leave exit
  | .ok options => withOptions options file

end StartUp

end ReliableSender
