import PowerFirmware.Logging.Level
import PowerFirmware.Text

/-! The log as it is shown on the console: one coloured line for each record. -/

namespace PowerFirmware

/-- When and on which core a record is made. -/
structure Stamp where
  seconds : Nat := 0
  nanos : Nat := 0
  core : Option Nat := none
  deriving DecidableEq, Repr

/-- The stamp of a time given in seconds and nanoseconds, of which there may be more than a second's,
    if its whole seconds fit sixty-four bits. -/
def Stamp.ofTime? (seconds nanos : Nat) (core : Option Nat) : Option Stamp :=
  let whole := seconds + nanos / 1000000000
  if whole < UInt64.size then some ⟨whole, nanos % 1000000000, core⟩ else none

/-- A log record: how grave it is, where it comes from and what it says. -/
structure LogRecord where
  level : Level
  target : String
  line : Option Nat := none
  message : String
  deriving DecidableEq, Repr

namespace LogRecord

/-- The terminal colour of each level. -/
def color : Level → Nat
  | .error => 31 | .warn => 33 | .info => 32 | .debug => 36 | .trace => 90

/-- The text in a terminal colour. -/
def inColor (code : Nat) (text : String) : String := s!"\x1b[{code}m{text}\x1b[m"

/-- The line for a record: its stamp with whole microseconds and its place in white, and what it says
    in the colour of its level. A record without a line number shows line zero. -/
def render (stamp : Stamp) (r : LogRecord) : String :=
  let seconds := Text.padLeft 3 ' ' (toString stamp.seconds)
  let micros := Text.padLeft 6 '0' (toString (stamp.nanos / 1000))
  let core := match stamp.core with
    | some core => s!"{core} "
    | none => ""
  let line := r.line.getD 0
  inColor 37 (s!"[{seconds}.{micros} {core}{r.target}:{line}] " ++ inColor (color r.level) r.message
    ++ "\n")

end LogRecord

/-- The console: the level up to which records are shown, and what has been written so far, newest
    first. -/
structure Console where
  filter : LevelFilter
  written : List String := []
  deriving DecidableEq, Repr

/-- Why a console is refused. -/
inductive ConsoleError
  | alreadyInstalled
  deriving DecidableEq, Repr

def ConsoleError.message : ConsoleError → String
  | .alreadyInstalled =>
    "attempted to set a logger after the logging system was already initialized"

namespace Console

/-- A console is installed once, and shows warnings at first. -/
def install : Option Console → Except ConsoleError Console
  | none => .ok { filter := .upTo .warn }
  | some _ => .error .alreadyInstalled

/-- Writes a text whatever the filter says. -/
def print (c : Console) (text : String) : Console := { c with written := text :: c.written }

def shows (c : Console) (r : LogRecord) : Bool := c.filter.admits r.level

/-- Writes the line for a record if the filter lets it through. -/
def log (c : Console) (stamp : Stamp) (r : LogRecord) : Console :=
  if c.shows r then c.print (r.render stamp) else c

/-- What is put on the console: a text as it is, or a record. -/
inductive Entry
  | text (t : String)
  | record (r : LogRecord)
  deriving DecidableEq, Repr

/-- Puts an entry on the console, and tells whether anything was written. -/
def put (stamp : Stamp) (c : Console) : Entry → Bool × Console
  | .text t => (true, c.print t)
  | .record r => (c.shows r, c.log stamp r)

/-- Puts entries on the console one after the other. -/
def putAll (stamp : Stamp) : Console → List Entry → List Bool × Console
  | c, [] => ([], c)
  | c, e :: rest =>
    let (written, c) := c.put stamp e
    let (more, c) := putAll stamp c rest
    (written :: more, c)

/-- Everything written so far. -/
def output (c : Console) : String := String.join c.written.reverse

end Console
end PowerFirmware
