/-! Levels of log records and the filter that bounds them. -/

namespace PowerFirmware

/-- How grave a record is, gravest first. -/
inductive Level
  | error | warn | info | debug | trace
  deriving DecidableEq, Repr

namespace Level

def rank : Level → Nat
  | error => 1 | warn => 2 | info => 3 | debug => 4 | trace => 5

def name : Level → String
  | error => "ERROR" | warn => "WARN" | info => "INFO" | debug => "DEBUG" | trace => "TRACE"

def all : List Level := [error, warn, info, debug, trace]

/-- Names are read without regard to the case of ASCII letters. -/
def ofName? (text : String) : Option Level := all.find? (·.name == text.toUpper)

end Level

/-- The least grave level that is still let through, or none at all. -/
inductive LevelFilter
  | off
  | upTo (level : Level)
  deriving DecidableEq, Repr

namespace LevelFilter

def name : LevelFilter → String
  | off => "OFF"
  | upTo level => level.name

/-- A text that names no level turns logging off. -/
def ofName (text : String) : LevelFilter :=
  match Level.ofName? text with
  | some level => upTo level
  | none => off

def admits : LevelFilter → Level → Bool
  | off, _ => false
  | upTo bound, level => level.rank ≤ bound.rank

end LevelFilter
end PowerFirmware
