/-! A condition that plays a given course of answers. -/

namespace PowerFirmware.Bench

/-- The next answers, the answer after these, and how often the condition has been looked at. -/
structure Signal where
  course : List Bool := []
  last : Bool := false
  looks : Nat := 0
  deriving DecidableEq, Repr

/-- Whether the condition holds at the next look. -/
def Signal.look (s : Signal) : Bool × Signal :=
  match s.course with
  | [] => (s.last, { s with looks := s.looks + 1 })
  | holds :: rest => (holds, { s with course := rest, looks := s.looks + 1 })

end PowerFirmware.Bench
