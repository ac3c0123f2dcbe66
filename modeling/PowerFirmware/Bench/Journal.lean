/-! What a test bench has seen: all of it, and what is new since it was last looked at. -/

namespace PowerFirmware.Bench

/-- Entries with the newest first. -/
structure Journal (α : Type) where
  all : List α := []
  fresh : List α := []
  deriving Repr

namespace Journal
variable {α : Type}

def push (j : Journal α) (a : α) : Journal α := ⟨a :: j.all, a :: j.fresh⟩

/-- All entries, the oldest first. -/
def toList (j : Journal α) : List α := j.all.reverse

/-- The entries since the journal was last drained, the oldest first. -/
def news (j : Journal α) : List α := j.fresh.reverse

/-- Forgets all entries, but not which of them are new. -/
def clear (j : Journal α) : Journal α := { j with all := [] }

/-- Nothing is new any more. -/
def drain (j : Journal α) : Journal α := { j with fresh := [] }

end Journal

/-- How often something has happened, in all and since it was last looked at. -/
structure Tally where
  all : Nat := 0
  fresh : Nat := 0
  deriving DecidableEq, Repr

namespace Tally

def step (t : Tally) : Tally := ⟨t.all + 1, t.fresh + 1⟩
def drain (t : Tally) : Tally := { t with fresh := 0 }

end Tally
end PowerFirmware.Bench
