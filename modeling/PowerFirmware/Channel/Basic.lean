import PowerFirmware.Poll

/-! Channels that carry one request at a time and wait for its response. -/

namespace PowerFirmware

/-- A command word and the argument words that follow it. -/
structure Request where
  opcode : UInt32
  args : List UInt32
  deriving DecidableEq, Repr

/-- What came back: the header and status words, and how many words of payload reached the caller's
    buffer. -/
structure Response where
  header : UInt32
  status : UInt32
  length : Nat
  deriving DecidableEq, Repr

/-- Why a transport did not deliver a response. -/
inductive ChannelError
  | tooManyArgs (given most : Nat)
  | timeout (t : PollTimeout)
  | transport
  deriving DecidableEq, Repr

def ChannelError.message : ChannelError → String
  | tooManyArgs given most => s!"{given} argument words exceed channel limit of {most}"
  | timeout t => t.message
  | transport => "transport error"

/-- What a transaction yields: its outcome, and the caller's buffer as it is left. -/
abbrev Delivery (n : Nat) := Except ChannelError Response × Vector UInt32 n

/-- A way to put a request to a remote side. The payload of the response is laid over the front of
    the caller's buffer, as far as that reaches. -/
structure Channel (σ : Type) where
  maxArgs : Nat
  transact : {n : Nat} → Request → Vector UInt32 n → Run σ (Delivery n)

/-- `words` laid over the front of `buffer`, which keeps its length. -/
def overlay {α : Type} {n : Nat} (words : List α) (buffer : Vector α n) : Vector α n :=
  ⟨(words.take n ++ buffer.toList.drop words.length).toArray, by simp; omega⟩

@[simp] theorem toList_overlay {α : Type} {n : Nat} (words : List α) (buffer : Vector α n) :
    (overlay words buffer).toList = words.take n ++ buffer.toList.drop words.length := rfl

/-- Where the words reach they are found, and beyond them what was in the buffer. -/
theorem getElem_overlay {α : Type} {n i : Nat} (words : List α) (buffer : Vector α n) (hi : i < n) :
    (overlay words buffer)[i] = words.getD i buffer[i] := by
  rw [← Vector.getElem_toList (by rwa [Vector.length_toList]), List.getD_eq_getElem?_getD]
  simp only [toList_overlay]
  by_cases h : i < words.length
  · have hfront : i < (words.take n).length := by
      rw [List.length_take]
      omega
    rw [List.getElem_append_left hfront, List.getElem_take, List.getElem?_eq_getElem h, Option.getD_some]
  · have hrest : (words.take n).length ≤ i := by
      rw [List.length_take]
      omega
    rw [List.getElem_append_right hrest, List.getElem?_eq_none (Nat.le_of_not_lt h), Option.getD_none]
    simp only [List.getElem_drop, Vector.getElem_toList, List.length_take]
    congr 1
    omega

end PowerFirmware
