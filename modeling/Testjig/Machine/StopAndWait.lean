namespace Machine.StopAndWait

variable {α : Type}

structure Packet (α : Type) where
  bit : Bool
  data : α
deriving DecidableEq, Repr

/-- The receiver takes a packet with the bit that it expects, and only acknowledges any other. -/
structure Receiver (α : Type) where
  expects : Bool
  taken : List α
deriving DecidableEq, Repr

def Receiver.see (receiver : Receiver α) (packet : Packet α) : Receiver α :=
  if packet.bit = receiver.expects then ⟨!receiver.expects, receiver.taken ++ [packet.data]⟩ else receiver

/-- The receiver has taken what the sender knows to be taken, and expects the sender's next bit. -/
structure Level (done : List α) (bit : Bool) (receiver : Receiver α) : Prop where
  expects : receiver.expects = bit
  taken : receiver.taken = done

/-- The receiver is at most one packet ahead of what the sender knows. -/
def Sent (done : List α) (packet : Packet α) (receiver : Receiver α) : Prop :=
  Level done packet.bit receiver ∨ Level (done ++ [packet.data]) (!packet.bit) receiver

variable {done : List α} {packet : Packet α} {receiver : Receiver α}

theorem Level.sent {data : α} {bit : Bool} (level : Level done bit receiver) : Sent done ⟨bit, data⟩ receiver :=
  .inl level

theorem Level.takes (level : Level done packet.bit receiver) :
    Level (done ++ [packet.data]) (!packet.bit) (receiver.see packet) := by
  have expected : packet.bit = receiver.expects := level.expects.symm
  rw [Receiver.see, if_pos expected]
  exact ⟨by rw [level.expects], by rw [level.taken]⟩

/-- A repeated packet is not taken again. -/
theorem Level.ignores (level : Level (done ++ [packet.data]) (!packet.bit) receiver) :
    Level (done ++ [packet.data]) (!packet.bit) (receiver.see packet) := by
  have other : packet.bit ≠ receiver.expects := by
    rw [level.expects]
    cases packet.bit <;> simp
  rw [Receiver.see, if_neg other]
  exact level

theorem Sent.see (sent : Sent done packet receiver) :
    Level (done ++ [packet.data]) (!packet.bit) (receiver.see packet) := by
  rcases sent with level | level
  · exact level.takes
  · exact level.ignores

theorem Sent.taken (sent : Sent done packet receiver) :
    receiver.taken = done ∨ receiver.taken = done ++ [packet.data] := by
  rcases sent with level | level
  · exact .inl level.taken
  · exact .inr level.taken

end Machine.StopAndWait
