/-
  RequestRouter/Shutdown.lean
  ===========================
  **The shutdown signal, which any number of tasks can wait for.**

  Only the newest signal is kept. A receiver that missed older ones is first told how many, and then
  gets the newest. A signal that nobody is there to receive is not sent.
-/

namespace RequestRouter

/-- Signals sent, and for each receiver how many of them it has seen or been told to have missed. -/
structure Shutdown where
  sent : Nat
  /-- Receivers in the order in which they subscribed; `none` for one that is gone. -/
  receivers : List (Option Nat)
deriving DecidableEq, Repr

namespace Shutdown

/-- What a receiver gets. -/
inductive Received where
  | signal
  /-- Nothing was sent since. -/
  | empty
  /-- So many signals were missed. -/
  | lagged (missed : Nat)
deriving DecidableEq, Repr

/-- Nothing sent and nobody there. -/
def start : Shutdown := ⟨0, []⟩

def receiverCount (s : Shutdown) : Nat := s.receivers.countP Option.isSome

/-- A new receiver, which will get the signals sent from now on. -/
def subscribe (s : Shutdown) : Shutdown := { s with receivers := s.receivers ++ [some s.sent] }

/-- Sends the signal. -/
def trigger (s : Shutdown) : Shutdown :=
  if s.receiverCount = 0 then s else { s with sent := s.sent + 1 }

/-- The receiver at an index leaves. -/
def drop (s : Shutdown) (index : Nat) : Shutdown :=
  { s with receivers := s.receivers.set index none }

/-- What a receiver that has seen `seen` signals gets of those sent, and how many it has seen then. -/
def receiveFrom (sent seen : Nat) : Received × Nat :=
  if sent ≤ seen then (.empty, seen)
  else if seen + 1 = sent then (.signal, sent)
  else (.lagged (sent - 1 - seen), sent - 1)

/-- What the receiver at an index gets; `none` if it is gone. -/
def receive (s : Shutdown) (index : Nat) : Option Received × Shutdown :=
  match s.receivers[index]? with
  | some (some seen) =>
    let (received, seen) := receiveFrom s.sent seen
    (some received, { s with receivers := s.receivers.set index (some seen) })
  | _ => (none, s)

/-- After what it missed a receiver gets the newest signal. -/
theorem receiveFrom_after_lagged {sent seen missed : Nat}
    (h : (receiveFrom sent seen).1 = .lagged missed) :
    receiveFrom sent (receiveFrom sent seen).2 = (.signal, sent) := by
  unfold receiveFrom at h ⊢
  split at h
  · cases h
  · split at h
    · cases h
    · rename_i h₁ h₂
      simp only [h₁, h₂, if_false]
      rw [if_neg (by omega), if_pos (by omega)]

end Shutdown

end RequestRouter
