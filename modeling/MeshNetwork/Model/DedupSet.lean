import MeshNetwork.Library.TimedSet
import MeshNetwork.Model.Packet
import Mathlib.Data.Finset.Card

/-!
# Timed duplicate suppression

`TimedDedupSet` of `DedeupSet.h`: a set of values and the queue of the times at which they were
inserted. Every operation reads the clock itself; the reading is an argument here.
-/

namespace MeshNetwork

structure TimedDedupSet (α : Type) where
  maxAge : Time := seconds 30
  set : Finset α := ∅
  timeQueue : List (Time × α) := []

namespace TimedDedupSet

variable {α : Type} [DecidableEq α]

def insert (s : TimedDedupSet α) (value : α) (now : Time) : Bool × TimedDedupSet α :=
  if value ∈ s.set then (false, s)
  else (true,
    { s with set := Insert.insert value s.set, timeQueue := s.timeQueue ++ [(now, value)] })

def contains (s : TimedDedupSet α) (value : α) : Bool := decide (value ∈ s.set)

/-- The `while` loop of `cleanup`. -/
def dropExpired (now maxAge : Time) : List (Time × α) → Finset α → List (Time × α) × Finset α
  | [], set => ([], set)
  | (timestamp, value) :: rest, set =>
    if now - timestamp > maxAge then dropExpired now maxAge rest (set.erase value)
    else ((timestamp, value) :: rest, set)

def cleanup (s : TimedDedupSet α) (now : Time) : TimedDedupSet α :=
  let r := dropExpired now s.maxAge s.timeQueue s.set
  { s with timeQueue := r.1, set := r.2 }

def size (s : TimedDedupSet α) : Nat := s.set.card

def clear (s : TimedDedupSet α) : TimedDedupSet α := { s with set := ∅, timeQueue := [] }

/-- A call at a reading of the clock, with what it returns. -/
def call (s : TimedDedupSet α) : Time × TimedSet.Call α → TimedSet.Answer × TimedDedupSet α
  | (now, .insert value) => (.flag (s.insert value now).1, (s.insert value now).2)
  | (_, .contains value) => (.flag (s.contains value), s)
  | (now, .cleanup) => (.done, s.cleanup now)
  | (_, .clear) => (.done, s.clear)
  | (_, .size) => (.count s.size, s)

def step (s : TimedDedupSet α) (c : Time × TimedSet.Call α) : TimedDedupSet α := (s.call c).2

end TimedDedupSet

end MeshNetwork
