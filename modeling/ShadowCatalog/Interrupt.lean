import ShadowCatalog.Error

/-!
# Interruption

A computation is polled from outside at whole milliseconds, until it gives a result
(`Timed`). A shutdown flag and a deadline may end it before that.

* The flag is looked at before the work. What is sent to it in a moment is seen
  only after that moment, so that a flag that is raised before the work is done
  wins, and one that is raised as the work is done comes too late.
* The deadline is looked at after the work: where both are due, the work wins,
  so that a deadline of no time still lets work through that needs none.

A flag is a channel that holds the value sent last and counts the values. Who waits for
it to be raised (`Watcher`) looks at the value, then waits for one that was not there
yet, and looks again. When the sender is gone and nothing is left to be seen, there is
nothing more to come, and the wait never ends.
-/

namespace ShadowCatalog

/-- A computation on a clock. -/
structure Timed (α : Type) where
  /-- What a poll at a moment gives, if anything, when the polls at the earlier moments
      gave nothing. -/
  poll : (earlier : List Nat) → (now : Nat) → Option α
  /-- The moments, apart from the start, at which it is to be polled. -/
  moments : List Nat

namespace Timed

variable {α β : Type}

/-- Work that gives its result at a moment. -/
def finishing (moment : Nat) (result : α) : Timed α where
  poll _ now := if moment ≤ now then some result else none
  moments := [moment]

/-- Work that never gives a result. -/
def never : Timed α where
  poll _ _ := none
  moments := []

/-- The work, with another result made of its own. -/
def map (f : α → β) (work : Timed α) : Timed β where
  poll earlier now := (work.poll earlier now).map f
  moments := work.moments

/-- Whichever is done first. Each poll goes to the first one first. -/
def either (first second : Timed α) : Timed α where
  poll earlier now := (first.poll earlier now).or (second.poll earlier now)
  moments := first.moments ++ second.moments

/-- What polls at these moments give first, after those at the earlier ones. -/
def firstResult (work : Timed α) (earlier : List Nat) : List Nat → Option α
  | [] => none
  | now :: later => (work.poll earlier now).or (work.firstResult (earlier ++ [now]) later)

/-- The result that is there first, if there ever is one. -/
def outcome (work : Timed α) : Option α :=
  work.firstResult [] ((0 :: work.moments).mergeSort (· ≤ ·))

end Timed

/-! ## The flag -/

/-- What the receiving end of a flag finds. -/
structure Channel where
  /-- The value sent last. -/
  value : Bool
  /-- How many values were sent. -/
  version : Nat
  /-- The sender is gone. -/
  closed : Bool
  deriving DecidableEq, Repr

/-- Where someone stands who waits for a flag to be raised. -/
inductive Watcher
  /-- The flag was not looked at yet. -/
  | starting
  /-- The values of the first so many versions were looked at. -/
  | waiting (seen : Nat)
  /-- Nothing more will come. -/
  | stranded
  deriving DecidableEq, Repr

namespace Watcher

/-- The wait for a value that was not seen yet, when there is none. -/
def await (channel : Channel) (seen : Nat) : Watcher :=
  if channel.closed then .stranded else .waiting seen

/-- A look at the value. Unless the flag is raised, a wait for the next one follows. -/
def look (channel : Channel) : Option Watcher :=
  if channel.value then none else some (await channel channel.version)

/-- A poll, which ends the watch or leaves it somewhere. That there is a new value comes
    before that the sender is gone. -/
def poll (channel : Channel) : Watcher → Option Watcher
  | .starting => look channel
  | .waiting seen =>
    if channel.version ≠ seen then look channel else some (await channel seen)
  | .stranded => some .stranded

end Watcher

/-- A flag that someone may raise: its value at first, and the values sent later,
    with the moment of each, in order. -/
structure ShutdownFlag where
  initial : Bool := false
  signals : List (Nat × Bool) := []
  /-- The moment from which on the sender is gone, if it ever goes. It does not go before
      everything is sent. -/
  dropped : Option Nat := none
  deriving DecidableEq, Repr

namespace ShutdownFlag

/-- The flag that is raised some time after the start. After no time, it is
    raised from the start. -/
def raisedAfter (moment : Nat) : ShutdownFlag :=
  if moment = 0 then { initial := true } else { signals := [(moment, true)] }

variable (flag : ShutdownFlag)

/-- The values sent before a moment. -/
def sentBefore (now : Nat) : List Bool := (flag.signals.filter (·.1 < now)).map (·.2)

/-- The channel as it is found at a moment. -/
def channelAt (now : Nat) : Channel where
  value := (flag.sentBefore now).getLastD flag.initial
  version := (flag.sentBefore now).length
  closed := flag.dropped.any (· ≤ now) && (flag.sentBefore now).length == flag.signals.length

/-- Where a watch stands that was polled at these moments, unless it is over. -/
def watch (polls : List Nat) : Option Watcher :=
  polls.foldlM (fun watcher now => watcher.poll (flag.channelAt now)) .starting

/-- The wait for the flag to be raised. -/
def raised : Timed Unit where
  poll earlier now := if (flag.watch (earlier ++ [now])).isNone then some () else none
  moments := flag.signals.map (·.1 + 1) ++ flag.dropped.toList

end ShutdownFlag

/-! ## Work that may be interrupted -/

/-- The work, unless the flag is raised before it is done. -/
def cancellable {α : Type} (operation : String) (flag : ShutdownFlag)
    (work : Timed (Except Error α)) : Timed (Except Error α) :=
  (flag.raised.map fun _ => .error (.catalog (.cancelled operation))).either work

/-- The work, unless it takes longer than the deadline. -/
def withDeadline {α : Type} (operation : String) (deadline : Duration)
    (work : Timed (Except Error α)) : Timed (Except Error α) :=
  work.either
    (.finishing deadline.ticks (.error (.catalog (.deadlineExceeded operation deadline))))

end ShadowCatalog
