import AlertAdmission.Decimal.Binary64
import AlertAdmission.Time.Duration
import AlertAdmission.Time.Instant

/-!
Storms: too many alerts of all rules together.

The detector keeps the instants of the alerts it has counted in the trailing window. An alert that
brings their number above the threshold is denied and starts a storm, which lasts for the cooldown;
the alerts in it are swallowed, that is denied without being counted.
-/

namespace AlertAdmission

/-- When a storm starts and how long it lasts, with lengths in seconds. -/
structure StormConfig where
  threshold : UInt64
  windowSeconds : UInt64
  cooldownSeconds : UInt64
  deriving DecidableEq, Repr

/-- The instants of counted alerts, the start of the storm while there is one, and the number of
alerts it has swallowed. -/
structure Storm where
  counted : List Instant
  startedAt : Option Instant
  swallowed : Nat
  deriving DecidableEq, Repr

/-- What a detector shows: rates are in alerts per minute. -/
structure StormStatus where
  inStorm : Bool
  startedAt : Option Instant
  swallowed : Nat
  currentRate : Binary64
  thresholdRate : Binary64
  cooldownRemaining : Duration
  deriving DecidableEq, Repr

namespace StormConfig

/-- A hundred alerts a minute start a storm of five minutes. -/
def standard : StormConfig := ⟨100, 60, 300⟩

def window (c : StormConfig) : Span := windowLength c.windowSeconds.toNat

def cooldown (c : StormConfig) : Span := windowLength c.cooldownSeconds.toNat

end StormConfig

namespace Storm

def calm : Storm := ⟨[], none, 0⟩

/-- The detector without the alerts at its front that have left the window. -/
def prune (s : Storm) (cutoff : Instant) : Storm :=
  { s with counted := s.counted.dropWhile fun t => t ≤ cutoff }

def isRaging (s : Storm) (c : StormConfig) (now : Instant) : Bool :=
  match s.startedAt with
  | none => false
  | some start => now < start + c.cooldown

/-- The detector after an alert counted outside of storms, and whether the alert may proceed. -/
def count (s : Storm) (c : StormConfig) (now : Instant) : Storm × Bool :=
  let counted := s.counted ++ [now]
  if c.threshold.toNat < counted.length then (⟨counted, some now, 0⟩, false)
  else (⟨counted, none, 0⟩, true)

def record (s : Storm) (c : StormConfig) (now : Instant) : Storm × Bool :=
  let pruned := s.prune (now - c.window)
  if pruned.isRaging c now then ({ pruned with swallowed := pruned.swallowed + 1 }, false)
  else pruned.count c now

/-- A storm that is there after an alert was there before, or starts with the alert. -/
theorem startedAt_record {storm : Storm} {c : StormConfig} {now start : Instant}
    (started : start ∈ (storm.record c now).1.startedAt) :
    start ∈ storm.startedAt ∨ start = now := by
  unfold record count at started
  dsimp only at started
  split at started
  · exact .inl started
  · split at started
    · exact .inr (Option.some.inj started).symm
    · cases started

/-- The instants that a detector works out to record an alert or to show its status: the start of
the window and, while there is a storm, its end. -/
def reach (s : Storm) (c : StormConfig) (now : Instant) : List Instant :=
  (now - c.window) :: (s.startedAt.map fun (start : Instant) => start + c.cooldown).toList

def countInWindow (s : Storm) (c : StormConfig) (now : Instant) : Nat :=
  (s.counted.filter fun t => now - c.window < t).length

/-- A count of alerts in the window as a rate per minute; zero for a window without length. -/
def rate (c : StormConfig) (alerts : Nat) : Binary64 :=
  let minutes := (Binary64.ofNat c.windowSeconds.toNat).div (Binary64.ofNat 60)
  if minutes.isPositive then (Binary64.ofNat alerts).div minutes else Binary64.zero false

/-- The time until the storm ends; none where there is no storm or it should have ended. -/
def cooldownRemaining (s : Storm) (c : StormConfig) (now : Instant) : Duration :=
  match s.startedAt with
  | none => 0
  | some start => (start + c.cooldown - now).toNat

def status (s : Storm) (c : StormConfig) (now : Instant) : StormStatus where
  inStorm := s.startedAt.isSome
  startedAt := s.startedAt
  swallowed := s.swallowed
  currentRate := rate c (s.countInWindow c now)
  thresholdRate := rate c c.threshold.toNat
  cooldownRemaining := s.cooldownRemaining c now

end Storm

end AlertAdmission
