import AlertAdmission.Throttle.Ring

/-!
The state of one group of a rule: the instants of its allowed alerts, as many as the limit counts,
and the number of alerts suppressed since they were last reported.
-/

namespace AlertAdmission

/-- Recent allowed alerts of a group, and its suppressed ones that are not reported yet. -/
structure GroupWindow where
  recent : Ring
  suppressed : Nat
  lastCleanup : Instant

namespace GroupWindow

def fresh (capacity : Nat) (now : Instant) : GroupWindow := ⟨Ring.empty capacity, 0, now⟩

/-- The recent alerts newer than a cutoff, the oldest first. -/
def entriesSince (w : GroupWindow) (cutoff : Instant) : List Instant :=
  w.recent.toList.filter fun t => cutoff < t

def countSince (w : GroupWindow) (cutoff : Instant) : Nat := (w.entriesSince cutoff).length

def isIdle (w : GroupWindow) (cutoff : Instant) : Bool :=
  w.suppressed == 0 && w.countSince cutoff == 0

def least? : List Instant → Option Instant
  | [] => none
  | t :: rest => some (rest.foldl (fun least u => if u < least then u else least) t)

def greatest? : List Instant → Option Instant
  | [] => none
  | t :: rest => some (rest.foldl (fun greatest u => if greatest < u then u else greatest) t)

def resize (w : GroupWindow) (capacity : Nat) : GroupWindow :=
  { w with recent := w.recent.resize capacity }

/-- The group without the alerts that have left the window, looked for at most once in half a
window. -/
def compact (w : GroupWindow) (now : Instant) (window : Span) : GroupWindow :=
  if now - w.lastCleanup < window / 2 then w
  else { w with recent := w.recent.keepAfter (now - window), lastCleanup := now }

def push (w : GroupWindow) (now : Instant) : GroupWindow := { w with recent := w.recent.push now }

def suppress (w : GroupWindow) : GroupWindow := { w with suppressed := w.suppressed + 1 }

/-- The group with so many suppressed alerts less, but not fewer than none. -/
def release (w : GroupWindow) (reported : Nat) : GroupWindow :=
  { w with suppressed := w.suppressed - reported }

def forgetSuppressed (w : GroupWindow) : GroupWindow := { w with suppressed := 0 }

/-- The group made ready for a decision: with the slots of the current limit, and compacted. -/
def prepare (w : GroupWindow) (capacity : Nat) (window : Span) (now : Instant) : GroupWindow :=
  (w.resize capacity).compact now window

/-- The group after one more alert. With fewer than `capacity` alerts in the window it is allowed;
else it is suppressed, and the number of alerts in the window is told. -/
def offer (w : GroupWindow) (capacity : Nat) (window : Span) (now : Instant) :
    GroupWindow × Option Nat :=
  let ready := w.prepare capacity window now
  let current := ready.countSince (now - window)
  if current < capacity then (ready.push now, none) else (ready.suppress, some current)

end GroupWindow

end AlertAdmission
