import AlertAdmission.Proofs.Admission.Exact
import Mathlib.Algebra.GroupWithZero.Nat
import Mathlib.Data.List.Forall2

/-!
Digests of deferred alerts.

The alerts that are deferred between two drains make a round. In every run of admissions and drains
a drain tells of the alerts of its round and of no others, and what is held is the round that no
drain has told of yet (`Gates.serve_digests`).
-/

namespace AlertAdmission

def alertsOf (device : String) (alerts : List HeldAlert) : List HeldAlert :=
  alerts.filter fun a => a.device = device

/-! ### Held alerts of a round -/

namespace HeldAlerts

/-- Each device has its alerts of a round held, in their order. -/
def Holds (held : HeldAlerts) (alerts : List HeldAlert) : Prop :=
  ∀ device, held.ofDevice device = alertsOf device alerts

theorem holds_nothing : Holds Table.empty [] := fun _ => rfl

theorem length_of_grouped {groups : List (String × List HeldAlert)}
    (ordered : groups.Pairwise fun a b => a.1 < b.1) {alerts : List HeldAlert}
    (grouped : ∀ device, (groups.lookup device).getD [] = alertsOf device alerts) :
    (groups.map Prod.snd).flatten.length = alerts.length := by
  induction groups generalizing alerts with
  | nil =>
    have none : alerts = [] := by
      cases alerts with
      | nil => rfl
      | cons a rest =>
        have own := grouped a.device
        simp [alertsOf] at own
    rw [none]
    rfl
  | cons group rest ih =>
    obtain ⟨name, own⟩ := group
    have first : own = alertsOf name alerts := by
      have at_name := grouped name
      rwa [Table.lookup_pair, if_pos rfl] at at_name
    -- the other groups hold what is left of the alerts without those of the first device
    have left : ∀ device, (rest.lookup device).getD [] =
        alertsOf device (alerts.filter fun a => a.device ≠ name) := by
      intro device
      by_cases same : device = name
      · subst same
        rw [Table.lookup_eq_none_of_forall_lt (List.pairwise_cons.mp ordered).1]
        simp [alertsOf, List.filter_filter]
      · have there := grouped device
        rw [Table.lookup_pair, if_neg same] at there
        rw [there, alertsOf, alertsOf, List.filter_filter]
        apply List.filter_congr
        intro a _
        by_cases here : a.device = device <;> simp [here, same]
    have others := ih ordered.of_cons left
    rw [List.map_cons, List.flatten_cons, List.length_append, others, first, alertsOf,
      ← List.countP_eq_length_filter, ← List.countP_eq_length_filter,
      List.length_eq_countP_add_countP (fun a => decide (a.device = name))]
    simp

variable {held : HeldAlerts} {alerts : List HeldAlert}

theorem Holds.count (h : held.Holds alerts) : held.count = alerts.length :=
  length_of_grouped held.ordered h

end HeldAlerts

/-! ### What digests tell -/

/-- Digests of the devices with alerts in a round, in order of the devices, each of exactly the
alerts of its device. -/
structure Tells (digests : List Digest) (alerts : List HeldAlert) : Prop where
  ordered : digests.Pairwise fun d later => d.device < later.device
  mem_iff : ∀ d, d ∈ digests ↔ alertsOf d.device alerts ≠ [] ∧
    d.alertCount = (alertsOf d.device alerts).length ∧
    d.message = Digest.text d.device (alertsOf d.device alerts)
  count : (digests.map Digest.alertCount).sum = alerts.length

theorem sum_alertCount_ofHeld (held : HeldAlerts) :
    ((Digest.ofHeld held).map Digest.alertCount).sum = held.count := by
  unfold Digest.ofHeld HeldAlerts.count Table.values
  induction held.toList with
  | nil => rfl
  | cons group rest ih =>
    by_cases none : group.2 = []
    · simpa [none] using ih
    · simpa [none] using ih

theorem mem_ofHeld_iff (held : HeldAlerts) (d : Digest) :
    d ∈ Digest.ofHeld held ↔ held.ofDevice d.device ≠ [] ∧
      d.alertCount = (held.ofDevice d.device).length ∧
      d.message = Digest.text d.device (held.ofDevice d.device) := by
  obtain ⟨device, count, message⟩ := d
  unfold Digest.ofHeld HeldAlerts.ofDevice
  rw [List.mem_map]
  constructor
  · rintro ⟨⟨name, queue⟩, member, same⟩
    rw [List.mem_filter, Table.mem_toList_iff] at member
    obtain ⟨queued, some⟩ := member
    cases same
    rw [queued]
    exact ⟨by simpa using some, rfl, rfl⟩
  · dsimp only
    rintro ⟨some, rfl, rfl⟩
    cases queued : held.get? device with
    | none => simp [queued] at some
    | some queue =>
      refine ⟨(device, queue), List.mem_filter.mpr ⟨?_, ?_⟩, rfl⟩
      · rwa [Table.mem_toList_iff]
      · simpa [queued] using some

theorem HeldAlerts.Holds.tells {held : HeldAlerts} {alerts : List HeldAlert}
    (h : held.Holds alerts) : Tells (Digest.ofHeld held) alerts where
  ordered := by
    unfold Digest.ofHeld
    rw [List.pairwise_map]
    exact held.ordered.filter _
  mem_iff := by
    intro d
    rw [mem_ofHeld_iff, h d.device]
  count := (sum_alertCount_ofHeld held).trans h.count

/-! ### Admissions and drains -/

inductive GateCall where
  | arrival (a : Arrival)
  | drain

inductive GateEntry where
  | received (entry : Received)
  | drained (digests : List Digest)

abbrev GateLog := List GateEntry

def Received.deferred? (entry : Received) : Option HeldAlert :=
  match entry.fate with
  | .deferred _ => some (entry.arrival.alert.hold entry.arrival.now)
  | .deliver | .droppedByStorm | .droppedByThrottle _ => none

namespace GateEntry

def deferred? : GateEntry → Option HeldAlert
  | .received entry => entry.deferred?
  | .drained _ => none

def digests? : GateEntry → Option (List Digest)
  | .received _ => none
  | .drained digests => some digests

end GateEntry

/-- The deferred alerts of a log by rounds: those before each drain, and those after the last. -/
structure Rounds where
  told : List (List HeldAlert)
  pending : List HeldAlert

def Rounds.next (rounds : Rounds) : GateEntry → Rounds
  | .received entry => ⟨rounds.told, rounds.pending ++ entry.deferred?.toList⟩
  | .drained _ => ⟨rounds.told ++ [rounds.pending], []⟩

namespace GateLog

def rounds (log : GateLog) : Rounds := log.foldl Rounds.next ⟨[], []⟩

def deferred (log : GateLog) : List HeldAlert := log.filterMap GateEntry.deferred?

def drains (log : GateLog) : List (List Digest) := log.filterMap GateEntry.digests?

theorem rounds_snoc (log : GateLog) (last : GateEntry) :
    rounds (log ++ [last]) = log.rounds.next last := by
  rw [rounds, List.foldl_concat]
  rfl

theorem deferred_snoc (log : GateLog) (last : GateEntry) :
    deferred (log ++ [last]) = log.deferred ++ last.deferred?.toList := by
  cases alert : last.deferred? <;> simp [deferred, List.filterMap_append, alert]

theorem drains_snoc (log : GateLog) (last : GateEntry) :
    drains (log ++ [last]) = log.drains ++ last.digests?.toList := by
  cases digests : last.digests? <;> simp [drains, List.filterMap_append, digests]

theorem rounds_cover (log : GateLog) :
    log.rounds.told.flatten ++ log.rounds.pending = log.deferred := by
  induction log using List.reverseRecOn with
  | nil => rfl
  | append_singleton log last ih =>
    rw [rounds_snoc, deferred_snoc, ← ih]
    cases last with
    | received entry => exact (List.append_assoc _ _ _).symm
    | drained digests => simp [Rounds.next, GateEntry.deferred?]

end GateLog

namespace Gates

variable {g : Gates} {c : StormConfig} {log : GateLog}

def answer [ZoneDatabase] (g : Gates) (c : StormConfig) : GateCall → Gates × GateEntry
  | .arrival a => ((g.arrive c a).1, .received ⟨a, (g.arrive c a).2⟩)
  | .drain => (g.drain.1, .drained g.drain.2)

/-- The gates after a run of calls, and the log of the run. -/
def serve [ZoneDatabase] (c : StormConfig) (calls : List GateCall) : Gates × GateLog :=
  calls.foldl (fun state call =>
    ((state.1.answer c call).1, state.2 ++ [(state.1.answer c call).2])) (fresh, [])

theorem serve_snoc [ZoneDatabase] (c : StormConfig) (calls : List GateCall) (last : GateCall) :
    serve c (calls ++ [last]) = (((serve c calls).1.answer c last).1,
      (serve c calls).2 ++ [((serve c calls).1.answer c last).2]) := by
  rw [serve, List.foldl_append]
  rfl

theorem holds_arrive [ZoneDatabase] {alerts : List HeldAlert} (h : g.held.Holds alerts)
    (c : StormConfig) (a : Arrival) :
    (g.arrive c a).1.held.Holds
      (alerts ++ (Received.deferred? ⟨a, (g.arrive c a).2⟩).toList) := by
  have leaves := leaves_arrive g c a
  unfold Received.deferred?
  generalize (g.arrive c a).2 = fate at leaves
  generalize (g.arrive c a).1 = after at leaves
  have kept : after.held = g.held → after.held.Holds (alerts ++ []) := by
    intro same
    rwa [same, List.append_nil]
  cases fate with
  | deferred reason =>
    intro device
    rw [leaves device, h device]
    by_cases own : device = a.alert.device
    · simp [own, alertsOf, Alert.hold]
    · simp [own, Ne.symm own, alertsOf, Alert.hold]
  | deliver => exact kept leaves
  | droppedByStorm => exact kept leaves.2
  | droppedByThrottle reason => exact kept leaves

/-- The drains of a log have told of its rounds, and the gates hold the rest. -/
structure Told (log : GateLog) (g : Gates) : Prop where
  drains : List.Forall₂ Tells log.drains log.rounds.told
  held : g.held.Holds log.rounds.pending

theorem told_fresh : Told [] fresh where
  drains := .nil
  held := HeldAlerts.holds_nothing

theorem Told.answer [ZoneDatabase] (h : Told log g) (c : StormConfig) (call : GateCall) :
    Told (log ++ [(g.answer c call).2]) (g.answer c call).1 := by
  cases call with
  | arrival a =>
    constructor
    · rw [GateLog.drains_snoc, GateLog.rounds_snoc]
      simpa [Gates.answer, GateEntry.digests?, Rounds.next] using h.drains
    · rw [GateLog.rounds_snoc]
      exact holds_arrive h.held c a
  | drain =>
    constructor
    · rw [GateLog.drains_snoc, GateLog.rounds_snoc]
      exact List.rel_append h.drains (.cons h.held.tells .nil)
    · rw [GateLog.rounds_snoc]
      exact HeldAlerts.holds_nothing

theorem told_serve [ZoneDatabase] (c : StormConfig) (calls : List GateCall) :
    Told (serve c calls).2 (serve c calls).1 := by
  induction calls using List.reverseRecOn with
  | nil => exact told_fresh
  | append_singleton calls last ih =>
    rw [serve_snoc]
    exact ih.answer c last

theorem sum_alertCount {digests : List (List Digest)} {rounds : List (List HeldAlert)}
    (h : List.Forall₂ Tells digests rounds) :
    (digests.flatten.map Digest.alertCount).sum = rounds.flatten.length := by
  induction h with
  | nil => rfl
  | cons tells _ ih =>
    rw [List.flatten_cons, List.map_append, List.sum_append, tells.count, ih, List.flatten_cons,
      List.length_append]

/-- In every run of admissions and drains each deferred alert is in one round, the drains tell of
the rounds in their order, and what is held, nothing right after a drain, is the round that is not
told of yet. So the digests count all deferred alerts but those that are held. -/
theorem serve_digests [ZoneDatabase] (c : StormConfig) (calls : List GateCall) :
    let result := serve c calls
    let rounds := result.2.rounds
    rounds.told.flatten ++ rounds.pending = result.2.deferred ∧
      List.Forall₂ Tells result.2.drains rounds.told ∧
      result.1.held.Holds rounds.pending ∧
      (result.2.drains.flatten.map Digest.alertCount).sum + result.1.held.count =
        result.2.deferred.length ∧
      ∀ g : Gates, g.drain.1.held.isEmpty = true := by
  intro result rounds
  have told : Told result.2 result.1 := told_serve c calls
  have cover : rounds.told.flatten ++ rounds.pending = result.2.deferred := result.2.rounds_cover
  refine ⟨cover, told.drains, told.held, ?_, fun g => rfl⟩
  rw [sum_alertCount told.drains, told.held.count, ← cover, List.length_append]

end Gates

end AlertAdmission
