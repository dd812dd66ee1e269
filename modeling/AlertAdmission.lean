import AlertAdmission.ChannelQueues.Worker
import AlertAdmission.Main
import AlertAdmission.Proofs.Admission.Exact
import AlertAdmission.Proofs.QuietHours.Delivery
import AlertAdmission.Proofs.Storm.History
import AlertAdmission.Proofs.QuietHours.Announced
import AlertAdmission.Proofs.ChannelQueues.Ledger
import AlertAdmission.Proofs.ChannelQueues.Conservation
import AlertAdmission.Proofs.Admission.Digests
import AlertAdmission.Proofs.Throttle.Reports
import AlertAdmission.Proofs.Throttle.Recall
import AlertAdmission.Proofs.ChannelQueues.Expiry
import AlertAdmission.Proofs.QuietHours.Validation
import AlertAdmission.Proofs.Throttle.Drift
import AlertAdmission.Proofs.Throttle.Isolation
import AlertAdmission.Proofs.ChannelQueues.Pass
import AlertAdmission.Proofs.QuietHours.Ending
import AlertAdmission.Proofs.Simulation.Clock
import AlertAdmission.Proofs.Wire.Models
import AlertAdmission.Proofs.Throttle.Summary
import AlertAdmission.Proofs.Throttle.ClockPaths
import AlertAdmission.Proofs.Time.Difference
import AlertAdmission.Proofs.Storm.Retained
import AlertAdmission.Proofs.Storm.Status
import AlertAdmission.Proofs.Storm.Recovery
import AlertAdmission.Proofs.ChannelQueues.Refusal
import AlertAdmission.Proofs.ChannelQueues.Capacity
import AlertAdmission.Proofs.ChannelQueues.Flush
import AlertAdmission.Proofs.ChannelQueues.Ticks
import AlertAdmission.Proofs.Digest.Contents
import AlertAdmission.Proofs.QuietHours.LocalEnd
import AlertAdmission.Proofs.Mistyped
import AlertAdmission.Proofs.Time.TimeOfDay
import AlertAdmission.Proofs.Throttle.InFlight
import AlertAdmission.Proofs.Throttle.LooseLimit
import AlertAdmission.Proofs.Decimal.Words
import AlertAdmission.Proofs.Throttle.BoundedList
import AlertAdmission.Proofs.Throttle.IdleGroups
import AlertAdmission.Proofs.Throttle.DottedPaths
import AlertAdmission.Proofs.Checked
