import Breeze.Contracts.BillingProgress
import Breeze.Contracts.RenewalExpiry
import Breeze.Contracts.QuoteTerm
import Breeze.Ipc.MacBinding
import Breeze.Ipc.StreamIntegrity
import Breeze.Pam.Admission
import Breeze.Pam.CleanupEvidence
import Breeze.Pam.Recovery
import Breeze.Pam.Isolation
import Breeze.Topology.Withdrawal
import Breeze.Contracts.DuePeriod
import Breeze.Contracts.TermExtension
import Breeze.Contracts.EvidenceReconciliation
import Breeze.Deliverables.PlanOccurrences
import Breeze.Cron.NextOccurrence
import Breeze.Cron.Agreement
import Breeze.Topology.RollupSilence
import Breeze.Peripheral.LastKnownGood
import Breeze.Maintenance.Inversion
import Breeze.Maintenance.WindowEnd
import Breeze.Rollback.Finality
import Breeze.AiBudget.Charges
import Breeze.NetworkDiagnostic.Reopening
import Breeze.NetworkDiagnostic.ReplayProtection
import Breeze.Monitors.Escalation
import Breeze.Currency.Labour
import Breeze.Exclusion.Acceptance
import Breeze.Rebuild.PlanLayout
import Breeze.WinGpt.RoundTrip
import Breeze.Filters.InstalledSoftware
import Breeze.Rollback.Binding
import Breeze.Reports.Occurrences
import Breeze.Backup.OldestFirst
