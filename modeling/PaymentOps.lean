import PaymentOps.Matching.Counters
import PaymentOps.Matching.OneToOne
import PaymentOps.Repair.ModelRepair
import PaymentOps.Repair.Simulation
import PaymentOps.Repair.Validation
import PaymentOps.Service.ConfirmationChain
import PaymentOps.Service.Conflicts
import PaymentOps.Service.Retry
import PaymentOps.Service.StatusReports
import PaymentOps.Matching.Requests
import PaymentOps.Matching.Deliveries
import PaymentOps.Matching.PolicyVersions
import PaymentOps.Matching.History
import PaymentOps.Matching.Narrowing
import PaymentOps.Matching.Search
import PaymentOps.Account.Classification
import PaymentOps.Service.EntryOutcome
import PaymentOps.Service.LifecycleChoice
import PaymentOps.Service.AccountContext
import PaymentOps.Service.LiveEntries
import PaymentOps.Service.AccountCases
import PaymentOps.Service.Tenants
import PaymentOps.Matching.Publications
import PaymentOps.Mapping.Validator
import PaymentOps.Rules.Declarative
import PaymentOps.Profiles.Integration
import PaymentOps.Profiles.Snapshots
import PaymentOps.Service.PaymentLifecycles
import PaymentOps.Service.ArrivalOrder
import PaymentOps.Service.OriginalMessage
import PaymentOps.Iso.CamtSchema
import PaymentOps.Iso.Entries
import PaymentOps.Lib.DecimalText
import PaymentOps.Lib.Rounding
import PaymentOps.Service.StoredAmounts
import PaymentOps.Batch.Restart
import PaymentOps.Batch.Engine
import PaymentOps.Batch.Versions
import PaymentOps.Cases.Store
import PaymentOps.Cases.Workflow
import PaymentOps.Auth.Passwords
import PaymentOps.Auth.Lockout
import PaymentOps.Auth.Sessions
import PaymentOps.Auth.Login
import PaymentOps.Cases.ProfileAnalysis
import PaymentOps.Cases.Audit
import PaymentOps.Iso.XmlSecurity
import PaymentOps.Mapping.Selectors
import PaymentOps.Batch.Records
import PaymentOps.Web.Proxy
import PaymentOps.Account.Score
import PaymentOps.Lib.WeightedMean
import PaymentOps.Matching.Score
import PaymentOps.Matching.Symmetry
import PaymentOps.Lib.CalendarText
import PaymentOps.Matching.SelfMatch
import PaymentOps.Lib.JsonDumps
import PaymentOps.Matching.Evidence
import PaymentOps.Matching.Presence
import PaymentOps.Lib.Words
import PaymentOps.Matching.Names
import PaymentOps.Matching.NamePresence
import PaymentOps.Account.EntryIdentity
import PaymentOps.Address.CloudNova
import PaymentOps.Address.Fallback
import PaymentOps.Lib.Nested
import PaymentOps.Lib.RoundingLimits
import PaymentOps.Mapping.Conversion
import PaymentOps.Mapping.Required
import PaymentOps.Service.CorrelationStatus
import PaymentOps.Web.Logging
import PaymentOps.Repair.AddressRepair
import PaymentOps.Service.AmountAgreement
import PaymentOps.Matching.RecordRows
import PaymentOps.Service.MissingEvents
import PaymentOps.Analysis.Messages
import PaymentOps.Repair.Validated
import PaymentOps.Service.Decisions
import PaymentOps.Cases.Details
import PaymentOps.Service.Integrity
import PaymentOps.Web.Exports
import PaymentOps.Web.Dashboard
import PaymentOps.Service.Provenance
import PaymentOps.Matching.RowCounts
import PaymentOps.Analysis.Accepted
import PaymentOps.Analysis.Layout
