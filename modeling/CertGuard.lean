import CertGuard.Model.Channel
import CertGuard.Model.ChainJson
import CertGuard.Model.User
import CertGuard.Twofa.Totp
import CertGuard.Lib.Table
import CertGuard.Lib.TransitionRun
import CertGuard.Notify.Threshold
import CertGuard.Secret.Key
import CertGuard.Store.Schema
import CertGuard.Store.Certs
import CertGuard.Notify.Message
import CertGuard.Scheduler.NotifyPass
import CertGuard.Scheduler.Counters
import CertGuard.Scheduler.Runs
import CertGuard.Scheduler.Unchanged
import CertGuard.Scheduler.Delivery
import CertGuard.Scheduler.Independence
import CertGuard.Scheduler.Interleaving
import CertGuard.Scheduler.Replacement
import CertGuard.Scheduler.LostMark
import CertGuard.Scheduler.Rescan
import CertGuard.Scheduler.StaleCoverage
import CertGuard.Store.Secrets
import CertGuard.Store.Auth
import CertGuard.Store.Entries
import CertGuard.Server.Vault
import CertGuard.Server.Durability
import CertGuard.Server.ZeroKnowledge
import CertGuard.Server.Sessions
import CertGuard.Server.KeyringWrites
import CertGuard.Server.Leaving
import CertGuard.Server.Locking
import CertGuard.Server.Migration
import CertGuard.Server.SecondDoor
import CertGuard.Server.Login
import CertGuard.Server.Accounts
import CertGuard.Server.FirstRun
import CertGuard.Server.LastAdmin
import CertGuard.Server.Ceremonies
import CertGuard.Server.KeySignIn
import CertGuard.Server.SignCounts
import CertGuard.Server.PasswordReset
import CertGuard.Server.OneTimeCodes
import CertGuard.Server.TurningOff
import CertGuard.Scheduler.Transitions
import CertGuard.Lib.Programs
import CertGuard.Server.ActivityLog
import CertGuard.Server.DeletedEntries
import CertGuard.Server.EntryPrograms
import CertGuard.Server.OneRow
import CertGuard.Server.StaysDeleted
import CertGuard.Server.AccountRequests
import CertGuard.Server.AccountsApart
import CertGuard.Server.Belongings
import CertGuard.Server.Isolation
import CertGuard.Server.SameAnswers
import CertGuard.Lib.Ddl
import CertGuard.Lib.PushDown
import CertGuard.Lib.SlidingWindow
import CertGuard.Scheduler.Presented
import CertGuard.Scheduler.SameAgain
import CertGuard.Server.PublicStatus
import CertGuard.Server.RateLimiting
import CertGuard.Server.SecretKept
import CertGuard.Server.SingleLine
import CertGuard.Store.MigrationFiles
import CertGuard.Web.Arrangement
import CertGuard.Web.Flow
import CertGuard.Web.NeverOverlap
import CertGuard.Lib.Cidr
import CertGuard.Lib.ContentLines
import CertGuard.Lib.Csv
import CertGuard.Lib.Escape
import CertGuard.Lib.FirstLeast
import CertGuard.Lib.NetIP
import CertGuard.Lib.Stacking
import CertGuard.Lib.TimeLayout
import CertGuard.Lib.TimeOrder
import CertGuard.Notify.SafeDial
import CertGuard.Scheduler.Daily
import CertGuard.Server.Calendar
import CertGuard.Server.RegistryAnswers
import CertGuard.Server.StoredDates
import CertGuard.Web.AlertPreview
import CertGuard.Web.ChainRisk
import CertGuard.Web.Compaction
import CertGuard.Web.CsvExport
import CertGuard.Config.CheckInterval
import CertGuard.Lib.Batch
import CertGuard.Lib.Leftmost
import CertGuard.Lib.Utf8
import CertGuard.Scanner.DistinguishedName
import CertGuard.Selfsign.EnsureCert
import CertGuard.Server.Notes
import CertGuard.Server.Truncation
import CertGuard.Store.TwoStatements
import CertGuard.Web.IssuerNames
import CertGuard.Web.ReadAlike
import CertGuard.Lib.FanOut
import CertGuard.Coverage.Check
import CertGuard.Server.DomainCandidates
import CertGuard.Server.Service
import CertGuard.Server.Entrances
import CertGuard.Server.NoEscalation
import CertGuard.Server.Guesses
import CertGuard.Lib.Markup
import CertGuard.Lib.Months
import CertGuard.Lib.Group
import CertGuard.Web.Common
import CertGuard.Web.Cards
import CertGuard.Web.Days
import CertGuard.Web.Timeline
import CertGuard.Web.DashCalendar
import CertGuard.Lib.Secrecy
import CertGuard.Server.Holdings
import CertGuard.Server.PagesHide
import CertGuard.Server.Overheard
import CertGuard.Lib.Radix
import CertGuard.Lib.Percent
import CertGuard.Twofa.Secret
import CertGuard.Server.Authenticator
import CertGuard.Server.SecondFactor
import CertGuard.Server.Enrolment
