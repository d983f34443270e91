import Anago.Outcome
import Anago.Utf8Text
import Anago.DecimalText
import Anago.StdText
import Anago.FirstMatch
import Anago.Runs
import Anago.SingleUse
import Anago.Credentials
import Anago.Json
import Anago.JsonParser
import Anago.JsonSafety
import Anago.JsonGrammar
import Anago.JsonCursor
import Anago.JsonTokens
import Anago.JsonReads
import Anago.JsonSound
import Anago.JsonRoundTrip
import Anago.Ipv4Addr
import Anago.Subnet
import Anago.JoinCode
import Anago.DeviceToken
import Anago.DeviceName
import Anago.Proto
import Anago.State
import Anago.Init
import Anago.StateCodec
import Anago.StateRoundTrip
import Anago.Api
import Anago.Registry
import Anago.RegistryInvariant
import Anago.CodeHistory
import Anago.Refusals
import Anago.TokenHistory
import Anago.SectionText
import Anago.WgConf
import Anago.WgConfRead
import Anago.Tunnels
import Anago.WgApply
import Anago.Interleaving
import Anago.Handlers
import Anago.HandlerRuns
import Anago.Saturating
import Anago.TlsSchedule
import Anago.AcmeAccount
import Anago.RenewalLoop
import Anago.Renew
import Anago.AccountStep
import Anago.RenewRuns
import Anago.AccountOnDisk
import Anago.InitRun
import Anago.Contacts
import Anago.RenewProcesses
import Anago.RenewCommits
import Anago.RenewOrders
import Anago.ClientConf
import Anago.Device
import Anago.DeviceRoundTrip
import Anago.Sync
import Anago.HubAnswers
import Anago.Programs
import Anago.CriticalSections
import Anago.WireRoundTrip
import Anago.SyncRun
import Anago.SyncHistory
import Anago.SyncProcesses
import Anago.SyncDecision
import Anago.KeyKept
import Anago.Cli
import Anago.FirstSync
import Anago.RenewSettings
import Anago.ChallengeToken
import Anago.RenewalWaits
import Anago.RenewFiles
import Anago.Registration
import Anago.ScheduleOrder
import Anago.DnsUpsert
import Anago.Utf8Lossy
import Anago.DnsWire
import Anago.DnsNames
import Anago.DnsLabels
import Anago.ChallengeComment
import Anago.ChallengeRecords
import Anago.JsonSchema
import Anago.WireMessages
import Anago.DnsAnswers
import Anago.DnsTruncation
import Anago.DnsProbe
import Anago.Qr
import Anago.Gregorian
import Anago.Proleptic
import Anago.X509
import Anago.Base64
import Anago.KeyText
import Anago.FileResidue
import Anago.HttpReader
import Anago.Client
import Anago.CivilDays
import Anago.CodeReading
import Anago.UnitReads
import Anago.Crontab
import Anago.CommandLine
import Anago.DnsCursor
import Anago.ZoneLookup
import Anago.RequestReads
import Anago.InitFiles
import Anago.JoinProcesses
import Anago.ClockTimes
import Anago.PlistText
import Anago.Launchd
import Anago.Timer
import Anago.Periods
import Anago.TimerInstall
import Anago.TimerHistory
import Anago.ClientResponse
import Anago.FrontDoor
import Anago.Exchange
import Anago.Commands
import Anago.JoinUndo
import Anago.Listening
import Anago.CodeDraws
import Anago.Export
import Anago.PeerTable
