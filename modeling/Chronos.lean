import Chronos.Agreement
import Chronos.Transitions
import Chronos.Window
import Chronos.SharedPool
import Chronos.Winner
import Chronos.StaleCancel
import Chronos.AtomicMove
import Chronos.Retry
import Chronos.Notice
import Chronos.Attribution
import Chronos.AdminSession
import Chronos.Delivery
import Chronos.Stranded
import Chronos.ReadCommitted.Vetting
import Chronos.SlotDays
import Chronos.SlotGaps
import Chronos.Materializer
import Chronos.ProviderSession
import Chronos.AppointmentReads
import Chronos.FireTimes
import Chronos.StatusMachine
import Chronos.Outlived
import Chronos.QueueSync
import Chronos.WallClock
import Chronos.AllOrNothing
import Chronos.ExactBooking
import Chronos.PoolClients
import Chronos.OnlyTheTime
import Chronos.KeyReplay
import Chronos.ContractsMove
import Chronos.ExpectedVersion
import Chronos.Punctual
import Chronos.DueClaims
import Chronos.ReminderEnds
import Chronos.Reconcile
import Chronos.ReminderMail
import Chronos.Notifications
import Chronos.MaterializeTwice
import Chronos.SlotFill
import Chronos.WindowChecks
import Chronos.Deduplication
import Chronos.EmailTemplates
import Chronos.UnsubscribeToken
import Chronos.ReminderFireTimes
import Chronos.ClientSession
import Chronos.IcsExport
import Chronos.MoneyScreens
import Chronos.DisplayedTimes
import Chronos.NoDeadlock
import Chronos.AppointmentBook
import Chronos.SlotTurnover
import Chronos.OptOut
import Chronos.DoubleBooking
import Chronos.Silence
import Chronos.ProviderLogin
import Chronos.Availability
import Chronos.RuleMigrations
import Chronos.AvatarUpload
import Chronos.LastingSlots
import Chronos.UnsubscribeLink
import Chronos.Addressees
