import CloudAlert.Program.Basic
import CloudAlert.Program.Contract
import CloudAlert.Program.Interleaving
import CloudAlert.Program.Linearization
import CloudAlert.Program.Budget
import CloudAlert.Program.Promise
import CloudAlert.Program.Machine
import CloudAlert.Program.Locks
import CloudAlert.Program.MessageLoop
import CloudAlert.Table.Basic
import CloudAlert.Text.Bytes
import CloudAlert.Text.Format
import CloudAlert.Text.Width
import CloudAlert.Text.Numerals
import CloudAlert.Text.Double
import CloudAlert.Server.AlertDB
import CloudAlert.Server.World
import CloudAlert.Server.Rows
import CloudAlert.Server.Accounts
import CloudAlert.Server.AlertEngine
import CloudAlert.Server.ClientSession
import CloudAlert.Server.Contracts
import CloudAlert.Server.History
import CloudAlert.Server.Failures
import CloudAlert.Server.Stored
import CloudAlert.Server.Config
import CloudAlert.Engine.Checks
import CloudAlert.Engine.Sentinel
import CloudAlert.Engine.Coherence
import CloudAlert.Engine.Sweep
import CloudAlert.Engine.Reference
import CloudAlert.Engine.Timer
import CloudAlert.Engine.Reload
import CloudAlert.Session.Login
import CloudAlert.Session.Online
import CloudAlert.Session.Live
import CloudAlert.Session.Commands
import CloudAlert.Session.Frame
import CloudAlert.Session.Secrecy
import CloudAlert.Session.Password
import CloudAlert.Session.Replies
import CloudAlert.Session.Buffers
import CloudAlert.Session.Plain
import CloudAlert.Session.Rejected
import CloudAlert.Session.Truthful
import CloudAlert.Session.Malformed
import CloudAlert.Session.Alive
import CloudAlert.Session.Modified
import CloudAlert.Client.Validate
import CloudAlert.Client.Wire
import CloudAlert.Client.AlertLine
import CloudAlert.Client.MainFrame
import CloudAlert.Client.Dialogs
import CloudAlert.Client.Exchange
import CloudAlert.Client.ExchangeRuns
import CloudAlert.Client.Timeouts
import CloudAlert.Client.Deadline
import CloudAlert.Client.Connection
import CloudAlert.Client.Views
import CloudAlert.Client.EditForm
import CloudAlert.Client.Prices
import CloudAlert.Client.Login
import CloudAlert.Client.LoginRuns
import CloudAlert.Client.Window
import CloudAlert.Client.WindowInvariant
import CloudAlert.Client.WindowRuns
import CloudAlert.Client.Refresh
import CloudAlert.Client.ConsoleRuns
import CloudAlert.Client.ConsoleLogin
import CloudAlert.Client.ConsoleAlerts
import CloudAlert.Concurrent.Threads
import CloudAlert.Concurrent.StaleCopy
import CloudAlert.Concurrent.AlertLife
import CloudAlert.Concurrent.Notices
import CloudAlert.Concurrent.Arming
import CloudAlert.Concurrent.CacheOrder
import CloudAlert.Concurrent.Serial
import CloudAlert.Concurrent.Locks
import CloudAlert.Concurrent.Sockets
import CloudAlert.Concurrent.Push
import CloudAlert.Concurrent.Subscriptions
import CloudAlert.Concurrent.NotifyQueue
import CloudAlert.Concurrent.Delivery
import CloudAlert.Concurrent.WorkerPool
import CloudAlert.Concurrent.Shutdown
