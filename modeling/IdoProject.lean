import IdoProject.Chat.Ending
import IdoProject.Chat.Mixing
import IdoProject.Chat.ChatList
import IdoProject.Chat.FreshChat
import IdoProject.Chat.Attribution
import IdoProject.Chat.PlainCalls
import IdoProject.Chat.Budget
import IdoProject.Chat.Spoken
import IdoProject.Chat.Frozen
import IdoProject.Chat.Forging
import IdoProject.Chat.Notebook
import IdoProject.Chat.Exchanges
import IdoProject.Table.Rows
import IdoProject.Accounts.Activities
import IdoProject.Accounts.Isolation
import IdoProject.Accounts.Renaming
import IdoProject.Accounts.Session
import IdoProject.Accounts.RoundTrip
import IdoProject.Accounts.Passwords
import IdoProject.Download.PartialFiles
import IdoProject.Download.Registry
import IdoProject.Download.Outcomes
import IdoProject.Download.WakeLocks
import IdoProject.Download.Traces
import IdoProject.Download.Progress
import IdoProject.Download.Intact
import IdoProject.Store.Interrupted
import IdoProject.Store.Deleting
import IdoProject.Store.Reloading
import IdoProject.Store.Serving
import IdoProject.Storage.FileSystem
import IdoProject.Accounts.Directories
import IdoProject.Llama.StrayBytes
import IdoProject.Llama.Unloading
import IdoProject.Llama.Batch
import IdoProject.Llama.Bench
import IdoProject.Llama.Decoding
import IdoProject.Llama.Sessions
import IdoProject.Engine.Failures
import IdoProject.Engine.Instance
import IdoProject.Engine.ContextSize
import IdoProject.Engine.Switching
import IdoProject.Settings.CurrentModel
import IdoProject.Settings.Generating
import IdoProject.Settings.Rows
import IdoProject.Prefs.Serving
import IdoProject.Download.Rest
