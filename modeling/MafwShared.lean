import MafwShared.Lib.CArray
import MafwShared.Lib.InversePair
import MafwShared.Lib.Runs
import MafwShared.Lib.Stdio
import MafwShared.Aplaylist
import MafwShared.Proofs.PlayOrder
import MafwShared.Proofs.PlaylistEdits
import MafwShared.Proofs.WellFormed
import MafwShared.Proofs.ShuffledPlay
import MafwShared.Proofs.Navigation
import MafwShared.Proofs.EditedOrder
import MafwShared.PlaylistFile
import MafwShared.Proofs.SaveLoad
import MafwShared.Proofs.RoundTrip
import MafwShared.Daemon
import MafwShared.Lib.Splice
import MafwShared.PlaylistWrapper
import MafwShared.Proofs.Replica
import MafwShared.PlaylistManagerWrapper
import MafwShared.Lib.Index
import MafwShared.Proofs.DaemonTurn
import MafwShared.Proofs.RegistryRuns
import MafwShared.Lib.Tally
import MafwShared.Proofs.Loadable
import MafwShared.Proofs.UseCounts
import MafwShared.LoadPlaylists
import MafwShared.Proofs.SaveHonesty
import MafwShared.Proofs.DirtyTracking
import MafwShared.Proofs.CrashRecovery
import MafwShared.Lib.Timeouts
import MafwShared.SettleTimers
import MafwShared.Proofs.SettleTimers
import MafwShared.RendererWrapper
import MafwShared.Proofs.BufferingThrottle
import MafwShared.Proofs.ReadBack
import MafwShared.FileFormat
import MafwShared.Proofs.LoadChecks
import MafwShared.Proofs.LoadSafety
import MafwShared.Proofs.Allocation
import MafwShared.Proofs.Startup
import MafwShared.PlaylistStore
import MafwShared.Proofs.DestroyedPlaylists
import MafwShared.Lib.News
import MafwShared.PlaylistManager
import MafwShared.Proofs.DaemonRestart
import MafwShared.Proofs.Agreement
import MafwShared.ProxySource
import MafwShared.Proofs.BrowseBatches
import MafwShared.Proofs.BrowseDelivery
import MafwShared.MafwDbus
import MafwShared.Proofs.DbusRoundTrip
import MafwShared.Proofs.DbusErrors
import MafwShared.SourceReplies
import MafwShared.Proofs.SourceReplies
import MafwShared.Lib.ListTable
import MafwShared.ExtensionWrapper
import MafwShared.Proofs.ActivationCounts
import MafwShared.Proofs.ExportHistory
import MafwShared.BrowseRequests
import MafwShared.Proofs.SessionIsolation
import MafwShared.Proofs.SessionTables
import MafwShared.Proofs.FailedCancel
import MafwShared.ImportRequests
import MafwShared.Proofs.ImportSessions
import MafwShared.Proofs.ImportNames
import MafwShared.Discovery
import MafwShared.Proofs.ProxyDiscovery
import MafwShared.Proofs.ServiceNames
import MafwShared.ProxyPlaylist
import MafwShared.Proofs.ClientNavigation
import MafwShared.Proofs.SamePlay
import MafwShared.Proofs.Duplicates
import MafwShared.ExtensionNames
import MafwShared.Proofs.NameAgreement
import MafwShared.Lib.PendingCalls
import MafwShared.RendererCalls
import MafwShared.Proofs.RendererCalls
import MafwShared.Lib.Succession
import MafwShared.Proofs.OnePlaylist
import MafwShared.Proofs.SharedPlayback
import MafwShared.Proofs.UnbiasedShuffle
import MafwShared.Lib.Objects
import MafwShared.ProxyEdits
import MafwShared.Proofs.SharedPlaylist
import MafwShared.Proofs.RequestsReturn
import MafwShared.Proofs.StorablePlaylists
import MafwShared.Proofs.KeptPlaylists
import MafwShared.ImportCalls
import MafwShared.Proofs.ImportCallbacks
import MafwShared.Lib.Broadcast
import MafwShared.ExtensionSignals
import MafwShared.Proofs.SignalRelay
import MafwShared.BrowseNetwork
import MafwShared.Proofs.NetworkMemory
import MafwShared.Proofs.BrowseNetwork
