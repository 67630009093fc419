import LigamentApps.CredentialProvider.FailOpen
import LigamentApps.LinkHostRecorder.DeliveryOrder
import LigamentApps.LinkHostRecorder.Lease
import LigamentApps.LinkHostRecorder.Restarts
import LigamentApps.LinkAgent.SessionChunks
import LigamentApps.LinkAgent.RDSClosing
import LigamentApps.LinkAgent.RecordingEpochs
import LigamentApps.LinkAgent.WorkerOwnership
import LigamentApps.LinkAgent.TerminalOutcomes
import LigamentApps.LinkAgent.VerifiedInstallers
import LigamentApps.LinkHost.OfferRewriting
import LigamentApps.LinkHost.ConsentFlow
import LigamentApps.LinkHost.ControlChannel
import LigamentApps.LinkWorkerDarwin.ControlLanguage
import LigamentApps.SupportService.RemoteSignals
import LigamentApps.SupportService.SessionIsolation
import LigamentApps.LinkWorkerDarwin.IPCProgress
import LigamentApps.LinkAgent.ScopeGrace
import LigamentApps.CallSession.FinishedCalls
import LigamentApps.AuthState.BrowserSsoChecks
import LigamentApps.AuthState.PromptIndependence
import LigamentApps.AuthState.DurableLogout
import LigamentApps.AuthState.SessionAnswers
import LigamentApps.ChatService.MessageHistory
import LigamentApps.ChatService.SocketLaws
import LigamentApps.ChatService.UnreadCounts
import LigamentApps.InputInjector.PressedKeys
import LigamentApps.CallSession.CallPair
import LigamentApps.RdpConnector.AttemptCleanup
import LigamentApps.RdpConnector.SupersededAttempts
import LigamentApps.SupportOperator.DownloadRoundTrip
import LigamentApps.SupportOperator.UploadRoundTrip
import LigamentApps.CredentialProvider.AnswerFields
import LigamentApps.CredentialProvider.RequestBodies
import LigamentApps.SupportOperator.OverlappingUploads
import LigamentApps.SupportOperator.RemoteKeyboard
import LigamentApps.SupportOperator.LinkSignals
import LigamentApps.SupportOperator.OfferNegotiation
import LigamentApps.SupportOperator.RecoveryWindow
import LigamentApps.SupportOperator.SignalingSocket
import LigamentApps.LinkAgent.QueueAccounting
import LigamentApps.LinkAgent.SpoolQuota
import LigamentApps.LinkHostRecorder.TypedText
import LigamentApps.LinkHostRecorder.Sealing
import LigamentApps.LinkHostRecorder.BatchLimits
import LigamentApps.LinkHostRecorder.HeadOfLine
import LigamentApps.LinkHostRecorder.SpoolBookkeeping
import LigamentApps.SupportService.ReceivedFiles
import LigamentApps.LinkAgent.UpdateRecovery
import LigamentApps.LinkAgent.SpoolPaths
import LigamentApps.LinkHost.SavedFiles
import LigamentApps.LinkHost.WorkerPhases
import LigamentApps.SupportService.ChatMessages
import LigamentApps.LinkHost.WorkerFraming
import LigamentApps.WebSocketService.Backoff
import LigamentApps.WebSocketService.BackoffReset
import LigamentApps.InputInjector.PointerMapping
import LigamentApps.InputInjector.NativeQueue
import LigamentApps.LinkHostRecorder.ImageHeader
