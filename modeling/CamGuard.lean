import CamGuard.Lib.Dict
import CamGuard.Lib.Serial
import CamGuard.Lib.Json
import CamGuard.Lib.Clocked
import CamGuard.Media.TcpFramingFacts
import CamGuard.Media.V1Facts
import CamGuard.Media.CreditFacts
import CamGuard.Crypto.Gute
import CamGuard.Account.BudgetFacts
import CamGuard.Account.Sequences
import CamGuard.Account.PtzProtocol
import CamGuard.Account.PtzScheduler
import CamGuard.Account.PtzSchedulerFacts
import CamGuard.Account.ModelProtocol
import CamGuard.Account.SirenPulse
import CamGuard.Account.SirenPulseFacts
import CamGuard.Account.SirenPump
import CamGuard.Account.SirenPumpFacts
import CamGuard.Account.BrokerAccount
import CamGuard.Account.Dispatcher
import CamGuard.Account.MailboxFacts
import CamGuard.Account.DispatcherFacts
import CamGuard.Account.BudgetCapacity
import CamGuard.Account.ReadsFacts
import CamGuard.Account.Actuators
import CamGuard.Account.ActuatorsFacts
import CamGuard.Account.BrokerAccountFacts
import CamGuard.Account.DispatcherCapacity
import CamGuard.Account.PtzInbox
import CamGuard.Account.PtzInboxFacts
import CamGuard.Account.ControlWrite
import CamGuard.Account.ControlWriteFacts
import CamGuard.Account.MediaRoute
import CamGuard.Account.MediaRouteFacts
import CamGuard.Account.MediaLease
import CamGuard.Account.MediaLeaseFacts
import CamGuard.Crypto.Rc5Facts
import CamGuard.Lib.Blocks
import CamGuard.Crypto.GuteFacts
import CamGuard.Account.Fragments
import CamGuard.Account.FragmentsFacts
import CamGuard.Account.BrokerMaintenance
import CamGuard.Account.BrokerMaintenanceFacts
import CamGuard.Media.TcpRelay
import CamGuard.Media.TcpRelayFacts
import CamGuard.Media.AvReceive
import CamGuard.Media.AvReceiveFacts
import CamGuard.Delivery.FragmentedMp4
import CamGuard.Delivery.FragmentedMp4Facts
import CamGuard.Delivery.Mp4Fanout
import CamGuard.Delivery.Mp4FanoutFacts
import CamGuard.Delivery.Hevc
import CamGuard.Delivery.VideoDelivery
import CamGuard.Delivery.VideoDeliveryFacts
import CamGuard.Source.SourcePolicy
import CamGuard.Recording.Recorder
import CamGuard.Recording.RecorderFacts
import CamGuard.Source.SourcePolicyFacts
import CamGuard.Recording.Storage
import CamGuard.Recording.StorageFacts
import CamGuard.Source.SourceRegistry
import CamGuard.Source.SourceRegistryFacts
import CamGuard.Delivery.AvTransport
import CamGuard.Lib.MpegTs
import CamGuard.Delivery.AvTransportFacts
import CamGuard.Source.OwnedRetirement
import CamGuard.Recording.IngressFacts
import CamGuard.Source.ViewerGateFacts
import CamGuard.Source.OwnedRetirementFacts
import CamGuard.Source.PreparedNative
import CamGuard.Source.PreparedNativeFacts
import CamGuard.Source.PreparedNativeRuns
import CamGuard.Media.AvControlSend
import CamGuard.Media.AvHandshake
import CamGuard.Media.AvControlSendFacts
import CamGuard.Media.AvHandshakeFacts
import CamGuard.Db.Registry
import CamGuard.Db.RegistryFacts
import CamGuard.Media.KcpHeadFacts
import CamGuard.Account.AccountReports
import CamGuard.Db.SnapshotStore
import CamGuard.Db.SnapshotStoreFacts
import CamGuard.Codec.QuickLz
import CamGuard.Codec.QuickLzFacts
import CamGuard.Account.AlarmVoice
import CamGuard.Account.WhiteLight
import CamGuard.Account.ModelWrites
import CamGuard.Account.Exchange
import CamGuard.Account.ExchangeFacts
import CamGuard.Account.Lifecycle
import CamGuard.Account.LifecycleFacts
import CamGuard.Ptz.RouteCache
import CamGuard.Ptz.RouteCacheFacts
import CamGuard.Ptz.RouteCacheRuns
import CamGuard.Recording.BackoffFacts
import CamGuard.Recording.RecorderThread
import CamGuard.Recording.RecorderThreadFacts
import CamGuard.Recording.Retention
import CamGuard.Media.StreamProtocol
import CamGuard.Talk.AudioSender
import CamGuard.Talk.AudioSenderFacts
import CamGuard.Talk.IntercomSession
import CamGuard.Talk.IntercomFacts
import CamGuard.Lib.TokenBucket
import CamGuard.Media.RateBudget
import CamGuard.Account.TrafficRate
import CamGuard.Account.GuardSchedule
import CamGuard.Account.GuardScheduleFacts
import CamGuard.Ble.BleCodec
import CamGuard.Ble.BleCodecFacts
import CamGuard.Talk.RtspBackchannel
import CamGuard.Talk.RtspBackchannelFacts
import CamGuard.Db.StoredCamera
import CamGuard.Db.StoredCameraFacts
import CamGuard.Lib.VirtualTime
import CamGuard.LoginThrottle
import CamGuard.LoginThrottleFacts
import CamGuard.Media.OnboardPlayback
import CamGuard.Media.OnboardPlaybackFacts
import CamGuard.Media.RtcAssembly
import CamGuard.Media.RtcAssemblyFacts
import CamGuard.Account.FragmentHeaders
import CamGuard.Talk.PacedTalk
import CamGuard.Talk.PacedTalkFacts
