import Scbl.Lib.Bytes
import Scbl.Lib.Panic
import Scbl.Config
import Scbl.Lib.Run
import Scbl.Prudp.ClientInfo
import Scbl.Prudp.Fragments
import Scbl.Lib.Countdown
import Scbl.Prudp.Packet
import Scbl.Prudp.Responses
import Scbl.Lemmas.Fragments
import Scbl.Prudp.Message
import Scbl.Lemmas.Receive
import Scbl.Rmc.Packet
import Scbl.Theorems.RmcCodec
import Scbl.Theorems.Reassembly
import Scbl.Kerberos
import Scbl.Prudp.Server
import Scbl.Theorems.AtMostOnce
import Scbl.Theorems.RoundTrip
import Scbl.Theorems.StaleFragments
import Scbl.Lemmas.Executions
import Scbl.Lemmas.Sessions
import Scbl.Theorems.Host
import Scbl.Theorems.InviteIds
import Scbl.Theorems.Join
import Scbl.Auth.Ticket
import Scbl.Auth.TicketGranting
import Scbl.Theorems.Authentication
import Scbl.Lemmas.Codec
import Scbl.Lemmas.Isolation
import Scbl.Lemmas.Parties
import Scbl.Lib.Base64
import Scbl.Lib.Handler
import Scbl.Lib.Slots
import Scbl.Rmc.StationURL
import Scbl.Rmc.Stream
import Scbl.Services.Api
import Scbl.Services.GameSession
import Scbl.Theorems.Expiry
import Scbl.Theorems.Framing
import Scbl.Theorems.Isolation
import Scbl.Theorems.Lanes
import Scbl.Theorems.PacketCodec
import Scbl.Theorems.Parties
import Scbl.Theorems.Registry
import Scbl.Theorems.Retransmission
import Scbl.Theorems.Tokens
import Scbl.Services.Invitations
import Scbl.Theorems.Classes
import Scbl.Launcher.ComponentVersion
import Scbl.Manager.ComponentVersion
import Scbl.Theorems.Versions
import Scbl.Lib.Program
import Scbl.Lib.Disk
import Scbl.Launcher.TransactionalComponentInstaller
import Scbl.Theorems.Installation
import Scbl.Theorems.FullUpdate
import Scbl.Theorems.Publication
import Scbl.Theorems.Allocation
import Scbl.Theorems.StreamCodec
import Scbl.Updater.FullPackage
import Scbl.Theorems.NatRestore
import Scbl.Theorems.Preservation
import Scbl.Lemmas.Invitations
import Scbl.Storage.Targets
import Scbl.Theorems.Deletion
import Scbl.Theorems.Logout
import Scbl.Theorems.LobbyRestore
import Scbl.Theorems.FollowLeader
import Scbl.Theorems.Acceptance
import Scbl.Theorems.Abandoned
import Scbl.Lib.Best
import Scbl.ControlPlane.GameSessions
import Scbl.ControlPlane.Presence
import Scbl.Theorems.Roles
import Scbl.Lib.IpAddress
import Scbl.Lib.Quoting
import Scbl.Manager.Config
import Scbl.Manager.Templates
import Scbl.Manager.NetworkBootstrap
import Scbl.Manager.ClientPublish
import Scbl.Launcher.NetworkBootstrap
import Scbl.Theorems.Bootstrap
import Scbl.Lemmas.Header
import Scbl.Lemmas.StationUrl
import Scbl.Services.GameSessionEx
import Scbl.Services.NatTraversal
import Scbl.Theorems.Connect
import Scbl.Theorems.Decoding
import Scbl.Theorems.LoginEx
import Scbl.Theorems.Attributes
import Scbl.Theorems.Matchmaking
import Scbl.Theorems.StationUrls
import Scbl.Theorems.Probes
import Scbl.Theorems.UpdateManifest
import Scbl.Theorems.Rollback
import Scbl.Lib.Lists
import Scbl.Theorems.FragmentMemory
import Scbl.Theorems.TicketBuffer
import Scbl.Launcher.StagedComponentBootstrapService
import Scbl.Theorems.StagedReplacement
import Scbl.Lemmas.Publishing
import Scbl.Theorems.RejectedPublish
import Scbl.Theorems.ComparableVersions
import Scbl.Theorems.LaterFragments
import Scbl.Theorems.SessionOrder
import Scbl.RouteGuard.OwnerResolver
import Scbl.Theorems.SocketOwners
import Scbl.Launcher.ClientComponentUpdateService
import Scbl.Launcher.StagedComponents
import Scbl.Theorems.PackagedVersions
import Scbl.Hooks.InviteIdState
import Scbl.Theorems.LocalInviteIds
import Scbl.Hooks.Party
import Scbl.Theorems.PartyLeader
import Scbl.Launcher.PeerProbeService
import Scbl.Theorems.PeerList
import Scbl.Launcher.LauncherSettings
import Scbl.Theorems.SettingsFiles
import Scbl.Manager.ClientPublishSteps
import Scbl.Theorems.ServedArchive
import Scbl.Theorems.ChannelHooks
import Scbl.Theorems.InterruptedInstallation
import Scbl.Theorems.EndpointForms
import Scbl.Lib.Toml
import Scbl.Manager.ConfigFile
import Scbl.Theorems.ConfigRoundTrip
import Scbl.Theorems.Presence
import Scbl.Hooks.Patterns
import Scbl.Theorems.PatternSearch
import Scbl.Lib.Loop
import Scbl.Hooks.VersionResource
import Scbl.Theorems.VersionResource
import Scbl.Rmc.FromStream
import Scbl.Theorems.TypedDecoding
import Scbl.Launcher.HookConfigService
import Scbl.Hooks.HooksConfig
import Scbl.Theorems.AuthFile
import Scbl.Launcher.HookDllService
import Scbl.Theorems.OriginalDll
import Scbl.Lib.WindowsPath
import Scbl.Lib.Ranking
import Scbl.Launcher.ClientStorageMaintenanceService
import Scbl.Theorems.ComponentCache
import Scbl.Lib.FileTree
import Scbl.Manager.DeploymentPackage
import Scbl.Theorems.PackageExtraction
import Scbl.Lib.PyValue
import Scbl.Manager.Release
import Scbl.Theorems.RuntimePackages
import Scbl.Theorems.RequestAnswers
import Scbl.ControlPlane.Requests
import Scbl.Lemmas.Identity
import Scbl.Theorems.Handshake
import Scbl.Theorems.SecureUsers
import Scbl.Services.SecureConnection
import Scbl.Theorems.ConnectionIds
import Scbl.Theorems.RemoteCalls
import Scbl.Theorems.AuthenticPresence
import Scbl.Launcher.ControlPlaneService
import Scbl.Theorems.ClockRecovery
import Scbl.Services.Misc
import Scbl.Theorems.InvitationEvents
