import SiliconHook.Library.Text
import SiliconHook.Library.Encoding
import SiliconHook.Library.JsonText
import SiliconHook.Library.Table
import SiliconHook.Domain.Identity
import SiliconHook.Domain.Ast
import SiliconHook.Domain.Value
import SiliconHook.Domain.Eval
import SiliconHook.Domain.Signing
import SiliconHook.Domain.Verify
import SiliconHook.Infrastructure.Crypto
import SiliconHook.Infrastructure.Accounts
import SiliconHook.Domain.Hook
import SiliconHook.Delivery.Prepare
import SiliconHook.Store.Schema
import SiliconHook.Store.Hooks
import SiliconHook.Store.Lifecycle
import SiliconHook.Store.Maintenance
import SiliconHook.Store.Audit
import SiliconHook.Store.Ting
import SiliconHook.Delivery.Publisher
import SiliconHook.Delivery.Subscriptions
import SiliconHook.Store.Events
import SiliconHook.Store.Safety
import SiliconHook.Domain.Policy
import SiliconHook.Store.AccountsEvents
import SiliconHook.Application.Hooks
import SiliconHook.Application.Lifecycle
import SiliconHook.Application.Ingress
import SiliconHook.Application.Access
import SiliconHook.Library.Transition
import SiliconHook.Library.Program
import SiliconHook.Library.LastWriter
import SiliconHook.Properties.PolicyUpdates
import SiliconHook.Properties.Custodian
import SiliconHook.Properties.Convergence
import SiliconHook.Properties.AppRevoked
import SiliconHook.Properties.SignOut
import SiliconHook.Properties.Leases
import SiliconHook.Properties.Deletion
import SiliconHook.Properties.FanOut
import SiliconHook.Properties.ObserverAccess
import SiliconHook.Properties.EndpointKeys
import SiliconHook.Properties.Aggregate
import SiliconHook.Properties.ManagementKeys
import SiliconHook.Properties.SigningPolicies
import SiliconHook.Properties.AbuseControl
import SiliconHook.Properties.Admissions
import SiliconHook.Application.Sharing
import SiliconHook.Properties.AccessLevels
import SiliconHook.Properties.LateSignOuts
import SiliconHook.Properties.Candidates
import SiliconHook.Api.Extractors
import SiliconHook.Properties.ClientAddress
import SiliconHook.Store.Checks
import SiliconHook.Properties.StoredCaptures
import SiliconHook.Domain.Lexer
import SiliconHook.Domain.Parser
import SiliconHook.Properties.Grammar
import SiliconHook.Properties.Rendering
import SiliconHook.Properties.Evaluation
import SiliconHook.Properties.JsonOrder
import SiliconHook.Library.JsonGrammar
import SiliconHook.Properties.CanonicalQuery
import SiliconHook.Properties.RefreshTokens
import SiliconHook.Properties.Credentials
import SiliconHook.Properties.HeaderFields
import SiliconHook.Domain.ConfigColumn
import SiliconHook.Properties.StoredConfigs
import SiliconHook.Library.Column
import SiliconHook.Store.MappingFile
import SiliconHook.Store.IdentityLinks
import SiliconHook.Properties.MappingReports
import SiliconHook.Properties.StoredIdentities
import SiliconHook.Properties.IdentityLinks
import SiliconHook.Properties.RetainedHooks
import SiliconHook.Properties.DeliveryStreams
import SiliconHook.Library.Interleaving
import SiliconHook.Application.Concurrent
import SiliconHook.Properties.HookCalls
import SiliconHook.Store.History
import SiliconHook.Properties.RecoveryWindow
import SiliconHook.Infrastructure.CursorCodec
import SiliconHook.Infrastructure.Ting
import SiliconHook.Application.History
import SiliconHook.Properties.HistoryPages
import SiliconHook.Properties.Purges
import SiliconHook.Client.SignIn
import SiliconHook.Client.Delivery
import SiliconHook.Properties.Notifications
import SiliconHook.Api.Errors
import SiliconHook.Api.Events
import SiliconHook.Client.Hydration
import SiliconHook.Properties.Hydration
import SiliconHook.Properties.Sends
import SiliconHook.Cli.Store
import SiliconHook.Cli.Session
import SiliconHook.Properties.SpentTokens
import SiliconHook.Properties.LeavingObservers
import SiliconHook.Store.Contracts
import SiliconHook.Api.Contracts
import SiliconHook.Properties.ContractLifecycle
import SiliconHook.Client.Device
import SiliconHook.Properties.DeviceSignIn
import SiliconHook.Library.RoundRobin
import SiliconHook.Worker.Maintenance
import SiliconHook.Properties.MaintenanceCycle
