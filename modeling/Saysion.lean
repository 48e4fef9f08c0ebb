import Saysion.Machine
import Saysion.Completion
import Saysion.Seniority
import Saysion.Records
import Saysion.Registry
import Saysion.Exclusive
import Saysion.OrderedSet
import Saysion.Glob
import Saysion.Base64
import Saysion.Text
import Saysion.Postcard
import Saysion.SessionData
import Saysion.Session
import Saysion.Lifecycle
import Saysion.RelativeExpiry
import Saysion.ServerCookies
import Saysion.Process
import Saysion.Authority
import Saysion.ProcessSteps
import Saysion.Moves
import Saysion.Coordination
import Saysion.SessionSave
import Saysion.WriteAuthority
import Saysion.GuardedSaves
import Saysion.ChangeTracking
import Saysion.RejectedWrites
import Saysion.Dispatching
import Saysion.Releasing
import Saysion.Descent
import Saysion.Retention
import Saysion.Isolation
import Saysion.Newcomers
import Saysion.Accounts
import Saysion.Markers
import Saysion.Sharing
import Saysion.LoadedSessions
import Saysion.MemoryState
import Saysion.MemoryIndex
import Saysion.MemoryStore
import Saysion.MemoryCases
import Saysion.MemoryCalls
import Saysion.MemoryInvariant
import Saysion.MemoryLineage
import Saysion.MemoryRecords
import Saysion.MemoryRevocation
import Saysion.MemoryAtomicity
import Saysion.MemoryCleanup
import Saysion.MemoryAccounts
import Saysion.MemoryRefinement
import Saysion.MemoryCompletion
import Saysion.BackendExpiry
import Saysion.RemoteStores
import Saysion.Remote
import Saysion.RemoteCases
import Saysion.RemoteInvariant
import Saysion.RemoteSteps
import Saysion.RemoteEffects
import Saysion.RemoteLineage
import Saysion.RemoteDeletion
import Saysion.RemoteCompletion
import Saysion.RemoteRecords
import Saysion.RemoteAccounts
import Saysion.RedisClear
import Saysion.IndexTarget
import Saysion.ConditionalWrites
import Saysion.LoneCalls
import Saysion.LoneMemoryCalls
import Saysion.StoreContracts
import Saysion.CookieWire
import Saysion.CookieStores
