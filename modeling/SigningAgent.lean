import SigningAgent.Lib.System
import SigningAgent.Lib.DupTree
import SigningAgent.Lib.Base64
import SigningAgent.Crypto.MerkleCommitment
import SigningAgent.Crypto.MerkleBuilder
import SigningAgent.Crypto.MerkleLeaves
import SigningAgent.Crypto.MerklePosition
import SigningAgent.Crypto.BlsV2
import SigningAgent.Crypto.HashString
import SigningAgent.Action.AtMostOnce
import SigningAgent.Action.Truthful
import SigningAgent.Action.Signer
import SigningAgent.Action.Posts
import SigningAgent.Action.OwnLock
import SigningAgent.Action.Keyspace
import SigningAgent.Action.ActionURL
import SigningAgent.AutoApprover.HandleMessage
import SigningAgent.AutoApprover.Timing
import SigningAgent.AutoApprover.Termination
import SigningAgent.Auth.RefreshLoop
import SigningAgent.Auth.Freshness
import SigningAgent.Service.Registering
import SigningAgent.Store.LostUpdate
import SigningAgent.Store.SaveLoad
import SigningAgent.Store.FileStore
import SigningAgent.Store.Backends
import SigningAgent.Message.Interchangeable
import SigningAgent.Message.Expiry
import SigningAgent.Hub.FeedSafety
import SigningAgent.Hub.LateJoiners
import SigningAgent.Action.Settling
import SigningAgent.Hub.Settling
import SigningAgent.Hub.Stop
import SigningAgent.Hub.Connect
import SigningAgent.Hub.Status
import SigningAgent.Feed.ClientLoops
import SigningAgent.Feed.Settling
import SigningAgent.Service.Replay
import SigningAgent.Service.ClientFeeds
import SigningAgent.Service.AutoApproval
import SigningAgent.Action.Lease
import SigningAgent.Action.Spacing
import SigningAgent.Service.Restart
import SigningAgent.Service.Signatures
import SigningAgent.Rest.Response
import SigningAgent.Rest.Actions
import SigningAgent.Rest.Registration
