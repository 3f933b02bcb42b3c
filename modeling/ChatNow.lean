import ChatNow.Common.ReliabilityState
import ChatNow.Common.IdGenerator
import ChatNow.Common.CircuitBreaker
import ChatNow.Common.WorkerId
import ChatNow.Common.LeaderElection
import ChatNow.Common.SeqGen
import ChatNow.Push.WireAgreement
import ChatNow.Lib.Pool
import ChatNow.Message.ConsumeContract
import ChatNow.Message.SyncMessages
import ChatNow.Pipeline.Agreement
import ChatNow.Pipeline.SyncOrder
import ChatNow.Pipeline.Storable
import ChatNow.Push.Connection
import ChatNow.Push.UnackedPush
import ChatNow.Members.Freshness
import ChatNow.Members.Fence
import ChatNow.UserInfo.Resolve
import ChatNow.UserInfo.Fence
import ChatNow.Lib.Exec
import ChatNow.Push.ClientFrames
import ChatNow.Push.FrameIdentity
import ChatNow.Media.Handlers
import ChatNow.Media.Cleanup
import ChatNow.Media.CompletionContract
import ChatNow.Media.Machine
import ChatNow.Media.ObjectsKept
import ChatNow.Media.RefCount
import ChatNow.Conversation.Tables
import ChatNow.Lib.Table
import ChatNow.Relationship.HandleFriendRequest
import ChatNow.Relationship.Handled
import ChatNow.Lib.Expiring
import ChatNow.Identity.Tokens
import ChatNow.Identity.TokenContract
import ChatNow.Identity.Machine
import ChatNow.Identity.Sessions
import ChatNow.Identity.SingleUse
import ChatNow.Identity.SessionEnd
import ChatNow.Identity.Replay
import ChatNow.Identity.Revocation
import ChatNow.Gateway.GatewayAuth
import ChatNow.Gateway.Entrances
import ChatNow.Common.HandleRpc
import ChatNow.Gateway.Forwarding
import ChatNow.Conversation.Handlers
import ChatNow.Conversation.Machine
import ChatNow.Conversation.Contract
import ChatNow.Conversation.Rows
import ChatNow.Conversation.Owner
import ChatNow.Conversation.Count
import ChatNow.Conversation.Cursors
import ChatNow.Common.OnlineRoute
import ChatNow.Common.DirectAddressing
import ChatNow.Message.ReadBack
import ChatNow.Lib.Recorded
import ChatNow.Pipeline.KeyRelease
import ChatNow.Pipeline.KeyOwner
import ChatNow.Relationship.Friendship
import ChatNow.Push.LocalRoute
import ChatNow.Push.OutboxReaper
import ChatNow.Push.Routable
import ChatNow.Common.Discovery
import ChatNow.Common.RateLimiter
import ChatNow.Presence.Keys
import ChatNow.Presence.Subscriptions
import ChatNow.Presence.Aggregator
import ChatNow.Common.EsIndex
import ChatNow.Conversation.EsReplay
import ChatNow.Common.EsConvergence
import ChatNow.Message.Handlers
import ChatNow.Relationship.Pending
import ChatNow.Message.Contract
import ChatNow.Message.Recall
import ChatNow.Message.Pins
import ChatNow.Message.Reads
import ChatNow.Message.Deletion
import ChatNow.Message.RecallHides
import ChatNow.Members.Absence
import ChatNow.Common.Inflight
import ChatNow.Common.LocalCache
import ChatNow.Common.LocalCacheHistory
import ChatNow.Common.RedisMutex
import ChatNow.Common.RefillRate
import ChatNow.Common.TokenBucket
import ChatNow.Common.LocalRateLimiter
import ChatNow.Common.LocalQuota
import ChatNow.Common.IdleBuckets
import ChatNow.Common.RedisPipeline
import ChatNow.Media.Sniffing
import ChatNow.Conversation.Grants
import ChatNow.Lib.Tracked
import ChatNow.Conversation.Limit
import ChatNow.Conversation.Transfer
import ChatNow.Lib.Paging
import ChatNow.Presence.Invisible
import ChatNow.Message.Paging
import ChatNow.Conversation.Creation
import ChatNow.Common.BucketCount
import ChatNow.Relationship.CoolDown
import ChatNow.Lib.Turns
import ChatNow.Media.Abort
import ChatNow.Media.Placement
import ChatNow.Conversation.Views
import ChatNow.Conversation.Unread
import ChatNow.Conversation.LastMessage
import ChatNow.Conversation.Dismissal
import ChatNow.Transmite.Publishing
import ChatNow.Lib.Delimited
import ChatNow.Common.Uuid
import ChatNow.Presence.Typing
import ChatNow.Lib.Base64
import ChatNow.Lib.MachineInt
import ChatNow.Push.OutboxPayload
import ChatNow.Lib.Blocks
import ChatNow.UserInfo.Keys
import ChatNow.Identity.TokenVerification
import ChatNow.UserInfo.BatchFill
import ChatNow.Members.Incremental
import ChatNow.Common.ScriptKeys
import ChatNow.Conversation.OffsetPaging
import ChatNow.Push.OutboxCodec
import ChatNow.Conversation.MemberSql
import ChatNow.Common.LogJson
import ChatNow.Lib.Linear
import ChatNow.Message.Reactions
import ChatNow.Lib.Implement
import ChatNow.Identity.Accounts
import ChatNow.Lib.Backlog
import ChatNow.Lib.SortedSet
import ChatNow.Message.Outboxes
import ChatNow.Push.Delivery
import ChatNow.Lib.Rotation
import ChatNow.Push.Resend
