import SyncServer.Guild.Ledger
import SyncServer.Guild.Milestones
import SyncServer.Guild.Quota
import SyncServer.Auth.Rotation
import SyncServer.Auth.Suspension
import SyncServer.Accounts.Shadows
import SyncServer.Federation.Binding
import SyncServer.Federation.Redelivery
import SyncServer.Federation.Identity
import SyncServer.Calls.Peers
import SyncServer.Calls.Records
import SyncServer.Moderation.Blocks
import SyncServer.Moderation.Restrictions
import SyncServer.Moderation.Reviews
import SyncServer.Guild.Replay
import SyncServer.Guild.ActiveDays
import SyncServer.Guild.Derived
import SyncServer.Base.Keyset
import SyncServer.Accounts.Deletion
import SyncServer.Rooms.Service
import SyncServer.Rooms.Effects
import SyncServer.Rooms.Access
import SyncServer.Rooms.Owners
import SyncServer.Rooms.Orphans
import SyncServer.Messaging.Conversations
import SyncServer.Messaging.Pages
import SyncServer.Rooms.Unread
import SyncServer.Guild.Votes
import SyncServer.Guild.Upvotes
import SyncServer.Guild.Pruning
import SyncServer.Guild.PolicyStore
import SyncServer.Auth.AgentTokens
import SyncServer.Auth.Families
import SyncServer.Accounts.RegistrationLimit
import SyncServer.Auth.QrLogin
import SyncServer.Federation.Deliveries
import SyncServer.Federation.DeliveryStates
import SyncServer.Federation.SignedString
import SyncServer.Messaging.Contacts
import SyncServer.Federation.Actors
import SyncServer.Moderation.Filing
import SyncServer.Moderation.AutomaticReview
import SyncServer.Guild.Thresholds
import SyncServer.Guild.QuotaArithmetic
import SyncServer.DayCounts
import SyncServer.Federation.Renames
import SyncServer.Stickers.Store
import SyncServer.Calls.Disconnect
import SyncServer.Accounts.AdminSetup
import SyncServer.Notifications.Apns
import SyncServer.Notifications.Dispatch
import SyncServer.Notifications.Relay
import SyncServer.Notifications.Kinds
import SyncServer.Federation.DeliveryReport
import SyncServer.Federation.KeyIds
import SyncServer.Guild.Admission
import SyncServer.Guild.RetryAfter
import SyncServer.Messaging.ContactCost
import SyncServer.Federation.RemoteDelivery
import SyncServer.Messaging.FailedSends
import SyncServer.Admin.Config
import SyncServer.Admin.ConfigUpdate
import SyncServer.Accounts.Creation
import SyncServer.Accounts.UsernameRules
import SyncServer.Auth.PasswordReset
import SyncServer.Auth.Credentials
import SyncServer.Guild.Agreement
import SyncServer.Guild.Promotion
import SyncServer.Columns
import SyncServer.Messaging.Receipts
import SyncServer.Messaging.Fanout
import SyncServer.Rooms.Times
import SyncServer.Rooms.Fresh
import SyncServer.Rooms.Summaries
import SyncServer.Base.Grouping
import SyncServer.Stickers.Groups
import SyncServer.Base.Runs
import SyncServer.Moderation.Words
import SyncServer.Notifications.Once
import SyncServer.Moderation.Repeats
import SyncServer.Base.Regex
import SyncServer.Base.Markup
import SyncServer.Dashboard.Markdown
import SyncServer.Dashboard.Inert
import SyncServer.Dashboard.Links
import SyncServer.Accounts.ProfilePatch
import SyncServer.Guild.Overwrites
import SyncServer.Admin.ReviewMetrics
import SyncServer.Calls.Offers
import SyncServer.Auth.ResetTokens
import SyncServer.Moderation.DailyReview
import SyncServer.Admin.Standing
import SyncServer.Admin.PlanetImage
import SyncServer.Admin.BlockedActions
import SyncServer.Base.LastWord
import SyncServer.Notifications.Owners
import SyncServer.Federation.Peers
import SyncServer.Federation.Arrival
import SyncServer.Stickers.Routes
import SyncServer.Stickers.Shown
