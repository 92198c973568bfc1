import ShieldApi.Lib.Effect
import ShieldApi.Lib.Runs
import ShieldApi.Lib.Table
import ShieldApi.Lib.Edits
import ShieldApi.Lib.Inserts
import ShieldApi.Lib.ReadThrough
import ShieldApi.Lib.Separators
import ShieldApi.Lib.Fields
import ShieldApi.Lib.Forest
import ShieldApi.Lib.Base64
import ShieldApi.Lib.Entries
import ShieldApi.Lib.Calendar
import ShieldApi.Lib.Glob
import ShieldApi.Lib.JsonRecord
import ShieldApi.Lib.Grouping
import ShieldApi.Lib.Process
import ShieldApi.Lib.Joins
import ShieldApi.Lib.Renumber
import ShieldApi.Lib.Selection
import ShieldApi.Schema
import ShieldApi.Auth.Scope
import ShieldApi.Auth.AccessGrants
import ShieldApi.Auth.Cls
import ShieldApi.Prisma.Rls
import ShieldApi.Clients.AccessRows
import ShieldApi.Clients.Invitations
import ShieldApi.Clients.CreationChecks
import ShieldApi.Clients.PendingInvitations
import ShieldApi.Clients.InvitationGroups
import ShieldApi.Clients.InvitationStatuses
import ShieldApi.Clients.Members
import ShieldApi.Clients.Users
import ShieldApi.Auth.KeycloakAccessSync
import ShieldApi.Clients.PrimaryAccess
import ShieldApi.Admin.Roles
import ShieldApi.Clients.Escalation
import ShieldApi.Clients.Renewal
import ShieldApi.Auth.GrantResolution
import ShieldApi.Auth.Activation
import ShieldApi.Auth.GrantReads
import ShieldApi.Auth.GrantSources
import ShieldApi.Clients.DemoClients
import ShieldApi.Clients.ClientAccess
import ShieldApi.Auth.AuthService
import ShieldApi.Auth.GrantKeys
import ShieldApi.Auth.Guards
import ShieldApi.Prisma.Bypass
import ShieldApi.Assets.Schema
import ShieldApi.Assets.InspectionToken
import ShieldApi.Auth.SigningKeys
import ShieldApi.Auth.SiteVisibility
import ShieldApi.Auth.CustomTokens
import ShieldApi.Auth.TokenPurpose
import ShieldApi.Assets.Tags
import ShieldApi.Assets.TagTenant
import ShieldApi.Assets.Inspections
import ShieldApi.Assets.InspectionBinding
import ShieldApi.Assets.InspectionRoutes
import ShieldApi.Assets.RouteOrder
import ShieldApi.Assets.RouteCompletions
import ShieldApi.Assets.InspectionSessions
import ShieldApi.Assets.SessionStatuses
import ShieldApi.Assets.SessionExpiry
import ShieldApi.Assets.InspectionAlerts
import ShieldApi.Assets.TokenGate
import ShieldApi.Assets.FailedRegistration
import ShieldApi.Clients.AccessWrites
import ShieldApi.Clients.RowCreation
import ShieldApi.Clients.TenantRows
import ShieldApi.Clients.AccessCommits
import ShieldApi.Clients.PrimaryPlace
import ShieldApi.Auth.GrantCache
import ShieldApi.Cache.MemoryCache
import ShieldApi.Cache.SingleFlight
import ShieldApi.Cache.Invalidation
import ShieldApi.Clients.SiteCaches
import ShieldApi.Clients.Sites
import ShieldApi.Assets.TagAccess
import ShieldApi.Assets.SignedArtifacts
import ShieldApi.Assets.TokenRoundTrip
import ShieldApi.Events.Channels
import ShieldApi.Events.Tenancy
import ShieldApi.Events.Commits
import ShieldApi.Redis.PatternListeners
import ShieldApi.Assets.Metadata
import ShieldApi.Assets.Configuration
import ShieldApi.Assets.MetadataFrames
import ShieldApi.Products.QuestionSelection
import ShieldApi.Products.MetadataPairs
import ShieldApi.Stats.ComplianceHistory
import ShieldApi.Stats.ComplianceNotions
import ShieldApi.Legacy.Idempotence
import ShieldApi.Legacy.Conflation
import ShieldApi.Legacy.Prompts
import ShieldApi.Auth.MemberVisibility
import ShieldApi.Lib.JsPrimitive
import ShieldApi.Assets.ValidatorErrors
import ShieldApi.Assets.AlertRules
import ShieldApi.Assets.AlertClauses
import ShieldApi.Assets.AlertRuleTrees
import ShieldApi.Assets.AlertTriggers
import ShieldApi.Admin.RoleSafety
import ShieldApi.Clients.DemoIsomorphism
import ShieldApi.Clients.DemoCopies
import ShieldApi.Assets.ValidationWrites
import ShieldApi.Assets.Doubles
import ShieldApi.Assets.BulkSerials
import ShieldApi.Auth.KeycloakGroups
import ShieldApi.Settings.SettingsBlocks
import ShieldApi.Products.ConditionMigration
import ShieldApi.Assets.SetupConsumables
import ShieldApi.Lib.Dates
import ShieldApi.Lib.FirstMatch
import ShieldApi.Notifications.InspectionReminders
import ShieldApi.Lib.RowSecurity
import ShieldApi.Prisma.Policies
import ShieldApi.Prisma.TenantIsolation
import ShieldApi.Prisma.Records
import ShieldApi.Assets.ProductRequests
import ShieldApi.Clients.Passwords
import ShieldApi.Prisma.Paging
import ShieldApi.Prisma.Strangers
import ShieldApi.Notifications.ReminderEmails
import ShieldApi.Clients.AccessSyncRuns
