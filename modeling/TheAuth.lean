import TheAuth.Audit.Consistency
import TheAuth.Http.PendingSession
import TheAuth.Policy.ShrinkMeaning
import TheAuth.Audit.ChainVerify
import TheAuth.Audit.ReceiptSound
import TheAuth.Policy.Boundary
import TheAuth.Policy.ToolApprovals
import TheAuth.Server.IntrospectRuns
import TheAuth.Server.ScopeCatalog
import TheAuth.Agents.Engine
import TheAuth.Server.Rotation
import TheAuth.Mcp.Principal
import TheAuth.Server.AssertionReplay
import TheAuth.Mcp.DpopProofs
import TheAuth.Password.Changes
import TheAuth.Rbac.Lockout
import TheAuth.Rbac.SuperAdmin
import TheAuth.Vault.Scopes
import TheAuth.Vault.Rewrap
import TheAuth.Http.SessionRotation
import TheAuth.Organizations.Owners
import TheAuth.Account.TrustedDevices
import TheAuth.Scim.Groups
import TheAuth.Totp.Enrollment
import TheAuth.Otp.Service
import TheAuth.Server.ClientAuth
import TheAuth.Server.ChainCache
import TheAuth.Server.RegistrationTokens
import TheAuth.Scim.Requests
import TheAuth.ApiTokens.DeviceRuns
import TheAuth.Signals.Receiver
import TheAuth.Http.ClientIp
import TheAuth.OAuth.Registry
import TheAuth.Throttle.Limiter
import TheAuth.Mcp.JwksCache
import TheAuth.Policy.Explain
import TheAuth.Audit.Redact
import TheAuth.Server.Compat
import TheAuth.Policy.TrailingData
