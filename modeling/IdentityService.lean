import IdentityService.Access.Documentation
import IdentityService.Access.SelfService
import IdentityService.Calls.Failure
import IdentityService.Calls.Idempotency
import IdentityService.Calls.Outbound
import IdentityService.Cleanup.Retention
import IdentityService.Databases.Assignment
import IdentityService.Databases.MigrationURL
import IdentityService.Defs.Serial
import IdentityService.Keys.Encoding
import IdentityService.Listing.Batch
import IdentityService.Listing.Keyword
import IdentityService.Listing.Status
import IdentityService.Login.Locked
import IdentityService.Login.PasswordHash
import IdentityService.Login.SecondFactor
import IdentityService.Login.StoredSecrets
import IdentityService.MFA.Confirmation
import IdentityService.MFA.EnabledAt
import IdentityService.MFA.Enrolment
import IdentityService.MFA.FreshCode
import IdentityService.MFA.Spend
import IdentityService.Outbox.Directory
import IdentityService.Outbox.Transition
import IdentityService.PasswordReset.Outstanding
import IdentityService.PasswordReset.Replacement
import IdentityService.ServiceAccounts.Audience
import IdentityService.Sessions.KeptAlive
import IdentityService.Sessions.MassRevocation
import IdentityService.Sessions.Metadata
import IdentityService.Sessions.Rotation
import IdentityService.Sessions.Status
import IdentityService.Settings.Slice
import IdentityService.Users.Guessing
