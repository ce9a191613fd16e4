import VaultChat.Main
import VaultChat.Telegram.Bot
import VaultChat.Vault.Shown
import VaultChat.Proofs.AccountReset
import VaultChat.Proofs.BearerTokens
import VaultChat.Proofs.Secrecy
import VaultChat.Proofs.SerialEquivalence
import VaultChat.Proofs.Progress
import VaultChat.Proofs.Lifetime
import VaultChat.Proofs.Isolation
import VaultChat.Proofs.Interchange
import VaultChat.Proofs.Schedule
import VaultChat.Proofs.Exclusion
import VaultChat.Proofs.Inert
import VaultChat.Proofs.Login
import VaultChat.Proofs.Leftover
import VaultChat.Proofs.Incidents
import VaultChat.Proofs.StorageFailure
import VaultChat.Proofs.StoredEntry
import VaultChat.Proofs.Routing
import VaultChat.Proofs.Validated
import VaultChat.Proofs.CommandLine
import VaultChat.Proofs.Credentials
import VaultChat.Proofs.Mention
import VaultChat.Proofs.Drawing
import VaultChat.Proofs.Shuffle
import VaultChat.Proofs.Generator
import VaultChat.Proofs.Positions
import VaultChat.Proofs.Truncation
import VaultChat.Proofs.Saturation
import VaultChat.Proofs.Padding
import VaultChat.Proofs.RequestedLength
import VaultChat.Proofs.Placeholder
import VaultChat.Proofs.BlankToken
import VaultChat.Proofs.Concealment
import VaultChat.Proofs.Options
