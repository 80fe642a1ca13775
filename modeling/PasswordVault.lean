import PasswordVault.Aes
import PasswordVault.Aes.Cbc
import PasswordVault.Arithmetic.Modular
import PasswordVault.Arithmetic.Prime
import PasswordVault.Base64
import PasswordVault.Bytes
import PasswordVault.Bytes.Hex
import PasswordVault.Cipher
import PasswordVault.Cipher.Merge
import PasswordVault.Cipher.Parts
import PasswordVault.Config
import PasswordVault.CryptoError
import PasswordVault.Decimal.Double
import PasswordVault.Der
import PasswordVault.Der.PrivateKeyInfo
import PasswordVault.Digest.Blake2b
import PasswordVault.Digest.Hmac
import PasswordVault.Digest.Sha1
import PasswordVault.Digest.Sha256
import PasswordVault.Digest.Sha512
import PasswordVault.Digest.Words16
import PasswordVault.Ed25519
import PasswordVault.Entropy
import PasswordVault.Envelope
import PasswordVault.Envelope.Cipher
import PasswordVault.Generator
import PasswordVault.Generator.Log
import PasswordVault.Http
import PasswordVault.Http.Form
import PasswordVault.Instant
import PasswordVault.Json.Basic
import PasswordVault.Json.Parser
import PasswordVault.Json.Printer
import PasswordVault.Json.Record
import PasswordVault.Json.Token
import PasswordVault.KdfConfig
import PasswordVault.Key
import PasswordVault.KeyDerivation.Argon2
import PasswordVault.KeyDerivation.Argon2.MemoryBlock
import PasswordVault.KeyDerivation.Hkdf
import PasswordVault.KeyDerivation.Pbkdf2
import PasswordVault.KeyPair
import PasswordVault.MasterPassword
import PasswordVault.Merge.Description
import PasswordVault.Merge.Lens
import PasswordVault.Merge.Member
import PasswordVault.Merge.Rule
import PasswordVault.Merge.Strategy
import PasswordVault.Pem
import PasswordVault.Rsa
import PasswordVault.Rsa.Oaep
import PasswordVault.Session.Account
import PasswordVault.Session.Agenda
import PasswordVault.Session.Callers
import PasswordVault.Session.Connectivity
import PasswordVault.Session.Error
import PasswordVault.Session.Job
import PasswordVault.Session.Notification
import PasswordVault.Session.Polling
import PasswordVault.Session.Refresh
import PasswordVault.Session.Retry
import PasswordVault.Session.Roster
import PasswordVault.Session.Supervision
import PasswordVault.Session.SyncQueue
import PasswordVault.Session.TokenGrant
import PasswordVault.Session.TokenKeeping
import PasswordVault.Ssh.Wire
import PasswordVault.Store
import PasswordVault.Store.Error
import PasswordVault.Store.File
import PasswordVault.Store.Folder
import PasswordVault.Store.Manager
import PasswordVault.Store.Settings
import PasswordVault.Store.StoredKey
import PasswordVault.Store.Table
import PasswordVault.Text.Case
import PasswordVault.Text.CaseTable
import PasswordVault.Text.HiddenTable
import PasswordVault.Text.Quoted
import PasswordVault.Text.Split
import PasswordVault.Toml
import PasswordVault.Toml.Scalar
import PasswordVault.Toml.Table
import PasswordVault.Toml.Text
import PasswordVault.VaultError
import PasswordVault.Proofs.Merge.CipherFields
import PasswordVault.Proofs.Merge.CipherOutcome
import PasswordVault.Proofs.Merge.Untouched
import PasswordVault.Proofs.Envelope.RoundTrip
import PasswordVault.Proofs.Aes.Chaining
import PasswordVault.Proofs.Aes.Ciphertexts
import PasswordVault.Proofs.Envelope.Authentication
import PasswordVault.Proofs.KeyDerivation.SubKeys
import PasswordVault.Proofs.KeyDerivation.Confirmation
import PasswordVault.Proofs.KeyDerivation.PasswordProof
import PasswordVault.Proofs.Lookup
import PasswordVault.Proofs.Store.Sealing
import PasswordVault.Proofs.Store.Rows
import PasswordVault.Proofs.Store.Acceptance
import PasswordVault.Proofs.Store.Operations
import PasswordVault.Proofs.Store.Transaction
import PasswordVault.Proofs.Store.Rotation
import PasswordVault.Proofs.Merge.Agreement
import PasswordVault.Proofs.Arithmetic.Modular
import PasswordVault.Proofs.Envelope.Recovery
import PasswordVault.Proofs.Envelope.Canonical
import PasswordVault.Proofs.Text.Base64Grammar
import PasswordVault.Proofs.Envelope.Grammar
import PasswordVault.Proofs.Text.ByteOrder
import PasswordVault.Proofs.Store.Contents
import PasswordVault.Proofs.Text.Digits
import PasswordVault.Proofs.Json.Words
import PasswordVault.Proofs.Json.Records
import PasswordVault.Proofs.Text.Dates
import PasswordVault.Proofs.Cipher.Texts
import PasswordVault.Proofs.Store.Ciphers
import PasswordVault.Proofs.Store.Unlocking
import PasswordVault.Proofs.Store.Opening
import PasswordVault.Proofs.Session.PendingSyncs
import PasswordVault.Proofs.Session.Roster
import PasswordVault.Proofs.Session.Staff
import PasswordVault.Proofs.Session.Histories
import PasswordVault.Proofs.Session.InTurn
import PasswordVault.Proofs.Session.Lineage
import PasswordVault.Proofs.Session.Servers
import PasswordVault.Proofs.Merge.Syncs
import PasswordVault.Proofs.Cipher.RoundTrip
import PasswordVault.Proofs.Session.Progress
import PasswordVault.Proofs.Session.SharedRefresh
import PasswordVault.Proofs.Attempt
import PasswordVault.Proofs.Json.Members
import PasswordVault.Proofs.Json.Indentation
import PasswordVault.Proofs.Store.Settings
import PasswordVault.Proofs.Store.StoredKey
import PasswordVault.Proofs.Merge.Absence
import PasswordVault.Proofs.Session.Planning
import PasswordVault.Proofs.Session.Turns
import PasswordVault.Proofs.Session.Timeline
import PasswordVault.Proofs.Session.Backoff
import PasswordVault.Proofs.Session.Pushes
import PasswordVault.Proofs.Merge.Lists
import PasswordVault.Proofs.Merge.OneSided
import PasswordVault.Proofs.Pem.Header
import PasswordVault.Proofs.KeyPair.Refusal
import PasswordVault.Proofs.Instant.Calendar
import PasswordVault.Proofs.Session.Grants
import PasswordVault.Proofs.Store.SettingsAnswers
import PasswordVault.Proofs.Der.RoundTrip
import PasswordVault.Proofs.Der.Extent
import PasswordVault.Proofs.Pem.RoundTrip
import PasswordVault.Proofs.Ssh.Wire
import PasswordVault.Proofs.KeyPair.Documents
import PasswordVault.Proofs.KeyPair.Lines
import PasswordVault.Proofs.KeyPair.RoundTrip
import PasswordVault.Proofs.KeyPair.Identity
import PasswordVault.Proofs.Merge.Bookkeeping
import PasswordVault.Proofs.KeyDerivation.ServerKey
import PasswordVault.Proofs.Session.Retries
import PasswordVault.Proofs.Store.Mutation
import PasswordVault.Proofs.Session.FailedRefresh
import PasswordVault.Proofs.Session.TokenKeeping
import PasswordVault.Proofs.Config.Accounts
import PasswordVault.Proofs.Json.Composition
import PasswordVault.Proofs.KeyDerivation.Parameters
import PasswordVault.Proofs.Merge.CipherLenses
