import PasswordVault.Session.Account
import PasswordVault.Toml

/-!
# Configuration

What the service is told at the start: where it keeps its files, which servers it talks to, and accounts
to begin with. Every setting has a default; unknown ones are ignored.

`mergeAccounts` puts the accounts of the configuration together with those in the store, which take
precedence because their tokens are newer.
-/

namespace PasswordVault

/-! ## Accounts to begin with -/

/-- An account in a configuration. A token whose end is not known counts as expired. -/
structure SeedAccount where
  id : String
  serverUrl : Option String
  accessToken : String
  refreshToken : String
  expiresAt : Option Instant
deriving DecidableEq

namespace SeedAccount

def reader : Json.Reader SeedAccount :=
  Json.Reader.record [["id"], ["server_url"], ["access_token"], ["refresh_token"], ["expires_at"]]
    fun depth fields =>
      match fields with
      | [id, serverUrl, accessToken, refreshToken, expiresAt] => do
        return {
          id := ← id.required .text depth
          serverUrl := ← serverUrl.withDefault none (.orNull .text) depth
          accessToken := ← accessToken.required .text depth
          refreshToken := ← refreshToken.required .text depth
          expiresAt := ← expiresAt.withDefault none (.orNull Instant.reader) depth }
      | _ => none

def toJson (a : SeedAccount) : Json :=
  .object [("id", .string a.id), ("server_url", .optString a.serverUrl), ("access_token", .string a.accessToken),
    ("refresh_token", .string a.refreshToken), ("expires_at", .optString (a.expiresAt.map (·.toText)))]

/-- The account to sign in with, on a server of its own or on the given one. -/
def account (a : SeedAccount) (serverUrl : String) : Account where
  id := a.id
  serverUrl := a.serverUrl.getD serverUrl
  token := some ⟨a.accessToken, a.refreshToken, a.expiresAt.getD Instant.earliest⟩

end SeedAccount

/-! ## The configuration -/

def joinPath (base path : String) : String :=
  if path.startsWith "/" then path
  else if base = "" ∨ base.endsWith "/" then base ++ path
  else base ++ "/" ++ path

/-- A configuration. Files are looked for from the data folder on. -/
structure Config where
  dataDir : String
  databaseFile : String := "vaultkeep.db"
  settingsFile : String := "settings.json"
  serverUrl : String := "https://vault.bitwarden.com"
  clientId : String := "desktop"
  logLevel : String := "info"
  openAttempts : Nat := 3
  pollTimeout : Nat := 60
  accounts : List SeedAccount := []
deriving DecidableEq

namespace Config

/-- The configuration of somebody who gives none, under a folder for the data of all programs. -/
def standard (dataHome : String) : Config := { dataDir := joinPath dataHome "vaultkeep" }

def reader (dataHome : String) : Json.Reader Config :=
  Json.Reader.record [["data_dir"], ["database_file"], ["settings_file"], ["server_url"], ["client_id"],
    ["log_level"], ["open_attempts"], ["poll_timeout_secs"], ["accounts"]] fun depth fields =>
      let base := standard dataHome
      match fields with
      | [dataDir, databaseFile, settingsFile, serverUrl, clientId, logLevel, openAttempts, pollTimeout,
          accounts] => do
        let seconds ← pollTimeout.withDefault (base.pollTimeout : Int) (.integer 0 0xffffffffffffffff) depth
        return {
          dataDir := ← dataDir.withDefault base.dataDir .text depth
          databaseFile := ← databaseFile.withDefault base.databaseFile .text depth
          settingsFile := ← settingsFile.withDefault base.settingsFile .text depth
          serverUrl := ← serverUrl.withDefault base.serverUrl .text depth
          clientId := ← clientId.withDefault base.clientId .text depth
          logLevel := ← logLevel.withDefault base.logLevel .text depth
          openAttempts := ← openAttempts.withDefault base.openAttempts .nat32 depth
          pollTimeout := seconds.toNat
          accounts := ← accounts.withDefault base.accounts (.list SeedAccount.reader) depth }
      | _ => none

def parse? (dataHome text : String) : Option Config := do
  reader dataHome Json.nestingLimit (← Toml.parse? text)

def toJson (c : Config) : Json :=
  .object [("data_dir", .string c.dataDir), ("database_file", .string c.databaseFile),
    ("settings_file", .string c.settingsFile), ("server_url", .string c.serverUrl),
    ("client_id", .string c.clientId), ("log_level", .string c.logLevel),
    ("open_attempts", .nat c.openAttempts), ("poll_timeout_secs", .nat c.pollTimeout),
    ("accounts", .array (c.accounts.map (·.toJson)))]

def databasePath (c : Config) : String := joinPath c.dataDir c.databaseFile

def settingsPath (c : Config) : String := joinPath c.dataDir c.settingsFile

def seedAccounts (c : Config) : List Account := c.accounts.map fun a => a.account c.serverUrl

end Config

/-! ## Merging accounts -/

/-- Accounts with one more, unless its id is among them. -/
def addMissing (merged : List Account) (a : Account) : List Account :=
  if merged.any fun m => m.id = a.id then merged else merged ++ [a]

/-- The accounts to start with: those of the configuration in their order, each in its stored form if there
is one, and then the other stored ones. -/
def mergeAccounts (seed stored : List Account) : List Account :=
  let merged := seed.map fun a => (stored.find? fun s => s.id = a.id).getD a
  stored.foldl addMissing merged

end PasswordVault
