import PasswordVault.Generator
import PasswordVault.Json.Basic

/-!
# The log of a generator

Calls as they stand in a log: objects with the name of the call and its arguments, byte strings in
hexadecimal.
-/

namespace PasswordVault
namespace Generator

def variantName : Argon2.Variant → String
  | .d => "Argon2d"
  | .i => "Argon2i"
  | .id => "Argon2id"

def loggedBytes (b : Bytes) : Json := .string (Bytes.toHex b)

/-- A call in a log. -/
def Call.toJson : Call → Json
  | .seed length => .object [("call", .string "seed"), ("length", .nat length)]
  | .pbkdf2 password salt iterations length =>
    .object [("call", .string "pbkdf2"), ("seed", loggedBytes password), ("salt", loggedBytes salt),
      ("iterations", .nat iterations), ("length", .nat length)]
  | .argon2 variant password salt costs =>
    .object [("call", .string "argon2"), ("mode", .string (variantName variant)), ("seed", loggedBytes password),
      ("salt", loggedBytes salt), ("iterations", .nat costs.passes), ("memory_kb", .nat costs.memory),
      ("parallelism", .nat costs.lanes)]
  | .hkdfExpand key info length =>
    .object [("call", .string "hkdf_expand"), ("prk", loggedBytes key), ("info", loggedBytes info),
      ("length", .nat length)]
  | .sha256 data => .object [("call", .string "hash_sha256"), ("data", loggedBytes data)]

end Generator
end PasswordVault
