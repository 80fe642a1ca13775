import PasswordVault.Base64
import PasswordVault.CryptoError
import PasswordVault.Text.Split

/-!
# Cipher envelopes

Encrypted values travel as text: the number of a cipher type, a full stop, and base64 segments
between vertical bars. The number alone decides how many segments there are and what they hold.

* `Envelope.toText`: the text of an envelope.
* `Envelope.parse`: the envelope of a text, or the rule that the text breaks.
-/

namespace PasswordVault

inductive CipherType where
  | aesCbc256
  | aesCbc128Hmac
  | aesCbc256Hmac
  | rsaOaepSha256
  | rsaOaepSha1
  | rsaOaepSha256Hmac
  | rsaOaepSha1Hmac
deriving DecidableEq, Repr

namespace CipherType

def raw : CipherType → Nat
  | .aesCbc256 => 0
  | .aesCbc128Hmac => 1
  | .aesCbc256Hmac => 2
  | .rsaOaepSha256 => 3
  | .rsaOaepSha1 => 4
  | .rsaOaepSha256Hmac => 5
  | .rsaOaepSha1Hmac => 6

def ofRaw? : Nat → Option CipherType
  | 0 => some .aesCbc256
  | 1 => some .aesCbc128Hmac
  | 2 => some .aesCbc256Hmac
  | 3 => some .rsaOaepSha256
  | 4 => some .rsaOaepSha1
  | 5 => some .rsaOaepSha256Hmac
  | 6 => some .rsaOaepSha1Hmac
  | _ => none

def ofRaw (n : Nat) : Except CryptoError CipherType :=
  match ofRaw? n with
  | some t => .ok t
  | none => .error (.unsupportedCipherType (toString n))

def hasIv : CipherType → Bool
  | .aesCbc256 | .aesCbc128Hmac | .aesCbc256Hmac => true
  | _ => false

def hasMac : CipherType → Bool
  | .aesCbc128Hmac | .aesCbc256Hmac | .rsaOaepSha256Hmac | .rsaOaepSha1Hmac => true
  | _ => false

def isAsymmetric (t : CipherType) : Bool := ¬ t.hasIv

def segmentCount (t : CipherType) : Nat := t.hasIv.toNat + 1 + t.hasMac.toNat

end CipherType

def ivLength : Nat := 16

def macLength : Nat := 32

/-- The authentication code of an envelope. -/
abbrev Mac := Block 32

/-- An encrypted value. Each type has the parts that its segments hold. -/
inductive Envelope where
  | aesCbc256 (iv : Block 16) (data : Bytes)
  | aesCbc128Hmac (iv : Block 16) (data : Bytes) (mac : Mac)
  | aesCbc256Hmac (iv : Block 16) (data : Bytes) (mac : Mac)
  | rsaOaepSha256 (data : Bytes)
  | rsaOaepSha1 (data : Bytes)
  | rsaOaepSha256Hmac (data : Bytes) (mac : Mac)
  | rsaOaepSha1Hmac (data : Bytes) (mac : Mac)
deriving DecidableEq

namespace Envelope

def cipherType : Envelope → CipherType
  | .aesCbc256 .. => .aesCbc256
  | .aesCbc128Hmac .. => .aesCbc128Hmac
  | .aesCbc256Hmac .. => .aesCbc256Hmac
  | .rsaOaepSha256 .. => .rsaOaepSha256
  | .rsaOaepSha1 .. => .rsaOaepSha1
  | .rsaOaepSha256Hmac .. => .rsaOaepSha256Hmac
  | .rsaOaepSha1Hmac .. => .rsaOaepSha1Hmac

def iv? : Envelope → Option (Block 16)
  | .aesCbc256 iv _ | .aesCbc128Hmac iv _ _ | .aesCbc256Hmac iv _ _ => some iv
  | _ => none

def data : Envelope → Bytes
  | .aesCbc256 _ data | .aesCbc128Hmac _ data _ | .aesCbc256Hmac _ data _ => data
  | .rsaOaepSha256 data | .rsaOaepSha1 data => data
  | .rsaOaepSha256Hmac data _ | .rsaOaepSha1Hmac data _ => data

def mac? : Envelope → Option Mac
  | .aesCbc128Hmac _ _ mac | .aesCbc256Hmac _ _ mac => some mac
  | .rsaOaepSha256Hmac _ mac | .rsaOaepSha1Hmac _ mac => some mac
  | _ => none

def segments (e : Envelope) : List Bytes :=
  (e.iv?.map Block.bytes).toList ++ [e.data] ++ (e.mac?.map Block.bytes).toList

/-! ## Writing -/

def chars (e : Envelope) : List Char :=
  (toString e.cipherType.raw).toList ++ '.' :: Text.joinWith '|' (e.segments.map Base64.encodeChars)

def toText (e : Envelope) : String := String.ofList e.chars

def describe (e : Envelope) : String := s!"CipherEnvelope({e.toText})"

/-! ## Reading -/

/-- The rules that a text can break. -/
inductive Fault where
  | missingType
  | secondSeparator
  | invalidType (found : String)
  | unsupportedType (found : String)
  | segmentCount (type expected found : Nat)
  | emptySegment
  | invalidBase64 (fault : Base64.Fault)
  | wrongIvLength (found : Nat)
  | wrongMacLength (found : Nat)
deriving DecidableEq

/-- The error that a broken rule is reported as. -/
def Fault.toError : Fault → CryptoError
  | .missingType => .malformedEnvelope "missing type prefix"
  | .secondSeparator => .malformedEnvelope "more than one type separator"
  | .invalidType found => .malformedEnvelope ("invalid type prefix '" ++ found ++ "'")
  | .unsupportedType found => .unsupportedCipherType found
  | .segmentCount type expected found =>
    .malformedEnvelope s!"type {type} expects {expected} segments, got {found}"
  | .emptySegment => .malformedEnvelope "empty segment"
  | .invalidBase64 fault => .malformedEnvelope ("invalid base64: " ++ fault.message)
  | .wrongIvLength found => .malformedEnvelope s!"iv must be {ivLength} bytes, got {found}"
  | .wrongMacLength found => .malformedEnvelope s!"mac must be {macLength} bytes, got {found}"

def digitsValue (digits : List Char) : Nat :=
  digits.foldl (fun n c => n * 10 + (c.toNat - 48)) 0

/-- The type that the text in front of the full stop names. Numbers of more than one byte are reported
as they are written, others by their value. -/
def typeOf (name : List Char) : Except Fault CipherType :=
  if name = [] ∨ ¬ name.all Char.isDigit then .error (.invalidType (String.ofList name))
  else
    let n := digitsValue name
    match CipherType.ofRaw? n with
    | some t => .ok t
    | none => .error (.unsupportedType (if 255 < n then String.ofList name else toString n))

def segment (text : List Char) : Except Fault Bytes :=
  if text = [] then .error .emptySegment
  else (Base64.decode (String.ofList text)).mapError .invalidBase64

def asIv (b : Bytes) : Except Fault (Block 16) :=
  match Block.ofBytes? 16 b with
  | some iv => .ok iv
  | none => .error (.wrongIvLength b.length)

/-- A segment that must hold an authentication code. -/
def asMac (b : Bytes) : Except Fault Mac :=
  match Block.ofBytes? 32 b with
  | some mac => .ok mac
  | none => .error (.wrongMacLength b.length)

/-- The envelope with the given segments. -/
def ofSegments (t : CipherType) (segments : List Bytes) : Except Fault Envelope :=
  match t, segments with
  | .aesCbc256, [iv, data] => do return .aesCbc256 (← asIv iv) data
  | .aesCbc128Hmac, [iv, data, mac] => do return .aesCbc128Hmac (← asIv iv) data (← asMac mac)
  | .aesCbc256Hmac, [iv, data, mac] => do return .aesCbc256Hmac (← asIv iv) data (← asMac mac)
  | .rsaOaepSha256, [data] => .ok (.rsaOaepSha256 data)
  | .rsaOaepSha1, [data] => .ok (.rsaOaepSha1 data)
  | .rsaOaepSha256Hmac, [data, mac] => do return .rsaOaepSha256Hmac data (← asMac mac)
  | .rsaOaepSha1Hmac, [data, mac] => do return .rsaOaepSha1Hmac data (← asMac mac)
  | t, found => .error (.segmentCount t.raw t.segmentCount found.length)

/-- The envelope of a text given as characters, or the first rule that it breaks. -/
def ofChars (text : List Char) : Except Fault Envelope :=
  match Text.cutAt? '.' text with
  | none => .error .missingType
  | some (name, body) =>
    if '.' ∈ body then .error .secondSeparator
    else do
      let t ← typeOf name
      let parts := Text.splitAt '|' body
      if parts.length ≠ t.segmentCount then
        .error (.segmentCount t.raw t.segmentCount parts.length)
      else ofSegments t (← parts.mapM segment)

def parse (text : String) : Except CryptoError Envelope :=
  (ofChars text.toList).mapError Fault.toError

end Envelope
end PasswordVault
