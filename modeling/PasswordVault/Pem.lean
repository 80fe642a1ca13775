import PasswordVault.Base64

/-!
# PEM documents

Binary documents as text: a begin line with a label, base64 in lines of 64 characters, and an end
line with the same label. Text before the begin line is skipped; nothing may follow the end line.
-/

namespace PasswordVault
namespace Pem

def beginMark : List Char := "-----BEGIN ".toList

def endMark : List Char := "-----END ".toList

def dashes : List Char := "-----".toList

def lineLength : Nat := 64

/-! ## Writing -/

/-- Characters cut into full lines, each with its line end. -/
def wrap (cs : List Char) : List Char :=
  match cs with
  | [] => []
  | c :: rest => c :: rest.take (lineLength - 1) ++ '\n' :: wrap (rest.drop (lineLength - 1))
termination_by cs.length
decreasing_by simp only [List.length_drop, List.length_cons]; omega

def encode (label : String) (der : Bytes) : String :=
  String.ofList (beginMark ++ label.toList ++ dashes ++ '\n' :: wrap (Base64.encodeChars der)
    ++ endMark ++ label.toList ++ dashes ++ ['\n'])

/-! ## Reading -/

def afterLineEnd? : List Char → Option (List Char)
  | '\r' :: '\n' :: rest => some rest
  | '\n' :: rest => some rest
  | '\r' :: rest => some rest
  | _ => none

/-- A line end has at least one character. -/
theorem length_lt_of_afterLineEnd? {cs rest : List Char} (h : afterLineEnd? cs = some rest) :
    rest.length < cs.length := by
  unfold afterLineEnd? at h
  split at h
  · obtain rfl := Option.some.inj h
    simp only [List.length_cons]
    omega
  · obtain rfl := Option.some.inj h
    exact Nat.lt_succ_self _
  · obtain rfl := Option.some.inj h
    exact Nat.lt_succ_self _
  · cases h

def beforeLineEnd? (cs : List Char) : Option (List Char) :=
  match cs.reverse with
  | '\n' :: '\r' :: rest => some rest.reverse
  | '\n' :: rest => some rest.reverse
  | '\r' :: rest => some rest.reverse
  | _ => none

/-- What stands before the given ending. -/
def beforeEnding? (ending cs : List Char) : Option (List Char) :=
  let n := cs.length - ending.length
  if cs.drop n = ending then some (cs.take n) else none

def afterOpening? (opening cs : List Char) : Option (List Char) :=
  if cs.take opening.length = opening then some (cs.drop opening.length) else none

/-- What follows the mark of the first begin line. The text before holds no NUL and ends its line. -/
def skipPreamble? (cs : List Char) : Option (List Char) :=
  match afterOpening? beginMark cs with
  | some rest => some rest
  | none => search cs
where
  /-- The mark after a line feed. -/
  search : List Char → Option (List Char)
    | [] => none
    | c :: rest =>
      if c.toNat = 0 then none
      else if c = '\n' then
        match afterOpening? beginMark rest with
        | some after => some after
        | none => search rest
      else search rest

/-- The characters of full lines and a last line that may be shorter. A line end after the last line
is passed over. -/
def joinLines? (cs : List Char) : Option (List Char) :=
  if h : cs.length ≤ lineLength then some ((beforeLineEnd? cs).getD cs)
  else match hd : afterLineEnd? (cs.drop lineLength) with
    | none => none
    | some rest =>
      have : rest.length < cs.length := by
        have hlen := length_lt_of_afterLineEnd? hd
        rw [List.length_drop] at hlen
        omega
      (joinLines? rest).map (cs.take lineLength ++ ·)
termination_by cs.length

def decode? (text : String) : Option (String × Bytes) := do
  let rest ← skipPreamble? text.toList
  let label := rest.takeWhile (· ≠ '-')
  let rest ← afterOpening? dashes (rest.drop label.length)
  let body ← afterLineEnd? rest
  let body ← beforeEnding? dashes ((beforeLineEnd? body).getD body)
  let body ← beforeEnding? label body
  let body ← beforeEnding? endMark body
  let lines ← joinLines? (← beforeLineEnd? body)
  match Base64.decode (String.ofList lines) with
  | .ok der => some (String.ofList label, der)
  | .error _ => none

/-! ## Headers -/

/-- The lines of a text; a carriage return before a line feed belongs to the line end. -/
def lines (cs : List Char) : List (List Char) :=
  let (line, rest) := collect cs
  line :: rest
where
  /-- The line that the characters start with, and the lines after it. -/
  collect : List Char → List Char × List (List Char)
    | [] => ([], [])
    | '\r' :: '\n' :: cs => let (line, rest) := collect cs; ([], line :: rest)
    | '\n' :: cs => let (line, rest) := collect cs; ([], line :: rest)
    | c :: cs => let (line, rest) := collect cs; (c :: line, rest)

def trimDashes (cs : List Char) : List Char :=
  ((cs.dropWhile (· = '-')).reverse.dropWhile (· = '-')).reverse

def header? (text : String) : Option String :=
  ((lines text.toList).find? fun line => beginMark.isPrefixOf line).map fun line =>
    String.ofList (trimDashes line)

end Pem
end PasswordVault
