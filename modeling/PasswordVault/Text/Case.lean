import PasswordVault.Text.CaseTable

/-!
# Lower case and blanks

Texts are put in lower case by the full Unicode mapping: a capital dotted I becomes two characters,
and a capital sigma at the end of a word becomes a final sigma. Blanks at both ends are taken off by
the Unicode property of white space.
-/

namespace PasswordVault
namespace Text

def inRanges (ranges : List (Nat × Nat)) (code : Nat) : Bool :=
  ranges.any fun (first, last) => first ≤ code && code ≤ last

/-- The lower-case form of a character, apart from what its neighbours decide. -/
def lowerChar (c : Char) : List Char :=
  let n := c.toNat
  if n = 0x130 then ['i', Char.ofNat 0x307]
  else
    match lowerRuns.find? fun r => r.first ≤ n && n ≤ r.last && (n - r.first) % r.step == 0 with
    | some r => [Char.ofNat ((n : Int) + r.offset).toNat]
    | none => [c]

/-- Whether the first character that is not passed over is a cased letter. -/
def startsCased (cs : List Char) : Bool :=
  match cs.dropWhile fun c => inRanges caseIgnorable c.toNat with
  | c :: _ => inRanges cased c.toNat
  | [] => false

/-- The characters in lower case; `before` holds those already read, the nearest first. -/
def lowerChars (before : List Char) : List Char → List Char
  | [] => []
  | c :: rest =>
    let form :=
      if c = 'Σ' then [if startsCased before && !startsCased rest then 'ς' else 'σ'] else lowerChar c
    form ++ lowerChars (c :: before) rest

def lowercase (s : String) : String := String.ofList (lowerChars [] s.toList)

def isBlank (c : Char) : Bool :=
  inRanges [(0x9, 0xd), (0x20, 0x20), (0x85, 0x85), (0xa0, 0xa0), (0x1680, 0x1680), (0x2000, 0x200a),
    (0x2028, 0x2029), (0x202f, 0x202f), (0x205f, 0x205f), (0x3000, 0x3000)] c.toNat

def trimChars (cs : List Char) : List Char :=
  ((cs.dropWhile isBlank).reverse.dropWhile isBlank).reverse

def trim (s : String) : String := String.ofList (trimChars s.toList)

/-- The words of a text: what stands between blanks. -/
def words (cs : List Char) : List (List Char) :=
  let (word, rest) := collect cs
  if word = [] then rest else word :: rest
where
  /-- The word that the characters start with, and the words after it. -/
  collect : List Char → List Char × List (List Char)
    | [] => ([], [])
    | c :: cs =>
      let (word, rest) := collect cs
      if isBlank c then ([], if word = [] then rest else word :: rest) else (c :: word, rest)

end Text
end PasswordVault
