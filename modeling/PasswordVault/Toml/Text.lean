import PasswordVault.Bytes.Hex

/-!
# Strings and keys of TOML

Strings in their four forms: basic ones with escapes and literal ones without, each on one line or on
several. Every reader returns what it found and what follows it.
-/

namespace PasswordVault
namespace Toml

/-! ## Characters -/

/-- Whether a character can stand in a text: control characters cannot, except the tab. -/
def isText (c : Char) : Bool := c = '\t' || (' ' ≤ c && c.toNat ≠ 127)

def isBlank (c : Char) : Bool := c = ' ' || c = '\t'

def isBare (c : Char) : Bool := c.isAlphanum || c = '-' || c = '_'

def skipBlanks (cs : List Char) : List Char := cs.dropWhile isBlank

/-- The text after the end of a comment, if there is one. -/
def skipComment : List Char → List Char
  | '#' :: rest => rest.dropWhile isText
  | rest => rest

def lineEnd? : List Char → Option (List Char)
  | '\n' :: rest => some rest
  | '\r' :: '\n' :: rest => some rest
  | _ => none

/-! ## Escapes -/

/-- The character with a number in hexadecimal digits. -/
def charOfHex? (digits : List Char) : Option Char := do
  let values ← digits.mapM Bytes.hexValue?
  let n := values.foldl (fun n d => 16 * n + d) 0
  if n.isValidChar then some (Char.ofNat n) else none

/-- The characters behind the marks of short escapes. -/
def shortEscapes : List (Char × Char) :=
  [('b', '\x08'), ('t', '\t'), ('n', '\n'), ('f', '\x0c'), ('r', '\r'), ('"', '"'), ('\\', '\\')]

/-- A text with its escapes resolved, in at most `steps` steps. A backslash at the end of a line removes
the line end and all blanks after it. -/
def resolveIn : (steps : Nat) → List Char → Option (List Char)
  | 0, _ => none
  | _, [] => some []
  | steps + 1, '\\' :: 'u' :: rest => do
    if rest.length < 4 then none
    return (← charOfHex? (rest.take 4)) :: (← resolveIn steps (rest.drop 4))
  | steps + 1, '\\' :: 'U' :: rest => do
    if rest.length < 8 then none
    return (← charOfHex? (rest.take 8)) :: (← resolveIn steps (rest.drop 8))
  | steps + 1, '\\' :: c :: rest =>
    if isBlank c || c = '\n' then do
      let after ← lineEnd? (skipBlanks (c :: rest))
      resolveIn steps (after.dropWhile fun c => isBlank c || c = '\n')
    else do return (← shortEscapes.lookup c) :: (← resolveIn steps rest)
  | steps + 1, c :: rest => do return c :: (← resolveIn steps rest)

def resolve (cs : List Char) : Option (List Char) := resolveIn (cs.length + 1) cs

/-! ## Strings -/

def behind (front : List Char) (found : Option (List Char × List Char)) : Option (List Char × List Char) :=
  found.map fun (cs, rest) => (front ++ cs, rest)

/-- The characters up to a quote on the same line. With escapes, a backslash takes the character after it
along. -/
def lineContent (quote : Char) (escapes : Bool) : List Char → Option (List Char × List Char)
  | [] => none
  | [c] => if c = quote then some ([], []) else none
  | c :: d :: rest =>
    if c = quote then some ([], d :: rest)
    else if escapes && c = '\\' then
      if isText d then behind [c, d] (lineContent quote escapes rest) else none
    else if isText c then behind [c] (lineContent quote escapes (d :: rest))
    else none

/-- The characters up to three quotes, over any number of lines. Up to two quotes more belong to the
text. -/
def blockContent (quote : Char) (escapes : Bool) : List Char → Option (List Char × List Char)
  | [] => none
  | c :: rest =>
    let quotes := ((c :: rest).take 5).takeWhile (· = quote)
    if 3 ≤ quotes.length then some (quotes.drop 3, rest.drop (quotes.length - 1))
    else match rest with
      | [] => none
      | d :: more =>
        if escapes && c = '\\' && d ≠ '\r' then
          if isText d || d = '\n' then behind [c, d] (blockContent quote escapes more) else none
        else if c = '\r' then
          if d = '\n' then behind ['\n'] (blockContent quote escapes more) else none
        else if isText c || c = '\n' then behind [c] (blockContent quote escapes (d :: more))
        else none

/-- A string found, with its escapes resolved if it has any. -/
def asString (escapes : Bool) (found : Option (List Char × List Char)) : Option (String × List Char) := do
  let (cs, rest) ← found
  let cs ← if escapes then resolve cs else some cs
  return (String.ofList cs, rest)

def lineString : List Char → Option (String × List Char)
  | '"' :: rest => asString true (lineContent '"' true rest)
  | '\'' :: rest => asString false (lineContent '\'' false rest)
  | _ => none

/-- A string in any form. A line end right after three quotes does not count. -/
def string : List Char → Option (String × List Char)
  | '"' :: '"' :: '"' :: rest => asString true (blockContent '"' true ((lineEnd? rest).getD rest))
  | '\'' :: '\'' :: '\'' :: rest => asString false (blockContent '\'' false ((lineEnd? rest).getD rest))
  | cs => lineString cs

/-! ## Keys -/

def simpleKey (cs : List Char) : Option (String × List Char) :=
  match cs.takeWhile isBare with
  | [] => lineString cs
  | key => some (String.ofList key, cs.dropWhile isBare)

def keysIn : (count : Nat) → List Char → Option (List String × List Char)
  | 0, _ => none
  | count + 1, cs => do
    let (key, rest) ← simpleKey (skipBlanks cs)
    match skipBlanks rest with
    | '.' :: more => do
      let (keys, rest) ← keysIn count more
      return (key :: keys, rest)
    | rest => return ([key], rest)

def keys (cs : List Char) : Option (List String × List Char) := keysIn (cs.length + 1) cs

end Toml
end PasswordVault
