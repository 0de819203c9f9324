/-!
# Blanks

The blank characters of Unicode and the two ways a line is cut at them: `trim` takes the blanks
off both ends of a text, `words` cuts a text at its runs of blanks. `fields` cuts at the first
occurrence of one character.
-/

namespace Switchboard.Text

/-- Whether a character is a blank: the six controls, the space, and the wide blanks. -/
def isBlank (c : Char) : Bool :=
  let code := c.toNat
  (0x9 ≤ code && code ≤ 0xD) || code == 0x20 || code == 0x85 || code == 0xA0 || code == 0x1680
    || (0x2000 ≤ code && code ≤ 0x200A) || code == 0x2028 || code == 0x2029 || code == 0x202F
    || code == 0x205F || code == 0x3000

def dropWhileEnd (p : Char → Bool) (cs : List Char) : List Char :=
  (cs.reverse.dropWhile p).reverse

def trim (cs : List Char) : List Char :=
  dropWhileEnd isBlank (cs.dropWhile isBlank)

/-- Cut a text at its runs of blanks; `word` holds the current word, last character first. -/
def wordsFrom (word : List Char) : List Char → List (List Char)
  | [] => if word.isEmpty then [] else [word.reverse]
  | c :: cs =>
    if isBlank c then
      if word.isEmpty then wordsFrom [] cs else word.reverse :: wordsFrom [] cs
    else wordsFrom (c :: word) cs

/-- The words of a text: what stands between its runs of blanks. -/
def words (cs : List Char) : List (List Char) :=
  wordsFrom [] cs

/-- Cut a text at the first occurrence of a character, which is in neither part. -/
def fields (mark : Char) : List Char → Option (List Char × List Char)
  | [] => none
  | c :: cs =>
    if c = mark then some ([], cs)
    else (fields mark cs).map fun (before, after) => (c :: before, after)

def lower (c : Char) : Char :=
  if 'A'.toNat ≤ c.toNat && c.toNat ≤ 'Z'.toNat then Char.ofNat (c.toNat + 32) else c

def sameLetters (a b : String) : Bool :=
  a.toList.map lower == b.toList.map lower

def contains (part : List Char) : List Char → Bool
  | [] => part.isEmpty
  | c :: cs => part.isPrefixOf (c :: cs) || contains part cs

end Switchboard.Text
