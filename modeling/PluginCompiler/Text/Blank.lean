/-! White space, and the operations on text that depend on it: trimming the ends, cutting into words,
and writing line ends in one way. -/

set_option autoImplicit false

namespace PluginCompiler.Text

/-- The white space of every script, with the four information separators. -/
def isBlank (c : Char) : Bool :=
  let n := c.toNat
  (0x9 ≤ n && n ≤ 0xD) || (0x1C ≤ n && n ≤ 0x20) || n == 0x85 || n == 0xA0 || n == 0x1680 ||
    (0x2000 ≤ n && n ≤ 0x200A) || n == 0x2028 || n == 0x2029 || n == 0x202F || n == 0x205F ||
    n == 0x3000

def trimRight (p : Char → Bool) (cs : List Char) : List Char := (cs.reverse.dropWhile p).reverse

def trimBy (p : Char → Bool) (cs : List Char) : List Char :=
  trimRight p (cs.dropWhile p)

def trim (s : String) : String :=
  String.ofList (trimBy isBlank s.toList)

/-- Consing onto the word under construction, or starting one. -/
def wordsFrom (sep : Char → Bool) : List Char → List Char → List (List Char)
  | word, [] => if word.isEmpty then [] else [word.reverse]
  | word, c :: cs =>
    if sep c then
      if word.isEmpty then wordsFrom sep [] cs else word.reverse :: wordsFrom sep [] cs
    else wordsFrom sep (c :: word) cs

def wordsBy (sep : Char → Bool) (cs : List Char) : List (List Char) :=
  wordsFrom sep [] cs

def words (s : String) : List String :=
  (wordsBy isBlank s.toList).map String.ofList

/-- Line ends: a carriage return counts as a line feed, alone or together with one that follows. -/
def unifyNewlines : List Char → List Char
  | [] => []
  | '\r' :: '\n' :: cs => '\n' :: unifyNewlines cs
  | '\r' :: cs => '\n' :: unifyNewlines cs
  | c :: cs => c :: unifyNewlines cs

end PluginCompiler.Text
