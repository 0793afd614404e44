import PluginCompiler.Generate
import PluginCompiler.Table

/-! Text with tags in brackets, as it appears on a terminal without colours: tags leave nothing behind,
and lines are broken between words. A tag that closes another one must find it open. -/

set_option autoImplicit false

namespace PluginCompiler

/-- What lays out marked-up text, records and tables as lines, or tells why it cannot. -/
structure Typesetter where
  text : String → Except String (List String)
  record : Record → List String
  table : Table → Except String (List String)

namespace Markup

inductive Token where
  | char (c : Char)
  | tag (body : List Char) (position : Nat)
  deriving DecidableEq, Repr

def startsTag (c : Char) : Bool := c.isLower || c == '#' || c == '/' || c == '@'

/-- What stands before the next closing bracket, if no opening one comes first. -/
def untilBracket : List Char → Option (List Char)
  | [] => none
  | c :: cs =>
    if c = ']' then some []
    else if c = '[' then none
    else (untilBracket cs).map (c :: ·)

def tag? : List Char → Option (List Char)
  | [] => none
  | c :: cs => if startsTag c then (untilBracket cs).map (c :: ·) else none

def plain (cs : List Char) : List Token := cs.map .char

def slashes (n : Nat) : List Char := List.replicate n '\\'

/-- The tokens of a text. Before a tag two backslashes stand for one, and a single one makes plain text
of the tag; before any other bracket a single one is dropped. `waiting` counts the backslashes just
read, and `skipped` the characters of a tag that are still to come. -/
def tokens : (waiting skipped position : Nat) → List Char → List Token
  | waiting, _, _, [] => plain (slashes waiting)
  | waiting, skipped + 1, position, _ :: cs => tokens waiting skipped (position + 1) cs
  | waiting, 0, position, c :: cs =>
    if c = '\\' then tokens (waiting + 1) 0 (position + 1) cs
    else if c = '[' then
      match tag? cs with
      | none => plain (slashes (waiting - 1)) ++ .char c :: tokens 0 0 (position + 1) cs
      | some body =>
        let first :=
          if waiting % 2 = 1 then plain ('[' :: body ++ [']'])
          else [.tag body position]
        plain (slashes (waiting / 2)) ++ first ++ tokens 0 (body.length + 1) (position + 1) cs
    else plain (slashes waiting) ++ .char c :: tokens 0 0 (position + 1) cs

def styleOf (body : List Char) : String :=
  String.ofList ((Text.trim (String.ofList (body.takeWhile (· != '=')))).toList.map Char.toLower)

def close? (style : String) : List String → Option (List String)
  | [] => none
  | s :: rest => if s = style then some rest else (close? style rest).map (s :: ·)

def visible : List String → List Token → Except String (List Char)
  | _, [] => .ok []
  | opened, .char c :: rest => (visible opened rest).map (c :: ·)
  | opened, .tag body position :: rest =>
    match body with
    | '/' :: name =>
      if styleOf name = "" then
        match opened with
        | [] => .error s!"closing tag '[/]' at position {position} has nothing to close"
        | _ :: opened => visible opened rest
      else
        match close? (styleOf name) opened with
        | none =>
          .error s!"closing tag '[{String.ofList body}]' at position {position} doesn't match any open tag"
        | some opened => visible opened rest
    | body => visible (styleOf body :: opened) rest

def isControl (c : Char) : Bool := [7, 8, 11, 12, 13].contains c.toNat

def strip (s : String) : Except String (List Char) :=
  (visible [] (tokens 0 0 0 s.toList)).map (·.filter fun c => !isControl c)

def width : Nat := 80

def textLines : List Char → List (List Char)
  | [] => [[]]
  | c :: cs =>
    match textLines cs with
    | [] => [[c]]
    | line :: lines => if c = '\n' then [] :: line :: lines else (c :: line) :: lines

/-- Words with the blanks after them; blanks at the start belong to the first word. -/
def wordsFrom (word : List Char) (ended : Bool) : List Char → List (List Char)
  | [] => if word.isEmpty then [] else [word.reverse]
  | c :: cs =>
    if Text.isBlank c then wordsFrom (c :: word) (!word.all Text.isBlank) cs
    else if ended then word.reverse :: wordsFrom [c] false cs
    else wordsFrom (c :: word) false cs

def chop (n : Nat) : Nat → List Char → List (List Char)
  | 0, _ => []
  | fuel + 1, cs => if cs.length ≤ n then [cs] else cs.take n :: chop n fuel (cs.drop n)

/-- Words on lines of a width. A word that does not fit on the line before it starts one of its own,
and one that fits on none is cut. -/
def fill (n : Nat) : (line : List Char) → List (List Char) → List (List Char)
  | line, [] => [line]
  | line, word :: rest =>
    let length := (Text.trimRight Text.isBlank word).length
    if line.length + length ≤ n then fill n (line ++ word) rest
    else
      let before := if line.isEmpty then [] else [line]
      if n < length then
        let pieces := chop n word.length word
        before ++ pieces.dropLast ++ fill n (pieces.getLast?.getD []) rest
      else before ++ fill n word rest

def crop (n : Nat) (line : List Char) : List Char :=
  if line.length ≤ n then line
  else line.take (max n (Text.trimRight Text.isBlank line).length)

def wrap (n : Nat) (cs : List Char) : List String :=
  (textLines cs).flatMap fun line =>
    (fill n [] (wordsFrom [] false line)).map fun l => String.ofList (crop n l)

def padded (n : Nat) (s : String) : String := s ++ String.ofList (List.replicate (n - s.length) ' ')

def recordLines (r : Record) : List String :=
  (wrap (width - 9) (r.text.toList.filter fun c => !isControl c)).mapIdx fun i line =>
    padded 9 (if i = 0 then r.level.word else "") ++ padded (width - 9) line

def tableLines (t : Table) : Except String (List String) := do
  let title ← t.title.toList.mapM strip
  let rows ← (t.headers :: t.rows).mapM fun row => row.mapM strip
  return title.map String.ofList ++
    rows.map fun row => Table.plainLine (row.map String.ofList)

end Markup

def Typesetter.standard : Typesetter where
  text s := (Markup.strip s).map (Markup.wrap Markup.width)
  record := Markup.recordLines
  table := Markup.tableLines

end PluginCompiler
