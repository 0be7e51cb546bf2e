/-! # Outlines

An outline is the nested text of a value: words, lists, and named records with labelled or
unlabelled parts. `inline` writes it on one line, `pretty` one part a line, each level four
spaces deeper and a comma behind every part. A record that is not `complete` ends with two dots.
-/

namespace Carousel.Text

/-- Nested text of a value. -/
inductive Outline where
  | word (text : String)
  | list (items : List Outline)
  | tuple (name : String) (parts : List Outline)
  | record (name : String) (labels : List String) (parts : List Outline) (complete : Bool)

namespace Outline

/-- Puts a label in front of a text. -/
def labelled (label text : String) : String := label ++ ": " ++ text

/-- What stands for the parts that a record leaves out. -/
def ellipsis (complete : Bool) : List String := if complete then [] else [".."]

mutual

/-- The outline on one line. -/
def inline : Outline → String
  | word text => text
  | list items => "[" ++ ", ".intercalate (inlineAll items) ++ "]"
  | tuple name parts => name ++ "(" ++ ", ".intercalate (inlineAll parts) ++ ")"
  | record name labels parts complete =>
    name ++ " \x7b " ++
      ", ".intercalate (List.zipWith labelled labels (inlineAll parts) ++ ellipsis complete) ++ " \x7d"

def inlineAll : List Outline → List String
  | [] => []
  | o :: os => o.inline :: inlineAll os

end

/-- The lines of a part, moved in, with a comma behind the last one. -/
def nested : List String → List String
  | [] => []
  | [line] => ["    " ++ line ++ ","]
  | line :: lines => ("    " ++ line) :: nested lines

/-- Puts a label in front of the first line. -/
def labelLines (label : String) : List String → List String
  | [] => []
  | line :: lines => labelled label line :: lines

/-- Lines of a bracketed list of parts; without parts the brackets stand on one line. -/
def bracketed (first last : String) (parts : List (List String)) : List String :=
  if parts.isEmpty then [first ++ last] else first :: parts.flatMap nested ++ [last]

mutual

/-- The lines of the outline, one part a line. -/
def lines : Outline → List String
  | word text => [text]
  | list items => bracketed "[" "]" (linesAll items)
  | tuple name parts => bracketed (name ++ "(") ")" (linesAll parts)
  | record name labels parts complete =>
    (name ++ " \x7b") :: (List.zipWith labelLines labels (linesAll parts)).flatMap nested ++
      (ellipsis complete).map ("    " ++ ·) ++ ["\x7d"]

def linesAll : List Outline → List (List String)
  | [] => []
  | o :: os => o.lines :: linesAll os

end

/-- The outline over several lines. -/
def pretty (o : Outline) : String := "\n".intercalate o.lines

/-- A natural number as a word. -/
def ofNat (n : Nat) : Outline := word (toString n)

/-- An integer as a word. -/
def ofInt (n : Int) : Outline := word (toString n)

/-- A truth value as a word. -/
def ofBool (b : Bool) : Outline := word (if b then "true" else "false")

end Outline

end Carousel.Text
