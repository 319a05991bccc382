import ObjectStore.History
import ObjectStore.Text.Lines

/-!
# Logs

A log shows the commits of a walk, each in one line or in a block of lines with one blank line
between two blocks. The parts that name a commit may be coloured.
-/

namespace ObjectStore

/-- A colour of text on a terminal. -/
inductive Colour where
  | green
  | yellow
  deriving DecidableEq

/-- The number of a colour in the sequence that switches it on. -/
def Colour.code : Colour → String
  | green => "32"
  | yellow => "33"

/-- A text in a colour, if colours are wanted. -/
def Colour.paint (colour : Colour) (wanted : Bool) (text : String) : String :=
  if wanted then "\x1b[" ++ colour.code ++ "m" ++ text ++ "\x1b[0m" else text

namespace Log

/-- The line that shows a commit: the start of its id and of its message. -/
def line (coloured : Bool) (id : ObjectId) (commit : Commit) : String :=
  Colour.yellow.paint coloured id.short ++ " " ++ commit.short ++ "\n"

/-- The lines that show a commit: its id, its parents if it joins histories, its author, and its
message with four spaces in front of each line. -/
def block (coloured : Bool) (id : ObjectId) (commit : Commit) : String :=
  Colour.yellow.paint coloured ("commit " ++ id.text) ++ "\n"
    ++ (if commit.isMerge then
      "Merge: " ++ String.intercalate " " (commit.parents.map ObjectId.short) ++ "\n" else "")
    ++ "Author: " ++ commit.author.identity ++ "\n"
    ++ "Date:   " ++ commit.author.time.readable ++ "\n\n"
    ++ String.join ((Text.textLines commit.message.toList).map fun l =>
      "    " ++ String.ofList l ++ "\n")

/-- The log of some commits. -/
def render (coloured oneline : Bool) (commits : List (ObjectId × Commit)) : String :=
  if oneline then String.join (commits.map fun (id, commit) => line coloured id commit)
  else String.intercalate "\n" (commits.map fun (id, commit) => block coloured id commit)

end Log

end ObjectStore
