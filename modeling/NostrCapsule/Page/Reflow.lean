import NostrCapsule.Text.Basic

/-!
Contract: prose broken to a width.

Owns:
- the lines that carry structure, which are never broken;
- the filling of lines with words, each line with as many as fit;
- `reflow` for whole documents.

Widths are counted in characters.  A word is never cut, so one that is too long has a line of
its own.

Does not own: the making of documents.
-/

namespace NostrCapsule

/-- The marks that give a line its structure: fence, link, heading and bullet. -/
def structuralMarks : List String := ["```", "=>", "#", "* "]

/-- Whether a line begins, after white space, with a structural mark. -/
def isStructural (line : String) : Bool :=
  let content := Text.trimStartChars line.toList
  structuralMarks.any fun mark => mark.toList.isPrefixOf content

namespace Reflow

/-- Words grouped into lines.  `line` holds the words of the line under way in reverse and `used`
its width. -/
def group (width : Nat) (line : List String) (used : Nat) : List String → List (List String)
  | [] => [line.reverse]
  | word :: rest =>
      if used + 1 + word.length ≤ width then
        group width (word :: line) (used + 1 + word.length) rest
      else line.reverse :: group width [word] word.length rest

def fill (width : Nat) : List String → List (List String)
  | [] => []
  | word :: rest => group width [word] word.length rest

def reflowLine (width : Nat) (line : String) : List String :=
  if Text.isAllBlank line || isStructural line then [line]
  else (fill width (Text.words line)).map (" ".intercalate ·)

end Reflow

/-- A document with its prose broken to a width; a width of zero leaves it as it is. -/
def reflow (width : Nat) (document : String) : String :=
  if width = 0 then document
  else Text.unlines ((Text.linesOf document).flatMap (Reflow.reflowLine width))

end NostrCapsule
