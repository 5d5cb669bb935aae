/-!
Contract: text as characters, words and lines.

Owns:
- the White_Space class, trimming and words;
- cutting text at line feeds, the lines of a byte string, and the first line that says something;
- shortened forms, measured in characters, and repetitions;
- `afterPrefix?`, which takes a given start off, and `occursIn`, each with its laws.

Does not own: which lines of a page carry structure, and what is shortened to which length.
-/

namespace NostrCapsule.Text

/-! ## White space -/

/-- The characters with the Unicode property White_Space. -/
def isBlank (character : Char) : Bool :=
  let code := character.toNat
  (0x9 ≤ code && code ≤ 0xD) || code == 0x20 || code == 0x85 || code == 0xA0
    || code == 0x1680 || (0x2000 ≤ code && code ≤ 0x200A) || code == 0x2028
    || code == 0x2029 || code == 0x202F || code == 0x205F || code == 0x3000

def trimStartChars (characters : List Char) : List Char :=
  characters.dropWhile isBlank

/-- Characters between the first and the last one that are not white space. -/
def trimChars (characters : List Char) : List Char :=
  (trimStartChars (trimStartChars characters).reverse).reverse

def trimStart (text : String) : String :=
  String.ofList (trimStartChars text.toList)

def trim (text : String) : String :=
  String.ofList (trimChars text.toList)

def isAllBlank (text : String) : Bool :=
  text.toList.all isBlank

/-- The trimmed text, unless it is white space only. -/
def trimmed? (text : String) : Option String :=
  if isAllBlank text then none else some (trim text)

/-- Maximal runs of characters that are not white space, in order. -/
def wordChars (characters : List Char) : List (List Char) :=
  (characters.splitOnP isBlank).filter fun run => !run.isEmpty

def words (text : String) : List String :=
  (wordChars text.toList).map String.ofList

/-- The words of a text with one space between neighbours. -/
def collapse (text : String) : String :=
  " ".intercalate (words text)

/-! ## Lines -/

/-- The pieces between line feeds; their number is one more than that of the line feeds. -/
def linesOf (text : String) : List String :=
  (text.toList.splitOn '\n').map String.ofList

def unlines (lines : List String) : String :=
  "\n".intercalate lines

/-- Cutting at line feeds and joining by them gives the text back. -/
theorem unlines_linesOf (text : String) : unlines (linesOf text) = text := by
  apply String.toList_inj.mp
  simp only [unlines, linesOf, String.toList_intercalate, List.map_map]
  have identity : (String.toList ∘ String.ofList) = id := by
    funext characters
    simp
  rw [identity, List.map_id]
  exact List.intercalate_splitOn '\n'

/-- The first line with more than white space in it, trimmed. -/
def firstLine? (text : String) : Option String :=
  (linesOf text).findSome? trimmed?

def dropReturn (line : List UInt8) : List UInt8 :=
  if line.getLast? = some 0x0D then line.dropLast else line

/-- The lines of a byte string: each ends at a line feed, which takes one carriage return before
it along; bytes after the last line feed are a line if there are any. -/
def byteLines (octets : List UInt8) : List (List UInt8) :=
  let pieces := octets.splitOn 0x0A
  let final := pieces.getLastD []
  pieces.dropLast.map dropReturn ++ if final.isEmpty then [] else [final]

/-! ## Excerpts and repetitions -/

/-- The first `limit` characters, followed by `marker` if any were cut off. -/
def truncate (limit : Nat) (marker text : String) : String :=
  if text.length ≤ limit then text
  else String.ofList (text.toList.take limit) ++ marker

/-- Characters kept at each end of a shortened key. -/
def shortEdge : Nat := 8

/-- The first and last eight characters of a key; a key of at most sixteen is kept whole. -/
def shortKey (key : String) : String :=
  if key.length ≤ 2 * shortEdge then key
  else String.ofList (key.toList.take shortEdge) ++ "..."
    ++ String.ofList (key.toList.drop (key.length - shortEdge))

/-- The first eight characters of an identifier and three dots. -/
def shortId (id : String) : String :=
  String.ofList (id.toList.take shortEdge) ++ "..."

def repeated (count : Nat) (text : String) : String :=
  if text.isEmpty then "" else String.join (List.replicate count text)

private theorem join_replicate_empty (count : Nat) :
    String.join (List.replicate count "") = "" := by
  apply String.toList_inj.mp
  simp

/-- Repeating joins as many copies as are asked for. -/
theorem repeated_eq_join (count : Nat) (text : String) :
    repeated count text = String.join (List.replicate count text) := by
  unfold repeated
  split
  · next empty => rw [String.isEmpty_iff.mp empty, join_replicate_empty]
  · rfl

/-! ## Starts and parts -/

/-- What follows `front` in characters that start with it. -/
def afterPrefix? : List Char → List Char → Option (List Char)
  | [], characters => some characters
  | _ :: _, [] => none
  | head :: front, first :: rest => if head = first then afterPrefix? front rest else none

/-- Characters with a start in front have it, and the rest follows. -/
theorem afterPrefix?_append (front rest : List Char) :
    afterPrefix? front (front ++ rest) = some rest := by
  induction front with
  | nil => rfl
  | cons head front inductionHypothesis => simp [afterPrefix?, inductionHypothesis]

/-- Start and rest make up the characters. -/
theorem eq_append_of_afterPrefix? {front characters rest : List Char}
    (found : afterPrefix? front characters = some rest) : characters = front ++ rest := by
  induction front generalizing characters with
  | nil =>
      simp only [afterPrefix?, Option.some.injEq] at found
      exact found
  | cons head front inductionHypothesis =>
      cases characters with
      | nil => simp [afterPrefix?] at found
      | cons first later =>
          simp only [afterPrefix?] at found
          split at found
          · next equal => rw [inductionHypothesis found, equal, List.cons_append]
          · cases found

/-- A character that `front` does not have ends the search for it. -/
theorem afterPrefix?_append_of_not_mem {front : List Char} {separator : Char}
    (absent : separator ∉ front) (before after : List Char) :
    afterPrefix? front (before ++ separator :: after) =
      (afterPrefix? front before).map (· ++ separator :: after) := by
  induction front generalizing before with
  | nil => rfl
  | cons head front inductionHypothesis =>
      rw [List.mem_cons, not_or] at absent
      cases before with
      | nil => exact if_neg (Ne.symm absent.1)
      | cons first rest =>
          rw [List.cons_append, afterPrefix?, afterPrefix?]
          split
          · exact inductionHypothesis absent.2 rest
          · rfl

/-- Whether `part` stands somewhere in characters. -/
def occursIn (part : List Char) : List Char → Bool
  | [] => part.isEmpty
  | first :: rest => part.isPrefixOf (first :: rest) || occursIn part rest

theorem occursIn_iff {part characters : List Char} :
    occursIn part characters = true ↔ part <:+: characters := by
  induction characters with
  | nil => rw [occursIn, List.isEmpty_iff, List.infix_nil]
  | cons first rest inductionHypothesis =>
      rw [occursIn, Bool.or_eq_true, List.isPrefixOf_iff_prefix, inductionHypothesis,
        List.infix_cons_iff]

end NostrCapsule.Text
