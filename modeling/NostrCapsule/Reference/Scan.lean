import NostrCapsule.Identifier.Spelling

/-!
Contract: references in running text.

A reference is the scheme, one of five names, the separator, and small letters and digits other
than `1`, `b`, `i` and `o`, as many as follow.  Only this shape is looked at; whether the token
reads is for others to find out.

Owns:
- the shape of a reference: `names`, `isBody` and `referenceAt?`;
- `Piece` and `piecesOf`, which cut text into references and single characters;
- `ReferenceMatch` and `scan`, the references with their places in octets.

Does not own: what a reference stands for.
-/

namespace NostrCapsule

/-- A part of a text: a character, or a reference by its token. -/
inductive Piece where
  | plain (character : Char)
  | reference (token : String)
deriving DecidableEq, Repr

namespace Piece

def chars : Piece → List Char
  | .plain character => [character]
  | .reference token => scheme.toList ++ token.toList

def token? : Piece → Option String
  | .plain _ => none
  | .reference token => some token

end Piece

namespace Reference

/-- The names that a token can begin with, in the order in which they are tried. -/
def names : List String := ["npub", "nprofile", "note", "nevent", "naddr"]

def isBody (character : Char) : Bool :=
  character == '0' || ('2' ≤ character && character ≤ '9') || character == 'a'
    || ('c' ≤ character && character ≤ 'h') || ('j' ≤ character && character ≤ 'n')
    || ('p' ≤ character && character ≤ 'z')

/-- The token with a name at the start of characters, and what follows it. -/
def tokenNamed? (characters : List Char) (name : String) : Option (List Char × List Char) :=
  let front := name.toList ++ ['1']
  (Text.afterPrefix? front characters).bind fun rest =>
    let body := rest.takeWhile isBody
    if body.isEmpty then none else some (front ++ body, rest.dropWhile isBody)

/-- The token of the reference at the start of characters, and what follows it. -/
def referenceAt? (characters : List Char) : Option (List Char × List Char) :=
  (Text.afterPrefix? scheme.toList characters).bind fun rest =>
    names.findSome? (tokenNamed? rest)

/-- A reference at the start of characters is the scheme, its token and what follows. -/
theorem eq_append_of_referenceAt? {characters token rest : List Char}
    (found : referenceAt? characters = some (token, rest)) :
    characters = scheme.toList ++ (token ++ rest) := by
  obtain ⟨afterScheme, atScheme, found⟩ := Option.bind_eq_some_iff.mp found
  obtain ⟨name, _, found⟩ := List.exists_of_findSome?_eq_some found
  obtain ⟨afterFront, atFront, found⟩ := Option.bind_eq_some_iff.mp found
  rw [Text.eq_append_of_afterPrefix? atScheme, Text.eq_append_of_afterPrefix? atFront]
  dsimp only at found
  split at found
  · cases found
  · simp only [Option.some.injEq, Prod.mk.injEq] at found
    obtain ⟨rfl, rfl⟩ := found
    rw [List.append_assoc, List.append_assoc, List.takeWhile_append_dropWhile,
      List.append_assoc]

private theorem length_lt_of_referenceAt? {characters token rest : List Char}
    (found : referenceAt? characters = some (token, rest)) :
    rest.length < characters.length := by
  rw [eq_append_of_referenceAt? found]
  have : scheme.toList.length = 6 := by decide
  simp only [List.length_append]
  omega

/-- Cuts characters into pieces, from left to right. -/
def pieces (characters : List Char) : List Piece :=
  match characters with
  | [] => []
  | character :: later =>
      match _found : referenceAt? (character :: later) with
      | some (token, rest) => .reference (String.ofList token) :: pieces rest
      | none => .plain character :: pieces later
termination_by characters.length
decreasing_by
  · exact length_lt_of_referenceAt? _found
  · simp

def piecesOf (text : String) : List Piece :=
  pieces text.toList

end Reference

/-- A reference in a text: where it starts and ends, in octets, and its token. -/
structure ReferenceMatch where
  start : Nat
  stop : Nat
  token : String
deriving DecidableEq, Repr

namespace ReferenceMatch

def spelling (found : ReferenceMatch) : String :=
  scheme ++ found.token

end ReferenceMatch

namespace Reference

/-- The references among pieces that start at an octet. -/
def matchesFrom (offset : Nat) : List Piece → List ReferenceMatch
  | [] => []
  | .plain character :: rest => matchesFrom (offset + character.utf8Size) rest
  | .reference token :: rest =>
      let stop := offset + (scheme ++ token).utf8ByteSize
      ⟨offset, stop, token⟩ :: matchesFrom stop rest

/-- The references in a text, in order, repeated ones included.  A text without the scheme is not
cut into pieces. -/
def scan (text : String) : List ReferenceMatch :=
  if Text.occursIn scheme.toList text.toList then matchesFrom 0 (piecesOf text) else []

end Reference

end NostrCapsule
